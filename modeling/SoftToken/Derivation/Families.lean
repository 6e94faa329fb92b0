import SoftToken.Derivation.Generator
import SoftToken.Digest.Selection
import SoftToken.Params
import SoftToken.Signature.Families
import SoftToken.Store
/-!
# Families of derivation mechanisms

For each family of mechanisms, which mechanisms belong to it and what their parameters mean. Handles in
the parameters are looked up when the generator is made.
-/

namespace SoftToken.DerivationGenerator

private def invalid {α : Type} (r : Reason) : Except Error α := refuse .mechanismParamInvalid r

/-! ## Digests -/

/-- The derivations by a digest. -/
def digestMechanisms : List (MechanismId × Digest) :=
  [(.md2KeyDerivation, .md2), (.md5KeyDerivation, .md5), (.sha1KeyDerivation, .sha1),
    (.sha224KeyDerivation, .sha224), (.sha256KeyDerivation, .sha256), (.sha384KeyDerivation, .sha384),
    (.sha512KeyDerivation, .sha512), (.sha512_224KeyDerivation, .sha512_224),
    (.sha512_256KeyDerivation, .sha512_256), (.sha3_224KeyDerivation, .sha3_224),
    (.sha3_256KeyDerivation, .sha3_256), (.sha3_384KeyDerivation, .sha3_384),
    (.sha3_512KeyDerivation, .sha3_512), (.shake128KeyDerivation, .shake128),
    (.shake256KeyDerivation, .shake256), (.blake2b160KeyDerive, .blake2b160),
    (.blake2b256KeyDerive, .blake2b256), (.blake2b384KeyDerive, .blake2b384),
    (.blake2b512KeyDerive, .blake2b512)]

def ofDigest (m : Mechanism) : Except Error DerivationGenerator :=
  match digestMechanisms.lookup m.id with
  | some d => do
    Params.requireNone m.params
    return { mechanism := m.id, rule := .digest d }
  | none => notInFamily

/-! ## Combination with data or with a key -/

/-- The key that a handle names, which must be a secret key that allows derivation. -/
def otherKey (store : Store) (handle : UInt64) : Except Error OtherKey :=
  match store.find handle with
  | .error e => .error (.wrapping .mechanismParamInvalid e)
  | .ok o => match o.kind with
    | .ok (.secret _) =>
      match o.checkPermission .derive with
      | .error _ => invalid .otherKeyNotDerivable
      | .ok () => do
        let k ← SecretKey.ofObject o
        return ⟨k.value, o.alwaysSensitive, o.neverExtractable⟩
    | _ => invalid .otherKeyNotSecret

/-- The data of the parameters, which must not be empty. -/
def stringData (m : Mechanism) : Except Error Bytes := do
  let p ← Params.decode StringData m.params
  if p.data.isEmpty then invalid .dataEmpty else return p.data

def ofCombination (m : Mechanism) (store : Store) : Except Error DerivationGenerator := do
  let with' := fun (r : DerivationRule) => ({ mechanism := m.id, rule := r } : DerivationGenerator)
  if m.id = .concatenateBaseAndKey then
    let p ← Params.decode HandleParam m.params
    return with' (.appendKey (← otherKey store p.handle))
  else if m.id = .concatenateBaseAndData then return with' (.appendData (← stringData m))
  else if m.id = .concatenateDataAndBase then return with' (.prependData (← stringData m))
  else if m.id = .xorBaseAndData then return with' (.xorData (← stringData m))
  else if m.id = .extractKeyFromKey then
    let p ← Params.decode ExtractParams m.params
    return with' (.extractBits p.index.toNat)
  else notInFamily

/-! ## Agreement -/

/-- The parameters of an agreement with the derivation they name. -/
def agreementParams (m : Mechanism) : Except Error (AgreementParams × AgreementKdf) := do
  let p ← Params.decode AgreementParams m.params
  return (p, ← AgreementKdf.ofNumber p.kdf)

def ofAgreement (m : Mechanism) : Except Error DerivationGenerator := do
  let (p, kdf) ← agreementParams m
  let peer := p.publicData.getD []
  if peer.isEmpty then invalid .peerKeyRequired
  else return { mechanism := m.id, rule := .agree kdf (p.sharedData.getD []) peer }

/-! ## HKDF -/

/-- The digests of HKDF. -/
def hkdfDigests : List (MechanismId × Digest) :=
  [(.sha1, .sha1), (.sha224, .sha224), (.sha256, .sha256), (.sha384, .sha384), (.sha512, .sha512),
    (.sha3_224, .sha3_224), (.sha3_256, .sha3_256), (.sha3_384, .sha3_384), (.sha3_512, .sha3_512)]

/-- The digest of HKDF that a mechanism names. -/
def hkdfDigest (m : MechanismId) : Except Error Digest :=
  match hkdfDigests.lookup m with
  | some d => .ok d
  | none => invalid (.prfUnsupported m)

/-- The salt that the parameters choose: none, given data, or the value of a key. -/
def hkdfSalt (p : HkdfParams) (store : Store) : Except Error (Option Bytes) :=
  if p.saltType = 1 then .ok none
  else if p.saltType = 2 then
    match p.salt with
    | some (x :: r) => .ok (some (x :: r))
    | _ => invalid .saltMissing
  else if p.saltType = 4 then
    match store.find p.saltKey with
    | .error e => .error (.wrapping .mechanismParamInvalid e)
    | .ok o => match SecretKey.ofObject o with
      | .ok k => .ok (some k.value)
      | .error e => .error (.wrapping .mechanismParamInvalid e)
  else invalid (.saltTypeInvalid p.saltType)

def ofHkdf (m : Mechanism) (store : Store) : Except Error DerivationGenerator := do
  if m.id ≠ .hkdfDerive then notInFamily
  else
    let p ← Params.decode HkdfParams m.params
    if !p.extract && !p.expand then invalid .noHkdfStep
    else
      let digest ← hkdfDigest p.hash
      let salt ← if p.extract then hkdfSalt p store else pure none
      return { mechanism := m.id, rule := .hkdf ⟨digest, p.extract, p.expand, salt, p.info.getD []⟩ }

/-! ## Encryption of data -/

/-- The derivations by encryption: the cipher, and whether blocks are chained. -/
def encryptMechanisms : List (MechanismId × BlockCipher × Bool) :=
  [(.aesEcbEncryptData, .aes, false), (.aesCbcEncryptData, .aes, true),
    (.camelliaEcbEncryptData, .camellia, false), (.camelliaCbcEncryptData, .camellia, true)]

/-- The initial block and the data of the parameters. -/
def encryptParams (m : Mechanism) (chained : Bool) : Except Error (Option Bytes × Bytes) := do
  if chained then
    let p ← Params.decode CbcData m.params
    if p.iv.length ≠ BlockCipher.blockSize then invalid .ivLength else return (some p.iv, p.data)
  else return (none, (← Params.decode StringData m.params).data)

def ofEncryption (m : Mechanism) : Except Error DerivationGenerator :=
  match encryptMechanisms.lookup m.id with
  | none => notInFamily
  | some (cipher, chained) => do
    let (iv, data) ← encryptParams m chained
    if data.isEmpty || data.length % BlockCipher.blockSize != 0 then invalid (.dataNotBlocks data.length)
    else return { mechanism := m.id, rule := .encrypt cipher iv data }

end SoftToken.DerivationGenerator
