import SoftToken.Digest.Selection
import SoftToken.Signature.Method
/-!
# Families of signature mechanisms

For each family of mechanisms, which mechanisms belong to it and what their parameters mean. A
mechanism outside the family is refused.
-/

namespace SoftToken

/-- Refuses a mechanism that a family does not have. -/
def notInFamily {α : Type} : Except Error α := fail .mechanismInvalid

/-- The length asked of a code: none for the mechanisms without parameters. -/
def requestedLength (m : Mechanism) (general : Bool) : Except Error (Option Nat) := do
  if general then return some (← Params.decode MacParams m.params).length.toNat
  else do
    Params.requireNone m.params
    return none

/-! ## HMAC -/

/-- A digest with its HMAC mechanisms and the key type that is reserved for it. -/
structure HmacRow where
  plain : MechanismId
  /-- The mechanism that takes a length. -/
  general : Option MechanismId
  digest : Digest
  keyType : Option KeyType
deriving DecidableEq, Repr

namespace HmacRow

def rows : List HmacRow :=
  [⟨.md2Hmac, some .md2HmacGeneral, .md2, none⟩,
    ⟨.md5Hmac, some .md5HmacGeneral, .md5, some .md5Hmac⟩,
    ⟨.sha1Hmac, some .sha1HmacGeneral, .sha1, some .sha1Hmac⟩,
    ⟨.ripemd128Hmac, some .ripemd128HmacGeneral, .ripemd128, some .ripemd128Hmac⟩,
    ⟨.ripemd160Hmac, some .ripemd160HmacGeneral, .ripemd160, some .ripemd160Hmac⟩,
    ⟨.sha224Hmac, some .sha224HmacGeneral, .sha224, some .sha224Hmac⟩,
    ⟨.sha256Hmac, some .sha256HmacGeneral, .sha256, some .sha256Hmac⟩,
    ⟨.sha384Hmac, some .sha384HmacGeneral, .sha384, some .sha384Hmac⟩,
    ⟨.sha512Hmac, some .sha512HmacGeneral, .sha512, some .sha512Hmac⟩,
    ⟨.sha512_224Hmac, some .sha512_224HmacGeneral, .sha512_224, none⟩,
    ⟨.sha512_256Hmac, some .sha512_256HmacGeneral, .sha512_256, none⟩,
    ⟨.sha3_224Hmac, some .sha3_224HmacGeneral, .sha3_224, some .sha3_224Hmac⟩,
    ⟨.sha3_256Hmac, some .sha3_256HmacGeneral, .sha3_256, some .sha3_256Hmac⟩,
    ⟨.sha3_384Hmac, some .sha3_384HmacGeneral, .sha3_384, some .sha3_384Hmac⟩,
    ⟨.sha3_512Hmac, some .sha3_512HmacGeneral, .sha3_512, some .sha3_512Hmac⟩,
    ⟨.blake2b160Hmac, some .blake2b160HmacGeneral, .blake2b160, some .blake2b160Hmac⟩,
    ⟨.blake2b256Hmac, some .blake2b256HmacGeneral, .blake2b256, some .blake2b256Hmac⟩,
    ⟨.blake2b384Hmac, some .blake2b384HmacGeneral, .blake2b384, some .blake2b384Hmac⟩,
    ⟨.blake2b512Hmac, some .blake2b512HmacGeneral, .blake2b512, some .blake2b512Hmac⟩,
    ⟨.gostr3411Hmac, none, .gost94, none⟩]

def mechanisms (r : HmacRow) : List MechanismId := r.plain :: r.general.toList

/-- The types of the keys that may be used. -/
def keyTypes (r : HmacRow) : List KeyType := .genericSecret :: r.keyType.toList

end HmacRow

namespace SignatureMethod

def ofHmac (m : Mechanism) : Except Error SignatureMethod :=
  match HmacRow.rows.find? fun r => r.mechanisms.contains m.id with
  | some r => do
    let length ← requestedLength m (r.general == some m.id)
    return ⟨m.id, .hmac r.digest r.keyTypes length⟩
  | none => notInFamily

/-! ## CMAC and Poly1305 -/

/-- The CMAC mechanisms: the cipher, and whether a length is taken. -/
def cmacMechanisms : List (MechanismId × BlockCipher × Bool) :=
  [(.aesCmac, .aes, false), (.aesCmacGeneral, .aes, true),
    (.camelliaMac, .camellia, false), (.camelliaMacGeneral, .camellia, true)]

def ofCmac (m : Mechanism) : Except Error SignatureMethod :=
  match cmacMechanisms.lookup m.id with
  | some (cipher, general) => do return ⟨m.id, .cmac cipher (← requestedLength m general)⟩
  | none => notInFamily

def ofPoly1305 (m : Mechanism) : Except Error SignatureMethod := do
  Params.requireNone m.params
  return ⟨.poly1305, .poly1305⟩

/-! ## RSA -/

/-- The PKCS #1 version 1.5 signatures over a digest. -/
def rsaPkcsHashed : List (MechanismId × Digest) :=
  [(.md2RsaPkcs, .md2), (.md5RsaPkcs, .md5), (.ripemd128RsaPkcs, .ripemd128),
    (.ripemd160RsaPkcs, .ripemd160), (.sha1RsaPkcs, .sha1), (.sha224RsaPkcs, .sha224),
    (.sha256RsaPkcs, .sha256), (.sha384RsaPkcs, .sha384), (.sha512RsaPkcs, .sha512),
    (.sha3_224RsaPkcs, .sha3_224), (.sha3_256RsaPkcs, .sha3_256),
    (.sha3_384RsaPkcs, .sha3_384), (.sha3_512RsaPkcs, .sha3_512)]

/-- The PSS signatures over a digest. -/
def rsaPssHashed : List (MechanismId × Digest) :=
  [(.sha1RsaPkcsPss, .sha1), (.sha224RsaPkcsPss, .sha224), (.sha256RsaPkcsPss, .sha256),
    (.sha384RsaPkcsPss, .sha384), (.sha512RsaPkcsPss, .sha512),
    (.sha3_224RsaPkcsPss, .sha3_224), (.sha3_256RsaPkcsPss, .sha3_256),
    (.sha3_384RsaPkcsPss, .sha3_384), (.sha3_512RsaPkcsPss, .sha3_512)]

/-- The PSS scheme of a mechanism. A digest that the mechanism fixes must be the one of the parameters. -/
def pssScheme (m : Mechanism) (bound : Option Digest) : Except Error Rsa.Scheme := do
  let p ← Params.decode PssParams m.params
  let hash ← Digest.ofMechanism p.hash
  if bound.any (· != hash) then refuse .mechanismParamInvalid (.hashMismatch m.id p.hash)
  else return .pss ⟨hash, ← Digest.ofMask p.mask, p.saltLength.toNat⟩

def ofRsa (m : Mechanism) : Except Error SignatureMethod := do
  if m.id = .rsaPkcs then return ⟨m.id, .rsa (.pkcs1 none) none⟩
  else if m.id = .rsa9796 then return ⟨m.id, .rsa .iso9796 none⟩
  else if m.id = .sha1RsaX9_31 then return ⟨m.id, .rsa .x931 (some .sha1)⟩
  else if m.id = .rsaPkcsPss then return ⟨m.id, .rsa (← pssScheme m none) none⟩
  else match rsaPkcsHashed.lookup m.id, rsaPssHashed.lookup m.id with
    | some d, _ => return ⟨m.id, .rsa (.pkcs1 (some d)) (some d)⟩
    | none, some d => return ⟨m.id, .rsa (← pssScheme m (some d)) (some d)⟩
    | none, none => notInFamily

/-! ## Elliptic curves -/

/-- The ECDSA signatures, with the digest they take. -/
def ecdsaMechanisms : List (MechanismId × Option Digest) :=
  [(.ecdsa, none), (.ecdsaSha1, some .sha1), (.ecdsaSha224, some .sha224), (.ecdsaSha256, some .sha256),
    (.ecdsaSha384, some .sha384), (.ecdsaSha512, some .sha512), (.ecdsaSha3_224, some .sha3_224),
    (.ecdsaSha3_256, some .sha3_256), (.ecdsaSha3_384, some .sha3_384), (.ecdsaSha3_512, some .sha3_512)]

def ofEcdsa (m : Mechanism) : Except Error SignatureMethod :=
  match ecdsaMechanisms.lookup m.id with
  | some digest => do
    Params.requireNone m.params
    return ⟨m.id, .ecdsa digest⟩
  | none => notInFamily

/-- The mode that parameters choose; a context goes with a prehash only. -/
def eddsaMode (p : EddsaParams) : Except Error Edwards25519.Mode := do
  let context ← checkContext p.context
  if p.prehash then return .prehash context
  else if context.isEmpty then return .pure
  else refuse .mechanismParamInvalid .contextNeedsPrehash

def ofEddsa (m : Mechanism) : Except Error SignatureMethod := do
  match ← Params.decodeOptional EddsaParams m.params with
  | none => return ⟨.eddsa, .eddsa .pure⟩
  | some p => return ⟨.eddsa, .eddsa (← eddsaMode p)⟩

/-! ## Lattice and hash based signatures -/

/-- The ML-DSA signatures that fix the digest. -/
def mlDsaFixed : List (MechanismId × Prehash) :=
  [(.hashMlDsaSha224, .sha224), (.hashMlDsaSha256, .sha256), (.hashMlDsaSha384, .sha384),
    (.hashMlDsaSha512, .sha512), (.hashMlDsaSha3_224, .sha3_224), (.hashMlDsaSha3_256, .sha3_256),
    (.hashMlDsaSha3_384, .sha3_384), (.hashMlDsaSha3_512, .sha3_512),
    (.hashMlDsaShake128, .shake128), (.hashMlDsaShake256, .shake256)]

/-- The SLH-DSA signatures that fix the digest. -/
def slhDsaFixed : List (MechanismId × Prehash) :=
  [(.hashSlhDsaSha224, .sha224), (.hashSlhDsaSha256, .sha256), (.hashSlhDsaSha384, .sha384),
    (.hashSlhDsaSha512, .sha512), (.hashSlhDsaSha3_224, .sha3_224), (.hashSlhDsaSha3_256, .sha3_256),
    (.hashSlhDsaSha3_384, .sha3_384), (.hashSlhDsaSha3_512, .sha3_512),
    (.hashSlhDsaShake128, .shake128), (.hashSlhDsaShake256, .shake256)]

/-- The options of a mechanism: over the message, over a named digest, or over a fixed one. -/
def optionsOf (m : Mechanism) (preference : HedgePreference) (pureId hashId : MechanismId)
    (fixed : List (MechanismId × Prehash)) : Except Error SigningOptions :=
  if m.id = pureId then SigningOptions.ofParams m preference none
  else if m.id = hashId then SigningOptions.ofHashParams m preference
  else match fixed.lookup m.id with
    | some p => SigningOptions.ofParams m preference (some p)
    | none => notInFamily

def ofMlDsa (m : Mechanism) (preference : HedgePreference) : Except Error SignatureMethod := do
  return ⟨m.id, .mlDsa (← optionsOf m preference .mlDsa .hashMlDsa mlDsaFixed)⟩

def ofSlhDsa (m : Mechanism) (preference : HedgePreference) : Except Error SignatureMethod := do
  return ⟨m.id, .slhDsa (← optionsOf m preference .slhDsa .hashSlhDsa slhDsaFixed)⟩

end SignatureMethod
end SoftToken
