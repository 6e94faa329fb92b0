import SoftToken.Agreement
import SoftToken.Key.Secret
import SoftToken.Mechanism
import SoftToken.MlKem
import SoftToken.Params
import SoftToken.Rsa.Cipher
/-!
# Key encapsulation

An encapsulator makes a secret for the owner of a public key, together with the data from which the
owner recovers it. Both sides hold the secret as a new secret key. Since it was never confined to the
token, such a key counts neither as sensitive nor as local, whatever the template says.
-/

namespace SoftToken

/-- How a secret is encapsulated. -/
inductive EncapsulationScheme where
  | mlKem
  | rsa (padding : Rsa.Padding)
  /-- Agreement with a fresh key pair, whose public point is the encapsulated data. -/
  | agreement (family : CurveFamily) (kdf : AgreementKdf) (params : AgreementParams)
deriving DecidableEq, Repr

/-- An encapsulation in progress; the template is missing until it is given. -/
structure Encapsulator where
  mechanism : MechanismId
  scheme : EncapsulationScheme
  template : Option SecretTemplate := none
deriving DecidableEq, Repr

namespace Encapsulator

/-- Reads the template of the keys to make. -/
def init (e : Encapsulator) (attributes : List Attribute) : Except Error Encapsulator := do
  return { e with template := some (← SecretTemplate.ofAttributes attributes) }

/-- The template of the keys to make. -/
def requireTemplate (e : Encapsulator) : Except Error SecretTemplate := SecretTemplate.require e.template

/-- The flags that an encapsulated secret never has. -/
def clearedFlags : List AttributeId := [.sensitive, .alwaysSensitive, .neverExtractable, .isLocal]

/-- The new key that holds a secret. -/
def secretKey (e : Encapsulator) (secret : Bytes) : Except Error Object := do
  let o ← (← e.requireTemplate).build secret
  (clearedFlags.foldl (fun o id => o.put (.ofBool id false)) o).recompute

/-! ## Keys -/

/-- The public key of an ML-KEM operation. -/
def mlKemPublic (e : Encapsulator) (key : Object) : Except Error SetKey := do
  discard (key.bind e.mechanism .encapsulate "ML-KEM public key" (· == .mlKemPublic))
  SetKey.ofPublic .mlKem key

/-- The private key of an ML-KEM operation. -/
def mlKemPrivate (e : Encapsulator) (key : Object) : Except Error SetKey := do
  discard (key.bind e.mechanism .decapsulate "ML-KEM private key" (· == .mlKemPrivate))
  SetKey.ofPrivate .mlKem key

/-- The parameters of an ML-KEM set and its sizes. -/
def mlKemSet (set : UInt64) : Except Error (MlKem.Parameters × ParameterSizes) :=
  match MlKem.parameters? set, ParameterFamily.mlKem.sizes? set with
  | some P, some sizes => .ok (P, sizes)
  | _, _ => refuse .keyHandleInvalid (.unknownParameterSet .mlKem set)

/-- Refuses a key of another length than its parameter set gives. -/
def checkLength (key : Bytes) (expected : Nat) : Except Error Unit :=
  if key.length = expected then .ok () else .error (.outside .lengthMismatch)

/-- The public key of an RSA operation. -/
def rsaPublic (e : Encapsulator) (key : Object) : Except Error RsaPublicKey := do
  discard (key.bind e.mechanism .encapsulate "RSA public key" (· == .rsaPublic))
  RsaPublicKey.ofObject key

/-- The private key of an RSA operation. -/
def rsaPrivate (e : Encapsulator) (key : Object) : Except Error RsaPrivateKey := do
  discard (key.bind e.mechanism .decapsulate "RSA private key" (· == .rsaPrivate))
  RsaPrivateKey.ofObject key

/-- The public key of an agreement. -/
def agreementPublic (e : Encapsulator) (f : CurveFamily) (key : Object) : Except Error EcPublicKey := do
  discard (key.bind e.mechanism .encapsulate (f.name ++ " public key") f.isPublic)
  EcPublicKey.ofObject key f.keyType

/-- The private key of an agreement. -/
def agreementPrivate (e : Encapsulator) (f : CurveFamily) (key : Object) : Except Error EcPrivateKey := do
  discard (key.bind e.mechanism .decapsulate (f.name ++ " private key") f.isPrivate)
  EcPrivateKey.ofObject key f.keyType

/-- Refuses a peer key in the parameters: it travels as encapsulated data. -/
def checkNoPeer (e : Encapsulator) (p : AgreementParams) : Except Error Unit :=
  if (p.publicData.getD []).isEmpty then .ok ()
  else refuse .mechanismParamInvalid (.peerKeyNotAllowed e.mechanism)

/-! ## Operations -/

/-- The length of the encapsulated data for a public key. -/
def encapsulatedLength (e : Encapsulator) (key : Object) : Except Error Nat := do
  match e.scheme with
  | .mlKem => match ParameterFamily.mlKem.sizes? (← e.mlKemPublic key).parameterSet with
    | some sizes => return sizes.output
    | none => fail .keyHandleInvalid
  | .rsa _ => return (← e.rsaPublic key).modulusLength
  | .agreement family _ _ => return family.encapsulatedLength (← e.agreementPublic family key).curve

/-- Encapsulates by ML-KEM. -/
def encapsulateMlKem (e : Encapsulator) (key : Object) : Draw (Bytes × Bytes) := do
  let view ← e.mlKemPublic key
  discard (liftM e.requireTemplate : Draw SecretTemplate)
  let (set, sizes) ← mlKemSet view.parameterSet
  checkLength view.value sizes.publicKey
  MlKem.encapsulate set view.value

/-- Draws a secret and encrypts it. -/
def encapsulateRsa (e : Encapsulator) (padding : Rsa.Padding) (key : Object) : Draw (Bytes × Bytes) := do
  let rsaKey ← Rsa.Key.ofPublic (← e.rsaPublic key)
  let length := (← e.requireTemplate).minimalLength
  if padding.maxData rsaKey < length then throw (.error (.bare .keySizeRange))
  else
    let secret ← Draw.bytes length
    return (secret, ← Rsa.encrypt rsaKey padding secret)

/-- Agrees on a secret with a fresh key pair. -/
def encapsulateAgreement (e : Encapsulator) (family : CurveFamily) (kdf : AgreementKdf)
    (params : AgreementParams) (key : Object) : Draw (Bytes × Bytes) := do
  e.checkNoPeer params
  let view ← e.agreementPublic family key
  let template ← e.requireTemplate
  let (value, point) ← family.drawKeyPair view.curve
  let shared ← family.agree view.curve value view.point
  let secret ← kdf.secret shared (params.sharedData.getD []) template.minimalLength
  return (secret, view.curve.encodePoint point)

/-- A new secret with its encapsulated data. -/
def drawSecret (e : Encapsulator) (key : Object) : Draw (Bytes × Bytes) :=
  match e.scheme with
  | .mlKem => e.encapsulateMlKem key
  | .rsa padding => e.encapsulateRsa padding key
  | .agreement family kdf params => e.encapsulateAgreement family kdf params key

/-- A new secret key with its encapsulated data. -/
def encapsulate (e : Encapsulator) (key : Object) : Draw (Object × Bytes) := do
  let (secret, data) ← e.drawSecret key
  return (← e.secretKey secret, data)

/-- Recovers a secret by ML-KEM. -/
def recoverMlKem (e : Encapsulator) (key : Object) (data : Bytes) : Except Error Bytes := do
  let view ← e.mlKemPrivate key
  discard e.requireTemplate
  let (set, sizes) ← mlKemSet view.parameterSet
  if data.length ≠ sizes.output then
    refuse .encryptedDataLenRange (.ciphertextLength data.length sizes.output)
  else do
    checkLength view.value sizes.privateKey
    MlKem.decapsulate set view.value data

/-- Decrypts a secret. -/
def recoverRsa (e : Encapsulator) (padding : Rsa.Padding) (key : Object) (data : Bytes) :
    Except Error Bytes := do
  let rsaKey ← Rsa.Key.ofPrivate (← e.rsaPrivate key)
  discard e.requireTemplate
  Rsa.decrypt rsaKey padding data

/-- Agrees on a secret with the peer whose point is the data. -/
def recoverAgreement (e : Encapsulator) (family : CurveFamily) (kdf : AgreementKdf)
    (params : AgreementParams) (key : Object) (data : Bytes) : Except Failure Bytes := do
  e.checkNoPeer params
  let view ← e.agreementPrivate family key
  match view.curve.decodePoint data with
  | .error cause => throw (.error (.wrapping .argumentsBad cause))
  | .ok peer =>
    let template ← e.requireTemplate
    let shared ← family.agree view.curve view.value peer
    kdf.secret shared (params.sharedData.getD []) template.minimalLength

/-- The secret that the encapsulated data holds for the owner of a private key. -/
def recoverSecret (e : Encapsulator) (key : Object) (data : Bytes) : Except Failure Bytes := do
  match e.scheme with
  | .mlKem => e.recoverMlKem key data
  | .rsa padding => e.recoverRsa padding key data
  | .agreement family kdf params => e.recoverAgreement family kdf params key data

/-- Recovers a secret key from encapsulated data. -/
def decapsulate (e : Encapsulator) (key : Object) (data : Bytes) : Except Failure Object := do
  e.secretKey (← e.recoverSecret key data)

end Encapsulator
end SoftToken
