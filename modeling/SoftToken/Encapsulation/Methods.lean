import SoftToken.Encapsulation.Encapsulator
import SoftToken.Method
/-!
# The methods of an encapsulator

An encapsulator is told its template, encapsulates and decapsulates, as an object that its methods may change. It keeps
the number of its derivation with the other parameters: for each secret it sets the agreement up, where it takes in the
private value and looks the derivation up again.
-/

namespace SoftToken

/-- Takes in the private value of an agreement. Its length counts over the Montgomery curves only. -/
def CurveFamily.takeValue (f : CurveFamily) (c : Curve) (value : Bytes) : Except Error Unit :=
  let unsupported := refuse .curveNotSupported (.curveUnsupported c)
  match f with
  | prime => if c.prime?.isSome then .ok () else unsupported
  | montgomery => match c.montgomery? with
    | some m => if value.length ≠ m.size then refuse .keyHandleInvalid (.agreementKeyLength c) else .ok ()
    | none => unsupported

namespace Encapsulator

open Method (ask self update)

/-- Puts the template for the keys to make in the place of the one before. -/
def initSteps (attributes : List Attribute) : Method Encapsulator Unit := do
  let template ← SecretTemplate.ofAttributes attributes
  update ({ · with template := some template })

/-- Sets an agreement up with a private value: the derivation to use. -/
def setUpAgreement (family : CurveFamily) (params : AgreementParams) (c : Curve) (value : Bytes) :
    Except Error AgreementKdf := do
  family.takeValue c value
  AgreementKdf.ofNumber params.kdf

/-! ## Encapsulation -/

/-- Encapsulates by ML-KEM. -/
def encapsulateMlKemSteps (key : Object) : Method Encapsulator (Bytes × Bytes) := do
  let view ← ask (·.mlKemPublic key)
  discard (ask requireTemplate)
  let (set, sizes) ← mlKemSet view.parameterSet
  checkLength view.value sizes.publicKey
  MlKem.encapsulate set view.value

/-- Draws a secret and encrypts it. -/
def encapsulateRsaSteps (padding : Rsa.Padding) (key : Object) : Method Encapsulator (Bytes × Bytes) := do
  let view ← ask (·.rsaPublic key)
  let rsaKey ← Rsa.Key.ofPublic view
  let length := (← ask requireTemplate).minimalLength
  if padding.maxData rsaKey < length then throw (.error (.bare .keySizeRange))
  else
    let secret ← Draw.bytes length
    return (secret, ← Rsa.encrypt rsaKey padding secret)

/-- Agrees on a secret with a fresh key pair, by an agreement that is set up with it. -/
def encapsulateAgreementSteps (family : CurveFamily) (params : AgreementParams) (key : Object) :
    Method Encapsulator (Bytes × Bytes) := do
  ask (·.checkNoPeer params)
  let view ← ask (·.agreementPublic family key)
  let template ← ask requireTemplate
  let (value, point) ← family.drawKeyPair view.curve
  let kdf ← setUpAgreement family params view.curve value
  let shared ← family.agree view.curve value view.point
  let secret ← kdf.secret shared (params.sharedData.getD []) template.minimalLength
  return (secret, view.curve.encodePoint point)

/-- A new secret key with its encapsulated data. -/
def encapsulateSteps (key : Object) : Method Encapsulator (Object × Bytes) := do
  let (secret, data) ← match (← self).scheme with
    | .mlKem => encapsulateMlKemSteps key
    | .rsa padding => encapsulateRsaSteps padding key
    | .agreement family _ params => encapsulateAgreementSteps family params key
  return (← ask (·.secretKey secret), data)

/-! ## Decapsulation -/

/-- Recovers a secret by ML-KEM. -/
def recoverMlKemSteps (key : Object) (data : Bytes) : Method Encapsulator Bytes := do
  let view ← ask (·.mlKemPrivate key)
  discard (ask requireTemplate)
  let (set, sizes) ← mlKemSet view.parameterSet
  if data.length ≠ sizes.output then
    throw (.error (.explained .encryptedDataLenRange (.ciphertextLength data.length sizes.output)))
  else do
    checkLength view.value sizes.privateKey
    MlKem.decapsulate set view.value data

/-- Decrypts a secret. -/
def recoverRsaSteps (padding : Rsa.Padding) (key : Object) (data : Bytes) : Method Encapsulator Bytes := do
  let view ← ask (·.rsaPrivate key)
  let rsaKey ← Rsa.Key.ofPrivate view
  discard (ask requireTemplate)
  Rsa.decrypt rsaKey padding data

/-- Agrees on a secret with the peer whose point is the data. -/
def recoverAgreementSteps (family : CurveFamily) (params : AgreementParams) (key : Object) (data : Bytes) :
    Method Encapsulator Bytes := do
  ask (·.checkNoPeer params)
  let view ← ask (·.agreementPrivate family key)
  match view.curve.decodePoint data with
  | .error cause => throw (.error (.wrapping .argumentsBad cause))
  | .ok peer =>
    let template ← ask requireTemplate
    let kdf ← setUpAgreement family params view.curve view.value
    let shared ← family.agree view.curve view.value peer
    kdf.secret shared (params.sharedData.getD []) template.minimalLength

/-- Recovers a secret key from encapsulated data. -/
def decapsulateSteps (key : Object) (data : Bytes) : Method Encapsulator Object := do
  let secret ← match (← self).scheme with
    | .mlKem => recoverMlKemSteps key data
    | .rsa padding => recoverRsaSteps padding key data
    | .agreement family _ params => recoverAgreementSteps family params key data
  ask (·.secretKey secret)

end Encapsulator
end SoftToken
