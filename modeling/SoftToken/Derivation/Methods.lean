import SoftToken.Derivation.Generator
import SoftToken.Method
/-!
# The methods of a generator

A generator is told its template and derives keys, both as an object that its methods may change.
-/

namespace SoftToken.DerivationGenerator

open Method (ask self update)

/-- Puts the template for the keys to derive in the place of the one before. -/
def initSteps (attributes : List Attribute) : Method DerivationGenerator Unit := do
  let template ← SecretTemplate.ofAttributes attributes
  update ({ · with template := some template })

/-- The material agreed with a peer. -/
def agreedSteps (kdf : AgreementKdf) (shared peer : Bytes) (base : Object) : Method DerivationGenerator Bytes := do
  let kind ← ask fun g => g.checkBase base g.acceptsAgreement
  let family := (CurveFamily.ofPrivate? kind).getD .prime
  let key ← EcPrivateKey.ofObject base family.keyType
  match key.curve.decodePoint peer with
  | .error e => throw (.error (.wrapping .mechanismParamInvalid e))
  | .ok point =>
    let template ← ask requireTemplate
    kdf.secret (← family.agree key.curve key.value point) shared template.minimalLength

/-- The encryption of data under the base key. -/
def encryptedSteps (c : BlockCipher) (iv : Option Bytes) (data : Bytes) (base : Object) :
    Method DerivationGenerator Bytes := do
  discard (ask (·.checkBase base (· == .secret c.keyType)))
  let key ← SecretKey.ofObjectOfTypes base [c.keyType]
  match c.encryptor? key.value with
  | none => throw (.error (.explained .keySizeRange (.blockKeyLength key.value.length c.keyType)))
  | some e => match iv with
    | none => return BlockCipher.ecb e data
    | some iv => return BlockCipher.cbc e iv data

/-- The material of a new key. -/
def materialSteps (base : Object) : Method DerivationGenerator Bytes := do
  match (← self).rule with
  | .digest d => return d.hash (← ask (·.baseSecret base))
  | .appendKey other => return (← ask (·.baseSecret base)) ++ other.value
  | .appendData data => return (← ask (·.baseSecret base)) ++ data
  | .prependData data => return data ++ (← ask (·.baseSecret base))
  | .xorData data => return Bytes.xor (← ask (·.baseSecret base)) data
  | .extractBits index =>
    let value ← ask (·.baseSecret base)
    if 8 * value.length ≤ index then throw (.error (.explained .mechanismParamInvalid (.bitIndexTooLarge index)))
    else DerivationRule.bitsFrom value index (← ask requireTemplate).minimalLength
  | .agree kdf shared peer => agreedSteps kdf shared peer base
  | .hkdf steps =>
    let value ← ask (·.baseSecret base)
    steps.run value (← ask requireTemplate).minimalLength
  | .encrypt c iv data => encryptedSteps c iv data base

/-- Derives a key from a base key. -/
def generateSteps (base : Object) : Method DerivationGenerator Object := do
  let secret ← materialSteps base
  let o ← ask (·.derivedKey base secret)
  match (← self).rule with
  | .appendKey other => return taint other o
  | _ => return o

end SoftToken.DerivationGenerator
