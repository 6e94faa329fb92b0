import SoftToken.Derivation.Rule
import SoftToken.Key.Secret
import SoftToken.Mechanism
/-!
# Key derivation

A generator is a derivation rule with the template of the keys it makes. A derived key counts as never
exposed only if the base key does too, whatever the template says.
-/

namespace SoftToken

/-- A derivation in progress; the template is missing until it is given. -/
structure DerivationGenerator where
  mechanism : MechanismId
  rule : DerivationRule
  template : Option SecretTemplate := none
deriving DecidableEq, Repr

namespace DerivationGenerator

/-- Reads the template of the keys to derive. -/
def init (g : DerivationGenerator) (attributes : List Attribute) : Except Error DerivationGenerator := do
  return { g with template := some (← SecretTemplate.ofAttributes attributes) }

/-- The template of the keys to derive. -/
def requireTemplate (g : DerivationGenerator) : Except Error SecretTemplate := SecretTemplate.require g.template

/-- The kind of a base key that is accepted and allows derivation. -/
def checkBase (g : DerivationGenerator) (base : Object) (accept : KeyKind → Bool) : Except Error KeyKind :=
  match base.kind with
  | .error e => .error (.wrapping .keyTypeInconsistent e)
  | .ok k =>
    if accept k then do
      base.checkPermission .derive
      return k
    else refuse .keyTypeInconsistent (.cannotDerive g.mechanism k)

def isSecret : KeyKind → Bool
  | .secret _ => true
  | _ => false

/-- The value of a base key that is a secret key. -/
def baseSecret (g : DerivationGenerator) (base : Object) : Except Error Bytes := do
  discard (g.checkBase base isSecret)
  return (← SecretKey.ofObject base).value

/-- Whether agreement starts from a kind of key; the cofactor form takes prime curves only. -/
def acceptsAgreement (g : DerivationGenerator) : KeyKind → Bool
  | .ecPrivate _ => true
  | .montgomeryPrivate _ => g.mechanism != .ecdh1CofactorDerive
  | _ => false

/-- The material agreed with a peer. -/
def agreedMaterial (g : DerivationGenerator) (kdf : AgreementKdf) (shared peer : Bytes) (base : Object) :
    Except Failure Bytes := do
  let kind ← g.checkBase base g.acceptsAgreement
  let family := (CurveFamily.ofPrivate? kind).getD .prime
  let key ← EcPrivateKey.ofObject base family.keyType
  match key.curve.decodePoint peer with
  | .error e => throw (.error (.wrapping .mechanismParamInvalid e))
  | .ok point =>
    let template ← g.requireTemplate
    kdf.secret (← family.agree key.curve key.value point) shared template.minimalLength

/-- The encryption of data under the base key. -/
def encryptedMaterial (g : DerivationGenerator) (c : BlockCipher) (iv : Option Bytes) (data : Bytes)
    (base : Object) : Except Error Bytes := do
  discard (g.checkBase base (· == .secret c.keyType))
  let key ← SecretKey.ofObjectOfTypes base [c.keyType]
  match c.encryptor? key.value with
  | none => refuse .keySizeRange (.blockKeyLength key.value.length c.keyType)
  | some e => match iv with
    | none => return BlockCipher.ecb e data
    | some iv => return BlockCipher.cbc e iv data

/-- The material of a new key. -/
def material (g : DerivationGenerator) (base : Object) : Except Failure Bytes := do
  match g.rule with
  | .digest d => return d.hash (← g.baseSecret base)
  | .appendKey other => return (← g.baseSecret base) ++ other.value
  | .appendData data => return (← g.baseSecret base) ++ data
  | .prependData data => return data ++ (← g.baseSecret base)
  | .xorData data => return Bytes.xor (← g.baseSecret base) data
  | .extractBits index =>
    let value ← g.baseSecret base
    if 8 * value.length ≤ index then refuse .mechanismParamInvalid (.bitIndexTooLarge index)
    else DerivationRule.bitsFrom value index (← g.requireTemplate).minimalLength
  | .agree kdf shared peer => g.agreedMaterial kdf shared peer base
  | .hkdf steps =>
    let value ← g.baseSecret base
    steps.run value (← g.requireTemplate).minimalLength
  | .encrypt c iv data => g.encryptedMaterial c iv data base

/-- The new key that holds the material derived from a base key. -/
def derivedKey (g : DerivationGenerator) (base : Object) (secret : Bytes) : Except Error Object := do
  let o ← (← g.requireTemplate).build secret
  let o := o.put (.ofBool .isLocal false)
  let alwaysSensitive := base.alwaysSensitive && o.alwaysSensitive
  let neverExtractable := base.neverExtractable && o.neverExtractable
  let o := (o.put (.ofBool .alwaysSensitive alwaysSensitive)).put (.ofBool .neverExtractable neverExtractable)
  let o ← o.recompute
  o.validate
  return o

/-- Takes the exposure of another key over to a new one. -/
def taint (other : OtherKey) (o : Object) : Object :=
  let o := if other.alwaysSensitive then o else o.put (.ofBool .alwaysSensitive false)
  if other.neverExtractable then o else o.put (.ofBool .neverExtractable false)

/-- Derives a key from a base key. -/
def generate (g : DerivationGenerator) (base : Object) : Except Failure Object := do
  let o ← g.derivedKey base (← g.material base)
  match g.rule with
  | .appendKey other => return taint other o
  | _ => return o

end DerivationGenerator
end SoftToken
