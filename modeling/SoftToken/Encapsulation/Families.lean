import SoftToken.Derivation.Families
import SoftToken.Encapsulation.Encapsulator
/-!
# Families of encapsulation mechanisms

For each family of mechanisms, which keys it takes and what the parameters mean.
-/

namespace SoftToken.Encapsulator

/-- ML-KEM takes no parameters. -/
def ofMlKem (m : Mechanism) (type : KeyType) : Except Error Encapsulator := do
  if type ≠ .mlKem then fail .keyHandleInvalid
  else
    Params.requireNone m.params
    return { mechanism := .mlKem, scheme := .mlKem }

/-- The number of a label that is given in the parameters. -/
def labelGiven : UInt64 := 1

/-- The OAEP padding of a mechanism. -/
def oaepPadding (m : Mechanism) : Except Error Rsa.Padding := do
  let p ← Params.decode OaepParams m.params
  let hash ← Digest.ofMechanism p.hash
  let mask ← Digest.ofMask p.mask
  let label := p.label.getD []
  if !label.isEmpty && p.source != labelGiven then
    refuse .mechanismParamInvalid (.labelSourceInvalid p.source)
  else return .oaep ⟨hash, mask, label⟩

/-- RSA takes parameters with OAEP padding only. -/
def ofRsa (m : Mechanism) (type : KeyType) : Except Error Encapsulator := do
  if type ≠ .rsa then fail .keyHandleInvalid
  else if m.id = .rsaPkcs then return { mechanism := m.id, scheme := .rsa .pkcs1 }
  else if m.id = .rsaPkcsOaep then return { mechanism := m.id, scheme := .rsa (← oaepPadding m) }
  else notInFamily

/-- The curves an agreement mechanism runs over for keys of a type. The cofactor form takes prime
curves only. -/
def agreementFamily? (m : MechanismId) (type : KeyType) : Option CurveFamily :=
  if type = .ec && (m == .ecdh1Derive || m == .ecdh1CofactorDerive) then some .prime
  else if type = .ecMontgomery && m == .ecdh1Derive then some .montgomery
  else none

def ofAgreement (m : Mechanism) (type : KeyType) : Except Error Encapsulator := do
  let (params, kdf) ← DerivationGenerator.agreementParams m
  match agreementFamily? m.id type with
  | some family => return { mechanism := m.id, scheme := .agreement family kdf params }
  | none => refuse .keyHandleInvalid (.keyTypeNotForMechanism type m.id)

end SoftToken.Encapsulator
