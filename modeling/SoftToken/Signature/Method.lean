import SoftToken.Key.View
import SoftToken.Signature.Signer
/-!
# Binding signatures to keys

A signature method is a mechanism with its parameters read. Binding it to a key object gives a signer,
if the key is of the right kind and allows the operation. A private key may ask for a fresh login
before each signature.
-/

namespace SoftToken

/-- A signature scheme with its parameters. -/
inductive SignatureScheme where
  | hmac (digest : Digest) (keyTypes : List KeyType) (length : Option Nat)
  | cmac (cipher : BlockCipher) (length : Option Nat)
  | poly1305
  | rsa (scheme : Rsa.Scheme) (digest : Option Digest)
  | ecdsa (digest : Option Digest)
  | eddsa (mode : Edwards25519.Mode)
  | mlDsa (options : SigningOptions)
  | slhDsa (options : SigningOptions)
deriving DecidableEq, Repr

/-- A signature mechanism ready to be bound to a key. -/
structure SignatureMethod where
  mechanism : MechanismId
  scheme : SignatureScheme
deriving DecidableEq, Repr

/-- A signer, and whether the key asks for a login before each signature. -/
structure BoundSigner where
  signer : Signer
  alwaysAuthenticate : Bool

namespace SignatureScheme

/-- How a block cipher's keys are called. -/
def cipherKeyName : BlockCipher → String
  | .aes => "AES key"
  | .camellia => "Camellia key"

/-- The secret keys that a code accepts, as kinds. -/
def acceptsSecret (types : List KeyType) : KeyKind → Bool
  | .secret t => types.contains t
  | _ => false

def isEcPublic : KeyKind → Bool
  | .ecPublic _ => true
  | _ => false

def isEcPrivate : KeyKind → Bool
  | .ecPrivate _ => true
  | _ => false

def isEdwardsPublic : KeyKind → Bool
  | .edwardsPublic _ => true
  | _ => false

def isEdwardsPrivate : KeyKind → Bool
  | .edwardsPrivate _ => true
  | _ => false

/-- The material of a secret key bound for a code. -/
def bindSecret (m : MechanismId) (key : Object) (usage : AttributeId) (expected : String)
    (types : List KeyType) : Except Error Bytes := do
  discard (key.bind m usage expected (acceptsSecret types))
  return (← SecretKey.ofObjectOfTypes key types).value

/-- Refuses the Edwards curves that have no engine. -/
def checkEdwards (c : Curve) : Except Error Unit :=
  if c = .ed25519 then .ok () else refuse .curveNotSupported (.curveUnsupported c)

/-- Refuses keys of another length. -/
def checkEd25519Length (key : Bytes) : Except Error Unit :=
  if key.length = Edwards25519.keyLength then .ok () else refuse .keyHandleInvalid .ed25519KeyLength

/-- The parameters of an ML-DSA set and its sizes. -/
def mlDsaSet (set : UInt64) : Except Error (MlDsa.Parameters × ParameterSizes) :=
  match MlDsa.parameters? set, ParameterFamily.mlDsa.sizes? set with
  | some P, some sizes => .ok (P, sizes)
  | _, _ => refuse .keyHandleInvalid (.unknownParameterSet .mlDsa set)

/-- The parameters of an SLH-DSA set and its sizes. -/
def slhDsaSet (set : UInt64) : Except Error (SlhDsa.Parameters × ParameterSizes) :=
  match SlhDsa.parameters? set, ParameterFamily.slhDsa.sizes? set with
  | some P, some sizes => .ok (P, sizes)
  | _, _ => refuse .keyHandleInvalid (.unknownParameterSet .slhDsa set)

end SignatureScheme

namespace SignatureMethod

open SignatureScheme

/-- The signer of a code, the same for both directions but for the usage asked of the key. -/
def bindCode? (m : SignatureMethod) (key : Object) (usage : AttributeId) : Option (Except Error Signer) :=
  match m.scheme with
  | .hmac digest types length => some do
    let secret ← bindSecret m.mechanism key usage "HMAC secret key" types
    Signer.ofMac m.mechanism (.hmac digest secret) length
  | .cmac cipher length => some do
    let secret ← bindSecret m.mechanism key usage (cipherKeyName cipher) [cipher.keyType]
    Signer.ofMac m.mechanism (← Mac.newCmac cipher secret) length
  | .poly1305 => some do
    let secret ← bindSecret m.mechanism key usage "Poly1305 key" [.poly1305]
    Signer.ofMac m.mechanism (← Mac.newPoly1305 secret) none
  | _ => none

/-- The engine of a signature scheme with a private key. -/
def signingEngine (m : SignatureMethod) (key : Object) : Except Error (Option Digest × SigningEngine) := do
  match m.scheme with
  | .rsa scheme digest =>
    discard (key.bind m.mechanism .sign "RSA private key" (· == .rsaPrivate))
    return (digest, .rsa scheme (← Rsa.Key.ofPrivate (← RsaPrivateKey.ofObject key)))
  | .ecdsa digest =>
    discard (key.bind m.mechanism .sign "EC private key" isEcPrivate)
    let view ← EcPrivateKey.ofObject key .ec
    return (digest, .ecdsa view.curve view.value)
  | .eddsa mode =>
    discard (key.bind m.mechanism .sign "EC Edwards private key" isEdwardsPrivate)
    let view ← EcPrivateKey.ofObject key .ecEdwards
    checkEdwards view.curve
    checkEd25519Length view.value
    return (none, .ed25519 mode view.value)
  | .mlDsa options =>
    discard (key.bind m.mechanism .sign "ML-DSA private key" (· == .mlDsaPrivate))
    let view ← SetKey.ofPrivate .mlDsa key
    let (set, sizes) ← mlDsaSet view.parameterSet
    return (none, .mlDsa set sizes options view.value)
  | .slhDsa options =>
    discard (key.bind m.mechanism .sign "SLH-DSA private key" (· == .slhDsaPrivate))
    let view ← SetKey.ofPrivate .slhDsa key
    let (set, sizes) ← slhDsaSet view.parameterSet
    return (none, .slhDsa set sizes options view.value)
  | _ => fail .mechanismInvalid

/-- The engine of a signature scheme with a public key. -/
def verifyingEngine (m : SignatureMethod) (key : Object) : Except Error (Option Digest × VerifyingEngine) := do
  match m.scheme with
  | .rsa scheme digest =>
    discard (key.bind m.mechanism .verify "RSA public key" (· == .rsaPublic))
    return (digest, .rsa scheme (← Rsa.Key.ofPublic (← RsaPublicKey.ofObject key)))
  | .ecdsa digest =>
    discard (key.bind m.mechanism .verify "EC public key" isEcPublic)
    let view ← EcPublicKey.ofObject key .ec
    return (digest, .ecdsa view.curve view.point)
  | .eddsa mode =>
    discard (key.bind m.mechanism .verify "EC Edwards public key" isEdwardsPublic)
    let view ← EcPublicKey.ofObject key .ecEdwards
    checkEdwards view.curve
    checkEd25519Length view.point
    match Edwards25519.decode? view.point with
    | some point => return (none, .ed25519 mode view.point point)
    | none => fail .keyHandleInvalid
  | .mlDsa options =>
    discard (key.bind m.mechanism .verify "ML-DSA public key" (· == .mlDsaPublic))
    let view ← SetKey.ofPublic .mlDsa key
    let (set, sizes) ← mlDsaSet view.parameterSet
    return (none, .mlDsa set sizes options view.value)
  | .slhDsa options =>
    discard (key.bind m.mechanism .verify "SLH-DSA public key" (· == .slhDsaPublic))
    let view ← SetKey.ofPublic .slhDsa key
    let (set, sizes) ← slhDsaSet view.parameterSet
    return (none, .slhDsa set sizes options view.value)
  | _ => fail .mechanismInvalid

/-- A signer that makes signatures with a key. -/
def bindSigning (m : SignatureMethod) (key : Object) : Except Error BoundSigner :=
  match m.bindCode? key .sign with
  | some code => do return ⟨← code, false⟩
  | none => do
    let (digest, engine) ← m.signingEngine key
    return ⟨{ mechanism := m.mechanism, core := .signing digest engine },
      key.cls == .privateKey && key.alwaysAuthenticate⟩

/-- A signer that verifies signatures with a key. -/
def bindVerifying (m : SignatureMethod) (key : Object) : Except Error Signer :=
  match m.bindCode? key .verify with
  | some code => code
  | none => do
    let (digest, engine) ← m.verifyingEngine key
    return { mechanism := m.mechanism, core := .verifying digest engine }

end SignatureMethod
end SoftToken
