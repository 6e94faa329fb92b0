import SoftToken.Ecdsa
import SoftToken.Edwards25519
import SoftToken.MlDsa
import SoftToken.ParameterSet
import SoftToken.Rsa.Signature
import SoftToken.Signature.Options
import SoftToken.SlhDsa
/-!
# Signature engines

A key bound to a signature scheme and its options. An engine works on the complete message, or on its
digest where the mechanism takes one. Signing needs a private key; some private keys also verify.
-/

namespace SoftToken

/-- A private key bound to a scheme. -/
inductive SigningEngine where
  | rsa (scheme : Rsa.Scheme) (key : Rsa.Key)
  | ecdsa (curve : Curve) (value : Bytes)
  | ed25519 (mode : Edwards25519.Mode) (seed : Bytes)
  | mlDsa (set : MlDsa.Parameters) (sizes : ParameterSizes) (options : SigningOptions) (key : Bytes)
  | slhDsa (set : SlhDsa.Parameters) (sizes : ParameterSizes) (options : SigningOptions) (key : Bytes)

/-- A public key bound to a scheme. -/
inductive VerifyingEngine where
  | rsa (scheme : Rsa.Scheme) (key : Rsa.Key)
  | ecdsa (curve : Curve) (point : Bytes)
  | ed25519 (mode : Edwards25519.Mode) (key : Bytes) (point : Edwards25519.Point)
  | mlDsa (set : MlDsa.Parameters) (sizes : ParameterSizes) (options : SigningOptions) (key : Bytes)
  | slhDsa (set : SlhDsa.Parameters) (sizes : ParameterSizes) (options : SigningOptions) (key : Bytes)

/-- Refuses a key that does not have the length of its parameter set. -/
def checkKeyLength (key : Bytes) (expected : Nat) : Except Error Unit :=
  if key.length = expected then .ok () else .error (.outside .lengthMismatch)

/-- Verifies an Ed25519 signature with the key that a point writes. -/
def verifyEd25519 (mode : Edwards25519.Mode) (key : Bytes) (point : Edwards25519.Point)
    (data signature : Bytes) : Except Error Bool :=
  if signature.length = Edwards25519.signatureLength then
    .ok (Edwards25519.verify key point mode data signature)
  else fail .signatureLenRange

namespace SigningEngine

/-- The length of the signatures. -/
def signatureLength : SigningEngine → Nat
  | rsa _ k => k.size
  | ecdsa c _ => 2 * c.keySize
  | ed25519 _ _ => Edwards25519.signatureLength
  | mlDsa _ sizes _ _ | slhDsa _ sizes _ _ => sizes.output

/-- Draws the random bytes of an ML-DSA signature; there are none if it is deterministic. -/
def drawLatticeBytes (o : SigningOptions) : Draw Bytes :=
  if o.deterministic then return Bytes.zeros MlDsa.randomSize
  else
    let reason := if o.prehash.isSome then Reason.prehashRandomFailed else .latticeRandomFailed
    Draw.orElse MlDsa.randomSize (.error (.explained .functionFailed reason))

/-- Signs data. -/
def sign (e : SigningEngine) (data : Bytes) : Draw Bytes := do
  match e with
  | rsa scheme k => Rsa.sign k scheme data
  | ecdsa c value => Ecdsa.sign c value data
  | ed25519 mode seed => return Edwards25519.sign seed mode data
  | mlDsa set sizes o key =>
    checkKeyLength key sizes.privateKey
    let message ← SignedMessage.format o.prehash o.context data
    MlDsa.sign set key message (← drawLatticeBytes o)
  | slhDsa set sizes o key =>
    checkKeyLength key sizes.privateKey
    let k ← SlhDsa.readPrivate set key
    let message ← SignedMessage.format o.prehash o.context data
    return k.sign set message (← k.drawOpening set o.deterministic)

/-- Verifies a signature with a private key, which only some schemes can. -/
def verify (e : SigningEngine) (data signature : Bytes) : Except Failure Bool :=
  let noPublicKey := fun scheme => Except.error (Failure.error (.invariant (.noPublicKey scheme)))
  match e with
  | rsa scheme k => Rsa.verify k scheme data signature
  | ed25519 mode seed => do
    let point := Edwards25519.publicPoint seed
    verifyEd25519 mode (Edwards25519.encode point) point data signature
  | ecdsa _ _ => noPublicKey "ECDSA"
  | mlDsa _ _ _ _ => noPublicKey "ML-DSA"
  | slhDsa _ _ _ _ => noPublicKey "SLH-DSA"

end SigningEngine

namespace VerifyingEngine

/-- The length of the signatures. -/
def signatureLength : VerifyingEngine → Nat
  | rsa _ k => k.size
  | ecdsa c _ => 2 * c.keySize
  | ed25519 _ _ _ => Edwards25519.signatureLength
  | mlDsa _ sizes _ _ | slhDsa _ sizes _ _ => sizes.output

/-- Refuses a signature of another length. -/
def checkLength (signature : Bytes) (sizes : ParameterSizes) : Except Error Unit :=
  if signature.length = sizes.output then .ok () else fail .signatureLenRange

/-- Verifies a signature of data. -/
def verify (e : VerifyingEngine) (data signature : Bytes) : Except Failure Bool := do
  match e with
  | rsa scheme k => Rsa.verify k scheme data signature
  | ecdsa c point => Ecdsa.verify c point data signature
  | ed25519 mode key point => verifyEd25519 mode key point data signature
  | mlDsa set sizes o key =>
    checkLength signature sizes
    checkKeyLength key sizes.publicKey
    return MlDsa.verify set key (← SignedMessage.format o.prehash o.context data) signature
  | slhDsa set sizes o key =>
    checkLength signature sizes
    checkKeyLength key sizes.publicKey
    return SlhDsa.verify set key (← SignedMessage.format o.prehash o.context data) signature

end VerifyingEngine
end SoftToken
