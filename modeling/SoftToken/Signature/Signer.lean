import SoftToken.Signature.Engine
import SoftToken.Signature.Mac
/-!
# Signers

A signer takes in a message in pieces and then makes or verifies one signature. It collects the message
and hands it on, or its digest, when the signature is asked for. That ends the operation, and every
later call is refused. Only the refusal of a code of the wrong length leaves a signer as it was.
-/

namespace SoftToken

/-- What a signer works with. -/
inductive SignerCore where
  /-- A code cut to a length; it serves both directions. -/
  | mac (mac : Mac) (length : Nat)
  | signing (digest : Option Digest) (engine : SigningEngine)
  | verifying (digest : Option Digest) (engine : VerifyingEngine)

/-- A signature or verification in progress. -/
structure Signer where
  mechanism : MechanismId
  core : SignerCore
  /-- The message so far. -/
  message : Bytes := []
  /-- Whether the operation has ended. -/
  ended : Bool := false

namespace Signer

/-- A code of full length, or cut to the requested one. -/
def ofMac (mechanism : MechanismId) (mac : Mac) (requested : Option Nat) : Except Error Signer :=
  let length := requested.getD mac.length
  if mac.length < length then refuse .mechanismParamInvalid (.macTooLong mac.length)
  else .ok { mechanism, core := .mac mac length }

/-- The length of the signatures. -/
def signatureLength (s : Signer) : Nat :=
  match s.core with
  | .mac _ length => length
  | .signing _ e => e.signatureLength
  | .verifying _ e => e.signatureLength

/-- What an engine works on for a message. -/
def digested (digest : Option Digest) (message : Bytes) : Bytes :=
  match digest with
  | some d => d.hash message
  | none => message

/-- Refuses a signer whose operation has ended. -/
def requireOpen (s : Signer) : Except Error Unit :=
  if s.ended then fail .operationNotInitialized else .ok ()

/-- Takes in the next piece of the message. -/
def update (s : Signer) (data : Bytes) : Except Error Signer := do
  s.requireOpen
  return { s with message := s.message ++ data }

/-- The code of the message. -/
def code (mac : Mac) (length : Nat) (message : Bytes) : Bytes := (mac.tag message).take length

/-- Makes the signature of the message. -/
def generate (s : Signer) : Draw Bytes := do
  s.requireOpen
  match s.core with
  | .mac mac length => return code mac length s.message
  | .signing digest e => e.sign (digested digest s.message)
  | .verifying _ _ => throw (.error (.invariant .signatureOnVerification))

/-- Verifies a signature of the message. -/
def verify (s : Signer) (signature : Bytes) : Except Failure Bool := do
  match s.core with
  | .mac mac length =>
    if signature.length ≠ length then throw (.error (.bare .signatureLenRange))
    s.requireOpen
    return code mac length s.message == signature
  | .signing digest e =>
    s.requireOpen
    e.verify (digested digest s.message) signature
  | .verifying digest e =>
    s.requireOpen
    e.verify (digested digest s.message) signature

/-- The signer after its operation. -/
def finish (s : Signer) : Signer := { s with ended := true }

/-- Whether a signature is refused before the operation starts. -/
def refusesLength (s : Signer) (signature : Bytes) : Bool :=
  match s.core with
  | .mac _ length => signature.length != length
  | _ => false

/-! ## Calls -/

/-- A call of a signer. -/
inductive Call where
  | update (data : Bytes)
  | generate
  | verify (signature : Bytes)
deriving DecidableEq, Repr

/-- What a call gives. -/
inductive Answer where
  | updated
  | signature (value : Bytes)
  | verdict (valid : Bool)
deriving DecidableEq, Repr

/-- The answer to a call. -/
def answer (s : Signer) : Call → Draw Answer
  | .update data => do
    discard (liftM (s.update data) : Draw Signer)
    return .updated
  | .generate => .signature <$> s.generate
  | .verify signature => do return .verdict (← s.verify signature)

/-- The signer after a call. -/
def next (s : Signer) : Call → Signer
  | .update data => if s.ended then s else { s with message := s.message ++ data }
  | .generate => s.finish
  | .verify signature => if s.refusesLength signature then s else s.finish

/-- Answers a call and moves on. -/
def step (s : Signer) (c : Call) (t : RandomSource) : (Except Failure Answer × RandomSource) × Signer :=
  ((s.answer c).on t, s.next c)

end Signer
end SoftToken
