import SoftToken.CounterStream
import SoftToken.Ecdsa
import SoftToken.KeyKind
import SoftToken.Montgomery
/-!
# Key agreement

Two parties that know each other's public keys share a value. It is used as it is, or it seeds a counter
stream of digests. The prime curves and the Montgomery curves are the two families agreement works
over.
-/

namespace SoftToken

/-- What becomes of a shared value. -/
inductive AgreementKdf where
  | null
  | stream (digest : Digest)
deriving DecidableEq, Repr

namespace AgreementKdf

/-- The derivations by their number. -/
def numbers : List (UInt64 × AgreementKdf) :=
  [(0x01, null), (0x02, stream .sha1), (0x05, stream .sha224), (0x06, stream .sha256),
    (0x07, stream .sha384), (0x08, stream .sha512), (0x0a, stream .sha3_224), (0x0b, stream .sha3_256),
    (0x0c, stream .sha3_384), (0x0d, stream .sha3_512), (0x17, stream .blake2b160),
    (0x18, stream .blake2b256), (0x19, stream .blake2b384), (0x1a, stream .blake2b512)]

/-- The derivation with a number. -/
def ofNumber (n : UInt64) : Except Error AgreementKdf :=
  match numbers.lookup n with
  | some k => .ok k
  | none => refuse .mechanismParamInvalid (.agreementKdfUnsupported n)

/-- The first `length` bytes of the stream, or one digest. -/
def expand (d : Digest) (z shared : Bytes) (length : Option Nat) : Except Failure Bytes :=
  CounterStream.counted d z shared (length.getD d.outputLength)

/-- The secret that a shared value gives, for a key of at least `minimal` bytes. A stream gives one
digest at least. -/
def secret (k : AgreementKdf) (z shared : Bytes) (minimal : Nat) : Except Failure Bytes :=
  match k with
  | null => .ok z
  | stream d => expand d z shared (some (max minimal d.outputLength))

theorem secret_stream (d : Digest) (z shared : Bytes) (minimal : Nat) :
    (stream d).secret z shared minimal = CounterStream.counted d z shared (max minimal d.outputLength) := rfl

end AgreementKdf

/-- A family of curves that agreement works over. -/
inductive CurveFamily where
  | prime
  | montgomery
deriving DecidableEq, Repr

namespace CurveFamily

def keyType : CurveFamily → KeyType
  | prime => .ec
  | montgomery => .ecMontgomery

def name : CurveFamily → String
  | prime => "EC"
  | montgomery => "EC Montgomery"

/-- Whether a key is a public key of the family. -/
def isPublic : CurveFamily → KeyKind → Bool
  | prime, .ecPublic _ => true
  | montgomery, .montgomeryPublic _ => true
  | _, _ => false

/-- Whether a key is a private key of the family. -/
def isPrivate : CurveFamily → KeyKind → Bool
  | prime, .ecPrivate _ => true
  | montgomery, .montgomeryPrivate _ => true
  | _, _ => false

/-- The family of a private key. -/
def ofPrivate? : KeyKind → Option CurveFamily
  | .ecPrivate _ => some prime
  | .montgomeryPrivate _ => some montgomery
  | _ => none

/-- The length of a point as encapsulated data. -/
def encapsulatedLength : CurveFamily → Curve → Nat
  | prime, c => c.derPointSize
  | montgomery, c => c.pointSize

/-- The value shared with a peer. -/
def agree (f : CurveFamily) (c : Curve) (value peer : Bytes) : Except Error Bytes :=
  let unsupported := refuse .curveNotSupported (.curveUnsupported c)
  match f with
  | prime => match c.prime? with
    | some p => Ecdsa.agree p value peer
    | none => unsupported
  | montgomery => match c.montgomery? with
    | some m => Montgomery.agree c m value peer
    | none => unsupported

/-- Draws a key pair: the private value and the public point. -/
def drawKeyPair (f : CurveFamily) (c : Curve) : Draw (Bytes × Bytes) :=
  let unsupported := throw (.error (.explained .curveNotSupported (.curveUnsupported c)))
  match f with
  | prime => match c.prime? with
    | some p => Ecdsa.drawKeyPair p
    | none => unsupported
  | montgomery => match c.montgomery? with
    | some m => m.drawKeyPair
    | none => unsupported

end CurveFamily
end SoftToken
