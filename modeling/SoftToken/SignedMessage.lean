import SoftToken.Der
import SoftToken.Digest
/-!
# Messages as they are signed

The lattice and hash based schemes never sign a bare message. What they sign starts with a byte that
tells whether the message or its digest follows, and then names the context and, for a digest, the
algorithm. So no two signed strings can be confused.
-/

namespace SoftToken

/-- A digest that may stand for a message. -/
inductive Prehash where
  | sha224
  | sha256
  | sha384
  | sha512
  | sha3_224
  | sha3_256
  | sha3_384
  | sha3_512
  | shake128
  | shake256
deriving DecidableEq, Repr

namespace Prehash

def digest : Prehash → Digest
  | sha224 => .sha224
  | sha256 => .sha256
  | sha384 => .sha384
  | sha512 => .sha512
  | sha3_224 => .sha3_224
  | sha3_256 => .sha3_256
  | sha3_384 => .sha3_384
  | sha3_512 => .sha3_512
  | shake128 => .shake128
  | shake256 => .shake256

/-- The digests that parameters may name by mechanism; the extendable functions have none. -/
def mechanisms : List (MechanismId × Prehash) :=
  [(.sha224, sha224), (.sha256, sha256), (.sha384, sha384), (.sha512, sha512),
    (.sha3_224, sha3_224), (.sha3_256, sha3_256), (.sha3_384, sha3_384), (.sha3_512, sha3_512)]

/-- The digest that a mechanism names. -/
def ofMechanism (m : MechanismId) : Except Error Prehash :=
  match mechanisms.lookup m with
  | some p => .ok p
  | none => refuse .mechanismParamInvalid (.prehashUnsupported m)

/-- The object identifier of the algorithm. -/
def oid (p : Prehash) : List Nat := p.digest.oid?.getD []

end Prehash

namespace SignedMessage

/-- The longest context. -/
def maxContext : Nat := 255

/-- The length of a context in front of it. -/
def sizedContext (context : Bytes) : Bytes := UInt8.ofNat context.length :: context

/-- What is signed for a message in a context. -/
def ofMessage (context message : Bytes) : Bytes := 0 :: (sizedContext context ++ message)

/-- What is signed for the digest of a message in a context, which must not be too long. -/
def ofDigest (p : Prehash) (context message : Bytes) : Except Error Bytes :=
  if maxContext < context.length then fail .mechanismParamInvalid
  else .ok (1 :: (sizedContext context ++ Der.encodeOid p.oid ++ p.digest.hash message))

/-- What is signed for a message, or for its digest if one is chosen. -/
def format (prehash : Option Prehash) (context message : Bytes) : Except Error Bytes :=
  match prehash with
  | none => .ok (ofMessage context message)
  | some p => ofDigest p context message

end SignedMessage
end SoftToken
