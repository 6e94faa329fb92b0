import SoftToken.Digest
import SoftToken.Error
/-!
# How digests are named

Mechanism parameters name a digest by its mechanism, and the digest of a mask by a generator number.
What is not in the tables is an invalid parameter.
-/

namespace SoftToken.Digest

/-- The digests that have a mechanism of their own. -/
def mechanisms : List (MechanismId × Digest) :=
  [(.md2, md2), (.md5, md5), (.sha1, sha1), (.ripemd128, ripemd128), (.ripemd160, ripemd160),
    (.sha224, sha224), (.sha256, sha256), (.sha384, sha384), (.sha512, sha512),
    (.sha512_224, sha512_224), (.sha512_256, sha512_256),
    (.sha3_224, sha3_224), (.sha3_256, sha3_256), (.sha3_384, sha3_384), (.sha3_512, sha3_512),
    (.blake2b160, blake2b160), (.blake2b256, blake2b256), (.blake2b384, blake2b384),
    (.blake2b512, blake2b512), (.gostr3411, gost94)]

/-- The digest with a mechanism. -/
def ofMechanism (m : MechanismId) : Except Error Digest :=
  match mechanisms.lookup m with
  | some d => .ok d
  | none => refuse .mechanismParamInvalid (.digestUnsupported m)

/-- The digests of the mask generators. -/
def masks : List (UInt64 × Digest) :=
  [(0x01, sha1), (0x02, sha256), (0x03, sha384), (0x04, sha512), (0x05, sha224),
    (0x06, sha3_224), (0x07, sha3_256), (0x08, sha3_384), (0x09, sha3_512)]

/-- The digest of a mask generator. -/
def ofMask (generator : UInt64) : Except Error Digest :=
  match masks.lookup generator with
  | some d => .ok d
  | none => refuse .mechanismParamInvalid (.maskUnsupported generator)

end SoftToken.Digest
