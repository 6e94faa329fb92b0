import SoftToken.Bytes
import SoftToken.Digest.Blake2b
import SoftToken.Digest.Gost94
import SoftToken.Digest.Keccak
import SoftToken.Digest.Md2
import SoftToken.Digest.Md5
import SoftToken.Digest.Ripemd
import SoftToken.Digest.Sha1
import SoftToken.Digest.Sha256
import SoftToken.Digest.Sha512
/-!
# Digests

The digest algorithms the mechanisms choose from, with their sizes and object identifiers. The
extendable functions give 32 and 64 bytes.
-/

namespace SoftToken

/-- A digest algorithm. -/
inductive Digest where
  | md2
  | md5
  | sha1
  | ripemd128
  | ripemd160
  | sha224
  | sha256
  | sha384
  | sha512
  | sha512_224
  | sha512_256
  | sha3_224
  | sha3_256
  | sha3_384
  | sha3_512
  | shake128
  | shake256
  | blake2b160
  | blake2b256
  | blake2b384
  | blake2b512
  | gost94
deriving DecidableEq, Repr

namespace Digest

/-- The length of the digest in bytes. -/
def outputLength : Digest → Nat
  | md2 | md5 | ripemd128 => 16
  | sha1 | ripemd160 | blake2b160 => 20
  | sha224 | sha512_224 | sha3_224 => 28
  | sha256 | sha512_256 | sha3_256 | shake128 | blake2b256 | gost94 => 32
  | sha384 | sha3_384 | blake2b384 => 48
  | sha512 | sha3_512 | shake256 | blake2b512 => 64

/-- The length of the blocks a message is taken in by. -/
def blockLength : Digest → Nat
  | md2 => 16
  | gost94 => 32
  | md5 | sha1 | ripemd128 | ripemd160 | sha224 | sha256 => 64
  | sha384 | sha512 | sha512_224 | sha512_256
  | blake2b160 | blake2b256 | blake2b384 | blake2b512 => 128
  | sha3_224 => 144
  | sha3_256 | shake256 => 136
  | sha3_384 => 104
  | sha3_512 => 72
  | shake128 => 168

/-- The digest of packed bytes. -/
def hashPacked (d : Digest) (m : ByteArray) : ByteArray :=
  match d with
  | md2 => Bytes.pack (Md2.md2 (Bytes.ofArray m))
  | md5 => Md5.md5 m
  | sha1 => Sha1.sha1 m
  | ripemd128 => Ripemd.ripemd128 m
  | ripemd160 => Ripemd.ripemd160 m
  | sha224 => Sha256.sha224 m
  | sha256 => Sha256.sha256 m
  | sha384 => Sha512.sha384 m
  | sha512 => Sha512.sha512 m
  | sha512_224 => Sha512.sha512_224 m
  | sha512_256 => Sha512.sha512_256 m
  | sha3_224 => Keccak.sha3_224 m
  | sha3_256 => Keccak.sha3_256 m
  | sha3_384 => Keccak.sha3_384 m
  | sha3_512 => Keccak.sha3_512 m
  | shake128 => Keccak.shake128 m 32
  | shake256 => Keccak.shake256 m 64
  | blake2b160 => Blake2b.blake2b 20 m
  | blake2b256 => Blake2b.blake2b 32 m
  | blake2b384 => Blake2b.blake2b 48 m
  | blake2b512 => Blake2b.blake2b 64 m
  | gost94 => Gost94.gost94 m

/-- The digest of a byte string. -/
def hash (d : Digest) (m : Bytes) : Bytes := Bytes.ofArray (d.hashPacked (Bytes.pack m))

/-- The object identifier of the algorithm, where one is used. -/
def oid? : Digest → Option (List Nat)
  | md2 => some [1, 2, 840, 113549, 2, 2]
  | md5 => some [1, 2, 840, 113549, 2, 5]
  | sha1 => some [1, 3, 14, 3, 2, 26]
  | ripemd128 => some [1, 3, 36, 3, 2, 2]
  | ripemd160 => some [1, 3, 36, 3, 2, 1]
  | sha256 => some [2, 16, 840, 1, 101, 3, 4, 2, 1]
  | sha384 => some [2, 16, 840, 1, 101, 3, 4, 2, 2]
  | sha512 => some [2, 16, 840, 1, 101, 3, 4, 2, 3]
  | sha224 => some [2, 16, 840, 1, 101, 3, 4, 2, 4]
  | sha512_224 => some [2, 16, 840, 1, 101, 3, 4, 2, 5]
  | sha512_256 => some [2, 16, 840, 1, 101, 3, 4, 2, 6]
  | sha3_224 => some [2, 16, 840, 1, 101, 3, 4, 2, 7]
  | sha3_256 => some [2, 16, 840, 1, 101, 3, 4, 2, 8]
  | sha3_384 => some [2, 16, 840, 1, 101, 3, 4, 2, 9]
  | sha3_512 => some [2, 16, 840, 1, 101, 3, 4, 2, 10]
  | shake128 => some [2, 16, 840, 1, 101, 3, 4, 2, 11]
  | shake256 => some [2, 16, 840, 1, 101, 3, 4, 2, 12]
  | _ => none

end Digest
end SoftToken
