import SoftToken.Digest
import SoftToken.Hmac
import SoftToken.SlhDsa.Address
/-!
# Hash suites

The hash functions of a parameter set: two addressed hashes under a public seed, the keyed hash that
randomizes a message, and the digest that selects the keys. A suite is built on SHA-2 or on SHAKE.
-/

namespace SoftToken.SlhDsa

/-- The numbers that a parameter set fixes. -/
structure Parameters where
  /-- Whether the suite is built on SHAKE instead of SHA-2. -/
  shake : Bool
  /-- The length of a hash. -/
  n : Nat
  /-- The number of layers. -/
  layers : Nat
  /-- The height of the trees of a layer. -/
  height : Nat
  /-- The height of the trees of a forest. -/
  forestHeight : Nat
  /-- The number of trees in a forest. -/
  forestSize : Nat
deriving DecidableEq, Repr

/-- The parameters of a parameter set. -/
def parameters? (set : UInt64) : Option Parameters :=
  [(1, ⟨false, 16, 7, 9, 12, 14⟩), (2, ⟨true, 16, 7, 9, 12, 14⟩),
    (3, ⟨false, 16, 22, 3, 6, 33⟩), (4, ⟨true, 16, 22, 3, 6, 33⟩),
    (5, ⟨false, 24, 7, 9, 14, 17⟩), (6, ⟨true, 24, 7, 9, 14, 17⟩),
    (7, ⟨false, 24, 22, 3, 8, 33⟩), (8, ⟨true, 24, 22, 3, 8, 33⟩),
    (9, ⟨false, 32, 8, 8, 14, 22⟩), (10, ⟨true, 32, 8, 8, 14, 22⟩),
    (11, ⟨false, 32, 17, 4, 9, 35⟩), (12, ⟨true, 32, 17, 4, 9, 35⟩)].lookup set

namespace Parameters

variable (P : Parameters)

/-- The bits that choose a tree of the lowest layer. -/
def treeBits : Nat := P.height * (P.layers - 1)

/-- The bytes of a message digest that choose the leaves of a forest. -/
def forestBytes : Nat := (P.forestSize * P.forestHeight + 7) / 8

def treeBytes : Nat := (P.treeBits + 7) / 8

def leafBytes : Nat := (P.height + 7) / 8

/-- The length of a message digest. -/
def digestSize : Nat := P.forestBytes + P.treeBytes + P.leafBytes

end Parameters

/-- The addressed hashes under a public seed. -/
structure Hashes where
  n : Nat
  /-- The hash of a single value. -/
  one : Address → ByteArray → ByteArray
  /-- The hash of several values in a row. -/
  many : Address → ByteArray → ByteArray

namespace Hashes

def ofShake (n : Nat) (publicSeed : ByteArray) : Hashes :=
  let hash := fun (a : Address) (m : ByteArray) => Keccak.shake256 (publicSeed ++ a.bytes ++ m) n
  ⟨n, hash, hash⟩

/-- The hashes built on SHA-2. The seed fills the first block, which is taken in once. -/
def ofSha2 (n : Nat) (publicSeed : ByteArray) : Hashes :=
  let start := Sha256.compress Sha256.initial256 (Words.pushZeros publicSeed (64 - n)) 0
  let one := fun (a : Address) (m : ByteArray) => (Sha256.finish start 64 (a.shortBytes ++ m)).extract 0 n
  if n = 16 then ⟨n, one, one⟩
  else
    let start := Sha512.compress Sha512.initial512 (Words.pushZeros publicSeed (128 - n)) 0
    ⟨n, one, fun a m => (Sha512.finish start 128 (a.shortBytes ++ m)).extract 0 n⟩

/-- The hashes of a parameter set. -/
def new (P : Parameters) (publicSeed : ByteArray) : Hashes :=
  if P.shake then ofShake P.n publicSeed else ofSha2 P.n publicSeed

end Hashes

namespace Parameters

variable (P : Parameters)

/-- The digest of a suite on SHA-2 that takes in messages. -/
def messageDigest : Digest := if P.n = 16 then .sha256 else .sha512

/-- The first bytes of the digests of a seed and a counter. -/
def spread (seed : ByteArray) (len : Nat) : ByteArray :=
  let d := P.messageDigest
  let rounds := (len + d.outputLength - 1) / d.outputLength
  let all := (List.range rounds).foldl
    (fun out i => out ++ d.hashPacked (Words.pushBE32 seed (UInt32.ofNat i))) ByteArray.empty
  all.extract 0 len

/-- The value that randomizes a message. -/
def randomizer (secret opened : ByteArray) (message : ByteArray) : ByteArray :=
  if P.shake then Keccak.shake256 (secret ++ opened ++ message) P.n
  else (Bytes.pack (Hmac.hmac P.messageDigest (Bytes.ofArray secret) (Bytes.ofArray (opened ++ message)))).extract 0 P.n

/-- The digest of a message that selects the keys. -/
def select (randomizer publicSeed root message : ByteArray) : ByteArray :=
  if P.shake then Keccak.shake256 (randomizer ++ publicSeed ++ root ++ message) P.digestSize
  else
    let inner := P.messageDigest.hashPacked (randomizer ++ publicSeed ++ root ++ message)
    P.spread (randomizer ++ publicSeed ++ inner) P.digestSize

end Parameters
end SoftToken.SlhDsa
