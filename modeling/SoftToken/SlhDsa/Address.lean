import SoftToken.Words
/-!
# Addresses

Every hash of a hash-based signature is made different by an address: where in the tree of trees it
is computed, and for what.
-/

namespace SoftToken.SlhDsa

/-- What a hash is computed for. -/
inductive Use where
  | chain
  | chainEnds
  | tree
  | forest
  | forestRoots
  | chainSecret
  | forestSecret
deriving DecidableEq, Repr

/-- The number that stands for a use. -/
def Use.code : Use → UInt32
  | chain => 0
  | chainEnds => 1
  | tree => 2
  | forest => 3
  | forestRoots => 4
  | chainSecret => 5
  | forestSecret => 6

/-- The address of a hash. -/
structure Address where
  /-- The layer of the tree, counted from the lowest. -/
  layer : UInt32
  /-- The tree within the layer. -/
  tree : UInt64
  use : Use
  /-- The key pair within the tree. -/
  keyPair : UInt32
  /-- The chain, or the height in a tree. -/
  level : UInt32
  /-- The step of a chain, or the index in a tree. -/
  index : UInt32
deriving DecidableEq, Repr

namespace Address

/-- The address in 32 bytes. -/
def bytes (a : Address) : ByteArray :=
  let b := Words.pushBE32 (ByteArray.emptyWithCapacity 32) a.layer
  let b := Words.pushBE32 b 0
  let b := Words.pushBE64 b a.tree
  let b := Words.pushBE32 b a.use.code
  let b := Words.pushBE32 b a.keyPair
  let b := Words.pushBE32 b a.level
  Words.pushBE32 b a.index

/-- The address in 22 bytes, without the bytes that are always zero. -/
def shortBytes (a : Address) : ByteArray :=
  let b := (ByteArray.emptyWithCapacity 64).push a.layer.toUInt8
  let b := Words.pushBE64 b a.tree
  let b := b.push a.use.code.toUInt8
  let b := Words.pushBE32 b a.keyPair
  let b := Words.pushBE32 b a.level
  Words.pushBE32 b a.index

end Address
end SoftToken.SlhDsa
