import SoftToken.SlhDsa.Suite
/-!
# Chains, trees and forests

A one-time key is a row of chains: a value is signed by revealing each chain as far as a digit of the
value says. One-time keys are the leaves of hash trees, whose roots are signed by the trees of the
next layer. A message is signed by the leaves of a forest that its digest selects.
-/

namespace SoftToken.SlhDsa

/-! ## Hash trees -/

/-- The node of a tree at a height. -/
def node (leaf : Nat → ByteArray) (join : Nat → Nat → ByteArray → ByteArray) : Nat → Nat → ByteArray
  | 0, i => leaf i
  | z + 1, i => join (z + 1) i (node leaf join z (2 * i) ++ node leaf join z (2 * i + 1))

/-- The siblings on the way from a leaf to the root, lowest first. -/
def siblings (leaf : Nat → ByteArray) (join : Nat → Nat → ByteArray → ByteArray) (height i : Nat) :
    List ByteArray :=
  (List.range height).map fun z => node leaf join z ((i / 2 ^ z) ^^^ 1)

/-- The root that a node at height `z` and the siblings above it lead to. -/
def climb (join : Nat → Nat → ByteArray → ByteArray) : Nat → Nat → ByteArray → List ByteArray → ByteArray
  | _, _, x, [] => x
  | z, i, x, s :: r =>
    let pair := if i % 2 = 0 then x ++ s else s ++ x
    climb join (z + 1) (i / 2) (join (z + 1) (i / 2) pair) r

/-! ## Digits -/

/-- The first `count` numbers of `bits` bits each, from the most significant bit of a string on. -/
def digitsOf (bits count : Nat) (b : ByteArray) : List Nat :=
  let len := (bits * count + 7) / 8
  let n := Bytes.toNat (Bytes.ofArray (b.extract 0 len)) / 2 ^ (8 * len - bits * count)
  (List.range count).map fun i => n / 2 ^ (bits * (count - 1 - i)) % 2 ^ bits

/-- The digits of a value in base 16, followed by those of their checksum. -/
def checkedDigits (n : Nat) (value : ByteArray) : List Nat :=
  let ds := digitsOf 4 (2 * n) value
  let sum := ds.foldl (fun s d => s + (15 - d)) 0
  ds ++ [sum / 256 % 16, sum / 16 % 16, sum % 16]

/-- The number of chains of a one-time key. -/
def chainCount (n : Nat) : Nat := 2 * n + 3

/-- Pieces of a signature, `n` bytes each. -/
def pieces (n count start : Nat) (b : ByteArray) : List ByteArray :=
  (List.range count).map fun i => b.extract (start + n * i) (start + n * (i + 1))

def concat (bs : List ByteArray) : ByteArray := bs.foldl (· ++ ·) ByteArray.empty

namespace Hashes

variable (H : Hashes)

/-! ## One-time keys -/

/-- Follows a chain for some steps. -/
def follow (a : Address) : Nat → Nat → ByteArray → ByteArray
  | 0, _, x => x
  | steps + 1, i, x => follow a steps (i + 1) (H.one { a with index := UInt32.ofNat i } x)

/-- The start of a chain of a one-time key. -/
def chainStart (secretSeed : ByteArray) (a : Address) (chain : Nat) : ByteArray :=
  H.one { a with use := .chainSecret, level := UInt32.ofNat chain, index := 0 } secretSeed

/-- The public form of a one-time key, from the ends of its chains. -/
def oneTimeKey (a : Address) (ends : List ByteArray) : ByteArray :=
  H.many { a with use := .chainEnds, level := 0, index := 0 } (concat ends)

/-- The chain of a one-time key revealed up to a digit. -/
def reveal (secretSeed : ByteArray) (a : Address) (chain digit : Nat) : ByteArray :=
  H.follow { a with use := .chain, level := UInt32.ofNat chain } digit 0 (H.chainStart secretSeed a chain)

/-- The end of a chain that was revealed up to a digit. -/
def complete (a : Address) (chain digit : Nat) (x : ByteArray) : ByteArray :=
  H.follow { a with use := .chain, level := UInt32.ofNat chain } (15 - digit) digit x

/-- Signs a value by revealing chains. -/
def oneTimeSign (secretSeed : ByteArray) (a : Address) (value : ByteArray) : List ByteArray :=
  (checkedDigits H.n value).zipIdx.map fun (d, i) => H.reveal secretSeed a i d

/-- The one-time key under which a signature is one of the value. -/
def oneTimeRecover (a : Address) (value : ByteArray) (signature : List ByteArray) : ByteArray :=
  H.oneTimeKey a ((List.zip (checkedDigits H.n value) signature).zipIdx.map
    fun ((d, x), i) => H.complete a i d x)

/-! ## Trees of one-time keys -/

/-- The address of a tree. -/
def treeAddress (layer tree : Nat) : Address :=
  ⟨UInt32.ofNat layer, UInt64.ofNat tree, .tree, 0, 0, 0⟩

/-- The leaf of a tree: a one-time key. -/
def leaf (secretSeed : ByteArray) (a : Address) (i : Nat) : ByteArray :=
  let a := { a with use := .chain, keyPair := UInt32.ofNat i }
  H.oneTimeKey a ((List.range (chainCount H.n)).map fun c => H.reveal secretSeed a c 15)

/-- The hash of two nodes of a tree. -/
def joinTree (a : Address) (z i : Nat) (pair : ByteArray) : ByteArray :=
  H.many { a with use := .tree, keyPair := 0, level := UInt32.ofNat z, index := UInt32.ofNat i } pair

/-- The root of a tree. -/
def treeRoot (secretSeed : ByteArray) (a : Address) (height : Nat) : ByteArray :=
  node (H.leaf secretSeed a) (H.joinTree a) height 0

/-- The root that a signature of a value by a leaf leads to. -/
def treeRecover (a : Address) (i : Nat) (value : ByteArray) (signature path : List ByteArray) : ByteArray :=
  let key := H.oneTimeRecover { a with use := .chain, keyPair := UInt32.ofNat i } value signature
  climb (H.joinTree a) 0 i key path

/-- Signs a value by the trees of all layers from `layer` on. -/
def layersSign (secretSeed : ByteArray) (height : Nat) : Nat → Nat → Nat → Nat → ByteArray → List ByteArray
  | 0, _, _, _, _ => []
  | count + 1, layer, tree, i, value =>
    let a := treeAddress layer tree
    let signature := H.oneTimeSign secretSeed { a with use := .chain, keyPair := UInt32.ofNat i } value
    let path := siblings (H.leaf secretSeed a) (H.joinTree a) height i
    let root := H.treeRecover a i value signature path
    signature ++ path ++ layersSign secretSeed height count (layer + 1) (tree / 2 ^ height) (tree % 2 ^ height) root

/-- The root that the signatures of all layers from `layer` on lead to. -/
def layersRecover (height : Nat) : Nat → Nat → Nat → Nat → ByteArray → List ByteArray → ByteArray
  | 0, _, _, _, value, _ => value
  | count + 1, layer, tree, i, value, signature =>
    let chains := chainCount H.n
    let root := H.treeRecover (treeAddress layer tree) i value (signature.take chains)
      ((signature.drop chains).take height)
    layersRecover height count (layer + 1) (tree / 2 ^ height) (tree % 2 ^ height) root
      (signature.drop (chains + height))

/-! ## Forests -/

/-- The address of a forest. -/
def forestAddress (tree i : Nat) : Address :=
  ⟨0, UInt64.ofNat tree, .forest, UInt32.ofNat i, 0, 0⟩

/-- The secret value of a leaf of a forest. -/
def forestSecret (secretSeed : ByteArray) (a : Address) (i : Nat) : ByteArray :=
  H.one { a with use := .forestSecret, level := 0, index := UInt32.ofNat i } secretSeed

/-- The leaf with a secret value. -/
def forestLeaf (a : Address) (i : Nat) (secret : ByteArray) : ByteArray :=
  H.one { a with level := 0, index := UInt32.ofNat i } secret

/-- The hash of two nodes of a forest. -/
def joinForest (a : Address) (z i : Nat) (pair : ByteArray) : ByteArray :=
  H.many { a with level := UInt32.ofNat z, index := UInt32.ofNat i } pair

/-- Signs the choice of a leaf in each tree of a forest. Leaves are counted through all trees. -/
def forestSign (secretSeed : ByteArray) (a : Address) (height : Nat) (choices : List Nat) : List ByteArray :=
  choices.zipIdx.flatMap fun (c, t) =>
    let i := t * 2 ^ height + c
    H.forestSecret secretSeed a i
      :: siblings (fun j => H.forestLeaf a j (H.forestSecret secretSeed a j)) (H.joinForest a) height i

/-- The key of the forest that a signature of choices leads to. -/
def forestRecover (a : Address) (height : Nat) (choices : List Nat) (signature : List ByteArray) : ByteArray :=
  let root := fun (c t : Nat) =>
    let i := t * 2 ^ height + c
    match signature.drop (t * (height + 1)) with
    | secret :: path => climb (H.joinForest a) 0 i (H.forestLeaf a i secret) (path.take height)
    | [] => ByteArray.empty
  H.many { a with use := .forestRoots, level := 0, index := 0 }
    (concat (choices.zipIdx.map fun (c, t) => root c t))

end Hashes
end SoftToken.SlhDsa
