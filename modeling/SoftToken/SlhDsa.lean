import SoftToken.RandomSource
import SoftToken.SlhDsa.Tree
/-!
# SLH-DSA

Stateless hash-based signatures. The digest of a message selects a forest and leaves in it; the forest
signs the message and the trees above it sign the forest. A private key holds two secret values, a
public seed and the root of the top tree, which must fit the other parts.
-/

namespace SoftToken.SlhDsa

/-- What the digest of a message selects: leaves of a forest, the tree the forest hangs from, and the
leaf of that tree. -/
structure Selection where
  choices : List Nat
  tree : Nat
  leaf : Nat
deriving DecidableEq, Repr

/-- The selection that a message digest makes. -/
def Selection.ofDigest (P : Parameters) (d : ByteArray) : Selection :=
  let number := fun (start len : Nat) => Bytes.toNat (Bytes.ofArray (d.extract start (start + len)))
  { choices := digitsOf P.forestHeight P.forestSize d
    tree := number P.forestBytes P.treeBytes % 2 ^ P.treeBits
    leaf := number (P.forestBytes + P.treeBytes) P.leafBytes % 2 ^ P.height }

/-- A private key in its parts. -/
structure PrivateKey where
  secretSeed : ByteArray
  secretKey : ByteArray
  publicSeed : ByteArray
  root : ByteArray

/-- Reads a private key; the root must be the one that the seeds give. -/
def readPrivate (P : Parameters) (b : Bytes) : Except Error PrivateKey :=
  let packed := Bytes.pack b
  let part := fun (i : Nat) => packed.extract (P.n * i) (P.n * (i + 1))
  let k : PrivateKey := ⟨part 0, part 1, part 2, part 3⟩
  let top := Hashes.treeAddress (P.layers - 1) 0
  if Bytes.ofArray ((Hashes.new P k.publicSeed).treeRoot k.secretSeed top P.height) = Bytes.ofArray k.root then .ok k
  else refuse .keyHandleInvalid .privateKeyCorrupted

/-- Signs a formatted message with a value that opens the randomizer. -/
def PrivateKey.sign (P : Parameters) (k : PrivateKey) (message : Bytes) (opened : ByteArray) : Bytes :=
  let H := Hashes.new P k.publicSeed
  let message := Bytes.pack message
  let r := P.randomizer k.secretKey opened message
  let s := Selection.ofDigest P (P.select r k.publicSeed k.root message)
  let a := Hashes.forestAddress s.tree s.leaf
  let forest := H.forestSign k.secretSeed a P.forestHeight s.choices
  let forestKey := H.forestRecover a P.forestHeight s.choices forest
  let trees := H.layersSign k.secretSeed P.height P.layers 0 s.tree s.leaf forestKey
  Bytes.ofArray (concat (r :: (forest ++ trees)))

/-- Draws what opens the randomizer; a deterministic signature uses the public seed. -/
def PrivateKey.drawOpening (P : Parameters) (k : PrivateKey) (deterministic : Bool) : Draw ByteArray :=
  if deterministic then return k.publicSeed
  else return Bytes.pack (← Draw.orElse P.n (.error (.explained .functionFailed .hashRandomFailed)))

/-- Verifies a signature of a formatted message. -/
def verify (P : Parameters) (key message signature : Bytes) : Bool :=
  let packed := Bytes.pack key
  let publicSeed := packed.extract 0 P.n
  let root := packed.extract P.n (2 * P.n)
  let H := Hashes.new P publicSeed
  let signature := Bytes.pack signature
  let message := Bytes.pack message
  let r := signature.extract 0 P.n
  let s := Selection.ofDigest P (P.select r publicSeed root message)
  let forestPieces := P.forestSize * (P.forestHeight + 1)
  let treePieces := P.layers * (chainCount P.n + P.height)
  let forest := pieces P.n forestPieces P.n signature
  let trees := pieces P.n treePieces (P.n * (1 + forestPieces)) signature
  let forestKey := H.forestRecover (Hashes.forestAddress s.tree s.leaf) P.forestHeight s.choices forest
  Bytes.ofArray (H.layersRecover P.height P.layers 0 s.tree s.leaf forestKey trees) == Bytes.ofArray root

end SoftToken.SlhDsa
