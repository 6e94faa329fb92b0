import SoftToken.ParameterSet
import SoftToken.Proofs.LatticeLengths
import SoftToken.SlhDsa
/-!
# The length of hash-based signatures

An SLH-DSA signature is a row of pieces of one length: what opens the message, a forest and the trees of all
layers. Each part has as many pieces as the parameter set says (`Pieces`), whatever the hashes are, so that every
signature has the size of its set (`PrivateKey.length_sign`).
-/

namespace SoftToken.SlhDsa

/-- A row of `count` strings of `n` bytes each. -/
structure Pieces (n count : Nat) (bs : List ByteArray) : Prop where
  length : bs.length = count
  size : ∀ b ∈ bs, b.size = n

namespace Pieces

variable {n i j : Nat} {as bs : List ByteArray}

theorem nil (n : Nat) : Pieces n 0 [] := ⟨rfl, nofun⟩

theorem cons {b : ByteArray} (hb : b.size = n) (h : Pieces n i bs) : Pieces n (i + 1) (b :: bs) where
  length := by rw [List.length_cons, h.length]
  size := List.forall_mem_cons.2 ⟨hb, h.size⟩

theorem append (ha : Pieces n i as) (hb : Pieces n j bs) : Pieces n (i + j) (as ++ bs) where
  length := by rw [List.length_append, ha.length, hb.length]
  size := List.forall_mem_append.2 ⟨ha.size, hb.size⟩

theorem map {α : Type} {f : α → ByteArray} (row : List α) (h : ∀ a ∈ row, (f a).size = n) :
    Pieces n row.length (row.map f) where
  length := List.length_map f
  size := List.forall_mem_map.2 h

theorem flatMap {α : Type} {f : α → List ByteArray} {row : List α} (h : ∀ a ∈ row, Pieces n i (f a)) :
    Pieces n (row.length * i) (row.flatMap f) := by
  induction row with
  | nil =>
    rw [List.length_nil, Nat.zero_mul]
    exact nil n
  | cons a row ih =>
    rw [List.length_cons, Nat.succ_mul, Nat.add_comm]
    exact (h a List.mem_cons_self).append (ih fun b hb => h b (List.mem_cons_of_mem _ hb))

theorem size_foldl (h : Pieces n i bs) (b : ByteArray) : (bs.foldl (· ++ ·) b).size = b.size + n * i := by
  induction bs generalizing b i with
  | nil =>
    rw [← h.length]
    rfl
  | cons c bs ih =>
    have hbs : Pieces n bs.length bs := ⟨rfl, fun b hb => h.size b (List.mem_cons_of_mem _ hb)⟩
    rw [List.foldl_cons, ih hbs, ByteArray.size_append, h.size c List.mem_cons_self, ← h.length, List.length_cons,
      Nat.mul_succ]
    omega

theorem size_concat (h : Pieces n i bs) : (concat bs).size = n * i := by
  rw [concat, h.size_foldl, ByteArray.size_empty, Nat.zero_add]

end Pieces

/-! ## Hashes -/

/-- The addressed hashes have one length. -/
structure Hashes.Sized (H : Hashes) : Prop where
  one : ∀ a m, (H.one a m).size = H.n
  many : ∀ a m, (H.many a m).size = H.n

theorem Hashes.sized_ofShake (n : Nat) (publicSeed : ByteArray) : (ofShake n publicSeed).Sized where
  one _ _ := Keccak.size_sponge (by decide) (by decide) _ _ _
  many _ _ := Keccak.size_sponge (by decide) (by decide) _ _ _

theorem Hashes.sized_ofSha2 {n : Nat} (hn : n ≤ 32) (publicSeed : ByteArray) : (ofSha2 n publicSeed).Sized := by
  -- the shorter digest is long enough for every hash
  have hone : ∀ (start : Sha256.State) (m : ByteArray), ((Sha256.finish start 64 m).extract 0 n).size = n :=
    fun start m => Words.size_take (Sha256.size_bytes _) hn
  have hmany : ∀ (start : Sha512.State) (m : ByteArray), ((Sha512.finish start 128 m).extract 0 n).size = n :=
    fun start m => Words.size_take (Sha512.size_bytes _) (Nat.le_trans hn (by decide))
  unfold ofSha2
  simp only
  split
  · exact ⟨fun _ _ => hone _ _, fun _ _ => hone _ _⟩
  · exact ⟨fun _ _ => hone _ _, fun _ _ => hmany _ _⟩

theorem Hashes.sized_new {P : Parameters} (hn : P.n ≤ 32) (publicSeed : ByteArray) : (new P publicSeed).Sized := by
  unfold new
  split
  · exact sized_ofShake _ _
  · exact sized_ofSha2 hn _

theorem Hashes.n_new (P : Parameters) (publicSeed : ByteArray) : (new P publicSeed).n = P.n := by
  unfold new ofSha2
  simp only
  split
  · rfl
  · split <;> rfl

theorem Parameters.size_randomizer {P : Parameters} (hn : P.n ≤ 32) (secret opened message : ByteArray) :
    (P.randomizer secret opened message).size = P.n := by
  unfold randomizer
  split
  · exact Keccak.size_sponge (by decide) (by decide) _ _ _
  · have hfits : P.n ≤ P.messageDigest.outputLength := by
      unfold messageDigest
      split
      · exact hn
      · exact Nat.le_trans hn (by decide)
    exact Words.size_take (Digest.length_hash _ _) hfits

/-! ## Trees -/

section Trees

variable {leaf : Nat → ByteArray} {join : Nat → Nat → ByteArray → ByteArray} {n : Nat}

theorem size_node (hleaf : ∀ i, (leaf i).size = n) (hjoin : ∀ z i m, (join z i m).size = n) (z i : Nat) :
    (node leaf join z i).size = n := by
  cases z with
  | zero => exact hleaf i
  | succ z => exact hjoin _ _ _

theorem pieces_siblings (hleaf : ∀ i, (leaf i).size = n) (hjoin : ∀ z i m, (join z i m).size = n) (height i : Nat) :
    Pieces n height (siblings leaf join height i) := by
  have h := Pieces.map (f := fun z => node leaf join z ((i / 2 ^ z) ^^^ 1)) (List.range height)
    fun z _ => size_node hleaf hjoin z _
  rwa [List.length_range] at h

end Trees

theorem length_digitsOf (bits count : Nat) (b : ByteArray) : (digitsOf bits count b).length = count := by
  simp [digitsOf]

theorem length_checkedDigits (n : Nat) (value : ByteArray) : (checkedDigits n value).length = chainCount n := by
  simp [checkedDigits, length_digitsOf, chainCount]

namespace Hashes

variable {H : Hashes} (hH : H.Sized) {secretSeed : ByteArray} {a : Address}

include hH

theorem size_follow (a : Address) (steps i : Nat) {x : ByteArray} (hx : x.size = H.n) :
    (H.follow a steps i x).size = H.n := by
  induction steps generalizing i x with
  | zero => exact hx
  | succ steps ih => exact ih _ (hH.one _ _)

theorem size_reveal (secretSeed : ByteArray) (a : Address) (chain digit : Nat) :
    (H.reveal secretSeed a chain digit).size = H.n :=
  size_follow hH _ _ _ (hH.one _ _)

/-- A one-time signature has a piece for each chain. -/
theorem pieces_oneTimeSign (secretSeed : ByteArray) (a : Address) (value : ByteArray) :
    Pieces H.n (chainCount H.n) (H.oneTimeSign secretSeed a value) := by
  have h : Pieces H.n (checkedDigits H.n value).zipIdx.length (H.oneTimeSign secretSeed a value) :=
    Pieces.map _ fun p _ => size_reveal hH _ _ _ _
  rwa [List.length_zipIdx, length_checkedDigits] at h

/-- Each layer adds a one-time signature and a path. -/
theorem pieces_layersSign (secretSeed : ByteArray) (height count layer tree i : Nat) (value : ByteArray) :
    Pieces H.n (count * (chainCount H.n + height)) (H.layersSign secretSeed height count layer tree i value) := by
  induction count generalizing layer tree i value with
  | zero =>
    rw [Nat.zero_mul]
    exact .nil _
  | succ count ih =>
    rw [Nat.succ_mul, Nat.add_comm, layersSign]
    refine .append (.append (pieces_oneTimeSign hH _ _ _) ?_) (ih _ _ _ _)
    exact pieces_siblings (fun _ => hH.many _ _) (fun _ _ _ => hH.many _ _) _ _

/-- Each tree of a forest adds a secret value and a path. -/
theorem pieces_forestSign (secretSeed : ByteArray) (a : Address) (height : Nat) (choices : List Nat) :
    Pieces H.n (choices.length * (height + 1)) (H.forestSign secretSeed a height choices) := by
  have h : Pieces H.n (choices.zipIdx.length * (height + 1)) (H.forestSign secretSeed a height choices) :=
    Pieces.flatMap fun p _ => .cons (hH.one _ _)
      (pieces_siblings (fun _ => hH.one _ _) (fun _ _ _ => hH.many _ _) _ _)
  rwa [List.length_zipIdx] at h

end Hashes

/-! ## Signatures -/

/-- The length of a signature, in pieces of `n` bytes. -/
def Parameters.signatureSize (P : Parameters) : Nat :=
  P.n * (P.forestSize * (P.forestHeight + 1) + P.layers * (chainCount P.n + P.height) + 1)

/-- A signature has one length, whatever is signed with which key. -/
theorem PrivateKey.length_sign {P : Parameters} (hn : P.n ≤ 32) (k : PrivateKey) (message : Bytes)
    (opened : ByteArray) : (k.sign P message opened).length = P.signatureSize := by
  have hH := Hashes.sized_new hn k.publicSeed
  have hforest := fun a choices => Hashes.pieces_forestSign hH k.secretSeed a P.forestHeight choices
  have hlayers := fun tree i value => Hashes.pieces_layersSign hH k.secretSeed P.height P.layers 0 tree i value
  rw [Hashes.n_new] at hforest hlayers
  unfold sign
  simp only
  refine (Pieces.size_concat (.cons (Parameters.size_randomizer hn _ _ _)
    (.append (hforest _ _) (hlayers _ _ _)))).trans ?_
  rw [Selection.ofDigest, length_digitsOf]
  rfl

/-- The tables of the parameter sets agree on the size of a signature, whose pieces have at most 32 bytes. -/
theorem signatureSize_eq {P : Parameters} {set : UInt64} {sizes : ParameterSizes} (hP : parameters? set = some P)
    (hs : ParameterFamily.slhDsa.sizes? set = some sizes) : P.n ≤ 32 ∧ P.signatureSize = sizes.output :=
  ParameterSizes.of_lookup (R := fun P s => P.n ≤ 32 ∧ P.signatureSize = s.output) (by decide) hP hs

end SoftToken.SlhDsa
