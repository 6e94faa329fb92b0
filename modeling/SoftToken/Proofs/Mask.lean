import SoftToken.CounterStream
import SoftToken.Digest.Length
import SoftToken.Proofs.CheckedStrings
/-!
# Masks

The two readers of counter streams give the first bytes of the stream (`CounterStream.counted_of_room`,
`CounterStream.mask_eq`), as many as are asked for, and a mask that is applied twice is gone. The lengths of strings
in a row and of their exclusive or stand here as well.
-/

namespace SoftToken

namespace Bytes

@[simp] theorem length_xor (a b : Bytes) : (xor a b).length = min a.length b.length := List.length_zipWith

theorem xor_cancel {a b : Bytes} (h : a.length ≤ b.length) : xor (xor a b) b = a := by
  induction a generalizing b with
  | nil => rfl
  | cons x r ih =>
    cases b with
    | nil => simp at h
    | cons y s =>
      have hs : r.length ≤ s.length := Nat.le_of_succ_le_succ h
      show (x ^^^ y ^^^ y) :: xor (xor r s) s = x :: r
      rw [ih hs, UInt8.xor_assoc, UInt8.xor_self, UInt8.xor_zero]

/-- Strings of one length in a row. -/
theorem length_flatMap {α : Type} {f : α → Bytes} {row : List α} {len : Nat} (h : ∀ a ∈ row, (f a).length = len) :
    (row.flatMap f).length = row.length * len := by
  induction row with
  | nil => simp
  | cons a row ih =>
    have hrow : ∀ b ∈ row, (f b).length = len := fun b hb => h b (List.mem_cons_of_mem _ hb)
    rw [List.flatMap_cons, List.length_append, h a List.mem_cons_self, ih hrow, List.length_cons, Nat.succ_mul,
      Nat.add_comm]

end Bytes

/-! ## Counter streams -/

namespace CounterStream

variable (d : Digest) (seed suffix : Bytes)

@[simp] theorem length_block (i : Nat) : (block d seed suffix i).length = d.outputLength := d.length_hash _

theorem length_blocks (n : Nat) : (blocks d seed suffix n).length = n * d.outputLength := by
  have hblock : ∀ i ∈ List.range n, (block d seed suffix i).length = d.outputLength := fun _ _ => length_block ..
  unfold blocks
  rw [Bytes.length_flatMap hblock, List.length_range]

theorem blocks_succ (n : Nat) : blocks d seed suffix (n + 1) = blocks d seed suffix n ++ block d seed suffix n := by
  simp [blocks, List.range_succ]

theorem prefix_blocks {few many : Nat} (h : few ≤ many) : blocks d seed suffix few <+: blocks d seed suffix many := by
  induction h with
  | refl => exact List.prefix_refl _
  | step _ ih =>
    rw [blocks_succ]
    exact ih.trans (List.prefix_append _ _)

/-- More digests than it takes give the same first bytes. -/
theorem take_blocks {few many len : Nat} (hle : few ≤ many) (h : len ≤ few * d.outputLength) :
    (blocks d seed suffix few).take len = (blocks d seed suffix many).take len := by
  obtain ⟨rest, hrest⟩ := prefix_blocks d seed suffix hle
  rw [← hrest, List.take_append_of_le_length]
  rwa [length_blocks]

theorem rounds_le_iff {len n : Nat} : rounds d len ≤ n ↔ len ≤ n * d.outputLength := by
  have hpos := d.outputLength_pos
  unfold rounds
  rw [← Nat.lt_succ_iff, Nat.div_lt_iff_lt_mul hpos, Nat.succ_mul]
  omega

theorem le_rounds_mul (len : Nat) : len ≤ rounds d len * d.outputLength := (rounds_le_iff d).1 (Nat.le_refl _)

/-- The first bytes of as many digests as there are, if they are enough. -/
theorem stream_eq {len n : Nat} (h : len ≤ n * d.outputLength) :
    stream d seed suffix len = (blocks d seed suffix n).take len :=
  take_blocks d seed suffix ((rounds_le_iff d).2 h) (le_rounds_mul d len)

@[simp] theorem length_stream (len : Nat) : (stream d seed suffix len).length = len := by
  unfold stream
  rw [List.length_take, length_blocks]
  exact Nat.min_eq_left (le_rounds_mul d len)

/-! ### Counting beforehand -/

theorem digests_of_le {n : Nat} (h : n ≤ 2 ^ 32) : digests d seed suffix n = .ok (blocks d seed suffix n) := by
  unfold digests
  induction n with
  | zero => rfl
  | succ n ih =>
    rw [List.range_succ, List.foldlM_append, ih (Nat.le_of_succ_le h), Except.ok_bind, List.foldlM_cons, append,
      if_pos (Nat.lt_of_succ_le h), blocks_succ]
    rfl

/-- The first number that the counter does not have ends the loop. -/
theorem digests_of_lt {n : Nat} (h : 2 ^ 32 < n) :
    digests d seed suffix n = .error (.outside .integerRange) := by
  unfold digests
  induction h with
  | refl =>
    have hfirst := digests_of_le d seed suffix (Nat.le_refl _)
    unfold digests at hfirst
    rw [Nat.succ_eq_add_one, List.range_succ, List.foldlM_append, hfirst, Except.ok_bind, List.foldlM_cons, append,
      if_neg (Nat.lt_irrefl _)]
    rfl
  | step _ ih =>
    rw [Nat.succ_eq_add_one, List.range_succ, List.foldlM_append, ih]
    rfl

/-- The digests that give `len` bytes fit into a string. -/
def HasRoom (d : Digest) (len : Nat) : Prop := rounds d len * d.outputLength < 2 ^ 63

variable {d} in
theorem HasRoom.of_rounds {len : Nat} (h : rounds d len ≤ 2 ^ 32) : HasRoom d len :=
  Nat.lt_of_le_of_lt (Nat.mul_le_mul h d.outputLength_le) (by decide)

/-- Where the digests have room, the loop gives the first bytes of the stream, unless its counter runs out. -/
theorem counted_of_room {len : Nat} (h : HasRoom d len) :
    counted d seed suffix len =
      if 2 ^ 32 < rounds d len then .error (.error (.outside .integerRange)) else .ok (stream d seed suffix len) := by
  unfold HasRoom at h
  unfold counted
  rw [Checked.mul_of_lt (by omega), Except.ok_bind, Checked.reserve_of_lt h, Except.ok_bind]
  split
  · next hlt =>
    rw [digests_of_lt d seed suffix hlt]
    rfl
  · next hle =>
    rw [digests_of_le d seed suffix (Nat.le_of_not_lt hle)]
    rfl

/-- Without room for the digests no byte is made. -/
theorem counted_of_no_room {len : Nat} (h : ¬ HasRoom d len) : ∃ a, counted d seed suffix len = .error (.abort a) :=
  Checked.bind_reserve_mul_of_le (Nat.le_of_not_lt h) _

theorem counted_of_rounds {len : Nat} (h : rounds d len ≤ 2 ^ 32) :
    counted d seed suffix len = .ok (stream d seed suffix len) := by
  rw [counted_of_room d seed suffix (.of_rounds h), if_neg (Nat.not_lt_of_le h)]

variable {d seed suffix} in
theorem counted_ok {len : Nat} {u : Bytes} :
    counted d seed suffix len = .ok u ↔ rounds d len ≤ 2 ^ 32 ∧ u = stream d seed suffix len := by
  by_cases hroom : HasRoom d len
  · rw [counted_of_room d seed suffix hroom]
    split
    · next h => exact iff_of_false nofun fun hu => Nat.not_lt_of_le hu.1 h
    · next h => exact ⟨fun hu => ⟨Nat.le_of_not_lt h, (Except.ok.inj hu).symm⟩, fun hu => congrArg _ hu.2.symm⟩
  · obtain ⟨a, ha⟩ := counted_of_no_room d seed suffix hroom
    rw [ha]
    exact iff_of_false nofun fun hu => hroom (.of_rounds hu.1)

/-! ### Adding until there is enough -/

/-- From `n` digests on, `more` of which are enough, the loop ends with the first bytes of them all. -/
theorem grow_blocks {len n more : Nat} (h : len ≤ (n + more) * d.outputLength) :
    grow d seed len (blocks d seed [] n) n = (blocks d seed [] (n + more)).take len := by
  induction more generalizing n with
  | zero =>
    have henough : ¬ (blocks d seed [] n).length < len := by rw [length_blocks]; exact Nat.not_lt.2 h
    rw [grow, if_neg henough]
    rfl
  | succ more ih =>
    rw [grow]
    split
    · have hnext : n + (more + 1) = n + 1 + more := by omega
      rw [hnext] at h ⊢
      rw [← blocks_succ, ih h]
    · next henough =>
      rw [length_blocks] at henough
      exact take_blocks d seed [] (Nat.le_add_right ..) (Nat.le_of_not_lt henough)

theorem mask_eq (len : Nat) : mask d seed len = stream d seed [] len := by
  have henough : len ≤ (0 + rounds d len) * d.outputLength := by
    rw [Nat.zero_add]
    exact le_rounds_mul d len
  have hgrow := grow_blocks d seed henough
  rwa [Nat.zero_add] at hgrow

@[simp] theorem length_mask (len : Nat) : (mask d seed len).length = len := by rw [mask_eq, length_stream]

end CounterStream
end SoftToken
