import Mathlib.Data.List.GetD
import SoftToken.Derivation.Rule
import SoftToken.Proofs.CheckedStrings
/-!
# Bits that are copied in a circle

One step of the copying loop sets one bit of the output and leaves the others alone (`bitAt_copyBit`), so that the
loop copies as many bits as it has steps (`bitAt_foldl_copyBit`). Strings of one length with the same bits are equal,
and what is copied in two pieces is what is copied at once (`circleBits_append`). The loop gives these bits exactly if
there is room for them and their places are numbers of words (`bitsFrom_of_fits`, `bitsFrom_of_not_fits`).
-/

namespace SoftToken.DerivationRule

/-! ## Bits of a string -/

theorem bitAt_append_left {a : Bytes} {i : Nat} (h : i < 8 * a.length) (c : Bytes) : bitAt (a ++ c) i = bitAt a i := by
  have hbyte : i / 8 < a.length := Nat.div_lt_of_lt_mul h
  rw [bitAt, bitAt, List.getD_append _ _ _ _ hbyte]

theorem bitAt_append_right (a c : Bytes) (i : Nat) : bitAt (a ++ c) (8 * a.length + i) = bitAt c i := by
  have hbyte : (8 * a.length + i) / 8 = a.length + i / 8 := by omega
  have hbit : (8 * a.length + i) % 8 = i % 8 := by omega
  rw [bitAt, bitAt, hbyte, hbit, List.getD_append_right _ _ _ _ (Nat.le_add_right ..), Nat.add_sub_cancel_left]

theorem bitAt_zeros (len i : Nat) : bitAt (Bytes.zeros len) i = false := by
  have hbyte : (Bytes.zeros len).getD (i / 8) 0 = 0 := by
    rw [Bytes.zeros, List.getD_eq_getElem?_getD, List.getElem?_replicate]
    split <;> rfl
  rw [bitAt, hbyte]
  exact Nat.zero_testBit _

/-- The eight bits of a byte determine it. -/
theorem eq_of_testBit {x y : UInt8} (h : ∀ k < 8, x.toNat.testBit k = y.toNat.testBit k) : x = y := by
  apply UInt8.toNat_inj.1
  apply Nat.eq_of_testBit_eq
  intro k
  by_cases hk : k < 8
  · exact h k hk
  · have hpow : 2 ^ 8 ≤ 2 ^ k := Nat.pow_le_pow_right (by decide) (Nat.le_of_not_lt hk)
    rw [Nat.testBit_lt_two_pow (Nat.lt_of_lt_of_le x.toNat_lt hpow),
      Nat.testBit_lt_two_pow (Nat.lt_of_lt_of_le y.toNat_lt hpow)]

theorem ext_bitAt {a b : Bytes} (hl : a.length = b.length) (h : ∀ i < 8 * a.length, bitAt a i = bitAt b i) : a = b := by
  apply List.ext_getElem hl
  intro m ha hb
  apply eq_of_testBit
  intro k hk
  -- bit `k` of byte `m`, counted from the least significant one
  have hbit := h (8 * m + (7 - k)) (by omega)
  have hm : (8 * m + (7 - k)) / 8 = m := by omega
  have hr : 7 - (8 * m + (7 - k)) % 8 = k := by omega
  simpa only [bitAt, hm, hr, List.getD_eq_getElem _ _ ha, List.getD_eq_getElem _ _ hb] using hbit

/-! ## The loop -/

/-- A bit that is moved to a place of a byte of zeros. -/
theorem testBit_moved (x : UInt8) {source target k : Nat} (hs : source < 8) (ht : target < 8) (hk : k < 8) :
    (((x >>> UInt8.ofNat source) &&& 1) <<< UInt8.ofNat target).toNat.testBit k =
      (decide (k = target) && x.toNat.testBit source) := by
  have hsource : (UInt8.ofNat source).toNat % 8 = source := by
    rw [UInt8.toNat_ofNat_of_lt' (Nat.lt_trans hs (by decide))]
    exact Nat.mod_eq_of_lt hs
  have htarget : (UInt8.ofNat target).toNat % 8 = target := by
    rw [UInt8.toNat_ofNat_of_lt' (Nat.lt_trans ht (by decide))]
    exact Nat.mod_eq_of_lt ht
  rw [UInt8.toNat_shiftLeft, UInt8.toNat_and, UInt8.toNat_shiftRight, hsource, htarget, Nat.testBit_mod_two_pow,
    Nat.testBit_shiftLeft, Nat.testBit_and, Nat.testBit_shiftRight]
  rcases Nat.lt_trichotomy k target with hlt | rfl | hgt
  · simp [Nat.not_le_of_lt hlt, Nat.ne_of_lt hlt]
  · simp [hk]
  · have hone : ¬ Nat.testBit 1 (k - target) = true := by
      rw [Nat.testBit_one_eq_true_iff_self_eq_zero]
      omega
    simp [hone, Nat.ne_of_gt hgt]

variable (b : Bytes) (index : Nat)

@[simp] theorem length_copyBit (out : Bytes) (i : Nat) : (copyBit b index out i).length = out.length :=
  List.length_modify ..

/-- A step of the loop adds its bit to the output and changes no other bit. -/
theorem bitAt_copyBit {out : Bytes} {i j : Nat} (hj : j < 8 * out.length) :
    bitAt (copyBit b index out i) j = (bitAt out j || (decide (j = i) && bitAt b ((index + i) % (8 * b.length)))) := by
  have hbyte : j / 8 < out.length := Nat.div_lt_of_lt_mul hj
  by_cases hsame : i / 8 = j / 8
  · have hplace : 7 - j % 8 = 7 - i % 8 ↔ j = i := by omega
    simp only [bitAt, copyBit, List.getD_eq_getElem?_getD, List.getElem?_modify, hsame, if_pos,
      List.getElem?_eq_getElem hbyte, Option.map_eq_map, Option.map_some, Option.getD_some, UInt8.toNat_or,
      Nat.testBit_or]
    rw [testBit_moved _ (by omega) (by omega) (by omega)]
    simp only [hplace]
  · have hne : j ≠ i := fun he => hsame (by rw [he])
    simp [bitAt, copyBit, List.getD_eq_getElem?_getD, hsame, hne]

theorem length_foldl_copyBit (n : Nat) (out : Bytes) :
    ((List.range n).foldl (copyBit b index) out).length = out.length := by
  induction n with
  | zero => rfl
  | succ n ih => rw [List.range_succ, List.foldl_append, List.foldl_cons, List.foldl_nil, length_copyBit, ih]

/-- After `n` steps the first `n` bits are copied, and the others are zeros. -/
theorem bitAt_foldl_copyBit (n : Nat) {len j : Nat} (hj : j < 8 * len) :
    bitAt ((List.range n).foldl (copyBit b index) (Bytes.zeros len)) j =
      (decide (j < n) && bitAt b ((index + j) % (8 * b.length))) := by
  induction n with
  | zero => simp [bitAt_zeros]
  | succ n ih =>
    have hlen : j < 8 * ((List.range n).foldl (copyBit b index) (Bytes.zeros len)).length := by
      rwa [length_foldl_copyBit, Bytes.length_zeros]
    rw [List.range_succ, List.foldl_append, List.foldl_cons, List.foldl_nil, bitAt_copyBit b index hlen, ih]
    rcases Nat.lt_trichotomy j n with hlt | rfl | hgt
    · simp [hlt, Nat.ne_of_lt hlt, Nat.lt_succ_of_lt hlt]
    · simp
    · simp [Nat.not_lt_of_gt hgt, Nat.ne_of_gt hgt, Nat.not_lt.2 hgt]

/-- `len` bytes of the bits that start at an index, in a circle. -/
def circleBits (len : Nat) : Bytes := (List.range (8 * len)).foldl (copyBit b index) (Bytes.zeros len)

@[simp] theorem length_circleBits (len : Nat) : (circleBits b index len).length = len := by
  rw [circleBits, length_foldl_copyBit, Bytes.length_zeros]

theorem bitAt_circleBits {len i : Nat} (h : i < 8 * len) :
    bitAt (circleBits b index len) i = bitAt b ((index + i) % (8 * b.length)) := by
  simp [circleBits, bitAt_foldl_copyBit b index _ h, h]

/-- What is copied in two pieces, the second from where the first ends, is what is copied at once. -/
theorem circleBits_append (first second : Nat) :
    circleBits b index first ++ circleBits b ((index + 8 * first) % (8 * b.length)) second =
      circleBits b index (first + second) := by
  apply ext_bitAt
  · simp
  intro i hi
  rw [List.length_append, length_circleBits, length_circleBits] at hi
  rw [bitAt_circleBits b index hi]
  by_cases hfirst : i < 8 * first
  · rw [bitAt_append_left (by rwa [length_circleBits]), bitAt_circleBits b index hfirst]
  · obtain ⟨j, rfl⟩ := Nat.exists_eq_add_of_le (Nat.le_of_not_lt hfirst)
    have hright := bitAt_append_right (circleBits b index first)
      (circleBits b ((index + 8 * first) % (8 * b.length)) second) j
    rw [length_circleBits] at hright
    rw [hright, bitAt_circleBits _ _ (by omega), Nat.mod_add_mod, Nat.add_assoc]

/-! ## Room and indexes -/

/-- The bits of `len` bytes have a number that is a word, and so have their places from an index on. -/
def Fits (index len : Nat) : Prop := len < 2 ^ 61 ∧ (len = 0 ∨ index + 8 * len ≤ 2 ^ 64)

variable {b index}

theorem stepBit_of_lt {out : Bytes} {i : Nat} (h : index + i < 2 ^ 64) : stepBit b index out i = .ok (copyBit b index out i) := by
  unfold stepBit
  rw [Checked.add, if_pos h]
  rfl

theorem stepBit_of_le {out : Bytes} {i : Nat} (h : 2 ^ 64 ≤ index + i) :
    stepBit b index out i = .error (.abort .wordOverflow) := by
  unfold stepBit
  rw [Checked.add, if_neg (Nat.not_lt.2 h)]
  rfl

/-- As long as the indexes are words, the checks change nothing. -/
theorem foldlM_stepBit_of_le {n : Nat} (h : n = 0 ∨ index + n ≤ 2 ^ 64) (out : Bytes) :
    (List.range n).foldlM (stepBit b index) out = .ok ((List.range n).foldl (copyBit b index) out) := by
  induction n with
  | zero => rfl
  | succ n ih =>
    have hin : index + n < 2 ^ 64 := by omega
    rw [List.range_succ, List.foldlM_append, ih (.inr (Nat.le_of_lt hin)), Except.ok_bind, List.foldlM_cons,
      stepBit_of_lt hin, List.foldl_append]
    rfl

/-- The first index that is no word ends the loop. -/
theorem foldlM_stepBit_of_lt {n : Nat} (hn : n ≠ 0) (h : 2 ^ 64 < index + n) (out : Bytes) :
    (List.range n).foldlM (stepBit b index) out = .error (.abort .wordOverflow) := by
  induction n with
  | zero => exact absurd rfl hn
  | succ n ih =>
    rw [List.range_succ, List.foldlM_append]
    by_cases hbefore : n ≠ 0 ∧ 2 ^ 64 < index + n
    · rw [ih hbefore.1 hbefore.2]
      rfl
    · rw [foldlM_stepBit_of_le (by omega), Except.ok_bind, List.foldlM_cons, stepBit_of_le (by omega)]
      rfl

theorem bitsFrom_of_fits {len : Nat} (h : Fits index len) : bitsFrom b index len = .ok (circleBits b index len) := by
  obtain ⟨hlen, hindex⟩ := h
  have hbits : len * 8 = 8 * len := Nat.mul_comm ..
  unfold bitsFrom
  rw [Checked.reserve_of_lt (by omega), Except.ok_bind, Checked.mul_of_lt (by omega), Except.ok_bind, hbits]
  exact foldlM_stepBit_of_le (by omega) _

theorem bitsFrom_of_not_fits {len : Nat} (h : ¬ Fits index len) : ∃ a, bitsFrom b index len = .error (.abort a) := by
  unfold bitsFrom
  rcases Nat.lt_or_ge len (2 ^ 63) with hroom | hroom
  · rw [Checked.reserve_of_lt hroom, Except.ok_bind]
    rcases Nat.lt_or_ge (len * 8) (2 ^ 64) with hbits | hbits
    · rw [Checked.mul_of_lt hbits, Except.ok_bind]
      unfold Fits at h
      exact ⟨_, foldlM_stepBit_of_lt (by omega) (by omega) _⟩
    · unfold Checked.mul
      rw [if_neg (Nat.not_lt.2 hbits)]
      exact ⟨_, rfl⟩
  · rw [Checked.reserve_of_le hroom]
    exact ⟨_, rfl⟩

theorem bitsFrom_ok {len : Nat} {u : Bytes} :
    bitsFrom b index len = .ok u ↔ Fits index len ∧ u = circleBits b index len := by
  by_cases h : Fits index len
  · rw [bitsFrom_of_fits h]
    exact ⟨fun hu => ⟨h, (Except.ok.inj hu).symm⟩, fun hu => congrArg _ hu.2.symm⟩
  · obtain ⟨a, ha⟩ := bitsFrom_of_not_fits (b := b) h
    rw [ha]
    exact iff_of_false nofun fun hu => h hu.1

theorem Fits.mono {short long : Nat} (h : Fits index long) (hle : short ≤ long) : Fits index short := by
  unfold Fits at h ⊢
  omega

end SoftToken.DerivationRule
