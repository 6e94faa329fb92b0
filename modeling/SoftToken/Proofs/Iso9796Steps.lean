import SoftToken.Proofs.CheckedStrings
import SoftToken.Proofs.Mask
import SoftToken.Rsa.Signature
/-!
# The steps of ISO/IEC 9796-1

The loops write what the closed form of the block says: `fill_eq` for the repeated message and `spread_eq` for the
bytes with their shadows, each from one round of its loop. `writeBlock_eq` puts them together: the only step that can
give up on a message of an allowed length is the one that marks the length.
-/

namespace SoftToken

/-! ## Loops that go from state to state -/

section Loops

variable {α β ε : Type}

/-- A loop over the first multiples of a number. -/
theorem Except.foldlM_range' {f : β → Nat → Except ε β} (state : Nat → β) {step n : Nat}
    (h : ∀ i < n, f (state i) (i * step) = .ok (state (i + 1))) :
    (List.range' 0 n step).foldlM f (state 0) = .ok (state n) := by
  induction n with
  | zero => rfl
  | succ n ih =>
    rw [List.range'_concat, List.foldlM_append, ih fun i hi => h i (Nat.lt_succ_of_lt hi), Except.ok_bind,
      List.foldlM_cons, Nat.zero_add, Nat.mul_comm, h n (Nat.lt_succ_self n)]
    rfl

/-- A loop over the numbered members of a list, whose states belong to the initial pieces of the list. -/
theorem Except.foldlM_zipIdx {f : β → α × Nat → Except ε β} {state : List α → β} {l : List α}
    (h : ∀ p x q, l = p ++ x :: q → f (state p) (x, p.length) = .ok (state (p ++ [x]))) :
    l.zipIdx.foldlM f (state []) = .ok (state l) := by
  suffices hrest : ∀ q p, l = p ++ q → (q.zipIdx p.length).foldlM f (state p) = .ok (state l) from hrest l [] rfl
  intro q
  induction q with
  | nil =>
    intro p hp
    rw [hp, List.append_nil]
    rfl
  | cons x q ih =>
    intro p hp
    have hnext := ih (p ++ [x]) (by rw [hp, List.append_assoc, List.singleton_append])
    rw [List.length_append, List.length_singleton] at hnext
    rw [List.zipIdx_cons, List.foldlM_cons, h p x q hp, Except.ok_bind, hnext]

end Loops

namespace Rsa.Iso9796

/-! ## The repeated message -/

variable {message : Bytes} {total length : Nat}

theorem length_extend (message : Bytes) (len : Nat) : (extend message len).length = len := by simp [extend]

/-- In front of whole messages stands the end of another one. -/
theorem extend_add {rounds d : Nat} (hd : d ≤ message.length) :
    extend message (d + rounds * message.length) =
      message.drop (message.length - d) ++ extend message (rounds * message.length) := by
  unfold extend
  rw [List.range_add, List.map_append, List.map_map]
  congr 1
  · refine List.ext_getElem (by simp; omega) fun k hk _ => ?_
    have hkd : k < d := by simpa using hk
    have hrest : d + rounds * message.length - 1 - k = d - 1 - k + rounds * message.length := by omega
    have hmod : (d + rounds * message.length - 1 - k) % message.length = d - 1 - k := by
      rw [hrest, Nat.add_mul_mod_self_right, Nat.mod_eq_of_lt (by omega)]
    have hindex : message.length - 1 - (d - 1 - k) = message.length - d + k := by omega
    have hlt : message.length - d + k < message.length := by omega
    simp only [List.getElem_map, List.getElem_range, List.getElem_drop, hmod, hindex,
      List.getD_eq_getElem?_getD, List.getElem?_eq_getElem hlt, Option.getD_some]
  · refine List.map_congr_left fun k _ => ?_
    have hk : d + rounds * message.length - 1 - (d + k) = rounds * message.length - 1 - k := by omega
    simp only [Function.comp, hk]

/-- The block of which the last `written` bytes are filled. -/
def filled (message : Bytes) (length written : Nat) : Bytes :=
  Bytes.zeros (length - written) ++ extend message written

theorem length_filled {written : Nat} (h : written ≤ length) : (filled message length written).length = length := by
  rw [filled, List.length_append, Bytes.length_zeros, length_extend]
  omega

/-- The end of a message in front of the filled bytes. -/
theorem copy_filled {rounds d : Nat} (hd : d ≤ message.length) (hl : d + rounds * message.length ≤ length) :
    Checked.copy (filled message length (rounds * message.length)) (length - (d + rounds * message.length))
      (length - rounds * message.length) (message.drop (message.length - d)) =
        .ok (filled message length (d + rounds * message.length)) := by
  have hzeros : length - rounds * message.length = length - (d + rounds * message.length) + d := by omega
  unfold filled
  rw [extend_add hd, hzeros, Bytes.zeros_add, ← List.append_assoc]
  refine Checked.copy_append (Bytes.length_zeros _) (by rw [Bytes.length_zeros]) ?_
  rw [List.length_drop, Bytes.length_zeros]
  omega

/-- One round: a whole message, or what is missing. -/
theorem copyBack_filled {rounds : Nat} (hz : message.length ≤ total) (ht : total ≤ length)
    (hr : rounds * message.length < total) :
    copyBack message total (filled message length (rounds * message.length)) (rounds * message.length) =
      .ok (filled message length (min ((rounds + 1) * message.length) total)) := by
  have hlen : (filled message length (rounds * message.length)).length = length := length_filled (by omega)
  rw [Nat.succ_mul]
  unfold copyBack
  rw [hlen, Checked.sub_of_le (by omega), Except.ok_bind, Checked.sub_of_le hz, Except.ok_bind]
  split
  · next hlast =>
    have hd : total - rounds * message.length ≤ message.length := by omega
    have htotal : total - rounds * message.length + rounds * message.length = total := by omega
    have hall : total - rounds * message.length + rounds * message.length ≤ length := by omega
    have hcopy := copy_filled hd hall
    have hpart : Checked.slice message (message.length - (total - rounds * message.length)) message.length =
        .ok (message.drop (message.length - (total - rounds * message.length))) := by
      unfold Checked.slice
      rw [if_pos ⟨Nat.sub_le _ _, Nat.le_refl _⟩, List.take_length]
    rw [htotal] at hcopy
    rw [Nat.min_eq_right (by omega), Checked.sub_of_le (show rounds * message.length ≤ total by omega),
      Except.ok_bind, Checked.sub_of_le hd, Except.ok_bind, hpart, Except.ok_bind, Checked.sub_of_le ht,
      Except.ok_bind, hcopy]
  · next hmore =>
    have hall : message.length + rounds * message.length ≤ length := by omega
    have hcopy := copy_filled (Nat.le_refl message.length) hall
    rw [Nat.sub_self, List.drop_zero] at hcopy
    rw [Nat.min_eq_left (by omega), Checked.sub_of_le (by omega), Except.ok_bind,
      Nat.add_comm (rounds * message.length), hcopy]

/-- The loop fills the end of the block with the repeated message. -/
theorem fill_eq (h0 : 0 < message.length) (hz : message.length ≤ total) (ht : total ≤ length) :
    fill message total (Bytes.zeros length) = .ok (Bytes.zeros (length - total) ++ extend message total) := by
  have hrounds : total ≤ (total + message.length - 1) / message.length * message.length := by
    have hlt := Nat.lt_mul_div_succ (total + message.length - 1) h0
    rw [Nat.mul_succ, Nat.mul_comm] at hlt
    omega
  have hstart : Bytes.zeros length = filled message length (min (0 * message.length) total) := by
    simp [filled, extend]
  unfold fill
  rw [hstart, Except.foldlM_range' (fun i => filled message length (min (i * message.length) total)),
    Nat.min_eq_right hrounds, filled]
  intro i hi
  have hlt : i * message.length < total := by
    have hle := (Nat.le_div_iff_mul_le h0).1 hi
    rw [Nat.succ_mul] at hle
    omega
  simp only [Nat.min_eq_left (Nat.le_of_lt hlt)]
  exact copyBack_filled hz ht hlt

/-! ## Bytes with their shadows -/

theorem length_interleave (b : Bytes) : (interleave b).length = 2 * b.length := by
  unfold interleave
  have htwo : ∀ x ∈ b, [shadow x, x].length = 2 := fun _ _ => rfl
  rw [Bytes.length_flatMap htwo, Nat.mul_comm]

theorem interleave_append (b c : Bytes) : interleave (b ++ c) = interleave b ++ interleave c := by
  simp [interleave]

/-- What is fitted from the right keeps its end. -/
theorem fit_append (len : Nat) (b c : Bytes) : fit (len + c.length) (b ++ c) = fit len b ++ c := by
  have hcut : (b ++ c).length - (len + c.length) = b.length - len := by
    rw [List.length_append]
    omega
  unfold fit Bytes.padLeft
  rw [hcut, List.drop_append_of_le_length (Nat.sub_le _ _), List.length_append, Nat.add_sub_add_right,
    List.append_assoc]

theorem length_fit (len : Nat) (b : Bytes) : (fit len b).length = len := by
  simp only [fit, Bytes.padLeft, List.length_append, Bytes.length_zeros, List.length_drop]
  omega

/-- The block over which the bytes `p`, the first of `total` ones, are spread. -/
def spreadOver (block : Bytes) (total : Nat) (p : Bytes) : Bytes :=
  let written := block.length + 2 * p.length - 2 * total
  fit written (interleave p) ++ block.drop written

/-- A shadow and its byte are written where the position is an index. -/
theorem writePair_append {a r : Bytes} {start : Int} {k : Nat} (h : start + 2 * k = a.length) (x y z : UInt8) :
    writePair start (a ++ y :: z :: r) (x, k) = .ok (a ++ shadow x :: x :: r) := by
  have hfirst : Checked.index (a.length : Int) = .ok a.length := if_pos (Int.natCast_nonneg _)
  have hsecond : Checked.index ((a.length : Int) + 1) = .ok (a.length + 1) := if_pos (by omega)
  have hbyte : Checked.write (a ++ [shadow x] ++ z :: r) (a.length + 1) x = .ok (a ++ [shadow x] ++ x :: r) :=
    Checked.write_append (by simp)
  rw [List.append_assoc, List.append_assoc] at hbyte
  unfold writePair
  simp only [h, if_pos (Int.natCast_nonneg a.length), hfirst, hsecond, Except.ok_bind, Checked.write_append]
  exact hbyte

/-- In front of the block there is no place for a shadow. -/
theorem writePair_first {start : Int} (h : start = -1) (x y : UInt8) (r : Bytes) :
    writePair start (y :: r) (x, 0) = .ok (x :: r) := by
  subst h
  rfl

/-- One round: the next byte after its shadow. -/
theorem writePair_spreadOver {block p q : Bytes} {x : UInt8} (hl : total = (p ++ x :: q).length)
    (hshort : 2 * total ≤ block.length + 1) :
    writePair (block.length - 2 * total) (spreadOver block total p) (x, p.length) =
      .ok (spreadOver block total (p ++ [x])) := by
  rw [List.length_append, List.length_cons] at hl
  unfold spreadOver
  have hlast : interleave [x] = [shadow x, x] := rfl
  simp only [interleave_append, hlast, List.length_append, List.length_singleton, Nat.mul_succ, ← Nat.add_assoc]
  rcases Nat.lt_or_ge (block.length + 2 * p.length) (2 * total) with hlt | hge
  · -- Only the first shadow of a block that is one byte short falls in front of it.
    obtain rfl : p = [] := List.length_eq_zero_iff.1 (by omega)
    obtain ⟨y, r, rfl⟩ : ∃ y r, block = y :: r := List.exists_cons_of_length_pos (by omega)
    have hnone : (y :: r).length + 2 * ([] : Bytes).length - 2 * total = 0 := by omega
    have hone : (y :: r).length + 2 * ([] : Bytes).length + 2 - 2 * total = 1 := by omega
    rw [hnone, hone]
    exact writePair_first (by omega) x y r
  · generalize hn : block.length + 2 * p.length - 2 * total = n
    have hnext : block.length + 2 * p.length + 2 - 2 * total = n + 2 := by omega
    have hplace : (block.length - 2 * total + 2 * p.length : Int) = (fit n (interleave p)).length := by
      rw [length_fit]
      omega
    obtain ⟨y, z, hdrop⟩ : ∃ y z, block.drop n = y :: z :: block.drop (n + 2) := by
      rw [List.drop_eq_getElem_cons (by omega), List.drop_eq_getElem_cons (by omega)]
      exact ⟨_, _, rfl⟩
    have hfit : fit (n + 2) (interleave p ++ [shadow x, x]) = fit n (interleave p) ++ [shadow x, x] :=
      fit_append n (interleave p) [shadow x, x]
    rw [hdrop, writePair_append hplace, hnext, hfit, List.append_assoc]
    rfl

theorem spreadOver_nil {source : Bytes} (hl : source.length = total) (ht : total ≤ length) :
    spreadOver (Bytes.zeros (length - total) ++ source) total [] = Bytes.zeros (length - total) ++ source := by
  obtain ⟨n, hn⟩ : ∃ n, length - total = length - 2 * total + n :=
    ⟨length - total - (length - 2 * total), by omega⟩
  have hcut : (Bytes.zeros (length - total) ++ source).length + 2 * ([] : Bytes).length - 2 * total =
      length - 2 * total := by
    simp only [List.length_append, Bytes.length_zeros, List.length_nil, hl]
    omega
  have hfit : fit (length - 2 * total) (interleave []) = Bytes.zeros (length - 2 * total) := by
    simp [fit, interleave, Bytes.padLeft]
  unfold spreadOver
  simp only [hcut, hfit]
  rw [hn, Bytes.zeros_add, List.append_assoc, List.drop_left' (Bytes.length_zeros _)]

/-- The loop spreads the filled end over the block. -/
theorem spread_eq {source : Bytes} (hl : source.length = total) (ht : total ≤ length)
    (hshort : 2 * total ≤ length + 1) :
    spread total (Bytes.zeros (length - total) ++ source) = .ok (fit length (interleave source)) := by
  have hstart := spreadOver_nil hl ht
  have hlen : (Bytes.zeros (length - total) ++ source).length = length := by
    rw [List.length_append, Bytes.length_zeros, hl]
    omega
  have hsource : Checked.slice (Bytes.zeros (length - total) ++ source) (length - total)
      (Bytes.zeros (length - total) ++ source).length = .ok source := Checked.slice_suffix (Bytes.length_zeros _)
  generalize Bytes.zeros (length - total) ++ source = block at *
  have hend : spreadOver block total source = fit length (interleave source) := by
    have hall : block.length + 2 * source.length - 2 * total = length := by omega
    unfold spreadOver
    simp only [hall]
    rw [List.drop_of_length_le (Nat.le_of_eq hlen), List.append_nil]
  have hloop : source.zipIdx.foldlM (writePair (block.length - 2 * total)) (spreadOver block total []) =
      .ok (spreadOver block total source) :=
    Except.foldlM_zipIdx fun p x q hp => writePair_spreadOver (by rw [← hp, hl]) (by rw [hlen]; exact hshort)
  have hsub : Checked.sub block.length total = .ok (length - total) := by
    rw [hlen]
    exact Checked.sub_of_le ht
  unfold spread
  rw [hsub, Except.ok_bind, hsource, Except.ok_bind, ← hend, ← hloop, hstart]

/-! ## The ends of the block -/

theorem unused_eq_eight_iff {bits : Nat} : UInt8.ofNat (8 - (bits - 1) % 8) = 8 ↔ (bits - 1) % 8 = 0 := by
  have hall : ∀ b < 8, UInt8.ofNat (8 - b) = 8 ↔ b = 0 := by decide
  exact hall _ (Nat.mod_lt _ (by decide))

/-- The top of a block: its first byte, or the second one where the modulus leaves nothing of the first. -/
def top (bits : Nat) (block : Bytes) : Bytes :=
  let unused := UInt8.ofNat (8 - (bits - 1) % 8)
  if unused = 8 then (block.drop 1).modify 0 (· ||| 0x80)
  else block.modify 0 fun x => (x &&& (0xff >>> unused)) ||| (0x80 >>> unused)

theorem finish_eq (bits : Nat) (block : Bytes) :
    finish bits block = top bits (block.modify (block.length - 1) fun x => (x <<< 4) ||| 0x06) := rfl

/-- The steps at the top stay within a block as long as the modulus. -/
theorem setTop_eq {bits : Nat} {block : Bytes} (hb : 2 ≤ bits) (hl : block.length = (bits + 7) / 8) :
    setTop bits block = .ok (top bits block) := by
  have hunused : Checked.sub 8 ((bits - 1) % 8) = .ok (8 - (bits - 1) % 8) := Checked.sub_of_le (by omega)
  unfold setTop top
  rw [Checked.sub_of_le (by omega), Except.ok_bind, hunused, Except.ok_bind]
  simp only [unused_eq_eight_iff]
  obtain ⟨x, r, rfl⟩ : ∃ x r, block = x :: r := List.exists_cons_of_length_pos (by omega)
  rw [List.length_cons] at hl
  by_cases h0 : (bits - 1) % 8 = 0
  · -- With eight unused bits there is a second byte.
    obtain ⟨y, s, rfl⟩ : ∃ y s, r = y :: s := List.exists_cons_of_length_pos (by omega)
    have hdropped : Checked.slice (0 :: (y ||| 0x80) :: s) 1 (0 :: (y ||| 0x80) :: s).length =
        .ok ((y ||| 0x80) :: s) := Checked.slice_suffix (a := [0]) rfl
    rw [if_neg (by omega), if_pos h0]
    exact hdropped
  · have hkept : Checked.shiftRight 0xff (8 - (bits - 1) % 8) = .ok (0xff >>> UInt8.ofNat (8 - (bits - 1) % 8)) :=
      if_pos (by omega)
    have htop : Checked.shiftRight 0x80 (8 - (bits - 1) % 8) = .ok (0x80 >>> UInt8.ofNat (8 - (bits - 1) % 8)) :=
      if_pos (by omega)
    rw [if_pos (by omega), if_neg h0, hkept, htop]
    rfl

/-! ## The block -/

/-- A message of an allowed length is written as the closed form says. Where the block is shorter than twice the
message, there is no place for the mark of the length, and the writer gives up. -/
theorem writeBlock_eq {bits : Nat} (h0 : 0 < message.length) (hz : message.length ≤ maxLength bits) :
    writeBlock bits message = match block? bits message with
      | some b => .ok b
      | none => .error (.abort .wordOverflow) := by
  have hb : 2 ≤ bits := by
    unfold maxLength at hz
    omega
  have ht : maxLength bits ≤ (bits + 7) / 8 := by unfold maxLength; omega
  have hshort : 2 * maxLength bits ≤ (bits + 7) / 8 + 1 := by unfold maxLength; omega
  unfold writeBlock block?
  simp only
  rw [fill_eq h0 hz ht, Except.ok_bind, spread_eq (length_extend _ _) ht hshort, Except.ok_bind]
  have hlen := length_fit ((bits + 7) / 8) (interleave (extend message (maxLength bits)))
  generalize fit ((bits + 7) / 8) (interleave (extend message (maxLength bits))) = block at *
  split
  · next b hfits =>
    split at hfits
    · next hle =>
      cases hfits
      have hmark : Checked.update block ((bits + 7) / 8 - 2 * message.length) (· ^^^ 1) =
          .ok (block.modify ((bits + 7) / 8 - 2 * message.length) (· ^^^ 1)) := Checked.update_of_lt (by omega) _
      rw [Checked.sub_of_le hle, Except.ok_bind, hmark, Except.ok_bind]
      have hmarked : (block.modify ((bits + 7) / 8 - 2 * message.length) (· ^^^ 1)).length = (bits + 7) / 8 := by
        rw [List.length_modify, hlen]
      generalize block.modify ((bits + 7) / 8 - 2 * message.length) (· ^^^ 1) = marked at *
      have hlast : Checked.update marked ((bits + 7) / 8 - 1) (fun x => (x <<< 4) ||| 0x06) =
          .ok (marked.modify ((bits + 7) / 8 - 1) fun x => (x <<< 4) ||| 0x06) := Checked.update_of_lt (by omega) _
      rw [Checked.sub_of_le (by omega), Except.ok_bind, hlast, Except.ok_bind, finish_eq, hmarked,
        setTop_eq hb (by rw [List.length_modify, hmarked])]
    · cases hfits
  · next hfits =>
    split at hfits
    · cases hfits
    · next hle =>
      have hsub : Checked.sub ((bits + 7) / 8) (2 * message.length) = .error (.abort .wordOverflow) := if_neg hle
      rw [hsub]
      rfl

end Rsa.Iso9796

namespace Rsa

variable {k : Key} {data : Bytes}

/-- The number of a message of an allowed length. -/
theorem iso9796Number_of_le (h0 : 0 < data.length) (hz : data.length ≤ Iso9796.maxLength k.bits) :
    iso9796Number k data = match Iso9796.block? k.bits data with
      | some b => .ok (Bytes.toNat b)
      | none => .error (.abort .wordOverflow) := by
  have hguard : (data.isEmpty || decide (Iso9796.maxLength k.bits < data.length)) = false := by
    cases data with
    | nil => cases h0
    | cons x r => exact decide_eq_false (Nat.not_lt.2 hz)
  unfold iso9796Number
  rw [if_neg (Bool.not_eq_true _ ▸ hguard), Iso9796.writeBlock_eq h0 hz]
  cases Iso9796.block? k.bits data <;> rfl

/-- Messages of other lengths are refused. -/
theorem iso9796Number_refused (h : data.length = 0 ∨ Iso9796.maxLength k.bits < data.length) :
    iso9796Number k data = .error (.error (.bare .dataLenRange)) := by
  have hguard : (data.isEmpty || decide (Iso9796.maxLength k.bits < data.length)) = true := by
    rcases h with h | h
    · rw [List.isEmpty_iff.2 (List.length_eq_zero_iff.1 h), Bool.true_or]
    · rw [decide_eq_true h, Bool.or_true]
  unfold iso9796Number
  rw [if_pos hguard]
  rfl

/-- A number stands for a block of a message of an allowed length. -/
theorem iso9796Number_ok {m : Nat} : iso9796Number k data = .ok m ↔
    0 < data.length ∧ data.length ≤ Iso9796.maxLength k.bits ∧
      ∃ b, Iso9796.block? k.bits data = some b ∧ Bytes.toNat b = m := by
  by_cases hz : 0 < data.length ∧ data.length ≤ Iso9796.maxLength k.bits
  · rw [iso9796Number_of_le hz.1 hz.2]
    cases Iso9796.block? k.bits data with
    | none => exact iff_of_false nofun fun ⟨_, _, _, hb, _⟩ => nomatch hb
    | some b =>
      constructor
      · intro h
        exact ⟨hz.1, hz.2, b, rfl, Except.ok.inj h⟩
      · rintro ⟨-, -, _, hb, rfl⟩
        cases hb
        rfl
  · rw [iso9796Number_refused (by omega)]
    exact iff_of_false nofun fun ⟨h0, hle, _⟩ => hz ⟨h0, hle⟩

end Rsa
end SoftToken
