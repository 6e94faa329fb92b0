import SoftToken.Proofs.RsaNumbers
/-!
# The blocks of ISO/IEC 9796-1

A block ends with the message, each byte after its shadow, with the length marked at the first shadow and the last byte
replaced: `Makes.exists_front`. Behind the first byte of a block, these bytes stand as they are:
`Makes.getElem?_shadow` and `Makes.getElem?_byte`. With the top of the block this gives the range of the number:
`iso9796_range`.
-/

namespace SoftToken

/-- A fact that holds of the bytes, number by number. -/
theorem UInt8.forall_of_lt {p : UInt8 → Prop} (h : ∀ n < 256, p (UInt8.ofNat n)) (x : UInt8) : p x := by
  have hx := h x.toNat x.toNat_lt
  rwa [UInt8.ofNat_toNat] at hx

theorem Bytes.modify_append (a b : Bytes) (i : Nat) (f : UInt8 → UInt8) :
    (a ++ b).modify (a.length + i) f = a ++ b.modify i f := List.modifyTailIdx_add _ i a b

namespace Rsa

namespace Iso9796

variable {bits : Nat} {message b : Bytes}

/-! ## The end of a block -/

/-- The repeated message ends with a whole one. -/
theorem exists_extend {len : Nat} (h : message.length ≤ len) : ∃ a, extend message len = a ++ message := by
  have hdrop : (extend message len).drop (len - message.length) = message := by
    refine List.ext_getElem (by rw [List.length_drop, length_extend]; omega) fun k hk hk' => ?_
    have hback : len - 1 - (len - message.length + k) = message.length - 1 - k := by omega
    have hmod : (message.length - 1 - k) % message.length = message.length - 1 - k := Nat.mod_eq_of_lt (by omega)
    have hplace : message.length - 1 - (message.length - 1 - k) = k := by omega
    simp only [extend, List.getElem_drop, List.getElem_map, List.getElem_range, hback, hmod, hplace,
      List.getD_eq_getElem?_getD, List.getElem?_eq_getElem hk', Option.getD_some]
  refine ⟨(extend message len).take (len - message.length), ?_⟩
  calc extend message len
      = (extend message len).take (len - message.length) ++ (extend message len).drop (len - message.length) :=
        (List.take_append_drop _ _).symm
    _ = (extend message len).take (len - message.length) ++ message := by rw [hdrop]

/-- The end of a block: the message with its shadows, with both marks. -/
def marked (message : Bytes) : Bytes :=
  ((interleave message).modify 0 (· ^^^ 1)).modify (2 * message.length - 1) fun x => (x <<< 4) ||| 0x06

theorem length_marked (message : Bytes) : (marked message).length = 2 * message.length := by
  rw [marked, List.length_modify, List.length_modify, length_interleave]

/-- A message of an allowed length and its block. -/
structure Makes (bits : Nat) (message b : Bytes) : Prop where
  pos : 0 < message.length
  le : message.length ≤ maxLength bits
  block : block? bits message = some b

/-- In front of the end stands what the top is made of. -/
theorem Makes.exists_front (h : Makes bits message b) : 2 * message.length ≤ (bits + 7) / 8 ∧
    ∃ a : Bytes, a.length = (bits + 7) / 8 - 2 * message.length ∧ b = top bits (a ++ marked message) := by
  obtain ⟨h0, hz, hb⟩ := h
  unfold block? at hb
  simp only at hb
  split at hb
  case isFalse => cases hb
  case isTrue hle =>
  cases hb
  refine ⟨hle, ?_⟩
  obtain ⟨a, ha⟩ := exists_extend hz
  obtain ⟨front, hfront⟩ : ∃ front, (bits + 7) / 8 = front + 2 * message.length :=
    ⟨(bits + 7) / 8 - 2 * message.length, by omega⟩
  have hspread : fit ((bits + 7) / 8) (interleave (extend message (maxLength bits))) =
      fit front (interleave a) ++ interleave message := by
    rw [ha, hfront, ← length_interleave, interleave_append, fit_append]
  have hfirst : (bits + 7) / 8 - 2 * message.length = (fit front (interleave a)).length + 0 := by
    rw [length_fit]
    omega
  have hlast : (fit front (interleave a) ++ (interleave message).modify 0 (· ^^^ 1)).length - 1 =
      (fit front (interleave a)).length + (2 * message.length - 1) := by
    rw [List.length_append, List.length_modify, length_interleave]
    omega
  refine ⟨fit front (interleave a), hfirst.symm, ?_⟩
  rw [hspread, hfirst, Bytes.modify_append, finish_eq, hlast, Bytes.modify_append]
  rfl

/-- The length of a block: one bit fewer than the modulus, in bytes. -/
theorem Makes.length_eq (hk : 2 ≤ bits) (h : Makes bits message b) : b.length = (bits + 6) / 8 := by
  obtain ⟨hle, a, ha, rfl⟩ := h.exists_front
  have hl : (a ++ marked message).length = (bits + 7) / 8 := by
    rw [List.length_append, ha, length_marked]
    omega
  obtain ⟨x, r, htop, hr, -⟩ := exists_top hk hl
  rw [htop, List.length_cons]
  omega

/-! ## Bytes behind the top -/

/-- Behind its first byte, the top changes nothing. -/
theorem getElem?_top (hk : 2 ≤ bits) (block : Bytes) {i : Nat} (hi : 0 < i) :
    (top bits block)[i]? = block[i + (bits + 7) / 8 - (bits + 6) / 8]? := by
  have hother (l : Bytes) (f : UInt8 → UInt8) : (l.modify 0 f)[i]? = l[i]? := by
    rw [List.getElem?_modify_ne f l (Nat.ne_of_lt hi)]
  unfold top
  simp only
  split
  · next hu =>
    have h0 := unused_eq_eight_iff.1 hu
    have hplace : i + (bits + 7) / 8 - (bits + 6) / 8 = 1 + i := by omega
    rw [hother, List.getElem?_drop, hplace]
  · next hu =>
    have h0 : (bits - 1) % 8 ≠ 0 := fun h0 => hu (unused_eq_eight_iff.2 h0)
    have hplace : i + (bits + 7) / 8 - (bits + 6) / 8 = i := by omega
    rw [hother, hplace]

/-- Behind its first byte, a block ends as the message says. -/
theorem Makes.getElem?_eq (hk : 2 ≤ bits) (h : Makes bits message b) {i j : Nat} (hi : 0 < i)
    (hj : i + 2 * message.length = (bits + 6) / 8 + j) : b[i]? = (marked message)[j]? := by
  obtain ⟨hle, a, ha, rfl⟩ := h.exists_front
  have hplace : i + (bits + 7) / 8 - (bits + 6) / 8 = a.length + j := by omega
  rw [getElem?_top hk _ hi, hplace, List.getElem?_append_right (Nat.le_add_right _ _), Nat.add_sub_cancel_left]

/-- A byte stands after its shadow. -/
theorem getElem?_interleave (message : Bytes) (k : Nat) :
    (interleave message)[2 * k]? = message[k]?.map shadow ∧ (interleave message)[2 * k + 1]? = message[k]? := by
  induction message generalizing k with
  | nil => exact ⟨rfl, rfl⟩
  | cons x r ih =>
    cases k with
    | zero => exact ⟨rfl, rfl⟩
    | succ k => exact ih k

/-- The shadow of a byte of the message; the first one has the mark of the length. -/
theorem Makes.getElem?_shadow (hk : 2 ≤ bits) (h : Makes bits message b) {i k : Nat} (hi : 0 < i)
    (hj : i + 2 * message.length = (bits + 6) / 8 + 2 * k) :
    b[i]? = message[k]?.map fun x => if k = 0 then shadow x ^^^ 1 else shadow x := by
  have hpos := h.pos
  have hfirst : 0 = 2 * k ↔ k = 0 := by omega
  rw [h.getElem?_eq hk hi hj, marked, List.getElem?_modify_ne _ _ (by omega), List.getElem?_modify,
    (getElem?_interleave message k).1, Option.map_eq_map, Option.map_map]
  simp only [hfirst]
  rfl

/-- A byte of the message; the last one is replaced. -/
theorem Makes.getElem?_byte (hk : 2 ≤ bits) (h : Makes bits message b) {i k : Nat} (hi : 0 < i)
    (hj : i + 2 * message.length = (bits + 6) / 8 + (2 * k + 1)) :
    b[i]? = message[k]?.map fun x : UInt8 => if k + 1 = message.length then (x <<< 4) ||| 0x06 else x := by
  have hlast : 2 * message.length - 1 = 2 * k + 1 ↔ k + 1 = message.length := by omega
  rw [h.getElem?_eq hk hi hj, marked, List.getElem?_modify, List.getElem?_modify_ne _ _ (by omega),
    (getElem?_interleave message k).2, Option.map_eq_map]
  simp only [hlast]

/-! ## The number of a block -/

theorem lastByte_mod : ∀ x : UInt8, ((x <<< 4) ||| 0x06).toNat % 16 = 6 := UInt8.forall_of_lt (by decide +kernel)

/-- The end of a number goes by the last byte of its string. -/
theorem toNat_mod_of_getElem? {y : UInt8} (h : b[b.length - 1]? = some y) : Bytes.toNat b % 16 = y.toNat % 16 := by
  obtain ⟨a, rfl⟩ := List.getLast?_eq_some_iff.1 (List.getLast?_eq_getElem? ▸ h)
  have hone : Bytes.toNat [y] = y.toNat := by simp [Bytes.toNat_cons]
  rw [Bytes.toNat_append, List.length_singleton, hone]
  omega

/-- The last half byte of a block is a six. -/
theorem Makes.toNat_mod (hk : 10 ≤ bits) (h : Makes bits message b) : Bytes.toNat b % 16 = 6 := by
  have hl := h.length_eq (by omega)
  have hpos := h.pos
  obtain ⟨x, hx⟩ : ∃ x, message[message.length - 1]? = some x :=
    ⟨_, List.getElem?_eq_getElem (Nat.sub_lt hpos Nat.one_pos)⟩
  have hlast : b[b.length - 1]? = some ((x <<< 4) ||| 0x06) := by
    rw [h.getElem?_byte (k := message.length - 1) (by omega) (by omega) (by omega), hx, Option.map_some,
      if_pos (by omega)]
  rw [toNat_mod_of_getElem? hlast, lastByte_mod]

/-- A message of an allowed length has a block, unless the block is shorter than twice the message. -/
theorem block_eq_none_iff (hz : message.length ≤ maxLength bits) :
    block? bits message = none ↔ message.length = maxLength bits ∧ 3 ≤ bits % 16 ∧ bits % 16 ≤ 8 := by
  unfold maxLength at hz ⊢
  unfold block?
  simp only
  split
  · next hle => exact iff_of_false nofun (by omega)
  · next hlt => exact iff_of_true rfl (by omega)

theorem exists_makes (h0 : 0 < message.length) (hz : message.length ≤ maxLength bits) :
    (∃ b, Makes bits message b) ↔ ¬ (message.length = maxLength bits ∧ 3 ≤ bits % 16 ∧ bits % 16 ≤ 8) := by
  rw [← block_eq_none_iff hz, ← ne_eq, Option.ne_none_iff_exists']
  exact exists_congr fun b => ⟨Makes.block, fun hb => ⟨h0, hz, hb⟩⟩

end Iso9796

/-! ## The range of the numbers -/

variable {k : Key} {data : Bytes}

/-- The number has one bit fewer than the modulus and ends with a six. -/
structure Iso9796.InRange (k : Key) (m : Nat) : Prop where
  lower : 2 ^ (k.bits - 2) ≤ m
  upper : m < 2 ^ (k.bits - 1)
  lt_modulus : m < k.n
  trailer : m % 16 = 6

theorem Iso9796.Makes.inRange {b : Bytes} (hk : 10 ≤ k.bits) (h : Makes k.bits data b) : InRange k (Bytes.toNat b) := by
  obtain ⟨hle, hlt⟩ := toNat_block (by omega) h.block
  have hn : 0 < k.n := by
    refine Nat.pos_of_ne_zero fun hn => ?_
    have hzero : k.bits = 0 := by rw [Key.bits, hn]; rfl
    omega
  exact ⟨hle, hlt, Nat.lt_of_lt_of_le hlt (Modular.two_pow_bitLength_le hn), h.toNat_mod hk⟩

/-- For a modulus of 1024 bits or more, a message of an allowed length has a number in range, except for the longest
messages where the bits of the modulus are from three to eight more than a multiple of sixteen. For those the step
that marks the length goes out of bounds. Messages of other lengths are refused. -/
theorem iso9796_range (hk : 1024 ≤ k.bits) (data : Bytes) :
    (data.length = 0 ∨ Iso9796.maxLength k.bits < data.length →
      iso9796Number k data = .error (.error (.bare .dataLenRange))) ∧
    (0 < data.length → data.length ≤ Iso9796.maxLength k.bits →
      ((∃ m, iso9796Number k data = .ok m ∧ Iso9796.InRange k m) ↔
        ¬ (data.length = Iso9796.maxLength k.bits ∧ 3 ≤ k.bits % 16 ∧ k.bits % 16 ≤ 8)) ∧
      (data.length = Iso9796.maxLength k.bits ∧ 3 ≤ k.bits % 16 ∧ k.bits % 16 ≤ 8 →
        iso9796Number k data = .error (.abort .wordOverflow))) := by
  refine ⟨iso9796Number_refused, fun h0 hz => ?_⟩
  rw [← Iso9796.block_eq_none_iff hz, iso9796Number_of_le h0 hz]
  cases hb : Iso9796.block? k.bits data with
  | none => exact ⟨iff_of_false nofun (not_not_intro rfl), fun _ => rfl⟩
  | some b =>
    have hrange : Iso9796.InRange k (Bytes.toNat b) := Iso9796.Makes.inRange (by omega) ⟨h0, hz, hb⟩
    exact ⟨iff_of_true ⟨_, rfl, hrange⟩ nofun, nofun⟩

/-- A message of three bytes for a modulus of 1024 bits. -/
theorem iso9796_range_short : 1024 ≤ (Key.ones 1024).bits ∧
    ∃ m, iso9796Number (Key.ones 1024) [1, 2, 3] = .ok m ∧ Iso9796.InRange (Key.ones 1024) m := by
  have hk : (Key.ones 1024).bits = 1024 := by decide +kernel
  have hle : 1024 ≤ (Key.ones 1024).bits := Nat.le_of_eq hk.symm
  refine ⟨hle, ((iso9796_range hle [1, 2, 3]).2 (by decide) ?_).1.2 ?_⟩
  · rw [hk]
    decide
  · rw [hk]
    decide

/-- The longest messages for a modulus of 1032 bits go out of bounds. -/
theorem iso9796_out_of_bounds : 1024 ≤ (Key.ones 1032).bits ∧ 0 < (Bytes.zeros 65).length ∧
    (Bytes.zeros 65).length ≤ Iso9796.maxLength (Key.ones 1032).bits ∧
    iso9796Number (Key.ones 1032) (Bytes.zeros 65) = .error (.abort .wordOverflow) := by
  have hk : (Key.ones 1032).bits = 1032 := by decide +kernel
  have hmax : Iso9796.maxLength (Key.ones 1032).bits = 65 := by rw [hk]; rfl
  have hnone : Iso9796.block? (Key.ones 1032).bits (Bytes.zeros 65) = none := by
    rw [Iso9796.block_eq_none_iff (by rw [hmax]; decide), hmax, hk]
    decide
  refine ⟨by rw [hk]; decide, by decide, by rw [hmax]; decide, ?_⟩
  rw [iso9796Number_of_le (by decide) (by rw [hmax]; decide), hnone]

end Rsa
end SoftToken
