import SoftToken.Proofs.Iso9796Blocks
import SoftToken.Proofs.RsaSignature
/-!
# Messages are told apart by their blocks

The shadow of a byte gives the byte back, so that a block gives back the bytes of its message whose shadow or whose own
place is left as it was. The length is found from its mark: without it, the half byte of a shadow that the mark changes
follows from the half byte behind it. One bit is lost: where the bits of the modulus are nine more than a multiple of
sixteen, the longest messages start at the top of the block, without the first shadow. `Confused` says which messages
this leaves with one block, and `iso9796_confused_iff` that there are no others.
-/

namespace SoftToken.Rsa

namespace Iso9796

variable {bits : Nat} {message message' b b' : Bytes}

/-! ## Shadows -/

/-- The byte of a shadow. -/
def unshadow (y : UInt8) : UInt8 :=
  (UInt8.ofNat (shadows.idxOf (y >>> 4)) <<< 4) ||| UInt8.ofNat (shadows.idxOf (y &&& 0x0f))

theorem unshadow_shadow : ∀ x : UInt8, unshadow (shadow x) = x := UInt8.forall_of_lt (by decide +kernel)

theorem shadow_injective {x y : UInt8} (h : shadow x = shadow y) : x = y := by
  rw [← unshadow_shadow x, h, unshadow_shadow]

/-- The lower half of a shadow goes by the lower half of the byte. -/
theorem shadow_and : ∀ x : UInt8, shadow x &&& 0x0f = shadows.getD (x &&& 0x0f).toNat 0 :=
  UInt8.forall_of_lt (by decide +kernel)

theorem xor_and_ne : ∀ x : UInt8, (x ^^^ 1) &&& 0x0f ≠ x &&& 0x0f := UInt8.forall_of_lt (by decide +kernel)

/-- The lower half of the last byte is moved up. -/
theorem lastByte_shift : ∀ x : UInt8, ((x <<< 4) ||| 0x06) >>> 4 = x &&& 0x0f := UInt8.forall_of_lt (by decide +kernel)

/-- A marked shadow does not belong to the lower half of any byte behind it. -/
theorem marked_shadow_ne {x y : UInt8} (h : x &&& 0x0f = y &&& 0x0f) : shadow x ^^^ 1 ≠ shadow y := by
  intro heq
  have hlow : (shadow x ^^^ 1) &&& 0x0f = shadow x &&& 0x0f := by rw [heq, shadow_and, shadow_and, h]
  exact xor_and_ne _ hlow

/-! ## What a block gives back -/

/-- The messages have one block: all of a message is given back, apart from the highest bit of the first byte of the
longest messages, where the bits of the modulus are nine more than a multiple of sixteen. -/
def Confused (bits : Nat) (message message' : Bytes) : Prop :=
  message = message' ∨ bits % 16 = 9 ∧ message.length = maxLength bits ∧
    ∃ x x' r, message = x :: r ∧ message' = x' :: r ∧ x ||| 0x80 = x' ||| 0x80

/-- The mark stands at the right place: a block has one length of messages. -/
theorem Makes.length_le (hk : 18 ≤ bits) (h : Makes bits message b) (h' : Makes bits message' b) :
    message'.length ≤ message.length := by
  refine Nat.not_lt.1 fun hlt => ?_
  have hpos := h.pos
  have hmax := h'.le
  unfold maxLength at hmax
  obtain ⟨d, hd⟩ : ∃ d, message'.length = message.length + d := ⟨message'.length - message.length, by omega⟩
  have hd0 : d ≠ 0 := by omega
  obtain ⟨x, hx⟩ : ∃ x, message[0]? = some x := ⟨_, List.getElem?_eq_getElem hpos⟩
  obtain ⟨y, hy⟩ : ∃ y, message'[d]? = some y := ⟨_, List.getElem?_eq_getElem (by omega)⟩
  obtain ⟨i, hi⟩ : ∃ i, i + 2 * message.length = (bits + 6) / 8 := ⟨(bits + 6) / 8 - 2 * message.length, by omega⟩
  -- The first shadow of the shorter message has the mark, and the same shadow of the longer one does not.
  have hshadow : shadow x ^^^ 1 = shadow y := by
    have hsame := (h.getElem?_shadow (i := i) (k := 0) (by omega) (by omega) (by omega)).symm.trans
      (h'.getElem?_shadow (i := i) (k := d) (by omega) (by omega) (by omega))
    rw [hx, hy, Option.map_some, Option.map_some, if_pos rfl, if_neg hd0] at hsame
    exact Option.some.inj hsame
  -- The byte behind it is the last one of both messages, or of none.
  have hlow : x &&& 0x0f = y &&& 0x0f := by
    have hsame := (h.getElem?_byte (i := i + 1) (k := 0) (by omega) (by omega) (by omega)).symm.trans
      (h'.getElem?_byte (i := i + 1) (k := d) (by omega) (by omega) (by omega))
    have hlast : d + 1 = message'.length ↔ 0 + 1 = message.length := by omega
    rw [hx, hy, Option.map_some, Option.map_some] at hsame
    simp only [hlast, Option.some.injEq] at hsame
    split at hsame
    · rw [← lastByte_shift x, ← lastByte_shift y, hsame]
    · rw [hsame]
  exact marked_shadow_ne hlow hshadow

/-- Behind the top, a block gives back the bytes of a message of known length. -/
theorem Makes.getElem?_unique (hk : 18 ≤ bits) (h : Makes bits message b) (h' : Makes bits message' b)
    (hl : message'.length = message.length) {k : Nat} (hz : k < message.length)
    (htop : 2 * message.length ≤ (bits + 6) / 8 + 2 * k) : message[k]? = message'[k]? := by
  rcases Nat.lt_or_ge (k + 1) message.length with hlt | hge
  · obtain ⟨i, hi⟩ : ∃ i, i + 2 * message.length = (bits + 6) / 8 + (2 * k + 1) :=
      ⟨(bits + 6) / 8 + (2 * k + 1) - 2 * message.length, by omega⟩
    have hsame := (h.getElem?_byte (k := k) (by omega) (by omega) hi).symm.trans
      (h'.getElem?_byte (k := k) (by omega) (by omega) (by rw [hl]; exact hi))
    have hother : k + 1 ≠ message.length := by omega
    simpa only [hl, hother, if_false, Option.map_id_fun', id_eq] using hsame
  · -- The last byte is replaced, and comes from its shadow.
    have hmax := h.le
    unfold maxLength at hmax
    obtain ⟨i, hi⟩ : ∃ i, i + 2 * message.length = (bits + 6) / 8 + 2 * k :=
      ⟨(bits + 6) / 8 + 2 * k - 2 * message.length, by omega⟩
    have hsame := (h.getElem?_shadow (k := k) (by omega) (by omega) hi).symm.trans
      (h'.getElem?_shadow (k := k) (by omega) (by omega) (by rw [hl]; exact hi))
    refine Option.map_injective (fun x y hxy => ?_) hsame
    split at hxy
    · exact shadow_injective ((UInt8.xor_left_inj 1).1 hxy)
    · exact shadow_injective hxy

/-- Where the longest messages start at the top of the block, without the first shadow, the highest bit of the first
byte is set. -/
theorem block_of_full {x : UInt8} {r : Bytes} (hb : bits % 16 = 9) (hr : r ≠ [])
    (hz : (x :: r).length = maxLength bits) :
    block? bits (x :: r) =
      some ((x ||| 0x80) :: (interleave r).modify (2 * r.length - 1) fun y => (y <<< 4) ||| 0x06) := by
  have hpos : 0 < (x :: r).length := Nat.succ_pos _
  obtain ⟨b, hmakes⟩ := (exists_makes hpos (Nat.le_of_eq hz)).2 (by omega)
  have hblock := hmakes.block
  obtain ⟨-, a, ha, rfl⟩ := hmakes.exists_front
  unfold maxLength at hz
  obtain rfl : a = [] := List.length_eq_zero_iff.1 (by omega)
  obtain ⟨n, hn⟩ : ∃ n, 2 * r.length = n + 1 := ⟨2 * r.length - 1, by have := List.length_pos_iff.2 hr; omega⟩
  have hplace : 2 * (x :: r).length - 1 = n + 1 + 1 := by
    rw [List.length_cons]
    omega
  have htop : UInt8.ofNat (8 - (bits - 1) % 8) = 8 := unused_eq_eight_iff.2 (by omega)
  rw [hblock, List.nil_append, marked, hplace, hn, top]
  simp only [htop, if_true]
  rfl

/-- A block at whose top there is no room for the first shadow gives back the rest of the message. -/
theorem Makes.confused_of_full (hk : 18 ≤ bits) (h : Makes bits message b) (h' : Makes bits message' b)
    (hl : message'.length = message.length) (hfull : (bits + 6) / 8 < 2 * message.length) :
    Confused bits message message' := by
  have hmax := h.le
  have hle := h.exists_front.1
  have hb : bits % 16 = 9 := by
    unfold maxLength at hmax
    omega
  have hz : message.length = maxLength bits := by
    unfold maxLength at hmax ⊢
    omega
  obtain ⟨x, r, rfl⟩ := List.exists_cons_of_length_pos h.pos
  obtain ⟨x', r', rfl⟩ := List.exists_cons_of_length_pos h'.pos
  have hr : r ≠ [] := by
    rintro rfl
    rw [List.length_singleton] at hfull
    omega
  obtain rfl : r = r' := by
    rw [List.length_cons, List.length_cons] at hl
    refine List.ext_getElem? fun k => ?_
    rcases Nat.lt_or_ge k r.length with hlt | hge
    · exact h.getElem?_unique hk h' (k := k + 1) (congrArg Nat.succ (Nat.succ.inj hl)) (Nat.succ_lt_succ hlt)
        (by rw [List.length_cons] at hle ⊢; omega)
    · rw [List.getElem?_eq_none hge, List.getElem?_eq_none (by omega)]
  have htops := (block_of_full hb hr hz).symm.trans (h.block.trans (h'.block.symm.trans (block_of_full hb hr hz)))
  exact .inr ⟨hb, hz, x, x', r, rfl, rfl, (List.cons.inj (Option.some.inj htops)).1⟩

theorem Makes.confused (hk : 18 ≤ bits) (h : Makes bits message b) (h' : Makes bits message' b) :
    Confused bits message message' := by
  have hl : message'.length = message.length := Nat.le_antisymm (h.length_le hk h') (h'.length_le hk h)
  rcases Nat.lt_or_ge ((bits + 6) / 8) (2 * message.length) with hfull | hroom
  · exact h.confused_of_full hk h' hl hfull
  · refine .inl (List.ext_getElem? fun k => ?_)
    rcases Nat.lt_or_ge k message.length with hlt | hge
    · exact h.getElem?_unique hk h' hl hlt (by omega)
    · rw [List.getElem?_eq_none hge, List.getElem?_eq_none (by omega)]

/-- Confused messages have one block. -/
theorem Confused.makes (hk : 18 ≤ bits) (h : Makes bits message b) (hc : Confused bits message message') :
    Makes bits message' b := by
  obtain rfl | ⟨hb, hz, x, x', r, rfl, rfl, hx⟩ := hc
  · exact h
  · have hr : r ≠ [] := by
      rintro rfl
      unfold maxLength at hz
      rw [List.length_singleton] at hz
      omega
    have hz' : (x' :: r).length = maxLength bits := hz
    refine ⟨Nat.succ_pos _, Nat.le_of_eq hz', ?_⟩
    rw [block_of_full hb hr hz', ← hx, ← block_of_full hb hr hz, h.block]

/-- A block is told from another one by its number. -/
theorem Makes.toNat_inj (hk : 18 ≤ bits) (h : Makes bits message b) (h' : Makes bits message' b')
    (heq : Bytes.toNat b = Bytes.toNat b') : b = b' := by
  have hl : b.length = b'.length := (h.length_eq (by omega)).trans (h'.length_eq (by omega)).symm
  rw [← Bytes.ofNat_toNat b, ← Bytes.ofNat_toNat b', hl, heq]

end Iso9796

/-! ## Numbers and signatures -/

variable {k : Key} {message message' signature : Bytes} {m m' : Nat}

theorem iso9796Number_iff : iso9796Number k message = .ok m ↔ ∃ b, Iso9796.Makes k.bits message b ∧ Bytes.toNat b = m := by
  rw [iso9796Number_ok]
  constructor
  · rintro ⟨hpos, hle, b, hb, hm⟩
    exact ⟨b, ⟨hpos, hle, hb⟩, hm⟩
  · rintro ⟨b, ⟨hpos, hle, hb⟩, hm⟩
    exact ⟨hpos, hle, b, hb, hm⟩

/-- Two numbers that end with a six do not add up to an odd modulus. -/
theorem Iso9796.InRange.add_ne (hn : k.n % 2 = 1) (h : InRange k m) (h' : InRange k m') : m + m' ≠ k.n := by
  have hm := h.trailer
  have hm' := h'.trailer
  omega

/-- A signature opens to at most one number in range. -/
theorem opensTo_unique (hn : k.n % 2 = 1) (hm : Iso9796.InRange k m) (hm' : Iso9796.InRange k m')
    (h : opensTo k signature m = true) (h' : opensTo k signature m' = true) : m = m' :=
  (eq_or_add_of_opensTo h h').resolve_right (hm.add_ne hn hm')

/-- A signature of a message is one of the number of its block. -/
theorem verify_iso9796 : verify k .iso9796 message signature = .ok true ↔
    signature.length = k.size ∧ ∃ b, Iso9796.Makes k.bits message b ∧ opensTo k signature (Bytes.toNat b) = true := by
  unfold verify
  split
  · next hlen => exact iff_of_false nofun fun h => hlen h.1
  · next hlen =>
    show (iso9796Number k message >>= fun m => Except.ok (opensTo k signature m)) = _ ↔ _
    rw [Except.bind_ok]
    constructor
    · rintro ⟨m, hm, hopens⟩
      obtain ⟨b, hb, rfl⟩ := iso9796Number_iff.1 hm
      exact ⟨not_not.1 hlen, b, hb, Except.ok.inj hopens⟩
    · rintro ⟨-, b, hb, hopens⟩
      exact ⟨Bytes.toNat b, iso9796Number_iff.2 ⟨b, hb, rfl⟩, congrArg Except.ok hopens⟩

/-- For an odd modulus of 1024 bits or more, two messages with numbers have the same one exactly if they are confused,
and never complementary ones. So a signature of a message is one of the messages that are confused with it, and of no
others. -/
theorem iso9796_confused_iff (hk : 1024 ≤ k.bits) (hn : k.n % 2 = 1) :
    (∀ message message' m m', iso9796Number k message = .ok m → iso9796Number k message' = .ok m' →
      (m = m' ↔ Iso9796.Confused k.bits message message') ∧ m + m' ≠ k.n) ∧
    ∀ signature message message', verify k .iso9796 message signature = .ok true →
      (verify k .iso9796 message' signature = .ok true ↔ Iso9796.Confused k.bits message message') := by
  have hbits : 18 ≤ k.bits := by omega
  constructor
  · intro message message' m m' hm hm'
    obtain ⟨b, hb, rfl⟩ := iso9796Number_iff.1 hm
    obtain ⟨b', hb', rfl⟩ := iso9796Number_iff.1 hm'
    refine ⟨⟨fun heq => ?_, fun hc => ?_⟩, (hb.inRange (by omega)).add_ne hn (hb'.inRange (by omega))⟩
    · obtain rfl := hb.toNat_inj hbits hb' heq
      exact hb.confused hbits hb'
    · have hsame := (hc.makes hbits hb).block.symm.trans hb'.block
      rw [Option.some.inj hsame]
  · intro signature message message' h
    obtain ⟨hlen, b, hb, hopens⟩ := verify_iso9796.1 h
    constructor
    · intro h'
      obtain ⟨-, b', hb', hopens'⟩ := verify_iso9796.1 h'
      have heq := opensTo_unique hn (hb.inRange (by omega)) (hb'.inRange (by omega)) hopens hopens'
      obtain rfl := hb.toNat_inj hbits hb' heq
      exact hb.confused hbits hb'
    · intro hc
      exact verify_iso9796.2 ⟨hlen, b, hc.makes hbits hb, hopens⟩

/-- Under a modulus of 1033 bits, messages of one byte are told apart. -/
theorem iso9796_confused_iff_bytes : 1024 ≤ (Key.ones 1033).bits ∧ (Key.ones 1033).n % 2 = 1 ∧
    ∃ m m', iso9796Number (Key.ones 1033) [1] = .ok m ∧ iso9796Number (Key.ones 1033) [2] = .ok m' ∧ m ≠ m' := by
  have hk : (Key.ones 1033).bits = 1033 := by decide +kernel
  have hle : 1024 ≤ (Key.ones 1033).bits := by rw [hk]; decide
  have hn : (Key.ones 1033).n % 2 = 1 := by decide +kernel
  have hnumber (x : UInt8) : ∃ m, iso9796Number (Key.ones 1033) [x] = .ok m := by
    have hone : [x].length = 1 := rfl
    have hmax : Iso9796.maxLength 1033 = 65 := rfl
    have hpos : 0 < [x].length := Nat.one_pos
    have hle : [x].length ≤ Iso9796.maxLength 1033 := by omega
    obtain ⟨b, hb⟩ := (Iso9796.exists_makes hpos hle).2 (by omega)
    rw [← hk] at hb
    exact ⟨_, iso9796Number_iff.2 ⟨b, hb, rfl⟩⟩
  obtain ⟨m, hm⟩ := hnumber 1
  obtain ⟨m', hm'⟩ := hnumber 2
  refine ⟨hle, hn, m, m', hm, hm', fun heq => ?_⟩
  rcases ((iso9796_confused_iff hle hn).1 [1] [2] m m' hm hm').1.1 heq with heq | ⟨-, hlen, -⟩
  · exact absurd heq (by decide)
  · rw [hk] at hlen
    exact absurd hlen (by decide)

/-- The longest messages have one number with and without the highest bit of their first byte. -/
theorem iso9796_top_bit_lost : 1024 ≤ (Key.ones 1033).bits ∧ (Key.ones 1033).n % 2 = 1 ∧
    ∃ m, iso9796Number (Key.ones 1033) (0x00 :: Bytes.zeros 64) = .ok m ∧
      iso9796Number (Key.ones 1033) (0x80 :: Bytes.zeros 64) = .ok m := by
  have hk : (Key.ones 1033).bits = 1033 := by decide +kernel
  have hlen (x : UInt8) : (x :: Bytes.zeros 64).length = Iso9796.maxLength 1033 := by simp [Iso9796.maxLength]
  have hone : Iso9796.Makes 1033 (0x00 :: Bytes.zeros 64) _ :=
    ⟨Nat.succ_pos _, Nat.le_of_eq (hlen 0x00), Iso9796.block_of_full rfl nofun (hlen 0x00)⟩
  have hother := Iso9796.Confused.makes (by decide) hone
    (.inr ⟨rfl, hlen 0x00, 0x00, 0x80, Bytes.zeros 64, rfl, rfl, by decide⟩)
  rw [← hk] at hone hother
  exact ⟨by rw [hk]; decide, by decide +kernel, _, iso9796Number_iff.2 ⟨_, hone, rfl⟩,
    iso9796Number_iff.2 ⟨_, hother, rfl⟩⟩

end SoftToken.Rsa
