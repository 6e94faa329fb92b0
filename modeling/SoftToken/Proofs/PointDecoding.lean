import SoftToken.Proofs.PointEncoding
/-!
# Which strings are points

DER is read strictly: a string is read as an octet string only if it is the one that writing the content gives
(`Der.decodeOctetString_eq_some_iff`). So a point is read from exactly two strings, from itself and from its octet
string, and `Curve.decodePoint_ok_iff` tells them apart by their lengths.

Keys of prime curves are meant to have uncompressed points only, and of a raw point the first byte is looked at. Inside
an octet string it is not. `Curve.readsPoints_iff` names the strings that are read against that rule.
-/

namespace SoftToken

namespace Der

variable {b content r : Bytes} {tag : UInt8} {len : Nat}

/-- A length that is read was written in its shortest form, and in no more than four bytes. -/
theorem decodeLength_eq_some_iff : decodeLength? b = some (len, r) ↔ len < 256 ^ 4 ∧ b = encodeLength len ++ r := by
  constructor
  · intro h
    cases b with
    | nil => cases h
    | cons x b =>
      by_cases hx : x < 128
      · -- a byte below 128 is the length itself
        simp only [decodeLength?, if_pos hx, Option.some.injEq, Prod.mk.injEq] at h
        obtain ⟨rfl, rfl⟩ := h
        have hlt : x.toNat < 128 := UInt8.lt_iff_toNat_lt.1 hx
        refine ⟨by omega, ?_⟩
        rw [encodeLength, if_pos hlt, UInt8.ofNat_toNat, List.singleton_append]
      · -- any other byte counts the digits that follow
        simp only [decodeLength?, if_neg hx, Option.ite_none_right_eq_some, Option.some.injEq, Prod.mk.injEq] at h
        obtain ⟨⟨-, hcount, hdigits, hcanonical⟩, rfl, rfl⟩ := h
        constructor
        · apply Nat.lt_of_lt_of_le (Bytes.toNat_lt _)
          rw [hdigits]
          exact Nat.pow_le_pow_right (by decide) hcount
        · rw [hcanonical, List.cons_append, List.take_append_drop]
  · rintro ⟨hlen, rfl⟩
    exact decodeLength_encodeLength hlen r

/-- A single value that is read is the one that its tag and its content write. -/
theorem decodeSingle_eq_some_iff :
    decodeSingle? b = some (tag, content) ↔ content.length < 256 ^ 4 ∧ b = encodeValue tag content := by
  constructor
  · intro h
    cases b with
    | nil => cases h
    | cons x b =>
      rw [decodeSingle?] at h
      cases hlength : decodeLength? b with
      | none =>
        rw [hlength] at h
        cases h
      | some pair =>
        obtain ⟨len, rest⟩ := pair
        simp only [hlength, Option.ite_none_right_eq_some, Option.some.injEq, Prod.mk.injEq] at h
        obtain ⟨rfl, rfl, rfl⟩ := h
        obtain ⟨hlen, rfl⟩ := decodeLength_eq_some_iff.1 hlength
        exact ⟨hlen, rfl⟩
  · rintro ⟨hlen, rfl⟩
    exact decodeSingle_encodeValue tag hlen

/-- An octet string that is read is the one that its content writes. -/
theorem decodeOctetString_eq_some_iff :
    decodeOctetString? b = some content ↔ content.length < 256 ^ 4 ∧ b = encodeOctetString content := by
  unfold decodeOctetString? encodeOctetString
  rw [← decodeSingle_eq_some_iff]
  rcases decodeSingle? b with _ | ⟨tag, c⟩
  · simp
  · by_cases htag : tag = octetStringTag <;> simp [htag]

end Der

namespace Curve

variable {c : Curve} {d p : Bytes}

theorem isRawPoint_iff : c.isRawPoint d = true ↔ d.length = c.pointSize ∧ (c.keyType = .ec → d.head? = some 4) := by
  unfold isRawPoint
  by_cases h : c.keyType = .ec <;> simp [h]

/-- A string that has the size of a point is the octet string of no point. -/
theorem ne_encodeOctetString (hd : d.length = c.pointSize) (hp : p.length = c.pointSize) :
    d ≠ Der.encodeOctetString p := by
  rintro rfl
  have hlt := Der.length_encodeOctetString p
  omega

/-- A point is read from itself, on a prime curve only if it is uncompressed, and from its octet string. -/
theorem decodePoint_ok_iff :
    c.decodePoint d = .ok p ↔ p.length = c.pointSize ∧
      (d = p ∧ (c.keyType = .ec → p.head? = some 4) ∨ d = Der.encodeOctetString p) := by
  unfold decodePoint
  by_cases hraw : c.isRawPoint d = true
  · rw [if_pos hraw]
    rw [isRawPoint_iff] at hraw
    constructor
    · rintro ⟨⟩
      exact ⟨hraw.1, .inl ⟨rfl, hraw.2⟩⟩
    · rintro ⟨hp, ⟨rfl, -⟩ | hd⟩
      · rfl
      · exact absurd hd (ne_encodeOctetString hraw.1 hp)
  · rw [if_neg hraw]
    rw [isRawPoint_iff] at hraw
    constructor
    · intro h
      split at h
      · next raw hread =>
        split at h
        · next hsize =>
          cases h
          exact ⟨hsize, .inr (Der.decodeOctetString_eq_some_iff.1 hread).2⟩
        · cases h
      · cases h
    · rintro ⟨hp, ⟨rfl, htag⟩ | rfl⟩
      · exact absurd ⟨hp, htag⟩ hraw
      · rw [Der.decodeOctetString_encodeOctetString (hp ▸ c.pointSize_lt)]
        exact if_pos hp

/-- What is not read is a bad argument. -/
theorem decodePoint_refused (h : ∀ p, c.decodePoint d ≠ .ok p) : c.decodePoint d = fail .argumentsBad := by
  unfold decodePoint at h ⊢
  split
  · next hraw => exact absurd (if_pos hraw) (h d)
  · next hraw =>
    rw [if_neg hraw] at h
    split
    · next raw hread =>
      rw [hread] at h
      split
      · next hsize => exact absurd (if_pos hsize) (h raw)
      · rfl
    · rfl

/-! ## The rule for points -/

/-- The points that keys over a curve are meant to have: of the curve's size, and uncompressed on a prime curve. -/
structure IsPoint (c : Curve) (p : Bytes) : Prop where
  size : p.length = c.pointSize
  uncompressed : c.keyType = .ec → p.head? = some 4

/-- The strings that write a point: the point itself and its octet string. -/
def Writes (p d : Bytes) : Prop := d = p ∨ d = Der.encodeOctetString p

/-- A string is read as the point that it writes, and is a bad argument if it writes none. -/
def ReadsPoints (c : Curve) (d : Bytes) : Prop :=
  (∀ p, c.decodePoint d = .ok p ↔ c.IsPoint p ∧ Writes p d) ∧
    ((¬ ∃ p, c.IsPoint p ∧ Writes p d) → c.decodePoint d = fail .argumentsBad)

/-- The string is the octet string of bytes that have the size of a point of a prime curve but another first byte than
uncompressed points have. -/
def WrapsOther (c : Curve) (d : Bytes) : Prop :=
  c.keyType = .ec ∧ ∃ p, p.length = c.pointSize ∧ p.head? ≠ some 4 ∧ d = Der.encodeOctetString p

theorem decodePoint_of_writes (hp : c.IsPoint p) (hd : Writes p d) : c.decodePoint d = .ok p := by
  rcases hd with rfl | rfl
  · exact decodePoint_ok_iff.2 ⟨hp.size, .inl ⟨rfl, hp.uncompressed⟩⟩
  · exact decodePoint_ok_iff.2 ⟨hp.size, .inr rfl⟩

theorem isPoint_of_decodePoint (hother : ¬ c.WrapsOther d) (h : c.decodePoint d = .ok p) : c.IsPoint p ∧ Writes p d := by
  obtain ⟨hsize, ⟨hd, htag⟩ | hd⟩ := decodePoint_ok_iff.1 h
  · exact ⟨⟨hsize, htag⟩, .inl hd⟩
  · refine ⟨⟨hsize, fun hec => ?_⟩, .inr hd⟩
    exact Decidable.not_not.1 fun htag => hother ⟨hec, p, hsize, htag, hd⟩

/-- Points are read from exactly the strings that write them, but for octet strings of compressed, hybrid or otherwise
tagged points of a prime curve: the content of these is read as a point. Every point is read from both of its forms,
hence from the one in which an object keeps it, and whatever is not read is a bad argument. -/
theorem readsPoints_iff (c : Curve) (d : Bytes) :
    (c.ReadsPoints d ↔ ¬ c.WrapsOther d) ∧
    (∀ p, c.decodePoint d = .ok p ↔ p.length = c.pointSize ∧
      (d = p ∧ (c.keyType = .ec → p.head? = some 4) ∨ d = Der.encodeOctetString p)) ∧
    ((∀ p, c.decodePoint d ≠ .ok p) → c.decodePoint d = fail .argumentsBad) ∧
    ∀ p, c.IsPoint p → c.decodePoint p = .ok p ∧ c.decodePoint (Der.encodeOctetString p) = .ok p ∧
      c.decodePoint (c.encodePoint p) = .ok p := by
  refine ⟨⟨?_, fun hother => ⟨fun p => ?_, fun hnone => ?_⟩⟩, fun p => decodePoint_ok_iff, decodePoint_refused,
    fun p hp => ⟨?_, ?_, decodePoint_encodePoint hp.size⟩⟩
  · rintro ⟨hreads, -⟩ ⟨hec, p, hsize, htag, hd⟩
    have hpoint := ((hreads p).1 (decodePoint_ok_iff.2 ⟨hsize, .inr hd⟩)).1
    exact htag (hpoint.uncompressed hec)
  · exact ⟨isPoint_of_decodePoint hother, fun ⟨hp, hd⟩ => decodePoint_of_writes hp hd⟩
  · exact decodePoint_refused fun p hp => hnone ⟨p, isPoint_of_decodePoint hother hp⟩
  · exact decodePoint_of_writes hp (.inl rfl)
  · exact decodePoint_of_writes hp (.inr rfl)

/-- Bytes of the size of a point of P-256 in the hybrid form. -/
def hybridPoint : Bytes := 6 :: Bytes.zeros 64

/-- The hybrid form of a point is refused as it stands, but is read out of an octet string. -/
theorem reads_hybrid :
    Curve.p256.decodePoint hybridPoint = fail .argumentsBad ∧
    Curve.p256.decodePoint (Der.encodeOctetString hybridPoint) = .ok hybridPoint ∧
    ¬ Curve.p256.IsPoint hybridPoint ∧ ¬ Curve.p256.ReadsPoints (Der.encodeOctetString hybridPoint) := by
  have hsize : hybridPoint.length = Curve.p256.pointSize := rfl
  have htag : hybridPoint.head? ≠ some 4 := by decide
  have hread : Curve.p256.decodePoint (Der.encodeOctetString hybridPoint) = .ok hybridPoint :=
    decodePoint_ok_iff.2 ⟨hsize, .inr rfl⟩
  have hpoint : ¬ Curve.p256.IsPoint hybridPoint := fun h => htag (h.uncompressed rfl)
  refine ⟨decodePoint_refused fun p hp => ?_, hread, hpoint, fun h => hpoint ((h.1 _).1 hread).1⟩
  obtain ⟨hlen, ⟨rfl, huncompressed⟩ | hd⟩ := decodePoint_ok_iff.1 hp
  · exact htag (huncompressed rfl)
  · exact ne_encodeOctetString hsize hlen hd

end Curve
end SoftToken
