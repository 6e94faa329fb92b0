import SoftToken.Key.Curve
import SoftToken.Proofs.ByteNumbers
/-!
# Octet strings and points are read back

A DER octet string is read back whatever it holds, up to four bytes of length. A public point is read
back from the form in which an object keeps it: the octet string of a prime curve is longer than the
raw point and cannot be taken for one.
-/

namespace SoftToken

namespace Der

theorem minimalBytes_pos {n : Nat} (h : n ≠ 0) : minimalBytes n = minimalBytes (n / 256) ++ [UInt8.ofNat n] := by
  rw [minimalBytes, dif_neg h]

theorem minimalBytes_zero : minimalBytes 0 = [] := by rw [minimalBytes, dif_pos rfl]

theorem toNat_minimalBytes (n : Nat) : Bytes.toNat (minimalBytes n) = n := by
  induction n using minimalBytes.induct with
  | case1 => rw [minimalBytes_zero]; rfl
  | case2 n h ih =>
    rw [minimalBytes_pos h, Bytes.toNat_append, ih]
    show n / 256 * 256 ^ 1 + (0 * 256 + (UInt8.ofNat n).toNat) = n
    rw [UInt8.toNat_ofNat']
    omega

theorem length_minimalBytes_le {k n : Nat} (h : n < 256 ^ k) : (minimalBytes n).length ≤ k := by
  induction k generalizing n with
  | zero =>
    obtain rfl : n = 0 := by simpa using h
    rw [minimalBytes_zero]
    exact Nat.le_refl 0
  | succ k ih =>
    by_cases hn : n = 0
    · rw [hn, minimalBytes_zero]
      exact Nat.zero_le _
    · have hd : n / 256 < 256 ^ k := by rw [Nat.pow_succ] at h; omega
      rw [minimalBytes_pos hn, List.length_append, List.length_singleton]
      exact Nat.succ_le_succ (ih hd)

theorem length_minimalBytes_pos {n : Nat} (h : n ≠ 0) : 1 ≤ (minimalBytes n).length := by
  rw [minimalBytes_pos h, List.length_append]
  exact Nat.le_add_left _ _

theorem decodeLength_encodeLength {len : Nat} (h : len < 256 ^ 4) (r : Bytes) :
    decodeLength? (encodeLength len ++ r) = some (len, r) := by
  by_cases hl : len < 128
  · have hx : (UInt8.ofNat len).toNat = len := by rw [UInt8.toNat_ofNat']; omega
    have hlt : UInt8.ofNat len < 128 := UInt8.lt_iff_toNat_lt.2 (by rw [hx]; exact hl)
    unfold encodeLength
    rw [if_pos hl]
    show (if UInt8.ofNat len < 128 then _ else _) = _
    rw [if_pos hlt, hx]
    rfl
  · have h4 := length_minimalBytes_le h
    have h1 := length_minimalBytes_pos (n := len) (by omega)
    have hx : (UInt8.ofNat (128 + (minimalBytes len).length)).toNat = 128 + (minimalBytes len).length := by
      rw [UInt8.toNat_ofNat']; omega
    have hge : ¬ UInt8.ofNat (128 + (minimalBytes len).length) < 128 := by
      rw [UInt8.lt_iff_toNat_lt, hx]
      exact fun hlt => absurd hlt (by show ¬ _ < 128; omega)
    have hcount : 128 + (minimalBytes len).length - 128 = (minimalBytes len).length := by omega
    have he : encodeLength len = UInt8.ofNat (128 + (minimalBytes len).length) :: minimalBytes len := by
      unfold encodeLength; rw [if_neg hl]
    rw [he, List.cons_append]
    unfold decodeLength?
    simp only [if_neg hge, hx, hcount, List.take_left, List.drop_left, toNat_minimalBytes, he, h1, h4, and_self,
      if_true]

theorem decodeSingle_encodeValue (tag : UInt8) {content : Bytes} (h : content.length < 256 ^ 4) :
    decodeSingle? (encodeValue tag content) = some (tag, content) := by
  unfold decodeSingle? encodeValue
  simp only [decodeLength_encodeLength h, if_true]

/-- An octet string is read back. -/
theorem decodeOctetString_encodeOctetString {b : Bytes} (h : b.length < 256 ^ 4) :
    decodeOctetString? (encodeOctetString b) = some b := by
  unfold decodeOctetString? encodeOctetString
  simp only [decodeSingle_encodeValue _ h, if_true]

theorem length_encodeOctetString (b : Bytes) : b.length < (encodeOctetString b).length := by
  unfold encodeOctetString encodeValue
  rw [List.length_cons, List.length_append]
  omega

end Der

namespace Curve

theorem pointSize_lt (c : Curve) : c.pointSize < 256 ^ 4 := by cases c <;> decide

/-- A point of the curve's size is read back from the form in which an object keeps it. -/
theorem decodePoint_encodePoint {c : Curve} {point : Bytes} (h : point.length = c.pointSize) :
    c.decodePoint (c.encodePoint point) = .ok point := by
  unfold decodePoint encodePoint
  by_cases ht : c.keyType = .ec
  · have hraw : ¬ c.isRawPoint (Der.encodeOctetString point) = true := by
      have hl := Der.length_encodeOctetString point
      rw [h] at hl
      unfold isRawPoint
      simp only [Bool.and_eq_true, beq_iff_eq]
      exact fun hr => absurd hr.1 (Nat.ne_of_gt hl)
    rw [if_pos ht, if_neg hraw, Der.decodeOctetString_encodeOctetString (by rw [h]; exact c.pointSize_lt)]
    exact if_pos h
  · have hraw : c.isRawPoint point = true := by
      unfold isRawPoint
      simp [h, ht]
    rw [if_neg ht, if_pos hraw]

end Curve
end SoftToken
