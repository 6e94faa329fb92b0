import SoftToken.Bytes
/-!
# Byte strings as numbers

`Bytes.toNat` and `Bytes.ofNat` are inverse to each other on strings of a fixed length and numbers that
fit into it, and so are `Bytes.toNatLE` and `Bytes.ofNatLE`.
-/

namespace SoftToken.Bytes

theorem foldl_toNat (b : Bytes) (n : Nat) :
    b.foldl (fun n x => n * 256 + x.toNat) n = n * 256 ^ b.length + toNat b := by
  unfold toNat
  induction b generalizing n with
  | nil => simp
  | cons x r ih =>
    rw [List.foldl_cons, List.foldl_cons, ih, ih (0 * 256 + x.toNat), List.length_cons, Nat.pow_succ]
    rw [Nat.add_mul, Nat.mul_assoc, Nat.mul_comm 256 (256 ^ r.length), Nat.zero_mul, Nat.zero_add]
    omega

@[simp] theorem toNat_nil : toNat [] = 0 := rfl

theorem toNat_cons (x : UInt8) (r : Bytes) : toNat (x :: r) = x.toNat * 256 ^ r.length + toNat r := by
  have h := foldl_toNat r (0 * 256 + x.toNat)
  simpa [toNat] using h

@[simp] theorem toNat_zeros (len : Nat) : toNat (zeros len) = 0 := by
  induction len with
  | zero => rfl
  | succ n ih =>
    show toNat (0 :: zeros n) = 0
    rw [toNat_cons, ih, UInt8.toNat_zero, Nat.zero_mul]

theorem toNat_append (a b : Bytes) : toNat (a ++ b) = toNat a * 256 ^ b.length + toNat b := by
  have h : toNat (a ++ b) = b.foldl (fun n x => n * 256 + x.toNat) (toNat a) := List.foldl_append ..
  rw [h, foldl_toNat]

/-- A string writes a number that fits into its length. -/
theorem toNat_lt (b : Bytes) : toNat b < 256 ^ b.length := by
  induction b with
  | nil => exact Nat.one_pos
  | cons x r ih =>
    have hx : x.toNat + 1 ≤ 256 := x.toNat_lt
    have hm : (x.toNat + 1) * 256 ^ r.length ≤ 256 * 256 ^ r.length := Nat.mul_le_mul_right _ hx
    rw [toNat_cons, List.length_cons, Nat.pow_succ, Nat.mul_comm _ 256]
    rw [Nat.add_mul] at hm
    omega

theorem toNat_ofNat_mod (len n : Nat) : toNat (ofNat len n) = n % 256 ^ len := by
  induction len with
  | zero => simp [ofNat, Nat.mod_one]
  | succ k ih =>
    have hd : n % 256 ^ (k + 1) = n / 256 ^ k % 256 * 256 ^ k + n % 256 ^ k := by
      rw [Nat.pow_succ, Nat.mod_mul, Nat.mul_comm, Nat.add_comm]
    rw [ofNat, toNat_cons, length_ofNat, ih, hd, UInt8.toNat_ofNat']

/-- A number that fits is read back. -/
theorem toNat_ofNat {len n : Nat} (h : n < 256 ^ len) : toNat (ofNat len n) = n := by
  rw [toNat_ofNat_mod, Nat.mod_eq_of_lt h]

theorem ofNat_congr {len n m : Nat} (h : n % 256 ^ len = m % 256 ^ len) : ofNat len n = ofNat len m := by
  induction len with
  | zero => rfl
  | succ k ih =>
    rw [Nat.pow_succ] at h
    have hd : n / 256 ^ k % 256 = m / 256 ^ k % 256 := by
      rw [← Nat.mod_mul_right_div_self, ← Nat.mod_mul_right_div_self, h]
    have hk : n % 256 ^ k = m % 256 ^ k := by
      rw [← Nat.mod_mul_right_mod n _ 256, ← Nat.mod_mul_right_mod m _ 256, h]
    have hx : UInt8.ofNat (n / 256 ^ k) = UInt8.ofNat (m / 256 ^ k) := by
      apply UInt8.toNat_inj.mp
      rw [UInt8.toNat_ofNat', UInt8.toNat_ofNat', hd]
    rw [ofNat, ofNat, hx, ih hk]

/-- A string is written back in its own length. -/
theorem ofNat_toNat (b : Bytes) : ofNat b.length (toNat b) = b := by
  induction b with
  | nil => rfl
  | cons x r ih =>
    have hr := toNat_lt r
    have hdiv : (x.toNat * 256 ^ r.length + toNat r) / 256 ^ r.length = x.toNat := by
      rw [Nat.add_comm, Nat.add_mul_div_right _ _ (Nat.pow_pos (by decide)), Nat.div_eq_of_lt hr, Nat.zero_add]
    have hmod : (x.toNat * 256 ^ r.length + toNat r) % 256 ^ r.length = toNat r % 256 ^ r.length := by
      rw [Nat.add_comm, Nat.add_mul_mod_self_right]
    rw [List.length_cons, ofNat, toNat_cons, hdiv, ofNat_congr hmod, ih, UInt8.ofNat_toNat]

theorem length_of_ofNat? {len n : Nat} {b : Bytes} (h : ofNat? len n = some b) : b.length = len := by
  unfold ofNat? at h
  split at h
  · cases h
    exact length_ofNat _ _
  · cases h

/-! ## Least significant byte first -/

theorem toNatLE_lt (b : Bytes) : toNatLE b < 256 ^ b.length := by
  induction b with
  | nil => exact Nat.one_pos
  | cons x r ih =>
    have hx := x.toNat_lt
    rw [toNatLE, List.length_cons, Nat.pow_succ]
    omega

theorem toNatLE_ofNatLE {len n : Nat} (h : n < 256 ^ len) : toNatLE (ofNatLE len n) = n := by
  induction len generalizing n with
  | zero =>
    rw [Nat.pow_zero] at h
    rw [ofNatLE, toNatLE]
    omega
  | succ k ih =>
    have hk : n / 256 < 256 ^ k := by
      rw [Nat.pow_succ] at h
      exact Nat.div_lt_of_lt_mul (Nat.mul_comm .. ▸ h)
    rw [ofNatLE, toNatLE, ih hk, UInt8.toNat_ofNat']
    omega

theorem ofNatLE_toNatLE (b : Bytes) : ofNatLE b.length (toNatLE b) = b := by
  induction b with
  | nil => rfl
  | cons x r ih =>
    have hx : x.toNat < 256 := x.toNat_lt
    have hdiv : (x.toNat + 256 * toNatLE r) / 256 = toNatLE r := by omega
    have hlow : UInt8.ofNat (x.toNat + 256 * toNatLE r) = x := by
      apply UInt8.toNat_inj.mp
      rw [UInt8.toNat_ofNat']
      omega
    rw [List.length_cons, toNatLE, ofNatLE, hdiv, hlow, ih]

end SoftToken.Bytes
