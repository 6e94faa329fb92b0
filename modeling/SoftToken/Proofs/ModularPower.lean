import SoftToken.Bytes
import SoftToken.Modular
/-!
# Powers modulo a number

`Modular.pow` is the power with its remainder taken, and `Modular.bitLength` places a number between two
powers of two.
-/

namespace SoftToken.Modular

theorem powFrom_eq (m base e acc : Nat) : powFrom m base e acc = acc * base ^ e % m := by
  induction base, e, acc using powFrom.induct m with
  | case1 base acc => rw [powFrom]; simp
  | case2 base e acc he ih =>
    rw [dite_eq_ite] at ih
    rw [powFrom, dif_neg he, ih]
    -- The square of the base takes half of the exponent.
    have hsq : ∀ a, a * (base * base % m) ^ (e / 2) % m = a * base ^ (2 * (e / 2)) % m := by
      intro a
      rw [Nat.mul_mod, ← Nat.pow_mod, ← Nat.mul_mod, ← Nat.pow_two, ← Nat.pow_mul]
    have hsplit := Nat.div_add_mod e 2
    rw [hsq]
    split
    · next hodd =>
      have hp : base ^ e = base * base ^ (2 * (e / 2)) := by
        rw [← Nat.pow_succ']; congr 1; omega
      rw [hp, Nat.mul_mod, Nat.mod_mod, ← Nat.mul_mod, Nat.mul_assoc]
    · next heven =>
      have hp : 2 * (e / 2) = e := by omega
      rw [hp]

theorem pow_eq (m base e : Nat) : pow m base e = base ^ e % m := by
  rw [pow, powFrom_eq, Nat.one_mul, ← Nat.pow_mod]

theorem pow_lt {m : Nat} (h : 0 < m) (base e : Nat) : pow m base e < m := by
  rw [pow_eq]; exact Nat.mod_lt _ h

theorem lt_two_pow_bitLength (n : Nat) : n < 2 ^ bitLength n := by
  unfold bitLength
  split
  · next h => simp [h]
  · exact Nat.lt_log2_self

theorem two_pow_bitLength_le {n : Nat} (h : 0 < n) : 2 ^ (bitLength n - 1) ≤ n := by
  unfold bitLength
  rw [if_neg (Nat.pos_iff_ne_zero.1 h), Nat.add_sub_cancel]
  exact Nat.log2_self_le (Nat.pos_iff_ne_zero.1 h)

theorem bitLength_pos {n : Nat} (h : 0 < n) : 0 < bitLength n := by
  unfold bitLength
  rw [if_neg (Nat.pos_iff_ne_zero.1 h)]
  exact Nat.succ_pos _

end SoftToken.Modular
