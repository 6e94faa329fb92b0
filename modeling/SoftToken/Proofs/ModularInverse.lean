import Mathlib.Data.Int.ModEq
import Mathlib.Tactic.Linarith
import Mathlib.Tactic.Ring
import SoftToken.Bytes
import SoftToken.Modular
/-!
# Inverses modulo a number

`Modular.inverse?` finds an inverse exactly for the numbers that have no divisor in common with the
modulus.
-/

namespace SoftToken.Modular

/-- The algorithm ends with the greatest common divisor, and its factor stays true to the modulus. -/
theorem euclid_spec (m a : ℤ) (r0 r1 : Nat) (t0 t1 : ℤ) (h0 : m ∣ r0 - t0 * a) (h1 : m ∣ r1 - t1 * a) :
    (euclid r0 r1 t0 t1).1 = Nat.gcd r0 r1 ∧
      m ∣ ((euclid r0 r1 t0 t1).1 : ℤ) - (euclid r0 r1 t0 t1).2 * a := by
  induction r0, r1, t0, t1 using euclid.induct with
  | case1 r0 t0 t1 =>
    rw [euclid, dif_pos rfl]
    exact ⟨(Nat.gcd_zero_right r0).symm, h0⟩
  | case2 r0 r1 t0 t1 hr ih =>
    have h2 : m ∣ ((r0 % r1 : Nat) : ℤ) - (t0 - (r0 / r1 : Nat) * t1) * a := by
      have hd : (r1 : ℤ) * (r0 / r1 : Nat) + (r0 % r1 : Nat) = r0 := by exact_mod_cast Nat.div_add_mod r0 r1
      have he : ((r0 % r1 : Nat) : ℤ) - (t0 - (r0 / r1 : Nat) * t1) * a =
          (r0 - t0 * a) - (r0 / r1 : Nat) * (r1 - t1 * a) := by rw [← hd]; ring
      rw [he]
      exact Int.dvd_sub h0 (Dvd.dvd.mul_left h1 _)
    obtain ⟨hg, hm⟩ := ih h1 h2
    rw [euclid, dif_neg hr]
    refine ⟨?_, hm⟩
    rw [hg, Nat.gcd_comm r0 r1, Nat.gcd_rec r1 r0]
    exact Nat.gcd_comm _ _

theorem inverse_spec (m a : Nat) : (euclid m (a % m) 0 1).1 = Nat.gcd m a ∧
    (m : ℤ) ∣ ((euclid m (a % m) 0 1).1 : ℤ) - (euclid m (a % m) 0 1).2 * (a % m : Nat) := by
  have h := euclid_spec m (a % m : Nat) m (a % m) 0 1 (by simp) (by simp)
  rw [Nat.gcd_comm m (a % m), ← Nat.gcd_rec m a] at h
  exact h

/-- What is found is an inverse. -/
theorem mul_inverse {m a i : Nat} (hm : 0 < m) (h : inverse? m a = some i) : a * i % m = 1 % m := by
  obtain ⟨-, hd⟩ := inverse_spec m a
  simp only [inverse?] at h
  split at h
  · next hg =>
    rw [hg] at hd
    generalize (euclid m (a % m) 0 1).2 = t at *
    have hi : (i : ℤ) = t % m := by
      cases h
      exact Int.toNat_of_nonneg (Int.emod_nonneg _ (by omega))
    have hmod : (a : ℤ) * i ≡ 1 [ZMOD m] := by
      calc (a : ℤ) * i ≡ (a % m : Nat) * t [ZMOD m] := by
            rw [hi, Int.natCast_mod]
            exact (Int.mod_modEq _ _).symm.mul (Int.mod_modEq _ _)
        _ ≡ 1 [ZMOD m] := by
            rw [mul_comm]
            exact Int.modEq_iff_dvd.2 hd
    exact Int.natCast_modEq_iff.1 (by push_cast; exact hmod)
  · cases h

/-- An inverse is found where there is one. -/
theorem exists_inverse {m a : Nat} (h : Nat.Coprime m a) : ∃ i, inverse? m a = some i := by
  obtain ⟨hg, -⟩ := inverse_spec m a
  simp only [inverse?]
  rw [if_pos (hg.trans h)]
  exact ⟨_, rfl⟩

end SoftToken.Modular
