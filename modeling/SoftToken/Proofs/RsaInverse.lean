import Mathlib.Data.Fintype.EquivFin
import Mathlib.FieldTheory.Finite.Basic
import SoftToken.Proofs.ModularInverse
import SoftToken.Proofs.RsaEncryption
/-!
# The private operation takes back the public one

For a key whose factors are two different primes, the private operation is the inverse of the public
one (`Key.inverts_of_prime`), and it gives the same root of a number whatever that is blinded with
(`Key.blindDecrypt_of_prime`). A key is accepted without a check that its factors are prime.
-/

namespace SoftToken.Rsa

/-- Fermat's theorem for every number: an exponent that is one modulo `p - 1` changes nothing. -/
theorem pow_mod_prime {p k : Nat} (hp : p.Prime) (hk : k % (p - 1) = 1) (m : Nat) : m ^ k ≡ m [MOD p] := by
  have hsplit : k = (p - 1) * (k / (p - 1)) + 1 := by
    have h := Nat.div_add_mod k (p - 1)
    rw [hk] at h
    exact h.symm
  by_cases hd : p ∣ m
  · have hz : m ≡ 0 [MOD p] := (Nat.modEq_zero_iff_dvd).2 hd
    have hne : k ≠ 0 := by omega
    calc m ^ k ≡ 0 ^ k [MOD p] := hz.pow k
      _ = 0 := Nat.zero_pow (Nat.pos_of_ne_zero hne)
      _ ≡ m [MOD p] := hz.symm
  · have hcop : Nat.Coprime m p := (Nat.coprime_comm.1 ((Nat.Prime.coprime_iff_not_dvd hp).2 hd))
    have hfermat : m ^ (p - 1) ≡ 1 [MOD p] := by
      have h := Nat.ModEq.pow_totient hcop
      rwa [Nat.totient_prime hp] at h
    calc m ^ k = (m ^ (p - 1)) ^ (k / (p - 1)) * m := by
          conv_lhs => rw [hsplit, Nat.pow_succ, Nat.pow_mul]
      _ ≡ 1 ^ (k / (p - 1)) * m [MOD p] := (hfermat.pow _).mul_right m
      _ = m := by rw [Nat.one_pow, Nat.one_mul]

variable {k : Key} {s : Secret}

/-- Modulo a prime factor, the private power of an encrypted number is the number. -/
theorem pow_encrypt {p : Nat} (hp : p.Prime) (hpn : p ∣ k.n) (hp2 : 2 < p) {d : Nat}
    (hd : d * k.e % (p - 1) = 1 % (p - 1)) (m : Nat) :
    Modular.pow p (k.encrypt m) (d % (p - 1)) ≡ m [MOD p] := by
  have hone : k.e * (d % (p - 1)) % (p - 1) = 1 := by
    rw [Nat.mul_mod, Nat.mod_mod, ← Nat.mul_mod, Nat.mul_comm, hd, Nat.mod_eq_of_lt (by omega)]
  have hc : k.encrypt m ≡ m ^ k.e [MOD p] := by
    rw [Key.encrypt_eq]
    exact (Nat.mod_modEq _ _).of_dvd hpn
  calc Modular.pow p (k.encrypt m) (d % (p - 1))
      ≡ k.encrypt m ^ (d % (p - 1)) [MOD p] := by rw [Modular.pow_eq]; exact Nat.mod_modEq _ _
    _ ≡ (m ^ k.e) ^ (d % (p - 1)) [MOD p] := hc.pow _
    _ = m ^ (k.e * (d % (p - 1))) := (Nat.pow_mul ..).symm
    _ ≡ m [MOD p] := pow_mod_prime hp hone m

/-- The number with two given remainders, as the private operation puts it together. -/
theorem join_remainders {p q i : Nat} (hi : q * i % p = 1 % p) (hp : 0 < p) (m1 m2 : Nat) :
    m2 + q * ((m1 + (p - m2 % p)) * i % p) ≡ m1 [MOD p] ∧
      m2 + q * ((m1 + (p - m2 % p)) * i % p) ≡ m2 [MOD q] := by
  refine ⟨?_, ?_⟩
  · have hq : q * ((m1 + (p - m2 % p)) * i % p) ≡ m1 + (p - m2 % p) [MOD p] := by
      calc q * ((m1 + (p - m2 % p)) * i % p) ≡ q * ((m1 + (p - m2 % p)) * i) [MOD p] :=
            (Nat.mod_modEq _ _).mul_left q
        _ = (m1 + (p - m2 % p)) * (q * i) := by ring
        _ ≡ (m1 + (p - m2 % p)) * 1 [MOD p] := Nat.ModEq.mul_left _ hi
        _ = m1 + (p - m2 % p) := Nat.mul_one _
    have hlt := Nat.mod_lt m2 hp
    have hsum : m2 + (m1 + (p - m2 % p)) = m1 + p * (m2 / p + 1) := by
      have h := Nat.div_add_mod m2 p
      rw [Nat.mul_succ]
      omega
    calc m2 + q * ((m1 + (p - m2 % p)) * i % p) ≡ m2 + (m1 + (p - m2 % p)) [MOD p] := hq.add_left m2
      _ = m1 + p * (m2 / p + 1) := hsum
      _ ≡ m1 [MOD p] := by rw [Nat.ModEq, Nat.add_mul_mod_self_left]
  · rw [Nat.ModEq, Nat.add_mul_mod_self_left]

namespace Key

variable {m : Nat}

/-- Modulo two different primes, the private operation takes back the public one. -/
theorem decrypt_encrypt (hk : k.IsPrivate s) (hp : s.p.Prime) (hq : s.q.Prime) (hne : s.p ≠ s.q) (hm : m < k.n) :
    Secret.decrypt s k.n (k.encrypt m) = m := by
  have hodd : k.n % 2 = 1 := (Key.validPublic_iff.1 hk.valid).2.2.1
  have hpn : s.p ∣ k.n := ⟨s.q, hk.mul.symm⟩
  have hqn : s.q ∣ k.n := ⟨s.p, by rw [Nat.mul_comm, hk.mul]⟩
  have two_lt : ∀ r : Nat, r.Prime → r ∣ k.n → 2 < r := by
    intro r hr hd
    have h2 := hr.two_le
    have hne2 : r ≠ 2 := by rintro rfl; omega
    omega
  have hcop : Nat.Coprime s.p s.q := (Nat.coprime_primes hp hq).2 hne
  obtain ⟨i, hi⟩ := Modular.exists_inverse hcop
  have h1 := pow_encrypt hp hpn (two_lt _ hp hpn) hk.inverse_p m
  have h2 := pow_encrypt hq hqn (two_lt _ hq hqn) hk.inverse_q m
  have hlt := decrypt_lt hk (k.encrypt m)
  unfold Secret.decrypt at hlt ⊢
  rw [hi] at hlt ⊢
  simp only at hlt ⊢
  obtain ⟨hj1, hj2⟩ := join_remainders (Modular.mul_inverse hp.pos hi) hp.pos
    (Modular.pow s.p (k.encrypt m) (s.d % (s.p - 1))) (Modular.pow s.q (k.encrypt m) (s.d % (s.q - 1)))
  have hn := (Nat.modEq_and_modEq_iff_modEq_mul hcop).1 ⟨hj1.trans h1, hj2.trans h2⟩
  rw [hk.mul] at hn
  exact Nat.ModEq.eq_of_lt_of_lt hn hlt hm

/-- A key whose factors are two different primes takes back what is encrypted with it. -/
theorem inverts_of_prime (hk : k.IsPrivate s) (hp : s.p.Prime) (hq : s.q.Prime) (hne : s.p ≠ s.q) : k.Inverts k := by
  intro m hm
  unfold decrypt
  rw [hk.secret]
  simp only [decrypt_encrypt hk hp hq hne hm]
  exact checkRoot_ok.2 ⟨encrypt_lt (n_pos hk.valid) m, rfl, rfl⟩

/-! ## Roots -/

/-- If the private operation takes back the public one, every number below the modulus is a power. -/
theorem exists_root (hk : k.IsPrivate s) (hi : k.Inverts k) (hm : m < k.n) : ∃ r < k.n, k.encrypt r = m := by
  let power : Fin k.n → Fin k.n := fun r => ⟨k.encrypt r, encrypt_lt (n_pos hk.valid) r⟩
  have hinj : Function.Injective power := by
    intro a b hab
    have he : k.encrypt a = k.encrypt b := congrArg Fin.val hab
    have ha := hi a a.2
    rw [he, hi b b.2] at ha
    exact Fin.ext (Except.ok.inj ha).symm
  obtain ⟨r, hr⟩ := Finite.injective_iff_surjective.1 hinj ⟨m, hm⟩
  exact ⟨r, r.2, congrArg Fin.val hr⟩

/-- The public operation is a homomorphism. -/
theorem encrypt_mul (k : Key) (a b : Nat) : k.encrypt a * k.encrypt b % k.n = k.encrypt (a * b % k.n) := by
  simp only [encrypt_eq, ← Nat.mul_mod, ← Nat.pow_mod, Nat.mul_pow]

/-- A unit with its inverse. -/
def Blinding.Fits (b : Blinding) (n : Nat) : Prop := b.factor * b.inverse % n = 1 % n

theorem Blinding.Fits.cancel {b : Blinding} {n : Nat} (h : b.Fits n) (r : Nat) : r * b.factor % n * b.inverse % n = r % n := by
  have hunit : b.factor * b.inverse ≡ 1 [MOD n] := h
  calc r * b.factor % n * b.inverse % n = r * b.factor * b.inverse % n := Nat.mod_mul_mod ..
    _ = r * (b.factor * b.inverse) % n := by rw [Nat.mul_assoc]
    _ = r * 1 % n := hunit.mul_left r
    _ = r % n := by rw [Nat.mul_one]

/-- With factors that are two different primes, a number has one root, which the private operation gives under every
blinding. -/
theorem blindDecrypt_of_prime (hk : k.IsPrivate s) (hp : s.p.Prime) (hq : s.q.Prime) (hne : s.p ≠ s.q) (hm : m < k.n)
    {b : Blinding} (hb : b.Fits k.n) :
    Secret.blindDecrypt s k b m = Secret.decrypt s k.n m ∧ k.encrypt (Secret.decrypt s k.n m) = m := by
  obtain ⟨r, hr, rfl⟩ := exists_root hk (inverts_of_prime hk hp hq hne) hm
  have hroot := decrypt_encrypt hk hp hq hne hr
  have hblinded := decrypt_encrypt hk hp hq hne (Nat.mod_lt (r * b.factor) (n_pos hk.valid))
  refine ⟨?_, by rw [hroot]⟩
  -- the blinded number is the power of the root times the factor, which the inverse takes off again
  rw [Secret.blindDecrypt, encrypt_mul, hblinded, hroot, hb.cancel, Nat.mod_eq_of_lt hr]

/-! ## Drawn blindings -/

theorem blinding?_fits {r : Nat} {b : Blinding} (h : k.blinding? r = some b) : b.Fits k.n := by
  unfold blinding? at h
  split at h
  · next hr =>
    obtain ⟨i, hi, rfl⟩ := Option.map_eq_some_iff.1 h
    exact Modular.mul_inverse (Nat.zero_lt_of_lt hr) hi
  · cases h

/-- What is drawn to blind a number is a unit with its inverse. -/
theorem drawBlinding_fits {fuel : Nat} {b : Blinding} {t t' : RandomSource}
    (h : (k.drawBlinding fuel).on t = (.ok b, t')) : b.Fits k.n := by
  induction fuel generalizing t with
  | zero => cases h
  | succ fuel ih =>
    obtain ⟨bytes, t₁, -, h⟩ := Draw.bind_ok.1 h
    split at h
    · next b' hb =>
      cases h
      exact blinding?_fits hb
    · exact ih h

end Key
end SoftToken.Rsa
