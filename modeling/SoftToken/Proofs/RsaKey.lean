import SoftToken.Proofs.ByteNumbers
import SoftToken.Proofs.Draws
import SoftToken.Proofs.ModularPower
import SoftToken.Rsa.Key
/-!
# RSA keys and their raw operations

What is known of an accepted private key (`Key.private_ok`), and what the checked private operation
gives on it: a number below the modulus that the public operation takes back (`Key.decrypt_ok`). Blinded or not,
an operation succeeds with what it has found, if that passes the check (`Key.signRaw_iff`).
-/

namespace SoftToken.Rsa

/-- An accepted private key: an odd exponent, and two factors greater than one. -/
structure Key.IsPrivate (k : Key) (s : Secret) : Prop where
  secret : k.secret = some s
  valid : Key.validPublic k.n k.e = true
  one_lt_p : 1 < s.p
  one_lt_q : 1 < s.q
  mul : s.p * s.q = k.n
  inverse_p : s.d * k.e % (s.p - 1) = 1 % (s.p - 1)
  inverse_q : s.d * k.e % (s.q - 1) = 1 % (s.q - 1)

namespace Key

theorem validPublic_iff {n e : Nat} : validPublic n e = true ↔
    e < 2 ^ 64 ∧ e < n ∧ n % 2 = 1 ∧ e % 2 = 1 ∧ 2 ≤ e ∧ e ≤ 2 ^ 33 - 1 := by
  simp [validPublic, and_assoc]

theorem validSecret_iff {n e : Nat} {s : Secret} : validSecret n e s = true ↔
    (1 < s.p ∧ s.d * e % (s.p - 1) = 1 % (s.p - 1)) ∧ (1 < s.q ∧ s.d * e % (s.q - 1) = 1 % (s.q - 1)) ∧
      s.p * s.q = n := by
  simp only [validSecret, List.all_cons, List.all_nil, Bool.and_true, Bool.and_eq_true, decide_eq_true_iff, beq_iff_eq]
  constructor
  · rintro ⟨⟨hp, hn⟩, hq, -⟩; exact ⟨hp, hq, hn⟩
  · rintro ⟨hp, hq, hn⟩; exact ⟨⟨hp, hn⟩, hq, hn⟩

/-- What is known of an accepted private key. -/
theorem private_ok {v : RsaPrivateKey} {k : Key} (h : ofPrivate v = .ok k) : ∃ s, k.IsPrivate s := by
  simp only [ofPrivate] at h
  split at h
  case h_1 p q hpub _ =>
    split at h
    case isTrue hs =>
      cases h
      obtain ⟨⟨hp, hip⟩, ⟨hq, hiq⟩, hn⟩ := validSecret_iff.1 hs
      exact ⟨_, rfl, hpub, hp, hq, hn, hip, hiq⟩
    case isFalse => cases h
  case h_2 => cases h

theorem public_ok {v : RsaPublicKey} {k : Key} (h : ofPublic v = .ok k) : validPublic k.n k.e = true := by
  simp only [ofPublic] at h
  split at h
  · next hv => cases h; exact (Bool.and_eq_true_iff.1 hv).2
  · cases h

/-! ## Sizes -/

theorem n_pos {k : Key} (h : validPublic k.n k.e = true) : 0 < k.n := by
  rw [validPublic_iff] at h; omega

theorem n_lt (k : Key) : k.n < 256 ^ k.size := by
  have hb : k.bits ≤ 8 * k.size := by unfold size; omega
  have h256 : 256 ^ k.size = 2 ^ (8 * k.size) := by rw [Nat.pow_mul]
  rw [h256]
  exact Nat.lt_of_lt_of_le (Modular.lt_two_pow_bitLength k.n) (Nat.pow_le_pow_right (by decide) hb)

/-- A number in one byte fewer than the modulus is below it. -/
theorem pow_size_le {k : Key} (h : 0 < k.n) : 256 ^ (k.size - 1) ≤ k.n := by
  have hpos : 0 < k.bits := Modular.bitLength_pos h
  have hb : 8 * (k.size - 1) ≤ k.bits - 1 := by unfold size; omega
  have h256 : 256 ^ (k.size - 1) = 2 ^ (8 * (k.size - 1)) := by rw [Nat.pow_mul]
  rw [h256]
  exact Nat.le_trans (Nat.pow_le_pow_right (by decide) hb) (Modular.two_pow_bitLength_le h)

/-! ## Raw operations -/

theorem encrypt_lt {k : Key} (h : 0 < k.n) (m : Nat) : k.encrypt m < k.n := Modular.pow_lt h m k.e

theorem encrypt_eq (k : Key) (m : Nat) : k.encrypt m = m ^ k.e % k.n := Modular.pow_eq k.n m k.e

theorem encrypt_zero {k : Key} (h : 0 < k.e) : k.encrypt 0 = 0 := by
  rw [encrypt_eq, Nat.zero_pow h, Nat.zero_mod]

theorem decrypt_lt {k : Key} {s : Secret} (hk : k.IsPrivate s) (c : Nat) : Secret.decrypt s k.n c < k.n := by
  unfold Secret.decrypt
  split
  · next qInverse _ =>
    have h2 : Modular.pow s.q c (s.d % (s.q - 1)) < s.q := Modular.pow_lt (by have := hk.one_lt_q; omega) _ _
    generalize Modular.pow s.q c (s.d % (s.q - 1)) = m2 at *
    simp only
    generalize (Modular.pow s.p c (s.d % (s.p - 1)) + (s.p - m2 % s.p)) * qInverse = x
    have h1 : x % s.p + 1 ≤ s.p := Nat.mod_lt _ (by have := hk.one_lt_p; omega)
    calc m2 + s.q * (x % s.p) < s.q + s.q * (x % s.p) := Nat.add_lt_add_right h2 _
      _ = s.q * (x % s.p + 1) := by rw [Nat.mul_succ, Nat.add_comm]
      _ ≤ s.q * s.p := Nat.mul_le_mul_left _ h1
      _ = k.n := by rw [Nat.mul_comm, hk.mul]
  · exact Modular.pow_lt (n_pos hk.valid) _ _

theorem checkRoot_ok {k : Key} {c root m : Nat} :
    k.checkRoot c root = .ok m ↔ c < k.n ∧ k.encrypt root = c ∧ m = root := by
  unfold checkRoot
  split
  · next h => simp [h, eq_comm]
  · next h =>
    refine iff_of_false nofun ?_
    rintro ⟨hc, hroot, -⟩
    exact h ⟨hc, hroot⟩

theorem checkRoot_error {k : Key} {c root : Nat} {e : Error} :
    k.checkRoot c root = .error e ↔ ¬(c < k.n ∧ k.encrypt root = c) ∧ e = primitiveError := by
  unfold checkRoot
  split
  · next h => exact iff_of_false nofun fun he => he.1 h
  · next h => exact ⟨fun he => ⟨h, (Except.error.inj he).symm⟩, fun he => congrArg _ he.2.symm⟩

/-- The checked private operation gives a number below the modulus that the public one takes back. -/
theorem decrypt_ok {k : Key} {s : Secret} (hk : k.IsPrivate s) {c m : Nat} (h : k.decrypt c = .ok m) :
    c < k.n ∧ m < k.n ∧ k.encrypt m = c := by
  unfold decrypt at h
  rw [hk.secret] at h
  obtain ⟨hc, hroot, rfl⟩ := checkRoot_ok.1 h
  exact ⟨hc, decrypt_lt hk c, hroot⟩

/-! ## Blinded operations -/

variable {k : Key} {s : Secret} {m : Nat} {t t' : RandomSource}

theorem signRaw_eq (hs : k.secret = some s) (hm : m < k.n) : k.signRaw m = (do
    k.checkRoot m (Secret.blindDecrypt s k (← k.drawBlinding maxRequests) m)) := by
  unfold signRaw
  rw [hs]
  exact if_pos hm

theorem signRaw_of_le (hs : k.secret = some s) (hm : k.n ≤ m) :
    (k.signRaw m).on t = (.error (.error primitiveError), t) := by
  unfold signRaw
  rw [hs]
  simp only [if_neg (Nat.not_lt.2 hm)]
  rfl

/-- A signature operation succeeds with what the blinded operation finds, if that is a root. -/
theorem signRaw_iff (hs : k.secret = some s) {root : Nat} : (k.signRaw m).on t = (.ok root, t') ↔
    m < k.n ∧ ∃ b, (k.drawBlinding maxRequests).on t = (.ok b, t') ∧
      k.encrypt (Secret.blindDecrypt s k b m) = m ∧ root = Secret.blindDecrypt s k b m := by
  rcases Nat.lt_or_ge m k.n with hm | hm
  · rw [signRaw_eq hs hm, Draw.bind_ok]
    constructor
    · rintro ⟨b, t₁, hb, h⟩
      obtain ⟨hroot, rfl⟩ := Draw.lift_ok.1 h
      obtain ⟨-, hpower, rfl⟩ := checkRoot_ok.1 hroot
      exact ⟨hm, b, hb, hpower, rfl⟩
    · rintro ⟨-, b, hb, hpower, rfl⟩
      exact ⟨b, t', hb, Draw.lift_ok.2 ⟨checkRoot_ok.2 ⟨hm, hpower, rfl⟩, rfl⟩⟩
  · rw [signRaw_of_le hs hm]
    refine iff_of_false nofun ?_
    rintro ⟨hlt, -⟩
    exact Nat.not_lt.2 hm hlt

/-- Blinding has no error of its own: it is given up where the source fails it. -/
theorem drawBlinding_error {fuel : Nat} {e : Failure} (h : (k.drawBlinding fuel).on t = (.error e, t')) :
    e = .abort .randomSource := by
  induction fuel generalizing t with
  | zero =>
    cases h
    rfl
  | succ fuel ih =>
    rcases Draw.bind_error.1 h with h | ⟨bytes, t₁, -, h⟩
    · obtain ⟨⟨_, -, rfl⟩, -⟩ := Draw.request_error.1 h
      rfl
    · split at h
      · cases h
      · exact ih h

/-- Below the modulus, the only error is that of a result that is no root. -/
theorem signRaw_error (hs : k.secret = some s) (hm : m < k.n) {e : Error} :
    (k.signRaw m).on t = (.error (.error e), t') ↔ ∃ b, (k.drawBlinding maxRequests).on t = (.ok b, t') ∧
      k.encrypt (Secret.blindDecrypt s k b m) ≠ m ∧ e = primitiveError := by
  rw [signRaw_eq hs hm, Draw.bind_error]
  constructor
  · rintro (h | ⟨b, t₁, hb, h⟩)
    · cases drawBlinding_error h
    · obtain ⟨herror, rfl⟩ := Draw.lift_error.1 h
      obtain ⟨hroot, rfl⟩ := checkRoot_error.1 herror
      exact ⟨b, hb, fun hpower => hroot ⟨hm, hpower⟩, rfl⟩
  · rintro ⟨b, hb, hpower, rfl⟩
    exact .inr ⟨b, t', hb, Draw.lift_error.2 ⟨checkRoot_error.2 ⟨fun hroot => hpower hroot.2, rfl⟩, rfl⟩⟩

/-- A successful signature operation gives a root of the number, whatever it was blinded with. -/
theorem signRaw_ok (hk : k.IsPrivate s) {root : Nat} (h : (k.signRaw m).on t = (.ok root, t')) :
    m < k.n ∧ root < k.n ∧ k.encrypt root = m := by
  obtain ⟨hm, b, -, hpower, rfl⟩ := (signRaw_iff hk.secret).1 h
  exact ⟨hm, Nat.mod_lt _ (n_pos hk.valid), hpower⟩

/-- The public key with the largest modulus of a number of bits. -/
def ones (bits : Nat) : Key := ⟨2 ^ bits - 1, 0x10001, none⟩

end Key
end SoftToken.Rsa
