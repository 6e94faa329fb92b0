import Mathlib.Algebra.Ring.GeomSum
import SoftToken.Proofs.PssSteps
import SoftToken.Proofs.RsaKey
import SoftToken.Rsa.Signature
/-!
# RSA signatures are verified

`sign_verify`: whatever is signed with an accepted private key is as long as the modulus and is verified
with the public key of the same numbers, in every scheme and for every random source. The schemes meet
in the number that is signed: `signRaw` gives a root of it, which `opensTo` and `open?` take back. Only
X9.31 may give what is missing from the root to the modulus, and an odd exponent takes that to what is
missing from the number.
-/

namespace SoftToken.Rsa

variable {k k' : Key} {s : Secret}

/-! ## The number that is signed -/

/-- A root is opened to its power. -/
theorem open_ofNat {r : Nat} (hr : r < k.n) : open? k (Bytes.ofNat k.size r) = some (k.encrypt r) := by
  unfold open?
  simp only [Bytes.toNat_ofNat (Nat.lt_trans hr k.n_lt), if_pos hr]

/-- With an odd exponent, the powers of a number and of what is missing to the modulus cancel. -/
theorem encrypt_complement (hv : Key.validPublic k.n k.e = true) {r : Nat} (hr : r < k.n) :
    (k.encrypt (k.n - r) + k.encrypt r) % k.n = 0 := by
  have hodd : Odd k.e := Nat.odd_iff.2 (Key.validPublic_iff.1 hv).2.2.2.1
  have hdvd : k.n - r + r ∣ (k.n - r) ^ k.e + r ^ k.e := Odd.nat_add_dvd_pow_add_pow _ _ hodd
  rw [Nat.sub_add_cancel hr.le] at hdvd
  rw [Key.encrypt_eq, Key.encrypt_eq, ← Nat.add_mod]
  exact Nat.mod_eq_zero_of_dvd hdvd

theorem opensTo_root {r m : Nat} (hr : r < k.n) (hm : k.encrypt r = m) :
    opensTo k (Bytes.ofNat k.size r) m = true := by
  unfold opensTo
  rw [open_ofNat hr, hm]
  simp

/-- The smaller of a root and what is missing to the modulus stands for the same number. -/
theorem opensTo_min (hv : Key.validPublic k.n k.e = true) {r m : Nat} (hr : r < k.n) (hm : k.encrypt r = m) :
    opensTo k (Bytes.ofNat k.size (min r (k.n - r))) m = true := by
  by_cases h : r ≤ k.n - r
  · rw [Nat.min_eq_left h]
    exact opensTo_root hr hm
  · have hlt : k.n - r < k.n := by omega
    have hc := encrypt_complement hv hr
    have hm' := Key.encrypt_lt (Key.n_pos hv) (k.n - r)
    have hmn := Key.encrypt_lt (Key.n_pos hv) r
    rw [Nat.min_eq_right (by omega)]
    unfold opensTo
    rw [open_ofNat hlt]
    simp only [Bool.or_eq_true, beq_iff_eq]
    rw [hm] at hc hmn
    generalize k.encrypt (k.n - r) = c at *
    -- Both powers are below the modulus, so that their sum is zero or the modulus.
    rcases Nat.lt_or_ge (c + m) k.n with hs | hs
    · rw [Nat.mod_eq_of_lt hs] at hc
      exact .inl (by omega)
    · have hsub : (c + m - k.n) % k.n = 0 := by rw [← Nat.mod_eq_sub_mod hs]; exact hc
      rw [Nat.mod_eq_of_lt (by omega)] at hsub
      exact .inr (by omega)

/-! ## The numbers that a signature opens to -/

theorem opensTo_iff {signature : Bytes} {m : Nat} : opensTo k signature m = true ↔ Bytes.toNat signature < k.n ∧
    (k.encrypt (Bytes.toNat signature) = m ∨ k.n - k.encrypt (Bytes.toNat signature) = m) := by
  unfold opensTo open?
  by_cases hs : Bytes.toNat signature < k.n
  · simp [hs]
  · simp [hs]

/-- A signature opens to one number and to what is missing from it to the modulus. -/
theorem eq_or_add_of_opensTo {signature : Bytes} {m m' : Nat} (h : opensTo k signature m = true)
    (h' : opensTo k signature m' = true) : m = m' ∨ m + m' = k.n := by
  obtain ⟨hs, hopens⟩ := opensTo_iff.1 h
  obtain ⟨-, hopens'⟩ := opensTo_iff.1 h'
  have hlt := Key.encrypt_lt (Nat.zero_lt_of_lt hs) (Bytes.toNat signature)
  omega

/-! ## The schemes -/

variable {data sig : Bytes} {t t' : RandomSource}

theorem sign_verify_pkcs1 (hk : k.IsPrivate s) {digest : Option Digest}
    (h : (sign k (.pkcs1 digest) data).on t = (.ok sig, t')) :
    sig.length = k.size ∧ verify k (.pkcs1 digest) data sig = .ok true := by
  unfold sign at h
  obtain ⟨info, hinfo, h⟩ := Draw.bind_lift_ok.1 h
  split at h
  case h_1 b hb =>
    obtain ⟨r, t₁, hr, h⟩ := Draw.bind_ok.1 h
    obtain ⟨-, hrn, hm⟩ := Key.signRaw_ok hk hr
    cases h
    have hlen : (Bytes.ofNat k.size r).length = k.size := Bytes.length_ofNat _ _
    have hback : Bytes.ofNat k.size (Bytes.toNat b) = b := by
      rw [← length_signatureBlock hb, Bytes.ofNat_toNat]
    refine ⟨hlen, ?_⟩
    unfold verify
    simp only [if_neg (not_not_intro hlen), hinfo]
    show Except.ok ((signatureBlock? k.size info).isSome && _) = _
    rw [hb, open_ofNat hrn, hm, Option.map_some, hback]
    simp
  case h_2 => cases h

theorem sign_verify_pss (hk : k.IsPrivate s) {p : Pss} (h : (sign k (.pss p) data).on t = (.ok sig, t')) :
    sig.length = k.size ∧ verify k (.pss p) data sig = .ok true := by
  unfold sign at h
  simp only at h
  split at h
  case isTrue => cases h
  case isFalse hd =>
    obtain ⟨em, t₁, hem, h⟩ := Draw.bind_ok.1 h
    obtain ⟨hw, hfits, salt, hsalt, rfl⟩ := Pss.drawEncoding_ok.1 hem
    obtain ⟨r, t₂, hr, h⟩ := Draw.bind_ok.1 h
    obtain ⟨-, hrn, hm⟩ := Key.signRaw_ok hk hr
    cases h
    have hlen : (Bytes.ofNat k.size r).length = k.size := Bytes.length_ofNat _ _
    have hs := Draw.length_of_request hsalt
    have hback : Bytes.ofNat? (Pss.encodedLength k.bits) (Bytes.toNat (p.encode k.bits data salt)) =
        some (p.encode k.bits data salt) := by
      unfold Bytes.ofNat?
      rw [← Pss.length_encode hfits hs data, if_pos (Bytes.toNat_lt _), Bytes.ofNat_toNat]
    refine ⟨hlen, ?_⟩
    unfold verify
    simp only [if_neg (not_not_intro hlen), if_neg hd, open_ofNat hrn, hm, Option.bind_some, hback,
      Pss.readEncoding_of_lt hw (Pss.length_encode hfits hs data), Pss.check_encode hfits hs]

theorem sign_verify_x931 (hk : k.IsPrivate s) (h : (sign k .x931 data).on t = (.ok sig, t')) :
    sig.length = k.size ∧ verify k .x931 data sig = .ok true := by
  unfold sign at h
  obtain ⟨m, hm, h⟩ := Draw.bind_lift_ok.1 h
  obtain ⟨r, t₁, hr, h⟩ := Draw.bind_ok.1 h
  obtain ⟨-, hrn, hrm⟩ := Key.signRaw_ok hk hr
  cases h
  have hlen : (Bytes.ofNat k.size (min r (k.n - r))).length = k.size := Bytes.length_ofNat _ _
  refine ⟨hlen, ?_⟩
  unfold verify
  simp only [if_neg (not_not_intro hlen), hm]
  show Except.ok (opensTo k _ m) = _
  rw [opensTo_min hk.valid hrn hrm]

theorem sign_verify_iso9796 (hk : k.IsPrivate s) (h : (sign k .iso9796 data).on t = (.ok sig, t')) :
    sig.length = k.size ∧ verify k .iso9796 data sig = .ok true := by
  unfold sign at h
  obtain ⟨m, hm, h⟩ := Draw.bind_liftFailure_ok.1 h
  obtain ⟨r, t₁, hr, h⟩ := Draw.bind_ok.1 h
  obtain ⟨-, hrn, hrm⟩ := Key.signRaw_ok hk hr
  cases h
  have hlen : (Bytes.ofNat k.size r).length = k.size := Bytes.length_ofNat _ _
  refine ⟨hlen, ?_⟩
  unfold verify
  simp only [if_neg (not_not_intro hlen), hm]
  show Except.ok (opensTo k _ m) = _
  rw [opensTo_root hrn hrm]

/-- Verification looks at the modulus and the public exponent alone. -/
theorem verify_congr (hn : k'.n = k.n) (he : k'.e = k.e) (scheme : Scheme) (data sig : Bytes) :
    verify k' scheme data sig = verify k scheme data sig := by
  obtain ⟨n, e, x⟩ := k
  obtain ⟨n', e', x'⟩ := k'
  obtain rfl : n' = n := hn
  obtain rfl : e' = e := he
  rfl

/-- What an accepted private key signs is as long as the modulus, and the public key verifies it. -/
theorem sign_verify {v : RsaPrivateKey} (hk : Key.ofPrivate v = .ok k) (hn : k'.n = k.n) (he : k'.e = k.e)
    (scheme : Scheme) (h : (sign k scheme data).on t = (.ok sig, t')) :
    sig.length = k.size ∧ verify k' scheme data sig = .ok true := by
  obtain ⟨s, hs⟩ := Key.private_ok hk
  rw [verify_congr hn he]
  cases scheme with
  | pkcs1 digest => exact sign_verify_pkcs1 hs h
  | pss p => exact sign_verify_pss hs h
  | x931 => exact sign_verify_x931 hs h
  | iso9796 => exact sign_verify_iso9796 hs h

/-- A private key of 64 bits. -/
def smallView : RsaPrivateKey where
  modulus := [0xff, 0xff, 0xff, 0xea, 0x00, 0x00, 0x00, 0x55]
  publicExponent := [0x01, 0x00, 0x01]
  privateExponent := [0x01, 0x81, 0x7e, 0x7e, 0x5d, 0x5d, 0xa2, 0xa3]
  prime1 := some [0xff, 0xff, 0xff, 0xfb]
  prime2 := some [0xff, 0xff, 0xff, 0xef]

def smallPublic : Key := ⟨0xffffffea00000055, 0x10001, none⟩

def smallKey : Key := { smallPublic with secret := some ⟨0x01817e7e5d5da2a3, 0xfffffffb, 0xffffffef⟩ }

/-- With this key, X9.31 signs by what is missing from the root to the modulus. -/
theorem sign_verify_small :
    Key.ofPrivate smallView = .ok smallKey ∧
      ∃ sig t', (sign smallKey .x931 [1]).on .zeros = (.ok sig, t') ∧
        sig.length = smallKey.size ∧ verify smallPublic .x931 [1] sig = .ok true := by
  have hk : (Key.ofPrivate smallView).toOption = some smallKey := by decide +kernel
  have hs : ((sign smallKey .x931 [1]).on .zeros).1.toOption =
      some [0x59, 0x9b, 0x5a, 0xde, 0x4e, 0xe6, 0x24, 0xf1] := by decide +kernel
  have hrun := Draw.on_of_toOption hs
  have hv : Key.ofPrivate smallView = .ok smallKey := Except.ok_of_toOption hk
  have hn : smallPublic.n = smallKey.n := rfl
  have he : smallPublic.e = smallKey.e := rfl
  exact ⟨hv, _, _, hrun, sign_verify hv hn he .x931 hrun⟩

end SoftToken.Rsa
