import SoftToken.Proofs.Encapsulation
import SoftToken.Proofs.LatticeLengths
/-!
# Encapsulated data has the announced length

A caller asks for the length of the encapsulated data first and for the data afterwards. The two come from
different places: the length from the trimmed modulus, from a rule for DER lengths or from a table, the data from the
operation itself. They agree whenever the operation succeeds (`Encapsulator.encapsulated_length`). What is relied on of
ML-KEM is that the matrix of the key is sampled in full; ephemeral points are known to have their length.
-/

namespace SoftToken

/-! ## Lengths in DER -/

namespace Der

/-- The length of a length: one byte below 128, and else a count with its bytes. -/
theorem length_encodeLength {len : Nat} (h : len < 256 ^ 2) :
    (encodeLength len).length = if len ≤ 127 then 1 else if len ≤ 255 then 2 else 3 := by
  unfold encodeLength
  by_cases hshort : len ≤ 127
  · rw [if_pos (by omega), if_pos hshort]
    rfl
  rw [if_neg (by omega), if_neg hshort, List.length_cons]
  by_cases hbyte : len ≤ 255
  · have hle := length_minimalBytes_le (k := 1) (n := len) (by omega)
    have hpos := length_minimalBytes_pos (n := len) (by omega)
    rw [if_pos hbyte]
    omega
  · -- the first of two bytes is what is left of a number above 255
    have hle := length_minimalBytes_le h
    have hpos := length_minimalBytes_pos (n := len / 256) (by omega)
    rw [if_neg hbyte]
    rw [minimalBytes_pos (by omega), List.length_append, List.length_singleton] at hle ⊢
    omega

end Der

/-- The rule for the length of a point in an octet string is that of DER. -/
theorem Curve.length_encodeOctetString {c : Curve} {point : Bytes} (h : point.length = c.pointSize) :
    (Der.encodeOctetString point).length = c.derPointSize := by
  have hlt : c.pointSize < 256 ^ 2 := by cases c <;> decide
  show ((Der.encodeLength point.length ++ point).length + 1) = _
  rw [List.length_append, h, Der.length_encodeLength hlt]
  unfold derPointSize
  simp only
  split
  · omega
  · split <;> omega

/-- A point of the family's curves is as long in encapsulated data as the family says. -/
theorem CurveFamily.length_encodePoint {f : CurveFamily} {c : Curve} (hc : c.keyType = f.keyType) {point : Bytes}
    (h : point.length = c.pointSize) : (c.encodePoint point).length = f.encapsulatedLength c := by
  unfold Curve.encodePoint
  cases f with
  | prime =>
    have hec : c.keyType = .ec := hc
    rw [if_pos hec]
    exact Curve.length_encodeOctetString h
  | montgomery =>
    have hne : c.keyType ≠ .ec := by rw [hc]; decide
    rw [if_neg hne]
    exact h

/-! ## The length of a modulus -/

/-- Without its leading zeros a string is as long as its number, whatever zeros it had. -/
theorem Bytes.length_trimLeft {b : Bytes} {len : Nat} (hlow : 256 ^ (len - 1) ≤ toNat b) (hhigh : toNat b < 256 ^ len) :
    (trimLeft b).length = len := by
  induction b with
  | nil =>
    have hpos : 0 < 256 ^ (len - 1) := Nat.pow_pos (by decide)
    exact absurd hlow (Nat.not_le.2 hpos)
  | cons x r ih =>
    by_cases hx : x = 0
    · subst hx
      rw [toNat_cons, UInt8.toNat_zero, Nat.zero_mul, Nat.zero_add] at hlow hhigh
      exact ih hlow hhigh
    · -- the first byte is not zero, so that the number has no shorter form
      have htrim : trimLeft (x :: r) = x :: r := by simp [trimLeft, hx]
      have hone : 1 ≤ x.toNat := Nat.one_le_iff_ne_zero.2 fun h => hx (UInt8.toNat_inj.1 h)
      have hfirst : 256 ^ r.length ≤ toNat (x :: r) := by
        rw [toNat_cons]
        exact Nat.le_trans (Nat.le_mul_of_pos_left _ hone) (Nat.le_add_right _ _)
      have hlast := toNat_lt (x :: r)
      have hle : r.length < len := (Nat.pow_lt_pow_iff_right (by decide)).1 (Nat.lt_of_le_of_lt hfirst hhigh)
      have hge : len - 1 < (x :: r).length := (Nat.pow_lt_pow_iff_right (by decide)).1 (Nat.lt_of_le_of_lt hlow hlast)
      rw [htrim]
      rw [List.length_cons] at hge ⊢
      omega

/-- The announced length of a modulus is the size of the key. -/
theorem Rsa.Key.size_ofPublic {v : RsaPublicKey} {k : Key} (h : ofPublic v = .ok k) : v.modulusLength = k.size := by
  have hpos := n_pos (public_ok h)
  have hn : k.n = Bytes.toNat v.modulus := by
    simp only [ofPublic] at h
    split at h
    · cases h; rfl
    · cases h
  have hlow := pow_size_le hpos
  have hhigh := k.n_lt
  rw [hn] at hlow hhigh
  exact Bytes.length_trimLeft hlow hhigh

theorem Rsa.length_encrypt {k : Key} {p : Padding} {data c : Bytes} {t t' : RandomSource}
    (h : (encrypt k p data).on t = (.ok c, t')) : c.length = k.size := by
  unfold encrypt at h
  split at h
  · cases h
  cases p with
  | pkcs1 =>
    simp only at h
    split at h
    · cases h
    · obtain ⟨drawn, t₁, -, h⟩ := Draw.bind_ok.1 h
      obtain ⟨filling, t₂, -, h⟩ := Draw.bind_ok.1 h
      cases h
      exact Bytes.length_ofNat _ _
  | oaep o =>
    obtain ⟨em, t₁, -, h⟩ := Draw.bind_ok.1 h
    cases h
    exact Bytes.length_ofNat _ _

/-! ## Encapsulators -/

namespace Encapsulator

variable {e : Encapsulator} {key : Object} {t t' : RandomSource} {secret data : Bytes}

/-- An ML-KEM key whose matrix is sampled in full. Nothing is asked of the keys of other schemes. -/
def SamplesInFull (e : Encapsulator) (key : Object) : Prop :=
  e.scheme = .mlKem → ∀ v P, SetKey.ofPublic .mlKem key = .ok v → MlKem.parameters? v.parameterSet = some P →
    MlKem.SamplesInFull P (v.value.drop P.rowSize)

theorem announced_mlKem (hs : e.scheme = .mlKem) (hfull : e.SamplesInFull key)
    (h : (e.encapsulateMlKem key).on t = (.ok (secret, data), t')) : e.encapsulatedLength key = .ok data.length := by
  obtain ⟨v, hv, h⟩ := Draw.bind_lift_ok.1 h
  obtain ⟨_, t₁, -, h⟩ := Draw.bind_ok.1 h
  obtain ⟨⟨P, sizes⟩, hset, h⟩ := Draw.bind_lift_ok.1 h
  obtain ⟨_, -, h⟩ := Draw.bind_lift_ok.1 h
  unfold mlKemSet at hset
  split at hset
  · next hP hsizes =>
    cases hset
    have hlength := MlKem.length_ciphertext (hfull hs v P (mlKemPublic_ok hv) hP) h
    unfold encapsulatedLength
    simp only [hs, hv, Except.ok_bind, hsizes]
    rw [hlength, MlKem.ciphertextSize_eq hP hsizes]
    rfl
  · cases hset

theorem announced_rsa {padding : Rsa.Padding} (hs : e.scheme = .rsa padding)
    (h : (e.encapsulateRsa padding key).on t = (.ok (secret, data), t')) :
    e.encapsulatedLength key = .ok data.length := by
  obtain ⟨v, hv, h⟩ := Draw.bind_lift_ok.1 h
  obtain ⟨k, hk, h⟩ := Draw.bind_lift_ok.1 h
  obtain ⟨template, -, h⟩ := Draw.bind_lift_ok.1 h
  simp only at h
  split at h
  · cases h
  obtain ⟨drawn, t₁, -, h⟩ := Draw.bind_ok.1 h
  obtain ⟨c, t₂, hc, h⟩ := Draw.bind_ok.1 h
  cases h
  unfold encapsulatedLength
  simp only [hs, hv, Except.ok_bind]
  rw [Rsa.length_encrypt hc, ← Rsa.Key.size_ofPublic hk]
  rfl

theorem announced_agreement {f : CurveFamily} {kdf : AgreementKdf} {params : AgreementParams}
    (hs : e.scheme = .agreement f kdf params)
    (h : (e.encapsulateAgreement f kdf params key).on t = (.ok (secret, data), t')) :
    e.encapsulatedLength key = .ok data.length := by
  obtain ⟨_, -, h⟩ := Draw.bind_lift_ok.1 h
  obtain ⟨v, hv, h⟩ := Draw.bind_lift_ok.1 h
  obtain ⟨template, -, h⟩ := Draw.bind_lift_ok.1 h
  obtain ⟨⟨value, point⟩, t₁, hd, h⟩ := Draw.bind_ok.1 h
  obtain ⟨shared, -, h⟩ := Draw.bind_lift_ok.1 h
  obtain ⟨derived, -, h⟩ := Draw.bind_liftFailure_ok.1 h
  cases h
  have hcurve := EcPublicKey.keyType_of_ofObject (agreementPublic_ok hv)
  unfold encapsulatedLength
  simp only [hs, hv, Except.ok_bind]
  rw [CurveFamily.length_encodePoint hcurve (length_drawnPoint hd)]
  rfl

/-- The announced length is that of the data. -/
theorem announced_of_encapsulate {o : Object} (hfull : e.SamplesInFull key)
    (h : (e.encapsulate key).on t = (.ok (o, data), t')) : e.encapsulatedLength key = .ok data.length := by
  obtain ⟨secret, h, -⟩ := encapsulate_ok h
  unfold drawSecret at h
  cases hs : e.scheme with
  | mlKem => rw [hs] at h; exact announced_mlKem hs hfull h
  | rsa padding => rw [hs] at h; exact announced_rsa hs h
  | agreement f kdf params => rw [hs] at h; exact announced_agreement hs h

end Encapsulator

/-- When an encapsulation succeeds, the length announced for its key is that of the data, before and after the
template is given: for every encapsulator, key, template and random source. -/
theorem Encapsulator.encapsulated_length {e₀ e : Encapsulator} {key : Object} {attributes : List Attribute}
    {t t' : RandomSource} {o : Object} {data : Bytes} (he : e₀.init attributes = .ok e) (hfull : e₀.SamplesInFull key)
    (h : (e.encapsulate key).on t = (.ok (o, data), t')) :
    e₀.encapsulatedLength key = .ok data.length ∧ e.encapsulatedLength key = .ok data.length := by
  obtain ⟨template, -, he⟩ := Except.bind_ok.1 he
  cases he
  have hlength := announced_of_encapsulate (e := { e₀ with template := some template }) hfull h
  exact ⟨hlength, hlength⟩

/-! ## Runs -/

/-- An encapsulation that succeeds, with data as long as announced. -/
def Registry.Announces (g : Registry) (m : Mechanism) (attributes : List Attribute) (key : Object) (t : RandomSource) :
    Prop :=
  ∃ e₀ e o data t', g.encapsulator m key = .ok e₀ ∧ e₀.init attributes = .ok e ∧
    (e.encapsulate key).on t = (.ok (o, data), t') ∧
    e₀.encapsulatedLength key = .ok data.length ∧ e.encapsulatedLength key = .ok data.length

namespace Encapsulator

/-- The key of Mersenne primes, with zeros in front of its modulus. -/
def paddedPublicObject : Object :=
  let key : RsaPublicKey := { mersennePublic with modulus := Bytes.zeros 3 ++ mersennePublic.modulus }
  key.toObject.put (.ofBool .encapsulate true)

/-- The double of the base point of P-256. -/
def doublePublicObject : Object :=
  let key : EcPublicKey := ⟨.p256, PrimeCurve.p256.encode (PrimeCurve.p256.mul 2 PrimeCurve.p256.base)⟩
  key.toObject.put (.ofBool .encapsulate true)

def primeEncapsulator : Encapsulator where
  mechanism := .ecdh1Derive
  scheme := .agreement .prime .null ⟨1, none, none⟩
  template := some ⟨.genericSecret, some 1, []⟩

/-- An ML-KEM key of zeros. -/
def zeroSetKey : SetKey := ⟨1, Bytes.zeros 800⟩

def zeroPublicObject : Object := (zeroSetKey.toPublic .mlKem).put (.ofBool .encapsulate true)

def latticeEncapsulator : Encapsulator :=
  { mechanism := .mlKem, scheme := .mlKem, template := some ⟨.genericSecret, some 1, []⟩ }

theorem zero_samplesInFull :
    Encapsulator.SamplesInFull { latticeEncapsulator with template := none } zeroPublicObject := by
  intro _ v P hv hP
  have hview : (SetKey.ofPublic .mlKem zeroPublicObject).toOption = some zeroSetKey := by decide +kernel
  obtain rfl : zeroSetKey = v := Except.ok.inj ((Except.ok_of_toOption hview).symm.trans hv)
  obtain rfl : ⟨2, 3, 10, 4⟩ = P := Option.some.inj hP
  intro i hi j hj
  -- the entries are computed from lists of bytes, byte arrays would not evaluate
  rw [MlKem.matrixEntry_eq]
  revert i j
  decide +kernel

theorem padded_run :
    Registry.full.encapsulator ⟨.rsaPkcs, []⟩ paddedPublicObject = .ok { mersenneEncapsulator with template := none } ∧
      Encapsulator.init { mersenneEncapsulator with template := none } shortTemplate = .ok mersenneEncapsulator ∧
      ∃ key data t', (mersenneEncapsulator.encapsulate paddedPublicObject).on ones = (.ok (key, data), t') :=
  run_of_toOption (by decide +kernel) (by decide +kernel) (by decide +kernel)

theorem double_run :
    Registry.full.encapsulator ⟨.ecdh1Derive, plainParams⟩ doublePublicObject =
        .ok { primeEncapsulator with template := none } ∧
      Encapsulator.init { primeEncapsulator with template := none } shortTemplate = .ok primeEncapsulator ∧
      ∃ key data t', (primeEncapsulator.encapsulate doublePublicObject).on ones = (.ok (key, data), t') :=
  run_of_toOption (by decide +kernel) (by decide +kernel) (by decide +kernel)

theorem zero_run :
    Registry.full.encapsulator ⟨.mlKem, []⟩ zeroPublicObject = .ok { latticeEncapsulator with template := none } ∧
      Encapsulator.init { latticeEncapsulator with template := none } shortTemplate = .ok latticeEncapsulator ∧
      ∃ key data t', (latticeEncapsulator.encapsulate zeroPublicObject).on ones = (.ok (key, data), t') :=
  run_of_toOption (by decide +kernel) (by decide +kernel) (by decide +kernel)

end Encapsulator

open Encapsulator in
/-- The lengths agree for a padded modulus, a point in DER, a raw point and a ciphertext of ML-KEM. -/
theorem Encapsulator.encapsulated_length_runs :
    Registry.full.Announces ⟨.rsaPkcs, []⟩ shortTemplate paddedPublicObject ones ∧
      Registry.full.Announces ⟨.ecdh1Derive, plainParams⟩ shortTemplate doublePublicObject ones ∧
      Registry.full.Announces ⟨.ecdh1Derive, plainParams⟩ shortTemplate twosPublicObject ones ∧
      Registry.full.Announces ⟨.mlKem, []⟩ shortTemplate zeroPublicObject ones := by
  obtain ⟨h₀, hi, o, data, t', hrun⟩ := padded_run
  obtain ⟨h₀', hi', o', data', t'', hrun'⟩ := double_run
  obtain ⟨h₁, hj, q, c, u, hrun₁⟩ := twos_run
  obtain ⟨h₁', hj', q', c', u', hrun₁'⟩ := zero_run
  refine ⟨⟨_, _, o, data, t', h₀, hi, hrun, ?_⟩, ⟨_, _, o', data', t'', h₀', hi', hrun', ?_⟩,
    ⟨_, _, q, c, u, h₁, hj, hrun₁, ?_⟩, ⟨_, _, q', c', u', h₁', hj', hrun₁', ?_⟩⟩
  · exact encapsulated_length hi nofun hrun
  · exact encapsulated_length hi' nofun hrun'
  · exact encapsulated_length hj nofun hrun₁
  · exact encapsulated_length hj' zero_samplesInFull hrun₁'

end SoftToken
