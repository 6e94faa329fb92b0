import SoftToken.Digest.Length
import SoftToken.Proofs.Encapsulation
import SoftToken.Proofs.SecretKeys
/-!
# The length of encapsulated secrets

Encapsulation does not check the keys it makes. Whether a key is valid depends on its length alone: the
one its template settles, or else the one of the secret, which the scheme gives
(`Encapsulator.valid_iff`).
-/

namespace SoftToken

/-! ## Templates -/

namespace SecretTemplate

variable {t : SecretTemplate} {secret v : Bytes}

/-- The keys made from secrets of `len` bytes have a length that their type allows. -/
def Admits (t : SecretTemplate) (len : Nat) : Prop := t.type.allowsLength (t.requiredLength.getD len) = true

/-- The template names an allowed length, or its type allows every length. -/
def Settles (t : SecretTemplate) : Prop :=
  match t.requiredLength with
  | some n => t.type.allowsLength n = true
  | none => t.type.isBlockCipher = false

/-- What a template keeps of a secret that is long enough. -/
def kept (t : SecretTemplate) (secret : Bytes) : Bytes :=
  match t.requiredLength with
  | some n => secret.take n
  | none => secret

theorem reconcile_of_short (h : secret.length < t.minimalLength) :
    ∃ e, t.reconcile secret = .error e ∧ e.code = .keySizeRange := by
  unfold minimalLength at h
  unfold reconcile
  cases hn : t.requiredLength with
  | some n =>
    rw [hn] at h
    exact ⟨_, if_pos h, rfl⟩
  | none =>
    rw [hn] at h
    exact ⟨_, if_pos h, rfl⟩

theorem reconcile_of_enough (h : t.minimalLength ≤ secret.length) : t.reconcile secret = .ok (t.kept secret) := by
  unfold minimalLength at h
  unfold reconcile kept
  cases hn : t.requiredLength with
  | some n =>
    rw [hn] at h
    exact if_neg (Nat.not_lt.2 h)
  | none =>
    rw [hn] at h
    exact if_neg (Nat.not_lt.2 h)

theorem reconcile_ok_iff : t.reconcile secret = .ok v ↔ t.minimalLength ≤ secret.length ∧ v = t.kept secret := by
  by_cases henough : t.minimalLength ≤ secret.length
  · rw [reconcile_of_enough henough, Except.ok.injEq]
    exact ⟨fun h => ⟨henough, h.symm⟩, fun h => h.2.symm⟩
  · obtain ⟨e, he, -⟩ := reconcile_of_short (Nat.lt_of_not_le henough)
    rw [he]
    exact iff_of_false nofun fun h => henough h.1

theorem length_kept (h : t.minimalLength ≤ secret.length) :
    (t.kept secret).length = t.requiredLength.getD secret.length := by
  unfold minimalLength at h
  unfold kept
  cases hn : t.requiredLength with
  | none => rfl
  | some n =>
    rw [hn] at h
    exact List.length_take_of_le h

/-- What has just the length that a template takes at least is kept as it is. -/
theorem kept_of_length (h : secret.length = t.minimalLength) : t.kept secret = secret := by
  unfold minimalLength at h
  unfold kept
  cases hn : t.requiredLength with
  | none => rfl
  | some n =>
    rw [hn] at h
    exact List.take_of_length_le (Nat.le_of_eq h)

/-- A secret that is long enough is cut to the required length. -/
theorem reconcile_ok (h : t.reconcile secret = .ok v) :
    t.minimalLength ≤ secret.length ∧ v.length = t.requiredLength.getD secret.length := by
  obtain ⟨henough, rfl⟩ := reconcile_ok_iff.1 h
  exact ⟨henough, length_kept henough⟩

theorem Settles.admits (h : t.Settles) {len : Nat} (hlen : t.minimalLength ≤ len) : t.Admits len := by
  unfold Settles at h
  unfold Admits
  cases hn : t.requiredLength with
  | some n => simpa [hn] using h
  | none =>
    simp only [hn] at h
    have hfree : t.type.secretLength? = none := (Option.or_eq_none_iff.1 hn).1
    have hpos : 1 ≤ len := by simpa [minimalLength, hn, KeyType.minSecretLength, h, hfree] using hlen
    simpa [KeyType.allowsLength, h, hfree] using Nat.lt_of_succ_le hpos

theorem Finishes.kind {changed : List AttributeId} {o : Object} {as : List Attribute} (hr : t.Reads as)
    (hf : t.Finishes v changed o) (hkey : .keyType ∉ changed) : o.kind = .ok (.secret t.type) := by
  have htype : o.getNumber .keyType = .ok t.type.val := by
    rw [Object.getNumber_ok, hf.alters.value _ (by simpa using ⟨by decide, by decide, hkey⟩)]
    exact keyType_initialObject hr v
  have hcls : o.cls = .secretKey := hf.alters.cls.trans (t.cls_initialObject v)
  unfold Object.kind
  rw [htype, hcls]
  exact if_pos hr.secret

/-- Nothing but the length of its value can be wrong with a finished key. -/
theorem Finishes.validate_eq {changed : List AttributeId} {o : Object} {as : List Attribute} (hr : t.Reads as)
    (hf : t.Finishes v changed o) (hkey : .keyType ∉ changed) (hvalue : .value ∉ changed) :
    o.validate = if t.type.allowsLength v.length then .ok ()
      else refuse .attributeValueInvalid (.secretLengthInvalid v.length t.type) := by
  have hbytes : o.getBytes .value = .ok v := by
    rw [Object.getBytes_ok, hf.alters.value _ (by simpa using ⟨by decide, by decide, hvalue⟩)]
    exact value_initialObject hr v
  unfold Object.validate
  rw [hf.kind hr hkey]
  simp only [hbytes]
  rfl

/-- A finished key is valid exactly if its length is allowed. -/
theorem Finishes.validate_iff {changed : List AttributeId} {o : Object} {as : List Attribute} (hr : t.Reads as)
    (hf : t.Finishes v changed o) (hkey : .keyType ∉ changed) (hvalue : .value ∉ changed) :
    o.validate = .ok () ↔ t.type.allowsLength v.length = true := by
  rw [hf.validate_eq hr hkey hvalue]
  exact Except.ite_refuse_ok.trans (and_iff_left rfl)

end SecretTemplate

/-! ## Schemes -/

/-- The length of the secrets that a scheme makes for a template and a key over a curve. -/
def EncapsulationScheme.secretLength (t : SecretTemplate) (curve? : Option Curve) : EncapsulationScheme → Nat
  | mlKem => 32
  | rsa _ => t.minimalLength
  | agreement _ .null _ => (curve?.map Curve.keySize).getD 0
  | agreement _ (.stream d) _ => max t.minimalLength d.outputLength

theorem Bytes.length_ofArray (a : ByteArray) : (Bytes.ofArray a).length = a.size := rfl

theorem MlKem.length_deriveSecret {message digest shared noiseSeed : Bytes}
    (h : deriveSecret message digest = (shared, noiseSeed)) : shared.length = 32 := by
  have hsize : (Keccak.sha3_512 (Bytes.pack (message ++ digest))).size = 64 :=
    Keccak.size_sponge (by decide) (by decide) _ _ _
  rw [deriveSecret, List.splitAt_eq, Prod.mk.injEq] at h
  rw [← h.1, List.length_take, Bytes.length_ofArray, hsize]
  rfl

theorem MlKem.length_rejectedSecret (z ciphertext : Bytes) : (rejectedSecret z ciphertext).length = 32 := by
  rw [rejectedSecret, Bytes.length_ofArray]
  exact Keccak.size_sponge (by decide) (by decide) _ _ _

-- The pair of the secret and the seed is generalized first, so that nothing unfolds the sponge below it.

theorem MlKem.length_encapsulate {P : Parameters} {key secret data : Bytes} {s s' : RandomSource}
    (h : (encapsulate P key).on s = (.ok (secret, data), s')) : secret.length = 32 := by
  obtain ⟨_, -, h⟩ := Draw.bind_lift_ok.1 h
  obtain ⟨message, s₁, -, h⟩ := Draw.bind_ok.1 h
  obtain ⟨h, -⟩ := Draw.lift_ok.1 h
  unfold encapsulateMessage at h
  obtain ⟨⟨row, seed⟩, -, h⟩ := Except.bind_ok.1 h
  generalize hd : deriveSecret message (keyDigest key) = pair at h
  obtain ⟨shared, noiseSeed⟩ := pair
  cases h
  exact length_deriveSecret hd

theorem MlKem.length_decapsulate {P : Parameters} {key data secret : Bytes} (h : decapsulate P key data = .ok secret) :
    secret.length = 32 := by
  unfold decapsulate at h
  obtain ⟨⟨row, seed⟩, -, h⟩ := Except.bind_ok.1 h
  simp only at h
  split at h
  · cases h
  split at h
  · cases h
  next secretRow _ =>
  generalize hd : deriveSecret (decryptMessage P secretRow data) _ = pair at h
  obtain ⟨shared, noiseSeed⟩ := pair
  simp only at h
  split at h
  · cases h
    exact length_deriveSecret hd
  · rw [← Except.ok.inj h, length_rejectedSecret]

/-- Two parties share a value as long as a private value of the curve. -/
theorem CurveFamily.length_agree {f : CurveFamily} {c : Curve} {value peer shared : Bytes}
    (h : f.agree c value peer = .ok shared) : shared.length = c.keySize := by
  unfold agree at h
  cases f with
  | prime =>
    simp only at h
    split at h
    · next p hp =>
      unfold Ecdsa.agree at h
      split at h
      · cases h
      split at h
      · cases h
      cases h
      rw [Bytes.length_ofNat]
      cases c <;> cases hp <;> rfl
    · cases h
  | montgomery =>
    simp only at h
    split at h
    · next m hm =>
      unfold Montgomery.agree at h
      split at h
      · cases h
      split at h
      · cases h
      simp only at h
      split at h
      · cases h
      cases h
      rw [Bytes.length_ofNatLE]
      cases c <;> cases hm <;> rfl
    · cases h

theorem AgreementKdf.length_secret {kdf : AgreementKdf} {z shared secret : Bytes} {minimal : Nat}
    (h : kdf.secret z shared minimal = .ok secret) :
    secret.length = match kdf with
      | .null => z.length
      | .stream d => max minimal d.outputLength := by
  unfold AgreementKdf.secret at h
  split at h
  · cases h; rfl
  · next d =>
    obtain ⟨-, rfl⟩ := CounterStream.counted_ok.1 h
    exact CounterStream.length_stream ..

/-- Agreed secrets have the length that the scheme gives for the curve. -/
theorem AgreementKdf.length_agreed {f : CurveFamily} {c : Curve} {kdf : AgreementKdf} {t : SecretTemplate}
    {value peer z shared secret : Bytes} (p : AgreementParams) (hz : f.agree c value peer = .ok z)
    (h : kdf.secret z shared t.minimalLength = .ok secret) :
    secret.length = (EncapsulationScheme.agreement f kdf p).secretLength t (some c) := by
  rw [length_secret h, CurveFamily.length_agree hz]
  cases kdf <;> rfl

/-! ## Drawn and recovered secrets -/

namespace Encapsulator

variable {e : Encapsulator} {t : SecretTemplate} {key : Object} {secret data : Bytes} {s s' : RandomSource}

theorem requireTemplate_ok {t' : SecretTemplate} (ht : e.template = some t) (h : e.requireTemplate = .ok t') :
    t' = t := by
  simpa [ht, eq_comm] using SecretTemplate.require_ok.1 h

theorem length_encapsulateMlKem (h : (e.encapsulateMlKem key).on s = (.ok (secret, data), s')) :
    key.kind = .ok .mlKemPublic ∧ secret.length = 32 := by
  obtain ⟨v, hv, h⟩ := Draw.bind_lift_ok.1 h
  obtain ⟨_, s₁, -, h⟩ := Draw.bind_ok.1 h
  obtain ⟨⟨P, sizes⟩, -, h⟩ := Draw.bind_lift_ok.1 h
  obtain ⟨_, -, h⟩ := Draw.bind_lift_ok.1 h
  exact ⟨SetKey.kind_of_ofPublic (mlKemPublic_ok hv), MlKem.length_encapsulate h⟩

/-- RSA encrypts as many bytes as the template asks for at least. -/
theorem length_encapsulateRsa {padding : Rsa.Padding} (ht : e.template = some t)
    (h : (e.encapsulateRsa padding key).on s = (.ok (secret, data), s')) :
    key.kind = .ok .rsaPublic ∧ secret.length = t.minimalLength := by
  obtain ⟨v, hv, h⟩ := Draw.bind_lift_ok.1 h
  obtain ⟨k, -, h⟩ := Draw.bind_lift_ok.1 h
  obtain ⟨t', ht', h⟩ := Draw.bind_lift_ok.1 h
  obtain rfl := requireTemplate_ok ht ht'
  simp only at h
  split at h
  · cases h
  obtain ⟨drawn, s₁, hd, h⟩ := Draw.bind_ok.1 h
  obtain ⟨c, s₂, -, h⟩ := Draw.bind_ok.1 h
  cases h
  exact ⟨RsaPublicKey.kind_of_ofObject (rsaPublic_ok hv), Draw.length_of_request hd⟩

theorem length_encapsulateAgreement {f : CurveFamily} {kdf : AgreementKdf} {p : AgreementParams}
    (ht : e.template = some t) (h : (e.encapsulateAgreement f kdf p key).on s = (.ok (secret, data), s')) :
    ∃ k, key.kind = .ok k ∧ secret.length = (EncapsulationScheme.agreement f kdf p).secretLength t k.curve? := by
  obtain ⟨_, -, h⟩ := Draw.bind_lift_ok.1 h
  obtain ⟨v, hv, h⟩ := Draw.bind_lift_ok.1 h
  obtain ⟨t', ht', h⟩ := Draw.bind_lift_ok.1 h
  obtain rfl := requireTemplate_ok ht ht'
  obtain ⟨⟨value, point⟩, s₁, -, h⟩ := Draw.bind_ok.1 h
  obtain ⟨z, hz, h⟩ := Draw.bind_lift_ok.1 h
  obtain ⟨derived, hderived, h⟩ := Draw.bind_liftFailure_ok.1 h
  cases h
  obtain ⟨k, hk, hcurve⟩ := EcPublicKey.curve_of_ofObject (agreementPublic_ok hv)
  exact ⟨k, hk, hcurve ▸ AgreementKdf.length_agreed p hz hderived⟩

/-- A drawn secret has the length of its scheme. -/
theorem length_drawSecret (ht : e.template = some t) (h : (e.drawSecret key).on s = (.ok (secret, data), s')) :
    ∃ k, key.kind = .ok k ∧ secret.length = e.scheme.secretLength t k.curve? := by
  unfold drawSecret at h
  cases hs : e.scheme with
  | mlKem =>
    rw [hs] at h
    exact ⟨_, length_encapsulateMlKem h⟩
  | rsa padding =>
    rw [hs] at h
    exact ⟨_, length_encapsulateRsa ht h⟩
  | agreement f kdf p =>
    rw [hs] at h
    exact length_encapsulateAgreement ht h

theorem length_recoverMlKem (h : e.recoverMlKem key data = .ok secret) :
    key.kind = .ok .mlKemPrivate ∧ secret.length = 32 := by
  obtain ⟨v, hv, h⟩ := Except.bind_ok.1 h
  obtain ⟨_, -, hv⟩ := Except.bind_ok.1 hv
  obtain ⟨_, -, h⟩ := Except.bind_ok.1 h
  obtain ⟨⟨P, sizes⟩, -, h⟩ := Except.bind_ok.1 h
  simp only at h
  split at h
  · cases h
  obtain ⟨_, -, h⟩ := Except.bind_ok.1 h
  exact ⟨SetKey.kind_of_ofPrivate hv, MlKem.length_decapsulate h⟩

theorem kind_of_recoverRsa {padding : Rsa.Padding} (h : e.recoverRsa padding key data = .ok secret) :
    key.kind = .ok .rsaPrivate := by
  obtain ⟨v, hv, -⟩ := Except.bind_ok.1 h
  obtain ⟨_, -, hv⟩ := Except.bind_ok.1 hv
  exact RsaPrivateKey.kind_of_ofObject hv

theorem length_recoverAgreement {f : CurveFamily} {kdf : AgreementKdf} {p : AgreementParams}
    (ht : e.template = some t) (h : e.recoverAgreement f kdf p key data = .ok secret) :
    ∃ k, key.kind = .ok k ∧ secret.length = (EncapsulationScheme.agreement f kdf p).secretLength t k.curve? := by
  obtain ⟨_, -, h⟩ := Except.bind_lift_ok.1 h
  obtain ⟨v, hv, h⟩ := Except.bind_lift_ok.1 h
  obtain ⟨_, -, hv⟩ := Except.bind_ok.1 hv
  split at h
  · cases h
  next peer _ =>
  obtain ⟨t', ht', h⟩ := Except.bind_lift_ok.1 h
  obtain rfl := requireTemplate_ok ht ht'
  obtain ⟨z, hz, hderived⟩ := Except.bind_lift_ok.1 h
  obtain ⟨k, hk, hcurve⟩ := EcPrivateKey.curve_of_ofObject hv
  exact ⟨k, hk, hcurve ▸ AgreementKdf.length_agreed p hz hderived⟩

/-- A recovered secret has the length of its scheme, unless it was decrypted: the sender chose its length
then. -/
theorem length_recoverSecret (ht : e.template = some t) (h : e.recoverSecret key data = .ok secret) :
    ∃ k, key.kind = .ok k ∧
      ((∀ padding, e.scheme ≠ .rsa padding) → secret.length = e.scheme.secretLength t k.curve?) := by
  unfold recoverSecret at h
  cases hs : e.scheme with
  | mlKem =>
    rw [hs] at h
    obtain ⟨hk, hlen⟩ := length_recoverMlKem (Except.lift_ok.1 h)
    exact ⟨_, hk, fun _ => hlen⟩
  | rsa padding =>
    rw [hs] at h
    exact ⟨_, kind_of_recoverRsa (Except.lift_ok.1 h), fun hno => absurd rfl (hno padding)⟩
  | agreement f kdf p =>
    rw [hs] at h
    obtain ⟨k, hk, hlen⟩ := length_recoverAgreement ht h
    exact ⟨k, hk, fun _ => hlen⟩

/-! ## Validity -/

/-- The key of a secret is valid exactly if the template admits the secret's length. -/
theorem validate_secretKey {as : List Attribute} {o : Object} (ht : e.template = some t) (hr : t.Reads as)
    (h : e.secretKey secret = .ok o) :
    t.minimalLength ≤ secret.length ∧ (o.validate = .ok () ↔ t.Admits secret.length) := by
  obtain ⟨v, hv, hf, -⟩ := secretKey_ok ht hr h
  obtain ⟨hmin, hlen⟩ := SecretTemplate.reconcile_ok hv
  refine ⟨hmin, ?_⟩
  rw [hf.validate_iff hr (by decide) (by decide), hlen]
  rfl

/-- A key that is encapsulated or recovered is valid exactly if its template admits the length of its
secret, which the scheme fixes but for decrypted ones. It is valid whenever the template settles that. -/
theorem valid_iff {e₀ : Encapsulator} {as : List Attribute} (hi : e₀.init as = .ok e)
    (ht : SecretTemplate.ofAttributes as = .ok t) :
    (∀ key s o data s', (e.encapsulate key).on s = (.ok (o, data), s') →
      ∃ k, key.kind = .ok k ∧ (o.validate = .ok () ↔ t.Admits (e.scheme.secretLength t k.curve?)) ∧
        (t.Settles → o.validate = .ok ())) ∧
    ∀ key data o, e.decapsulate key data = .ok o →
      ∃ k secret, key.kind = .ok k ∧ e.recoverSecret key data = .ok secret ∧
        ((∀ padding, e.scheme ≠ .rsa padding) → secret.length = e.scheme.secretLength t k.curve?) ∧
        (o.validate = .ok () ↔ t.Admits secret.length) ∧ (t.Settles → o.validate = .ok ()) := by
  have hr := SecretTemplate.ofAttributes_ok ht
  obtain ⟨htemplate, -⟩ := init_ok ht hi
  constructor
  · intro key s o data s' h
    obtain ⟨secret, hd, hkey⟩ := encapsulate_ok h
    obtain ⟨k, hk, hlen⟩ := length_drawSecret htemplate hd
    obtain ⟨hmin, hiff⟩ := validate_secretKey htemplate hr hkey
    exact ⟨k, hk, hlen ▸ hiff, fun hset => hiff.2 (hset.admits hmin)⟩
  · intro key data o h
    obtain ⟨secret, hs, hkey⟩ := decapsulate_ok.1 h
    obtain ⟨k, hk, hlen⟩ := length_recoverSecret htemplate hs
    obtain ⟨hmin, hiff⟩ := validate_secretKey htemplate hr hkey
    exact ⟨k, secret, hk, hs, hlen, hiff, fun hset => hiff.2 (hset.admits hmin)⟩

/-- A byte agreed on over X25519 is a valid key. -/
theorem valid_iff_byte :
    ∃ key data s, (twosEncapsulator.encapsulate twosPublicObject).on ones = (.ok (key, data), s) ∧
      key.validate = .ok () := by
  obtain ⟨-, hi, key, data, s, hrun⟩ := twos_run
  obtain ⟨k, -, -, hvalid⟩ := (valid_iff hi ofAttributes_shortTemplate).1 _ _ _ _ _ hrun
  exact ⟨key, data, s, hrun, hvalid rfl⟩

/-- A template for AES keys of a length that AES does not have. -/
def oddTemplate : List Attribute := [.ofNumber .keyType KeyType.aes.val, .ofNumber .valueLen 17]

def oddEncapsulator : Encapsulator := { twosEncapsulator with template := some ⟨.aes, some 17, []⟩ }

/-- Agreement over X25519 gives an AES key of 17 bytes, which is not valid. -/
theorem encapsulates_invalid :
    ∃ e₀ e key data s, Registry.full.encapsulator ⟨.ecdh1Derive, plainParams⟩ twosPublicObject = .ok e₀ ∧
      e₀.init oddTemplate = .ok e ∧ (e.encapsulate twosPublicObject).on ones = (.ok (key, data), s) ∧
      key.validate ≠ .ok () := by
  have hi : (Encapsulator.init { twosEncapsulator with template := none } oddTemplate).toOption =
      some oddEncapsulator := by decide +kernel
  have hrun : ((oddEncapsulator.encapsulate twosPublicObject).on ones).1.toOption.map
      (fun r => r.1.validate.toOption) = some none := by decide +kernel
  obtain ⟨⟨key, data⟩, hrun, hinvalid⟩ := Option.map_eq_some_iff.1 hrun
  refine ⟨_, _, key, data, _, twos_run.1, Except.ok_of_toOption hi, Draw.on_of_toOption hrun, fun hvalid => ?_⟩
  rw [hvalid] at hinvalid
  cases hinvalid

end Encapsulator

end SoftToken
