import Mathlib.NumberTheory.LucasLehmer
import SoftToken.Proofs.Attributes
import SoftToken.Proofs.KeyKinds
import SoftToken.Proofs.PointEncoding
import SoftToken.Proofs.RsaEncryption
import SoftToken.Proofs.RsaInverse
import SoftToken.Registry
/-!
# Encapsulated secrets are recovered

`Registry.encapsulate_decapsulate`: the owner of the private key recovers the secret key that was
encapsulated to the public one. Both sides make the key from the same secret by the same template, so
that it is enough to recover the secret (`Encapsulator.recover_draw`). What is relied on of the
primitives stands in the pairs of keys: `MlKemPair`, `RsaPair` and `AgreementPair`.
-/

namespace SoftToken

/-! ## Pairs of keys -/

/-- An ML-KEM key pair. On the bytes drawn, a ciphertext has the length of the set and opens to its secret. -/
structure MlKemPair (pub priv : SetKey) (t : RandomSource) : Prop where
  set : priv.parameterSet = pub.parameterSet
  length : ∀ P sizes, Encapsulator.mlKemSet pub.parameterSet = .ok (P, sizes) →
    priv.value.length = sizes.privateKey
  inverts : ∀ P sizes secret data t', Encapsulator.mlKemSet pub.parameterSet = .ok (P, sizes) →
    (MlKem.encapsulate P pub.value).on t = (.ok (secret, data), t') →
      data.length = sizes.output ∧ MlKem.decapsulate P priv.value data = .ok secret

/-- An RSA key pair: the same numbers on both sides, and a private operation that takes back the
public one. -/
structure RsaPair (pub : RsaPublicKey) (priv : RsaPrivateKey) : Prop where
  keys : ∃ k k', Rsa.Key.ofPublic pub = .ok k ∧ Rsa.Key.ofPrivate priv = .ok k' ∧ k'.n = k.n ∧ k'.e = k.e ∧
    k'.Inverts k

/-- A key pair for agreement. With the pair drawn from the source, both sides agree on one value. -/
structure AgreementPair (f : CurveFamily) (pub : EcPublicKey) (priv : EcPrivateKey) (t : RandomSource) : Prop where
  curve : priv.curve = pub.curve
  commutes : ∀ value point shared t', (f.drawKeyPair pub.curve).on t = (.ok (value, point), t') →
    f.agree pub.curve value pub.point = .ok shared → f.agree pub.curve priv.value point = .ok shared

/-- Two key objects that belong together for a scheme. -/
def EncapsulationScheme.Matched (s : EncapsulationScheme) (pub priv : Object) (t : RandomSource) : Prop :=
  match s with
  | .mlKem => ∃ v w, SetKey.ofPublic .mlKem pub = .ok v ∧ SetKey.ofPrivate .mlKem priv = .ok w ∧ MlKemPair v w t
  | .rsa _ => ∃ v w, RsaPublicKey.ofObject pub = .ok v ∧ RsaPrivateKey.ofObject priv = .ok w ∧ RsaPair v w
  | .agreement f _ _ => ∃ v w, EcPublicKey.ofObject pub f.keyType = .ok v ∧
      EcPrivateKey.ofObject priv f.keyType = .ok w ∧ AgreementPair f v w t

namespace Encapsulator

variable {e : Encapsulator} {pub priv : Object} {t t' : RandomSource} {secret data : Bytes}

/-! ## RSA -/

theorem rsaPublic_ok {v : RsaPublicKey} (h : e.rsaPublic pub = .ok v) : RsaPublicKey.ofObject pub = .ok v := by
  obtain ⟨_, -, h⟩ := Except.bind_ok.1 h
  exact h

theorem rsaPrivate_of_view {w : RsaPrivateKey} (hw : RsaPrivateKey.ofObject priv = .ok w)
    (hf : priv.flag .decapsulate false = true) : e.rsaPrivate priv = .ok w := by
  unfold rsaPrivate
  rw [Object.bind_of_kind (RsaPrivateKey.kind_of_ofObject hw) rfl hf]
  exact hw

theorem recover_rsa {padding : Rsa.Padding} (hs : e.scheme = .rsa padding) (hm : e.scheme.Matched pub priv t)
    (hf : priv.flag .decapsulate false = true) {template : SecretTemplate} (ht : e.template = some template)
    (hmin : 1 ≤ template.minimalLength) (h : (e.encapsulateRsa padding pub).on t = (.ok (secret, data), t')) :
    e.recoverRsa padding priv data = .ok secret := by
  rw [hs] at hm
  obtain ⟨v, w, hv, hw, ⟨k, k', hk, hk', hn, he, hinv⟩⟩ := hm
  unfold encapsulateRsa at h
  obtain ⟨v', hv', h⟩ := Draw.bind_lift_ok.1 h
  obtain rfl : v = v' := by simpa [hv] using rsaPublic_ok hv'
  obtain ⟨k₁, hk₁, h⟩ := Draw.bind_lift_ok.1 h
  obtain rfl : k = k₁ := by simpa [hk] using hk₁
  obtain ⟨template', ht', h⟩ := Draw.bind_lift_ok.1 h
  obtain rfl : template = template' := by simpa [requireTemplate, ht, SecretTemplate.require] using ht'
  simp only at h
  split at h
  case isTrue => cases h
  case isFalse hmax =>
    obtain ⟨drawn, t₁, hd, h⟩ := Draw.bind_ok.1 h
    obtain ⟨c, t₂, hc, h⟩ := Draw.bind_ok.1 h
    cases h
    have hne : 0 < secret.length := by rw [Draw.length_of_request hd]; exact hmin
    have hdec := Rsa.decrypt_encrypt (Rsa.Key.public_ok hk) hn hinv hne hc
    unfold recoverRsa
    rw [rsaPrivate_of_view hw hf, ht']
    simp only [hk', hdec, Except.ok_bind]
    rfl

/-! ## ML-KEM -/

theorem mlKemPublic_ok {v : SetKey} (h : e.mlKemPublic pub = .ok v) : SetKey.ofPublic .mlKem pub = .ok v := by
  obtain ⟨_, -, h⟩ := Except.bind_ok.1 h
  exact h

theorem mlKemPrivate_of_view {w : SetKey} (hw : SetKey.ofPrivate .mlKem priv = .ok w)
    (hf : priv.flag .decapsulate false = true) : e.mlKemPrivate priv = .ok w := by
  unfold mlKemPrivate
  rw [Object.bind_of_kind (SetKey.kind_of_ofPrivate hw) rfl hf]
  exact hw

theorem recover_mlKem (hs : e.scheme = .mlKem) (hm : e.scheme.Matched pub priv t)
    (hf : priv.flag .decapsulate false = true) {template : SecretTemplate} (ht : e.template = some template)
    (h : (e.encapsulateMlKem pub).on t = (.ok (secret, data), t')) : e.recoverMlKem priv data = .ok secret := by
  rw [hs] at hm
  obtain ⟨v, w, hv, hw, hset, hlen, hinv⟩ := hm
  have ht' : e.requireTemplate = .ok template := by simp [requireTemplate, ht, SecretTemplate.require]
  unfold encapsulateMlKem at h
  obtain ⟨v', hv', h⟩ := Draw.bind_lift_ok.1 h
  obtain rfl : v = v' := by simpa [hv] using mlKemPublic_ok hv'
  rw [ht'] at h
  obtain ⟨⟨P, sizes⟩, hP, h⟩ := Draw.bind_lift_ok.1 h
  obtain ⟨_, -, h⟩ := Draw.bind_lift_ok.1 h
  obtain ⟨hd, hdec⟩ := hinv P sizes _ _ _ hP h
  have hl : checkLength w.value sizes.privateKey = .ok () := if_pos (hlen P sizes hP)
  unfold recoverMlKem
  rw [mlKemPrivate_of_view hw hf, ht', Except.ok_bind, hset, hP]
  simp only [hd, hl, hdec, Except.ok_bind, ne_eq, not_true_eq_false, if_false]
  rfl

/-! ## Agreement -/

theorem agreementPublic_ok {f : CurveFamily} {v : EcPublicKey} (h : e.agreementPublic f pub = .ok v) :
    EcPublicKey.ofObject pub f.keyType = .ok v := by
  obtain ⟨_, -, h⟩ := Except.bind_ok.1 h
  exact h

/-- A private key that is read for a family is of the family's kind. -/
theorem kind_of_ecPrivate {f : CurveFamily} {w : EcPrivateKey} (h : EcPrivateKey.ofObject priv f.keyType = .ok w) :
    ∃ k, priv.kind = .ok k ∧ f.isPrivate k = true := by
  obtain ⟨k, c, hk, ht, hc⟩ := EcPrivateKey.kind_of_ofObject h
  refine ⟨k, hk, ?_⟩
  rcases hc with rfl | rfl | rfl
  · replace ht : KeyType.ec = f.keyType := ht
    cases f with
    | prime => rfl
    | montgomery => exact absurd ht (by decide)
  · replace ht : KeyType.ecEdwards = f.keyType := ht
    cases f with
    | prime => exact absurd ht (by decide)
    | montgomery => exact absurd ht (by decide)
  · replace ht : KeyType.ecMontgomery = f.keyType := ht
    cases f with
    | prime => exact absurd ht (by decide)
    | montgomery => rfl

theorem agreementPrivate_of_view {f : CurveFamily} {w : EcPrivateKey}
    (hw : EcPrivateKey.ofObject priv f.keyType = .ok w) (hf : priv.flag .decapsulate false = true) :
    e.agreementPrivate f priv = .ok w := by
  obtain ⟨k, hk, ha⟩ := kind_of_ecPrivate hw
  unfold agreementPrivate
  rw [Object.bind_of_kind hk ha hf]
  exact hw

/-- A drawn point has the size of the curve's points. -/
theorem length_drawnPoint {f : CurveFamily} {c : Curve} {value point : Bytes}
    (h : (f.drawKeyPair c).on t = (.ok (value, point), t')) : point.length = c.pointSize := by
  unfold CurveFamily.drawKeyPair at h
  cases f with
  | prime =>
    simp only at h
    split at h
    · next p hp =>
      obtain ⟨d, t₁, -, h⟩ := Draw.bind_ok.1 h
      cases h
      have hl : (p.encode (p.mul d p.base)).length = p.size + p.size + 1 := by simp [PrimeCurve.encode]
      rw [hl]
      cases c <;> cases hp <;> rfl
    · cases h
  | montgomery =>
    simp only at h
    split at h
    · next m hm =>
      obtain ⟨d, t₁, -, h⟩ := Draw.bind_ok.1 h
      cases h
      have hl : (m.publicValue value).length = m.size := by simp [Montgomery.publicValue]
      rw [hl]
      cases c <;> cases hm <;> rfl
    · cases h

theorem recover_agreement {f : CurveFamily} {kdf : AgreementKdf} {params : AgreementParams}
    (hs : e.scheme = .agreement f kdf params) (hm : e.scheme.Matched pub priv t)
    (hf : priv.flag .decapsulate false = true)
    (h : (e.encapsulateAgreement f kdf params pub).on t = (.ok (secret, data), t')) :
    e.recoverAgreement f kdf params priv data = .ok secret := by
  rw [hs] at hm
  obtain ⟨v, w, hv, hw, hcurve, hcomm⟩ := hm
  unfold encapsulateAgreement at h
  obtain ⟨_, hpeer, h⟩ := Draw.bind_lift_ok.1 h
  obtain ⟨v', hv', h⟩ := Draw.bind_lift_ok.1 h
  obtain rfl : v = v' := by simpa [hv] using agreementPublic_ok hv'
  obtain ⟨template, ht, h⟩ := Draw.bind_lift_ok.1 h
  obtain ⟨⟨value, point⟩, t₁, hd, h⟩ := Draw.bind_ok.1 h
  obtain ⟨shared, hshared, h⟩ := Draw.bind_lift_ok.1 h
  obtain ⟨derived, hderived, h⟩ := Draw.bind_liftFailure_ok.1 h
  cases h
  have hback := Curve.decodePoint_encodePoint (length_drawnPoint hd)
  have hagree := hcomm value point shared _ hd hshared
  unfold recoverAgreement
  simp only [hpeer, agreementPrivate_of_view hw hf, hcurve, hback, ht, hagree, hderived, Except.liftM_ok, Except.ok_bind]

/-! ## The secret key -/

/-- The secret that is drawn for the public key is recovered with the private one. -/
theorem recover_draw (hm : e.scheme.Matched pub priv t) (hf : priv.flag .decapsulate false = true)
    {template : SecretTemplate} (ht : e.template = some template) (hmin : 1 ≤ template.minimalLength)
    (h : (e.drawSecret pub).on t = (.ok (secret, data), t')) : e.recoverSecret priv data = .ok secret := by
  unfold drawSecret at h
  unfold recoverSecret
  cases hs : e.scheme with
  | mlKem => rw [hs] at h; exact Except.lift_ok.2 (recover_mlKem hs hm hf ht h)
  | rsa padding => rw [hs] at h; exact Except.lift_ok.2 (recover_rsa hs hm hf ht hmin h)
  | agreement f kdf params => rw [hs] at h; exact recover_agreement hs hm hf h

theorem getBytes_recompute {o o' : Object} (h : o.recompute = .ok o') : ∃ v, o'.getBytes .value = .ok v := by
  obtain ⟨n, -, h⟩ := Except.bind_ok.1 h
  obtain ⟨v, hv, h⟩ := Except.bind_ok.1 h
  cases h
  refine ⟨v, Object.getBytes_ok.2 ?_⟩
  rw [Object.value_put_ne _ (show AttributeId.checkValue ≠ .value by decide),
    Object.value_put_ne _ (show AttributeId.valueLen ≠ .value by decide)]
  exact Object.getBytes_ok.1 hv

/-- The key of a secret has a value. -/
theorem getBytes_secretKey {o : Object} (h : e.secretKey secret = .ok o) : ∃ v, o.getBytes .value = .ok v := by
  obtain ⟨template, -, h⟩ := Except.bind_ok.1 h
  obtain ⟨o', -, h⟩ := Except.bind_ok.1 h
  exact getBytes_recompute h

theorem encapsulate_ok {o : Object} (h : (e.encapsulate pub).on t = (.ok (o, data), t')) :
    ∃ secret, (e.drawSecret pub).on t = (.ok (secret, data), t') ∧ e.secretKey secret = .ok o := by
  obtain ⟨⟨secret, data'⟩, t₁, hd, h⟩ := Draw.bind_ok.1 h
  obtain ⟨o', ho, h⟩ := Draw.bind_lift_ok.1 h
  cases h
  exact ⟨secret, hd, ho⟩

theorem decapsulate_ok {o : Object} : e.decapsulate priv data = .ok o ↔
    ∃ secret, e.recoverSecret priv data = .ok secret ∧ e.secretKey secret = .ok o := by
  unfold decapsulate
  rw [Except.bind_ok]
  exact exists_congr fun secret => and_congr_right fun _ => Except.lift_ok

theorem init_ok {e₀ : Encapsulator} {attributes : List Attribute} {template : SecretTemplate}
    (ht : SecretTemplate.ofAttributes attributes = .ok template) (h : e₀.init attributes = .ok e) :
    e.template = some template ∧ e.scheme = e₀.scheme := by
  obtain ⟨template', ht', h⟩ := Except.bind_ok.1 h
  obtain rfl : template = template' := by simpa [ht] using ht'
  cases h
  exact ⟨rfl, rfl⟩

end Encapsulator

/-- Keys that belong together have the same type. -/
theorem EncapsulationScheme.Matched.keyType {s : EncapsulationScheme} {pub priv : Object} {t : RandomSource}
    (h : s.Matched pub priv t) : priv.getNumber .keyType = pub.getNumber .keyType := by
  cases s with
  | mlKem =>
    obtain ⟨v, w, hv, hw, -⟩ := h
    rw [(Object.kind_ok (SetKey.kind_of_ofPublic hv)).1, (Object.kind_ok (SetKey.kind_of_ofPrivate hw)).1]
    rfl
  | rsa padding =>
    obtain ⟨v, w, hv, hw, -⟩ := h
    rw [(Object.kind_ok (RsaPublicKey.kind_of_ofObject hv)).1, (Object.kind_ok (RsaPrivateKey.kind_of_ofObject hw)).1]
    rfl
  | agreement f kdf params =>
    obtain ⟨v, w, hv, hw, -⟩ := h
    obtain ⟨k, c, hk, ht, -⟩ := EcPublicKey.kind_of_ofObject hv
    obtain ⟨k', c', hk', ht', -⟩ := EcPrivateKey.kind_of_ofObject hw
    rw [(Object.kind_ok hk).1, (Object.kind_ok hk').1, ht, ht']

/-- What is encapsulated to the public key is recovered with the private one: by the same mechanism and
template, the two secret keys have one value and agree in every attribute but the unique identifier. -/
theorem Registry.encapsulate_decapsulate {g : Registry} {m : Mechanism} {pub priv : Object}
    {attributes : List Attribute} {template : SecretTemplate} {e₀ e : Encapsulator} {t t' : RandomSource}
    {key : Object} {data : Bytes} (he₀ : g.encapsulator m pub = .ok e₀) (he : e₀.init attributes = .ok e)
    (ht : SecretTemplate.ofAttributes attributes = .ok template) (hmin : 1 ≤ template.minimalLength)
    (hm : e.scheme.Matched pub priv t) (hf : priv.flag .decapsulate false = true)
    (h : (e.encapsulate pub).on t = (.ok (key, data), t')) :
    ∃ d₀ d recovered, g.encapsulator m priv = .ok d₀ ∧ d₀.init attributes = .ok d ∧
      d.decapsulate priv data = .ok recovered ∧
      (∃ v, key.getBytes .value = .ok v ∧ recovered.getBytes .value = .ok v) ∧
      ∀ id, id ≠ .uniqueId → recovered.value? id = key.value? id := by
  obtain ⟨secret, hd, hkey⟩ := Encapsulator.encapsulate_ok h
  obtain ⟨htemplate, -⟩ := Encapsulator.init_ok ht he
  have hrec := Encapsulator.recover_draw hm hf htemplate hmin hd
  obtain ⟨v, hv⟩ := Encapsulator.getBytes_secretKey hkey
  have hpriv : g.encapsulator m priv = .ok e₀ := by
    unfold encapsulator at he₀ ⊢
    rw [hm.keyType]
    exact he₀
  exact ⟨e₀, e, key, hpriv, he, Encapsulator.decapsulate_ok.2 ⟨secret, hrec, hkey⟩, ⟨v, hv, hv⟩, fun _ _ => rfl⟩

/-! ## Two runs -/

/-- A secret key is encapsulated to the public key and recovered with the private one. -/
def Registry.Recovers (g : Registry) (m : Mechanism) (attributes : List Attribute) (pub priv : Object)
    (t : RandomSource) : Prop :=
  ∃ e₀ e key data t', g.encapsulator m pub = .ok e₀ ∧ e₀.init attributes = .ok e ∧
    (e.encapsulate pub).on t = (.ok (key, data), t') ∧
    ∃ d₀ d recovered, g.encapsulator m priv = .ok d₀ ∧ d₀.init attributes = .ok d ∧
      d.decapsulate priv data = .ok recovered ∧
      (∃ v, key.getBytes .value = .ok v ∧ recovered.getBytes .value = .ok v) ∧
      ∀ id, id ≠ .uniqueId → recovered.value? id = key.value? id

namespace Encapsulator

/-- What an evaluation says of a run. -/
theorem run_of_toOption {g : Registry} {m : Mechanism} {pub : Object} {attributes : List Attribute}
    {e₀ e : Encapsulator} {t : RandomSource} (h₀ : (g.encapsulator m pub).toOption = some e₀)
    (hi : (e₀.init attributes).toOption = some e) (hr : ((e.encapsulate pub).on t).1.toOption.isSome = true) :
    g.encapsulator m pub = .ok e₀ ∧ e₀.init attributes = .ok e ∧
      ∃ key data t', (e.encapsulate pub).on t = (.ok (key, data), t') := by
  obtain ⟨⟨key, data⟩, hr⟩ := Option.isSome_iff_exists.1 hr
  exact ⟨Except.ok_of_toOption h₀, Except.ok_of_toOption hi, key, data, _, Draw.on_of_toOption hr⟩

/-- A template for secrets of one byte. -/
def shortTemplate : List Attribute := [.ofNumber .valueLen 1]

theorem ofAttributes_shortTemplate :
    SecretTemplate.ofAttributes shortTemplate = .ok ⟨.genericSecret, some 1, []⟩ := rfl

/-- A tape of ones. -/
def ones : RandomSource := .tape fun _ => 1

/-- A key whose factors are Mersenne primes. -/
def mersennePublic : RsaPublicKey := ⟨[0x0f, 0xff, 0xff, 0xff, 0xdf, 0xff, 0xff, 0xff, 0x80, 0x00, 0x00, 0x01], [0x01, 0x00, 0x01]⟩

def mersennePrivate : RsaPrivateKey where
  modulus := mersennePublic.modulus
  publicExponent := mersennePublic.publicExponent
  privateExponent := [0x17, 0x77, 0x88, 0x88, 0x77, 0x77, 0x88, 0x87]
  prime1 := some [0x1f, 0xff, 0xff, 0xff, 0xff, 0xff, 0xff, 0xff]
  prime2 := some [0x7f, 0xff, 0xff, 0xff]

/-- The key objects, each with its usage. -/
def mersennePublicObject : Object := mersennePublic.toObject.put (.ofBool .encapsulate true)

def mersennePrivateObject : Object := mersennePrivate.toObject.put (.ofBool .decapsulate true)

def mersenneKey : Rsa.Key := ⟨(2 ^ 61 - 1) * (2 ^ 31 - 1), 0x10001, some ⟨0x1777888877778887, 2 ^ 61 - 1, 2 ^ 31 - 1⟩⟩

theorem mersenne_private : Rsa.Key.ofPrivate mersennePrivate = .ok mersenneKey := by
  have h : (Rsa.Key.ofPrivate mersennePrivate).toOption = some mersenneKey := by decide +kernel
  exact Except.ok_of_toOption h

theorem mersenne_inverts : mersenneKey.Inverts { mersenneKey with secret := none } := by
  obtain ⟨s, hs⟩ := Rsa.Key.private_ok mersenne_private
  obtain rfl : ⟨0x1777888877778887, 2 ^ 61 - 1, 2 ^ 31 - 1⟩ = s := Option.some.inj hs.secret
  have hp : Nat.Prime (mersenne 61) := lucas_lehmer_sufficiency 61 (by norm_num) (by norm_num)
  have hq : Nat.Prime (mersenne 31) := lucas_lehmer_sufficiency 31 (by norm_num) (by norm_num)
  exact Rsa.Key.inverts_of_prime hs hp hq (by decide)

def mersenneEncapsulator : Encapsulator :=
  { mechanism := .rsaPkcs, scheme := .rsa .pkcs1, template := some ⟨.genericSecret, some 1, []⟩ }

theorem mersenne_matched : mersenneEncapsulator.scheme.Matched mersennePublicObject mersennePrivateObject ones := by
  have hv : RsaPublicKey.ofObject mersennePublicObject = .ok mersennePublic := rfl
  have hw : RsaPrivateKey.ofObject mersennePrivateObject = .ok mersennePrivate := rfl
  have hk : Rsa.Key.ofPublic mersennePublic = .ok { mersenneKey with secret := none } := rfl
  exact ⟨_, _, hv, hw, ⟨_, _, hk, mersenne_private, rfl, rfl, mersenne_inverts⟩⟩

theorem mersenne_run :
    Registry.full.encapsulator ⟨.rsaPkcs, []⟩ mersennePublicObject = .ok { mersenneEncapsulator with template := none } ∧
      Encapsulator.init { mersenneEncapsulator with template := none } shortTemplate = .ok mersenneEncapsulator ∧
      ∃ key data t', (mersenneEncapsulator.encapsulate mersennePublicObject).on ones = (.ok (key, data), t') :=
  run_of_toOption (by decide +kernel) (by decide +kernel) (by decide +kernel)

/-- A key pair of X25519. -/
def twosPrivate : EcPrivateKey := ⟨.x25519, List.replicate 32 2⟩

def twosPublic : EcPublicKey := ⟨.x25519, Montgomery.x25519.publicValue twosPrivate.value⟩

def twosPublicObject : Object := twosPublic.toObject.put (.ofBool .encapsulate true)

def twosPrivateObject : Object := twosPrivate.toObject.put (.ofBool .decapsulate true)

/-- The wire form of an agreement without a derivation. -/
def plainParams : Bytes := [1, 0, 0, 0, 0, 0, 0, 0, 0, 0]

def twosEncapsulator : Encapsulator where
  mechanism := .ecdh1Derive
  scheme := .agreement .montgomery .null ⟨1, none, none⟩
  template := some ⟨.genericSecret, some 1, []⟩

/-- The keys agree with the pair that the tape of ones gives. -/
theorem twos_pair : AgreementPair .montgomery twosPublic twosPrivate ones where
  curve := rfl
  commutes := by
    intro value point shared t' hd ha
    have hdrawn : ((CurveFamily.montgomery.drawKeyPair .x25519).on ones).1.toOption =
        some (List.replicate 32 1, Montgomery.x25519.publicValue (List.replicate 32 1)) := by decide +kernel
    have hboth : (CurveFamily.montgomery.agree .x25519 (List.replicate 32 1) twosPublic.point).toOption =
        (CurveFamily.montgomery.agree .x25519 twosPrivate.value
          (Montgomery.x25519.publicValue (List.replicate 32 1))).toOption := by decide +kernel
    obtain ⟨h, -⟩ := Prod.mk.injEq .. ▸ hd.symm.trans (Draw.on_of_toOption hdrawn)
    cases h
    replace ha : CurveFamily.montgomery.agree .x25519 (List.replicate 32 1) twosPublic.point = .ok shared := ha
    rw [ha] at hboth
    exact Except.ok_of_toOption hboth.symm

theorem twos_matched : twosEncapsulator.scheme.Matched twosPublicObject twosPrivateObject ones := by
  have hv : (EcPublicKey.ofObject twosPublicObject .ecMontgomery).toOption = some twosPublic := by decide +kernel
  have hw : (EcPrivateKey.ofObject twosPrivateObject .ecMontgomery).toOption = some twosPrivate := by decide +kernel
  exact ⟨_, _, Except.ok_of_toOption hv, Except.ok_of_toOption hw, twos_pair⟩

theorem twos_run :
    Registry.full.encapsulator ⟨.ecdh1Derive, plainParams⟩ twosPublicObject = .ok { twosEncapsulator with template := none } ∧
      Encapsulator.init { twosEncapsulator with template := none } shortTemplate = .ok twosEncapsulator ∧
      ∃ key data t', (twosEncapsulator.encapsulate twosPublicObject).on ones = (.ok (key, data), t') :=
  run_of_toOption (by decide +kernel) (by decide +kernel) (by decide +kernel)

end Encapsulator

open Encapsulator in
/-- A byte is recovered by RSA and by agreement over X25519. -/
theorem Registry.encapsulate_decapsulate_runs :
    full.Recovers ⟨.rsaPkcs, []⟩ shortTemplate mersennePublicObject mersennePrivateObject ones ∧
      full.Recovers ⟨.ecdh1Derive, plainParams⟩ shortTemplate twosPublicObject twosPrivateObject ones := by
  have hf : mersennePrivateObject.flag .decapsulate false = true := by decide +kernel
  have hf' : twosPrivateObject.flag .decapsulate false = true := by decide +kernel
  obtain ⟨h₀, hi, key, data, t', hrun⟩ := mersenne_run
  obtain ⟨h₀', hi', key', data', t'', hrun'⟩ := twos_run
  exact ⟨⟨_, _, key, data, t', h₀, hi, hrun,
      encapsulate_decapsulate h₀ hi ofAttributes_shortTemplate (by decide) mersenne_matched hf hrun⟩,
    ⟨_, _, key', data', t'', h₀', hi', hrun',
      encapsulate_decapsulate h₀' hi' ofAttributes_shortTemplate (by decide) twos_matched hf' hrun'⟩⟩

end SoftToken
