import SoftToken.Proofs.KeyErrors
import SoftToken.Proofs.KeyKinds
import SoftToken.Proofs.PointDecoding
/-!
# Which keys are valid

`Object.HasMaterial` lists what a key of a class and a type has to hold. The check of a key object reads its kind
first and then a view of that kind, so that what it asks for is spread over both. `Object.validates_iff` says that it
accepts exactly the objects with a key type and the material of their class and type, and that nothing but the value
of an attribute is ever found wrong with the others.
-/

namespace SoftToken

/-! ## Lengths that are never zero -/

/-- The keys of a parameter set are not empty. -/
theorem ParameterFamily.sizes_pos {f : ParameterFamily} {set : UInt64} {sizes : ParameterSizes}
    (h : f.sizes? set = some sizes) : 0 < sizes.publicKey ∧ 0 < sizes.privateKey := by
  have hrows : ∀ row ∈ f.sets, 0 < row.2.publicKey ∧ 0 < row.2.privateKey := by cases f <;> decide
  obtain ⟨before, after, hsets, -⟩ := List.lookup_eq_some_iff.1 h
  apply hrows (set, sizes)
  rw [hsets]
  exact List.mem_append_right _ List.mem_cons_self

/-- No type allows an empty secret. -/
theorem KeyType.not_allowsLength_zero (t : KeyType) : ¬ t.allowsLength 0 = true := by
  intro h
  obtain ⟨hfixed, hfit⟩ := allowsLength_iff.1 h
  apply hfit
  cases hblock : t.isBlockCipher with
  | true => exact .inl ⟨hblock, by decide⟩
  | false =>
    refine .inr ⟨hblock, ?_, rfl⟩
    cases hlength : t.secretLength? with
    | none => rfl
    | some required =>
      have hrows : ∀ row ∈ fixedLengths, row.2 ≠ 0 := by decide
      obtain ⟨before, after, htable, -⟩ := List.lookup_eq_some_iff.1 hlength
      refine absurd (hfixed required hlength) (hrows (t, required) ?_)
      rw [htable]
      exact List.mem_append_right _ List.mem_cons_self

/-- The empty string is no point. -/
theorem Curve.decodePoint_nil (c : Curve) (p : Bytes) : c.decodePoint [] ≠ .ok p := by
  intro h
  obtain ⟨hsize, ⟨rfl, -⟩ | hd⟩ := decodePoint_ok_iff.1 h
  · revert hsize
    cases c <;> decide
  · cases hd

namespace Object

variable {o : Object} {id : AttributeId} {c : Curve} {f : ParameterFamily} {t : KeyType}

/-! ## Valid objects -/

/-- The object holds a byte string that is not empty. -/
def Holds (o : Object) (id : AttributeId) : Prop := ∃ b, o.value? id = some (.bytes b) ∧ b ≠ []

/-- The object holds what a key of a class and a type needs. -/
inductive HasMaterial (o : Object) : ObjectClass → KeyType → Prop
  | secret {t : KeyType} {v : Bytes} (ht : t.isSecret = true) (hv : o.value? .value = some (.bytes v))
    (hlength : t.allowsLength v.length = true) : HasMaterial o .secretKey t
  | rsaPublic (hmodulus : o.Holds .modulus) (hexponent : o.Holds .publicExponent) : HasMaterial o .publicKey .rsa
  | rsaPrivate (hmodulus : o.Holds .modulus) (hexponent : o.Holds .publicExponent)
    (hsecret : o.Holds .privateExponent) : HasMaterial o .privateKey .rsa
  | curvePublic {c : Curve} {b p : Bytes} (hc : o.NamesCurve c) (hb : o.value? .ecPoint = some (.bytes b))
    (hpoint : c.decodePoint b = .ok p) : HasMaterial o .publicKey c.keyType
  | curvePrivate {c : Curve} {v : Bytes} (hc : o.NamesCurve c) (hv : o.value? .value = some (.bytes v)) (hne : v ≠ [])
    (hlength : v.length ≤ c.keySize) : HasMaterial o .privateKey c.keyType
  | setPublic {f : ParameterFamily} {set : UInt64} {sizes : ParameterSizes} {v : Bytes}
    (hset : o.value? .parameterSet = some (.number set)) (hsizes : f.sizes? set = some sizes)
    (hv : o.value? .value = some (.bytes v)) (hlength : v.length = sizes.publicKey) : HasMaterial o .publicKey f.keyType
  | setPrivate {f : ParameterFamily} {set : UInt64} {sizes : ParameterSizes} {v : Bytes}
    (hset : o.value? .parameterSet = some (.number set)) (hsizes : f.sizes? set = some sizes)
    (hv : o.value? .value = some (.bytes v)) (hlength : v.length = sizes.privateKey) :
    HasMaterial o .privateKey f.keyType

/-- The object has a key type, and what a key of its class and this type needs. -/
def Valid (o : Object) : Prop := ∃ t : KeyType, o.value? .keyType = some (.number t.val) ∧ o.HasMaterial o.cls t

/-! ## The check of each kind -/

theorem validate_eq_rsaPublic (hk : o.kind = .ok .rsaPublic) : o.validate = discard (RsaPublicKey.ofObject o) := by
  unfold validate
  rw [hk]

theorem validate_eq_rsaPrivate (hk : o.kind = .ok .rsaPrivate) : o.validate = discard (RsaPrivateKey.ofObject o) := by
  unfold validate
  rw [hk]

theorem validate_eq_curvePublic (hk : o.kind = .ok c.publicKind) :
    o.validate = discard (EcPublicKey.ofObject o c.keyType) := by
  unfold validate
  rw [hk]
  cases c <;> rfl

theorem validate_eq_curvePrivate (hk : o.kind = .ok c.privateKind) :
    o.validate = discard (EcPrivateKey.ofObject o c.keyType) := by
  unfold validate
  rw [hk]
  cases c <;> rfl

theorem validate_eq_setPublic (hk : o.kind = .ok f.publicKind) : o.validate = o.validateSet f (·.publicKey) := by
  unfold validate
  rw [hk]
  cases f <;> rfl

theorem validate_eq_setPrivate (hk : o.kind = .ok f.privateKind) : o.validate = o.validateSet f (·.privateKey) := by
  unfold validate
  rw [hk]
  cases f <;> rfl

/-! ## What the check asks for -/

theorem exists_requireBytes : (∃ b, o.requireBytes id = .ok b) ↔ o.Holds id := by
  simp only [requireBytes_ok, getBytes_ok]
  rfl

theorem validate_rsaPublic (hk : o.kind = .ok .rsaPublic) :
    o.validate = .ok () ↔ o.Holds .modulus ∧ o.Holds .publicExponent := by
  rw [validate_eq_rsaPublic hk, Except.discard_ok, ← exists_requireBytes, ← exists_requireBytes]
  constructor
  · rintro ⟨v, hv⟩
    obtain ⟨-, hmodulus, hexponent⟩ := RsaPublicKey.ofObject_ok.1 hv
    exact ⟨⟨_, hmodulus⟩, ⟨_, hexponent⟩⟩
  · rintro ⟨⟨modulus, hmodulus⟩, exponent, hexponent⟩
    exact ⟨⟨modulus, exponent⟩, RsaPublicKey.ofObject_ok.2 ⟨hk, hmodulus, hexponent⟩⟩

theorem validate_rsaPrivate (hk : o.kind = .ok .rsaPrivate) :
    o.validate = .ok () ↔ o.Holds .modulus ∧ o.Holds .publicExponent ∧ o.Holds .privateExponent := by
  rw [validate_eq_rsaPrivate hk, Except.discard_ok, ← exists_requireBytes, ← exists_requireBytes, ← exists_requireBytes]
  constructor
  · rintro ⟨v, hv⟩
    obtain ⟨-, hmodulus, hexponent, hsecret, -⟩ := RsaPrivateKey.ofObject_ok.1 hv
    exact ⟨⟨_, hmodulus⟩, ⟨_, hexponent⟩, ⟨_, hsecret⟩⟩
  · rintro ⟨⟨modulus, hmodulus⟩, ⟨exponent, hexponent⟩, secret, hsecret⟩
    exact ⟨⟨modulus, exponent, secret, _, _⟩, RsaPrivateKey.ofObject_ok.2 ⟨hk, hmodulus, hexponent, hsecret, rfl, rfl⟩⟩

theorem validate_curvePublic (hk : o.kind = .ok c.publicKind) :
    o.validate = .ok () ↔ ∃ b p, o.value? .ecPoint = some (.bytes b) ∧ c.decodePoint b = .ok p := by
  rw [validate_eq_curvePublic hk, Except.discard_ok]
  constructor
  · rintro ⟨v, hv⟩
    obtain ⟨-, hk', b, hb, hpoint⟩ := EcPublicKey.ofObject_ok.1 hv
    have hcurve := congrArg KeyKind.curve? (Except.ok.inj (hk.symm.trans hk'))
    rw [c.curve?_publicKind, v.curve.curve?_publicKind] at hcurve
    cases hcurve
    exact ⟨b, _, getBytes_ok.1 (requireBytes_ok.1 hb).1, hpoint⟩
  · rintro ⟨b, p, hb, hpoint⟩
    have hne : b ≠ [] := by
      rintro rfl
      exact c.decodePoint_nil p hpoint
    have hrequire := requireBytes_ok.2 ⟨getBytes_ok.2 hb, hne⟩
    exact ⟨⟨c, p⟩, EcPublicKey.ofObject_ok.2 ⟨rfl, hk, b, hrequire, hpoint⟩⟩

theorem validate_curvePrivate (hk : o.kind = .ok c.privateKind) :
    o.validate = .ok () ↔ ∃ v, o.value? .value = some (.bytes v) ∧ v ≠ [] ∧ v.length ≤ c.keySize := by
  rw [validate_eq_curvePrivate hk, Except.discard_ok]
  constructor
  · rintro ⟨v, hv⟩
    obtain ⟨-, hk', b, hb, hlength, -⟩ := EcPrivateKey.ofObject_ok.1 hv
    have hcurve := congrArg KeyKind.curve? (Except.ok.inj (hk.symm.trans hk'))
    rw [c.curve?_privateKind, v.curve.curve?_privateKind] at hcurve
    cases hcurve
    obtain ⟨hb, hne⟩ := requireBytes_ok.1 hb
    exact ⟨b, getBytes_ok.1 hb, hne, hlength⟩
  · rintro ⟨v, hv, hne, hlength⟩
    have hrequire := requireBytes_ok.2 ⟨getBytes_ok.2 hv, hne⟩
    exact ⟨⟨c, v.padLeft c.keySize⟩, EcPrivateKey.ofObject_ok.2 ⟨rfl, hk, v, hrequire, hlength, rfl⟩⟩

theorem validateSet_ok {size : ParameterSizes → Nat} (hpos : ∀ set sizes, f.sizes? set = some sizes → 0 < size sizes) :
    o.validateSet f size = .ok () ↔ ∃ set sizes v, o.value? .parameterSet = some (.number set) ∧
      f.sizes? set = some sizes ∧ o.value? .value = some (.bytes v) ∧ v.length = size sizes := by
  constructor
  · intro h
    obtain ⟨set, hset, h⟩ := Except.bind_ok.1 h
    split at h
    · cases h
    · next sizes hsizes =>
      obtain ⟨v, hv, h⟩ := Except.bind_ok.1 h
      obtain ⟨hlength, -⟩ := Except.ite_refuse_ok.1 h
      have hbytes := getBytes_ok.1 (requireBytes_ok.1 hv).1
      exact ⟨set, sizes, v, getNumber_ok.1 (requireNumber_ok.1 hset), hsizes, hbytes, hlength⟩
  · rintro ⟨set, sizes, v, hset, hsizes, hv, hlength⟩
    have hne : v ≠ [] := by
      rintro rfl
      exact absurd hlength (Nat.ne_of_lt (hpos set sizes hsizes))
    refine Except.bind_ok.2 ⟨set, requireNumber_ok.2 (getNumber_ok.2 hset), ?_⟩
    rw [hsizes]
    exact Except.bind_ok.2 ⟨v, requireBytes_ok.2 ⟨getBytes_ok.2 hv, hne⟩, if_pos hlength⟩

/-- The check of a key with a parameter set reads two attributes. -/
theorem validateSet_congr {o' : Object} {size : ParameterSizes → Nat}
    (hset : o.requireNumber .parameterSet = o'.requireNumber .parameterSet)
    (hvalue : o.requireBytes .value = o'.requireBytes .value) : o.validateSet f size = o'.validateSet f size := by
  unfold validateSet
  rw [hset, hvalue]

theorem validate_setPublic (hk : o.kind = .ok f.publicKind) :
    o.validate = .ok () ↔ ∃ set sizes v, o.value? .parameterSet = some (.number set) ∧
      f.sizes? set = some sizes ∧ o.value? .value = some (.bytes v) ∧ v.length = sizes.publicKey := by
  rw [validate_eq_setPublic hk, validateSet_ok fun _ _ h => (ParameterFamily.sizes_pos h).1]

theorem validate_setPrivate (hk : o.kind = .ok f.privateKind) :
    o.validate = .ok () ↔ ∃ set sizes v, o.value? .parameterSet = some (.number set) ∧
      f.sizes? set = some sizes ∧ o.value? .value = some (.bytes v) ∧ v.length = sizes.privateKey := by
  rw [validate_eq_setPrivate hk, validateSet_ok fun _ _ h => (ParameterFamily.sizes_pos h).2]

theorem validate_secret (hk : o.kind = .ok (.secret t)) :
    o.validate = .ok () ↔ ∃ v, o.value? .value = some (.bytes v) ∧ t.allowsLength v.length = true := by
  unfold validate
  rw [hk]
  simp only [← getBytes_ok]
  cases o.getBytes .value with
  | error e =>
    -- a missing value counts as an empty one, which no type allows
    refine iff_of_false (fun h => ?_) nofun
    exact t.not_allowsLength_zero (Except.ite_refuse_ok.1 h).1
  | ok v =>
    constructor
    · intro h
      exact ⟨v, rfl, (Except.ite_refuse_ok.1 h).1⟩
    · rintro ⟨_, ⟨⟩, hlength⟩
      exact if_pos hlength

/-! ## Both directions -/

/-- A public key over a curve, by whatever kind of public keys over it. -/
theorem hasMaterial_curvePublic {k : KeyKind} (hk : o.kind = .ok k) (hcls : k.cls = .publicKey) (hc : k.curve? = some c)
    (h : o.validate = .ok ()) : o.HasMaterial .publicKey k.type := by
  obtain ⟨-, -, hcurve, -⟩ := kind_ok_iff.1 hk
  obtain ⟨hnames, ht⟩ := hcurve c hc
  rw [Curve.eq_publicKind hcls hc ht] at hk
  obtain ⟨b, p, hb, hpoint⟩ := (validate_curvePublic hk).1 h
  rw [← ht]
  exact .curvePublic hnames hb hpoint

/-- A private key over a curve, by whatever kind of private keys over it. -/
theorem hasMaterial_curvePrivate {k : KeyKind} (hk : o.kind = .ok k) (hcls : k.cls = .privateKey) (hc : k.curve? = some c)
    (h : o.validate = .ok ()) : o.HasMaterial .privateKey k.type := by
  obtain ⟨-, -, hcurve, -⟩ := kind_ok_iff.1 hk
  obtain ⟨hnames, ht⟩ := hcurve c hc
  rw [Curve.eq_privateKind hcls hc ht] at hk
  obtain ⟨v, hv, hne, hlength⟩ := (validate_curvePrivate hk).1 h
  rw [← ht]
  exact .curvePrivate hnames hv hne hlength

theorem hasMaterial_setPublic (hk : o.kind = .ok f.publicKind) (h : o.validate = .ok ()) :
    o.HasMaterial .publicKey f.keyType := by
  obtain ⟨set, sizes, v, hset, hsizes, hv, hlength⟩ := (validate_setPublic hk).1 h
  exact .setPublic hset hsizes hv hlength

theorem hasMaterial_setPrivate (hk : o.kind = .ok f.privateKind) (h : o.validate = .ok ()) :
    o.HasMaterial .privateKey f.keyType := by
  obtain ⟨set, sizes, v, hset, hsizes, hv, hlength⟩ := (validate_setPrivate hk).1 h
  exact .setPrivate hset hsizes hv hlength

theorem valid_of_validate (h : o.validate = .ok ()) : o.Valid := by
  cases hk : o.kind with
  | error e =>
    unfold validate at h
    rw [hk] at h
    cases h
  | ok k =>
    obtain ⟨hcls, hn, -, hsecret⟩ := kind_ok_iff.1 hk
    refine ⟨k.type, getNumber_ok.1 hn, ?_⟩
    rw [hcls]
    cases k with
    | rsaPublic =>
      obtain ⟨hmodulus, hexponent⟩ := (validate_rsaPublic hk).1 h
      exact .rsaPublic hmodulus hexponent
    | rsaPrivate =>
      obtain ⟨hmodulus, hexponent, hsecret⟩ := (validate_rsaPrivate hk).1 h
      exact .rsaPrivate hmodulus hexponent hsecret
    | ecPublic c | edwardsPublic c | montgomeryPublic c => exact hasMaterial_curvePublic hk rfl rfl h
    | ecPrivate c | edwardsPrivate c | montgomeryPrivate c => exact hasMaterial_curvePrivate hk rfl rfl h
    | mlKemPublic => exact hasMaterial_setPublic (f := .mlKem) hk h
    | mlDsaPublic => exact hasMaterial_setPublic (f := .mlDsa) hk h
    | slhDsaPublic => exact hasMaterial_setPublic (f := .slhDsa) hk h
    | mlKemPrivate => exact hasMaterial_setPrivate (f := .mlKem) hk h
    | mlDsaPrivate => exact hasMaterial_setPrivate (f := .mlDsa) hk h
    | slhDsaPrivate => exact hasMaterial_setPrivate (f := .slhDsa) hk h
    | secret t =>
      obtain ⟨v, hv, hlength⟩ := (validate_secret hk).1 h
      exact .secret (hsecret rfl) hv hlength

theorem validate_of_valid (h : o.Valid) : o.validate = .ok () := by
  obtain ⟨t, ht, hm⟩ := h
  have hn := getNumber_ok.2 ht
  generalize hcls : o.cls = cls at hm
  cases hm with
  | secret hs hv hlength =>
    have hk : o.kind = .ok (.secret t) := kind_ok_iff.2 ⟨hcls, hn, nofun, fun _ => hs⟩
    exact (validate_secret hk).2 ⟨_, hv, hlength⟩
  | rsaPublic hmodulus hexponent =>
    have hk : o.kind = .ok .rsaPublic := kind_of_curveless hcls hn rfl (by decide)
    exact (validate_rsaPublic hk).2 ⟨hmodulus, hexponent⟩
  | rsaPrivate hmodulus hexponent hsecret =>
    have hk : o.kind = .ok .rsaPrivate := kind_of_curveless hcls hn rfl (by decide)
    exact (validate_rsaPrivate hk).2 ⟨hmodulus, hexponent, hsecret⟩
  | curvePublic hc hb hpoint => exact (validate_curvePublic (kind_publicKind hcls hn hc)).2 ⟨_, _, hb, hpoint⟩
  | curvePrivate hc hv hne hlength =>
    exact (validate_curvePrivate (kind_privateKind hcls hn hc)).2 ⟨_, hv, hne, hlength⟩
  | setPublic hset hsizes hv hlength =>
    exact (validate_setPublic (kind_setPublic hcls hn)).2 ⟨_, _, _, hset, hsizes, hv, hlength⟩
  | setPrivate hset hsizes hv hlength =>
    exact (validate_setPrivate (kind_setPrivate hcls hn)).2 ⟨_, _, _, hset, hsizes, hv, hlength⟩

/-- A key object is accepted if and only if it has a key type and holds what a key of its class and type needs. Every
other object is refused with the code of an invalid attribute value, whatever the reason is. -/
theorem validates_iff (o : Object) :
    (o.validate = .ok () ↔ o.Valid) ∧
      (¬ o.Valid → ∃ e, o.validate = .error e ∧ e.code = .attributeValueInvalid) := by
  refine ⟨⟨valid_of_validate, validate_of_valid⟩, fun hinvalid => ?_⟩
  have hcode : Except.Avoids (· ≠ .attributeValueInvalid) o.validate := avoids_validate (by decide) o
  exact hcode.exists_error fun _ h => hinvalid (valid_of_validate h)

end Object
end SoftToken
