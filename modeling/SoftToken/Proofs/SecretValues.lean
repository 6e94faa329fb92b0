import SoftToken.Proofs.Exposure
import SoftToken.Proofs.SecretLengths
/-!
# The value of a new secret key

A secret becomes a key if the template reconciles it to a value. Decapsulation asks no more than that
(`Registry.decapsulate_value_iff`); derivation also checks that the type of the key allows the length of the
value (`Registry.derive_value_iff`).
-/

namespace SoftToken

/-! ## Building -/

namespace SecretTemplate

variable {t : SecretTemplate} {v : Bytes} {changed : List AttributeId} {o : Object} {as : List Attribute}

theorem Finishes.value (hr : t.Reads as) (hf : t.Finishes v changed o) (hvalue : .value ∉ changed) :
    o.getBytes .value = .ok v := by
  rw [Object.getBytes_ok, hf.alters.value _ (by simpa using ⟨by decide, by decide, hvalue⟩)]
  exact value_initialObject hr v

variable (hr : t.Reads as)
include hr

/-- The type and the value are there, so that what follows from them can be computed. -/
theorem recompute_total (ho : (t.initialObject v).Alters changed o) (hkey : .keyType ∉ changed)
    (hvalue : .value ∉ changed) : ∃ o', o.recompute = .ok o' := by
  have hn : o.getNumber .keyType = .ok t.type.val := by
    rw [Object.getNumber_ok, ho.value _ hkey]
    exact keyType_initialObject hr v
  have hb : o.getBytes .value = .ok v := by
    rw [Object.getBytes_ok, ho.value _ hvalue]
    exact value_initialObject hr v
  unfold Object.recompute
  rw [hn, hb]
  exact ⟨_, rfl⟩

theorem build_total {secret : Bytes} (h : t.reconcile secret = .ok v) : ∃ o, t.build secret = .ok o := by
  unfold build
  rw [h, Except.ok_bind]
  have ho : (t.initialObject v).Alters [.alwaysSensitive, .neverExtractable]
      (((t.initialObject v).put (.ofBool .alwaysSensitive (t.initialObject v).sensitive)).put
        (.ofBool .neverExtractable !(t.initialObject v).extractable)) :=
    ((Object.Alters.refl _ _).put (by simp [Attribute.ofBool])).put (by simp [Attribute.ofBool])
  exact recompute_total hr ho (by decide) (by decide)

end SecretTemplate

/-- The value of the key that a secret becomes: what the template keeps of it, if the type of the key allows the
length. -/
def SecretTemplate.settle (t : SecretTemplate) (secret : Bytes) : Except Error Bytes := do
  let v ← t.reconcile secret
  if t.type.allowsLength v.length then return v
  else refuse .attributeValueInvalid (.secretLengthInvalid v.length t.type)

theorem SecretTemplate.settle_ok {t : SecretTemplate} {secret v : Bytes} :
    t.settle secret = .ok v ↔ t.reconcile secret = .ok v ∧ t.type.allowsLength v.length = true := by
  unfold settle
  rw [Except.bind_ok]
  constructor
  · rintro ⟨v', hv, h⟩
    obtain ⟨hlen, h⟩ := Except.ite_refuse_ok.1 h
    cases h
    exact ⟨hv, hlen⟩
  · rintro ⟨hv, hlen⟩
    exact ⟨v, hv, if_pos hlen⟩

/-! ## Encapsulated keys -/

namespace Encapsulator

variable {e : Encapsulator} {t : SecretTemplate} {as : List Attribute} {key : Object} {secret data v : Bytes}

theorem secretKey_total (ht : e.template = some t) (hr : t.Reads as) (h : t.reconcile secret = .ok v) :
    ∃ o, e.secretKey secret = .ok o := by
  obtain ⟨b, hb⟩ := SecretTemplate.build_total hr h
  obtain ⟨v', -, hf, -⟩ := SecretTemplate.build_ok hr hb
  unfold secretKey requireTemplate
  rw [ht]
  simp only [SecretTemplate.require, Except.ok_bind, hb]
  have hchanged : (t.initialObject v').Alters (.valueLen :: .checkValue :: clearedFlags) _ :=
    (hf.alters.mono (by decide)).trans ((alters_cleared b).mono (by simp))
  exact SecretTemplate.recompute_total hr hchanged (by decide) (by decide)

/-- Decapsulation gives a key with a value if it recovers a secret with that value for the template. -/
theorem decapsulate_value_iff (ht : e.template = some t) (hr : t.Reads as) :
    (∃ o, e.decapsulate key data = .ok o ∧ o.getBytes .value = .ok v) ↔
      ∃ secret, e.recoverSecret key data = .ok secret ∧ t.reconcile secret = .ok v := by
  constructor
  · rintro ⟨o, h, hv⟩
    obtain ⟨secret, hs, h⟩ := decapsulate_ok.1 h
    obtain ⟨v', hv', hf, -⟩ := secretKey_ok ht hr h
    rw [hf.value hr (by decide)] at hv
    cases hv
    exact ⟨secret, hs, hv'⟩
  · rintro ⟨secret, hs, hv⟩
    obtain ⟨o, ho⟩ := secretKey_total ht hr hv
    obtain ⟨v', hv', hf, -⟩ := secretKey_ok ht hr ho
    obtain rfl : v = v' := Except.ok.inj (hv.symm.trans hv')
    exact ⟨o, decapsulate_ok.2 ⟨secret, hs, ho⟩, hf.value hr (by decide)⟩

end Encapsulator

/-! ## Derived keys -/

namespace DerivationGenerator

variable {g : DerivationGenerator} {t : SecretTemplate} {as : List Attribute} {base o : Object} {secret v : Bytes}

/-- A derived key has the value that its material settles to, and fails as its material does not settle. -/
theorem derivedKey_value (base : Object) (secret : Bytes) (ht : g.template = some t) (hr : t.Reads as) :
    (g.derivedKey base secret >>= fun o => o.getBytes .value) = t.settle secret := by
  unfold derivedKey requireTemplate SecretTemplate.settle
  rw [ht]
  simp only [SecretTemplate.require, Except.ok_bind]
  cases hv : t.reconcile secret with
  | error e =>
    rw [SecretTemplate.build, hv]
    rfl
  | ok v =>
    obtain ⟨b, hb⟩ := SecretTemplate.build_total hr hv
    obtain ⟨v', hv', hf, -⟩ := SecretTemplate.build_ok hr hb
    obtain rfl : v = v' := Except.ok.inj (hv.symm.trans hv')
    have hlocal : b.Alters [.isLocal] (b.put (.ofBool .isLocal false)) :=
      (Object.Alters.refl _ b).put (by simp [Attribute.ofBool])
    have hstart : (t.initialObject v).Alters
        (.valueLen :: .checkValue :: [.isLocal, .alwaysSensitive, .neverExtractable])
        (b.put (.ofBool .isLocal false)) := (hf.alters.mono (by simp)).trans (hlocal.mono (by simp))
    have hset := fun always never => (hstart.put (a := .ofBool .alwaysSensitive always) (by simp [Attribute.ofBool])).put
      (a := .ofBool .neverExtractable never) (by simp [Attribute.ofBool])
    obtain ⟨o, ho⟩ := SecretTemplate.recompute_total hr (hset _ _) (by decide) (by decide)
    -- the finished key holds the value, and nothing but its length can be wrong
    obtain ⟨hf', -⟩ := SecretTemplate.finishes_exposure hr [.isLocal, .alwaysSensitive, .neverExtractable] hstart
      (by simp) (by simp) (by decide) (by decide) ho
    rw [hb, Except.ok_bind, ho, Except.ok_bind, hf'.validate_eq hr (by decide) (by decide), Except.ok_bind]
    split
    · exact hf'.value hr (by decide)
    · rfl

/-- The marks of another key do not touch the value. -/
theorem generate_eq (g : DerivationGenerator) (base : Object) :
    ∃ finish : Object → Object, (∀ o, (finish o).getBytes .value = o.getBytes .value) ∧
      g.generate base = (do return finish (← g.derivedKey base (← g.material base))) := by
  unfold generate
  cases g.rule with
  | appendKey other =>
    refine ⟨taint other, fun o => ?_, rfl⟩
    unfold Object.getBytes Object.typed
    rw [(taint_ok other o).1.value _ (by decide)]
  | _ => exact ⟨id, fun _ => rfl, rfl⟩

/-- Derivation gives a key with the value that its material settles to. -/
theorem generate_value (base : Object) (ht : g.template = some t) (hr : t.Reads as) :
    (g.generate base >>= fun o => liftM (o.getBytes .value)) = (do t.settle (← g.material base)) := by
  obtain ⟨finish, hfinish, heq⟩ := g.generate_eq base
  rw [heq, bind_assoc]
  congr
  funext secret
  rw [← derivedKey_value base secret ht hr, bind_assoc]
  cases g.derivedKey base secret with
  | error e => rfl
  | ok o =>
    show liftM ((finish o).getBytes .value) = (liftM (o.getBytes .value) : Except Failure Bytes)
    rw [hfinish]

/-- Derivation gives a key with a value if its material has that value for the template, and the type allows
the length. -/
theorem generate_value_iff (ht : g.template = some t) (hr : t.Reads as) :
    (∃ o, g.generate base = .ok o ∧ o.getBytes .value = .ok v) ↔
      ∃ secret, g.material base = .ok secret ∧ t.reconcile secret = .ok v ∧ t.type.allowsLength v.length = true := by
  have hvalue : (∃ o, g.generate base = .ok o ∧ o.getBytes .value = .ok v) ↔
      (g.generate base >>= fun o => liftM (o.getBytes .value)) = .ok v := by
    rw [Except.bind_ok]
    exact exists_congr fun o => and_congr_right fun _ => Except.lift_ok.symm
  rw [hvalue, generate_value base ht hr, Except.bind_ok]
  simp only [Except.lift_ok, SecretTemplate.settle_ok]

end DerivationGenerator

/-! ## Requests -/

namespace Registry

variable {r : Registry} {m : Mechanism} {store : Store} {as : List Attribute} {base key o : Object} {data v : Bytes}

/-- Derives a key from `base` by a mechanism, with a template. -/
def derive (r : Registry) (m : Mechanism) (store : Store) (as : List Attribute) (base : Object) :
    Except Failure Object := do
  let g ← r.derivationGenerator m store
  (← g.init as).generate base

/-- Recovers a key from data with the private key `key` by a mechanism, with a template. -/
def decapsulate (r : Registry) (m : Mechanism) (as : List Attribute) (key : Object) (data : Bytes) :
    Except Failure Object := do
  let e ← r.encapsulator m key
  (← e.init as).decapsulate key data

theorem derives_iff : r.Derives m store as base o ↔ r.derive m store as base = .ok o := by
  constructor
  · rintro ⟨g₀, g, hg₀, hi, hg⟩
    exact Except.bind_lift_ok.2 ⟨g₀, hg₀, Except.bind_lift_ok.2 ⟨g, hi, hg⟩⟩
  · intro h
    obtain ⟨g₀, hg₀, h⟩ := Except.bind_lift_ok.1 h
    obtain ⟨g, hi, hg⟩ := Except.bind_lift_ok.1 h
    exact ⟨g₀, g, hg₀, hi, hg⟩

theorem exists_value_of_derive (h : r.derive m store as base = .ok o) : ∃ v, o.getBytes .value = .ok v := by
  obtain ⟨g₀, g, -, hi, hg⟩ := derives_iff.2 h
  obtain ⟨t, ht, rfl⟩ := DerivationGenerator.init_eq hi
  have hr := SecretTemplate.ofAttributes_ok ht
  obtain ⟨v, hf, -⟩ := DerivationGenerator.generate_ok rfl hr hg
  exact ⟨v, hf.value hr (by decide)⟩

theorem derive_value_iff :
    (∃ o, r.derive m store as base = .ok o ∧ o.getBytes .value = .ok v) ↔
      ∃ g t secret, r.derivationGenerator m store = .ok g ∧ SecretTemplate.ofAttributes as = .ok t ∧
        { g with template := some t }.material base = .ok secret ∧ t.reconcile secret = .ok v ∧
        t.type.allowsLength v.length = true := by
  constructor
  · rintro ⟨o, h, hv⟩
    obtain ⟨g₀, g, hg₀, hi, hg⟩ := derives_iff.2 h
    obtain ⟨t, ht, rfl⟩ := DerivationGenerator.init_eq hi
    have hr := SecretTemplate.ofAttributes_ok ht
    obtain ⟨secret, hs⟩ := (DerivationGenerator.generate_value_iff rfl hr).1 ⟨o, hg, hv⟩
    exact ⟨g₀, t, secret, hg₀, ht, hs⟩
  · rintro ⟨g, t, secret, hg, ht, hs⟩
    have hr := SecretTemplate.ofAttributes_ok ht
    obtain ⟨o, ho, hv⟩ := (DerivationGenerator.generate_value_iff rfl hr).2 ⟨secret, hs⟩
    refine ⟨o, Except.bind_lift_ok.2 ⟨g, hg, ?_⟩, hv⟩
    unfold DerivationGenerator.init
    rw [ht]
    exact ho

theorem exists_value_of_decapsulate (h : r.decapsulate m as key data = .ok o) :
    ∃ t v, SecretTemplate.ofAttributes as = .ok t ∧ o.kind = .ok (.secret t.type) ∧ o.getBytes .value = .ok v := by
  obtain ⟨e₀, -, h⟩ := Except.bind_lift_ok.1 h
  obtain ⟨e, hi, h⟩ := Except.bind_lift_ok.1 h
  obtain ⟨t, ht, rfl⟩ := Encapsulator.init_eq hi
  have hr := SecretTemplate.ofAttributes_ok ht
  obtain ⟨secret, -, h⟩ := Encapsulator.decapsulate_ok.1 h
  obtain ⟨v, -, hf, -⟩ := Encapsulator.secretKey_ok rfl hr h
  exact ⟨t, v, ht, hf.kind hr (by decide), hf.value hr (by decide)⟩

theorem decapsulate_value_iff :
    (∃ o, r.decapsulate m as key data = .ok o ∧ o.getBytes .value = .ok v) ↔
      ∃ e t secret, r.encapsulator m key = .ok e ∧ SecretTemplate.ofAttributes as = .ok t ∧
        { e with template := some t }.recoverSecret key data = .ok secret ∧ t.reconcile secret = .ok v := by
  constructor
  · rintro ⟨o, h, hv⟩
    obtain ⟨e₀, he₀, h⟩ := Except.bind_lift_ok.1 h
    obtain ⟨e, hi, he⟩ := Except.bind_lift_ok.1 h
    obtain ⟨t, ht, rfl⟩ := Encapsulator.init_eq hi
    obtain ⟨secret, hs⟩ := (Encapsulator.decapsulate_value_iff rfl (SecretTemplate.ofAttributes_ok ht)).1 ⟨o, he, hv⟩
    exact ⟨e₀, t, secret, he₀, ht, hs⟩
  · rintro ⟨e, t, secret, he, ht, hs⟩
    obtain ⟨o, ho, hv⟩ :=
      (Encapsulator.decapsulate_value_iff rfl (SecretTemplate.ofAttributes_ok ht)).2 ⟨secret, hs⟩
    refine ⟨o, Except.bind_lift_ok.2 ⟨e, he, ?_⟩, hv⟩
    unfold Encapsulator.init
    rw [ht]
    exact ho

end Registry
end SoftToken
