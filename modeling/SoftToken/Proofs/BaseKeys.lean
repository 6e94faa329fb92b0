import SoftToken.Derivation.Families
import SoftToken.Proofs.KeyKinds
/-!
# Keys that are derived from

A secret key may be derived from if it allows derivation and its value is not empty (`Object.BaseKey`). Nothing more
is asked of the base key of a derivation from secrets, nor of the key that is put behind it.
-/

namespace SoftToken

/-- A secret key that may be derived from, and its value. -/
structure Object.BaseKey (o : Object) (v : Bytes) : Prop where
  kind : ∃ type, o.kind = .ok (.secret type)
  derive : o.flag .derive false = true
  value : o.getBytes .value = .ok v
  nonempty : v ≠ []

theorem SecretKey.ofObject_ok {o : Object} {k : SecretKey} :
    SecretKey.ofObject o = .ok k ↔ o.kind = .ok (.secret k.type) ∧ o.getBytes .value = .ok k.value ∧ k.value ≠ [] := by
  unfold ofObject
  rw [← Object.requireBytes_ok, Except.bind_ok]
  constructor
  · rintro ⟨kind, hkind, h⟩
    cases kind with
    | secret type =>
      obtain ⟨v, hv, h⟩ := Except.bind_ok.1 h
      cases h
      exact ⟨hkind, hv⟩
    | _ => cases h
  · rintro ⟨hkind, hv⟩
    exact ⟨_, hkind, Except.bind_ok.2 ⟨_, hv, rfl⟩⟩

namespace Object.BaseKey

variable {o : Object} {v : Bytes}

theorem checkPermission (h : o.BaseKey v) : o.checkPermission .derive = .ok () := if_pos h.derive

theorem exists_secretKey (h : o.BaseKey v) :
    ∃ type, o.kind = .ok (.secret type) ∧ SecretKey.ofObject o = .ok ⟨type, v⟩ := by
  obtain ⟨type, hkind⟩ := h.kind
  exact ⟨type, hkind, SecretKey.ofObject_ok.2 ⟨hkind, h.value, h.nonempty⟩⟩

end Object.BaseKey

namespace DerivationGenerator

theorem baseSecret_eq {base : Object} {v : Bytes} (h : base.BaseKey v) (g : DerivationGenerator) :
    g.baseSecret base = .ok v := by
  obtain ⟨type, hkind, hkey⟩ := h.exists_secretKey
  unfold baseSecret checkBase
  rw [hkind, hkey]
  simp only [isSecret, if_true, h.checkPermission]
  rfl

/-- The other key is what the store has under its handle, with its value and its exposure. -/
theorem otherKey_ok {store : Store} {handle : UInt64} {k : OtherKey} :
    otherKey store handle = .ok k ↔ ∃ o, store.find? handle = some o ∧ o.BaseKey k.value ∧
      k.alwaysSensitive = o.alwaysSensitive ∧ k.neverExtractable = o.neverExtractable := by
  unfold otherKey Store.find
  cases store.find? handle with
  | none => exact iff_of_false nofun nofun
  | some o =>
    constructor
    · intro h
      dsimp only at h
      split at h
      · next type hkind =>
        split at h
        · cases h
        next hderive =>
        obtain ⟨view, hview, h⟩ := Except.bind_ok.1 h
        cases h
        obtain ⟨-, hvalue, hne⟩ := SecretKey.ofObject_ok.1 hview
        exact ⟨o, rfl, ⟨⟨type, hkind⟩, (Except.ite_refuse_ok.1 hderive).1, hvalue, hne⟩, rfl, rfl⟩
      · cases h
    · rintro ⟨_, ho, hk, halways, hnever⟩
      cases ho
      obtain ⟨type, hkind, hkey⟩ := hk.exists_secretKey
      simp only [hkind, hk.checkPermission, hkey]
      rw [← halways, ← hnever]
      rfl

end DerivationGenerator
end SoftToken
