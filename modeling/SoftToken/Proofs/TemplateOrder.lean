import SoftToken.Proofs.Alike
import SoftToken.Proofs.SecretKeys
/-!
# The order of a template

A template in which no identifier stands twice means the same in any order: it is accepted or refused alike,
and secrets are cut and keys are built from it alike (`SecretTemplate.alike_of_perm`). What a template says is
what it says last, which the order then does not change (`lastValue?_perm`). Only the attributes of the key
stand in another order.
-/

namespace SoftToken

open SoftToken.Except (Alike)

/-! ## Objects that hold the same -/

namespace Object

/-- The objects have one class and hold the same values, but for identifiers of their own. -/
structure Matches (o o' : Object) : Prop where
  cls : o.cls = o'.cls
  value : ∀ id, id ≠ .uniqueId → o.value? id = o'.value? id

namespace Matches

variable {o o' : Object}

theorem put (h : Matches o o') (a : Attribute) : Matches (o.put a) (o'.put a) := by
  refine ⟨h.cls, fun id hid => ?_⟩
  rw [value_put, value_put, h.value id hid]

theorem flag (h : Matches o o') {id : AttributeId} (hid : id ≠ .uniqueId) (default : Bool) :
    o.flag id default = o'.flag id default := by
  unfold Object.flag
  rw [h.value id hid]

theorem sensitive (h : Matches o o') : o.sensitive = o'.sensitive := by
  unfold Object.sensitive
  rw [h.cls, h.flag (by decide)]

theorem extractable (h : Matches o o') : o.extractable = o'.extractable := by
  unfold Object.extractable
  rw [h.cls, h.flag (by decide)]

theorem typed (h : Matches o o') {α : Type} {id : AttributeId} (hid : id ≠ .uniqueId)
    (pick : AttributeValue → Option α) : o.typed id pick = o'.typed id pick := by
  unfold Object.typed
  rw [h.value id hid]

theorem recompute (h : Matches o o') : Alike Matches o.recompute o'.recompute := by
  have htype : o.getNumber .keyType = o'.getNumber .keyType := h.typed (by decide) _
  have hvalue : o.getBytes .value = o'.getBytes .value := h.typed (by decide) _
  unfold Object.recompute
  rw [htype, hvalue]
  refine Alike.bind_same fun t _ => Alike.bind_same fun value _ => ?_
  exact Alike.ok ((h.put _).put _)

end Matches
end Object

/-! ## Templates that mean the same -/

namespace SecretTemplate

variable {t t' : SecretTemplate} {as as' : List Attribute}

/-- The templates ask for the same and override the same values. -/
structure Equivalent (t t' : SecretTemplate) : Prop where
  type : t.type = t'.type
  requestedLength : t.requestedLength = t'.requestedLength
  overrides : ∀ id, lastValue? t.overrides id = lastValue? t'.overrides id

namespace Equivalent

theorem reconcile (h : Equivalent t t') (secret : Bytes) : t.reconcile secret = t'.reconcile secret := by
  unfold SecretTemplate.reconcile requiredLength
  rw [h.type, h.requestedLength]

theorem initialObject (h : Equivalent t t') (hr : t.Reads as) (v : Bytes) :
    Object.Matches (t.initialObject v) (t'.initialObject v) := by
  have hunique : lastValue? t.overrides .uniqueId = none := lastValue?_overrides hr (by decide)
  refine ⟨(cls_initialObject t v).trans (cls_initialObject t' v).symm, fun id _ => ?_⟩
  rw [attribute_initialObject hunique, attribute_initialObject ((h.overrides _).symm.trans hunique), value_unnamed,
    value_unnamed, h.overrides, h.type]

theorem build (h : Equivalent t t') (hr : t.Reads as) (secret : Bytes) :
    Alike Object.Matches (t.build secret) (t'.build secret) := by
  unfold SecretTemplate.build
  rw [h.reconcile]
  refine Alike.bind_same fun v _ => ?_
  have hinitial := h.initialObject hr v
  simp only [hinitial.sensitive, hinitial.extractable]
  exact ((hinitial.put _).put _).recompute

end Equivalent

/-! ## Templates in another order -/

section

variable (hp : as.Perm as') (hd : (as.map (·.id)).Nodup)
include hp hd

theorem namedType_perm : namedType as = namedType as' := by
  unfold namedType lastNumber?
  rw [lastValue?_perm hp hd]

theorem namedLength_perm : namedLength as = namedLength as' := by
  unfold namedLength lastNumber?
  rw [lastValue?_perm hp hd]

theorem Accepted.perm (h : Accepted as) : Accepted as' where
  allowed := fun a ha => h.allowed a (hp.mem_iff.2 ha)
  secret := namedType_perm hp hd ▸ h.secret
  fits := by
    rw [← namedType_perm hp hd, ← namedLength_perm hp hd]
    exact h.fits

theorem accepted_perm : Accepted as ↔ Accepted as' :=
  ⟨.perm hp hd, .perm hp.symm ((hp.map _).nodup_iff.1 hd)⟩

theorem equivalent_reading : Equivalent (reading as) (reading as') where
  type := namedType_perm hp hd
  requestedLength := namedLength_perm hp hd
  overrides := lastValue?_perm (hp.filter _) (hd.sublist (List.filter_sublist.map _))

end

/-- Whatever the secret, the templates cut it alike and make keys from it that hold the same. -/
structure Interchangeable (t t' : SecretTemplate) : Prop where
  reconcile : ∀ secret, t.reconcile secret = t'.reconcile secret
  build : ∀ secret, Alike Object.Matches (t.build secret) (t'.build secret)

/-- A template without repetitions is accepted in every order or refused in every order, and its orders are
interchangeable. -/
theorem alike_of_perm (hp : as.Perm as') (hd : (as.map (·.id)).Nodup) :
    Alike Interchangeable (ofAttributes as) (ofAttributes as') := by
  by_cases h : Accepted as
  · have hs := ofAttributes_of_accepted h
    have hs' := ofAttributes_of_accepted ((accepted_perm hp hd).1 h)
    have hequiv := equivalent_reading hp hd
    rw [hs, hs']
    exact Alike.ok ⟨hequiv.reconcile, hequiv.build (ofAttributes_ok hs)⟩
  · obtain ⟨e, he, hcode⟩ := refused h
    obtain ⟨e', he', hcode'⟩ := refused (mt (accepted_perm hp hd).2 h)
    rw [he, he']
    exact congrArg some (hcode.trans hcode'.symm)

/-- A template with two attributes that have no default. -/
def labelledTemplate : List Attribute :=
  [⟨.label, .string "label"⟩, .ofNumber .valueLen 16, ⟨.application, .string "application"⟩,
    .ofNumber .keyType KeyType.aes.val, .ofBool .sensitive true]

/-- From the reverse template the same key is built. -/
theorem alike_of_perm_reverse :
    labelledTemplate.Perm labelledTemplate.reverse ∧ (labelledTemplate.map (·.id)).Nodup ∧
      ∃ t t' o o', ofAttributes labelledTemplate = .ok t ∧ ofAttributes labelledTemplate.reverse = .ok t' ∧
        Interchangeable t t' ∧ t.build (List.replicate 20 1) = .ok o ∧ t'.build (List.replicate 20 1) = .ok o' ∧
        Object.Matches o o' := by
  have hp : labelledTemplate.Perm labelledTemplate.reverse := (List.reverse_perm _).symm
  have hd : (labelledTemplate.map (·.id)).Nodup := by decide
  refine ⟨hp, hd, ?_⟩
  have ht : ofAttributes labelledTemplate = .ok (reading labelledTemplate) := rfl
  obtain ⟨t', ht', hi⟩ := (alike_of_perm hp hd).exists_ok ht
  have ho : ((reading labelledTemplate).build (List.replicate 20 1)).toOption.isSome = true := by decide +kernel
  obtain ⟨o, ho⟩ := Option.isSome_iff_exists.1 ho
  have ho := Except.ok_of_toOption ho
  obtain ⟨o', ho', hm⟩ := (hi.build _).exists_ok ho
  exact ⟨_, t', o, o', ht, ht', hi, ho, ho', hm⟩

end SecretTemplate
end SoftToken
