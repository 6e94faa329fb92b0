import SoftToken.Object
/-!
# Attributes of an object

Setting an attribute changes the value of its own identifier and of no other. Of a list of attributes
that are set one after another, the last one with an identifier counts (`lastValue?`,
`Object.value_foldl_put`). No identifier ever occurs twice.
-/

namespace SoftToken

theorem find_upsertAttribute (a : Attribute) (as : List Attribute) (id : AttributeId) :
    (upsertAttribute a as).find? (fun b => b.id == id) =
      if a.id = id then some a else as.find? fun b => b.id == id := by
  induction as with
  | nil => by_cases h : a.id = id <;> simp [upsertAttribute, h]
  | cons b r ih =>
    unfold upsertAttribute
    by_cases hb : b.id = a.id
    · rw [if_pos hb]
      by_cases h : a.id = id
      · simp [h]
      · simp [h, hb]
    · rw [if_neg hb]
      by_cases h : b.id = id
      · have ha : ¬ a.id = id := fun ha => hb (h.trans ha.symm)
        simp [h, ha]
      · simp [h, ih]

theorem map_id_upsertAttribute (a : Attribute) (as : List Attribute) :
    (upsertAttribute a as).map (·.id) =
      if a.id ∈ as.map (·.id) then as.map (·.id) else as.map (·.id) ++ [a.id] := by
  induction as with
  | nil => rfl
  | cons b r ih =>
    unfold upsertAttribute
    by_cases hb : b.id = a.id
    · simp [hb]
    · have ha : ¬ a.id = b.id := fun h => hb h.symm
      simp only [if_neg hb, List.map_cons, ih, List.mem_cons, ha, false_or]
      split <;> rfl

theorem nodup_upsertAttribute {as : List Attribute} (h : (as.map (·.id)).Nodup) (a : Attribute) :
    ((upsertAttribute a as).map (·.id)).Nodup := by
  rw [map_id_upsertAttribute]
  split
  · exact h
  · next ha =>
    refine List.nodup_append.2 ⟨h, by simp, fun b hb c hc => ?_⟩
    rintro rfl
    exact ha (List.mem_singleton.1 hc ▸ hb)

/-! ## The last value of an identifier -/

/-- The value of the last attribute with an identifier. -/
def lastValue? (as : List Attribute) (id : AttributeId) : Option AttributeValue :=
  (as.reverse.find? fun a => a.id == id).map (·.value)

variable {as : List Attribute} {id : AttributeId}

theorem lastValue?_append (as bs : List Attribute) (id : AttributeId) :
    lastValue? (as ++ bs) id = (lastValue? bs id).or (lastValue? as id) := by
  unfold lastValue?
  rw [List.reverse_append, List.find?_append, Option.map_or]

theorem lastValue?_cons (a : Attribute) (as : List Attribute) (id : AttributeId) :
    lastValue? (a :: as) id = (lastValue? as id).or (if a.id = id then some a.value else none) := by
  show lastValue? ([a] ++ as) id = _
  rw [lastValue?_append]
  by_cases h : a.id = id <;> simp [lastValue?, h]

theorem lastValue?_eq_none (h : ∀ a ∈ as, a.id ≠ id) : lastValue? as id = none := by
  unfold lastValue?
  rw [Option.map_eq_none_iff, List.find?_eq_none]
  intro a ha
  simpa using h a (List.mem_reverse.1 ha)

theorem mem_of_lastValue? {v : AttributeValue} (h : lastValue? as id = some v) : ⟨id, v⟩ ∈ as := by
  unfold lastValue? at h
  obtain ⟨a, ha, rfl⟩ := Option.map_eq_some_iff.1 h
  have hid : a.id = id := by simpa using List.find?_some ha
  rw [← hid]
  exact List.mem_reverse.1 (List.mem_of_find?_eq_some ha)

/-- Where no identifier stands twice, its last value is its only one. -/
theorem lastValue?_eq_some (hd : (as.map (·.id)).Nodup) {v : AttributeValue} :
    lastValue? as id = some v ↔ ⟨id, v⟩ ∈ as := by
  refine ⟨mem_of_lastValue?, fun h => ?_⟩
  induction as with
  | nil => cases h
  | cons a as ih =>
    obtain ⟨ha, hd⟩ := List.nodup_cons.1 hd
    rw [lastValue?_cons]
    rcases List.mem_cons.1 h with rfl | h
    · have hnone : lastValue? as id = none := lastValue?_eq_none fun b hb hid => ha (List.mem_map.2 ⟨b, hb, hid⟩)
      rw [hnone, if_pos rfl]
      rfl
    · rw [ih hd h]
      rfl

/-- Where no identifier stands twice, the order does not matter. -/
theorem lastValue?_perm {as' : List Attribute} (hp : as.Perm as') (hd : (as.map (·.id)).Nodup) (id : AttributeId) :
    lastValue? as id = lastValue? as' id := by
  have hd' : (as'.map (·.id)).Nodup := (hp.map _).nodup_iff.1 hd
  ext v
  rw [lastValue?_eq_some hd, lastValue?_eq_some hd', hp.mem_iff]

/-- Attributes with other identifiers may be left out. -/
theorem lastValue?_filter {p : Attribute → Bool} (h : ∀ a ∈ as, a.id = id → p a = true) :
    lastValue? (as.filter p) id = lastValue? as id := by
  induction as with
  | nil => rfl
  | cons a as ih =>
    have ih := ih fun b hb => h b (List.mem_cons_of_mem _ hb)
    rw [lastValue?_cons, List.filter_cons]
    split
    · rw [lastValue?_cons, ih]
    · next hp =>
      have hne : a.id ≠ id := fun he => hp (h a List.mem_cons_self he)
      rw [ih, if_neg hne, Option.or_none]

/-- In a table of flags without repetition the last value is the one the table gives. -/
theorem lastValue?_flags {flags : List (AttributeId × Bool)} (h : (flags.map (·.1)).Nodup) (id : AttributeId) :
    lastValue? (flags.map fun p => .ofBool p.1 p.2) id = (flags.lookup id).map .bool := by
  induction flags with
  | nil => rfl
  | cons p flags ih =>
    obtain ⟨hp, h⟩ := List.nodup_cons.1 h
    rw [List.map_cons, lastValue?_cons, List.lookup_cons]
    by_cases he : id = p.1
    · have hnone : lastValue? (flags.map fun p => .ofBool p.1 p.2) id = none := by
        refine lastValue?_eq_none fun a ha => ?_
        obtain ⟨q, hq, rfl⟩ := List.mem_map.1 ha
        exact fun hqid => hp (List.mem_map.2 ⟨q, hq, hqid.trans he⟩)
      rw [hnone]
      simp [Attribute.ofBool, he]
    · have hne : ¬ p.1 = id := fun h => he h.symm
      rw [ih h, beq_false_of_ne he]
      simp [Attribute.ofBool, hne]

namespace Object

theorem value_new (c : ObjectClass) (id : AttributeId) :
    (new c).value? id = if .classId = id then some (.number c.val) else none := by
  by_cases h : AttributeId.classId = id <;> simp [new, value?, Attribute.ofNumber, h]

/-- What an object holds after an attribute is set. -/
theorem value_put (o : Object) (a : Attribute) (id : AttributeId) :
    (o.put a).value? id = if a.id = id then some a.value else o.value? id := by
  unfold value? put
  simp only [find_upsertAttribute]
  split <;> rfl

theorem value_put_ne (o : Object) {a : Attribute} {id : AttributeId} (h : a.id ≠ id) :
    (o.put a).value? id = o.value? id := by
  rw [value_put, if_neg h]

theorem getBytes_ok {o : Object} {id : AttributeId} {b : Bytes} :
    o.getBytes id = .ok b ↔ o.value? id = some (.bytes b) := by
  unfold getBytes typed
  rcases o.value? id with _ | _ | _ | _ | _ | _ <;> simp [fail]

theorem getNumber_ok {o : Object} {id : AttributeId} {n : UInt64} :
    o.getNumber id = .ok n ↔ o.value? id = some (.number n) := by
  unfold getNumber typed
  rcases o.value? id with _ | _ | _ | _ | _ | _ <;> simp [fail]

theorem flag_put_self (o : Object) (id : AttributeId) (b default : Bool) :
    (o.put (.ofBool id b)).flag id default = b := by
  have hv : (o.put (.ofBool id b)).value? id = some (.bool b) := by rw [value_put]; exact if_pos rfl
  unfold flag
  rw [hv]

theorem flag_put_ne (o : Object) {a : Attribute} {id : AttributeId} (h : a.id ≠ id) (default : Bool) :
    (o.put a).flag id default = o.flag id default := by
  unfold flag
  rw [value_put_ne o h]

@[simp] theorem cls_put (o : Object) (a : Attribute) : (o.put a).cls = o.cls := rfl

theorem cls_foldl_put (o : Object) (as : List Attribute) : (as.foldl put o).cls = o.cls := by
  induction as generalizing o with
  | nil => rfl
  | cons a as ih => exact ih (o.put a)

/-- What an object holds after several attributes are set. -/
theorem value_foldl_put (o : Object) (as : List Attribute) (id : AttributeId) :
    (as.foldl put o).value? id = (lastValue? as id).or (o.value? id) := by
  induction as generalizing o with
  | nil => rfl
  | cons a as ih =>
    rw [List.foldl_cons, ih, value_put, lastValue?_cons, Option.or_assoc]
    split <;> rfl

/-- No two attributes of an object have the same identifier. -/
def Distinct (o : Object) : Prop := (o.attributes.map (·.id)).Nodup

theorem Distinct.put {o : Object} (h : o.Distinct) (a : Attribute) : (o.put a).Distinct :=
  nodup_upsertAttribute h a

theorem Distinct.foldl_put {o : Object} (h : o.Distinct) (as : List Attribute) :
    (as.foldl Object.put o).Distinct := by
  induction as generalizing o with
  | nil => exact h
  | cons a as ih => exact ih (h.put a)

theorem distinct_new (c : ObjectClass) : (new c).Distinct := by simp [Distinct, new]

/-- An object without an identifier of its own is given a drawn one. -/
theorem value_generateUnique {o : Object} (h : o.value? .uniqueId = none) (id : AttributeId) :
    o.generateUnique.value? id = if id = .uniqueId then some .drawnId else o.value? id := by
  have hfind : (o.attributes.find? fun a => a.id == .uniqueId) = none := by
    simpa [value?] using h
  unfold generateUnique
  rw [h]
  simp only [Option.isSome_none, Bool.false_eq_true, if_false, value?, List.find?_append]
  split
  · next hid => subst hid; simp [hfind]
  · next hid =>
    have hne : ¬ AttributeId.uniqueId = id := fun he => hid he.symm
    simp [hne]

theorem Distinct.generateUnique {o : Object} (h : o.Distinct) : o.generateUnique.Distinct := by
  unfold Object.generateUnique
  split
  · exact h
  · next hnone =>
    have hall : ∀ a ∈ o.attributes, ¬ a.id = .uniqueId := by simpa [value?] using hnone
    unfold Distinct
    rw [List.map_append]
    refine List.nodup_append.2 ⟨h, by simp, fun b hb c hc => ?_⟩
    rintro rfl
    obtain ⟨a, ha, he⟩ := List.mem_map.1 hb
    exact hall a ha (he.trans (by simpa using hc))

theorem cls_generateUnique (o : Object) : o.generateUnique.cls = o.cls := by
  unfold generateUnique
  split <;> rfl

/-! ## Objects that differ in some attributes -/

/-- `o'` is what `o` becomes when only the attributes `changed` are set. -/
structure Alters (changed : List AttributeId) (o o' : Object) : Prop where
  cls : o'.cls = o.cls
  distinct : o.Distinct → o'.Distinct
  value : ∀ id ∉ changed, o'.value? id = o.value? id

namespace Alters

variable {changed : List AttributeId} {o o' o'' : Object}

theorem refl (changed : List AttributeId) (o : Object) : Alters changed o o := ⟨rfl, id, fun _ _ => rfl⟩

theorem trans (h : Alters changed o o') (h' : Alters changed o' o'') : Alters changed o o'' :=
  ⟨h'.cls.trans h.cls, h'.distinct ∘ h.distinct, fun id hid => (h'.value id hid).trans (h.value id hid)⟩

theorem mono {changed' : List AttributeId} (h : Alters changed o o') (hsub : changed ⊆ changed') :
    Alters changed' o o' :=
  ⟨h.cls, h.distinct, fun id hid => h.value id fun hc => hid (hsub hc)⟩

theorem put (h : Alters changed o o') {a : Attribute} (ha : a.id ∈ changed) : Alters changed o (o'.put a) := by
  refine h.trans ⟨rfl, fun hd => hd.put a, fun id hid => ?_⟩
  exact value_put_ne o' fun he => hid (he ▸ ha)

theorem foldl_put (h : Alters changed o o') {as : List Attribute} (has : ∀ a ∈ as, a.id ∈ changed) :
    Alters changed o (as.foldl Object.put o') := by
  induction as generalizing o' with
  | nil => exact h
  | cons a as ih =>
    obtain ⟨ha, has⟩ := List.forall_mem_cons.1 has
    exact ih (h.put ha) has

theorem flag (h : Alters changed o o') {id : AttributeId} (hid : id ∉ changed) (default : Bool) :
    o'.flag id default = o.flag id default := by
  unfold Object.flag
  rw [h.value id hid]

theorem sensitive (h : Alters changed o o') (hid : .sensitive ∉ changed) : o'.sensitive = o.sensitive := by
  unfold Object.sensitive
  rw [h.cls, h.flag hid]

theorem extractable (h : Alters changed o o') (hid : .extractable ∉ changed) : o'.extractable = o.extractable := by
  unfold Object.extractable
  rw [h.cls, h.flag hid]

end Alters
end Object
end SoftToken
