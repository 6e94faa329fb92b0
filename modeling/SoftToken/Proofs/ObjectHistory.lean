import SoftToken.Proofs.Attributes
import SoftToken.Proofs.Draws
/-!
# Objects over their history

An object keeps its class twice, beside its attributes and among them, and its attributes in a list that is
searched from the front. `History` follows an object through all its changes, the failed ones included, together with
the classes that it has had. Each change keeps the two copies of the class equal and the identifiers apart
(`WellFormed`), so that the representation is sound along every history: `History.representation`.
-/

namespace SoftToken

namespace Object

/-! ## Changes in place -/

/-- A change of an object. -/
inductive Change where
  | set (a : Attribute)
  | generateUnique
  | setHandle (handle : UInt64)
deriving DecidableEq, Repr

namespace Change

/-- The steps of a change, each of which alters the object in place. -/
def perform : Change → ExceptT Error (StateM Object) Unit
  | set a => do
    if a.id = .classId then
      let number ← (a.toNumber : Except Error UInt64)
      modify fun o => { o with cls := ⟨number⟩ }
      modify fun o => { o with wipe := o.wipe || o.cls.holdsSecret }
    modify fun o => { o with attributes := upsertAttribute a o.attributes }
  | generateUnique => modify Object.generateUnique
  | setHandle handle => modify fun o => o.setHandle handle

/-- The outcome of a change, and the object that it leaves behind. -/
def on (c : Change) (o : Object) : Except Error Unit × Object := c.perform.run.run o

/-- The steps of setting an attribute alter nothing unless all of them succeed. -/
theorem on_set (a : Attribute) (o : Object) :
    (set a).on o = match o.set a with
      | .ok o' => (.ok (), o')
      | .error e => (.error e, o) := by
  unfold on Object.set
  by_cases ha : a.id = .classId
  · simp only [perform, if_pos ha]
    cases a.toNumber <;> rfl
  · simp only [perform, if_neg ha]
    rfl

theorem on_generateUnique (o : Object) : generateUnique.on o = (.ok (), o.generateUnique) := rfl

end Change

/-! ## Attributes by their identifiers -/

/-- The first attribute with an identifier. -/
def attribute? (o : Object) (id : AttributeId) : Option Attribute := o.attributes.find? fun a => a.id == id

/-- The attributes that stand for the class. -/
def classAttributes (o : Object) : List Attribute := o.attributes.filter fun a => a.id == .classId

variable {o o' : Object} {a : Attribute}

/-- Where no identifier occurs twice, the first attribute with one is the only one. -/
theorem filter_id_eq {as : List Attribute} (h : (as.map (·.id)).Nodup) (id : AttributeId) :
    as.filter (fun a => a.id == id) = (as.find? fun a => a.id == id).toList := by
  induction as with
  | nil => rfl
  | cons b r ih =>
    obtain ⟨hb, hr⟩ := List.nodup_cons.1 h
    by_cases hid : b.id = id
    · have hnone : r.filter (fun a => a.id == id) = [] := by
        rw [List.filter_eq_nil_iff]
        intro a ha
        have hne : a.id ≠ id := fun he => hb (List.mem_map.2 ⟨a, ha, he.trans hid.symm⟩)
        simpa using hne
      simp [hid, hnone]
    · simp [hid, ih hr]

theorem classAttributes_eq (h : o.Distinct) : o.classAttributes = (o.attribute? .classId).toList := filter_id_eq h _

theorem attribute_put (o : Object) (a : Attribute) (id : AttributeId) :
    (o.put a).attribute? id = if a.id = id then some a else o.attribute? id :=
  find_upsertAttribute a o.attributes id

theorem attribute_generateUnique (o : Object) {id : AttributeId} (h : id ≠ .uniqueId) :
    o.generateUnique.attribute? id = o.attribute? id := by
  unfold attribute? Object.generateUnique
  split
  · rfl
  · rw [List.find?_append]
    have hne : (AttributeId.uniqueId == id) = false := beq_false_of_ne h.symm
    simp [hne]

/-- An attribute takes the place of the one with its identifier, or the last place. -/
theorem upsertAttribute_eq {as : List Attribute} (h : (as.map (·.id)).Nodup) (a : Attribute) :
    upsertAttribute a as =
      if a.id ∈ as.map (·.id) then as.map fun b => if b.id = a.id then a else b else as ++ [a] := by
  induction as with
  | nil => rfl
  | cons b r ih =>
    obtain ⟨hb, hr⟩ := List.nodup_cons.1 h
    unfold upsertAttribute
    by_cases hid : b.id = a.id
    · have hrest : (r.map fun c => if c.id = a.id then a else c) = r := by
        refine (List.map_congr_left fun c hc => ?_).trans r.map_id
        exact if_neg fun he => hb (List.mem_map.2 ⟨c, hc, he.trans hid.symm⟩)
      rw [if_pos hid, if_pos (by simp [hid]), List.map_cons, if_pos hid, hrest]
    · have hmem : a.id ∈ (b :: r).map (·.id) ↔ a.id ∈ r.map (·.id) := by
        rw [List.map_cons, List.mem_cons]
        exact or_iff_right fun he => hid he.symm
      by_cases ha : a.id ∈ r.map (·.id)
      · rw [if_neg hid, ih hr, if_pos ha, if_pos (hmem.2 ha), List.map_cons, if_neg hid]
      · rw [if_neg hid, ih hr, if_neg ha, if_neg (mt hmem.1 ha), List.cons_append]

/-- The two ways in which an attribute is set. -/
theorem set_ok : o.set a = .ok o' ↔
    (∃ n, a.id = .classId ∧ a.value = .number n ∧
      o' = { o.put a with cls := ⟨n⟩, wipe := o.wipe || (⟨n⟩ : ObjectClass).holdsSecret }) ∨
    (a.id ≠ .classId ∧ o' = o.put a) := by
  have hnumber : ∀ n, a.toNumber = .ok n ↔ a.value = .number n := by
    intro n
    unfold Attribute.toNumber
    rcases a.value with _ | _ | _ | _ | _ <;> simp [fail]
  unfold set
  split
  · next ha =>
    rw [Except.bind_ok]
    constructor
    · rintro ⟨n, hn, h⟩
      cases h
      exact .inl ⟨n, ha, (hnumber n).1 hn, rfl⟩
    · rintro (⟨n, -, hn, rfl⟩ | ⟨hne, -⟩)
      · exact ⟨n, (hnumber n).2 hn, rfl⟩
      · exact absurd ha hne
  · next ha =>
    constructor
    · intro h
      cases h
      exact .inr ⟨ha, rfl⟩
    · rintro (⟨n, he, -⟩ | ⟨-, rfl⟩)
      · exact absurd he ha
      · rfl

/-! ## What a change keeps -/

/-- An object that has had the classes `past` is represented well: no identifier occurs twice, the class is among the
attributes once and as a number, and the object is marked for wiping if one of its classes held secrets. -/
structure WellFormed (past : List ObjectClass) (o : Object) : Prop where
  distinct : o.Distinct
  classAttributes : o.classAttributes = [.ofNumber .classId o.cls.val]
  mem_past : o.cls ∈ past
  wipe_iff : o.wipe = true ↔ ∃ c ∈ past, c.holdsSecret = true

variable {past : List ObjectClass}

theorem wellFormed_new (c : ObjectClass) : WellFormed [c] (new c) where
  distinct := distinct_new c
  classAttributes := rfl
  mem_past := List.mem_singleton_self c
  wipe_iff := by simp [new]

/-- The classes that attributes name. -/
def namedClasses (as : List Attribute) : List ObjectClass :=
  as.filterMap fun a => if a.id = .classId then a.toNumber.toOption.map ObjectClass.mk else none

theorem namedClasses_of_class {n : UInt64} (ha : a.id = .classId) (hn : a.value = .number n) :
    namedClasses [a] = [⟨n⟩] := by
  simp [namedClasses, ha, Attribute.toNumber, hn, Except.toOption]

theorem namedClasses_of_ne (ha : a.id ≠ .classId) : namedClasses [a] = [] := by simp [namedClasses, ha]

namespace WellFormed

theorem congr {past' : List ObjectClass} (h : WellFormed past o) (hp : ∀ c, c ∈ past ↔ c ∈ past') :
    WellFormed past' o where
  distinct := h.distinct
  classAttributes := h.classAttributes
  mem_past := (hp _).1 h.mem_past
  wipe_iff := by simp only [h.wipe_iff, hp]

theorem attribute_classId (h : WellFormed past o) : o.attribute? .classId = some (.ofNumber .classId o.cls.val) := by
  have hc := h.classAttributes
  rw [classAttributes_eq h.distinct] at hc
  cases ha : o.attribute? .classId with
  | none => rw [ha] at hc; cases hc
  | some a => rw [ha] at hc; exact congrArg some (List.cons.inj hc).1

/-- Setting an attribute adds the class that it names to the past. -/
theorem set (h : WellFormed past o) (hs : o.set a = .ok o') : WellFormed (past ++ namedClasses [a]) o' := by
  rcases set_ok.1 hs with ⟨n, ha, hn, rfl⟩ | ⟨ha, rfl⟩
  · rw [namedClasses_of_class ha hn]
    obtain ⟨id, value⟩ := a
    obtain rfl : id = .classId := ha
    obtain rfl : value = .number n := hn
    have hdistinct : (o.put ⟨.classId, .number n⟩).Distinct := h.distinct.put _
    -- Both copies of the class are the new one, and the mark of the old ones stays.
    refine ⟨hdistinct, ?_, ?_, ?_⟩
    · show (o.put ⟨.classId, .number n⟩).classAttributes = [.ofNumber .classId n]
      rw [classAttributes_eq hdistinct, attribute_put]
      rfl
    · exact List.mem_append_right _ (List.mem_singleton_self _)
    · simp only [Bool.or_eq_true, h.wipe_iff, List.mem_append, List.mem_singleton, or_and_right, exists_or,
        exists_eq_left]
  · have hdistinct : (o.put a).Distinct := h.distinct.put a
    rw [namedClasses_of_ne ha, List.append_nil]
    refine ⟨hdistinct, ?_, h.mem_past, h.wipe_iff⟩
    rw [classAttributes_eq hdistinct, attribute_put, if_neg ha, h.attribute_classId]
    rfl

theorem generateUnique (h : WellFormed past o) : WellFormed past o.generateUnique where
  distinct := h.distinct.generateUnique
  classAttributes := by
    rw [classAttributes_eq h.distinct.generateUnique, attribute_generateUnique o (by decide), h.attribute_classId,
      cls_generateUnique]
    rfl
  mem_past := by
    rw [cls_generateUnique]
    exact h.mem_past
  wipe_iff := by
    have hwipe : o.generateUnique.wipe = o.wipe := by unfold Object.generateUnique; split <;> rfl
    rw [hwipe, h.wipe_iff]

theorem setHandle (h : WellFormed past o) (handle : UInt64) : WellFormed past (o.setHandle handle) :=
  ⟨h.distinct, h.classAttributes, h.mem_past, h.wipe_iff⟩

/-- The class that an object has belongs to its past already. -/
theorem again (h : WellFormed past o) : WellFormed (past ++ [o.cls]) o := by
  refine h.congr fun c => ?_
  rw [List.mem_append, List.mem_singleton]
  constructor
  · exact .inl
  · rintro (hc | rfl)
    · exact hc
    · exact h.mem_past

/-- Every change, also a failed one, keeps an object well formed. -/
theorem change (h : WellFormed past o) (c : Change) : WellFormed (past ++ [(c.on o).2.cls]) (c.on o).2 := by
  cases c with
  | set a =>
    rw [Change.on_set]
    split
    · next o' hs =>
      have hset := h.set hs
      rcases set_ok.1 hs with ⟨n, ha, hn, rfl⟩ | ⟨ha, rfl⟩
      · rwa [namedClasses_of_class ha hn] at hset
      · rw [namedClasses_of_ne ha, List.append_nil] at hset
        exact hset.again
    · exact h.again
  | generateUnique => exact h.generateUnique.again
  | setHandle handle => exact (h.setHandle handle).again

/-- Attributes that are checked and set one after the other add the classes that they name. -/
theorem foldlM {as : List Attribute} (h : WellFormed past o)
    (hs : as.foldlM (fun o b => do b.check; o.set b) o = .ok o') : WellFormed (past ++ namedClasses as) o' := by
  induction as generalizing past o with
  | nil =>
    cases hs
    simpa [namedClasses] using h
  | cons a as ih =>
    rw [List.foldlM_cons] at hs
    obtain ⟨o₁, ho₁, hs⟩ := Except.bind_ok.1 hs
    obtain ⟨_, -, ho₁⟩ := Except.bind_ok.1 ho₁
    have hrest := ih (h.set ho₁) hs
    have hnamed : namedClasses ([a] ++ as) = namedClasses [a] ++ namedClasses as := List.filterMap_append
    rw [List.singleton_append] at hnamed
    rwa [List.append_assoc, ← hnamed] at hrest

end WellFormed

theorem wellFormed_ofAttributes {as : List Attribute} (h : ofAttributes as = .ok o) :
    WellFormed (namedClasses as) o := by
  unfold ofAttributes at h
  split at h
  · cases h
  next a ha =>
  obtain ⟨n, hn, h⟩ := Except.bind_ok.1 h
  -- The object starts with the class of the first class attribute, which is set once more with the others.
  have hfold := (wellFormed_new ⟨n⟩).foldlM h
  have hmem : (⟨n⟩ : ObjectClass) ∈ namedClasses as := by
    refine List.mem_filterMap.2 ⟨a, List.mem_of_find?_eq_some ha, ?_⟩
    have hid : a.id = .classId := by simpa using List.find?_some ha
    rw [if_pos hid, hn]
    rfl
  refine hfold.congr fun c => ?_
  rw [List.singleton_append, List.mem_cons]
  exact or_iff_right_of_imp fun hc => hc ▸ hmem

/-! ## Histories -/

/-- An object, and the classes that it has had since it was made: anew, or from attributes that name them. -/
inductive History : List ObjectClass → Object → Prop
  | new (c : ObjectClass) : History [c] (new c)
  | ofAttributes {as : List Attribute} {o : Object} (h : ofAttributes as = .ok o) : History (namedClasses as) o
  | change {past : List ObjectClass} {o : Object} (h : History past o) (c : Change) :
    History (past ++ [(c.on o).2.cls]) (c.on o).2

theorem History.wellFormed (h : History past o) : WellFormed past o := by
  induction h with
  | new c => exact wellFormed_new c
  | ofAttributes h => exact wellFormed_ofAttributes h
  | change _ c ih => exact ih.change c

/-- `o'` is `o` with one attribute set: it stands for its identifier, in the place of the attribute that did before or
in the last place, and all others are as they were. -/
structure Replaces (a : Attribute) (o o' : Object) : Prop where
  set : o'.attribute? a.id = some a
  others : ∀ id ≠ a.id, o'.attribute? id = o.attribute? id
  order : o'.attributes =
    if a.id ∈ o.attributes.map (·.id) then o.attributes.map fun b => if b.id = a.id then a else b
    else o.attributes ++ [a]

theorem replaces_of_set (h : o.Distinct) (hs : o.set a = .ok o') : Replaces a o o' := by
  have hattributes : o'.attributes = (o.put a).attributes := by
    rcases set_ok.1 hs with ⟨n, -, -, rfl⟩ | ⟨-, rfl⟩ <;> rfl
  have hfind : ∀ id, o'.attribute? id = if a.id = id then some a else o.attribute? id := by
    intro id
    rw [← attribute_put]
    unfold attribute?
    rw [hattributes]
  refine ⟨by rw [hfind, if_pos rfl], fun id hid => by rw [hfind, if_neg hid.symm], ?_⟩
  rw [hattributes]
  exact upsertAttribute_eq h a

theorem generateUnique_of_isSome (h : (o.value? .uniqueId).isSome = true) : o.generateUnique = o := if_pos h

theorem generateUnique_generateUnique (o : Object) : o.generateUnique.generateUnique = o.generateUnique := by
  apply generateUnique_of_isSome
  cases hv : o.value? .uniqueId with
  | none =>
    rw [value_generateUnique hv, if_pos rfl]
    rfl
  | some v =>
    have hsome : (o.value? .uniqueId).isSome = true := by rw [hv]; rfl
    rw [generateUnique_of_isSome hsome]
    exact hsome

/-- Along every history an object is well formed, a failed change leaves it as it was, a successful one sets its
attribute and nothing else, and a second identifier is never given. -/
theorem History.representation (h : History past o) :
    WellFormed past o ∧
      (∀ a e o', (Change.set a).on o = (.error e, o') → o' = o) ∧
      (∀ a o', (Change.set a).on o = (.ok (), o') → Replaces a o o') ∧
      Change.generateUnique.on (Change.generateUnique.on o).2 = (.ok (), (Change.generateUnique.on o).2) := by
  refine ⟨h.wellFormed, ?_, ?_, ?_⟩
  · intro a e o' hset
    rw [Change.on_set] at hset
    split at hset
    · cases hset
    · cases hset
      rfl
  · intro a o' hset
    rw [Change.on_set] at hset
    split at hset
    · next o₁ hs =>
      cases hset
      exact replaces_of_set h.wellFormed.distinct hs
    · cases hset
  · rw [Change.on_generateUnique, Change.on_generateUnique, generateUnique_generateUnique]

/-- A data object that was made a secret key and then a public key. -/
def reclassed : Object :=
  ((Change.set (.ofNumber .classId 2)).on ((Change.set (.ofNumber .classId 4)).on (new ⟨0⟩)).2).2

/-- It stays marked for wiping, and a class that is no number leaves it as it was. -/
theorem History.representation_reclassed :
    History [⟨0⟩, .secretKey, .publicKey] reclassed ∧ reclassed.cls = .publicKey ∧ reclassed.wipe = true ∧
      (Change.set (.ofBool .classId true)).on reclassed = (.error (.bare .attributeTypeInvalid), reclassed) := by
  have h : History [⟨0⟩, .secretKey, .publicKey] reclassed :=
    ((History.new ⟨0⟩).change (.set (.ofNumber .classId 4))).change (.set (.ofNumber .classId 2))
  obtain ⟨hw, hfail, -, -⟩ := h.representation
  have hsecret : ObjectClass.secretKey ∈ [⟨0⟩, .secretKey, .publicKey] := by decide
  refine ⟨h, rfl, hw.wipe_iff.2 ⟨.secretKey, hsecret, rfl⟩, ?_⟩
  exact Prod.ext rfl (hfail (.ofBool .classId true) (.bare .attributeTypeInvalid) _ rfl)

end Object
end SoftToken
