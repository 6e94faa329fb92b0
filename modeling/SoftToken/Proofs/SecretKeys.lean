import SoftToken.Derivation.Generator
import SoftToken.Encapsulation.Encapsulator
import SoftToken.Proofs.TemplateAcceptance
/-!
# How a secret key follows from its template

A template that is accepted is read as the last values it gives (`SecretTemplate.ofAttributes_ok`). The
key that is built from it starts as it says (`SecretTemplate.initialObject`), and the attributes that
follow from the value are computed last (`SecretTemplate.Finishes`). Derivation and encapsulation set
flags of their own afterwards and leave everything else as it was.
-/

namespace SoftToken
namespace SecretTemplate

/-! ## Reading the template -/

/-- What is known of a template read from attributes. -/
structure Reads (t : SecretTemplate) (as : List Attribute) : Prop where
  type : .number t.type.val = (lastValue? as .keyType).getD (.number KeyType.genericSecret.val)
  secret : t.type.isSecret = true
  overrides : t.overrides = as.filter fun a => !reserved.contains a.id
  valueless : ∀ a ∈ as, a.id ≠ .value

theorem ofAttributes_ok {as : List Attribute} {t : SecretTemplate} (h : ofAttributes as = .ok t) : t.Reads as := by
  obtain ⟨haccepted, rfl⟩ := ofAttributes_ok_iff.1 h
  refine ⟨?_, haccepted.secret, rfl, fun a ha => (haccepted.allowed a ha).valueless⟩
  rw [lastValue?_number haccepted.allowed rfl, reading, namedType]
  cases lastNumber? as .keyType <;> rfl

/-! ## Building the key -/

/-- The attributes that no template reaches. -/
def settled : List AttributeId := .value :: reserved

/-- A key is what its template and its value make it, but for the attributes `changed`. -/
structure Finishes (t : SecretTemplate) (v : Bytes) (changed : List AttributeId) (o : Object) : Prop where
  alters : (t.initialObject v).Alters (.valueLen :: .checkValue :: changed) o
  valueLen : o.value? .valueLen = some (.number (UInt64.ofNat v.length))
  checkValue : o.value? .checkValue = some (.bytes (Object.checkValue t.type v))

variable {t : SecretTemplate} {v : Bytes} {changed : List AttributeId} {o : Object}

/-- An attribute that no template reaches is found where a key type sets it or not at all. -/
theorem lastValue?_overrides {as : List Attribute} (h : t.Reads as) {id : AttributeId} (hid : id ∈ settled) :
    lastValue? t.overrides id = none := by
  refine lastValue?_eq_none fun a ha => ?_
  rw [h.overrides, List.mem_filter] at ha
  rintro rfl
  rcases List.mem_cons.1 hid with hvalue | hreserved
  · exact h.valueless a ha.1 hvalue
  · have hfree : ¬ a.id ∈ reserved := by simpa using ha.2
    exact hfree hreserved

/-- A new key before it has an identifier: the key type, the defaults, the template and the value. -/
def unnamed (t : SecretTemplate) (v : Bytes) : Object :=
  (t.overrides.foldl Object.put ((defaults.map fun p => .ofBool p.1 p.2).foldl Object.put
    ((Object.new .secretKey).put (.ofNumber .keyType t.type.val)))).put (.ofBytes .value v)

theorem initialObject_eq (t : SecretTemplate) (v : Bytes) : t.initialObject v = (t.unnamed v).generateUnique := by
  rw [unnamed, List.foldl_map]
  rfl

theorem value_unnamed (t : SecretTemplate) (v : Bytes) (id : AttributeId) :
    (t.unnamed v).value? id =
      if .value = id then some (.bytes v)
      else (lastValue? t.overrides id).or (((defaults.lookup id).map .bool).or
        (if .keyType = id then some (.number t.type.val)
        else if .classId = id then some (.number ObjectClass.secretKey.val) else none)) := by
  rw [unnamed, Object.value_put, Object.value_foldl_put, Object.value_foldl_put, Object.value_put, Object.value_new,
    lastValue?_flags (by decide)]
  rfl

theorem attribute_initialObject (h : lastValue? t.overrides .uniqueId = none) (v : Bytes) (id : AttributeId) :
    (t.initialObject v).value? id = if id = .uniqueId then some .drawnId else (t.unnamed v).value? id := by
  rw [initialObject_eq, Object.value_generateUnique]
  rw [value_unnamed, h]
  rfl

theorem distinct_initialObject (t : SecretTemplate) (v : Bytes) : (t.initialObject v).Distinct := by
  rw [initialObject_eq]
  exact (((((Object.distinct_new _).put _).foldl_put _).foldl_put _).put _).generateUnique

theorem cls_initialObject (t : SecretTemplate) (v : Bytes) : (t.initialObject v).cls = .secretKey := by
  rw [initialObject_eq, Object.cls_generateUnique, unnamed, Object.cls_put, Object.cls_foldl_put, Object.cls_foldl_put]
  rfl

theorem Finishes.alter {altered : List AttributeId} {o' : Object} (h : t.Finishes v changed o)
    (ha : o.Alters altered o') (hsub : altered ⊆ changed) (hlen : .valueLen ∉ altered)
    (hcheck : .checkValue ∉ altered) : t.Finishes v changed o' where
  alters := h.alters.trans (ha.mono fun _ hid => by simp [hsub hid])
  valueLen := (ha.value _ hlen).trans h.valueLen
  checkValue := (ha.value _ hcheck).trans h.checkValue

section

variable {as : List Attribute} (hr : t.Reads as)
include hr

theorem classId_initialObject (v : Bytes) :
    (t.initialObject v).value? .classId = some (.number ObjectClass.secretKey.val) := by
  rw [attribute_initialObject (lastValue?_overrides hr (by decide)), value_unnamed,
    lastValue?_overrides hr (by decide)]
  rfl

theorem keyType_initialObject (v : Bytes) :
    (t.initialObject v).value? .keyType = some (.number t.type.val) := by
  rw [attribute_initialObject (lastValue?_overrides hr (by decide)), value_unnamed,
    lastValue?_overrides hr (by decide)]
  rfl

theorem value_initialObject (v : Bytes) : (t.initialObject v).value? .value = some (.bytes v) := by
  rw [attribute_initialObject (lastValue?_overrides hr (by decide)), value_unnamed]
  rfl

theorem uniqueId_initialObject (v : Bytes) : (t.initialObject v).value? .uniqueId = some .drawnId := by
  rw [attribute_initialObject (lastValue?_overrides hr (by decide))]
  rfl

/-- What the template says last holds, or else the default. -/
theorem other_initialObject (v : Bytes) {id : AttributeId} (hid : id ∉ settled) :
    (t.initialObject v).value? id = (lastValue? as id).or ((defaults.lookup id).map .bool) := by
  have hne : ∀ id' ∈ settled, ¬ id' = id := by
    rintro id' hid' rfl
    exact hid hid'
  have hfree : ¬ id ∈ reserved := fun h => hid (List.mem_cons_of_mem _ h)
  rw [attribute_initialObject (lastValue?_overrides hr (by decide)), if_neg fun he => hne _ (by decide) he.symm,
    value_unnamed, if_neg (hne _ (by decide)), if_neg (hne _ (by decide)), if_neg (hne _ (by decide)), Option.or_none,
    hr.overrides, lastValue?_filter]
  rintro a - rfl
  simpa using hfree

/-- Setting flags and then recomputing gives a key that is what its template and its value make it. -/
theorem finishes_recompute (changed : List AttributeId) {o' : Object}
    (ho : (t.initialObject v).Alters (.valueLen :: .checkValue :: changed) o)
    (hkey : .keyType ∉ changed) (hvalue : .value ∉ changed) (h : o.recompute = .ok o') :
    t.Finishes v changed o' ∧ o.Alters [.valueLen, .checkValue] o' := by
  -- Type and value are read back from the object, so they have to be those it started with.
  obtain ⟨n, hn, h⟩ := Except.bind_ok.1 h
  obtain ⟨b, hb, h⟩ := Except.bind_ok.1 h
  rw [Object.getNumber_ok, ho.value _ (by simpa using ⟨by decide, by decide, hkey⟩), keyType_initialObject hr] at hn
  rw [Object.getBytes_ok, ho.value _ (by simpa using ⟨by decide, by decide, hvalue⟩), value_initialObject hr] at hb
  cases hn
  cases hb
  cases h
  refine ⟨⟨(ho.put (by simp [Attribute.ofNumber])).put (by simp [Attribute.ofBytes]), ?_, ?_⟩, ?_⟩
  · rw [Object.value_put_ne _ (show AttributeId.checkValue ≠ .valueLen by decide), Object.value_put]
    rfl
  · rw [Object.value_put]
    rfl
  · exact ((Object.Alters.refl _ o).put (by simp [Attribute.ofNumber])).put (by simp [Attribute.ofBytes])

/-- The last steps of building and of deriving a key: its exposure is set and the rest computed. -/
theorem finishes_exposure (changed : List AttributeId) {always never : Bool} {o' : Object}
    (ho : (t.initialObject v).Alters (.valueLen :: .checkValue :: changed) o)
    (halways : .alwaysSensitive ∈ changed) (hnever : .neverExtractable ∈ changed) (hkey : .keyType ∉ changed)
    (hvalue : .value ∉ changed)
    (h : ((o.put (.ofBool .alwaysSensitive always)).put (.ofBool .neverExtractable never)).recompute = .ok o') :
    t.Finishes v changed o' ∧ o.Alters [.valueLen, .checkValue, .alwaysSensitive, .neverExtractable] o' ∧
      o'.alwaysSensitive = always ∧ o'.neverExtractable = never := by
  have hsub : changed ⊆ .valueLen :: .checkValue :: changed := by simp
  obtain ⟨hf, hrec⟩ := finishes_recompute hr changed ((ho.put (hsub halways)).put (hsub hnever)) hkey hvalue h
  have hset : o.Alters [.alwaysSensitive, .neverExtractable] _ :=
    ((Object.Alters.refl _ o).put (a := .ofBool .alwaysSensitive always) (by simp [Attribute.ofBool])).put
      (a := .ofBool .neverExtractable never) (by simp [Attribute.ofBool])
  refine ⟨hf, (hset.mono (by simp)).trans (hrec.mono (by simp)), ?_, ?_⟩
  · exact (hrec.flag (by decide) false).trans
      ((Object.flag_put_ne _ (show AttributeId.neverExtractable ≠ .alwaysSensitive by decide) _).trans
        (Object.flag_put_self ..))
  · exact (hrec.flag (by decide) false).trans (Object.flag_put_self ..)

/-- What is known of a key that was built. -/
theorem build_ok {secret : Bytes} (h : t.build secret = .ok o) :
    ∃ v, t.reconcile secret = .ok v ∧ t.Finishes v [.alwaysSensitive, .neverExtractable] o ∧
      o.alwaysSensitive = o.sensitive ∧ o.neverExtractable = !o.extractable := by
  obtain ⟨v, hv, h⟩ := Except.bind_ok.1 h
  obtain ⟨hf, halters, halways, hnever⟩ := finishes_exposure hr [.alwaysSensitive, .neverExtractable]
    (Object.Alters.refl ..) (by simp) (by simp) (by decide) (by decide) h
  refine ⟨v, hv, hf, ?_, ?_⟩
  · rw [halways, halters.sensitive (by decide)]
  · rw [hnever, halters.extractable (by decide)]

end

end SecretTemplate

/-! ## Derived keys -/

theorem SecretTemplate.require_ok {t : Option SecretTemplate} {t' : SecretTemplate} :
    require t = .ok t' ↔ t = some t' := by
  cases t <;> simp [require, fail]

/-- The key that a rule puts behind the base key. -/
def DerivationRule.other? : DerivationRule → Option OtherKey
  | .appendKey other => some other
  | _ => none

namespace DerivationGenerator

variable {g : DerivationGenerator} {t : SecretTemplate} {as : List Attribute} {base o : Object}

theorem init_eq {g₀ : DerivationGenerator} (h : g₀.init as = .ok g) :
    ∃ t, SecretTemplate.ofAttributes as = .ok t ∧ g = { g₀ with template := some t } := by
  obtain ⟨t, ht, h⟩ := Except.bind_ok.1 h
  cases h
  exact ⟨t, ht, rfl⟩

/-- A derived key takes the exposure of its base key over. -/
theorem derivedKey_ok {secret : Bytes} (ht : g.template = some t) (hr : t.Reads as)
    (h : g.derivedKey base secret = .ok o) :
    ∃ v, t.reconcile secret = .ok v ∧ t.Finishes v [.isLocal, .alwaysSensitive, .neverExtractable] o ∧
      o.value? .isLocal = some (.bool false) ∧
      o.alwaysSensitive = (base.alwaysSensitive && o.sensitive) ∧
      o.neverExtractable = (base.neverExtractable && !o.extractable) := by
  obtain ⟨t', ht', h⟩ := Except.bind_ok.1 h
  obtain rfl : t = t' := by simpa [ht] using SecretTemplate.require_ok.1 ht'
  obtain ⟨b, hb, h⟩ := Except.bind_ok.1 h
  obtain ⟨v, hv, hf, hs, he⟩ := SecretTemplate.build_ok hr hb
  obtain ⟨o', hrec, h⟩ := Except.bind_ok.1 h
  obtain ⟨_, -, h⟩ := Except.bind_ok.1 h
  cases h
  have hlocal : b.Alters [.isLocal] (b.put (.ofBool .isLocal false)) :=
    (Object.Alters.refl _ b).put (by simp [Attribute.ofBool])
  obtain ⟨hf', halters, halways, hnever⟩ :=
    SecretTemplate.finishes_exposure hr [.isLocal, .alwaysSensitive, .neverExtractable]
      ((hf.alters.mono (by simp)).trans (hlocal.mono (by simp))) (by simp) (by simp) (by decide) (by decide) hrec
  refine ⟨v, hv, hf', ?_, ?_, ?_⟩
  · rw [halters.value _ (by decide), Object.value_put]
    rfl
  · rw [halways, halters.sensitive (by decide), hlocal.sensitive (by decide), ← hs]
    exact congrArg _ (hlocal.flag (by decide) false)
  · rw [hnever, halters.extractable (by decide), hlocal.extractable (by decide), ← he]
    exact congrArg _ (hlocal.flag (by decide) false)

/-- A mark that is taken away unless it is to be kept. -/
theorem clear_unless (keep : Bool) (o : Object) (id : AttributeId) :
    o.Alters [id] (if keep then o else o.put (.ofBool id false)) ∧
      (if keep then o else o.put (.ofBool id false)).flag id false = (o.flag id false && keep) := by
  cases keep with
  | true => exact ⟨.refl _ o, by simp⟩
  | false => exact ⟨(Object.Alters.refl _ o).put (by simp [Attribute.ofBool]), by simp [Object.flag_put_self]⟩

/-- The other key only takes marks away. -/
theorem taint_ok (other : OtherKey) (o : Object) :
    o.Alters [.alwaysSensitive, .neverExtractable] (taint other o) ∧
      (taint other o).alwaysSensitive = (o.alwaysSensitive && other.alwaysSensitive) ∧
      (taint other o).neverExtractable = (o.neverExtractable && other.neverExtractable) := by
  obtain ⟨ha, halways⟩ := clear_unless other.alwaysSensitive o .alwaysSensitive
  obtain ⟨hn, hnever⟩ := clear_unless other.neverExtractable
    (if other.alwaysSensitive then o else o.put (.ofBool .alwaysSensitive false)) .neverExtractable
  refine ⟨(ha.mono (by simp)).trans (hn.mono (by simp)), ?_, ?_⟩
  · exact (hn.flag (by decide) false).trans halways
  · rw [ha.flag (by decide)] at hnever
    exact hnever

/-- What is known of a key that a generator makes. -/
theorem generate_ok (ht : g.template = some t) (hr : t.Reads as) (h : g.generate base = .ok o) :
    ∃ v, t.Finishes v [.isLocal, .alwaysSensitive, .neverExtractable] o ∧
      o.value? .isLocal = some (.bool false) ∧
      o.alwaysSensitive = (base.alwaysSensitive && o.sensitive && g.rule.other?.all (·.alwaysSensitive)) ∧
      o.neverExtractable = (base.neverExtractable && !o.extractable && g.rule.other?.all (·.neverExtractable)) := by
  obtain ⟨secret, -, h⟩ := Except.bind_ok.1 h
  obtain ⟨d, hd, h⟩ := Except.bind_lift_ok.1 h
  obtain ⟨v, -, hf, hlocal, halways, hnever⟩ := derivedKey_ok ht hr hd
  cases hrule : g.rule with
  | appendKey other =>
    rw [hrule] at h
    cases h
    obtain ⟨halters, ha, hn⟩ := taint_ok other d
    refine ⟨v, hf.alter halters (by simp) (by decide) (by decide), (halters.value _ (by decide)).trans hlocal, ?_, ?_⟩
    · rw [ha, halways, halters.sensitive (by decide)]
      rfl
    · rw [hn, hnever, halters.extractable (by decide)]
      rfl
  | _ =>
    rw [hrule] at h
    cases h
    refine ⟨v, hf, hlocal, ?_, ?_⟩
    · simpa [DerivationRule.other?] using halways
    · simpa [DerivationRule.other?] using hnever

end DerivationGenerator

/-! ## Encapsulated keys -/

namespace Encapsulator

variable {e : Encapsulator} {t : SecretTemplate} {as : List Attribute} {o : Object}

theorem init_eq {e₀ : Encapsulator} (h : e₀.init as = .ok e) :
    ∃ t, SecretTemplate.ofAttributes as = .ok t ∧ e = { e₀ with template := some t } := by
  obtain ⟨t, ht, h⟩ := Except.bind_ok.1 h
  cases h
  exact ⟨t, ht, rfl⟩

/-- Clearing the flags touches nothing else. -/
theorem alters_cleared (b : Object) :
    b.Alters clearedFlags (clearedFlags.foldl (fun o id => o.put (.ofBool id false)) b) := by
  rw [← List.foldl_map (f := fun id => Attribute.ofBool id false) (g := Object.put)]
  exact (Object.Alters.refl _ b).foldl_put (by simp [Attribute.ofBool])

/-- What is known of the key that holds an encapsulated secret. -/
theorem secretKey_ok {secret : Bytes} (ht : e.template = some t) (hr : t.Reads as)
    (h : e.secretKey secret = .ok o) :
    ∃ v, t.reconcile secret = .ok v ∧ t.Finishes v clearedFlags o ∧
      ∀ id ∈ clearedFlags, o.value? id = some (.bool false) := by
  obtain ⟨t', ht', h⟩ := Except.bind_ok.1 h
  obtain rfl : t = t' := by simpa [ht] using SecretTemplate.require_ok.1 ht'
  obtain ⟨b, hb, h⟩ := Except.bind_ok.1 h
  obtain ⟨v, hv, hf, -⟩ := SecretTemplate.build_ok hr hb
  obtain ⟨hf', hrec⟩ := SecretTemplate.finishes_recompute hr clearedFlags
    ((hf.alters.mono (by decide)).trans ((alters_cleared b).mono (by simp))) (by decide) (by decide) h
  refine ⟨v, hv, hf', fun id hid => ?_⟩
  have hlast : ∀ id ∈ clearedFlags, id ∉ [AttributeId.valueLen, .checkValue] ∧
      lastValue? (clearedFlags.map fun id => .ofBool id false) id = some (.bool false) := by decide
  rw [hrec.value _ (hlast id hid).1, ← List.foldl_map (f := fun id => Attribute.ofBool id false) (g := Object.put),
    Object.value_foldl_put, (hlast id hid).2]
  rfl

end Encapsulator
end SoftToken
