import Mathlib.Data.List.Induction
import SoftToken.Key.Secret
import SoftToken.Proofs.Attributes
import SoftToken.Proofs.Draws
/-!
# Accepted templates

A template is accepted if each of its attributes is allowed there and what it names last goes together; every
other one is refused as inconsistent (`SecretTemplate.ofAttributes_ok_iff`, `SecretTemplate.refused`). Of the
lengths that a key type cannot have only those are refused that differ from a length the type fixes
(`SecretTemplate.screened_iff`).
-/

namespace SoftToken

/-! ## Attributes of a template -/

/-- The number that a value is. -/
def AttributeValue.number? : AttributeValue → Option UInt64
  | .number n => some n
  | _ => none

namespace Attribute

variable {a : Attribute}

/-- What may stand in a template: a known attribute with a value of its registered kind, which names no other
class than that of secret keys and is not the secret itself. -/
structure Allowed (a : Attribute) : Prop where
  kind : a.id.kind? = some a.value.kind
  cls : a.id = .classId → a.value = .number ObjectClass.secretKey.val
  valueless : a.id ≠ .value

theorem check_ok : a.check = .ok () ↔ a.id.kind? = some a.value.kind := by
  unfold check
  cases a.id.kind? with
  | none => exact iff_of_false nofun nofun
  | some k =>
    rw [Option.some.injEq]
    by_cases h : k = a.value.kind
    · exact iff_of_true (if_pos h) h
    · exact iff_of_false (by simp [h, refuse]) h

/-- A checked attribute whose registered kind is that of numbers holds one. -/
theorem exists_number (h : a.id.kind? = some a.value.kind) (hid : a.id.kind? = some .number) :
    ∃ n, a.value = .number n ∧ a.toNumber = .ok n := by
  have hkind : a.value.kind = .number := Option.some.inj (h.symm.trans hid)
  unfold toNumber
  generalize a.value = v at hkind ⊢
  cases v with
  | number n => exact ⟨n, rfl, rfl⟩
  | _ => cases hkind

end Attribute

/-- The number that the last attribute with an identifier holds. -/
def lastNumber? (as : List Attribute) (id : AttributeId) : Option UInt64 := (lastValue? as id).bind (·.number?)

section

variable {a : Attribute} {id : AttributeId}

theorem lastNumber?_concat (as : List Attribute) (h : a.id = id) : lastNumber? (as ++ [a]) id = a.value.number? := by
  rw [lastNumber?, lastValue?_append]
  simp [lastValue?, h]

theorem lastNumber?_concat_ne (as : List Attribute) (h : a.id ≠ id) :
    lastNumber? (as ++ [a]) id = lastNumber? as id := by
  rw [lastNumber?, lastValue?_append]
  simp [lastNumber?, lastValue?, h]

/-- In a template that is allowed, what has the kind of numbers is a number. -/
theorem lastValue?_number {as : List Attribute} (h : ∀ a ∈ as, a.Allowed) (hid : id.kind? = some .number) :
    lastValue? as id = (lastNumber? as id).map .number := by
  unfold lastNumber?
  cases hv : lastValue? as id with
  | none => rfl
  | some v =>
    obtain ⟨n, rfl : v = _, -⟩ := Attribute.exists_number (h _ (mem_of_lastValue? hv)).kind hid
    rfl

end

/-! ## Lengths of a key type -/

namespace KeyType

variable {t : KeyType} {n : Nat}

/-- The lengths that a type refuses without fixing one: block ciphers take three, other types all but none. -/
def Unfit (t : KeyType) (n : Nat) : Prop :=
  (t.isBlockCipher = true ∧ n ∉ [16, 24, 32]) ∨ (t.isBlockCipher = false ∧ t.secretLength? = none ∧ n = 0)

theorem secretLength_of_blockCipher (h : t.isBlockCipher = true) : t.secretLength? = none := by
  have ht : t = aes ∨ t = camellia := by simpa [isBlockCipher] using h
  rcases ht with rfl | rfl <;> rfl

/-- Where a length is fixed, no other one is unfit. -/
theorem Unfit.secretLength (h : t.Unfit n) : t.secretLength? = none := by
  rcases h with ⟨hblock, -⟩ | ⟨-, hopen, -⟩
  · exact secretLength_of_blockCipher hblock
  · exact hopen

/-- A length is allowed if it is the one that the type fixes, or one of those that it leaves open. -/
theorem allowsLength_iff :
    t.allowsLength n = true ↔ (∀ required, t.secretLength? = some required → required = n) ∧ ¬ t.Unfit n := by
  unfold allowsLength Unfit
  cases hblock : t.isBlockCipher with
  | true => simp [secretLength_of_blockCipher hblock, or_iff_not_imp_left]
  | false =>
    cases hfixed : t.secretLength? with
    | none => simp [Nat.pos_iff_ne_zero]
    | some required => simpa using eq_comm

end KeyType

namespace SecretTemplate

variable {as : List Attribute} {a : Attribute}

/-! ## The scan -/

/-- The key type that a template names last, or else that of generic secrets. -/
def namedType (as : List Attribute) : KeyType := ⟨(lastNumber? as .keyType).getD KeyType.genericSecret.val⟩

/-- The length that a template names last. -/
def namedLength (as : List Attribute) : Option Nat := (lastNumber? as .valueLen).map (·.toNat)

/-- What a scan of `as` finds. -/
def found (as : List Attribute) : Scan := ⟨namedType as, namedLength as⟩

theorem found_concat_type (as : List Attribute) (h : a.id = .keyType) {n : UInt64} (hv : a.value = .number n) :
    found (as ++ [a]) = { found as with type := ⟨n⟩ } := by
  have hne : a.id ≠ .valueLen := by rw [h]; decide
  rw [found, namedType, namedLength, lastNumber?_concat as h, lastNumber?_concat_ne as hne, hv]
  rfl

theorem found_concat_length (as : List Attribute) (h : a.id = .valueLen) {n : UInt64} (hv : a.value = .number n) :
    found (as ++ [a]) = { found as with requestedLength := some n.toNat } := by
  have hne : a.id ≠ .keyType := by rw [h]; decide
  rw [found, namedType, namedLength, lastNumber?_concat as h, lastNumber?_concat_ne as hne, hv]
  rfl

theorem found_concat_other (as : List Attribute) (htype : a.id ≠ .keyType) (hlen : a.id ≠ .valueLen) :
    found (as ++ [a]) = found as := by
  rw [found, namedType, namedLength, lastNumber?_concat_ne as htype, lastNumber?_concat_ne as hlen]
  rfl

/-- A step of the scan takes an allowed attribute in. -/
theorem step_found (as : List Attribute) (h : a.Allowed) : (found as).step a = .ok (found (as ++ [a])) := by
  unfold Scan.step
  rw [Attribute.check_ok.2 h.kind]
  simp only
  by_cases hcls : a.id = .classId
  · have hn : a.toNumber = .ok ObjectClass.secretKey.val := by rw [Attribute.toNumber, h.cls hcls]
    rw [if_pos hcls, hn, found_concat_other as (by rw [hcls]; decide) (by rw [hcls]; decide)]
    rfl
  by_cases htype : a.id = .keyType
  · obtain ⟨n, hv, hn⟩ := Attribute.exists_number h.kind (by rw [htype]; rfl)
    rw [if_neg hcls, if_pos htype, hn, found_concat_type as htype hv]
    rfl
  by_cases hlen : a.id = .valueLen
  · obtain ⟨n, hv, hn⟩ := Attribute.exists_number h.kind (by rw [hlen]; rfl)
    rw [if_neg hcls, if_neg htype, if_neg h.valueless, if_pos hlen, hn, found_concat_length as hlen hv]
    rfl
  · rw [if_neg hcls, if_neg htype, if_neg h.valueless, if_neg hlen, found_concat_other as htype hlen]
    rfl

/-- A step of the scan refuses an attribute that is not allowed. -/
theorem step_refused (s : Scan) (h : ¬ a.Allowed) : ∃ e, s.step a = .error e ∧ e.code = .templateInconsistent := by
  unfold Scan.step
  cases hc : a.check with
  | error e => exact ⟨_, rfl, rfl⟩
  | ok u =>
    have hkind := Attribute.check_ok.1 hc
    simp only
    by_cases hcls : a.id = .classId
    · obtain ⟨n, hv, hn⟩ := Attribute.exists_number hkind (by rw [hcls]; rfl)
      have hother : ObjectClass.mk n ≠ .secretKey := by
        rintro hn
        cases hn
        exact h ⟨hkind, fun _ => hv, by rw [hcls]; decide⟩
      rw [if_pos hcls, hn, Except.ok_bind, if_neg hother]
      exact ⟨_, rfl, rfl⟩
    by_cases hvalue : a.id = .value
    · rw [if_neg hcls, if_neg (by rw [hvalue]; decide), if_pos hvalue]
      exact ⟨_, rfl, rfl⟩
    · exact absurd ⟨hkind, fun hid => absurd hid hcls, hvalue⟩ h

theorem scan_found (h : ∀ a ∈ as, a.Allowed) : as.foldlM Scan.step {} = .ok (found as) := by
  induction as using List.reverseRecOn with
  | nil => rfl
  | append_singleton as a ih =>
    obtain ⟨has, ha⟩ := List.forall_mem_append.1 h
    rw [List.foldlM_append, ih has, Except.ok_bind, List.foldlM_cons, step_found as (ha a (by simp))]
    rfl

/-- The first attribute that is not allowed ends the scan. -/
theorem scan_refused (h : ¬ ∀ a ∈ as, a.Allowed) :
    ∃ e, as.foldlM Scan.step {} = .error e ∧ e.code = .templateInconsistent := by
  induction as using List.reverseRecOn with
  | nil => exact absurd nofun h
  | append_singleton as a ih =>
    by_cases has : ∀ a ∈ as, a.Allowed
    · have ha : ¬ a.Allowed := fun ha => h (List.forall_mem_append.2 ⟨has, by simpa using ha⟩)
      obtain ⟨e, he, hcode⟩ := step_refused (found as) ha
      rw [List.foldlM_append, scan_found has, Except.ok_bind, List.foldlM_cons, he]
      exact ⟨e, rfl, hcode⟩
    · obtain ⟨e, he, hcode⟩ := ih has
      rw [List.foldlM_append, he]
      exact ⟨e, rfl, hcode⟩

/-! ## What is accepted -/

/-- Every attribute of the template is allowed, and it names the type of a secret key. -/
structure Readable (as : List Attribute) : Prop where
  allowed : ∀ a ∈ as, a.Allowed
  secret : (namedType as).isSecret = true

/-- No length is asked for but one that the type fixes, if it fixes any. -/
structure Accepted (as : List Attribute) : Prop extends Readable as where
  fits : ∀ required requested, (namedType as).secretLength? = some required → namedLength as = some requested →
    required = requested

/-- What a template asks for if it is accepted: what it names last, and all that is not fixed or computed. -/
def reading (as : List Attribute) : SecretTemplate :=
  ⟨namedType as, namedLength as, as.filter fun a => !reserved.contains a.id⟩

theorem ofAttributes_of_accepted (h : Accepted as) : ofAttributes as = .ok (reading as) := by
  have hsecret : (!(found as).type.isSecret) = false := by simp [found, h.secret]
  unfold ofAttributes
  rw [scan_found h.allowed, Except.ok_bind, if_neg (by simp [hsecret])]
  dsimp only
  split
  · next required requested hfixed hasked =>
    rw [if_pos (h.fits required requested hfixed hasked)]
    rfl
  · rfl

/-- A template that is not accepted is inconsistent. -/
theorem refused (h : ¬ Accepted as) : ∃ e, ofAttributes as = .error e ∧ e.code = .templateInconsistent := by
  unfold ofAttributes
  by_cases hallowed : ∀ a ∈ as, a.Allowed
  · rw [scan_found hallowed, Except.ok_bind]
    split
    · exact ⟨_, rfl, rfl⟩
    next hsecret =>
    have hread : Readable as := ⟨hallowed, by simpa [found] using hsecret⟩
    dsimp only
    split
    · next required requested hfixed hasked =>
      have hne : ¬ required = requested := by
        rintro rfl
        refine h ⟨hread, fun required' requested' hfixed' hasked' => ?_⟩
        exact (Option.some.inj (hfixed'.symm.trans hfixed)).trans (Option.some.inj (hasked.symm.trans hasked'))
      rw [if_neg hne]
      exact ⟨_, rfl, rfl⟩
    · next hopen =>
      exact absurd ⟨hread, fun required requested hfixed hasked => (hopen required requested hfixed hasked).elim⟩ h
  · obtain ⟨e, he, hcode⟩ := scan_refused hallowed
    rw [he]
    exact ⟨e, rfl, hcode⟩

theorem code_of_refused {e : Error} (h : ofAttributes as = .error e) : e.code = .templateInconsistent := by
  have hno : ¬ Accepted as := fun haccepted => by
    rw [ofAttributes_of_accepted haccepted] at h
    cases h
  obtain ⟨e', he', hcode⟩ := refused hno
  rw [h] at he'
  cases he'
  exact hcode

theorem ofAttributes_ok_iff {t : SecretTemplate} : ofAttributes as = .ok t ↔ Accepted as ∧ t = reading as := by
  constructor
  · intro h
    have haccepted : Accepted as := by
      refine Classical.byContradiction fun hno => ?_
      obtain ⟨e, he, -⟩ := refused hno
      rw [he] at h
      cases h
    rw [ofAttributes_of_accepted haccepted] at h
    exact ⟨haccepted, (Except.ok.inj h).symm⟩
  · rintro ⟨h, rfl⟩
    exact ofAttributes_of_accepted h

theorem exists_ok_iff : (∃ t, ofAttributes as = .ok t) ↔ Accepted as :=
  ⟨fun ⟨_, h⟩ => (ofAttributes_ok_iff.1 h).1, fun h => ⟨_, ofAttributes_of_accepted h⟩⟩

/-! ## What is possible -/

/-- A secret key can be what the template asks for: its type allows the length, if one is named. -/
structure Possible (as : List Attribute) : Prop extends Readable as where
  allows : ∀ requested, namedLength as = some requested → (namedType as).allowsLength requested = true

/-- The template asks for a length that nothing but its type speaks against. -/
structure Overlooked (as : List Attribute) : Prop extends Readable as where
  unfit : ∃ requested, namedLength as = some requested ∧ (namedType as).Unfit requested

theorem accepted_iff : Accepted as ↔ Possible as ∨ Overlooked as := by
  constructor
  · intro h
    by_cases hunfit : ∃ requested, namedLength as = some requested ∧ (namedType as).Unfit requested
    · exact .inr ⟨h.toReadable, hunfit⟩
    · refine .inl ⟨h.toReadable, fun requested hasked => KeyType.allowsLength_iff.2 ⟨?_, ?_⟩⟩
      · exact fun required hfixed => h.fits required requested hfixed hasked
      · exact fun hn => hunfit ⟨requested, hasked, hn⟩
  · rintro (h | h)
    · refine ⟨h.toReadable, fun required requested hfixed hasked => ?_⟩
      exact (KeyType.allowsLength_iff.1 (h.allows requested hasked)).1 required hfixed
    · obtain ⟨n, hn, hunfit⟩ := h.unfit
      refine ⟨h.toReadable, fun required requested hfixed hasked => ?_⟩
      rw [hunfit.secretLength] at hfixed
      cases hfixed

theorem Overlooked.not_possible (h : Overlooked as) : ¬ Possible as := by
  intro hp
  obtain ⟨n, hn, hunfit⟩ := h.unfit
  exact (KeyType.allowsLength_iff.1 (hp.allows n hn)).2 hunfit

/-- The template is accepted if a key can be what it asks for, and is inconsistent otherwise. -/
structure Screened (as : List Attribute) : Prop where
  ok_iff : (∃ t, ofAttributes as = .ok t) ↔ Possible as
  error : ¬ Possible as → ∃ e, ofAttributes as = .error e ∧ e.code = .templateInconsistent

/-- Possible templates are accepted and all others inconsistent, but for those with a length that is overlooked:
these are accepted too. -/
theorem screened_iff (as : List Attribute) :
    (Screened as ↔ ¬ Overlooked as) ∧ ((∃ t, ofAttributes as = .ok t) ↔ Possible as ∨ Overlooked as) ∧
      ∀ e, ofAttributes as = .error e → e.code = .templateInconsistent := by
  refine ⟨⟨?_, ?_⟩, exists_ok_iff.trans accepted_iff, fun _ => code_of_refused⟩
  · intro h hover
    exact hover.not_possible (h.ok_iff.1 (exists_ok_iff.2 (accepted_iff.2 (.inr hover))))
  · intro h
    have hiff : Accepted as ↔ Possible as := accepted_iff.trans (or_iff_left h)
    exact ⟨exists_ok_iff.trans hiff, fun hno => refused (mt hiff.1 hno)⟩

/-- A template for an AES key of 17 bytes is accepted. -/
theorem accepts_unfit_length :
    ofAttributes [.ofNumber .keyType KeyType.aes.val, .ofNumber .valueLen 17] = .ok ⟨.aes, some 17, []⟩ ∧
      ¬ Possible [.ofNumber .keyType KeyType.aes.val, .ofNumber .valueLen 17] := by
  refine ⟨rfl, fun h => ?_⟩
  have hallows := h.allows 17 rfl
  cases hallows

end SecretTemplate
end SoftToken
