import SoftToken.Proofs.BaseKeys
import SoftToken.Proofs.SecretKeys
import SoftToken.Registry
/-!
# Exposure of derived keys

A derived key counts as never exposed only if all the keys it was derived from do
(`Registry.derived_exposure`). The step is an equation that holds for every mechanism and template; along
a chain of derivations the mark of an exposed ancestor is never lost.
-/

namespace SoftToken

/-- The key that a mechanism puts behind the base key: the stored one that its parameters name. -/
def Mechanism.appendedKey? (m : Mechanism) (store : Store) : Option Object :=
  if m.id = .concatenateBaseAndKey then
    match Params.decode HandleParam m.params with
    | .ok p => store.find? p.handle
    | .error _ => none
  else none

theorem Mechanism.appendedKey_eq_some {m : Mechanism} {store : Store} {o : Object} :
    m.appendedKey? store = some o ↔ m.id = .concatenateBaseAndKey ∧
      ∃ p, Params.decode HandleParam m.params = .ok p ∧ store.find? p.handle = some o := by
  unfold appendedKey?
  by_cases hid : m.id = .concatenateBaseAndKey
  · rw [if_pos hid]
    cases Params.decode HandleParam m.params <;> simp [hid]
  · rw [if_neg hid]
    exact iff_of_false nofun fun h => hid h.1

/-- The keys that a key derived from `base` goes back to. -/
def Mechanism.sources (m : Mechanism) (store : Store) (base : Object) : List Object :=
  base :: (m.appendedKey? store).toList

theorem Mechanism.all_sources (m : Mechanism) (store : Store) (base : Object) (f : Object → Bool) :
    (m.sources store base).all f = (f base && (m.appendedKey? store).all f) := by
  unfold sources
  cases m.appendedKey? store <;> simp

/-- The key `k` is derived from `base` by a mechanism of the registry, with a template of any kind. -/
def Registry.Derives (r : Registry) (m : Mechanism) (store : Store) (as : List Attribute) (base k : Object) : Prop :=
  ∃ g₀ g, r.derivationGenerator m store = .ok g₀ ∧ g₀.init as = .ok g ∧ g.generate base = .ok k

/-- The object `k` goes back to `a` by derivations; between them objects may be stored. -/
inductive Descends : Object → Object → Prop
  | self (a : Object) : Descends a a
  | derived {r : Registry} {m : Mechanism} {store : Store} {as : List Attribute} {a source base k : Object} :
    Descends a source → source ∈ m.sources store base → r.Derives m store as base k → Descends a k
  | stored {a k : Object} (handle : UInt64) : Descends a k → Descends a { k with handle := handle }

/-! ## The other key -/

namespace DerivationGenerator

variable {m : Mechanism} {store : Store} {g : DerivationGenerator}

/-- The exposure that the generator has on record for the other key is that of the stored object. -/
def Records (m : Mechanism) (store : Store) (g : DerivationGenerator) : Prop :=
  g.rule.other?.map (fun k => (k.alwaysSensitive, k.neverExtractable)) =
    (m.appendedKey? store).map fun o => (o.alwaysSensitive, o.neverExtractable)

theorem Records.all (h : g.Records m store) :
    g.rule.other?.all (·.alwaysSensitive) = (m.appendedKey? store).all (·.alwaysSensitive) ∧
      g.rule.other?.all (·.neverExtractable) = (m.appendedKey? store).all (·.neverExtractable) := by
  unfold Records at h
  cases hother : g.rule.other? <;> cases hkey : m.appendedKey? store <;> simp_all

/-- Nothing is on record where no key is named. -/
theorem records_none (hg : g.rule.other? = none) (hm : m.appendedKey? store = none) : g.Records m store := by
  rw [Records, hg, hm]
  rfl

theorem appendedKey_none (h : m.id ≠ .concatenateBaseAndKey) : m.appendedKey? store = none := if_neg h

/-- Parameters of an agreement have more than the number they start with. -/
theorem number_of_agreement {b : Bytes} {p : AgreementParams} (h : Params.decode AgreementParams b = .ok p) :
    ∃ n x r, Codec.number.read b = .ok (n, x :: r) := by
  obtain ⟨⟨fields, _⟩, hfields, -⟩ := Except.bind_ok.1 (Except.mapError_ok.1 h)
  obtain ⟨⟨pair, _⟩, hpair, -⟩ := Except.bind_ok.1 hfields
  obtain ⟨⟨n, rest⟩, hn, hpair⟩ := Except.bind_ok.1 hpair
  obtain ⟨⟨options, _⟩, hoptions, -⟩ := Except.bind_ok.1 hpair
  obtain ⟨⟨shared, _⟩, hshared, -⟩ := Except.bind_ok.1 hoptions
  obtain ⟨⟨tag, _⟩, htag, -⟩ := Except.bind_ok.1 hshared
  cases rest with
  | nil => cases htag
  | cons x r => exact ⟨n, x, r, hn⟩

/-- Parameters of an agreement are too long to be a handle. -/
theorem handle_of_agreement {b : Bytes} {p : AgreementParams} (h : Params.decode AgreementParams b = .ok p)
    (p' : HandleParam) : Params.decode HandleParam b ≠ .ok p' := by
  obtain ⟨n, x, r, hn⟩ := number_of_agreement h
  intro h'
  obtain ⟨⟨v, rest⟩, hv, hend⟩ := Except.bind_ok.1 (Except.mapError_ok.1 h')
  obtain ⟨⟨k, rest'⟩, hk, hv⟩ := Except.bind_ok.1 hv
  cases hn.symm.trans hk
  cases hv
  cases hend

theorem records_ofAgreement (h : ofAgreement m = .ok g) : g.Records m store := by
  obtain ⟨⟨p, kdf⟩, hp, h⟩ := Except.bind_ok.1 h
  obtain ⟨p', hp', -⟩ := Except.bind_ok.1 hp
  have hg : g.rule.other? = none := by
    simp only at h
    split at h
    · cases h
    · cases h; rfl
  refine records_none hg ?_
  unfold Mechanism.appendedKey?
  split
  · split
    · next p'' hp'' => exact absurd hp'' (handle_of_agreement hp' p'')
    · rfl
  · rfl

/-- A mechanism of a table that does not list the appending one names no other key. -/
theorem appendedKey_of_lookup {α : Type} {table : List (MechanismId × α)} {a : α} (hm : table.lookup m.id = some a)
    (hnone : table.lookup .concatenateBaseAndKey = none) : m.appendedKey? store = none := by
  refine appendedKey_none fun he => ?_
  rw [he, hnone] at hm
  cases hm

theorem records_ofEncryption (h : ofEncryption m = .ok g) : g.Records m store := by
  unfold ofEncryption at h
  split at h
  · cases h
  next cipher chained hm =>
  obtain ⟨⟨iv, data⟩, -, h⟩ := Except.bind_ok.1 h
  simp only at h
  split at h
  · cases h
  · cases h
    exact records_none rfl (appendedKey_of_lookup hm (by decide))

theorem records_ofDigest (h : ofDigest m = .ok g) : g.Records m store := by
  unfold ofDigest at h
  split at h
  · next d hm =>
    obtain ⟨_, -, h⟩ := Except.bind_ok.1 h
    cases h
    exact records_none rfl (appendedKey_of_lookup hm (by decide))
  · cases h

theorem records_ofHkdf (h : ofHkdf m store = .ok g) : g.Records m store := by
  unfold ofHkdf at h
  split at h
  · cases h
  next hm =>
  have hnone : m.appendedKey? store = none := appendedKey_none fun he => hm (by rw [he]; decide)
  obtain ⟨p, -, h⟩ := Except.bind_ok.1 h
  split at h
  · cases h
  obtain ⟨digest, -, h⟩ := Except.bind_ok.1 h
  refine records_none ?_ hnone
  split at h
  all_goals
    obtain ⟨salt, -, h⟩ := Except.bind_ok.1 h
    cases h
    rfl

theorem records_ofCombination (h : ofCombination m store = .ok g) : g.Records m store := by
  unfold ofCombination at h
  simp only at h
  split at h
  · next hm =>
    obtain ⟨p, hp, h⟩ := Except.bind_ok.1 h
    obtain ⟨k, hk, h⟩ := Except.bind_ok.1 h
    obtain ⟨o, ho, -, halways, hnever⟩ := otherKey_ok.1 hk
    cases h
    have hother : m.appendedKey? store = some o := Mechanism.appendedKey_eq_some.2 ⟨hm, p, hp, ho⟩
    rw [Records, hother, Option.map_some, ← halways, ← hnever]
    rfl
  next hm =>
  refine records_none ?_ (appendedKey_none hm)
  split at h
  · obtain ⟨data, -, h⟩ := Except.bind_ok.1 h
    cases h; rfl
  split at h
  · obtain ⟨data, -, h⟩ := Except.bind_ok.1 h
    cases h; rfl
  split at h
  · obtain ⟨data, -, h⟩ := Except.bind_ok.1 h
    cases h; rfl
  split at h
  · obtain ⟨p, -, h⟩ := Except.bind_ok.1 h
    cases h; rfl
  · cases h

end DerivationGenerator

/-- What a new generator has on record is the exposure of the key that its mechanism names. -/
theorem Registry.records {r : Registry} {m : Mechanism} {store : Store} {g : DerivationGenerator}
    (h : r.derivationGenerator m store = .ok g) : g.Records m store := by
  obtain ⟨f, -, h⟩ := Except.bind_ok.1 h
  cases f with
  | ecdh => exact DerivationGenerator.records_ofAgreement h
  | encryptData => exact DerivationGenerator.records_ofEncryption h
  | digestDerivation => exact DerivationGenerator.records_ofDigest h
  | hkdf => exact DerivationGenerator.records_ofHkdf h
  | combination => exact DerivationGenerator.records_ofCombination h
  | _ => cases h

/-! ## Derivations -/

variable {r : Registry} {m : Mechanism} {store : Store} {as : List Attribute} {a base k : Object}

/-- The marks of a derived key are those of all the keys it was derived from, with its own attributes. -/
theorem Registry.exposure_of_derives (h : r.Derives m store as base k) :
    k.alwaysSensitive = (k.sensitive && (m.sources store base).all (·.alwaysSensitive)) ∧
      k.neverExtractable = (!k.extractable && (m.sources store base).all (·.neverExtractable)) := by
  obtain ⟨g₀, g, hg₀, hi, hg⟩ := h
  obtain ⟨t, ht, rfl⟩ := DerivationGenerator.init_eq hi
  obtain ⟨v, -, -, halways, hnever⟩ := DerivationGenerator.generate_ok rfl (SecretTemplate.ofAttributes_ok ht) hg
  obtain ⟨ha, hn⟩ := (records hg₀).all
  rw [ha] at halways
  rw [hn] at hnever
  constructor
  · rw [halways, m.all_sources, Bool.and_comm base.alwaysSensitive, Bool.and_assoc]
  · rw [hnever, m.all_sources, Bool.and_comm base.neverExtractable, Bool.and_assoc]

/-- An exposed ancestor is never forgotten. -/
theorem Descends.exposure (h : Descends a k) :
    (a.alwaysSensitive = false → k.alwaysSensitive = false) ∧
      (a.neverExtractable = false → k.neverExtractable = false) := by
  induction h with
  | self => exact ⟨id, id⟩
  | stored handle _ ih => exact ih
  | derived _ hsource hd ih =>
    obtain ⟨halways, hnever⟩ := Registry.exposure_of_derives hd
    constructor
    · intro ha
      rw [halways, List.all_eq_false.2 ⟨_, hsource, by simp [ih.1 ha]⟩, Bool.and_false]
    · intro ha
      rw [hnever, List.all_eq_false.2 ⟨_, hsource, by simp [ih.2 ha]⟩, Bool.and_false]

/-- A derived key counts as always sensitive (never extractable) exactly if it is sensitive (not
extractable) and every key it was derived from counts so. From any ancestor of those keys to any key that
goes back to it, exposure is never lost. -/
theorem Registry.derived_exposure (h : r.Derives m store as base k) :
    (k.alwaysSensitive = true ↔
      k.sensitive = true ∧ ∀ source ∈ m.sources store base, source.alwaysSensitive = true) ∧
    (k.neverExtractable = true ↔
      k.extractable = false ∧ ∀ source ∈ m.sources store base, source.neverExtractable = true) ∧
    ∀ a source d, Descends a source → source ∈ m.sources store base → Descends k d →
      (a.alwaysSensitive = false → d.alwaysSensitive = false) ∧
      (a.neverExtractable = false → d.neverExtractable = false) := by
  obtain ⟨halways, hnever⟩ := exposure_of_derives h
  refine ⟨?_, ?_, fun a source d ha hsource hd => ?_⟩
  · rw [halways, Bool.and_eq_true, List.all_eq_true]
  · rw [hnever, Bool.and_eq_true, List.all_eq_true, Bool.not_eq_true']
  · have hk := (Descends.derived ha hsource h).exposure
    exact ⟨hd.exposure.1 ∘ hk.1, hd.exposure.2 ∘ hk.2⟩

/-! ## A run -/

namespace Exposure

/-- A secret key of one byte that never left the token. -/
def confined (never : Bool) : Object :=
  [.ofBool .derive true, .ofBool .alwaysSensitive true, .ofBool .neverExtractable never].foldl Object.put
    (.newKey .secretKey .genericSecret [.ofBytes .value [1]])

/-- The second key counted as extractable once. -/
def oneKey : Store := (Store.insert {} (confined false)).1

/-- The mechanism that appends the key with handle one. -/
def appendFirst : Mechanism := ⟨.concatenateBaseAndKey, [1, 0, 0, 0, 0, 0, 0, 0]⟩

/-- A template that claims what it may not. -/
def claiming : List Attribute :=
  [.ofBool .sensitive true, .ofBool .extractable false, .ofBool .neverExtractable true]

def appending : DerivationGenerator where
  mechanism := .concatenateBaseAndKey
  rule := .appendKey ⟨[1], true, false⟩
  template := some ⟨.genericSecret, none, claiming⟩

theorem run : ∃ k, Registry.full.Derives appendFirst oneKey claiming (confined true) k ∧ k.sensitive = true := by
  have hg : (Registry.full.derivationGenerator appendFirst oneKey).toOption =
      some { appending with template := none } := by decide +kernel
  have hi : (DerivationGenerator.init { appending with template := none } claiming).toOption = some appending := by
    decide +kernel
  have hk : (appending.generate (confined true)).toOption.map (·.sensitive) = some true := by decide +kernel
  obtain ⟨k, hk, hs⟩ := Option.map_eq_some_iff.1 hk
  exact ⟨k, ⟨_, _, Except.ok_of_toOption hg, Except.ok_of_toOption hi, Except.ok_of_toOption hk⟩, hs⟩

end Exposure

open Exposure in
/-- The key derived from a confined key and one that is not is marked always sensitive only. -/
theorem Registry.derived_exposure_append :
    ∃ k, full.Derives appendFirst oneKey claiming (confined true) k ∧
      k.alwaysSensitive = true ∧ k.neverExtractable = false := by
  obtain ⟨k, hd, hs⟩ := Exposure.run
  obtain ⟨halways, hnever, -⟩ := derived_exposure hd
  refine ⟨k, hd, halways.2 ⟨hs, by decide +kernel⟩, Bool.eq_false_iff.2 fun h => ?_⟩
  exact absurd (hnever.1 h).2 (by decide +kernel)

end SoftToken
