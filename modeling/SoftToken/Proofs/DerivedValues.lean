import SoftToken.Proofs.Dispatch
import SoftToken.Proofs.SecretValues
import SoftToken.Proofs.TemplateAcceptance
/-!
# Values and refusals of derivations

A derivation gives the value that its material settles to, or the error with which it does not
(`Registry.derivedValue_eq`). Material that is too short for the template is refused for its size, and what is kept
of longer material becomes the value of a key if the type of the key allows its length (`Registry.yields_kept`).
-/

namespace SoftToken

/-! ## Material for a template -/

namespace SecretTemplate

variable {t : SecretTemplate} {secret : Bytes}

/-- The length that a key of the template must have: the one its type fixes, or else the one asked for. -/
def needed (as : List Attribute) : Option Nat := (namedType as).secretLength?.or (namedLength as)

theorem kept_of_needed {as : List Attribute} {n : Nat} (h : needed as = some n) (secret : Bytes) :
    (reading as).kept secret = secret.take n := by
  have hn : (reading as).requiredLength = some n := h
  rw [kept, hn]

theorem kept_of_not_needed {as : List Attribute} (h : needed as = none) (secret : Bytes) :
    (reading as).kept secret = secret := by
  have hn : (reading as).requiredLength = none := h
  rw [kept, hn]

theorem minimalLength_reading (as : List Attribute) :
    (reading as).minimalLength = (needed as).getD (namedType as).minSecretLength := rfl

end SecretTemplate

/-! ## Derivations -/

/-- The result is a key with the value `u` if its type allows the length, and no key otherwise. -/
def Yields (type : KeyType) (u : Bytes) (result : Except Failure Object) : Prop :=
  if type.allowsLength u.length then ∃ o, result = .ok o ∧ o.getBytes .value = .ok u
  else ∃ e, result = .error (.error e) ∧ e.code = .attributeValueInvalid

/-- A result that yields a value fails with no code but that of an invalid value. -/
theorem Yields.avoids {type : KeyType} {u : Bytes} {result : Except Failure Object} (h : Yields type u result)
    {code : ReturnCode} (hcode : code ≠ .attributeValueInvalid) : Except.Avoids (· = code) result := by
  unfold Yields at h
  split at h
  · obtain ⟨o, rfl, -⟩ := h
    exact .ok o
  · obtain ⟨e, rfl, he⟩ := h
    exact .failure fun hc => hcode (hc.symm.trans he)

namespace Registry

variable {r : Registry} {m : Mechanism} {store : Store} {as : List Attribute} {base : Object} {secret v : Bytes}

/-- The value of the key that a derivation gives, or its failure. -/
def derivedValue (r : Registry) (m : Mechanism) (store : Store) (as : List Attribute) (base : Object) :
    Except Failure Bytes := do
  (← r.derive m store as base).getBytes .value

theorem derivedValue_ok :
    r.derivedValue m store as base = .ok v ↔ ∃ o, r.derive m store as base = .ok o ∧ o.getBytes .value = .ok v := by
  unfold derivedValue
  rw [Except.bind_ok]
  exact exists_congr fun o => and_congr_right fun _ => Except.lift_ok

/-- Every key that is derived has a value, so that a failure is one of the derivation. -/
theorem derivedValue_error {e : Failure} :
    r.derivedValue m store as base = .error e ↔ r.derive m store as base = .error e := by
  unfold derivedValue
  cases h : r.derive m store as base with
  | error e' => exact ⟨fun h => by cases h; rfl, fun h => by cases h; rfl⟩
  | ok o =>
    obtain ⟨v, hv⟩ := exists_value_of_derive h
    rw [Except.ok_bind, hv]
    exact iff_of_false nofun nofun

/-- With an accepted template, the value of the key is what the material of the generator settles to. -/
theorem derivedValue_eq {t : SecretTemplate} (ht : SecretTemplate.ofAttributes as = .ok t) :
    r.derivedValue m store as base = (do
      let g ← r.derivationGenerator m store
      t.settle (← { g with template := some t }.material base)) := by
  unfold derivedValue derive
  rw [bind_assoc]
  congr
  funext g
  unfold DerivationGenerator.init
  rw [ht]
  exact DerivationGenerator.generate_value base rfl (SecretTemplate.ofAttributes_ok ht)

/-- A generator that makes the material `secret` has it settled. -/
theorem derivedValue_of_material {g : DerivationGenerator} (hg : r.derivationGenerator m store = .ok g)
    (ha : SecretTemplate.Accepted as)
    (h : { g with template := some (.reading as) }.material base = .ok secret) :
    r.derivedValue m store as base = (SecretTemplate.reading as).settle secret := by
  rw [derivedValue_eq (SecretTemplate.ofAttributes_of_accepted ha), hg, Except.liftM_ok, Except.ok_bind, h, Except.ok_bind]

/-- What is kept of material that is long enough becomes the value of the key, if the key may have it. -/
theorem yields_kept (h : r.derivedValue m store as base = (SecretTemplate.reading as).settle secret)
    (henough : (SecretTemplate.reading as).minimalLength ≤ secret.length) :
    Yields (SecretTemplate.namedType as) ((SecretTemplate.reading as).kept secret) (r.derive m store as base) := by
  rw [SecretTemplate.settle, SecretTemplate.reconcile_of_enough henough, Except.ok_bind] at h
  change _ = liftM (if (SecretTemplate.namedType as).allowsLength _ then _ else _ : Except Error Bytes) at h
  unfold Yields
  split
  · next hlen =>
    rw [if_pos hlen] at h
    exact derivedValue_ok.1 h
  · next hlen =>
    rw [if_neg hlen] at h
    exact ⟨_, derivedValue_error.1 h, rfl⟩

/-- A derivation is refused for its size exactly if the material is too short. -/
theorem fails_size_iff (h : r.derivedValue m store as base = (SecretTemplate.reading as).settle secret) :
    Except.Fails (· = .keySizeRange) (r.derive m store as base) ↔
      secret.length < (SecretTemplate.reading as).minimalLength := by
  constructor
  · intro hfails
    apply Nat.lt_of_not_le
    intro henough
    exact (yields_kept h henough).avoids (by decide) hfails
  · intro hshort
    obtain ⟨e, he, hcode⟩ := SecretTemplate.reconcile_of_short hshort
    rw [SecretTemplate.settle, he] at h
    rw [derivedValue_error.1 h]
    exact Except.fails_failure.2 hcode

/-- How a derivation ends by the length of its material, with a length that is needed and without one. -/
theorem reconciled (h : r.derivedValue m store as base = (SecretTemplate.reading as).settle secret) :
    (∀ n, SecretTemplate.needed as = some n →
      (Except.Fails (· = .keySizeRange) (r.derive m store as base) ↔ secret.length < n) ∧
      (n ≤ secret.length → Yields (SecretTemplate.namedType as) (secret.take n) (r.derive m store as base))) ∧
    (SecretTemplate.needed as = none →
      (Except.Fails (· = .keySizeRange) (r.derive m store as base) ↔
        secret.length < (SecretTemplate.namedType as).minSecretLength) ∧
      ((SecretTemplate.namedType as).minSecretLength ≤ secret.length →
        Yields (SecretTemplate.namedType as) secret (r.derive m store as base))) := by
  have hfails := fails_size_iff h
  have hyields := yields_kept h
  rw [SecretTemplate.minimalLength_reading] at hfails hyields
  constructor
  · intro n hn
    rw [hn, Option.getD_some] at hfails hyields
    rw [SecretTemplate.kept_of_needed hn] at hyields
    exact ⟨hfails, hyields⟩
  · intro hn
    rw [hn, Option.getD_none] at hfails hyields
    rw [SecretTemplate.kept_of_not_needed hn] at hyields
    exact ⟨hfails, hyields⟩

/-- A listed mechanism reaches the family that has it. -/
theorem Faithful.derivationGenerator_eq (hr : r.Faithful) (hm : m.id ∈ r.toList) {f : MechanismFamily}
    (hf : m.id ∈ f.mechanisms) (hop : f.info.supports .derive = true) :
    r.derivationGenerator m store = f.derivationGenerator m store := by
  unfold derivationGenerator
  rw [hr.findFor_eq hm hf hop, Except.ok_bind]

end Registry
end SoftToken
