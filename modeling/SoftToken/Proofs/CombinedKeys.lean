import SoftToken.Proofs.DerivedValues
import SoftToken.Proofs.ParameterUse
/-!
# Digests, concatenations and exclusive ors as keys

The derivations that take a digest of the base key, or combine it with data or with another key, differ in their
material only (`Mechanism.Combines`). A key is made of its first bytes or of all of it, or else is refused for one of
two reasons, by the length of the material (`Registry.combined_key`).
-/

namespace SoftToken

/-! ## Material -/

/-- What a mechanism makes of the value of a base key: its digest, or the value with the data or the other key that
the parameters give. -/
inductive Mechanism.Combines (m : Mechanism) (store : Store) (v : Bytes) : Bytes → Prop
  | digest {d : Digest} :
    (m.id, d) ∈ DerivationGenerator.digestMechanisms → m.params = [] → m.Combines store v (d.hash v)
  | appendKey {other : Object} {w : Bytes} :
    m.appendedKey? store = some other → other.BaseKey w → m.Combines store v (v ++ w)
  | appendData {p : StringData} :
    m.id = .concatenateBaseAndData → Params.decode StringData m.params = .ok p → p.data ≠ [] →
      m.Combines store v (v ++ p.data)
  | prependData {p : StringData} :
    m.id = .concatenateDataAndBase → Params.decode StringData m.params = .ok p → p.data ≠ [] →
      m.Combines store v (p.data ++ v)
  | xorData {p : StringData} :
    m.id = .xorBaseAndData → Params.decode StringData m.params = .ok p → p.data ≠ [] →
      m.Combines store v (Bytes.xor v p.data)

namespace DerivationGenerator

/-- The mechanisms that combine the base key with something. -/
def combiningMechanisms : List MechanismId :=
  digestMechanisms.map (·.1) ++
    [.concatenateBaseAndKey, .concatenateBaseAndData, .concatenateDataAndBase, .xorBaseAndData]

/-- The generator makes the material of every base key with the value `v`, whatever the template. -/
def Makes (g : DerivationGenerator) (v material : Bytes) : Prop :=
  ∀ template base, base.BaseKey v → { g with template := template }.material base = .ok material

variable {g : DerivationGenerator} {m : Mechanism} {store : Store} {v material : Bytes}

/-- A generator whose rule is a function of the value. -/
theorem makes_of_eq {f : Bytes → Bytes}
    (h : ∀ template base, { g with template := template }.material base = (do
      return f (← { g with template := template }.baseSecret base))) : g.Makes v (f v) := by
  intro template base hbase
  rw [h, baseSecret_eq hbase]
  rfl

/-! ### Generators -/

theorem lookup_of_mem {d : Digest} (h : (m.id, d) ∈ digestMechanisms) : digestMechanisms.lookup m.id = some d := by
  have hrows : ∀ row ∈ digestMechanisms, digestMechanisms.lookup row.1 = some row.2 := by decide
  exact hrows _ h

theorem combines_ofDigest (h : ofDigest m = .ok g) (store : Store) (v : Bytes) :
    ∃ material, m.Combines store v material := by
  unfold ofDigest at h
  split at h
  · next d hd =>
    obtain ⟨_, hnone, -⟩ := Except.bind_ok.1 h
    exact ⟨_, .digest (mem_of_lookup hd) (Params.requireNone_ok.1 hnone)⟩
  · cases h

theorem stringData_ok {data : Bytes} :
    stringData m = .ok data ↔ ∃ p, Params.decode StringData m.params = .ok p ∧ p.data ≠ [] ∧ p.data = data := by
  unfold stringData
  rw [Except.bind_ok]
  refine exists_congr fun p => and_congr_right fun _ => ?_
  by_cases hp : p.data = []
  · rw [if_pos (by simp [hp])]
    exact iff_of_false nofun fun h => h.1 hp
  · rw [if_neg (by simp [hp])]
    exact (Except.ok.injEq _ _).to_iff.trans (and_iff_right hp).symm

theorem exists_of_stringData {f : Bytes → Except Error DerivationGenerator} (h : (stringData m >>= f) = .ok g) :
    ∃ p, Params.decode StringData m.params = .ok p ∧ p.data ≠ [] := by
  obtain ⟨data, hdata, -⟩ := Except.bind_ok.1 h
  obtain ⟨p, hp, hne, -⟩ := stringData_ok.1 hdata
  exact ⟨p, hp, hne⟩

theorem combines_ofCombination (h : ofCombination m store = .ok g) (hm : m.id ≠ .extractKeyFromKey) (v : Bytes) :
    ∃ material, m.Combines store v material := by
  unfold ofCombination at h
  simp only at h
  -- the cases are the mechanisms in the order in which they are looked for
  split at h
  · next hid =>
    obtain ⟨p, hp, h⟩ := Except.bind_ok.1 h
    obtain ⟨k, hk, -⟩ := Except.bind_ok.1 h
    obtain ⟨o, ho, hother, -⟩ := otherKey_ok.1 hk
    exact ⟨_, .appendKey (Mechanism.appendedKey_eq_some.2 ⟨hid, p, hp, ho⟩) hother⟩
  split at h
  · next hid =>
    obtain ⟨p, hp, hne⟩ := exists_of_stringData h
    exact ⟨_, .appendData hid hp hne⟩
  split at h
  · next hid =>
    obtain ⟨p, hp, hne⟩ := exists_of_stringData h
    exact ⟨_, .prependData hid hp hne⟩
  split at h
  · next hid =>
    obtain ⟨p, hp, hne⟩ := exists_of_stringData h
    exact ⟨_, .xorData hid hp hne⟩
  · cases h

/-- The generator of a family that derives makes `material` of every base key with the value `v`. -/
def MadeBy (f : MechanismFamily) (m : Mechanism) (store : Store) (v material : Bytes) : Prop :=
  m.id ∈ f.mechanisms ∧ f.info.supports .derive = true ∧ ∃ g, f.derivationGenerator m store = .ok g ∧ g.Makes v material

theorem madeBy_of_digest {d : Digest} (hd : (m.id, d) ∈ digestMechanisms) (hnone : m.params = []) :
    MadeBy .digestDerivation m store v (d.hash v) := by
  refine ⟨List.mem_map_of_mem hd, rfl, ⟨m.id, .digest d, none⟩, ?_, makes_of_eq fun _ _ => rfl⟩
  show ofDigest m = _
  rw [ofDigest, lookup_of_mem hd, hnone]
  rfl

theorem madeBy_of_key {other : Object} {w : Bytes} (hother : m.appendedKey? store = some other)
    (hw : other.BaseKey w) : MadeBy .combination m store v (v ++ w) := by
  obtain ⟨hid, p, hp, hfind⟩ := Mechanism.appendedKey_eq_some.1 hother
  let key : OtherKey := ⟨w, other.alwaysSensitive, other.neverExtractable⟩
  have hkey : otherKey store p.handle = .ok key := otherKey_ok.2 ⟨other, hfind, hw, rfl, rfl⟩
  have hmakes : (⟨m.id, .appendKey key, none⟩ : DerivationGenerator).Makes v (v ++ w) :=
    makes_of_eq (f := (· ++ w)) fun _ _ => rfl
  refine ⟨by rw [hid]; decide, rfl, _, ?_, hmakes⟩
  show ofCombination m store = _
  rw [ofCombination, if_pos hid, hp, Except.ok_bind, hkey]
  rfl

theorem madeBy_of_data {p : StringData} (hp : Params.decode StringData m.params = .ok p) (hne : p.data ≠ [])
    (hm : m.id ∈ MechanismFamily.mechanisms .combination) (rule : Bytes → DerivationRule)
    (hrule : ofCombination m store = (do return ⟨m.id, rule (← stringData m), none⟩))
    (hmakes : (⟨m.id, rule p.data, none⟩ : DerivationGenerator).Makes v material) :
    MadeBy .combination m store v material := by
  refine ⟨hm, rfl, ⟨m.id, rule p.data, none⟩, ?_, hmakes⟩
  show ofCombination m store = _
  rw [hrule, stringData_ok.2 ⟨p, hp, hne, rfl⟩]
  rfl

/-- A generator is made for whatever can be combined. -/
theorem exists_madeBy (h : m.Combines store v material) : ∃ f, MadeBy f m store v material := by
  cases h with
  | digest hd hnone => exact ⟨_, madeBy_of_digest hd hnone⟩
  | appendKey hother hw => exact ⟨_, madeBy_of_key hother hw⟩
  | @appendData p hid hp hne =>
    refine ⟨_, madeBy_of_data hp hne (by rw [hid]; decide) .appendData ?_ ?_⟩
    · simp only [ofCombination, hid]
      rfl
    · exact makes_of_eq (f := (· ++ p.data)) fun _ _ => rfl
  | @prependData p hid hp hne =>
    refine ⟨_, madeBy_of_data hp hne (by rw [hid]; decide) .prependData ?_ ?_⟩
    · simp only [ofCombination, hid]
      rfl
    · exact makes_of_eq (f := (p.data ++ ·)) fun _ _ => rfl
  | @xorData p hid hp hne =>
    refine ⟨_, madeBy_of_data hp hne (by rw [hid]; decide) .xorData ?_ ?_⟩
    · simp only [ofCombination, hid]
      rfl
    · exact makes_of_eq (f := (Bytes.xor · p.data)) fun _ _ => rfl

end DerivationGenerator

/-! ## Keys -/

namespace Registry

open DerivationGenerator

variable {r : Registry} {m : Mechanism} {store : Store} {as : List Attribute} {base : Object} {v material : Bytes}

/-- A generator for a combination is made exactly if there is something to combine the base key with. -/
theorem exists_combines_iff (hr : r.Faithful) (hm : m.id ∈ r.toList) (hc : m.id ∈ combiningMechanisms) (v : Bytes) :
    (∃ g, r.derivationGenerator m store = .ok g) ↔ ∃ material, m.Combines store v material := by
  constructor
  · rintro ⟨g, hg⟩
    rcases List.mem_append.1 hc with hdigest | hother
    · rw [hr.derivationGenerator_eq hm (f := .digestDerivation) hdigest rfl] at hg
      exact combines_ofDigest hg store v
    · have hids : ∀ id ∈ [MechanismId.concatenateBaseAndKey, .concatenateBaseAndData, .concatenateDataAndBase,
          .xorBaseAndData], id ∈ MechanismFamily.mechanisms .combination ∧ id ≠ .extractKeyFromKey := by decide
      obtain ⟨hmem, hne⟩ := hids _ hother
      rw [hr.derivationGenerator_eq hm hmem rfl] at hg
      exact combines_ofCombination hg hne v
  · rintro ⟨material, h⟩
    obtain ⟨f, hf, hop, g, hg, -⟩ := exists_madeBy h
    exact ⟨g, (hr.derivationGenerator_eq hm hf hop).trans hg⟩

theorem derivedValue_of_combines (hr : r.Faithful) (hm : m.id ∈ r.toList) (hbase : base.BaseKey v)
    (ha : SecretTemplate.Accepted as) (h : m.Combines store v material) :
    r.derivedValue m store as base = (SecretTemplate.reading as).settle material := by
  obtain ⟨f, hf, hop, g, hg, hmakes⟩ := exists_madeBy h
  exact derivedValue_of_material ((hr.derivationGenerator_eq hm hf hop).trans hg) ha (hmakes _ base hbase)

/-- A derivation that combines the base key with something succeeds with its first bytes, as many as the key type
or else the template asks for, or with all of them if no length is asked for. It is refused for its size if there
are too few of them, and for its value if the key type does not allow the length. -/
theorem combined_key (hr : r.Faithful) (hm : m.id ∈ r.toList) (hc : m.id ∈ combiningMechanisms) (store : Store)
    (hbase : base.BaseKey v) (ha : SecretTemplate.Accepted as) :
    ((∃ g, r.derivationGenerator m store = .ok g) ↔ ∃ material, m.Combines store v material) ∧
    ∀ material, m.Combines store v material →
      (∀ n, SecretTemplate.needed as = some n →
        (Except.Fails (· = .keySizeRange) (r.derive m store as base) ↔ material.length < n) ∧
        (n ≤ material.length →
          Yields (SecretTemplate.namedType as) (material.take n) (r.derive m store as base))) ∧
      (SecretTemplate.needed as = none →
        (Except.Fails (· = .keySizeRange) (r.derive m store as base) ↔
          material.length < (SecretTemplate.namedType as).minSecretLength) ∧
        ((SecretTemplate.namedType as).minSecretLength ≤ material.length →
          Yields (SecretTemplate.namedType as) material (r.derive m store as base))) := by
  refine ⟨exists_combines_iff hr hm hc v, fun material h => ?_⟩
  exact reconciled (derivedValue_of_combines hr hm hbase ha h)

end Registry

/-! ## A run -/

namespace CombinedKeys

/-- Sixteen bytes that are put before the base key. -/
def sixteen : StringData := ⟨List.replicate 16 7⟩

def prepending : Mechanism := ⟨.concatenateDataAndBase, (Params.encode sixteen).toOption.getD []⟩

theorem prepending_combines : prepending.Combines {} [1] (sixteen.data ++ [1]) :=
  .prependData rfl (Except.ok_of_toOption (by decide +kernel)) (by decide)

theorem confined_baseKey : (Exposure.confined true).BaseKey [1] where
  kind := ⟨.genericSecret, Except.ok_of_toOption (by decide +kernel)⟩
  derive := by decide +kernel
  value := Except.ok_of_toOption (by decide +kernel)
  nonempty := by decide

/-- A template for an AES key, with a length or without one. -/
def aesTemplate (len : Option UInt64) : List Attribute :=
  .ofNumber .keyType KeyType.aes.val :: (len.map (.ofNumber .valueLen)).toList

end CombinedKeys

open CombinedKeys in
/-- Of seventeen bytes an AES key is made if it is to have sixteen. There are too few for twenty-four, and without a
length there is no AES key of them all. -/
theorem Registry.combined_key_aes :
    (∃ o, full.derive prepending {} (aesTemplate (some 16)) (Exposure.confined true) = .ok o ∧
      o.getBytes .value = .ok sixteen.data) ∧
    Except.Fails (· = .keySizeRange) (full.derive prepending {} (aesTemplate (some 24)) (Exposure.confined true)) ∧
    ∃ e, full.derive prepending {} (aesTemplate none) (Exposure.confined true) = .error (.error e) ∧
      e.code = .attributeValueInvalid := by
  have haccepted : ∀ len ∈ [none, some 16, some 24], SecretTemplate.Accepted (aesTemplate len) := by
    intro len hlen
    apply SecretTemplate.exists_ok_iff.1
    fin_cases hlen <;> exact ⟨_, rfl⟩
  have run := fun len (hlen : len ∈ [none, some 16, some 24]) =>
    (combined_key faithful_full (m := prepending) (by decide +kernel) (by decide) {} confined_baseKey
      (haccepted len hlen)).2 _ prepending_combines
  refine ⟨?_, ?_, ?_⟩
  · exact ((run (some 16) (by decide)).1 16 rfl).2 (by decide)
  · exact ((run (some 24) (by decide)).1 24 rfl).1.2 (by decide)
  · exact ((run none (by decide)).2 rfl).2 (by decide)

end SoftToken
