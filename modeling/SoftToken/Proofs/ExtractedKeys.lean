import SoftToken.Proofs.BitCopies
import SoftToken.Proofs.DerivedValues
/-!
# Keys of extracted bits

Bits are extracted from any place of the base key, as many as the template takes. A place behind its end is refused
as a parameter; from any other one the new key has the bits of the base key in a circle, as long as there is room for
them and their places are machine words (`Registry.extracts_bits_iff`). A template may ask for more.
-/

namespace SoftToken

namespace DerivationGenerator

variable {base : Object} {v : Bytes}

theorem ofCombination_extract {b : Bytes} {p : ExtractParams} (hp : Params.decode ExtractParams b = .ok p)
    (store : Store) :
    ofCombination ⟨.extractKeyFromKey, b⟩ store = .ok ⟨.extractKeyFromKey, .extractBits p.index.toNat, none⟩ := by
  simp only [ofCombination, hp]
  rfl

/-- The generator reads as many bits as the template takes at least, unless it is to start behind the end. -/
theorem material_extract (hbase : base.BaseKey v) (id : MechanismId) (index : Nat) (t : SecretTemplate) :
    material ⟨id, .extractBits index, some t⟩ base =
      if 8 * v.length ≤ index then .error (.error (.explained .mechanismParamInvalid (.bitIndexTooLarge index)))
      else DerivationRule.bitsFrom v index t.minimalLength := by
  unfold material
  rw [baseSecret_eq hbase]
  rfl

end DerivationGenerator

namespace Registry

open DerivationRule

variable {r : Registry} {b : Bytes} {p : ExtractParams} {as : List Attribute} {base : Object} {v : Bytes}

theorem derivedValue_extract (hr : r.Faithful) (hm : MechanismId.extractKeyFromKey ∈ r.toList)
    (hp : Params.decode ExtractParams b = .ok p) (store : Store) (hbase : base.BaseKey v)
    (ha : SecretTemplate.Accepted as) :
    r.derivedValue ⟨.extractKeyFromKey, b⟩ store as base =
      if 8 * v.length ≤ p.index.toNat then
        .error (.error (.explained .mechanismParamInvalid (.bitIndexTooLarge p.index.toNat)))
      else bitsFrom v p.index.toNat (SecretTemplate.reading as).minimalLength >>= fun secret =>
        liftM ((SecretTemplate.reading as).settle secret) := by
  have hmem : MechanismId.extractKeyFromKey ∈ MechanismFamily.combination.mechanisms := by decide
  have hg : r.derivationGenerator ⟨.extractKeyFromKey, b⟩ store =
      .ok ⟨.extractKeyFromKey, .extractBits p.index.toNat, none⟩ := by
    rw [hr.derivationGenerator_eq hm hmem rfl]
    exact DerivationGenerator.ofCombination_extract hp store
  rw [derivedValue_eq (SecretTemplate.ofAttributes_of_accepted ha), hg, Except.liftM_ok, Except.ok_bind,
    DerivationGenerator.material_extract hbase]
  split <;> rfl

theorem yields_extract (hr : r.Faithful) (hm : MechanismId.extractKeyFromKey ∈ r.toList)
    (hp : Params.decode ExtractParams b = .ok p) (store : Store) (hbase : base.BaseKey v)
    (ha : SecretTemplate.Accepted as) (hindex : p.index.toNat < 8 * v.length) {len : Nat}
    (hlen : (SecretTemplate.needed as).getD (SecretTemplate.namedType as).minSecretLength = len)
    (hfits : Fits p.index.toNat len) :
    Yields (SecretTemplate.namedType as) (circleBits v p.index.toNat len)
      (r.derive ⟨.extractKeyFromKey, b⟩ store as base) := by
  have hvalue := derivedValue_extract hr hm hp store hbase ha
  rw [if_neg (Nat.not_le_of_lt hindex), SecretTemplate.minimalLength_reading, hlen, bitsFrom_of_fits hfits,
    Except.ok_bind] at hvalue
  have hkept : (circleBits v p.index.toNat len).length = (SecretTemplate.reading as).minimalLength := by
    rw [length_circleBits, SecretTemplate.minimalLength_reading, hlen]
  have hyields := yields_kept hvalue (Nat.le_of_eq hkept.symm)
  rwa [SecretTemplate.kept_of_length hkept] at hyields

/-- What does not fit is not extracted, and nothing is reported. -/
theorem gives_up_extract (hr : r.Faithful) (hm : MechanismId.extractKeyFromKey ∈ r.toList)
    (hp : Params.decode ExtractParams b = .ok p) (store : Store) (hbase : base.BaseKey v)
    (ha : SecretTemplate.Accepted as) (hindex : p.index.toNat < 8 * v.length) {len : Nat}
    (hlen : (SecretTemplate.needed as).getD (SecretTemplate.namedType as).minSecretLength = len)
    (hfits : ¬ Fits p.index.toNat len) :
    ∃ a, r.derive ⟨.extractKeyFromKey, b⟩ store as base = .error (.abort a) := by
  have hvalue := derivedValue_extract hr hm hp store hbase ha
  obtain ⟨a, hbits⟩ := bitsFrom_of_not_fits (b := v) hfits
  rw [if_neg (Nat.not_le_of_lt hindex), SecretTemplate.minimalLength_reading, hlen, hbits] at hvalue
  exact ⟨a, derivedValue_error.1 hvalue⟩

/-- Only a place behind the end of the base key is an invalid parameter: a key of too many bits is not reported. -/
theorem fails_place_iff (hr : r.Faithful) (hm : MechanismId.extractKeyFromKey ∈ r.toList)
    (hp : Params.decode ExtractParams b = .ok p) (store : Store) (hbase : base.BaseKey v)
    (ha : SecretTemplate.Accepted as) :
    Except.Fails (· = .mechanismParamInvalid) (r.derive ⟨.extractKeyFromKey, b⟩ store as base) ↔
      8 * v.length ≤ p.index.toNat := by
  constructor
  · intro hfails
    apply Nat.le_of_not_lt
    intro hindex
    by_cases hfits : Fits p.index.toNat ((SecretTemplate.needed as).getD (SecretTemplate.namedType as).minSecretLength)
    · exact (yields_extract hr hm hp store hbase ha hindex rfl hfits).avoids (by decide) hfails
    · obtain ⟨a, hgives⟩ := gives_up_extract hr hm hp store hbase ha hindex rfl hfits
      rw [hgives] at hfails
      exact Except.Avoids.aborted a hfails
  · intro hindex
    have hvalue := derivedValue_extract hr hm hp store hbase ha
    rw [if_pos hindex] at hvalue
    rw [derivedValue_error.1 hvalue]
    exact Except.fails_failure.2 rfl

/-- A place behind the end of the base key is an invalid parameter, and no other one is. From there on the bits of
the base key, in a circle, make up a key of the length that its type or else the template asks for, or of the least
length that the type has, if that many fit; otherwise the derivation is given up without a code. What is extracted in
two pieces, the second from where the first ends, is what is extracted at once. -/
theorem extracts_bits_iff (hr : r.Faithful) (hm : MechanismId.extractKeyFromKey ∈ r.toList)
    (hp : Params.decode ExtractParams b = .ok p) (store : Store) (hbase : base.BaseKey v)
    (ha : SecretTemplate.Accepted as) :
    (Except.Fails (· = .mechanismParamInvalid) (r.derive ⟨.extractKeyFromKey, b⟩ store as base) ↔
      8 * v.length ≤ p.index.toNat) ∧
    (p.index.toNat < 8 * v.length → ∀ len,
      (SecretTemplate.needed as).getD (SecretTemplate.namedType as).minSecretLength = len →
        (Fits p.index.toNat len → Yields (SecretTemplate.namedType as) (circleBits v p.index.toNat len)
          (r.derive ⟨.extractKeyFromKey, b⟩ store as base)) ∧
        (¬ Fits p.index.toNat len → ∃ a, r.derive ⟨.extractKeyFromKey, b⟩ store as base = .error (.abort a))) ∧
    (∀ len, (circleBits v p.index.toNat len).length = len ∧
      ∀ i < 8 * len, bitAt (circleBits v p.index.toNat len) i = bitAt v ((p.index.toNat + i) % (8 * v.length))) ∧
    ∀ first second,
      circleBits v p.index.toNat first ++ circleBits v ((p.index.toNat + 8 * first) % (8 * v.length)) second =
        circleBits v p.index.toNat (first + second) := by
  refine ⟨fails_place_iff hr hm hp store hbase ha, fun hindex len hlen => ⟨?_, ?_⟩, fun len => ⟨?_, fun i hi => ?_⟩,
    circleBits_append v p.index.toNat⟩
  · exact yields_extract hr hm hp store hbase ha hindex hlen
  · exact gives_up_extract hr hm hp store hbase ha hindex hlen
  · exact length_circleBits ..
  · exact bitAt_circleBits v p.index.toNat hi

end Registry

/-! ## A run -/

namespace ExtractedKeys

/-- A secret key of 32 bits. -/
def word : Bytes := [0x32, 0x9f, 0x84, 0xa9]

def baseKey : Object := .newKey .secretKey .genericSecret [.ofBytes .value word, .ofBool .derive true]

/-- The wire form of a place. -/
def place (index : UInt64) : Bytes := (Params.encode (⟨index⟩ : ExtractParams)).toOption.getD []

theorem baseKey_word : baseKey.BaseKey word where
  kind := ⟨.genericSecret, Except.ok_of_toOption (by decide +kernel)⟩
  derive := by decide +kernel
  value := Except.ok_of_toOption (by decide +kernel)
  nonempty := by decide

/-- A length that no string has. -/
def endless : UInt64 := 0x8000000000000000

theorem accepted_twoBytes : SecretTemplate.Accepted [.ofNumber .valueLen 2] := SecretTemplate.exists_ok_iff.1 ⟨_, rfl⟩

end ExtractedKeys

open ExtractedKeys in
/-- From the last of 32 bits on, two bytes are read around the end of the key; behind it there is nothing. -/
theorem Registry.extracts_bits_iff_around :
    (∃ o, full.derive ⟨.extractKeyFromKey, place 31⟩ {} [.ofNumber .valueLen 2] baseKey = .ok o ∧
      o.getBytes .value = .ok [0x99, 0x4f]) ∧
    Except.Fails (· = .mechanismParamInvalid)
      (full.derive ⟨.extractKeyFromKey, place 32⟩ {} [.ofNumber .valueLen 2] baseKey) := by
  have hm : MechanismId.extractKeyFromKey ∈ full.toList := by decide +kernel
  have hlast : Params.decode ExtractParams (place 31) = .ok ⟨31⟩ := Except.ok_of_toOption (by decide +kernel)
  have hbehind : Params.decode ExtractParams (place 32) = .ok ⟨32⟩ := Except.ok_of_toOption (by decide +kernel)
  obtain ⟨-, hextracts, -⟩ := extracts_bits_iff faithful_full hm hlast {} baseKey_word accepted_twoBytes
  obtain ⟨hfails, -⟩ := extracts_bits_iff faithful_full hm hbehind {} baseKey_word accepted_twoBytes
  obtain ⟨hyields, -⟩ := hextracts (by decide) 2 rfl
  have hbits : DerivationRule.circleBits word 31 2 = [0x99, 0x4f] := by decide +kernel
  have hword : Yields .genericSecret (DerivationRule.circleBits word 31 2) _ := hyields ⟨by decide, .inr (by decide)⟩
  rw [hbits] at hword
  exact ⟨hword, hfails.2 (by decide)⟩

open ExtractedKeys in
/-- A template may ask for a generic secret of more bytes than a string can have. From the first bit of the same key on,
which is well within it, the derivation is given up. -/
theorem Registry.extraction_without_room :
    SecretTemplate.Accepted [.ofNumber .valueLen endless] ∧ baseKey.BaseKey word ∧
      full.derive ⟨.extractKeyFromKey, place 0⟩ {} [.ofNumber .valueLen endless] baseKey = .error (.abort .capacity) := by
  have hm : MechanismId.extractKeyFromKey ∈ full.toList := by decide +kernel
  have hfirst : Params.decode ExtractParams (place 0) = .ok ⟨0⟩ := Except.ok_of_toOption (by decide +kernel)
  have haccepted : SecretTemplate.Accepted [.ofNumber .valueLen endless] := SecretTemplate.exists_ok_iff.1 ⟨_, rfl⟩
  have hvalue := derivedValue_extract faithful_full hm hfirst {} baseKey_word haccepted
  refine ⟨haccepted, baseKey_word, derivedValue_error.1 (hvalue.trans ?_)⟩
  rw [if_neg (by decide)]
  have hlen : (SecretTemplate.reading [.ofNumber .valueLen endless]).minimalLength = 2 ^ 63 := by decide +kernel
  unfold DerivationRule.bitsFrom
  rw [hlen, Checked.reserve_of_le (Nat.le_refl _)]
  rfl

end SoftToken
