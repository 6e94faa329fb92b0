import SoftToken.Proofs.ErrorCodes
import SoftToken.Proofs.Exposure
import SoftToken.Proofs.ParameterUse
/-!
# What requests are refused with

A request that is refused, for a signature method or a derivation, is refused for its mechanism or for its
parameters; one for an encapsulation may also be refused for the type of the key. There is one exception:
a derivation that puts a stored key behind the base key reads the value of that key, and tells of a missing
value as it is (`Registry.derivation_refusals_iff`).
-/

namespace SoftToken

open SoftToken.Except (Avoids)

variable {P : ReturnCode → Prop}

/-! ## Parameters -/

section Parameters

variable (hp : ¬ P .mechanismParamInvalid)

include hp

namespace Params

theorem avoids_decode (α : Type) [Params α] (b : Bytes) : Avoids P (decode α b) := by
  rintro ⟨e, c, he, hc, h⟩
  cases hc
  rw [code_of_decode he] at h
  exact hp h

theorem avoids_decodeOptional (α : Type) [Params α] (b : Bytes) : Avoids P (decodeOptional α b) := by
  unfold decodeOptional
  split
  · exact .ok _
  · rw [map_eq_pure_bind]
    exact (avoids_decode hp α b).bind fun _ _ => .ok _

theorem avoids_requireNone (b : Bytes) : Avoids P (requireNone b) := by
  unfold requireNone
  split
  · exact .ok _
  · exact .fail hp

end Params

theorem Digest.avoids_ofMechanism (m : MechanismId) : Avoids P (Digest.ofMechanism m) := by
  unfold Digest.ofMechanism
  split
  · exact .ok _
  · exact .refuse hp

theorem Digest.avoids_ofMask (n : UInt64) : Avoids P (Digest.ofMask n) := by
  unfold Digest.ofMask
  split
  · exact .ok _
  · exact .refuse hp

theorem Prehash.avoids_ofMechanism (m : MechanismId) : Avoids P (Prehash.ofMechanism m) := by
  unfold Prehash.ofMechanism
  split
  · exact .ok _
  · exact .refuse hp

theorem AgreementKdf.avoids_ofNumber (n : UInt64) : Avoids P (AgreementKdf.ofNumber n) := by
  unfold AgreementKdf.ofNumber
  split
  · exact .ok _
  · exact .refuse hp

theorem Hedge.avoids_resolve (hedge : UInt64) (preference : HedgePreference) : Avoids P (resolve hedge preference) := by
  unfold resolve
  split
  · exact .ok _
  split
  · exact .ok _
  split
  · exact .ok _
  · exact .refuse hp

theorem avoids_checkContext (context : Option Bytes) : Avoids P (checkContext context) := by
  unfold checkContext
  dsimp only
  split
  · exact .refuse hp
  · exact .ok _

theorem SigningOptions.avoids_ofHashParams (m : Mechanism) (preference : HedgePreference) :
    Avoids P (ofHashParams m preference) := by
  refine (Params.avoids_decode hp _ _).bind fun p _ => ?_
  refine (Hedge.avoids_resolve hp p.hedge preference).bind fun _ _ => ?_
  refine (avoids_checkContext hp p.context).bind fun _ _ => ?_
  exact (Prehash.avoids_ofMechanism hp p.hash).bind fun _ _ => .ok _

theorem SigningOptions.avoids_ofParams (m : Mechanism) (preference : HedgePreference) (fixed : Option Prehash) :
    Avoids P (ofParams m preference fixed) := by
  refine (Params.avoids_decodeOptional hp _ _).bind fun _ _ => ?_
  refine (Hedge.avoids_resolve hp _ preference).bind fun _ _ => ?_
  exact (avoids_checkContext hp _).bind fun _ _ => .ok _

theorem avoids_requestedLength (m : Mechanism) (general : Bool) : Avoids P (requestedLength m general) := by
  unfold requestedLength
  split
  · exact (Params.avoids_decode hp _ _).bind fun _ _ => .ok _
  · exact (Params.avoids_requireNone hp _).bind fun _ _ => .ok _

theorem SignatureMethod.avoids_pssScheme (m : Mechanism) (bound : Option Digest) :
    Avoids P (SignatureMethod.pssScheme m bound) := by
  refine (Params.avoids_decode hp _ _).bind fun p _ => ?_
  refine (Digest.avoids_ofMechanism hp p.hash).bind fun _ _ => ?_
  split
  · exact .refuse hp
  · exact (Digest.avoids_ofMask hp p.mask).bind fun _ _ => .ok _

theorem SignatureMethod.avoids_eddsaMode (p : EddsaParams) : Avoids P (SignatureMethod.eddsaMode p) := by
  refine (avoids_checkContext hp p.context).bind fun _ _ => ?_
  split
  · exact .ok _
  split
  · exact .ok _
  · exact .refuse hp

theorem Encapsulator.avoids_oaepPadding (m : Mechanism) : Avoids P (Encapsulator.oaepPadding m) := by
  refine (Params.avoids_decode hp _ _).bind fun p _ => ?_
  refine (Digest.avoids_ofMechanism hp p.hash).bind fun _ _ => ?_
  refine (Digest.avoids_ofMask hp p.mask).bind fun _ _ => ?_
  dsimp only
  split
  · exact .refuse hp
  · exact .ok _

theorem DerivationGenerator.avoids_agreementParams (m : Mechanism) :
    Avoids P (DerivationGenerator.agreementParams m) := by
  refine (Params.avoids_decode hp _ _).bind fun p _ => ?_
  exact (AgreementKdf.avoids_ofNumber hp p.kdf).bind fun _ _ => .ok _

theorem SignatureMethod.avoids_ofPoly1305 (m : Mechanism) : Avoids P (SignatureMethod.ofPoly1305 m) :=
  (Params.avoids_requireNone hp _).bind fun _ _ => .ok _

theorem SignatureMethod.avoids_ofEddsa (m : Mechanism) : Avoids P (SignatureMethod.ofEddsa m) := by
  refine (Params.avoids_decodeOptional hp _ _).bind fun p _ => ?_
  split
  · exact .ok _
  · exact (SignatureMethod.avoids_eddsaMode hp _).bind fun _ _ => .ok _

namespace Encapsulator

variable (hkey : ¬ P .keyHandleInvalid)

include hkey

theorem avoids_ofMlKem (m : Mechanism) (type : KeyType) : Avoids P (ofMlKem m type) := by
  unfold ofMlKem
  split
  · exact .fail hkey
  · exact (Params.avoids_requireNone hp _).bind fun _ _ => .ok _

theorem avoids_ofAgreement (m : Mechanism) (type : KeyType) : Avoids P (ofAgreement m type) := by
  refine (DerivationGenerator.avoids_agreementParams hp m).bind fun _ _ => ?_
  dsimp only
  split
  · exact .ok _
  · exact .refuse hkey

end Encapsulator

namespace DerivationGenerator

theorem avoids_stringData (m : Mechanism) : Avoids P (stringData m) := by
  refine (Params.avoids_decode hp _ _).bind fun p _ => ?_
  split
  · exact .refuse hp
  · exact .ok _

theorem avoids_ofAgreement (m : Mechanism) : Avoids P (ofAgreement m) := by
  refine (avoids_agreementParams hp m).bind fun _ _ => ?_
  dsimp only
  split
  · exact .refuse hp
  · exact .ok _

theorem avoids_hkdfDigest (m : MechanismId) : Avoids P (hkdfDigest m) := by
  unfold hkdfDigest
  split
  · exact .ok _
  · exact .refuse hp

/-- Whatever is wrong with the key of a salt, it is the parameters that are invalid. -/
theorem avoids_hkdfSalt (p : HkdfParams) (store : Store) : Avoids P (hkdfSalt p store) := by
  unfold hkdfSalt
  split
  · exact .ok _
  split
  · split
    · exact .ok _
    · exact .refuse hp
  split
  · split
    · exact .error hp
    split
    · exact .ok _
    · exact .error hp
  · exact .refuse hp

theorem avoids_ofHkdf_of {m : Mechanism} (hid : m.id = .hkdfDerive) (store : Store) : Avoids P (ofHkdf m store) := by
  unfold ofHkdf
  rw [if_neg (not_not_intro hid)]
  refine (Params.avoids_decode hp _ _).bind fun p _ => ?_
  split
  · exact .refuse hp
  refine (avoids_hkdfDigest hp p.hash).bind fun _ _ => ?_
  split
  · exact (avoids_hkdfSalt hp p store).bind fun _ _ => .ok _
  · exact .ok _

theorem avoids_encryptParams (m : Mechanism) (chained : Bool) : Avoids P (encryptParams m chained) := by
  unfold encryptParams
  split
  · refine (Params.avoids_decode hp _ _).bind fun p _ => ?_
    split
    · exact .refuse hp
    · exact .ok _
  · exact (Params.avoids_decode hp _ _).bind fun _ _ => .ok _

end DerivationGenerator

end Parameters

/-! ## Families

A family refuses the mechanisms of other families, and the operations that it does not support. -/

variable {m : Mechanism} (hp : ¬ P .mechanismParamInvalid)

theorem avoids_notInFamily {α : Type} (hm : ¬ P .mechanismInvalid) : Avoids P (notInFamily : Except Error α) := .fail hm

/-- A table that has no row for a mechanism is not the one of its family. -/
theorem avoids_notInFamily_of_lookup {α β : Type} {table : List (MechanismId × β)} {id : MechanismId}
    (hm : P .mechanismInvalid → id ∈ table.map (·.1)) (h : table.lookup id = none) :
    Avoids P (notInFamily : Except Error α) :=
  avoids_notInFamily fun hP => absurd (hm hP) (not_mem_of_lookup h)

include hp

namespace SignatureMethod

theorem avoids_ofHmac (hm : P .mechanismInvalid → m.id ∈ MechanismFamily.hmac.mechanisms) : Avoids P (ofHmac m) := by
  unfold ofHmac
  split
  · exact (avoids_requestedLength hp m _).bind fun _ _ => .ok _
  · next h =>
    refine avoids_notInFamily fun hP => ?_
    obtain ⟨r, hr, hid⟩ := List.mem_flatMap.1 (hm hP)
    exact List.find?_eq_none.1 h r hr (List.contains_iff_mem.2 hid)

theorem avoids_ofCmac (hm : P .mechanismInvalid → m.id ∈ MechanismFamily.cmac.mechanisms) : Avoids P (ofCmac m) := by
  unfold ofCmac
  split
  · exact (avoids_requestedLength hp m _).bind fun _ _ => .ok _
  · exact avoids_notInFamily_of_lookup hm ‹_›

theorem avoids_ofRsa
    (hm : P .mechanismInvalid → m.id ∈ MechanismFamily.rsaPkcs.mechanisms ++ MechanismFamily.rsaSignature.mechanisms) :
    Avoids P (ofRsa m) := by
  unfold ofRsa
  split
  · exact .ok _
  next hpkcs =>
  split
  · exact .ok _
  next hiso =>
  split
  · exact .ok _
  next hx931 =>
  split
  · exact (avoids_pssScheme hp m _).bind fun _ _ => .ok _
  next hpss =>
  split
  · exact .ok _
  · exact (avoids_pssScheme hp m _).bind fun _ _ => .ok _
  · next hhashed hpssHashed =>
    refine avoids_notInFamily_of_lookup (fun hP => ?_)
      (List.lookup_append.trans (by rw [hhashed, hpssHashed]; rfl) : (rsaPkcsHashed ++ rsaPssHashed).lookup m.id = none)
    have := hm hP
    simp only [MechanismFamily.mechanisms, List.mem_append, List.mem_cons, hpkcs, hiso, hx931, hpss] at this
    simpa using this

theorem avoids_ofEcdsa (hm : P .mechanismInvalid → m.id ∈ MechanismFamily.ecdsa.mechanisms) : Avoids P (ofEcdsa m) := by
  unfold ofEcdsa
  split
  · exact (Params.avoids_requireNone hp _).bind fun _ _ => .ok _
  · exact avoids_notInFamily_of_lookup hm ‹_›

theorem avoids_optionsOf (preference : HedgePreference) (pureId hashId : MechanismId)
    (fixed : List (MechanismId × Prehash))
    (hm : P .mechanismInvalid → m.id ∈ pureId :: hashId :: fixed.map (·.1)) :
    Avoids P (optionsOf m preference pureId hashId fixed) := by
  unfold optionsOf
  split
  · exact SigningOptions.avoids_ofParams hp m preference none
  next hpure =>
  split
  · exact SigningOptions.avoids_ofHashParams hp m preference
  next hhash =>
  split
  · exact SigningOptions.avoids_ofParams hp m preference _
  · refine avoids_notInFamily_of_lookup (fun hP => ?_) ‹_›
    exact ((List.mem_cons.1 (hm hP)).resolve_left hpure |> List.mem_cons.1).resolve_left hhash

end SignatureMethod

theorem MechanismFamily.avoids_signatureMethod {f : MechanismFamily} (preference : HedgePreference)
    (hm : P .mechanismInvalid → f.info.supports .sign = true ∧ m.id ∈ f.mechanisms) :
    Avoids P (f.signatureMethod m preference) := by
  have hid := fun hP => (hm hP).2
  cases f with
  | cmac => exact SignatureMethod.avoids_ofCmac hp hid
  | hmac => exact SignatureMethod.avoids_ofHmac hp hid
  | poly1305 => exact SignatureMethod.avoids_ofPoly1305 hp m
  | rsaPkcs => exact SignatureMethod.avoids_ofRsa hp fun hP => List.mem_append_left _ (hid hP)
  | rsaSignature => exact SignatureMethod.avoids_ofRsa hp fun hP => List.mem_append_right _ (hid hP)
  | ecdsa => exact SignatureMethod.avoids_ofEcdsa hp hid
  | eddsa => exact SignatureMethod.avoids_ofEddsa hp m
  | mlDsa | slhDsa => exact (SignatureMethod.avoids_optionsOf hp preference _ _ _ hid).bind fun _ _ => .ok _
  | _ => exact avoids_notInFamily fun hP => nomatch (hm hP).1

namespace Encapsulator

variable (hkey : ¬ P .keyHandleInvalid)

include hkey

theorem avoids_ofRsa (type : KeyType)
    (hm : P .mechanismInvalid → m.id ∈ MechanismFamily.rsaPkcs.mechanisms ++ MechanismFamily.rsaOaep.mechanisms) :
    Avoids P (ofRsa m type) := by
  unfold ofRsa
  split
  · exact .fail hkey
  split
  · exact .ok _
  next hpkcs =>
  split
  · exact (avoids_oaepPadding hp m).bind fun _ _ => .ok _
  next hoaep =>
  refine avoids_notInFamily fun hP => ?_
  have := hm hP
  simp [MechanismFamily.mechanisms, hpkcs, hoaep] at this

end Encapsulator

theorem MechanismFamily.avoids_encapsulator (hkey : ¬ P .keyHandleInvalid) {f : MechanismFamily} (type : KeyType)
    (hm : P .mechanismInvalid → f.info.supports .encapsulate = true ∧ m.id ∈ f.mechanisms) :
    Avoids P (f.encapsulator m type) := by
  have hid := fun hP => (hm hP).2
  cases f with
  | mlKem => exact Encapsulator.avoids_ofMlKem hp hkey m type
  | rsaPkcs => exact Encapsulator.avoids_ofRsa hp hkey type fun hP => List.mem_append_left _ (hid hP)
  | rsaOaep => exact Encapsulator.avoids_ofRsa hp hkey type fun hP => List.mem_append_right _ (hid hP)
  | ecdh => exact Encapsulator.avoids_ofAgreement hp hkey m type
  | _ => exact avoids_notInFamily fun hP => nomatch (hm hP).1

/-! ## Derivations -/

/-- A secret key that allows derivation but has no value to derive from. -/
def Object.Hollow (o : Object) : Prop :=
  (∃ t, o.kind = .ok (.secret t)) ∧ o.flag .derive false = true ∧ ∀ b, o.value? .value = some (.bytes b) → b = []

omit hp

/-- A value is required to be there and not to be empty. -/
theorem Object.fails_requireBytes {o : Object} {id : AttributeId} :
    Except.Fails P (o.requireBytes id) ↔ P .attributeValueInvalid ∧ ∀ b, o.value? id = some (.bytes b) → b = [] := by
  unfold requireBytes
  split
  · next x r hb =>
    apply iff_of_false (Except.not_fails_ok _)
    rintro ⟨-, h⟩
    cases h _ (getBytes_ok.1 hb)
  · next hb =>
    rw [refuse, Except.fails_code]
    refine (and_iff_left fun b hv => ?_).symm
    rcases b with _ | ⟨x, r⟩
    · rfl
    · exact absurd (getBytes_ok.2 hv) (hb x r)

theorem SecretKey.fails_ofObject {o : Object} {t : KeyType} (hk : o.kind = .ok (.secret t)) :
    Except.Fails P (ofObject o) ↔ Except.Fails P (o.requireBytes .value) := by
  simp only [ofObject, hk, Except.ok_bind]
  constructor
  · intro h
    rcases Except.fails_bind.1 h with h | ⟨b, -, h⟩
    · exact h
    · exact absurd h (Except.not_fails_ok _)
  · intro h
    exact Except.fails_bind.2 (.inl h)

theorem Store.find_ok {store : Store} {handle : UInt64} {o : Object} :
    store.find handle = .ok o ↔ store.find? handle = some o := by
  unfold find
  cases store.find? handle with
  | none => exact ⟨fun h => (nomatch h), fun h => (nomatch h)⟩
  | some o' => exact ⟨fun h => by cases h; rfl, fun h => by cases h; rfl⟩

namespace DerivationGenerator

include hp in
/-- The value of another key is read as it stands, without a code of the parameters. -/
theorem fails_otherKey {store : Store} {handle : UInt64} :
    Except.Fails P (otherKey store handle) ↔ P .attributeValueInvalid ∧ ∃ o, store.find? handle = some o ∧ o.Hollow := by
  constructor
  · intro h
    unfold otherKey at h
    split at h
    · exact absurd (Except.fails_code.1 h) hp
    next o ho =>
    split at h
    · next t hk =>
      split at h
      · exact absurd (Except.fails_code.1 h) hp
      next hd =>
      rcases Except.fails_bind.1 h with h | ⟨k, -, h⟩
      · rw [SecretKey.fails_ofObject hk, Object.fails_requireBytes] at h
        exact ⟨h.1, o, Store.find_ok.1 ho, ⟨t, hk⟩, Object.flag_of_checkPermission hd, h.2⟩
      · exact absurd h (Except.not_fails_ok _)
    · exact absurd (Except.fails_code.1 h) hp
  · rintro ⟨hv, o, ho, ⟨t, hk⟩, hd, hempty⟩
    have hperm : o.checkPermission .derive = .ok () := if_pos hd
    simp only [otherKey, Store.find_ok.2 ho, hk, hperm]
    refine Except.fails_bind.2 (.inl ?_)
    rw [SecretKey.fails_ofObject hk, Object.fails_requireBytes]
    exact ⟨hv, hempty⟩

include hp in
/-- A derivation that puts another key behind the base key fails as the reading of that key does. -/
theorem fails_append {m : Mechanism} {store : Store} (hid : m.id = .concatenateBaseAndKey) :
    Except.Fails P (ofCombination m store) ↔
      P .attributeValueInvalid ∧ ∃ o, m.appendedKey? store = some o ∧ o.Hollow := by
  have hother : Except.Fails P (ofCombination m store) ↔
      ∃ p, Params.decode HandleParam m.params = .ok p ∧ Except.Fails P (otherKey store p.handle) := by
    simp only [ofCombination, if_pos hid]
    rw [(Params.avoids_decode hp HandleParam m.params).fails_bind]
    refine exists_congr fun p => and_congr_right fun _ => ?_
    rw [Except.fails_bind]
    refine or_iff_left ?_
    rintro ⟨k, -, h⟩
    exact Except.not_fails_ok _ h
  rw [hother]
  constructor
  · rintro ⟨p, hdecode, h⟩
    obtain ⟨hv, o, ho, hhollow⟩ := (fails_otherKey hp).1 h
    refine ⟨hv, o, ?_, hhollow⟩
    rw [Mechanism.appendedKey?, if_pos hid, hdecode]
    exact ho
  · rintro ⟨hv, o, ho, hhollow⟩
    rw [Mechanism.appendedKey?, if_pos hid] at ho
    split at ho
    · next p hdecode => exact ⟨p, hdecode, (fails_otherKey hp).2 ⟨hv, o, ho, hhollow⟩⟩
    · cases ho

include hp

theorem avoids_ofDigest (hm : P .mechanismInvalid → m.id ∈ MechanismFamily.digestDerivation.mechanisms) :
    Avoids P (ofDigest m) := by
  unfold ofDigest
  split
  · exact (Params.avoids_requireNone hp _).bind fun _ _ => .ok _
  · exact avoids_notInFamily_of_lookup hm ‹_›

theorem avoids_ofEncryption (hm : P .mechanismInvalid → m.id ∈ MechanismFamily.encryptData.mechanisms) :
    Avoids P (ofEncryption m) := by
  unfold ofEncryption
  split
  · exact avoids_notInFamily_of_lookup hm ‹_›
  · refine (avoids_encryptParams hp m _).bind fun _ _ => ?_
    dsimp only
    split
    · exact .refuse hp
    · exact .ok _

theorem avoids_ofHkdf (hm : P .mechanismInvalid → m.id ∈ MechanismFamily.hkdf.mechanisms) (store : Store) :
    Avoids P (ofHkdf m store) := by
  by_cases hid : m.id = .hkdfDerive
  · exact avoids_ofHkdf_of hp hid store
  · unfold ofHkdf
    rw [if_pos hid]
    exact avoids_notInFamily fun hP => hid (List.mem_singleton.1 (hm hP))

/-- The other combinations use no key but the base key. -/
theorem avoids_ofCombination (hm : P .mechanismInvalid → m.id ∈ MechanismFamily.combination.mechanisms)
    (hid : m.id ≠ .concatenateBaseAndKey) (store : Store) : Avoids P (ofCombination m store) := by
  unfold ofCombination
  dsimp only
  rw [if_neg hid]
  split
  · exact (avoids_stringData hp m).bind fun _ _ => .ok _
  next happend =>
  split
  · exact (avoids_stringData hp m).bind fun _ _ => .ok _
  next hprepend =>
  split
  · exact (avoids_stringData hp m).bind fun _ _ => .ok _
  next hxor =>
  split
  · exact (Params.avoids_decode hp _ _).bind fun _ _ => .ok _
  next hextract =>
  refine avoids_notInFamily fun hP => ?_
  have := hm hP
  simp [MechanismFamily.mechanisms, hid, happend, hprepend, hxor, hextract] at this

theorem fails_ofCombination (hm : P .mechanismInvalid → m.id ∈ MechanismFamily.combination.mechanisms)
    (store : Store) :
    Except.Fails P (ofCombination m store) ↔
      P .attributeValueInvalid ∧ ∃ o, m.appendedKey? store = some o ∧ o.Hollow := by
  by_cases hid : m.id = .concatenateBaseAndKey
  · exact fails_append hp hid
  · apply iff_of_false (avoids_ofCombination hp hm hid store)
    rintro ⟨-, o, ho, -⟩
    rw [appendedKey_none hid] at ho
    cases ho

end DerivationGenerator

include hp in
theorem MechanismFamily.fails_derivationGenerator {f : MechanismFamily} (store : Store)
    (hm : P .mechanismInvalid → f.info.supports .derive = true ∧ m.id ∈ f.mechanisms) :
    Except.Fails P (f.derivationGenerator m store) ↔
      P .attributeValueInvalid ∧ f = combination ∧ ∃ o, m.appendedKey? store = some o ∧ o.Hollow := by
  have hid := fun hP => (hm hP).2
  by_cases hf : f = combination
  · cases hf
    rw [and_iff_right (rfl : combination = combination)]
    exact DerivationGenerator.fails_ofCombination hp hid store
  · refine iff_of_false ?_ (fun h => hf h.2.1)
    cases f with
    | combination => exact absurd rfl hf
    | ecdh => exact DerivationGenerator.avoids_ofAgreement hp m
    | encryptData => exact DerivationGenerator.avoids_ofEncryption hp hid
    | digestDerivation => exact DerivationGenerator.avoids_ofDigest hp hid
    | hkdf => exact DerivationGenerator.avoids_ofHkdf hp hid store
    | _ => exact avoids_notInFamily fun hP => nomatch (hm hP).1

namespace Registry

variable {r : Registry}

/-- A mechanism is refused for an operation unless its family supports it. -/
theorem fails_findFor {m : MechanismId} {op : Operation} :
    Except.Fails P (r.findFor m op) ↔ P .mechanismInvalid ∧ ∀ f, r.find? m = some f → f.info.supports op = false := by
  unfold findFor Registry.find
  cases hf : r.find? m with
  | none =>
    refine Except.fails_code.trans (and_iff_left ?_).symm
    intro f h
    cases h
  | some f =>
    rw [Except.ok_bind]
    split
    · next hop =>
      refine iff_of_false (Except.not_fails_ok _) fun h => ?_
      rw [h.2 f rfl] at hop
      cases hop
    · next hop =>
      refine Except.fails_code.trans (and_iff_left ?_).symm
      intro f' h
      cases h
      exact Bool.eq_false_iff.2 hop

variable (hm : ¬ P .mechanismInvalid)

include hm

theorem avoids_findFor (m : MechanismId) (op : Operation) : Avoids P (r.findFor m op) :=
  fun h => hm (fails_findFor.1 h).1

include hp

theorem fails_derivationGenerator (m : Mechanism) (store : Store) :
    Except.Fails P (r.derivationGenerator m store) ↔ P .attributeValueInvalid ∧
      r.findFor m.id .derive = .ok .combination ∧ ∃ o, m.appendedKey? store = some o ∧ o.Hollow := by
  rw [derivationGenerator, (avoids_findFor hm _ _).fails_bind]
  have hfails := fun f : MechanismFamily => f.fails_derivationGenerator (m := m) hp store fun hP => absurd hP hm
  constructor
  · rintro ⟨f, hf, h⟩
    obtain ⟨hv, rfl, hkey⟩ := (hfails f).1 h
    exact ⟨hv, hf, hkey⟩
  · rintro ⟨hv, hf, hkey⟩
    exact ⟨_, hf, (hfails _).2 ⟨hv, rfl, hkey⟩⟩

theorem avoids_signatureMethod (preference : HedgePreference) (m : Mechanism) :
    Avoids P (r.signatureMethod preference m) :=
  (avoids_findFor hm _ _).bind fun _ _ =>
    MechanismFamily.avoids_signatureMethod hp preference fun hP => absurd hP hm

theorem avoids_encapsulator (hkey : ¬ P .keyHandleInvalid) (m : Mechanism) (key : Object) :
    Avoids P (r.encapsulator m key) := by
  refine (avoids_findFor hm _ _).bind fun f _ => ?_
  split
  · exact .fail hkey
  · exact MechanismFamily.avoids_encapsulator hp hkey _ fun hP => absurd hP hm

end Registry

/-! ## Handles in the parameters -/

/-- The parameters of a derivation name a handle: of a key to put behind the base key, which must allow
derivation, or of a key whose value is a salt. -/
inductive Registry.Names (r : Registry) (m : Mechanism) : UInt64 → Bool → Prop
  | appended {p : HandleParam} :
    r.findFor m.id .derive = .ok .combination → m.id = .concatenateBaseAndKey →
      Params.decode HandleParam m.params = .ok p → r.Names m p.handle true
  | salt {p : HkdfParams} :
    r.findFor m.id .derive = .ok .hkdf → m.id = .hkdfDerive → Params.decode HkdfParams m.params = .ok p →
      p.extract = true → p.saltType = 4 → r.Names m p.saltKey false

/-- A handle stands for a secret key with a value, which allows derivation where it must. -/
def Store.Usable (store : Store) (handle : UInt64) (derives : Bool) : Prop :=
  ∃ o k, store.find? handle = some o ∧ SecretKey.ofObject o = .ok k ∧ (derives = true → o.flag .derive false = true)

/-- The key that a derivation is to put behind the base key has no value. -/
def Registry.AppendsHollow (r : Registry) (m : Mechanism) (store : Store) : Prop :=
  r.findFor m.id .derive = .ok .combination ∧ ∃ o, m.appendedKey? store = some o ∧ o.Hollow

namespace DerivationGenerator

variable {m : Mechanism} {store : Store} {g : DerivationGenerator}

theorem usable_otherKey {handle : UInt64} {k : OtherKey} (h : otherKey store handle = .ok k) :
    store.Usable handle true := by
  obtain ⟨o, ho, hk, -⟩ := otherKey_ok.1 h
  obtain ⟨type, -, hkey⟩ := hk.exists_secretKey
  exact ⟨o, _, ho, hkey, fun _ => hk.derive⟩

theorem usable_ofCombination {p : HandleParam} (hid : m.id = .concatenateBaseAndKey)
    (hp : Params.decode HandleParam m.params = .ok p) (h : ofCombination m store = .ok g) :
    store.Usable p.handle true := by
  simp only [ofCombination, if_pos hid] at h
  obtain ⟨p', hp', h⟩ := Except.bind_ok.1 h
  obtain rfl : p = p' := Except.ok.inj (hp.symm.trans hp')
  obtain ⟨k, hk, -⟩ := Except.bind_ok.1 h
  exact usable_otherKey hk

theorem usable_hkdfSalt {p : HkdfParams} {salt : Option Bytes} (htype : p.saltType = 4)
    (h : hkdfSalt p store = .ok salt) : store.Usable p.saltKey false := by
  unfold hkdfSalt at h
  rw [htype, if_neg (by decide), if_neg (by decide), if_pos rfl] at h
  split at h
  · cases h
  next o ho =>
  split at h
  · next k hk => exact ⟨o, k, Store.find_ok.1 ho, hk, nofun⟩
  · cases h

theorem usable_ofHkdf {p : HkdfParams} (hid : m.id = .hkdfDerive) (hp : Params.decode HkdfParams m.params = .ok p)
    (hextract : p.extract = true) (htype : p.saltType = 4) (h : ofHkdf m store = .ok g) :
    store.Usable p.saltKey false := by
  unfold ofHkdf at h
  rw [if_neg (not_not_intro hid)] at h
  obtain ⟨p', hp', h⟩ := Except.bind_ok.1 h
  obtain rfl : p = p' := Except.ok.inj (hp.symm.trans hp')
  split at h
  · cases h
  obtain ⟨digest, -, h⟩ := Except.bind_ok.1 h
  simp only [hextract] at h
  obtain ⟨salt, hsalt, -⟩ := Except.bind_ok.1 h
  exact usable_hkdfSalt htype hsalt

end DerivationGenerator

namespace Registry

variable {r : Registry} {m : Mechanism} {store : Store}

/-- A handle that stands for no usable key is an invalid parameter, unless the key is hollow. -/
theorem refuses_unusable (h : ¬ r.AppendsHollow m store) {handle : UInt64} {derives : Bool}
    (hn : r.Names m handle derives) (hu : ¬ store.Usable handle derives) :
    ∃ e, r.derivationGenerator m store = .error e ∧ e.code = .mechanismParamInvalid := by
  have hparam : ¬ (ReturnCode.mechanismParamInvalid ≠ .mechanismParamInvalid) := not_not_intro rfl
  cases hn with
  | appended hf hid hp =>
    rw [derivationGenerator, hf, Except.ok_bind]
    refine Except.Avoids.exists_error ?_ ?_
    · intro hfails
      obtain ⟨-, hkey⟩ := (DerivationGenerator.fails_append (P := (· ≠ .mechanismParamInvalid)) hparam hid).1 hfails
      exact h ⟨hf, hkey⟩
    · intro g hg
      exact hu (DerivationGenerator.usable_ofCombination hid hp hg)
  | salt hf hid hp hextract htype =>
    rw [derivationGenerator, hf, Except.ok_bind]
    refine Except.Avoids.exists_error ?_ ?_
    · exact DerivationGenerator.avoids_ofHkdf_of (P := (· ≠ .mechanismParamInvalid)) hparam hid store
    · intro g hg
      exact hu (DerivationGenerator.usable_ofHkdf hid hp hextract htype hg)

theorem code_of_hollow (h : r.AppendsHollow m store) :
    ∃ e, r.derivationGenerator m store = .error e ∧ e.code = .attributeValueInvalid := by
  have hfails := (fails_derivationGenerator (P := (· = .attributeValueInvalid)) (by decide) (by decide) m store).2 ⟨rfl, h⟩
  obtain ⟨e, c, he, hc, hcode⟩ := hfails
  exact ⟨e, he, (Option.some.inj hc).trans hcode⟩

/-- A derivation that is refused, is refused for its mechanism or its parameters, and for its parameters
where these name a key that cannot be used, if and only if the key to put behind the base key is not
hollow. That it has no value is told as an invalid attribute. -/
theorem derivation_refusals_iff (r : Registry) (m : Mechanism) (store : Store) :
    (((∀ e, r.derivationGenerator m store = .error e →
          e.code = .mechanismInvalid ∨ e.code = .mechanismParamInvalid) ∧
        ∀ handle derives, r.Names m handle derives → ¬ store.Usable handle derives →
          ∃ e, r.derivationGenerator m store = .error e ∧ e.code = .mechanismParamInvalid) ↔
      ¬ r.AppendsHollow m store) ∧
    (r.AppendsHollow m store →
      ∃ e, r.derivationGenerator m store = .error e ∧ e.code = .attributeValueInvalid) := by
  refine ⟨⟨?_, ?_⟩, code_of_hollow⟩
  · rintro ⟨hcodes, -⟩ hhollow
    obtain ⟨e, he, hcode⟩ := code_of_hollow hhollow
    have := hcodes e he
    rw [hcode] at this
    exact absurd this (by decide)
  · intro h
    constructor
    · intro e he
      have hfails := fails_derivationGenerator (r := r)
        (P := fun c => ¬ (c = .mechanismInvalid ∨ c = .mechanismParamInvalid)) (by decide) (by decide) m store
      refine Classical.byContradiction fun hcode => ?_
      exact h (hfails.1 ⟨e, e.code, he, rfl, hcode⟩).2
    · intro handle derives hn hu
      exact refuses_unusable h hn hu

/-- A secret key that allows derivation and has no value. -/
def derivable : Object := .newKey .secretKey .genericSecret [.ofBool .derive true]

/-- The refusal of that key as the one to append is neither of the mechanism nor of its parameters. -/
theorem appended_value_is_missing :
    full.derivationGenerator ⟨.concatenateBaseAndKey, [1, 0, 0, 0, 0, 0, 0, 0]⟩ (Store.insert {} derivable).1 =
        refuse .attributeValueInvalid (.missingOrEmpty .value) ∧
      ReturnCode.attributeValueInvalid ∉ [ReturnCode.mechanismInvalid, .mechanismParamInvalid] := by
  have hf : full.find? .concatenateBaseAndKey = some .combination := by decide +kernel
  constructor
  · unfold derivationGenerator findFor Registry.find
    simp only [hf]
    rfl
  · decide

end Registry
end SoftToken
