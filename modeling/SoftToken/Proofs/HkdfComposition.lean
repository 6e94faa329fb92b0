import SoftToken.Proofs.DerivedValues
import SoftToken.Proofs.ProducedKeys
/-!
# HKDF in two steps

A pseudorandom key that is extracted into a key of its own passes through unchanged and may be derived from.
Expanding it gives what extraction and expansion give in one derivation (`Registry.hkdf_composes`).
-/

namespace SoftToken

/-! ## The steps -/

namespace HkdfParams

/-- The parameters `first` ask for the extraction that `p` asks for, and for no more. -/
structure Extracts (p first : HkdfParams) : Prop where
  extract : first.extract = true
  expand : first.expand = false
  hash : first.hash = p.hash
  saltType : first.saltType = p.saltType
  salt : first.salt = p.salt
  saltKey : first.saltKey = p.saltKey

/-- The parameters `second` ask for the expansion that `p` asks for, and for no more. Their salt is left open. -/
structure Expands (p second : HkdfParams) : Prop where
  extract : second.extract = false
  expand : second.expand = true
  hash : second.hash = p.hash
  info : second.info.getD [] = p.info.getD []

/-- Expansion alone, over a digest, with the information of the parameters. -/
def expansion (p : HkdfParams) (digest : Digest) : HkdfSteps := ⟨digest, false, true, none, p.info.getD []⟩

end HkdfParams

theorem Hkdf.length_extract (d : Digest) (salt : Option Bytes) (ikm : Bytes) :
    (Hkdf.extract d salt ikm).length = d.outputLength := d.length_hash _

/-- A key of one digest is long enough to be expanded. -/
theorem HkdfSteps.run_of_length {s : HkdfSteps} (h : s.extract = false) {prk : Bytes}
    (hlen : prk.length = s.digest.outputLength) (len : Nat) : s.run prk len = s.expandKey prk len := by
  have hshort : ¬ prk.length < s.digest.outputLength := by rw [hlen]; exact Nat.lt_irrefl _
  unfold run
  rw [h, if_neg Bool.false_ne_true, if_neg hshort]

namespace DerivationGenerator

variable {p first : HkdfParams} {b : Bytes} {base : Object} {store : Store}

/-- The steps that parameters ask for. -/
def hkdfSteps (p : HkdfParams) (store : Store) : Except Error HkdfSteps := do
  let digest ← hkdfDigest p.hash
  let salt ← if p.extract then hkdfSalt p store else pure none
  return ⟨digest, p.extract, p.expand, salt, p.info.getD []⟩

theorem ofHkdf_eq (hp : Params.decode HkdfParams b = .ok p) (hstep : (p.extract || p.expand) = true) (store : Store) :
    ofHkdf ⟨.hkdfDerive, b⟩ store = (do return ⟨.hkdfDerive, .hkdf (← hkdfSteps p store), none⟩) := by
  have hsome : ¬ ((!p.extract && !p.expand) = true) := by rw [← Bool.not_or, hstep]; decide
  unfold ofHkdf hkdfSteps
  rw [if_neg (not_not_intro rfl), hp, Except.ok_bind, if_neg hsome]
  cases hkdfDigest p.hash with
  | error e => rfl
  | ok digest =>
    cases p.extract with
    | false => rfl
    | true => cases hkdfSalt p store <;> rfl

theorem hkdfSteps_ok {s : HkdfSteps} (h : hkdfSteps p store = .ok s) :
    hkdfDigest p.hash = .ok s.digest ∧ s.extract = p.extract ∧ s.expand = p.expand ∧ s.info = p.info.getD [] := by
  obtain ⟨digest, hdigest, h⟩ := Except.bind_ok.1 h
  have hsteps : ∃ salt, s = ⟨digest, p.extract, p.expand, salt, p.info.getD []⟩ := by
    split at h
    · obtain ⟨salt, -, h⟩ := Except.bind_ok.1 h
      exact ⟨salt, (Except.ok.inj h).symm⟩
    · exact ⟨none, (Except.ok.inj h).symm⟩
  obtain ⟨salt, rfl⟩ := hsteps
  exact ⟨hdigest, rfl, rfl, rfl⟩

/-- The digest of HKDF and the pseudorandom key that it extracts from a base key. -/
def pseudorandomKey (p : HkdfParams) (store : Store) (base : Object) : Except Error (Digest × Bytes) := do
  let steps ← hkdfSteps p store
  let v ← baseSecret ⟨.hkdfDerive, .hkdf steps, none⟩ base
  return (steps.digest, Hkdf.extract steps.digest steps.salt v)

/-- Whether there is an expansion to follow makes no difference to the pseudorandom key. -/
theorem pseudorandomKey_congr (h : p.Extracts first) (hextract : p.extract = true) (store : Store) (base : Object) :
    pseudorandomKey first store base = pseudorandomKey p store base := by
  have hsalt : hkdfSalt first store = hkdfSalt p store := by
    unfold hkdfSalt
    rw [h.saltType, h.salt, h.saltKey]
  unfold pseudorandomKey hkdfSteps
  rw [h.extract, hextract, h.hash, hsalt]
  cases hkdfDigest p.hash with
  | error e => rfl
  | ok digest => cases hkdfSalt p store <;> rfl

theorem pseudorandomKey_ok {digest : Digest} {prk : Bytes} (h : pseudorandomKey p store base = .ok (digest, prk)) :
    hkdfDigest p.hash = .ok digest ∧ prk.length = digest.outputLength := by
  obtain ⟨steps, hsteps, h⟩ := Except.bind_ok.1 h
  obtain ⟨v, -, h⟩ := Except.bind_ok.1 h
  cases h
  exact ⟨(hkdfSteps_ok hsteps).1, Hkdf.length_extract ..⟩

end DerivationGenerator

/-! ## Keys on the way -/

namespace SecretTemplate

/-- A template for a key that holds a pseudorandom key whole, and may be derived from. -/
structure HoldsKey (as : List Attribute) : Prop extends Accepted as where
  type : namedType as = .genericSecret ∨ namedType as = .hkdf
  length : namedLength as = none
  derive : lastValue? as .derive = some (.bool true)

/-- A type that leaves the length open takes any secret that is not empty. -/
theorem settle_of_open {t : SecretTemplate} {secret : Bytes} (hblock : t.type.isBlockCipher = false)
    (hfixed : t.type.secretLength? = none) (hlen : t.requestedLength = none) (hne : secret ≠ []) :
    t.settle secret = .ok secret := by
  have hpos : 0 < secret.length := List.length_pos_of_ne_nil hne
  have hrequired : t.requiredLength = none := by rw [requiredLength, hfixed, hlen]; rfl
  have hallows : t.type.allowsLength secret.length = true := by
    rw [KeyType.allowsLength, hblock, hfixed]
    exact decide_eq_true hpos
  have hmin : t.minimalLength = 1 := by
    rw [minimalLength, hrequired, KeyType.minSecretLength, hblock, hfixed]
    rfl
  apply settle_ok.2
  rw [reconcile_of_enough (by rw [hmin]; exact hpos), kept, hrequired]
  exact ⟨rfl, hallows⟩

theorem HoldsKey.settle {as : List Attribute} (h : HoldsKey as) {secret : Bytes} (hne : secret ≠ []) :
    (reading as).settle secret = .ok secret := by
  have hfree : (namedType as).isBlockCipher = false ∧ (namedType as).secretLength? = none := by
    rcases h.type with htype | htype <;> rw [htype] <;> exact ⟨rfl, rfl⟩
  exact settle_of_open hfree.1 hfree.2 h.length hne

end SecretTemplate

namespace Registry

open DerivationGenerator

variable {r : Registry} {m : Mechanism} {store : Store} {as : List Attribute} {base o : Object} {v b : Bytes}
  {p : HkdfParams}

/-- A derived key may be derived from if its template says so last. -/
theorem baseKey_of_derive (h : r.derive m store as base = .ok o) (hv : o.getBytes .value = .ok v) (hne : v ≠ [])
    (hderive : lastValue? as .derive = some (.bool true)) : o.BaseKey v := by
  obtain ⟨g₀, g, -, hi, hg⟩ := derives_iff.2 h
  have hfollows := (Produced.derived hi hg).follows
  obtain ⟨t, ht, rfl⟩ := DerivationGenerator.init_eq hi
  have hr := SecretTemplate.ofAttributes_ok ht
  obtain ⟨_, hf, -⟩ := DerivationGenerator.generate_ok rfl hr hg
  refine ⟨⟨t.type, hf.kind hr (by decide)⟩, ?_, hv, hne⟩
  have hflag : o.value? .derive = some (.bool true) := by
    rw [hfollows.other _ (by decide) (by decide), hderive]
    rfl
  rw [Object.flag, hflag]

/-- The value of a key that HKDF derives with the steps that the parameters ask for. -/
theorem derivedValue_hkdf (hfind : r.findFor .hkdfDerive .derive = .ok .hkdf)
    (hp : Params.decode HkdfParams b = .ok p) (hstep : (p.extract || p.expand) = true)
    (ha : SecretTemplate.Accepted as) :
    r.derivedValue ⟨.hkdfDerive, b⟩ store as base = (do
      let steps ← hkdfSteps p store
      let v ← baseSecret ⟨.hkdfDerive, .hkdf steps, none⟩ base
      (SecretTemplate.reading as).settle (← steps.run v (SecretTemplate.reading as).minimalLength)) := by
  have hfamily : r.derivationGenerator ⟨.hkdfDerive, b⟩ store = ofHkdf ⟨.hkdfDerive, b⟩ store := by
    unfold derivationGenerator
    rw [hfind]
    rfl
  rw [derivedValue_eq (SecretTemplate.ofAttributes_of_accepted ha), hfamily, ofHkdf_eq hp hstep]
  cases hkdfSteps p store with
  | error e => rfl
  | ok steps =>
    show ((liftM (baseSecret ⟨.hkdfDerive, .hkdf steps, none⟩ base) : Except Failure Bytes) >>= fun v =>
      steps.run v (SecretTemplate.reading as).minimalLength) >>= _ = _
    exact bind_assoc ..

/-- With extraction, it is made of the pseudorandom key, expanded or as it is. -/
theorem derivedValue_extracting (hfind : r.findFor .hkdfDerive .derive = .ok .hkdf)
    (hp : Params.decode HkdfParams b = .ok p) (hextract : p.extract = true) (ha : SecretTemplate.Accepted as)
    (store : Store) (base : Object) :
    r.derivedValue ⟨.hkdfDerive, b⟩ store as base = (do
      let (digest, prk) ← pseudorandomKey p store base
      (SecretTemplate.reading as).settle (← if p.expand then
        (p.expansion digest).expandKey prk (SecretTemplate.reading as).minimalLength else pure prk)) := by
  rw [derivedValue_hkdf hfind hp (by rw [hextract]; rfl) ha]
  unfold pseudorandomKey
  cases hsteps : hkdfSteps p store with
  | error e => rfl
  | ok steps =>
    obtain ⟨digest, extract, expand, salt, info⟩ := steps
    obtain ⟨-, rfl, rfl, rfl⟩ := hkdfSteps_ok hsteps
    simp only [Except.liftM_ok, Except.ok_bind, HkdfSteps.run, hextract, if_true]
    cases baseSecret _ base with
    | error e => rfl
    | ok v => cases p.expand <;> rfl

/-- Without extraction, it is the expansion of the base key if that is as long as the digest. -/
theorem derivedValue_expanding (hfind : r.findFor .hkdfDerive .derive = .ok .hkdf)
    (hp : Params.decode HkdfParams b = .ok p) (hextract : p.extract = false) (hexpand : p.expand = true)
    (ha : SecretTemplate.Accepted as) (hbase : base.BaseKey v) {digest : Digest}
    (hdigest : hkdfDigest p.hash = .ok digest) (hlen : v.length = digest.outputLength) :
    r.derivedValue ⟨.hkdfDerive, b⟩ store as base = (do
      (SecretTemplate.reading as).settle
        (← (p.expansion digest).expandKey v (SecretTemplate.reading as).minimalLength)) := by
  have hsteps : hkdfSteps p store = .ok (p.expansion digest) := by
    unfold hkdfSteps
    rw [hdigest, hextract, hexpand]
    rfl
  rw [derivedValue_hkdf hfind hp (by rw [hexpand]; exact Bool.or_true _) ha, hsteps, Except.liftM_ok, Except.ok_bind,
    baseSecret_eq hbase, Except.liftM_ok, Except.ok_bind, HkdfSteps.run_of_length rfl hlen]

/-! ## The composition -/

variable {first second : HkdfParams} {b₁ b₂ : Bytes} {as₁ : List Attribute}

/-- Extraction alone makes a key that holds the pseudorandom key as it is, and that may be derived from. -/
theorem exists_holder (hfind : r.findFor .hkdfDerive .derive = .ok .hkdf)
    (h₁ : Params.decode HkdfParams b₁ = .ok first) (hextract : first.extract = true) (hexpand : first.expand = false)
    (ha₁ : SecretTemplate.HoldsKey as₁) {digest : Digest} {prk : Bytes}
    (hkey : pseudorandomKey first store base = .ok (digest, prk)) :
    ∃ k, r.derive ⟨.hkdfDerive, b₁⟩ store as₁ base = .ok k ∧ k.BaseKey prk := by
  have hne : prk ≠ [] := by
    apply List.ne_nil_of_length_pos
    rw [(pseudorandomKey_ok hkey).2]
    exact digest.outputLength_pos
  have hvalue : r.derivedValue ⟨.hkdfDerive, b₁⟩ store as₁ base = .ok prk := by
    rw [derivedValue_extracting hfind h₁ hextract ha₁.toAccepted, hkey, Except.liftM_ok, Except.ok_bind]
    simp only [hexpand]
    exact Except.lift_ok.2 (ha₁.settle hne)
  obtain ⟨k, hk, hkv⟩ := derivedValue_ok.1 hvalue
  exact ⟨k, hk, baseKey_of_derive hk hkv hne ha₁.derive⟩

/-- Extraction and expansion in one derivation give the value, or the error, that extraction into a key that may be
derived from and the expansion of that key give. The second derivation may name any salt and have any store. -/
theorem hkdf_composes (hr : r.Faithful) (hp : Params.decode HkdfParams b = .ok p) (hextract : p.extract = true)
    (hexpand : p.expand = true) (h₁ : Params.decode HkdfParams b₁ = .ok first) (hfirst : p.Extracts first)
    (h₂ : Params.decode HkdfParams b₂ = .ok second) (hsecond : p.Expands second)
    (ha : SecretTemplate.Accepted as) (ha₁ : SecretTemplate.HoldsKey as₁) (store store₂ : Store) (base : Object) :
    r.derivedValue ⟨.hkdfDerive, b⟩ store as base = (do
      let k ← r.derive ⟨.hkdfDerive, b₁⟩ store as₁ base
      r.derivedValue ⟨.hkdfDerive, b₂⟩ store₂ as k) := by
  cases hfind : r.findFor .hkdfDerive .derive with
  | error e =>
    unfold derivedValue derive derivationGenerator
    rw [hfind]
    rfl
  | ok f =>
    have hmem : MechanismId.hkdfDerive ∈ MechanismFamily.hkdf.mechanisms := by decide
    obtain rfl := MechanismFamily.eq_of_mem (hr _ _ (findFor_ok hfind).1) hmem
    have hkeys := pseudorandomKey_congr hfirst hextract store base
    rw [derivedValue_extracting hfind hp hextract ha]
    cases hkey : pseudorandomKey p store base with
    | error e =>
      -- what is wrong before the expansion is wrong with the first derivation too
      have hone := derivedValue_extracting hfind h₁ hfirst.extract ha₁.toAccepted store base
      rw [hkeys, hkey] at hone
      rw [derivedValue_error.1 hone]
      rfl
    | ok key =>
      obtain ⟨digest, prk⟩ := key
      obtain ⟨hdigest, hlen⟩ := pseudorandomKey_ok hkey
      obtain ⟨k, hk, hbase⟩ := exists_holder hfind h₁ hfirst.extract hfirst.expand ha₁ (hkeys.trans hkey)
      rw [← hsecond.hash] at hdigest
      rw [hk, Except.liftM_ok, Except.ok_bind, Except.ok_bind,
        derivedValue_expanding hfind h₂ hsecond.extract hsecond.expand ha hbase hdigest hlen]
      simp only [hexpand, if_true, HkdfParams.expansion, hsecond.info]

end Registry

/-! ## A run -/

namespace HkdfComposition

/-- HKDF over SHA-256 with a salt and information. -/
def params : HkdfParams := ⟨true, true, .sha256, 2, some [3, 4], 0, some [5]⟩

/-- The wire form of parameters. -/
def wire (p : HkdfParams) : Bytes := (Params.encode p).toOption.getD []

/-- Extraction alone. -/
def first : HkdfParams := { params with expand := false, info := none }

/-- Expansion alone, with a salt type that there is not. -/
def second : HkdfParams := { params with extract := false, saltType := 9 }

/-- A template for an HKDF key that may be derived from. -/
def holder : List Attribute := [.ofNumber .keyType KeyType.hkdf.val, .ofBool .derive true]

def fortyBytes : List Attribute := [.ofNumber .valueLen 40]

theorem decode_wire : Params.decode HkdfParams (wire params) = .ok params ∧
    Params.decode HkdfParams (wire first) = .ok first ∧ Params.decode HkdfParams (wire second) = .ok second :=
  ⟨Except.ok_of_toOption (by decide +kernel), Except.ok_of_toOption (by decide +kernel),
    Except.ok_of_toOption (by decide +kernel)⟩

theorem holder_holds : SecretTemplate.HoldsKey holder where
  toAccepted := SecretTemplate.exists_ok_iff.1 ⟨_, rfl⟩
  type := .inr rfl
  length := rfl
  derive := rfl

theorem run :
    ∃ v, Registry.full.derivedValue ⟨.hkdfDerive, wire params⟩ {} fortyBytes (Exposure.confined true) = .ok v := by
  have h : (Registry.full.derivedValue ⟨.hkdfDerive, wire params⟩ {} fortyBytes
      (Exposure.confined true)).toOption.isSome = true := by decide +kernel
  obtain ⟨v, hv⟩ := Option.isSome_iff_exists.1 h
  exact ⟨v, Except.ok_of_toOption hv⟩

end HkdfComposition

open HkdfComposition in
/-- Forty bytes, which are more than one digest, come out of one derivation and of two. -/
theorem Registry.hkdf_composes_sha256 :
    ∃ k v, full.derivedValue ⟨.hkdfDerive, wire params⟩ {} fortyBytes (Exposure.confined true) = .ok v ∧
      full.derive ⟨.hkdfDerive, wire first⟩ {} holder (Exposure.confined true) = .ok k ∧
      full.derivedValue ⟨.hkdfDerive, wire second⟩ {} fortyBytes k = .ok v := by
  obtain ⟨v, hv⟩ := HkdfComposition.run
  obtain ⟨hp, h₁, h₂⟩ := decode_wire
  have hforty : SecretTemplate.Accepted fortyBytes := SecretTemplate.exists_ok_iff.1 ⟨_, rfl⟩
  have htwo := hkdf_composes faithful_full hp rfl rfl h₁ ⟨rfl, rfl, rfl, rfl, rfl, rfl⟩ h₂ ⟨rfl, rfl, rfl, rfl⟩ hforty
    holder_holds {} {} (Exposure.confined true)
  rw [hv] at htwo
  obtain ⟨k, hk, hkv⟩ := Except.bind_ok.1 htwo.symm
  exact ⟨k, v, hv, hk, hkv⟩

end SoftToken
