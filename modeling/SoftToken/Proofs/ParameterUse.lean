import SoftToken.Proofs.SignerBinding
import SoftToken.Proofs.WireFormat
/-!
# What becomes of parameters

A mechanism takes no parameters, may take a structure or must have one (`MechanismFamily.paramUse`). A
request reads its blob accordingly (`ParamUse.ReadBy`): it succeeds only with a blob of that form. All
requests do, but for the RSA mechanisms that take no parameters; these never look at the blob
(`Registry.reads_params_iff`).
-/

namespace SoftToken

/-! ## The parameters of the mechanisms -/

/-- Which parameters a mechanism takes. -/
inductive ParamUse where
  | none
  | optional (s : ParamShape)
  | required (s : ParamShape)
deriving DecidableEq, Repr

/-- The blob is the encoding of such parameters, or empty where they may be left out. -/
def ParamUse.Fits (b : Bytes) : ParamUse → Prop
  | none => b = []
  | optional s => b = [] ∨ ∃ v : s.Value, Params.encode v = .ok b
  | required s => ∃ v : s.Value, Params.encode v = .ok b

/-- The parameters of an RSA mechanism: those of the paddings that have any. -/
def rsaParamUse (id : MechanismId) : ParamUse :=
  if id = .rsaPkcsOaep then .required .oaep
  else if id = .rsaPkcsPss ∨ id ∈ SignatureMethod.rsaPssHashed.map (·.1) then .required .pss
  else .none

/-- The parameters of a mechanism of a family. -/
def MechanismFamily.paramUse (id : MechanismId) : MechanismFamily → ParamUse
  | cmac => if id ∈ [.aesCmacGeneral, .camelliaMacGeneral] then .required .mac else .none
  | hmac => if HmacRow.rows.any (·.general == some id) then .required .mac else .none
  | eddsa => .optional .eddsa
  | mlDsa => if id = .hashMlDsa then .required .hashSignContext else .optional .signContext
  | slhDsa => if id = .hashSlhDsa then .required .hashSignContext else .optional .signContext
  | rsaPkcs | rsaOaep | rsaSignature => rsaParamUse id
  | ecdh => .required .agreement
  | encryptData =>
    if id ∈ [.aesCbcEncryptData, .camelliaCbcEncryptData] then .required .cbcData else .required .stringData
  | hkdf => .required .hkdf
  | combination =>
    if id = .concatenateBaseAndKey then .required .handle
    else if id = .extractKeyFromKey then .required .extract
    else .required .stringData
  | poly1305 | ecdsa | digestDerivation | mlKem => .none

/-- The RSA mechanisms that take no parameters do not look at the blob. -/
def MechanismFamily.Overlooks (f : MechanismFamily) (id : MechanismId) : Prop :=
  f ∈ [rsaPkcs, rsaOaep, rsaSignature] ∧ f.paramUse id = .none

/-! ## Requests -/

/-- A request for an encapsulation, a signature method or a derivation. -/
inductive CreateCall where
  | encapsulation (key : Object)
  | signature (preference : HedgePreference)
  | derivation (store : Store)

/-- How a request for a mechanism ends, without its result. -/
def Registry.create (r : Registry) (c : CreateCall) (m : Mechanism) : Except Error Unit :=
  match c with
  | .encapsulation key => discard (r.encapsulator m key)
  | .signature preference => discard (r.signatureMethod preference m)
  | .derivation store => discard (r.derivationGenerator m store)

/-- The blobs that `x` accepts are of the form `u`. Where that is the empty blob only, every other one is
refused for its form, unless not even the empty one is accepted. -/
structure ParamUse.ReadBy {α : Type} (u : ParamUse) (x : Bytes → Except Error α) : Prop where
  fits {b : Bytes} {a : α} : b.length ≤ Codec.sizeLimit → x b = .ok a → u.Fits b
  refuses {b : Bytes} {a : α} : u = .none → b ≠ [] → x [] = .ok a →
    ∃ e, x b = .error e ∧ e.code = .mechanismParamInvalid

theorem Params.requireNone_ok {b : Bytes} {u : Unit} : requireNone b = .ok u ↔ b = [] := by
  unfold requireNone
  split
  · next hb => exact iff_of_true rfl (List.isEmpty_iff.1 hb)
  · next hb => exact iff_of_false nofun (mt List.isEmpty_iff.2 hb)

namespace ParamUse.ReadBy

variable {α β : Type} {u : ParamUse} {x : Bytes → Except Error α}

theorem bind (h : u.ReadBy x) (f : Bytes → α → Except Error β) : u.ReadBy fun b => x b >>= f b where
  fits hb ha := by
    obtain ⟨a, ha, -⟩ := Except.bind_ok.1 ha
    exact h.fits hb ha
  refuses hu hb ha := by
    obtain ⟨a, ha, -⟩ := Except.bind_ok.1 ha
    obtain ⟨e, he, hcode⟩ := h.refuses hu hb ha
    rw [he]
    exact ⟨e, rfl, hcode⟩

theorem discard (h : u.ReadBy x) : u.ReadBy fun b => discard (x b) where
  fits hb ha := by
    obtain ⟨a, ha⟩ := Except.discard_ok.1 ha
    exact h.fits hb ha
  refuses hu hb ha := by
    obtain ⟨a, ha⟩ := Except.discard_ok.1 ha
    obtain ⟨e, he, hcode⟩ := h.refuses hu hb ha
    rw [he]
    exact ⟨e, rfl, hcode⟩

/-- What is refused in any case reads parameters of every form. -/
theorem error (e : Error) : u.ReadBy fun _ => (.error e : Except Error α) where
  fits _ ha := nomatch ha
  refuses _ _ ha := nomatch ha

/-- A test that does not depend on the blob. -/
theorem ite {p : Prop} [Decidable p] {y : Bytes → Except Error α} (hx : p → u.ReadBy x) (hy : ¬ p → u.ReadBy y) :
    u.ReadBy fun b => if p then x b else y b := by
  by_cases hp : p
  · simpa only [if_pos hp] using hx hp
  · simpa only [if_neg hp] using hy hp

theorem requireNone : none.ReadBy Params.requireNone where
  fits _ ha := Params.requireNone_ok.1 ha
  refuses {b a} _ hb _ := by
    rw [Params.requireNone, if_neg (mt List.isEmpty_iff.1 hb)]
    exact ⟨_, rfl, rfl⟩

theorem decode (s : ParamShape) : (required s).ReadBy fun b => Params.decode s.Value b where
  fits hb ha := ⟨_, (Params.decode_ok hb).1 ha⟩
  refuses hu := nomatch hu

theorem decodeOptional (s : ParamShape) : (optional s).ReadBy fun b => Params.decodeOptional s.Value b where
  fits {b a} hb ha := by
    unfold Params.decodeOptional at ha
    split at ha
    · exact .inl (List.isEmpty_iff.1 ‹_›)
    · rcases hd : Params.decode s.Value b with e | v
      · rw [hd] at ha
        cases ha
      · exact .inr ⟨v, (Params.decode_ok hb).1 hd⟩
  refuses hu := nomatch hu

/-- A request that gives every blob the same answer reads no parameters, unless it succeeds. -/
theorem const_iff {x : Except Error α} : none.ReadBy (fun _ => x) ↔ ¬ ∃ a, x = .ok a := by
  constructor
  · rintro h ⟨a, rfl⟩
    have := h.fits (b := [0]) (by decide) rfl
    cases this
  · intro h
    constructor
    · intro b a _ ha
      exact absurd ⟨a, ha⟩ h
    · intro b a _ _ ha
      exact absurd ⟨a, ha⟩ h

end ParamUse.ReadBy

/-- What a table has for a mechanism stands in one of its rows. -/
theorem mem_of_lookup {α : Type} {table : List (MechanismId × α)} {id : MechanismId} {a : α}
    (h : table.lookup id = some a) : (id, a) ∈ table := by
  obtain ⟨before, after, rfl, -⟩ := List.lookup_eq_some_iff.1 h
  exact List.mem_append_right _ List.mem_cons_self

/-- A table without a row for a mechanism does not name it. -/
theorem not_mem_of_lookup {α : Type} {table : List (MechanismId × α)} {id : MechanismId}
    (h : table.lookup id = none) : id ∉ table.map (·.1) := by
  intro hid
  obtain ⟨row, hrow, rfl⟩ := List.mem_map.1 hid
  exact absurd (beq_self_eq_true row.1) (by simpa using List.lookup_eq_none_iff.1 h row hrow)

/-! ## Signatures -/

namespace SignatureMethod

open ParamUse

variable {id : MechanismId}

theorem readBy_requestedLength (general : Bool) :
    (if general then required .mac else .none).ReadBy fun b => requestedLength ⟨id, b⟩ general := by
  cases general with
  | true => exact (ReadBy.decode .mac).bind _
  | false => exact ReadBy.requireNone.bind _

/-- The mechanism of an HMAC row asks for a length if it is one that does in any row. -/
theorem general_of_row {r : HmacRow} (hr : r ∈ HmacRow.rows) (hid : id ∈ r.mechanisms) :
    HmacRow.rows.any (·.general == some id) = (r.general == some id) := by
  have hrows : ∀ r ∈ HmacRow.rows, ∀ id ∈ r.mechanisms,
      HmacRow.rows.any (·.general == some id) = (r.general == some id) := by decide +kernel
  exact hrows r hr id hid

theorem readBy_ofHmac : (MechanismFamily.hmac.paramUse id).ReadBy fun b => ofHmac ⟨id, b⟩ := by
  simp only [ofHmac]
  cases hr : HmacRow.rows.find? fun r => r.mechanisms.contains id with
  | none => exact .error _
  | some r =>
    have hid := List.find?_some (p := fun r : HmacRow => r.mechanisms.contains id) hr
    rw [MechanismFamily.paramUse, general_of_row (List.mem_of_find?_eq_some hr) (List.contains_iff_mem.1 hid)]
    exact (readBy_requestedLength _).bind _

theorem readBy_ofCmac : (MechanismFamily.cmac.paramUse id).ReadBy fun b => ofCmac ⟨id, b⟩ := by
  simp only [ofCmac]
  cases hm : cmacMechanisms.lookup id with
  | none => exact .error _
  | some row =>
    have hrows : ∀ row ∈ cmacMechanisms, (row.1 ∈ [.aesCmacGeneral, .camelliaMacGeneral]) = (row.2.2 = true) := by
      decide
    simp only [MechanismFamily.paramUse, hrows _ (mem_of_lookup hm)]
    exact (readBy_requestedLength row.2).bind _

theorem readBy_ofPoly1305 : (MechanismFamily.poly1305.paramUse id).ReadBy fun b => ofPoly1305 ⟨id, b⟩ :=
  ReadBy.requireNone.bind _

theorem readBy_ofEcdsa : (MechanismFamily.ecdsa.paramUse id).ReadBy fun b => ofEcdsa ⟨id, b⟩ := by
  simp only [ofEcdsa]
  cases ecdsaMechanisms.lookup id with
  | none => exact .error _
  | some digest => exact ReadBy.requireNone.bind _

theorem readBy_ofEddsa : (MechanismFamily.eddsa.paramUse id).ReadBy fun b => ofEddsa ⟨id, b⟩ :=
  (ReadBy.decodeOptional .eddsa).bind _

theorem readBy_pssScheme (bound : Option Digest) : (required .pss).ReadBy fun b => pssScheme ⟨id, b⟩ bound :=
  (ReadBy.decode .pss).bind _

theorem rsaParamUse_of_hashed {d : Digest} (h : rsaPkcsHashed.lookup id = some d) : rsaParamUse id = .none := by
  have hrows : ∀ row ∈ rsaPkcsHashed, rsaParamUse row.1 = .none := by decide
  exact hrows _ (mem_of_lookup h)

theorem rsaParamUse_of_pss {d : Digest} (h : rsaPssHashed.lookup id = some d) : rsaParamUse id = .required .pss := by
  have hrows : ∀ row ∈ rsaPssHashed, rsaParamUse row.1 = .required .pss := by decide
  exact hrows _ (mem_of_lookup h)

/-- The RSA signatures with parameters read them. -/
theorem readBy_ofRsa (h : rsaParamUse id ≠ .none) : (rsaParamUse id).ReadBy fun b => ofRsa ⟨id, b⟩ := by
  have hne : ∀ id', rsaParamUse id' = .none → id ≠ id' := by
    rintro id' h' rfl
    exact h h'
  simp only [ofRsa, hne .rsaPkcs rfl, hne .rsa9796 rfl, hne .sha1RsaX9_31 rfl, if_false]
  refine .ite (fun hid => ?_) fun _ => ?_
  · subst hid
    exact (readBy_pssScheme none).bind _
  cases hd : rsaPkcsHashed.lookup id with
  | some d => exact absurd (rsaParamUse_of_hashed hd) h
  | none =>
    cases hd : rsaPssHashed.lookup id with
    | some d =>
      rw [rsaParamUse_of_pss hd]
      exact (readBy_pssScheme (some d)).bind _
    | none => exact .error _

/-- The other ones do not look at them. -/
theorem ofRsa_eq (h : rsaParamUse id = .none) (b : Bytes) : ofRsa ⟨id, b⟩ = ofRsa ⟨id, []⟩ := by
  have hid : id ≠ .rsaPkcsPss := by
    rintro rfl
    cases h
  simp only [ofRsa, hid, if_false]
  cases hd : rsaPssHashed.lookup id with
  | none => cases rsaPkcsHashed.lookup id <;> rfl
  | some d =>
    rw [rsaParamUse_of_pss hd] at h
    cases h

theorem readBy_ofParams (preference : HedgePreference) (fixed : Option Prehash) :
    (optional .signContext).ReadBy fun b => SigningOptions.ofParams ⟨id, b⟩ preference fixed :=
  (ReadBy.decodeOptional .signContext).bind _

theorem readBy_ofHashParams (preference : HedgePreference) :
    (required .hashSignContext).ReadBy fun b => SigningOptions.ofHashParams ⟨id, b⟩ preference :=
  (ReadBy.decode .hashSignContext).bind _

theorem readBy_optionsOf {pureId hashId : MechanismId} (hne : pureId ≠ hashId) (preference : HedgePreference)
    (fixed : List (MechanismId × Prehash)) :
    (if id = hashId then required .hashSignContext else optional .signContext).ReadBy fun b =>
      optionsOf ⟨id, b⟩ preference pureId hashId fixed := by
  by_cases hid : id = pureId
  · subst hid
    simp only [optionsOf, if_neg hne, if_true]
    exact readBy_ofParams preference none
  by_cases hid' : id = hashId
  · simp only [optionsOf, if_neg hid, if_pos hid']
    exact readBy_ofHashParams preference
  simp only [optionsOf, if_neg hid, if_neg hid']
  cases fixed.lookup id with
  | none => exact .error _
  | some p => exact readBy_ofParams preference (some p)

end SignatureMethod

/-! ## Encapsulations -/

namespace Encapsulator

open ParamUse

variable {id : MechanismId}

/-- A key of another type is refused whatever the parameters are. -/
theorem readBy_ofMlKem (type : KeyType) :
    (MechanismFamily.mlKem.paramUse id).ReadBy fun b => ofMlKem ⟨id, b⟩ type :=
  .ite (fun _ => .error _) fun _ => ReadBy.requireNone.bind _

theorem readBy_oaepPadding : (required .oaep).ReadBy fun b => oaepPadding ⟨id, b⟩ :=
  (ReadBy.decode .oaep).bind _

theorem readBy_ofRsa (type : KeyType) (h : rsaParamUse id ≠ .none) :
    (rsaParamUse id).ReadBy fun b => ofRsa ⟨id, b⟩ type := by
  have hid : id ≠ .rsaPkcs := by
    rintro rfl
    exact h rfl
  simp only [ofRsa, hid, if_false]
  refine .ite (fun _ => .error _) fun _ => .ite (fun hid => ?_) fun _ => .error _
  subst hid
  exact readBy_oaepPadding.bind _

theorem ofRsa_eq (type : KeyType) (h : rsaParamUse id = .none) (b : Bytes) :
    ofRsa ⟨id, b⟩ type = ofRsa ⟨id, []⟩ type := by
  have hid : id ≠ .rsaPkcsOaep := by
    rintro rfl
    cases h
  simp only [ofRsa, hid, if_false]

theorem readBy_ofAgreement (type : KeyType) :
    (MechanismFamily.ecdh.paramUse id).ReadBy fun b => ofAgreement ⟨id, b⟩ type :=
  ((ReadBy.decode .agreement).bind _).bind _

end Encapsulator

/-! ## Derivations -/

namespace DerivationGenerator

open ParamUse

variable {id : MechanismId}

theorem readBy_ofDigest : (MechanismFamily.digestDerivation.paramUse id).ReadBy fun b => ofDigest ⟨id, b⟩ := by
  simp only [ofDigest]
  cases digestMechanisms.lookup id with
  | none => exact .error _
  | some d => exact ReadBy.requireNone.bind _

theorem readBy_stringData : (required .stringData).ReadBy fun b => stringData ⟨id, b⟩ :=
  (ReadBy.decode .stringData).bind _

theorem readBy_ofCombination (store : Store) :
    (MechanismFamily.combination.paramUse id).ReadBy fun b => ofCombination ⟨id, b⟩ store := by
  unfold MechanismFamily.paramUse
  by_cases hkey : id = .concatenateBaseAndKey
  · simp only [ofCombination, if_pos hkey]
    exact (ReadBy.decode .handle).bind _
  by_cases hextract : id = .extractKeyFromKey
  · subst hextract
    exact (ReadBy.decode .extract).bind _
  simp only [ofCombination, if_neg hkey, if_neg hextract]
  refine .ite (fun _ => ?_) fun _ => .ite (fun _ => ?_) fun _ => .ite (fun _ => ?_) fun _ => .error _
  all_goals exact readBy_stringData.bind _

theorem readBy_ofAgreement : (MechanismFamily.ecdh.paramUse id).ReadBy fun b => ofAgreement ⟨id, b⟩ :=
  ((ReadBy.decode .agreement).bind _).bind _

theorem readBy_ofHkdf (store : Store) :
    (MechanismFamily.hkdf.paramUse id).ReadBy fun b => ofHkdf ⟨id, b⟩ store := by
  by_cases hid : id = .hkdfDerive
  · simp only [ofHkdf, hid, ne_eq, not_true_eq_false, if_false]
    exact (ReadBy.decode .hkdf).bind _
  · simp only [ofHkdf, ne_eq, hid, not_false_eq_true, if_true]
    exact .error _

theorem readBy_encryptParams (chained : Bool) :
    (if chained then required .cbcData else required .stringData).ReadBy fun b => encryptParams ⟨id, b⟩ chained := by
  cases chained with
  | true => exact (ReadBy.decode .cbcData).bind _
  | false => exact (ReadBy.decode .stringData).bind _

theorem readBy_ofEncryption : (MechanismFamily.encryptData.paramUse id).ReadBy fun b => ofEncryption ⟨id, b⟩ := by
  simp only [ofEncryption]
  cases hm : encryptMechanisms.lookup id with
  | none => exact .error _
  | some row =>
    have hrows : ∀ row ∈ encryptMechanisms,
        (row.1 ∈ [.aesCbcEncryptData, .camelliaCbcEncryptData]) = (row.2.2 = true) := by decide
    simp only [MechanismFamily.paramUse, hrows _ (mem_of_lookup hm)]
    exact (readBy_encryptParams row.2).bind _

end DerivationGenerator

/-! ## Families and the registry -/

open ParamUse

namespace MechanismFamily

variable {f : MechanismFamily} {id : MechanismId}

theorem readBy_encapsulator (type : KeyType) (h : ¬ f.Overlooks id) :
    (f.paramUse id).ReadBy fun b => f.encapsulator ⟨id, b⟩ type := by
  cases f with
  | mlKem => exact Encapsulator.readBy_ofMlKem type
  | rsaPkcs | rsaOaep => exact Encapsulator.readBy_ofRsa type fun hu => h ⟨by decide, hu⟩
  | ecdh => exact Encapsulator.readBy_ofAgreement type
  | _ => exact .error _

theorem readBy_signatureMethod (preference : HedgePreference) (h : ¬ f.Overlooks id) :
    (f.paramUse id).ReadBy fun b => f.signatureMethod ⟨id, b⟩ preference := by
  cases f with
  | cmac => exact SignatureMethod.readBy_ofCmac
  | hmac => exact SignatureMethod.readBy_ofHmac
  | poly1305 => exact SignatureMethod.readBy_ofPoly1305
  | rsaPkcs | rsaSignature => exact SignatureMethod.readBy_ofRsa fun hu => h ⟨by decide, hu⟩
  | ecdsa => exact SignatureMethod.readBy_ofEcdsa
  | eddsa => exact SignatureMethod.readBy_ofEddsa
  | mlDsa => exact (SignatureMethod.readBy_optionsOf (by decide) preference _).bind _
  | slhDsa => exact (SignatureMethod.readBy_optionsOf (by decide) preference _).bind _
  | _ => exact .error _

theorem readBy_derivationGenerator (store : Store) :
    (f.paramUse id).ReadBy fun b => f.derivationGenerator ⟨id, b⟩ store := by
  cases f with
  | ecdh => exact DerivationGenerator.readBy_ofAgreement
  | encryptData => exact DerivationGenerator.readBy_ofEncryption
  | digestDerivation => exact DerivationGenerator.readBy_ofDigest
  | hkdf => exact DerivationGenerator.readBy_ofHkdf store
  | combination => exact DerivationGenerator.readBy_ofCombination store
  | _ => exact .error _

theorem encapsulator_eq (type : KeyType) (h : f.Overlooks id) (b : Bytes) :
    f.encapsulator ⟨id, b⟩ type = f.encapsulator ⟨id, []⟩ type := by
  obtain ⟨hf, hu⟩ := h
  cases f with
  | rsaPkcs | rsaOaep => exact Encapsulator.ofRsa_eq type hu b
  | rsaSignature => rfl
  | _ => exact absurd hf (by decide)

theorem signatureMethod_eq (preference : HedgePreference) (h : f.Overlooks id) (b : Bytes) :
    f.signatureMethod ⟨id, b⟩ preference = f.signatureMethod ⟨id, []⟩ preference := by
  obtain ⟨hf, hu⟩ := h
  cases f with
  | rsaPkcs | rsaSignature => exact SignatureMethod.ofRsa_eq hu b
  | rsaOaep => rfl
  | _ => exact absurd hf (by decide)

theorem derivationGenerator_eq (store : Store) (h : f.Overlooks id) (b : Bytes) :
    f.derivationGenerator ⟨id, b⟩ store = f.derivationGenerator ⟨id, []⟩ store := by
  obtain ⟨hf, hu⟩ := h
  cases f with
  | rsaPkcs | rsaSignature | rsaOaep => rfl
  | _ => exact absurd hf (by decide)

end MechanismFamily

namespace Registry

variable {r : Registry} {f : MechanismFamily} {id : MechanismId}

/-- A registered mechanism is left to its family, unless the family does not support the operation. -/
theorem findFor_of_find (hf : r.find? id = some f) (op : Operation) :
    r.findFor id op = .ok f ∨ ∃ e, r.findFor id op = .error e := by
  cases hop : r.findFor id op with
  | error e => exact .inr ⟨e, rfl⟩
  | ok f' =>
    obtain rfl : f = f' := by simpa [hf] using (findFor_ok hop).1
    exact .inl rfl

theorem readBy_create (hf : r.find? id = some f) (h : ¬ f.Overlooks id) (c : CreateCall) :
    (f.paramUse id).ReadBy fun b => r.create c ⟨id, b⟩ := by
  cases c with
  | encapsulation key =>
    refine ReadBy.discard ?_
    rcases findFor_of_find hf .encapsulate with hop | ⟨e, hop⟩
    · simp only [encapsulator, hop, Except.ok_bind]
      cases key.getNumber .keyType with
      | error e => exact .error _
      | ok type => exact MechanismFamily.readBy_encapsulator ⟨type⟩ h
    · simp only [encapsulator, hop]
      exact .error e
  | signature preference =>
    refine ReadBy.discard ?_
    rcases findFor_of_find hf .sign with hop | ⟨e, hop⟩
    · simp only [signatureMethod, hop, Except.ok_bind]
      exact MechanismFamily.readBy_signatureMethod preference h
    · simp only [signatureMethod, hop]
      exact .error e
  | derivation store =>
    refine ReadBy.discard ?_
    rcases findFor_of_find hf .derive with hop | ⟨e, hop⟩
    · simp only [derivationGenerator, hop, Except.ok_bind]
      exact MechanismFamily.readBy_derivationGenerator store
    · simp only [derivationGenerator, hop]
      exact .error e

theorem create_eq (hf : r.find? id = some f) (h : f.Overlooks id) (c : CreateCall) (b : Bytes) :
    r.create c ⟨id, b⟩ = r.create c ⟨id, []⟩ := by
  cases c with
  | encapsulation key =>
    rcases findFor_of_find hf .encapsulate with hop | ⟨e, hop⟩
    · simp only [create, encapsulator, hop, Except.ok_bind, fun type => MechanismFamily.encapsulator_eq type h b]
    · simp only [create, encapsulator, hop]
      rfl
  | signature preference =>
    rcases findFor_of_find hf .sign with hop | ⟨e, hop⟩
    · simp only [create, signatureMethod, hop, Except.ok_bind, MechanismFamily.signatureMethod_eq preference h b]
    · simp only [create, signatureMethod, hop]
      rfl
  | derivation store =>
    rcases findFor_of_find hf .derive with hop | ⟨e, hop⟩
    · simp only [create, derivationGenerator, hop, Except.ok_bind, MechanismFamily.derivationGenerator_eq store h b]
    · simp only [create, derivationGenerator, hop]
      rfl

/-- A request for a registered mechanism accepts blobs of the form of its parameters only, and refuses
parameters where it takes none. The exceptions are the RSA mechanisms that take no parameters: whenever
they succeed at all, they do with every blob. -/
theorem reads_params_iff (hf : r.find? id = some f) (c : CreateCall) :
    (f.paramUse id).ReadBy (fun b => r.create c ⟨id, b⟩) ↔
      ¬ (f.Overlooks id ∧ ∃ u, r.create c ⟨id, []⟩ = .ok u) := by
  by_cases h : f.Overlooks id
  · simp only [create_eq hf h c]
    rw [h.2, ReadBy.const_iff]
    simp only [h, true_and]
  · simp only [h, false_and, not_false_eq_true, iff_true]
    exact readBy_create hf h c

theorem find_ecdsa : full.find? .ecdsa = some .ecdsa := by decide +kernel

theorem reads_params_iff_ecdsa :
    full.find? .ecdsa = some .ecdsa ∧ ¬ MechanismFamily.ecdsa.Overlooks .ecdsa ∧
      ∃ e, full.create (.signature .randomized) ⟨.ecdsa, [0]⟩ = .error e ∧ e.code = .mechanismParamInvalid := by
  have hread : ¬ MechanismFamily.ecdsa.Overlooks .ecdsa := by
    rintro ⟨hf, -⟩
    exact absurd hf (by decide)
  have hempty : (full.create (.signature .randomized) ⟨.ecdsa, []⟩).toOption = some () := by decide +kernel
  have reads := (reads_params_iff find_ecdsa (.signature .randomized)).2 fun h => hread h.1
  exact ⟨find_ecdsa, hread, reads.refuses rfl (by decide) (Except.ok_of_toOption hempty)⟩

/-- PKCS #1 version 1.5 takes no parameters, and takes a byte of them. -/
theorem rsa_accepts_a_byte :
    full.find? .rsaPkcs = some .rsaPkcs ∧ MechanismFamily.rsaPkcs.paramUse .rsaPkcs = .none ∧
      full.create (.signature .randomized) ⟨.rsaPkcs, [0]⟩ = .ok () ∧
      full.create (.encapsulation (.newKey .publicKey .rsa [])) ⟨.rsaPkcs, [0]⟩ = .ok () := by
  have hsign : (full.create (.signature .randomized) ⟨.rsaPkcs, [0]⟩).toOption = some () := by decide +kernel
  have hencap : (full.create (.encapsulation (.newKey .publicKey .rsa [])) ⟨.rsaPkcs, [0]⟩).toOption = some () := by
    decide +kernel
  exact ⟨by decide +kernel, rfl, Except.ok_of_toOption hsign, Except.ok_of_toOption hencap⟩

end Registry

end SoftToken
