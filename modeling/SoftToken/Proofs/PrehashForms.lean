import SoftToken.Proofs.HashBound
import SoftToken.Proofs.RequestErrors
import SoftToken.Proofs.WireFormat
/-!
# Two forms of signatures over a digest

An ML-DSA or SLH-DSA signature over a digest is asked for in two ways: with the mechanism that takes the digest from
its parameters, or with the one that fixes it. Both forms are the same for the same digest, hedge and context
(`Registry.prehash_forms`). They are refused together or name one scheme (`PrehashForms.signatureMethod_eq`), and a
method binds a key by its scheme alone: the mechanism only goes into the text of a refusal (`alike_bindTowards_scheme`).
The two signers then differ in the mechanism they name at most, and so answer every run alike (`Twins.answers_eq`).
-/

namespace SoftToken

/-! ## The forms -/

/-- The digests that parameters may name, each with the ML-DSA and the SLH-DSA mechanism that fixes it. -/
def prehashForms : List (MechanismId × MechanismId × MechanismId) :=
  [(.sha224, .hashMlDsaSha224, .hashSlhDsaSha224), (.sha256, .hashMlDsaSha256, .hashSlhDsaSha256),
    (.sha384, .hashMlDsaSha384, .hashSlhDsaSha384), (.sha512, .hashMlDsaSha512, .hashSlhDsaSha512),
    (.sha3_224, .hashMlDsaSha3_224, .hashSlhDsaSha3_224), (.sha3_256, .hashMlDsaSha3_256, .hashSlhDsaSha3_256),
    (.sha3_384, .hashMlDsaSha3_384, .hashSlhDsaSha3_384), (.sha3_512, .hashMlDsaSha3_512, .hashSlhDsaSha3_512)]

/-- Parameters that name a digest, and parameters that name none, for the same hedge and context. An absent context
is the same as an empty one, and absent parameters are the same as no preference without a context. -/
def SameContext (hash : MechanismId) (b b' : Bytes) : Prop :=
  ∃ hedge context, Params.decode HashSignContext b = .ok ⟨hedge, context, hash⟩ ∧
    ∃ p : Option SignContext, Params.decodeOptional SignContext b' = .ok p ∧
      (p.getD ⟨Hedge.preferred, none⟩).hedge = hedge ∧
      (p.getD ⟨Hedge.preferred, none⟩).context.getD [] = context.getD []

/-- A mechanism that takes the digest from its parameters, and the one that fixes this digest, with parameters that
otherwise say the same. -/
inductive PrehashForms : Mechanism → Mechanism → Prop where
  | mlDsa {hash id id' : MechanismId} {b b' : Bytes} (h : (hash, id, id') ∈ prehashForms)
      (hb : SameContext hash b b') : PrehashForms ⟨.hashMlDsa, b⟩ ⟨id, b'⟩
  | slhDsa {hash id id' : MechanismId} {b b' : Bytes} (h : (hash, id, id') ∈ prehashForms)
      (hb : SameContext hash b b') : PrehashForms ⟨.hashSlhDsa, b⟩ ⟨id', b'⟩

/-- Encoded parameters. -/
theorem SameContext.of_encode {hedge : UInt64} {context context' : Option Bytes} {hash : MechanismId} {b b' : Bytes}
    (hb : Params.encode (⟨hedge, context, hash⟩ : HashSignContext) = .ok b)
    (hb' : Params.encode (⟨hedge, context'⟩ : SignContext) = .ok b') (h : context'.getD [] = context.getD []) :
    SameContext hash b b' := by
  have hdecode : Params.decode HashSignContext b = .ok ⟨hedge, context, hash⟩ :=
    Params.decode_of_encode (s := .hashSignContext) hb
  have hdecode' : Params.decode SignContext b' = .ok ⟨hedge, context'⟩ :=
    Params.decode_of_encode (s := .signContext) hb'
  refine ⟨hedge, context, hdecode, some ⟨hedge, context'⟩, ?_, rfl, h⟩
  cases b' with
  | nil => cases hdecode'
  | cons x b' => exact congrArg (some <$> ·) hdecode'

/-! ## The schemes -/

namespace SigningOptions

variable {hash id id' : MechanismId} {b b' : Bytes} {p : Prehash} {preference : HedgePreference}

/-- Both decoders give the same options. -/
theorem ofHashParams_eq (hp : Prehash.ofMechanism hash = .ok p) (h : SameContext hash b b') :
    ofHashParams ⟨id, b⟩ preference = ofParams ⟨id', b'⟩ preference (some p) := by
  obtain ⟨hedge, context, hb, q, hb', rfl, hcontext⟩ := h
  have hsame : checkContext (q.getD ⟨Hedge.preferred, none⟩).context = checkContext context := by
    unfold checkContext
    rw [hcontext]
  simp only [ofHashParams, ofParams, hb, hb', Except.ok_bind, hsame, hp]

/-- Whatever is wrong with options, the parameters are invalid. -/
theorem code_of_ofParams {m : Mechanism} {fixed : Option Prehash} {e : Error}
    (h : ofParams m preference fixed = .error e) : e.code = .mechanismParamInvalid := by
  by_contra hne
  have havoids := avoids_ofParams (P := (· ≠ .mechanismParamInvalid)) (not_not_intro rfl) m preference fixed
  rw [h] at havoids
  exact havoids (Except.fails_code.2 hne)

end SigningOptions

namespace SignatureMethod

variable {id pureId hashId : MechanismId} {fixed : List (MechanismId × Prehash)} {preference : HedgePreference}

theorem optionsOf_hash (h : hashId ≠ pureId) (b : Bytes) :
    optionsOf ⟨hashId, b⟩ preference pureId hashId fixed = SigningOptions.ofHashParams ⟨hashId, b⟩ preference := by
  simp only [optionsOf, if_neg h, if_true]

theorem optionsOf_fixed (hpure : id ≠ pureId) (hhash : id ≠ hashId) {p : Prehash} (h : fixed.lookup id = some p)
    (b : Bytes) :
    optionsOf ⟨id, b⟩ preference pureId hashId fixed = SigningOptions.ofParams ⟨id, b⟩ preference (some p) := by
  simp only [optionsOf, if_neg hpure, if_neg hhash, h]

end SignatureMethod

namespace PrehashForms

open SignatureMethod

/-- The table of the parameters and the tables of both families agree on a digest. -/
theorem exists_prehash {hash id id' : MechanismId} (h : (hash, id, id') ∈ prehashForms) :
    ∃ p, Prehash.ofMechanism hash = .ok p ∧ mlDsaFixed.lookup id = some p ∧ slhDsaFixed.lookup id' = some p := by
  have hrows : ∀ row ∈ prehashForms, (Prehash.mechanisms.lookup row.1).isSome ∧
      mlDsaFixed.lookup row.2.1 = Prehash.mechanisms.lookup row.1 ∧
      slhDsaFixed.lookup row.2.2 = Prehash.mechanisms.lookup row.1 := by decide
  obtain ⟨hsome, hml, hslh⟩ := hrows _ h
  obtain ⟨p, hp⟩ := Option.isSome_iff_exists.1 hsome
  refine ⟨p, ?_, hml.trans hp, hslh.trans hp⟩
  unfold Prehash.ofMechanism
  rw [hp]

/-- In a family whose methods differ in their options only, both mechanisms have the same options, or none because the
parameters are invalid. -/
theorem exists_options {r : Registry} (hr : r.Faithful) {f : MechanismFamily} {pureId hashId hash id : MechanismId}
    {table : List (MechanismId × Prehash)} {scheme : SigningOptions → SignatureScheme} {preference : HedgePreference}
    (hmethod : ∀ m, f.signatureMethod m preference =
      (do return ⟨m.id, scheme (← optionsOf m preference pureId hashId table)⟩))
    (hop : f.info.supports .sign = true) (hhash : hashId ∈ f.mechanisms ∧ hashId ≠ pureId)
    (hid : id ∈ f.mechanisms ∧ id ≠ pureId ∧ id ≠ hashId) {p : Prehash} (hp : Prehash.ofMechanism hash = .ok p)
    (hlookup : table.lookup id = some p) {b b' : Bytes} (hb : SameContext hash b b') (hg : hashId ∈ r.toList)
    (hf : id ∈ r.toList) :
    ∃ (options : Except Error SigningOptions) (scheme : SigningOptions → SignatureScheme),
      (∀ e, options = .error e → e.code = .mechanismParamInvalid) ∧
      r.signatureMethod preference ⟨hashId, b⟩ = (do return ⟨hashId, scheme (← options)⟩) ∧
      r.signatureMethod preference ⟨id, b'⟩ = (do return ⟨id, scheme (← options)⟩) := by
  refine ⟨SigningOptions.ofParams ⟨id, b'⟩ preference (some p), scheme,
    fun e => SigningOptions.code_of_ofParams, ?_, ?_⟩
  · rw [hr.signatureMethod_eq hg hhash.1 hop, hmethod, optionsOf_hash hhash.2, SigningOptions.ofHashParams_eq hp hb]
  · rw [hr.signatureMethod_eq hf hid.1 hop, hmethod, optionsOf_fixed hid.2.1 hid.2.2 hlookup]

/-- The methods of both mechanisms have the same options, or there are none because the parameters are invalid. -/
theorem signatureMethod_eq {r : Registry} {generic fixed : Mechanism} (hr : r.Faithful)
    (h : PrehashForms generic fixed) (hg : generic.id ∈ r.toList) (hf : fixed.id ∈ r.toList)
    (preference : HedgePreference) :
    ∃ (options : Except Error SigningOptions) (scheme : SigningOptions → SignatureScheme),
      (∀ e, options = .error e → e.code = .mechanismParamInvalid) ∧
      r.signatureMethod preference generic = (do return ⟨generic.id, scheme (← options)⟩) ∧
      r.signatureMethod preference fixed = (do return ⟨fixed.id, scheme (← options)⟩) := by
  cases h with
  | mlDsa h hb =>
    have hids : ∀ row ∈ prehashForms, row.2.1 ∈ MechanismFamily.mlDsa.mechanisms ∧
        row.2.1 ≠ .mlDsa ∧ row.2.1 ≠ .hashMlDsa := by decide
    obtain ⟨p, hp, hlookup, -⟩ := exists_prehash h
    exact exists_options hr (f := .mlDsa) (fun _ => rfl) rfl (by decide) (hids _ h) hp hlookup hb hg hf
  | slhDsa h hb =>
    have hids : ∀ row ∈ prehashForms, row.2.2 ∈ MechanismFamily.slhDsa.mechanisms ∧
        row.2.2 ≠ .slhDsa ∧ row.2.2 ≠ .hashSlhDsa := by decide
    obtain ⟨p, hp, -, hlookup⟩ := exists_prehash h
    exact exists_options hr (f := .slhDsa) (fun _ => rfl) rfl (by decide) (hids _ h) hp hlookup hb hg hf

end PrehashForms

/-! ## Signers of one scheme -/

namespace Signer

/-- Two signers that differ in the mechanism they name at most. -/
structure Twins (s s' : Signer) : Prop where
  core_eq : s.core = s'.core
  message_eq : s.message = s'.message
  ended_eq : s.ended = s'.ended

namespace Twins

variable {s s' : Signer}

theorem answer_eq (h : Twins s s') (c : Call) : s.answer c = s'.answer c := by
  obtain ⟨hcore, hmessage, hended⟩ := h
  cases c with
  | update data =>
    unfold answer update requireOpen
    simp only
    rw [hended]
    split <;> rfl
  | generate => simp only [answer, generate, requireOpen, hcore, hmessage, hended]
  | verify signature => simp only [answer, verify, requireOpen, hcore, hmessage, hended]

theorem next (h : Twins s s') (c : Call) : Twins (s.next c) (s'.next c) := by
  obtain ⟨hcore, hmessage, hended⟩ := h
  cases c with
  | update data =>
    unfold Signer.next
    simp only
    rw [hended, hmessage]
    split
    · exact ⟨hcore, hmessage, hended⟩
    · exact ⟨hcore, rfl, rfl⟩
  | generate => exact ⟨hcore, hmessage, rfl⟩
  | verify signature =>
    have hrefuses : s.refusesLength signature = s'.refusesLength signature := refuses_congr hcore (.verify signature)
    unfold Signer.next
    simp only
    rw [hrefuses]
    split
    · exact ⟨hcore, hmessage, hended⟩
    · exact ⟨hcore, hmessage, rfl⟩

/-- They answer every run of calls alike. -/
theorem answers_eq (h : Twins s s') (cs : List Call) (t : RandomSource) : s.answers cs t = s'.answers cs t := by
  -- the mechanism goes into no answer, so after each call the signers still differ in nothing else
  induction cs generalizing s s' t with
  | nil => rfl
  | cons c cs ih => rw [answers, answers, h.answer_eq c, ih (h.next c)]

end Twins
end Signer

namespace SignatureMethod

open Signer

variable {id id' : MechanismId} {key : Object}

theorem alike_signingEngine (scheme : SignatureScheme) :
    Except.Alike (· = ·) (signingEngine ⟨id, scheme⟩ key) (signingEngine ⟨id', scheme⟩ key) := by
  cases scheme with
  | rsa | ecdsa | eddsa | mlDsa | slhDsa => exact .bind (alike_bind .sign _ _) fun _ _ _ => .refl fun _ _ => rfl
  | hmac | cmac | poly1305 => exact .refl fun _ _ => rfl

theorem alike_verifyingEngine (scheme : SignatureScheme) :
    Except.Alike (· = ·) (verifyingEngine ⟨id, scheme⟩ key) (verifyingEngine ⟨id', scheme⟩ key) := by
  cases scheme with
  | rsa | ecdsa | eddsa | mlDsa | slhDsa => exact .bind (alike_bind .verify _ _) fun _ _ _ => .refl fun _ _ => rfl
  | hmac | cmac | poly1305 => exact .refl fun _ _ => rfl

theorem alike_bindSecret (usage : AttributeId) (expected : String) (types : List KeyType) :
    Except.Alike (· = ·) (SignatureScheme.bindSecret id key usage expected types)
      (SignatureScheme.bindSecret id' key usage expected types) :=
  .bind (alike_bind usage _ _) fun _ _ _ => .refl fun _ _ => rfl

theorem alike_ofMac (mac : Mac) (requested : Option Nat) :
    Except.Alike Twins (ofMac id mac requested) (ofMac id' mac requested) := by
  unfold ofMac
  dsimp only
  split
  · exact .refuse
  · exact .ok ⟨rfl, rfl, rfl⟩

theorem alike_bindCode (id id' : MechanismId) (key : Object) (scheme : SignatureScheme) (usage : AttributeId) :
    Option.Rel (Except.Alike Twins) (bindCode? ⟨id, scheme⟩ key usage)
      (bindCode? ⟨id', scheme⟩ key usage) := by
  cases scheme with
  | hmac digest types length =>
    refine .some (.bind (alike_bindSecret usage _ _) ?_)
    rintro secret _ rfl
    exact alike_ofMac _ _
  | cmac cipher length =>
    refine .some (.bind (alike_bindSecret usage _ _) ?_)
    rintro secret _ rfl
    exact .bind_same fun mac _ => alike_ofMac _ _
  | poly1305 =>
    refine .some (.bind (alike_bindSecret usage _ _) ?_)
    rintro secret _ rfl
    exact .bind_same fun mac _ => alike_ofMac _ _
  | rsa | ecdsa | eddsa | mlDsa | slhDsa => exact .none

/-- Methods of one scheme bind a key alike, whatever their mechanisms are. -/
theorem alike_bindTowards_scheme (scheme : SignatureScheme) (d : Direction) :
    Except.Alike Twins (bindTowards ⟨id, scheme⟩ key d) (bindTowards ⟨id', scheme⟩ key d) := by
  cases d with
  | signing =>
    refine .bind (R := fun b b' => Twins b.signer b'.signer) ?_ fun _ _ hb => .ok hb
    unfold bindSigning
    have hcode := alike_bindCode id id' key scheme .sign
    generalize bindCode? ⟨id, scheme⟩ key .sign = code, bindCode? ⟨id', scheme⟩ key .sign = code' at hcode ⊢
    cases hcode with
    | some h => exact .bind h fun _ _ hs => .ok hs
    | none =>
      -- only the refusal of a key names the mechanism, so what is bound is the same
      refine .bind (alike_signingEngine scheme) ?_
      rintro ⟨digest, engine⟩ _ rfl
      exact .ok ⟨rfl, rfl, rfl⟩
  | verifying =>
    show Except.Alike Twins (bindVerifying _ key) (bindVerifying _ key)
    unfold bindVerifying
    have hcode := alike_bindCode id id' key scheme .verify
    generalize bindCode? ⟨id, scheme⟩ key .verify = code, bindCode? ⟨id', scheme⟩ key .verify = code' at hcode ⊢
    cases hcode with
    | some h => exact h
    | none =>
      refine .bind (alike_verifyingEngine scheme) ?_
      rintro ⟨digest, engine⟩ _ rfl
      exact .ok ⟨rfl, rfl, rfl⟩

end SignatureMethod

/-! ## Both forms -/

namespace Registry

variable {r : Registry} {generic fixed : Mechanism}

/-- The mechanism that takes the digest from its parameters and the one that fixes it are refused together for their
parameters, or they have one scheme. For every key and direction they then make signers that answer every run of calls
alike, or fail under one code. -/
theorem prehash_forms (hr : r.Faithful) (h : PrehashForms generic fixed) (hg : generic.id ∈ r.toList)
    (hf : fixed.id ∈ r.toList) (preference : HedgePreference) :
    ((∃ e, e.code = .mechanismParamInvalid ∧ r.signatureMethod preference generic = .error e ∧
        r.signatureMethod preference fixed = .error e) ∨
      ∃ scheme, r.signatureMethod preference generic = .ok ⟨generic.id, scheme⟩ ∧
        r.signatureMethod preference fixed = .ok ⟨fixed.id, scheme⟩) ∧
    ∀ key d, Except.Alike (fun s s' => ∀ cs t, s.answers cs t = s'.answers cs t)
      (r.openSigner preference generic key d) (r.openSigner preference fixed key d) := by
  obtain ⟨options, scheme, hcode, hgeneric, hfixed⟩ := h.signatureMethod_eq hr hg hf preference
  unfold openSigner
  rw [hgeneric, hfixed]
  cases options with
  | error e => exact ⟨.inl ⟨e, hcode e rfl, rfl, rfl⟩, fun key d => .refl fun _ _ _ _ => rfl⟩
  | ok o =>
    refine ⟨.inr ⟨scheme o, rfl, rfl⟩, fun key d => ?_⟩
    exact (SignatureMethod.alike_bindTowards_scheme (scheme o) d).mono fun _ _ hs => hs.answers_eq

/-- An ML-DSA public key that allows verification. -/
def latticeKey : Object :=
  (SetKey.toPublic ⟨1, Bytes.zeros 1312⟩ .mlDsa).put (.ofBool .verify true)

/-- The parameters of a hedged signature over SHA-256 without a context. -/
def absentContext : Bytes := [0, 0, 0, 0, 0, 0, 0, 0, 0, 0x50, 2, 0, 0, 0, 0, 0, 0]

/-- The parameters of a hedged signature with an empty context. -/
def emptyContext : Bytes := [0, 0, 0, 0, 0, 0, 0, 0, 1, 0, 0, 0, 0, 0, 0, 0, 0]

/-- A context that is absent in one form and empty in the other. -/
theorem prehash_forms_sha256 :
    (∃ scheme, full.signatureMethod .randomized ⟨.hashMlDsa, absentContext⟩ = .ok ⟨.hashMlDsa, scheme⟩ ∧
      full.signatureMethod .randomized ⟨.hashMlDsaSha256, emptyContext⟩ = .ok ⟨.hashMlDsaSha256, scheme⟩) ∧
    ∃ s s', full.openSigner .randomized ⟨.hashMlDsa, absentContext⟩ latticeKey .verifying = .ok s ∧
      full.openSigner .randomized ⟨.hashMlDsaSha256, emptyContext⟩ latticeKey .verifying = .ok s' ∧
      ∀ cs t, s.answers cs t = s'.answers cs t := by
  have hcontext : SameContext .sha256 absentContext emptyContext :=
    .of_encode (show Params.encode (⟨0, none, .sha256⟩ : HashSignContext) = .ok absentContext from rfl)
      (show Params.encode (⟨0, some []⟩ : SignContext) = .ok emptyContext from rfl) rfl
  have hforms : PrehashForms ⟨.hashMlDsa, absentContext⟩ ⟨.hashMlDsaSha256, emptyContext⟩ :=
    .mlDsa (List.mem_cons_of_mem _ List.mem_cons_self) hcontext
  have hgeneric : MechanismId.hashMlDsa ∈ full.toList := mem_toList.2 ⟨.mlDsa, find?_full.2 (by decide)⟩
  have hfixed : MechanismId.hashMlDsaSha256 ∈ full.toList := mem_toList.2 ⟨.mlDsa, find?_full.2 (by decide)⟩
  obtain ⟨hmethod, halike⟩ := prehash_forms faithful_full hforms hgeneric hfixed .randomized
  have hopen : (full.openSigner .randomized ⟨.hashMlDsa, absentContext⟩ latticeKey .verifying).toOption.isSome := by
    decide +kernel
  obtain ⟨s, hs⟩ := Option.isSome_iff_exists.1 hopen
  have hs := Except.ok_of_toOption hs
  obtain ⟨s', hs', hanswers⟩ := (halike latticeKey .verifying).exists_ok hs
  refine ⟨?_, s, s', hs, hs', hanswers⟩
  -- a signer has a method, so the methods are not refused
  rcases hmethod with ⟨e, -, he, -⟩ | hscheme
  · obtain ⟨method, hmethod, -⟩ := Except.bind_ok.1 hs
    rw [he] at hmethod
    cases hmethod
  · exact hscheme

end Registry
end SoftToken
