import SoftToken.Proofs.HashBound
import SoftToken.Proofs.LatticeLengths
import SoftToken.Proofs.ParameterUse
/-!
# Deterministic signatures

The parameters of an ML-DSA or SLH-DSA mechanism say whether a signature takes random bytes, or leave it to the
configured preference. `Registry.deterministic_signing` is a statement about two runs. A signature without random
bytes is the same for all sources and reads none of them, and any other one reads its source; and the preference makes
a difference only where the parameters leave the choice open.
-/

namespace SoftToken

/-! ## Operations that draw nothing -/

/-- The operation draws nothing: it ends alike for all sources, and leaves each of them as it was. -/
def Draw.Silent {α : Type} (x : Draw α) : Prop := ∃ r, ∀ t, x.on t = (r, t)

namespace Draw.Silent

variable {α β : Type} {x : Draw α}

theorem pure (a : α) : (pure a : Draw α).Silent := ⟨.ok a, fun _ => rfl⟩

theorem throw (e : Failure) : (throw e : Draw α).Silent := ⟨.error e, fun _ => rfl⟩

theorem liftFailure (x : Except Failure α) : (liftM x : Draw α).Silent := ⟨x, fun _ => rfl⟩

theorem lift (x : Except Error α) : (liftM x : Draw α).Silent := ⟨liftM x, fun _ => rfl⟩

theorem bind (hx : x.Silent) {f : α → Draw β} (hf : ∀ a, (f a).Silent) : (x >>= f).Silent := by
  obtain ⟨r, hr⟩ := hx
  cases r with
  | error e => exact ⟨.error e, fun t => by rw [on_bind, hr]⟩
  | ok a =>
    obtain ⟨r, hr'⟩ := hf a
    exact ⟨r, fun t => by rw [on_bind, hr]; exact hr' t⟩

theorem map (hx : x.Silent) (f : α → β) : (f <$> x).Silent := by
  rw [map_eq_pure_bind]
  exact hx.bind fun a => .pure (f a)

end Draw.Silent

/-- Drawn bytes have been asked for. -/
theorem Draw.position_of_orElse {len : Nat} {e : Failure} {t t' : RandomSource} {b : Bytes}
    (h : (orElse len e).on t = (.ok b, t')) : t'.position = t.position + len := by
  obtain ⟨-, rfl⟩ := request_ok.1 h
  exact Nat.add_comm len t.position

/-! ## Engines and signers -/

/-- A lattice or hash based engine with these options. -/
def SigningEngine.HasOptions (o : SigningOptions) : SigningEngine → Prop
  | .mlDsa _ _ o' _ => o' = o
  | .slhDsa set _ o' _ => o' = o ∧ 0 < set.n
  | _ => False

namespace SigningEngine

variable {e : SigningEngine} {o : SigningOptions} {t t' : RandomSource}

theorem silent_drawLatticeBytes (h : o.deterministic = true) : (drawLatticeBytes o).Silent := by
  unfold drawLatticeBytes
  rw [if_pos h]
  exact .pure _

theorem position_of_drawLatticeBytes {b : Bytes} (h : o.deterministic = false)
    (hd : (drawLatticeBytes o).on t = (.ok b, t')) : t'.position = t.position + MlDsa.randomSize := by
  unfold drawLatticeBytes at hd
  rw [if_neg (by simp [h])] at hd
  exact Draw.position_of_orElse hd

theorem silent_drawOpening (P : SlhDsa.Parameters) (k : SlhDsa.PrivateKey) : (k.drawOpening P true).Silent :=
  .pure k.publicSeed

theorem position_of_drawOpening {P : SlhDsa.Parameters} {k : SlhDsa.PrivateKey} {b : ByteArray}
    (hd : (k.drawOpening P false).on t = (.ok b, t')) : t'.position = t.position + P.n := by
  obtain ⟨opened, t₁, hopened, hd⟩ := Draw.bind_ok.1 hd
  obtain ⟨-, rfl⟩ := Draw.pure_ok.1 hd
  exact Draw.position_of_orElse hopened

/-- Without random bytes, signing draws nothing. -/
theorem silent_sign (h : e.HasOptions o) (ho : o.deterministic = true) (data : Bytes) : (e.sign data).Silent := by
  cases e with
  | rsa scheme k => exact h.elim
  | ecdsa c value => exact h.elim
  | ed25519 mode seed => exact h.elim
  | mlDsa set sizes o' key =>
    obtain rfl : o' = o := h
    refine .bind (.lift _) fun _ => .bind (.lift _) fun message => ?_
    exact (silent_drawLatticeBytes ho).bind fun random => .liftFailure _
  | slhDsa set sizes o' key =>
    obtain ⟨rfl, -⟩ := h
    refine .bind (.lift _) fun _ => .bind (.lift _) fun k => .bind (.lift _) fun message => ?_
    rw [ho]
    exact (silent_drawOpening set k).bind fun opened => .pure _

/-- With random bytes, a signature reads its source. -/
theorem reads_of_sign (h : e.HasOptions o) (ho : o.deterministic = false) {data signature : Bytes}
    (hs : (e.sign data).on t = (.ok signature, t')) : t.position < t'.position := by
  cases e with
  | rsa scheme k => exact h.elim
  | ecdsa c value => exact h.elim
  | ed25519 mode seed => exact h.elim
  | mlDsa set sizes o' key =>
    obtain rfl : o' = o := h
    obtain ⟨_, -, hs⟩ := Draw.bind_lift_ok.1 hs
    obtain ⟨message, -, hs⟩ := Draw.bind_lift_ok.1 hs
    obtain ⟨random, t₁, hrandom, hs⟩ := Draw.bind_ok.1 hs
    obtain ⟨-, rfl⟩ := Draw.liftFailure_ok.1 hs
    rw [position_of_drawLatticeBytes ho hrandom]
    exact Nat.lt_add_of_pos_right (by decide)
  | slhDsa set sizes o' key =>
    obtain ⟨rfl, hn⟩ := h
    obtain ⟨_, -, hs⟩ := Draw.bind_lift_ok.1 hs
    obtain ⟨k, -, hs⟩ := Draw.bind_lift_ok.1 hs
    obtain ⟨message, -, hs⟩ := Draw.bind_lift_ok.1 hs
    obtain ⟨opened, t₁, hopened, hs⟩ := Draw.bind_ok.1 hs
    obtain ⟨-, rfl⟩ := Draw.pure_ok.1 hs
    rw [ho] at hopened
    rw [position_of_drawOpening hopened]
    exact Nat.lt_add_of_pos_right hn

end SigningEngine

/-- A signing core has a lattice or hash based engine with these options, and no core is a code. -/
def SignerCore.HasOptions (o : SigningOptions) : SignerCore → Prop
  | .mac _ _ => False
  | .signing _ e => e.HasOptions o
  | .verifying _ _ => True

namespace Signer

variable {s : Signer} {o : SigningOptions}

theorem silent_generate (h : s.core.HasOptions o) (ho : o.deterministic = true) : s.generate.Silent := by
  unfold generate
  refine .bind (.lift _) fun _ => ?_
  cases hc : s.core with
  | mac mac length => exact .pure _
  | signing digest e =>
    rw [hc] at h
    exact e.silent_sign h ho _
  | verifying digest e => exact .throw _

theorem silent_answer (h : s.core.HasOptions o) (ho : o.deterministic = true) (c : Call) : (s.answer c).Silent := by
  cases c with
  | update data => exact ((Draw.Silent.lift _).map _).bind fun _ => .pure _
  | generate => exact (silent_generate h ho).map _
  | verify signature => exact (Draw.Silent.liftFailure _).bind fun _ => .pure _

theorem reads_of_generate (h : s.core.HasOptions o) (ho : o.deterministic = false) {t t' : RandomSource}
    {signature : Bytes} (hs : s.generate.on t = (.ok signature, t')) : t.position < t'.position := by
  unfold generate at hs
  obtain ⟨_, -, hs⟩ := Draw.bind_lift_ok.1 hs
  cases hc : s.core with
  | mac mac length => rw [hc] at h; exact h.elim
  | signing digest e =>
    rw [hc] at h hs
    exact e.reads_of_sign h ho hs
  | verifying digest e => rw [hc] at hs; cases hs

/-- Calls do not change what a signer works with. -/
theorem core_foldl_next (s : Signer) (cs : List Call) : (cs.foldl next s).core = s.core := by
  induction cs generalizing s with
  | nil => rfl
  | cons c cs ih => rw [List.foldl_cons, ih, core_next]

/-- Without random bytes, a run is answered alike for all sources. -/
theorem answers_eq_of_deterministic (h : s.core.HasOptions o) (ho : o.deterministic = true) (cs : List Call)
    (t t' : RandomSource) : s.answers cs t = s.answers cs t' := by
  -- each answer is the same for both sources and leaves them as they were, so the rest of the run meets them again
  induction cs generalizing s with
  | nil => rfl
  | cons c cs ih =>
    obtain ⟨r, hr⟩ := silent_answer h ho c
    rw [answers, answers, hr, hr, ih (by rwa [core_next])]

end Signer

/-- A lattice or hash based scheme with these options. -/
def SignatureScheme.HasOptions (o : SigningOptions) : SignatureScheme → Prop
  | .mlDsa o' | .slhDsa o' => o' = o
  | _ => False

namespace SignatureMethod

variable {m : SignatureMethod} {key : Object} {s : Signer} {o : SigningOptions}

/-- The engine has the options of the scheme. -/
theorem hasOptions_signingEngine (h : m.scheme.HasOptions o) {r : Option Digest × SigningEngine}
    (he : m.signingEngine key = .ok r) : r.2.HasOptions o := by
  have hr := signingEngine_ok he
  generalize m.scheme = scheme at h hr
  cases hr with
  | mlDsa => exact h
  | slhDsa _ hset =>
    unfold SignatureScheme.slhDsaSet at hset
    split at hset
    · next hP hs =>
      cases hset
      exact ⟨h, ParameterSizes.of_lookup (R := fun P _ => 0 < P.n) (by decide) hP hs⟩
    · cases hset
  | _ => exact h.elim

theorem hasOptions_bindTowards (h : m.scheme.HasOptions o) {d : Direction} (hs : m.bindTowards key d = .ok s) :
    s.core.HasOptions o := by
  cases makes_of_bindTowards hs with
  | code hc =>
    obtain ⟨-, hcode, -⟩ := bindCode_some hc rfl
    unfold SignatureScheme.isCode at hcode
    split at hcode <;> simp_all [SignatureScheme.HasOptions]
  | signing hc he => exact hasOptions_signingEngine h he
  | verifying hc he => trivial

end SignatureMethod

/-! ## Where the preference goes -/

/-- The hedge that the parameters of a lattice or hash based signature carry; none if there are no parameters. -/
def Mechanism.hedge (m : Mechanism) : Except Error (Option UInt64) :=
  if m.id = .hashMlDsa ∨ m.id = .hashSlhDsa then do
    return some (← Params.decode HashSignContext m.params).hedge
  else do
    return (← Params.decodeOptional SignContext m.params).map (·.hedge)

theorem Mechanism.params_of_hedge {m : Mechanism} (h : m.hedge = .ok none) : m.params = [] := by
  unfold hedge at h
  split at h
  · obtain ⟨p, -, h⟩ := Except.bind_ok.1 h
    cases h
  · obtain ⟨p, hp, h⟩ := Except.bind_ok.1 h
    obtain rfl : p = none := Option.map_eq_none_iff.1 (Except.ok.inj h)
    unfold Params.decodeOptional at hp
    split at hp
    · next hempty => exact List.isEmpty_iff.1 hempty
    · cases hdecode : Params.decode SignContext m.params <;> rw [hdecode] at hp <;> cases hp

/-- With a preference, the parameters ask for signatures without random bytes, or with them. -/
def Mechanism.Resolves (m : Mechanism) (preference : HedgePreference) (deterministic : Bool) : Prop :=
  ∃ hedge, m.hedge = .ok hedge ∧ Hedge.resolve (hedge.getD Hedge.preferred) preference = .ok deterministic

/-- The preference goes into options through the resolved hedge alone. -/
def Hedge.Decides (hedge : Except Error (Option UInt64))
    (options : HedgePreference → Except Error SigningOptions) : Prop :=
  ∃ rest : Bool → Except Error SigningOptions, (∀ b o, rest b = .ok o → o.deterministic = b) ∧
    ∀ preference, options preference = do rest (← resolve ((← hedge).getD preferred) preference)

namespace Hedge

/-- Only the hedge that leaves the choice open is resolved by the preference. -/
theorem resolve_congr {hedge : UInt64} (h : hedge ≠ preferred) (p p' : HedgePreference) :
    resolve hedge p = resolve hedge p' := by
  unfold resolve
  rw [if_neg h, if_neg h]

namespace Decides

variable {hedge : Except Error (Option UInt64)} {options : HedgePreference → Except Error SigningOptions}

theorem resolve_eq (h : Decides hedge options) {p : HedgePreference} {o : SigningOptions} (ho : options p = .ok o) :
    ∃ x, hedge = .ok x ∧ resolve (x.getD preferred) p = .ok o.deterministic := by
  obtain ⟨rest, hrest, hoptions⟩ := h
  rw [hoptions] at ho
  obtain ⟨x, hx, ho⟩ := Except.bind_ok.1 ho
  obtain ⟨b, hb, ho⟩ := Except.bind_ok.1 ho
  exact ⟨x, hx, by rwa [hrest b o ho]⟩

/-- Options that differ under two preferences come from a hedge that leaves the choice open. -/
theorem eq_or_open (h : Decides hedge options) (p p' : HedgePreference) :
    options p = options p' ∨ hedge = .ok none ∨ hedge = .ok (some preferred) := by
  obtain ⟨rest, -, hoptions⟩ := h
  rw [hoptions, hoptions]
  cases hedge with
  | error e => exact .inl rfl
  | ok x =>
    cases x with
    | none => exact .inr (.inl rfl)
    | some x =>
      by_cases hx : x = preferred
      · exact .inr (.inr (by rw [hx]))
      · refine .inl ?_
        rw [Except.ok_bind, Except.ok_bind, Option.getD_some, resolve_congr hx p p']

end Decides

/-- Options that are made of decoded parameters, after the hedge they carry is resolved. -/
theorem decides_of_decoded {α : Type} (decoded : Except Error α) (hedge : α → Option UInt64) (resolved : α → UInt64)
    (rest : α → Bool → Except Error SigningOptions) (hresolved : ∀ a, (hedge a).getD preferred = resolved a)
    (hrest : ∀ a b o, rest a b = .ok o → o.deterministic = b) :
    Decides (do return hedge (← decoded)) (fun preference => do
      let a ← decoded
      rest a (← resolve (resolved a) preference)) := by
  cases decoded with
  | error e => exact ⟨fun _ => .error e, nofun, fun _ => rfl⟩
  | ok a =>
    refine ⟨rest a, hrest a, fun preference => ?_⟩
    show (resolve (resolved a) preference >>= rest a) = _
    rw [← hresolved]
    rfl

end Hedge

namespace SigningOptions

open Hedge (Decides)

theorem decides_ofHashParams (m : Mechanism) :
    Decides (do return some (← Params.decode HashSignContext m.params).hedge) (ofHashParams m) := by
  refine Hedge.decides_of_decoded (Params.decode HashSignContext m.params) (fun p => some p.hedge) (·.hedge)
    (fun p b => do
      let context ← checkContext p.context
      return ⟨b, context, some (← Prehash.ofMechanism p.hash)⟩) (fun _ => rfl) ?_
  intro p b o h
  obtain ⟨context, -, h⟩ := Except.bind_ok.1 h
  obtain ⟨prehash, -, h⟩ := Except.bind_ok.1 h
  cases h
  rfl

theorem decides_ofParams (m : Mechanism) (fixed : Option Prehash) :
    Decides (do return (← Params.decodeOptional SignContext m.params).map (·.hedge)) (ofParams m · fixed) := by
  refine Hedge.decides_of_decoded (Params.decodeOptional SignContext m.params) (·.map (·.hedge))
    (fun p => (p.getD ⟨Hedge.preferred, none⟩).hedge)
    (fun p b => do return ⟨b, ← checkContext (p.getD ⟨Hedge.preferred, none⟩).context, fixed⟩) ?_ ?_
  · intro p
    cases p <;> rfl
  · intro p b o h
    obtain ⟨context, -, h⟩ := Except.bind_ok.1 h
    cases h
    rfl

end SigningOptions

namespace SignatureMethod

/-- A mechanism of the family has options, in which the preference has no other part than the hedge gives it. -/
theorem decides_optionsOf {m : Mechanism} {pureId hashId : MechanismId} {fixed : List (MechanismId × Prehash)}
    (hm : m.id ∈ pureId :: hashId :: fixed.map (·.1))
    (hhash : (m.id = .hashMlDsa ∨ m.id = .hashSlhDsa) ↔ m.id = hashId) (hpure : pureId ≠ hashId) :
    Hedge.Decides m.hedge (optionsOf m · pureId hashId fixed) := by
  unfold Mechanism.hedge optionsOf
  simp only [hhash]
  by_cases hp : m.id = pureId
  · rw [hp, if_neg hpure]
    simp only [if_true]
    exact SigningOptions.decides_ofParams m none
  by_cases hh : m.id = hashId
  · simp only [if_pos hh, if_neg hp]
    exact SigningOptions.decides_ofHashParams m
  simp only [if_neg hp, if_neg hh]
  split
  · exact SigningOptions.decides_ofParams m _
  · next hlookup =>
    have hmem := (List.mem_cons.1 ((List.mem_cons.1 hm).resolve_left hp)).resolve_left hh
    exact absurd hmem (not_mem_of_lookup hlookup)

end SignatureMethod

/-- The families of the lattice and hash based signatures make their methods of such options. -/
theorem MechanismFamily.decides_signatureMethod {f : MechanismFamily} (hf : f = .mlDsa ∨ f = .slhDsa) {m : Mechanism}
    (hm : m.id ∈ f.mechanisms) :
    ∃ (options : HedgePreference → Except Error SigningOptions) (scheme : SigningOptions → SignatureScheme),
      Hedge.Decides m.hedge options ∧ (∀ o, (scheme o).HasOptions o) ∧
      ∀ preference, f.signatureMethod m preference = do return ⟨m.id, scheme (← options preference)⟩ := by
  rcases hf with rfl | rfl
  · have hids : ∀ id ∈ MechanismFamily.mlDsa.mechanisms, (id = .hashMlDsa ∨ id = .hashSlhDsa) ↔ id = .hashMlDsa := by
      decide
    exact ⟨_, .mlDsa, SignatureMethod.decides_optionsOf hm (hids _ hm) (by decide), fun _ => rfl, fun _ => rfl⟩
  · have hids : ∀ id ∈ MechanismFamily.slhDsa.mechanisms, (id = .hashMlDsa ∨ id = .hashSlhDsa) ↔ id = .hashSlhDsa := by
      decide
    exact ⟨_, .slhDsa, SignatureMethod.decides_optionsOf hm (hids _ hm) (by decide), fun _ => rfl, fun _ => rfl⟩

/-! ## Registered mechanisms -/

namespace Registry

open Signer

variable {r : Registry} {f : MechanismFamily} {m : Mechanism} {s : Signer}

/-- A mechanism that is not registered has the same refusal under all preferences. -/
theorem signatureMethod_of_not_mem (hm : m.id ∉ r.toList) (preference : HedgePreference) :
    r.signatureMethod preference m = refuse .mechanismInvalid (.mechanismUnavailable m.id) := by
  have hfind : r.find? m.id = none := Option.eq_none_iff_forall_ne_some.2 fun f hf => hm (mem_toList.2 ⟨f, hf⟩)
  unfold signatureMethod findFor Registry.find
  rw [hfind]
  rfl

theorem supports_sign (hf : f = .mlDsa ∨ f = .slhDsa) : f.info.supports .sign = true := by
  rcases hf with rfl | rfl <;> rfl

/-- A new signer has options that were made under the resolved hedge. -/
theorem hasOptions_openSigner (hr : r.Faithful) (hf : f = .mlDsa ∨ f = .slhDsa) (hm : m.id ∈ f.mechanisms)
    {preference : HedgePreference} {deterministic : Bool} (hd : m.Resolves preference deterministic) {key : Object}
    {d : Direction} (hs : r.openSigner preference m key d = .ok s) :
    ∃ o, o.deterministic = deterministic ∧ s.core.HasOptions o := by
  obtain ⟨method, hmethod, hs⟩ := Except.bind_ok.1 hs
  obtain ⟨options, scheme, hdecides, hscheme, heq⟩ := f.decides_signatureMethod hf hm
  have hlist : m.id ∈ r.toList := by
    by_contra hlist
    rw [signatureMethod_of_not_mem hlist] at hmethod
    cases hmethod
  rw [hr.signatureMethod_eq hlist hm (supports_sign hf), heq] at hmethod
  obtain ⟨o, ho, hmethod⟩ := Except.bind_ok.1 hmethod
  cases hmethod
  refine ⟨o, ?_, SignatureMethod.hasOptions_bindTowards (hscheme o) hs⟩
  -- the options were made under the hedge that the parameters carry
  obtain ⟨hedge, hhedge, hresolve⟩ := hdecides.resolve_eq ho
  obtain ⟨hedge', hhedge', hresolve'⟩ := hd
  obtain rfl : hedge = hedge' := Except.ok.inj (hhedge.symm.trans hhedge')
  exact Except.ok.inj (hresolve.symm.trans hresolve')

/-- Where a preference makes a difference, the parameters leave the choice open. -/
theorem openSigner_eq_or_open (hr : r.Faithful) (hf : f = .mlDsa ∨ f = .slhDsa) (hm : m.id ∈ f.mechanisms)
    (p p' : HedgePreference) :
    (∀ key d, r.openSigner p m key d = r.openSigner p' m key d) ∨
      m.hedge = .ok none ∨ m.hedge = .ok (some Hedge.preferred) := by
  by_cases hlist : m.id ∈ r.toList
  · obtain ⟨options, scheme, hdecides, -, heq⟩ := f.decides_signatureMethod hf hm
    refine (hdecides.eq_or_open p p').imp_left fun hoptions key d => ?_
    unfold openSigner
    rw [hr.signatureMethod_eq hlist hm (supports_sign hf), hr.signatureMethod_eq hlist hm (supports_sign hf), heq, heq,
      hoptions]
  · refine .inl fun key d => ?_
    unfold openSigner
    rw [signatureMethod_of_not_mem hlist, signatureMethod_of_not_mem hlist]

/-- Signing with an ML-DSA or SLH-DSA mechanism does not depend on the random source where the hedge asks for no random
bytes: in every state of a signer, the signature or the error is the same for all sources, and none of them is read.
Where it asks for random bytes, no signature is made without reading the source. Parameters that ask for either make
the same signers under both preferences, so that the preference makes a difference only where the parameters are absent
or leave the choice open. -/
theorem deterministic_signing (hr : r.Faithful) (hf : f = .mlDsa ∨ f = .slhDsa) (hm : m.id ∈ f.mechanisms) :
    (∀ preference, m.Resolves preference true → ∀ key d s, r.openSigner preference m key d = .ok s →
      ∀ cs, (cs.foldl Signer.next s).generate.Silent ∧ ∀ t t', s.answers cs t = s.answers cs t') ∧
    (∀ preference, m.Resolves preference false → ∀ key d s, r.openSigner preference m key d = .ok s →
      ∀ (cs : List Call) (t t' : RandomSource) signature,
        (cs.foldl Signer.next s).generate.on t = (.ok signature, t') → t.position < t'.position) ∧
    (∀ hedge, m.hedge = .ok (some hedge) → hedge = Hedge.required ∨ hedge = Hedge.deterministicRequired →
      ∀ key d, r.openSigner .randomized m key d = r.openSigner .deterministic m key d) ∧
    ∀ key d, r.openSigner .randomized m key d ≠ r.openSigner .deterministic m key d →
      m.params = [] ∨ m.hedge = .ok (some Hedge.preferred) := by
  have hpreference := openSigner_eq_or_open hr hf hm .randomized .deterministic
  refine ⟨fun preference hd key d s hs cs => ?_, fun preference hd key d s hs cs t t' signature hsig => ?_,
    fun hedge hhedge hrequired key d => ?_, fun key d hne => ?_⟩
  · obtain ⟨o, ho, hcore⟩ := hasOptions_openSigner hr hf hm hd hs
    exact ⟨silent_generate (by rwa [core_foldl_next]) ho, answers_eq_of_deterministic hcore ho cs⟩
  · obtain ⟨o, ho, hcore⟩ := hasOptions_openSigner hr hf hm hd hs
    exact reads_of_generate (by rwa [core_foldl_next]) ho hsig
  · rcases hpreference with heq | hopen | hopen
    · exact heq key d
    · cases hhedge.symm.trans hopen
    · obtain rfl : hedge = Hedge.preferred := Option.some.inj (Except.ok.inj (hhedge.symm.trans hopen))
      rcases hrequired with h | h <;> cases h
  · exact (hpreference.resolve_left fun heq => hne (heq key d)).imp_left Mechanism.params_of_hedge

/-- An ML-DSA private key that allows signing. -/
def latticePrivate : Object := (SetKey.toPrivate ⟨1, Bytes.zeros 2560⟩ .mlDsa).put (.ofBool .sign true)

/-- Whether the options of an ML-DSA signer ask for no random bytes. -/
def asksForNoBytes (s : Signer) : Option Bool :=
  match s.core with
  | .signing _ (.mlDsa _ _ o _) => some o.deterministic
  | _ => none

/-- The configuration decides for an ML-DSA signer without parameters, but not for an SLH-DSA one whose parameters ask
for random bytes. -/
theorem deterministic_signing_absent :
    (∃ s, full.openSigner .deterministic ⟨.mlDsa, []⟩ latticePrivate .signing = .ok s ∧
      ∀ cs, (cs.foldl Signer.next s).generate.Silent ∧ ∀ t t', s.answers cs t = s.answers cs t') ∧
    (∃ s, full.openSigner .randomized ⟨.mlDsa, []⟩ latticePrivate .signing = .ok s ∧
      ∀ (cs : List Call) (t t' : RandomSource) signature,
        (cs.foldl Signer.next s).generate.on t = (.ok signature, t') → t.position < t'.position) ∧
    (∀ key d, full.openSigner .randomized ⟨.hashSlhDsaSha256, [1, 0, 0, 0, 0, 0, 0, 0, 0]⟩ key d =
      full.openSigner .deterministic ⟨.hashSlhDsaSha256, [1, 0, 0, 0, 0, 0, 0, 0, 0]⟩ key d) ∧
    full.openSigner .randomized ⟨.mlDsa, []⟩ latticePrivate .signing ≠
      full.openSigner .deterministic ⟨.mlDsa, []⟩ latticePrivate .signing ∧
    ((⟨.mlDsa, []⟩ : Mechanism).params = [] ∨ (⟨.mlDsa, []⟩ : Mechanism).hedge = .ok (some Hedge.preferred)) := by
  obtain ⟨hsilent, hreads, -, hopen⟩ := deterministic_signing (m := ⟨.mlDsa, []⟩) faithful_full (.inl rfl) (by decide)
  have hlattice : ∀ preference, ((full.openSigner preference ⟨.mlDsa, []⟩ latticePrivate .signing).toOption.bind
      asksForNoBytes) = some (preference == .deterministic) := by
    intro preference
    cases preference <;> decide +kernel
  have hsigner : ∀ preference, ∃ s, full.openSigner preference ⟨.mlDsa, []⟩ latticePrivate .signing = .ok s := by
    intro preference
    obtain ⟨s, hs, -⟩ := Option.bind_eq_some_iff.1 (hlattice preference)
    exact ⟨s, Except.ok_of_toOption hs⟩
  have hne : full.openSigner .randomized ⟨.mlDsa, []⟩ latticePrivate .signing ≠
      full.openSigner .deterministic ⟨.mlDsa, []⟩ latticePrivate .signing := by
    intro heq
    have hrandomized := hlattice .randomized
    rw [heq, hlattice] at hrandomized
    cases hrandomized
  have hhedge : (⟨.hashSlhDsaSha256, [1, 0, 0, 0, 0, 0, 0, 0, 0]⟩ : Mechanism).hedge = .ok (some Hedge.required) := by
    decide +kernel
  obtain ⟨s, hs⟩ := hsigner .deterministic
  obtain ⟨s', hs'⟩ := hsigner .randomized
  refine ⟨⟨s, hs, hsilent .deterministic ⟨none, rfl, rfl⟩ latticePrivate .signing s hs⟩,
    ⟨s', hs', hreads .randomized ⟨none, rfl, rfl⟩ latticePrivate .signing s' hs'⟩, ?_, hne, hopen _ _ hne⟩
  exact (deterministic_signing faithful_full (.inr rfl) (by decide)).2.2.1 _ hhedge (.inl rfl)

end Registry
end SoftToken
