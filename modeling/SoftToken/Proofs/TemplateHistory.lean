import SoftToken.Proofs.DerivedValues
import SoftToken.Proofs.Encapsulation
import SoftToken.Proofs.OperationMethods
/-!
# Operations without a hidden history

A derivation or encapsulation is made once, given templates and asked for keys, in any order. Each call runs a method
that could change the operation in any way. What a request is answered is what a new operation answers that was given the
last accepted template only (`Registry.no_hidden_history`): an accepted template replaces the one before it as a whole,
and neither a refused template nor a request changes the operation (`KeyMaker.run_eq`).
-/

namespace SoftToken

/-- A call of an operation that makes keys: a template for them, or a request. -/
inductive TemplateCall (ρ : Type) where
  | init (attributes : List Attribute)
  | request (q : ρ)

/-- An operation that makes keys: how it is told a template, and how it serves a request. Both may leave it changed. -/
structure KeyMaker (σ ρ α : Type) where
  init : List Attribute → Method σ Unit
  serve : ρ → σ → α × σ

namespace KeyMaker

variable {σ ρ α : Type}

/-- Whether a template is accepted, and the operation after it. -/
def tell (o : KeyMaker σ ρ α) (s : σ) (attributes : List Attribute) : Except Failure Unit × σ :=
  (o.init attributes).alone s

/-- The operation after a call. -/
def next (o : KeyMaker σ ρ α) (s : σ) : TemplateCall ρ → σ
  | .init attributes => (o.tell s attributes).2
  | .request q => (o.serve q s).2

/-- The operation after several calls. -/
def run (o : KeyMaker σ ρ α) (s : σ) (cs : List (TemplateCall ρ)) : σ := cs.foldl o.next s

/-- The answer to a request after several calls. -/
def outcome (o : KeyMaker σ ρ α) (s : σ) (cs : List (TemplateCall ρ)) (q : ρ) : α := (o.serve q (o.run s cs)).1

/-- The template that a call brings, if it is accepted. -/
def accepted (o : KeyMaker σ ρ α) (s : σ) : TemplateCall ρ → Option (List Attribute)
  | .init attributes => match (o.tell s attributes).1 with
    | .ok _ => some attributes
    | .error _ => none
  | .request _ => none

/-- The last template that was accepted in a run. -/
def lastInit (o : KeyMaker σ ρ α) (s : σ) : List (TemplateCall ρ) → Option (List Attribute)
  | [] => none
  | c :: cs => (o.lastInit (o.next s c) cs).or (o.accepted s c)

/-- The operation has no history but the last accepted template. -/
structure Historyless (o : KeyMaker σ ρ α) (made : α → Prop) (s : σ) : Prop where
  /-- After a run with an accepted template, the operation is the new one that was told the last such template only, and
  answers requests as that one does. -/
  latest : ∀ cs attributes, o.lastInit s cs = some attributes →
    o.tell s attributes = (.ok (), o.run s cs) ∧ ∀ q, o.outcome s cs q = (o.serve q (o.tell s attributes).2).1
  /-- Before a template is accepted, the operation is the new one, and makes no key. -/
  fresh : ∀ cs, o.lastInit s cs = none →
    o.run s cs = s ∧ ∀ q, o.outcome s cs q = (o.serve q s).1 ∧ ¬ made (o.outcome s cs q)
  /-- Without a request or a refused template the operation would be the same. -/
  frame : ∀ before c after, o.accepted (o.run s before) c = none →
    o.run s (before ++ c :: after) = o.run s (before ++ after)

/-- What the methods of an operation do to it, as long as it is one of its kind: an accepted template takes the place of
the one before, and all else leaves the operation as it was. -/
structure Replaces (o : KeyMaker σ ρ α) (kind : σ → Prop) (withTemplate : σ → SecretTemplate → σ) : Prop where
  tell_eq : ∀ s attributes, o.tell s attributes = match SecretTemplate.ofAttributes attributes with
    | .ok t => (.ok (), withTemplate s t)
    | .error e => (.error (.error e), s)
  overwrite : ∀ s t t', withTemplate (withTemplate s t) t' = withTemplate s t'
  kind_withTemplate : ∀ s t, kind s → kind (withTemplate s t)
  serve_keeps : ∀ q s, kind s → (o.serve q s).2 = s

variable {o : KeyMaker σ ρ α} {kind : σ → Prop} {withTemplate : σ → SecretTemplate → σ} {made : α → Prop} {s : σ}

/-! ## Steps -/

namespace Replaces

/-- A call that brings no accepted template leaves the operation as it was. -/
theorem next_of_none (h : o.Replaces kind withTemplate) (hs : kind s) {c : TemplateCall ρ}
    (hc : o.accepted s c = none) : o.next s c = s := by
  cases c with
  | init attributes =>
    simp only [accepted, next, h.tell_eq] at hc ⊢
    cases ht : SecretTemplate.ofAttributes attributes with
    | ok t => simp [ht] at hc
    | error e => rfl
  | request q => exact h.serve_keeps q s hs

/-- A call that brings an accepted template is that of telling it. -/
theorem next_of_some (h : o.Replaces kind withTemplate) {c : TemplateCall ρ} {attributes : List Attribute}
    (hc : o.accepted s c = some attributes) :
    ∃ t, SecretTemplate.ofAttributes attributes = .ok t ∧ o.next s c = withTemplate s t := by
  cases c with
  | init attributes' =>
    simp only [accepted, next, h.tell_eq] at hc ⊢
    cases ht : SecretTemplate.ofAttributes attributes' with
    | ok t =>
      rw [ht] at hc
      cases hc
      exact ⟨t, ht, rfl⟩
    | error e => simp [ht] at hc
  | request q => cases hc

theorem tell_of_ok (h : o.Replaces kind withTemplate) {attributes : List Attribute} {t : SecretTemplate}
    (ht : SecretTemplate.ofAttributes attributes = .ok t) (s : σ) : o.tell s attributes = (.ok (), withTemplate s t) := by
  rw [h.tell_eq, ht]

theorem eq_of_tell (h : o.Replaces kind withTemplate) {attributes : List Attribute} {s' : σ}
    (htell : o.tell s attributes = (.ok (), s')) :
    ∃ t, SecretTemplate.ofAttributes attributes = .ok t ∧ s' = withTemplate s t := by
  rw [h.tell_eq] at htell
  cases ht : SecretTemplate.ofAttributes attributes with
  | ok t =>
    rw [ht] at htell
    exact ⟨t, rfl, (Prod.mk.inj htell).2.symm⟩
  | error e => simp [ht] at htell

/-- What a template makes of an operation does not depend on a template before it. -/
theorem tell_withTemplate (h : o.Replaces kind withTemplate) {attributes : List Attribute} {s' : σ} {t : SecretTemplate}
    (htell : o.tell (withTemplate s t) attributes = (.ok (), s')) : o.tell s attributes = (.ok (), s') := by
  obtain ⟨t', ht', rfl⟩ := h.eq_of_tell htell
  rw [h.overwrite]
  exact h.tell_of_ok ht' s

/-- Calls make no operation of another kind. -/
theorem kind_next (h : o.Replaces kind withTemplate) (hs : kind s) (c : TemplateCall ρ) : kind (o.next s c) := by
  cases hc : o.accepted s c with
  | none => rwa [h.next_of_none hs hc]
  | some attributes =>
    obtain ⟨t, -, hnext⟩ := h.next_of_some hc
    rw [hnext]
    exact h.kind_withTemplate s t hs

end Replaces

/-! ## Runs -/

theorem run_append (o : KeyMaker σ ρ α) (s : σ) (cs cs' : List (TemplateCall ρ)) :
    o.run s (cs ++ cs') = o.run (o.run s cs) cs' := List.foldl_append

theorem kind_run (h : o.Replaces kind withTemplate) (hs : kind s) (cs : List (TemplateCall ρ)) : kind (o.run s cs) := by
  induction cs generalizing s with
  | nil => exact hs
  | cons c cs ih => exact ih (h.kind_next hs c)

/-- A run changes nothing, or it leads to the operation that the last accepted template alone makes. -/
theorem run_eq (h : o.Replaces kind withTemplate) (hs : kind s) (cs : List (TemplateCall ρ)) :
    (o.lastInit s cs = none → o.run s cs = s) ∧
      ∀ attributes, o.lastInit s cs = some attributes → o.tell s attributes = (.ok (), o.run s cs) := by
  induction cs generalizing s with
  | nil => exact ⟨fun _ => rfl, nofun⟩
  | cons c cs ih =>
    have hrun : o.run s (c :: cs) = o.run (o.next s c) cs := rfl
    obtain ⟨hnone, hsome⟩ := ih (h.kind_next hs c)
    rw [lastInit, hrun]
    cases hc : o.accepted s c with
    | none =>
      rw [Option.or_none, h.next_of_none hs hc]
      exact ih hs
    | some first =>
      obtain ⟨t, ht, hnext⟩ := h.next_of_some hc
      -- the first template counts only if no later one is accepted
      cases hl : o.lastInit (o.next s c) cs with
      | none =>
        refine ⟨nofun, fun attributes he => ?_⟩
        cases he
        rw [hnone hl, hnext]
        exact h.tell_of_ok ht s
      | some last =>
        refine ⟨nofun, fun attributes he => ?_⟩
        cases he
        have htell := hsome last hl
        rw [hnext] at htell ⊢
        exact h.tell_withTemplate htell

/-- An operation whose templates replace each other has no hidden history, if it makes no key without one. -/
theorem historyless (h : o.Replaces kind withTemplate) (hs : kind s) (hkeyless : ∀ q, ¬ made (o.serve q s).1) :
    o.Historyless made s where
  latest cs attributes hl := by
    have htell := (run_eq h hs cs).2 attributes hl
    refine ⟨htell, fun q => ?_⟩
    rw [htell]
    rfl
  fresh cs hl := by
    have hrun := (run_eq h hs cs).1 hl
    refine ⟨hrun, fun q => ?_⟩
    have houtcome : o.outcome s cs q = (o.serve q s).1 := congrArg (fun s' => (o.serve q s').1) hrun
    exact ⟨houtcome, houtcome ▸ hkeyless q⟩
  frame before c after hc := by
    rw [run_append, run_append]
    exact congrArg (o.run · after) (h.next_of_none (kind_run h hs before) hc)

/-- After any two runs with the same last accepted template an operation answers alike. -/
theorem outcome_congr (h : o.Replaces kind withTemplate) (hs : kind s) {cs cs' : List (TemplateCall ρ)}
    (hl : o.lastInit s cs = o.lastInit s cs') (q : ρ) : o.outcome s cs q = o.outcome s cs' q := by
  have hrun : o.run s cs = o.run s cs' := by
    cases hl' : o.lastInit s cs' with
    | none => rw [(run_eq h hs cs).1 (hl.trans hl'), (run_eq h hs cs').1 hl']
    | some attributes =>
      have hlast := (run_eq h hs cs).2 attributes (hl.trans hl')
      rw [(run_eq h hs cs').2 attributes hl'] at hlast
      exact (Prod.mk.inj hlast).2.symm
  exact congrArg (fun s' => (o.serve q s').1) hrun

end KeyMaker

/-! ## New operations -/

namespace DerivationGenerator

variable (m : Mechanism) (store : Store)

theorem new_ofDigest : Except.Gives (·.template = none) (ofDigest m) := by
  unfold ofDigest
  split
  · exact .bind fun _ => .ok rfl
  · exact .error _

theorem new_ofCombination : Except.Gives (·.template = none) (ofCombination m store) :=
  .ite (.bind fun _ => .bind fun _ => .ok rfl) <| .ite (.bind fun _ => .ok rfl) <| .ite (.bind fun _ => .ok rfl) <|
    .ite (.bind fun _ => .ok rfl) <| .ite (.bind fun _ => .ok rfl) <| .error _

theorem new_ofAgreement : Except.Gives (·.template = none) (ofAgreement m) :=
  .bind fun _ => .ite (.error _) (.ok rfl)

theorem new_ofHkdf : Except.Gives (·.template = none) (ofHkdf m store) :=
  .ite (.error _) <| .bind fun _ => .ite (.error _) <| .bind fun _ => .ite (.bind fun _ => .ok rfl) (.ok rfl)

theorem new_ofEncryption : Except.Gives (·.template = none) (ofEncryption m) := by
  unfold ofEncryption
  split
  · exact .error _
  · exact .bind fun _ => .ite (.error _) (.ok rfl)

end DerivationGenerator

namespace Encapsulator

variable (m : Mechanism) (type : KeyType)

theorem new_ofMlKem : Except.Gives (·.template = none) (ofMlKem m type) :=
  .ite (.error _) (.bind fun _ => .ok rfl)

theorem new_ofRsa : Except.Gives (·.template = none) (ofRsa m type) :=
  .ite (.error _) <| .ite (.ok rfl) <| .ite (.bind fun _ => .ok rfl) (.error _)

theorem new_ofAgreement : Except.Gives (·.template = none) (ofAgreement m type) := by
  refine .bind fun p => ?_
  dsimp only
  split
  · exact .ok rfl
  · exact .error _

end Encapsulator

namespace MechanismFamily

theorem new_derivationGenerator (f : MechanismFamily) (m : Mechanism) (store : Store) :
    Except.Gives (·.template = none) (f.derivationGenerator m store) := by
  cases f with
  | ecdh => exact DerivationGenerator.new_ofAgreement m
  | encryptData => exact DerivationGenerator.new_ofEncryption m
  | digestDerivation => exact DerivationGenerator.new_ofDigest m
  | hkdf => exact DerivationGenerator.new_ofHkdf m store
  | combination => exact DerivationGenerator.new_ofCombination m store
  | _ => exact .error _

theorem new_encapsulator (f : MechanismFamily) (m : Mechanism) (type : KeyType) :
    Except.Gives (·.template = none) (f.encapsulator m type) := by
  cases f with
  | mlKem => exact Encapsulator.new_ofMlKem m type
  | rsaPkcs | rsaOaep => exact Encapsulator.new_ofRsa m type
  | ecdh => exact Encapsulator.new_ofAgreement m type
  | _ => exact .error _

end MechanismFamily

/-! ## Derivation -/

namespace DerivationGenerator

variable {g : DerivationGenerator}

/-- Derivation as an operation that makes keys; the requests are base keys. -/
def maker : KeyMaker DerivationGenerator Object (Except Failure Object) where
  init := initSteps
  serve base g := (generateSteps base).alone g

/-- A key was derived. -/
def Made (answer : Except Failure Object) : Prop := ∃ o, answer = .ok o

/-- A request is answered by the derived key or its failure, and the generator stays as it was. -/
theorem maker_serve (g : DerivationGenerator) (base : Object) : maker.serve base g = (g.generate base, g) :=
  (g.generateSteps_answers base).alone

theorem replaces_maker : maker.Replaces (fun _ => True) fun g t => { g with template := some t } where
  tell_eq g attributes := by
    show (initSteps attributes).alone g = _
    unfold initSteps
    cases SecretTemplate.ofAttributes attributes <;> rfl
  overwrite _ _ _ := rfl
  kind_withTemplate _ _ h := h
  serve_keeps base g _ := by rw [maker_serve]

/-- A generator that was told a template is the one that reads it. -/
theorem init_of_tell {as : List Attribute} {g' : DerivationGenerator} (h : maker.tell g as = (.ok (), g')) :
    g.init as = .ok g' := by
  obtain ⟨t, ht, rfl⟩ := replaces_maker.eq_of_tell h
  unfold init
  rw [ht]
  rfl

/-- Without a template no key is derived, whatever else is wrong. -/
theorem generate_without_template (h : g.template = none) (base : Object) : ¬ Made (g.generate base) := by
  rintro ⟨o, ho⟩
  obtain ⟨secret, -, ho⟩ := Except.bind_ok.1 ho
  obtain ⟨o', ho', -⟩ := Except.bind_lift_ok.1 ho
  obtain ⟨t, ht, -⟩ := Except.bind_ok.1 ho'
  rw [SecretTemplate.require_ok.1 ht] at h
  cases h

end DerivationGenerator

/-! ## Encapsulation -/

namespace Encapsulator

variable {e : Encapsulator}

/-- What is asked of an encapsulation, with the state of the random source where one is needed. -/
inductive Request where
  | encapsulate (key : Object) (t : RandomSource)
  | decapsulate (key : Object) (data : Bytes)
  | length (key : Object)

inductive Outcome where
  | encapsulated (result : Except Failure (Object × Bytes)) (rest : RandomSource)
  | decapsulated (result : Except Failure Object)
  | length (result : Except Error Nat)

/-- The answer to a request, and the encapsulator after it. -/
def serve : Request → Encapsulator → Outcome × Encapsulator
  | .encapsulate key t, e =>
    let r := (encapsulateSteps key).on e t
    (.encapsulated r.1 r.2.2, r.2.1)
  | .decapsulate key data, e =>
    let r := (decapsulateSteps key data).alone e
    (.decapsulated r.1, r.2)
  | .length key, e => (.length (e.encapsulatedLength key), e)

/-- A key was made. -/
def Outcome.Made : Outcome → Prop
  | encapsulated result _ => ∃ made, result = .ok made
  | decapsulated result => ∃ o, result = .ok o
  | length _ => False

/-- Encapsulation as an operation that makes keys. -/
def maker : KeyMaker Encapsulator Request Outcome where
  init := initSteps
  serve := serve

/-- What an encapsulator makes of a request. -/
def answer (e : Encapsulator) : Request → Outcome
  | .encapsulate key t => .encapsulated ((e.encapsulate key).on t).1 ((e.encapsulate key).on t).2
  | .decapsulate key data => .decapsulated (e.decapsulate key data)
  | .length key => .length (e.encapsulatedLength key)

/-- A request is answered by the made key or its failure, and the encapsulator stays as it was. -/
theorem maker_serve (h : e.NamesDerivation) (q : Request) : maker.serve q e = (e.answer q, e) := by
  cases q with
  | encapsulate key t =>
    show serve (.encapsulate key t) e = _
    simp only [serve, encapsulateSteps_follows h key t]
    rfl
  | decapsulate key data =>
    show serve (.decapsulate key data) e = _
    simp only [serve, (decapsulateSteps_answers h key data).alone]
    rfl
  | length key => rfl

theorem replaces_maker : maker.Replaces NamesDerivation fun e t => { e with template := some t } where
  tell_eq e attributes := by
    show (initSteps attributes).alone e = _
    unfold initSteps
    cases SecretTemplate.ofAttributes attributes <;> rfl
  overwrite _ _ _ := rfl
  kind_withTemplate _ _ h := h
  serve_keeps q e h := by rw [maker_serve h]

/-- An encapsulator that was told a template is the one that reads it. -/
theorem init_of_tell {as : List Attribute} {e' : Encapsulator} (h : maker.tell e as = (.ok (), e')) :
    e.init as = .ok e' := by
  obtain ⟨t, ht, rfl⟩ := replaces_maker.eq_of_tell h
  unfold init
  rw [ht]
  rfl

theorem secretKey_without_template (h : e.template = none) (secret : Bytes) (o : Object) :
    e.secretKey secret ≠ .ok o := by
  intro ho
  obtain ⟨t, ht, -⟩ := Except.bind_ok.1 ho
  rw [SecretTemplate.require_ok.1 ht] at h
  cases h

/-- Without a template no key is made, whatever else is wrong. -/
theorem answer_without_template (h : e.template = none) (q : Request) : ¬ (e.answer q).Made := by
  cases q with
  | encapsulate key t =>
    rintro ⟨⟨o, data⟩, ho⟩
    obtain ⟨⟨secret, data'⟩, t', -, ho⟩ := Draw.bind_ok.1 (Prod.ext ho rfl)
    obtain ⟨o', ho', -⟩ := Draw.bind_lift_ok.1 ho
    exact secretKey_without_template h secret o' ho'
  | decapsulate key data =>
    rintro ⟨o, ho⟩
    obtain ⟨secret, -, ho⟩ := Except.bind_ok.1 ho
    exact secretKey_without_template h secret o (Except.lift_ok.1 ho)
  | length key => exact id

/-! ### The derivation that the parameters name -/

theorem namesDerivation_ofMlKem (m : Mechanism) (type : KeyType) : Except.Gives NamesDerivation (ofMlKem m type) :=
  .ite (.error _) (.bind fun _ => .ok nofun)

theorem namesDerivation_ofRsa (m : Mechanism) (type : KeyType) : Except.Gives NamesDerivation (ofRsa m type) :=
  .ite (.error _) <| .ite (.ok nofun) <| .ite (.bind fun _ => .ok nofun) (.error _)

theorem namesDerivation_ofAgreement (m : Mechanism) (type : KeyType) :
    Except.Gives NamesDerivation (ofAgreement m type) := by
  intro e he
  obtain ⟨⟨params, kdf⟩, hparams, he⟩ := Except.bind_ok.1 he
  obtain ⟨p, -, hparams⟩ := Except.bind_ok.1 hparams
  obtain ⟨kdf', hkdf, hparams⟩ := Except.bind_ok.1 hparams
  cases hparams
  dsimp only at he
  split at he
  · cases he
    intro family kdf' params' hs
    cases hs
    exact hkdf
  · cases he

end Encapsulator

/-! ## Requests -/

namespace Registry

variable {r r' : Registry} {m : Mechanism} {store : Store} {key key' : Object}

/-- What a mechanism does for an operation does not depend on the registry it is found in. -/
theorem Faithful.findFor_unique (hr : r.Faithful) (hr' : r'.Faithful) {op : Operation} {f f' : MechanismFamily}
    (hf : r.findFor m.id op = .ok f) (hf' : r'.findFor m.id op = .ok f') : f = f' :=
  MechanismFamily.eq_of_mem (hr.supports hf).2 (hr'.supports hf').2

/-- A generator depends on the mechanism and the store only. -/
theorem Faithful.derivationGenerator_unique (hr : r.Faithful) (hr' : r'.Faithful) {g g' : DerivationGenerator}
    (hg : r.derivationGenerator m store = .ok g) (hg' : r'.derivationGenerator m store = .ok g') : g = g' := by
  obtain ⟨f, hf, hg⟩ := Except.bind_ok.1 hg
  obtain ⟨f', hf', hg'⟩ := Except.bind_ok.1 hg'
  obtain rfl := hr.findFor_unique hr' hf hf'
  exact Except.ok.inj (hg.symm.trans hg')

/-- An encapsulation depends on the mechanism and the type of the key only. -/
theorem Faithful.encapsulator_unique (hr : r.Faithful) (hr' : r'.Faithful)
    (htype : key.getNumber .keyType = key'.getNumber .keyType) {e e' : Encapsulator}
    (he : r.encapsulator m key = .ok e) (he' : r'.encapsulator m key' = .ok e') : e = e' := by
  obtain ⟨f, hf, he⟩ := Except.bind_ok.1 he
  obtain ⟨f', hf', he'⟩ := Except.bind_ok.1 he'
  obtain rfl := hr.findFor_unique hr' hf hf'
  rw [← htype] at he'
  exact Except.ok.inj (he.symm.trans he')

/-- A new generator has no template. -/
theorem template_derivationGenerator {g : DerivationGenerator} (hg : r.derivationGenerator m store = .ok g) :
    g.template = none := by
  obtain ⟨f, -, hg⟩ := Except.bind_ok.1 hg
  exact f.new_derivationGenerator m store g hg

theorem template_encapsulator {e : Encapsulator} (he : r.encapsulator m key = .ok e) : e.template = none := by
  obtain ⟨f, -, he⟩ := Except.bind_ok.1 he
  split at he
  · cases he
  · exact f.new_encapsulator m _ e he

theorem namesDerivation_encapsulator {e : Encapsulator} (he : r.encapsulator m key = .ok e) : e.NamesDerivation := by
  obtain ⟨f, -, he⟩ := Except.bind_ok.1 he
  split at he
  · cases he
  next type _ =>
  cases f with
  | mlKem => exact Encapsulator.namesDerivation_ofMlKem m _ e he
  | rsaPkcs | rsaOaep => exact Encapsulator.namesDerivation_ofRsa m _ e he
  | ecdh => exact Encapsulator.namesDerivation_ofAgreement m _ e he
  | _ => cases he

/-- Whatever templates and requests a generator or an encapsulator has had, it is the new one that was told the last
accepted template only, answers as that one does, and without such a template it makes no key. So the answer to a request
depends on no more than the mechanism, the store or the type of the key when it was made, that template and the request
itself, with the random source where one is used. -/
theorem no_hidden_history (hr : r.Faithful) (hr' : r'.Faithful) :
    (∀ m store g g', r.derivationGenerator m store = .ok g → r'.derivationGenerator m store = .ok g' →
      DerivationGenerator.maker.Historyless DerivationGenerator.Made g ∧
      (∀ cs as base, DerivationGenerator.maker.lastInit g cs = some as →
        DerivationGenerator.maker.outcome g cs base = r.derive m store as base) ∧
      ∀ cs cs' base, DerivationGenerator.maker.lastInit g cs = DerivationGenerator.maker.lastInit g' cs' →
        DerivationGenerator.maker.outcome g cs base = DerivationGenerator.maker.outcome g' cs' base) ∧
    ∀ m key key' e e', key.getNumber .keyType = key'.getNumber .keyType → r.encapsulator m key = .ok e →
      r'.encapsulator m key' = .ok e' →
      Encapsulator.maker.Historyless Encapsulator.Outcome.Made e ∧
      (∀ cs as q, Encapsulator.maker.lastInit e cs = some as →
        ∃ e₁, e.init as = .ok e₁ ∧ Encapsulator.maker.outcome e cs q = e₁.answer q) ∧
      ∀ cs cs' q, Encapsulator.maker.lastInit e cs = Encapsulator.maker.lastInit e' cs' →
        Encapsulator.maker.outcome e cs q = Encapsulator.maker.outcome e' cs' q := by
  constructor
  · intro m store g g' hg hg'
    have hkeyless : ∀ base, ¬ DerivationGenerator.Made (DerivationGenerator.maker.serve base g).1 := by
      intro base
      rw [DerivationGenerator.maker_serve]
      exact DerivationGenerator.generate_without_template (template_derivationGenerator hg) base
    refine ⟨KeyMaker.historyless DerivationGenerator.replaces_maker trivial hkeyless, fun cs as base hl => ?_,
      fun cs cs' base hl => ?_⟩
    · have htell := (KeyMaker.run_eq DerivationGenerator.replaces_maker trivial cs).2 as hl
      rw [KeyMaker.outcome, DerivationGenerator.maker_serve]
      simp only [derive, hg, DerivationGenerator.init_of_tell htell, Except.liftM_ok, Except.ok_bind]
    · obtain rfl := hr.derivationGenerator_unique hr' hg hg'
      exact KeyMaker.outcome_congr DerivationGenerator.replaces_maker trivial hl base
  · intro m key key' e e' htype he he'
    have hnames := namesDerivation_encapsulator he
    have hkeyless : ∀ q, ¬ (Encapsulator.maker.serve q e).1.Made := by
      intro q
      rw [Encapsulator.maker_serve hnames]
      exact Encapsulator.answer_without_template (template_encapsulator he) q
    refine ⟨KeyMaker.historyless Encapsulator.replaces_maker hnames hkeyless, fun cs as q hl => ?_,
      fun cs cs' q hl => ?_⟩
    · have htell := (KeyMaker.run_eq Encapsulator.replaces_maker hnames cs).2 as hl
      refine ⟨_, Encapsulator.init_of_tell htell, ?_⟩
      rw [KeyMaker.outcome, Encapsulator.maker_serve (KeyMaker.kind_run Encapsulator.replaces_maker hnames cs)]
    · obtain rfl := hr.encapsulator_unique hr' htype he he'
      exact KeyMaker.outcome_congr Encapsulator.replaces_maker hnames hl q

/-- The digest of a key, whose first bytes make a new key. -/
def hashing : Mechanism := ⟨.sha256KeyDerivation, []⟩

open Encapsulator in
/-- A request and a template for an RSA key, which is refused, do not count: a key is derived, and a key is encapsulated,
as after the first template alone. -/
theorem no_hidden_history_runs :
    (∃ g o, full.derivationGenerator hashing {} = .ok g ∧
      DerivationGenerator.maker.outcome g
          [.init [.ofNumber .valueLen 16], .request (Exposure.confined true), .init [.ofNumber .keyType KeyType.rsa.val]]
          (Exposure.confined true) =
        full.derive hashing {} [.ofNumber .valueLen 16] (Exposure.confined true) ∧
      full.derive hashing {} [.ofNumber .valueLen 16] (Exposure.confined true) = .ok o) ∧
    ∃ e made rest, full.encapsulator ⟨.ecdh1Derive, plainParams⟩ twosPublicObject = .ok e ∧
      maker.outcome e [.init shortTemplate, .request (.encapsulate twosPublicObject ones),
          .init [.ofNumber .keyType KeyType.rsa.val]] (.encapsulate twosPublicObject ones) =
        twosEncapsulator.answer (.encapsulate twosPublicObject ones) ∧
      twosEncapsulator.answer (.encapsulate twosPublicObject ones) = .encapsulated (.ok made) rest := by
  obtain ⟨hderivation, hencapsulation⟩ := no_hidden_history faithful_full faithful_full
  constructor
  · have hg : full.derivationGenerator hashing {} =
        .ok { mechanism := .sha256KeyDerivation, rule := .digest .sha256 } :=
      Except.ok_of_toOption (by decide +kernel)
    have hmade : (full.derive hashing {} [.ofNumber .valueLen 16] (Exposure.confined true)).toOption.isSome := by
      decide +kernel
    obtain ⟨-, hderive, -⟩ := hderivation hashing {} _ _ hg hg
    obtain ⟨o, ho⟩ := Option.isSome_iff_exists.1 hmade
    exact ⟨_, o, hg, hderive _ _ _ rfl, Except.ok_of_toOption ho⟩
  · obtain ⟨he, hinit, o, data, rest, hrun⟩ := twos_run
    obtain ⟨-, hlatest, -⟩ := hencapsulation _ _ _ _ _ rfl he he
    obtain ⟨e₁, he₁, houtcome⟩ := hlatest [.init shortTemplate, .request (.encapsulate twosPublicObject ones),
      .init [.ofNumber .keyType KeyType.rsa.val]] shortTemplate (.encapsulate twosPublicObject ones) rfl
    obtain rfl : twosEncapsulator = e₁ := Except.ok.inj (hinit.symm.trans he₁)
    have hanswer : ∀ r, (twosEncapsulator.encapsulate twosPublicObject).on ones = r →
        twosEncapsulator.answer (.encapsulate twosPublicObject ones) = .encapsulated r.1 r.2 := by
      rintro _ rfl
      rfl
    exact ⟨_, (o, data), rest, he, houtcome, hanswer _ hrun⟩

end Registry
end SoftToken
