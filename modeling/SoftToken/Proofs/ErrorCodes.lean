import SoftToken.Proofs.Draws
/-!
# The codes of failing sequences

`Fails P x` says that `x` ends with an error whose code has the property `P`. A sequence does if one of its
steps does (`Except.fails_bind`, `Draw.fails_bind`), so it avoids the codes that all its steps avoid. An
operation that is given up has no code.
-/

namespace SoftToken

/-- An outcome that may have a return code. -/
class Coded (ε : Type) where
  code? : ε → Option ReturnCode

instance : Coded Error := ⟨fun e => some e.code⟩

instance : Coded Failure where
  code?
    | .error e => some e.code
    | .abort _ => none

namespace Except

variable {ε α β : Type} [Coded ε] {P Q : ReturnCode → Prop} {x : Except ε α}

/-- The sequence ends with an error whose code has the property. -/
def Fails (P : ReturnCode → Prop) (x : Except ε α) : Prop := ∃ e c, x = .error e ∧ Coded.code? e = some c ∧ P c

/-- The sequence never ends with an error whose code has the property. -/
def Avoids (P : ReturnCode → Prop) (x : Except ε α) : Prop := ¬ Fails P x

theorem fails_error {e : ε} : Fails P (.error e : Except ε α) ↔ ∃ c, Coded.code? e = some c ∧ P c := by
  constructor
  · rintro ⟨e', c, h, hc, hp⟩
    cases h
    exact ⟨c, hc, hp⟩
  · rintro ⟨c, hc, hp⟩
    exact ⟨e, c, rfl, hc, hp⟩

theorem fails_code {e : Error} : Fails P (.error e : Except Error α) ↔ P e.code := by
  constructor
  · rintro ⟨e', c, he, hc, hp⟩
    cases he
    cases hc
    exact hp
  · intro h
    exact ⟨e, e.code, rfl, rfl, h⟩

theorem fails_failure {e : Error} : Fails P (.error (.error e) : Except Failure α) ↔ P e.code := by
  constructor
  · rintro ⟨e', c, he, hc, hp⟩
    cases he
    cases hc
    exact hp
  · intro h
    exact ⟨.error e, e.code, rfl, rfl, h⟩

theorem not_fails_ok (a : α) : ¬ Fails P (.ok a : Except ε α) := by
  rintro ⟨e, c, h, -⟩
  cases h

theorem fails_bind {f : α → Except ε β} : Fails P (x >>= f) ↔ Fails P x ∨ ∃ a, x = .ok a ∧ Fails P (f a) := by
  cases x with
  | error e =>
    constructor
    · intro h
      exact .inl (fails_error.2 (fails_error.1 h))
    · rintro (h | ⟨a, h, -⟩)
      · exact fails_error.2 (fails_error.1 h)
      · cases h
  | ok a =>
    constructor
    · intro h
      exact .inr ⟨a, rfl, h⟩
    · rintro (⟨e, c, h, -⟩ | ⟨a', h, hf⟩)
      · cases h
      · cases h
        exact hf

theorem fails_discard : Fails P (discard x) ↔ Fails P x := by
  cases x with
  | error e => exact fails_error.trans fails_error.symm
  | ok a => exact iff_of_false (not_fails_ok _) (not_fails_ok a)

/-- An error of the token keeps its code as the failure of an operation. -/
theorem fails_lift {x : Except Error α} : Fails P (liftM x : Except Failure α) ↔ Fails P x := by
  cases x with
  | error e => exact fails_error.trans (fails_error (ε := Error)).symm
  | ok a => exact iff_of_false (not_fails_ok _) (not_fails_ok a)

/-- After a step that avoids the codes, the sequence fails as the rest of it does. -/
theorem Avoids.fails_bind (hx : Avoids P x) {f : α → Except ε β} :
    Fails P (x >>= f) ↔ ∃ a, x = .ok a ∧ Fails P (f a) := by
  rw [Except.fails_bind]
  exact or_iff_right hx

theorem Avoids.fails_bind_discard (hx : Avoids P x) {f : Unit → Except ε β} :
    Fails P (discard x >>= f) ↔ ∃ a, x = .ok a ∧ Fails P (f ()) := by
  cases x with
  | error e => exact iff_of_false (fun h => hx (fails_error.2 (fails_error.1 h))) nofun
  | ok a =>
    constructor
    · intro h
      exact ⟨a, rfl, h⟩
    · rintro ⟨_, -, h⟩
      exact h

theorem Avoids.fails_bind_lift {x : Except Error α} (hx : Avoids P x) {f : α → Except Failure β} :
    Fails P ((liftM x : Except Failure α) >>= f) ↔ ∃ a, x = .ok a ∧ Fails P (f a) := by
  rw [Except.fails_bind, or_iff_right (mt fails_lift.1 hx)]
  exact exists_congr fun a => and_congr_left fun _ => lift_ok

/-- Before steps that avoid the codes, the sequence fails as its first step does. -/
theorem fails_bind_left {f : α → Except ε β} (hf : ∀ a, Avoids P (f a)) : Fails P (x >>= f) ↔ Fails P x := by
  rw [fails_bind]
  refine or_iff_left ?_
  rintro ⟨a, -, h⟩
  exact hf a h

namespace Avoids

theorem ok (a : α) : Avoids P (.ok a : Except ε α) := not_fails_ok a

theorem error {e : Error} (h : ¬ P e.code) : Avoids P (.error e : Except Error α) := mt fails_code.1 h

theorem fail {code : ReturnCode} (h : ¬ P code) : Avoids P (SoftToken.fail code : Except Error α) := error h

theorem refuse {code : ReturnCode} {r : Reason} (h : ¬ P code) : Avoids P (SoftToken.refuse code r : Except Error α) :=
  error h

theorem failure {e : Error} (h : ¬ P e.code) : Avoids P (.error (.error e) : Except Failure α) :=
  mt fails_failure.1 h

/-- What is given up has no code. -/
theorem aborted (a : Abort) : Avoids P (.error (.abort a) : Except Failure α) := by
  rintro ⟨e', c, he, hc, hp⟩
  cases he
  cases hc

theorem bind (hx : Avoids P x) {f : α → Except ε β} (hf : ∀ a, x = .ok a → Avoids P (f a)) : Avoids P (x >>= f) := by
  intro h
  obtain ⟨a, ha, h⟩ := hx.fails_bind.1 h
  exact hf a ha h

theorem discard (hx : Avoids P x) : Avoids P (discard x) := mt fails_discard.1 hx

theorem lift {x : Except Error α} (hx : Avoids P x) : Avoids P (liftM x : Except Failure α) := mt fails_lift.1 hx

theorem bind_lift {x : Except Error α} (hx : Avoids P x) {f : α → Except Failure β}
    (hf : ∀ a, x = .ok a → Avoids P (f a)) : Avoids P ((liftM x : Except Failure α) >>= f) := by
  intro h
  obtain ⟨a, ha, h⟩ := hx.fails_bind_lift.1 h
  exact hf a ha h

theorem code {x : Except Error α} (hx : Avoids P x) {e : Error} (he : x = .error e) : ¬ P e.code :=
  fun hp => hx ⟨e, e.code, he, rfl, hp⟩

theorem code_failure {x : Except Failure α} (hx : Avoids P x) {e : Error} (he : x = .error (.error e)) : ¬ P e.code :=
  fun hp => hx (he ▸ fails_failure.2 hp)

/-- What never succeeds and avoids all codes but one fails with that one. -/
theorem exists_error {code : ReturnCode} {x : Except Error α} (hx : Avoids (· ≠ code) x) (h : ∀ a, x ≠ .ok a) :
    ∃ e, x = .error e ∧ e.code = code := by
  cases x with
  | error e => exact ⟨e, rfl, Classical.not_not.1 (hx.code rfl)⟩
  | ok a => exact absurd rfl (h a)

end Avoids

/-- A guard that refuses under a code. -/
theorem avoids_guard {p : Prop} [Decidable p] {x : Except Error α} {code : ReturnCode} {r : Reason} (h : ¬ P code)
    (hx : p → Avoids P x) : Avoids P (if p then x else SoftToken.refuse code r) := by
  split
  · next hp => exact hx hp
  · exact .refuse h

end Except

/-! ## Operations that draw -/

namespace RandomSource

/-- The last request to the source failed with this error. -/
def Failed (t : RandomSource) (e : Error) : Prop := ∃ len past, t.past = len :: past ∧ t.answer past len = .error e

/-- No error of the source has a code with the property. -/
def Avoids (P : ReturnCode → Prop) (t : RandomSource) : Prop := ∀ past len e, t.answer past len = .error e → ¬ P e.code

theorem Avoids.of_answer {P : ReturnCode → Prop} {t t' : RandomSource} (ht : t.Avoids P) (h : t'.answer = t.answer) :
    t'.Avoids P := by
  unfold Avoids
  rw [h]
  exact ht

/-- A tape without end has no errors to avoid. -/
theorem avoids_tape {P : ReturnCode → Prop} (byte : Nat → UInt8) : (tape byte).Avoids P := nofun

end RandomSource

namespace Draw

variable {α β : Type} {P : ReturnCode → Prop} {x : Draw α} {t t' : RandomSource}

/-- An error whose code has the property is never the operation's own: it is what the source has failed with. -/
def Avoids (P : ReturnCode → Prop) (x : Draw α) : Prop :=
  ∀ t t' e, x.on t = (.error (.error e), t') → P e.code → t'.Failed e

theorem fails_iff : Except.Fails P (x.on t).1 ↔ ∃ e t', x.on t = (.error (.error e), t') ∧ P e.code := by
  constructor
  · rintro ⟨e | a, c, he, hc, hp⟩
    · cases hc
      exact ⟨e, _, Prod.ext he rfl, hp⟩
    · cases hc
  · rintro ⟨e, t', h, hp⟩
    rw [h]
    exact Except.fails_failure.2 hp

theorem fails_bind {f : α → Draw β} :
    Except.Fails P ((x >>= f).on t).1 ↔ Except.Fails P (x.on t).1 ∨ ∃ a t', x.on t = (.ok a, t') ∧ Except.Fails P ((f a).on t').1 := by
  rw [on_bind]
  rcases x.on t with ⟨e | a, t'⟩
  · constructor
    · intro h
      exact .inl (Except.fails_error.2 (Except.fails_error.1 h))
    · rintro (h | ⟨a, t₁, h, -⟩)
      · exact Except.fails_error.2 (Except.fails_error.1 h)
      · cases h
  · constructor
    · intro h
      exact .inr ⟨a, t', rfl, h⟩
    · rintro (⟨e, c, h, -⟩ | ⟨a', t₁, h, hf⟩)
      · cases h
      · cases h
        exact hf

theorem fails_lift {x : Except Error α} : Except.Fails P ((liftM x : Draw α).on t).1 ↔ Except.Fails P x :=
  Except.fails_lift

theorem fails_liftFailure {x : Except Failure α} : Except.Fails P ((liftM x : Draw α).on t).1 ↔ Except.Fails P x := Iff.rfl

theorem discard_lift (x : Except Error α) : discard (liftM x : Draw α) = liftM (discard x) := by
  cases x <;> rfl

/-- Whatever the source does, no error of the operation has a code with the property: what the source fails with is told
under other codes. -/
def Never (P : ReturnCode → Prop) (x : Draw α) : Prop := ∀ t, Except.Avoids P (x.on t).1

namespace Never

theorem avoids (hx : x.Never P) : x.Avoids P := by
  intro t t' e h hp
  exact absurd hp ((hx t).code_failure (congrArg Prod.fst h))

theorem bind (hx : x.Never P) {f : α → Draw β} (hf : ∀ a, (f a).Never P) : (x >>= f).Never P := by
  intro t h
  rcases Draw.fails_bind.1 h with h | ⟨a, t', -, h⟩
  · exact hx t h
  · exact hf a t' h

theorem pure (a : α) : (pure a : Draw α).Never P := fun _ => .ok a

theorem throw {e : Error} (h : ¬ P e.code) : (throw (.error e) : Draw α).Never P := fun _ => .failure h

theorem abort (a : Abort) : (MonadExcept.throw (Failure.abort a) : Draw α).Never P := fun _ => .aborted a

theorem lift {x : Except Error α} (hx : Except.Avoids P x) : (liftM x : Draw α).Never P := fun _ => hx.lift

theorem liftFailure {x : Except Failure α} (hx : Except.Avoids P x) : (liftM x : Draw α).Never P := fun _ => hx

theorem request {len : Nat} {report : Error → Failure} (h : ∀ e e', report e = .error e' → ¬ P e'.code) :
    (Draw.request len report).Never P := by
  intro t hfails
  obtain ⟨e, t', he, hp⟩ := fails_iff.1 hfails
  obtain ⟨⟨e₀, -, hreport⟩, -⟩ := request_error.1 he
  exact h e₀ e hreport hp

theorem bytesOrAbort (len : Nat) : (Draw.bytesOrAbort len).Never P := request nofun

/-- An error of the source is told as one with a code of its own. -/
theorem orElse (len : Nat) {code : ReturnCode} {r : Reason} (h : ¬ P code) :
    (Draw.orElse len (.error (.explained code r))).Never P := by
  refine request fun e e' he => ?_
  cases he
  exact h

end Never

namespace Avoids

/-- With a source that avoids the codes too, the operation never fails under them. -/
theorem not_fails (hx : x.Avoids P) (ht : t.Avoids P) : Except.Avoids P (x.on t).1 := by
  intro h
  obtain ⟨e, t', he, hp⟩ := fails_iff.1 h
  obtain ⟨len, past, -, hfail⟩ := hx t t' e he hp
  rw [answer_of_on he] at hfail
  exact ht past len e hfail hp

theorem fails_bind (hx : x.Avoids P) (ht : t.Avoids P) {f : α → Draw β} :
    Except.Fails P ((x >>= f).on t).1 ↔ ∃ a t', x.on t = (.ok a, t') ∧ Except.Fails P ((f a).on t').1 := by
  rw [Draw.fails_bind]
  exact or_iff_right (hx.not_fails ht)

theorem bind (hx : x.Avoids P) {f : α → Draw β} (hf : ∀ a, (f a).Avoids P) : (x >>= f).Avoids P := by
  intro t t' e h hp
  rcases bind_error.1 h with h | ⟨a, t₁, -, h⟩
  · exact hx t t' e h hp
  · exact hf a t₁ t' e h hp

theorem pure (a : α) : (pure a : Draw α).Avoids P := (Never.pure a).avoids

theorem throw {e : Error} (h : ¬ P e.code) : (throw (.error e) : Draw α).Avoids P := (Never.throw h).avoids

theorem abort (a : Abort) : (MonadExcept.throw (Failure.abort a) : Draw α).Avoids P := (Never.abort a).avoids

theorem lift {x : Except Error α} (hx : Except.Avoids P x) : (liftM x : Draw α).Avoids P := (Never.lift hx).avoids

theorem liftFailure {x : Except Failure α} (hx : Except.Avoids P x) : (liftM x : Draw α).Avoids P :=
  (Never.liftFailure hx).avoids

theorem bytes (len : Nat) : (Draw.bytes len).Avoids P := by
  intro t t' e h hp
  obtain ⟨⟨e', hanswer, he⟩, rfl⟩ := request_error.1 h
  cases he
  exact ⟨len, t.past, rfl, hanswer⟩

theorem bytesOrAbort (len : Nat) : (Draw.bytesOrAbort len).Avoids P := (Never.bytesOrAbort len).avoids

theorem orElse (len : Nat) {code : ReturnCode} {r : Reason} (h : ¬ P code) :
    (Draw.orElse len (.error (.explained code r))).Avoids P := (Never.orElse len h).avoids

end Avoids

theorem fails_bind_left {f : α → Draw β} (hf : ∀ a, (f a).Avoids P) (ht : t.Avoids P) :
    Except.Fails P ((x >>= f).on t).1 ↔ Except.Fails P (x.on t).1 := by
  rw [fails_bind]
  refine or_iff_left ?_
  rintro ⟨a, t', hx, h⟩
  exact (hf a).not_fails (ht.of_answer (answer_of_on hx)) h

/-- A step that draws nothing, followed by the rest. -/
theorem fails_bind_lift {x : Except Error α} (hx : Except.Avoids P x) {f : α → Draw β} :
    Except.Fails P (((liftM x : Draw α) >>= f).on t).1 ↔ ∃ a, x = .ok a ∧ Except.Fails P ((f a).on t).1 := by
  rw [fails_bind, or_iff_right (mt fails_lift.1 hx)]
  constructor
  · rintro ⟨a, t', h, hf⟩
    obtain ⟨rfl, rfl⟩ := lift_ok.1 h
    exact ⟨a, rfl, hf⟩
  · rintro ⟨a, rfl, hf⟩
    exact ⟨a, t, rfl, hf⟩

theorem fails_bind_discard_lift {x : Except Error α} (hx : Except.Avoids P x) {f : Unit → Draw β} :
    Except.Fails P ((discard (liftM x : Draw α) >>= f).on t).1 ↔ ∃ a, x = .ok a ∧ Except.Fails P ((f ()).on t).1 := by
  rw [discard_lift, fails_bind_lift (Except.Avoids.discard hx)]
  constructor
  · rintro ⟨_, h, hf⟩
    obtain ⟨a, ha⟩ := Except.discard_ok.1 h
    exact ⟨a, ha, hf⟩
  · rintro ⟨a, ha, hf⟩
    exact ⟨(), Except.discard_ok.2 ⟨a, ha⟩, hf⟩

end Draw
end SoftToken
