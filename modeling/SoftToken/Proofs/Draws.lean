import SoftToken.RandomSource
/-!
# Sequences of failing and drawing steps

A sequence succeeds when each of its steps does. `Except.bind_ok` and `Draw.bind_ok` take a successful
sequence apart into its steps; the other lemmas run a sequence forward on a source.
-/

namespace SoftToken

theorem discard_eq {m : Type → Type} [Monad m] [LawfulMonad m] {α : Type} (x : m α) : discard x = x >>= fun _ => pure () := by
  unfold Functor.discard
  rw [LawfulFunctor.map_const, Function.comp_apply, map_eq_pure_bind]

namespace Except

variable {α β ε : Type}

theorem bind_ok {x : Except ε α} {f : α → Except ε β} {b : β} :
    (x >>= f) = .ok b ↔ ∃ a, x = .ok a ∧ f a = .ok b := by
  cases x with
  | error e => exact ⟨fun h => (nomatch h), fun ⟨_, h, _⟩ => (nomatch h)⟩
  | ok a => exact ⟨fun h => ⟨a, rfl, h⟩, fun ⟨_, h, h'⟩ => by cases h; exact h'⟩

theorem ok_bind (a : α) (f : α → Except ε β) : (Except.ok a >>= f) = f a := rfl

theorem discard_ok {x : Except ε α} {u : Unit} : discard x = .ok u ↔ ∃ a, x = .ok a := by
  cases x with
  | error e => exact ⟨fun h => (nomatch h), fun ⟨_, h⟩ => (nomatch h)⟩
  | ok a => exact ⟨fun _ => ⟨a, rfl⟩, fun _ => rfl⟩

theorem ite_refuse_ok {p : Prop} [Decidable p] {x : Except Error α} {code : ReturnCode} {r : Reason} {a : α} :
    (if p then x else refuse code r) = .ok a ↔ p ∧ x = .ok a := by
  split
  · simp [*]
  · exact ⟨fun h => (nomatch h), fun ⟨h, _⟩ => absurd h ‹_›⟩

theorem ok_of_toOption {x : Except ε α} {a : α} (h : x.toOption = some a) : x = .ok a := by
  cases x with
  | error e => cases h
  | ok b => cases h; rfl

theorem mapError_ok {ε' : Type} {x : Except ε α} {f : ε → ε'} {a : α} : x.mapError f = .ok a ↔ x = .ok a := by
  cases x with
  | error e => exact ⟨fun h => (nomatch h), fun h => (nomatch h)⟩
  | ok b => exact ⟨fun h => by cases h; rfl, fun h => by cases h; rfl⟩

theorem mapError_error {ε' : Type} {x : Except ε α} {f : ε → ε'} {e : ε'} :
    x.mapError f = .error e ↔ ∃ e', x = .error e' ∧ f e' = e := by
  cases x with
  | error e' => exact ⟨fun h => by cases h; exact ⟨e', rfl, rfl⟩, fun ⟨_, h, h'⟩ => by cases h; cases h'; rfl⟩
  | ok a => exact ⟨fun h => (nomatch h), fun ⟨_, h, _⟩ => (nomatch h)⟩

@[simp] theorem liftM_ok (a : α) : (liftM (Except.ok a : Except Error α) : Except Failure α) = .ok a := rfl

/-- An error of the token is a failure, and nothing else is changed. -/
theorem lift_ok {x : Except Error α} {a : α} : (liftM x : Except Failure α) = .ok a ↔ x = .ok a := by
  cases x with
  | error e => exact ⟨fun h => (nomatch h), fun h => (nomatch h)⟩
  | ok b => exact ⟨fun h => by cases h; rfl, fun h => by cases h; rfl⟩

theorem bind_lift_ok {x : Except Error α} {f : α → Except Failure β} {b : β} :
    ((liftM x : Except Failure α) >>= f) = .ok b ↔ ∃ a, x = .ok a ∧ f a = .ok b := by
  rw [bind_ok]
  exact exists_congr fun a => and_congr_left fun _ => lift_ok

/-- What a sequence succeeds with has a property. -/
def Gives (P : α → Prop) (x : Except ε α) : Prop := ∀ a, x = .ok a → P a

namespace Gives

variable {P : β → Prop}

theorem error (e : ε) : Gives P (.error e) := nofun

theorem ok {b : β} (h : P b) : Gives P (.ok b : Except ε β) := by
  intro b' hb
  cases hb
  exact h

/-- A sequence gives what its last step gives. -/
theorem bind {x : Except ε α} {f : α → Except ε β} (h : ∀ a, Gives P (f a)) : Gives P (x >>= f) := by
  intro b hb
  obtain ⟨a, -, hf⟩ := bind_ok.1 hb
  exact h a b hf

theorem ite {p : Prop} [Decidable p] {x y : Except ε β} (hx : Gives P x) (hy : Gives P y) :
    Gives P (if p then x else y) := by
  split
  · exact hx
  · exact hy

end Gives

end Except

namespace Draw

variable {α β : Type}

/-- A source answers in one way, whatever is asked of it. -/
@[simp] theorem answer_on (x : Draw α) (t : RandomSource) : (x.on t).2.answer = t.answer := rfl

theorem answer_of_on {x : Draw α} {t t' : RandomSource} {r : Except Failure α} (h : x.on t = (r, t')) :
    t'.answer = t.answer := by
  rw [← answer_on x t, h]

/-- Operations that do the same on every source are the same. -/
theorem ext {x y : Draw α} (h : ∀ t, x.on t = y.on t) : x = y := by
  funext answer past
  exact Prod.ext (congrArg (·.1) (h ⟨answer, past⟩)) (congrArg (·.2.past) (h ⟨answer, past⟩))

theorem on_bind (x : Draw α) (f : α → Draw β) (t : RandomSource) :
    (x >>= f).on t = match x.on t with
      | (.ok a, t') => (f a).on t'
      | (.error e, t') => (.error e, t') := by
  show (let r := (ExceptT.bindCont f ((x.run t.answer).run t.past).1 t.answer) ((x.run t.answer).run t.past).2
    (r.1, { t with past := r.2 })) = _
  unfold on
  rcases (x.run t.answer).run t.past with ⟨e | a, past⟩ <;> rfl

theorem bind_ok {x : Draw α} {f : α → Draw β} {t t' : RandomSource} {b : β} :
    (x >>= f).on t = (.ok b, t') ↔ ∃ a t₁, x.on t = (.ok a, t₁) ∧ (f a).on t₁ = (.ok b, t') := by
  rw [on_bind]
  rcases x.on t with ⟨e | a, t₁⟩
  · simp
  · exact ⟨fun h => ⟨a, t₁, rfl, h⟩, fun ⟨_, _, h, h'⟩ => by cases h; exact h'⟩

/-- A sequence fails as the first of its steps that does. -/
theorem bind_error {x : Draw α} {f : α → Draw β} {t t' : RandomSource} {e : Failure} :
    (x >>= f).on t = (.error e, t') ↔
      x.on t = (.error e, t') ∨ ∃ a t₁, x.on t = (.ok a, t₁) ∧ (f a).on t₁ = (.error e, t') := by
  rw [on_bind]
  rcases x.on t with ⟨e' | a, t₁⟩
  · simp
  · constructor
    · exact fun h => .inr ⟨a, t₁, rfl, h⟩
    · rintro (h | ⟨_, _, h, h'⟩)
      · cases h
      · cases h
        exact h'

theorem pure_ok {a b : α} {t t' : RandomSource} : (pure a : Draw α).on t = (.ok b, t') ↔ b = a ∧ t' = t := by
  constructor
  · intro h
    cases h
    exact ⟨rfl, rfl⟩
  · rintro ⟨rfl, rfl⟩
    rfl

theorem lift_ok {x : Except Error α} {t t' : RandomSource} {a : α} :
    (liftM x : Draw α).on t = (.ok a, t') ↔ x = .ok a ∧ t' = t := by
  constructor
  · intro h
    obtain ⟨hx, rfl⟩ := Prod.mk.injEq .. ▸ h
    exact ⟨Except.lift_ok.1 hx, rfl⟩
  · rintro ⟨rfl, rfl⟩
    rfl

theorem lift_error {x : Except Error α} {t t' : RandomSource} {e : Error} :
    (liftM x : Draw α).on t = (.error (.error e), t') ↔ x = .error e ∧ t' = t := by
  constructor
  · intro h
    cases x with
    | ok a => cases h
    | error e' =>
      cases h
      exact ⟨rfl, rfl⟩
  · rintro ⟨rfl, rfl⟩
    rfl

theorem liftFailure_ok {x : Except Failure α} {t t' : RandomSource} {a : α} :
    (liftM x : Draw α).on t = (.ok a, t') ↔ x = .ok a ∧ t' = t := by
  constructor
  · intro h
    obtain ⟨hx, rfl⟩ := Prod.mk.injEq .. ▸ h
    exact ⟨hx, rfl⟩
  · rintro ⟨rfl, rfl⟩
    rfl

/-- A step that draws nothing leaves the source to the steps after it. -/
theorem bind_lift_ok {x : Except Error α} {f : α → Draw β} {t t' : RandomSource} {b : β} :
    ((liftM x : Draw α) >>= f).on t = (.ok b, t') ↔ ∃ a, x = .ok a ∧ (f a).on t = (.ok b, t') := by
  rw [bind_ok]
  constructor
  · rintro ⟨a, t₁, h, h'⟩
    obtain ⟨hx, rfl⟩ := Prod.mk.injEq .. ▸ h
    exact ⟨a, Except.lift_ok.1 hx, h'⟩
  · rintro ⟨a, rfl, h⟩
    exact ⟨a, t, rfl, h⟩

theorem bind_liftFailure_ok {x : Except Failure α} {f : α → Draw β} {t t' : RandomSource} {b : β} :
    ((liftM x : Draw α) >>= f).on t = (.ok b, t') ↔ ∃ a, x = .ok a ∧ (f a).on t = (.ok b, t') := by
  rw [bind_ok]
  constructor
  · rintro ⟨a, t₁, h, h'⟩
    obtain ⟨hx, rfl⟩ := Prod.mk.injEq .. ▸ h
    exact ⟨a, hx, h'⟩
  · rintro ⟨a, rfl, h⟩
    exact ⟨a, t, rfl, h⟩

theorem on_request (len : Nat) (report : Error → Failure) (t : RandomSource) :
    (request len report).on t = match t.answer t.past len with
      | .ok b => (.ok b.1, t.asked len)
      | .error e => (.error (report e), t.asked len) := by
  show (let r := ((match t.answer t.past len with
      | .ok b => (return b.1 : Draw Bytes)
      | .error e => throw (report e)).run t.answer).run (len :: t.past)
    (r.1, { t with past := r.2 })) = _
  rcases t.answer t.past len with e | b <;> rfl

theorem on_of_toOption {x : Draw α} {t : RandomSource} {a : α} (h : (x.on t).1.toOption = some a) :
    x.on t = (.ok a, (x.on t).2) :=
  Prod.ext (Except.ok_of_toOption h) rfl

theorem request_ok {len : Nat} {report : Error → Failure} {t t' : RandomSource} {b : Bytes} :
    (request len report).on t = (.ok b, t') ↔ (∃ h, t.answer t.past len = .ok ⟨b, h⟩) ∧ t' = t.asked len := by
  rw [on_request]
  rcases t.answer t.past len with e | ⟨b', hb⟩
  · simp
  · constructor
    · intro h
      cases h
      exact ⟨⟨hb, rfl⟩, rfl⟩
    · rintro ⟨⟨_, h⟩, rfl⟩
      cases h
      rfl

theorem request_error {len : Nat} {report : Error → Failure} {t t' : RandomSource} {e : Failure} :
    (request len report).on t = (.error e, t') ↔
      (∃ e', t.answer t.past len = .error e' ∧ report e' = e) ∧ t' = t.asked len := by
  rw [on_request]
  rcases t.answer t.past len with e' | b
  · simp [eq_comm]
  · simp

/-- Drawn bytes are as many as were asked for. -/
theorem length_of_request {len : Nat} {report : Error → Failure} {t t' : RandomSource} {b : Bytes}
    (h : (request len report).on t = (.ok b, t')) : b.length = len := by
  obtain ⟨⟨hb, -⟩, -⟩ := request_ok.1 h
  exact hb

end Draw

/-! ## Operations that give up for want of random bytes only -/

/-- The operation gives up only where the random source fails it. -/
def Draw.BlamesSource {α : Type} (x : Draw α) : Prop :=
  ∀ t t' a, x.on t = (.error (.abort a), t') → a = .randomSource

namespace Draw.BlamesSource

variable {α β : Type} {x : Draw α}

theorem bind (hx : x.BlamesSource) {f : α → Draw β} (hf : ∀ a, (f a).BlamesSource) : (x >>= f).BlamesSource := by
  intro t t' a h
  rcases Draw.bind_error.1 h with h | ⟨b, t₁, -, h⟩
  · exact hx t t' a h
  · exact hf b t₁ t' a h

theorem pure (a : α) : (pure a : Draw α).BlamesSource := by
  intro t t' a h
  cases h

theorem giveUp : (throw (.abort .randomSource) : Draw α).BlamesSource := by
  intro t t' a h
  cases h
  rfl

theorem throw (e : Error) : (throw (.error e) : Draw α).BlamesSource := by
  intro t t' a h
  cases h

theorem lift (x : Except Error α) : (liftM x : Draw α).BlamesSource := by
  intro t t' a h
  cases x <;> cases h

theorem request {len : Nat} {report : Error → Failure} (hr : ∀ e a, report e = .abort a → a = .randomSource) :
    (Draw.request len report).BlamesSource := by
  intro t t' a h
  rw [Draw.on_request] at h
  split at h
  · cases h
  · next e _ =>
    obtain ⟨ha, -⟩ := Prod.mk.injEq .. ▸ h
    exact hr e a (Except.error.inj ha)

theorem bytes (len : Nat) : (Draw.bytes len).BlamesSource := request nofun

theorem bytesOrAbort (len : Nat) : (Draw.bytesOrAbort len).BlamesSource :=
  request fun _ _ h => (Failure.abort.inj h).symm

end Draw.BlamesSource

/-! ## Some sources -/

/-- A source of zeros. -/
def RandomSource.zeros : RandomSource := tape fun _ => 0

/-- A tape without end that starts with a string. -/
def RandomSource.startingWith (b : Bytes) : RandomSource := tape (b.getD · 0)

/-- Every string is what some source gives. -/
theorem Draw.exists_bytes (b : Bytes) : ∃ t t', (bytes b.length).on t = (.ok b, t') := by
  have hread : (List.range' 0 b.length).map (b.getD · 0) = b := by
    refine List.ext_getElem (by simp) fun i h h' => ?_
    simp [List.getElem?_eq_getElem h']
  refine ⟨.startingWith b, _, request_ok.2 ⟨⟨rfl, ?_⟩, rfl⟩⟩
  show Except.ok (RandomSource.tapeBytes (b.getD · 0) 0 b.length) = _
  exact congrArg Except.ok (Subtype.ext hread)

/-- A source with nothing to give. -/
def RandomSource.blank : RandomSource := ofBytes []

theorem RandomSource.readOf_zero (past : List Nat) : readOf 0 past = 0 := by
  induction past with
  | nil => rfl
  | cons len past ih =>
    simp only [readOf, ih]
    split <;> omega

theorem Draw.bytes_blank {t : RandomSource} (ht : t.answer = RandomSource.blank.answer) {len : Nat} (h : 0 < len) :
    (bytes len).on t = (.error (.error RandomSource.exhausted), t.asked len) := by
  have hanswer : t.answer t.past len = .error RandomSource.exhausted := by
    rw [ht]
    refine if_neg ?_
    rw [List.length_nil, RandomSource.readOf_zero]
    omega
  rw [bytes, on_request, hanswer]

end SoftToken
