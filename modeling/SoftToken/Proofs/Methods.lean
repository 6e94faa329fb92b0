import SoftToken.Method
import SoftToken.Proofs.Draws
/-!
# What methods do to their objects

On one object, a method may do the same as an operation that is computed from the object, and leave the object as it
was, also where it fails: `Method.Follows`, or `Method.Answers` where nothing is drawn. A sequence does so step by step.
-/

namespace SoftToken.Method

variable {σ α β : Type} {x : Method σ α} {s : σ} {t : RandomSource}

theorem on_bind (x : Method σ α) (f : α → Method σ β) (s : σ) (t : RandomSource) :
    (x >>= f).on s t = match x.on s t with
      | (.ok a, s', t') => (f a).on s' t'
      | (.error e, s', t') => (.error e, s', t') := by
  show (let r := (ExceptT.bindCont f (((x.run.run s).run t.answer).run t.past).1.1
      (((x.run.run s).run t.answer).run t.past).1.2 t.answer) (((x.run.run s).run t.answer).run t.past).2
    (r.1.1, r.1.2, { t with past := r.2 })) = _
  unfold on
  rcases ((x.run.run s).run t.answer).run t.past with ⟨⟨e | a, s'⟩, past⟩ <;> rfl

/-! ## Methods that compute a function of their object -/

/-- On this object, the method does on every source what the operation does, and leaves the object as it was. -/
def Follows (x : Method σ α) (s : σ) (d : Draw α) : Prop := ∀ t, x.on s t = ((d.on t).1, s, (d.on t).2)

namespace Follows

variable {d : Draw α}

theorem bind (hx : x.Follows s d) {f : α → Method σ β} {g : α → Draw β} (hf : ∀ a, (f a).Follows s (g a)) :
    (x >>= f).Follows s (d >>= g) := by
  intro t
  rw [on_bind, hx, Draw.on_bind]
  rcases d.on t with ⟨e | a, t'⟩
  · rfl
  · exact hf a t'

theorem pure (a : α) : (pure a : Method σ α).Follows s (pure a) := fun _ => rfl

theorem throw (e : Failure) : (throw e : Method σ α).Follows s (throw e) := fun _ => rfl

theorem draw (d : Draw α) : (liftM d : Method σ α).Follows s d := fun _ => rfl

theorem lift (r : Except Error α) : (liftM r : Method σ α).Follows s (liftM r) := fun _ => rfl

theorem liftFailure (r : Except Failure α) : (liftM r : Method σ α).Follows s (liftM r) := fun _ => rfl

theorem ask (f : σ → Except Error α) : (ask f).Follows s (liftM (f s)) := fun _ => rfl

/-- What the object says of itself is known. -/
theorem bind_self {f : σ → Method σ β} {g : Draw β} (hf : (f s).Follows s g) : (self >>= f).Follows s g := hf

theorem discard (hx : x.Follows s d) : (discard x).Follows s (discard d) := by
  rw [discard_eq, discard_eq]
  exact hx.bind fun _ => .pure _

end Follows

/-- On this object, the method draws nothing and ends as the computation does, and leaves the object as it was. -/
def Answers (x : Method σ α) (s : σ) (r : Except Failure α) : Prop := ∀ t, x.on s t = (r, s, t)

namespace Answers

variable {r : Except Failure α}

theorem bind (hx : x.Answers s r) {f : α → Method σ β} {g : α → Except Failure β} (hf : ∀ a, (f a).Answers s (g a)) :
    (x >>= f).Answers s (r >>= g) := by
  intro t
  rw [on_bind, hx]
  cases r with
  | error e => rfl
  | ok a => exact hf a t

/-- A computation whose failures are errors goes on alike. -/
theorem bind_lift {r : Except Error α} (hx : x.Answers s (liftM r)) {f : α → Method σ β} {g : α → Except Error β}
    (hf : ∀ a, (f a).Answers s (liftM (g a))) : (x >>= f).Answers s (liftM (r >>= g)) := by
  intro t
  rw [on_bind, hx]
  cases r with
  | error e => rfl
  | ok a => exact hf a t

theorem pure (a : α) : (pure a : Method σ α).Answers s (pure a) := fun _ => rfl

theorem throw (e : Failure) : (throw e : Method σ α).Answers s (throw e) := fun _ => rfl

theorem lift (r : Except Error α) : (liftM r : Method σ α).Answers s (liftM r) := fun _ => rfl

theorem liftFailure (r : Except Failure α) : (liftM r : Method σ α).Answers s r := fun _ => rfl

theorem ask (f : σ → Except Error α) : (ask f).Answers s (liftM (f s)) := fun _ => rfl

theorem discard {r : Except Error α} (hx : x.Answers s (liftM r)) : (discard x).Answers s (liftM (discard r)) := by
  rw [discard_eq, discard_eq]
  exact hx.bind_lift fun _ => .pure _

/-- What the object says of itself is known. -/
theorem bind_self {f : σ → Method σ β} {g : Except Failure β} (hf : (f s).Answers s g) : (self >>= f).Answers s g := hf

/-- No source is needed. -/
theorem alone (hx : x.Answers s r) : x.alone s = (r, s) := by
  unfold Method.alone
  rw [hx]

end Answers

end SoftToken.Method
