import SoftToken.Proofs.ErrorCodes
/-!
# Sequences that end alike

Two sequences of steps end alike if both succeed, with related results, or both fail under the same return
code; only the texts of their errors may differ. Sequences whose steps are alike end alike (`Alike.bind`).
`Draw.outcome` keeps of an operation all but those texts, so that operations on a random source are compared
by equations.
-/

namespace SoftToken

namespace Except

variable {ε α β γ δ : Type} [Coded ε] {R : α → β → Prop} {S : γ → δ → Prop}

/-- Both sequences succeed with related results, or both fail under the same code. -/
def Alike (R : α → β → Prop) : Except ε α → Except ε β → Prop
  | .ok a, .ok b => R a b
  | .error e, .error e' => Coded.code? e = Coded.code? e'
  | _, _ => False

namespace Alike

theorem ok {a : α} {b : β} (h : R a b) : Alike R (.ok a : Except ε α) (.ok b : Except ε β) := h

theorem refuse {code : ReturnCode} {r r' : Reason} :
    Alike R (SoftToken.refuse code r : Except Error α) (SoftToken.refuse code r' : Except Error β) := rfl

/-- A sequence ends like itself. -/
theorem refl {R : α → α → Prop} {x : Except ε α} (h : ∀ a, x = .ok a → R a a) : Alike R x x := by
  cases x with
  | error e => rfl
  | ok a => exact h a rfl

/-- Sequences that end alike do so for a weaker relation. -/
theorem mono {R' : α → β → Prop} {x : Except ε α} {y : Except ε β} (h : Alike R x y) (hr : ∀ a b, R a b → R' a b) :
    Alike R' x y := by
  cases x with
  | error e => cases y with
    | error e' => exact h
    | ok b => exact h.elim
  | ok a => cases y with
    | error e' => exact h.elim
    | ok b => exact hr a b h

/-- If the first sequence succeeds, so does the second, with a related result. -/
theorem exists_ok {x : Except ε α} {y : Except ε β} (h : Alike R x y) {a : α} (hx : x = .ok a) :
    ∃ b, y = .ok b ∧ R a b := by
  subst hx
  cases y with
  | error e => exact h.elim
  | ok b => exact ⟨b, rfl, h⟩

/-- Steps that end alike, before rests that end alike on related results. -/
theorem bind {x : Except ε α} {y : Except ε β} {f : α → Except ε γ} {g : β → Except ε δ} (h : Alike R x y)
    (hr : ∀ a b, R a b → Alike S (f a) (g b)) : Alike S (x >>= f) (y >>= g) := by
  cases x with
  | error e => cases y with
    | error e' => exact h
    | ok b => exact h.elim
  | ok a => cases y with
    | error e' => exact h.elim
    | ok b => exact hr a b h

/-- The same step, before rests that end alike. -/
theorem bind_same {x : Except ε α} {f : α → Except ε γ} {g : α → Except ε δ}
    (h : ∀ a, x = .ok a → Alike S (f a) (g a)) : Alike S (x >>= f) (x >>= g) :=
  bind (R := fun a b => a = b ∧ x = .ok a) (refl fun _ ha => ⟨rfl, ha⟩) fun a _ ⟨hab, ha⟩ => hab ▸ h a ha

theorem discard {x : Except ε α} {y : Except ε β} (h : Alike R x y) :
    Alike (fun _ _ => True) (discard x) (discard y) := by
  cases x with
  | error e => cases y with
    | error e' => exact h
    | ok b => exact h.elim
  | ok a => cases y with
    | error e' => exact h.elim
    | ok b => trivial

end Alike
end Except

namespace Draw

variable {α β γ : Type} {R : α → β → Prop} {t : RandomSource}

/-- What an operation ends with, but for the text of an error, and the random source after it. -/
def outcome (x : Draw α) (t : RandomSource) : Except (Option ReturnCode) α × RandomSource :=
  ((x.on t).1.mapError Coded.code?, (x.on t).2)

theorem outcome_congr {x y : Draw α} (h : x.on t = y.on t) : x.outcome t = y.outcome t := by
  unfold outcome
  rw [h]

/-- After first steps that draw nothing and end alike, the same outcome if the rests have it on related results. -/
theorem outcome_bind_lift {x : Except Error α} {y : Except Error β} {f : α → Draw γ} {g : β → Draw γ}
    (h : Except.Alike R x y) (hr : ∀ a b, R a b → (f a).outcome t = (g b).outcome t) :
    ((liftM x : Draw α) >>= f).outcome t = ((liftM y : Draw β) >>= g).outcome t := by
  cases x with
  | error e => cases y with
    | error e' => exact congrArg (fun c => (Except.error c, t)) h
    | ok b => exact h.elim
  | ok a => cases y with
    | error e' => exact h.elim
    | ok b => exact hr a b h

end Draw
end SoftToken
