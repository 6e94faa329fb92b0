import SoftToken.RandomSource
/-!
# Methods

A method runs on an object that it may change, and may ask a random source. Where it fails, what it has changed and what
it has asked for stay.
-/

namespace SoftToken

/-- A method of objects with states in `σ`. -/
abbrev Method (σ α : Type) := ExceptT Failure (StateT σ (ReaderT RandomAnswers (StateM (List Nat)))) α

/-- An operation that may draw is a method that does not look at its object. -/
instance {σ : Type} : MonadLift (ExceptT Failure (ReaderT RandomAnswers (StateM (List Nat))))
    (ExceptT Failure (StateT σ (ReaderT RandomAnswers (StateM (List Nat))))) where
  monadLift x := ExceptT.mk (StateT.lift x.run)

namespace Method

variable {σ α : Type}

/-- Runs a method on an object, with a source: its outcome, and the object and the source after it. -/
def on (x : Method σ α) (s : σ) (t : RandomSource) : Except Failure α × σ × RandomSource :=
  let r := ((x.run.run s).run t.answer).run t.past
  (r.1.1, r.1.2, { t with past := r.2 })

/-- Runs a method that is given no source. -/
def alone (x : Method σ α) (s : σ) : Except Failure α × σ :=
  let r := x.on s (.ofBytes [])
  (r.1, r.2.1)

/-- The object as it is now. -/
def self : Method σ σ := getThe σ

/-- Asks the object as it is now. -/
def ask (f : σ → Except Error α) : Method σ α := do f (← self)

/-- Changes the object. -/
def update (f : σ → σ) : Method σ Unit := modifyThe σ f

end Method
end SoftToken
