import SoftToken.Bytes
import SoftToken.Error
/-!
# Random sources

A random source answers requests for bytes. It belongs to whoever asks for an operation, so that nothing is known of it
but that it fills what it answers: it may fail at any request, with any error, and its answers may depend on all requests
before. Operations that draw can only ask it. They give back how far they have come with it, also when they fail.
-/

namespace SoftToken

/-- How a source answers the request for `len` bytes after others, the last of them first. -/
abbrev RandomAnswers := List Nat → (len : Nat) → Except Error { b : Bytes // b.length = len }

/-- A source of random bytes, with the requests it has had. -/
structure RandomSource where
  answer : RandomAnswers
  past : List Nat := []

namespace RandomSource

/-- The number of bytes that requests ask for. -/
def asking (past : List Nat) : Nat := past.foldr (· + ·) 0

/-- The number of bytes that were asked for. -/
def position (t : RandomSource) : Nat := asking t.past

/-- The source after one more request. -/
def asked (t : RandomSource) (len : Nat) : RandomSource := { t with past := len :: t.past }

/-- The error of a source that has no more bytes. -/
def exhausted : Error := .explained .functionFailed .randomExhausted

/-- The bytes of a tape, read from left to right. -/
def tapeBytes (byte : Nat → UInt8) (position len : Nat) : { b : Bytes // b.length = len } :=
  ⟨(List.range' position len).map byte, by simp⟩

/-- A tape without end. -/
def tape (byte : Nat → UInt8) : RandomSource where
  answer past len := .ok (tapeBytes byte (asking past) len)

/-- The number of bytes read from a tape of `limit` bytes. A request that runs past its end reads nothing. -/
def readOf (limit : Nat) : List Nat → Nat
  | [] => 0
  | len :: past =>
    let position := readOf limit past
    if position + len ≤ limit then position + len else position

/-- A tape with an end. -/
def ofBytes (b : Bytes) : RandomSource where
  answer past len :=
    let position := readOf b.length past
    if position + len ≤ b.length then .ok (tapeBytes (b.getD · 0) position len) else .error exhausted

end RandomSource

/-- An operation that may draw random bytes, and may fail or abort. -/
abbrev Draw (α : Type) := ExceptT Failure (ReaderT RandomAnswers (StateM (List Nat))) α

instance : MonadLift (Except Failure) (ExceptT Failure (ReaderT RandomAnswers (StateM (List Nat)))) where
  monadLift x := ExceptT.mk (pure x)

namespace Draw

/-- Runs an operation on a source. -/
def on {α : Type} (x : Draw α) (t : RandomSource) : Except Failure α × RandomSource :=
  let r := (x.run t.answer).run t.past
  (r.1, { t with past := r.2 })

/-- Asks for `len` bytes; an error of the source is reported as told. -/
def request (len : Nat) (report : Error → Failure) : Draw Bytes := do
  let answer ← read
  let past ← get
  set (len :: past)
  match answer past len with
  | .ok b => return b.1
  | .error e => throw (report e)

/-- Draws `len` bytes; an error of the source is passed on. -/
def bytes (len : Nat) : Draw Bytes := request len .error

/-- Draws `len` bytes; every error of the source is reported as one failure. -/
def orElse (len : Nat) (failure : Failure) : Draw Bytes := request len fun _ => failure

/-- Draws `len` bytes where a failing source cannot be reported. -/
def bytesOrAbort (len : Nat) : Draw Bytes := orElse len (.abort .randomSource)

end Draw
end SoftToken
