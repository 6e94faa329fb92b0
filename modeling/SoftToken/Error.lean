import SoftToken.Reason
import SoftToken.ReturnCode
/-!
# Errors

An error carries a return code and, where more is known, a reason, the error it wraps, or a failure
that arose outside the key model. An operation that draws random bytes may also abort: `Failure` keeps
the two outcomes apart.
-/

namespace SoftToken

/-- Why a parameter blob could not be read or written. -/
inductive WireFault where
  | endOfInput
  | trailingBytes
  | badBool (byte : UInt8)
  | badTag (byte : UInt8)
  | sizeLimit
deriving DecidableEq, Repr

namespace WireFault

def message : WireFault → String
  | endOfInput => "io error: unexpected end of file"
  | trailingBytes => "Slice had bytes remaining after deserialization"
  | badBool b => "invalid u8 while decoding bool, expected 0 or 1, found " ++ toString b.toNat
  | badTag b => "tag for enum is not valid, found " ++ toString b.toNat
  | sizeLimit => "the size limit has been reached"

end WireFault

/-- A failure that did not arise in the key model. -/
inductive Outside where
  /-- The parameter codec refused the data. -/
  | wire (fault : WireFault)
  /-- A number did not fit the type it was converted to. -/
  | integerRange
  /-- A byte string did not have the length it was converted to. -/
  | lengthMismatch
  /-- The configuration text is not valid. -/
  | configText
  /-- The configuration file could not be read. -/
  | configFile
  /-- The RSA primitive refused its input. -/
  | rsaPrimitive
  /-- The signature primitive refused its input. -/
  | signaturePrimitive
  /-- Any other failure, given by its text. -/
  | text (message : String)
deriving DecidableEq, Repr

namespace Outside

def message : Outside → String
  | wire f => f.message
  | integerRange => "number too large to fit in target type"
  | lengthMismatch => "could not convert slice to array"
  | configText => "invalid configuration"
  | configFile => "unreadable configuration file"
  | rsaPrimitive => "RSA operation failed"
  | signaturePrimitive => "signature error"
  | text s => s

end Outside

/-- An error of the token. -/
inductive Error where
  /-- Nothing is known beyond the code. -/
  | bare (code : ReturnCode)
  | explained (code : ReturnCode) (reason : Reason)
  /-- Another error, reported under a code of its own. -/
  | wrapping (code : ReturnCode) (inner : Error)
  | caused (code : ReturnCode) (source : Outside)
  /-- A lookup by number or name found nothing. -/
  | notFound (what : String)
  /-- A failure from outside that has no code of its own. -/
  | outside (source : Outside)
  /-- Another error that is reported as it stands. -/
  | nested (inner : Error)
deriving DecidableEq, Repr

namespace Error

/-- The three shapes of errors. -/
inductive Kind where
  | coded
  | notFound
  | nested
deriving DecidableEq, Repr

def kind : Error → Kind
  | bare _ | explained _ _ | wrapping _ _ | caused _ _ => .coded
  | notFound _ => .notFound
  | outside _ | nested _ => .nested

/-- The return code an error is reported under. -/
def code : Error → ReturnCode
  | bare c | explained c _ | wrapping c _ | caused c _ => c
  | notFound _ | outside _ | nested _ => .generalError

/-- How an error reads. -/
def message : Error → String
  | bare c => c.name
  | explained c r => c.name ++ ": " ++ r.message
  | wrapping c e => c.name ++ ": " ++ e.message
  | caused c s => c.name ++ ": " ++ s.message
  | notFound what => "attribute not found: " ++ what
  | outside s => s.message
  | nested e => e.message

/-- What an error goes back to: the last error of a chain, or the outside failure it ends with. -/
def root : Error → Error ⊕ Outside
  | wrapping _ e | nested e => e.root
  | caused _ s | outside s => .inr s
  | e => .inl e

/-- A broken internal invariant. -/
def invariant (r : Reason) : Error := explained .generalError r

end Error

/-- Why an operation was given up without a return code. -/
inductive Abort where
  /-- The random source failed where the primitive cannot report it. -/
  | randomSource
  /-- An index or a range lay outside of a block. -/
  | outOfRange
  /-- A number left the range of machine words. -/
  | wordOverflow
  /-- A string was asked for that is longer than any string can be. -/
  | capacity
deriving DecidableEq, Repr

/-- The outcomes of an operation other than success. -/
inductive Failure where
  | error (e : Error)
  | abort (a : Abort)
deriving DecidableEq, Repr

instance : Coe Error Failure := ⟨.error⟩

instance : MonadLift (Except Error) (Except Failure) where
  monadLift
    | .ok a => .ok a
    | .error e => .error (.error e)

/-- Fails with a return code alone. -/
def fail {α : Type} (code : ReturnCode) : Except Error α := .error (.bare code)

/-- Fails with a return code and a reason. -/
def refuse {α : Type} (code : ReturnCode) (r : Reason) : Except Error α := .error (.explained code r)

end SoftToken
