import SoftToken.Toml.Reader
/-!
# Numbers and times

Integers have 64 bits with a sign. Single underscores may stand between digits. A date goes with a time
and a time with an offset, but each may stand alone. Nothing here keeps the value: a document only has
to be valid.
-/

namespace SoftToken.Toml.Scalar

open Reader

/-- The digits after the first one, with single underscores between them. -/
def moreDigits (p : Char → Bool) : List Char → List Char × List Char
  | '_' :: c :: r =>
    if p c then let (digits, rest) := moreDigits p r; (c :: digits, rest) else ([], '_' :: c :: r)
  | c :: r => if p c then let (digits, rest) := moreDigits p r; (c :: digits, rest) else ([], c :: r)
  | [] => ([], [])

/-- Digits with single underscores between them. -/
def digitRun (p : Char → Bool) : Reader (List Char) := do
  let first ← takeIf p
  let (digits, rest) := moreDigits p (← get)
  set rest
  return first :: digits

def isOctal (c : Char) : Bool := '0' ≤ c && c ≤ '7'

def isBinary (c : Char) : Bool := c == '0' || c == '1'

def isHex (c : Char) : Bool := c.isDigit || ('a' ≤ c && c ≤ 'f') || ('A' ≤ c && c ≤ 'F')

/-- The value of a digit. -/
def digitValue (c : Char) : Nat :=
  if c.isDigit then c.toNat - '0'.toNat
  else if 'a' ≤ c then c.toNat - 'a'.toNat + 10
  else c.toNat - 'A'.toNat + 10

def ofDigits (base : Nat) (digits : List Char) : Nat := digits.foldl (fun n c => base * n + digitValue c) 0

/-- A sign; whether it is a minus. -/
def sign : Reader Bool := do
  match ← maybe (takeIf fun c => c == '+' || c == '-') with
  | some c => return c == '-'
  | none => return false

/-- A decimal integer: its sign and its digits, the first of which is zero only if it stands alone. -/
def decimal : Reader (Bool × List Char) := do
  let negative ← sign
  let digits ← (do char '0'; return ['0']) <|> digitRun Char.isDigit
  return (negative, digits)

/-- An integer with a base mark. -/
def based (mark : String) (p : Char → Bool) (base : Nat) : Reader Unit := do
  word mark
  guard (ofDigits base (← digitRun p) < 2 ^ 63)

def integer : Reader Unit :=
  based "0x" isHex 16 <|> based "0o" isOctal 8 <|> based "0b" isBinary 2 <|> do
    let (negative, digits) ← decimal
    guard (ofDigits 10 digits < 2 ^ 63 + negative.toNat)

/-- The least real that is rounded to infinity. -/
def infiniteFrom : Nat := 2 ^ 1024 - 2 ^ 970

/-- Whether `m * 10 ^ e` is rounded to a finite number, where `m` has the given number of digits. -/
def isFinite (m digits : Nat) (e : Int) : Bool :=
  if m = 0 then true
  else if digits + e ≤ 308 then true
  else if 400 + digits < digits + e then false
  else if 0 ≤ e then decide (m * 10 ^ e.toNat < infiniteFrom)
  else decide (m < infiniteFrom * 10 ^ (-e).toNat)

/-- An exponent. -/
def exponent : Reader Int := do
  discard (takeIf fun c => c == 'e' || c == 'E')
  let negative ← sign
  let n := Int.ofNat (ofDigits 10 (← digitRun Char.isDigit))
  return if negative then -n else n

/-- A number with a fraction or an exponent. Positive ones must be finite. -/
def float : Reader Unit := do
  let (negative, whole) ← decimal
  let (fraction, e) ← (do return ([], ← exponent)) <|> do
    char '.'
    let fraction ← digitRun Char.isDigit
    return (fraction, (← maybe exponent).getD 0)
  let digits := whole ++ fraction
  guard (negative || isFinite (ofDigits 10 digits) digits.length (e - fraction.length))

/-- Infinity, or what is not a number. -/
def special : Reader Unit := do
  discard sign
  word "inf" <|> word "nan"

/-! ## Times -/

/-- A number of `n` digits. -/
def digits (n : Nat) : Reader Nat := do return ofDigits 10 (← takeExactly Char.isDigit n)

def isLeapYear (year : Nat) : Bool := year % 4 == 0 && (year % 100 != 0 || year % 400 == 0)

def daysIn (year month : Nat) : Nat :=
  if month = 2 then (if isLeapYear year then 29 else 28)
  else if month ∈ [4, 6, 9, 11] then 30
  else 31

def date : Reader Unit := do
  let year ← digits 4
  char '-'
  let month ← digits 2
  char '-'
  let day ← digits 2
  guard (1 ≤ month ∧ month ≤ 12 ∧ 1 ≤ day ∧ day ≤ daysIn year month)

/-- Hours and minutes. -/
def hourMinute : Reader Unit := do
  guard ((← digits 2) ≤ 23)
  char ':'
  guard ((← digits 2) ≤ 59)

/-- A time of day, with leap seconds. -/
def time : Reader Unit := do
  hourMinute
  char ':'
  guard ((← digits 2) ≤ 60)
  discard (maybe do char '.'; takeWhile1 Char.isDigit)

def offset : Reader Unit :=
  discard (takeIf fun c => c == 'Z' || c == 'z') <|> do
    discard (takeIf fun c => c == '+' || c == '-')
    hourMinute

def dateTime : Reader Unit :=
  (do
    date
    discard (maybe do
      discard (takeIf fun c => c == 'T' || c == 't' || c == ' ')
      time
      discard (maybe offset))) <|> time

/-- A number, a truth value or a time. -/
def scalar : Reader Unit :=
  dateTime <|> float <|> special <|> integer <|> word "true" <|> word "false"

end SoftToken.Toml.Scalar
