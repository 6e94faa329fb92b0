/-!
# Readers

A reader takes characters off the front of a text and may fail; an alternative starts again where the
first reader started.
-/

namespace SoftToken.Toml

/-- Reads a value off the front of a text. -/
abbrev Reader := StateT (List Char) Option

namespace Reader

/-- The next character, which stays. -/
def peek : Reader (Option Char) := return (← get).head?

/-- A character that satisfies `p`. -/
def takeIf (p : Char → Bool) : Reader Char := do
  match ← get with
  | c :: r => if p c then set r; return c else failure
  | [] => failure

/-- The character `c`. -/
def char (c : Char) : Reader Unit := discard (takeIf (· == c))

/-- The characters of `s` in turn. -/
def word (s : String) : Reader Unit := s.toList.forM char

/-- The longest run of characters that satisfy `p`. -/
def takeWhile (p : Char → Bool) : Reader (List Char) := do
  let (run, rest) := (← get).span p
  set rest
  return run

/-- A run of at least one character. -/
def takeWhile1 (p : Char → Bool) : Reader (List Char) := do
  let run ← takeWhile p
  guard (!run.isEmpty)
  return run

/-- Exactly `n` characters that satisfy `p`. -/
def takeExactly (p : Char → Bool) : Nat → Reader (List Char)
  | 0 => return []
  | n + 1 => do
    let c ← takeIf p
    return c :: (← takeExactly p n)

/-- What `r` reads, or nothing. -/
def maybe {α : Type} (r : Reader α) : Reader (Option α) := (some <$> r) <|> pure none

/-- One or more elements with a separator between them; at most `fuel` elements. -/
def separatedUpTo {α : Type} (element : Reader α) (separator : Char) : Nat → Reader (List α)
  | 0 => failure
  | fuel + 1 => do
    let first ← element
    let rest ← (do char separator; separatedUpTo element separator fuel) <|> pure []
    return first :: rest

/-- One or more elements with a separator between them. Every element takes a character at least, so
the length of the text bounds their number. -/
def separated {α : Type} (element : Reader α) (separator : Char) : Reader (List α) := do
  separatedUpTo element separator (← get).length

/-- Nothing, at the end of the text. -/
def atEnd : Reader Unit := do guard (← get).isEmpty

end Reader

/-! ## Blanks -/

/-- The characters of comments: all but the control characters, with the tab. -/
def isText (c : Char) : Bool := c == '\t' || (0x20 ≤ c.toNat && c.toNat != 0x7f)

def isBlank (c : Char) : Bool := c == ' ' || c == '\t'

namespace Reader

/-- Spaces and tabs. -/
def blanks : Reader Unit := discard (takeWhile isBlank)

/-- The end of a line. -/
def newline : Reader Unit := char '\n' <|> word "\r\n"

/-- A comment up to the end of its line. -/
def comment : Reader Unit := do
  char '#'
  discard (takeWhile isText)

/-- The end of a line or of the text. -/
def lineEnd : Reader Unit := newline <|> atEnd

/-- What may follow on a line. -/
def lineRest : Reader Unit := do
  blanks
  discard (maybe comment)
  lineEnd

/-- Blanks, comments and ends of lines, of which the text has at most `fuel`. -/
def gapsUpTo : Nat → Reader Unit
  | 0 => return ()
  | fuel + 1 => do
    blanks
    match ← maybe (newline <|> do comment; newline) with
    | some _ => gapsUpTo fuel
    | none => return ()

/-- Blanks, comments and ends of lines. -/
def gaps : Reader Unit := do gapsUpTo ((← get).length + 1)

end Reader
end SoftToken.Toml
