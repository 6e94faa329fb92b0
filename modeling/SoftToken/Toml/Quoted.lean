import SoftToken.Toml.Reader
/-!
# Strings

Basic strings stand in double quotes and know escapes, literal strings stand in single quotes and hold
what they show. Three quotes open a string that may run over lines; its first line end does not count,
and up to two quotes may stand before the three that close it. Line ends are read as line feeds.
-/

namespace SoftToken.Toml.Quoted

/-- The character with a code given by hexadecimal digits. -/
def codePoint? (digits : List Char) : Option Char :=
  let value := fun (c : Char) =>
    if c.isDigit then some (c.toNat - '0'.toNat)
    else if 'a' ≤ c ∧ c ≤ 'f' then some (c.toNat - 'a'.toNat + 10)
    else if 'A' ≤ c ∧ c ≤ 'F' then some (c.toNat - 'A'.toNat + 10)
    else none
  let code := digits.foldlM (fun n c => do return 16 * n + (← value c)) 0
  code.bind fun n => if n.isValidChar then some (Char.ofNat n) else none

/-- The character that a letter stands for after a backslash. -/
def escaped? : Char → Option Char
  | 'b' => some '\x08'
  | 't' => some '\t'
  | 'n' => some '\n'
  | 'f' => some '\x0c'
  | 'r' => some '\r'
  | '"' => some '"'
  | '\\' => some '\\'
  | _ => none

/-- Puts a character before the content that a reader found. -/
def before (c : Char) (r : Option (List Char × List Char)) : Option (List Char × List Char) :=
  r.map fun (content, rest) => (c :: content, rest)

/-- The content of a basic string and what follows its closing quote. -/
def basicBody : List Char → Option (List Char × List Char)
  | [] => none
  | '"' :: r => some ([], r)
  | '\\' :: 'u' :: a :: b :: c :: d :: r => do before (← codePoint? [a, b, c, d]) (basicBody r)
  | '\\' :: 'U' :: a :: b :: c :: d :: e :: f :: g :: h :: r => do
    before (← codePoint? [a, b, c, d, e, f, g, h]) (basicBody r)
  | '\\' :: c :: r => do before (← escaped? c) (basicBody r)
  | c :: r => if isText c && c != '\\' then before c (basicBody r) else none

/-- Whether a line ends after blanks. -/
def endsLine : List Char → Bool
  | '\n' :: _ => true
  | '\r' :: '\n' :: _ => true
  | c :: r => isBlank c && endsLine r
  | [] => false

/-- The quotes that stand before the closing ones, of which `quotes` and then `rest` are left. -/
def closing (quote : Char) : List Char → List Char × List Char
  | a :: b :: r =>
    if a = quote then (if b = quote then ([a, b], r) else ([a], b :: r)) else ([], a :: b :: r)
  | [a] => if a = quote then ([a], []) else ([], [a])
  | [] => ([], [])

/-- The content of a basic string over lines. A backslash at the end of a line skips blanks and line
ends up to the next character, which is what `skipping` says. -/
def basicLines (skipping : Bool) : List Char → Option (List Char × List Char)
  | [] => none
  | '"' :: '"' :: '"' :: r => some (closing '"' r)
  | '\r' :: '\n' :: r => if skipping then basicLines true r else before '\n' (basicLines false r)
  | '\n' :: r => if skipping then basicLines true r else before '\n' (basicLines false r)
  | '\\' :: 'u' :: a :: b :: c :: d :: r => do before (← codePoint? [a, b, c, d]) (basicLines false r)
  | '\\' :: 'U' :: a :: b :: c :: d :: e :: f :: g :: h :: r => do
    before (← codePoint? [a, b, c, d, e, f, g, h]) (basicLines false r)
  | '\\' :: c :: r =>
    match escaped? c with
    | some e => before e (basicLines false r)
    | none => if isBlank c && endsLine r || c == '\n' then basicLines true r
      else if c == '\r' && r.head? == some '\n' then basicLines true r
      else none
  | c :: r =>
    if isBlank c && skipping then basicLines true r
    else if isText c && c != '\\' then before c (basicLines false r)
    else none

/-- The content of a literal string over lines. -/
def literalLines : List Char → Option (List Char × List Char)
  | [] => none
  | '\'' :: '\'' :: '\'' :: r => some (closing '\'' r)
  | '\r' :: '\n' :: r => before '\n' (literalLines r)
  | c :: r => if isText c || c == '\n' then before c (literalLines r) else none

/-- A string on one line in the quotes of its kind. -/
def onLine : Reader (List Char) := do
  match ← Reader.peek with
  | some '"' => do
    Reader.char '"'
    basicBody
  | _ => do
    Reader.char '\''
    let content ← Reader.takeWhile fun c => isText c && c != '\''
    Reader.char '\''
    return content

/-- A string over lines. -/
def overLines : Reader (List Char) :=
  (do
    Reader.word "\"\"\""
    discard (Reader.maybe Reader.newline)
    basicLines false) <|>
  (do
    Reader.word "'''"
    discard (Reader.maybe Reader.newline)
    literalLines)

/-- A string. -/
def string : Reader String := do return String.ofList (← overLines <|> onLine)

end SoftToken.Toml.Quoted
