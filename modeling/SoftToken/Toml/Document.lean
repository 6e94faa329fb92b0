import SoftToken.Toml.Item
import SoftToken.Toml.Quoted
import SoftToken.Toml.Scalar
/-!
# Documents

The reader of TOML 1.0. A document is a sequence of lines with entries and headers; it is valid if all
lines are, and no entry or header touches what is already settled.
-/

namespace SoftToken.Toml

open Reader

/-! ## Keys and values -/

/-- The characters of keys without quotes. -/
def isKeyChar (c : Char) : Bool := c.isAlphanum || c == '-' || c == '_'

/-- One part of a dotted key, with blanks around it. -/
def keyPart : Reader String := do
  blanks
  let part ← match ← peek with
    | some '"' | some '\'' => Quoted.onLine
    | _ => takeWhile1 isKeyChar
  blanks
  return String.ofList part

/-- The depth that keys and values stay below. -/
def depthLimit : Nat := 80

/-- A key with the keys before it. -/
def key : Reader (List String × String) := do
  let parts ← separated keyPart '.'
  guard (parts.length < depthLimit)
  match parts.getLast? with
  | some last => return (parts.dropLast, last)
  | none => failure

/-- An entry, with blanks around its value. -/
def entry (value : Reader Item) : Reader Entry := do
  let (path, key) ← key
  char '='
  blanks
  let value ← value
  return ⟨path, key, value⟩

/-- The elements of an array. A comma may follow the last one. -/
def arrayItems (value : Reader Item) : Reader (List Item) := do
  let items ← (do
    let items ← separated (do gaps; let v ← value; gaps; return v) ','
    discard (maybe (char ','))
    return items) <|> pure []
  gaps
  return items

/-- The entries of a table in braces. -/
def inlineEntries (value : Reader Item) : Reader Entries := do
  let entries ← separated (do let e ← entry value; blanks; return e) ',' <|> pure []
  blanks
  match Entries.addAll [] entries with
  | some t => return t
  | none => failure

/-- A value, with at most `depth` arrays and tables inside each other. -/
def value : Nat → Reader Item
  | 0 => (.string <$> Quoted.string) <|> do Scalar.scalar; return .scalar
  | depth + 1 => do
    match ← peek with
    | some '[' =>
      char '['
      let items ← arrayItems (value depth)
      char ']'
      return .array items
    | some '\x7b' =>
      char '\x7b'
      let entries ← inlineEntries (value depth)
      char '\x7d'
      return .table .inlined entries
    | _ => (.string <$> Quoted.string) <|> do Scalar.scalar; return .scalar

/-! ## Lines -/

/-- What a header names. -/
inductive Header where
  | table (path : List String) (key : String)
  | element (path : List String) (key : String)

/-- A line that says something. -/
inductive Line where
  | entry (e : Entry)
  | header (h : Header)

def header : Reader Header :=
  (do
    word "[["
    let (path, key) ← key
    word "]]"
    return .element path key) <|>
  (do
    char '['
    let (path, key) ← key
    char ']'
    return .table path key)

/-- The lines of a document, of which there are at most `fuel`. -/
def linesUpTo : Nat → Reader (List Line)
  | 0 => failure
  | fuel + 1 => do
    blanks
    match ← peek with
    | none => return []
    | some '#' => lineRest; linesUpTo fuel
    | some '\n' | some '\r' => newline; linesUpTo fuel
    | some '[' =>
      let h ← header
      lineRest
      return .header h :: (← linesUpTo fuel)
    | some _ =>
      let e ← entry (value (depthLimit - 1))
      lineRest
      return .entry e :: (← linesUpTo fuel)

/-- The lines of a document. A byte order mark may stand at the start. -/
def lines : Reader (List Line) := do
  discard (maybe (char '\uFEFF'))
  linesUpTo ((← get).length + 1)

/-! ## Meaning -/

/-- The entries below a header. -/
structure Section where
  header : Header
  entries : List Entry

/-- Splits lines into the entries before the first header, and the sections. -/
def sections : List Line → List Entry × List Section
  | [] => ([], [])
  | .entry e :: r => let (entries, rest) := sections r; (e :: entries, rest)
  | .header h :: r => let (entries, rest) := sections r; ([], ⟨h, entries⟩ :: rest)

/-- Adds a section. A header defines a table that is new or implied, or appends to an array of tables. -/
def Entries.addSection (t : Entries) (s : Section) : Option Entries :=
  match s.header with
  | .table path key => t.place key (fun
    | none => (Entries.addAll [] s.entries).map (.table .defined)
    | some (.table .implied sub) => (Entries.addAll sub s.entries).map (.table .defined)
    | some _ => none) path
  | .element path key => t.place key (fun
    | none => (Entries.addAll [] s.entries).map fun e => .tables [e]
    | some (.tables elements) => (Entries.addAll [] s.entries).map fun e => .tables (elements ++ [e])
    | some _ => none) path

/-- The document that a text holds, if it is valid. -/
def document? (text : String) : Option Entries := do
  let (lines, _) ← lines.run text.toList
  let (entries, rest) := sections lines
  rest.foldlM Entries.addSection (← Entries.addAll [] entries)

end SoftToken.Toml
