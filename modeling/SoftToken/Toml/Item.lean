/-!
# Items of a document

A document is a table of items. How a table came about decides what may be added to it later: a table
that was only implied may still be defined, and a table made by dotted keys takes more dotted keys, but
no table is defined twice and no value is replaced.
-/

namespace SoftToken.Toml

/-- How a table came about. -/
inductive TableOrigin where
  /-- It was named on the way to another one in a header. -/
  | implied
  /-- It was made by a dotted key. -/
  | dotted
  /-- It has a header of its own. -/
  | defined
  /-- It was written in braces. -/
  | inlined
deriving DecidableEq, Repr

/-- What a key stands for. -/
inductive Item where
  | string (text : String)
  /-- A number, a truth value or a time. -/
  | scalar
  | array (items : List Item)
  | table (origin : TableOrigin) (entries : List (String × Item))
  /-- An array of tables with headers. -/
  | tables (elements : List (List (String × Item)))

/-- The items of a table by their keys, in the order in which they came. -/
abbrev Entries := List (String × Item)

namespace Entries

/-- Puts an item in the place of the one with its key, or at the end. -/
def put (key : String) (item : Item) : Entries → Entries
  | [] => [(key, item)]
  | e :: r => if e.1 = key then (key, item) :: r else e :: put key item r

/-- Changes the last table of an array of tables. -/
def changeLast (f : Entries → Option Entries) (elements : List Entries) : Option Item := do
  let last ← elements.getLast?
  return .tables (elements.dropLast ++ [← f last])

/-- Adds a value under a key below dotted keys. The table it goes to must be the table at hand, or one
made by dotted keys. -/
def add (key : String) (value : Item) : List String → Entries → Option Entries
  | [], t => if (t.lookup key).isSome then none else some (t ++ [(key, value)])
  | k :: path, t =>
    match t.lookup k with
    | none => do return t.put k (.table .dotted (← add key value path []))
    | some (.table .dotted sub) => do return t.put k (.table .dotted (← add key value path sub))
    | some (.table .implied sub) =>
      if path.isEmpty then none else do return t.put k (.table .implied (← add key value path sub))
    | some (.tables elements) =>
      if path.isEmpty then none else do return t.put k (← changeLast (add key value path) elements)
    | some _ => none

/-- Changes what a header names. Tables on the way are implied; of an array of tables, the last one is
meant. -/
def place (key : String) (fill : Option Item → Option Item) : List String → Entries → Option Entries
  | [], t => do return t.put key (← fill (t.lookup key))
  | k :: path, t =>
    match t.lookup k with
    | none => do return t.put k (.table .implied (← place key fill path []))
    | some (.table .inlined _) => none
    | some (.table origin sub) => do return t.put k (.table origin (← place key fill path sub))
    | some (.tables elements) => do return t.put k (← changeLast (place key fill path) elements)
    | some _ => none

end Entries

/-- A value under a dotted key: the keys before the last, the last one and the value. -/
structure Entry where
  path : List String
  key : String
  value : Item

/-- Adds entries to a table in turn. -/
def Entries.addAll (t : Entries) (entries : List Entry) : Option Entries :=
  entries.foldlM (fun t e => t.add e.key e.value e.path) t

end SoftToken.Toml
