import SoftToken.Registry
import SoftToken.Toml.Document
/-!
# Configuration

A configuration restricts the mechanisms of the token and sets how signatures are made where the caller
has no preference. It is read from a TOML document, in which other keys are ignored and a name that no
mechanism has is refused at once.
-/

namespace SoftToken

/-- The configuration of a token. -/
structure Config where
  /-- The names of the allowed mechanisms; none if all are. -/
  mechanisms : Option (List String) := none
  hedge : HedgePreference := .randomized
deriving DecidableEq, Repr

namespace HedgePreference

/-- The preference with a name. -/
def ofName? (s : String) : Option HedgePreference :=
  if s = "randomized" then some randomized
  else if s = "deterministic" then some deterministic
  else none

/-- Whether an item is an empty array or table. -/
def isEmptyItem : Toml.Item → Bool
  | .array items => items.isEmpty
  | .tables elements => elements.isEmpty
  | .table _ entries => entries.isEmpty
  | _ => false

/-- The preference an item gives: a name, or a table whose only key is a name for something empty. -/
def ofItem? : Toml.Item → Option HedgePreference
  | .string s => ofName? s
  | .table _ [(key, item)] => if isEmptyItem item then ofName? key else none
  | _ => none

end HedgePreference

namespace Config

/-- The strings of an array. -/
def names? : Toml.Item → Option (List String)
  | .array items => items.mapM fun
    | .string s => some s
    | _ => none
  | _ => none

/-- The configuration that a document gives. -/
def ofEntries? (t : Toml.Entries) : Option Config := do
  let mechanisms ← match t.lookup "mechanisms" with
    | some item => some <$> names? item
    | none => pure none
  let hedge ← match t.lookup "hedge_preferred" with
    | some item => HedgePreference.ofItem? item
    | none => pure .randomized
  return { mechanisms, hedge }

/-- The mechanism with a name. -/
def mechanismOf (name : String) : Except Error MechanismId :=
  match MechanismId.ofName? name with
  | some m => .ok m
  | none => refuse .argumentsBad (.unknownMechanismName name)

/-- The allowed mechanisms in the order in which they are named; none if all are. -/
def allowed (c : Config) : Except Error (Option (List MechanismId)) :=
  match c.mechanisms with
  | none => .ok none
  | some names => some <$> names.mapM mechanismOf

/-- Reads a configuration. -/
def ofToml (text : String) : Except Error Config :=
  match (Toml.document? text).bind ofEntries? with
  | none => .error (.caused .argumentsBad .configText)
  | some c => do
    discard c.allowed
    return c

/-- The mechanisms that a configuration leaves. -/
def registry (c : Config) : Except Error Registry := do
  match ← c.allowed with
  | none => return .full
  | some allowed => return Registry.full.retain allowed

end Config
end SoftToken
