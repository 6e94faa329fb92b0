import SoftToken.MechanismFamily
/-!
# The registry of mechanisms

The registry holds the available mechanisms in the order of their numbers, each with its family. The
full registry has the mechanisms of all families; `retain` restricts it. An operation is made only for a
mechanism that is registered and supports it.
-/

namespace SoftToken

/-- The available mechanisms with their families, in increasing order. -/
structure Registry where
  entries : List (MechanismId × MechanismFamily) := []
deriving DecidableEq, Repr

namespace Registry

/-- Puts a mechanism in its place. One that is already there changes its family. -/
def insertEntry (e : MechanismId × MechanismFamily) :
    List (MechanismId × MechanismFamily) → List (MechanismId × MechanismFamily)
  | [] => [e]
  | b :: r =>
    if e.1.val < b.1.val then e :: b :: r
    else if e.1.val = b.1.val then e :: r
    else b :: insertEntry e r

/-- Registers a mechanism. -/
def insert (g : Registry) (m : MechanismId) (f : MechanismFamily) : Registry :=
  ⟨insertEntry (m, f) g.entries⟩

/-- The registry without mechanisms. -/
def empty : Registry := {}

/-- Registers all mechanisms of a family. -/
def insertFamily (g : Registry) (f : MechanismFamily) : Registry :=
  f.mechanisms.foldl (fun g m => g.insert m f) g

/-- The registry of all mechanisms. -/
def full : Registry := MechanismFamily.all.foldl insertFamily empty

/-- Drops the mechanisms that are not allowed. -/
def retain (g : Registry) (allowed : List MechanismId) : Registry :=
  ⟨g.entries.filter fun e => allowed.contains e.1⟩

def size (g : Registry) : Nat := g.entries.length

def isEmpty (g : Registry) : Bool := g.entries.isEmpty

/-- The registered mechanisms, in increasing order. -/
def toList (g : Registry) : List MechanismId := g.entries.map (·.1)

def find? (g : Registry) (m : MechanismId) : Option MechanismFamily := g.entries.lookup m

/-- What is registered about a mechanism. -/
def info? (g : Registry) (m : MechanismId) : Option MechanismInfo := (g.find? m).map (·.info)

/-- The family of a mechanism that must be available. -/
def find (g : Registry) (m : MechanismId) : Except Error MechanismFamily :=
  match g.find? m with
  | some f => .ok f
  | none => refuse .mechanismInvalid (.mechanismUnavailable m)

/-- The family of a mechanism that must support an operation. -/
def findFor (g : Registry) (m : MechanismId) (op : Operation) : Except Error MechanismFamily := do
  let f ← g.find m
  if f.info.supports op then return f else refuse .mechanismInvalid (.operationUnsupported m)

/-! ## Operations -/

/-- An encapsulation with a mechanism for keys of the type of `key`. -/
def encapsulator (g : Registry) (m : Mechanism) (key : Object) : Except Error Encapsulator := do
  let f ← g.findFor m.id .encapsulate
  match key.getNumber .keyType with
  | .error _ => fail .keyHandleInvalid
  | .ok type => f.encapsulator m ⟨type⟩

/-- A signature method with a mechanism. -/
def signatureMethod (g : Registry) (preference : HedgePreference) (m : Mechanism) :
    Except Error SignatureMethod := do
  (← g.findFor m.id .sign).signatureMethod m preference

/-- A derivation with a mechanism; key handles in its parameters are looked up in `store`. -/
def derivationGenerator (g : Registry) (m : Mechanism) (store : Store) :
    Except Error DerivationGenerator := do
  (← g.findFor m.id .derive).derivationGenerator m store

end Registry
end SoftToken
