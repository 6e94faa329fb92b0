import SoftToken.Object
/-!
# The object store

A store keeps objects under handles. Each object that is stored gets the next handle: the first one has
handle 1, the one after it 2, and so on.
-/

namespace SoftToken

/-- A store of objects. -/
structure Store where
  /-- The handle that the next object gets. -/
  nextHandle : UInt64 := 1
  /-- The objects with the handles they are found under. -/
  entries : List (UInt64 × Object) := []
deriving DecidableEq, Repr

namespace Store

/-- Puts an object under a handle. One that is already there is replaced. -/
def putEntry (handle : UInt64) (o : Object) : List (UInt64 × Object) → List (UInt64 × Object)
  | [] => [(handle, o)]
  | b :: r => if b.1 = handle then (handle, o) :: r else b :: putEntry handle o r

def size (s : Store) : Nat := s.entries.length

def isEmpty (s : Store) : Bool := s.size == 0

/-- Stores a copy of an object under the next handle, whatever handle it had. The counter is a machine word and goes
around after the largest one. -/
def insert (s : Store) (o : Object) : Store × UInt64 :=
  (⟨s.nextHandle + 1, putEntry s.nextHandle (o.setHandle s.nextHandle) s.entries⟩, s.nextHandle)

/-- The object with a handle. -/
def find? (s : Store) (handle : UInt64) : Option Object := s.entries.lookup handle

/-- The object with a handle, or an error. -/
def find (s : Store) (handle : UInt64) : Except Error Object :=
  match s.find? handle with
  | some o => .ok o
  | none => refuse .objectHandleInvalid (.unknownHandle handle)

end Store
end SoftToken
