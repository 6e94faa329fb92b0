import SoftToken.Bytes
import SoftToken.Error
/-!
# Attributes

An attribute pairs an identifier with a value of one of four kinds. The kind need not be the one
registered for the identifier; `Attribute.check` tells whether it is.
-/

namespace SoftToken

/-- The value of an attribute. -/
inductive AttributeValue where
  | bool (b : Bool)
  | number (n : UInt64)
  | string (s : String)
  | bytes (b : Bytes)
  /-- An identifier drawn when the object was made; its text is left open. -/
  | drawnId
deriving DecidableEq, Repr

namespace AttributeValue

def kind : AttributeValue → ValueKind
  | bool _ => .bool
  | number _ => .number
  | string _ | drawnId => .string
  | bytes _ => .bytes

end AttributeValue

/-- An attribute of an object or of a template. -/
structure Attribute where
  id : AttributeId
  value : AttributeValue
deriving DecidableEq, Repr

namespace Attribute

def ofBool (id : AttributeId) (b : Bool) : Attribute := ⟨id, .bool b⟩
def ofNumber (id : AttributeId) (n : UInt64) : Attribute := ⟨id, .number n⟩
def ofBytes (id : AttributeId) (b : Bytes) : Attribute := ⟨id, .bytes b⟩

/-- Refuses an attribute that is unknown or holds a value of another kind than the registered one. -/
def check (a : Attribute) : Except Error Unit :=
  match a.id.kind? with
  | none => fail .attributeTypeInvalid
  | some k => if k = a.value.kind then .ok () else refuse .attributeValueInvalid (.wrongValueKind a.id)

/-- The number an attribute holds. -/
def toNumber (a : Attribute) : Except Error UInt64 :=
  match a.value with
  | .number n => .ok n
  | _ => fail .attributeTypeInvalid

end Attribute
end SoftToken
