import SoftToken.Attribute
/-!
# Objects

An object is a list of attributes, at most one for each identifier, in the order in which they were
first set. Its class is also kept apart, and an object that ever had a class that holds secrets stays
marked for wiping.
-/

namespace SoftToken

/-- A container of attributes. -/
structure Object where
  /-- The handle under which the object is stored, zero until then. -/
  handle : UInt64 := 0
  cls : ObjectClass
  attributes : List Attribute
  /-- Whether the values must be wiped when the object goes away. -/
  wipe : Bool
deriving DecidableEq, Repr

/-- Puts `a` in the place of the first attribute with its identifier, or at the end. -/
def upsertAttribute (a : Attribute) : List Attribute → List Attribute
  | [] => [a]
  | b :: r => if b.id = a.id then a :: r else b :: upsertAttribute a r

namespace Object

/-- An object that has nothing but its class. -/
def new (c : ObjectClass) : Object :=
  { cls := c, attributes := [.ofNumber .classId c.val], wipe := c.holdsSecret }

/-- The value of an attribute, if the object has it. -/
def value? (o : Object) (id : AttributeId) : Option AttributeValue :=
  (o.attributes.find? fun a => a.id == id).map (·.value)

/-- Sets an attribute whose identifier is not that of the class. -/
def put (o : Object) (a : Attribute) : Object := { o with attributes := upsertAttribute a o.attributes }

/-- Sets an attribute. The class takes a number only. -/
def set (o : Object) (a : Attribute) : Except Error Object := do
  if a.id = .classId then
    let c : ObjectClass := ⟨← a.toNumber⟩
    return { o.put a with cls := c, wipe := o.wipe || c.holdsSecret }
  else return o.put a

/-- Sets attributes from left to right. -/
def setAll (o : Object) (as : List Attribute) : Except Error Object := as.foldlM set o

/-- An object with the given attributes, each of its registered kind; the class must be among them. -/
def ofAttributes (as : List Attribute) : Except Error Object := do
  match as.find? fun a => a.id == .classId with
  | none => fail .templateInconsistent
  | some a =>
    as.foldlM (fun o b => do b.check; o.set b) (new ⟨← a.toNumber⟩)

/-- Gives an object an identifier of its own unless it has one. -/
def generateUnique (o : Object) : Object :=
  if (o.value? .uniqueId).isSome then o
  else { o with attributes := o.attributes ++ [⟨.uniqueId, .drawnId⟩] }

/-- Gives an object the handle under which it is stored. -/
def setHandle (o : Object) (handle : UInt64) : Object := { o with handle := handle }

/-! ## Typed access -/

/-- The value of an attribute that must be there and be of the kind that `pick` takes. -/
def typed {α : Type} (o : Object) (id : AttributeId) (pick : AttributeValue → Option α) :
    Except Error α :=
  match o.value? id with
  | none => .error (.notFound (toString id.val.toNat))
  | some v => match pick v with
    | some a => .ok a
    | none => fail .attributeTypeInvalid

def getBool (o : Object) (id : AttributeId) : Except Error Bool :=
  o.typed id fun | .bool b => some b | _ => none

def getNumber (o : Object) (id : AttributeId) : Except Error UInt64 :=
  o.typed id fun | .number n => some n | _ => none

/-- The text an attribute holds, as a value because a drawn identifier has no text of its own. -/
def getString (o : Object) (id : AttributeId) : Except Error AttributeValue :=
  o.typed id fun v => if v.kind = .string then some v else none

def getBytes (o : Object) (id : AttributeId) : Except Error Bytes :=
  o.typed id fun | .bytes b => some b | _ => none

/-! ## Flags -/

/-- The truth of a flag, or `default` if it is absent or no truth value. -/
def flag (o : Object) (id : AttributeId) (default : Bool) : Bool :=
  match o.value? id with
  | some (.bool b) => b
  | _ => default

def isLocal (o : Object) : Bool := o.flag .isLocal false
def alwaysSensitive (o : Object) : Bool := o.flag .alwaysSensitive false
def neverExtractable (o : Object) : Bool := o.flag .neverExtractable false
def alwaysAuthenticate (o : Object) : Bool := o.flag .alwaysAuthenticate false

/-- Private and secret keys are sensitive unless they say otherwise, other objects never are. -/
def sensitive (o : Object) : Bool := o.cls.holdsSecret && o.flag .sensitive true

/-- Private and secret keys are extractable only if they say so, other objects always are. -/
def extractable (o : Object) : Bool := !o.cls.holdsSecret || o.flag .extractable false

/-- Refuses a key whose usage flag is not set. -/
def checkPermission (o : Object) (usage : AttributeId) : Except Error Unit :=
  if o.flag usage false then .ok () else refuse .keyFunctionNotPermitted (.usageNotSet usage)

end Object
end SoftToken
