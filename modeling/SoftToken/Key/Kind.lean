import SoftToken.Key.Curve
/-!
# The kind of a key object

The kind follows from the class, the key type and, for elliptic curves, the curve parameters. An
object that is no supported key is refused with the reason why.
-/

namespace SoftToken

namespace Object

/-- The curve of an elliptic curve key, which must belong to the family the key type names. -/
def curveOfType (o : Object) (t : KeyType) : Except Error Curve :=
  match o.getBytes .ecParams with
  | .error _ => refuse .attributeValueInvalid (.missing .ecParams)
  | .ok params => do
    let c ← Curve.ofParameters params
    if c.keyType = t then return c
    else refuse .attributeValueInvalid (.curveMismatch c t)

/-- The kind of an asymmetric key of type `t`, public or private. -/
def pairKind (o : Object) (t : KeyType) (isPublic : Bool) : Except Error KeyKind :=
  let pick := fun (pub priv : KeyKind) => if isPublic then pub else priv
  if t = .rsa then .ok (pick .rsaPublic .rsaPrivate)
  else if t = .ec then do
    let c ← o.curveOfType t
    return pick (.ecPublic c) (.ecPrivate c)
  else if t = .ecEdwards then do
    let c ← o.curveOfType t
    return pick (.edwardsPublic c) (.edwardsPrivate c)
  else if t = .ecMontgomery then do
    let c ← o.curveOfType t
    return pick (.montgomeryPublic c) (.montgomeryPrivate c)
  else if t = .mlKem then .ok (pick .mlKemPublic .mlKemPrivate)
  else if t = .mlDsa then .ok (pick .mlDsaPublic .mlDsaPrivate)
  else if t = .slhDsa then .ok (pick .slhDsaPublic .slhDsaPrivate)
  else refuse .keyHandleInvalid (.unsupportedKeyType t)

/-- The kind of a key object. -/
def kind (o : Object) : Except Error KeyKind :=
  match o.getNumber .keyType with
  | .error _ => refuse .keyHandleInvalid (.notAKey o.cls)
  | .ok n =>
    let t : KeyType := ⟨n⟩
    if o.cls = .publicKey then o.pairKind t true
    else if o.cls = .privateKey then o.pairKind t false
    else if o.cls = .secretKey then
      if t.isSecret then .ok (.secret t) else refuse .keyHandleInvalid (.unsupportedSecretType t)
    else refuse .keyHandleInvalid (.unsupportedClass o.cls)

/-- The kind of a key that `accept` takes and whose usage flag is set. -/
def bind (o : Object) (m : MechanismId) (usage : AttributeId) (expected : String)
    (accept : KeyKind → Bool) : Except Error KeyKind := do
  let k ← o.kind
  if accept k then
    o.checkPermission usage
    return k
  else refuse .keyHandleInvalid (.keyRequired m expected)

/-- The bytes of an attribute that must be there and not be empty. -/
def requireBytes (o : Object) (id : AttributeId) : Except Error Bytes :=
  match o.getBytes id with
  | .ok (x :: r) => .ok (x :: r)
  | _ => refuse .attributeValueInvalid (.missingOrEmpty id)

/-- The number of an attribute that must be there. -/
def requireNumber (o : Object) (id : AttributeId) : Except Error UInt64 :=
  match o.getNumber id with
  | .ok n => .ok n
  | .error _ => refuse .attributeValueInvalid (.missing id)

/-- The bytes of an attribute; absent and empty are the same. -/
def optionalBytes (o : Object) (id : AttributeId) : Option Bytes :=
  match o.getBytes id with
  | .ok (x :: r) => some (x :: r)
  | _ => none

/-- A key object that has its class, its type and an identifier, then `attributes`. -/
def newKey (c : ObjectClass) (t : KeyType) (attributes : List Attribute) : Object :=
  attributes.foldl put (((new c).put (.ofNumber .keyType t.val)).generateUnique)

end Object

/-- The error of a view over a key of another kind. -/
def wrongKind (expected : String) (found : KeyKind) : Error :=
  .explained .keyHandleInvalid (.wrongKind expected found)

end SoftToken
