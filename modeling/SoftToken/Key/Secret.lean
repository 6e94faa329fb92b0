import SoftToken.BlockCipher
import SoftToken.Digest
import SoftToken.Key.Validity
/-!
# New secret keys

A template says what a new secret key is to look like: its type, perhaps its length, and attributes
that override the defaults. `SecretTemplate.ofAttributes` accepts templates a secret key can have,
`SecretTemplate.build` makes the key from computed material.

Material that is too long loses its last bytes, material that is too short is refused. The length and
the check value always follow from the material, never from the template.
-/

namespace SoftToken

namespace Object

/-- The check value of a secret: the start of an encrypted zero block where the type has a cipher, the
start of a SHA-1 digest otherwise. -/
def checkValue (t : KeyType) (value : Bytes) : Bytes :=
  let encryptor := (BlockCipher.ofKeyType? t).bind fun c => c.encryptor? value
  let full := match encryptor with
    | some e => e (Bytes.zeros BlockCipher.blockSize)
    | none => Digest.sha1.hash value
  full.take 3

/-- Recomputes the attributes that follow from the value of a secret key. -/
def recompute (o : Object) : Except Error Object := do
  let t : KeyType := ⟨← o.getNumber .keyType⟩
  let value ← o.getBytes .value
  return (o.put (.ofNumber .valueLen (UInt64.ofNat value.length))).put
    (.ofBytes .checkValue (checkValue t value))

end Object

/-- What a new secret key is to look like. -/
structure SecretTemplate where
  type : KeyType
  requestedLength : Option Nat
  /-- The attributes that replace defaults, in template order. -/
  overrides : List Attribute
deriving DecidableEq, Repr

namespace SecretTemplate

/-- The attributes that a template never passes on: they are fixed or computed. -/
def reserved : List AttributeId := [.classId, .keyType, .valueLen, .checkValue, .uniqueId]

/-- The flags of a new key before the template. -/
def defaults : List (AttributeId × Bool) :=
  [(.token, false), (.privateObject, true), (.modifiable, true), (.copyable, true),
    (.destroyable, true), (.sensitive, false), (.extractable, true), (.isLocal, false),
    (.derive, false), (.encrypt, false), (.decrypt, false), (.sign, false), (.verify, false),
    (.wrap, false), (.unwrap, false), (.encapsulate, false), (.decapsulate, false)]

/-- What a scan of the template has found so far. -/
structure Scan where
  type : KeyType := .genericSecret
  requestedLength : Option Nat := none
deriving DecidableEq, Repr

private def inconsistent {α : Type} (r : Reason) : Except Error α := refuse .templateInconsistent r

/-- Takes in one attribute of a template. -/
def Scan.step (s : Scan) (a : Attribute) : Except Error Scan := do
  match a.check with
  | .error e => throw (.wrapping .templateInconsistent e)
  | .ok () => pure ()
  if a.id = .classId then
    if ObjectClass.mk (← a.toNumber) = .secretKey then return s else inconsistent .templateClass
  else if a.id = .keyType then return { s with type := ⟨← a.toNumber⟩ }
  else if a.id = .value then inconsistent .templateHasValue
  else if a.id = .valueLen then return { s with requestedLength := some (← a.toNumber).toNat }
  else return s

/-- Reads the template of a secret key. -/
def ofAttributes (as : List Attribute) : Except Error SecretTemplate := do
  let s ← as.foldlM Scan.step {}
  if !s.type.isSecret then inconsistent (.notASecretType s.type)
  else match s.type.secretLength?, s.requestedLength with
    | some required, some requested =>
      if required = requested then pure () else inconsistent (.lengthConflict requested required)
    | _, _ => pure ()
  return ⟨s.type, s.requestedLength, as.filter fun a => !reserved.contains a.id⟩

/-- The template of an operation, without which no key is made. -/
def require : Option SecretTemplate → Except Error SecretTemplate
  | some t => .ok t
  | none => fail .operationNotInitialized

/-- The length the secret must have: the one its type fixes, or else the requested one. -/
def requiredLength (t : SecretTemplate) : Option Nat := t.type.secretLength?.or t.requestedLength

/-- The length below which a secret is refused. -/
def minimalLength (t : SecretTemplate) : Nat := t.requiredLength.getD t.type.minSecretLength

/-- Cuts a secret to the required length; one that is too short is refused. -/
def reconcile (t : SecretTemplate) (secret : Bytes) : Except Error Bytes :=
  match t.requiredLength with
  | some required =>
    if secret.length < required then
      refuse .keySizeRange (.secretBelowRequired secret.length required)
    else .ok (secret.take required)
  | none =>
    if secret.length < t.type.minSecretLength then
      refuse .keySizeRange (.secretBelowMinimum secret.length t.type.minSecretLength)
    else .ok secret

/-- The attributes of a new key apart from what follows from them: defaults, overrides, the value. -/
def initialObject (t : SecretTemplate) (value : Bytes) : Object :=
  let o := (Object.new .secretKey).put (.ofNumber .keyType t.type.val)
  let o := defaults.foldl (fun o (id, b) => o.put (.ofBool id b)) o
  let o := t.overrides.foldl Object.put o
  (o.put (.ofBytes .value value)).generateUnique

/-- Makes the key that holds a secret. -/
def build (t : SecretTemplate) (secret : Bytes) : Except Error Object := do
  let o := t.initialObject (← t.reconcile secret)
  ((o.put (.ofBool .alwaysSensitive o.sensitive)).put (.ofBool .neverExtractable !o.extractable)).recompute

end SecretTemplate
end SoftToken
