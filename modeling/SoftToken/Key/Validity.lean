import SoftToken.Key.View
/-!
# Valid keys

A key object is valid if its material is there and fits its type. Every other object is refused with
the code of an invalid attribute value.
-/

namespace SoftToken.Object

private def invalid {α : Type} (r : Reason) : Except Error α := refuse .attributeValueInvalid r

/-- Checks that a key has the size its parameter set gives. -/
def validateSet (o : Object) (f : ParameterFamily) (size : ParameterSizes → Nat) : Except Error Unit := do
  let set ← o.requireNumber .parameterSet
  match f.sizes? set with
  | none => invalid (.unknownParameterSet f set)
  | some sizes =>
    let len := (← o.requireBytes .value).length
    if len = size sizes then return ()
    else invalid (.keyLengthMismatch f len set)

/-- Checks the attributes of a key object against its kind. -/
def validate (o : Object) : Except Error Unit := do
  match o.kind with
  | .error e => throw (.wrapping .attributeValueInvalid e)
  | .ok k => match k with
    | .rsaPublic => discard (RsaPublicKey.ofObject o)
    | .rsaPrivate => discard (RsaPrivateKey.ofObject o)
    | .ecPublic c | .edwardsPublic c | .montgomeryPublic c => discard (EcPublicKey.ofObject o c.keyType)
    | .ecPrivate c | .edwardsPrivate c | .montgomeryPrivate c => discard (EcPrivateKey.ofObject o c.keyType)
    | .mlKemPublic => o.validateSet .mlKem (·.publicKey)
    | .mlKemPrivate => o.validateSet .mlKem (·.privateKey)
    | .mlDsaPublic => o.validateSet .mlDsa (·.publicKey)
    | .mlDsaPrivate => o.validateSet .mlDsa (·.privateKey)
    | .slhDsaPublic => o.validateSet .slhDsa (·.publicKey)
    | .slhDsaPrivate => o.validateSet .slhDsa (·.privateKey)
    | .secret t =>
      let len := match o.getBytes .value with
        | .ok v => v.length
        | .error _ => 0
      if t.allowsLength len then return () else invalid (.secretLengthInvalid len t)

end SoftToken.Object
