import SoftToken.Key.Kind
/-!
# Typed views of keys

A view holds the material of a key of one family. It is read off an object by `ofObject`, which
refuses keys of other families and missing material, and written back by `toObject`.
-/

namespace SoftToken

/-! ## RSA -/

/-- An RSA public key as big endian integers. -/
structure RsaPublicKey where
  modulus : Bytes
  publicExponent : Bytes
deriving DecidableEq, Repr

/-- The length in bytes of an integer without its leading zeros. -/
def integerLength (b : Bytes) : Nat := (Bytes.trimLeft b).length

namespace RsaPublicKey

def ofObject (o : Object) : Except Error RsaPublicKey := do
  match ← o.kind with
  | .rsaPublic => return ⟨← o.requireBytes .modulus, ← o.requireBytes .publicExponent⟩
  | k => throw (wrongKind "RSA public key" k)

def modulusLength (k : RsaPublicKey) : Nat := integerLength k.modulus

def toObject (k : RsaPublicKey) : Object :=
  .newKey .publicKey .rsa
    [.ofBytes .modulus k.modulus, .ofBytes .publicExponent k.publicExponent,
      .ofNumber .modulusBits (UInt64.ofNat (k.modulusLength * 8))]

end RsaPublicKey

/-- An RSA private key as big endian integers. The primes can be recovered from the exponents. -/
structure RsaPrivateKey where
  modulus : Bytes
  publicExponent : Bytes
  privateExponent : Bytes
  prime1 : Option Bytes
  prime2 : Option Bytes
deriving DecidableEq, Repr

namespace RsaPrivateKey

def ofObject (o : Object) : Except Error RsaPrivateKey := do
  match ← o.kind with
  | .rsaPrivate =>
    return ⟨← o.requireBytes .modulus, ← o.requireBytes .publicExponent,
      ← o.requireBytes .privateExponent, o.optionalBytes .prime1, o.optionalBytes .prime2⟩
  | k => throw (wrongKind "RSA private key" k)

def modulusLength (k : RsaPrivateKey) : Nat := integerLength k.modulus

def toObject (k : RsaPrivateKey) : Object :=
  .newKey .privateKey .rsa
    ([.ofBytes .modulus k.modulus, .ofBytes .publicExponent k.publicExponent,
      .ofBytes .privateExponent k.privateExponent]
      ++ (k.prime1.map (.ofBytes .prime1)).toList ++ (k.prime2.map (.ofBytes .prime2)).toList)

end RsaPrivateKey

/-! ## Elliptic curves -/

/-- The public key of an elliptic curve, with its point in raw form. -/
structure EcPublicKey where
  curve : Curve
  point : Bytes
deriving DecidableEq, Repr

namespace EcPublicKey

/-- Reads a public key of the curve family that `t` names. -/
def ofObject (o : Object) (t : KeyType) : Except Error EcPublicKey := do
  let other := fun k => Except.error (wrongKind ("public key of type " ++ hexWord t.val) k)
  let read := fun (k : KeyKind) (c : Curve) =>
    if c.keyType = t then do
      match c.decodePoint (← o.requireBytes .ecPoint) with
      | .ok p => return ⟨c, p⟩
      | .error _ => refuse .attributeValueInvalid (.malformed .ecPoint)
    else other k
  match ← o.kind with
  | .ecPublic c => read (.ecPublic c) c
  | .edwardsPublic c => read (.edwardsPublic c) c
  | .montgomeryPublic c => read (.montgomeryPublic c) c
  | k => other k

def toObject (k : EcPublicKey) : Object :=
  .newKey .publicKey k.curve.keyType
    [.ofBytes .ecParams k.curve.parameters, .ofBytes .ecPoint (k.curve.encodePoint k.point)]

end EcPublicKey

/-- The private key of an elliptic curve, as many bytes as the curve's private values have. -/
structure EcPrivateKey where
  curve : Curve
  value : Bytes
deriving DecidableEq, Repr

namespace EcPrivateKey

/-- Reads a private key of the curve family that `t` names. Short values are padded on the left. -/
def ofObject (o : Object) (t : KeyType) : Except Error EcPrivateKey := do
  let other := fun k => Except.error (wrongKind ("private key of type " ++ hexWord t.val) k)
  let read := fun (k : KeyKind) (c : Curve) =>
    if c.keyType = t then do
      let raw ← o.requireBytes .value
      if raw.length > c.keySize then refuse .attributeValueInvalid (.privateValueTooLong c)
      else return ⟨c, raw.padLeft c.keySize⟩
    else other k
  match ← o.kind with
  | .ecPrivate c => read (.ecPrivate c) c
  | .edwardsPrivate c => read (.edwardsPrivate c) c
  | .montgomeryPrivate c => read (.montgomeryPrivate c) c
  | k => other k

def toObject (k : EcPrivateKey) : Object :=
  .newKey .privateKey k.curve.keyType
    [.ofBytes .ecParams k.curve.parameters, .ofBytes .value k.value]

end EcPrivateKey

/-! ## Schemes with parameter sets -/

namespace ParameterFamily

def keyType : ParameterFamily → KeyType
  | mlKem => .mlKem
  | mlDsa => .mlDsa
  | slhDsa => .slhDsa

def publicKind : ParameterFamily → KeyKind
  | mlKem => .mlKemPublic
  | mlDsa => .mlDsaPublic
  | slhDsa => .slhDsaPublic

def privateKind : ParameterFamily → KeyKind
  | mlKem => .mlKemPrivate
  | mlDsa => .mlDsaPrivate
  | slhDsa => .slhDsaPrivate

end ParameterFamily

/-- The raw key of a scheme with parameter sets. -/
structure SetKey where
  parameterSet : UInt64
  value : Bytes
deriving DecidableEq, Repr

namespace SetKey

private def ofKind (o : Object) (expected : KeyKind) : Except Error SetKey := do
  let k ← o.kind
  if k = expected then return ⟨← o.requireNumber .parameterSet, ← o.requireBytes .value⟩
  else throw (wrongKind expected.describe k)

/-- Reads the public key of a family. -/
def ofPublic (f : ParameterFamily) (o : Object) : Except Error SetKey := ofKind o f.publicKind

/-- Reads the private key of a family. -/
def ofPrivate (f : ParameterFamily) (o : Object) : Except Error SetKey := ofKind o f.privateKind

private def toClass (k : SetKey) (f : ParameterFamily) (c : ObjectClass) : Object :=
  .newKey c f.keyType [.ofNumber .parameterSet k.parameterSet, .ofBytes .value k.value]

def toPublic (k : SetKey) (f : ParameterFamily) : Object := k.toClass f .publicKey

def toPrivate (k : SetKey) (f : ParameterFamily) : Object := k.toClass f .privateKey

end SetKey

/-! ## Secret keys -/

/-- The type and the value of a secret key. -/
structure SecretKey where
  type : KeyType
  value : Bytes
deriving DecidableEq, Repr

namespace SecretKey

def ofObject (o : Object) : Except Error SecretKey := do
  match ← o.kind with
  | .secret t => return ⟨t, ← o.requireBytes .value⟩
  | k => throw (wrongKind "secret key" k)

private def listTypes (ts : List KeyType) : String :=
  "[" ++ ", ".intercalate (ts.map fun t => hexDigits t.val) ++ "]"

/-- Reads a secret key of one of the given types. -/
def ofObjectOfTypes (o : Object) (allowed : List KeyType) : Except Error SecretKey := do
  let k ← ofObject o
  if allowed.contains k.type then return k
  else throw (wrongKind ("secret key of types " ++ listTypes allowed) (.secret k.type))

end SecretKey
end SoftToken
