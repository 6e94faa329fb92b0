import SoftToken.KeyType
/-!
# Curves

The curves keys may be defined over: three prime curves, two Edwards curves and two Montgomery
curves. A curve fixes the key type, the size of private values and the size of public points.
-/

namespace SoftToken

/-- A curve known to the key model. -/
inductive Curve where
  | p256
  | p384
  | p521
  | ed25519
  | ed448
  | x25519
  | x448
deriving DecidableEq, Repr

namespace Curve

def name : Curve → String
  | p256 => "P256"
  | p384 => "P384"
  | p521 => "P521"
  | ed25519 => "Ed25519"
  | ed448 => "Ed448"
  | x25519 => "X25519"
  | x448 => "X448"

/-- All curves. -/
def all : List Curve := [p256, p384, p521, ed25519, ed448, x25519, x448]

/-- The type of the keys over the curve. -/
def keyType : Curve → KeyType
  | p256 | p384 | p521 => .ec
  | ed25519 | ed448 => .ecEdwards
  | x25519 | x448 => .ecMontgomery

/-- The size of a private value in bytes, which is also that of a coordinate. -/
def keySize : Curve → Nat
  | p256 | ed25519 | x25519 => 32
  | p384 => 48
  | p521 => 66
  | ed448 => 57
  | x448 => 56

/-- The size of a raw public point in bytes; points of the prime curves are uncompressed. -/
def pointSize (c : Curve) : Nat := if c.keyType = .ec then 2 * c.keySize + 1 else c.keySize

/-- The size of a public point inside a DER octet string. -/
def derPointSize (c : Curve) : Nat :=
  let len := c.pointSize
  if len ≤ 127 then len + 2 else if len ≤ 255 then len + 3 else len + 4

/-- The object identifier that names the curve. -/
def oid : Curve → List Nat
  | p256 => [1, 2, 840, 10045, 3, 1, 7]
  | p384 => [1, 3, 132, 0, 34]
  | p521 => [1, 3, 132, 0, 35]
  | x25519 => [1, 3, 101, 110]
  | x448 => [1, 3, 101, 111]
  | ed25519 => [1, 3, 101, 112]
  | ed448 => [1, 3, 101, 113]

/-- The printable name that may stand for the curve. -/
def printableName : Curve → String
  | p256 => "prime256v1"
  | p384 => "secp384r1"
  | p521 => "secp521r1"
  | ed25519 => "edwards25519"
  | ed448 => "edwards448"
  | x25519 => "curve25519"
  | x448 => "curve448"

end Curve
end SoftToken
