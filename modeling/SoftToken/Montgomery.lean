import SoftToken.Curve
import SoftToken.Modular
import SoftToken.RandomSource
/-!
# X25519 and X448

Agreement over the Montgomery curves: a private value of fixed length is cleared and set in some bits
and multiplies the coordinate u of a point, by a ladder of doublings and differential additions.
-/

namespace SoftToken

/-- The parameters of a Montgomery curve. -/
structure Montgomery where
  /-- The size of the field. -/
  p : Nat
  /-- The curve constant less two, divided by four. -/
  a24 : Nat
  /-- The length of private values and of coordinates in bytes. -/
  size : Nat
  /-- The number of bits of a scalar and of a coordinate that count. -/
  bits : Nat
  /-- Scalars are multiples of this number. -/
  cofactor : Nat

namespace Montgomery

def x25519 : Montgomery := ⟨2 ^ 255 - 19, 121665, 32, 255, 8⟩

def x448 : Montgomery := ⟨2 ^ 448 - 2 ^ 224 - 1, 39081, 56, 448, 4⟩

def sub (c : Montgomery) (a b : Nat) : Nat := (a + (c.p - b)) % c.p

/-- The state of a ladder: two points that differ by the point multiplied. -/
structure Rungs where
  x2 : Nat
  z2 : Nat
  x3 : Nat
  z3 : Nat

/-- One step: doubles the first point and adds both. -/
def step (c : Montgomery) (u : Nat) (s : Rungs) : Rungs :=
  let a := (s.x2 + s.z2) % c.p
  let aa := a * a % c.p
  let b := c.sub s.x2 s.z2
  let bb := b * b % c.p
  let e := c.sub aa bb
  let da := c.sub s.x3 s.z3 * a % c.p
  let cb := (s.x3 + s.z3) * b % c.p
  let sum := (da + cb) % c.p
  let diff := c.sub da cb
  ⟨aa * bb % c.p, e * ((aa + c.a24 * e) % c.p) % c.p, sum * sum % c.p, u * (diff * diff % c.p) % c.p⟩

def swap (s : Rungs) : Rungs := ⟨s.x3, s.z3, s.x2, s.z2⟩

/-- The steps for the lowest `bits` bits of `k`, from the highest of them down. -/
def ladder (c : Montgomery) (k u : Nat) : Nat → Rungs → Rungs
  | 0, s => s
  | bits + 1, s =>
    ladder c k u bits (if k.testBit bits then swap (c.step u (swap s)) else c.step u s)

/-- The scalar of a private value. -/
def clamp (c : Montgomery) (value : Bytes) : Nat :=
  Bytes.toNatLE value % 2 ^ (c.bits - 1) / c.cofactor * c.cofactor + 2 ^ (c.bits - 1)

/-- The coordinate of the multiple of a point by a private value. -/
def mul (c : Montgomery) (value : Bytes) (u : Nat) : Nat :=
  let s := c.ladder (c.clamp value) u c.bits ⟨1, 0, u, 1⟩
  s.x2 * Modular.pow c.p s.z2 (c.p - 2) % c.p

/-- The coordinate of the base point. -/
def base (c : Montgomery) : Nat := if c.cofactor = 8 then 9 else 5

/-- The coordinate that bytes write, without the bits that do not count. -/
def decode (c : Montgomery) (b : Bytes) : Nat := Bytes.toNatLE b % 2 ^ c.bits % c.p

/-- The public coordinate of a private value. -/
def publicValue (c : Montgomery) (value : Bytes) : Bytes := Bytes.ofNatLE c.size (c.mul value c.base)

/-- Whether agreement with a peer is refused. The smaller curve refuses a result of zero; the larger
one refuses the points of low order in their shortest writing. -/
def refuses (c : Montgomery) (peer result : Bytes) : Bool :=
  if c.cofactor = 8 then result.all (· == 0)
  else [0, 1, c.p - 1].contains (Bytes.toNatLE peer)

end Montgomery

namespace Curve

/-- The curve of keys of the Montgomery family. -/
def montgomery? : Curve → Option Montgomery
  | x25519 => some .x25519
  | x448 => some .x448
  | _ => none

end Curve

namespace Montgomery

/-- The coordinate two parties share. -/
def agree (curve : Curve) (c : Montgomery) (value peer : Bytes) : Except Error Bytes :=
  if value.length ≠ c.size then refuse .keyHandleInvalid (.agreementKeyLength curve)
  else if peer.length ≠ c.size then refuse .argumentsBad .peerKeyInvalid
  else
    let shared := Bytes.ofNatLE c.size (c.mul value (c.decode peer))
    if c.refuses peer shared then refuse .argumentsBad .peerKeyInvalid else .ok shared

/-- Draws a key pair: the private value and the public coordinate. -/
def drawKeyPair (c : Montgomery) : Draw (Bytes × Bytes) := do
  let value ← Draw.bytes c.size
  return (value, c.publicValue value)

end Montgomery
end SoftToken
