import SoftToken.Bytes
import SoftToken.Modular
/-!
# Prime curves

The curves y² = x³ - 3x + b over a prime field, with a base point of prime order. Points are computed
with in Jacobian coordinates: (X, Y, Z) stands for x = X/Z², y = Y/Z³, and Z = 0 for the neutral point.
-/

namespace SoftToken

/-- The parameters of a curve. -/
structure PrimeCurve where
  /-- The size of the field. -/
  p : Nat
  b : Nat
  /-- The order of the base point. -/
  n : Nat
  gx : Nat
  gy : Nat
  /-- The length of a field element in bytes. -/
  size : Nat

namespace PrimeCurve

/-- The curve over 256 bits. -/
def p256 : PrimeCurve where
  p := 0xffffffff00000001000000000000000000000000ffffffffffffffffffffffff
  b := 0x5ac635d8aa3a93e7b3ebbd55769886bc651d06b0cc53b0f63bce3c3e27d2604b
  n := 0xffffffff00000000ffffffffffffffffbce6faada7179e84f3b9cac2fc632551
  gx := 0x6b17d1f2e12c4247f8bce6e563a440f277037d812deb33a0f4a13945d898c296
  gy := 0x4fe342e2fe1a7f9b8ee7eb4a7c0f9e162bce33576b315ececbb6406837bf51f5
  size := 32

/-- The curve over 384 bits. -/
def p384 : PrimeCurve where
  p := 0xfffffffffffffffffffffffffffffffffffffffffffffffffffffffffffffffeffffffff0000000000000000ffffffff
  b := 0xb3312fa7e23ee7e4988e056be3f82d19181d9c6efe8141120314088f5013875ac656398d8a2ed19d2a85c8edd3ec2aef
  n := 0xffffffffffffffffffffffffffffffffffffffffffffffffc7634d81f4372ddf581a0db248b0a77aecec196accc52973
  gx := 0xaa87ca22be8b05378eb1c71ef320ad746e1d3b628ba79b9859f741e082542a385502f25dbf55296c3a545e3872760ab7
  gy := 0x3617de4a96262c6f5d9e98bf9292dc29f8f41dbd289a147ce9da3113b5f0b8c00a60b1ce1d7e819d7a431d7c90ea0e5f
  size := 48

/-- The curve over 521 bits. -/
def p521 : PrimeCurve where
  p := 0x1ffffffffffffffffffffffffffffffffffffffffffffffffffffffffffffffffffffffffffffffffffffffffffffffffffffffffffffffffffffffffffffffffff
  b := 0x51953eb9618e1c9a1f929a21a0b68540eea2da725b99b315f3b8b489918ef109e156193951ec7e937b1652c0bd3bb1bf073573df883d2c34f1ef451fd46b503f00
  n := 0x1fffffffffffffffffffffffffffffffffffffffffffffffffffffffffffffffffa51868783bf2f966b7fcc0148f709a5d03bb5c9b8899c47aebb6fb71e91386409
  gx := 0xc6858e06b70404e9cd9e3ecb662395b4429c648139053fb521f828af606b4d3dbaa14b5e77efe75928fe1dc127a2ffa8de3348b3c1856a429bf97e7e31c2e5bd66
  gy := 0x11839296a789a3bc0045c8a5fb42c7d1bd998f54449579b446817afbd17273e662c97ee72995ef42640c550b9013fad0761353c7086a272c24088be94769fd16650
  size := 66

/-- A point in Jacobian coordinates. -/
structure Point where
  x : Nat
  y : Nat
  z : Nat
deriving DecidableEq, Repr

/-- The neutral point. -/
def neutral : Point := ⟨1, 1, 0⟩

/-- A difference in the field. -/
def sub (c : PrimeCurve) (a b : Nat) : Nat := (a + (c.p - b)) % c.p

def double (c : PrimeCurve) (q : Point) : Point :=
  if q.z = 0 then q
  else
    let delta := q.z * q.z % c.p
    let gamma := q.y * q.y % c.p
    let beta := q.x * gamma % c.p
    let alpha := 3 * (c.sub q.x delta * ((q.x + delta) % c.p) % c.p) % c.p
    let x := c.sub (alpha * alpha % c.p) (8 * beta % c.p)
    let z := 2 * q.y * q.z % c.p
    ⟨x, c.sub (alpha * c.sub (4 * beta % c.p) x % c.p) (8 * (gamma * gamma % c.p) % c.p), z⟩

def add (c : PrimeCurve) (q r : Point) : Point :=
  if q.z = 0 then r
  else if r.z = 0 then q
  else
    let zq := q.z * q.z % c.p
    let zr := r.z * r.z % c.p
    let u1 := q.x * zr % c.p
    let u2 := r.x * zq % c.p
    let s1 := q.y * (r.z * zr % c.p) % c.p
    let s2 := r.y * (q.z * zq % c.p) % c.p
    if u1 = u2 then if s1 = s2 then c.double q else neutral
    else
      let h := c.sub u2 u1
      let hh := h * h % c.p
      let hhh := h * hh % c.p
      let v := u1 * hh % c.p
      let s := c.sub s2 s1
      let x := c.sub (c.sub (s * s % c.p) hhh) (2 * v % c.p)
      ⟨x, c.sub (s * c.sub v x % c.p) (s1 * hhh % c.p), q.z * r.z % c.p * h % c.p⟩

/-- Adds the multiple of `q` by the lowest `bits` bits of `k` to what is doubled along the way. -/
def mulFrom (c : PrimeCurve) (k : Nat) (q : Point) : Nat → Point → Point
  | 0, acc => acc
  | bits + 1, acc =>
    let acc := c.double acc
    mulFrom c k q bits (if k.testBit bits then c.add acc q else acc)

/-- A multiple of a point. -/
def mul (c : PrimeCurve) (k : Nat) (q : Point) : Point := c.mulFrom k q (Modular.bitLength k) neutral

/-- The base point. -/
def base (c : PrimeCurve) : Point := ⟨c.gx, c.gy, 1⟩

/-- The coordinates of a point; the neutral point has none. -/
def coordinates? (c : PrimeCurve) (q : Point) : Option (Nat × Nat) :=
  match Modular.inverse? c.p q.z with
  | some i =>
    let i2 := i * i % c.p
    some (q.x * i2 % c.p, q.y * (i2 * i % c.p) % c.p)
  | none => none

/-- Whether coordinates are those of a point. -/
def onCurve (c : PrimeCurve) (x y : Nat) : Bool :=
  decide (x < c.p) && decide (y < c.p) && (y * y % c.p == (c.sub (x * x * x % c.p) (3 * x % c.p) + c.b) % c.p)

/-- Reads an uncompressed point. -/
def decode? (c : PrimeCurve) (b : Bytes) : Option Point :=
  match b with
  | 4 :: r =>
    let x := Bytes.toNat (r.take c.size)
    let y := Bytes.toNat (r.drop c.size)
    if r.length = 2 * c.size ∧ c.onCurve x y then some ⟨x, y, 1⟩ else none
  | _ => none

/-- Writes a point uncompressed. -/
def encode (c : PrimeCurve) (q : Point) : Bytes :=
  let (x, y) := (c.coordinates? q).getD (0, 0)
  4 :: (Bytes.ofNat c.size x ++ Bytes.ofNat c.size y)

/-- Reads a private scalar, which is neither zero nor as large as the order. -/
def scalar? (c : PrimeCurve) (b : Bytes) : Option Nat :=
  let d := Bytes.toNat b
  if 0 < d ∧ d < c.n then some d else none

end PrimeCurve
end SoftToken
