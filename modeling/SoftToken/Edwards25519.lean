import SoftToken.Digest
import SoftToken.Error
import SoftToken.Modular
/-!
# Ed25519

Signatures over the curve -x² + y² = 1 + d x² y² modulo 2²⁵⁵ - 19, of the message itself or of its
SHA-512 digest with an optional context. Points are computed with in extended coordinates: (X, Y, Z, T)
stands for x = X/Z, y = Y/Z, with T = XY/Z.
-/

namespace SoftToken.Edwards25519

/-- The size of the field. -/
def p : Nat := 2 ^ 255 - 19

/-- The order of the base point. -/
def order : Nat := 2 ^ 252 + 27742317777372353535851937790883648493

/-- The constant of the curve. -/
def d : Nat := 37095705934669439343138083508754565189542113879843219016388785533085940283555

/-- A square root of -1. -/
def rootOfMinusOne : Nat := 19681161376707505956807079304988542015446066515923890162744021073123829784752

structure Point where
  x : Nat
  y : Nat
  z : Nat
  t : Nat
deriving DecidableEq, Repr

def neutral : Point := ⟨0, 1, 1, 0⟩

def sub (a b : Nat) : Nat := (a + (p - b)) % p

def add (q r : Point) : Point :=
  let a := sub q.y q.x * sub r.y r.x % p
  let b := (q.y + q.x) * (r.y + r.x) % p
  let c := 2 * (q.t * r.t % p) * d % p
  let e := 2 * q.z * r.z % p
  let f := sub b a
  let g := sub e c
  let h := (e + c) % p
  let i := (b + a) % p
  ⟨f * g % p, h * i % p, g * h % p, f * i % p⟩

/-- Adds the multiple of `q` by the lowest `bits` bits of `k` to what is doubled along the way. -/
def mulFrom (k : Nat) (q : Point) : Nat → Point → Point
  | 0, acc => acc
  | bits + 1, acc =>
    let acc := add acc acc
    mulFrom k q bits (if k.testBit bits then add acc q else acc)

def mul (k : Nat) (q : Point) : Point := mulFrom k q (Modular.bitLength k) neutral

def negate (q : Point) : Point := { q with x := sub 0 q.x, t := sub 0 q.t }

/-- The coordinate x of parity `odd` for a coordinate y, if there is one. -/
def recoverX? (y : Nat) (odd : Bool) : Option Nat :=
  let u := sub (y * y % p) 1
  let v := (d * (y * y % p) + 1) % p
  let candidate := u * (Modular.pow p v 3) % p * Modular.pow p (u * Modular.pow p v 7 % p) ((p - 5) / 8) % p
  let check := v * (candidate * candidate % p) % p
  let root? :=
    if check = u then some candidate
    else if check = sub 0 u then some (candidate * rootOfMinusOne % p)
    else none
  root?.map fun x => if (x % 2 == 1) = odd then x else sub 0 x

def ofCoordinates (x y : Nat) : Point := ⟨x, y, 1, x * y % p⟩

/-- Reads a point: the coordinate y, reduced, and the parity of x in the highest bit. -/
def decode? (b : Bytes) : Option Point :=
  let n := Bytes.toNatLE b
  let y := n % 2 ^ 255 % p
  (recoverX? y (n.testBit 255)).map fun x => ofCoordinates x y

/-- Writes a point. -/
def encode (q : Point) : Bytes :=
  let i := (Modular.inverse? p q.z).getD 0
  let x := q.x * i % p
  let y := q.y * i % p
  Bytes.ofNatLE 32 (y + if x % 2 = 1 then 2 ^ 255 else 0)

/-- The base point. -/
def base : Point :=
  ofCoordinates 15112221349535400772501151409588531511454012693041857206046113283949847762202
    46316835694926478169428394003475163141307993866256225615783033603165251855960

/-- The mode of a signature: of the message, or of its digest in a context. -/
inductive Mode where
  | pure
  | prehash (context : Bytes)
deriving DecidableEq, Repr

namespace Mode

/-- What is put in front of all hashed data. -/
def domain : Mode → Bytes
  | pure => []
  | prehash context =>
    Bytes.ofString "SigEd25519 no Ed25519 collisions" ++ [1, UInt8.ofNat context.length] ++ context

/-- What is signed for a message. -/
def digest (m : Mode) (message : Bytes) : Bytes :=
  match m with
  | pure => message
  | prehash _ => Digest.sha512.hash message

end Mode

def keyLength : Nat := 32

def signatureLength : Nat := 64

/-- A digest as a number below the order. -/
def hashScalar (b : Bytes) : Nat := Bytes.toNatLE (Digest.sha512.hash b) % order

/-- The scalar that the first half of a hashed seed gives. -/
def clamp (b : Bytes) : Nat := Bytes.toNatLE b % 2 ^ 254 / 8 * 8 + 2 ^ 254

/-- The secret scalar of a seed. -/
def secretScalar (seed : Bytes) : Nat := clamp ((Digest.sha512.hash seed).take 32)

/-- The point of the public key of a seed. -/
def publicPoint (seed : Bytes) : Point := mul (secretScalar seed) base

/-- Signs a message with the key grown from a seed. -/
def sign (seed : Bytes) (mode : Mode) (message : Bytes) : Bytes :=
  let h := Digest.sha512.hash seed
  let a := secretScalar seed
  let publicKey := encode (publicPoint seed)
  let m := mode.digest message
  let r := hashScalar (mode.domain ++ h.drop 32 ++ m)
  let point := encode (mul r base)
  let k := hashScalar (mode.domain ++ point ++ publicKey ++ m)
  point ++ Bytes.ofNatLE 32 ((r + k * a) % order)

/-- Verifies a signature by comparing its first half with the point computed from the rest. -/
def verify (publicKey : Bytes) (a : Point) (mode : Mode) (message signature : Bytes) : Bool :=
  let point := signature.take 32
  let s := Bytes.toNatLE (signature.drop 32)
  let k := hashScalar (mode.domain ++ point ++ publicKey ++ mode.digest message)
  decide (s < order) && encode (add (mul k (negate a)) (mul s base)) == point

end SoftToken.Edwards25519
