import SoftToken.Curve
import SoftToken.Hmac
import SoftToken.PrimeCurve
import SoftToken.RandomSource
/-!
# ECDSA and agreement over prime curves

A signature is the pair of numbers r and s in fixed length. The number k of a signature over the two
smaller curves comes from a deterministic generator that also takes drawn bytes in; over the largest
curve it is drawn itself.
-/

namespace SoftToken

namespace Curve

/-- The prime curve of keys of the prime curve family. -/
def prime? : Curve → Option PrimeCurve
  | p256 => some .p256
  | p384 => some .p384
  | p521 => some .p521
  | _ => none

/-- The digest of the deterministic generator of a curve; none where k is drawn. -/
def nonceDigest? : Curve → Option Digest
  | p256 => some .sha256
  | p384 => some .sha384
  | _ => none

end Curve

namespace Ecdsa

/-- The state of a deterministic generator: a key and a value. -/
structure Generator where
  digest : Digest
  key : Bytes
  value : Bytes

namespace Generator

/-- Renews key and value with a mark and more data. -/
def renew (g : Generator) (mark : UInt8) (data : Bytes) : Generator :=
  let key := Hmac.hmac g.digest g.key (g.value ++ mark :: data)
  { g with key, value := Hmac.hmac g.digest key g.value }

/-- A generator seeded with data. -/
def new (d : Digest) (seed : Bytes) : Generator :=
  ((Generator.mk d (Bytes.zeros d.outputLength) (List.replicate d.outputLength 1)).renew 0 seed).renew 1 seed

/-- The next value, and the generator after it. -/
def next (g : Generator) : Bytes × Generator :=
  let v := Hmac.hmac g.digest g.key g.value
  (v, { g with value := v }.renew 0 [])

end Generator

/-- The first number of a generator in the range of scalars, among `fuel` numbers. -/
def firstScalar? (c : PrimeCurve) : Nat → Generator → Option Nat
  | 0, _ => none
  | fuel + 1, g =>
    let (b, g) := g.next
    match c.scalar? b with
    | some k => some k
    | none => firstScalar? c fuel g

/-- The number of tries after which drawing a number in a range is given up. -/
def maxTries : Nat := 4096

/-- Draws a number below the order, with at most `fuel` requests. -/
def drawBelow (c : PrimeCurve) (accept : Nat → Bool) : Nat → Draw Nat
  | 0 => throw (.abort .randomSource)
  | fuel + 1 => do
    let k := Bytes.toNat (← Draw.bytesOrAbort c.size)
    if k < c.n && accept k then return k else drawBelow c accept fuel

/-- The number k of a signature by `d` over the truncated digest `z`. -/
def drawNonce (curve : Curve) (c : PrimeCurve) (d : Nat) (z : Bytes) : Draw Nat := do
  match curve.nonceDigest? with
  | some digest =>
    let extra ← Draw.bytesOrAbort c.size
    match firstScalar? c maxTries (.new digest (Bytes.ofNat c.size d ++ z ++ extra)) with
    | some k => return k
    | none => throw (.abort .randomSource)
  | none => drawBelow c (fun _ => true) maxTries

/-- A digest in the length of a field element: padded on the left, or its first bytes. -/
def fit (c : PrimeCurve) (digest : Bytes) : Bytes := (Bytes.padLeft c.size digest).take c.size

/-- The pair of a signature with the number k, unless one of the two is zero. -/
def pair? (c : PrimeCurve) (d k z : Nat) : Option (Nat × Nat) :=
  match c.coordinates? (c.mul k c.base), Modular.inverse? c.n k with
  | some (x, _), some i =>
    let r := x % c.n
    let s := i * (z + r * d) % c.n
    if r = 0 ∨ s = 0 then none else some (r, s)
  | _, _ => none

/-- Signs a digest. -/
def sign (curve : Curve) (value digest : Bytes) : Draw Bytes := do
  match curve.prime? with
  | none => throw (.error (.explained .curveNotSupported (.curveUnsupported curve)))
  | some c => match c.scalar? value with
    | none => throw (.error (.bare .keyHandleInvalid))
    | some d =>
      let z := fit c digest
      let k ← drawNonce curve c d z
      match pair? c d k (Bytes.toNat z) with
      | some (r, s) => return Bytes.ofNat c.size r ++ Bytes.ofNat c.size s
      | none => throw (.error (.caused .functionFailed .signaturePrimitive))

/-- Whether a pair is a signature of a digest. -/
def checkPair (c : PrimeCurve) (q : PrimeCurve.Point) (z r s : Nat) : Bool :=
  match Modular.inverse? c.n s with
  | none => false
  | some i =>
    let sum := c.add (c.mul (z * i % c.n) c.base) (c.mul (r * i % c.n) q)
    (c.coordinates? sum).any fun (x, _) => x % c.n == r

/-- Verifies a signature of a digest. -/
def verify (curve : Curve) (point digest signature : Bytes) : Except Error Bool :=
  match curve.prime? with
  | none => refuse .curveNotSupported (.curveUnsupported curve)
  | some c =>
    if signature.length ≠ 2 * c.size then fail .signatureLenRange
    else match c.decode? point with
      | none => fail .keyHandleInvalid
      | some q =>
        match c.scalar? (signature.take c.size), c.scalar? (signature.drop c.size) with
        | some r, some s => .ok (checkPair c q (Bytes.toNat (fit c digest)) r s)
        | _, _ => .ok false

/-! ## Agreement -/

/-- The first coordinate of the point two parties share. -/
def agree (c : PrimeCurve) (value peer : Bytes) : Except Error Bytes :=
  match c.scalar? value with
  | none => fail .keyHandleInvalid
  | some d => match c.decode? peer with
    | none => refuse .argumentsBad .peerPointInvalid
    | some q =>
      let x := (c.coordinates? (c.mul d q)).map (·.1)
      .ok (Bytes.ofNat c.size (x.getD 0))

/-- Draws a key pair: the private scalar and the public point. -/
def drawKeyPair (c : PrimeCurve) : Draw (Bytes × Bytes) := do
  let d ← drawBelow c (fun k => k != 0) maxTries
  return (Bytes.ofNat c.size d, c.encode (c.mul d c.base))

end Ecdsa
end SoftToken
