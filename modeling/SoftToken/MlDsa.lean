import SoftToken.Digest.Keccak
import SoftToken.Lattice.Transform
import SoftToken.RandomSource
/-!
# ML-DSA

Signatures over module lattices. A signature answers a challenge derived from the message with a short
row of polynomials; answers that would tell something about the secret are dropped and tried again
with a fresh mask. Hints let the verifier recompute the high parts of a row it knows only
approximately.
-/

namespace SoftToken.MlDsa

open SoftToken.Lattice

/-- The numbers that a parameter set fixes. -/
structure Parameters where
  /-- The number of rows of the public matrix. -/
  rows : Nat
  /-- The number of columns of the public matrix. -/
  columns : Nat
  /-- The bound of the coefficients of the secrets. -/
  secretBound : Nat
  /-- The number of coefficients of a challenge that are not zero. -/
  weight : Nat
  /-- The bits of a mask coefficient, one more than its range has. -/
  maskBits : Nat
  /-- The size of the ranges into which high parts divide the coefficients. -/
  highRange : Nat
  /-- The bits of a high part. -/
  highBits : Nat
  /-- The largest number of hints. -/
  maxHints : Nat
  /-- The length of a challenge seed. -/
  challengeSize : Nat
deriving DecidableEq, Repr

def q : Nat := 8380417

/-- The parameters of a parameter set. -/
def parameters? (set : UInt64) : Option Parameters :=
  [(1, ⟨4, 4, 2, 39, 18, (q - 1) / 44, 6, 80, 32⟩),
    (2, ⟨6, 5, 4, 49, 20, (q - 1) / 16, 4, 55, 48⟩),
    (3, ⟨8, 7, 2, 60, 20, (q - 1) / 16, 4, 75, 64⟩)].lookup set

namespace Parameters

variable (P : Parameters)

/-- The bound of the coefficients of a mask. -/
def maskBound : Nat := 2 ^ (P.maskBits - 1)

/-- The largest change that a challenge makes to a coefficient. -/
def change : Nat := P.weight * P.secretBound

/-- The bits of a coefficient of a secret. -/
def secretBits : Nat := if P.secretBound = 2 then 3 else 4

/-- The number of high parts. -/
def highParts : Nat := (q - 1) / P.highRange

/-- The length of a packed mask or answer polynomial. -/
def maskSize : Nat := 32 * P.maskBits

/-- The length of a packed secret polynomial. -/
def secretSize : Nat := 32 * P.secretBits

end Parameters

/-- The bits that are dropped from the public row. -/
def droppedBits : Nat := 13

/-- The ring of the coefficients. -/
def ring : Ring := Ring.ofRoot q 8 1753

/-! ## Coefficients -/

/-- The distance of a coefficient from zero. -/
def absolute (x : Nat) : Nat := min x (q - x)

/-- Whether all coefficients of a row are nearer to zero than a bound. -/
def within (bound : Nat) (row : List Poly) : Bool := row.all fun f => f.all fun x => absolute x < bound

/-- The high part of a coefficient, and whether the rest is positive. -/
def decompose (P : Parameters) (x : Nat) : Nat × Bool :=
  let rest := x % P.highRange
  let positive := decide (0 < rest ∧ rest ≤ P.highRange / 2)
  let high := if rest ≤ P.highRange / 2 then x / P.highRange else x / P.highRange + 1
  if high = P.highParts then (0, false) else (high, positive)

def highPart (P : Parameters) (x : Nat) : Nat := (decompose P x).1

/-- What is left of a coefficient without its high part. -/
def lowPart (P : Parameters) (x : Nat) : Nat := (x + (q - highPart P x * P.highRange)) % q

/-- The high part that a hint corrects. -/
def useHint (P : Parameters) (hint : Bool) (x : Nat) : Nat :=
  let (high, positive) := decompose P x
  if !hint then high
  else if positive then (high + 1) % P.highParts
  else (high + (P.highParts - 1)) % P.highParts

/-- Packs coefficients by their distance below `top`. -/
def packBelow (bits top : Nat) (f : Poly) : Bytes := pack bits (f.map fun x => (top + (q - x)) % q)

/-- Reads coefficients from their distance below `top`. -/
def unpackBelow (bits top : Nat) (b : Bytes) : Poly :=
  (unpack bits degree b).map fun y => (top + (q - y)) % q

def packHigh (P : Parameters) (row : List Poly) : Bytes := row.flatMap fun f => pack P.highBits (f.map (highPart P))

/-! ## Sampling -/

/-- An extendable digest. -/
def extend (input : Bytes) (len : Nat) : Bytes := Bytes.ofArray (Keccak.shake256 (Bytes.pack input) len)

/-- The coefficients below the modulus among numbers of 23 bits. -/
def acceptTriples : Bytes → List Nat
  | x :: y :: z :: r =>
    let n := x.toNat + 256 * y.toNat + 65536 * (z.toNat % 128)
    if n < q then n :: acceptTriples r else acceptTriples r
  | _ => []

/-- The number of bytes that sampling an entry of the matrix may take. -/
def entryBytes : Nat := 1008

/-- An entry of the public matrix, transformed. -/
def matrixEntry (seed : Bytes) (row column : Nat) : Poly :=
  let input := seed ++ [UInt8.ofNat column, UInt8.ofNat row]
  (acceptTriples (Bytes.ofArray (Keccak.shake128 (Bytes.pack input) entryBytes))).take degree

/-- The public matrix, row by row. -/
def matrix (P : Parameters) (seed : Bytes) : List (List Poly) :=
  (List.range P.rows).map fun r => (List.range P.columns).map fun s => matrixEntry seed r s

/-- Puts a sign at a position that the next fitting byte names, for each of the last coefficients. -/
def placeSigns : List (Nat × Bool) → Bytes → Array Nat → Array Nat
  | [], _, f => f
  | (i, minus) :: is, b, f =>
    match b.dropWhile fun j => decide (i < j.toNat) with
    | [] => f
    | j :: r => placeSigns is r ((f.setIfInBounds i (f.getD j.toNat 0)).setIfInBounds j.toNat (if minus then q - 1 else 1))

/-- The challenge that a seed gives. -/
def challenge (P : Parameters) (seed : Bytes) : Poly :=
  let b := extend seed 272
  let signs := Bytes.toNatLE (b.take 8)
  let positions := (List.range P.weight).map fun k => (degree - P.weight + k, signs.testBit k)
  (placeSigns positions (b.drop 8) (Array.replicate degree 0)).toList

/-- The mask of an attempt: a row of polynomials. -/
def mask (P : Parameters) (seed : Bytes) (start : Nat) : List Poly :=
  (List.range P.columns).map fun r =>
    unpackBelow P.maskBits P.maskBound (extend (seed ++ Bytes.ofNatLE 2 (start + r)) P.maskSize)

/-! ## Hints -/

/-- The positions of the hints of a polynomial. -/
def hintPositions (f : List Bool) : Bytes :=
  f.zipIdx.filterMap fun (h, i) => if h then some (UInt8.ofNat i) else none

/-- Packs hints: their positions, and after which position each polynomial ends. -/
def packHints (P : Parameters) (hints : List (List Bool)) : Bytes :=
  let positions := hints.map hintPositions
  let flat := positions.flatten
  let ends := (List.range P.rows).map fun i => UInt8.ofNat (positions.take (i + 1)).flatten.length
  flat ++ Bytes.zeros (P.maxHints - flat.length) ++ ends

/-- The pieces of a list between increasing ends. -/
def cutAt {α : Type} : List Nat → Nat → List α → Option (List (List α))
  | [], _, _ => some []
  | e :: es, start, xs =>
    if start ≤ e ∧ e - start ≤ xs.length then
      (cutAt es e (xs.drop (e - start))).map (xs.take (e - start) :: ·)
    else none

/-- Whether positions increase. -/
def increasing : Bytes → Bool
  | x :: y :: r => decide (x < y) && increasing (y :: r)
  | _ => true

/-- Reads hints. Positions increase within a polynomial and unused places are zero. -/
def unpackHints? (P : Parameters) (b : Bytes) : Option (List (List Bool)) :=
  let flat := b.take P.maxHints
  let ends := (b.drop P.maxHints).map (·.toNat)
  match cutAt ends 0 flat with
  | none => none
  | some positions =>
    let unused := flat.drop (ends.getLastD 0)
    if positions.all increasing && unused.all (· == 0) then
      some (positions.map fun p => (List.range degree).map fun i => p.contains (UInt8.ofNat i))
    else none

/-- The length of the random bytes of a signature. -/
def randomSize : Nat := 32

/-! ## Signatures -/

/-- A private key, with its secret rows transformed. -/
structure PrivateKey where
  matrix : List (List Poly)
  key : Bytes
  publicDigest : Bytes
  secret1 : List Poly
  secret2 : List Poly
  /-- The dropped bits of the public row. -/
  low : List Poly

/-- Reads a private key. -/
def readPrivate (P : Parameters) (b : Bytes) : PrivateKey :=
  let secrets := b.drop 128
  let secretRow := fun (count start : Nat) =>
    (pieces P.secretSize count (secrets.drop start)).map fun p =>
      ring.transform (unpackBelow P.secretBits P.secretBound p)
  let lowStart := P.secretSize * (P.columns + P.rows)
  { matrix := matrix P (b.take 32)
    key := (b.drop 32).take 32
    publicDigest := (b.drop 64).take 64
    secret1 := secretRow P.columns 0
    secret2 := secretRow P.rows (P.secretSize * P.columns)
    low := (pieces (32 * droppedBits) P.rows (secrets.drop lowStart)).map fun p =>
      ring.transform (unpackBelow droppedBits (2 ^ (droppedBits - 1)) p) }

/-- The product of the matrix and a transformed row. -/
def apply (m : List (List Poly)) (row : List Poly) : List Poly := m.map fun r => ring.dot ring.mulConstants r row

/-- One attempt at a signature, with the mask that starts at a counter. -/
def attempt? (P : Parameters) (k : PrivateKey) (digest maskSeed : Bytes) (start : Nat) : Option Bytes :=
  let y := mask P maskSeed start
  let w := (apply k.matrix (y.map ring.transform)).map ring.restore
  let seed := extend (digest ++ packHigh P w) P.challengeSize
  let c := ring.transform (challenge P seed)
  let times := fun (row : List Poly) => row.map fun f => ring.restore (ring.mulConstants c f)
  let z := List.zipWith ring.add y (times k.secret1)
  let rest := List.zipWith ring.sub w (times k.secret2)
  if !within (P.maskBound - P.change) z then none
  else if !within (P.highRange / 2 - P.change) (rest.map fun f => f.map (lowPart P)) then none
  else
    let low := times k.low
    let moved := List.zipWith ring.add rest low
    let hints := List.zipWith (List.zipWith fun a b => highPart P a != highPart P b) rest moved
    let count := hints.flatten.countP id
    if !within (P.highRange / 2) low || decide (P.maxHints < count) then none
    else some (seed ++ z.flatMap (packBelow P.maskBits P.maskBound) ++ packHints P hints)

/-- The number of attempts after which signing is given up. -/
def maxAttempts : Nat := 4096

/-- The first attempt that succeeds. -/
def firstAttempt? (P : Parameters) (k : PrivateKey) (digest maskSeed : Bytes) : Nat → Nat → Option Bytes
  | 0, _ => none
  | fuel + 1, start =>
    match attempt? P k digest maskSeed start with
    | some s => some s
    | none => firstAttempt? P k digest maskSeed fuel (start + P.columns)

/-- Signs a formatted message with 32 random bytes. -/
def sign (P : Parameters) (key message random : Bytes) : Except Failure Bytes :=
  let k := readPrivate P key
  let digest := extend (k.publicDigest ++ message) 64
  let maskSeed := extend (k.key ++ random ++ digest) 64
  match firstAttempt? P k digest maskSeed maxAttempts 0 with
  | some s => .ok s
  | none => .error (.abort .outOfRange)

/-- Verifies a signature of a formatted message. -/
def verify (P : Parameters) (key message signature : Bytes) : Bool :=
  let seed := signature.take P.challengeSize
  let packedAnswer := (signature.drop P.challengeSize).take (P.maskSize * P.columns)
  let z := (pieces P.maskSize P.columns packedAnswer).map (unpackBelow P.maskBits P.maskBound)
  match unpackHints? P (signature.drop (P.challengeSize + P.maskSize * P.columns)) with
  | none => false
  | some hints =>
    let publicRow := (pieces 320 P.rows (key.drop 32)).map fun p =>
      ring.transform (ring.scale (2 ^ droppedBits) (unpack 10 degree p))
    let digest := extend (extend key 64 ++ message) 64
    let c := ring.transform (challenge P seed)
    let left := apply (matrix P (key.take 32)) (z.map ring.transform)
    let approximate := List.zipWith (fun f g => ring.restore (ring.sub f (ring.mulConstants c g))) left publicRow
    let high := List.zipWith (List.zipWith (useHint P)) hints approximate
    within (P.maskBound - P.change) z
      && extend (digest ++ high.flatMap (pack P.highBits)) P.challengeSize == seed

end SoftToken.MlDsa
