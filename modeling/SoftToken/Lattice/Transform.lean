import SoftToken.Lattice.Packing
import SoftToken.Modular
/-!
# Polynomials and their transform

Polynomials with 256 coefficients modulo a prime, reduced by x²⁵⁶ + 1. The transform splits that modulus
into factors along a binary tree: at each node a polynomial is replaced by its two remainders, until
the factors have degree `256 / 2 ^ depth`. Products of transformed polynomials are taken factor by
factor.
-/

namespace SoftToken.Lattice

/-- A polynomial, lowest coefficient first. -/
abbrev Poly := List Nat

/-- The number of coefficients. -/
def degree : Nat := 256

/-- A coefficient field with a root of unity. -/
structure Ring where
  /-- The prime modulus of the coefficients. -/
  q : Nat
  /-- The number of times the modulus is split. -/
  depth : Nat
  /-- The roots by which the nodes of the tree split. -/
  roots : Array Nat
  /-- The inverses of the roots. -/
  inverses : Array Nat

/-- The lowest `bits` bits of a number in reverse order. -/
def reverseBits : Nat → Nat → Nat
  | 0, _ => 0
  | bits + 1, n => n % 2 * 2 ^ bits + reverseBits bits (n / 2)

namespace Ring

/-- The ring whose nodes split by powers of `root`, in bit-reversed order. -/
def ofRoot (q depth root : Nat) : Ring :=
  let power := fun (i : Nat) => Modular.pow q root (reverseBits depth i)
  let roots := (List.range (2 ^ depth)).map power
  ⟨q, depth, roots.toArray, (roots.map fun r => Modular.pow q r (q - 2)).toArray⟩

variable (R : Ring)

def add (f g : Poly) : Poly := List.zipWith (fun a b => (a + b) % R.q) f g

def sub (f g : Poly) : Poly := List.zipWith (fun a b => (a + (R.q - b)) % R.q) f g

def scale (c : Nat) (f : Poly) : Poly := f.map fun a => c * a % R.q

def zero : Poly := List.replicate degree 0

/-- Splits the polynomial at a node `depth` more times; `half` is half the number of its coefficients. -/
def split : Nat → Nat → Nat → Poly → Poly
  | 0, _, _, f => f
  | depth + 1, half, node, f =>
    let low := f.take half
    let high := R.scale (R.roots.getD node 0) (f.drop half)
    split depth (half / 2) (2 * node) (R.add low high)
      ++ split depth (half / 2) (2 * node + 1) (R.sub low high)

/-- Joins what was split, up to a factor of two for each time. -/
def join : Nat → Nat → Nat → Poly → Poly
  | 0, _, _, f => f
  | depth + 1, half, node, f =>
    let low := join depth (half / 2) (2 * node) (f.take half)
    let high := join depth (half / 2) (2 * node + 1) (f.drop half)
    R.add low high ++ R.scale (R.inverses.getD node 0) (R.sub low high)

/-- The remainders of a polynomial. -/
def transform (f : Poly) : Poly := R.split R.depth (degree / 2) 1 f

/-- The polynomial with given remainders. -/
def restore (f : Poly) : Poly :=
  R.scale (Modular.pow R.q (2 ^ R.depth) (R.q - 2)) (R.join R.depth (degree / 2) 1 f)

/-- The product of polynomials that are split into constants. -/
def mulConstants (f g : Poly) : Poly := List.zipWith (fun a b => a * b % R.q) f g

/-- The product of polynomials that are split into pairs of coefficients, each reduced by x² less a
number of the list. -/
def mulPairs : List Nat → Poly → Poly → Poly
  | c :: cs, a0 :: a1 :: f, b0 :: b1 :: g =>
    (a0 * b0 + a1 * b1 % R.q * c) % R.q :: (a0 * b1 + a1 * b0) % R.q :: mulPairs cs f g
  | _, _, _ => []

/-- The sum of products of two rows of polynomials. -/
def dot (mul : Poly → Poly → Poly) (fs gs : List Poly) : Poly :=
  (List.zipWith mul fs gs).foldl R.add zero

end Ring
end SoftToken.Lattice
