/-!
# Modular arithmetic

Powers and inverses modulo a number, and the integer square root.
-/

namespace SoftToken.Modular

/-- The product of `acc` and `base ^ e` modulo `m`, by repeated squaring. -/
def powFrom (m base e acc : Nat) : Nat :=
  if _ : e = 0 then acc % m
  else powFrom m (base * base % m) (e / 2) (if e % 2 = 1 then acc * base % m else acc)
termination_by e
decreasing_by omega

/-- A power modulo `m`. -/
def pow (m base e : Nat) : Nat := powFrom m (base % m) e 1

/-- The steps of the extended Euclidean algorithm: the last divisor and its factor. -/
def euclid (r0 r1 : Nat) (t0 t1 : Int) : Nat × Int :=
  if _ : r1 = 0 then (r0, t0)
  else euclid r1 (r0 % r1) t1 (t0 - (r0 / r1 : Nat) * t1)
termination_by r1
decreasing_by exact Nat.mod_lt _ (by omega)

/-- The inverse of `a` modulo `m`, if they have no common divisor. -/
def inverse? (m a : Nat) : Option Nat :=
  let (g, t) := euclid m (a % m) 0 1
  if g = 1 then some (t % m).toNat else none

/-- The bits of a number, counted without leading zeros. -/
def bitLength (n : Nat) : Nat := if n = 0 then 0 else n.log2 + 1

/-- Newton steps towards the square root from above, `fuel` of them at most. -/
def sqrtFrom (n : Nat) : Nat → Nat → Nat
  | 0, x => x
  | fuel + 1, x =>
    let y := (x + n / x) / 2
    if y < x then sqrtFrom n fuel y else x

/-- The largest number whose square is at most `n`. -/
def sqrt (n : Nat) : Nat :=
  let bits := bitLength n
  if n = 0 then 0 else sqrtFrom n (bits + 8) (2 ^ ((bits + 1) / 2))

end SoftToken.Modular
