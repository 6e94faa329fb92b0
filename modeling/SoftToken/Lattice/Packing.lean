import SoftToken.Bytes
/-!
# Packed coefficients

A row of small numbers is packed into bytes as the digits of one little endian number, without gaps
between them.
-/

namespace SoftToken.Lattice

/-- The lowest `count` digits of a number. -/
def digits (base : Nat) : Nat → Nat → List Nat
  | 0, _ => []
  | count + 1, n => n % base :: digits base count (n / base)

/-- The number with the given digits. -/
def ofDigits (base : Nat) : List Nat → Nat
  | [] => 0
  | d :: r => d + base * ofDigits base r

/-- The bytes of a row of numbers of `bits` bits each. -/
def pack (bits : Nat) (cs : List Nat) : Bytes :=
  Bytes.ofNatLE (bits * cs.length / 8) (ofDigits (2 ^ bits) cs)

/-- The first `count` numbers of `bits` bits each. -/
def unpack (bits count : Nat) (b : Bytes) : List Nat := digits (2 ^ bits) count (Bytes.toNatLE b)

/-- The first `count` pieces of `size` bytes each. -/
def pieces (size : Nat) : Nat → Bytes → List Bytes
  | 0, _ => []
  | count + 1, b => b.take size :: pieces size count (b.drop size)

end SoftToken.Lattice
