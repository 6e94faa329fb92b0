import SoftToken.Bytes
import SoftToken.Error
/-!
# Arithmetic and indexing within bounds

Sums of lengths are machine words, a string has a first and a last index, and its length is a signed word. An operation
gives up where a sum or a product is no machine word, where a difference would be below zero, where a byte would be
shifted by its width, where an index or a range lies outside of a string, and where a string would be too long.
-/

namespace SoftToken.Checked

/-- A sum that is a machine word. -/
def add (a b : Nat) : Except Failure Nat :=
  if a + b < 2 ^ 64 then .ok (a + b) else .error (.abort .wordOverflow)

/-- A product that is a machine word. -/
def mul (a b : Nat) : Except Failure Nat :=
  if a * b < 2 ^ 64 then .ok (a * b) else .error (.abort .wordOverflow)

/-- Makes room for a string of `len` bytes. -/
def reserve (len : Nat) : Except Failure Unit := if len < 2 ^ 63 then .ok () else .error (.abort .capacity)

/-- A difference that is not below zero. -/
def sub (a b : Nat) : Except Failure Nat := if b ≤ a then .ok (a - b) else .error (.abort .wordOverflow)

/-- A byte shifted to the right, by less than its width. -/
def shiftRight (x : UInt8) (n : Nat) : Except Failure UInt8 :=
  if n < 8 then .ok (x >>> UInt8.ofNat n) else .error (.abort .wordOverflow)

/-- A position that is an index. -/
def index (i : Int) : Except Failure Nat := if 0 ≤ i then .ok i.toNat else .error (.abort .outOfRange)

/-- The byte at an index. -/
def byte (b : Bytes) (i : Nat) : Except Failure UInt8 :=
  if h : i < b.length then .ok b[i] else .error (.abort .outOfRange)

/-- The bytes from one index up to another. -/
def slice (b : Bytes) (start stop : Nat) : Except Failure Bytes :=
  if start ≤ stop ∧ stop ≤ b.length then .ok ((b.take stop).drop start) else .error (.abort .outOfRange)

/-- The string with another byte at an index. -/
def write (b : Bytes) (i : Nat) (x : UInt8) : Except Failure Bytes :=
  if i < b.length then .ok (b.set i x) else .error (.abort .outOfRange)

/-- The string with the byte at an index changed. -/
def update (b : Bytes) (i : Nat) (f : UInt8 → UInt8) : Except Failure Bytes := do write b i (f (← byte b i))

/-- The string with a part of the same length from one index up to another. -/
def copy (b : Bytes) (start stop : Nat) (part : Bytes) : Except Failure Bytes :=
  if start ≤ stop ∧ stop ≤ b.length ∧ part.length = stop - start then .ok (b.take start ++ part ++ b.drop stop)
  else .error (.abort .outOfRange)

end SoftToken.Checked
