/-!
# Byte strings

A byte string is a list of bytes. Integers are written big endian (`ofNat`, `toNat`) or little
endian (`ofNatLE`, `toNatLE`) in a fixed number of bytes.
-/

-- Powers of natural numbers are core's, also where another instance is in scope.
attribute [instance (2000), default_instance 100000] instPowNat

namespace SoftToken

/-- A byte string. -/
abbrev Bytes := List UInt8

namespace Bytes

/-- The bytes of a packed array, front to back. -/
def ofArray (a : ByteArray) : Bytes := a.data.toList

/-- A byte string packed for word-level work. -/
def pack (b : Bytes) : ByteArray := ⟨b.toArray⟩

/-- The exclusive or of two strings, as long as the shorter one. -/
def xor (a b : Bytes) : Bytes := List.zipWith (· ^^^ ·) a b

/-- The integer a string writes, most significant byte first. -/
def toNat (b : Bytes) : Nat := b.foldl (fun n x => n * 256 + x.toNat) 0

/-- The lowest `len` bytes of an integer, most significant byte first. -/
def ofNat : Nat → Nat → Bytes
  | 0, _ => []
  | len + 1, n => UInt8.ofNat (n / 256 ^ len) :: ofNat len n

/-- An integer in exactly `len` bytes, if it fits. -/
def ofNat? (len n : Nat) : Option Bytes := if n < 256 ^ len then some (ofNat len n) else none

/-- The integer a string writes, least significant byte first. -/
def toNatLE : Bytes → Nat
  | [] => 0
  | x :: r => x.toNat + 256 * toNatLE r

/-- The lowest `len` bytes of an integer, least significant byte first. -/
def ofNatLE : Nat → Nat → Bytes
  | 0, _ => []
  | len + 1, n => UInt8.ofNat n :: ofNatLE len (n / 256)

/-- A string of zeros. -/
def zeros (len : Nat) : Bytes := List.replicate len 0

/-- A string padded with zeros on the left to at least `len` bytes. -/
def padLeft (len : Nat) (b : Bytes) : Bytes := zeros (len - b.length) ++ b

/-- A string without its leading zeros. -/
def trimLeft (b : Bytes) : Bytes := b.dropWhile (· == 0)

/-- The UTF-8 form of a text. -/
def ofString (s : String) : Bytes := ofArray s.toUTF8

@[simp] theorem length_ofNat (len n : Nat) : (ofNat len n).length = len := by
  induction len with
  | zero => rfl
  | succ k ih => simp [ofNat, ih]

@[simp] theorem length_ofNatLE (len n : Nat) : (ofNatLE len n).length = len := by
  induction len generalizing n with
  | zero => rfl
  | succ k ih => simp [ofNatLE, ih]

@[simp] theorem length_zeros (len : Nat) : (zeros len).length = len := by simp [zeros]

end Bytes
end SoftToken
