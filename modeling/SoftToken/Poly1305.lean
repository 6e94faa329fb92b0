import SoftToken.Bytes
/-!
# Poly1305

A one-time authenticator: the message is a polynomial with 17-byte coefficients at most, evaluated at
the first half of the key modulo 2^130 - 5, plus the second half.
-/

namespace SoftToken.Poly1305

def keyLength : Nat := 32

def tagLength : Nat := 16

/-- The first half of the key with the bits cleared that must be. -/
def point (key : Bytes) : Nat := Bytes.toNatLE (key.take 16) &&& 0x0ffffffc0ffffffc0ffffffc0fffffff

/-- The value after the next `n` pieces of 16 bytes, each ended by a one. -/
def evaluate (r : Nat) : Nat → Bytes → Nat → Nat
  | 0, _, acc => acc
  | n + 1, b, acc =>
    evaluate r n (b.drop 16) ((acc + Bytes.toNatLE (b.take 16 ++ [1])) * r % (2 ^ 130 - 5))

/-- The tag of a message. -/
def tag (key message : Bytes) : Bytes :=
  let v := evaluate (point key) ((message.length + 15) / 16) message 0
  Bytes.ofNatLE tagLength (v + Bytes.toNatLE (key.drop 16))

end SoftToken.Poly1305
