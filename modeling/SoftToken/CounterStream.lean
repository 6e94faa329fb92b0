import SoftToken.Checked
import SoftToken.Digest.Length
/-!
# Counter streams

The digests of a seed followed by a counter of four bytes and a suffix, one after the other. Two readers take the
first bytes of such a stream: the derivation of agreed keys makes as many digests as it has counted beforehand
(`counted`), mask generation adds digests until there are bytes enough (`mask`).
-/

namespace SoftToken.CounterStream

/-- The digest with number `i`. -/
def block (d : Digest) (seed suffix : Bytes) (i : Nat) : Bytes := d.hash (seed ++ Bytes.ofNat 4 i ++ suffix)

/-- The digests `0`, …, `n - 1` in a row. -/
def blocks (d : Digest) (seed suffix : Bytes) (n : Nat) : Bytes :=
  (List.range n).flatMap (block d seed suffix)

/-- The number of digests that give `len` bytes. -/
def rounds (d : Digest) (len : Nat) : Nat := (len + d.outputLength - 1) / d.outputLength

/-- The first `len` bytes of the stream. -/
def stream (d : Digest) (seed suffix : Bytes) (len : Nat) : Bytes :=
  (blocks d seed suffix (rounds d len)).take len

/-- Appends the digest with number `i`, which must be a number of 32 bits. -/
def append (d : Digest) (seed suffix out : Bytes) (i : Nat) : Except Error Bytes :=
  if i < 2 ^ 32 then .ok (out ++ block d seed suffix i) else .error (.outside .integerRange)

/-- The first `n` digests, one appended after the other. -/
def digests (d : Digest) (seed suffix : Bytes) (n : Nat) : Except Error Bytes :=
  (List.range n).foldlM (append d seed suffix) []

/-- `len` bytes, from as many digests as they take. Room for all of them is made first. -/
def counted (d : Digest) (seed suffix : Bytes) (len : Nat) : Except Failure Bytes := do
  Checked.reserve (← Checked.mul (rounds d len) d.outputLength)
  return (← digests d seed suffix (rounds d len)).take len

/-- Appends digests, from number `i` on, until there are `len` bytes. -/
def grow (d : Digest) (seed : Bytes) (len : Nat) (out : Bytes) (i : Nat) : Bytes :=
  if out.length < len then grow d seed len (out ++ block d seed [] i) (i + 1) else out.take len
termination_by len - out.length
decreasing_by
  have := d.outputLength_pos
  rw [List.length_append, block, d.length_hash]
  omega

/-- The mask of `len` bytes that a seed generates. -/
def mask (d : Digest) (seed : Bytes) (len : Nat) : Bytes := grow d seed len [] 0

end SoftToken.CounterStream
