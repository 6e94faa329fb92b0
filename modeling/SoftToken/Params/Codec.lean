import SoftToken.Bytes
import SoftToken.Error
/-!
# The wire format of parameters

Numbers take eight bytes, least significant first; a truth value takes one byte; an optional value a
tag byte and, if it is there, the value; a byte string its length and its bytes. Fields follow each
other without padding, and nothing follows the last one.

A codec pairs a writer with a reader that gives the rest of the input back.
-/

namespace SoftToken

/-- A writer, and a reader for what it writes. -/
structure Codec (α : Type) where
  write : α → Bytes
  read : Bytes → Except WireFault (α × Bytes)

namespace Codec

/-- A single byte. -/
def readByte : Bytes → Except WireFault (UInt8 × Bytes)
  | [] => .error .endOfInput
  | x :: r => .ok (x, r)

/-- Exactly `len` bytes. -/
def readExactly (len : Nat) (b : Bytes) : Except WireFault (Bytes × Bytes) :=
  if (b.take len).length = len then .ok (b.take len, b.drop len) else .error .endOfInput

def number : Codec UInt64 where
  write n := Bytes.ofNatLE 8 n.toNat
  read b := do
    let (digits, r) ← readExactly 8 b
    return (UInt64.ofNat (Bytes.toNatLE digits), r)

def bool : Codec Bool where
  write v := [if v then 1 else 0]
  read b := do
    let (x, r) ← readByte b
    if x = 0 then return (false, r) else if x = 1 then return (true, r) else throw (.badBool x)

def bytes : Codec Bytes where
  write v := Bytes.ofNatLE 8 v.length ++ v
  read b := do
    let (len, r) ← number.read b
    readExactly len.toNat r

def option {α : Type} (c : Codec α) : Codec (Option α) where
  write
    | none => [0]
    | some v => 1 :: c.write v
  read b := do
    let (x, r) ← readByte b
    if x = 0 then return (none, r)
    else if x = 1 then do
      let (v, r) ← c.read r
      return (some v, r)
    else throw (.badTag x)

/-- One field after the other. -/
def pair {α β : Type} (c : Codec α) (d : Codec β) : Codec (α × β) where
  write v := c.write v.1 ++ d.write v.2
  read b := do
    let (x, r) ← c.read b
    let (y, r) ← d.read r
    return ((x, y), r)

/-- The same bytes for values of another type. -/
def map {α β : Type} (c : Codec α) (forward : α → β) (back : β → α) : Codec β where
  write v := c.write (back v)
  read b := do
    let (x, r) ← c.read b
    return (forward x, r)

/-- The size a parameter blob must not exceed when it is written. -/
def sizeLimit : Nat := 2 ^ 20

/-- Reads a value and nothing more. -/
def decode {α : Type} (c : Codec α) (b : Bytes) : Except WireFault α := do
  let (v, r) ← c.read b
  if r.isEmpty then return v else throw .trailingBytes

/-- Writes a value within the size limit. -/
def encode {α : Type} (c : Codec α) (v : α) : Except WireFault Bytes :=
  let b := c.write v
  if b.length ≤ sizeLimit then .ok b else .error .sizeLimit

end Codec
end SoftToken
