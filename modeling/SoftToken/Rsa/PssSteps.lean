import SoftToken.Checked
import SoftToken.RandomSource
import SoftToken.Rsa.Encoding
/-!
# PSS step by step

How an encoding is written into a block and read back from one, with every length, index and range computed
within bounds. The salt length is a number of the caller's.
-/

namespace SoftToken.Rsa.Pss

/-- The length that digest, salt and the two bytes beside them need. -/
def neededLength (p : Pss) : Except Failure Nat := do
  Checked.add (← Checked.add p.hash.outputLength p.saltLength) 2

/-- The length of the data block of an encoding. -/
def dataLength (p : Pss) (length : Nat) : Except Failure Nat := do
  Checked.sub (← Checked.sub length p.hash.outputLength) 1

/-- The bits of the first byte that an encoding of `length` bytes may use. -/
def topBits (length bits : Nat) : Except Failure UInt8 := do
  Checked.shiftRight 0xff (← Checked.sub (8 * length) (← Checked.sub bits 1))

/-- Clears the other bits of the first byte. -/
def maskFirst (b : Bytes) (top : UInt8) : Except Failure Bytes := do
  Checked.write b 0 ((← Checked.byte b 0) &&& top)

/-- Writes a one and the salt to the end of a data block of zeros, which starts the block `em`. -/
def writeData (p : Pss) (em : Bytes) (dbLength : Nat) (salt : Bytes) : Except Failure Bytes := do
  let saltStart ← Checked.sub dbLength p.saltLength
  let em ← Checked.write em (← Checked.sub saltStart 1) 1
  Checked.copy em saltStart dbLength salt

/-- Writes the encoding of a digest with a salt into a block of zeros. -/
def writeEncoding (p : Pss) (bits : Nat) (digest salt : Bytes) : Except Failure Bytes := do
  let length := encodedLength bits
  let h := p.bindingDigest digest salt
  let dbLength ← p.dataLength length
  let em ← p.writeData (Bytes.zeros length) dbLength salt
  let masked := Bytes.xor (← Checked.slice em 0 dbLength) (CounterStream.mask p.mask h dbLength)
  let em ← Checked.copy em 0 dbLength masked
  let em ← maskFirst em (← topBits length bits)
  let last ← Checked.sub length 1
  let em ← Checked.copy em dbLength last h
  Checked.write em last 0xbc

/-- Encodes a digest with a drawn salt. -/
def drawEncoding (p : Pss) (bits : Nat) (digest : Bytes) : Draw Bytes := do
  if encodedLength bits < (← p.neededLength) then throw (.error (.bare .keySizeRange))
  else p.writeEncoding bits digest (← Draw.bytes p.saltLength)

/-- The salt of a data block: after zeros and a one. -/
def readSalt (p : Pss) (db : Bytes) : Except Failure (Option Bytes) := do
  let fillLength ← Checked.sub (← Checked.sub db.length p.saltLength) 1
  if (← Checked.slice db 0 fillLength).any (· != 0) then return none
  if (← Checked.byte db fillLength) != 1 then return none
  return some (← Checked.slice db (fillLength + 1) db.length)

/-- Whether what a signature opens to is an encoding of the digest. -/
def readEncoding (p : Pss) (bits : Nat) (digest em : Bytes) : Except Failure Bool := do
  if em.length < (← p.neededLength) then return false
  let last ← Checked.sub em.length 1
  if (← Checked.byte em last) != 0xbc then return false
  let top ← topBits em.length bits
  if (← Checked.byte em 0) &&& ~~~top != 0 then return false
  let dbLength ← p.dataLength em.length
  let h ← Checked.slice em dbLength last
  let masked ← Checked.slice em 0 dbLength
  match ← p.readSalt (← maskFirst (Bytes.xor masked (CounterStream.mask p.mask h dbLength)) top) with
  | some salt => return h == p.bindingDigest digest salt
  | none => return false

end SoftToken.Rsa.Pss
