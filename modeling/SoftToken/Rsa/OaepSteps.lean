import SoftToken.Checked
import SoftToken.RandomSource
import SoftToken.Rsa.Encoding
/-!
# OAEP step by step

How an encoding is written into a block, with every length, index and range computed within bounds. The data block
is written before the seed is drawn.
-/

namespace SoftToken.Rsa.Oaep

/-- The length of the data block of an encoding. -/
def dataLength (p : Oaep) (size : Nat) : Except Failure Nat := do
  Checked.sub (← Checked.sub size p.hash.outputLength) 1

/-- Writes the data block into zeros: the digest of the label to the front, a one and the message to the end. -/
def writeData (p : Oaep) (size length : Nat) (message : Bytes) : Except Failure Bytes := do
  let rest ← Checked.slice (Bytes.zeros size) 1 size
  let db ← Checked.slice rest p.hash.outputLength rest.length
  let db ← Checked.copy db 0 p.hash.outputLength (p.hash.hash p.label)
  let start ← Checked.sub length message.length
  let db ← Checked.write db (← Checked.sub start 1) 1
  Checked.copy db start db.length message

/-- Encodes a message with a drawn seed, which masks the data block and is masked by it. -/
def drawEncoding (p : Oaep) (size : Nat) (message : Bytes) : Draw Bytes := do
  let length ← p.dataLength size
  let db ← p.writeData size length message
  let seed ← Draw.bytes p.hash.outputLength
  let maskedDb := Bytes.xor db (CounterStream.mask p.mask seed length)
  return 0 :: (Bytes.xor seed (CounterStream.mask p.mask maskedDb p.hash.outputLength) ++ maskedDb)

end SoftToken.Rsa.Oaep
