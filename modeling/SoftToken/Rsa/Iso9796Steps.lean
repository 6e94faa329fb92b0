import SoftToken.Checked
import SoftToken.Rsa.Encoding
/-!
# ISO/IEC 9796-1 step by step

How a message is written into a block: over and over to the end of the block, spread out with the shadows of its
bytes, and marked at the shadow of its first byte. Every length and index is computed within bounds; the position of
the first shadow may be below zero.
-/

namespace SoftToken.Rsa.Iso9796

/-- Copies the message in front of the last `written` bytes of a block, or the end of the message where less than
the whole of it is missing to `total` bytes. -/
def copyBack (message : Bytes) (total : Nat) (block : Bytes) (written : Nat) : Except Failure Bytes := do
  let stop ← Checked.sub block.length written
  if (← Checked.sub total message.length) < written then
    let start ← Checked.sub message.length (← Checked.sub total written)
    let part ← Checked.slice message start message.length
    Checked.copy block (← Checked.sub block.length total) stop part
  else Checked.copy block (← Checked.sub block.length (written + message.length)) stop message

/-- Fills the last `total` bytes of a block with the message, over and over. -/
def fill (message : Bytes) (total : Nat) (block : Bytes) : Except Failure Bytes :=
  let rounds := (total + message.length - 1) / message.length
  (List.range' 0 rounds message.length).foldlM (copyBack message total) block

/-- Writes the byte with number `entry.2` after its shadow, which may fall in front of the block. -/
def writePair (start : Int) (block : Bytes) (entry : UInt8 × Nat) : Except Failure Bytes := do
  let position := start + 2 * entry.2
  let block ← if 0 ≤ position then Checked.write block (← Checked.index position) (shadow entry.1) else pure block
  Checked.write block (← Checked.index (position + 1)) entry.1

/-- Spreads the last `total` bytes of a block over the block. -/
def spread (total : Nat) (block : Bytes) : Except Failure Bytes := do
  let source ← Checked.slice block (← Checked.sub block.length total) block.length
  source.zipIdx.foldlM (writePair (block.length - 2 * total)) block

/-- Clears the bits that the modulus does not leave, and sets the highest one below them. -/
def setTop (bits : Nat) (block : Bytes) : Except Failure Bytes := do
  let unused ← Checked.sub 8 ((← Checked.sub bits 1) % 8)
  if unused ≠ 8 then
    let kept ← Checked.shiftRight 0xff unused
    let block ← Checked.update block 0 (· &&& kept)
    let top ← Checked.shiftRight 0x80 unused
    Checked.update block 0 (· ||| top)
  else
    let block ← Checked.write block 0 0
    let block ← Checked.update block 1 (· ||| 0x80)
    Checked.slice block 1 block.length

/-- Writes the block of a message of an allowed length. -/
def writeBlock (bits : Nat) (message : Bytes) : Except Failure Bytes := do
  let length := (bits + 7) / 8
  let total := maxLength bits
  let block ← spread total (← fill message total (Bytes.zeros length))
  let block ← Checked.update block (← Checked.sub length (2 * message.length)) (· ^^^ 1)
  let block ← Checked.update block (← Checked.sub length 1) fun x => (x <<< 4) ||| 0x06
  setTop bits block

end SoftToken.Rsa.Iso9796
