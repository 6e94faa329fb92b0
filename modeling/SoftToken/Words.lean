/-!
# Words in packed bytes

Reading and appending 32-bit and 64-bit words in both byte orders. A read past the end gives zero bytes.
-/

namespace SoftToken.Words

/-- The byte at a position, zero past the end. -/
@[inline] def byteAt (b : ByteArray) (i : Nat) : UInt8 := if h : i < b.size then b[i] else 0

@[inline] def be32 (b : ByteArray) (i : Nat) : UInt32 :=
  ((byteAt b i).toUInt32 <<< 24) ||| ((byteAt b (i + 1)).toUInt32 <<< 16)
    ||| ((byteAt b (i + 2)).toUInt32 <<< 8) ||| (byteAt b (i + 3)).toUInt32

@[inline] def le32 (b : ByteArray) (i : Nat) : UInt32 :=
  ((byteAt b (i + 3)).toUInt32 <<< 24) ||| ((byteAt b (i + 2)).toUInt32 <<< 16)
    ||| ((byteAt b (i + 1)).toUInt32 <<< 8) ||| (byteAt b i).toUInt32

@[inline] def be64 (b : ByteArray) (i : Nat) : UInt64 :=
  ((be32 b i).toUInt64 <<< 32) ||| (be32 b (i + 4)).toUInt64

@[inline] def le64 (b : ByteArray) (i : Nat) : UInt64 :=
  ((le32 b (i + 4)).toUInt64 <<< 32) ||| (le32 b i).toUInt64

@[inline] def pushBE32 (b : ByteArray) (w : UInt32) : ByteArray :=
  (((b.push (w >>> 24).toUInt8).push (w >>> 16).toUInt8).push (w >>> 8).toUInt8).push w.toUInt8

@[inline] def pushLE32 (b : ByteArray) (w : UInt32) : ByteArray :=
  (((b.push w.toUInt8).push (w >>> 8).toUInt8).push (w >>> 16).toUInt8).push (w >>> 24).toUInt8

@[inline] def pushBE64 (b : ByteArray) (w : UInt64) : ByteArray :=
  pushBE32 (pushBE32 b (w >>> 32).toUInt32) w.toUInt32

@[inline] def pushLE64 (b : ByteArray) (w : UInt64) : ByteArray :=
  pushLE32 (pushLE32 b w.toUInt32) (w >>> 32).toUInt32

@[inline] def rotl32 (x : UInt32) (n : UInt32) : UInt32 := (x <<< n) ||| (x >>> (32 - n))
@[inline] def rotr32 (x : UInt32) (n : UInt32) : UInt32 := (x >>> n) ||| (x <<< (32 - n))
@[inline] def rotl64 (x : UInt64) (n : UInt64) : UInt64 := (x <<< n) ||| (x >>> (64 - n))
@[inline] def rotr64 (x : UInt64) (n : UInt64) : UInt64 := (x >>> n) ||| (x <<< (64 - n))

/-- Appends `n` zero bytes. -/
def pushZeros (b : ByteArray) : Nat → ByteArray
  | 0 => b
  | n + 1 => pushZeros (b.push 0) n

/-- Appends the byte 0x80 and zeros until `field` bytes are missing to a whole number of blocks. -/
def pushEndMark (b : ByteArray) (block field : Nat) : ByteArray :=
  let used := (b.size + 1 + field) % block
  pushZeros (b.push 0x80) ((block - used) % block)

/-- Runs a step over the blocks of `b` from block number `i` on, `n` of them. -/
@[specialize] def foldBlocks {σ : Type} (step : σ → ByteArray → Nat → σ) (block : Nat) (b : ByteArray) :
    Nat → Nat → σ → σ
  | 0, _, s => s
  | n + 1, i, s => foldBlocks step block b n (i + 1) (step s b (i * block))

end SoftToken.Words
