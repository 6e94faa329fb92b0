import SoftToken.Words
/-!
# SHA-1

Five words, big endian, and 80 rounds in four groups.
-/

namespace SoftToken.Sha1

open Words

structure State where
  a : UInt32
  b : UInt32
  c : UInt32
  d : UInt32
  e : UInt32
deriving DecidableEq, Repr

def initial : State := ⟨0x67452301, 0xefcdab89, 0x98badcfe, 0x10325476, 0xc3d2e1f0⟩

/-- The function and the constant of a round. -/
def mix (i : Nat) (b c d : UInt32) : UInt32 :=
  if i < 20 then ((b &&& c) ||| (~~~b &&& d)) + 0x5a827999
  else if i < 40 then (b ^^^ c ^^^ d) + 0x6ed9eba1
  else if i < 60 then ((b &&& c) ||| (b &&& d) ||| (c &&& d)) + 0x8f1bbcdc
  else (b ^^^ c ^^^ d) + 0xca62c1d6

/-- The rounds that remain; the last sixteen words of the schedule move along. -/
def rounds : Nat → UInt32 → UInt32 → UInt32 → UInt32 → UInt32 →
    UInt32 → UInt32 → UInt32 → UInt32 → UInt32 → UInt32 → UInt32 → UInt32 →
    UInt32 → UInt32 → UInt32 → UInt32 → UInt32 → UInt32 → UInt32 → UInt32 → State
  | 0, a, b, c, d, e, _, _, _, _, _, _, _, _, _, _, _, _, _, _, _, _ => ⟨a, b, c, d, e⟩
  | n + 1, a, b, c, d, e, w0, w1, w2, w3, w4, w5, w6, w7, w8, w9, w10, w11, w12, w13, w14, w15 =>
    let t := rotl32 a 5 + mix (79 - n) b c d + e + w0
    rounds n t a (rotl32 b 30) c d w1 w2 w3 w4 w5 w6 w7 w8 w9 w10 w11 w12 w13 w14 w15
      (rotl32 (w13 ^^^ w8 ^^^ w2 ^^^ w0) 1)

/-- Takes in the block at a position. -/
def compress (s : State) (b : ByteArray) (i : Nat) : State :=
  let r := rounds 80 s.a s.b s.c s.d s.e
    (be32 b i) (be32 b (i + 4)) (be32 b (i + 8)) (be32 b (i + 12))
    (be32 b (i + 16)) (be32 b (i + 20)) (be32 b (i + 24)) (be32 b (i + 28))
    (be32 b (i + 32)) (be32 b (i + 36)) (be32 b (i + 40)) (be32 b (i + 44))
    (be32 b (i + 48)) (be32 b (i + 52)) (be32 b (i + 56)) (be32 b (i + 60))
  ⟨s.a + r.a, s.b + r.b, s.c + r.c, s.d + r.d, s.e + r.e⟩

/-- The SHA-1 digest, 20 bytes. -/
def sha1 (m : ByteArray) : ByteArray :=
  let p := pushBE64 (pushEndMark m 64 8) (UInt64.ofNat (8 * m.size))
  let s := foldBlocks compress 64 p (p.size / 64) 0 initial
  [s.a, s.b, s.c, s.d, s.e].foldl pushBE32 ByteArray.empty

end SoftToken.Sha1
