import SoftToken.Words
/-!
# SHA-224 and SHA-256

The two digests share the compression of 64-byte blocks and differ in the initial words.
-/

namespace SoftToken.Sha256

open Words

/-- The eight working words. -/
structure State where
  a : UInt32
  b : UInt32
  c : UInt32
  d : UInt32
  e : UInt32
  f : UInt32
  g : UInt32
  h : UInt32
deriving DecidableEq, Repr

/-- The round constants. -/
def constants : List UInt32 :=
  [0x428a2f98, 0x71374491, 0xb5c0fbcf, 0xe9b5dba5, 0x3956c25b, 0x59f111f1, 0x923f82a4, 0xab1c5ed5,
    0xd807aa98, 0x12835b01, 0x243185be, 0x550c7dc3, 0x72be5d74, 0x80deb1fe, 0x9bdc06a7, 0xc19bf174,
    0xe49b69c1, 0xefbe4786, 0x0fc19dc6, 0x240ca1cc, 0x2de92c6f, 0x4a7484aa, 0x5cb0a9dc, 0x76f988da,
    0x983e5152, 0xa831c66d, 0xb00327c8, 0xbf597fc7, 0xc6e00bf3, 0xd5a79147, 0x06ca6351, 0x14292967,
    0x27b70a85, 0x2e1b2138, 0x4d2c6dfc, 0x53380d13, 0x650a7354, 0x766a0abb, 0x81c2c92e, 0x92722c85,
    0xa2bfe8a1, 0xa81a664b, 0xc24b8b70, 0xc76c51a3, 0xd192e819, 0xd6990624, 0xf40e3585, 0x106aa070,
    0x19a4c116, 0x1e376c08, 0x2748774c, 0x34b0bcb5, 0x391c0cb3, 0x4ed8aa4a, 0x5b9cca4f, 0x682e6ff3,
    0x748f82ee, 0x78a5636f, 0x84c87814, 0x8cc70208, 0x90befffa, 0xa4506ceb, 0xbef9a3f7, 0xc67178f2]

/-- The initial words of SHA-256. -/
def initial256 : State :=
  ⟨0x6a09e667, 0xbb67ae85, 0x3c6ef372, 0xa54ff53a,
    0x510e527f, 0x9b05688c, 0x1f83d9ab, 0x5be0cd19⟩

/-- The initial words of SHA-224. -/
def initial224 : State :=
  ⟨0xc1059ed8, 0x367cd507, 0x3070dd17, 0xf70e5939,
    0xffc00b31, 0x68581511, 0x64f98fa7, 0xbefa4fa4⟩

/-- The rounds that remain, one for each constant; the last sixteen words of the schedule move along. -/
def rounds : List UInt32 → UInt32 → UInt32 → UInt32 → UInt32 → UInt32 → UInt32 → UInt32 → UInt32 →
    UInt32 → UInt32 → UInt32 → UInt32 → UInt32 → UInt32 → UInt32 → UInt32 →
    UInt32 → UInt32 → UInt32 → UInt32 → UInt32 → UInt32 → UInt32 → UInt32 → State
  | [], a, b, c, d, e, f, g, h, _, _, _, _, _, _, _, _, _, _, _, _, _, _, _, _ => ⟨a, b, c, d, e, f, g, h⟩
  | k :: ks, a, b, c, d, e, f, g, h, w0, w1, w2, w3, w4, w5, w6, w7, w8, w9, w10, w11, w12, w13, w14, w15 =>
    let t1 := h + (rotr32 e 6 ^^^ rotr32 e 11 ^^^ rotr32 e 25) + ((e &&& f) ^^^ (~~~e &&& g)) + k + w0
    let t2 := (rotr32 a 2 ^^^ rotr32 a 13 ^^^ rotr32 a 22) + ((a &&& b) ^^^ (a &&& c) ^^^ (b &&& c))
    let w16 := w0 + (rotr32 w1 7 ^^^ rotr32 w1 18 ^^^ w1 >>> 3) + w9 + (rotr32 w14 17 ^^^ rotr32 w14 19 ^^^ w14 >>> 10)
    rounds ks (t1 + t2) a b c (d + t1) e f g w1 w2 w3 w4 w5 w6 w7 w8 w9 w10 w11 w12 w13 w14 w15 w16

/-- Takes in the block at a position. -/
def compress (s : State) (b : ByteArray) (i : Nat) : State :=
  let r := rounds constants s.a s.b s.c s.d s.e s.f s.g s.h
    (be32 b (i + 0)) (be32 b (i + 4)) (be32 b (i + 8)) (be32 b (i + 12))
    (be32 b (i + 16)) (be32 b (i + 20)) (be32 b (i + 24)) (be32 b (i + 28))
    (be32 b (i + 32)) (be32 b (i + 36)) (be32 b (i + 40)) (be32 b (i + 44))
    (be32 b (i + 48)) (be32 b (i + 52)) (be32 b (i + 56)) (be32 b (i + 60))
  ⟨s.a + r.a, s.b + r.b, s.c + r.c, s.d + r.d, s.e + r.e, s.f + r.f, s.g + r.g, s.h + r.h⟩

/-- The words in order, most significant byte first. -/
def State.bytes (s : State) : ByteArray :=
  [s.a, s.b, s.c, s.d, s.e, s.f, s.g, s.h].foldl pushBE32 ByteArray.empty

/-- Takes in the end of a message of which `before` bytes went in already, a multiple of 64. -/
def finish (s : State) (before : Nat) (m : ByteArray) : ByteArray :=
  let bits := 8 * (before + m.size)
  let p := pushBE64 (pushEndMark m 64 8) (UInt64.ofNat bits)
  (foldBlocks compress 64 p (p.size / 64) 0 s).bytes

/-- The SHA-256 digest, 32 bytes. -/
def sha256 (m : ByteArray) : ByteArray := (finish initial256 0 m).extract 0 32

/-- The SHA-224 digest, 28 bytes. -/
def sha224 (m : ByteArray) : ByteArray := (finish initial224 0 m).extract 0 28

end SoftToken.Sha256
