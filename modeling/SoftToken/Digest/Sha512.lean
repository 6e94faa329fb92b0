import SoftToken.Words
/-!
# SHA-384, SHA-512 and the truncated forms

The four digests share the compression of 128-byte blocks and differ in the initial words and in the
length kept.
-/

namespace SoftToken.Sha512

open Words

/-- The eight working words. -/
structure State where
  a : UInt64
  b : UInt64
  c : UInt64
  d : UInt64
  e : UInt64
  f : UInt64
  g : UInt64
  h : UInt64
deriving DecidableEq, Repr

/-- The round constants. -/
def constants : List UInt64 :=
  [0x428a2f98d728ae22, 0x7137449123ef65cd, 0xb5c0fbcfec4d3b2f, 0xe9b5dba58189dbbc,
    0x3956c25bf348b538, 0x59f111f1b605d019, 0x923f82a4af194f9b, 0xab1c5ed5da6d8118,
    0xd807aa98a3030242, 0x12835b0145706fbe, 0x243185be4ee4b28c, 0x550c7dc3d5ffb4e2,
    0x72be5d74f27b896f, 0x80deb1fe3b1696b1, 0x9bdc06a725c71235, 0xc19bf174cf692694,
    0xe49b69c19ef14ad2, 0xefbe4786384f25e3, 0x0fc19dc68b8cd5b5, 0x240ca1cc77ac9c65,
    0x2de92c6f592b0275, 0x4a7484aa6ea6e483, 0x5cb0a9dcbd41fbd4, 0x76f988da831153b5,
    0x983e5152ee66dfab, 0xa831c66d2db43210, 0xb00327c898fb213f, 0xbf597fc7beef0ee4,
    0xc6e00bf33da88fc2, 0xd5a79147930aa725, 0x06ca6351e003826f, 0x142929670a0e6e70,
    0x27b70a8546d22ffc, 0x2e1b21385c26c926, 0x4d2c6dfc5ac42aed, 0x53380d139d95b3df,
    0x650a73548baf63de, 0x766a0abb3c77b2a8, 0x81c2c92e47edaee6, 0x92722c851482353b,
    0xa2bfe8a14cf10364, 0xa81a664bbc423001, 0xc24b8b70d0f89791, 0xc76c51a30654be30,
    0xd192e819d6ef5218, 0xd69906245565a910, 0xf40e35855771202a, 0x106aa07032bbd1b8,
    0x19a4c116b8d2d0c8, 0x1e376c085141ab53, 0x2748774cdf8eeb99, 0x34b0bcb5e19b48a8,
    0x391c0cb3c5c95a63, 0x4ed8aa4ae3418acb, 0x5b9cca4f7763e373, 0x682e6ff3d6b2b8a3,
    0x748f82ee5defb2fc, 0x78a5636f43172f60, 0x84c87814a1f0ab72, 0x8cc702081a6439ec,
    0x90befffa23631e28, 0xa4506cebde82bde9, 0xbef9a3f7b2c67915, 0xc67178f2e372532b,
    0xca273eceea26619c, 0xd186b8c721c0c207, 0xeada7dd6cde0eb1e, 0xf57d4f7fee6ed178,
    0x06f067aa72176fba, 0x0a637dc5a2c898a6, 0x113f9804bef90dae, 0x1b710b35131c471b,
    0x28db77f523047d84, 0x32caab7b40c72493, 0x3c9ebe0a15c9bebc, 0x431d67c49c100d4c,
    0x4cc5d4becb3e42b6, 0x597f299cfc657e2a, 0x5fcb6fab3ad6faec, 0x6c44198c4a475817]

/-- The initial words of SHA-512. -/
def initial512 : State :=
  ⟨0x6a09e667f3bcc908, 0xbb67ae8584caa73b, 0x3c6ef372fe94f82b, 0xa54ff53a5f1d36f1,
    0x510e527fade682d1, 0x9b05688c2b3e6c1f, 0x1f83d9abfb41bd6b, 0x5be0cd19137e2179⟩

/-- The initial words of SHA-384. -/
def initial384 : State :=
  ⟨0xcbbb9d5dc1059ed8, 0x629a292a367cd507, 0x9159015a3070dd17, 0x152fecd8f70e5939,
    0x67332667ffc00b31, 0x8eb44a8768581511, 0xdb0c2e0d64f98fa7, 0x47b5481dbefa4fa4⟩

/-- The initial words of SHA-512/224. -/
def initial512_224 : State :=
  ⟨0x8c3d37c819544da2, 0x73e1996689dcd4d6, 0x1dfab7ae32ff9c82, 0x679dd514582f9fcf,
    0x0f6d2b697bd44da8, 0x77e36f7304c48942, 0x3f9d85a86a1d36c8, 0x1112e6ad91d692a1⟩

/-- The initial words of SHA-512/256. -/
def initial512_256 : State :=
  ⟨0x22312194fc2bf72c, 0x9f555fa3c84c64c2, 0x2393b86b6f53b151, 0x963877195940eabd,
    0x96283ee2a88effe3, 0xbe5e1e2553863992, 0x2b0199fc2c85b8aa, 0x0eb72ddc81c52ca2⟩

/-- The rounds that remain, one for each constant; the last sixteen words of the schedule move along. -/
def rounds : List UInt64 → UInt64 → UInt64 → UInt64 → UInt64 → UInt64 → UInt64 → UInt64 → UInt64 →
    UInt64 → UInt64 → UInt64 → UInt64 → UInt64 → UInt64 → UInt64 → UInt64 →
    UInt64 → UInt64 → UInt64 → UInt64 → UInt64 → UInt64 → UInt64 → UInt64 → State
  | [], a, b, c, d, e, f, g, h, _, _, _, _, _, _, _, _, _, _, _, _, _, _, _, _ => ⟨a, b, c, d, e, f, g, h⟩
  | k :: ks, a, b, c, d, e, f, g, h, w0, w1, w2, w3, w4, w5, w6, w7, w8, w9, w10, w11, w12, w13, w14, w15 =>
    let t1 := h + (rotr64 e 14 ^^^ rotr64 e 18 ^^^ rotr64 e 41) + ((e &&& f) ^^^ (~~~e &&& g)) + k + w0
    let t2 := (rotr64 a 28 ^^^ rotr64 a 34 ^^^ rotr64 a 39) + ((a &&& b) ^^^ (a &&& c) ^^^ (b &&& c))
    let w16 := w0 + (rotr64 w1 1 ^^^ rotr64 w1 8 ^^^ w1 >>> 7) + w9 + (rotr64 w14 19 ^^^ rotr64 w14 61 ^^^ w14 >>> 6)
    rounds ks (t1 + t2) a b c (d + t1) e f g w1 w2 w3 w4 w5 w6 w7 w8 w9 w10 w11 w12 w13 w14 w15 w16

/-- Takes in the block at a position. -/
def compress (s : State) (b : ByteArray) (i : Nat) : State :=
  let r := rounds constants s.a s.b s.c s.d s.e s.f s.g s.h
    (be64 b (i + 0)) (be64 b (i + 8)) (be64 b (i + 16)) (be64 b (i + 24))
    (be64 b (i + 32)) (be64 b (i + 40)) (be64 b (i + 48)) (be64 b (i + 56))
    (be64 b (i + 64)) (be64 b (i + 72)) (be64 b (i + 80)) (be64 b (i + 88))
    (be64 b (i + 96)) (be64 b (i + 104)) (be64 b (i + 112)) (be64 b (i + 120))
  ⟨s.a + r.a, s.b + r.b, s.c + r.c, s.d + r.d, s.e + r.e, s.f + r.f, s.g + r.g, s.h + r.h⟩

/-- The words in order, most significant byte first. -/
def State.bytes (s : State) : ByteArray :=
  [s.a, s.b, s.c, s.d, s.e, s.f, s.g, s.h].foldl pushBE64 ByteArray.empty

/-- Takes in the end of a message of which `before` bytes went in already, a multiple of 128. -/
def finish (s : State) (before : Nat) (m : ByteArray) : ByteArray :=
  let bits := 8 * (before + m.size)
  let p := pushBE64 (pushBE64 (pushEndMark m 128 16) (UInt64.ofNat (bits / 2 ^ 64))) (UInt64.ofNat bits)
  (foldBlocks compress 128 p (p.size / 128) 0 s).bytes

/-- The SHA-512 digest, 64 bytes. -/
def sha512 (m : ByteArray) : ByteArray := (finish initial512 0 m).extract 0 64

/-- The SHA-384 digest, 48 bytes. -/
def sha384 (m : ByteArray) : ByteArray := (finish initial384 0 m).extract 0 48

/-- The SHA-512/224 digest, 28 bytes. -/
def sha512_224 (m : ByteArray) : ByteArray := (finish initial512_224 0 m).extract 0 28

/-- The SHA-512/256 digest, 32 bytes. -/
def sha512_256 (m : ByteArray) : ByteArray := (finish initial512_256 0 m).extract 0 32

end SoftToken.Sha512
