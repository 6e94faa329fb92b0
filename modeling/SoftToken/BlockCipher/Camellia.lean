import SoftToken.Bytes
import SoftToken.Words
/-!
# Camellia

Encryption of a block of 16 bytes under a key of 16, 24 or 32 bytes: a Feistel network over two 64-bit
halves, with a keyed linear layer after every six rounds.
-/

namespace SoftToken.Camellia

/-- The first of the four substitutions; the others are rotations of it. -/
def substitution : ByteArray :=
  ⟨#[112, 130, 44, 236, 179, 39, 192, 229, 228, 133, 87, 53, 234, 12, 174, 65,
    35, 239, 107, 147, 69, 25, 165, 33, 237, 14, 79, 78, 29, 101, 146, 189,
    134, 184, 175, 143, 124, 235, 31, 206, 62, 48, 220, 95, 94, 197, 11, 26,
    166, 225, 57, 202, 213, 71, 93, 61, 217, 1, 90, 214, 81, 86, 108, 77,
    139, 13, 154, 102, 251, 204, 176, 45, 116, 18, 43, 32, 240, 177, 132, 153,
    223, 76, 203, 194, 52, 126, 118, 5, 109, 183, 169, 49, 209, 23, 4, 215,
    20, 88, 58, 97, 222, 27, 17, 28, 50, 15, 156, 22, 83, 24, 242, 34,
    254, 68, 207, 178, 195, 181, 122, 145, 36, 8, 232, 168, 96, 252, 105, 80,
    170, 208, 160, 125, 161, 137, 98, 151, 84, 91, 30, 149, 224, 255, 100, 210,
    16, 196, 0, 72, 163, 247, 117, 219, 138, 3, 230, 218, 9, 63, 221, 148,
    135, 92, 131, 2, 205, 74, 144, 51, 115, 103, 246, 243, 157, 127, 191, 226,
    82, 155, 216, 38, 200, 55, 198, 59, 129, 150, 111, 75, 19, 190, 99, 46,
    233, 121, 167, 140, 159, 110, 188, 142, 41, 245, 249, 182, 47, 253, 180, 89,
    120, 152, 6, 106, 231, 70, 113, 186, 212, 37, 171, 66, 136, 162, 141, 250,
    114, 7, 185, 85, 248, 238, 172, 10, 54, 73, 42, 104, 60, 56, 241, 164,
    64, 40, 211, 123, 187, 201, 67, 193, 21, 227, 173, 244, 119, 199, 128, 158]⟩

def rotate (x : UInt8) (n : UInt8) : UInt8 := (x <<< n) ||| (x >>> (8 - n))

def s1 (x : UInt8) : UInt8 := Words.byteAt substitution x.toNat
def s2 (x : UInt8) : UInt8 := rotate (s1 x) 1
def s3 (x : UInt8) : UInt8 := rotate (s1 x) 7
def s4 (x : UInt8) : UInt8 := s1 (rotate x 1)

/-- The round function. -/
def f (x k : UInt64) : UInt64 :=
  let y := x ^^^ k
  let t1 := s1 (y >>> 56).toUInt8
  let t2 := s2 (y >>> 48).toUInt8
  let t3 := s3 (y >>> 40).toUInt8
  let t4 := s4 (y >>> 32).toUInt8
  let t5 := s2 (y >>> 24).toUInt8
  let t6 := s3 (y >>> 16).toUInt8
  let t7 := s4 (y >>> 8).toUInt8
  let t8 := s1 y.toUInt8
  ((t1 ^^^ t3 ^^^ t4 ^^^ t6 ^^^ t7 ^^^ t8).toUInt64 <<< 56)
    ||| ((t1 ^^^ t2 ^^^ t4 ^^^ t5 ^^^ t7 ^^^ t8).toUInt64 <<< 48)
    ||| ((t1 ^^^ t2 ^^^ t3 ^^^ t5 ^^^ t6 ^^^ t8).toUInt64 <<< 40)
    ||| ((t2 ^^^ t3 ^^^ t4 ^^^ t5 ^^^ t6 ^^^ t7).toUInt64 <<< 32)
    ||| ((t1 ^^^ t2 ^^^ t6 ^^^ t7 ^^^ t8).toUInt64 <<< 24)
    ||| ((t2 ^^^ t3 ^^^ t5 ^^^ t7 ^^^ t8).toUInt64 <<< 16)
    ||| ((t3 ^^^ t4 ^^^ t5 ^^^ t6 ^^^ t8).toUInt64 <<< 8)
    ||| (t1 ^^^ t4 ^^^ t5 ^^^ t6 ^^^ t7).toUInt64

/-- The keyed linear layer. -/
def fl (x k : UInt64) : UInt64 :=
  let x1 := (x >>> 32).toUInt32
  let k1 := (k >>> 32).toUInt32
  let x2 := x.toUInt32 ^^^ Words.rotl32 (x1 &&& k1) 1
  ((x1 ^^^ (x2 ||| k.toUInt32)).toUInt64 <<< 32) ||| x2.toUInt64

/-- The inverse of the keyed linear layer. -/
def flInverse (y k : UInt64) : UInt64 :=
  let y2 := y.toUInt32
  let y1 := (y >>> 32).toUInt32 ^^^ (y2 ||| k.toUInt32)
  (y1.toUInt64 <<< 32) ||| (y2 ^^^ Words.rotl32 (y1 &&& (k >>> 32).toUInt32) 1).toUInt64

/-- Two halves of 64 bits. -/
abbrev Halves := UInt64 × UInt64

/-- Two rounds. -/
def roundPair (d : Halves) (k : Halves) : Halves :=
  let d2 := d.2 ^^^ f d.1 k.1
  (d.1 ^^^ f d2 k.2, d2)

def xor (a b : Halves) : Halves := (a.1 ^^^ b.1, a.2 ^^^ b.2)

/-- The halves of a 128-bit key rotated to the left. -/
def rotated (k : Halves) (n : Nat) : Halves :=
  let x := k.1.toNat * 2 ^ 64 + k.2.toNat
  let y := x <<< n ||| x >>> (128 - n)
  (UInt64.ofNat (y / 2 ^ 64), UInt64.ofNat y)

/-- The subkeys: for the start and the end, and for groups of rounds parted by linear layers. -/
structure Schedule where
  start : Halves
  /-- Three pairs of rounds each. -/
  groups : List (List Halves)
  layers : List Halves
  finish : Halves

/-- The subkeys of a key. -/
def schedule (key : Bytes) : Schedule :=
  let word := fun i => UInt64.ofNat (Bytes.toNat ((key.drop (8 * i)).take 8))
  let kl : Halves := (word 0, word 1)
  let kr : Halves :=
    if key.length ≤ 16 then (0, 0) else if key.length ≤ 24 then (word 2, ~~~word 2) else (word 2, word 3)
  let ka := roundPair (xor (roundPair (xor kl kr) (0xa09e667f3bcc908b, 0xb67ae8584caa73b2)) kl)
    (0xc6ef372fe94f82be, 0x54ff53a5f1d36f1c)
  let kb := roundPair (xor ka kr) (0x10e527fade682d1d, 0xb05688c2b3e6c1fd)
  if key.length ≤ 16 then
    { start := kl
      groups :=
        [[ka, rotated kl 15, rotated ka 15],
          [rotated kl 45, ((rotated ka 45).1, (rotated kl 60).2), rotated ka 60],
          [rotated kl 94, rotated ka 94, rotated kl 111]]
      layers := [rotated ka 30, rotated kl 77]
      finish := rotated ka 111 }
  else
    { start := kl
      groups :=
        [[kb, rotated kr 15, rotated ka 15],
          [rotated kb 30, rotated kl 45, rotated ka 45],
          [rotated kr 60, rotated kb 60, rotated kl 77],
          [rotated kr 94, rotated ka 94, rotated kl 111]]
      layers := [rotated kr 30, rotated kl 60, rotated ka 77]
      finish := rotated kb 111 }

/-- The groups of rounds that remain, with the linear layers between them. -/
def rounds : List (List Halves) → List Halves → Halves → Halves
  | [], _, d => d
  | g :: gs, l :: ls, d =>
    let d := g.foldl roundPair d
    rounds gs ls (fl d.1 l.1, flInverse d.2 l.2)
  | g :: gs, [], d => rounds gs [] (g.foldl roundPair d)

/-- Encrypts a block under subkeys. -/
def encrypt (s : Schedule) (block : Bytes) : Bytes :=
  let d : Halves := (UInt64.ofNat (Bytes.toNat (block.take 8)), UInt64.ofNat (Bytes.toNat (block.drop 8)))
  let d := rounds s.groups s.layers (xor d s.start)
  let d := xor (d.2, d.1) s.finish
  Bytes.ofNat 8 d.1.toNat ++ Bytes.ofNat 8 d.2.toNat

end SoftToken.Camellia
