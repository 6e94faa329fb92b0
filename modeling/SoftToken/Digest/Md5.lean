import SoftToken.Words
/-!
# MD5

Four words, little endian, and 64 steps in four groups with a function, a word order and shifts each.
-/

namespace SoftToken.Md5

open Words

structure State where
  a : UInt32
  b : UInt32
  c : UInt32
  d : UInt32
deriving DecidableEq, Repr

def initial : State := ⟨0x67452301, 0xefcdab89, 0x98badcfe, 0x10325476⟩

/-- The added constants. -/
def constants : List UInt32 :=
  [0xd76aa478, 0xe8c7b756, 0x242070db, 0xc1bdceee, 0xf57c0faf, 0x4787c62a, 0xa8304613, 0xfd469501,
    0x698098d8, 0x8b44f7af, 0xffff5bb1, 0x895cd7be, 0x6b901122, 0xfd987193, 0xa679438e, 0x49b40821,
    0xf61e2562, 0xc040b340, 0x265e5a51, 0xe9b6c7aa, 0xd62f105d, 0x02441453, 0xd8a1e681, 0xe7d3fbc8,
    0x21e1cde6, 0xc33707d6, 0xf4d50d87, 0x455a14ed, 0xa9e3e905, 0xfcefa3f8, 0x676f02d9, 0x8d2a4c8a,
    0xfffa3942, 0x8771f681, 0x6d9d6122, 0xfde5380c, 0xa4beea44, 0x4bdecfa9, 0xf6bb4b60, 0xbebfbc70,
    0x289b7ec6, 0xeaa127fa, 0xd4ef3085, 0x04881d05, 0xd9d4d039, 0xe6db99e5, 0x1fa27cf8, 0xc4ac5665,
    0xf4292244, 0x432aff97, 0xab9423a7, 0xfc93a039, 0x655b59c3, 0x8f0ccc92, 0xffeff47d, 0x85845dd1,
    0x6fa87e4f, 0xfe2ce6e0, 0xa3014314, 0x4e0811a1, 0xf7537e82, 0xbd3af235, 0x2ad7d2bb, 0xeb86d391]

/-- The shifts of a group, used in turn. -/
def shift (i : Nat) : UInt32 :=
  match i / 16, i % 4 with
  | 0, 0 => 7 | 0, 1 => 12 | 0, 2 => 17 | 0, _ => 22
  | 1, 0 => 5 | 1, 1 => 9 | 1, 2 => 14 | 1, _ => 20
  | 2, 0 => 4 | 2, 1 => 11 | 2, 2 => 16 | 2, _ => 23
  | _, 0 => 6 | _, 1 => 10 | _, 2 => 15 | _, _ => 21

/-- The function and the word of a step. -/
def select (s : State) (i : Nat) : UInt32 × Nat :=
  match i / 16 with
  | 0 => ((s.b &&& s.c) ||| (~~~s.b &&& s.d), i)
  | 1 => ((s.d &&& s.b) ||| (~~~s.d &&& s.c), (5 * i + 1) % 16)
  | 2 => (s.b ^^^ s.c ^^^ s.d, (3 * i + 5) % 16)
  | _ => (s.c ^^^ (s.b ||| ~~~s.d), (7 * i) % 16)

/-- The steps that remain. -/
def steps (b : ByteArray) (pos : Nat) : List UInt32 → Nat → State → State
  | [], _, s => s
  | k :: ks, i, s =>
    let (f, g) := select s i
    let sum := s.a + f + k + le32 b (pos + 4 * g)
    steps b pos ks (i + 1) ⟨s.d, s.b + rotl32 sum (shift i), s.b, s.c⟩

/-- Takes in the block at a position. -/
def compress (s : State) (b : ByteArray) (pos : Nat) : State :=
  let r := steps b pos constants 0 s
  ⟨s.a + r.a, s.b + r.b, s.c + r.c, s.d + r.d⟩

/-- The MD5 digest, 16 bytes. -/
def md5 (m : ByteArray) : ByteArray :=
  let p := pushLE64 (pushEndMark m 64 8) (UInt64.ofNat (8 * m.size))
  let s := foldBlocks compress 64 p (p.size / 64) 0 initial
  [s.a, s.b, s.c, s.d].foldl pushLE32 ByteArray.empty

end SoftToken.Md5
