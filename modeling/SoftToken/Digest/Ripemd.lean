import SoftToken.Words
/-!
# RIPEMD-128 and RIPEMD-160

Two lines of rounds run over each block, with word orders and shifts of their own, and are added up at
the end. The two digests differ in the number of words and of rounds.
-/

namespace SoftToken.Ripemd

open Words

/-- The word and the shift of each step of the left line. -/
def leftSteps : List (Nat × UInt32) :=
  [(0, 11), (1, 14), (2, 15), (3, 12), (4, 5), (5, 8), (6, 7), (7, 9), (8, 11), (9, 13), (10, 14), (11, 15), (12, 6), (13, 7), (14, 9), (15, 8),
    (7, 7), (4, 6), (13, 8), (1, 13), (10, 11), (6, 9), (15, 7), (3, 15), (12, 7), (0, 12), (9, 15), (5, 9), (2, 11), (14, 7), (11, 13), (8, 12),
    (3, 11), (10, 13), (14, 6), (4, 7), (9, 14), (15, 9), (8, 13), (1, 15), (2, 14), (7, 8), (0, 13), (6, 6), (13, 5), (11, 12), (5, 7), (12, 5),
    (1, 11), (9, 12), (11, 14), (10, 15), (0, 14), (8, 15), (12, 9), (4, 8), (13, 9), (3, 14), (7, 5), (15, 6), (14, 8), (5, 6), (6, 5), (2, 12),
    (4, 9), (0, 15), (5, 5), (9, 11), (7, 6), (12, 8), (2, 13), (10, 12), (14, 5), (1, 12), (3, 13), (8, 14), (11, 11), (6, 8), (15, 5), (13, 6)]

/-- The word and the shift of each step of the right line. -/
def rightSteps : List (Nat × UInt32) :=
  [(5, 8), (14, 9), (7, 9), (0, 11), (9, 13), (2, 15), (11, 15), (4, 5), (13, 7), (6, 7), (15, 8), (8, 11), (1, 14), (10, 14), (3, 12), (12, 6),
    (6, 9), (11, 13), (3, 15), (7, 7), (0, 12), (13, 8), (5, 9), (10, 11), (14, 7), (15, 7), (8, 12), (12, 7), (4, 6), (9, 15), (1, 13), (2, 11),
    (15, 9), (5, 7), (1, 15), (3, 11), (7, 8), (14, 6), (6, 6), (9, 14), (11, 12), (8, 13), (12, 5), (2, 14), (10, 13), (0, 13), (4, 7), (13, 5),
    (8, 15), (6, 5), (4, 8), (1, 11), (3, 14), (11, 14), (15, 6), (0, 14), (5, 6), (12, 9), (2, 12), (13, 9), (9, 12), (7, 5), (10, 15), (14, 8),
    (12, 8), (15, 5), (10, 12), (4, 9), (1, 12), (5, 5), (8, 14), (7, 6), (6, 8), (2, 13), (13, 6), (14, 5), (0, 15), (3, 13), (9, 11), (11, 11)]

/-- The function of the group with number `j`. -/
def mix (j : Nat) (x y z : UInt32) : UInt32 :=
  match j with
  | 0 => x ^^^ y ^^^ z
  | 1 => (x &&& y) ||| (~~~x &&& z)
  | 2 => (x ||| ~~~y) ^^^ z
  | 3 => (x &&& z) ||| (y &&& ~~~z)
  | _ => x ^^^ (y ||| ~~~z)

/-- The constant of a group of the left line. -/
def leftConstant : Nat → UInt32
  | 0 => 0
  | 1 => 0x5a827999
  | 2 => 0x6ed9eba1
  | 3 => 0x8f1bbcdc
  | _ => 0xa953fd4e

/-! ## RIPEMD-160 -/

structure State160 where
  a : UInt32
  b : UInt32
  c : UInt32
  d : UInt32
  e : UInt32
deriving DecidableEq, Repr

def initial160 : State160 := ⟨0x67452301, 0xefcdab89, 0x98badcfe, 0x10325476, 0xc3d2e1f0⟩

/-- The constant of a group of the right line. -/
def rightConstant160 : Nat → UInt32
  | 0 => 0x50a28be6
  | 1 => 0x5c4dd124
  | 2 => 0x6d703ef3
  | 3 => 0x7a6d76e9
  | _ => 0

/-- Runs a line of steps, with the function and the constant of each step. -/
def line160 (b : ByteArray) (pos : Nat) (f : Nat → UInt32 → UInt32 → UInt32 → UInt32) :
    List (Nat × UInt32) → Nat → State160 → State160
  | [], _, s => s
  | (word, shift) :: r, i, s =>
    let t := rotl32 (s.a + f i s.b s.c s.d + le32 b (pos + 4 * word)) shift + s.e
    line160 b pos f r (i + 1) ⟨s.e, t, s.b, rotl32 s.c 10, s.d⟩

def compress160 (s : State160) (b : ByteArray) (pos : Nat) : State160 :=
  let l := line160 b pos (fun i x y z => mix (i / 16) x y z + leftConstant (i / 16)) leftSteps 0 s
  let r := line160 b pos (fun i x y z => mix (4 - i / 16) x y z + rightConstant160 (i / 16)) rightSteps 0 s
  ⟨s.b + l.c + r.d, s.c + l.d + r.e, s.d + l.e + r.a, s.e + l.a + r.b, s.a + l.b + r.c⟩

/-- The message padded to whole blocks. -/
def pad (m : ByteArray) : ByteArray := pushLE64 (pushEndMark m 64 8) (UInt64.ofNat (8 * m.size))

/-- The RIPEMD-160 digest, 20 bytes. -/
def ripemd160 (m : ByteArray) : ByteArray :=
  let p := pad m
  let s := foldBlocks compress160 64 p (p.size / 64) 0 initial160
  [s.a, s.b, s.c, s.d, s.e].foldl pushLE32 ByteArray.empty

/-! ## RIPEMD-128 -/

structure State128 where
  a : UInt32
  b : UInt32
  c : UInt32
  d : UInt32
deriving DecidableEq, Repr

def initial128 : State128 := ⟨0x67452301, 0xefcdab89, 0x98badcfe, 0x10325476⟩

/-- The constant of a group of the right line. -/
def rightConstant128 : Nat → UInt32
  | 0 => 0x50a28be6
  | 1 => 0x5c4dd124
  | 2 => 0x6d703ef3
  | _ => 0

/-- Runs a line of steps, with the function and the constant of each step. -/
def line128 (b : ByteArray) (pos : Nat) (f : Nat → UInt32 → UInt32 → UInt32 → UInt32) :
    List (Nat × UInt32) → Nat → State128 → State128
  | [], _, s => s
  | (word, shift) :: r, i, s =>
    let t := rotl32 (s.a + f i s.b s.c s.d + le32 b (pos + 4 * word)) shift
    line128 b pos f r (i + 1) ⟨s.d, t, s.b, s.c⟩

def compress128 (s : State128) (b : ByteArray) (pos : Nat) : State128 :=
  let l := line128 b pos (fun i x y z => mix (i / 16) x y z + leftConstant (i / 16)) (leftSteps.take 64) 0 s
  let r := line128 b pos (fun i x y z => mix (3 - i / 16) x y z + rightConstant128 (i / 16)) (rightSteps.take 64) 0 s
  ⟨s.b + l.c + r.d, s.c + l.d + r.a, s.d + l.a + r.b, s.a + l.b + r.c⟩

/-- The RIPEMD-128 digest, 16 bytes. -/
def ripemd128 (m : ByteArray) : ByteArray :=
  let p := pad m
  let s := foldBlocks compress128 64 p (p.size / 64) 0 initial128
  [s.a, s.b, s.c, s.d].foldl pushLE32 ByteArray.empty

end SoftToken.Ripemd
