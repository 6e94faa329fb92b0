import SoftToken.Words
/-!
# BLAKE2b

Sixteen 64-bit words are mixed in twelve rounds, each in eight quarter rounds over the columns and
the diagonals. The length of the digest goes into the initial state, so a shorter digest is no
truncation of a longer one.
-/

namespace SoftToken.Blake2b

open Words

def initial : Array UInt64 :=
  #[0x6a09e667f3bcc908, 0xbb67ae8584caa73b, 0x3c6ef372fe94f82b, 0xa54ff53a5f1d36f1,
    0x510e527fade682d1, 0x9b05688c2b3e6c1f, 0x1f83d9abfb41bd6b, 0x5be0cd19137e2179]

/-- The orders in which a round takes the message words; they repeat after ten rounds. -/
def orders : Array (Array Nat) :=
  #[#[0, 1, 2, 3, 4, 5, 6, 7, 8, 9, 10, 11, 12, 13, 14, 15],
    #[14, 10, 4, 8, 9, 15, 13, 6, 1, 12, 0, 2, 11, 7, 5, 3],
    #[11, 8, 12, 0, 5, 2, 15, 13, 10, 14, 3, 6, 7, 1, 9, 4],
    #[7, 9, 3, 1, 13, 12, 11, 14, 2, 6, 5, 10, 4, 0, 15, 8],
    #[9, 0, 5, 7, 2, 4, 10, 15, 14, 1, 11, 12, 6, 8, 3, 13],
    #[2, 12, 6, 10, 0, 11, 8, 3, 4, 13, 7, 5, 15, 14, 1, 9],
    #[12, 5, 1, 15, 14, 13, 4, 10, 0, 7, 6, 3, 9, 2, 8, 11],
    #[13, 11, 7, 14, 12, 1, 3, 9, 5, 0, 15, 4, 8, 6, 2, 10],
    #[6, 15, 14, 9, 11, 3, 0, 8, 12, 2, 13, 7, 1, 4, 10, 5],
    #[10, 2, 8, 4, 7, 6, 1, 5, 15, 11, 9, 14, 3, 12, 13, 0]]

/-- The words a quarter round works on. -/
def quarters : List (Nat × Nat × Nat × Nat) :=
  [(0, 4, 8, 12), (1, 5, 9, 13), (2, 6, 10, 14), (3, 7, 11, 15),
    (0, 5, 10, 15), (1, 6, 11, 12), (2, 7, 8, 13), (3, 4, 9, 14)]

/-- Mixes two message words into four words of the state. -/
def quarter (v : Array UInt64) (q : Nat × Nat × Nat × Nat) (x y : UInt64) : Array UInt64 :=
  let (ia, ib, ic, id) := q
  let a := v[ia]! + v[ib]! + x
  let d := rotr64 (v[id]! ^^^ a) 32
  let c := v[ic]! + d
  let b := rotr64 (v[ib]! ^^^ c) 24
  let a := a + b + y
  let d := rotr64 (d ^^^ a) 16
  let c := c + d
  let b := rotr64 (b ^^^ c) 63
  (((v.set! ia a).set! ib b).set! ic c).set! id d

/-- One round over the message words. -/
def round (m : Array UInt64) (v : Array UInt64) (i : Nat) : Array UInt64 :=
  let order := orders[i % 10]!
  (quarters.zipIdx).foldl (fun v (q, j) => quarter v q m[order[2 * j]!]! m[order[2 * j + 1]!]!) v

/-- Takes in the block at a position. `count` bytes have gone in with it; the last block is marked. -/
def compress (h : Array UInt64) (b : ByteArray) (pos count : Nat) (last : Bool) : Array UInt64 :=
  let m := (Array.range 16).map fun i => le64 b (pos + 8 * i)
  let v := h ++ initial
  let v := v.modify 12 (· ^^^ UInt64.ofNat count)
  let v := v.modify 13 (· ^^^ UInt64.ofNat (count / 2 ^ 64))
  let v := if last then v.modify 14 (~~~ ·) else v
  let v := (List.range 12).foldl (round m) v
  (Array.range 8).map fun i => h[i]! ^^^ v[i]! ^^^ v[i + 8]!

/-- Takes in all blocks; the last one is full, or padded with zeros, or the only one. -/
def absorbAll (h : Array UInt64) (m : ByteArray) : Array UInt64 :=
  let before := (m.size - 1) / 128
  let h := (List.range before).foldl (fun h i => compress h m (128 * i) (128 * (i + 1)) false) h
  compress h m (128 * before) m.size true

/-- The BLAKE2b digest of `len` bytes without a key. -/
def blake2b (len : Nat) (m : ByteArray) : ByteArray :=
  let h := initial.modify 0 (· ^^^ (0x01010000 ^^^ UInt64.ofNat len))
  ((absorbAll h m).foldl pushLE64 ByteArray.empty).extract 0 len

end SoftToken.Blake2b
