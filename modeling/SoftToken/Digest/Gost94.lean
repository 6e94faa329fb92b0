import SoftToken.Words
/-!
# GOST R 34.11-94

A block of 32 bytes is taken in by encrypting the state under four keys made from state and block,
then stirring the result with a shift register over 16-bit words. The substitution is the one of the
CryptoPro parameter set. Byte strings are little endian.
-/

namespace SoftToken.Gost94

/-- The rows of the substitution, one for each half byte of a word. -/
def substitution : Array (Array UInt32) :=
  #[#[10, 4, 5, 6, 8, 1, 3, 7, 13, 12, 14, 0, 9, 2, 11, 15],
    #[5, 15, 4, 0, 2, 13, 11, 9, 1, 7, 6, 3, 12, 14, 10, 8],
    #[7, 15, 12, 14, 9, 4, 1, 0, 3, 11, 5, 2, 6, 10, 8, 13],
    #[4, 10, 7, 12, 0, 15, 2, 8, 14, 1, 6, 5, 13, 11, 9, 3],
    #[7, 6, 4, 11, 9, 12, 2, 10, 1, 8, 0, 14, 15, 13, 3, 5],
    #[7, 6, 2, 4, 13, 9, 15, 0, 10, 1, 5, 11, 8, 14, 12, 3],
    #[13, 14, 4, 1, 7, 0, 5, 10, 3, 12, 8, 15, 6, 2, 9, 11],
    #[1, 3, 10, 9, 5, 11, 4, 15, 8, 6, 7, 14, 13, 0, 2, 12]]

/-- Replaces each half byte of a word. -/
def substitute (x : UInt32) : UInt32 :=
  (List.range 8).foldl (fun acc i =>
    let shift := UInt32.ofNat (4 * i)
    acc ||| ((substitution[i]!)[((x >>> shift) &&& 15).toNat]! <<< shift)) 0

/-- Encrypts a block of two words under a key of eight: three times forwards, once backwards. -/
def encrypt (key : ByteArray) (lo hi : UInt32) : UInt32 × UInt32 :=
  let order := [0, 1, 2, 3, 4, 5, 6, 7, 0, 1, 2, 3, 4, 5, 6, 7, 0, 1, 2, 3, 4, 5, 6, 7, 7, 6, 5, 4, 3, 2, 1, 0]
  let r := order.foldl (fun (n : UInt32 × UInt32) i =>
    let t := substitute (n.1 + Words.le32 key (4 * i))
    (n.2 ^^^ Words.rotl32 t 11, n.1)) (lo, hi)
  (r.2, r.1)

/-- The bytes that `f` gives for the positions of a block. -/
def build (f : Nat → UInt8) : ByteArray := ⟨((List.range 32).map f).toArray⟩

def xor (a b : ByteArray) : ByteArray := build fun i => Words.byteAt a i ^^^ Words.byteAt b i

/-- Moves the 64-bit parts down by one; the new highest part is the sum of the two lowest. -/
def moveParts (y : ByteArray) : ByteArray :=
  build fun i =>
    if i < 24 then Words.byteAt y (i + 8) else Words.byteAt y (i - 24) ^^^ Words.byteAt y (i - 16)

/-- Reads the block by columns of eight bytes. -/
def permuteBytes (y : ByteArray) : ByteArray := build fun i => Words.byteAt y (8 * (i % 4) + i / 4)

/-- The constant of the third key. -/
def keyConstant : ByteArray :=
  ⟨#[0x00, 0xff, 0x00, 0xff, 0x00, 0xff, 0x00, 0xff, 0xff, 0x00, 0xff, 0x00, 0xff, 0x00, 0xff, 0x00,
    0x00, 0xff, 0xff, 0x00, 0xff, 0x00, 0x00, 0xff, 0xff, 0x00, 0x00, 0x00, 0xff, 0xff, 0x00, 0xff]⟩

/-- The four keys made from the state and a block. -/
def keys (h m : ByteArray) : List ByteArray :=
  let v2 := moveParts (moveParts m)
  let v3 := moveParts (moveParts v2)
  let v4 := moveParts (moveParts v3)
  let u2 := moveParts h
  let u3 := xor (moveParts u2) keyConstant
  let u4 := moveParts u3
  [xor h m, xor u2 v2, xor u3 v3, xor u4 v4].map permuteBytes

/-- Encrypts each part of the state under its key. -/
def encryptParts (h m : ByteArray) : ByteArray :=
  ((keys h m).zipIdx).foldl (fun out (k, i) =>
    let r := encrypt k (Words.le32 h (8 * i)) (Words.le32 h (8 * i + 4))
    Words.pushLE32 (Words.pushLE32 out r.1) r.2) ByteArray.empty

/-- Shifts out the lowest 16-bit word; six of the words give the new highest one. -/
def stir (y : ByteArray) : ByteArray :=
  let fold := fun o => [0, 2, 4, 6, 24, 30].foldl (fun x i => x ^^^ Words.byteAt y (i + o)) (0 : UInt8)
  build fun i => if i < 30 then Words.byteAt y (i + 2) else fold (i - 30)

def stirTimes (n : Nat) (y : ByteArray) : ByteArray := Nat.repeat stir n y

/-- The state after a block. -/
def compress (h m : ByteArray) : ByteArray :=
  stirTimes 61 (xor h (stir (xor m (stirTimes 12 (encryptParts h m)))))

/-- Little endian addition modulo 2^256. -/
def add (a b : ByteArray) : ByteArray :=
  ((List.range 32).foldl (fun (acc : ByteArray × UInt32) i =>
    let s := acc.2 + (Words.byteAt a i).toUInt32 + (Words.byteAt b i).toUInt32
    (acc.1.push s.toUInt8, s >>> 8)) (ByteArray.empty, 0)).1

/-- The GOST R 34.11-94 digest, 32 bytes. -/
def gost94 (m : ByteArray) : ByteArray :=
  let zero := build fun _ => 0
  let blocks := (m.size + 31) / 32
  let r := (List.range blocks).foldl (fun (acc : ByteArray × ByteArray) i =>
    let b := build fun j => Words.byteAt m (32 * i + j)
    (compress acc.1 b, add acc.2 b)) (zero, zero)
  let bits := build fun i => UInt8.ofNat ((8 * m.size) / 256 ^ i)
  compress (compress r.1 bits) r.2

end SoftToken.Gost94
