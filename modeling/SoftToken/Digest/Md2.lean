import SoftToken.Words
/-!
# MD2

The message is padded with bytes that tell their own number, followed by a checksum block, and mixed
into a state of 48 bytes through a permutation of the byte values.
-/

namespace SoftToken.Md2

/-- The permutation of the byte values. -/
def substitution : ByteArray :=
  ⟨#[41, 46, 67, 201, 162, 216, 124, 1, 61, 54, 84, 161, 236, 240, 6, 19,
     98, 167, 5, 243, 192, 199, 115, 140, 152, 147, 43, 217, 188, 76, 130, 202,
     30, 155, 87, 60, 253, 212, 224, 22, 103, 66, 111, 24, 138, 23, 229, 18,
     190, 78, 196, 214, 218, 158, 222, 73, 160, 251, 245, 142, 187, 47, 238, 122,
     169, 104, 121, 145, 21, 178, 7, 63, 148, 194, 16, 137, 11, 34, 95, 33,
     128, 127, 93, 154, 90, 144, 50, 39, 53, 62, 204, 231, 191, 247, 151, 3,
     255, 25, 48, 179, 72, 165, 181, 209, 215, 94, 146, 42, 172, 86, 170, 198,
     79, 184, 56, 210, 150, 164, 125, 182, 118, 252, 107, 226, 156, 116, 4, 241,
     69, 157, 112, 89, 100, 113, 135, 32, 134, 91, 207, 101, 230, 45, 168, 2,
     27, 96, 37, 173, 174, 176, 185, 246, 28, 70, 97, 105, 52, 64, 126, 15,
     85, 71, 163, 35, 221, 81, 175, 58, 195, 92, 249, 206, 186, 197, 234, 38,
     44, 83, 13, 110, 133, 40, 132, 9, 211, 223, 205, 244, 65, 129, 77, 82,
     106, 220, 55, 200, 108, 193, 171, 250, 36, 225, 123, 8, 12, 189, 177, 74,
     120, 136, 149, 139, 227, 99, 232, 109, 233, 203, 213, 254, 59, 0, 29, 57,
     242, 239, 183, 14, 102, 88, 208, 228, 166, 119, 114, 248, 235, 117, 75, 10,
     49, 68, 80, 180, 143, 237, 31, 26, 219, 153, 141, 51, 159, 17, 131, 20]⟩

def substitute (x : UInt8) : UInt8 := Words.byteAt substitution x.toNat

/-- The padding: as many bytes as are missing, each telling their number. -/
def pad (m : List UInt8) : List UInt8 :=
  let n := 16 - m.length % 16
  m ++ List.replicate n (UInt8.ofNat n)

/-- The first `n` blocks of 16 bytes. -/
def blocks : Nat → List UInt8 → List (List UInt8)
  | 0, _ => []
  | n + 1, m => m.take 16 :: blocks n (m.drop 16)

/-- One byte of the checksum: `last` is the byte before it. -/
def checksumByte (acc : List UInt8 × UInt8) (old : UInt8 × UInt8) : List UInt8 × UInt8 :=
  let next := old.1 ^^^ substitute (old.2 ^^^ acc.2)
  (acc.1 ++ [next], next)

/-- The checksum after another block. -/
def checksum (c block : List UInt8) : List UInt8 :=
  ((List.zip c block).foldl checksumByte ([], c.getLastD 0)).1

/-- One pass over the state; each byte is mixed with the one before it. -/
def pass (t : UInt8) (state : List UInt8) : UInt8 × List UInt8 :=
  let r := state.foldl (fun acc x => let y := x ^^^ substitute acc.1; (y, y :: acc.2)) (t, [])
  (r.1, r.2.reverse)

/-- The eighteen passes. -/
def passes (state : List UInt8) : List UInt8 :=
  ((List.range 18).foldl (fun acc j =>
    let r := pass acc.1 acc.2
    (r.1 + UInt8.ofNat j, r.2)) ((0 : UInt8), state)).2

/-- The first 16 bytes of the state after another block. -/
def compress (h block : List UInt8) : List UInt8 :=
  (passes (h ++ block ++ List.zipWith (· ^^^ ·) h block)).take 16

/-- The MD2 digest, 16 bytes. -/
def md2 (m : List UInt8) : List UInt8 :=
  let zeros := List.replicate 16 0
  let padded := pad m
  let bs := blocks (padded.length / 16) padded
  (bs ++ [bs.foldl checksum zeros]).foldl compress zeros

end SoftToken.Md2
