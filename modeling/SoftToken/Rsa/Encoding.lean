import SoftToken.CounterStream
import SoftToken.Der
import SoftToken.Modular
/-!
# Encodings for RSA

How messages and digests are turned into blocks of the size of a modulus before a raw operation, and
read back. Each encoder is a function of the random bytes it uses, so that a checker can be compared
with it.
-/

namespace SoftToken.Rsa

/-! ## PKCS #1 version 1.5 -/

/-- The block of a signature: filled up with 0xff. -/
def signatureBlock? (size : Nat) (data : Bytes) : Option Bytes :=
  if data.length + 11 ≤ size then
    some ([0, 1] ++ List.replicate (size - data.length - 3) 0xff ++ 0 :: data)
  else none

/-- The block of an encryption, filled up with bytes that are not zero. -/
def encryptionBlock (filling data : Bytes) : Bytes := [0, 2] ++ filling ++ 0 :: data

/-- The data of an encryption block: after at least eight bytes of filling and a zero. -/
def openEncryptionBlock? (block : Bytes) : Option Bytes :=
  match block with
  | 0 :: 2 :: r =>
    let filling := r.takeWhile (· != 0)
    match r.dropWhile (· != 0) with
    | _ :: data => if 8 ≤ filling.length then some data else none
    | [] => none
  | _ => none

/-! ## PSS -/

/-- The parameters of a PSS signature. -/
structure Pss where
  hash : Digest
  mask : Digest
  saltLength : Nat
deriving DecidableEq, Repr

namespace Pss

/-- The length of an encoding for a modulus of `bits` bits: one bit fewer, in bytes. -/
def encodedLength (bits : Nat) : Nat := (bits - 1 + 7) / 8

/-- The bits of the first byte that an encoding may use. -/
def topMask (bits : Nat) : UInt8 := 0xff >>> UInt8.ofNat (8 * encodedLength bits - (bits - 1))

/-- Clears the bits of the first byte that must be zero. -/
def clearTop (bits : Nat) : Bytes → Bytes
  | [] => []
  | x :: r => (x &&& topMask bits) :: r

/-- The digest that binds a message digest and a salt. -/
def bindingDigest (p : Pss) (digest salt : Bytes) : Bytes := p.hash.hash (Bytes.zeros 8 ++ digest ++ salt)

/-- Whether digest and salt fit into the encoding. -/
def fits (p : Pss) (bits : Nat) : Bool := decide (p.hash.outputLength + p.saltLength + 2 ≤ encodedLength bits)

/-- The encoding of a digest with a salt. -/
def encode (p : Pss) (bits : Nat) (digest salt : Bytes) : Bytes :=
  let h := p.bindingDigest digest salt
  let dbLength := encodedLength bits - p.hash.outputLength - 1
  let db := Bytes.zeros (dbLength - salt.length - 1) ++ 1 :: salt
  clearTop bits (Bytes.xor db (CounterStream.mask p.mask h dbLength)) ++ h ++ [0xbc]

/-- Whether an encoding of the right length is one of the digest. -/
def check (p : Pss) (bits : Nat) (digest em : Bytes) : Bool :=
  let dbLength := em.length - p.hash.outputLength - 1
  let masked := em.take dbLength
  let h := (em.drop dbLength).take p.hash.outputLength
  let db := clearTop bits (Bytes.xor masked (CounterStream.mask p.mask h dbLength))
  let fillLength := dbLength - p.saltLength - 1
  decide (p.hash.outputLength + p.saltLength + 2 ≤ em.length)
    && em.getLast? == some 0xbc
    && clearTop bits masked == masked
    && (db.take fillLength).all (· == 0)
    && db[fillLength]? == some 1
    && h == p.bindingDigest digest (db.drop (fillLength + 1))

end Pss

/-! ## OAEP -/

/-- The parameters of an OAEP encryption. -/
structure Oaep where
  hash : Digest
  mask : Digest
  label : Bytes
deriving DecidableEq, Repr

namespace Oaep

/-- The data block: the digest of the label, zeros, a one and the message. -/
def dataBlock (p : Oaep) (size : Nat) (message : Bytes) : Bytes :=
  let length := size - p.hash.outputLength - 1
  ((p.hash.hash p.label ++ Bytes.zeros length).take (length - message.length - 1)) ++ 1 :: message

/-- The encoding of a message with a seed. -/
def encode (p : Oaep) (size : Nat) (message seed : Bytes) : Bytes :=
  let db := p.dataBlock size message
  let maskedDb := Bytes.xor db (CounterStream.mask p.mask seed db.length)
  0 :: (Bytes.xor seed (CounterStream.mask p.mask maskedDb p.hash.outputLength) ++ maskedDb)

/-- The message of an encoding. -/
def decode? (p : Oaep) (em : Bytes) : Option Bytes :=
  let hLength := p.hash.outputLength
  if em.length < 2 * hLength + 2 then none
  else
    let maskedSeed := (em.drop 1).take hLength
    let maskedDb := em.drop (1 + hLength)
    let seed := Bytes.xor maskedSeed (CounterStream.mask p.mask maskedDb hLength)
    let db := Bytes.xor maskedDb (CounterStream.mask p.mask seed maskedDb.length)
    match (db.drop hLength).dropWhile (· == 0) with
    | 1 :: message => if em.head? = some 0 ∧ db.take hLength = p.hash.hash p.label then some message else none
    | _ => none

end Oaep

/-! ## X9.31 -/

/-- The block of a SHA-1 digest: a header, filling, the digest and a trailer. -/
def x931Block? (size : Nat) (digest : Bytes) : Option Bytes :=
  if digest.length + 4 ≤ size then
    some (0x6b :: List.replicate (size - digest.length - 4) 0xbb ++ 0xba :: digest ++ [0x33, 0xcc])
  else none

/-! ## ISO/IEC 9796-1 -/

namespace Iso9796

/-- The shadows of the half bytes. -/
def shadows : List UInt8 :=
  [0xe, 0x3, 0x5, 0x8, 0x9, 0x4, 0x2, 0xf, 0x0, 0xd, 0xb, 0x6, 0x7, 0xa, 0xc, 0x1]

/-- The shadow of a byte, half by half. -/
def shadow (x : UInt8) : UInt8 :=
  (shadows.getD (x >>> 4).toNat 0 <<< 4) ||| shadows.getD (x &&& 0x0f).toNat 0

/-- The largest message length for a modulus of `bits` bits. -/
def maxLength (bits : Nat) : Nat := (bits + 13) / 16

/-- The message repeated to `len` bytes, whole at the right end. -/
def extend (message : Bytes) (len : Nat) : Bytes :=
  (List.range len).map fun k => message.getD (message.length - 1 - (len - 1 - k) % message.length) 0

/-- Each byte after its shadow. -/
def interleave (b : Bytes) : Bytes := b.flatMap fun x => [shadow x, x]

/-- Fits a string to `len` bytes at the right end, with zeros or without its first bytes. -/
def fit (len : Nat) (b : Bytes) : Bytes := Bytes.padLeft len (b.drop (b.length - len))

/-- Marks the end of the block and sets the highest bit that the modulus leaves. -/
def finish (bits : Nat) (block : Bytes) : Bytes :=
  let block := block.modify (block.length - 1) fun x => (x <<< 4) ||| 0x06
  let unused := UInt8.ofNat (8 - (bits - 1) % 8)
  if unused = 8 then (block.drop 1).modify 0 (· ||| 0x80)
  else block.modify 0 fun x => (x &&& (0xff >>> unused)) ||| (0x80 >>> unused)

/-- The block of a message of allowed length; none if the length mark falls outside the block. -/
def block? (bits : Nat) (message : Bytes) : Option Bytes :=
  let len := (bits + 7) / 8
  if 2 * message.length ≤ len then
    let spread := fit len (interleave (extend message (maxLength bits)))
    some (finish bits (spread.modify (len - 2 * message.length) (· ^^^ 1)))
  else none

end Iso9796
end SoftToken.Rsa
