import SoftToken.Rsa.Key
import SoftToken.Rsa.OaepSteps
/-!
# RSA encryption

Short data is padded to the size of the modulus and encrypted by the raw public operation. Whatever is
wrong with a padding, decryption fails in the same way.
-/

namespace SoftToken.Rsa

/-- How data is padded for encryption. -/
inductive Padding where
  | pkcs1
  | oaep (p : Oaep)
deriving DecidableEq, Repr

namespace Padding

/-- The bytes of the modulus that the padding takes. -/
def overhead : Padding → Nat
  | pkcs1 => 11
  | oaep p => 2 * p.hash.outputLength + 2

/-- The longest data that fits. -/
def maxData (p : Padding) (k : Key) : Nat := k.size - p.overhead

end Padding

/-- Draws a byte until it is not zero, with at most `fuel` requests. -/
def drawNonZero : Nat → Draw UInt8
  | 0 => throw (.abort .randomSource)
  | fuel + 1 => do
    match ← Draw.bytesOrAbort 1 with
    | [x] => if x = 0 then drawNonZero fuel else return x
    | _ => throw (.abort .randomSource)

/-- Replaces zeros by drawn bytes, from the first to the last. -/
def replaceZeros : Bytes → Draw Bytes
  | [] => return []
  | x :: r => do
    let x ← if x = 0 then drawNonZero Key.maxRequests else pure x
    return x :: (← replaceZeros r)

/-- Encrypts data to the owner of a key. -/
def encrypt (k : Key) (p : Padding) (data : Bytes) : Draw Bytes := do
  if p.maxData k < data.length then throw (.error (.bare .dataLenRange))
  else match p with
    | .pkcs1 =>
      if k.size < data.length + 11 then throw (.error Key.primitiveError)
      else
        let filling ← replaceZeros (← Draw.bytesOrAbort (k.size - data.length - 3))
        return Bytes.ofNat k.size (k.encrypt (Bytes.toNat (encryptionBlock filling data)))
    | .oaep o => return Bytes.ofNat k.size (k.encrypt (Bytes.toNat (← o.drawEncoding k.size data)))

/-- Recovers encrypted data. -/
def decrypt (k : Key) (p : Padding) (data : Bytes) : Except Error Bytes :=
  if k.size < data.length then fail .encryptedDataLenRange
  else match k.decrypt (Bytes.toNat data) with
    | .error _ => .error (.caused .encryptedDataInvalid .rsaPrimitive)
    | .ok m =>
      let em := Bytes.ofNat k.size m
      match p with
      | .pkcs1 => match if k.size < 11 then none else openEncryptionBlock? em with
        | some message => .ok message
        | none => .error (.caused .encryptedDataInvalid .rsaPrimitive)
      | .oaep o => match o.decode? em with
        | some message => .ok message
        | none => fail .encryptedDataInvalid

end SoftToken.Rsa
