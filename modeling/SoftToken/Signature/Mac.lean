import SoftToken.BlockCipher
import SoftToken.Error
import SoftToken.Hmac
import SoftToken.Poly1305
/-!
# Message authentication codes

A keyed code over a message: HMAC over a digest, CMAC over a block cipher, or the one-time
authenticator Poly1305.
-/

namespace SoftToken

/-- A message authentication code with its key. -/
inductive Mac where
  | hmac (digest : Digest) (key : Bytes)
  | cmac (cipher : BlockCipher) (key : Bytes)
  | poly1305 (key : Bytes)
deriving DecidableEq, Repr

namespace Mac

/-- CMAC under a key of one of the cipher's lengths. -/
def newCmac (c : BlockCipher) (key : Bytes) : Except Error Mac :=
  if c.keyType.allowsLength key.length then .ok (cmac c key) else fail .keySizeRange

/-- Poly1305 under a key of the right length. -/
def newPoly1305 (key : Bytes) : Except Error Mac :=
  if key.length = Poly1305.keyLength then .ok (poly1305 key) else refuse .keySizeRange .poly1305KeyLength

/-- The length of the full code. -/
def length : Mac → Nat
  | hmac d _ => d.outputLength
  | cmac _ _ => BlockCipher.blockSize
  | poly1305 _ => Poly1305.tagLength

/-- The full code of a message. -/
def tag : Mac → Bytes → Bytes
  | hmac d key, m => Hmac.hmac d key m
  | cmac c key, m => match c.encryptor? key with
    | some e => BlockCipher.cmac e m
    | none => []
  | poly1305 key, m => Poly1305.tag key m

end Mac
end SoftToken
