/-!
# Key types and object classes

A key type says what kind of material a key object carries. The secret key types are listed here
with the lengths they allow: some fix the length of the secret, AES and Camellia take three sizes,
all others take any secret that is not empty.
-/

namespace SoftToken

/-- The class of an object. -/
structure ObjectClass where
  val : UInt64
deriving DecidableEq, Repr, Inhabited

namespace ObjectClass

def publicKey : ObjectClass := ⟨0x02⟩
def privateKey : ObjectClass := ⟨0x03⟩
def secretKey : ObjectClass := ⟨0x04⟩

/-- Whether objects of the class hold material that must not leak. -/
def holdsSecret (c : ObjectClass) : Bool := c == privateKey || c == secretKey

end ObjectClass

/-- The type of a key. -/
structure KeyType where
  val : UInt64
deriving DecidableEq, Repr, Inhabited

namespace KeyType

def rsa : KeyType := ⟨0x00⟩
def ec : KeyType := ⟨0x03⟩
def genericSecret : KeyType := ⟨0x10⟩
def des : KeyType := ⟨0x13⟩
def des2 : KeyType := ⟨0x14⟩
def des3 : KeyType := ⟨0x15⟩
def aes : KeyType := ⟨0x1f⟩
def camellia : KeyType := ⟨0x25⟩
def md5Hmac : KeyType := ⟨0x27⟩
def sha1Hmac : KeyType := ⟨0x28⟩
def ripemd128Hmac : KeyType := ⟨0x29⟩
def ripemd160Hmac : KeyType := ⟨0x2a⟩
def sha256Hmac : KeyType := ⟨0x2b⟩
def sha384Hmac : KeyType := ⟨0x2c⟩
def sha512Hmac : KeyType := ⟨0x2d⟩
def sha224Hmac : KeyType := ⟨0x2e⟩
def chacha20 : KeyType := ⟨0x33⟩
def poly1305 : KeyType := ⟨0x34⟩
def sha3_224Hmac : KeyType := ⟨0x36⟩
def sha3_256Hmac : KeyType := ⟨0x37⟩
def sha3_384Hmac : KeyType := ⟨0x38⟩
def sha3_512Hmac : KeyType := ⟨0x39⟩
def blake2b160Hmac : KeyType := ⟨0x3a⟩
def blake2b256Hmac : KeyType := ⟨0x3b⟩
def blake2b384Hmac : KeyType := ⟨0x3c⟩
def blake2b512Hmac : KeyType := ⟨0x3d⟩
def salsa20 : KeyType := ⟨0x3e⟩
def ecEdwards : KeyType := ⟨0x40⟩
def ecMontgomery : KeyType := ⟨0x41⟩
def hkdf : KeyType := ⟨0x42⟩
def mlKem : KeyType := ⟨0x49⟩
def mlDsa : KeyType := ⟨0x4a⟩
def slhDsa : KeyType := ⟨0x4b⟩

/-- The types a secret key may have. -/
def secretTypes : List KeyType :=
  [genericSecret, aes, camellia, des, des2, des3, chacha20, salsa20, poly1305, hkdf,
    md5Hmac, sha1Hmac, ripemd128Hmac, ripemd160Hmac, sha224Hmac, sha256Hmac, sha384Hmac, sha512Hmac,
    sha3_224Hmac, sha3_256Hmac, sha3_384Hmac, sha3_512Hmac,
    blake2b160Hmac, blake2b256Hmac, blake2b384Hmac, blake2b512Hmac]

/-- Whether a secret key may have the type. -/
def isSecret (t : KeyType) : Bool := secretTypes.contains t

/-- The types that fix the length of the secret. -/
def fixedLengths : List (KeyType × Nat) :=
  [(des, 8), (des2, 16), (des3, 24), (chacha20, 32), (salsa20, 32), (poly1305, 32)]

/-- The length the type imposes on a secret, if it does. -/
def secretLength? (t : KeyType) : Option Nat := fixedLengths.lookup t

/-- Whether the type is a block cipher with keys of 16, 24 or 32 bytes. -/
def isBlockCipher (t : KeyType) : Bool := t == aes || t == camellia

/-- The length of the shortest secret of the type. -/
def minSecretLength (t : KeyType) : Nat := if t.isBlockCipher then 16 else t.secretLength?.getD 1

/-- Whether a secret of the type may have `len` bytes. -/
def allowsLength (t : KeyType) (len : Nat) : Bool :=
  if t.isBlockCipher then len == 16 || len == 24 || len == 32
  else match t.secretLength? with
    | some required => len == required
    | none => decide (0 < len)

end KeyType
end SoftToken
