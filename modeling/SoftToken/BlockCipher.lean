import SoftToken.BlockCipher.Aes
import SoftToken.BlockCipher.Camellia
import SoftToken.KeyType
/-!
# Block ciphers

AES and Camellia work on blocks of 16 bytes. Data in whole blocks is encrypted block by block (`ecb`)
or chained (`cbc`); `cmac` authenticates data of any length.
-/

namespace SoftToken

/-- A block cipher. -/
inductive BlockCipher where
  | aes
  | camellia
deriving DecidableEq, Repr

namespace BlockCipher

/-- The size of a block, for both ciphers. -/
def blockSize : Nat := 16

def keyType : BlockCipher → KeyType
  | aes => .aes
  | camellia => .camellia

/-- The cipher of keys of a type. -/
def ofKeyType? (t : KeyType) : Option BlockCipher :=
  if t = .aes then some aes else if t = .camellia then some camellia else none

/-- The encryption of blocks under a key of 16, 24 or 32 bytes. -/
def encryptor? (c : BlockCipher) (key : Bytes) : Option (Bytes → Bytes) :=
  if c.keyType.allowsLength key.length then
    match c with
    | aes => let keys := Aes.roundKeys key; some (Aes.encrypt keys)
    | camellia => let s := Camellia.schedule key; some (Camellia.encrypt s)
  else none

/-- The first `n` blocks of data. -/
def blocksFrom : Nat → Bytes → List Bytes
  | 0, _ => []
  | n + 1, b => b.take blockSize :: blocksFrom n (b.drop blockSize)

/-- The whole blocks of data. -/
def blocks (b : Bytes) : List Bytes := blocksFrom (b.length / blockSize) b

/-- Encrypts each block by itself. -/
def ecb (e : Bytes → Bytes) (data : Bytes) : Bytes := (blocks data).flatMap e

/-- Encrypts each block mixed with the one before it. -/
def chain (e : Bytes → Bytes) : Bytes → List Bytes → List Bytes
  | _, [] => []
  | previous, b :: r => let c := e (Bytes.xor previous b); c :: chain e c r

/-- Encrypts in a chain that starts at an initial block. -/
def cbc (e : Bytes → Bytes) (iv data : Bytes) : Bytes := (chain e iv (blocks data)).flatten

/-- Doubling in the field of 2^128 elements. -/
def double (b : Bytes) : Bytes :=
  let n := 2 * Bytes.toNat b
  Bytes.ofNat blockSize (if n < 2 ^ 128 then n else n ^^^ 0x87)

/-- The message authentication code of data, one block long. The last block is masked, with one mask
if it is whole and with another if it had to be padded. -/
def cmac (e : Bytes → Bytes) (data : Bytes) : Bytes :=
  let mask := double (e (Bytes.zeros blockSize))
  let before := (data.length - 1) / blockSize
  let last := data.drop (blockSize * before)
  let final :=
    if last.length = blockSize then Bytes.xor last mask
    else Bytes.xor (last ++ 0x80 :: Bytes.zeros (blockSize - 1 - last.length)) (double mask)
  let state := (blocksFrom before data).foldl (fun s b => e (Bytes.xor s b)) (Bytes.zeros blockSize)
  e (Bytes.xor state final)

end BlockCipher
end SoftToken
