import SoftToken.Digest
/-!
# HMAC

The keyed digest of a message, over any digest with blocks. A key longer than a block is replaced by
its digest.
-/

namespace SoftToken.Hmac

/-- The key filled up to a block, with every byte masked. -/
def maskedKey (d : Digest) (key : Bytes) (mask : UInt8) : Bytes :=
  let key := if key.length > d.blockLength then d.hash key else key
  (key ++ Bytes.zeros (d.blockLength - key.length)).map (· ^^^ mask)

/-- The code of a message under a key, as long as the digest. -/
def hmac (d : Digest) (key message : Bytes) : Bytes :=
  d.hash (maskedKey d key 0x5c ++ d.hash (maskedKey d key 0x36 ++ message))

end SoftToken.Hmac
