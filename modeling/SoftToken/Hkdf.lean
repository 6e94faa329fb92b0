import SoftToken.Hmac
/-!
# HKDF

Extraction turns input keying material into a pseudorandom key, expansion turns such a key into output
of any length up to 255 digests.
-/

namespace SoftToken.Hkdf

/-- The pseudorandom key; without a salt it is keyed with zeros. -/
def extract (d : Digest) (salt : Option Bytes) (ikm : Bytes) : Bytes :=
  Hmac.hmac d (salt.getD (Bytes.zeros d.outputLength)) ikm

/-- The blocks of output from block `i` on, each made from the one before it. -/
def blocksFrom (d : Digest) (prk info : Bytes) : Nat → Nat → Bytes → Bytes
  | 0, _, _ => []
  | n + 1, i, previous =>
    let t := Hmac.hmac d prk (previous ++ info ++ [UInt8.ofNat i])
    t ++ blocksFrom d prk info n (i + 1) t

/-- Output of `len` bytes. -/
def expand (d : Digest) (prk info : Bytes) (len : Nat) : Bytes :=
  (blocksFrom d prk info ((len + d.outputLength - 1) / d.outputLength) 1 []).take len

end SoftToken.Hkdf
