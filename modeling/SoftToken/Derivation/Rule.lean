import SoftToken.Agreement
import SoftToken.BlockCipher
import SoftToken.Hkdf
import SoftToken.Key.Validity
/-!
# Derivation rules

How the material of a new key follows from a base key. A rule is a mechanism with its parameters read,
so that nothing but the base key and the length asked for is left open.
-/

namespace SoftToken

/-- Another key that is put behind the base key, with the history of its exposure. -/
structure OtherKey where
  value : Bytes
  alwaysSensitive : Bool
  neverExtractable : Bool
deriving DecidableEq, Repr

/-- The steps of an HKDF derivation. -/
structure HkdfSteps where
  digest : Digest
  extract : Bool
  expand : Bool
  salt : Option Bytes
  info : Bytes
deriving DecidableEq, Repr

/-- How the material of a new key is made. -/
inductive DerivationRule where
  /-- The digest of the base key. -/
  | digest (d : Digest)
  | appendKey (other : OtherKey)
  | appendData (data : Bytes)
  | prependData (data : Bytes)
  | xorData (data : Bytes)
  /-- The bits of the base key from an index on, in a circle. -/
  | extractBits (index : Nat)
  /-- The value agreed with a peer. -/
  | agree (kdf : AgreementKdf) (shared peer : Bytes)
  | hkdf (steps : HkdfSteps)
  /-- The encryption of data under the base key, in a chain if there is an initial block. -/
  | encrypt (cipher : BlockCipher) (iv : Option Bytes) (data : Bytes)
deriving DecidableEq, Repr

namespace DerivationRule

/-- The bit of a string at an index, the most significant bit of the first byte first. -/
def bitAt (b : Bytes) (i : Nat) : Bool := (b.getD (i / 8) 0).toNat.testBit (7 - i % 8)

/-- Copies the bit that is `i` bits from `index` on, in a circle, over a zero at bit `i` of `out`. -/
def copyBit (b : Bytes) (index : Nat) (out : Bytes) (i : Nat) : Bytes :=
  let source := (index + i) % (8 * b.length)
  let bit := (b.getD (source / 8) 0 >>> UInt8.ofNat (7 - source % 8)) &&& 1
  out.modify (i / 8) (· ||| bit <<< UInt8.ofNat (7 - i % 8))

/-- A step of the copying loop. The place that the bit is taken from is counted in a word, before it goes around. -/
def stepBit (b : Bytes) (index : Nat) (out : Bytes) (i : Nat) : Except Failure Bytes := do
  discard (Checked.add index i)
  return copyBit b index out i

/-- `len` bytes of bits that start at an index, in a circle. -/
def bitsFrom (b : Bytes) (index len : Nat) : Except Failure Bytes := do
  Checked.reserve len
  (List.range (← Checked.mul len 8)).foldlM (stepBit b index) (Bytes.zeros len)

end DerivationRule

namespace HkdfSteps

/-- The most bytes that expansion gives. -/
def maxOutput (s : HkdfSteps) : Nat := 255 * s.digest.outputLength

/-- Expands a pseudorandom key. Room for the output is made before its length is checked. -/
def expandKey (s : HkdfSteps) (prk : Bytes) (len : Nat) : Except Failure Bytes := do
  Checked.reserve len
  if s.maxOutput < len then refuse .keySizeRange (.okmTooLong len)
  else return Hkdf.expand s.digest prk s.info len

/-- Runs the steps on keying material. -/
def run (s : HkdfSteps) (ikm : Bytes) (len : Nat) : Except Failure Bytes := do
  if s.extract then
    let prk := Hkdf.extract s.digest s.salt ikm
    if s.expand then s.expandKey prk len else return prk
  else if ikm.length < s.digest.outputLength then refuse .keySizeRange .prkTooShort
  else s.expandKey ikm len

end HkdfSteps
end SoftToken
