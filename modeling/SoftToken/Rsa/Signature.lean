import SoftToken.Rsa.Iso9796Steps
import SoftToken.Rsa.Key
import SoftToken.Rsa.PssSteps
/-!
# RSA signatures

A signature is the raw private operation on an encoding of the data, as long as the modulus. The data
is a digest for the hashed schemes, and the message itself otherwise.
-/

namespace SoftToken.Rsa

/-- How data is encoded for a signature. -/
inductive Scheme where
  /-- PKCS #1 version 1.5, over the digest information if a digest is given. -/
  | pkcs1 (digest : Option Digest)
  | pss (p : Pss)
  | x931
  | iso9796
deriving DecidableEq, Repr

/-- The data that goes into a PKCS #1 block. -/
def pkcs1Data (digest : Option Digest) (data : Bytes) : Except Error Bytes :=
  match digest with
  | none => .ok data
  | some d =>
    if data.length ≠ d.outputLength then fail .dataLenRange
    else match d.oid? with
      | some oid => .ok (Der.encodeDigestInfo oid data)
      | none => fail .mechanismInvalid

/-- The number that stands for an X9.31 digest. -/
def x931Number (k : Key) (data : Bytes) : Except Error Nat :=
  match x931Block? k.size data with
  | some b => .ok (Bytes.toNat b)
  | none => fail .dataLenRange

/-- The number that stands for an ISO/IEC 9796-1 message. -/
def iso9796Number (k : Key) (data : Bytes) : Except Failure Nat := do
  if data.isEmpty || decide (Iso9796.maxLength k.bits < data.length) then throw (.error (.bare .dataLenRange))
  else return Bytes.toNat (← Iso9796.writeBlock k.bits data)

/-- Signs data. -/
def sign (k : Key) (s : Scheme) (data : Bytes) : Draw Bytes := do
  let fixed := fun (m : Nat) => Bytes.ofNat k.size m
  match s with
  | .pkcs1 digest =>
    match signatureBlock? k.size (← pkcs1Data digest data) with
    | some b => return fixed (← k.signRaw (Bytes.toNat b))
    | none => throw (.error (.bare .dataLenRange))
  | .pss p =>
    if data.length ≠ p.hash.outputLength then throw (.error (.bare .dataLenRange))
    else return fixed (← k.signRaw (Bytes.toNat (← p.drawEncoding k.bits data)))
  | .x931 =>
    let s ← k.signRaw (← x931Number k data)
    return fixed (min s (k.n - s))
  | .iso9796 => return fixed (← k.signRaw (← iso9796Number k data))

/-- The number that a signature opens to, if it is in range. -/
def open? (k : Key) (signature : Bytes) : Option Nat :=
  let s := Bytes.toNat signature
  if s < k.n then some (k.encrypt s) else none

/-- Whether a signature opens to a number or to what is missing to the modulus. -/
def opensTo (k : Key) (signature : Bytes) (expected : Nat) : Bool :=
  match open? k signature with
  | some m => m == expected || k.n - m == expected
  | none => false

/-- Verifies a signature of data. -/
def verify (k : Key) (s : Scheme) (data signature : Bytes) : Except Failure Bool := do
  if signature.length ≠ k.size then throw (.error (.bare .signatureLenRange))
  else match s with
    | .pkcs1 digest =>
      let block := signatureBlock? k.size (← pkcs1Data digest data)
      return block.isSome && (open? k signature).map (Bytes.ofNat k.size) == block
    | .pss p =>
      if data.length ≠ p.hash.outputLength then throw (.error (.bare .dataLenRange))
      else match (open? k signature).bind (Bytes.ofNat? (Pss.encodedLength k.bits)) with
        | some em => p.readEncoding k.bits data em
        | none => return false
    | .x931 => return opensTo k signature (← x931Number k data)
    | .iso9796 => return opensTo k signature (← iso9796Number k data)

end SoftToken.Rsa
