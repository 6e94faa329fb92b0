import SoftToken.Bytes
import SoftToken.Error
/-!
# DER

The few structures of the distinguished encoding rules that keys and signatures need: octet strings,
object identifiers, the choice that names a curve, and the digest information of a signature. Reading
is strict: lengths and arcs are minimal and nothing follows the value.
-/

namespace SoftToken.Der

def octetStringTag : UInt8 := 0x04
def nullTag : UInt8 := 0x05
def oidTag : UInt8 := 0x06
def printableStringTag : UInt8 := 0x13
def sequenceTag : UInt8 := 0x30

/-! ## Writing -/

/-- The bytes of a number without leading zeros, most significant first; none for zero. -/
def minimalBytes (n : Nat) : Bytes :=
  if _ : n = 0 then [] else minimalBytes (n / 256) ++ [UInt8.ofNat n]
termination_by n
decreasing_by omega

/-- A length, in one byte below 128 and after a count of bytes from there on. -/
def encodeLength (len : Nat) : Bytes :=
  if len < 128 then [UInt8.ofNat len]
  else UInt8.ofNat (128 + (minimalBytes len).length) :: minimalBytes len

/-- A tag, a length and the content. -/
def encodeValue (tag : UInt8) (content : Bytes) : Bytes :=
  tag :: (encodeLength content.length ++ content)

def encodeOctetString (b : Bytes) : Bytes := encodeValue octetStringTag b

/-- An arc in base 128, all bytes but the last one marked. -/
def encodeArc (n : Nat) (last : Bool := true) : Bytes :=
  let low := UInt8.ofNat (n % 128 + if last then 0 else 128)
  if _ : n < 128 then [low] else encodeArc (n / 128) false ++ [low]
termination_by n
decreasing_by omega

/-- The content of an object identifier; the first two arcs share a number. -/
def oidContent : List Nat → Bytes
  | a :: b :: r => ((40 * a + b) :: r).flatMap fun n => encodeArc n
  | _ => []

def encodeOid (arcs : List Nat) : Bytes := encodeValue oidTag (oidContent arcs)

/-- The digest information of a signature: the algorithm without parameters, and the digest. -/
def encodeDigestInfo (algorithm : List Nat) (digest : Bytes) : Bytes :=
  encodeValue sequenceTag
    (encodeValue sequenceTag (encodeOid algorithm ++ encodeValue nullTag []) ++ encodeOctetString digest)

/-! ## Reading -/

/-- Reads a length and gives the rest. Lengths of up to four bytes are read, in their shortest form. -/
def decodeLength? : Bytes → Option (Nat × Bytes)
  | [] => none
  | x :: r =>
    if x < 128 then some (x.toNat, r)
    else
      let count := x.toNat - 128
      let digits := r.take count
      let len := Bytes.toNat digits
      if 1 ≤ count ∧ count ≤ 4 ∧ digits.length = count ∧ encodeLength len = x :: digits then
        some (len, r.drop count)
      else none

/-- Reads a single value with nothing after it: its tag and its content. -/
def decodeSingle? : Bytes → Option (UInt8 × Bytes)
  | [] => none
  | tag :: r => match decodeLength? r with
    | some (len, content) => if content.length = len then some (tag, content) else none
    | none => none

/-- The content of an octet string. -/
def decodeOctetString? (b : Bytes) : Option Bytes :=
  match decodeSingle? b with
  | some (tag, content) => if tag = octetStringTag then some content else none
  | none => none

/-- Whether bytes are a row of arcs: each one minimal, below 2^128, and ended. -/
def wellFormedArcs : Bytes → Option Nat → Bool
  | [], open? => open?.isNone
  | x :: r, open? =>
    let n := open?.getD 0 * 128 + (x &&& 127).toNat
    if open?.isNone && x == 128 then false
    else if n ≥ 2 ^ 128 then false
    else if x < 128 then wellFormedArcs r none
    else wellFormedArcs r (some n)

/-- Whether bytes are the content of an object identifier. -/
def validOidContent (b : Bytes) : Bool := !b.isEmpty && decide (b.length ≤ 63) && wellFormedArcs b none

/-- Whether a byte may stand in a printable string. -/
def isPrintable (x : UInt8) : Bool :=
  let c := Char.ofNat x.toNat
  c.isAlphanum || " '()+,-./:=?".contains c

/-- How curve parameters name a curve. -/
inductive CurveName where
  | oid (content : Bytes)
  | implicit
  | printable (text : Bytes)
deriving DecidableEq, Repr

/-- Reads the curve parameters of a key. -/
def decodeCurveName? (b : Bytes) : Option CurveName :=
  match decodeSingle? b with
  | none => none
  | some (tag, content) =>
    if tag = oidTag then if validOidContent content then some (.oid content) else none
    else if tag = nullTag then if content.isEmpty then some .implicit else none
    else if tag = printableStringTag then if content.all isPrintable then some (.printable content) else none
    else none

/-- The error of a value that is not in DER. -/
def malformed : Error := .explained .attributeValueInvalid .derMalformed

end SoftToken.Der
