import SoftToken.Der
import SoftToken.Object
/-!
# Curves and points in key objects

A key names its curve in DER, by object identifier or by printable name. Public points are kept raw or
inside a DER octet string; a point of a prime curve is uncompressed.
-/

namespace SoftToken.Curve

/-- The curve that DER curve parameters name. -/
def ofParameters (b : Bytes) : Except Error Curve :=
  let named? := fun (p : Curve → Bool) => match all.find? p with
    | some c => .ok c
    | none => fail .curveNotSupported
  match Der.decodeCurveName? b with
  | none => .error Der.malformed
  | some (.oid content) => named? fun c => Der.oidContent c.oid == content
  | some (.printable text) => named? fun c => Bytes.ofString c.printableName == text
  | some .implicit => fail .curveNotSupported

/-- The DER curve parameters that name a curve by its object identifier. -/
def parameters (c : Curve) : Bytes := Der.encodeOid c.oid

/-- Whether bytes are a raw point of the curve in form; points of prime curves start with 4. -/
def isRawPoint (c : Curve) (b : Bytes) : Bool :=
  b.length == c.pointSize && (c.keyType != .ec || b.head? == some 4)

/-- The raw point that bytes hold, either as they are or inside an octet string. -/
def decodePoint (c : Curve) (b : Bytes) : Except Error Bytes :=
  if c.isRawPoint b then .ok b
  else match Der.decodeOctetString? b with
    | some raw => if raw.length = c.pointSize then .ok raw else fail .argumentsBad
    | none => fail .argumentsBad

/-- The form in which an object keeps a point: in an octet string for prime curves, else raw. -/
def encodePoint (c : Curve) (point : Bytes) : Bytes :=
  if c.keyType = .ec then Der.encodeOctetString point else point

end SoftToken.Curve
