import SoftToken.Curve
import SoftToken.Numeral
/-!
# Kinds of keys

The closed set of keys the mechanisms work with. A kind carries what it takes to tell two keys of
one family apart: the curve of an elliptic curve key, the type of a secret key.
-/

namespace SoftToken

/-- The concrete kind of a key object. -/
inductive KeyKind where
  | rsaPublic
  | rsaPrivate
  | ecPublic (curve : Curve)
  | ecPrivate (curve : Curve)
  | edwardsPublic (curve : Curve)
  | edwardsPrivate (curve : Curve)
  | montgomeryPublic (curve : Curve)
  | montgomeryPrivate (curve : Curve)
  | mlKemPublic
  | mlKemPrivate
  | mlDsaPublic
  | mlDsaPrivate
  | slhDsaPublic
  | slhDsaPrivate
  | secret (type : KeyType)
deriving DecidableEq, Repr

namespace KeyKind

/-- The curve of an elliptic curve key. -/
def curve? : KeyKind → Option Curve
  | ecPublic c | ecPrivate c | edwardsPublic c | edwardsPrivate c
  | montgomeryPublic c | montgomeryPrivate c => some c
  | _ => none

/-- How a kind reads in a message. -/
def describe : KeyKind → String
  | rsaPublic => "RSA public key"
  | rsaPrivate => "RSA private key"
  | ecPublic c => "EC public key (" ++ c.name ++ ")"
  | ecPrivate c => "EC private key (" ++ c.name ++ ")"
  | edwardsPublic c => "Edwards public key (" ++ c.name ++ ")"
  | edwardsPrivate c => "Edwards private key (" ++ c.name ++ ")"
  | montgomeryPublic c => "Montgomery public key (" ++ c.name ++ ")"
  | montgomeryPrivate c => "Montgomery private key (" ++ c.name ++ ")"
  | mlKemPublic => "ML-KEM public key"
  | mlKemPrivate => "ML-KEM private key"
  | mlDsaPublic => "ML-DSA public key"
  | mlDsaPrivate => "ML-DSA private key"
  | slhDsaPublic => "SLH-DSA public key"
  | slhDsaPrivate => "SLH-DSA private key"
  | secret t => "secret key (type " ++ hexWord t.val ++ ")"

end KeyKind
end SoftToken
