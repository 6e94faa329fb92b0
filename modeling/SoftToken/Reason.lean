import SoftToken.AttributeId
import SoftToken.KeyKind
import SoftToken.MechanismId
import SoftToken.ParameterSet
/-!
# Reasons

Why an operation was refused, one constructor per cause. `Reason.message` is the only place where the
wording is fixed.
-/

namespace SoftToken

/-- The cause of a failure. -/
inductive Reason where
  -- attributes and objects
  | wrongValueKind (id : AttributeId)
  | usageNotSet (id : AttributeId)
  | unknownHandle (handle : UInt64)
  -- kinds and views of keys
  | notAKey (cls : ObjectClass)
  | unsupportedSecretType (type : KeyType)
  | unsupportedClass (cls : ObjectClass)
  | unsupportedKeyType (type : KeyType)
  | missing (id : AttributeId)
  | missingOrEmpty (id : AttributeId)
  | malformed (id : AttributeId)
  | curveMismatch (curve : Curve) (type : KeyType)
  | wrongKind (expected : String) (found : KeyKind)
  | privateValueTooLong (curve : Curve)
  | keyRequired (mechanism : MechanismId) (expected : String)
  | unknownParameterSet (family : ParameterFamily) (set : UInt64)
  | keyLengthMismatch (family : ParameterFamily) (length : Nat) (set : UInt64)
  | secretLengthInvalid (length : Nat) (type : KeyType)
  | derMalformed
  -- templates of secret keys
  | templateClass
  | templateHasValue
  | notASecretType (type : KeyType)
  | lengthConflict (requested required : Nat)
  | secretBelowRequired (length required : Nat)
  | secretBelowMinimum (length minimum : Nat)
  -- configuration and dispatch
  | unknownMechanismName (name : String)
  | mechanismUnavailable (mechanism : MechanismId)
  | operationUnsupported (mechanism : MechanismId)
  -- parameters
  | hedgeInvalid (hedge : UInt64)
  | contextTooLong
  | contextNeedsPrehash
  | prehashUnsupported (mechanism : MechanismId)
  | macTooLong (full : Nat)
  | digestUnsupported (mechanism : MechanismId)
  | maskUnsupported (mask : UInt64)
  | labelSourceInvalid (source : UInt64)
  | hashMismatch (mechanism hash : MechanismId)
  | agreementKdfUnsupported (kdf : UInt64)
  | keyTypeNotForMechanism (type : KeyType) (mechanism : MechanismId)
  | peerKeyRequired
  | peerKeyNotAllowed (mechanism : MechanismId)
  | otherKeyNotSecret
  | otherKeyNotDerivable
  | dataEmpty
  | bitIndexTooLarge (index : Nat)
  | ivLength
  | dataNotBlocks (length : Nat)
  | prfUnsupported (mechanism : MechanismId)
  | saltMissing
  | saltTypeInvalid (type : UInt64)
  | noHkdfStep
  -- operations
  | cannotDerive (mechanism : MechanismId) (found : KeyKind)
  | signatureOnVerification
  | noPublicKey (scheme : String)
  | blockKeyLength (length : Nat) (type : KeyType)
  | prkTooShort
  | okmTooLong (length : Nat)
  | poly1305KeyLength
  | ed25519KeyLength
  | curveUnsupported (curve : Curve)
  | agreementKeyLength (curve : Curve)
  | peerPointInvalid
  | peerKeyInvalid
  | ciphertextLength (found expected : Nat)
  | coefficientOutOfRange
  | encapsulationHashWrong
  | encapsulationRandomFailed
  | latticeRandomFailed
  | prehashRandomFailed
  | hashRandomFailed
  | privateKeyCorrupted
  | randomExhausted
  /-- A reason given by the caller. -/
  | text (message : String)
deriving DecidableEq, Repr

namespace Reason

/-- How a reason reads. -/
def message : Reason → String
  | wrongValueKind id => id.name ++ " has the wrong value type"
  | usageNotSet id => id.name ++ " is not set on the key"
  | unknownHandle h => "no object with handle " ++ toString h.toNat
  | notAKey c => "object of class " ++ toString c.val.toNat ++ " is not a key"
  | unsupportedSecretType t => "unsupported secret key type " ++ hexWord t.val
  | unsupportedClass c => "unsupported object class " ++ hexWord c.val
  | unsupportedKeyType t => "unsupported key type " ++ hexWord t.val
  | missing id => id.name ++ " is missing"
  | missingOrEmpty id => id.name ++ " is missing or empty"
  | malformed id => "malformed " ++ id.name
  | curveMismatch c t => "curve " ++ c.name ++ " does not match key type " ++ hexWord t.val
  | wrongKind expected k => "expected " ++ expected ++ ", got " ++ k.describe
  | privateValueTooLong c => "private value too long for curve " ++ c.name
  | keyRequired m expected => "mechanism " ++ m.name ++ " required key of type " ++ expected
  | unknownParameterSet f s => "invalid " ++ f.name ++ " parameter set " ++ toString s.toNat
  | keyLengthMismatch f len s =>
    f.name ++ " key length " ++ toString len ++ " does not match parameter set " ++ toString s.toNat
  | secretLengthInvalid len t => "invalid secret length " ++ toString len ++ " for key type " ++ hexWord t.val
  | derMalformed => "ASN.1 parse error"
  | templateClass => "the output key must be a secret key"
  | templateHasValue => "CKA_VALUE can't be provided in the template"
  | notASecretType t => "key type " ++ hexWord t.val ++ " is not a secret key type"
  | lengthConflict requested required =>
    "CKA_VALUE_LEN " ++ toString requested ++ " conflicts with key type length " ++ toString required
  | secretBelowRequired len required =>
    "secret of " ++ toString len ++ " bytes is shorter than the required " ++ toString required
  | secretBelowMinimum len minimum =>
    "secret of " ++ toString len ++ " bytes is shorter than the minimum " ++ toString minimum
  | unknownMechanismName s => "unknown mechanism name " ++ s
  | mechanismUnavailable m => "mechanism " ++ m.name ++ " is not available"
  | operationUnsupported m => "mechanism " ++ m.name ++ " does not support this operation"
  | hedgeInvalid h => "invalid hedge variant " ++ hexWord h
  | contextTooLong => "context must be at most 255 bytes"
  | contextNeedsPrehash => "a context requires the prehash flag"
  | prehashUnsupported m => "pre-hash " ++ hexWord m.val ++ " is not supported"
  | macTooLong full => "MAC length must be at most " ++ toString full
  | digestUnsupported m => "unsupported digest mechanism " ++ hexWord m.val
  | maskUnsupported g => "unsupported MGF " ++ hexWord g
  | labelSourceInvalid s => "invalid OAEP source " ++ hexWord s
  | hashMismatch m h => m.name ++ " requires a matching hash, got " ++ h.name
  | agreementKdfUnsupported k => "kdf " ++ hexWord k ++ " is not supported or invalid"
  | keyTypeNotForMechanism t m => "invalid key type " ++ hexWord t.val ++ " for mechanism " ++ m.name
  | peerKeyRequired => "the peer public key is required"
  | peerKeyNotAllowed m => "public data must be empty when " ++ m.name ++ " is used for encapsulation"
  | otherKeyNotSecret => "the other key must be a secret key"
  | otherKeyNotDerivable => "the other key does not allow derivation"
  | dataEmpty => "the data is empty"
  | bitIndexTooLarge i => "bit index " ++ toString i ++ " exceeds the key size"
  | ivLength => "the IV must be 16 bytes"
  | dataNotBlocks len => "data length " ++ toString len ++ " is not a multiple of 16"
  | prfUnsupported m => "unsupported PRF hash " ++ m.name
  | saltMissing => "salt data is missing"
  | saltTypeInvalid t => "invalid salt type " ++ hexWord t
  | noHkdfStep => "one of extract or expand must be requested"
  | cannotDerive m k => m.name ++ " can't derive from a " ++ k.describe
  | signatureOnVerification => "signature requested on a verification operation"
  | noPublicKey s => s ++ " verification requested without a public key"
  | blockKeyLength len t => "invalid key length " ++ toString len ++ " for key type " ++ hexWord t.val
  | prkTooShort => "base key unusable as PRK: invalid pseudorandom key length, too short"
  | okmTooLong len =>
    "output of " ++ toString len ++ " bytes: invalid number of blocks, too large output"
  | poly1305KeyLength => "Poly1305 keys are 32 bytes long"
  | ed25519KeyLength => "Ed25519 keys are 32 bytes long"
  | curveUnsupported c => "curve " ++ c.name ++ " is not supported"
  | agreementKeyLength c => "invalid private key length for " ++ c.name
  | peerPointInvalid => "invalid peer public point"
  | peerKeyInvalid => "invalid peer public key"
  | ciphertextLength found expected =>
    "ciphertext length " ++ toString found ++ " differs from the expected " ++ toString expected
  | coefficientOutOfRange => "Alg 6: integers out of range"
  | encapsulationHashWrong => "Encaps hash wrong"
  | encapsulationRandomFailed => "Alg 20: random number generator failed"
  | latticeRandomFailed => "ML-DSA.Sign: random number generator failed"
  | prehashRandomFailed => "random generator failed"
  | hashRandomFailed => "Alg17: rng failed"
  | privateKeyCorrupted => "Corrupted key"
  | randomExhausted => "random source exhausted"
  | text s => s

end Reason
end SoftToken
