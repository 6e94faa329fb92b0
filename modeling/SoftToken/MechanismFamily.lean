import SoftToken.Derivation.Families
import SoftToken.Encapsulation.Families
import SoftToken.Signature.Families
/-!
# Mechanism families

Every mechanism of the token belongs to one family. A family fixes the sizes of its keys and the
operations of its mechanisms, and makes the operations of those it supports; it refuses the others.
-/

namespace SoftToken

/-- The families of mechanisms. -/
inductive MechanismFamily where
  | cmac
  | ecdsa
  | ecdh
  | eddsa
  | encryptData
  | digestDerivation
  | hkdf
  | hmac
  | mlDsa
  | mlKem
  | poly1305
  /-- RSA with PKCS #1 version 1.5 padding, for signatures and encapsulation. -/
  | rsaPkcs
  | rsaOaep
  | rsaSignature
  /-- Derivation by putting keys and data together. -/
  | combination
  | slhDsa
deriving DecidableEq, Repr

namespace MechanismFamily

def all : List MechanismFamily :=
  [cmac, ecdsa, ecdh, eddsa, encryptData, digestDerivation, hkdf, hmac, mlDsa, mlKem, poly1305,
    rsaPkcs, rsaOaep, rsaSignature, combination, slhDsa]

/-- The mechanisms of a family. -/
def mechanisms : MechanismFamily → List MechanismId
  | cmac => SignatureMethod.cmacMechanisms.map (·.1)
  | ecdsa => SignatureMethod.ecdsaMechanisms.map (·.1)
  | ecdh => [.ecdh1Derive, .ecdh1CofactorDerive]
  | eddsa => [.eddsa]
  | encryptData => DerivationGenerator.encryptMechanisms.map (·.1)
  | digestDerivation => DerivationGenerator.digestMechanisms.map (·.1)
  | hkdf => [.hkdfDerive]
  | hmac => HmacRow.rows.flatMap HmacRow.mechanisms
  | mlDsa => .mlDsa :: .hashMlDsa :: SignatureMethod.mlDsaFixed.map (·.1)
  | mlKem => [.mlKem]
  | poly1305 => [.poly1305]
  | rsaPkcs => [.rsaPkcs]
  | rsaOaep => [.rsaPkcsOaep]
  | rsaSignature =>
    .rsaPkcsPss :: .sha1RsaX9_31 :: .rsa9796 ::
      (SignatureMethod.rsaPkcsHashed ++ SignatureMethod.rsaPssHashed).map (·.1)
  | combination =>
    [.concatenateBaseAndKey, .concatenateBaseAndData, .concatenateDataAndBase, .xorBaseAndData,
      .extractKeyFromKey]
  | slhDsa => .slhDsa :: .hashSlhDsa :: SignatureMethod.slhDsaFixed.map (·.1)

/-- The key sizes and the operations of a family. -/
def info : MechanismFamily → MechanismInfo
  | cmac => ⟨16, 32, [.sign, .verify]⟩
  | ecdsa => ⟨256, 521, [.sign, .verify]⟩
  | ecdh => ⟨256, 521, [.derive, .encapsulate, .decapsulate]⟩
  | eddsa => ⟨256, 256, [.sign, .verify]⟩
  | encryptData => ⟨16, 32, [.derive]⟩
  | digestDerivation => ⟨0, 0, [.derive]⟩
  | hkdf => ⟨1, 0xffffffff, [.derive]⟩
  | hmac => ⟨1, 1024, [.sign, .verify]⟩
  | mlDsa => ⟨1312, 2592, [.sign, .verify]⟩
  | mlKem => ⟨800, 1568, [.encapsulate, .decapsulate]⟩
  | poly1305 => ⟨32, 32, [.sign, .verify]⟩
  | rsaPkcs => ⟨1024, 16384, [.encapsulate, .decapsulate, .sign, .verify]⟩
  | rsaOaep => ⟨1024, 16384, [.encapsulate, .decapsulate]⟩
  | rsaSignature => ⟨1024, 16384, [.sign, .verify]⟩
  | combination => ⟨0, 0, [.derive]⟩
  | slhDsa => ⟨32, 64, [.sign, .verify]⟩

/-- An encapsulation with a mechanism of the family for keys of a type. -/
def encapsulator (f : MechanismFamily) (m : Mechanism) (type : KeyType) : Except Error Encapsulator :=
  match f with
  | mlKem => Encapsulator.ofMlKem m type
  | rsaPkcs | rsaOaep => Encapsulator.ofRsa m type
  | ecdh => Encapsulator.ofAgreement m type
  | _ => notInFamily

/-- A signature method with a mechanism of the family. -/
def signatureMethod (f : MechanismFamily) (m : Mechanism) (preference : HedgePreference) :
    Except Error SignatureMethod :=
  match f with
  | cmac => SignatureMethod.ofCmac m
  | hmac => SignatureMethod.ofHmac m
  | poly1305 => SignatureMethod.ofPoly1305 m
  | rsaPkcs | rsaSignature => SignatureMethod.ofRsa m
  | ecdsa => SignatureMethod.ofEcdsa m
  | eddsa => SignatureMethod.ofEddsa m
  | mlDsa => SignatureMethod.ofMlDsa m preference
  | slhDsa => SignatureMethod.ofSlhDsa m preference
  | _ => notInFamily

/-- A derivation with a mechanism of the family; key handles are looked up in `store`. -/
def derivationGenerator (f : MechanismFamily) (m : Mechanism) (store : Store) :
    Except Error DerivationGenerator :=
  match f with
  | ecdh => DerivationGenerator.ofAgreement m
  | encryptData => DerivationGenerator.ofEncryption m
  | digestDerivation => DerivationGenerator.ofDigest m
  | hkdf => DerivationGenerator.ofHkdf m store
  | combination => DerivationGenerator.ofCombination m store
  | _ => notInFamily

end MechanismFamily
end SoftToken
