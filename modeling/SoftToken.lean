import SoftToken.Agreement
import SoftToken.Attribute
import SoftToken.AttributeId
import SoftToken.BlockCipher
import SoftToken.BlockCipher.Aes
import SoftToken.BlockCipher.Camellia
import SoftToken.Bytes
import SoftToken.Checked
import SoftToken.Config
import SoftToken.Config.Location
import SoftToken.CounterStream
import SoftToken.Curve
import SoftToken.Der
import SoftToken.Derivation.Families
import SoftToken.Derivation.Generator
import SoftToken.Derivation.Methods
import SoftToken.Derivation.Rule
import SoftToken.Digest
import SoftToken.Digest.Blake2b
import SoftToken.Digest.Gost94
import SoftToken.Digest.Keccak
import SoftToken.Digest.Length
import SoftToken.Digest.Md2
import SoftToken.Digest.Md5
import SoftToken.Digest.Ripemd
import SoftToken.Digest.Selection
import SoftToken.Digest.Sha1
import SoftToken.Digest.Sha256
import SoftToken.Digest.Sha512
import SoftToken.Ecdsa
import SoftToken.Edwards25519
import SoftToken.Encapsulation.Encapsulator
import SoftToken.Encapsulation.Families
import SoftToken.Encapsulation.Methods
import SoftToken.Error
import SoftToken.Hkdf
import SoftToken.Hmac
import SoftToken.Key.Curve
import SoftToken.Key.Kind
import SoftToken.Key.Secret
import SoftToken.Key.Validity
import SoftToken.Key.View
import SoftToken.KeyKind
import SoftToken.KeyType
import SoftToken.Lattice.Packing
import SoftToken.Lattice.Transform
import SoftToken.Mechanism
import SoftToken.MechanismFamily
import SoftToken.MechanismId
import SoftToken.Method
import SoftToken.MlDsa
import SoftToken.MlKem
import SoftToken.Modular
import SoftToken.Montgomery
import SoftToken.Numeral
import SoftToken.Object
import SoftToken.ParameterSet
import SoftToken.Params
import SoftToken.Params.Codec
import SoftToken.Poly1305
import SoftToken.PrimeCurve
import SoftToken.Proofs.AgreementPaths
import SoftToken.Proofs.Alike
import SoftToken.Proofs.Attributes
import SoftToken.Proofs.Authorization
import SoftToken.Proofs.BaseKeys
import SoftToken.Proofs.BitCopies
import SoftToken.Proofs.ByteNumbers
import SoftToken.Proofs.CheckedStrings
import SoftToken.Proofs.Chunking
import SoftToken.Proofs.CodeLength
import SoftToken.Proofs.CombinedKeys
import SoftToken.Proofs.CounterReaders
import SoftToken.Proofs.DerivedValues
import SoftToken.Proofs.DeterministicSigning
import SoftToken.Proofs.Dispatch
import SoftToken.Proofs.DomainSeparation
import SoftToken.Proofs.Draws
import SoftToken.Proofs.EarlyRefusals
import SoftToken.Proofs.Encapsulation
import SoftToken.Proofs.EncryptionLimit
import SoftToken.Proofs.ErrorCodes
import SoftToken.Proofs.Exposure
import SoftToken.Proofs.ExtractedKeys
import SoftToken.Proofs.GeneralErrors
import SoftToken.Proofs.HashBound
import SoftToken.Proofs.HashSignatureLength
import SoftToken.Proofs.HkdfComposition
import SoftToken.Proofs.Iso9796Blocks
import SoftToken.Proofs.Iso9796Recovery
import SoftToken.Proofs.Iso9796Steps
import SoftToken.Proofs.KeyErrors
import SoftToken.Proofs.KeyKinds
import SoftToken.Proofs.KeyValidity
import SoftToken.Proofs.LatticeLengths
import SoftToken.Proofs.Mask
import SoftToken.Proofs.Methods
import SoftToken.Proofs.ModularInverse
import SoftToken.Proofs.ModularPower
import SoftToken.Proofs.OaepAcceptance
import SoftToken.Proofs.OaepSteps
import SoftToken.Proofs.ObjectHistory
import SoftToken.Proofs.OperationErrors
import SoftToken.Proofs.OperationMethods
import SoftToken.Proofs.OversizedParams
import SoftToken.Proofs.ParameterUse
import SoftToken.Proofs.PeerFaults
import SoftToken.Proofs.PointDecoding
import SoftToken.Proofs.PointEncoding
import SoftToken.Proofs.Prefixes
import SoftToken.Proofs.PrehashForms
import SoftToken.Proofs.PrimitiveErrors
import SoftToken.Proofs.ProducedKeys
import SoftToken.Proofs.PssAcceptance
import SoftToken.Proofs.PssSteps
import SoftToken.Proofs.PssTotality
import SoftToken.Proofs.RequestErrors
import SoftToken.Proofs.RsaEncoding
import SoftToken.Proofs.RsaEncryption
import SoftToken.Proofs.RsaInverse
import SoftToken.Proofs.RsaKey
import SoftToken.Proofs.RsaNumbers
import SoftToken.Proofs.RsaSignature
import SoftToken.Proofs.SecretKeys
import SoftToken.Proofs.SecretLengths
import SoftToken.Proofs.SecretValues
import SoftToken.Proofs.SignatureLength
import SoftToken.Proofs.SignerBinding
import SoftToken.Proofs.SignerErrors
import SoftToken.Proofs.SignerLaws
import SoftToken.Proofs.SignerRuns
import SoftToken.Proofs.SizeQuery
import SoftToken.Proofs.SpongeOutput
import SoftToken.Proofs.StoreRuns
import SoftToken.Proofs.TemplateAcceptance
import SoftToken.Proofs.TemplateHistory
import SoftToken.Proofs.TemplateOrder
import SoftToken.Proofs.TruncatedCodes
import SoftToken.Proofs.ViewRoundTrips
import SoftToken.Proofs.WireFormat
import SoftToken.Proofs.X931Blocks
import SoftToken.RandomSource
import SoftToken.Reason
import SoftToken.Registry
import SoftToken.ReturnCode
import SoftToken.Rsa.Cipher
import SoftToken.Rsa.Encoding
import SoftToken.Rsa.Iso9796Steps
import SoftToken.Rsa.Key
import SoftToken.Rsa.OaepSteps
import SoftToken.Rsa.PssSteps
import SoftToken.Rsa.Signature
import SoftToken.Signature.Engine
import SoftToken.Signature.Families
import SoftToken.Signature.Mac
import SoftToken.Signature.Method
import SoftToken.Signature.Options
import SoftToken.Signature.Signer
import SoftToken.SignedMessage
import SoftToken.SlhDsa
import SoftToken.SlhDsa.Address
import SoftToken.SlhDsa.Suite
import SoftToken.SlhDsa.Tree
import SoftToken.Store
import SoftToken.Toml.Document
import SoftToken.Toml.Item
import SoftToken.Toml.Quoted
import SoftToken.Toml.Reader
import SoftToken.Toml.Scalar
import SoftToken.Words
