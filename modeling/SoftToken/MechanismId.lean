/-!
# Mechanism identifiers

A mechanism is named by a 64-bit word. The table `names` pairs the identifiers the token knows with
their symbolic names, in both directions; only some of them are registered (`SoftToken.Registry`).
-/

namespace SoftToken

/-- The identifier of a mechanism. -/
structure MechanismId where
  val : UInt64
deriving DecidableEq, Repr, Inhabited

namespace MechanismId

def rsaPkcsKeyPairGen : MechanismId := ⟨0x0000⟩
def rsaPkcs : MechanismId := ⟨0x0001⟩
def rsa9796 : MechanismId := ⟨0x0002⟩
def rsaX509 : MechanismId := ⟨0x0003⟩
def md2RsaPkcs : MechanismId := ⟨0x0004⟩
def md5RsaPkcs : MechanismId := ⟨0x0005⟩
def sha1RsaPkcs : MechanismId := ⟨0x0006⟩
def ripemd128RsaPkcs : MechanismId := ⟨0x0007⟩
def ripemd160RsaPkcs : MechanismId := ⟨0x0008⟩
def rsaPkcsOaep : MechanismId := ⟨0x0009⟩
def rsaX9_31 : MechanismId := ⟨0x000b⟩
def sha1RsaX9_31 : MechanismId := ⟨0x000c⟩
def rsaPkcsPss : MechanismId := ⟨0x000d⟩
def sha1RsaPkcsPss : MechanismId := ⟨0x000e⟩
def mlKemKeyPairGen : MechanismId := ⟨0x000f⟩
def mlKem : MechanismId := ⟨0x0017⟩
def mlDsaKeyPairGen : MechanismId := ⟨0x001c⟩
def mlDsa : MechanismId := ⟨0x001d⟩
def hashMlDsa : MechanismId := ⟨0x001f⟩
def hashMlDsaSha224 : MechanismId := ⟨0x0023⟩
def hashMlDsaSha256 : MechanismId := ⟨0x0024⟩
def hashMlDsaSha384 : MechanismId := ⟨0x0025⟩
def hashMlDsaSha512 : MechanismId := ⟨0x0026⟩
def hashMlDsaSha3_224 : MechanismId := ⟨0x0027⟩
def hashMlDsaSha3_256 : MechanismId := ⟨0x0028⟩
def hashMlDsaSha3_384 : MechanismId := ⟨0x0029⟩
def hashMlDsaSha3_512 : MechanismId := ⟨0x002a⟩
def hashMlDsaShake128 : MechanismId := ⟨0x002b⟩
def hashMlDsaShake256 : MechanismId := ⟨0x002c⟩
def slhDsaKeyPairGen : MechanismId := ⟨0x002d⟩
def slhDsa : MechanismId := ⟨0x002e⟩
def hashSlhDsa : MechanismId := ⟨0x0034⟩
def hashSlhDsaSha224 : MechanismId := ⟨0x0036⟩
def hashSlhDsaSha256 : MechanismId := ⟨0x0037⟩
def hashSlhDsaSha384 : MechanismId := ⟨0x0038⟩
def hashSlhDsaSha512 : MechanismId := ⟨0x0039⟩
def hashSlhDsaSha3_224 : MechanismId := ⟨0x003a⟩
def hashSlhDsaSha3_256 : MechanismId := ⟨0x003b⟩
def hashSlhDsaSha3_384 : MechanismId := ⟨0x003c⟩
def hashSlhDsaSha3_512 : MechanismId := ⟨0x003d⟩
def hashSlhDsaShake128 : MechanismId := ⟨0x003e⟩
def hashSlhDsaShake256 : MechanismId := ⟨0x003f⟩
def sha256RsaPkcs : MechanismId := ⟨0x0040⟩
def sha384RsaPkcs : MechanismId := ⟨0x0041⟩
def sha512RsaPkcs : MechanismId := ⟨0x0042⟩
def sha256RsaPkcsPss : MechanismId := ⟨0x0043⟩
def sha384RsaPkcsPss : MechanismId := ⟨0x0044⟩
def sha512RsaPkcsPss : MechanismId := ⟨0x0045⟩
def sha224RsaPkcs : MechanismId := ⟨0x0046⟩
def sha224RsaPkcsPss : MechanismId := ⟨0x0047⟩
def sha512_224 : MechanismId := ⟨0x0048⟩
def sha512_224Hmac : MechanismId := ⟨0x0049⟩
def sha512_224HmacGeneral : MechanismId := ⟨0x004a⟩
def sha512_224KeyDerivation : MechanismId := ⟨0x004b⟩
def sha512_256 : MechanismId := ⟨0x004c⟩
def sha512_256Hmac : MechanismId := ⟨0x004d⟩
def sha512_256HmacGeneral : MechanismId := ⟨0x004e⟩
def sha512_256KeyDerivation : MechanismId := ⟨0x004f⟩
def sha3_256RsaPkcs : MechanismId := ⟨0x0060⟩
def sha3_384RsaPkcs : MechanismId := ⟨0x0061⟩
def sha3_512RsaPkcs : MechanismId := ⟨0x0062⟩
def sha3_256RsaPkcsPss : MechanismId := ⟨0x0063⟩
def sha3_384RsaPkcsPss : MechanismId := ⟨0x0064⟩
def sha3_512RsaPkcsPss : MechanismId := ⟨0x0065⟩
def sha3_224RsaPkcs : MechanismId := ⟨0x0066⟩
def sha3_224RsaPkcsPss : MechanismId := ⟨0x0067⟩
def md2 : MechanismId := ⟨0x0200⟩
def md2Hmac : MechanismId := ⟨0x0201⟩
def md2HmacGeneral : MechanismId := ⟨0x0202⟩
def md5 : MechanismId := ⟨0x0210⟩
def md5Hmac : MechanismId := ⟨0x0211⟩
def md5HmacGeneral : MechanismId := ⟨0x0212⟩
def sha1 : MechanismId := ⟨0x0220⟩
def sha1Hmac : MechanismId := ⟨0x0221⟩
def sha1HmacGeneral : MechanismId := ⟨0x0222⟩
def ripemd128 : MechanismId := ⟨0x0230⟩
def ripemd128Hmac : MechanismId := ⟨0x0231⟩
def ripemd128HmacGeneral : MechanismId := ⟨0x0232⟩
def ripemd160 : MechanismId := ⟨0x0240⟩
def ripemd160Hmac : MechanismId := ⟨0x0241⟩
def ripemd160HmacGeneral : MechanismId := ⟨0x0242⟩
def sha256 : MechanismId := ⟨0x0250⟩
def sha256Hmac : MechanismId := ⟨0x0251⟩
def sha256HmacGeneral : MechanismId := ⟨0x0252⟩
def sha224 : MechanismId := ⟨0x0255⟩
def sha224Hmac : MechanismId := ⟨0x0256⟩
def sha224HmacGeneral : MechanismId := ⟨0x0257⟩
def sha384 : MechanismId := ⟨0x0260⟩
def sha384Hmac : MechanismId := ⟨0x0261⟩
def sha384HmacGeneral : MechanismId := ⟨0x0262⟩
def sha512 : MechanismId := ⟨0x0270⟩
def sha512Hmac : MechanismId := ⟨0x0271⟩
def sha512HmacGeneral : MechanismId := ⟨0x0272⟩
def sha3_256 : MechanismId := ⟨0x02b0⟩
def sha3_256Hmac : MechanismId := ⟨0x02b1⟩
def sha3_256HmacGeneral : MechanismId := ⟨0x02b2⟩
def sha3_224 : MechanismId := ⟨0x02b5⟩
def sha3_224Hmac : MechanismId := ⟨0x02b6⟩
def sha3_224HmacGeneral : MechanismId := ⟨0x02b7⟩
def sha3_384 : MechanismId := ⟨0x02c0⟩
def sha3_384Hmac : MechanismId := ⟨0x02c1⟩
def sha3_384HmacGeneral : MechanismId := ⟨0x02c2⟩
def sha3_512 : MechanismId := ⟨0x02d0⟩
def sha3_512Hmac : MechanismId := ⟨0x02d1⟩
def sha3_512HmacGeneral : MechanismId := ⟨0x02d2⟩
def concatenateBaseAndKey : MechanismId := ⟨0x0360⟩
def concatenateBaseAndData : MechanismId := ⟨0x0362⟩
def concatenateDataAndBase : MechanismId := ⟨0x0363⟩
def xorBaseAndData : MechanismId := ⟨0x0364⟩
def extractKeyFromKey : MechanismId := ⟨0x0365⟩
def md5KeyDerivation : MechanismId := ⟨0x0390⟩
def md2KeyDerivation : MechanismId := ⟨0x0391⟩
def sha1KeyDerivation : MechanismId := ⟨0x0392⟩
def sha256KeyDerivation : MechanismId := ⟨0x0393⟩
def sha384KeyDerivation : MechanismId := ⟨0x0394⟩
def sha512KeyDerivation : MechanismId := ⟨0x0395⟩
def sha224KeyDerivation : MechanismId := ⟨0x0396⟩
def sha3_256KeyDerivation : MechanismId := ⟨0x0397⟩
def sha3_224KeyDerivation : MechanismId := ⟨0x0398⟩
def sha3_384KeyDerivation : MechanismId := ⟨0x0399⟩
def sha3_512KeyDerivation : MechanismId := ⟨0x039a⟩
def shake128KeyDerivation : MechanismId := ⟨0x039b⟩
def shake256KeyDerivation : MechanismId := ⟨0x039c⟩
def camelliaKeyGen : MechanismId := ⟨0x0550⟩
def camelliaEcb : MechanismId := ⟨0x0551⟩
def camelliaCbc : MechanismId := ⟨0x0552⟩
def camelliaMac : MechanismId := ⟨0x0553⟩
def camelliaMacGeneral : MechanismId := ⟨0x0554⟩
def camelliaEcbEncryptData : MechanismId := ⟨0x0556⟩
def camelliaCbcEncryptData : MechanismId := ⟨0x0557⟩
def ecKeyPairGen : MechanismId := ⟨0x1040⟩
def ecdsa : MechanismId := ⟨0x1041⟩
def ecdsaSha1 : MechanismId := ⟨0x1042⟩
def ecdsaSha224 : MechanismId := ⟨0x1043⟩
def ecdsaSha256 : MechanismId := ⟨0x1044⟩
def ecdsaSha384 : MechanismId := ⟨0x1045⟩
def ecdsaSha512 : MechanismId := ⟨0x1046⟩
def ecdsaSha3_224 : MechanismId := ⟨0x1047⟩
def ecdsaSha3_256 : MechanismId := ⟨0x1048⟩
def ecdsaSha3_384 : MechanismId := ⟨0x1049⟩
def ecdsaSha3_512 : MechanismId := ⟨0x104a⟩
def ecdh1Derive : MechanismId := ⟨0x1050⟩
def ecdh1CofactorDerive : MechanismId := ⟨0x1051⟩
def ecEdwardsKeyPairGen : MechanismId := ⟨0x1055⟩
def ecMontgomeryKeyPairGen : MechanismId := ⟨0x1056⟩
def eddsa : MechanismId := ⟨0x1057⟩
def aesKeyGen : MechanismId := ⟨0x1080⟩
def aesEcb : MechanismId := ⟨0x1081⟩
def aesCbc : MechanismId := ⟨0x1082⟩
def aesCmacGeneral : MechanismId := ⟨0x1089⟩
def aesCmac : MechanismId := ⟨0x108a⟩
def aesEcbEncryptData : MechanismId := ⟨0x1104⟩
def aesCbcEncryptData : MechanismId := ⟨0x1105⟩
def gostr3411 : MechanismId := ⟨0x1210⟩
def gostr3411Hmac : MechanismId := ⟨0x1211⟩
def poly1305KeyGen : MechanismId := ⟨0x1227⟩
def poly1305 : MechanismId := ⟨0x1228⟩
def blake2b160 : MechanismId := ⟨0x400c⟩
def blake2b160Hmac : MechanismId := ⟨0x400d⟩
def blake2b160HmacGeneral : MechanismId := ⟨0x400e⟩
def blake2b160KeyDerive : MechanismId := ⟨0x400f⟩
def blake2b256 : MechanismId := ⟨0x4011⟩
def blake2b256Hmac : MechanismId := ⟨0x4012⟩
def blake2b256HmacGeneral : MechanismId := ⟨0x4013⟩
def blake2b256KeyDerive : MechanismId := ⟨0x4014⟩
def blake2b384 : MechanismId := ⟨0x4016⟩
def blake2b384Hmac : MechanismId := ⟨0x4017⟩
def blake2b384HmacGeneral : MechanismId := ⟨0x4018⟩
def blake2b384KeyDerive : MechanismId := ⟨0x4019⟩
def blake2b512 : MechanismId := ⟨0x401b⟩
def blake2b512Hmac : MechanismId := ⟨0x401c⟩
def blake2b512HmacGeneral : MechanismId := ⟨0x401d⟩
def blake2b512KeyDerive : MechanismId := ⟨0x401e⟩
def hkdfDerive : MechanismId := ⟨0x402a⟩
def hkdfData : MechanismId := ⟨0x402b⟩
def hkdfKeyGen : MechanismId := ⟨0x402c⟩

/-- The identifiers with a symbolic name. -/
def names : List (MechanismId × String) :=
  [ (rsaPkcsKeyPairGen, "CKM_RSA_PKCS_KEY_PAIR_GEN"),
    (rsaPkcs, "CKM_RSA_PKCS"),
    (rsa9796, "CKM_RSA_9796"),
    (rsaX509, "CKM_RSA_X_509"),
    (md2RsaPkcs, "CKM_MD2_RSA_PKCS"),
    (md5RsaPkcs, "CKM_MD5_RSA_PKCS"),
    (sha1RsaPkcs, "CKM_SHA1_RSA_PKCS"),
    (ripemd128RsaPkcs, "CKM_RIPEMD128_RSA_PKCS"),
    (ripemd160RsaPkcs, "CKM_RIPEMD160_RSA_PKCS"),
    (rsaPkcsOaep, "CKM_RSA_PKCS_OAEP"),
    (rsaX9_31, "CKM_RSA_X9_31"),
    (sha1RsaX9_31, "CKM_SHA1_RSA_X9_31"),
    (rsaPkcsPss, "CKM_RSA_PKCS_PSS"),
    (sha1RsaPkcsPss, "CKM_SHA1_RSA_PKCS_PSS"),
    (mlKemKeyPairGen, "CKM_ML_KEM_KEY_PAIR_GEN"),
    (mlKem, "CKM_ML_KEM"),
    (mlDsaKeyPairGen, "CKM_ML_DSA_KEY_PAIR_GEN"),
    (mlDsa, "CKM_ML_DSA"),
    (hashMlDsa, "CKM_HASH_ML_DSA"),
    (hashMlDsaSha224, "CKM_HASH_ML_DSA_SHA224"),
    (hashMlDsaSha256, "CKM_HASH_ML_DSA_SHA256"),
    (hashMlDsaSha384, "CKM_HASH_ML_DSA_SHA384"),
    (hashMlDsaSha512, "CKM_HASH_ML_DSA_SHA512"),
    (hashMlDsaSha3_224, "CKM_HASH_ML_DSA_SHA3_224"),
    (hashMlDsaSha3_256, "CKM_HASH_ML_DSA_SHA3_256"),
    (hashMlDsaSha3_384, "CKM_HASH_ML_DSA_SHA3_384"),
    (hashMlDsaSha3_512, "CKM_HASH_ML_DSA_SHA3_512"),
    (hashMlDsaShake128, "CKM_HASH_ML_DSA_SHAKE128"),
    (hashMlDsaShake256, "CKM_HASH_ML_DSA_SHAKE256"),
    (slhDsaKeyPairGen, "CKM_SLH_DSA_KEY_PAIR_GEN"),
    (slhDsa, "CKM_SLH_DSA"),
    (hashSlhDsa, "CKM_HASH_SLH_DSA"),
    (hashSlhDsaSha224, "CKM_HASH_SLH_DSA_SHA224"),
    (hashSlhDsaSha256, "CKM_HASH_SLH_DSA_SHA256"),
    (hashSlhDsaSha384, "CKM_HASH_SLH_DSA_SHA384"),
    (hashSlhDsaSha512, "CKM_HASH_SLH_DSA_SHA512"),
    (hashSlhDsaSha3_224, "CKM_HASH_SLH_DSA_SHA3_224"),
    (hashSlhDsaSha3_256, "CKM_HASH_SLH_DSA_SHA3_256"),
    (hashSlhDsaSha3_384, "CKM_HASH_SLH_DSA_SHA3_384"),
    (hashSlhDsaSha3_512, "CKM_HASH_SLH_DSA_SHA3_512"),
    (hashSlhDsaShake128, "CKM_HASH_SLH_DSA_SHAKE128"),
    (hashSlhDsaShake256, "CKM_HASH_SLH_DSA_SHAKE256"),
    (sha256RsaPkcs, "CKM_SHA256_RSA_PKCS"),
    (sha384RsaPkcs, "CKM_SHA384_RSA_PKCS"),
    (sha512RsaPkcs, "CKM_SHA512_RSA_PKCS"),
    (sha256RsaPkcsPss, "CKM_SHA256_RSA_PKCS_PSS"),
    (sha384RsaPkcsPss, "CKM_SHA384_RSA_PKCS_PSS"),
    (sha512RsaPkcsPss, "CKM_SHA512_RSA_PKCS_PSS"),
    (sha224RsaPkcs, "CKM_SHA224_RSA_PKCS"),
    (sha224RsaPkcsPss, "CKM_SHA224_RSA_PKCS_PSS"),
    (sha512_224, "CKM_SHA512_224"),
    (sha512_224Hmac, "CKM_SHA512_224_HMAC"),
    (sha512_224HmacGeneral, "CKM_SHA512_224_HMAC_GENERAL"),
    (sha512_224KeyDerivation, "CKM_SHA512_224_KEY_DERIVATION"),
    (sha512_256, "CKM_SHA512_256"),
    (sha512_256Hmac, "CKM_SHA512_256_HMAC"),
    (sha512_256HmacGeneral, "CKM_SHA512_256_HMAC_GENERAL"),
    (sha512_256KeyDerivation, "CKM_SHA512_256_KEY_DERIVATION"),
    (sha3_256RsaPkcs, "CKM_SHA3_256_RSA_PKCS"),
    (sha3_384RsaPkcs, "CKM_SHA3_384_RSA_PKCS"),
    (sha3_512RsaPkcs, "CKM_SHA3_512_RSA_PKCS"),
    (sha3_256RsaPkcsPss, "CKM_SHA3_256_RSA_PKCS_PSS"),
    (sha3_384RsaPkcsPss, "CKM_SHA3_384_RSA_PKCS_PSS"),
    (sha3_512RsaPkcsPss, "CKM_SHA3_512_RSA_PKCS_PSS"),
    (sha3_224RsaPkcs, "CKM_SHA3_224_RSA_PKCS"),
    (sha3_224RsaPkcsPss, "CKM_SHA3_224_RSA_PKCS_PSS"),
    (md2, "CKM_MD2"),
    (md2Hmac, "CKM_MD2_HMAC"),
    (md2HmacGeneral, "CKM_MD2_HMAC_GENERAL"),
    (md5, "CKM_MD5"),
    (md5Hmac, "CKM_MD5_HMAC"),
    (md5HmacGeneral, "CKM_MD5_HMAC_GENERAL"),
    (sha1, "CKM_SHA_1"),
    (sha1Hmac, "CKM_SHA_1_HMAC"),
    (sha1HmacGeneral, "CKM_SHA_1_HMAC_GENERAL"),
    (ripemd128, "CKM_RIPEMD128"),
    (ripemd128Hmac, "CKM_RIPEMD128_HMAC"),
    (ripemd128HmacGeneral, "CKM_RIPEMD128_HMAC_GENERAL"),
    (ripemd160, "CKM_RIPEMD160"),
    (ripemd160Hmac, "CKM_RIPEMD160_HMAC"),
    (ripemd160HmacGeneral, "CKM_RIPEMD160_HMAC_GENERAL"),
    (sha256, "CKM_SHA256"),
    (sha256Hmac, "CKM_SHA256_HMAC"),
    (sha256HmacGeneral, "CKM_SHA256_HMAC_GENERAL"),
    (sha224, "CKM_SHA224"),
    (sha224Hmac, "CKM_SHA224_HMAC"),
    (sha224HmacGeneral, "CKM_SHA224_HMAC_GENERAL"),
    (sha384, "CKM_SHA384"),
    (sha384Hmac, "CKM_SHA384_HMAC"),
    (sha384HmacGeneral, "CKM_SHA384_HMAC_GENERAL"),
    (sha512, "CKM_SHA512"),
    (sha512Hmac, "CKM_SHA512_HMAC"),
    (sha512HmacGeneral, "CKM_SHA512_HMAC_GENERAL"),
    (sha3_256, "CKM_SHA3_256"),
    (sha3_256Hmac, "CKM_SHA3_256_HMAC"),
    (sha3_256HmacGeneral, "CKM_SHA3_256_HMAC_GENERAL"),
    (sha3_224, "CKM_SHA3_224"),
    (sha3_224Hmac, "CKM_SHA3_224_HMAC"),
    (sha3_224HmacGeneral, "CKM_SHA3_224_HMAC_GENERAL"),
    (sha3_384, "CKM_SHA3_384"),
    (sha3_384Hmac, "CKM_SHA3_384_HMAC"),
    (sha3_384HmacGeneral, "CKM_SHA3_384_HMAC_GENERAL"),
    (sha3_512, "CKM_SHA3_512"),
    (sha3_512Hmac, "CKM_SHA3_512_HMAC"),
    (sha3_512HmacGeneral, "CKM_SHA3_512_HMAC_GENERAL"),
    (concatenateBaseAndKey, "CKM_CONCATENATE_BASE_AND_KEY"),
    (concatenateBaseAndData, "CKM_CONCATENATE_BASE_AND_DATA"),
    (concatenateDataAndBase, "CKM_CONCATENATE_DATA_AND_BASE"),
    (xorBaseAndData, "CKM_XOR_BASE_AND_DATA"),
    (extractKeyFromKey, "CKM_EXTRACT_KEY_FROM_KEY"),
    (md5KeyDerivation, "CKM_MD5_KEY_DERIVATION"),
    (md2KeyDerivation, "CKM_MD2_KEY_DERIVATION"),
    (sha1KeyDerivation, "CKM_SHA1_KEY_DERIVATION"),
    (sha256KeyDerivation, "CKM_SHA256_KEY_DERIVATION"),
    (sha384KeyDerivation, "CKM_SHA384_KEY_DERIVATION"),
    (sha512KeyDerivation, "CKM_SHA512_KEY_DERIVATION"),
    (sha224KeyDerivation, "CKM_SHA224_KEY_DERIVATION"),
    (sha3_256KeyDerivation, "CKM_SHA3_256_KEY_DERIVATION"),
    (sha3_224KeyDerivation, "CKM_SHA3_224_KEY_DERIVATION"),
    (sha3_384KeyDerivation, "CKM_SHA3_384_KEY_DERIVATION"),
    (sha3_512KeyDerivation, "CKM_SHA3_512_KEY_DERIVATION"),
    (shake128KeyDerivation, "CKM_SHAKE_128_KEY_DERIVATION"),
    (shake256KeyDerivation, "CKM_SHAKE_256_KEY_DERIVATION"),
    (camelliaKeyGen, "CKM_CAMELLIA_KEY_GEN"),
    (camelliaEcb, "CKM_CAMELLIA_ECB"),
    (camelliaCbc, "CKM_CAMELLIA_CBC"),
    (camelliaMac, "CKM_CAMELLIA_MAC"),
    (camelliaMacGeneral, "CKM_CAMELLIA_MAC_GENERAL"),
    (camelliaEcbEncryptData, "CKM_CAMELLIA_ECB_ENCRYPT_DATA"),
    (camelliaCbcEncryptData, "CKM_CAMELLIA_CBC_ENCRYPT_DATA"),
    (ecKeyPairGen, "CKM_EC_KEY_PAIR_GEN"),
    (ecdsa, "CKM_ECDSA"),
    (ecdsaSha1, "CKM_ECDSA_SHA1"),
    (ecdsaSha224, "CKM_ECDSA_SHA224"),
    (ecdsaSha256, "CKM_ECDSA_SHA256"),
    (ecdsaSha384, "CKM_ECDSA_SHA384"),
    (ecdsaSha512, "CKM_ECDSA_SHA512"),
    (ecdsaSha3_224, "CKM_ECDSA_SHA3_224"),
    (ecdsaSha3_256, "CKM_ECDSA_SHA3_256"),
    (ecdsaSha3_384, "CKM_ECDSA_SHA3_384"),
    (ecdsaSha3_512, "CKM_ECDSA_SHA3_512"),
    (ecdh1Derive, "CKM_ECDH1_DERIVE"),
    (ecdh1CofactorDerive, "CKM_ECDH1_COFACTOR_DERIVE"),
    (ecEdwardsKeyPairGen, "CKM_EC_EDWARDS_KEY_PAIR_GEN"),
    (ecMontgomeryKeyPairGen, "CKM_EC_MONTGOMERY_KEY_PAIR_GEN"),
    (eddsa, "CKM_EDDSA"),
    (aesKeyGen, "CKM_AES_KEY_GEN"),
    (aesEcb, "CKM_AES_ECB"),
    (aesCbc, "CKM_AES_CBC"),
    (aesCmacGeneral, "CKM_AES_CMAC_GENERAL"),
    (aesCmac, "CKM_AES_CMAC"),
    (aesEcbEncryptData, "CKM_AES_ECB_ENCRYPT_DATA"),
    (aesCbcEncryptData, "CKM_AES_CBC_ENCRYPT_DATA"),
    (gostr3411, "CKM_GOSTR3411"),
    (gostr3411Hmac, "CKM_GOSTR3411_HMAC"),
    (poly1305KeyGen, "CKM_POLY1305_KEY_GEN"),
    (poly1305, "CKM_POLY1305"),
    (blake2b160, "CKM_BLAKE2B_160"),
    (blake2b160Hmac, "CKM_BLAKE2B_160_HMAC"),
    (blake2b160HmacGeneral, "CKM_BLAKE2B_160_HMAC_GENERAL"),
    (blake2b160KeyDerive, "CKM_BLAKE2B_160_KEY_DERIVE"),
    (blake2b256, "CKM_BLAKE2B_256"),
    (blake2b256Hmac, "CKM_BLAKE2B_256_HMAC"),
    (blake2b256HmacGeneral, "CKM_BLAKE2B_256_HMAC_GENERAL"),
    (blake2b256KeyDerive, "CKM_BLAKE2B_256_KEY_DERIVE"),
    (blake2b384, "CKM_BLAKE2B_384"),
    (blake2b384Hmac, "CKM_BLAKE2B_384_HMAC"),
    (blake2b384HmacGeneral, "CKM_BLAKE2B_384_HMAC_GENERAL"),
    (blake2b384KeyDerive, "CKM_BLAKE2B_384_KEY_DERIVE"),
    (blake2b512, "CKM_BLAKE2B_512"),
    (blake2b512Hmac, "CKM_BLAKE2B_512_HMAC"),
    (blake2b512HmacGeneral, "CKM_BLAKE2B_512_HMAC_GENERAL"),
    (blake2b512KeyDerive, "CKM_BLAKE2B_512_KEY_DERIVE"),
    (hkdfDerive, "CKM_HKDF_DERIVE"),
    (hkdfData, "CKM_HKDF_DATA"),
    (hkdfKeyGen, "CKM_HKDF_KEY_GEN") ]

/-- The symbolic name of a mechanism; one without a name reads as vendor defined. -/
def name (m : MechanismId) : String := (names.lookup m).getD "CKM_VENDOR_DEFINED"

/-- The mechanism with a symbolic name. -/
def ofName? (s : String) : Option MechanismId := (names.find? fun row => row.2 == s).map (·.1)

end MechanismId
end SoftToken
