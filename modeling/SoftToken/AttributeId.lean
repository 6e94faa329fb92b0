import SoftToken.Numeral
/-!
# Attribute identifiers

An attribute is named by a 64-bit word. The token knows the attributes of `table`, each with the kind
of value it holds; an identifier outside the table is shown in hexadecimal.
-/

namespace SoftToken

/-- The kind of value an attribute holds. -/
inductive ValueKind where
  | bool
  | number
  | string
  | bytes
  | date
deriving DecidableEq, Repr

/-- The identifier of an attribute. -/
structure AttributeId where
  val : UInt64
deriving DecidableEq, Repr, Inhabited

namespace AttributeId

def classId : AttributeId := ⟨0x000⟩
def token : AttributeId := ⟨0x001⟩
def privateObject : AttributeId := ⟨0x002⟩
def label : AttributeId := ⟨0x003⟩
def uniqueId : AttributeId := ⟨0x004⟩
def application : AttributeId := ⟨0x010⟩
def value : AttributeId := ⟨0x011⟩
def checkValue : AttributeId := ⟨0x090⟩
def keyType : AttributeId := ⟨0x100⟩
def subject : AttributeId := ⟨0x101⟩
def id : AttributeId := ⟨0x102⟩
def sensitive : AttributeId := ⟨0x103⟩
def encrypt : AttributeId := ⟨0x104⟩
def decrypt : AttributeId := ⟨0x105⟩
def wrap : AttributeId := ⟨0x106⟩
def unwrap : AttributeId := ⟨0x107⟩
def sign : AttributeId := ⟨0x108⟩
def signRecover : AttributeId := ⟨0x109⟩
def verify : AttributeId := ⟨0x10a⟩
def verifyRecover : AttributeId := ⟨0x10b⟩
def derive : AttributeId := ⟨0x10c⟩
def startDate : AttributeId := ⟨0x110⟩
def endDate : AttributeId := ⟨0x111⟩
def modulus : AttributeId := ⟨0x120⟩
def modulusBits : AttributeId := ⟨0x121⟩
def publicExponent : AttributeId := ⟨0x122⟩
def privateExponent : AttributeId := ⟨0x123⟩
def prime1 : AttributeId := ⟨0x124⟩
def prime2 : AttributeId := ⟨0x125⟩
def exponent1 : AttributeId := ⟨0x126⟩
def exponent2 : AttributeId := ⟨0x127⟩
def coefficient : AttributeId := ⟨0x128⟩
def valueLen : AttributeId := ⟨0x161⟩
def extractable : AttributeId := ⟨0x162⟩
def isLocal : AttributeId := ⟨0x163⟩
def neverExtractable : AttributeId := ⟨0x164⟩
def alwaysSensitive : AttributeId := ⟨0x165⟩
def keyGenMechanism : AttributeId := ⟨0x166⟩
def modifiable : AttributeId := ⟨0x170⟩
def copyable : AttributeId := ⟨0x171⟩
def destroyable : AttributeId := ⟨0x172⟩
def ecParams : AttributeId := ⟨0x180⟩
def ecPoint : AttributeId := ⟨0x181⟩
def alwaysAuthenticate : AttributeId := ⟨0x202⟩
def wrapWithTrusted : AttributeId := ⟨0x210⟩
def parameterSet : AttributeId := ⟨0x61d⟩
def encapsulate : AttributeId := ⟨0x633⟩
def decapsulate : AttributeId := ⟨0x634⟩

/-- What is known about an attribute. -/
structure Entry where
  id : AttributeId
  name : String
  kind : ValueKind

/-- The known attributes, by increasing identifier. -/
def table : List Entry :=
  [ ⟨classId, "CKA_CLASS", .number⟩,
    ⟨token, "CKA_TOKEN", .bool⟩,
    ⟨privateObject, "CKA_PRIVATE", .bool⟩,
    ⟨label, "CKA_LABEL", .string⟩,
    ⟨uniqueId, "CKA_UNIQUE_ID", .string⟩,
    ⟨application, "CKA_APPLICATION", .string⟩,
    ⟨value, "CKA_VALUE", .bytes⟩,
    ⟨checkValue, "CKA_CHECK_VALUE", .bytes⟩,
    ⟨keyType, "CKA_KEY_TYPE", .number⟩,
    ⟨subject, "CKA_SUBJECT", .bytes⟩,
    ⟨id, "CKA_ID", .bytes⟩,
    ⟨sensitive, "CKA_SENSITIVE", .bool⟩,
    ⟨encrypt, "CKA_ENCRYPT", .bool⟩,
    ⟨decrypt, "CKA_DECRYPT", .bool⟩,
    ⟨wrap, "CKA_WRAP", .bool⟩,
    ⟨unwrap, "CKA_UNWRAP", .bool⟩,
    ⟨sign, "CKA_SIGN", .bool⟩,
    ⟨signRecover, "CKA_SIGN_RECOVER", .bool⟩,
    ⟨verify, "CKA_VERIFY", .bool⟩,
    ⟨verifyRecover, "CKA_VERIFY_RECOVER", .bool⟩,
    ⟨derive, "CKA_DERIVE", .bool⟩,
    ⟨startDate, "CKA_START_DATE", .date⟩,
    ⟨endDate, "CKA_END_DATE", .date⟩,
    ⟨modulus, "CKA_MODULUS", .bytes⟩,
    ⟨modulusBits, "CKA_MODULUS_BITS", .number⟩,
    ⟨publicExponent, "CKA_PUBLIC_EXPONENT", .bytes⟩,
    ⟨privateExponent, "CKA_PRIVATE_EXPONENT", .bytes⟩,
    ⟨prime1, "CKA_PRIME_1", .bytes⟩,
    ⟨prime2, "CKA_PRIME_2", .bytes⟩,
    ⟨exponent1, "CKA_EXPONENT_1", .bytes⟩,
    ⟨exponent2, "CKA_EXPONENT_2", .bytes⟩,
    ⟨coefficient, "CKA_COEFFICIENT", .bytes⟩,
    ⟨valueLen, "CKA_VALUE_LEN", .number⟩,
    ⟨extractable, "CKA_EXTRACTABLE", .bool⟩,
    ⟨isLocal, "CKA_LOCAL", .bool⟩,
    ⟨neverExtractable, "CKA_NEVER_EXTRACTABLE", .bool⟩,
    ⟨alwaysSensitive, "CKA_ALWAYS_SENSITIVE", .bool⟩,
    ⟨keyGenMechanism, "CKA_KEY_GEN_MECHANISM", .number⟩,
    ⟨modifiable, "CKA_MODIFIABLE", .bool⟩,
    ⟨copyable, "CKA_COPYABLE", .bool⟩,
    ⟨destroyable, "CKA_DESTROYABLE", .bool⟩,
    ⟨ecParams, "CKA_EC_PARAMS", .bytes⟩,
    ⟨ecPoint, "CKA_EC_POINT", .bytes⟩,
    ⟨alwaysAuthenticate, "CKA_ALWAYS_AUTHENTICATE", .bool⟩,
    ⟨wrapWithTrusted, "CKA_WRAP_WITH_TRUSTED", .bool⟩,
    ⟨parameterSet, "CKA_PARAMETER_SET", .number⟩,
    ⟨encapsulate, "CKA_ENCAPSULATE", .bool⟩,
    ⟨decapsulate, "CKA_DECAPSULATE", .bool⟩ ]

/-- The entry of a known attribute. -/
def entry? (a : AttributeId) : Option Entry := table.find? fun e => e.id == a

/-- The kind of value registered for an attribute. -/
def kind? (a : AttributeId) : Option ValueKind := a.entry?.map (·.kind)

/-- The symbolic name of a known attribute, the number of any other one. -/
def name (a : AttributeId) : String := (a.entry?.map (·.name)).getD (hexWord a.val)

end AttributeId
end SoftToken
