/-!
# Return codes

Every failure of the token carries a return code of the interface. A code is any 64-bit word; the
ones the token itself reports have names.
-/

namespace SoftToken

/-- A return code of the interface. -/
structure ReturnCode where
  val : UInt64
deriving DecidableEq, Repr, Inhabited

namespace ReturnCode

def ok : ReturnCode := ⟨0x00⟩
def generalError : ReturnCode := ⟨0x05⟩
def functionFailed : ReturnCode := ⟨0x06⟩
def argumentsBad : ReturnCode := ⟨0x07⟩
def attributeTypeInvalid : ReturnCode := ⟨0x12⟩
def attributeValueInvalid : ReturnCode := ⟨0x13⟩
def dataInvalid : ReturnCode := ⟨0x20⟩
def dataLenRange : ReturnCode := ⟨0x21⟩
def encryptedDataInvalid : ReturnCode := ⟨0x40⟩
def encryptedDataLenRange : ReturnCode := ⟨0x41⟩
def keyHandleInvalid : ReturnCode := ⟨0x60⟩
def keySizeRange : ReturnCode := ⟨0x62⟩
def keyTypeInconsistent : ReturnCode := ⟨0x63⟩
def keyFunctionNotPermitted : ReturnCode := ⟨0x68⟩
def mechanismInvalid : ReturnCode := ⟨0x70⟩
def mechanismParamInvalid : ReturnCode := ⟨0x71⟩
def objectHandleInvalid : ReturnCode := ⟨0x82⟩
def operationNotInitialized : ReturnCode := ⟨0x91⟩
def signatureInvalid : ReturnCode := ⟨0xc0⟩
def signatureLenRange : ReturnCode := ⟨0xc1⟩
def templateInconsistent : ReturnCode := ⟨0xd1⟩
def curveNotSupported : ReturnCode := ⟨0x140⟩

/-- The named codes. -/
def names : List (ReturnCode × String) :=
  [ (ok, "CKR_OK"),
    (generalError, "CKR_GENERAL_ERROR"),
    (functionFailed, "CKR_FUNCTION_FAILED"),
    (argumentsBad, "CKR_ARGUMENTS_BAD"),
    (attributeTypeInvalid, "CKR_ATTRIBUTE_TYPE_INVALID"),
    (attributeValueInvalid, "CKR_ATTRIBUTE_VALUE_INVALID"),
    (dataInvalid, "CKR_DATA_INVALID"),
    (dataLenRange, "CKR_DATA_LEN_RANGE"),
    (encryptedDataInvalid, "CKR_ENCRYPTED_DATA_INVALID"),
    (encryptedDataLenRange, "CKR_ENCRYPTED_DATA_LEN_RANGE"),
    (keyHandleInvalid, "CKR_KEY_HANDLE_INVALID"),
    (keySizeRange, "CKR_KEY_SIZE_RANGE"),
    (keyTypeInconsistent, "CKR_KEY_TYPE_INCONSISTENT"),
    (keyFunctionNotPermitted, "CKR_KEY_FUNCTION_NOT_PERMITTED"),
    (mechanismInvalid, "CKR_MECHANISM_INVALID"),
    (mechanismParamInvalid, "CKR_MECHANISM_PARAM_INVALID"),
    (objectHandleInvalid, "CKR_OBJECT_HANDLE_INVALID"),
    (operationNotInitialized, "CKR_OPERATION_NOT_INITIALIZED"),
    (signatureInvalid, "CKR_SIGNATURE_INVALID"),
    (signatureLenRange, "CKR_SIGNATURE_LEN_RANGE"),
    (templateInconsistent, "CKR_TEMPLATE_INCONSISTENT"),
    (curveNotSupported, "CKR_CURVE_NOT_SUPPORTED") ]

/-- The symbolic name of a code; a code without one reads as vendor defined. -/
def name (c : ReturnCode) : String := (names.lookup c).getD "CKR_VENDOR_DEFINED"

end ReturnCode
end SoftToken
