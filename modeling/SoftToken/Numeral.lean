/-!
# Hexadecimal words

Unknown identifiers are shown as `0x` and the lower case hexadecimal digits of the word.
-/

namespace SoftToken

/-- The lower case hexadecimal digits of a word, without leading zeros. -/
def hexDigits (w : UInt64) : String := String.ofList (Nat.toDigits 16 w.toNat)

/-- A word in hexadecimal, marked as such. -/
def hexWord (w : UInt64) : String := "0x" ++ hexDigits w

end SoftToken
