import SoftToken.Bytes
import SoftToken.MechanismId
/-!
# Mechanisms

A mechanism as a caller names it: an identifier and a parameter blob. What a registered mechanism can
do is told by its flags.
-/

namespace SoftToken

/-- A mechanism identifier with its parameters in wire form. -/
structure Mechanism where
  id : MechanismId
  params : Bytes := []
deriving DecidableEq, Repr

/-- An operation a mechanism may support. -/
inductive Operation where
  | sign
  | verify
  | derive
  | encapsulate
  | decapsulate
deriving DecidableEq, Repr

namespace Operation

/-- The flag that stands for an operation. -/
def flag : Operation → UInt64
  | sign => 0x00000800
  | verify => 0x00002000
  | derive => 0x00080000
  | encapsulate => 0x10000000
  | decapsulate => 0x20000000

end Operation

/-- The key sizes and the operations of a registered mechanism. -/
structure MechanismInfo where
  minKeySize : UInt64
  maxKeySize : UInt64
  operations : List Operation
deriving DecidableEq, Repr

namespace MechanismInfo

def supports (i : MechanismInfo) (op : Operation) : Bool := i.operations.contains op

/-- The flags of all supported operations. -/
def flags (i : MechanismInfo) : UInt64 := i.operations.foldl (fun f op => f ||| op.flag) 0

end MechanismInfo
end SoftToken
