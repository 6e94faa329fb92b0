import SoftToken.Mechanism
import SoftToken.Params
import SoftToken.SignedMessage
/-!
# Signing options

The lattice and hash based signatures are made with or without random bytes, in a context, and over
the message or its digest. The parameters choose all three; where they leave the first choice open, the
configured preference decides.
-/

namespace SoftToken

/-- How signatures are made when the caller has no preference. -/
inductive HedgePreference where
  | randomized
  | deterministic
deriving DecidableEq, Repr

namespace Hedge

/-- No preference. -/
def preferred : UInt64 := 0

/-- A signature with random bytes. -/
def required : UInt64 := 1

/-- A signature without random bytes. -/
def deterministicRequired : UInt64 := 2

/-- Whether a signature is to be deterministic. -/
def resolve (hedge : UInt64) (preference : HedgePreference) : Except Error Bool :=
  if hedge = deterministicRequired then .ok true
  else if hedge = required then .ok false
  else if hedge = preferred then .ok (preference == .deterministic)
  else refuse .mechanismParamInvalid (.hedgeInvalid hedge)

end Hedge

/-- The context of a signature; an absent one is empty. -/
def checkContext (context : Option Bytes) : Except Error Bytes :=
  let c := context.getD []
  if SignedMessage.maxContext < c.length then refuse .mechanismParamInvalid .contextTooLong else .ok c

/-- How a message is signed. -/
structure SigningOptions where
  deterministic : Bool
  context : Bytes
  prehash : Option Prehash
deriving DecidableEq, Repr

namespace SigningOptions

/-- The options of a mechanism whose parameters name the digest. -/
def ofHashParams (m : Mechanism) (preference : HedgePreference) : Except Error SigningOptions := do
  let p ← Params.decode HashSignContext m.params
  let deterministic ← Hedge.resolve p.hedge preference
  let context ← checkContext p.context
  return ⟨deterministic, context, some (← Prehash.ofMechanism p.hash)⟩

/-- The options of a mechanism that fixes the digest, or signs the message itself. -/
def ofParams (m : Mechanism) (preference : HedgePreference) (fixed : Option Prehash) :
    Except Error SigningOptions := do
  let p := (← Params.decodeOptional SignContext m.params).getD ⟨Hedge.preferred, none⟩
  let deterministic ← Hedge.resolve p.hedge preference
  return ⟨deterministic, ← checkContext p.context, fixed⟩

end SigningOptions
end SoftToken
