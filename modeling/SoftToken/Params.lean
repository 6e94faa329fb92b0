import SoftToken.KeyType
import SoftToken.Params.Codec
/-!
# Mechanism parameters

The parameter structures of the mechanisms and their wire form. Whatever is wrong with a blob, the
error is the one of invalid mechanism parameters.
-/

namespace SoftToken

/-- The length asked of a message authentication code. -/
structure MacParams where
  length : UInt64
deriving DecidableEq, Repr

structure OaepParams where
  hash : MechanismId
  mask : UInt64
  source : UInt64
  label : Option Bytes
deriving DecidableEq, Repr

structure PssParams where
  hash : MechanismId
  mask : UInt64
  saltLength : UInt64
deriving DecidableEq, Repr

structure AgreementParams where
  kdf : UInt64
  sharedData : Option Bytes
  publicData : Option Bytes
deriving DecidableEq, Repr

structure HkdfParams where
  extract : Bool
  expand : Bool
  hash : MechanismId
  saltType : UInt64
  salt : Option Bytes
  saltKey : UInt64
  info : Option Bytes
deriving DecidableEq, Repr

/-- The signing mode and the context of a signature. -/
structure SignContext where
  hedge : UInt64
  context : Option Bytes
deriving DecidableEq, Repr

/-- The signing mode, the context and the hash of a signature over a digest. -/
structure HashSignContext where
  hedge : UInt64
  context : Option Bytes
  hash : MechanismId
deriving DecidableEq, Repr

structure EddsaParams where
  prehash : Bool
  context : Option Bytes
deriving DecidableEq, Repr

/-- The data a key is combined with. -/
structure StringData where
  data : Bytes
deriving DecidableEq, Repr

/-- The handle of another key. -/
structure HandleParam where
  handle : UInt64
deriving DecidableEq, Repr

/-- The bit at which extraction starts. -/
structure ExtractParams where
  index : UInt64
deriving DecidableEq, Repr

structure CbcData where
  iv : Bytes
  data : Bytes
deriving DecidableEq, Repr

/-- A parameter structure with its wire form. -/
class Params (α : Type) where
  codec : Codec α

namespace Params

open Codec (number bool bytes option pair)

private def mechanism : Codec MechanismId := number.map (⟨·⟩) (·.val)

instance : Params MacParams := ⟨number.map (⟨·⟩) (·.length)⟩

instance : Params OaepParams :=
  ⟨(pair mechanism (pair number (pair number (option bytes)))).map
    (fun (h, m, s, l) => ⟨h, m, s, l⟩) (fun p => (p.hash, p.mask, p.source, p.label))⟩

instance : Params PssParams :=
  ⟨(pair mechanism (pair number number)).map
    (fun (h, m, s) => ⟨h, m, s⟩) (fun p => (p.hash, p.mask, p.saltLength))⟩

instance : Params AgreementParams :=
  ⟨(pair number (pair (option bytes) (option bytes))).map
    (fun (k, s, p) => ⟨k, s, p⟩) (fun p => (p.kdf, p.sharedData, p.publicData))⟩

instance : Params HkdfParams :=
  ⟨(pair bool (pair bool (pair mechanism (pair number (pair (option bytes) (pair number (option bytes))))))).map
    (fun (x, e, h, t, s, k, i) => ⟨x, e, h, t, s, k, i⟩)
    (fun p => (p.extract, p.expand, p.hash, p.saltType, p.salt, p.saltKey, p.info))⟩

instance : Params SignContext :=
  ⟨(pair number (option bytes)).map (fun (h, c) => ⟨h, c⟩) (fun p => (p.hedge, p.context))⟩

instance : Params HashSignContext :=
  ⟨(pair number (pair (option bytes) mechanism)).map
    (fun (h, c, m) => ⟨h, c, m⟩) (fun p => (p.hedge, p.context, p.hash))⟩

instance : Params EddsaParams :=
  ⟨(pair bool (option bytes)).map (fun (h, c) => ⟨h, c⟩) (fun p => (p.prehash, p.context))⟩

instance : Params StringData := ⟨bytes.map (⟨·⟩) (·.data)⟩

instance : Params HandleParam := ⟨number.map (⟨·⟩) (·.handle)⟩

instance : Params ExtractParams := ⟨number.map (⟨·⟩) (·.index)⟩

instance : Params CbcData :=
  ⟨(pair bytes bytes).map (fun (i, d) => ⟨i, d⟩) (fun p => (p.iv, p.data))⟩

/-- The error of a blob the codec refuses. -/
def fault (f : WireFault) : Error := .caused .mechanismParamInvalid (.wire f)

/-- Reads a parameter structure that takes up the whole blob. -/
def decode (α : Type) [Params α] (b : Bytes) : Except Error α := (codec.decode b).mapError fault

/-- Reads parameters that may be left out; an empty blob leaves them out. -/
def decodeOptional (α : Type) [Params α] (b : Bytes) : Except Error (Option α) :=
  if b.isEmpty then .ok none else some <$> decode α b

/-- Writes a parameter structure. -/
def encode {α : Type} [Params α] (v : α) : Except Error Bytes := (codec.encode v).mapError fault

/-- Refuses a blob where no parameters are taken. -/
def requireNone (b : Bytes) : Except Error Unit :=
  if b.isEmpty then .ok () else fail .mechanismParamInvalid

end Params
end SoftToken
