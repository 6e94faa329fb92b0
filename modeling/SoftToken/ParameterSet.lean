/-!
# Parameter sets

The sizes of the keys, ciphertexts and signatures that each parameter set of the lattice and hash
based schemes fixes.
-/

namespace SoftToken

/-- The sizes in bytes a parameter set fixes. -/
structure ParameterSizes where
  publicKey : Nat
  privateKey : Nat
  /-- The ciphertext of a key encapsulation, the signature of a signature scheme. -/
  output : Nat
deriving DecidableEq, Repr

/-- The schemes that come in parameter sets. -/
inductive ParameterFamily where
  | mlKem
  | mlDsa
  | slhDsa
deriving DecidableEq, Repr

namespace ParameterFamily

def name : ParameterFamily → String
  | mlKem => "ML-KEM"
  | mlDsa => "ML-DSA"
  | slhDsa => "SLH-DSA"

/-- The sizes of the defined parameter sets, by their number. -/
def sets : ParameterFamily → List (UInt64 × ParameterSizes)
  | mlKem => [(1, ⟨800, 1632, 768⟩), (2, ⟨1184, 2400, 1088⟩), (3, ⟨1568, 3168, 1568⟩)]
  | mlDsa => [(1, ⟨1312, 2560, 2420⟩), (2, ⟨1952, 4032, 3309⟩), (3, ⟨2592, 4896, 4627⟩)]
  | slhDsa =>
    [(1, ⟨32, 64, 7856⟩), (2, ⟨32, 64, 7856⟩), (3, ⟨32, 64, 17088⟩), (4, ⟨32, 64, 17088⟩),
      (5, ⟨48, 96, 16224⟩), (6, ⟨48, 96, 16224⟩), (7, ⟨48, 96, 35664⟩), (8, ⟨48, 96, 35664⟩),
      (9, ⟨64, 128, 29792⟩), (10, ⟨64, 128, 29792⟩), (11, ⟨64, 128, 49856⟩), (12, ⟨64, 128, 49856⟩)]

/-- The sizes of a parameter set, if it is defined. -/
def sizes? (f : ParameterFamily) (set : UInt64) : Option ParameterSizes := f.sets.lookup set

end ParameterFamily
end SoftToken
