import SoftToken.Digest.Keccak
import SoftToken.Lattice.Transform
import SoftToken.RandomSource
/-!
# ML-KEM

Key encapsulation over module lattices. An encapsulation key hides a random 32-byte message in noisy
linear equations, from which the owner of the decapsulation key recovers it. The shared secret is
derived from the message; a ciphertext that was not made from its message gives a secret that depends
on the ciphertext and a stored value only.
-/

namespace SoftToken.MlKem

open SoftToken.Lattice

/-- The numbers that a parameter set fixes. -/
structure Parameters where
  /-- The number of polynomials in a row. -/
  rank : Nat
  /-- The width of the noise of the secret row. -/
  secretNoise : Nat
  /-- The bits kept of the coefficients of the ciphertext's row. -/
  rowBits : Nat
  /-- The bits kept of the coefficients of the ciphertext's last polynomial. -/
  lastBits : Nat
deriving DecidableEq, Repr

/-- The parameters of a parameter set. -/
def parameters? (set : UInt64) : Option Parameters :=
  [(1, ⟨2, 3, 10, 4⟩), (2, ⟨3, 2, 10, 4⟩), (3, ⟨4, 2, 11, 5⟩)].lookup set

/-- The width of the noise that is added to equations. -/
def noise : Nat := 2

def q : Nat := 3329

/-- The ring of the coefficients. -/
def ring : Ring := Ring.ofRoot q 7 17

/-- The numbers by which pairs of coefficients are reduced. -/
def pairRoots : List Nat := (List.range 128).map fun i => Modular.pow q 17 (2 * reverseBits 7 i + 1)

def mul (f g : Poly) : Poly := ring.mulPairs pairRoots f g

/-! ## Coefficients -/

/-- A coefficient in `bits` bits, to the nearest. -/
def compress (bits x : Nat) : Nat := (2 ^ (bits + 1) * x + q) / (2 * q) % 2 ^ bits

/-- The coefficient nearest to `bits` bits. -/
def decompress (bits y : Nat) : Nat := (2 * q * y + 2 ^ bits) / 2 ^ (bits + 1)

def packCompressed (bits : Nat) (f : Poly) : Bytes := pack bits (f.map (compress bits))

def unpackCompressed (bits : Nat) (b : Bytes) : Poly := (unpack bits degree b).map (decompress bits)

/-- The length of a polynomial with 12 bits for a coefficient. -/
def polySize : Nat := 384

/-- Reads a row of polynomials; every coefficient must be reduced. -/
def readRow? (rank : Nat) (b : Bytes) : Option (List Poly) :=
  let row := (pieces polySize rank b).map (unpack 12 degree)
  if row.all fun f => f.all fun c => c < q then some row else none

/-! ## Sampling -/

/-- The coefficients below the modulus among pairs of 12-bit numbers. -/
def acceptPairs : Bytes → List Nat
  | x :: y :: z :: r =>
    let d1 := x.toNat + 256 * (y.toNat % 16)
    let d2 := y.toNat / 16 + 16 * z.toNat
    (if d1 < q then [d1] else []) ++ (if d2 < q then [d2] else []) ++ acceptPairs r
  | _ => []

/-- The number of bytes that sampling a polynomial may take. -/
def sampleBytes : Nat := 840

/-- The entry of the public matrix that a seed and two indices give. -/
def matrixEntry (seed : Bytes) (column row : Nat) : Poly :=
  let input := seed ++ [UInt8.ofNat column, UInt8.ofNat row]
  (acceptPairs (Bytes.ofArray (Keccak.shake128 (Bytes.pack input) sampleBytes))).take degree

/-- The number of ones among the lowest `bits` bits. -/
def countOnes : Nat → Nat → Nat
  | 0, _ => 0
  | bits + 1, n => n % 2 + countOnes bits (n / 2)

/-- A polynomial of noise: each coefficient is the difference of two counts of ones. -/
def noisePoly (width : Nat) (seed : Bytes) (index : Nat) : Poly :=
  let bytes := Bytes.ofArray (Keccak.shake256 (Bytes.pack (seed ++ [UInt8.ofNat index])) (64 * width))
  (unpack (2 * width) degree bytes).map fun x =>
    (countOnes width x + (q - countOnes width (x / 2 ^ width))) % q

/-! ## Encryption of messages -/

/-- Encrypts a 32-byte message under a row and the seed of the matrix, with the noise of a seed. -/
def encryptMessage (P : Parameters) (row : List Poly) (seed message noiseSeed : Bytes) : Bytes :=
  let indices := List.range P.rank
  let secret := indices.map fun i => ring.transform (noisePoly P.secretNoise noiseSeed i)
  let products := indices.map fun i =>
    ring.add (ring.restore (ring.dot mul (indices.map fun j => matrixEntry seed i j) secret))
      (noisePoly noise noiseSeed (P.rank + i))
  let last := ring.add (ring.add (ring.restore (ring.dot mul row secret))
    (noisePoly noise noiseSeed (2 * P.rank))) ((unpack 1 degree message).map (decompress 1))
  products.flatMap (packCompressed P.rowBits) ++ packCompressed P.lastBits last

/-- Recovers the message of a ciphertext with the secret row. -/
def decryptMessage (P : Parameters) (secret : List Poly) (ciphertext : Bytes) : Bytes :=
  let size := 32 * P.rowBits
  let products := (pieces size P.rank ciphertext).map (unpackCompressed P.rowBits)
  let last := unpackCompressed P.lastBits (ciphertext.drop (size * P.rank))
  let inner := ring.restore (ring.dot mul secret (products.map ring.transform))
  packCompressed 1 (ring.sub last inner)

/-! ## Encapsulation -/

/-- The digest of a key. -/
def keyDigest (b : Bytes) : Bytes := Bytes.ofArray (Keccak.sha3_256 (Bytes.pack b))

/-- The secret and the noise seed that a message gives under a key digest. -/
def deriveSecret (message digest : Bytes) : Bytes × Bytes :=
  (Bytes.ofArray (Keccak.sha3_512 (Bytes.pack (message ++ digest)))).splitAt 32

/-- The secret of a ciphertext that is refused. -/
def rejectedSecret (z ciphertext : Bytes) : Bytes :=
  Bytes.ofArray (Keccak.shake256 (Bytes.pack (z ++ ciphertext)) 32)

/-- The length of the row of a key. -/
def Parameters.rowSize (P : Parameters) : Nat := polySize * P.rank

/-- Reads an encapsulation key: its row and the seed of the matrix. -/
def readPublic (P : Parameters) (key : Bytes) : Except Error (List Poly × Bytes) :=
  match readRow? P.rank key with
  | some row => .ok (row, key.drop P.rowSize)
  | none => refuse .keyHandleInvalid .coefficientOutOfRange

/-- The secret and the ciphertext that a message gives. -/
def encapsulateMessage (P : Parameters) (key message : Bytes) : Except Error (Bytes × Bytes) := do
  let (row, seed) ← readPublic P key
  let (secret, noiseSeed) := deriveSecret message (keyDigest key)
  return (secret, encryptMessage P row seed message noiseSeed)

/-- Draws a message and encapsulates it. -/
def encapsulate (P : Parameters) (key : Bytes) : Draw (Bytes × Bytes) := do
  let _ ← readPublic P key
  let message ← Draw.orElse 32 (.error (.explained .functionFailed .encapsulationRandomFailed))
  encapsulateMessage P key message

/-- Recovers the secret of a ciphertext. The decapsulation key holds the secret row, the encapsulation
key with its digest, and a value for refused ciphertexts. -/
def decapsulate (P : Parameters) (key ciphertext : Bytes) : Except Error Bytes := do
  let publicKey := (key.drop P.rowSize).take (P.rowSize + 32)
  let rest := key.drop (2 * P.rowSize + 32)
  let digest := rest.take 32
  let (row, seed) ← readPublic P publicKey
  if keyDigest publicKey ≠ digest then refuse .keyHandleInvalid .encapsulationHashWrong
  else match readRow? P.rank key with
    | none => refuse .functionFailed .coefficientOutOfRange
    | some secretRow =>
      let message := decryptMessage P secretRow ciphertext
      let (secret, noiseSeed) := deriveSecret message digest
      if encryptMessage P row seed message noiseSeed = ciphertext then return secret
      else return rejectedSecret (rest.drop 32) ciphertext

end SoftToken.MlKem
