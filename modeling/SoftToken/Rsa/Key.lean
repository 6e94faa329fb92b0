import SoftToken.Key.View
import SoftToken.Modular
import SoftToken.RandomSource
/-!
# RSA keys

The integers of an RSA key, and the raw operations on numbers below the modulus. A key is checked when
it is made from its parts: the public exponent is odd and not too large, the primes multiply to the
modulus and the exponents are inverse to each other modulo each prime less one. That the primes are
prime is not checked.
-/

namespace SoftToken.Rsa

/-- The private part of a key. -/
structure Secret where
  d : Nat
  p : Nat
  q : Nat
deriving DecidableEq, Repr

/-- An RSA key, with its private part if it has one. -/
structure Key where
  n : Nat
  e : Nat
  secret : Option Secret := none
deriving DecidableEq, Repr

namespace Key

def bits (k : Key) : Nat := Modular.bitLength k.n

/-- The length of the modulus in bytes. -/
def size (k : Key) : Nat := (k.bits + 7) / 8

/-- The conditions on the public part. -/
def validPublic (n e : Nat) : Bool :=
  decide (e < 2 ^ 64) && decide (e < n) && n % 2 == 1 && e % 2 == 1
    && decide (2 ≤ e) && decide (e ≤ 2 ^ 33 - 1)

/-- The primes of a modulus, from the two exponents. -/
def recoverPrimes? (n e d : Nat) : Option (Nat × Nat) :=
  if ¬(2 ^ 16 < e ∧ e < 2 ^ 256) ∨ d = 0 then none
  else
    let a := (d * e - 1) * Nat.gcd (n - 1) (d * e - 1)
    let m := a / n
    let r := a % n
    if (n - r) % (m + 1) ≠ 0 then none
    else
      let b := (n - r) / (m + 1) + 1
      if b * b ≤ 4 * n then none
      else
        let y := Modular.sqrt (b * b - 4 * n)
        if y * y ≠ b * b - 4 * n then none else some ((b + y) / 2, (b - y) / 2)

/-- The conditions on the private part. -/
def validSecret (n e : Nat) (s : Secret) : Bool :=
  [s.p, s.q].all fun r => decide (1 < r) && s.d * e % (r - 1) == 1 % (r - 1)
  && s.p * s.q == n

/-- The error of parts that make no key. -/
def invalid : Error := .caused .attributeValueInvalid .rsaPrimitive

/-- The key of a public view; the modulus has 4096 bits at most. -/
def ofPublic (v : RsaPublicKey) : Except Error Key :=
  let n := Bytes.toNat v.modulus
  let e := Bytes.toNat v.publicExponent
  if Modular.bitLength n ≤ 4096 && validPublic n e then .ok ⟨n, e, none⟩ else .error invalid

/-- The key of a private view; missing primes are recovered. -/
def ofPrivate (v : RsaPrivateKey) : Except Error Key :=
  let n := Bytes.toNat v.modulus
  let e := Bytes.toNat v.publicExponent
  let d := Bytes.toNat v.privateExponent
  let primes := match v.prime1, v.prime2 with
    | some p, some q => some (Bytes.toNat p, Bytes.toNat q)
    | _, _ => recoverPrimes? n e d
  match validPublic n e, primes with
  | true, some (p, q) => if validSecret n e ⟨d, p, q⟩ then .ok ⟨n, e, some ⟨d, p, q⟩⟩ else .error invalid
  | _, _ => .error invalid

/-- The public operation. -/
def encrypt (k : Key) (m : Nat) : Nat := Modular.pow k.n m k.e

/-- The private operation, by the remainders modulo the primes where these have no common divisor. -/
def Secret.decrypt (s : Secret) (n c : Nat) : Nat :=
  match Modular.inverse? s.p s.q with
  | some qInverse =>
    let m1 := Modular.pow s.p c (s.d % (s.p - 1))
    let m2 := Modular.pow s.q c (s.d % (s.q - 1))
    m2 + s.q * ((m1 + (s.p - m2 % s.p)) * qInverse % s.p)
  | none => Modular.pow n c s.d

/-- The error of a primitive that has no return code of its own. -/
def primitiveError : Error := .outside .rsaPrimitive

/-- What the private operation has made of a number below the modulus, checked by the public one. -/
def checkRoot (k : Key) (c root : Nat) : Except Error Nat :=
  if c < k.n ∧ k.encrypt root = c then .ok root else .error primitiveError

/-- The checked private operation. -/
def decrypt (k : Key) (c : Nat) : Except Error Nat :=
  match k.secret with
  | none => .error primitiveError
  | some s => k.checkRoot c (Secret.decrypt s k.n c)

/-- A unit that blinds a number, and its inverse. -/
structure Blinding where
  factor : Nat
  inverse : Nat
deriving DecidableEq, Repr

/-- The number in words of 64 bits, lowest first, with the excess bits of the highest shifted out. -/
def blindingFactor (bits : Nat) (b : Bytes) : Nat :=
  let n := Bytes.toNatLE b
  let high := 64 * ((bits - 1) / 64)
  n % 2 ^ high + 2 ^ high * (n / 2 ^ high / 2 ^ (high + 64 - bits))

/-- The blinding by a number below the modulus, if that is a unit. One stands for zero. -/
def blinding? (k : Key) (r : Nat) : Option Blinding :=
  if r < k.n then
    let factor := if r = 0 then 1 else r
    (Modular.inverse? k.n factor).map (⟨factor, ·⟩)
  else none

/-- Draws a blinding, with at most `fuel` requests. -/
def drawBlinding (k : Key) : Nat → Draw Blinding
  | 0 => throw (.abort .randomSource)
  | fuel + 1 => do
    match k.blinding? (blindingFactor k.bits (← Draw.bytesOrAbort (8 * ((k.bits + 63) / 64)))) with
    | some b => return b
    | none => drawBlinding k fuel

/-- The number of requests after which drawing a number in a range is given up. -/
def maxRequests : Nat := 4096

/-- The private operation on a blinded number, with the blinding taken off the result. -/
def Secret.blindDecrypt (s : Secret) (k : Key) (b : Blinding) (c : Nat) : Nat :=
  Secret.decrypt s k.n (c * k.encrypt b.factor % k.n) * b.inverse % k.n

/-- The private operation of a signature, which is blinded and checked. With factors that are not prime the result may
depend on the blinding. -/
def signRaw (k : Key) (m : Nat) : Draw Nat := do
  match k.secret with
  | none => throw (.error primitiveError)
  | some s =>
    if m < k.n then k.checkRoot m (Secret.blindDecrypt s k (← k.drawBlinding maxRequests) m)
    else throw (.error primitiveError)

end Key
end SoftToken.Rsa
