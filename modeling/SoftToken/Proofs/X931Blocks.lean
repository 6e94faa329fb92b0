import SoftToken.Proofs.PrimitiveErrors
import SoftToken.Proofs.PssTotality
/-!
# The blocks of X9.31

A block fills all bytes of the modulus: a header, the digest and a trailer. The header ends where its filling ends, so
that a block gives back its digest, and the trailer is even, so that two blocks never add up to an odd modulus:
`x931_one_digest`. The first byte of the header does not go by the bits of the modulus. Whether the number of a block is
below the modulus, and can be signed at all, depends on how many bits the first byte of the modulus has:
`x931_signs_iff`.
-/

namespace SoftToken.Rsa

namespace X931

/-- What stands in front of the digest, in `len` bytes. -/
def header (len : Nat) : Bytes := 0x6b :: (List.replicate (len - 2) 0xbb ++ [0xba])

/-- What stands behind the digest. -/
def trailer : Bytes := [0x33, 0xcc]

/-- The block of a digest for a modulus of `size` bytes. -/
def block (size : Nat) (digest : Bytes) : Bytes := header (size - digest.length - 2) ++ (digest ++ trailer)

variable {k : Key} {size : Nat} {digest digest' : Bytes} {m : Nat}

theorem block?_eq (size : Nat) (digest : Bytes) :
    x931Block? size digest = if digest.length + 4 ≤ size then some (block size digest) else none := by
  have hfill : size - digest.length - 2 - 2 = size - digest.length - 4 := by omega
  simp [x931Block?, block, header, trailer, hfill]

theorem length_block (h : digest.length + 4 ≤ size) : (block size digest).length = size := by
  simp only [block, header, trailer, List.length_append, List.length_cons, List.length_replicate, List.length_nil]
  omega

theorem number_iff : x931Number k digest = .ok m ↔
    digest.length + 4 ≤ k.size ∧ Bytes.toNat (block k.size digest) = m := by
  unfold x931Number
  rw [block?_eq]
  by_cases hroom : digest.length + 4 ≤ k.size
  · simp [hroom]
  · simp [hroom, fail]

/-! ## One digest -/

/-- The header ends where its filling ends. -/
theorem dropWhile_header (len : Nat) (r : Bytes) : ((header len ++ r).drop 1).dropWhile (· == 0xbb) = 0xba :: r := by
  have hfill : ∀ x ∈ List.replicate (len - 2) (0xbb : UInt8), (x == 0xbb) = true := by simp
  rw [header, List.cons_append, List.drop_one, List.tail_cons, List.append_assoc, List.dropWhile_append_of_pos hfill]
  rfl

/-- A block gives back its digest. -/
theorem block_injective (h : block size digest = block size digest') : digest = digest' := by
  have hrest := congrArg (fun b : Bytes => (b.drop 1).dropWhile (· == 0xbb)) h
  simp only [block, dropWhile_header, List.cons.injEq, true_and] at hrest
  exact List.append_cancel_right hrest

/-- The trailer is even. -/
theorem toNat_block_mod (size : Nat) (digest : Bytes) : Bytes.toNat (block size digest) % 2 = 0 := by
  have htrailer : Bytes.toNat trailer = 0x33cc := by decide
  have hlen : trailer.length = 2 := rfl
  rw [block, ← List.append_assoc, Bytes.toNat_append, htrailer, hlen]
  omega

end X931

variable {k : Key} {digest digest' signature : Bytes} {m : Nat}

theorem verify_x931 : verify k .x931 digest signature = .ok true ↔ signature.length = k.size ∧
    digest.length + 4 ≤ k.size ∧ opensTo k signature (Bytes.toNat (X931.block k.size digest)) = true := by
  unfold verify
  split
  · next hlen => exact iff_of_false nofun fun h => hlen h.1
  · next hlen =>
    show ((liftM (x931Number k digest) : Except Failure Nat) >>= fun m => Except.ok (opensTo k signature m)) = _ ↔ _
    rw [Except.bind_ok]
    constructor
    · rintro ⟨m, hm, hopens⟩
      obtain ⟨hroom, rfl⟩ := X931.number_iff.1 (Except.lift_ok.1 hm)
      exact ⟨not_not.1 hlen, hroom, Except.ok.inj hopens⟩
    · rintro ⟨-, hroom, hopens⟩
      exact ⟨_, Except.lift_ok.2 (X931.number_iff.2 ⟨hroom, rfl⟩), congrArg Except.ok hopens⟩

/-- A signature is one of a single digest, of whatever length, although it opens to a number and to what is missing from
it to the modulus. -/
theorem x931_one_digest {v : RsaPublicKey} (hk : Key.ofPublic v = .ok k)
    (h : verify k .x931 digest signature = .ok true) (h' : verify k .x931 digest' signature = .ok true) :
    digest = digest' := by
  have hodd : k.n % 2 = 1 := (Key.validPublic_iff.1 (Key.public_ok hk)).2.2.1
  obtain ⟨-, hroom, hopens⟩ := verify_x931.1 h
  obtain ⟨-, hroom', hopens'⟩ := verify_x931.1 h'
  have heven := X931.toNat_block_mod k.size digest
  have heven' := X931.toNat_block_mod k.size digest'
  have hsum : Bytes.toNat (X931.block k.size digest) + Bytes.toNat (X931.block k.size digest') ≠ k.n := by omega
  have hnumber := (eq_or_add_of_opensTo hopens hopens').resolve_right hsum
  have hblock : X931.block k.size digest = X931.block k.size digest' := by
    rw [← Bytes.ofNat_toNat (X931.block k.size digest), ← Bytes.ofNat_toNat (X931.block k.size digest'),
      X931.length_block hroom, X931.length_block hroom', hnumber]
  exact X931.block_injective hblock

/-- A signature by the private key with the factors `0xfffffffb` and `0xffffffef`. -/
def smallSignature : Bytes := [0x59, 0x9b, 0x5a, 0xde, 0x4e, 0xe6, 0x24, 0xf1]

/-- This signature opens to what is missing from the number of its digest to the modulus. -/
theorem x931_one_digest_complement :
    Key.ofPublic ⟨smallView.modulus, smallView.publicExponent⟩ = .ok smallPublic ∧
      smallPublic.encrypt (Bytes.toNat smallSignature) = smallPublic.n - Bytes.toNat (X931.block smallPublic.size [1]) ∧
      verify smallPublic .x931 [1] smallSignature = .ok true ∧
      ∀ digest, verify smallPublic .x931 digest smallSignature = .ok true → digest = [1] := by
  have hk : (Key.ofPublic ⟨smallView.modulus, smallView.publicExponent⟩).toOption = some smallPublic := by
    decide +kernel
  have hv : (verify smallPublic .x931 [1] smallSignature).toOption = some true := by decide +kernel
  have hone := Except.ok_of_toOption hv
  refine ⟨Except.ok_of_toOption hk, by decide +kernel, hone, ?_⟩
  intro digest h
  exact x931_one_digest (Except.ok_of_toOption hk) h hone

/-! ## The number against the modulus -/

namespace X931

/-- The modulus leaves room for the block of a digest: it has all bits of its first byte, or all but one and comes after
the header, or it starts with the header and goes on above the digest. -/
def HasRoom (k : Key) (digest : Bytes) : Prop :=
  let first := Bytes.toNat (header (k.size - digest.length - 2))
  let rest := 256 ^ (digest.length + 2)
  k.bits % 8 = 0 ∨ k.bits % 8 = 7 ∧
    (first < k.n / rest ∨ first = k.n / rest ∧ Bytes.toNat (digest ++ trailer) < k.n % rest)

/-- Numbers are compared by their first parts, and then by their rests. -/
theorem add_lt_iff {a b c n : Nat} (h : c < b) : a * b + c < n ↔ a < n / b ∨ a = n / b ∧ c < n % b := by
  have hn := Nat.div_add_mod n b
  have hmod := Nat.mod_lt n (Nat.zero_lt_of_lt h)
  generalize n / b = q at *
  generalize n % b = r at *
  obtain rfl := hn
  rw [Nat.mul_comm b q]
  rcases Nat.lt_trichotomy a q with hlt | rfl | hgt
  · have hle : (a + 1) * b ≤ q * b := Nat.mul_le_mul_right b hlt
    rw [Nat.succ_mul] at hle
    exact iff_of_true (by omega) (.inl hlt)
  · omega
  · have hle : (q + 1) * b ≤ a * b := Nat.mul_le_mul_right b hgt
    rw [Nat.succ_mul] at hle
    exact iff_of_false (by omega) (by omega)

/-- The first byte of a block places its number. -/
theorem toNat_block {size : Nat} (h : digest.length + 4 ≤ size) : 0x6b * 256 ^ (size - 1) ≤ Bytes.toNat (block size digest) ∧
    Bytes.toNat (block size digest) < 0x6c * 256 ^ (size - 1) := by
  obtain ⟨r, hr⟩ : ∃ r, block size digest = 0x6b :: r := ⟨_, rfl⟩
  have hlen : r.length = size - 1 := by
    have hblock := length_block h
    rw [hr, List.length_cons] at hblock
    omega
  have hrest := Bytes.toNat_lt r
  rw [hr, Bytes.toNat_cons, hlen]
  rw [hlen] at hrest
  show 0x6b * 256 ^ (size - 1) ≤ 0x6b * 256 ^ (size - 1) + Bytes.toNat r ∧
    0x6b * 256 ^ (size - 1) + Bytes.toNat r < 0x6c * 256 ^ (size - 1)
  omega

/-- The bits of the first byte of a modulus place it. -/
theorem modulus_bounds (h : 0 < k.n) : 2 ^ ((k.bits - 1) % 8) * 256 ^ (k.size - 1) ≤ k.n ∧
    k.n < 2 ^ ((k.bits - 1) % 8 + 1) * 256 ^ (k.size - 1) := by
  have hpos : 0 < k.bits := Modular.bitLength_pos h
  have h256 : 256 ^ (k.size - 1) = 2 ^ (8 * (k.size - 1)) := by rw [Nat.pow_mul]
  have hlow : (k.bits - 1) % 8 + 8 * (k.size - 1) = k.bits - 1 := by unfold Key.size; omega
  have hhigh : (k.bits - 1) % 8 + 1 + 8 * (k.size - 1) = k.bits := by omega
  rw [h256, ← Nat.pow_add, ← Nat.pow_add, hlow, hhigh]
  exact ⟨Modular.two_pow_bitLength_le h, Modular.lt_two_pow_bitLength k.n⟩

/-- The number of a block is below the modulus exactly where the modulus leaves room for it. -/
theorem toNat_block_lt_iff (hn : 0 < k.n) (h : digest.length + 4 ≤ k.size) :
    Bytes.toNat (block k.size digest) < k.n ↔ HasRoom k digest := by
  have hpos : 0 < k.bits := Modular.bitLength_pos hn
  obtain ⟨hle, hlt⟩ := toNat_block h
  obtain ⟨hnle, hnlt⟩ := modulus_bounds hn
  have hunit : 0 < 256 ^ (k.size - 1) := Nat.pow_pos (by decide)
  unfold HasRoom
  rcases Nat.lt_trichotomy ((k.bits - 1) % 8) 6 with hfew | hsix | hall
  · -- With six bits or fewer the modulus is below every block.
    have hpow : 2 ^ ((k.bits - 1) % 8 + 1) * 256 ^ (k.size - 1) ≤ 2 ^ 6 * 256 ^ (k.size - 1) :=
      Nat.mul_le_mul_right _ (Nat.pow_le_pow_right (by decide) hfew)
    exact iff_of_false (by omega) (by omega)
  · -- With seven bits the bytes of the modulus decide.
    have hrest : Bytes.toNat (digest ++ trailer) < 256 ^ (digest.length + 2) := by
      have hlt := Bytes.toNat_lt (digest ++ trailer)
      rwa [List.length_append] at hlt
    have hsplit : Bytes.toNat (block k.size digest) = Bytes.toNat (header (k.size - digest.length - 2)) *
        256 ^ (digest.length + 2) + Bytes.toNat (digest ++ trailer) := by
      rw [block, Bytes.toNat_append, List.length_append]
      rfl
    have hbits : k.bits % 8 = 7 := by omega
    rw [hsplit, add_lt_iff hrest]
    simp [hbits]
  · -- With all bits the modulus is above every block.
    have hseven : (k.bits - 1) % 8 = 7 := by omega
    rw [hseven] at hnle
    exact iff_of_true (by omega) (.inl (by omega))

end X931

/-! ## Signing -/

variable {s : Secret} {t t' : RandomSource} {sig : Bytes}

namespace X931

/-- The signature that a root makes: the root, or what is missing from it to the modulus if that is smaller. -/
def signatureOf (k : Key) (root : Nat) : Bytes := Bytes.ofNat k.size (min root (k.n - root))

/-- A digest is signed by what the private operation gives on its number under the drawn blinding, if that is a root of
the number. Nothing else is an error, and signing gives up for want of random bytes only. With factors that are two
different primes the number has one root, so that there is one signature, which every drawn blinding leads to. -/
structure Signs (k : Key) (s : Secret) (digest : Bytes) (m : Nat) : Prop where
  lt_modulus : m < k.n
  ok_iff : ∀ t sig t', (sign k .x931 digest).on t = (.ok sig, t') ↔
    ∃ b, (k.drawBlinding Key.maxRequests).on t = (.ok b, t') ∧ k.encrypt (Key.Secret.blindDecrypt s k b m) = m ∧
      sig = signatureOf k (Key.Secret.blindDecrypt s k b m)
  error_iff : ∀ t e t', (sign k .x931 digest).on t = (.error (.error e), t') ↔
    ∃ b, (k.drawBlinding Key.maxRequests).on t = (.ok b, t') ∧ k.encrypt (Key.Secret.blindDecrypt s k b m) ≠ m ∧
      e = Key.primitiveError
  blamesSource : (sign k .x931 digest).BlamesSource
  of_prime : s.p.Prime → s.q.Prime → s.p ≠ s.q → ∃ root, root < k.n ∧ k.encrypt root = m ∧
    ∀ t b t', (k.drawBlinding Key.maxRequests).on t = (.ok b, t') →
      (sign k .x931 digest).on t = (.ok (signatureOf k root), t')

end X931

/-- Signing a digest is the private operation on its number. -/
theorem sign_x931_eq (hm : x931Number k digest = .ok m) : sign k .x931 digest = do
    return X931.signatureOf k (← k.signRaw m) := by
  unfold sign
  simp only [hm]
  rfl

theorem sign_x931_ok_iff (hs : k.secret = some s) (hm : x931Number k digest = .ok m) (hlt : m < k.n) :
    (sign k .x931 digest).on t = (.ok sig, t') ↔ ∃ b, (k.drawBlinding Key.maxRequests).on t = (.ok b, t') ∧
      k.encrypt (Key.Secret.blindDecrypt s k b m) = m ∧
      sig = X931.signatureOf k (Key.Secret.blindDecrypt s k b m) := by
  rw [sign_x931_eq hm, Draw.bind_ok]
  constructor
  · rintro ⟨root, t₁, hroot, h⟩
    obtain ⟨-, b, hb, hpower, rfl⟩ := (Key.signRaw_iff hs).1 hroot
    cases h
    exact ⟨b, hb, hpower, rfl⟩
  · rintro ⟨b, hb, hpower, rfl⟩
    exact ⟨_, t', (Key.signRaw_iff hs).2 ⟨hlt, b, hb, hpower, rfl⟩, rfl⟩

theorem sign_x931_error_iff (hs : k.secret = some s) (hm : x931Number k digest = .ok m) (hlt : m < k.n) {e : Error} :
    (sign k .x931 digest).on t = (.error (.error e), t') ↔
      ∃ b, (k.drawBlinding Key.maxRequests).on t = (.ok b, t') ∧
        k.encrypt (Key.Secret.blindDecrypt s k b m) ≠ m ∧ e = Key.primitiveError := by
  rw [sign_x931_eq hm, Draw.bind_error, ← Key.signRaw_error hs hlt]
  constructor
  · rintro (h | ⟨root, t₁, -, h⟩)
    · exact h
    · cases h
  · exact .inl

theorem x931_signs (hk : k.IsPrivate s) (hm : x931Number k digest = .ok m) (hlt : m < k.n) :
    X931.Signs k s digest m where
  lt_modulus := hlt
  ok_iff _ _ _ := sign_x931_ok_iff hk.secret hm hlt
  error_iff _ _ _ := sign_x931_error_iff hk.secret hm hlt
  blamesSource := by
    rw [sign_x931_eq hm]
    exact (k.signRaw_blamesSource m).bind fun _ => .pure _
  of_prime hp hq hne := by
    refine ⟨Key.Secret.decrypt s k.n m, Key.decrypt_lt hk m, ?_, fun t b t' hb => ?_⟩
    · -- blinded by one, which every key can be
      exact (Key.blindDecrypt_of_prime hk hp hq hne hlt (b := ⟨1, 1⟩) rfl).2
    · obtain ⟨hroot, hpower⟩ := Key.blindDecrypt_of_prime hk hp hq hne hlt (Key.drawBlinding_fits hb)
      exact (sign_x931_ok_iff hk.secret hm hlt).2 ⟨b, hb, hroot.symm ▸ hpower, hroot.symm ▸ rfl⟩

/-- A number that is not below the modulus is never signed. -/
theorem sign_x931_of_le (hs : k.secret = some s) (hm : x931Number k digest = .ok m) (hle : k.n ≤ m) (t : RandomSource) :
    (sign k .x931 digest).on t = (.error (.error Key.primitiveError), t) := by
  rw [sign_x931_eq hm, Draw.on_bind, Key.signRaw_of_le hs hle]

/-- A modulus of 1024 bits or more has bytes for the block of a SHA-1 digest. -/
theorem x931Number_sha1 (hbits : 1024 ≤ k.bits) (hd : digest.length = Digest.sha1.outputLength) :
    digest.length + 4 ≤ k.size ∧ x931Number k digest = .ok (Bytes.toNat (X931.block k.size digest)) := by
  have hlen : digest.length = 20 := hd
  have hroom : digest.length + 4 ≤ k.size := by
    unfold Key.size
    omega
  exact ⟨hroom, X931.number_iff.2 ⟨hroom, rfl⟩⟩

/-- With an accepted private key of 1024 bits or more, a SHA-1 digest always has a number. It is signed exactly if the
modulus leaves room for the block: all bits of the first byte, or all but one and bytes above those of the block.
Otherwise the number is not below the modulus, and signing fails whatever the random source gives. -/
theorem x931_signs_iff {v : RsaPrivateKey} (hk : Key.ofPrivate v = .ok k) (hbits : 1024 ≤ k.bits)
    (hd : digest.length = Digest.sha1.outputLength) :
    ∃ s m, k.secret = some s ∧ x931Number k digest = .ok m ∧ (X931.Signs k s digest m ↔ X931.HasRoom k digest) ∧
      (¬ X931.HasRoom k digest →
        k.n ≤ m ∧ ∀ t, (sign k .x931 digest).on t = (.error (.error Key.primitiveError), t)) := by
  obtain ⟨s, hs⟩ := Key.private_ok hk
  obtain ⟨hroom, hm⟩ := x931Number_sha1 hbits hd
  have hlt := X931.toNat_block_lt_iff (Key.n_pos hs.valid) hroom
  refine ⟨s, _, hs.secret, hm, ⟨?_, ?_⟩, ?_⟩
  · intro h
    exact hlt.1 h.lt_modulus
  · intro h
    exact x931_signs hs hm (hlt.2 h)
  · intro h
    have hle := Nat.not_lt.1 (mt hlt.1 h)
    exact ⟨hle, sign_x931_of_le hs.secret hm hle⟩

/-- A private key view with the factors `p` and `q` and the public exponent 65537. -/
def viewOf (p q : Nat) : RsaPrivateKey :=
  let size := Key.size ⟨p * q, 0x10001, none⟩
  { modulus := Bytes.ofNat size (p * q)
    publicExponent := [1, 0, 1]
    privateExponent := Bytes.ofNat size ((Modular.inverse? ((p - 1) * (q - 1)) 0x10001).getD 0)
    prime1 := some (Bytes.ofNat size p)
    prime2 := some (Bytes.ofNat size q) }

/-- Two Mersenne primes give a modulus of 1128 bits, 141 full bytes, which signs. -/
theorem x931_signs_iff_full : ∃ k, Key.ofPrivate (viewOf (2 ^ 521 - 1) (2 ^ 607 - 1)) = .ok k ∧ 1024 ≤ k.bits ∧
    (Digest.sha1.hash []).length = Digest.sha1.outputLength ∧ ∃ s m, X931.Signs k s (Digest.sha1.hash []) m := by
  have hview : ((Key.ofPrivate (viewOf (2 ^ 521 - 1) (2 ^ 607 - 1))).toOption.map (·.bits)) = some 1128 := by
    decide +kernel
  obtain ⟨k, hk, hbits⟩ := Option.map_eq_some_iff.1 hview
  have hle : 1024 ≤ k.bits := by
    rw [hbits]
    decide
  have hlen := Digest.length_hash .sha1 []
  obtain ⟨s, m, -, -, hsigns, -⟩ := x931_signs_iff (Except.ok_of_toOption hk) hle hlen
  refine ⟨k, Except.ok_of_toOption hk, hle, hlen, s, m, hsigns.2 (.inl ?_)⟩
  rw [hbits]

/-- A modulus of 1028 bits leaves four bits of its first byte, which no block fits into. -/
theorem x931_out_of_range : ∃ k, Key.ofPrivate (viewOf (2 ^ 521 - 1) (2 ^ 507 - 265)) = .ok k ∧ 1024 ≤ k.bits ∧
    (Digest.sha1.hash []).length = Digest.sha1.outputLength ∧
    ∃ m, x931Number k (Digest.sha1.hash []) = .ok m ∧ k.n ≤ m ∧
      ∀ t, (sign k .x931 (Digest.sha1.hash [])).on t = (.error (.error Key.primitiveError), t) := by
  have hview : ((Key.ofPrivate (viewOf (2 ^ 521 - 1) (2 ^ 507 - 265))).toOption.map (·.bits)) = some 1028 := by
    decide +kernel
  obtain ⟨k, hk, hbits⟩ := Option.map_eq_some_iff.1 hview
  have hle : 1024 ≤ k.bits := by
    rw [hbits]
    decide
  have hlen := Digest.length_hash .sha1 []
  obtain ⟨s, hs⟩ := Key.private_ok (Except.ok_of_toOption hk)
  obtain ⟨hroom, hm⟩ := x931Number_sha1 hle hlen
  have hfull : ¬ X931.HasRoom k (Digest.sha1.hash []) := by
    rintro (h | ⟨h, -⟩)
    · omega
    · omega
  have hn := Nat.not_lt.1 (mt (X931.toNat_block_lt_iff (Key.n_pos hs.valid) hroom).1 hfull)
  exact ⟨k, Except.ok_of_toOption hk, hle, hlen, _, hm, hn, sign_x931_of_le hs.secret hm hn⟩

end SoftToken.Rsa
