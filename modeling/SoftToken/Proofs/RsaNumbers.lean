import SoftToken.Proofs.Iso9796Steps
import SoftToken.Proofs.PssSteps
import SoftToken.Proofs.RsaEncryption
/-!
# The numbers that RSA signs

A signature is the private operation on the number that stands for the data (`sign_eq`). In all schemes
but X9.31 that number is below the modulus (`Scheme.number_lt`): the encodings keep the highest bit of the
modulus, or its highest byte, free. X9.31 fills the block, so that its number may be too large.
-/

namespace SoftToken.Rsa

/-- The number that stands for the data. -/
def Scheme.number (k : Key) (s : Scheme) (data : Bytes) : Draw Nat := do
  match s with
  | .pkcs1 digest =>
    match signatureBlock? k.size (← pkcs1Data digest data) with
    | some b => return Bytes.toNat b
    | none => throw (.error (.bare .dataLenRange))
  | .pss p =>
    if data.length ≠ p.hash.outputLength then throw (.error (.bare .dataLenRange))
    else return Bytes.toNat (← p.drawEncoding k.bits data)
  | .x931 => x931Number k data
  | .iso9796 => iso9796Number k data

/-- The signature that a root of the number gives. -/
def Scheme.signature (k : Key) (s : Scheme) (root : Nat) : Bytes :=
  Bytes.ofNat k.size (match s with
    | .x931 => min root (k.n - root)
    | _ => root)

theorem sign_eq (k : Key) (s : Scheme) (data : Bytes) : sign k s data = do
    let m ← s.number k data
    return s.signature k (← k.signRaw m) := by
  unfold sign Scheme.number
  cases s with
  | pkcs1 digest =>
    rw [bind_assoc]
    simp only
    refine congrArg _ (funext fun info => ?_)
    cases signatureBlock? k.size info <;> rfl
  | pss p =>
    simp only
    split
    · rfl
    · rw [bind_assoc]
      rfl
  | x931 => rfl
  | iso9796 => rfl

/-! ## Numbers below the modulus -/

variable {k : Key} {data : Bytes} {t t' : RandomSource} {m : Nat}

/-- A block whose first byte has `b` bits. -/
theorem toNat_cons_lt {x : UInt8} {r : Bytes} {b : Nat} (h : x.toNat < 2 ^ b) :
    Bytes.toNat (x :: r) < 2 ^ (b + 8 * r.length) := by
  have h256 : 2 ^ (8 * r.length) = 256 ^ r.length := by rw [Nat.pow_mul]
  rw [Bytes.toNat_cons, Nat.pow_add, h256]
  calc x.toNat * 256 ^ r.length + Bytes.toNat r < x.toNat * 256 ^ r.length + 256 ^ r.length :=
        Nat.add_lt_add_left (Bytes.toNat_lt r) _
    _ = (x.toNat + 1) * 256 ^ r.length := by rw [Nat.succ_mul]
    _ ≤ 2 ^ b * 256 ^ r.length := Nat.mul_le_mul_right _ h

theorem le_toNat_cons {x : UInt8} {r : Bytes} {b : Nat} (h : 2 ^ b ≤ x.toNat) :
    2 ^ (b + 8 * r.length) ≤ Bytes.toNat (x :: r) := by
  have h256 : 2 ^ (8 * r.length) = 256 ^ r.length := by rw [Nat.pow_mul]
  rw [Bytes.toNat_cons, Nat.pow_add, h256]
  exact Nat.le_add_right_of_le (Nat.mul_le_mul_right _ h)

theorem toNat_and_le (x y : UInt8) : (x &&& y).toNat ≤ y.toNat := by
  rw [UInt8.toNat_and]
  exact Nat.and_le_right

theorem number_lt_pkcs1 (h : 0 < k.n) {digest : Option Digest}
    (hm : ((Scheme.pkcs1 digest).number k data).on t = (.ok m, t')) : m < k.n := by
  obtain ⟨info, -, hm⟩ := Draw.bind_lift_ok.1 hm
  split at hm
  · next b hb =>
    cases hm
    have hlen := length_signatureBlock hb
    unfold signatureBlock? at hb
    split at hb
    · cases hb
      exact toNat_block_lt h hlen
    · cases hb
  · cases hm

/-- An encoding is a number with one bit fewer than the modulus. -/
theorem Pss.toNat_encode_lt {p : Pss} {bits : Nat} {salt : Bytes} (hf : p.fits bits = true)
    (hs : salt.length = p.saltLength) (digest : Bytes) : Bytes.toNat (p.encode bits digest salt) < 2 ^ (bits - 1) := by
  have hlen := length_encode hf hs digest
  have hfit := fits_iff.1 hf
  have htop : (topMask bits).toNat < 2 ^ (8 - (8 * encodedLength bits - (bits - 1))) := by
    have hs : 8 * encodedLength bits - (bits - 1) < 8 := by unfold encodedLength; omega
    have h : ∀ s < 8, ((0xff : UInt8) >>> UInt8.ofNat s).toNat < 2 ^ (8 - s) := by decide
    exact h _ hs
  have hdb := length_dataBlock hf hs
  unfold encode at hlen ⊢
  simp only at hlen ⊢
  cases hx : Bytes.xor (Bytes.zeros (encodedLength bits - p.hash.outputLength - 1 - salt.length - 1) ++ 1 :: salt)
      (CounterStream.mask p.mask (p.bindingDigest digest salt) (encodedLength bits - p.hash.outputLength - 1)) with
  | nil =>
    have h0 := congrArg List.length hx
    simp only [Bytes.length_xor, hdb, CounterStream.length_mask, Nat.min_self, List.length_nil] at h0
    omega
  | cons x r =>
    rw [hx] at hlen
    have hbits : 8 - (8 * encodedLength bits - (bits - 1)) +
        8 * (r ++ (p.bindingDigest digest salt ++ [0xbc])).length = bits - 1 := by
      simp only [clearTop, List.length_append, List.length_cons, List.length_nil] at hlen ⊢
      unfold encodedLength at hlen hfit ⊢
      omega
    rw [← hbits]
    show Bytes.toNat ((x &&& topMask bits) :: r ++ p.bindingDigest digest salt ++ [0xbc]) < _
    rw [List.cons_append, List.cons_append, List.append_assoc]
    exact toNat_cons_lt (Nat.lt_of_le_of_lt (toNat_and_le _ _) htop)

theorem number_lt_pss (h : 0 < k.n) {p : Pss} (hm : ((Scheme.pss p).number k data).on t = (.ok m, t')) :
    m < k.n := by
  unfold Scheme.number at hm
  simp only at hm
  split at hm
  · cases hm
  obtain ⟨em, t₁, hem, hm⟩ := Draw.bind_ok.1 hm
  obtain ⟨-, hfits, salt, hsalt, rfl⟩ := Pss.drawEncoding_ok.1 hem
  cases hm
  have hlt := Pss.toNat_encode_lt hfits (Draw.length_of_request hsalt) data
  exact Nat.lt_of_lt_of_le hlt (Modular.two_pow_bitLength_le h)

namespace Iso9796

/-- The first byte of a block whose modulus leaves `b` bits of it, between one and seven, and that has the highest of
them set. -/
theorem toNat_first {b : Nat} (h : b < 8) (h0 : b ≠ 0) (x : UInt8) :
    2 ^ (b - 1) ≤ ((x &&& (0xff >>> UInt8.ofNat (8 - b))) ||| (0x80 >>> UInt8.ofNat (8 - b))).toNat ∧
      ((x &&& (0xff >>> UInt8.ofNat (8 - b))) ||| (0x80 >>> UInt8.ofNat (8 - b))).toNat < 2 ^ b := by
  have hmasks : ∀ b < 8, b ≠ 0 → ((0xff : UInt8) >>> UInt8.ofNat (8 - b)).toNat < 2 ^ b ∧
      ((0x80 : UInt8) >>> UInt8.ofNat (8 - b)).toNat < 2 ^ b ∧
      2 ^ (b - 1) ≤ ((0x80 : UInt8) >>> UInt8.ofNat (8 - b)).toNat := by decide
  obtain ⟨hmask, hbit, hset⟩ := hmasks b h h0
  rw [UInt8.toNat_or]
  exact ⟨Nat.le_trans hset Nat.right_le_or,
    Nat.or_lt_two_pow (Nat.lt_of_le_of_lt (toNat_and_le _ _) hmask) hbit⟩

/-- The top of a block is a byte whose highest bit is the highest one below that of the modulus. -/
theorem exists_top {bits : Nat} (h : 2 ≤ bits) {block : Bytes} (hl : block.length = (bits + 7) / 8) :
    ∃ x r, top bits block = x :: r ∧ r.length = (bits - 2) / 8 ∧ 2 ^ ((bits - 2) % 8) ≤ x.toNat ∧
      x.toNat < 2 ^ ((bits - 2) % 8 + 1) := by
  obtain ⟨y, s, rfl⟩ : ∃ y s, block = y :: s := List.exists_cons_of_length_pos (by omega)
  rw [List.length_cons] at hl
  unfold top
  simp only
  split
  · next hu =>
    have h0 := unused_eq_eight_iff.1 hu
    have h7 : (bits - 2) % 8 = 7 := by omega
    obtain ⟨z, r, rfl⟩ : ∃ z r, s = z :: r := List.exists_cons_of_length_pos (by omega)
    rw [List.length_cons] at hl
    rw [h7]
    refine ⟨z ||| 0x80, r, rfl, by omega, ?_, UInt8.toNat_lt _⟩
    rw [UInt8.toNat_or]
    exact Nat.right_le_or
  · next hu =>
    have h0 : (bits - 1) % 8 ≠ 0 := fun h0 => hu (unused_eq_eight_iff.2 h0)
    have hbit : (bits - 2) % 8 = (bits - 1) % 8 - 1 := by omega
    have hnext : (bits - 1) % 8 - 1 + 1 = (bits - 1) % 8 := by omega
    obtain ⟨hle, hlt⟩ := toNat_first (Nat.mod_lt (bits - 1) (by decide)) h0 y
    rw [hbit, hnext]
    exact ⟨_, s, rfl, by omega, hle, hlt⟩

/-- A finished block is a number with one bit fewer than the modulus. -/
theorem toNat_finish {bits : Nat} (h : 2 ≤ bits) {block : Bytes} (hl : block.length = (bits + 7) / 8) :
    2 ^ (bits - 2) ≤ Bytes.toNat (finish bits block) ∧ Bytes.toNat (finish bits block) < 2 ^ (bits - 1) := by
  have hmarked : (block.modify (block.length - 1) fun x => (x <<< 4) ||| 0x06).length = (bits + 7) / 8 := by
    rw [List.length_modify, hl]
  obtain ⟨x, r, htop, hr, hle, hlt⟩ := exists_top h hmarked
  have hlow : (bits - 2) % 8 + 8 * r.length = bits - 2 := by omega
  have hhigh : (bits - 2) % 8 + 1 + 8 * r.length = bits - 1 := by omega
  rw [finish_eq, htop, ← hlow, ← hhigh]
  exact ⟨le_toNat_cons hle, toNat_cons_lt hlt⟩

/-- The number of a block. -/
theorem toNat_block {bits : Nat} (h : 2 ≤ bits) {message b : Bytes} (hb : block? bits message = some b) :
    2 ^ (bits - 2) ≤ Bytes.toNat b ∧ Bytes.toNat b < 2 ^ (bits - 1) := by
  unfold block? at hb
  simp only at hb
  split at hb
  · cases hb
    exact toNat_finish h (by rw [List.length_modify, length_fit])
  · cases hb

end Iso9796

theorem number_lt_iso9796 (h : 0 < k.n) (hm : (Scheme.iso9796.number k data).on t = (.ok m, t')) : m < k.n := by
  obtain ⟨hm, -⟩ := Prod.mk.injEq .. ▸ hm
  replace hm : iso9796Number k data = .ok m := hm
  obtain ⟨hpos, hmax, b, hb, rfl⟩ := iso9796Number_ok.1 hm
  have hbits : 2 ≤ k.bits := by
    unfold Iso9796.maxLength at hmax
    omega
  exact Nat.lt_of_lt_of_le (Iso9796.toNat_block hbits hb).2 (Modular.two_pow_bitLength_le h)

/-- Only X9.31 may ask for the root of a number that is not below the modulus. -/
theorem Scheme.number_lt {s : Scheme} (h : 0 < k.n) (hs : s ≠ .x931) (hm : (s.number k data).on t = (.ok m, t')) :
    m < k.n := by
  cases s with
  | pkcs1 digest => exact number_lt_pkcs1 h hm
  | pss p => exact number_lt_pss h hm
  | x931 => exact absurd rfl hs
  | iso9796 => exact number_lt_iso9796 h hm

end SoftToken.Rsa
