import SoftToken.Proofs.OaepSteps
import SoftToken.Proofs.RsaKey
import SoftToken.Rsa.Cipher
/-!
# RSA encryption is taken back

`decrypt_encrypt`: data encrypted with a public key is recovered with a private key of the same numbers
whose private operation takes back the public one. Both paddings give a block whose first byte is zero,
so that the number that is encrypted is below the modulus.
-/

namespace SoftToken.Rsa

/-! ## Filling -/

theorem ne_zero_of_drawNonZero {fuel : Nat} {t t' : RandomSource} {x : UInt8}
    (h : (drawNonZero fuel).on t = (.ok x, t')) : x ≠ 0 := by
  induction fuel generalizing t with
  | zero => cases h
  | succ fuel ih =>
    obtain ⟨b, t₁, -, h⟩ := Draw.bind_ok.1 h
    split at h
    · split at h
      · exact ih h
      · next hx => cases h; exact hx
    · cases h

/-- One byte of the filling: what stands there, or a drawn byte in the place of a zero. -/
theorem replaceZeros_cons {x : UInt8} {r filling : Bytes} {t t' : RandomSource}
    (h : (replaceZeros (x :: r)).on t = (.ok filling, t')) :
    ∃ y s t₁, y ≠ 0 ∧ (replaceZeros r).on t₁ = (.ok s, t') ∧ filling = y :: s := by
  unfold replaceZeros at h
  by_cases hx : x = 0
  · rw [if_pos hx] at h
    obtain ⟨y, t₁, hy, h⟩ := Draw.bind_ok.1 h
    obtain ⟨s, t₂, hs, h⟩ := Draw.bind_ok.1 h
    cases h
    exact ⟨y, s, t₁, ne_zero_of_drawNonZero hy, hs, rfl⟩
  · rw [if_neg hx] at h
    obtain ⟨y, t₁, hy, h⟩ := Draw.bind_ok.1 h
    obtain ⟨s, t₂, hs, h⟩ := Draw.bind_ok.1 h
    cases h
    cases hy
    exact ⟨x, s, t, hx, hs, rfl⟩

/-- The filling has no zeros and keeps its length. -/
theorem replaceZeros_ok {b filling : Bytes} {t t' : RandomSource}
    (h : (replaceZeros b).on t = (.ok filling, t')) : filling.length = b.length ∧ ∀ x ∈ filling, x ≠ 0 := by
  induction b generalizing filling t with
  | nil => cases h; exact ⟨rfl, nofun⟩
  | cons x r ih =>
    obtain ⟨y, s, t₁, hy, hs, rfl⟩ := replaceZeros_cons h
    obtain ⟨hl, hn⟩ := ih hs
    refine ⟨by rw [List.length_cons, List.length_cons, hl], fun z hz => ?_⟩
    rcases List.mem_cons.1 hz with rfl | hz
    · exact hy
    · exact hn z hz

/-! ## Blocks as numbers -/

/-- A block of the size of the modulus that starts with a zero is a number below the modulus. -/
theorem toNat_block_lt {k : Key} (h : 0 < k.n) {r : Bytes} (hl : (0 :: r : Bytes).length = k.size) :
    Bytes.toNat (0 :: r) < k.n := by
  have hr : r.length = k.size - 1 := by rw [← hl]; rfl
  have hlt := Bytes.toNat_lt r
  rw [hr] at hlt
  rw [Bytes.toNat_cons]
  have hle := Key.pow_size_le h
  simp only [UInt8.toNat_zero, Nat.zero_mul, Nat.zero_add]
  omega

variable {k k' : Key}

/-- The private key takes back what the public one encrypts. -/
def Key.Inverts (k' k : Key) : Prop := ∀ m < k.n, k'.decrypt (k.encrypt m) = .ok m

/-- An encrypted block is recovered. -/
theorem recover_block (h : 0 < k.n) (hi : k'.Inverts k) {b r : Bytes} (hb : b = 0 :: r) (hl : b.length = k.size) :
    k'.decrypt (Bytes.toNat (Bytes.ofNat k.size (k.encrypt (Bytes.toNat b)))) = .ok (Bytes.toNat b) := by
  have hlt : Bytes.toNat b < k.n := by subst hb; exact toNat_block_lt h hl
  rw [Bytes.toNat_ofNat (Nat.lt_trans (Key.encrypt_lt h _) k.n_lt), hi _ hlt]

/-! ## Round trip -/

/-- The reader of a padding. -/
def Padding.read? (p : Padding) (size : Nat) (em : Bytes) : Option Bytes :=
  match p with
  | .pkcs1 => if size < 11 then none else openEncryptionBlock? em
  | .oaep o => o.decode? em

/-- An encrypted block is decrypted to what its padding holds. -/
theorem decrypt_block (hv : Key.validPublic k.n k.e = true) (hn : k'.n = k.n) (hi : k'.Inverts k) (p : Padding)
    {b r data : Bytes} (hb : b = 0 :: r) (hl : b.length = k.size) (hr : p.read? k.size b = some data) :
    decrypt k' p (Bytes.ofNat k.size (k.encrypt (Bytes.toNat b))) = .ok data := by
  have hsize : k'.size = k.size := by simp only [Key.size, Key.bits, hn]
  have hlen : ¬ k.size < (Bytes.ofNat k.size (k.encrypt (Bytes.toNat b))).length := by
    rw [Bytes.length_ofNat]; omega
  have hback : Bytes.ofNat k.size (Bytes.toNat b) = b := by rw [← hl, Bytes.ofNat_toNat]
  unfold decrypt
  rw [hsize, if_neg hlen, recover_block (Key.n_pos hv) hi hb hl]
  cases p with
  | pkcs1 =>
    replace hr : (if k.size < 11 then none else openEncryptionBlock? b) = some data := hr
    simp only [hback, hr]
  | oaep o =>
    replace hr : o.decode? b = some data := hr
    simp only [hback, hr]

variable {data c : Bytes} {t t' : RandomSource}

theorem decrypt_encrypt_pkcs1 (hv : Key.validPublic k.n k.e = true) (hn : k'.n = k.n) (hi : k'.Inverts k)
    (h : (encrypt k .pkcs1 data).on t = (.ok c, t')) : decrypt k' .pkcs1 c = .ok data := by
  unfold encrypt at h
  split at h
  case isTrue => cases h
  case isFalse =>
  simp only at h
  split at h
  case isTrue => cases h
  case isFalse hfit =>
    obtain ⟨b, t₁, hb, h⟩ := Draw.bind_ok.1 h
    obtain ⟨filling, t₂, hf, h⟩ := Draw.bind_ok.1 h
    cases h
    obtain ⟨hl, hnz⟩ := replaceZeros_ok hf
    rw [Draw.length_of_request hb] at hl
    have hblock : (encryptionBlock filling data).length = k.size := by
      simp only [encryptionBlock, List.length_append, List.length_cons, List.length_nil, hl]
      omega
    refine decrypt_block hv hn hi .pkcs1 (r := 2 :: (filling ++ 0 :: data)) rfl hblock ?_
    show (if k.size < 11 then none else openEncryptionBlock? (encryptionBlock filling data)) = some data
    rw [if_neg (by omega), openEncryptionBlock_encryptionBlock hnz (by omega)]

theorem decrypt_encrypt_oaep (hv : Key.validPublic k.n k.e = true) (hn : k'.n = k.n) (hi : k'.Inverts k) {o : Oaep}
    (hne : 0 < data.length) (h : (encrypt k (.oaep o) data).on t = (.ok c, t')) :
    decrypt k' (.oaep o) c = .ok data := by
  unfold encrypt at h
  split at h
  case isTrue => cases h
  case isFalse hmax =>
    -- The room for data is cut off at zero, so that only data that is not empty is known to fit.
    have hfit : data.length + 2 * o.hash.outputLength + 2 ≤ k.size := by
      simp only [Padding.maxData, Padding.overhead] at hmax
      omega
    obtain ⟨em, t₁, hem, h⟩ := Draw.bind_ok.1 h
    cases h
    obtain ⟨seed, hseed, rfl⟩ := (Oaep.drawEncoding_ok hfit).1 hem
    have hs := Draw.length_of_request hseed
    exact decrypt_block hv hn hi (.oaep o) rfl (Oaep.length_encode hfit hs) (Oaep.decode_encode hfit hs)

/-- Encrypted data that is not empty is recovered. -/
theorem decrypt_encrypt (hv : Key.validPublic k.n k.e = true) (hn : k'.n = k.n) (hi : k'.Inverts k) {p : Padding}
    (hne : 0 < data.length) (h : (encrypt k p data).on t = (.ok c, t')) : decrypt k' p c = .ok data := by
  cases p with
  | pkcs1 => exact decrypt_encrypt_pkcs1 hv hn hi h
  | oaep o => exact decrypt_encrypt_oaep hv hn hi hne h

end SoftToken.Rsa
