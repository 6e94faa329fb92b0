import SoftToken.Digest
/-!
# The length of a digest

`Digest.length_hash`: a digest has the length its algorithm names, whatever the message. No algorithm names zero.
-/

namespace SoftToken

namespace Words

@[simp] theorem size_pushBE32 (b : ByteArray) (w : UInt32) : (pushBE32 b w).size = b.size + 4 := by
  simp [pushBE32]

@[simp] theorem size_pushLE32 (b : ByteArray) (w : UInt32) : (pushLE32 b w).size = b.size + 4 := by
  simp [pushLE32]

@[simp] theorem size_pushBE64 (b : ByteArray) (w : UInt64) : (pushBE64 b w).size = b.size + 8 := by
  simp [pushBE64]

@[simp] theorem size_pushLE64 (b : ByteArray) (w : UInt64) : (pushLE64 b w).size = b.size + 8 := by
  simp [pushLE64]

/-- Words pushed one after the other each add their width. -/
theorem size_foldl {α : Type} {push : ByteArray → α → ByteArray} {width : Nat}
    (h : ∀ b w, (push b w).size = b.size + width) (ws : List α) (b : ByteArray) :
    (ws.foldl push b).size = b.size + width * ws.length := by
  induction ws generalizing b with
  | nil => simp
  | cons w ws ih => rw [List.foldl_cons, ih, h, List.length_cons, Nat.mul_succ]; omega

end Words

open Words

theorem Sha256.size_bytes (s : Sha256.State) : s.bytes.size = 32 := size_foldl size_pushBE32 _ _

theorem Sha512.size_bytes (s : Sha512.State) : s.bytes.size = 64 := size_foldl size_pushBE64 _ _

/-- The first bytes of a string that has as many. -/
theorem Words.size_take {b : ByteArray} {size len : Nat} (hb : b.size = size) (hl : len ≤ size) :
    (b.extract 0 len).size = len := by
  rw [ByteArray.size_extract, hb, Nat.min_eq_left hl, Nat.sub_zero]

/-! ## MD2 -/

theorem Md2.length_foldl_cons {σ : Type} (f : σ → UInt8 → σ) (out : σ → UInt8 → UInt8) (l : List UInt8)
    (acc : σ × List UInt8) :
    (l.foldl (fun acc x => (f acc.1 x, out acc.1 x :: acc.2)) acc).2.length = l.length + acc.2.length := by
  induction l generalizing acc with
  | nil => simp
  | cons x r ih => rw [List.foldl_cons, ih]; simp only [List.length_cons]; omega

theorem Md2.length_pass (t : UInt8) (state : List UInt8) : (Md2.pass t state).2.length = state.length := by
  unfold Md2.pass
  rw [List.length_reverse]
  exact Md2.length_foldl_cons (fun y x => x ^^^ Md2.substitute y) (fun y x => x ^^^ Md2.substitute y) state (t, [])

theorem Md2.length_foldl_pass (js : List Nat) (acc : UInt8 × List UInt8) :
    (js.foldl (fun acc j => let r := Md2.pass acc.1 acc.2; (r.1 + UInt8.ofNat j, r.2)) acc).2.length =
      acc.2.length := by
  induction js generalizing acc with
  | nil => rfl
  | cons j js ih => rw [List.foldl_cons, ih]; exact Md2.length_pass _ _

theorem Md2.length_passes (state : List UInt8) : (Md2.passes state).length = state.length :=
  Md2.length_foldl_pass (List.range 18) (0, state)

theorem Md2.length_compress {h : List UInt8} (hl : h.length = 16) (block : List UInt8) :
    (Md2.compress h block).length = 16 := by
  unfold Md2.compress
  rw [List.length_take, Md2.length_passes, List.length_append, List.length_append, hl]
  omega

theorem Md2.length_foldl_compress (bs : List (List UInt8)) {h : List UInt8} (hl : h.length = 16) :
    (bs.foldl Md2.compress h).length = 16 := by
  induction bs generalizing h with
  | nil => exact hl
  | cons b bs ih => rw [List.foldl_cons]; exact ih (Md2.length_compress hl b)

theorem Md2.length_md2 (m : List UInt8) : (Md2.md2 m).length = 16 := by
  unfold Md2.md2
  exact Md2.length_foldl_compress _ List.length_replicate

/-! ## GOST R 34.11-94 -/

theorem Gost94.size_build (f : Nat → UInt8) : (Gost94.build f).size = 32 := by
  simp [Gost94.build, ByteArray.size]

theorem Gost94.size_stirTimes {n : Nat} (hn : 0 < n) (y : ByteArray) : (Gost94.stirTimes n y).size = 32 := by
  cases n with
  | zero => cases hn
  | succ n => exact Gost94.size_build _

/-! ## Keccak and BLAKE2b -/

theorem Keccak.size_bytes (s : Keccak.Lanes) : s.bytes.size = 200 := size_foldl size_pushLE64 _ _

theorem Keccak.size_squeezeMore {rate : Nat} (hr : rate ≤ 200) (n : Nat) (s : Keccak.Lanes) (out : ByteArray) :
    (Keccak.squeezeMore rate n s out).size = out.size + n * rate := by
  induction n generalizing s out with
  | zero => simp [Keccak.squeezeMore]
  | succ n ih =>
    rw [Keccak.squeezeMore, ih, ByteArray.size_append, ByteArray.size_extract, Keccak.size_bytes, Nat.succ_mul]
    omega

/-- A sponge gives as many bytes as are asked for. -/
theorem Keccak.size_sponge {rate : Nat} (h0 : 0 < rate) (hr : rate ≤ 200) (final : UInt8) (m : ByteArray) (len : Nat) :
    (Keccak.sponge rate final m len).size = len := by
  have hlt := Nat.lt_mul_div_succ (len - 1) h0
  rw [Nat.mul_succ, Nat.mul_comm] at hlt
  unfold Keccak.sponge Keccak.squeeze
  rw [ByteArray.size_extract, Keccak.size_squeezeMore hr, ByteArray.size_extract, Keccak.size_bytes]
  omega

theorem Blake2b.size_compress (h : Array UInt64) (b : ByteArray) (pos count : Nat) (last : Bool) :
    (Blake2b.compress h b pos count last).size = 8 := by
  simp [Blake2b.compress]

theorem Blake2b.size_blake2b {len : Nat} (hl : len ≤ 64) (m : ByteArray) : (Blake2b.blake2b len m).size = len := by
  unfold Blake2b.blake2b Blake2b.absorbAll
  rw [ByteArray.size_extract, ← Array.foldl_toList, size_foldl size_pushLE64, Array.length_toList,
    Blake2b.size_compress]
  simp
  omega

/-! ## All digests -/

theorem Digest.size_hashPacked (d : Digest) (m : ByteArray) : (d.hashPacked m).size = d.outputLength := by
  cases d with
  | md2 => exact Md2.length_md2 (Bytes.ofArray m)
  | md5 => exact size_foldl size_pushLE32 _ _
  | sha1 => exact size_foldl size_pushBE32 _ _
  | ripemd128 => exact size_foldl size_pushLE32 _ _
  | ripemd160 => exact size_foldl size_pushLE32 _ _
  | sha224 => exact size_take (Sha256.size_bytes _) (by decide)
  | sha256 => exact size_take (Sha256.size_bytes _) (by decide)
  | sha384 => exact size_take (Sha512.size_bytes _) (by decide)
  | sha512 => exact size_take (Sha512.size_bytes _) (by decide)
  | sha512_224 => exact size_take (Sha512.size_bytes _) (by decide)
  | sha512_256 => exact size_take (Sha512.size_bytes _) (by decide)
  | sha3_224 => exact Keccak.size_sponge (by decide) (by decide) _ _ _
  | sha3_256 => exact Keccak.size_sponge (by decide) (by decide) _ _ _
  | sha3_384 => exact Keccak.size_sponge (by decide) (by decide) _ _ _
  | sha3_512 => exact Keccak.size_sponge (by decide) (by decide) _ _ _
  | shake128 => exact Keccak.size_sponge (by decide) (by decide) _ _ _
  | shake256 => exact Keccak.size_sponge (by decide) (by decide) _ _ _
  | blake2b160 => exact Blake2b.size_blake2b (by decide) m
  | blake2b256 => exact Blake2b.size_blake2b (by decide) m
  | blake2b384 => exact Blake2b.size_blake2b (by decide) m
  | blake2b512 => exact Blake2b.size_blake2b (by decide) m
  | gost94 => exact Gost94.size_stirTimes (by decide) _

/-- A digest has the length its algorithm names. -/
@[simp] theorem Digest.length_hash (d : Digest) (m : Bytes) : (d.hash m).length = d.outputLength :=
  d.size_hashPacked _

theorem Digest.outputLength_pos (d : Digest) : 0 < d.outputLength := by cases d <;> decide

theorem Digest.outputLength_le (d : Digest) : d.outputLength ≤ 64 := by cases d <;> decide

end SoftToken
