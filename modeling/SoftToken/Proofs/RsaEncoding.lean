import SoftToken.Proofs.ByteNumbers
import SoftToken.Proofs.Mask
import SoftToken.Rsa.Encoding
/-!
# Encodings for RSA are read back

Each encoder fills a block of the length it is given, and its reader accepts the block and gives back
what went in: `Pss.check_encode`, `Oaep.decode_encode` and `openEncryptionBlock_encryptionBlock`.
-/

namespace SoftToken.Rsa

/-! ## PKCS #1 version 1.5 -/

theorem length_signatureBlock {size : Nat} {data b : Bytes} (h : signatureBlock? size data = some b) :
    b.length = size := by
  unfold signatureBlock? at h
  split at h
  · cases h
    simp
    omega
  · cases h

theorem openEncryptionBlock_encryptionBlock {filling : Bytes} (h0 : ∀ x ∈ filling, x ≠ 0)
    (h8 : 8 ≤ filling.length) (data : Bytes) :
    openEncryptionBlock? (encryptionBlock filling data) = some data := by
  have hne : ∀ x ∈ filling, (x != 0) = true := fun x hx => bne_iff_ne.2 (h0 x hx)
  have htake : (filling ++ 0 :: data).takeWhile (· != 0) = filling := by
    rw [List.takeWhile_append_of_pos hne]; simp
  have hdrop : (filling ++ 0 :: data).dropWhile (· != 0) = 0 :: data := by
    rw [List.dropWhile_append_of_pos hne]; simp
  show openEncryptionBlock? (0 :: 2 :: (filling ++ 0 :: data)) = some data
  simp only [openEncryptionBlock?, htake, hdrop, if_pos h8]

/-! ## PSS -/

namespace Pss

theorem length_clearTop (bits : Nat) (b : Bytes) : (clearTop bits b).length = b.length := by
  cases b <;> rfl

theorem clearTop_clearTop (bits : Nat) (b : Bytes) : clearTop bits (clearTop bits b) = clearTop bits b := by
  cases b with
  | nil => rfl
  | cons x r => simp only [clearTop, UInt8.and_assoc, UInt8.and_self]

theorem and_xor_and (x y t : UInt8) : (((x ^^^ y) &&& t) ^^^ y) &&& t = x &&& t := by
  apply UInt8.toBitVec_inj.1
  simp only [UInt8.toBitVec_and, UInt8.toBitVec_xor]
  ext i
  simp only [BitVec.getElem_and, BitVec.getElem_xor]
  cases x.toBitVec[i] <;> cases y.toBitVec[i] <;> cases t.toBitVec[i] <;> rfl

/-- Bits that are cleared before the mask is taken off are cleared in the end. -/
theorem clearTop_xor_clearTop {bits : Nat} {a b : Bytes} (h : a.length ≤ b.length) :
    clearTop bits (Bytes.xor (clearTop bits (Bytes.xor a b)) b) = clearTop bits a := by
  cases a with
  | nil => rfl
  | cons x r =>
    cases b with
    | nil => simp at h
    | cons y s =>
      have hs : r.length ≤ s.length := Nat.le_of_succ_le_succ h
      show ((((x ^^^ y) &&& topMask bits) ^^^ y) &&& topMask bits) :: Bytes.xor (Bytes.xor r s) s = _
      rw [and_xor_and, Bytes.xor_cancel hs]
      rfl

/-- The lowest bit of the first byte is never cleared. -/
theorem one_and_topMask (bits : Nat) : 1 &&& topMask bits = 1 := by
  have hs : 8 * encodedLength bits - (bits - 1) < 8 := by unfold encodedLength; omega
  have h : ∀ s < 8, (1 : UInt8) &&& (0xff >>> UInt8.ofNat s) = 1 := by decide
  exact h _ hs

theorem clearTop_zeros_one (bits n : Nat) (salt : Bytes) :
    clearTop bits (Bytes.zeros n ++ 1 :: salt) = Bytes.zeros n ++ 1 :: salt := by
  cases n with
  | zero => show (1 &&& topMask bits) :: salt = 1 :: salt; rw [one_and_topMask]
  | succ n =>
    show (0 &&& topMask bits) :: (Bytes.zeros n ++ 1 :: salt) = 0 :: (Bytes.zeros n ++ 1 :: salt)
    rw [UInt8.zero_and]

variable {p : Pss} {bits : Nat} {salt : Bytes}

theorem fits_iff : p.fits bits = true ↔ p.hash.outputLength + p.saltLength + 2 ≤ encodedLength bits :=
  decide_eq_true_iff

/-- The data block is as long as its mask. -/
theorem length_dataBlock (hf : p.fits bits = true) (hs : salt.length = p.saltLength) :
    (Bytes.zeros (encodedLength bits - p.hash.outputLength - 1 - salt.length - 1) ++ 1 :: salt).length =
      encodedLength bits - p.hash.outputLength - 1 := by
  rw [fits_iff] at hf
  simp
  omega

theorem length_encode (hf : p.fits bits = true) (hs : salt.length = p.saltLength) (digest : Bytes) :
    (p.encode bits digest salt).length = encodedLength bits := by
  have hdb := length_dataBlock hf hs
  rw [fits_iff] at hf
  simp only [encode, bindingDigest, List.length_append, length_clearTop, Bytes.length_xor, hdb,
    CounterStream.length_mask, Digest.length_hash, Nat.min_self, List.length_singleton]
  omega

/-- What the checker asks of an encoding that is put together from its parts. -/
theorem check_append {masked h : Bytes} (hh : h.length = p.hash.outputLength) (digest : Bytes) :
    p.check bits digest (masked ++ h ++ [0xbc]) =
      let db := clearTop bits (Bytes.xor masked (CounterStream.mask p.mask h masked.length))
      let fillLength := masked.length - p.saltLength - 1
      (decide (p.hash.outputLength + p.saltLength + 2 ≤ masked.length + p.hash.outputLength + 1)
        && clearTop bits masked == masked
        && (db.take fillLength).all (· == 0)
        && db[fillLength]? == some 1
        && h == p.bindingDigest digest (db.drop (fillLength + 1))) := by
  have hl : (masked ++ h ++ [0xbc]).length = masked.length + p.hash.outputLength + 1 := by simp [hh]; omega
  have hdb : masked.length + p.hash.outputLength + 1 - p.hash.outputLength - 1 = masked.length := by omega
  have htake : (masked ++ h ++ [0xbc]).take masked.length = masked := by
    rw [List.append_assoc, List.take_left]
  have hdrop : ((masked ++ h ++ [0xbc]).drop masked.length).take p.hash.outputLength = h := by
    rw [List.append_assoc, List.drop_left, ← hh, List.take_left]
  have hlast : (masked ++ h ++ [0xbc]).getLast? = some 0xbc := by simp
  unfold check
  simp only [hl, hdb, htake, hdrop, hlast, beq_self_eq_true, Bool.and_true]

/-- The checker accepts every encoding whose salt has the length of the parameters. -/
theorem check_encode (hf : p.fits bits = true) (hs : salt.length = p.saltLength) (digest : Bytes) :
    p.check bits digest (p.encode bits digest salt) = true := by
  have hdb := length_dataBlock hf hs
  rw [fits_iff] at hf
  have hfill : encodedLength bits - p.hash.outputLength - 1 - salt.length - 1 =
    encodedLength bits - p.hash.outputLength - 1 - p.saltLength - 1 := by rw [hs]
  have hh : (p.bindingDigest digest salt).length = p.hash.outputLength := Digest.length_hash _ _
  simp only [encode]
  rw [check_append hh]
  simp only [length_clearTop, Bytes.length_xor, hdb, CounterStream.length_mask, Nat.min_self]
  rw [clearTop_xor_clearTop (Nat.le_of_eq (by rw [hdb, CounterStream.length_mask])), clearTop_zeros_one,
    clearTop_clearTop, hfill]
  -- The data block is read in three pieces: the zeros, the one and the salt.
  have hz : ∀ n, (Bytes.zeros n ++ 1 :: salt).take n = Bytes.zeros n := fun n => by
    rw [List.take_append_of_le_length (by simp), List.take_of_length_le (by simp)]
  have hone : ∀ n, (Bytes.zeros n ++ 1 :: salt)[n]? = some 1 := fun n => by
    rw [List.getElem?_append_right (by simp)]; simp
  have hsalt : ∀ n, (Bytes.zeros n ++ 1 :: salt).drop (n + 1) = salt := fun n => by
    rw [List.drop_append, List.drop_of_length_le (by simp)]; simp
  have hall : ∀ n, (Bytes.zeros n).all (· == 0) = true := fun n => by simp [Bytes.zeros]
  simp only [hz, hone, hsalt, hall, beq_self_eq_true, Bool.and_true, decide_eq_true_iff]
  omega

end Pss

/-! ## OAEP -/

namespace Oaep

variable {p : Oaep} {size : Nat} {message : Bytes}

/-- The data block of a message that fits: the digest of the label, zeros, a one and the message. -/
theorem dataBlock_eq (hf : message.length + 2 * p.hash.outputLength + 2 ≤ size) :
    p.dataBlock size message = p.hash.hash p.label ++
      Bytes.zeros (size - message.length - 2 * p.hash.outputLength - 2) ++ 1 :: message := by
  have hl : size - p.hash.outputLength - 1 - message.length - 1 =
      (p.hash.hash p.label).length + (size - message.length - 2 * p.hash.outputLength - 2) := by
    rw [Digest.length_hash]; omega
  have hz : size - message.length - 2 * p.hash.outputLength - 2 ≤ size - p.hash.outputLength - 1 := by omega
  unfold dataBlock
  simp only [hl, List.take_length_add_append, Bytes.zeros, List.take_replicate, Nat.min_eq_left hz]

theorem length_dataBlock (hf : message.length + p.hash.outputLength + 2 ≤ size) :
    (p.dataBlock size message).length = size - p.hash.outputLength - 1 := by
  unfold dataBlock
  simp
  omega

/-- An encoding fills the modulus, after a zero. -/
theorem length_encode (hf : message.length + 2 * p.hash.outputLength + 2 ≤ size) {seed : Bytes}
    (hs : seed.length = p.hash.outputLength) : (p.encode size message seed).length = size := by
  have hdb : (p.dataBlock size message).length = size - p.hash.outputLength - 1 := length_dataBlock (by omega)
  simp only [encode, List.length_cons, List.length_append, Bytes.length_xor, CounterStream.length_mask, hs, hdb,
    Nat.min_self]
  omega

/-- What the reader asks of a block that is put together from its parts: a zero, the digest of the label, and behind
zeros a one and the message. -/
theorem decode_parts {y : UInt8} {maskedSeed maskedDb : Bytes} (hs : maskedSeed.length = p.hash.outputLength)
    (hd : p.hash.outputLength + 1 ≤ maskedDb.length) :
    p.decode? (y :: (maskedSeed ++ maskedDb)) = some message ↔
      let seed := Bytes.xor maskedSeed (CounterStream.mask p.mask maskedDb p.hash.outputLength)
      let db := Bytes.xor maskedDb (CounterStream.mask p.mask seed maskedDb.length)
      y = 0 ∧ db.take p.hash.outputLength = p.hash.hash p.label ∧
        (db.drop p.hash.outputLength).dropWhile (· == 0) = 1 :: message := by
  have hn : ¬ (y :: (maskedSeed ++ maskedDb)).length < 2 * p.hash.outputLength + 2 := by
    rw [List.length_cons, List.length_append]; omega
  have hfirst : ((y :: (maskedSeed ++ maskedDb)).drop 1).take p.hash.outputLength = maskedSeed := by
    rw [List.drop_one, List.tail_cons, ← hs, List.take_left]
  have hrest : (y :: (maskedSeed ++ maskedDb)).drop (1 + p.hash.outputLength) = maskedDb := by
    rw [Nat.add_comm, List.drop_succ_cons, ← hs, List.drop_left]
  unfold decode?
  simp only [if_neg hn, hfirst, hrest, List.head?_cons, Option.some.injEq]
  generalize Bytes.xor maskedDb _ = db
  constructor
  · intro h
    split at h
    · next m hm =>
      split at h
      · next hc =>
        cases h
        exact ⟨hc.1, hc.2, hm⟩
      · cases h
    · cases h
  · rintro ⟨hy, hlabel, hm⟩
    rw [hm]
    exact if_pos ⟨hy, hlabel⟩

/-- The reader gives back every message that fits. -/
theorem decode_encode (hf : message.length + 2 * p.hash.outputLength + 2 ≤ size) {seed : Bytes}
    (hs : seed.length = p.hash.outputLength) : p.decode? (p.encode size message seed) = some message := by
  have hl : (p.hash.hash p.label).length = p.hash.outputLength := Digest.length_hash _ _
  have hdb : (p.dataBlock size message).length = size - p.hash.outputLength - 1 := length_dataBlock (by omega)
  have hlabel : (p.dataBlock size message).take p.hash.outputLength = p.hash.hash p.label := by
    rw [dataBlock_eq hf, List.append_assoc, ← hl, List.take_left]
  have hrest : ((p.dataBlock size message).drop p.hash.outputLength).dropWhile (· == 0) = 1 :: message := by
    rw [dataBlock_eq hf, List.append_assoc, ← hl, List.drop_left,
      List.dropWhile_append_of_pos (by simp [Bytes.zeros])]
    rfl
  unfold encode
  generalize p.dataBlock size message = db at *
  have hmasked : (Bytes.xor db (CounterStream.mask p.mask seed db.length)).length = db.length := by simp
  have hback : Bytes.xor (Bytes.xor db (CounterStream.mask p.mask seed db.length))
      (CounterStream.mask p.mask seed db.length) = db := Bytes.xor_cancel (by simp)
  simp only
  generalize Bytes.xor db (CounterStream.mask p.mask seed db.length) = maskedDb at *
  have hseed : Bytes.xor (Bytes.xor seed (CounterStream.mask p.mask maskedDb p.hash.outputLength))
      (CounterStream.mask p.mask maskedDb p.hash.outputLength) = seed := Bytes.xor_cancel (by simp [hs])
  refine (decode_parts (by simp [hs]) (by omega)).2 ?_
  simp only [hseed, hmasked, hback]
  exact ⟨trivial, hlabel, hrest⟩

end Oaep
end SoftToken.Rsa
