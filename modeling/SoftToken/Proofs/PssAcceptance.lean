import SoftToken.Proofs.RsaNumbers
/-!
# The checker of PSS accepts the encodings and nothing else

A string that the checker accepts falls into a masked data block, a digest and the last byte. The data block
without its mask is a row of zeros, a one and a salt, and the encoder puts the same string together from that
salt: `exists_encode_of_check` is the converse of `check_encode`. `check_exact` states both for drawn salts.
-/

namespace SoftToken

namespace Rsa.Pss

variable {p : Pss} {bits : Nat} {digest em salt : Bytes}

/-! ## The parts of an accepted string -/

/-- A data block with the right start is zeros, a one and a salt. -/
theorem eq_zeros_one {db : Bytes} {n : Nat} (hz : (db.take n).all (· == 0) = true) (h1 : db[n]? = some 1) :
    db = Bytes.zeros n ++ 1 :: db.drop (n + 1) := by
  obtain ⟨hn, h1⟩ := List.getElem?_eq_some_iff.1 h1
  have hzeros : db.take n = Bytes.zeros n := by
    refine List.eq_replicate_iff.2 ⟨?_, fun x hx => ?_⟩
    · rw [List.length_take]
      omega
    · simpa using List.all_eq_true.1 hz x hx
  calc db = db.take n ++ db.drop n := (List.take_append_drop n db).symm
    _ = Bytes.zeros n ++ 1 :: db.drop (n + 1) := by rw [hzeros, List.drop_eq_getElem_cons hn, h1]

/-- An accepted string is the encoding with the salt that it carries. -/
theorem exists_encode_of_check (hf : p.fits bits = true) (hl : em.length = encodedLength bits)
    (h : p.check bits digest em = true) : ∃ salt, salt.length = p.saltLength ∧ p.encode bits digest salt = em := by
  obtain ⟨masked, hd, y, rfl, hhd, hmasked⟩ := exists_parts hf hl
  obtain rfl : y = 0xbc := by
    unfold check at h
    simp only [Bool.and_eq_true, beq_iff_eq] at h
    simpa using h.1.1.1.1.2
  rw [fits_iff] at hf
  rw [check_append hhd] at h
  simp only [Bool.and_eq_true, beq_iff_eq] at h
  obtain ⟨⟨⟨⟨-, htop⟩, hz⟩, hone⟩, hbind⟩ := h
  have hm : (CounterStream.mask p.mask hd masked.length).length = masked.length := CounterStream.length_mask _ _ _
  have hdbl : (clearTop bits (Bytes.xor masked (CounterStream.mask p.mask hd masked.length))).length =
      masked.length := by
    rw [length_clearTop, Bytes.length_xor, hm, Nat.min_self]
  -- The top bits were clear when the block was read, so that masking the data block again gives back the same bytes.
  have hback : clearTop bits (Bytes.xor (clearTop bits (Bytes.xor masked
      (CounterStream.mask p.mask hd masked.length))) (CounterStream.mask p.mask hd masked.length)) = masked := by
    rw [clearTop_xor_clearTop (Nat.le_of_eq hm.symm), htop]
  generalize clearTop bits (Bytes.xor masked (CounterStream.mask p.mask hd masked.length)) = db at *
  have hsalt : (db.drop (masked.length - p.saltLength - 1 + 1)).length = p.saltLength := by
    rw [List.length_drop, hdbl]
    omega
  refine ⟨_, hsalt, ?_⟩
  unfold encode
  simp only [← hbind, hsalt, ← hmasked, ← eq_zeros_one hz hone, hback]

/-! ## Encodings with drawn salts -/

/-- The encoder gives `em` when it draws `salt`, which some source gives. -/
structure Encodes (p : Pss) (bits : Nat) (digest salt em : Bytes) : Prop where
  drawn : ∃ t t', (Draw.bytes p.saltLength).on t = (.ok salt, t')
  encoded : ∀ {t t'}, (Draw.bytes p.saltLength).on t = (.ok salt, t') →
    (p.drawEncoding bits digest).on t = (.ok em, t')

/-- The lengths of an encoding for a modulus whose bits a machine word counts add up to a machine word. -/
theorem neededLength_lt (hf : p.fits bits = true) (hb : bits < 2 ^ 64) :
    p.hash.outputLength + p.saltLength + 2 < 2 ^ 64 := by
  rw [fits_iff, encodedLength] at hf
  omega

theorem encodes_iff (hf : p.fits bits = true) (hb : bits < 2 ^ 64) :
    p.Encodes bits digest salt em ↔ salt.length = p.saltLength ∧ p.encode bits digest salt = em := by
  constructor
  · rintro ⟨⟨t, t', hsalt⟩, hem⟩
    obtain ⟨-, -, salt', hsalt', rfl⟩ := drawEncoding_ok.1 (hem hsalt)
    cases hsalt.symm.trans hsalt'
    exact ⟨Draw.length_of_request hsalt, rfl⟩
  · rintro ⟨hl, rfl⟩
    refine ⟨hl ▸ Draw.exists_bytes salt, fun {t t'} hsalt => ?_⟩
    exact drawEncoding_ok.2 ⟨neededLength_lt hf hb, hf, salt, hsalt, rfl⟩

/-- A string of the length of an encoding is accepted if and only if the encoder gives it for a salt of the length
of the parameters, and every encoding is a number with one bit fewer than the modulus. -/
theorem check_exact (hf : p.fits bits = true) (hb : bits < 2 ^ 64) (digest : Bytes) :
    (∀ em : Bytes, em.length = encodedLength bits → ∃ accepted, p.readEncoding bits digest em = .ok accepted ∧
      (accepted = true ↔ ∃ salt : Bytes, salt.length = p.saltLength ∧ p.Encodes bits digest salt em)) ∧
    ∀ em t t', (p.drawEncoding bits digest).on t = (.ok em, t') → Bytes.toNat em < 2 ^ (bits - 1) := by
  constructor
  · intro em hl
    refine ⟨p.check bits digest em, readEncoding_of_lt (neededLength_lt hf hb) hl, ?_⟩
    constructor
    · intro h
      obtain ⟨salt, hs, hem⟩ := exists_encode_of_check hf hl h
      exact ⟨salt, hs, (encodes_iff hf hb).2 ⟨hs, hem⟩⟩
    · rintro ⟨salt, hs, hem⟩
      obtain ⟨-, rfl⟩ := (encodes_iff hf hb).1 hem
      exact check_encode hf hs digest
  · intro em t t' h
    obtain ⟨-, -, salt, hsalt, rfl⟩ := drawEncoding_ok.1 h
    exact toNat_encode_lt hf (Draw.length_of_request hsalt) digest

/-- Parameters that leave no room for zeros in an encoding of 22 bytes. -/
def saltless : Pss := ⟨.sha1, .sha1, 0⟩

/-- Parameters with a salt as long as the digest. -/
def salted : Pss := ⟨.sha1, .sha1, 20⟩

/-- With 170 bits, the first byte of the encoding is the one, and the other bits of that byte are cleared. With 1024 bits
and a salt, the encoding of a digest is accepted, and it has the salt in it. -/
theorem check_exact_runs :
    (saltless.fits 170 = true ∧ 170 < 2 ^ 64 ∧ topMask 170 = 1 ∧
      (∀ em : Bytes, em.length = encodedLength 170 → ∃ accepted, saltless.readEncoding 170 [] em = .ok accepted ∧
        (accepted = true ↔ ∃ salt : Bytes, salt.length = 0 ∧ saltless.Encodes 170 [] salt em)) ∧
      ∀ em t t', (saltless.drawEncoding 170 []).on t = (.ok em, t') → Bytes.toNat em < 2 ^ 169) ∧
    salted.fits 1024 = true ∧ 1024 < 2 ^ 64 ∧ (Digest.sha1.hash []).length = salted.hash.outputLength ∧
      ∃ em salt : Bytes, salt.length = salted.saltLength ∧ salt ≠ Bytes.zeros 20 ∧
        salted.Encodes 1024 (Digest.sha1.hash []) salt em ∧
        salted.readEncoding 1024 (Digest.sha1.hash []) em = .ok true := by
  have hf : saltless.fits 170 = true := by decide
  have hb : 170 < 2 ^ 64 := by decide
  have hf' : salted.fits 1024 = true := by decide
  have hb' : 1024 < 2 ^ 64 := by decide
  have hsalt : (List.replicate 20 1 : Bytes).length = salted.saltLength := rfl
  refine ⟨⟨hf, hb, by decide, check_exact hf hb []⟩, hf', hb', Digest.length_hash .sha1 [], ?_⟩
  -- the encoding is put together from the salt, and the reader is asked about it
  have hencodes : salted.Encodes 1024 (Digest.sha1.hash []) (List.replicate 20 1) _ := (encodes_iff hf' hb').2 ⟨hsalt, rfl⟩
  obtain ⟨accepted, hread, haccepted⟩ := (check_exact hf' hb' (Digest.sha1.hash [])).1 _ (length_encode hf' hsalt _)
  obtain rfl : accepted = true := haccepted.2 ⟨_, hsalt, hencodes⟩
  exact ⟨_, _, hsalt, by decide, hencodes, hread⟩

end Rsa.Pss
end SoftToken
