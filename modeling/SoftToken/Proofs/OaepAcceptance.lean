import SoftToken.Proofs.RsaEncryption
/-!
# The reader of OAEP accepts the encodings and nothing else

A block that the reader accepts falls into a zero, a masked seed and a masked data block. Without its mask, the data
block is the digest of the label, a row of zeros, a one and the message, whatever the message starts with, and the
encoder puts the same block together from the message and the seed: `exists_encode_of_decode` is the converse of
`decode_encode`. `decode_exact` states both for drawn seeds, and what decryption makes of the other blocks.
-/

namespace SoftToken

namespace Rsa.Oaep

variable {p : Oaep} {size : Nat} {message seed em : Bytes}

/-! ## The parts of an accepted block -/

/-- The reader looks at the first byte, and at the rest as a masked seed and a masked data block. -/
theorem exists_parts (hs : 2 * p.hash.outputLength + 2 ≤ size) (hl : em.length = size) :
    ∃ y maskedSeed maskedDb, em = y :: (maskedSeed ++ maskedDb) ∧ maskedSeed.length = p.hash.outputLength ∧
      maskedDb.length = size - p.hash.outputLength - 1 := by
  obtain ⟨y, r, rfl⟩ : ∃ y r, em = y :: r := List.exists_cons_of_length_pos (by omega)
  rw [List.length_cons] at hl
  refine ⟨y, r.take p.hash.outputLength, r.drop p.hash.outputLength, ?_, ?_, ?_⟩
  · rw [List.take_append_drop]
  · rw [List.length_take]
    omega
  · rw [List.length_drop]
    omega

/-- Behind zeros, the first other byte is a one and the message follows: the string is such a row. -/
theorem eq_zeros_one_of_dropWhile {b : Bytes} (h : b.dropWhile (· == 0) = 1 :: message) :
    ∃ n, b = Bytes.zeros n ++ 1 :: message := by
  have hzeros : b.takeWhile (· == 0) = Bytes.zeros (b.takeWhile (· == 0)).length := by
    refine List.eq_replicate_iff.2 ⟨rfl, fun x hx => ?_⟩
    exact beq_iff_eq.1 (List.all_eq_true.1 List.all_takeWhile x hx)
  refine ⟨(b.takeWhile (· == 0)).length, ?_⟩
  rw [← hzeros, ← h, List.takeWhile_append_dropWhile]

/-- A data block with the right label and a message is the one that the encoder makes of the message. -/
theorem eq_dataBlock {db : Bytes} (hs : 2 * p.hash.outputLength + 2 ≤ size)
    (hl : db.length = size - p.hash.outputLength - 1) (hlabel : db.take p.hash.outputLength = p.hash.hash p.label)
    (hm : (db.drop p.hash.outputLength).dropWhile (· == 0) = 1 :: message) :
    message.length + 2 * p.hash.outputLength + 2 ≤ size ∧ db = p.dataBlock size message := by
  obtain ⟨n, hn⟩ := eq_zeros_one_of_dropWhile hm
  have hrest := congrArg List.length hn
  rw [List.length_drop, hl, List.length_append, List.length_cons, Bytes.length_zeros] at hrest
  have hf : message.length + 2 * p.hash.outputLength + 2 ≤ size := by omega
  refine ⟨hf, ?_⟩
  calc db = db.take p.hash.outputLength ++ db.drop p.hash.outputLength := (List.take_append_drop _ _).symm
    _ = p.hash.hash p.label ++ (Bytes.zeros n ++ 1 :: message) := by rw [hlabel, hn]
    _ = p.dataBlock size message := by
      rw [dataBlock_eq hf, List.append_assoc]
      have hfill : n = size - message.length - 2 * p.hash.outputLength - 2 := by omega
      rw [hfill]

/-- An accepted block is the encoding with the seed that it carries. -/
theorem exists_encode_of_decode (hs : 2 * p.hash.outputLength + 2 ≤ size) (hl : em.length = size)
    (h : p.decode? em = some message) : message.length + 2 * p.hash.outputLength + 2 ≤ size ∧
      ∃ seed, seed.length = p.hash.outputLength ∧ p.encode size message seed = em := by
  obtain ⟨y, maskedSeed, maskedDb, rfl, hseed, hdb⟩ := exists_parts hs hl
  obtain ⟨rfl, hlabel, hm⟩ := (decode_parts hseed (by omega)).1 h
  -- The data block was masked last, so that its mask comes off with the seed, and the mask of the seed with both.
  have hback : Bytes.xor (Bytes.xor maskedSeed (CounterStream.mask p.mask maskedDb p.hash.outputLength))
      (CounterStream.mask p.mask maskedDb p.hash.outputLength) = maskedSeed := Bytes.xor_cancel (by simp [hseed])
  have hlen : (Bytes.xor maskedSeed (CounterStream.mask p.mask maskedDb p.hash.outputLength)).length =
      p.hash.outputLength := by simp [hseed]
  generalize Bytes.xor maskedSeed (CounterStream.mask p.mask maskedDb p.hash.outputLength) = seed at *
  have hmasked : Bytes.xor (Bytes.xor maskedDb (CounterStream.mask p.mask seed maskedDb.length))
      (CounterStream.mask p.mask seed maskedDb.length) = maskedDb := Bytes.xor_cancel (by simp)
  have hdbl : (Bytes.xor maskedDb (CounterStream.mask p.mask seed maskedDb.length)).length = maskedDb.length := by simp
  obtain ⟨hf, hblock⟩ := eq_dataBlock hs (hdbl.trans hdb) hlabel hm
  refine ⟨hf, seed, hlen, ?_⟩
  unfold encode
  simp only [← hblock, hdbl, hmasked, hback]

/-! ## Encodings with drawn seeds -/

/-- The encoder gives `em` when it draws `seed`, which some source gives. -/
structure Encodes (p : Oaep) (size : Nat) (message seed em : Bytes) : Prop where
  drawn : ∃ t t', (Draw.bytes p.hash.outputLength).on t = (.ok seed, t')
  encoded : ∀ {t t'}, (Draw.bytes p.hash.outputLength).on t = (.ok seed, t') →
    (p.drawEncoding size message).on t = (.ok em, t')

theorem encodes_iff (hf : message.length + 2 * p.hash.outputLength + 2 ≤ size) :
    p.Encodes size message seed em ↔ seed.length = p.hash.outputLength ∧ p.encode size message seed = em := by
  constructor
  · rintro ⟨⟨t, t', hseed⟩, hem⟩
    obtain ⟨seed', hseed', rfl⟩ := (drawEncoding_ok hf).1 (hem hseed)
    cases hseed.symm.trans hseed'
    exact ⟨Draw.length_of_request hseed, rfl⟩
  · rintro ⟨hl, rfl⟩
    refine ⟨hl ▸ Draw.exists_bytes seed, fun {t t'} hseed => ?_⟩
    exact (drawEncoding_ok hf).2 ⟨seed, hseed, rfl⟩

/-- A block carries a message that fits, when the encoder gives the block for some seed that it draws. -/
structure Carries (p : Oaep) (size : Nat) (message em : Bytes) : Prop where
  fits : message.length + 2 * p.hash.outputLength + 2 ≤ size
  encodes : ∃ seed, p.Encodes size message seed em

/-- The reader accepts a block with the message that it carries. -/
theorem decode_eq_some_iff (hs : 2 * p.hash.outputLength + 2 ≤ size) (hl : em.length = size) :
    p.decode? em = some message ↔ p.Carries size message em := by
  constructor
  · intro h
    obtain ⟨hf, seed, hseed, hem⟩ := exists_encode_of_decode hs hl h
    exact ⟨hf, seed, (encodes_iff hf).2 ⟨hseed, hem⟩⟩
  · rintro ⟨hf, seed, h⟩
    obtain ⟨hseed, rfl⟩ := (encodes_iff hf).1 h
    exact decode_encode hf hseed

/-- What decryption makes of the block that the private operation gives. -/
theorem decrypt_of_block {k : Key} {c : Bytes} (hk : k.size = size) (hl : em.length = size) (hc : c.length ≤ size)
    (h : k.decrypt (Bytes.toNat c) = .ok (Bytes.toNat em)) :
    decrypt k (.oaep p) c = match p.decode? em with
      | some message => .ok message
      | none => fail .encryptedDataInvalid := by
  have hback : Bytes.ofNat k.size (Bytes.toNat em) = em := by rw [hk, ← hl, Bytes.ofNat_toNat]
  unfold decrypt
  rw [if_neg (by omega), h]
  cases hd : p.decode? em with
  | none => simp only [hback, hd]
  | some message => simp only [hback, hd]

/-- In blocks with room for two digests and two bytes, decoding is the exact inverse of encoding. The reader accepts
the blocks that the encoder gives, with the message that went in, and every message that fits goes in with every seed.
From any other block decryption makes the same error. -/
theorem decode_exact (hs : 2 * p.hash.outputLength + 2 ≤ size) :
    (∀ em message, em.length = size → (p.decode? em = some message ↔ p.Carries size message em)) ∧
    (∀ message seed, message.length + 2 * p.hash.outputLength + 2 ≤ size → seed.length = p.hash.outputLength →
      ∃ em, em.length = size ∧ p.Encodes size message seed em ∧ p.decode? em = some message) ∧
    ∀ (k : Key) (c em : Bytes), k.size = size → c.length ≤ size → em.length = size →
      k.decrypt (Bytes.toNat c) = .ok (Bytes.toNat em) →
      (∀ message, decrypt k (.oaep p) c = .ok message ↔ p.Carries size message em) ∧
      ((∀ message, ¬ p.Carries size message em) → decrypt k (.oaep p) c = fail .encryptedDataInvalid) := by
  refine ⟨fun em message hl => decode_eq_some_iff hs hl, fun message seed hf hseed => ?_,
    fun k c em hk hc hl h => ?_⟩
  · exact ⟨p.encode size message seed, length_encode hf hseed, (encodes_iff hf).2 ⟨hseed, rfl⟩,
      decode_encode hf hseed⟩
  · rw [decrypt_of_block hk hl hc h]
    simp only [← decode_eq_some_iff hs hl]
    cases p.decode? em with
    | none => exact ⟨fun message => iff_of_false nofun nofun, fun _ => rfl⟩
    | some message =>
      refine ⟨fun message' => ?_, fun hnone => absurd rfl (hnone message)⟩
      exact ⟨fun hm => congrArg some (Except.ok.inj hm), fun hm => congrArg Except.ok (Option.some.inj hm)⟩

/-- In a block of 64 bytes, OAEP with SHA-1 carries messages that start with a zero or with the one that separates them,
and gives them back. Its smallest block carries the empty message alone. -/
theorem decode_exact_sha1 : 2 * Digest.sha1.outputLength + 2 ≤ 64 ∧
    (∀ message ∈ [[0x00, 0x01, 0x2a], [0x01, 0x00, 0x01], ([0x00] : Bytes)], ∃ em, em.length = 64 ∧
      (⟨.sha1, .sha1, []⟩ : Oaep).Encodes 64 message (List.range' 1 20 |>.map UInt8.ofNat) em ∧
      (⟨.sha1, .sha1, []⟩ : Oaep).decode? em = some message) ∧
    2 * Digest.sha1.outputLength + 2 ≤ 42 ∧
    ∀ em, em.length = 42 → ∀ message, (⟨.sha1, .sha1, []⟩ : Oaep).decode? em = some message →
      message = [] ∧ ∃ seed, (⟨.sha1, .sha1, []⟩ : Oaep).Encodes 42 [] seed em := by
  have hlen : Digest.sha1.outputLength = 20 := rfl
  have hs : 2 * Digest.sha1.outputLength + 2 ≤ 64 := by decide
  have hsmall : 2 * Digest.sha1.outputLength + 2 ≤ 42 := by decide
  refine ⟨hs, fun message hm => ?_, hsmall, fun em hl message h => ?_⟩
  · have hfits : message.length + 2 * Digest.sha1.outputLength + 2 ≤ 64 := by
      have hshort : message.length ≤ 3 := by
        simp only [List.mem_cons, List.not_mem_nil, or_false] at hm
        rcases hm with rfl | rfl | rfl <;> decide
      omega
    exact (decode_exact (p := ⟨.sha1, .sha1, []⟩) hs).2.1 message _ hfits rfl
  · obtain ⟨hf, hseed⟩ := ((decode_exact (p := ⟨.sha1, .sha1, []⟩) hsmall).1 em message hl).1 h
    obtain rfl : message = [] := List.length_eq_zero_iff.1 (by dsimp only at hf; omega)
    exact ⟨rfl, hseed⟩

end Rsa.Oaep
end SoftToken
