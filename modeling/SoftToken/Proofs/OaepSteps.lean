import SoftToken.Proofs.CheckedStrings
import SoftToken.Proofs.RsaEncoding
import SoftToken.Rsa.OaepSteps
/-!
# The steps of OAEP stay within bounds

Where the block has room for two digests and a byte, no step gives up on a message that leaves room for one of them
and two bytes, and the steps give what `encode` says: `drawEncoding_of_room`. In a shorter block the digest of the
label has no place, and the encoder gives up before it draws the seed: `drawEncoding_of_short` and, where not even
the seed has a place, `drawEncoding_of_lt`.
-/

namespace SoftToken

namespace Rsa.Oaep

variable {p : Oaep} {size : Nat} {message em : Bytes} {t t' : RandomSource}

theorem dataLength_of_le (h : p.hash.outputLength + 1 ≤ size) :
    p.dataLength size = .ok (size - p.hash.outputLength - 1) := by
  unfold dataLength
  rw [Checked.sub_of_le (by omega), Except.ok_bind, Checked.sub_of_le (by omega)]

theorem dataLength_of_lt (h : size < p.hash.outputLength + 1) :
    p.dataLength size = .error (.abort .wordOverflow) := by
  unfold dataLength Checked.sub
  split
  · next hle =>
    rw [Except.ok_bind, if_neg (by omega)]
  · rfl

/-! ## Writing the data block -/

/-- The writer starts from as many zeros as the block has behind its first byte and the seed. -/
theorem writeData_zeros (h : p.hash.outputLength + 1 ≤ size) (length : Nat) (message : Bytes) :
    p.writeData size length message = (do
      let db ← Checked.copy (Bytes.zeros (size - p.hash.outputLength - 1)) 0 p.hash.outputLength (p.hash.hash p.label)
      let start ← Checked.sub length message.length
      let db ← Checked.write db (← Checked.sub start 1) 1
      Checked.copy db start db.length message) := by
  obtain ⟨n, rfl⟩ : ∃ n, size = 1 + (p.hash.outputLength + n) := ⟨size - p.hash.outputLength - 1, by omega⟩
  have hn : 1 + (p.hash.outputLength + n) - p.hash.outputLength - 1 = n := by omega
  have hrest : Checked.slice (Bytes.zeros (1 + (p.hash.outputLength + n))) 1 (1 + (p.hash.outputLength + n)) =
      .ok (Bytes.zeros (p.hash.outputLength + n)) := by
    have hslice := Checked.slice_suffix (b := Bytes.zeros (p.hash.outputLength + n)) (Bytes.length_zeros 1)
    rwa [← Bytes.zeros_add, Bytes.length_zeros] at hslice
  have hdb : Checked.slice (Bytes.zeros (p.hash.outputLength + n)) p.hash.outputLength
      (Bytes.zeros (p.hash.outputLength + n)).length = .ok (Bytes.zeros n) := by
    rw [Bytes.zeros_add]
    exact Checked.slice_suffix (Bytes.length_zeros _)
  unfold writeData
  rw [hrest, Except.ok_bind, hdb, Except.ok_bind, hn]

/-- The data block: as much of the digest and the zeros as the message leaves, a one and the message. -/
theorem writeData_of_room (hs : 2 * p.hash.outputLength + 1 ≤ size)
    (hm : message.length + p.hash.outputLength + 2 ≤ size) :
    p.writeData size (size - p.hash.outputLength - 1) message = .ok (p.dataBlock size message) := by
  have hhash : (p.hash.hash p.label).length = p.hash.outputLength := Digest.length_hash _ _
  rw [writeData_zeros (by omega)]
  unfold dataBlock
  obtain ⟨n, hn⟩ : ∃ n, size - p.hash.outputLength - 1 = p.hash.outputLength + n :=
    ⟨size - 2 * p.hash.outputLength - 1, by omega⟩
  have hlabel : Checked.copy (Bytes.zeros (p.hash.outputLength + n)) 0 p.hash.outputLength (p.hash.hash p.label) =
      .ok (p.hash.hash p.label ++ Bytes.zeros n) := by
    rw [Bytes.zeros_add]
    exact Checked.copy_prefix (Bytes.length_zeros _) (by rw [hhash, Bytes.length_zeros])
  have hlength : (p.hash.hash p.label ++ Bytes.zeros n).length = p.hash.outputLength + n := by
    rw [List.length_append, hhash, Bytes.length_zeros]
  -- The one stands at the place `j`, and the message is what follows it.
  obtain ⟨j, hj⟩ : ∃ j, p.hash.outputLength + n = j + 1 + message.length :=
    ⟨p.hash.outputLength + n - message.length - 1, by omega⟩
  have hstart : Checked.sub (p.hash.outputLength + n) message.length = .ok (j + 1) := by
    rw [hj, Checked.sub_of_le (Nat.le_add_left ..), Nat.add_sub_cancel]
  have hplace : Checked.sub (j + 1) 1 = .ok j := Checked.sub_of_le (Nat.le_add_left ..)
  have htake : (p.hash.hash p.label ++ Bytes.zeros (p.hash.outputLength + n)).take j =
      (p.hash.hash p.label ++ Bytes.zeros n).take j := by
    rw [Nat.add_comm, Bytes.zeros_add, ← List.append_assoc, List.take_append_of_le_length (by omega)]
  have hend : p.hash.outputLength + n - message.length - 1 = j := by omega
  generalize p.hash.hash p.label ++ Bytes.zeros n = db at *
  have hone : Checked.write db j 1 = .ok (db.take j ++ [1] ++ db.drop (j + 1)) := by
    rw [Checked.write_of_lt (by omega), List.append_assoc, List.singleton_append]
  have hmessage : Checked.copy (db.take j ++ [1] ++ db.drop (j + 1)) (j + 1)
      (db.take j ++ [1] ++ db.drop (j + 1)).length message = .ok (db.take j ++ [1] ++ message) :=
    Checked.copy_suffix (by rw [List.length_append, List.length_take, List.length_singleton]; omega)
      (by rw [List.length_drop]; omega)
  simp only [hn, hlabel, hstart, hplace, hone, hmessage, Except.ok_bind, hend, htake]
  rw [List.append_assoc, List.singleton_append]

/-- With less room than two digests and a byte, the digest of the label does not fit. -/
theorem writeData_of_short (h : p.hash.outputLength + 1 ≤ size) (hs : size < 2 * p.hash.outputLength + 1)
    (length : Nat) (message : Bytes) : p.writeData size length message = .error (.abort .outOfRange) := by
  have hcopy : Checked.copy (Bytes.zeros (size - p.hash.outputLength - 1)) 0 p.hash.outputLength
      (p.hash.hash p.label) = .error (.abort .outOfRange) := by
    unfold Checked.copy
    rw [if_neg]
    rintro ⟨-, hle, -⟩
    rw [Bytes.length_zeros] at hle
    omega
  rw [writeData_zeros h, hcopy]
  rfl

/-! ## Encodings with drawn seeds -/

/-- With room for the seed, the encoder writes the data block, draws the seed and masks both. -/
theorem drawEncoding_eq (h : p.hash.outputLength + 1 ≤ size) (message : Bytes) :
    p.drawEncoding size message = (do
      let db ← p.writeData size (size - p.hash.outputLength - 1) message
      let seed ← Draw.bytes p.hash.outputLength
      let maskedDb := Bytes.xor db (CounterStream.mask p.mask seed (size - p.hash.outputLength - 1))
      return 0 :: (Bytes.xor seed (CounterStream.mask p.mask maskedDb p.hash.outputLength) ++ maskedDb)) := by
  unfold drawEncoding
  rw [dataLength_of_le h]
  rfl

/-- With room for two digests, the encoding is the one with the drawn seed. -/
theorem drawEncoding_of_room (hs : 2 * p.hash.outputLength + 1 ≤ size)
    (hm : message.length + p.hash.outputLength + 2 ≤ size) :
    p.drawEncoding size message = do return p.encode size message (← Draw.bytes p.hash.outputLength) := by
  rw [drawEncoding_eq (by omega), writeData_of_room hs hm, ← length_dataBlock hm]
  rfl

/-- Without room for the seed, the length of the data block is below zero. -/
theorem drawEncoding_of_lt (h : size < p.hash.outputLength + 1) (message : Bytes) :
    p.drawEncoding size message = throw (.abort .wordOverflow) := by
  unfold drawEncoding
  rw [dataLength_of_lt h]
  rfl

/-- Without room for the digest of the label behind it, the encoder goes out of bounds. -/
theorem drawEncoding_of_short (h : p.hash.outputLength + 1 ≤ size) (hs : size < 2 * p.hash.outputLength + 1)
    (message : Bytes) : p.drawEncoding size message = throw (.abort .outOfRange) := by
  rw [drawEncoding_eq h, writeData_of_short h hs]
  rfl

/-- A drawn encoding of a message that fits is the one with the drawn seed. -/
theorem drawEncoding_ok (hf : message.length + 2 * p.hash.outputLength + 2 ≤ size) :
    (p.drawEncoding size message).on t = (.ok em, t') ↔
      ∃ seed, (Draw.bytes p.hash.outputLength).on t = (.ok seed, t') ∧ p.encode size message seed = em := by
  rw [drawEncoding_of_room (by omega) (by omega), Draw.bind_ok]
  constructor
  · rintro ⟨seed, t₁, hseed, h⟩
    cases h
    exact ⟨seed, hseed, rfl⟩
  · rintro ⟨seed, hseed, rfl⟩
    exact ⟨seed, t', hseed, rfl⟩

end Rsa.Oaep
end SoftToken
