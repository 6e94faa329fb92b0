import SoftToken.Proofs.AgreementPaths
import SoftToken.Proofs.Mask
/-!
# The readers of counter streams

The derivation of agreed keys counts its digests beforehand, mask generation adds digests until there are enough. As
long as the numbers of the digests have 32 bits, both give the first bytes of one stream, whatever the length
(`CounterStream.readers_agree`).
-/

namespace SoftToken.CounterStream

/-- The first `len` bytes of the digests with the numbers 0, 1, and so on: what any number of them starts with, if
they are enough. -/
structure Starts (d : Digest) (seed suffix : Bytes) (len : Nat) (u : Bytes) : Prop where
  length : u.length = len
  eq (n : Nat) : len ≤ n * d.outputLength →
    u = ((List.range n).flatMap fun i => d.hash (seed ++ Bytes.ofNat 4 i ++ suffix)).take len

variable (d : Digest) (seed suffix : Bytes) {len : Nat}

theorem starts_stream (len : Nat) : Starts d seed suffix len (stream d seed suffix len) where
  length := length_stream ..
  eq _ h := stream_eq d seed suffix h

/-- One digest is the stream of its length. -/
theorem stream_outputLength : stream d seed suffix d.outputLength = d.hash (seed ++ Bytes.ofNat 4 0 ++ suffix) := by
  rw [stream_eq d seed suffix (Nat.le_of_eq (Nat.one_mul _).symm)]
  show (block d seed suffix 0 ++ []).take d.outputLength = _
  rw [List.append_nil]
  exact List.take_of_length_le (Nat.le_of_eq (length_block ..))

theorem rounds_max_lt (h : rounds d len < 2 ^ 32) : rounds d (max len d.outputLength) < 2 ^ 32 := by
  have hlen : len ≤ (2 ^ 32 - 1) * d.outputLength := (rounds_le_iff d).1 (Nat.le_sub_one_of_lt h)
  have hone : d.outputLength ≤ (2 ^ 32 - 1) * d.outputLength := Nat.le_mul_of_pos_left _ (by decide)
  have hmax := (rounds_le_iff d).2 (Nat.max_le.2 ⟨hlen, hone⟩)
  exact Nat.lt_of_le_pred (by decide) hmax

/-- With fewer than `2 ^ 32` digests, the derivation of agreed keys gives the first bytes of the stream, one digest if
no length is asked for, and the bytes of the mask if nothing is shared. What is agreed on gives as many bytes of the
stream as are asked for, and one digest at least. -/
theorem readers_agree (shared : Bytes) (h : rounds d len < 2 ^ 32) :
    (∃ u, AgreementKdf.expand d seed shared (some len) = .ok u ∧ Starts d seed shared len u) ∧
    AgreementKdf.expand d seed shared none = .ok (d.hash (seed ++ Bytes.ofNat 4 0 ++ shared)) ∧
    AgreementKdf.expand d seed [] (some len) = .ok (mask d seed len) ∧
    ∀ (f : CurveFamily) (c : Curve) (value peer : Bytes), f.agree c value peer = .ok seed →
      ∃ u, (liftM (f.agree c value peer) >>= fun z => (AgreementKdf.stream d).secret z shared len) = .ok u ∧
        Starts d seed shared (max len d.outputLength) u := by
  have hmax := rounds_max_lt d h
  have hone : rounds d d.outputLength < 2 ^ 32 :=
    Nat.lt_of_le_of_lt ((rounds_le_iff d).2 (Nat.le_of_eq (Nat.one_mul _).symm)) (by decide)
  refine ⟨⟨_, counted_of_rounds d seed shared (Nat.le_of_lt h), starts_stream ..⟩, ?_, ?_, ?_⟩
  · show counted d seed shared d.outputLength = _
    rw [counted_of_rounds d seed shared (Nat.le_of_lt hone), stream_outputLength]
  · rw [mask_eq]
    exact counted_of_rounds d seed [] (Nat.le_of_lt h)
  · intro f c value peer hz
    refine ⟨stream d seed shared (max len d.outputLength), ?_, starts_stream ..⟩
    rw [hz]
    exact counted_of_rounds d seed shared (Nat.le_of_lt hmax)

/-- The value that five times the base point of P-256 gives. -/
theorem exists_agreed : ∃ z, CurveFamily.prime.agree .p256 [5] AgreementPaths.basePoint = .ok z := by
  have h : (CurveFamily.prime.agree .p256 [5] AgreementPaths.basePoint).toOption.isSome = true := by decide +kernel
  obtain ⟨z, hz⟩ := Option.isSome_iff_exists.1 h
  exact ⟨z, Except.ok_of_toOption hz⟩

/-- Two digests exactly are read of what is agreed on over P-256. -/
theorem readers_agree_p256 :
    ∃ z u, CurveFamily.prime.agree .p256 [5] AgreementPaths.basePoint = .ok z ∧ rounds .sha1 40 = 2 ∧
      AgreementKdf.expand .sha1 z [9] (some 40) = .ok u ∧
      u = Digest.sha1.hash (z ++ [0, 0, 0, 0] ++ [9]) ++ Digest.sha1.hash (z ++ [0, 0, 0, 1] ++ [9]) ∧
      AgreementKdf.expand .sha1 z [] (some 40) = .ok (mask .sha1 z 40) ∧
      (liftM (CurveFamily.prime.agree .p256 [5] AgreementPaths.basePoint) >>= fun z =>
        (AgreementKdf.stream .sha1).secret z [9] 40) = .ok u := by
  obtain ⟨z, hz⟩ := exists_agreed
  have hrounds : rounds .sha1 40 < 2 ^ 32 := by decide
  obtain ⟨⟨u, hu, hstarts⟩, -, hmask, hagreed⟩ := readers_agree .sha1 z [9] hrounds
  obtain ⟨u', hu', hstarts'⟩ := hagreed _ _ _ _ hz
  have hfull := hstarts.eq 2 (by decide)
  obtain rfl : u' = u := (hstarts'.eq 2 (by decide)).trans hfull.symm
  refine ⟨z, u', hz, rfl, hu, ?_, hmask, hu'⟩
  -- two digests are no more than the forty bytes, so that nothing is cut off
  have hlen : (Digest.sha1.hash (z ++ [0, 0, 0, 0] ++ [9]) ++
      (Digest.sha1.hash (z ++ [0, 0, 0, 1] ++ [9]) ++ [])).length ≤ 40 := by
    simp only [List.append_nil, List.length_append, Digest.length_hash]
    decide
  rw [← List.append_nil (Digest.sha1.hash (z ++ [0, 0, 0, 1] ++ [9])), hfull]
  exact List.take_of_length_le hlen

end SoftToken.CounterStream
