import SoftToken.Proofs.CheckedStrings
import SoftToken.Proofs.Draws
import SoftToken.Proofs.RsaEncoding
import SoftToken.Rsa.PssSteps
/-!
# The steps of PSS stay within bounds

Where digest and salt fit into the encoding, no step gives up, and the steps give what `encode` and `check`
say: `writeEncoding_eq` and `readEncoding_of_lt`. Each string is kept as an append whose parts have the lengths that
the indices name.
-/

namespace SoftToken

namespace Rsa.Pss

variable {p : Pss} {bits : Nat} {digest em salt : Bytes}

/-! ## Lengths -/

theorem neededLength_of_lt (hw : p.hash.outputLength + p.saltLength + 2 < 2 ^ 64) :
    p.neededLength = .ok (p.hash.outputLength + p.saltLength + 2) := by
  have hsum : p.hash.outputLength + p.saltLength < 2 ^ 64 := by omega
  unfold neededLength Checked.add
  rw [if_pos hsum, Except.ok_bind, if_pos hw]

/-- The guard gives up on lengths that add up to more than a machine word. -/
theorem neededLength_of_le (hw : 2 ^ 64 ≤ p.hash.outputLength + p.saltLength + 2) :
    p.neededLength = .error (.abort .wordOverflow) := by
  unfold neededLength Checked.add
  split
  · rw [Except.ok_bind, if_neg (Nat.not_lt.2 hw)]
  · rfl

theorem not_fits_iff : p.fits bits = false ↔ encodedLength bits < p.hash.outputLength + p.saltLength + 2 := by
  rw [← Bool.not_eq_true, fits_iff, Nat.not_le]

theorem dataLength_of_fits (hf : p.fits bits = true) :
    p.dataLength (encodedLength bits) = .ok (encodedLength bits - p.hash.outputLength - 1) := by
  rw [fits_iff] at hf
  unfold dataLength
  rw [Checked.sub_of_le (by omega), Except.ok_bind, Checked.sub_of_le (by omega)]

theorem topBits_of_fits (hf : p.fits bits = true) : topBits (encodedLength bits) bits = .ok (topMask bits) := by
  rw [fits_iff] at hf
  have hbits : 1 ≤ bits := by unfold encodedLength at hf; omega
  have hle : bits - 1 ≤ 8 * encodedLength bits := by unfold encodedLength; omega
  have hlt : 8 * encodedLength bits - (bits - 1) < 8 := by unfold encodedLength; omega
  unfold topBits
  rw [Checked.sub_of_le hbits, Except.ok_bind, Checked.sub_of_le hle, Except.ok_bind]
  exact if_pos hlt

theorem maskFirst_eq {b : Bytes} (h : 0 < b.length) : maskFirst b (topMask bits) = .ok (clearTop bits b) := by
  cases b with
  | nil => cases h
  | cons x r => rfl

theorem clearTop_append {a : Bytes} (h : 0 < a.length) (b : Bytes) :
    clearTop bits (a ++ b) = clearTop bits a ++ b := by
  cases a with
  | nil => cases h
  | cons x r => rfl

/-! ## Writing -/

/-- The data block: zeros, a one and the salt. -/
theorem writeData_eq (hs : salt.length = p.saltLength) (fill : Nat) (rest : Bytes) :
    p.writeData (Bytes.zeros (fill + 1 + salt.length) ++ rest) (fill + 1 + salt.length) salt =
      .ok (Bytes.zeros fill ++ 1 :: salt ++ rest) := by
  have hstart : Checked.sub (fill + 1 + salt.length) p.saltLength = .ok (fill + 1) := by
    rw [← hs, Checked.sub_of_le (Nat.le_add_left ..), Nat.add_sub_cancel]
  have hplace : Checked.sub (fill + 1) 1 = .ok fill := by
    rw [Checked.sub_of_le (Nat.le_add_left ..), Nat.add_sub_cancel]
  have hone : Checked.write (Bytes.zeros (fill + 1 + salt.length) ++ rest) fill 1 =
      .ok (Bytes.zeros fill ++ 1 :: (Bytes.zeros salt.length ++ rest)) := by
    rw [Bytes.zeros_add, Bytes.zeros_add, List.append_assoc, List.append_assoc]
    exact Checked.write_append (Bytes.length_zeros fill)
  have hsalt : Checked.copy (Bytes.zeros fill ++ [1] ++ Bytes.zeros salt.length ++ rest) (fill + 1)
      (fill + 1 + salt.length) salt = .ok (Bytes.zeros fill ++ [1] ++ salt ++ rest) :=
    Checked.copy_append (by simp) (by simp) (by simp)
  simp only [List.append_assoc, List.cons_append, List.nil_append] at hsalt
  unfold writeData
  simp only [hstart, hplace, hone, hsalt, Except.ok_bind, List.append_assoc, List.cons_append]

/-- Where digest and salt fit, the block is filled with their encoding. -/
theorem writeEncoding_eq (hf : p.fits bits = true) (hs : salt.length = p.saltLength) :
    p.writeEncoding bits digest salt = .ok (p.encode bits digest salt) := by
  have hh : (p.bindingDigest digest salt).length = p.hash.outputLength := Digest.length_hash _ _
  unfold writeEncoding encode
  simp only [dataLength_of_fits hf, topBits_of_fits hf, Except.ok_bind]
  rw [fits_iff] at hf
  generalize p.bindingDigest digest salt = h at *
  obtain ⟨fill, hlen⟩ : ∃ fill, encodedLength bits = fill + 1 + salt.length + h.length + 1 :=
    ⟨encodedLength bits - p.saltLength - p.hash.outputLength - 2, by omega⟩
  have hdata : encodedLength bits - p.hash.outputLength - 1 = fill + 1 + salt.length := by omega
  have hfill : fill + 1 + salt.length - salt.length - 1 = fill := by omega
  have hdb : (Bytes.zeros fill ++ 1 :: salt).length = fill + 1 + salt.length := by
    simp
    omega
  simp only [hdata, hfill]
  generalize hmasked : Bytes.xor (Bytes.zeros fill ++ 1 :: salt)
    (CounterStream.mask p.mask h (fill + 1 + salt.length)) = masked
  have hml : masked.length = fill + 1 + salt.length := by
    rw [← hmasked, Bytes.length_xor, hdb, CounterStream.length_mask, Nat.min_self]
  have hlast : Checked.sub (encodedLength bits) 1 = .ok (fill + 1 + salt.length + h.length) := by
    rw [hlen, Checked.sub_of_le (Nat.le_add_left ..), Nat.add_sub_cancel]
  -- The block is the place of the data block, then the place of the digest and of the last byte.
  have hblock : Bytes.zeros (encodedLength bits) =
      Bytes.zeros (fill + 1 + salt.length) ++ (Bytes.zeros h.length ++ [0]) := by
    rw [hlen, Bytes.zeros_add, Bytes.zeros_add _ h.length, List.append_assoc]
    rfl
  generalize hrest : Bytes.zeros h.length ++ [0] = rest at hblock
  have hdatablock := writeData_eq hs fill rest
  have hslice : Checked.slice (Bytes.zeros fill ++ 1 :: salt ++ rest) 0 (fill + 1 + salt.length) =
      .ok (Bytes.zeros fill ++ 1 :: salt) :=
    Checked.slice_prefix hdb
  have hmask : Checked.copy (Bytes.zeros fill ++ 1 :: salt ++ rest) 0 (fill + 1 + salt.length) masked =
      .ok (masked ++ rest) :=
    Checked.copy_prefix hdb (hml.trans hdb.symm)
  have hfirst : maskFirst (masked ++ rest) (topMask bits) = .ok (clearTop bits masked ++ rest) := by
    rw [maskFirst_eq (by rw [List.length_append]; omega), clearTop_append (by omega)]
  have hdigest : Checked.copy (clearTop bits masked ++ rest) (fill + 1 + salt.length)
      (fill + 1 + salt.length + h.length) h = .ok (clearTop bits masked ++ h ++ [0]) := by
    rw [← hrest, ← List.append_assoc]
    exact Checked.copy_append (by rw [length_clearTop, hml]) (by simp) (by simp)
  have hend : Checked.write (clearTop bits masked ++ h ++ [0]) (fill + 1 + salt.length + h.length) 0xbc =
      .ok (clearTop bits masked ++ h ++ [0xbc]) :=
    Checked.write_append (by rw [List.length_append, length_clearTop, hml])
  simp only [hblock, hdatablock, hslice, hmasked, hmask, hfirst, hlast, hdigest, hend, Except.ok_bind]

/-! ## Reading -/

/-- A string of the length of an encoding has the parts of one. -/
theorem exists_parts (hf : p.fits bits = true) (hl : em.length = encodedLength bits) :
    ∃ masked h y, em = masked ++ h ++ [y] ∧ h.length = p.hash.outputLength ∧
      masked.length = encodedLength bits - p.hash.outputLength - 1 := by
  rw [fits_iff] at hf
  have hne : em ≠ [] := List.ne_nil_of_length_pos (by omega)
  have hfront : em.dropLast.length = encodedLength bits - 1 := by rw [List.length_dropLast, hl]
  refine ⟨em.dropLast.take (encodedLength bits - p.hash.outputLength - 1),
    em.dropLast.drop (encodedLength bits - p.hash.outputLength - 1), em.getLast hne, ?_, ?_, ?_⟩
  · rw [List.take_append_drop, List.dropLast_concat_getLast]
  · rw [List.length_drop]
    omega
  · rw [List.length_take]
    omega

/-- No bit of a byte is cleared if it has none outside of those that are kept. -/
theorem and_eq_self_iff (x t : UInt8) : x &&& t = x ↔ x &&& ~~~t = 0 := by
  have hsplit : (x &&& t) ||| (x &&& ~~~t) = x := by
    apply UInt8.toBitVec_inj.1
    simp only [UInt8.toBitVec_or, UInt8.toBitVec_and, UInt8.toBitVec_not]
    ext i
    simp only [BitVec.getElem_or, BitVec.getElem_and, BitVec.getElem_not]
    cases x.toBitVec[i] <;> cases t.toBitVec[i] <;> rfl
  have hdisjoint : x &&& t &&& ~~~t = 0 := by
    rw [UInt8.and_assoc]
    simp
  constructor
  · intro h
    rw [h] at hdisjoint
    exact hdisjoint
  · intro h
    rw [h] at hsplit
    simpa using hsplit

theorem check_of_not_fits (hf : p.fits bits = false) (hl : em.length = encodedLength bits) :
    p.check bits digest em = false := by
  have hlong : ¬ p.hash.outputLength + p.saltLength + 2 ≤ em.length := by
    rw [hl, Nat.not_le]
    exact not_fits_iff.1 hf
  unfold check
  rw [decide_eq_false hlong]
  simp only [Bool.false_and]

theorem check_append_of_ne {y : UInt8} (h : y ≠ 0xbc) (b : Bytes) : p.check bits digest (b ++ [y]) = false := by
  unfold check
  simp [h]

/-- The salt is what follows the zeros and the one. -/
theorem readSalt_eq {db : Bytes} (h : p.saltLength + 1 ≤ db.length) :
    p.readSalt db = .ok (if (db.take (db.length - p.saltLength - 1)).all (· == 0) &&
        db[db.length - p.saltLength - 1]? == some 1 then
      some (db.drop (db.length - p.saltLength - 1 + 1)) else none) := by
  have hfill : Checked.sub (db.length - p.saltLength) 1 = .ok (db.length - p.saltLength - 1) :=
    Checked.sub_of_le (by omega)
  have hlt : db.length - p.saltLength - 1 < db.length := by omega
  unfold readSalt
  simp only [Checked.sub_of_le (show p.saltLength ≤ db.length by omega), hfill, Except.ok_bind]
  generalize db.length - p.saltLength - 1 = fill at *
  have hzeros : Checked.slice db 0 fill = .ok (db.take fill) := if_pos ⟨Nat.zero_le _, Nat.le_of_lt hlt⟩
  have hone : Checked.byte db fill = .ok db[fill] := dif_pos hlt
  have hsalt : Checked.slice db (fill + 1) db.length = .ok (db.drop (fill + 1)) := by
    unfold Checked.slice
    rw [if_pos ⟨hlt, Nat.le_refl _⟩, List.take_length]
  have hany : (db.take fill).any (· != 0) = !(db.take fill).all (· == 0) := (List.not_all_eq_any_not ..).symm
  have hsome : (db[fill]? == some 1) = (db[fill] == 1) := by rw [List.getElem?_eq_getElem hlt, Option.some_beq_some]
  simp only [hzeros, hone, hsalt, hany, hsome, Except.ok_bind]
  cases (db.take fill).all (· == 0) <;> cases hx : db[fill] == 1 <;> simp only [bne, hx] <;> rfl

theorem readEncoding_of_not_fits (hw : p.hash.outputLength + p.saltLength + 2 < 2 ^ 64) (hf : p.fits bits = false)
    (hl : em.length = encodedLength bits) : p.readEncoding bits digest em = .ok false := by
  have hshort : em.length < p.hash.outputLength + p.saltLength + 2 := by
    rw [hl]
    exact not_fits_iff.1 hf
  unfold readEncoding
  rw [neededLength_of_lt hw, Except.ok_bind, if_pos hshort]
  rfl

/-- A block with the parts of an encoding is read from its ends: the last byte, the first one, and the salt of what is
between, without the mask that the digest gives. -/
theorem readEncoding_parts (hw : p.hash.outputLength + p.saltLength + 2 < 2 ^ 64) (hf : p.fits bits = true)
    {x y : UInt8} {r h : Bytes} (hl : (x :: r ++ h ++ [y]).length = encodedLength bits)
    (hh : h.length = p.hash.outputLength) :
    p.readEncoding bits digest (x :: r ++ h ++ [y]) =
      if y != 0xbc then .ok false
      else if x &&& ~~~topMask bits != 0 then .ok false
      else do
        match ← p.readSalt (clearTop bits (Bytes.xor (x :: r) (CounterStream.mask p.mask h (x :: r).length))) with
        | some salt => return h == p.bindingDigest digest salt
        | none => return false := by
  have hdata := dataLength_of_fits hf
  have htop := topBits_of_fits hf
  rw [fits_iff] at hf
  generalize hmasked : x :: r = masked at *
  have hpos : 0 < masked.length := by simp [← hmasked]
  have hm : encodedLength bits - p.hash.outputLength - 1 = masked.length := by
    rw [← hl, List.length_append, List.length_append, hh]
    exact Nat.sub_eq_of_eq_add (by simp; omega)
  rw [hm, ← hl] at hdata
  rw [← hl] at htop hf
  have hlong : ¬ (masked ++ h ++ [y]).length < p.hash.outputLength + p.saltLength + 2 := Nat.not_lt.2 hf
  have hlast : Checked.sub (masked ++ h ++ [y]).length 1 = .ok (masked.length + h.length) := by
    rw [List.length_append, List.length_append, List.length_singleton, Checked.sub_of_le (Nat.le_add_left 1 _),
      Nat.add_sub_cancel]
  have hend : Checked.byte (masked ++ h ++ [y]) (masked.length + h.length) = .ok y :=
    Checked.byte_append (List.length_append ..)
  have hfirst : Checked.byte (masked ++ h ++ [y]) 0 = .ok x := by
    rw [← hmasked]
    exact Checked.byte_append (a := []) rfl
  have hdigest : Checked.slice (masked ++ h ++ [y]) masked.length (masked.length + h.length) = .ok h :=
    Checked.slice_append rfl rfl
  have hslice : Checked.slice (masked ++ h ++ [y]) 0 masked.length = .ok masked := by
    rw [List.append_assoc]
    exact Checked.slice_prefix rfl
  have hdb : maskFirst (Bytes.xor masked (CounterStream.mask p.mask h masked.length)) (topMask bits) =
      .ok (clearTop bits (Bytes.xor masked (CounterStream.mask p.mask h masked.length))) :=
    maskFirst_eq (by rwa [Bytes.length_xor, CounterStream.length_mask, Nat.min_self])
  unfold readEncoding
  simp only [neededLength_of_lt hw, Except.ok_bind, if_neg hlong, hlast, hend, htop, hfirst, hdata, hdigest, hslice, hdb]
  rfl

/-- Such a block is read as the checker says. -/
theorem readEncoding_append (hw : p.hash.outputLength + p.saltLength + 2 < 2 ^ 64) (hf : p.fits bits = true)
    {x y : UInt8} {r h : Bytes} (hl : (x :: r ++ h ++ [y]).length = encodedLength bits)
    (hh : h.length = p.hash.outputLength) :
    p.readEncoding bits digest (x :: r ++ h ++ [y]) = .ok (p.check bits digest (x :: r ++ h ++ [y])) := by
  rw [readEncoding_parts hw hf hl hh]
  rw [fits_iff, ← hl] at hf
  have hneeded : p.hash.outputLength + p.saltLength + 2 ≤ (x :: r).length + p.hash.outputLength + 1 := by
    rwa [List.length_append, List.length_append, hh] at hf
  by_cases hy : y = 0xbc
  · subst hy
    have hcleared : (clearTop bits (x :: r) == x :: r) = (x &&& ~~~topMask bits == 0) := by
      rw [Bool.eq_iff_iff, beq_iff_eq, beq_iff_eq, ← and_eq_self_iff]
      simp [clearTop]
    have hdbl : (clearTop bits (Bytes.xor (x :: r) (CounterStream.mask p.mask h (x :: r).length))).length =
        (x :: r).length := by
      rw [length_clearTop, Bytes.length_xor, CounterStream.length_mask, Nat.min_self]
    rw [check_append hh]
    generalize clearTop bits (Bytes.xor (x :: r) (CounterStream.mask p.mask h (x :: r).length)) = db at *
    -- What is left on both sides are the same tests: the top bits, the zeros with the one, and the digest.
    rw [readSalt_eq (by omega), hdbl]
    simp only [hcleared, hneeded, decide_true, Bool.true_and, bne, Except.ok_bind]
    rcases Bool.eq_false_or_eq_true (x &&& ~~~topMask bits == 0) with hx | hx <;>
      rcases Bool.eq_false_or_eq_true
        ((db.take ((x :: r).length - p.saltLength - 1)).all (· == 0) &&
          db[(x :: r).length - p.saltLength - 1]? == some 1) with hz | hz <;>
      simp only [Bool.and_assoc, hx, hz] <;> rfl
  · rw [check_append_of_ne hy, if_pos (bne_iff_ne.2 hy)]

/-- The block is read as the checker says. -/
theorem readEncoding_of_lt (hw : p.hash.outputLength + p.saltLength + 2 < 2 ^ 64)
    (hl : em.length = encodedLength bits) :
    p.readEncoding bits digest em = .ok (p.check bits digest em) := by
  cases hf : p.fits bits with
  | false => rw [readEncoding_of_not_fits hw hf hl, check_of_not_fits hf hl]
  | true =>
    obtain ⟨masked, h, y, rfl, hh, hmasked⟩ := exists_parts hf hl
    cases masked with
    | nil =>
      rw [fits_iff] at hf
      simp at hmasked
      omega
    | cons x r => exact readEncoding_append hw hf hl hh

theorem readEncoding_of_le (hw : 2 ^ 64 ≤ p.hash.outputLength + p.saltLength + 2) :
    p.readEncoding bits digest em = .error (.abort .wordOverflow) := by
  unfold readEncoding
  rw [neededLength_of_le hw]
  rfl

/-! ## Encodings with drawn salts -/

/-- A salt is drawn where it fits, and the encoding is the one with that salt. -/
theorem drawEncoding_of_lt (hw : p.hash.outputLength + p.saltLength + 2 < 2 ^ 64) :
    p.drawEncoding bits digest =
      if p.fits bits then do return p.encode bits digest (← Draw.bytes p.saltLength)
      else throw (.error (.bare .keySizeRange)) := by
  unfold drawEncoding
  rw [neededLength_of_lt hw]
  show (if encodedLength bits < _ then _ else _) = _
  cases hf : p.fits bits with
  | false => rw [if_pos (not_fits_iff.1 hf), if_neg Bool.false_ne_true]
  | true =>
    rw [if_neg (Nat.not_lt.2 (fits_iff.1 hf)), if_pos rfl]
    -- Only a drawn salt has the length that the steps need, so both sides are run on a source.
    refine Draw.ext fun t => ?_
    rw [Draw.on_bind, Draw.on_bind]
    rcases hsalt : (Draw.bytes p.saltLength).on t with ⟨e | salt, t'⟩
    · rfl
    · show (p.writeEncoding bits digest salt, t') = (.ok (p.encode bits digest salt), t')
      rw [writeEncoding_eq hf (Draw.length_of_request hsalt)]

theorem drawEncoding_of_le (hw : 2 ^ 64 ≤ p.hash.outputLength + p.saltLength + 2) :
    p.drawEncoding bits digest = throw (.abort .wordOverflow) := by
  unfold drawEncoding
  rw [neededLength_of_le hw]
  rfl

/-- A drawn encoding is the one with the drawn salt. -/
theorem drawEncoding_ok {t t' : RandomSource} : (p.drawEncoding bits digest).on t = (.ok em, t') ↔
    p.hash.outputLength + p.saltLength + 2 < 2 ^ 64 ∧ p.fits bits = true ∧
      ∃ salt, (Draw.bytes p.saltLength).on t = (.ok salt, t') ∧ p.encode bits digest salt = em := by
  rcases Nat.lt_or_ge (p.hash.outputLength + p.saltLength + 2) (2 ^ 64) with hw | hw
  · rw [drawEncoding_of_lt hw]
    cases hf : p.fits bits with
    | false =>
      rw [if_neg Bool.false_ne_true]
      constructor
      · intro h
        cases h
      · rintro ⟨-, h, -⟩
        cases h
    | true =>
      rw [if_pos rfl, Draw.bind_ok]
      constructor
      · rintro ⟨salt, t₁, hsalt, h⟩
        cases h
        exact ⟨hw, rfl, salt, hsalt, rfl⟩
      · rintro ⟨-, -, salt, hsalt, rfl⟩
        exact ⟨salt, t', hsalt, rfl⟩
  · rw [drawEncoding_of_le hw]
    constructor
    · intro h
      cases h
    · rintro ⟨hlt, -⟩
      exact absurd hlt (Nat.not_lt.2 hw)

end Rsa.Pss
end SoftToken
