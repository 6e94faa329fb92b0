import SoftToken.Checked
import SoftToken.Proofs.Draws
/-!
# Checked steps on strings in parts

A step on a string that is written as an append, with indices that are the lengths of its parts, stays within bounds
and does what its name says.
-/

namespace SoftToken

theorem Bytes.zeros_add (m n : Nat) : zeros (m + n) = zeros m ++ zeros n :=
  (List.replicate_append_replicate ..).symm

namespace Checked

variable {a b c part : Bytes} {x y : UInt8} {start stop : Nat}

theorem sub_of_le {m n : Nat} (h : n ≤ m) : sub m n = .ok (m - n) := if_pos h

theorem mul_of_lt {m n : Nat} (h : m * n < 2 ^ 64) : mul m n = .ok (m * n) := if_pos h

theorem reserve_of_lt {len : Nat} (h : len < 2 ^ 63) : reserve len = .ok () := if_pos h

theorem reserve_of_le {len : Nat} (h : 2 ^ 63 ≤ len) : reserve len = .error (.abort .capacity) :=
  if_neg (Nat.not_lt.2 h)

/-- Without room for what is counted, a sequence is given up whatever its other steps do. -/
theorem bind_reserve_mul_of_le {α : Type} {m n : Nat} (h : 2 ^ 63 ≤ m * n) (f : Unit → Except Failure α) :
    ∃ abort, (mul m n >>= fun len => reserve len >>= f) = .error (.abort abort) := by
  unfold mul
  split
  · rw [Except.ok_bind, reserve_of_le h]
    exact ⟨_, rfl⟩
  · exact ⟨_, rfl⟩

theorem byte_append (h : a.length = start) : byte (a ++ x :: c) start = .ok x := by
  subst h
  unfold byte
  rw [dif_pos (by simp)]
  simp

theorem write_append (h : a.length = start) : write (a ++ x :: c) start y = .ok (a ++ y :: c) := by
  subst h
  unfold write
  rw [if_pos (by simp)]
  simp

theorem slice_append (hs : a.length = start) (he : start + b.length = stop) :
    slice (a ++ b ++ c) start stop = .ok b := by
  subst hs he
  have hin : a.length ≤ a.length + b.length ∧ a.length + b.length ≤ (a ++ b ++ c).length := by simp
  unfold slice
  rw [if_pos hin, ← List.length_append, List.take_left, List.drop_left]

theorem copy_append (hs : a.length = start) (he : start + b.length = stop) (hp : part.length = b.length) :
    copy (a ++ b ++ c) start stop part = .ok (a ++ part ++ c) := by
  subst hs he
  have hin : a.length ≤ a.length + b.length ∧ a.length + b.length ≤ (a ++ b ++ c).length ∧
      part.length = a.length + b.length - a.length := by
    simp [hp]
  unfold copy
  rw [if_pos hin, ← List.length_append, List.drop_left, List.append_assoc a b c, List.take_left]

theorem slice_prefix (h : a.length = stop) : slice (a ++ c) 0 stop = .ok a := by
  have hslice := slice_append (a := []) (b := a) (c := c) rfl (Nat.zero_add a.length)
  rwa [List.nil_append, h] at hslice

theorem copy_prefix (h : a.length = stop) (hp : part.length = a.length) :
    copy (a ++ c) 0 stop part = .ok (part ++ c) := by
  have hcopy := copy_append (a := []) (b := a) (c := c) rfl (Nat.zero_add a.length) hp
  rwa [List.nil_append, List.nil_append, h] at hcopy

theorem slice_suffix (h : a.length = start) : slice (a ++ b) start (a ++ b).length = .ok b := by
  have hstop : start + b.length = (a ++ b).length := by rw [List.length_append, h]
  have hslice := slice_append (b := b) (c := []) h hstop
  rwa [List.append_nil] at hslice

theorem copy_suffix (h : a.length = start) (hp : part.length = b.length) :
    copy (a ++ b) start (a ++ b).length part = .ok (a ++ part) := by
  have hstop : start + b.length = (a ++ b).length := by rw [List.length_append, h]
  have hcopy := copy_append (b := b) (c := []) h hstop hp
  rwa [List.append_nil, List.append_nil] at hcopy

theorem write_of_lt {b : Bytes} {i : Nat} (h : i < b.length) (x : UInt8) :
    write b i x = .ok (b.take i ++ x :: b.drop (i + 1)) := by
  unfold write
  rw [if_pos h, List.set_eq_take_append_cons_drop, if_pos h]

theorem update_of_lt {b : Bytes} {i : Nat} (h : i < b.length) (f : UInt8 → UInt8) :
    update b i f = .ok (b.modify i f) := by
  have hbyte : byte b i = .ok b[i] := dif_pos h
  have hwrite : write b i (f b[i]) = .ok (b.set i (f b[i])) := if_pos h
  unfold update
  rw [hbyte, Except.ok_bind, hwrite, List.modify_eq_set, List.getElem?_eq_getElem h]
  rfl

end Checked

end SoftToken
