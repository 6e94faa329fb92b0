import SoftToken.Proofs.Mask
import SoftToken.Proofs.ProducedKeys
import SoftToken.Signature.Mac
/-!
# The length of message authentication codes

`Mac.length_tag`: a code under a key that its algorithm takes has the length the algorithm names, whatever the
message. For CMAC this is the length of a block, which both ciphers keep. AES keeps it because every word of its
key schedule has four bytes (`Aes.length_roundKeys`).
-/

namespace SoftToken

/-! ## AES -/

namespace Aes

/-- A row of words of four bytes each. -/
def Words (ws : List Bytes) : Prop := ∀ w ∈ ws, w.length = 4

theorem words_chunks (b : Bytes) : Words (chunks 4 b) := by
  intro w hw
  obtain ⟨i, hi, rfl⟩ := List.mem_map.1 hw
  have hlt := List.mem_range.1 hi
  rw [List.length_take, List.length_drop]
  omega

theorem length_nextWord {words i : Nat} {rcon : UInt8} {previous back : Bytes} (hp : previous.length = 4)
    (hb : back.length = 4) : (nextWord words i rcon previous back).length = 4 := by
  unfold nextWord
  rw [Bytes.length_xor, hb]
  split
  · match previous, hp with
    | [_, _, _, _], _ => rfl
  · split
    · rw [List.length_map, hp]
      rfl
    · rw [hp]
      rfl

/-- The schedule grows by words, as long as there is a key length of them to start from. -/
theorem words_expandFrom {words : Nat} (hw : 0 < words) (n i : Nat) (rcon : UInt8) {done : List Bytes}
    (hd : Words done) (hl : words ≤ done.length) :
    Words (expandFrom words n i rcon done) ∧ (expandFrom words n i rcon done).length = done.length + n := by
  induction n generalizing i rcon done with
  | zero => exact ⟨hd, rfl⟩
  | succ n ih =>
    have hprevious : (done.headD []).length = 4 := by
      match done, hl with
      | [], hl => exact absurd hl (by simp only [List.length_nil]; omega)
      | w :: _, _ => exact hd w List.mem_cons_self
    have hback : (done.getD (words - 1) []).length = 4 := by
      have hlt : words - 1 < done.length := by omega
      rw [← List.getElem_eq_getD (h := hlt)]
      exact hd _ (List.getElem_mem _)
    have hnext : Words (nextWord words i rcon (done.headD []) (done.getD (words - 1) []) :: done) :=
      List.forall_mem_cons.2 ⟨length_nextWord hprevious hback, hd⟩
    rw [expandFrom]
    obtain ⟨hall, hcount⟩ := ih (i + 1) (if i % words = 0 then double rcon else rcon) hnext
      (by rw [List.length_cons]; omega)
    refine ⟨hall, ?_⟩
    rw [hcount, List.length_cons]
    omega

/-- There is a round key more than rounds, and each is as long as a block. -/
theorem length_roundKeys {key : Bytes} (hk : 4 ≤ key.length) :
    (roundKeys key).length = key.length / 4 + 7 ∧ ∀ k ∈ roundKeys key, k.length = 16 := by
  unfold roundKeys
  refine ⟨by rw [List.length_map, List.length_range], fun k hm => ?_⟩
  obtain ⟨i, hi, rfl⟩ := List.mem_map.1 hm
  have hlt := List.mem_range.1 hi
  have hstart : (chunks 4 key).reverse.length = key.length / 4 := by
    rw [List.length_reverse, chunks, List.length_map, List.length_range]
  have hwords : Words (chunks 4 key).reverse := fun w hw => words_chunks key w (List.mem_reverse.1 hw)
  have hpos : 0 < key.length / 4 := by omega
  obtain ⟨hall, hcount⟩ := words_expandFrom hpos (4 * (key.length / 4 + 7) - key.length / 4) (key.length / 4) 1 hwords
    (by omega)
  rw [hstart] at hcount
  -- four words of the schedule make a round key
  have hfour : ∀ ws : List Bytes, Words ws → ws.flatten.length = ws.length * 4 := by
    intro ws hws
    rw [List.flatten_eq_flatMap]
    exact Bytes.length_flatMap hws
  rw [hfour, List.length_take, List.length_drop, List.length_reverse, hcount]
  · omega
  · intro w hw
    exact hall w (List.mem_reverse.1 (List.mem_of_mem_drop (List.mem_of_mem_take hw)))

theorem size_build (f : Nat → UInt8) : (build f).size = 16 := by
  show ((List.range 16).map f).toArray.size = 16
  rw [List.size_toArray, List.length_map, List.length_range]

theorem size_addKey {s : ByteArray} {k : Bytes} : (addKey s k).size = min s.size k.length := by
  show (List.zipWith (· ^^^ ·) (Bytes.ofArray s) k).toArray.size = _
  rw [List.size_toArray, List.length_zipWith]
  rfl

theorem size_rounds {ks : List Bytes} (hne : ks ≠ []) (hk : ∀ k ∈ ks, k.length = 16) (s : ByteArray) :
    (rounds ks s).size = 16 := by
  induction ks generalizing s with
  | nil => exact absurd rfl hne
  | cons k ks ih =>
    cases ks with
    | nil =>
      rw [rounds, size_addKey, shiftRows, size_build, hk k List.mem_cons_self]
      rfl
    | cons k' ks => exact ih (List.cons_ne_nil _ _) (fun k hm => hk k (List.mem_cons_of_mem _ hm)) _

/-- Encryption keeps the length of a block. -/
theorem length_encrypt {key : Bytes} (hk : 4 ≤ key.length) (block : Bytes) :
    (encrypt (roundKeys key) block).length = 16 := by
  obtain ⟨hcount, hall⟩ := length_roundKeys hk
  match hr : roundKeys key with
  | [] => rw [hr, List.length_nil] at hcount; omega
  | [k] => rw [hr, List.length_singleton] at hcount; omega
  | k :: k' :: ks =>
    rw [hr] at hall
    exact size_rounds (List.cons_ne_nil _ _) (fun k hm => hall k (List.mem_cons_of_mem _ hm)) _

end Aes

/-! ## All codes -/

theorem Camellia.length_encrypt (s : Schedule) (block : Bytes) : (encrypt s block).length = 16 := by
  simp [encrypt]

theorem BlockCipher.length_encryptor {c : BlockCipher} {key : Bytes} {e : Bytes → Bytes}
    (h : c.encryptor? key = some e) (block : Bytes) : (e block).length = blockSize := by
  unfold encryptor? at h
  split at h
  · next hallowed =>
    have hlong : 4 ≤ key.length := by
      have hlength := (c.allowsLength_iff _).1 hallowed
      simp only [List.mem_cons, List.not_mem_nil, or_false] at hlength
      omega
    cases c with
    | aes => cases h; exact Aes.length_encrypt hlong block
    | camellia => cases h; exact Camellia.length_encrypt _ block
  · cases h

namespace Mac

/-- The key is one that the algorithm takes. -/
def Keyed : Mac → Prop
  | hmac _ _ | poly1305 _ => True
  | cmac c key => c.keyType.allowsLength key.length = true

theorem keyed_newCmac {c : BlockCipher} {key : Bytes} {mac : Mac} (h : newCmac c key = .ok mac) : mac.Keyed := by
  unfold newCmac at h
  split at h
  · next hallowed => cases h; exact hallowed
  · cases h

theorem keyed_newPoly1305 {key : Bytes} {mac : Mac} (h : newPoly1305 key = .ok mac) : mac.Keyed := by
  obtain ⟨-, h⟩ := Except.ite_refuse_ok.1 h
  cases h
  trivial

/-- A full code has the length of its algorithm. -/
theorem length_tag {mac : Mac} (h : mac.Keyed) (message : Bytes) : (mac.tag message).length = mac.length := by
  cases mac with
  | hmac d key => exact d.length_hash _
  | cmac c key =>
    obtain ⟨e, he⟩ := BlockCipher.exists_encryptor ((c.allowsLength_iff _).1 h)
    rw [tag, he]
    exact BlockCipher.length_encryptor he _
  | poly1305 key => exact Bytes.length_ofNatLE _ _

end Mac
end SoftToken
