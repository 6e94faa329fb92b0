import SoftToken.Proofs.BitCopies
import SoftToken.Proofs.KeyErrors
import SoftToken.Proofs.RsaInverse
import SoftToken.Proofs.RsaNumbers
import SoftToken.Registry
/-!
# Errors of the primitives

Which primitives can give the general error, and when. Curves, lattices, hash trees and codes never do.
The stream of an agreement does where its counter is too short (`AgreementKdf.fails_secret`), and RSA where
a padding has no room (`Rsa.fails_encrypt`), where a number is not below the modulus or where its root is
not one (`Rsa.fails_sign`).
-/

namespace SoftToken

open SoftToken.Except (Avoids Fails)
open ReturnCode (IsGeneral)

/-! ## Curves -/

namespace Ecdsa

theorem never_drawBelow {P : ReturnCode → Prop} (c : PrimeCurve) (accept : Nat → Bool) (fuel : Nat) :
    (drawBelow c accept fuel).Never P := by
  induction fuel with
  | zero => exact .abort _
  | succ fuel ih =>
    refine (Draw.Never.bytesOrAbort c.size).bind fun b => ?_
    simp only
    split
    · exact .pure _
    · exact ih

theorem avoids_drawNonce (curve : Curve) (c : PrimeCurve) (d : Nat) (z : Bytes) :
    (drawNonce curve c d z).Avoids IsGeneral := by
  unfold drawNonce
  split
  · refine (Draw.Avoids.bytesOrAbort c.size).bind fun extra => ?_
    split
    · exact .pure _
    · exact .abort _
  · exact (never_drawBelow c _ _).avoids

theorem avoids_sign (curve : Curve) (value digest : Bytes) : (sign curve value digest).Avoids IsGeneral := by
  unfold sign
  split
  · exact .throw (show ¬ IsGeneral .curveNotSupported by decide)
  next c _ =>
  split
  · exact .throw (by decide)
  next d _ =>
  refine (avoids_drawNonce curve c d _).bind fun k => ?_
  split
  · exact .pure _
  · exact .throw (by decide)

theorem avoids_verify (curve : Curve) (point digest signature : Bytes) :
    Avoids IsGeneral (verify curve point digest signature) := by
  unfold verify
  split
  · exact .refuse (by decide)
  split
  · exact .fail (by decide)
  split
  · exact .fail (by decide)
  split
  · exact .ok _
  · exact .ok _

theorem avoids_agree (c : PrimeCurve) (value peer : Bytes) : Avoids IsGeneral (agree c value peer) := by
  unfold agree
  split
  · exact .fail (by decide)
  split
  · exact .refuse (by decide)
  · exact .ok _

theorem never_drawKeyPair {P : ReturnCode → Prop} (c : PrimeCurve) : (drawKeyPair c).Never P :=
  (never_drawBelow c _ _).bind fun _ => .pure _

end Ecdsa

theorem Montgomery.avoids_agree (curve : Curve) (c : Montgomery) (value peer : Bytes) :
    Avoids IsGeneral (agree curve c value peer) := by
  unfold agree
  split
  · exact .refuse (by decide)
  split
  · exact .refuse (by decide)
  · simp only
    split
    · exact .refuse (by decide)
    · exact .ok _

namespace CurveFamily

theorem avoids_agree (f : CurveFamily) (c : Curve) (value peer : Bytes) : Avoids IsGeneral (f.agree c value peer) := by
  unfold agree
  simp only
  split
  · split
    · exact Ecdsa.avoids_agree _ value peer
    · exact .refuse (by decide)
  · split
    · exact Montgomery.avoids_agree c _ value peer
    · exact .refuse (by decide)

theorem avoids_drawKeyPair {P : ReturnCode → Prop} (hc : ¬ P .curveNotSupported) (f : CurveFamily) (c : Curve) :
    (f.drawKeyPair c).Avoids P := by
  unfold drawKeyPair
  simp only
  split
  · split
    · exact (Ecdsa.never_drawKeyPair _).avoids
    · exact .throw hc
  · split
    · exact (Draw.Avoids.bytes _).bind fun _ => .pure _
    · exact .throw hc

end CurveFamily

/-! ## Streams of agreed values -/

namespace AgreementKdf

/-- A key of `minimal` bytes takes more digests than a counter of 32 bits has numbers for, though they have room. -/
def Overruns (k : AgreementKdf) (minimal : Nat) : Prop :=
  ∃ d, k = .stream d ∧ 2 ^ 32 < CounterStream.rounds d (max minimal d.outputLength) ∧
    CounterStream.HasRoom d (max minimal d.outputLength)

theorem fails_secret {P : ReturnCode → Prop} {k : AgreementKdf} {z shared : Bytes} {minimal : Nat} :
    Fails P (k.secret z shared minimal) ↔ P .generalError ∧ k.Overruns minimal := by
  cases k with
  | null =>
    refine iff_of_false (Except.not_fails_ok _) ?_
    rintro ⟨-, d, hd, -⟩
    cases hd
  | stream d =>
    have hover : (stream d).Overruns minimal ↔ 2 ^ 32 < CounterStream.rounds d (max minimal d.outputLength) ∧
        CounterStream.HasRoom d (max minimal d.outputLength) := by
      constructor
      · rintro ⟨d', hd, h⟩
        cases hd
        exact h
      · intro h
        exact ⟨d, rfl, h⟩
    rw [hover, secret_stream]
    by_cases hroom : CounterStream.HasRoom d (max minimal d.outputLength)
    · rw [CounterStream.counted_of_room _ _ _ hroom]
      split
      · next h => exact Except.fails_failure.trans (and_iff_left ⟨h, hroom⟩).symm
      · next h => exact iff_of_false (Except.not_fails_ok _) fun hover => h hover.2.1
    · obtain ⟨a, ha⟩ := CounterStream.counted_of_no_room d z shared hroom
      rw [ha]
      exact iff_of_false (Avoids.aborted a) fun hover => hroom hover.2.2

end AgreementKdf

/-! ## Lattices and hash trees -/

namespace MlKem

theorem avoids_readPublic (P : Parameters) (key : Bytes) : Avoids IsGeneral (readPublic P key) := by
  unfold readPublic
  split
  · exact .ok _
  · exact .refuse (by decide)

theorem avoids_encapsulateMessage (P : Parameters) (key message : Bytes) :
    Avoids IsGeneral (encapsulateMessage P key message) := by
  refine (avoids_readPublic P key).bind fun r _ => ?_
  obtain ⟨row, seed⟩ := r
  generalize deriveSecret message (keyDigest key) = derived
  obtain ⟨secret, noiseSeed⟩ := derived
  exact .ok _

theorem avoids_encapsulate (P : Parameters) (key : Bytes) : (encapsulate P key).Avoids IsGeneral := by
  refine (Draw.Avoids.lift (avoids_readPublic P key)).bind fun _ => ?_
  exact (Draw.Avoids.orElse 32 (by decide)).bind fun message => .lift (avoids_encapsulateMessage P key message)

theorem avoids_decapsulate (P : Parameters) (key ciphertext : Bytes) :
    Avoids IsGeneral (decapsulate P key ciphertext) := by
  refine (avoids_readPublic P _).bind fun r _ => ?_
  obtain ⟨row, seed⟩ := r
  simp only
  split
  · exact .refuse (by decide)
  split
  · exact .refuse (by decide)
  next secretRow _ =>
  generalize deriveSecret (decryptMessage P secretRow ciphertext) _ = derived
  obtain ⟨secret, noiseSeed⟩ := derived
  simp only
  split
  · exact .ok _
  · exact .ok _

end MlKem

theorem MlDsa.avoids_sign {Q : ReturnCode → Prop} (P : Parameters) (key message random : Bytes) :
    Avoids Q (sign P key message random) := by
  unfold sign
  simp only
  split
  · exact .ok _
  · exact .aborted _

namespace SlhDsa

variable {Q : ReturnCode → Prop}

theorem avoids_readPrivate (hq : ¬ Q .keyHandleInvalid) (P : Parameters) (b : Bytes) : Avoids Q (readPrivate P b) := by
  unfold readPrivate
  simp only
  split
  · exact .ok _
  · exact .refuse hq

theorem PrivateKey.avoids_drawOpening (hq : ¬ Q .functionFailed) (P : Parameters) (k : PrivateKey)
    (deterministic : Bool) : (k.drawOpening P deterministic).Avoids Q := by
  unfold drawOpening
  split
  · exact .pure _
  · exact (Draw.Avoids.orElse P.n hq).bind fun _ => .pure _

end SlhDsa

theorem fails_checkKeyLength {key : Bytes} {expected : Nat} :
    Fails IsGeneral (checkKeyLength key expected) ↔ key.length ≠ expected := by
  unfold checkKeyLength
  split
  · next h => exact iff_of_false (Except.not_fails_ok _) fun hne => hne h
  · next h => exact iff_of_true (Except.fails_code.2 rfl) h

theorem SignedMessage.avoids_format (prehash : Option Prehash) (context message : Bytes) :
    Avoids IsGeneral (format prehash context message) := by
  unfold format
  split
  · exact .ok _
  · unfold ofDigest
    split
    · exact .fail (by decide)
    · exact .ok _

theorem SigningEngine.avoids_drawLatticeBytes {P : ReturnCode → Prop} (hp : ¬ P .functionFailed) (o : SigningOptions) :
    (drawLatticeBytes o).Avoids P := by
  unfold drawLatticeBytes
  split
  · exact .pure _
  · exact Draw.Avoids.orElse _ hp

theorem avoids_verifyEd25519 (mode : Edwards25519.Mode) (key : Bytes) (point : Edwards25519.Point)
    (data signature : Bytes) : Avoids IsGeneral (verifyEd25519 mode key point data signature) := by
  unfold verifyEd25519
  split
  · exact .ok _
  · exact .fail (by decide)

/-! ## Extracted bits -/

/-- The loop has no errors, it only gives up. -/
theorem DerivationRule.avoids_bitsFrom {P : ReturnCode → Prop} (b : Bytes) (index len : Nat) :
    Avoids P (bitsFrom b index len) := by
  by_cases h : Fits index len
  · rw [bitsFrom_of_fits h]
    exact .ok _
  · obtain ⟨a, ha⟩ := bitsFrom_of_not_fits (b := b) h
    rw [ha]
    exact .aborted a

/-! ## HKDF -/

theorem Checked.avoids_reserve {P : ReturnCode → Prop} (len : Nat) : Avoids P (reserve len) := by
  unfold reserve
  split
  · exact .ok ()
  · exact .aborted _

namespace HkdfSteps

theorem avoids_expandKey (s : HkdfSteps) (prk : Bytes) (len : Nat) : Avoids IsGeneral (s.expandKey prk len) := by
  refine (Checked.avoids_reserve len).bind fun _ _ => ?_
  split
  · exact .lift (.refuse (by decide))
  · exact .ok _

theorem avoids_run (s : HkdfSteps) (ikm : Bytes) (len : Nat) : Avoids IsGeneral (s.run ikm len) := by
  unfold run
  split
  · simp only
    split
    · exact s.avoids_expandKey _ len
    · exact .ok _
  split
  · exact .lift (.refuse (by decide))
  · exact s.avoids_expandKey _ len

end HkdfSteps

/-! ## RSA -/

namespace Rsa

namespace Key

theorem avoids_ofPublic (v : RsaPublicKey) : Avoids IsGeneral (ofPublic v) := by
  unfold ofPublic
  simp only
  split
  · exact .ok _
  · exact .error (show ¬ IsGeneral .attributeValueInvalid by decide)

theorem avoids_ofPrivate (v : RsaPrivateKey) : Avoids IsGeneral (ofPrivate v) := by
  unfold ofPrivate
  simp only
  split
  · split
    · exact .ok _
    · exact .error (show ¬ IsGeneral .attributeValueInvalid by decide)
  · exact .error (show ¬ IsGeneral .attributeValueInvalid by decide)

/-- Blinding has no error of its own, only the random source may fail it. -/
theorem avoids_drawBlinding {P : ReturnCode → Prop} (k : Key) (fuel : Nat) : (k.drawBlinding fuel).Avoids P := by
  induction fuel with
  | zero => exact .abort _
  | succ fuel ih =>
    refine (Draw.Avoids.bytesOrAbort _).bind fun b => ?_
    split
    · exact .pure _
    · exact ih

end Key

theorem never_drawNonZero {P : ReturnCode → Prop} (fuel : Nat) : (drawNonZero fuel).Never P := by
  induction fuel with
  | zero => exact .abort _
  | succ fuel ih =>
    refine (Draw.Never.bytesOrAbort 1).bind fun b => ?_
    split
    · split
      · exact ih
      · exact .pure _
    · exact .abort _

theorem never_replaceZeros {P : ReturnCode → Prop} (b : Bytes) : (replaceZeros b).Never P := by
  induction b with
  | nil => exact .pure _
  | cons x r ih =>
    unfold replaceZeros
    split
    · exact (never_drawNonZero _).bind fun _ => ih.bind fun _ => .pure _
    · exact (Draw.Never.pure x).bind fun _ => ih.bind fun _ => .pure _

variable {k : Key} {data : Bytes} {t : RandomSource}

/-- Data that passes the guard is encoded, or the encoder gives up. -/
theorem Oaep.avoids_drawEncoding {P : ReturnCode → Prop} (o : Oaep)
    (hguard : ¬ (Padding.oaep o).maxData k < data.length) : (o.drawEncoding k.size data).Avoids P := by
  simp only [Padding.maxData, Padding.overhead] at hguard
  rcases Nat.lt_or_ge k.size (o.hash.outputLength + 1) with hs | hseed
  · rw [Oaep.drawEncoding_of_lt hs]
    exact .abort _
  rcases Nat.lt_or_ge k.size (2 * o.hash.outputLength + 1) with hs | hs
  · rw [Oaep.drawEncoding_of_short hseed hs]
    exact .abort _
  · have hpos := o.hash.outputLength_pos
    rw [Oaep.drawEncoding_of_room hs (by omega)]
    exact (Draw.Avoids.bytes _).bind fun _ => .pure _

/-- Filling up a block has no error of the source. It has the general error for empty data only, with a modulus that has
no room for a padding. -/
theorem never_encrypt_pkcs1 {P : ReturnCode → Prop} (hl : ¬ P .dataLenRange)
    (hg : data = [] → k.size < 11 → ¬ P .generalError) : (encrypt k .pkcs1 data).Never P := by
  unfold encrypt
  split
  case isTrue => exact .throw hl
  case isFalse hshort =>
  simp only
  split
  case isTrue hroom =>
    have hmax : data.length ≤ k.size - 11 := Nat.not_lt.1 hshort
    have hdata : data.length = 0 := by omega
    exact .throw (hg (List.length_eq_zero_iff.1 hdata) (by omega))
  case isFalse hroom =>
    refine (Draw.Never.bytesOrAbort _).bind fun b => ?_
    exact (never_replaceZeros b).bind fun filling => .pure _

/-- Encryption has the general error for empty data only, with a modulus that has no room for a padding. -/
theorem avoids_encrypt {P : ReturnCode → Prop} (hl : ¬ P .dataLenRange) {p : Padding}
    (hg : p = .pkcs1 → data = [] → k.size < 11 → ¬ P .generalError) : (encrypt k p data).Avoids P := by
  cases p with
  | pkcs1 => exact (never_encrypt_pkcs1 hl (hg rfl)).avoids
  | oaep o =>
    unfold encrypt
    split
    case isTrue => exact .throw hl
    case isFalse hshort => exact (o.avoids_drawEncoding hshort).bind fun em => .pure _

theorem fails_encrypt {P : ReturnCode → Prop} (hl : ¬ P .dataLenRange) (ht : t.Avoids P) {p : Padding} :
    Fails P ((encrypt k p data).on t).1 ↔ P .generalError ∧ p = .pkcs1 ∧ data = [] ∧ k.size < 11 := by
  by_cases h : P .generalError ∧ p = .pkcs1 ∧ data = [] ∧ k.size < 11
  · refine iff_of_true ?_ h
    obtain ⟨hg, rfl, rfl, hsize⟩ := h
    have hthrow : encrypt k .pkcs1 [] = throw (.error Key.primitiveError) := by simp [encrypt, hsize]
    rw [hthrow]
    exact Except.fails_failure.2 hg
  · refine iff_of_false ((avoids_encrypt hl fun hp hd hs hg => ?_).not_fails ht) h
    exact h ⟨hg, hp, hd, hs⟩

theorem avoids_decrypt (k : Key) (p : Padding) (data : Bytes) : Avoids IsGeneral (decrypt k p data) := by
  unfold decrypt
  split
  · exact .fail (by decide)
  split
  · exact .error (by decide)
  cases p with
  | pkcs1 =>
    simp only
    split
    · exact .ok _
    · exact .error (by decide)
  | oaep o =>
    simp only
    split
    · exact .ok _
    · exact .fail (by decide)

theorem avoids_pkcs1Data (digest : Option Digest) (data : Bytes) : Avoids IsGeneral (pkcs1Data digest data) := by
  unfold pkcs1Data
  split
  · exact .ok _
  split
  · exact .fail (by decide)
  split
  · exact .ok _
  · exact .fail (by decide)

theorem avoids_x931Number (k : Key) (data : Bytes) : Avoids IsGeneral (x931Number k data) := by
  unfold x931Number
  split
  · exact .ok _
  · exact .fail (by decide)

theorem avoids_iso9796Number (k : Key) (data : Bytes) : Avoids IsGeneral (iso9796Number k data) := by
  by_cases hz : 0 < data.length ∧ data.length ≤ Iso9796.maxLength k.bits
  · rw [iso9796Number_of_le hz.1 hz.2]
    split
    · exact .ok _
    · exact .aborted _
  · rw [iso9796Number_refused (by omega)]
    exact .failure (by decide)

theorem Pss.avoids_drawEncoding (p : Pss) (bits : Nat) (digest : Bytes) :
    (p.drawEncoding bits digest).Avoids IsGeneral := by
  rcases Nat.lt_or_ge (p.hash.outputLength + p.saltLength + 2) (2 ^ 64) with hw | hw
  · rw [drawEncoding_of_lt hw]
    split
    · exact (Draw.Avoids.bytes _).bind fun _ => .pure _
    · exact .throw (by decide)
  · rw [drawEncoding_of_le hw]
    exact .abort _

theorem Pss.avoids_readEncoding (p : Pss) {bits : Nat} {em : Bytes} (hl : em.length = encodedLength bits)
    (digest : Bytes) : Avoids IsGeneral (p.readEncoding bits digest em) := by
  rcases Nat.lt_or_ge (p.hash.outputLength + p.saltLength + 2) (2 ^ 64) with hw | hw
  · rw [readEncoding_of_lt hw hl]
    exact .ok _
  · rw [readEncoding_of_le hw]
    exact .aborted _

theorem Scheme.avoids_number (k : Key) (s : Scheme) (data : Bytes) : (s.number k data).Avoids IsGeneral := by
  unfold Scheme.number
  cases s with
  | pkcs1 digest =>
    refine (Draw.Avoids.lift (avoids_pkcs1Data digest data)).bind fun info => ?_
    split
    · exact .pure _
    · exact .throw (by decide)
  | pss p =>
    simp only
    split
    · exact .throw (by decide)
    · exact (p.avoids_drawEncoding _ _).bind fun _ => .pure _
  | x931 => exact .lift (avoids_x931Number k data)
  | iso9796 => exact .liftFailure (avoids_iso9796Number k data)

theorem avoids_verify (k : Key) (s : Scheme) (data signature : Bytes) : Avoids IsGeneral (verify k s data signature) := by
  unfold verify
  split
  · exact .failure (by decide)
  cases s with
  | pkcs1 digest => exact (avoids_pkcs1Data digest data).lift.bind fun _ _ => .ok _
  | pss p =>
    simp only
    split
    · exact .failure (by decide)
    split
    · next em hem =>
      obtain ⟨m, -, hm⟩ := Option.bind_eq_some_iff.1 hem
      exact p.avoids_readEncoding (Bytes.length_of_ofNat? hm) data
    · exact .ok _
  | x931 => exact (avoids_x931Number k data).lift.bind fun _ _ => .ok _
  | iso9796 => exact (avoids_iso9796Number k data).bind fun _ _ => .ok _

/-- Signing data breaks: an X9.31 number is not below the modulus, or what the private operation gives under the drawn
blinding is no root of the number. -/
def SignBreaks (k : Key) (scheme : Scheme) (data : Bytes) (t : RandomSource) : Prop :=
  ∃ m t₁, (scheme.number k data).on t = (.ok m, t₁) ∧
    (scheme = .x931 ∧ k.n ≤ m ∨
      m < k.n ∧ ∃ s b t₂, k.secret = some s ∧ (k.drawBlinding Key.maxRequests).on t₁ = (.ok b, t₂) ∧
        k.encrypt (Key.Secret.blindDecrypt s k b m) ≠ m)

theorem Key.fails_checkRoot {m root : Nat} (hm : m < k.n) : Fails IsGeneral (k.checkRoot m root) ↔ k.encrypt root ≠ m := by
  unfold checkRoot
  split
  · next h => exact iff_of_false (Except.not_fails_ok _) fun hne => hne h.2
  · next h => exact iff_of_true (Except.fails_code.2 rfl) fun he => h ⟨hm, he⟩

theorem Key.fails_signRaw {s : Secret} (hs : k.secret = some s) (ht : t.Avoids IsGeneral) {m : Nat} :
    Fails IsGeneral ((k.signRaw m).on t).1 ↔ k.n ≤ m ∨
      m < k.n ∧ ∃ b t', (k.drawBlinding maxRequests).on t = (.ok b, t') ∧
        k.encrypt (Secret.blindDecrypt s k b m) ≠ m := by
  rcases Nat.lt_or_ge m k.n with hm | hm
  · rw [signRaw_eq hs hm, (k.avoids_drawBlinding maxRequests).fails_bind ht]
    constructor
    · rintro ⟨b, t', hb, h⟩
      exact .inr ⟨hm, b, t', hb, (fails_checkRoot hm).1 (Draw.fails_lift.1 h)⟩
    · rintro (hle | ⟨-, b, t', hb, h⟩)
      · exact absurd hm (Nat.not_lt.2 hle)
      · exact ⟨b, t', hb, Draw.fails_lift.2 ((fails_checkRoot hm).2 h)⟩
  · rw [signRaw_of_le hs hm]
    exact iff_of_true (Except.fails_failure.2 rfl) (.inl hm)

theorem fails_sign {s : Secret} (hk : k.IsPrivate s) (ht : t.Avoids IsGeneral) {scheme : Scheme} :
    Fails IsGeneral ((sign k scheme data).on t).1 ↔ SignBreaks k scheme data t := by
  rw [sign_eq, (Scheme.avoids_number k scheme data).fails_bind ht]
  refine exists_congr fun m => exists_congr fun t₁ => and_congr_right fun hm => ?_
  have ht₁ : t₁.Avoids IsGeneral := ht.of_answer (Draw.answer_of_on hm)
  rw [Draw.fails_bind_left (fun _ => .pure _) ht₁, Key.fails_signRaw hk.secret ht₁]
  constructor
  · rintro (hle | ⟨hlt, b, t₂, hb, h⟩)
    · by_cases hx : scheme = .x931
      · exact .inl ⟨hx, hle⟩
      · exact absurd (Scheme.number_lt (Key.n_pos hk.valid) hx hm) (Nat.not_lt.2 hle)
    · exact .inr ⟨hlt, s, b, t₂, hk.secret, hb, h⟩
  · rintro (⟨-, hle⟩ | ⟨hlt, s', b, t₂, hs, hb, h⟩)
    · exact .inl hle
    · obtain rfl : s = s' := Option.some.inj (hk.secret.symm.trans hs)
      exact .inr ⟨hlt, b, t₂, hb, h⟩

/-- A key whose factors are two different primes breaks in X9.31 only. -/
theorem not_signBreaks_of_prime {s : Secret} (hk : k.IsPrivate s) (hp : s.p.Prime) (hq : s.q.Prime) (hne : s.p ≠ s.q)
    {scheme : Scheme} (hs : scheme ≠ .x931) : ¬ SignBreaks k scheme data t := by
  rintro ⟨m, t₁, -, ⟨hx, -⟩ | ⟨hm, s', b, t₂, hs', hb, h⟩⟩
  · exact hs hx
  · obtain rfl : s = s' := Option.some.inj (hk.secret.symm.trans hs')
    obtain ⟨hroot, hpower⟩ := Key.blindDecrypt_of_prime hk hp hq hne hm (Key.drawBlinding_fits hb)
    exact h (hroot.symm ▸ hpower)

end Rsa
end SoftToken
