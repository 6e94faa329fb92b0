import SoftToken.Proofs.CodeLength
import SoftToken.Proofs.HashBound
import SoftToken.Proofs.HashSignatureLength
import SoftToken.Proofs.RsaNumbers
import SoftToken.Proofs.SignerLaws
/-!
# Signatures have the reported length

A signer reports the length of its signatures before there is one. Whatever it signs has that length, and a signer
for verification refuses every string of another length before it looks at anything else
(`Registry.signature_length`). The reported length comes from the key or a table, the signature from the primitive;
binding a method to a key makes the two agree (`SignerCore.Sized`).
-/

namespace SoftToken

/-! ## Engines -/

/-- A signature is two numbers, each as long as a coordinate. -/
theorem Ecdsa.length_sign {curve : Curve} {value digest sig : Bytes} {t t' : RandomSource}
    (h : (sign curve value digest).on t = (.ok sig, t')) : sig.length = 2 * curve.keySize := by
  unfold sign at h
  split at h
  · cases h
  next c hc =>
    split at h
    · cases h
    next d _ =>
      obtain ⟨k, t₁, -, h⟩ := Draw.bind_ok.1 h
      split at h
      · cases h
        rw [List.length_append, Bytes.length_ofNat, Bytes.length_ofNat, ← Nat.two_mul]
        cases curve <;> cases hc <;> rfl
      · cases h

theorem Ecdsa.verify_wrongLength {curve : Curve} (hc : curve.keyType = .ec) (point digest : Bytes) {sig : Bytes}
    (h : sig.length ≠ 2 * curve.keySize) : verify curve point digest sig = fail .signatureLenRange := by
  unfold verify
  cases curve with
  | p256 | p384 | p521 => exact if_pos h
  | _ => exact absurd hc (by decide)

theorem Edwards25519.length_sign (seed : Bytes) (mode : Mode) (message : Bytes) :
    (sign seed mode message).length = signatureLength := by
  simp [sign, encode, signatureLength]

theorem Rsa.length_sign {k : Key} {s : Scheme} {data sig : Bytes} {t t' : RandomSource}
    (h : (sign k s data).on t = (.ok sig, t')) : sig.length = k.size := by
  rw [sign_eq] at h
  obtain ⟨m, t₁, -, h⟩ := Draw.bind_ok.1 h
  obtain ⟨root, t₂, -, h⟩ := Draw.bind_ok.1 h
  cases h
  exact Bytes.length_ofNat _ _

theorem Rsa.verify_wrongLength {k : Key} (s : Scheme) (data : Bytes) {sig : Bytes} (h : sig.length ≠ k.size) :
    verify k s data sig = .error (.error (.bare .signatureLenRange)) := by
  unfold verify
  exact if_pos h

/-- The size that a key's parameter set gives is that of the scheme's signatures. -/
def SigningEngine.Sized : SigningEngine → Prop
  | mlDsa set sizes _ _ => set.signatureSize = sizes.output
  | slhDsa set sizes _ _ => set.n ≤ 32 ∧ set.signatureSize = sizes.output
  | _ => True

theorem SigningEngine.length_sign {e : SigningEngine} (he : e.Sized) {data sig : Bytes} {t t' : RandomSource}
    (h : (e.sign data).on t = (.ok sig, t')) : sig.length = e.signatureLength := by
  cases e with
  | rsa scheme k => exact Rsa.length_sign h
  | ecdsa c value => exact Ecdsa.length_sign h
  | ed25519 mode seed =>
    cases h
    exact Edwards25519.length_sign _ _ _
  | mlDsa set sizes o key =>
    obtain ⟨_, -, h⟩ := Draw.bind_lift_ok.1 h
    obtain ⟨message, -, h⟩ := Draw.bind_lift_ok.1 h
    obtain ⟨random, t₁, -, h⟩ := Draw.bind_ok.1 h
    obtain ⟨h, -⟩ := Prod.mk.injEq .. ▸ h
    exact (MlDsa.length_sign h).trans he
  | slhDsa set sizes o key =>
    obtain ⟨_, -, h⟩ := Draw.bind_lift_ok.1 h
    obtain ⟨k, -, h⟩ := Draw.bind_lift_ok.1 h
    obtain ⟨message, -, h⟩ := Draw.bind_lift_ok.1 h
    obtain ⟨opened, t₁, -, h⟩ := Draw.bind_ok.1 h
    cases h
    exact (SlhDsa.PrivateKey.length_sign he.1 k message opened).trans he.2

/-- The curve of a key for ECDSA is a prime curve. -/
def VerifyingEngine.Sized : VerifyingEngine → Prop
  | ecdsa c _ => c.keyType = .ec
  | _ => True

/-- Every engine looks at the length of a signature first. -/
theorem VerifyingEngine.verify_wrongLength {e : VerifyingEngine} (he : e.Sized) (data : Bytes) {sig : Bytes}
    (h : sig.length ≠ e.signatureLength) : e.verify data sig = .error (.error (.bare .signatureLenRange)) := by
  cases e with
  | rsa scheme k => exact Rsa.verify_wrongLength scheme data h
  | ecdsa c point =>
    show (liftM (Ecdsa.verify c point data sig) : Except Failure Bool) = _
    rw [Ecdsa.verify_wrongLength he point data h]
    rfl
  | ed25519 mode key point =>
    have hrefused : verifyEd25519 mode key point data sig = fail .signatureLenRange := if_neg h
    show (liftM (verifyEd25519 mode key point data sig) : Except Failure Bool) = _
    rw [hrefused]
    rfl
  | mlDsa set sizes o key | slhDsa set sizes o key =>
    have hcheck : checkLength sig sizes = fail .signatureLenRange := if_neg h
    show (liftM (checkLength sig sizes) >>= _ : Except Failure Bool) = _
    rw [hcheck]
    rfl

/-! ## Binding -/

/-- A core as binding makes it: a code is no longer than its algorithm gives, an engine fits its key. -/
def SignerCore.Sized : SignerCore → Prop
  | mac code length => code.Keyed ∧ length ≤ code.length
  | signing _ e => e.Sized
  | verifying _ e => e.Sized

namespace SignatureMethod

open SignatureScheme

variable {m : SignatureMethod} {key : Object}

theorem sized_ofMac {id : MechanismId} {mac : Mac} (hm : mac.Keyed) {requested : Option Nat} {s : Signer}
    (h : Signer.ofMac id mac requested = .ok s) : s.core.Sized := by
  unfold Signer.ofMac at h
  simp only at h
  split at h
  · cases h
  · next hle => cases h; exact ⟨hm, Nat.not_lt.1 hle⟩

theorem sized_bindCode {usage : AttributeId} {code : Except Error Signer} {s : Signer}
    (hc : m.bindCode? key usage = some code) (h : code = .ok s) : s.core.Sized := by
  unfold bindCode? at hc
  split at hc
  · cases hc
    obtain ⟨secret, -, h⟩ := Except.bind_ok.1 h
    exact sized_ofMac (show Mac.Keyed (.hmac _ _) from trivial) h
  · cases hc
    obtain ⟨secret, -, h⟩ := Except.bind_ok.1 h
    obtain ⟨mac, hmac, h⟩ := Except.bind_ok.1 h
    exact sized_ofMac (Mac.keyed_newCmac hmac) h
  · cases hc
    obtain ⟨secret, -, h⟩ := Except.bind_ok.1 h
    obtain ⟨mac, hmac, h⟩ := Except.bind_ok.1 h
    exact sized_ofMac (Mac.keyed_newPoly1305 hmac) h
  · cases hc

theorem mlDsaSet_ok {set : UInt64} {P : MlDsa.Parameters} {sizes : ParameterSizes} (h : mlDsaSet set = .ok (P, sizes)) :
    P.signatureSize = sizes.output := by
  unfold mlDsaSet at h
  split at h
  · next hP hs => cases h; exact MlDsa.signatureSize_eq hP hs
  · cases h

theorem slhDsaSet_ok {set : UInt64} {P : SlhDsa.Parameters} {sizes : ParameterSizes}
    (h : slhDsaSet set = .ok (P, sizes)) : P.n ≤ 32 ∧ P.signatureSize = sizes.output := by
  unfold slhDsaSet at h
  split at h
  · next hP hs => cases h; exact SlhDsa.signatureSize_eq hP hs
  · cases h

theorem sized_signingEngine {r : Option Digest × SigningEngine} (h : m.signingEngine key = .ok r) : r.2.Sized := by
  have hr := signingEngine_ok h
  generalize m.scheme = scheme at hr
  cases hr with
  | mlDsa _ hset => exact mlDsaSet_ok hset
  | slhDsa _ hset => exact slhDsaSet_ok hset
  | _ => trivial

theorem sized_verifyingEngine {r : Option Digest × VerifyingEngine} (h : m.verifyingEngine key = .ok r) :
    r.2.Sized := by
  have hr := verifyingEngine_ok h
  generalize m.scheme = scheme at hr
  cases hr with
  | ecdsa hv => exact EcPublicKey.keyType_of_ofObject hv
  | _ => trivial

theorem sized_bindTowards {d : Direction} {s : Signer} (h : m.bindTowards key d = .ok s) : s.core.Sized := by
  cases makes_of_bindTowards h with
  | code hc => exact sized_bindCode hc rfl
  | signing hc he => exact sized_signingEngine he
  | verifying hc he => exact sized_verifyingEngine he

end SignatureMethod

/-! ## Signers -/

namespace Signer

variable {s : Signer} {t t' : RandomSource} {sig : Bytes}

theorem length_code {mac : Mac} {length : Nat} (hm : mac.Keyed) (hl : length ≤ mac.length) (message : Bytes) :
    (code mac length message).length = length := by
  rw [code, List.length_take, Mac.length_tag hm, Nat.min_eq_left hl]

/-- A call that gives a signature gives one of the reported length. -/
theorem length_answer (hs : s.core.Sized) {c : Call} (h : (s.answer c).on t = (.ok (.signature sig), t')) :
    sig.length = s.signatureLength := by
  cases c with
  | update data =>
    obtain ⟨_, t₁, -, h⟩ := Draw.bind_ok.1 h
    cases h
  | verify signature =>
    obtain ⟨valid, -, h⟩ := Draw.bind_liftFailure_ok.1 h
    cases h
  | generate =>
    obtain ⟨sig', t₁, hg, h⟩ := Draw.bind_ok.1 h
    cases h
    obtain ⟨_, -, hg⟩ := Draw.bind_lift_ok.1 hg
    unfold signatureLength
    cases hc : s.core with
    | mac mac length =>
      rw [hc] at hg hs
      cases hg
      exact length_code hs.1 hs.2 _
    | signing digest e =>
      rw [hc] at hg hs
      exact SigningEngine.length_sign hs hg
    | verifying digest e =>
      rw [hc] at hg
      cases hg

theorem signatureLength_congr {s s' : Signer} (h : s.core = s'.core) : s.signatureLength = s'.signatureLength := by
  unfold signatureLength
  rw [h]

/-- Whatever a run of calls signs has the reported length. -/
theorem length_of_answers (hs : s.core.Sized) {cs : List Call} {c : Call}
    (h : (c, .ok (.signature sig)) ∈ s.answers cs t) : sig.length = s.signatureLength := by
  induction cs generalizing s t with
  | nil => cases h
  | cons c' cs ih =>
    -- calls change the message and the end of the operation, never the core
    have hcore := core_next s c'
    rcases List.mem_cons.1 h with heq | h
    · obtain ⟨rfl, ha⟩ := Prod.mk.injEq .. ▸ heq
      exact length_answer hs (Prod.ext ha.symm rfl)
    · rw [← signatureLength_congr hcore]
      exact ih (hcore ▸ hs) h

/-- A signature of another length is refused by an open signer that verifies. -/
theorem answer_wrongLength (hs : s.core.Sized) (hopen : s.ended = false) {code : Bool}
    (hd : s.core.Serves code .verifying) (h : sig.length ≠ s.signatureLength) :
    (s.answer (.verify sig)).on t = (wrongLength, t) := by
  cases hc : s.core with
  | mac mac length =>
    unfold signatureLength at h
    rw [hc] at h
    exact answer_refused (by simpa [refuses, refusesLength, hc] using h)
  | signing digest e =>
    rw [hc] at hd
    cases hd.2
  | verifying digest e =>
    unfold signatureLength at h
    rw [hc] at h hs
    have hv : s.verify sig = .error (.error (.bare .signatureLenRange)) := by
      unfold verify
      simp only [hc, requireOpen_open hopen]
      exact VerifyingEngine.verify_wrongLength hs _ h
    unfold answer
    simp only [hv]
    rfl

end Signer

/-! ## From the registry -/

namespace Registry

open Signer

variable {g : Registry} {preference : HedgePreference} {m : Mechanism} {key : Object} {d : Direction} {s : Signer}

theorem sized_openSigner (h : g.openSigner preference m key d = .ok s) : s.core.Sized := by
  obtain ⟨sm, -, h⟩ := Except.bind_ok.1 h
  exact SignatureMethod.sized_bindTowards h

/-- Every signature that a signer makes has the length that the signer reports. A new signer for verification
answers a string of another length, after any message, by the code for wrong lengths. -/
theorem signature_length (h : g.openSigner preference m key d = .ok s) :
    (∀ cs t c sig, (c, .ok (.signature sig)) ∈ s.answers cs t → sig.length = s.signatureLength) ∧
    (d = .verifying → ∀ (pieces : List Bytes) sig t, sig.length ≠ s.signatureLength →
      s.answers (pieces.map .update ++ [.verify sig]) t =
        pieces.map (fun piece => (.update piece, .ok .updated)) ++ [(.verify sig, wrongLength)]) := by
  have hs := sized_openSigner h
  refine ⟨fun cs t c sig => length_of_answers hs, ?_⟩
  rintro rfl pieces sig t hsig
  obtain ⟨sm, hm, hb⟩ := Except.bind_ok.1 h
  obtain ⟨-, hopen, -, hserves⟩ := SignatureMethod.bound hb
  rw [answers_updates hopen]
  unfold answers
  rw [answer_wrongLength (s := s.withMessage (s.message ++ pieces.flatten)) hs hopen hserves hsig]
  rfl

open HashBound in
/-- A text is signed by RSA, and one byte is refused as its code by HMAC. -/
theorem signature_length_runs :
    (∃ s c sig, full.openSigner .randomized ⟨.sha256RsaPkcs, []⟩ signingKey .signing = .ok s ∧
      (c, .ok (.signature sig)) ∈ s.answers [.update text, .generate] .zeros ∧ sig.length = s.signatureLength) ∧
    full.openSigner .randomized ⟨.sha256Hmac, []⟩ verifyOnlyKey .verifying = .ok verifyOnlySigner ∧
      verifyOnlySigner.answers [.update text, .verify [0]] .zeros =
        [(.update text, .ok .updated), (.verify [0], wrongLength)] := by
  refine ⟨?_, open_verifyOnly, (signature_length open_verifyOnly).2 rfl [text] [0] .zeros (by decide)⟩
  have hsigned : ((full.openSigner .randomized ⟨.sha256RsaPkcs, []⟩ signingKey .signing).toOption.bind fun s =>
      (((s.next (.update text)).answer .generate).on ((s.answer (.update text)).on .zeros).2).1.toOption).isSome := by
    decide +kernel
  obtain ⟨a, ha⟩ := Option.isSome_iff_exists.1 hsigned
  obtain ⟨s, hs, ha⟩ := Option.bind_eq_some_iff.1 ha
  have hopen := Except.ok_of_toOption hs
  have hanswer := Except.ok_of_toOption ha
  obtain ⟨sig, t, -, hsig⟩ := Draw.bind_ok.1 (Prod.ext hanswer rfl)
  obtain ⟨rfl, -⟩ := Draw.pure_ok.1 hsig
  have hmem : (.generate, .ok (.signature sig)) ∈ s.answers [.update text, .generate] .zeros := by
    rw [answers, answers, hanswer]
    exact List.mem_cons_of_mem _ List.mem_cons_self
  exact ⟨s, _, sig, hopen, hmem, (signature_length hopen).1 _ _ _ _ hmem⟩

end Registry
end SoftToken
