import SoftToken.Config
import SoftToken.Proofs.SignerRuns
/-!
# Permissions and single use of signers

Two laws over every run of a signer made by a registered mechanism. A signature is only made with a key
that allows signing, and the call that makes or verifies a signature is the last one answered. Both hold
for the signers that work with an engine. The codes break both: a code bound for verification also makes
signatures, and a signature of the wrong length is refused without ending the operation.
-/

namespace SoftToken

namespace Signer

variable {s : Signer}

/-- A signer bound for verification with an engine makes no signature in any run. -/
theorem not_generated_of_verifying {digest : Option Digest} {e : VerifyingEngine}
    (hc : s.core = .verifying digest e) (cs : List Call) (t : RandomSource) (a : Answer) :
    (Call.generate, .ok a) ∉ s.answers cs t := by
  induction cs generalizing s t with
  | nil => nofun
  | cons c cs ih =>
    intro hm
    rcases List.mem_cons.1 hm with hm | hm
    · obtain ⟨rfl, ha⟩ := Prod.mk.injEq .. ▸ hm
      cases he : s.ended with
      | false => rw [answer_generate_verifying hc he] at ha; cases ha
      | true => rw [answer_ended he rfl] at ha; cases ha
    · exact ih ((core_next s c).trans hc) _ hm

end Signer

namespace Registry

open Signer

variable {g : Registry} {preference : HedgePreference} {m : Mechanism} {key : Object} {d : Direction}
  {s : Signer} {f : MechanismFamily}

/-- Signatures are made only with keys that allow signing, exactly when a code bound for verification
has a key that allows signing as well. -/
theorem generates_only_with_sign_iff (hf : g.find? m.id = some f)
    (h : g.openSigner preference m key d = .ok s) :
    (∀ cs t a, (Call.generate, .ok a) ∈ s.answers cs t → key.flag .sign false = true) ↔
      (f.isCode = true → d = .verifying → key.flag .sign false = true) := by
  obtain ⟨hu, he, hm, hs⟩ := opened hf h
  constructor
  · intro hall hcode _
    rw [hcode] at hs
    obtain ⟨mac, length, hc⟩ := exists_mac_of_code hs
    refine hall [.generate] .zeros (.signature (code mac length s.message)) ?_
    unfold answers
    rw [answer_generate_mac hc he]
    exact List.mem_cons_self
  · intro hexcept cs t a ha
    cases hc : s.core with
    | mac mac length =>
      rw [hc] at hs
      cases d with
      | signing => exact hu
      | verifying => exact hexcept hs rfl
    | signing digest e =>
      rw [hc] at hs
      obtain ⟨-, rfl⟩ := hs
      exact hu
    | verifying digest e => exact absurd ha (not_generated_of_verifying hc cs t a)

/-- A run is single use exactly when, of two calls of which the first asks for the signature or the
verdict, none brings a signature of the wrong length for a code. All runs are, exactly when the
mechanism is no code. -/
theorem single_use_iff (hf : g.find? m.id = some f) (h : g.openSigner preference m key d = .ok s) :
    (∀ cs t, SingleUse (s.answers cs t) ↔
      cs.Pairwise fun c c' => c.isFinal = true → s.refuses c = false ∧ s.refuses c' = false) ∧
    ((∀ cs t, SingleUse (s.answers cs t)) ↔ f.isCode = false) := by
  obtain ⟨-, he, -, hs⟩ := opened hf h
  refine ⟨singleUse_answers he, fun hall => Bool.eq_false_iff.2 fun hcode => ?_, fun hcode cs t => ?_⟩
  · -- A signature one byte too long is refused, and the next call is answered all the same.
    rw [hcode] at hs
    obtain ⟨mac, length, hc⟩ := exists_mac_of_code hs
    have hu := (singleUse_answers he _ _).1 (hall [.verify (Bytes.zeros (length + 1)), .generate] .zeros)
    have hr := ((List.pairwise_cons.1 hu).1 _ List.mem_cons_self rfl).1
    simp [refuses, refusesLength, hc] at hr
  · rw [hcode] at hs
    have hr := refuses_of_engine hs
    exact (singleUse_answers he cs t).2 (List.pairwise_of_forall_mem_list fun c _ c' _ _ => ⟨hr c, hr c'⟩)

/-- A secret key that allows verification and nothing else. -/
def verifyOnlyKey : Object :=
  .newKey .secretKey .genericSecret [.ofBytes .value [0x6b, 0x65, 0x79], .ofBool .verify true]

/-- The verifier of an HMAC under that key. -/
def verifyOnlySigner : Signer :=
  { mechanism := .sha256Hmac, core := .mac (.hmac .sha256 [0x6b, 0x65, 0x79]) 32 }

theorem find_sha256Hmac : full.find? .sha256Hmac = some .hmac := by decide +kernel

theorem open_verifyOnly :
    full.openSigner .randomized ⟨.sha256Hmac, []⟩ verifyOnlyKey .verifying = .ok verifyOnlySigner := by
  unfold openSigner signatureMethod findFor Registry.find
  simp only [find_sha256Hmac]
  rfl

theorem generates_only_with_sign_iff_hmac :
    full.find? .sha256Hmac = some .hmac ∧
      full.openSigner .randomized ⟨.sha256Hmac, []⟩ verifyOnlyKey .verifying = .ok verifyOnlySigner ∧
      ((∀ cs t a, (Call.generate, .ok a) ∈ verifyOnlySigner.answers cs t → verifyOnlyKey.flag .sign false = true) ↔
        (MechanismFamily.hmac.isCode = true → Direction.verifying = .verifying →
          verifyOnlyKey.flag .sign false = true)) :=
  ⟨find_sha256Hmac, open_verifyOnly, generates_only_with_sign_iff find_sha256Hmac open_verifyOnly⟩

/-- An HMAC verifier makes a tag under a key that does not allow signing. -/
theorem verifier_generates_hmac :
    full.openSigner .randomized ⟨.sha256Hmac, []⟩ verifyOnlyKey .verifying = .ok verifyOnlySigner ∧
      verifyOnlyKey.flag .sign false = false ∧
      ∃ a, (Call.generate, .ok a) ∈ verifyOnlySigner.answers [.generate] .zeros :=
  ⟨open_verifyOnly, rfl, _, List.mem_cons_self⟩

theorem single_use_iff_hmac :
    full.find? .sha256Hmac = some .hmac ∧
      full.openSigner .randomized ⟨.sha256Hmac, []⟩ verifyOnlyKey .verifying = .ok verifyOnlySigner ∧
      (∀ cs t, SingleUse (verifyOnlySigner.answers cs t) ↔ cs.Pairwise fun c c' =>
        c.isFinal = true → verifyOnlySigner.refuses c = false ∧ verifyOnlySigner.refuses c' = false) ∧
      ((∀ cs t, SingleUse (verifyOnlySigner.answers cs t)) ↔ MechanismFamily.hmac.isCode = false) :=
  ⟨find_sha256Hmac, open_verifyOnly, single_use_iff find_sha256Hmac open_verifyOnly⟩

/-- A tag that is too short does not end an HMAC verification: the next call is answered. -/
theorem refused_length_keeps_hmac_open :
    full.openSigner .randomized ⟨.sha256Hmac, []⟩ verifyOnlyKey .verifying = .ok verifyOnlySigner ∧
      ¬ SingleUse (verifyOnlySigner.answers [.verify [0], .update []] .zeros) := by
  refine ⟨open_verifyOnly, ?_⟩
  rw [singleUse_answers rfl]
  decide

end Registry
end SoftToken
