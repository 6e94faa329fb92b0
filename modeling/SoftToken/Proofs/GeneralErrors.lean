import SoftToken.Proofs.Authorization
import SoftToken.Proofs.OperationErrors
import SoftToken.Proofs.ParameterUse
import SoftToken.Proofs.RequestErrors
import SoftToken.Proofs.SignerErrors
/-!
# When calls give the general error

The general error is meant for broken invariants of the token, but callers can bring it about. A call
gives it exactly if it breaks, which means that it meets something that no call before it has refused
(`TokenCall.general_error_iff`). Requests, templates, the binding of keys and the pieces of a message
never do.
-/

namespace SoftToken

open SoftToken.Except (Avoids Fails)
open ReturnCode (IsGeneral)

/-! ## Calls -/

/-- A call of the token: a request, a template, a call with a key, or a step of a signer. -/
inductive TokenCall where
  | create (r : Registry) (c : CreateCall) (m : Mechanism)
  | initEncapsulation (e : Encapsulator) (template : List Attribute)
  | initDerivation (g : DerivationGenerator) (template : List Attribute)
  | withKey (c : KeyCall) (key : Object)
  | update (s : Signer) (data : Bytes)
  | sign (s : Signer) (t : RandomSource)
  | verify (s : Signer) (signature : Bytes)

namespace TokenCall

/-- How a call ends, without its result. -/
def outcome : TokenCall → Except Failure Unit
  | create r c m => liftM (r.create c m)
  | initEncapsulation e template => discard (liftM (e.init template) : Except Failure Encapsulator)
  | initDerivation g template => discard (liftM (g.init template) : Except Failure DerivationGenerator)
  | withKey c key => c.outcome key
  | update s data => discard (liftM (s.update data) : Except Failure Signer)
  | sign s t => discard (s.generate.on t).1
  | verify s signature => discard (s.verify signature)

/-- The call meets what no other call has refused before it. -/
def Breaks : TokenCall → Prop
  | withKey (.encapsulate e t) key => e.EncapsulateBreaks key t
  | withKey (.decapsulate e data) key => e.DecapsulateBreaks key data
  | withKey (.generate g) key => g.GenerateBreaks key
  | sign s t => s.GenerateBreaks t
  | verify s signature => s.VerifyBreaks signature
  | _ => False

/-- Signatures are asked of signers that sign, and verdicts of signers that verify. -/
def Directed : TokenCall → Prop
  | sign s _ => s.Runs .signing
  | verify s _ => s.Runs .verifying
  | _ => True

/-- A random source that is asked has no general error of its own; so has every source that never fails. -/
def Sourced : TokenCall → Prop
  | withKey (.encapsulate _ t) _ | sign _ t => t.Avoids IsGeneral
  | _ => True

end TokenCall

theorem Registry.avoids_general_create (r : Registry) (c : CreateCall) (m : Mechanism) :
    Avoids IsGeneral (r.create c m) := by
  have hm : ¬ IsGeneral .mechanismInvalid := by decide
  have hp : ¬ IsGeneral .mechanismParamInvalid := by decide
  cases c with
  | encapsulation key => exact (avoids_encapsulator hp hm (by decide) m key).discard
  | signature preference => exact (avoids_signatureMethod hp hm preference m).discard
  | derivation store =>
    refine Avoids.discard fun h => ?_
    exact absurd ((fails_derivationGenerator hp hm m store).1 h).1 (by decide)

theorem KeyCall.fails_outcome {c : KeyCall} {key : Object} (h : TokenCall.Sourced (.withKey c key)) :
    Fails IsGeneral (c.outcome key) ↔ TokenCall.Breaks (.withKey c key) := by
  cases c with
  | encapsulatedLength e => exact iff_false_intro (e.avoids_encapsulatedLength key).lift.discard
  | encapsulate e t => exact Except.fails_discard.trans (Encapsulator.fails_encapsulate h)
  | decapsulate e data => exact Except.fails_discard.trans Encapsulator.fails_decapsulate
  | generate g => exact Except.fails_discard.trans DerivationGenerator.fails_generate
  | openSigner m d => exact iff_false_intro (m.avoids_bindTowards key d).lift.discard

/-- A call gives the general error exactly if it breaks. -/
theorem TokenCall.general_error_iff {c : TokenCall} (h : c.Directed) (ht : c.Sourced) :
    (∃ e, c.outcome = .error (.error e) ∧ e.code = .generalError) ↔ c.Breaks := by
  have hcode : (∃ e, c.outcome = .error (.error e) ∧ e.code = .generalError) ↔ Fails IsGeneral c.outcome := by
    constructor
    · rintro ⟨e, he, hc⟩
      exact ⟨_, _, he, rfl, hc⟩
    · rintro ⟨f, code, he, hc, hg⟩
      cases f with
      | error e =>
        cases hc
        exact ⟨e, he, hg⟩
      | abort a => cases hc
  rw [hcode]
  cases c with
  | create r c m => exact iff_false_intro (r.avoids_general_create c m).lift
  | initEncapsulation e template => exact iff_false_intro (e.avoids_init template).lift.discard
  | initDerivation g template => exact iff_false_intro (g.avoids_init template).lift.discard
  | withKey c key => exact KeyCall.fails_outcome ht
  | update s data => exact iff_false_intro (s.avoids_update data).lift.discard
  | sign s t => exact Except.fails_discard.trans (Signer.fails_generate (Signer.Runs.sound h) ht)
  | verify s signature => exact Except.fails_discard.trans (Signer.fails_verify (Signer.Runs.sound h))

/-! ## A key of one byte -/

namespace GeneralErrors

/-- An ML-DSA private key of one byte. Its parameter set asks for 2560 bytes. -/
def shortPrivate : Object := (SetKey.toPrivate ⟨1, [0]⟩ .mlDsa).put (.ofBool .sign true)

/-- How a call fails. -/
def failure? : Except Failure Unit → Option Failure
  | .ok _ => none
  | .error f => some f

theorem error_of_failure {x : Except Failure Unit} {f : Failure} (h : failure? x = some f) : x = .error f := by
  cases x with
  | ok _ => cases h
  | error f' => cases h; rfl

/-- The key is bound to a signer, which then fails. -/
theorem short_signer : ∃ s, Registry.full.openSigner .deterministic ⟨.mlDsa, []⟩ shortPrivate .signing = .ok s ∧
    TokenCall.outcome (.sign s .zeros) = .error (.error (.outside .lengthMismatch)) := by
  have h : ((Registry.full.openSigner .deterministic ⟨.mlDsa, []⟩ shortPrivate .signing).toOption.map fun s =>
      failure? (TokenCall.outcome (.sign s .zeros))) = some (some (.error (.outside .lengthMismatch))) := by
    decide +kernel
  obtain ⟨s, hs, hf⟩ := Option.map_eq_some_iff.1 h
  exact ⟨s, Except.ok_of_toOption hs, error_of_failure hf⟩

end GeneralErrors

open GeneralErrors in
/-- Signing with the key breaks. -/
theorem TokenCall.general_error_iff_short :
    ∃ s, Registry.full.openSigner .deterministic ⟨.mlDsa, []⟩ shortPrivate .signing = .ok s ∧ Breaks (.sign s .zeros) := by
  obtain ⟨s, hs, hf⟩ := short_signer
  have hd : Directed (.sign s .zeros) := Signer.Runs.opened hs
  exact ⟨s, hs, (general_error_iff hd (RandomSource.avoids_tape _)).1 ⟨_, hf, rfl⟩⟩

open GeneralErrors in
/-- A key object of one byte makes the general error reachable: it is bound for signing, and the signature of
the empty message fails with nothing but that code. -/
theorem TokenCall.short_key_gives_general_error :
    ∃ s e, Registry.full.openSigner .deterministic ⟨.mlDsa, []⟩ shortPrivate .signing = .ok s ∧
      Directed (.sign s .zeros) ∧ outcome (.sign s .zeros) = .error (.error e) ∧ e.code = .generalError := by
  obtain ⟨s, hs, hf⟩ := short_signer
  exact ⟨s, _, hs, Signer.Runs.opened hs, hf, rfl⟩

end SoftToken
