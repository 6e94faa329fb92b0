import Mathlib.Logic.Unique
import SoftToken.Proofs.PrimitiveErrors
import SoftToken.Proofs.SignerRuns
/-!
# Errors of signers

Which signers give the general error. Binding a key never does. An open signer breaks where its engine
meets a lattice or hash tree key of a wrong length, or an RSA key whose numbers do not go with the data
(`Signer.fails_generate`, `Signer.fails_verify`).
-/

namespace SoftToken

open SoftToken.Except (Avoids Fails)
open ReturnCode (IsGeneral)

/-! ## Signatures -/

namespace SigningEngine

variable {data : Bytes} {t : RandomSource}

/-- Signing meets a key of another length than its parameter set has, or an RSA key that breaks. -/
def SignBreaks (e : SigningEngine) (data : Bytes) (t : RandomSource) : Prop :=
  match e with
  | rsa scheme k => Rsa.SignBreaks k scheme data t
  | mlDsa _ sizes _ key | slhDsa _ sizes _ key => key.length ≠ sizes.privateKey
  | ecdsa _ _ | ed25519 _ _ => False

/-- An RSA key of the engine is an accepted private key. -/
def Accepted (e : SigningEngine) : Prop := ∀ scheme k, e = rsa scheme k → ∃ s, k.IsPrivate s

theorem fails_sign {e : SigningEngine} (h : e.Accepted) (ht : t.Avoids IsGeneral) :
    Fails IsGeneral ((e.sign data).on t).1 ↔ e.SignBreaks data t := by
  unfold sign SignBreaks
  cases e with
  | rsa scheme k =>
    obtain ⟨s, hs⟩ := h scheme k rfl
    exact Rsa.fails_sign hs ht
  | ecdsa c value => exact iff_false_intro ((Ecdsa.avoids_sign c value data).not_fails ht)
  | ed25519 mode seed => exact iff_false_intro (Except.not_fails_ok _)
  | mlDsa set sizes o key =>
    have hrest : ∀ u : Unit, (do
        let message ← SignedMessage.format o.prehash o.context data
        MlDsa.sign set key message (← drawLatticeBytes o) : Draw Bytes).Avoids IsGeneral := by
      intro u
      refine (Draw.Avoids.lift (SignedMessage.avoids_format _ _ _)).bind fun message => ?_
      exact (avoids_drawLatticeBytes (by decide) o).bind fun random => .liftFailure (MlDsa.avoids_sign set key message random)
    simp only
    rw [Draw.fails_bind_left hrest ht, Draw.fails_lift]
    exact fails_checkKeyLength
  | slhDsa set sizes o key =>
    have hrest : ∀ u : Unit, (do
        let k ← SlhDsa.readPrivate set key
        let message ← SignedMessage.format o.prehash o.context data
        return k.sign set message (← k.drawOpening set o.deterministic) : Draw Bytes).Avoids IsGeneral := by
      intro u
      refine (Draw.Avoids.lift (SlhDsa.avoids_readPrivate (by decide) set key)).bind fun k => ?_
      refine (Draw.Avoids.lift (SignedMessage.avoids_format _ _ _)).bind fun message => ?_
      exact (SlhDsa.PrivateKey.avoids_drawOpening (by decide) set k o.deterministic).bind fun _ => .pure _
    simp only
    rw [Draw.fails_bind_left hrest ht, Draw.fails_lift]
    exact fails_checkKeyLength

end SigningEngine

namespace VerifyingEngine

variable {data signature : Bytes}

/-- Verification of a signature of the right length meets a key of another length than its set has. -/
def VerifyBreaks (e : VerifyingEngine) (signature : Bytes) : Prop :=
  match e with
  | mlDsa _ sizes _ key | slhDsa _ sizes _ key =>
    signature.length = sizes.output ∧ key.length ≠ sizes.publicKey
  | _ => False

theorem avoids_checkLength {P : ReturnCode → Prop} (hp : ¬ P .signatureLenRange) {sizes : ParameterSizes} :
    Avoids P (checkLength signature sizes) := by
  unfold checkLength
  split
  · exact .ok _
  · exact .fail hp

/-- The length of the signature is looked at before that of the key. -/
theorem fails_lengths {α : Type} {sizes : ParameterSizes} {key : Bytes} {x : Except Failure α} (hx : Avoids IsGeneral x) :
    Fails IsGeneral (do
      checkLength signature sizes
      checkKeyLength key sizes.publicKey
      x : Except Failure α) ↔ signature.length = sizes.output ∧ key.length ≠ sizes.publicKey := by
  have hlength : Avoids IsGeneral (checkLength signature sizes) := avoids_checkLength (by decide)
  have hok : ∀ u, checkLength signature sizes = .ok u ↔ signature.length = sizes.output := by
    intro u
    unfold checkLength
    split
    · next h => exact iff_of_true rfl h
    · next h => exact iff_of_false nofun h
  rw [hlength.lift.fails_bind, Unique.exists_iff, Except.lift_ok, hok, Except.fails_bind_left fun _ => hx,
    Except.fails_lift, fails_checkKeyLength]

theorem fails_verify {e : VerifyingEngine} :
    Fails IsGeneral (e.verify data signature) ↔ e.VerifyBreaks signature := by
  unfold verify VerifyBreaks
  cases e with
  | rsa scheme k => exact iff_false_intro (Rsa.avoids_verify k scheme data signature)
  | ecdsa c point => exact iff_false_intro (Ecdsa.avoids_verify c point data signature).lift
  | ed25519 mode key point => exact iff_false_intro (avoids_verifyEd25519 mode key point data signature).lift
  | mlDsa set sizes o key =>
    refine fails_lengths ?_
    exact (SignedMessage.avoids_format _ _ _).lift.bind fun _ _ => .ok _
  | slhDsa set sizes o key =>
    refine fails_lengths ?_
    exact (SignedMessage.avoids_format _ _ _).lift.bind fun _ _ => .ok _

end VerifyingEngine

/-! ## Signers -/

theorem Mac.avoids_newCmac (c : BlockCipher) (key : Bytes) : Avoids IsGeneral (newCmac c key) := by
  unfold newCmac
  split
  · exact .ok _
  · exact .fail (by decide)

theorem Mac.avoids_newPoly1305 (key : Bytes) : Avoids IsGeneral (newPoly1305 key) :=
  Except.avoids_guard (by decide) fun _ => .ok _

theorem Signer.avoids_ofMac (id : MechanismId) (mac : Mac) (requested : Option Nat) :
    Avoids IsGeneral (ofMac id mac requested) := by
  unfold ofMac
  simp only
  split
  · exact .refuse (by decide)
  · exact .ok _

namespace SignatureScheme

theorem avoids_bindSecret (m : MechanismId) (key : Object) (usage : AttributeId) (expected : String)
    (types : List KeyType) : Avoids IsGeneral (bindSecret m key usage expected types) := by
  refine key.avoids_bind_then ?_
  exact (SecretKey.avoids_ofObjectOfTypes key types).bind fun _ _ => .ok _

theorem avoids_mlDsaSet (set : UInt64) : Avoids IsGeneral (mlDsaSet set) := by
  unfold mlDsaSet
  split
  · exact .ok _
  · exact .refuse (by decide)

theorem avoids_slhDsaSet (set : UInt64) : Avoids IsGeneral (slhDsaSet set) := by
  unfold slhDsaSet
  split
  · exact .ok _
  · exact .refuse (by decide)

theorem avoids_checkEdwards (c : Curve) : Avoids IsGeneral (checkEdwards c) :=
  Except.avoids_guard (by decide) fun _ => .ok _

theorem avoids_checkEd25519Length (key : Bytes) : Avoids IsGeneral (checkEd25519Length key) :=
  Except.avoids_guard (by decide) fun _ => .ok _

end SignatureScheme

namespace SignatureMethod

open SignatureScheme

theorem avoids_bindCode {m : SignatureMethod} {key : Object} {usage : AttributeId} {code : Except Error Signer}
    (h : m.bindCode? key usage = some code) : Avoids IsGeneral code := by
  unfold bindCode? at h
  split at h
  · cases h
    exact (avoids_bindSecret _ key _ _ _).bind fun _ _ => Signer.avoids_ofMac _ _ _
  · cases h
    refine (avoids_bindSecret _ key _ _ _).bind fun secret _ => ?_
    exact (Mac.avoids_newCmac _ secret).bind fun _ _ => Signer.avoids_ofMac _ _ _
  · cases h
    refine (avoids_bindSecret _ key _ _ _).bind fun secret _ => ?_
    exact (Mac.avoids_newPoly1305 secret).bind fun _ _ => Signer.avoids_ofMac _ _ _
  · cases h

theorem avoids_signingEngine (m : SignatureMethod) (key : Object) : Avoids IsGeneral (m.signingEngine key) := by
  unfold signingEngine
  split
  · refine key.avoids_bind_then ?_
    refine (RsaPrivateKey.avoids_ofObject key).bind fun v _ => ?_
    exact (Rsa.Key.avoids_ofPrivate v).bind fun _ _ => .ok _
  · refine key.avoids_bind_then ?_
    exact (EcPrivateKey.avoids_ofObject key _).bind fun _ _ => .ok _
  · refine key.avoids_bind_then ?_
    refine (EcPrivateKey.avoids_ofObject key _).bind fun v _ => ?_
    refine (avoids_checkEdwards v.curve).bind fun _ _ => ?_
    exact (avoids_checkEd25519Length v.value).bind fun _ _ => .ok _
  · refine key.avoids_bind_then ?_
    refine (SetKey.avoids_ofPrivate _ key).bind fun v _ => ?_
    exact (avoids_mlDsaSet v.parameterSet).bind fun _ _ => .ok _
  · refine key.avoids_bind_then ?_
    refine (SetKey.avoids_ofPrivate _ key).bind fun v _ => ?_
    exact (avoids_slhDsaSet v.parameterSet).bind fun _ _ => .ok _
  · exact .fail (by decide)

theorem avoids_verifyingEngine (m : SignatureMethod) (key : Object) : Avoids IsGeneral (m.verifyingEngine key) := by
  unfold verifyingEngine
  split
  · refine key.avoids_bind_then ?_
    refine (RsaPublicKey.avoids_ofObject key).bind fun v _ => ?_
    exact (Rsa.Key.avoids_ofPublic v).bind fun _ _ => .ok _
  · refine key.avoids_bind_then ?_
    exact (EcPublicKey.avoids_ofObject key _).bind fun _ _ => .ok _
  · refine key.avoids_bind_then ?_
    refine (EcPublicKey.avoids_ofObject key _).bind fun v _ => ?_
    refine (avoids_checkEdwards v.curve).bind fun _ _ => ?_
    refine (avoids_checkEd25519Length v.point).bind fun _ _ => ?_
    split
    · exact .ok _
    · exact .fail (by decide)
  · refine key.avoids_bind_then ?_
    refine (SetKey.avoids_ofPublic _ key).bind fun v _ => ?_
    exact (avoids_mlDsaSet v.parameterSet).bind fun _ _ => .ok _
  · refine key.avoids_bind_then ?_
    refine (SetKey.avoids_ofPublic _ key).bind fun v _ => ?_
    exact (avoids_slhDsaSet v.parameterSet).bind fun _ _ => .ok _
  · exact .fail (by decide)

theorem avoids_bindTowards (m : SignatureMethod) (key : Object) (d : Direction) :
    Avoids IsGeneral (m.bindTowards key d) := by
  cases d with
  | signing =>
    refine Except.Avoids.bind ?_ fun _ _ => .ok _
    unfold bindSigning
    split
    · next code hc => exact (avoids_bindCode hc).bind fun _ _ => .ok _
    · exact (m.avoids_signingEngine key).bind fun _ _ => .ok _
  | verifying =>
    show Avoids IsGeneral (m.bindVerifying key)
    unfold bindVerifying
    split
    · next code hc => exact avoids_bindCode hc
    · exact (m.avoids_verifyingEngine key).bind fun _ _ => .ok _

/-- The RSA key of a signing engine was accepted as a private key. -/
theorem accepted_of_signingEngine {m : SignatureMethod} {key : Object} {r : Option Digest × SigningEngine}
    (h : m.signingEngine key = .ok r) : r.2.Accepted := by
  rintro scheme k he
  have hr := signingEngine_ok h
  generalize m.scheme = s at hr
  cases hr with
  | rsa _ hk => cases he; exact Rsa.Key.private_ok hk
  | _ => cases he

end SignatureMethod

/-- What a signer of a direction works with: a code, or an engine of the direction whose key was accepted. -/
def SignerCore.Sound (d : Direction) : SignerCore → Prop
  | .mac _ _ => True
  | .signing _ e => d = .signing ∧ e.Accepted
  | .verifying _ _ => d = .verifying

/-- The signers of a direction: new ones, and what calls leave of them. -/
inductive Signer.Runs (d : Direction) : Signer → Prop
  | opened {r : Registry} {preference : HedgePreference} {m : Mechanism} {key : Object} {s : Signer} :
    r.openSigner preference m key d = .ok s → Runs d s
  | next {s : Signer} (c : Signer.Call) : Runs d s → Runs d (s.next c)

theorem SignatureMethod.sound_bindTowards {m : SignatureMethod} {key : Object} {d : Direction} {s : Signer}
    (h : m.bindTowards key d = .ok s) : s.core.Sound d := by
  cases makes_of_bindTowards h with
  | code hc =>
    obtain ⟨-, -, mac, length, rfl⟩ := bindCode_some hc rfl
    trivial
  | signing hc he => exact ⟨rfl, accepted_of_signingEngine he⟩
  | verifying hc he => rfl

/-- Calls do not change what a signer works with. -/
theorem Signer.Runs.sound {d : Direction} {s : Signer} (h : Runs d s) : s.core.Sound d := by
  induction h with
  | opened h =>
    obtain ⟨m, -, h⟩ := Except.bind_ok.1 h
    exact SignatureMethod.sound_bindTowards h
  | next c _ ih =>
    rw [Signer.core_next]
    exact ih

namespace Signer

variable {s : Signer} {t : RandomSource} {signature : Bytes}

/-- An open signer signs the message so far with an engine that breaks. -/
def GenerateBreaks (s : Signer) (t : RandomSource) : Prop :=
  s.ended = false ∧ ∃ digest e, s.core = .signing digest e ∧ e.SignBreaks (digested digest s.message) t

/-- An open signer verifies with an engine that breaks. -/
def VerifyBreaks (s : Signer) (signature : Bytes) : Prop :=
  s.ended = false ∧ ∃ digest e, s.core = .verifying digest e ∧ e.VerifyBreaks signature

theorem avoids_requireOpen {P : ReturnCode → Prop} (hp : ¬ P .operationNotInitialized) (s : Signer) :
    Avoids P s.requireOpen := by
  unfold requireOpen
  split
  · exact .fail hp
  · exact .ok _

theorem requireOpen_iff {u : Unit} : s.requireOpen = .ok u ↔ s.ended = false := by
  unfold requireOpen
  split
  · next h => exact iff_of_false nofun fun h' => by rw [h] at h'; cases h'
  · next h => exact iff_of_true rfl (Bool.eq_false_iff.2 h)

theorem avoids_update (s : Signer) (data : Bytes) : Avoids IsGeneral (s.update data) :=
  (avoids_requireOpen (by decide) s).bind fun _ _ => .ok _

theorem fails_generate (h : s.core.Sound .signing) (ht : t.Avoids IsGeneral) :
    Fails IsGeneral ((s.generate).on t).1 ↔ s.GenerateBreaks t := by
  unfold generate GenerateBreaks
  rw [Draw.fails_bind_lift (avoids_requireOpen (by decide) s), Unique.exists_iff]
  refine and_congr requireOpen_iff ?_
  cases hc : s.core with
  | mac mac length =>
    refine iff_of_false (Except.not_fails_ok _) ?_
    rintro ⟨digest, e, h, -⟩
    cases h
  | signing digest e =>
    rw [hc] at h
    simp only [SignerCore.signing.injEq, exists_and_left, exists_eq_left', and_assoc]
    exact SigningEngine.fails_sign h.2 ht
  | verifying digest e =>
    rw [hc] at h
    cases h

theorem fails_verify (h : s.core.Sound .verifying) : Fails IsGeneral (s.verify signature) ↔ s.VerifyBreaks signature := by
  unfold verify VerifyBreaks
  cases hc : s.core with
  | mac mac length =>
    refine iff_of_false ?_ ?_
    · simp only
      split
      · exact Avoids.failure (by decide)
      · exact (avoids_requireOpen (by decide) s).lift.bind fun _ _ => .ok _
    · rintro ⟨-, digest, e, h, -⟩
      cases h
  | signing digest e =>
    rw [hc] at h
    cases h.1
  | verifying digest e =>
    simp only [SignerCore.verifying.injEq, exists_and_left, exists_eq_left', and_assoc]
    rw [(avoids_requireOpen (by decide) s).lift.fails_bind, Unique.exists_iff, Except.lift_ok, requireOpen_iff]
    exact and_congr_right fun _ => VerifyingEngine.fails_verify

end Signer

end SoftToken
