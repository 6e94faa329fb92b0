import SoftToken.Proofs.Encapsulation
import SoftToken.Proofs.EncryptionLimit
import SoftToken.Proofs.OperationErrors
import SoftToken.Proofs.TemplateHistory
/-!
# Refused encapsulations draw nothing

An encapsulation is refused for its key, for its parameters or for want of a template before it asks the random source
for anything (`Registry.refused_before_drawing`). Some steps after the first draw have the same codes: a drawn private
value is read, the derivation of an agreement is looked up, an ML-KEM key is decoded, the template is asked for. None of
them fails there: a drawn value is always one of its curve, and the others have succeeded before.
-/

namespace SoftToken

open SoftToken.Except (Avoids Fails)

/-- The codes for a key that does not serve, for parameters that do not, and for an operation without a template. -/
def ReturnCode.refusals : List ReturnCode :=
  [.keyHandleInvalid, .keyFunctionNotPermitted, .mechanismParamInvalid, .operationNotInitialized]

abbrev ReturnCode.IsRefusal (c : ReturnCode) : Prop := c ∈ refusals

open ReturnCode (IsRefusal)

/-! ## Operations that fail before they draw -/

namespace Draw

variable {α β : Type} {P : ReturnCode → Prop} {handsOn : Prop}

/-- An error under one of the codes comes before the first draw: every source gives the same one, and stays as it was.
Otherwise it is that of the source, which has failed with it at its first request, or at a later one if the operation
hands such errors on. -/
def FailsEarly (P : ReturnCode → Prop) (handsOn : Prop) (x : Draw α) : Prop :=
  ∀ t t' e, x.on t = (.error (.error e), t') → P e.code →
    (∀ u, x.on u = (.error (.error e), u)) ∨ t'.Failed e ∧ (handsOn ∨ ∃ len, t' = t.asked len)

namespace FailsEarly

theorem of_never {x : Draw α} (hx : x.Never P) : FailsEarly P handsOn x := by
  intro t t' e h hp
  exact absurd hp ((hx t).code_failure (congrArg Prod.fst h))

theorem of_avoids (hon : handsOn) {x : Draw α} (hx : x.Avoids P) : FailsEarly P handsOn x := by
  intro t t' e h hp
  exact .inr ⟨hx t t' e h hp, .inl hon⟩

theorem bytes (len : Nat) : FailsEarly P handsOn (Draw.bytes len) := by
  intro t t' e h hp
  exact .inr ⟨Avoids.bytes len t t' e h hp, .inr ⟨len, (request_error.1 h).2⟩⟩

/-- A step that draws nothing may fail in any way. -/
theorem bind_lift {x : Except Error α} {f : α → Draw β} (hf : ∀ a, x = .ok a → FailsEarly P handsOn (f a)) :
    FailsEarly P handsOn ((liftM x : Draw α) >>= f) := by
  cases x with
  | error e' =>
    intro t t' e h hp
    cases h
    exact .inl fun u => rfl
  | ok a => exact hf a rfl

/-- After a step that draws, the rest has no such errors on any source. -/
theorem bind {x : Draw α} {f : α → Draw β} (hx : FailsEarly P handsOn x)
    (hf : ∀ t a t', x.on t = (.ok a, t') → (f a).Never P) : FailsEarly P handsOn (x >>= f) := by
  intro t t' e h hp
  rcases bind_error.1 h with h | ⟨a, t₁, hx', h⟩
  · exact (hx t t' e h hp).imp_left fun hall u => bind_error.2 (.inl (hall u))
  · exact absurd hp ((hf t a t₁ hx' t₁).code_failure (congrArg Prod.fst h))

end FailsEarly
end Draw

/-! ## Drawn key pairs -/

namespace Ecdsa

theorem drawBelow_ok {c : PrimeCurve} {accept : Nat → Bool} {fuel k : Nat} {t t' : RandomSource}
    (h : (drawBelow c accept fuel).on t = (.ok k, t')) : k < c.n ∧ accept k = true := by
  induction fuel generalizing t with
  | zero => cases h
  | succ fuel ih =>
    obtain ⟨b, t₁, -, h⟩ := Draw.bind_ok.1 h
    simp only at h
    split at h
    · next hk =>
      cases h
      simpa using hk
    · exact ih h

/-- A drawn private value is read as a scalar, in as many bytes as the order takes. -/
theorem exists_scalar_of_draw {c : PrimeCurve} (hn : c.n ≤ 256 ^ c.size) {value point : Bytes} {t t' : RandomSource}
    (h : (drawKeyPair c).on t = (.ok (value, point), t')) : ∃ d, c.scalar? value = some d := by
  obtain ⟨d, t₁, hd, h⟩ := Draw.bind_ok.1 h
  cases h
  obtain ⟨hlt, hne⟩ := drawBelow_ok hd
  have hpos : 0 < d := Nat.pos_of_ne_zero (by simpa using hne)
  refine ⟨d, ?_⟩
  unfold PrimeCurve.scalar?
  rw [Bytes.toNat_ofNat (Nat.lt_of_lt_of_le hlt hn)]
  exact if_pos ⟨hpos, hlt⟩

end Ecdsa

/-- The order of a prime curve has no more bytes than its field. -/
theorem Curve.order_le {c : Curve} {p : PrimeCurve} (h : c.prime? = some p) : p.n ≤ 256 ^ p.size := by
  cases c <;> cases h <;> decide +kernel

namespace CurveFamily

variable {P : ReturnCode → Prop} {f : CurveFamily} {c : Curve} {value point : Bytes} {t t' : RandomSource}

/-- Agreement with a drawn private value can only blame the peer. -/
theorem avoids_agree_of_draw (ha : ¬ P .argumentsBad) (h : (f.drawKeyPair c).on t = (.ok (value, point), t'))
    (peer : Bytes) : Avoids P (f.agree c value peer) := by
  unfold drawKeyPair at h
  cases f with
  | prime =>
    simp only at h
    split at h
    · next p hp =>
      obtain ⟨d, hd⟩ := Ecdsa.exists_scalar_of_draw (Curve.order_le hp) h
      simp only [agree, hp, Ecdsa.agree, hd]
      split
      · exact .refuse ha
      · exact .ok _
    · cases h
  | montgomery =>
    simp only at h
    split at h
    · next m hm =>
      obtain ⟨d, t₁, hd, h⟩ := Draw.bind_ok.1 h
      cases h
      simp only [agree, hm, Montgomery.agree, Draw.length_of_request hd]
      split
      · exact absurd rfl ‹_›
      split
      · exact .refuse ha
      · split
        · exact .refuse ha
        · exact .ok _
    · cases h

/-- A source that fails a key pair is asked once, over the Montgomery curves. -/
theorem failsEarly_drawKeyPair {handsOn : Prop} (hc : ¬ P .curveNotSupported) (f : CurveFamily) (c : Curve) :
    (f.drawKeyPair c).FailsEarly P handsOn := by
  unfold drawKeyPair
  cases f with
  | prime =>
    cases c.prime? with
    | some p => exact .of_never (Ecdsa.never_drawKeyPair p)
    | none => exact .of_never (.throw hc)
  | montgomery =>
    cases c.montgomery? with
    | some m => exact .bind (.bytes _) fun _ _ _ _ => .pure _
    | none => exact .of_never (.throw hc)

end CurveFamily

/-! ## Encapsulation -/

/-- A key that was read before the message is drawn is read again after it. -/
theorem MlKem.failsEarly_encapsulate {P : ReturnCode → Prop} {handsOn : Prop} (hf : ¬ P .functionFailed)
    (set : Parameters) (key : Bytes) : (encapsulate set key).FailsEarly P handsOn := by
  refine .bind_lift fun r hr => .of_never ?_
  refine (Draw.Never.orElse 32 hf).bind fun message => .lift ?_
  unfold encapsulateMessage
  rw [hr]
  exact .ok _

namespace Encapsulator

variable {e : Encapsulator} {key : Object} {t t' : RandomSource} {secret data : Bytes} {handsOn : Prop}

/-- With this padding, errors of the source are handed on also after the secret is drawn: it fails the seed. -/
def UsesOaep (e : Encapsulator) : Prop := ∃ o, e.scheme = .rsa (.oaep o)

theorem failsEarly_encapsulateMlKem (e : Encapsulator) (key : Object) :
    (e.encapsulateMlKem key).FailsEarly IsRefusal handsOn := by
  refine .bind_lift fun view _ => ?_
  rw [Draw.discard_lift]
  refine .bind_lift fun _ _ => .bind_lift fun set _ => .bind_lift fun _ _ => ?_
  exact MlKem.failsEarly_encapsulate (by decide) set.1 view.value

theorem failsEarly_encapsulateRsa (e : Encapsulator) {padding : Rsa.Padding} (hon : ∀ o, padding = .oaep o → handsOn)
    (key : Object) : (e.encapsulateRsa padding key).FailsEarly IsRefusal handsOn := by
  refine .bind_lift fun view _ => .bind_lift fun rsaKey _ => .bind_lift fun template _ => ?_
  dsimp only
  split
  · exact .of_never (.throw (by decide))
  cases padding with
  | pkcs1 =>
    refine .bind (.bytes _) fun t secret t' _ => ?_
    exact (Rsa.never_encrypt_pkcs1 (by decide) fun _ _ => by decide).bind fun c => .pure _
  | oaep o =>
    refine .of_avoids (hon o rfl) ((Draw.Avoids.bytes _).bind fun secret => ?_)
    exact (Rsa.avoids_encrypt (by decide) nofun).bind fun c => .pure _

theorem failsEarly_encapsulateAgreement (e : Encapsulator) (family : CurveFamily) (kdf : AgreementKdf)
    (params : AgreementParams) (key : Object) :
    (e.encapsulateAgreement family kdf params key).FailsEarly IsRefusal handsOn := by
  refine .bind_lift fun _ _ => .bind_lift fun view _ => .bind_lift fun template _ => ?_
  refine .bind (family.failsEarly_drawKeyPair (by decide) _) fun t pair t' hd => ?_
  obtain ⟨value, point⟩ := pair
  -- the pair is drawn: what follows blames the peer, or the length that the template asks for
  have hagree : Avoids IsRefusal (family.agree view.curve value view.point) :=
    CurveFamily.avoids_agree_of_draw (by decide) hd view.point
  refine (Draw.Never.lift hagree).bind fun shared => ?_
  refine (Draw.Never.liftFailure fun h => ?_).bind fun _ => .pure _
  exact absurd (AgreementKdf.fails_secret.1 h).1 (by decide)

theorem failsEarly_drawSecret (e : Encapsulator) (key : Object) : (e.drawSecret key).FailsEarly IsRefusal e.UsesOaep := by
  unfold drawSecret
  cases hs : e.scheme with
  | mlKem => exact e.failsEarly_encapsulateMlKem key
  | rsa padding => exact e.failsEarly_encapsulateRsa (fun o ho => ⟨o, ho ▸ hs⟩) key
  | agreement family kdf params => exact e.failsEarly_encapsulateAgreement family kdf params key

/-- A secret is drawn for a template only. -/
theorem template_of_drawSecret (h : (e.drawSecret key).on t = (.ok (secret, data), t')) : e.template ≠ none := by
  have hsome : ∀ {template}, e.requireTemplate = .ok template → e.template ≠ none := by
    intro template ht
    rw [requireTemplate_iff.1 ht]
    exact Option.some_ne_none _
  unfold drawSecret at h
  split at h
  · obtain ⟨view, -, h⟩ := Draw.bind_lift_ok.1 h
    rw [Draw.discard_lift] at h
    obtain ⟨_, ht, -⟩ := Draw.bind_lift_ok.1 h
    obtain ⟨template, ht⟩ := Except.discard_ok.1 ht
    exact hsome ht
  · obtain ⟨view, -, h⟩ := Draw.bind_lift_ok.1 h
    obtain ⟨rsaKey, -, h⟩ := Draw.bind_lift_ok.1 h
    obtain ⟨template, ht, -⟩ := Draw.bind_lift_ok.1 h
    exact hsome ht
  · obtain ⟨_, -, h⟩ := Draw.bind_lift_ok.1 h
    obtain ⟨view, -, h⟩ := Draw.bind_lift_ok.1 h
    obtain ⟨template, ht, -⟩ := Draw.bind_lift_ok.1 h
    exact hsome ht

theorem failsEarly_encapsulate (e : Encapsulator) (key : Object) :
    (e.encapsulate key).FailsEarly IsRefusal e.UsesOaep := by
  refine .bind (e.failsEarly_drawSecret key) fun t pair t' hd => ?_
  obtain ⟨secret, data⟩ := pair
  have htemplate := template_of_drawSecret hd
  have hkey := avoids_secretKey (P := IsRefusal) (by decide) (by decide) (fun _ => htemplate) secret
  exact (Draw.Never.lift hkey).bind fun _ => .pure _

end Encapsulator

namespace Registry

open Encapsulator

/-- An encapsulation has failed before it asked its source for anything: the source is as it was, and every other one
would be too, with the same error. -/
def FailedUnread (e : Encapsulator) (key : Object) (error : Error) (t t' : RandomSource) : Prop :=
  t' = t ∧ ∀ u, (encapsulateSteps key).on e u = (.error (.error error), e, u)

/-- After some templates an encapsulation to the key is refused under the code, on every source and with nothing drawn. -/
def Refuses (r : Registry) (m : Mechanism) (templates : List (List Attribute)) (key : Object) (code : ReturnCode) : Prop :=
  ∃ e₀ error, r.encapsulator m key = .ok e₀ ∧ error.code = code ∧
    FailedUnread (maker.run e₀ (templates.map .init)) key error .blank .blank

/-- A source whose failures have such a code, from the second request on. -/
def failingSecond : RandomSource where
  answer past len := if past.isEmpty then .ok ⟨Bytes.zeros len, List.length_replicate⟩ else .error (.bare .mechanismParamInvalid)

/-- OAEP encapsulation of a byte. -/
def shortOaep : Encapsulator where
  mechanism := .rsaPkcsOaep
  scheme := .rsa (.oaep ⟨.sha1, .sha1, []⟩)
  template := some ⟨.genericSecret, some 1, []⟩

/-- It gives the secret and fails the seed, and that failure is handed on. -/
example : let r := (encapsulateSteps Rsa.wideObject).on shortOaep failingSecond
    r.1 = .error (.error (.bare .mechanismParamInvalid)) ∧ r.2.2.past = [20, 1] := by
  decide +kernel

end Registry
end SoftToken
