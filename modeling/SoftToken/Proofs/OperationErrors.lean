import Mathlib.Logic.Unique
import SoftToken.Proofs.PrimitiveErrors
/-!
# Errors of encapsulation and derivation

Which encapsulations, decapsulations and derivations give the general error. They break where the length
of an ML-KEM key is only looked at when the key is used, where an RSA modulus has no room for a padding,
and where a template asks for more bytes than the stream of an agreement has. Everything else that they
refuse has a code of its own.
-/

namespace SoftToken

open SoftToken.Except (Avoids Fails)
open ReturnCode (IsGeneral)

/-! ## Encapsulation -/

namespace Encapsulator

variable {e : Encapsulator} {key : Object} {t : RandomSource} {data : Bytes}

/-- Encapsulation meets what nothing has refused before: an ML-KEM key of a wrong length, a modulus
without room for the padding of an empty secret, or a template that overruns the stream. -/
def EncapsulateBreaks (e : Encapsulator) (key : Object) (t : RandomSource) : Prop :=
  match e.scheme with
  | .mlKem => ∃ v, e.mlKemPublic key = .ok v ∧ ∃ template, e.template = some template ∧
      ∃ set, mlKemSet v.parameterSet = .ok set ∧ v.value.length ≠ set.2.publicKey
  | .rsa padding => ∃ v, e.rsaPublic key = .ok v ∧ ∃ k, Rsa.Key.ofPublic v = .ok k ∧
      ∃ template, e.template = some template ∧ padding = .pkcs1 ∧ template.minimalLength = 0 ∧ k.size < 11 ∧
      ∃ t', (Draw.bytes 0).on t = (.ok [], t')
  | .agreement family kdf params => e.checkNoPeer params = .ok () ∧
      ∃ v, e.agreementPublic family key = .ok v ∧ ∃ template, e.template = some template ∧
      ∃ pair t', (family.drawKeyPair v.curve).on t = (.ok pair, t') ∧
      ∃ shared, family.agree v.curve pair.1 v.point = .ok shared ∧ kdf.Overruns template.minimalLength

/-- Decapsulation meets what nothing has refused before. -/
def DecapsulateBreaks (e : Encapsulator) (key : Object) (data : Bytes) : Prop :=
  match e.scheme with
  | .mlKem => ∃ v, e.mlKemPrivate key = .ok v ∧ ∃ template, e.template = some template ∧
      ∃ set, mlKemSet v.parameterSet = .ok set ∧ data.length = set.2.output ∧ v.value.length ≠ set.2.privateKey
  | .rsa _ => False
  | .agreement family kdf params => e.checkNoPeer params = .ok () ∧
      ∃ v, e.agreementPrivate family key = .ok v ∧ ∃ peer, v.curve.decodePoint data = .ok peer ∧
      ∃ template, e.template = some template ∧
      ∃ shared, family.agree v.curve v.value peer = .ok shared ∧ kdf.Overruns template.minimalLength

/-! ### Keys -/

theorem requireTemplate_iff {template : SecretTemplate} :
    e.requireTemplate = .ok template ↔ e.template = some template :=
  SecretTemplate.require_ok

theorem avoids_requireTemplate (e : Encapsulator) : Avoids IsGeneral e.requireTemplate :=
  SecretTemplate.avoids_require (absurd · (by decide))

theorem avoids_mlKemPublic (e : Encapsulator) (key : Object) : Avoids IsGeneral (e.mlKemPublic key) :=
  key.avoids_bind_then (SetKey.avoids_ofPublic _ key)

theorem avoids_mlKemPrivate (e : Encapsulator) (key : Object) : Avoids IsGeneral (e.mlKemPrivate key) :=
  key.avoids_bind_then (SetKey.avoids_ofPrivate _ key)

theorem avoids_rsaPublic (e : Encapsulator) (key : Object) : Avoids IsGeneral (e.rsaPublic key) :=
  key.avoids_bind_then (RsaPublicKey.avoids_ofObject key)

theorem avoids_rsaPrivate (e : Encapsulator) (key : Object) : Avoids IsGeneral (e.rsaPrivate key) :=
  key.avoids_bind_then (RsaPrivateKey.avoids_ofObject key)

theorem avoids_agreementPublic (e : Encapsulator) (f : CurveFamily) (key : Object) :
    Avoids IsGeneral (e.agreementPublic f key) :=
  key.avoids_bind_then (EcPublicKey.avoids_ofObject key _)

theorem avoids_agreementPrivate (e : Encapsulator) (f : CurveFamily) (key : Object) :
    Avoids IsGeneral (e.agreementPrivate f key) :=
  key.avoids_bind_then (EcPrivateKey.avoids_ofObject key _)

theorem avoids_checkNoPeer (e : Encapsulator) (p : AgreementParams) : Avoids IsGeneral (e.checkNoPeer p) :=
  Except.avoids_guard (by decide) fun _ => .ok _

theorem avoids_mlKemSet (set : UInt64) : Avoids IsGeneral (mlKemSet set) := by
  unfold mlKemSet
  split
  · exact .ok _
  · exact .refuse (by decide)

theorem fails_checkLength {key : Bytes} {expected : Nat} :
    Fails IsGeneral (checkLength key expected) ↔ key.length ≠ expected :=
  fails_checkKeyLength

/-! ### Operations -/

theorem fails_encapsulateMlKem (ht : t.Avoids IsGeneral) (hs : e.scheme = .mlKem) :
    Fails IsGeneral ((e.encapsulateMlKem key).on t).1 ↔ e.EncapsulateBreaks key t := by
  unfold encapsulateMlKem EncapsulateBreaks
  rw [hs, Draw.fails_bind_lift (e.avoids_mlKemPublic key)]
  refine exists_congr fun v => and_congr_right fun _ => ?_
  rw [Draw.fails_bind_discard_lift e.avoids_requireTemplate]
  refine exists_congr fun template => and_congr requireTemplate_iff ?_
  rw [Draw.fails_bind_lift (avoids_mlKemSet _)]
  refine exists_congr fun set => and_congr_right fun _ => ?_
  obtain ⟨P, sizes⟩ := set
  rw [Draw.fails_bind_left (fun _ => MlKem.avoids_encapsulate P v.value) ht, Draw.fails_lift]
  exact fails_checkLength

theorem fails_encapsulateRsa (ht : t.Avoids IsGeneral) {padding : Rsa.Padding} (hs : e.scheme = .rsa padding) :
    Fails IsGeneral ((e.encapsulateRsa padding key).on t).1 ↔ e.EncapsulateBreaks key t := by
  unfold encapsulateRsa EncapsulateBreaks
  rw [hs, Draw.fails_bind_lift (e.avoids_rsaPublic key)]
  refine exists_congr fun v => and_congr_right fun _ => ?_
  rw [Draw.fails_bind_lift (Rsa.Key.avoids_ofPublic v)]
  refine exists_congr fun k => and_congr_right fun _ => ?_
  rw [Draw.fails_bind_lift e.avoids_requireTemplate]
  refine exists_congr fun template => and_congr requireTemplate_iff ?_
  simp only
  split
  case isTrue hlong =>
    refine iff_of_false (Avoids.failure (show ¬ IsGeneral .keySizeRange by decide)) ?_
    rintro ⟨-, hmin, -⟩
    rw [hmin] at hlong
    exact Nat.not_lt_zero _ hlong
  case isFalse =>
    rw [(Draw.Avoids.bytes _).fails_bind ht]
    constructor
    · rintro ⟨secret, t', hd, h⟩
      have ht' : t'.Avoids IsGeneral := ht.of_answer (Draw.answer_of_on hd)
      rw [Draw.fails_bind_left (fun _ => .pure _) ht'] at h
      obtain ⟨-, hp, rfl, hsize⟩ := (Rsa.fails_encrypt (by decide) ht').1 h
      have hmin : template.minimalLength = 0 := (Draw.length_of_request hd).symm
      rw [hmin] at hd
      exact ⟨hp, hmin, hsize, t', hd⟩
    · rintro ⟨hp, hmin, hsize, t', hd⟩
      rw [hmin]
      have ht' : t'.Avoids IsGeneral := ht.of_answer (Draw.answer_of_on hd)
      refine ⟨[], t', hd, ?_⟩
      rw [Draw.fails_bind_left (fun _ => .pure _) ht']
      exact (Rsa.fails_encrypt (by decide) ht').2 ⟨rfl, hp, rfl, hsize⟩

theorem fails_encapsulateAgreement (ht : t.Avoids IsGeneral) {f : CurveFamily} {kdf : AgreementKdf}
    {params : AgreementParams} (hs : e.scheme = .agreement f kdf params) :
    Fails IsGeneral ((e.encapsulateAgreement f kdf params key).on t).1 ↔ e.EncapsulateBreaks key t := by
  unfold encapsulateAgreement EncapsulateBreaks
  rw [hs, Draw.fails_bind_lift (e.avoids_checkNoPeer params), Unique.exists_iff]
  refine and_congr_right fun _ => ?_
  rw [Draw.fails_bind_lift (e.avoids_agreementPublic f key)]
  refine exists_congr fun v => and_congr_right fun _ => ?_
  rw [Draw.fails_bind_lift e.avoids_requireTemplate]
  refine exists_congr fun template => and_congr requireTemplate_iff ?_
  rw [(f.avoids_drawKeyPair (by decide) v.curve).fails_bind ht]
  refine exists_congr fun pair => exists_congr fun t' => and_congr_right fun hd => ?_
  obtain ⟨value, point⟩ := pair
  rw [Draw.fails_bind_lift (f.avoids_agree v.curve value v.point)]
  refine exists_congr fun shared => and_congr_right fun _ => ?_
  rw [Draw.fails_bind_left (fun _ => .pure _) (ht.of_answer (Draw.answer_of_on hd)), Draw.fails_liftFailure]
  exact AgreementKdf.fails_secret.trans (and_iff_right rfl)

/-- With a source that has no general errors of its own, encapsulation gives that error exactly where drawing the secret
does. -/
theorem fails_encapsulate (ht : t.Avoids IsGeneral) : Fails IsGeneral ((e.encapsulate key).on t).1 ↔ e.EncapsulateBreaks key t := by
  have hfinish : ∀ r : Bytes × Bytes, (do return (← e.secretKey r.1, r.2) : Draw (Object × Bytes)).Avoids IsGeneral :=
    fun r => (Draw.Avoids.lift (avoids_secretKey (by decide) (by decide) (absurd · (by decide)) r.1)).bind fun _ => .pure _
  unfold encapsulate
  rw [Draw.fails_bind_left hfinish ht]
  unfold drawSecret
  split
  · next hs => exact fails_encapsulateMlKem ht hs
  · next padding hs => exact fails_encapsulateRsa ht hs
  · next f kdf params hs => exact fails_encapsulateAgreement ht hs

theorem fails_recoverMlKem (hs : e.scheme = .mlKem) :
    Fails IsGeneral (e.recoverMlKem key data) ↔ e.DecapsulateBreaks key data := by
  unfold recoverMlKem DecapsulateBreaks
  rw [hs, (e.avoids_mlKemPrivate key).fails_bind]
  refine exists_congr fun v => and_congr_right fun _ => ?_
  rw [e.avoids_requireTemplate.fails_bind_discard]
  refine exists_congr fun template => and_congr requireTemplate_iff ?_
  rw [(avoids_mlKemSet _).fails_bind]
  refine exists_congr fun set => and_congr_right fun _ => ?_
  obtain ⟨P, sizes⟩ := set
  simp only
  split
  · next hne => exact iff_of_false (Avoids.refuse (by decide)) fun h => hne h.1
  · next heq =>
    rw [Except.fails_bind_left fun _ => MlKem.avoids_decapsulate P v.value data, fails_checkLength]
    exact (and_iff_right (Decidable.not_not.1 heq)).symm

theorem avoids_recoverRsa (e : Encapsulator) (padding : Rsa.Padding) (key : Object) (data : Bytes) :
    Avoids IsGeneral (e.recoverRsa padding key data) := by
  refine (e.avoids_rsaPrivate key).bind fun v _ => ?_
  refine (Rsa.Key.avoids_ofPrivate v).bind fun k _ => ?_
  exact e.avoids_requireTemplate.discard.bind fun _ _ => Rsa.avoids_decrypt k padding data

theorem fails_recoverAgreement {f : CurveFamily} {kdf : AgreementKdf} {params : AgreementParams}
    (hs : e.scheme = .agreement f kdf params) :
    Fails IsGeneral (e.recoverAgreement f kdf params key data) ↔ e.DecapsulateBreaks key data := by
  unfold recoverAgreement DecapsulateBreaks
  rw [hs, (e.avoids_checkNoPeer params).fails_bind_lift, Unique.exists_iff]
  refine and_congr_right fun _ => ?_
  rw [(e.avoids_agreementPrivate f key).fails_bind_lift]
  refine exists_congr fun v => and_congr_right fun _ => ?_
  cases v.curve.decodePoint data with
  | error cause =>
    refine iff_of_false (Avoids.failure (show ¬ IsGeneral .argumentsBad by decide)) ?_
    rintro ⟨peer, h, -⟩
    cases h
  | ok peer =>
    simp only [Except.ok.injEq, exists_eq_left']
    rw [e.avoids_requireTemplate.fails_bind_lift]
    refine exists_congr fun template => and_congr requireTemplate_iff ?_
    rw [(f.avoids_agree v.curve v.value peer).fails_bind_lift]
    refine exists_congr fun shared => and_congr_right fun _ => ?_
    exact AgreementKdf.fails_secret.trans (and_iff_right rfl)

theorem fails_decapsulate : Fails IsGeneral (e.decapsulate key data) ↔ e.DecapsulateBreaks key data := by
  unfold decapsulate
  rw [Except.fails_bind_left fun secret => .lift (avoids_secretKey (by decide) (by decide) (absurd · (by decide)) secret)]
  unfold recoverSecret
  split
  · next hs => exact Except.fails_lift.trans (fails_recoverMlKem hs)
  · next padding hs =>
    refine iff_of_false (e.avoids_recoverRsa padding key data).lift ?_
    unfold DecapsulateBreaks
    rw [hs]
    exact id
  · next f kdf params hs => exact fails_recoverAgreement hs

theorem avoids_encapsulatedLength (e : Encapsulator) (key : Object) : Avoids IsGeneral (e.encapsulatedLength key) := by
  unfold encapsulatedLength
  split
  · refine (e.avoids_mlKemPublic key).bind fun v _ => ?_
    split
    · exact .ok _
    · exact .fail (by decide)
  · exact (e.avoids_rsaPublic key).bind fun _ _ => .ok _
  · exact (e.avoids_agreementPublic _ key).bind fun _ _ => .ok _

theorem avoids_init (e : Encapsulator) (as : List Attribute) : Avoids IsGeneral (e.init as) :=
  (SecretTemplate.avoids_ofAttributes as).bind fun _ _ => .ok _

end Encapsulator

/-! ## Derivation -/

namespace DerivationGenerator

variable {g : DerivationGenerator} {base : Object}

/-- Derivation by agreement reaches the stream, and the template overruns it. -/
def GenerateBreaks (g : DerivationGenerator) (base : Object) : Prop :=
  match g.rule with
  | .agree kdf _ peer => ∃ kind, g.checkBase base g.acceptsAgreement = .ok kind ∧
      let family := (CurveFamily.ofPrivate? kind).getD .prime
      ∃ key, EcPrivateKey.ofObject base family.keyType = .ok key ∧
      ∃ point, key.curve.decodePoint peer = .ok point ∧ ∃ template, g.template = some template ∧
      ∃ shared, family.agree key.curve key.value point = .ok shared ∧ kdf.Overruns template.minimalLength
  | _ => False

theorem avoids_requireTemplate (g : DerivationGenerator) : Avoids IsGeneral g.requireTemplate :=
  SecretTemplate.avoids_require (absurd · (by decide))

theorem avoids_checkBase (g : DerivationGenerator) (base : Object) (accept : KeyKind → Bool) :
    Avoids IsGeneral (g.checkBase base accept) := by
  unfold checkBase
  split
  · exact .error (show ¬ IsGeneral .keyTypeInconsistent by decide)
  · exact Except.avoids_guard (by decide) fun _ => (base.avoids_checkPermission _).bind fun _ _ => .ok _

theorem avoids_baseSecret (g : DerivationGenerator) (base : Object) : Avoids IsGeneral (g.baseSecret base) := by
  refine (g.avoids_checkBase base isSecret).discard.bind fun _ _ => ?_
  exact (SecretKey.avoids_ofObject base).bind fun _ _ => .ok _

theorem avoids_encryptedMaterial (g : DerivationGenerator) (c : BlockCipher) (iv : Option Bytes) (data : Bytes)
    (base : Object) : Avoids IsGeneral (g.encryptedMaterial c iv data base) := by
  refine (g.avoids_checkBase base _).discard.bind fun _ _ => ?_
  refine (SecretKey.avoids_ofObjectOfTypes base _).bind fun key _ => ?_
  split
  · exact .refuse (by decide)
  split
  · exact .ok _
  · exact .ok _

theorem fails_agreedMaterial {kdf : AgreementKdf} {shared peer : Bytes} (hr : g.rule = .agree kdf shared peer) :
    Fails IsGeneral (g.agreedMaterial kdf shared peer base) ↔ g.GenerateBreaks base := by
  unfold agreedMaterial GenerateBreaks
  rw [hr, (g.avoids_checkBase base _).fails_bind_lift]
  refine exists_congr fun kind => and_congr_right fun _ => ?_
  simp only
  rw [(EcPrivateKey.avoids_ofObject base _).fails_bind_lift]
  refine exists_congr fun key => and_congr_right fun _ => ?_
  cases key.curve.decodePoint peer with
  | error e =>
    refine iff_of_false (Avoids.failure (show ¬ IsGeneral .mechanismParamInvalid by decide)) ?_
    rintro ⟨point, h, -⟩
    cases h
  | ok point =>
    simp only [Except.ok.injEq, exists_eq_left']
    rw [g.avoids_requireTemplate.fails_bind_lift]
    refine exists_congr fun template => and_congr SecretTemplate.require_ok ?_
    rw [(CurveFamily.avoids_agree _ _ _ _).fails_bind_lift]
    refine exists_congr fun z => and_congr_right fun _ => ?_
    exact AgreementKdf.fails_secret.trans (and_iff_right rfl)

theorem avoids_material (h : ∀ kdf shared peer, g.rule ≠ .agree kdf shared peer) : Avoids IsGeneral (g.material base) := by
  have hsecret : ∀ f : Bytes → Bytes, Avoids IsGeneral (do return f (← g.baseSecret base) : Except Failure Bytes) :=
    fun f => (g.avoids_baseSecret base).bind_lift fun _ _ => .ok _
  unfold material
  cases hr : g.rule with
  | digest d => exact hsecret d.hash
  | appendKey other => exact hsecret (· ++ other.value)
  | appendData data => exact hsecret (· ++ data)
  | prependData data => exact hsecret (data ++ ·)
  | xorData data => exact hsecret (Bytes.xor · data)
  | extractBits index =>
    refine (g.avoids_baseSecret base).bind_lift fun value _ => ?_
    split
    · exact .lift (.refuse (by decide))
    · exact g.avoids_requireTemplate.bind_lift fun t _ => DerivationRule.avoids_bitsFrom value index t.minimalLength
  | agree kdf shared peer => exact absurd hr (h kdf shared peer)
  | hkdf steps =>
    refine (g.avoids_baseSecret base).bind_lift fun value _ => ?_
    exact g.avoids_requireTemplate.bind_lift fun t _ => steps.avoids_run value t.minimalLength
  | encrypt c iv data => exact (g.avoids_encryptedMaterial c iv data base).lift

theorem fails_material : Fails IsGeneral (g.material base) ↔ g.GenerateBreaks base := by
  by_cases h : ∃ kdf shared peer, g.rule = .agree kdf shared peer
  · obtain ⟨kdf, shared, peer, hr⟩ := h
    unfold material
    rw [hr]
    exact fails_agreedMaterial hr
  · have hno : ∀ kdf shared peer, g.rule ≠ .agree kdf shared peer := fun kdf shared peer hr => h ⟨kdf, shared, peer, hr⟩
    refine iff_of_false (avoids_material hno) ?_
    unfold GenerateBreaks
    split
    · next hr => exact absurd hr (hno _ _ _)
    · exact id

theorem fails_generate : Fails IsGeneral (g.generate base) ↔ g.GenerateBreaks base := by
  refine (Except.fails_bind_left fun secret => ?_).trans fails_material
  refine (g.avoids_derivedKey base secret).bind_lift fun o _ => ?_
  split
  · exact .ok _
  · exact .ok _

theorem avoids_init (g : DerivationGenerator) (as : List Attribute) : Avoids IsGeneral (g.init as) :=
  (SecretTemplate.avoids_ofAttributes as).bind fun _ _ => .ok _

end DerivationGenerator

end SoftToken
