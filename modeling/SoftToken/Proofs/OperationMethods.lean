import SoftToken.Derivation.Methods
import SoftToken.Encapsulation.Methods
import SoftToken.Proofs.Methods
/-!
# What generators and encapsulators do step by step

The methods of a generator and of an encapsulator compute the functions of the same names, and change nothing but the
template, which only `init` does.
-/

namespace SoftToken

/-! ## Generators -/

namespace DerivationGenerator

variable {g : DerivationGenerator}

theorem agreedSteps_answers (g : DerivationGenerator) (kdf : AgreementKdf) (shared peer : Bytes) (base : Object) :
    (agreedSteps kdf shared peer base).Answers g (g.agreedMaterial kdf shared peer base) := by
  refine .bind (.ask _) fun kind => .bind (.lift _) fun key => ?_
  cases key.curve.decodePoint peer with
  | error cause => exact .throw _
  | ok point => exact .bind (.ask _) fun template => .bind (.lift _) fun value => .liftFailure _

theorem encryptedSteps_answers (g : DerivationGenerator) (c : BlockCipher) (iv : Option Bytes) (data : Bytes)
    (base : Object) : (encryptedSteps c iv data base).Answers g (liftM (g.encryptedMaterial c iv data base)) := by
  refine .bind_lift (.discard (.ask _)) fun _ => .bind_lift (.lift _) fun key => ?_
  cases c.encryptor? key.value with
  | none => exact .throw _
  | some e => cases iv <;> exact .pure _

/-- Every kind of derivation makes its material of what the generator is now. -/
theorem materialSteps_answers (g : DerivationGenerator) (base : Object) :
    (materialSteps base).Answers g (g.material base) := by
  refine .bind_self ?_
  unfold material
  cases g.rule with
  | digest d => exact .bind (.ask _) fun value => .pure _
  | appendKey other => exact .bind (.ask _) fun value => .pure _
  | appendData data => exact .bind (.ask _) fun value => .pure _
  | prependData data => exact .bind (.ask _) fun value => .pure _
  | xorData data => exact .bind (.ask _) fun value => .pure _
  | extractBits index =>
    refine .bind (.ask _) fun value => ?_
    split
    · exact .throw _
    · exact .bind (.ask _) fun template => .liftFailure _
  | agree kdf shared peer => exact g.agreedSteps_answers kdf shared peer base
  | hkdf steps => exact .bind (.ask _) fun value => .bind (.ask _) fun template => .liftFailure _
  | encrypt c iv data => exact g.encryptedSteps_answers c iv data base

/-- A derivation gives what its generator makes of the base key, and leaves the generator as it was. -/
theorem generateSteps_answers (g : DerivationGenerator) (base : Object) :
    (generateSteps base).Answers g (g.generate base) := by
  refine .bind (g.materialSteps_answers base) fun secret => .bind (.ask _) fun o => .bind_self ?_
  cases g.rule <;> exact .pure _

end DerivationGenerator

/-! ## Agreements that are set up -/

/-- The value that two parties share is agreed on after the private value is taken in. -/
theorem CurveFamily.agree_of_takeValue {f : CurveFamily} {c : Curve} {value peer : Bytes} {e : Error}
    (h : f.takeValue c value = .error e) : f.agree c value peer = .error e := by
  unfold takeValue at h
  unfold agree
  cases f with
  | prime =>
    cases hc : c.prime? with
    | none =>
      rw [hc] at h
      cases h
      rfl
    | some p =>
      rw [hc] at h
      cases h
  | montgomery =>
    cases hc : c.montgomery? with
    | none =>
      rw [hc] at h
      cases h
      rfl
    | some m =>
      rw [hc] at h
      dsimp only at h ⊢
      unfold Montgomery.agree
      split at h
      · next hlen =>
        cases h
        exact if_pos hlen
      · cases h

namespace Encapsulator

variable {e : Encapsulator} {family : CurveFamily} {kdf : AgreementKdf} {params : AgreementParams}

/-- Where the number of the derivation was known before, an agreement goes on as if it had not been set up now. -/
theorem setUpAgreement_bind (hkdf : AgreementKdf.ofNumber params.kdf = .ok kdf) {c : Curve} {value peer : Bytes}
    {β : Type} (rest : AgreementKdf → Bytes → Method Encapsulator β) :
    (do rest (← setUpAgreement family params c value) (← family.agree c value peer) : Method Encapsulator β) = (do
      rest kdf (← family.agree c value peer)) := by
  unfold setUpAgreement
  cases h : family.takeValue c value with
  | error e =>
    rw [CurveFamily.agree_of_takeValue h]
    rfl
  | ok _ =>
    rw [hkdf]
    rfl

/-! ## Encapsulators -/

theorem encapsulateMlKemSteps_follows (e : Encapsulator) (key : Object) :
    (encapsulateMlKemSteps key).Follows e (e.encapsulateMlKem key) := by
  refine .bind (.ask _) fun view => .bind (.discard (.ask _)) fun _ => .bind (.lift _) fun set => ?_
  exact .bind (.lift _) fun _ => .draw _

theorem encapsulateRsaSteps_follows (e : Encapsulator) (padding : Rsa.Padding) (key : Object) :
    (encapsulateRsaSteps padding key).Follows e (e.encapsulateRsa padding key) := by
  refine .bind (.ask _) fun view => .bind (.lift _) fun rsaKey => .bind (.ask _) fun template => ?_
  dsimp only
  split
  · exact .throw _
  · exact .bind (.draw _) fun secret => .bind (.draw _) fun data => .pure _

theorem encapsulateAgreementSteps_follows (hkdf : AgreementKdf.ofNumber params.kdf = .ok kdf) (e : Encapsulator)
    (key : Object) : (encapsulateAgreementSteps family params key).Follows e (e.encapsulateAgreement family kdf params key) := by
  refine .bind (.ask _) fun _ => .bind (.ask _) fun view => .bind (.ask _) fun template => ?_
  refine .bind (.draw _) fun pair => ?_
  obtain ⟨value, point⟩ := pair
  dsimp only
  -- the agreement is set up with the drawn value, which only looks up the derivation that is known already
  rw [setUpAgreement_bind hkdf]
  exact .bind (.lift _) fun shared => .bind (.liftFailure _) fun secret => .pure _

/-- The derivation of an encapsulator is the one that its parameters name. -/
def NamesDerivation (e : Encapsulator) : Prop :=
  ∀ family kdf params, e.scheme = .agreement family kdf params → AgreementKdf.ofNumber params.kdf = .ok kdf

/-- An encapsulation does what its encapsulator makes of the key, and leaves the encapsulator as it was. -/
theorem encapsulateSteps_follows (h : e.NamesDerivation) (key : Object) :
    (encapsulateSteps key).Follows e (e.encapsulate key) := by
  refine .bind_self ?_
  unfold encapsulate drawSecret
  cases hs : e.scheme with
  | mlKem => exact .bind (e.encapsulateMlKemSteps_follows key) fun made => .bind (.ask _) fun o => .pure _
  | rsa padding => exact .bind (e.encapsulateRsaSteps_follows padding key) fun made => .bind (.ask _) fun o => .pure _
  | agreement family kdf params =>
    refine .bind (encapsulateAgreementSteps_follows (h family kdf params hs) e key) fun made => ?_
    exact .bind (.ask _) fun o => .pure _

theorem recoverMlKemSteps_answers (e : Encapsulator) (key : Object) (data : Bytes) :
    (recoverMlKemSteps key data).Answers e (liftM (e.recoverMlKem key data)) := by
  refine .bind_lift (.ask _) fun view => .bind_lift (.discard (.ask _)) fun _ => .bind_lift (.lift _) fun set => ?_
  obtain ⟨P, sizes⟩ := set
  dsimp only
  split
  · exact .throw _
  · exact .bind_lift (.lift _) fun _ => .lift _

theorem recoverRsaSteps_answers (e : Encapsulator) (padding : Rsa.Padding) (key : Object) (data : Bytes) :
    (recoverRsaSteps padding key data).Answers e (liftM (e.recoverRsa padding key data)) :=
  .bind_lift (.ask _) fun _ => .bind_lift (.lift _) fun _ => .bind_lift (.discard (.ask _)) fun _ => .lift _

theorem recoverAgreementSteps_answers (hkdf : AgreementKdf.ofNumber params.kdf = .ok kdf) (e : Encapsulator)
    (key : Object) (data : Bytes) :
    (recoverAgreementSteps family params key data).Answers e (e.recoverAgreement family kdf params key data) := by
  refine .bind (.ask _) fun _ => .bind (.ask _) fun view => ?_
  cases view.curve.decodePoint data with
  | error cause => exact .throw _
  | ok peer =>
    refine .bind (.ask _) fun template => ?_
    rw [setUpAgreement_bind hkdf]
    exact .bind (.lift _) fun shared => .liftFailure _

/-- A decapsulation gives what its encapsulator makes of the key and the data, and leaves the encapsulator as it was. -/
theorem decapsulateSteps_answers (h : e.NamesDerivation) (key : Object) (data : Bytes) :
    (decapsulateSteps key data).Answers e (e.decapsulate key data) := by
  refine .bind_self ?_
  unfold decapsulate recoverSecret
  cases hs : e.scheme with
  | mlKem => exact .bind (e.recoverMlKemSteps_answers key data) fun secret => .ask _
  | rsa padding => exact .bind (e.recoverRsaSteps_answers padding key data) fun secret => .ask _
  | agreement family kdf params =>
    exact .bind (recoverAgreementSteps_answers (h family kdf params hs) e key data) fun secret => .ask _

end Encapsulator
end SoftToken
