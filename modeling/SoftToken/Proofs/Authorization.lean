import SoftToken.Proofs.Attributes
import SoftToken.Proofs.KeyKinds
import SoftToken.Proofs.SignerBinding
/-!
# Authorization

Every call that works with a key looks at the key's kind and at its usage flag before anything else of
the key (`Guards`). So a call succeeds only with a key of an accepted kind whose flag is set, and a key of
an accepted kind whose flag is not set is refused for that, whatever else is wrong
(`Registry.authorized`).
-/

namespace SoftToken

/-! ## Calls -/

/-- The class of the key pair's half that a direction takes. -/
def Direction.cls : Direction → ObjectClass
  | signing => .privateKey
  | verifying => .publicKey

/-- The kinds of keys that a signature scheme takes in a direction. -/
def SignatureScheme.Takes (d : Direction) (k : KeyKind) : SignatureScheme → Prop
  | .hmac _ types _ => ∃ t ∈ types, k = .secret t
  | .cmac c _ => k = .secret c.keyType
  | .poly1305 => k = .secret .poly1305
  | .rsa _ _ => k.cls = d.cls ∧ k.type = .rsa
  | .ecdsa _ => k.cls = d.cls ∧ k.type = .ec
  | .eddsa _ => k.cls = d.cls ∧ k.type = .ecEdwards
  | .mlDsa _ => k.cls = d.cls ∧ k.type = .mlDsa
  | .slhDsa _ => k.cls = d.cls ∧ k.type = .slhDsa

/-- The kinds of keys that a derivation starts from. -/
def DerivationGenerator.StartsFrom (g : DerivationGenerator) (k : KeyKind) : Prop :=
  match g.rule with
  | .agree _ _ _ =>
    k.cls = .privateKey ∧ (k.type = .ec ∨ k.type = .ecMontgomery ∧ g.mechanism ≠ .ecdh1CofactorDerive)
  | .encrypt c _ _ => k = .secret c.keyType
  | _ => k.cls = .secretKey

/-- A call that works with a key. -/
inductive KeyCall where
  | encapsulatedLength (e : Encapsulator)
  | encapsulate (e : Encapsulator) (t : RandomSource)
  | decapsulate (e : Encapsulator) (data : Bytes)
  | generate (g : DerivationGenerator)
  | openSigner (m : SignatureMethod) (d : Direction)

namespace KeyCall

/-- The usage that a call asks of its key. -/
def usage : KeyCall → AttributeId
  | encapsulatedLength _ | encapsulate _ _ => .encapsulate
  | decapsulate _ _ => .decapsulate
  | generate _ => .derive
  | openSigner _ d => d.usage

/-- How a call ends, without its result. -/
def outcome (c : KeyCall) (key : Object) : Except Failure Unit :=
  match c with
  | encapsulatedLength e => discard (liftM (e.encapsulatedLength key) : Except Failure Nat)
  | encapsulate e t => discard ((e.encapsulate key).on t).1
  | decapsulate e data => discard (e.decapsulate key data)
  | generate g => discard (g.generate key)
  | openSigner m d => discard (liftM (m.bindTowards key d) : Except Failure Signer)

/-- The parameters of the call hold no peer key, which encapsulation refuses first. -/
def PeerFree : KeyCall → Prop
  | encapsulate e _ | decapsulate e _ => ∀ f kdf p, e.scheme = .agreement f kdf p → p.publicData.getD [] = []
  | _ => True

end KeyCall

/-- The calls that an operation of the registry allows, with the kinds of keys they accept. An
encapsulator accepts keys of the type of the object it was made for. It makes no difference whether a
template was given, or which. -/
inductive Registry.Offers (r : Registry) : KeyCall → (KeyKind → Prop) → Prop
  | encapsulatedLength {m : Mechanism} {key : Object} {type : UInt64} {e : Encapsulator}
      (template : Option SecretTemplate) :
    key.getNumber .keyType = .ok type → r.encapsulator m key = .ok e →
      r.Offers (.encapsulatedLength { e with template }) fun k => k.cls = .publicKey ∧ k.type = ⟨type⟩
  | encapsulate {m : Mechanism} {key : Object} {type : UInt64} {e : Encapsulator} (template : Option SecretTemplate)
      (t : RandomSource) :
    key.getNumber .keyType = .ok type → r.encapsulator m key = .ok e →
      r.Offers (.encapsulate { e with template } t) fun k => k.cls = .publicKey ∧ k.type = ⟨type⟩
  | decapsulate {m : Mechanism} {key : Object} {type : UInt64} {e : Encapsulator} (template : Option SecretTemplate)
      (data : Bytes) :
    key.getNumber .keyType = .ok type → r.encapsulator m key = .ok e →
      r.Offers (.decapsulate { e with template } data) fun k => k.cls = .privateKey ∧ k.type = ⟨type⟩
  | generate {m : Mechanism} {store : Store} {g : DerivationGenerator} (template : Option SecretTemplate) :
    r.derivationGenerator m store = .ok g → r.Offers (.generate { g with template }) g.StartsFrom
  | openSigner {preference : HedgePreference} {m : Mechanism} {sm : SignatureMethod} (d : Direction) :
    r.signatureMethod preference m = .ok sm → r.Offers (.openSigner sm d) fun k => sm.scheme.Takes d k

/-! ## Guarded sequences -/

/-- The refusal of a key that does not allow a usage. -/
def notPermitted (usage : AttributeId) : Error := .explained .keyFunctionNotPermitted (.usageNotSet usage)

/-- The sequence `x` looks at the kind of the key and then at its usage flag first. -/
structure Guards {ε α : Type} (key : Object) (usage : AttributeId) (accepted : KeyKind → Prop) (denied : ε)
    (x : Except ε α) : Prop where
  allows : ∀ a, x = .ok a → ∃ k, key.kind = .ok k ∧ accepted k ∧ key.flag usage false = true
  refuses : ∀ k, key.kind = .ok k → accepted k → key.flag usage false = false → x = .error denied

namespace Guards

variable {ε α β : Type} {key : Object} {usage : AttributeId} {accepted : KeyKind → Prop} {denied : ε} {x : Except ε α}

theorem bind (h : Guards key usage accepted denied x) (f : α → Except ε β) :
    Guards key usage accepted denied (x >>= f) where
  allows b hb := by
    obtain ⟨a, ha, -⟩ := Except.bind_ok.1 hb
    exact h.allows a ha
  refuses k hk ha hf := by
    rw [h.refuses k hk ha hf]
    rfl

theorem congr {accepted' : KeyKind → Prop} (h : Guards key usage accepted denied x)
    (hiff : ∀ k, accepted k ↔ accepted' k) : Guards key usage accepted' denied x := by
  rwa [← funext fun k => propext (hiff k)]

theorem discard (h : Guards key usage accepted denied x) : Guards key usage accepted denied (discard x) where
  allows u hu := by
    obtain ⟨a, ha⟩ := Except.discard_ok.1 hu
    exact h.allows a ha
  refuses k hk ha hf := by
    rw [h.refuses k hk ha hf]
    rfl

/-- An error of the token is a failure of the operation. -/
theorem lift {denied : Error} {x : Except Error α} (h : Guards key usage accepted denied x) :
    Guards key usage accepted (Failure.error denied) (liftM x : Except Failure α) where
  allows a ha := h.allows a (Except.lift_ok.1 ha)
  refuses k hk ha hf := by
    rw [h.refuses k hk ha hf]
    rfl

/-- A sequence that draws looks at the key before it draws. -/
theorem draw {denied : Error} {x : Except Error α} (h : Guards key usage accepted denied x) (f : α → Draw β)
    (t : RandomSource) : Guards key usage accepted (Failure.error denied) (((liftM x : Draw α) >>= f).on t).1 where
  allows b hb := by
    obtain ⟨a, ha, -⟩ := Draw.bind_lift_ok.1 (Prod.ext hb rfl)
    exact h.allows a ha
  refuses k hk ha hf := by
    rw [Draw.on_bind, h.refuses k hk ha hf]
    rfl

theorem drawBind {denied : Failure} {x : Draw α} {t : RandomSource} (h : Guards key usage accepted denied (x.on t).1)
    (f : α → Draw β) : Guards key usage accepted denied ((x >>= f).on t).1 where
  allows b hb := by
    obtain ⟨a, t', ha, -⟩ := Draw.bind_ok.1 (Prod.ext hb rfl)
    exact h.allows a (congrArg Prod.fst ha)
  refuses k hk ha hf := by
    have hx : x.on t = (.error denied, (x.on t).2) := Prod.ext (h.refuses k hk ha hf) rfl
    rw [Draw.on_bind, hx]

/-! ### Looking at the key -/

theorem bindKey {m : MechanismId} {expected : String} {accept : KeyKind → Bool}
    (haccept : ∀ k, accept k = true ↔ accepted k) :
    Guards key usage accepted (notPermitted usage) (key.bind m usage expected accept) where
  allows k hk := by
    obtain ⟨k, hkind, h⟩ := Except.bind_ok.1 hk
    obtain ⟨ha, -⟩ := Except.ite_refuse_ok.1 h
    exact ⟨k, hkind, (haccept k).1 ha, Object.flag_of_bind hk⟩
  refuses k hk ha hf := by
    rw [Object.bind, hk, Except.ok_bind, if_pos ((haccept k).2 ha), Object.checkPermission, hf]
    rfl

theorem checkBase {g : DerivationGenerator} {accept : KeyKind → Bool} (haccept : ∀ k, accept k = true ↔ accepted k) :
    Guards key .derive accepted (notPermitted .derive) (g.checkBase key accept) where
  allows k hk := by
    unfold DerivationGenerator.checkBase at hk
    split at hk
    · cases hk
    next k hkind =>
    obtain ⟨ha, h⟩ := Except.ite_refuse_ok.1 hk
    obtain ⟨_, h, -⟩ := Except.bind_ok.1 h
    exact ⟨k, hkind, (haccept k).1 ha, Object.flag_of_checkPermission h⟩
  refuses k hk ha hf := by
    unfold DerivationGenerator.checkBase
    rw [hk]
    simp only
    rw [if_pos ((haccept k).2 ha), Object.checkPermission, hf]
    rfl

end Guards

/-! ## Accepted kinds -/

namespace KeyKind

open ObjectClass KeyType

-- Kinds are compared by the numbers of their class and type.
attribute [local simp] cls type publicKey privateKey secretKey rsa ec ecEdwards ecMontgomery mlKem mlDsa slhDsa

variable (k : KeyKind)

/-- Class and type tell the kinds without a curve apart. -/
theorem eq_iff_of_curveless (k' : KeyKind) (h : k'.curve? = none) :
    (k == k') = true ↔ k.cls = k'.cls ∧ k.type = k'.type := by
  cases k' <;> simp only [curve?, reduceCtorEq] at h <;> cases k <;> simp

theorem isPublic_iff (f : CurveFamily) : f.isPublic k = true ↔ k.cls = .publicKey ∧ k.type = f.keyType := by
  cases f <;> cases k <;> simp [CurveFamily.isPublic, CurveFamily.keyType]

theorem isPrivate_iff (f : CurveFamily) : f.isPrivate k = true ↔ k.cls = .privateKey ∧ k.type = f.keyType := by
  cases f <;> cases k <;> simp [CurveFamily.isPrivate, CurveFamily.keyType]

theorem isEcPublic_iff : SignatureScheme.isEcPublic k = true ↔ k.cls = .publicKey ∧ k.type = .ec := by
  have heq : SignatureScheme.isEcPublic k = CurveFamily.prime.isPublic k := by cases k <;> rfl
  rw [heq]
  exact isPublic_iff k .prime

theorem isEcPrivate_iff : SignatureScheme.isEcPrivate k = true ↔ k.cls = .privateKey ∧ k.type = .ec := by
  have heq : SignatureScheme.isEcPrivate k = CurveFamily.prime.isPrivate k := by cases k <;> rfl
  rw [heq]
  exact isPrivate_iff k .prime

theorem isEdwardsPublic_iff :
    SignatureScheme.isEdwardsPublic k = true ↔ k.cls = .publicKey ∧ k.type = .ecEdwards := by
  cases k <;> simp [SignatureScheme.isEdwardsPublic]

theorem isEdwardsPrivate_iff :
    SignatureScheme.isEdwardsPrivate k = true ↔ k.cls = .privateKey ∧ k.type = .ecEdwards := by
  cases k <;> simp [SignatureScheme.isEdwardsPrivate]

theorem acceptsAgreement_iff (g : DerivationGenerator) : g.acceptsAgreement k = true ↔
    k.cls = .privateKey ∧ (k.type = .ec ∨ k.type = .ecMontgomery ∧ g.mechanism ≠ .ecdh1CofactorDerive) := by
  cases k <;> simp [DerivationGenerator.acceptsAgreement]

theorem isSecret_iff : DerivationGenerator.isSecret k = true ↔ k.cls = .secretKey := by
  cases k <;> simp [DerivationGenerator.isSecret]

theorem acceptsSecret_iff (types : List KeyType) :
    SignatureScheme.acceptsSecret types k = true ↔ ∃ t ∈ types, k = .secret t := by
  cases k <;> simp [SignatureScheme.acceptsSecret]

end KeyKind

/-- A check for one kind without a curve. -/
theorem Guards.bindCurveless {key : Object} {usage : AttributeId} {m : MechanismId} {expected : String} (k' : KeyKind)
    (h : k'.curve? = none) :
    Guards key usage (fun k => k.cls = k'.cls ∧ k.type = k'.type) (notPermitted usage)
      (key.bind m usage expected (· == k')) :=
  bindKey fun k => k.eq_iff_of_curveless k' h

/-! ## Encapsulation -/

/-- The type of the keys of a scheme. -/
def EncapsulationScheme.keyType : EncapsulationScheme → KeyType
  | mlKem => .mlKem
  | rsa _ => .rsa
  | agreement f _ _ => f.keyType

namespace Encapsulator

open Guards KeyKind

variable {e : Encapsulator} {key : Object}

/-- Public keys of the scheme. -/
abbrev AcceptsPublic (e : Encapsulator) (k : KeyKind) : Prop := k.cls = .publicKey ∧ k.type = e.scheme.keyType

/-- Private keys of the scheme. -/
abbrev AcceptsPrivate (e : Encapsulator) (k : KeyKind) : Prop := k.cls = .privateKey ∧ k.type = e.scheme.keyType

theorem guards_mlKemPublic (hs : e.scheme = .mlKem) :
    Guards key .encapsulate e.AcceptsPublic (notPermitted .encapsulate) (e.mlKemPublic key) := by
  unfold AcceptsPublic
  rw [hs]
  exact (bindCurveless .mlKemPublic rfl).discard.bind _

theorem guards_rsaPublic {padding : Rsa.Padding} (hs : e.scheme = .rsa padding) :
    Guards key .encapsulate e.AcceptsPublic (notPermitted .encapsulate) (e.rsaPublic key) := by
  unfold AcceptsPublic
  rw [hs]
  exact (bindCurveless .rsaPublic rfl).discard.bind _

theorem guards_agreementPublic {f : CurveFamily} {kdf : AgreementKdf} {p : AgreementParams}
    (hs : e.scheme = .agreement f kdf p) :
    Guards key .encapsulate e.AcceptsPublic (notPermitted .encapsulate) (e.agreementPublic f key) := by
  unfold AcceptsPublic
  rw [hs]
  exact (bindKey fun k => isPublic_iff k f).discard.bind _

theorem guards_encapsulatedLength :
    Guards key .encapsulate e.AcceptsPublic (notPermitted .encapsulate) (e.encapsulatedLength key) := by
  unfold encapsulatedLength
  cases hs : e.scheme with
  | mlKem => exact (guards_mlKemPublic hs).bind _
  | rsa padding => exact (guards_rsaPublic hs).bind _
  | agreement f kdf p => exact (guards_agreementPublic hs).bind _

theorem guards_mlKemPrivate (hs : e.scheme = .mlKem) :
    Guards key .decapsulate e.AcceptsPrivate (notPermitted .decapsulate) (e.mlKemPrivate key) := by
  unfold AcceptsPrivate
  rw [hs]
  exact (bindCurveless .mlKemPrivate rfl).discard.bind _

theorem guards_rsaPrivate {padding : Rsa.Padding} (hs : e.scheme = .rsa padding) :
    Guards key .decapsulate e.AcceptsPrivate (notPermitted .decapsulate) (e.rsaPrivate key) := by
  unfold AcceptsPrivate
  rw [hs]
  exact (bindCurveless .rsaPrivate rfl).discard.bind _

theorem guards_agreementPrivate {f : CurveFamily} {kdf : AgreementKdf} {p : AgreementParams}
    (hs : e.scheme = .agreement f kdf p) :
    Guards key .decapsulate e.AcceptsPrivate (notPermitted .decapsulate) (e.agreementPrivate f key) := by
  unfold AcceptsPrivate
  rw [hs]
  exact (bindKey fun k => isPrivate_iff k f).discard.bind _

/-- No peer key in the parameters. -/
abbrev PeerFree (e : Encapsulator) : Prop := ∀ f kdf p, e.scheme = .agreement f kdf p → p.publicData.getD [] = []

theorem checkNoPeer_ok {p : AgreementParams} : e.checkNoPeer p = .ok () ↔ p.publicData.getD [] = [] := by
  rw [checkNoPeer, Except.ite_refuse_ok, List.isEmpty_iff]
  exact and_iff_left rfl

theorem guards_encapsulate (hp : e.PeerFree) (t : RandomSource) :
    Guards key .encapsulate e.AcceptsPublic (.error (notPermitted .encapsulate)) ((e.encapsulate key).on t).1 := by
  refine drawBind ?_ _
  unfold drawSecret
  cases hs : e.scheme with
  | mlKem => exact (guards_mlKemPublic hs).draw _ t
  | rsa padding => exact (guards_rsaPublic hs).draw _ t
  | agreement f kdf p =>
    simp only
    unfold encapsulateAgreement
    rw [checkNoPeer_ok.2 (hp f kdf p hs)]
    exact (guards_agreementPublic hs).draw _ t

theorem guards_decapsulate (hp : e.PeerFree) (data : Bytes) :
    Guards key .decapsulate e.AcceptsPrivate (.error (notPermitted .decapsulate)) (e.decapsulate key data) := by
  refine Guards.bind ?_ _
  unfold recoverSecret
  cases hs : e.scheme with
  | mlKem => exact ((guards_mlKemPrivate hs).bind _).lift
  | rsa padding => exact ((guards_rsaPrivate hs).bind _).lift
  | agreement f kdf p =>
    simp only
    unfold recoverAgreement
    rw [checkNoPeer_ok.2 (hp f kdf p hs)]
    exact (guards_agreementPrivate hs).lift.bind _

/-- An operation that succeeds found no peer key in its parameters. -/
theorem peerFree_of_encapsulate {t t' : RandomSource} {r : Object × Bytes} (h : (e.encapsulate key).on t = (.ok r, t')) :
    e.PeerFree := by
  intro f kdf p hs
  obtain ⟨s, t₁, h, -⟩ := Draw.bind_ok.1 h
  unfold drawSecret at h
  rw [hs] at h
  obtain ⟨_, hpeer, -⟩ := Draw.bind_lift_ok.1 h
  exact checkNoPeer_ok.1 hpeer

theorem peerFree_of_decapsulate {data : Bytes} {o : Object} (h : e.decapsulate key data = .ok o) : e.PeerFree := by
  intro f kdf p hs
  obtain ⟨s, h, -⟩ := Except.bind_ok.1 h
  unfold recoverSecret at h
  rw [hs] at h
  obtain ⟨_, hpeer, -⟩ := Except.bind_lift_ok.1 h
  exact checkNoPeer_ok.1 hpeer

end Encapsulator

/-! ## Derivation -/

namespace DerivationGenerator

open Guards KeyKind

variable {g : DerivationGenerator} {key : Object}

theorem guards_baseSecret :
    Guards key .derive (fun k => k.cls = .secretKey) (notPermitted .derive) (g.baseSecret key) :=
  (Guards.checkBase isSecret_iff).discard.bind _

theorem guards_generate (g : DerivationGenerator) (key : Object) :
    Guards key .derive g.StartsFrom (.error (notPermitted .derive)) (g.generate key) := by
  refine Guards.bind ?_ _
  unfold material StartsFrom
  cases g.rule with
  | digest d => exact guards_baseSecret.lift.bind _
  | appendKey other => exact guards_baseSecret.lift.bind _
  | appendData data => exact guards_baseSecret.lift.bind _
  | prependData data => exact guards_baseSecret.lift.bind _
  | xorData data => exact guards_baseSecret.lift.bind _
  | extractBits index => exact guards_baseSecret.lift.bind _
  | hkdf steps => exact guards_baseSecret.lift.bind _
  | agree kdf shared peer => exact (Guards.checkBase fun k => acceptsAgreement_iff k g).lift.bind _
  | encrypt c iv data =>
    refine ((Guards.checkBase fun k => ?_).discard.bind _).lift
    exact beq_iff_eq

end DerivationGenerator

/-! ## Signatures -/

namespace SignatureMethod

open Guards KeyKind SignatureScheme

variable {m : SignatureMethod} {key : Object}

theorem guards_bindSecret {usage : AttributeId} {id : MechanismId} {expected : String} {types : List KeyType} :
    Guards key usage (fun k => ∃ t ∈ types, k = .secret t) (notPermitted usage)
      (bindSecret id key usage expected types) :=
  (bindKey fun k => acceptsSecret_iff k types).discard.bind _

theorem takes_singleton {t : KeyType} {k : KeyKind} : (∃ t' ∈ [t], k = .secret t') ↔ k = .secret t := by simp

/-- The guard of the codes, the same in both directions. -/
theorem guards_bindCode {d : Direction} {code : Except Error Signer} (hc : m.bindCode? key d.usage = some code) :
    Guards key d.usage (fun k => m.scheme.Takes d k) (notPermitted d.usage) code := by
  unfold bindCode? at hc
  split at hc
  · next hs => cases hc; rw [hs]; exact guards_bindSecret.bind _
  · next hs => cases hc; rw [hs]; exact (guards_bindSecret.congr fun k => takes_singleton).bind _
  · next hs => cases hc; rw [hs]; exact (guards_bindSecret.congr fun k => takes_singleton).bind _
  · cases hc

theorem guards_signingEngine (hc : m.bindCode? key .sign = none) :
    Guards key .sign (fun k => m.scheme.Takes .signing k) (notPermitted .sign) (m.signingEngine key) := by
  unfold signingEngine
  cases hs : m.scheme with
  | rsa scheme digest => exact (bindCurveless .rsaPrivate rfl).discard.bind _
  | ecdsa digest => exact (bindKey isEcPrivate_iff).discard.bind _
  | eddsa mode => exact (bindKey isEdwardsPrivate_iff).discard.bind _
  | mlDsa options => exact (bindCurveless .mlDsaPrivate rfl).discard.bind _
  | slhDsa options => exact (bindCurveless .slhDsaPrivate rfl).discard.bind _
  | _ => simp [bindCode?, hs] at hc

theorem guards_verifyingEngine (hc : m.bindCode? key .verify = none) :
    Guards key .verify (fun k => m.scheme.Takes .verifying k) (notPermitted .verify) (m.verifyingEngine key) := by
  unfold verifyingEngine
  cases hs : m.scheme with
  | rsa scheme digest => exact (bindCurveless .rsaPublic rfl).discard.bind _
  | ecdsa digest => exact (bindKey isEcPublic_iff).discard.bind _
  | eddsa mode => exact (bindKey isEdwardsPublic_iff).discard.bind _
  | mlDsa options => exact (bindCurveless .mlDsaPublic rfl).discard.bind _
  | slhDsa options => exact (bindCurveless .slhDsaPublic rfl).discard.bind _
  | _ => simp [bindCode?, hs] at hc

theorem guards_bindTowards (d : Direction) :
    Guards key d.usage (fun k => m.scheme.Takes d k) (notPermitted d.usage) (m.bindTowards key d) := by
  cases d with
  | signing =>
    refine Guards.bind ?_ _
    unfold bindSigning
    cases hc : m.bindCode? key .sign with
    | some code => exact (guards_bindCode (d := .signing) hc).bind _
    | none => exact (guards_signingEngine hc).bind _
  | verifying =>
    show Guards _ _ _ _ (m.bindVerifying key)
    unfold bindVerifying
    cases hc : m.bindCode? key .verify with
    | some code => exact guards_bindCode (d := .verifying) hc
    | none => exact (guards_verifyingEngine hc).bind _

end SignatureMethod

/-! ## From the registry -/

namespace Encapsulator

variable {m : Mechanism} {type : KeyType} {e : Encapsulator}

theorem keyType_ofMlKem (h : ofMlKem m type = .ok e) : e.scheme.keyType = type := by
  unfold ofMlKem at h
  split at h
  · cases h
  next ht =>
  obtain ⟨_, -, h⟩ := Except.bind_ok.1 h
  cases h
  exact (Decidable.not_not.1 ht).symm

theorem keyType_ofRsa (h : ofRsa m type = .ok e) : e.scheme.keyType = type := by
  unfold ofRsa at h
  split at h
  · cases h
  next ht =>
  rw [Decidable.not_not.1 ht]
  split at h
  · cases h; rfl
  split at h
  · obtain ⟨padding, -, h⟩ := Except.bind_ok.1 h
    cases h; rfl
  · cases h

theorem keyType_agreementFamily {m : MechanismId} {family : CurveFamily} (h : agreementFamily? m type = some family) :
    family.keyType = type := by
  unfold agreementFamily? at h
  split at h
  · next ht =>
    cases h
    simp only [Bool.and_eq_true, decide_eq_true_eq] at ht
    exact ht.1.symm
  split at h
  · next ht =>
    cases h
    simp only [Bool.and_eq_true, decide_eq_true_eq] at ht
    exact ht.1.symm
  · cases h

theorem keyType_ofAgreement (h : ofAgreement m type = .ok e) : e.scheme.keyType = type := by
  obtain ⟨⟨params, kdf⟩, -, h⟩ := Except.bind_ok.1 h
  simp only at h
  split at h
  · next family hf =>
    cases h
    exact keyType_agreementFamily hf
  · cases h

end Encapsulator

/-- An encapsulator works with keys of the type of the object it was made for. -/
theorem Registry.keyType_encapsulator {r : Registry} {m : Mechanism} {key : Object} {type : UInt64} {e : Encapsulator}
    (ht : key.getNumber .keyType = .ok type) (h : r.encapsulator m key = .ok e) : e.scheme.keyType = ⟨type⟩ := by
  obtain ⟨f, -, h⟩ := Except.bind_ok.1 h
  rw [ht] at h
  cases f with
  | rsaPkcs => exact Encapsulator.keyType_ofRsa h
  | rsaOaep => exact Encapsulator.keyType_ofRsa h
  | mlKem => exact Encapsulator.keyType_ofMlKem h
  | ecdh => exact Encapsulator.keyType_ofAgreement h
  | _ => cases h

theorem Object.flag_eq_true {o : Object} {id : AttributeId} :
    o.flag id false = true ↔ o.value? id = some (.bool true) := by
  unfold Object.flag
  rcases o.value? id with _ | _ | _ | _ | _ | _ <;> simp

/-- What a guarded call shows of its key. -/
theorem KeyCall.authorized_of_guards {c : KeyCall} {key : Object} {accepted : KeyKind → Prop}
    (hg : c.PeerFree → Guards key c.usage accepted (Failure.error (notPermitted c.usage)) (c.outcome key))
    (hp : c.outcome key = .ok () → c.PeerFree) :
    (c.outcome key = .ok () →
      ∃ k, key.kind = .ok k ∧ accepted k ∧ key.value? c.usage = some (.bool true)) ∧
    (c.PeerFree → ∀ k, key.kind = .ok k → accepted k → key.value? c.usage ≠ some (.bool true) →
      c.outcome key = .error (.error (.explained .keyFunctionNotPermitted (.usageNotSet c.usage)))) := by
  refine ⟨fun hok => ?_, fun hpeer k hk ha hflag => ?_⟩
  · obtain ⟨k, hk, ha, hf⟩ := (hg (hp hok)).allows () hok
    exact ⟨k, hk, ha, Object.flag_eq_true.1 hf⟩
  · exact (hg hpeer).refuses k hk ha (Bool.eq_false_iff.2 fun hf => hflag (Object.flag_eq_true.1 hf))

/-- A call succeeds only with a key of an accepted kind whose usage flag is set. A key of an accepted kind
whose flag is absent, false or no truth value is refused for just that. -/
theorem Registry.authorized {r : Registry} {c : KeyCall} {accepted : KeyKind → Prop} {key : Object}
    (h : r.Offers c accepted) :
    (c.outcome key = .ok () →
      ∃ k, key.kind = .ok k ∧ accepted k ∧ key.value? c.usage = some (.bool true)) ∧
    (c.PeerFree → ∀ k, key.kind = .ok k → accepted k → key.value? c.usage ≠ some (.bool true) →
      c.outcome key = .error (.error (.explained .keyFunctionNotPermitted (.usageNotSet c.usage)))) := by
  cases h with
  | encapsulatedLength template ht he =>
    rw [← keyType_encapsulator ht he]
    exact KeyCall.authorized_of_guards (fun _ => Encapsulator.guards_encapsulatedLength.lift.discard) fun _ => trivial
  | encapsulate template t ht he =>
    rw [← keyType_encapsulator ht he]
    refine KeyCall.authorized_of_guards (fun hp => (Encapsulator.guards_encapsulate hp t).discard) fun hok => ?_
    obtain ⟨a, ha⟩ := Except.discard_ok.1 hok
    exact Encapsulator.peerFree_of_encapsulate (Prod.ext ha rfl)
  | decapsulate template data ht he =>
    rw [← keyType_encapsulator ht he]
    refine KeyCall.authorized_of_guards (fun hp => (Encapsulator.guards_decapsulate hp data).discard) fun hok => ?_
    obtain ⟨a, ha⟩ := Except.discard_ok.1 hok
    exact Encapsulator.peerFree_of_decapsulate ha
  | @generate m store g template hg =>
    have guards := DerivationGenerator.guards_generate { g with template } key
    exact KeyCall.authorized_of_guards (fun _ => guards.discard) fun _ => trivial
  | openSigner d hm =>
    exact KeyCall.authorized_of_guards (fun _ => (SignatureMethod.guards_bindTowards d).lift.discard) fun _ => trivial

/-! ## Two calls -/

namespace Authorization

/-- A small RSA public key that allows encapsulation. -/
def smallPublic : Object := (RsaPublicKey.toObject ⟨[143], [7]⟩).put (.ofBool .encapsulate true)

def rsaEncapsulator : Encapsulator := { mechanism := .rsaPkcs, scheme := .rsa .pkcs1 }

/-- A secret key that has neither a value nor a usage. -/
def hollow : Object := .newKey .secretKey .genericSecret []

def hmacMethod : SignatureMethod := ⟨.sha256Hmac, .hmac .sha256 [.genericSecret, .sha256Hmac] none⟩

end Authorization

open Authorization in
/-- The length for a public key that allows encapsulation is told; a key without a value is refused for its
usage. -/
theorem Registry.authorized_calls :
    (KeyCall.outcome (.encapsulatedLength rsaEncapsulator) smallPublic = .ok () ∧
      ∃ k, smallPublic.kind = .ok k ∧ (k.cls = .publicKey ∧ k.type = .rsa) ∧
        smallPublic.value? .encapsulate = some (.bool true)) ∧
    KeyCall.outcome (.openSigner hmacMethod .signing) hollow =
      .error (.error (.explained .keyFunctionNotPermitted (.usageNotSet .sign))) := by
  have he : (full.encapsulator ⟨.rsaPkcs, []⟩ smallPublic).toOption = some rsaEncapsulator := by decide +kernel
  have ht : (smallPublic.getNumber .keyType).toOption = some 0 := by decide +kernel
  have hm : (full.signatureMethod .deterministic ⟨.sha256Hmac, []⟩).toOption = some hmacMethod := by decide +kernel
  have hok : (KeyCall.outcome (.encapsulatedLength rsaEncapsulator) smallPublic).toOption = some () := by decide +kernel
  have hk : hollow.kind.toOption = some (.secret .genericSecret) := by decide +kernel
  have offersLength := Offers.encapsulatedLength none (Except.ok_of_toOption ht) (Except.ok_of_toOption he)
  have offersSigner := Offers.openSigner .signing (Except.ok_of_toOption hm)
  exact ⟨⟨Except.ok_of_toOption hok, (authorized offersLength).1 (Except.ok_of_toOption hok)⟩,
    (authorized offersSigner).2 trivial _ (Except.ok_of_toOption hk) ⟨.genericSecret, by decide, rfl⟩
      (by decide +kernel)⟩

end SoftToken
