import SoftToken.Proofs.RequestErrors
import SoftToken.Proofs.SecretValues
/-!
# The two paths of an agreement

A private key agrees on a secret with a peer in two ways: by derivation, with the point of the peer in the
parameters, or by decapsulation, with the point as the data. Both make a key of what the family of the curve
agrees on (`CurveFamily.Agrees`), so that they give the same values (`Registry.agreement_paths`).
-/

namespace SoftToken

/-- The owner of a private key and a peer with a point, raw or inside an octet string, agree on a secret. -/
def CurveFamily.Agrees (f : CurveFamily) (key : Object) (kdf : AgreementKdf) (shared peer : Bytes) (minimal : Nat)
    (secret : Bytes) : Prop :=
  ∃ view point z, EcPrivateKey.ofObject key f.keyType = .ok view ∧ view.curve.decodePoint peer = .ok point ∧
    f.agree view.curve view.value point = .ok z ∧ kdf.secret z shared minimal = .ok secret

/-- The parameters `p'` are those of `p` with the point `peer` left out. -/
structure AgreementParams.LeavesOut (peer : Bytes) (p p' : AgreementParams) : Prop where
  kdf : p'.kdf = p.kdf
  sharedData : p'.sharedData.getD [] = p.sharedData.getD []
  publicData : p.publicData = some peer
  nonempty : peer ≠ []
  absent : p'.publicData.getD [] = []

/-- A private key of a family that may be used on both paths. -/
structure CurveFamily.Serves (f : CurveFamily) (key : Object) : Prop where
  kind : ∃ k, key.kind = .ok k ∧ ofPrivate? k = some f
  derive : key.flag .derive false = true
  decapsulate : key.flag .decapsulate false = true

variable {f : CurveFamily} {key : Object} {kdf : AgreementKdf} {shared peer secret : Bytes} {t : SecretTemplate}

theorem CurveFamily.isPrivate_of {k : KeyKind} (h : ofPrivate? k = some f) : f.isPrivate k = true := by
  unfold ofPrivate? at h
  split at h
  · cases h; rfl
  · cases h; rfl
  · cases h

theorem CurveFamily.Serves.keyType (h : f.Serves key) : key.getNumber .keyType = .ok f.keyType.val := by
  obtain ⟨k, hk, hf⟩ := h.kind
  rw [(Object.kind_ok hk).1]
  unfold CurveFamily.ofPrivate? at hf
  split at hf
  · cases hf; rfl
  · cases hf; rfl
  · cases hf

/-- Both paths read the key, read the point, each with a code of its own for a bad one, and go on alike. -/
theorem CurveFamily.agrees_iff {code : ReturnCode} {require : Except Error SecretTemplate} (ht : require = .ok t) :
    (do
      let view ← EcPrivateKey.ofObject key f.keyType
      match view.curve.decodePoint peer with
      | .error e => throw (Failure.error (Error.wrapping code e))
      | .ok point =>
        let template ← require
        let z ← f.agree view.curve view.value point
        kdf.secret z shared template.minimalLength : Except Failure Bytes) = .ok secret ↔
      f.Agrees key kdf shared peer t.minimalLength secret := by
  constructor
  · intro h
    obtain ⟨view, hview, h⟩ := Except.bind_lift_ok.1 h
    cases hpoint : view.curve.decodePoint peer with
    | error e =>
      rw [hpoint] at h
      cases h
    | ok point =>
      simp only [hpoint, ht, Except.liftM_ok, Except.ok_bind] at h
      obtain ⟨z, hz, hs⟩ := Except.bind_lift_ok.1 h
      exact ⟨view, point, z, hview, hpoint, hz, hs⟩
  · rintro ⟨view, point, z, hview, hpoint, hz, hs⟩
    rw [hview, Except.liftM_ok, Except.ok_bind, hpoint]
    simp only [ht, Except.liftM_ok, Except.ok_bind, hz]
    exact hs

/-! ## Derivation -/

namespace DerivationGenerator

variable {g : DerivationGenerator}

/-- The mechanism takes keys of the family. The cofactor form is for prime curves only. -/
def Takes (m : MechanismId) (f : CurveFamily) : Prop := m = .ecdh1Derive ∨ m = .ecdh1CofactorDerive ∧ f = .prime

/-- The check of the base key lets a private key of the family pass. -/
theorem checkBase_of_kind {k : KeyKind} (hk : key.kind = .ok k) (hf : CurveFamily.ofPrivate? k = some f)
    (hd : key.flag .derive false = true) (hm : Takes g.mechanism f) : g.checkBase key g.acceptsAgreement = .ok k := by
  have haccept : g.acceptsAgreement k = true := by
    unfold CurveFamily.ofPrivate? at hf
    split at hf
    · rfl
    · cases hf
      rcases hm with hm | ⟨-, hprime⟩
      · simp only [acceptsAgreement, hm]
        decide
      · cases hprime
    · cases hf
  have hperm : key.checkPermission .derive = .ok () := if_pos hd
  unfold checkBase
  simp only [hk, if_pos haccept, hperm]
  rfl

theorem checkBase_of_serves (h : f.Serves key) (hm : Takes g.mechanism f) :
    g.checkBase key g.acceptsAgreement = key.kind := by
  obtain ⟨k, hk, hf⟩ := h.kind
  rw [checkBase_of_kind hk hf h.derive hm, hk]

/-- The material of a derivation by agreement is what the key and the peer agree on. -/
theorem agreedMaterial_ok (h : f.Serves key) (hm : Takes g.mechanism f) (ht : g.template = some t) :
    g.agreedMaterial kdf shared peer key = .ok secret ↔ f.Agrees key kdf shared peer t.minimalLength secret := by
  obtain ⟨k, hk, hf⟩ := h.kind
  have hfamily : (CurveFamily.ofPrivate? k).getD .prime = f := by rw [hf]; rfl
  unfold agreedMaterial
  rw [checkBase_of_serves h hm, hk, Except.liftM_ok, Except.ok_bind, hfamily]
  exact CurveFamily.agrees_iff (SecretTemplate.require_ok.2 ht)

/-- Mechanisms that take the key derive the same from it. -/
theorem generate_congr {m m' : MechanismId} (h : f.Serves key) (hm : Takes m f) (hm' : Takes m' f) :
    generate ⟨m', .agree kdf shared peer, some t⟩ key = generate ⟨m, .agree kdf shared peer, some t⟩ key := by
  have hmaterial : agreedMaterial ⟨m', .agree kdf shared peer, some t⟩ kdf shared peer key =
      agreedMaterial ⟨m, .agree kdf shared peer, some t⟩ kdf shared peer key := by
    unfold agreedMaterial
    rw [checkBase_of_serves h hm', checkBase_of_serves h hm]
    rfl
  simp only [generate, material, hmaterial]
  rfl

end DerivationGenerator

/-! ## Decapsulation -/

namespace Encapsulator

variable {e : Encapsulator} {p : AgreementParams}

theorem agreementPrivate_of_serves (h : f.Serves key) :
    e.agreementPrivate f key = EcPrivateKey.ofObject key f.keyType := by
  obtain ⟨k, hk, hf⟩ := h.kind
  unfold agreementPrivate
  rw [Object.bind_of_kind hk (CurveFamily.isPrivate_of hf) h.decapsulate]
  rfl

theorem checkNoPeer_of_absent (hp : p.publicData.getD [] = []) : e.checkNoPeer p = .ok () := if_pos (by rw [hp]; rfl)

/-- The secret that is recovered by agreement is what the key and the peer agree on. -/
theorem recoverAgreement_ok (h : f.Serves key) (hp : p.publicData.getD [] = []) (ht : e.template = some t) :
    e.recoverAgreement f kdf p key peer = .ok secret ↔
      f.Agrees key kdf (p.sharedData.getD []) peer t.minimalLength secret := by
  unfold recoverAgreement
  rw [checkNoPeer_of_absent hp, Except.liftM_ok, Except.ok_bind, agreementPrivate_of_serves h]
  exact CurveFamily.agrees_iff (SecretTemplate.require_ok.2 ht)

/-- Mechanisms over the same curves recover the same. -/
theorem decapsulate_congr (m m' : MechanismId) (h : f.Serves key) (hp : p.publicData.getD [] = []) :
    decapsulate ⟨m', .agreement f kdf p, some t⟩ key peer = decapsulate ⟨m, .agreement f kdf p, some t⟩ key peer := by
  have hsecret : recoverAgreement ⟨m', .agreement f kdf p, some t⟩ f kdf p key peer =
      recoverAgreement ⟨m, .agreement f kdf p, some t⟩ f kdf p key peer := by
    unfold recoverAgreement
    rw [checkNoPeer_of_absent hp, checkNoPeer_of_absent hp, agreementPrivate_of_serves h, agreementPrivate_of_serves h]
    rfl
  simp only [decapsulate, recoverSecret, hsecret]
  rfl

end Encapsulator

/-! ## Requests -/

namespace Registry

variable {r : Registry} {id : MechanismId} {b : Bytes} {p : AgreementParams}

/-- A generator for agreement has what the parameters say. -/
theorem derivationGenerator_agreement (hr : r.find? id = some .ecdh) (hb : Params.decode AgreementParams b = .ok p)
    (hpeer : p.publicData = some peer) (hne : peer ≠ []) (store : Store) :
    r.derivationGenerator ⟨id, b⟩ store = (do
      let kdf ← AgreementKdf.ofNumber p.kdf
      return { mechanism := id, rule := .agree kdf (p.sharedData.getD []) peer }) := by
  have hempty : ¬ (p.publicData.getD []).isEmpty = true := by
    rw [hpeer]
    exact mt List.isEmpty_iff.1 hne
  unfold derivationGenerator
  rw [findFor_of_supports hr rfl, Except.ok_bind]
  show DerivationGenerator.ofAgreement ⟨id, b⟩ = _
  unfold DerivationGenerator.ofAgreement DerivationGenerator.agreementParams
  rw [hb, Except.ok_bind]
  cases AgreementKdf.ofNumber p.kdf with
  | error e => rfl
  | ok kdf =>
    rw [Except.ok_bind, Except.ok_bind]
    show (if (p.publicData.getD []).isEmpty = true then _ else _) = _
    rw [if_neg hempty, hpeer]
    rfl

/-- So does an encapsulator. -/
theorem encapsulator_agreement (hr : r.find? id = some .ecdh) (hb : Params.decode AgreementParams b = .ok p)
    (h : f.Serves key) (hfamily : Encapsulator.agreementFamily? id f.keyType = some f) :
    r.encapsulator ⟨id, b⟩ key = (do
      let kdf ← AgreementKdf.ofNumber p.kdf
      return { mechanism := id, scheme := .agreement f kdf p }) := by
  unfold encapsulator
  rw [findFor_of_supports hr rfl, Except.ok_bind, h.keyType]
  show Encapsulator.ofAgreement ⟨id, b⟩ f.keyType = _
  unfold Encapsulator.ofAgreement DerivationGenerator.agreementParams
  rw [hb, Except.ok_bind]
  cases AgreementKdf.ofNumber p.kdf with
  | error e => rfl
  | ok kdf =>
    rw [Except.ok_bind, Except.ok_bind]
    simp only [hfamily]
    rfl

/-- A generator for agreement derives what the encapsulator decapsulates from the point that its parameters leave
out. -/
theorem agreement_value_iff {b' v : Bytes} {p' : AgreementParams} {store : Store} {as : List Attribute}
    (hr : r.find? .ecdh1Derive = some .ecdh) (h : f.Serves key) (hb : Params.decode AgreementParams b = .ok p)
    (hb' : Params.decode AgreementParams b' = .ok p') (hp : p.LeavesOut peer p')
    (ht : SecretTemplate.ofAttributes as = .ok t) :
    (∃ o, r.derive ⟨.ecdh1Derive, b⟩ store as key = .ok o ∧ o.getBytes .value = .ok v) ↔
      (∃ o, r.decapsulate ⟨.ecdh1Derive, b'⟩ as key peer = .ok o ∧ o.getBytes .value = .ok v) ∧
        t.type.allowsLength v.length = true := by
  have hfamily : Encapsulator.agreementFamily? .ecdh1Derive f.keyType = some f := by cases f <;> rfl
  rw [derive_value_iff, decapsulate_value_iff, derivationGenerator_agreement hr hb hp.publicData hp.nonempty,
    encapsulator_agreement hr hb' h hfamily, hp.kdf]
  cases AgreementKdf.ofNumber p.kdf with
  | error e =>
    refine iff_of_false ?_ ?_
    · rintro ⟨g, -, -, hg, -⟩
      cases hg
    · rintro ⟨⟨e, -, -, he, -⟩, -⟩
      cases he
  | ok kdf =>
    constructor
    · rintro ⟨g, t', secret, hg, ht', hs, hv, hlen⟩
      cases hg
      cases ht.symm.trans ht'
      refine ⟨⟨_, t, secret, rfl, ht, ?_, hv⟩, hlen⟩
      have hagrees := (DerivationGenerator.agreedMaterial_ok h (.inl rfl) rfl).1 hs
      rw [← hp.sharedData] at hagrees
      exact (Encapsulator.recoverAgreement_ok h hp.absent rfl).2 hagrees
    · rintro ⟨⟨e, t', secret, he, ht', hs, hv⟩, hlen⟩
      cases he
      cases ht.symm.trans ht'
      refine ⟨_, t, secret, rfl, ht, ?_, hv, hlen⟩
      have hagrees := (Encapsulator.recoverAgreement_ok h hp.absent rfl).1 hs
      rw [hp.sharedData] at hagrees
      exact (DerivationGenerator.agreedMaterial_ok h (.inl rfl) rfl).2 hagrees

theorem derive_cofactor (h : CurveFamily.prime.Serves key) (hr : r.find? .ecdh1Derive = some .ecdh)
    (hc : r.find? .ecdh1CofactorDerive = some .ecdh) (hb : Params.decode AgreementParams b = .ok p)
    (hpeer : p.publicData = some peer) (hne : peer ≠ []) (store : Store) (as : List Attribute) :
    r.derive ⟨.ecdh1CofactorDerive, b⟩ store as key = r.derive ⟨.ecdh1Derive, b⟩ store as key := by
  unfold derive
  rw [derivationGenerator_agreement hr hb hpeer hne, derivationGenerator_agreement hc hb hpeer hne]
  cases AgreementKdf.ofNumber p.kdf with
  | error e => rfl
  | ok kdf =>
    show (do let g ← DerivationGenerator.init _ as; g.generate key : Except Failure Object) =
      (do let g ← DerivationGenerator.init _ as; g.generate key)
    unfold DerivationGenerator.init
    cases SecretTemplate.ofAttributes as with
    | error e => rfl
    | ok t => exact DerivationGenerator.generate_congr h (.inl rfl) (.inr ⟨rfl, rfl⟩)

theorem decapsulate_cofactor (h : CurveFamily.prime.Serves key) (hr : r.find? .ecdh1Derive = some .ecdh)
    (hc : r.find? .ecdh1CofactorDerive = some .ecdh) (hb : Params.decode AgreementParams b = .ok p)
    (hp : p.publicData.getD [] = []) (as : List Attribute) (data : Bytes) :
    r.decapsulate ⟨.ecdh1CofactorDerive, b⟩ as key data = r.decapsulate ⟨.ecdh1Derive, b⟩ as key data := by
  unfold decapsulate
  rw [encapsulator_agreement hr hb h rfl, encapsulator_agreement hc hb h rfl]
  cases AgreementKdf.ofNumber p.kdf with
  | error e => rfl
  | ok kdf =>
    show (do let e ← Encapsulator.init _ as; e.decapsulate key data : Except Failure Object) =
      (do let e ← Encapsulator.init _ as; e.decapsulate key data)
    unfold Encapsulator.init
    cases SecretTemplate.ofAttributes as with
    | error e => rfl
    | ok t => exact Encapsulator.decapsulate_congr _ _ h hp

/-- A private key derives from a peer what it decapsulates from the peer's point: whatever is derived is
decapsulated too, and whatever is decapsulated is derived exactly if the type of the new key allows its
length. Over prime curves the cofactor mechanism does the same on both paths, errors included. -/
theorem agreement_paths {b' : Bytes} {p' : AgreementParams} (hr : r.find? .ecdh1Derive = some .ecdh)
    (h : f.Serves key) (hb : Params.decode AgreementParams b = .ok p)
    (hb' : Params.decode AgreementParams b' = .ok p') (hp : p.LeavesOut peer p') (store : Store)
    (as : List Attribute) :
    (∀ o, r.derive ⟨.ecdh1Derive, b⟩ store as key = .ok o →
      ∃ o' v, r.decapsulate ⟨.ecdh1Derive, b'⟩ as key peer = .ok o' ∧
        o.getBytes .value = .ok v ∧ o'.getBytes .value = .ok v) ∧
    (∀ o', r.decapsulate ⟨.ecdh1Derive, b'⟩ as key peer = .ok o' →
      ∃ type v, o'.kind = .ok (.secret type) ∧ o'.getBytes .value = .ok v ∧
        (type.allowsLength v.length = true ↔
          ∃ o, r.derive ⟨.ecdh1Derive, b⟩ store as key = .ok o ∧ o.getBytes .value = .ok v)) ∧
    (f = .prime → r.find? .ecdh1CofactorDerive = some .ecdh →
      r.derive ⟨.ecdh1CofactorDerive, b⟩ store as key = r.derive ⟨.ecdh1Derive, b⟩ store as key ∧
      r.decapsulate ⟨.ecdh1CofactorDerive, b'⟩ as key peer = r.decapsulate ⟨.ecdh1Derive, b'⟩ as key peer) := by
  refine ⟨fun o ho => ?_, fun o' ho' => ?_, ?_⟩
  · obtain ⟨g₀, g, -, hi, -⟩ := derives_iff.2 ho
    obtain ⟨t, ht, -⟩ := DerivationGenerator.init_eq hi
    obtain ⟨v, hv⟩ := exists_value_of_derive ho
    obtain ⟨⟨o', ho', hv'⟩, -⟩ := (agreement_value_iff hr h hb hb' hp ht).1 ⟨o, ho, hv⟩
    exact ⟨o', v, ho', hv, hv'⟩
  · obtain ⟨t, v, ht, hkind, hv⟩ := exists_value_of_decapsulate ho'
    refine ⟨t.type, v, hkind, hv, ?_⟩
    rw [agreement_value_iff hr h hb hb' hp ht]
    exact (and_iff_right ⟨o', ho', hv⟩).symm
  · rintro rfl hc
    exact ⟨derive_cofactor h hr hc hb hp.publicData hp.nonempty store as,
      decapsulate_cofactor h hr hc hb' hp.absent as peer⟩

end Registry

/-! ## A run -/

namespace AgreementPaths

/-- A private key of P-256 for both paths. -/
def bothWays : Object :=
  [.ofBool .derive true, .ofBool .decapsulate true].foldl Object.put (EcPrivateKey.toObject ⟨.p256, [5]⟩)

/-- The peer whose private value is one. -/
def basePoint : Bytes := PrimeCurve.p256.encode PrimeCurve.p256.base

/-- Agreement with SHA-1 as the derivation and a byte of shared data. -/
def withPeer : AgreementParams := ⟨2, some [9], some basePoint⟩

def withoutPeer : AgreementParams := ⟨2, some [9], none⟩

/-- The wire form of parameters. -/
def wire (p : AgreementParams) : Bytes := (Params.encode p).toOption.getD []

theorem bothWays_serves : CurveFamily.prime.Serves bothWays where
  kind := ⟨.ecPrivate .p256, Except.ok_of_toOption (by decide +kernel), rfl⟩
  derive := by decide +kernel
  decapsulate := by decide +kernel

theorem decode_wire : Params.decode AgreementParams (wire withPeer) = .ok withPeer ∧
    Params.decode AgreementParams (wire withoutPeer) = .ok withoutPeer :=
  ⟨Except.ok_of_toOption (by decide +kernel), Except.ok_of_toOption (by decide +kernel)⟩

theorem derive_run :
    ∃ o, Registry.full.derive ⟨.ecdh1Derive, wire withPeer⟩ {} [.ofNumber .valueLen 21] bothWays = .ok o := by
  have h : (Registry.full.derive ⟨.ecdh1Derive, wire withPeer⟩ {} [.ofNumber .valueLen 21] bothWays).toOption.isSome =
      true := by decide +kernel
  obtain ⟨o, ho⟩ := Option.isSome_iff_exists.1 h
  exact ⟨o, Except.ok_of_toOption ho⟩

end AgreementPaths

open AgreementPaths in
/-- A key of 21 bytes, more than one digest, is derived and decapsulated from the base point, by both mechanisms. -/
theorem Registry.agreement_paths_p256 :
    ∃ o o' v, full.derive ⟨.ecdh1Derive, wire withPeer⟩ {} [.ofNumber .valueLen 21] bothWays = .ok o ∧
      full.derive ⟨.ecdh1CofactorDerive, wire withPeer⟩ {} [.ofNumber .valueLen 21] bothWays = .ok o ∧
      full.decapsulate ⟨.ecdh1Derive, wire withoutPeer⟩ [.ofNumber .valueLen 21] bothWays basePoint = .ok o' ∧
      full.decapsulate ⟨.ecdh1CofactorDerive, wire withoutPeer⟩ [.ofNumber .valueLen 21] bothWays basePoint = .ok o' ∧
      o.getBytes .value = .ok v ∧ o'.getBytes .value = .ok v := by
  have hr : full.find? .ecdh1Derive = some .ecdh := by decide +kernel
  have hc : full.find? .ecdh1CofactorDerive = some .ecdh := by decide +kernel
  have hp : withPeer.LeavesOut basePoint withoutPeer := ⟨rfl, rfl, rfl, by decide +kernel, rfl⟩
  obtain ⟨o, ho⟩ := derive_run
  obtain ⟨hderived, -, hcofactor⟩ :=
    agreement_paths hr bothWays_serves decode_wire.1 decode_wire.2 hp {} [.ofNumber .valueLen 21]
  obtain ⟨o', v, ho', hv, hv'⟩ := hderived o ho
  obtain ⟨hd, he⟩ := hcofactor rfl hc
  exact ⟨o, o', v, ho, hd.trans ho, ho', he.trans ho', hv, hv'⟩

end SoftToken
