import SoftToken.Proofs.AgreementPaths
import SoftToken.Proofs.ViewRoundTrips
/-!
# Bad peer keys in the parameters of a derivation

A derivation by agreement takes the public key of the peer from its parameters. The key may be no point of the curve
by its form, it may lie off a prime curve, or it may be of low order on a Montgomery curve; without one of these
faults a value is shared (`CurveFamily.Derives.shares_iff`). The form is looked at by the derivation, which blames the
parameters. The other two faults are found by the curve, which blames the arguments as it does in decapsulation, and
its code is passed on (`Registry.peer_fault_iff`).
-/

namespace SoftToken

/-- What is wrong with the public key of a peer. -/
inductive PeerFault where
  | form
  | offCurve
  | lowOrder
deriving DecidableEq, Repr

/-- The code that a derivation ends with. -/
def PeerFault.code : PeerFault → ReturnCode
  | form => .mechanismParamInvalid
  | offCurve | lowOrder => .argumentsBad

/-- What is wrong with a peer's public key, for the owner of a private key. -/
def EcPrivateKey.peerFault? (view : EcPrivateKey) (peer : Bytes) : Option PeerFault :=
  match view.curve.decodePoint peer with
  | .error _ => some .form
  | .ok point => match view.curve.prime?, view.curve.montgomery? with
    | some c, _ => if (c.decode? point).isNone then some .offCurve else none
    | none, some c =>
      if c.refuses point (Bytes.ofNatLE c.size (c.mul view.value (c.decode point))) then some .lowOrder else none
    | none, none => none

namespace CurveFamily

/-- The owner of a private key shares a value with a peer, so that the public key of the peer is usable. -/
def Shares (f : CurveFamily) (view : EcPrivateKey) (peer : Bytes) : Prop :=
  ∃ point z, view.curve.decodePoint peer = .ok point ∧ f.agree view.curve view.value point = .ok z

/-- A private key of the family that allows derivation, and whose value is a scalar of its curve. -/
structure Derives (f : CurveFamily) (key : Object) (view : EcPrivateKey) : Prop where
  reads : EcPrivateKey.ofObject key f.keyType = .ok view
  derive : key.flag .derive false = true
  scalar : ∀ c, view.curve.prime? = some c → ∃ d, c.scalar? view.value = some d

variable {f : CurveFamily} {key : Object} {view : EcPrivateKey} {peer point : Bytes} {fault : PeerFault}

/-! ## Curves -/

theorem exists_prime {c : Curve} (h : c.keyType = .ec) : ∃ p, c.prime? = some p := by
  cases c with
  | p256 | p384 | p521 => exact ⟨_, rfl⟩
  | _ => exact absurd h (by decide)

/-- The values and points of a Montgomery curve have the sizes that agreement asks for. -/
theorem exists_montgomery {c : Curve} (h : c.keyType = .ecMontgomery) :
    c.prime? = none ∧ ∃ m, c.montgomery? = some m ∧ m.size = c.keySize ∧ m.size = c.pointSize := by
  cases c with
  | x25519 | x448 => exact ⟨rfl, _, rfl, rfl, rfl⟩
  | _ => exact absurd h (by decide)

theorem ofPrivate?_privateKind {c : Curve} (h : c.keyType = f.keyType) : ofPrivate? c.privateKind = some f := by
  cases f with
  | prime => cases c <;> first | rfl | exact absurd h (by decide)
  | montgomery => cases c <;> first | rfl | exact absurd h (by decide)

/-- A prime curve shares a value with every point on it, and blames the arguments for the others. -/
theorem agree_prime (h : prime.Derives key view) (hpoint : view.curve.decodePoint peer = .ok point) :
    (view.peerFault? peer = none ∧ ∃ z, prime.agree view.curve view.value point = .ok z) ∨
      view.peerFault? peer = some .offCurve ∧
        prime.agree view.curve view.value point = refuse .argumentsBad .peerPointInvalid := by
  obtain ⟨c, hc⟩ := exists_prime (EcPrivateKey.ofObject_ok.1 h.reads).1
  obtain ⟨d, hd⟩ := h.scalar c hc
  unfold EcPrivateKey.peerFault? agree Ecdsa.agree
  simp only [hpoint, hc, hd]
  cases c.decode? point with
  | none => exact .inr ⟨rfl, rfl⟩
  | some q => exact .inl ⟨rfl, _, rfl⟩

/-- A Montgomery curve shares a value with every coordinate but those it refuses. -/
theorem agree_montgomery (h : montgomery.Derives key view) (hpoint : view.curve.decodePoint peer = .ok point) :
    (view.peerFault? peer = none ∧ ∃ z, montgomery.agree view.curve view.value point = .ok z) ∨
      view.peerFault? peer = some .lowOrder ∧
        montgomery.agree view.curve view.value point = refuse .argumentsBad .peerKeyInvalid := by
  obtain ⟨htype, -, b, -, hshort, hvalue⟩ := EcPrivateKey.ofObject_ok.1 h.reads
  obtain ⟨hprime, c, hc, hkey, hsize⟩ := exists_montgomery htype
  have hlength : view.value.length = c.size := by
    rw [← hvalue, hkey]
    exact Bytes.length_padLeft hshort
  have hpeer : point.length = c.size := by rw [hsize, (Curve.decodePoint_ok_iff.1 hpoint).1]
  unfold EcPrivateKey.peerFault? agree Montgomery.agree
  simp only [hpoint, hprime, hc, hlength, hpeer, ne_eq, not_true_eq_false, if_false]
  split
  · exact .inr ⟨rfl, rfl⟩
  · exact .inl ⟨rfl, _, rfl⟩

/-- A curve shares a value with a point, or finds a fault with it and says so. -/
theorem Derives.agree_cases (h : f.Derives key view) (hpoint : view.curve.decodePoint peer = .ok point) :
    (view.peerFault? peer = none ∧ ∃ z, f.agree view.curve view.value point = .ok z) ∨
      ∃ fault e, view.peerFault? peer = some fault ∧ f.agree view.curve view.value point = .error e ∧
        e.code = fault.code := by
  cases f with
  | prime =>
    rcases agree_prime h hpoint with hshares | ⟨hfault, hagree⟩
    · exact .inl hshares
    · exact .inr ⟨_, _, hfault, hagree, rfl⟩
  | montgomery =>
    rcases agree_montgomery h hpoint with hshares | ⟨hfault, hagree⟩
    · exact .inl hshares
    · exact .inr ⟨_, _, hfault, hagree, rfl⟩

/-- There is a fault if and only if no value is shared. -/
theorem Derives.shares_iff (h : f.Derives key view) (peer : Bytes) :
    f.Shares view peer ↔ view.peerFault? peer = none := by
  cases hdecode : view.curve.decodePoint peer with
  | error e =>
    refine iff_of_false ?_ ?_
    · rintro ⟨point, z, hpoint, -⟩
      rw [hdecode] at hpoint
      cases hpoint
    · unfold EcPrivateKey.peerFault?
      rw [hdecode]
      nofun
  | ok point =>
    rcases h.agree_cases hdecode with ⟨hnone, z, hz⟩ | ⟨fault, e, hfault, he, -⟩
    · exact iff_of_true ⟨point, z, hdecode, hz⟩ hnone
    · refine iff_of_false ?_ ?_
      · rintro ⟨point', z, hpoint, hz⟩
        cases hdecode.symm.trans hpoint
        cases he.symm.trans hz
      · rw [hfault]
        nofun

end CurveFamily

/-! ## Derivation -/

namespace DerivationGenerator

variable {f : CurveFamily} {g : DerivationGenerator} {key : Object} {view : EcPrivateKey} {t : SecretTemplate}
  {kdf : AgreementKdf} {shared peer : Bytes} {fault : PeerFault}

/-- Agreement reads the point of the peer before it asks the curve. -/
theorem agreedMaterial_eq (h : f.Derives key view) (hm : Takes g.mechanism f) (ht : g.template = some t) :
    g.agreedMaterial kdf shared peer key = (match view.curve.decodePoint peer with
      | .error e => .error (.error (.wrapping .mechanismParamInvalid e))
      | .ok point => do
        let z ← f.agree view.curve view.value point
        kdf.secret z shared t.minimalLength) := by
  obtain ⟨htype, hkind, -⟩ := EcPrivateKey.ofObject_ok.1 h.reads
  have hf := CurveFamily.ofPrivate?_privateKind htype
  have hfamily : (CurveFamily.ofPrivate? view.curve.privateKind).getD .prime = f := by rw [hf]; rfl
  unfold agreedMaterial
  rw [checkBase_of_kind hkind hf h.derive hm, Except.liftM_ok, Except.ok_bind, hfamily]
  dsimp only
  rw [h.reads, Except.liftM_ok, Except.ok_bind]
  cases view.curve.decodePoint peer with
  | error e => rfl
  | ok point =>
    simp only [requireTemplate, ht]
    rfl

/-- A fault of the peer's key is reported under its code. -/
theorem agreedMaterial_of_fault (h : f.Derives key view) (hm : Takes g.mechanism f) (ht : g.template = some t)
    (hfault : view.peerFault? peer = some fault) :
    ∃ e, g.agreedMaterial kdf shared peer key = .error (.error e) ∧ e.code = fault.code := by
  rw [agreedMaterial_eq h hm ht]
  cases hdecode : view.curve.decodePoint peer with
  | error e =>
    unfold EcPrivateKey.peerFault? at hfault
    rw [hdecode] at hfault
    cases hfault
    exact ⟨_, rfl, rfl⟩
  | ok point =>
    rcases h.agree_cases hdecode with ⟨hnone, -⟩ | ⟨fault', e, hfault', he, hcode⟩
    · cases hnone.symm.trans hfault
    · cases hfault'.symm.trans hfault
      exact ⟨e, by simp only [he]; rfl, hcode⟩

end DerivationGenerator

namespace Registry

variable {r : Registry} {m : Mechanism} {p : AgreementParams} {kdf : AgreementKdf} {f : CurveFamily}
  {key : Object} {view : EcPrivateKey} {peer : Bytes} {as : List Attribute} {t : SecretTemplate} {fault : PeerFault}

/-- A request with a bad peer key fails under the code of its fault. -/
theorem derive_of_fault (hr : r.find? m.id = some .ecdh) (hp : Params.decode AgreementParams m.params = .ok p)
    (hkdf : AgreementKdf.ofNumber p.kdf = .ok kdf) (hpeer : p.publicData = some peer) (hne : peer ≠ [])
    (hm : DerivationGenerator.Takes m.id f) (h : f.Derives key view) (ht : SecretTemplate.ofAttributes as = .ok t)
    (store : Store) (hfault : view.peerFault? peer = some fault) :
    ∃ e, r.derive m store as key = .error (.error e) ∧ e.code = fault.code := by
  obtain ⟨id, b⟩ := m
  have hg : r.derivationGenerator ⟨id, b⟩ store =
      .ok { mechanism := id, rule := .agree kdf (p.sharedData.getD []) peer } := by
    rw [derivationGenerator_agreement hr hp hpeer hne, hkdf]
    rfl
  have hmaterial : ∃ e, DerivationGenerator.agreedMaterial ⟨id, .agree kdf (p.sharedData.getD []) peer, some t⟩ kdf
      (p.sharedData.getD []) peer key = .error (.error e) ∧ e.code = fault.code :=
    DerivationGenerator.agreedMaterial_of_fault h hm rfl hfault
  obtain ⟨e, he, hcode⟩ := hmaterial
  refine ⟨e, ?_, hcode⟩
  unfold derive DerivationGenerator.init
  rw [hg, Except.liftM_ok, Except.ok_bind, ht]
  show DerivationGenerator.generate _ key = _
  unfold DerivationGenerator.generate DerivationGenerator.material
  simp only [he]
  rfl

/-- A derivation that fails for its peer key blames the parameters. -/
def BlamesParameters (r : Registry) (m : Mechanism) (store : Store) (as : List Attribute) (key : Object)
    (f : CurveFamily) (view : EcPrivateKey) (peer : Bytes) : Prop :=
  ¬ f.Shares view peer → ∃ e, r.derive m store as key = .error (.error e) ∧ e.code = .mechanismParamInvalid

/-- The parameters are blamed unless the curve finds the fault, since its code is passed on. -/
theorem blamesParameters_iff (hr : r.find? m.id = some .ecdh) (hp : Params.decode AgreementParams m.params = .ok p)
    (hkdf : AgreementKdf.ofNumber p.kdf = .ok kdf) (hpeer : p.publicData = some peer) (hne : peer ≠ [])
    (hm : DerivationGenerator.Takes m.id f) (h : f.Derives key view) (ht : SecretTemplate.ofAttributes as = .ok t)
    (store : Store) :
    r.BlamesParameters m store as key f view peer ↔
      view.peerFault? peer ≠ some .offCurve ∧ view.peerFault? peer ≠ some .lowOrder := by
  unfold BlamesParameters
  rw [h.shares_iff]
  cases hfault : view.peerFault? peer with
  | none => exact iff_of_true (fun hn => absurd rfl hn) ⟨nofun, nofun⟩
  | some fault =>
    obtain ⟨e, he, hcode⟩ := derive_of_fault hr hp hkdf hpeer hne hm h ht store hfault
    cases fault with
    | form => exact iff_of_true (fun _ => ⟨e, he, hcode⟩) ⟨nofun, nofun⟩
    | offCurve | lowOrder =>
      refine iff_of_false (fun hlaw => ?_) (by simp)
      obtain ⟨e', he', hcode'⟩ := hlaw nofun
      cases he.symm.trans he'
      rw [hcode] at hcode'
      cases hcode'

/-- A private key that agreement takes shares a value with a peer unless the key of the peer has a fault, and then the
derivation fails under the code of the fault. So it blames the parameters unless the peer's key has the form of a
point and lies off the curve or is of low order. -/
theorem peer_fault_iff (hr : r.find? m.id = some .ecdh) (hp : Params.decode AgreementParams m.params = .ok p)
    (hkdf : AgreementKdf.ofNumber p.kdf = .ok kdf) (hpeer : p.publicData = some peer) (hne : peer ≠ [])
    (hm : DerivationGenerator.Takes m.id f) (h : f.Derives key view) (ht : SecretTemplate.ofAttributes as = .ok t)
    (store : Store) :
    (f.Shares view peer ↔ view.peerFault? peer = none) ∧
    (∀ fault, view.peerFault? peer = some fault → ∃ e, r.derive m store as key = .error (.error e) ∧ e.code = fault.code) ∧
    (r.BlamesParameters m store as key f view peer ↔
      view.peerFault? peer ≠ some .offCurve ∧ view.peerFault? peer ≠ some .lowOrder) := by
  refine ⟨h.shares_iff peer, fun fault hfault => ?_, ?_⟩
  · exact derive_of_fault hr hp hkdf hpeer hne hm h ht store hfault
  · exact blamesParameters_iff hr hp hkdf hpeer hne hm h ht store

end Registry

/-! ## Runs -/

namespace PeerFaults

open AgreementPaths

/-- A private key of X25519 that allows derivation. -/
def agreeing : EcPrivateKey := ⟨.x25519, List.replicate 32 2⟩

def agreeingObject : Object := agreeing.toObject.put (.ofBool .derive true)

/-- The form of a point of P-256, off the curve. -/
def offCurve : Bytes := 4 :: Bytes.zeros 64

/-- Agreement without a derivation function. -/
def plain (peer : Bytes) : AgreementParams := ⟨1, none, some peer⟩

theorem agreeing_derives : CurveFamily.montgomery.Derives agreeingObject agreeing where
  reads := Except.ok_of_toOption (by decide +kernel)
  derive := by decide +kernel
  scalar := nofun

/-- The view of the key of P-256. -/
def bothWaysView : EcPrivateKey := ⟨.p256, Bytes.ofNat 32 5⟩

theorem bothWays_derives : CurveFamily.prime.Derives bothWays bothWaysView where
  reads := Except.ok_of_toOption (by decide +kernel)
  derive := by decide +kernel
  scalar := by
    intro c hc
    cases hc
    exact ⟨5, by decide +kernel⟩

theorem accepts_nothing : SecretTemplate.ofAttributes [] = .ok ⟨.genericSecret, none, []⟩ := rfl

end PeerFaults

open PeerFaults AgreementPaths in
/-- The coordinate zero is of low order on X25519. -/
theorem Registry.peer_fault_x25519 :
    agreeing.peerFault? (Bytes.zeros 32) = some .lowOrder ∧
      ∃ e, full.derive ⟨.ecdh1Derive, wire (plain (Bytes.zeros 32))⟩ {} [] agreeingObject = .error (.error e) ∧
        e.code = .argumentsBad := by
  have hr : full.find? .ecdh1Derive = some .ecdh := by decide +kernel
  have hp : Params.decode AgreementParams (wire (plain (Bytes.zeros 32))) = .ok (plain (Bytes.zeros 32)) :=
    Except.ok_of_toOption (by decide +kernel)
  have hfault : agreeing.peerFault? (Bytes.zeros 32) = some .lowOrder := by decide +kernel
  obtain ⟨-, hfails, -⟩ := peer_fault_iff (m := ⟨.ecdh1Derive, wire (plain (Bytes.zeros 32))⟩) hr hp rfl rfl
    (by decide) (.inl rfl) agreeing_derives accepts_nothing {}
  exact ⟨hfault, hfails .lowOrder hfault⟩

open PeerFaults AgreementPaths in
/-- For a point that lies off P-256 the arguments are blamed, though it stands in the parameters. -/
theorem Registry.blames_arguments :
    CurveFamily.prime.Derives bothWays bothWaysView ∧
      ¬ full.BlamesParameters ⟨.ecdh1Derive, wire (plain offCurve)⟩ {} [] bothWays .prime bothWaysView offCurve := by
  have hr : full.find? .ecdh1Derive = some .ecdh := by decide +kernel
  have hp : Params.decode AgreementParams (wire (plain offCurve)) = .ok (plain offCurve) :=
    Except.ok_of_toOption (by decide +kernel)
  have hfault : bothWaysView.peerFault? offCurve = some .offCurve := by decide +kernel
  refine ⟨bothWays_derives, fun hlaw => ?_⟩
  obtain ⟨hon, -⟩ := (blamesParameters_iff (m := ⟨.ecdh1Derive, wire (plain offCurve)⟩) hr hp rfl rfl (by decide)
    (.inl rfl) bothWays_derives accepts_nothing {}).1 hlaw
  exact hon hfault

end SoftToken
