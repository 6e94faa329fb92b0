import SoftToken.Key.View
import SoftToken.Proofs.Attributes
import SoftToken.Proofs.Draws
/-!
# The kind of a key and its attributes

The kind of a key object says what its class and its key type are, and over which curve of its family it is
(`Object.kind_ok_iff`). The views read keys of one kind only, and each of them reads what `ofObject_ok` says.
-/

namespace SoftToken

namespace KeyKind

/-- The key type of the keys of a kind. -/
def type : KeyKind → KeyType
  | .rsaPublic | .rsaPrivate => .rsa
  | .ecPublic _ | .ecPrivate _ => .ec
  | .edwardsPublic _ | .edwardsPrivate _ => .ecEdwards
  | .montgomeryPublic _ | .montgomeryPrivate _ => .ecMontgomery
  | .mlKemPublic | .mlKemPrivate => .mlKem
  | .mlDsaPublic | .mlDsaPrivate => .mlDsa
  | .slhDsaPublic | .slhDsaPrivate => .slhDsa
  | .secret t => t

/-- The class of the objects of a kind. -/
def cls : KeyKind → ObjectClass
  | .rsaPublic | .ecPublic _ | .edwardsPublic _ | .montgomeryPublic _ | .mlKemPublic | .mlDsaPublic
  | .slhDsaPublic => .publicKey
  | .rsaPrivate | .ecPrivate _ | .edwardsPrivate _ | .montgomeryPrivate _ | .mlKemPrivate | .mlDsaPrivate
  | .slhDsaPrivate => .privateKey
  | .secret _ => .secretKey

end KeyKind

namespace Curve

variable {k : KeyKind} {c : Curve}

/-- The kind of the public keys over a curve. -/
def publicKind (c : Curve) : KeyKind :=
  match c with
  | .p256 | .p384 | .p521 => .ecPublic c
  | .ed25519 | .ed448 => .edwardsPublic c
  | .x25519 | .x448 => .montgomeryPublic c

/-- The kind of the private keys over a curve. -/
def privateKind (c : Curve) : KeyKind :=
  match c with
  | .p256 | .p384 | .p521 => .ecPrivate c
  | .ed25519 | .ed448 => .edwardsPrivate c
  | .x25519 | .x448 => .montgomeryPrivate c

@[simp] theorem cls_publicKind (c : Curve) : c.publicKind.cls = .publicKey := by cases c <;> rfl

@[simp] theorem type_publicKind (c : Curve) : c.publicKind.type = c.keyType := by cases c <;> rfl

@[simp] theorem curve?_publicKind (c : Curve) : c.publicKind.curve? = some c := by cases c <;> rfl

@[simp] theorem cls_privateKind (c : Curve) : c.privateKind.cls = .privateKey := by cases c <;> rfl

@[simp] theorem type_privateKind (c : Curve) : c.privateKind.type = c.keyType := by cases c <;> rfl

@[simp] theorem curve?_privateKind (c : Curve) : c.privateKind.curve? = some c := by cases c <;> rfl

theorem publicKind_cases (c : Curve) :
    c.publicKind = .ecPublic c ∨ c.publicKind = .edwardsPublic c ∨ c.publicKind = .montgomeryPublic c := by
  cases c <;> simp [publicKind]

theorem privateKind_cases (c : Curve) :
    c.privateKind = .ecPrivate c ∨ c.privateKind = .edwardsPrivate c ∨ c.privateKind = .montgomeryPrivate c := by
  cases c <;> simp [privateKind]

/-- The curve of a public key and its type fix the kind. -/
theorem eq_publicKind (hcls : k.cls = .publicKey) (hc : k.curve? = some c) (ht : c.keyType = k.type) :
    k = c.publicKind := by
  cases k with
  | ecPublic c' | edwardsPublic c' | montgomeryPublic c' =>
    cases hc
    cases c <;> first | rfl | cases ht
  | ecPrivate c' | edwardsPrivate c' | montgomeryPrivate c' => cases hcls
  | _ => cases hc

/-- The curve of a private key and its type fix the kind. -/
theorem eq_privateKind (hcls : k.cls = .privateKey) (hc : k.curve? = some c) (ht : c.keyType = k.type) :
    k = c.privateKind := by
  cases k with
  | ecPrivate c' | edwardsPrivate c' | montgomeryPrivate c' =>
    cases hc
    cases c <;> first | rfl | cases ht
  | ecPublic c' | edwardsPublic c' | montgomeryPublic c' => cases hcls
  | _ => cases hc

end Curve

namespace Object

variable {o : Object} {k : KeyKind} {t : KeyType} {c : Curve}

/-- The curve parameters of an object name a curve. -/
def NamesCurve (o : Object) (c : Curve) : Prop :=
  ∃ params, o.value? .ecParams = some (.bytes params) ∧ Curve.ofParameters params = .ok c

theorem curveOfType_ok : o.curveOfType t = .ok c ↔ o.NamesCurve c ∧ c.keyType = t := by
  unfold curveOfType NamesCurve
  simp only [← getBytes_ok]
  cases o.getBytes .ecParams with
  | error e => exact iff_of_false nofun (by rintro ⟨⟨params, h, -⟩, -⟩; cases h)
  | ok params =>
    constructor
    · intro h
      obtain ⟨c', hc, h⟩ := Except.bind_ok.1 h
      obtain ⟨ht, h⟩ := Except.ite_refuse_ok.1 h
      cases h
      exact ⟨⟨params, rfl, hc⟩, ht⟩
    · rintro ⟨⟨_, ⟨⟩, hc⟩, ht⟩
      exact Except.bind_ok.2 ⟨c, hc, if_pos ht⟩

/-- A kind that is made of the curve of a key. -/
theorem kindOfCurve_ok {make : Curve → KeyKind} {cls : ObjectClass}
    (hm : ∀ c, (make c).cls = cls ∧ (make c).type = t ∧ (make c).curve? = some c)
    (h : (o.curveOfType t >>= fun c => pure (make c)) = .ok k) :
    k.cls = cls ∧ k.type = t ∧ ∀ c, k.curve? = some c → o.NamesCurve c ∧ c.keyType = t := by
  obtain ⟨c, hc, h⟩ := Except.bind_ok.1 h
  cases h
  obtain ⟨hcls, htype, hcurve⟩ := hm c
  refine ⟨hcls, htype, fun c' hc' => ?_⟩
  rw [hcurve] at hc'
  cases hc'
  exact curveOfType_ok.1 hc

theorem pairKind_ok {isPublic : Bool} (h : o.pairKind t isPublic = .ok k) :
    k.cls = (if isPublic then .publicKey else .privateKey) ∧ k.type = t ∧
      ∀ c, k.curve? = some c → o.NamesCurve c ∧ c.keyType = t := by
  simp only [pairKind] at h
  split at h
  · next ht => cases h; cases isPublic <;> exact ⟨rfl, ht.symm, nofun⟩
  split at h
  · next ht => subst ht; cases isPublic <;> exact kindOfCurve_ok (fun _ => ⟨rfl, rfl, rfl⟩) h
  split at h
  · next ht => subst ht; cases isPublic <;> exact kindOfCurve_ok (fun _ => ⟨rfl, rfl, rfl⟩) h
  split at h
  · next ht => subst ht; cases isPublic <;> exact kindOfCurve_ok (fun _ => ⟨rfl, rfl, rfl⟩) h
  split at h
  · next ht => cases h; cases isPublic <;> exact ⟨rfl, ht.symm, nofun⟩
  split at h
  · next ht => cases h; cases isPublic <;> exact ⟨rfl, ht.symm, nofun⟩
  split at h
  · next ht => cases h; cases isPublic <;> exact ⟨rfl, ht.symm, nofun⟩
  · cases h

/-- A public key whose curve parameters fit its type is of a kind. -/
theorem pairKind_public (hcls : k.cls = .publicKey) (hcurve : ∀ c, k.curve? = some c → o.NamesCurve c ∧ c.keyType = k.type) :
    o.pairKind k.type true = .ok k := by
  cases k with
  | rsaPublic | mlKemPublic | mlDsaPublic | slhDsaPublic => rfl
  | ecPublic c | edwardsPublic c | montgomeryPublic c =>
    exact Except.bind_ok.2 ⟨c, curveOfType_ok.2 (hcurve c rfl), rfl⟩
  | _ => cases hcls

/-- A private key whose curve parameters fit its type is of a kind. -/
theorem pairKind_private (hcls : k.cls = .privateKey)
    (hcurve : ∀ c, k.curve? = some c → o.NamesCurve c ∧ c.keyType = k.type) : o.pairKind k.type false = .ok k := by
  cases k with
  | rsaPrivate | mlKemPrivate | mlDsaPrivate | slhDsaPrivate => rfl
  | ecPrivate c | edwardsPrivate c | montgomeryPrivate c =>
    exact Except.bind_ok.2 ⟨c, curveOfType_ok.2 (hcurve c rfl), rfl⟩
  | _ => cases hcls

/-- An object is a key of a kind if and only if it has the class and the type of the kind, its parameters name the
curve of the kind, which is one of its type, and the type of a secret key is one that secret keys may have. -/
theorem kind_ok_iff :
    o.kind = .ok k ↔ o.cls = k.cls ∧ o.getNumber .keyType = .ok k.type.val ∧
      (∀ c, k.curve? = some c → o.NamesCurve c ∧ c.keyType = k.type) ∧ (k.cls = .secretKey → k.type.isSecret = true) := by
  unfold kind
  constructor
  · intro h
    split at h
    case h_1 => cases h
    case h_2 n hn =>
      dsimp only at h
      split at h
      · next hcls =>
        obtain ⟨hk, ht, hcurve⟩ := pairKind_ok h
        rw [ht]
        exact ⟨hcls.trans hk.symm, hn, hcurve, fun hs => absurd (hk.symm.trans hs) (by decide)⟩
      split at h
      · next hcls =>
        obtain ⟨hk, ht, hcurve⟩ := pairKind_ok h
        rw [ht]
        exact ⟨hcls.trans hk.symm, hn, hcurve, fun hs => absurd (hk.symm.trans hs) (by decide)⟩
      split at h
      · next hcls =>
        obtain ⟨hs, h⟩ := Except.ite_refuse_ok.1 h
        cases h
        exact ⟨hcls, hn, nofun, fun _ => hs⟩
      · cases h
  · rintro ⟨hcls, hn, hcurve, hs⟩
    rw [hn, hcls]
    dsimp only
    split
    · next hk => exact pairKind_public hk hcurve
    split
    · next hk => exact pairKind_private hk hcurve
    split
    · next hk =>
      cases k with
      | secret t => exact Except.ite_refuse_ok.2 ⟨hs rfl, rfl⟩
      | _ => cases hk
    · cases k <;> contradiction

/-- The kind of a key fixes its key type, and the family of its curve. -/
theorem kind_ok (h : o.kind = .ok k) :
    o.getNumber .keyType = .ok k.type.val ∧ ∀ c, k.curve? = some c → c.keyType = k.type := by
  obtain ⟨-, hn, hcurve, -⟩ := kind_ok_iff.1 h
  exact ⟨hn, fun c hc => (hcurve c hc).2⟩

/-- A pair of keys without a curve needs no more than its class and its type. -/
theorem kind_of_curveless (hcls : o.cls = k.cls) (hn : o.getNumber .keyType = .ok k.type.val) (hc : k.curve? = none)
    (hs : k.cls ≠ .secretKey) : o.kind = .ok k := by
  refine kind_ok_iff.2 ⟨hcls, hn, fun c h => ?_, fun h => absurd h hs⟩
  rw [hc] at h
  cases h

theorem kind_publicKind (hcls : o.cls = .publicKey) (hn : o.getNumber .keyType = .ok c.keyType.val)
    (hc : o.NamesCurve c) : o.kind = .ok c.publicKind := by
  rw [← c.type_publicKind] at hn
  refine kind_ok_iff.2 ⟨hcls.trans c.cls_publicKind.symm, hn, fun c' h => ?_, fun h => ?_⟩
  · rw [c.curve?_publicKind] at h
    cases h
    exact ⟨hc, c.type_publicKind.symm⟩
  · rw [c.cls_publicKind] at h
    exact absurd h (by decide)

theorem kind_privateKind (hcls : o.cls = .privateKey) (hn : o.getNumber .keyType = .ok c.keyType.val)
    (hc : o.NamesCurve c) : o.kind = .ok c.privateKind := by
  rw [← c.type_privateKind] at hn
  refine kind_ok_iff.2 ⟨hcls.trans c.cls_privateKind.symm, hn, fun c' h => ?_, fun h => ?_⟩
  · rw [c.curve?_privateKind] at h
    cases h
    exact ⟨hc, c.type_privateKind.symm⟩
  · rw [c.cls_privateKind] at h
    exact absurd h (by decide)

theorem kind_setPublic {f : ParameterFamily} (hcls : o.cls = .publicKey)
    (hn : o.getNumber .keyType = .ok f.keyType.val) : o.kind = .ok f.publicKind := by
  cases f <;> exact kind_of_curveless hcls hn rfl (by decide)

theorem kind_setPrivate {f : ParameterFamily} (hcls : o.cls = .privateKey)
    (hn : o.getNumber .keyType = .ok f.keyType.val) : o.kind = .ok f.privateKind := by
  cases f <;> exact kind_of_curveless hcls hn rfl (by decide)

/-- A key of an accepted kind is bound if it allows the usage. -/
theorem bind_of_kind {m : MechanismId} {usage : AttributeId} {expected : String} {accept : KeyKind → Bool}
    (hk : o.kind = .ok k) (ha : accept k = true) (hf : o.flag usage false = true) :
    o.bind m usage expected accept = .ok k := by
  unfold bind checkPermission
  simp only [hk, if_pos hf]
  show (if accept k then _ else _) = _
  rw [if_pos ha]
  rfl

/-! ## Required attributes -/

variable {id : AttributeId}

theorem requireBytes_ok {v : Bytes} :
    o.requireBytes id = .ok v ↔ o.getBytes id = .ok v ∧ v ≠ [] := by
  unfold requireBytes
  cases o.getBytes id with
  | error e => exact iff_of_false nofun nofun
  | ok b =>
    cases b with
    | nil =>
      apply iff_of_false nofun
      rintro ⟨hv, hne⟩
      exact hne (Except.ok.inj hv).symm
    | cons x rest =>
      refine (and_iff_left_of_imp ?_).symm
      rintro hv rfl
      cases hv

theorem requireNumber_ok {n : UInt64} : o.requireNumber id = .ok n ↔ o.getNumber id = .ok n := by
  unfold requireNumber
  cases o.getNumber id with
  | error e => exact iff_of_false nofun nofun
  | ok m => exact Iff.rfl

/-- An optional attribute is read like a required one, and is absent where that one would be refused. -/
theorem optionalBytes_eq_some {v : Bytes} : o.optionalBytes id = some v ↔ o.requireBytes id = .ok v := by
  rw [requireBytes_ok]
  unfold optionalBytes
  cases o.getBytes id with
  | error e => exact iff_of_false nofun nofun
  | ok b =>
    cases b with
    | nil =>
      apply iff_of_false nofun
      rintro ⟨hv, hne⟩
      exact hne (Except.ok.inj hv).symm
    | cons x rest =>
      constructor
      · rintro ⟨⟩
        exact ⟨rfl, nofun⟩
      · rintro ⟨⟨⟩, -⟩
        rfl

end Object

/-! ## Views -/

theorem RsaPublicKey.ofObject_ok {o : Object} {v : RsaPublicKey} :
    ofObject o = .ok v ↔ o.kind = .ok .rsaPublic ∧ o.requireBytes .modulus = .ok v.modulus ∧
      o.requireBytes .publicExponent = .ok v.publicExponent := by
  constructor
  · intro h
    obtain ⟨k, hk, h⟩ := Except.bind_ok.1 h
    split at h
    · obtain ⟨modulus, hmodulus, h⟩ := Except.bind_ok.1 h
      obtain ⟨exponent, hexponent, h⟩ := Except.bind_ok.1 h
      cases h
      exact ⟨hk, hmodulus, hexponent⟩
    · cases h
  · rintro ⟨hk, hmodulus, hexponent⟩
    unfold ofObject
    rw [hk, hmodulus, hexponent]
    rfl

theorem RsaPrivateKey.ofObject_ok {o : Object} {v : RsaPrivateKey} :
    ofObject o = .ok v ↔ o.kind = .ok .rsaPrivate ∧ o.requireBytes .modulus = .ok v.modulus ∧
      o.requireBytes .publicExponent = .ok v.publicExponent ∧ o.requireBytes .privateExponent = .ok v.privateExponent ∧
      o.optionalBytes .prime1 = v.prime1 ∧ o.optionalBytes .prime2 = v.prime2 := by
  constructor
  · intro h
    obtain ⟨k, hk, h⟩ := Except.bind_ok.1 h
    split at h
    · obtain ⟨modulus, hmodulus, h⟩ := Except.bind_ok.1 h
      obtain ⟨exponent, hexponent, h⟩ := Except.bind_ok.1 h
      obtain ⟨secret, hsecret, h⟩ := Except.bind_ok.1 h
      cases h
      exact ⟨hk, hmodulus, hexponent, hsecret, rfl, rfl⟩
    · cases h
  · rintro ⟨hk, hmodulus, hexponent, hsecret, hprime1, hprime2⟩
    unfold ofObject
    rw [hk, hmodulus, hexponent, hsecret, hprime1, hprime2]
    rfl

theorem RsaPublicKey.kind_of_ofObject {o : Object} {v : RsaPublicKey} (h : ofObject o = .ok v) :
    o.kind = .ok .rsaPublic := (ofObject_ok.1 h).1

theorem RsaPrivateKey.kind_of_ofObject {o : Object} {v : RsaPrivateKey} (h : ofObject o = .ok v) :
    o.kind = .ok .rsaPrivate := (ofObject_ok.1 h).1

namespace SetKey

variable {f : ParameterFamily} {o : Object} {v : SetKey}

/-- What either class of keys is read like. -/
private theorem ofKind_ok {expected : KeyKind} :
    (do
      let k ← o.kind
      if k = expected then return ⟨← o.requireNumber .parameterSet, ← o.requireBytes .value⟩
      else throw (wrongKind expected.describe k) : Except Error SetKey) = .ok v ↔
    o.kind = .ok expected ∧ o.requireNumber .parameterSet = .ok v.parameterSet ∧ o.requireBytes .value = .ok v.value := by
  constructor
  · intro h
    obtain ⟨k, hk, h⟩ := Except.bind_ok.1 h
    split at h
    · next he =>
      obtain ⟨set, hset, h⟩ := Except.bind_ok.1 h
      obtain ⟨value, hvalue, h⟩ := Except.bind_ok.1 h
      cases h
      exact ⟨he ▸ hk, hset, hvalue⟩
    · cases h
  · rintro ⟨hk, hset, hvalue⟩
    refine Except.bind_ok.2 ⟨_, hk, ?_⟩
    rw [if_pos rfl, hset, hvalue]
    rfl

theorem ofPublic_ok :
    ofPublic f o = .ok v ↔ o.kind = .ok f.publicKind ∧ o.requireNumber .parameterSet = .ok v.parameterSet ∧
      o.requireBytes .value = .ok v.value := ofKind_ok

theorem ofPrivate_ok :
    ofPrivate f o = .ok v ↔ o.kind = .ok f.privateKind ∧ o.requireNumber .parameterSet = .ok v.parameterSet ∧
      o.requireBytes .value = .ok v.value := ofKind_ok

theorem kind_of_ofPublic (h : ofPublic f o = .ok v) : o.kind = .ok f.publicKind := (ofPublic_ok.1 h).1

theorem kind_of_ofPrivate (h : ofPrivate f o = .ok v) : o.kind = .ok f.privateKind := (ofPrivate_ok.1 h).1

end SetKey

/-- What is read for a type is read of a curve of that type. -/
private theorem Curve.read_ok {α : Type} {c : Curve} {t : KeyType} {x : Except Error α} {error : Error} {a : α} :
    (if c.keyType = t then x else .error error) = .ok a ↔ c.keyType = t ∧ x = .ok a := by
  split
  · next ht => exact (and_iff_right ht).symm
  · next ht => exact iff_of_false nofun fun h => ht h.1

namespace EcPublicKey

variable {o : Object} {t : KeyType} {v : EcPublicKey}

theorem ofObject_ok :
    ofObject o t = .ok v ↔ v.curve.keyType = t ∧ o.kind = .ok v.curve.publicKind ∧
      ∃ b, o.requireBytes .ecPoint = .ok b ∧ v.curve.decodePoint b = .ok v.point := by
  constructor
  · intro h
    obtain ⟨k, hk, h⟩ := Except.bind_ok.1 h
    obtain ⟨-, hcurve⟩ := Object.kind_ok hk
    cases k with
    | ecPublic c | edwardsPublic c | montgomeryPublic c =>
      obtain ⟨ht, h⟩ := Curve.read_ok.1 h
      obtain ⟨b, hb, h⟩ := Except.bind_ok.1 h
      split at h
      · next hpoint =>
        cases h
        rw [Curve.eq_publicKind rfl rfl (hcurve c rfl)] at hk
        exact ⟨ht, hk, b, hb, hpoint⟩
      · cases h
    | _ => cases h
  · rintro ⟨ht, hk, b, hb, hpoint⟩
    refine Except.bind_ok.2 ⟨_, hk, ?_⟩
    rcases v.curve.publicKind_cases with hkind | hkind | hkind
    all_goals
      rw [hkind]
      refine Curve.read_ok.2 ⟨ht, Except.bind_ok.2 ⟨b, hb, ?_⟩⟩
      rw [hpoint]
      rfl

/-- A public key that is read for a type is an elliptic curve key of that type. -/
theorem kind_of_ofObject (h : ofObject o t = .ok v) :
    ∃ k c, o.kind = .ok k ∧ k.type = t ∧ (k = .ecPublic c ∨ k = .edwardsPublic c ∨ k = .montgomeryPublic c) := by
  obtain ⟨ht, hk, -⟩ := ofObject_ok.1 h
  exact ⟨_, _, hk, v.curve.type_publicKind.trans ht, v.curve.publicKind_cases⟩

/-- A view of a public key is over the curve of the key's kind. -/
theorem curve_of_ofObject (h : ofObject o t = .ok v) : ∃ k, o.kind = .ok k ∧ k.curve? = some v.curve := by
  obtain ⟨-, hk, -⟩ := ofObject_ok.1 h
  exact ⟨_, hk, v.curve.curve?_publicKind⟩

/-- A public key that is read for a type is over a curve of that type. -/
theorem keyType_of_ofObject (h : ofObject o t = .ok v) : v.curve.keyType = t := (ofObject_ok.1 h).1

end EcPublicKey

namespace EcPrivateKey

variable {o : Object} {t : KeyType} {v : EcPrivateKey}

theorem ofObject_ok :
    ofObject o t = .ok v ↔ v.curve.keyType = t ∧ o.kind = .ok v.curve.privateKind ∧
      ∃ b, o.requireBytes .value = .ok b ∧ b.length ≤ v.curve.keySize ∧ b.padLeft v.curve.keySize = v.value := by
  constructor
  · intro h
    obtain ⟨k, hk, h⟩ := Except.bind_ok.1 h
    obtain ⟨-, hcurve⟩ := Object.kind_ok hk
    cases k with
    | ecPrivate c | edwardsPrivate c | montgomeryPrivate c =>
      obtain ⟨ht, h⟩ := Curve.read_ok.1 h
      obtain ⟨b, hb, h⟩ := Except.bind_ok.1 h
      split at h
      · cases h
      · next hlong =>
        cases h
        rw [Curve.eq_privateKind rfl rfl (hcurve c rfl)] at hk
        exact ⟨ht, hk, b, hb, Nat.not_lt.1 hlong, rfl⟩
    | _ => cases h
  · rintro ⟨ht, hk, b, hb, hlength, hvalue⟩
    refine Except.bind_ok.2 ⟨_, hk, ?_⟩
    rcases v.curve.privateKind_cases with hkind | hkind | hkind
    all_goals
      rw [hkind]
      refine Curve.read_ok.2 ⟨ht, Except.bind_ok.2 ⟨b, hb, ?_⟩⟩
      rw [if_neg (Nat.not_lt.2 hlength), hvalue]
      rfl

/-- A private key that is read for a type is an elliptic curve key of that type. -/
theorem kind_of_ofObject (h : ofObject o t = .ok v) :
    ∃ k c, o.kind = .ok k ∧ k.type = t ∧ (k = .ecPrivate c ∨ k = .edwardsPrivate c ∨ k = .montgomeryPrivate c) := by
  obtain ⟨ht, hk, -⟩ := ofObject_ok.1 h
  exact ⟨_, _, hk, v.curve.type_privateKind.trans ht, v.curve.privateKind_cases⟩

/-- A view of a private key is over the curve of the key's kind. -/
theorem curve_of_ofObject (h : ofObject o t = .ok v) : ∃ k, o.kind = .ok k ∧ k.curve? = some v.curve := by
  obtain ⟨-, hk, -⟩ := ofObject_ok.1 h
  exact ⟨_, hk, v.curve.curve?_privateKind⟩

end EcPrivateKey

end SoftToken
