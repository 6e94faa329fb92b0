import SoftToken.Proofs.ErrorCodes
import SoftToken.Proofs.RsaKey
import SoftToken.Proofs.SecretKeys
/-!
# Errors of keys and templates

Whatever attributes an object has, reading a key off it and checking it never gives the general error, and
neither does making a secret key from a template that was accepted.
-/

namespace SoftToken

open SoftToken.Except (Avoids)

/-- The code of errors that have none of their own. -/
abbrev ReturnCode.IsGeneral (c : ReturnCode) : Prop := c = .generalError

open ReturnCode (IsGeneral)

/-! ## The kind of a key -/

namespace Object

theorem avoids_curve (params : Bytes) : Avoids IsGeneral (Curve.ofParameters params) := by
  unfold Curve.ofParameters
  dsimp only
  split
  · exact .error (by decide)
  · split
    · exact .ok _
    · exact .fail (by decide)
  · split
    · exact .ok _
    · exact .fail (by decide)
  · exact .fail (by decide)

theorem avoids_curveOfType (o : Object) (t : KeyType) : Avoids IsGeneral (o.curveOfType t) := by
  unfold curveOfType
  split
  · exact .refuse (by decide)
  · refine (avoids_curve _).bind fun c _ => ?_
    split
    · exact .ok _
    · exact .refuse (by decide)

theorem avoids_pairKind (o : Object) (t : KeyType) (isPublic : Bool) : Avoids IsGeneral (o.pairKind t isPublic) := by
  unfold pairKind
  dsimp only
  split
  · exact .ok _
  split
  · exact (o.avoids_curveOfType t).bind fun _ _ => .ok _
  split
  · exact (o.avoids_curveOfType t).bind fun _ _ => .ok _
  split
  · exact (o.avoids_curveOfType t).bind fun _ _ => .ok _
  split
  · exact .ok _
  split
  · exact .ok _
  split
  · exact .ok _
  · exact .refuse (by decide)

theorem avoids_kind (o : Object) : Avoids IsGeneral o.kind := by
  unfold kind
  split
  · exact .refuse (by decide)
  · dsimp only
    split
    · exact o.avoids_pairKind _ true
    split
    · exact o.avoids_pairKind _ false
    split
    · split
      · exact .ok _
      · exact .refuse (by decide)
    · exact .refuse (by decide)

theorem avoids_checkPermission (o : Object) (usage : AttributeId) : Avoids IsGeneral (o.checkPermission usage) := by
  unfold checkPermission
  split
  · exact .ok _
  · exact .refuse (by decide)

theorem avoids_bind (o : Object) (m : MechanismId) (usage : AttributeId) (expected : String)
    (accept : KeyKind → Bool) : Avoids IsGeneral (o.bind m usage expected accept) := by
  refine o.avoids_kind.bind fun k _ => ?_
  split
  · exact (o.avoids_checkPermission usage).bind fun _ _ => .ok _
  · exact .refuse (by decide)

/-- A sequence that starts by binding a key. -/
theorem avoids_bind_then {α : Type} (o : Object) {m : MechanismId} {usage : AttributeId} {expected : String}
    {accept : KeyKind → Bool} {x : Except Error α} (hx : Avoids IsGeneral x) : Avoids IsGeneral (do
      discard (o.bind m usage expected accept)
      x) :=
  (o.avoids_bind m usage expected accept).discard.bind fun _ _ => hx

variable {P : ReturnCode → Prop} (hp : ¬ P .attributeValueInvalid)

include hp

theorem avoids_requireBytes (o : Object) (id : AttributeId) : Avoids P (o.requireBytes id) := by
  unfold requireBytes
  split
  · exact .ok _
  · exact .refuse hp

theorem avoids_requireNumber (o : Object) (id : AttributeId) : Avoids P (o.requireNumber id) := by
  unfold requireNumber
  split
  · exact .ok _
  · exact .refuse hp

end Object

/-! ## Views -/

theorem avoids_wrongKind {α : Type} (expected : String) (k : KeyKind) :
    Avoids IsGeneral (.error (wrongKind expected k) : Except Error α) :=
  .error (show ¬ IsGeneral .keyHandleInvalid by decide)

section Material

variable {P : ReturnCode → Prop} (hp : ¬ P .attributeValueInvalid)

include hp

theorem RsaPublicKey.avoids_material (o : Object) :
    Avoids P (do return ⟨← o.requireBytes .modulus, ← o.requireBytes .publicExponent⟩ : Except Error RsaPublicKey) := by
  refine (o.avoids_requireBytes hp .modulus).bind fun _ _ => ?_
  exact (o.avoids_requireBytes hp .publicExponent).bind fun _ _ => .ok _

theorem RsaPrivateKey.avoids_material (o : Object) :
    Avoids P (do
      return ⟨← o.requireBytes .modulus, ← o.requireBytes .publicExponent,
        ← o.requireBytes .privateExponent, o.optionalBytes .prime1, o.optionalBytes .prime2⟩ :
      Except Error RsaPrivateKey) := by
  refine (o.avoids_requireBytes hp .modulus).bind fun _ _ => ?_
  refine (o.avoids_requireBytes hp .publicExponent).bind fun _ _ => ?_
  exact (o.avoids_requireBytes hp .privateExponent).bind fun _ _ => .ok _

theorem EcPublicKey.avoids_material (o : Object) (c : Curve) :
    Avoids P (do
      match c.decodePoint (← o.requireBytes .ecPoint) with
      | .ok p => return ⟨c, p⟩
      | .error _ => refuse .attributeValueInvalid (.malformed .ecPoint) : Except Error EcPublicKey) := by
  refine (o.avoids_requireBytes hp .ecPoint).bind fun b _ => ?_
  split
  · exact .ok _
  · exact .refuse hp

theorem EcPrivateKey.avoids_material (o : Object) (c : Curve) :
    Avoids P (do
      let raw ← o.requireBytes .value
      if raw.length > c.keySize then refuse .attributeValueInvalid (.privateValueTooLong c)
      else return ⟨c, raw.padLeft c.keySize⟩ : Except Error EcPrivateKey) := by
  refine (o.avoids_requireBytes hp .value).bind fun b _ => ?_
  split
  · exact .refuse hp
  · exact .ok _

theorem SetKey.avoids_material (o : Object) :
    Avoids P (do return ⟨← o.requireNumber .parameterSet, ← o.requireBytes .value⟩ : Except Error SetKey) := by
  refine (o.avoids_requireNumber hp .parameterSet).bind fun _ _ => ?_
  exact (o.avoids_requireBytes hp .value).bind fun _ _ => .ok _

end Material

theorem RsaPublicKey.avoids_ofObject (o : Object) : Avoids IsGeneral (ofObject o) := by
  refine o.avoids_kind.bind fun k _ => ?_
  split
  · exact avoids_material (by decide) o
  · exact avoids_wrongKind _ _

theorem RsaPrivateKey.avoids_ofObject (o : Object) : Avoids IsGeneral (ofObject o) := by
  refine o.avoids_kind.bind fun k _ => ?_
  split
  · exact avoids_material (by decide) o
  · exact avoids_wrongKind _ _

/-- The curve of a key is asked for before its material is read. -/
theorem Curve.avoids_read {α : Type} (c : Curve) (t : KeyType) (expected : String) (k : KeyKind) {x : Except Error α}
    (hx : Avoids IsGeneral x) :
    Avoids IsGeneral (if c.keyType = t then x else .error (wrongKind expected k)) := by
  split
  · exact hx
  · exact avoids_wrongKind _ _

theorem EcPublicKey.avoids_ofObject (o : Object) (t : KeyType) : Avoids IsGeneral (ofObject o t) := by
  refine o.avoids_kind.bind fun k _ => ?_
  split
  case h_4 => exact avoids_wrongKind _ _
  -- The curves of all three families are read in the same way.
  all_goals exact Curve.avoids_read _ t _ _ (avoids_material (by decide) o _)

theorem EcPrivateKey.avoids_ofObject (o : Object) (t : KeyType) : Avoids IsGeneral (ofObject o t) := by
  refine o.avoids_kind.bind fun k _ => ?_
  split
  case h_4 => exact avoids_wrongKind _ _
  all_goals exact Curve.avoids_read _ t _ _ (avoids_material (by decide) o _)

theorem SetKey.avoids_ofPublic (f : ParameterFamily) (o : Object) : Avoids IsGeneral (ofPublic f o) := by
  refine o.avoids_kind.bind fun k _ => ?_
  split
  · exact avoids_material (by decide) o
  · exact avoids_wrongKind _ _

theorem SetKey.avoids_ofPrivate (f : ParameterFamily) (o : Object) : Avoids IsGeneral (ofPrivate f o) := by
  refine o.avoids_kind.bind fun k _ => ?_
  split
  · exact avoids_material (by decide) o
  · exact avoids_wrongKind _ _

namespace SecretKey

theorem avoids_ofObject (o : Object) : Avoids IsGeneral (ofObject o) := by
  refine o.avoids_kind.bind fun k _ => ?_
  split
  · exact (o.avoids_requireBytes (by decide) .value).bind fun _ _ => .ok _
  · exact avoids_wrongKind _ _

theorem avoids_ofObjectOfTypes (o : Object) (types : List KeyType) : Avoids IsGeneral (ofObjectOfTypes o types) := by
  refine (avoids_ofObject o).bind fun k _ => ?_
  split
  · exact .ok _
  · exact avoids_wrongKind _ _

end SecretKey

/-! ## Valid keys -/

namespace Object

variable {P : ReturnCode → Prop} (hp : ¬ P .attributeValueInvalid)

include hp

theorem avoids_validateSet (o : Object) (f : ParameterFamily) (size : ParameterSizes → Nat) :
    Avoids P (o.validateSet f size) := by
  refine (o.avoids_requireNumber hp .parameterSet).bind fun set _ => ?_
  split
  · exact .refuse hp
  · exact (o.avoids_requireBytes hp .value).bind fun b _ => Except.avoids_guard hp fun _ => .ok _

/-- What is wrong with a key, and whatever the check of its kind said, is the value of an attribute. -/
theorem avoids_validate (o : Object) : Avoids P o.validate := by
  unfold validate
  cases hk : o.kind with
  | error e => exact .error hp
  | ok k =>
    cases k with
    | rsaPublic =>
      unfold RsaPublicKey.ofObject
      rw [hk]
      exact (RsaPublicKey.avoids_material hp o).discard
    | rsaPrivate =>
      unfold RsaPrivateKey.ofObject
      rw [hk]
      exact (RsaPrivateKey.avoids_material hp o).discard
    | ecPublic c | edwardsPublic c | montgomeryPublic c =>
      unfold EcPublicKey.ofObject
      rw [hk]
      refine Except.Avoids.discard ?_
      show Avoids P (if c.keyType = c.keyType then _ else _)
      rw [if_pos rfl]
      exact EcPublicKey.avoids_material hp o c
    | ecPrivate c | edwardsPrivate c | montgomeryPrivate c =>
      unfold EcPrivateKey.ofObject
      rw [hk]
      refine Except.Avoids.discard ?_
      show Avoids P (if c.keyType = c.keyType then _ else _)
      rw [if_pos rfl]
      exact EcPrivateKey.avoids_material hp o c
    | mlKemPublic | mlKemPrivate | mlDsaPublic | mlDsaPrivate | slhDsaPublic | slhDsaPrivate =>
      exact o.avoids_validateSet hp _ _
    | secret t => exact Except.avoids_guard hp fun _ => .ok _

end Object

/-! ## New secret keys -/

/-- An object has a key type and a value, of whatever kind. -/
structure Object.IsFilled (o : Object) : Prop where
  keyType : o.value? .keyType ≠ none
  value : o.value? .value ≠ none

namespace Object.IsFilled

variable {o : Object}

theorem put (h : o.IsFilled) (a : Attribute) : (o.put a).IsFilled := by
  have hset : ∀ id, o.value? id ≠ none → (o.put a).value? id ≠ none := by
    intro id hid
    rw [value_put]
    split
    · nofun
    · exact hid
  exact ⟨hset _ h.keyType, hset _ h.value⟩

theorem foldl_put (h : o.IsFilled) (as : List Attribute) : (as.foldl Object.put o).IsFilled := by
  induction as generalizing o with
  | nil => exact h
  | cons a as ih => exact ih (h.put a)

theorem recompute {o' : Object} (h : o.IsFilled) (ho : o.recompute = .ok o') : o'.IsFilled := by
  obtain ⟨_, -, ho⟩ := Except.bind_ok.1 ho
  obtain ⟨_, -, ho⟩ := Except.bind_ok.1 ho
  cases ho
  exact (h.put _).put _

theorem generateUnique (h : o.IsFilled) : o.generateUnique.IsFilled := by
  have hset : ∀ id, o.value? id ≠ none → o.generateUnique.value? id ≠ none := by
    intro id hid
    unfold Object.generateUnique
    split
    · exact hid
    · simp only [value?, List.find?_append]
      obtain ⟨v, hv⟩ := Option.ne_none_iff_exists'.1 hid
      obtain ⟨a, ha, -⟩ := Option.map_eq_some_iff.1 hv
      rw [ha]
      exact Option.some_ne_none _
  exact ⟨hset _ h.keyType, hset _ h.value⟩

end Object.IsFilled

namespace Object

variable {P : ReturnCode → Prop} (ht : ¬ P .attributeTypeInvalid)

include ht

theorem avoids_typed {α : Type} {o : Object} {id : AttributeId} (h : P .generalError → o.value? id ≠ none)
    (pick : AttributeValue → Option α) : Avoids P (o.typed id pick) := by
  unfold typed
  split
  · next hv => exact .error fun hg => h hg hv
  · split
    · exact .ok _
    · exact .fail ht

/-- Only an attribute that is not there gives the general error. -/
theorem avoids_recompute {o : Object} (h : P .generalError → o.IsFilled) : Avoids P o.recompute := by
  refine (avoids_typed ht (fun hg => (h hg).keyType) _).bind fun _ _ => ?_
  exact (avoids_typed ht (fun hg => (h hg).value) _).bind fun _ _ => .ok _

end Object

namespace SecretTemplate

theorem avoids_ofAttributes (as : List Attribute) : Avoids IsGeneral (ofAttributes as) := by
  cases h : ofAttributes as with
  | ok t => exact .ok t
  | error e => exact .error (by rw [code_of_refused h]; decide)

variable {P : ReturnCode → Prop}

theorem avoids_require {t : Option SecretTemplate} (h : P .operationNotInitialized → t ≠ none) :
    Avoids P (require t) := by
  cases t with
  | some t => exact .ok t
  | none => exact .fail fun hp => h hp rfl

theorem avoids_reconcile (hk : ¬ P .keySizeRange) (t : SecretTemplate) (secret : Bytes) :
    Avoids P (t.reconcile secret) := by
  unfold reconcile
  split
  · split
    · exact .refuse hk
    · exact .ok _
  · split
    · exact .refuse hk
    · exact .ok _

theorem filled_initialObject (t : SecretTemplate) (v : Bytes) : (t.initialObject v).IsFilled := by
  rw [initialObject_eq]
  refine Object.IsFilled.generateUnique ⟨?_, ?_⟩
  · rw [value_unnamed]
    cases lastValue? t.overrides .keyType with
    | none => nofun
    | some v => nofun
  · rw [value_unnamed]
    nofun

theorem avoids_build (hk : ¬ P .keySizeRange) (ht : ¬ P .attributeTypeInvalid) (t : SecretTemplate)
    (secret : Bytes) : Avoids P (t.build secret) := by
  refine (t.avoids_reconcile hk secret).bind fun v _ => ?_
  exact Object.avoids_recompute ht fun _ => ((t.filled_initialObject v).put _).put _

theorem filled_build {t : SecretTemplate} {secret : Bytes} {o : Object} (h : t.build secret = .ok o) : o.IsFilled := by
  obtain ⟨v, -, h⟩ := Except.bind_ok.1 h
  exact (((t.filled_initialObject v).put _).put _).recompute h

end SecretTemplate

/-- Whatever secret is given, the key that holds it is made or refused under a code of its own. -/
theorem Encapsulator.avoids_secretKey {P : ReturnCode → Prop} (hk : ¬ P .keySizeRange)
    (ht : ¬ P .attributeTypeInvalid) {e : Encapsulator} (h : P .operationNotInitialized → e.template ≠ none)
    (secret : Bytes) : Avoids P (e.secretKey secret) := by
  refine (SecretTemplate.avoids_require h).bind fun t _ => ?_
  refine (t.avoids_build hk ht secret).bind fun o ho => ?_
  rw [← List.foldl_map (f := fun id => Attribute.ofBool id false) (g := Object.put)]
  exact Object.avoids_recompute ht fun _ => (SecretTemplate.filled_build ho).foldl_put _

theorem DerivationGenerator.avoids_derivedKey (g : DerivationGenerator) (base : Object) (secret : Bytes) :
    Avoids IsGeneral (g.derivedKey base secret) := by
  refine (SecretTemplate.avoids_require (absurd · (by decide))).bind fun t _ => ?_
  refine (t.avoids_build (by decide) (by decide) secret).bind fun o ho => ?_
  refine (Object.avoids_recompute (by decide) fun _ => ?_).bind fun o' _ => ?_
  · exact (((SecretTemplate.filled_build ho).put _).put _).put _
  exact (o'.avoids_validate (by decide)).bind fun _ _ => .ok _

end SoftToken
