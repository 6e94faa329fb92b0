import SoftToken.Proofs.KeyValidity
/-!
# Views are read back from what they write

A view is read off an object that may name its curve in another way, hold a short value, empty primes and attributes
that no key has. What it writes is a new object of the same kind from which the same view is read, and which is valid
if the first object was (`KeyView.round_trip`).
-/

namespace SoftToken

/-- A padded string has the asked length. -/
theorem Bytes.length_padLeft {b : Bytes} {len : Nat} (h : b.length ≤ len) : (b.padLeft len).length = len := by
  rw [padLeft, List.length_append, length_zeros]
  omega

theorem Bytes.padLeft_self {b : Bytes} {len : Nat} (h : b.length = len) : b.padLeft len = b := by
  rw [padLeft, h, Nat.sub_self]
  rfl

/-- Curve parameters are read back. -/
theorem Curve.ofParameters_parameters (c : Curve) : ofParameters c.parameters = .ok c := by
  apply Except.ok_of_toOption
  cases c <;> decide +kernel

namespace Object

variable {o : Object} {as : List Attribute} {id : AttributeId} {v : AttributeValue} {c : ObjectClass} {t : KeyType}

/-! ## New key objects -/

@[simp] theorem cls_newKey (c : ObjectClass) (t : KeyType) (as : List Attribute) : (newKey c t as).cls = c := by
  rw [newKey, cls_foldl_put, cls_generateUnique, cls_put]
  rfl

/-- A new key holds its attributes, an identifier, its type and its class. -/
theorem value_newKey (c : ObjectClass) (t : KeyType) (as : List Attribute) (id : AttributeId) :
    (newKey c t as).value? id = (lastValue? as id).or (if id = .uniqueId then some .drawnId
      else if .keyType = id then some (.number t.val) else if .classId = id then some (.number c.val) else none) := by
  have hfresh : ((new c).put (.ofNumber .keyType t.val)).value? .uniqueId = none := by
    rw [value_put, value_new]
    rfl
  rw [newKey, value_foldl_put, value_generateUnique hfresh, value_put, value_new]
  rfl

theorem value_newKey_of (h : lastValue? as id = some v) : (newKey c t as).value? id = some v := by
  rw [value_newKey, h]
  rfl

theorem keyType_newKey (h : lastValue? as .keyType = none) : (newKey c t as).getNumber .keyType = .ok t.val := by
  rw [getNumber_ok, value_newKey, h]
  rfl

theorem requireBytes_newKey {b : Bytes} (h : lastValue? as id = some (.bytes b)) (hne : b ≠ []) :
    (newKey c t as).requireBytes id = .ok b :=
  requireBytes_ok.2 ⟨getBytes_ok.2 (value_newKey_of h), hne⟩

/-- An attribute that the key itself does not set is there if it is among the given ones. -/
theorem optionalBytes_newKey {p : Option Bytes} (hp : ∀ b, p = some b → b ≠ [])
    (hid : id ∉ [AttributeId.uniqueId, .keyType, .classId]) (h : lastValue? as id = p.map .bytes) :
    (newKey c t as).optionalBytes id = p := by
  cases p with
  | some b => exact optionalBytes_eq_some.2 (requireBytes_newKey h (hp b rfl))
  | none =>
    have hnone : (newKey c t as).value? id = none := by
      simp only [List.mem_cons, List.not_mem_nil, or_false, not_or] at hid
      obtain ⟨hunique, htype, hclass⟩ := hid
      rw [value_newKey, h, if_neg hunique, if_neg (Ne.symm htype), if_neg (Ne.symm hclass)]
      rfl
    refine Option.eq_none_iff_forall_ne_some.2 fun b hb => ?_
    have hbytes := getBytes_ok.1 (requireBytes_ok.1 (optionalBytes_eq_some.1 hb)).1
    rw [hnone] at hbytes
    cases hbytes

/-- A key object that is filled attribute by attribute, where each of them may be refused. -/
def makeKey (c : ObjectClass) (t : KeyType) (as : List Attribute) : Except Error Object := do
  let o ← (new c).set (.ofNumber .keyType t.val)
  o.generateUnique.setAll as

/-- Attributes other than the class are all taken. -/
theorem setAll_ok (h : ∀ a ∈ as, a.id ≠ .classId) (o : Object) : o.setAll as = .ok (as.foldl put o) := by
  induction as generalizing o with
  | nil => rfl
  | cons a as ih =>
    obtain ⟨ha, has⟩ := List.forall_mem_cons.1 h
    have hset : o.set a = .ok (o.put a) := if_neg ha
    rw [List.foldl_cons, ← ih has]
    unfold setAll
    rw [List.foldlM_cons, hset]
    rfl

theorem makeKey_ok (h : ∀ a ∈ as, a.id ≠ .classId) (c : ObjectClass) (t : KeyType) :
    makeKey c t as = .ok (newKey c t as) :=
  setAll_ok h _

end Object

/-! ## The views -/

/-- The views that are written as objects. The views of elliptic curve keys are asked for a type. -/
inductive KeyView where
  | rsaPublic
  | rsaPrivate
  | curvePublic (t : KeyType)
  | curvePrivate (t : KeyType)
  | setPublic (f : ParameterFamily)
  | setPrivate (f : ParameterFamily)
deriving DecidableEq, Repr

namespace KeyView

/-- What a view holds. -/
abbrev Key : KeyView → Type
  | rsaPublic => RsaPublicKey
  | rsaPrivate => RsaPrivateKey
  | curvePublic _ => EcPublicKey
  | curvePrivate _ => EcPrivateKey
  | setPublic _ | setPrivate _ => SetKey

/-- Reads a view off an object. -/
def read (o : Object) : (w : KeyView) → Except Error w.Key
  | rsaPublic => RsaPublicKey.ofObject o
  | rsaPrivate => RsaPrivateKey.ofObject o
  | curvePublic t => EcPublicKey.ofObject o t
  | curvePrivate t => EcPrivateKey.ofObject o t
  | setPublic f => SetKey.ofPublic f o
  | setPrivate f => SetKey.ofPrivate f o

/-- The object that a view writes. -/
def write : (w : KeyView) → w.Key → Object
  | rsaPublic, k => RsaPublicKey.toObject k
  | rsaPrivate, k => RsaPrivateKey.toObject k
  | curvePublic _, k => EcPublicKey.toObject k
  | curvePrivate _, k => EcPrivateKey.toObject k
  | setPublic f, k => SetKey.toPublic k f
  | setPrivate f, k => SetKey.toPrivate k f

/-- The class of the keys of a view. -/
def cls : KeyView → ObjectClass
  | rsaPublic | curvePublic _ | setPublic _ => .publicKey
  | rsaPrivate | curvePrivate _ | setPrivate _ => .privateKey

/-- The type of the keys that a view writes. -/
def keyType : (w : KeyView) → w.Key → KeyType
  | rsaPublic, _ | rsaPrivate, _ => .rsa
  | curvePublic _, k => EcPublicKey.curve k |>.keyType
  | curvePrivate _, k => EcPrivateKey.curve k |>.keyType
  | setPublic f, _ | setPrivate f, _ => f.keyType

/-- The attributes that a view writes, in their order. -/
def attributes : (w : KeyView) → w.Key → List Attribute
  | rsaPublic, (k : RsaPublicKey) =>
    [.ofBytes .modulus k.modulus, .ofBytes .publicExponent k.publicExponent,
      .ofNumber .modulusBits (UInt64.ofNat (k.modulusLength * 8))]
  | rsaPrivate, (k : RsaPrivateKey) =>
    [.ofBytes .modulus k.modulus, .ofBytes .publicExponent k.publicExponent,
      .ofBytes .privateExponent k.privateExponent]
      ++ (k.prime1.map (.ofBytes .prime1)).toList ++ (k.prime2.map (.ofBytes .prime2)).toList
  | curvePublic _, (k : EcPublicKey) =>
    [.ofBytes .ecParams k.curve.parameters, .ofBytes .ecPoint (k.curve.encodePoint k.point)]
  | curvePrivate _, (k : EcPrivateKey) => [.ofBytes .ecParams k.curve.parameters, .ofBytes .value k.value]
  | setPublic _, (k : SetKey) | setPrivate _, (k : SetKey) =>
    [.ofNumber .parameterSet k.parameterSet, .ofBytes .value k.value]

theorem write_eq (w : KeyView) (k : w.Key) : w.write k = .newKey w.cls (w.keyType k) (w.attributes k) := by
  cases w <;> rfl

variable {o : Object}

/-- No attribute that a view writes is the class, so none is refused. -/
theorem makeKey_attributes (w : KeyView) (k : w.Key) :
    Object.makeKey w.cls (w.keyType k) (w.attributes k) = .ok (w.write k) := by
  rw [write_eq]
  apply Object.makeKey_ok
  intro a ha
  cases w with
  | rsaPrivate =>
    -- each of the two primes may be there or not
    rcases k with ⟨modulus, publicExponent, privateExponent, _ | prime1, _ | prime2⟩
    all_goals
      revert a
      simp only [attributes, Attribute.ofBytes, Option.map_none, Option.map_some, Option.toList_none,
        Option.toList_some, List.append_nil, List.cons_append, List.nil_append, List.forall_mem_cons]
      decide
  | _ =>
    revert a
    simp only [attributes, Attribute.ofBytes, Attribute.ofNumber, List.forall_mem_cons]
    decide

/-- What a view makes of the values of its object: an empty prime is no prime, and a short private value of a curve has
zeros in front of it. -/
def Normalizes (o : Object) : (w : KeyView) → w.Key → Prop
  | rsaPrivate, (k : RsaPrivateKey) =>
    (∀ p, k.prime1 = some p ↔ o.value? .prime1 = some (.bytes p) ∧ p ≠ []) ∧
      ∀ p, k.prime2 = some p ↔ o.value? .prime2 = some (.bytes p) ∧ p ≠ []
  | curvePrivate _, (k : EcPrivateKey) =>
    ∃ b, o.value? .value = some (.bytes b) ∧ k.value = Bytes.zeros (k.curve.keySize - b.length) ++ b ∧
      k.value.length = k.curve.keySize
  | _, _ => True

end KeyView

/-! ## Round trips -/

open Object

variable {o : Object}

theorem RsaPublicKey.read_write {k : RsaPublicKey} (h : ofObject o = .ok k) : ofObject k.toObject = .ok k := by
  obtain ⟨-, hmodulus, hexponent⟩ := ofObject_ok.1 h
  have hkind : k.toObject.kind = .ok .rsaPublic := kind_of_curveless (cls_newKey _ _ _) (keyType_newKey rfl) rfl (by decide)
  refine ofObject_ok.2 ⟨hkind, ?_, ?_⟩
  · exact requireBytes_newKey rfl (requireBytes_ok.1 hmodulus).2
  · exact requireBytes_newKey rfl (requireBytes_ok.1 hexponent).2

/-- What the attributes of an RSA private key give an identifier: the primes are set last, if they are there. -/
theorem RsaPrivateKey.lastValue?_attributes (k : RsaPrivateKey) (id : AttributeId) :
    lastValue? (KeyView.attributes .rsaPrivate k) id =
      (if .prime2 = id then k.prime2.map .bytes else none).or ((if .prime1 = id then k.prime1.map .bytes else none).or
        (lastValue? [.ofBytes .modulus k.modulus, .ofBytes .publicExponent k.publicExponent,
          .ofBytes .privateExponent k.privateExponent] id)) := by
  have hprime : ∀ (p : Option Bytes) (id' : AttributeId),
      lastValue? (p.map (.ofBytes id')).toList id = if id' = id then p.map .bytes else none := by
    intro p id'
    cases p with
    | none => exact (ite_self _).symm
    | some b => exact lastValue?_cons _ [] id
  rw [KeyView.attributes, lastValue?_append, lastValue?_append, hprime, hprime]

theorem RsaPrivateKey.read_write {k : RsaPrivateKey} (h : ofObject o = .ok k) : ofObject k.toObject = .ok k := by
  obtain ⟨-, hmodulus, hexponent, hsecret, hprime1, hprime2⟩ := ofObject_ok.1 h
  have hne : ∀ {id b}, o.optionalBytes id = some b → b ≠ [] := fun hb => (requireBytes_ok.1 (optionalBytes_eq_some.1 hb)).2
  have hlast := k.lastValue?_attributes
  have hkind : k.toObject.kind = .ok .rsaPrivate :=
    kind_of_curveless (cls_newKey _ _ _) (keyType_newKey (hlast _)) rfl (by decide)
  refine ofObject_ok.2 ⟨hkind, ?_, ?_, ?_, ?_, ?_⟩
  · exact requireBytes_newKey (hlast _) (requireBytes_ok.1 hmodulus).2
  · exact requireBytes_newKey (hlast _) (requireBytes_ok.1 hexponent).2
  · exact requireBytes_newKey (hlast _) (requireBytes_ok.1 hsecret).2
  · have hgiven : lastValue? (KeyView.attributes .rsaPrivate k) .prime1 = k.prime1.map .bytes :=
      (hlast _).trans Option.or_none
    exact optionalBytes_newKey (fun b hb => hne (hprime1.trans hb)) (by decide) hgiven
  · have hgiven : lastValue? (KeyView.attributes .rsaPrivate k) .prime2 = k.prime2.map .bytes :=
      (hlast _).trans Option.or_none
    exact optionalBytes_newKey (fun b hb => hne (hprime2.trans hb)) (by decide) hgiven

theorem EcPublicKey.read_write {t : KeyType} {k : EcPublicKey} (h : ofObject o t = .ok k) :
    ofObject k.toObject t = .ok k := by
  obtain ⟨ht, -, b, -, hpoint⟩ := ofObject_ok.1 h
  have hcurve : k.toObject.NamesCurve k.curve := ⟨_, value_newKey_of rfl, k.curve.ofParameters_parameters⟩
  have hkind := kind_publicKind (cls_newKey _ _ _) (keyType_newKey rfl) hcurve
  have hback := Curve.decodePoint_encodePoint (Curve.decodePoint_ok_iff.1 hpoint).1
  refine ofObject_ok.2 ⟨ht, hkind, _, requireBytes_newKey rfl fun hempty => ?_, hback⟩
  rw [hempty] at hback
  exact k.curve.decodePoint_nil _ hback

theorem EcPrivateKey.read_write {t : KeyType} {k : EcPrivateKey} (h : ofObject o t = .ok k) :
    ofObject k.toObject t = .ok k := by
  obtain ⟨ht, -, b, -, hlength, hvalue⟩ := ofObject_ok.1 h
  have hcurve : k.toObject.NamesCurve k.curve := ⟨_, value_newKey_of rfl, k.curve.ofParameters_parameters⟩
  have hkind := kind_privateKind (cls_newKey _ _ _) (keyType_newKey rfl) hcurve
  have hsize : k.value.length = k.curve.keySize := by rw [← hvalue, Bytes.length_padLeft hlength]
  refine ofObject_ok.2 ⟨ht, hkind, k.value, requireBytes_newKey rfl fun hempty => ?_, Nat.le_of_eq hsize,
    Bytes.padLeft_self hsize⟩
  rw [hempty] at hsize
  revert hsize
  cases k.curve <;> decide

theorem SetKey.read_toPublic {f : ParameterFamily} {k : SetKey} (h : ofPublic f o = .ok k) :
    ofPublic f (k.toPublic f) = .ok k := by
  obtain ⟨-, -, hvalue⟩ := ofPublic_ok.1 h
  have hkind : (k.toPublic f).kind = .ok f.publicKind := kind_setPublic (cls_newKey _ _ _) (keyType_newKey rfl)
  refine ofPublic_ok.2 ⟨hkind, ?_, requireBytes_newKey rfl (requireBytes_ok.1 hvalue).2⟩
  exact requireNumber_ok.2 (getNumber_ok.2 (value_newKey_of rfl))

theorem SetKey.read_toPrivate {f : ParameterFamily} {k : SetKey} (h : ofPrivate f o = .ok k) :
    ofPrivate f (k.toPrivate f) = .ok k := by
  obtain ⟨-, -, hvalue⟩ := ofPrivate_ok.1 h
  have hkind : (k.toPrivate f).kind = .ok f.privateKind := kind_setPrivate (cls_newKey _ _ _) (keyType_newKey rfl)
  refine ofPrivate_ok.2 ⟨hkind, ?_, requireBytes_newKey rfl (requireBytes_ok.1 hvalue).2⟩
  exact requireNumber_ok.2 (getNumber_ok.2 (value_newKey_of rfl))

namespace KeyView

variable {w : KeyView} {k : w.Key}

/-- The kind of the keys that a view is read off. -/
def kind : (w : KeyView) → w.Key → KeyKind
  | rsaPublic, _ => .rsaPublic
  | rsaPrivate, _ => .rsaPrivate
  | curvePublic _, (k : EcPublicKey) => k.curve.publicKind
  | curvePrivate _, (k : EcPrivateKey) => k.curve.privateKind
  | setPublic f, _ => f.publicKind
  | setPrivate f, _ => f.privateKind

theorem kind_of_read (h : w.read o = .ok k) : o.kind = .ok (w.kind k) := by
  cases w with
  | rsaPublic => exact (RsaPublicKey.ofObject_ok.1 h).1
  | rsaPrivate => exact (RsaPrivateKey.ofObject_ok.1 h).1
  | curvePublic t => exact (EcPublicKey.ofObject_ok.1 h).2.1
  | curvePrivate t => exact (EcPrivateKey.ofObject_ok.1 h).2.1
  | setPublic f => exact (SetKey.ofPublic_ok.1 h).1
  | setPrivate f => exact (SetKey.ofPrivate_ok.1 h).1

theorem read_write (h : w.read o = .ok k) : w.read (w.write k) = .ok k := by
  cases w with
  | rsaPublic => exact RsaPublicKey.read_write h
  | rsaPrivate => exact RsaPrivateKey.read_write h
  | curvePublic t => exact EcPublicKey.read_write h
  | curvePrivate t => exact EcPrivateKey.read_write h
  | setPublic f => exact SetKey.read_toPublic h
  | setPrivate f => exact SetKey.read_toPrivate h

theorem normalizes_of_read (h : w.read o = .ok k) : w.Normalizes o k := by
  cases w with
  | rsaPrivate =>
    obtain ⟨-, -, -, -, hprime1, hprime2⟩ := RsaPrivateKey.ofObject_ok.1 h
    constructor
    · intro p
      rw [← hprime1, optionalBytes_eq_some, requireBytes_ok, getBytes_ok]
    · intro p
      rw [← hprime2, optionalBytes_eq_some, requireBytes_ok, getBytes_ok]
  | curvePrivate t =>
    obtain ⟨-, -, b, hb, hlength, hvalue⟩ := EcPrivateKey.ofObject_ok.1 h
    refine ⟨b, getBytes_ok.1 (requireBytes_ok.1 hb).1, hvalue.symm, ?_⟩
    rw [← hvalue, Bytes.length_padLeft hlength]
  | _ => trivial

/-- A written key is as valid as the object that it was read off. -/
theorem validate_write (h : w.read o = .ok k) (hv : o.validate = .ok ()) : (w.write k).validate = .ok () := by
  have hback := read_write h
  have hkind := kind_of_read h
  have hkind' := kind_of_read hback
  cases w with
  | rsaPublic => exact (validate_eq_rsaPublic hkind').trans (Except.discard_ok.2 ⟨_, hback⟩)
  | rsaPrivate => exact (validate_eq_rsaPrivate hkind').trans (Except.discard_ok.2 ⟨_, hback⟩)
  | curvePublic t =>
    have ht := (EcPublicKey.ofObject_ok.1 h).1
    rw [validate_eq_curvePublic hkind', ht]
    exact Except.discard_ok.2 ⟨_, hback⟩
  | curvePrivate t =>
    have ht := (EcPrivateKey.ofObject_ok.1 h).1
    rw [validate_eq_curvePrivate hkind', ht]
    exact Except.discard_ok.2 ⟨_, hback⟩
  | setPublic f =>
    obtain ⟨-, hset, hvalue⟩ := SetKey.ofPublic_ok.1 h
    obtain ⟨-, hset', hvalue'⟩ := SetKey.ofPublic_ok.1 hback
    rw [validate_eq_setPublic hkind] at hv
    rw [validate_eq_setPublic hkind', ← hv]
    exact validateSet_congr (hset'.trans hset.symm) (hvalue'.trans hvalue.symm)
  | setPrivate f =>
    obtain ⟨-, hset, hvalue⟩ := SetKey.ofPrivate_ok.1 h
    obtain ⟨-, hset', hvalue'⟩ := SetKey.ofPrivate_ok.1 hback
    rw [validate_eq_setPrivate hkind] at hv
    rw [validate_eq_setPrivate hkind', ← hv]
    exact validateSet_congr (hset'.trans hset.symm) (hvalue'.trans hvalue.symm)

/-- A view that is read off an object can be written attribute by attribute. The new object is of the same kind, the
same view is read off it, which differs from the first object's values only in padding and in empty primes, and it is
valid if the first object was. -/
theorem round_trip (w : KeyView) {k : w.Key} (h : w.read o = .ok k) :
    makeKey w.cls (w.keyType k) (w.attributes k) = .ok (w.write k) ∧
    (∃ kind, o.kind = .ok kind ∧ (w.write k).kind = .ok kind) ∧
    w.read (w.write k) = .ok k ∧ w.Normalizes o k ∧
    (o.validate = .ok () → (w.write k).validate = .ok ()) := by
  have hback := read_write h
  have hkinds := And.intro (kind_of_read h) (kind_of_read hback)
  exact ⟨w.makeKey_attributes k, ⟨_, hkinds⟩, hback, normalizes_of_read h, validate_write h⟩

/-- A private key of P-256 that names its curve by its printable name, with a value of one byte and a label. -/
def shortKey : Object :=
  newKey .privateKey .ec
    [.ofBytes .label [1], .ofBytes .ecParams (Der.encodeValue Der.printableStringTag (Bytes.ofString "prime256v1")),
      .ofBytes .value [5]]

/-- The short value is padded, the curve is named by its identifier, and what is written is valid. -/
theorem round_trip_short :
    (curvePrivate .ec).read shortKey = .ok ⟨.p256, Bytes.zeros 31 ++ [5]⟩ ∧ shortKey.validate = .ok () ∧
    (curvePrivate .ec).read ((curvePrivate .ec).write ⟨.p256, Bytes.zeros 31 ++ [5]⟩) =
      .ok ⟨.p256, Bytes.zeros 31 ++ [5]⟩ ∧
    ((curvePrivate .ec).write ⟨.p256, Bytes.zeros 31 ++ [5]⟩).validate = .ok () := by
  have hread : EcPrivateKey.ofObject shortKey .ec = .ok ⟨.p256, Bytes.zeros 31 ++ [5]⟩ :=
    Except.ok_of_toOption (by decide +kernel)
  have hvalid : shortKey.validate = .ok () := Except.ok_of_toOption (by decide +kernel)
  obtain ⟨-, -, hback, -, hvalidates⟩ := round_trip (curvePrivate .ec) hread
  exact ⟨hread, hvalid, hback, hvalidates hvalid⟩

end KeyView
end SoftToken
