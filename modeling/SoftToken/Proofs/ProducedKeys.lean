import SoftToken.Proofs.Encapsulation
import SoftToken.Proofs.SecretKeys
/-!
# Keys that operations produce

A secret key that is derived, encapsulated or decapsulated is faithful to the template of its operation
(`Produced.follows`): what the template says last holds, defaults fill what it leaves out, and what is
fixed or computed it cannot reach.
-/

namespace SoftToken

/-- The secret keys of operations whose template was read from `as`, with the flags that the operation
clears. -/
inductive Produced (as : List Attribute) : List AttributeId → Object → Prop
  | derived {g₀ g : DerivationGenerator} {base o : Object} :
    g₀.init as = .ok g → g.generate base = .ok o → Produced as [.isLocal] o
  | encapsulated {e₀ e : Encapsulator} {key o : Object} {data : Bytes} {t t' : RandomSource} :
    e₀.init as = .ok e → (e.encapsulate key).on t = (.ok (o, data), t') →
      Produced as [.sensitive, .alwaysSensitive, .neverExtractable, .isLocal] o
  | decapsulated {e₀ e : Encapsulator} {key o : Object} {data : Bytes} :
    e₀.init as = .ok e → e.decapsulate key data = .ok o →
      Produced as [.sensitive, .alwaysSensitive, .neverExtractable, .isLocal] o

/-- The check value of a block cipher key is the start of an encrypted zero block, that of any other key
the start of its digest. -/
structure IsCheckValue (t : KeyType) (v check : Bytes) : Prop where
  ofCipher : ∀ c : BlockCipher, t = c.keyType → v.length ∈ [16, 24, 32] →
    ∃ e, c.encryptor? v = some e ∧ check = (BlockCipher.ecb e (Bytes.zeros BlockCipher.blockSize)).take 3
  ofOther : (∀ c : BlockCipher, t = c.keyType → v.length ∉ [16, 24, 32]) → check = (Digest.sha1.hash v).take 3

/-- The attributes with rules of their own: what is fixed or computed, and the marks of exposure. -/
def Object.governed : List AttributeId :=
  [.classId, .keyType, .value, .valueLen, .checkValue, .uniqueId, .alwaysSensitive, .neverExtractable]

/-- A secret key that is faithful to a template, but for the flags `cleared`. -/
structure Object.Follows (o : Object) (as : List Attribute) (cleared : List AttributeId) : Prop where
  distinct : (o.attributes.map (·.id)).Nodup
  cls : o.cls = .secretKey
  classId : o.value? .classId = some (.number ObjectClass.secretKey.val)
  keyType : o.value? .keyType = some ((lastValue? as .keyType).getD (.number KeyType.genericSecret.val))
  flags : ∀ id ∈ cleared, o.value? id = some (.bool false)
  computed : ∃ type value check, o.value? .keyType = some (.number type) ∧ o.value? .value = some (.bytes value) ∧
    o.value? .valueLen = some (.number (UInt64.ofNat value.length)) ∧
    o.value? .checkValue = some (.bytes check) ∧ IsCheckValue ⟨type⟩ value check
  uniqueId : o.value? .uniqueId = some .drawnId
  /-- The last value of the template, or else the default. -/
  other : ∀ id ∉ governed, id ∉ cleared →
    o.value? id = (lastValue? as id).or ((SecretTemplate.defaults.lookup id).map .bool)

/-! ## The check value -/

theorem BlockCipher.allowsLength_iff (c : BlockCipher) (n : Nat) :
    c.keyType.allowsLength n = true ↔ n ∈ [16, 24, 32] := by
  have hcipher : c.keyType.isBlockCipher = true := by cases c <;> rfl
  simp [KeyType.allowsLength, hcipher, or_assoc]

theorem BlockCipher.ofKeyType_some {t : KeyType} {c : BlockCipher} :
    BlockCipher.ofKeyType? t = some c ↔ t = c.keyType := by
  constructor
  · intro h
    unfold ofKeyType? at h
    split at h
    · cases h; assumption
    split at h
    · cases h; assumption
    · cases h
  · rintro rfl
    cases c <;> rfl

theorem BlockCipher.exists_encryptor {c : BlockCipher} {key : Bytes} (h : key.length ∈ [16, 24, 32]) :
    ∃ e, c.encryptor? key = some e := by
  unfold encryptor?
  rw [if_pos ((c.allowsLength_iff _).2 h)]
  cases c <;> exact ⟨_, rfl⟩

theorem BlockCipher.ecb_zeros (e : Bytes → Bytes) : ecb e (Bytes.zeros blockSize) = e (Bytes.zeros blockSize) := by
  show e _ ++ [] = _
  exact List.append_nil _

theorem isCheckValue_checkValue (t : KeyType) (v : Bytes) : IsCheckValue t v (Object.checkValue t v) where
  ofCipher := by
    intro c hc hv
    obtain ⟨e, he⟩ := BlockCipher.exists_encryptor hv
    refine ⟨e, he, ?_⟩
    rw [Object.checkValue, BlockCipher.ofKeyType_some.2 hc, BlockCipher.ecb_zeros, Option.bind_some, he]
  ofOther := by
    intro hno
    have hnone : (BlockCipher.ofKeyType? t).bind (fun c => c.encryptor? v) = none := by
      cases hc : BlockCipher.ofKeyType? t with
      | none => rfl
      | some c =>
        have hlen : ¬ c.keyType.allowsLength v.length = true := fun h =>
          hno c (BlockCipher.ofKeyType_some.1 hc) ((c.allowsLength_iff _).1 h)
        rw [Option.bind_some]
        unfold BlockCipher.encryptor?
        rw [if_neg hlen]
    rw [Object.checkValue, hnone]

/-! ## Faithfulness -/

/-- A finished key is faithful to its template where its operation leaves it alone. -/
theorem Object.follows_of_finishes {t : SecretTemplate} {as : List Attribute} {v : Bytes} {o : Object}
    {cleared changed : List AttributeId} (hr : t.Reads as) (hf : t.Finishes v changed o)
    (hchanged : changed ⊆ .alwaysSensitive :: .neverExtractable :: cleared)
    (hsettled : ∀ id ∈ changed, id ∉ SecretTemplate.settled)
    (hcleared : ∀ id ∈ cleared, o.value? id = some (.bool false)) : o.Follows as cleared := by
  -- The operation changes nothing that is settled before it.
  have hkeep : ∀ id ∈ [AttributeId.classId, .keyType, .value, .uniqueId],
      o.value? id = (t.initialObject v).value? id := by
    intro id hid
    have hsub : id ∈ SecretTemplate.settled ∧ id ≠ .valueLen ∧ id ≠ .checkValue := by
      have hall : ∀ id ∈ [AttributeId.classId, .keyType, .value, .uniqueId],
          id ∈ SecretTemplate.settled ∧ id ≠ .valueLen ∧ id ≠ .checkValue := by decide
      exact hall id hid
    exact hf.alters.value id (by simpa [hsub] using fun h => hsettled id h hsub.1)
  have htype := (hkeep .keyType (by decide)).trans (SecretTemplate.keyType_initialObject hr v)
  exact {
    distinct := hf.alters.distinct (t.distinct_initialObject v)
    cls := hf.alters.cls.trans (t.cls_initialObject v)
    classId := (hkeep _ (by decide)).trans (SecretTemplate.classId_initialObject hr v)
    keyType := by rw [htype, ← hr.type]
    flags := hcleared
    computed := ⟨_, v, _, htype, (hkeep _ (by decide)).trans (SecretTemplate.value_initialObject hr v), hf.valueLen,
      hf.checkValue, isCheckValue_checkValue ..⟩
    uniqueId := (hkeep _ (by decide)).trans (SecretTemplate.uniqueId_initialObject hr v)
    other := by
      intro id hid hfree
      have hsub : SecretTemplate.settled ⊆ governed := by decide
      have hfixed : id ≠ .valueLen ∧ id ≠ .checkValue ∧ id ≠ .alwaysSensitive ∧ id ≠ .neverExtractable := by
        refine ⟨?_, ?_, ?_, ?_⟩ <;> (rintro rfl; exact hid (by decide))
      have hout : id ∉ .valueLen :: .checkValue :: changed := by
        simpa [hfixed] using fun h => hfree (by simpa [hfixed] using hchanged h)
      rw [hf.alters.value id hout, SecretTemplate.other_initialObject hr v fun h => hid (hsub h)] }

theorem Encapsulator.follows_of_secretKey {e₀ e : Encapsulator} {as : List Attribute} {secret : Bytes} {o : Object}
    (hi : e₀.init as = .ok e) (h : e.secretKey secret = .ok o) : o.Follows as clearedFlags := by
  obtain ⟨t, ht, rfl⟩ := init_eq hi
  have hr := SecretTemplate.ofAttributes_ok ht
  obtain ⟨v, -, hf, hflags⟩ := secretKey_ok rfl hr h
  exact o.follows_of_finishes hr hf (by decide) (by decide) hflags

/-- A key that an operation produces is faithful to the operation's template. -/
theorem Produced.follows {as : List Attribute} {cleared : List AttributeId} {o : Object}
    (h : Produced as cleared o) : o.Follows as cleared := by
  cases h with
  | derived hi hg =>
    obtain ⟨t, ht, rfl⟩ := DerivationGenerator.init_eq hi
    have hr := SecretTemplate.ofAttributes_ok ht
    obtain ⟨v, hf, hlocal, -⟩ := DerivationGenerator.generate_ok rfl hr hg
    exact o.follows_of_finishes hr hf (by decide) (by decide) (by simpa using hlocal)
  | encapsulated hi he =>
    obtain ⟨secret, -, hs⟩ := Encapsulator.encapsulate_ok he
    exact Encapsulator.follows_of_secretKey hi hs
  | decapsulated hi he =>
    obtain ⟨secret, -, hs⟩ := Encapsulator.decapsulate_ok.1 he
    exact Encapsulator.follows_of_secretKey hi hs

/-! ## Two runs -/

namespace Produced

/-- A template that reaches for what it may not set, and gives the label twice. -/
def reachingTemplate : List Attribute :=
  [.ofNumber .keyType KeyType.aes.val, ⟨.label, .string "first"⟩, .ofBool .isLocal true,
    ⟨.uniqueId, .string "mine"⟩, .ofBool .alwaysSensitive true, ⟨.label, .string "last"⟩]

/-- A generator that appends eight bytes to a base key of eight. -/
def appending : DerivationGenerator :=
  { mechanism := .concatenateBaseAndData, rule := .appendData (List.replicate 8 2) }

def eightBytes : Object :=
  (Object.newKey .secretKey .genericSecret [.ofBytes .value (List.replicate 8 1)]).put (.ofBool .derive true)

open Encapsulator in
/-- A derived AES key and a byte that is encapsulated by RSA are faithful to their templates. -/
theorem follows_runs :
    (∃ g o, appending.init reachingTemplate = .ok g ∧ g.generate eightBytes = .ok o ∧
      o.Follows reachingTemplate [.isLocal]) ∧
    ∃ o data t, (mersenneEncapsulator.encapsulate mersennePublicObject).on ones = (.ok (o, data), t) ∧
      o.Follows shortTemplate [.sensitive, .alwaysSensitive, .neverExtractable, .isLocal] := by
  have hi : (appending.init reachingTemplate).toOption.isSome = true := by decide +kernel
  have hg : ((appending.init reachingTemplate).toOption.bind fun g =>
      (g.generate eightBytes).toOption).isSome = true := by decide +kernel
  obtain ⟨g, hi⟩ := Option.isSome_iff_exists.1 hi
  rw [hi] at hg
  obtain ⟨o, hg⟩ := Option.isSome_iff_exists.1 hg
  obtain ⟨-, hinit, key, data, t, hrun⟩ := mersenne_run
  exact ⟨⟨g, o, Except.ok_of_toOption hi, Except.ok_of_toOption hg,
      follows (.derived (Except.ok_of_toOption hi) (Except.ok_of_toOption hg))⟩,
    key, data, t, hrun, follows (.encapsulated hinit hrun)⟩

end Produced
end SoftToken
