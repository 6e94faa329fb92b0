import SoftToken.Proofs.BitCopies
import SoftToken.Proofs.Mask
import SoftToken.Proofs.SecretValues
/-!
# Shorter requests

A derivation that is asked for fewer bytes gives a first piece of what it gives for more
(`Registry.derives_prefix`). Each rule takes the length its own way: most cut the same material, streams and
expansions make fewer blocks, and bits are read for as long as they are asked for. In all of them the
material for the shorter request starts the material for the longer one (`DerivationGenerator.shortens_material`).
-/

namespace SoftToken

/-- First pieces of two byte strings, the one of which starts the other. -/
theorem Bytes.take_prefix_take {a b : Bytes} {short long : Nat} (h : a <+: b) (ha : short ≤ a.length)
    (hle : short ≤ long) : a.take short <+: b.take long := by
  obtain ⟨c, rfl⟩ := h
  have hshort : (a ++ c).take short = a.take short := List.take_append_of_le_length ha
  rw [← hshort]
  exact List.take_prefix_take_left hle

/-! ## Streams and expansions -/

namespace CounterStream

theorem rounds_le (d : Digest) {short long : Nat} (h : short ≤ long) : rounds d short ≤ rounds d long :=
  Nat.div_le_div_right (by omega)

theorem prefix_stream (d : Digest) (seed suffix : Bytes) {short long : Nat} (h : short ≤ long) :
    stream d seed suffix short <+: stream d seed suffix long := by
  have henough : short ≤ (blocks d seed suffix (rounds d short)).length := by
    rw [length_blocks]
    exact le_rounds_mul d short
  exact Bytes.take_prefix_take (prefix_blocks d seed suffix (rounds_le d h)) henough h

end CounterStream

namespace Hkdf

theorem length_blocksFrom (d : Digest) (prk info : Bytes) (n i : Nat) (previous : Bytes) :
    (blocksFrom d prk info n i previous).length = n * d.outputLength := by
  induction n generalizing i previous with
  | zero => simp [blocksFrom]
  | succ n ih =>
    rw [blocksFrom, List.length_append, ih, Hmac.hmac, Digest.length_hash, Nat.succ_mul, Nat.add_comm]

theorem prefix_blocksFrom (d : Digest) (prk info : Bytes) {few many : Nat} (h : few ≤ many) (i : Nat)
    (previous : Bytes) : blocksFrom d prk info few i previous <+: blocksFrom d prk info many i previous := by
  induction few generalizing many i previous with
  | zero => exact List.nil_prefix
  | succ few ih =>
    obtain ⟨many, rfl⟩ : ∃ k, many = k + 1 := ⟨many - 1, by omega⟩
    rw [blocksFrom, blocksFrom]
    exact List.prefix_append_right_inj _ |>.2 (ih (Nat.le_of_succ_le_succ h) _ _)

/-- An expansion takes as many blocks as a counter stream of the same length. -/
theorem expand_eq (d : Digest) (prk info : Bytes) (len : Nat) :
    expand d prk info len = (blocksFrom d prk info (CounterStream.rounds d len) 1 []).take len := rfl

theorem length_expand (d : Digest) (prk info : Bytes) (len : Nat) : (expand d prk info len).length = len := by
  rw [expand_eq, List.length_take, length_blocksFrom]
  exact Nat.min_eq_left (CounterStream.le_rounds_mul d len)

theorem prefix_expand (d : Digest) (prk info : Bytes) {short long : Nat} (h : short ≤ long) :
    expand d prk info short <+: expand d prk info long := by
  have henough : short ≤ (blocksFrom d prk info (CounterStream.rounds d short) 1 []).length := by
    rw [length_blocksFrom]
    exact CounterStream.le_rounds_mul d short
  exact Bytes.take_prefix_take (prefix_blocksFrom d prk info (CounterStream.rounds_le d h) 1 []) henough h

end Hkdf

/-! ## Material -/

/-- What is made for at least `long` bytes starts with what is made for at least `short` bytes, which are there
if the longer ones are. -/
def Shortens (make : Nat → Except Failure Bytes) (short long : Nat) : Prop :=
  ∀ secret, make long = .ok secret → long ≤ secret.length →
    ∃ piece, make short = .ok piece ∧ piece <+: secret ∧ short ≤ piece.length

/-- Material that does not depend on the length is cut later. -/
theorem shortens_of_eq {make : Nat → Except Failure Bytes} {short long : Nat} (h : short ≤ long)
    (heq : make short = make long) : Shortens make short long := by
  intro secret hs hlen
  exact ⟨secret, heq.trans hs, List.prefix_refl _, h.trans hlen⟩

theorem Shortens.bind {α : Type} {x : Except Error α} {make : α → Nat → Except Failure Bytes} {short long : Nat}
    (h : ∀ a, Shortens (make a) short long) : Shortens (fun len => liftM x >>= fun a => make a len) short long := by
  intro secret hs hlen
  obtain ⟨a, rfl, hs⟩ := Except.bind_lift_ok.1 hs
  exact h a secret hs hlen

/-- As many bits are read as are asked for. -/
theorem DerivationRule.shortens_bitsFrom (b : Bytes) (index : Nat) {short long : Nat} (h : short ≤ long) :
    Shortens (bitsFrom b index) short long := by
  intro secret hs hlen
  obtain ⟨hfits, rfl⟩ := bitsFrom_ok.1 hs
  refine ⟨_, bitsFrom_of_fits (hfits.mono h), ?_, by simp⟩
  obtain ⟨more, rfl⟩ := Nat.exists_eq_add_of_le h
  rw [← circleBits_append]
  exact List.prefix_append _ _

theorem AgreementKdf.shortens (kdf : AgreementKdf) (z shared : Bytes) {short long : Nat} (h : short ≤ long) :
    Shortens (kdf.secret z shared) short long := by
  cases kdf with
  | null => exact shortens_of_eq h rfl
  | stream d =>
    intro secret hs hlen
    have hmax : max short d.outputLength ≤ max long d.outputLength := by omega
    obtain ⟨hrounds, rfl⟩ := CounterStream.counted_ok.1 hs
    have hfew := (CounterStream.rounds_le d hmax).trans hrounds
    refine ⟨_, CounterStream.counted_ok.2 ⟨hfew, rfl⟩, CounterStream.prefix_stream d z shared hmax, ?_⟩
    rw [CounterStream.length_stream]
    exact Nat.le_max_left _ _

namespace HkdfSteps

variable {short long : Nat}

/-- What may be expanded has room. -/
theorem maxOutput_lt (s : HkdfSteps) : s.maxOutput < 2 ^ 63 :=
  Nat.lt_of_le_of_lt (Nat.mul_le_mul_left 255 s.digest.outputLength_le) (by decide)

theorem expandKey_of_room (s : HkdfSteps) (prk : Bytes) {len : Nat} (h : len < 2 ^ 63) : s.expandKey prk len =
    if s.maxOutput < len then .error (.error (.explained .keySizeRange (.okmTooLong len)))
    else .ok (Hkdf.expand s.digest prk s.info len) := by
  unfold expandKey
  rw [Checked.reserve_of_lt h, Except.ok_bind]
  rfl

theorem expandKey_of_no_room (s : HkdfSteps) (prk : Bytes) {len : Nat} (h : 2 ^ 63 ≤ len) :
    s.expandKey prk len = .error (.abort .capacity) := by
  unfold expandKey
  rw [Checked.reserve_of_le h]
  rfl

theorem expandKey_ok {s : HkdfSteps} {prk u : Bytes} {len : Nat} :
    s.expandKey prk len = .ok u ↔ len ≤ s.maxOutput ∧ u = Hkdf.expand s.digest prk s.info len := by
  have hmax := s.maxOutput_lt
  rcases Nat.lt_or_ge len (2 ^ 63) with hroom | hroom
  · rw [expandKey_of_room s prk hroom]
    split
    · next h => exact iff_of_false nofun fun hu => Nat.not_lt_of_le hu.1 h
    · next h => exact ⟨fun hu => ⟨Nat.le_of_not_lt h, (Except.ok.inj hu).symm⟩, fun hu => congrArg _ hu.2.symm⟩
  · rw [expandKey_of_no_room s prk hroom]
    exact iff_of_false nofun fun hu => by omega

theorem shortens_expandKey (s : HkdfSteps) (prk : Bytes) (h : short ≤ long) :
    Shortens (s.expandKey prk) short long := by
  intro secret hs hlen
  obtain ⟨hmax, rfl⟩ := expandKey_ok.1 hs
  refine ⟨_, expandKey_ok.2 ⟨h.trans hmax, rfl⟩, Hkdf.prefix_expand s.digest prk s.info h, ?_⟩
  rw [Hkdf.length_expand]

/-- Extraction alone gives one digest, expansion as much as is asked for. -/
theorem shortens (s : HkdfSteps) (ikm : Bytes) (h : short ≤ long) : Shortens (s.run ikm) short long := by
  by_cases hextract : s.extract = true
  · by_cases hexpand : s.expand = true
    · have hrun : s.run ikm = s.expandKey (Hkdf.extract s.digest s.salt ikm) := by
        funext len
        rw [run, if_pos hextract]
        exact if_pos hexpand
      rw [hrun]
      exact s.shortens_expandKey _ h
    · have hrun : s.run ikm = fun _ => .ok (Hkdf.extract s.digest s.salt ikm) := by
        funext len
        rw [run, if_pos hextract]
        exact if_neg hexpand
      rw [hrun]
      exact shortens_of_eq h rfl
  · intro secret hs hlen
    unfold run at hs ⊢
    rw [if_neg hextract] at hs ⊢
    split at hs
    · cases hs
    · next hikm =>
      rw [if_neg hikm]
      exact s.shortens_expandKey ikm h secret hs hlen

end HkdfSteps

/-- The template with another length to ask for. -/
def SecretTemplate.asking (t : SecretTemplate) (len : Nat) : SecretTemplate := { t with requestedLength := some len }

theorem SecretTemplate.requiredLength_asking {t : SecretTemplate} (ht : t.type.secretLength? = none) (len : Nat) :
    (t.asking len).requiredLength = some len := by
  rw [requiredLength, asking, ht]
  rfl

theorem SecretTemplate.minimalLength_asking {t : SecretTemplate} (ht : t.type.secretLength? = none) (len : Nat) :
    (t.asking len).minimalLength = len := by
  rw [minimalLength, requiredLength_asking ht]
  rfl

namespace DerivationGenerator

/-- The generator with a template that asks for a length. -/
def asking (g : DerivationGenerator) (t : SecretTemplate) (len : Nat) : DerivationGenerator :=
  { g with template := some (t.asking len) }

variable {t : SecretTemplate} {short long : Nat}

theorem shortens_agreedMaterial (g : DerivationGenerator) (kdf : AgreementKdf) (shared peer : Bytes) (base : Object)
    (ht : t.type.secretLength? = none) (h : short ≤ long) :
    Shortens (fun len => (g.asking t len).agreedMaterial kdf shared peer base) short long := by
  unfold agreedMaterial
  change Shortens (fun len => liftM (g.checkBase base g.acceptsAgreement) >>= _) short long
  refine Shortens.bind fun kind => Shortens.bind fun key => ?_
  cases key.curve.decodePoint peer with
  | error e => exact fun secret hs => nomatch hs
  | ok point =>
    change Shortens (fun len => liftM (CurveFamily.agree _ key.curve key.value point) >>= fun z =>
      kdf.secret z shared (t.asking len).minimalLength) short long
    simp only [SecretTemplate.minimalLength_asking ht]
    exact Shortens.bind fun z => kdf.shortens z shared h

/-- Every rule shortens its material. -/
theorem shortens_material (g : DerivationGenerator) (base : Object) (ht : t.type.secretLength? = none)
    (h : short ≤ long) : Shortens (fun len => (g.asking t len).material base) short long := by
  obtain ⟨mechanism, rule, template⟩ := g
  cases rule with
  | extractBits index =>
    change Shortens (fun len => liftM (baseSecret ⟨mechanism, .extractBits index, template⟩ base) >>= fun value =>
      if 8 * value.length ≤ index then liftM (refuse .mechanismParamInvalid (.bitIndexTooLarge index) : Except Error Bytes)
      else DerivationRule.bitsFrom value index (t.asking len).minimalLength) short long
    refine Shortens.bind fun value => ?_
    by_cases hindex : 8 * value.length ≤ index
    · simp only [if_pos hindex]
      exact fun secret hs => nomatch hs
    · simp only [if_neg hindex, SecretTemplate.minimalLength_asking ht]
      exact DerivationRule.shortens_bitsFrom value index h
  | agree kdf shared peer => exact shortens_agreedMaterial _ kdf shared peer base ht h
  | hkdf steps =>
    change Shortens (fun len => liftM (baseSecret ⟨mechanism, .hkdf steps, template⟩ base) >>= fun value =>
      steps.run value (t.asking len).minimalLength) short long
    simp only [SecretTemplate.minimalLength_asking ht]
    exact Shortens.bind fun value => steps.shortens value h
  | _ => exact shortens_of_eq h rfl

end DerivationGenerator

/-! ## Templates -/

/-- The template with another value for every length in it. -/
def withLength (n : UInt64) (as : List Attribute) : List Attribute :=
  as.map fun a => if a.id = .valueLen then .ofNumber .valueLen n else a

namespace SecretTemplate

variable {t : SecretTemplate} {as : List Attribute} {n : UInt64}

theorem lastValue?_withLength (n : UInt64) (as : List Attribute) (id : AttributeId) :
    lastValue? (withLength n as) id =
      if id = .valueLen then (lastValue? as id).map fun _ => .number n else lastValue? as id := by
  induction as with
  | nil => simp [withLength, lastValue?]
  | cons a as ih =>
    rw [withLength, List.map_cons, lastValue?_cons, lastValue?_cons]
    change (lastValue? (withLength n as) id).or _ = _
    rw [ih]
    by_cases hid : id = .valueLen
    · subst hid
      by_cases ha : a.id = .valueLen
      · cases lastValue? as .valueLen <;> simp [ha, Attribute.ofNumber]
      · simp [ha]
    · by_cases ha : a.id = .valueLen
      · have hne : ¬ AttributeId.valueLen = id := fun he => hid he.symm
        simp [ha, hid, hne, Attribute.ofNumber]
      · simp [ha, hid]

theorem reserved_withLength (n : UInt64) (as : List Attribute) :
    (withLength n as).filter (fun a => !reserved.contains a.id) = as.filter fun a => !reserved.contains a.id := by
  induction as with
  | nil => rfl
  | cons a as ih =>
    rw [withLength, List.map_cons, List.filter_cons, List.filter_cons]
    change (if _ then _ :: List.filter _ (withLength n as) else List.filter _ (withLength n as)) = _
    rw [ih]
    by_cases ha : a.id = .valueLen
    · rw [if_pos ha, ha]
      rfl
    · rw [if_neg ha]

theorem namedType_withLength (n : UInt64) (as : List Attribute) : namedType (withLength n as) = namedType as := by
  rw [namedType, lastNumber?, lastValue?_withLength, if_neg (by decide)]
  rfl

theorem namedLength_withLength {v : AttributeValue} (h : lastValue? as .valueLen = some v) :
    namedLength (withLength n as) = some n.toNat := by
  rw [namedLength, lastNumber?, lastValue?_withLength, if_pos rfl, h]
  rfl

theorem allowed_withLength (h : ∀ a ∈ as, a.Allowed) : ∀ a ∈ withLength n as, a.Allowed := by
  intro b hb
  obtain ⟨a, ha, rfl⟩ := List.mem_map.1 hb
  have hne : AttributeId.valueLen ≠ .classId ∧ AttributeId.valueLen ≠ .value := by decide
  split
  · exact ⟨rfl, fun hid => absurd hid hne.1, hne.2⟩
  · exact h a ha

/-- The template stays acceptable with another length, if its type leaves the length open. -/
theorem ofAttributes_withLength {m : UInt64} (h : ofAttributes as = .ok t) (hfree : t.type.secretLength? = none)
    (hm : lastValue? as .valueLen = some (.number m)) :
    t = t.asking m.toNat ∧ ofAttributes (withLength n as) = .ok (t.asking n.toNat) := by
  obtain ⟨haccepted, rfl⟩ := ofAttributes_ok_iff.1 h
  have haccepted' : Accepted (withLength n as) := by
    refine ⟨⟨allowed_withLength haccepted.allowed, ?_⟩, fun required requested hfixed _ => ?_⟩
    · rw [namedType_withLength]
      exact haccepted.secret
    · rw [namedType_withLength] at hfixed
      cases hfree.symm.trans hfixed
  refine ⟨?_, ?_⟩
  · rw [asking, reading, namedLength, lastNumber?, hm]
    rfl
  · rw [ofAttributes_of_accepted haccepted', reading, namedType_withLength, namedLength_withLength hm,
      reserved_withLength]
    rfl

theorem reconcile_asking (hfree : t.type.secretLength? = none) {len : Nat} {secret v : Bytes} :
    (t.asking len).reconcile secret = .ok v ↔ len ≤ secret.length ∧ v = secret.take len := by
  rw [reconcile_ok_iff, minimalLength_asking hfree, kept, requiredLength_asking hfree]

end SecretTemplate

/-! ## Derivations -/

/-- The template asks for a generic secret of `len` bytes. -/
structure AsksFor (as : List Attribute) (len : UInt64) : Prop where
  type : (lastValue? as .keyType).getD (.number KeyType.genericSecret.val) = .number KeyType.genericSecret.val
  length : lastValue? as .valueLen = some (.number len)

theorem AsksFor.type_eq {as : List Attribute} {len : UInt64} (h : AsksFor as len) {t : SecretTemplate}
    (hr : t.Reads as) : t.type = .genericSecret := by
  have hval := hr.type.trans h.type
  exact congrArg KeyType.mk (AttributeValue.number.inj hval)

/-- A derivation that succeeds for a generic secret of `long` bytes succeeds for one of `short` bytes, and the
shorter value starts the longer one. -/
theorem Registry.derives_prefix {r : Registry} {m : Mechanism} {store : Store} {as : List Attribute} {base k : Object}
    {short long : UInt64} (h : r.Derives m store as base k) (has : AsksFor as long) (hpos : 1 ≤ short)
    (hle : short ≤ long) :
    ∃ k' v, r.Derives m store (withLength short as) base k' ∧ k.getBytes .value = .ok v ∧ v.length = long.toNat ∧
      k'.getBytes .value = .ok (v.take short.toNat) := by
  rw [derives_iff] at h
  obtain ⟨v, hv⟩ := exists_value_of_derive h
  obtain ⟨g, t, secret, hg, ht, hs, hrec, hallows⟩ := derive_value_iff.1 ⟨k, h, hv⟩
  have hgeneric := has.type_eq (SecretTemplate.ofAttributes_ok ht)
  have hfree : t.type.secretLength? = none := by rw [hgeneric]; rfl
  obtain ⟨hself, ht'⟩ := SecretTemplate.ofAttributes_withLength (n := short) ht hfree has.length
  rw [hself] at hs hrec
  obtain ⟨henough, rfl⟩ := (SecretTemplate.reconcile_asking hfree).1 hrec
  rw [UInt64.le_iff_toNat_le] at hpos hle
  obtain ⟨piece, hpiece, hprefix, hlen⟩ := g.shortens_material base hfree hle secret hs henough
  -- the piece is cut to the shorter length, which any generic secret may have
  have hvalue : (t.asking short.toNat).reconcile piece = .ok (piece.take short.toNat) :=
    (SecretTemplate.reconcile_asking hfree).2 ⟨hlen, rfl⟩
  have hshort : (piece.take short.toNat).length = short.toNat := List.length_take_of_le hlen
  have hallows' : (t.asking short.toNat).type.allowsLength (piece.take short.toNat).length = true := by
    rw [hshort]
    show t.type.allowsLength short.toNat = true
    rw [hgeneric]
    exact decide_eq_true hpos
  obtain ⟨k', hk', hkv⟩ := derive_value_iff.2 ⟨g, _, piece, hg, ht', hpiece, hvalue, hallows'⟩
  refine ⟨k', secret.take long.toNat, derives_iff.2 hk', hv, List.length_take_of_le henough, ?_⟩
  rw [hkv, List.take_take, Nat.min_eq_left hle]
  obtain ⟨rest, rfl⟩ := hprefix
  rw [List.take_append_of_le_length hlen]

/-! ## A run -/

namespace Prefixes

/-- A secret key that may be derived from. -/
def baseKey : Object := .newKey .secretKey .genericSecret [.ofBytes .value [1, 2, 3], .ofBool .derive true]

/-- HKDF with both steps over SHA-256, without salt and information. -/
def bothSteps : Mechanism :=
  ⟨.hkdfDerive, (Params.encode (⟨true, true, .sha256, 1, none, 0, none⟩ : HkdfParams)).toOption.getD []⟩

/-- A template for 40 bytes, which are more than one digest. -/
def fortyBytes : List Attribute := [.ofNumber .valueLen 40]

theorem run : ∃ k, Registry.full.Derives bothSteps {} fortyBytes baseKey k := by
  have h : (Registry.full.derive bothSteps {} fortyBytes baseKey).toOption.isSome = true := by decide +kernel
  obtain ⟨k, hk⟩ := Option.isSome_iff_exists.1 h
  exact ⟨k, Registry.derives_iff.2 (Except.ok_of_toOption hk)⟩

end Prefixes

open Prefixes in
/-- A key of one digest and a byte starts the key of 40 bytes. -/
theorem Registry.derives_prefix_hkdf :
    ∃ k k' v, full.Derives bothSteps {} fortyBytes baseKey k ∧
      full.Derives bothSteps {} [.ofNumber .valueLen 33] baseKey k' ∧
      k.getBytes .value = .ok v ∧ v.length = 40 ∧ k'.getBytes .value = .ok (v.take 33) := by
  obtain ⟨k, hk⟩ := Prefixes.run
  have hpos : (1 : UInt64) ≤ 33 := by decide
  have hle : (33 : UInt64) ≤ 40 := by decide
  obtain ⟨k', v, hk', hv, hlen, hv'⟩ := derives_prefix hk ⟨rfl, rfl⟩ hpos hle
  exact ⟨k, k', v, hk, hk', hv, hlen, hv'⟩

end SoftToken
