import SoftToken.Params
import SoftToken.Proofs.ByteNumbers
import SoftToken.Proofs.Draws
/-!
# The wire form of parameters is canonical

Each codec reads back what it writes and has written whatever it reads. The law is closed under the ways
codecs are put together, so it holds of every parameter structure: a blob within the size limit has at
most one value, and it has one just when it is the encoding of that value.
-/

namespace SoftToken

/-! ## Fields -/

/-- A field of a parameter structure. -/
inductive WireField where
  | number (n : UInt64)
  | flag (v : Bool)
  | text (b : Bytes)
  | optional (o : Option Bytes)
deriving DecidableEq, Repr

namespace WireField

/-- Eight bytes for a number, one for a truth value, one for the tag of an optional value, eight for a
length. -/
def size : WireField → Nat
  | number _ => 8
  | flag _ => 1
  | text b => 8 + b.length
  | optional none => 1
  | optional (some b) => 1 + (8 + b.length)

def bytes : WireField → Bytes
  | number n => Bytes.ofNatLE 8 n.toNat
  | flag v => [if v then 1 else 0]
  | text b => Bytes.ofNatLE 8 b.length ++ b
  | optional none => [0]
  | optional (some b) => 1 :: (Bytes.ofNatLE 8 b.length ++ b)

theorem length_bytes (f : WireField) : f.bytes.length = f.size := by
  rcases f with n | v | b | _ | b
  · exact Bytes.length_ofNatLE ..
  · rfl
  · rw [bytes, List.length_append, Bytes.length_ofNatLE, size]
  · rfl
  · rw [bytes, List.length_cons, List.length_append, Bytes.length_ofNatLE, size, Nat.add_comm]

/-- The number of bytes of several fields. -/
def totalSize (fields : List WireField) : Nat := fields.foldr (fun f n => f.size + n) 0

theorem length_flatMap (fields : List WireField) : (fields.flatMap bytes).length = totalSize fields := by
  induction fields with
  | nil => rfl
  | cons f fields ih =>
    rw [List.flatMap_cons, List.length_append, f.length_bytes, ih]
    rfl

end WireField

/-! ## Codecs -/

namespace Codec

variable {α β : Type}

/-- Values are written field by field; reading undoes writing and writing undoes reading, whatever
follows. -/
structure Canonical (c : Codec α) (layout : α → List WireField) : Prop where
  write_layout (v : α) : c.write v = (layout v).flatMap WireField.bytes
  /-- Lengths are numbers of eight bytes, so nothing longer can be read back. -/
  read_write (v : α) (r : Bytes) : (c.write v).length < 2 ^ 64 → c.read (c.write v ++ r) = .ok (v, r)
  write_read {b r : Bytes} {v : α} : c.read b = .ok (v, r) → c.write v ++ r = b

theorem readExactly_append {len : Nat} {b : Bytes} (h : b.length = len) (r : Bytes) :
    readExactly len (b ++ r) = .ok (b, r) := by
  subst h
  simp [readExactly]

theorem readExactly_ok {len : Nat} {b d r : Bytes} (h : readExactly len b = .ok (d, r)) :
    d.length = len ∧ d ++ r = b := by
  unfold readExactly at h
  split at h
  · cases h
    exact ⟨‹_›, List.take_append_drop len b⟩
  · cases h

theorem Canonical.number : number.Canonical fun n => [.number n] where
  write_layout _ := (List.append_nil _).symm
  read_write n r := by
    intro
    have hn : n.toNat < 256 ^ 8 := n.toNat_lt
    simp only [Codec.number, readExactly_append (Bytes.length_ofNatLE 8 _), Except.ok_bind,
      Bytes.toNatLE_ofNatLE hn, UInt64.ofNat_toNat]
    rfl
  write_read {b r n} h := by
    obtain ⟨⟨digits, r'⟩, hd, h⟩ := Except.bind_ok.1 h
    obtain ⟨hlen, hb⟩ := readExactly_ok hd
    cases h
    have hlt : Bytes.toNatLE digits < 2 ^ 64 := by
      have := Bytes.toNatLE_lt digits
      rwa [hlen] at this
    simp only [Codec.number, UInt64.toNat_ofNat', Nat.mod_eq_of_lt hlt]
    rw [← hlen, Bytes.ofNatLE_toNatLE, hb]

theorem Canonical.bool : bool.Canonical fun v => [.flag v] where
  write_layout _ := (List.append_nil _).symm
  read_write v r := by
    intro
    cases v <;> rfl
  write_read {b r v} h := by
    rcases b with _ | ⟨x, b⟩
    · cases h
    simp only [Codec.bool, Codec.readByte, Except.ok_bind] at h
    split at h
    · cases h
      subst x
      rfl
    split at h
    · cases h
      subst x
      rfl
    · cases h

theorem Canonical.bytes : bytes.Canonical fun b => [.text b] where
  write_layout _ := (List.append_nil _).symm
  read_write v r := by
    intro h
    have hv : v.length < 2 ^ 64 := by
      simp only [Codec.bytes, List.length_append, Bytes.length_ofNatLE] at h
      omega
    have hn := Canonical.number.read_write (UInt64.ofNat v.length) (v ++ r)
    simp only [Codec.number, UInt64.toNat_ofNat', Nat.mod_eq_of_lt hv, Bytes.length_ofNatLE] at hn
    simp only [Codec.bytes, Codec.number, List.append_assoc, hn (by decide), Except.ok_bind,
      UInt64.toNat_ofNat', Nat.mod_eq_of_lt hv]
    exact readExactly_append rfl r
  write_read {b r v} h := by
    obtain ⟨⟨len, r'⟩, hlen, h⟩ := Except.bind_ok.1 h
    obtain ⟨hv, rfl⟩ := readExactly_ok h
    rw [← Canonical.number.write_read hlen]
    simp only [Codec.bytes, Codec.number, hv, List.append_assoc]

theorem Canonical.optional : (option Codec.bytes).Canonical fun o => [.optional o] where
  write_layout o := by
    rcases o with _ | b
    · rfl
    · exact (List.append_nil _).symm
  read_write v r := by
    intro h
    rcases v with _ | v
    · rfl
    simp only [Codec.option, List.length_cons] at h
    simp only [Codec.option, Codec.readByte, List.cons_append, Except.ok_bind, reduceIte,
      Canonical.bytes.read_write v r (by omega)]
    rfl
  write_read {b r v} h := by
    rcases b with _ | ⟨x, b⟩
    · obtain ⟨_, hx, _⟩ := Except.bind_ok.1 h
      cases hx
    simp only [Codec.option, Codec.readByte, Except.ok_bind] at h
    split at h
    · cases h
      subst x
      rfl
    split at h
    · obtain ⟨⟨w, r''⟩, hw, h⟩ := Except.bind_ok.1 h
      cases h
      subst x
      exact congrArg (1 :: ·) (Canonical.bytes.write_read hw)
    · cases h

variable {c : Codec α} {layout : α → List WireField}

theorem Canonical.pair (hc : c.Canonical layout) {d : Codec β} {layout' : β → List WireField}
    (hd : d.Canonical layout') : (pair c d).Canonical fun v => layout v.1 ++ layout' v.2 where
  write_layout v := by
    rw [List.flatMap_append, ← hc.write_layout, ← hd.write_layout]
    rfl
  read_write v r := by
    intro h
    simp only [Codec.pair, List.length_append] at h
    simp only [Codec.pair, List.append_assoc, hc.read_write v.1 _ (by omega), Except.ok_bind,
      hd.read_write v.2 _ (by omega)]
    rfl
  write_read {b r v} h := by
    obtain ⟨⟨x, b₁⟩, hx, h⟩ := Except.bind_ok.1 h
    obtain ⟨⟨y, b₂⟩, hy, h⟩ := Except.bind_ok.1 h
    cases h
    rw [← hc.write_read hx, ← hd.write_read hy]
    exact List.append_assoc ..

theorem Canonical.map (hc : c.Canonical layout) {forward : α → β} {back : β → α}
    (hf : ∀ v, forward (back v) = v) (hb : ∀ v, back (forward v) = v) :
    (c.map forward back).Canonical fun v => layout (back v) where
  write_layout v := hc.write_layout (back v)
  read_write v r := by
    intro h
    simp only [Codec.map, hc.read_write (back v) r h, Except.ok_bind, hf]
    rfl
  write_read {b r v} h := by
    obtain ⟨⟨x, b₁⟩, hx, h⟩ := Except.bind_ok.1 h
    cases h
    simp only [Codec.map, hb]
    exact hc.write_read hx

/-- A blob of any size is the written form of what it decodes to. -/
theorem Canonical.write_of_decode (hc : c.Canonical layout) {b : Bytes} {v : α} (h : c.decode b = .ok v) :
    c.write v = b := by
  obtain ⟨⟨w, r⟩, hr, h⟩ := Except.bind_ok.1 h
  have hw := hc.write_read hr
  dsimp only at h
  split at h
  · rename_i he
    cases h
    rw [List.isEmpty_iff.1 he, List.append_nil] at hw
    exact hw
  · cases h

/-- A blob decodes to the value it is the written form of. -/
theorem Canonical.decode_ok (hc : c.Canonical layout) {b : Bytes} {v : α} (hlen : b.length < 2 ^ 64) :
    c.decode b = .ok v ↔ c.write v = b := by
  constructor
  · exact hc.write_of_decode
  · rintro rfl
    have hr := hc.read_write v [] hlen
    rw [List.append_nil] at hr
    rw [decode, hr]
    rfl

theorem Canonical.decode_append (hc : c.Canonical layout) {v : α} {r : Bytes} (hlen : (c.write v).length < 2 ^ 64)
    (hr : r ≠ []) : c.decode (c.write v ++ r) = .error .trailingBytes := by
  rcases r with _ | ⟨x, r⟩
  · exact absurd rfl hr
  · rw [decode, hc.read_write v _ hlen]
    rfl

/-- No written form goes on after another one. -/
theorem Canonical.prefix_free (hc : c.Canonical layout) {v w : α} {r : Bytes} (h : c.write w ++ r = c.write v)
    (hlen : (c.write v).length < 2 ^ 64) : r = [] := by
  have hw : (c.write w).length < 2 ^ 64 := by
    rw [← h, List.length_append] at hlen
    omega
  have hread := hc.read_write w r hw
  rw [h, ← List.append_nil (c.write v), hc.read_write v [] hlen] at hread
  cases hread
  rfl

theorem encode_ok {c : Codec α} {v : α} {b : Bytes} :
    c.encode v = .ok b ↔ (c.write v).length ≤ sizeLimit ∧ c.write v = b := by
  unfold encode
  dsimp only
  split
  · simp [*]
  · simp [*]

end Codec

/-! ## The parameter structures -/

/-- The kinds of parameters. -/
inductive ParamShape where
  | mac | oaep | pss | agreement | hkdf | signContext | hashSignContext | eddsa | stringData | handle
  | extract | cbcData
deriving DecidableEq, Repr

namespace ParamShape

/-- The structure of parameters of this kind. -/
def Value : ParamShape → Type
  | mac => MacParams
  | oaep => OaepParams
  | pss => PssParams
  | agreement => AgreementParams
  | hkdf => HkdfParams
  | signContext => SignContext
  | hashSignContext => HashSignContext
  | eddsa => EddsaParams
  | stringData => StringData
  | handle => HandleParam
  | extract => ExtractParams
  | cbcData => CbcData

instance params : (s : ParamShape) → Params s.Value
  | mac => (inferInstance : Params MacParams)
  | oaep => (inferInstance : Params OaepParams)
  | pss => (inferInstance : Params PssParams)
  | agreement => (inferInstance : Params AgreementParams)
  | hkdf => (inferInstance : Params HkdfParams)
  | signContext => (inferInstance : Params SignContext)
  | hashSignContext => (inferInstance : Params HashSignContext)
  | eddsa => (inferInstance : Params EddsaParams)
  | stringData => (inferInstance : Params StringData)
  | handle => (inferInstance : Params HandleParam)
  | extract => (inferInstance : Params ExtractParams)
  | cbcData => (inferInstance : Params CbcData)

/-- The fields of a structure in the order of the wire. -/
def fields : (s : ParamShape) → s.Value → List WireField
  | mac, p => [.number (MacParams.length p)]
  | oaep, (p : OaepParams) => [.number p.hash.val, .number p.mask, .number p.source, .optional p.label]
  | pss, (p : PssParams) => [.number p.hash.val, .number p.mask, .number p.saltLength]
  | agreement, (p : AgreementParams) => [.number p.kdf, .optional p.sharedData, .optional p.publicData]
  | hkdf, (p : HkdfParams) =>
    [.flag p.extract, .flag p.expand, .number p.hash.val, .number p.saltType, .optional p.salt, .number p.saltKey,
      .optional p.info]
  | signContext, (p : SignContext) => [.number p.hedge, .optional p.context]
  | hashSignContext, (p : HashSignContext) => [.number p.hedge, .optional p.context, .number p.hash.val]
  | eddsa, (p : EddsaParams) => [.flag p.prehash, .optional p.context]
  | stringData, (p : StringData) => [.text p.data]
  | handle, (p : HandleParam) => [.number p.handle]
  | extract, (p : ExtractParams) => [.number p.index]
  | cbcData, (p : CbcData) => [.text p.iv, .text p.data]

/-- The number of bytes a structure takes on the wire. -/
def wireSize (s : ParamShape) (v : s.Value) : Nat := WireField.totalSize (s.fields v)

end ParamShape

namespace Params

open Codec (Canonical)

theorem canonical (s : ParamShape) : (codec : Codec s.Value).Canonical s.fields := by
  have mechanism : (Codec.number.map (fun n => (⟨n⟩ : MechanismId)) (·.val)).Canonical fun m => [.number m.val] :=
    Canonical.number.map (fun _ => rfl) (fun _ => rfl)
  cases s with
  | mac => exact Canonical.number.map (fun _ => rfl) (fun _ => rfl)
  | oaep => exact (mechanism.pair (.pair .number (.pair .number .optional))).map (fun _ => rfl) (fun _ => rfl)
  | pss => exact (mechanism.pair (.pair .number .number)).map (fun _ => rfl) (fun _ => rfl)
  | agreement => exact (Canonical.number.pair (.pair .optional .optional)).map (fun _ => rfl) (fun _ => rfl)
  | hkdf =>
    exact (Canonical.bool.pair (.pair .bool (mechanism.pair (.pair .number (.pair .optional
      (.pair .number .optional)))))).map (fun _ => rfl) (fun _ => rfl)
  | signContext => exact (Canonical.number.pair .optional).map (fun _ => rfl) (fun _ => rfl)
  | hashSignContext => exact (Canonical.number.pair (.pair .optional mechanism)).map (fun _ => rfl) (fun _ => rfl)
  | eddsa => exact (Canonical.bool.pair .optional).map (fun _ => rfl) (fun _ => rfl)
  | stringData => exact Canonical.bytes.map (fun _ => rfl) (fun _ => rfl)
  | handle => exact Canonical.number.map (fun _ => rfl) (fun _ => rfl)
  | extract => exact Canonical.number.map (fun _ => rfl) (fun _ => rfl)
  | cbcData => exact (Canonical.bytes.pair .bytes).map (fun _ => rfl) (fun _ => rfl)

/-- Encoding writes the fields, if they are not too many bytes. -/
theorem encode_ok {s : ParamShape} {v : s.Value} {b : Bytes} :
    encode v = .ok b ↔ s.wireSize v ≤ Codec.sizeLimit ∧ (s.fields v).flatMap WireField.bytes = b := by
  have hsize : (codec.write v).length = s.wireSize v := by
    rw [(canonical s).write_layout]
    exact WireField.length_flatMap (s.fields v)
  rw [encode, Except.mapError_ok, Codec.encode_ok, hsize, (canonical s).write_layout]

/-- Decoding finds the value whose encoding the blob is. -/
theorem decode_ok {s : ParamShape} {b : Bytes} {v : s.Value} (hb : b.length ≤ Codec.sizeLimit) :
    decode s.Value b = .ok v ↔ encode v = .ok b := by
  have hlen : b.length < 2 ^ 64 := Nat.lt_of_le_of_lt hb (by decide)
  rw [decode, encode, Except.mapError_ok, Except.mapError_ok, (canonical s).decode_ok hlen, Codec.encode_ok]
  constructor
  · rintro rfl
    exact ⟨hb, rfl⟩
  · exact And.right

/-- Decoding undoes encoding. -/
theorem decode_of_encode {s : ParamShape} {v : s.Value} {b : Bytes} (h : encode v = .ok b) :
    decode s.Value b = .ok v := by
  obtain ⟨hb, hw⟩ := Codec.encode_ok.1 (Except.mapError_ok.1 h)
  exact (decode_ok (hw ▸ hb)).2 h

/-- Whatever is wrong with a blob, the parameters are invalid. -/
theorem code_of_decode {α : Type} [Params α] {b : Bytes} {e : Error} (h : decode α b = .error e) :
    e.code = .mechanismParamInvalid := by
  obtain ⟨f, -, rfl⟩ := Except.mapError_error.1 h
  rfl

/-- A blob that is refused for its form. -/
def Malformed (α : Type) [Params α] (b : Bytes) : Prop :=
  ∃ e, decode α b = .error e ∧ e.code = .mechanismParamInvalid

theorem malformed_of_forall_ne {α : Type} [Params α] {b : Bytes} (h : ∀ v, decode α b ≠ .ok v) :
    Malformed α b := by
  rcases hd : decode α b with e | v
  · exact ⟨e, hd, code_of_decode hd⟩
  · exact absurd hd (h v)

/-- What is not made of the fields of some value is refused, whatever its size. -/
theorem malformed_of_layout {s : ParamShape} {b : Bytes} (h : ∀ v, (s.fields v).flatMap WireField.bytes ≠ b) :
    Malformed s.Value b := by
  apply malformed_of_forall_ne
  intro v hd
  have hw := (canonical s).write_of_decode (Except.mapError_ok.1 hd)
  rw [(canonical s).write_layout] at hw
  exact h v hw

/-- Bytes after an encoding are refused. -/
theorem malformed_append {s : ParamShape} {v : s.Value} {b r : Bytes} (h : encode v = .ok b) (hr : r ≠ []) :
    Malformed s.Value (b ++ r) := by
  obtain ⟨hb, rfl⟩ := Codec.encode_ok.1 (Except.mapError_ok.1 h)
  have hlen : (codec.write v).length < 2 ^ 64 := Nat.lt_of_le_of_lt hb (by decide)
  exact ⟨_, by rw [decode, (canonical s).decode_append hlen hr]; rfl, rfl⟩

/-- An encoding that is cut short is refused. -/
theorem malformed_prefix {s : ParamShape} {v : s.Value} {p r : Bytes} (h : encode v = .ok (p ++ r)) (hr : r ≠ []) :
    Malformed s.Value p := by
  obtain ⟨hb, hw⟩ := Codec.encode_ok.1 (Except.mapError_ok.1 h)
  have hlen : (codec.write v).length < 2 ^ 64 := Nat.lt_of_le_of_lt hb (by decide)
  have hp : p.length < 2 ^ 64 := by
    rw [hw, List.length_append] at hlen
    omega
  apply malformed_of_forall_ne
  intro w hd
  have hpw := ((canonical s).decode_ok hp).1 (Except.mapError_ok.1 hd)
  rw [← hpw] at hw
  exact hr ((canonical s).prefix_free hw.symm hlen)

/-- Encoding succeeds within the size limit and is read back; a blob that is read is the encoding of what
was read, so it is the only one, and every other blob is refused, among them the encodings that are cut
short or go on. The limit is one of encoding: a blob of any size is refused if it is not made of fields. -/
theorem wire_format (s : ParamShape) :
    (∀ v : s.Value,
      ((∃ b, encode v = .ok b) ↔ s.wireSize v ≤ 2 ^ 20) ∧
      ∀ b, encode v = .ok b →
        b = (s.fields v).flatMap WireField.bytes ∧ decode s.Value b = .ok v ∧
        (∀ r, r ≠ [] → Malformed s.Value (b ++ r)) ∧
        ∀ p r, r ≠ [] → p ++ r = b → Malformed s.Value p) ∧
    (∀ b : Bytes, b.length ≤ 2 ^ 20 →
      (∀ v, decode s.Value b = .ok v → encode v = .ok b) ∧
      (∀ v b', b'.length ≤ 2 ^ 20 → decode s.Value b = .ok v → decode s.Value b' = .ok v → b' = b) ∧
      ((¬ ∃ v : s.Value, encode v = .ok b) → Malformed s.Value b)) ∧
    ∀ b : Bytes, (∀ v, (s.fields v).flatMap WireField.bytes ≠ b) → Malformed s.Value b := by
  refine ⟨?_, ?_, fun b => malformed_of_layout⟩
  · intro v
    constructor
    · constructor
      · rintro ⟨b, h⟩
        exact (encode_ok.1 h).1
      · intro h
        exact ⟨_, encode_ok.2 ⟨h, rfl⟩⟩
    · intro b h
      refine ⟨(encode_ok.1 h).2.symm, decode_of_encode h, ?_, ?_⟩
      · intro r hr
        exact malformed_append h hr
      · rintro p r hr rfl
        exact malformed_prefix h hr
  · intro b hb
    refine ⟨fun v h => (decode_ok hb).1 h, ?_, ?_⟩
    · intro v b' hb' h h'
      have he := (decode_ok hb).1 h
      rw [(decode_ok hb').1 h'] at he
      exact Except.ok.inj he
    · intro hn
      apply malformed_of_forall_ne
      intro v h
      exact hn ⟨v, (decode_ok hb).1 h⟩

theorem wire_format_eddsa :
    decode EddsaParams [1, 1, 2, 0, 0, 0, 0, 0, 0, 0, 0xaa, 0xbb] = .ok ⟨true, some [0xaa, 0xbb]⟩ ∧
      Malformed EddsaParams [1, 1, 2, 0, 0, 0, 0, 0, 0, 0, 0xaa, 0xbb, 0] ∧
      Malformed EddsaParams [1, 1, 2, 0, 0, 0, 0, 0, 0, 0, 0xaa] ∧ Malformed EddsaParams [2, 0] := by
  obtain ⟨hv, hb, -⟩ := wire_format .eddsa
  have he : encode (⟨true, some [0xaa, 0xbb]⟩ : ParamShape.eddsa.Value) =
      .ok [1, 1, 2, 0, 0, 0, 0, 0, 0, 0, 0xaa, 0xbb] := rfl
  obtain ⟨-, hd, hlong, hshort⟩ := (hv _).2 _ he
  refine ⟨hd, hlong [0] (by decide), hshort _ [0xbb] (by decide) rfl, (hb [2, 0] (by decide)).2.2 ?_⟩
  -- the first byte of an encoding is a truth value
  rintro ⟨⟨_ | _, c⟩, h⟩
  · obtain ⟨-, h⟩ := encode_ok.1 h
    cases h
  · obtain ⟨-, h⟩ := encode_ok.1 h
    cases h

end Params
end SoftToken
