import SoftToken.Proofs.WireFormat
/-!
# Parameter blobs over the size limit

A parameter blob is never written with more bytes than the limit, but one with more is read. The structures made of
numbers alone are too short for it to matter. The others have room for data of any length, and their blobs over the
limit are read to values that cannot be written (`ParamShape.keepsSizeLimit_iff`).
-/

namespace SoftToken

namespace ParamShape

/-- The structures that are made of numbers alone. -/
def isFixed : ParamShape → Bool
  | mac | pss | handle | extract => true
  | _ => false

/-- The bytes are the fields of a value. -/
def Lays (s : ParamShape) (v : s.Value) (b : Bytes) : Prop := (s.fields v).flatMap WireField.bytes = b

/-- The blob is refused as invalid parameters, whether or not they may be left out. -/
def Refuses (s : ParamShape) (b : Bytes) : Prop :=
  Params.Malformed s.Value b ∧
    ∃ e, Params.decodeOptional s.Value b = .error e ∧ e.code = .mechanismParamInvalid

/-- The blob is refused if it is over the limit, and what is read from it can be written again. -/
def KeepsSizeLimit (s : ParamShape) (b : Bytes) : Prop :=
  (Codec.sizeLimit < b.length → s.Refuses b) ∧
    ∀ v, Params.decode s.Value b = .ok v → ∃ b', Params.encode v = .ok b'

/-! ## Sizes -/

theorem length_of_lays {s : ParamShape} {v : s.Value} {b : Bytes} (h : s.Lays v b) : b.length = s.wireSize v := by
  rw [← h]
  exact WireField.length_flatMap _

/-- Numbers alone take up few bytes. -/
theorem wireSize_le {s : ParamShape} (h : s.isFixed = true) (v : s.Value) : s.wireSize v ≤ Codec.sizeLimit := by
  have hsmall : s.wireSize v ≤ 24 := by
    cases s with
    | mac | handle | extract =>
      show 8 ≤ 24
      decide
    | pss => exact Nat.le_refl 24
    | _ => cases h
  exact Nat.le_trans hsmall (by decide)

/-- The other structures have room for data of any length. -/
def holding (data : Bytes) : (s : ParamShape) → s.isFixed = false → s.Value
  | oaep, _ => (⟨⟨0⟩, 0, 0, some data⟩ : OaepParams)
  | agreement, _ => (⟨0, none, some data⟩ : AgreementParams)
  | hkdf, _ => (⟨false, false, ⟨0⟩, 0, none, 0, some data⟩ : HkdfParams)
  | signContext, _ => (⟨0, some data⟩ : SignContext)
  | hashSignContext, _ => (⟨0, some data, ⟨0⟩⟩ : HashSignContext)
  | eddsa, _ => (⟨false, some data⟩ : EddsaParams)
  | stringData, _ => (⟨data⟩ : StringData)
  | cbcData, _ => (⟨[], data⟩ : CbcData)

theorem wireSize_holding {s : ParamShape} (h : s.isFixed = false) (data : Bytes) :
    data.length < s.wireSize (s.holding data h) ∧ s.wireSize (s.holding data h) ≤ data.length + 40 := by
  cases s with
  | mac | pss | handle | extract => cases h
  | _ =>
    simp only [wireSize, holding, fields, WireField.totalSize, WireField.size, List.foldr, List.length_nil]
    omega

/-! ## Reading and writing -/

variable {s : ParamShape} {b : Bytes} {v : s.Value}

theorem lays_of_decode (h : Params.decode s.Value b = .ok v) : s.Lays v b := by
  have hw := (Params.canonical s).write_of_decode (Except.mapError_ok.1 h)
  rwa [(Params.canonical s).write_layout] at hw

/-- A blob that is laid out as a value is read to it, whatever its size. -/
theorem decode_of_lays (h : s.Lays v b) (hlen : b.length < 2 ^ 64) : Params.decode s.Value b = .ok v := by
  refine Except.mapError_ok.2 (((Params.canonical s).decode_ok hlen).2 ?_)
  rw [(Params.canonical s).write_layout]
  exact h

/-- What is read can be written again if and only if the blob is within the limit. -/
theorem encode_of_lays (h : s.Lays v b) : (∃ b', Params.encode v = .ok b') ↔ b.length ≤ Codec.sizeLimit := by
  rw [length_of_lays h]
  constructor
  · rintro ⟨b', hb'⟩
    exact (Params.encode_ok.1 hb').1
  · intro hle
    exact ⟨_, Params.encode_ok.2 ⟨hle, rfl⟩⟩

theorem encode_refused (h : s.Lays v b) (hlarge : Codec.sizeLimit < b.length) :
    Params.encode v = .error (Params.fault .sizeLimit) := by
  have hwrite : (Params.codec.write v).length = b.length := by
    rw [(Params.canonical s).write_layout]
    exact congrArg List.length h
  have hcodec : Params.codec.encode v = .error .sizeLimit := by
    unfold Codec.encode
    dsimp only
    rw [if_neg (by omega)]
  unfold Params.encode
  rw [hcodec]
  rfl

/-- A blob that is read is read where the parameters may be left out, too. -/
theorem decodeOptional_of_lays (h : s.Lays v b) (hlen : b.length < 2 ^ 64) (hne : b ≠ []) :
    Params.decodeOptional s.Value b = .ok (some v) := by
  unfold Params.decodeOptional
  rw [List.isEmpty_eq_false_iff.2 hne, decode_of_lays h hlen]
  rfl

/-- A blob that is no layout of a value is refused, whatever its size. -/
theorem refuses_of_forall (hne : b ≠ []) (h : ∀ v, ¬ s.Lays v b) : s.Refuses b := by
  obtain ⟨e, he, hcode⟩ := Params.malformed_of_layout h
  refine ⟨⟨e, he, hcode⟩, e, ?_, hcode⟩
  unfold Params.decodeOptional
  rw [List.isEmpty_eq_false_iff.2 hne, he]
  rfl

theorem ne_nil_of_large (h : Codec.sizeLimit < b.length) : b ≠ [] :=
  List.ne_nil_of_length_pos (Nat.zero_lt_of_lt h)

/-! ## The limit -/

/-- The limit is kept where no value is laid out over it. -/
theorem keepsSizeLimit_of_forall (h : Codec.sizeLimit < b.length → ∀ v, ¬ s.Lays v b) : s.KeepsSizeLimit b := by
  refine ⟨fun hlarge => refuses_of_forall (ne_nil_of_large hlarge) (h hlarge), fun v hv => ?_⟩
  have hlays := lays_of_decode hv
  exact (encode_of_lays hlays).2 (Nat.le_of_not_lt fun hlarge => h hlarge v hlays)

/-- A blob keeps the limit unless it is over it and yet the layout of a value. -/
theorem keeps_iff_lays (hlen : b.length < 2 ^ 64) :
    s.KeepsSizeLimit b ↔ b.length ≤ Codec.sizeLimit ∨ ∀ v, ¬ s.Lays v b := by
  constructor
  · rintro ⟨-, hwritten⟩
    by_cases hlaid : ∃ v, s.Lays v b
    · obtain ⟨v, hv⟩ := hlaid
      exact .inl ((encode_of_lays hv).1 (hwritten v (decode_of_lays hv hlen)))
    · exact .inr (not_exists.1 hlaid)
  · rintro (hle | hnone)
    · exact keepsSizeLimit_of_forall fun hlarge => absurd hle (Nat.not_le.2 hlarge)
    · exact keepsSizeLimit_of_forall fun _ => hnone

/-- Data as long as the limit does not fit, since a field has a header. -/
theorem exists_large (h : s.isFixed = false) :
    ∃ v b, s.Lays v b ∧ Codec.sizeLimit < b.length ∧ b.length < 2 ^ 64 := by
  obtain ⟨hlow, hhigh⟩ := wireSize_holding h (Bytes.zeros Codec.sizeLimit)
  have hlays : s.Lays (s.holding (Bytes.zeros Codec.sizeLimit) h) _ := rfl
  rw [← length_of_lays hlays, Bytes.length_zeros] at hlow hhigh
  exact ⟨_, _, hlays, hlow, Nat.lt_of_le_of_lt hhigh (by decide)⟩

/-- Every blob keeps the limit exactly where the structure is made of numbers alone. -/
theorem forall_keeps_iff (s : ParamShape) : (∀ b, s.KeepsSizeLimit b) ↔ s.isFixed = true := by
  constructor
  · intro hall
    refine Decidable.byContradiction fun hnot => ?_
    obtain ⟨v, b, hlays, hlarge, hlen⟩ := exists_large (Bool.eq_false_iff.2 hnot)
    rcases (keeps_iff_lays hlen).1 (hall b) with hle | hnone
    · exact absurd hle (Nat.not_le.2 hlarge)
    · exact hnone v hlays
  · intro hfixed b
    refine keepsSizeLimit_of_forall fun hlarge v hv => ?_
    rw [length_of_lays hv] at hlarge
    exact absurd (wireSize_le hfixed v) (Nat.not_le.2 hlarge)

/-- The structures made of numbers alone keep the limit, and only these do. Of the others, a blob keeps it unless it is
over the limit and the layout of a value: such a blob is read as any other, to a value that is refused for its size
when it is written. -/
theorem keepsSizeLimit_iff (s : ParamShape) :
    ((∀ b, s.KeepsSizeLimit b) ↔ s.isFixed = true) ∧
      ∀ b : Bytes, b.length < 2 ^ 64 →
        (s.KeepsSizeLimit b ↔ b.length ≤ Codec.sizeLimit ∨ ∀ v, ¬ s.Lays v b) ∧
        ∀ v, s.Lays v b → Codec.sizeLimit < b.length →
          Params.decode s.Value b = .ok v ∧ Params.decodeOptional s.Value b = .ok (some v) ∧
            Params.encode v = .error (Params.fault .sizeLimit) := by
  refine ⟨forall_keeps_iff s, fun b hlen => ⟨keeps_iff_lays hlen, fun v hv hlarge => ?_⟩⟩
  have hread := decodeOptional_of_lays hv hlen (ne_nil_of_large hlarge)
  exact ⟨decode_of_lays hv hlen, hread, encode_refused hv hlarge⟩

/-- A string that goes over the limit with its length is read, and cannot be written. -/
theorem read_of_large {data : Bytes} (hlarge : Codec.sizeLimit < 8 + data.length) (hlen : 8 + data.length < 2 ^ 64) :
    Params.decode StringData (WireField.text data).bytes = .ok ⟨data⟩ ∧
      Params.encode (⟨data⟩ : StringData) = .error (Params.fault .sizeLimit) := by
  have hlays : stringData.Lays (⟨data⟩ : StringData) (WireField.text data).bytes := List.append_nil _
  have hlength : (WireField.text data).bytes.length = 8 + data.length := WireField.length_bytes _
  rw [← hlength] at hlarge hlen
  have hread := decode_of_lays hlays hlen
  have hrefused := encode_refused hlays hlarge
  exact ⟨hread, hrefused⟩

theorem reads_large_string : ∃ b : Bytes, Codec.sizeLimit < b.length ∧
    Params.decode StringData b = .ok ⟨Bytes.zeros (2 ^ 20)⟩ ∧
    Params.encode (⟨Bytes.zeros (2 ^ 20)⟩ : StringData) = .error (Params.fault .sizeLimit) := by
  have hlarge : Codec.sizeLimit < 8 + (Bytes.zeros (2 ^ 20)).length := by
    rw [Bytes.length_zeros]
    decide
  have hlen : 8 + (Bytes.zeros (2 ^ 20)).length < 2 ^ 64 := by
    rw [Bytes.length_zeros]
    decide
  refine ⟨(WireField.text (Bytes.zeros (2 ^ 20))).bytes, ?_, read_of_large hlarge hlen⟩
  rw [WireField.length_bytes, WireField.size]
  exact hlarge

end ParamShape
end SoftToken
