import SoftToken.Proofs.OaepSteps
import SoftToken.Proofs.RsaKey
import SoftToken.Registry
/-!
# The size limit of RSA encryption

A modulus holds so much data less than the padding takes. The limit that is computed from this is never below zero,
so that with a modulus too short for the padding alone it still lets empty data pass: `Rsa.keepsLimit_iff` says that
encryption keeps to the limit apart from this case, and `Rsa.encrypt_nil_of_short` what happens in it. An encapsulator
meets the case with a template for empty secrets: `Rsa.size_limit_iff`.
-/

namespace SoftToken

/-- The operation fails with an error of this code, before it draws anything. -/
def Draw.RefusedWith {α : Type} (x : Draw α) (code : ReturnCode) : Prop :=
  ∀ t, ∃ e : Error, x.on t = (.error (.error e), t) ∧ e.code = code

namespace Rsa

variable {k : Key} {p : Padding} {data : Bytes}

/-! ## Data within the limit -/

/-- The computed limit is the true one, except for empty data under a modulus too short for the padding. -/
theorem Padding.maxData_lt_iff {length : Nat} (h : length ≠ 0 ∨ p.overhead ≤ k.size) :
    p.maxData k < length ↔ k.size < length + p.overhead := by
  unfold maxData
  omega

theorem drawNonZero_blamesSource (fuel : Nat) : (drawNonZero fuel).BlamesSource := by
  induction fuel with
  | zero => exact .giveUp
  | succ fuel ih =>
    unfold drawNonZero
    refine (Draw.BlamesSource.bytesOrAbort 1).bind fun b => ?_
    split
    · split
      · exact ih
      · exact .pure _
    · exact .giveUp

theorem replaceZeros_blamesSource (b : Bytes) : (replaceZeros b).BlamesSource := by
  induction b with
  | nil => exact .pure _
  | cons x r ih =>
    unfold replaceZeros
    split
    · exact (drawNonZero_blamesSource _).bind fun y => ih.bind fun s => .pure _
    · exact (Draw.BlamesSource.pure x).bind fun y => ih.bind fun s => .pure _

/-- Data that fits with its padding is encrypted without giving up. -/
theorem encrypt_blamesSource (h : data.length + p.overhead ≤ k.size) : (encrypt k p data).BlamesSource := by
  unfold encrypt
  split
  · exact .throw _
  · cases p with
    | pkcs1 =>
      dsimp only
      split
      · exact .throw _
      · refine (Draw.BlamesSource.bytesOrAbort _).bind fun b => ?_
        exact (replaceZeros_blamesSource b).bind fun filling => .pure _
    | oaep o =>
      simp only [Padding.overhead] at h
      have hencoding : (o.drawEncoding k.size data).BlamesSource := by
        rw [Oaep.drawEncoding_of_room (by omega) (by omega)]
        exact (Draw.BlamesSource.bytes _).bind fun seed => .pure _
      exact hencoding.bind fun em => .pure _

/-- Longer data than the computed limit is refused. -/
theorem encrypt_refused (h : p.maxData k < data.length) : (encrypt k p data).RefusedWith .dataLenRange := by
  intro t
  unfold encrypt
  rw [if_pos h]
  exact ⟨_, rfl, rfl⟩

/-! ## Empty data that does not fit -/

/-- The failure is no refusal of a size. -/
def NotOfSize (f : Failure) : Prop :=
  ∀ e : Error, f = .error e → e.code ≠ .dataLenRange ∧ e.code ≠ .keySizeRange

/-- The encryption of empty data that does not fit with its padding. With OAEP and a byte more than two digests, the
one that separates the data stands in the place of the digest's last byte. -/
theorem encrypt_nil_of_short (h : k.size < p.overhead) :
    encrypt k p [] = match p with
      | .pkcs1 => throw (.error Key.primitiveError)
      | .oaep o =>
        if k.size < o.hash.outputLength + 1 then throw (.abort .wordOverflow)
        else if k.size < 2 * o.hash.outputLength + 1 then throw (.abort .outOfRange)
        else do
          let seed ← Draw.bytes o.hash.outputLength
          return Bytes.ofNat k.size (k.encrypt (Bytes.toNat (o.encode k.size [] seed))) := by
  have hpass : ¬ p.maxData k < ([] : Bytes).length := Nat.not_lt_zero _
  unfold encrypt
  rw [if_neg hpass]
  cases p with
  | pkcs1 =>
    have hlt : k.size < ([] : Bytes).length + 11 := by simpa [Padding.overhead] using h
    dsimp only
    rw [if_pos hlt]
  | oaep o =>
    dsimp only
    split
    · next hlt =>
      rw [Oaep.drawEncoding_of_lt hlt]
      rfl
    split
    · next hseed hlt =>
      rw [Oaep.drawEncoding_of_short (Nat.not_lt.1 hseed) hlt]
      rfl
    · next hge =>
      have hpos := o.hash.outputLength_pos
      rw [Oaep.drawEncoding_of_room (Nat.not_lt.1 hge) (by rw [List.length_nil]; omega), bind_assoc]
      rfl

/-- Without random bytes it fails, and not as a refusal of the size. -/
theorem encrypt_nil_blank (h : k.size < p.overhead) {t : RandomSource} (ht : t.answer = RandomSource.blank.answer) :
    ∃ f t', (encrypt k p []).on t = (.error f, t') ∧ NotOfSize f := by
  rw [encrypt_nil_of_short h]
  cases p with
  | pkcs1 => exact ⟨_, _, rfl, fun e he => by cases he; decide⟩
  | oaep o =>
    dsimp only
    split
    · exact ⟨_, _, rfl, nofun⟩
    split
    · exact ⟨_, _, rfl, nofun⟩
    · exact ⟨_, _, Draw.bind_error.2 (.inl (Draw.bytes_blank ht o.hash.outputLength_pos)),
        fun e he => by cases he; decide⟩

/-! ## The limit -/

/-- Encryption keeps to its limit: no step of it goes out of bounds, and data that does not fit with its padding is
refused. -/
structure KeepsLimit (k : Key) (p : Padding) (data : Bytes) : Prop where
  completes : (encrypt k p data).BlamesSource
  refuses : k.size < data.length + p.overhead → (encrypt k p data).RefusedWith .dataLenRange

/-- Encryption keeps to its limit, except for empty data under a modulus too short for the padding. -/
theorem keepsLimit_iff : KeepsLimit k p data ↔ data.length ≠ 0 ∨ p.overhead ≤ k.size := by
  constructor
  · intro h
    rcases data with _ | ⟨x, r⟩
    · refine .inr (Nat.not_lt.1 fun hshort => ?_)
      obtain ⟨f, t', hf, hsize⟩ := encrypt_nil_blank hshort (t := .blank) rfl
      obtain ⟨e, he, hcode⟩ := h.refuses (by rw [List.length_nil, Nat.zero_add]; exact hshort) .blank
      obtain ⟨hfe, -⟩ := Prod.mk.injEq .. ▸ hf.symm.trans he
      exact (hsize e (Except.error.inj hfe)).1 hcode
    · exact .inl (Nat.succ_ne_zero _)
  · intro h
    rcases Nat.lt_or_ge k.size (data.length + p.overhead) with hlt | hge
    · have hrefused := encrypt_refused ((Padding.maxData_lt_iff h).2 hlt)
      refine ⟨fun t t' a ha => ?_, fun _ => hrefused⟩
      obtain ⟨e, he, -⟩ := hrefused t
      cases he.symm.trans ha
    · exact ⟨encrypt_blamesSource hge, fun hlt => absurd hge (Nat.not_le.2 hlt)⟩

end Rsa

/-! ## Secrets of a template -/

namespace Encapsulator

/-- The operation transports secrets by RSA: its public key and its template are loaded. -/
structure Transports (e : Encapsulator) (key : Object) (k : Rsa.Key) (p : Rsa.Padding) (T : SecretTemplate) :
    Prop where
  scheme : e.scheme = .rsa p
  loaded : ∃ v, e.rsaPublic key = .ok v ∧ Rsa.Key.ofPublic v = .ok k
  template : e.template = some T

variable {e : Encapsulator} {key : Object} {k : Rsa.Key} {p : Rsa.Padding} {T : SecretTemplate}

theorem drawSecret_eq (h : e.Transports key k p T) :
    e.drawSecret key = if p.maxData k < T.minimalLength then throw (.error (.bare .keySizeRange)) else do
      let secret ← Draw.bytes T.minimalLength
      return (secret, ← Rsa.encrypt k p secret) := by
  obtain ⟨v, hv, hk⟩ := h.loaded
  have ht : e.requireTemplate = .ok T := by
    unfold requireTemplate
    rw [h.template]
    rfl
  have hone {α β : Type} (a : α) (f : α → Draw β) : ((liftM (.ok a : Except Error α) : Draw α) >>= f) = f a := rfl
  unfold drawSecret encapsulateRsa
  simp only [h.scheme, hv, hk, ht, hone]

/-- Templates whose shortest secret exceeds the computed limit are refused. -/
theorem encapsulate_refused (h : e.Transports key k p T) (hmax : p.maxData k < T.minimalLength) :
    (e.encapsulate key).RefusedWith .keySizeRange := by
  intro t
  have hdraw : (e.drawSecret key).on t = (.error (.error (.bare .keySizeRange)), t) := by
    rw [drawSecret_eq h, if_pos hmax]
    rfl
  exact ⟨_, Draw.bind_error.2 (.inl hdraw), rfl⟩

/-- An empty secret goes to the encryption, whatever the size of the modulus. -/
theorem encapsulate_of_empty (h : e.Transports key k p T) (hempty : T.minimalLength = 0) {f : Failure}
    {t : RandomSource} (hf : (Rsa.encrypt k p []).on (RandomSource.blank.asked 0) = (.error f, t)) :
    (e.encapsulate key).on .blank = (.error f, t) := by
  have hsecret : (Draw.bytes 0).on .blank = (.ok [], RandomSource.blank.asked 0) := rfl
  have hdraw : (e.drawSecret key).on .blank = (.error f, t) := by
    rw [drawSecret_eq h, hempty, if_neg (Nat.not_lt_zero _)]
    exact Draw.bind_error.2 (.inr ⟨[], _, hsecret, Draw.bind_error.2 (.inl hf)⟩)
  exact Draw.bind_error.2 (.inl hdraw)

/-- An encapsulator refuses the templates whose shortest secret does not fit with its padding. -/
def RefusesLong (e : Encapsulator) (key : Object) (k : Rsa.Key) (p : Rsa.Padding) (T : SecretTemplate) : Prop :=
  k.size < T.minimalLength + p.overhead → (e.encapsulate key).RefusedWith .keySizeRange

theorem refusesLong_iff (h : e.Transports key k p T) :
    e.RefusesLong key k p T ↔ T.minimalLength ≠ 0 ∨ p.overhead ≤ k.size := by
  constructor
  · intro hlaw
    rcases Nat.eq_zero_or_pos T.minimalLength with hempty | hpos
    · refine .inr (Nat.not_lt.1 fun hshort => ?_)
      obtain ⟨f, t', hf, hsize⟩ := Rsa.encrypt_nil_blank hshort (t := RandomSource.blank.asked 0) rfl
      replace hf := encapsulate_of_empty h hempty hf
      obtain ⟨e', he, hcode⟩ := hlaw (by rw [hempty, Nat.zero_add]; exact hshort) .blank
      obtain ⟨hfe, -⟩ := Prod.mk.injEq .. ▸ hf.symm.trans he
      exact (hsize e' (Except.error.inj hfe)).2 hcode
    · exact .inl (Nat.pos_iff_ne_zero.1 hpos)
  · intro hcond hlt
    exact encapsulate_refused h ((Rsa.Padding.maxData_lt_iff hcond).2 hlt)

end Encapsulator

namespace Rsa

/-- Encryption and encapsulation keep to the size limit with one exception: empty data, or a template for empty
secrets, under a modulus too short for the padding alone. -/
theorem size_limit_iff (k : Key) (p : Padding) :
    (∀ data, KeepsLimit k p data ↔ data.length ≠ 0 ∨ p.overhead ≤ k.size) ∧
      ∀ (e : Encapsulator) (key : Object) (T : SecretTemplate), e.Transports key k p T →
        (e.RefusesLong key k p T ↔ T.minimalLength ≠ 0 ∨ p.overhead ≤ k.size) := by
  constructor
  · intro data
    exact keepsLimit_iff
  · intro e key T h
    exact Encapsulator.refusesLong_iff h

/-- A modulus of 1024 bits. -/
def wideModulus : RsaPublicKey := ⟨List.replicate 128 0xff, [0x01, 0x00, 0x01]⟩

def wideObject : Object := wideModulus.toObject.put (.ofBool .encapsulate true)

/-- OAEP with SHA-512, which takes 130 bytes. -/
def wideOaep : Oaep := ⟨.sha512, .sha512, []⟩

/-- The wire form of its parameters. -/
def wideParams : Bytes := (Params.encode (⟨.sha512, 0x04, 1, none⟩ : OaepParams)).toOption.getD []

/-- The encapsulator for secrets of a length. -/
def wideEncapsulator (length : Nat) : Encapsulator :=
  ⟨.rsaPkcsOaep, .rsa (.oaep wideOaep), some ⟨.genericSecret, some length, []⟩⟩

theorem wide_transports (length : Nat) : (wideEncapsulator length).Transports wideObject (Key.ones 1024)
    (.oaep wideOaep) ⟨.genericSecret, some length, []⟩ := by
  have hv : ((wideEncapsulator length).rsaPublic wideObject).toOption = some wideModulus := by rfl
  have hk : (Key.ofPublic wideModulus).toOption = some (Key.ones 1024) := by decide +kernel
  exact ⟨rfl, ⟨wideModulus, Except.ok_of_toOption hv, Except.ok_of_toOption hk⟩, rfl⟩

/-- The modulus is too short for the padding: secrets of a byte are refused, and so is data of a byte. -/
theorem size_limit_iff_wide :
    (wideEncapsulator 1).Transports wideObject (Key.ones 1024) (.oaep wideOaep) ⟨.genericSecret, some 1, []⟩ ∧
      ((wideEncapsulator 1).encapsulate wideObject).RefusedWith .keySizeRange ∧
      (encrypt (Key.ones 1024) (.oaep wideOaep) [0]).RefusedWith .dataLenRange := by
  have hsize : (Key.ones 1024).size = 128 := by decide +kernel
  have hover : (Padding.oaep wideOaep).overhead = 130 := rfl
  refine ⟨wide_transports 1, ?_, ?_⟩
  · exact ((size_limit_iff (Key.ones 1024) (.oaep wideOaep)).2 _ _ _ (wide_transports 1)).2 (.inl (by decide))
      (by rw [hsize, hover]; decide)
  · exact (((size_limit_iff (Key.ones 1024) (.oaep wideOaep)).1 [0]).2 (.inl (by decide))).refuses
      (by rw [hsize, hover]; decide)

/-- An empty secret has no place in the modulus either. It is not refused: the encoder gives up. -/
theorem empty_secret_gives_up :
    Registry.full.encapsulator ⟨.rsaPkcsOaep, wideParams⟩ wideObject = .ok { wideEncapsulator 0 with template := none } ∧
      Encapsulator.init { wideEncapsulator 0 with template := none } [.ofNumber .valueLen 0] =
        .ok (wideEncapsulator 0) ∧
      (wideEncapsulator 0).Transports wideObject (Key.ones 1024) (.oaep wideOaep) ⟨.genericSecret, some 0, []⟩ ∧
      (Key.ones 1024).size < 0 + (Padding.oaep wideOaep).overhead ∧
      ((wideEncapsulator 0).encapsulate wideObject).on .blank =
        (.error (.abort .outOfRange), RandomSource.blank.asked 0) ∧
      (encrypt (Key.ones 1024) (.oaep wideOaep) []).on .blank = (.error (.abort .outOfRange), .blank) := by
  have hcreate : (Registry.full.encapsulator ⟨.rsaPkcsOaep, wideParams⟩ wideObject).toOption =
      some { wideEncapsulator 0 with template := none } := by decide +kernel
  have hsize : (Key.ones 1024).size = 128 := by decide +kernel
  have hshort : (Key.ones 1024).size < (Padding.oaep wideOaep).overhead := by rw [hsize]; decide
  have hencrypt (t : RandomSource) :
      (encrypt (Key.ones 1024) (.oaep wideOaep) []).on t = (.error (.abort .outOfRange), t) := by
    have hdigest : wideOaep.hash.outputLength = 64 := rfl
    rw [encrypt_nil_of_short hshort]
    dsimp only
    rw [if_neg (by omega), if_pos (by omega)]
    rfl
  exact ⟨Except.ok_of_toOption hcreate, rfl, wide_transports 0, by rw [Nat.zero_add]; exact hshort,
    Encapsulator.encapsulate_of_empty (wide_transports 0) rfl (hencrypt _), hencrypt _⟩

end Rsa
end SoftToken
