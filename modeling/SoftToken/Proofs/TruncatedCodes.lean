import SoftToken.Proofs.PrehashForms
import SoftToken.Proofs.SignatureLength
/-!
# Truncated codes

HMAC and CMAC have a mechanism for the full code, and most a second one that takes a length. The second cuts the
codes of the first (`Registry.truncated_codes`). The key is bound before the length is looked at, so which keys are
accepted and which codes they give do not depend on it (`CodeScheme.bindTowards_eq`).
-/

namespace SoftToken

/-- A code over a digest or a block cipher, before its length is chosen. -/
inductive CodeScheme where
  | hmac (digest : Digest) (keyTypes : List KeyType)
  | cmac (cipher : BlockCipher)

namespace CodeScheme

open SignatureScheme

/-- The scheme of the codes with a requested length. -/
def scheme : CodeScheme → Option Nat → SignatureScheme
  | hmac digest types, length => .hmac digest types length
  | cmac cipher, length => .cmac cipher length

/-- The length of the full code: that of the digest, or of a block. -/
def fullLength : CodeScheme → Nat
  | hmac digest _ => digest.outputLength
  | cmac _ => BlockCipher.blockSize

/-- The code of a key that allows a usage. -/
def keyed (c : CodeScheme) (id : MechanismId) (key : Object) (usage : AttributeId) : Except Error Mac :=
  match c with
  | hmac digest types => do return .hmac digest (← bindSecret id key usage "HMAC secret key" types)
  | cmac cipher => do Mac.newCmac cipher (← bindSecret id key usage (cipherKeyName cipher) [cipher.keyType])

end CodeScheme

/-- A mechanism that takes a length, the one for the full code, and the codes that both are about. -/
inductive GeneralForm : MechanismId → MechanismId → CodeScheme → Prop
  | hmac {row : HmacRow} {general : MechanismId} (hrow : row ∈ HmacRow.rows) (h : row.general = some general) :
    GeneralForm general row.plain (.hmac row.digest row.keyTypes)
  | cmac {general plain : MechanismId} {cipher : BlockCipher}
    (h : (general, cipher, true) ∈ SignatureMethod.cmacMechanisms)
    (h' : (plain, cipher, false) ∈ SignatureMethod.cmacMechanisms) : GeneralForm general plain (.cmac cipher)

/-- A key is accepted in a direction if the mechanism opens a signer with it for some parameters. -/
def Registry.Accepts (r : Registry) (preference : HedgePreference) (id : MechanismId) (key : Object)
    (d : Direction) : Prop :=
  ∃ params s, r.openSigner preference ⟨id, params⟩ key d = .ok s

/-- The answers to the pieces of a message, none of which is refused. -/
def Signer.taken (pieces : List Bytes) : List (Call × Except Failure Answer) :=
  pieces.map fun piece => (.update piece, .ok .updated)

/-- For a message in any pieces the signer makes the code that `tag` gives, or tells it from every other string of
its length and refuses the strings of another length. -/
def Signer.Codes (s : Signer) (d : Direction) (length : Nat) (tag : Bytes → Bytes) : Prop :=
  match d with
  | .signing => ∀ pieces t, s.answers (pieces.map .update ++ [.generate]) t =
      taken pieces ++ [(.generate, .ok (.signature (tag pieces.flatten)))]
  | .verifying => ∀ pieces sig t, s.answers (pieces.map .update ++ [.verify sig]) t =
      taken pieces ++ [(.verify sig,
        if sig.length = length then .ok (.verdict (decide (sig = tag pieces.flatten))) else wrongLength)]

/-! ## Signers -/

namespace Signer

variable {s : Signer} {mac : Mac} {length : Nat} {t : RandomSource}

/-- An open code compares a string of its length with the code of the message. -/
theorem answer_verify_mac (hc : s.core = .mac mac length) (h : s.ended = false) (sig : Bytes) :
    ((s.answer (.verify sig)).on t).1 =
      if sig.length = length then .ok (.verdict (decide (sig = code mac length s.message))) else wrongLength := by
  split
  · next hlen =>
    have hv : s.verify sig = .ok (code mac length s.message == sig) := by
      unfold verify
      simp only [hc, if_neg (not_not.2 hlen), requireOpen_open h]
      rfl
    have hcomm : (code mac length s.message == sig) = decide (sig = code mac length s.message) :=
      BEq.comm.trans (beq_eq_decide ..)
    unfold answer
    simp only
    rw [hv, hcomm]
    rfl
  · next hlen =>
    have hr : s.refuses (.verify sig) = true := by simpa [refuses, refusesLength, hc] using hlen
    rw [answer_refused hr]

/-- A new signer of a code cuts it to its length. -/
theorem codes_of_core (hc : s.core = .mac mac length) (h : s.ended = false) (hm : s.message = []) (d : Direction) :
    s.Codes d length fun message => (mac.tag message).take length := by
  have hc' (message : Bytes) : (s.withMessage message).core = .mac mac length := hc
  have h' (message : Bytes) : (s.withMessage message).ended = false := h
  cases d with
  | signing =>
    intro pieces t
    rw [answers_updates h, answers, answer_generate_mac (hc' _) (h' _), hm]
    rfl
  | verifying =>
    intro pieces sig t
    rw [answers_updates h, answers, answer_verify_mac (hc' _) (h' _), hm]
    rfl

end Signer

/-! ## Binding -/

namespace SignatureScheme

variable {id id' : MechanismId} {key : Object}

theorem secret_of_bindSecret {usage : AttributeId} {expected : String} {types : List KeyType} {b : Bytes}
    (h : bindSecret id key usage expected types = .ok b) :
    ∃ view, SecretKey.ofObjectOfTypes key types = .ok view ∧ view.value = b := by
  obtain ⟨_, -, h⟩ := Except.bind_ok.1 h
  obtain ⟨view, hview, h⟩ := Except.bind_ok.1 h
  cases h
  exact ⟨view, hview, rfl⟩

/-- The secret that is bound is the value of the key, whatever mechanism and usage it is bound for. -/
theorem bindSecret_unique {usage usage' : AttributeId} {expected : String} {types : List KeyType} {b b' : Bytes}
    (h : bindSecret id key usage expected types = .ok b) (h' : bindSecret id' key usage' expected types = .ok b') :
    b = b' := by
  obtain ⟨view, hview, rfl⟩ := secret_of_bindSecret h
  obtain ⟨view', hview', rfl⟩ := secret_of_bindSecret h'
  rw [hview] at hview'
  cases hview'
  rfl

end SignatureScheme

namespace CodeScheme

open SignatureScheme

variable {c : CodeScheme} {id id' : MechanismId} {key : Object} {d d' : Direction} {mac mac' : Mac}

/-- The key is bound first, then the requested length is compared with that of the code. -/
theorem bindTowards_eq (c : CodeScheme) (id : MechanismId) (length : Option Nat) (key : Object) (d : Direction) :
    SignatureMethod.bindTowards ⟨id, c.scheme length⟩ key d =
      c.keyed id key d.usage >>= fun mac => Signer.ofMac id mac length := by
  have hcode : SignatureMethod.bindCode? ⟨id, c.scheme length⟩ key d.usage =
      some (c.keyed id key d.usage >>= fun mac => Signer.ofMac id mac length) := by
    cases c with
    | hmac digest types => simp only [scheme, SignatureMethod.bindCode?, keyed, bind_assoc, pure_bind]
    | cmac cipher => simp only [scheme, SignatureMethod.bindCode?, keyed, bind_assoc]
  cases d with
  | signing =>
    have hsign : SignatureMethod.bindSigning ⟨id, c.scheme length⟩ key =
        (c.keyed id key AttributeId.sign >>= fun mac => Signer.ofMac id mac length) >>= fun s => pure ⟨s, false⟩ := by
      unfold SignatureMethod.bindSigning
      rw [show AttributeId.sign = Direction.signing.usage from rfl, hcode]
    show SignatureMethod.bindSigning _ key >>= _ = _
    rw [hsign, bind_assoc]
    simp only [pure_bind, bind_pure]
    rfl
  | verifying =>
    show SignatureMethod.bindVerifying _ key = _
    unfold SignatureMethod.bindVerifying
    rw [show AttributeId.verify = Direction.verifying.usage from rfl, hcode]

theorem keyed_unique {usage usage' : AttributeId} (h : c.keyed id key usage = .ok mac)
    (h' : c.keyed id' key usage' = .ok mac') : mac = mac' := by
  cases c with
  | hmac _ _ | cmac _ =>
    obtain ⟨b, hb, h⟩ := Except.bind_ok.1 h
    obtain ⟨b', hb', h'⟩ := Except.bind_ok.1 h'
    rw [bindSecret_unique hb hb'] at h
    exact Except.ok.inj (h.symm.trans h')

/-- A key that one mechanism takes for a usage is taken by every other for it. -/
theorem keyed_of_keyed {usage : AttributeId} (h : c.keyed id key usage = .ok mac) :
    c.keyed id' key usage = .ok mac := by
  have halike : Except.Alike (· = ·) (c.keyed id key usage) (c.keyed id' key usage) := by
    cases c with
    | hmac digest types =>
      refine .bind (SignatureMethod.alike_bindSecret usage _ _) ?_
      rintro b _ rfl
      exact .ok rfl
    | cmac cipher =>
      refine .bind (SignatureMethod.alike_bindSecret usage _ _) ?_
      rintro b _ rfl
      exact .refl fun _ _ => rfl
  obtain ⟨mac', h', rfl⟩ := halike.exists_ok h
  exact h'

/-- The code under a key has the full length. -/
theorem length_of_keyed {usage : AttributeId} (h : c.keyed id key usage = .ok mac) :
    mac.Keyed ∧ mac.length = c.fullLength := by
  cases c with
  | hmac digest types =>
    obtain ⟨b, -, h⟩ := Except.bind_ok.1 h
    cases h
    exact ⟨trivial, rfl⟩
  | cmac cipher =>
    obtain ⟨b, -, h⟩ := Except.bind_ok.1 h
    refine ⟨Mac.keyed_newCmac h, ?_⟩
    unfold Mac.newCmac at h
    split at h
    · cases h; rfl
    · cases h

end CodeScheme

/-! ## The two mechanisms -/

namespace GeneralForm

open SignatureMethod

variable {general plain : MechanismId} {c : CodeScheme} {r : Registry} {preference : HedgePreference}

/-- The rows of HMAC mechanisms share no mechanism. -/
theorem ofHmac_eq {row : HmacRow} (hrow : row ∈ HmacRow.rows) {id : MechanismId} (h : id ∈ row.mechanisms)
    (params : Bytes) : ofHmac ⟨id, params⟩ =
      requestedLength ⟨id, params⟩ (row.general == some id) >>= fun length =>
        pure ⟨id, .hmac row.digest row.keyTypes length⟩ := by
  have hrows : ∀ row ∈ HmacRow.rows, ∀ id ∈ row.mechanisms,
      (HmacRow.rows.find? fun r => r.mechanisms.contains id) = some row := by decide +kernel
  unfold ofHmac
  simp only
  rw [hrows row hrow id h]

theorem ofCmac_eq {id : MechanismId} {cipher : BlockCipher} {b : Bool} (h : (id, cipher, b) ∈ cmacMechanisms)
    (params : Bytes) : ofCmac ⟨id, params⟩ =
      requestedLength ⟨id, params⟩ b >>= fun length => pure ⟨id, .cmac cipher length⟩ := by
  have hrows : ∀ row ∈ cmacMechanisms, cmacMechanisms.lookup row.1 = some row.2 := by decide
  unfold ofCmac
  simp only
  rw [hrows _ h]

/-- The mechanism that takes a length reads it from its parameters. -/
theorem signatureMethod_general (h : GeneralForm general plain c) (hr : r.Faithful) (hg : general ∈ r.toList)
    (params : Bytes) : r.signatureMethod preference ⟨general, params⟩ =
      Params.decode MacParams params >>= fun p => pure ⟨general, c.scheme (some p.length.toNat)⟩ := by
  cases h with
  | hmac hrow hgeneral =>
    have hid : general ∈ HmacRow.mechanisms _ := List.mem_cons_of_mem _ (Option.mem_toList.2 hgeneral)
    rw [hr.signatureMethod_eq hg (f := .hmac) (List.mem_flatMap.2 ⟨_, hrow, hid⟩) rfl]
    show ofHmac _ = _
    rw [ofHmac_eq hrow hid, hgeneral, beq_self_eq_true]
    simp only [requestedLength, if_true, bind_assoc, pure_bind]
    rfl
  | cmac hgeneral hplain =>
    rw [hr.signatureMethod_eq hg (f := .cmac) (List.mem_map_of_mem hgeneral) rfl]
    show ofCmac _ = _
    rw [ofCmac_eq hgeneral]
    simp only [requestedLength, if_true, bind_assoc, pure_bind]
    rfl

/-- The mechanism for the full code takes no parameters. -/
theorem signatureMethod_plain (h : GeneralForm general plain c) (hr : r.Faithful) (hp : plain ∈ r.toList) :
    r.signatureMethod preference ⟨plain, []⟩ = .ok ⟨plain, c.scheme none⟩ := by
  cases h with
  | hmac hrow hgeneral =>
    have hrows : ∀ row ∈ HmacRow.rows, (row.general == some row.plain) = false := by decide +kernel
    rw [hr.signatureMethod_eq hp (f := .hmac) (List.mem_flatMap.2 ⟨_, hrow, List.mem_cons_self⟩) rfl]
    show ofHmac _ = _
    rw [ofHmac_eq hrow List.mem_cons_self, hrows _ hrow]
    rfl
  | cmac hgeneral hplain =>
    rw [hr.signatureMethod_eq hp (f := .cmac) (List.mem_map_of_mem hplain) rfl]
    show ofCmac _ = _
    rw [ofCmac_eq hplain]
    rfl

end GeneralForm

/-! ## Truncation -/

namespace Registry

variable {r r' : Registry} {preference : HedgePreference} {general plain : MechanismId} {c : CodeScheme}
  {key : Object} {d : Direction}

/-- A key is accepted by the mechanism that takes a length if its code is made. -/
theorem keyed_of_accepts (h : GeneralForm general plain c) (hr : r.Faithful) (hg : general ∈ r.toList)
    (ha : r.Accepts preference general key d) : ∃ mac, c.keyed general key d.usage = .ok mac := by
  obtain ⟨params, s, hs⟩ := ha
  unfold openSigner at hs
  rw [h.signatureMethod_general hr hg, bind_assoc] at hs
  obtain ⟨p, -, hs⟩ := Except.bind_ok.1 hs
  rw [pure_bind, CodeScheme.bindTowards_eq] at hs
  obtain ⟨mac, hmac, -⟩ := Except.bind_ok.1 hs
  exact ⟨mac, hmac⟩

/-- A key that is accepted opens a signer of the full code. -/
theorem open_plain (preference : HedgePreference) (h : GeneralForm general plain c) (hr : r'.Faithful)
    (hp : plain ∈ r'.toList) {mac : Mac} (hmac : c.keyed general key d.usage = .ok mac) :
    ∃ s, r'.openSigner preference ⟨plain, []⟩ key d = .ok s ∧ s.Codes d c.fullLength mac.tag := by
  obtain ⟨hkeyed, hlength⟩ := CodeScheme.length_of_keyed hmac
  have hfull : mac.tag = fun message => (mac.tag message).take mac.length := by
    funext message
    exact (List.take_of_length_le (Mac.length_tag hkeyed message).le).symm
  have hopen : r'.openSigner preference ⟨plain, []⟩ key d = Signer.ofMac plain mac none := by
    unfold openSigner
    rw [h.signatureMethod_plain hr hp, Except.ok_bind, CodeScheme.bindTowards_eq, CodeScheme.keyed_of_keyed hmac]
    rfl
  refine ⟨{ mechanism := plain, core := .mac mac mac.length }, hopen.trans (if_neg (Nat.lt_irrefl _)), ?_⟩
  rw [← hlength, hfull]
  exact Signer.codes_of_core rfl rfl rfl d

/-- With a requested length, the code is cut to it, or refused as too long. -/
theorem open_general (preference : HedgePreference) (h : GeneralForm general plain c) (hr : r.Faithful)
    (hg : general ∈ r.toList) {mac : Mac} (hmac : c.keyed general key d.usage = .ok mac) {params : Bytes} {len : UInt64}
    (hparams : Params.decode MacParams params = .ok ⟨len⟩) :
    if len.toNat ≤ c.fullLength then
      ∃ s, r.openSigner preference ⟨general, params⟩ key d = .ok s ∧
        s.Codes d len.toNat fun message => (mac.tag message).take len.toNat
    else
      ∃ method e, r.signatureMethod preference ⟨general, params⟩ = .ok method ∧
        method.bindTowards key d = .error e ∧ e.code = .mechanismParamInvalid := by
  obtain ⟨-, hlength⟩ := CodeScheme.length_of_keyed hmac
  have hmethod : r.signatureMethod preference ⟨general, params⟩ = .ok ⟨general, c.scheme (some len.toNat)⟩ := by
    rw [h.signatureMethod_general hr hg, hparams]
    rfl
  have hbind : SignatureMethod.bindTowards ⟨general, c.scheme (some len.toNat)⟩ key d =
      Signer.ofMac general mac (some len.toNat) := by
    rw [CodeScheme.bindTowards_eq, hmac, Except.ok_bind]
  split
  · next hle =>
    refine ⟨{ mechanism := general, core := .mac mac len.toNat }, ?_, Signer.codes_of_core rfl rfl rfl d⟩
    unfold openSigner
    rw [hmethod, Except.ok_bind, hbind]
    exact if_neg (by rw [hlength]; exact Nat.not_lt.2 hle)
  · next hgt =>
    refine ⟨_, _, hmethod, hbind.trans (if_pos ?_), rfl⟩
    rw [hlength]
    exact Nat.not_le.1 hgt

/-- For every key that the mechanism with a length accepts there is one code, that of the mechanism without, which
signs and verifies it in full. A length of up to the full one cuts the code: the signature is its first bytes, and a
verifier tells these from every other string of the length and refuses all other strings. The key is not bound for
any greater length. -/
theorem truncated_codes (h : GeneralForm general plain c) (hr : r.Faithful) (hg : general ∈ r.toList)
    (hr' : r'.Faithful) (hp : plain ∈ r'.toList) (preference : HedgePreference) (key : Object) :
    ∃ tag : Bytes → Bytes, ∀ d, r.Accepts preference general key d →
      (∀ message, (tag message).length = c.fullLength) ∧
      (∃ s, r'.openSigner preference ⟨plain, []⟩ key d = .ok s ∧ s.Codes d c.fullLength tag) ∧
      ∀ len : UInt64, ∃ params, Params.encode (⟨len⟩ : MacParams) = .ok params ∧
        if len.toNat ≤ c.fullLength then
          ∃ s, r.openSigner preference ⟨general, params⟩ key d = .ok s ∧
            s.Codes d len.toNat fun message => (tag message).take len.toNat
        else
          ∃ method e, r.signatureMethod preference ⟨general, params⟩ = .ok method ∧
            method.bindTowards key d = .error e ∧ e.code = .mechanismParamInvalid := by
  by_cases haccepts : ∃ d, r.Accepts preference general key d
  · obtain ⟨d₀, ha₀⟩ := haccepts
    obtain ⟨mac, hmac₀⟩ := keyed_of_accepts h hr hg ha₀
    refine ⟨mac.tag, fun d ha => ?_⟩
    -- both directions bind the same secret
    obtain ⟨mac', hmac⟩ := keyed_of_accepts h hr hg ha
    obtain rfl := CodeScheme.keyed_unique hmac₀ hmac
    obtain ⟨hkeyed, hlength⟩ := CodeScheme.length_of_keyed hmac
    have hfull : ∀ message, (mac.tag message).length = c.fullLength := fun message =>
      (Mac.length_tag hkeyed message).trans hlength
    refine ⟨hfull, open_plain preference h hr' hp hmac, fun len => ?_⟩
    have hsize : ParamShape.mac.wireSize (⟨len⟩ : MacParams) ≤ Codec.sizeLimit := by
      show 8 ≤ 2 ^ 20
      decide
    have hencode := (Params.encode_ok (s := .mac)).2 ⟨hsize, rfl⟩
    exact ⟨_, hencode, open_general preference h hr hg hmac (Params.decode_of_encode hencode)⟩
  · exact ⟨fun _ => [], fun d ha => absurd ⟨d, ha⟩ haccepts⟩

/-- A secret key that allows both directions. -/
def codeKey : Object :=
  .newKey .secretKey .genericSecret [.ofBytes .value [0x6b, 0x65, 0x79], .ofBool .sign true, .ofBool .verify true]

theorem generalForm_sha256 :
    GeneralForm .sha256HmacGeneral .sha256Hmac (.hmac .sha256 [.genericSecret, .sha256Hmac]) := by
  have hrow : ⟨.sha256Hmac, some .sha256HmacGeneral, .sha256, some .sha256Hmac⟩ ∈ HmacRow.rows := by decide
  exact .hmac hrow rfl

theorem accepts_codeKey (d : Direction) : full.Accepts .randomized .sha256HmacGeneral codeKey d := by
  have hkeyed : CodeScheme.keyed (.hmac .sha256 [.genericSecret, .sha256Hmac]) .sha256HmacGeneral codeKey d.usage =
      .ok (.hmac .sha256 [0x6b, 0x65, 0x79]) := by cases d <;> rfl
  have hgeneral : .sha256HmacGeneral ∈ full.toList := mem_toList.2 ⟨.hmac, find?_full.2 (by decide)⟩
  have hparams : Params.decode MacParams (Bytes.zeros 8) = .ok ⟨0⟩ := rfl
  obtain ⟨s, hs, -⟩ := open_general .randomized generalForm_sha256 faithful_full hgeneral hkeyed hparams
  exact ⟨Bytes.zeros 8, s, hs⟩

/-- An HMAC with SHA-256 that is cut to twelve bytes. -/
theorem truncated_codes_sha256 :
    GeneralForm .sha256HmacGeneral .sha256Hmac (.hmac .sha256 [.genericSecret, .sha256Hmac]) ∧
      ∃ tag : Bytes → Bytes, (∀ message, (tag message).length = 32) ∧ ∀ d, ∃ params s,
        Params.encode (⟨12⟩ : MacParams) = .ok params ∧
        full.openSigner .randomized ⟨.sha256HmacGeneral, params⟩ codeKey d = .ok s ∧
        s.Codes d 12 fun message => (tag message).take 12 := by
  have hgeneral : .sha256HmacGeneral ∈ full.toList := mem_toList.2 ⟨.hmac, find?_full.2 (by decide)⟩
  have hplain : .sha256Hmac ∈ full.toList := mem_toList.2 ⟨.hmac, find?_full.2 (by decide)⟩
  obtain ⟨tag, htag⟩ :=
    truncated_codes generalForm_sha256 faithful_full hgeneral faithful_full hplain .randomized codeKey
  refine ⟨generalForm_sha256, tag, (htag .signing (accepts_codeKey _)).1, fun d => ?_⟩
  obtain ⟨-, -, hcut⟩ := htag d (accepts_codeKey d)
  obtain ⟨params, hparams, hopen⟩ := hcut 12
  rw [if_pos (by decide)] at hopen
  obtain ⟨s, hs, hcodes⟩ := hopen
  exact ⟨params, s, hparams, hs, hcodes⟩

end Registry
end SoftToken
