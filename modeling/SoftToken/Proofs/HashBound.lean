import SoftToken.Digest.Length
import SoftToken.Proofs.Alike
import SoftToken.Proofs.Dispatch
import SoftToken.Proofs.SignerRuns
/-!
# Signatures bound to a digest

A mechanism that takes the digest of a message is another way to the raw mechanism of its scheme, which is
given that digest, or the digest information, in place of the message. Both sign and verify alike for every
key, message and random source, errors included (`Registry.hash_bound`). The one exception is by design: a PSS
mechanism refuses parameters that name another digest than its own.
-/

namespace SoftToken

/-- The digest information of PKCS #1. -/
def Digest.info (d : Digest) (digest : Bytes) : Bytes := Der.encodeDigestInfo (d.oid?.getD []) digest

open SignatureMethod in
/-- A mechanism that takes a digest, the raw mechanism of its scheme, and what the raw one is given in place of
a message. -/
inductive HashBound : Mechanism → Mechanism → (Bytes → Bytes) → Prop where
  | pkcs1 {id : MechanismId} {d : Digest} (h : (id, d) ∈ rsaPkcsHashed) (params params' : Bytes) :
      HashBound ⟨id, params⟩ ⟨.rsaPkcs, params'⟩ fun message => d.info (d.hash message)
  | pss {id : MechanismId} {d : Digest} (h : (id, d) ∈ rsaPssHashed) (params : Bytes) :
      HashBound ⟨id, params⟩ ⟨.rsaPkcsPss, params⟩ d.hash
  | ecdsa {id : MechanismId} {d : Digest} (h : (id, some d) ∈ ecdsaMechanisms) (params : Bytes) :
      HashBound ⟨id, params⟩ ⟨.ecdsa, params⟩ d.hash

/-- A PSS mechanism with parameters that name a digest other than its own. -/
def Mechanism.NamesOther (m : Mechanism) : Prop :=
  ∃ d p h, (m.id, d) ∈ SignatureMethod.rsaPssHashed ∧ Params.decode PssParams m.params = .ok p ∧
    Digest.ofMechanism p.hash = .ok h ∧ h ≠ d

theorem Mechanism.not_namesOther {m : Mechanism} (h : m.id ∉ SignatureMethod.rsaPssHashed.map (·.1)) :
    ¬ m.NamesOther := by
  rintro ⟨d, p, hash, hm, -⟩
  exact h (List.mem_map_of_mem hm)

/-- The answer that a new signer gives to a call after a message in pieces. -/
def Registry.answerAfter (r : Registry) (preference : HedgePreference) (m : Mechanism) (key : Object)
    (d : Direction) (pieces : List Bytes) (c : Signer.Call) : Draw Signer.Answer := do
  let s ← r.openSigner preference m key d
  let s ← (pieces.foldlM Signer.update s : Except Error Signer)
  s.answer c

/-! ## Schemes -/

section Schemes

open Signer

/-- A scheme does with messages what another one does with their encodings, whatever the key is. -/
def SignatureScheme.Encodes (encode : Bytes → Bytes) : SignatureScheme → SignatureScheme → Prop
  | .rsa s d, .rsa s' d' => ∀ k message,
      Rsa.sign k s (digested d message) = Rsa.sign k s' (digested d' (encode message)) ∧
        ∀ signature,
          Rsa.verify k s (digested d message) signature = Rsa.verify k s' (digested d' (encode message)) signature
  | .ecdsa d, .ecdsa d' => ∀ message, digested d message = digested d' (encode message)
  | _, _ => False

/-- The engine never refuses the digest of a message for its length. -/
theorem Rsa.pkcs1Data_hash {d : Digest} (h : d.oid?.isSome) (message : Bytes) :
    pkcs1Data (some d) (d.hash message) = pkcs1Data none (d.info (d.hash message)) := by
  obtain ⟨oid, hoid⟩ := Option.isSome_iff_exists.1 h
  have hlength : ¬ (d.hash message).length ≠ d.outputLength := not_not_intro (d.length_hash message)
  simp only [pkcs1Data, Digest.info, if_neg hlength, hoid, Option.getD_some]

namespace SignatureScheme

theorem encodes_pkcs1 {d : Digest} (h : d.oid?.isSome) :
    Encodes (fun message => d.info (d.hash message)) (.rsa (.pkcs1 (some d)) (some d)) (.rsa (.pkcs1 none) none) := by
  intro k message
  have hdata := Rsa.pkcs1Data_hash h message
  constructor
  · show Rsa.sign k (.pkcs1 (some d)) (d.hash message) = _
    unfold Rsa.sign
    simp only [hdata]
    rfl
  · intro signature
    show Rsa.verify k (.pkcs1 (some d)) (d.hash message) signature = _
    unfold Rsa.verify
    simp only [hdata]
    rfl

theorem encodes_pss (p : Rsa.Pss) (d : Digest) : Encodes d.hash (.rsa (.pss p) (some d)) (.rsa (.pss p) none) :=
  fun _ _ => ⟨rfl, fun _ => rfl⟩

theorem encodes_ecdsa (d : Digest) : Encodes d.hash (.ecdsa (some d)) (.ecdsa none) := fun _ => rfl

end SignatureScheme
end Schemes

/-! ## Signers -/

namespace Signer

/-- A signer with another message. -/
def withMessage (s : Signer) (message : Bytes) : Signer := { s with message }

/-- Two new signers, of which the first answers after each message as the second does after its encoding. -/
structure Encodes (encode : Bytes → Bytes) (s s' : Signer) : Prop where
  ended : s.ended = false
  ended' : s'.ended = false
  message : s.message = []
  message' : s'.message = []
  answer : ∀ message c t, ((s.withMessage message).answer c).on t = ((s'.withMessage (encode message)).answer c).on t

variable {encode : Bytes → Bytes} {id id' : MechanismId}

/-- An engine with its digest signs and verifies messages as the other one does their encodings. -/
def SigningEncodes (encode : Bytes → Bytes) (e e' : Option Digest × SigningEngine) : Prop :=
  ∀ message, e.2.sign (digested e.1 message) = e'.2.sign (digested e'.1 (encode message)) ∧
    ∀ signature, e.2.verify (digested e.1 message) signature = e'.2.verify (digested e'.1 (encode message)) signature

/-- The same of engines that verify only. -/
def VerifyingEncodes (encode : Bytes → Bytes) (e e' : Option Digest × VerifyingEngine) : Prop :=
  ∀ message signature,
    e.2.verify (digested e.1 message) signature = e'.2.verify (digested e'.1 (encode message)) signature

theorem encodes_signing {e e' : Option Digest × SigningEngine} (h : SigningEncodes encode e e') :
    Encodes encode { mechanism := id, core := .signing e.1 e.2 } { mechanism := id', core := .signing e'.1 e'.2 } where
  ended := rfl
  ended' := rfl
  message := rfl
  message' := rfl
  answer := by
    intro message c t
    cases c with
    | update data => rfl
    | generate =>
      show ((Answer.signature <$> e.2.sign (digested e.1 message) : Draw Answer)).on t = _
      rw [(h message).1]
      rfl
    | verify signature =>
      show ((do return .verdict (← e.2.verify (digested e.1 message) signature) : Draw Answer)).on t = _
      rw [(h message).2]
      rfl

theorem encodes_verifying {e e' : Option Digest × VerifyingEngine} (h : VerifyingEncodes encode e e') :
    Encodes encode { mechanism := id, core := .verifying e.1 e.2 }
      { mechanism := id', core := .verifying e'.1 e'.2 } where
  ended := rfl
  ended' := rfl
  message := rfl
  message' := rfl
  answer := by
    intro message c t
    cases c with
    | update data => rfl
    | generate => rfl
    | verify signature =>
      show ((do return .verdict (← e.2.verify (digested e.1 message) signature) : Draw Answer)).on t = _
      rw [h message]
      rfl

/-- An open signer takes a message in, whatever its pieces are. -/
theorem foldlM_update {s : Signer} (h : s.ended = false) (pieces : List Bytes) :
    pieces.foldlM update s = .ok (s.withMessage (s.message ++ pieces.flatten)) := by
  induction pieces generalizing s with
  | nil =>
    rw [List.flatten_nil, List.append_nil]
    rfl
  | cons piece pieces ih =>
    have hu : s.update piece = .ok (s.withMessage (s.message ++ piece)) := by
      unfold update
      rw [requireOpen_open h]
      rfl
    have hopen : (s.withMessage (s.message ++ piece)).ended = false := h
    rw [List.foldlM_cons, hu, Except.ok_bind, ih hopen, List.flatten_cons, ← List.append_assoc]
    rfl

/-- Calls that bring the pieces of a message are accepted, and those after them are answered for the whole message. -/
theorem answers_updates {s : Signer} (h : s.ended = false) (pieces : List Bytes) (cs : List Call) (t : RandomSource) :
    s.answers (pieces.map .update ++ cs) t =
      pieces.map (fun piece => (Call.update piece, .ok .updated)) ++
        (s.withMessage (s.message ++ pieces.flatten)).answers cs t := by
  induction pieces generalizing s with
  | nil =>
    rw [List.flatten_nil, List.append_nil]
    rfl
  | cons piece pieces ih =>
    have hnext : s.next (.update piece) = s.withMessage (s.message ++ piece) := if_neg (by simp [h])
    have hopen : (s.next (.update piece)).ended = false := by rw [hnext]; exact h
    rw [List.map_cons, List.cons_append, answers, answer_update h, ih hopen, hnext, List.flatten_cons,
      ← List.append_assoc]
    rfl

end Signer

/-! ## Binding -/

namespace SignatureMethod

variable {encode : Bytes → Bytes} {id id' : MechanismId} {key : Object}

/-- Mechanisms refuse a key alike: only the text of a refusal names the mechanism. -/
theorem alike_bind (usage : AttributeId) (expected : String) (accept : KeyKind → Bool) :
    Except.Alike (fun _ _ => True) (discard (key.bind id usage expected accept))
      (discard (key.bind id' usage expected accept)) := by
  refine .discard (R := fun _ _ => True) (.bind_same fun k _ => ?_)
  split
  · exact .refl fun _ _ => trivial
  · exact .refuse

/-- Methods that are no codes are bound alike if their engines correspond. -/
theorem alike_of_engines {m m' : SignatureMethod} (hcode : ∀ usage, m.bindCode? key usage = none)
    (hcode' : ∀ usage, m'.bindCode? key usage = none)
    (hs : Except.Alike (Signer.SigningEncodes encode) (m.signingEngine key) (m'.signingEngine key))
    (hv : Except.Alike (Signer.VerifyingEncodes encode) (m.verifyingEngine key) (m'.verifyingEngine key))
    (d : Direction) : Except.Alike (Signer.Encodes encode) (m.bindTowards key d) (m'.bindTowards key d) := by
  cases d with
  | signing =>
    refine .bind (R := fun b b' => Signer.Encodes encode b.signer b'.signer) ?_ fun _ _ hb => .ok hb
    unfold bindSigning
    rw [hcode, hcode']
    exact .bind hs fun _ _ he => .ok (Signer.encodes_signing he)
  | verifying =>
    show Except.Alike _ (m.bindVerifying key) (m'.bindVerifying key)
    unfold bindVerifying
    rw [hcode, hcode']
    exact .bind hv fun _ _ he => .ok (Signer.encodes_verifying he)

theorem alike_bindRsa {s s' : Rsa.Scheme} {digest digest' : Option Digest}
    (h : SignatureScheme.Encodes encode (.rsa s digest) (.rsa s' digest')) (d : Direction) :
    Except.Alike (Signer.Encodes encode) (bindTowards ⟨id, .rsa s digest⟩ key d)
      (bindTowards ⟨id', .rsa s' digest'⟩ key d) := by
  -- both engines get the same key, each with its own scheme
  refine alike_of_engines (fun _ => rfl) (fun _ => rfl) ?_ ?_ d
  · refine .bind (alike_bind .sign _ _) fun _ _ _ => .bind_same fun view _ => .bind_same fun k _ => ?_
    exact .ok (h k)
  · refine .bind (alike_bind .verify _ _) fun _ _ _ => .bind_same fun view _ => .bind_same fun k _ => ?_
    exact .ok fun message => (h k message).2

theorem alike_bindEcdsa {digest digest' : Option Digest}
    (h : SignatureScheme.Encodes encode (.ecdsa digest) (.ecdsa digest')) (d : Direction) :
    Except.Alike (Signer.Encodes encode) (bindTowards ⟨id, .ecdsa digest⟩ key d)
      (bindTowards ⟨id', .ecdsa digest'⟩ key d) := by
  refine alike_of_engines (fun _ => rfl) (fun _ => rfl) ?_ ?_ d
  · refine .bind (alike_bind .sign _ _) fun _ _ _ => .bind_same fun view _ => ?_
    refine .ok fun message => ⟨?_, fun _ => rfl⟩
    show Ecdsa.sign view.curve view.value _ = _
    rw [h message]
    rfl
  · refine .bind (alike_bind .verify _ _) fun _ _ _ => .bind_same fun view _ => ?_
    refine .ok fun message signature => ?_
    show (liftM (Ecdsa.verify view.curve view.point _ signature) : Except Failure Bool) = _
    rw [h message]
    rfl

/-- Methods whose schemes correspond are bound to a key alike. -/
theorem alike_bindTowards {m m' : SignatureMethod} (h : m.scheme.Encodes encode m'.scheme) (d : Direction) :
    Except.Alike (Signer.Encodes encode) (m.bindTowards key d) (m'.bindTowards key d) := by
  obtain ⟨id, scheme⟩ := m
  obtain ⟨id', scheme'⟩ := m'
  cases scheme with
  | rsa s digest => cases scheme' with
    | rsa s' digest' => exact alike_bindRsa h d
    | _ => exact h.elim
  | ecdsa digest => cases scheme' with
    | ecdsa digest' => exact alike_bindEcdsa h d
    | _ => exact h.elim
  | _ => exact h.elim

/-! ## Methods -/

variable {d : Digest} {params : Bytes}

theorem lookup_rsaPssHashed (h : (id, d) ∈ rsaPssHashed) : rsaPssHashed.lookup id = some d := by
  have hrows : ∀ row ∈ rsaPssHashed, rsaPssHashed.lookup row.1 = some row.2 := by decide
  exact hrows _ h

theorem ofRsa_pkcs1 (h : (id, d) ∈ rsaPkcsHashed) :
    ofRsa ⟨id, params⟩ = .ok ⟨id, .rsa (.pkcs1 (some d)) (some d)⟩ := by
  have hrows : ∀ row ∈ rsaPkcsHashed, row.1 ∉ [.rsaPkcs, .rsa9796, .sha1RsaX9_31, .rsaPkcsPss] ∧
      rsaPkcsHashed.lookup row.1 = some row.2 := by decide
  obtain ⟨hnot, hlookup⟩ := hrows _ h
  simp only [List.mem_cons, List.not_mem_nil, or_false, not_or] at hnot
  obtain ⟨h₁, h₂, h₃, h₄⟩ := hnot
  simp only [ofRsa, h₁, h₂, h₃, h₄, if_false, hlookup]
  rfl

theorem ofRsa_pss (h : (id, d) ∈ rsaPssHashed) :
    ofRsa ⟨id, params⟩ = do return ⟨id, .rsa (← pssScheme ⟨id, params⟩ (some d)) (some d)⟩ := by
  have hrows : ∀ row ∈ rsaPssHashed, row.1 ∉ [.rsaPkcs, .rsa9796, .sha1RsaX9_31, .rsaPkcsPss] ∧
      rsaPkcsHashed.lookup row.1 = none := by decide
  obtain ⟨hnot, hnone⟩ := hrows _ h
  simp only [List.mem_cons, List.not_mem_nil, or_false, not_or] at hnot
  obtain ⟨h₁, h₂, h₃, h₄⟩ := hnot
  simp only [ofRsa, h₁, h₂, h₃, h₄, if_false, hnone, lookup_rsaPssHashed h]

theorem ofEcdsa_digest (h : (id, some d) ∈ ecdsaMechanisms) :
    ofEcdsa ⟨id, params⟩ = do
      Params.requireNone params
      return ⟨id, .ecdsa (some d)⟩ := by
  have hrows : ∀ row ∈ ecdsaMechanisms, ecdsaMechanisms.lookup row.1 = some row.2 := by decide
  simp only [ofEcdsa, hrows _ h]

/-- A PSS mechanism reads its parameters as the raw one does, unless they name another digest. -/
theorem pssScheme_eq (h : (id, d) ∈ rsaPssHashed) (hn : ¬ Mechanism.NamesOther ⟨id, params⟩) :
    pssScheme ⟨id, params⟩ (some d) = pssScheme ⟨.rsaPkcsPss, params⟩ none := by
  unfold pssScheme
  cases hp : Params.decode PssParams params with
  | error e => rfl
  | ok p =>
    rw [Except.ok_bind, Except.ok_bind]
    cases hh : Digest.ofMechanism p.hash with
    | error e => rfl
    | ok hash =>
      have hd : hash = d := by
        by_contra hne
        exact hn ⟨d, p, hash, h, hp, hh, hne⟩
      have hsame : ¬ (some d).any (· != hash) = true := by simp [hd]
      rw [Except.ok_bind, Except.ok_bind, if_neg hsame]
      rfl

theorem exists_of_pssScheme {m : Mechanism} {bound : Option Digest} {s : Rsa.Scheme} (h : pssScheme m bound = .ok s) :
    ∃ p, s = .pss p := by
  obtain ⟨p, -, h⟩ := Except.bind_ok.1 h
  obtain ⟨hash, -, h⟩ := Except.bind_ok.1 h
  split at h
  · cases h
  · obtain ⟨mask, -, h⟩ := Except.bind_ok.1 h
    cases h
    exact ⟨_, rfl⟩

/-- It refuses parameters that name another digest. -/
theorem pssScheme_refused (h : (id, d) ∈ rsaPssHashed) (hn : Mechanism.NamesOther ⟨id, params⟩) :
    ∃ e, pssScheme ⟨id, params⟩ (some d) = .error e ∧ e.code = .mechanismParamInvalid := by
  obtain ⟨d', p, hash, h', hp, hh, hne⟩ := hn
  obtain rfl : d = d' := Option.some.inj ((lookup_rsaPssHashed h).symm.trans (lookup_rsaPssHashed h'))
  have hother : (some d).any (· != hash) = true := by simpa using Ne.symm hne
  refine ⟨.explained .mechanismParamInvalid (.hashMismatch id p.hash), ?_, rfl⟩
  unfold pssScheme
  rw [hp, Except.ok_bind, hh, Except.ok_bind, if_pos hother]
  rfl

end SignatureMethod

namespace Registry

variable {r : Registry} {preference : HedgePreference} {hashed raw m : Mechanism} {encode : Bytes → Bytes}
  {key : Object}

/-- A listed mechanism reaches the family that has it. -/
theorem Faithful.signatureMethod_eq (hr : r.Faithful) (hm : m.id ∈ r.toList) {f : MechanismFamily}
    (hf : m.id ∈ f.mechanisms) (hop : f.info.supports .sign = true) :
    r.signatureMethod preference m = f.signatureMethod m preference := by
  unfold signatureMethod
  rw [hr.findFor_eq hm hf hop, Except.ok_bind]

theorem mem_rsaSignature {id : MechanismId} {d : Digest}
    (h : (id, d) ∈ SignatureMethod.rsaPkcsHashed ++ SignatureMethod.rsaPssHashed) :
    id ∈ MechanismFamily.rsaSignature.mechanisms :=
  List.mem_cons_of_mem _ (List.mem_cons_of_mem _ (List.mem_cons_of_mem _ (List.mem_map_of_mem h)))

open SignatureMethod in
/-- The methods of the two mechanisms have schemes that correspond. -/
theorem alike_signatureMethod (hr : r.Faithful) (h : HashBound hashed raw encode) (hh : hashed.id ∈ r.toList)
    (hw : raw.id ∈ r.toList) (hn : ¬ hashed.NamesOther) :
    Except.Alike (fun m m' => m.scheme.Encodes encode m'.scheme) (r.signatureMethod preference hashed)
      (r.signatureMethod preference raw) := by
  cases h with
  | pkcs1 h params params' =>
    have hoid : ∀ row ∈ rsaPkcsHashed, row.2.oid?.isSome := by decide
    rw [hr.signatureMethod_eq hh (mem_rsaSignature (List.mem_append_left _ h)) rfl,
      hr.signatureMethod_eq hw (f := .rsaPkcs) List.mem_cons_self rfl]
    show Except.Alike _ (ofRsa _) (ofRsa _)
    rw [ofRsa_pkcs1 h]
    exact .ok (SignatureScheme.encodes_pkcs1 (hoid _ h))
  | pss h params =>
    rw [hr.signatureMethod_eq hh (mem_rsaSignature (List.mem_append_right _ h)) rfl,
      hr.signatureMethod_eq hw (f := .rsaSignature) List.mem_cons_self rfl]
    show Except.Alike _ (ofRsa _) (ofRsa _)
    rw [ofRsa_pss h, pssScheme_eq h hn]
    refine .bind_same fun scheme hs => ?_
    obtain ⟨p, rfl⟩ := exists_of_pssScheme hs
    exact .ok (SignatureScheme.encodes_pss p _)
  | ecdsa h params =>
    rw [hr.signatureMethod_eq hh (f := .ecdsa) (List.mem_map_of_mem h) rfl,
      hr.signatureMethod_eq hw (f := .ecdsa) List.mem_cons_self rfl]
    show Except.Alike _ (ofEcdsa ⟨_, params⟩) (ofEcdsa ⟨.ecdsa, params⟩)
    rw [ofEcdsa_digest h]
    exact .bind_same fun _ _ => .ok (SignatureScheme.encodes_ecdsa _)

/-- A PSS mechanism with parameters that name another digest makes no signer. -/
theorem openSigner_refused (preference : HedgePreference) (key : Object) (hr : r.Faithful) (hm : m.id ∈ r.toList)
    (hn : m.NamesOther) (d : Direction) :
    ∃ e, r.openSigner preference m key d = .error e ∧ e.code = .mechanismParamInvalid := by
  obtain ⟨id, params⟩ := m
  have hn' := hn
  obtain ⟨digest, p, hash, h, -⟩ := hn
  obtain ⟨e, he, hcode⟩ := SignatureMethod.pssScheme_refused h hn'
  refine ⟨e, ?_, hcode⟩
  unfold openSigner
  rw [hr.signatureMethod_eq hm (mem_rsaSignature (List.mem_append_right _ h)) rfl]
  show (SignatureMethod.ofRsa ⟨id, params⟩ >>= _) = _
  rw [SignatureMethod.ofRsa_pss h, he]
  rfl

/-- The two mechanisms make signers alike, and these answer alike. -/
theorem alike_openSigner (hr : r.Faithful) (h : HashBound hashed raw encode) (hh : hashed.id ∈ r.toList)
    (hw : raw.id ∈ r.toList) (hn : ¬ hashed.NamesOther) (d : Direction) :
    Except.Alike (Signer.Encodes encode) (r.openSigner preference hashed key d) (r.openSigner preference raw key d) :=
  .bind (alike_signatureMethod hr h hh hw hn) fun _ _ hm => SignatureMethod.alike_bindTowards hm d

/-- A mechanism that takes a digest and the raw mechanism of its scheme end alike: for every key, direction, message
in pieces, call and random source they give the same signature, verdict or code and leave the same source. Only a
PSS mechanism with parameters that name another digest is refused, whatever the raw one does. -/
theorem hash_bound (hr : r.Faithful) (h : HashBound hashed raw encode) (hh : hashed.id ∈ r.toList)
    (hw : raw.id ∈ r.toList) (preference : HedgePreference) (key : Object) (d : Direction) :
    (¬ hashed.NamesOther → ∀ pieces pieces' c t, pieces'.flatten = encode pieces.flatten →
      (r.answerAfter preference hashed key d pieces c).outcome t =
        (r.answerAfter preference raw key d pieces' c).outcome t) ∧
    (hashed.NamesOther → ∃ e, r.openSigner preference hashed key d = .error e ∧ e.code = .mechanismParamInvalid) := by
  refine ⟨fun hn pieces pieces' c t hpieces => ?_, fun hn => openSigner_refused preference key hr hh hn d⟩
  refine Draw.outcome_bind_lift (alike_openSigner hr h hh hw hn d) fun s s' hs => ?_
  rw [Signer.foldlM_update hs.ended, Signer.foldlM_update hs.ended', hs.message, hs.message', List.nil_append,
    List.nil_append, hpieces]
  exact Draw.outcome_congr (hs.answer pieces.flatten c t)

end Registry

/-! ## Runs -/

namespace HashBound

/-- A private key whose factors are Mersenne primes. -/
def signingKey : Object :=
  let view : RsaPrivateKey :=
    { modulus := Bytes.ofNat 81 ((2 ^ 521 - 1) * (2 ^ 127 - 1))
      publicExponent := [1, 0, 1]
      privateExponent := Bytes.ofNat 81 ((Modular.inverse? ((2 ^ 521 - 2) * (2 ^ 127 - 2)) 0x10001).getD 0)
      prime1 := some (Bytes.ofNat 66 (2 ^ 521 - 1))
      prime2 := some (Bytes.ofNat 16 (2 ^ 127 - 1)) }
  view.toObject.put (.ofBool .sign true)

/-- The text `abc`. -/
def text : Bytes := [0x61, 0x62, 0x63]

/-- The wire form of PSS parameters with SHA3-256 and without salt. -/
def otherParams : Bytes := (Params.encode (⟨.sha3_256, 1, 0⟩ : PssParams)).toOption.getD []

theorem namesOther : Mechanism.NamesOther ⟨.sha256RsaPkcsPss, otherParams⟩ :=
  ⟨.sha256, ⟨.sha3_256, 1, 0⟩, .sha3_256, by decide, Except.ok_of_toOption (by decide +kernel), rfl, nofun⟩

/-- An operation whose outcome is computed. -/
theorem exists_outcome {x : Draw Signer.Answer} {t : RandomSource} (h : (x.outcome t).1.toOption.isSome = true) :
    ∃ a t', x.outcome t = (.ok a, t') := by
  obtain ⟨a, ha⟩ := Option.isSome_iff_exists.1 h
  exact ⟨a, _, Prod.ext (Except.ok_of_toOption ha) rfl⟩

end HashBound

namespace Registry

open HashBound

/-- A text in two pieces is signed with its digest, and with the digest information by the raw mechanism. -/
theorem hash_bound_text : ∃ a t,
    (full.answerAfter .randomized ⟨.sha256RsaPkcs, []⟩ signingKey .signing [text.take 1, text.drop 1] .generate).outcome
      .zeros = (.ok a, t) ∧
    (full.answerAfter .randomized ⟨.rsaPkcs, []⟩ signingKey .signing [Digest.sha256.info (Digest.sha256.hash text)]
      .generate).outcome .zeros = (.ok a, t) := by
  have hbound : HashBound ⟨.sha256RsaPkcs, []⟩ ⟨.rsaPkcs, []⟩ fun message =>
      Digest.sha256.info (Digest.sha256.hash message) :=
    .pkcs1 (by decide) [] []
  have hh : MechanismId.sha256RsaPkcs ∈ full.toList :=
    mem_toList.2 ⟨.rsaSignature, find?_full.2 (by decide)⟩
  have hw : MechanismId.rsaPkcs ∈ full.toList := mem_toList.2 ⟨.rsaPkcs, find?_full.2 List.mem_cons_self⟩
  have hn : ¬ Mechanism.NamesOther ⟨.sha256RsaPkcs, []⟩ := Mechanism.not_namesOther (by decide)
  obtain ⟨a, t, ha⟩ := exists_outcome (x := full.answerAfter .randomized ⟨.sha256RsaPkcs, []⟩ signingKey .signing
    [text.take 1, text.drop 1] .generate) (t := .zeros) (by decide +kernel)
  obtain ⟨hsame, -⟩ := hash_bound faithful_full hbound hh hw .randomized signingKey .signing
  exact ⟨a, t, ha, (hsame hn _ _ .generate .zeros (List.append_nil _)).symm.trans ha⟩

/-- PSS parameters that name another digest of the same length are refused with a digest, but the raw mechanism signs
the digest with them. -/
theorem hash_bound_other :
    HashBound ⟨.sha256RsaPkcsPss, otherParams⟩ ⟨.rsaPkcsPss, otherParams⟩ Digest.sha256.hash ∧
      (full.answerAfter .randomized ⟨.sha256RsaPkcsPss, otherParams⟩ signingKey .signing [text] .generate).outcome
        .zeros = (.error (some .mechanismParamInvalid), .zeros) ∧
      ∃ a t, (full.answerAfter .randomized ⟨.rsaPkcsPss, otherParams⟩ signingKey .signing [Digest.sha256.hash text]
        .generate).outcome .zeros = (.ok a, t) := by
  have hlist : MechanismId.sha256RsaPkcsPss ∈ full.toList :=
    mem_toList.2 ⟨.rsaSignature, find?_full.2 (by decide)⟩
  obtain ⟨e, he, hcode⟩ := openSigner_refused .randomized signingKey faithful_full hlist namesOther .signing
  refine ⟨.pss (by decide) otherParams, ?_, exists_outcome (by decide +kernel)⟩
  unfold answerAfter
  rw [he, ← hcode]
  rfl

end Registry
end SoftToken
