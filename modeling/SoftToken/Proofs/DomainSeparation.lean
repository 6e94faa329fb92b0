import SoftToken.Proofs.SignerErrors
/-!
# No two signed messages are confused

What is signed for the digest of a message can be read back in one way only: the length in front of the context says
where the context ends, and the identifiers of the algorithms, which all have one length, where the digest starts
(`SignedMessage.ofDigest_inj`). All of this needs a context that its length byte can count, and the formatting refuses
the others. A signer never meets this refusal, since its options were checked when they were read
(`Signer.Runs.fits`).
-/

namespace SoftToken

open SoftToken.Except (Avoids)

/-! ## Identifiers -/

namespace Prehash

variable {p p' : Prehash}

/-- Every digest that may stand for a message has an identifier. -/
theorem oid?_digest (p : Prehash) : p.digest.oid? = some p.oid := by cases p <;> rfl

theorem length_encodeOid (p : Prehash) : (Der.encodeOid p.oid).length = 11 := by cases p <;> decide +kernel

theorem encodeOid_inj (h : Der.encodeOid p.oid = Der.encodeOid p'.oid) : p = p' := by
  revert h
  cases p <;> cases p' <;> decide +kernel

end Prehash

/-! ## Reading a signed message back -/

namespace SignedMessage

variable {p p' : Prehash} {q q' : Option Prehash} {c c' m m' r r' b : Bytes}

/-- A context that its length byte can count is told from what follows it. -/
theorem sizedContext_append_inj (hc : c.length ≤ maxContext) (hc' : c'.length ≤ maxContext)
    (h : sizedContext c ++ r = sizedContext c' ++ r') : c = c' ∧ r = r' := by
  obtain ⟨hbyte, h⟩ := List.cons.inj h
  have hlength : c.length = c'.length := by
    have hsize : c.length % 256 = c'.length % 256 := by simpa using congrArg UInt8.toNat hbyte
    unfold maxContext at hc hc'
    omega
  exact List.append_inj h hlength

theorem ofDigest_ok_iff : ofDigest p c m = .ok b ↔
    c.length ≤ maxContext ∧ b = 1 :: (sizedContext c ++ (Der.encodeOid p.oid ++ p.digest.hash m)) := by
  unfold ofDigest
  rw [List.append_assoc]
  split
  · next hlong => exact iff_of_false nofun fun h => absurd h.1 (Nat.not_le.2 hlong)
  · next hlong =>
    constructor
    · rintro ⟨⟩
      exact ⟨Nat.not_lt.1 hlong, rfl⟩
    · rintro ⟨-, rfl⟩
      rfl

/-- What is signed for a digest names the algorithm, the context and the digest. -/
theorem ofDigest_inj (h : ofDigest p c m = .ok b) (h' : ofDigest p' c' m' = .ok b) :
    p = p' ∧ c = c' ∧ p.digest.hash m = p'.digest.hash m' := by
  obtain ⟨hc, rfl⟩ := ofDigest_ok_iff.1 h
  obtain ⟨hc', hb⟩ := ofDigest_ok_iff.1 h'
  obtain ⟨rfl, hrest⟩ := sizedContext_append_inj hc hc' (List.cons.inj hb).2
  have hlength : (Der.encodeOid p.oid).length = (Der.encodeOid p'.oid).length := by
    rw [p.length_encodeOid, p'.length_encodeOid]
  obtain ⟨hoid, hdigest⟩ := List.append_inj hrest hlength
  exact ⟨Prehash.encodeOid_inj hoid, rfl, hdigest⟩

theorem format_of_fits (hc : c.length ≤ maxContext) (q : Option Prehash) (m : Bytes) : ∃ b, format q c m = .ok b := by
  cases q with
  | none => exact ⟨_, rfl⟩
  | some p => exact ⟨_, ofDigest_ok_iff.2 ⟨hc, rfl⟩⟩

/-- Whether the message itself or its digest is signed, a signed string is one of one message or digest only. -/
theorem format_inj (hc : c.length ≤ maxContext) (hc' : c'.length ≤ maxContext) (h : format q c m = .ok b)
    (h' : format q' c' m' = .ok b) :
    q = q' ∧ c = c' ∧ Signer.digested (q.map (·.digest)) m = Signer.digested (q'.map (·.digest)) m' := by
  rcases q with _ | p <;> rcases q' with _ | p'
  · cases h
    obtain ⟨rfl, hmessage⟩ := sizedContext_append_inj hc' hc (List.cons.inj (Except.ok.inj h')).2
    exact ⟨rfl, rfl, hmessage.symm⟩
  · -- the first byte tells a message from a digest
    obtain ⟨-, rfl⟩ := ofDigest_ok_iff.1 h'
    cases h
  · obtain ⟨-, rfl⟩ := ofDigest_ok_iff.1 h
    cases h'
  · obtain ⟨rfl, rfl, hdigest⟩ := ofDigest_inj h h'
    exact ⟨rfl, rfl, hdigest⟩

end SignedMessage

/-! ## The options of a signer -/

/-- The context of the options is one that its length byte can count. -/
def SigningOptions.Fits (o : SigningOptions) : Prop := o.context.length ≤ SignedMessage.maxContext

namespace SigningOptions

variable {m : Mechanism} {preference : HedgePreference} {o : SigningOptions}

theorem length_of_checkContext {context : Option Bytes} {c : Bytes} (h : checkContext context = .ok c) :
    c.length ≤ SignedMessage.maxContext := by
  unfold checkContext at h
  dsimp only at h
  split at h
  · cases h
  · next hlong =>
    cases h
    exact Nat.not_lt.1 hlong

theorem fits_ofHashParams (h : ofHashParams m preference = .ok o) : o.Fits := by
  obtain ⟨p, -, h⟩ := Except.bind_ok.1 h
  obtain ⟨deterministic, -, h⟩ := Except.bind_ok.1 h
  obtain ⟨context, hcontext, h⟩ := Except.bind_ok.1 h
  obtain ⟨prehash, -, h⟩ := Except.bind_ok.1 h
  cases h
  exact length_of_checkContext hcontext

theorem fits_ofParams {fixed : Option Prehash} (h : ofParams m preference fixed = .ok o) : o.Fits := by
  obtain ⟨p, -, h⟩ := Except.bind_ok.1 h
  obtain ⟨deterministic, -, h⟩ := Except.bind_ok.1 h
  obtain ⟨context, hcontext, h⟩ := Except.bind_ok.1 h
  cases h
  exact length_of_checkContext hcontext

end SigningOptions

/-- The options under which a scheme formats messages, if it does. -/
def SignatureScheme.options? : SignatureScheme → Option SigningOptions
  | .mlDsa o | .slhDsa o => some o
  | _ => none

/-- The options under which an engine formats messages, if it does. -/
def SigningEngine.options? : SigningEngine → Option SigningOptions
  | .mlDsa _ _ o _ | .slhDsa _ _ o _ => some o
  | _ => none

/-- The options under which an engine formats messages, if it does. -/
def VerifyingEngine.options? : VerifyingEngine → Option SigningOptions
  | .mlDsa _ _ o _ | .slhDsa _ _ o _ => some o
  | _ => none

/-- The options under which a signer formats messages, if it does. -/
def SignerCore.options? : SignerCore → Option SigningOptions
  | .mac _ _ => none
  | .signing _ e => e.options?
  | .verifying _ e => e.options?

theorem SignatureScheme.options?_of_isCode {s : SignatureScheme} (h : s.isCode = true) : s.options? = none := by
  cases s <;> first | rfl | cases h

namespace SignatureMethod

variable {m : Mechanism} {sm : SignatureMethod} {preference : HedgePreference} {o : SigningOptions}

theorem fits_optionsOf {pureId hashId : MechanismId} {fixed : List (MechanismId × Prehash)}
    (h : optionsOf m preference pureId hashId fixed = .ok o) : o.Fits := by
  unfold optionsOf at h
  split at h
  · exact SigningOptions.fits_ofParams h
  split at h
  · exact SigningOptions.fits_ofHashParams h
  split at h
  · exact SigningOptions.fits_ofParams h
  · cases h

theorem fits_ofMlDsa (h : ofMlDsa m preference = .ok sm) (ho : sm.scheme.options? = some o) : o.Fits := by
  obtain ⟨options, hoptions, h⟩ := Except.bind_ok.1 h
  cases h
  cases ho
  exact fits_optionsOf hoptions

theorem fits_ofSlhDsa (h : ofSlhDsa m preference = .ok sm) (ho : sm.scheme.options? = some o) : o.Fits := by
  obtain ⟨options, hoptions, h⟩ := Except.bind_ok.1 h
  cases h
  cases ho
  exact fits_optionsOf hoptions

end SignatureMethod

/-- Whatever the parameters of a mechanism say, the options that are read from them fit. -/
theorem MechanismFamily.fits_signatureMethod {f : MechanismFamily} {m : Mechanism} {preference : HedgePreference}
    {sm : SignatureMethod} {o : SigningOptions} (h : f.signatureMethod m preference = .ok sm)
    (ho : sm.scheme.options? = some o) : o.Fits := by
  cases f with
  | mlDsa => exact SignatureMethod.fits_ofMlDsa h ho
  | slhDsa => exact SignatureMethod.fits_ofSlhDsa h ho
  | cmac | hmac | poly1305 =>
    have hcode : sm.scheme.isCode = true := isCode_signatureMethod h
    rw [SignatureScheme.options?_of_isCode hcode] at ho
    cases ho
  | rsaPkcs | rsaSignature =>
    obtain ⟨scheme, digest, hs⟩ := SignatureMethod.scheme_ofRsa h
    rw [hs] at ho
    cases ho
  | ecdsa =>
    obtain ⟨digest, hs⟩ := SignatureMethod.scheme_ofEcdsa h
    rw [hs] at ho
    cases ho
  | eddsa =>
    obtain ⟨mode, hs⟩ := SignatureMethod.scheme_ofEddsa h
    rw [hs] at ho
    cases ho
  | _ => cases h

namespace SignatureMethod

variable {m : SignatureMethod} {key : Object} {o : SigningOptions}

/-- A private key does not change the options of its scheme. -/
theorem options?_signingEngine {r : Option Digest × SigningEngine} (h : m.signingEngine key = .ok r) :
    r.2.options? = m.scheme.options? := by
  have hr := signingEngine_ok h
  generalize m.scheme = scheme at hr ⊢
  cases hr <;> rfl

/-- A public key does not change the options of its scheme. -/
theorem options?_verifyingEngine {r : Option Digest × VerifyingEngine} (h : m.verifyingEngine key = .ok r) :
    r.2.options? = m.scheme.options? := by
  have hr := verifyingEngine_ok h
  generalize m.scheme = scheme at hr ⊢
  cases hr <;> rfl

/-- A signer formats messages under the options of its method. -/
theorem options?_bindTowards {d : Direction} {s : Signer} (h : m.bindTowards key d = .ok s)
    (ho : s.core.options? = some o) : m.scheme.options? = some o := by
  cases makes_of_bindTowards h with
  | code hc =>
    obtain ⟨-, -, mac, length, rfl⟩ := bindCode_some hc rfl
    cases ho
  | signing hc he => exact (options?_signingEngine he).symm.trans ho
  | verifying hc he => exact (options?_verifyingEngine he).symm.trans ho

end SignatureMethod

/-- The options of a signer fit, whatever calls it has answered. -/
theorem Signer.Runs.fits {d : Direction} {s : Signer} {o : SigningOptions} (h : Runs d s)
    (ho : s.core.options? = some o) : o.Fits := by
  induction h with
  | opened h =>
    obtain ⟨sm, hm, h⟩ := Except.bind_ok.1 h
    obtain ⟨f, -, hm⟩ := Except.bind_ok.1 hm
    exact MechanismFamily.fits_signatureMethod hm (SignatureMethod.options?_bindTowards h ho)
  | next c _ ih =>
    rw [core_next] at ho
    exact ih ho

/-! ## What a signer answers -/

theorem SigningOptions.Fits.avoids_format {o : SigningOptions} (h : o.Fits) {P : ReturnCode → Prop} (message : Bytes) :
    Avoids P (SignedMessage.format o.prehash o.context message) := by
  obtain ⟨b, hb⟩ := SignedMessage.format_of_fits h o.prehash message
  rw [hb]
  exact .ok b

theorem avoids_checkKeyLength {P : ReturnCode → Prop} (hp : ¬ P .generalError) (key : Bytes) (expected : Nat) :
    Avoids P (checkKeyLength key expected) := by
  unfold checkKeyLength
  split
  · exact .ok _
  · exact .error hp

/-- Signing does not find fault with the parameters. -/
theorem SigningEngine.avoids_sign {e : SigningEngine} {o : SigningOptions} (ho : e.options? = some o) (h : o.Fits)
    (data : Bytes) : (e.sign data).Avoids (· = .mechanismParamInvalid) := by
  cases e with
  | rsa scheme k => cases ho
  | ecdsa c value => cases ho
  | ed25519 mode seed => cases ho
  | mlDsa set sizes o' key =>
    cases ho
    refine (Draw.Avoids.lift (avoids_checkKeyLength (by decide) key _)).bind fun _ => ?_
    refine (Draw.Avoids.lift (h.avoids_format data)).bind fun message => ?_
    exact (avoids_drawLatticeBytes (by decide) o).bind fun random => .liftFailure (MlDsa.avoids_sign set key message random)
  | slhDsa set sizes o' key =>
    cases ho
    refine (Draw.Avoids.lift (avoids_checkKeyLength (by decide) key _)).bind fun _ => ?_
    refine (Draw.Avoids.lift (SlhDsa.avoids_readPrivate (by decide) set key)).bind fun k => ?_
    refine (Draw.Avoids.lift (h.avoids_format data)).bind fun message => ?_
    exact (SlhDsa.PrivateKey.avoids_drawOpening (by decide) set k o.deterministic).bind fun _ => .pure _

theorem SigningEngine.avoids_verify {e : SigningEngine} {o : SigningOptions} (ho : e.options? = some o)
    (data signature : Bytes) : Avoids (· = .mechanismParamInvalid) (e.verify data signature) := by
  cases e with
  | rsa scheme k => cases ho
  | ecdsa c value => cases ho
  | ed25519 mode seed => cases ho
  | mlDsa set sizes o' key => exact .failure (by decide)
  | slhDsa set sizes o' key => exact .failure (by decide)

/-- Verifying does not find fault with the parameters. -/
theorem VerifyingEngine.avoids_verify {e : VerifyingEngine} {o : SigningOptions} (ho : e.options? = some o) (h : o.Fits)
    (data signature : Bytes) : Avoids (· = .mechanismParamInvalid) (e.verify data signature) := by
  cases e with
  | rsa scheme k => cases ho
  | ecdsa c point => cases ho
  | ed25519 mode key point => cases ho
  | mlDsa set sizes o' key | slhDsa set sizes o' key =>
    cases ho
    refine (avoids_checkLength (by decide)).lift.bind fun _ _ => ?_
    refine (avoids_checkKeyLength (by decide) key _).lift.bind fun _ _ => ?_
    exact (h.avoids_format data).lift.bind fun _ _ => .ok _

namespace Signer

variable {s : Signer} {o : SigningOptions}

theorem avoids_generate (ho : s.core.options? = some o) (h : o.Fits) :
    s.generate.Avoids (· = .mechanismParamInvalid) := by
  unfold generate
  refine (Draw.Avoids.lift (avoids_requireOpen (by decide) s)).bind fun _ => ?_
  cases hc : s.core with
  | mac mac length =>
    rw [hc] at ho
    cases ho
  | signing digest e =>
    rw [hc] at ho
    exact SigningEngine.avoids_sign ho h _
  | verifying digest e => exact .throw (by decide)

theorem avoids_verify (ho : s.core.options? = some o) (h : o.Fits) (signature : Bytes) :
    Avoids (· = .mechanismParamInvalid) (s.verify signature) := by
  unfold verify
  cases hc : s.core with
  | mac mac length =>
    rw [hc] at ho
    cases ho
  | signing digest e =>
    rw [hc] at ho
    refine (avoids_requireOpen (by decide) s).lift.bind fun _ _ => ?_
    exact SigningEngine.avoids_verify ho _ signature
  | verifying digest e =>
    rw [hc] at ho
    refine (avoids_requireOpen (by decide) s).lift.bind fun _ _ => ?_
    exact VerifyingEngine.avoids_verify ho h _ signature

/-- No answer says that the parameters are invalid. -/
theorem avoids_answer (ho : s.core.options? = some o) (h : o.Fits) (c : Call) :
    (s.answer c).Avoids (· = .mechanismParamInvalid) := by
  cases c with
  | update data =>
    refine Draw.Avoids.bind ?_ fun _ => .pure _
    rw [Draw.discard_lift]
    exact .lift (Except.Avoids.discard ((avoids_requireOpen (by decide) s).bind fun _ _ => .ok _))
  | generate =>
    show (Answer.signature <$> s.generate).Avoids _
    rw [map_eq_pure_bind]
    exact (avoids_generate ho h).bind fun _ => .pure _
  | verify signature => exact (Draw.Avoids.liftFailure (avoids_verify ho h signature)).bind fun _ => .pure _

end Signer

/-- Two strings that are signed for digests are equal only if the algorithms, the contexts and the digests are. Every
algorithm has an identifier, so only a context that is too long is refused, and no signer of the registry, before or
after calls, has such a context or blames the parameters. -/
theorem SignedMessage.domain_separation :
    (∀ p p' c c' m m' b, ofDigest p c m = .ok b → ofDigest p' c' m' = .ok b →
      p = p' ∧ c = c' ∧ p.digest.hash m = p'.digest.hash m') ∧
    (∀ p : Prehash, p.digest.oid? = some p.oid) ∧
    (∀ p c m, (∃ b, ofDigest p c m = .ok b) ↔ c.length ≤ maxContext) ∧
    (∀ p c m, maxContext < c.length → ofDigest p c m = fail .mechanismParamInvalid) ∧
    ∀ d s, Signer.Runs d s → ∀ o, s.core.options? = some o →
      (∀ m, ∃ b, format o.prehash o.context m = .ok b) ∧
        ∀ c, (s.answer c).Avoids (· = .mechanismParamInvalid) := by
  refine ⟨fun _ _ _ _ _ _ _ => ofDigest_inj, Prehash.oid?_digest, fun p c m => ?_, fun p c m hlong => ?_,
    fun d s hs o ho => ?_⟩
  · constructor
    · rintro ⟨b, hb⟩
      exact (ofDigest_ok_iff.1 hb).1
    · intro hc
      exact format_of_fits hc (some p) m
  · exact if_pos hlong
  · have hfits : o.Fits := hs.fits ho
    exact ⟨fun m => format_of_fits hfits _ m, fun c => Signer.avoids_answer ho hfits c⟩

namespace DomainSeparation

/-- Parameters with a context of three bytes. -/
def threeBytes : Bytes := (Params.encode (⟨Hedge.preferred, some [1, 2, 3]⟩ : SignContext)).toOption.getD []

/-- An ML-DSA private key object that may sign. -/
def signingKey : Object := (SetKey.toPrivate ⟨1, [0]⟩ .mlDsa).put (.ofBool .sign true)

end DomainSeparation

open DomainSeparation in
/-- A signer of the full registry formats the digests of its messages in the context of its parameters. -/
theorem SignedMessage.domain_separation_three_bytes :
    ∃ s, Registry.full.openSigner .deterministic ⟨.hashMlDsaSha512, threeBytes⟩ signingKey .signing = .ok s ∧
      s.core.options? = some ⟨true, [1, 2, 3], some .sha512⟩ ∧
      ∀ m, ∃ b, format (some .sha512) [1, 2, 3] m = .ok b := by
  have h : ((Registry.full.openSigner .deterministic ⟨.hashMlDsaSha512, threeBytes⟩ signingKey .signing).toOption.map
      fun s => s.core.options?) = some (some ⟨true, [1, 2, 3], some .sha512⟩) := by decide +kernel
  obtain ⟨s, hs, ho⟩ := Option.map_eq_some_iff.1 h
  have hopen := Except.ok_of_toOption hs
  exact ⟨s, hopen, ho, (domain_separation.2.2.2.2 _ s (.opened hopen) _ ho).1⟩

end SoftToken
