import SoftToken.Proofs.RsaSignature
import SoftToken.Signature.Families
/-!
# Which salt lengths PSS stands

The salt length of PSS comes from the caller. Lengths that do not fit into the encoding are refused, with one
exception: the guard adds the lengths up in a machine word, and a sum that no word holds makes signing and
verification give up. `Pss.total_iff` says that these lengths are the only ones.
-/

namespace SoftToken

namespace Rsa

variable {k : Key} {p : Pss} {data signature : Bytes}

theorem Key.drawBlinding_blamesSource (k : Key) (fuel : Nat) : (k.drawBlinding fuel).BlamesSource := by
  intro t t' a h
  exact Failure.abort.inj (drawBlinding_error h)

theorem Key.signRaw_blamesSource (k : Key) (m : Nat) : (k.signRaw m).BlamesSource := by
  unfold signRaw
  split
  · exact .throw _
  split
  · exact (k.drawBlinding_blamesSource maxRequests).bind fun _ => .lift _
  · exact .throw _

namespace Pss

/-! ## Salt lengths whose sum with the other lengths is a machine word -/

theorem sign_blamesSource (hw : p.hash.outputLength + p.saltLength + 2 < 2 ^ 64) (k : Key) (data : Bytes) :
    (sign k (.pss p) data).BlamesSource := by
  unfold sign
  dsimp only
  split
  · exact .throw _
  · have hencoding : (p.drawEncoding k.bits data).BlamesSource := by
      rw [drawEncoding_of_lt hw]
      split
      · exact (Draw.BlamesSource.bytes _).bind fun _ => .pure _
      · exact .throw _
    exact hencoding.bind fun em => (k.signRaw_blamesSource (Bytes.toNat em)).bind fun _ => .pure _

/-- Without room for the salt, nothing is drawn and nothing is signed. -/
theorem sign_of_not_fits (hw : p.hash.outputLength + p.saltLength + 2 < 2 ^ 64) (hf : p.fits k.bits = false)
    (hd : data.length = p.hash.outputLength) (t : RandomSource) :
    (sign k (.pss p) data).on t = (.error (.error (.bare .keySizeRange)), t) := by
  have hencoding : (p.drawEncoding k.bits data).on t = (.error (.error (.bare .keySizeRange)), t) := by
    rw [drawEncoding_of_lt hw, if_neg (Bool.not_eq_true _ ▸ hf)]
    rfl
  unfold sign
  dsimp only
  rw [if_neg (not_not_intro hd)]
  exact Draw.bind_error.2 (.inl hencoding)

/-- What the verifier does with a signature and data of the right lengths. -/
theorem verify_eq (hd : data.length = p.hash.outputLength) (hs : signature.length = k.size) :
    verify k (.pss p) data signature =
      match (open? k signature).bind (Bytes.ofNat? (encodedLength k.bits)) with
      | some em => p.readEncoding k.bits data em
      | none => .ok false := by
  unfold verify
  rw [if_neg (not_not_intro hs)]
  dsimp only
  rw [if_neg (not_not_intro hd)]
  cases (open? k signature).bind (Bytes.ofNat? (encodedLength k.bits)) <;> rfl

/-- With lengths whose sum is a machine word, the verifier has a verdict: that of the checker. -/
theorem verify_of_lt (hw : p.hash.outputLength + p.saltLength + 2 < 2 ^ 64)
    (hd : data.length = p.hash.outputLength) (hs : signature.length = k.size) :
    verify k (.pss p) data signature =
      .ok (((open? k signature).bind (Bytes.ofNat? (encodedLength k.bits))).any (p.check k.bits data)) := by
  rw [verify_eq hd hs]
  split
  · next em hem =>
    obtain ⟨m, -, hm⟩ := Option.bind_eq_some_iff.1 hem
    rw [hem, readEncoding_of_lt hw (Bytes.length_of_ofNat? hm), Option.any_some]
  · next hem => rw [hem, Option.any_none]

theorem verify_completes (hw : p.hash.outputLength + p.saltLength + 2 < 2 ^ 64)
    (hd : data.length = p.hash.outputLength) (a : Abort) : verify k (.pss p) data signature ≠ .error (.abort a) := by
  by_cases hs : signature.length = k.size
  · rw [verify_of_lt hw hd hs]
    exact nofun
  · unfold verify
    rw [if_pos hs]
    exact nofun

/-- Without room for the salt, every signature is wrong. -/
theorem verify_of_not_fits (hw : p.hash.outputLength + p.saltLength + 2 < 2 ^ 64) (hf : p.fits k.bits = false)
    (hd : data.length = p.hash.outputLength) (hs : signature.length = k.size) :
    verify k (.pss p) data signature = .ok false := by
  rw [verify_of_lt hw hd hs]
  cases hem : (open? k signature).bind (Bytes.ofNat? (encodedLength k.bits)) with
  | none => rfl
  | some em =>
    obtain ⟨m, -, hm⟩ := Option.bind_eq_some_iff.1 hem
    rw [Option.any_some, check_of_not_fits hf (Bytes.length_of_ofNat? hm)]

/-! ## Totality -/

/-- PSS stands its salt length: it never gives up, and without room for the salt it refuses to sign and accepts
no signature. -/
structure Total (k : Key) (p : Pss) : Prop where
  sign_completes : ∀ data t t' a, data.length = p.hash.outputLength → k.secret.isSome = true →
    (sign k (.pss p) data).on t = (.error (.abort a), t') → a = .randomSource
  verify_completes : ∀ data signature a, data.length = p.hash.outputLength →
    verify k (.pss p) data signature ≠ .error (.abort a)
  sign_refuses : encodedLength k.bits < p.hash.outputLength + p.saltLength + 2 →
    ∀ data t, data.length = p.hash.outputLength → k.secret.isSome = true →
      (sign k (.pss p) data).on t = (.error (.error (.bare .keySizeRange)), t)
  verify_refuses : encodedLength k.bits < p.hash.outputLength + p.saltLength + 2 →
    ∀ data signature : Bytes, data.length = p.hash.outputLength → signature.length = k.size →
      verify k (.pss p) data signature = .ok false

theorem total_of_lt (hw : p.hash.outputLength + p.saltLength + 2 < 2 ^ 64) (k : Key) : Total k p where
  sign_completes data t t' a _ _ h := sign_blamesSource hw k data t t' a h
  verify_completes _ _ a hd := verify_completes hw hd a
  sign_refuses hl _ t hd _ := sign_of_not_fits hw (not_fits_iff.2 hl) hd t
  verify_refuses hl _ _ hd hs := verify_of_not_fits hw (not_fits_iff.2 hl) hd hs

/-- The signature of zeros opens to zeros, so that the guard is reached with it. -/
theorem verify_zeros (hv : Key.validPublic k.n k.e = true) (hd : data.length = p.hash.outputLength) :
    verify k (.pss p) data (Bytes.zeros k.size) =
      p.readEncoding k.bits data (Bytes.ofNat (encodedLength k.bits) 0) := by
  have he : 0 < k.e := by
    have := (Key.validPublic_iff.1 hv).2.2.2.2.1
    omega
  have hopen : open? k (Bytes.zeros k.size) = some 0 := by
    unfold open?
    simp only [Bytes.toNat_zeros, if_pos (Key.n_pos hv), Key.encrypt_zero he]
  have hback : Bytes.ofNat? (encodedLength k.bits) 0 = some (Bytes.ofNat (encodedLength k.bits) 0) :=
    if_pos (Nat.pow_pos (by decide))
  rw [verify_eq hd (Bytes.length_zeros _), hopen, Option.bind_some, hback]

/-- PSS stands the salt lengths whose sum with the digest length and two is a machine word, and no others. -/
theorem total_iff (hv : Key.validPublic k.n k.e = true) :
    Total k p ↔ p.hash.outputLength + p.saltLength + 2 < 2 ^ 64 := by
  constructor
  · intro h
    have hcompletes := h.verify_completes (Bytes.zeros p.hash.outputLength) (Bytes.zeros k.size) .wordOverflow
      (Bytes.length_zeros _)
    by_contra hw
    rw [verify_zeros hv (Bytes.length_zeros _), readEncoding_of_le (Nat.not_lt.1 hw)] at hcompletes
    exact hcompletes rfl
  · intro hw
    exact total_of_lt hw k

end Pss

/-! ## Salt lengths that parameters carry -/

open SignatureMethod

/-- The key comes from the attributes of a public or a private key object. -/
def Key.IsLoaded (k : Key) : Prop := (∃ v, Key.ofPublic v = .ok k) ∨ ∃ v, Key.ofPrivate v = .ok k

theorem Key.IsLoaded.valid (h : k.IsLoaded) : Key.validPublic k.n k.e = true := by
  rcases h with ⟨v, hv⟩ | ⟨v, hv⟩
  · exact Key.public_ok hv
  · obtain ⟨s, hs⟩ := Key.private_ok hv
    exact hs.valid

/-- A salt length is a machine word, and the digest of the mechanism is the one of the parameters. -/
theorem pssScheme_ok {m : Mechanism} {bound : Option Digest} (h : pssScheme m bound = .ok (.pss p)) :
    p.saltLength < 2 ^ 64 ∧ ∀ d ∈ bound, d = p.hash := by
  obtain ⟨params, -, h⟩ := Except.bind_ok.1 h
  obtain ⟨hash, -, h⟩ := Except.bind_ok.1 h
  split at h
  · cases h
  next hany =>
  obtain ⟨mask, -, h⟩ := Except.bind_ok.1 h
  cases h
  refine ⟨params.saltLength.toNat_lt, fun d hd => ?_⟩
  by_contra hne
  exact hany (by rw [Option.mem_def.1 hd]; exact bne_iff_ne.2 hne)

/-- The PSS mechanisms take their scheme from the parameters. -/
theorem pssScheme_of_ofRsa {m : Mechanism} {id : MechanismId} {digest : Option Digest}
    (h : ofRsa m = .ok ⟨id, .rsa (.pss p) digest⟩) : pssScheme m digest = .ok (.pss p) := by
  unfold ofRsa at h
  split at h
  · cases h
  split at h
  · cases h
  split at h
  · cases h
  split at h
  · obtain ⟨s, hs, h⟩ := Except.bind_ok.1 h
    cases h
    exact hs
  split at h
  · cases h
  · obtain ⟨s, hs, h⟩ := Except.bind_ok.1 h
    cases h
    exact hs
  · cases h

/-- For the scheme that parameters choose and a loaded key: the digest of a mechanism always gives data of the right
length, the salt length is a machine word, and PSS stands it if and only if its sum with the digest length and two
is one as well. -/
theorem pss_total_iff {m : Mechanism} {digest : Option Digest} (hm : ofRsa m = .ok ⟨m.id, .rsa (.pss p) digest⟩)
    (hk : k.IsLoaded) :
    (∀ d ∈ digest, ∀ message, (Signer.digested digest message).length = p.hash.outputLength) ∧
      p.saltLength < 2 ^ 64 ∧ (Pss.Total k p ↔ p.hash.outputLength + p.saltLength + 2 < 2 ^ 64) := by
  obtain ⟨hword, hbound⟩ := pssScheme_ok (pssScheme_of_ofRsa hm)
  refine ⟨?_, hword, Pss.total_iff hk.valid⟩
  intro d hd message
  obtain rfl : digest = some d := hd
  obtain rfl := hbound d rfl
  exact Digest.length_hash _ _

/-- The wire form of PSS parameters with SHA-256. -/
def saltParams (saltLength : UInt64) : Bytes :=
  (Params.encode (⟨.sha256, 0x02, saltLength⟩ : PssParams)).toOption.getD []

theorem smallKey_isLoaded : smallKey.IsLoaded :=
  .inr ⟨smallView, Except.ok_of_toOption (by decide +kernel)⟩

/-- A modulus of 64 bits has no room for a salt of 32 bytes, which PSS stands. -/
theorem pss_total_iff_small :
    ofRsa ⟨.sha256RsaPkcsPss, saltParams 32⟩ =
        .ok ⟨.sha256RsaPkcsPss, .rsa (.pss ⟨.sha256, .sha256, 32⟩) (some .sha256)⟩ ∧
      smallKey.IsLoaded ∧ Pss.Total smallKey ⟨.sha256, .sha256, 32⟩ := by
  have hm : ofRsa ⟨.sha256RsaPkcsPss, saltParams 32⟩ =
      .ok ⟨.sha256RsaPkcsPss, .rsa (.pss ⟨.sha256, .sha256, 32⟩) (some .sha256)⟩ :=
    Except.ok_of_toOption (by decide +kernel)
  exact ⟨hm, smallKey_isLoaded, (pss_total_iff hm smallKey_isLoaded).2.2.2 (by decide)⟩

/-- With the longest salt that parameters can name, signing and verification give up. -/
theorem pss_gives_up :
    ofRsa ⟨.rsaPkcsPss, saltParams 0xffffffffffffffff⟩ =
        .ok ⟨.rsaPkcsPss, .rsa (.pss ⟨.sha256, .sha256, 2 ^ 64 - 1⟩) none⟩ ∧
      smallKey.IsLoaded ∧ Pss.encodedLength smallKey.bits < 32 + (2 ^ 64 - 1) + 2 ∧
      (sign smallKey (.pss ⟨.sha256, .sha256, 2 ^ 64 - 1⟩) (Bytes.zeros 32)).on .zeros =
        (.error (.abort .wordOverflow), .zeros) ∧
      verify smallKey (.pss ⟨.sha256, .sha256, 2 ^ 64 - 1⟩) (Bytes.zeros 32) (Bytes.zeros smallKey.size) =
        .error (.abort .wordOverflow) := by
  have hm : (ofRsa ⟨.rsaPkcsPss, saltParams 0xffffffffffffffff⟩).toOption =
      some ⟨.rsaPkcsPss, .rsa (.pss ⟨.sha256, .sha256, 2 ^ 64 - 1⟩) none⟩ := by decide +kernel
  refine ⟨Except.ok_of_toOption hm, smallKey_isLoaded, by decide +kernel, rfl, ?_⟩
  rw [Pss.verify_zeros smallKey_isLoaded.valid rfl]
  exact Pss.readEncoding_of_le (by decide)

end Rsa
end SoftToken
