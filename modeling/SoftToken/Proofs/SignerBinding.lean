import SoftToken.Proofs.Draws
import SoftToken.Registry
/-!
# What a signer is bound to

A signer is made by a registered mechanism, for a key and for one direction. `Registry.opened` says
what is known of every new one: the key allows the direction's usage, the operation is open, and the
signer works with a code for the mechanism families of codes and with an engine of its direction for
the others.
-/

namespace SoftToken

/-- What a signer is bound to a key for. -/
inductive Direction where
  | signing
  | verifying
deriving DecidableEq, Repr

/-- The usage a key must allow. -/
def Direction.usage : Direction → AttributeId
  | signing => .sign
  | verifying => .verify

/-- Whether a scheme is a message authentication code. -/
def SignatureScheme.isCode : SignatureScheme → Bool
  | .hmac _ _ _ | .cmac _ _ | .poly1305 => true
  | _ => false

/-- Whether the mechanisms of a family are message authentication codes. -/
def MechanismFamily.isCode : MechanismFamily → Bool
  | .hmac | .cmac | .poly1305 => true
  | _ => false

/-- The signer of a method and a key in one direction. -/
def SignatureMethod.bindTowards (m : SignatureMethod) (key : Object) : Direction → Except Error Signer
  | .signing => do return (← m.bindSigning key).signer
  | .verifying => m.bindVerifying key

/-- The signer of a registered mechanism and a key in one direction. -/
def Registry.openSigner (g : Registry) (preference : HedgePreference) (m : Mechanism) (key : Object)
    (d : Direction) : Except Error Signer := do
  (← g.signatureMethod preference m).bindTowards key d

/-- The core is a code, or an engine of the direction. -/
def SignerCore.Serves (core : SignerCore) (code : Bool) (d : Direction) : Prop :=
  match core with
  | .mac _ _ => code = true
  | .signing _ _ => code = false ∧ d = .signing
  | .verifying _ _ => code = false ∧ d = .verifying

/-! ## The usage of the key -/

theorem Object.flag_of_checkPermission {o : Object} {usage : AttributeId} {u : Unit}
    (h : o.checkPermission usage = .ok u) : o.flag usage false = true :=
  (Except.ite_refuse_ok.1 h).1

theorem Object.flag_of_bind {o : Object} {m : MechanismId} {usage : AttributeId} {expected : String}
    {accept : KeyKind → Bool} {k : KeyKind} (h : o.bind m usage expected accept = .ok k) :
    o.flag usage false = true := by
  obtain ⟨k', -, h⟩ := Except.bind_ok.1 h
  obtain ⟨-, h⟩ := Except.ite_refuse_ok.1 h
  obtain ⟨_, h, -⟩ := Except.bind_ok.1 h
  exact Object.flag_of_checkPermission h

/-- A sequence that starts by binding a key succeeds only if the key allows the usage. -/
theorem Object.flag_of_bind_then {α : Type} {o : Object} {m : MechanismId} {usage : AttributeId}
    {expected : String} {accept : KeyKind → Bool} {f : Unit → Except Error α} {a : α}
    (h : (discard (o.bind m usage expected accept) >>= f) = .ok a) : o.flag usage false = true := by
  obtain ⟨_, h, -⟩ := Except.bind_ok.1 h
  obtain ⟨k, h⟩ := Except.discard_ok.1 h
  exact Object.flag_of_bind h

namespace SignatureMethod

open SignatureScheme

variable {m : SignatureMethod} {key : Object}

theorem flag_of_bindSecret {id : MechanismId} {usage : AttributeId} {expected : String}
    {types : List KeyType} {b : Bytes} (h : bindSecret id key usage expected types = .ok b) :
    key.flag usage false = true :=
  Object.flag_of_bind_then h

theorem flag_of_signingEngine {r : Option Digest × SigningEngine} (h : m.signingEngine key = .ok r) :
    key.flag .sign false = true := by
  unfold signingEngine at h
  split at h
  case h_6 => cases h
  all_goals exact Object.flag_of_bind_then h

theorem flag_of_verifyingEngine {r : Option Digest × VerifyingEngine} (h : m.verifyingEngine key = .ok r) :
    key.flag .verify false = true := by
  unfold verifyingEngine at h
  split at h
  case h_6 => cases h
  all_goals exact Object.flag_of_bind_then h

/-! ## Engines -/

/-- How a private key makes the engine of a scheme: its view of the scheme's kind is read and checked. -/
inductive SigningEngineOf (key : Object) : SignatureScheme → Option Digest × SigningEngine → Prop
  | rsa {scheme : Rsa.Scheme} {digest : Option Digest} {v : RsaPrivateKey} {k : Rsa.Key}
    (hv : RsaPrivateKey.ofObject key = .ok v) (hk : Rsa.Key.ofPrivate v = .ok k) :
    SigningEngineOf key (.rsa scheme digest) (digest, .rsa scheme k)
  | ecdsa {digest : Option Digest} {v : EcPrivateKey} (hv : EcPrivateKey.ofObject key .ec = .ok v) :
    SigningEngineOf key (.ecdsa digest) (digest, .ecdsa v.curve v.value)
  | eddsa {mode : Edwards25519.Mode} {v : EcPrivateKey} (hv : EcPrivateKey.ofObject key .ecEdwards = .ok v)
    (hcurve : v.curve = .ed25519) (hlength : v.value.length = Edwards25519.keyLength) :
    SigningEngineOf key (.eddsa mode) (none, .ed25519 mode v.value)
  | mlDsa {o : SigningOptions} {v : SetKey} {set : MlDsa.Parameters} {sizes : ParameterSizes}
    (hv : SetKey.ofPrivate .mlDsa key = .ok v) (hset : mlDsaSet v.parameterSet = .ok (set, sizes)) :
    SigningEngineOf key (.mlDsa o) (none, .mlDsa set sizes o v.value)
  | slhDsa {o : SigningOptions} {v : SetKey} {set : SlhDsa.Parameters} {sizes : ParameterSizes}
    (hv : SetKey.ofPrivate .slhDsa key = .ok v) (hset : slhDsaSet v.parameterSet = .ok (set, sizes)) :
    SigningEngineOf key (.slhDsa o) (none, .slhDsa set sizes o v.value)

theorem signingEngine_ok {r : Option Digest × SigningEngine} (h : m.signingEngine key = .ok r) :
    SigningEngineOf key m.scheme r := by
  unfold signingEngine at h
  split at h
  case h_6 => cases h
  case h_1 hscheme =>
    obtain ⟨_, -, h⟩ := Except.bind_ok.1 h
    obtain ⟨v, hv, h⟩ := Except.bind_ok.1 h
    obtain ⟨k, hk, h⟩ := Except.bind_ok.1 h
    cases h
    rw [hscheme]
    exact .rsa hv hk
  case h_2 hscheme =>
    obtain ⟨_, -, h⟩ := Except.bind_ok.1 h
    obtain ⟨v, hv, h⟩ := Except.bind_ok.1 h
    cases h
    rw [hscheme]
    exact .ecdsa hv
  case h_3 hscheme =>
    obtain ⟨_, -, h⟩ := Except.bind_ok.1 h
    obtain ⟨v, hv, h⟩ := Except.bind_ok.1 h
    obtain ⟨_, hcurve, h⟩ := Except.bind_ok.1 h
    obtain ⟨_, hlength, h⟩ := Except.bind_ok.1 h
    cases h
    rw [hscheme]
    exact .eddsa hv (Except.ite_refuse_ok.1 hcurve).1 (Except.ite_refuse_ok.1 hlength).1
  case h_4 hscheme =>
    obtain ⟨_, -, h⟩ := Except.bind_ok.1 h
    obtain ⟨v, hv, h⟩ := Except.bind_ok.1 h
    obtain ⟨⟨set, sizes⟩, hset, h⟩ := Except.bind_ok.1 h
    cases h
    rw [hscheme]
    exact .mlDsa hv hset
  case h_5 hscheme =>
    obtain ⟨_, -, h⟩ := Except.bind_ok.1 h
    obtain ⟨v, hv, h⟩ := Except.bind_ok.1 h
    obtain ⟨⟨set, sizes⟩, hset, h⟩ := Except.bind_ok.1 h
    cases h
    rw [hscheme]
    exact .slhDsa hv hset

/-- How a public key makes the engine of a scheme: its view of the scheme's kind is read and checked. -/
inductive VerifyingEngineOf (key : Object) : SignatureScheme → Option Digest × VerifyingEngine → Prop
  | rsa {scheme : Rsa.Scheme} {digest : Option Digest} {v : RsaPublicKey} {k : Rsa.Key}
    (hv : RsaPublicKey.ofObject key = .ok v) (hk : Rsa.Key.ofPublic v = .ok k) :
    VerifyingEngineOf key (.rsa scheme digest) (digest, .rsa scheme k)
  | ecdsa {digest : Option Digest} {v : EcPublicKey} (hv : EcPublicKey.ofObject key .ec = .ok v) :
    VerifyingEngineOf key (.ecdsa digest) (digest, .ecdsa v.curve v.point)
  | eddsa {mode : Edwards25519.Mode} {v : EcPublicKey} {point : Edwards25519.Point}
    (hv : EcPublicKey.ofObject key .ecEdwards = .ok v) (hcurve : v.curve = .ed25519)
    (hlength : v.point.length = Edwards25519.keyLength) (hpoint : Edwards25519.decode? v.point = some point) :
    VerifyingEngineOf key (.eddsa mode) (none, .ed25519 mode v.point point)
  | mlDsa {o : SigningOptions} {v : SetKey} {set : MlDsa.Parameters} {sizes : ParameterSizes}
    (hv : SetKey.ofPublic .mlDsa key = .ok v) (hset : mlDsaSet v.parameterSet = .ok (set, sizes)) :
    VerifyingEngineOf key (.mlDsa o) (none, .mlDsa set sizes o v.value)
  | slhDsa {o : SigningOptions} {v : SetKey} {set : SlhDsa.Parameters} {sizes : ParameterSizes}
    (hv : SetKey.ofPublic .slhDsa key = .ok v) (hset : slhDsaSet v.parameterSet = .ok (set, sizes)) :
    VerifyingEngineOf key (.slhDsa o) (none, .slhDsa set sizes o v.value)

theorem verifyingEngine_ok {r : Option Digest × VerifyingEngine} (h : m.verifyingEngine key = .ok r) :
    VerifyingEngineOf key m.scheme r := by
  unfold verifyingEngine at h
  split at h
  case h_6 => cases h
  case h_1 hscheme =>
    obtain ⟨_, -, h⟩ := Except.bind_ok.1 h
    obtain ⟨v, hv, h⟩ := Except.bind_ok.1 h
    obtain ⟨k, hk, h⟩ := Except.bind_ok.1 h
    cases h
    rw [hscheme]
    exact .rsa hv hk
  case h_2 hscheme =>
    obtain ⟨_, -, h⟩ := Except.bind_ok.1 h
    obtain ⟨v, hv, h⟩ := Except.bind_ok.1 h
    cases h
    rw [hscheme]
    exact .ecdsa hv
  case h_3 hscheme =>
    obtain ⟨_, -, h⟩ := Except.bind_ok.1 h
    obtain ⟨v, hv, h⟩ := Except.bind_ok.1 h
    obtain ⟨_, hcurve, h⟩ := Except.bind_ok.1 h
    obtain ⟨_, hlength, h⟩ := Except.bind_ok.1 h
    split at h
    · next point hpoint =>
      cases h
      rw [hscheme]
      exact .eddsa hv (Except.ite_refuse_ok.1 hcurve).1 (Except.ite_refuse_ok.1 hlength).1 hpoint
    · cases h
  case h_4 hscheme =>
    obtain ⟨_, -, h⟩ := Except.bind_ok.1 h
    obtain ⟨v, hv, h⟩ := Except.bind_ok.1 h
    obtain ⟨⟨set, sizes⟩, hset, h⟩ := Except.bind_ok.1 h
    cases h
    rw [hscheme]
    exact .mlDsa hv hset
  case h_5 hscheme =>
    obtain ⟨_, -, h⟩ := Except.bind_ok.1 h
    obtain ⟨v, hv, h⟩ := Except.bind_ok.1 h
    obtain ⟨⟨set, sizes⟩, hset, h⟩ := Except.bind_ok.1 h
    cases h
    rw [hscheme]
    exact .slhDsa hv hset

/-! ## New signers -/

theorem ofMac_ok {id : MechanismId} {mac : Mac} {requested : Option Nat} {s : Signer}
    (h : Signer.ofMac id mac requested = .ok s) :
    s = { mechanism := id, core := .mac mac (requested.getD mac.length) } := by
  simp only [Signer.ofMac] at h
  split at h
  · cases h
  · cases h; rfl

/-- A code is bound if and only if the scheme is one, to a key that allows the usage. -/
theorem bindCode_some {usage : AttributeId} {code : Except Error Signer} {s : Signer}
    (hc : m.bindCode? key usage = some code) (h : code = .ok s) :
    key.flag usage false = true ∧ m.scheme.isCode = true ∧
      ∃ mac length, s = { mechanism := m.mechanism, core := .mac mac length } := by
  unfold bindCode? at hc
  split at hc
  · cases hc
    obtain ⟨b, hb, h⟩ := Except.bind_ok.1 h
    exact ⟨flag_of_bindSecret hb, by simp [isCode, *], _, _, ofMac_ok h⟩
  · cases hc
    obtain ⟨b, hb, h⟩ := Except.bind_ok.1 h
    obtain ⟨mac, -, h⟩ := Except.bind_ok.1 h
    exact ⟨flag_of_bindSecret hb, by simp [isCode, *], _, _, ofMac_ok h⟩
  · cases hc
    obtain ⟨b, hb, h⟩ := Except.bind_ok.1 h
    obtain ⟨mac, -, h⟩ := Except.bind_ok.1 h
    exact ⟨flag_of_bindSecret hb, by simp [isCode, *], _, _, ofMac_ok h⟩
  · cases hc

theorem bindCode_none {usage : AttributeId} (h : m.bindCode? key usage = none) : m.scheme.isCode = false := by
  unfold bindCode? at h
  split at h
  case h_4 => unfold isCode; split <;> simp_all
  all_goals cases h

/-- How a method and a key make a signer: as a code, or else of the engine of the direction. -/
inductive Makes (m : SignatureMethod) (key : Object) : Direction → Signer → Prop
  | code {d : Direction} {s : Signer} (h : m.bindCode? key d.usage = some (.ok s)) : Makes m key d s
  | signing {digest : Option Digest} {e : SigningEngine} (hc : m.bindCode? key .sign = none)
      (h : m.signingEngine key = .ok (digest, e)) :
      Makes m key .signing { mechanism := m.mechanism, core := .signing digest e }
  | verifying {digest : Option Digest} {e : VerifyingEngine} (hc : m.bindCode? key .verify = none)
      (h : m.verifyingEngine key = .ok (digest, e)) :
      Makes m key .verifying { mechanism := m.mechanism, core := .verifying digest e }

theorem makes_of_bindTowards {d : Direction} {s : Signer} (h : m.bindTowards key d = .ok s) : Makes m key d s := by
  cases d with
  | signing =>
    obtain ⟨b, hb, h⟩ := Except.bind_ok.1 h
    cases h
    unfold bindSigning at hb
    split at hb
    · next code hc =>
      obtain ⟨s, rfl, hb⟩ := Except.bind_ok.1 hb
      cases hb
      exact .code hc
    · next hc =>
      obtain ⟨⟨digest, e⟩, he, hb⟩ := Except.bind_ok.1 hb
      cases hb
      exact .signing hc he
  | verifying =>
    replace h : m.bindVerifying key = .ok s := h
    unfold bindVerifying at h
    split at h
    · next code hc =>
      subst h
      exact .code hc
    · next hc =>
      obtain ⟨⟨digest, e⟩, he, h⟩ := Except.bind_ok.1 h
      cases h
      exact .verifying hc he

/-- What is known of the signer of a method. -/
theorem bound {d : Direction} {s : Signer} (h : m.bindTowards key d = .ok s) :
    key.flag d.usage false = true ∧ s.ended = false ∧ s.message = [] ∧ s.core.Serves m.scheme.isCode d := by
  cases makes_of_bindTowards h with
  | code hc =>
    obtain ⟨hf, hi, mac, length, rfl⟩ := bindCode_some hc rfl
    exact ⟨hf, rfl, rfl, hi⟩
  | signing hc he => exact ⟨flag_of_signingEngine he, rfl, rfl, bindCode_none hc, rfl⟩
  | verifying hc he => exact ⟨flag_of_verifyingEngine he, rfl, rfl, bindCode_none hc, rfl⟩

end SignatureMethod

/-! ## From the registry -/

namespace SignatureMethod

variable {m : Mechanism} {sm : SignatureMethod}

theorem isCode_ofHmac (h : ofHmac m = .ok sm) : sm.scheme.isCode = true := by
  unfold ofHmac at h
  split at h
  · obtain ⟨length, -, h⟩ := Except.bind_ok.1 h
    cases h; rfl
  · cases h

theorem isCode_ofCmac (h : ofCmac m = .ok sm) : sm.scheme.isCode = true := by
  unfold ofCmac at h
  split at h
  · obtain ⟨length, -, h⟩ := Except.bind_ok.1 h
    cases h; rfl
  · cases h

theorem isCode_ofPoly1305 (h : ofPoly1305 m = .ok sm) : sm.scheme.isCode = true := by
  obtain ⟨_, -, h⟩ := Except.bind_ok.1 h
  cases h; rfl

theorem scheme_ofRsa (h : ofRsa m = .ok sm) : ∃ scheme digest, sm.scheme = .rsa scheme digest := by
  unfold ofRsa at h
  split at h
  · cases h; exact ⟨_, _, rfl⟩
  split at h
  · cases h; exact ⟨_, _, rfl⟩
  split at h
  · cases h; exact ⟨_, _, rfl⟩
  split at h
  · obtain ⟨scheme, -, h⟩ := Except.bind_ok.1 h
    cases h; exact ⟨_, _, rfl⟩
  split at h
  · cases h; exact ⟨_, _, rfl⟩
  · obtain ⟨scheme, -, h⟩ := Except.bind_ok.1 h
    cases h; exact ⟨_, _, rfl⟩
  · cases h

theorem scheme_ofEcdsa (h : ofEcdsa m = .ok sm) : ∃ digest, sm.scheme = .ecdsa digest := by
  unfold ofEcdsa at h
  split at h
  · obtain ⟨_, -, h⟩ := Except.bind_ok.1 h
    cases h; exact ⟨_, rfl⟩
  · cases h

theorem scheme_ofEddsa (h : ofEddsa m = .ok sm) : ∃ mode, sm.scheme = .eddsa mode := by
  obtain ⟨p, -, h⟩ := Except.bind_ok.1 h
  split at h
  · cases h; exact ⟨_, rfl⟩
  · obtain ⟨mode, -, h⟩ := Except.bind_ok.1 h
    cases h; exact ⟨_, rfl⟩

theorem isCode_ofRsa (h : ofRsa m = .ok sm) : sm.scheme.isCode = false := by
  obtain ⟨scheme, digest, h⟩ := scheme_ofRsa h
  rw [h]; rfl

theorem isCode_ofEcdsa (h : ofEcdsa m = .ok sm) : sm.scheme.isCode = false := by
  obtain ⟨digest, h⟩ := scheme_ofEcdsa h
  rw [h]; rfl

theorem isCode_ofEddsa (h : ofEddsa m = .ok sm) : sm.scheme.isCode = false := by
  obtain ⟨mode, h⟩ := scheme_ofEddsa h
  rw [h]; rfl

theorem isCode_ofMlDsa {preference : HedgePreference} (h : ofMlDsa m preference = .ok sm) :
    sm.scheme.isCode = false := by
  obtain ⟨options, -, h⟩ := Except.bind_ok.1 h
  cases h; rfl

theorem isCode_ofSlhDsa {preference : HedgePreference} (h : ofSlhDsa m preference = .ok sm) :
    sm.scheme.isCode = false := by
  obtain ⟨options, -, h⟩ := Except.bind_ok.1 h
  cases h; rfl

end SignatureMethod

/-- The families of codes are those whose methods are codes. -/
theorem MechanismFamily.isCode_signatureMethod {f : MechanismFamily} {m : Mechanism}
    {preference : HedgePreference} {sm : SignatureMethod} (h : f.signatureMethod m preference = .ok sm) :
    sm.scheme.isCode = f.isCode := by
  cases f with
  | cmac => exact SignatureMethod.isCode_ofCmac h
  | hmac => exact SignatureMethod.isCode_ofHmac h
  | poly1305 => exact SignatureMethod.isCode_ofPoly1305 h
  | rsaPkcs => exact SignatureMethod.isCode_ofRsa h
  | rsaSignature => exact SignatureMethod.isCode_ofRsa h
  | ecdsa => exact SignatureMethod.isCode_ofEcdsa h
  | eddsa => exact SignatureMethod.isCode_ofEddsa h
  | mlDsa => exact SignatureMethod.isCode_ofMlDsa h
  | slhDsa => exact SignatureMethod.isCode_ofSlhDsa h
  | _ => cases h

theorem Registry.findFor_ok {g : Registry} {m : MechanismId} {op : Operation} {f : MechanismFamily}
    (h : g.findFor m op = .ok f) : g.find? m = some f ∧ f.info.supports op = true := by
  obtain ⟨f', hf, h⟩ := Except.bind_ok.1 h
  obtain ⟨hs, h⟩ := Except.ite_refuse_ok.1 h
  cases h
  unfold Registry.find at hf
  split at hf
  · cases hf; exact ⟨‹_›, hs⟩
  · cases hf

theorem Registry.findFor_of_supports {g : Registry} {m : MechanismId} {op : Operation} {f : MechanismFamily}
    (hf : g.find? m = some f) (hop : f.info.supports op = true) : g.findFor m op = .ok f := by
  unfold findFor Registry.find
  rw [hf]
  exact if_pos hop

/-- What is known of a new signer. -/
theorem Registry.opened {g : Registry} {preference : HedgePreference} {m : Mechanism} {key : Object}
    {d : Direction} {s : Signer} {f : MechanismFamily} (hf : g.find? m.id = some f)
    (h : g.openSigner preference m key d = .ok s) :
    key.flag d.usage false = true ∧ s.ended = false ∧ s.message = [] ∧ s.core.Serves f.isCode d := by
  obtain ⟨sm, hm, h⟩ := Except.bind_ok.1 h
  obtain ⟨f', hf', hm⟩ := Except.bind_ok.1 hm
  obtain rfl : f = f' := by simpa [hf] using (findFor_ok hf').1
  rw [← MechanismFamily.isCode_signatureMethod hm]
  exact SignatureMethod.bound h

end SoftToken
