import SoftToken.Proofs.HashBound
import SoftToken.Proofs.SignerLaws
/-!
# A message in pieces

A signer takes a message in pieces, and how the message is cut does not matter (`Registry.answers_pieces`): the pieces
of any cut are accepted one by one, and the calls after them have the same answers.

A signer need not keep the message. Digests and codes are computed while the pieces come in, by primitives that are
streaming: to take in one piece and then another is to take in both in a row (`Accumulator`). A signer that runs on
such primitives keeps their state, or the message itself where the scheme needs it whole (`RunningSigner`). It answers
every run as the signer that keeps the message (`RunningSigner.answers_eq`), so that cuts do not matter to it either.
-/

namespace SoftToken

/-! ## Streaming primitives -/

/-- A streaming computation of a function of a message. -/
structure Accumulator (f : Bytes → Bytes) where
  State : Type
  start : State
  absorb : State → Bytes → State
  finish : State → Bytes
  absorb_nil : ∀ s, absorb s [] = s
  absorb_append : ∀ s a b, absorb (absorb s a) b = absorb s (a ++ b)
  finish_absorb : ∀ message, finish (absorb start message) = f message

namespace Accumulator

/-- A buffer computes any function of the message it keeps. -/
def buffer (f : Bytes → Bytes) : Accumulator f where
  State := Bytes
  start := []
  absorb := (· ++ ·)
  finish := f
  absorb_nil := List.append_nil
  absorb_append := List.append_assoc
  finish_absorb _ := rfl

/-- HMAC runs on the digest: the masked key goes in first. -/
def hmac {d : Digest} (A : Accumulator d.hash) (key : Bytes) : Accumulator (Hmac.hmac d key) where
  State := A.State
  start := A.absorb A.start (Hmac.maskedKey d key 0x36)
  absorb := A.absorb
  finish s := d.hash (Hmac.maskedKey d key 0x5c ++ A.finish s)
  absorb_nil := A.absorb_nil
  absorb_append := A.absorb_append
  finish_absorb message := by rw [A.absorb_append, A.finish_absorb]; rfl

end Accumulator

/-- The streaming primitives that signers run on. -/
structure Primitives where
  digest : (d : Digest) → Accumulator d.hash
  hmac : (d : Digest) → (key : Bytes) → Accumulator (Hmac.hmac d key)
  cmac : (c : BlockCipher) → (key : Bytes) → Accumulator (Mac.cmac c key).tag

/-- Primitives that keep the message; HMAC runs on the digest. -/
def Primitives.buffered : Primitives where
  digest d := .buffer d.hash
  hmac d := .hmac (.buffer d.hash)
  cmac c key := .buffer (Mac.cmac c key).tag

/-! ## What a core makes of a message -/

namespace SignerCore

/-- What is computed of the message: the full code, or what the engine works on. -/
def collect : SignerCore → Bytes → Bytes
  | mac code _ => code.tag
  | signing digest _ | verifying digest _ => Signer.digested digest

/-- The signature of what was computed. -/
def sign (core : SignerCore) (collected : Bytes) : Draw Bytes :=
  match core with
  | mac _ length => return collected.take length
  | signing _ e => e.sign collected
  | verifying _ _ => throw (.error (.invariant .signatureOnVerification))

/-- The verdict on a signature of what was computed. -/
def verify (core : SignerCore) (collected signature : Bytes) : Except Failure Bool :=
  match core with
  | mac _ length => return collected.take length == signature
  | signing _ e => e.verify collected signature
  | verifying _ e => e.verify collected signature

/-- Whether a signature is refused before anything else. -/
def refusesLength : SignerCore → Bytes → Bool
  | mac _ length, signature => signature.length != length
  | _, _ => false

end SignerCore

namespace Signer

theorem generate_eq (s : Signer) : s.generate = (do
    s.requireOpen
    s.core.sign (s.core.collect s.message)) := by
  unfold generate
  cases s.core <;> rfl

theorem verify_eq (s : Signer) (signature : Bytes) : s.verify signature = (do
    if s.core.refusesLength signature then throw (.error (.bare .signatureLenRange))
    s.requireOpen
    s.core.verify (s.core.collect s.message) signature) := by
  unfold verify
  cases s.core with
  | mac code length =>
    -- a code is refused for its length even after the operation has ended
    simp only [SignerCore.refusesLength, bne_iff_ne]
    rfl
  | signing digest e => rfl
  | verifying digest e => rfl

theorem refusesLength_eq (s : Signer) (signature : Bytes) :
    s.refusesLength signature = s.core.refusesLength signature := by
  unfold refusesLength
  cases s.core <;> rfl

end Signer

/-! ## Running signers -/

/-- The accumulator of a core. Poly1305 and the engines that take the message itself work on a buffer. -/
def Primitives.accumulator (P : Primitives) : (core : SignerCore) → Accumulator core.collect
  | .mac (.hmac d key) _ => P.hmac d key
  | .mac (.cmac c key) _ => P.cmac c key
  | .mac (.poly1305 _) _ => .buffer _
  | .signing (some d) _ | .verifying (some d) _ => P.digest d
  | .signing none _ | .verifying none _ => .buffer _

/-- A signer that runs on streaming primitives. -/
structure RunningSigner (P : Primitives) (core : SignerCore) where
  state : (P.accumulator core).State
  ended : Bool

namespace RunningSigner

open Signer

variable {P : Primitives} {core : SignerCore}

/-- A new signer. -/
def new (P : Primitives) (core : SignerCore) : RunningSigner P core := ⟨(P.accumulator core).start, false⟩

def requireOpen (r : RunningSigner P core) : Except Error Unit :=
  if r.ended then fail .operationNotInitialized else .ok ()

/-- What was computed of the message so far. -/
def collected (r : RunningSigner P core) : Bytes := (P.accumulator core).finish r.state

def verify (r : RunningSigner P core) (signature : Bytes) : Except Failure Bool := do
  if core.refusesLength signature then throw (.error (.bare .signatureLenRange))
  r.requireOpen
  core.verify r.collected signature

/-- The answer to a call. -/
def answer (r : RunningSigner P core) : Call → Draw Answer
  | .update _ => do
    r.requireOpen
    return .updated
  | .generate => .signature <$> (do
    r.requireOpen
    core.sign r.collected : Draw Bytes)
  | .verify signature => do return .verdict (← r.verify signature)

/-- The signer after a call. -/
def next (r : RunningSigner P core) : Call → RunningSigner P core
  | .update data => if r.ended then r else { r with state := (P.accumulator core).absorb r.state data }
  | .generate => { r with ended := true }
  | .verify signature => if core.refusesLength signature then r else { r with ended := true }

/-- The calls of a run with their answers. -/
def answers (r : RunningSigner P core) : List Call → RandomSource → List (Call × Except Failure Answer)
  | [], _ => []
  | c :: cs, t => (c, ((r.answer c).on t).1) :: (r.next c).answers cs ((r.answer c).on t).2

/-- The running signer has taken in the message that the other one keeps. -/
structure Represents (r : RunningSigner P core) (s : Signer) : Prop where
  core_eq : s.core = core
  ended_eq : r.ended = s.ended
  state_eq : r.state = (P.accumulator core).absorb (P.accumulator core).start s.message

theorem represents_new {s : Signer} (hopen : s.ended = false) (hempty : s.message = []) :
    (new P s.core).Represents s where
  core_eq := rfl
  ended_eq := hopen.symm
  state_eq := by rw [hempty]; exact ((P.accumulator s.core).absorb_nil _).symm

variable {r : RunningSigner P core} {s : Signer}

namespace Represents

theorem requireOpen_eq (h : r.Represents s) : r.requireOpen = s.requireOpen := by
  unfold requireOpen Signer.requireOpen
  rw [h.ended_eq]

theorem collected_eq (h : r.Represents s) : r.collected = s.core.collect s.message := by
  unfold collected
  rw [h.state_eq, (P.accumulator core).finish_absorb, h.core_eq]

/-- Both give the same answer to a call. -/
theorem answer_eq (h : r.Represents s) (c : Call) : r.answer c = s.answer c := by
  cases c with
  | update data =>
    unfold answer Signer.answer update
    simp only
    rw [h.requireOpen_eq]
    cases s.requireOpen <;> rfl
  | generate =>
    unfold answer Signer.answer
    rw [Signer.generate_eq, h.requireOpen_eq, h.collected_eq, h.core_eq]
  | verify signature =>
    unfold answer Signer.answer verify
    simp only
    rw [Signer.verify_eq, h.requireOpen_eq, h.collected_eq, h.core_eq]

/-- A call keeps the running signer on the message of the other one. -/
theorem next (h : r.Represents s) (c : Call) : (r.next c).Represents (s.next c) := by
  obtain ⟨hcore, hended, hstate⟩ := h
  cases c with
  | update data =>
    unfold RunningSigner.next Signer.next
    simp only
    rw [hended]
    split
    · exact ⟨hcore, hended, hstate⟩
    · -- the new piece goes to the end of the message, on both sides
      refine ⟨hcore, rfl, ?_⟩
      show (P.accumulator core).absorb r.state data = _
      rw [hstate, (P.accumulator core).absorb_append]
  | generate => exact ⟨hcore, rfl, hstate⟩
  | verify signature =>
    unfold RunningSigner.next Signer.next
    simp only
    rw [refusesLength_eq, hcore]
    split
    · exact ⟨hcore, hended, hstate⟩
    · exact ⟨hcore, rfl, hstate⟩

end Represents

/-- A running signer answers every run of calls as the signer that keeps the message. -/
theorem answers_eq (h : r.Represents s) (cs : List Call) (t : RandomSource) : r.answers cs t = s.answers cs t := by
  -- the message that the running state stands for carries the induction
  induction cs generalizing r s t with
  | nil => rfl
  | cons c cs ih =>
    rw [answers, Signer.answers, h.answer_eq c, ih (h.next c)]

end RunningSigner

/-! ## Cuts of a message -/

namespace Registry

open Signer

variable {g : Registry} {preference : HedgePreference} {m : Mechanism} {key : Object} {d : Direction} {s : Signer}

/-- However a message is cut, every piece is accepted and the calls after them have the same answers. A signer that
runs on streaming primitives gives these answers as well. -/
theorem answers_pieces (P : Primitives) (h : g.openSigner preference m key d = .ok s) (message : Bytes)
    (cs : List Call) (t : RandomSource) :
    ∃ rest, ∀ pieces : List Bytes, pieces.flatten = message →
      s.answers (pieces.map .update ++ cs) t = pieces.map (fun piece => (.update piece, .ok .updated)) ++ rest ∧
      (RunningSigner.new P s.core).answers (pieces.map .update ++ cs) t =
        pieces.map (fun piece => (.update piece, .ok .updated)) ++ rest := by
  obtain ⟨method, -, hbind⟩ := Except.bind_ok.1 h
  obtain ⟨-, hopen, hempty, -⟩ := SignatureMethod.bound hbind
  have hnew : (RunningSigner.new P s.core).Represents s := RunningSigner.represents_new hopen hempty
  refine ⟨(s.withMessage message).answers cs t, fun pieces hpieces => ?_⟩
  have hkept : s.answers (pieces.map .update ++ cs) t =
      pieces.map (fun piece => (.update piece, .ok .updated)) ++ (s.withMessage message).answers cs t := by
    rw [answers_updates hopen, hempty, List.nil_append, hpieces]
  exact ⟨hkept, (RunningSigner.answers_eq hnew _ t).trans hkept⟩

/-- A text in three pieces, one of them empty, and the same text at once. -/
theorem answers_pieces_hmac :
    full.openSigner .randomized ⟨.sha256Hmac, []⟩ verifyOnlyKey .verifying = .ok verifyOnlySigner ∧
      ∃ rest,
        verifyOnlySigner.answers [.update [0x61], .update [], .update [0x62, 0x63], .generate]
            .zeros =
          [(.update [0x61], .ok .updated), (.update [], .ok .updated), (.update [0x62, 0x63], .ok .updated)] ++ rest ∧
        (RunningSigner.new .buffered verifyOnlySigner.core).answers [.update [0x61, 0x62, 0x63], .generate]
            .zeros =
          [(.update [0x61, 0x62, 0x63], .ok .updated)] ++ rest := by
  obtain ⟨rest, hrest⟩ :=
    answers_pieces .buffered open_verifyOnly [0x61, 0x62, 0x63] [.generate] .zeros
  exact ⟨open_verifyOnly, rest, (hrest [[0x61], [], [0x62, 0x63]] rfl).1, (hrest [[0x61, 0x62, 0x63]] rfl).2⟩

end Registry
end SoftToken
