import SoftToken.Proofs.SignerBinding
/-!
# Runs of a signer

A signer answers calls one after another. The step lemmas say what a call does to the core and to the
end of the operation. From them, a run of calls keeps its core, and once ended it stays so.
-/

namespace SoftToken

namespace Signer

/-- The answer to a call of an operation that has ended. -/
def notInitialized : Except Failure Answer := .error (.error (.bare .operationNotInitialized))

/-- The answer to a signature of the wrong length for a code. -/
def wrongLength : Except Failure Answer := .error (.error (.bare .signatureLenRange))

/-- Whether a call asks for the signature or the verdict. -/
def Call.isFinal : Call → Bool
  | .update _ => false
  | .generate | .verify _ => true

/-- Whether a call is refused for the length of its signature alone. -/
def refuses (s : Signer) : Call → Bool
  | .verify signature => s.refusesLength signature
  | _ => false

/-- The calls of a run with their answers. -/
def answers (s : Signer) : List Call → RandomSource → List (Call × Except Failure Answer)
  | [], _ => []
  | c :: cs, t => (c, ((s.answer c).on t).1) :: (s.next c).answers cs ((s.answer c).on t).2

/-- After a call that asks for the signature or the verdict, every answer is that there is no operation. -/
def SingleUse (run : List (Call × Except Failure Answer)) : Prop :=
  run.Pairwise fun p q => p.1.isFinal = true → q.2 = notInitialized

/-! ## Steps -/

variable {s : Signer} {c : Call} {t : RandomSource}

@[simp] theorem core_next (s : Signer) (c : Call) : (s.next c).core = s.core := by
  cases c with
  | update data => simp only [next]; split <;> rfl
  | generate => rfl
  | verify signature => simp only [next]; split <;> rfl

theorem refuses_congr {s s' : Signer} (h : s.core = s'.core) (c : Call) : s.refuses c = s'.refuses c := by
  cases c with
  | verify signature => simp only [refuses, refusesLength, h]
  | _ => rfl

@[simp] theorem refuses_next (s : Signer) (c c' : Call) : (s.next c).refuses c' = s.refuses c' :=
  refuses_congr (core_next s c) c'

/-- Only a call that asks for the signature or the verdict, and is not refused, ends the operation. -/
theorem ended_next (s : Signer) (c : Call) :
    (s.next c).ended = (s.ended || (c.isFinal && !s.refuses c)) := by
  cases c with
  | update data => simp only [next, Call.isFinal]; split <;> simp [*]
  | generate => simp [next, finish, Call.isFinal, refuses]
  | verify signature => simp only [next, Call.isFinal, refuses]; split <;> simp [finish, *]

theorem refuses_signing {digest : Option Digest} {e : SigningEngine} (h : s.core = .signing digest e) (c : Call) :
    s.refuses c = false := by
  cases c with
  | verify signature => simp only [refuses, refusesLength, h]
  | _ => rfl

theorem refuses_verifying {digest : Option Digest} {e : VerifyingEngine} (h : s.core = .verifying digest e)
    (c : Call) : s.refuses c = false := by
  cases c with
  | verify signature => simp only [refuses, refusesLength, h]
  | _ => rfl

/-- Only a code refuses signatures for their length. -/
theorem exists_mac_of_refuses (h : s.refuses c = true) : ∃ mac length, s.core = .mac mac length := by
  cases hc : s.core with
  | mac mac length => exact ⟨mac, length, rfl⟩
  | signing digest e => rw [refuses_signing hc] at h; cases h
  | verifying digest e => rw [refuses_verifying hc] at h; cases h

/-- A signer that is bound to an engine refuses no signature for its length. -/
theorem refuses_of_engine {d : Direction} (hs : s.core.Serves false d) (c : Call) : s.refuses c = false := by
  refine Bool.eq_false_iff.2 fun h => ?_
  obtain ⟨mac, length, hc⟩ := exists_mac_of_refuses h
  rw [hc] at hs
  cases hs

/-- A signer that serves a code works with one. -/
theorem exists_mac_of_code {d : Direction} (hs : s.core.Serves true d) : ∃ mac length, s.core = .mac mac length := by
  cases hc : s.core with
  | mac mac length => exact ⟨mac, length, rfl⟩
  | signing digest e => rw [hc] at hs; cases hs.1
  | verifying digest e => rw [hc] at hs; cases hs.1

theorem requireOpen_open (h : s.ended = false) : s.requireOpen = .ok () := by simp [requireOpen, h]

theorem requireOpen_ended (h : s.ended = true) : s.requireOpen = fail .operationNotInitialized := by
  simp [requireOpen, h]

theorem answer_update (h : s.ended = false) (data : Bytes) :
    (s.answer (.update data)).on t = (.ok .updated, t) := by
  have hu : s.update data = .ok { s with message := s.message ++ data } := by
    unfold update; rw [requireOpen_open h]; rfl
  unfold answer; simp only; rw [hu]; rfl

theorem answer_refused (h : s.refuses c = true) : (s.answer c).on t = (wrongLength, t) := by
  obtain ⟨mac, length, hc⟩ := exists_mac_of_refuses h
  cases c with
  | verify signature =>
    have hl : signature.length ≠ length := by simpa [refuses, refusesLength, hc] using h
    have hv : s.verify signature = .error (.error (.bare .signatureLenRange)) := by
      unfold verify; rw [hc]; exact if_pos hl
    unfold answer; simp only; rw [hv]; rfl
  | _ => cases h

theorem answer_ended (h : s.ended = true) (hr : s.refuses c = false) :
    (s.answer c).on t = (notInitialized, t) := by
  cases c with
  | update data =>
    have hu : s.update data = fail .operationNotInitialized := by
      unfold update; rw [requireOpen_ended h]; rfl
    unfold answer; simp only; rw [hu]; rfl
  | generate =>
    have hg : s.generate = throw (.error (.bare .operationNotInitialized)) := by
      unfold generate; rw [requireOpen_ended h]; rfl
    unfold answer; simp only; rw [hg]; rfl
  | verify signature =>
    have hv : s.verify signature = .error (.error (.bare .operationNotInitialized)) := by
      unfold verify
      cases hc : s.core with
      | mac mac length =>
        have hl : ¬ signature.length ≠ length := by simpa [refuses, refusesLength, hc] using hr
        simp only [if_neg hl, requireOpen_ended h]; rfl
      | signing digest e => simp only [requireOpen_ended h]; rfl
      | verifying digest e => simp only [requireOpen_ended h]; rfl
    unfold answer; simp only; rw [hv]; rfl

theorem answer_generate_mac {mac : Mac} {length : Nat} (hc : s.core = .mac mac length) (h : s.ended = false) :
    (s.answer .generate).on t = (.ok (.signature (code mac length s.message)), t) := by
  have hg : s.generate = pure (code mac length s.message) := by
    unfold generate; rw [requireOpen_open h, hc]; rfl
  unfold answer; simp only; rw [hg]; rfl

theorem answer_generate_verifying {digest : Option Digest} {e : VerifyingEngine}
    (hc : s.core = .verifying digest e) (h : s.ended = false) :
    (s.answer .generate).on t = (.error (.error (.invariant .signatureOnVerification)), t) := by
  have hg : s.generate = throw (.error (.invariant .signatureOnVerification)) := by
    unfold generate; rw [requireOpen_open h, hc]; rfl
  unfold answer; simp only; rw [hg]; rfl

/-- An open code accepts every call but those of the wrong length. -/
theorem answer_mac_ne {mac : Mac} {length : Nat} (hc : s.core = .mac mac length) (h : s.ended = false)
    (c : Call) (t : RandomSource) : ((s.answer c).on t).1 ≠ notInitialized := by
  by_cases hr : s.refuses c = true
  · rw [answer_refused hr]; nofun
  cases c with
  | update data => rw [answer_update h]; nofun
  | generate => rw [answer_generate_mac hc h]; nofun
  | verify signature =>
    have hl : ¬ signature.length ≠ length := by simpa [refuses, refusesLength, hc] using hr
    have hv : s.verify signature = .ok (code mac length s.message == signature) := by
      unfold verify; simp only [hc, if_neg hl, requireOpen_open h]; rfl
    unfold answer; simp only; rw [hv]; nofun

/-! ## Runs -/

theorem mem_calls_of_answers {p : Call × Except Failure Answer} {cs : List Call}
    (h : p ∈ s.answers cs t) : p.1 ∈ cs := by
  induction cs generalizing s t with
  | nil => cases h
  | cons c cs ih =>
    rcases List.mem_cons.1 h with rfl | h
    · exact List.mem_cons_self
    · exact List.mem_cons_of_mem _ (ih h)

/-- Once the operation has ended, it stays so. -/
theorem answers_ended (h : s.ended = true) {p : Call × Except Failure Answer} {cs : List Call}
    (hp : p ∈ s.answers cs t) : p.2 = if s.refuses p.1 then wrongLength else notInitialized := by
  induction cs generalizing s t with
  | nil => cases hp
  | cons c cs ih =>
    rcases List.mem_cons.1 hp with rfl | hp
    · by_cases hr : s.refuses c = true
      · rw [if_pos hr, answer_refused hr]
      · rw [if_neg hr, answer_ended h (by simpa using hr)]
    · rw [ih (by rw [ended_next, h]; rfl) hp, refuses_next]

theorem singleUse_of_ended (h : s.ended = true) {cs : List Call} (hr : ∀ c ∈ cs, s.refuses c = false) :
    SingleUse (s.answers cs t) := by
  refine List.pairwise_of_forall_mem_list fun p _ q hq _ => ?_
  rw [answers_ended h hq, hr _ (mem_calls_of_answers hq)]; rfl

theorem exists_answer {cs : List Call} (hc : c ∈ cs) (s : Signer) (t : RandomSource) :
    ∃ r, (c, r) ∈ s.answers cs t := by
  induction cs generalizing s t with
  | nil => cases hc
  | cons c' cs ih =>
    rcases List.mem_cons.1 hc with rfl | hc
    · exact ⟨_, List.mem_cons_self⟩
    · obtain ⟨r, hr⟩ := ih hc (s.next c') ((s.answer c').on t).2
      exact ⟨r, List.mem_cons_of_mem _ hr⟩

/-- Behind an accepted final call, only a signature of the wrong length has another answer. -/
theorem singleUse_cons_accepted (hf : c.isFinal = true) (hr : s.refuses c = false) (cs : List Call)
    (t : RandomSource) : SingleUse (s.answers (c :: cs) t) ↔ ∀ c' ∈ cs, s.refuses c' = false := by
  have he : (s.next c).ended = true := by rw [ended_next, hf, hr]; simp
  constructor
  · intro h c' hc'
    obtain ⟨r, hm⟩ := exists_answer hc' (s.next c) ((s.answer c).on t).2
    have hn : r = notInitialized := (List.pairwise_cons.1 h).1 _ hm hf
    have hw := answers_ended he hm
    cases hr' : s.refuses c' with
    | false => rfl
    | true =>
      rw [refuses_next, if_pos hr'] at hw
      cases hn.symm.trans hw
  · intro h
    have h' : ∀ c' ∈ cs, (s.next c).refuses c' = false := fun c' hc' => by rw [refuses_next]; exact h c' hc'
    refine List.pairwise_cons.2 ⟨fun q hq _ => ?_, singleUse_of_ended he h'⟩
    rw [answers_ended he hq, h' _ (mem_calls_of_answers hq)]; rfl

/-- A refused final call leaves the operation open, so that the law fails at the next call. -/
theorem singleUse_cons_refused (h : s.ended = false) (hf : c.isFinal = true) (hr : s.refuses c = true)
    (cs : List Call) (t : RandomSource) : SingleUse (s.answers (c :: cs) t) ↔ cs = [] := by
  constructor
  · intro hu
    cases cs with
    | nil => rfl
    | cons c' cs =>
      have hn := (List.pairwise_cons.1 hu).1 _ List.mem_cons_self hf
      obtain ⟨mac, length, hc⟩ := exists_mac_of_refuses hr
      refine absurd hn (answer_mac_ne ((core_next s c).trans hc) ?_ c' _)
      rw [ended_next, h, hr]; simp
  · rintro rfl
    exact List.pairwise_singleton _ _

/-- The exact condition for a run from an open operation to be single use: of two calls of which the
first asks for the signature or the verdict, none is refused for its length. -/
theorem singleUse_answers (h : s.ended = false) (cs : List Call) (t : RandomSource) :
    SingleUse (s.answers cs t) ↔
      cs.Pairwise fun c c' => c.isFinal = true → s.refuses c = false ∧ s.refuses c' = false := by
  induction cs generalizing s t with
  | nil => exact ⟨fun _ => .nil, fun _ => .nil⟩
  | cons c cs ih =>
    by_cases hf : c.isFinal = true
    · by_cases hr : s.refuses c = true
      · rw [singleUse_cons_refused h hf hr, List.pairwise_cons]
        constructor
        · rintro rfl; exact ⟨nofun, .nil⟩
        · rintro ⟨hc, -⟩
          cases cs with
          | nil => rfl
          | cons c' cs => rw [(hc c' List.mem_cons_self hf).1] at hr; cases hr
      · have hr' : s.refuses c = false := by simpa using hr
        rw [singleUse_cons_accepted hf hr', List.pairwise_cons]
        refine ⟨fun hc => ⟨fun c' hc' _ => ⟨hr', hc c' hc'⟩, ?_⟩, fun hc c' hc' => (hc.1 c' hc' hf).2⟩
        exact List.pairwise_of_forall_mem_list fun a ha b hb _ => ⟨hc a ha, hc b hb⟩
    · have he : (s.next c).ended = false := by rw [ended_next, h]; simp [hf]
      have ih' := ih he ((s.answer c).on t).2
      simp only [refuses_next] at ih'
      rw [List.pairwise_cons, ← ih']
      refine ⟨fun hu => ⟨fun _ _ hc => absurd hc hf, (List.pairwise_cons.1 hu).2⟩, fun hu => ?_⟩
      exact List.pairwise_cons.2 ⟨fun _ _ hc => absurd hc hf, hu.2⟩

end Signer
end SoftToken
