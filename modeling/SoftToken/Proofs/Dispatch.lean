import Mathlib.Data.List.Nodup
import Mathlib.Data.Nat.Bitwise
import SoftToken.Config
import SoftToken.Proofs.RequestErrors
/-!
# Dispatch of requests

A configuration leaves a registry of mechanisms, and a request reaches the family of its mechanism through
it. It is refused as a request for an invalid mechanism exactly if no family registers the mechanism, the
list of the configuration does not name it, or its flags lack that of the operation
(`Config.dispatch_exact`): what is advertised is never refused by its own family.
-/

namespace SoftToken

/-! ## Flags -/

namespace Operation

/-- The place of the flag of an operation. -/
def bit : Operation → Nat
  | sign => 11
  | verify => 13
  | derive => 19
  | encapsulate => 28
  | decapsulate => 29

theorem toNat_flag (op : Operation) : op.flag.toNat = 2 ^ op.bit := by cases op <;> rfl

theorem bit_inj {a b : Operation} (h : a.bit = b.bit) : a = b := by
  cases a <;> cases b <;> first | rfl | cases h

/-- A word has all bits of a flag if it has the one at its place. -/
theorem and_flag_iff {w : UInt64} {op : Operation} : w &&& op.flag = op.flag ↔ w.toNat.testBit op.bit = true := by
  rw [← UInt64.toNat_inj, UInt64.toNat_and, toNat_flag, Nat.and_two_pow]
  cases w.toNat.testBit op.bit with
  | true => simp
  | false => simpa using (Nat.two_pow_pos op.bit).ne

end Operation

namespace MechanismInfo

theorem testBit_foldl (ops : List Operation) (w : UInt64) (op : Operation) :
    (ops.foldl (fun f o => f ||| o.flag) w).toNat.testBit op.bit = (w.toNat.testBit op.bit || ops.contains op) := by
  induction ops generalizing w with
  | nil => simp
  | cons o ops ih =>
    have hbit : decide (o.bit = op.bit) = (op == o) := by
      rw [Bool.eq_iff_iff, decide_eq_true_iff, beq_iff_eq]
      exact ⟨fun h => (Operation.bit_inj h).symm, fun h => by rw [h]⟩
    rw [List.foldl_cons, ih, UInt64.toNat_or, Nat.testBit_or, Operation.toNat_flag, Nat.testBit_two_pow, hbit,
      List.contains_cons, Bool.or_assoc]

/-- The flags have the one of an operation if it is supported. -/
theorem and_flag_iff (i : MechanismInfo) (op : Operation) : i.flags &&& op.flag = op.flag ↔ i.supports op = true := by
  rw [Operation.and_flag_iff, flags, testBit_foldl, supports]
  simp

end MechanismInfo

/-! ## Registration -/

namespace Registry

variable {g : Registry} {id : MechanismId} {f : MechanismFamily}

/-- The mechanisms are listed in increasing order. -/
def Sorted (g : Registry) : Prop := g.entries.Pairwise (·.1.val < ·.1.val)

theorem lookup_cons_eq (e : MechanismId × MechanismFamily) (l : List (MechanismId × MechanismFamily)) :
    (e :: l).lookup id = if id = e.1 then some e.2 else l.lookup id := by
  rw [List.lookup_cons]
  by_cases h : id = e.1
  · rw [if_pos h, beq_iff_eq.2 h]
  · rw [if_neg h, beq_eq_false_iff_ne.2 h]

theorem lookup_insertEntry (e : MechanismId × MechanismFamily) (l : List (MechanismId × MechanismFamily)) :
    (insertEntry e l).lookup id = if id = e.1 then some e.2 else l.lookup id := by
  induction l with
  | nil => exact lookup_cons_eq e []
  | cons b r ih =>
    unfold insertEntry
    split
    · exact lookup_cons_eq e (b :: r)
    split
    · next heq =>
      -- the new entry takes the place of one with its number
      have hb : e.1 = b.1 := congrArg MechanismId.mk heq
      rw [lookup_cons_eq, lookup_cons_eq, ← hb]
      by_cases h : id = e.1
      · rw [if_pos h, if_pos h]
      · rw [if_neg h, if_neg h, if_neg h]
    · next hne =>
      rw [lookup_cons_eq, lookup_cons_eq, ih]
      by_cases h : id = b.1
      · have hid : id ≠ e.1 := fun he => hne (by rw [← he, h])
        rw [if_pos h, if_pos h, if_neg hid]
      · rw [if_neg h, if_neg h]

theorem mem_insertEntry {e x : MechanismId × MechanismFamily} {l : List (MechanismId × MechanismFamily)}
    (h : x ∈ insertEntry e l) : x = e ∨ x ∈ l := by
  induction l with
  | nil => exact .inl (List.mem_singleton.1 h)
  | cons b r ih =>
    unfold insertEntry at h
    split at h
    · exact List.mem_cons.1 h
    split at h
    · rcases List.mem_cons.1 h with h | h
      · exact .inl h
      · exact .inr (List.mem_cons_of_mem _ h)
    · rcases List.mem_cons.1 h with rfl | h
      · exact .inr List.mem_cons_self
      · rcases ih h with h | h
        · exact .inl h
        · exact .inr (List.mem_cons_of_mem _ h)

theorem sorted_insert (h : g.Sorted) : (g.insert id f).Sorted := by
  unfold Sorted insert at *
  generalize g.entries = l at h ⊢
  induction l with
  | nil => exact List.pairwise_singleton _ _
  | cons b r ih =>
    obtain ⟨hb, hr⟩ := List.pairwise_cons.1 h
    unfold insertEntry
    split
    · next hlt =>
      refine List.pairwise_cons.2 ⟨fun x hx => ?_, h⟩
      rcases List.mem_cons.1 hx with rfl | hx
      · exact hlt
      · exact UInt64.lt_trans hlt (hb x hx)
    split
    · next heq => exact List.pairwise_cons.2 ⟨fun x hx => heq ▸ hb x hx, hr⟩
    · next hlt hne =>
      refine List.pairwise_cons.2 ⟨fun x hx => ?_, ih hr⟩
      rcases mem_insertEntry hx with rfl | hx
      · rw [← UInt64.toNat_inj] at hne
        rw [UInt64.lt_iff_toNat_lt] at hlt ⊢
        omega
      · exact hb x hx

theorem find?_insert (m : MechanismId) : (g.insert m f).find? id = if id = m then some f else g.find? id :=
  lookup_insertEntry (m, f) g.entries

theorem find?_insertFamily :
    (g.insertFamily f).find? id = if id ∈ f.mechanisms then some f else g.find? id := by
  unfold insertFamily
  induction f.mechanisms generalizing g with
  | nil => simp
  | cons m ms ih =>
    rw [List.foldl_cons, ih, find?_insert]
    by_cases hms : id ∈ ms
    · simp [hms]
    · by_cases hm : id = m
      · simp [hm]
      · simp [hms, hm]

theorem sorted_insertFamily (h : g.Sorted) : (g.insertFamily f).Sorted := by
  unfold insertFamily
  induction f.mechanisms generalizing g with
  | nil => exact h
  | cons m ms ih => exact ih (sorted_insert h)

theorem sorted_full : full.Sorted := by
  unfold full
  have hempty : empty.Sorted := List.Pairwise.nil
  generalize empty = g at hempty
  induction MechanismFamily.all generalizing g with
  | nil => exact hempty
  | cons f fs ih => exact ih _ (sorted_insertFamily hempty)

end Registry

namespace MechanismFamily

theorem mem_all (f : MechanismFamily) : f ∈ all := by cases f <;> decide

/-- No mechanism is registered by two families. -/
theorem eq_of_mem {f f' : MechanismFamily} {id : MechanismId} (h : id ∈ f.mechanisms) (h' : id ∈ f'.mechanisms) :
    f = f' := by
  have hnodup : (all.flatMap mechanisms).Nodup := .of_map (·.val.toNat) (by decide +kernel)
  obtain ⟨-, hdisjoint⟩ := List.nodup_flatMap.1 hnodup
  by_contra hne
  obtain ⟨i, hi, rfl⟩ := List.getElem_of_mem (mem_all f)
  obtain ⟨j, hj, rfl⟩ := List.getElem_of_mem (mem_all f')
  rw [List.pairwise_iff_getElem] at hdisjoint
  rcases Nat.lt_trichotomy i j with hij | rfl | hij
  · exact hdisjoint i j hi hj hij h h'
  · exact hne rfl
  · exact hdisjoint j i hj hi hij h' h

end MechanismFamily

namespace Registry

variable {g r : Registry} {id : MechanismId} {f : MechanismFamily}

theorem find?_foldl_of_mem (hid : id ∈ f.mechanisms) {fs : List MechanismFamily}
    (h : f ∈ fs ∨ g.find? id = some f) : (fs.foldl insertFamily g).find? id = some f := by
  induction fs generalizing g with
  | nil => exact h.resolve_left List.not_mem_nil
  | cons f' fs ih =>
    refine ih ?_
    rw [find?_insertFamily]
    by_cases hid' : id ∈ f'.mechanisms
    · rw [if_pos hid', MechanismFamily.eq_of_mem hid' hid]
      exact .inr rfl
    · rw [if_neg hid']
      refine h.imp_left fun hf => (List.mem_cons.1 hf).resolve_left ?_
      rintro rfl
      exact hid' hid

/-- Each mechanism is registered with a family that has it. -/
def Faithful (g : Registry) : Prop := ∀ id f, g.find? id = some f → id ∈ f.mechanisms

theorem faithful_insertFamily (h : g.Faithful) : (g.insertFamily f).Faithful := by
  intro id f' hf
  rw [find?_insertFamily] at hf
  split at hf
  · cases hf
    assumption
  · exact h id f' hf

theorem faithful_full : full.Faithful := by
  unfold full
  have hempty : empty.Faithful := fun _ _ h => nomatch h
  generalize empty = g at hempty
  induction MechanismFamily.all generalizing g with
  | nil => exact hempty
  | cons f fs ih => exact ih _ (faithful_insertFamily hempty)

/-- The full registry has the mechanisms of all families, each with its own. -/
theorem find?_full : full.find? id = some f ↔ id ∈ f.mechanisms :=
  ⟨faithful_full id f, fun h => find?_foldl_of_mem h (.inl f.mem_all)⟩

theorem mem_toList : id ∈ g.toList ↔ ∃ f, g.find? id = some f := by
  rw [← Option.isSome_iff_exists, toList, find?, Option.isSome_iff_ne_none, ne_eq, List.lookup_eq_none_iff]
  simp [List.mem_map]

theorem sorted_retain (h : g.Sorted) (allowed : List MechanismId) : (g.retain allowed).Sorted := h.filter _

theorem find?_retain (allowed : List MechanismId) :
    (g.retain allowed).find? id = if id ∈ allowed then g.find? id else none := by
  unfold find? retain
  induction g.entries with
  | nil => simp
  | cons e l ih =>
    rw [List.filter_cons, lookup_cons_eq]
    by_cases h : id = e.1
    · cases h
      by_cases hmem : e.1 ∈ allowed
      · rw [if_pos (List.contains_iff_mem.2 hmem), lookup_cons_eq, if_pos rfl, if_pos hmem, if_pos rfl]
      · rw [if_neg (mt List.contains_iff_mem.1 hmem), ih, if_neg hmem, if_neg hmem]
    · rw [if_neg h, ← ih]
      split
      · rw [lookup_cons_eq, if_neg h]
      · rfl

end Registry

/-! ## Configurations -/

namespace Config

variable {c : Config} {r : Registry} {id : MechanismId}

/-- The list of a configuration names a mechanism. Without a list all mechanisms count as named. -/
def Lists (c : Config) (id : MechanismId) : Prop :=
  ∀ names, c.mechanisms = some names → ∃ name ∈ names, MechanismId.ofName? name = some id

/-- A mechanism is not there for an operation: no family registers it, the list of the configuration does
not name it, or the flags it is registered with lack the one of the operation. -/
def Withholds (c : Config) (id : MechanismId) (op : Operation) : Prop :=
  (∀ f : MechanismFamily, id ∉ f.mechanisms) ∨ ¬ c.Lists id ∨
    ∃ f : MechanismFamily, id ∈ f.mechanisms ∧ f.info.flags &&& op.flag ≠ op.flag

theorem mechanismOf_ok {name : String} : mechanismOf name = .ok id ↔ MechanismId.ofName? name = some id := by
  unfold mechanismOf
  cases MechanismId.ofName? name with
  | none => exact ⟨nofun, nofun⟩
  | some m => exact ⟨fun h => by cases h; rfl, fun h => by cases h; rfl⟩

theorem mem_of_mapM {names : List String} {ids : List MechanismId} (h : names.mapM mechanismOf = .ok ids) :
    id ∈ ids ↔ ∃ name ∈ names, MechanismId.ofName? name = some id := by
  induction names generalizing ids with
  | nil =>
    cases h
    simp
  | cons name names ih =>
    rw [List.mapM_cons] at h
    obtain ⟨m, hm, h⟩ := Except.bind_ok.1 h
    obtain ⟨ms, hms, h⟩ := Except.bind_ok.1 h
    cases h
    have hhead : MechanismId.ofName? name = some id ↔ id = m := by
      rw [mechanismOf_ok.1 hm, Option.some_inj, eq_comm]
    rw [List.mem_cons, ih hms, List.exists_mem_cons_iff, hhead]

theorem lists_of_allowed {allowed : Option (List MechanismId)} (h : c.allowed = .ok allowed) :
    c.Lists id ↔ ∀ ids, allowed = some ids → id ∈ ids := by
  unfold Config.allowed at h
  unfold Lists
  cases hc : c.mechanisms with
  | none =>
    rw [hc] at h
    cases h
    exact ⟨fun _ _ h => (nomatch h), fun _ _ h => (nomatch h)⟩
  | some names =>
    rw [hc] at h
    change some <$> names.mapM mechanismOf = .ok allowed at h
    rw [map_eq_pure_bind] at h
    obtain ⟨ids, hids, h⟩ := Except.bind_ok.1 h
    cases h
    simp only [Option.some.injEq, forall_eq']
    exact (mem_of_mapM hids).symm

/-- The registry of a configuration is the full one without the mechanisms that its list does not name. -/
theorem find?_registry (h : c.registry = .ok r) {f : MechanismFamily} :
    r.find? id = some f ↔ id ∈ f.mechanisms ∧ c.Lists id := by
  obtain ⟨allowed, hallowed, h⟩ := Except.bind_ok.1 h
  rw [← Registry.find?_full, lists_of_allowed hallowed]
  cases allowed with
  | none =>
    cases h
    exact (and_iff_left fun _ h => nomatch h).symm
  | some ids =>
    cases h
    simp only [Option.some.injEq, forall_eq']
    rw [Registry.find?_retain]
    by_cases hid : id ∈ ids
    · rw [if_pos hid, and_iff_left hid]
    · rw [if_neg hid]
      exact ⟨nofun, fun h => absurd h.2 hid⟩

theorem sorted_registry (h : c.registry = .ok r) : r.Sorted := by
  obtain ⟨allowed, -, h⟩ := Except.bind_ok.1 h
  cases allowed with
  | none =>
    cases h
    exact Registry.sorted_full
  | some ids =>
    cases h
    exact Registry.sorted_retain Registry.sorted_full ids

end Config

/-! ## Requests -/

/-- The operation that a request is for. -/
def CreateCall.operation : CreateCall → Operation
  | encapsulation _ => .encapsulate
  | signature _ => .sign
  | derivation _ => .derive

namespace Registry

variable {r : Registry} {m : Mechanism}

/-- A mechanism that is found belongs to the family it is found with, which supports the operation. -/
theorem Faithful.supports (h : r.Faithful) {f : MechanismFamily} {op : Operation} (hf : r.findFor m.id op = .ok f) :
    f.info.supports op = true ∧ m.id ∈ f.mechanisms := by
  obtain ⟨hfind, hop⟩ := findFor_ok hf
  exact ⟨hop, h _ _ hfind⟩

/-- A listed mechanism is found with the family that has it, if that supports the operation. -/
theorem Faithful.findFor_eq (h : r.Faithful) (hm : m.id ∈ r.toList) {f : MechanismFamily} {op : Operation}
    (hf : m.id ∈ f.mechanisms) (hop : f.info.supports op = true) : r.findFor m.id op = .ok f := by
  obtain ⟨f', hf'⟩ := mem_toList.1 hm
  obtain rfl := MechanismFamily.eq_of_mem (h _ _ hf') hf
  exact findFor_of_supports hf' hop

theorem fails_dispatch {α : Type} {op : Operation} {make : MechanismFamily → Except Error α} {P : ReturnCode → Prop}
    (h : ∀ f, r.findFor m.id op = .ok f → Except.Avoids P (make f)) :
    Except.Fails P (discard (r.findFor m.id op >>= make)) ↔ Except.Fails P (r.findFor m.id op) := by
  rw [Except.fails_discard, Except.fails_bind]
  refine or_iff_left ?_
  rintro ⟨f, hf, hfails⟩
  exact h f hf hfails

/-- Where mechanisms are registered with their own families, these never refuse a request for its mechanism. -/
theorem fails_create (h : r.Faithful) (call : CreateCall) :
    Except.Fails (· = .mechanismInvalid) (r.create call m) ↔
      Except.Fails (· = .mechanismInvalid) (r.findFor m.id call.operation) := by
  have hp : ¬ ReturnCode.mechanismParamInvalid = .mechanismInvalid := by decide
  have hkey : ¬ ReturnCode.keyHandleInvalid = .mechanismInvalid := by decide
  have hvalue : ¬ ReturnCode.attributeValueInvalid = .mechanismInvalid := by decide
  cases call with
  | encapsulation key =>
    refine fails_dispatch fun f hf => ?_
    split
    · exact .fail hkey
    · exact MechanismFamily.avoids_encapsulator hp hkey _ fun _ => h.supports hf
  | signature preference =>
    refine fails_dispatch fun f hf => ?_
    exact MechanismFamily.avoids_signatureMethod hp preference fun _ => h.supports hf
  | derivation store =>
    refine fails_dispatch fun f hf => ?_
    intro hfails
    rw [MechanismFamily.fails_derivationGenerator hp store fun _ => h.supports hf] at hfails
    exact hvalue hfails.1

end Registry

namespace Config

variable {c : Config} {r : Registry}

theorem faithful_registry (h : c.registry = .ok r) : r.Faithful := fun _ _ hf => ((find?_registry h).1 hf).1

theorem withholds_iff (h : c.registry = .ok r) {id : MechanismId} {op : Operation} :
    c.Withholds id op ↔ ∀ f, r.find? id = some f → f.info.supports op = false := by
  constructor
  · intro hw f hf
    obtain ⟨hmem, hlists⟩ := (find?_registry h).1 hf
    rcases hw with hnone | hnot | ⟨f', hmem', hflag⟩
    · exact absurd hmem (hnone f)
    · exact absurd hlists hnot
    · cases MechanismFamily.eq_of_mem hmem hmem'
      exact Bool.eq_false_iff.2 (mt (f.info.and_flag_iff op).2 hflag)
  · intro hr
    by_cases hmem : ∃ f : MechanismFamily, id ∈ f.mechanisms
    · obtain ⟨f, hmem⟩ := hmem
      by_cases hlists : c.Lists id
      · have hop := hr f ((find?_registry h).2 ⟨hmem, hlists⟩)
        exact .inr (.inr ⟨f, hmem, mt (f.info.and_flag_iff op).1 (Bool.eq_false_iff.1 hop)⟩)
      · exact .inr (.inl hlists)
    · exact .inl (not_exists.1 hmem)

/-- Requests for a mechanism are refused as such exactly if the configuration withholds it for their operation,
and the registry lists exactly the mechanisms that a family registers and the configuration names, in
increasing order. -/
theorem dispatch_exact (h : c.registry = .ok r) :
    (∀ (call : CreateCall) (m : Mechanism),
      (∃ e, r.create call m = .error e ∧ e.code = .mechanismInvalid) ↔ c.Withholds m.id call.operation) ∧
    r.toList.Pairwise (·.val < ·.val) ∧
    ∀ id, id ∈ r.toList ↔ (∃ f : MechanismFamily, id ∈ f.mechanisms) ∧ c.Lists id := by
  refine ⟨fun call m => ?_, List.pairwise_map.2 (sorted_registry h), fun id => ?_⟩
  · have hfails := Registry.fails_create (m := m) (faithful_registry h) call
    rw [Registry.fails_findFor, and_iff_right rfl, ← withholds_iff h] at hfails
    refine Iff.trans ?_ hfails
    constructor
    · rintro ⟨e, he, hcode⟩
      exact ⟨e, e.code, he, rfl, hcode⟩
    · rintro ⟨e, code, he, hcode, hinvalid⟩
      exact ⟨e, he, (Option.some.inj hcode).trans hinvalid⟩
  · rw [Registry.mem_toList]
    constructor
    · rintro ⟨f, hf⟩
      obtain ⟨hmem, hlists⟩ := (find?_registry h).1 hf
      exact ⟨⟨f, hmem⟩, hlists⟩
    · rintro ⟨⟨f, hmem⟩, hlists⟩
      exact ⟨f, (find?_registry h).2 ⟨hmem, hlists⟩⟩

/-- A configuration that names one mechanism twice and one that no family registers. -/
def twice : Config := { mechanisms := some ["CKM_SHA256_HMAC", "CKM_RSA_X_509", "CKM_RSA_PKCS", "CKM_SHA256_HMAC"] }

/-- Its registry has the two others, in order. A request to derive by the code is refused whatever the blob
is, and so is one for the mechanism without a family. -/
theorem dispatch_exact_twice :
    ∃ r, twice.registry = .ok r ∧ r.toList = [.rsaPkcs, .sha256Hmac] ∧ r.toList.Pairwise (·.val < ·.val) ∧
      ∀ (store : Store) (params : Bytes),
        (∃ e, r.create (.derivation store) ⟨.sha256Hmac, params⟩ = .error e ∧ e.code = .mechanismInvalid) ∧
        ∃ e, r.create (.signature .randomized) ⟨.rsaX509, params⟩ = .error e ∧ e.code = .mechanismInvalid := by
  have hrun : twice.registry.toOption.map (·.toList) = some [.rsaPkcs, .sha256Hmac] := by decide +kernel
  obtain ⟨r, hr, hlist⟩ := Option.map_eq_some_iff.1 hrun
  have h := Except.ok_of_toOption hr
  obtain ⟨hrequests, hsorted, -⟩ := dispatch_exact h
  have hhmac : MechanismId.sha256Hmac ∈ MechanismFamily.hmac.mechanisms := by decide +kernel
  have hraw : ∀ f ∈ MechanismFamily.all, MechanismId.rsaX509 ∉ f.mechanisms := by decide +kernel
  refine ⟨r, h, hlist, hsorted, fun store params => ⟨?_, ?_⟩⟩
  · refine (hrequests (.derivation store) ⟨.sha256Hmac, params⟩).2 (.inr (.inr ⟨.hmac, hhmac, ?_⟩))
    rw [CreateCall.operation]
    decide
  · exact (hrequests (.signature .randomized) ⟨.rsaX509, params⟩).2 (.inl fun f => hraw f f.mem_all)

end Config
end SoftToken
