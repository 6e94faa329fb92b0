import Mathlib.Data.List.Induction
import SoftToken.Store
/-!
# Runs of a store

A store is asked to store objects and to look handles up, in any order. As long as its counter does not go around, it
keeps every object for good: under a handle of its own, told once to who stored it and never given out again
(`Store.keeps_every_object`). One request preserves this (`Store.Keeps.insert`): the counter is above all handles in the
store, so that an object never takes the place of another one, whatever handle it carries itself.
-/

namespace SoftToken.Store

/-! ## Requests -/

/-- What is asked of a store. -/
inductive Request where
  | store (o : Object)
  | find (handle : UInt64)

/-- The object to be stored. -/
def Request.object? : Request → Option Object
  | store o => some o
  | find _ => none

/-- A request with its answer. -/
inductive Event where
  | stored (o : Object) (handle : UInt64)
  | looked (handle : UInt64) (answer : Except Error Object)

/-- The object that was stored, with the handle it got. -/
def Event.deposit? : Event → Option (UInt64 × Object)
  | stored o handle => some (handle, o)
  | looked _ _ => none

/-- The objects that were stored in a run, each with the handle it got. -/
def deposits (events : List Event) : List (UInt64 × Object) := events.filterMap Event.deposit?

/-- A store with what has happened to it. -/
structure Trace where
  events : List Event := []
  store : Store := {}

/-- Serves one more request. -/
def Trace.next (t : Trace) : Request → Trace
  | .store o => ⟨t.events ++ [.stored o (t.store.insert o).2], (t.store.insert o).1⟩
  | .find handle => ⟨t.events ++ [.looked handle (t.store.find handle)], t.store⟩

/-- Serves requests from a new store on. -/
def trace (qs : List Request) : Trace := qs.foldl Trace.next {}

/-- The number of objects to be stored. -/
def stores (qs : List Request) : Nat := (qs.filterMap Request.object?).length

/-! ## What a store holds -/

/-- How a handle is answered: by the object that was stored under it, unchanged but for the handle, or else by an
error. -/
def Answers (given : List (UInt64 × Object)) (handle : UInt64) (answer : Except Error Object) : Prop :=
  (∀ o, (handle, o) ∈ given → answer = .ok { o with handle := handle }) ∧
    ((∀ o, (handle, o) ∉ given) → answer = refuse .objectHandleInvalid (.unknownHandle handle))

/-- An object is put beside the others, under a handle that stood for none. The counter moves up without going around. -/
structure Adds (s : Store) (o : Object) (handle : UInt64) (s' : Store) : Prop where
  fresh : s.find handle = refuse .objectHandleInvalid (.unknownHandle handle)
  found : s'.find handle = .ok { o with handle := handle }
  frame : ∀ other, other ≠ handle → s'.find other = s.find other
  size : s'.size = s.size + 1
  counter : s'.nextHandle.toNat = s.nextHandle.toNat + 1

/-- The store holds the objects it was given and nothing else. -/
structure Keeps (s : Store) (given : List (UInt64 × Object)) : Prop where
  entries : s.entries = given.map fun d => (d.1, d.2.setHandle d.1)
  increasing : given.Pairwise fun d d' => d.1 < d'.1
  bounds : ∀ d ∈ given, 0 < d.1 ∧ d.1 < s.nextHandle
  next : s.nextHandle.toNat = given.length + 1

section Entries

variable {handle other : UInt64} {o : Object} {entries : List (UInt64 × Object)}

/-- An object under a new handle comes last. -/
theorem putEntry_fresh (h : ∀ b ∈ entries, b.1 ≠ handle) : putEntry handle o entries = entries ++ [(handle, o)] := by
  induction entries with
  | nil => rfl
  | cons b r ih =>
    rw [putEntry, if_neg (h b List.mem_cons_self), ih fun b' hb => h b' (List.mem_cons_of_mem _ hb), List.cons_append]

theorem lookup_entry (b : UInt64 × Object) :
    (b :: entries).lookup other = if other = b.1 then some b.2 else entries.lookup other := by
  obtain ⟨handle, o⟩ := b
  rw [List.lookup_cons]
  by_cases h : other = handle
  · simp [h]
  · simp [h, beq_eq_false_iff_ne.2 h]

theorem lookup_putEntry :
    (putEntry handle o entries).lookup other = if other = handle then some o else entries.lookup other := by
  induction entries with
  | nil => rw [putEntry, lookup_entry]
  | cons b r ih =>
    rw [putEntry]
    split
    case isTrue hb =>
      rw [lookup_entry, lookup_entry, hb]
      split
      · rfl
      · rfl
    case isFalse hb =>
      rw [lookup_entry, lookup_entry, ih]
      split
      case isTrue ho => rw [if_neg (ho ▸ hb)]
      case isFalse => rfl

end Entries

/-! ## One more object -/

variable {s : Store} {o : Object} {handle : UInt64} {given : List (UInt64 × Object)}

theorem find_insert (s : Store) (o : Object) :
    (s.insert o).1.find (s.insert o).2 = .ok { o with handle := (s.insert o).2 } := by
  simp [find, find?, insert, lookup_putEntry, Object.setHandle]

/-- Storing an object changes no answer for another handle. -/
theorem find_insert_ne (s : Store) (o : Object) {other : UInt64} (h : other ≠ (s.insert o).2) :
    (s.insert o).1.find other = s.find other := by
  have hne : other ≠ s.nextHandle := h
  simp [find, find?, insert, lookup_putEntry, hne]

theorem find_of_lookup (h : s.entries.lookup handle = some o) : s.find handle = .ok o := by
  unfold find find?
  rw [h]

theorem find_of_absent (h : ∀ b ∈ s.entries, b.1 ≠ handle) :
    s.find handle = refuse .objectHandleInvalid (.unknownHandle handle) := by
  have hnone : s.entries.lookup handle = none :=
    List.lookup_eq_none_iff.2 fun b hb => by simpa using (h b hb).symm
  unfold find find?
  rw [hnone]

/-- Among increasing handles the first one found is the only one. -/
theorem lookup_of_increasing (hp : given.Pairwise fun d d' => d.1 < d'.1) (h : (handle, o) ∈ given) :
    (given.map fun d => (d.1, d.2.setHandle d.1)).lookup handle = some (o.setHandle handle) := by
  induction given with
  | nil => cases h
  | cons d r ih =>
    obtain ⟨hd, hr⟩ := List.pairwise_cons.1 hp
    rw [List.map_cons, lookup_entry]
    rcases List.mem_cons.1 h with rfl | h
    · exact if_pos rfl
    · rw [if_neg (UInt64.ne_of_lt (hd _ h)).symm]
      exact ih hr h

namespace Keeps

theorem fresh : Keeps {} [] := ⟨rfl, .nil, nofun, rfl⟩

theorem mem_entries (h : s.Keeps given) {b : UInt64 × Object} :
    b ∈ s.entries ↔ ∃ d ∈ given, (d.1, d.2.setHandle d.1) = b := by
  rw [h.entries, List.mem_map]

theorem size (h : s.Keeps given) : s.size = given.length := by
  rw [Store.size, h.entries, List.length_map]

theorem answers (h : s.Keeps given) (handle : UInt64) : Answers given handle (s.find handle) := by
  constructor
  · intro o ho
    exact find_of_lookup (h.entries ▸ lookup_of_increasing h.increasing ho)
  · intro hno
    refine find_of_absent fun b hb => ?_
    obtain ⟨d, hd, rfl⟩ := h.mem_entries.1 hb
    rintro rfl
    exact hno d.2 hd

/-- The next handle stands for nothing yet. -/
theorem next_fresh (h : s.Keeps given) : ∀ b ∈ s.entries, b.1 ≠ s.nextHandle := by
  intro b hb
  obtain ⟨d, hd, rfl⟩ := h.mem_entries.1 hb
  exact UInt64.ne_of_lt (h.bounds d hd).2

/-- Below its end the counter moves up by one. -/
theorem toNat_next (h : s.Keeps given) (hroom : given.length + 1 < 2 ^ 64 - 1) :
    (s.nextHandle + 1).toNat = given.length + 2 := by
  have hone : (1 : UInt64).toNat = 1 := rfl
  rw [UInt64.toNat_add, h.next, hone]
  omega

theorem adds (h : s.Keeps given) (hroom : given.length + 1 < 2 ^ 64 - 1) (o : Object) :
    s.Adds o (s.insert o).2 (s.insert o).1 where
  fresh := find_of_absent h.next_fresh
  found := find_insert s o
  frame _ hne := find_insert_ne s o hne
  size := by
    show (putEntry _ _ _).length = _
    rw [putEntry_fresh h.next_fresh, List.length_append]
    rfl
  counter := (h.toNat_next hroom).trans (congrArg (· + 1) h.next.symm)

/-- Another object is kept beside the ones before. -/
theorem insert (h : s.Keeps given) (hroom : given.length + 1 < 2 ^ 64 - 1) (o : Object) :
    (s.insert o).1.Keeps (given ++ [((s.insert o).2, o)]) where
  entries := by
    show putEntry _ _ _ = _
    rw [putEntry_fresh h.next_fresh, h.entries, List.map_append]
    rfl
  increasing := by
    refine List.pairwise_append.2 ⟨h.increasing, List.pairwise_singleton _ _, fun d hd d' hd' => ?_⟩
    rw [List.mem_singleton.1 hd']
    exact (h.bounds d hd).2
  bounds := by
    have hlt : s.nextHandle < s.nextHandle + 1 := by
      rw [UInt64.lt_iff_toNat_lt, h.toNat_next hroom, h.next]
      omega
    have hpos : 0 < s.nextHandle := by
      rw [UInt64.lt_iff_toNat_lt, h.next]
      exact Nat.succ_pos _
    intro d hd
    rcases List.mem_append.1 hd with hd | hd
    · exact ⟨(h.bounds d hd).1, UInt64.lt_trans (h.bounds d hd).2 hlt⟩
    · rw [List.mem_singleton.1 hd]
      exact ⟨hpos, hlt⟩
  next := by
    rw [List.length_append]
    exact h.toNat_next hroom

end Keeps

/-! ## Runs -/

/-- Every look-up of a run is answered by what was stored before it. -/
def Informed (events : List Event) : Prop :=
  ∀ before handle answer after, events = before ++ .looked handle answer :: after →
    Answers (deposits before) handle answer

theorem Informed.append {events : List Event} (h : Informed events) {e : Event}
    (he : ∀ handle answer, e = .looked handle answer → Answers (deposits events) handle answer) :
    Informed (events ++ [e]) := by
  intro before handle answer after hsplit
  -- the look-up is the last event or one of those before
  rcases List.eq_nil_or_concat after with rfl | ⟨init, last, rfl⟩
  · obtain ⟨rfl, hlast⟩ := List.append_inj' hsplit rfl
    exact he handle answer (List.head_eq_of_cons_eq hlast)
  · rw [List.concat_eq_append, ← List.cons_append, ← List.append_assoc] at hsplit
    obtain ⟨rfl, -⟩ := List.append_inj' hsplit rfl
    exact h before handle answer init rfl

/-- What is known of a run: all that was stored is kept, and every look-up was answered by it. -/
structure Trace.Sound (t : Trace) : Prop where
  keeps : t.store.Keeps (deposits t.events)
  informed : Informed t.events

theorem deposits_append (events events' : List Event) : deposits (events ++ events') = deposits events ++ deposits events' :=
  List.filterMap_append

/-- Nothing that has happened is taken back. -/
theorem Trace.events_next (t : Trace) (q : Request) : t.events <+: (t.next q).events := by
  cases q with
  | store o => exact List.prefix_append _ _
  | find handle => exact List.prefix_append _ _

theorem Trace.events_foldl (qs : List Request) (t : Trace) : t.events <+: (qs.foldl Trace.next t).events := by
  induction qs generalizing t with
  | nil => exact List.prefix_rfl
  | cons q qs ih => exact (t.events_next q).trans (ih (t.next q))

/-- The objects stored by a run are those of the requests. -/
theorem Trace.deposits_next (t : Trace) (q : Request) :
    (deposits (t.next q).events).map (·.2) = (deposits t.events).map (·.2) ++ [q].filterMap Request.object? := by
  cases q with
  | store o =>
    rw [Trace.next, deposits_append, List.map_append]
    rfl
  | find handle =>
    rw [Trace.next, deposits_append, List.map_append]
    rfl

/-- One request keeps what is known, as long as the counter has room. -/
theorem Trace.Sound.next {t : Trace} (h : t.Sound) {q : Request}
    (hroom : (deposits t.events).length + stores [q] < 2 ^ 64 - 1) : (t.next q).Sound := by
  cases q with
  | store o =>
    refine ⟨?_, h.informed.append nofun⟩
    rw [Trace.next, deposits_append]
    exact h.keeps.insert hroom o
  | find handle =>
    refine ⟨?_, h.informed.append fun handle' answer he => ?_⟩
    · rw [Trace.next, deposits_append, show deposits [.looked handle _] = [] from rfl, List.append_nil]
      exact h.keeps
    · cases he
      exact h.keeps.answers handle

theorem trace_append (qs qs' : List Request) : trace (qs ++ qs') = qs'.foldl Trace.next (trace qs) := List.foldl_append

theorem stores_append (qs qs' : List Request) : stores (qs ++ qs') = stores qs + stores qs' := by
  rw [stores, List.filterMap_append, List.length_append]
  rfl

theorem objects_trace (qs : List Request) :
    (deposits (trace qs).events).map (·.2) = qs.filterMap Request.object? := by
  induction qs using List.reverseRecOn with
  | nil => rfl
  | append_singleton qs q ih =>
    rw [trace_append, List.filterMap_append, ← ih]
    exact Trace.deposits_next (trace qs) q

theorem length_deposits_trace (qs : List Request) : (deposits (trace qs).events).length = stores qs := by
  rw [stores, ← objects_trace, List.length_map]

theorem sound_trace (qs : List Request) (hroom : stores qs < 2 ^ 64 - 1) : (trace qs).Sound := by
  induction qs using List.reverseRecOn with
  | nil => exact ⟨.fresh, fun before _ _ _ h => by cases before <;> cases h⟩
  | append_singleton qs q ih =>
    rw [stores_append] at hroom
    rw [trace_append]
    exact (ih (by omega)).next (by rw [length_deposits_trace]; exact hroom)

/-- A request to store tells the handle of the object, and the object stays in what was stored. -/
theorem deposit_mem_trace (before after : List Request) (o : Object) :
    ((trace before).store.nextHandle, o) ∈ deposits (trace (before ++ .store o :: after)).events := by
  have hprefix : deposits ((trace before).next (.store o)).events <+: deposits (trace (before ++ .store o :: after)).events := by
    rw [trace_append, List.foldl_cons]
    exact (Trace.events_foldl after _).filterMap _
  refine hprefix.subset ?_
  rw [Trace.next, deposits_append]
  exact List.mem_append_right _ (List.mem_singleton_self _)

/-- In a run of fewer than 2 ^ 64 - 1 requests to store an object, with look-ups among them:
every request to store is answered, by increasing handles; all handles in the store are positive and below the counter;
there are as many objects as requests to store; every handle stands for the object that was stored under it and for
nothing else, at the end and at each look-up; and each object is put beside the others, whatever handle it carries,
while the counter moves up by one and never goes around. -/
theorem keeps_every_object (qs : List Request) (hroom : stores qs < 2 ^ 64 - 1) :
    let given := deposits (trace qs).events
    let s := (trace qs).store
    (given.map (·.2) = qs.filterMap Request.object? ∧ given.Pairwise fun d d' => d.1 < d'.1) ∧
    (∀ b ∈ s.entries, 0 < b.1 ∧ b.1 < s.nextHandle ∧ b.2.handle = b.1) ∧
    s.size = stores qs ∧
    (∀ handle, Answers given handle (s.find handle)) ∧
    Informed (trace qs).events ∧
    ∀ before o after, qs = before ++ .store o :: after →
      ∃ handle, (trace (before ++ [.store o])).events = (trace before).events ++ [.stored o handle] ∧
        (handle, o) ∈ given ∧ (trace before).store.Adds o handle (trace (before ++ [.store o])).store := by
  have hsound := sound_trace qs hroom
  refine ⟨⟨objects_trace qs, hsound.keeps.increasing⟩, fun b hb => ?_, ?_, hsound.keeps.answers, hsound.informed, ?_⟩
  · obtain ⟨d, hd, rfl⟩ := hsound.keeps.mem_entries.1 hb
    exact ⟨(hsound.keeps.bounds d hd).1, (hsound.keeps.bounds d hd).2, rfl⟩
  · rw [hsound.keeps.size, length_deposits_trace]
  · rintro before o after rfl
    rw [stores_append] at hroom
    have hbefore := sound_trace before (by omega)
    have hnext : (deposits (trace before).events).length + 1 < 2 ^ 64 - 1 := by
      have hone : 1 ≤ stores (.store o :: after) := Nat.succ_le_succ (Nat.zero_le _)
      rw [length_deposits_trace]
      omega
    refine ⟨(trace before).store.nextHandle, ?_, deposit_mem_trace before after o, ?_⟩
    · rw [trace_append]
      rfl
    · rw [trace_append]
      exact hbefore.keeps.adds hnext o

/-- An object without a value. -/
def plainObject : Object := .new .secretKey

/-- The object is stored, looked up and stored once more as it was found. -/
def storedTwice : List Request :=
  [.store plainObject, .find 1, .store (plainObject.setHandle 1), .find 7]

/-- The second copy has a handle of its own, the first one is still there, and a third handle stands for nothing. -/
theorem keeps_every_object_twice :
    stores storedTwice < 2 ^ 64 - 1 ∧ (trace storedTwice).store.size = 2 ∧
      (trace storedTwice).store.find 1 = .ok { plainObject with handle := 1 } ∧
      (trace storedTwice).store.find 2 = .ok { plainObject with handle := 2 } ∧
      (trace storedTwice).store.find 7 = refuse .objectHandleInvalid (.unknownHandle 7) := by
  have hroom : stores storedTwice < 2 ^ 64 - 1 := by decide
  obtain ⟨-, -, hsize, hanswers, -⟩ := keeps_every_object storedTwice hroom
  have hgiven : deposits (trace storedTwice).events = [(1, plainObject), (2, plainObject.setHandle 1)] := rfl
  rw [hgiven] at hanswers
  exact ⟨hroom, hsize, (hanswers 1).1 plainObject (by simp), (hanswers 2).1 (plainObject.setHandle 1) (by simp),
    (hanswers 7).2 fun o ho => by simp at ho⟩

end SoftToken.Store
