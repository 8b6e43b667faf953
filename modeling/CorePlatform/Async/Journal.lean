import CorePlatform.Async.Pool

/-! Runs with a record of what has been executed: by which call, with which response, and
between which stores. A condition on the steps of a run may look back at the record. -/
namespace Async

/-- An executed command, with the call that executed it. -/
structure Entry (I : Interface) (ε S : Type) where
  call : Nat
  event : Event I ε
  before : S
  after : S

/-- Latest first. -/
abbrev Journal (I : Interface) (ε S : Type) := List (Entry I ε S)

variable {I : Interface} {ε Q α S : Type}

namespace System

variable {sys : System I ε Q α S} {pool pool' : Pool I ε Q α S} {journal : Journal I ε S}

/-- Everything that can happen in a state, with the entry for it. -/
inductive Happens (sys : System I ε Q α S) (pool : Pool I ε Q α S) :
    Option (Entry I ε S) → Pool I ε Q α S → Prop where
  | spawn (q : Q) : Happens sys pool none (pool.add ⟨q, [], sys.body q⟩)
  | run (t : Nat) (choice : sys.Choice) (th : Thread I ε Q α) (c : I.Cmd)
      (k : Except ε (I.Resp c) → Prog I ε α) (r : Except ε (I.Resp c)) (s : S)
      (found : pool.thread? t = some th) (awaits : th.rest = .await c k)
      (executed : sys.exec c choice pool.store = some (r, s)) :
      Happens sys pool (some ⟨t, ⟨c, r⟩, pool.store, s⟩)
        (({ pool with store := s } : Pool I ε Q α S).set t ⟨th.request, ⟨c, r⟩ :: th.trace, k r⟩)
  | act (a : sys.Act) (s : S) (acted : sys.act a pool.store = some s) : Happens sys pool none
      { pool with store := s }

/-- Runs whose steps meet a condition on the record so far, the state before, the executed
command and the state after. -/
inductive Recorded (sys : System I ε Q α S)
    (cond : Journal I ε S → Pool I ε Q α S → Option (Entry I ε S) → Pool I ε Q α S → Prop)
    (init : S → Prop) :
    Journal I ε S → Pool I ε Q α S → Prop where
  | start (s : S) (initial : init s) : Recorded sys cond init [] (idle s)
  | step {journal : Journal I ε S} {pool pool' : Pool I ε Q α S} {entry : Option (Entry I ε S)}
      (earlier : Recorded sys cond init journal pool) (happens : sys.Happens pool entry pool')
      (met : cond journal pool entry pool') : Recorded sys cond init (entry.toList ++ journal) pool'

/-- No condition on the steps of a recorded run. -/
def Free : Journal I ε S → Pool I ε Q α S → Option (Entry I ε S) → Pool I ε Q α S → Prop :=
  fun _ _ _ _ => True

instance (journal : Journal I ε S) (pool : Pool I ε Q α S) (entry : Option (Entry I ε S))
    (pool' : Pool I ε Q α S) :
    Decidable (Free journal pool entry pool') := .isTrue trivial

variable {cond : Journal I ε S → Pool I ε Q α S → Option (Entry I ε S) → Pool I ε Q α S → Prop}
  {init : S → Prop}

theorem Happens.step {entry : Option (Entry I ε S)} (happens : sys.Happens pool entry pool') :
    ∃ label, sys.step pool label = some pool' := by
  cases happens with
  | spawn q => exact ⟨.spawn q, rfl⟩
  | run t choice th c k r s found awaits executed =>
    obtain ⟨request, trace, rest⟩ := th
    cases awaits
    refine ⟨.run t choice, ?_⟩
    simp only [System.step, found, executed, Option.map_some]
  | act a s acted => exact ⟨.act a, by rw [System.step, acted, Option.map_some]⟩

theorem Recorded.reachable (recorded : sys.Recorded cond init journal pool) :
    sys.Reachable Any init pool := by
  induction recorded with
  | start s initial => exact ⟨s, initial, .refl⟩
  | step _ happens _ ih =>
    obtain ⟨label, stepped⟩ := happens.step
    exact ih.head stepped trivial

/-- The entries of a call are what its thread has executed. -/
theorem Recorded.trace (recorded : sys.Recorded cond init journal pool)
    (found : pool.thread? t = some th) :
    (journal.filter (·.call = t)).map Entry.event = th.trace := by
  suffices all : (∀ t th, pool.thread? t = some th →
      (journal.filter (·.call = t)).map Entry.event = th.trace) ∧
      ∀ e ∈ journal, e.call < pool.threads.length from all.1 t th found
  clear found
  induction recorded with
  | start s initial => exact ⟨fun t th found => (by cases found), nofun⟩
  | @step journal pool pool' entry _ happens _ ih =>
    obtain ⟨traces, known⟩ := ih
    cases happens with
    | spawn q =>
      constructor
      · intro t th found
        obtain ⟨rfl, rfl⟩ | old := Pool.add_cases found
        · have none : journal.filter (·.call = pool.threads.length) = [] := by
            rw [List.filter_eq_nil_iff]
            intro e member
            have bound := known e member
            simp only [decide_eq_true_eq]
            omega
          simp only [Option.toList_none, List.nil_append, none, List.map_nil]
        · exact traces t th old
      · intro e member
        have bound := known e member
        simp only [Pool.add, List.length_append, List.length_cons, List.length_nil]
        omega
    | run u choice th' c k r s found' awaits executed =>
      constructor
      · intro t th found
        obtain ⟨rfl, rfl⟩ | ⟨other, old⟩ := Pool.set_cases found
        · have earlier := traces t th' found'
          simp only [Option.toList_some, List.singleton_append, List.filter_cons, decide_true,
            if_true, List.map_cons, earlier]
        · have earlier := traces t th old
          have foreign : ¬ u = t := fun same => other same.symm
          simp only [Option.toList_some, List.singleton_append, List.filter_cons,
            foreign, decide_false, Bool.false_eq_true, if_false, earlier]
      · intro e member
        simp only [Pool.set, List.length_set]
        obtain rfl | old := List.mem_cons.mp member
        · obtain ⟨bound, _⟩ := List.getElem?_eq_some_iff.mp found'
          exact bound
        · exact known e old
    | act a s acted => exact ⟨traces, known⟩

theorem Recorded.mem_trace (recorded : sys.Recorded cond init journal pool)
    (found : pool.thread? t = some th) {e : Event I ε} : e ∈ th.trace ↔
    ∃ entry ∈ journal, entry.call = t ∧ entry.event = e := by
  rw [← recorded.trace found, List.mem_map]
  simp only [List.mem_filter, decide_eq_true_eq, and_assoc]

/-- A call is not lost, and stays what was asked. -/
theorem Happens.keeps {entry : Option (Entry I ε S)} (happens : sys.Happens pool entry pool')
    (found : pool.thread? t = some th) : ∃ th', pool'.thread? t = some th' ∧
    th'.request = th.request := by
  cases happens with
  | spawn q => exact ⟨th, Pool.add_old _ found, rfl⟩
  | run u choice th' c k r s found' awaits executed =>
    by_cases same : t = u
    · subst same
      cases found.symm.trans found'
      exact ⟨_, Pool.set_self _ found, rfl⟩
    · exact ⟨th, (Pool.set_other _ _ same).trans found, rfl⟩
  | act a s acted => exact ⟨th, found, rfl⟩

/-- What the step of an entry leads to, and every step keeps, is so from then on. -/
theorem Recorded.since_entry {P : Pool I ε Q α S → Prop} {later earlier : Journal I ε S}
    {e : Entry I ε S} (recorded : sys.Recorded cond init (later ++ e :: earlier) pool)
    (kept : ∀ entry pool pool', P pool → sys.Happens pool entry pool' → P pool')
    (taken : ∀ before next, sys.Recorded cond init earlier before →
      sys.Happens before (some e) next → cond earlier before (some e) next → P next) : P pool := by
  generalize split : later ++ e :: earlier = journal at recorded
  induction recorded generalizing later with
  | start s initial =>
    have impossible := congrArg List.length split
    simp only [List.length_append, List.length_cons, List.length_nil] at impossible
    omega
  | @step journal pool pool' entry recorded happens met ih =>
    cases entry with
    | none => exact kept _ _ _ (ih split) happens
    | some entry =>
      cases later with
      | cons first later => exact kept _ _ _ (ih (List.cons.inj split).2) happens
      | nil =>
        obtain ⟨rfl, rfl⟩ := List.cons.inj split
        exact taken _ _ recorded happens met

/-- The state in which the command of `e` was executed, after what `earlier` records. -/
inductive Moment (sys : System I ε Q α S)
    (cond : Journal I ε S → Pool I ε Q α S → Option (Entry I ε S) → Pool I ε Q α S → Prop)
    (init : S → Prop)
    (earlier : Journal I ε S) (e : Entry I ε S) (pool : Pool I ε Q α S) : Prop where
  | mk (before : Pool I ε Q α S) (th th' : Thread I ε Q α) (choice : sys.Choice)
      (recorded : sys.Recorded cond init earlier before)
      (store : before.store = e.before) (found : before.thread? e.call = some th)
      (next : th.next? = some e.event.cmd)
      (executed : sys.exec e.event.cmd choice e.before = some (e.event.resp, e.after))
      (now : pool.thread? e.call = some th')
      (request : th'.request = th.request) : Moment sys cond init earlier e pool

theorem Moment.later {entry : Option (Entry I ε S)} {e : Entry I ε S}
    (moment : sys.Moment cond init journal e pool) (happens : sys.Happens pool entry pool') :
    sys.Moment cond init journal e pool' := by
  obtain ⟨before, th, th', choice, recorded, store, found, next, executed, now, request⟩ := moment
  obtain ⟨th'', now, kept⟩ := happens.keeps now
  exact ⟨before, th, th'', choice, recorded, store, found, next, executed, now, kept.trans request⟩

theorem Recorded.rewind {later earlier : Journal I ε S} {e : Entry I ε S}
    (recorded : sys.Recorded cond init (later ++ e :: earlier) pool) :
    sys.Moment cond init earlier e pool := by
  refine recorded.since_entry (fun _ _ _ moment happens => moment.later happens) ?_
  intro before next there happens _
  cases happens with
  | run u choice th c k r s found awaits executed =>
    have next : th.next? = some c := by rw [Thread.next?, awaits]
    exact ⟨before, th, _, choice, there, rfl, found, next, executed, Pool.set_self _ found, rfl⟩

theorem Recorded.executed (recorded : sys.Recorded cond init journal pool) {e : Entry I ε S}
    (member : e ∈ journal) :
    ∃ choice, sys.exec e.event.cmd choice e.before = some (e.event.resp, e.after) := by
  obtain ⟨later, earlier, rfl⟩ := List.append_of_mem member
  obtain ⟨_, _, _, choice, _, _, _, _, executed, _⟩ := recorded.rewind
  exact ⟨choice, executed⟩

/-- The condition that the step of `e` has met, after what `earlier` records. -/
inductive Met (sys : System I ε Q α S)
    (cond : Journal I ε S → Pool I ε Q α S → Option (Entry I ε S) → Pool I ε Q α S → Prop)
    (init : S → Prop)
    (earlier : Journal I ε S) (e : Entry I ε S) (pool : Pool I ε Q α S) : Prop where
  | mk (before next : Pool I ε Q α S) (th th' : Thread I ε Q α)
      (recorded : sys.Recorded cond init earlier before)
      (met : cond earlier before (some e) next) (found : before.thread? e.call = some th)
      (awaits : th.next? = some e.event.cmd) (now : pool.thread? e.call = some th')
      (request : th'.request = th.request) : Met sys cond init earlier e pool

theorem Met.later {entry : Option (Entry I ε S)} {e : Entry I ε S}
    (met : sys.Met cond init journal e pool) (happens : sys.Happens pool entry pool') :
    sys.Met cond init journal e pool' := by
  obtain ⟨before, next, th, th', recorded, met, found, awaits, now, request⟩ := met
  obtain ⟨th'', now, kept⟩ := happens.keeps now
  exact ⟨before, next, th, th'', recorded, met, found, awaits, now, kept.trans request⟩

theorem Recorded.met {later earlier : Journal I ε S} {e : Entry I ε S}
    (recorded : sys.Recorded cond init (later ++ e :: earlier) pool) :
    sys.Met cond init earlier e pool := by
  refine recorded.since_entry (fun _ _ _ met happens => met.later happens) ?_
  intro before next there happens met
  cases happens with
  | run u choice th c k r s found awaits executed =>
    have next : th.next? = some c := by rw [Thread.next?, awaits]
    exact ⟨before, _, th, _, there, met, found, next, Pool.set_self _ found, rfl⟩

/-- A relation that every step moves along leads from each entry to the present. -/
theorem Recorded.since {R : S → S → Prop} (recorded : sys.Recorded cond init journal pool)
    (refl : ∀ s, R s s) (trans : ∀ s t u, R s t → R t u → R s u)
    (execs : ∀ c choice s r s', sys.exec c choice s = some (r, s') → R s s')
    (acts : ∀ a s s', sys.act a s = some s' → R s s') {e : Entry I ε S} (member : e ∈ journal) :
    R e.after pool.store := by
  induction recorded with
  | start s initial => cases member
  | step earlier happens met ih =>
    cases happens with
    | spawn q => exact ih member
    | act a s acted => exact trans _ _ _ (ih member) (acts a _ s acted)
    | run t choice th c k r s found awaits executed =>
      obtain rfl | old := List.mem_cons.mp member
      · exact refl _
      · exact trans _ _ _ (ih old) (execs c choice _ r s executed)

/-- What no recorded command has changed since an entry, and nothing else changes, is as it was
then. -/
theorem Recorded.unchanged {β : Type} {f : S → β} {later earlier : Journal I ε S} {e : Entry I ε S}
    (recorded : sys.Recorded cond init (later ++ e :: earlier) pool)
    (quiet : ∀ l ∈ later, f l.before = f l.after)
    (acts : ∀ a s s', sys.act a s = some s' → f s' = f s) :
    f pool.store = f e.after := by
  generalize split : later ++ e :: earlier = journal at recorded
  induction recorded generalizing later with
  | start s initial =>
    have impossible := congrArg List.length split
    simp only [List.length_append, List.length_cons, List.length_nil] at impossible
    omega
  | @step journal pool pool' entry recorded happens met ih =>
    cases happens with
    | spawn q => exact ih quiet split
    | act a s acted => exact (acts a _ s acted).trans (ih quiet split)
    | run u choice th c k r s found awaits executed =>
      cases later with
      | nil =>
        obtain ⟨rfl, rfl⟩ := List.cons.inj split
        rfl
      | cons first later =>
        obtain ⟨rfl, rest⟩ := List.cons.inj split
        have same := quiet _ List.mem_cons_self
        exact same.symm.trans (ih (fun l member => quiet l (List.mem_cons_of_mem _ member)) rest)

section Replay

/-- A labelled step, with its entry. -/
def happen (sys : System I ε Q α S) (pool : Pool I ε Q α S) :
    Label Q sys.Choice sys.Act → Option (Option (Entry I ε S) × Pool I ε Q α S)
  | .spawn q => some (none, pool.add ⟨q, [], sys.body q⟩)
  | .run t choice =>
      match pool.thread? t with
      | some ⟨q, trace, .await c k⟩ =>
          (sys.exec c choice pool.store).map fun (r, s) =>
            (some ⟨t, ⟨c, r⟩, pool.store, s⟩, ({ pool with store := s } : Pool I ε Q α S).set t
              ⟨q, ⟨c, r⟩ :: trace, k r⟩)
      | _ => none
  | .act a => (sys.act a pool.store).map fun s => (none, { pool with store := s })

theorem happens_of_happen {label : Label Q sys.Choice sys.Act} {entry : Option (Entry I ε S)}
    (happened : sys.happen pool label = some (entry, pool')) : sys.Happens pool entry pool' := by
  cases label with
  | spawn q =>
    cases Option.some.inj happened
    exact .spawn q
  | run t choice =>
    simp only [happen] at happened
    split at happened
    · rename_i q trace c k found
      simp only [Option.map_eq_some_iff] at happened
      obtain ⟨⟨r, s⟩, executed, same⟩ := happened
      cases same
      exact .run t choice _ c k r s found rfl executed
    · contradiction
  | act a =>
    simp only [happen, Option.map_eq_some_iff] at happened
    obtain ⟨s, acted, same⟩ := happened
    cases same
    exact .act a s acted

/-- Execute a schedule whose steps all meet the condition, with the record of it. -/
def record (sys : System I ε Q α S)
    (cond : Journal I ε S → Pool I ε Q α S → Option (Entry I ε S) → Pool I ε Q α S → Prop)
    [∀ journal pool entry pool', Decidable (cond journal pool entry pool')]
    (journal : Journal I ε S) (pool : Pool I ε Q α S) : List (Label Q sys.Choice sys.Act) →
    Option (Journal I ε S × Pool I ε Q α S)
  | [] => some (journal, pool)
  | label :: rest =>
      match sys.happen pool label with
      | some (entry, next) =>
          if cond journal pool entry next then
            sys.record cond (entry.toList ++ journal) next rest else none
      | none => none

theorem recorded_of_record [∀ journal pool entry pool', Decidable (cond journal pool entry pool')]
    {labels : List (Label Q sys.Choice sys.Act)} {journal' : Journal I ε S}
    (recorded : sys.Recorded cond init journal pool)
    (replayed : sys.record cond journal pool labels = some (journal', pool')) :
    sys.Recorded cond init journal' pool' := by
  induction labels generalizing journal pool with
  | nil =>
    cases Option.some.inj replayed
    exact recorded
  | cons label rest ih =>
    simp only [record] at replayed
    split at replayed
    · rename_i entry next happened
      split at replayed
      · rename_i met
        exact ih (recorded.step (happens_of_happen happened) met) replayed
      · contradiction
    · contradiction

/-- What a boolean test finds at the end of a schedule is reached by a recorded run. -/
theorem recorded_of_test [∀ journal pool entry pool', Decidable (cond journal pool entry pool')]
    {s : S} {labels : List (Label Q sys.Choice sys.Act)}
    {test : Journal I ε S × Pool I ε Q α S → Bool} (initial : init s)
    (tested : (sys.record cond [] (idle s) labels).any test = true) :
    ∃ journal pool, sys.Recorded cond init journal pool ∧ test (journal, pool) = true := by
  obtain ⟨⟨journal, pool⟩, replayed, passed⟩ := (Option.any_eq_true _ _).mp tested
  exact ⟨journal, pool, recorded_of_record (.start s initial) replayed, passed⟩

end Replay

end System
end Async
