import CorePlatform.Async.Pool
import Mathlib.Data.Set.Lattice

/-! Where the facts of a store come from, and where they go. What has come since some moment, some
call has made, and what has gone, some call has taken away. -/
namespace Async

variable {I : Interface} {ε Q α S F : Type} {sys : System I ε Q α S}
  {cond : Pool I ε Q α S → Label Q sys.Choice sys.Act → Prop} {init : S → Prop}
  {pool pool' : Pool I ε Q α S}

/-- The facts that the calls account for, by what each was asked and has executed. -/
def Pool.byCalls (accounts : Q → List (Event I ε) → F → Prop) (pool : Pool I ε Q α S) : Set F :=
  {f | ∃ th ∈ pool.threads, accounts th.request th.trace f}

namespace System

/-- A step does not take a call's account back. -/
theorem Effect.byCalls_grows {accounts : Q → List (Event I ε) → F → Prop}
    (longer : ∀ q trace e f, accounts q trace f → accounts q (e :: trace) f)
    {label : Label Q sys.Choice sys.Act} (effect : Effect sys pool label pool') :
    pool.byCalls accounts ⊆ pool'.byCalls accounts := by
  rintro f ⟨th, member, accounted⟩
  obtain ⟨t, found⟩ := Pool.mem_threads.mp member
  cases effect with
  | spawn q => exact ⟨th, Pool.thread?_mem (Pool.add_old _ found), accounted⟩
  | act a s acted => exact ⟨th, member, accounted⟩
  | run u choice th' c k r s found' awaits executed =>
    by_cases same : t = u
    · subst same
      cases found.symm.trans found'
      exact ⟨_, Pool.thread?_mem (Pool.set_self _ found), longer _ _ _ _ accounted⟩
    · exact ⟨th, Pool.thread?_mem ((Pool.set_other _ _ same).trans found), accounted⟩

/-- A step gains only facts that some call has made, and loses only facts that some call has taken
away. -/
structure Attributes (sys : System I ε Q α S)
    (cond : Pool I ε Q α S → Label Q sys.Choice sys.Act → Prop) (init : S → Prop)
    (facts : S → Set F) (made taken : Q → List (Event I ε) → F → Prop) : Prop where
  made_longer : ∀ q trace e f, made q trace f → made q (e :: trace) f
  taken_longer : ∀ q trace e f, taken q trace f → taken q (e :: trace) f
  gains : ∀ pool t choice th c r s, Reachable sys cond init pool → pool.thread? t = some th →
    th.next? = some c → cond pool (.run t choice) → sys.exec c choice pool.store = some (r, s) →
      ∀ f ∈ facts s, f ∈ facts pool.store ∨ made th.request (⟨c, r⟩ :: th.trace) f
  loses : ∀ pool t choice th c r s, Reachable sys cond init pool → pool.thread? t = some th →
    th.next? = some c → cond pool (.run t choice) → sys.exec c choice pool.store = some (r, s) →
      ∀ f ∈ facts pool.store, f ∈ facts s ∨ taken th.request (⟨c, r⟩ :: th.trace) f
  acts : ∀ a s s', sys.act a s = some s' → facts s' = facts s

variable {facts : S → Set F} {made taken : Q → List (Event I ε) → F → Prop}

theorem Attributes.step (attributes : sys.Attributes cond init facts made taken)
    {label : Label Q sys.Choice sys.Act} (reachable : sys.Reachable cond init pool)
    (met : cond pool label) (effect : Effect sys pool label pool') :
    facts pool'.store ⊆ facts pool.store ∪ pool'.byCalls made ∧
      facts pool.store ⊆ facts pool'.store ∪ pool'.byCalls taken := by
  cases effect with
  | spawn q => exact ⟨Set.subset_union_left, Set.subset_union_left⟩
  | act a s acted =>
    rw [attributes.acts a _ s acted]
    exact ⟨Set.subset_union_left, Set.subset_union_left⟩
  | run t choice th c k r s found awaits executed =>
    have next : th.next? = some c := by rw [Thread.next?, awaits]
    have member := Pool.thread?_mem
      (Pool.set_self { th with trace := ⟨c, r⟩ :: th.trace, rest := k r } found)
    constructor
    · intro f there
      exact (attributes.gains pool t choice th c r s reachable found next met executed f there).imp
        id fun accounted => ⟨_, member, accounted⟩
    · intro f there
      exact (attributes.loses pool t choice th c r s reachable found next met executed f there).imp
        id fun accounted => ⟨_, member, accounted⟩

/-- Between two states of a run, gains and losses are accounted for by the calls of the later
one. -/
theorem Attributes.between (attributes : sys.Attributes cond init facts made taken)
    (reachable : sys.Reachable cond init pool) (run : sys.Run cond pool pool') :
    facts pool'.store ⊆ facts pool.store ∪ pool'.byCalls made ∧
      facts pool.store ⊆ facts pool'.store ∪ pool'.byCalls taken := by
  suffices all : sys.Reachable cond init pool' ∧
      facts pool'.store ⊆ facts pool.store ∪ pool'.byCalls made ∧
      facts pool.store ⊆ facts pool'.store ∪ pool'.byCalls taken from all.2
  refine run.invariant (P := fun now => sys.Reachable cond init now ∧
    facts now.store ⊆ facts pool.store ∪ now.byCalls made ∧
    facts pool.store ⊆ facts now.store ∪ now.byCalls taken) ?_
    ⟨reachable, Set.subset_union_left, Set.subset_union_left⟩
  rintro now label next ⟨before, gained, lost⟩ met stepped
  have effect := step_effect stepped
  obtain ⟨gains, loses⟩ := attributes.step before met effect
  have madeGrows := effect.byCalls_grows attributes.made_longer
  have takenGrows := effect.byCalls_grows attributes.taken_longer
  refine ⟨before.head stepped met, gains.trans ?_, lost.trans ?_⟩
  · exact Set.union_subset (gained.trans (Set.union_subset_union_right _ madeGrows))
      Set.subset_union_right
  · exact Set.union_subset loses (takenGrows.trans Set.subset_union_right)

/-- What held at the start, or some call has made. -/
def Accounted (base : Set F) (made : Q → List (Event I ε) → F → Prop) (pool : Pool I ε Q α S) :
    Set F := base ∪ pool.byCalls made

theorem Attributes.accounted (attributes : sys.Attributes cond init facts made taken) {base : Set F}
    (start : ∀ s, init s → facts s = base) (reachable : sys.Reachable cond init pool) :
    facts pool.store ⊆ Accounted base made pool := by
  obtain ⟨s, initial, run⟩ := reachable
  exact start s initial ▸ (attributes.between ⟨s, initial, .refl⟩ run).1

/-- What was not there at the start, some call has made. -/
theorem Attributes.made_of_absent (attributes : sys.Attributes cond init facts made taken)
    (absent : ∀ s, init s → f ∉ facts s) (reachable : sys.Reachable cond init pool)
    (there : f ∈ facts pool.store) : ∃ th ∈ pool.threads, made th.request th.trace f := by
  obtain ⟨s, initial, run⟩ := reachable
  have came := (attributes.between ⟨s, initial, .refl⟩ run).1 there
  exact came.resolve_left (absent s initial)

/-- What was accounted for when a call was shown it, is so ever after. -/
theorem Reachable.accounted_since (reachable : sys.Reachable cond init pool) {base : Set F}
    (longer : ∀ q trace e f, made q trace f → made q (e :: trace) f) {shows : Event I ε → F → Prop}
    (truth : ∀ pool t choice th c r s f, sys.Reachable cond init pool → pool.thread? t = some th →
      th.next? = some c → sys.exec c choice pool.store = some (r, s) → shows ⟨c, r⟩ f →
      f ∈ Accounted base made pool)
    (member : th ∈ pool.threads) (executed : e ∈ th.trace) (shown : shows e f) :
    f ∈ Accounted base made pool := by
  suffices all : ∀ th ∈ pool.threads, ∀ e ∈ th.trace, ∀ f, shows e f →
      f ∈ Accounted base made pool from all th member e executed f shown
  refine reachable.invariant (P := fun pool => ∀ th ∈ pool.threads, ∀ e ∈ th.trace, ∀ f,
    shows e f → f ∈ Accounted base made pool) ?_ ?_
  · exact fun s _ th none => absurd none List.not_mem_nil
  · intro pool label pool' before _ earlier met effect th member e executed f shown
    have grows : Accounted base made pool ⊆ Accounted base made pool' :=
      Set.union_subset_union_right _ (effect.byCalls_grows longer)
    obtain ⟨u, found'⟩ := Pool.mem_threads.mp member
    cases effect with
    | spawn q =>
      obtain ⟨_, rfl⟩ | old := Pool.add_cases found'
      · exact absurd executed List.not_mem_nil
      · exact grows (earlier th (Pool.thread?_mem old) e executed f shown)
    | act a s acted => exact earlier th member e executed f shown
    | run t choice th₀ c k r s found awaits ran =>
      obtain ⟨rfl, rfl⟩ | ⟨_, old⟩ := Pool.set_cases found'
      · obtain rfl | older := List.mem_cons.mp executed
        · exact grows (truth pool u choice th₀ c r s f before found
            (by rw [Thread.next?, awaits]) ran shown)
        · exact grows (earlier th₀ (Pool.thread?_mem found) e older f shown)
      · exact grows (earlier th (Pool.thread?_mem old) e executed f shown)

/-- What a call has been shown, when it held, is accounted for ever after. -/
theorem Attributes.shown (attributes : sys.Attributes cond init facts made taken) {base : Set F}
    (start : ∀ s, init s → facts s = base) {shows : Event I ε → F → Prop}
    (truth : ∀ pool t choice th c r s f, sys.Reachable cond init pool → pool.thread? t = some th →
      th.next? = some c → sys.exec c choice pool.store = some (r, s) → shows ⟨c, r⟩ f →
      f ∈ facts pool.store)
    (reachable : sys.Reachable cond init pool) (member : th ∈ pool.threads)
    (executed : e ∈ th.trace) (shown : shows e f) : f ∈ Accounted base made pool := by
  refine reachable.accounted_since attributes.made_longer ?_ member executed shown
  intro pool t choice th c r s f before found next ran shown
  exact attributes.accounted start before
    (truth pool t choice th c r s f before found next ran shown)

end System
end Async
