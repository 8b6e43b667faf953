import CorePlatform.Async.Pool
import Mathlib.Data.Set.Lattice

/-! Calls that only add to what the store says. The facts of a store are a set; a step keeps them
and adds facts of a common goal at most. Whatever is interrupted or run again, all runs that reach
the goal agree. -/
namespace Async

/-- The rule for a loop: what holds after each round, given the rounds so far. -/
theorem along_forEach {I : Interface} {ε ι : Type} {f : ι → Prog I ε Unit}
    {P : List (Event I ε) → I.Cmd → Prop} {J : List ι → List (Event I ε) → Prop}
    {E : List (Event I ε) → ε → Prop} {trace : List (Event I ε)} (done xs : List ι)
    (round : ∀ done x trace, x ∈ xs → J done trace → Along P (fun trace r => match r with
      | .ok _ => J (done ++ [x]) trace
      | .error e => E trace e) trace (f x))
    (start : J done trace) : Along P (fun trace r => match r with
      | .ok _ => J (done ++ xs) trace
      | .error e => E trace e) trace (Prog.forEach f xs) := by
  induction xs generalizing done trace with
  | nil =>
    rw [List.append_nil]
    exact start
  | cons x xs ih =>
    refine along_bind.mpr ((round done x trace List.mem_cons_self start).mono
      (fun _ _ point => point) fun trace r held => ?_)
    cases r with
    | error e => exact held
    | ok _ =>
      have rest := ih (done ++ [x])
        (fun done y trace member => round done y trace (List.mem_cons_of_mem x member)) held
      simpa only [List.append_assoc, List.singleton_append] using rest

namespace System

variable {I : Interface} {ε Q α S F : Type} {sys : System I ε Q α S}
  {cond : Pool I ε Q α S → Label Q sys.Choice sys.Act → Prop} {init : S → Prop}
  {pool pool' : Pool I ε Q α S}

/-- A call is not lost, and stays what was asked. -/
theorem Effect.call_kept {label : Label Q sys.Choice sys.Act} (effect : Effect sys pool label pool')
    (member : th ∈ pool.threads) : ∃ th' ∈ pool'.threads, th'.request = th.request := by
  obtain ⟨t, found⟩ := Pool.mem_threads.mp member
  cases effect with
  | spawn q => exact ⟨th, Pool.thread?_mem (Pool.add_old _ found), rfl⟩
  | act a s acted => exact ⟨th, member, rfl⟩
  | run u choice th' c k r s found' awaits executed =>
    by_cases same : t = u
    · subst same
      cases found.symm.trans found'
      exact ⟨_, Pool.thread?_mem (Pool.set_self _ found), rfl⟩
    · exact ⟨th, Pool.thread?_mem ((Pool.set_other _ _ same).trans found), rfl⟩

/-- A step keeps the facts, and adds none but those of the goal. -/
def Accretes (sys : System I ε Q α S)
    (cond : Pool I ε Q α S → Label Q sys.Choice sys.Act → Prop) (init : S → Prop)
    (facts : S → Set F) (goal : Set F) : Prop :=
  ∀ pool label pool', Reachable sys cond init pool → cond pool label →
    Effect sys pool label pool' →
      facts pool.store ⊆ facts pool'.store ∧ facts pool'.store ⊆ facts pool.store ∪ goal

variable {facts : S → Set F} {goal : Set F}

theorem Accretes.between (base : Set F) (accretes : sys.Accretes cond init facts goal)
    (start : ∀ s, init s → facts s = base) (reachable : sys.Reachable cond init pool) :
    base ⊆ facts pool.store ∧ facts pool.store ⊆ base ∪ goal := by
  refine reachable.invariant
    (P := fun pool => base ⊆ facts pool.store ∧ facts pool.store ⊆ base ∪ goal) ?_ ?_
  · intro s initial
    rw [idle, start s initial]
    exact ⟨subset_rfl, Set.subset_union_left⟩
  · rintro pool label pool' before - ⟨kept, within⟩ met effect
    obtain ⟨grows, bounded⟩ := accretes pool label pool' before met effect
    refine ⟨kept.trans grows, bounded.trans (Set.union_subset within Set.subset_union_right)⟩

/-- A run that has reached the goal has added exactly the goal. -/
theorem Accretes.complete {base : Set F} (accretes : sys.Accretes cond init facts goal)
    (start : ∀ s, init s → facts s = base) (reachable : sys.Reachable cond init pool)
    (reached : goal ⊆ facts pool.store) : facts pool.store = base ∪ goal := by
  obtain ⟨kept, within⟩ := accretes.between base start reachable
  exact within.antisymm (Set.union_subset kept reached)

/-- Once the goal is reached, where a step with nothing to add leaves the store alone up to `same`,
every later state is the same. -/
theorem Accretes.settled (same : S → S → Prop) (accretes : sys.Accretes cond init facts goal)
    (reflexive : ∀ s, same s s) (transitive : ∀ s t u, same s t → same t u → same s u)
    (idle : ∀ pool label pool', Reachable sys cond init pool → cond pool label →
      Effect sys pool label pool' → goal ⊆ facts pool.store → same pool.store pool'.store)
    (reachable : sys.Reachable cond init pool) (reached : goal ⊆ facts pool.store)
    (run : sys.Run cond pool pool') : same pool.store pool'.store := by
  suffices all : sys.Reachable cond init pool' ∧ goal ⊆ facts pool'.store ∧
      same pool.store pool'.store from all.2.2
  refine run.invariant (P := fun now => sys.Reachable cond init now ∧ goal ⊆ facts now.store ∧
    same pool.store now.store) ?_ ⟨reachable, reached, reflexive _⟩
  rintro now label next ⟨before, there, alike⟩ met stepped
  have effect := step_effect stepped
  refine ⟨before.head stepped met, there.trans (accretes now label next before met effect).1, ?_⟩
  exact transitive _ _ _ alike (idle now label next before met effect there)

end System
end Async
