import CorePlatform.Async.Pool
import Mathlib.Algebra.GroupWithZero.Nat

/-! Counting executed commands over all calls of a pool. A quantity of the store that changes
with each command of a kind, and with nothing else, is given by their number. -/
namespace Async

variable {I : Interface} {ε Q α S : Type}

/-- How many commands of a kind the calls have executed. -/
def Pool.executed (p : Event I ε → Bool) (pool : Pool I ε Q α S) : Nat :=
  (pool.threads.map fun th => th.trace.countP p).sum

/-- The contribution of one more command. -/
def tally (p : Event I ε → Bool) (e : Event I ε) : Nat := if p e then 1 else 0

theorem countP_cons_tally {p : Event I ε → Bool} {e : Event I ε} {trace : List (Event I ε)} :
    (e :: trace).countP p = trace.countP p + tally p e := by
  rw [List.countP_cons, tally]

namespace Pool

variable {p : Event I ε → Bool} {pool : Pool I ε Q α S}

@[simp] theorem executed_add (q : Q) (body : Prog I ε α) :
    (pool.add ⟨q, [], body⟩).executed p = pool.executed p := by
  simp only [executed, add, List.map_append, List.sum_append, List.map_cons,
    List.map_nil, List.countP_nil, List.sum_cons, List.sum_nil, Nat.add_zero]

theorem executed_set {t : Nat} {th th' : Thread I ε Q α} {e : Event I ε}
    (found : pool.thread? t = some th) (trace : th'.trace = e :: th.trace) :
    (pool.set t th').executed p = pool.executed p + tally p e := by
  obtain ⟨store, threads⟩ := pool
  simp only [thread?] at found
  simp only [executed, set]
  induction threads generalizing t with
  | nil => cases found
  | cons first rest ih =>
    cases t with
    | zero =>
      cases Option.some.inj found
      simp only [List.set_cons_zero, List.map_cons, List.sum_cons, trace, countP_cons_tally]
      omega
    | succ t =>
      have others := ih found
      simp only [List.set_cons_succ, List.map_cons, List.sum_cons]
      omega

/-- Where each call has executed at most one such command, they are as many as the calls
that did. -/
theorem executed_eq_countP {did : Thread I ε Q α → Bool}
    (once : ∀ th ∈ pool.threads, th.trace.countP p = if did th then 1 else 0) :
    pool.executed p = pool.threads.countP did := by
  obtain ⟨store, threads⟩ := pool
  simp only [executed] at once ⊢
  induction threads with
  | nil => rfl
  | cons first rest ih =>
    have here := once first List.mem_cons_self
    have there := ih fun th found => once th (List.mem_cons_of_mem _ found)
    rw [List.map_cons, List.sum_cons, here, there, List.countP_cons, Nat.add_comm]

end Pool

/-- The counting rule: checked command by command, it holds in every reachable state. -/
theorem System.Reachable.counted {sys : System I ε Q α S}
    {cond : Pool I ε Q α S → Label Q sys.Choice sys.Act → Prop} {init : S → Prop}
    {pool : Pool I ε Q α S} {p : Event I ε → Bool} {P : Nat → S → Prop}
    (reachable : sys.Reachable cond init pool) (start : ∀ s, init s → P 0 s)
    (steps : ∀ pool t choice th c r s n, sys.Reachable cond init pool → pool.thread? t = some th →
      th.next? = some c → cond pool (.run t choice) → sys.exec c choice pool.store = some (r, s) →
      P n pool.store → P (n + tally p ⟨c, r⟩) s)
    (acts : ∀ pool a s n, sys.Reachable cond init pool → cond pool (.act a) →
      sys.act a pool.store = some s → P n pool.store → P n s) :
      P (pool.executed p) pool.store := by
  refine reachable.invariant (P := fun pool => P (pool.executed p) pool.store) ?_ ?_
  · exact start
  · intro pool label pool' before _ holds met effect
    cases effect with
    | spawn q =>
      rw [Pool.executed_add]
      exact holds
    | run t choice th c k r s found awaits executed =>
      have next : th.next? = some c := by rw [Thread.next?, awaits]
      have after := steps pool t choice th c r s _ before found next met executed holds
      have counted : (({ pool with store := s } : Pool I ε Q α S).set t ⟨th.request, ⟨c, r⟩ ::
          th.trace, k r⟩).executed
          p = pool.executed p + tally p ⟨c, r⟩ := Pool.executed_set found rfl
      rw [counted]
      exact after
    | act a s acted => exact acts pool a s _ before met acted holds

/-- A program that issues no command of a kind leaves their number. -/
theorem Prog.Uses.count {prog : Prog I ε α} {allowed : I.Cmd → Prop} {p : Event I ε → Bool}
    {trace : List (Event I ε)} {n : Nat} (uses : prog.Uses allowed)
    (skips : ∀ c r, allowed c → p ⟨c, r⟩ = false) (start : trace.countP p = n) :
    Along (fun trace _ => trace.countP p = n) (fun trace _ => trace.countP p = n) trace prog := by
  induction prog generalizing trace with
  | done r => exact start
  | await c k ih =>
    refine ⟨start, fun r => ih r (uses.2 r) ?_⟩
    rw [countP_cons_tally, tally, skips c r uses.1]
    exact start

end Async
