import CorePlatform.Async.Pool

/-! Resources that calls hold. What a call holds is read off the commands it has executed;
the store says which resources are taken. If a call only acquires what is not taken, and
only the holder releases, no two calls ever hold the same resource. -/
namespace Async

variable {I : Interface} {ε Q α S κ : Type}

/-- Whoever holds a resource is alone with it, and the store has it as taken. -/
def Exclusive (held : List (Event I ε) → Option κ) (taken : κ → S → Prop)
    (pool : Pool I ε Q α S) : Prop :=
  ∀ t th k, pool.thread? t = some th → held th.trace = some k →
    taken k pool.store ∧ ∀ u uth, pool.thread? u = some uth → held uth.trace = some k → u = t

/-- What one executed command does to the resources: the call holds a taken resource
afterwards, and one it did not hold before was free; what it does not hold stays taken. -/
structure Holds (held : List (Event I ε) → Option κ) (taken : κ → S → Prop)
    (trace : List (Event I ε)) (e : Event I ε) (s s' : S) : Prop where
  acquires : ∀ k, held (e :: trace) = some k → (held trace = some k → taken k s) →
    taken k s' ∧ (held trace = some k ∨ ¬ taken k s)
  releases : ∀ k, held trace ≠ some k → taken k s → taken k s'

/-- A command that leaves alone what is held and what is taken. -/
theorem Holds.frame {held : List (Event I ε) → Option κ} {taken : κ → S → Prop}
    {trace : List (Event I ε)} {e : Event I ε} {s s' : S} (same : held (e :: trace) = held trace)
    (kept : ∀ k, taken k s → taken k s') :
    Holds held taken trace e s s' where
  acquires k holds known := by
    rw [same] at holds
    exact ⟨kept k (known holds), .inl holds⟩
  releases k _ := kept k

namespace Exclusive

variable {held : List (Event I ε) → Option κ} {taken : κ → S → Prop} {pool : Pool I ε Q α S}

theorem add (exclusive : Exclusive held taken pool) (start : held [] = none)
    (q : Q) (p : Prog I ε α) :
    Exclusive held taken (pool.add ⟨q, [], p⟩) := by
  have old : ∀ {t th k}, (pool.add ⟨q, [], p⟩).thread? t = some th → held th.trace = some k →
      pool.thread? t = some th := by
    intro t th k found holds
    rcases Pool.add_cases found with ⟨_, rfl⟩ | found
    · rw [start] at holds
      contradiction
    · exact found
  intro t th k found holds
  obtain ⟨busy, alone⟩ := exclusive t th k (old found holds) holds
  exact ⟨busy, fun u uth uFound uHolds => alone u uth (old uFound uHolds) uHolds⟩

theorem run {t : Nat} {th th' : Thread I ε Q α} {e : Event I ε} {s : S}
    (exclusive : Exclusive held taken pool) (found : pool.thread? t = some th)
    (trace : th'.trace = e :: th.trace) (holds : Holds held taken th.trace e pool.store s) :
    Exclusive held taken (({ pool with store := s } : Pool I ε Q α S).set t th') := by
  have acquires : ∀ k, held th'.trace = some k → taken k s ∧
      (held th.trace = some k ∨ ¬ taken k pool.store) := by
    rw [trace]
    exact fun k holding => holds.acquires k holding fun before => (exclusive t th k found before).1
  intro u uth k uFound uHolds
  rcases Pool.set_cases uFound with ⟨rfl, rfl⟩ | ⟨other, old⟩
  · obtain ⟨busy, before⟩ := acquires k uHolds
    refine ⟨busy, fun v vth vFound vHolds => ?_⟩
    rcases Pool.set_cases vFound with ⟨rfl, rfl⟩ | ⟨_, vOld⟩
    · rfl
    · obtain ⟨busyBefore, alone⟩ := exclusive v vth k vOld vHolds
      rcases before with held | free
      · exact (alone u th found held).symm
      · exact absurd busyBefore free
  · obtain ⟨busy, alone⟩ := exclusive u uth k old uHolds
    have free : held th.trace ≠ some k := fun holding => other (alone t th found holding).symm
    refine ⟨holds.releases k free busy, fun v vth vFound vHolds => ?_⟩
    rcases Pool.set_cases vFound with ⟨rfl, rfl⟩ | ⟨_, vOld⟩
    · rcases (acquires k vHolds).2 with holding | notTaken
      · exact absurd holding free
      · exact absurd busy notTaken
    · exact alone v vth vOld vHolds

end Exclusive

/-- The rule of holding: checked command by command, it holds in every reachable state. -/
theorem System.Reachable.exclusive {sys : System I ε Q α S}
    {cond : Pool I ε Q α S → Label Q sys.Choice sys.Act → Prop} {init : S → Prop}
    {pool : Pool I ε Q α S} {held : List (Event I ε) → Option κ} {taken : κ → S → Prop}
    (reachable : sys.Reachable cond init pool) (start : held [] = none)
    (steps : ∀ pool t choice th c r s, sys.Reachable cond init pool → pool.thread? t = some th →
      th.next? = some c → cond pool (.run t choice) → sys.exec c choice pool.store = some (r, s) →
      Holds held taken th.trace ⟨c, r⟩ pool.store s)
    (acts : ∀ a s s', sys.act a s = some s' → ∀ k, taken k s → taken k s') :
      Exclusive held taken pool := by
  refine reachable.invariant (P := Exclusive held taken) ?_ ?_
  · intro s _ t th k found
    cases found
  · intro pool label pool' before _ exclusive met effect
    cases effect with
    | spawn q => exact exclusive.add start q _
    | run t choice th c k r s found awaits executed =>
      have next : th.next? = some c := by rw [Thread.next?, awaits]
      exact exclusive.run found rfl (steps pool t choice th c r s before found next met executed)
    | act a s acted =>
      intro t th k found holds
      obtain ⟨busy, alone⟩ := exclusive t th k found holds
      exact ⟨acts a _ _ acted k busy, alone⟩

section Draws

variable {sys : System I ε Q α S} {cond : Pool I ε Q α S → Label Q sys.Choice sys.Act → Prop}
  {init : S → Prop} {pool : Pool I ε Q α S} {draws : Event I ε → Option κ} {used : κ → S → Prop}

/-- What a command draws was not in use, and is in use from then on. -/
structure System.Fresh (sys : System I ε Q α S) (draws : Event I ε → Option κ)
    (used : κ → S → Prop) : Prop where
  drawn : ∀ c choice s r s' k, sys.exec c choice s = some (r, s') → draws ⟨c, r⟩ = some k →
    ¬ used k s ∧ used k s'
  kept : ∀ c choice s r s' k, sys.exec c choice s = some (r, s') → used k s → used k s'
  acts : ∀ a s s' k, sys.act a s = some s' → used k s → used k s'

theorem System.Fresh.taken (fresh : sys.Fresh draws used) (reachable : sys.Reachable cond init pool)
    (found : pool.thread? t = some th) (executed : e ∈ th.trace) (drew : draws e = some k) :
    used k pool.store := by
  refine reachable.seen (P := fun _ s e => ∀ k, draws e = some k → used k s)
    found executed ?_ ?_ ?_ k drew
  · exact fun _ _ choice _ c r s _ _ _ ran k drew => (fresh.drawn c choice _ r s k ran drew).2
  · exact fun _ _ c choice s r s' ran known k drew =>
      fresh.kept c choice s r s' k ran (known k drew)
  · exact fun _ _ a s s' acted known k drew => fresh.acts a s s' k acted (known k drew)

/-- No two calls draw the same. -/
theorem System.Fresh.once (fresh : sys.Fresh draws used) (reachable : sys.Reachable cond init pool)
    (found : pool.thread? t = some th) (executed : e ∈ th.trace) (drew : draws e = some k)
    (found' : pool.thread? u = some uth) (executed' : e' ∈ uth.trace) (drew' : draws e' = some k) :
    u = t := by
  suffices all : ∀ t th e u uth e', pool.thread? t = some th → e ∈ th.trace → draws e = some k →
      pool.thread? u = some uth → e' ∈ uth.trace → draws e' = some k → u = t from
    all t th e u uth e' found executed drew found' executed' drew'
  clear found executed drew found' executed' drew'
  refine reachable.invariant (P := fun pool => ∀ t th e u uth e', pool.thread? t = some th →
    e ∈ th.trace → draws e = some k → pool.thread? u = some uth → e' ∈ uth.trace →
    draws e' = some k → u = t) ?_ ?_
  · intro s _ t th e u uth e' found
    cases found
  · intro pool label pool' before _ once _ effect
    cases effect with
    | act a s acted => exact once
    | spawn q =>
      intro t th e u uth e' found executed drew found' executed' drew'
      obtain ⟨_, rfl⟩ | found := Pool.add_cases found
      · exact absurd executed List.not_mem_nil
      obtain ⟨_, rfl⟩ | found' := Pool.add_cases found'
      · exact absurd executed' List.not_mem_nil
      exact once t th e u uth e' found executed drew found' executed' drew'
    | run v choice vth c next r s foundV awaits ran =>
      -- a call has drawn it before the step, or the step draws it while it is not in use
      have drawn : ∀ t th e, (({ pool with store := s } : Pool I ε Q α S).set v ⟨vth.request,
          ⟨c, r⟩ :: vth.trace, next r⟩).thread? t = some th → e ∈ th.trace → draws e = some k →
          (∃ old, pool.thread? t = some old ∧ e ∈ old.trace) ∨ t = v ∧ ¬ used k pool.store := by
        intro t th e found executed drew
        obtain ⟨rfl, rfl⟩ | ⟨_, found⟩ := Pool.set_cases found
        · obtain rfl | earlier := List.mem_cons.mp executed
          · exact .inr ⟨rfl, (fresh.drawn c choice _ r s k ran drew).1⟩
          · exact .inl ⟨vth, foundV, earlier⟩
        · exact .inl ⟨th, found, executed⟩
      intro t th e u uth e' found executed drew found' executed' drew'
      rcases drawn t th e found executed drew with ⟨old, was, earlier⟩ | ⟨rfl, free⟩ <;>
        rcases drawn u uth e' found' executed' drew' with ⟨old', was', earlier'⟩ | ⟨rfl, free'⟩
      · exact once t old e u old' e' was earlier drew was' earlier' drew'
      · exact absurd (fresh.taken before was earlier drew) free'
      · exact absurd (fresh.taken before was' earlier' drew') free
      · rfl

end Draws

end Async
