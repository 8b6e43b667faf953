import CorePlatform.Async.Logic
import Mathlib.Logic.Relation

/-! Concurrent calls of asynchronous programs over one shared store. A call may
start at any time with any request; afterwards each of its commands is one atomic
step, and steps of different calls interleave arbitrarily. A call that is never
scheduled again models a crash. Environment actions change the store on their own. -/
namespace Async

/-- One executed command of a call, with its response. -/
structure Event (I : Interface) (ε : Type) where
  cmd : I.Cmd
  resp : Except ε (I.Resp cmd)

/-- A started call: what was asked, what it has executed (latest first), and what
remains to be done. -/
structure Thread (I : Interface) (ε Q α : Type) where
  request : Q
  trace : List (Event I ε)
  rest : Prog I ε α

structure System (I : Interface) (ε Q α S : Type) extends Semantics I ε S where
  body : Q → Prog I ε α
  Act : Type
  act : Act → S → Option S

/-- The shared store and the calls, numbered by the order of their start. -/
structure Pool (I : Interface) (ε Q α S : Type) where
  store : S
  threads : List (Thread I ε Q α)

inductive Label (Q Choice Act : Type) where
  | spawn (q : Q)
  | run (t : Nat) (choice : Choice)
  | act (a : Act)

variable {I : Interface} {ε Q α S : Type}

namespace Thread

def next? (th : Thread I ε Q α) : Option I.Cmd :=
  match th.rest with
  | .done _ => none
  | .await c _ => some c

def result? (th : Thread I ε Q α) : Option (Except ε α) :=
  match th.rest with
  | .done r => some r
  | .await _ _ => none

theorem result?_none {th : Thread I ε Q α} (next : th.next? = some c) : th.result? = none := by
  obtain ⟨request, trace, rest⟩ := th
  cases rest with
  | done r => contradiction
  | await c k => rfl

theorem next?_some {th : Thread I ε Q α} (running : th.result? = none) :
    ∃ c, th.next? = some c := by
  obtain ⟨request, trace, rest⟩ := th
  cases rest with
  | done r => contradiction
  | await c k => exact ⟨c, rfl⟩

theorem next?_none {th : Thread I ε Q α} (ended : th.result? = some r) : th.next? = none := by
  obtain ⟨request, trace, rest⟩ := th
  cases rest with
  | done r => rfl
  | await c k => contradiction

end Thread

namespace Pool

def thread? (pool : Pool I ε Q α S) (t : Nat) : Option (Thread I ε Q α) := pool.threads[t]?

/-- The calls other than `t`. -/
def others (pool : Pool I ε Q α S) (t : Nat) : List (Thread I ε Q α) := pool.threads.eraseIdx t

def add (pool : Pool I ε Q α S) (th : Thread I ε Q α) : Pool I ε Q α S :=
  { pool with threads := pool.threads ++ [th] }

def set (pool : Pool I ε Q α S) (t : Nat) (th : Thread I ε Q α) : Pool I ε Q α S :=
  { pool with threads := pool.threads.set t th }

@[simp] theorem add_store (pool : Pool I ε Q α S) (th : Thread I ε Q α) :
    (pool.add th).store = pool.store :=
  rfl

@[simp] theorem set_store (pool : Pool I ε Q α S) (t : Nat) (th : Thread I ε Q α) :
    (pool.set t th).store = pool.store := rfl

theorem thread?_mem {pool : Pool I ε Q α S} (found : pool.thread? t = some th) :
    th ∈ pool.threads :=
  List.mem_of_getElem? found

theorem mem_threads {pool : Pool I ε Q α S} : th ∈ pool.threads ↔ ∃ t, pool.thread? t = some th :=
  List.mem_iff_getElem?

theorem mem_others {pool : Pool I ε Q α S} (found : pool.thread? u = some th) (other : u ≠ t) :
    th ∈ pool.others t := by
  rw [others, List.mem_eraseIdx_iff_getElem?]
  exact ⟨u, other, found⟩

theorem add_old {pool : Pool I ε Q α S} (th' : Thread I ε Q α) (found : pool.thread? t = some th) :
    (pool.add th').thread? t = some th := by
  obtain ⟨bound, rfl⟩ := List.getElem?_eq_some_iff.mp found
  rw [thread?, add, List.getElem?_append_left bound, List.getElem?_eq_getElem bound]

/-- A thread of an extended pool is an old one or the new one. -/
theorem add_cases {pool : Pool I ε Q α S} (found : (pool.add th).thread? u = some th') :
    (u = pool.threads.length ∧ th' = th) ∨ pool.thread? u = some th' := by
  rw [thread?, add, List.getElem?_append] at found
  split at found
  · exact .inr found
  · rename_i beyond
    obtain ⟨bound, rfl⟩ := List.getElem?_eq_some_iff.mp found
    simp only [List.length_cons, List.length_nil] at bound
    exact .inl ⟨by omega, by simp only [List.getElem_singleton]⟩

theorem set_self {pool : Pool I ε Q α S} (th' : Thread I ε Q α) (found : pool.thread? t = some th) :
    (pool.set t th').thread? t = some th' := by
  obtain ⟨bound, _⟩ := List.getElem?_eq_some_iff.mp found
  exact List.getElem?_set_self bound

theorem set_other (pool : Pool I ε Q α S) (th : Thread I ε Q α) (other : u ≠ t) :
    (pool.set t th).thread? u = pool.thread? u := List.getElem?_set_ne other.symm

/-- A thread of an updated pool is the new one or an old one of another call. -/
theorem set_cases {pool : Pool I ε Q α S} (found : (pool.set t th).thread? u = some th') :
    (u = t ∧ th' = th) ∨ (u ≠ t ∧ pool.thread? u = some th') := by
  by_cases same : u = t
  · subst same
    rw [thread?, set, List.getElem?_set] at found
    simp only [if_true] at found
    split at found
    · exact .inl ⟨rfl, (Option.some.inj found).symm⟩
    · contradiction
  · exact .inr ⟨same, (set_other _ _ same).symm.trans found⟩

end Pool

namespace System

variable {sys : System I ε Q α S} {pool pool' : Pool I ε Q α S}

def step (sys : System I ε Q α S) (pool : Pool I ε Q α S) :
    Label Q sys.Choice sys.Act → Option (Pool I ε Q α S)
  | .spawn q => some (pool.add ⟨q, [], sys.body q⟩)
  | .run t choice =>
      match pool.thread? t with
      | some ⟨q, trace, .await c k⟩ =>
          (sys.exec c choice pool.store).map fun (r, s) =>
            ({ pool with store := s } : Pool I ε Q α S).set t ⟨q, ⟨c, r⟩ :: trace, k r⟩
      | _ => none
  | .act a => (sys.act a pool.store).map fun s => { pool with store := s }

/-- Everything a step can do. Invariant proofs start from these three cases. -/
inductive Effect (sys : System I ε Q α S) (pool : Pool I ε Q α S) :
    Label Q sys.Choice sys.Act → Pool I ε Q α S → Prop where
  | spawn (q : Q) : Effect sys pool (.spawn q) (pool.add ⟨q, [], sys.body q⟩)
  | run (t : Nat) (choice : sys.Choice) (th : Thread I ε Q α) (c : I.Cmd)
      (k : Except ε (I.Resp c) → Prog I ε α) (r : Except ε (I.Resp c)) (s : S)
      (found : pool.thread? t = some th) (awaits : th.rest = .await c k)
      (executed : sys.exec c choice pool.store = some (r, s)) :
      Effect sys pool (.run t choice)
        (({ pool with store := s } : Pool I ε Q α S).set t ⟨th.request, ⟨c, r⟩ :: th.trace, k r⟩)
  | act (a : sys.Act) (s : S) (acted : sys.act a pool.store = some s) :
      Effect sys pool (.act a) { pool with store := s }

theorem step_effect {label : Label Q sys.Choice sys.Act}
    (stepped : sys.step pool label = some pool') : Effect sys pool label pool' := by
  cases label with
  | spawn q =>
    cases Option.some.inj stepped
    exact .spawn q
  | run t choice =>
    simp only [step] at stepped
    split at stepped
    · rename_i q trace c k found
      simp only [Option.map_eq_some_iff] at stepped
      obtain ⟨⟨r, s⟩, executed, rfl⟩ := stepped
      exact .run t choice _ c k r s found rfl executed
    · contradiction
  | act a =>
    simp only [step, Option.map_eq_some_iff] at stepped
    obtain ⟨s, acted, rfl⟩ := stepped
    exact .act a s acted

/-- Steps that meet a condition on the state they are taken in. -/
def Guarded (sys : System I ε Q α S)
    (cond : Pool I ε Q α S → Label Q sys.Choice sys.Act → Prop)
    (pool pool' : Pool I ε Q α S) : Prop :=
  ∃ label, sys.step pool label = some pool' ∧ cond pool label

def Run (sys : System I ε Q α S) (cond : Pool I ε Q α S → Label Q sys.Choice sys.Act → Prop) :
    Pool I ε Q α S → Pool I ε Q α S → Prop :=
  Relation.ReflTransGen (Guarded sys cond)

/-- No condition on the steps: any interleaving. -/
def Any (_ : Pool I ε Q α S) (_ : Label Q sys.Choice sys.Act) : Prop := True

instance (pool : Pool I ε Q α S) (label : Label Q sys.Choice sys.Act) :
    Decidable (Any pool label) :=
  isTrue trivial

/-- No call has started yet. -/
def idle (s : S) : Pool I ε Q α S := ⟨s, []⟩

def Reachable (sys : System I ε Q α S)
    (cond : Pool I ε Q α S → Label Q sys.Choice sys.Act → Prop) (init : S → Prop)
    (pool : Pool I ε Q α S) : Prop := ∃ s, init s ∧ Run sys cond (idle s) pool

variable {cond : Pool I ε Q α S → Label Q sys.Choice sys.Act → Prop}

/-- What every conditioned step preserves holds at the end of a run. -/
theorem Run.invariant {P : Pool I ε Q α S → Prop}
    (preserves : ∀ pool label pool', P pool → cond pool label → sys.step pool label = some pool' →
      P pool')
    (run : Run sys cond pool pool') (initial : P pool) : P pool' := by
  induction run with
  | refl => exact initial
  | tail _ last ih =>
    obtain ⟨label, stepped, met⟩ := last
    exact preserves _ label _ ih met stepped

/-- A run under a stronger condition is a run. -/
theorem Run.mono {cond' : Pool I ε Q α S → Label Q sys.Choice sys.Act → Prop}
    (run : Run sys cond pool pool') (weaker : ∀ pool label, cond pool label → cond' pool label) :
    Run sys cond' pool pool' := by
  induction run with
  | refl => exact .refl
  | tail _ last ih =>
    obtain ⟨label, stepped, met⟩ := last
    exact ih.tail ⟨label, stepped, weaker _ _ met⟩

theorem Reachable.head {init : S → Prop} {label : Label Q sys.Choice sys.Act}
    (reachable : Reachable sys cond init pool) (stepped : sys.step pool label = some pool')
    (met : cond pool label) : Reachable sys cond init pool' := by
  obtain ⟨s, start, run⟩ := reachable
  exact ⟨s, start, run.tail ⟨label, stepped, met⟩⟩

/-- The invariant rule. Invariants proved earlier may be used in the preservation step,
since it leads from a reachable state to a reachable state. -/
theorem Reachable.invariant {init : S → Prop} {P : Pool I ε Q α S → Prop}
    (reachable : Reachable sys cond init pool) (initial : ∀ s, init s → P (idle s))
    (preserves : ∀ pool label pool', Reachable sys cond init pool → Reachable sys cond init pool' →
      P pool → cond pool label → Effect sys pool label pool' → P pool') : P pool := by
  obtain ⟨s, start, run⟩ := reachable
  induction run with
  | refl => exact initial s start
  | tail earlier last ih =>
    obtain ⟨label, stepped, met⟩ := last
    have reached := Reachable.head ⟨s, start, earlier⟩ stepped met
    exact preserves _ label _ ⟨s, start, earlier⟩ reached ih met (step_effect stepped)

/-- Execute a schedule whose steps all meet the condition. -/
def replay (sys : System I ε Q α S) (cond : Pool I ε Q α S → Label Q sys.Choice sys.Act → Prop)
    [∀ pool label, Decidable (cond pool label)] (pool : Pool I ε Q α S) :
    List (Label Q sys.Choice sys.Act) → Option (Pool I ε Q α S)
  | [] => some pool
  | label :: rest =>
      if cond pool label then
        match sys.step pool label with
        | some next => sys.replay cond next rest
        | none => none
      else none

theorem run_replay [∀ pool label, Decidable (cond pool label)]
    {labels : List (Label Q sys.Choice sys.Act)}
    (replayed : sys.replay cond pool labels = some pool') : Run sys cond pool pool' := by
  induction labels generalizing pool with
  | nil =>
    cases Option.some.inj replayed
    exact .refl
  | cons label rest ih =>
    simp only [replay] at replayed
    split at replayed
    · rename_i met
      split at replayed
      · rename_i next stepped
        exact .head ⟨label, stepped, met⟩ (ih replayed)
      · contradiction
    · contradiction

/-- What a boolean test finds at the end of a schedule is reached by a run. -/
theorem run_of_replay [∀ pool label, Decidable (cond pool label)]
    {labels : List (Label Q sys.Choice sys.Act)} {test : Pool I ε Q α S → Bool}
    (tested : (sys.replay cond pool labels).any test = true) :
    ∃ pool', Run sys cond pool pool' ∧ test pool' = true := by
  cases replayed : sys.replay cond pool labels with
  | none =>
    rw [replayed] at tested
    contradiction
  | some pool' =>
    rw [replayed] at tested
    exact ⟨pool', run_replay replayed, tested⟩

/-- Steps of calls that have started. -/
def Inner (_ : Pool I ε Q α S) : Label Q sys.Choice sys.Act → Prop
  | .run _ _ => True
  | .spawn _ | .act _ => False

/-- What the program of a call evaluates to is reached by the steps of the call. -/
theorem run_of_eval {t : Nat} {th : Thread I ε Q α} {choices : List sys.Choice} {r : Except ε α}
    {s : S} (found : pool.thread? t = some th)
    (evaluated : th.rest.eval sys.toSemantics pool.store choices = some (r, s)) :
    ∃ pool', Run sys Inner pool pool' ∧ pool'.store = s := by
  obtain ⟨q, trace, rest⟩ := th
  induction rest generalizing pool trace choices with
  | done out => exact ⟨pool, .refl, (Prod.mk.inj (Option.some.inj evaluated)).2⟩
  | await c k ih =>
    cases choices with
    | nil => contradiction
    | cons choice later =>
      simp only [Prog.eval] at evaluated
      split at evaluated
      · rename_i out u executed
        have stepped : sys.step pool (.run t choice) = some
            (({ pool with store := u } : Pool I ε Q α S).set t ⟨q, ⟨c, out⟩ :: trace, k out⟩) := by
          simp only [step, found, executed, Option.map_some]
        have found' : ({ pool with store := u } : Pool I ε Q α S).thread? t = _ := found
        obtain ⟨pool', run, store⟩ := ih out _ (Pool.set_self _ found') evaluated
        exact ⟨pool', .head ⟨.run t choice, stepped, trivial⟩ run, store⟩
      · contradiction

/-- So can the only thread of a pool. -/
theorem run_of_body (sys : System I ε Q α S) (q : Q) {s s' : S} {choices : List sys.Choice}
    {r : Except ε α} (evaluated : (sys.body q).eval sys.toSemantics s choices = some (r, s')) :
    ∃ pool, Run sys Inner ((idle s).add ⟨q, [], sys.body q⟩) pool ∧ pool.store = s' :=
  run_of_eval (t := 0) rfl evaluated

end System

/-- A property of every point of a program: `P trace c` wherever it awaits `c` after
`trace`, `R trace r` wherever it ends with `r`. -/
def Along (P : List (Event I ε) → I.Cmd → Prop) (R : List (Event I ε) → Except ε α → Prop) :
    List (Event I ε) → Prog I ε α → Prop
  | trace, .done r => R trace r
  | trace, .await c k => P trace c ∧ ∀ r, Along P R (⟨c, r⟩ :: trace) (k r)

section Along

variable {β : Type} {P : List (Event I ε) → I.Cmd → Prop}

theorem along_graft {p : Prog I ε α} {f : Except ε α → Prog I ε β}
    {R : List (Event I ε) → Except ε β → Prop} :
    Along P R trace (p.graft f) ↔ Along P (fun trace r => Along P R trace (f r)) trace p := by
  induction p generalizing trace with
  | done r => rfl
  | await c k ih => exact and_congr_right fun _ => forall_congr' fun r => ih r

@[simp] theorem along_done {r : Except ε α} {R : List (Event I ε) → Except ε α → Prop} :
    Along P R trace (.done r) ↔ R trace r := Iff.rfl

theorem along_bind {p : Prog I ε α} {f : α → Prog I ε β}
    {R : List (Event I ε) → Except ε β → Prop} :
    Along P R trace (p >>= f) ↔ Along P (fun
      | trace, .ok a => Along P R trace (f a)
      | trace, .error e => R trace (.error e)) trace p := by
  refine along_graft.trans (iff_of_eq (congrFun (congrFun (congrArg _ ?_) _) _))
  funext trace r
  cases r <;> rfl

theorem along_catch {p : Prog I ε α} {f : ε → Prog I ε α}
    {R : List (Event I ε) → Except ε α → Prop} :
    Along P R trace (tryCatch p f) ↔ Along P (fun
      | trace, .ok a => R trace (.ok a)
      | trace, .error e => Along P R trace (f e)) trace p := by
  refine along_graft.trans (iff_of_eq (congrFun (congrFun (congrArg _ ?_) _) _))
  funext trace r
  cases r <;> rfl

/-- One command whose failure ends the program. -/
theorem along_command_bind {c : I.Cmd} {f : I.Resp c → Prog I ε α}
    {R : List (Event I ε) → Except ε α → Prop}
    (point : P trace c) (rejected : ∀ e, R (⟨c, .error e⟩ :: trace) (.error e))
    (next : ∀ a, Along P R (⟨c, .ok a⟩ :: trace) (f a)) :
    Along P R trace (Prog.perform c >>= f) := by
  refine along_bind.mpr ⟨point, fun r => ?_⟩
  cases r with
  | error e => exact rejected e
  | ok a => exact next a

/-- The same where it does not matter after which commands it fails. -/
theorem along_await_bind {c : I.Cmd} {f : I.Resp c → Prog I ε α}
    {R : List (Event I ε) → Except ε α → Prop}
    (point : P trace c) (rejected : ∀ trace e, R trace (.error e))
    (next : ∀ a, Along P R (⟨c, .ok a⟩ :: trace) (f a)) : Along P R trace (Prog.perform c >>= f) :=
  along_command_bind point (fun e => rejected _ e) next

theorem Along.mono {p : Prog I ε α} {P' : List (Event I ε) → I.Cmd → Prop}
    {R R' : List (Event I ε) → Except ε α → Prop} (along : Along P R trace p)
    (commands : ∀ trace c, P trace c → P' trace c) (results : ∀ trace r, R trace r → R' trace r) :
    Along P' R' trace p := by
  induction p generalizing trace with
  | done r => exact results _ _ along
  | await c k ih => exact ⟨commands _ _ along.1, fun r => ih r (along.2 r)⟩

theorem Along.and {p : Prog I ε α} {P' : List (Event I ε) → I.Cmd → Prop}
    {R R' : List (Event I ε) → Except ε α → Prop} (along : Along P R trace p)
    (along' : Along P' R' trace p) :
    Along (fun trace c => P trace c ∧ P' trace c)
    (fun trace r => R trace r ∧ R' trace r) trace p := by
  induction p generalizing trace with
  | done r => exact ⟨along, along'⟩
  | await c k ih => exact ⟨⟨along.1, along'.1⟩, fun r => ih r (along.2 r) (along'.2 r)⟩

/-- A handler that rethrows. -/
theorem along_mapError {p : Prog I ε α} {other : ε → ε} {R : List (Event I ε) → Except ε α → Prop}
    (rejected : ∀ trace e, R trace (.error e) → R trace (.error (other e)))
    (along : Along P R trace p) :
    Along P R trace (tryCatch p fun e => throw (other e)) := by
  refine along_catch.mpr (along.mono (fun _ _ point => point) fun trace r holds => ?_)
  cases r with
  | ok a => exact holds
  | error e => exact rejected trace e holds

/-- The same where any error may be thrown. -/
theorem along_rethrow {p : Prog I ε α} {other : ε → ε} {R : List (Event I ε) → Except ε α → Prop}
    (rejected : ∀ trace e, R trace (.error e)) (along : Along P R trace p) :
    Along P R trace (tryCatch p fun e => throw (other e)) :=
  along_mapError (fun trace e _ => rejected trace (other e)) along

end Along

/-- Every call of a reachable state is at a point its body allows. -/
theorem System.Reachable.along {sys : System I ε Q α S}
    {cond : Pool I ε Q α S → Label Q sys.Choice sys.Act → Prop} {init : S → Prop}
    {pool : Pool I ε Q α S}
    {P : Q → List (Event I ε) → I.Cmd → Prop} {R : Q → List (Event I ε) → Except ε α → Prop}
    (reachable : sys.Reachable cond init pool) (bodies : ∀ q, Along (P q) (R q) [] (sys.body q))
    (found : pool.thread? t = some th) :
    Along (P th.request) (R th.request) th.trace th.rest := by
  suffices all : ∀ t th, pool.thread? t = some th →
      Along (P th.request) (R th.request) th.trace th.rest from all t th found
  refine reachable.invariant (P := fun pool => ∀ t th, pool.thread? t = some th →
    Along (P th.request) (R th.request) th.trace th.rest) ?_ ?_
  · intro s _ t th found
    cases found
  · intro pool label pool' _ _ all _ effect t th found
    cases effect with
    | spawn q =>
      obtain ⟨_, rfl⟩ | found := Pool.add_cases found
      · exact bodies q
      · exact all t th found
    | run u choice th₀ c k r s found₀ awaits executed =>
      obtain ⟨rfl, rfl⟩ | ⟨_, found⟩ := Pool.set_cases found
      · have along := all t th₀ found₀
        rw [awaits] at along
        exact along.2 r
      · exact all t th found
    | act a s acted => exact all t th found

section Points

variable {sys : System I ε Q α S} {cond : Pool I ε Q α S → Label Q sys.Choice sys.Act → Prop}
  {init : S → Prop} {pool : Pool I ε Q α S} {P : Q → List (Event I ε) → I.Cmd → Prop}
  {R : Q → List (Event I ε) → Except ε α → Prop}

/-- The point at which a call awaits its next command. -/
theorem System.Reachable.point (reachable : sys.Reachable cond init pool)
    (bodies : ∀ q, Along (P q) (R q) [] (sys.body q)) (found : pool.thread? t = some th)
    (next : th.next? = some c) : P th.request th.trace c := by
  have along := reachable.along bodies found
  obtain ⟨request, trace, rest⟩ := th
  cases rest with
  | done r => contradiction
  | await c' k =>
    cases Option.some.inj next
    exact along.1

/-- What holds of a call that has ended. -/
theorem System.Reachable.returned (reachable : sys.Reachable cond init pool)
    (bodies : ∀ q, Along (P q) (R q) [] (sys.body q)) (found : pool.thread? t = some th)
    (ended : th.result? = some r) : R th.request th.trace r := by
  have along := reachable.along bodies found
  obtain ⟨request, trace, rest⟩ := th
  cases rest with
  | done r' =>
    cases Option.some.inj ended
    exact along
  | await c k => contradiction

end Points

section Seen

variable {sys : System I ε Q α S} {cond : Pool I ε Q α S → Label Q sys.Choice sys.Act → Prop}
  {init : S → Prop} {pool : Pool I ε Q α S} {P : Q → S → Event I ε → Prop}

/-- What an executed command has shown, and every later step leaves true. -/
theorem System.Reachable.witnessed (reachable : sys.Reachable cond init pool)
    (found : pool.thread? t = some th) (executed : e ∈ th.trace)
    (shown : ∀ pool t choice th c r s, sys.Reachable cond init pool → pool.thread? t = some th →
      th.next? = some c → cond pool (.run t choice) → sys.exec c choice pool.store = some (r, s) →
      P th.request s ⟨c, r⟩)
    (stays : ∀ pool label pool' q e, sys.Reachable cond init pool → cond pool label →
      sys.Effect pool label pool' → P q pool.store e → P q pool'.store e) :
    P th.request pool.store e := by
  suffices all : ∀ t th e, pool.thread? t = some th → e ∈ th.trace → P th.request pool.store e from
    all t th e found executed
  refine reachable.invariant (P := fun pool => ∀ t th e, pool.thread? t = some th → e ∈ th.trace →
    P th.request pool.store e) ?_ ?_
  · intro s _ t th e found
    cases found
  · intro pool label pool' before _ all met effect u uth e uFound inTrace
    have kept : ∀ th, e ∈ th.trace → pool.thread? u = some th → P th.request pool'.store e :=
      fun th inTrace uFound => stays pool label pool' _ e before met effect
        (all u th e uFound inTrace)
    cases effect with
    | spawn q =>
      obtain ⟨_, rfl⟩ | uFound := Pool.add_cases uFound
      · exact absurd inTrace List.not_mem_nil
      · exact kept uth inTrace uFound
    | run t choice th c k r s found awaits ran =>
      obtain ⟨rfl, rfl⟩ | ⟨_, uFound⟩ := Pool.set_cases uFound
      · obtain rfl | earlier := List.mem_cons.mp inTrace
        · exact shown pool u choice th c r s before found (by rw [Thread.next?, awaits]) met ran
        · exact kept th earlier found
      · exact kept uth inTrace uFound
    | act a s changed => exact kept uth inTrace uFound

/-- The same where no command takes it back, whoever executes it. -/
theorem System.Reachable.seen (reachable : sys.Reachable cond init pool)
    (found : pool.thread? t = some th) (executed : e ∈ th.trace)
    (shown : ∀ pool t choice th c r s, pool.thread? t = some th → th.next? = some c →
      cond pool (.run t choice) → sys.exec c choice pool.store = some (r, s) →
      P th.request s ⟨c, r⟩)
    (stays : ∀ q e c choice s r s', sys.exec c choice s = some (r, s') → P q s e → P q s' e)
    (acted : ∀ q e a s s', sys.act a s = some s' → P q s e → P q s' e) :
    P th.request pool.store e := by
  refine reachable.witnessed found executed
    (fun pool t choice th c r s _ => shown pool t choice th c r s) ?_
  intro pool label pool' q e _ _ effect holds
  cases effect with
  | spawn q => exact holds
  | run t choice th c k r s found awaits ran => exact stays q e c choice _ r s ran holds
  | act a s changed => exact acted q e a _ s changed holds

end Seen

/-- Every command the program can issue is allowed. -/
def Prog.Uses (allowed : I.Cmd → Prop) : Prog I ε α → Prop
  | .done _ => True
  | .await c k => allowed c ∧ ∀ r, (k r).Uses allowed

namespace Prog

variable {β : Type} {allowed : I.Cmd → Prop}

theorem Uses.mono {p : Prog I ε α} {allowed' : I.Cmd → Prop} (uses : p.Uses allowed)
    (weaker : ∀ c, allowed c → allowed' c) : p.Uses allowed' := by
  induction p with
  | done r => trivial
  | await c k ih => exact ⟨weaker c uses.1, fun r => ih r (uses.2 r)⟩

theorem Uses.graft {p : Prog I ε α} {f : Except ε α → Prog I ε β} (first : p.Uses allowed)
    (next : ∀ r, (f r).Uses allowed) : (p.graft f).Uses allowed := by
  induction p with
  | done r => exact next r
  | await c k ih => exact ⟨first.1, fun r => ih r (first.2 r)⟩

theorem Uses.bind {p : Prog I ε α} {f : α → Prog I ε β} (first : p.Uses allowed)
    (next : ∀ a, (f a).Uses allowed) : (p >>= f).Uses allowed := by
  refine first.graft fun r => ?_
  cases r with
  | ok a => exact next a
  | error e => trivial

theorem Uses.catch {p : Prog I ε α} {f : ε → Prog I ε α} (first : p.Uses allowed)
    (handler : ∀ e, (f e).Uses allowed) : (tryCatch p f : Prog I ε α).Uses allowed := by
  refine first.graft fun r => ?_
  cases r with
  | ok a => trivial
  | error e => exact handler e

theorem Uses.forEach {ι : Type} {f : ι → Prog I ε Unit}
    (round : ∀ x, (f x).Uses allowed) (xs : List ι) :
    (Prog.forEach f xs).Uses allowed := by
  induction xs with
  | nil => trivial
  | cons x xs ih => exact (round x).bind fun _ => ih

/-- What every allowed command keeps, the program keeps. -/
theorem Uses.post {sem : Semantics I ε S} {p : Prog I ε α} {P : S → Prop} {s : S}
    (uses : p.Uses allowed) (kept : ∀ c, allowed c → ∀ s r t, sem.Responds c s r t → P s → P t)
    (start : P s) :
    Post sem p s fun _ t => P t := by
  induction p generalizing s with
  | done r => exact start
  | await c k ih =>
    intro r t responds
    exact ih r (uses.2 r) (kept c uses.1 s r t responds start)

theorem Uses.along {p : Prog I ε α} (uses : p.Uses allowed) :
    Along (fun _ => allowed) (fun _ _ => True) trace p := by
  induction p generalizing trace with
  | done r => trivial
  | await c k ih => exact ⟨uses.1, fun r => ih r (uses.2 r)⟩

/-- A program adds only allowed commands to what has been executed. -/
theorem Uses.along_appends {p : Prog I ε α} (uses : p.Uses allowed) :
    Along (fun before c => allowed c ∧ ∃ added, before = added ++ trace ∧
      ∀ e ∈ added, allowed e.cmd)
      (fun after _ => ∃ added, after = added ++ trace ∧ ∀ e ∈ added, allowed e.cmd) trace p := by
  suffices all : ∀ before, (∃ added, before = added ++ trace ∧ ∀ e ∈ added, allowed e.cmd) →
      Along (fun before c => allowed c ∧ ∃ added, before = added ++ trace ∧
        ∀ e ∈ added, allowed e.cmd)
        (fun after _ => ∃ added, after = added ++ trace ∧ ∀ e ∈ added,
          allowed e.cmd) before p from all trace ⟨[], rfl, nofun⟩
  induction p with
  | done r => exact fun before appended => appended
  | await c k ih =>
    rintro before ⟨added, rfl, allowedAll⟩
    refine ⟨⟨uses.1, added, rfl, allowedAll⟩, fun r => ih r (uses.2 r) _ ⟨⟨c, r⟩ :: added, rfl, ?_⟩⟩
    intro e member
    obtain rfl | earlier := List.mem_cons.mp member
    · exact uses.1
    · exact allowedAll e earlier

end Prog

/-- Every executed command of a call is one that its body may issue. -/
theorem System.Reachable.allowed {sys : System I ε Q α S}
    {cond : Pool I ε Q α S → Label Q sys.Choice sys.Act → Prop} {init : S → Prop}
    {pool : Pool I ε Q α S} {allowed : I.Cmd → Prop} (reachable : sys.Reachable cond init pool)
    (bodies : ∀ q, (sys.body q).Uses allowed) (found : pool.thread? t = some th)
    (executed : e ∈ th.trace) : allowed e.cmd := by
  refine reachable.witnessed (P := fun _ _ e => allowed e.cmd) found executed ?_ ?_
  · intro pool t choice th c r s before found next _ _
    exact before.point (P := fun _ _ => allowed) (R := fun _ _ _ => True)
      (fun q => (bodies q).along) found next
  · exact fun _ _ _ _ _ _ _ _ holds => holds

end Async
