import CorePlatform.Async.Pool

/-! Executions with a record of the commands they have taken, the choice made for each and its
response. `PostRecord` is the weakest precondition of a property of record, result and store,
which may relate what has gone wrong to where it has. -/
namespace Async

/-- One executed command. -/
structure Taken {I : Interface} {ε S : Type} (sem : Semantics I ε S) where
  cmd : I.Cmd
  choice : sem.Choice
  resp : Except ε (I.Resp cmd)

variable {I : Interface} {ε α β S : Type} {sem : Semantics I ε S}

def Taken.event (step : Taken sem) : Event I ε := ⟨step.cmd, step.resp⟩

/-- One completed execution with nothing in between its commands. -/
inductive Executes (sem : Semantics I ε S) : Prog I ε α → S → List (Taken sem) →
    Except ε α → S → Prop where
  | done : Executes sem (.done r) s [] r s
  | await : sem.exec c choice s = some (r, t) → Executes sem (k r) t steps out u →
      Executes sem (.await c k) s (⟨c, choice, r⟩ :: steps) out u

/-- Every execution of `p` from `s` ends in `Q`. -/
def PostRecord (sem : Semantics I ε S) :
    Prog I ε α → S → (List (Taken sem) → Except ε α → S → Prop) → Prop
  | .done r, s, Q => Q [] r s
  | .await c k, s, Q => ∀ choice r t, sem.exec c choice s = some (r, t) →
      PostRecord sem (k r) t fun steps => Q (⟨c, choice, r⟩ :: steps)

section Rules

variable {p : Prog I ε α} {s t : S} {steps : List (Taken sem)} {r : Except ε α}

theorem postRecord_iff {Q : List (Taken sem) → Except ε α → S → Prop} :
    PostRecord sem p s Q ↔ ∀ steps r t, Executes sem p s steps r t → Q steps r t := by
  induction p generalizing s Q with
  | done r =>
    constructor
    · rintro holds _ _ _ ⟨⟩
      exact holds
    · exact fun holds => holds _ _ _ .done
  | await c k ih =>
    constructor
    · intro holds steps out u execution
      cases execution with
      | await executed rest => exact (ih _).mp (holds _ _ _ executed) _ _ _ rest
    · exact fun holds choice r t executed => (ih r).mpr fun steps out u rest =>
        holds _ _ _ (.await executed rest)

theorem PostRecord.mono {P Q : List (Taken sem) → Except ε α → S → Prop}
    (holds : PostRecord sem p s P) (weaker : ∀ steps r t, P steps r t → Q steps r t) :
    PostRecord sem p s Q :=
  postRecord_iff.mpr fun steps r t execution =>
    weaker steps r t (postRecord_iff.mp holds steps r t execution)

@[simp] theorem postRecord_done {Q : List (Taken sem) → Except ε α → S → Prop} :
    PostRecord sem (.done r) s Q ↔ Q [] r s := Iff.rfl

theorem postRecord_graft {f : Except ε α → Prog I ε β}
    {Q : List (Taken sem) → Except ε β → S → Prop} :
    PostRecord sem (p.graft f) s Q ↔
      PostRecord sem p s fun steps r t => PostRecord sem (f r) t fun steps' =>
        Q (steps ++ steps') := by
  induction p generalizing s Q with
  | done r => rfl
  | await c k ih =>
      exact forall_congr' fun _ => forall_congr' fun r => forall_congr' fun _ =>
        imp_congr_right fun _ => ih r

theorem postRecord_bind {f : α → Prog I ε β} {Q : List (Taken sem) → Except ε β → S → Prop} :
    PostRecord sem (p >>= f) s Q ↔ PostRecord sem p s fun
      | steps, .ok a, t => PostRecord sem (f a) t fun steps' => Q (steps ++ steps')
      | steps, .error e, t => Q steps (.error e) t := by
  refine postRecord_graft.trans
    (iff_of_eq (congrArg _ (funext fun steps => funext fun r => funext fun t => ?_)))
  cases r with
  | ok a => rfl
  | error e => simp only [postRecord_done, List.append_nil]

theorem postRecord_catch {f : ε → Prog I ε α} {Q : List (Taken sem) → Except ε α → S → Prop} :
    PostRecord sem (tryCatch p f) s Q ↔ PostRecord sem p s fun
      | steps, .ok a, t => Q steps (.ok a) t
      | steps, .error e, t => PostRecord sem (f e) t fun steps' => Q (steps ++ steps') := by
  refine postRecord_graft.trans
    (iff_of_eq (congrArg _ (funext fun steps => funext fun r => funext fun t => ?_)))
  cases r with
  | ok a => simp only [postRecord_done, List.append_nil]
  | error e => rfl

/-- One command whose failure ends the program. -/
theorem postRecord_command {c : I.Cmd} {f : I.Resp c → Prog I ε α}
    {Q : List (Taken sem) → Except ε α → S → Prop}
    (next : ∀ choice r t, sem.exec c choice s = some (r, t) → match r with
      | .ok a => PostRecord sem (f a) t fun steps => Q (⟨c, choice, .ok a⟩ :: steps)
      | .error e => Q [⟨c, choice, .error e⟩] (.error e) t) :
    PostRecord sem (Prog.perform c >>= f) s Q := by
  intro choice r t executed
  have following := next choice r t executed
  cases r with
  | ok a => exact following
  | error e => exact following

/-- A handler that rethrows. -/
theorem postRecord_mapError {other : ε → ε} {Q : List (Taken sem) → Except ε α → S → Prop}
    (holds : PostRecord sem p s fun
      | steps, .ok a, t => Q steps (.ok a) t
      | steps, .error e, t => Q steps (.error (other e)) t) :
    PostRecord sem (tryCatch p fun e => throw (other e)) s Q := by
  refine postRecord_catch.mpr (holds.mono fun steps r t holds => ?_)
  cases r with
  | ok a => exact holds
  | error e =>
    simp only [Prog.throw_eq, postRecord_done, List.append_nil]
    exact holds

/-- A handler that rethrows leaves the commands and the store as they are. -/
theorem executes_mapError {other : ε → ε}
    (execution : Executes sem (tryCatch p fun e => throw (other e)) s steps r t) :
    ∃ r', Executes sem p s steps r' t ∧ r = r'.mapError other := by
  have body : PostRecord sem (tryCatch p fun e => throw (other e)) s fun steps r t =>
      ∃ r', Executes sem p s steps r' t ∧ r = r'.mapError other := by
    refine postRecord_mapError (postRecord_iff.mpr fun steps r t execution => ?_)
    cases r with
    | ok a => exact ⟨_, execution, rfl⟩
    | error e => exact ⟨_, execution, rfl⟩
  exact postRecord_iff.mp body steps r t execution

/-- The choices determine an execution. -/
theorem Executes.unique (execution : Executes sem p s steps r t)
    (other : Executes sem p s steps r' t') : r' = r ∧ t' = t := by
  induction execution generalizing r' t' with
  | done =>
    cases other
    exact ⟨rfl, rfl⟩
  | await executed _ ih =>
    cases other with
    | await executed' rest =>
      obtain ⟨_, rfl⟩ := Prod.mk.inj (Option.some.inj (executed.symm.trans executed'))
      exact ih rest

theorem executes_done {r' : Except ε α} (execution : Executes sem (.done r') s steps r t) :
    r = r' ∧ t = s := by
  cases execution
  exact ⟨rfl, rfl⟩

theorem executes_await {c : I.Cmd} {k : Except ε (I.Resp c) → Prog I ε α}
    (execution : Executes sem (.await c k) s steps r t) :
    ∃ choice r' t' rest, steps = ⟨c, choice, r'⟩ :: rest ∧ sem.exec c choice s = some (r', t') ∧
      Executes sem (k r') t' rest r t := by
  cases execution with
  | await executed rest => exact ⟨_, _, _, _, rfl, executed, rest⟩

/-- What every command keeps, an execution keeps. -/
theorem Executes.kept {P : S → Prop} (execution : Executes sem p s steps r t)
    (kept : ∀ c choice s r t, sem.exec c choice s = some (r, t) → P s → P t)
    (start : P s) : P t := by
  induction execution with
  | done => exact start
  | await executed _ ih => exact ih (kept _ _ _ _ _ executed start)

theorem Executes.allowed {allowed : I.Cmd → Prop} (uses : p.Uses allowed)
    (execution : Executes sem p s steps r t) : ∀ step ∈ steps, allowed step.cmd := by
  induction execution with
  | done => exact fun step member => absurd member List.not_mem_nil
  | await _ _ ih => exact List.forall_mem_cons.mpr ⟨uses.1, ih (uses.2 _)⟩

theorem Executes.runs (execution : Executes sem p s steps r t) : Runs sem p s r t := by
  induction execution with
  | done => exact .done
  | await executed rest ih => exact .await ⟨_, executed⟩ ih

theorem Runs.executes (run : Runs sem p s r t) : ∃ steps, Executes sem p s steps r t := by
  induction run with
  | done => exact ⟨[], .done⟩
  | await responds rest ih =>
    obtain ⟨choice, executed⟩ := responds
    obtain ⟨steps, rest⟩ := ih
    exact ⟨_, .await executed rest⟩

end Rules

/-- Execute with the given choices, one for each command. -/
def Prog.record (sem : Semantics I ε S) : Prog I ε α → S → List sem.Choice →
    Option (List (Taken sem) × Except ε α × S)
  | .done r, s, _ => some ([], r, s)
  | .await c k, s, choice :: rest =>
      match sem.exec c choice s with
      | some (r, t) => ((k r).record sem t rest).map fun out => (⟨c, choice, r⟩ :: out.1, out.2)
      | none => none
  | .await _ _, _, [] => none

theorem executes_record {p : Prog I ε α} {s t : S} {choices : List sem.Choice}
    {steps : List (Taken sem)} {r : Except ε α}
    (recorded : p.record sem s choices = some (steps, r, t)) : Executes sem p s steps r t := by
  induction p generalizing s choices steps with
  | done out =>
    cases Option.some.inj recorded
    exact .done
  | await c k ih =>
    cases choices with
    | nil => contradiction
    | cons choice rest =>
      simp only [Prog.record] at recorded
      split at recorded
      · rename_i out u executed
        obtain ⟨⟨steps', r', t'⟩, following, same⟩ := Option.map_eq_some_iff.mp recorded
        cases same
        exact .await executed (ih _ following)
      · contradiction

/-- What a boolean test finds at the end of an execution with given choices is reached. -/
theorem executes_of_record {p : Prog I ε α} {s : S} {choices : List sem.Choice}
    {test : List (Taken sem) × Except ε α × S → Bool}
    (tested : (p.record sem s choices).any test = true) :
    ∃ steps r t, Executes sem p s steps r t ∧ test (steps, r, t) = true := by
  obtain ⟨⟨steps, r, t⟩, recorded, passed⟩ := (Option.any_eq_true _ _).mp tested
  exact ⟨steps, r, t, executes_record recorded, passed⟩

end Async
