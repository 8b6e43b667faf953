import CorePlatform.Async.Program

/-! Sequential meaning of asynchronous programs and its rules. A semantics executes
one command at a time; whatever the command leaves open (which matching row, which
random draw, whether the backend fails) is an explicit choice, so that a run can be
computed. `Post` is the weakest precondition over all choices. -/
namespace Async

/-- `exec c choice s` is the response and the next store, or `none` when the choice
is not one the command can make in `s`. -/
structure Semantics (I : Interface) (ε S : Type) where
  Choice : Type
  exec : (c : I.Cmd) → Choice → S → Option (Except ε (I.Resp c) × S)

variable {I : Interface} {ε α β S : Type}

def Semantics.Responds (sem : Semantics I ε S) (c : I.Cmd) (s : S) (r : Except ε (I.Resp c))
    (t : S) : Prop := ∃ choice, sem.exec c choice s = some (r, t)

/-- One completed execution of a program with nothing in between its commands. -/
inductive Runs (sem : Semantics I ε S) : Prog I ε α → S → Except ε α → S → Prop where
  | done : Runs sem (.done r) s r s
  | await : sem.Responds c s r t → Runs sem (k r) t out u → Runs sem (.await c k) s out u

/-- Every execution of `p` from `s` ends in `Q`. -/
def Post (sem : Semantics I ε S) : Prog I ε α → S → (Except ε α → S → Prop) → Prop
  | .done r, s, Q => Q r s
  | .await c k, s, Q => ∀ r t, sem.Responds c s r t → Post sem (k r) t Q

section Rules

variable {sem : Semantics I ε S} {p : Prog I ε α} {s : S}

theorem post_iff_runs {Q : Except ε α → S → Prop} :
    Post sem p s Q ↔ ∀ r t, Runs sem p s r t → Q r t := by
  induction p generalizing s with
  | done r =>
    constructor
    · rintro holds _ _ ⟨⟩
      exact holds
    · exact fun holds => holds _ _ .done
  | await c k ih =>
    constructor
    · intro holds out u run
      cases run with
      | await responds rest => exact (ih _).mp (holds _ _ responds) _ _ rest
    · exact fun holds r t responds => (ih r).mpr fun out u rest => holds _ _ (.await responds rest)

theorem Post.mono {P Q : Except ε α → S → Prop} (holds : Post sem p s P)
    (weaker : ∀ r t, P r t → Q r t) : Post sem p s Q :=
  post_iff_runs.mpr fun r t run => weaker r t (post_iff_runs.mp holds r t run)

theorem post_graft {f : Except ε α → Prog I ε β} {Q : Except ε β → S → Prop} :
    Post sem (p.graft f) s Q ↔ Post sem p s fun r t => Post sem (f r) t Q := by
  induction p generalizing s with
  | done r => rfl
  | await c k ih =>
      exact forall_congr' fun r => forall_congr' fun t => imp_congr_right fun _ => ih r

@[simp] theorem post_done {r : Except ε α} {Q : Except ε α → S → Prop} :
    Post sem (.done r) s Q ↔ Q r s := Iff.rfl

theorem post_bind {f : α → Prog I ε β} {Q : Except ε β → S → Prop} :
    Post sem (p >>= f) s Q ↔ Post sem p s fun
      | .ok a, t => Post sem (f a) t Q
      | .error e, t => Q (.error e) t := by
  refine post_graft.trans (iff_of_eq (congrArg _ (funext fun r => funext fun t => ?_)))
  cases r <;> rfl

theorem post_catch {f : ε → Prog I ε α} {Q : Except ε α → S → Prop} :
    Post sem (tryCatch p f) s Q ↔ Post sem p s fun
      | .ok a, t => Q (.ok a) t
      | .error e, t => Post sem (f e) t Q := by
  refine post_graft.trans (iff_of_eq (congrArg _ (funext fun r => funext fun t => ?_)))
  cases r <;> rfl

theorem post_perform {c : I.Cmd} {Q : Except ε (I.Resp c) → S → Prop} :
    Post sem (Prog.perform c) s Q ↔ ∀ r t, sem.Responds c s r t → Q r t := Iff.rfl

/-- One command, where the backend has a single answer to it. -/
theorem post_command {c : I.Cmd} {r : Except ε (I.Resp c)} {f : I.Resp c → Prog I ε α}
    {Q : Except ε α → S → Prop} (responds : sem.Responds c s r t)
    (only : ∀ r' t', sem.Responds c s r' t' → r' = r ∧ t' = t) :
    Post sem (Prog.perform c >>= f) s Q ↔ Post sem (.done r >>= f) t Q := by
  constructor
  · exact fun holds => post_bind.mpr (post_bind.mp holds r t responds)
  · intro holds
    refine post_bind.mpr fun r' t' answered => ?_
    obtain ⟨rfl, rfl⟩ := only r' t' answered
    exact post_bind.mp holds

/-- A loop keeps what each of its rounds keeps. -/
theorem post_forEach {ι : Type} {f : ι → Prog I ε Unit} {P : S → Prop}
    (round : ∀ x s, P s → Post sem (f x) s fun _ t => P t) (xs : List ι) (start : P s) :
    Post sem (Prog.forEach f xs) s fun _ t => P t := by
  induction xs generalizing s with
  | nil => exact start
  | cons x xs ih =>
    refine post_bind.mpr ((round x s start).mono fun r t kept => ?_)
    cases r with
    | error e => exact kept
    | ok _ => exact ih kept

/-- A program whose commands can all respond has an execution. -/
theorem runs_exists (total : ∀ c s, ∃ r t, sem.Responds c s r t) (p : Prog I ε α) (s : S) :
    ∃ r t, Runs sem p s r t := by
  induction p generalizing s with
  | done r => exact ⟨r, s, .done⟩
  | await c k ih =>
    obtain ⟨r, t, responds⟩ := total c s
    obtain ⟨out, u, rest⟩ := ih r t
    exact ⟨out, u, .await responds rest⟩

end Rules

/-- Execute with the given choices, one for each command. -/
def Prog.eval (sem : Semantics I ε S) : Prog I ε α → S → List sem.Choice → Option (Except ε α × S)
  | .done r, s, _ => some (r, s)
  | .await c k, s, choice :: rest =>
      match sem.exec c choice s with
      | some (r, t) => (k r).eval sem t rest
      | none => none
  | .await _ _, _, [] => none

theorem runs_eval {sem : Semantics I ε S} {p : Prog I ε α} {choices : List sem.Choice}
    (evaluated : p.eval sem s choices = some (r, t)) : Runs sem p s r t := by
  induction p generalizing s choices with
  | done out =>
    simp only [Prog.eval, Option.some.injEq, Prod.mk.injEq] at evaluated
    obtain ⟨rfl, rfl⟩ := evaluated
    exact .done
  | await c k ih =>
    cases choices with
    | nil => contradiction
    | cons choice rest =>
      simp only [Prog.eval] at evaluated
      split at evaluated
      · rename_i out u executed
        exact .await ⟨choice, executed⟩ (ih _ evaluated)
      · contradiction

/-- What a boolean test finds at the end of an evaluation is reached by an execution. -/
theorem runs_of_eval {sem : Semantics I ε S} {p : Prog I ε α} {choices : List sem.Choice}
    {test : Except ε α × S → Bool}
    (tested : (p.eval sem s choices).any test = true) : ∃ r t, Runs sem p s r t ∧
    test (r, t) = true := by
  obtain ⟨⟨r, t⟩, evaluated, passed⟩ := (Option.any_eq_true _ _).mp tested
  exact ⟨r, t, runs_eval evaluated, passed⟩

section Evaluation

variable {sem : Semantics I ε S} {s : S} {choices : List sem.Choice}

theorem eval_await {c : I.Cmd} {k : Except ε (I.Resp c) → Prog I ε α} {out : Except ε α × S}
    (evaluated : (Prog.await c k).eval sem s choices = some out) :
    ∃ choice rest r t, choices = choice :: rest ∧ sem.exec c choice s = some (r, t) ∧
      (k r).eval sem t rest = some out := by
  cases choices with
  | nil => contradiction
  | cons choice rest =>
    simp only [Prog.eval] at evaluated
    split at evaluated
    · rename_i r t executed
      exact ⟨choice, rest, r, t, rfl, executed, evaluated⟩
    · contradiction

/-- A handler without commands changes the result only. -/
theorem eval_graft_done {p : Prog I ε α} {f : Except ε α → Prog I ε β} {r : Except ε β} {t : S}
    (quiet : ∀ r, ∃ r', f r = .done r') (evaluated : (p.graft f).eval sem s choices = some (r, t)) :
    ∃ r', p.eval sem s choices = some (r', t) := by
  induction p generalizing s choices with
  | done r' =>
    obtain ⟨r'', same⟩ := quiet r'
    rw [Prog.graft, same] at evaluated
    cases Option.some.inj evaluated
    exact ⟨r', rfl⟩
  | await c k ih =>
    obtain ⟨choice, rest, r₀, t₀, rfl, executed, evaluated⟩ := eval_await evaluated
    obtain ⟨r', evaluated⟩ := ih r₀ evaluated
    exact ⟨r', by simpa only [Prog.eval, executed] using evaluated⟩

end Evaluation

end Async
