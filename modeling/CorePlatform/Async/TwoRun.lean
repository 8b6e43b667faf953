import CorePlatform.Async.Pool

/-! Two executions of one program with the same choices, from stores that may differ in what
the program must not depend on. `Sync` is the relational weakest precondition: every command
that the first execution can carry out has the same response in the second. -/
namespace Async

variable {I : Interface} {ε α β S : Type}

/-- Execute with the given choices and keep what was executed, in order. -/
def Prog.play (sem : Semantics I ε S) : Prog I ε α → S → List sem.Choice →
    Option (List (Event I ε) × Except ε α × S)
  | .done r, s, _ => some ([], r, s)
  | .await c k, s, choice :: rest =>
      match sem.exec c choice s with
      | some (r, t) => ((k r).play sem t rest).map fun (events, out) => (⟨c, r⟩ :: events, out)
      | none => none
  | .await _ _, _, [] => none

/-- From both stores the program executes the same events, all of which meet `G`, returns the
same result, and ends in stores for which `Q` holds. -/
def Sync (sem : Semantics I ε S) (G : Event I ε → Prop) :
    Prog I ε α → S → S → (Except ε α → S → S → Prop) → Prop
  | .done r, s, s', Q => Q r s s'
  | .await c k, s, s', Q => ∀ choice r t, sem.exec c choice s = some (r, t) →
      ∃ t', sem.exec c choice s' = some (r, t') ∧ G ⟨c, r⟩ ∧ Sync sem G (k r) t t' Q

section Rules

variable {sem : Semantics I ε S} {G : Event I ε → Prop} {p : Prog I ε α} {s s' : S}

theorem Sync.mono {P Q : Except ε α → S → S → Prop} (sync : Sync sem G p s s' P)
    (weaker : ∀ r t t', P r t t' → Q r t t') : Sync sem G p s s' Q := by
  induction p generalizing s s' with
  | done r => exact weaker r s s' sync
  | await c k ih =>
    intro choice r t executed
    obtain ⟨t', executed', good, rest⟩ := sync choice r t executed
    exact ⟨t', executed', good, ih r rest⟩

theorem Sync.and_uses {Q : Except ε α → S → S → Prop} {allowed : I.Cmd → Prop}
    (sync : Sync sem G p s s' Q) (uses : p.Uses allowed) :
    Sync sem (fun e => allowed e.cmd ∧ G e) p s s' Q := by
  induction p generalizing s s' with
  | done r => exact sync
  | await c k ih =>
    intro choice r t executed
    obtain ⟨t', executed', good, rest⟩ := sync choice r t executed
    exact ⟨t', executed', ⟨uses.1, good⟩, ih r rest (uses.2 r)⟩

theorem sync_graft {f : Except ε α → Prog I ε β} {Q : Except ε β → S → S → Prop}
    (first : Sync sem G p s s' fun r t t' => Sync sem G (f r) t t' Q) :
    Sync sem G (p.graft f) s s' Q := by
  induction p generalizing s s' with
  | done r => exact first
  | await c k ih =>
    intro choice r t executed
    obtain ⟨t', executed', good, rest⟩ := first choice r t executed
    exact ⟨t', executed', good, ih r rest⟩

theorem sync_bind {f : α → Prog I ε β} {Q : Except ε β → S → S → Prop}
    (first : Sync sem G p s s' fun
      | .ok a, t, t' => Sync sem G (f a) t t' Q
      | .error e, t, t' => Q (.error e) t t') : Sync sem G (p >>= f) s s' Q := by
  refine sync_graft (first.mono fun r t t' holds => ?_)
  cases r <;> exact holds

theorem sync_catch {f : ε → Prog I ε α} {Q : Except ε α → S → S → Prop}
    (first : Sync sem G p s s' fun
      | .ok a, t, t' => Q (.ok a) t t'
      | .error e, t, t' => Sync sem G (f e) t t' Q) : Sync sem G (tryCatch p f) s s' Q := by
  refine sync_graft (first.mono fun r t t' holds => ?_)
  cases r <;> exact holds

/-- Synchronous executions go along. -/
theorem sync_play {choices : List sem.Choice} {events : List (Event I ε)} {r : Except ε α} {t : S}
    {Q : Except ε α → S → S → Prop} (sync : Sync sem G p s s' Q)
    (played : p.play sem s choices = some (events, r, t)) :
    ∃ t', p.play sem s' choices = some (events, r, t') ∧ (∀ e ∈ events, G e) ∧ Q r t t' := by
  induction p generalizing s s' choices events with
  | done out =>
    cases Option.some.inj played
    exact ⟨s', rfl, nofun, sync⟩
  | await c k ih =>
    cases choices with
    | nil => contradiction
    | cons choice rest =>
      simp only [Prog.play] at played
      split at played
      · rename_i r₁ t₁ executed
        obtain ⟨⟨later, out, u⟩, continued, same⟩ := Option.map_eq_some_iff.mp played
        cases same
        obtain ⟨t₁', executed', good, sync⟩ := sync choice r₁ t₁ executed
        obtain ⟨t', continued', goods, holds⟩ := ih r₁ sync continued
        refine ⟨t', ?_, ?_, holds⟩
        · simp only [Prog.play, executed', continued', Option.map_some]
        · intro e member
          obtain rfl | later := List.mem_cons.mp member
          · exact good
          · exact goods e later
      · contradiction

/-- What every event of a kind does to the store, an execution of such events does. -/
theorem play_along {choices : List sem.Choice} {events : List (Event I ε)} {r : Except ε α}
    {t : S} {F : S → S → Prop}
    (played : p.play sem s choices = some (events, r, t)) (goods : ∀ e ∈ events, G e)
    (refl : ∀ s, F s s) (trans : ∀ s t u, F s t → F t u → F s u)
    (execs : ∀ c choice s r t, sem.exec c choice s = some (r, t) → G ⟨c, r⟩ → F s t) : F s t := by
  induction p generalizing s choices events with
  | done out =>
    cases Option.some.inj played
    exact refl _
  | await c k ih =>
    cases choices with
    | nil => contradiction
    | cons choice rest =>
      simp only [Prog.play] at played
      split at played
      · rename_i r₁ t₁ executed
        obtain ⟨⟨later, out, u⟩, continued, same⟩ := Option.map_eq_some_iff.mp played
        cases same
        have first := execs c choice s r₁ t₁ executed (goods _ List.mem_cons_self)
        exact trans _ _ _ first (ih r₁ continued fun e member =>
          goods e (List.mem_cons_of_mem _ member))
      · contradiction

/-- The program keeps a relation between the stores, whatever it returns. -/
def Isolated (sem : Semantics I ε S) (G : Event I ε → Prop) (R : S → S → Prop)
    (p : Prog I ε α) : Prop :=
  ∀ s s', R s s' → Sync sem G p s s' fun _ => R

variable {R : S → S → Prop}

theorem Isolated.done (r : Except ε α) : Isolated sem G R (.done r) := fun _ _ related => related

theorem Isolated.perform {c : I.Cmd}
    (command : ∀ s s' choice r t, R s s' → sem.exec c choice s = some (r, t) →
      ∃ t', sem.exec c choice s' = some (r, t') ∧ G ⟨c, r⟩ ∧ R t t') :
    Isolated sem G R (Prog.perform c) :=
      fun s s' related choice r t executed => command s s' choice r t related executed

theorem Isolated.bind {f : α → Prog I ε β} (first : Isolated sem G R p)
    (next : ∀ a, Isolated sem G R (f a)) :
    Isolated sem G R (p >>= f) := by
  refine fun s s' related => sync_bind ((first s s' related).mono fun r t t' kept => ?_)
  cases r with
  | ok a => exact next a t t' kept
  | error e => exact kept

theorem Isolated.catch {f : ε → Prog I ε α} (first : Isolated sem G R p)
    (handled : ∀ e, Isolated sem G R (f e)) :
    Isolated sem G R (tryCatch p f) := by
  refine fun s s' related => sync_catch ((first s s' related).mono fun r t t' kept => ?_)
  cases r with
  | ok a => exact kept
  | error e => exact handled e t t' kept

end Rules

end Async
