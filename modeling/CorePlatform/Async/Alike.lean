import CorePlatform.Async.Pool
import Mathlib.Data.List.Forall2

/-! Two executions of a program under responses that differ in their errors only. A relation
between errors says what may differ; `Alike` is closed under the ways programs are built, and
alike programs end with the same value or with related errors. -/
namespace Async

variable {I : Interface} {ε α β : Type} {R : ε → ε → Prop}

/-- A complete execution: the events in order, and what it ends with. -/
inductive Prog.Yields : Prog I ε α → List (Event I ε) → Except ε α → Prop where
  | done {r : Except ε α} : Yields (.done r) [] r
  | await {c : I.Cmd} {k : Except ε (I.Resp c) → Prog I ε α} {r : Except ε (I.Resp c)}
      {events : List (Event I ε)}
      {out : Except ε α} (rest : (k r).Yields events out) : Yields (.await c k)
        (⟨c, r⟩ :: events) out

theorem Prog.Yields.graft {p : Prog I ε α} {f : Except ε α → Prog I ε β}
    {events later : List (Event I ε)} {r : Except ε α} {out : Except ε β}
    (first : p.Yields events r) (next : (f r).Yields later out) :
    (p.graft f).Yields (events ++ later) out := by
  induction first with
  | done => exact next
  | await _ ih => exact .await (ih next)

theorem Prog.Yields.bind {p : Prog I ε α} {f : α → Prog I ε β}
    {events later : List (Event I ε)} {a : α} {out : Except ε β} (first : p.Yields events (.ok a))
    (next : (f a).Yields later out) :
    (p >>= f).Yields (events ++ later) out := first.graft next

/-- A failure that nothing handles ends the program. -/
theorem Prog.Yields.stops {p : Prog I ε α} {f : α → Prog I ε β} {events : List (Event I ε)} {e : ε}
    (first : p.Yields events (.error e)) : (p >>= f).Yields events (.error e) := by
  have stopped : (p >>= f).Yields (events ++ []) (.error e) := first.graft .done
  rwa [List.append_nil] at stopped

/-- A failure that is handled without a command. -/
theorem Prog.Yields.handled {p : Prog I ε α} {f : ε → Prog I ε α} {events : List (Event I ε)}
    {e : ε} {out : Except ε α} (first : p.Yields events (.error e)) (ends : f e = .done out) :
    (tryCatch p f).Yields events out := by
  have rest : (f e).Yields [] out := by
    rw [ends]
    exact .done
  have caught : (tryCatch p f).Yields (events ++ []) out := first.graft rest
  rwa [List.append_nil] at caught

/-- Equal values or related errors. -/
inductive Paired (R : ε → ε → Prop) : Except ε α → Except ε α → Prop where
  | ok (a : α) : Paired R (.ok a) (.ok a)
  | error {e e' : ε} (related : R e e') : Paired R (.error e) (.error e')

theorem Paired.refl [Std.Refl R] (r : Except ε α) : Paired R r r := by
  cases r with
  | ok a => exact .ok a
  | error e => exact .error (Std.Refl.refl e)

theorem Paired.mono {R' : ε → ε → Prop} {r r' : Except ε α} (paired : Paired R r r')
    (weaker : ∀ e e', R e e' → R' e e') :
    Paired R' r r' := by
  cases paired with
  | ok a => exact .ok a
  | error related => exact .error (weaker _ _ related)

/-- The same command, with paired responses. -/
inductive Twin (R : ε → ε → Prop) : Event I ε → Event I ε → Prop where
  | mk {c : I.Cmd} {r r' : Except ε (I.Resp c)} (paired : Paired R r r') : Twin R ⟨c, r⟩ ⟨c, r'⟩

theorem Twin.refl [Std.Refl R] (e : Event I ε) : Twin R e e := .mk (.refl e.resp)

theorem twins_refl [Std.Refl R] (events : List (Event I ε)) :
    List.Forall₂ (Twin R) events events := by
  induction events with
  | nil => exact .nil
  | cons e events ih => exact .cons (.refl e) ih

/-- Paired responses keep the programs alike. -/
inductive Alike (R : ε → ε → Prop) : Prog I ε α → Prog I ε α → Prop where
  | done {r r' : Except ε α} (paired : Paired R r r') : Alike R (.done r) (.done r')
  | await {c : I.Cmd} {k k' : Except ε (I.Resp c) → Prog I ε α} (next : ∀ r r', Paired R r r' →
      Alike R (k r) (k' r')) :
      Alike R (.await c k) (.await c k')

theorem Alike.perform {c : I.Cmd} : Alike R (Prog.perform c) (Prog.perform c) :=
  .await fun _ _ paired => .done paired

theorem Alike.graft {p p' : Prog I ε α} {f f' : Except ε α → Prog I ε β} (first : Alike R p p')
    (next : ∀ r r', Paired R r r' → Alike R (f r) (f' r')) : Alike R (p.graft f) (p'.graft f') := by
  induction first with
  | done paired => exact next _ _ paired
  | await _ ih => exact .await fun r r' paired => ih r r' paired

theorem Alike.bind {p p' : Prog I ε α} {f f' : α → Prog I ε β} (first : Alike R p p')
    (next : ∀ a, Alike R (f a) (f' a)) :
    Alike R (p >>= f) (p' >>= f') := by
  apply first.graft
  intro r r' paired
  cases paired with
  | ok a => exact next a
  | error related => exact .done (.error related)

theorem Alike.catch {p p' : Prog I ε α} {f f' : ε → Prog I ε α} (first : Alike R p p')
    (handled : ∀ e e', R e e' → Alike R (f e) (f' e')) : Alike R (tryCatch p f)
    (tryCatch p' f') := by
  apply first.graft
  intro r r' paired
  cases paired with
  | ok a => exact .done (.ok a)
  | error related => exact handled _ _ related

/-- Alike programs, under paired responses, end alike. -/
theorem Alike.yields {p p' : Prog I ε α} (alike : Alike R p p') {events events' : List (Event I ε)}
    {r r' : Except ε α} (yielded : p.Yields events r) (yielded' : p'.Yields events' r')
    (twins : List.Forall₂ (Twin R) events events') :
    Paired R r r' := by
  induction alike generalizing events events' with
  | done paired =>
    cases yielded
    cases yielded'
    exact paired
  | await _ ih =>
    cases yielded with
    | await rest =>
      cases yielded' with
      | await rest' =>
        cases twins with
        | cons twin twins =>
          cases twin with
          | mk paired => exact ih _ _ paired rest rest' twins

/-- A program that handles related errors alike. -/
abbrev Blind (R : ε → ε → Prop) (p : Prog I ε α) : Prop := Alike R p p

theorem Blind.done [Std.Refl R] (r : Except ε α) : Blind R (.done r : Prog I ε α) :=
  Alike.done (.refl r)

/-- One command whose failure ends the program. -/
theorem Blind.step {c : I.Cmd} {f : I.Resp c → Prog I ε α} (next : ∀ a, Blind R (f a)) :
    Blind R (Prog.perform c >>= f) :=
  Alike.perform.bind next

theorem Blind.forEach [Std.Refl R] {ι : Type} {f : ι → Prog I ε Unit}
    (round : ∀ x, Blind R (f x)) (xs : List ι) :
    Blind R (Prog.forEach f xs) := by
  induction xs with
  | nil => exact .done _
  | cons x xs ih => exact (round x).bind fun _ => ih

end Async
