import CorePlatform.Async.Alike
import CorePlatform.Errors.Relay

/-! What a server error tells. Two executions of a handler under the same responses, but for
the texts of internal errors, are compared through the filter. -/
namespace CorePlatform
open Async

/-- The same failure, but for the text of an internal error. -/
inductive SameFailure : Exn → Exn → Prop where
  | same (e : Exn) : SameFailure e e
  | database (code message message' : String) : SameFailure (.database code message)
      (.database code message')
  | error (code : Option String) (message message' : String) : SameFailure (.error code message)
      (.error code message')

/-- Failures between which the filter makes no difference from status 500 on. -/
inductive Masked : Exn → Exn → Prop where
  | same (e : Exn) : Masked e e
  | database (code message message' : String) : Masked (.database code message)
      (.database code message')
  | error (code : Option String) (message message' : String) : Masked (.error code message)
      (.error code message')
  | refused (e : ServiceError) (message : String) (low : e.statusCode < 500) :
      Masked (.service e) (.service { e with message })

instance : Std.Refl SameFailure := ⟨.same⟩

instance : Std.Refl Masked := ⟨.same⟩

theorem SameFailure.masked {e e' : Exn} (failure : SameFailure e e') : Masked e e' := by
  cases failure with
  | same e => exact .same e
  | database code message message' => exact .database code message message'
  | error code message message' => exact .error code message message'

theorem Masked.answer {α : Type} {e e' : Exn} {reply : ErrorReply} (masked : Masked e e')
    (answered : answer (.error e : Except Exn α) = some reply) (server : 500 ≤ reply.status) :
    answer (.error e' : Except Exn α) = some reply := by
  cases masked with
  | same e => exact answered
  | database code message message' => exact answered
  | error code message message' => exact answered
  | refused e message low =>
    have shown := (HttpExceptionFilter.reply_eq_some.mp answered).1
    have status : reply.status = e.statusCode := HttpExceptionFilter.render_status shown
    omega

/-- From status 500 on, two executions that differ in the texts of internal errors only are
answered with the same message. -/
def Conceals {I : Interface} {α : Type} (p : Prog I Exn α) : Prop :=
  ∀ events events' r r' reply reply', List.Forall₂ (Twin SameFailure) events events' →
    p.Yields events r → p.Yields events' r' → answer r = some reply → answer r' = some reply' →
    500 ≤ reply.status → reply.message = reply'.message

section Conceals

variable {I : Interface} {α : Type} {p : Prog I Exn α}

theorem conceals_of_blind (blind : Blind Masked p) : Conceals p := by
  intro events events' r r' reply reply' twins yielded yielded' answered answered' server
  have masked : List.Forall₂ (Twin Masked) events events' := by
    refine twins.imp fun e e' twin => ?_
    obtain ⟨paired⟩ := twin
    exact .mk (paired.mono fun _ _ => SameFailure.masked)
  cases blind.yields yielded yielded' masked with
  | ok a => contradiction
  | error related =>
    have same := related.answer answered server
    rw [Option.some.inj (same.symm.trans answered')]

/-- A program that tells the text of a failure of its last command. -/
theorem not_conceals {events : List (Event I Exn)} {c : I.Cmd}
    (tells : ∀ message, message ≠ "" → p.Yields (events ++ [⟨c, .error (.error none message)⟩])
      (.error (.service { code := ErrorCodes.INTERNAL, statusCode := 500, message }))) :
      ¬ Conceals p := by
  intro conceals
  have failures : Twin SameFailure (⟨c, .error (.error none "read ECONNRESET")⟩ : Event I Exn)
    ⟨c, .error (.error none "connect ETIMEDOUT 10.0.0.5:5432")⟩ := .mk (.error (.error none _ _))
  have twins := List.rel_append (twins_refl events) (List.Forall₂.cons failures .nil)
  have same :=
    conceals _ _ _ _ _ _ twins (tells _ (by decide)) (tells _ (by decide)) rfl rfl (by decide)
  contradiction

end Conceals

end CorePlatform
