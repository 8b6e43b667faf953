import CorePlatform.Async.Pool
import CorePlatform.Common.Errors

/-! `BaseJetstreamConsumer`: the consume loop around the handler of a subject. JetStream
delivers a message again as long as it has not been acknowledged. The commands of the service
itself, those of handlers among them, are an interface of their own. -/
namespace CorePlatform.Nats
open Async

/-- `JsMsg`, with its position in the stream. -/
structure Msg where
  seq : Nat
  text : String

inductive LoopCmd (H : Interface)
  /-- `this.consumeAborted` of the instance. -/
  | aborted
  /-- `js.consumers.get(streamName, durableName)` -/
  | getConsumer
  /-- `consumer.fetch(...)` -/
  | fetch
  /-- The next message of the batch, none when the batch is over. -/
  | next
  | ack (seq : Nat)
  | nak (seq : Nat)
  /-- A command of the service, for a delivery or in another call. -/
  | own (delivery : Option Nat) (c : H.Cmd)

@[reducible] def LoopCmd.Resp {H : Interface} : LoopCmd H → Type
  | .aborted => Bool
  | .getConsumer | .fetch | .ack _ | .nak _ => Unit
  | .next => Option Msg
  | .own _ c => H.Resp c

abbrev Loop (H : Interface) : Interface := ⟨LoopCmd H, LoopCmd.Resp⟩

variable {H : Interface} {ε α : Type}

def perform (c : LoopCmd H) : Prog (Loop H) ε c.Resp := Prog.perform (I := Loop H) c

/-- The program of a service, on behalf of a delivery. -/
def within (delivery : Option Nat) : Prog H ε α → Prog (Loop H) ε α
  | .done r => .done r
  | .await c k => .await (.own delivery c) fun r => within delivery (k r)

namespace BaseJetstreamConsumer

def max_messages : Nat := 5

/-- `for await (const msg of messages)`, with at most `n` messages left in the batch. -/
def consumeBatch (handle : Msg → Prog H ε Unit) : Nat → Prog (Loop H) ε Unit
  | 0 => pure ()
  | n + 1 => do
    match ← perform .next with
    | none => return ()
    | some msg =>
      if ← perform .aborted then return ()
      else
        tryCatch (do within msg.seq (handle msg); perform (.ack msg.seq)) fun _ =>
          perform (.nak msg.seq)
        consumeBatch handle n

/-- One round of `while (!this.consumeAborted)`. An error of the batch ends the round. -/
def consumeRound (handle : Msg → Prog H ε Unit) : Prog (Loop H) ε Unit := do
  if ← perform .aborted then return ()
  else
    tryCatch (do
      perform .getConsumer
      perform .fetch
      consumeBatch handle max_messages) fun _ => pure ()

end BaseJetstreamConsumer

section Points

variable {trace : List (Event (Loop H) ε)} {handle : Msg → Prog H ε Unit}
  {P : Msg → List (Event H ε) → H.Cmd → Prop} {R : Msg → List (Event H ε) → Except ε Unit → Prop}

/-- The events of a program, as its service executes them for a delivery. -/
def onBehalf (delivery : Option Nat) (handled : List (Event H ε)) : List (Event (Loop H) ε) :=
  handled.map fun e => ⟨.own delivery e.cmd, e.resp⟩

section Within

variable {delivery : Option Nat} {p : Prog H ε α} {P₀ : List (Event H ε) → H.Cmd → Prop}
  {R₀ : List (Event H ε) → Except ε α → Prop} {P : List (Event (Loop H) ε) → LoopCmd H → Prop}
  {R : List (Event (Loop H) ε) → Except ε α → Prop} {handled : List (Event H ε)}

theorem along_within_after (along : Along P₀ R₀ handled p)
    (commands : ∀ handled c, P₀ handled c →
      P (onBehalf delivery handled ++ trace) (.own delivery c))
    (results : ∀ handled r, R₀ handled r → R (onBehalf delivery handled ++ trace) r) :
    Along P R (onBehalf delivery handled ++ trace) (within delivery p) := by
  induction p generalizing handled with
  | done r => exact results handled r along
  | await c k ih => exact ⟨commands handled c along.1, fun r => ih r (along.2 r)⟩

theorem along_within (along : Along P₀ R₀ [] p)
    (commands : ∀ handled c, P₀ handled c →
      P (onBehalf delivery handled ++ trace) (.own delivery c))
    (results : ∀ handled r, R₀ handled r → R (onBehalf delivery handled ++ trace) r) :
    Along P R trace (within delivery p) :=
  along_within_after along commands results

end Within

/-- The trace shows a delivery of the message and what its handler has executed so far. -/
structure Delivered (trace : List (Event (Loop H) ε)) (msg : Msg)
    (handled : List (Event H ε)) : Prop where
  received : ⟨.next, .ok (some msg)⟩ ∈ trace
  executed : ∀ e ∈ handled, ⟨.own msg.seq e.cmd, e.resp⟩ ∈ trace

/-- A message is acknowledged where its handler has returned, and a command of the service is
one of the handler of a delivered message. -/
def LoopPoint (P : Msg → List (Event H ε) → H.Cmd → Prop)
    (R : Msg → List (Event H ε) → Except ε Unit → Prop)
    (trace : List (Event (Loop H) ε)) : LoopCmd H → Prop
  | .ack seq => ∃ msg handled, msg.seq = seq ∧ Delivered trace msg handled ∧ R msg handled (.ok ())
  | .own delivery c =>
      ∃ msg handled, delivery = some msg.seq ∧ Delivered trace msg handled ∧ P msg handled c
  | _ => True

theorem delivered_onBehalf {msg : Msg} {handled : List (Event H ε)}
    (received : ⟨.next, .ok (some msg)⟩ ∈ trace) :
    Delivered (onBehalf msg.seq handled ++ trace) msg handled where
  received := List.mem_append_right _ received
  executed e found := List.mem_append_left _ (List.mem_map.mpr ⟨e, found, rfl⟩)

theorem along_consumeBatch (handlers : ∀ msg, Along (P msg) (R msg) [] (handle msg)) (n : Nat) :
    Along (fun trace c => LoopPoint P R trace c)
    (fun _ _ => True) trace (BaseJetstreamConsumer.consumeBatch handle n) := by
  induction n generalizing trace with
  | zero => trivial
  | succ n ih =>
    apply along_await_bind trivial (fun _ _ => trivial)
    intro received
    cases received with
    | none => trivial
    | some msg =>
      apply along_await_bind trivial (fun _ _ => trivial)
      intro aborted
      cases aborted with
      | true => trivial
      | false =>
        have delivery : ∀ handled, Delivered (onBehalf msg.seq handled ++
            (⟨.aborted, .ok false⟩ :: ⟨.next, .ok (some msg)⟩ ::
              trace : List (Event (Loop H) ε))) msg handled :=
          fun handled => delivered_onBehalf (List.mem_cons_of_mem _ List.mem_cons_self)
        -- after the message the batch goes on, unless its refusal fails
        have rest : ∀ trace, Along (fun trace c => LoopPoint P R trace c) (fun _ _ => True) trace
            (do perform (.nak msg.seq); BaseJetstreamConsumer.consumeBatch handle n) := fun trace =>
          along_await_bind trivial (fun _ _ => trivial) fun _ => ih
        refine along_bind.mpr (along_catch.mpr (along_bind.mpr (along_within (handlers msg) ?_ ?_)))
        · exact fun handled c point => ⟨msg, handled, rfl, delivery handled, point⟩
        · intro handled r returned
          cases r with
          | error e => exact along_bind.mp (rest _)
          | ok _ =>
            refine ⟨⟨msg, handled, rfl, delivery handled, returned⟩, fun r => ?_⟩
            cases r with
            | error e => exact along_bind.mp (rest _)
            | ok _ => exact ih

theorem along_consumeRound (handlers : ∀ msg, Along (P msg) (R msg) [] (handle msg)) :
    Along (fun trace c => LoopPoint P R trace c)
    (fun _ _ => True) trace (BaseJetstreamConsumer.consumeRound handle) := by
  apply along_await_bind trivial (fun _ _ => trivial)
  intro aborted
  cases aborted with
  | true => trivial
  | false =>
    refine along_catch.mpr (Along.mono (P := fun trace c => LoopPoint P R trace c)
      (R := fun _ _ => True) ?_
      (fun _ _ point => point) fun trace r _ => by cases r <;> trivial)
    apply along_await_bind trivial (fun _ _ => trivial)
    intro _
    apply along_await_bind trivial (fun _ _ => trivial)
    intro _
    exact along_consumeBatch handlers _

end Points

/-- The stream of a subject and what its durable consumer has acknowledged. -/
structure JetStream where
  stream : List String := []
  acked : List Nat := []

/-- The choices of a command: the message that is delivered, the state of the instance, or a
failure. -/
structure LoopChoice (ε : Type) where
  message : Option Nat := none
  aborted : Bool := false
  fault : Option ε := none

/-- Any message that has not been acknowledged may be delivered, the first time or again. -/
def JetStream.exec (js : JetStream) (choice : LoopChoice ε) :
    (c : LoopCmd H) → Option (Except ε c.Resp × JetStream)
  | .aborted => some (.ok choice.aborted, js)
  | .getConsumer | .fetch | .nak _ => some ((choice.fault.elim (.ok ()) .error), js)
  | .next =>
    match choice.fault, choice.message with
    | some e, _ => some (.error e, js)
    | none, none => some (.ok none, js)
    | none, some seq =>
      match js.stream[seq]? with
      | some text => if seq ∈ js.acked then none else some (.ok (some ⟨seq, text⟩), js)
      | none => none
  | .ack seq =>
    match choice.fault with
    | some e => some (.error e, js)
    | none => some (.ok (), { js with acked := seq :: js.acked })
  | .own .. => none

section Broker

variable {js js' : JetStream} {choice : LoopChoice ε}

/-- What a command of the loop does to the stream and its acknowledgements. -/
theorem JetStream.exec_effect {c : LoopCmd H} {r : Except ε c.Resp}
    (executed : js.exec choice c = some (r, js')) :
    js' = js ∨ ∃ seq, c = .ack seq ∧ js' = { js with acked := seq :: js.acked } := by
  cases c with
  | own => contradiction
  | aborted | getConsumer | fetch | nak =>
    obtain ⟨_, rfl⟩ := Prod.mk.inj (Option.some.inj executed)
    exact .inl rfl
  | ack seq =>
    simp only [JetStream.exec] at executed
    split at executed
    · obtain ⟨_, rfl⟩ := Prod.mk.inj (Option.some.inj executed)
      exact .inl rfl
    · obtain ⟨_, rfl⟩ := Prod.mk.inj (Option.some.inj executed)
      exact .inr ⟨seq, rfl, rfl⟩
  | next =>
    simp only [JetStream.exec] at executed
    split at executed
    · obtain ⟨_, rfl⟩ := Prod.mk.inj (Option.some.inj executed)
      exact .inl rfl
    · obtain ⟨_, rfl⟩ := Prod.mk.inj (Option.some.inj executed)
      exact .inl rfl
    · split at executed
      · split at executed
        · contradiction
        · obtain ⟨_, rfl⟩ := Prod.mk.inj (Option.some.inj executed)
          exact .inl rfl
      · contradiction

theorem JetStream.exec_next {msg : Msg}
    (executed : js.exec (H := H) choice .next = some (.ok (some msg), js')) :
    js.stream[msg.seq]? = some msg.text := by
  simp only [JetStream.exec] at executed
  split at executed
  · nomatch executed
  · nomatch executed
  · rename_i seq _ _
    split at executed
    · rename_i text found
      split at executed
      · contradiction
      · have same := Option.some.inj (Except.ok.inj (Prod.mk.inj (Option.some.inj executed)).1)
        rw [← same]
        exact found
    · contradiction

end Broker

end CorePlatform.Nats
