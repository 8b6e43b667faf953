import CorePlatform.Async.Record
import CorePlatform.Nats.Consumer

/-! `startConsumeLoop`: which messages are acknowledged and which are refused. Other code of the
instance, `onModuleDestroy` among it, runs only while the loop waits. -/
namespace CorePlatform.Nats
open Async

deriving instance DecidableEq for Msg

/-- The promises of `handle`, one for each message that is passed to it. -/
abbrev Handling : Interface := ⟨Msg, fun _ => Unit⟩

variable {H : Interface} {ε : Type}

def promise (msg : Msg) : Prog Handling ε Unit := Prog.perform (I := Handling) msg

/-- `while (!this.consumeAborted)`, followed for some rounds, and in each for some messages. -/
def BaseJetstreamConsumer.startConsumeLoop (handle : Msg → Prog H ε Unit) :
    List Nat → Prog (Loop H) ε Unit
  | [] => pure ()
  | n :: rounds => do
    if ← perform .aborted then return ()
    else
      let again ← tryCatch (do
        perform .getConsumer
        perform .fetch
        consumeBatch handle n
        return true) fun _ => do
          let aborted ← perform .aborted
          return !aborted
      if again then startConsumeLoop handle rounds

/-- What a command leaves open: a failure, the message that is delivered, and whether
`onModuleDestroy` runs while the loop waits. -/
structure ConsumeChoice (ε : Type) where
  fault : Option ε := none
  message : Option Msg := none
  destroyed : Bool := false

/-- The commands of the loop, on `this.consumeAborted`. A message is settled without waiting, and
without a failure. -/
def consumeExec (ch : ConsumeChoice ε) (consumeAborted : Bool) :
    (c : LoopCmd Handling) → Option (Except ε c.Resp × Bool)
  | .aborted => if ch.destroyed then none else some (.ok consumeAborted, consumeAborted)
  | .ack _ | .nak _ => if ch.destroyed then none else some (.ok (), consumeAborted)
  | .getConsumer | .fetch | .own _ _ =>
      some (ch.fault.elim (.ok ()) .error, consumeAborted || ch.destroyed)
  | .next => some (ch.fault.elim (.ok ch.message) .error, consumeAborted || ch.destroyed)

def consumeSemantics (ε : Type) : Semantics (Loop Handling) ε Bool :=
  ⟨ConsumeChoice ε, fun c ch s => consumeExec ch s c⟩

/-- What is done with messages. -/
inductive Mark where
  | handled (msg : Msg) (resolved : Bool)
  | acked (seq : Nat)
  | refused (seq : Nat)
  deriving DecidableEq

def mark? : Taken (consumeSemantics ε) → Option Mark
  | ⟨.own _ msg, _, .ok _⟩ => some (.handled msg true)
  | ⟨.own _ msg, _, .error _⟩ => some (.handled msg false)
  | ⟨.ack seq, _, _⟩ => some (.acked seq)
  | ⟨.nak seq, _, _⟩ => some (.refused seq)
  | _ => none

/-- A message whose promise has settled, and its own settlement. -/
def settle : Msg × Bool → List Mark
  | (msg, true) => [.handled msg true, .acked msg.seq]
  | (msg, false) => [.handled msg false, .refused msg.seq]

/-- Every message that is handled is settled next, by the outcome of its own promise, and nothing
else is settled. -/
def Settled (record : List (Taken (consumeSemantics ε))) : Prop :=
  ∃ deliveries : List (Msg × Bool), record.filterMap mark? = deliveries.flatMap settle

def Handles (step : Taken (consumeSemantics ε)) : Prop :=
  ∃ delivery msg, step.cmd = .own delivery msg

/-- A message is handled only as long as the flag has not been set. -/
def Heeded (s : Bool) (record : List (Taken (consumeSemantics ε))) : Prop :=
  ∀ earlier step later, record = earlier ++ step :: later → Handles step →
    s = false ∧ ∀ before ∈ earlier, before.choice.destroyed = false

/-- A part of the loop's execution, and the flag behind it. -/
structure Orderly (s : Bool) (record : List (Taken (consumeSemantics ε))) (t : Bool) : Prop where
  settled : Settled record
  heeded : Heeded s record
  flag : t = (s || record.any fun step => step.choice.destroyed)

section Parts

variable {s t u : Bool} {record rest : List (Taken (consumeSemantics ε))}

theorem Orderly.nil (s : Bool) : Orderly s ([] : List (Taken (consumeSemantics ε))) s where
  settled := ⟨[], rfl⟩
  heeded earlier step later same _ := by simp at same
  flag := by simp

theorem Orderly.append (first : Orderly s record t) (second : Orderly t rest u) :
    Orderly s (record ++ rest) u := by
  obtain ⟨⟨deliveries, settled⟩, heeded, rfl⟩ := first
  obtain ⟨⟨deliveries', settled'⟩, heeded', rfl⟩ := second
  refine ⟨⟨deliveries ++ deliveries', ?_⟩, ?_, ?_⟩
  · rw [List.filterMap_append, List.flatMap_append, settled, settled']
  · intro earlier step later same handles
    rcases List.append_eq_append_iff.mp same with ⟨between, rfl, split⟩ | ⟨between, rfl, split⟩
    · obtain ⟨unset, quiet⟩ := heeded' between step later split handles
      simp only [Bool.or_eq_false_iff, List.any_eq_false, Bool.not_eq_true] at unset
      refine ⟨unset.1, fun before member => ?_⟩
      rcases List.mem_append.mp member with member | member
      · exact unset.2 before member
      · exact quiet before member
    · cases between with
      | nil =>
        obtain ⟨unset, quiet⟩ := heeded' [] step later split.symm handles
        simp only [Bool.or_eq_false_iff, List.any_eq_false, Bool.not_eq_true] at unset
        refine ⟨unset.1, fun before member => unset.2 before ?_⟩
        rwa [List.append_nil]
      | cons head between =>
        obtain ⟨rfl, rfl⟩ := List.cons.inj split
        exact heeded earlier step between rfl handles
  · rw [List.any_append, Bool.or_assoc]

/-- A message may be handled first where the flag is not set. -/
theorem heeded_cons {step : Taken (consumeSemantics ε)} (first : Handles step → s = false)
    (others : ∀ other ∈ rest, ¬ Handles other) : Heeded s (step :: rest) := by
  intro earlier step' later same handles
  cases earlier with
  | nil =>
    obtain ⟨rfl, -⟩ := List.cons.inj same
    exact ⟨first handles, fun before member => absurd member List.not_mem_nil⟩
  | cons head earlier =>
    obtain ⟨-, rfl⟩ := List.cons.inj same
    have member : step' ∈ earlier ++ step' :: later :=
      List.mem_append_right _ List.mem_cons_self
    exact absurd handles (others step' member)

theorem not_handles_nil : ∀ other ∈ ([] : List (Taken (consumeSemantics ε))), ¬ Handles other :=
  fun _ member => absurd member List.not_mem_nil

/-- A command that neither handles nor settles a message. -/
theorem orderly_quiet {step : Taken (consumeSemantics ε)} (unmarked : mark? step = none)
    (other : ¬ Handles step) (flag : t = (s || step.choice.destroyed)) :
    Orderly s [step] t where
  settled := ⟨[], List.filterMap_cons_none unmarked⟩
  heeded := heeded_cons (fun handles => absurd handles other) not_handles_nil
  flag := by simpa using flag

end Parts

section Loop

variable {s t : Bool} {ch : ConsumeChoice ε} {seq : Nat}

open BaseJetstreamConsumer

theorem exec_aborted {r : Except ε Bool} (executed :
    (consumeSemantics ε).exec .aborted ch s = some (r, t)) :
    r = .ok s ∧ t = s ∧ ch.destroyed = false := by
  simp only [consumeSemantics, consumeExec] at executed
  split at executed
  · contradiction
  · rename_i quiet
    cases executed
    exact ⟨rfl, rfl, by simpa using quiet⟩

/-- A settlement succeeds, and nothing else runs meanwhile. -/
theorem exec_settlement {c : LoopCmd Handling} {r : Except ε c.Resp}
    (settles : c = .ack seq ∨ c = .nak seq)
    (executed : (consumeSemantics ε).exec c ch s = some (r, t)) :
    (∃ a, r = .ok a) ∧ t = s ∧ ch.destroyed = false := by
  rcases settles with rfl | rfl <;>
    (simp only [consumeSemantics, consumeExec] at executed
     split at executed
     · contradiction
     · rename_i quiet
       cases executed
       exact ⟨⟨(), rfl⟩, rfl, by simpa using quiet⟩)

/-- A message that is handled while the flag is not set. -/
theorem orderly_delivery (msg : Msg) :
    PostRecord (consumeSemantics ε) (tryCatch (do
      within msg.seq (promise msg)
      perform (.ack msg.seq)) fun _ => perform (.nak msg.seq)) false
      fun steps r t => r = .ok () ∧ Orderly false steps t := by
  intro choice r t handled
  obtain ⟨rfl, rfl⟩ := Prod.mk.inj (Option.some.inj handled)
  cases fault : choice.fault with
  | none =>
    intro choice' r' t' settled
    obtain ⟨⟨_, rfl⟩, rfl, quiet⟩ := exec_settlement (.inl rfl) settled
    refine ⟨rfl, ⟨[(msg, true)], rfl⟩, heeded_cons (fun _ => rfl) ?_, ?_⟩
    · rintro other member ⟨_, _, handles⟩
      cases List.mem_singleton.mp member
      contradiction
    · simp [quiet]
  | some e =>
    intro choice' r' t' settled
    obtain ⟨⟨_, rfl⟩, rfl, quiet⟩ := exec_settlement (.inr rfl) settled
    refine ⟨rfl, ⟨[(msg, false)], rfl⟩, heeded_cons (fun _ => rfl) ?_, ?_⟩
    · rintro other member ⟨_, _, handles⟩
      cases List.mem_singleton.mp member
      contradiction
    · simp [quiet]

/-- A wait of the loop for something other than the promise of a message. -/
theorem orderly_wait {c : LoopCmd Handling} {r : Except ε c.Resp}
    (waits : c = .getConsumer ∨ c = .fetch ∨ c = .next)
    (executed : (consumeSemantics ε).exec c ch s = some (r, t)) : Orderly s [⟨c, ch, r⟩] t := by
  rcases waits with rfl | rfl | rfl <;>
    (obtain ⟨-, rfl⟩ := Prod.mk.inj (Option.some.inj executed)
     exact orderly_quiet rfl (by rintro ⟨_, _, handles⟩; contradiction) rfl)

theorem orderly_aborted {r : Except ε Bool}
    (executed : (consumeSemantics ε).exec .aborted ch s = some (r, t)) :
    r = .ok s ∧ t = s ∧ Orderly s [⟨.aborted, ch, r⟩] s := by
  obtain ⟨rfl, rfl, quiet⟩ := exec_aborted executed
  refine ⟨rfl, rfl, orderly_quiet rfl (by rintro ⟨_, _, handles⟩; contradiction) ?_⟩
  simp [quiet]

theorem orderly_consumeBatch (n : Nat) : PostRecord (consumeSemantics ε)
    (consumeBatch promise n) s fun steps _ t => Orderly s steps t := by
  induction n generalizing s with
  | zero => exact Orderly.nil s
  | succ n ih =>
    intro choice r t received
    have next := orderly_wait (.inr (.inr rfl)) received
    rcases r with e | _ | msg
    · exact next
    · exact next
    intro choice' r' t' tested
    obtain ⟨rfl, rfl, test⟩ := orderly_aborted tested
    have both := next.append test
    cases t' with
    | true => exact both
    | false =>
      refine postRecord_bind.mpr ((orderly_delivery msg).mono fun steps r t delivered => ?_)
      obtain ⟨rfl, delivered⟩ := delivered
      refine ih.mono fun rest _ u following => ?_
      exact both.append (delivered.append following)

/-- One batch, and what the loop makes of an error of it. -/
theorem orderly_round (n : Nat) : PostRecord (consumeSemantics ε) (tryCatch (do
      perform .getConsumer
      perform .fetch
      consumeBatch promise n
      return true) fun _ => do
        let aborted ← perform .aborted
        return !aborted) s
      fun steps r t => (∃ again, r = .ok again) ∧ Orderly s steps t := by
  have batch : PostRecord (consumeSemantics ε) (do
      perform .getConsumer
      perform .fetch
      consumeBatch promise n
      return true) s fun steps _ t => Orderly s steps t := by
    intro choice r t got
    have consumer := orderly_wait (.inl rfl) got
    cases r with
    | error e => exact consumer
    | ok _ =>
      intro choice' r' t' fetched
      have both := consumer.append (orderly_wait (.inr (.inl rfl)) fetched)
      cases r' with
      | error e => exact both
      | ok _ =>
        refine postRecord_bind.mpr ((orderly_consumeBatch n).mono fun steps r t batch => ?_)
        have all := both.append batch
        cases r with
        | error e => exact all
        | ok _ =>
          rw [← List.append_nil steps] at all
          exact all
  refine postRecord_catch.mpr (batch.mono fun steps r t batch => ?_)
  cases r with
  | ok again => exact ⟨⟨again, rfl⟩, batch⟩
  | error e =>
    intro choice r' t' tested
    obtain ⟨rfl, rfl, test⟩ := orderly_aborted tested
    exact ⟨⟨_, rfl⟩, batch.append test⟩

theorem orderly_startConsumeLoop (rounds : List Nat) : PostRecord (consumeSemantics ε)
    (startConsumeLoop promise rounds) s fun steps r t => r = .ok () ∧ Orderly s steps t := by
  induction rounds generalizing s with
  | nil => exact ⟨rfl, .nil s⟩
  | cons n rounds ih =>
    intro choice r t tested
    obtain ⟨rfl, rfl, test⟩ := orderly_aborted tested
    cases t with
    | true => exact ⟨rfl, test⟩
    | false =>
      refine postRecord_bind.mpr ((orderly_round n).mono fun steps r t round => ?_)
      obtain ⟨⟨again, rfl⟩, round⟩ := round
      cases again with
      | false =>
        have all := test.append round
        rw [← List.append_nil steps] at all
        exact ⟨rfl, all⟩
      | true => exact ih.mono fun rest r u following =>
          ⟨following.1, test.append (round.append following.2)⟩

/-- The loop settles every message that it handles once, by the outcome of the message's own
promise, settles no other, and handles none after the instance has been destroyed. -/
theorem consumeLoop_settles {rounds : List Nat} {record : List (Taken (consumeSemantics ε))}
    {r : Except ε Unit} (execution : Executes (consumeSemantics ε)
      (startConsumeLoop promise rounds) s record r t) :
    r = .ok () ∧ Settled record ∧ Heeded s record := by
  have loop := postRecord_iff.mp (orderly_startConsumeLoop rounds) _ _ _ execution
  exact ⟨loop.1, loop.2.settled, loop.2.heeded⟩

end Loop

section Sample

def sampleMsg (seq : Nat) : Msg := ⟨seq, "\x7b\x7d"⟩

def delivers (seq : Nat) : ConsumeChoice String := { message := some (sampleMsg seq) }

def fails : ConsumeChoice String := { fault := some "TIMEOUT" }

/-- Two messages, the second of them failing, a batch that cannot be fetched, and a batch during
whose first message the instance is destroyed. -/
def sampleChoices : List (ConsumeChoice String) :=
  [{}, {}, {}, delivers 0, {}, {}, {}, delivers 1, {}, fails, {}, {},
    {}, {}, fails, {},
    {}, {}, {}, delivers 2, {}, { destroyed := true }, {}, delivers 3, {},
    {}]

theorem sample_settled : ∃ record, Executes (consumeSemantics String)
      (BaseJetstreamConsumer.startConsumeLoop promise [3, 2, 2, 1]) false record (.ok ()) true ∧
    record.filterMap mark? = [.handled (sampleMsg 0) true, .acked 0,
      .handled (sampleMsg 1) false, .refused 1, .handled (sampleMsg 2) true, .acked 2] ∧
    Settled record ∧ Heeded false record := by
  have followed : ((BaseJetstreamConsumer.startConsumeLoop promise [3, 2, 2, 1]).record
      (consumeSemantics String) false sampleChoices).any (fun (record, _, t) => t &&
        record.filterMap mark? = [.handled (sampleMsg 0) true, .acked 0,
          .handled (sampleMsg 1) false, .refused 1, .handled (sampleMsg 2) true, .acked 2]) =
        true := by
    decide +kernel
  obtain ⟨record, r, t, execution, passed⟩ := executes_of_record followed
  obtain ⟨rfl, settled, heeded⟩ := consumeLoop_settles execution
  simp only [Bool.and_eq_true, decide_eq_true_eq] at passed
  obtain ⟨rfl, marks⟩ := passed
  exact ⟨record, execution, marks, settled, heeded⟩

end Sample

end CorePlatform.Nats
