import CorePlatform.Async.Pool
import CorePlatform.Gateway.Service

/-! Concurrent registrations at any number of gateway instances over one database. Beside
the calls, time passes and an instance may restart, which empties its cache. -/
namespace CorePlatform.Gateway
open Async Relational

inductive EnvAct where
  | tick (ms : Nat)
  | restart (gateway : Nat)

def act : EnvAct → Store → Option Store
  | .tick ms, s => some { s with now := s.now + ms }
  | .restart gateway, s => some (s.setGatewayCache gateway fun _ => none)

@[reducible] def gatewaySystem (cfg : Config) : System Api Exn RegisterRequest Json Store where
  toSemantics := semantics
  body := AuthClientService.register cfg
  Act := EnvAct
  act := act

abbrev Ev := Event Api Exn
abbrev GatewayThread := Thread Api Exn RegisterRequest Json
abbrev GatewayPool := Pool Api Exn RegisterRequest Json Store
abbrev Step (cfg : Config) :=
  Label RegisterRequest (gatewaySystem cfg).Choice (gatewaySystem cfg).Act

/-- The record that an executed command has claimed for execution. -/
def claims? (e : Ev) : Option String :=
  match e with
  | ⟨.recordCreate .., .ok record⟩ => some record.id
  | ⟨.recordUpdate _ data, .ok record⟩ => if data.status = .processing then some record.id else none
  | _ => none

/-- The commands of `markCompleted` and `markFailed`. -/
def isMark : Cmd → Bool
  | .recordUpdate _ data => data.status ≠ .processing
  | _ => false

/-- A mark that has been written. -/
def marked (e : Ev) : Bool := isMark e.cmd && e.resp.isOk

/-- The record that a call has claimed and not yet marked. -/
def held? : List Ev → Option String
  | [] => none
  | e :: trace =>
    match claims? e with
    | some id => some id
    | none => if marked e then none else held? trace

/-- `checkIdempotency` has told the call to execute, and the call has run neither
`markCompleted` nor `markFailed`. -/
def Executing (th : GatewayThread) : Prop :=
  (∃ e ∈ th.trace, (claims? e).isSome) ∧ ∀ e ∈ th.trace, isMark e.cmd = false

/-- The body of a reply below 400. -/
def success? (e : Ev) : Option Json :=
  match e with
  | ⟨.httpRegister _, .ok reply⟩ => if reply.status < 400 then some reply.data else none
  | _ => none

/-- The body of the successful reply that a call has received. -/
def succeeded? (trace : List Ev) : Option Json := trace.findSome? success?

/-- The body that a written `markCompleted` has stored. -/
def completes? (e : Ev) : Option Json :=
  match e with
  | ⟨.recordUpdate _ data, .ok _⟩ => if data.status = .completed then data.responseBody else none
  | _ => none

def completed? (trace : List Ev) : Option Json := trace.findSome? completes?

/-- The command of `markCompleted`. -/
def isCompletion : Cmd → Bool
  | .recordUpdate _ data => data.status = .completed
  | _ => false

/-- A `markCompleted` that was rejected. -/
def lost (e : Ev) : Bool := isCompletion e.cmd && !e.resp.isOk

theorem held_of_claimed {trace : List Ev} (claimed : ∃ e ∈ trace, (claims? e).isSome)
    (unmarked : ∀ e ∈ trace, isMark e.cmd = false) : ∃ id, held? trace = some id := by
  induction trace with
  | nil =>
    obtain ⟨e, impossible, _⟩ := claimed
    exact absurd impossible List.not_mem_nil
  | cons e trace ih =>
    cases own : claims? e with
    | some id => exact ⟨id, by simp only [held?, own]⟩
    | none =>
      have pending : marked e = false := by
        rw [marked, unmarked e List.mem_cons_self, Bool.false_and]
      have earlier : ∃ e ∈ trace, (claims? e).isSome := by
        obtain ⟨other, found, some⟩ := claimed
        rcases List.mem_cons.mp found with rfl | inTrace
        · rw [own] at some
          contradiction
        · exact ⟨other, inTrace, some⟩
      obtain ⟨id, holds⟩ :=
        ih earlier fun other found => unmarked other (List.mem_cons_of_mem _ found)
      exact ⟨id, by simp only [held?, own, pending, Bool.false_eq_true, if_false, holds]⟩

/-- What is held was claimed. -/
theorem claimed_of_held {trace : List Ev} {id : String} (holds : held? trace = some id) :
    ∃ e ∈ trace, claims? e = some id := by
  induction trace with
  | nil => contradiction
  | cons e trace ih =>
    cases own : claims? e with
    | some claimed =>
      simp only [held?, own, Option.some.injEq] at holds
      exact ⟨e, List.mem_cons_self, own.trans (congrArg some holds)⟩
    | none =>
      simp only [held?, own] at holds
      split at holds
      · contradiction
      · obtain ⟨other, found, claims⟩ := ih holds
        exact ⟨other, List.mem_cons_of_mem _ found, claims⟩

section Effects

/-- Everything a command does to the table of records. -/
inductive Wrote (s t : Store) : (c : Cmd) → Except Exn c.Resp → Prop where
  | nothing {c : Cmd} {r : Except Exn c.Resp} (same : t.db = s.db)
      (claimless : claims? ⟨c, r⟩ = none)
      (markless : marked ⟨c, r⟩ = false) : Wrote s t c r
  | created (record : IdempotencyRecord) (started : record.status = .processing)
      (fresh : ∀ other ∈ s.db.records, other.id ≠ record.id)
      (added : ∀ other, other ∈ t.db.records ↔ other = record ∨ other ∈ s.db.records) :
      Wrote s t (.recordCreate record.key record.requestHash record.expiresAt) (.ok record)
  | updated (data : RecordUpdate) (record : IdempotencyRecord) (found : record ∈ s.db.records)
      (written : t.db = s.db.update record.id data) :
      Wrote s t (.recordUpdate record.id data) (.ok (data.apply record))

variable {s t : Store}

theorem wrote_of_exec {c : Cmd} {choice : Choice} {r : Except Exn c.Resp}
    (executed : exec c choice s = some (r, t)) : Wrote s t c r := by
  unfold exec at executed
  split at executed
  · cases c with
    | now | httpRegister =>
      obtain ⟨rfl, rfl⟩ := Prod.mk.inj (Option.some.inj executed)
      exact .nothing rfl rfl rfl
    | cacheGet | cacheSet | recordFindUnique =>
      obtain ⟨rfl, rfl⟩ := Prod.mk.inj (Option.some.inj executed)
      exact .nothing rfl rfl rfl
    | recordUpdate id data =>
      simp only [execTotal] at executed
      split at executed
      · obtain ⟨rfl, rfl⟩ := Prod.mk.inj (Option.some.inj executed)
        exact .nothing rfl rfl (Bool.and_false _)
      · rename_i record searched
        obtain ⟨rfl, rfl⟩ := Prod.mk.inj (Option.some.inj executed)
        have matched := List.find?_some searched
        obtain rfl : record.id.val = id := of_decide_eq_true matched
        exact .updated data record (List.mem_of_find?_eq_some searched) rfl
    | recordCreate key requestHash expiresAt =>
      obtain ⟨⟨r, db⟩, created, both⟩ := Option.map_eq_some_iff.mp executed
      obtain ⟨rfl, rfl⟩ := Prod.mk.inj both
      rcases Db.create_spec created with ⟨rfl, fresh, added⟩ | ⟨rfl, rfl⟩
      · exact .created _ rfl fresh added
      · exact .nothing rfl rfl rfl
  · split at executed
    · obtain ⟨rfl, rfl⟩ := Prod.mk.inj (Option.some.inj executed)
      cases c <;> exact .nothing rfl rfl (Bool.and_false _)
    · contradiction

/-- Records are never deleted, and keep their key. -/
theorem Wrote.kept {c : Cmd} {r : Except Exn c.Resp} (wrote : Wrote s t c r)
    {record : IdempotencyRecord} (found : record ∈ s.db.records) : ∃ record' ∈ t.db.records,
    record'.id = record.id ∧ record'.key = record.key := by
  cases wrote with
  | nothing same =>
    rw [same]
    exact ⟨record, found, rfl, rfl⟩
  | created new _ _ added => exact ⟨record, (added record).mpr (.inr found), rfl, rfl⟩
  | updated data old _ written =>
    rw [written]
    refine ⟨_, Db.mem_update.mpr ⟨record, found, rfl⟩, ?_⟩
    split
    · exact ⟨rfl, rfl⟩
    · exact ⟨rfl, rfl⟩

end Effects

/-- A successful reply has been recorded, unless recording it was rejected. -/
def Settled (trace : List Ev) : Prop :=
  ∀ body, succeeded? trace = some body → completed? trace = some body ∨ ∃ e ∈ trace, lost e = true

theorem settled_of_none {trace : List Ev} (unanswered : succeeded? trace = none) :
    Settled trace := by
  intro body answered
  rw [unanswered] at answered
  contradiction

/-- The call has read this record under its key. -/
def Looked (q : RegisterRequest) (trace : List Ev) (record : IdempotencyRecord) : Prop :=
  (⟨.recordFindUnique q.key, .ok (some record)⟩ : Ev) ∈ trace

/-- The body comes from a completed record. -/
def ReadBack (q : RegisterRequest) (trace : List Ev) (body : Json) : Prop :=
  ∃ record, Looked q trace record ∧ record.status = .completed ∧ record.responseBody = body

/-- The body comes from the cache, or from a completed record. -/
def Replayed (q : RegisterRequest) (trace : List Ev) (body : Json) : Prop :=
  (∃ gateway, (⟨.cacheGet gateway q.key, .ok body⟩ : Ev) ∈ trace ∧ body.val ≠ .null) ∨
    ReadBack q trace body

/-- Where a call with a key may stand. -/
def keyedPoint (q : RegisterRequest) (trace : List Ev) : Cmd → Prop
  | .now => succeeded? trace = none
  | .cacheGet _ key | .recordFindUnique key | .recordCreate key .. =>
      key = q.key ∧ succeeded? trace = none
  | .recordUpdate id data =>
    match data.status with
    | .processing => succeeded? trace = none ∧ ∃ record, Looked q trace record ∧ record.id.val = id
    | .completed => held? trace = some id ∧ succeeded? trace = data.responseBody
    | .failed => Settled trace ∧ (held? trace = some id ∨ trace.any marked = true)
  | .cacheSet _ key body _ =>
      key = q.key ∧ Settled trace ∧ (ReadBack q trace body ∨ completed? trace = some body)
  | .httpRegister _ => (held? trace).isSome ∧ succeeded? trace = none

/-- How a call with a key may end. -/
def keyedEnd (q : RegisterRequest) (trace : List Ev) (r : Except Exn Json) : Prop :=
  Settled trace ∧ ∀ body, r = .ok body → Replayed q trace body ∨ completed? trace = some body

section Bodies

variable {cfg : Config} {q : RegisterRequest} {trace : List Ev} {recordId : String}

/-- A command that neither receives a reply nor completes a record. -/
theorem Settled.cons {e : Ev} (settled : Settled trace) (replyless : success? e = none)
    (incomplete : completes? e = none) : Settled (e :: trace) := by
  intro body answered
  rw [succeeded?, List.findSome?_cons, replyless] at answered
  rcases settled body answered with stored | ⟨other, found, rejected⟩
  · left
    rw [completed?, List.findSome?_cons, incomplete]
    exact stored
  · exact .inr ⟨other, List.mem_cons_of_mem _ found, rejected⟩

/-- The update of `markCompleted` and `markFailed`, and what follows it. -/
theorem along_mark {α : Type} {data : RecordUpdate} {f : Unit → Action α} {P : List Ev → Cmd → Prop}
    {R : List Ev → Except Exn α → Prop} (point : P trace (.recordUpdate recordId data))
    (rejected : ∀ e, R (⟨.recordUpdate recordId data, .error e⟩ :: trace) (.error e))
    (next : ∀ record, Along P R (⟨.recordUpdate recordId data, .ok record⟩ :: trace) (f ())) :
    Along P R trace ((do let _ ← call (.recordUpdate recordId data)) >>= f) :=
  along_bind.mpr (along_command_bind point rejected next)

/-- The `catch` clause of a call that has claimed a record. -/
theorem along_rejected (nonempty : recordId ≠ "") (settled : Settled trace)
    (owned : held? trace = some recordId ∨ trace.any marked = true) (err : Exn) :
    Along (keyedPoint q) (keyedEnd q) trace (AuthClientService.rejected recordId err) := by
  simp only [AuthClientService.rejected, IdempotencyService.markFailed, nonempty, if_false]
  refine along_mark ⟨settled, owned⟩ (fun e => ?_) fun record => ?_
  · exact ⟨settled.cons rfl rfl, nofun⟩
  · exact ⟨settled.cons rfl rfl, nofun⟩

/-- The execution of a call that holds its record and has received no reply. -/
theorem along_execute (nonempty : recordId ≠ "") (keyed : q.key ≠ "")
    (holds : held? trace = some recordId) (unanswered : succeeded? trace = none) :
    Along (keyedPoint q) (keyedEnd q) trace
      (tryCatch (AuthClientService.execute q recordId) (AuthClientService.rejected recordId)) := by
  have held : (held? trace).isSome := by rw [holds, Option.isSome_some]
  have still : ∀ r, held? (⟨.httpRegister q.registerDto, r⟩ :: trace) = some recordId :=
    fun _ => holds
  refine along_catch.mpr (along_command_bind ⟨held, unanswered⟩ (fun e => ?_) fun reply => ?_)
  · exact along_rejected nonempty ((settled_of_none unanswered).cons rfl rfl) (.inl (still _)) e
  · by_cases failed : reply.status ≥ 400
    · have replyless : success? ⟨.httpRegister q.registerDto, .ok reply⟩ = none := by
        simp only [success?, Nat.not_lt.mpr failed, if_false]
      have settled := (settled_of_none unanswered).cons replyless rfl
      simp only [failed, if_true, IdempotencyService.markFailed, nonempty, if_false]
      refine along_mark ⟨settled, .inl (still _)⟩ (fun e => ?_) fun record => ?_
      · exact along_rejected nonempty (settled.cons rfl rfl) (.inl (still (.ok reply))) e
      · exact along_rejected nonempty (settled.cons rfl rfl) (.inr rfl) _
    · have success : success? ⟨.httpRegister q.registerDto, .ok reply⟩ = some reply.data := by
        simp only [success?, Nat.not_le.mp failed, if_true]
      have answered : succeeded? (⟨.httpRegister q.registerDto, .ok reply⟩ :: trace) =
          some reply.data := by
        rw [succeeded?, List.findSome?_cons, success]
      simp only [failed, if_false, ne_eq, nonempty, not_false_eq_true, if_true,
        IdempotencyService.markCompleted, IdempotencyService.cacheResponse, keyed]
      refine along_mark ⟨still (.ok reply), answered⟩ (fun e => ?_) fun record => ?_
      · refine along_rejected nonempty ?_ (.inl ?_) e
        · exact fun _ _ => .inr ⟨_, List.mem_cons_self, rfl⟩
        · exact still (.ok reply)
      · have settled : Settled
            (⟨.recordUpdate recordId { status := .completed, responseStatus := some reply.status
                                       responseBody := some reply.data }, .ok record⟩ ::
            ⟨.httpRegister q.registerDto, .ok reply⟩ :: trace) :=
              fun body same => .inl (answered.symm.trans same)
        refine along_command_bind ⟨rfl, settled, .inr rfl⟩ (fun e => ?_) fun _ => ?_
        · exact along_rejected nonempty (settled.cons rfl rfl) (.inr rfl) e
        · refine ⟨settled.cons rfl rfl, ?_⟩
          rintro body ⟨⟩
          exact .inr rfl

/-- What `checkIdempotency` tells a call with a key. -/
def Checked (q : RegisterRequest) (trace : List Ev) (r : Except Exn CheckResult) : Prop :=
  succeeded? trace = none ∧ ∀ check, r = .ok check →
    match check.shouldExecute, check.cachedResponse with
    | false, some body => Replayed q trace body
    | _, _ => held? trace = some check.recordId ∧ check.recordId ≠ ""

theorem along_checkIdempotency (keyed : q.key ≠ "") : Along (keyedPoint q) (Checked q) []
    (IdempotencyService.checkIdempotency cfg q.gateway q.idempotency) := by
  have key : q.idempotency.key = q.key := rfl
  simp only [IdempotencyService.checkIdempotency, key, keyed, if_false]
  refine along_command_bind ⟨rfl, rfl⟩ (fun e => ⟨rfl, nofun⟩) fun cachedResponse => ?_
  by_cases hit : cachedResponse.val = .null
  · simp only [hit, ne_eq, not_true_eq_false, if_false]
    refine along_command_bind ⟨rfl, rfl⟩ (fun e => ⟨rfl, nofun⟩) fun existingRecord => ?_
    cases existingRecord with
    | none =>
      refine along_command_bind rfl (fun e => ⟨rfl, nofun⟩) fun now => ?_
      refine along_command_bind ⟨rfl, rfl⟩ (fun e => ⟨rfl, nofun⟩) fun newRecord => ⟨rfl, ?_⟩
      rintro check ⟨⟩
      exact ⟨rfl, newRecord.id.property⟩
    | some record =>
      have looked : ∀ trace, Looked q
          (⟨.recordFindUnique q.key, .ok (some record)⟩ :: trace) record :=
        fun _ => List.mem_cons_self
      by_cases same : record.requestHash =
          IdempotencyService.computeRequestHash cfg q.idempotency.method
            q.idempotency.path q.idempotency.body
      · simp only [IdempotencyService.checkRecord, same, ne_eq, not_true_eq_false, if_false]
        cases status : record.status with
        | processing => exact ⟨rfl, nofun⟩
        | completed =>
          refine along_command_bind ⟨rfl, settled_of_none rfl, .inl ⟨record, looked _, status, rfl⟩⟩
            (fun e => ⟨rfl, nofun⟩) fun _ => ⟨rfl, ?_⟩
          rintro check ⟨⟩
          exact .inr ⟨record, List.mem_cons_of_mem _ (looked _), status, rfl⟩
        | failed =>
          refine along_command_bind rfl (fun e => ⟨rfl, nofun⟩) fun now => ?_
          refine along_command_bind ⟨rfl, record, List.mem_cons_of_mem _ (looked _), rfl⟩
            (fun e => ⟨rfl, nofun⟩)
            fun updated => ⟨rfl, ?_⟩
          rintro check ⟨⟩
          exact ⟨rfl, updated.id.property⟩
      · simp only [IdempotencyService.checkRecord, same, ne_eq, not_false_eq_true, if_true]
        exact ⟨rfl, nofun⟩
  · simp only [hit, ne_eq, not_false_eq_true, if_true]
    refine ⟨rfl, ?_⟩
    rintro check ⟨⟩
    exact .inl ⟨q.gateway, List.mem_cons_self, hit⟩

theorem along_register_keyed (keyed : q.key ≠ "") :
    Along (keyedPoint q) (keyedEnd q) [] (AuthClientService.register cfg q) := by
  refine along_bind.mpr
    (along_catch.mpr ((along_checkIdempotency keyed).mono (fun _ _ point => point) ?_))
  intro trace r checked
  obtain ⟨unanswered, told⟩ := checked
  cases r with
  | error e => exact ⟨settled_of_none unanswered, nofun⟩
  | ok check =>
    have told := told check rfl
    obtain ⟨recordId, shouldExecute, cachedResponse⟩ := check
    cases shouldExecute with
    | true => exact along_execute told.2 keyed told.1 unanswered
    | false =>
      cases cachedResponse with
      | none => exact along_execute told.2 keyed told.1 unanswered
      | some body =>
        refine ⟨settled_of_none unanswered, ?_⟩
        rintro body ⟨⟩
        exact .inl told

/-- The request to the auth service. -/
def isContact : Cmd → Bool
  | .httpRegister _ => true
  | _ => false

/-- A call without a key uses neither the cache nor the table. -/
theorem along_register_unkeyed (unkeyed : q.key = "") :
    Along (fun _ c => isContact c = true) (fun _ _ => True) []
    (AuthClientService.register cfg q) := by
  have key : q.idempotency.key = "" := unkeyed
  simp only [AuthClientService.register, IdempotencyService.checkIdempotency, key, if_true]
  refine along_catch.mpr (along_command_bind rfl (fun e => trivial) fun reply => ?_)
  by_cases failed : reply.status ≥ 400
  · simp only [failed, if_true]
    trivial
  · simp only [failed, if_false]
    trivial

end Bodies

/-- Where a call may stand. -/
def point (q : RegisterRequest) (trace : List Ev) (c : Cmd) : Prop :=
  (q.key = "" → isContact c = true) ∧ (q.key ≠ "" → keyedPoint q trace c)

/-- How a call may end. -/
def ending (q : RegisterRequest) (trace : List Ev) (r : Except Exn Json) : Prop :=
  q.key ≠ "" → keyedEnd q trace r

theorem along_register {cfg : Config} (q : RegisterRequest) :
    Along (point q) (ending q) [] ((gatewaySystem cfg).body q) := by
  by_cases unkeyed : q.key = ""
  · refine (along_register_unkeyed unkeyed).mono ?_ ?_
    · exact fun trace c contact => ⟨fun _ => contact, fun keyed => absurd unkeyed keyed⟩
    · exact fun trace r _ keyed => absurd unkeyed keyed
  · refine (along_register_keyed unkeyed).mono ?_ ?_
    · exact fun trace c holds => ⟨fun empty => absurd empty unkeyed, fun _ => holds⟩
    · exact fun trace r holds _ => holds

end CorePlatform.Gateway
