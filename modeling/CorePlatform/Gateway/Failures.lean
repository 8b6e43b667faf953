import CorePlatform.Async.Record
import CorePlatform.Gateway.Accelerator

/-! What the record of a key says after its registration has thrown. A reply of status 400 or more
is recorded inside `try`; the error thrown for it is caught by the same function, which records
again. -/
namespace CorePlatform.Gateway
open Async Relational
open IdempotencyService (markFailed errorBody checkIdempotency)
open AuthClientService (internalError)

abbrev GatewayStep := Async.Taken semantics

/-- What the auth service has answered, and the commands after it. -/
def upstream? : List GatewayStep → Option (Except Exn HttpReply × List GatewayStep)
  | [] => none
  | ⟨.httpRegister _, _, r⟩ :: later => some (r, later)
  | _ :: later => upstream? later

def Cmd.sends : Cmd → Bool
  | .httpRegister _ => true
  | _ => false

/-- The record of the key tells of a failure with the status and, where one is given, the body. -/
def RecordsFailed (key : String) (status : Nat) (body : Option Json) (s : Store) : Prop :=
  ∃ record ∈ s.db.records, record.key = key ∧ record.status = .failed ∧
    record.responseStatus = some status ∧ ∀ b ∈ body, record.responseBody = b

/-- The record tells what has failed. -/
def Told (key : String) (s : Store) : Except Exn HttpReply → Prop
  | .ok reply => 400 ≤ reply.status → RecordsFailed key reply.status (some reply.data) s
  | .error _ => RecordsFailed key 500 none s

/-- What the error of the first update, if it has one, makes of the second. -/
def details (fault : Option Exn) : String :=
  match fault with
  | none => "Auth service request failed"
  | some e => e.message

/-- A reply that the second update records again, or whose second update is rejected after the
first has recorded it; without a reply, an update that is not rejected. -/
def Accurate : Except Exn HttpReply → List GatewayStep → Prop
  | .ok reply, later => 400 ≤ reply.status →
    match later.map (·.choice.fault) with
    | [first, none] => reply.status = 500 ∧ reply.data.val =
        .obj [("error", .str "Internal server error"), ("details", .str (details first))]
    | [none, some _] => reply.data.val.truthy = true
    | _ => False
  | .error _, later => ∀ step ∈ later, step.choice.fault = none

/-- How `checkIdempotency` ends for a call with a key: it throws, answers with a stored response,
or has claimed the record of the key. -/
inductive Admission (q : RegisterRequest) : Except Exn CheckResult → Store → Prop where
  | refused : Admission q (.error e) t
  | replayed : Admission q
      (.ok { recordId, shouldExecute := false, cachedResponse := some body }) t
  | claimed (record : IdempotencyRecord) (inTable : record ∈ t.db.records)
      (keyed : record.key = q.key) (status : record.status = .processing) :
      Admission q (.ok { recordId := record.id, shouldExecute := true }) t

section Records

variable {s t : Store} {key : String} {record : IdempotencyRecord} {status : Nat}
  {body : Option Json}

theorem exec_fault {c : Cmd} {choice : Choice} {r : Except Exn c.Resp}
    (executed : exec c choice s = some (r, t)) :
    (choice.fault = none ∧ execTotal c choice s = some (r, t)) ∨
      ∃ e, choice.fault = some e ∧ t = s ∧ r = .error e := by
  unfold exec at executed
  split at executed
  · rename_i quiet
    exact .inl ⟨quiet, executed⟩
  · rename_i e fault
    split at executed
    · obtain ⟨rfl, rfl⟩ := Prod.mk.inj (Option.some.inj executed)
      exact .inr ⟨e, fault, rfl, rfl⟩
    · contradiction

theorem recordsFailed_iff (inTable : record ∈ s.db.records) (keyed : record.key = key) :
    RecordsFailed key status body s ↔ record.status = .failed ∧
      record.responseStatus = some status ∧ ∀ b ∈ body, record.responseBody = b := by
  constructor
  · rintro ⟨other, found, same, recorded⟩
    cases Db.eq_of_recordKey inTable found (keyed.trans same.symm)
    exact recorded
  · exact fun recorded => ⟨record, inTable, keyed, recorded⟩

/-- The fields that `markFailed` sets. -/
def failure (status : Nat) (errorData : Json) : RecordUpdate :=
  { status := .failed, responseStatus := some status, responseBody := some (errorBody errorData) }

theorem mem_failure {errorData : Json} (inTable : record ∈ s.db.records) :
    (failure status errorData).apply record ∈
      (s.db.update record.id (failure status errorData)).records :=
  Db.mem_update.mpr ⟨record, inTable, if_pos rfl⟩

/-- What the record of the key says right after `markFailed`. -/
theorem recordsFailed_failure {status' : Nat} {errorData data : Json}
    (inTable : (failure status errorData).apply record ∈ s.db.records) (keyed : record.key = key) :
    RecordsFailed key status' (some data) s ↔ status' = status ∧ errorBody errorData = data := by
  rw [recordsFailed_iff inTable keyed]
  simp [failure, RecordUpdate.apply, eq_comm]

/-- One update, or its rejection. -/
theorem markFailed_record {errorData : Json} (inTable : record ∈ s.db.records) :
    PostRecord semantics (markFailed record.id status errorData) s fun steps r t =>
      ∃ step, steps = [step] ∧ ((step.choice.fault = none ∧ r = .ok () ∧
          t.db = s.db.update record.id (failure status errorData)) ∨
        ∃ e, step.choice.fault = some e ∧ r = .error e ∧ t = s) := by
  simp only [markFailed, record.id.property, if_false]
  refine postRecord_command fun choice r t executed => ?_
  rcases exec_fault executed with ⟨quiet, done⟩ | ⟨e, fault, rfl, rfl⟩
  · obtain ⟨rfl, rfl⟩ :=
      Prod.mk.inj (Option.some.inj ((update_found inTable choice).symm.trans done))
    exact ⟨_, rfl, .inl ⟨quiet, rfl, rfl⟩⟩
  · exact ⟨_, rfl, .inr ⟨e, fault, rfl, rfl⟩⟩

end Records

section Bodies

/-- The body of the `catch` clause is one that `markFailed` records as it is. -/
theorem errorBody_internalError (err : Exn) : errorBody (internalError err) = internalError err :=
  rfl

theorem errorBody_eq {data : Json} : errorBody data = data ↔ data.val.truthy = true := by
  unfold errorBody
  split
  · rename_i truthy
    exact ⟨fun _ => truthy, fun _ => rfl⟩
  · rename_i falsy
    constructor
    · intro same
      rw [← same] at falsy
      exact absurd rfl falsy
    · exact fun truthy => absurd truthy falsy

theorem internalError_eq {data : Json} {err : Exn} : internalError err = data ↔
    data.val = .obj [("error", .str "Internal server error"), ("details", .str err.message)] := by
  rw [Subtype.ext_iff, eq_comm]
  rfl

/-- A body of that shape has no message of its own. -/
theorem axiosError_message {status : Nat} {error details : String} :
    (axiosError ⟨status, .obj [("error", .str error), ("details", .str details)]⟩
      "Auth service request failed").message = "Auth service request failed" := rfl

/-- A reply whose body is what the `catch` clause makes of it. -/
theorem internalError_axiosError {status : Nat} {data : Json} :
    internalError (.service (axiosError ⟨status, data⟩ "Auth service request failed")) = data ↔
      data.val =
        .obj [("error", .str "Internal server error"), ("details", .str (details none))] := by
  rw [internalError_eq]
  constructor
  · intro same
    have message : (axiosError ⟨status, data⟩ "Auth service request failed").message =
        "Auth service request failed" := by
      rw [same]
      exact axiosError_message
    rw [same, Exn.message, message, details]
  · intro same
    rw [same, Exn.message, details, axiosError_message]

end Bodies

section Calls

variable {cfg : Config} {q : RegisterRequest} {s t : Store} {record : IdempotencyRecord}

/-- The `catch` clause records 500, unless its update is rejected. -/
theorem rejected_record {err : Exn} (inTable : record ∈ s.db.records) :
    PostRecord semantics (AuthClientService.rejected record.id err) s fun steps r t =>
      r.isOk = false ∧ ∃ step, steps = [step] ∧ ((step.choice.fault = none ∧
          (failure 500 (internalError err)).apply record ∈ t.db.records) ∨
        ∃ e, step.choice.fault = some e ∧ record ∈ t.db.records) := by
  refine postRecord_bind.mpr ((markFailed_record inTable).mono fun steps r t marked => ?_)
  obtain ⟨step, rfl, ⟨quiet, rfl, written⟩ | ⟨e, fault, rfl, rfl⟩⟩ := marked
  · exact ⟨rfl, step, rfl, .inl ⟨quiet, written ▸ mem_failure inTable⟩⟩
  · exact ⟨rfl, step, rfl, .inr ⟨e, fault, inTable⟩⟩

/-- A reply of status 400 or more: the first update, the error thrown for it, the second update. -/
theorem refused_record {reply : HttpReply} (inTable : record ∈ s.db.records)
    (keyed : record.key = q.key) (claimed : record.status = .processing) :
    PostRecord semantics (tryCatch (do
        markFailed record.id reply.status reply.data
        throw (.service (axiosError ⟨reply.status, reply.data⟩ "Auth service request failed")))
      (AuthClientService.rejected record.id)) s fun steps r t =>
        r.isOk = false ∧ (Told q.key t (.ok reply) ↔ Accurate (.ok reply) steps) := by
  refine postRecord_catch.mpr (postRecord_bind.mpr
    ((markFailed_record inTable).mono fun steps r t marked => ?_))
  obtain ⟨first, rfl, ⟨quiet, rfl, written⟩ | ⟨e, fault, rfl, rfl⟩⟩ := marked
  · have inTable' := written ▸ mem_failure inTable
    refine (rejected_record inTable').mono fun steps r u => ?_
    rintro ⟨threw, second, rfl, ⟨quiet', last⟩ | ⟨e, fault, last⟩⟩
    · refine ⟨threw, imp_congr_right fun _ => ?_⟩
      rw [recordsFailed_failure last keyed, errorBody_internalError, internalError_axiosError]
      simp only [List.cons_append, List.nil_append, List.map_cons, List.map_nil, quiet, quiet']
    · refine ⟨threw, imp_congr_right fun _ => ?_⟩
      rw [recordsFailed_failure last keyed, errorBody_eq]
      simp only [List.cons_append, List.nil_append, List.map_cons, List.map_nil, quiet, fault,
        true_and]
  · refine (rejected_record inTable).mono fun steps r u => ?_
    rintro ⟨threw, second, rfl, ⟨quiet', last⟩ | ⟨e', fault', last⟩⟩
    · refine ⟨threw, imp_congr_right fun _ => ?_⟩
      rw [recordsFailed_failure last keyed, errorBody_internalError, internalError_eq]
      simp only [List.cons_append, List.nil_append, List.map_cons, List.map_nil, fault, quiet',
        details]
    · refine ⟨threw, imp_congr_right fun _ => ?_⟩
      rw [recordsFailed_iff last keyed]
      simp only [List.cons_append, List.nil_append, List.map_cons, List.map_nil, fault, fault',
        claimed, reduceCtorEq, false_and]

/-- The request of a call that has claimed its key, and what follows it. -/
theorem execute_record (inTable : record ∈ s.db.records) (keyed : record.key = q.key)
    (claimed : record.status = .processing) :
    PostRecord semantics (tryCatch (AuthClientService.execute q record.id)
      (AuthClientService.rejected record.id)) s fun steps r t => ∃ out later,
        upstream? steps = some (out, later) ∧
          ((r.isOk = false → Told q.key t out) ↔ Accurate out later) := by
  refine postRecord_catch.mpr (postRecord_command fun choice out t executed => ?_)
  rcases exec_fault executed with ⟨_, done⟩ | ⟨e, fault, rfl, rfl⟩
  · obtain ⟨rfl, rfl⟩ := Prod.mk.inj (Option.some.inj done)
    by_cases large : 400 ≤ choice.reply.status
    · simp only [ge_iff_le, large, if_true]
      refine (postRecord_catch.mp (refused_record inTable keyed claimed)).mono
        fun steps r u refused => ?_
      cases r with
      | ok body => exact absurd refused.1 nofun
      | error e =>
        refine PostRecord.mono refused fun later r v told => ?_
        refine ⟨.ok choice.reply, steps ++ later, rfl, ?_⟩
        exact ⟨fun holds => told.2.mp (holds told.1), fun accurate _ => told.2.mpr accurate⟩
    · have vacuous : ∀ (r : Except Exn Json) (u : Store) (later : List GatewayStep),
          (r.isOk = false → Told q.key u (.ok choice.reply)) ↔
            Accurate (.ok choice.reply) later := fun r u later =>
        ⟨fun _ small => absurd small large, fun _ _ small => absurd small large⟩
      refine postRecord_iff.mpr fun steps r u _ => ?_
      cases r with
      | ok body => exact ⟨.ok choice.reply, steps, rfl, vacuous _ _ _⟩
      | error e =>
        exact postRecord_iff.mpr fun later r v _ =>
          ⟨.ok choice.reply, steps ++ later, rfl, vacuous _ _ _⟩
  · refine (rejected_record inTable).mono fun steps r u => ?_
    rintro ⟨threw, step, rfl, ⟨quiet, last⟩ | ⟨e', fault', last⟩⟩
    · refine ⟨.error e, [step], rfl, fun _ => List.forall_mem_singleton.mpr quiet, fun _ _ => ?_⟩
      exact ⟨_, last, keyed, rfl, rfl, nofun⟩
    · refine ⟨.error e, [step], rfl, fun told => ?_, fun accurate => ?_⟩
      · have failed := ((recordsFailed_iff last keyed).mp (told threw)).1
        exact absurd (claimed.symm.trans failed) nofun
      · exact absurd (fault'.symm.trans (accurate step (List.mem_singleton.mpr rfl))) nofun

/-- One command of `checkIdempotency`, whose rejection ends it. -/
theorem admission_step {c : Cmd} {f : c.Resp → Action CheckResult}
    (next : ∀ choice a t, execTotal c choice s = some (.ok a, t) →
      Post semantics (f a) t (Admission q)) : Post semantics (call c >>= f) s (Admission q) := by
  refine post_bind.mpr ?_
  rintro r t ⟨choice, executed⟩
  cases r with
  | error e => exact .refused
  | ok a =>
    rcases exec_fault executed with ⟨_, done⟩ | ⟨e, _, _, failed⟩
    · exact next choice a t done
    · nomatch failed

theorem checkIdempotency_admission (keyed : q.key ≠ "") :
    Post semantics (checkIdempotency cfg q.gateway q.idempotency) s (Admission q) := by
  have key : q.idempotency.key = q.key := rfl
  simp only [checkIdempotency, key, keyed, if_false]
  refine admission_step fun choice cached t done => ?_
  split
  · exact .replayed
  · refine admission_step fun choice found t' done' => ?_
    obtain ⟨same, rfl⟩ := Prod.mk.inj (Option.some.inj done')
    cases found with
    | none =>
      refine admission_step fun choice now u done => ?_
      refine admission_step fun choice record v created => ?_
      obtain ⟨⟨r, db⟩, inserted, both⟩ := Option.map_eq_some_iff.mp created
      obtain ⟨rfl, rfl⟩ := Prod.mk.inj both
      rcases Db.create_spec inserted with ⟨answered, _, added⟩ | ⟨refused, _⟩
      · cases answered
        exact .claimed _ ((added _).mpr (.inl rfl)) rfl rfl
      · cases refused
    | some record =>
      obtain ⟨inTable, found⟩ := Db.findUnique_spec (Except.ok.inj same)
      simp only [IdempotencyService.checkRecord]
      split
      · exact .refused
      · split
        · exact admission_step fun choice _ u done => .replayed
        · exact .refused
        · refine admission_step fun choice now u clock => ?_
          obtain ⟨_, rfl⟩ := Prod.mk.inj (Option.some.inj clock)
          refine admission_step fun choice updated v done => ?_
          obtain ⟨answered, rfl⟩ :=
            Prod.mk.inj (Option.some.inj ((update_found inTable choice).symm.trans done))
          cases answered
          exact .claimed _ (Db.mem_update.mpr ⟨record, inTable, if_pos rfl⟩) found rfl

abbrev Unsent (c : Cmd) : Prop := c.sends = false

theorem unsent_step {α : Type} {c : Cmd} {f : c.Resp → Action α} (this : Unsent c)
    (next : ∀ a, (f a).Uses Unsent) : (call c >>= f).Uses Unsent :=
  Prog.Uses.bind ⟨this, fun _ => trivial⟩ next

theorem unsent_checkIdempotency {req : IdempotencyRequest} :
    (checkIdempotency cfg q.gateway req).Uses Unsent := by
  unfold checkIdempotency
  split
  · trivial
  · refine unsent_step rfl fun cached => ?_
    split
    · trivial
    · refine unsent_step rfl fun found => ?_
      cases found with
      | none => exact unsent_step rfl fun _ => unsent_step rfl fun _ => trivial
      | some record =>
        simp only [IdempotencyService.checkRecord]
        split
        · trivial
        · split
          · exact unsent_step rfl fun _ => trivial
          · trivial
          · exact unsent_step rfl fun _ => unsent_step rfl fun _ => trivial

theorem upstream?_append {steps later : List GatewayStep}
    (unsent : ∀ step ∈ steps, Unsent step.cmd) : upstream? (steps ++ later) = upstream? later := by
  induction steps with
  | nil => rfl
  | cons step steps ih =>
    obtain ⟨first, others⟩ := List.forall_mem_cons.mp unsent
    rw [List.cons_append, ← ih others]
    obtain ⟨c, choice, r⟩ := step
    cases c with
    | httpRegister => contradiction
    | _ => rfl

/-- After a registration that has thrown, the record of its key tells what the auth service has
answered, or that it has not. -/
def RecordsWhatFailed (key : String) (steps : List GatewayStep) (r : Except Exn Json) (t : Store) :
    Prop :=
  r.isOk = false → ∀ out later, upstream? steps = some (out, later) → Told key t out

theorem recorded_of_unsent {steps : List GatewayStep} {r : Except Exn Json} {key : String}
    (silent : upstream? steps = none) : RecordsWhatFailed key steps r t ↔
      ∀ out later, upstream? steps = some (out, later) → Accurate out later := by
  constructor
  · exact fun _ out later sent => nomatch silent.symm.trans sent
  · exact fun _ _ out later sent => nomatch silent.symm.trans sent

theorem register_record (keyed : q.key ≠ "") :
    PostRecord semantics (AuthClientService.register cfg q) s fun steps r t =>
      RecordsWhatFailed q.key steps r t ↔
        ∀ out later, upstream? steps = some (out, later) → Accurate out later := by
  refine postRecord_bind.mpr (postRecord_mapError (postRecord_iff.mpr fun steps r t check => ?_))
  have unsent := check.allowed unsent_checkIdempotency
  have admission := post_iff_runs.mp (checkIdempotency_admission keyed) r t check.runs
  have silent : upstream? steps = none := by
    rw [← List.append_nil steps, upstream?_append unsent]
    rfl
  cases admission with
  | refused => exact recorded_of_unsent silent
  | replayed => exact recorded_of_unsent ((upstream?_append unsent).trans rfl)
  | claimed record inTable same status =>
    refine (execute_record inTable same status).mono fun later r u => ?_
    rintro ⟨out, after, sent, told⟩
    have answered : upstream? (steps ++ later) = some (out, after) :=
      (upstream?_append unsent).trans sent
    constructor
    · intro holds out' after' sent'
      cases answered.symm.trans sent'
      exact told.mp fun threw => holds threw _ _ answered
    · intro accurate threw out' after' sent'
      cases answered.symm.trans sent'
      exact told.mpr (accurate _ _ answered) threw

/-- The record of a failed registration tells what has failed exactly when the reply is recorded
again as it was, or the second update does not come to it. -/
theorem failure_recorded_iff {steps : List GatewayStep} {r : Except Exn Json} (keyed : q.key ≠ "")
    (execution : Executes semantics (AuthClientService.register cfg q) s steps r t) :
    RecordsWhatFailed q.key steps r t ↔
      ∀ out later, upstream? steps = some (out, later) → Accurate out later :=
  postRecord_iff.mp (register_record keyed) steps r t execution

end Calls

section Sample

def conflictAnswer : HttpReply :=
  { status := 409, data := ⟨.obj [("messageKey", .str "CONFLICT")], nofun⟩ }

/-- The reply has the status 409, the record says 500. -/
theorem conflict_recorded_internal : ∃ steps r t,
    Executes semantics (AuthClientService.register Config.default (registration 0)) {} steps r t ∧
      ¬ RecordsWhatFailed "k1" steps r t := by
  have recorded : ((AuthClientService.register Config.default (registration 0)).record semantics {}
      [{}, {}, {}, {}, { reply := conflictAnswer }, {}, {}]).any (fun (steps, r, t) =>
        !r.isOk && decide ((upstream? steps).map (·.1.toOption) = some (some conflictAnswer)) &&
        t.db.records.rows.all (·.responseStatus = some 500)) = true := by decide +kernel
  obtain ⟨steps, r, t, execution, tested⟩ := executes_of_record recorded
  simp only [Bool.and_eq_true, Bool.not_eq_true', decide_eq_true_eq, List.all_eq_true] at tested
  obtain ⟨⟨threw, answered⟩, internal⟩ := tested
  refine ⟨steps, r, t, execution, fun told => ?_⟩
  obtain ⟨⟨out, later⟩, sent, reply⟩ := Option.map_eq_some_iff.mp answered
  cases out with
  | error e => nomatch reply
  | ok reply' =>
    cases Option.some.inj reply
    obtain ⟨record, inTable, _, _, status, _⟩ := told threw _ _ sent (by decide)
    nomatch (internal record inTable).symm.trans status

/-- The auth service is not reached. -/
theorem unreached_recorded : ∃ steps r t,
    Executes semantics (AuthClientService.register Config.default (registration 0)) {} steps r t ∧
      r.isOk = false ∧ RecordsWhatFailed "k1" steps r t := by
  have recorded : ((AuthClientService.register Config.default (registration 0)).record semantics {}
      [{}, {}, {}, {}, { fault := some (.error (some "ECONNREFUSED") "connect") }, {}]).any
        (fun (steps, r, _) => !r.isOk && (upstream? steps).all fun (out, later) =>
          !out.isOk && later.all (·.choice.fault.isNone)) = true := by decide +kernel
  obtain ⟨steps, r, t, execution, tested⟩ := executes_of_record recorded
  simp only [Bool.and_eq_true, Bool.not_eq_true'] at tested
  obtain ⟨threw, unanswered⟩ := tested
  refine ⟨steps, r, t, execution, threw, (failure_recorded_iff (by decide) execution).mpr ?_⟩
  intro out later sent
  rw [sent] at unanswered
  simp only [Option.all_some, Bool.and_eq_true, Bool.not_eq_true', List.all_eq_true,
    Option.isNone_iff_eq_none] at unanswered
  cases out with
  | ok reply => cases unanswered.1
  | error e => exact unanswered.2

end Sample
end CorePlatform.Gateway
