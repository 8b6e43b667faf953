import CorePlatform.Async.Record
import CorePlatform.Notification.Mails

/-! The attempts of a mail job: `QueueService`, the `failed` listener of `JobsService`, and the
queue between them, which calls `process` until it succeeds or the attempts are exhausted. -/
namespace CorePlatform.Notification
open Async Auth

/-- `opts` of a job and `defaultJobOptions` of a queue; none given is one attempt. -/
structure JobOptions where
  attempts : Option Nat := none

/-- A job as the queue keeps it; `dataKeys` are the keys of its data. -/
structure QueuedJob where
  id : Option String
  job : Job
  dataKeys : List String
  opts : JobOptions
  attemptsMade : Nat := 0

def Job.name : Job → String
  | .sendVerifyCode .. => "send-verify-code"
  | .other job => job.name

/-- `queue.add`: the options of the job go before those of the queue. -/
def queueAdd (defaultJobOptions : JobOptions) (id : String) (job : Job) (dataKeys : List String)
    (opts : JobOptions) : QueuedJob where
  id := id
  job := job
  dataKeys := dataKeys
  opts := { attempts := opts.attempts.or defaultJobOptions.attempts }

namespace QueueModule

def defaultJobOptions : JobOptions := { attempts := some 3 }

end QueueModule

namespace QueueService

def sendVerifyCode (defaultJobOptions : JobOptions) (id : String)
    (userRegisteredEvent : Auth.UserRegisteredEvent) : QueuedJob :=
  queueAdd defaultJobOptions id
    (.sendVerifyCode userRegisteredEvent.email userRegisteredEvent.code)
    (["userId", "email", "code", "createdAt"] ++
      userRegisteredEvent.requestId.toList.map fun _ => "requestId") {}

def sendResetPassword (defaultJobOptions : JobOptions) (id : String)
    (passwordResetRequestedEvent : MailJob) : QueuedJob :=
  queueAdd defaultJobOptions id
    (.other { passwordResetRequestedEvent with name := AuthService.PASSWORD_RESET_REQUESTED })
    ["userId", "email", "token", "expiresAt"] { attempts := some 3 }

end QueueService

/-- The data of a `failed-mail-job`. -/
structure FailedMailJob where
  originalJobId : String
  jobName : String
  failedReason : String
  attemptedAt : String
  dataKeys : List String
  deriving DecidableEq

inductive JobCmd
  /-- `this.transporter.sendMail(...)` -/
  | sendMail (mail : Mail)
  /-- `new Date()` -/
  | now
  /-- `this.dlqQueue.add('failed-mail-job', ...)` -/
  | dlqAdd (entry : FailedMailJob)

@[reducible] def JobCmd.Resp : JobCmd → Type
  | .sendMail _ | .dlqAdd _ => Unit
  | .now => Nat

abbrev JobApi : Interface := ⟨JobCmd, JobCmd.Resp⟩

abbrev JobAction := Prog JobApi Exn

def askJob (c : JobCmd) : JobAction c.Resp := Prog.perform (I := JobApi) c

namespace JobsService

def process (job : Job) : JobAction Unit :=
  match job with
  | .sendVerifyCode email code =>
    tryCatch (askJob (.sendMail (.verifyCode email code))) fun error =>
      throw (.service { code := ErrorCodes.INTERNAL, statusCode := 500
                        message := "Error sending verify code: " ++ error.message })
  | .other job =>
    if job.name = AuthService.PASSWORD_RESET_REQUESTED then
      tryCatch (askJob (.sendMail (.resetPassword job.email job.token))) fun error =>
        throw (.service { code := ErrorCodes.INTERNAL, statusCode := 500
                          message := "Error sending reset password: " ++ error.message })
    else pure ()

/-- `job?.opts?.attempts && job.attemptsMade < job.opts.attempts` -/
def retried (job : Option QueuedJob) : Bool :=
  match job with
  | none => false
  | some job =>
    match job.opts.attempts with
    | none => false
    | some attempts => attempts != 0 && job.attemptsMade < attempts

/-- The listener of `failed`. -/
def onFailed (toISOString : Nat → String) (job : Option QueuedJob) (error : Exn) :
    JobAction Unit := do
  if retried job then return ()
  else
    let attemptedAt ← askJob .now
    tryCatch (askJob (.dlqAdd
      { originalJobId := (job.bind QueuedJob.id).getD "unknown"
        jobName := (job.map fun job => job.job.name).getD "unknown"
        failedReason := error.message
        attemptedAt := toISOString attemptedAt
        dataKeys := (job.map QueuedJob.dataKeys).getD [] })) fun _ => return ()

end JobsService

def QueuedJob.failed (job : QueuedJob) : QueuedJob :=
  { job with attemptsMade := job.attemptsMade + 1 }

/-- The worker of the queue: it calls `process` until it succeeds or no attempt is left. After an
attempt that is rejected it increments `attemptsMade` and emits `failed`. -/
def Worker.run (toISOString : Nat → String) : Nat → QueuedJob → JobAction Unit
  | 0, _ => pure ()
  | left + 1, job => do
    let failure ← tryCatch (do JobsService.process job.job; return none) fun e => return some e
    match failure with
    | none => return ()
    | some error =>
      JobsService.onFailed toISOString (some job.failed) error
      Worker.run toISOString left job.failed

/-- The attempts that a job may take. -/
def QueuedJob.attempts (job : QueuedJob) : Nat := job.opts.attempts.getD 1

/-- A job as the worker takes it from the queue. -/
def work (toISOString : Nat → String) (job : QueuedJob) : JobAction Unit :=
  Worker.run toISOString job.attempts job

structure JobStore where
  sent : List Mail := []
  mailDlq : List FailedMailJob := []

structure JobChoice where
  fault : Option Exn := none
  now : Nat := 0

/-- A mail is sent or not; an entry is added without a failure. -/
def execJob (ch : JobChoice) (s : JobStore) : (c : JobCmd) → Option (Except Exn c.Resp × JobStore)
  | .sendMail mail =>
    match ch.fault with
    | some e => some (.error e, s)
    | none => some (.ok (), { s with sent := s.sent ++ [mail] })
  | .now => some (.ok ch.now, s)
  | .dlqAdd entry => some (.ok (), { s with mailDlq := s.mailDlq ++ [entry] })

def jobSemantics : Semantics JobApi Exn JobStore := ⟨JobChoice, fun c ch s => execJob ch s c⟩

/-- Sends that fail. -/
def failedSends (record : List (Taken jobSemantics)) : Nat :=
  record.countP fun
    | ⟨.sendMail _, _, .error _⟩ => true
    | _ => false

/-- A job that has been enqueued for a mail, with any setting of its attempts. -/
structure Enqueued (job : QueuedJob) (mail : Mail) : Prop where
  mails : process (fun _ => .ok ()) job.job = .ok (some mail)
  unattempted : job.attemptsMade = 0
  allowed : job.opts.attempts ≠ some 0

theorem enqueued_sendResetPassword (options : JobOptions) (id : String) (event : MailJob) :
    Enqueued (QueueService.sendResetPassword options id event)
      (.resetPassword event.email event.token) where
  mails := rfl
  unattempted := rfl
  allowed := nofun

/-- What becomes of a job within `n` attempts. -/
def Concluded (job : QueuedJob) (mail : Mail) (n : Nat) (s : JobStore)
    (record : List (Taken jobSemantics)) (t : JobStore) : Prop :=
  (t = { s with sent := s.sent ++ [mail] } ∧ failedSends record < n) ∨
    (failedSends record = n ∧ ∃ entry, entry.originalJobId = job.id.getD "unknown" ∧
      t = { s with mailDlq := s.mailDlq ++ [entry] })

section Attempts

variable {s t : JobStore} {mail : Mail} {toISOString : Nat → String}
  {steps rest record : List (Taken jobSemantics)} {r : Except Exn Unit}

theorem failedSends_append : failedSends (steps ++ rest) = failedSends steps + failedSends rest :=
  List.countP_append

/-- A mail that is sent, or a failure that is thrown on. -/
theorem post_sendMail {other : Exn → Exn} :
    PostRecord jobSemantics (tryCatch (askJob (.sendMail mail)) fun e => throw (other e)) s
      fun steps r t =>
        (r = .ok () ∧ t = { s with sent := s.sent ++ [mail] } ∧ failedSends steps = 0) ∨
          ((∃ e, r = .error e) ∧ t = s ∧ failedSends steps = 1) := by
  intro choice r t sent
  simp only [jobSemantics, execJob] at sent
  split at sent
  · cases sent
    exact .inr ⟨⟨_, rfl⟩, rfl, rfl⟩
  · cases sent
    exact .inl ⟨rfl, rfl, rfl⟩

/-- `process` sends the mail of its job, or is rejected. -/
theorem post_process {job : Job} (mails : process (fun _ => .ok ()) job = .ok (some mail)) :
    PostRecord jobSemantics (JobsService.process job) s fun steps r t =>
      (r = .ok () ∧ t = { s with sent := s.sent ++ [mail] } ∧ failedSends steps = 0) ∨
        ((∃ e, r = .error e) ∧ t = s ∧ failedSends steps = 1) := by
  cases job with
  | sendVerifyCode email code =>
    cases mails
    exact post_sendMail
  | other job =>
    simp only [process] at mails
    split at mails
    · rename_i named
      cases mails
      rw [JobsService.process, if_pos named]
      exact post_sendMail
    · cases mails

/-- The listener compares attempts as the queue does. -/
theorem retried_failed {job : QueuedJob} (allowed : job.opts.attempts ≠ some 0) :
    JobsService.retried (some job.failed) = true ↔ job.attemptsMade + 1 < job.attempts := by
  cases given : job.opts.attempts with
  | none => simp [JobsService.retried, QueuedJob.failed, QueuedJob.attempts, given]
  | some n =>
    have positive : (n != 0) = true := by
      rw [bne_iff_ne]
      rintro rfl
      exact allowed given
    simp only [JobsService.retried, QueuedJob.failed, QueuedJob.attempts, given, positive,
      Bool.true_and, Option.getD_some]
    exact decide_eq_true_iff

/-- A job that is not retried gets one entry. -/
theorem post_onFailed {job : QueuedJob} {error : Exn} :
    PostRecord jobSemantics (JobsService.onFailed toISOString (some job) error) s fun steps r t =>
      r = .ok () ∧ failedSends steps = 0 ∧
        (JobsService.retried (some job) = true → t = s) ∧
        (JobsService.retried (some job) = false →
          ∃ entry, entry.originalJobId = job.id.getD "unknown" ∧
            t = { s with mailDlq := s.mailDlq ++ [entry] }) := by
  rw [JobsService.onFailed]
  cases retried : JobsService.retried (some job) with
  | true => exact ⟨rfl, rfl, fun _ => rfl, nofun⟩
  | false =>
    intro choice r t asked
    cases asked
    intro choice' r' t' added
    cases added
    exact ⟨rfl, rfl, nofun, fun _ => ⟨_, rfl, rfl⟩⟩

/-- One attempt, as the queue sees it. -/
theorem post_attempt {job : Job} (mails : process (fun _ => .ok ()) job = .ok (some mail)) :
    PostRecord jobSemantics (tryCatch (do JobsService.process job; return none)
      fun e => return some e) s fun steps r t =>
        (r = .ok none ∧ t = { s with sent := s.sent ++ [mail] } ∧ failedSends steps = 0) ∨
          ((∃ e, r = .ok (some e)) ∧ t = s ∧ failedSends steps = 1) := by
  refine postRecord_catch.mpr (postRecord_bind.mpr ((post_process mails).mono
    fun steps r t attempted => ?_))
  rcases attempted with ⟨rfl, rfl, none_failed⟩ | ⟨⟨e, rfl⟩, rfl, one_failed⟩
  · refine .inl ⟨rfl, rfl, ?_⟩
    rw [List.append_nil]
    exact none_failed
  · refine .inr ⟨⟨e, rfl⟩, rfl, ?_⟩
    rw [List.append_nil]
    exact one_failed

/-- The next attempt ends the job, or `failed` is emitted and the job goes on. -/
theorem post_run_succ {job : QueuedJob} {left : Nat}
    {Q : List (Taken jobSemantics) → Except Exn Unit → JobStore → Prop}
    (mails : process (fun _ => .ok ()) job.job = .ok (some mail))
    (sends : ∀ steps, failedSends steps = 0 →
      Q steps (.ok ()) { s with sent := s.sent ++ [mail] })
    (fails : ∀ steps e, failedSends steps = 1 → PostRecord jobSemantics (do
      JobsService.onFailed toISOString (some job.failed) e
      Worker.run toISOString left job.failed) s
      fun rest => Q (steps ++ rest)) :
    PostRecord jobSemantics (Worker.run toISOString (left + 1) job) s Q := by
  rw [Worker.run]
  refine postRecord_bind.mpr ((post_attempt mails).mono fun steps r t attempted => ?_)
  rcases attempted with ⟨rfl, rfl, sent⟩ | ⟨⟨e, rfl⟩, rfl, failed⟩
  · rw [← List.append_nil steps] at sent
    exact sends _ sent
  · exact fails steps e failed

/-- A job that has attempts left. -/
theorem post_run {job : QueuedJob} (mails : process (fun _ => .ok ()) job.job = .ok (some mail))
    (allowed : job.opts.attempts ≠ some 0) (left : Nat)
    (remaining : job.attemptsMade + (left + 1) = job.attempts) :
    PostRecord jobSemantics (Worker.run toISOString (left + 1) job) s fun steps r t =>
      r = .ok () ∧ Concluded job mail (left + 1) s steps t := by
  induction left generalizing job s with
  | zero =>
    refine post_run_succ mails (fun steps sent => ⟨rfl, .inl ⟨rfl, by omega⟩⟩)
      fun steps e failed => postRecord_bind.mpr (post_onFailed.mono fun steps' r t heard => ?_)
    obtain ⟨rfl, quiet, -, entered⟩ := heard
    have last : JobsService.retried (some job.failed) = false := by
      rw [Bool.eq_false_iff, Ne, retried_failed allowed]
      omega
    refine ⟨rfl, .inr ⟨?_, entered last⟩⟩
    rw [failedSends_append, failed, List.append_nil, quiet]
  | succ left ih =>
    refine post_run_succ mails (fun steps sent => ⟨rfl, .inl ⟨rfl, by omega⟩⟩)
      fun steps e failed => postRecord_bind.mpr (post_onFailed.mono fun steps' r t heard => ?_)
    obtain ⟨rfl, quiet, again, -⟩ := heard
    have more : JobsService.retried (some job.failed) = true := by
      rw [retried_failed allowed]
      omega
    obtain rfl := again more
    have remaining : job.failed.attemptsMade + (left + 1) = job.failed.attempts :=
      (Nat.add_assoc _ _ _).trans ((congrArg _ (Nat.add_comm _ _)).trans remaining)
    have mails : process (fun _ => .ok ()) job.failed.job = .ok (some mail) := mails
    refine (ih mails allowed remaining).mono fun rest r u following => ?_
    have counted : failedSends (steps ++ (steps' ++ rest)) = failedSends rest + 1 := by
      rw [failedSends_append, failedSends_append, failed, quiet]
      omega
    obtain ⟨rfl, concluded⟩ := following
    refine ⟨rfl, ?_⟩
    rw [Concluded, counted]
    rcases concluded with ⟨rfl, fewer⟩ | ⟨all, entry⟩
    · exact .inl ⟨rfl, Nat.succ_lt_succ fewer⟩
    · exact .inr ⟨congrArg Nat.succ all, entry⟩

/-- A job ends with its mail sent and no entry, or with all its attempts failed and one entry. -/
theorem sent_or_dead_lettered {job : QueuedJob} (enqueued : Enqueued job mail)
    (execution : Executes jobSemantics (work toISOString job) s record r t) :
    r = .ok () ∧ Concluded job mail job.attempts s record t := by
  obtain ⟨mails, unattempted, allowed⟩ := enqueued
  have positive : job.attempts ≠ 0 := by
    cases given : job.opts.attempts with
    | none => simp [QueuedJob.attempts, given]
    | some n =>
      rintro zero
      simp only [QueuedJob.attempts, given, Option.getD_some] at zero
      exact allowed (given.trans (congrArg some zero))
  obtain ⟨left, some_left⟩ := Nat.exists_eq_succ_of_ne_zero positive
  rw [work, some_left] at execution
  rw [some_left]
  have remaining : job.attemptsMade + (left + 1) = job.attempts := by
    rw [unattempted, some_left]
    omega
  exact postRecord_iff.mp (post_run mails allowed left remaining) _ _ _ execution

end Attempts

section Sample

def sampleReset : MailJob where
  name := ""
  email := "alice@mail.com"
  token := "k3x9"
  userId := "3f0c7a52-9d41-4be6-8a17-5c2e9b60d1f4"
  expiresAt := 900000

def refused : JobChoice := { fault := some (.error (some "ECONNECTION") "Connection timeout") }

def sampleJob : QueuedJob :=
  QueueService.sendResetPassword QueueModule.defaultJobOptions "7" sampleReset

/-- Three attempts fail. -/
theorem sample_dead_lettered : ∃ record t,
    Executes jobSemantics (work (fun _ => "1970-01-01T00:00:00.000Z") sampleJob) {} record
      (.ok ()) t ∧
    t.mailDlq.map FailedMailJob.originalJobId = ["7"] ∧
    Concluded sampleJob (.resetPassword "alice@mail.com" "k3x9") 3 {} record t := by
  have worked : ((work (fun _ => "1970-01-01T00:00:00.000Z") sampleJob).record jobSemantics {}
      [refused, refused, refused, {}, {}]).any (fun (_, _, t) =>
        t.mailDlq.map FailedMailJob.originalJobId = ["7"]) = true := by
    decide +kernel
  obtain ⟨record, r, t, execution, entries⟩ := executes_of_record worked
  obtain ⟨rfl, concluded⟩ := sent_or_dead_lettered
    (enqueued_sendResetPassword QueueModule.defaultJobOptions "7" sampleReset) execution
  exact ⟨record, t, execution, of_decide_eq_true entries, concluded⟩

end Sample

end CorePlatform.Notification
