import CorePlatform.Bell.Service
import CorePlatform.Errors.Filter
import CorePlatform.Gateway.Upstream

/-! The way of an error reply of auth-service through the gateway: the reply of the filter
there, the two passes through `handleAxiosError`, and the filter of the gateway. -/
namespace CorePlatform
open Async Gateway

/-- How the filter sees an exception of a service. -/
def Exn.thrown : Exn → Exception
  | .service e => .service e
  | .http status message =>
    if status = 400 then .badRequest (.obj [("message", .str message)])
    else .http { status, response := .obj [("message", .str message)], message, coded := rfl }
  | .database _ message | .error _ message => .error message

def ErrorReply.toHttpReply (reply : ErrorReply) : HttpReply := ⟨reply.status, ⟨reply.data, nofun⟩⟩

theorem errorsOf_printable {details : Js} (printable : details.printable = true) :
    ∃ errors, HttpExceptionFilter.errorsOf details = some errors ∧
      ErrorReply.errorsField errors = Bell.HttpExceptionFilter.errorsOf details := by
  cases truthy : details.truthy with
  | false =>
    refine ⟨none, by simp only [HttpExceptionFilter.errorsOf, truthy,
      Bool.false_eq_true, if_false], ?_⟩
    simp only [Bell.HttpExceptionFilter.errorsOf, truthy, Bool.not_false, if_true,
      ErrorReply.errorsField]
  | true =>
    refine ⟨some (HttpExceptionFilter.textsOf details),
      by simp only [HttpExceptionFilter.errorsOf, truthy, printable, if_true], ?_⟩
    simp only [Bell.HttpExceptionFilter.errorsOf, truthy, Bool.not_true,
      Bool.false_eq_true, if_false]
    cases details <;> simp [ErrorReply.errorsField, HttpExceptionFilter.textsOf]

/-- The filter on the exceptions of the services answers what their own model of it answers. -/
theorem reply_thrown (e : Exn) (printable : ∀ e', e = .service e' → e'.details.printable = true)
    (valid : HttpExceptionFilter.isStatus e.thrown.status = true) :
    (HttpExceptionFilter.reply e.thrown).map ErrorReply.toHttpReply =
      some (Bell.HttpExceptionFilter.reply e) := by
  suffices ∃ rendered, HttpExceptionFilter.render e.thrown = some rendered ∧
      rendered.toHttpReply = Bell.HttpExceptionFilter.reply e by
    obtain ⟨rendered, shown, same⟩ := this
    have replied := HttpExceptionFilter.reply_eq_some.mpr
      ⟨shown, by rwa [HttpExceptionFilter.render_status shown]⟩
    rw [replied, Option.map_some, same]
  cases e with
  | service e =>
    obtain ⟨errors, shown, same⟩ := errorsOf_printable (printable e rfl)
    refine ⟨_, by simp only [Exn.thrown, HttpExceptionFilter.render, shown, Option.bind_eq_bind,
      Option.bind_some]; rfl, ?_⟩
    simp only [ErrorReply.toHttpReply, ErrorReply.data, same]
    rfl
  | http status message =>
    obtain ⟨errors, shown, same⟩ := @errorsOf_printable (.str message) rfl
    by_cases bad : status = 400
    · subst bad
      have shown : HttpExceptionFilter.errorsOf
          ((Js.obj [("message", .str message)]).get "message") = some errors :=
        shown
      refine ⟨_, by simp only [Exn.thrown, if_true, HttpExceptionFilter.render, shown,
        Option.bind_eq_bind, Option.bind_some]; rfl, ?_⟩
      simp only [ErrorReply.toHttpReply, ErrorReply.data, same,
        Bell.HttpExceptionFilter.reply, if_true]
      rfl
    · simp only [Exn.thrown, bad, if_false, Bell.HttpExceptionFilter.reply]
      exact ⟨_, rfl, rfl⟩
  | database code message => exact ⟨_, rfl, rfl⟩
  | error code message => exact ⟨_, rfl, rfl⟩

/-- What the gateway answers a client whose call has thrown. -/
def answer {α : Type} (result : Except Exn α) : Option ErrorReply :=
  match result with
  | .ok _ => none
  | .error e => HttpExceptionFilter.reply e.thrown

/-- The details of an error as `handleAxiosError` reads them off a body of the filter. -/
def detailsOf (errors : Option (List String)) : Js :=
  match errors with
  | none => .undefined
  | some errors => .arr (errors.map .str)

theorem axiosError_data (reply : ErrorReply) (defaultMessage : String) :
    axiosError ⟨reply.status, reply.data⟩ defaultMessage =
      { code := reply.messageKey, statusCode := reply.status, message := reply.message
        details := if reply.status ≥ 500 then .undefined else detailsOf reply.errors } := by
  obtain ⟨status, messageKey, message, errors⟩ := reply
  cases errors <;> rfl

theorem errorsOf_detailsOf (errors : Option (List String)) :
    HttpExceptionFilter.errorsOf (detailsOf errors) = some errors := by
  cases errors with
  | none => rfl
  | some texts => exact HttpExceptionFilter.errorsOf_texts texts

/-- The translated error of a reply is answered as the reply, without errors from 500 on. -/
theorem reply_axiosError {reply : ErrorReply}
    (sent : HttpExceptionFilter.isStatus reply.status = true) (defaultMessage : String) :
    HttpExceptionFilter.reply (.service (axiosError ⟨reply.status, reply.data⟩ defaultMessage)) =
      some { reply with errors := if reply.status ≥ 500 then none else reply.errors } := by
  rw [axiosError_data]
  by_cases server : reply.status ≥ 500
  · simp only [server, if_true]
    exact HttpExceptionFilter.reply_eq_some.mpr ⟨rfl, sent⟩
  · simp only [server, if_false]
    have errors := errorsOf_detailsOf reply.errors
    apply HttpExceptionFilter.reply_eq_some.mpr
    exact ⟨by simp only [HttpExceptionFilter.render, errors, Option.pure_def, Option.bind_eq_bind,
      Option.bind_some, if_true], sent⟩

/-- The reply as the client of the gateway gets it. -/
def ErrorReply.relayed (reply : ErrorReply) : ErrorReply :=
  { reply with errors := if reply.status ≥ 500 then none else reply.errors }

theorem answer_relayed {α : Type} {reply : ErrorReply} {r : Except Exn α}
    (sent : HttpExceptionFilter.isStatus reply.status = true) (high : 400 ≤ reply.status)
    (relayed : Relayed (some (.ok reply.toHttpReply)) r) : answer r = some reply.relayed := by
  obtain ⟨defaultMessage, rfl⟩ := relayed high
  exact reply_axiosError sent defaultMessage

section Registration

variable {cfg : Gateway.Config} {q : RegisterRequest} {trace : List Ev} {recordId : String}

/-- Both updates of the record have been written, so that `handleAxiosError` is reached inside
`try` and in the `catch` clause. -/
def Marked (trace : List Ev) : Prop := ∀ e ∈ trace, isMark e.cmd = true → e.resp.isOk = true

def MarkedRelayed (trace : List Ev) (r : Except Exn Json) : Prop :=
  Marked trace → Relayed (contacted? trace) r

theorem not_marked {id : String} {data : RecordUpdate} {e : Exn}
    (mark : isMark (.recordUpdate id data) = true) :
    ¬ Marked (⟨.recordUpdate id data, .error e⟩ :: trace) := by
  intro marked
  have written := marked _ List.mem_cons_self mark
  contradiction

theorem Marked.tail {e : Ev} (marked : Marked (e :: trace)) : Marked trace :=
  fun e' member => marked e' (List.mem_cons_of_mem _ member)

theorem along_rejected_relayed {err : Exn}
    (given : Marked trace → Relayed (contacted? trace)
      (.error (.service (handleAxiosError err "Register request failed")) : Except Exn Json)) :
    Along (fun _ _ => True) MarkedRelayed trace (AuthClientService.rejected recordId err) := by
  simp only [AuthClientService.rejected, IdempotencyService.markFailed]
  split
  · exact given
  · apply along_mark trivial
    · exact fun e marked => absurd marked (not_marked rfl)
    · exact fun record marked => given marked.tail

theorem along_execute_relayed :
    Along (fun _ _ => True) MarkedRelayed trace
      (tryCatch (AuthClientService.execute q recordId) (AuthClientService.rejected recordId)) := by
  apply along_catch.mpr
  apply along_command_bind trivial
  · intro e
    exact along_rejected_relayed fun _ v => nofun
  · intro reply
    by_cases failed : reply.status ≥ 400
    · rw [if_pos failed]
      simp only [IdempotencyService.markFailed]
      split
      · exact along_rejected_relayed fun _ _ => ⟨_, rfl⟩
      · apply along_mark trivial
        · exact fun e => along_rejected_relayed fun marked => absurd marked (not_marked rfl)
        · exact fun record => along_rejected_relayed fun _ _ => ⟨_, rfl⟩
    · rw [if_neg failed]
      refine along_catch.mp ((uses_answered reply).along_appends.mono (fun _ _ _ => trivial) ?_)
      rintro after r ⟨added, rfl, own⟩ _
      rw [contacted_append own]
      exact fun high => absurd high failed

theorem along_register_relayed : Along (fun _ _ => True) MarkedRelayed []
    (AuthClientService.register cfg q) := by
  apply along_register_cases
  · intro trace r untouched _
    rw [untouched]
    trivial
  · exact fun trace recordId _ => along_execute_relayed

end Registration

/-- The gateway answers its client with the status, the code and the message of the error reply
that it has received, and with its errors below 500. -/
theorem relay_transparent (cfg : Gateway.Config) {exception : Exception} {rendered : ErrorReply}
    (shown : HttpExceptionFilter.reply exception = some rendered)
    (failure : 400 ≤ exception.status) :
    (∀ pool t th r, proxySystem.Reachable System.Any (fun _ => True) pool →
      pool.thread? t = some th → th.result? = some r →
      th.request.unchecked = false → received? th.trace = some (.ok rendered.toHttpReply) →
      answer r = some rendered.relayed) ∧
    (∀ pool t th r, (gatewaySystem cfg).Reachable System.Any (fun _ => True) pool →
      pool.thread? t = some th →
      th.result? = some r → Marked th.trace →
      contacted? th.trace = some (.ok rendered.toHttpReply) →
      answer r = some rendered.relayed) := by
  obtain ⟨shown, sent⟩ := HttpExceptionFilter.reply_eq_some.mp shown
  have high : 400 ≤ rendered.status := by rwa [HttpExceptionFilter.render_status shown]
  constructor
  · intro pool t th r reachable found ended checks received
    have bodies : ∀ call : ProxyCall, Along (fun _ _ => True)
        (fun trace r => call.unchecked = false → Relayed (received? trace) r) [] call.body := by
      intro call
      by_cases checks : call.unchecked = false
      · exact (along_checksStatus (checksStatus_proxy checks)).mono
          (fun _ _ _ => trivial) fun _ _ relayed _ => relayed
      · exact (along_proxy call).mono (fun _ _ _ => trivial) fun _ _ _ checks' =>
          absurd checks' checks
    have relayed := reachable.returned bodies found ended checks
    rw [received] at relayed
    exact answer_relayed sent high relayed
  · intro pool t th r reachable found ended marked received
    have relayed := reachable.returned (fun q => along_register_relayed) found ended marked
    rw [received] at relayed
    exact answer_relayed sent high relayed

section Sample

def signIn : ProxyCall :=
  .auth (.login (.obj [("email", .str "alice@example.com"),
    ("password", .str "secret")]) "req1" false)

def signInRequest : HttpRequest where
  method := .post
  url := "auth/internal/login"
  headers := [("x-request-id", "req1"), ("Authorization", "Bearer " ++ gatewayToken)]
  data := .obj [("email", .str "alice@example.com"), ("password", .str "secret")]

/-- auth-service answers every request with `reply`. -/
def answersWith (reply : HttpReply) : (c : HttpCmd) → Except Exn c.Resp
  | .send _ => .ok ⟨reply, []⟩
  | .signInternalToken _ => .ok gatewayToken
  | .append _ | .clearCookie _ => .ok ()

/-- One login that has been answered. -/
def signedInPool (reply : HttpReply) (r : Except Exn Js) : ProxyPool :=
  ⟨(), [⟨signIn, [⟨.send signInRequest, .ok ⟨reply, []⟩⟩,
    ⟨.signInternalToken (.obj []), .ok gatewayToken⟩], .done r⟩]⟩

theorem signed_in_reachable {reply : HttpReply} {r : Except Exn Js}
    (replayed : proxySystem.replay System.Any (System.idle ())
      [.spawn signIn, .run 0 (answersWith reply), .run 0 (answersWith reply)] =
        some (signedInPool reply r)) :
    proxySystem.Reachable System.Any (fun _ => True) (signedInPool reply r) :=
      ⟨(), trivial, System.run_replay replayed⟩

/-- An exception made of a text and a status below 400. -/
def moved : HttpException :=
  { status := 302, response := .str "Moved", message := "Moved", coded := rfl }

def movedReply : ErrorReply :=
  { status := 302, messageKey := ErrorCodes.INTERNAL, message := "Moved", errors := none }

/-- The gateway takes a reply below 400 for a success, and returns its body. -/
theorem low_status_not_relayed : ¬ ∀ exception rendered pool t th r,
    HttpExceptionFilter.reply exception = some rendered →
    proxySystem.Reachable System.Any (fun _ => True) pool → pool.thread? t = some th →
    th.result? = some r →
    th.request.unchecked = false → received? th.trace = some (.ok rendered.toHttpReply) →
    answer r = some rendered.relayed := by
  intro transparent
  have reachable : proxySystem.Reachable System.Any (fun _ => True)
    (signedInPool movedReply.toHttpReply (.ok movedReply.data)) := signed_in_reachable rfl
  have answered := transparent (.http moved) movedReply _ 0 _ _ rfl reachable rfl rfl rfl rfl
  contradiction

def refused : ServiceError where
  code := ErrorCodes.AUTH_INVALID_CREDENTIALS
  statusCode := 401
  message := ""
  details := .arr [.str "email", .num "3"]

def refusedReply : ErrorReply :=
  { status := 401, messageKey := ErrorCodes.AUTH_INVALID_CREDENTIALS, message := ""
    errors := some ["email", "3"] }

def refusedError : Exn :=
  .service (axiosError ⟨401, refusedReply.data⟩ "Auth service request failed")

/-- A registration without a key that has received the reply. -/
def refusedRegistration : GatewayPool :=
  ⟨{}, [⟨⟨0, [], "/register", none⟩, [⟨.httpRegister [], .ok refusedReply.toHttpReply⟩],
    .done (.error refusedError)⟩]⟩

theorem refused_registration_reachable :
    (gatewaySystem Gateway.Config.default).Reachable System.Any
      (fun _ => True) refusedRegistration := by
  have replayed : (gatewaySystem Gateway.Config.default).replay System.Any (System.idle {})
    [.spawn ⟨0, [], "/register", none⟩, .run 0 { reply := refusedReply.toHttpReply }] =
      some refusedRegistration :=
      rfl
  exact ⟨{}, trivial, System.run_replay replayed⟩

theorem refusal_relayed : answer (.error refusedError : Except Exn Js) = some refusedReply ∧
    answer (.error refusedError : Except Exn Json) = some refusedReply := by
  have shown : HttpExceptionFilter.reply (.service refused) = some refusedReply := rfl
  have relayed := relay_transparent Gateway.Config.default shown (by decide)
  constructor
  · have reachable : proxySystem.Reachable System.Any (fun _ => True)
      (signedInPool refusedReply.toHttpReply (.error refusedError)) := signed_in_reachable rfl
    exact relayed.1 _ 0 _ _ reachable rfl rfl rfl rfl
  · refine relayed.2 _ 0 _ _ refused_registration_reachable rfl rfl ?_ rfl
    intro e member mark
    cases List.mem_singleton.mp member
    contradiction

end Sample
end CorePlatform
