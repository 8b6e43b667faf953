import CorePlatform.Async.Alike
import CorePlatform.Common.Formats
import CorePlatform.Gateway.Clients
import CorePlatform.Gateway.System

/-! What the gateway makes of an upstream error. The proxy methods run over a network that
may answer anything; the commands of a registration are those of its own system. -/
namespace CorePlatform.Gateway
open Async

inductive HttpCmd where
  | send (request : HttpRequest)
  | signInternalToken (data : Js)
  | append (cookie : String)
  | clearCookie (name : String)

@[reducible] def HttpCmd.Resp : HttpCmd → Type
  | .send _ => HttpResponse
  | .signInternalToken _ => String
  | .append _ | .clearCookie _ => Unit

abbrev HttpApi : Interface := ⟨HttpCmd, HttpCmd.Resp⟩

def network : HttpPlatform HttpApi where
  send request := Prog.perform (I := HttpApi) (.send request)
  signInternalToken data := Prog.perform (I := HttpApi) (.signInternalToken data)
  append cookie := Prog.perform (I := HttpApi) (.append cookie)
  clearCookie name := Prog.perform (I := HttpApi) (.clearCookie name)

inductive AuthCall where
  | getProfileByUserId (requestId : String) (token : Option String)
  | login (loginDto : Js) (requestId : String) (clientRes : Bool)
  | verify (verifyDto : Js) (requestId : String)
  | confirm (confirmDto : Js) (requestId : String)
  | resendCode (email requestId : String)
  | refresh (refreshToken deviceId requestId : String) (clientRes : Bool)
  | logoutDevice (deviceId refreshToken requestId : String) (clientRes : Bool)
      (token : Option String)
  | logoutAll (requestId : String) (clientRes : Bool) (token : Option String)
  | forgotPassword (forgotPasswordDto : Js) (requestId : String)
  | forgotPasswordVerify (forgotPasswordVerifyDto : Js) (requestId : String)
  | forgotPasswordReset (forgotPasswordResetDto : Js) (requestId : String)

def AuthCall.body : AuthCall → Prog HttpApi Exn Js
  | .getProfileByUserId requestId token =>
      AuthClientService.getProfileByUserId network requestId token
  | .login loginDto requestId clientRes =>
      AuthClientService.login network loginDto requestId clientRes
  | .verify verifyDto requestId => AuthClientService.verify network verifyDto requestId
  | .confirm confirmDto requestId => AuthClientService.confirm network confirmDto requestId
  | .resendCode email requestId => AuthClientService.resendCode network email requestId
  | .refresh refreshToken deviceId requestId clientRes =>
    AuthClientService.refresh network refreshToken deviceId requestId clientRes
  | .logoutDevice deviceId refreshToken requestId clientRes token =>
    AuthClientService.logoutDevice network deviceId refreshToken requestId clientRes token
  | .logoutAll requestId clientRes token =>
      AuthClientService.logoutAll network requestId clientRes token
  | .forgotPassword dto requestId => AuthClientService.forgotPassword network dto requestId
  | .forgotPasswordVerify dto requestId =>
      AuthClientService.forgotPasswordVerify network dto requestId
  | .forgotPasswordReset dto requestId =>
      AuthClientService.forgotPasswordReset network dto requestId

inductive RoleCall where
  | create (createRoleDto : Js) (requestId : String) (authToken : Option String)
  | findAll (requestId : String) (authToken : Option String)
  | findOne (id requestId : String) (authToken : Option String)
  | update (id : String) (updateRoleDto : Js) (requestId : String) (authToken : Option String)
  | remove (id requestId : String) (authToken : Option String)
  | getRolesForUser (userId requestId : String) (authToken : Option String)
  | getPermissionsForUser (userId requestId : String) (authToken : Option String)
  | assignRole (dto : Js) (requestId : String) (authToken : Option String)
  | unassignRole (dto : Js) (requestId : String) (authToken : Option String)

def RoleCall.body : RoleCall → Prog HttpApi Exn Js
  | .create createRoleDto requestId authToken =>
      RoleClientService.create network createRoleDto requestId authToken
  | .findAll requestId authToken => RoleClientService.findAll network requestId authToken
  | .findOne id requestId authToken => RoleClientService.findOne network id requestId authToken
  | .update id updateRoleDto requestId authToken =>
    RoleClientService.update network id updateRoleDto requestId authToken
  | .remove id requestId authToken => RoleClientService.remove network id requestId authToken
  | .getRolesForUser userId requestId authToken =>
      RoleClientService.getRolesForUser network userId requestId authToken
  | .getPermissionsForUser userId requestId authToken =>
    RoleClientService.getPermissionsForUser network userId requestId authToken
  | .assignRole dto requestId authToken =>
      RoleClientService.assignRole network dto requestId authToken
  | .unassignRole dto requestId authToken =>
      RoleClientService.unassignRole network dto requestId authToken

inductive NotificationCall where
  | ping
  | create (createNotificationDto : Js) (authToken requestId : String)
  | findAll (authToken requestId : String) (page limit sortBy sortOrder : Option String)
  | unreadCount (authToken requestId : String)
  | markRead (id authToken requestId : String)
  | readAll (authToken requestId : String)

def NotificationCall.body : NotificationCall → Prog HttpApi Exn Js
  | .ping => NotificationService.ping network
  | .create createNotificationDto authToken requestId =>
    NotificationService.create network createNotificationDto authToken requestId
  | .findAll authToken requestId page limit sortBy sortOrder =>
    NotificationService.findAll network authToken requestId page limit sortBy sortOrder
  | .unreadCount authToken requestId => NotificationService.unreadCount network authToken requestId
  | .markRead id authToken requestId => NotificationService.markRead network id authToken requestId
  | .readAll authToken requestId => NotificationService.readAll network authToken requestId

inductive ProxyCall where
  | auth (call : AuthCall)
  | role (call : RoleCall)
  | notification (call : NotificationCall)

def ProxyCall.body : ProxyCall → Prog HttpApi Exn Js
  | .auth call => call.body
  | .role call => call.body
  | .notification call => call.body

/-- The methods that return a reply without a look at its status. -/
def ProxyCall.unchecked : ProxyCall → Bool
  | .notification .ping => false
  | .notification _ => true
  | .auth _ | .role _ => false

/-- Every command may be answered with any response of its type, or be rejected. -/
@[reducible] def proxySystem : System HttpApi Exn ProxyCall Js Unit where
  Choice := (c : HttpCmd) → Except Exn c.Resp
  exec c choice s := some (choice c, s)
  body := ProxyCall.body
  Act := Empty
  act := nofun

abbrev HttpEvent := Event HttpApi Exn
abbrev ProxyPool := Pool HttpApi Exn ProxyCall Js Unit

def reply? : HttpEvent → Option (Except Exn HttpReply)
  | ⟨.send _, r⟩ => some (r.map HttpResponse.toHttpReply)
  | _ => none

/-- What a proxy call has received for its request: a reply, or the error of the transport. -/
def received? (trace : List HttpEvent) : Option (Except Exn HttpReply) := trace.findSome? reply?

def registerReply? : Ev → Option (Except Exn HttpReply)
  | ⟨.httpRegister _, r⟩ => some r
  | _ => none

/-- The same for a registration. -/
def contacted? (trace : List Ev) : Option (Except Exn HttpReply) := trace.findSome? registerReply?

/-- A call that has received `received` returns normally only for a status below 400, and
rejects with a `ServiceError` of the received status otherwise. -/
def Truthful {α : Type} (received : Option (Except Exn HttpReply)) (result : Except Exn α) : Prop :=
  match received with
  | none => True
  | some (.error _) => ∀ v, result ≠ .ok v
  | some (.ok reply) => (∀ v, result = .ok v → reply.status < 400) ∧
      (400 ≤ reply.status → ∃ e, result = .error (.service e) ∧ e.statusCode = reply.status)

/-- The condition `cond` on an upstream error; nothing for another reply. -/
def OnError (received : Option (Except Exn HttpReply)) (cond : HttpReply → Prop) : Prop :=
  ∀ reply, received = some (.ok reply) → 400 ≤ reply.status → cond reply

section Truthful

variable {α : Type} {received : Option (Except Exn HttpReply)}
  {result : Except Exn α} {reply : HttpReply}

theorem Truthful.below (low : reply.status < 400) : Truthful (some (.ok reply)) result :=
  ⟨fun _ _ => low, fun high => absurd low (Nat.not_lt.mpr high)⟩

theorem Truthful.rejected {e : ServiceError} (same : e.statusCode = reply.status) :
    Truthful (some (.ok reply)) (.error (.service e) : Except Exn α) :=
  ⟨nofun, fun _ => ⟨e, rfl, same⟩⟩

/-- The condition decides where the reply is an error, and nothing is asked elsewhere. -/
theorem truthful_iff_onError {cond : HttpReply → Prop}
    (transport : ∀ e, received = some (.error e) → ∀ v, result ≠ .ok v)
    (replied : ∀ reply, received = some (.ok reply) → 400 ≤ reply.status →
      (Truthful (some (.ok reply)) result ↔ cond reply)) : Truthful received result ↔
      OnError received cond := by
  rcases received with _ | e | reply
  · exact iff_of_true trivial nofun
  · exact iff_of_true (transport e rfl) nofun
  · by_cases low : reply.status < 400
    · refine iff_of_true (.below low) ?_
      rintro reply ⟨⟩ high
      exact absurd low (Nat.not_lt.mpr high)
    · have high := Nat.not_lt.mp low
      rw [replied reply rfl high]
      constructor
      · rintro holds reply ⟨⟩ _
        exact holds
      · exact fun holds => holds reply rfl high

end Truthful

section Proxies

/-- Commands other than a request. -/
def isLocal : HttpCmd → Bool
  | .send _ => false
  | _ => true

theorem received_append {trace added : List HttpEvent} (own : ∀ e ∈ added, isLocal e.cmd = true) :
    received? (added ++ trace) = received? trace := by
  have silent : added.findSome? reply? = none := by
    refine List.findSome?_eq_none_iff.mpr fun e member => ?_
    obtain ⟨cmd, resp⟩ := e
    have local_ := own _ member
    cases cmd <;> first | rfl | contradiction
  rw [received?, List.findSome?_append, silent, Option.none_or, received?]

/-- What a call has received stays what it has received, whatever its own commands do. -/
theorem along_local {α : Type} {p : Prog HttpApi Exn α} {trace : List HttpEvent}
    (uses : p.Uses (isLocal · = true)) :
    Along (fun _ _ => True) (fun after _ => received? after = received? trace) trace p := by
  refine uses.along_appends.mono (fun _ _ _ => trivial) ?_
  rintro after _ ⟨added, rfl, own⟩
  exact received_append own

variable {defaultMessage : String}

/-- What a method that looks at the status returns: the translated error of the received one. -/
def Relayed {α : Type} (received : Option (Except Exn HttpReply)) (result : Except Exn α) : Prop :=
  match received with
  | none => True
  | some (.error _) => ∀ v, result ≠ .ok v
  | some (.ok reply) => 400 ≤ reply.status →
      ∃ defaultMessage, result = .error
        (.service (axiosError ⟨reply.status, reply.data⟩ defaultMessage))

/-- The `catch` clause passes a `ServiceError` and turns the rest into one. -/
theorem Relayed.handled {received : Option (Except Exn HttpReply)} {e : Exn}
    (relayed : Relayed received (.error e : Except Exn Js)) :
    Relayed received (.error (.service (handleAxiosError e defaultMessage)) : Except Exn Js) := by
  rcases received with _ | transport | reply
  · trivial
  · exact fun v => nofun
  · intro high
    obtain ⟨message, same⟩ := relayed high
    cases same
    exact ⟨message, rfl⟩

theorem Relayed.truthful {received : Option (Except Exn HttpReply)} {result : Except Exn Js}
    (relayed : Relayed received result) : Truthful received result := by
  rcases received with _ | transport | reply
  · trivial
  · exact relayed
  · by_cases high : 400 ≤ reply.status
    · obtain ⟨message, rfl⟩ := relayed high
      exact .rejected rfl
    · exact .below (Nat.not_le.mp high)

/-- A request built by commands other than a request, which may all succeed. -/
structure Builds (request : Prog HttpApi Exn HttpRequest) : Prop where
  uses : request.Uses (isLocal · = true)
  built : ∃ events built, request.Yields events (.ok built)

/-- A method that returns a reply only after a look at its status. -/
inductive ChecksStatus : Prog HttpApi Exn Js → Prop where
  | mk (defaultMessage : String) (request : Prog HttpApi Exn HttpRequest)
      (finish : HttpResponse → Prog HttpApi Exn Js)
      (builds : Builds request) (finishes : ∀ response, (finish response).Uses (isLocal · = true)) :
      ChecksStatus (checked network defaultMessage request finish)

theorem along_checksStatus {p : Prog HttpApi Exn Js} (checks : ChecksStatus p) :
    Along (fun _ _ => True) (fun trace r => Relayed (received? trace) r) [] p := by
  obtain ⟨defaultMessage, request, finish, builds, finishes⟩ := checks
  apply along_mapError
  · exact fun trace e relayed => relayed.handled
  apply along_bind.mpr
  refine (along_local builds.uses).mono (fun _ _ _ => trivial) ?_
  rintro trace (e | request) unsent
  · have unsent : received? trace = none := unsent
    show Relayed (received? trace) _
    rw [unsent]
    trivial
  · apply along_command_bind trivial
    · exact fun e v => nofun
    · intro response
      by_cases failed : response.status ≥ 400
      · rw [if_pos failed]
        exact fun _ => ⟨defaultMessage, rfl⟩
      · rw [if_neg failed]
        refine (along_local (finishes response)).mono (fun _ _ _ => trivial) fun after r same => ?_
        rw [same]
        exact fun high => absurd high failed

theorem along_unchecked (request : HttpRequest) :
    Along (fun _ _ => True) (fun trace r => Truthful (received? trace) r ↔
      OnError (received? trace) fun _ => False) []
      (unchecked network defaultMessage request) := by
  refine along_catch.mpr ⟨trivial, fun r => ?_⟩
  rcases r with e | response
  · exact iff_of_true (fun v => nofun) nofun
  · refine truthful_iff_onError (fun e => nofun) ?_
    rintro reply ⟨⟩ high
    refine iff_of_false (fun truthful => ?_) not_false
    exact absurd (truthful.1 _ rfl) (Nat.not_lt.mpr high)

variable {requestId : String} {token : Option String}

theorem uses_getHeaders : (AuthClientService.getHeaders network requestId token).Uses
    (isLocal · = true) := by
  unfold AuthClientService.getHeaders
  split
  · trivial
  · refine Prog.Uses.bind (p := Prog.perform (I := HttpApi) (.signInternalToken (.obj [])))
      ⟨rfl, fun _ => trivial⟩ ?_
    exact fun _ => trivial

theorem yields_getHeaders :
    ∃ events headers, (AuthClientService.getHeaders network requestId token).Yields events
      (.ok headers) := by
  unfold AuthClientService.getHeaders
  split
  · exact ⟨_, _, .done⟩
  · exact ⟨[⟨.signInternalToken (.obj []), .ok gatewayToken⟩], _, .await .done⟩

theorem builds_get {build : List (String × String) → HttpRequest} :
    Builds (do
      let headers ← AuthClientService.getHeaders network requestId token
      return build headers) := by
  obtain ⟨events, headers, yielded⟩ := @yields_getHeaders requestId token
  exact ⟨uses_getHeaders.bind fun _ => trivial, _, _, yielded.bind .done⟩

theorem builds_post {url : String} {data : Js} {cookie : List (String × String)} :
    Builds (AuthClientService.post network url data requestId token cookie) := builds_get

theorem uses_withCookies {clientRes : Bool} (response : HttpResponse) :
    (AuthClientService.withCookies network clientRes response).Uses (isLocal · = true) := by
  cases clientRes with
  | false => trivial
  | true =>
    have appended : ∀ cookie, (network.append cookie).Uses (isLocal · = true) :=
      fun cookie => ⟨rfl, fun _ => trivial⟩
    exact (Prog.Uses.forEach appended response.setCookie).bind fun _ => trivial

theorem uses_signedOut {clientRes : Bool} (response : HttpResponse) :
    (AuthClientService.signedOut network clientRes response).Uses (isLocal · = true) := by
  have cleared : ∀ name, (network.clearCookie name).Uses (isLocal · = true) :=
    fun name => ⟨rfl, fun _ => trivial⟩
  cases clientRes with
  | false => trivial
  | true => exact (cleared _).bind fun _ => (cleared _).bind fun _ => trivial

theorem uses_bodyOf (response : HttpResponse) :
    (bodyOf (I := HttpApi) response).Uses (isLocal · = true) :=
  trivial

theorem checksStatus_auth (call : AuthCall) : ChecksStatus call.body := by
  cases call with
  | getProfileByUserId requestId token => exact .mk _ _ _ builds_get uses_bodyOf
  | login loginDto requestId clientRes => exact .mk _ _ _ builds_post uses_withCookies
  | verify verifyDto requestId => exact .mk _ _ _ builds_post uses_bodyOf
  | confirm confirmDto requestId => exact .mk _ _ _ builds_post uses_bodyOf
  | resendCode email requestId => exact .mk _ _ _ builds_post uses_bodyOf
  | refresh refreshToken deviceId requestId clientRes =>
      exact .mk _ _ _ builds_post uses_withCookies
  | logoutDevice deviceId refreshToken requestId clientRes token =>
      exact .mk _ _ _ builds_post uses_signedOut
  | logoutAll requestId clientRes token => exact .mk _ _ _ builds_post uses_signedOut
  | forgotPassword dto requestId => exact .mk _ _ _ builds_post uses_bodyOf
  | forgotPasswordVerify dto requestId => exact .mk _ _ _ builds_post uses_bodyOf
  | forgotPasswordReset dto requestId => exact .mk _ _ _ builds_post uses_bodyOf

theorem checksStatus_forward {method : HttpMethod} {url : String} {data : Js} :
    ChecksStatus (RoleClientService.forward network method url data requestId token) := by
  refine .mk _ _ _ ?_ uses_bodyOf
  unfold RoleClientService.getHeaders
  split
  · exact ⟨trivial, _, _, .done⟩
  · constructor
    · exact ⟨rfl, fun r => by cases r <;> trivial⟩
    · exact ⟨[⟨.signInternalToken (.obj []), .ok gatewayToken⟩], _, .await .done⟩

theorem checksStatus_role (call : RoleCall) : ChecksStatus call.body := by
  cases call <;> exact checksStatus_forward

theorem checksStatus_proxy {call : ProxyCall} (checks : call.unchecked = false) :
    ChecksStatus call.body := by
  cases call with
  | auth call => exact checksStatus_auth call
  | role call => exact checksStatus_role call
  | notification call =>
    cases call with
    | ping => exact .mk _ _ _ ⟨trivial, _, _, .done⟩ uses_bodyOf
    | create | findAll | unreadCount | markRead | readAll => contradiction

theorem unchecked_proxy {call : ProxyCall} (passes : call.unchecked = true) :
    ∃ request, call.body = unchecked network NotificationService.requestFailed request := by
  cases call with
  | auth call => contradiction
  | role call => contradiction
  | notification call =>
    cases call with
    | ping => contradiction
    | create | findAll | unreadCount | markRead | readAll => exact ⟨_, rfl⟩

/-- The status decides for the methods that do not look at it, and for no other. -/
theorem along_proxy (call : ProxyCall) :
    Along (fun _ _ => True) (fun trace r =>
      Truthful (received? trace) r ↔ OnError (received? trace) fun _ =>
        call.unchecked = false) [] call.body := by
  cases passes : call.unchecked with
  | false =>
    refine (along_checksStatus (checksStatus_proxy passes)).mono
      (fun _ _ _ => trivial) fun trace r relayed => ?_
    exact iff_of_true relayed.truthful fun _ _ _ => rfl
  | true =>
    obtain ⟨request, same⟩ := unchecked_proxy passes
    rw [same]
    refine (along_unchecked request).mono (fun _ _ _ => trivial) fun trace r holds => ?_
    simpa only [Bool.true_eq_false] using holds

end Proxies

section Registration
open IdempotencyService

/-- A call that was answered `status`, an error, tells the status where both its updates of the
record are written, or where only the first is rejected and the status is the one of an
internal error. A call without a record has no such updates. -/
def Recorded (trace : List Ev) (reply : HttpReply) : Prop :=
  (∀ e ∈ trace, isMark e.cmd = true → e.resp.isOk = true) ∨
    (reply.status = 500 ∧ ∃ e rest, trace = e :: rest ∧ e.resp.isOk = true)

variable {cfg : Config} {q : RegisterRequest} {trace : List Ev} {recordId : String}

/-- Commands before the request: no request and no mark. -/
def isCheck (c : Cmd) : Bool := !isContact c && !isMark c

theorem contacted_append {added : List Ev} (checks : ∀ e ∈ added, isContact e.cmd = false) :
    contacted? (added ++ trace) = contacted? trace := by
  have silent : added.findSome? registerReply? = none := by
    refine List.findSome?_eq_none_iff.mpr fun e member => ?_
    obtain ⟨cmd, resp⟩ := e
    have other := checks _ member
    cases cmd <;> first | rfl | contradiction
  rw [contacted?, List.findSome?_append, silent, Option.none_or, contacted?]

theorem uses_checkIdempotency (req : IdempotencyRequest) (gateway : Nat) :
    (checkIdempotency cfg gateway req).Uses (isCheck · = true) := by
  have claims : ∀ c, isCheck c = true → (call c).Uses (isCheck · = true) :=
    fun c check => ⟨check, fun _ => trivial⟩
  unfold checkIdempotency
  split
  · trivial
  · refine (claims _ rfl).bind fun cachedResponse => ?_
    split
    · trivial
    · refine (claims _ rfl).bind fun existingRecord => ?_
      cases existingRecord with
      | none => exact (claims _ rfl).bind fun now => (claims _ rfl).bind fun record => trivial
      | some record =>
        simp only [checkRecord]
        split
        · trivial
        · cases record.status with
          | processing => trivial
          | completed => exact (claims _ rfl).bind fun _ => trivial
          | failed => exact (claims _ rfl).bind fun now => (claims _ rfl).bind fun record => trivial

/-- After a reply below 400 the call sends no further request. -/
theorem uses_answered (reply : HttpReply) :
    (tryCatch (do
        if recordId ≠ "" then
          markCompleted recordId reply.status reply.data
          cacheResponse q.gateway q.key reply.data
        return reply.data)
      (AuthClientService.rejected recordId)).Uses (isContact · = false) := by
  have called : ∀ c, isContact c = false → (call c).Uses (isContact · = false) :=
    fun c other => ⟨other, fun _ => trivial⟩
  have updated : ∀ id data, (do let _ ← call (.recordUpdate id data) : Action Unit).Uses
      (isContact · = false) := fun id data => (called _ rfl).bind fun _ => trivial
  apply Prog.Uses.catch
  · by_cases empty : recordId = ""
    · simp only [empty, ne_eq, not_true_eq_false, if_false]
      trivial
    · simp only [markCompleted, cacheResponse, empty, ne_eq, not_false_eq_true, if_true, if_false]
      refine (updated _ _).bind fun _ => ?_
      split
      · trivial
      · exact (called _ rfl).bind fun _ => trivial
  · intro err
    simp only [AuthClientService.rejected, markFailed]
    split
    · trivial
    · exact (updated _ _).bind fun _ => trivial

/-- A registration that sends no request ends with what its check has found; the others execute. -/
theorem along_register_cases {R : List Ev → Except Exn Json → Prop}
    (unsent : ∀ trace r, contacted? trace = none → R trace r)
    (executes : ∀ trace recordId, (∀ e ∈ trace, isCheck e.cmd = true) →
      Along (fun _ _ => True) R trace
      (tryCatch (AuthClientService.execute q recordId) (AuthClientService.rejected recordId))) :
    Along (fun _ _ => True) R [] (AuthClientService.register cfg q) := by
  refine along_bind.mpr (along_catch.mpr (((uses_checkIdempotency _ _).along_appends).mono
    (fun _ _ _ => trivial) ?_))
  rintro trace r ⟨added, rfl, checks⟩
  rw [List.append_nil]
  have untouched : contacted? added = none := by
    refine (List.append_nil added) ▸ contacted_append fun e member => ?_
    have check := checks e member
    simp only [isCheck, Bool.and_eq_true, Bool.not_eq_true'] at check
    exact check.1
  rcases r with e | ⟨recordId, shouldExecute, cachedResponse⟩
  · exact unsent _ _ untouched
  · cases shouldExecute with
    | true => exact executes added recordId checks
    | false =>
      cases cachedResponse with
      | none => exact executes added recordId checks
      | some body => exact unsent _ _ untouched

end Registration
section Sample

def missing : HttpResponse :=
  { status := 404, data := ⟨.obj [("messageKey", .str "NOTI_NOT_FOUND")], nofun⟩ }

end Sample
end CorePlatform.Gateway
