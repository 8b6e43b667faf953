import CorePlatform.Bell.Sockets

/-! What the socket handlers have done wherever they send an event: which replies they have
heard, and what notification-service has executed for them. -/
namespace CorePlatform.Bell
open Async Nats NotificationController
open Gateway (HttpReply HttpRequest HttpResponse)

section Routing

theorem segments_plain {cs : List Char} (plain : '/' ∉ cs) : segments cs = [cs] := by
  induction cs with
  | nil => rfl
  | cons c cs ih =>
    rw [List.mem_cons, not_or] at plain
    rw [segments, if_neg (Ne.symm plain.1), ih plain.2]

theorem segments_slash {cs rest : List Char} (plain : '/' ∉ cs) :
    segments (cs ++ '/' :: rest) = cs :: segments rest := by
  induction cs with
  | nil => rw [List.nil_append, segments, if_pos rfl]
  | cons c cs ih =>
    rw [List.mem_cons, not_or] at plain
    rw [List.cons_append, segments, if_neg (Ne.symm plain.1), ih plain.2]

variable {headers : List (String × String)} {data : Js} {params : List (String × Option String)}

theorem route_markRead {id : String} (segment : '/' ∉ id.toList) :
    route ⟨.post, "notification/" ++ id ++ "/read", headers, data, params⟩ = if id = "" then
      none else some (.markRead id) := by
  have path : ("notification/" ++ id ++ "/read").toList =
      "notification".toList ++ '/' :: (id.toList ++ '/' :: "read".toList) := by
    simp only [String.toList_append]
    rfl
  have parts : (segments ("notification/" ++ id ++ "/read").toList).map String.ofList =
      ["notification", id, "read"] := by
    rw [path, segments_slash (by decide), segments_slash segment, segments_plain (by decide)]
    simp
  simp only [route, parts]

theorem route_readAll : route ⟨.post, "notification/read-all", headers, data, params⟩ =
    some .readAll := by
  have parts : (segments "notification/read-all".toList).map String.ofList =
      ["notification", "read-all"] := by
    decide +kernel
  simp only [route, parts]

theorem route_unreadCount : route ⟨.get, "notification/unread-count", headers, data, params⟩ =
    some .unreadCount := by
  have parts : (segments "notification/unread-count".toList).map String.ofList =
      ["notification", "unread-count"] := by
    decide +kernel
  simp only [route, parts]

/-- The token of a call is the one that arrives. -/
theorem authorization_sent {requestId token : String} :
    (Gateway.NotificationService.getHeaders requestId (some ("Bearer " ++ token))).lookup
      "Authorization" = some ("Bearer " ++ token) := by
  have nonempty : "Bearer " ++ token ≠ "" := by
    intro empty
    have chars := congrArg String.toList empty
    simp [String.toList_append] at chars
  simp only [Gateway.NotificationService.getHeaders, Option.filter, nonempty, ne_eq,
    not_false_eq_true, decide_true, if_true]
  rfl

end Routing

section Serving

variable {platform : Platform} {request : HttpRequest} {base : List Ev}

/-- The commands that a handler of notification-service can issue. -/
def allows : Handler → BellCmd → Bool
  | .unreadCount, .notificationCount _ => true
  | .markRead _, .now | .markRead _, .notificationFindFirst .. | .markRead _, .notificationUpdate .. =>
      true
  | .readAll, .now | .readAll, .notificationUpdateMany .. => true
  | _, _ => false

theorem uses_handle (infoData : Js) (handler : Handler) :
    (handle platform infoData handler).Uses (allows handler · = true) := by
  have called : ∀ c, allows handler c = true → (call c).Uses (allows handler · = true) :=
    fun c allowed => ⟨allowed, fun _ => trivial⟩
  cases handler with
  | unreadCount =>
    simp only [handle, NotificationService.unreadCount]
    refine Prog.Uses.bind ?_ fun _ => trivial
    split
    · trivial
    · exact called _ rfl
  | markRead id =>
    refine Prog.Uses.bind ?_ fun body => ?_
    · simp only [NotificationService.markRead]
      split
      · trivial
      · refine (called _ rfl).bind fun existing => ?_
        cases existing with
        | none => trivial
        | some existing =>
          dsimp only
          split
          · trivial
          · exact (called _ rfl).bind fun now => (called _ rfl).bind fun updated => trivial
    · split <;> trivial
  | readAll =>
    simp only [handle, NotificationService.readAll]
    refine Prog.Uses.bind ?_ fun _ => trivial
    split
    · trivial
    · exact (called _ rfl).bind fun now => called _ rfl

theorem uses_serve {handler : Handler}
    (routed : route request = some handler ∨ route request = none) :
    (serve platform request).Uses (allows handler · = true) := by
  refine Prog.Uses.catch ?_ fun e => trivial
  rcases routed with routed | routed
  · rw [routed]
    cases (request.headers.lookup "Authorization").bind platform.internalData with
    | none => trivial
    | some infoData => exact uses_handle infoData handler
  · rw [routed]
    trivial

/-- Commands are rejected by the clients of the backends only. -/
def Foreign (trace : List Ev) : Prop :=
  ∀ e ∈ trace, ∀ err, e.resp = .error err → e.cmd.canFail = true ∧ isForeign err = true

/-- The filter makes an error reply of what was thrown. -/
def Refuses (trace : List Ev) (e : Exn) : Prop :=
  Foreign trace → 400 ≤ (HttpExceptionFilter.reply e).status

theorem refuses_rejected {c : BellCmd} {e : Exn} : Refuses (⟨c, .error e⟩ :: base) e := by
  intro foreign
  have own := (foreign _ List.mem_cons_self e rfl).2
  cases e with
  | database | error =>
    have internal : 400 ≤ 500 := by decide
    exact internal
  | service | http => contradiction

theorem refuses_service {e : ServiceError} (high : 400 ≤ e.statusCode) : Refuses base (.service e) :=
  fun _ => high

/-- The notification was found to be read, or was marked. -/
def Evidence (id userId : String) (trace : List Ev) : Prop :=
  ∃ row, ⟨.notificationFindFirst id userId, .ok (some row)⟩ ∈ trace ∧
    (row.readAt.isSome = true ∨ ∃ readAt row',
      ⟨.notificationUpdate row.id readAt, .ok row'⟩ ∈ trace)

/-- The user of the token of a request. -/
def caller? (platform : Platform) (request : HttpRequest) : Option String :=
  ((request.headers.lookup "Authorization").bind platform.internalData).map resolveUserId

/-- What a served request leaves, where `G` holds of a reply that is returned and `E` where
the handler throws or is not reached. -/
def Served (platform : Platform) (request : HttpRequest) (G : String → List Ev → HttpReply → Prop)
    (E : List Ev → Prop)
    (t : List Ev) (reply : HttpReply) : Prop :=
  ((Foreign t → 400 ≤ reply.status) ∧ E t) ∨ ∃ userId, caller? platform request =
    some userId ∧ G userId t reply

theorem along_serve {handler : Handler} {G : String → List Ev → HttpReply → Prop}
    {E : List Ev → Prop}
    (routed : route request = some handler ∨ route request = none) (unserved : E base)
    (handled : ∀ infoData, Along (fun _ _ => True) (fun t r => match r with
      | .ok reply => G (resolveUserId infoData) t reply
      | .error e => Refuses t e ∧ E t) base (handle platform infoData handler)) :
    Along (fun _ _ => True) (fun t r => ∃ reply, r = .ok reply ∧
      Served platform request G E t reply) base
      (serve platform request) := by
  have refused : ∀ {t e}, Refuses t e → E t →
      ∃ reply, (.ok (HttpExceptionFilter.reply e) : Except Exn HttpReply) = .ok reply ∧
      Served platform request G E t reply := fun refuses thrown => ⟨_, rfl, .inl ⟨refuses, thrown⟩⟩
  have outside : ∀ {status message}, 400 ≤ status → status ≠ 400 →
      Refuses base (.http status message) := by
    intro status message high other _
    simpa only [HttpExceptionFilter.reply, if_neg other] using high
  apply along_catch.mpr
  rcases routed with routed | routed
  · rw [routed]
    cases authorized : (request.headers.lookup "Authorization").bind platform.internalData with
    | none => exact refused (outside (by decide) (by decide)) unserved
    | some infoData =>
      have caller : caller? platform request = some (resolveUserId infoData) := by
        rw [caller?, authorized, Option.map_some]
      refine (handled infoData).mono (fun _ _ _ => trivial) fun t r holds => ?_
      cases r with
      | ok reply => exact ⟨reply, rfl, .inr ⟨_, caller, holds⟩⟩
      | error e => exact refused holds.1 holds.2
  · rw [routed]
    exact refused (outside (by decide) (by decide)) unserved

/-- What `markRead` leaves where it returns and where it throws. -/
@[reducible] def MarkEnd {α : Type} (id userId : String) (t : List Ev) : Except Exn α → Prop
  | .ok _ => Evidence id userId t
  | .error e => Refuses t e ∧ True

theorem along_handle_markRead (infoData : Js) (id : String) :
    Along (fun _ _ => True) (fun t r => match r with
      | .ok _ => Evidence id (resolveUserId infoData) t
      | .error e => Refuses t e ∧ True) base (handle platform infoData (.markRead id)) := by
  refine along_bind.mpr (Along.mono (P := fun _ _ => True)
    (R := MarkEnd id (resolveUserId infoData)) ?_ (fun _ _ _ => trivial) ?_)
  · simp only [NotificationService.markRead]
    split
    · exact ⟨refuses_service (by decide), trivial⟩
    · apply along_command_bind trivial
      · exact fun e => ⟨refuses_rejected, trivial⟩
      · intro existing
        cases existing with
        | none => exact ⟨refuses_service (by decide), trivial⟩
        | some existing =>
          dsimp only
          split
          · rename_i already
            exact ⟨existing, List.mem_cons_self, .inl already⟩
          · apply along_command_bind trivial
            · exact fun e => ⟨refuses_rejected, trivial⟩
            · intro now
              apply along_command_bind trivial
              · exact fun e => ⟨refuses_rejected, trivial⟩
              · intro updated
                refine ⟨existing, ?_, .inr ⟨now, updated, List.mem_cons_self⟩⟩
                exact List.mem_cons_of_mem _ (List.mem_cons_of_mem _ List.mem_cons_self)
  · rintro t (e | body) holds
    · exact holds
    · dsimp only
      split <;> exact holds

theorem along_handle_readAll (infoData : Js) :
    Along (fun _ _ => True) (fun t r => match r with
      | .ok _ => ∃ readAt n, ⟨.notificationUpdateMany (resolveUserId infoData) readAt, .ok n⟩ ∈ t
      | .error e => Refuses t e ∧ True) base (handle platform infoData .readAll) := by
  refine along_bind.mpr (Along.mono (P := fun _ _ => True) (R := fun t r => match r with
    | .ok _ => ∃ readAt n, ⟨.notificationUpdateMany (resolveUserId infoData) readAt, .ok n⟩ ∈ t
    | .error e => Refuses t e ∧ True) ?_ (fun _ _ _ => trivial) ?_)
  · simp only [NotificationService.readAll]
    split
    · exact ⟨refuses_service (by decide), trivial⟩
    · apply along_command_bind trivial
      · exact fun e => ⟨refuses_rejected, trivial⟩
      · intro now
        refine ⟨trivial, fun r => ?_⟩
        cases r with
        | error e => exact ⟨refuses_rejected, trivial⟩
        | ok n => exact ⟨now, n, List.mem_cons_self⟩
  · rintro t (e | updated) holds
    · exact holds
    · exact holds

/-- No count has been answered. -/
def Uncounted (trace : List Ev) : Prop :=
  ∀ userId n, (⟨.notificationCount userId, .ok n⟩ : Ev) ∉ trace

/-- Every answered count is the one of the body. -/
def CountOf (trace : List Ev) (body : Js) : Prop :=
  ∀ userId n, (⟨.notificationCount userId, .ok n⟩ : Ev) ∈ trace →
    body.get "count" = .num (toString n.val)

theorem along_handle_unreadCount (infoData : Js) (uncounted : Uncounted base) :
    Along (fun _ _ => True) (fun t r => match r with
      | .ok reply => CountOf t reply.data.val
      | .error e => Refuses t e ∧ Uncounted t) base (handle platform infoData .unreadCount) := by
  simp only [handle, NotificationService.unreadCount]
  split
  · exact ⟨refuses_service (by decide), uncounted⟩
  · apply along_command_bind trivial
    · intro e
      refine ⟨refuses_rejected, fun userId n member => ?_⟩
      obtain same | earlier := List.mem_cons.mp member
      · cases same
      · exact uncounted _ _ earlier
    · intro count userId n member
      obtain same | earlier := List.mem_cons.mp member
      · cases same
        rfl
      · exact absurd earlier (uncounted _ _)

end Serving

section Requests

variable {platform : Platform} {request : HttpRequest} {base : List Ev} {handler : Handler}

def reply? : Ev → Option (Except Exn HttpReply)
  | ⟨.httpRequest _, .ok none⟩ => none
  | ⟨.httpRequest _, .ok (some refused)⟩ => some (.ok refused.val)
  | ⟨.httpRequest _, .error e⟩ => some (.error e)
  | ⟨.httpReply response, .ok _⟩ => some (.ok response.toHttpReply)
  | ⟨.httpReply _, .error e⟩ => some (.error e)
  | _ => none

/-- The replies that a call has heard, latest first. -/
def heard (trace : List Ev) : List (Except Exn HttpReply) := trace.filterMap reply?

def isHttp : BellCmd → Bool
  | .httpRequest _ | .httpReply _ => true
  | _ => false

/-- The commands of a request and of the handler that it reaches. -/
def inExchange (handler : Handler) (c : BellCmd) : Bool := isHttp c || allows handler c

theorem uses_request (routed : route request = some handler ∨ route request = none)
    (message : String) :
    (Gateway.unchecked (client platform) message request).Uses (inExchange handler · = true) := by
  have served := (@uses_serve platform _ _ routed).mono fun c (allowed : allows handler c = true) =>
    show inExchange handler c = true by rw [inExchange, allowed, Bool.or_true]
  refine Prog.Uses.catch (Prog.Uses.bind ?_ fun _ => trivial) fun e => trivial
  refine Prog.Uses.bind (p := call (.httpRequest request)) ⟨rfl, fun _ => trivial⟩ fun refused => ?_
  cases refused with
  | some refused => trivial
  | none =>
    refine served.bind fun reply => ?_
    exact Prog.Uses.bind (p := call (.httpReply _)) ⟨rfl, fun _ => trivial⟩ fun _ => trivial

/-- What a request leaves: one more reply, which is the result, or a failure. -/
structure Answered (platform : Platform) (request : HttpRequest)
    (G : String → List Ev → HttpReply → Prop)
    (E : List Ev → Prop) (base t : List Ev) (r : Except Exn Js)
    (answer : Except Exn HttpReply) : Prop where
  heard : heard t = answer :: heard base
  returned : match answer with
    | .ok reply => r = .ok reply.data.val ∧ Served platform request G E t reply
    | .error _ => ∃ e, r = .error e

theorem heard_own {added : List Ev} (own : ∀ e ∈ added, allows handler e.cmd = true) :
    heard (added ++ base) = heard base := by
  have silent : added.filterMap reply? = [] := by
    refine List.filterMap_eq_nil_iff.mpr fun e member => ?_
    obtain ⟨cmd, resp⟩ := e
    have allowed := own _ member
    cases cmd <;> first | rfl | (cases handler <;> contradiction)
  rw [heard, List.filterMap_append, silent, List.nil_append, heard]

theorem along_request {G : String → List Ev → HttpReply → Prop} {E : List Ev → Prop}
    (routed : route request = some handler ∨ route request = none) (unserved : E base)
    (handled : ∀ infoData base, E base → Along (fun _ _ => True) (fun t r => match r with
      | .ok reply => G (resolveUserId infoData) t reply
      | .error e => Refuses t e ∧ E t) base (handle platform infoData handler))
    (keepsG : ∀ userId t reply (e : Ev), isHttp e.cmd = true → G userId t reply →
      G userId (e :: t) reply)
    (keepsE : ∀ t (e : Ev), isHttp e.cmd = true → E t → E (e :: t)) (message : String) :
    Along (fun _ _ => True) (fun t r => ∃ answer,
      Answered platform request G E base t r answer) base
      (Gateway.unchecked (client platform) message request) := by
  apply along_mapError
  · rintro t e ⟨answer, heard, returned⟩
    refine ⟨answer, heard, ?_⟩
    cases answer with
    | ok reply => cases returned.1
    | error e' => exact ⟨_, rfl⟩
  · refine along_bind.mpr (along_bind.mpr ⟨trivial, fun r => ?_⟩)
    rcases r with e | _ | refused
    · exact ⟨.error e, rfl, e, rfl⟩
    · have unserved' := keepsE base ⟨.httpRequest request, .ok none⟩ rfl unserved
      have served := along_serve routed unserved' fun infoData => handled infoData _ unserved'
      refine along_bind.mpr ((((@uses_serve platform _ _ routed).along_appends).and served).mono
        (fun _ _ _ => trivial) ?_)
      rintro t r ⟨⟨added, rfl, own⟩, reply, rfl, served⟩
      have unheard : heard (added ++ ⟨.httpRequest request, .ok none⟩ :: base) = heard base :=
        heard_own own
      refine ⟨trivial, fun r => ?_⟩
      cases r with
      | error e =>
        refine ⟨.error e, ?_, e, rfl⟩
        exact congrArg (_ :: ·) unheard
      | ok _ =>
        refine ⟨.ok reply, congrArg (_ :: ·) unheard, rfl, ?_⟩
        rcases served with ⟨high, thrown⟩ | ⟨userId, caller, good⟩
        · refine .inl ⟨fun foreign => high fun e member =>
            foreign e (List.mem_cons_of_mem _ member), ?_⟩
          exact keepsE _ _ rfl thrown
        · exact .inr ⟨userId, caller, keepsG _ _ _ _ rfl good⟩
    · refine ⟨.ok refused.val, rfl, rfl, .inl ⟨fun _ => refused.property, keepsE _ _ rfl unserved⟩⟩

end Requests
section Handlers

/-- Every token is accepted with the data that it was signed for. -/
def Tokens (platform : Platform) (trace : List Ev) : Prop :=
  ∀ data token, (⟨.signInternalToken data, .ok token⟩ : Ev) ∈ trace →
    platform.internalData ("Bearer " ++ token) = some data

/-- What the responses of a run are like. -/
def Honest (platform : Platform) (trace : List Ev) : Prop := Foreign trace ∧ Tokens platform trace

/-- What a socket asks to be marked as read. -/
inductive Reading where
  | one (notificationId : String)
  | all
  deriving DecidableEq

/-- The payload that is announced, with the count that was heard. -/
def updatedPayload (count : Js) : Reading → Js
  | .one notificationId =>
    .obj [("action", .str "read"), ("notificationId", .str notificationId), ("unreadCount", count)]
  | .all => .obj [("action", .str "read-all"), ("unreadCount", .num "0")]

def Unmarked (trace : List Ev) : Prop :=
  ∀ userId readAt n, (⟨.notificationUpdateMany userId readAt, .ok n⟩ : Ev) ∉ trace

/-- What has been heard where an update is announced to the sockets of the user. The reply to the
first request is all that could tell a failure. -/
def Grounds (platform : Platform) (userId : String) (trace : List Ev) (data : Js) : Reading → Prop
  | .one id => ∃ first second, heard trace = [.ok second, .ok first] ∧
      data = updatedPayload (second.data.val.get "count") (.one id) ∧
      (Honest platform trace → first.status < 400 → Evidence id userId trace) ∧
      CountOf trace second.data.val ∧ Unmarked trace
  | .all => ∃ first, heard trace = [.ok first] ∧ data = updatedPayload .undefined .all ∧
      (Honest platform trace → first.status < 400 →
        ∃ readAt n, ⟨.notificationUpdateMany userId readAt, .ok n⟩ ∈ trace) ∧
      Uncounted trace

def isEmission : BellCmd → Bool
  | .emit .. | .emitToUser .. => true
  | _ => false

/-- The commands that tell others of a change. -/
def tells : BellCmd → Bool
  | .emit .. | .emitToUser .. | .publish .. => true
  | _ => false

def Calm (trace : List Ev) : Prop := ∀ e ∈ trace, tells e.cmd = false

/-- Nothing has been sent to a socket. -/
def Unsent (trace : List Ev) : Prop := ∀ e ∈ trace, isEmission e.cmd = true → e.resp.isOk = false

theorem Calm.unsent {trace : List Ev} (calm : Calm trace) : Unsent trace := by
  intro e member emission
  have quiet := calm e member
  obtain ⟨c, r⟩ := e
  cases c <;> contradiction

/-- Where a handler of a socket may stand. -/
def SocketPoint (platform : Platform) (gateway : Nat) (socketId : String) (user : Option String)
    (reading : Option Reading) (trace : List Ev) : BellCmd → Prop
  | .emit g s event _ => g = gateway ∧ s = socketId ∧ event = "error" ∧ Unsent trace
  | .emitToUser g u event data =>
      g = gateway ∧ user = some u ∧ event = WS_NOTIFICATION_UPDATED ∧ Calm trace ∧
      ∃ asked ∈ reading, Grounds platform u trace data asked
  | .notificationCreate _ | .publish .. => False
  | .notificationUpdate .. | .notificationUpdateMany .. => Calm trace
  | _ => True

/-- How it ends: with an error to the sender, or with an update to the sockets of the user. -/
def SocketEnd (gateway : Nat) (socketId : String) (user : Option String) (trace : List Ev)
    (_ : Except Exn Unit) : Prop :=
  Foreign trace → ∃ e rest, trace = e :: rest ∧ Unsent rest ∧
    ((∃ data, e.cmd = .emit gateway socketId "error" data) ∨
    ∃ u data, user = some u ∧ e.cmd = .emitToUser gateway u WS_NOTIFICATION_UPDATED data)

variable {platform : Platform} {gateway : Nat} {socket : Socket} {user : Option String}
  {reading : Option Reading}
  {base : List Ev}

theorem along_emitError (unsent : Unsent base) (message : String) (errors : List (String × Js)) :
    Along (SocketPoint platform gateway socket.id user reading)
    (SocketEnd gateway socket.id user) base
      (NotificationWsGateway.emitError gateway socket message errors) :=
  ⟨⟨rfl, rfl, rfl, unsent⟩, fun _ _ => ⟨_, base, rfl, unsent, .inl ⟨_, rfl⟩⟩⟩

/-- The token of the user is in the trace. -/
theorem caller_sent {request : HttpRequest} {userId token : String} {trace : List Ev}
    (tokens : Tokens platform trace)
    (signed : (⟨.signInternalToken (.obj [("userId", .str userId)]), .ok token⟩ : Ev) ∈ trace)
    (sent : request.headers.lookup "Authorization" = some ("Bearer " ++ token)) :
    caller? platform request = some userId := by
  have accepted := tokens _ _ signed
  rw [caller?, sent, Option.bind_some, accepted]
  rfl

theorem calm_append {handler : Handler} {trace added : List Ev} (calm : Calm trace)
    (own : ∀ e ∈ added, inExchange handler e.cmd = true) : Calm (added ++ trace) := by
  have quiet : ∀ c, inExchange handler c = true → tells c = false := by
    intro c allowed
    cases handler <;> cases c <;> first | rfl | contradiction
  intro e member
  rcases List.mem_append.mp member with new | old
  · exact quiet _ (own e new)
  · exact calm e old

theorem inExchange_point {handler : Handler} {trace : List Ev} {c : BellCmd} (calm : Calm trace)
    (allowed : inExchange handler c = true) :
    SocketPoint platform gateway socket.id user reading trace c := by
  cases handler <;> cases c <;> trivial

/-- A request of a handler that has told nothing yet. -/
theorem along_quiet_request {handler : Handler} {request : HttpRequest}
    {G : String → List Ev → HttpReply → Prop}
    {E : List Ev → Prop} {message : String} (calm : Calm base)
    (routed : route request = some handler ∨ route request = none)
    (answered : Along (fun _ _ => True) (fun t r => ∃ answer,
      Answered platform request G E base t r answer) base
      (Gateway.unchecked (client platform) message request)) :
    Along (SocketPoint platform gateway socket.id user reading) (fun t r => Calm t ∧
      (∃ added, t = added ++ base ∧ ∀ e ∈ added, inExchange handler e.cmd = true) ∧
      ∃ answer, Answered platform request G E base t r answer) base
      (Gateway.unchecked (client platform) message request) := by
  refine ((@uses_request platform _ _ routed message).along_appends.and answered).mono ?_ ?_
  · rintro trace c ⟨⟨allowed, added, rfl, own⟩, -⟩
    exact inExchange_point (calm_append calm own) allowed
  · rintro trace r ⟨⟨added, rfl, own⟩, answered⟩
    exact ⟨calm_append calm own, ⟨added, rfl, own⟩, answered⟩

/-- The three requests of the handlers. -/
theorem along_markRead {id token requestId : String} (calm : Calm base)
    (segment : '/' ∉ id.toList) :
    Along (SocketPoint platform gateway socket.id user reading) (fun t r => Calm t ∧
      (∃ added, t = added ++ base ∧ ∀ e ∈ added, inExchange (.markRead id) e.cmd = true) ∧
      ∃ answer request, request.headers.lookup "Authorization" = some ("Bearer " ++ token) ∧
        Answered platform request (fun userId t _ => Evidence id userId t)
        (fun _ => True) base t r answer) base
      (Gateway.NotificationService.markRead (client platform) id ("Bearer " ++
        token) requestId) := by
  have routed : ∀ {headers data}, route ⟨.post, "notification/" ++ id ++ "/read", headers, data,
      []⟩ = some (.markRead id) ∨
      route ⟨.post, "notification/" ++ id ++ "/read", headers, data, []⟩ = none := by
    intro headers data
    rw [route_markRead segment]
    split
    · exact .inr rfl
    · exact .inl rfl
  have kept : ∀ userId t (_ : HttpReply) (e : Ev), isHttp e.cmd = true → Evidence id userId t →
      Evidence id userId (e :: t) := by
    rintro userId t _ e _ ⟨row, found, marked⟩
    refine ⟨row, List.mem_cons_of_mem _ found, marked.imp_right ?_⟩
    exact fun ⟨readAt, row', updated⟩ => ⟨readAt, row', List.mem_cons_of_mem _ updated⟩
  refine (along_quiet_request calm routed (along_request (E := fun _ => True) routed trivial
    (fun infoData base _ => along_handle_markRead infoData id) kept
      (fun _ _ _ _ => trivial) _)).mono (fun _ _ p => p) ?_
  rintro t r ⟨calm, frame, answer, answered⟩
  exact ⟨calm, frame, answer, _, authorization_sent, answered⟩

theorem along_readAll {token requestId : String} (calm : Calm base) :
    Along (SocketPoint platform gateway socket.id user reading) (fun t r => Calm t ∧
      (∃ added, t = added ++ base ∧ ∀ e ∈ added, inExchange .readAll e.cmd = true) ∧
      ∃ answer request, request.headers.lookup "Authorization" = some ("Bearer " ++ token) ∧
        Answered platform request (fun userId t _ => ∃ readAt n,
          ⟨.notificationUpdateMany userId readAt, .ok n⟩ ∈ t)
          (fun _ => True) base t r answer) base
      (Gateway.NotificationService.readAll (client platform) ("Bearer " ++ token) requestId) := by
  refine (along_quiet_request calm (.inl route_readAll) (along_request
    (G := fun userId t _ => ∃ readAt n, ⟨.notificationUpdateMany userId readAt, .ok n⟩ ∈ t)
      (E := fun _ => True)
    (.inl route_readAll) trivial (fun infoData base _ => along_handle_readAll infoData) ?_
      (fun _ _ _ _ => trivial) _)).mono (fun _ _ p => p) ?_
  · rintro userId t _ e _ ⟨readAt, n, updated⟩
    exact ⟨readAt, n, List.mem_cons_of_mem _ updated⟩
  · rintro t r ⟨calm, frame, answer, answered⟩
    exact ⟨calm, frame, answer, _, authorization_sent, answered⟩

theorem along_unreadCount {token requestId : String} (calm : Calm base)
    (uncounted : Uncounted base) :
    Along (SocketPoint platform gateway socket.id user reading) (fun t r => Calm t ∧
      (∃ added, t = added ++ base ∧ ∀ e ∈ added, inExchange .unreadCount e.cmd = true) ∧
      ∃ answer request, Answered platform request (fun _ t reply => CountOf t reply.data.val)
        Uncounted base t r answer) base
      (Gateway.NotificationService.unreadCount (client platform) ("Bearer " ++
        token) requestId) := by
  have other : ∀ {e : Ev} {t : List Ev} {userId n}, isHttp e.cmd = true →
      (⟨.notificationCount userId, .ok n⟩ : Ev) ∈ e :: t →
      (⟨.notificationCount userId, .ok n⟩ : Ev) ∈ t := by
    intro e t userId n http member
    obtain rfl | earlier := List.mem_cons.mp member
    · contradiction
    · exact earlier
  refine (along_quiet_request calm (.inl route_unreadCount) (along_request
    (G := fun _ t reply => CountOf t reply.data.val) (.inl route_unreadCount) uncounted
      (fun infoData base uncounted => along_handle_unreadCount infoData uncounted) ?_ ?_ _)).mono
        (fun _ _ p => p) ?_
  · exact fun _ t _ e http counted userId n member => counted userId n (other http member)
  · exact fun t e http uncounted userId n member => uncounted userId n (other http member)
  · rintro t r ⟨calm, frame, answer, answered⟩
    exact ⟨calm, frame, answer, _, answered⟩

/-- What the commands of an exchange with another handler leave alone. -/
theorem not_in_exchange {handler : Handler} {base added : List Ev} {e : Ev} (absent : e ∉ base)
    (own : ∀ e ∈ added, inExchange handler e.cmd = true)
    (foreign : inExchange handler e.cmd = false) : e ∉ added ++ base := by
  intro member
  rcases List.mem_append.mp member with new | old
  · exact Bool.false_ne_true (foreign.symm.trans (own _ new))
  · exact absent old

/-- The state of a handler that has a token and has sent no request. -/
structure Signed (userId token : String) (base : List Ev) : Prop where
  calm : Calm base
  unheard : heard base = []
  uncounted : Uncounted base
  unmarked : Unmarked base
  signed : (⟨.signInternalToken (.obj [("userId", .str userId)]), .ok token⟩ : Ev) ∈ base

theorem Honest.append {added : List Ev} (honest : Honest platform (added ++ base)) :
    Honest platform base :=
  ⟨fun e member => honest.1 e (List.mem_append_right _ member),
    fun data token member => honest.2 data token (List.mem_append_right _ member)⟩

/-- What a call that tries something ends with, before its `catch` clause. -/
def Tried (gateway : Nat) (socketId : String) (user : Option String) (t : List Ev) :
    Except Exn Unit → Prop
  | .ok _ => SocketEnd gateway socketId user t (.ok ())
  | .error _ => Unsent t

/-- Announcing is the last thing a handler does. -/
theorem along_announce {userId : String} {asked : Reading} {data : Js} (calm : Calm base)
    (grounds : Grounds platform userId base data asked) :
    Along (SocketPoint platform gateway socket.id (some userId) (some asked))
    (Tried gateway socket.id (some userId)) base
      (call (.emitToUser gateway userId WS_NOTIFICATION_UPDATED data)) := by
  refine ⟨⟨rfl, rfl, rfl, calm, asked, rfl, grounds⟩, fun r => ?_⟩
  cases r with
  | ok _ => exact fun _ => ⟨_, base, rfl, calm.unsent, .inr ⟨userId, data, rfl, rfl⟩⟩
  | error e =>
    intro e' member emission
    obtain rfl | earlier := List.mem_cons.mp member
    · rfl
    · exact calm.unsent e' earlier emission

theorem along_property {α : Type} {v : Js} {name : String} {f : Js → Action α}
    {P : List Ev → BellCmd → Prop}
    {R : List Ev → Except Exn α → Prop} (thrown : ∀ e, R base (.error e))
    (next : Along P R base (f (v.get name))) :
    Along P R base (property v name >>= f) := by
  cases v <;> first | exact thrown _ | exact next

theorem along_markAsRead {userId id token requestId : String} (start : Signed userId token base)
    (segment : '/' ∉ id.toList) :
    Along (SocketPoint platform gateway socket.id (some userId) (some (.one id)))
    (Tried gateway socket.id (some userId)) base
      (NotificationWsGateway.markAsRead platform gateway userId id ("Bearer " ++
        token) requestId) := by
  apply along_bind.mpr
  refine (along_markRead start.calm segment).mono (fun _ _ point => point) ?_
  rintro t r ⟨calm, ⟨added, rfl, own⟩, answer, request, sent, answered⟩
  cases answer with
  | error e =>
    obtain ⟨e, rfl⟩ := answered.returned
    exact calm.unsent
  | ok first =>
    obtain ⟨rfl, served⟩ := answered.returned
    have uncounted : Uncounted (added ++ base) :=
      fun _ _ => not_in_exchange (start.uncounted _ _) own rfl
    have unmarked : Unmarked (added ++ base) :=
      fun _ _ _ => not_in_exchange (start.unmarked _ _ _) own rfl
    apply along_bind.mpr
    refine (along_unreadCount calm uncounted).mono (fun _ _ point => point) ?_
    rintro t r ⟨calm', ⟨added', rfl, own'⟩, answer, request', answered'⟩
    cases answer with
    | error e =>
      obtain ⟨e, rfl⟩ := answered'.returned
      exact calm'.unsent
    | ok second =>
      obtain ⟨rfl, served'⟩ := answered'.returned
      apply along_property
      · exact fun e => calm'.unsent
      apply along_announce calm'
      refine ⟨first, second, ?_, rfl, fun honest low => ?_, ?_, fun _ _ _ =>
        not_in_exchange (unmarked _ _ _) own' rfl⟩
      · rw [answered'.heard, answered.heard, start.unheard]
      · rcases served with ⟨high, -⟩ | ⟨caller, same, row, found, marked⟩
        · exact absurd low (Nat.not_lt.mpr (high honest.append.1))
        · have known := caller_sent honest.append.2 (List.mem_append_right _ start.signed) sent
          obtain rfl := Option.some.inj (known.symm.trans same)
          refine ⟨row, List.mem_append_right _ found, marked.imp_right ?_⟩
          exact fun ⟨readAt, row', updated⟩ => ⟨readAt, row', List.mem_append_right _ updated⟩
      · rcases served' with ⟨-, uncounted⟩ | ⟨_, _, counted⟩
        · exact fun userId n member => absurd member (uncounted userId n)
        · exact counted

theorem along_markAllAsRead {userId token requestId : String} (start : Signed userId token base) :
    Along (SocketPoint platform gateway socket.id (some userId) (some .all))
    (Tried gateway socket.id (some userId)) base
      (NotificationWsGateway.markAllAsRead platform gateway userId ("Bearer " ++
        token) requestId) := by
  apply along_bind.mpr
  refine (along_readAll start.calm).mono (fun _ _ point => point) ?_
  rintro t r ⟨calm, ⟨added, rfl, own⟩, answer, request, sent, answered⟩
  cases answer with
  | error e =>
    obtain ⟨e, rfl⟩ := answered.returned
    exact calm.unsent
  | ok first =>
    obtain ⟨rfl, served⟩ := answered.returned
    apply along_property
    · exact fun e => calm.unsent
    apply along_announce calm
    refine ⟨first, ?_, rfl, fun honest low => ?_, fun _ _ =>
      not_in_exchange (start.uncounted _ _) own rfl⟩
    · rw [answered.heard, start.unheard]
    · rcases served with ⟨high, -⟩ | ⟨caller, same, marked⟩
      · exact absurd low (Nat.not_lt.mpr (high honest.1))
      · have known := caller_sent honest.2 (List.mem_append_right _ start.signed) sent
        obtain rfl := Option.some.inj (known.symm.trans same)
        exact marked

/-- The user of an authenticated socket. -/
def Socket.user? (socket : Socket) : Option String :=
  (socket.data.filter (·.authenticated)).map SocketData.userId

/-- What a message asks for, where the schema accepts it. -/
def reading? (platform : Platform) (body : Js) : Option Reading :=
  (NotificationReadRequestSchema platform body).map Reading.one

/-- A command that cannot fail does not end a handler. -/
theorem end_of_failed {e : Exn} {c : BellCmd} {r : Except Exn Unit} (total : c.canFail = false) :
    SocketEnd gateway socket.id user (⟨c, .error e⟩ :: base) r := by
  intro foreign
  have failed := (foreign _ List.mem_cons_self e rfl).1
  exact absurd (total.symm.trans failed) Bool.false_ne_true

/-- Both handlers turn to the request once the limiter has answered. -/
theorem along_accepted {next : String → Action Unit}
    (nexts : ∀ userId, socket.user? = some userId →
      Along (SocketPoint platform gateway socket.id socket.user? reading)
      (SocketEnd gateway socket.id socket.user?)
        [⟨.checkRateLimit gateway userId, .ok true⟩] (next userId)) :
    Along (SocketPoint platform gateway socket.id socket.user? reading)
      (SocketEnd gateway socket.id socket.user?) []
      (NotificationWsGateway.accepted gateway socket next) := by
  unfold NotificationWsGateway.accepted
  split
  · exact along_emitError (fun _ absent => absurd absent List.not_mem_nil) _ _
  · rename_i socketData authenticated
    have user : socket.user? = some socketData.userId := by
      rw [Socket.user?, authenticated, Option.map_some]
    apply along_command_bind trivial
    · exact fun e => end_of_failed rfl
    · intro allowed
      cases allowed with
      | true => exact nexts _ user
      | false =>
        refine along_emitError (fun e member => ?_) _ _
        cases List.mem_singleton.mp member
        exact nofun

/-- The `catch` clause tells the sender. -/
theorem along_tried {attempt : Action Unit} {message : String}
    (tried : Along (SocketPoint platform gateway socket.id user reading)
      (Tried gateway socket.id user) base attempt) :
    Along (SocketPoint platform gateway socket.id user reading)
    (SocketEnd gateway socket.id user) base
      (tryCatch attempt fun _ => NotificationWsGateway.emitError gateway socket message) := by
  refine along_catch.mpr (tried.mono (fun _ _ point => point) fun t r holds => ?_)
  cases r with
  | ok _ => exact holds
  | error e => exact along_emitError holds _ _

/-- What follows the limiter in both handlers: two generated texts, then the attempt. -/
theorem along_signed {userId message : String} {attempt : String → String → Action Unit}
    (tried : ∀ base token requestId, Signed userId token base →
      Along (SocketPoint platform gateway socket.id user reading)
      (Tried gateway socket.id user) base
        (attempt ("Bearer " ++ token) requestId)) :
    Along (SocketPoint platform gateway socket.id user reading) (SocketEnd gateway socket.id user)
      [⟨.checkRateLimit gateway userId, .ok true⟩] (do
        let requestId ← call .randomUUID
        let internalToken ← NotificationWsGateway.internalToken platform userId
        tryCatch (attempt internalToken requestId) fun _ =>
          NotificationWsGateway.emitError gateway socket message) := by
  apply along_command_bind trivial
  · exact fun e => end_of_failed rfl
  · intro requestId
    refine along_bind.mpr (along_bind.mpr ⟨trivial, fun r => ?_⟩)
    cases r with
    | error e => exact end_of_failed (r := .error e) rfl
    | ok token =>
      refine along_tried (tried _ token requestId ?_)
      constructor
      · intro e member
        obtain rfl | rfl | rfl : e = ⟨.signInternalToken _, .ok token⟩ ∨
          e = ⟨.randomUUID, .ok requestId⟩ ∨ e = ⟨.checkRateLimit gateway userId, .ok true⟩ := by
          simpa only [List.mem_cons, List.not_mem_nil, or_false] using member
        · rfl
        · rfl
        · rfl
      · rfl
      · intro userId n member
        simp only [List.mem_cons, List.not_mem_nil, or_false, Event.mk.injEq,
          reduceCtorEq, false_and] at member
      · intro userId readAt n member
        simp only [List.mem_cons, List.not_mem_nil, or_false, Event.mk.injEq,
          reduceCtorEq, false_and] at member
      · exact List.mem_cons_self

/-- The schema accepts identifiers only. -/
theorem request_uuid {body : Js} {id : String}
    (parsed : NotificationReadRequestSchema platform body = some id) :
    platform.uuid id = true := by
  cases body with
  | obj fields =>
    simp only [NotificationReadRequestSchema, Notification.stringOf] at parsed
    split at parsed
    · split at parsed
      · rename_i accepted
        cases parsed
        exact accepted
      · contradiction
    · contradiction
  | undefined | null | bool | num | str | arr => contradiction

theorem along_handleNotificationRead (body : Js) :
    Along (SocketPoint platform gateway socket.id socket.user? (reading? platform body))
    (SocketEnd gateway socket.id socket.user?)
      [] (NotificationWsGateway.handleNotificationRead platform gateway socket body) := by
  refine along_accepted fun userId user => ?_
  cases parsed : NotificationReadRequestSchema platform body with
  | none =>
    refine along_emitError (fun e member => ?_) _ _
    cases List.mem_singleton.mp member
    exact nofun
  | some id =>
    have segment : '/' ∉ id.toList := platform.uuid_segment id (request_uuid parsed)
    rw [reading?, parsed, user]
    exact along_signed fun base token requestId start => along_markAsRead start segment

theorem along_handleNotificationReadAll :
    Along (SocketPoint platform gateway socket.id socket.user? (some .all))
    (SocketEnd gateway socket.id socket.user?)
      [] (NotificationWsGateway.handleNotificationReadAll platform gateway socket) := by
  refine along_accepted fun userId user => ?_
  rw [user]
  exact along_signed fun base token requestId start => along_markAllAsRead start

end Handlers
end CorePlatform.Bell
