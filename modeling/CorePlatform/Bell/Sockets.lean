import CorePlatform.Async.Journal
import CorePlatform.Bell.Service

/-! The gateway's side: the socket handlers of `NotificationWsGateway`, the handler of
`NotificationJetstreamConsumer`, and the system of all calls. The handlers reach
notification-service through the gateway's own client; a reply that comes too late is a lost one. -/
namespace CorePlatform.Bell
open Async Nats
open Gateway (HttpRequest HttpResponse HttpPlatform)

def WS_NOTIFICATION_NEW : String := "notification:new"

def WS_NOTIFICATION_UPDATED : String := "notification:updated"

structure SocketData where
  userId : String
  authenticated : Bool
  deriving DecidableEq

/-- A socket, with what `handleConnection` has left in its `data`. -/
structure Socket where
  id : String
  data : Option SocketData
  deriving DecidableEq

/-- A request of the gateway to notification-service. -/
def send (platform : Platform) (request : HttpRequest) : Action HttpResponse := do
  match ← call (.httpRequest request) with
  | some refused => return { toHttpReply := refused.val }
  | none => do
    let reply ← serve platform request
    call (.httpReply { toHttpReply := reply })
    return { toHttpReply := reply }

/-- There is no response to a client whose cookies could be set. -/
def client (platform : Platform) : HttpPlatform BellApi where
  send := send platform
  signInternalToken data := call (.signInternalToken data)
  append _ := pure ()
  clearCookie _ := pure ()

/-- `const { name } = v` -/
def property (v : Js) (name : String) : Action Js :=
  match v with
  | .undefined | .null =>
      throw (.error none ("Cannot destructure property '" ++ name ++ "' of " ++ v.toText))
  | v => return v.get name

def NotificationReadRequestSchema (platform : Platform) : Js → Option String
  | .obj fields => Notification.stringOf platform.uuid ((Js.obj fields).get "notificationId")
  | _ => none

namespace NotificationWsGateway

variable (platform : Platform) (gateway : Nat) (socket : Socket)

/-- `client.emit('error', …)` -/
def emitError (message : String) (errors : List (String × Js) := []) : Action Unit :=
  call (.emit gateway socket.id "error" (.obj (("message", .str message) :: errors)))

/-- What both handlers do first: the socket is authenticated and within its rate. -/
def accepted (next : String → Action Unit) : Action Unit :=
  match socket.data.filter (·.authenticated) with
  | none => emitError gateway socket "Not authenticated"
  | some socketData => do
    if ← call (.checkRateLimit gateway socketData.userId) then next socketData.userId
    else emitError gateway socket "Rate limit exceeded, please slow down"

def internalToken (userId : String) : Action String := do
  let token ← (client platform).signInternalToken (.obj [("userId", .str userId)])
  return "Bearer " ++ token

/-- The `try` of `handleNotificationRead`. -/
def markAsRead (userId notificationId internalToken requestId : String) : Action Unit := do
  let _ ← Gateway.NotificationService.markRead
      (client platform) notificationId internalToken requestId
  let body ← Gateway.NotificationService.unreadCount (client platform) internalToken requestId
  let count ← property body "count"
  call (.emitToUser gateway userId WS_NOTIFICATION_UPDATED
    (.obj [("action", .str "read"), ("notificationId", .str notificationId),
      ("unreadCount", count)]))

def handleNotificationRead (body : Js) : Action Unit :=
  accepted gateway socket fun userId =>
    match NotificationReadRequestSchema platform body with
    | none => emitError gateway socket "Invalid payload" [("errors", platform.flatten body)]
    | some notificationId => do
      let requestId ← call .randomUUID
      let internalToken ← internalToken platform userId
      tryCatch (markAsRead platform gateway userId notificationId internalToken requestId) fun _ =>
        emitError gateway socket "Failed to mark notification as read"

/-- The `try` of `handleNotificationReadAll`. -/
def markAllAsRead (userId internalToken requestId : String) : Action Unit := do
  let body ← Gateway.NotificationService.readAll (client platform) internalToken requestId
  let _ ← property body "updated"
  call (.emitToUser gateway userId WS_NOTIFICATION_UPDATED
    (.obj [("action", .str "read-all"), ("unreadCount", .num "0")]))

def handleNotificationReadAll : Action Unit :=
  accepted gateway socket fun userId => do
    let requestId ← call .randomUUID
    let internalToken ← internalToken platform userId
    tryCatch (markAllAsRead platform gateway userId internalToken requestId) fun _ =>
      emitError gateway socket "Failed to mark all notifications as read"

end NotificationWsGateway

/-- The payload of a message, where `JSON.parse` and the schema accept it. -/
def readCreated (platform : Platform) (text : String) : Option NotificationCreatedEvent :=
  (platform.jsonParse text).bind (NotificationCreatedSchema platform)

/-- `wsPayload` -/
def newPayload (payload : NotificationCreatedEvent) : Js :=
  .obj [("notificationId", .str payload.notificationId), ("userId", .str payload.userId),
    ("type", .str payload.type),
    ("title", .str payload.title), ("body", Js.ofString? payload.body),
    ("createdAt", .str payload.actionCreatedAt), ("unreadCount", payload.unreadCount)]

/-- The `handle` of the consumer. -/
def NotificationJetstreamConsumer.handle (platform : Platform) (gateway : Nat)
    (msg : Msg) : Action Unit :=
  match readCreated platform msg.text with
  | none => throw (.error none "invalid message")
  | some payload =>
      call (.emitToUser gateway payload.userId WS_NOTIFICATION_NEW (newPayload payload))

/-- The calls: of notification-service, of a socket at a gateway instance, and the rounds of the
consume loop of an instance. -/
inductive BellCall where
  | createNoti (payLoad : CreateNotificationDto)
  | notificationRead (gateway : Nat) (socket : Socket) (body : Js)
  | notificationReadAll (gateway : Nat) (socket : Socket)
  | consume (gateway : Nat)

def BellCall.body (platform : Platform) : BellCall → Prog (Loop BellApi) Exn Unit
  | .createNoti payLoad => within none do
    let _ ← NotificationService.createNoti platform payLoad
    return ()
  | .notificationRead gateway socket body =>
    within none (NotificationWsGateway.handleNotificationRead platform gateway socket body)
  | .notificationReadAll gateway socket =>
      within none (NotificationWsGateway.handleNotificationReadAll platform gateway socket)
  | .consume gateway =>
      BaseJetstreamConsumer.consumeRound (NotificationJetstreamConsumer.handle platform gateway)

@[reducible] def bellSystem (platform : Platform) :
    System (Loop BellApi) Exn BellCall Unit Store where
  Choice := Choice
  exec c choice s := exec platform choice s c
  body := BellCall.body platform
  Act := EnvAct
  act := act

abbrev BellPool := Pool (Loop BellApi) Exn BellCall Unit Store
abbrev BellEntry := Entry (Loop BellApi) Exn Store
abbrev BellJournal := Journal (Loop BellApi) Exn Store
abbrev Ev := Event BellApi Exn

end CorePlatform.Bell
