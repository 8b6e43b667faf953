import CorePlatform.Gateway.Clients
import CorePlatform.Notification.Registered
import Mathlib.Algebra.Group.Nat.Defs

/-! The realtime bell: the notifications of notification-service, the stream of
`notification.created`, and the sockets of the gateway instances. One interface holds the
atomic commands of all parts, since a message of a socket passes through all of them. -/
namespace CorePlatform.Bell
open Async Relational Nats
open Gateway (Json HttpReply HttpRequest HttpResponse)

/-- What the parts take from their libraries, in addition to `JSON.parse` and the string
formats: the claims `data` of the valid internal token in an `Authorization` header,
`toISOString`, and the flattened errors of a failed parse. -/
structure Platform extends Notification.Platform where
  internalData : String → Option Js
  toISOString : Nat → String
  flatten : Js → Js
  /-- A UUID is made of digits and dashes, so that it is one segment of a path. -/
  uuid_segment : ∀ id, uuid id = true → '/' ∉ id.toList

structure Notification where
  id : String
  userId : String
  type : String
  title : String
  body : Option String
  /-- `null` where the column has no value. -/
  data : Json
  readAt : Option Nat := none
  createdAt : Nat

/-- `data: { readAt }` of an update. -/
def Notification.setReadAt (readAt : Nat) (row : Notification) : Notification :=
  { row with readAt := some readAt }

@[simp] theorem Notification.setReadAt_id (readAt : Nat) (row : Notification) :
    (row.setReadAt readAt).id = row.id :=
  rfl

@[simp] theorem Notification.setReadAt_userId (readAt : Nat) (row : Notification) :
    (row.setReadAt readAt).userId = row.userId := rfl

@[simp] theorem Notification.setReadAt_readAt (readAt : Nat) (row : Notification) :
    (row.setReadAt readAt).readAt = some readAt := rfl

structure CreateNotificationDto where
  userId : String
  type : String
  title : String
  body : Option String := none
  data : Js := .undefined

/-- A connection in the registry of its gateway instance. -/
structure Connection where
  gateway : Nat
  socketId : String
  userId : String
  deriving DecidableEq

/-- Socket ids are unique at an instance. -/
def Connection.key (connection : Connection) : Nat × String :=
  (connection.gateway, connection.socketId)

/-- An event that has been sent to a socket. -/
structure Emission where
  gateway : Nat
  socketId : String
  event : String
  data : Js
  deriving DecidableEq

/-- A reply of notification-service, or of what stands before it, that is an error. -/
abbrev ErrorReply := { reply : HttpReply // 400 ≤ reply.status }

/-- A count of rows, which a JavaScript number holds exactly. -/
abbrev RowCount := { n : Nat // n ≤ 2 ^ 53 }

inductive BellCmd where
  | now
  | notificationCreate (data : CreateNotificationDto)
  | notificationCount (userId : String)
  | notificationFindFirst (id userId : String)
  | notificationUpdate (id : String) (readAt : Nat)
  | notificationUpdateMany (userId : String) (readAt : Nat)
  /-- `js.publish` with the encoded text. -/
  | publish (subject text : String)
  /-- A request on its way to notification-service: it arrives, or an error reply comes back
  before it has reached a handler. -/
  | httpRequest (request : HttpRequest)
  /-- The reply of a handler on its way back. -/
  | httpReply (response : HttpResponse)
  | checkRateLimit (gateway : Nat) (userId : String)
  | randomUUID
  | signInternalToken (data : Js)
  | emit (gateway : Nat) (socketId event : String) (data : Js)
  | emitToUser (gateway : Nat) (userId event : String) (data : Js)

@[reducible] def BellCmd.Resp : BellCmd → Type
  | .now | .notificationUpdateMany .. => Nat
  | .notificationCount _ => RowCount
  | .notificationCreate _ | .notificationUpdate .. => Notification
  | .notificationFindFirst .. => Option Notification
  | .publish .. | .httpReply _ | .emit .. | .emitToUser .. => Unit
  | .httpRequest _ => Option ErrorReply
  | .checkRateLimit .. => Bool
  | .randomUUID | .signInternalToken _ => String

abbrev BellApi : Interface := ⟨BellCmd, BellCmd.Resp⟩

abbrev Action := Prog BellApi Exn

def call (c : BellCmd) : Action c.Resp := Prog.perform (I := BellApi) c

/-- An entry of `rateLimits`. -/
structure MessageLimit where
  count : Nat
  resetAt : Nat

structure Store where
  notifications : Table Notification.id := .empty
  now : Nat := 0
  js : JetStream := {}
  connected : Table Connection.key := .empty
  rateLimits : Nat → String → Option MessageLimit := fun _ _ => none
  /-- Latest first. -/
  emitted : List Emission := []

def NOTIFICATION_CREATED : String := "notification.created"

def MAX_MESSAGES_PER_SECOND : Nat := 10

/-- The unread notifications of a user. -/
def unread (userId : String) (s : Store) : List String :=
  (s.notifications.rows.filter fun row => row.userId = userId &&
    row.readAt.isNone).map Notification.id

/-- The update of the rows that meet a filter. -/
def Store.setReadAt (s : Store) (p : Notification → Bool) (readAt : Nat) : Store :=
  { s with notifications := s.notifications.update p (Notification.setReadAt readAt) }

def Store.setRateLimit (s : Store) (gateway : Nat) (userId : String)
    (limit : Option MessageLimit) : Store :=
  let limits := Function.update (s.rateLimits gateway) userId limit
  { s with rateLimits := Function.update s.rateLimits gateway limits }

/-- The sockets that the registry of an instance holds for a user. -/
def Store.getSocketsByUser (s : Store) (gateway : Nat) (userId : String) : List Connection :=
  s.connected.rows.filter fun connection => connection.gateway = gateway &&
    connection.userId = userId

/-- `CoreWebsocketGateway.checkRateLimit` at `now`, on the entry of the user. -/
def checkRateLimit (now : Nat) (limit : Option MessageLimit) : Bool × Option MessageLimit :=
  match limit with
  | none => (true, some { count := 1, resetAt := now + 1000 })
  | some limit =>
    if now > limit.resetAt then (true, some { count := 1, resetAt := now + 1000 })
    else if limit.count ≥ MAX_MESSAGES_PER_SECOND then (false, some limit)
    else (true, some { limit with count := limit.count + 1 })

/-- What a command leaves open: whether it is rejected and which message is delivered, the
error reply that a request meets on its way, and the generated texts. -/
structure Choice extends LoopChoice Exn where
  refused : Option ErrorReply := none
  id : String := noticeId
  text : String := "text"

def BellCmd.canFail : BellCmd → Bool
  | .notificationCreate _ | .notificationCount _ | .notificationFindFirst
      .. | .notificationUpdate ..
  | .notificationUpdateMany .. | .publish .. | .httpRequest _ | .httpReply _ => true
  | .now | .checkRateLimit .. | .randomUUID | .signInternalToken _ | .emit .. | .emitToUser .. =>
      false

/-- The clients of the database, of the broker and of HTTP reject with errors of their own. -/
def isForeign : Exn → Bool
  | .database .. | .error .. => true
  | .service _ | .http .. => false

/-- Commands once they are not rejected. -/
def execTotal (platform : Platform) (ch : Choice) (s : Store) :
    (c : BellCmd) → Option (Except Exn c.Resp × Store)
  | .now => some (.ok s.now, s)
  | .notificationCreate data =>
    let row : Notification :=
      { id := ch.id, userId := data.userId, type := data.type, title := data.title, body := data.body
        data := if defined : data.data ≠ .undefined then ⟨data.data, defined⟩
          else ⟨.null, Js.null_ne_undefined⟩
        createdAt := s.now }
    (s.notifications.insert? row).map fun notifications => (.ok row, { s with notifications })
  | .notificationCount userId =>
    if exact : (unread userId s).length ≤ 2 ^ 53 then some (.ok ⟨_, exact⟩, s) else none
  | .notificationFindFirst id userId =>
    some (.ok (s.notifications.rows.find? fun row => row.id = id && row.userId = userId), s)
  | .notificationUpdate id readAt =>
    match s.notifications.rows.find? (·.id = id) with
    | none => some (.error notFound, s)
    | some row =>
      some (.ok (row.setReadAt readAt), s.setReadAt (·.id = id) readAt)
  | .notificationUpdateMany userId readAt =>
    some (.ok (unread userId s).length,
      s.setReadAt (fun row => row.userId = userId && row.readAt.isNone) readAt)
  | .publish subject text =>
    if subject = NOTIFICATION_CREATED then
      some (.ok (), { s with js := { s.js with stream := s.js.stream ++ [text] } })
    else some (.ok (), s)
  | .httpRequest _ => some (.ok ch.refused, s)
  | .httpReply _ => some (.ok (), s)
  | .checkRateLimit gateway userId =>
    let (allowed, limit) := Bell.checkRateLimit s.now (s.rateLimits gateway userId)
    some (.ok allowed, s.setRateLimit gateway userId limit)
  | .randomUUID => some (.ok ch.text, s)
  | .signInternalToken data =>
      if platform.internalData ("Bearer " ++ ch.text) = some data then
        some (.ok ch.text, s) else none
  | .emit gateway socketId event data =>
    some (.ok (), { s with emitted := ⟨gateway, socketId, event, data⟩ :: s.emitted })
  | .emitToUser gateway userId event data =>
    let emissions := (s.getSocketsByUser gateway userId).map fun connection =>
        ⟨gateway, connection.socketId, event, data⟩
    some (.ok (), { s with emitted := emissions ++ s.emitted })

def execOwn (platform : Platform) (ch : Choice) (s : Store) (c : BellCmd) :
    Option (Except Exn c.Resp × Store) :=
  match ch.fault with
  | none => execTotal platform ch s c
  | some e => if c.canFail && isForeign e then some (.error e, s) else none

/-- The commands of the consume loop act on the stream. -/
def exec (platform : Platform) (ch : Choice) (s : Store) :
    (c : LoopCmd BellApi) → Option (Except Exn c.Resp × Store)
  | .own _ c => execOwn platform ch s c
  | c => (s.js.exec ch.toLoopChoice c).map fun (r, js) => (r, { s with js })

inductive EnvAct where
  | tick (ms : Nat)
  | connect (connection : Connection)
  | disconnect (connection : Connection)

/-- Time, and the sockets that come and go. -/
def act : EnvAct → Store → Option Store
  | .tick ms, s => some { s with now := s.now + ms }
  | .connect connection, s =>
      (s.connected.insert? connection).map fun connected => { s with connected }
  | .disconnect connection, s =>
    let s := { s with connected := s.connected.delete (· = connection) }
    if s.getSocketsByUser connection.gateway connection.userId = [] then
      some (s.setRateLimit connection.gateway connection.userId none)
    else some s

end CorePlatform.Bell
