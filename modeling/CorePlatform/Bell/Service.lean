import CorePlatform.Bell.Store

/-! notification-service: `NotificationService` with its event, the routes of
`NotificationController` that the sockets of the gateway use, and the exception filter. The
time in the body of an error is left out. -/
namespace CorePlatform.Bell
open Async Gateway

/-- `NatsService.publish`, which logs a rejection and returns. -/
def NatsService.publish (subject : String) (data : Js) : Action Unit :=
  tryCatch (call (.publish subject (data.stringify.getD "undefined"))) fun _ => return ()

/-- The event of `notification.created`. -/
structure NotificationCreatedEvent where
  notificationId : String
  userId : String
  type : String
  title : String
  body : Option String
  data : Js
  actionCreatedAt : String
  unreadCount : Js

/-- The fields that are defined, as a parsed text has them. -/
def definedFields (fields : List (String × Js)) : Js :=
  .obj (fields.filter fun field => field.2 ≠ .undefined)

def NotificationCreatedEvent.toJs (event : NotificationCreatedEvent) : Js :=
  definedFields [("notificationId", .str event.notificationId), ("userId", .str event.userId),
    ("type", .str event.type),
    ("title", .str event.title), ("body", Js.ofString? event.body), ("data", event.data),
    ("actionCreatedAt", .str event.actionCreatedAt), ("unreadCount", event.unreadCount)]

/-- `z.number().int().min(0)` -/
def isCount : Js → Bool
  | .num text => text ≠ "" && text.toList.all Char.isDigit
  | _ => false

/-- `NotificationCreatedSchema`, none where it throws. -/
def NotificationCreatedSchema (platform : Platform) : Js → Option NotificationCreatedEvent
  | .obj fields => do
    let value := Js.obj fields
    let notificationId ← Notification.stringOf platform.uuid (value.get "notificationId")
    let userId ← Notification.stringOf platform.uuid (value.get "userId")
    let type ← Notification.stringOf (fun _ => true) (value.get "type")
    let title ← Notification.stringOf (fun _ => true) (value.get "title")
    let body ← Notification.optionalString (value.get "body")
    let data := value.get "data"
    let actionCreatedAt ← Notification.stringOf platform.datetime (value.get "actionCreatedAt")
    let unreadCount := value.get "unreadCount"
    if isCount unreadCount then
      return { notificationId, userId, type, title, body, data, actionCreatedAt, unreadCount }
    else none
  | _ => none

namespace NotificationService

def validationError (message : String) : Exn :=
  .service { code := ErrorCodes.VALIDATION_ERROR, statusCode := 400, message }

def notificationNotFound : Exn :=
  .service { code := "NOTI_NOT_FOUND", statusCode := 404, message := "Notification not found" }

/-- The `count` of the returned object. -/
def unreadCount (userId : String) : Action RowCount := do
  if userId = "" then throw (validationError "userId is required")
  call (.notificationCount userId)

/-- The event of a new notification, before the schema has looked at it. -/
def eventPayload (noti : Notification) (actionCreatedAt : Js) (count : RowCount) : Js :=
  .obj [("notificationId", .str noti.id), ("userId", .str noti.userId), ("type", .str noti.type),
    ("title", .str noti.title),
    ("body", noti.body.elim .null .str), ("data", noti.data), ("actionCreatedAt", actionCreatedAt),
    ("unreadCount", .num (toString count.val))]

/-- `payLoad.data?.actionCreatedAt ?? new Date().toISOString()` -/
def actionTime (platform : Platform) : Js → Action Js
  | .undefined | .null => do
    let now ← call .now
    return .str (platform.toISOString now)
  | given => return given

def createNoti (platform : Platform) (payLoad : CreateNotificationDto) : Action Js := do
  let noti ← call (.notificationCreate payLoad)
  let count ← unreadCount noti.userId
  let actionCreatedAt ← actionTime platform (payLoad.data.get "actionCreatedAt")
  match NotificationCreatedSchema platform (eventPayload noti actionCreatedAt count) with
  | none => throw (.error none "invalid event")
  | some validatedPayload => do
    NatsService.publish NOTIFICATION_CREATED validatedPayload.toJs
    return .obj [("id", .str noti.id), ("userId", .str noti.userId), ("title", .str noti.title),
      ("body", noti.body.elim .null .str), ("type", .str noti.type), ("data", noti.data),
      ("readAt", noti.readAt.elim .null fun readAt => .str (platform.toISOString readAt)),
      ("createdAt", .str (platform.toISOString noti.createdAt))]

/-- `{ id, readAt }` -/
def marked (platform : Platform) (noti : Notification) : Js :=
  .obj [("id", .str noti.id),
    ("readAt", noti.readAt.elim .null fun readAt => .str (platform.toISOString readAt))]

def markRead (platform : Platform) (userId notificationId : String) : Action Js := do
  if userId = "" || notificationId = "" then
    throw (validationError "userId and notificationId are required")
  match ← call (.notificationFindFirst notificationId userId) with
  | none => throw notificationNotFound
  | some existing =>
    if existing.readAt.isSome then return marked platform existing
    else
      let now ← call .now
      let updated ← call (.notificationUpdate existing.id now)
      return marked platform updated

/-- The `updated` of the returned object. -/
def readAll (userId : String) : Action Nat := do
  if userId = "" then throw (validationError "userId is required")
  let now ← call .now
  call (.notificationUpdateMany userId now)

end NotificationService

namespace HttpExceptionFilter

def defaultCodeForStatus (status : Nat) : ErrorCode :=
  match status with
  | 400 => ErrorCodes.VALIDATION_ERROR
  | 401 => ErrorCodes.UNAUTHORIZED
  | 403 => ErrorCodes.FORBIDDEN
  | 404 => ErrorCodes.NOT_FOUND
  | 409 => ErrorCodes.CONFLICT
  | 429 => ErrorCodes.TOO_MANY_REQUESTS
  | _ => ErrorCodes.INTERNAL

/-- `Array.isArray(details) ? details.map(String) : [String(details)]`, where there are any. -/
def errorsOf (details : Js) : List (String × Js) :=
  if !details.truthy then []
  else match details with
    | .arr elements => [("errors", .arr (elements.map fun element => .str element.toText))]
    | details => [("errors", .arr [.str details.toText])]

def body (messageKey message : String) (errors : List (String × Js)) : Json :=
  ⟨.obj ([("success", .bool false), ("messageKey", .str messageKey), ("message", .str message)] ++
    errors), nofun⟩

/-- `catch` -/
def reply : Exn → HttpReply
  | .service e =>
    { status := e.statusCode
      data := body e.code (if e.exposeMessage then e.message else "Request failed") (errorsOf
        e.details) }
  | .http status message =>
    if status = 400 then
      { status
        data := body ErrorCodes.VALIDATION_ERROR "Validation failed" (errorsOf (.str message)) }
    else
      { status, data := body (defaultCodeForStatus status)
          (if status ≥ 500 then "Internal server error" else message) [] }
  | _ => { status := 500, data := body ErrorCodes.INTERNAL "Internal server error" [] }

end HttpExceptionFilter

namespace NotificationController

/-- The handlers that the sockets of the gateway reach. -/
inductive Handler where
  | unreadCount
  | markRead (id : String)
  | readAll

/-- The segments of a path. -/
def segments : List Char → List (List Char)
  | [] => [[]]
  | c :: rest =>
    if c = '/' then [] :: segments rest
    else match segments rest with
      | [] => [[c]]
      | segment :: others => (c :: segment) :: others

/-- The routes below `notification`. -/
def route (request : HttpRequest) : Option Handler :=
  match request.method, (segments request.url.toList).map String.ofList with
  | .get, ["notification", "unread-count"] => some .unreadCount
  | .post, ["notification", "read-all"] => some .readAll
  | .post, ["notification", id, "read"] => if id = "" then none else some (.markRead id)
  | _, _ => none

/-- `resolveUserId`; the principal of an internal token has no user of its own, and the gateway
sends no `x-user-id`. -/
def resolveUserId (infoData : Js) : String :=
  match infoData.get "userId" with
  | .undefined | .null => ""
  | userId => userId.toText

/-- The status and the body of a handler that returns: 201 for a `@Post`, 200 for a `@Get`. -/
def handle (platform : Platform) (infoData : Js) : Handler → Action HttpReply
  | .unreadCount => do
    let count ← NotificationService.unreadCount (resolveUserId infoData)
    return { status := 200, data := ⟨.obj [("count", .num (toString count.val))], nofun⟩ }
  | .markRead id => do
    let body ← NotificationService.markRead platform (resolveUserId infoData) id
    if body : body ≠ .undefined then return { status := 201, data := ⟨_, body⟩ }
      else return { status := 201, data := ⟨.str "", nofun⟩ }
  | .readAll => do
    let updated ← NotificationService.readAll (resolveUserId infoData)
    return { status := 201, data := ⟨.obj [("updated", .num (toString updated))], nofun⟩ }

end NotificationController

def methodText : HttpMethod → String
  | .get => "GET"
  | .post => "POST"
  | .patch => "PATCH"
  | .delete => "DELETE"

/-- A request in notification-service: the route, the guard of the tokens, and the filter. For an
internal token `PermissionGuard` asks nothing. -/
def serve (platform : Platform) (request : HttpRequest) : Action HttpReply :=
  tryCatch (do
    match NotificationController.route request,
    (request.headers.lookup "Authorization").bind platform.internalData with
    | none, _ => throw (.http 404 ("Cannot " ++ methodText request.method ++ " /" ++ request.url))
    | some _, none => throw (.http 401 "Unauthorized")
    | some handler, some infoData => NotificationController.handle platform infoData handler)
  fun e => return HttpExceptionFilter.reply e

end CorePlatform.Bell
