import CorePlatform.Async.TwoRun
import CorePlatform.Bell.Service
import CorePlatform.Common.Number
import CorePlatform.Tokens.Strategy

/-! The routes of `NotificationController` for requests with a user's own token: the guards of
notification-service, `resolveUserId`, and `listByUser` with its page of rows. -/
namespace CorePlatform.Bell
open Async Relational
open Permission (Failure Metadata PermissionGuard.canActivate)
open Tokens (CombinedJwtStrategy CombinedJwtAuthGuard.canActivate)

deriving instance DecidableEq for Notification

/-- The arithmetic of numbers, on their texts. -/
structure Numbers where
  /-- `Number(v)` -/
  number : Js → String
  max : String → String → String
  min : String → String → String
  sub : String → String → String
  mul : String → String → String

structure InboxConfig where
  platform : Platform
  permissions : Permission.Platform
  numbers : Numbers
  lib : Tokens.Library
  strategy : CombinedJwtStrategy

inductive SortField where
  | createdAt
  | readAt
  deriving DecidableEq

inductive SortOrder where
  | asc
  | desc
  deriving DecidableEq

inductive InboxCmd where
  | service (c : BellCmd)
  | permission (c : Permission.Cmd)
  | notificationFindMany (userId : String) (sortBy : SortField) (sortOrder : SortOrder)
      (skip take : String)
  | notificationCountAll (userId : String)

@[reducible] def InboxCmd.Resp : InboxCmd → Type
  | .service c => c.Resp
  | .permission c => Except Failure c.Resp
  | .notificationFindMany .. => List Notification
  | .notificationCountAll _ => Nat

abbrev InboxApi : Interface := ⟨InboxCmd, InboxCmd.Resp⟩

abbrev InboxAction := Prog InboxApi Exn

def ask (c : InboxCmd) : InboxAction c.Resp := Prog.perform (I := InboxApi) c

/-- A program of the service as a part of a request. -/
def inService {α : Type} : Action α → InboxAction α
  | .done r => .done r
  | .await c k => .await (I := InboxApi) (.service c) fun r => inService (k r)

def thrown : Failure → Exn
  | .http status message => .http status message
  | .other e => .error e.code e.message

/-- A program of the permission package as a part of a request. -/
def inPermission {α : Type} : Permission.Action α → InboxAction α
  | .done (.ok a) => .done (.ok a)
  | .done (.error e) => .done (.error (thrown e))
  | .await c k => .await (I := InboxApi) (.permission c) fun
    | .ok r => inPermission (k r)
    | .error e => .done (.error e)

/-- `NOTIFICATIONS_READ` -/
def NOTIFICATIONS_READ : String := "notifications:read"

/-- What `listByUser` returns. -/
structure Page where
  items : List Notification
  total : Nat
  page : String
  limit : String
  sortBy : SortField
  sortOrder : SortOrder

/-- `Number(raw ?? fallback) || fallback` -/
def numberOr (numbers : Numbers) (raw : Js) (fallback : String) : String :=
  let n := numbers.number (raw.orElse (.num fallback))
  if n = "0" || n = "NaN" then fallback else n

def listByUser (numbers : Numbers) (userId : String)
    (pageRaw limitRaw sortByRaw sortOrderRaw : Js) : InboxAction Page := do
  if userId = "" then throw (NotificationService.validationError "userId is required")
  let page := numbers.max "1" (numberOr numbers pageRaw "1")
  let limit := numbers.min "100" (numbers.max "1" (numberOr numbers limitRaw "20"))
  let skip := numbers.mul (numbers.sub page "1") limit
  let sortBy := if sortByRaw = .str "readAt" then .readAt else .createdAt
  let sortOrder := if sortOrderRaw = .str "asc" then .asc else .desc
  let items ← ask (.notificationFindMany userId sortBy sortOrder skip limit)
  let total ← ask (.notificationCountAll userId)
  return { items, total, page, limit, sortBy, sortOrder }

/-- The routes, with their parameters. -/
inductive InboxRoute where
  | list (page limit sortBy sortOrder : Js)
  | unreadCount
  | markRead (id : String)
  | readAll
  deriving DecidableEq

def InboxRoute.metadata : InboxRoute → Metadata
  | .list .. | .unreadCount => { requiredPermissions := [NOTIFICATIONS_READ] }
  | .markRead _ | .readAll => {}

/-- A request: its bearer token, the `x-user-id` header, and the route. -/
structure InboxRequest where
  token : Option String
  headerUserId : Js
  route : InboxRoute
  deriving DecidableEq

inductive InboxReply where
  | page (page : Page)
  | count (count : Nat)
  | marked (body : Js)
  | updated (updated : Nat)

/-- `resolveUserId` -/
def resolveUserId (user infoData headerUserId : Js) : Js :=
  (((user.get "userId").orElse (infoData.get "userId")).orElse headerUserId).orElse (.str "")

/-- The user as the database client takes it; a value that is not a text is rejected there. -/
def userIdText : Js → InboxAction String
  | .str userId => return userId
  | v => if v.truthy then throw (.error none "Invalid value provided for userId") else return ""

def handle (cfg : InboxConfig) (userId : String) : InboxRoute → InboxAction InboxReply
  | .list page limit sortBy sortOrder => do
    let page ← listByUser cfg.numbers userId page limit sortBy sortOrder
    return .page page
  | .unreadCount => do
    let count ← inService (NotificationService.unreadCount userId)
    return .count count
  | .markRead id => do
    let body ← inService (NotificationService.markRead cfg.platform userId id)
    return .marked body
  | .readAll => do
    let updated ← inService (NotificationService.readAll userId)
    return .updated updated

/-- `CombinedJwtAuthGuard` -/
def authenticated (cfg : InboxConfig) (q : InboxRequest) : InboxAction Tokens.Request := do
  let now ← ask (.service .now)
  match CombinedJwtAuthGuard.canActivate cfg.strategy cfg.lib .notification
    q.route.metadata q.token now with
  | .ok req => return req
  | .error e => throw e

/-- A request: the guards in the order of their registration, and the handler. -/
def request (cfg : InboxConfig) (q : InboxRequest) : InboxAction InboxReply := do
  let req ← authenticated cfg q
  let _ ← inPermission (PermissionGuard.canActivate cfg.permissions q.route.metadata req.user)
  let userId ← userIdText (resolveUserId req.user (req.info.get "data") q.headerUserId)
  handle cfg userId q.route

structure InboxStore where
  bell : Store
  redis : Permission.Redis

/-- The order of the database: rows without a value come last. -/
def notAfter : Option Nat → Option Nat → Bool
  | _, none => true
  | none, some _ => false
  | some a, some b => a ≤ b

def SortField.of (sortBy : SortField) (row : Notification) : Option Nat :=
  match sortBy with
  | .createdAt => some row.createdAt
  | .readAt => row.readAt

def SortOrder.allows (sortOrder : SortOrder) (sortBy : SortField) (a b : Notification) : Bool :=
  match sortOrder with
  | .asc => notAfter (sortBy.of a) (sortBy.of b)
  | .desc => notAfter (sortBy.of b) (sortBy.of a)

/-- The rows of a user. -/
def Store.rowsOf (s : Store) (userId : String) : List Notification :=
  s.notifications.rows.filter fun row => row.userId = userId

/-- What a command leaves open; `sorted` is the order in which the rows of a page stand. -/
structure InboxChoice where
  bell : Choice := {}
  permission : Permission.Choice := {}
  fault : Option Exn := none
  sorted : List Notification := []

/-- A number that is not finite is sent as `null`, which the database client refuses. -/
def invalidArgument : Exn := .error none "Invalid value provided. Expected Int"

/-- Of `skip` and `take` the database takes the part in front of the fraction. That it may refuse a
number beyond 64 bits is one of its faults. -/
def inboxExec (cfg : InboxConfig) (ch : InboxChoice) (s : InboxStore) :
    (c : InboxCmd) → Option (Except Exn c.Resp × InboxStore)
  | .service c => (execOwn cfg.platform ch.bell s.bell c).map fun (r, bell) => (r, { s with bell })
  | .permission c =>
      (Permission.exec c ch.permission s.redis).map fun (r, redis) => (.ok r, { s with redis })
  | .notificationFindMany userId sortBy sortOrder skip take =>
    match ch.fault, Number.wholePart? skip, Number.wholePart? take with
    | some e, _, _ => if isForeign e then some (.error e, s) else none
    | none, some skip, some take =>
      if ch.sorted.Perm (s.bell.rowsOf userId) ∧
        ch.sorted.Pairwise (sortOrder.allows sortBy · ·) then
        some (.ok ((ch.sorted.drop skip).take take), s)
      else none
    | none, _, _ => some (.error invalidArgument, s)
  | .notificationCountAll userId =>
    match ch.fault with
    | some e => if isForeign e then some (.error e, s) else none
    | none => some (.ok (s.bell.rowsOf userId).length, s)

def inboxSemantics (cfg : InboxConfig) : Semantics InboxApi Exn InboxStore :=
  ⟨InboxChoice, fun c ch s => inboxExec cfg ch s c⟩

end CorePlatform.Bell
