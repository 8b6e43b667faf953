import CorePlatform.Async.Record
import CorePlatform.Bell.Truthful
import CorePlatform.Common.Json

/-! Which notifications `createNoti` announces. The row is stored before the event is checked:
an optional field that was left out is read back as `null`, which the schema does not accept. -/
namespace CorePlatform.Bell
open Async Relational

/-- The commands of notification-service, with nothing else under way. -/
@[reducible] def ownCommands (platform : Platform) : Semantics BellApi Exn Store where
  Choice := Choice
  exec c choice s := execOwn platform choice s c

/-- The event of `notification:new`. -/
structure NotificationNewPayload where
  notificationId : String
  userId : String
  type : String
  title : String
  body : Option String
  createdAt : String
  unreadCount : Js

/-- `NotificationNewPayloadSchema`, none where it throws. -/
def NotificationNewPayloadSchema (platform : Platform) : Js → Option NotificationNewPayload
  | .obj fields => do
    let value := Js.obj fields
    let notificationId ← Notification.stringOf platform.uuid (value.get "notificationId")
    let userId ← Notification.stringOf platform.uuid (value.get "userId")
    let type ← Notification.stringOf (fun _ => true) (value.get "type")
    let title ← Notification.stringOf (fun _ => true) (value.get "title")
    let body ← Notification.optionalString (value.get "body")
    let createdAt ← Notification.stringOf platform.datetime (value.get "createdAt")
    let unreadCount := value.get "unreadCount"
    if isCount unreadCount then
      return { notificationId, userId, type, title, body, createdAt, unreadCount }
    else none
  | _ => none

/-- `JSON.parse` gives back the texts of an object that has been written, and the counts that a
number holds exactly. -/
def ObjectsParsed (platform : Platform) : Prop :=
  ∀ fields, JSON.isValue (.obj fields) = true → ∃ fields',
    platform.jsonParse ((Js.obj fields).stringify.getD "undefined") = some (.obj fields') ∧
      ∀ name v, (Js.obj fields).get name = v →
        ((∃ text, v = .str text) ∨ ∃ n ≤ 2 ^ 53, v = .num (toString n)) →
          (Js.obj fields').get name = v

/-- An event for a row has been published, and what a gateway makes of it for the sockets of the
user is of the row, with what its user has to read. -/
def Announced (platform : Platform) (s t : Store) (row : Notification) : Prop :=
  ∃ event received payload,
    t.js.stream = s.js.stream ++ [event.toJs.stringify.getD "undefined"] ∧
    NotificationCreatedSchema platform event.toJs = some event ∧
    readCreated platform (event.toJs.stringify.getD "undefined") = some received ∧
    NotificationNewPayloadSchema platform (newPayload received) = some payload ∧
    payload.notificationId = row.id ∧ payload.userId = row.userId ∧ payload.title = row.title ∧
    payload.unreadCount = .num (toString (unread row.userId t).length)

section Conditions

variable (platform : Platform) (payLoad : CreateNotificationDto)

/-- The database has rejected the insertion. -/
def refusesRow (record : List (Taken (ownCommands platform))) : Bool :=
  record.any fun
    | ⟨.notificationCreate _, _, .error _⟩ => true
    | _ => false

/-- A stored notification is announced, and a call that throws has stored none. -/
structure Announces (s : Store) (record : List (Taken (ownCommands platform)))
    (r : Except Exn Js) (t : Store) : Prop where
  announced : platform.uuid payLoad.userId = true → refusesRow platform record = false →
    ∃ row, s.notifications.insert? row = some t.notifications ∧ Announced platform s t row
  thrown : r.isOk = false → t.notifications = s.notifications

/-- `data.actionCreatedAt` is left out, or a time as the schema wants it. -/
def hasTime : Bool :=
  match payLoad.data.get "actionCreatedAt" with
  | .undefined | .null => true
  | .str time => platform.datetime time
  | _ => false

/-- What the event asks of a request: a text as its body, and a time where one is given. -/
structure Announceable : Prop where
  user : platform.uuid payLoad.userId = true
  given : payLoad.userId ≠ ""
  body : payLoad.body.isSome = true
  time : hasTime platform payLoad = true

end Conditions

section Events

variable {platform : Platform} {event : NotificationCreatedEvent} {n : RowCount}

theorem isCount_toString (n : Nat) : isCount (.num (toString n)) = true := by
  have digits : (toString n).toList.all Char.isDigit = true :=
    List.all_eq_true.mpr fun c member => JSON.isDigit_of_mem_toString member
  have filled : toString n ≠ "" := fun blank =>
    JSON.number_ne_nil (JSON.isNumber_toString n) (congrArg String.toList blank)
  exact (Bool.and_eq_true _ _).mpr ⟨decide_eq_true filled, digits⟩

/-- An event that the schema accepts, with a body, data and a count. -/
structure Valid (platform : Platform) (event : NotificationCreatedEvent) (body : String)
    (n : RowCount) : Prop where
  notificationId : platform.uuid event.notificationId = true
  userId : platform.uuid event.userId = true
  body : event.body = some body
  data : event.data ≠ .undefined
  actionCreatedAt : platform.datetime event.actionCreatedAt = true
  unreadCount : event.unreadCount = .num (toString n.val)

variable {body : String}

theorem Valid.toJs (valid : Valid platform event body n) : event.toJs =
    .obj [("notificationId", .str event.notificationId), ("userId", .str event.userId),
      ("type", .str event.type), ("title", .str event.title), ("body", .str body),
      ("data", event.data), ("actionCreatedAt", .str event.actionCreatedAt),
      ("unreadCount", .num (toString n.val))] := by
  rw [NotificationCreatedEvent.toJs, valid.body, valid.unreadCount, definedFields]
  refine congrArg Js.obj (List.filter_eq_self.mpr fun field member => decide_eq_true ?_)
  simp only [List.mem_cons, List.not_mem_nil, or_false] at member
  rcases member with rfl | rfl | rfl | rfl | rfl | rfl | rfl | rfl
  all_goals first | exact valid.data | exact nofun

/-- The members of an event that are texts or counts. -/
def Shows (v : Js) (event : NotificationCreatedEvent) (body : String) (n : RowCount) : Prop :=
  ∀ member ∈ [("notificationId", Js.str event.notificationId), ("userId", .str event.userId),
    ("type", .str event.type), ("title", .str event.title), ("body", .str body),
    ("actionCreatedAt", .str event.actionCreatedAt), ("unreadCount", .num (toString n.val))],
    v.get member.1 = member.2

theorem Valid.accepted {fields : List (String × Js)} (valid : Valid platform event body n)
    (shows : Shows (.obj fields) event body n) :
    NotificationCreatedSchema platform (.obj fields) =
      some { event with data := (Js.obj fields).get "data" } := by
  simp only [Shows, List.forall_mem_cons] at shows
  obtain ⟨notificationId, userId, type, title, text, time, count, -⟩ := shows
  simp only [NotificationCreatedSchema, notificationId, userId, type, title, text, time, count,
    Notification.stringOf, Notification.optionalString, valid.notificationId, valid.userId,
    valid.actionCreatedAt, isCount_toString, Option.bind_eq_bind, Option.bind_some, if_true,
    Option.pure_def]
  have text := valid.body
  have count := valid.unreadCount
  cases event
  cases text
  cases count
  rfl

/-- An event is accepted as it is sent. -/
theorem Valid.sent (valid : Valid platform event body n) :
    NotificationCreatedSchema platform event.toJs = some event := by
  have shows : Shows event.toJs event body n := by
    rw [valid.toJs]
    simp only [Shows, List.forall_mem_cons]
    exact ⟨rfl, rfl, rfl, rfl, rfl, rfl, rfl, List.forall_mem_nil _⟩
  rw [valid.toJs] at shows ⊢
  exact valid.accepted shows

theorem Valid.isValue (valid : Valid platform event body n)
    (genuine : JSON.isValue event.data = true) : JSON.isValue event.toJs = true := by
  have number := JSON.isNumber_toString n.val
  rw [valid.toJs]
  simp only [JSON.isValue, JSON.haveValues, JSON.hasValue, genuine, number, Bool.or_true,
    Bool.and_true, List.map_cons, List.map_nil]
  decide

/-- An event is accepted as it is received. -/
theorem Valid.received (valid : Valid platform event body n) (parsed : ObjectsParsed platform)
    (genuine : JSON.isValue event.data = true) :
    ∃ data, readCreated platform (event.toJs.stringify.getD "undefined") =
      some { event with data } := by
  have value := valid.isValue genuine
  rw [valid.toJs] at value ⊢
  obtain ⟨fields, read, members⟩ := parsed _ value
  refine ⟨(Js.obj fields).get "data", ?_⟩
  rw [readCreated, read, Option.bind_some]
  apply valid.accepted
  simp only [Shows, List.forall_mem_cons]
  exact ⟨members _ _ rfl (.inl ⟨_, rfl⟩), members _ _ rfl (.inl ⟨_, rfl⟩),
    members _ _ rfl (.inl ⟨_, rfl⟩), members _ _ rfl (.inl ⟨_, rfl⟩),
    members _ _ rfl (.inl ⟨_, rfl⟩), members _ _ rfl (.inl ⟨_, rfl⟩),
    members _ _ rfl (.inr ⟨_, n.property, rfl⟩), List.forall_mem_nil _⟩

/-- What the gateway sends for an event, the schema of the sockets accepts. -/
theorem Valid.pushed (valid : Valid platform event body n) (data : Js) :
    ∃ payload, NotificationNewPayloadSchema platform (newPayload { event with data }) =
        some payload ∧
      payload.notificationId = event.notificationId ∧ payload.userId = event.userId ∧
      payload.title = event.title ∧ payload.unreadCount = .num (toString n.val) := by
  refine ⟨⟨event.notificationId, event.userId, event.type, event.title, event.body,
    event.actionCreatedAt, event.unreadCount⟩, ?_, rfl, rfl, rfl, valid.unreadCount⟩
  rw [newPayload, valid.body, valid.unreadCount]
  have known := valid.notificationId
  have user := valid.userId
  have time := valid.actionCreatedAt
  simp only [NotificationNewPayloadSchema, Js.get, List.lookup_cons, String.reduceBEq,
    Option.getD_some, Notification.stringOf, Notification.optionalString, known, user, time,
    Js.ofString?, isCount_toString, if_true, Option.bind_eq_bind, Option.bind_some, Option.pure_def]

theorem stringOf_eq_some {format : String → Bool} {v : Js} {text : String}
    (accepted : Notification.stringOf format v = some text) :
    v = .str text ∧ format text = true := by
  unfold Notification.stringOf at accepted
  split at accepted
  · split at accepted
    · rename_i formatted
      cases accepted
      exact ⟨rfl, formatted⟩
    · contradiction
  · contradiction

/-- What the schema asks of the event of a row. -/
theorem valid_of_accepted {noti : Notification} {time : Js} {count : RowCount}
    (accepted : NotificationCreatedSchema platform
      (NotificationService.eventPayload noti time count) = some event) :
    ∃ body, noti.body = some body ∧ time = .str event.actionCreatedAt ∧
      Valid platform event body count ∧ event.notificationId = noti.id ∧
      event.userId = noti.userId ∧ event.title = noti.title ∧ event.data = noti.data.val := by
  simp only [NotificationService.eventPayload, NotificationCreatedSchema, Option.bind_eq_bind,
    Option.bind_eq_some_iff] at accepted
  obtain ⟨id, known, user, knownUser, type, typed, title, titled, body, bodied, at', timed, rest⟩ :=
    accepted
  obtain ⟨sameId, known⟩ := stringOf_eq_some known
  obtain ⟨sameUser, knownUser⟩ := stringOf_eq_some knownUser
  obtain ⟨sameTitle, -⟩ := stringOf_eq_some titled
  obtain ⟨sameTime, timed⟩ := stringOf_eq_some timed
  split at rest
  · cases rest
    cases Js.str.inj sameId
    cases Js.str.inj sameUser
    cases Js.str.inj sameTitle
    cases written : noti.body with
    | none =>
      rw [written] at bodied
      contradiction
    | some text =>
      rw [written] at bodied
      cases Option.some.inj bodied
      exact ⟨text, rfl, sameTime, ⟨known, knownUser, rfl, noti.data.property, timed, rfl⟩, rfl, rfl,
        rfl, rfl⟩
  · contradiction

end Events

section Creation

variable {platform : Platform} {payLoad : CreateNotificationDto} {choice : Choice} {s t : Store}
  {record : List (Taken (ownCommands platform))} {r : Except Exn Js}

/-- A new row, as the insertion answers with it. -/
structure Stored (payLoad : CreateNotificationDto) (s t : Store) (row : Notification) : Prop where
  inserted : s.notifications.insert? row = some t.notifications
  userId : row.userId = payLoad.userId
  body : row.body = payLoad.body
  data : JSON.isValue payLoad.data = true → JSON.isValue row.data.val = true
  now : t.now = s.now
  js : t.js = s.js

theorem exec_create {row : Notification}
    (executed : execOwn platform choice s (.notificationCreate payLoad) = some (.ok row, t)) :
    Stored payLoad s t row := by
  obtain ⟨notifications, inserted, same⟩ := Option.map_eq_some_iff.mp (execOwn_ok executed)
  cases same
  refine ⟨inserted, rfl, rfl, fun genuine => ?_, rfl, rfl⟩
  dsimp only
  split
  · exact genuine
  · rfl

theorem exec_now {r : Except Exn Nat} (executed : execOwn platform choice s .now = some (r, t)) :
    r = .ok s.now ∧ t = s := by
  cases r with
  | error e => exact absurd (execOwn_error executed).1 nofun
  | ok now =>
    cases Option.some.inj (execOwn_ok executed)
    exact ⟨rfl, rfl⟩

/-- A command after the insertion that was not rejected. -/
def passes (step : Taken (ownCommands platform)) : Prop :=
  step.resp.isOk = true ∧ ∀ data, step.cmd ≠ .notificationCreate data

/-- The response of every command is one of success. -/
def Passes (record : List (Taken (ownCommands platform))) : Prop :=
  ∀ step ∈ record, step.resp.isOk = true

/-- How a call of `createNoti` ends: without a row, with an event, or with a row alone. -/
inductive Creation (platform : Platform) (payLoad : CreateNotificationDto) (s : Store) :
    List (Taken (ownCommands platform)) → Except Exn Js → Store → Prop where
  | refused (choice : Choice) (e : Exn) :
      Creation platform payLoad s [⟨.notificationCreate payLoad, choice, .error e⟩] (.error e) s
  | announced {record : List (Taken (ownCommands platform))} {t : Store} (row : Notification)
      (v : Js) (inserted : s.notifications.insert? row = some t.notifications)
      (published : Announced platform s t row) (able : Announceable platform payLoad)
      (passed : Passes record) : Creation platform payLoad s record (.ok v) t
  | unannounced {record : List (Taken (ownCommands platform))} {r : Except Exn Js} {t : Store}
      (row : Notification) (inserted : s.notifications.insert? row = some t.notifications)
      (known : refusesRow platform record = false)
      (silent : r.isOk = false ∨ (platform.uuid payLoad.userId = true ∧ t.js = s.js))
      (failed : ¬ (Announceable platform payLoad ∧ Passes record)) :
      Creation platform payLoad s record r t

theorem insert?_ne {row : Notification} : s.notifications.insert? row ≠ some s.notifications := by
  intro inserted
  have stored : row ∈ s.notifications := (Table.mem_insert? inserted).mpr (.inl rfl)
  exact Table.insert?_fresh inserted stored rfl

/-- A row is stored and announced, or the call keeps the rows, exactly in the good cases. -/
theorem Creation.announced_iff (creation : Creation platform payLoad s record r t) :
    Announces platform payLoad s record r t ↔
      refusesRow platform record = true ∨ (Announceable platform payLoad ∧ Passes record) := by
  cases creation with
  | refused choice e =>
    refine ⟨fun _ => .inl rfl, fun _ => ⟨fun _ made => ?_, fun _ => rfl⟩⟩
    exact absurd made nofun
  | announced row v inserted published able passed =>
    exact ⟨fun _ => .inr ⟨able, passed⟩, fun _ => ⟨fun _ _ => ⟨row, inserted, published⟩, nofun⟩⟩
  | unannounced row inserted known silent failed =>
    constructor
    · intro announces
      rcases silent with thrown | ⟨user, unpublished⟩
      · exact absurd (announces.thrown thrown ▸ inserted) insert?_ne
      · obtain ⟨_, _, event, _, _, published, _⟩ := announces.announced user known
        rw [unpublished] at published
        exact absurd (List.self_eq_append_right.mp published) (List.cons_ne_nil _ _)
    · rintro (refused | good)
      · rw [known] at refused
        contradiction
      · exact absurd good failed

section Run

variable (clock : platform.datetime (platform.toISOString s.now) = true)
  (parsed : ObjectsParsed platform) (genuine : JSON.isValue payLoad.data = true)

end Run

end Creation

section Sample

theorem objectsParsed_of_parse {platform : Platform}
    (parses : platform.jsonParse = JSON.parse) : ObjectsParsed platform := by
  intro fields genuine
  refine ⟨JSON.decodedFields fields, ?_, ?_⟩
  · rw [parses]
    exact JSON.parse_stringify genuine rfl
  · have distinct := of_decide_eq_true ((Bool.and_eq_true _ _).mp genuine).1
    rintro name v found (⟨text, rfl⟩ | ⟨n, -, rfl⟩)
    · exact JSON.get_decodedFields distinct found (by rintro ⟨⟩)
    · rw [JSON.get_decodedFields distinct found (by rintro ⟨⟩), JSON.decoded,
        if_pos (JSON.isFinite_toString n)]

/-- The platform with `JSON.parse`. -/
def parsingPlatform : Platform := { samplePlatform with jsonParse := JSON.parse }

def roleNotice (body : Option String) : CreateNotificationDto :=
  { userId := alice, type := "role", title := "Role assigned", body }

end Sample

end CorePlatform.Bell
