import CorePlatform.Async.Refinement
import CorePlatform.Bell.Announced
import CorePlatform.Bell.Converges

/-! What an event of a notification says. Its text is made of a row when the row is created, goes
through the stream, and is read again by a gateway: the sockets of a user are sent what the row of
the user says. -/
namespace CorePlatform.Bell
open Async Relational Nats

/-- The event of a row, with the time and the count of its creation. -/
def newContent (row : Notification) (body createdAt : String) (count : Nat) : Js :=
  .obj [("notificationId", .str row.id), ("userId", .str row.userId), ("type", .str row.type),
    ("title", .str row.title), ("body", .str body), ("createdAt", .str createdAt),
    ("unreadCount", .num (toString count))]

/-- A row of the user says so. -/
def OfRow (s : Store) (userId : String) (data : Js) : Prop :=
  ∃ row ∈ s.notifications, row.userId = userId ∧ ∃ body createdAt count, row.body = some body ∧
    data = newContent row body createdAt count

/-- What a gateway makes of a message is what a row says. -/
def Described (platform : Platform) (s : Store) (text : String) : Prop :=
  ∀ payload ∈ readCreated platform text, OfRow s payload.userId (newPayload payload)

section Rows

variable {platform : Platform} {choice : Choice} {s s' : Store}

/-- Rows stay as they are, but for the time at which they are read. -/
def Lasts (s s' : Store) : Prop :=
  ∀ row ∈ s.notifications, ∃ readAt, { row with readAt } ∈ s'.notifications

theorem Lasts.of_eq (same : s'.notifications = s.notifications) : Lasts s s' :=
  fun row found => ⟨row.readAt, same ▸ found⟩

theorem Lasts.setReadAt (p : Notification → Bool) (readAt : Nat) :
    Lasts s (s.setReadAt p readAt) := by
  intro row found
  by_cases marked : p row = true
  · exact ⟨some readAt, mem_setReadAt.mpr ⟨row, found, if_pos marked⟩⟩
  · exact ⟨row.readAt, mem_setReadAt.mpr ⟨row, found, if_neg marked⟩⟩

theorem RowEffect.lasts {c : BellCmd} {r : Except Exn c.Resp} (effect : RowEffect s s' c r) :
    Lasts s s' := by
  cases effect with
  | kept _ _ rows => exact .of_eq rows
  | created data row inserted =>
    exact fun old found => ⟨old.readAt, (Table.mem_insert? inserted).mpr (.inr found)⟩
  | marked id readAt row found own rows =>
    have lasts : Lasts s (s.setReadAt (·.id = id) readAt) := .setReadAt _ _
    exact fun old stored => rows ▸ lasts old stored
  | markedAll userId readAt n rows =>
    have lasts : Lasts s (s.setReadAt (fun row => row.userId = userId && row.readAt.isNone)
        readAt) := .setReadAt _ _
    exact fun old stored => rows ▸ lasts old stored

theorem exec_lasts {c : LoopCmd BellApi} {r : Except Exn c.Resp}
    (executed : exec platform choice s c = some (r, s')) : Lasts s s' := by
  cases c with
  | own delivery c => exact (execOwn_effect executed).lasts
  | aborted | getConsumer | fetch | next | ack | nak =>
    simp only [exec, Option.map_eq_some_iff] at executed
    obtain ⟨⟨_, js⟩, _, same⟩ := executed
    cases same
    exact .of_eq rfl

theorem OfRow.lasts {userId : String} {data : Js} (ofRow : OfRow s userId data)
    (lasts : Lasts s s') : OfRow s' userId data := by
  obtain ⟨row, found, own, body, createdAt, count, text, said⟩ := ofRow
  obtain ⟨readAt, found'⟩ := lasts row found
  exact ⟨_, found', own, body, createdAt, count, text, said⟩

theorem Described.lasts {text : String} (described : Described platform s text)
    (lasts : Lasts s s') : Described platform s' text :=
  fun payload read => (described payload read).lasts lasts

end Rows

section Creation

variable {platform : Platform} {payLoad : CreateNotificationDto}

/-- Where `createNoti` may stand: it publishes the event of the row that it has created. -/
def ContentPoint (platform : Platform) (payLoad : CreateNotificationDto) (trace : List Ev) :
    BellCmd → Prop
  | .notificationCreate data => data = payLoad
  | .publish _ text => ∃ noti time count event,
      (⟨.notificationCreate payLoad, .ok noti⟩ : Ev) ∈ trace ∧
      NotificationCreatedSchema platform (NotificationService.eventPayload noti time count) =
        some event ∧ text = event.toJs.stringify.getD "undefined"
  | _ => True

theorem uses_actionTime (given : Js) :
    (NotificationService.actionTime platform given).Uses fun c => c = BellCmd.now := by
  cases given with
  | undefined | null => exact ⟨rfl, fun r => by cases r <;> trivial⟩
  | bool | num | str | arr | obj => trivial

theorem along_published {noti : Notification} {time result : Js} {count : RowCount} {trace : List Ev}
    (created : (⟨.notificationCreate payLoad, .ok noti⟩ : Ev) ∈ trace) :
    Along (ContentPoint platform payLoad) (fun _ _ => True) trace (match
        NotificationCreatedSchema platform (NotificationService.eventPayload noti time count) with
      | none => throw (.error none "invalid event")
      | some validatedPayload => do
        NatsService.publish NOTIFICATION_CREATED validatedPayload.toJs
        return result) := by
  cases accepted : NotificationCreatedSchema platform
    (NotificationService.eventPayload noti time count) with
  | none => trivial
  | some event =>
    refine along_bind.mpr (along_catch.mpr ⟨⟨noti, time, count, event, created, accepted, rfl⟩,
      fun r => ?_⟩)
    cases r <;> trivial

theorem along_content :
    Along (ContentPoint platform payLoad) (fun _ _ => True) []
      (NotificationService.createNoti platform payLoad) := by
  apply along_await_bind rfl (fun _ _ => trivial)
  intro noti
  apply along_bind.mpr
  simp only [NotificationService.unreadCount]
  split
  · trivial
  refine ⟨trivial, fun r => ?_⟩
  rcases r with e | count
  · trivial
  apply along_bind.mpr
  refine (uses_actionTime _).along_appends.mono ?_ ?_
  · rintro trace c ⟨rfl, -⟩
    trivial
  · rintro trace (e | time) ⟨added, rfl, -⟩
    · trivial
    · exact along_published (List.mem_append_right _ (List.mem_cons_of_mem _ List.mem_cons_self))

/-- The same of a call, whatever it is. -/
def CallContent (platform : Platform) (trace : List (Event (Loop BellApi) Exn))
    (c : LoopCmd BellApi) : BellCall → Prop
  | .createNoti payLoad => StandsAt (ContentPoint platform payLoad) trace c
  | _ => True

theorem along_callContent (q : BellCall) :
    Along (fun trace c => CallContent platform trace c q) (fun _ _ => True) []
      (q.body platform) := by
  cases q with
  | createNoti payLoad =>
    have created : Along (ContentPoint platform payLoad) (fun _ _ => True) []
        (do let _ ← NotificationService.createNoti platform payLoad; return ()) := by
      refine along_bind.mpr (along_content.mono (fun _ _ point => point) ?_)
      rintro t (e | result) _ <;> trivial
    exact (along_standing created).mono (fun _ _ point => point) fun _ _ _ => trivial
  | notificationRead | notificationReadAll | consume =>
    exact (along_call _).mono (fun _ _ _ => trivial) fun _ _ _ => trivial

end Creation

section Runs

variable {platform : Platform} {asked : BellCall → Prop} {init : Store → Prop} {pool : BellPool}
  {t : Nat} {th : Thread (Loop BellApi) Exn BellCall Unit}

/-- Only values of JSON are asked to be stored. -/
def Genuine (asked : BellCall → Prop) : Prop :=
  ∀ payLoad, asked (.createNoti payLoad) → JSON.isValue payLoad.data = true

/-- The runs of the bell in which these calls are made. -/
abbrev Asked (platform : Platform) (asked : BellCall → Prop) (init : Store → Prop)
    (pool : BellPool) : Prop :=
  (bellSystem platform).Reachable
    ((bellSystem platform).Asking asked (bellSystem platform).AnyAct) init pool

/-- A row that a call has created is still there. -/
def RowKept (s : Store) : Event (Loop BellApi) Exn → Prop
  | ⟨.own _ (.notificationCreate payLoad), .ok row⟩ =>
      (∃ readAt, { row with readAt } ∈ s.notifications) ∧
        (JSON.isValue payLoad.data = true → JSON.isValue row.data.val = true)
  | _ => True

theorem RowKept.lasts {s s' : Store} {e : Event (Loop BellApi) Exn} (keeps : RowKept s e)
    (lasts : Lasts s s') : RowKept s' e := by
  unfold RowKept at keeps ⊢
  split at keeps
  · obtain ⟨⟨readAt, found⟩, genuine⟩ := keeps
    obtain ⟨readAt', found'⟩ := lasts _ found
    exact ⟨⟨readAt', found'⟩, genuine⟩
  · trivial

theorem rowKept_executed {choice : Choice} {s s' : Store} {c : LoopCmd BellApi}
    {r : Except Exn c.Resp} (executed : exec platform choice s c = some (r, s')) :
    RowKept s' ⟨c, r⟩ := by
  unfold RowKept
  split
  · rename_i delivery payLoad row same
    cases same
    obtain ⟨inserted, -, -, genuine, -, -⟩ := exec_create executed
    exact ⟨⟨row.readAt, (Table.mem_insert? inserted).mpr (.inl rfl)⟩, genuine⟩
  · trivial

theorem Asked.rowKept (reachable : Asked platform asked init pool)
    (found : pool.thread? t = some th) {e : Event (Loop BellApi) Exn} (executed : e ∈ th.trace) :
    RowKept pool.store e :=
  reachable.seen (P := fun _ => RowKept) found executed
    (fun _ _ _ _ _ _ _ _ _ _ ran => rowKept_executed ran)
    (fun _ _ _ _ _ _ _ ran keeps => keeps.lasts (exec_lasts ran))
    (fun _ _ _ _ _ acted keeps => keeps.lasts (.of_eq (act_kept acted).1))

/-- The type of a row is the type of its event. -/
theorem type_of_accepted {noti : Notification} {time : Js} {count : RowCount}
    {event : NotificationCreatedEvent} (accepted : NotificationCreatedSchema platform
      (NotificationService.eventPayload noti time count) = some event) :
    event.type = noti.type := by
  simp only [NotificationService.eventPayload, NotificationCreatedSchema, Option.bind_eq_bind,
    Option.bind_eq_some_iff] at accepted
  obtain ⟨_, _, _, _, type, typed, _, _, _, _, _, _, rest⟩ := accepted
  split at rest
  · cases rest
    exact (Js.str.inj (stringOf_eq_some typed).1).symm
  · contradiction

/-- The event of a row, as a gateway reads it. -/
theorem described_event {s : Store} {noti : Notification} {time : Js} {count : RowCount}
    {event : NotificationCreatedEvent} (parsed : ObjectsParsed platform)
    (accepted : NotificationCreatedSchema platform
      (NotificationService.eventPayload noti time count) = some event)
    (genuine : JSON.isValue noti.data.val = true)
    (stored : ∃ readAt, { noti with readAt } ∈ s.notifications) :
    Described platform s (event.toJs.stringify.getD "undefined") := by
  obtain ⟨readAt, stored⟩ := stored
  obtain ⟨body, text, -, valid, id, user, title, data⟩ := valid_of_accepted accepted
  obtain ⟨_, read⟩ := valid.received parsed (data ▸ genuine)
  intro payload got
  rw [read] at got
  cases got
  refine ⟨_, stored, user.symm, body, event.actionCreatedAt, count.val, text, ?_⟩
  rw [newPayload, newContent, id, user, title, type_of_accepted accepted, valid.body,
    valid.unreadCount]
  rfl

/-- A call publishes the event of a row that it has created. -/
theorem Asked.describes (reachable : Asked platform asked init pool)
    (parsed : ObjectsParsed platform) (genuine : Genuine asked)
    (found : pool.thread? t = some th) {delivery : Option Nat} {subject text : String}
    (next : th.next? = some (.own delivery (.publish subject text))) :
    Described platform pool.store text := by
  have point := reachable.point along_call found next
  have content := reachable.point along_callContent found next
  have wanted := reachable.asked found
  cases asks : th.request with
  | createNoti payLoad =>
    rw [asks] at content wanted
    obtain ⟨handled, own, trace, same, point⟩ := content
    cases same
    obtain ⟨noti, time, count, event, created, accepted, rfl⟩ := point
    have executed : (⟨.own none (.notificationCreate payLoad), .ok noti⟩ :
        Event (Loop BellApi) Exn) ∈ th.trace := by
      rw [trace]
      exact List.mem_map.mpr ⟨_, created, rfl⟩
    obtain ⟨stored, isValue⟩ := reachable.rowKept found executed
    exact described_event parsed accepted (isValue (genuine payLoad wanted)) stored
  | notificationRead | notificationReadAll =>
    rw [asks] at point
    obtain ⟨_, _, -, same, point⟩ := point
    cases same
    exact absurd point id
  | consume =>
    rw [asks] at point
    obtain ⟨_, _, -, -, _, -, same⟩ := point
    contradiction

/-- Every message of the stream is described by a row. -/
theorem Asked.stream (reachable : Asked platform asked init pool) (parsed : ObjectsParsed platform)
    (genuine : Genuine asked) (empty : ∀ s, init s → s.js.stream = []) :
    ∀ text ∈ pool.store.js.stream, Described platform pool.store text := by
  refine System.Reachable.invariant
    (P := fun pool => ∀ text ∈ pool.store.js.stream, Described platform pool.store text)
    reachable ?_ ?_
  · intro s start text member
    rw [System.idle, empty s start] at member
    exact absurd member List.not_mem_nil
  · intro pool label pool' before _ all _ effect text member
    cases effect with
    | spawn q => exact all text member
    | act a s acted =>
      obtain ⟨rows, -, js⟩ := act_kept acted
      exact (all text (js ▸ member)).lasts (.of_eq rows)
    | run u choice th c k r s found awaits executed =>
      have lasts : Lasts pool.store s := exec_lasts executed
      have next : th.next? = some c := by rw [Thread.next?, awaits]
      have member : text ∈ pool.store.js.stream ∨ text ∈ published c := by
        obtain grown | ⟨-, same⟩ := (exec_sends executed).2.2
        · exact List.mem_append.mp (grown ▸ member)
        · exact .inl (same ▸ member)
      obtain old | new := member
      · exact (all text old).lasts lasts
      obtain ⟨delivery, text', same⟩ := eq_of_published (List.ne_nil_of_mem new)
      subst same
      have same : text = text' := by
        rw [published, if_pos rfl] at new
        exact List.mem_singleton.mp new
      rw [same]
      exact (Asked.describes before parsed genuine found next).lasts lasts

/-- What a handler of a message sends is what a row of the user says. -/
theorem Asked.delivered (reachable : Asked platform asked init pool)
    (parsed : ObjectsParsed platform) (genuine : Genuine asked)
    (empty : ∀ s, init s → s.js.stream = []) (found : pool.thread? t = some th) {msg : Msg}
    (received : (⟨.next, .ok (some msg)⟩ : Event (Loop BellApi) Exn) ∈ th.trace) :
    Described platform pool.store msg.text := by
  refine reachable.stream parsed genuine empty _ ?_
  refine (reachable.seen (P := fun _ s e => ∀ msg, e = (⟨.next, .ok (some msg)⟩ :
    Event (Loop BellApi) Exn) → msg.text ∈ s.js.stream) found received ?_ ?_ ?_) msg rfl
  · intro pool t choice th c r s _ _ _ ran msg same
    cases same
    obtain ⟨⟨r, js⟩, moved, same⟩ := Option.map_eq_some_iff.mp ran
    cases same
    obtain rfl | ⟨seq, absurd, -⟩ := JetStream.exec_effect moved
    · exact List.mem_of_getElem? (JetStream.exec_next moved)
    · contradiction
  · intro _ e c choice s r s' ran stored msg same
    have kept := stored msg same
    obtain grown | ⟨-, unchanged⟩ := (exec_sends ran).2.2
    · rw [grown]
      exact List.mem_append_left _ kept
    · rw [unchanged]
      exact kept
  · intro _ e a s s' acted stored msg same
    rw [(act_kept acted).2.2]
    exact stored msg same

/-- A gateway that is about to send `notification:new` sends what a row of the user says. -/
theorem Asked.sends_row (reachable : Asked platform asked init pool)
    (parsed : ObjectsParsed platform) (genuine : Genuine asked)
    (empty : ∀ s, init s → s.js.stream = []) (found : pool.thread? t = some th)
    {delivery : Option Nat} {gateway : Nat} {userId : String} {data : Js}
    (next : th.next? =
      some (.own delivery (.emitToUser gateway userId WS_NOTIFICATION_NEW data))) :
    OfRow pool.store userId data := by
  have point := reachable.point along_call found next
  cases asks : th.request with
  | createNoti =>
    rw [asks] at point
    obtain ⟨_, _, -, same, point⟩ := point
    cases same
    exact absurd point id
  | notificationRead | notificationReadAll =>
    rw [asks] at point
    obtain ⟨_, _, -, same, point⟩ := point
    cases same
    obtain ⟨-, -, updated, -⟩ := point
    contradiction
  | consume =>
    rw [asks] at point
    obtain ⟨msg, _, -, delivered, payload, read, same⟩ := point
    cases same
    exact reachable.delivered parsed genuine empty found delivered.received payload read

/-- A single socket is sent errors only. -/
theorem Asked.emits_error (reachable : Asked platform asked init pool)
    (found : pool.thread? t = some th) {delivery : Option Nat} {gateway : Nat}
    {socketId event : String} {data : Js}
    (next : th.next? = some (.own delivery (.emit gateway socketId event data))) :
    event = "error" := by
  have point := reachable.point along_call found next
  cases asks : th.request with
  | createNoti =>
    rw [asks] at point
    obtain ⟨_, _, -, same, point⟩ := point
    cases same
    exact absurd point id
  | notificationRead | notificationReadAll =>
    rw [asks] at point
    obtain ⟨_, _, -, same, point⟩ := point
    cases same
    exact point.2.2.1
  | consume =>
    rw [asks] at point
    obtain ⟨_, _, -, -, _, -, same⟩ := point
    contradiction

end Runs

end CorePlatform.Bell
