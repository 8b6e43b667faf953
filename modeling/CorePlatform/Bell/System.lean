import CorePlatform.Bell.Points

/-! Every call of the bell at every point of its run, and what each command does to the rows. -/
namespace CorePlatform.Bell
open Async Relational Nats

section Creation

variable {platform : Platform} {payLoad : CreateNotificationDto}

/-- The event has every count that was answered. -/
def Counted (trace : List Ev) (event : NotificationCreatedEvent) : Prop :=
  ∀ userId n, (⟨.notificationCount userId, .ok n⟩ : Ev) ∈ trace →
    event.unreadCount = .num (toString n.val)

/-- Where `createNoti` may stand: it publishes what it has counted, and sends nothing. -/
def CreatePoint (trace : List Ev) : BellCmd → Prop
  | .publish subject text => subject = NOTIFICATION_CREATED ∧ Unmarked trace ∧
      ∃ event, Counted trace event ∧ text = event.toJs.stringify.getD "undefined"
  | .emit .. | .emitToUser .. => False
  | _ => True

theorem schema_unreadCount {given : Js} {event : NotificationCreatedEvent}
    (accepted : NotificationCreatedSchema platform given = some event) :
    event.unreadCount = given.get "unreadCount" := by
  cases given with
  | obj fields =>
    simp only [NotificationCreatedSchema, Option.bind_eq_bind, Option.bind_eq_some_iff] at accepted
    obtain ⟨_, _, _, _, _, _, _, _, _, _, _, _, validated⟩ := accepted
    split at validated
    · cases validated
      rfl
    · contradiction
  | undefined | null | bool | num | str | arr => contradiction

/-- The last part, on the time of the action. -/
theorem along_publish {trace : List Ev} {noti : Notification} {time result : Js} {count : RowCount}
    (unmarked : Unmarked trace)
    (counted : ∀ userId n, (⟨.notificationCount userId, .ok n⟩ : Ev) ∈ trace → n = count) :
    Along (CreatePoint) (fun _ _ => True) trace (match
        NotificationCreatedSchema platform (NotificationService.eventPayload noti time count) with
      | none => throw (.error none "invalid event")
      | some validatedPayload => do
        NatsService.publish NOTIFICATION_CREATED validatedPayload.toJs
        return result) := by
  cases accepted : NotificationCreatedSchema platform
    (NotificationService.eventPayload noti time count) with
  | none => trivial
  | some event =>
    refine along_bind.mpr (along_catch.mpr ⟨⟨rfl, unmarked, event, ?_, rfl⟩, fun r => ?_⟩)
    · intro userId n member
      rw [schema_unreadCount accepted, counted userId n member]
      rfl
    · cases r <;> trivial

/-- `actionTime` reads the clock at most. -/
theorem along_actionTime {trace : List Ev} {given : Js} :
    Along (CreatePoint) (fun t _ => t = trace ∨ ∃ r, t = ⟨.now, r⟩ :: trace) trace
      (NotificationService.actionTime platform given) := by
  have read : Along (CreatePoint) (fun t _ => t = trace ∨ ∃ r, t = ⟨.now, r⟩ :: trace) trace
      (do let now ← call .now; return Js.str (platform.toISOString now)) := by
    apply along_command_bind trivial
    · exact fun e => .inr ⟨_, rfl⟩
    · exact fun now => .inr ⟨_, rfl⟩
  cases given <;> first | exact read | exact .inl rfl

theorem along_createNoti :
    Along (CreatePoint) (fun _ _ => True) [] (NotificationService.createNoti platform payLoad) := by
  apply along_command_bind trivial
  · exact fun _ => trivial
  intro noti
  apply along_bind.mpr
  simp only [NotificationService.unreadCount]
  split
  · trivial
  refine ⟨trivial, fun r => ?_⟩
  rcases r with e | count
  · trivial
  have unmarked : Unmarked [⟨.notificationCount noti.userId, .ok count⟩,
      ⟨.notificationCreate payLoad, .ok noti⟩] := by
    intro userId readAt n member
    simp only [List.mem_cons, List.not_mem_nil, or_false, Event.mk.injEq,
      reduceCtorEq, false_and] at member
  have counted : ∀ userId n, (⟨.notificationCount userId, .ok n⟩ : Ev) ∈
      ([⟨.notificationCount noti.userId, .ok count⟩, ⟨.notificationCreate payLoad, .ok noti⟩] : List
        Ev) → n = count := by
    intro userId n member
    simp only [List.mem_cons, List.not_mem_nil, or_false, Event.mk.injEq,
      reduceCtorEq, false_and] at member
    obtain ⟨same, answer⟩ := member
    cases same
    exact Except.ok.inj (eq_of_heq answer)
  apply along_bind.mpr
  refine along_actionTime.mono (fun _ _ point => point) ?_
  rintro t (e | time) read
  · trivial
  · rcases read with rfl | ⟨r, rfl⟩
    · exact along_publish unmarked counted
    · apply along_publish
      · intro userId readAt n member
        obtain same | earlier := List.mem_cons.mp member
        · cases same
        · exact unmarked userId readAt n earlier
      · intro userId n member
        obtain same | earlier := List.mem_cons.mp member
        · cases same
        · exact counted userId n earlier

end Creation
section Calls

variable {platform : Platform} {message : SocketMessage}

/-- Where the handler of a message may stand: its payload goes to the sockets of the user. -/
def MessagePoint (platform : Platform) (gateway : Nat) (msg : Msg) (c : BellCmd) : Prop :=
  ∃ payload ∈ readCreated platform msg.text,
    c = .emitToUser gateway payload.userId WS_NOTIFICATION_NEW (newPayload payload)

/-- A call of a service that has executed `handled` and stands at a command. -/
def StandsAt (P : List Ev → BellCmd → Prop) (trace : List (Event (Loop BellApi) Exn))
    (c : LoopCmd BellApi) : Prop :=
  ∃ handled own, trace = onBehalf none handled ∧ c = .own none own ∧ P handled own

/-- A message of a socket, with what it asks for where the schema accepts it. -/
structure SocketMessage where
  gateway : Nat
  socket : Socket
  reading : Option Reading
  deriving DecidableEq

def BellCall.message? (platform : Platform) : BellCall → Option SocketMessage
  | .notificationRead gateway socket body => some ⟨gateway, socket, reading? platform body⟩
  | .notificationReadAll gateway socket => some ⟨gateway, socket, some .all⟩
  | .createNoti _ | .consume _ => none

/-- Where each call may stand. -/
def CallPoint (platform : Platform) (trace : List (Event (Loop BellApi) Exn))
    (c : LoopCmd BellApi) : BellCall → Prop
  | .createNoti _ => StandsAt (CreatePoint) trace c
  | .notificationRead gateway socket body =>
    StandsAt (SocketPoint platform gateway socket.id socket.user? (reading? platform body)) trace c
  | .notificationReadAll gateway socket =>
    StandsAt (SocketPoint platform gateway socket.id socket.user? (some .all)) trace c
  | .consume gateway =>
      LoopPoint (fun msg _ c => MessagePoint platform gateway msg c) (fun _ _ _ => True) trace c

/-- How each call may end. -/
def CallEnd (trace : List (Event (Loop BellApi) Exn)) (r : Except Exn Unit) : BellCall → Prop
  | .createNoti _ | .consume _ => True
  | .notificationRead gateway socket _ | .notificationReadAll gateway socket =>
    ∃ handled, trace = onBehalf none handled ∧ SocketEnd gateway socket.id socket.user? handled r

theorem along_standing {p : Action Unit} {P : List Ev → BellCmd → Prop}
    {R : List Ev → Except Exn Unit → Prop}
    (along : Along P R [] p) :
    Along (StandsAt P) (fun trace r => ∃ handled, trace = onBehalf none handled ∧ R handled r)
    [] (within none p) := by
  refine along_within along ?_ ?_
  · exact fun handled c point => ⟨handled, c, List.append_nil _, rfl, point⟩
  · exact fun handled r holds => ⟨handled, List.append_nil _, holds⟩

theorem along_call (q : BellCall) :
    Along (fun trace c => CallPoint platform trace c q) (fun trace r => CallEnd trace r q)
    [] (q.body platform) := by
  cases q with
  | createNoti payLoad =>
    refine (along_standing (R := fun _ _ => True)
      (along_bind.mpr (along_createNoti.mono (fun _ _ point => point) ?_))).mono
      (fun _ _ point => point) fun _ _ _ => trivial
    rintro t (e | result) _ <;> trivial
  | notificationRead gateway socket body => exact along_standing (along_handleNotificationRead body)
  | notificationReadAll gateway socket => exact along_standing along_handleNotificationReadAll
  | consume gateway =>
    have handled : ∀ msg, Along (fun (_ : List Ev) c => MessagePoint platform gateway msg c)
        (fun _ _ => True) []
        (NotificationJetstreamConsumer.handle platform gateway msg) := by
      intro msg
      unfold NotificationJetstreamConsumer.handle
      cases read : readCreated platform msg.text with
      | none => trivial
      | some payload => exact ⟨⟨payload, read, rfl⟩, fun _ => trivial⟩
    exact along_consumeRound handled

theorem callPoint_message {trace : List (Event (Loop BellApi) Exn)}
    {c : LoopCmd BellApi} {q : BellCall} (asked : q.message? platform = some message)
    (point : CallPoint platform trace c q) :
    StandsAt (SocketPoint platform message.gateway message.socket.id message.socket.user?
      message.reading) trace c := by
  cases q with
  | createNoti | consume => contradiction
  | notificationRead | notificationReadAll =>
    cases asked
    exact point

theorem callEnd_message {trace : List (Event (Loop BellApi) Exn)}
    {r : Except Exn Unit} {q : BellCall} (asked : q.message? platform = some message)
    (ended : CallEnd trace r q) :
    ∃ handled, trace = onBehalf none handled ∧
    SocketEnd message.gateway message.socket.id message.socket.user? handled r := by
  cases q with
  | createNoti | consume => contradiction
  | notificationRead | notificationReadAll =>
    cases asked
    exact ended

end Calls

section Commands

variable {platform : Platform} {choice : Choice} {s s' : Store}

/-- No row is lost, passed to another user, or unread again. -/
def Grows (s s' : Store) : Prop :=
  ∀ row ∈ s.notifications, ∃ row' ∈ s'.notifications, row'.id = row.id ∧ row'.userId = row.userId ∧
    (row.readAt.isSome = true → row'.readAt.isSome = true)

theorem Grows.refl (s : Store) : Grows s s := fun row found => ⟨row, found, rfl, rfl, id⟩

theorem Grows.of_eq (same : s'.notifications = s.notifications) : Grows s s' := by
  intro row found
  exact ⟨row, same ▸ found, rfl, rfl, id⟩

theorem Grows.trans (s t u : Store) (first : Grows s t) (second : Grows t u) : Grows s u := by
  intro row found
  obtain ⟨row', found', id', userId', read'⟩ := first row found
  obtain ⟨row'', found'', id'', userId'', read''⟩ := second row' found'
  exact ⟨row'', found'', id''.trans id', userId''.trans userId', fun read => read'' (read' read)⟩

theorem mem_setReadAt {p : Notification → Bool} {readAt : Nat} {row : Notification} :
    row ∈ (s.setReadAt p readAt).notifications ↔
      ∃ old ∈ s.notifications, (if p old then old.setReadAt readAt else old) = row :=
  Table.mem_update (Notification.setReadAt_id readAt)

theorem Grows.setReadAt (p : Notification → Bool) (readAt : Nat) :
    Grows s (s.setReadAt p readAt) := by
  intro row found
  refine ⟨_, mem_setReadAt.mpr ⟨row, found, rfl⟩, ?_⟩
  split
  · exact ⟨rfl, rfl, fun _ => rfl⟩
  · exact ⟨rfl, rfl, id⟩

/-- What a command that was not rejected has done: nothing to the rows, a new row, or a mark. -/
inductive RowEffect (s s' : Store) : (c : BellCmd) → Except Exn c.Resp → Prop where
  | kept (c : BellCmd) (r : Except Exn c.Resp)
      (rows : s'.notifications = s.notifications) : RowEffect s s' c r
  | created (data : CreateNotificationDto) (row : Notification)
      (inserted : s.notifications.insert? row = some s'.notifications) :
      RowEffect s s' (.notificationCreate data) (.ok row)
  | marked (id : String) (readAt : Nat) (row : Notification) (found : row ∈ s.notifications)
      (own : row.id = id)
      (rows : s'.notifications = (s.setReadAt (·.id = id) readAt).notifications) :
      RowEffect s s' (.notificationUpdate id readAt) (.ok (row.setReadAt readAt))
  | markedAll (userId : String) (readAt n : Nat)
      (rows : s'.notifications = (s.setReadAt (fun row => row.userId = userId &&
        row.readAt.isNone) readAt).notifications) :
      RowEffect s s' (.notificationUpdateMany userId readAt) (.ok n)

theorem execTotal_effect {c : BellCmd} {r : Except Exn c.Resp}
    (executed : execTotal platform choice s c = some (r, s')) :
    RowEffect s s' c r := by
  cases c with
  | now | notificationFindFirst | httpRequest | httpReply | checkRateLimit | randomUUID | emit
  | emitToUser =>
    cases Option.some.inj executed
    exact .kept _ _ rfl
  | notificationCount =>
    simp only [execTotal] at executed
    split at executed
    · cases Option.some.inj executed
      exact .kept _ _ rfl
    · contradiction
  | publish subject text =>
    simp only [execTotal] at executed
    split at executed <;> (cases Option.some.inj executed; exact .kept _ _ rfl)
  | signInternalToken data =>
    simp only [execTotal] at executed
    split at executed
    · cases Option.some.inj executed
      exact .kept _ _ rfl
    · contradiction
  | notificationCreate data =>
    simp only [execTotal, Option.map_eq_some_iff] at executed
    obtain ⟨notifications, inserted, same⟩ := executed
    cases same
    exact .created data _ inserted
  | notificationUpdate id readAt =>
    simp only [execTotal] at executed
    split at executed
    · cases Option.some.inj executed
      exact .kept _ _ rfl
    · rename_i row found
      cases Option.some.inj executed
      obtain ⟨stored, own⟩ := Table.of_find found
      exact .marked id readAt row stored own rfl
  | notificationUpdateMany userId readAt =>
    cases Option.some.inj executed
    exact .markedAll userId readAt _ rfl

theorem execOwn_effect {c : BellCmd} {r : Except Exn c.Resp}
    (executed : execOwn platform choice s c = some (r, s')) :
    RowEffect s s' c r := by
  unfold execOwn at executed
  split at executed
  · exact execTotal_effect executed
  · split at executed
    · cases Option.some.inj executed
      exact .kept _ _ rfl
    · contradiction

theorem RowEffect.grows {c : BellCmd} {r : Except Exn c.Resp}
    (effect : RowEffect s s' c r) : Grows s s' := by
  cases effect with
  | kept _ _ rows => exact .of_eq rows
  | created data row inserted =>
    intro old found
    exact ⟨old, (Table.mem_insert? inserted).mpr (.inr found), rfl, rfl, id⟩
  | marked id readAt row found own rows =>
    have grows : Grows s (s.setReadAt (·.id = id) readAt) := .setReadAt _ _
    exact fun old stored => rows ▸ grows old stored
  | markedAll userId readAt n rows =>
    have grows : Grows s (s.setReadAt (fun row => row.userId = userId && row.readAt.isNone) readAt) :=
      .setReadAt _ _
    exact fun old stored => rows ▸ grows old stored

theorem execOwn_ok {c : BellCmd} {a : c.Resp}
    (executed : execOwn platform choice s c = some (.ok a, s')) :
    execTotal platform choice s c = some (.ok a, s') := by
  unfold execOwn at executed
  split at executed
  · exact executed
  · split at executed
    · cases (Prod.mk.inj (Option.some.inj executed)).1
    · contradiction

theorem execOwn_error {c : BellCmd} {e : Exn}
    (executed : execOwn platform choice s c = some (.error e, s')) :
    c.canFail = true ∧ isForeign e = true := by
  unfold execOwn at executed
  split at executed
  · cases c with
    | notificationUpdate id readAt =>
      simp only [execTotal] at executed
      split at executed
      · cases Option.some.inj executed
        exact ⟨rfl, rfl⟩
      · cases (Prod.mk.inj (Option.some.inj executed)).1
    | now | notificationFindFirst | httpRequest | httpReply | checkRateLimit | randomUUID | emit
    | emitToUser | notificationUpdateMany => cases (Prod.mk.inj (Option.some.inj executed)).1
    | notificationCount =>
      simp only [execTotal] at executed
      split at executed
      · cases (Prod.mk.inj (Option.some.inj executed)).1
      · contradiction
    | publish =>
      simp only [execTotal] at executed
      split at executed <;> cases (Prod.mk.inj (Option.some.inj executed)).1
    | signInternalToken =>
      simp only [execTotal] at executed
      split at executed
      · cases (Prod.mk.inj (Option.some.inj executed)).1
      · contradiction
    | notificationCreate =>
      simp only [execTotal, Option.map_eq_some_iff] at executed
      obtain ⟨_, _, same⟩ := executed
      cases same
  · split at executed
    · rename_i e' fault rejected
      cases Option.some.inj executed
      exact (Bool.and_eq_true _ _).mp rejected
    · contradiction

theorem exec_token {data : Js} {token : String}
    (executed : execOwn platform choice s (.signInternalToken data) = some (.ok token, s')) :
    platform.internalData ("Bearer " ++ token) = some data := by
  have executed := execOwn_ok executed
  simp only [execTotal] at executed
  split at executed
  · cases Option.some.inj executed
    assumption
  · contradiction

theorem exec_findFirst {id userId : String} {row : Notification}
    (executed : execOwn platform choice s (.notificationFindFirst id userId) =
      some (.ok (some row), s')) :
    row ∈ s'.notifications ∧ row.id = id ∧ row.userId = userId := by
  obtain ⟨found, rfl⟩ := Prod.mk.inj (Option.some.inj (execOwn_ok executed))
  have found := Except.ok.inj found
  have matched := List.find?_some found
  simp only [Bool.and_eq_true, decide_eq_true_eq] at matched
  exact ⟨List.mem_of_find?_eq_some found, matched⟩

theorem exec_notificationUpdate {id : String} {readAt : Nat} {row : Notification}
    (executed : execOwn platform choice s (.notificationUpdate id readAt) = some (.ok row, s')) :
    row ∈ s'.notifications ∧ row.id = id ∧ row.readAt = some readAt := by
  have executed := execOwn_ok executed
  simp only [execTotal] at executed
  split at executed
  · cases (Prod.mk.inj (Option.some.inj executed)).1
  · rename_i old found
    cases Option.some.inj executed
    obtain ⟨stored, own⟩ := Table.of_find found
    refine ⟨mem_setReadAt.mpr ⟨old, stored, ?_⟩, own, rfl⟩
    rw [if_pos (decide_eq_true own)]

theorem exec_notificationUpdateMany {userId : String} {readAt n : Nat}
    (executed : execOwn platform choice s (.notificationUpdateMany userId readAt) =
      some (.ok n, s')) :
    ∀ row ∈ s'.notifications, row.userId = userId → row.readAt.isSome = true := by
  have executed := execOwn_ok executed
  cases Option.some.inj executed
  intro row found own
  obtain ⟨old, stored, rfl⟩ := mem_setReadAt.mp found
  split
  · rfl
  · rename_i other
    rw [if_neg other] at own
    simp only [own, decide_true, Bool.true_and, Option.isNone_iff_eq_none] at other
    exact Option.isSome_iff_ne_none.mpr other

theorem exec_notificationCount {userId : String} {n : RowCount}
    (executed : execOwn platform choice s (.notificationCount userId) = some (.ok n, s')) :
    s' = s ∧ n.val = (unread userId s).length := by
  have executed := execOwn_ok executed
  simp only [execTotal] at executed
  split at executed
  · cases Option.some.inj executed
    exact ⟨rfl, rfl⟩
  · contradiction

/-- What a command sends to sockets, latest first. -/
def emissions (s : Store) : LoopCmd BellApi → List Emission
  | .own _ (.emit gateway socketId event data) => [⟨gateway, socketId, event, data⟩]
  | .own _ (.emitToUser gateway userId event data) =>
    (s.getSocketsByUser gateway userId).map fun connection =>
      ⟨gateway, connection.socketId, event, data⟩
  | _ => []

/-- What a command publishes for the consumers of the gateway. -/
def published : LoopCmd BellApi → List String
  | .own _ (.publish subject text) => if subject = NOTIFICATION_CREATED then [text] else []
  | _ => []

theorem execTotal_sends {delivery : Option Nat} {c : BellCmd} {r : Except Exn c.Resp}
    (executed : execTotal platform choice s c = some (r, s')) :
    s'.emitted = emissions s (.own delivery c) ++ s.emitted ∧ s'.connected = s.connected ∧
      s'.js.stream = s.js.stream ++ published (.own delivery c) := by
  cases c with
  | now | notificationFindFirst | httpRequest | httpReply | randomUUID | notificationUpdateMany
  | emit | emitToUser | checkRateLimit =>
    cases Option.some.inj executed
    exact ⟨rfl, rfl, (List.append_nil _).symm⟩
  | notificationCount =>
    simp only [execTotal] at executed
    split at executed
    · cases Option.some.inj executed
      exact ⟨rfl, rfl, (List.append_nil _).symm⟩
    · contradiction
  | publish subject text =>
    simp only [execTotal] at executed
    split at executed
    · rename_i created
      cases Option.some.inj executed
      exact ⟨rfl, rfl, by rw [published, if_pos created]⟩
    · rename_i other
      cases Option.some.inj executed
      exact ⟨rfl, rfl, by rw [published, if_neg other, List.append_nil]⟩
  | signInternalToken data =>
    simp only [execTotal] at executed
    split at executed
    · cases Option.some.inj executed
      exact ⟨rfl, rfl, (List.append_nil _).symm⟩
    · contradiction
  | notificationCreate data =>
    simp only [execTotal, Option.map_eq_some_iff] at executed
    obtain ⟨notifications, _, same⟩ := executed
    cases same
    exact ⟨rfl, rfl, (List.append_nil _).symm⟩
  | notificationUpdate id readAt =>
    simp only [execTotal] at executed
    split at executed <;>
      (cases Option.some.inj executed; exact ⟨rfl, rfl, (List.append_nil _).symm⟩)

/-- The registry is no command's, and the stream grows by what is published. -/
theorem exec_sends {c : LoopCmd BellApi} {r : Except Exn c.Resp}
    (executed : exec platform choice s c = some (r, s')) :
    s'.emitted = emissions s c ++ s.emitted ∧ s'.connected = s.connected ∧
      (s'.js.stream = s.js.stream ++ published c ∨ r.isOk = false ∧
        s'.js.stream = s.js.stream) := by
  cases c with
  | own delivery c =>
    have executed : execOwn platform choice s c = some (r, s') := executed
    unfold execOwn at executed
    split at executed
    · obtain ⟨sent, registry, stream⟩ := @execTotal_sends _ _ _ _ delivery _ _ executed
      exact ⟨sent, registry, .inl stream⟩
    · split at executed
      · rename_i e fault rejected
        cases Option.some.inj executed
        refine ⟨?_, rfl, .inr ⟨rfl, rfl⟩⟩
        cases c <;> first | rfl | contradiction
      · contradiction
  | aborted | getConsumer | fetch | next | ack | nak =>
    simp only [exec, Option.map_eq_some_iff] at executed
    obtain ⟨⟨_, js⟩, moved, same⟩ := executed
    cases same
    obtain rfl | ⟨_, _, rfl⟩ :=
      JetStream.exec_effect moved <;> exact ⟨rfl, rfl, .inl (List.append_nil _).symm⟩

/-- Time and connections leave the rows, the stream and what was sent alone. -/
theorem act_kept {a : EnvAct} (acted : act a s = some s') :
    s'.notifications = s.notifications ∧ s'.emitted = s.emitted ∧ s'.js = s.js := by
  cases a with
  | tick ms =>
    cases Option.some.inj acted
    exact ⟨rfl, rfl, rfl⟩
  | connect connection =>
    obtain ⟨connected, -, rfl⟩ := Option.map_eq_some_iff.mp acted
    exact ⟨rfl, rfl, rfl⟩
  | disconnect connection =>
    simp only [act] at acted
    split at acted <;> (cases Option.some.inj acted; exact ⟨rfl, rfl, rfl⟩)

end Commands

section Runs

variable {platform : Platform}
  {cond : BellJournal → BellPool → Option BellEntry → BellPool → Prop}
  {init : Store → Prop} {journal : BellJournal} {pool : BellPool}

theorem exec_own {choice : Choice} {s s' : Store} {delivery : Option Nat} {c : BellCmd}
    {r : Except Exn c.Resp}
    (executed : (bellSystem platform).exec (.own delivery c) choice s = some (r, s')) :
    execOwn platform choice s c = some (r, s') := executed

theorem exec_grows (c : LoopCmd BellApi) (choice : Choice) (s : Store)
    (r : Except Exn c.Resp) (s' : Store)
    (executed : (bellSystem platform).exec c choice s = some (r, s')) : Grows s s' := by
  have executed : exec platform choice s c = some (r, s') := executed
  cases c with
  | own delivery c => exact (execOwn_effect executed).grows
  | aborted | getConsumer | fetch | next | ack | nak =>
    simp only [exec, Option.map_eq_some_iff] at executed
    obtain ⟨⟨_, js⟩, _, same⟩ := executed
    cases same
    exact .of_eq rfl

/-- What was stored at an entry is still there. -/
theorem grows_since (recorded : (bellSystem platform).Recorded cond init journal pool)
    {e : BellEntry} (member : e ∈ journal) : Grows e.after pool.store :=
  recorded.since Grows.refl Grows.trans exec_grows
    (fun _ _ _ acted => .of_eq (act_kept acted).1) member

/-- A handled command is recorded. -/
theorem entry_of_handled (recorded : (bellSystem platform).Recorded cond init journal pool)
    {t : Nat} {th : Thread (Loop BellApi) Exn BellCall Unit} {handled : List Ev}
    (found : pool.thread? t = some th) (executed : th.trace = onBehalf none handled) {e : Ev}
    (member : e ∈ handled) :
    ∃ entry ∈ journal, entry.call = t ∧ entry.event = ⟨.own none e.cmd, e.resp⟩ := by
  refine (recorded.mem_trace found).mp ?_
  rw [executed]
  exact List.mem_map.mpr ⟨e, member, rfl⟩

theorem honest_handled (recorded : (bellSystem platform).Recorded cond init journal pool) {t : Nat}
    {th : Thread (Loop BellApi) Exn BellCall Unit} {handled : List Ev}
    (found : pool.thread? t = some th) (executed : th.trace = onBehalf none handled) :
    Honest platform handled := by
  constructor
  · intro e member err failed
    obtain ⟨⟨call, event, before, after⟩, recordedEntry, -, rfl⟩ :=
      entry_of_handled recorded found executed member
    obtain ⟨choice, ran⟩ := recorded.executed recordedEntry
    have ran := exec_own ran
    simp only [failed] at ran
    exact execOwn_error ran
  · intro data token member
    obtain ⟨⟨call, event, before, after⟩, recordedEntry, -, rfl⟩ :=
      entry_of_handled recorded found executed member
    obtain ⟨choice, ran⟩ := recorded.executed recordedEntry
    exact exec_token (exec_own ran)

def ownEvent? : Event (Loop BellApi) Exn → Option Ev
  | ⟨.own _ c, r⟩ => some ⟨c, r⟩
  | _ => none

/-- What a call has executed by itself, latest first. -/
def handledBy (t : Nat) (journal : BellJournal) : List Ev :=
  ((journal.filter (·.call = t)).map Entry.event).filterMap ownEvent?

theorem ownEvents_onBehalf {handled : List Ev} :
    (onBehalf none handled).filterMap ownEvent? = handled := by
  induction handled with
  | nil => rfl
  | cons e handled ih => exact congrArg (e :: ·) ih

theorem mem_handledBy {e : Ev} : e ∈ handledBy t journal ↔
    ∃ entry ∈ journal, entry.call = t ∧ ∃ delivery,
    entry.event = ⟨.own delivery e.cmd, e.resp⟩ := by
  constructor
  · intro member
    obtain ⟨event, recorded, own⟩ := List.mem_filterMap.mp member
    obtain ⟨entry, kept, rfl⟩ := List.mem_map.mp recorded
    obtain ⟨found, call⟩ := List.mem_filter.mp kept
    obtain ⟨call', ⟨cmd, resp⟩, before, after⟩ := entry
    cases cmd with
    | own delivery c =>
      cases Option.some.inj own
      exact ⟨_, found, of_decide_eq_true call, delivery, rfl⟩
    | aborted | getConsumer | fetch | next | ack | nak => contradiction
  · rintro ⟨entry, found, call, delivery, event⟩
    have kept : entry ∈ journal.filter (·.call = t) :=
      List.mem_filter.mpr ⟨found, decide_eq_true call⟩
    exact List.mem_filterMap.mpr ⟨entry.event,
      List.mem_map.mpr ⟨entry, kept, rfl⟩, by rw [event]; rfl⟩

/-- Where a call stands, from the record. -/
theorem standsAt_handledBy (recorded : (bellSystem platform).Recorded cond init journal pool)
    {th : Thread (Loop BellApi) Exn BellCall Unit} {P : List Ev → BellCmd → Prop}
    {c : LoopCmd BellApi} (found : pool.thread? t = some th) (stands : StandsAt P th.trace c) :
    ∃ own, c = .own none own ∧ P (handledBy t journal) own ∧
    Honest platform (handledBy t journal) := by
  obtain ⟨handled, own, executed, cmd, point⟩ := stands
  have same : handledBy t journal = handled := by
    rw [handledBy, recorded.trace found, executed, ownEvents_onBehalf]
  exact ⟨own, cmd, same ▸ point, same ▸ honest_handled recorded found executed⟩

/-- What a call has executed itself, at its place in the record. -/
theorem executed_handled (recorded : (bellSystem platform).Recorded cond init journal pool)
    {c : BellCmd} {r : Except Exn c.Resp} (member : (⟨c, r⟩ : Ev) ∈ handledBy t journal) :
    ∃ entry ∈ journal, entry.call = t ∧ (∃ delivery, entry.event = ⟨.own delivery c, r⟩) ∧
      ∃ choice, execOwn platform choice entry.before c = some (r, entry.after) := by
  obtain ⟨⟨call, event, before, after⟩, found, own, delivery, rfl⟩ := mem_handledBy.mp member
  obtain ⟨choice, executed⟩ := recorded.executed found
  exact ⟨_, found, own, ⟨delivery, rfl⟩, choice, exec_own executed⟩

end Runs
end CorePlatform.Bell
