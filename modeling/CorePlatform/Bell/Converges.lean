import CorePlatform.Bell.Truthful
import CorePlatform.Common.Json

/-! When the counts that a socket is shown converge to what its user has to read. Counts reach a
socket by two ways, the stream and the handlers of messages, and carry no version; so the record
of a run says when each was taken, and what has changed since. -/
namespace CorePlatform.Bell
open Async Relational Nats

/-- `JSON.parse` gives back the count of an event, which a number holds exactly. -/
def CountsParsed (platform : Platform) : Prop :=
  ∀ (event : NotificationCreatedEvent) (v : Js), ∀ n ≤ 2 ^ 53,
    event.unreadCount = .num (toString n) →
    platform.jsonParse (event.toJs.stringify.getD "undefined") = some v →
    v.get "unreadCount" = .num (toString n)

/-- The events that carry a count. -/
def showsCount (event : String) : Bool :=
  event = WS_NOTIFICATION_NEW || event = WS_NOTIFICATION_UPDATED

def reaches (c : Connection) (e : Emission) : Bool :=
  (e.gateway, e.socketId) = c.key && showsCount e.event

/-- The last `unreadCount` that a socket has been sent. -/
def lastCount (c : Connection) (s : Store) : Option Js :=
  (s.emitted.find? (reaches c)).map fun e => e.data.get "unreadCount"

/-- A socket that has been sent a count was last sent the number of unread notifications. -/
def Converged (c : Connection) (s : Store) : Prop :=
  ∀ count ∈ lastCount c s, count = .num (toString (unread c.userId s).length)

/-- The commands that send to the sockets of the user at the instance of a connection. -/
def pushes (c : Connection) : LoopCmd BellApi → Bool
  | .own _ (.emitToUser gateway userId _ _) => gateway = c.gateway && userId = c.userId
  | _ => false

/-- The handler of a message has pushed it. -/
def handles (seq : Nat) : LoopCmd BellApi → Bool
  | .own (some seq') (.emitToUser ..) => seq' = seq
  | _ => false

def informs : LoopCmd BellApi → Bool
  | .own _ c => tells c
  | _ => false

def changes (userId : String) (e : BellEntry) : Bool :=
  unread userId e.before ≠ unread userId e.after

/-- A call in progress has changed what the user has to read, and has told nobody. -/
def Owes (userId : String) (journal : BellJournal) (pool : BellPool) (t : Nat) : Prop :=
  (pool.thread? t).any (·.result?.isNone) = true ∧
    (∃ e ∈ journal, e.call = t ∧ changes userId e = true) ∧
    ∀ e ∈ journal, e.call = t → informs e.event.cmd = false

/-- A message for the user has not been pushed. -/
def Pending (platform : Platform) (userId : String) (journal : BellJournal)
    (s : Store) (seq : Nat) : Prop :=
  ((s.js.stream[seq]?).bind (readCreated platform)).any (·.userId = userId) = true ∧
    ∀ e ∈ journal, handles seq e.event.cmd = false

/-- A push for the user is still to come. -/
def Due (platform : Platform) (userId : String) (journal : BellJournal) (pool : BellPool) : Prop :=
  (∃ t < pool.threads.length, Owes userId journal pool t) ∨
    ∃ seq < pool.store.js.stream.length, Pending platform userId journal pool.store seq

/-- The responses that hold the number of unread notifications of the user, or leave none. -/
def counts (userId : String) : Event (Loop BellApi) Exn → Bool
  | ⟨.own _ (.notificationCount userId'), r⟩ => userId' = userId && r.isOk
  | ⟨.own _ (.notificationUpdateMany userId' _), r⟩ => userId' = userId && r.isOk
  | _ => false

/-- The message at `seq` of the stream was published here. -/
def publishes (seq : Nat) (e : BellEntry) : Bool :=
  published e.event.cmd ≠ [] && e.event.resp.isOk && e.before.js.stream.length = seq

/-- The call that took the count of a push: the pushing call itself, or the one that has
published the message after its count. -/
def Source (since : BellJournal) (push : BellEntry) (t : Nat) : Prop :=
  match push.event.cmd with
  | .own none _ => push.call = t
  | .own (some seq) _ => ∃ pub ∈ since, pub.call = t ∧ publishes seq pub = true
  | _ => False

/-- From a push back to where its count was taken, nothing has changed what the user has to read. -/
def Current (userId : String) (push : BellEntry) (since : BellJournal) : BellJournal → Prop
  | [] => False
  | e :: earlier => (counts userId e.event = true ∧ Source since push e.call) ∨
      (changes userId e = false ∧ Current userId push (since ++ [e]) earlier)

/-- The connection stays, and a step after which no push is due is a push of a current count to the
instance of the connection, or was not waited for and has changed nothing. -/
def Settles (platform : Platform) (c : Connection) (journal : BellJournal) (pool : BellPool)
    (entry : Option BellEntry) (pool' : BellPool) : Prop :=
  c ∈ pool'.store.connected ∧ (Due platform c.userId (entry.toList ++ journal) pool' ∨ ∀ e ∈ entry,
    if pushes c e.event.cmd then Current c.userId e [] journal
    else ¬ Due platform c.userId journal pool ∧ changes c.userId e = false)

/-- No call is in progress, and every message has been pushed. -/
structure Quiescent (platform : Platform) (journal : BellJournal) (pool : BellPool) : Prop where
  ended : ∀ t th, pool.thread? t = some th → th.result?.isSome = true
  delivered : ∀ seq text, pool.store.js.stream[seq]? = some text →
    (readCreated platform text).isSome = true → ∃ e ∈ journal, handles seq e.event.cmd = true

/-- The connection is there, and what its socket was sent before is right. -/
def Start (c : Connection) (s : Store) : Prop := c ∈ s.connected ∧ Converged c s

section Shown

variable {platform : Platform} {choice : Choice} {c : Connection} {s s' : Store}
  {cmd : LoopCmd BellApi}
  {r : Except Exn cmd.Resp}

theorem lastCount_executed (executed : exec platform choice s cmd = some (r, s')) :
    lastCount c s' = (((emissions s cmd).find? (reaches c)).map fun e =>
      e.data.get "unreadCount").or (lastCount c s) := by
  rw [lastCount, (exec_sends executed).1, List.find?_append, lastCount]
  cases (emissions s cmd).find? (reaches c) <;> rfl

/-- A push is the last count that the socket has been sent. -/
theorem lastCount_pushed {delivery : Option Nat} {event : String} {data : Js} {r : Except Exn Unit}
    (registered : c ∈ s.connected) (shows : showsCount event = true)
    (executed : exec platform choice s (.own delivery (.emitToUser c.gateway c.userId event data)) =
      some (r, s')) :
    lastCount c s' = some (data.get "unreadCount") := by
  have own : c ∈ s.getSocketsByUser c.gateway c.userId := by
    refine List.mem_filter.mpr ⟨registered, ?_⟩
    simp only [decide_true, Bool.and_self]
  have sent : ⟨c.gateway, c.socketId, event, data⟩ ∈ emissions s
      (.own delivery (.emitToUser c.gateway c.userId event data)) :=
    List.mem_map.mpr ⟨c, own, rfl⟩
  have hit : reaches c ⟨c.gateway, c.socketId, event, data⟩ = true := by
    simp only [reaches, Connection.key, decide_true, shows, Bool.and_self]
  obtain ⟨e, first⟩ := Option.isSome_iff_exists.mp (List.find?_isSome.mpr ⟨_, sent, hit⟩)
  obtain ⟨_, _, rfl⟩ := List.mem_map.mp (List.mem_of_find?_eq_some first)
  rw [lastCount_executed executed, first]
  rfl

/-- Nothing else shows a count on the socket. -/
theorem lastCount_kept (registered : c ∈ s.connected) (other : pushes c cmd = false)
    (errors : ∀ delivery gateway socketId event data,
      cmd = .own delivery (.emit gateway socketId event data) → event = "error")
    (executed : exec platform choice s cmd = some (r, s')) : lastCount c s' = lastCount c s := by
  have missed : (emissions s cmd).find? (reaches c) = none := by
    rw [List.find?_eq_none]
    intro e sent hit
    simp only [reaches, Bool.and_eq_true, decide_eq_true_eq] at hit
    obtain ⟨socket, shows⟩ := hit
    unfold emissions at sent
    split at sent
    · rename_i delivery gateway socketId event data
      obtain rfl := List.mem_singleton.mp sent
      obtain rfl := errors delivery gateway socketId event data rfl
      have silent : showsCount "error" = false := by decide
      exact absurd (silent.symm.trans shows) Bool.false_ne_true
    · obtain ⟨connection, found, rfl⟩ := List.mem_map.mp sent
      obtain ⟨stored, own⟩ := List.mem_filter.mp found
      simp only [Bool.and_eq_true, decide_eq_true_eq] at own
      obtain ⟨rfl, rfl⟩ := own
      obtain rfl : connection = c := Table.eq_of_key stored registered socket
      simp only [pushes, decide_true, Bool.and_self, Bool.true_eq_false] at other
    · exact absurd sent List.not_mem_nil
  rw [lastCount_executed executed, missed]
  rfl

end Shown

section Waiting

variable {platform : Platform} {userId : String} {journal : BellJournal} {pool pool' : BellPool}

theorem Quiescent.not_due (quiescent : Quiescent platform journal pool) :
    ¬ Due platform userId journal pool := by
  rintro (⟨t, -, inProgress, -⟩ | ⟨seq, -, unread, unhandled⟩)
  · obtain ⟨th, found, pending⟩ := (Option.any_eq_true _ _).mp inProgress
    have ended := quiescent.ended t th found
    rw [Option.isNone_iff_eq_none.mp pending] at ended
    contradiction
  · obtain ⟨payload, read, -⟩ := (Option.any_eq_true _ _).mp unread
    obtain ⟨text, published, read⟩ := Option.bind_eq_some_iff.mp read
    obtain ⟨e, member, handled⟩ :=
      quiescent.delivered seq text published (Option.isSome_of_mem read)
    exact Bool.false_ne_true ((unhandled e member).symm.trans handled)

/-- What happens around the calls settles nothing. -/
theorem Due.kept (due : Due platform userId journal pool)
    (threads : ∀ t th, pool.thread? t = some th → pool'.thread? t = some th)
    (stream : pool'.store.js = pool.store.js) (more : pool.threads.length ≤ pool'.threads.length) :
    Due platform userId journal pool' := by
  rcases due with ⟨t, bound, inProgress, rest⟩ | ⟨seq, bound, pending⟩
  · obtain ⟨th, found, result⟩ := (Option.any_eq_true _ _).mp inProgress
    refine .inl ⟨t, by omega, ?_, rest⟩
    rw [threads t th found]
    exact result
  · refine .inr ⟨seq, stream ▸ bound, ?_⟩
    unfold Pending at pending ⊢
    rw [stream]
    exact pending

end Waiting

section Counts

variable {platform : Platform} {cond : BellJournal → BellPool → Option BellEntry → BellPool → Prop}
  {init : Store → Prop} {journal later earlier : BellJournal} {pool : BellPool} {userId : String}
  {snap push : BellEntry}

/-- Where the count of a current push was taken. -/
theorem current_split {since : BellJournal} (current : Current userId push since journal)
    (quiet : ∀ l ∈ since, changes userId l = false) : ∃ later snap earlier, since ++
      journal = later ++ snap :: earlier ∧
      (∀ l ∈ later, changes userId l = false) ∧ counts userId snap.event = true ∧
      Source later push snap.call := by
  induction journal generalizing since with
  | nil => exact absurd current id
  | cons e journal ih =>
    rcases current with ⟨counted, source⟩ | ⟨same, current⟩
    · exact ⟨since, e, journal, rfl, quiet, counted, source⟩
    · have quiet' : ∀ l ∈ since ++ [e], changes userId l = false := by
        intro l member
        rcases List.mem_append.mp member with old | new
        · exact quiet l old
        · cases List.mem_singleton.mp new
          exact same
      obtain ⟨later, snap, earlier, split, rest⟩ := ih current quiet'
      exact ⟨later, snap, earlier, (List.append_cons _ _ _).trans split, rest⟩

/-- What the response of a count says of the state after it. -/
inductive Snapshot (userId : String) (snap : BellEntry) : Prop where
  | counted (delivery : Option Nat) (n : RowCount)
      (event : snap.event = ⟨.own delivery (.notificationCount userId), .ok n⟩)
      (exact : n.val = (unread userId snap.after).length) : Snapshot userId snap
  | marked (delivery : Option Nat) (readAt n : Nat)
      (event : snap.event = ⟨.own delivery (.notificationUpdateMany userId readAt), .ok n⟩)
      (none : unread userId snap.after = []) : Snapshot userId snap

theorem cases_of_counts {event : Event (Loop BellApi) Exn} (counted : counts userId event = true) :
    (∃ delivery n, event = ⟨.own delivery (.notificationCount userId), .ok n⟩) ∨
      ∃ delivery readAt n, event =
        ⟨.own delivery (.notificationUpdateMany userId readAt), .ok n⟩ := by
  obtain ⟨cmd, resp⟩ := event
  cases cmd with
  | own delivery c =>
    cases c with
    | notificationCount user =>
      obtain ⟨same, ok⟩ := (Bool.and_eq_true _ _).mp counted
      obtain rfl := of_decide_eq_true same
      cases resp with
      | error e => contradiction
      | ok n => exact .inl ⟨delivery, n, rfl⟩
    | notificationUpdateMany user readAt =>
      obtain ⟨same, ok⟩ := (Bool.and_eq_true _ _).mp counted
      obtain rfl := of_decide_eq_true same
      cases resp with
      | error e => contradiction
      | ok n => exact .inr ⟨delivery, readAt, n, rfl⟩
    | now | notificationCreate | notificationFindFirst | notificationUpdate | publish | httpRequest
    | httpReply | checkRateLimit | randomUUID | signInternalToken | emit | emitToUser => contradiction
  | aborted | getConsumer | fetch | next | ack | nak => contradiction

theorem snapshot_of_counts (recorded : (bellSystem platform).Recorded cond init journal pool)
    (member : snap ∈ journal) (counted : counts userId snap.event = true) :
    Snapshot userId snap := by
  obtain ⟨choice, executed⟩ := recorded.executed member
  obtain ⟨call, event, before, after⟩ := snap
  obtain ⟨delivery, n, rfl⟩ | ⟨delivery, readAt, n, rfl⟩ := cases_of_counts counted
  · obtain ⟨same, count⟩ : after = before ∧ n.val = (unread userId before).length :=
      exec_notificationCount (exec_own executed)
    exact .counted delivery n rfl (same ▸ count)
  · refine .marked delivery readAt n rfl ?_
    rw [unread, List.map_eq_nil_iff, List.filter_eq_nil_iff]
    intro row stored unread
    simp only [Bool.and_eq_true, decide_eq_true_eq] at unread
    have read := exec_notificationUpdateMany (exec_own executed) row stored unread.1
    rw [Option.isNone_iff_eq_none.mp unread.2] at read
    contradiction

/-- The counts that a call has taken are among what it has executed itself. -/
theorem handledBy_of_event {t : Nat} {delivery : Option Nat} {c : BellCmd} {r : Except Exn c.Resp}
    (member : snap ∈ journal) (own : snap.call = t) (event : snap.event = ⟨.own delivery c, r⟩) :
    (⟨c, r⟩ : Ev) ∈ handledBy t journal :=
  mem_handledBy.mpr ⟨snap, member, own, delivery, event⟩

/-- A handler of a message announces what its own call has counted. -/
theorem announced_count {gateway : Nat} {socketId event : String} {user : Option String}
    {reading : Option Reading} {data : Js} {g t : Nat} (snapshot : Snapshot userId snap)
    (member : snap ∈ journal) (own : snap.call = t)
    (point : SocketPoint platform gateway socketId user reading (handledBy t journal)
      (.emitToUser g userId event data)) :
    showsCount event = true ∧ data.get "unreadCount" =
      .num (toString (unread userId snap.after).length) := by
  obtain ⟨-, -, rfl, -, asked, -, grounds⟩ := point
  refine ⟨rfl, ?_⟩
  cases asked with
  | one id =>
    obtain ⟨first, second, -, rfl, -, count, unmarked⟩ := grounds
    cases snapshot with
    | counted delivery n event' exact =>
      have heard := count userId n (handledBy_of_event member own event')
      exact heard.trans (by rw [exact])
    | marked delivery readAt n event' =>
        exact absurd (handledBy_of_event member own event') (unmarked userId readAt n)
  | all =>
    obtain ⟨first, -, rfl, -, uncounted⟩ := grounds
    cases snapshot with
    | counted delivery n event' =>
        exact absurd (handledBy_of_event member own event') (uncounted userId n)
    | marked delivery readAt n event' none =>
      rw [none]
      rfl

/-- What has been published is still in the stream. -/
theorem stream_since (recorded : (bellSystem platform).Recorded cond init journal pool)
    {e : BellEntry} (member : e ∈ journal) {seq : Nat} {text : String}
    (stored : e.after.js.stream[seq]? = some text) : pool.store.js.stream[seq]? = some text := by
  have grown : e.after.js.stream <+: pool.store.js.stream := by
    refine recorded.since (R := fun s s' => s.js.stream <+: s'.js.stream)
      (fun _ => List.prefix_refl _)
      (fun _ _ _ => List.IsPrefix.trans) ?_ ?_ member
    · intro c choice s r s' executed
      rcases (exec_sends executed).2.2 with grown | ⟨-, same⟩
      · exact ⟨_, grown.symm⟩
      · exact ⟨[], (List.append_nil _).trans same.symm⟩
    · intro a s s' acted
      exact ⟨[], (List.append_nil _).trans (congrArg JetStream.stream (act_kept acted).2.2).symm⟩
  obtain ⟨rest, grown⟩ := grown
  obtain ⟨bound, -⟩ := List.getElem?_eq_some_iff.mp stored
  rw [← grown, List.getElem?_append_left bound]
  exact stored

theorem eq_of_published {cmd : LoopCmd BellApi} (nonempty : published cmd ≠ []) :
    ∃ delivery text, cmd = .own delivery (.publish NOTIFICATION_CREATED text) := by
  unfold published at nonempty
  split at nonempty
  · rename_i delivery subject text
    split at nonempty
    · rename_i created
      exact ⟨delivery, text, created ▸ rfl⟩
    · exact absurd rfl nonempty
  · exact absurd rfl nonempty

/-- Only `createNoti` publishes. -/
theorem createPoint_of_publish {trace : List (Event (Loop BellApi) Exn)} {delivery : Option Nat}
    {subject text : String} {q : BellCall}
    (point : CallPoint platform trace (.own delivery (.publish subject text)) q) :
    StandsAt CreatePoint trace (.own delivery (.publish subject text)) := by
  cases q with
  | createNoti payLoad => exact point
  | notificationRead | notificationReadAll =>
    obtain ⟨handled, own, -, same, point⟩ := point
    cases same
    exact absurd point id
  | consume gateway =>
    obtain ⟨msg, handled, -, -, payload, -, same⟩ := point
    contradiction

/-- A published message has the count that its call had taken. -/
theorem published_count {pub : BellEntry} {seq : Nat}
    (recorded : (bellSystem platform).Recorded cond init (later ++ pub :: earlier) pool)
    (publishes : publishes seq pub = true) :
    ∃ event, pub.after.js.stream[seq]? = some (event.toJs.stringify.getD "undefined") ∧
      Unmarked (handledBy pub.call earlier) ∧ Counted (handledBy pub.call earlier) event := by
  obtain ⟨before, th, _, choice, recorded, store, found, next, executed, -⟩ := recorded.rewind
  simp only [Bell.publishes, Bool.and_eq_true, decide_eq_true_eq] at publishes
  obtain ⟨⟨nonempty, ok⟩, last⟩ := publishes
  have executed : exec platform choice pub.before pub.event.cmd = some (pub.event.resp, pub.after) :=
    executed
  have stream : pub.after.js.stream = pub.before.js.stream ++ published pub.event.cmd := by
    rcases (exec_sends executed).2.2 with grown | ⟨failed, -⟩
    · exact grown
    · exact absurd (failed.symm.trans ok) Bool.false_ne_true
  obtain ⟨delivery, text, cmd⟩ := eq_of_published nonempty
  rw [cmd] at next stream
  have stands := createPoint_of_publish (recorded.reachable.point along_call found next)
  obtain ⟨own, same, point, -⟩ := standsAt_handledBy recorded found stands
  cases same
  obtain ⟨-, unmarked, event, counted, rfl⟩ := point
  refine ⟨event, ?_, unmarked, counted⟩
  rw [stream, ← last, List.getElem?_append_right (Nat.le_refl _), Nat.sub_self]
  rfl

/-- A delivered message is the one at its place in the stream. -/
theorem delivered_stored {t : Nat} {th : Thread (Loop BellApi) Exn BellCall Unit} {msg : Msg}
    (recorded : (bellSystem platform).Recorded cond init journal pool)
    (found : pool.thread? t = some th)
    (received : (⟨.next, .ok (some msg)⟩ : Event (Loop BellApi) Exn) ∈ th.trace) :
    pool.store.js.stream[msg.seq]? = some msg.text := by
  obtain ⟨⟨call, event, before, after⟩, member, -, rfl⟩ := (recorded.mem_trace found).mp received
  obtain ⟨choice, executed⟩ := recorded.executed member
  have executed : exec platform choice before .next = some (.ok (some msg), after) := executed
  have stream : after.js.stream = before.js.stream ++ [] := by
    rcases (exec_sends executed).2.2 with grown | ⟨failed, -⟩
    · exact grown
    · contradiction
  obtain ⟨⟨r, js⟩, moved, same⟩ := Option.map_eq_some_iff.mp executed
  cases same
  refine stream_since recorded member ?_
  rw [stream, List.append_nil]
  exact JetStream.exec_next moved

/-- A delivery shows the count that its message was published with. -/
theorem delivered_count {t seq g gateway : Nat} {th : Thread (Loop BellApi) Exn BellCall Unit}
    {event : String} {data : Js} {pub : BellEntry} (parsed : CountsParsed platform)
    (recorded : (bellSystem platform).Recorded cond init journal pool)
    (found : pool.thread? t = some th) (split : journal = later ++ snap :: earlier)
    (snapshot : Snapshot userId snap) (pubs : pub ∈ later) (own : pub.call = snap.call)
    (publishes : publishes seq pub = true)
    (point : LoopPoint (fun msg _ c => MessagePoint platform gateway msg c)
      (fun _ _ _ => True) th.trace
      (.own (some seq) (.emitToUser g userId event data))) :
    showsCount event = true ∧ data.get "unreadCount" =
      .num (toString (unread userId snap.after).length) := by
  obtain ⟨l, l', rfl⟩ := List.append_of_mem pubs
  have split : journal = l ++ pub :: (l' ++ snap :: earlier) := by
    rw [split, List.append_assoc, List.cons_append]
  obtain ⟨created, stored, unmarked, counted⟩ := published_count (split ▸ recorded) publishes
  have member : snap ∈ l' ++ snap :: earlier := List.mem_append_right _ List.mem_cons_self
  obtain ⟨msg, handled, same, delivered, payload, read, cmd⟩ := point
  cases same
  cases cmd
  have text : msg.text = created.toJs.stringify.getD "undefined" := by
    have known := stream_since recorded (split ▸ List.mem_append_right _ List.mem_cons_self) stored
    exact Option.some.inj ((delivered_stored recorded found delivered.received).symm.trans known)
  cases snapshot with
  | marked delivery readAt n event =>
      exact absurd (handledBy_of_event member own.symm event) (unmarked _ readAt n)
  | counted delivery n event exact =>
    have count := counted _ n (handledBy_of_event member own.symm event)
    rw [readCreated, text] at read
    obtain ⟨v, parse, accepted⟩ := Option.bind_eq_some_iff.mp read
    have shown : payload.unreadCount = .num (toString n.val) :=
      (schema_unreadCount accepted).trans (parsed created v n n.property count parse)
    exact ⟨rfl, shown.trans (by rw [exact])⟩

/-- A current push shows what the user has to read at that moment. -/
theorem current_count {t g : Nat} {delivery : Option Nat}
    {th : Thread (Loop BellApi) Exn BellCall Unit} {event : String} {data : Js}
    {r : Except Exn Unit} {s : Store} (parsed : CountsParsed platform)
    (recorded : (bellSystem platform).Recorded cond init journal pool)
    (found : pool.thread? t = some th)
    (next : th.next? = some (.own delivery (.emitToUser g userId event data)))
    (current : Current userId ⟨t, ⟨.own delivery (.emitToUser g userId event data), r⟩,
      pool.store, s⟩ [] journal) :
    showsCount event = true ∧ data.get "unreadCount" =
      .num (toString (unread userId pool.store).length) := by
  obtain ⟨later, snap, earlier, split, quiet, counted, source⟩ :=
    current_split current (fun _ absent => absurd absent List.not_mem_nil)
  have split : journal = later ++ snap :: earlier := split
  have member : snap ∈ journal := split ▸ List.mem_append_right _ List.mem_cons_self
  have snapshot := snapshot_of_counts recorded member counted
  have same : unread userId pool.store = unread userId snap.after := by
    refine (split ▸ recorded).unchanged (fun l member => ?_) fun a s s' acted => ?_
    · exact not_not.mp (of_decide_eq_false (quiet l member))
    · rw [unread, (act_kept acted).1, unread]
  rw [same]
  have point := recorded.reachable.point along_call found next
  cases request : th.request with
  | createNoti payLoad =>
    rw [request] at point
    obtain ⟨handled, own, -, same, point⟩ := point
    cases same
    exact absurd point id
  | notificationRead gateway socket body =>
    rw [request] at point
    obtain ⟨own, same, point, -⟩ := standsAt_handledBy recorded found point
    cases same
    exact announced_count snapshot member (Eq.symm source) point
  | notificationReadAll gateway socket =>
    rw [request] at point
    obtain ⟨own, same, point, -⟩ := standsAt_handledBy recorded found point
    cases same
    exact announced_count snapshot member (Eq.symm source) point
  | consume gateway =>
    rw [request] at point
    obtain ⟨msg, -, rfl, -⟩ := id point
    obtain ⟨pub, pubs, own, publishes⟩ := source
    exact delivered_count parsed recorded found split snapshot pubs own publishes point

end Counts
section Convergence

variable {platform : Platform} {c : Connection} {journal : BellJournal} {pool pool' : BellPool}

/-- The handlers send errors to a single socket, and nothing else. -/
theorem emit_error {trace : List (Event (Loop BellApi) Exn)} {delivery : Option Nat} {gateway : Nat}
    {socketId event : String} {data : Js} {q : BellCall}
    (point : CallPoint platform trace (.own delivery (.emit gateway socketId event data)) q) :
    event = "error" := by
  cases q with
  | createNoti | notificationRead | notificationReadAll =>
    obtain ⟨handled, own, -, same, point⟩ := point
    cases same
    first | exact point.2.2.1 | exact absurd point id
  | consume gateway =>
    obtain ⟨msg, handled, -, -, payload, -, same⟩ := point
    contradiction

theorem eq_of_pushes {cmd : LoopCmd BellApi} (push : pushes c cmd = true) :
    ∃ delivery event data, cmd = .own delivery (.emitToUser c.gateway c.userId event data) := by
  unfold pushes at push
  split at push
  · rename_i delivery gateway userId event data
    simp only [Bool.and_eq_true, decide_eq_true_eq] at push
    obtain ⟨rfl, rfl⟩ := push
    exact ⟨delivery, event, data, rfl⟩
  · contradiction

/-- A push leaves the rows alone. -/
theorem unread_pushed {choice : Choice} {s s' : Store} {delivery : Option Nat} {g : Nat}
    {u event userId : String} {data : Js} {r : Except Exn Unit}
    (executed : exec platform choice s (.own delivery (.emitToUser g u event data)) =
      some (r, s')) :
    unread userId s' = unread userId s := by
  have executed : execOwn platform choice s (.emitToUser g u event data) = some (r, s') := executed
  have effect := execOwn_effect executed
  cases effect with
  | kept _ _ rows => rw [unread, rows, unread]

/-- The step lemma: a command that settles leaves a push to come, or the socket is right. -/
theorem settles_executed (parsed : CountsParsed platform)
    {cond : BellJournal → BellPool → Option BellEntry → BellPool → Prop}
    {init : Store → Prop} {t : Nat} {choice : Choice} {th : Thread (Loop BellApi) Exn BellCall Unit}
    {cmd : LoopCmd BellApi} {k : Except Exn cmd.Resp → Prog (Loop BellApi) Exn Unit}
    {r : Except Exn cmd.Resp} {s : Store}
    (recorded : (bellSystem platform).Recorded cond init journal pool)
    (registered : c ∈ pool.store.connected) (earlier : Due platform c.userId journal pool ∨
      Converged c pool.store) (found : pool.thread? t = some th)
    (awaits : th.rest = .await cmd k) (executed : exec platform choice pool.store cmd = some (r, s))
    (met : if pushes c cmd then Current c.userId ⟨t, ⟨cmd, r⟩, pool.store, s⟩ [] journal
      else ¬ Due platform c.userId journal pool ∧ changes c.userId ⟨t, ⟨cmd, r⟩, pool.store, s⟩ =
        false) : Converged c s := by
  have next : th.next? = some cmd := by rw [Thread.next?, awaits]
  by_cases push : pushes c cmd = true
  · rw [if_pos push] at met
    obtain ⟨delivery, event, data, rfl⟩ := eq_of_pushes push
    obtain ⟨shows, count⟩ := current_count parsed recorded found next met
    intro last sent
    rw [lastCount_pushed registered shows executed] at sent
    rw [unread_pushed executed, ← count]
    exact (Option.some.inj sent).symm
  · rw [if_neg push] at met
    obtain ⟨settled, same⟩ := met
    have converged := earlier.resolve_left settled
    have rows : unread c.userId pool.store = unread c.userId s :=
      not_not.mp (of_decide_eq_false same)
    have kept : lastCount c s = lastCount c pool.store := by
      refine lastCount_kept registered (Bool.eq_false_iff.mpr push) ?_ executed
      rintro delivery gateway socketId event data rfl
      exact emit_error (recorded.reachable.point along_call found next)
    intro count sent
    rw [← rows]
    exact converged count (kept ▸ sent)

theorem due_or_converged (parsed : CountsParsed platform)
    (recorded : (bellSystem platform).Recorded (Settles platform c) (Start c) journal pool) :
    c ∈ pool.store.connected ∧ (Due platform c.userId journal pool ∨ Converged c pool.store) := by
  induction recorded with
  | start s initial => exact ⟨initial.1, .inr initial.2⟩
  | @step journal pool pool' entry recorded happens met ih =>
    obtain ⟨registered, earlier⟩ := ih
    obtain ⟨registered', due | settled⟩ := met
    · exact ⟨registered', .inl due⟩
    refine ⟨registered', ?_⟩
    cases happens with
    | spawn q =>
      refine earlier.imp (fun due => due.kept ?_ rfl ?_) id
      · exact fun t th found => Pool.add_old _ found
      · simp only [Pool.add, List.length_append]
        omega
    | act a s acted =>
      obtain ⟨rows, emitted, js⟩ := act_kept acted
      refine earlier.imp (fun due => due.kept (fun _ _ found => found) js (Nat.le_refl _))
        fun converged => ?_
      intro count sent
      rw [lastCount, emitted] at sent
      rw [unread, rows]
      exact converged count sent
    | run t choice th cmd k r s found awaits executed =>
      exact .inr (settles_executed parsed recorded registered earlier found awaits
        executed (settled _ rfl))

/-- In runs whose steps settle, whenever nothing is under way the socket shows the right count. -/
theorem bell_converges (parsed : CountsParsed platform)
    (recorded : (bellSystem platform).Recorded (Settles platform c) (Start c) journal pool)
    (quiescent : Quiescent platform journal pool) : Converged c pool.store :=
  (due_or_converged parsed recorded).2.resolve_left quiescent.not_due

end Convergence
section Sample

instance {platform : Platform} {userId : String} {journal : BellJournal} {pool : BellPool} :
    Decidable (Due platform userId journal pool) :=
  inferInstanceAs (Decidable ((∃ t < pool.threads.length, _ ∧
    (∃ e ∈ journal, _) ∧ ∀ e ∈ journal, _) ∨
    ∃ seq < pool.store.js.stream.length, _ ∧ ∀ e ∈ journal, _))

instance {since : BellJournal} {t : Nat} : (push : BellEntry) → Decidable (Source since push t)
  | ⟨call, ⟨.own none _, _⟩, _, _⟩ => inferInstanceAs (Decidable (call = t))
  | ⟨_, ⟨.own (some seq) _, _⟩, _, _⟩ =>
      inferInstanceAs (Decidable (∃ pub ∈ since, pub.call = t ∧ publishes seq pub = true))
  | ⟨_, ⟨.aborted, _⟩, _, _⟩ | ⟨_, ⟨.getConsumer, _⟩, _, _⟩ | ⟨_, ⟨.fetch, _⟩, _,
      _⟩ | ⟨_, ⟨.next, _⟩, _, _⟩
  | ⟨_, ⟨.ack _, _⟩, _, _⟩ | ⟨_, ⟨.nak _, _⟩, _, _⟩ => .isFalse id

instance {userId : String} {push : BellEntry} : (since journal : BellJournal) →
    Decidable (Current userId push since journal)
  | _, [] => inferInstanceAs (Decidable False)
  | since, e :: earlier =>
    have : Decidable (Current userId push (since ++ [e]) earlier) :=
      instDecidableCurrent (since ++ [e]) earlier
    inferInstanceAs (Decidable (_ ∨ _ ∧ Current userId push (since ++ [e]) earlier))

instance {platform : Platform} {c : Connection} {journal : BellJournal} {pool pool' : BellPool}
    {entry : Option BellEntry} :
    Decidable (Settles platform c journal pool entry pool') :=
  inferInstanceAs (Decidable (c ∈ pool'.store.connected ∧ (Due _ _ _ _ ∨ ∀ e ∈ entry,
    if pushes c e.event.cmd then Current c.userId e [] journal
    else ¬ Due platform c.userId journal pool ∧ changes c.userId e = false)))

theorem quiescent_of_all {platform : Platform} {journal : BellJournal} {pool : BellPool}
    (ended : ∀ th ∈ pool.threads, th.result?.isSome = true)
    (delivered : ∀ seq < pool.store.js.stream.length, ∃ e ∈ journal,
      handles seq e.event.cmd = true) :
    Quiescent platform journal pool where
  ended _ th found := ended th (List.mem_of_getElem? found)
  delivered seq _ found _ := delivered seq (List.getElem?_eq_some_iff.mp found).1

def createdText : String :=
  "\x7b\"notificationId\":\"c4a8e1f2-7b3d-4c5e-9f60-2a1b3c4d5e33\",\"userId\":\"3f0c7a52-9d41-4be6-8a17-5c2e9b60d1f4\"," ++
    "\"type\":\"role\",\"title\":\"Role assigned\",\"body\":\"You are now an editor\",\"data\":null," ++
    "\"actionCreatedAt\":\"1970-01-01T00:00:00.000Z\",\"unreadCount\":1\x7d"

/-- The platform that also knows the event of a first notification. -/
def eventPlatform : Platform :=
  { samplePlatform with
    jsonParse := fun text => if text = createdText then
        some (.obj [("notificationId", .str aliceNote.id), ("userId", .str alice),
          ("type", .str "role"),
          ("title", .str "Role assigned"), ("body", .str "You are now an editor"), ("data", .null),
          ("actionCreatedAt", .str "1970-01-01T00:00:00.000Z"), ("unreadCount", .num "1")])
      else none }

def aliceTab : Connection := ⟨1, "s1", alice⟩

def onlineStore : Store where
  connected := ⟨[aliceTab], by decide⟩

def createSteps : List (Label BellCall Choice EnvAct) :=
  [.spawn (.createNoti
    { userId := alice, type := "role", title := "Role assigned"
      body := some "You are now an editor" }),
    .run 0 { id := aliceNote.id }, .run 0 {}, .run 0 {}, .run 0 {}]

def deliverSteps (t : Nat) : List (Label BellCall Choice EnvAct) :=
  [.spawn (.consume 1), .run t {}, .run t {}, .run t {}, .run t { message := some 0 }, .run t {},
    .run t {}, .run t {}, .run t {}]

def readAllSteps (t : Nat) : List (Label BellCall Choice EnvAct) :=
  .spawn (.notificationReadAll 1 aliceSocket) :: .replicate 8 (.run t { text := "alice-token" })

/-- Whether nothing is under way, and the count that the tab was last sent. -/
def settledOn (count : Js) (record : BellJournal × BellPool) : Bool :=
  record.2.threads.all (·.result?.isSome) && lastCount aliceTab record.2.store = some count &&
    (List.range record.2.store.js.stream.length).all fun seq => record.1.any fun e =>
      handles seq e.event.cmd

theorem converged_of_settledOn {count : Js} {journal : BellJournal} {pool : BellPool}
    (settled : settledOn count (journal, pool) = true) :
    Quiescent eventPlatform journal pool ∧ lastCount aliceTab pool.store = some count := by
  simp only [settledOn, Bool.and_eq_true, decide_eq_true_eq, List.all_eq_true, List.any_eq_true,
    List.mem_range] at settled
  obtain ⟨⟨ended, last⟩, delivered⟩ := settled
  exact ⟨quiescent_of_all ended delivered, last⟩

theorem members_append (fields others : List (String × Js)) :
    Js.members (fields ++ others) = Js.members fields ++ Js.members others := by
  induction fields with
  | nil => rfl
  | cons f fields ih => rw [List.cons_append, Js.members, Js.members, ih, List.append_assoc]

/-- The text of an event ends with its count. -/
theorem stringify_count {event : NotificationCreatedEvent} {text : String}
    (count : event.unreadCount = .num text) (finite : Js.isFinite text) :
    ∃ front, event.toJs.stringify.getD "undefined" = front ++ ":" ++ text ++ "\x7d" := by
  obtain ⟨others, fields⟩ : ∃ others, event.toJs = .obj
    (others ++ [("unreadCount", .num text)]) := by
    rw [NotificationCreatedEvent.toJs, count]
    generalize all : ([_, _, _, _, _, _, _, ("unreadCount", Js.num text)] : List
      (String × Js)) = fields
    obtain ⟨others, rfl⟩ : ∃ others, fields = others ++ [("unreadCount", Js.num text)] :=
      List.getLast?_eq_some_iff.mp (all ▸ rfl)
    have defined : [("unreadCount", Js.num text)].filter (fun field => field.2 ≠ .undefined) =
        [("unreadCount", Js.num text)] := List.filter_cons_of_pos (decide_eq_true nofun)
    exact ⟨_, by rw [definedFields, List.filter_append, defined]⟩
  have last : Js.members [("unreadCount", .num text)] =
      [Js.quote "unreadCount" ++ ":" ++ text] := by
    simp only [Js.members, Js.member, Js.stringify, finite, if_true, List.append_nil]
  rw [fields, Js.stringify, members_append, last, Option.getD_some]
  by_cases first : Js.members others = []
  · rw [first, List.nil_append, String.intercalate_singleton]
    exact ⟨"\x7b" ++ Js.quote "unreadCount", by simp only [String.append_assoc]⟩
  · rw [String.intercalate_append_of_ne_nil first (List.cons_ne_nil _ _),
      String.intercalate_singleton]
    exact ⟨"\x7b" ++ ",".intercalate (Js.members others) ++ "," ++
      Js.quote "unreadCount", by simp only [String.append_assoc]⟩

/-- What stands between the last colon and the end of a text. -/
theorem eq_singleton_of_colon {digits front rest : List Char} {d : Char}
    (plain : ':' ∉ digits) (other : d ≠ ':') (same : digits ++ ':' :: front = d :: ':' :: rest) :
    digits = [d] := by
  rcases digits with _ | ⟨first, _ | ⟨second, digits⟩⟩
  · exact absurd (List.cons.inj same).1.symm other
  · rw [(List.cons.inj same).1]
  · have colon := (List.cons.inj (List.cons.inj same).2).1
    rw [colon] at plain
    exact absurd (List.mem_cons_of_mem _ List.mem_cons_self) plain

theorem counts_parsed : CountsParsed eventPlatform := by
  intro event v n _ count parse
  obtain ⟨front, text⟩ := stringify_count count (JSON.isFinite_toString n)
  simp only [eventPlatform] at parse
  split at parse
  · rename_i created
    cases parse
    have ends : createdText.toList.reverse = '\x7d' :: '1' :: ':' ::
        createdText.toList.reverse.drop 3 := by
      decide +kernel
    rw [← created, text] at ends
    simp only [String.toList_append, List.reverse_append] at ends
    have digits : (toString n).toList.reverse = ['1'] := by
      refine eq_singleton_of_colon (fun member => ?_) (by decide) (List.cons.inj ends).2
      have digit := JSON.isDigit_of_mem_toString (List.mem_reverse.mp member)
      contradiction
    have one : toString n = "1" := by
      rw [← String.toList_inj, ← List.reverse_reverse (toString n).toList, digits]
      rfl
    rw [one]
    rfl
  · contradiction

/-- The connection of the tab lasts. -/
def Lasting (c : Connection) : BellJournal → BellPool → Option BellEntry → BellPool → Prop :=
  fun _ _ _ pool' => c ∈ pool'.store.connected

instance {c : Connection} {journal : BellJournal} {pool pool' : BellPool}
    {entry : Option BellEntry} :
    Decidable (Lasting c journal pool entry pool') :=
  inferInstanceAs (Decidable (c ∈ pool'.store.connected))

theorem online_start : Start aliceTab onlineStore :=
  ⟨List.mem_singleton_self _, fun _ absent => absurd absent (Option.not_mem_none _)⟩

/-- The user reads all before the event of the notification is delivered, which then shows the
count of its creation. -/
theorem stale_count_shown : ¬ ∀ platform c journal pool, CountsParsed platform →
    (bellSystem platform).Recorded (Lasting c) (Start c) journal pool →
    Quiescent platform journal pool → Converged c pool.store := by
  intro converges
  have tested : ((bellSystem eventPlatform).record (Lasting aliceTab) [] (System.idle onlineStore)
      (createSteps ++ readAllSteps 1 ++ deliverSteps 2)).any
        (fun record => settledOn (.num "1") record &&
          decide (unread alice record.2.store = [])) = true := by
    decide +kernel
  obtain ⟨journal, pool, recorded, passed⟩ := System.recorded_of_test online_start tested
  obtain ⟨settled, none⟩ := (Bool.and_eq_true _ _).mp passed
  obtain ⟨quiescent, last⟩ := converged_of_settledOn settled
  have shown :=
    converges eventPlatform aliceTab journal pool counts_parsed recorded quiescent _ last
  have none : unread aliceTab.userId pool.store = [] := of_decide_eq_true none
  rw [none] at shown
  have text := Js.num.inj shown
  contradiction

/-- The event is delivered before the user reads all. -/
theorem delivered_then_read_all : ∃ journal pool, (bellSystem eventPlatform).Recorded
    (Settles eventPlatform aliceTab) (Start aliceTab) journal pool ∧
    lastCount aliceTab pool.store = some (.num "0") ∧ Converged aliceTab pool.store := by
  have tested : ((bellSystem eventPlatform).record (Settles eventPlatform aliceTab) []
      (System.idle onlineStore)
      (createSteps ++ deliverSteps 1 ++ readAllSteps 2)).any (settledOn (.num "0")) = true := by
    decide +kernel
  obtain ⟨journal, pool, recorded, passed⟩ := System.recorded_of_test online_start tested
  obtain ⟨quiescent, last⟩ := converged_of_settledOn passed
  exact ⟨journal, pool, recorded, last, bell_converges counts_parsed recorded quiescent⟩

end Sample
end CorePlatform.Bell
