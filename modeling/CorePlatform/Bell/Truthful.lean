import CorePlatform.Bell.System
import Mathlib.Data.List.Infix

/-! When an announced update is true: what the gateway sends on a message of a socket, against
the rows in the database at that moment. -/
namespace CorePlatform.Bell
open Async Relational Nats
open Gateway (HttpReply HttpResponse)

/-- The notification of the user, or each of them, is read. -/
def IsRead (userId : String) (s : Store) : Reading → Prop
  | .one id =>
      ∃ row ∈ s.notifications.rows, row.id = id ∧ row.userId = userId ∧ row.readAt.isSome = true
  | .all => ∀ row ∈ s.notifications.rows, row.userId = userId → row.readAt.isSome = true

/-- The notifications that a user has got since a state are read. -/
def IsReadSince (userId : String) (since s : Store) : Prop :=
  ∀ row ∈ s.notifications.rows, row.userId = userId →
    (∀ old ∈ since.notifications.rows, old.id ≠ row.id) →
    row.readAt.isSome = true

instance {userId : String} {s : Store} : (asked : Reading) → Decidable (IsRead userId s asked)
  | .one id => inferInstanceAs (Decidable (∃ row ∈ s.notifications.rows, row.id = id ∧ _ ∧ _))
  | .all => inferInstanceAs (Decidable (∀ row ∈ s.notifications.rows, row.userId = userId → _))

instance {userId : String} {since s : Store} : Decidable (IsReadSince userId since s) :=
  inferInstanceAs (Decidable (∀ row ∈ s.notifications.rows, row.userId = userId → _))

def announces : LoopCmd BellApi → Bool
  | .own _ (.emitToUser _ _ event _) => event = WS_NOTIFICATION_UPDATED
  | _ => false

/-- An event that has reached the sockets it was meant for. -/
def isSent : Event (Loop BellApi) Exn → Bool
  | ⟨.own _ c, r⟩ => isEmission c && r.isOk
  | _ => false

/-- A call announces an update only to the sockets of the user and only if it is true at that
moment; if it ends without one, it has sent an error to the sender and nothing else. -/
structure Truthful (journal : BellJournal) (t : Nat) (th : Thread (Loop BellApi) Exn BellCall Unit)
    (message : SocketMessage) (userId : String) : Prop where
  announced : ∀ e ∈ journal, e.call = t → announces e.event.cmd = true →
    (∃ data, e.event.cmd = .own none
      (.emitToUser message.gateway userId WS_NOTIFICATION_UPDATED data)) ∧
      ∃ asked, message.reading = some asked ∧ IsRead userId e.before asked
  otherwise : th.result?.isSome = true →
    (∀ e ∈ journal, e.call = t → announces e.event.cmd = false) →
    ∃ data, (th.trace.filter isSent).map Event.cmd =
      [.own none (.emit message.gateway message.socket.id "error" data)]

/-- The reply to the first request of a call, which is the one to mark. -/
def markReply? (t : Nat) (journal : BellJournal) : Option HttpReply :=
  match (heard (handledBy t journal)).getLast? with
  | some (.ok reply) => some reply
  | _ => none

def marksAll : Event (Loop BellApi) Exn → Bool
  | ⟨.own _ (.notificationUpdateMany ..), r⟩ => r.isOk
  | _ => false

/-- Where an update is announced, an error reply to the request to mark has come back only for
what was read anyway, and what the user has got since all were marked is read already. -/
def Heeds (t : Nat) (asked : Reading) (userId : String) : BellJournal → Prop
  | [] => True
  | e :: earlier => e.call = t → announces e.event.cmd = true → ∀ reply ∈ markReply? t earlier,
      (400 ≤ reply.status → IsRead userId e.before asked) ∧
        (reply.status < 400 → ∀ served ∈ earlier, served.call = t → marksAll served.event = true →
          IsReadSince userId served.after e.before)

instance {t : Nat} {asked : Reading} {userId : String} :
    (journal : BellJournal) → Decidable (Heeds t asked userId journal)
  | [] => inferInstanceAs (Decidable True)
  | _ :: _ => inferInstanceAs (Decidable (_ = t → _))

def Heeded (journal : BellJournal) (t : Nat) (message : SocketMessage) (userId : String) : Prop :=
  ∀ asked ∈ message.reading, ∀ rest ∈ journal.tails, Heeds t asked userId rest

instance {journal : BellJournal} {t : Nat} {message : SocketMessage} {userId : String} :
    Decidable (Heeded journal t message userId) :=
  inferInstanceAs (Decidable (∀ asked ∈ message.reading, ∀ rest ∈ journal.tails,
    Heeds t asked userId rest))

section Announced

variable {platform : Platform} {cond : BellJournal → BellPool → Option BellEntry → BellPool → Prop}
  {init : Store → Prop} {journal earlier : BellJournal} {pool : BellPool} {t : Nat}
  {th : Thread (Loop BellApi) Exn BellCall Unit} {message : SocketMessage} {userId : String}

theorem eq_of_marksAll {event : Event (Loop BellApi) Exn} (marks : marksAll event = true) :
    ∃ delivery userId readAt n, event =
      ⟨.own delivery (.notificationUpdateMany userId readAt), .ok n⟩ := by
  obtain ⟨cmd, resp⟩ := event
  cases cmd with
  | own delivery c =>
    cases c with
    | notificationUpdateMany userId readAt =>
      cases resp with
      | error e => contradiction
      | ok n => exact ⟨delivery, userId, readAt, n, rfl⟩
    | now | notificationCreate | notificationCount | notificationFindFirst | notificationUpdate
    | publish | httpRequest
    | httpReply | checkRateLimit | randomUUID | signInternalToken | emit | emitToUser =>
        contradiction
  | aborted | getConsumer | fetch | next | ack | nak => contradiction

/-- What a call that announces an update has behind it. -/
structure Announcing (platform : Platform) (earlier : BellJournal) (e : BellEntry)
    (message : SocketMessage) (userId : String) (data : Js) (asked : Reading) : Prop where
  cmd : e.event.cmd = .own none (.emitToUser message.gateway userId WS_NOTIFICATION_UPDATED data)
  asks : message.reading = some asked
  grounds : Grounds platform userId (handledBy e.call earlier) data asked
  honest : Honest platform (handledBy e.call earlier)

theorem announcing (moment : (bellSystem platform).Moment cond init earlier e pool)
    (found : pool.thread? e.call = some th) (messaged : th.request.message? platform = some message)
    (own : message.socket.user? = some userId) (announced : announces e.event.cmd = true) :
    ∃ data asked, Announcing platform earlier e message userId data asked := by
  obtain ⟨before, th₀, th', choice, recorded, store, found₀, next, executed, now, request⟩ := moment
  obtain rfl := Option.some.inj (now.symm.trans found)
  have point :=
    callPoint_message (request ▸ messaged) (recorded.reachable.point along_call found₀ next)
  obtain ⟨c, cmd, point, honest⟩ := standsAt_handledBy recorded found₀ point
  rw [cmd] at announced
  cases c with
  | emitToUser g u event data =>
    obtain ⟨rfl, user, rfl, -, asked, asks, grounds⟩ := point
    obtain rfl := Option.some.inj (own.symm.trans user)
    exact ⟨data, asked, cmd, asks, grounds, honest⟩
  | now | notificationCreate | notificationCount | notificationFindFirst | notificationUpdate
  | notificationUpdateMany
  | publish | httpRequest | httpReply | checkRateLimit | randomUUID | signInternalToken | emit =>
      contradiction

theorem Announcing.reply {data : Js} {asked : Reading}
    (announcing : Announcing platform earlier e message userId data asked) :
    ∃ reply, markReply? e.call earlier = some reply ∧ (reply.status < 400 → match asked with
      | .one id => Evidence id userId (handledBy e.call earlier)
      | .all =>
          ∃ readAt n, (⟨.notificationUpdateMany userId readAt, .ok n⟩ : Ev) ∈
            handledBy e.call earlier) := by
  obtain ⟨cmd, asks, grounds, honest⟩ := announcing
  cases asked with
  | one id =>
    obtain ⟨first, second, replies, -, evidence, -⟩ := grounds
    exact ⟨first, by rw [markReply?, replies]; rfl, evidence honest⟩
  | all =>
    obtain ⟨first, replies, -, evidence, -⟩ := grounds
    exact ⟨first, by rw [markReply?, replies]; rfl, evidence honest⟩

theorem isRead_of_evidence (recorded : (bellSystem platform).Recorded cond init journal pool)
    {id : String} (evidence : Evidence id userId (handledBy t journal)) :
    IsRead userId pool.store (.one id) := by
  obtain ⟨row, looked, read⟩ := evidence
  obtain ⟨entry, found, -, -, _, executed⟩ := executed_handled recorded looked
  obtain ⟨stored, rfl, rfl⟩ := exec_findFirst executed
  obtain ⟨row', stored', id', user', kept⟩ := grows_since recorded found row stored
  have isRead : row'.readAt.isSome = true := by
    rcases read with already | ⟨readAt, _, updated⟩
    · exact kept already
    · obtain ⟨entry', found', -, -, _, executed'⟩ := executed_handled recorded updated
      obtain ⟨stored, same, isRead⟩ := exec_notificationUpdate executed'
      obtain ⟨marked', stored'', same', -, kept'⟩ := grows_since recorded found' _ stored
      have unique : marked' = row' :=
        Table.eq_of_key stored'' stored' ((same'.trans same).trans id'.symm)
      exact unique ▸ kept' (Option.isSome_of_eq_some isRead)
  exact ⟨row', stored', id', user', isRead⟩

theorem isRead_of_marked (recorded : (bellSystem platform).Recorded cond init journal pool)
    {readAt n : Nat} (marked : (⟨.notificationUpdateMany userId readAt, .ok n⟩ : Ev) ∈
      handledBy t journal)
    (since : ∀ served ∈ journal, served.call = t → marksAll served.event = true →
      IsReadSince userId served.after pool.store) :
    IsRead userId pool.store .all := by
  obtain ⟨served, found, own, ⟨delivery, event⟩, _, executed⟩ := executed_handled recorded marked
  have new : IsReadSince userId served.after pool.store :=
    since served found own (by rw [event]; rfl)
  intro row stored user
  by_cases known : ∀ old ∈ served.after.notifications.rows, old.id ≠ row.id
  · exact new row stored user known
  · simp only [not_forall, not_not] at known
    obtain ⟨old, stored', same⟩ := known
    obtain ⟨kept, stored'', id', user', read⟩ := grows_since recorded found old stored'
    obtain rfl : kept = row := Table.eq_of_key stored'' stored (id'.trans same)
    have marked : old.readAt.isSome = true :=
      exec_notificationUpdateMany executed old stored' (user'.symm.trans user)
    exact read marked

/-- An announced update is true exactly if the reply to the request to mark was heeded. -/
theorem Announcing.isRead_iff {data : Js} {asked : Reading}
    (announcing : Announcing platform earlier e message userId data asked)
    (recorded : (bellSystem platform).Recorded cond init earlier pool)
    (store : pool.store = e.before) (announced : announces e.event.cmd = true) :
    IsRead userId e.before asked ↔ Heeds e.call asked userId (e :: earlier) := by
  obtain ⟨reply, replied, evidence⟩ := announcing.reply
  constructor
  · intro read _ _ reply _
    constructor
    · exact fun _ => read
    · intro _ served found own marks
      cases asked with
      | all => exact fun row stored user _ => read row stored user
      | one id =>
        obtain ⟨-, -, ⟨first, second, -, -, -, -, unmarked⟩, -⟩ := announcing
        obtain ⟨delivery, userId', readAt, n, event⟩ := eq_of_marksAll marks
        exact absurd (mem_handledBy.mpr ⟨served, found, own, delivery, event⟩)
          (unmarked userId' readAt n)
  · intro heeds
    have heeded := heeds rfl announced reply replied
    by_cases refused : 400 ≤ reply.status
    · exact heeded.1 refused
    · have low : reply.status < 400 := by omega
      cases asked with
      | one id => exact store ▸ isRead_of_evidence recorded (evidence low)
      | all =>
        obtain ⟨readAt, n, marked⟩ := evidence low
        exact store ▸ isRead_of_marked recorded marked (store ▸ heeded.2 low)

theorem filter_unsent {handled : List Ev} (unsent : Unsent handled) :
    (onBehalf none handled).filter isSent = [] := by
  rw [List.filter_eq_nil_iff]
  intro event member
  obtain ⟨e, found, rfl⟩ := List.mem_map.mp member
  have silent := unsent e found
  simp only [isSent, Bool.and_eq_true, not_and, Bool.not_eq_true]
  exact silent

/-- A call that ends without an update has told its sender, and nobody else. -/
theorem sender_told (recorded : (bellSystem platform).Recorded cond init journal pool)
    (found : pool.thread? t = some th) (messaged : th.request.message? platform = some message)
    (ended : th.result?.isSome = true)
    (quiet : ∀ e ∈ journal, e.call = t → announces e.event.cmd = false) :
    ∃ data, (th.trace.filter isSent).map Event.cmd =
      [.own none (.emit message.gateway message.socket.id "error" data)] := by
  obtain ⟨r, result⟩ := Option.isSome_iff_exists.mp ended
  obtain ⟨handled, trace, ends⟩ :=
    callEnd_message messaged (recorded.reachable.returned along_call found result)
  have honest := honest_handled recorded found trace
  obtain ⟨⟨cmd, resp⟩, rest, rfl, unsent, ⟨data, error⟩ | ⟨u, data, -, update⟩⟩ := ends honest.1
  · cases error
    have sent : isSent ⟨.own none (.emit message.gateway message.socket.id "error" data),
        resp⟩ = true := by
      cases resp with
      | ok _ => rfl
      | error err => exact absurd (honest.1 _ List.mem_cons_self err rfl).1 nofun
    refine ⟨data, ?_⟩
    rw [trace, onBehalf, List.map_cons, List.filter_cons_of_pos sent, List.map_cons]
    exact congrArg (_ :: List.map Event.cmd ·) (filter_unsent unsent)
  · cases update
    obtain ⟨entry, recordedEntry, own, event⟩ :=
      entry_of_handled recorded found trace List.mem_cons_self
    have silent := quiet entry recordedEntry own
    rw [event] at silent
    contradiction

theorem announced_iff {later : BellJournal}
    (recorded : (bellSystem platform).Recorded cond init (later ++ e :: earlier) pool)
    (found : pool.thread? e.call = some th) (messaged : th.request.message? platform = some message)
    (own : message.socket.user? = some userId) (announced : announces e.event.cmd = true) :
    ∃ data asked, Announcing platform earlier e message userId data asked ∧
      (IsRead userId e.before asked ↔ Heeds e.call asked userId (e :: earlier)) := by
  have moment := recorded.rewind
  obtain ⟨data, asked, announcing⟩ := announcing moment found messaged own announced
  obtain ⟨before, _, _, _, recorded, store, _⟩ := moment
  exact ⟨data, asked, announcing, announcing.isRead_iff recorded store announced⟩

theorem updated_truthful_iff (recorded : (bellSystem platform).Recorded cond init journal pool)
    (found : pool.thread? t = some th) (messaged : th.request.message? platform = some message)
    (own : message.socket.user? = some userId) : Truthful journal t th message userId ↔
    Heeded journal t message userId := by
  constructor
  · intro truthful asked asks rest member
    cases rest with
    | nil => trivial
    | cons e earlier =>
      obtain ⟨later, rfl⟩ := (List.mem_tails _ _).mp member
      intro call announced
      subst call
      obtain ⟨_, told, announcing, readIff⟩ := announced_iff recorded found messaged own announced
      obtain rfl := Option.some.inj (announcing.asks.symm.trans asks)
      have entry : e ∈ later ++ e :: earlier := List.mem_append_right _ List.mem_cons_self
      obtain ⟨-, asked, asks', read⟩ := truthful.announced e entry rfl announced
      obtain rfl := Option.some.inj (asks'.symm.trans asks)
      exact readIff.mp read rfl announced
  · intro heeded
    constructor
    · intro e entry call announced
      obtain ⟨later, earlier, rfl⟩ := List.append_of_mem entry
      subst call
      obtain ⟨data, asked, announcing, readIff⟩ :=
        announced_iff recorded found messaged own announced
      have place : e :: earlier ∈ (later ++ e :: earlier).tails :=
        (List.mem_tails _ _).mpr (List.suffix_append _ _)
      have read := readIff.mpr (heeded asked announcing.asks _ place)
      exact ⟨⟨data, announcing.cmd⟩, asked, announcing.asks, read⟩
    · exact sender_told recorded found messaged

end Announced

section Sample

def alice : String := "3f0c7a52-9d41-4be6-8a17-5c2e9b60d1f4"

def bob : String := "b7d8e6a4-52c3-4f19-9be0-1a6d7c40f582"

def aliceNote : Notification where
  id := "c4a8e1f2-7b3d-4c5e-9f60-2a1b3c4d5e33"
  userId := alice
  type := "role"
  title := "Role assigned"
  body := none
  data := ⟨.null, Js.null_ne_undefined⟩
  createdAt := 0

def bobNote : Notification :=
  { aliceNote with id := "e7d6c5b4-1a2b-4d3c-8e9f-0a1b2c3d4e44", userId := bob }

theorem identifiers_plain : ∀ id ∈ [alice, bob, aliceNote.id, bobNote.id], '/' ∉ id.toList := by
  decide +kernel

/-- A platform that knows these identifiers and the token of a run. -/
def samplePlatform : Platform where
  jsonParse _ := none
  uuid s := s ∈ [alice, bob, aliceNote.id, bobNote.id]
  email _ := false
  datetime s := s = "1970-01-01T00:00:00.000Z"
  decrypt _ := .error (.error none "Invalid cipher text: too short (expected salt+iv+authTag+enc)")
  internalData header :=
    if header = "Bearer alice-token" then some (.obj [("userId", .str alice)]) else none
  toISOString _ := "1970-01-01T00:00:00.000Z"
  flatten _ := .obj [("formErrors", .arr []), ("fieldErrors", .obj [])]
  uuid_segment id known := identifiers_plain id (of_decide_eq_true known)

def sampleStore : Store where
  notifications := ⟨[aliceNote, bobNote], by decide⟩
  connected := ⟨[⟨1, "s1", alice⟩], by decide⟩

def Sampled (s : Store) : Prop := s = sampleStore

def aliceSocket : Socket := ⟨"s1", some ⟨alice, true⟩⟩

def readMessage (note : Notification) : SocketMessage := ⟨1, aliceSocket, some (.one note.id)⟩

/-- The socket asks for a notification to be marked as read, and its handler takes `n` steps. -/
def readSteps (note : Notification) (n : Nat) : List (Label BellCall Choice EnvAct) :=
  .spawn (.notificationRead 1 aliceSocket (.obj [("notificationId", .str note.id)])) ::
    .replicate n (.run 0 { text := "alice-token" })

/-- The first call is the one of this message. -/
def asksFor (note : Notification) (pool : BellPool) : Bool :=
  (pool.thread? 0).any fun th => th.request.message? samplePlatform = some (readMessage note)

/-- An update that the first call announces, which is true or not. -/
def announcedAs (true? : Bool) (note : Notification) (journal : BellJournal) : Bool :=
  journal.any fun e => e.call = 0 && announces e.event.cmd &&
    decide (IsRead alice e.before (.one note.id)) == true?

def Unconditional : BellJournal → BellPool → Option BellEntry → BellPool → Prop :=
  fun _ _ _ _ => True

instance (journal : BellJournal) (pool pool' : BellPool) (entry : Option BellEntry) :
    Decidable (Unconditional journal pool entry pool') := .isTrue trivial

/-- Alice asks for a notification of Bob. The reply is the error `Notification not found`, and the
count of the second request is announced. -/
theorem foreign_notification_announced : ¬ ∀ platform init journal pool t th message userId,
    (bellSystem platform).Recorded Unconditional init journal pool → pool.thread? t = some th →
      th.request.message? platform = some message → message.socket.user? = some userId →
        Truthful journal t th message userId := by
  intro truthful
  have tested : ((bellSystem samplePlatform).record Unconditional [] (System.idle sampleStore)
      (readSteps bobNote 10)).any
      (fun (journal, pool) => asksFor bobNote pool &&
        announcedAs false bobNote journal) = true := by
    decide +kernel
  obtain ⟨journal, pool, recorded, passed⟩ :=
    System.recorded_of_test (show Sampled sampleStore from rfl) tested
  obtain ⟨asks, announced⟩ := (Bool.and_eq_true _ _).mp passed
  obtain ⟨th, found, messaged⟩ := (Option.any_eq_true _ _).mp asks
  obtain ⟨e, entry, wrong⟩ := List.any_eq_true.mp announced
  simp only [Bool.and_eq_true, decide_eq_true_eq, beq_iff_eq, decide_eq_false_iff_not] at wrong
  obtain ⟨⟨call, announces⟩, unread⟩ := wrong
  have holds := truthful _ _ _ _ _ _ _ alice recorded found (of_decide_eq_true messaged) rfl
  obtain ⟨-, asked, same, read⟩ := holds.announced e entry call announces
  cases same
  exact unread read

/-- Alice asks for a notification of her own. -/
theorem own_notification_truthful :
    ∃ journal pool th, (bellSystem samplePlatform).Recorded Unconditional Sampled journal pool ∧
    pool.thread? 0 = some th ∧ announcedAs true aliceNote journal = true ∧
      Truthful journal 0 th (readMessage aliceNote) alice := by
  have tested : ((bellSystem samplePlatform).record Unconditional [] (System.idle sampleStore)
      (readSteps aliceNote 12)).any
      (fun (journal, pool) => asksFor aliceNote pool && announcedAs true aliceNote journal &&
        decide (Heeded journal 0 (readMessage aliceNote) alice)) = true := by
    decide +kernel
  obtain ⟨journal, pool, recorded, passed⟩ :=
    System.recorded_of_test (show Sampled sampleStore from rfl) tested
  simp only [Bool.and_eq_true, decide_eq_true_eq] at passed
  obtain ⟨⟨asks, announced⟩, heeded⟩ := passed
  obtain ⟨th, found, messaged⟩ := (Option.any_eq_true _ _).mp asks
  exact ⟨journal, pool, th, recorded, found, announced,
    (updated_truthful_iff recorded found (of_decide_eq_true messaged) rfl).mpr heeded⟩

end Sample
end CorePlatform.Bell
