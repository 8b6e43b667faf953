import CorePlatform.Bell.Content
import CorePlatform.WebSocket.Deployment

/-! Who is shown a notification. Over the gateway instances as they are, in any order of calls and
of clients that come and go, a socket that gets the event of a notification is a socket of the
user to whom the row belongs, and the event says what the row says. -/
namespace CorePlatform.WebSocket
open Async Relational Nats
open Bell (BellApi BellCall Choice Platform)
open SocketRegistryService CoreWebsocketGateway

section Steps

variable {platform : Platform} {cfg : WsConfig} {choice : Choice} {d d' : Deployment}
  {gateway : Nat} {socketId : String}

/-- What a command has a socket get: something for this socket, or for its user. -/
def Causes (d : Deployment) (gateway : Nat) (socketId : String) (c : LoopCmd BellApi)
    (sent : String × Js) : Prop :=
  (∃ delivery, c = .own delivery (.emit gateway socketId sent.1 sent.2)) ∨
  ∃ delivery userId, c = .own delivery (.emitToUser gateway userId sent.1 sent.2) ∧
    isOn (d.instances gateway) socketId userId = true

/-- What an instance has sent to its sockets. -/
theorem got_setInstance {g : Nat} {s : Instance} {later : List Sent}
    (sent : s.emitted = later ++ (d.instances g).emitted) :
    ∃ added, gotBy socketId ((d.setInstance g s).instances gateway).emitted =
      added ++ gotBy socketId (d.instances gateway).emitted ∧
      ∀ e ∈ added, g = gateway ∧ e ∈ gotBy socketId later := by
  by_cases here : gateway = g
  · subst here
    rw [Deployment.setInstance_self, sent, gotBy_append]
    exact ⟨_, rfl, fun e member => ⟨rfl, member⟩⟩
  · rw [Deployment.setInstance_other here]
    exact ⟨[], rfl, fun e absent => absurd absent List.not_mem_nil⟩

theorem exec_got {c : LoopCmd BellApi} {r : Except Exn c.Resp}
    (exact : ∀ gateway, Exact (d.instances gateway))
    (executed : d.exec platform choice c = some (r, d')) :
    ∃ added, gotBy socketId (d'.instances gateway).emitted =
      added ++ gotBy socketId (d.instances gateway).emitted ∧
      ∀ sent ∈ added, Causes d gateway socketId c sent := by
  by_cases service : isService c = true
  · rw [Deployment.exec_service service] at executed
    obtain ⟨⟨r', s'⟩, -, same⟩ := Option.map_eq_some_iff.mp executed
    cases same
    exact ⟨[], rfl, fun e absent => absurd absent List.not_mem_nil⟩
  · cases c with
    | aborted | getConsumer | fetch | next | ack | nak => exact absurd rfl service
    | own delivery c =>
      cases c with
      | checkRateLimit g userId =>
        cases executed
        obtain ⟨added, got, none⟩ := @got_setInstance d gateway socketId g
          (checkRateLimit (d.instances g) userId).2 [] rfl
        exact ⟨added, got, fun e member => absurd (none e member).2 List.not_mem_nil⟩
      | emit g id event data =>
        cases executed
        obtain ⟨added, got, sent⟩ := @got_setInstance d gateway socketId g
          (emit (d.instances g) id event data) [⟨id, event, data⟩] rfl
        refine ⟨added, got, fun e member => ?_⟩
        obtain ⟨rfl, member⟩ := sent e member
        rw [gotBy_cons] at member
        split at member
        · rename_i own
          cases List.mem_singleton.mp member
          exact .inl ⟨delivery, own ▸ rfl⟩
        · exact absurd member List.not_mem_nil
      | emitToUser g userId event data =>
        cases executed
        obtain ⟨added, got, sent⟩ := @got_setInstance d gateway socketId g
          (emitToUser (d.instances g) userId event data)
          (emissions (d.instances g) userId event data) (emitToUser_emitted ..)
        refine ⟨added, got, fun e member => ?_⟩
        obtain ⟨rfl, member⟩ := sent e member
        rw [gotBy_emissions (exact g)] at member
        split at member
        · rename_i on
          cases List.mem_singleton.mp member
          exact .inr ⟨delivery, userId, rfl, on⟩
        · exact absurd member List.not_mem_nil
      | now | notificationCreate | notificationCount | notificationFindFirst | notificationUpdate
      | notificationUpdateMany | publish | httpRequest | httpReply | randomUUID
      | signInternalToken => exact absurd rfl service

/-- A client that comes is greeted, and nothing else is sent when clients come and go. -/
theorem act_got {a : DeploymentAct} (acted : d.act cfg a = some d') :
    ∃ added, gotBy socketId (d'.instances gateway).emitted =
      added ++ gotBy socketId (d.instances gateway).emitted ∧ ∀ sent ∈ added, IsGreeting sent := by
  cases a with
  | tick ms =>
    cases acted
    exact ⟨[], rfl, fun e absent => absurd absent List.not_mem_nil⟩
  | disconnect g id =>
    cases acted
    obtain ⟨added, got, none⟩ := @got_setInstance d gateway socketId g
      (handleDisconnect (d.instances g) id) [] rfl
    exact ⟨added, got, fun e member => absurd (none e member).2 List.not_mem_nil⟩
  | connect g id handshake throws =>
    simp only [Deployment.act, Option.map_eq_some_iff, step] at acted
    obtain ⟨s, connected, rfl⟩ := acted
    split at connected
    · contradiction
    cases connected
    obtain ⟨event, data, greeting, emitted⟩ :=
      handleConnection_greets cfg (d.instances g) id handshake throws
    obtain ⟨added, got, sent⟩ := @got_setInstance d gateway socketId g _ [⟨id, event, data⟩] emitted
    refine ⟨added, got, fun e member => ?_⟩
    obtain ⟨rfl, member⟩ := sent e member
    rw [gotBy_cons] at member
    split at member
    · cases List.mem_singleton.mp member
      exact greeting
    · exact absurd member List.not_mem_nil

/-- Commands leave the sockets as they are. -/
theorem exec_sockets {c : LoopCmd BellApi} {r : Except Exn c.Resp}
    (executed : d.exec platform choice c = some (r, d')) :
    (d'.instances gateway).sockets = (d.instances gateway).sockets := by
  have kept : ∀ g s, s.sockets = (d.instances g).sockets →
      ((d.setInstance g s).instances gateway).sockets = (d.instances gateway).sockets := by
    intro g s same
    by_cases here : gateway = g
    · subst here
      rw [Deployment.setInstance_self, same]
    · rw [Deployment.setInstance_other here]
  by_cases service : isService c = true
  · rw [Deployment.exec_service service] at executed
    obtain ⟨⟨r', s'⟩, -, same⟩ := Option.map_eq_some_iff.mp executed
    cases same
    rfl
  · cases c with
    | aborted | getConsumer | fetch | next | ack | nak => exact absurd rfl service
    | own delivery c =>
      cases c with
      | checkRateLimit | emit =>
        cases executed
        exact kept _ _ rfl
      | emitToUser g userId event data =>
        cases executed
        exact kept _ _ (emitToUser_frame (d.instances g) userId event data).2
      | now | notificationCreate | notificationCount | notificationFindFirst | notificationUpdate
      | notificationUpdateMany | publish | httpRequest | httpReply | randomUUID
      | signInternalToken => exact absurd rfl service

theorem isOn_setInstance {g : Nat} {s : Instance} {userId : String}
    (on : isOn ((d.setInstance g s).instances gateway) socketId userId = true) :
    isOn (d.instances gateway) socketId userId = true ∨
      g = gateway ∧ isOn s socketId userId = true := by
  by_cases here : gateway = g
  · subst here
    rw [Deployment.setInstance_self] at on
    exact .inr ⟨rfl, on⟩
  · rw [Deployment.setInstance_other here] at on
    exact .inl on

/-- A socket is on as a user from the moment at which its client comes with a token of the user. -/
theorem act_isOn {a : DeploymentAct} {userId : String} (named : SubsPresent cfg d a)
    (acted : d.act cfg a = some d') (on : isOn (d'.instances gateway) socketId userId = true) :
    isOn (d.instances gateway) socketId userId = true ∨ ∃ handshake throws payload,
      a = .connect gateway socketId handshake throws ∧
      authenticated cfg (d.instances gateway).now handshake = some payload ∧
      payload.sub = some userId := by
  cases a with
  | tick ms =>
    cases acted
    exact .inl on
  | disconnect g id =>
    cases acted
    obtain kept | ⟨rfl, there⟩ := isOn_setInstance on
    · exact .inl kept
    · rw [isOn_disconnect] at there
      split at there
      · contradiction
      · exact .inl there
  | connect g id handshake throws =>
    simp only [Deployment.act, Option.map_eq_some_iff, step] at acted
    obtain ⟨s, connected, rfl⟩ := acted
    split at connected
    · contradiction
    cases connected
    obtain kept | ⟨rfl, there⟩ := isOn_setInstance on
    · exact .inl kept
    obtain ⟨-, sockets⟩ | ⟨payload, let_in, -, sockets⟩ :=
      handleConnection_cases cfg (d.instances g) id handshake throws
    · rw [isOn_insert sockets] at there
      split at there
      · contradiction
      · exact .inl there
    · rw [isOn_insert sockets] at there
      split at there
      · rename_i same
        subst same
        obtain ⟨sub, present, -⟩ := named payload let_in
        rw [present] at there
        obtain rfl : sub = userId := of_decide_eq_true there
        exact .inr ⟨handshake, throws, payload, rfl, let_in, present⟩
      · exact .inl there

end Steps

section Runs

variable {platform : Platform} {cfg : WsConfig} {asked : BellCall → Prop}
  {pool pool' : DeploymentPool}

/-- The runs of a deployment in which these calls are made, wherever clients come and go. -/
abbrev Deployed (cfg : WsConfig) (platform : Platform) (asked : BellCall → Prop)
    (pool : DeploymentPool) : Prop :=
  (deploymentSystem cfg platform).Reachable
    ((deploymentSystem cfg platform).Asking asked (SubsPresent cfg))
    (fun d => d.Started ∧ d.js.stream = []) pool

/-- The client of a socket has come with a valid token of a user. -/
def CameAs (cfg : WsConfig) (platform : Platform) (asked : BellCall → Prop) (pool : DeploymentPool)
    (gateway : Nat) (socketId userId : String) : Prop :=
  ∃ earlier later handshake throws payload, Deployed cfg platform asked earlier ∧
    (deploymentSystem cfg platform).step earlier
      (.act (.connect gateway socketId handshake throws)) = some later ∧
    (deploymentSystem cfg platform).Run
      ((deploymentSystem cfg platform).Asking asked (SubsPresent cfg)) later pool ∧
    authenticated cfg (earlier.store.instances gateway).now handshake = some payload ∧
    payload.sub = some userId

/-- Whoever is on has come with a token. -/
theorem Deployed.came (reachable : Deployed cfg platform asked pool) {gateway : Nat}
    {socketId userId : String}
    (on : isOn (pool.store.instances gateway) socketId userId = true) :
    CameAs cfg platform asked pool gateway socketId userId := by
  obtain ⟨d, start, run⟩ := reachable
  induction run with
  | refl =>
    rw [System.idle, start.1 gateway] at on
    contradiction
  | @tail pool pool' earlier last ih =>
    obtain ⟨label, stepped, met⟩ := last
    have before : isOn (pool.store.instances gateway) socketId userId = true →
        CameAs cfg platform asked pool' gateway socketId userId := by
      intro on
      obtain ⟨first, later, handshake, throws, payload, came, connected, run, token, sub⟩ := ih on
      exact ⟨first, later, handshake, throws, payload, came, connected,
        run.tail ⟨label, stepped, met⟩, token, sub⟩
    have effect := System.step_effect stepped
    cases effect with
    | spawn q => exact before on
    | act a d' acted =>
      obtain old | ⟨handshake, throws, payload, rfl, token, sub⟩ := act_isOn met acted on
      · exact before old
      · exact ⟨pool, _, handshake, throws, payload, ⟨d, start, earlier⟩, stepped, .refl, token, sub⟩
    | run u choice th c k r d' found awaits executed =>
      refine before ?_
      rw [isOn, ← exec_sockets executed]
      exact on

/-- A deployment is the bell, with an empty stream at the start. -/
theorem Deployed.image (reachable : Deployed cfg platform asked pool) :
    ∃ image, Bell.Asked platform asked (fun t => t.js.stream = []) image ∧
      image.threads = pool.threads ∧ Shows pool.store image.store := by
  refine deployment_refines.reachable ?_ reachable
  rintro d ⟨started, empty⟩
  exact ⟨d.services, empty, shows_started started⟩

/-- What a command has a socket get about a notification is what a row of the user says. -/
theorem Deployed.causes (reachable : Deployed cfg platform asked pool)
    (parsed : Bell.ObjectsParsed platform) (genuine : Bell.Genuine asked)
    (found : pool.thread? t = some th) (next : th.next? = some c) {gateway : Nat}
    {socketId : String} {data : Js}
    (causes : Causes pool.store gateway socketId c (Bell.WS_NOTIFICATION_NEW, data)) :
    ∃ userId, isOn (pool.store.instances gateway) socketId userId = true ∧
      Bell.OfRow pool.store.services userId data := by
  obtain ⟨image, reached, threads, shows⟩ := reachable.image
  have found' : image.thread? t = some th := by
    rw [Pool.thread?, threads]
    exact found
  obtain ⟨delivery, rfl⟩ | ⟨delivery, userId, rfl, on⟩ := causes
  · have error := reached.emits_error found' next
    have different : Bell.WS_NOTIFICATION_NEW ≠ "error" := by decide
    exact absurd error different
  · have ofRow := reached.sends_row parsed genuine (fun _ empty => empty) found' next
    rw [Bell.OfRow, shows.notifications] at ofRow
    exact ⟨userId, on, ofRow⟩

/-- Whatever calls are made of the bell, and wherever clients come and go: where a step has a socket
get the event of a notification, there is a row of that notification, the socket is on as the user
whose row it is, its client has come with a valid token of that user, and the event says what the
row says. -/
theorem notified_of_own_rows (parsed : Bell.ObjectsParsed platform) (genuine : Bell.Genuine asked)
    (reachable : Deployed cfg platform asked pool)
    {label : Label BellCall (deploymentSystem cfg platform).Choice
      (deploymentSystem cfg platform).Act}
    (stepped : (deploymentSystem cfg platform).step pool label = some pool') {gateway : Nat}
    {socketId : String} {added : List (String × Js)}
    (got : gotBy socketId (pool'.store.instances gateway).emitted =
      added ++ gotBy socketId (pool.store.instances gateway).emitted) {data : Js}
    (shown : (Bell.WS_NOTIFICATION_NEW, data) ∈ added) :
    ∃ row ∈ pool.store.notifications,
      isOn (pool.store.instances gateway) socketId row.userId = true ∧
      CameAs cfg platform asked pool gateway socketId row.userId ∧
      ∃ body createdAt count, row.body = some body ∧
        data = Bell.newContent row body createdAt count := by
  have effect := System.step_effect stepped
  cases effect with
  | spawn q =>
    rw [List.self_eq_append_left.mp got] at shown
    exact absurd shown List.not_mem_nil
  | act a d acted =>
    obtain ⟨added', got', greetings⟩ := @act_got cfg _ _ gateway socketId _ acted
    rw [List.append_cancel_right (got.symm.trans got')] at shown
    obtain ⟨_, authenticated⟩ | ⟨message, -, error⟩ := greetings _ shown
    · exact absurd (Prod.mk.inj authenticated).1 (by decide)
    · exact absurd (Prod.mk.inj error).1 (by decide)
  | run u choice th c k r d found awaits executed =>
    obtain ⟨image, -, -, shows⟩ := reachable.image
    obtain ⟨added', got', caused⟩ := @exec_got platform choice _ _ gateway socketId c r
      (fun gateway => (shows.instances gateway).exact) executed
    rw [List.append_cancel_right (got.symm.trans got')] at shown
    have next : th.next? = some c := by rw [Thread.next?, awaits]
    obtain ⟨userId, on, row, stored, rfl, said⟩ :=
      reachable.causes parsed genuine found next (caused _ shown)
    exact ⟨row, stored, on, reachable.came on, said⟩

end Runs

section Sample

/-- The data to be stored is a value of JSON. -/
def isGenuine : BellCall → Bool
  | .createNoti payLoad => JSON.isValue payLoad.data
  | .notificationRead .. | .notificationReadAll .. | .consume _ => true

/-- Alice is online, gets a notification, and an instance handles its event up to the push. -/
def pushSteps : List (Label BellCall Choice DeploymentAct) :=
  [.act (.connect 1 "s1" { query := some (tokenOf Bell.alice) } false),
    .spawn (.createNoti (Bell.roleNotice (some "You are an editor"))),
    .run 0 { id := Bell.aliceNote.id }, .run 0 {}, .run 0 {}, .run 0 {},
    .spawn (.consume 1), .run 1 {}, .run 1 {}, .run 1 {}, .run 1 { message := some 0 }, .run 1 {}]

/-- What is published of the notification. -/
def editorEvent : Js :=
  Bell.NotificationCreatedEvent.toJs
    { notificationId := Bell.aliceNote.id, userId := Bell.alice, type := "role"
      title := "Role assigned", body := some "You are an editor", data := .null
      actionCreatedAt := "1970-01-01T00:00:00.000Z", unreadCount := .num "1" }

/-- The same platform, of which what it reads of that event is looked up. -/
def knowingPlatform : Bell.Platform :=
  { Bell.parsingPlatform with
    jsonParse := fun text => if text = editorEvent.stringify.getD "undefined" then
        some (JSON.decoded editorEvent)
      else JSON.parse text }

theorem knowingPlatform_eq : knowingPlatform = Bell.parsingPlatform := by
  have parses : knowingPlatform.jsonParse = JSON.parse := by
    funext text
    simp only [knowingPlatform]
    split
    · rename_i published
      rw [published]
      exact (JSON.parse_stringify (by decide +kernel : JSON.isValue editorEvent = true) rfl).symm
    · rfl
  calc knowingPlatform
    _ = { Bell.parsingPlatform with jsonParse := knowingPlatform.jsonParse } := rfl
    _ = Bell.parsingPlatform := by rw [parses]; rfl

/-- What the tab gets with the next step. -/
def pushed (pool : DeploymentPool) : Option (String × Js) := do
  let pool' ← (deploymentSystem {} Bell.parsingPlatform).step pool (.run 1 {})
  let after := gotBy "s1" (pool'.store.instances 1).emitted
  if after.tail = gotBy "s1" (pool.store.instances 1).emitted then after.head? else none

theorem eq_of_pushed {pool : DeploymentPool} {sent : String × Js} (got : pushed pool = some sent) :
    ∃ pool', (deploymentSystem {} Bell.parsingPlatform).step pool (.run 1 {}) = some pool' ∧
      gotBy "s1" (pool'.store.instances 1).emitted =
        [sent] ++ gotBy "s1" (pool.store.instances 1).emitted := by
  obtain ⟨pool', stepped, got⟩ := Option.bind_eq_some_iff.mp got
  refine ⟨pool', stepped, ?_⟩
  dsimp only at got
  split at got
  · rename_i earlier
    rw [← earlier]
    exact (List.cons_head?_tail got).symm
  · contradiction

/-- The tab gets the event of the row. -/
theorem notified_of_own_rows_sample : ∃ pool : DeploymentPool, ∃ data,
    pushed pool = some (Bell.WS_NOTIFICATION_NEW, data) ∧
    data.get "title" = .str "Role assigned" ∧ ∃ row ∈ pool.store.notifications,
      isOn (pool.store.instances 1) "s1" row.userId = true ∧
      CameAs {} Bell.parsingPlatform (fun q => isGenuine q = true) pool 1 "s1" row.userId ∧
      ∃ body createdAt count, row.body = some body ∧
        data = Bell.newContent row body createdAt count := by
  have tested : ((deploymentSystem {} Bell.parsingPlatform).replay
      ((deploymentSystem {} Bell.parsingPlatform).Asking
        (fun q => isGenuine q = true) (SubsPresent {}))
      (System.idle { instances := fun _ => {} }) pushSteps).any (fun pool => (pushed pool).any
        fun sent => sent.1 = Bell.WS_NOTIFICATION_NEW &&
          sent.2.get "title" = .str "Role assigned") = true := by
    unfold pushed
    rw [← knowingPlatform_eq]
    decide +kernel
  obtain ⟨pool, run, passed⟩ := System.run_of_replay tested
  obtain ⟨⟨event, data⟩, got, passed⟩ := (Option.any_eq_true _ _).mp passed
  obtain ⟨isNew, title⟩ := (Bool.and_eq_true _ _).mp passed
  obtain rfl : event = Bell.WS_NOTIFICATION_NEW := of_decide_eq_true isNew
  obtain ⟨pool', stepped, grown⟩ := eq_of_pushed got
  exact ⟨pool, data, got, of_decide_eq_true title, notified_of_own_rows
    (Bell.objectsParsed_of_parse rfl) (fun _ genuine => genuine) ⟨_, ⟨fun _ => rfl, rfl⟩, run⟩
    stepped grown (List.mem_singleton_self _)⟩

end Sample

end CorePlatform.WebSocket
