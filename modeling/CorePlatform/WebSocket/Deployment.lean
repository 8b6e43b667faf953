import CorePlatform.Async.Refinement
import CorePlatform.Bell.Truthful
import CorePlatform.WebSocket.Exactness
import CorePlatform.WebSocket.MessageRate

/-! The bell over the gateway instances as they are. Each instance has its registry, its limits
and its sockets; together they show the table of connections over which the calls of the bell
run, and a socket gets the events of the calls in the same order, and its greetings in addition. -/
namespace CorePlatform.WebSocket
open Async Relational Nats
open Bell (BellCmd BellApi BellCall Notification Connection Choice Platform)
open SocketRegistryService CoreWebsocketGateway

/-- The services of the bell and the gateway instances. -/
structure Deployment where
  notifications : Table Notification.id := .empty
  now : Nat := 0
  js : JetStream := {}
  instances : Nat → Instance

namespace Deployment

/-- What is not in the gateway instances. -/
def services (d : Deployment) : Bell.Store :=
  { notifications := d.notifications, now := d.now, js := d.js }

def withServices (d : Deployment) (s : Bell.Store) : Deployment :=
  { d with notifications := s.notifications, js := s.js }

def setInstance (d : Deployment) (gateway : Nat) (s : Instance) : Deployment :=
  { d with instances := Function.update d.instances gateway s }

@[simp] theorem setInstance_self {d : Deployment} {gateway : Nat} {s : Instance} :
    (d.setInstance gateway s).instances gateway = s := Function.update_self ..

theorem setInstance_other {d : Deployment} {gateway other : Nat} {s : Instance}
    (different : other ≠ gateway) :
    (d.setInstance gateway s).instances other = d.instances other :=
  Function.update_of_ne different ..

/-- The commands that concern sockets go to an instance. -/
def exec (platform : Platform) (choice : Choice) (d : Deployment) :
    (c : LoopCmd BellApi) → Option (Except Exn c.Resp × Deployment)
  | .own _ (.checkRateLimit gateway userId) =>
    let (allowed, s) := checkRateLimit (d.instances gateway) userId
    some (.ok allowed, d.setInstance gateway s)
  | .own _ (.emit gateway socketId event data) =>
    some (.ok (), d.setInstance gateway (emit (d.instances gateway) socketId event data))
  | .own _ (.emitToUser gateway userId event data) =>
    some (.ok (), d.setInstance gateway (emitToUser (d.instances gateway) userId event data))
  | c => (Bell.exec platform choice d.services c).map fun (r, s) => (r, d.withServices s)

end Deployment

/-- Time, and the clients that come with a handshake and go. -/
inductive DeploymentAct where
  | tick (ms : Nat)
  | connect (gateway : Nat) (socketId : String) (handshake : Handshake) (throws : Bool)
  | disconnect (gateway : Nat) (socketId : String)

def Deployment.act (cfg : WsConfig) : DeploymentAct → Deployment → Option Deployment
  | .tick ms, d =>
    let later := fun s : Instance => { s with now := s.now + ms }
    some { d with now := d.now + ms, instances := fun gateway => later (d.instances gateway) }
  | .connect gateway socketId handshake throws, d =>
    (step cfg (d.instances gateway) (.connect socketId handshake throws)).map
      (d.setInstance gateway)
  | .disconnect gateway socketId, d =>
    (step cfg (d.instances gateway) (.disconnect socketId)).map (d.setInstance gateway)

@[reducible] def deploymentSystem (cfg : WsConfig) (platform : Platform) :
    System (Loop BellApi) Exn BellCall Unit Deployment where
  Choice := Choice
  exec c choice d := d.exec platform choice c
  body := BellCall.body platform
  Act := DeploymentAct
  act := Deployment.act cfg

abbrev DeploymentPool := Pool (Loop BellApi) Exn BellCall Unit Deployment

/-- A token that lets a socket in names its user. -/
def SubsPresent (cfg : WsConfig) (d : Deployment) : DeploymentAct → Prop
  | .connect gateway socketId handshake throws =>
      SubPresent cfg (d.instances gateway) (.connect socketId handshake throws)
  | .tick _ | .disconnect .. => True

/-- What `handleConnection` sends to a client. -/
def IsGreeting (sent : String × Js) : Prop :=
  (∃ userId : String, sent = ("authenticated",
    .obj [("userId", .str userId), ("message", .str "Connected successfully")])) ∨
  ∃ message ∈ ["Authentication required", "Invalid token", "Connection failed"],
    sent = ("error", .obj [("message", .str message)])

/-- All that a socket has got, and what calls have sent to it: the same, with greetings in
between. -/
inductive Greeted : List (String × Js) → List (String × Js) → Prop where
  | nil : Greeted [] []
  | called (e : String × Js) (earlier : Greeted all calls) : Greeted (e :: all) (e :: calls)
  | greeted (greeting : IsGreeting e) (earlier : Greeted all calls) : Greeted (e :: all) calls

/-- What the socket of an instance has got, the latest first. -/
def gotBy (socketId : String) (emitted : List Sent) : List (String × Js) :=
  (emitted.filter (·.socketId = socketId)).map fun e => (e.event, e.data)

/-- What calls have sent to a socket. -/
def sentTo (gateway : Nat) (socketId : String) (emitted : List Bell.Emission) :
    List (String × Js) :=
  (emitted.filter fun e => e.gateway = gateway && e.socketId = socketId).map fun e =>
    (e.event, e.data)

/-- An instance as the bell has it. -/
structure InstanceShown (gateway : Nat) (s : Instance) (t : Bell.Store) : Prop where
  clock : s.now = t.now
  exact : Exact s
  authenticated : ∀ socketId, ∀ data ∈ (s.sockets.lookup socketId).join,
    data.authenticated = true ∧ data.userId ≠ ""
  connected : ∀ socketId userId, (⟨gateway, socketId, userId⟩ : Connection) ∈ t.connected ↔
    isOn s socketId userId = true
  rateLimits : t.rateLimits gateway = s.rateLimits
  got : ∀ socketId, Greeted (gotBy socketId s.emitted) (sentTo gateway socketId t.emitted)

/-- A deployment as the bell has it. -/
structure Shows (d : Deployment) (t : Bell.Store) : Prop where
  notifications : t.notifications = d.notifications
  now : t.now = d.now
  js : t.js = d.js
  instances : ∀ gateway, InstanceShown gateway (d.instances gateway) t

/-- Nothing is different at a gateway. -/
structure SameAt (gateway : Nat) (t t' : Bell.Store) : Prop where
  connected : ∀ socketId userId, (⟨gateway, socketId, userId⟩ : Connection) ∈ t'.connected ↔
    (⟨gateway, socketId, userId⟩ : Connection) ∈ t.connected
  rateLimits : t'.rateLimits gateway = t.rateLimits gateway
  sent : ∀ socketId, sentTo gateway socketId t'.emitted = sentTo gateway socketId t.emitted

section Sent

variable {gateway gateway' : Nat} {socketId socketId' userId event : String} {data : Js}

theorem gotBy_append (later earlier : List Sent) :
    gotBy socketId (later ++ earlier) = gotBy socketId later ++ gotBy socketId earlier := by
  rw [gotBy, List.filter_append, List.map_append]
  rfl

theorem sentTo_append (later earlier : List Bell.Emission) :
    sentTo gateway socketId (later ++ earlier) =
      sentTo gateway socketId later ++ sentTo gateway socketId earlier := by
  rw [sentTo, List.filter_append, List.map_append]
  rfl

theorem gotBy_cons (e : Sent) (earlier : List Sent) : gotBy socketId (e :: earlier) =
    if e.socketId = socketId then (e.event, e.data) :: gotBy socketId earlier
      else gotBy socketId earlier := by
  by_cases own : e.socketId = socketId
  · simp only [gotBy, List.filter_cons, own, decide_true, if_true, List.map_cons]
  · simp only [gotBy, List.filter_cons, own, decide_false, Bool.false_eq_true, if_false]

theorem sentTo_cons (e : Bell.Emission) (earlier : List Bell.Emission) :
    sentTo gateway socketId (e :: earlier) =
      if e.gateway = gateway ∧ e.socketId = socketId then
        (e.event, e.data) :: sentTo gateway socketId earlier
      else sentTo gateway socketId earlier := by
  by_cases own : e.gateway = gateway ∧ e.socketId = socketId
  · simp only [sentTo, List.filter_cons, own.1, own.2, decide_true, Bool.and_self, if_true,
      List.map_cons, and_self]
  · have other : (decide (e.gateway = gateway) && decide (e.socketId = socketId)) = false := by
      rw [← Bool.decide_and]
      exact decide_eq_false own
    simp only [sentTo, List.filter_cons, other, own, Bool.false_eq_true, if_false]

/-- One element of a list without repetition, as often as it is there. -/
theorem filter_eq_of_nodup {α : Type} [DecidableEq α] {l : List α} (nodup : l.Nodup) (a : α) :
    l.filter (· = a) = if a ∈ l then [a] else [] := by
  rw [List.filter_eq, nodup.count]
  split <;> rfl

/-- A socket gets the event of a push once, if it is one of the user. -/
theorem gotBy_emissions {s : Instance} (exact : Exact s) :
    gotBy socketId (emissions s userId event data) =
      if isOn s socketId userId = true then [(event, data)] else [] := by
  have own : (getSocketsByUser s.registry userId).ids.filter (· = socketId) =
      if isOn s socketId userId = true then [socketId] else [] := by
    rw [filter_eq_of_nodup (getSocketsByUser s.registry userId).nodup]
    simp only [exact.maps.inverse userId socketId, exact.live socketId userId]
  rw [gotBy, emissions, List.filter_map, List.map_map]
  refine (congrArg (List.map _) own).trans ?_
  split <;> rfl

/-- The same of the table. -/
theorem sentTo_emissions (t : Bell.Store) : sentTo gateway' socketId
    ((t.getSocketsByUser gateway userId).map fun connection =>
      ⟨gateway, connection.socketId, event, data⟩) =
    if gateway = gateway' ∧ (⟨gateway, socketId, userId⟩ : Connection) ∈ t.connected then
      [(event, data)] else [] := by
  have own : (t.getSocketsByUser gateway userId).filter (fun c => decide (c.socketId = socketId)) =
      if (⟨gateway, socketId, userId⟩ : Connection) ∈ t.connected then
        [⟨gateway, socketId, userId⟩] else [] := by
    rw [Bell.Store.getSocketsByUser, List.filter_filter]
    refine Eq.trans ?_ (filter_eq_of_nodup t.connected.keyed.of_map _)
    refine List.filter_congr fun c _ => ?_
    obtain ⟨g, id, user⟩ := c
    simp only [Connection.mk.injEq]
    by_cases same : g = gateway <;> by_cases same' : id = socketId <;>
      by_cases same'' : user = userId <;> simp [same, same', same'']
  rw [sentTo, List.filter_map, List.map_map]
  by_cases here : gateway = gateway'
  · subst here
    simp only [Function.comp_def, decide_true, Bool.true_and, true_and]
    refine (congrArg (List.map _) own).trans ?_
    split <;> rfl
  · simp only [Function.comp_def, here, decide_false, Bool.false_and, List.filter_false,
      List.map_nil, false_and, if_false]

end Sent

section Parts

variable {d : Deployment} {t t' : Bell.Store} {gateway : Nat} {s : Instance}

theorem InstanceShown.kept (shown : InstanceShown gateway s t) (same : SameAt gateway t t')
    (now : t'.now = t.now) : InstanceShown gateway s t' where
  clock := shown.clock.trans now.symm
  exact := shown.exact
  authenticated := shown.authenticated
  connected socketId userId :=
    (same.connected socketId userId).trans (shown.connected socketId userId)
  rateLimits := same.rateLimits.trans shown.rateLimits
  got socketId := same.sent socketId ▸ shown.got socketId

/-- A change at one gateway. -/
theorem Shows.setInstance (shows : Shows d t) (rows : t'.notifications = t.notifications)
    (now : t'.now = t.now) (js : t'.js = t.js) (shown : InstanceShown gateway s t')
    (others : ∀ other, other ≠ gateway → SameAt other t t') :
    Shows (d.setInstance gateway s) t' where
  notifications := rows.trans shows.notifications
  now := now.trans shows.now
  js := js.trans shows.js
  instances other := by
    by_cases here : other = gateway
    · subst here
      rw [Deployment.setInstance_self]
      exact shown
    · rw [Deployment.setInstance_other here]
      exact (shows.instances other).kept (others other here) now

/-- What is sent at one gateway is sent at no other. -/
theorem sameAt_emitted {later : List Bell.Emission} {other : Nat}
    (sent : t'.emitted = later ++ t.emitted) (connected : t'.connected = t.connected)
    (limits : t'.rateLimits other = t.rateLimits other)
    (elsewhere : ∀ e ∈ later, e.gateway ≠ other) : SameAt other t t' where
  connected _ _ := by rw [connected]
  rateLimits := limits
  sent socketId := by
    have none : sentTo other socketId later = [] := by
      have skipped : later.filter (fun e => decide (e.gateway = other) &&
          decide (e.socketId = socketId)) = [] := by
        refine List.filter_eq_nil_iff.mpr fun e member => ?_
        simp only [elsewhere e member, decide_false, Bool.false_and, Bool.false_eq_true,
          not_false_eq_true]
      rw [sentTo, skipped, List.map_nil]
    rw [sent, sentTo_append, none, List.nil_append]

end Parts

section Commands

variable {platform : Platform} {choice : Choice} {d d' : Deployment} {t t' s s' : Bell.Store}

/-- The sockets of another store. -/
def withSockets (s t : Bell.Store) : Bell.Store :=
  { s with connected := t.connected, rateLimits := t.rateLimits, emitted := t.emitted }

/-- A command that concerns no socket. -/
def isService : LoopCmd BellApi → Bool
  | .own _ (.checkRateLimit ..) | .own _ (.emit ..) | .own _ (.emitToUser ..) => false
  | _ => true

theorem execTotal_withSockets {c : BellCmd} {r : Except Exn c.Resp}
    (service : isService (.own none c) = true)
    (executed : Bell.execTotal platform choice s c = some (r, s')) :
    Bell.execTotal platform choice (withSockets s t) c = some (r, withSockets s' t) := by
  cases c with
  | checkRateLimit | emit | emitToUser => contradiction
  | now | notificationFindFirst | notificationUpdateMany | httpRequest | httpReply | randomUUID =>
    cases executed
    rfl
  | notificationCount u =>
    simp only [Bell.execTotal] at executed ⊢
    split at executed
    · rename_i exact
      cases executed
      exact dif_pos exact
    · contradiction
  | notificationCreate data =>
    simp only [Bell.execTotal, Option.map_eq_some_iff] at executed ⊢
    obtain ⟨notifications, inserted, same⟩ := executed
    cases same
    exact ⟨notifications, inserted, rfl⟩
  | notificationUpdate id readAt =>
    have same : (withSockets s t).notifications = s.notifications := rfl
    cases found : s.notifications.rows.find? (·.id = id) with
    | none =>
      simp only [Bell.execTotal, found] at executed
      cases executed
      simp only [Bell.execTotal, same, found]
    | some row =>
      simp only [Bell.execTotal, found] at executed
      cases executed
      simp only [Bell.execTotal, same, found]
      rfl
  | publish subject text =>
    simp only [Bell.execTotal] at executed ⊢
    split at executed
    · rename_i announced
      cases executed
      rw [if_pos announced]
      rfl
    · rename_i other
      cases executed
      rw [if_neg other]
  | signInternalToken data =>
    simp only [Bell.execTotal] at executed ⊢
    split at executed
    · rename_i accepted
      cases executed
      rw [if_pos accepted]
    · contradiction

/-- Such a command neither sees nor changes the sockets. -/
theorem exec_withSockets {c : LoopCmd BellApi} {r : Except Exn c.Resp}
    (service : isService c = true) (executed : Bell.exec platform choice s c = some (r, s')) :
    Bell.exec platform choice (withSockets s t) c = some (r, withSockets s' t) := by
  cases c with
  | aborted | getConsumer | fetch | next | ack | nak =>
    simp only [Bell.exec, Option.map_eq_some_iff] at executed ⊢
    obtain ⟨⟨_, js⟩, answered, same⟩ := executed
    cases same
    exact ⟨_, answered, rfl⟩
  | own delivery c =>
    have own : isService (.own none c) = true := by
      cases c <;> first | rfl | exact service
    simp only [Bell.exec, Bell.execOwn] at executed ⊢
    split at executed
    · exact execTotal_withSockets own executed
    · split at executed
      · rename_i failed
        cases executed
        rw [if_pos failed]
      · contradiction

theorem execTotal_now {c : BellCmd} {r : Except Exn c.Resp}
    (executed : Bell.execTotal platform choice s c = some (r, s')) : s'.now = s.now := by
  cases c with
  | now | notificationFindFirst | notificationUpdateMany | httpRequest | httpReply | randomUUID
  | checkRateLimit | emit | emitToUser =>
    cases executed
    rfl
  | notificationCount =>
    simp only [Bell.execTotal] at executed
    split at executed
    · cases executed
      rfl
    · contradiction
  | notificationCreate data =>
    obtain ⟨_, _, same⟩ := Option.map_eq_some_iff.mp executed
    cases same
    rfl
  | notificationUpdate | publish | signInternalToken =>
    simp only [Bell.execTotal] at executed
    split at executed <;> cases executed <;> rfl

/-- Commands take no time. -/
theorem exec_now {c : LoopCmd BellApi} {r : Except Exn c.Resp}
    (executed : Bell.exec platform choice s c = some (r, s')) : s'.now = s.now := by
  cases c with
  | aborted | getConsumer | fetch | next | ack | nak =>
    simp only [Bell.exec, Option.map_eq_some_iff] at executed
    obtain ⟨_, _, same⟩ := executed
    cases same
    rfl
  | own delivery c =>
    simp only [Bell.exec, Bell.execOwn] at executed
    split at executed
    · exact execTotal_now executed
    · split at executed <;> cases executed
      rfl

theorem Deployment.exec_service {c : LoopCmd BellApi} (service : isService c = true) :
    d.exec platform choice c =
      (Bell.exec platform choice d.services c).map fun (r, s) => (r, d.withServices s) := by
  cases c with
  | own delivery c =>
    cases c <;> first | rfl | contradiction
  | aborted | getConsumer | fetch | next | ack | nak => rfl

/-- A command of the services leaves the instances alone. -/
theorem Shows.service {c : LoopCmd BellApi} {r : Except Exn c.Resp} (shows : Shows d t)
    (service : isService c = true)
    (executed : Bell.exec platform choice d.services c = some (r, s')) :
    Bell.exec platform choice t c = some (r, withSockets s' t) ∧
      Shows (d.withServices s') (withSockets s' t) := by
  have same : withSockets d.services t = t := by
    simp only [withSockets, Deployment.services, ← shows.notifications, ← shows.now, ← shows.js]
  have executed' := exec_withSockets (t := t) service executed
  rw [same] at executed'
  refine ⟨executed', rfl, ?_, rfl, fun gateway => (shows.instances gateway).kept ?_ ?_⟩
  · exact exec_now executed
  · exact ⟨fun _ _ => Iff.rfl, rfl, fun _ => rfl⟩
  · exact (exec_now executed).trans shows.now.symm

end Commands

section Sockets

variable {platform : Platform} {cfg : WsConfig} {d d' : Deployment} {t : Bell.Store}
  {gateway : Nat} {s : Instance}

/-- The socket commands of the bell, which have no choice. -/
theorem Shows.checkRateLimit (shows : Shows d t) (delivery : Option Nat) (userId : String) :
    ∃ t', Bell.exec platform {} t (.own delivery (.checkRateLimit gateway userId)) =
      some (.ok (checkRateLimit (d.instances gateway) userId).1, t') ∧
      Shows (d.setInstance gateway (checkRateLimit (d.instances gateway) userId).2) t' := by
  obtain ⟨clock, exact, authenticated, connected, limits, got⟩ := shows.instances gateway
  have same : Bell.checkRateLimit t.now (t.rateLimits gateway userId) =
      Bell.checkRateLimit (d.instances gateway).now ((d.instances gateway).rateLimits userId) := by
    rw [clock, limits]
  refine ⟨t.setRateLimit gateway userId (Bell.checkRateLimit (d.instances gateway).now
    ((d.instances gateway).rateLimits userId)).2, ?_, ?_⟩
  · simp only [Bell.exec, Bell.execOwn, Bell.execTotal, same]
    rfl
  · refine shows.setInstance rfl rfl rfl ⟨clock, ⟨exact.maps, exact.live⟩,
      authenticated, connected, ?_, got⟩ ?_
    · exact (Function.update_self ..).trans (congrArg (Function.update · userId _) limits)
    · exact fun other different =>
        ⟨fun _ _ => Iff.rfl, Function.update_of_ne different .., fun _ => rfl⟩

theorem Greeted.same (sent : List (String × Js)) : Greeted sent sent := by
  induction sent with
  | nil => exact .nil
  | cons e earlier ih => exact .called e ih

theorem Greeted.append {all calls all' calls' : List (String × Js)} (later : Greeted all' calls')
    (earlier : Greeted all calls) : Greeted (all' ++ all) (calls' ++ calls) := by
  induction later with
  | nil => exact earlier
  | called e _ ih => exact .called e ih
  | greeted greeting _ ih => exact .greeted greeting ih

/-- What an instance and the bell send to the sockets of the instance. -/
theorem Shows.send (shows : Shows d t) (later : List Sent) (sent : List Bell.Emission)
    (here : ∀ e ∈ sent, e.gateway = gateway)
    (same : ∀ socketId, Greeted (gotBy socketId later) (sentTo gateway socketId sent)) :
    Shows (d.setInstance gateway
        { d.instances gateway with emitted := later ++ (d.instances gateway).emitted })
      { t with emitted := sent ++ t.emitted } := by
  obtain ⟨clock, exact, authenticated, connected, limits, got⟩ := shows.instances gateway
  refine shows.setInstance rfl rfl rfl ⟨clock, ⟨exact.maps, exact.live⟩, authenticated, connected,
    limits, fun socketId => ?_⟩ fun other different => ?_
  · rw [gotBy_append, sentTo_append]
    exact (same socketId).append (got socketId)
  · exact sameAt_emitted rfl rfl rfl fun e member at_other =>
      different (at_other.symm.trans (here e member))

theorem Shows.emit (shows : Shows d t) (delivery : Option Nat) (socketId event : String)
    (data : Js) :
    ∃ t', Bell.exec platform {} t (.own delivery (.emit gateway socketId event data)) =
      some (.ok (), t') ∧
      Shows (d.setInstance gateway (emit (d.instances gateway) socketId event data)) t' := by
  refine ⟨_, rfl, ?_⟩
  refine shows.send [⟨socketId, event, data⟩] [⟨gateway, socketId, event, data⟩] ?_ fun id => ?_
  · intro e member
    rw [List.mem_singleton.mp member]
  · have same : sentTo gateway id [⟨gateway, socketId, event, data⟩] =
        gotBy id [⟨socketId, event, data⟩] := by
      rw [sentTo_cons, gotBy_cons]
      simp only [true_and]
      rfl
    rw [same]
    exact .same _

theorem Shows.emitToUser (shows : Shows d t) (delivery : Option Nat) (userId event : String)
    (data : Js) :
    ∃ t', Bell.exec platform {} t (.own delivery (.emitToUser gateway userId event data)) =
      some (.ok (), t') ∧
      Shows (d.setInstance gateway (emitToUser (d.instances gateway) userId event data)) t' := by
  have shown := shows.instances gateway
  refine ⟨_, rfl, ?_⟩
  have pushed : CoreWebsocketGateway.emitToUser (d.instances gateway) userId event data =
      { d.instances gateway with
        emitted := emissions (d.instances gateway) userId event data ++
          (d.instances gateway).emitted } := by
    unfold CoreWebsocketGateway.emitToUser
    split
    · rename_i empty
      rw [emissions, List.length_eq_zero_iff.mp empty]
      rfl
    · rfl
  rw [pushed]
  refine shows.send _ _ ?_ fun socketId => ?_
  · intro e member
    obtain ⟨c, _, rfl⟩ := List.mem_map.mp member
    rfl
  · rw [gotBy_emissions shown.exact, sentTo_emissions]
    simp only [shown.connected, true_and]
    exact .same _

/-- Every command gets the response from the instances that it gets from the bell. -/
theorem Shows.exec {choice : Choice} {c : LoopCmd BellApi} {r : Except Exn c.Resp}
    (shows : Shows d t) (executed : d.exec platform choice c = some (r, d')) :
    ∃ choice' t', Bell.exec platform choice' t c = some (r, t') ∧ Shows d' t' := by
  by_cases service : isService c = true
  · rw [Deployment.exec_service service] at executed
    obtain ⟨⟨r', s'⟩, executed', same⟩ := Option.map_eq_some_iff.mp executed
    cases same
    obtain ⟨served, shown⟩ := shows.service service executed'
    exact ⟨choice, _, served, shown⟩
  · cases c with
    | aborted | getConsumer | fetch | next | ack | nak => exact absurd rfl service
    | own delivery c =>
      cases c with
      | checkRateLimit gateway userId =>
        cases executed
        obtain ⟨t', answered, shown⟩ := shows.checkRateLimit delivery userId
        exact ⟨{}, t', answered, shown⟩
      | emit gateway socketId event data =>
        cases executed
        obtain ⟨t', answered, shown⟩ := shows.emit delivery socketId event data
        exact ⟨{}, t', answered, shown⟩
      | emitToUser gateway userId event data =>
        cases executed
        obtain ⟨t', answered, shown⟩ := shows.emitToUser delivery userId event data
        exact ⟨{}, t', answered, shown⟩
      | now | notificationCreate | notificationCount | notificationFindFirst | notificationUpdate
      | notificationUpdateMany | publish | httpRequest | httpReply | randomUUID
      | signInternalToken => exact absurd rfl service

end Sockets

section Clients

variable {platform : Platform} {cfg : WsConfig} {d d' : Deployment} {t : Bell.Store}
  {gateway : Nat} {s : Instance} {socketId : String} {handshake : Handshake} {throws : Bool}

theorem SameAt.refl (gateway : Nat) (t : Bell.Store) : SameAt gateway t t :=
  ⟨fun _ _ => Iff.rfl, rfl, fun _ => rfl⟩

/-- A client is greeted, whatever becomes of its handshake. -/
theorem handleConnection_greets (cfg : WsConfig) (s : Instance) (socketId : String)
    (handshake : Handshake) (throws : Bool) :
    ∃ event data, IsGreeting (event, data) ∧
      (handleConnection cfg s socketId handshake throws).emitted =
        ⟨socketId, event, data⟩ :: s.emitted := by
  unfold handleConnection
  split
  · exact ⟨_, _, .inr ⟨_, .head _, rfl⟩, rfl⟩
  · split
    · exact ⟨_, _, .inr ⟨_, .tail _ (.head _), rfl⟩, rfl⟩
    · cases throws
      · exact ⟨_, _, .inl ⟨_, rfl⟩, rfl⟩
      · exact ⟨_, _, .inr ⟨_, .tail _ (.tail _ (.head _)), rfl⟩, rfl⟩

/-- The greeting reaches the new socket in addition. -/
theorem got_connection {sent : String → List (String × Js)}
    (got : ∀ socketId, Greeted (gotBy socketId s.emitted) (sent socketId)) (id : String) :
    Greeted (gotBy id (handleConnection cfg s socketId handshake throws).emitted) (sent id) := by
  obtain ⟨event, data, greeting, emitted⟩ :=
    handleConnection_greets cfg s socketId handshake throws
  rw [emitted, gotBy_cons]
  split
  · exact .greeted greeting (got id)
  · exact got id

theorem isOn_unknown (fresh : socketId ∉ s.sockets) (userId : String) :
    isOn s socketId userId = false := by
  rw [isOn, AList.lookup_eq_none.mpr fresh]
  rfl

/-- A client that comes is a new connection, or it is sent away. -/
theorem Shows.connect (shows : Shows d t) (fresh : socketId ∉ (d.instances gateway).sockets)
    (named : SubPresent cfg (d.instances gateway) (.connect socketId handshake throws)) :
    ∃ t', (Bell.bellSystem platform).Acts t t' ∧ Shows (d.setInstance gateway
      (handleConnection cfg (d.instances gateway) socketId handshake throws)) t' := by
  obtain ⟨clock, exact, authenticated, connected, limits, got⟩ := shows.instances gateway
  have exact' := exact.handleConnection fresh named
  obtain ⟨keptLimits, keptClock⟩ :=
    handleConnection_keeps cfg (d.instances gateway) socketId handshake throws
  obtain ⟨-, sockets⟩ | ⟨payload, let_in, -, sockets⟩ :=
    handleConnection_cases cfg (d.instances gateway) socketId handshake throws
  · refine ⟨t, .refl, shows.setInstance rfl rfl rfl
      ⟨keptClock.trans clock, exact', ?_, ?_, limits.trans keptLimits.symm, got_connection got⟩
      fun other _ => .refl other t⟩
    · intro id data known
      rw [sockets, lookup_insert] at known
      split at known
      · contradiction
      · exact authenticated id data known
    · intro id userId
      rw [connected, isOn_insert sockets]
      split
      · rename_i same
        rw [same, isOn_unknown fresh]
        rfl
      · rfl
  · obtain ⟨sub, present, nonempty⟩ := named payload let_in
    rw [present, Option.getD_some] at sockets
    have free : ∀ c ∈ t.connected, c.key ≠ (⟨gateway, socketId, sub⟩ : Connection).key := by
      intro c member taken
      obtain ⟨here, id⟩ := Prod.mk.inj taken
      obtain ⟨g, other, userId⟩ := c
      simp only at here id
      subst here id
      have on := (connected _ _).mp member
      rw [isOn_unknown fresh] at on
      contradiction
    obtain ⟨table, inserted⟩ := Option.isSome_iff_exists.mp (Table.insert?_of_fresh free)
    have members : ∀ c, c ∈ table ↔ c = ⟨gateway, socketId, sub⟩ ∨ c ∈ t.connected :=
      fun c => Table.mem_insert? inserted
    refine ⟨{ t with connected := table }, .single ⟨.connect ⟨gateway, socketId, sub⟩, ?_⟩,
      shows.setInstance rfl rfl rfl
        ⟨keptClock.trans clock, exact', ?_, ?_, limits.trans keptLimits.symm,
          got_connection got⟩ ?_⟩
    · simp only [Bell.act, inserted, Option.map_some]
    · intro id data known
      rw [sockets, lookup_insert] at known
      split at known
      · cases known
        exact ⟨rfl, nonempty⟩
      · exact authenticated id data known
    · intro id userId
      rw [members, connected, isOn_insert sockets]
      by_cases same : id = socketId
      · subst same
        simp only [Connection.mk.injEq, true_and, isOn_unknown fresh, Bool.false_eq_true, or_false,
          if_true, Option.any_some, Bool.true_and, decide_eq_true_eq]
        exact eq_comm
      · simp only [Connection.mk.injEq, same, false_and, and_false, false_or, if_false]
    · intro other different
      refine ⟨fun id userId => ?_, rfl, fun _ => rfl⟩
      rw [members]
      simp only [Connection.mk.injEq, different, false_and, false_or]

theorem isOn_disconnect (s : Instance) (socketId id userId : String) :
    isOn (handleDisconnect s socketId) id userId =
      if id = socketId then false else isOn s id userId := by
  simp only [isOn, handleDisconnect, lookup_erase]
  split <;> rfl

/-- A user is online as long as a socket of the user is on. -/
theorem Exact.isUserOnline_iff (exact : Exact s) (userId : String) :
    isUserOnline s.registry userId = true ↔ ∃ socketId, isOn s socketId userId = true := by
  have members : ∀ socketId, socketId ∈ (getSocketsByUser s.registry userId).ids ↔
      isOn s socketId userId = true :=
    fun socketId => (exact.maps.inverse userId socketId).trans (exact.live socketId userId)
  simp only [← members]
  rw [isUserOnline, getSocketsByUser]
  cases found : s.registry.userSockets.lookup userId with
  | none =>
    simp only [Option.any_none, Bool.false_eq_true, Option.getD_none, List.not_mem_nil,
      exists_false]
  | some sockets =>
    exact decide_eq_true_iff.trans List.length_pos_iff_exists_mem

theorem Exact.goesOffline_iff {userId : String} (exact : Exact s) (named : userId ≠ "") :
    goesOffline s socketId userId = true ↔
      ∀ id, ¬ isOn (CoreWebsocketGateway.handleDisconnect s socketId) id userId = true := by
  have online : isUserOnline (SocketRegistryService.unregister s.registry socketId) userId = true ↔
      ∃ id, isOn (CoreWebsocketGateway.handleDisconnect s socketId) id userId = true :=
    (@Exact.handleDisconnect _ socketId exact).isUserOnline_iff userId
  rw [goesOffline, Bool.and_eq_true, Bool.not_eq_true', ← Bool.not_eq_true, online, not_exists]
  simp only [ne_eq, named, not_false_eq_true, decide_true, true_and]

theorem getSocketsByUser_eq_nil {userId : String} : t.getSocketsByUser gateway userId = [] ↔
    ∀ id, (⟨gateway, id, userId⟩ : Connection) ∉ t.connected := by
  rw [Bell.Store.getSocketsByUser, List.filter_eq_nil_iff]
  constructor
  · intro none id member
    exact none _ member (by simp only [decide_true, Bool.and_self])
  · rintro none ⟨g, id, user⟩ member own
    obtain ⟨here, mine⟩ := (Bool.and_eq_true _ _).mp own
    obtain rfl : g = gateway := of_decide_eq_true here
    obtain rfl : user = userId := of_decide_eq_true mine
    exact none id member

/-- The bell after a disconnection, with the limit of the user. -/
def withoutConnection (t : Bell.Store) (c : Connection) : Bell.Store :=
  { t with connected := t.connected.delete (· = c) }

theorem mem_withoutConnection {c c' : Connection} :
    c' ∈ (withoutConnection t c).connected ↔ c' ∈ t.connected ∧ c' ≠ c := by
  rw [withoutConnection, Table.mem_delete, decide_eq_false_iff_not]

/-- The limit of a user goes with the last socket, in the instance as in the bell. -/
theorem Shows.disconnect (shows : Shows d t) : ∃ t', (Bell.bellSystem platform).Acts t t' ∧
    Shows (d.setInstance gateway (handleDisconnect (d.instances gateway) socketId)) t' := by
  obtain ⟨clock, exact, authenticated, connected, limits, got⟩ := shows.instances gateway
  have exact' := @Exact.handleDisconnect _ socketId exact
  have authenticated' : ∀ id, ∀ data ∈ ((handleDisconnect (d.instances gateway)
      socketId).sockets.lookup id).join, data.authenticated = true ∧ data.userId ≠ "" := by
    intro id data known
    simp only [handleDisconnect, lookup_erase] at known
    split at known
    · contradiction
    · exact authenticated id data known
  cases known : ((d.instances gateway).sockets.lookup socketId).join with
  | none =>
    refine ⟨t, .refl, shows.setInstance rfl rfl rfl
      ⟨clock, exact', authenticated', fun id userId => ?_, ?_, got⟩ fun other _ => .refl other t⟩
    · rw [connected, isOn_disconnect]
      split
      · rename_i same
        rw [same, isOn, known]
        rfl
      · rfl
    · simp only [handleDisconnect, known]
      exact limits
  | some data =>
    obtain ⟨isAuthenticated, named⟩ := authenticated socketId data known
    let t' := withoutConnection t ⟨gateway, socketId, data.userId⟩
    have left : ∀ id userId, (⟨gateway, id, userId⟩ : Connection) ∈ t'.connected ↔
        isOn (handleDisconnect (d.instances gateway) socketId) id userId = true := by
      intro id userId
      rw [mem_withoutConnection, connected, isOn_disconnect]
      by_cases same : id = socketId
      · subst same
        rw [isOn, known, Option.any_some, isAuthenticated, Bool.true_and]
        simp only [decide_eq_true_eq, ne_eq, Connection.mk.injEq, true_and,
          if_true, Bool.false_eq_true, iff_false, not_and, not_not]
        exact Eq.symm
      · simp only [ne_eq, Connection.mk.injEq, same, false_and, and_false, not_false_eq_true,
          and_true, if_false]
    have offline : t'.getSocketsByUser gateway data.userId = [] ↔
        goesOffline (d.instances gateway) socketId data.userId = true := by
      rw [getSocketsByUser_eq_nil, exact.goesOffline_iff named]
      exact forall_congr' fun id => not_congr (left id data.userId)
    have others : ∀ other, other ≠ gateway → ∀ id userId,
        (⟨other, id, userId⟩ : Connection) ∈ t'.connected ↔
        (⟨other, id, userId⟩ : Connection) ∈ t.connected := by
      intro other different id userId
      rw [mem_withoutConnection]
      simp only [ne_eq, Connection.mk.injEq, different, false_and, not_false_eq_true, and_true]
    by_cases gone : goesOffline (d.instances gateway) socketId data.userId = true
    · refine ⟨t'.setRateLimit gateway data.userId none,
        .single ⟨.disconnect ⟨gateway, socketId, data.userId⟩, if_pos (offline.mpr gone)⟩,
        shows.setInstance rfl rfl rfl ⟨clock, exact', authenticated', left, ?_, got⟩ ?_⟩
      · simp only [handleDisconnect, known, gone, if_true]
        refine (Function.update_self ..).trans ?_
        exact congrArg (Function.update · data.userId none) limits
      · exact fun other different =>
          ⟨others other different, Function.update_of_ne different .., fun _ => rfl⟩
    · refine ⟨t', .single ⟨.disconnect ⟨gateway, socketId, data.userId⟩,
        if_neg (gone ∘ offline.mp)⟩,
        shows.setInstance rfl rfl rfl ⟨clock, exact', authenticated', left, ?_, got⟩ ?_⟩
      · simp only [handleDisconnect, known, gone, Bool.false_eq_true, if_false]
        exact limits
      · exact fun other different => ⟨others other different, rfl, fun _ => rfl⟩

theorem Shows.tick (shows : Shows d t) {ms : Nat} (ticked : d.act cfg (.tick ms) = some d') :
    Shows d' { t with now := t.now + ms } := by
  cases ticked
  constructor
  · exact shows.notifications
  · exact congrArg (· + ms) shows.now
  · exact shows.js
  · intro gateway
    obtain ⟨clock, exact, authenticated, connected, limits, got⟩ := shows.instances gateway
    exact ⟨congrArg (· + ms) clock, ⟨exact.maps, exact.live⟩, authenticated, connected, limits, got⟩

theorem Shows.act (shows : Shows d t) {a : DeploymentAct} (named : SubsPresent cfg d a)
    (acted : d.act cfg a = some d') :
    ∃ t', (Bell.bellSystem platform).Acts t t' ∧ Shows d' t' := by
  cases a with
  | tick ms => exact ⟨_, .single ⟨.tick ms, rfl⟩, shows.tick acted⟩
  | disconnect gateway socketId =>
    cases acted
    exact shows.disconnect
  | connect gateway socketId handshake throws =>
    simp only [Deployment.act, Option.map_eq_some_iff, step] at acted
    obtain ⟨s, connected, rfl⟩ := acted
    split at connected
    · contradiction
    · rename_i fresh
      cases connected
      exact shows.connect fresh named

end Clients

section Runs

variable {cfg : WsConfig} {platform : Platform}

/-- The gateway instances refine the sockets of the bell. -/
theorem deployment_refines : Refines (deploymentSystem cfg platform) (Bell.bellSystem platform)
    (SubsPresent cfg) Shows where
  body _ := rfl
  exec shows responds := by
    obtain ⟨choice, executed⟩ := responds
    obtain ⟨choice', t', executed', shows'⟩ := shows.exec executed
    exact ⟨t', ⟨choice', executed'⟩, shows'⟩
  act shows named acted := shows.act named acted

/-- The instances have just been started. -/
def Deployment.Started (d : Deployment) : Prop := ∀ gateway, d.instances gateway = { now := d.now }

/-- No client has come. -/
def NoSockets (t : Bell.Store) : Prop :=
  t.connected.rows = [] ∧ (∀ gateway userId, t.rateLimits gateway userId = none) ∧ t.emitted = []

theorem shows_started {d : Deployment} (started : d.Started) : Shows d d.services where
  notifications := rfl
  now := rfl
  js := rfl
  instances gateway := by
    rw [started gateway]
    refine ⟨rfl, @exact_run {} _ _ (.start d.now), ?_, ?_, rfl, fun _ => .nil⟩
    · intro socketId data known
      contradiction
    · intro socketId userId
      exact iff_of_false List.not_mem_nil Bool.false_ne_true

/-- Whatever calls are made of the bell, wherever clients come with a token that names their user,
and go: the calls do over the gateway instances what they may do over a table of connections.
The table is what the registries hold, the limits are the same, and every socket has got what
calls have sent to it in the same order, with no more than greetings in between. -/
theorem deployment_mirrored {asked : BellCall → Prop} {pool : DeploymentPool}
    (reachable : (deploymentSystem cfg platform).Reachable
      ((deploymentSystem cfg platform).Asking asked (SubsPresent cfg)) Deployment.Started pool) :
    ∃ image : Bell.BellPool, (Bell.bellSystem platform).Reachable
        ((Bell.bellSystem platform).Asking asked (Bell.bellSystem platform).AnyAct)
        NoSockets image ∧
      image.threads = pool.threads ∧ Shows pool.store image.store :=
  deployment_refines.reachable
    (fun d started => ⟨d.services, ⟨rfl, fun _ _ => rfl, rfl⟩, shows_started started⟩) reachable

end Runs

section Sample

instance {cfg : WsConfig} {d : Deployment} : (a : DeploymentAct) → Decidable (SubsPresent cfg d a)
  | .connect gateway socketId handshake throws => inferInstanceAs
      (Decidable (SubPresent cfg (d.instances gateway) (.connect socketId handshake throws)))
  | .tick _ | .disconnect .. => .isTrue trivial

def startedDeployment : Deployment where
  notifications := Bell.sampleStore.notifications
  instances _ := {}

/-- Alice comes in one tab and, with a guessed token, in another; the first one asks for all to be
marked as read, and the other one is closed. -/
def deploymentSteps : List (Label BellCall Choice DeploymentAct) :=
  [.act (.connect 1 "s1" { query := some (tokenOf Bell.alice) } false),
    .act (.connect 1 "s2" { auth := some (.jwt "guessed" { sub := some Bell.alice }) } false),
    .spawn (.notificationReadAll 1 Bell.aliceSocket)] ++
    .replicate 8 (.run 0 { text := "alice-token" }) ++ [.act (.disconnect 1 "s2")]

/-- The tab is greeted, and gets the update as the table has it. -/
theorem deployment_mirrored_sample : ∃ pool : DeploymentPool, ∃ image : Bell.BellPool,
    (gotBy "s1" (pool.store.instances 1).emitted).map Prod.fst =
      [Bell.WS_NOTIFICATION_UPDATED, "authenticated"] ∧
    (gotBy "s2" (pool.store.instances 1).emitted).map Prod.fst = ["error"] ∧
    image.threads = pool.threads ∧ Shows pool.store image.store := by
  have tested : ((deploymentSystem {} Bell.samplePlatform).replay
      ((deploymentSystem {} Bell.samplePlatform).Asking (fun _ => True) (SubsPresent {}))
      (System.idle startedDeployment) deploymentSteps).any (fun pool =>
        decide ((gotBy "s1" (pool.store.instances 1).emitted).map Prod.fst =
          [Bell.WS_NOTIFICATION_UPDATED, "authenticated"]) &&
        decide ((gotBy "s2" (pool.store.instances 1).emitted).map Prod.fst = ["error"])) =
      true := by
    decide +kernel
  obtain ⟨pool, run, passed⟩ := System.run_of_replay tested
  obtain ⟨greeted, refused⟩ := (Bool.and_eq_true _ _).mp passed
  obtain ⟨image, -, threads, shows⟩ := deployment_mirrored ⟨_, fun _ => rfl, run⟩
  exact ⟨pool, image, of_decide_eq_true greeted, of_decide_eq_true refused, threads, shows⟩

end Sample

end CorePlatform.WebSocket
