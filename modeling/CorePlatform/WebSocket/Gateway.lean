import CorePlatform.Bell.Sockets
import CorePlatform.Common.Jwt
import Mathlib.Data.List.AList

/-! `SocketRegistryService` and `CoreWebsocketGateway`: the two maps of a gateway instance, and
the events of its sockets. A `Map` is an association list with distinct keys, a `Set` a list
without repetition, the latest element first. -/
namespace CorePlatform.WebSocket
open Bell (SocketData MessageLimit)

/-- `Set<string>` -/
structure SocketSet where
  ids : List String := []
  nodup : ids.Nodup := by exact List.nodup_nil

namespace SocketSet

def add (sockets : SocketSet) (socketId : String) : SocketSet :=
  ⟨sockets.ids.insert socketId, sockets.nodup.insert⟩

def delete (sockets : SocketSet) (socketId : String) : SocketSet :=
  ⟨sockets.ids.erase socketId, sockets.nodup.erase _⟩

def size (sockets : SocketSet) : Nat := sockets.ids.length

@[simp] theorem mem_add {sockets : SocketSet} {socketId id : String} :
    id ∈ (sockets.add socketId).ids ↔ id = socketId ∨ id ∈ sockets.ids := List.mem_insert_iff

@[simp] theorem mem_delete {sockets : SocketSet} {socketId id : String} :
    id ∈ (sockets.delete socketId).ids ↔ id ≠ socketId ∧ id ∈ sockets.ids :=
  sockets.nodup.mem_erase_iff

end SocketSet

abbrev JsMap (α : Type) := AList fun _ : String => α

/-- `userSockets` and `socketToUser` -/
structure SocketRegistry where
  userSockets : JsMap SocketSet := ∅
  socketToUser : JsMap String := ∅

namespace SocketRegistryService

variable (registry : SocketRegistry)

def register (userId socketId : String) : SocketRegistry :=
  let userSockets := if userId ∈ registry.userSockets then registry.userSockets
      else registry.userSockets.insert userId {}
  { userSockets := userSockets.insert userId (((userSockets.lookup userId).getD {}).add socketId)
    socketToUser := registry.socketToUser.insert socketId userId }

/-- The set of the user without the socket; a user whose set is empty goes. -/
def withoutSocket (userId socketId : String) : JsMap SocketSet :=
  match registry.userSockets.lookup userId with
  | none => registry.userSockets
  | some sockets =>
    if (sockets.delete socketId).size = 0 then registry.userSockets.erase userId
    else registry.userSockets.insert userId (sockets.delete socketId)

def unregister (socketId : String) : SocketRegistry :=
  match (registry.socketToUser.lookup socketId).filter (· ≠ "") with
  | none => registry
  | some userId =>
    { userSockets := withoutSocket registry userId socketId
      socketToUser := registry.socketToUser.erase socketId }

def getSocketsByUser (userId : String) : SocketSet := (registry.userSockets.lookup userId).getD {}

def getUserBySocket (socketId : String) : Option String := registry.socketToUser.lookup socketId

def isUserOnline (userId : String) : Bool := (registry.userSockets.lookup userId).any (·.size > 0)

def getTotalConnectionsCount : Nat := registry.socketToUser.entries.length

end SocketRegistryService

/-- The configuration of the gateway, with its defaults filled in. -/
structure WsConfig where
  jwtSecret : String := "change-me"
  jwtIssuer : String := "auth-service"
  jwtAudience : String := "api"

/-- Where a client may put its token: the query, the rest of a `Bearer ` header, `auth`. A value
that is not a string is no token. -/
structure Handshake where
  query : Option Token := none
  authorization : Option Token := none
  auth : Option Token := none

/-- An event that has been sent to a socket. -/
structure Sent where
  socketId : String
  event : String
  data : Js

/-- An instance: its registry and limits, and its sockets with what `handleConnection` has left
in their `data`. -/
structure Instance where
  registry : SocketRegistry := {}
  rateLimits : String → Option MessageLimit := fun _ => none
  sockets : JsMap (Option SocketData) := ∅
  now : Nat := 0
  /-- Latest first. -/
  emitted : List Sent := []

namespace CoreWebsocketGateway

def extractToken (handshake : Handshake) : Option Token :=
  match handshake.query.filter (· ≠ .raw ""), handshake.authorization with
  | some token, _ => some token
  | none, some token => some token
  | none, none => handshake.auth.filter (· ≠ .raw "")

/-- `jwt.verify`, null where it throws. -/
def verifyToken (cfg : WsConfig) (now : Nat) (token : Token) : Option Claims :=
  (Jwt.verify (some token) cfg.jwtSecret
    { issuer := some cfg.jwtIssuer, audience := some cfg.jwtAudience } now).toOption

/-- The claims of a handshake that is let in. -/
def authenticated (cfg : WsConfig) (now : Nat) (handshake : Handshake) : Option Claims :=
  ((extractToken handshake).filter (· ≠ .raw "")).bind (verifyToken cfg now)

def emit (s : Instance) (socketId event : String) (data : Js) : Instance :=
  { s with emitted := ⟨socketId, event, data⟩ :: s.emitted }

def emitError (s : Instance) (socketId message : String) : Instance :=
  emit s socketId "error" (.obj [("message", .str message)])

/-- `handleConnection` of a new socket; `throws` says that the greeting of the client throws. A
client that is sent away stays a socket until its disconnection is handled. A missing `sub` is
the empty string, which is as falsy. -/
def handleConnection (cfg : WsConfig) (s : Instance) (socketId : String) (handshake : Handshake)
    (throws : Bool) : Instance :=
  match (extractToken handshake).filter (· ≠ .raw "") with
  | none =>
      emitError { s with sockets := s.sockets.insert socketId none } socketId
        "Authentication required"
  | some token =>
    match verifyToken cfg s.now token with
    | none =>
        emitError { s with sockets := s.sockets.insert socketId none } socketId "Invalid token"
    | some payload =>
      let userId := payload.sub.getD ""
      let s := { s with
        sockets := s.sockets.insert socketId (some { userId, authenticated := true })
        registry := SocketRegistryService.register s.registry userId socketId }
      if throws then emitError s socketId "Connection failed"
      else emit s socketId "authenticated"
        (.obj [("userId", .str userId), ("message", .str "Connected successfully")])

/-- Whether a disconnected user leaves no other socket, so that the limit goes. -/
def goesOffline (s : Instance) (socketId : String) (userId : String) : Bool :=
  userId ≠ "" && !SocketRegistryService.isUserOnline
    (SocketRegistryService.unregister s.registry socketId) userId

def handleDisconnect (s : Instance) (socketId : String) : Instance :=
  let rateLimits := match (s.sockets.lookup socketId).join with
    | none => s.rateLimits
    | some socketData =>
      if goesOffline s socketId socketData.userId then
        Function.update s.rateLimits socketData.userId none else s.rateLimits
  { s with
    registry := SocketRegistryService.unregister s.registry socketId
    rateLimits
    sockets := s.sockets.erase socketId }

def checkRateLimit (s : Instance) (userId : String) : Bool × Instance :=
  let (allowed, limit) := Bell.checkRateLimit s.now (s.rateLimits userId)
  (allowed, { s with rateLimits := Function.update s.rateLimits userId limit })

/-- What `emitToUser` sends, the latest first: one event to the room of each socket id. -/
def emissions (s : Instance) (userId event : String) (data : Js) : List Sent :=
  (SocketRegistryService.getSocketsByUser s.registry userId).ids.map fun socketId =>
    ⟨socketId, event, data⟩

def emitToUser (s : Instance) (userId event : String) (data : Js) : Instance :=
  if (SocketRegistryService.getSocketsByUser s.registry userId).size = 0 then s
  else { s with emitted := emissions s userId event data ++ s.emitted }

end CoreWebsocketGateway

/-- The events of an instance. -/
inductive SocketEvent where
  | connect (socketId : String) (handshake : Handshake) (throws : Bool)
  | disconnect (socketId : String)
  /-- A message that asks for its limit. -/
  | message (userId : String)
  | push (userId event : String) (data : Js)
  | tick (ms : Nat)

/-- The id of a new socket is not in use. -/
def step (cfg : WsConfig) (s : Instance) : SocketEvent → Option Instance
  | .connect socketId handshake throws =>
    if socketId ∈ s.sockets then none
      else some (CoreWebsocketGateway.handleConnection cfg s socketId handshake throws)
  | .disconnect socketId => some (CoreWebsocketGateway.handleDisconnect s socketId)
  | .message userId => some (CoreWebsocketGateway.checkRateLimit s userId).2
  | .push userId event data => some (CoreWebsocketGateway.emitToUser s userId event data)
  | .tick ms => some { s with now := s.now + ms }

/-- The message that an event admits, with its time. -/
def admission (s : Instance) : SocketEvent → List (String × Nat)
  | .message userId =>
      if (CoreWebsocketGateway.checkRateLimit s userId).1 then [(userId, s.now)] else []
  | _ => []

/-- The runs of an instance whose events meet a condition, with the messages that were admitted,
the latest first. -/
inductive Run (cfg : WsConfig) (cond : Instance → SocketEvent → Prop) :
    List (String × Nat) → Instance → Prop where
  | start (now : Nat) : Run cfg cond [] { now }
  | step {admitted : List (String × Nat)} {s s' : Instance} {e : SocketEvent}
      (earlier : Run cfg cond admitted s)
      (met : cond s e) (stepped : step cfg s e = some s') : Run cfg
        cond (admission s e ++ admitted) s'

section Replay

variable {cfg : WsConfig} {cond : Instance → SocketEvent → Prop} [∀ s e, Decidable (cond s e)]

/-- Execute events that all meet the condition. -/
def replay (cfg : WsConfig) (cond : Instance → SocketEvent → Prop) [∀ s e, Decidable (cond s e)]
    (admitted : List (String × Nat)) (s : Instance) : List SocketEvent →
    Option (List (String × Nat) × Instance)
  | [] => some (admitted, s)
  | e :: rest =>
    match step cfg s e with
    | some next => if cond s e then replay cfg cond (admission s e ++ admitted) next rest else none
    | none => none

theorem run_of_replay {events : List SocketEvent} {admitted admitted' : List (String × Nat)}
    {s s' : Instance} (run : Run cfg cond admitted s)
    (replayed : replay cfg cond admitted s events = some (admitted', s')) :
    Run cfg cond admitted' s' := by
  induction events generalizing admitted s with
  | nil =>
    cases Option.some.inj replayed
    exact run
  | cons e rest ih =>
    simp only [replay] at replayed
    split at replayed
    · rename_i next stepped
      split at replayed
      · rename_i met
        exact ih (run.step met stepped) replayed
      · contradiction
    · contradiction

/-- What a boolean test finds after the events is reached by a run. -/
theorem run_of_test {events : List SocketEvent} {now : Nat}
    {test : List (String × Nat) × Instance → Bool}
    (tested : (replay cfg cond [] { now } events).any test = true) :
    ∃ admitted s, Run cfg cond admitted s ∧ test (admitted, s) = true := by
  obtain ⟨⟨admitted, s⟩, replayed, passed⟩ := (Option.any_eq_true _ _).mp tested
  exact ⟨admitted, s, run_of_replay (.start now) replayed, passed⟩

end Replay
end CorePlatform.WebSocket
