import CorePlatform.Async.Accretion
import CorePlatform.Common.Errors
import CorePlatform.Relational.Table

/-! `NatsService` and the start of the services: each connects to JetStream, creates the streams
it is configured with and its durable consumers where they do not exist, and starts their consume
loops. JetStream creates a stream or a consumer a second time under the same configuration only,
and keeps the subjects of its streams apart. A stream drops its oldest messages at its limits. -/
namespace CorePlatform.Nats
open Async Relational

/-- The tokens of a subject. -/
def tokens : List Char → List (List Char)
  | [] => [[]]
  | c :: rest =>
    if c = '.' then [] :: tokens rest
    else match tokens rest with
      | [] => [[c]]
      | token :: rest => (c :: token) :: rest

/-- The subjects under a pattern: `*` stands for a token, `>` for all that are left. -/
def coversTokens : List (List Char) → List (List Char) → Bool
  | [], [] => true
  | p :: pattern, token :: rest =>
      p = ['>'] || (p = token || p = ['*'] && token ≠ ['>']) && coversTokens pattern rest
  | _, _ => false

def covers (pattern subject : String) : Bool :=
  coversTokens (tokens pattern.toList) (tokens subject.toList)

/-- Some subject is under both patterns. -/
def collideTokens : List (List Char) → List (List Char) → Bool
  | [], [] => true
  | p :: ps, q :: qs =>
      p = ['>'] || q = ['>'] || (p = q || p = ['*'] || q = ['*']) && collideTokens ps qs
  | _, _ => false

/-- Patterns of a subject have it in common. -/
theorem collideTokens_of_covers {ps qs subject : List (List Char)}
    (under : coversTokens ps subject = true) (under' : coversTokens qs subject = true) :
    collideTokens ps qs = true := by
  induction subject generalizing ps qs with
  | nil =>
    cases ps with
    | cons p ps => simp [coversTokens] at under
    | nil =>
      cases qs with
      | cons q qs => simp [coversTokens] at under'
      | nil => rfl
  | cons token rest ih =>
    cases ps with
    | nil => simp [coversTokens] at under
    | cons p ps =>
      cases qs with
      | nil => simp [coversTokens] at under'
      | cons q qs =>
        simp only [coversTokens, Bool.or_eq_true, Bool.and_eq_true, decide_eq_true_eq]
          at under under'
        simp only [collideTokens, Bool.or_eq_true, Bool.and_eq_true, decide_eq_true_eq]
        obtain first | ⟨same, under⟩ := under
        · exact .inl (.inl first)
        obtain second | ⟨same', under'⟩ := under'
        · exact .inl (.inr second)
        refine .inr ⟨?_, ih under under'⟩
        obtain rfl | ⟨star, _⟩ := same
        · obtain same | ⟨star, _⟩ := same'
          · exact .inl (.inl same.symm)
          · exact .inr star
        · exact .inl (.inr star)

def collide (subjects subjects' : List String) : Bool :=
  subjects.any fun s => subjects'.any fun s' => collideTokens (tokens s.toList) (tokens s'.toList)

theorem collide_of_covers {subjects subjects' : List String} {subject : String}
    (under : subjects.any (covers · subject) = true)
    (under' : subjects'.any (covers · subject) = true) : collide subjects subjects' = true := by
  obtain ⟨p, listed, covered⟩ := List.any_eq_true.mp under
  obtain ⟨q, listed', covered'⟩ := List.any_eq_true.mp under'
  exact List.any_eq_true.mpr ⟨p, listed,
    List.any_eq_true.mpr ⟨q, listed', collideTokens_of_covers covered covered'⟩⟩

/-- `NatsStreamConfig` -/
structure NatsStreamConfig where
  name : String
  subjects : List String

structure NatsModuleOptions where
  serviceName : String
  streams : List NatsStreamConfig := []

/-- The configuration of a stream, as `streams.add` sends it. -/
structure StreamConfig where
  name : String
  subjects : List String
  retention : String := "limits"
  max_msgs : Nat := 100000
  max_age : Nat := 7 * 24 * 60 * 60 * 1000000000
  deriving DecidableEq

/-- `ConsumerConfig`, but for its handler. -/
structure ConsumerConfig where
  streamName : String
  durableName : String
  filterSubject : String
  deriving DecidableEq

/-- The configuration of a durable consumer, as `consumers.add` sends it. -/
structure Durable where
  stream : String
  durable_name : String
  filter_subject : String
  ack_policy : String := "explicit"
  deliver_policy : String := "all"
  replay_policy : String := "instant"
  ack_wait : Nat := 30000000000
  max_deliver : Nat := 3
  deriving DecidableEq

def Durable.key (d : Durable) : String × String := (d.stream, d.durable_name)

structure Stored where
  stream : String
  subject : String
  text : String
  /-- in nanoseconds, as the age of a stream's messages is -/
  time : Nat
  deriving DecidableEq

/-- JetStream, with the consume loops that instances have started on it. -/
structure Broker where
  streams : Table StreamConfig.name := .empty
  consumers : Table Durable.key := .empty
  log : List Stored := []
  loops : List ConsumerConfig := []
  clock : Nat := 0

/-- How many messages a stream has. -/
def StreamConfig.size (cfg : StreamConfig) (log : List Stored) : Nat :=
  log.countP (·.stream = cfg.name)

/-- Beyond `max_msgs`, where it is not 0, a stream drops its oldest messages. -/
def StreamConfig.trim (cfg : StreamConfig) (log : List Stored) : List Stored :=
  if cfg.max_msgs = 0 then log
  else Nat.repeat (List.eraseP (·.stream = cfg.name)) (cfg.size log - cfg.max_msgs) log

namespace Broker

def refused (message : String) : Exn := .error (some "400") message
def missing (message : String) : Exn := .error (some "404") message
def noResponders : Exn := .error (some "503") "no responders"

variable (b : Broker)

def addStream (cfg : StreamConfig) : Except Exn Unit × Broker :=
  match b.streams.rows.find? (·.name = cfg.name) with
  | some found =>
    if found = cfg then (.ok (), b)
    else (.error (refused "stream name already in use with a different configuration"), b)
  | none =>
    if b.streams.rows.any fun other => collide other.subjects cfg.subjects then
      (.error (refused "subjects overlap with an existing stream"), b)
    else match b.streams.insert? cfg with
      | none => (.error (refused "stream name already in use"), b)
      | some streams => (.ok (), { b with streams })

def addConsumer (d : Durable) : Except Exn Unit × Broker :=
  match b.streams.rows.find? (·.name = d.stream) with
  | none => (.error (missing "stream not found"), b)
  | some stream =>
    match b.consumers.rows.find? (·.key = d.key) with
    | some found =>
      if found = d then (.ok (), b) else (.error (refused "consumer already exists"), b)
    | none =>
      if ¬ stream.subjects.any (covers · d.filter_subject) then
        (.error (refused "consumer filter subject is not a subset of the stream's subjects"), b)
      else match b.consumers.insert? d with
        | none => (.error (refused "consumer already exists"), b)
        | some consumers => (.ok (), { b with consumers })

/-- A message is stored in the stream of its subject. -/
def store (subject text : String) : Except Exn Unit × Broker :=
  match b.streams.rows.find? fun s => s.subjects.any (covers · subject) with
  | none => (.error noResponders, b)
  | some s => (.ok (), { b with log := s.trim (b.log ++ [⟨s.name, subject, text, b.clock⟩]) })

/-- At a time, a message has reached the age that its stream allows, where that is not 0. -/
def aged (clock : Nat) (m : Stored) : Bool :=
  b.streams.rows.any fun s =>
    s.name = m.stream && s.max_age ≠ 0 && m.time + s.max_age ≤ clock

/-- The time passes. -/
def pass (ns : Nat) : Broker :=
  { b with
    clock := b.clock + ns
    log := b.log.filter fun m => !b.aged (b.clock + ns) m }

end Broker

inductive BrokerCmd where
  | connect
  | jetstreamManager
  | streamsInfo (name : String)
  | streamsAdd (cfg : StreamConfig)
  | consumersInfo (stream durable : String)
  | consumersAdd (d : Durable)
  | publish (subject text : String)
  | startConsumeLoop (cfg : ConsumerConfig)

@[reducible] def BrokerCmd.Resp (_ : BrokerCmd) : Type := Unit

abbrev BrokerApi : Interface := ⟨BrokerCmd, BrokerCmd.Resp⟩

def Broker.exec (b : Broker) : BrokerCmd → Except Exn Unit × Broker
  | .connect | .jetstreamManager => (.ok (), b)
  | .streamsInfo name =>
    (if b.streams.rows.any (·.name = name) then .ok ()
      else .error (Broker.missing "stream not found"), b)
  | .streamsAdd cfg => b.addStream cfg
  | .consumersInfo stream durable =>
    (if b.consumers.rows.any (·.key = (stream, durable)) then .ok ()
      else .error (Broker.missing "consumer not found"), b)
  | .consumersAdd d => b.addConsumer d
  | .publish subject text => b.store subject text
  | .startConsumeLoop cfg => (.ok (), { b with loops := cfg :: b.loops })

/-- The start of a loop is not awaited. -/
def BrokerCmd.canFail : BrokerCmd → Bool
  | .startConsumeLoop _ => false
  | _ => true

/-- A request fails on its own: it does not reach the broker, or the broker's answer is lost. -/
structure Fault where
  error : Exn
  executed : Bool
  deriving DecidableEq

def brokerExec (c : BrokerCmd) (fault : Option Fault) (b : Broker) :
    Option (Except Exn c.Resp × Broker) :=
  match fault with
  | some { error, executed } =>
    if c.canFail then some (.error error, if executed then (b.exec c).2 else b) else none
  | none => some (b.exec c)

abbrev Request := Prog BrokerApi Exn

def request (c : BrokerCmd) : Request Unit := Prog.perform (I := BrokerApi) c

/-- The fields of `NatsService`: whether the connection, the client and the manager are there. -/
structure NatsService where
  nc : Bool := false
  js : Bool := false
  jsm : Bool := false
  deriving DecidableEq

namespace NatsService

def streamConfig (stream : NatsStreamConfig) : StreamConfig :=
  { name := stream.name, subjects := stream.subjects }

def ensureStream (stream : NatsStreamConfig) : Request Unit :=
  tryCatch (request (.streamsInfo stream.name)) fun _ =>
    request (.streamsAdd (streamConfig stream))

/-- The `catch` clause only logs: the fields are as far as they have been set. -/
def onModuleInit (options : NatsModuleOptions) : Request NatsService :=
  tryCatch (do
    request .connect
    tryCatch (do
      request .jetstreamManager
      tryCatch (do
        Prog.forEach ensureStream options.streams
        return { nc := true, js := true, jsm := true })
        fun _ => return { nc := true, js := true, jsm := true })
      fun _ => return { nc := true, js := true })
    fun _ => return {}

def publish (this : NatsService) (subject text : String) : Request Unit :=
  if !this.js then pure ()
  else tryCatch (request (.publish subject text)) fun _ => pure ()

end NatsService

namespace BaseJetstreamConsumer

def durable (cfg : ConsumerConfig) : Durable :=
  { stream := cfg.streamName, durable_name := cfg.durableName, filter_subject := cfg.filterSubject }

def ensureConsumer (cfg : ConsumerConfig) : Request Unit :=
  tryCatch (request (.consumersInfo cfg.streamName cfg.durableName)) fun _ =>
    request (.consumersAdd (durable cfg))

def onModuleInit (nats : NatsService) (consumers : List ConsumerConfig) : Request Unit :=
  if !nats.js || !nats.jsm then pure ()
  else Prog.forEach (fun cfg => do
    ensureConsumer cfg
    request (.startConsumeLoop cfg)) consumers

end BaseJetstreamConsumer

/-- The services, with the options of their `AppModule` and the consumers that they provide. -/
inductive Service where
  | auth
  | gateway
  | notification
  deriving DecidableEq

def authEvents : NatsStreamConfig := { name := "AUTH_EVENT", subjects := ["user.*"] }

def notificationEvents : NatsStreamConfig :=
  { name := "NOTIFICATION_EVENT", subjects := ["notification.*"] }

def Service.options : Service → NatsModuleOptions
  | .auth => { serviceName := "auth-service", streams := [authEvents] }
  | .gateway => { serviceName := "gateway-service", streams := [notificationEvents] }
  | .notification =>
    { serviceName := "notification-service", streams := [authEvents, notificationEvents] }

def notificationCreated : ConsumerConfig where
  streamName := "NOTIFICATION_EVENT"
  durableName := "gateway-notification-created"
  filterSubject := "notification.created"

def userRegistered : ConsumerConfig where
  streamName := "AUTH_EVENT"
  durableName := "notification-user-registered"
  filterSubject := "user.registered"

def Service.getConsumers : Service → List ConsumerConfig
  | .auth => []
  | .gateway => [notificationCreated]
  | .notification => [userRegistered]

def start (service : Service) : Request NatsService := do
  let nats ← NatsService.onModuleInit service.options
  BaseJetstreamConsumer.onModuleInit nats service.getConsumers
  return nats

end CorePlatform.Nats
