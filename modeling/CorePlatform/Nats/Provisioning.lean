import CorePlatform.Async.Counting
import CorePlatform.Nats.Startup
import Mathlib.Data.Set.Insert

/-! The services of the platform started in any order, any number of times and at once: what they
create on the broker, and what they may rely on when they have started. -/
namespace CorePlatform.Nats
open Async Relational

inductive BrokerCall where
  | start (service : Service)
  | publish (nats : NatsService) (subject text : String)

inductive BrokerReply where
  | started (nats : NatsService)
  | published

def brokerBody : BrokerCall → Request BrokerReply
  | .start service => return .started (← start service)
  | .publish nats subject text => do
    nats.publish subject text
    return .published

@[reducible] def brokerSystem : System BrokerApi Exn BrokerCall BrokerReply Broker where
  Choice := Option Fault
  exec c fault b := brokerExec c fault b
  body := brokerBody
  Act := Nat
  act ns b := some (b.pass ns)

abbrev BrokerEv := Event BrokerApi Exn
abbrev BrokerThread := Thread BrokerApi Exn BrokerCall BrokerReply
abbrev BrokerPool := Pool BrokerApi Exn BrokerCall BrokerReply Broker
abbrev BrokerStep := Label BrokerCall brokerSystem.Choice brokerSystem.Act

/-- What the services create. -/
inductive Provision where
  | stream (cfg : StreamConfig)
  | consumer (d : Durable)
  deriving DecidableEq

def Broker.provisions (b : Broker) : Set Provision :=
  {p | match p with
    | .stream cfg => cfg ∈ b.streams
    | .consumer d => d ∈ b.consumers}

def declaredStreams : List StreamConfig :=
  [NatsService.streamConfig authEvents, NatsService.streamConfig notificationEvents]

def declaredConsumers : List Durable :=
  [BaseJetstreamConsumer.durable notificationCreated, BaseJetstreamConsumer.durable userRegistered]

def declared : Set Provision :=
  {p | match p with
    | .stream cfg => cfg ∈ declaredStreams
    | .consumer d => d ∈ declaredConsumers}

/-- Nothing on the broker is in the way of what the services declare. -/
structure Agrees (b : Broker) : Prop where
  streams : ∀ cfg ∈ declaredStreams, ∀ s ∈ b.streams,
    s.name = cfg.name ∨ collide s.subjects cfg.subjects = true → s = cfg
  consumers : ∀ d ∈ declaredConsumers, ∀ e ∈ b.consumers, e.key = d.key → e = d

/-- What the broker has confirmed, for good. -/
def Confirms (b : Broker) : BrokerEv → Prop
  | ⟨.streamsInfo name, .ok _⟩ => ∃ s ∈ b.streams, s.name = name
  | ⟨.streamsAdd cfg, .ok _⟩ => cfg ∈ b.streams
  | ⟨.consumersInfo stream durable, .ok _⟩ => ∃ d ∈ b.consumers, d.key = (stream, durable)
  | ⟨.consumersAdd d, .ok _⟩ => d ∈ b.consumers
  | ⟨.startConsumeLoop cfg, .ok _⟩ => cfg ∈ b.loops
  | _ => True

/-- What a request, or the time, can do to the broker. -/
inductive BrokerEffect (b : Broker) : BrokerCmd → Broker → Prop where
  | none (c : BrokerCmd) : BrokerEffect b c b
  | passed (c : BrokerCmd) (clock : Nat) (log : List Stored) (kept : log.Sublist b.log) :
      BrokerEffect b c { b with clock, log }
  | stream (cfg : StreamConfig) (streams : Table StreamConfig.name)
      (rows : ∀ row, row ∈ streams ↔ row = cfg ∨ row ∈ b.streams) :
      BrokerEffect b (.streamsAdd cfg) { b with streams }
  | consumer (d : Durable) (consumers : Table Durable.key)
      (rows : ∀ row, row ∈ consumers ↔ row = d ∨ row ∈ b.consumers) :
      BrokerEffect b (.consumersAdd d) { b with consumers }
  | message (s : StreamConfig) (subject text : String) (log : List Stored) (stored : s ∈ b.streams)
      (under : s.subjects.any (covers · subject) = true)
      (kept : log.Sublist (b.log ++ [⟨s.name, subject, text, b.clock⟩])) :
      BrokerEffect b (.publish subject text) { b with log }
  | loop (cfg : ConsumerConfig) :
      BrokerEffect b (.startConsumeLoop cfg) { b with loops := cfg :: b.loops }

section Effects

variable {b b' : Broker} {c : BrokerCmd}

theorem repeat_eraseP_sublist {α : Type} (p : α → Bool) (n : Nat) (l : List α) :
    (Nat.repeat (List.eraseP p) n l).Sublist l := by
  induction n with
  | zero => exact List.Sublist.refl l
  | succ n ih => exact List.eraseP_sublist.trans ih

theorem trim_sublist (s : StreamConfig) (log : List Stored) : (s.trim log).Sublist log := by
  unfold StreamConfig.trim
  split
  · exact List.Sublist.refl log
  · exact repeat_eraseP_sublist _ _ log

theorem pass_effect (c : BrokerCmd) (ns : Nat) : BrokerEffect b c (b.pass ns) :=
  .passed c _ _ List.filter_sublist

theorem addStream_effect {cfg : StreamConfig} {r : Except Exn Unit}
    (added : b.addStream cfg = (r, b')) :
    BrokerEffect b (.streamsAdd cfg) b' ∧ (r = .ok () → cfg ∈ b'.streams) := by
  unfold Broker.addStream at added
  split at added
  · rename_i found holds
    split at added
    · rename_i same
      obtain ⟨rfl, rfl⟩ := Prod.mk.inj added
      exact ⟨.none _, fun _ => same ▸ (Table.of_find holds).1⟩
    · obtain ⟨rfl, rfl⟩ := Prod.mk.inj added
      exact ⟨.none _, fun ok => by cases ok⟩
  · split at added
    · obtain ⟨rfl, rfl⟩ := Prod.mk.inj added
      exact ⟨.none _, fun ok => by cases ok⟩
    · split at added
      · obtain ⟨rfl, rfl⟩ := Prod.mk.inj added
        exact ⟨.none _, fun ok => by cases ok⟩
      · rename_i streams inserted
        obtain ⟨rfl, rfl⟩ := Prod.mk.inj added
        exact ⟨.stream cfg streams fun row => Table.mem_insert? inserted,
          fun _ => (Table.mem_insert? inserted).mpr (.inl rfl)⟩

theorem addConsumer_effect {d : Durable} {r : Except Exn Unit}
    (added : b.addConsumer d = (r, b')) :
    BrokerEffect b (.consumersAdd d) b' ∧ (r = .ok () → d ∈ b'.consumers) := by
  unfold Broker.addConsumer at added
  split at added
  · obtain ⟨rfl, rfl⟩ := Prod.mk.inj added
    exact ⟨.none _, fun ok => by cases ok⟩
  · split at added
    · rename_i found holds
      split at added
      · rename_i same
        obtain ⟨rfl, rfl⟩ := Prod.mk.inj added
        exact ⟨.none _, fun _ => same ▸ (Table.of_find holds).1⟩
      · obtain ⟨rfl, rfl⟩ := Prod.mk.inj added
        exact ⟨.none _, fun ok => by cases ok⟩
    · split at added
      · obtain ⟨rfl, rfl⟩ := Prod.mk.inj added
        exact ⟨.none _, fun ok => by cases ok⟩
      · split at added
        · obtain ⟨rfl, rfl⟩ := Prod.mk.inj added
          exact ⟨.none _, fun ok => by cases ok⟩
        · rename_i consumers inserted
          obtain ⟨rfl, rfl⟩ := Prod.mk.inj added
          exact ⟨.consumer d consumers fun row => Table.mem_insert? inserted,
            fun _ => (Table.mem_insert? inserted).mpr (.inl rfl)⟩

theorem store_effect {subject text : String} {r : Except Exn Unit}
    (stored : b.store subject text = (r, b')) : BrokerEffect b (.publish subject text) b' := by
  unfold Broker.store at stored
  split at stored
  · obtain ⟨rfl, rfl⟩ := Prod.mk.inj stored
    exact .none _
  · rename_i s found
    obtain ⟨rfl, rfl⟩ := Prod.mk.inj stored
    have under := List.find?_some found
    exact .message s subject text _ (List.mem_of_find?_eq_some found) under (trim_sublist s _)

theorem exec_brokerEffect {r : Except Exn Unit} (executed : b.exec c = (r, b')) :
    BrokerEffect b c b' ∧ Confirms b' ⟨c, r⟩ := by
  cases c with
  | connect | jetstreamManager =>
    obtain ⟨rfl, rfl⟩ := Prod.mk.inj executed
    exact ⟨.none _, trivial⟩
  | streamsInfo name =>
    obtain ⟨rfl, rfl⟩ := Prod.mk.inj executed
    refine ⟨.none _, ?_⟩
    by_cases there : b.streams.rows.any (·.name = name)
    · rw [if_pos there]
      obtain ⟨s, stored, named⟩ := List.any_eq_true.mp there
      exact ⟨s, stored, of_decide_eq_true named⟩
    · rw [if_neg there]
      trivial
  | consumersInfo stream durable =>
    obtain ⟨rfl, rfl⟩ := Prod.mk.inj executed
    refine ⟨.none _, ?_⟩
    by_cases there : b.consumers.rows.any (·.key = (stream, durable))
    · rw [if_pos there]
      obtain ⟨d, stored, named⟩ := List.any_eq_true.mp there
      exact ⟨d, stored, of_decide_eq_true named⟩
    · rw [if_neg there]
      trivial
  | streamsAdd cfg =>
    obtain ⟨effect, stored⟩ := addStream_effect executed
    refine ⟨effect, ?_⟩
    cases r with
    | error e => trivial
    | ok _ => exact stored rfl
  | consumersAdd d =>
    obtain ⟨effect, stored⟩ := addConsumer_effect executed
    refine ⟨effect, ?_⟩
    cases r with
    | error e => trivial
    | ok _ => exact stored rfl
  | publish subject text => exact ⟨store_effect executed, by cases r <;> trivial⟩
  | startConsumeLoop cfg =>
    obtain ⟨rfl, rfl⟩ := Prod.mk.inj executed
    exact ⟨.loop cfg, List.mem_cons_self⟩

theorem brokerExec_effect {fault : Option Fault} {r : Except Exn Unit}
    (executed : brokerExec c fault b = some (r, b')) :
    BrokerEffect b c b' ∧ Confirms b' ⟨c, r⟩ := by
  unfold brokerExec at executed
  split at executed
  · split at executed
    · obtain ⟨rfl, rfl⟩ := Prod.mk.inj (Option.some.inj executed)
      refine ⟨?_, by cases c <;> trivial⟩
      split
      · exact (exec_brokerEffect rfl).1
      · exact .none _
    · contradiction
  · exact exec_brokerEffect (Option.some.inj executed)

/-- Streams, consumers and loops stay. -/
structure Retains (b b' : Broker) : Prop where
  streams : ∀ s ∈ b.streams, s ∈ b'.streams
  consumers : ∀ d ∈ b.consumers, d ∈ b'.consumers
  loops : ∀ cfg ∈ b.loops, cfg ∈ b'.loops

theorem BrokerEffect.kept (effect : BrokerEffect b c b') : Retains b b' := by
  cases effect with
  | stream cfg streams rows =>
    exact ⟨fun s stored => (rows s).mpr (.inr stored), fun _ stored => stored, fun _ run => run⟩
  | consumer d consumers rows =>
    exact ⟨fun _ stored => stored, fun d stored => (rows d).mpr (.inr stored), fun _ run => run⟩
  | loop cfg =>
    exact ⟨fun _ stored => stored, fun _ stored => stored, fun _ run => List.mem_cons_of_mem _ run⟩
  | none | passed | message =>
    exact ⟨fun _ stored => stored, fun _ stored => stored, fun _ run => run⟩

/-- A new message is stored in a stream of its subject. -/
theorem BrokerEffect.logged (effect : BrokerEffect b c b') {m : Stored} (stored : m ∈ b'.log) :
    m ∈ b.log ∨ ∃ s ∈ b.streams, s.name = m.stream ∧
      s.subjects.any (covers · m.subject) = true := by
  cases effect with
  | none | stream | consumer | loop => exact .inl stored
  | passed _ clock log kept => exact .inl (kept.subset stored)
  | message s subject text log there under kept =>
    obtain old | new := List.mem_append.mp (kept.subset stored)
    · exact .inl old
    · cases List.mem_singleton.mp new
      exact .inr ⟨s, there, rfl, under⟩

theorem Confirms.kept {e : BrokerEv} (effect : BrokerEffect b c b') (confirmed : Confirms b e) :
    Confirms b' e := by
  obtain ⟨streams, consumers, loops⟩ := effect.kept
  obtain ⟨c, r⟩ := e
  cases r with
  | error e => cases c <;> trivial
  | ok _ =>
    cases c with
    | streamsInfo name =>
      obtain ⟨s, stored, named⟩ := confirmed
      exact ⟨s, streams s stored, named⟩
    | streamsAdd cfg => exact streams cfg confirmed
    | consumersInfo stream durable =>
      obtain ⟨d, stored, named⟩ := confirmed
      exact ⟨d, consumers d stored, named⟩
    | consumersAdd d => exact consumers d confirmed
    | startConsumeLoop cfg => exact loops cfg confirmed
    | _ => trivial

end Effects

/-- A request was rejected, other than one that asks whether something exists. -/
def Refused (trace : List BrokerEv) : Prop :=
  ∃ c e, ⟨c, .error e⟩ ∈ trace ∧ match c with
    | .streamsInfo _ | .consumersInfo .. | .publish .. => False
    | _ => True

def EnsuredStream (trace : List BrokerEv) (stream : NatsStreamConfig) : Prop :=
  ⟨.streamsInfo stream.name, .ok ()⟩ ∈ trace ∨
    ⟨.streamsAdd (NatsService.streamConfig stream), .ok ()⟩ ∈ trace

def EnsuredConsumer (trace : List BrokerEv) (cfg : ConsumerConfig) : Prop :=
  ⟨.consumersInfo cfg.streamName cfg.durableName, .ok ()⟩ ∈ trace ∨
    ⟨.consumersAdd (BaseJetstreamConsumer.durable cfg), .ok ()⟩ ∈ trace

/-- A start creates what is declared, a consumer after its stream, and starts the loop of a
consumer that is there. -/
def StartPoint (service : Service) (trace : List BrokerEv) : BrokerCmd → Prop
  | .streamsAdd cfg => ∃ stream ∈ service.options.streams, cfg = NatsService.streamConfig stream
  | .consumersAdd d => (∃ cfg ∈ service.getConsumers, d = BaseJetstreamConsumer.durable cfg) ∧
      (Refused trace ∨ ∀ stream ∈ service.options.streams, EnsuredStream trace stream)
  | .startConsumeLoop cfg => cfg ∈ service.getConsumers ∧ EnsuredConsumer trace cfg
  | .publish .. => False
  | _ => True

section Points

variable {service : Service} {trace trace' : List BrokerEv}

theorem Refused.mono (refused : Refused trace) (extends' : ∀ e ∈ trace, e ∈ trace') :
    Refused trace' := by
  obtain ⟨c, e, rejected, other⟩ := refused
  exact ⟨c, e, extends' _ rejected, other⟩

theorem EnsuredStream.mono {stream : NatsStreamConfig} (ensured : EnsuredStream trace stream)
    (extends' : ∀ e ∈ trace, e ∈ trace') : EnsuredStream trace' stream :=
  ensured.imp (extends' _) (extends' _)

theorem EnsuredConsumer.mono {cfg : ConsumerConfig} (ensured : EnsuredConsumer trace cfg)
    (extends' : ∀ e ∈ trace, e ∈ trace') : EnsuredConsumer trace' cfg :=
  ensured.imp (extends' _) (extends' _)

theorem along_ensureStream {stream : NatsStreamConfig} (asked : stream ∈ service.options.streams) :
    Along (StartPoint service) (fun trace' r => (∀ e ∈ trace, e ∈ trace') ∧ match r with
      | .ok _ => EnsuredStream trace' stream
      | .error _ => Refused trace') trace (NatsService.ensureStream stream) := by
  refine along_catch.mpr ⟨trivial, fun r => ?_⟩
  cases r with
  | ok _ => exact ⟨fun e found => List.mem_cons_of_mem _ found, .inl List.mem_cons_self⟩
  | error e =>
    refine ⟨⟨stream, asked, rfl⟩, fun r => ?_⟩
    have kept : ∀ e' ∈ trace, e' ∈ (⟨.streamsAdd (NatsService.streamConfig stream), r⟩ ::
        ⟨.streamsInfo stream.name, .error e⟩ :: trace : List BrokerEv) := fun e' found =>
      List.mem_cons_of_mem _ (List.mem_cons_of_mem _ found)
    cases r with
    | ok _ => exact ⟨kept, .inr List.mem_cons_self⟩
    | error e' => exact ⟨kept, _, e', List.mem_cons_self, trivial⟩

/-- The fields of a service whose start was not interrupted by a rejection. -/
def NatsService.ready : NatsService := { nc := true, js := true, jsm := true }

theorem along_natsInit :
    Along (StartPoint service) (fun trace r => ∃ nats, r = .ok nats ∧ (Refused trace ∨
      nats = .ready ∧ ∀ stream ∈ service.options.streams, EnsuredStream trace stream)) []
      (NatsService.onModuleInit service.options) := by
  refine along_catch.mpr (along_command_bind trivial ?_ fun _ => along_catch.mpr
    (along_command_bind trivial ?_ fun _ => along_catch.mpr (along_bind.mpr ?_)))
  · exact fun e => ⟨_, rfl, .inl ⟨_, e, List.mem_cons_self, trivial⟩⟩
  · exact fun e => ⟨_, rfl, .inl ⟨_, e, List.mem_cons_self, trivial⟩⟩
  · refine (along_forEach (J := fun done trace => ∀ stream ∈ done, EnsuredStream trace stream)
      (E := fun trace _ => Refused trace) [] service.options.streams ?_ ?_).mono
      (fun _ _ point => point) fun trace r ended => ?_
    · intro done stream trace asked ensured
      refine (along_ensureStream asked).mono (fun _ _ point => point) fun trace' r ended => ?_
      cases r with
      | error e => exact ended.2
      | ok _ =>
        intro other member
        obtain earlier | last := List.mem_append.mp member
        · exact (ensured other earlier).mono ended.1
        · cases List.mem_singleton.mp last
          exact ended.2
    · exact fun stream member => absurd member List.not_mem_nil
    · cases r with
      | error e => exact ⟨_, rfl, .inl ended⟩
      | ok _ => exact ⟨_, rfl, .inr ⟨rfl, ended⟩⟩

theorem along_ensureConsumer {cfg : ConsumerConfig} (asked : cfg ∈ service.getConsumers)
    (streams : Refused trace ∨ ∀ stream ∈ service.options.streams, EnsuredStream trace stream) :
    Along (StartPoint service) (fun trace' r => (∀ e ∈ trace, e ∈ trace') ∧ match r with
      | .ok _ => EnsuredConsumer trace' cfg
      | .error _ => Refused trace') trace (BaseJetstreamConsumer.ensureConsumer cfg) := by
  refine along_catch.mpr ⟨trivial, fun r => ?_⟩
  cases r with
  | ok _ => exact ⟨fun e found => List.mem_cons_of_mem _ found, .inl List.mem_cons_self⟩
  | error e =>
    refine ⟨⟨⟨cfg, asked, rfl⟩, ?_⟩, fun r => ?_⟩
    · exact streams.imp (fun refused => refused.mono fun e found => List.mem_cons_of_mem _ found)
        fun all stream member =>
          (all stream member).mono fun e found => List.mem_cons_of_mem _ found
    have kept : ∀ e' ∈ trace, e' ∈ (⟨.consumersAdd (BaseJetstreamConsumer.durable cfg), r⟩ ::
        ⟨.consumersInfo cfg.streamName cfg.durableName, .error e⟩ :: trace : List BrokerEv) :=
      fun e' found => List.mem_cons_of_mem _ (List.mem_cons_of_mem _ found)
    cases r with
    | ok _ => exact ⟨kept, .inr List.mem_cons_self⟩
    | error e' => exact ⟨kept, _, e', List.mem_cons_self, trivial⟩

theorem along_consumerInit {nats : NatsService}
    (streams : Refused trace ∨ ∀ stream ∈ service.options.streams, EnsuredStream trace stream) :
    Along (StartPoint service) (fun trace' r => (∀ e ∈ trace, e ∈ trace') ∧ (Refused trace' ∨
      r = .ok () ∧ (nats = .ready → ∀ cfg ∈ service.getConsumers, EnsuredConsumer trace' cfg ∧
        ⟨.startConsumeLoop cfg, .ok ()⟩ ∈ trace'))) trace
      (BaseJetstreamConsumer.onModuleInit nats service.getConsumers) := by
  unfold BaseJetstreamConsumer.onModuleInit
  split
  · rename_i unable
    refine ⟨fun _ found => found, .inr ⟨rfl, fun ready => ?_⟩⟩
    rw [ready] at unable
    contradiction
  · refine (along_forEach (J := fun done trace' => (∀ e ∈ trace, e ∈ trace') ∧ ∀ cfg ∈ done,
      EnsuredConsumer trace' cfg ∧ ⟨.startConsumeLoop cfg, .ok ()⟩ ∈ trace')
      (E := fun trace' _ => (∀ e ∈ trace, e ∈ trace') ∧ Refused trace') [] service.getConsumers
      ?_ ?_).mono
      (fun _ _ point => point) fun trace' r ended => ?_
    · rintro done cfg before asked ⟨older, ensured⟩
      have streams' : Refused before ∨
          ∀ stream ∈ service.options.streams, EnsuredStream before stream := by
        rcases streams with refused | all
        · exact .inl (refused.mono older)
        · exact .inr fun stream member => (all stream member).mono older
      refine along_bind.mpr ((along_ensureConsumer asked streams').mono (fun _ _ point => point)
        fun between r ended => ?_)
      cases r with
      | error e => exact ⟨fun e found => ended.1 e (older e found), ended.2⟩
      | ok _ =>
        refine ⟨⟨asked, ended.2⟩, fun r => ?_⟩
        have kept : ∀ e ∈ between, e ∈ (⟨.startConsumeLoop cfg, r⟩ :: between : List BrokerEv) :=
          fun e found => List.mem_cons_of_mem _ found
        have older' := fun e found => kept e (ended.1 e (older e found))
        cases r with
        | error e => exact ⟨older', _, e, List.mem_cons_self, trivial⟩
        | ok _ =>
          refine ⟨older', fun other member => ?_⟩
          obtain earlier | last := List.mem_append.mp member
          · obtain ⟨there, started⟩ := ensured other earlier
            exact ⟨there.mono fun e found => kept e (ended.1 e found), kept _ (ended.1 _ started)⟩
          · cases List.mem_singleton.mp last
            exact ⟨ended.2.mono kept, List.mem_cons_self⟩
    · exact ⟨fun _ found => found, fun cfg member => absurd member List.not_mem_nil⟩
    · cases r with
      | error e => exact ⟨ended.1, .inl ended.2⟩
      | ok _ => exact ⟨ended.1, .inr ⟨rfl, fun _ => ended.2⟩⟩

def CallPoint : BrokerCall → List BrokerEv → BrokerCmd → Prop
  | .start service, trace, c => StartPoint service trace c
  | .publish nats subject text, trace, c =>
      nats.js = true ∧ trace = [] ∧ c = .publish subject text

/-- A start that no request stopped leaves nothing out. A publication never throws, and sends its
message once, if there is a client. -/
def CallEnd : BrokerCall → List BrokerEv → Except Exn BrokerReply → Prop
  | .start service, trace, r => Refused trace ∨ r = .ok (.started .ready) ∧
      (∀ stream ∈ service.options.streams, EnsuredStream trace stream) ∧
      ∀ cfg ∈ service.getConsumers, EnsuredConsumer trace cfg ∧
        ⟨.startConsumeLoop cfg, .ok ()⟩ ∈ trace
  | .publish nats subject text, trace, r => r = .ok .published ∧
      (nats.js = false ∧ trace = [] ∨ nats.js = true ∧ ∃ a, trace = [⟨.publish subject text, a⟩])

theorem along_brokerBody (call : BrokerCall) :
    Along (CallPoint call) (CallEnd call) [] (brokerBody call) := by
  cases call with
  | publish nats subject text =>
    refine along_bind.mpr ?_
    unfold NatsService.publish
    cases able : nats.js with
    | false => exact ⟨rfl, .inl ⟨able, rfl⟩⟩
    | true =>
      refine along_catch.mpr ⟨⟨able, rfl, rfl⟩, fun r => ?_⟩
      cases r <;> exact ⟨rfl, .inr ⟨able, _, rfl⟩⟩
  | start service =>
    refine along_bind.mpr (along_bind.mpr (along_natsInit.mono (fun _ _ point => point)
      fun trace r ended => ?_))
    obtain ⟨nats, rfl, streams⟩ := ended
    refine along_bind.mpr ((along_consumerInit (streams.imp_right And.right)).mono
      (fun _ _ point => point) fun trace' r ended => ?_)
    obtain ⟨older, refused | ⟨rfl, consumers⟩⟩ := ended
    · cases r <;> exact .inl refused
    · obtain refused | ⟨rfl, ensured⟩ := streams
      · exact .inl (refused.mono older)
      · exact .inr ⟨rfl, fun stream member => (ensured stream member).mono older, consumers rfl⟩

end Points

section Declared

variable {b b' : Broker} {c : BrokerCmd}

theorem declared_stream {service : Service} {stream : NatsStreamConfig}
    (asked : stream ∈ service.options.streams) :
    NatsService.streamConfig stream ∈ declaredStreams := by
  cases service with
  | auth => simp_all [Service.options, declaredStreams]
  | gateway => simp_all [Service.options, declaredStreams]
  | notification =>
    simp only [Service.options, List.mem_cons, List.not_mem_nil, or_false] at asked
    rcases asked with rfl | rfl <;> simp [declaredStreams]

theorem declared_consumer {service : Service} {cfg : ConsumerConfig}
    (asked : cfg ∈ service.getConsumers) :
    BaseJetstreamConsumer.durable cfg ∈ declaredConsumers := by
  cases service <;> simp_all [Service.getConsumers, declaredConsumers]

/-- The stream of a consumer is one that its service creates, and holds what it filters for. -/
theorem consumer_stream {service : Service} {cfg : ConsumerConfig}
    (asked : cfg ∈ service.getConsumers) :
    ∃ stream ∈ service.options.streams, stream.name = cfg.streamName ∧
      stream.subjects.any (covers · cfg.filterSubject) = true := by
  cases service with
  | auth => exact absurd asked List.not_mem_nil
  | gateway =>
    cases List.mem_singleton.mp asked
    exact ⟨notificationEvents, by simp [Service.options], rfl, by decide +kernel⟩
  | notification =>
    cases List.mem_singleton.mp asked
    exact ⟨authEvents, by simp [Service.options], rfl, by decide +kernel⟩

/-- The declared streams have different names and subjects. -/
theorem declared_apart : ∀ cfg ∈ declaredStreams, ∀ s ∈ declaredStreams,
    s.name = cfg.name ∨ collide s.subjects cfg.subjects = true → s = cfg := by decide +kernel

theorem declared_keys :
    ∀ d ∈ declaredConsumers, ∀ e ∈ declaredConsumers, e.key = d.key → e = d := by
  decide +kernel

/-- A request creates what is declared, if anything. -/
def Declares : BrokerCmd → Prop
  | .streamsAdd cfg => cfg ∈ declaredStreams
  | .consumersAdd d => d ∈ declaredConsumers
  | _ => True

theorem declares_point {call : BrokerCall} {trace : List BrokerEv}
    (point : CallPoint call trace c) : Declares c := by
  cases call with
  | publish nats subject text =>
    obtain ⟨_, _, rfl⟩ := point
    trivial
  | start service =>
    cases c with
    | streamsAdd cfg =>
      obtain ⟨stream, asked, rfl⟩ := point
      exact declared_stream asked
    | consumersAdd d =>
      obtain ⟨⟨cfg, asked, rfl⟩, _⟩ := point
      exact declared_consumer asked
    | _ => trivial

theorem Agrees.effect (agrees : Agrees b) (effect : BrokerEffect b c b') (declares : Declares c) :
    Agrees b' := by
  cases effect with
  | none | passed | message | loop => exact ⟨agrees.streams, agrees.consumers⟩
  | stream new streams rows =>
    refine ⟨fun cfg wanted s stored alike => ?_, agrees.consumers⟩
    obtain rfl | old := (rows s).mp stored
    · exact declared_apart cfg wanted s declares alike
    · exact agrees.streams cfg wanted s old alike
  | consumer new consumers rows =>
    refine ⟨agrees.streams, fun d wanted e stored alike => ?_⟩
    obtain rfl | old := (rows e).mp stored
    · exact declared_keys d wanted e declares alike
    · exact agrees.consumers d wanted e old alike

/-- What is there stays, and only declared streams and consumers are added. -/
theorem BrokerEffect.provisions (effect : BrokerEffect b c b') (declares : Declares c) :
    b.provisions ⊆ b'.provisions ∧ b'.provisions ⊆ b.provisions ∪ declared := by
  constructor
  · intro p there
    cases p with
    | stream cfg => exact effect.kept.streams cfg there
    | consumer d => exact effect.kept.consumers d there
  · intro p there
    cases effect with
    | none | passed | message | loop => exact .inl there
    | stream new streams rows =>
      cases p with
      | consumer d => exact .inl there
      | stream cfg =>
        obtain rfl | old := (rows cfg).mp there
        · exact .inr declares
        · exact .inl old
    | consumer new consumers rows =>
      cases p with
      | stream cfg => exact .inl there
      | consumer d =>
        obtain rfl | old := (rows d).mp there
        · exact .inr declares
        · exact .inl old

/-- A declared stream can be created again and again. -/
theorem Agrees.addStream (agrees : Agrees b) {cfg : StreamConfig} (wanted : cfg ∈ declaredStreams) :
    (b.addStream cfg).1 = .ok () := by
  unfold Broker.addStream
  split
  · rename_i found holds
    obtain ⟨stored, named⟩ := Table.of_find holds
    rw [if_pos (agrees.streams cfg wanted found stored (.inl named))]
  · rename_i absent
    have missing : ∀ s ∈ b.streams, s.name ≠ cfg.name := fun s stored named =>
      List.find?_eq_none.mp absent s stored (decide_eq_true named)
    rw [if_neg]
    · split
      · rename_i taken
        rw [← Option.not_isSome_iff_eq_none] at taken
        exact absurd (Table.insert?_of_fresh missing) taken
      · rfl
    · intro overlapping
      obtain ⟨s, stored, collides⟩ := List.any_eq_true.mp overlapping
      have same := agrees.streams cfg wanted s stored (.inr collides)
      exact missing s stored (congrArg StreamConfig.name same)

/-- A declared consumer can be created again and again on the stream of its service. -/
theorem Agrees.addConsumer (agrees : Agrees b) {service : Service} {cfg : ConsumerConfig}
    (asked : cfg ∈ service.getConsumers)
    (streams : ∀ stream ∈ service.options.streams, ∃ s ∈ b.streams, s.name = stream.name) :
    (b.addConsumer (BaseJetstreamConsumer.durable cfg)).1 = .ok () := by
  obtain ⟨stream, created, named, under⟩ := consumer_stream asked
  obtain ⟨s, stored, called⟩ := streams stream created
  have wanted := declared_consumer asked
  unfold Broker.addConsumer
  split
  · rename_i absent
    exact absurd (decide_eq_true (called.trans named)) (List.find?_eq_none.mp absent s stored)
  · rename_i s' found
    obtain ⟨stored', called'⟩ := Table.of_find found
    have same : s' = NatsService.streamConfig stream :=
      agrees.streams _ (declared_stream created) s' stored' (.inl (called'.trans named.symm))
    split
    · rename_i d holds
      obtain ⟨there, keyed⟩ := Table.of_find holds
      rw [if_pos (agrees.consumers _ wanted d there keyed)]
    · rename_i absent
      rw [if_neg (not_not_intro (same ▸ under))]
      split
      · rename_i taken
        rw [← Option.not_isSome_iff_eq_none] at taken
        refine absurd (Table.insert?_of_fresh fun other stored keyed => ?_) taken
        exact List.find?_eq_none.mp absent other stored (decide_eq_true keyed)
      · rfl

end Declared

/-- No request fails on its own. -/
def Answered (_ : BrokerPool) : BrokerStep → Prop
  | .run _ fault => fault = none
  | _ => True

instance (pool : BrokerPool) (label : BrokerStep) : Decidable (Answered pool label) := by
  unfold Answered
  cases label <;> infer_instance

def Broker.empty : Broker := {}

theorem agrees_empty : Agrees .empty :=
  ⟨fun _ _ s stored => absurd stored (Table.not_mem_empty s),
    fun _ _ d stored => absurd stored (Table.not_mem_empty d)⟩

/-- A call has ended, and which. -/
def returned (t : Nat) (call : BrokerCall → Bool) (pool : BrokerPool) : Bool :=
  match pool.thread? t with
  | some ⟨request, _, .done (.ok _)⟩ => call request
  | _ => false

def isStart (service : Service) : BrokerCall → Bool
  | .start service' => service' = service
  | .publish .. => false

section Runs

variable {b : Broker} {pool pool' : BrokerPool} {th : BrokerThread} {label : BrokerStep}
  {cond : BrokerPool → BrokerStep → Prop}

/-- The calls run on a broker, in any number and any interleaving. -/
abbrev On (cond : BrokerPool → BrokerStep → Prop) (b : Broker) : BrokerPool → Prop :=
  brokerSystem.Reachable cond (· = b)

theorem confirmed (reachable : On cond b pool) (found : pool.thread? t = some th) {e : BrokerEv}
    (executed : e ∈ th.trace) : Confirms pool.store e := by
  refine reachable.seen (P := fun _ b e => Confirms b e) found executed ?_ ?_ ?_
  · intro pool t choice th c r s _ _ _ ran
    exact (brokerExec_effect ran).2
  · intro _ e c choice s r s' ran before
    exact before.kept (brokerExec_effect ran).1
  · intro _ e ns s s' passed before
    cases Option.some.inj passed
    exact before.kept (pass_effect .connect ns)

theorem EnsuredStream.stored {trace : List BrokerEv} {service : Service} {stream : NatsStreamConfig}
    (agrees : Agrees b) (asked : stream ∈ service.options.streams)
    (ensured : EnsuredStream trace stream) (confirms : ∀ e ∈ trace, Confirms b e) :
    NatsService.streamConfig stream ∈ b.streams := by
  obtain told | added := ensured
  · obtain ⟨s, stored, named⟩ := confirms _ told
    rwa [← agrees.streams _ (declared_stream asked) s stored (.inl named)]
  · exact confirms _ added

theorem EnsuredConsumer.stored {trace : List BrokerEv} {service : Service} {cfg : ConsumerConfig}
    (agrees : Agrees b) (asked : cfg ∈ service.getConsumers)
    (ensured : EnsuredConsumer trace cfg) (confirms : ∀ e ∈ trace, Confirms b e) :
    BaseJetstreamConsumer.durable cfg ∈ b.consumers := by
  obtain told | added := ensured
  · obtain ⟨d, stored, keyed⟩ := confirms _ told
    rwa [← agrees.consumers _ (declared_consumer asked) d stored keyed]
  · exact confirms _ added

/-- What a step of a run requests. -/
theorem step_brokerEffect (reachable : On cond b pool)
    (effect : brokerSystem.Effect pool label pool') :
    ∃ c, BrokerEffect pool.store c pool'.store ∧ Declares c := by
  cases effect with
  | spawn q => exact ⟨.connect, .none _, trivial⟩
  | act ns s passed =>
    cases Option.some.inj passed
    exact ⟨.connect, pass_effect _ ns, trivial⟩
  | run t choice th c k r s found awaits ran =>
    exact ⟨c, (brokerExec_effect ran).1,
      declares_point (reachable.point along_brokerBody found (by rw [Thread.next?, awaits]))⟩

theorem agrees_kept (agrees : Agrees b) (reachable : On cond b pool) : Agrees pool.store := by
  refine reachable.invariant (P := fun pool => Agrees pool.store) ?_ ?_
  · rintro s rfl
    exact agrees
  · intro pool label pool' before _ held _ effect
    obtain ⟨c, changed, declares⟩ := step_brokerEffect before effect
    exact held.effect changed declares

theorem provisions_accrete (cond : BrokerPool → BrokerStep → Prop) (b : Broker) :
    brokerSystem.Accretes cond (· = b) Broker.provisions declared := by
  intro pool label pool' before _ effect
  obtain ⟨c, changed, declares⟩ := step_brokerEffect before effect
  exact changed.provisions declares

/-- A loop runs on the broker, with its consumer. -/
def LoopsBacked (b now : Broker) : Prop :=
  ∀ cfg ∈ now.loops, cfg ∈ b.loops ∨ BaseJetstreamConsumer.durable cfg ∈ now.consumers

theorem loops_backed (agrees : Agrees b) (reachable : On cond b pool) :
    LoopsBacked b pool.store := by
  refine reachable.invariant (P := fun pool => LoopsBacked b pool.store) ?_ ?_
  · rintro s rfl cfg started
    exact .inl started
  · intro pool label pool' before _ backed _ effect cfg started
    have kept : cfg ∈ pool.store.loops → cfg ∈ b.loops ∨
        BaseJetstreamConsumer.durable cfg ∈ pool'.store.consumers := by
      intro old
      obtain ⟨c, changed, _⟩ := step_brokerEffect before effect
      exact (backed cfg old).imp_right (changed.kept.consumers _)
    cases effect with
    | spawn q => exact kept started
    | act ns s passed =>
      cases Option.some.inj passed
      exact kept started
    | run t choice th c k r s found awaits ran =>
      obtain ⟨changed, _⟩ := brokerExec_effect ran
      cases changed with
      | none | passed | stream | consumer | message => exact kept started
      | loop new =>
        obtain rfl | old := List.mem_cons.mp started
        · have point := before.point along_brokerBody found (by rw [Thread.next?, awaits])
          cases asked : th.request with
          | publish nats subject text =>
            rw [asked] at point
            cases point.2.2
          | start service =>
            rw [asked] at point
            have there : BaseJetstreamConsumer.durable cfg ∈ pool.store.consumers :=
              point.2.stored (agrees_kept agrees before) point.1
                fun e executed => confirmed before found executed
            exact .inr there
        · exact kept old

/-- Whatever fails and wherever a start is cut short: what is on the broker stays, and only what
the services declare is added. A loop runs for consumers that exist. A start of which no request
was rejected is complete. -/
theorem starts_provision (agrees : Agrees b) (reachable : On System.Any b pool) :
    b.provisions ⊆ pool.store.provisions ∧ pool.store.provisions ⊆ b.provisions ∪ declared ∧
    LoopsBacked b pool.store ∧
    ∀ th ∈ pool.threads, ∀ service r, th.request = .start service → th.result? = some r →
      ¬ Refused th.trace → r = .ok (.started .ready) ∧
        (∀ stream ∈ service.options.streams,
          NatsService.streamConfig stream ∈ pool.store.streams) ∧
        ∀ cfg ∈ service.getConsumers,
          BaseJetstreamConsumer.durable cfg ∈ pool.store.consumers := by
  have between := (provisions_accrete System.Any b).between b.provisions
    (fun s same => congrArg Broker.provisions same) reachable
  refine ⟨between.1, between.2, loops_backed agrees reachable, ?_⟩
  intro th member service r asked ended accepted
  obtain ⟨t, found⟩ := Pool.mem_threads.mp member
  have complete := reachable.returned along_brokerBody found ended
  rw [asked] at complete
  obtain refused | ⟨rfl, streams, consumers⟩ := complete
  · exact absurd refused accepted
  · have confirms := fun e executed => confirmed reachable found (e := e) executed
    have held := agrees_kept agrees reachable
    exact ⟨rfl, fun stream created => (streams stream created).stored held created confirms,
      fun cfg provided => (consumers cfg provided).1.stored held provided confirms⟩

/-- The gateway's request for a stream is rejected, and the notification service creates it. -/
def rejectedStart : List BrokerStep :=
  [.spawn (.start .gateway), .spawn (.start .notification), .run 0 none, .run 0 none, .run 0 none,
    .run 0 (some ⟨Broker.noResponders, false⟩), .run 0 none, .run 0 none] ++
    List.replicate 9 (.run 1 none)

theorem starts_provision_rejected : ∃ pool : BrokerPool, On System.Any .empty pool ∧
    rejectedStart.length = 17 ∧ pool.store.provisions ⊆ Broker.empty.provisions ∪ declared ∧
    LoopsBacked .empty pool.store := by
  have tested : (brokerSystem.replay System.Any (System.idle .empty) rejectedStart).any
      (returned 1 (isStart .notification)) = true := by decide +kernel
  obtain ⟨pool, run, -⟩ := System.run_of_replay tested
  have reachable : On System.Any .empty pool := ⟨.empty, rfl, run⟩
  have provided := starts_provision agrees_empty reachable
  exact ⟨pool, reachable, rfl, provided.2.1, provided.2.2.1⟩

/-- Where no request fails on its own, none is refused: the services do not get in each other's
way. -/
theorem not_refused (agrees : Agrees b) (reachable : On Answered b pool)
    (member : th ∈ pool.threads) : ¬ Refused th.trace := by
  suffices all : ∀ th ∈ pool.threads, ¬ Refused th.trace from all th member
  refine reachable.invariant (P := fun pool => ∀ th ∈ pool.threads, ¬ Refused th.trace) ?_ ?_
  · exact fun s _ th member => absurd member List.not_mem_nil
  · intro pool label pool' before _ accepted met effect th member
    obtain ⟨u, found'⟩ := Pool.mem_threads.mp member
    cases effect with
    | act ns s passed => exact accepted th (Pool.thread?_mem found')
    | spawn q =>
      obtain ⟨_, rfl⟩ | old := Pool.add_cases found'
      · rintro ⟨c, e, rejected, _⟩
        exact absurd rejected List.not_mem_nil
      · exact accepted th (Pool.thread?_mem old)
    | run t choice th' c k r s found awaits ran =>
      obtain ⟨rfl, rfl⟩ | ⟨_, old⟩ := Pool.set_cases found'
      · have earlier := accepted th' (Pool.thread?_mem found)
        have point := before.point along_brokerBody found (by rw [Thread.next?, awaits])
        have held := agrees_kept agrees before
        cases met
        have answer := Option.some.inj ran
        rintro ⟨c', e, rejected, other⟩
        obtain last | old := List.mem_cons.mp rejected
        · obtain ⟨rfl, rfl⟩ := Event.mk.inj last
          cases c' with
          | streamsInfo | consumersInfo | publish => exact other
          | connect | jetstreamManager | startConsumeLoop =>
            have refused := (Prod.mk.inj answer).1
            contradiction
          | streamsAdd cfg =>
            have created := held.addStream (declares_point point)
            have refused := congrArg Prod.fst answer
            rw [show pool.store.exec (.streamsAdd cfg) = pool.store.addStream cfg from rfl,
              created] at refused
            contradiction
          | consumersAdd d =>
            cases asked : th'.request with
            | publish nats subject text =>
              rw [asked] at point
              cases point.2.2
            | start service =>
              rw [asked] at point
              obtain ⟨⟨cfg, provided, rfl⟩, refused | streams⟩ := point
              · exact earlier refused
              · have created := held.addConsumer provided fun stream created =>
                  ⟨_, (streams stream created).stored held created
                    fun e executed => confirmed before found executed, rfl⟩
                have refused := congrArg Prod.fst answer
                rw [show pool.store.exec (.consumersAdd (BaseJetstreamConsumer.durable cfg)) =
                  pool.store.addConsumer (BaseJetstreamConsumer.durable cfg) from rfl,
                  created] at refused
                contradiction
        · exact earlier ⟨c', e, old, other⟩
      · exact accepted th (Pool.thread?_mem old)

/-- In whatever order the services start, and however many instances at once: every start that ends
is complete, with its streams, its consumers and their loops. -/
theorem starts_complete (agrees : Agrees b) (reachable : On Answered b pool) :
    ∀ th ∈ pool.threads, ∀ service r, th.request = .start service → th.result? = some r →
      r = .ok (.started .ready) ∧
      (∀ stream ∈ service.options.streams,
        NatsService.streamConfig stream ∈ pool.store.streams) ∧
      ∀ cfg ∈ service.getConsumers, BaseJetstreamConsumer.durable cfg ∈ pool.store.consumers ∧
        cfg ∈ pool.store.loops := by
  intro th member service r asked ended
  obtain ⟨t, found⟩ := Pool.mem_threads.mp member
  have complete := reachable.returned along_brokerBody found ended
  rw [asked] at complete
  obtain refused | ⟨rfl, streams, consumers⟩ := complete
  · exact absurd refused (not_refused agrees reachable member)
  · have confirms := fun e executed => confirmed reachable found (e := e) executed
    have held := agrees_kept agrees reachable
    exact ⟨rfl, fun stream created => (streams stream created).stored held created confirms,
      fun cfg provided => ⟨(consumers cfg provided).1.stored held provided confirms,
        confirms _ (consumers cfg provided).2⟩⟩

/-- Two services find that a stream is missing, and both create it. -/
def racingStarts : List BrokerStep :=
  [.spawn (.start .notification), .spawn (.start .gateway)] ++ List.replicate 5 (.run 0 none) ++
    List.replicate 4 (.run 1 none) ++ List.replicate 4 (.run 0 none) ++
    List.replicate 3 (.run 1 none)

theorem starts_complete_racing : ∃ pool : BrokerPool, On Answered .empty pool ∧
    (∃ th ∈ pool.threads, th.request = .start .gateway ∧
      th.result? = some (.ok (.started .ready))) ∧
    NatsService.streamConfig notificationEvents ∈ pool.store.streams ∧
    notificationCreated ∈ pool.store.loops := by
  have tested : (brokerSystem.replay Answered (System.idle .empty) racingStarts).any
      (returned 1 (isStart .gateway)) = true := by decide +kernel
  obtain ⟨pool, run, ended⟩ := System.run_of_replay tested
  clear tested
  have reachable : On Answered .empty pool := ⟨.empty, rfl, run⟩
  unfold returned at ended
  split at ended
  · rename_i request trace reply found
    have member := Pool.thread?_mem found
    cases request with
    | publish => contradiction
    | start service =>
      cases of_decide_eq_true ended
      obtain ⟨ready, streams, consumers⟩ :=
        starts_complete agrees_empty reachable _ member .gateway _ rfl rfl
      exact ⟨pool, reachable, ⟨_, member, rfl, congrArg some ready⟩,
        streams _ (by simp [Service.options]), (consumers _ (by simp [Service.getConsumers])).2⟩
  · contradiction

/-- The publication of a message has been asked for. -/
def requested (subject text : String) : BrokerEv → Bool
  | ⟨.publish subject' text', _⟩ => subject' = subject && text' = text
  | _ => false

/-- A publication that the broker has confirmed. -/
def published (subject text : String) : BrokerEv → Bool
  | ⟨.publish subject' text', .ok _⟩ => subject' = subject && text' = text
  | _ => false

/-- The calls that have asked for such a publication. -/
def asks (subject text : String) (th : BrokerThread) : Bool := th.trace.any (requested subject text)

/-- The calls that have such a publication confirmed. -/
def publishes (subject text : String) (th : BrokerThread) : Bool :=
  th.trace.any (published subject text)

/-- The messages of a subject and a text. -/
def Broker.messages (b : Broker) (subject text : String) : Nat :=
  b.log.countP fun m => m.subject = subject && m.text = text

/-- Nothing is dropped: where a request reaches the broker, no stream is full, and where the time
passes, no message has come to its age. -/
def Roomy (pool : BrokerPool) : BrokerStep → Prop
  | .spawn _ => True
  | .run .. => ∀ s ∈ pool.store.streams.rows,
      s.max_msgs = 0 ∨ s.size pool.store.log < s.max_msgs
  | .act ns => ∀ m ∈ pool.store.log, pool.store.aged (pool.store.clock + ns) m = false

instance (pool : BrokerPool) (label : BrokerStep) : Decidable (Roomy pool label) := by
  unfold Roomy
  cases label <;> infer_instance

section Messages

variable {b b' : Broker} {c : BrokerCmd} {r : Except Exn Unit} {subject text : String}

/-- A message more is one that was asked for. -/
theorem BrokerEffect.messages (effect : BrokerEffect b c b') (r : Except Exn Unit) :
    b'.messages subject text ≤ b.messages subject text + tally (requested subject text) ⟨c, r⟩ := by
  cases effect with
  | none | stream | consumer | loop => exact Nat.le_add_right _ _
  | passed _ clock log kept => exact (kept.countP_le).trans (Nat.le_add_right _ _)
  | message s subject' text' log there under kept =>
    refine (kept.countP_le).trans ?_
    rw [List.countP_append, List.countP_singleton]
    rfl

theorem trim_roomy {s : StreamConfig} {log : List Stored}
    (room : s.max_msgs = 0 ∨ s.size log ≤ s.max_msgs) : s.trim log = log := by
  unfold StreamConfig.trim
  split
  · rfl
  · rename_i limited
    rw [Nat.sub_eq_zero_of_le (room.resolve_left limited)]
    rfl

theorem addStream_log (b : Broker) (cfg : StreamConfig) : (b.addStream cfg).2.log = b.log := by
  unfold Broker.addStream
  split
  · split <;> rfl
  · split
    · rfl
    · split <;> rfl

theorem addConsumer_log (b : Broker) (d : Durable) : (b.addConsumer d).2.log = b.log := by
  unfold Broker.addConsumer
  split
  · rfl
  · split
    · split <;> rfl
    · split
      · rfl
      · split <;> rfl

/-- Where no stream is full, a message that the broker confirms is stored, and none is dropped. -/
theorem exec_messages
    (room : ∀ s ∈ b.streams.rows, s.max_msgs = 0 ∨ s.size b.log < s.max_msgs)
    (executed : b.exec c = (r, b')) :
    b.messages subject text + tally (published subject text) ⟨c, r⟩ ≤ b'.messages subject text := by
  have same : b'.log = b.log → b.messages subject text = b'.messages subject text := by
    intro log
    rw [Broker.messages, Broker.messages, log]
  cases c with
  | publish subject' text' =>
    have stored : b.store subject' text' = (r, b') := executed
    unfold Broker.store at stored
    split at stored
    · obtain ⟨rfl, rfl⟩ := Prod.mk.inj stored
      exact Nat.le_refl _
    · rename_i s found
      obtain ⟨rfl, rfl⟩ := Prod.mk.inj stored
      have fits : s.max_msgs = 0 ∨
          s.size (b.log ++ [⟨s.name, subject', text', b.clock⟩]) ≤ s.max_msgs := by
        refine (room s (List.mem_of_find?_eq_some found)).imp_right fun free => ?_
        have one : List.countP (fun m : Stored => decide (m.stream = s.name))
            [⟨s.name, subject', text', b.clock⟩] ≤ 1 := List.countP_le_length
        rw [StreamConfig.size, List.countP_append]
        rw [StreamConfig.size] at free
        omega
      rw [trim_roomy fits]
      simp only [Broker.messages, List.countP_append, List.countP_singleton, tally, published]
      exact Nat.le_refl _
  | streamsAdd cfg =>
    obtain ⟨rfl, rfl⟩ := Prod.mk.inj executed.symm
    exact (same (addStream_log b cfg)).le
  | consumersAdd d =>
    obtain ⟨rfl, rfl⟩ := Prod.mk.inj executed.symm
    exact (same (addConsumer_log b d)).le
  | _ =>
    obtain ⟨rfl, rfl⟩ := Prod.mk.inj executed
    exact Nat.le_refl _

theorem brokerExec_messages {fault : Option Fault}
    (room : ∀ s ∈ b.streams.rows, s.max_msgs = 0 ∨ s.size b.log < s.max_msgs)
    (executed : brokerExec c fault b = some (r, b')) :
    b.messages subject text + tally (published subject text) ⟨c, r⟩ ≤ b'.messages subject text := by
  unfold brokerExec at executed
  split at executed
  · split at executed
    · obtain ⟨rfl, rfl⟩ := Prod.mk.inj (Option.some.inj executed)
      have unconfirmed : ∀ e, tally (published subject text) ⟨c, .error e⟩ = 0 := by
        intro e
        cases c <;> rfl
      rw [unconfirmed]
      split
      · exact (Nat.le_add_right _ _).trans (exec_messages room rfl)
      · exact Nat.le_refl _
    · contradiction
  · exact exec_messages room (Option.some.inj executed)

end Messages

/-- A call publishes at most once. -/
theorem published_once {p : BrokerEv → Bool}
    (publication : ∀ e, p e = true → ∃ subject text, e.cmd = .publish subject text)
    (reachable : On cond b pool) (member : th ∈ pool.threads) :
    th.trace.countP p = if th.trace.any p then 1 else 0 := by
  obtain ⟨t, found⟩ := Pool.mem_threads.mp member
  cases asked : th.request with
  | start service =>
    have never : ∀ e ∈ th.trace, p e = false := by
      intro e executed
      refine reachable.witnessed (P := fun call (_ : Broker) e => call = .start service →
        p e = false) found executed ?_ ?_ asked
      · intro pool t choice th c r s before found next _ ran started
        have point := before.point along_brokerBody found next
        rw [started] at point
        by_contra counts
        obtain ⟨subject, text, rfl⟩ := publication _ (Bool.not_eq_false _ ▸ counts)
        exact point
      · exact fun _ _ _ _ _ _ _ _ holds => holds
    have none : th.trace.any p = false := by
      simpa only [List.any_eq_false, Bool.not_eq_true] using never
    rw [none, List.countP_eq_zero.mpr fun e executed => by simp [never e executed]]
    rfl
  | publish nats subject' text' =>
    have short : th.trace = [] ∨ ∃ e, th.trace = [e] := by
      have along := reachable.along along_brokerBody found
      rw [asked] at along
      cases ended : th.rest with
      | done r =>
        rw [ended] at along
        obtain ⟨_, ⟨_, none⟩ | ⟨_, a, one⟩⟩ := along
        · exact .inl none
        · exact .inr ⟨_, one⟩
      | await c k =>
        rw [ended] at along
        exact .inl along.1.2.1
    obtain none | ⟨e, one⟩ := short
    · simp only [none, List.countP_nil, List.any_nil, Bool.false_eq_true, if_false]
    · simp only [one, List.countP_singleton, List.any_cons, List.any_nil, Bool.or_false]

theorem requested_publish {subject text : String} (e : BrokerEv)
    (asked : requested subject text e = true) : ∃ subject text, e.cmd = .publish subject text := by
  obtain ⟨c, r⟩ := e
  cases c with
  | publish subject' text' => exact ⟨subject', text', rfl⟩
  | _ => contradiction

/-- What has been confirmed has been asked for. -/
theorem requested_of_published {subject text : String} {e : BrokerEv}
    (confirmed : published subject text e = true) : requested subject text e = true := by
  obtain ⟨c, r⟩ := e
  cases r with
  | ok _ => cases c <;> exact confirmed
  | error _ => cases c <;> contradiction

/-- The messages are at most those that were there and one for each call that asked for one. -/
theorem messages_bounded (reachable : On cond b pool) (subject text : String) :
    pool.store.messages subject text ≤
      b.messages subject text + pool.threads.countP (asks subject text) := by
  have each : pool.executed (requested subject text) = pool.threads.countP (asks subject text) :=
    Pool.executed_eq_countP fun th member => published_once requested_publish reachable member
  rw [← each]
  refine reachable.counted (P := fun n now => now.messages subject text ≤
    b.messages subject text + n) ?_ ?_ ?_
  · rintro s rfl
    exact Nat.le_refl _
  · intro pool t choice th c r s n _ _ _ _ ran before
    have more : s.messages subject text ≤
        pool.store.messages subject text + tally (requested subject text) ⟨c, r⟩ :=
      (brokerExec_effect ran).1.messages r
    omega
  · intro pool ns s n _ _ passed before
    cases Option.some.inj passed
    exact (List.filter_sublist.countP_le).trans before

/-- Where nothing is dropped, they are at least those that were there and one for each call whose
publication was confirmed. -/
theorem messages_kept (reachable : On Roomy b pool) (subject text : String) :
    b.messages subject text + pool.threads.countP (publishes subject text) ≤
      pool.store.messages subject text := by
  have each :
      pool.executed (published subject text) = pool.threads.countP (publishes subject text) :=
    Pool.executed_eq_countP fun th member => published_once
      (fun e confirmed => requested_publish e (requested_of_published confirmed)) reachable member
  rw [← each]
  refine reachable.counted (P := fun n now => b.messages subject text + n ≤
    now.messages subject text) ?_ ?_ ?_
  · rintro s rfl
    exact Nat.le_refl _
  · intro pool t choice th c r s n _ _ _ room ran before
    have more : pool.store.messages subject text + tally (published subject text) ⟨c, r⟩ ≤
        s.messages subject text := brokerExec_messages room ran
    omega
  · intro pool ns s n _ fresh passed before
    cases Option.some.inj passed
    have all : (pool.store.pass ns).log = pool.store.log := by
      refine List.filter_eq_self.mpr fun m stored => ?_
      rw [fresh m stored]
      rfl
    have same : (pool.store.pass ns).messages subject text = pool.store.messages subject text := by
      rw [Broker.messages, all, Broker.messages]
    exact before.trans same.ge

/-- A stored message is in the stream of its subject. -/
def Routed (b now : Broker) : Prop :=
  ∀ m ∈ now.log, m ∈ b.log ∨ ∃ s ∈ now.streams, s.name = m.stream ∧
    s.subjects.any (covers · m.subject) = true

theorem routed (reachable : On cond b pool) : Routed b pool.store := by
  refine reachable.invariant (P := fun pool => Routed b pool.store) ?_ ?_
  · rintro s rfl m stored
    exact .inl stored
  · intro pool label pool' before _ routed _ effect m stored
    obtain ⟨c, changed, _⟩ := step_brokerEffect before effect
    obtain old | ⟨s, there, named, route⟩ := changed.logged stored
    · refine (routed m old).imp_right ?_
      rintro ⟨s, there, route⟩
      exact ⟨s, changed.kept.streams s there, route⟩
    · exact .inr ⟨s, changed.kept.streams s there, named, route⟩

/-- Publishing never throws. The stored messages of a subject and a text are at most those that were
there and one for each call that asked for the publication. As long as no stream comes to its
limits, they are at least those that were there and one for each call whose publication was
confirmed. Those of a declared subject are in the declared stream. -/
theorem publications_stored (agrees : Agrees b) (reachable : On System.Any b pool) :
    (∀ th ∈ pool.threads, ∀ nats subject text r, th.request = .publish nats subject text →
      th.result? = some r → r = .ok .published) ∧
    (∀ subject text, pool.store.messages subject text ≤
      b.messages subject text + pool.threads.countP (asks subject text)) ∧
    (On Roomy b pool → ∀ subject text,
      b.messages subject text + pool.threads.countP (publishes subject text) ≤
        pool.store.messages subject text) ∧
    ∀ m ∈ pool.store.log, m ∉ b.log → ∀ cfg ∈ declaredStreams,
      cfg.subjects.any (covers · m.subject) = true → m.stream = cfg.name := by
  refine ⟨?_, messages_bounded reachable, messages_kept, ?_⟩
  · intro th member nats subject text r asked ended
    obtain ⟨t, found⟩ := Pool.mem_threads.mp member
    have complete := reachable.returned along_brokerBody found ended
    rw [asked] at complete
    exact complete.1
  · intro m stored new cfg wanted under
    obtain old | ⟨s, there, named, under'⟩ := routed reachable m stored
    · exact absurd old new
    · rw [← named, (agrees_kept agrees reachable).streams cfg wanted s there
        (.inr (collide_of_covers under' under))]

/-- A registration is published once the auth-service has started. -/
def publishingRun : List BrokerStep :=
  .spawn (.start .auth) :: List.replicate 4 (.run 0 none) ++
    [.spawn (.publish .ready "user.registered" "ada"), .run 1 none, .act 1000000000]

theorem publications_stored_registered : ∃ pool : BrokerPool, On System.Any .empty pool ∧
    pool.store.messages "user.registered" "ada" = 1 := by
  have tested : (brokerSystem.replay Roomy (System.idle .empty) publishingRun).any
      (fun pool => pool.threads.countP (asks "user.registered" "ada") = 1 &&
        pool.threads.countP (publishes "user.registered" "ada") = 1) = true := by
    decide +kernel
  obtain ⟨pool, run, counted⟩ := System.run_of_replay tested
  obtain ⟨asked, confirmed⟩ := Bool.and_eq_true_iff.mp counted
  have roomy : On Roomy .empty pool := ⟨.empty, rfl, run⟩
  have reachable : On System.Any .empty pool := ⟨.empty, rfl, run.mono fun _ _ _ => trivial⟩
  obtain ⟨-, most, least, -⟩ := publications_stored agrees_empty reachable
  have above := most "user.registered" "ada"
  have below := least roomy "user.registered" "ada"
  have none : Broker.empty.messages "user.registered" "ada" = 0 := rfl
  rw [none, of_decide_eq_true asked] at above
  rw [none, of_decide_eq_true confirmed] at below
  exact ⟨pool, reachable, Nat.le_antisymm above below⟩

end Runs

end CorePlatform.Nats
