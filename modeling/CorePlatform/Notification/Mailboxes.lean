import CorePlatform.Auth.Mailing
import CorePlatform.Common.Json
import CorePlatform.Notification.CurrentCode
import CorePlatform.Notification.DeadLetters
import CorePlatform.Notification.VerificationMail

/-! The way of a code into a mailbox. The auth service publishes an event, of which a consumer of
the notification service decrypts the code before it mails it, or enqueues a job, of which a worker
mails the token. Over all three, every code that is mailed was made for the account that is
registered under the address of the mail. -/
namespace CorePlatform.Notification
open Async Nats Auth Relational

variable {cfg : Config} {platform : Platform} {d : Decipher} {toISOString : Nat → String}

section Messages

/-- `validatedPayload` of a registration or a resend. -/
def registeredPayload (toISOString : Nat → String) (event : Auth.UserRegisteredEvent) : Js :=
  .obj ([("userId", .str event.userId), ("email", .str event.email), ("code", .str event.code),
    ("createdAt", .str (toISOString event.createdAt))] ++
    event.requestId.toList.map fun requestId => ("requestId", .str requestId))

/-- The message of an event, as `NatsService.publish` writes it. -/
def registeredMessage (toISOString : Nat → String) (event : Auth.UserRegisteredEvent) : String :=
  (registeredPayload toISOString event).stringify.getD "undefined"

/-- `JSON.parse` gives back the texts of an object that has been written. -/
def TextsParsed (platform : Platform) : Prop :=
  ∀ fields, JSON.isValue (.obj fields) = true → ∃ fields',
    platform.jsonParse ((Js.obj fields).stringify.getD "undefined") = some (.obj fields') ∧
      ∀ name text, (Js.obj fields).get name = .str text → (Js.obj fields').get name = .str text

theorem textsParsed_of_parse (parses : platform.jsonParse = JSON.parse) : TextsParsed platform := by
  intro fields genuine
  refine ⟨JSON.decodedFields fields, ?_, ?_⟩
  · rw [parses]
    exact JSON.parse_stringify genuine rfl
  · intro name text found
    have distinct := of_decide_eq_true ((Bool.and_eq_true _ _).mp genuine).1
    exact JSON.get_decodedFields distinct found (by rintro ⟨⟩)

theorem registeredPayload_isValue (event : Auth.UserRegisteredEvent) :
    JSON.isValue (registeredPayload toISOString event) = true := by
  unfold registeredPayload
  cases event.requestId <;>
    simp only [JSON.isValue, JSON.haveValues, JSON.hasValue, Option.toList_none, Option.toList_some,
      List.map_cons, List.map_nil, List.cons_append, List.nil_append, Bool.and_true] <;>
    decide

/-- A message that is read has the address and the code of its event. -/
theorem read_registeredMessage {event : Auth.UserRegisteredEvent} {payload : UserRegisteredEvent}
    (parsed : TextsParsed platform)
    (read : payload ∈ readRegistered platform (registeredMessage toISOString event)) :
    payload.email = event.email ∧ payload.code = event.code := by
  obtain ⟨fields, parses, members⟩ := parsed _ (registeredPayload_isValue event)
  have email := members "email" event.email rfl
  have code := members "code" event.code rfl
  have accepted : UserRegisteredSchema platform (.obj fields) = some payload := by
    rw [readRegistered, registeredMessage, registeredPayload, parses] at read
    exact read
  simp only [UserRegisteredSchema, email, code, stringOf, if_true, Option.bind_eq_bind,
    Option.bind_some, Option.bind_eq_some_iff, Option.pure_def] at accepted
  obtain ⟨userId, -, address, same, createdAt, -, requestId, -, whole⟩ := accepted
  split at same
  · cases same
    cases whole
    exact ⟨rfl, rfl⟩
  · contradiction

/-- A message without a request id is read where its formats are those of the schema. -/
theorem readRegistered_message {event : Auth.UserRegisteredEvent}
    (parses : platform.jsonParse = JSON.parse) (plain : event.requestId = none)
    (userId : platform.uuid event.userId = true) (email : platform.email event.email = true)
    (createdAt : platform.datetime (toISOString event.createdAt) = true) :
    readRegistered platform (registeredMessage toISOString event) =
      some { userId := event.userId, email := event.email, code := event.code
             createdAt := toISOString event.createdAt, requestId := none } := by
  have genuine := @registeredPayload_isValue toISOString event
  have parsed : JSON.parse (registeredMessage toISOString event) =
      some (JSON.decoded (registeredPayload toISOString event)) :=
    JSON.parse_stringify genuine rfl
  have members : JSON.decoded (registeredPayload toISOString event) =
      .obj [("userId", .str event.userId), ("email", .str event.email), ("code", .str event.code),
        ("createdAt", .str (toISOString event.createdAt))] := by
    rw [registeredPayload, plain]
    rfl
  rw [readRegistered, parses, parsed, members]
  simp [UserRegisteredSchema, Js.get, List.lookup_cons, stringOf, optionalString, userId, email,
    createdAt]

end Messages

section Consumers

variable {pool : MailPool} {s s' : MailStore} {choice : LoopChoice Exn} {c : LoopCmd RegisteredApi}
  {r : Except Exn c.Resp}

/-- The mail is for a message that was delivered to the call, with the code it has decrypted. -/
def Carries (platform : Platform) (trace : List (Event (Loop RegisteredApi) Exn)) (mail : Mail) :
    Prop :=
  ∃ msg payload code, (⟨.next, .ok (some msg)⟩ : Event (Loop RegisteredApi) Exn) ∈ trace ∧
    payload ∈ readRegistered platform msg.text ∧
    ⟨.own (some msg.seq) (.decrypt payload.code), .ok code⟩ ∈ trace ∧
    mail = .verifyCode payload.email code

theorem exec_handed (executed : s.exec platform choice c = some (r, s')) :
    s'.handed = s.handed ∨ ∃ delivery mail, c = .own delivery (.sendMail mail) ∧
      s'.handed = (delivery, mail) :: s.handed := by
  have loop : (s.js.exec choice c).map
      (fun out => (out.1, ({ s with js := out.2 } : MailStore))) = some (r, s') →
        s'.handed = s.handed := by
    intro executed
    obtain ⟨out, _, same⟩ := Option.map_eq_some_iff.mp executed
    obtain ⟨_, rfl⟩ := Prod.mk.inj same
    rfl
  cases c with
  | own delivery own =>
    cases own with
    | decrypt cipherText =>
      obtain ⟨_, rfl⟩ := Prod.mk.inj (Option.some.inj executed)
      exact .inl rfl
    | sendMail mail =>
      simp only [MailStore.exec] at executed
      split at executed
      · obtain ⟨_, rfl⟩ := Prod.mk.inj (Option.some.inj executed)
        exact .inl rfl
      · obtain ⟨_, rfl⟩ := Prod.mk.inj (Option.some.inj executed)
        exact .inr ⟨delivery, mail, rfl, rfl⟩
  | _ => exact .inl (loop executed)

/-- The mails that the transport has accepted from the consumers. -/
def MailStore.mails (s : MailStore) : Set Mail := {mail | mail ∈ s.handed.map Prod.snd}

theorem handed_attributed (platform : Platform) (init : MailStore → Prop) :
    (mailSystem platform).Attributes System.Any init MailStore.mails
      (fun _ => Carries platform) fun _ _ _ => False where
  made_longer := by
    rintro _ trace e mail ⟨msg, payload, code, received, read, decrypted, same⟩
    exact ⟨msg, payload, code, List.mem_cons_of_mem _ received, read,
      List.mem_cons_of_mem _ decrypted, same⟩
  taken_longer _ _ _ _ impossible := impossible
  gains pool t choice th c r s reachable found next _ executed mail there := by
    obtain same | ⟨delivery, mail', rfl, handed⟩ := exec_handed executed
    · rw [MailStore.mails, same] at there
      exact .inl there
    · rw [MailStore.mails, handed] at there
      obtain rfl | earlier := List.mem_cons.mp there
      · obtain ⟨msg, handled, _, delivered, payload, read, code, decrypted, same⟩ := reachable.point
          (P := fun _ => LoopPoint (HandlerPoint platform) (HandlerEnd platform))
          (R := fun _ _ _ => True) (fun _ => along_consumeRound along_handle) found next
        exact .inr ⟨msg, payload, code, List.mem_cons_of_mem _ delivered.received, read,
          List.mem_cons_of_mem _ (delivered.executed _ decrypted), same⟩
      · exact .inl earlier
  loses pool t choice th c r s _ _ _ _ executed mail there := by
    obtain ⟨entry, earlier, rfl⟩ := List.mem_map.mp there
    exact .inl (List.mem_map_of_mem ((exec_effect executed).handed entry earlier))
  acts text s s' acted := by
    cases Option.some.inj acted
    rfl

/-- What a command has shown a consumer: a message of the stream, or what a text is decrypted to. -/
def Reads (platform : Platform) (s : MailStore) : Event (Loop RegisteredApi) Exn → Prop
  | ⟨.next, .ok (some msg)⟩ => msg.text ∈ s.js.stream
  | ⟨.own _ (.decrypt cipherText), .ok code⟩ => platform.decrypt cipherText = .ok code
  | _ => True

theorem Reads.later {e : Event (Loop RegisteredApi) Exn} (reads : Reads platform s e)
    (stream : ∀ text ∈ s.js.stream, text ∈ s'.js.stream) : Reads platform s' e := by
  unfold Reads at reads ⊢
  split at reads
  · exact stream _ reads
  · exact reads
  · trivial

theorem exec_reads (executed : s.exec platform choice c = some (r, s')) :
    Reads platform s' ⟨c, r⟩ := by
  cases r with
  | error e =>
    cases c with
    | own delivery own => cases own <;> trivial
    | _ => trivial
  | ok a =>
    cases c with
    | next =>
      cases a with
      | none => trivial
      | some msg =>
        have there := List.mem_of_getElem? (exec_next executed)
        rw [← (exec_effect executed).stream] at there
        exact there
    | own delivery own =>
      cases own with
      | decrypt cipherText => exact exec_decrypt executed
      | sendMail mail => trivial
    | _ => trivial

/-- A mail of a consumer is for a message of the stream, with the code that is decrypted. -/
theorem handed_of_message {init : MailStore → Prop} (silent : ∀ s, init s → s.handed = [])
    (reachable : (mailSystem platform).Reachable System.Any init pool)
    (sent : mail ∈ pool.store.mails) :
    ∃ text ∈ pool.store.js.stream, ∃ payload ∈ readRegistered platform text, ∃ code,
      platform.decrypt payload.code = .ok code ∧ mail = .verifyCode payload.email code := by
  have absent : ∀ s, init s → mail ∉ s.mails := by
    intro s start
    rw [MailStore.mails, silent s start]
    exact List.not_mem_nil
  obtain ⟨th, member, msg, payload, code, received, read, decrypted, same⟩ :=
    (handed_attributed platform init).made_of_absent absent reachable sent
  obtain ⟨t, found⟩ := Pool.mem_threads.mp member
  have shown : ∀ e ∈ th.trace, Reads platform pool.store e := by
    intro e executed
    refine reachable.seen (P := fun _ s e => Reads platform s e) found executed ?_ ?_ ?_
    · exact fun pool t choice th c r s _ _ _ ran => exec_reads ran
    · intro _ e c choice s r s' ran reads
      refine reads.later fun text there => ?_
      rw [(exec_effect ran).stream]
      exact there
    · intro _ e text s s' acted reads
      cases Option.some.inj acted
      exact reads.later fun _ there => List.mem_append_left _ there
  exact ⟨msg.text, shown _ received, payload, read, code, shown _ decrypted, same⟩

/-- What is left of a round that attends to its first message by `prog`. -/
def attending (platform : Platform) (prog : Registered Unit) : Prog (Loop RegisteredApi) Exn Unit :=
  tryCatch (do
    tryCatch (do within (some 0) prog; perform (.ack 0)) fun _ => perform (.nak 0)
    BaseJetstreamConsumer.consumeBatch (JetstreamConsumerService.handle platform) 4)
    fun _ => pure ()

/-- What is left of the handler once the code is decrypted. -/
def mailingCode (email : String) (decrypted : Except Exn String) : Registered Unit := do
  let _ ← tryCatch (do
    let code ← Prog.done decrypted
    Prog.perform (I := RegisteredApi) (.sendMail (.verifyCode email code))
    return Js.bool true) fun _ => return Js.undefined
  return ()

/-- A round with one message that is read and whose code is decrypted: the code is mailed, and the
message acknowledged. -/
theorem eval_round {text code : String} {payload : UserRegisteredEvent}
    (read : readRegistered platform text = some payload)
    (decrypted : platform.decrypt payload.code = .ok code) :
    (BaseJetstreamConsumer.consumeRound (JetstreamConsumerService.handle platform)).eval
      (mailSystem platform).toSemantics { js := { stream := [text] } }
      [{}, {}, {}, { message := some 0 }, {}, {}, {}, {}, {}] =
    some (.ok (), { js := { stream := [text], acked := [0] }
                    handed := [(some 0, .verifyCode payload.email code)] }) := by
  have handled : JetstreamConsumerService.handle platform ⟨0, text⟩ =
      .await (.decrypt payload.code) (mailingCode payload.email) := by
    rw [JetstreamConsumerService.handle, read]
    rfl
  -- the first five commands lead to the handler, and its own are the decryption and the mail
  calc _ = (attending platform (JetstreamConsumerService.handle platform ⟨0, text⟩)).eval
        (mailSystem platform).toSemantics { js := { stream := [text] } } [{}, {}, {}, {}] := rfl
    _ = (attending platform (mailingCode payload.email (platform.decrypt payload.code))).eval
        (mailSystem platform).toSemantics { js := { stream := [text] } } [{}, {}, {}] := by
      rw [handled]
      rfl
    _ = _ := by
      rw [decrypted]
      rfl

end Consumers

section Workers

abbrev JobPool := Pool JobApi Exn QueuedJob Unit JobStore

variable {pool : JobPool} {mail : Mail}

/-- A worker for every job that is taken from the queue. -/
@[reducible] def jobSystem (toISOString : Nat → String) :
    System JobApi Exn QueuedJob Unit JobStore where
  toSemantics := jobSemantics
  body := work toISOString
  Act := Empty
  act a _ := a.elim

/-- The worker sends no mail but the one of its job. -/
def Sends (job : Job) : JobCmd → Prop
  | .sendMail mail => process (fun _ => .ok ()) job = .ok (some mail)
  | .now | .dlqAdd _ => True

theorem uses_process (job : Job) : (JobsService.process job).Uses (Sends job) := by
  cases job with
  | sendVerifyCode email code => exact Prog.Uses.catch ⟨rfl, fun _ => trivial⟩ fun _ => trivial
  | other job =>
    rw [JobsService.process]
    by_cases named : job.name = AuthService.PASSWORD_RESET_REQUESTED
    · rw [if_pos named]
      refine Prog.Uses.catch ⟨?_, fun _ => trivial⟩ fun _ => trivial
      simp only [Sends, process, if_pos named]
    · rw [if_neg named]
      trivial

theorem uses_onFailed (job : Job) (queued : Option QueuedJob) (error : Exn) :
    (JobsService.onFailed toISOString queued error).Uses (Sends job) := by
  unfold JobsService.onFailed
  split
  · trivial
  · exact Prog.Uses.bind ⟨trivial, fun _ => trivial⟩ fun _ =>
      Prog.Uses.catch ⟨trivial, fun _ => trivial⟩ fun _ => trivial

theorem uses_run (left : Nat) (job : QueuedJob) :
    (Worker.run toISOString left job).Uses (Sends job.job) := by
  induction left generalizing job with
  | zero => trivial
  | succ left ih =>
    refine Prog.Uses.bind (Prog.Uses.catch (Prog.Uses.bind (uses_process job.job) fun _ => trivial)
      fun _ => trivial) fun failure => ?_
    cases failure with
    | none => trivial
    | some error => exact Prog.Uses.bind (uses_onFailed _ _ _) fun _ => ih job.failed

/-- The mails that the transport has accepted from the workers. -/
def JobStore.mails (s : JobStore) : Set Mail := {mail | mail ∈ s.sent}

theorem exec_sent {choice : JobChoice} {s s' : JobStore} {c : JobCmd} {r : Except Exn c.Resp}
    (executed : execJob choice s c = some (r, s')) :
    s'.sent = s.sent ∨ ∃ mail, c = .sendMail mail ∧ s'.sent = s.sent ++ [mail] := by
  cases c with
  | sendMail mail =>
    simp only [execJob] at executed
    split at executed
    · cases executed
      exact .inl rfl
    · cases executed
      exact .inr ⟨mail, rfl, rfl⟩
  | now | dlqAdd =>
    cases executed
    exact .inl rfl

theorem sent_attributed (toISOString : Nat → String) (init : JobStore → Prop) :
    (jobSystem toISOString).Attributes System.Any init JobStore.mails
      (fun job _ mail => process (fun _ => .ok ()) job.job = .ok (some mail))
      fun _ _ _ => False where
  made_longer _ _ _ _ mails := mails
  taken_longer _ _ _ _ impossible := impossible
  gains pool t choice th c r s reachable found next _ executed mail there := by
    obtain same | ⟨mail', rfl, sent⟩ := exec_sent executed
    · rw [JobStore.mails, same] at there
      exact .inl there
    · rw [JobStore.mails, sent] at there
      obtain earlier | new := List.mem_append.mp there
      · exact .inl earlier
      · cases List.mem_singleton.mp new
        exact .inr (reachable.point (P := fun job _ => Sends job.job) (R := fun _ _ _ => True)
          (fun job => (uses_run job.attempts job).along) found next)
  loses pool t choice th c r s _ _ _ _ executed mail there := by
    obtain same | ⟨mail', rfl, sent⟩ := exec_sent executed
    · rw [JobStore.mails, same]
      exact .inl there
    · rw [JobStore.mails, sent]
      exact .inl (List.mem_append_left _ there)
  acts a := a.elim

/-- A mail of a worker is the one of a job that was taken from the queue. -/
theorem sent_of_job {init : JobStore → Prop} (silent : ∀ s, init s → s.sent = [])
    (reachable : (jobSystem toISOString).Reachable System.Any init pool)
    (sent : mail ∈ pool.store.mails) :
    ∃ th ∈ pool.threads, process (fun _ => .ok ()) th.request.job = .ok (some mail) := by
  have absent : ∀ s, init s → mail ∉ s.mails := by
    intro s start
    rw [JobStore.mails, silent s start]
    exact List.not_mem_nil
  exact (sent_attributed toISOString init).made_of_absent absent reachable sent

end Workers

/-- The calls of the auth service, the consumers of `user.registered`, and the workers of the
queue. -/
structure Pipeline where
  auth : AuthPool
  consumers : MailPool
  workers : JobPool

inductive PipelineStep (cfg : Config) where
  | auth (label : Auth.Step cfg)
  /-- The message of a published event comes into the stream. -/
  | store (event : Auth.UserRegisteredEvent)
  | round
  | consume (t : Nat) (choice : LoopChoice Exn)
  /-- A worker takes an enqueued job. -/
  | take (defaultJobOptions : JobOptions) (id : String) (job : MailJob)
  | work (t : Nat) (choice : JobChoice)

namespace Pipeline

/-- An event may come into the stream, and a job may be taken, more than once or never. -/
def step (cfg : Config) (platform : Platform) (toISOString : Nat → String) (p : Pipeline) :
    PipelineStep cfg → Option Pipeline
  | .auth label => ((authSystem cfg).step p.auth label).map fun auth => { p with auth }
  | .store event =>
      if event ∈ p.auth.store.events then
        ((mailSystem platform).step p.consumers (.act (registeredMessage toISOString event))).map
          fun consumers => { p with consumers }
      else none
  | .round =>
      ((mailSystem platform).step p.consumers (.spawn ())).map fun consumers =>
        { p with consumers }
  | .consume t choice =>
      ((mailSystem platform).step p.consumers (.run t choice)).map fun consumers =>
        { p with consumers }
  | .take defaultJobOptions id job =>
      if job ∈ p.auth.store.jobs then
        ((jobSystem toISOString).step p.workers
          (.spawn (QueueService.sendResetPassword defaultJobOptions id job))).map fun workers =>
            { p with workers }
      else none
  | .work t choice =>
      ((jobSystem toISOString).step p.workers (.run t choice)).map fun workers =>
        { p with workers }

/-- Nothing has been published or enqueued. -/
def Quiet (s : Store) : Prop := s.events = [] ∧ s.jobs = []

/-- No message is there, and no mail. -/
def Unread (s : MailStore) : Prop := s.js.stream = [] ∧ s.handed = []

def Unsent (s : JobStore) : Prop := s.sent = []

/-- Any accounts and codes, of which nothing is on its way. -/
def Initial (p : Pipeline) : Prop :=
  ∃ accounts messages jobs, Quiet accounts ∧ Unread messages ∧ Unsent jobs ∧
    p = ⟨System.idle accounts, System.idle messages, System.idle jobs⟩

/-- Runs of any interleaving. -/
def Reachable (cfg : Config) (platform : Platform) (toISOString : Nat → String) (p : Pipeline) :
    Prop :=
  ∃ p₀, Initial p₀ ∧ Relation.ReflTransGen
    (fun p p' => ∃ label, step cfg platform toISOString p label = some p') p₀ p

/-- The mails with codes that the transport has accepted. -/
def mails (p : Pipeline) : Set Mail := p.consumers.store.mails ∪ p.workers.store.mails

/-- Each part runs by itself. What the stream has was published, and what a worker does was
enqueued. -/
structure Sound (cfg : Config) (platform : Platform) (toISOString : Nat → String) (p : Pipeline) :
    Prop where
  auth : (authSystem cfg).Reachable System.Any Quiet p.auth
  consumers : (mailSystem platform).Reachable System.Any Unread p.consumers
  workers : (jobSystem toISOString).Reachable System.Any Unsent p.workers
  stream : ∀ text ∈ p.consumers.store.js.stream, ∃ event ∈ p.auth.store.events,
    text = registeredMessage toISOString event
  jobs : ∀ th ∈ p.workers.threads, ∃ job ∈ p.auth.store.jobs, ∃ defaultJobOptions id,
    th.request = QueueService.sendResetPassword defaultJobOptions id job

section Runs

variable {p p' : Pipeline}

/-- What has been handed out stays so. -/
theorem handedOut_stays {pool pool' : AuthPool} {label : Auth.Step cfg} {init : Store → Prop}
    (reachable : (authSystem cfg).Reachable System.Any init pool)
    (stepped : (authSystem cfg).step pool label = some pool') :
    (∀ event ∈ pool.store.events, event ∈ pool'.store.events) ∧
      ∀ job ∈ pool.store.jobs, job ∈ pool'.store.jobs := by
  have stays := ((mailing_attributed cfg System.Any init).step reachable trivial
    (System.step_effect stepped)).2
  constructor
  · intro event there
    obtain kept | ⟨_, _, impossible⟩ := stays (show MailFact.published event ∈ _ from there)
    · exact kept
    · exact impossible.elim
  · intro job there
    obtain kept | ⟨_, _, impossible⟩ := stays (show MailFact.enqueued job ∈ _ from there)
    · exact kept
    · exact impossible.elim

/-- A command of a consumer leaves the stream. -/
theorem stream_kept {pool pool' : MailPool} {t : Nat} {choice : LoopChoice Exn}
    (stepped : (mailSystem platform).step pool (.run t choice) = some pool') :
    pool'.store.js.stream = pool.store.js.stream := by
  cases System.step_effect stepped with
  | run _ _ th c k r s _ _ executed => exact (exec_effect executed).stream

/-- A command of a worker leaves the jobs that have been taken. -/
theorem requests_kept {pool pool' : JobPool} {t : Nat} {choice : JobChoice}
    (stepped : (jobSystem toISOString).step pool (.run t choice) = some pool') :
    ∀ th' ∈ pool'.threads, ∃ th ∈ pool.threads, th'.request = th.request := by
  cases System.step_effect stepped with
  | run _ _ th c k r s found _ _ =>
    intro th' member
    obtain ⟨u, found'⟩ := Pool.mem_threads.mp member
    obtain ⟨_, rfl⟩ | ⟨_, old⟩ := Pool.set_cases found'
    · exact ⟨th, Pool.thread?_mem found, rfl⟩
    · exact ⟨th', Pool.thread?_mem old, rfl⟩

theorem Sound.step {label : PipelineStep cfg} (sound : Sound cfg platform toISOString p)
    (stepped : Pipeline.step cfg platform toISOString p label = some p') :
    Sound cfg platform toISOString p' := by
  cases label with
  | auth label =>
    simp only [Pipeline.step, Option.map_eq_some_iff] at stepped
    obtain ⟨auth, moved, rfl⟩ := stepped
    obtain ⟨events, jobs⟩ := handedOut_stays sound.auth moved
    refine ⟨sound.auth.head moved trivial, sound.consumers, sound.workers, ?_, ?_⟩
    · intro text there
      obtain ⟨event, published, same⟩ := sound.stream text there
      exact ⟨event, events event published, same⟩
    · intro th member
      obtain ⟨job, enqueued, same⟩ := sound.jobs th member
      exact ⟨job, jobs job enqueued, same⟩
  | store event =>
    simp only [Pipeline.step] at stepped
    split at stepped
    · rename_i published
      obtain ⟨consumers, moved, rfl⟩ := Option.map_eq_some_iff.mp stepped
      refine ⟨sound.auth, sound.consumers.head moved trivial, sound.workers, ?_, sound.jobs⟩
      cases Option.some.inj moved
      intro text there
      obtain earlier | new := List.mem_append.mp there
      · exact sound.stream text earlier
      · exact ⟨event, published, List.mem_singleton.mp new⟩
    · contradiction
  | round =>
    simp only [Pipeline.step, Option.map_eq_some_iff] at stepped
    obtain ⟨consumers, moved, rfl⟩ := stepped
    refine ⟨sound.auth, sound.consumers.head moved trivial, sound.workers, ?_, sound.jobs⟩
    cases Option.some.inj moved
    exact sound.stream
  | consume t choice =>
    simp only [Pipeline.step, Option.map_eq_some_iff] at stepped
    obtain ⟨consumers, moved, rfl⟩ := stepped
    refine ⟨sound.auth, sound.consumers.head moved trivial, sound.workers, ?_, sound.jobs⟩
    intro text there
    rw [stream_kept moved] at there
    exact sound.stream text there
  | take defaultJobOptions id job =>
    simp only [Pipeline.step] at stepped
    split at stepped
    · rename_i enqueued
      obtain ⟨workers, moved, rfl⟩ := Option.map_eq_some_iff.mp stepped
      refine ⟨sound.auth, sound.consumers, sound.workers.head moved trivial, sound.stream, ?_⟩
      cases Option.some.inj moved
      intro th member
      obtain earlier | new := List.mem_append.mp member
      · exact sound.jobs th earlier
      · cases List.mem_singleton.mp new
        exact ⟨job, enqueued, defaultJobOptions, id, rfl⟩
    · contradiction
  | work t choice =>
    simp only [Pipeline.step, Option.map_eq_some_iff] at stepped
    obtain ⟨workers, moved, rfl⟩ := stepped
    refine ⟨sound.auth, sound.consumers, sound.workers.head moved trivial, sound.stream, ?_⟩
    intro th' member
    obtain ⟨th, old, same⟩ := requests_kept moved th' member
    rw [same]
    exact sound.jobs th old

theorem Initial.sound (initial : Initial p) : Sound cfg platform toISOString p := by
  obtain ⟨accounts, messages, jobs, quiet, unread, unsent, rfl⟩ := initial
  refine ⟨⟨accounts, quiet, .refl⟩, ⟨messages, unread, .refl⟩, ⟨jobs, unsent, .refl⟩, ?_, ?_⟩
  · intro text there
    have there : text ∈ messages.js.stream := there
    rw [unread.1] at there
    exact absurd there List.not_mem_nil
  · exact fun _ impossible => absurd impossible List.not_mem_nil

theorem Reachable.sound (reachable : Reachable cfg platform toISOString p) :
    Sound cfg platform toISOString p := by
  obtain ⟨p₀, initial, run⟩ := reachable
  induction run with
  | refl => exact initial.sound
  | tail _ last ih =>
    obtain ⟨label, stepped⟩ := last
    exact ih.step stepped

/-- The call has registered the account or found it, under the address of its request, and this is
the account that has its address. -/
structure ServedBy (cfg : Config) (pool : AuthPool) (th : AuthThread) (user : User) : Prop where
  member : th ∈ pool.threads
  addressed : Addressed cfg th.request user
  remains : Remains pool.store user
  owner : ∀ other ∈ pool.store.db.users, other.email = user.email ↔ other.id = user.id

/-- The mail goes to the address of an account, and what it carries was made by a call for this
account: the code that the call has stored, or what it has encrypted of one. -/
inductive Owned (cfg : Config) (pool : AuthPool) : Mail → Prop where
  | verifyCode (th : AuthThread) (user : User) (hash : Argon2Hash String)
      (served : ServedBy cfg pool th user) (codeFor : CodeFor cfg th.request th.trace user hash) :
      Owned cfg pool (.verifyCode user.email (cfg.phc hash))
  | resetPassword (th : AuthThread) (user : User) (hash : Argon2Hash String) (token : String)
      (served : ServedBy cfg pool th user) (resetFor : ResetFor cfg th.request th.trace user hash)
      (encrypts : Encrypts cfg token (cfg.phc hash)) :
      Owned cfg pool (.resetPassword user.email token)

theorem served_of_serves {pool : AuthPool} {th : AuthThread} {user : User} {init : Store → Prop}
    (reachable : (authSystem cfg).Reachable System.Any init pool) (member : th ∈ pool.threads)
    (serves : Serves cfg th.request th.trace user) : ServedBy cfg pool th user := by
  obtain ⟨remains, addressed⟩ := serves_remains reachable member serves
  exact ⟨member, addressed, remains, fun _ there => owner_of_remains remains there⟩

/-- A code of a published event is mailed to its account. -/
theorem owned_of_published {pool : AuthPool} {event : Auth.UserRegisteredEvent} {code : String}
    (inverts : d.Inverts cfg.cipher) (decrypts : platform.Decrypts d cfg.encryptKey)
    (reachable : (authSystem cfg).Reachable System.Any Quiet pool)
    (published : event ∈ pool.store.events) (plain : platform.decrypt event.code = .ok code) :
    Owned cfg pool (.verifyCode event.email code) := by
  have absent : ∀ s, Quiet s → MailFact.published event ∉ s.mailFacts := by
    intro s quiet there
    have there : event ∈ s.events := there
    rw [quiet.1] at there
    exact List.not_mem_nil there
  obtain ⟨th, member, user, hash, codeFor, _, address, encrypts⟩ :=
    (mailing_attributed cfg System.Any Quiet).made_of_absent absent reachable published
  have mailed := mails_iff.mp (mails_of_encrypts inverts decrypts encrypts)
  cases Except.ok.inj (plain.symm.trans mailed)
  rw [address]
  exact .verifyCode th user hash (served_of_serves reachable member codeFor.serves) codeFor

/-- A token of an enqueued job is mailed to its account. -/
theorem owned_of_enqueued {pool : AuthPool} {job : MailJob}
    (reachable : (authSystem cfg).Reachable System.Any Quiet pool)
    (enqueued : job ∈ pool.store.jobs) : Owned cfg pool (.resetPassword job.email job.token) := by
  have absent : ∀ s, Quiet s → MailFact.enqueued job ∉ s.mailFacts := by
    intro s quiet there
    have there : job ∈ s.jobs := there
    rw [quiet.2] at there
    exact List.not_mem_nil there
  obtain ⟨th, member, user, hash, resetFor, _, address, encrypts⟩ :=
    (mailing_attributed cfg System.Any Quiet).made_of_absent absent reachable enqueued
  rw [address]
  exact .resetPassword th user hash job.token (served_of_serves reachable member resetFor.serves)
    resetFor encrypts

/-- Every code that is mailed was made for the account under the address of the mail, over any
interleaving of calls, consumers and workers, with any failures, redeliveries and retries. -/
theorem codes_reach_owners (inverts : d.Inverts cfg.cipher)
    (decrypts : platform.Decrypts d cfg.encryptKey) (parsed : TextsParsed platform)
    (reachable : Reachable cfg platform toISOString p) :
    ∀ mail ∈ p.mails, Owned cfg p.auth mail := by
  have sound := reachable.sound
  rintro mail (handed | sent)
  · obtain ⟨text, there, payload, read, code, decrypted, rfl⟩ :=
      handed_of_message (fun _ unread => unread.2) sound.consumers handed
    obtain ⟨event, published, rfl⟩ := sound.stream text there
    obtain ⟨address, encrypted⟩ := read_registeredMessage parsed read
    rw [address]
    exact owned_of_published inverts decrypts sound.auth published (encrypted ▸ decrypted)
  · obtain ⟨th, member, mails⟩ := sent_of_job (fun _ unsent => unsent) sound.workers sent
    obtain ⟨job, enqueued, defaultJobOptions, id, same⟩ := sound.jobs th member
    rw [same] at mails
    cases mails
    exact (owned_of_enqueued sound.auth enqueued :)

theorem Reachable.head (reachable : Reachable cfg platform toISOString p)
    (label : PipelineStep cfg) (stepped : step cfg platform toISOString p label = some p') :
    Reachable cfg platform toISOString p' := by
  obtain ⟨p₀, initial, run⟩ := reachable
  exact ⟨p₀, initial, run.tail ⟨label, stepped⟩⟩

/-- Calls of the auth service go on by themselves. -/
theorem Reachable.calls (reachable : Reachable cfg platform toISOString p) {auth : AuthPool}
    (run : (authSystem cfg).Run System.Any p.auth auth) :
    Reachable cfg platform toISOString { p with auth } := by
  induction run with
  | refl => exact reachable
  | tail _ last ih =>
    obtain ⟨label, stepped, -⟩ := last
    exact ih.head (.auth label) (by simp only [step, stepped, Option.map_some])

/-- So do rounds of the consumers that have started. -/
theorem Reachable.consumers (reachable : Reachable cfg platform toISOString p)
    {consumers : MailPool} (run : (mailSystem platform).Run System.Inner p.consumers consumers) :
    Reachable cfg platform toISOString { p with consumers } := by
  induction run with
  | refl => exact reachable
  | tail _ last ih =>
    obtain ⟨label, stepped, inner⟩ := last
    cases label with
    | run t choice =>
      exact ih.head (.consume t choice) (by simp only [step, stepped, Option.map_some])
    | spawn | act => exact inner.elim

/-- And workers that have taken their jobs. -/
theorem Reachable.workers (reachable : Reachable cfg platform toISOString p) {workers : JobPool}
    (run : (jobSystem toISOString).Run System.Inner p.workers workers) :
    Reachable cfg platform toISOString { p with workers } := by
  induction run with
  | refl => exact reachable
  | tail _ last ih =>
    obtain ⟨label, stepped, inner⟩ := last
    cases label with
    | run t choice =>
      exact ih.head (.work t choice) (by simp only [step, stepped, Option.map_some])
    | spawn | act => exact inner.elim

/-- A published event can be mailed by the first round. -/
theorem Reachable.mailed {event : Auth.UserRegisteredEvent} {payload : UserRegisteredEvent}
    {code : String} (reachable : Reachable cfg platform toISOString p)
    (idle : p.consumers = System.idle {}) (published : event ∈ p.auth.store.events)
    (read : readRegistered platform (registeredMessage toISOString event) = some payload)
    (decrypted : platform.decrypt payload.code = .ok code) :
    ∃ consumers, Reachable cfg platform toISOString { p with consumers } ∧
      consumers.store.handed = [(some 0, .verifyCode payload.email code)] := by
  obtain ⟨auth, _, workers⟩ := p
  cases idle
  have stored := reachable.head (.store event) (if_pos published)
  have started := stored.head .round rfl
  obtain ⟨consumers, run, store⟩ :=
    System.run_of_body (mailSystem platform) () (eval_round read decrypted)
  exact ⟨consumers, started.consumers run, by rw [store]⟩

/-- An enqueued job can be mailed by the first worker. -/
theorem Reachable.resetMailed {job : MailJob} (reachable : Reachable cfg platform toISOString p)
    (idle : p.workers = System.idle {}) (enqueued : job ∈ p.auth.store.jobs)
    (defaultJobOptions : JobOptions) (id : String) :
    ∃ workers, Reachable cfg platform toISOString { p with workers } ∧
      workers.store.sent = [.resetPassword job.email job.token] := by
  obtain ⟨auth, consumers, _⟩ := p
  cases idle
  have taken := reachable.head (.take defaultJobOptions id job) (if_pos enqueued)
  have evaluated : ((jobSystem toISOString).body
      (QueueService.sendResetPassword defaultJobOptions id job)).eval
      (jobSystem toISOString).toSemantics {} [{}] =
    some (.ok (), { sent := [.resetPassword job.email job.token] }) := rfl
  obtain ⟨workers, run, store⟩ := System.run_of_body (jobSystem toISOString) _ evaluated
  exact ⟨workers, taken.workers run, by rw [store]⟩

end Runs

section Sample

/-- One key in both services, and the `JSON.parse` of the platform. -/
def mailing : Platform := { keyedPlatform with jsonParse := JSON.parse }

def epoch (_ : Nat) : String := "1970-01-01T00:00:00.000Z"

def encrypted (hash : Argon2Hash String) : String :=
  encrypt Config.default.cipher (Vector.replicate 16 0) (Vector.replicate 16 0)
    (Config.default.phc hash) "key"

def aliceRegistered : Auth.UserRegisteredEvent where
  userId := aliceId
  email := "alice@mail.com"
  code := encrypted ⟨argonSalt1, "k3x9"⟩
  createdAt := 0

def aliceForgot : MailJob where
  name := AuthService.PASSWORD_RESET_REQUESTED
  email := "alice@mail.com"
  token := encrypted ⟨argonSalt2, "z7q2"⟩
  userId := aliceId
  expiresAt := 900000

def calling (t : Nat) (q : Call) (draws : List String) : List (Auth.Step Config.default) :=
  .spawn q :: draws.map fun draw => .run t { draw }

/-- A registration and a request to reset the password. -/
def callingSteps : List (Auth.Step Config.default) :=
  calling 0 (.register { email := "alice@mail.com", password := "Secret123" } none)
    ["", argonSalt0, "k3x9", argonSalt1, "", "", aliceId, "", otpId1, ""] ++
  calling 1 (.forgotPassword (some "alice@mail.com"))
    ["", "z7q2", argonSalt2, "", "", "", resetId1, "", ""]

/-- Both mails reach the account. -/
theorem codes_reach_owners_sample : ∃ p, Reachable Config.default mailing epoch p ∧
    Owned Config.default p.auth (.verifyCode "alice@mail.com" (phcOf ⟨argonSalt1, "k3x9"⟩)) ∧
    Owned Config.default p.auth (.resetPassword "alice@mail.com" aliceForgot.token) := by
  have tested : ((authSystem Config.default).replay System.Any (System.idle {}) callingSteps).any
      (fun pool => decide (aliceRegistered ∈ pool.store.events) &&
        decide (aliceForgot ∈ pool.store.jobs)) = true := by
    decide +kernel
  have initial : Reachable Config.default mailing epoch
      ⟨System.idle {}, System.idle {}, System.idle {}⟩ :=
    ⟨_, ⟨{}, {}, {}, ⟨rfl, rfl⟩, ⟨rfl, rfl⟩, rfl, rfl⟩, .refl⟩
  obtain ⟨auth, called, passed⟩ := System.run_of_replay tested
  obtain ⟨published, enqueued⟩ := (Bool.and_eq_true _ _).mp passed
  have decrypts : mailing.Decrypts knownDecipher Config.default.encryptKey := fun _ => rfl
  have encrypts : Encrypts Config.default aliceRegistered.code (phcOf ⟨argonSalt1, "k3x9"⟩) :=
    ⟨"key", .replicate 16 0, .replicate 16 0, rfl, rfl⟩
  have decrypted := mails_iff.mp (mails_of_encrypts knownDecipher_inverts decrypts encrypts)
  have read := @readRegistered_message mailing epoch aliceRegistered rfl rfl (by decide +kernel)
    (by decide +kernel) (by decide +kernel)
  obtain ⟨consumers, attended, handed⟩ :=
    (initial.calls called).mailed rfl (of_decide_eq_true published) read decrypted
  obtain ⟨workers, reachable, sent⟩ := attended.resetMailed rfl (of_decide_eq_true enqueued)
    QueueModule.defaultJobOptions "7"
  have reach := codes_reach_owners knownDecipher_inverts decrypts (textsParsed_of_parse rfl)
    reachable
  refine ⟨_, reachable, reach _ (.inl ?_), reach _ (.inr ?_)⟩
  · rw [MailStore.mails, handed]
    exact List.mem_cons_self
  · rw [JobStore.mails, sent]
    exact List.mem_cons_self

end Sample

end Pipeline

end CorePlatform.Notification
