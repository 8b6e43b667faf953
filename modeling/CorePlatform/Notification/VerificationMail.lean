import CorePlatform.Notification.Registered

/-! When the verification mail of a registration is delivered at least once. A message is
acknowledged as soon as its handler returns, and the handler returns also where decryption or
the transport has failed, so that such a message is not delivered again. -/
namespace CorePlatform.Notification
open Async Nats

variable {platform : Platform} {s : MailStore} {pool : MailPool} {seq : Nat}

/-- The mail of the message was handed to the transport, by a handler of the message. -/
def Mailed (platform : Platform) (s : MailStore) (seq : Nat) : Prop :=
  ∃ text ∈ s.js.stream[seq]?, ∃ payload ∈ readRegistered platform text,
    ∃ code ∈ (platform.decrypt payload.code).toOption,
    (some seq, Mail.verifyCode payload.email code) ∈ s.handed

instance (platform : Platform) (s : MailStore) (seq : Nat) : Decidable (Mailed platform s seq) :=
  inferInstanceAs (Decidable (∃ text ∈ s.js.stream[seq]?, ∃ payload ∈ readRegistered platform text,
    ∃ code ∈ (platform.decrypt payload.code).toOption,
    (some seq, Mail.verifyCode payload.email code) ∈ s.handed))

/-- A message that satisfies the schema is acknowledged only if its mail was handed over. -/
def DeliveredAtLeastOnce (platform : Platform) (s : MailStore) : Prop :=
  ∀ seq ∈ s.js.acked, ∀ text ∈ s.js.stream[seq]?, (readRegistered platform text).isSome →
    Mailed platform s seq

abbrev MailStep := Label Unit (LoopChoice Exn) String

/-- The condition on a step. A command of a handler, which decrypts the code or sends the
mail, succeeds, unless the mail of its message has been handed over before. -/
def HandlersSucceed (platform : Platform) (pool : MailPool) : MailStep → Prop
  | .run t choice => ∀ th ∈ pool.thread? t, ∀ c ∈ th.next?, match c with
    | .own (some seq) _ =>
        (pool.store.exec platform choice c).any (·.1.isOk) = true ∨ Mailed platform pool.store seq
    | _ => True
  | _ => True

instance (platform : Platform) (pool : MailPool) :
    (label : MailStep) → Decidable (HandlersSucceed platform pool label)
  | .run t choice =>
    have (c : LoopCmd RegisteredApi) : Decidable (match c with
        | .own (some seq) _ =>
            (pool.store.exec platform choice c).any (·.1.isOk) = true ∨
            Mailed platform pool.store seq
        | _ => True) := by
      split <;> infer_instance
    inferInstanceAs (Decidable (∀ th ∈ pool.thread? t, ∀ c ∈ th.next?, match c with
      | .own (some seq) _ =>
          (pool.store.exec platform choice c).any (·.1.isOk) = true ∨ Mailed platform pool.store seq
      | _ => True))
  | .spawn _ | .act _ => isTrue trivial

/-- Nothing is acknowledged before the run. -/
abbrev Start (s : MailStore) : Prop := s.js.acked = []

abbrev Reachable (platform : Platform) (pool : MailPool) : Prop :=
  (mailSystem platform).Reachable (HandlersSucceed platform) Start pool

section Steps

variable {s' : MailStore} {choice : LoopChoice Exn} {c : LoopCmd RegisteredApi}
  {r : Except Exn c.Resp}

/-- What a command does to the store. -/
structure MailEffect (c : LoopCmd RegisteredApi) (r : Except Exn c.Resp)
    (s s' : MailStore) : Prop where
  stream : s'.js.stream = s.js.stream
  acked : s'.js.acked = s.js.acked ∨ ∃ seq, c = .ack seq ∧ s'.js.acked = seq :: s.js.acked
  handed : ∀ entry ∈ s.handed, entry ∈ s'.handed

theorem exec_effect (executed : s.exec platform choice c = some (r, s')) : MailEffect c r s s' := by
  have loop : (s.js.exec choice c).map
      (fun out => (out.1, ({ s with js := out.2 } : MailStore))) =
        some (r, s') → MailEffect c r s s' := by
    intro executed
    obtain ⟨⟨r, js'⟩, inner, same⟩ := Option.map_eq_some_iff.mp executed
    obtain ⟨rfl, rfl⟩ := Prod.mk.inj same
    rcases JetStream.exec_effect inner with rfl | ⟨seq, rfl, rfl⟩
    · exact ⟨rfl, .inl rfl, fun _ found => found⟩
    · exact ⟨rfl, .inr ⟨seq, rfl, rfl⟩, fun _ found => found⟩
  cases c with
  | own delivery own =>
    cases own with
    | decrypt cipherText =>
      obtain ⟨_, rfl⟩ := Prod.mk.inj (Option.some.inj executed)
      exact ⟨rfl, .inl rfl, fun _ found => found⟩
    | sendMail mail =>
      simp only [MailStore.exec] at executed
      split at executed
      · obtain ⟨_, rfl⟩ := Prod.mk.inj (Option.some.inj executed)
        exact ⟨rfl, .inl rfl, fun _ found => found⟩
      · obtain ⟨_, rfl⟩ := Prod.mk.inj (Option.some.inj executed)
        exact ⟨rfl, .inl rfl, fun _ found => List.mem_cons_of_mem _ found⟩
  | _ => exact loop executed

theorem exec_next {msg : Msg}
    (executed : s.exec platform choice .next = some (.ok (some msg), s')) :
    s.js.stream[msg.seq]? = some msg.text := by
  obtain ⟨⟨r, js'⟩, inner, same⟩ := Option.map_eq_some_iff.mp executed
  obtain ⟨rfl, rfl⟩ := Prod.mk.inj same
  exact JetStream.exec_next inner

theorem exec_decrypt {delivery : Option Nat} {cipherText code : String}
    (executed : s.exec platform choice (.own delivery (.decrypt cipherText)) =
      some (.ok code, s')) :
    platform.decrypt cipherText = .ok code := by
  have response := (Prod.mk.inj (Option.some.inj executed)).1
  cases fault : choice.fault with
  | none =>
    rw [fault] at response
    exact response
  | some e =>
    rw [fault] at response
    contradiction

theorem exec_sendMail {delivery : Option Nat} {mail : Mail}
    (executed : s.exec platform choice (.own delivery (.sendMail mail)) = some (.ok (), s')) :
    (delivery, mail) ∈ s'.handed := by
  simp only [MailStore.exec] at executed
  split at executed
  · nomatch executed
  · obtain ⟨_, rfl⟩ := Prod.mk.inj (Option.some.inj executed)
    exact List.mem_cons_self

/-- No step forgets a mail. -/
theorem Mailed.stays (mailed : Mailed platform s seq)
    (stream : ∀ text ∈ s.js.stream[seq]?, text ∈ s'.js.stream[seq]?)
    (handed : ∀ entry ∈ s.handed, entry ∈ s'.handed) : Mailed platform s' seq := by
  obtain ⟨text, published, payload, read, code, decrypted, sent⟩ := mailed
  exact ⟨text, stream text published, payload, read, code, decrypted, handed _ sent⟩

theorem published_stays {text text' : String} (published : text ∈ s.js.stream[seq]?) :
    text ∈ (s.js.stream ++ [text'])[seq]? := by
  obtain ⟨bound, _⟩ := List.getElem?_eq_some_iff.mp published
  rw [List.getElem?_append_left bound]
  exact published

/-- What an executed command has shown. -/
def Shown (platform : Platform) (s : MailStore) : Event (Loop RegisteredApi) Exn → Prop
  | ⟨.next, .ok (some msg)⟩ => msg.text ∈ s.js.stream[msg.seq]?
  | ⟨.own (some seq) _, .error _⟩ => Mailed platform s seq
  | ⟨.own (some _) (.decrypt cipherText), .ok code⟩ => platform.decrypt cipherText = .ok code
  | ⟨.own (some seq) (.sendMail mail), .ok _⟩ => (some seq, mail) ∈ s.handed
  | _ => True

theorem Shown.stays {e : Event (Loop RegisteredApi) Exn} (shown : Shown platform s e)
    (stream : ∀ seq : Nat, ∀ text ∈ s.js.stream[seq]?, text ∈ s'.js.stream[seq]?)
    (handed : ∀ entry ∈ s.handed, entry ∈ s'.handed) : Shown platform s' e := by
  unfold Shown at shown ⊢
  split at shown
  · exact stream _ _ shown
  · exact shown.stays (stream _) handed
  · exact shown
  · exact handed _ shown
  · trivial

/-- Where the condition is met, a command shows what `Shown` says. -/
theorem exec_shown (executed : s.exec platform choice c = some (r, s'))
    (met : ∀ seq own, c = .own (some seq) own → (s.exec platform choice c).any (·.1.isOk) = true ∨
      Mailed platform s seq) :
    Shown platform s' ⟨c, r⟩ := by
  have effect := exec_effect executed
  cases c with
  | next =>
    cases r with
    | error e => trivial
    | ok received =>
      cases received with
      | none => trivial
      | some msg =>
        show s'.js.stream[msg.seq]? = some msg.text
        rw [effect.stream]
        exact exec_next executed
  | own delivery own =>
    cases delivery with
    | none => cases r <;> trivial
    | some seq =>
      cases r with
      | error e =>
        rcases met seq own rfl with succeeded | mailed
        · rw [executed] at succeeded
          contradiction
        · exact mailed.stays (fun text found => effect.stream ▸ found) effect.handed
      | ok response =>
        cases own with
        | decrypt cipherText => exact exec_decrypt executed
        | sendMail mail => exact exec_sendMail executed
  | _ => trivial

end Steps

section Runs

theorem shown_run {t : Nat} {th : Thread (Loop RegisteredApi) Exn Unit Unit}
    {e : Event (Loop RegisteredApi) Exn} (reachable : Reachable platform pool)
    (found : pool.thread? t = some th) (executed : e ∈ th.trace) :
    Shown platform pool.store e := by
  refine System.Reachable.witnessed
    (P := fun _ s e => Shown platform s e) reachable found executed ?_ ?_
  · intro pool t choice th c r s _ found next met executed
    refine exec_shown executed ?_
    rintro seq own rfl
    exact met th found _ next
  · intro pool label pool' _ e _ _ effect shown
    cases effect with
    | spawn q => exact shown
    | run t choice th c k r s found awaits executed =>
      have effect := exec_effect executed
      exact shown.stays (fun seq text found => effect.stream ▸ found) effect.handed
    | act text s published =>
      cases Option.some.inj published
      exact shown.stays (fun seq text found => published_stays found) fun _ found => found

/-- Where a message is about to be acknowledged, it was delivered, and its mail handed over. -/
theorem acked_mailed {t : Nat} {th : Thread (Loop RegisteredApi) Exn Unit Unit}
    (reachable : Reachable platform pool) (found : pool.thread? t = some th)
    (next : th.next? = some (.ack seq)) :
    ∃ text ∈ pool.store.js.stream[seq]?, (readRegistered platform text).isSome →
    Mailed platform pool.store seq := by
  obtain ⟨msg, handled, rfl, delivered, ended⟩ := reachable.point
    (P := fun _ => LoopPoint (HandlerPoint platform) (HandlerEnd platform)) (R := fun _ _ _ => True)
    (fun _ => along_consumeRound along_handle) found next
  have published : msg.text ∈ pool.store.js.stream[msg.seq]? :=
    shown_run reachable found delivered.received
  refine ⟨msg.text, published, fun _ => ?_⟩
  have shown : ∀ e ∈ handled, Shown platform pool.store ⟨.own msg.seq e.cmd, e.resp⟩ :=
    fun e executed =>
    shown_run reachable found (delivered.executed e executed)
  obtain ⟨c, e, failed⟩ | ⟨payload, read, code, decrypted, sent⟩ := ended
  · exact shown _ failed
  · have plain : platform.decrypt payload.code = .ok code := shown _ decrypted
    exact ⟨msg.text, published, payload, read, code, by rw [plain]; rfl, shown _ sent⟩

/-- The verification mail of a registration is delivered at least once in every run whose
steps meet the condition: any number of instances, any stream of messages, any deliveries. -/
theorem mail_delivered_at_least_once (reachable : Reachable platform pool) :
    DeliveredAtLeastOnce platform pool.store := by
  suffices all : ∀ seq ∈ pool.store.js.acked, ∃ text ∈ pool.store.js.stream[seq]?,
      (readRegistered platform text).isSome → Mailed platform pool.store seq by
    intro seq acked text published valid
    obtain ⟨text', published', mailed⟩ := all seq acked
    cases Option.some.inj (published.symm.trans published')
    exact mailed valid
  refine System.Reachable.invariant (P := fun pool => ∀ seq ∈ pool.store.js.acked,
    ∃ text ∈ pool.store.js.stream[seq]?,
    (readRegistered platform text).isSome → Mailed platform pool.store seq) reachable ?_ ?_
  · intro s start seq acked
    rw [System.idle, start] at acked
    exact absurd acked List.not_mem_nil
  · intro pool label pool' before _ all _ effect
    cases effect with
    | spawn q => exact all
    | act text s published =>
      cases Option.some.inj published
      intro seq acked
      obtain ⟨text, found, mailed⟩ := all seq acked
      exact ⟨text, published_stays found, fun valid =>
        (mailed valid).stays (fun _ found => published_stays found) fun _ handed => handed⟩
    | run t choice th c k r s found awaits executed =>
      have next : th.next? = some c := by rw [Thread.next?, awaits]
      have effect := exec_effect executed
      have kept : ∀ seq, (∃ text ∈ pool.store.js.stream[seq]?,
          (readRegistered platform text).isSome →
          Mailed platform pool.store seq) → ∃ text ∈ s.js.stream[seq]?,
          (readRegistered platform text).isSome → Mailed platform s seq := by
        rintro seq ⟨text, published, mailed⟩
        exact ⟨text, effect.stream ▸ published, fun valid =>
          (mailed valid).stays (fun _ found => effect.stream ▸ found) effect.handed⟩
      intro seq acked
      rcases effect.acked with same | ⟨seq', rfl, acked'⟩
      · exact kept seq (all seq (same ▸ acked))
      · rcases List.mem_cons.mp (acked' ▸ acked) with rfl | earlier
        · exact kept seq (acked_mailed before found next)
        · exact kept seq (all seq earlier)

end Runs

section Sample

/-- A code that was encrypted under the key `change-encrypt`. -/
def encryptedCode : String :=
  "AQEBAQEBAQEBAQEBAQEBAQICAgICAgICAgICAgICAgLQoHMKblf4JO6JUlpAaPjRd3zxAmSjXQYWM3E="

def registeredText : String :=
  "\x7b\"userId\":\"f3b1c1de-6a53-4c39-9a0e-2f4b7f6f0c11\",\"email\":\"alice@mail.com\",\"code\":\"" ++
    encryptedCode ++ "\",\"createdAt\":\"2025-01-01T00:00:00.000Z\"\x7d"

/-- A platform that knows one registration. -/
def samplePlatform : Platform where
  jsonParse text := if text = registeredText then
      some (.obj [("userId", .str "f3b1c1de-6a53-4c39-9a0e-2f4b7f6f0c11"),
        ("email", .str "alice@mail.com"),
        ("code", .str encryptedCode), ("createdAt", .str "2025-01-01T00:00:00.000Z")])
    else none
  uuid s := s = "f3b1c1de-6a53-4c39-9a0e-2f4b7f6f0c11"
  email s := s = "alice@mail.com"
  datetime s := s = "2025-01-01T00:00:00.000Z"
  decrypt cipherText := if cipherText = encryptedCode then .ok "k3x9q0v7tz1"
    else .error (.error none "Invalid cipher text: too short (expected salt+iv+authTag+enc)")

/-- A delivery of the message up to the decrypted code. -/
def deliverySteps (t : Nat) : List MailStep :=
  [.spawn (), .run t {}, .run t {}, .run t {}, .run t { message := some 0 }, .run t {}, .run t {}]

def smtpDown : LoopChoice Exn :=
  { fault := some (.error (some "ECONNREFUSED") "connect ECONNREFUSED") }

/-- The transport rejects the mail, and the message is acknowledged. -/
theorem mail_lost : ¬ ∀ platform pool, (mailSystem platform).Reachable System.Any Start pool →
    DeliveredAtLeastOnce platform pool.store := by
  intro delivered
  have tested : ((mailSystem samplePlatform).replay System.Any (System.idle {})
      (.act registeredText :: deliverySteps 0 ++
      [.run 0 smtpDown, .run 0 {}])).any (fun pool => decide (0 ∈ pool.store.js.acked) &&
        decide (pool.store.js.stream = [registeredText]) &&
          decide (¬ Mailed samplePlatform pool.store 0)) = true := by
    decide +kernel
  obtain ⟨pool, run, passed⟩ := System.run_of_replay tested
  simp only [Bool.and_eq_true, decide_eq_true_eq] at passed
  obtain ⟨⟨acked, published⟩, unsent⟩ := passed
  refine unsent (delivered samplePlatform pool ⟨{}, rfl, run⟩ 0 acked registeredText ?_
    (by decide +kernel))
  rw [published]
  rfl

/-- The mail is sent, the instance stops before it acknowledges, and the message is delivered
again, when the transport rejects the mail. -/
theorem mail_delivered_again : ∃ pool, Reachable samplePlatform pool ∧ 0 ∈ pool.store.js.acked ∧
    registeredText ∈ pool.store.js.stream[0]? ∧ Mailed samplePlatform pool.store 0 := by
  have tested : ((mailSystem samplePlatform).replay
      (HandlersSucceed samplePlatform) (System.idle {})
      (.act registeredText :: deliverySteps 0 ++ .run 0 {} :: deliverySteps 1 ++
        [.run 1 smtpDown, .run 1 {}])).any
      (fun pool => decide (0 ∈ pool.store.js.acked) &&
        decide (registeredText ∈ pool.store.js.stream[0]?)) = true := by
    decide +kernel
  obtain ⟨pool, run, passed⟩ := System.run_of_replay tested
  simp only [Bool.and_eq_true, decide_eq_true_eq] at passed
  obtain ⟨acked, published⟩ := passed
  have reachable : Reachable samplePlatform pool := ⟨{}, rfl, run⟩
  exact ⟨pool, reachable, acked, published,
    mail_delivered_at_least_once reachable 0 acked registeredText published (by decide +kernel)⟩

end Sample
end CorePlatform.Notification
