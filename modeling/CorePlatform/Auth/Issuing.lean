import CorePlatform.Auth.Verified
import Mathlib.Data.List.Nodup

/-! Calls that run alone, with time passing before each of their commands: what a registration
and a resend leave in the table of codes and publish, and which code a verification accepts. -/
namespace CorePlatform.Auth
open Async Relational

variable {cfg : Config}

def Store.after (s : Store) (ms : Nat) : Store := { s with now := s.now + ms }

def Cmd.readsClock : Cmd → Bool
  | .now => true
  | _ => false

/-- A store, and the last reading of the clock. -/
structure Timed where
  store : Store
  read : Nat := 0

/-- Time passes before each command. Unless `rejects`, the backend rejects none. -/
@[reducible] def timed (rejects : Bool) : Semantics Api Exn Timed where
  Choice := Nat × Choice
  exec c choice σ :=
    if choice.2.fault && !rejects then none
    else (exec c choice.2 (σ.store.after choice.1)).map fun (r, s) =>
      (r, ⟨s, if c.readsClock then s.now else σ.read⟩)

/-- What one command does. -/
inductive Stepped (rejects : Bool) (c : Cmd) (σ : Timed) (r : Except Exn c.Resp) :
    Timed → Prop where
  | mk (ms : Nat) (choice : Choice) (s : Store)
      (executed : exec c choice (σ.store.after ms) = some (r, s))
      (reliable : rejects = false → choice.fault = false) :
      Stepped rejects c σ r ⟨s, if c.readsClock then s.now else σ.read⟩

/-- The account has a code that expires at a time. -/
def HasCode (s : Store) (userId codeHash : String) (expiresAt : Nat) : Prop :=
  ∃ otp ∈ s.db.emailOtps, otp.userId = userId ∧ otp.codeHash = codeHash ∧ otp.expiresAt = expiresAt

/-- The codes and the published events are as they were. -/
structure Quiet (σ τ : Timed) : Prop where
  emailOtps : τ.store.db.emailOtps = σ.store.db.emailOtps
  events : τ.store.events = σ.store.events

theorem Quiet.refl (σ : Timed) : Quiet σ σ := ⟨rfl, rfl⟩

theorem Quiet.trans {σ τ υ : Timed} (first : Quiet σ τ) (second : Quiet τ υ) : Quiet σ υ :=
  ⟨second.emailOtps.trans first.emailOtps, second.events.trans first.events⟩

theorem Quiet.codes {σ τ : Timed} (quiet : Quiet σ τ) {userId codeHash : String} {expiresAt : Nat} :
    HasCode τ.store userId codeHash expiresAt ↔ HasCode σ.store userId codeHash expiresAt := by
  simp only [HasCode, quiet.emailOtps]

/-- The command leaves the codes and the events alone. -/
def Cmd.quiet : Cmd → Bool
  | .emailOtpUpsert .. | .emailOtpUse _ | .natsPublish _ => false
  | _ => true

section Steps

variable {rejects : Bool} {σ τ : Timed}

theorem stepped_of_responds {c : Cmd} {r : Except Exn c.Resp}
    (responds : (timed rejects).Responds c σ r τ) :
    Stepped rejects c σ r τ := by
  obtain ⟨⟨ms, choice⟩, executed⟩ := responds
  simp only at executed
  split at executed
  · contradiction
  · rename_i allowed
    obtain ⟨⟨r, s⟩, ran, same⟩ := Option.map_eq_some_iff.mp executed
    obtain ⟨rfl, rfl⟩ := Prod.mk.inj same
    refine .mk ms choice s ran ?_
    rintro rfl
    simpa using allowed

theorem exec_quiet {c : Cmd} {choice : Choice} {s s' : Store} {r : Except Exn c.Resp}
    (quiet : c.quiet = true) (executed : exec c choice s = some (r, s')) :
    s'.db.emailOtps = s.db.emailOtps ∧ s'.events = s.events := by
  unfold exec at executed
  split at executed
  · split at executed
    · obtain ⟨_, rfl⟩ := Prod.mk.inj (Option.some.inj executed)
      exact ⟨rfl, rfl⟩
    · contradiction
  · cases c with
    | emailOtpUpsert | emailOtpUse | natsPublish => contradiction
    | _ =>
      simp only [execTotal, Store.createUser, Store.updateUser, Store.affected, Store.revokeMany,
        Store.setRefreshTokens, Store.setPasswordResets] at executed
      repeat' split at executed
      all_goals first
        | contradiction
        | (obtain ⟨_, rfl⟩ := Prod.mk.inj (Option.some.inj executed); exact ⟨rfl, rfl⟩)
        | (obtain ⟨_, _, both⟩ := Option.map_eq_some_iff.mp executed
           obtain ⟨_, rfl⟩ := Prod.mk.inj both; exact ⟨rfl, rfl⟩)

theorem Stepped.quiet {c : Cmd} {r : Except Exn c.Resp} (stepped : Stepped rejects c σ r τ)
    (quiet : c.quiet = true) :
    Quiet σ τ := by
  obtain ⟨ms, choice, s, executed, _⟩ := stepped
  obtain ⟨otps, events⟩ := exec_quiet quiet executed
  exact ⟨otps, events⟩

theorem Stepped.now {r : Except Exn Nat} (stepped : Stepped rejects .now σ r τ) : r = .ok τ.read ∧
    τ.store.db = σ.store.db := by
  obtain ⟨ms, choice, s, executed, _⟩ := stepped
  obtain ⟨rfl, rfl⟩ := exec_now executed
  exact ⟨rfl, rfl⟩

/-- The reading of the clock stays. -/
theorem Stepped.read {c : Cmd} {r : Except Exn c.Resp} (stepped : Stepped rejects c σ r τ)
    (other : c.readsClock = false) :
    τ.read = σ.read := by
  obtain ⟨ms, choice, s, executed, _⟩ := stepped
  simp only [other, Bool.false_eq_true, if_false]

/-- A code replaces the one the account had. -/
theorem hasCode_upsert {choice : Choice} {s s' : Store} {userId codeHash : String} {expiresAt : Nat}
    (executed : exec (.emailOtpUpsert userId codeHash expiresAt) choice s = some (.ok (), s'))
    (u h : String) (e : Nat) :
    HasCode s' u h e ↔ (u = userId ∧ h = codeHash ∧ e = expiresAt) ∨
    (u ≠ userId ∧ HasCode s u h e) := by
  rw [exec, exec_answered executed] at executed
  simp only [Bool.false_eq_true, if_false, execTotal] at executed
  split at executed
  · rename_i known
    obtain ⟨_, rfl⟩ := Prod.mk.inj (Option.some.inj executed)
    simp only [HasCode, Store.setEmailOtps, Table.mem_update, decide_eq_true_eq]
    constructor
    · rintro ⟨_, ⟨old, inTable, rfl⟩, rfl, rfl, rfl⟩
      by_cases same : old.userId = userId
      · simp only [same, if_true, and_self, true_or]
      · simp only [same, if_false, ne_eq, not_false_eq_true, true_and, false_and, false_or]
        exact ⟨old, inTable, rfl, rfl, rfl⟩
    · rintro (⟨rfl, rfl, rfl⟩ | ⟨other, otp, inTable, rfl, rfl, rfl⟩)
      · obtain ⟨old, inTable, same⟩ := List.any_eq_true.mp known
        exact ⟨_, ⟨old, inTable, rfl⟩, by simp only [of_decide_eq_true same, if_true, and_self]⟩
      · exact ⟨otp, ⟨otp, inTable, if_neg other⟩, rfl, rfl, rfl⟩
  · rename_i unknown
    obtain ⟨otps, inserted, both⟩ := Option.map_eq_some_iff.mp executed
    obtain ⟨_, rfl⟩ := Prod.mk.inj both
    have others : ∀ otp ∈ s.db.emailOtps, otp.userId ≠ userId := by
      intro otp inTable same
      exact unknown (List.any_eq_true.mpr ⟨otp, inTable, decide_eq_true same⟩)
    simp only [HasCode, Store.setEmailOtps, Table.mem_insert? inserted]
    constructor
    · rintro ⟨otp, rfl | inTable, rfl, rfl, rfl⟩
      · exact .inl ⟨rfl, rfl, rfl⟩
      · exact .inr ⟨others otp inTable, otp, inTable, rfl, rfl, rfl⟩
    · rintro (⟨rfl, rfl, rfl⟩ | ⟨_, otp, inTable, same⟩)
      · exact ⟨_, .inl rfl, rfl, rfl, rfl⟩
      · exact ⟨otp, .inr inTable, same⟩

theorem Stepped.upsert {userId codeHash : String} {expiresAt : Nat}
    (stepped : Stepped rejects (.emailOtpUpsert userId codeHash expiresAt) σ (.ok ()) τ)
    (u h : String) (e : Nat) :
    HasCode τ.store u h e ↔ (u = userId ∧ h = codeHash ∧ e = expiresAt) ∨
    (u ≠ userId ∧ HasCode σ.store u h e) := by
  obtain ⟨ms, choice, s, executed, _⟩ := stepped
  exact hasCode_upsert executed u h e

/-- To mark a code as used changes neither the code nor its expiry. -/
theorem hasCode_use {choice : Choice} {s s' : Store} {id : String} {r : Except Exn Unit}
    (executed : exec (.emailOtpUse id) choice s = some (r, s')) (u h : String) (e : Nat) :
    HasCode s' u h e ↔ HasCode s u h e := by
  unfold exec at executed
  split at executed
  · split at executed
    · obtain ⟨_, rfl⟩ := Prod.mk.inj (Option.some.inj executed)
      rfl
    · contradiction
  · simp only [execTotal, Option.some.injEq, Store.affected] at executed
    split at executed
    · rename_i otps modified
      obtain ⟨_, rfl⟩ := Prod.mk.inj executed
      simp only [HasCode, Store.setEmailOtps, Table.mem_modify? modified]
      constructor
      · rintro ⟨_, ⟨old, inTable, rfl⟩, rfl, rfl, rfl⟩
        refine ⟨old, inTable, ?_⟩
        split <;> exact ⟨rfl, rfl, rfl⟩
      · rintro ⟨otp, inTable, rfl, rfl, rfl⟩
        refine ⟨_, ⟨otp, inTable, rfl⟩, ?_⟩
        split <;> exact ⟨rfl, rfl, rfl⟩
    · obtain ⟨_, rfl⟩ := Prod.mk.inj executed
      rfl

theorem Stepped.use {id : String} {r : Except Exn Unit}
    (stepped : Stepped rejects (.emailOtpUse id) σ r τ) (u h : String) (e : Nat) :
    HasCode τ.store u h e ↔ HasCode σ.store u h e := by
  obtain ⟨ms, choice, s, executed, _⟩ := stepped
  exact hasCode_use executed u h e

/-- Where the command leaves the events alone. -/
theorem exec_events {c : Cmd} {choice : Choice} {s s' : Store} {r : Except Exn c.Resp}
    (other : ∀ event, c ≠ .natsPublish event) (executed : exec c choice s = some (r, s')) :
    s'.events = s.events := by
  by_cases quiet : c.quiet = true
  · exact (exec_quiet quiet executed).2
  · unfold exec at executed
    split at executed
    · split at executed
      · obtain ⟨_, rfl⟩ := Prod.mk.inj (Option.some.inj executed)
        rfl
      · contradiction
    · cases c with
      | natsPublish event => exact absurd rfl (other event)
      | emailOtpUpsert userId codeHash expiresAt =>
        simp only [execTotal] at executed
        split at executed
        · obtain ⟨_, rfl⟩ := Prod.mk.inj (Option.some.inj executed)
          rfl
        · obtain ⟨_, _, both⟩ := Option.map_eq_some_iff.mp executed
          obtain ⟨_, rfl⟩ := Prod.mk.inj both
          rfl
      | emailOtpUse id =>
        simp only [execTotal, Option.some.injEq, Store.affected] at executed
        split at executed
        · obtain ⟨_, rfl⟩ := Prod.mk.inj executed
          rfl
        · obtain ⟨_, rfl⟩ := Prod.mk.inj executed
          rfl
      | _ => exact absurd rfl quiet

theorem Stepped.events {c : Cmd} {r : Except Exn c.Resp} (stepped : Stepped rejects c σ r τ)
    (other : ∀ event, c ≠ .natsPublish event) : τ.store.events = σ.store.events := by
  obtain ⟨ms, choice, s, executed, _⟩ := stepped
  have kept := exec_events other executed
  exact kept

theorem Stepped.publish {event : UserRegisteredEvent}
    (stepped : Stepped rejects (.natsPublish event) σ (.ok ()) τ) :
    τ.store.db = σ.store.db ∧ τ.store.events = event :: σ.store.events := by
  obtain ⟨ms, choice, s, executed, _⟩ := stepped
  rw [exec, exec_answered executed] at executed
  obtain ⟨_, rfl⟩ := Prod.mk.inj (Option.some.inj executed)
  exact ⟨rfl, rfl⟩

/-- One command of a body whose failure ends it. -/
theorem post_step {α : Type} {c : Cmd} {f : c.Resp → Action α} {Q : Except Exn α → Timed → Prop}
    (rejected : ∀ e τ, Stepped rejects c σ (.error e) τ → Q (.error e) τ)
    (next : ∀ a τ, Stepped rejects c σ (.ok a) τ → Post (timed rejects) (f a) τ Q) :
    Post (timed rejects) (call c >>= f) σ Q := by
  refine post_bind.mpr (post_perform.mpr fun r τ responds => ?_)
  have stepped := stepped_of_responds responds
  cases r with
  | error e => exact rejected e τ stepped
  | ok a => exact next a τ stepped

end Steps

section Issue

variable {rejects : Bool} {σ : Timed}

/-- The code that the account has now, of the age of the last reading. -/
structure Coded (σ τ : Timed) (userId codeHash : String) : Prop where
  events : τ.store.events = σ.store.events
  codes : ∀ u h e, HasCode τ.store u h e ↔
    (u = userId ∧ h = codeHash ∧ e = τ.read + codeTtl) ∨ (u ≠ userId ∧ HasCode σ.store u h e)

/-- The text is a code encrypted under the configured key. -/
def Encrypts (cfg : Config) (code codeHash : String) : Prop :=
  ∃ key salt iv, (cfg.encryptKey.map Js.trim).filter (· ≠ "") = some key ∧
    code = encrypt cfg.cipher salt iv codeHash key

/-- What a call leaves that has issued a code: the account has it, and an event carries it. -/
structure Issues (cfg : Config) (σ τ : Timed) (event : UserRegisteredEvent)
    (codeHash : String) : Prop where
  events : τ.store.events = event :: σ.store.events
  code : Encrypts cfg event.code codeHash
  codes : ∀ u h e, HasCode τ.store u h e ↔
    (u = event.userId ∧ h = codeHash ∧ e = τ.read + codeTtl) ∨
    (u ≠ event.userId ∧ HasCode σ.store u h e)

/-- If the call returns, it has issued a code. -/
def IssuesOnReturn (cfg : Config) {α : Type} (σ : Timed) (r : Except Exn α) (τ : Timed) : Prop :=
  r.isOk = true → ∃ event codeHash, Issues cfg σ τ event codeHash

theorem issuesOnReturn_error {α : Type} (e : Exn) (τ : Timed) :
    IssuesOnReturn cfg σ (.error e : Except Exn α) τ :=
  nofun

theorem Coded.after {τ υ : Timed} {userId codeHash : String} (quiet : Quiet σ τ)
    (coded : Coded τ υ userId codeHash) :
    Coded σ υ userId codeHash where
  events := coded.events.trans quiet.events
  codes u h e := by rw [coded.codes, quiet.codes]

theorem hashPassword_spec {α : Type} {password : α} :
    Post (timed rejects) (hashPassword password) σ fun _ τ => Quiet σ τ := by
  apply post_step
  · exact fun e τ stepped => stepped.quiet rfl
  · exact fun salt τ stepped => stepped.quiet rfl

theorem randomCode_spec : Post (timed rejects) randomCode σ fun _ τ => Quiet σ τ := by
  apply post_step
  · exact fun e τ stepped => stepped.quiet rfl
  · exact fun code τ stepped => stepped.quiet rfl

theorem encryptText_spec {plainText : String} : Post (timed rejects)
    (encryptText cfg plainText) σ fun r τ =>
    Quiet σ τ ∧ ∀ code, r = .ok code → Encrypts cfg code plainText := by
  cases configured : (cfg.encryptKey.map Js.trim).filter (· ≠ "") with
  | none =>
    simp only [encryptText, getEncryptKey, configured, Prog.throw_eq, Prog.bind_error, post_done]
    exact ⟨.refl σ, by rintro code ⟨⟩⟩
  | some key =>
    simp only [encryptText, getEncryptKey, configured, Prog.pure_eq, Prog.bind_ok]
    apply post_step
    · exact fun e τ stepped => ⟨stepped.quiet rfl, by rintro code ⟨⟩⟩
    · intro salt τ drew
      apply post_step
      · exact fun e υ stepped =>
          ⟨(drew.quiet rfl).trans (stepped.quiet rfl), by rintro code ⟨⟩⟩
      · intro iv υ stepped
        refine ⟨(drew.quiet rfl).trans (stepped.quiet rfl), ?_⟩
        rintro code ⟨⟩
        exact ⟨key, salt, iv, configured, rfl⟩

theorem parseEvent_spec {userId email : String} :
    Post (timed rejects) (AuthService.parseEvent cfg userId email) σ fun _ τ => τ = σ := by
  unfold AuthService.parseEvent
  split <;> rfl

/-- The code is stored, to expire 15 minutes after the reading of the clock. -/
theorem createOrUpdateEmailOtp_spec {userId codeHash : String} :
    Post (timed rejects) (UsersService.createOrUpdateEmailOtp userId codeHash) σ fun r τ =>
      r.isOk = true → Coded σ τ userId codeHash := by
  apply post_step
  · exact fun e τ _ => nofun
  · intro now τ clock
    obtain ⟨same, _⟩ := clock.now
    cases Except.ok.inj same
    refine post_perform.mpr fun r υ responds => ?_
    have stepped := stepped_of_responds responds
    intro returned
    cases r with
    | error e => contradiction
    | ok _ =>
      have quiet := clock.quiet rfl
      constructor
      · exact (stepped.events nofun).trans quiet.events
      · intro u h e
        rw [stepped.upsert, quiet.codes, stepped.read rfl]

/-- The event that carries the code of the account is published. -/
theorem publish_spec {α : Type} {τ : Timed} (event : UserRegisteredEvent)
    {codeHash email : String} {reply : α} (coded : Coded σ τ event.userId codeHash)
    (encrypts : Encrypts cfg event.code codeHash) :
    Post (timed rejects) (do
      AuthService.parseEvent cfg event.userId email
      call (.natsPublish event)
      return reply) τ (IssuesOnReturn cfg σ) := by
  refine post_bind.mpr (parseEvent_spec.mono fun r υ same => ?_)
  subst same
  cases r with
  | error e => exact issuesOnReturn_error e _
  | ok _ =>
    apply post_step
    · exact fun e ω _ => issuesOnReturn_error e ω
    · intro _ ω stepped _
      obtain ⟨db, events⟩ := stepped.publish
      refine ⟨event, codeHash, ?_, encrypts, ?_⟩
      · rw [events, coded.events]
      · intro u h e
        rw [stepped.read rfl, ← coded.codes, HasCode, db, HasCode]

theorem create_spec {dto : CreateUserDto} : Post (timed rejects)
    (UsersService.create cfg dto) σ fun r τ =>
    ∀ user, r = .ok user → ∃ codeHash, Coded σ τ user.userId codeHash ∧
      Encrypts cfg user.code codeHash := by
  have failed : ∀ (e : Exn) (τ : Timed), ∀ user,
      (Except.error e : Except Exn CreateUserResponse) = .ok user →
      ∃ codeHash, Coded σ τ user.userId codeHash ∧ Encrypts cfg user.code codeHash := by
    rintro e τ user ⟨⟩
  apply post_step
  · exact fun e τ _ => failed e τ
  · intro existing τ searched
    by_cases taken : existing.isSome = true
    · simp only [taken, if_true, Prog.throw_eq, Prog.bind_error, post_done]
      exact failed _ τ
    · simp only [taken]
      have quiet := searched.quiet rfl
      refine post_bind.mpr (hashPassword_spec.mono fun r τ₁ quiet₁ => ?_)
      cases r with
      | error e => exact failed e τ₁
      | ok passwordHash =>
        refine post_bind.mpr (randomCode_spec.mono fun r τ₂ quiet₂ => ?_)
        cases r with
        | error e => exact failed e τ₂
        | ok random =>
          refine post_bind.mpr (hashPassword_spec.mono fun r τ₃ quiet₃ => ?_)
          cases r with
          | error e => exact failed e τ₃
          | ok hash =>
            refine post_bind.mpr (encryptText_spec.mono fun r τ₄ encrypted => ?_)
            obtain ⟨quiet₄, encrypts⟩ := encrypted
            cases r with
            | error e => exact failed e τ₄
            | ok code =>
              apply post_step
              · exact fun e τ _ => failed e τ
              · intro user τ₅ created
                refine post_bind.mpr (createOrUpdateEmailOtp_spec.mono fun r τ₆ coded => ?_)
                cases r with
                | error e => exact failed e τ₆
                | ok _ =>
                  rintro _ ⟨⟩
                  have before :=
                    ((((quiet.trans quiet₁).trans quiet₂).trans quiet₃).trans quiet₄).trans
                      (created.quiet rfl)
                  exact ⟨_, (coded rfl).after before, encrypts code rfl⟩

theorem register_spec {dto : CreateUserDto} {requestId : Option String} :
    Post (timed rejects) (AuthService.register cfg dto requestId) σ (IssuesOnReturn cfg σ) := by
  refine post_bind.mpr (create_spec.mono fun r τ created => ?_)
  cases r with
  | error e => exact issuesOnReturn_error e τ
  | ok user =>
    obtain ⟨codeHash, coded, encrypts⟩ := created user rfl
    exact publish_spec
      { userId := user.userId, email := user.email, code := user.code
        createdAt := user.createdAt, requestId }
      coded encrypts

theorem resendCode_spec {email : Option String} :
    Post (timed rejects) (AuthService.resendCode cfg email) σ (IssuesOnReturn cfg σ) := by
  refine post_catch.mpr ?_
  have failed : ∀ (e : Exn) (τ : Timed), Post (timed rejects)
      (throw (invalidCredentials e.message) : Action String) τ
      (IssuesOnReturn cfg σ) := fun e τ => issuesOnReturn_error _ τ
  apply post_step
  · exact fun e τ _ => failed e τ
  · intro found τ searched
    have quiet := searched.quiet rfl
    cases found with
    | none => exact failed _ τ
    | some user =>
      by_cases active : user.isActive = true
      · simp only [active, if_true, Prog.throw_eq, Prog.bind_error, post_done]
        exact failed _ τ
      · simp only [active]
        refine post_bind.mpr (randomCode_spec.mono fun r τ₁ quiet₁ => ?_)
        cases r with
        | error e => exact failed e τ₁
        | ok random =>
          refine post_bind.mpr (hashPassword_spec.mono fun r τ₂ quiet₂ => ?_)
          cases r with
          | error e => exact failed e τ₂
          | ok hash =>
            refine post_bind.mpr (encryptText_spec.mono fun r τ₃ encrypted => ?_)
            obtain ⟨quiet₃, encrypts⟩ := encrypted
            cases r with
            | error e => exact failed e τ₃
            | ok code =>
              refine post_bind.mpr (createOrUpdateEmailOtp_spec.mono fun r τ₄ coded => ?_)
              cases r with
              | error e => exact failed e τ₄
              | ok _ =>
                have before := ((quiet.trans quiet₁).trans quiet₂).trans quiet₃
                refine (publish_spec
                  { userId := user.id, email := user.email, code, createdAt := user.createdAt }
                  ((coded rfl).after before) (encrypts code rfl)).mono fun r τ₅ issues => ?_
                cases r with
                | error e => exact failed e τ₅
                | ok _ => exact issues

end Issue

section Verification

variable {rejects : Bool} {σ τ : Timed} {email code : String}

/-- The account of the email is inactive, and the code is its own and not yet expired. -/
def Acceptable (cfg : Config) (email code : String) (σ : Timed) (now : Nat) : Prop :=
  ∃ user ∈ σ.store.db.users, user.email = normalizeEmail cfg email ∧ user.isActive = false ∧
    ∃ expiresAt, HasCode σ.store user.id code expiresAt ∧ now < expiresAt

/-- A verification, with the time it has read off the clock. -/
structure Verifies (cfg : Config) (rejects : Bool) (email code : String) (σ : Timed)
    (r : Except Exn Bool) (τ : Timed) : Prop where
  codes : ∀ u h e, HasCode τ.store u h e ↔ HasCode σ.store u h e
  accepts : r = .ok true → Acceptable cfg email code σ τ.read ∧
    ∃ user ∈ σ.store.db.users, user.email = normalizeEmail cfg email ∧ ActiveAccount τ.store user.id
  complete : rejects = false → Acceptable cfg email code σ τ.read → r = .ok true
  returns : ∀ verified, r = .ok verified → verified = true

def Cmd.writesUsers : Cmd → Bool
  | .userCreate .. | .userActivate _ | .userSetPassword .. => true
  | _ => false

theorem Stepped.users {c : Cmd} {r : Except Exn c.Resp} (stepped : Stepped rejects c σ r τ)
    (other : c.writesUsers = false) :
    τ.store.db.users = σ.store.db.users := by
  obtain ⟨ms, choice, s, executed, _⟩ := stepped
  cases exec_usersEffect executed with
  | none _ _ same => exact same
  | _ => contradiction

/-- A search is answered unless the backend rejects it. -/
theorem Stepped.answered {c : Cmd} {e : Exn} (stepped : Stepped rejects c σ (.error e) τ)
    (search : (∃ w, c = .userFindFirst w) ∨ (∃ w, c = .emailOtpFindFirst w) ∨ c = .now) :
    rejects ≠ false := by
  obtain ⟨ms, choice, s, executed, reliable⟩ := stepped
  intro never
  rw [exec, reliable never] at executed
  rcases search with ⟨w, rfl⟩ | ⟨w, rfl⟩ | rfl <;> cases (Prod.mk.inj (Option.some.inj executed)).1

theorem Stepped.userFound {w : UserWhere} {found : Option User}
    (stepped : Stepped rejects (.userFindFirst w) σ (.ok found) τ) :
    (∀ user, found = some user → user ∈ σ.store.db.users ∧ w.holds user) ∧
      (found = none → ∀ user ∈ σ.store.db.users, ¬ w.holds user) := by
  obtain ⟨ms, choice, s, executed, _⟩ := stepped
  rw [exec, exec_answered executed] at executed
  have picked : pickFrom (σ.store.db.users.rows.filter w.holds) choice = found :=
    Except.ok.inj (Prod.mk.inj (Option.some.inj executed)).1
  constructor
  · rintro user rfl
    exact List.mem_filter.mp (pickFrom_mem picked)
  · rintro rfl user inTable matching
    exact List.not_mem_nil (pickFrom_none picked ▸ List.mem_filter.mpr ⟨inTable, matching⟩)

theorem Stepped.otpFound {w : EmailOtpWhere} {found : Option EmailOtp}
    (stepped : Stepped rejects (.emailOtpFindFirst w) σ (.ok found) τ) :
    (∀ otp, found = some otp → otp ∈ σ.store.db.emailOtps ∧ w.holds otp) ∧
      (found = none → ∀ otp ∈ σ.store.db.emailOtps, ¬ w.holds otp) := by
  obtain ⟨ms, choice, s, executed, _⟩ := stepped
  rw [exec, exec_answered executed] at executed
  have picked : pickFrom (σ.store.db.emailOtps.rows.filter w.holds) choice = found :=
    Except.ok.inj (Prod.mk.inj (Option.some.inj executed)).1
  constructor
  · rintro otp rfl
    exact List.mem_filter.mp (pickFrom_mem picked)
  · rintro rfl otp inTable matching
    exact List.not_mem_nil (pickFrom_none picked ▸ List.mem_filter.mpr ⟨inTable, matching⟩)

theorem Stepped.used {otp : EmailOtp} {e : Exn}
    (stepped : Stepped rejects (.emailOtpUse otp.id) σ (.error e) τ)
    (stored : otp ∈ σ.store.db.emailOtps) : rejects ≠ false := by
  obtain ⟨ms, choice, s, executed, reliable⟩ := stepped
  intro never
  simp only [exec, reliable never, Bool.false_eq_true, if_false, execTotal, Option.some.injEq,
    Store.affected] at executed
  split at executed
  · cases (Prod.mk.inj executed).1
  · rename_i absent
    have known : otp.id ∈ (σ.store.after ms).db.emailOtps.rows.map EmailOtp.id :=
      List.mem_map_of_mem stored
    rw [Table.modify?, if_pos known] at absent
    contradiction

theorem Stepped.activated {user : User} {r : Except Exn Unit}
    (stepped : Stepped rejects (.userActivate user.id) σ r τ) (stored : user ∈ σ.store.db.users) :
    (r = .ok () → ActiveAccount τ.store user.id) ∧ (rejects = false → r = .ok ()) := by
  obtain ⟨ms, choice, s, executed, reliable⟩ := stepped
  have known : user.id ∈ (σ.store.after ms).db.users.rows.map User.id := List.mem_map_of_mem stored
  cases fault : choice.fault with
  | true =>
    simp only [exec, fault, if_true, Cmd.canFail] at executed
    obtain ⟨rfl, _⟩ := Prod.mk.inj (Option.some.inj executed)
    constructor
    · rintro ⟨⟩
    · intro never
      rw [reliable never] at fault
      contradiction
  | false =>
    simp only [exec, fault, Bool.false_eq_true, if_false, execTotal, if_pos known] at executed
    obtain ⟨rfl, rfl⟩ := Prod.mk.inj (Option.some.inj executed)
    exact ⟨fun _ => active_activate stored, fun _ => rfl⟩

/-- The account that a verification finds is the one of the email. -/
theorem Acceptable.of_user {user : User} {now : Nat} (inTable : user ∈ σ.store.db.users)
    (owner : user.email = normalizeEmail cfg email) (acceptable : Acceptable cfg email code σ now) :
    ∃ expiresAt, HasCode σ.store user.id code expiresAt ∧ now < expiresAt := by
  obtain ⟨user', inTable', owner', _, accepted⟩ := acceptable
  have same : user' = user :=
    List.inj_on_of_nodup_map σ.store.db.emails inTable' inTable (owner'.trans owner.symm)
  exact same ▸ accepted

theorem verify_spec : Post (timed rejects)
    (AuthService.verify cfg email code) σ (Verifies cfg rejects email code σ) := by
  -- however the body fails, the handler refuses
  have refused : ∀ τ : Timed, (∀ u h at', HasCode τ.store u h at' ↔ HasCode σ.store u h at') →
      (rejects = false → ¬ Acceptable cfg email code σ τ.read) →
      Post (timed rejects) (throw (.service
        { code := ErrorCodes.VALIDATION_ERROR, statusCode := 401, message := "Invalid code" }) :
          Action Bool) τ
        (Verifies cfg rejects email code σ) := by
    intro τ codes never
    refine ⟨codes, ?_, fun reliable acceptable => absurd acceptable (never reliable), ?_⟩
    · rintro ⟨⟩
    · rintro verified ⟨⟩
  refine post_catch.mpr (post_step ?_ ?_)
  · intro e σ₁ searched
    exact refused σ₁ (fun u h at' => (searched.quiet rfl).codes)
      fun reliable => absurd reliable (searched.answered (.inl ⟨_, rfl⟩))
  · intro found σ₁ searched
    have quiet := searched.quiet rfl
    have users := searched.users rfl
    obtain ⟨some', none'⟩ := searched.userFound
    cases found with
    | none =>
      refine refused σ₁ (fun u h at' => quiet.codes) fun _ => ?_
      rintro ⟨user, inTable, owner, inactive, _⟩
      exact none' rfl user inTable (by simp [UserWhere.holds, owner, inactive])
    | some user =>
      obtain ⟨inTable, matching⟩ := some' user rfl
      simp only [UserWhere.holds, Option.all_none, Option.all_some, Bool.true_and, Bool.and_eq_true,
        beq_iff_eq] at matching
      obtain ⟨owner, inactive⟩ := matching
      apply post_step
      · exact fun e σ₂ clock => refused σ₂ (fun u h at' => (quiet.trans (clock.quiet rfl)).codes)
          fun reliable => absurd reliable (clock.answered (.inr (.inr rfl)))
      · intro now σ₂ clock
        cases Except.ok.inj clock.now.1
        have quiet₂ := quiet.trans (clock.quiet rfl)
        apply post_step
        · exact fun e σ₃ looked => refused σ₃
            (fun u h at' => (quiet₂.trans (looked.quiet rfl)).codes)
            fun reliable => absurd reliable (looked.answered (.inr (.inl ⟨_, rfl⟩)))
        · intro found σ₃ looked
          have quiet₃ := quiet₂.trans (looked.quiet rfl)
          have read₃ := looked.read rfl
          obtain ⟨some', none'⟩ := looked.otpFound
          cases found with
          | none =>
            refine refused σ₃ (fun u h at' => quiet₃.codes) fun _ acceptable => ?_
            obtain ⟨expiresAt, ⟨otp, stored, mine, same, expiry⟩, unexpired⟩ :=
              acceptable.of_user inTable owner.symm
            rw [← quiet₂.emailOtps] at stored
            rw [read₃] at unexpired
            exact none' rfl otp stored
              (by simp [EmailOtpWhere.holds, mine, same, expiry, unexpired])
          | some otp =>
            obtain ⟨stored, matching⟩ := some' otp rfl
            simp only [EmailOtpWhere.holds, Option.all_some, Bool.and_eq_true, beq_iff_eq,
              decide_eq_true_eq] at matching
            obtain ⟨⟨mine, same⟩, unexpired⟩ := matching
            have accepted : Acceptable cfg email code σ σ₂.read := by
              refine ⟨user, inTable, owner.symm, inactive.symm, otp.expiresAt,
                ⟨otp, ?_, mine.symm, same.symm, rfl⟩, unexpired⟩
              rw [← quiet₂.emailOtps]
              exact stored
            have stored₃ : otp ∈ σ₃.store.db.emailOtps := by
              rw [(looked.quiet rfl).emailOtps]
              exact stored
            have inTable₃ : user ∈ σ₃.store.db.users := by
              rw [looked.users rfl, clock.users rfl, users]
              exact inTable
            apply post_step
            · exact fun e σ₄ used => refused σ₄
                (fun u h at' => (used.use u h at').trans quiet₃.codes)
                fun reliable => absurd reliable (used.used stored₃)
            · intro _ σ₄ used
              have codes₄ : ∀ u h at', HasCode σ₄.store u h at' ↔ HasCode σ.store u h at' :=
                fun u h at' => (used.use u h at').trans quiet₃.codes
              have inTable₄ : user ∈ σ₄.store.db.users := by
                rw [used.users rfl]
                exact inTable₃
              apply post_step
              · intro e σ₅ activated
                refine refused σ₅ (fun u h at' => (activated.quiet rfl).codes.trans
                  (codes₄ u h at')) fun reliable => ?_
                exact absurd ((activated.activated inTable₄).2 reliable) (by rintro ⟨⟩)
              · intro _ σ₅ activated
                have read₅ : σ₅.read = σ₂.read :=
                  (activated.read rfl).trans ((used.read rfl).trans read₃)
                constructor
                · exact fun u h at' => (activated.quiet rfl).codes.trans (codes₄ u h at')
                · intro _
                  rw [read₅]
                  exact ⟨accepted, user, inTable, owner.symm, (activated.activated inTable₄).1 rfl⟩
                · exact fun _ _ => rfl
                · rintro _ ⟨⟩
                  rfl

end Verification

end CorePlatform.Auth
