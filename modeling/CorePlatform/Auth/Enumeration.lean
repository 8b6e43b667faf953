import CorePlatform.Async.Record
import CorePlatform.Auth.Registration
import CorePlatform.Auth.ResetExpiry

/-! What the replies of the forgot-password flow tell about an address. A caller asks one call
after the other, always with the same address, and sees what the filter makes of the results. -/
namespace CorePlatform.Auth
open Async Relational

inductive ForgotCall where
  | forgotPassword
  | forgotPasswordVerify (code : Option String)
  | forgotPasswordReset (code password : Option String)
  deriving DecidableEq

def ForgotCall.body (cfg : Config) (email : String) : ForgotCall → Action String
  | .forgotPassword => AuthService.forgotPassword cfg (some email)
  | .forgotPasswordVerify code => AuthService.forgotPasswordVerify (some email) code
  | .forgotPasswordReset code password => AuthService.forgotPasswordReset (some email) code password

/-- What the caller sees of a reply; only an error has a code. -/
structure Seen where
  status : Nat
  code : Option ErrorCode
  message : String
  deriving DecidableEq

def seen (r : Except Exn String) : Option Seen :=
  match r with
  | .ok message => some { status := 200, code := none, message }
  | .error e => (HttpExceptionFilter.reply e.thrown).map fun reply =>
      { status := reply.status, code := some reply.messageKey, message := reply.message }

/-- Calls with the address, one after the other, while time passes, and what is seen of them. A call
is marked where the database rejects the query for its account. -/
inductive Exchange (cfg : Config) (email : String) : Store → List (ForgotCall × Bool) →
    List (Option Seen) → Prop where
  | nil (s : Store) : Exchange cfg email s [] []
  | call {s t : Store} {q : ForgotCall} {rejected : Bool} {first : Taken semantics}
      {steps : List (Taken semantics)}
      {r : Except Exn String} {calls : List (ForgotCall × Bool)} {shown : List (Option Seen)}
      (ms : Nat)
      (execution : Executes semantics (q.body cfg email) { s with now := s.now + ms }
        (first :: steps) r t)
      (marked : first.choice.fault = rejected) (rest : Exchange cfg email t calls shown) :
      Exchange cfg email s ((q, rejected) :: calls) (seen r :: shown)

section Calls

variable {cfg : Config} {email : String} {s t : Store} {q : ForgotCall} {first : Taken semantics}
  {steps : List (Taken semantics)} {r : Except Exn String}

/-- What a call ends in whose query for the account is rejected. -/
def rejectedResult : ForgotCall → Except Exn String
  | .forgotPassword => .ok AuthService.genericMessage
  | .forgotPasswordVerify _ | .forgotPasswordReset .. => .error (badRequest unreachable.message)

/-- What a call ends in that finds no account. -/
def unknownResult : ForgotCall → Except Exn String
  | .forgotPassword => .ok AuthService.genericMessage
  | .forgotPasswordVerify _ =>
    .error (.service
      { code := ErrorCodes.NOT_FOUND, statusCode := 404, message := "Email not found" })
  | .forgotPasswordReset .. => .error (badRequest "Bad request")

/-- What a call can end in that finds an account. -/
def KnownResult (r : Except Exn String) : ForgotCall → Prop
  | .forgotPassword => r = .ok AuthService.genericMessage
  | .forgotPasswordVerify _ | .forgotPasswordReset .. =>
    (∃ message, r = .ok message) ∨ ∃ message, message ≠ "Bad request" ∧
      r = .error (badRequest message)

theorem holds_email {user : User} :
    UserWhere.holds { email := some email } user ↔ user.email = email := by
  simp only [UserWhere.holds, Option.all_none, Option.all_some, Bool.and_true,
    Bool.true_and, beq_iff_eq]
  exact eq_comm

theorem exec_lookup {choice : Choice} {found : Except Exn (Option User)}
    (executed : exec (.userFindFirst { email := some email }) choice s = some (found, t)) : t = s ∧
      (choice.fault = true → found = .error unreachable) ∧
      (choice.fault = false → Unregistered email s → found = .ok none) ∧
      (choice.fault = false → Registered email s → ∃ user, found = .ok (some user)) := by
  cases answered : choice.fault with
  | true =>
    simp only [exec, answered, Cmd.canFail, if_true, Option.some.injEq, Prod.mk.injEq] at executed
    refine ⟨executed.2.symm, fun _ => executed.1.symm, ?_, ?_⟩
    · rintro ⟨⟩
    · rintro ⟨⟩
  | false =>
    rw [exec, answered] at executed
    obtain ⟨rfl, rfl⟩ := Prod.mk.inj (Option.some.inj executed)
    refine ⟨rfl, ?_, fun _ unknown => ?_, fun _ known => ?_⟩
    · rintro ⟨⟩
    · cases picked : pickFrom
        (s.db.users.rows.filter (UserWhere.holds { email := some email })) choice with
      | none => rfl
      | some user =>
        obtain ⟨found, same⟩ := List.mem_filter.mp (pickFrom_mem picked)
        exact absurd ⟨user, found, holds_email.mp same⟩ unknown
    · cases picked : pickFrom
        (s.db.users.rows.filter (UserWhere.holds { email := some email })) choice with
      | some user => exact ⟨user, rfl⟩
      | none =>
        obtain ⟨user, found, same⟩ := known
        have absent := pickFrom_none picked
        exact absurd (absent ▸ List.mem_filter.mpr ⟨found, holds_email.mpr same⟩) List.not_mem_nil

/-- An error that the handlers of the flow pass on, or make a bad request of. -/
def Mild (e : Exn) : Prop :=
  e.message ≠ "Bad request" ∧ (e.isService = true → ∃ message, e = badRequest message)

theorem exec_mild {c : Cmd} {choice : Choice} {e : Exn}
    (executed : exec c choice s = some (.error e, t)) : Mild e := by
  have mild : ∀ {e' : Exn}, e' = e → e'.message ≠ "Bad request" ∧
      e'.isService = false → Mild e := by
    rintro _ rfl ⟨other, foreign⟩
    refine ⟨other, fun service => ?_⟩
    rw [service] at foreign
    contradiction
  unfold exec at executed
  split at executed
  · split at executed
    · exact mild (Except.error.inj (Prod.mk.inj (Option.some.inj executed)).1) (by decide)
    · contradiction
  · cases c <;> simp only [execTotal, Store.createUser, Store.affected] at executed <;>
      (repeat' split at executed) <;> first
      | exact mild (Except.error.inj (Prod.mk.inj (Option.some.inj executed)).1) (by decide)
      | cases (Prod.mk.inj (Option.some.inj executed)).1
      | contradiction
      | (obtain ⟨_, _, both⟩ := Option.map_eq_some_iff.mp executed
         cases (Prod.mk.inj both).1)

theorem mild_badRequest {message : String} (other : message ≠ "Bad request") :
    Mild (badRequest message) :=
  ⟨other, fun _ => ⟨message, rfl⟩⟩

theorem mild_missingPassword : Mild missingPassword := ⟨by decide, nofun⟩

/-- What every outcome of `p` leads to, a sequence leads to. -/
theorem post_anyhow {α β : Type} {p : Action α} {f : α → Action β} {Q : Except Exn β → Store → Prop}
    (failed : ∀ e t, Q (.error e) t) (next : ∀ a t, Post semantics (f a) t Q) :
    Post semantics (p >>= f) s Q := by
  refine post_bind.mpr (post_iff_runs.mpr fun r t _ => ?_)
  cases r with
  | error e => exact failed e t
  | ok a => exact next a t

/-- An inner error is mild. -/
abbrev MildlyFails {α : Type} (r : Except Exn α) (_ : Store) : Prop := ∀ e, r = .error e → Mild e

theorem mildly_throws {α : Type} {e : Exn} (mild : Mild e) :
    Post semantics (throw e : Action α) s MildlyFails := by
  intro e' same
  cases same
  exact mild

theorem mildly_call {c : Cmd} : Post semantics (call c) s MildlyFails := by
  rintro r t ⟨choice, executed⟩ e rfl
  exact exec_mild executed

theorem mildly_bind {α β : Type} {p : Action α} {f : α → Action β}
    (first : Post semantics p s MildlyFails) (next : ∀ a t, Post semantics (f a) t MildlyFails) :
    Post semantics (p >>= f) s MildlyFails := by
  refine post_bind.mpr (first.mono fun r t mild => ?_)
  cases r with
  | ok a => exact next a t
  | error e =>
    rintro _ ⟨⟩
    exact mild e rfl

theorem mildly_command {α : Type} {c : Cmd} {f : c.Resp → Action α}
    (next : ∀ a t, Post semantics (f a) t MildlyFails) :
    Post semantics (call c >>= f) s MildlyFails := mildly_bind mildly_call next

theorem mildly_verifyHash {hash : Argon2Hash String} {code : Option String}
    {α : Type} {f : Bool → Action α}
    (next : ∀ verified, Post semantics (f verified) s MildlyFails) :
    Post semantics (verifyHash hash code >>= f) s MildlyFails := by
  cases code with
  | none => exact mildly_throws mild_missingPassword
  | some code => exact next _

theorem mildly_verifies {userId : String} {code : Option String} :
    Post semantics (UsersService.verifyPasswordReset userId code) s MildlyFails := by
  refine mildly_command fun now t => mildly_command fun found t => ?_
  cases found with
  | none => exact mildly_throws (mild_badRequest (by decide))
  | some row =>
    refine mildly_verifyHash fun verified => ?_
    cases verified with
    | false => exact mildly_throws (mild_badRequest (by decide))
    | true => exact mildly_command fun _ _ => nofun

theorem mildly_resets {userId : String} {password code : Option String} :
    Post semantics (UsersService.resetPassword userId password code) s MildlyFails := by
  refine mildly_command fun found t => ?_
  cases found with
  | none => exact mildly_throws (mild_badRequest (by decide))
  | some row =>
    refine mildly_verifyHash fun verified => ?_
    cases verified with
    | false => exact mildly_throws (mild_badRequest (by decide))
    | true =>
      cases password with
      | none => exact mildly_throws ⟨by decide, nofun⟩
      | some password =>
        simp only [Bool.not_true, Bool.false_eq_true, if_false]
        refine mildly_bind (mildly_command fun _ _ => nofun) fun hash t => ?_
        exact mildly_command fun _ t => mildly_command fun _ t => nofun

/-- The handlers make known results of mild errors. -/
theorem known_caught {p : Action String} (inner : Post semantics p s MildlyFails) :
    Post semantics (tryCatch p fun error =>
      if error.isService then throw error else throw (badRequest error.message)) s
      fun r _ => (∃ message, r = .ok message) ∨ ∃ message, message ≠ "Bad request" ∧
      r = .error (badRequest message) := by
  refine post_catch.mpr (inner.mono fun r t mild => ?_)
  cases r with
  | ok message => exact .inl ⟨message, rfl⟩
  | error e =>
    obtain ⟨other, passed⟩ := mild e rfl
    cases service : e.isService with
    | false =>
      simp only [service, Bool.false_eq_true, if_false, Prog.throw_eq, post_done]
      exact .inr ⟨e.message, other, rfl⟩
    | true =>
      obtain ⟨message, rfl⟩ := passed service
      simp only [service, if_true, Prog.throw_eq, post_done]
      exact .inr ⟨message, other, rfl⟩

/-- Every call starts with the query for the account, and decides by it. -/
theorem body_lookup (q : ForgotCall) :
    ∃ k, q.body cfg email = .await (.userFindFirst { email := some email }) k ∧
    k (.error unreachable) = .done (rejectedResult q) ∧ k (.ok none) = .done (unknownResult q) ∧
    ∀ user s, Post semantics (k (.ok (some user))) s fun r _ => KnownResult r q := by
  cases q with
  | forgotPassword =>
    refine ⟨_, rfl, rfl, rfl, fun user s => ?_⟩
    change Post semantics (tryCatch (do
      let reset ← UsersService.createPasswordReset cfg user.id
      AuthService.parseEvent cfg user.id user.email
      call (.queueAdd
        { name := AuthService.PASSWORD_RESET_REQUESTED, email := user.email, token := reset.token
          userId := user.id, expiresAt := reset.expiresAt })
      return AuthService.genericMessage : Action String) fun _ =>
        return AuthService.genericMessage) s _
    refine post_catch.mpr (Post.mono (P := fun r _ => ∀ message, r = .ok message →
      message = AuthService.genericMessage) ?_ ?_)
    · refine post_anyhow nofun fun reset t => post_anyhow nofun fun _ t =>
        post_anyhow nofun fun _ t => ?_
      rintro _ ⟨⟩
      rfl
    · intro r t generic
      cases r with
      | ok message => exact congrArg _ (generic message rfl)
      | error e => rfl
  | forgotPasswordVerify code =>
    refine ⟨_, rfl, rfl, rfl, fun user s => ?_⟩
    change Post semantics (tryCatch (do
      let _ ← UsersService.verifyPasswordReset user.id code
      return "Password reset verified") fun error => if error.isService then throw error
        else throw (badRequest error.message)) s _
    exact known_caught (mildly_bind mildly_verifies fun _ _ => nofun)
  | forgotPasswordReset code password =>
    refine ⟨_, rfl, rfl, rfl, fun user s => ?_⟩
    change Post semantics (tryCatch (do
      let _ ← UsersService.resetPassword user.id password code
      let _ ← UsersService.logoutAllDevices (some user.id)
      return "Password reset success") fun error => if error.isService then throw error
        else throw (badRequest error.message)) s _
    refine known_caught (mildly_bind mildly_resets fun _ t => mildly_bind ?_ fun _ _ => nofun)
    exact mildly_command fun now t => mildly_call

/-- The query is answered alike for both branches of a call. -/
theorem executes_lookup (execution : Executes semantics (q.body cfg email) s (first :: steps) r t) :
    (first.choice.fault = true → r = rejectedResult q ∧ t = s) ∧
    (first.choice.fault = false → Unregistered email s → r = unknownResult q ∧ t = s) ∧
    (first.choice.fault = false → Registered email s → KnownResult r q) := by
  obtain ⟨k, (same : q.body cfg email = _), rejected, absent, found⟩ := body_lookup q
  rw [same] at execution
  obtain ⟨choice, result, s', rest, taken, executed, following⟩ := executes_await execution
  cases taken
  obtain ⟨rfl, refused, none, some⟩ := exec_lookup executed
  refine ⟨fun fault => ?_, fun answered unknown => ?_, fun answered known => ?_⟩
  · rw [refused fault, rejected] at following
    exact executes_done following
  · rw [none answered unknown, absent] at following
    exact executes_done following
  · obtain ⟨user, rfl⟩ := some answered known
    exact post_iff_runs.mp (found user _) _ _ following.runs

theorem executes_registered (execution : Executes semantics (q.body cfg email) s steps r t)
    (known : Registered email s) :
    Registered email t :=
  execution.kept (fun _ _ _ _ _ executed => (exec_usersEffect executed).registered) known

theorem executes_unregistered
    (execution : Executes semantics (q.body cfg email) s (first :: steps) r t)
    (unknown : Unregistered email s) : Unregistered email t := by
  obtain ⟨rejected, absent, _⟩ := executes_lookup execution
  cases marked : first.choice.fault with
  | true =>
    obtain ⟨_, rfl⟩ := rejected marked
    exact unknown
  | false =>
    obtain ⟨_, rfl⟩ := absent marked unknown
    exact unknown

/-- The reply to a known address is the one to an unknown address for `forgotPassword` only. -/
theorem seen_unknown_iff {r : Except Exn String} (known : KnownResult r q) :
    seen (unknownResult q) = seen r ↔ q = .forgotPassword := by
  cases q with
  | forgotPassword =>
    cases known
    exact iff_of_true rfl rfl
  | forgotPasswordVerify code =>
    refine iff_of_false ?_ nofun
    obtain ⟨message, rfl⟩ | ⟨message, _, rfl⟩ :=
      known <;> exact fun same => nomatch congrArg (·.map Seen.status) same
  | forgotPasswordReset code password =>
    refine iff_of_false ?_ nofun
    obtain ⟨message, rfl⟩ | ⟨message, other, rfl⟩ := known
    · exact fun same => nomatch congrArg (·.map Seen.status) same
    · intro same
      exact other (Option.some.inj (congrArg (·.map Seen.message) same)).symm

end Calls

/-- Two exchanges, where the address has no account and where it has one, look alike exactly if
every call is `forgotPassword` or one whose query for the account is rejected. -/
theorem forgot_flow_hidden_iff {cfg : Config} {email : String} {s s' : Store}
    {calls : List (ForgotCall × Bool)} {shown shown' : List (Option Seen)}
    (unknown : Unregistered email s) (known : Registered email s')
    (exchange : Exchange cfg email s calls shown) (exchange' : Exchange cfg email s' calls shown') :
    shown = shown' ↔ ∀ call ∈ calls, call.1 = .forgotPassword ∨ call.2 = true := by
  induction exchange generalizing s' shown' with
  | nil s =>
    cases exchange'
    exact iff_of_true rfl nofun
  | @call s t q rejected first steps r calls shown ms execution marked rest ih =>
    cases exchange' with
    | @call _ t' _ _ first' steps' r' _ shown' ms' execution' marked' rest' =>
      rw [List.cons_eq_cons, List.forall_mem_cons]
      refine and_congr ?_ (ih (executes_unregistered execution unknown)
        (executes_registered execution' known) rest')
      obtain ⟨refused, absent, _⟩ := executes_lookup execution
      obtain ⟨refused', _, found⟩ := executes_lookup execution'
      cases rejected with
      | true =>
        obtain ⟨rfl, _⟩ := refused marked
        obtain ⟨rfl, _⟩ := refused' marked'
        exact iff_of_true rfl (.inr rfl)
      | false =>
        obtain ⟨rfl, _⟩ := absent marked unknown
        rw [seen_unknown_iff (found marked' known)]
        exact (or_iff_left Bool.false_ne_true).symm

section Sample

/-- One call whose query for the account is answered. -/
theorem exchange_one {cfg : Config} {email : String} {s : Store} {q : ForgotCall} {answer : Seen}
    (choices : List Choice)
    (tested : ((q.body cfg email).record semantics { s with now := s.now + 0 } choices).any
      (fun out => out.1.head?.any (!·.choice.fault) && seen out.2.1 = some answer) = true) :
    Exchange cfg email s [(q, false)] [some answer] := by
  obtain ⟨steps, r, t, execution, passed⟩ := executes_of_record tested
  obtain ⟨answered, same⟩ := Bool.and_eq_true_iff.mp passed
  have same : seen r = some answer := of_decide_eq_true same
  rw [← same]
  cases steps with
  | nil => contradiction
  | cons first steps => exact .call 0 execution (Bool.not_eq_true' _ |>.mp answered) (.nil t)

def guess : ForgotCall := .forgotPasswordVerify (some "000000")

/-- A guessed code tells whether there is an account, without codes and before anything is
verified. -/
theorem forgot_flow_reveals :
    Unregistered "alice@mail.com" {} ∧ Registered "alice@mail.com" unrequested ∧
    unrequested.db.passwordResets.rows = [] ∧ ∃ shown shown',
    Exchange Config.default "alice@mail.com" {} [(guess, false)] shown ∧
      Exchange Config.default "alice@mail.com" unrequested [(guess, false)] shown' ∧
      shown ≠ shown' := by
  have unknown : Exchange Config.default "alice@mail.com" {} [(guess, false)]
      [some { status := 404, code := some "NOT_FOUND", message := "Email not found" }] :=
        exchange_one [{}] (by decide +kernel)
  have known : Exchange Config.default "alice@mail.com" unrequested [(guess, false)]
      [some { status := 400, code := some "BAD_REQUEST", message := "expired or already used" }] :=
    exchange_one (List.replicate 3 {}) (by decide +kernel)
  exact ⟨by decide, by decide, rfl, _, _, unknown, known, by decide⟩

/-- A request for a code does not. -/
theorem forgot_flow_hidden_sample : ∃ shown shown',
    Exchange Config.default "alice@mail.com" {} [(.forgotPassword, false)] shown ∧
    Exchange Config.default "alice@mail.com" unrequested [(.forgotPassword, false)] shown' ∧
    shown = shown' := by
  have unknown : Exchange Config.default "alice@mail.com" {} [(.forgotPassword, false)]
      [some { status := 200, code := none, message := AuthService.genericMessage }] :=
        exchange_one [{}] (by decide +kernel)
  have known : Exchange Config.default "alice@mail.com" unrequested [(.forgotPassword, false)]
      [some { status := 200, code := none, message := AuthService.genericMessage }] :=
    exchange_one (List.replicate 9 { draw := "k3x9" }) (by decide +kernel)
  refine ⟨_, _, unknown, known,
    (forgot_flow_hidden_iff (by decide) (by decide) unknown known).mpr ?_⟩
  simp only [List.mem_singleton, forall_eq, true_or]

end Sample
end CorePlatform.Auth
