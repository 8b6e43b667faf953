import CorePlatform.Auth.Enumeration
import CorePlatform.RateLimiter.Guard
import Mathlib.Data.Fintype.EquivFin

/-! Two spellings of one e-mail address. `create`, `validateUser` and `veryfiRegister` look up
the normalised address, the password reset and `resendCode` the address as it was sent. -/
namespace CorePlatform.Auth
open Async Relational

/-- The calls that take an address, with their other arguments. -/
inductive EntryPoint where
  | register (password : String) (name phone requestId : Option String)
  | validateUser (pass : String)
  | verify (code : String)
  | resendCode
  | forgotPassword
  | forgotPasswordVerify (code : Option String)
  | forgotPasswordReset (code password : Option String)

inductive Answer where
  | user (user : Option User)
  | reply (reply : Reply)

namespace EntryPoint

def run (cfg : Config) (email : String) : EntryPoint → Action Answer
  | .register password name phone requestId =>
      return .reply (← body cfg (.register { email, password, name, phone } requestId))
  | .validateUser pass => return .user (← UsersService.validateUser cfg (some email) pass)
  | .verify code => return .reply (← body cfg (.verify email code))
  | .resendCode => return .reply (← body cfg (.resendCode (some email)))
  | .forgotPassword => return .reply (← body cfg (.forgotPassword (some email)))
  | .forgotPasswordVerify code =>
      return .reply (← body cfg (.forgotPasswordVerify (some email) code))
  | .forgotPasswordReset code password =>
      return .reply (← body cfg (.forgotPasswordReset (some email) code password))

def normalises : EntryPoint → Bool
  | .register .. | .validateUser _ | .verify _ => true
  | _ => false

end EntryPoint

/-- The account that a lookup or an insertion has answered with. -/
def account? (step : Taken semantics) : Option (Option User) :=
  match step with
  | ⟨.userFindFirst _, _, r⟩ | ⟨.userFindUnique _, _, r⟩ => some r.toOption.join
  | ⟨.userCreate .., _, r⟩ => some r.toOption
  | _ => none

/-- Whatever the one spelling can do, the other can: the same accounts, result and store. -/
def SameConduct (cfg : Config) (s : Store) (email email' : String) (q : EntryPoint) : Prop :=
  ∀ accounts r t,
    (∃ record, Executes semantics (q.run cfg email) s record r t ∧
      record.filterMap account? = accounts) ↔
    ∃ record, Executes semantics (q.run cfg email') s record r t ∧
      record.filterMap account? = accounts

/-- The keys of a `body.email` rule are the same. -/
def SameKey (hashing : RateLimiter.Hashing) (email email' : String) : Prop :=
  ∀ req req' : RateLimiter.HttpRequest, req.body.get "email" = .str email →
    req'.body.get "email" = .str email' → ∀ rule : RateLimiter.RateLimitRule,
      rule.keySource = .body "email" → RateLimiter.RateLimiterGuard.buildKey hashing req rule =
        RateLimiter.RateLimiterGuard.buildKey hashing req' rule

section Programs

variable {cfg : Config} {email email' : String} {q : EntryPoint}

theorem run_normalised (normalised : q.normalises = true)
    (same : normalizeEmail cfg email = normalizeEmail cfg email') :
    q.run cfg email = q.run cfg email' := by
  cases q with
  | register password name phone requestId =>
    simp only [EntryPoint.run, body, AuthService.register, UsersService.create]
    rw [same]
  | validateUser pass =>
    simp only [EntryPoint.run, UsersService.validateUser, Option.map_some, same]
  | verify code =>
    have looked : UsersService.veryfiRegister cfg email code =
        UsersService.veryfiRegister cfg email' code := by
      unfold UsersService.veryfiRegister
      rw [same]
      refine congrArg (Prog.await (I := Api) _) (funext fun found => ?_)
      cases found with
      | error e => rfl
      | ok found => cases found <;> rfl
    simp only [EntryPoint.run, body, AuthService.verify, looked]
  | _ => contradiction

/-- What a program does with the answer to its first command, a search for a user. -/
def afterSearch : Action Answer → Except Exn (Option User) → Action Answer
  | .await (.userFindFirst _) k, r => k r
  | p, _ => p

/-- The other calls look up the address as it is, and do not use it again. -/
theorem run_search (raw : q.normalises = false) : q.run cfg email =
    .await (.userFindFirst { email := some email }) (afterSearch (q.run cfg "")) := by
  cases q with
  | resendCode | forgotPassword | forgotPasswordVerify | forgotPasswordReset => rfl
  | register | validateUser | verify => contradiction

end Programs

section Searches

variable {cfg : Config} {email email' : String} {s t : Store} {q : EntryPoint}

theorem exec_found {choice : Choice} {user : User} (executed :
    exec (.userFindFirst { email := some email }) choice s = some (.ok (some user), t)) :
    user ∈ s.db.users ∧ user.email = email := by
  rw [exec, exec_answered executed] at executed
  have picked := Except.ok.inj (Prod.mk.inj (Option.some.inj executed)).1
  obtain ⟨found, holds⟩ := List.mem_filter.mp (pickFrom_mem picked)
  exact ⟨found, holds_email.mp holds⟩

/-- A search for an address without an account answers alike for any such address. -/
theorem exec_unregistered {choice : Choice} {r : Except Exn (Option User)}
    (unknown : Unregistered email s) (unknown' : Unregistered email' s)
    (executed : exec (.userFindFirst { email := some email }) choice s = some (r, t)) :
    exec (.userFindFirst { email := some email' }) choice s = some (r, t) := by
  obtain ⟨same, rejected, absent, _⟩ := exec_lookup executed
  have empty : s.db.users.rows.filter (UserWhere.holds { email := some email' }) = [] :=
    List.filter_eq_nil_iff.mpr fun user found holds =>
      unknown' ⟨user, found, holds_email.mp holds⟩
  cases fault : choice.fault with
  | true => rw [rejected fault, same]; simp [exec, fault, Cmd.canFail]
  | false => rw [absent fault unknown, same]; simp [exec, fault, execTotal, empty, pickFrom]

theorem responds_total (c : Cmd) (s : Store) : ∃ r t, semantics.Responds c s r t := by
  cases rejectable : c.canFail with
  | true => exact ⟨_, _, responds_iff.mpr (.inl ⟨rejectable, rfl, rfl⟩)⟩
  | false =>
    cases c with
    | randomUUID =>
      obtain ⟨draw, fresh⟩ := Infinite.exists_notMem_finset s.drawn.toFinset
      rw [List.mem_toFinset] at fresh
      exact ⟨_, _, { draw }, if_neg fresh⟩
    | randomCode => exact ⟨_, _, { draw := "" }, rfl⟩
    | now | randomBytes16 | argon2Salt | natsPublish | setCookie | clearCookie =>
      exact ⟨_, _, {}, rfl⟩
    | _ => contradiction

/-- A call that finds an account under the one spelling finds it under the other one only if they
are the same. -/
theorem SameConduct.eq (raw : q.normalises = false) (conduct : SameConduct cfg s email email' q)
    (known : Registered email s) : email = email' := by
  have executed : exec (.userFindFirst { email := some email }) {} s =
      some (.ok (pickFrom
        (s.db.users.rows.filter (UserWhere.holds { email := some email })) {}), s) := rfl
  obtain ⟨_, _, _, found⟩ := exec_lookup executed
  obtain ⟨user, same⟩ := found rfl known
  rw [same] at executed
  obtain ⟨r, t, run⟩ := runs_exists responds_total (afterSearch (q.run cfg "") (.ok (some user))) s
  obtain ⟨record, rest⟩ := run.executes
  have execution : Executes semantics (q.run cfg email) s
      (⟨.userFindFirst { email := some email }, {}, .ok (some user)⟩ :: record) r t := by
    rw [run_search raw]
    exact .await executed rest
  obtain ⟨record', execution', accounts⟩ := (conduct _ r t).mp ⟨_, execution, rfl⟩
  rw [run_search raw] at execution'
  obtain ⟨choice', r', t', rest', rfl, executed', _⟩ := executes_await execution'
  simp only [List.filterMap_cons, account?] at accounts
  have head := (List.cons.inj accounts).1
  cases r' with
  | error e => nomatch head
  | ok found' =>
    have same : found' = some user := head
    subst same
    exact (exec_found executed).2.symm.trans (exec_found executed').2

theorem accounts_unregistered (raw : q.normalises = false) (unknown : Unregistered email s)
    (unknown' : Unregistered email' s) {record : List (Taken semantics)} {r : Except Exn Answer}
    (execution : Executes semantics (q.run cfg email) s record r t) :
    ∃ record', Executes semantics (q.run cfg email') s record' r t ∧
      record'.filterMap account? = record.filterMap account? := by
  rw [run_search raw] at execution
  obtain ⟨choice, found, t', rest, rfl, executed, following⟩ := executes_await execution
  refine ⟨⟨.userFindFirst { email := some email' }, choice, found⟩ :: rest, ?_, rfl⟩
  rw [run_search raw]
  exact .await (exec_unregistered unknown unknown' executed) following

theorem SameConduct.of_unregistered (raw : q.normalises = false) (unknown : Unregistered email s)
    (unknown' : Unregistered email' s) : SameConduct cfg s email email' q := by
  intro accounts r t
  constructor
  · rintro ⟨record, execution, rfl⟩
    exact accounts_unregistered raw unknown unknown' execution
  · rintro ⟨record, execution, rfl⟩
    exact accounts_unregistered raw unknown' unknown execution

theorem SameConduct.symm (conduct : SameConduct cfg s email email' q) :
    SameConduct cfg s email' email q := fun accounts r t => (conduct accounts r t).symm

/-- The calls act alike on two spellings of one address exactly when they are the same string, or
neither is what the table holds. -/
theorem sameConduct_iff (same : normalizeEmail cfg email = normalizeEmail cfg email') :
    (∀ q, SameConduct cfg s email email' q) ↔
      email = email' ∨ (Unregistered email s ∧ Unregistered email' s) := by
  constructor
  · intro conduct
    by_cases equal : email = email'
    · exact .inl equal
    · right
      constructor
      · exact fun known => equal ((conduct .resendCode).eq rfl known)
      · exact fun known => equal ((conduct .resendCode).symm.eq rfl known).symm
  · intro spelling q
    cases normalised : q.normalises with
    | true =>
      intro accounts r t
      rw [run_normalised normalised same]
    | false =>
      rcases spelling with rfl | ⟨unknown, unknown'⟩
      · exact fun accounts r t => Iff.rfl
      · exact .of_unregistered normalised unknown unknown'

end Searches

section Keys

variable {cfg : Config} {email email' : String} {s : Store} {sha256Hex : String → String}

def emailRequest (email : String) : RateLimiter.HttpRequest :=
  { body := .obj [("email", .str email)] }

def emailRule : RateLimiter.RateLimitRule :=
  { pfx := "auth:resend:email", limit := 2, window := 60, keySource := .body "email" }

/-- The part of a key that a `body.email` rule takes from an address. -/
def emailKey (hashing : RateLimiter.Hashing) (email : String) : String :=
  if email = "" then "empty" else String.ofList
    ((hashing.sha256Hex (Js.trim (hashing.toLowerCase email))).toList.take 16)

theorem buildKey_email {hashing : RateLimiter.Hashing} {req : RateLimiter.HttpRequest}
    {rule : RateLimiter.RateLimitRule} (sent : req.body.get "email" = .str email)
    (source : rule.keySource = .body "email") :
    RateLimiter.RateLimiterGuard.buildKey hashing req rule =
      rule.pfx ++ ":" ++ emailKey hashing email := by
  simp only [RateLimiter.RateLimiterGuard.buildKey, RateLimiter.RateLimiterGuard.ruleKey, source,
    RateLimiter.RateLimiterGuard.identifier, sent, Js.truthy, Js.toText, emailKey]
  by_cases blank : email = ""
  · simp [blank]
  · simp [blank]

theorem emailKey_length (digest : ∀ text, (sha256Hex text).length = 64) (email : String) :
    (emailKey ⟨sha256Hex, cfg.toLowerCase⟩ email).length = if email = "" then 5 else 16 := by
  unfold emailKey
  split
  · rfl
  · simp only [String.length_ofList, List.length_take, String.length_toList, digest]
    rfl

/-- The guard normalises an address, and leaves out an empty one before it does. -/
theorem sameKey_iff (digest : ∀ text, (sha256Hex text).length = 64)
    (same : normalizeEmail cfg email = normalizeEmail cfg email') :
    SameKey ⟨sha256Hex, cfg.toLowerCase⟩ email email' ↔ (email = "" ↔ email' = "") := by
  constructor
  · intro keys
    have equal := congrArg String.length
      (keys (emailRequest email) (emailRequest email') rfl rfl emailRule rfl)
    rw [buildKey_email rfl rfl, buildKey_email rfl rfl] at equal
    simp only [String.length_append, emailKey_length digest, Nat.add_left_cancel_iff] at equal
    by_cases blank : email = "" <;> by_cases blank' : email' = "" <;> simp_all
  · intro blank req req' sent sent' rule source
    unfold normalizeEmail at same
    rw [buildKey_email sent source, buildKey_email sent' source]
    simp only [emailKey, blank, same]

/-- Two spellings of one address are one identity exactly when no call can tell them apart: they
are the same string or no account is stored under either, and both or none is empty. -/
theorem email_identity_iff (digest : ∀ text, (sha256Hex text).length = 64)
    (same : normalizeEmail cfg email = normalizeEmail cfg email') :
    ((∀ q, SameConduct cfg s email email' q) ∧
      SameKey ⟨sha256Hex, cfg.toLowerCase⟩ email email') ↔
      (email = email' ∨ (Unregistered email s ∧ Unregistered email' s)) ∧
        (email = "" ↔ email' = "") :=
  and_congr (sameConduct_iff same) (sameKey_iff digest same)

end Keys

section Sample

def aliceDto : CreateUserDto := { email := "alice@mail.com", password := "Secret123" }

/-- The account of a registration is not found under another spelling. -/
theorem other_spelling_unknown : ∃ record r s,
    Executes semantics (AuthService.register Config.default aliceDto none) {} record (.ok r) s ∧
      normalizeEmail Config.default "alice@mail.com" =
        normalizeEmail Config.default "Alice@mail.com" ∧
      ¬ ∀ q, SameConduct Config.default s "alice@mail.com" "Alice@mail.com" q := by
  have recorded : ((AuthService.register Config.default aliceDto none).record semantics {}
      [{}, {}, {}, {}, {}, {}, { draw := aliceId }, {}, { draw := otpId1 }, {}]).any
        (fun (_, r, t) => r.isOk && decide (Registered "alice@mail.com" t)) = true := by
    decide +kernel
  obtain ⟨record, r, s, execution, tested⟩ := executes_of_record recorded
  simp only [Bool.and_eq_true, decide_eq_true_eq] at tested
  cases r with
  | error e => exact absurd tested.1 nofun
  | ok r =>
    refine ⟨record, r, s, execution, by decide +kernel, fun conduct => ?_⟩
    exact absurd ((conduct .resendCode).eq rfl tested.2) (by decide)

/-- SHA-256 of the address, with zeros for every other text. -/
def aliceDigest (text : String) : String :=
  if text = "alice@mail.com" then
    "0e062fb567307582fd2428b2a8344fef6e5b5e3b0b71ff13ec9aeb70928a3239"
  else "0000000000000000000000000000000000000000000000000000000000000000"

theorem aliceDigest_length (text : String) : (aliceDigest text).length = 64 := by
  unfold aliceDigest
  split <;> decide +kernel

/-- Other people have accounts already. -/
def othersStore : Store :=
  { db := { users := ⟨[
    { id := bobId, email := "bob@mail.com", passwordHash := ⟨argonSalt0, "Secret456"⟩
      isActive := true, createdAt := 0 },
    { id := carolId, email := "carol@mail.com", passwordHash := ⟨argonSalt1, "Forgotten1"⟩
      createdAt := 0 }], by decide⟩ } }

/-- Before the registration neither spelling has an account. -/
theorem spellings_alike_before :
    (∀ q, SameConduct Config.default othersStore "alice@mail.com" "Alice@mail.com" q) ∧
      SameKey ⟨aliceDigest, Config.default.toLowerCase⟩ "alice@mail.com" "Alice@mail.com" :=
  (email_identity_iff aliceDigest_length (by decide +kernel)).mpr
    ⟨.inr ⟨by decide, by decide⟩, by decide⟩

end Sample
end CorePlatform.Auth
