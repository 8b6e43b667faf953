import CorePlatform.Async.Attribution
import CorePlatform.Async.Holding
import CorePlatform.Auth.Verified
import Mathlib.Data.List.Nodup

/-! Who is let in. The login route hands the body of a request to `LocalStrategy`, and goes on with
the account that it finds. A session is opened there and nowhere else; a refresh carries one on. -/
namespace CorePlatform.Auth
open Async Relational

variable {cfg : Config}

namespace LocalStrategy

def validate (cfg : Config) (email password : String) : Action User := do
  match ← UsersService.validateUser cfg (some email) password with
  | none => throw (invalidCredentials "Invalid email or password")
  | some user => return user

end LocalStrategy

/-- `LocalAuthGuard`: `passport-local` asks the strategy only where the body has both fields. -/
def localAuthGuard (cfg : Config) (email password : Option String) : Action User :=
  match email.filter (· ≠ ""), password.filter (· ≠ "") with
  | some email, some password => LocalStrategy.validate cfg email password
  | _, _ => throw (unauthorized "Unauthorized")

/-- `POST auth/internal/login` -/
def AuthController.login (cfg : Config) (email password : Option String) (req : Request) :
    Action LoginResponse := do
  let user ← localAuthGuard cfg email password
  AuthService.login cfg user req

def Call.isLogin : Call → Bool
  | .login .. => true
  | _ => false

/-- The tokens of a reply. -/
def Reply.tokens? : Reply → Option LoginResponse
  | .tokens response => some response
  | _ => none

/-- What comes in from outside: a login with the fields of its body, or one of the other calls. -/
inductive Incoming where
  | login (email password : Option String) (req : Request)
  | other (q : Call) (known : q.isLogin = false)

def Incoming.body (cfg : Config) : Incoming → Action Reply
  | .login email password req => return .tokens (← AuthController.login cfg email password req)
  | .other q _ => Auth.body cfg q

@[reducible] def routedSystem (cfg : Config) : System Api Exn Incoming Reply Store where
  toSemantics := semantics
  body := Incoming.body cfg
  Act := EnvAct
  act := act

abbrev RoutedThread := Thread Api Exn Incoming Reply
abbrev RoutedPool := Pool Api Exn Incoming Reply Store

/-- The account that a token names. -/
def subject? (token : Token) : Option String := (Jwt.decode token).bind Claims.sub

section Points

/-- Where a call may stand that opens a session or hands a token out: `ready` says for whom. -/
def handPoint (ready : List Ev → String → Option String → Prop) (trace : List Ev) : Cmd → Prop
  | .refreshTokenCreate data => ready trace data.userId data.deviceId
  | .setCookie (.refreshToken token _) =>
      ∃ userId deviceId, ready trace userId deviceId ∧ subject? token = some userId
  | _ => True

def handReturn (ready : List Ev → String → Option String → Prop) (trace : List Ev)
    (r : Except Exn LoginResponse) : Prop :=
  ∀ response, r = .ok response → ∃ deviceId, ready trace response.id deviceId ∧
    subject? response.accessToken = some response.id

variable {ready : List Ev → String → Option String → Prop} {trace : List Ev}
  {deviceId : Option String} {dataDevice : DeviceData} {old : Option Token}

theorem handReturn_error (trace : List Ev) (e : Exn) : handReturn ready trace (.error e) := by
  intro response same
  cases same

theorem along_saveRefreshToken_hand {R : List Ev → Except Exn Unit → Prop} {userId : String}
    {new : Token}
    (stays : ∀ trace e userId deviceId, ready trace userId deviceId →
      ready (e :: trace) userId deviceId)
    (start : ready trace userId deviceId) (rejected : ∀ trace e, R trace (.error e))
    (saved : ∀ trace, ready trace userId deviceId → R trace (.ok ())) :
    Along (handPoint ready) R trace
      (UsersService.saveRefreshToken cfg userId new dataDevice deviceId old) := by
  refine along_await_bind trivial rejected fun now => ?_
  refine along_bind.mpr (along_await_bind trivial rejected fun salt => ?_)
  have ready₁ := stays _ (⟨.now, .ok now⟩ : Ev) _ _ start
  have ready₂ := stays _ (⟨.argon2Salt, .ok salt⟩ : Ev) _ _ ready₁
  refine along_await_bind trivial rejected fun found => ?_
  have ready₃ :=
    stays _ (⟨.refreshTokenFindFirst (savedSession userId deviceId), .ok found⟩ : Ev) _ _ ready₂
  cases found with
  | none =>
    refine ⟨ready₃, fun r => ?_⟩
    cases r with
    | error e => exact rejected _ e
    | ok _ => exact saved _ (stays _ _ _ _ ready₃)
  | some existing =>
    by_cases mismatch : (old.any fun old => !verifyPassword existing.tokenHash old) = true
    · simp only [mismatch, if_true, Prog.throw_eq, Prog.bind_error, along_done]
      exact rejected _ _
    · simp only [mismatch]
      refine ⟨trivial, fun r => ?_⟩
      cases r with
      | error e => exact rejected _ e
      | ok _ => exact saved _ (stays _ _ _ _ ready₃)

theorem along_issueTokens_hand {R : List Ev → Except Exn LoginResponse → Prop} {user : User}
    (stays : ∀ trace e userId deviceId, ready trace userId deviceId →
      ready (e :: trace) userId deviceId)
    (start : ready trace user.id deviceId) (rejected : ∀ trace e, R trace (.error e))
    (issued : ∀ trace r, handReturn ready trace (.ok r) → R trace (.ok r)) :
    Along (handPoint ready) R trace
      (AuthService.issueTokens cfg user dataDevice deviceId old) := by
  refine along_await_bind trivial rejected fun signed => ?_
  refine along_bind.mpr (along_saveRefreshToken_hand stays (stays _ _ _ _ start) rejected ?_)
  intro trace ready₁
  refine along_await_bind trivial rejected fun now => ?_
  have ready₂ := stays _ (⟨.now, .ok now⟩ : Ev) _ _ ready₁
  refine along_await_bind ⟨user.id, deviceId, ready₂, rfl⟩ rejected fun _ => ?_
  refine along_await_bind trivial rejected fun _ => ?_
  refine issued _ _ fun response same => ?_
  cases same
  exact ⟨deviceId, stays _ _ _ _ (stays _ _ _ _ ready₂), rfl⟩

end Points

section Calls

/-- What a login has seen: the account of the address with the password given, the same address
among the active accounts, and the name it has drawn for the device. -/
structure Admits (cfg : Config) (email password : String) (trace : List Ev) (account active : User)
    (deviceId : String) : Prop where
  identified : (⟨.userFindFirst { email := some (normalizeEmail cfg email) },
    .ok (some account)⟩ : Ev) ∈ trace
  password : account.passwordHash.plain = password
  drew : (⟨.randomUUID, .ok deviceId⟩ : Ev) ∈ trace
  active : (⟨.userFindFirst { email := some account.email, isActive := some true },
    .ok (some active)⟩ : Ev) ∈ trace

theorem Admits.later {email password deviceId : String} {trace trace' : List Ev}
    {account active : User} (admits : Admits cfg email password trace account active deviceId)
    (grown : trace ⊆ trace') : Admits cfg email password trace' account active deviceId :=
  ⟨grown admits.identified, admits.password, grown admits.drew, grown admits.active⟩

/-- For whom a login may go on. -/
def admitted (cfg : Config) (email password : Option String) (trace : List Ev) (userId : String)
    (deviceId : Option String) : Prop :=
  ∃ e p account active d, email = some e ∧ password = some p ∧ deviceId = some d ∧
    Admits cfg e p trace account active d ∧ userId = active.id

/-- For whom a refresh may go on: it has found a session. -/
def resumed (device : Option String) (trace : List Ev) (userId : String)
    (deviceId : Option String) : Prop :=
  deviceId = device ∧ ∃ w session user, w.deviceId = device ∧ userId = user.id ∧
    (⟨.refreshTokenFindFirstWithUser w, .ok (some (session, user))⟩ : Ev) ∈ trace

def incomingReady (cfg : Config) : Incoming → List Ev → String → Option String → Prop
  | .login email password _ => admitted cfg email password
  | .other (.refresh _ deviceId _) _ => resumed deviceId
  | .other _ _ => fun _ _ _ => False

theorem along_authService_login {email password : String} {trace : List Ev} {account : User}
    {req : Request}
    (identified : (⟨.userFindFirst { email := some (normalizeEmail cfg email) },
      .ok (some account)⟩ : Ev) ∈ trace) (valid : account.passwordHash.plain = password) :
    Along (handPoint (admitted cfg (some email) (some password)))
      (handReturn (admitted cfg (some email) (some password))) trace
      (AuthService.login cfg account req) := by
  refine along_catch.mpr ?_
  have refused : ∀ (trace : List Ev) (e : Exn),
      Along (handPoint (admitted cfg (some email) (some password)))
        (handReturn (admitted cfg (some email) (some password))) trace
        (if e.isService then throw e else throw (invalidCredentials e.message) :
          Action LoginResponse) := by
    intro trace e
    split <;> exact handReturn_error _ _
  refine along_await_bind trivial refused fun d => ?_
  refine along_bind.mpr (along_await_bind trivial refused fun found => ?_)
  cases found with
  | none => exact refused _ _
  | some active =>
    refine along_issueTokens_hand ?_ ?_ refused fun _ _ issued => issued
    · rintro trace e userId deviceId
        ⟨_, _, account, active, d, given, givenP, device, admits, owner⟩
      exact ⟨_, _, account, active, d, given, givenP, device,
        admits.later (List.subset_cons_self _ _), owner⟩
    · exact ⟨email, password, account, active, d, rfl, rfl, rfl,
        { identified := List.mem_cons_of_mem _ (List.mem_cons_of_mem _ identified)
          password := valid
          drew := List.mem_cons_of_mem _ List.mem_cons_self
          active := List.mem_cons_self }, rfl⟩

theorem along_login_hand {email password : Option String} {req : Request} :
    Along (handPoint (admitted cfg email password)) (handReturn (admitted cfg email password)) []
      (AuthController.login cfg email password req) := by
  refine along_bind.mpr ?_
  unfold localAuthGuard
  split
  · rename_i e p givenE givenP
    obtain ⟨rfl, _⟩ := Option.filter_eq_some_iff.mp givenE
    obtain ⟨rfl, _⟩ := Option.filter_eq_some_iff.mp givenP
    refine along_bind.mpr (along_bind.mpr ?_)
    refine along_call.mpr ⟨trivial, fun r => ?_⟩
    cases r with
    | error e => exact handReturn_error _ _
    | ok found =>
      cases found with
      | none => exact handReturn_error _ _
      | some account =>
        by_cases valid : verifyPassword account.passwordHash p = true
        · simp only [Option.map_some, valid, if_true, Prog.pure_eq, along_done]
          exact along_authService_login List.mem_cons_self ((verifyPassword_iff ..).mp valid)
        · simp only [valid, Bool.false_eq_true, if_false, Prog.pure_eq, along_done]
          exact handReturn_error _ _
  · exact handReturn_error _ _

theorem along_refresh_hand {presented : Option Token} {deviceId : Option String} {req : Request} :
    Along (handPoint (resumed deviceId)) (handReturn (resumed deviceId)) []
      (AuthService.refresh cfg presented deviceId req) := by
  refine along_catch.mpr ?_
  have refused : ∀ (trace : List Ev) (e : Exn),
      Along (handPoint (resumed deviceId)) (handReturn (resumed deviceId)) trace (do
        call (.clearCookie "refreshToken")
        call (.clearCookie "deviceId")
        throw (.service { code := ErrorCodes.AUTH_REFRESH_TOKEN_INVALID, statusCode := 401
                          message := e.message }) : Action LoginResponse) := by
    intro trace e
    refine along_await_bind trivial handReturn_error fun _ => ?_
    exact along_await_bind trivial handReturn_error fun _ => handReturn_error _ _
  refine along_await_bind trivial refused fun now => ?_
  split
  · refine along_bind.mpr (along_await_bind trivial refused fun now' =>
      along_await_bind trivial refused fun found => ?_)
    cases found with
    | none => exact refused _ _
    | some pair =>
      obtain ⟨session, user⟩ := pair
      dsimp only
      split
      · exact refused _ _
      · refine along_issueTokens_hand ?_ ?_ refused fun _ _ issued => issued
        · rintro trace e userId _ ⟨rfl, w, session, user, device, owner, found⟩
          exact ⟨rfl, w, session, user, device, owner, List.mem_cons_of_mem _ found⟩
        · exact ⟨rfl, _, session, user, rfl, rfl, List.mem_cons_self⟩
  · exact refused _ _
  · exact refused _ _

/-- What a call has handed back. -/
def incomingReturn (cfg : Config) (q : Incoming) (trace : List Ev) (r : Except Exn Reply) : Prop :=
  ∀ response, r = .ok (.tokens response) →
    ∃ deviceId, incomingReady cfg q trace response.id deviceId ∧
      subject? response.accessToken = some response.id

theorem along_incoming (q : Incoming) :
    Along (handPoint (incomingReady cfg q)) (incomingReturn cfg q) [] (q.body cfg) := by
  have handing : ∀ {ready : List Ev → String → Option String → Prop} {p : Action LoginResponse},
      Along (handPoint ready) (handReturn ready) [] p → Along (handPoint ready)
        (fun trace r => ∀ response, r = .ok (.tokens response) → ∃ deviceId,
          ready trace response.id deviceId ∧ subject? response.accessToken = some response.id) []
        (do return Reply.tokens (← p)) := by
    intro ready p along
    refine along_bind.mpr (along.mono (fun _ _ point => point) fun trace r hands => ?_)
    cases r with
    | error e =>
      intro response same
      cases same
    | ok answer =>
      intro response same
      cases same
      exact hands answer rfl
  have quiet : ∀ {α : Type} {p : Action α} {f : α → Reply}, p.Uses Issueless →
      (∀ a, (f a).tokens? = none) → Along (handPoint fun _ _ _ => False)
        (fun _ r => ∀ response, r = .ok (.tokens response) → ∃ deviceId : Option String,
          False ∧ subject? response.accessToken = some response.id) []
        (do return f (← p)) := by
    intro α p f uses other
    refine along_bind.mpr (uses.along.mono ?_ ?_)
    · intro trace c issueless
      cases c with
      | refreshTokenCreate | setCookie => contradiction
      | _ => trivial
    · intro trace r _
      cases r with
      | error e =>
        intro response same
        cases same
      | ok a =>
        intro response same
        have none := other a
        rw [Except.ok.inj same] at none
        contradiction
  have plain : ∀ {α : Type} {p : Action α}, p.Uses Plain → p.Uses Issueless :=
    fun uses => uses.mono fun _ => Plain.issueless
  cases q with
  | login email password req => exact handing along_login_hand
  | other q known =>
    cases q with
    | login => contradiction
    | refresh presented deviceId req => exact handing along_refresh_hand
    | logoutDevice => exact quiet (plain uses_logoutDevice) fun _ => rfl
    | logoutAll => exact quiet (plain uses_logoutAll) fun _ => rfl
    | register => exact quiet (plain uses_register) fun _ => rfl
    | verify => exact quiet uses_verify fun _ => rfl
    | resendCode => exact quiet (plain uses_resendCode) fun _ => rfl
    | forgotPassword => exact quiet (plain uses_forgotPassword) fun _ => rfl
    | forgotPasswordVerify => exact quiet (plain uses_forgotPasswordVerify) fun _ => rfl
    | forgotPasswordReset => exact quiet (plain uses_forgotPasswordReset) fun _ => rfl

end Calls

section Runs

variable {pool : RoutedPool} {cond : RoutedPool → Label Incoming Choice EnvAct → Prop}
  {init : Store → Prop}

/-- A session's account and device. -/
def sessionFacts (s : Store) : Set (String × String) :=
  {f | ∃ row ∈ s.db.refreshTokens, (row.userId, row.deviceId) = f}

/-- The login that lets an account in on a device. -/
def opens (cfg : Config) (q : Incoming) (trace : List Ev) (f : String × String) : Prop :=
  ∃ email password req account active, q = .login (some email) (some password) req ∧
    Admits cfg email password trace account active f.2 ∧ active.id = f.1

theorem sessionFacts_kept {c : Cmd} {choice : Choice} {s s' : Store} {r : Except Exn c.Resp}
    (executed : exec c choice s = some (r, s')) : sessionFacts s ⊆ sessionFacts s' := by
  rintro _ ⟨row, stored, rfl⟩
  obtain ⟨row', stored', continues⟩ := (exec_session executed).onward stored
  exact ⟨row', stored', by rw [continues.userId, continues.deviceId]⟩

/-- A session that a call has found is still there, under the device that was asked for. -/
theorem session_there (reachable : (routedSystem cfg).Reachable cond init pool)
    (found : pool.thread? t = some th) {w : RefreshTokenWhere} {session : RefreshToken}
    {user : User}
    (seen : (⟨.refreshTokenFindFirstWithUser w, .ok (some (session, user))⟩ : Ev) ∈ th.trace) :
    (session.userId, session.deviceId) ∈ sessionFacts pool.store ∧ session.userId = user.id ∧
      ∀ d, w.deviceId = some d → d = session.deviceId := by
  refine reachable.seen (P := fun _ s e => ∀ w session user,
    e = (⟨.refreshTokenFindFirstWithUser w, .ok (some (session, user))⟩ : Ev) →
    (session.userId, session.deviceId) ∈ sessionFacts s ∧ session.userId = user.id ∧
      ∀ d, w.deviceId = some d → d = session.deviceId) found seen ?_ ?_ ?_ w session user rfl
  · rintro pool t choice th c r s _ _ _ executed w session user ⟨⟩
    obtain ⟨stored, matching, owner⟩ := exec_findFirstWithUser executed
    exact ⟨sessionFacts_kept executed ⟨session, stored, rfl⟩, owner,
      fun d given => holds_deviceId matching given⟩
  · intro _ e c choice s r s' executed shown w session user same
    obtain ⟨there, rest⟩ := shown w session user same
    exact ⟨sessionFacts_kept executed there, rest⟩
  · intro _ e a s s' acted shown w session user same
    obtain ⟨there, rest⟩ := shown w session user same
    rw [sessionFacts, (act_tables acted).1]
    exact ⟨there, rest⟩

theorem opens_longer (q : Incoming) (trace : List Ev) (e : Ev) (f : String × String)
    (opened : opens cfg q trace f) : opens cfg q (e :: trace) f := by
  obtain ⟨email, password, req, account, active, request, admits, owner⟩ := opened
  exact ⟨email, password, req, account, active, request,
    admits.later (List.subset_cons_self _ _), owner⟩

theorem opens_of_admitted {email password : Option String} {req : Request} {trace : List Ev}
    {userId deviceId : String} (ready : admitted cfg email password trace userId (some deviceId)) :
    opens cfg (.login email password req) trace (userId, deviceId) := by
  obtain ⟨e, p, account, active, d, rfl, rfl, device, admits, rfl⟩ := ready
  cases Option.some.inj device
  exact ⟨e, p, req, account, active, rfl, admits, rfl⟩

/-- Sessions stay, and a new one is opened by the login that makes it. -/
theorem sessions_attributed (cfg : Config) (init : Store → Prop) :
    (routedSystem cfg).Attributes System.Any init sessionFacts (opens cfg)
      fun _ _ _ => False where
  made_longer := opens_longer
  taken_longer _ _ _ _ taken := taken
  acts a s s' acted := by rw [sessionFacts, (act_tables acted).1, sessionFacts]
  loses pool t choice th c r s _ _ _ _ executed f there := .inl (sessionFacts_kept executed there)
  gains pool t choice th c r s reachable found next _ executed := by
    rintro _ ⟨row, stored, rfl⟩
    obtain ⟨id, back⟩ := (exec_session executed).back
    rcases back row stored with ⟨old, before, continues⟩ | ⟨data, same, owner, device, _⟩
    · exact .inl ⟨old, before, by rw [continues.userId, continues.deviceId]⟩
    cases same
    have ready := reachable.point along_incoming found next
    simp only [handPoint, device, ← owner] at ready
    cases request : th.request with
    | login email password req =>
      rw [request] at ready
      exact .inr (opens_longer _ _ _ _ (opens_of_admitted ready))
    | other q known =>
      rw [request] at ready
      cases q with
      | refresh presented deviceId req =>
        obtain ⟨rfl, w, session, user, asked, same, seen⟩ := ready
        obtain ⟨there, joined, answers⟩ := session_there reachable found seen
        rw [same, ← joined, answers row.deviceId asked]
        exact .inl there
      | _ => exact ready.elim

/-- The token names an account that the login has let in. -/
def letsIn (cfg : Config) (q : Incoming) (trace : List Ev) (token : Token) : Prop :=
  ∃ f, subject? token = some f.1 ∧ opens cfg q trace f

theorem letsIn_longer (q : Incoming) (trace : List Ev) (e : Ev) (token : Token)
    (named : letsIn cfg q trace token) : letsIn cfg q (e :: trace) token := by
  obtain ⟨f, subject, opened⟩ := named
  exact ⟨f, subject, opens_longer _ _ _ _ opened⟩

/-- The command has put the token into a cookie. -/
def setsToken (e : Ev) (token : Token) : Prop :=
  ∃ maxAge, e = ⟨.setCookie (.refreshToken token maxAge), .ok ()⟩

/-- The refresh token of a cookie that the call has set, or the access token of its reply. -/
def HandsOut (th : RoutedThread) (token : Token) : Prop :=
  (∃ e ∈ th.trace, setsToken e token) ∨
    ∃ response, th.result? = some (.ok (.tokens response)) ∧ response.accessToken = token

section Started

variable (reachable : (routedSystem cfg).Reachable System.Any NoSessions pool)
include reachable

theorem sessionFacts_opened : sessionFacts pool.store ⊆ pool.byCalls (opens cfg) := by
  refine fun fact there => (sessions_attributed cfg NoSessions).made_of_absent ?_ reachable there
  rintro s empty ⟨row, stored, _⟩
  rw [← Table.mem_rows, empty] at stored
  exact absurd stored List.not_mem_nil

/-- Where a call is ready to hand out a token, a login has let its account in. -/
theorem letIn_of_ready {userId : String} {deviceId : Option String} {token : Token}
    (found : pool.thread? t = some th)
    (ready : incomingReady cfg th.request th.trace userId deviceId)
    (subject : subject? token = some userId) : token ∈ pool.byCalls (letsIn cfg) := by
  cases request : th.request with
  | login email password req =>
    rw [request] at ready
    obtain ⟨d, rfl⟩ : ∃ d, deviceId = some d := by
      obtain ⟨_, _, _, _, d, _, _, device, _⟩ := ready
      exact ⟨d, device⟩
    refine ⟨th, Pool.thread?_mem found, (userId, d), subject, ?_⟩
    rw [request]
    exact opens_of_admitted ready
  | other q known =>
    rw [request] at ready
    cases q with
    | refresh presented deviceId req =>
      obtain ⟨rfl, w, session, user, asked, same, seen⟩ := ready
      obtain ⟨there, joined, _⟩ := session_there reachable found seen
      obtain ⟨opener, member, opened⟩ := sessionFacts_opened reachable there
      exact ⟨opener, member, _, subject.trans (congrArg some (same.trans joined.symm)), opened⟩
    | _ => exact ready.elim

theorem handed_letIn (found : pool.thread? t = some th) {token : Token}
    (hands : HandsOut th token) : token ∈ pool.byCalls (letsIn cfg) := by
  rcases hands with ⟨e, executed, sets⟩ | ⟨response, ended, rfl⟩
  · have accounted : token ∈ System.Accounted ∅ (letsIn cfg) pool := by
      refine reachable.accounted_since letsIn_longer ?_ (Pool.thread?_mem found) executed sets
      rintro pool t choice th c r s token before found next _ ⟨maxAge, ⟨⟩⟩
      obtain ⟨userId, deviceId, ready, subject⟩ := before.point along_incoming found next
      exact .inr (letIn_of_ready before found ready subject)
    rwa [System.Accounted, Set.empty_union] at accounted
  · obtain ⟨deviceId, ready, subject⟩ :=
      reachable.returned along_incoming found ended response rfl
    exact letIn_of_ready reachable found ready subject

end Started

section Recorded

variable {journal : AuthJournal} {userId deviceId : String}
  {within : AuthJournal → RoutedPool → Option (Entry Api Exn Store) → RoutedPool → Prop}

def drawsDevice : Ev → Option String
  | ⟨.randomUUID, .ok d⟩ => some d
  | _ => none

theorem devices_fresh (cfg : Config) :
    (routedSystem cfg).Fresh drawsDevice fun d s => d ∈ s.drawn where
  drawn c choice s r s' d executed drew := by
    cases c with
    | randomUUID =>
      cases r with
      | error e => contradiction
      | ok d' =>
        cases Option.some.inj drew
        exact ⟨(exec_randomUUID executed).1, (exec_randomUUID executed).2.1⟩
    | _ => contradiction
  kept c choice s r s' d executed := exec_drawn executed
  acts a s s' d acted drawn := by rwa [(act_tables acted).2]

/-- The call is the login that let the account in on the device: when it looked, the account had
the address and the password it was asked with, the account was active, and it drew the device. -/
structure OpenedBy (cfg : Config) (journal : AuthJournal) (pool : RoutedPool)
    (userId deviceId : String) (t : Nat) : Prop where
  asked : ∃ th email password req, pool.thread? t = some th ∧
    th.request = .login (some email) (some password) req ∧
    ∃ search ∈ journal, ∃ user ∈ search.before.db.users, search.call = t ∧ user.id = userId ∧
      user.email = normalizeEmail cfg email ∧ user.passwordHash.plain = password
  active : ∃ check ∈ journal, ∃ user ∈ check.before.db.users, check.call = t ∧ user.id = userId ∧
    user.isActive = true
  drew : ∃ draw ∈ journal, draw.call = t ∧ draw.event = ⟨.randomUUID, .ok deviceId⟩

/-- An account is still there, whenever it was read. -/
theorem account_since (recorded : (routedSystem cfg).Recorded within init journal pool)
    {entry : Entry Api Exn Store} (member : entry ∈ journal) {user : User}
    (stored : user ∈ entry.before.db.users) : Remains pool.store user := by
  obtain ⟨choice, executed⟩ := recorded.executed member
  have since := recorded.since (R := fun s s' => ∀ user, Remains s user → Remains s' user)
    (fun _ _ remains => remains) (fun _ _ _ first second user remains => second _ (first _ remains))
    (fun _ _ _ _ _ ran _ remains => remains.trans fun _ => exec_users ran)
    (fun _ _ _ acted _ remains => remains.trans fun _ => act_users acted) member
  exact since user (exec_users executed stored)

theorem Remains.unique {s : Store} {user other : User} (first : Remains s user)
    (second : Remains s other) (same : user.email = other.email) : user.id = other.id := by
  obtain ⟨now, stored, id, email⟩ := first
  obtain ⟨now', stored', id', email'⟩ := second
  cases List.inj_on_of_nodup_map s.db.emails stored stored' (email.trans (same.trans email'.symm))
  exact id.symm.trans id'

theorem openedBy_of_opens (recorded : (routedSystem cfg).Recorded within init journal pool)
    (found : pool.thread? t = some th)
    (opened : opens cfg th.request th.trace (userId, deviceId)) :
    OpenedBy cfg journal pool userId deviceId t := by
  obtain ⟨email, password, req, account, user, request, admits, rfl⟩ := opened
  obtain ⟨⟨_, _, before, after⟩, searched, rfl, rfl⟩ :=
    (recorded.mem_trace found).mp admits.identified
  obtain ⟨⟨_, _, before', after'⟩, checked, rfl, rfl⟩ := (recorded.mem_trace found).mp admits.active
  obtain ⟨_, search⟩ := recorded.executed searched
  obtain ⟨_, check⟩ := recorded.executed checked
  obtain ⟨stored, matching⟩ := exec_userFindFirst search
  obtain ⟨stored', matching'⟩ := exec_userFindFirst check
  simp only [UserWhere.holds, Option.all_none, Option.all_some, Bool.true_and, Bool.and_true,
    Bool.and_eq_true, beq_iff_eq] at matching matching'
  have same : account.id = user.id :=
    (account_since recorded searched stored).unique (account_since recorded checked stored')
      matching'.1
  exact {
    asked := ⟨th, email, password, req, found, request, _, searched, account, stored, rfl, same,
      matching.symm, admits.password⟩
    active := ⟨_, checked, user, stored', rfl, rfl, matching'.2.symm⟩
    drew := (recorded.mem_trace found).mp admits.drew }

theorem OpenedBy.unique (recorded : (routedSystem cfg).Recorded within init journal pool)
    {userId' : String} (opened : OpenedBy cfg journal pool userId deviceId t)
    (other : OpenedBy cfg journal pool userId' deviceId u) : u = t := by
  obtain ⟨th, _, _, _, found, _⟩ := opened.asked
  obtain ⟨uth, _, _, _, found', _⟩ := other.asked
  exact (devices_fresh cfg).once recorded.reachable found
    ((recorded.mem_trace found).mpr opened.drew) rfl found'
    ((recorded.mem_trace found').mpr other.drew) rfl

theorem openedBy_of_byCalls (recorded : (routedSystem cfg).Recorded within init journal pool)
    (opened : (userId, deviceId) ∈ pool.byCalls (opens cfg)) :
    ∃! t, OpenedBy cfg journal pool userId deviceId t := by
  obtain ⟨th, member, opened⟩ := opened
  obtain ⟨t, found⟩ := Pool.mem_threads.mp member
  have opener := openedBy_of_opens recorded found opened
  exact ⟨t, opener, fun u other => opener.unique recorded other⟩

/-- Nothing but a login lets an account in: every session there is, and every token that was handed
out, goes back to one login with the password that the account had. -/
theorem tokens_authenticated
    (recorded : (routedSystem cfg).Recorded System.Free NoSessions journal pool) :
    (∀ row ∈ pool.store.db.refreshTokens,
      ∃! t, OpenedBy cfg journal pool row.userId row.deviceId t) ∧
    ∀ u th token, pool.thread? u = some th → HandsOut th token →
      ∃ userId deviceId, subject? token = some userId ∧
        ∃! t, OpenedBy cfg journal pool userId deviceId t := by
  constructor
  · intro row stored
    exact openedBy_of_byCalls recorded
      (sessionFacts_opened recorded.reachable ⟨row, stored, rfl⟩)
  · intro u th token found hands
    obtain ⟨opener, member, ⟨userId, deviceId⟩, subject, opened⟩ :=
      handed_letIn recorded.reachable found hands
    exact ⟨userId, deviceId, subject, openedBy_of_byCalls recorded ⟨opener, member, opened⟩⟩

/-- A login with a wrong password, one with the right password, and a refresh. -/
def admittedSteps : List (Label Incoming Choice EnvAct) :=
  .spawn (.login (some "alice@mail.com") (some "secret123") {}) ::
    .spawn (.login (some " ALICE@mail.com") (some "Secret123") {}) ::
    .spawn (.other (.refresh (some firstToken) (some laptopId) {}) rfl) ::
    .run 0 ({} : Choice) :: ["", laptopId, "", "", "", argonSalt1, "", sessionId1, "", "", ""].map
      (fun draw => .run 1 ({ draw } : Choice)) ++
    List.replicate 11 (.run 2 ({} : Choice))

def refreshedAt (pool : RoutedPool) (u : Nat) : Option Token :=
  match pool.thread? u with
  | some ⟨_, _, .done (.ok (.tokens response))⟩ => some response.accessToken
  | _ => none

theorem tokens_authenticated_admitted : ∃ journal pool,
    (routedSystem Config.default).Recorded System.Free NoSessions journal pool ∧
    pool.threads.length = 3 ∧
    (∃ row ∈ pool.store.db.refreshTokens,
      ∃! t, OpenedBy Config.default journal pool row.userId row.deviceId t) ∧
    ∃ th token userId deviceId, pool.thread? 2 = some th ∧ HandsOut th token ∧
      subject? token = some userId ∧
      ∃! t, OpenedBy Config.default journal pool userId deviceId t := by
  have replayed : (((routedSystem Config.default).record System.Free []
      (System.idle loginStore) admittedSteps).any fun sample =>
      (sample.2.threads.length = 3 && sample.2.store.db.refreshTokens.rows.any fun _ => true) &&
        (refreshedAt sample.2 2).isSome) = true := by decide +kernel
  have empty : NoSessions loginStore := rfl
  obtain ⟨journal, pool, recorded, tested⟩ := System.recorded_of_test empty replayed
  simp only [Bool.and_eq_true, decide_eq_true_eq, List.any_eq_true, and_true] at tested
  obtain ⟨⟨calls, row, stored⟩, refreshed⟩ := tested
  obtain ⟨sessions, tokens⟩ := tokens_authenticated recorded
  refine ⟨journal, pool, recorded, calls, ⟨row, stored, sessions row stored⟩, ?_⟩
  unfold refreshedAt at refreshed
  split at refreshed
  · rename_i request trace response found
    have hands : HandsOut ⟨request, trace, .done (.ok (.tokens response))⟩ response.accessToken :=
      .inr ⟨response, rfl, rfl⟩
    obtain ⟨userId, deviceId, subject, opener⟩ := tokens 2 _ _ found hands
    exact ⟨_, _, userId, deviceId, found, hands, subject, opener⟩
  · contradiction

end Recorded

end Runs

end CorePlatform.Auth
