import CorePlatform.Auth.System

/-! Where the bodies of the auth calls read and write sessions: what a call has already
seen when it re-reads its session, stores a token or revokes. -/
namespace CorePlatform.Auth
open Async

variable {cfg : Config}

/-- Nothing stored yet. -/
def Unstored (trace : List Ev) : Prop := ∀ e ∈ trace, stored? e = none

theorem Unstored.cons {trace : List Ev} {e : Ev} (unstored : Unstored trace)
    (nothing : stored? e = none) :
    Unstored (e :: trace) := by
  intro e' found
  rcases List.mem_cons.mp found with rfl | inTrace
  · exact nothing
  · exact unstored e' inTrace

/-- A call that returns has stored a token. -/
def StoresOnReturn {α : Type} (trace : List Ev) (r : Except Exn α) : Prop :=
  ∀ a, r = .ok a → ∃ e ∈ trace, (stored? e).isSome

theorem storesOnReturn_error {α : Type} (trace : List Ev) (e : Exn) :
    StoresOnReturn trace (.error e : Except Exn α) := fun _ impossible => nomatch impossible

/-- The live sessions that `saveRefreshToken` looks for. -/
def savedSession (userId : String) (deviceId : Option String) : RefreshTokenWhere :=
  { userId := some userId, deviceId, live := true }

theorem along_call {c : Cmd} {P : List Ev → Cmd → Prop} {R : List Ev → Except Exn c.Resp → Prop}
    {trace : List Ev} :
    @Along Api Exn (no_index _) P R trace (call c) ↔ P trace c ∧ ∀ r, R (⟨c, r⟩ :: trace) r :=
  Iff.rfl

/-- Where a call may stand that saves a session: `ready` says for whom, from what the call
has seen. A store comes right after the re-read, and at most once. -/
def savePoint (ready : List Ev → String → Option String → Prop) (old : Option Token)
    (trace : List Ev) : Cmd → Prop
  | .refreshTokenFindFirst w =>
      ∃ userId deviceId, ready trace userId deviceId ∧ w = savedSession userId deviceId
  | .refreshTokenUpdate id new _ => ∃ userId deviceId existing, ready trace userId deviceId ∧
      trace.head? = some ⟨.refreshTokenFindFirst (savedSession userId deviceId),
        .ok (some existing)⟩ ∧
      (∀ token, old = some token → existing.tokenHash.plain = token) ∧ id = existing.id ∧
      (Jwt.decode new.plain).isSome ∧ Unstored trace
  | .refreshTokenCreate data => ∃ userId deviceId, ready trace userId deviceId ∧
      trace.head? = some ⟨.refreshTokenFindFirst (savedSession userId deviceId), .ok none⟩ ∧
      data.userId = userId ∧ data.deviceId = deviceId ∧
      (Jwt.decode data.tokenHash.plain).isSome ∧ Unstored trace
  | .refreshTokenRevokeMany .. => False
  | _ => True

section Save

variable {ready : List Ev → String → Option String → Prop} {old : Option Token} {trace : List Ev}
  {deviceId : Option String} {dataDevice : DeviceData}

theorem along_saveRefreshToken {R : List Ev → Except Exn Unit → Prop}
    {userId : String} {new : Token}
    (stays : ∀ trace e userId deviceId, ready trace userId deviceId →
      ready (e :: trace) userId deviceId)
    (start : ready trace userId deviceId) (unstored : Unstored trace)
    (signed : (Jwt.decode new).isSome) (rejected : ∀ trace e, R trace (.error e))
    (saved : ∀ trace, (∃ e ∈ trace, (stored? e).isSome) → R trace (.ok ())) :
    Along (savePoint ready old) R trace
      (UsersService.saveRefreshToken cfg userId new dataDevice deviceId old) := by
  refine along_await_bind trivial rejected fun now => ?_
  refine along_bind.mpr (along_await_bind trivial rejected fun salt => ?_)
  refine along_await_bind ⟨userId, deviceId, stays _ _ _ _ (stays _ _ _ _ start),
    rfl⟩ rejected fun found => ?_
  have ready' :=
    stays _ (⟨.refreshTokenFindFirst (savedSession userId deviceId), .ok found⟩ : Ev) _ _
    (stays _ (⟨.argon2Salt, .ok salt⟩ : Ev) _ _ (stays _ (⟨.now, .ok now⟩ : Ev) _ _ start))
  have unstored' : Unstored _ := ((unstored.cons (e := (⟨.now, .ok now⟩ : Ev)) rfl).cons
    (e := (⟨.argon2Salt, .ok salt⟩ : Ev)) rfl).cons
    (e := (⟨.refreshTokenFindFirst (savedSession userId deviceId), .ok found⟩ : Ev)) rfl
  cases found with
  | none =>
    refine ⟨⟨userId, deviceId, ready', rfl, rfl, rfl, signed, unstored'⟩, fun r => ?_⟩
    cases r with
    | error e => exact rejected _ e
    | ok _ => exact saved _ ⟨_, List.mem_cons_self, rfl⟩
  | some existing =>
    by_cases mismatch : (old.any fun old => !verifyPassword existing.tokenHash old) = true
    · simp only [mismatch, if_true, Prog.throw_eq, Prog.bind_error, along_done]
      exact rejected _ _
    · simp only [mismatch]
      have presented : ∀ token, old = some token → existing.tokenHash.plain = token := by
        rintro token rfl
        simpa using mismatch
      refine ⟨⟨userId, deviceId, existing, ready', rfl, presented, rfl, signed,
        unstored'⟩, fun r => ?_⟩
      cases r with
      | error e => exact rejected _ e
      | ok _ => exact saved _ ⟨_, List.mem_cons_self, rfl⟩

theorem along_issueTokens {R : List Ev → Except Exn LoginResponse → Prop} {user : User}
    (stays : ∀ trace e userId deviceId, ready trace userId deviceId →
      ready (e :: trace) userId deviceId)
    (start : ready trace user.id deviceId) (unstored : Unstored trace)
    (rejected : ∀ trace e, R trace (.error e))
    (issued : ∀ trace r, (∃ e ∈ trace, (stored? e).isSome) → R trace (.ok r)) :
    Along (savePoint ready old) R trace
      (AuthService.issueTokens cfg user dataDevice deviceId old) := by
  have later : ∀ {trace : List Ev} (e : Ev), (∃ e ∈ trace, (stored? e).isSome) →
      ∃ e' ∈ e :: trace, (stored? e').isSome :=
    fun e ⟨e', found, stored⟩ => ⟨e', List.mem_cons_of_mem e found, stored⟩
  refine along_await_bind trivial rejected fun signed => ?_
  have unstored' : Unstored ((⟨.now, .ok signed⟩ : Ev) :: trace) := unstored.cons rfl
  refine along_bind.mpr (along_saveRefreshToken stays
    (stays _ _ _ _ start) unstored' rfl rejected ?_)
  intro trace saved
  refine along_await_bind trivial rejected fun now => ?_
  refine along_await_bind trivial rejected fun _ => ?_
  refine along_await_bind trivial rejected fun _ => ?_
  exact issued _ _ (later _ (later _ (later _ saved)))

end Save

section Refresh

/-- A refresh of `token` has found a live session that holds it. -/
structure Checked (token : Token) (deviceId : Option String) (trace : List Ev)
    (session : RefreshToken) (user : User) : Prop where
  found : ∃ w : RefreshTokenWhere, w.deviceId = deviceId ∧ w.live = true ∧
    (⟨.refreshTokenFindFirstWithUser w, .ok (some (session, user))⟩ : Ev) ∈ trace
  verified : session.tokenHash.plain = token

/-- For whom a refresh that presents a token saves its session. -/
def refreshReady (presented : Option Token) (device : Option String)
    (trace : List Ev) (userId : String) (deviceId : Option String) : Prop :=
  deviceId = device ∧ ∃ token session user, presented = some token ∧
    Checked token device trace session user ∧ userId = user.id

theorem refreshReady_stays {presented : Option Token} {device : Option String}
    (trace : List Ev) (e : Ev) (userId : String) (deviceId : Option String)
    (ready : refreshReady presented device trace userId deviceId) :
    refreshReady presented device (e :: trace) userId deviceId := by
  obtain ⟨same, token, session, user, given, ⟨⟨w, dev, live, found⟩, verified⟩, owner⟩ := ready
  exact ⟨same, token, session, user, given,
    ⟨⟨w, dev, live, List.mem_cons_of_mem e found⟩, verified⟩, owner⟩

theorem along_refresh {presented : Option Token} {deviceId : Option String} {req : Request} :
    Along (savePoint (refreshReady presented deviceId) presented) StoresOnReturn []
      (AuthService.refresh cfg presented deviceId req) := by
  refine along_catch.mpr ?_
  have refused : ∀ (trace : List Ev) (e : Exn),
      Along (savePoint (refreshReady presented deviceId) presented) StoresOnReturn trace (do
        call (.clearCookie "refreshToken")
        call (.clearCookie "deviceId")
        throw (.service { code := ErrorCodes.AUTH_REFRESH_TOKEN_INVALID, statusCode := 401
                          message := e.message }) : Action LoginResponse) := by
    intro trace e
    refine along_await_bind trivial storesOnReturn_error fun _ => ?_
    exact along_await_bind trivial storesOnReturn_error fun _ => storesOnReturn_error _ _
  refine along_await_bind trivial refused fun now => ?_
  split
  · rename_i token decoded verified
    refine along_bind.mpr (along_await_bind trivial refused fun now' =>
      along_await_bind trivial refused fun found => ?_)
    cases found with
    | none => exact refused _ _
    | some pair =>
      obtain ⟨session, user⟩ := pair
      cases valid : verifyPassword session.tokenHash token with
      | true =>
        simp only [valid, Bool.not_true, Bool.false_eq_true, if_false, Prog.pure_eq, along_done]
        have holds := (verifyPassword_iff ..).mp valid
        refine along_issueTokens refreshReady_stays ⟨rfl, token, session, user, rfl,
          ⟨⟨_, rfl, rfl, List.mem_cons_self⟩, holds⟩, rfl⟩ ?_ refused ?_
        · intro e found
          simp only [List.mem_cons, List.not_mem_nil, or_false] at found
          rcases found with rfl | rfl | rfl <;> rfl
        · exact fun trace response stored _ _ => stored
      | false =>
        simp only [valid, Bool.not_false, if_true, Prog.throw_eq, Prog.bind_error, along_done]
        exact refused _ _
  · exact refused _ _
  · exact refused _ _

end Refresh

section Login

/-- For whom a login saves its session: the active account of the email, under the device
identifier the call has drawn. -/
def loginReady (email : String) (trace : List Ev) (userId : String)
    (deviceId : Option String) : Prop :=
  ∃ d user, deviceId = some d ∧ (⟨.randomUUID, .ok d⟩ : Ev) ∈ trace ∧
    (⟨.userFindFirst { email := some email, isActive := some true },
      .ok (some user)⟩ : Ev) ∈ trace ∧ userId = user.id

theorem loginReady_stays {email : String} (trace : List Ev) (e : Ev) (userId : String)
    (deviceId : Option String) (ready : loginReady email trace userId deviceId) :
    loginReady email (e :: trace) userId deviceId := by
  obtain ⟨d, user, device, drew, active, owner⟩ := ready
  exact ⟨d, user, device, List.mem_cons_of_mem e drew, List.mem_cons_of_mem e active, owner⟩

theorem along_login {userReq : User} {req : Request} :
    Along (savePoint (loginReady userReq.email) none) StoresOnReturn []
      (AuthService.login cfg userReq req) := by
  refine along_catch.mpr ?_
  have refused : ∀ (trace : List Ev) (e : Exn),
      Along (savePoint (loginReady userReq.email) none) StoresOnReturn trace
        (if e.isService then throw e else throw (invalidCredentials e.message) : Action
          LoginResponse) := by
    intro trace e
    split <;> exact storesOnReturn_error _ _
  refine along_await_bind trivial refused fun d => ?_
  refine along_bind.mpr (along_await_bind trivial refused fun found => ?_)
  cases found with
  | none => exact refused _ _
  | some user =>
    refine along_issueTokens loginReady_stays
      ⟨d, user, rfl, List.mem_cons_of_mem _ List.mem_cons_self,
        List.mem_cons_self, rfl⟩ ?_ refused ?_
    · intro e found
      simp only [List.mem_cons, List.not_mem_nil, or_false] at found
      rcases found with rfl | rfl <;> rfl
    · exact fun trace response stored _ _ => stored

end Login

section Logout

/-- A `logoutDevice` revokes the session its own search has found. -/
def logoutPoint (deviceId userId : Option String) (trace : List Ev) : Cmd → Prop
  | .refreshTokenRevokeMany w _ => ∃ session : RefreshToken,
      (⟨.refreshTokenFindFirst { userId, deviceId, live := true }, .ok (some session)⟩ : Ev) ∈
        trace ∧ w = { id := some session.id }
  | .refreshTokenUpdate .. | .refreshTokenCreate _ => False
  | _ => True

theorem along_logoutDevice {deviceId : Option String} {user : Js} {token : Option Token} :
    Along (logoutPoint deviceId (user.get "id").string?) (fun _ _ => True) []
      (AuthService.logoutDevice deviceId user token) := by
  have done : ∀ (userId : Option String) (trace : List Ev), Along (logoutPoint deviceId userId)
      (fun _ _ => True) trace (do
        call (.clearCookie "refreshToken")
        call (.clearCookie "deviceId")
        return "logout success") := by
    intro userId trace
    exact along_await_bind trivial (fun _ _ => trivial) fun _ =>
      along_await_bind trivial (fun _ _ => trivial) fun _ => trivial
  have search : ∀ userId, Along (logoutPoint deviceId userId) (fun _ _ => True) [] (do
      let _ ← UsersService.logoutDevice deviceId userId token
      call (.clearCookie "refreshToken")
      call (.clearCookie "deviceId")
      return "logout success") := by
    intro userId
    refine along_bind.mpr (along_await_bind trivial (fun _ _ => trivial) fun found => ?_)
    cases found with
    | none => exact done userId _
    | some session =>
      cases token with
      | none => trivial
      | some presented =>
        cases valid : verifyPassword session.tokenHash presented with
        | false =>
          simp only [verifyHash, valid, Prog.pure_eq, Prog.bind_ok,
            Bool.not_false, if_true, along_done]
          exact done userId _
        | true =>
          simp only [verifyHash, valid, Prog.pure_eq, Prog.bind_ok, Bool.not_true,
            Bool.false_eq_true, if_false]
          refine along_await_bind trivial (fun _ _ => trivial) fun now => ?_
          refine along_call.mpr ⟨⟨session, List.mem_cons_of_mem _ List.mem_cons_self, rfl⟩,
            fun r => ?_⟩
          cases r with
          | error e => trivial
          | ok n => exact done userId _
  simp only [AuthService.logoutDevice, filterValue]
  split
  · rename_i absent
    simpa only [absent, Js.string?, Prog.pure_eq, Prog.bind_ok] using search none
  · rename_i userId given
    simpa only [given, Js.string?, Prog.pure_eq, Prog.bind_ok] using search (some userId)
  · trivial

end Logout

section Others

/-- The command stores no token. -/
abbrev Storeless (c : Cmd) : Prop := c.storing? = none

/-- The commands of `issueTokens`. -/
def Cmd.issues : Cmd → Bool
  | .refreshTokenUpdate .. | .refreshTokenCreate _ | .setCookie _ => true
  | _ => false

/-- The command neither stores a token nor hands one out. -/
abbrev Issueless (c : Cmd) : Prop := c.issues = false

theorem storeless_of_issueless {c : Cmd} (issueless : Issueless c) : Storeless c := by
  cases c with
  | refreshTokenUpdate | refreshTokenCreate => contradiction
  | _ => rfl

/-- The command makes an account active. -/
def Cmd.activates : Cmd → Bool
  | .userActivate _ | .userCreate _ _ _ _ true => true
  | _ => false

/-- The command neither issues anything nor makes an account active. -/
abbrev Plain (c : Cmd) : Prop := (c.issues || c.activates) = false

theorem Plain.issueless {c : Cmd} (plain : Plain c) : Issueless c :=
  (Bool.or_eq_false_iff.mp plain).1

theorem Plain.inactive {c : Cmd} (plain : Plain c) : c.activates = false :=
  (Bool.or_eq_false_iff.mp plain).2

/-- The commands of a login or a refresh. -/
inductive Issuing (cfg : Config) : Cmd → Prop where
  | plain {c : Cmd} (plain : Plain c) : Issuing cfg c
  | update (id : String) (tokenHash : Argon2Hash Token) (expiresAt : Nat) :
      Issuing cfg (.refreshTokenUpdate id tokenHash expiresAt)
  | create (data : RefreshTokenData) : Issuing cfg (.refreshTokenCreate data)
  | token (user : User) (issuedAt : Nat) (maxAge : Int) :
      Issuing cfg (.setCookie (.refreshToken (AuthService.refreshTokenOf cfg user issuedAt) maxAge))
  | device (deviceId : Option String) : Issuing cfg (.setCookie (.deviceId deviceId))

theorem Issuing.inactive {c : Cmd} (issuing : Issuing cfg c) : c.activates = false := by
  cases issuing with
  | plain plain => exact plain.inactive
  | _ => rfl

theorem uses_step {α : Type} {c : Cmd} {f : c.Resp → Action α}
    {allowed : Cmd → Prop} (this : allowed c)
    (next : ∀ a, (f a).Uses allowed) : (call c >>= f).Uses allowed :=
  Prog.Uses.bind ⟨this, fun _ => trivial⟩ next

theorem uses_randomCode : randomCode.Uses Plain := uses_step rfl fun _ => trivial

theorem uses_hashPassword {α : Type} {password : α} : (hashPassword password).Uses Plain :=
  uses_step rfl fun _ => trivial

theorem uses_verifyHash {hash : Argon2Hash String} {password : Option String} :
    (verifyHash hash password).Uses Plain := by
  unfold verifyHash
  split <;> trivial

theorem uses_encryptText {plainText : String} : (encryptText cfg plainText).Uses Plain := by
  refine Prog.Uses.bind ?_ fun _ => uses_step rfl fun _ => uses_step rfl fun _ => trivial
  unfold getEncryptKey
  split <;> trivial

theorem uses_createOrUpdateEmailOtp {userId codeHash : String} :
    (UsersService.createOrUpdateEmailOtp userId codeHash).Uses Plain :=
  uses_step rfl fun _ => ⟨rfl, fun _ => trivial⟩

theorem uses_parseEvent {userId email : String} :
    (AuthService.parseEvent cfg userId email).Uses Plain := by
  unfold AuthService.parseEvent
  split <;> trivial

theorem uses_register {dto : CreateUserDto} {requestId : Option String} :
    (AuthService.register cfg dto requestId).Uses Plain := by
  refine Prog.Uses.bind (uses_step rfl fun existing => ?_) fun user => ?_
  · split
    · trivial
    · refine Prog.Uses.bind uses_hashPassword fun passwordHash =>
        Prog.Uses.bind uses_randomCode fun code => ?_
      refine Prog.Uses.bind uses_hashPassword fun hash =>
        Prog.Uses.bind uses_encryptText fun code => ?_
      exact uses_step rfl fun user => Prog.Uses.bind uses_createOrUpdateEmailOtp fun _ => trivial
  · exact Prog.Uses.bind uses_parseEvent fun _ => uses_step rfl fun _ => trivial

theorem uses_verify {email code : String} : (AuthService.verify cfg email code).Uses Issueless := by
  refine Prog.Uses.catch (uses_step rfl fun user => ?_) fun _ => trivial
  cases user with
  | none => trivial
  | some user =>
    refine uses_step rfl fun now => uses_step rfl fun otp => ?_
    cases otp with
    | none => trivial
    | some otp => exact uses_step rfl fun _ => uses_step rfl fun _ => trivial

theorem uses_resendCode {email : Option String} :
    (AuthService.resendCode cfg email).Uses Plain := by
  refine Prog.Uses.catch (uses_step rfl fun user => ?_) fun _ => trivial
  cases user with
  | none => trivial
  | some user =>
    dsimp only
    split
    · trivial
    · refine Prog.Uses.bind uses_randomCode fun code =>
        Prog.Uses.bind uses_hashPassword fun hash => ?_
      refine Prog.Uses.bind uses_encryptText fun code =>
        Prog.Uses.bind uses_createOrUpdateEmailOtp fun _ => ?_
      exact Prog.Uses.bind uses_parseEvent fun _ => uses_step rfl fun _ => trivial

theorem uses_forgotPassword {email : Option String} :
    (AuthService.forgotPassword cfg email).Uses Plain := by
  refine Prog.Uses.catch (uses_step rfl fun user => ?_) fun _ => trivial
  cases user with
  | none => trivial
  | some user =>
    refine Prog.Uses.bind (Prog.Uses.bind uses_randomCode fun token => ?_) fun reset =>
      Prog.Uses.bind uses_parseEvent fun _ => uses_step rfl fun _ => trivial
    refine Prog.Uses.bind uses_hashPassword fun hash =>
      Prog.Uses.bind uses_encryptText fun encrypted => ?_
    exact uses_step rfl fun _ => uses_step rfl fun _ => uses_step rfl fun _ => trivial

theorem uses_rethrow {α : Type} {other : Exn → Exn} (error : Exn) :
    (if error.isService then throw error else throw (other error) : Action α).Uses Plain := by
  split <;> trivial

theorem uses_forgotPasswordVerify {email code : Option String} :
    (AuthService.forgotPasswordVerify email code).Uses Plain := by
  refine Prog.Uses.catch (uses_step rfl fun user => ?_) uses_rethrow
  cases user with
  | none => trivial
  | some user =>
    refine Prog.Uses.bind (uses_step rfl fun now => uses_step rfl fun row => ?_) fun _ => trivial
    cases row with
    | none => trivial
    | some row =>
      refine Prog.Uses.bind uses_verifyHash fun valid => ?_
      split
      · trivial
      · exact uses_step rfl fun _ => trivial

theorem uses_logoutAllDevices {userId : Option String} :
    (UsersService.logoutAllDevices userId).Uses Plain :=
  uses_step rfl fun _ => ⟨rfl, fun _ => trivial⟩

theorem uses_logoutAll {user : Js} : (AuthService.logoutAll user).Uses Plain := by
  refine Prog.Uses.bind ?_ fun userId => Prog.Uses.bind uses_logoutAllDevices fun _ =>
    uses_step rfl fun _ => uses_step rfl fun _ => trivial
  unfold filterValue
  split <;> trivial

theorem uses_forgotPasswordReset {email code password : Option String} :
    (AuthService.forgotPasswordReset email code password).Uses Plain := by
  refine Prog.Uses.catch (uses_step rfl fun user => ?_) uses_rethrow
  cases user with
  | none => trivial
  | some user =>
    refine Prog.Uses.bind (uses_step rfl fun row => ?_) fun _ =>
      Prog.Uses.bind uses_logoutAllDevices fun _ => trivial
    cases row with
    | none => trivial
    | some row =>
      refine Prog.Uses.bind uses_verifyHash fun valid => ?_
      cases valid with
      | false => trivial
      | true =>
        cases password with
        | none => trivial
        | some password =>
          refine Prog.Uses.bind uses_hashPassword fun hash => ?_
          exact uses_step rfl fun _ => uses_step rfl fun _ => trivial

theorem uses_logoutDevice {deviceId : Option String} {user : Js} {token : Option Token} :
    (AuthService.logoutDevice deviceId user token).Uses Plain := by
  refine Prog.Uses.bind ?_ fun userId => Prog.Uses.bind (uses_step rfl fun session => ?_) fun _ =>
    uses_step rfl fun _ => uses_step rfl fun _ => trivial
  · unfold filterValue
    split <;> trivial
  · cases session with
    | none => trivial
    | some session =>
      cases token with
      | none => trivial
      | some presented =>
        simp only [verifyHash, Prog.pure_eq, Prog.bind_ok]
        split
        · trivial
        · exact uses_step rfl fun _ => ⟨rfl, fun _ => trivial⟩

theorem uses_saveRefreshToken {id : String} {new : Token} {dataDevice : DeviceData}
    {deviceId : Option String} {old : Option Token} :
    (UsersService.saveRefreshToken cfg id new dataDevice deviceId old).Uses (Issuing cfg) := by
  refine uses_step (.plain rfl) fun now =>
    Prog.Uses.bind (uses_step (.plain rfl) fun _ => trivial) fun hash => ?_
  refine uses_step (.plain rfl) fun found => ?_
  cases found with
  | none => exact ⟨.create _, fun _ => trivial⟩
  | some existing =>
    dsimp only
    split
    · trivial
    · exact ⟨.update _ _ _, fun _ => trivial⟩

theorem uses_issueTokens {user : User} {dataDevice : DeviceData} {deviceId : Option String}
    {old : Option Token} :
    (AuthService.issueTokens cfg user dataDevice deviceId old).Uses (Issuing cfg) := by
  refine uses_step (.plain rfl) fun issuedAt => Prog.Uses.bind uses_saveRefreshToken fun _ => ?_
  refine uses_step (.plain rfl) fun now => uses_step (.token user issuedAt _) fun _ => ?_
  exact uses_step (.device deviceId) fun _ => trivial

theorem uses_login {userReq : User} {req : Request} :
    (AuthService.login cfg userReq req).Uses (Issuing cfg) := by
  refine Prog.Uses.catch (uses_step (.plain rfl) fun d =>
    Prog.Uses.bind (uses_step (.plain rfl) fun found => ?_)
    fun user => uses_issueTokens) fun error => ?_
  · cases found <;> trivial
  · split <;> trivial

theorem uses_refresh {presented : Option Token} {deviceId : Option String} {req : Request} :
    (AuthService.refresh cfg presented deviceId req).Uses (Issuing cfg) := by
  refine Prog.Uses.catch (uses_step (.plain rfl) fun now => ?_) fun error =>
    uses_step (.plain rfl) fun _ => uses_step (.plain rfl) fun _ => trivial
  split
  · refine Prog.Uses.bind (uses_step (.plain rfl) fun now' =>
      uses_step (.plain rfl) fun found => ?_)
      fun user => uses_issueTokens
    cases found with
    | none => trivial
    | some pair =>
      dsimp only
      split <;> trivial
  · trivial
  · trivial

/-- The commands of a call. -/
def Cmd.UsedBy (cfg : Config) : Call → Cmd → Prop
  | .login .. | .refresh .. => Issuing cfg
  | .verify .. => Issueless
  | _ => Plain

theorem uses_body (q : Call) : (body cfg q).Uses (Cmd.UsedBy cfg q) := by
  have reply : ∀ {α : Type} {allowed : Cmd → Prop} {p : Action α} {f : α → Reply}, p.Uses allowed →
      (do return f (← p) : Action Reply).Uses allowed :=
        fun uses => Prog.Uses.bind uses fun _ => trivial
  cases q with
  | login userReq req => exact reply uses_login
  | refresh presented deviceId req => exact reply uses_refresh
  | logoutDevice deviceId user token => exact reply uses_logoutDevice
  | logoutAll user => exact reply uses_logoutAll
  | register dto requestId => exact reply uses_register
  | verify email code => exact reply uses_verify
  | resendCode email => exact reply uses_resendCode
  | forgotPassword email => exact reply uses_forgotPassword
  | forgotPasswordVerify email code => exact reply uses_forgotPasswordVerify
  | forgotPasswordReset email code password => exact reply uses_forgotPasswordReset

end Others

/-- Where a call may stand. -/
def callPoint : Call → List Ev → Cmd → Prop
  | .login userReq _ => savePoint (loginReady userReq.email) none
  | .refresh presented deviceId _ => savePoint (refreshReady presented deviceId) presented
  | .logoutDevice deviceId user _ => logoutPoint deviceId (user.get "id").string?
  | _ => fun _ => Storeless

def returnPoint : Call → List Ev → Except Exn Reply → Prop
  | .login .. | .refresh .. => StoresOnReturn
  | _ => fun _ _ => True

theorem along_body (q : Call) : Along (callPoint q) (returnPoint q) [] (body cfg q) := by
  have saving : ∀ {P : List Ev → Cmd → Prop} {p : Action LoginResponse},
      Along P StoresOnReturn [] p → Along P StoresOnReturn [] (do return Reply.tokens (← p)) := by
    intro P p along
    refine along_bind.mpr (along.mono (fun _ _ point => point) fun trace r stores => ?_)
    cases r with
    | error e => exact storesOnReturn_error _ _
    | ok response => exact fun _ _ => stores response rfl
  have others : ∀ {q : Call}, (∀ c, Cmd.UsedBy cfg q c → Issueless c) →
      Along (fun _ => Storeless) (fun _ _ => True) [] (body cfg q) :=
    fun quiet => ((uses_body _).mono fun c used => storeless_of_issueless (quiet c used)).along
  cases q with
  | login userReq req => exact saving along_login
  | refresh presented deviceId req => exact saving along_refresh
  | logoutDevice deviceId user token =>
    refine along_bind.mpr (along_logoutDevice.mono (fun _ _ point => point) fun trace r _ => ?_)
    cases r <;> trivial
  | logoutAll user => exact others fun _ => Plain.issueless
  | register dto requestId => exact others fun _ => Plain.issueless
  | verify email code => exact others fun _ used => used
  | resendCode email => exact others fun _ => Plain.issueless
  | forgotPassword email => exact others fun _ => Plain.issueless
  | forgotPasswordVerify email code => exact others fun _ => Plain.issueless
  | forgotPasswordReset email code password => exact others fun _ => Plain.issueless

end CorePlatform.Auth
