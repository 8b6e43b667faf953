import CorePlatform.Auth.ResetCodes
import CorePlatform.Auth.Revocation

/-! What the sessions hold, and what a refresh makes of it. Every session holds a refresh token
that was issued for its user, with the version the user's permissions had at that time; the query
of a refresh compares this version with the current one. -/
namespace CorePlatform.Auth
open Async Relational

/-- A refresh token for the user. -/
def IssuedFor (cfg : Config) (userId : String) (token : Token) : Prop :=
  ∃ user issuedAt, user.id = userId ∧ token = AuthService.refreshTokenOf cfg user issuedAt

def SessionsIssued (cfg : Config) (s : Store) : Prop :=
  ∀ row ∈ s.db.refreshTokens, IssuedFor cfg row.userId row.tokenHash.plain

section Bodies

variable {cfg : Config} {trace : List Ev} {userId : String} {deviceId : Option String}
  {dataDevice : DeviceData}
  {old : Option Token}

/-- What a call has seen when it stores a token. -/
def issuePoint (cfg : Config) (trace : List Ev) : Cmd → Prop
  | .refreshTokenUpdate id tokenHash _ => ∃ userId deviceId existing,
      (⟨.refreshTokenFindFirst (savedSession userId deviceId), .ok (some existing)⟩ : Ev) ∈
        trace ∧ id = existing.id ∧ IssuedFor cfg userId tokenHash.plain
  | .refreshTokenCreate data => IssuedFor cfg data.userId data.tokenHash.plain
  | _ => True

theorem issues_step {α : Type} {c : Cmd} {f : c.Resp → Action α} (point : issuePoint cfg trace c)
    (next : ∀ a, Along (issuePoint cfg) (fun _ _ => True) (⟨c, .ok a⟩ :: trace) (f a)) :
    Along (issuePoint cfg) (fun _ _ => True) trace (call c >>= f) :=
  along_await_bind point (fun _ _ => trivial) next

theorem issues_saveRefreshToken {new : Token} (issued : IssuedFor cfg userId new) :
    Along (issuePoint cfg) (fun _ _ => True) trace
      (UsersService.saveRefreshToken cfg userId new dataDevice deviceId old) := by
  refine issues_step trivial fun now =>
    along_bind.mpr (along_await_bind trivial (fun _ _ => trivial) fun salt => ?_)
  refine issues_step trivial fun found => ?_
  cases found with
  | none => exact ⟨issued, fun _ => trivial⟩
  | some existing =>
    dsimp only
    split
    · trivial
    · exact ⟨⟨userId, deviceId, existing, List.mem_cons_self, rfl, issued⟩, fun _ => trivial⟩

theorem issues_issueTokens {user : User} :
    Along (issuePoint cfg) (fun _ _ => True) trace
      (AuthService.issueTokens cfg user dataDevice deviceId old) := by
  refine issues_step trivial fun signed => along_bind.mpr ?_
  refine (issues_saveRefreshToken ⟨user, signed, rfl, rfl⟩).mono
    (fun _ _ point => point) fun trace r _ => ?_
  cases r with
  | error e => trivial
  | ok _ =>
    exact issues_step trivial fun now => issues_step trivial fun _ =>
      issues_step trivial fun _ => trivial

theorem issues_login {userReq : User} {req : Request} :
    Along (issuePoint cfg) (fun _ _ => True) [] (AuthService.login cfg userReq req) := by
  have refused : ∀ (trace : List Ev) (e : Exn), Along (issuePoint cfg) (fun _ _ => True) trace
      (if e.isService then throw e else throw (invalidCredentials e.message) : Action
        LoginResponse) := by
    intro trace e
    split <;> trivial
  refine along_catch.mpr (along_await_bind trivial refused fun d => ?_)
  refine along_bind.mpr (along_await_bind trivial refused fun found => ?_)
  cases found with
  | none => exact refused _ _
  | some user =>
    refine issues_issueTokens.mono (fun _ _ point => point) fun trace r _ => ?_
    cases r with
    | error e => exact refused _ _
    | ok response => trivial

theorem issues_refresh {presented : Option Token} {req : Request} :
    Along (issuePoint cfg) (fun _ _ => True) []
    (AuthService.refresh cfg presented deviceId req) := by
  have refused : ∀ (trace : List Ev) (e : Exn), Along (issuePoint cfg) (fun _ _ => True) trace (do
      call (.clearCookie "refreshToken")
      call (.clearCookie "deviceId")
      throw (.service { code := ErrorCodes.AUTH_REFRESH_TOKEN_INVALID, statusCode := 401
                        message := e.message }) : Action LoginResponse) :=
    fun _ _ => issues_step trivial fun _ => issues_step trivial fun _ => trivial
  refine along_catch.mpr (along_await_bind trivial refused fun now => ?_)
  split
  · refine along_bind.mpr (along_await_bind trivial refused fun now' =>
      along_await_bind trivial refused fun found => ?_)
    cases found with
    | none => exact refused _ _
    | some pair =>
      obtain ⟨session, user⟩ := pair
      dsimp only
      split
      · exact refused _ _
      · refine issues_issueTokens.mono (fun _ _ point => point) fun trace r _ => ?_
        cases r with
        | error e => exact refused _ _
        | ok response => trivial
  · exact refused _ _
  · exact refused _ _

theorem issues_body (q : Call) : Along (issuePoint cfg) (fun _ _ => True) [] (body cfg q) := by
  have saving : ∀ {p : Action LoginResponse}, Along (issuePoint cfg) (fun _ _ => True) [] p →
      Along (issuePoint cfg) (fun _ _ => True) [] (do return Reply.tokens (← p)) := by
    refine fun along => along_bind.mpr (along.mono (fun _ _ point => point) fun trace r _ => ?_)
    cases r <;> trivial
  have others : ∀ {q : Call}, (∀ c, Cmd.UsedBy cfg q c → Issueless c) →
      Along (issuePoint cfg) (fun _ _ => True) [] (body cfg q) := by
    refine fun quiet => ((uses_body _).mono quiet).along.mono
      (fun trace c issueless => ?_) fun _ _ _ => trivial
    cases c <;> trivial
  cases q with
  | login userReq req => exact saving issues_login
  | refresh presented deviceId req => exact saving issues_refresh
  | verify email code => exact others fun _ used => used
  | _ => exact others fun _ => Plain.issueless

end Bodies

section Runs

variable {cfg : Config} {pool : AuthPool} {t : Nat} {th : AuthThread} {userId : String}
  {cond : AuthPool → Step cfg → Prop} {init : Store → Prop}

/-- The session that a save re-reads is one of its user. -/
theorem saved_user (reachable : (authSystem cfg).Reachable cond init pool)
    (found : pool.thread? t = some th) {deviceId : Option String} {existing : RefreshToken}
    (read : (⟨.refreshTokenFindFirst (savedSession userId deviceId), .ok (some existing)⟩ : Ev) ∈
      th.trace) :
    existing.userId = userId := by
  refine reachable.seen (P := fun _ _ e => ∀ deviceId existing,
    e = (⟨.refreshTokenFindFirst (savedSession userId deviceId), .ok (some existing)⟩ : Ev) →
    existing.userId = userId)
    found read ?_ ?_ ?_ deviceId existing rfl
  · rintro pool t choice th c r s _ _ _ executed deviceId existing ⟨⟩
    exact (((holds_live (some userId) deviceId existing).mp (exec_findFirst executed).2).1
      userId rfl).symm
  · exact fun _ _ _ _ _ _ _ _ holds => holds
  · exact fun _ _ _ _ _ _ holds => holds

/-- Every session holds a refresh token that was issued for its user. -/
theorem sessions_issued (reachable : (authSystem cfg).Reachable cond NoSessions pool) :
    SessionsIssued cfg pool.store := by
  refine reachable.invariant (P := fun pool => SessionsIssued cfg pool.store) ?_ ?_
  · intro s empty row found
    rw [← Table.mem_rows, System.idle, empty] at found
    contradiction
  · intro pool label pool' before _ issued _ effect
    cases effect with
    | spawn q => exact issued
    | act a s acted =>
      intro row found
      rw [(act_tables acted).1] at found
      exact issued row found
    | run t choice th c k r s found awaits executed =>
      have next : th.next? = some c := by rw [Thread.next?, awaits]
      have point : issuePoint cfg th.trace c :=
        before.point (P := fun _ => issuePoint cfg) (R := fun _ _ _ => True) issues_body found next
      cases exec_session executed with
      | none _ _ same nothing =>
        intro row found
        exact issued row (same ▸ found)
      | revoke w revokedAt n =>
        intro row' found'
        obtain ⟨row, inTable, rfl⟩ := mem_revokeMany.mp found'
        split <;> exact issued row inTable
      | update id tokenHash expiresAt rows modified =>
        intro row' found'
        obtain ⟨row, inTable, rfl⟩ := (Table.mem_modify? modified).mp found'
        split
        · rename_i target
          obtain ⟨userId, deviceId, existing, read, rfl, token⟩ := point
          obtain ⟨⟨current, there, continues⟩, _⟩ := session_remains before found read .alone
          cases Table.eq_of_key inTable there (target.trans continues.id.symm)
          have owner : userId = row.userId :=
            (saved_user before found read).symm.trans continues.userId.symm
          exact owner ▸ token
        · exact issued row inTable
      | create data id deviceId rows device inserted =>
        intro row' found'
        obtain rfl | inTable := (Table.mem_insert? inserted).mp found'
        · exact point
        · exact issued row' inTable

end Runs

/-- The version that a token carries. -/
def tokenVersion? (token : Token) : Option Int := (Jwt.decode token).bind (·.permVersion)

/-- The user has the version. -/
def HasVersion (userId : String) (v : Int) (s : Store) : Prop :=
  ∃ user ∈ s.db.users, user.id = userId ∧ user.permVersion = v

/-- A session whose token can be presented: unrevoked, unexpired and the latest of its device. -/
structure Presentable (cfg : Config) (s : Store) (session : RefreshToken) : Prop where
  stored : session ∈ s.db.refreshTokens
  live : session.revokedAt = none
  unexpired : s.now < session.expiresAt
  latest : ∀ other ∈ s.db.refreshTokens, other.userId = session.userId →
    other.deviceId = session.deviceId → other.revokedAt = none → other = session
  valid : (Jwt.verify (some session.tokenHash.plain) cfg.jwtSecret
    { issuer := some cfg.jwtIssuer, audience := some cfg.jwtAudience } s.now).isOk = true

/-- A refresh with the session's token succeeds, and the new access token carries the user's current
version. -/
def Follows (cfg : Config) (session : RefreshToken) (s : Store) : Prop :=
  ∀ req, Post steady (AuthService.refresh cfg (some session.tokenHash.plain)
    (some session.deviceId) req) s fun r t =>
    ∃ response v, r = .ok response ∧ HasVersion session.userId v t ∧ response.permVersion = v ∧
      tokenVersion? response.accessToken = some v

section Refresh

variable {cfg : Config} {s : Store} {session : RefreshToken} {user : User} {req : Request}
  {Q : Except Exn LoginResponse → Store → Prop}

/-- A refused refresh clears the cookies. -/
theorem post_refused {message : String} : Post steady (do
      call (.clearCookie "refreshToken")
      call (.clearCookie "deviceId")
      throw (.service
        { code := ErrorCodes.AUTH_REFRESH_TOKEN_INVALID, statusCode := 401, message }) :
        Action LoginResponse) s Q ↔
    Q (.error
      (.service { code := ErrorCodes.AUTH_REFRESH_TOKEN_INVALID, statusCode := 401, message }))
        s := by
  rw [post_steady (r := .ok ()) (t := s) fun _ => rfl,
    post_steady (r := .ok ()) (t := s) fun _ => rfl]
  rfl

theorem verified_claims {issuedAt : Nat} {options : Jwt.VerifyOptions} {now : Nat}
    (valid : (Jwt.verify (some (AuthService.refreshTokenOf cfg user issuedAt)) cfg.jwtSecret
      options now).isOk = true) :
    ∃ decoded, Jwt.verify (some (AuthService.refreshTokenOf cfg user issuedAt)) cfg.jwtSecret
      options now = .ok decoded ∧
      decoded.sub = some user.id ∧ decoded.permVersion = some user.permVersion := by
  cases verified : Jwt.verify (some (AuthService.refreshTokenOf cfg user issuedAt))
    cfg.jwtSecret options now with
  | error message =>
    rw [verified] at valid
    contradiction
  | ok decoded =>
    cases Option.some.inj (Jwt.verify_signed verified)
    exact ⟨_, rfl, rfl, rfl⟩

/-- The rows that a refresh may find, with their users. -/
def sessionsWithUser (w : RefreshTokenWhere) (s : Store) : List (RefreshToken × User) :=
  (s.db.refreshTokens.rows.filter (w.holds s.db.users)).filterMap fun row =>
    (s.db.users.rows.find? (·.id = row.userId)).map (row, ·)

/-- The query of a refresh. -/
def refreshQuery (user : User) (deviceId : String) (now : Nat) : RefreshTokenWhere :=
  { userId := some user.id, permVersion := some user.permVersion, deviceId := some deviceId
    expiresAfter := some now, live := true }

theorem holds_refreshQuery {deviceId : String} {now : Nat} {row : RefreshToken} :
    (refreshQuery user deviceId now).holds s.db.users row ↔ row.userId = user.id ∧
    row.deviceId = deviceId ∧
      row.revokedAt = none ∧ now < row.expiresAt ∧ HasVersion row.userId user.permVersion s := by
  simp only [refreshQuery, RefreshTokenWhere.holds, HasVersion, Option.all_none,
    Option.all_some, Bool.and_eq_true,
    beq_iff_eq, decide_eq_true_eq, Bool.not_true, Bool.false_or, Option.isNone_iff_eq_none,
    List.any_eq_true, Bool.true_and,
    and_assoc, eq_comm (a := user.id), eq_comm (a := deviceId), Table.mem_rows]

theorem mem_sessionsWithUser {w : RefreshTokenWhere} {pair : RefreshToken × User} :
    pair ∈ sessionsWithUser w s ↔
    (pair.1 ∈ s.db.refreshTokens ∧ w.holds s.db.users pair.1) ∧
    s.db.users.rows.find? (·.id = pair.1.userId) = some pair.2 := by
  obtain ⟨row, owner⟩ := pair
  simp only [sessionsWithUser, List.mem_filterMap, List.mem_filter,
    Option.map_eq_some_iff, Table.mem_rows]
  constructor
  · rintro ⟨row', selected, owner', found, ⟨⟩⟩
    exact ⟨selected, found⟩
  · rintro ⟨selected, found⟩
    exact ⟨row, selected, owner, found, rfl⟩

/-- A refresh that presents a valid token goes by the sessions that its query finds. -/
theorem post_refresh {token : Token} {deviceId : String} {issuedAt : Nat}
    (issued : token = AuthService.refreshTokenOf cfg user issuedAt)
    (valid : (Jwt.verify (some token) cfg.jwtSecret
      { issuer := some cfg.jwtIssuer, audience := some cfg.jwtAudience } s.now).isOk = true)
    (holding : ∀ pair ∈ sessionsWithUser (refreshQuery user deviceId s.now) s,
      pair.1.tokenHash.plain = token) :
    Post steady (AuthService.refresh cfg (some token) (some deviceId) req) s Q ↔
      (sessionsWithUser (refreshQuery user deviceId s.now) s = [] →
        Q (.error invalidRefreshToken) s) ∧
      ∀ pair ∈ sessionsWithUser (refreshQuery user deviceId s.now) s,
        Post steady (AuthService.issueTokens cfg pair.2 (AuthService.getDeviceData cfg req)
          (some deviceId) (some token)) s fun
          | .ok a, t => Q (.ok a) t
          | .error e, t => Q (.error (.service
              { code := ErrorCodes.AUTH_REFRESH_TOKEN_INVALID, statusCode := 401
                message := e.message })) t := by
  subst issued
  obtain ⟨decoded, verified, sub, version⟩ := verified_claims valid
  unfold AuthService.refresh
  rw [post_catch, post_steady (r := .ok s.now) (t := s) fun _ => rfl]
  simp only [verified, post_refused, sub, version]
  unfold UsersService.findByRefreshToken
  rw [post_bind, post_steady (r := .ok s.now) (t := s) fun _ => rfl]
  have query : ∀ choice, execTotal
      (.refreshTokenFindFirstWithUser (refreshQuery user deviceId s.now)) choice s =
      some (.ok (pickFrom (sessionsWithUser (refreshQuery user deviceId s.now) s) choice), s) :=
        fun _ => rfl
  refine (post_steady_pick _ (fun picked => picked) query).trans (and_congr Iff.rfl ?_)
  refine forall_congr' fun pair => imp_congr_right fun found => ?_
  have held : verifyPassword pair.1.tokenHash
      (AuthService.refreshTokenOf cfg user issuedAt) = true :=
    (verifyPassword_iff ..).mpr (holding pair found)
  simp only [held, Bool.not_true, Bool.false_eq_true, if_false, Prog.pure_eq]
  rw [post_done]
  dsimp only
  refine iff_of_eq (congrArg _ (funext fun r => funext fun t => ?_))
  cases r <;> rfl

/-- The update of a session that is there. -/
theorem exec_updateSession (tokenHash : Argon2Hash Token) (expiresAt : Nat)
    (found : session ∈ s.db.refreshTokens) :
    ∃ rows, ∀ choice, execTotal (.refreshTokenUpdate session.id tokenHash expiresAt) choice s =
      some (.ok (), s.setRefreshTokens rows) := by
  have there : session.id ∈ s.db.refreshTokens.rows.map RefreshToken.id := List.mem_map_of_mem found
  obtain ⟨rows, modified⟩ : ∃ rows, s.db.refreshTokens.modify? session.id
      (fun row => { row with tokenHash, expiresAt }) = some rows := by
    unfold Table.modify?
    exact ⟨_, if_pos there⟩
  exact ⟨rows, fun choice => by simp only [execTotal, modified, Store.affected]⟩

/-- Where the device has one live session and it holds the token, the tokens are issued. -/
theorem issueTokens_spec {token : Token} {deviceId : String} {dataDevice : DeviceData}
    (stored : session ∈ s.db.refreshTokens) (owner : session.userId = user.id)
    (device : session.deviceId = deviceId) (live : session.revokedAt = none)
    (holding : ∀ row ∈ s.db.refreshTokens, row.userId = user.id → row.deviceId = deviceId →
      row.revokedAt = none → row.tokenHash.plain = token) :
    Post steady (AuthService.issueTokens cfg user dataDevice (some deviceId)
      (some token)) s fun r t =>
      ∃ response, r = .ok response ∧ t.db.users = s.db.users ∧
        response.permVersion = user.permVersion ∧
        tokenVersion? response.accessToken = some user.permVersion := by
  unfold AuthService.issueTokens UsersService.saveRefreshToken
  rw [post_steady (r := .ok s.now) (t := s) fun _ => rfl]
  refine post_bind.mpr ((post_steady (r := .ok s.now) (t := s) fun _ => rfl).mpr
    (post_steady_hashPassword.mpr fun salt => ?_))
  refine (post_steady_pick (s.db.refreshTokens.rows.filter (RefreshTokenWhere.holds
    { userId := some user.id, deviceId := some deviceId, live := true } s.db.users))
      (fun picked => picked) fun _ => rfl).mpr ⟨?_, ?_⟩
  · intro none
    have matching := (holds_live (s := s) (some user.id) (some deviceId) session).mpr
      ⟨fun u given => (Option.some.inj given).symm.trans owner.symm, fun d given =>
        (Option.some.inj given).symm.trans device.symm, live⟩
    exact absurd (none ▸ List.mem_filter.mpr ⟨stored, matching⟩) List.not_mem_nil
  · intro existing found
    obtain ⟨inTable, matching⟩ := List.mem_filter.mp found
    obtain ⟨owner', device', live'⟩ :=
      (holds_live (s := s) (some user.id) (some deviceId) existing).mp matching
    have held : verifyPassword existing.tokenHash token = true :=
      (verifyPassword_iff ..).mpr
        (holding existing inTable (owner' _ rfl).symm (device' _ rfl).symm live')
    simp only [Option.any_some, held, Bool.not_true, Bool.false_eq_true, if_false]
    rintro r t ⟨choice, executed⟩
    obtain ⟨rows, updated⟩ := exec_updateSession ⟨salt, AuthService.refreshTokenOf cfg user s.now⟩
      (s.now + UsersService.refreshTtlSeconds cfg * 1000) inTable
    obtain ⟨rfl, rfl⟩ := Prod.mk.inj (Option.some.inj ((updated choice).symm.trans executed))
    rw [post_done]
    dsimp only
    refine (post_steady (r := .ok s.now) (t := s.setRefreshTokens rows) fun _ => rfl).mpr ?_
    refine (post_steady (r := .ok ()) (t := s.setRefreshTokens rows) fun _ => rfl).mpr ?_
    refine (post_steady (r := .ok ()) (t := s.setRefreshTokens rows) fun _ => rfl).mpr ?_
    exact ⟨_, rfl, rfl, rfl, rfl⟩

/-- The sessions that a refresh finds are those of the user, if the token's version is the current
one. -/
theorem found_session {pair : RefreshToken × User} (presentable : Presentable cfg s session)
    (same : user.id = session.userId)
    (found : pair ∈ sessionsWithUser (refreshQuery user session.deviceId s.now) s) :
    pair.1 = session ∧ pair.2 ∈ s.db.users ∧ pair.2.id = session.userId ∧
    HasVersion session.userId user.permVersion s := by
  obtain ⟨⟨inTable, matching⟩, joined⟩ := mem_sessionsWithUser.mp found
  obtain ⟨owner, device, live, _, version⟩ := holds_refreshQuery.mp matching
  have here : pair.1 = session := presentable.latest pair.1 inTable (owner.trans same) device live
  obtain ⟨known, id⟩ := Table.of_find joined
  rw [here] at id version
  exact ⟨here, known, id, version⟩

/-- A refresh with the session's token succeeds with the current version exactly if it is the
token's. -/
theorem follows_iff (presentable : Presentable cfg s session)
    (issued : IssuedFor cfg session.userId session.tokenHash.plain) :
    Follows cfg session s ↔ ∃ v, tokenVersion? session.tokenHash.plain = some v ∧
    HasVersion session.userId v s := by
  obtain ⟨user, issuedAt, same, token⟩ := issued
  have carried : tokenVersion? session.tokenHash.plain = some user.permVersion := by rw [token]; rfl
  have holding : ∀ pair ∈ sessionsWithUser (refreshQuery user session.deviceId s.now) s,
      pair.1.tokenHash.plain = session.tokenHash.plain := by
    intro pair found
    rw [(found_session presentable same found).1]
  constructor
  · intro follows
    refine ⟨user.permVersion, carried, ?_⟩
    obtain ⟨refused, _⟩ := (post_refresh token presentable.valid holding).mp (follows {})
    cases sessions : sessionsWithUser (refreshQuery user session.deviceId s.now) s with
    | nil =>
      obtain ⟨_, _, impossible, _⟩ := refused sessions
      nomatch impossible
    | cons pair rest =>
      exact (found_session presentable same (sessions ▸ List.mem_cons_self)).2.2.2
  · rintro ⟨v, version, current⟩ req
    cases Option.some.inj (carried.symm.trans version)
    refine (post_refresh token presentable.valid holding).mpr ⟨fun none => ?_, fun pair found => ?_⟩
    · have ⟨owner, inTable, id, _⟩ := current
      obtain ⟨owner', joined⟩ : ∃ owner', s.db.users.rows.find?
        (·.id = session.userId) = some owner' :=
        Option.isSome_iff_exists.mp (List.find?_isSome.mpr ⟨owner, inTable, decide_eq_true id⟩)
      have matching :=
        holds_refreshQuery.mpr ⟨same.symm, rfl, presentable.live, presentable.unexpired, current⟩
      have found : (session, owner') ∈ sessionsWithUser
          (refreshQuery user session.deviceId s.now) s :=
        mem_sessionsWithUser.mpr ⟨⟨presentable.stored, matching⟩, joined⟩
      exact absurd (none ▸ found) List.not_mem_nil
    · obtain ⟨_, inTable, id, _⟩ := found_session presentable same found
      have alone : ∀ row ∈ s.db.refreshTokens, row.userId = pair.2.id →
          row.deviceId = session.deviceId → row.revokedAt = none →
          row.tokenHash.plain = session.tokenHash.plain := by
        intro row there owner device live
        rw [presentable.latest row there (owner.trans id) device live]
      refine (issueTokens_spec presentable.stored id.symm rfl presentable.live alone).mono
        fun r t issued => ?_
      obtain ⟨response, rfl, users, version, access⟩ := issued
      exact ⟨response, pair.2.permVersion, rfl, ⟨pair.2, users ▸ inTable, id, rfl⟩, version, access⟩

end Refresh
end CorePlatform.Auth
