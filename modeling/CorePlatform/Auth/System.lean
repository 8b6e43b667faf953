import CorePlatform.Auth.Controller

/-! Concurrent calls of the auth service over one database. Beside the calls, time passes
and the roles service sets permission versions. -/
namespace CorePlatform.Auth
open Async Relational

inductive Call where
  | login (userReq : User) (req : Request)
  | refresh (refreshToken : Option Token) (deviceId : Option String) (req : Request)
  | logoutDevice (deviceId : Option String) (user : Js) (refreshToken : Option Token)
  | logoutAll (user : Js)
  | register (dto : CreateUserDto) (requestId : Option String)
  | verify (email code : String)
  | resendCode (email : Option String)
  | forgotPassword (email : Option String)
  | forgotPasswordVerify (email code : Option String)
  | forgotPasswordReset (email code password : Option String)

inductive Reply where
  | tokens (response : LoginResponse)
  | registered (response : RegisterResponse)
  | verified (ok : Bool)
  | message (text : String)

inductive EnvAct where
  | tick (ms : Nat)
  | setPermVersion (userId : String) (version : Int)

def body (cfg : Config) : Call → Action Reply
  | .login userReq req => return .tokens (← AuthService.login cfg userReq req)
  | .refresh refreshToken deviceId req =>
    return .tokens (← AuthService.refresh cfg refreshToken deviceId req)
  | .logoutDevice deviceId user refreshToken =>
    return .message (← AuthService.logoutDevice deviceId user refreshToken)
  | .logoutAll user => return .message (← AuthService.logoutAll user)
  | .register dto requestId => return .registered (← AuthService.register cfg dto requestId)
  | .verify email code => return .verified (← AuthService.verify cfg email code)
  | .resendCode email => return .message (← AuthService.resendCode cfg email)
  | .forgotPassword email => return .message (← AuthService.forgotPassword cfg email)
  | .forgotPasswordVerify email code =>
    return .message (← AuthService.forgotPasswordVerify email code)
  | .forgotPasswordReset email code password =>
    return .message (← AuthService.forgotPasswordReset email code password)

def act : EnvAct → Store → Option Store
  | .tick ms, s => some { s with now := s.now + ms }
  | .setPermVersion userId version, s =>
      some (s.updateUser userId fun u => { u with permVersion := version })

@[reducible] def authSystem (cfg : Config) : System Api Exn Call Reply Store where
  toSemantics := semantics
  body := body cfg
  Act := EnvAct
  act := act

abbrev Ev := Event Api Exn
abbrev AuthThread := Thread Api Exn Call Reply
abbrev AuthPool := Pool Api Exn Call Reply Store
abbrev Step (cfg : Config) := Label Call (authSystem cfg).Choice (authSystem cfg).Act

/-- No session exists yet. -/
def NoSessions (s : Store) : Prop := s.db.refreshTokens.rows = []

/-- The commands that store a refresh token, with the token. -/
def Cmd.storing? : Cmd → Option Token
  | .refreshTokenUpdate _ tokenHash _ => some tokenHash.plain
  | .refreshTokenCreate data => some data.tokenHash.plain
  | _ => none

/-- The token an executed command has stored. -/
def stored? : Ev → Option Token
  | ⟨.refreshTokenUpdate _ tokenHash _, .ok _⟩ => some tokenHash.plain
  | ⟨.refreshTokenCreate data, .ok _⟩ => some data.tokenHash.plain
  | _ => none

theorem stored?_storing {e : Ev} (stored : stored? e = some token) :
    e.cmd.storing? = some token := by
  obtain ⟨c, r⟩ := e
  cases c <;> cases r <;> first | exact stored | contradiction

/-- What an executed command did to the sessions. -/
inductive SessionEffect (s : Store) : Ev → Store → Prop where
  | none (e : Ev) (s' : Store) (same : s'.db.refreshTokens = s.db.refreshTokens)
      (nothing : stored? e = none) : SessionEffect s e s'
  | revoke (w : RefreshTokenWhere) (revokedAt n : Nat) :
      SessionEffect s ⟨.refreshTokenRevokeMany w revokedAt, .ok n⟩ (s.revokeMany w revokedAt)
  | update (id : String) (tokenHash : Argon2Hash Token) (expiresAt : Nat)
      (rows : Table RefreshToken.id)
      (modified : s.db.refreshTokens.modify? id (fun row => { row with tokenHash, expiresAt }) =
        some rows) :
      SessionEffect s ⟨.refreshTokenUpdate id tokenHash expiresAt, .ok ()⟩ (s.setRefreshTokens rows)
  | create (data : RefreshTokenData) (id deviceId : String) (rows : Table RefreshToken.id)
      (device : data.deviceId = some deviceId)
      (inserted : s.db.refreshTokens.insert?
        { id, userId := data.userId, tokenHash := data.tokenHash, expiresAt := data.expiresAt
          deviceId, device := data.device } = some rows) :
      SessionEffect s ⟨.refreshTokenCreate data, .ok ()⟩ (s.setRefreshTokens rows)

theorem exec_session {c : Cmd} {choice : Choice} {s s' : Store} {r : Except Exn c.Resp}
    (executed : exec c choice s = some (r, s')) : SessionEffect s ⟨c, r⟩ s' := by
  unfold exec at executed
  split at executed
  · split at executed
    · obtain ⟨rfl, rfl⟩ := Prod.mk.inj (Option.some.inj executed)
      exact .none _ _ rfl (by cases c <;> rfl)
    · contradiction
  · cases c with
    | refreshTokenRevokeMany w revokedAt =>
      obtain ⟨rfl, rfl⟩ := Prod.mk.inj (Option.some.inj executed)
      exact .revoke w revokedAt _
    | refreshTokenUpdate id tokenHash expiresAt =>
      simp only [execTotal, Store.affected, Option.some.injEq] at executed
      split at executed
      · rename_i rows modified
        obtain ⟨rfl, rfl⟩ := Prod.mk.inj executed
        exact .update id tokenHash expiresAt rows modified
      · obtain ⟨rfl, rfl⟩ := Prod.mk.inj executed
        exact .none _ _ rfl rfl
    | refreshTokenCreate data =>
      simp only [execTotal] at executed
      split at executed
      · obtain ⟨rfl, rfl⟩ := Prod.mk.inj (Option.some.inj executed)
        exact .none _ _ rfl rfl
      · rename_i deviceId device
        obtain ⟨rows, inserted, both⟩ := Option.map_eq_some_iff.mp executed
        obtain ⟨rfl, rfl⟩ := Prod.mk.inj both
        exact .create data choice.draw deviceId rows device inserted
    | _ =>
      refine .none _ _ ?_ (by cases r <;> rfl)
      simp only [execTotal, Store.createUser, Store.affected, Store.updateUser, Store.setEmailOtps,
        Store.setPasswordResets] at executed
      repeat' split at executed
      all_goals first
        | contradiction
        | (obtain ⟨_, rfl⟩ := Prod.mk.inj (Option.some.inj executed); rfl)
        | (obtain ⟨_, _, both⟩ := Option.map_eq_some_iff.mp executed
           obtain ⟨_, rfl⟩ := Prod.mk.inj both; rfl)

section Reads

variable {s s' : Store} {choice : Choice}

theorem exec_answered {c : Cmd} {a : c.Resp} (executed : exec c choice s = some (.ok a, s')) :
    choice.fault = false := by
  unfold exec at executed
  split at executed
  · split at executed
    · nomatch (Prod.mk.inj (Option.some.inj executed)).1
    · contradiction
  · rename_i quiet
    exact Bool.eq_false_iff.mpr quiet

theorem exec_findFirst {w : RefreshTokenWhere} {row : RefreshToken}
    (executed : exec (.refreshTokenFindFirst w) choice s = some (.ok (some row), s')) :
    row ∈ s.db.refreshTokens ∧ w.holds s.db.users row := by
  rw [exec, exec_answered executed] at executed
  have picked := Except.ok.inj (Prod.mk.inj (Option.some.inj executed)).1
  exact List.mem_filter.mp (pickFrom_mem picked)

theorem exec_findFirst_none {w : RefreshTokenWhere}
    (executed : exec (.refreshTokenFindFirst w) choice s = some (.ok none, s')) :
    ∀ row ∈ s.db.refreshTokens, ¬ w.holds s.db.users row := by
  rw [exec, exec_answered executed] at executed
  have picked := Except.ok.inj (Prod.mk.inj (Option.some.inj executed)).1
  intro row found matching
  have empty := pickFrom_none picked
  exact List.not_mem_nil (empty ▸ List.mem_filter.mpr ⟨found, matching⟩)

theorem exec_findFirstWithUser {w : RefreshTokenWhere} {row : RefreshToken} {user : User}
    (executed : exec (.refreshTokenFindFirstWithUser w) choice s =
      some (.ok (some (row, user)), s')) :
    row ∈ s.db.refreshTokens ∧ w.holds s.db.users row ∧ row.userId = user.id := by
  rw [exec, exec_answered executed] at executed
  have picked := Except.ok.inj (Prod.mk.inj (Option.some.inj executed)).1
  obtain ⟨row', selected, joined⟩ := List.mem_filterMap.mp (pickFrom_mem picked)
  obtain ⟨user', found, both⟩ := Option.map_eq_some_iff.mp joined
  obtain ⟨rfl, rfl⟩ := Prod.mk.inj both
  obtain ⟨inTable, matching⟩ := List.mem_filter.mp selected
  exact ⟨inTable, matching, (by simpa using List.find?_some found : user'.id = row'.userId).symm⟩

theorem exec_revokeMany {w : RefreshTokenWhere} {revokedAt : Nat} {r : Except Exn Nat}
    (executed : exec (.refreshTokenRevokeMany w revokedAt) choice s = some (r, s'))
    (answered : choice.fault = false) : s' = s.revokeMany w revokedAt := by
  rw [exec, answered] at executed
  exact (Prod.mk.inj (Option.some.inj executed)).2.symm

end Reads

/-- `row'` is `row` at a later time. -/
structure Continues (row row' : RefreshToken) : Prop where
  id : row'.id = row.id
  userId : row'.userId = row.userId
  deviceId : row'.deviceId = row.deviceId
  live : row'.revokedAt = none → row.revokedAt = none

/-- It holds the same token, too. -/
structure Carried (row row' : RefreshToken) : Prop extends Continues row row' where
  tokenHash : row'.tokenHash = row.tokenHash

theorem Continues.refl (row : RefreshToken) : Continues row row := ⟨rfl, rfl, rfl, fun live => live⟩

theorem Carried.refl (row : RefreshToken) : Carried row row := ⟨.refl row, rfl⟩

theorem carried_revokeMany {s : Store} {w : RefreshTokenWhere} {revokedAt : Nat}
    (row : RefreshToken) :
    Carried row (if w.holds s.db.users
      row then { row with revokedAt := some revokedAt } else row) := by
  split
  · exact ⟨⟨rfl, rfl, rfl, nofun⟩, rfl⟩
  · exact .refl row

namespace SessionEffect

variable {s s' : Store} {e : Ev}

/-- Every row after a step is an old one, or the one that holds the stored token: an old one that
was updated, or the one that a `create` has made. -/
theorem origin (effect : SessionEffect s e s') :
    ∃ id, ∀ row' ∈ s'.db.refreshTokens, (∃ row ∈ s.db.refreshTokens, Carried row row') ∨
      (stored? e = some row'.tokenHash.plain ∧ row'.id = id ∧
        ((∃ row ∈ s.db.refreshTokens, Continues row row') ∨
        ∃ data, e = ⟨.refreshTokenCreate data, .ok ()⟩ ∧ row'.userId = data.userId ∧
        data.deviceId = some row'.deviceId)) := by
  cases effect with
  | none _ _ same nothing =>
    exact ⟨"", fun row' found => .inl ⟨row', same ▸ found, .refl row'⟩⟩
  | revoke w revokedAt n =>
    refine ⟨"", fun row' found => .inl ?_⟩
    obtain ⟨row, inTable, rfl⟩ := mem_revokeMany.mp found
    exact ⟨row, inTable, carried_revokeMany row⟩
  | update id tokenHash expiresAt rows modified =>
    refine ⟨id, fun row' found => ?_⟩
    obtain ⟨row, inTable, rfl⟩ := (Table.mem_modify? modified).mp found
    split
    · rename_i same
      exact .inr ⟨rfl, same, .inl ⟨row, inTable, rfl, rfl, rfl, fun live => live⟩⟩
    · exact .inl ⟨row, inTable, .refl row⟩
  | create data id deviceId rows device inserted =>
    refine ⟨id, fun row' found => ?_⟩
    rcases (Table.mem_insert? inserted).mp found with rfl | inTable
    · exact .inr ⟨rfl, rfl, .inr ⟨data, rfl, rfl, device⟩⟩
    · exact .inl ⟨row', inTable, .refl row'⟩

theorem rows (effect : SessionEffect s e s') :
    ∃ id, ∀ row' ∈ s'.db.refreshTokens, (∃ row ∈ s.db.refreshTokens, Carried row row') ∨
      stored? e = some row'.tokenHash.plain ∧ row'.id = id := by
  obtain ⟨id, origins⟩ := effect.origin
  refine ⟨id, fun row' found => ?_⟩
  obtain old | ⟨stored, same, _⟩ := origins row' found
  · exact .inl old
  · exact .inr ⟨stored, same⟩

theorem back (effect : SessionEffect s e s') :
    ∃ id, ∀ row' ∈ s'.db.refreshTokens, (∃ row ∈ s.db.refreshTokens, Continues row row') ∨
      ∃ data, e = ⟨.refreshTokenCreate data, .ok ()⟩ ∧ row'.userId = data.userId ∧
        data.deviceId = some row'.deviceId ∧ row'.id = id := by
  obtain ⟨id, origins⟩ := effect.origin
  refine ⟨id, fun row' found => ?_⟩
  obtain ⟨row, inTable, carried⟩ | ⟨_, same, updated | ⟨data, created, user, device⟩⟩ :=
    origins row' found
  · exact .inl ⟨row, inTable, carried.toContinues⟩
  · exact .inl updated
  · exact .inr ⟨data, created, user, device, same⟩

/-- No row is lost. -/
theorem onward (effect : SessionEffect s e s') {row : RefreshToken}
    (found : row ∈ s.db.refreshTokens) :
    ∃ row' ∈ s'.db.refreshTokens, Continues row row' := by
  cases effect with
  | none _ _ same nothing => exact ⟨row, same ▸ found, .refl row⟩
  | revoke w revokedAt n =>
    exact ⟨_, mem_revokeMany.mpr ⟨row, found, rfl⟩, (carried_revokeMany row).toContinues⟩
  | update id tokenHash expiresAt rows modified =>
    refine ⟨_, (Table.mem_modify? modified).mpr ⟨row, found, rfl⟩, ?_⟩
    split
    · exact ⟨rfl, rfl, rfl, fun live => live⟩
    · exact .refl row
  | create data id deviceId rows device inserted =>
    exact ⟨row, (Table.mem_insert? inserted).mpr (.inr found), .refl row⟩

end SessionEffect

section Users

variable {s s' : Store}

/-- The same account at a later time: users keep their identifier and email. -/
def Remains (s' : Store) (user : User) : Prop :=
  ∃ user' ∈ s'.db.users, user'.id = user.id ∧ user'.email = user.email

theorem mem_updateUser {id : String} {f : User → User} {same : ∀ u, (f u).id = u.id}
    {email : ∀ u, (f u).email = u.email} {user : User} :
    user ∈ (s.updateUser id f same email).db.users ↔
      ∃ old ∈ s.db.users, (if old.id = id then f old else old) = user := by
  simp only [Store.updateUser, Table.mem_update, decide_eq_true_eq]

theorem remains_updateUser {id : String} {f : User → User} {same : ∀ u, (f u).id = u.id}
    {email : ∀ u, (f u).email = u.email} {user : User} (found : user ∈ s.db.users) :
    Remains (s.updateUser id f same email) user := by
  refine ⟨_, mem_updateUser.mpr ⟨user, found, rfl⟩, ?_⟩
  split
  · exact ⟨same user, email user⟩
  · exact ⟨rfl, rfl⟩

/-- What an executed command did to the users. -/
inductive UsersEffect (s : Store) : Cmd → Store → Prop where
  | none (c : Cmd) (s' : Store) (same : s'.db.users = s.db.users) : UsersEffect s c s'
  | create (user : User) (s' : Store) (inserted : s.db.users.insert? user = some s'.db.users) :
      UsersEffect s (.userCreate user.email user.passwordHash user.name user.phone user.isActive) s'
  | activate (id : String) : UsersEffect s (.userActivate id) (s.updateUser id fun u =>
      { u with isActive := true })
  | setPassword (id : String) (passwordHash : Argon2Hash String) :
      UsersEffect s (.userSetPassword id passwordHash)
        (s.updateUser id fun u => { u with passwordHash })

theorem exec_usersEffect {c : Cmd} {choice : Choice} {r : Except Exn c.Resp}
    (executed : exec c choice s = some (r, s')) : UsersEffect s c s' := by
  unfold exec at executed
  split at executed
  · split at executed
    · obtain ⟨_, rfl⟩ := Prod.mk.inj (Option.some.inj executed)
      exact .none _ _ rfl
    · contradiction
  · cases c with
    | userCreate email passwordHash name phone isActive =>
      simp only [execTotal, Store.createUser] at executed
      split at executed
      · split at executed
        · rename_i users inserted
          obtain ⟨_, rfl⟩ := Prod.mk.inj (Option.some.inj executed)
          exact .create
            { id := choice.draw, email, passwordHash, name, phone, isActive, createdAt := s.now }
              _ inserted
        · contradiction
      · obtain ⟨_, rfl⟩ := Prod.mk.inj (Option.some.inj executed)
        exact .none _ _ rfl
    | userActivate id =>
      simp only [execTotal] at executed
      split at executed
      · obtain ⟨_, rfl⟩ := Prod.mk.inj (Option.some.inj executed)
        exact .activate id
      · obtain ⟨_, rfl⟩ := Prod.mk.inj (Option.some.inj executed)
        exact .none _ _ rfl
    | userSetPassword id passwordHash =>
      simp only [execTotal] at executed
      split at executed
      · obtain ⟨_, rfl⟩ := Prod.mk.inj (Option.some.inj executed)
        exact .setPassword id passwordHash
      · obtain ⟨_, rfl⟩ := Prod.mk.inj (Option.some.inj executed)
        exact .none _ _ rfl
    | _ =>
      apply UsersEffect.none
      simp only [execTotal, Store.affected, Store.setEmailOtps, Store.revokeMany,
        Store.setRefreshTokens, Store.setPasswordResets] at executed
      repeat' split at executed
      all_goals first
        | contradiction
        | (obtain ⟨_, rfl⟩ := Prod.mk.inj (Option.some.inj executed); rfl)
        | (obtain ⟨_, _, both⟩ := Option.map_eq_some_iff.mp executed
           obtain ⟨_, rfl⟩ := Prod.mk.inj both; rfl)

theorem exec_users {c : Cmd} {choice : Choice} {r : Except Exn c.Resp}
    (executed : exec c choice s = some (r, s')) {user : User} (found : user ∈ s.db.users) :
    Remains s' user := by
  cases exec_usersEffect executed with
  | none _ _ same => exact ⟨user, same ▸ found, rfl, rfl⟩
  | create _ _ inserted => exact ⟨user, (Table.mem_insert? inserted).mpr (.inr found), rfl, rfl⟩
  | activate id => exact remains_updateUser found
  | setPassword id passwordHash => exact remains_updateUser found

/-- Drawn identifiers stay drawn. -/
theorem exec_drawn {c : Cmd} {choice : Choice} {r : Except Exn c.Resp}
    (executed : exec c choice s = some (r, s')) {d : String}
    (drawn : d ∈ s.drawn) : d ∈ s'.drawn := by
  unfold exec at executed
  split at executed
  · split at executed
    · obtain ⟨_, rfl⟩ := Prod.mk.inj (Option.some.inj executed)
      exact drawn
    · contradiction
  · cases c with
    | randomUUID =>
      simp only [execTotal] at executed
      split at executed
      · contradiction
      · obtain ⟨_, rfl⟩ := Prod.mk.inj (Option.some.inj executed)
        exact List.mem_cons_of_mem _ drawn
    | _ =>
      simp only [execTotal, Store.createUser, Store.affected, Store.updateUser, Store.setEmailOtps,
        Store.revokeMany, Store.setRefreshTokens, Store.setPasswordResets] at executed
      repeat' split at executed
      all_goals first
        | contradiction
        | (obtain ⟨_, rfl⟩ := Prod.mk.inj (Option.some.inj executed); exact drawn)
        | (obtain ⟨_, _, both⟩ := Option.map_eq_some_iff.mp executed
           obtain ⟨_, rfl⟩ := Prod.mk.inj both; exact drawn)

/-- A draw is new. -/
theorem exec_randomUUID {choice : Choice} {d : String}
    (executed : exec .randomUUID choice s = some (.ok d, s')) :
    d ∉ s.drawn ∧ d ∈ s'.drawn ∧ s'.db = s.db := by
  rw [exec, exec_answered executed] at executed
  simp only [execTotal, Bool.false_eq_true, if_false] at executed
  split at executed
  · contradiction
  · rename_i fresh
    obtain ⟨same, rfl⟩ := Prod.mk.inj (Option.some.inj executed)
    cases Except.ok.inj same
    exact ⟨fresh, List.mem_cons_self, rfl⟩

theorem exec_now {choice : Choice} {r : Except Exn Nat}
    (executed : exec .now choice s = some (r, s')) :
    r = .ok s.now ∧ s' = s := by
  unfold exec at executed
  split at executed
  · contradiction
  · obtain ⟨rfl, rfl⟩ := Prod.mk.inj (Option.some.inj executed)
    exact ⟨rfl, rfl⟩

theorem exec_emailOtpFindFirst {w : EmailOtpWhere} {otp : EmailOtp} {choice : Choice}
    (executed : exec (.emailOtpFindFirst w) choice s = some (.ok (some otp), s')) :
    otp ∈ s.db.emailOtps ∧ w.holds otp := by
  rw [exec, exec_answered executed] at executed
  have picked := Except.ok.inj (Prod.mk.inj (Option.some.inj executed)).1
  exact List.mem_filter.mp (pickFrom_mem picked)

theorem exec_passwordResetFindFirst {w : PasswordResetWhere} {row : PasswordReset} {choice : Choice}
    (executed : exec (.passwordResetFindFirst w) choice s = some (.ok (some row), s')) :
    row ∈ s.db.passwordResets.rows ∧ w.holds row := by
  rw [exec, exec_answered executed] at executed
  have picked := Except.ok.inj (Prod.mk.inj (Option.some.inj executed)).1
  exact List.mem_filter.mp (pickFrom_mem picked)

/-- A deletion that is not rejected, of a row that is there. -/
theorem exec_passwordResetDelete {row : PasswordReset} {r : Except Exn Unit} {choice : Choice}
    (stored : row ∈ s.db.passwordResets.rows)
    (executed : exec (.passwordResetDelete row.id) choice s = some (r, s'))
    (answered : choice.fault = false) : r = .ok () ∧ s'.db.users = s.db.users ∧
    s'.db.refreshTokens = s.db.refreshTokens ∧
      ∀ other, other ∈ s'.db.passwordResets.rows ↔ other ∈ s.db.passwordResets.rows ∧
      other.id ≠ row.id := by
  simp only [exec, answered, Bool.false_eq_true, if_false, execTotal, Option.some.injEq,
    Store.affected] at executed
  split at executed
  · rename_i rows removed
    obtain ⟨rfl, rfl⟩ := Prod.mk.inj executed
    exact ⟨rfl, rfl, rfl, fun other => Table.mem_remove? removed⟩
  · rename_i absent
    rw [Table.remove?, if_pos (List.mem_map_of_mem stored)] at absent
    contradiction

theorem exec_userFindFirst {w : UserWhere} {user : User} {choice : Choice}
    (executed : exec (.userFindFirst w) choice s = some (.ok (some user), s')) :
    user ∈ s.db.users ∧ w.holds user := by
  rw [exec, exec_answered executed] at executed
  have picked := Except.ok.inj (Prod.mk.inj (Option.some.inj executed)).1
  exact List.mem_filter.mp (pickFrom_mem picked)

end Users
end CorePlatform.Auth
