import CorePlatform.Auth.Logout
import CorePlatform.Auth.Rotation

/-! Finality of revocation. A refresh that re-reads its session and finds none creates a
new one, so that a session revoked between its check and its re-read comes back. While no
refresh does so, only a login creates a session, under a device identifier of its own. -/
namespace CorePlatform.Auth
open Async Relational

variable {cfg : Config}

/-- A refresh that re-reads the session of its device finds a live one. -/
def RereadsLive (pool : AuthPool) (th : AuthThread) : Prop :=
  ∀ _token ∈ presented? th.request, ∀ w ∈ searched? th, w.deviceId.isSome →
    ∃ row ∈ pool.store.db.refreshTokens.rows, w.holds pool.store.db.users row

instance (pool : AuthPool) (th : AuthThread) : Decidable (RereadsLive pool th) :=
  inferInstanceAs (Decidable (∀ _token ∈ presented? th.request,
    ∀ w ∈ searched? th, w.deviceId.isSome →
    ∃ row ∈ pool.store.db.refreshTokens.rows, w.holds pool.store.db.users row))

/-- The condition on a step. -/
def Unrevoked (cfg : Config) (pool : AuthPool) : Step cfg → Prop
  | .run t choice => ∀ th ∈ pool.thread? t, choice.fault = false → RereadsLive pool th
  | _ => True

instance (pool : AuthPool) : (label : Step cfg) → Decidable (Unrevoked cfg pool label)
  | .run t choice => inferInstanceAs (Decidable (∀ th ∈ pool.thread? t, choice.fault = false →
      RereadsLive pool th))
  | .spawn _ | .act _ => isTrue trivial

abbrev Revocable (cfg : Config) (pool : AuthPool) : Prop :=
  (authSystem cfg).Reachable (Unrevoked cfg) NoSessions pool

/-- A call that logs in the account of an email. -/
def logsIn (email : String) : Call → Bool
  | .login userReq _ => userReq.email = email
  | _ => false

/-- No login of the account starts. -/
def NoLoginOf (email : String) : Step cfg → Prop
  | .spawn q => logsIn email q = false
  | _ => True

instance (email : String) : (label : Step cfg) → Decidable (NoLoginOf email label)
  | .spawn q => inferInstanceAs (Decidable (logsIn email q = false))
  | .run .. | .act _ => isTrue trivial

abbrev Drew (th : AuthThread) (d : String) : Prop := (⟨.randomUUID, .ok d⟩ : Ev) ∈ th.trace

section Seen

variable {cond : AuthPool → Step cfg → Prop} {init : Store → Prop} {pool : AuthPool}
  {t : Nat} {th : AuthThread}

theorem act_tables {a : EnvAct} {s s' : Store} (acted : act a s = some s') :
    s'.db.refreshTokens = s.db.refreshTokens ∧ s'.drawn = s.drawn := by
  cases a <;> cases Option.some.inj acted <;> exact ⟨rfl, rfl⟩

theorem act_users {a : EnvAct} {s s' : Store} (acted : act a s = some s') {user : User}
    (found : user ∈ s.db.users) : Remains s' user := by
  cases a with
  | tick ms =>
    cases Option.some.inj acted
    exact ⟨user, found, rfl, rfl⟩
  | setPermVersion userId version =>
    cases Option.some.inj acted
    exact remains_updateUser found

theorem Remains.trans {s s' : Store} {user : User} (remains : Remains s user)
    (step : ∀ user ∈ s.db.users, Remains s' user) : Remains s' user := by
  obtain ⟨user', found, id, email⟩ := remains
  obtain ⟨user'', found', id', email'⟩ := step user' found
  exact ⟨user'', found', id'.trans id, email'.trans email⟩

theorem Continues.trans {row row' row'' : RefreshToken} (first : Continues row row')
    (second : Continues row' row'') : Continues row row'' where
  id := second.id.trans first.id
  userId := second.userId.trans first.userId
  deviceId := second.deviceId.trans first.deviceId
  live live := first.live (second.live live)

/-- An account that a call has looked up is still there. -/
theorem account_remains (reachable : (authSystem cfg).Reachable cond init pool)
    (found : pool.thread? t = some th) {w : UserWhere} {user : User}
    (looked : (⟨.userFindFirst w, .ok (some user)⟩ : Ev) ∈ th.trace) :
    Remains pool.store user ∧ w.holds user := by
  refine reachable.seen (P := fun _ s e => ∀ w user,
    e = (⟨.userFindFirst w, .ok (some user)⟩ : Ev) →
    Remains s user ∧ w.holds user) found looked ?_ ?_ ?_ w user rfl
  · rintro pool t choice th c r s _ _ _ executed w user ⟨⟩
    obtain ⟨inTable, matching⟩ := exec_userFindFirst executed
    exact ⟨exec_users executed inTable, matching⟩
  · intro _ e c choice s r s' executed shown w user same
    obtain ⟨remains, matching⟩ := shown w user same
    exact ⟨remains.trans fun user inTable => exec_users executed inTable, matching⟩
  · intro _ e a s s' acted shown w user same
    obtain ⟨remains, matching⟩ := shown w user same
    exact ⟨remains.trans fun user inTable => act_users acted inTable, matching⟩

/-- The command has found a session. -/
inductive Finds (w : RefreshTokenWhere) (session : RefreshToken) : Ev → Prop where
  | alone : Finds w session ⟨.refreshTokenFindFirst w, .ok (some session)⟩
  | withUser (user : User) : Finds w session ⟨.refreshTokenFindFirstWithUser w,
      .ok (some (session, user))⟩

/-- A session that a call has found is still in the table. -/
theorem session_remains (reachable : (authSystem cfg).Reachable cond init pool)
    (found : pool.thread? t = some th) {w : RefreshTokenWhere} {session : RefreshToken} {e : Ev}
    (seen : e ∈ th.trace) (finds : Finds w session e) :
    (∃ row ∈ pool.store.db.refreshTokens, Continues session row) ∧
      ∀ d, w.deviceId = some d → d = session.deviceId := by
  refine reachable.seen (P := fun _ s e => ∀ w session, Finds w session e →
    (∃ row ∈ s.db.refreshTokens, Continues session row) ∧
      ∀ d, w.deviceId = some d → d = session.deviceId) found seen ?_ ?_ ?_ w session finds
  · rintro pool t choice th c r s _ _ _ executed w session (_ | user)
    · obtain ⟨inTable, matching⟩ := exec_findFirst executed
      exact ⟨(exec_session executed).onward inTable, fun d => holds_deviceId matching⟩
    · obtain ⟨inTable, matching, _⟩ := exec_findFirstWithUser executed
      exact ⟨(exec_session executed).onward inTable, fun d => holds_deviceId matching⟩
  · intro _ e c choice s r s' executed shown w session finds
    obtain ⟨⟨row, inTable, continues⟩, device⟩ := shown w session finds
    obtain ⟨row', inTable', next⟩ := (exec_session executed).onward inTable
    exact ⟨⟨row', inTable', continues.trans next⟩, device⟩
  · intro _ e a s s' acted shown w session finds
    rw [(act_tables acted).1]
    exact shown w session finds

theorem drew_drawn (reachable : (authSystem cfg).Reachable cond init pool)
    (found : pool.thread? t = some th) {d : String} (drew : Drew th d) : d ∈ pool.store.drawn := by
  refine reachable.seen (P := fun _ s e => ∀ d, e = (⟨.randomUUID, .ok d⟩ : Ev) → d ∈ s.drawn)
    found drew ?_ ?_ ?_ d rfl
  · rintro pool t choice th c r s _ _ _ executed d ⟨⟩
    exact (exec_randomUUID executed).2.1
  · intro _ e c choice s r s' executed shown d same
    exact exec_drawn executed (shown d same)
  · intro _ e a s s' acted shown d same
    rw [(act_tables acted).2]
    exact shown d same

/-- No refresh of a known device has re-read nothing. -/
theorem refresh_found (reachable : Revocable cfg pool) (found : pool.thread? t = some th)
    {token : Token} (presents : Presents th token) {w : RefreshTokenWhere}
    (device : w.deviceId.isSome) :
    (⟨.refreshTokenFindFirst w, .ok none⟩ : Ev) ∉ th.trace := by
  intro missed
  refine reachable.seen (P := fun q _ e => presented? q = some token →
    ∀ w, w.deviceId.isSome → e ≠ (⟨.refreshTokenFindFirst w, .ok none⟩ : Ev)) found missed ?_ ?_
      ?_ presents w device rfl
  · rintro pool t choice th c r s found next met executed presents w device ⟨⟩
    obtain ⟨row, inTable, matching⟩ := met th found (exec_answered executed) token presents w
      (by rw [searched?, next]; rfl) device
    exact exec_findFirst_none executed row inTable matching
  · exact fun _ _ _ _ _ _ _ _ shown => shown
  · exact fun _ _ _ _ _ _ shown => shown

end Seen

/-- While the condition holds, what is about to create a session is a login, for the
account it has looked up and under the device identifier it has drawn. -/
theorem create_by_login {pool : AuthPool} {t : Nat} {th : AuthThread}
    {data : RefreshTokenData} {d : String} (reachable : Revocable cfg pool)
    (found : pool.thread? t = some th) (next : th.next? = some (.refreshTokenCreate data))
    (device : data.deviceId = some d) :
    ∃ userReq req user, th.request = .login userReq req ∧ Drew th d ∧ Unstored th.trace ∧
      (⟨.userFindFirst { email := some userReq.email, isActive := some true },
        .ok (some user)⟩ : Ev) ∈ th.trace ∧ data.userId = user.id := by
  have point := reachable.point along_body found next
  cases request : th.request with
  | login userReq req =>
    rw [request] at point
    obtain ⟨userId, deviceId, ⟨d', user, rfl, drew, looked, rfl⟩, _, owner, same, _, unstored⟩ :=
      point
    cases Option.some.inj (same.symm.trans device)
    exact ⟨userReq, req, user, rfl, drew, unstored, looked, owner⟩
  | refresh presented deviceId req =>
    rw [request] at point
    obtain ⟨userId, dev, ⟨_, token, session, user, rfl, _⟩, head, _, same, _⟩ := point
    have presents : Presents th token := by rw [Presents, request]; rfl
    have known : (savedSession userId dev).deviceId.isSome := by
      rw [savedSession, ← same, device]
      rfl
    exact absurd (List.mem_of_mem_head? head) (refresh_found reachable found presents known)
  | _ =>
    rw [request] at point
    contradiction

/-- What is about to create a session is a login, under the device identifier it has drawn,
or a refresh of a device that has a session. -/
theorem create_device {cond : AuthPool → Step cfg → Prop} {init : Store → Prop}
    {pool : AuthPool} {t : Nat} {th : AuthThread} {data : RefreshTokenData} {d : String}
    (reachable : (authSystem cfg).Reachable cond init pool) (found : pool.thread? t = some th)
    (next : th.next? = some (.refreshTokenCreate data)) (device : data.deviceId = some d) :
    presented? th.request = none ∧ Drew th d ∧ Unstored th.trace ∨
      (∃ token, Presents th token) ∧ ∃ row ∈ pool.store.db.refreshTokens, row.deviceId = d := by
  have point := reachable.point along_body found next
  cases request : th.request with
  | login userReq req =>
    rw [request] at point
    obtain ⟨userId, deviceId, ⟨d', user, rfl, drew, _⟩, _, _, same, _, unstored⟩ := point
    cases Option.some.inj (same.symm.trans device)
    exact .inl ⟨rfl, drew, unstored⟩
  | refresh presented deviceId req =>
    rw [request] at point
    obtain ⟨userId, dev, ⟨rfl, token, session, user, rfl, ⟨⟨w, rfl, _, seen⟩, _⟩, _⟩, _, _, same, _⟩ :=
      point
    obtain ⟨⟨row, inTable, continues⟩, known⟩ :=
      session_remains reachable found seen (.withUser user)
    have presents : Presents th token := by rw [Presents, request]; rfl
    exact .inr ⟨⟨token, presents⟩, row, inTable,
      continues.deviceId.trans (known d (same.symm.trans device)).symm⟩
  | _ =>
    rw [request] at point
    contradiction

/-- The identifiers of the devices that have sessions have been drawn. -/
def DevicesDrawn (s : Store) : Prop := ∀ row ∈ s.db.refreshTokens, row.deviceId ∈ s.drawn

theorem NoSessions.drawn {s : Store} (start : NoSessions s) : DevicesDrawn s := by
  intro row found
  rw [← Table.mem_rows, start] at found
  exact absurd found List.not_mem_nil

/-- The invariant of drawn identifiers: no two logins draw the same one, and a device has no
session as long as the login that has drawn its identifier has stored nothing. -/
structure DrawnInv (pool : AuthPool) : Prop where
  drawn : DevicesDrawn pool.store
  distinct : ∀ t th t' th' d, pool.thread? t = some th → pool.thread? t' = some th' →
    Drew th d → Drew th' d → t = t'
  unused : ∀ t th d, pool.thread? t = some th → Drew th d → Unstored th.trace →
    ∀ row ∈ pool.store.db.refreshTokens, row.deviceId ≠ d

section Drawn

variable {cond : AuthPool → Step cfg → Prop} {init : Store → Prop} {pool pool' : AuthPool}

/-- No new event and no new session. -/
theorem DrawnInv.of_threads (inv : DrawnInv pool)
    (rows : pool'.store.db.refreshTokens = pool.store.db.refreshTokens)
    (drawn : pool'.store.drawn = pool.store.drawn)
    (threads : ∀ t th, pool'.thread? t = some th → pool.thread? t = some th ∨ th.trace = []) :
    DrawnInv pool' := by
  have started : ∀ t th d, pool'.thread? t = some th → Drew th d → pool.thread? t = some th := by
    intro t th d found drew
    rcases threads t th found with old | fresh
    · exact old
    · rw [Drew, fresh] at drew
      exact absurd drew List.not_mem_nil
  constructor
  · rw [DevicesDrawn, rows, drawn]
    exact inv.drawn
  · intro t th t' th' d found found' drew drew'
    exact inv.distinct t th t' th' d (started t th d found drew)
      (started t' th' d found' drew') drew drew'
  · intro t th d found drew unstored
    rw [rows]
    exact inv.unused t th d (started t th d found drew) drew unstored

section Ran

variable {t : Nat} {choice : Choice} {th : AuthThread} {c : Cmd} {r : Except Exn c.Resp} {s : Store}

/-- The devices after a step had sessions before, or the stepping login has drawn theirs. -/
theorem device_rows (reachable : (authSystem cfg).Reachable cond init pool)
    (found : pool.thread? t = some th) (next : th.next? = some c)
    (executed : exec c choice pool.store = some (r, s)) :
    ∀ row' ∈ s.db.refreshTokens, (∃ row ∈ pool.store.db.refreshTokens,
      row.deviceId = row'.deviceId) ∨ Drew th row'.deviceId ∧ (stored? ⟨c, r⟩).isSome := by
  obtain ⟨id, rows⟩ := (exec_session executed).back
  intro row' inTable
  rcases rows row' inTable with ⟨row, inOld, continues⟩ | ⟨data, ⟨⟩, _, device, _⟩
  · exact .inl ⟨row, inOld, continues.deviceId.symm⟩
  · rcases create_device reachable found next device with ⟨_, drew, _⟩ | ⟨_, known⟩
    · exact .inr ⟨drew, rfl⟩
    · exact .inl known

theorem DrawnInv.run (inv : DrawnInv pool) (reachable : (authSystem cfg).Reachable cond init pool)
    (found : pool.thread? t = some th) (next : th.next? = some c)
    (executed : exec c choice pool.store = some (r, s)) (rest : Action Reply) :
    DrawnInv (({ pool with store := s } : AuthPool).set t ⟨th.request, ⟨c, r⟩ ::
      th.trace, rest⟩) := by
  have rows := device_rows reachable found next executed
  -- what a call has drawn, it drew before, or just now and anew
  have drawn : ∀ u uth d, (({ pool with store := s } : AuthPool).set t ⟨th.request, ⟨c, r⟩ ::
      th.trace, rest⟩).thread? u =
      some uth → Drew uth d → (∃ old, pool.thread? u = some old ∧ Drew old d ∧ (Unstored uth.trace →
        Unstored old.trace ∧ (u = t → stored? ⟨c, r⟩ = none))) ∨
        (u = t ∧ d ∉ pool.store.drawn ∧ s.db = pool.store.db) := by
    intro u uth d uFound drew
    rcases Pool.set_cases uFound with ⟨rfl, rfl⟩ | ⟨other, old⟩
    · rcases List.mem_cons.mp drew with now | before
      · cases now
        obtain ⟨fresh, _, same⟩ := exec_randomUUID executed
        exact .inr ⟨rfl, fresh, same⟩
      · refine .inl ⟨th, found, before, fun unstored =>
          ⟨?_, fun _ => unstored _ List.mem_cons_self⟩⟩
        exact fun e inTrace => unstored e (List.mem_cons_of_mem _ inTrace)
    · exact .inl ⟨uth, old, drew, fun unstored => ⟨unstored, fun same => absurd same other⟩⟩
  constructor
  · intro row' inTable
    rcases rows row' inTable with ⟨row, inOld, same⟩ | ⟨drew, _⟩
    · exact exec_drawn executed (same ▸ inv.drawn row inOld)
    · exact exec_drawn executed (drew_drawn reachable found drew)
  · intro u uth u' uth' d uFound uFound' drew drew'
    rcases drawn u uth d uFound drew with ⟨old, before, drewOld, _⟩ | ⟨rfl, fresh, _⟩ <;>
      rcases drawn u' uth' d uFound' drew' with ⟨old', before', drewOld', _⟩ | ⟨rfl, fresh', _⟩
    · exact inv.distinct u old u' old' d before before' drewOld drewOld'
    · exact absurd (drew_drawn reachable before drewOld) fresh'
    · exact absurd (drew_drawn reachable before' drewOld') fresh
    · rfl
  · intro u uth d uFound drew unstored row' inTable same
    rcases drawn u uth d uFound drew with ⟨old, before, drewOld, quiet⟩ | ⟨rfl, fresh, db⟩
    · obtain ⟨unstoredOld, nothing⟩ := quiet unstored
      rcases rows row' inTable with ⟨row, inOld, known⟩ | ⟨drewHere, stores⟩
      · exact inv.unused u old d before drewOld unstoredOld row inOld (known.trans same)
      · subst same
        rw [nothing (inv.distinct u old t th _ before found drewOld drewHere)] at stores
        contradiction
    · have inOld : row' ∈ pool.store.db.refreshTokens := db ▸ inTable
      exact fresh (same ▸ inv.drawn row' inOld)

end Ran

theorem drawn_invariant (reachable : (authSystem cfg).Reachable cond init pool)
    (start : ∀ s, init s → DevicesDrawn s) :
    DrawnInv pool := by
  refine reachable.invariant (P := DrawnInv) ?_ fun pool label pool' before _ inv _ effect => ?_
  · intro s initial
    have idle : ∀ t th, (System.idle s : AuthPool).thread? t ≠ some th := by
      intro t th found
      cases found
    constructor
    · exact start s initial
    · exact fun t th _ _ _ found => absurd found (idle t th)
    · exact fun t th _ found => absurd found (idle t th)
  · cases effect with
    | spawn q =>
      refine inv.of_threads rfl rfl fun u th found => ?_
      rcases Pool.add_cases found with ⟨_, rfl⟩ | old
      · exact .inr rfl
      · exact .inl old
    | run t choice th c k r s found awaits executed =>
      exact inv.run before found (by rw [Thread.next?, awaits]) executed (k r)
    | act a s acted =>
      obtain ⟨rows, drawn⟩ := act_tables acted
      exact inv.of_threads rows drawn fun u th found => .inl found

end Drawn

/-- The invariant of device identifiers. A device has one session at most, and none as
long as the login that has drawn its identifier has stored nothing. -/
structure DevicesInv (pool : AuthPool) : Prop where
  drawn : ∀ row ∈ pool.store.db.refreshTokens, row.deviceId ∈ pool.store.drawn
  devices : ∀ row ∈ pool.store.db.refreshTokens, ∀ row' ∈ pool.store.db.refreshTokens,
    row.deviceId = row'.deviceId → row = row'
  distinct : ∀ t th t' th' d, pool.thread? t = some th → pool.thread? t' = some th' →
    Drew th d → Drew th' d → t = t'
  unused : ∀ t th d, pool.thread? t = some th → Drew th d → Unstored th.trace →
    ∀ row ∈ pool.store.db.refreshTokens, row.deviceId ≠ d

theorem devices_invariant {pool : AuthPool} (reachable : Revocable cfg pool) : DevicesInv pool := by
  obtain ⟨drawn, distinct, unused⟩ := drawn_invariant reachable fun _ => NoSessions.drawn
  refine ⟨drawn, ?_, distinct, unused⟩
  refine reachable.invariant (P := fun pool => ∀ row ∈ pool.store.db.refreshTokens,
    ∀ row' ∈ pool.store.db.refreshTokens, row.deviceId = row'.deviceId → row = row') ?_ ?_
  · intro s start row found
    rw [← Table.mem_rows, System.idle, start] at found
    exact absurd found List.not_mem_nil
  · intro pool label pool' before _ devices _ effect
    cases effect with
    | spawn q => exact devices
    | act a s acted => rwa [(act_tables acted).1]
    | run t choice th c k r s found awaits executed =>
      have next : th.next? = some c := by rw [Thread.next?, awaits]
      have drawn := drawn_invariant before fun _ => NoSessions.drawn
      -- a session that is new is the first one of its device
      obtain ⟨id, rows⟩ := (exec_session executed).back
      have first : ∀ (data : RefreshTokenData) (row' : RefreshToken),
          (⟨c, r⟩ : Ev) = ⟨.refreshTokenCreate data, .ok ()⟩ → data.deviceId = some row'.deviceId →
          ∀ row ∈ pool.store.db.refreshTokens, row.deviceId ≠ row'.deviceId := by
        rintro data row' ⟨⟩ device
        obtain ⟨userReq, req, user, _, drew, unstored, _⟩ :=
          create_by_login before found next device
        exact drawn.unused t th _ found drew unstored
      intro row inTable row' inTable' same
      apply Table.eq_of_key inTable inTable'
      rcases rows row inTable with ⟨old, inOld, continues⟩ | ⟨data, created, _, device, here⟩ <;>
        rcases rows row' inTable' with ⟨old', inOld', continues'⟩ | ⟨data',
          created', _, device', here'⟩
      · rw [continues.deviceId, continues'.deviceId] at same
        rw [continues.id, continues'.id, devices old inOld old' inOld' same]
      · exact absurd (continues.deviceId.symm.trans same)
          (first data' row' created' device' old inOld)
      · exact absurd (continues'.deviceId.symm.trans same.symm)
          (first data row created device old' inOld')
      · exact here.trans here'.symm

section Finality

variable {pool pool' : AuthPool}

/-- All sessions of an account are revoked, and none of its logins is in progress. -/
structure LoggedOut (user : User) (pool : AuthPool) : Prop where
  registered : Remains pool.store user
  revoked : NoLiveSession user.id pool.store
  ended : ∀ t th, pool.thread? t = some th → logsIn user.email th.request = true → th.result?.isSome

theorem LoggedOut.step {user : User} {label : Step cfg} (out : LoggedOut user pool)
    (reachable : Revocable cfg pool) (quiet : NoLoginOf user.email label)
    (effect : System.Effect (authSystem cfg) pool label pool') : LoggedOut user pool' := by
  cases effect with
  | spawn q =>
    refine ⟨out.registered, out.revoked, fun u uth found logs => ?_⟩
    rcases Pool.add_cases found with ⟨_, rfl⟩ | old
    · exact absurd logs (Bool.eq_false_iff.mp quiet)
    · exact out.ended u uth old logs
  | act a s acted =>
    refine ⟨out.registered.trans fun user found => act_users acted found, ?_, out.ended⟩
    simp only [NoLiveSession, (act_tables acted).1]
    exact out.revoked
  | run t choice th c k r s found awaits executed =>
    have next : th.next? = some c := by rw [Thread.next?, awaits]
    have running : th.result? = none := Thread.result?_none next
    refine ⟨out.registered.trans fun user inTable => exec_users executed inTable, ?_, ?_⟩
    · intro row' inTable owner live
      obtain ⟨id, rows⟩ := (exec_session executed).back
      rcases rows row' inTable with ⟨row, inOld, continues⟩ | ⟨data, ⟨⟩, sameUser, device, _⟩
      · exact out.revoked row inOld (continues.userId.symm.trans owner) (continues.live live)
      · -- the creating login is one of the account, and has not ended
        obtain ⟨userReq, req, account, request, _, _, looked, ofAccount⟩ :=
          create_by_login reachable found next device
        obtain ⟨⟨current, inUsers, currentId, currentEmail⟩, matching⟩ :=
          account_remains reachable found looked
        obtain ⟨registered, inUsers', registeredId, registeredEmail⟩ := out.registered
        have same : current = registered := Table.eq_of_key inUsers inUsers' (by
          rw [currentId, registeredId, ← ofAccount, ← sameUser, owner])
        have email : userReq.email = account.email := by
          simp only [UserWhere.holds, Option.all_some, Option.all_none,
            Bool.true_and, Bool.and_eq_true, beq_iff_eq] at matching
          exact matching.1
        have logs : logsIn user.email th.request = true := by
          rw [request, logsIn, email, ← currentEmail, same, registeredEmail]
          exact decide_eq_true rfl
        have finished := out.ended t th found logs
        rw [running] at finished
        contradiction
    · intro u uth uFound logs
      rcases Pool.set_cases uFound with ⟨rfl, rfl⟩ | ⟨_, old⟩
      · have finished := out.ended u th found logs
        rw [running] at finished
        contradiction
      · exact out.ended u uth old logs

theorem LoggedOut.run {user : User} (out : LoggedOut user pool) (reachable : Revocable cfg pool)
    (run : (authSystem cfg).Run (fun pool label => Unrevoked cfg pool label ∧
      NoLoginOf user.email label)
      pool pool') : NoLiveSession user.id pool'.store := by
  have both : Revocable cfg pool' ∧ LoggedOut user pool' := by
    refine System.Run.invariant (P := fun pool => Revocable cfg pool ∧ LoggedOut user pool) ?_ run
      ⟨reachable, out⟩
    rintro pool label pool' ⟨reachable, out⟩ ⟨met, quiet⟩ stepped
    exact ⟨reachable.head stepped met, out.step reachable quiet (System.step_effect stepped)⟩
  exact both.2.revoked

/-- The one session of a device is revoked. -/
def DeviceRevoked (deviceId : String) (pool : AuthPool) : Prop :=
  ∃ row ∈ pool.store.db.refreshTokens, row.deviceId = deviceId ∧ row.revokedAt ≠ none

theorem DeviceRevoked.step {deviceId : String} {label : Step cfg}
    (revoked : DeviceRevoked deviceId pool)
    (effect : System.Effect (authSystem cfg) pool label pool') : DeviceRevoked deviceId pool' := by
  obtain ⟨row, inTable, device, dead⟩ := revoked
  cases effect with
  | spawn q => exact ⟨row, inTable, device, dead⟩
  | act a s acted => exact ⟨row, (act_tables acted).1 ▸ inTable, device, dead⟩
  | run t choice th c k r s found awaits executed =>
    obtain ⟨row', inTable', continues⟩ := (exec_session executed).onward inTable
    exact ⟨row', inTable', continues.deviceId.trans device, fun live => dead (continues.live live)⟩

theorem DeviceRevoked.run {deviceId : String} (revoked : DeviceRevoked deviceId pool)
    (reachable : Revocable cfg pool) (run : (authSystem cfg).Run (Unrevoked cfg) pool pool') :
    ∀ row ∈ pool'.store.db.refreshTokens, row.deviceId = deviceId → row.revokedAt ≠ none := by
  have both : Revocable cfg pool' ∧ DeviceRevoked deviceId pool' := by
    refine System.Run.invariant (P := fun pool => Revocable cfg pool ∧
      DeviceRevoked deviceId pool) ?_ run
      ⟨reachable, revoked⟩
    rintro pool label pool' ⟨reachable, revoked⟩ met stepped
    exact ⟨reachable.head stepped met, revoked.step (System.step_effect stepped)⟩
  obtain ⟨reachable', dead, inTable, device, gone⟩ := both
  intro row found same
  rw [(devices_invariant reachable').devices row found dead inTable (same.trans device.symm)]
  exact gone

theorem noLiveSession_revokeAll {s : Store} {userId : Option String} {u : String} {revokedAt : Nat}
    (covers : ∀ v, userId = some v → v = u) :
    NoLiveSession u (s.revokeMany { userId, live := true } revokedAt) := by
  intro row found owner
  obtain ⟨old, _, rfl⟩ := mem_revokeMany.mp found
  split
  · nofun
  · rename_i unmatched
    rw [if_neg unmatched] at owner
    exact fun live => unmatched ((holds_live userId none old).mpr
      ⟨fun v given => (covers v given).trans owner.symm, nofun, live⟩)

/-- The update of a `logoutDevice` leaves the session of the device revoked. -/
theorem deviceRevoked_of_logout {t : Nat} {th : AuthThread}
    {w : RefreshTokenWhere} {revokedAt : Nat} {deviceId : String} {user : Js} {token : Option Token}
    (reachable : Revocable cfg pool) (found : pool.thread? t = some th)
    (request : th.request = .logoutDevice (some deviceId) user token)
    (next : th.next? = some (.refreshTokenRevokeMany w revokedAt))
    (store : pool'.store = pool.store.revokeMany w revokedAt) : DeviceRevoked deviceId pool' := by
  have point := reachable.point along_body found next
  rw [request] at point
  obtain ⟨session, seen, rfl⟩ := point
  obtain ⟨⟨row, inTable, continues⟩, device⟩ := session_remains reachable found seen .alone
  refine ⟨{ row with revokedAt := some revokedAt }, ?_, ?_, nofun⟩
  · rw [store]
    exact mem_revokeMany.mpr ⟨row, inTable, if_pos ((holds_id ..).mpr continues.id.symm)⟩
  · exact continues.deviceId.trans (device deviceId rfl).symm

/-- An answered update of many sessions, and the threads it leaves. -/
theorem step_revokes {t : Nat} {choice : Choice} {th : AuthThread}
    {w : RefreshTokenWhere} {revokedAt : Nat} (found : pool.thread? t = some th)
    (next : th.next? = some (.refreshTokenRevokeMany w revokedAt)) (answered : choice.fault = false)
    (stepped : (authSystem cfg).step pool (.run t choice) = some pool') :
    pool'.store = pool.store.revokeMany w revokedAt ∧ ∀ u uth, pool'.thread? u = some uth →
      uth.request = th.request ∨ pool.thread? u = some uth := by
  cases System.step_effect stepped with
  | run _ _ th' c k r s found' awaits executed =>
    cases Option.some.inj (found.symm.trans found')
    have same : c = .refreshTokenRevokeMany w revokedAt := by
      rw [Thread.next?, awaits] at next
      exact Option.some.inj next
    subst same
    constructor
    · exact exec_revokeMany executed answered
    · intro u uth uFound
      rcases Pool.set_cases uFound with ⟨_, rfl⟩ | ⟨_, old⟩
      · exact .inl rfl
      · exact .inr old

/-- After the update of a `logoutAllDevices` of an account, no login of which is in
progress, none of its sessions is live until one of its logins starts. -/
def LogoutAllFinal (cfg : Config) (cond : AuthPool → Step cfg → Prop) : Prop :=
  ∀ (pool pool' later : AuthPool) (t : Nat) (choice : Choice) (th : AuthThread)
    (userId : Option String)
    (revokedAt : Nat) (user : User),
    (authSystem cfg).Reachable cond NoSessions pool → pool.thread? t = some th →
    th.next? = some (.refreshTokenRevokeMany { userId, live := true } revokedAt) →
    choice.fault = false → (authSystem cfg).step pool (.run t choice) = some pool' →
    user ∈ pool.store.db.users → (∀ v, userId = some v → v = user.id) →
    (∀ u uth, pool.thread? u = some uth → logsIn user.email uth.request = true →
      uth.result?.isSome) →
    (authSystem cfg).Run (fun pool label => cond pool label ∧
      NoLoginOf user.email label) pool' later → NoLiveSession user.id later.store

/-- After the update of a `logoutDevice`, no session of the device is ever live again. -/
def LogoutDeviceFinal (cfg : Config) (cond : AuthPool → Step cfg → Prop) : Prop :=
  ∀ (pool pool' later : AuthPool) (t : Nat) (choice : Choice) (th : AuthThread)
    (w : RefreshTokenWhere)
    (revokedAt : Nat) (deviceId : String) (user : Js) (token : Option Token),
    (authSystem cfg).Reachable cond NoSessions pool → pool.thread? t = some th →
    th.request = .logoutDevice (some deviceId) user token →
    th.next? = some (.refreshTokenRevokeMany w revokedAt) →
    choice.fault = false → (authSystem cfg).step pool (.run t choice) = some pool' →
    (authSystem cfg).Run cond pool' later →
      ∀ row ∈ later.store.db.refreshTokens, row.deviceId = deviceId → row.revokedAt ≠ none

/-- No refresh re-reads at a revocation. -/
theorem unrevoked_revoke {t : Nat} {choice : Choice} {th : AuthThread}
    {w : RefreshTokenWhere} {revokedAt : Nat} (found : pool.thread? t = some th)
    (next : th.next? = some (.refreshTokenRevokeMany w revokedAt)) :
    Unrevoked cfg pool (.run t choice) := by
  intro th' found' _ _ _ w' searched
  cases Option.some.inj (found.symm.trans found')
  rw [searched?, next] at searched
  contradiction

/-- Revocation is final in every run whose refreshes re-read a live session. -/
theorem revocation_is_final : LogoutAllFinal cfg (Unrevoked cfg) ∧
    LogoutDeviceFinal cfg (Unrevoked cfg) := by
  constructor
  · intro pool pool' later t choice th userId revokedAt user reachable found next answered stepped
      registered covers ended run
    have after : Revocable cfg pool' := reachable.head stepped (unrevoked_revoke found next)
    obtain ⟨store, threads⟩ := step_revokes found next answered stepped
    refine LoggedOut.run ⟨?_, ?_, fun u uth uFound logs => ?_⟩ after run
    · exact ⟨user, by rw [store]; exact registered, rfl, rfl⟩
    · rw [store]
      exact noLiveSession_revokeAll covers
    · rcases threads u uth uFound with request | old
      · have finished := ended t th found (request ▸ logs)
        have running := Thread.result?_none next
        rw [running] at finished
        contradiction
      · exact ended u uth old logs
  · intro pool pool' later t choice th w revokedAt deviceId user token reachable
      found request next answered
      stepped run
    have after : Revocable cfg pool' := reachable.head stepped (unrevoked_revoke found next)
    obtain ⟨store, _⟩ := step_revokes found next answered stepped
    exact (deviceRevoked_of_logout reachable found request next store).run after run

end Finality

section Sample

/-- A principal as the logout methods expect it. -/
def principal (userId : String) : Js := .obj [("id", .str userId)]

/-- A refresh that has checked the session of the login and not yet re-read it. -/
def checkedSteps : List SampleStep :=
  loginSteps ++ [.act (.tick 1000), .spawn (.refresh (some firstToken) (some laptopId) {})] ++
    steps 1 (List.replicate 6 "")

/-- Then a `logoutAll` of the user, up to its update. -/
def logoutAllSteps : List SampleStep :=
  checkedSteps ++ [.spawn (.logoutAll (principal aliceId))] ++ steps 2 [""]

/-- Then a `logoutDevice`, up to its update. -/
def logoutDeviceSteps : List SampleStep :=
  checkedSteps ++ [.spawn (.logoutDevice (some laptopId) (principal aliceId) (some firstToken))] ++
    steps 2 ["", ""]

/-- The rest of the refresh: the re-read and the create. -/
def revivingSteps : List SampleStep := steps 1 ["", sessionId2]

/-- What call 2 is about to revoke, with its request. -/
def revokes (pool : AuthPool) : Option (Call × RefreshTokenWhere) :=
  match pool.thread? 2 with
  | some ⟨request, _, .await (.refreshTokenRevokeMany w _) _⟩ => some (request, w)
  | _ => none

theorem revokes_next {pool : AuthPool} {request : Call} {w : RefreshTokenWhere}
    (about : revokes pool = some (request, w)) : ∃ th revokedAt, pool.thread? 2 = some th ∧
      th.request = request ∧ th.next? = some (.refreshTokenRevokeMany w revokedAt) := by
  unfold revokes at about
  split at about
  · rename_i found
    cases Option.some.inj about
    exact ⟨_, _, found, rfl, rfl⟩
  · contradiction

def liveOn (deviceId : String) (pool : AuthPool) : Bool :=
  pool.store.db.refreshTokens.rows.any fun row =>
    row.userId = loginUser.id && row.deviceId = deviceId && row.revokedAt.isNone

theorem liveOn_iff {deviceId : String} {pool : AuthPool} : liveOn deviceId pool = true ↔
    ∃ row ∈ pool.store.db.refreshTokens, row.userId = loginUser.id ∧ row.deviceId = deviceId ∧
      row.revokedAt = none := by
  simp [liveOn, Table.mem_rows, and_assoc]

section Replay

variable (cond : AuthPool → SampleStep → Prop) [∀ pool label, Decidable (cond pool label)]

/-- Replay a schedule, the update of call 2, and a schedule in which no login of the user
starts, with a test before the update and one at the end. -/
def replayRevoked (before after : List SampleStep) (test last : AuthPool → Bool) : Bool :=
  ((authSystem Config.default).replay cond (System.idle loginStore) before).any fun pool =>
    test pool && ((authSystem Config.default).step pool (.run 2 {})).any fun pool' =>
      ((authSystem Config.default).replay (fun pool label => cond pool label ∧
        NoLoginOf loginUser.email label)
        pool' after).any last

theorem replayRevoked_runs {cond} {before after : List SampleStep} {test last : AuthPool → Bool}
    [∀ pool label, Decidable (cond pool label)]
    (replayed : replayRevoked cond before after test last = true) : ∃ pool pool' later,
      (authSystem Config.default).Reachable cond NoSessions pool ∧ test pool = true ∧
      (authSystem Config.default).step pool (.run 2 {}) = some pool' ∧
      (authSystem Config.default).Run (fun pool label => cond pool label ∧
        NoLoginOf loginUser.email label)
        pool' later ∧ last later = true := by
  obtain ⟨pool, before, rest⟩ := (Option.any_eq_true ..).mp replayed
  obtain ⟨tested, rest⟩ := (Bool.and_eq_true ..).mp rest
  obtain ⟨pool', stepped, rest⟩ := (Option.any_eq_true ..).mp rest
  obtain ⟨later, run, ended⟩ := System.run_of_replay rest
  exact ⟨pool, pool', later, ⟨loginStore, rfl, System.run_replay before⟩,
    tested, stepped, run, ended⟩

end Replay

/-- Call 2 logs out the user everywhere, and no login runs. -/
def logsOutAll (pool : AuthPool) : Bool :=
  (revokes pool).any (fun about => about.2 = { userId := some loginUser.id, live := true }) &&
    decide (loginUser ∈ pool.store.db.users) &&
    pool.threads.all fun th => !logsIn loginUser.email th.request || th.result?.isSome

theorem logsOutAll_spec {pool : AuthPool} (about : logsOutAll pool = true) :
    (∃ th revokedAt, pool.thread? 2 = some th ∧
      th.next? = some (.refreshTokenRevokeMany
        { userId := some loginUser.id, live := true } revokedAt)) ∧
    loginUser ∈ pool.store.db.users ∧
    ∀ u uth, pool.thread? u = some uth → logsIn loginUser.email uth.request = true →
      uth.result?.isSome := by
  simp only [logsOutAll, Bool.and_eq_true, decide_eq_true_eq, List.all_eq_true, Bool.or_eq_true,
    Bool.not_eq_eq_eq_not, Bool.not_true] at about
  obtain ⟨⟨revoking, registered⟩, ended⟩ := about
  obtain ⟨⟨request, w⟩, about, same⟩ := (Option.any_eq_true ..).mp revoking
  cases of_decide_eq_true same
  obtain ⟨th, revokedAt, found, _, next⟩ := revokes_next about
  refine ⟨⟨th, revokedAt, found, next⟩, registered, fun u uth uFound logs => ?_⟩
  have quiet := ended uth (Pool.mem_threads.mpr ⟨u, uFound⟩)
  rw [logs] at quiet
  exact quiet.resolve_left nofun

/-- Call 2 logs out the device of the login. -/
def logsOutDevice (pool : AuthPool) : Bool :=
  (revokes pool).any fun
    | (.logoutDevice (some laptopId) user _, _) => user.get "id" = .str loginUser.id
    | _ => false

theorem logsOutDevice_spec {pool : AuthPool} (about : logsOutDevice pool = true) :
    ∃ th user token w revokedAt, pool.thread? 2 = some th ∧
    th.request = .logoutDevice (some laptopId) user token ∧
      th.next? = some (.refreshTokenRevokeMany w revokedAt) := by
  obtain ⟨⟨request, w⟩, about, same⟩ := (Option.any_eq_true ..).mp about
  obtain ⟨th, revokedAt, found, rfl, next⟩ := revokes_next about
  split at same
  · rename_i user token _ both
    exact ⟨th, user, token, w, revokedAt, found, (Prod.mk.inj both).1, next⟩
  · contradiction

/-- A session that is revoked between the check and the re-read of a refresh is live again
when the refresh has written, after either kind of logout. -/
theorem session_revived_by_refresh : ¬ LogoutAllFinal Config.default System.Any ∧
    ¬ LogoutDeviceFinal Config.default System.Any := by
  constructor
  · intro claim
    have replayed : replayRevoked System.Any logoutAllSteps revivingSteps logsOutAll
        (liveOn laptopId) = true := by
      decide +kernel
    obtain ⟨pool, pool', later, reachable, about, stepped, run, live⟩ := replayRevoked_runs replayed
    obtain ⟨⟨th, revokedAt, found, next⟩, registered, ended⟩ := logsOutAll_spec about
    obtain ⟨row, inTable, owner, _, alive⟩ := liveOn_iff.mp live
    have owned : ∀ v, some loginUser.id = some v → v = loginUser.id := by rintro v ⟨⟩; rfl
    exact claim pool pool' later 2 {} th
      (some loginUser.id) revokedAt loginUser reachable found next rfl
      stepped registered owned ended run row inTable owner alive
  · intro claim
    have replayed : replayRevoked System.Any logoutDeviceSteps revivingSteps logsOutDevice
        (liveOn laptopId) = true := by
      decide +kernel
    obtain ⟨pool, pool', later, reachable, about, stepped, run, live⟩ := replayRevoked_runs replayed
    obtain ⟨th, user, token, w, revokedAt, found, request, next⟩ := logsOutDevice_spec about
    obtain ⟨row, inTable, _, device, alive⟩ := liveOn_iff.mp live
    have unquiet : (authSystem Config.default).Run System.Any pool' later :=
      System.Run.mono run fun _ _ both => both.1
    exact claim pool pool' later 2 {} th w revokedAt laptopId user token reachable
      found request next rfl
      stepped unquiet row inTable device alive

/-- The refresh has ended before the logout, and another one comes after it. -/
def finalSteps : List SampleStep :=
  checkedSteps ++ steps 1 (List.replicate 5 "") ++
    [.spawn (.logoutAll (principal aliceId))] ++ steps 2 [""]

/-- In a conforming run the sessions of the user stay revoked. -/
theorem revocation_is_final_sample : ∃ pool pool' later,
    (authSystem Config.default).Reachable (Unrevoked Config.default) NoSessions pool ∧
    (authSystem Config.default).step pool (.run 2 {}) = some pool' ∧
    (authSystem Config.default).Run (Unrevoked Config.default) pool' later ∧
    later.threads.length = 4 ∧ NoLiveSession loginUser.id later.store := by
  have replayed : replayRevoked (Unrevoked Config.default) finalSteps
      (.spawn (.refresh (some firstToken) (some laptopId) {}) ::
        steps 3 (List.replicate 5 "")) logsOutAll
      (fun later => later.threads.length = 4) = true := by decide +kernel
  obtain ⟨pool, pool', later, reachable, about, stepped, run, ended⟩ := replayRevoked_runs replayed
  obtain ⟨⟨th, revokedAt, found, next⟩, registered, quiet⟩ := logsOutAll_spec about
  have owned : ∀ v, some loginUser.id = some v → v = loginUser.id := by rintro v ⟨⟩; rfl
  have conforms : (authSystem Config.default).Run (Unrevoked Config.default) pool' later :=
    System.Run.mono run fun _ _ both => both.1
  exact ⟨pool, pool', later, reachable, stepped, conforms, of_decide_eq_true ended,
    revocation_is_final.1 pool pool' later 2 {} th
      (some loginUser.id) revokedAt loginUser reachable found next
      rfl stepped registered owned quiet run⟩

end Sample
end CorePlatform.Auth
