import CorePlatform.Async.Journal
import CorePlatform.Auth.Revocation

/-! Who has sessions. An account is registered inactive and becomes active in
`veryfiRegister`, which has found its code. A login saves a session for an account that it
has looked up as active, a refresh for one that had a session already. -/
namespace CorePlatform.Auth
open Async Relational

variable {cfg : Config}

abbrev AuthJournal := Journal Api Exn Store

/-- A database without users, and so without rows that refer to one. -/
def NoUsers (s : Store) : Prop := s.db.users.rows = [] ∧ s.db.refreshTokens.rows = []

def ActiveAccount (s : Store) (id : String) : Prop :=
  ∃ user ∈ s.db.users, user.id = id ∧ user.isActive = true

/-- Every session, revoked or not, is one of an active account. -/
def SessionsVerified (s : Store) : Prop := ∀ row ∈ s.db.refreshTokens, ActiveAccount s row.userId

/-- A `veryfiRegister` has found the code it was given in the account's row, expiring after
the time it has read off the clock. -/
def Proven (journal : AuthJournal) (pool : AuthPool) (id : String) : Prop :=
  ∃ clock ∈ journal, ∃ search ∈ journal, ∃ th email code w otp,
    pool.thread? search.call = some th ∧ th.request = .verify email code ∧
    clock.call = search.call ∧
    clock.event = ⟨.now, .ok clock.before.now⟩ ∧
    search.event = ⟨.emailOtpFindFirst w, .ok (some otp)⟩ ∧
    otp ∈ search.before.db.emailOtps ∧ otp.userId = id ∧ otp.codeHash = code ∧
    clock.before.now < otp.expiresAt

section Accounts

variable {s s' : Store} {id : String}

theorem active_updateUser {userId : String} {f : User → User} {same : ∀ u, (f u).id = u.id}
    {email : ∀ u, (f u).email = u.email} (kept : ∀ u, (f u).isActive = u.isActive) :
    ActiveAccount (s.updateUser userId f same email) id ↔ ActiveAccount s id := by
  constructor
  · rintro ⟨user, found, rfl, activated⟩
    obtain ⟨old, inTable, rfl⟩ := mem_updateUser.mp found
    refine ⟨old, inTable, ?_⟩
    split at activated
    · rename_i target
      rw [if_pos target]
      exact ⟨(same old).symm, (kept old).symm.trans activated⟩
    · rename_i other
      rw [if_neg other]
      exact ⟨rfl, activated⟩
  · rintro ⟨user, found, rfl, activated⟩
    refine ⟨_, mem_updateUser.mpr ⟨user, found, rfl⟩, ?_⟩
    split
    · exact ⟨same user, (kept user).trans activated⟩
    · exact ⟨rfl, activated⟩

theorem active_activate {user : User} (found : user ∈ s.db.users) :
    ActiveAccount (s.updateUser user.id fun u => { u with isActive := true }) user.id :=
  ⟨{ user with isActive := true }, mem_updateUser.mpr ⟨user, found, if_pos rfl⟩, rfl, rfl⟩

/-- An active account stays active. -/
theorem UsersEffect.active {c : Cmd} (effect : UsersEffect s c s') (active : ActiveAccount s id) :
    ActiveAccount s' id := by
  cases effect with
  | none _ _ same =>
    obtain ⟨user, found, known⟩ := active
    exact ⟨user, same ▸ found, known⟩
  | create _ _ inserted =>
    obtain ⟨user, found, known⟩ := active
    exact ⟨user, (Table.mem_insert? inserted).mpr (.inr found), known⟩
  | activate userId =>
    obtain ⟨user, found, rfl, activated⟩ := active
    refine ⟨_, mem_updateUser.mpr ⟨user, found, rfl⟩, ?_⟩
    split
    · exact ⟨rfl, rfl⟩
    · exact ⟨rfl, activated⟩
  | setPassword userId passwordHash =>
    have kept : ∀ u : User, ({ u with passwordHash } : User).isActive = u.isActive := fun _ => rfl
    exact (active_updateUser kept).mpr active

/-- An account that is active after a command was so before, or the command has made it so. -/
theorem UsersEffect.activated {c : Cmd} (effect : UsersEffect s c s')
    (active : ActiveAccount s' id) :
    ActiveAccount s id ∨ c = .userActivate id ∨ ∃ email hash name phone,
    c = .userCreate email hash name phone true := by
  cases effect with
  | none _ _ same =>
    obtain ⟨user, found, known⟩ := active
    exact .inl ⟨user, same ▸ found, known⟩
  | create new _ inserted =>
    obtain ⟨user, found, rfl, activated⟩ := active
    obtain rfl | old := (Table.mem_insert? inserted).mp found
    · exact .inr (.inr ⟨_, _, _, _, by rw [activated]⟩)
    · exact .inl ⟨user, old, rfl, activated⟩
  | activate userId =>
    obtain ⟨user, found, rfl, activated⟩ := active
    obtain ⟨old, inTable, rfl⟩ := mem_updateUser.mp found
    by_cases target : old.id = userId
    · rw [if_pos target]
      exact .inr (.inl (congrArg _ target.symm))
    · rw [if_neg target] at activated ⊢
      exact .inl ⟨old, inTable, rfl, activated⟩
  | setPassword userId passwordHash =>
    have kept : ∀ u : User, ({ u with passwordHash } : User).isActive = u.isActive := fun _ => rfl
    exact .inl ((active_updateUser kept).mp active)

theorem act_active {a : EnvAct} (acted : act a s = some s') : ActiveAccount s' id ↔
    ActiveAccount s id := by
  cases a with
  | tick ms =>
    cases Option.some.inj acted
    rfl
  | setPermVersion userId version =>
    cases Option.some.inj acted
    have kept : ∀ u : User, ({ u with permVersion := version } : User).isActive = u.isActive :=
      fun _ => rfl
    exact active_updateUser kept

end Accounts

section Activation

/-- What a verification has seen when it activates an account. -/
def verifyPoint (code : String) (trace : List Ev) : Cmd → Prop
  | .userActivate id => ∃ now otp, (⟨.now, .ok now⟩ : Ev) ∈ trace ∧
      (⟨.emailOtpFindFirst { userId := some id, codeHash := some code, expiresAfter := some now },
        .ok (some otp)⟩ : Ev) ∈ trace
  | c => c.activates = false

def activationPoint : Call → List Ev → Cmd → Prop
  | .verify _ code => verifyPoint code
  | _ => fun _ c => c.activates = false

theorem along_verify {email code : String} :
    Along (verifyPoint code) (fun _ _ => True) [] (AuthService.verify cfg email code) := by
  have refused : ∀ (trace : List Ev) (e : Exn), (fun _ _ => True : List Ev → Except Exn Bool →
      Prop) trace (.error e) := fun _ _ => trivial
  apply along_rethrow refused
  refine along_await_bind rfl refused fun found => ?_
  cases found with
  | none => trivial
  | some user =>
    refine along_await_bind rfl refused fun now => along_await_bind rfl refused fun found => ?_
    cases found with
    | none => trivial
    | some otp =>
      refine along_await_bind rfl refused fun _ => ?_
      have clock : (⟨.now, .ok now⟩ : Ev) ∈ [⟨.emailOtpUse otp.id, .ok ()⟩, ⟨.emailOtpFindFirst
          { userId := some user.id, codeHash := some code, expiresAfter := some now },
          .ok (some otp)⟩, ⟨.now, .ok now⟩] := by
        simp only [List.mem_cons, true_or, or_true]
      exact along_await_bind ⟨now, otp, List.mem_append_left _ clock,
        List.mem_cons_of_mem _ List.mem_cons_self⟩ refused fun _ => trivial

theorem along_activation (q : Call) : Along (activationPoint q) (fun _ _ => True)
    [] (body cfg q) := by
  have inactive : ∀ {q : Call}, (∀ c, Cmd.UsedBy cfg q c → c.activates = false) →
      Along (fun _ (c : Cmd) => c.activates = false) (fun _ _ => True) [] (body cfg q) :=
    fun quiet => ((uses_body _).mono quiet).along
  cases q with
  | verify email code =>
    refine along_bind.mpr (along_verify.mono (fun _ _ point => point) fun trace r _ => ?_)
    cases r <;> trivial
  | login | refresh =>
    apply inactive
    exact fun _ => Issuing.inactive
  | _ =>
    apply inactive
    exact fun _ => Plain.inactive

end Activation

section Proofs

variable {pool pool' : AuthPool} {journal : AuthJournal} {id : String}

theorem Proven.later {entry : Option (Entry Api Exn Store)} (proven : Proven journal pool id)
    (happens : (authSystem cfg).Happens pool entry pool') :
    Proven (entry.toList ++ journal) pool' id := by
  obtain ⟨clock, clockIn, search, searchIn, th, email, code, w, otp, found, request, rest⟩ := proven
  obtain ⟨th', found', same⟩ := happens.keeps found
  exact ⟨clock, List.mem_append_right _ clockIn, search, List.mem_append_right _ searchIn, th',
    email, code, w, otp, found', same.trans request, rest⟩

/-- What an activation has seen proves the account. -/
theorem proven_of_activation {t : Nat} {th : AuthThread}
    (recorded : (authSystem cfg).Recorded System.Free NoUsers journal pool)
    (found : pool.thread? t = some th) (next : th.next? = some (.userActivate id)) :
    Proven journal pool id := by
  have point := recorded.reachable.point along_activation found next
  cases request : th.request with
  | verify email code =>
    rw [request] at point
    obtain ⟨now, otp, clockSeen, searchSeen⟩ := point
    obtain ⟨⟨_, _, before, after⟩, clockIn, rfl, rfl⟩ := (recorded.mem_trace found).mp clockSeen
    obtain ⟨⟨_, _, before', after'⟩, searchIn, rfl, rfl⟩ := (recorded.mem_trace found).mp searchSeen
    obtain ⟨_, read⟩ := recorded.executed clockIn
    obtain ⟨_, selected⟩ := recorded.executed searchIn
    obtain rfl : now = before.now := Except.ok.inj (exec_now read).1
    obtain ⟨inTable, matching⟩ := exec_emailOtpFindFirst selected
    simp only [EmailOtpWhere.holds, Option.all_some, Bool.and_eq_true, beq_iff_eq,
      decide_eq_true_eq] at matching
    obtain ⟨⟨owner, same⟩, unexpired⟩ := matching
    exact ⟨_, clockIn, _, searchIn, th, email, code, _, otp, found, request, rfl, rfl, rfl,
      inTable, owner.symm, same.symm, unexpired⟩
  | _ =>
    rw [request] at point
    contradiction

theorem active_proven (recorded : (authSystem cfg).Recorded System.Free NoUsers journal pool)
    (active : ActiveAccount pool.store id) : Proven journal pool id := by
  induction recorded with
  | start s initial =>
    obtain ⟨user, found, _⟩ := active
    rw [← Table.mem_rows, System.idle, initial.1] at found
    exact absurd found List.not_mem_nil
  | @step journal pool pool' entry recorded happens met ih =>
    cases happens with
    | spawn q => exact (ih active).later (.spawn q)
    | act a s acted => exact (ih ((act_active acted).mp active)).later (.act a s acted)
    | run t choice th c k r s found awaits executed =>
      have next : th.next? = some c := by rw [Thread.next?, awaits]
      have happens := System.Happens.run t choice th c k r s found awaits executed
      rcases (exec_usersEffect executed).activated active with before | rfl | ⟨email,
        hash, name, phone, rfl⟩
      · exact (ih before).later happens
      · exact (proven_of_activation recorded found next).later happens
      · have point := recorded.reachable.point along_activation found next
        cases request : th.request <;> rw [request] at point <;> contradiction

end Proofs

section Sessions

variable {pool pool' : AuthPool} {id : String}

/-- The command has found the account active, or with a session. -/
inductive Vouches : Ev → String → Prop where
  | active (email : String) (user : User) :
      Vouches ⟨.userFindFirst { email := some email, isActive := some true },
        .ok (some user)⟩ user.id
  | session (w : RefreshTokenWhere) (session : RefreshToken) (user : User) :
      Vouches ⟨.refreshTokenFindFirstWithUser w, .ok (some (session, user))⟩ user.id

theorem vouches_active {c : Cmd} {choice : Choice} {s s' : Store} {r : Except Exn c.Resp}
    (sessions : SessionsVerified s) (executed : exec c choice s = some (r, s'))
    (vouches : Vouches ⟨c, r⟩ id) : ActiveAccount s id := by
  cases vouches with
  | active email user =>
    obtain ⟨found, matching⟩ := exec_userFindFirst executed
    simp only [UserWhere.holds, Option.all_none, Option.all_some, Bool.and_eq_true,
      beq_iff_eq] at matching
    exact ⟨user, found, rfl, matching.2.symm⟩
  | session w session user =>
    obtain ⟨found, _, owner⟩ := exec_findFirstWithUser executed
    exact owner ▸ sessions session found

/-- The invariant: the sessions, and what the calls have seen on their way to one. -/
structure VerifiedInv (pool : AuthPool) : Prop where
  sessions : SessionsVerified pool.store
  vouched : ∀ t th e id, pool.thread? t = some th → e ∈ th.trace → Vouches e id →
    ActiveAccount pool.store id

/-- A session is created for an account that its call has seen. -/
theorem create_vouched {cond : AuthPool → Step cfg → Prop} {t : Nat} {th : AuthThread}
    {data : RefreshTokenData} (reachable : (authSystem cfg).Reachable cond NoUsers pool)
    (found : pool.thread? t = some th) (next : th.next? = some (.refreshTokenCreate data)) :
    ∃ e ∈ th.trace, Vouches e data.userId := by
  have point := reachable.point along_body found next
  cases request : th.request with
  | login userReq req =>
    rw [request] at point
    obtain ⟨userId, deviceId, ⟨d, user, _, _, looked, same⟩, _, owner, _⟩ := point
    rw [owner, same]
    exact ⟨_, looked, .active _ user⟩
  | refresh presented deviceId req =>
    rw [request] at point
    obtain ⟨userId, deviceId, ⟨_, token, session, user, _, ⟨⟨w, _, _, seen⟩, _⟩, same⟩, _, owner, _⟩ :=
      point
    rw [owner, same]
    exact ⟨_, seen, .session w session user⟩
  | _ =>
    rw [request] at point
    contradiction

/-- A command keeps the sessions verified. -/
theorem VerifiedInv.sessions_run {t : Nat} {choice : Choice} {th : AuthThread} {c : Cmd}
    {r : Except Exn c.Resp} {s : Store} (inv : VerifiedInv pool)
    (reachable : (authSystem cfg).Reachable System.Any NoUsers pool)
    (found : pool.thread? t = some th) (next : th.next? = some c)
    (executed : exec c choice pool.store = some (r, s)) :
    SessionsVerified s := by
  have users := exec_usersEffect executed
  obtain ⟨id, back⟩ := (exec_session executed).back
  intro row inTable
  rcases back row inTable with ⟨old, before, continues⟩ | ⟨data, same, owner, _⟩
  · rw [continues.userId]
    exact users.active (inv.sessions old before)
  · cases same
    obtain ⟨e, executedEarlier, vouches⟩ := create_vouched reachable found next
    rw [owner]
    exact users.active (inv.vouched t th e _ found executedEarlier vouches)

theorem verified_invariant (reachable : (authSystem cfg).Reachable System.Any NoUsers pool) :
    VerifiedInv pool := by
  refine reachable.invariant (P := VerifiedInv) ?_ ?_
  · intro s initial
    constructor
    · intro row found
      rw [← Table.mem_rows, System.idle, initial.2] at found
      exact absurd found List.not_mem_nil
    · intro t th e id found
      cases found
  · intro pool label pool' before _ inv _ effect
    cases effect with
    | spawn q =>
      refine ⟨inv.sessions, fun t th e id found executed => ?_⟩
      rcases Pool.add_cases found with ⟨_, rfl⟩ | old
      · exact absurd executed List.not_mem_nil
      · exact inv.vouched t th e id old executed
    | run t choice th c k r s found awaits executed =>
      have next : th.next? = some c := by rw [Thread.next?, awaits]
      have users := exec_usersEffect executed
      refine ⟨inv.sessions_run before found next executed,
        fun u uth e id uFound inTrace vouches => ?_⟩
      rcases Pool.set_cases uFound with ⟨rfl, rfl⟩ | ⟨_, old⟩
      · obtain rfl | earlier := List.mem_cons.mp inTrace
        · exact users.active (vouches_active inv.sessions executed vouches)
        · exact users.active (inv.vouched u th e id found earlier vouches)
      · exact users.active (inv.vouched u uth e id old inTrace vouches)
    | act a s acted =>
      constructor
      · intro row found
        rw [(act_tables acted).1] at found
        exact (act_active acted).mpr (inv.sessions row found)
      · intro t th e id found executed vouches
        exact (act_active acted).mpr (inv.vouched t th e id found executed vouches)

end Sessions

/-- Only verified accounts hold sessions. -/
theorem sessions_of_verified {pool : AuthPool} {journal : AuthJournal}
    (recorded : (authSystem cfg).Recorded System.Free NoUsers journal pool) :
    (∀ row ∈ pool.store.db.refreshTokens, ActiveAccount pool.store row.userId) ∧
      ∀ user ∈ pool.store.db.users, user.isActive = true → Proven journal pool user.id := by
  constructor
  · exact (verified_invariant recorded.reachable).sessions
  · exact fun user found active => active_proven recorded ⟨user, found, rfl, active⟩

/-- A registration, its verification, a login and a refresh. -/
def verifiedSteps : List SampleStep :=
  .spawn (.register { email := "alice@mail.com", password := "Secret123" } none) ::
    steps 0 ["", argonSalt0, "k3x9", argonSalt1, "", "", aliceId, "", otpId1, ""] ++
    .spawn (.verify "alice@mail.com" (phcOf ⟨argonSalt1, "k3x9"⟩)) ::
      steps 1 (List.replicate 5 "") ++
    .spawn (.login loginUser {}) ::
      steps 2 [laptopId, "", "", "", argonSalt2, "", sessionId1, "", "", ""] ++
    .spawn (.refresh (some firstToken) (some laptopId) {}) :: steps 3 (List.replicate 11 "")

/-- The one session there is belongs to the account that was verified. -/
theorem sessions_of_verified_sample : ∃ journal pool, ∃ row ∈ pool.store.db.refreshTokens,
    (authSystem Config.default).Recorded System.Free NoUsers journal pool ∧
    pool.threads.length = 4 ∧
    ActiveAccount pool.store row.userId ∧ Proven journal pool row.userId := by
  have replayed :
      (((authSystem Config.default).record System.Free []
        (System.idle {}) verifiedSteps).any fun sample =>
      sample.2.threads.length = 4 && sample.2.store.db.refreshTokens.rows.any fun _ =>
        true) = true := by decide +kernel
  have empty : NoUsers {} := ⟨rfl, rfl⟩
  obtain ⟨journal, pool, recorded, tested⟩ := System.recorded_of_test empty replayed
  obtain ⟨calls, stored⟩ := (Bool.and_eq_true ..).mp tested
  obtain ⟨row, inTable, _⟩ := List.any_eq_true.mp stored
  obtain ⟨sessions, accounts⟩ := sessions_of_verified recorded
  obtain ⟨user, found, owner, active⟩ := sessions row inTable
  refine ⟨journal, pool, row, inTable, recorded, of_decide_eq_true calls, sessions row inTable, ?_⟩
  rw [← owner]
  exact accounts user found active

end CorePlatform.Auth
