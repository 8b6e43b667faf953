import CorePlatform.Auth.System

/-! Whether a changed password always revokes the sessions. The password is set first; the
deletion of the reset row and the revocation come after it, and either may be rejected. -/
namespace CorePlatform.Auth
open Async Relational

variable {s t : Store} {choice : Choice} {choices : List Choice}
  {email code password : Option String}

def Cmd.reads : Cmd → Bool
  | .now | .argon2Salt | .userFindFirst _ | .passwordResetFindFirst _ => true
  | _ => false

theorem exec_reads {c : Cmd} {r : Except Exn c.Resp} (executed : exec c choice s = some (r, t))
    (reads : c.reads = true) :
    t = s := by
  unfold exec at executed
  split at executed
  · split at executed
    · exact (Prod.mk.inj (Option.some.inj executed)).2.symm
    · contradiction
  · cases c with
    | now | argon2Salt | userFindFirst | passwordResetFindFirst =>
        exact (Prod.mk.inj (Option.some.inj executed)).2.symm
    | _ => contradiction

/-- A rejected command leaves the store alone. -/
theorem exec_fault {c : Cmd} {r : Except Exn c.Resp} (executed : exec c choice s = some (r, t))
    (fault : choice.fault = true) :
    r = .error unreachable ∧ t = s := by
  unfold exec at executed
  rw [if_pos fault] at executed
  split at executed
  · obtain ⟨rfl, rfl⟩ := Prod.mk.inj (Option.some.inj executed)
    exact ⟨rfl, rfl⟩
  · contradiction

/-- The choices of a reset, one for each of its commands, in their order. A reset that stops
earlier leaves the last ones unused. -/
structure ResetChoices where
  account : Choice := {}
  resetRow : Choice := {}
  salt : Choice := {}
  password : Choice := {}
  deletion : Choice := {}
  time : Choice := {}
  revocation : Choice := {}

def ResetChoices.list (choices : ResetChoices) : List Choice :=
  [choices.account, choices.resetRow, choices.salt, choices.password, choices.deletion,
    choices.time, choices.revocation]

/-- What a reset has left of the users and the sessions. -/
inductive ResetOutcome (choices : ResetChoices) (s t : Store) : Prop where
  | unchanged (users : t.db.users = s.db.users)
  | stopped (id : String) (passwordHash : Argon2Hash String)
      (users : t.db.users = (s.updateUser id fun u => { u with passwordHash }).db.users)
      (sessions : t.db.refreshTokens = s.db.refreshTokens)
      (rejected : choices.deletion.fault = true ∨ choices.revocation.fault = true)
  | revoked (id : String) (passwordHash : Argon2Hash String) (revokedAt : Nat)
      (users : t.db.users = (s.updateUser id fun u => { u with passwordHash }).db.users)
      (sessions : ∀ row, row ∈ t.db.refreshTokens ↔ ∃ old ∈ s.db.refreshTokens,
        (if old.userId = id ∧ old.revokedAt =
          none then { old with revokedAt := some revokedAt } else old) = row)
      (answered : choices.deletion.fault = false ∧ choices.revocation.fault = false)

/-- What follows once the reset row was read and the code found right. -/
theorem set_outcome {choices : ResetChoices} {r : Except Exn String}
    {id : String} {row : PasswordReset} {passwordHash : Argon2Hash String}
    (stored : row ∈ s.db.passwordResets.rows) (ran : (do
      let _ ← (do
        call (.userSetPassword id passwordHash)
        call (.passwordResetDelete row.id)
        return true : Action Bool)
      let _ ← UsersService.logoutAllDevices (some id)
      return "Password reset success" : Action String).eval semantics s
        [choices.password, choices.deletion, choices.time, choices.revocation] = some (r, t)) :
    ResetOutcome choices s t := by
  obtain ⟨_, _, r₁, s₁, same, set, ran₁⟩ := eval_await ran
  cases same
  have effect : (r₁ = .ok () ∧ s₁ = s.updateUser id fun u => { u with passwordHash }) ∨
      (∃ e, r₁ = .error e) ∧ s₁ = s := by
    cases fault : choices.password.fault with
    | true =>
      obtain ⟨rfl, rfl⟩ := exec_fault set fault
      exact .inr ⟨⟨_, rfl⟩, rfl⟩
    | false =>
      have set : exec (.userSetPassword id passwordHash) choices.password s = some (r₁, s₁) := set
      simp only [exec, fault, Bool.false_eq_true, if_false, execTotal] at set
      split at set
      · obtain ⟨rfl, rfl⟩ := Prod.mk.inj (Option.some.inj set)
        exact .inl ⟨rfl, rfl⟩
      · obtain ⟨rfl, rfl⟩ := Prod.mk.inj (Option.some.inj set)
        exact .inr ⟨⟨_, rfl⟩, rfl⟩
  obtain ⟨rfl, rfl⟩ | ⟨⟨e, rfl⟩, rfl⟩ := effect
  · obtain ⟨_, _, r₂, s₂, same, deleted, ran₂⟩ := eval_await ran₁
    cases same
    cases fault : choices.deletion.fault with
    | true =>
      obtain ⟨rfl, rfl⟩ := exec_fault deleted fault
      cases Option.some.inj ran₂
      exact .stopped id passwordHash rfl rfl (.inl fault)
    | false =>
      have stored' : row ∈ (s.updateUser id fun u => { u with passwordHash }).db.passwordResets.rows :=
        stored
      obtain ⟨rfl, users, sessions, -⟩ := exec_passwordResetDelete stored' deleted fault
      obtain ⟨_, _, r₃, s₃, same, read, ran₃⟩ := eval_await ran₂
      cases same
      obtain ⟨rfl, rfl⟩ := exec_now read
      obtain ⟨_, _, r₄, s₄, same, revoked, ran₄⟩ := eval_await ran₃
      cases same
      have ended : s₄ = t := by
        rcases r₄ with _ | _ <;> exact (Prod.mk.inj (Option.some.inj ran₄)).2
      subst ended
      cases fault' : choices.revocation.fault with
      | true =>
        obtain ⟨rfl, rfl⟩ := exec_fault revoked fault'
        exact .stopped id passwordHash users sessions (.inr fault')
      | false =>
        obtain rfl := exec_revokeMany revoked fault'
        refine .revoked id passwordHash s₃.now users (fun row => ?_) ⟨fault, fault'⟩
        have live : ∀ old, RefreshTokenWhere.holds { userId := some id, live := true }
            s₃.db.users old ↔ old.userId = id ∧ old.revokedAt = none := by
          intro old
          rw [holds_live]
          simp only [Option.some.injEq, forall_eq', eq_comm, reduceCtorEq, false_implies,
            implies_true, true_and]
        simp only [mem_revokeMany, sessions, live]
        rfl
  · cases Option.some.inj ran₁
    exact .unchanged rfl

theorem reset_outcome {choices : ResetChoices} {r : Except Exn String}
    (ran : (AuthService.forgotPasswordReset email code password).eval semantics s choices.list =
      some (r, t)) :
    ResetOutcome choices s t := by
  obtain ⟨r, ran⟩ := eval_graft_done (fun r => by cases r with
    | ok a => exact ⟨_, rfl⟩
    | error e => dsimp only; split <;> exact ⟨_, rfl⟩) ran
  obtain ⟨_, _, found, _, same, executed, ran⟩ := eval_await ran
  cases same
  obtain rfl := exec_reads executed rfl
  rcases found with _ | _ | user
  · cases Option.some.inj ran
    exact .unchanged rfl
  · cases Option.some.inj ran
    exact .unchanged rfl
  obtain ⟨_, _, found, _, same, executed', ran⟩ := eval_await ran
  cases same
  obtain rfl := exec_reads executed' rfl
  rcases found with _ | _ | row
  · cases Option.some.inj ran
    exact .unchanged rfl
  · cases Option.some.inj ran
    exact .unchanged rfl
  cases code with
  | none =>
    cases Option.some.inj ran
    exact .unchanged rfl
  | some code =>
    by_cases valid : verifyPassword row.tokenHash code = true
    · simp only [Prog.graft, verifyHash, valid, Prog.pure_eq, Prog.bind_ok,
        Bool.not_true, Bool.false_eq_true, if_false] at ran
      cases password with
      | none =>
        cases Option.some.inj ran
        exact .unchanged rfl
      | some password =>
        obtain ⟨_, _, salt, _, same, executed'', ran⟩ := eval_await ran
        cases same
        obtain rfl := exec_reads executed'' rfl
        rcases salt with _ | salt
        · cases Option.some.inj ran
          exact .unchanged rfl
        · exact set_outcome (exec_passwordResetFindFirst executed').1 ran
    · simp only [Prog.graft, verifyHash, valid, Prog.pure_eq, Prog.bind_ok,
        Bool.not_false, if_true] at ran
      cases Option.some.inj ran
      exact .unchanged rfl

/-- Every session of the account that was live before is revoked afterwards. -/
def Revokes (id : String) (s t : Store) : Prop :=
  ∀ row ∈ s.db.refreshTokens, row.userId = id → row.revokedAt = none →
    ∃ row' ∈ t.db.refreshTokens, row'.id = row.id ∧ row'.revokedAt ≠ none

/-- A password change revokes the sessions exactly if neither of the two commands after it is
rejected, or there was none to revoke: from any state, for any email, code and password, and
whatever the choices of the backend. -/
theorem password_change_revokes_iff {choices : ResetChoices}
    {r : Except Exn String} {user user' : User}
    (ran : (AuthService.forgotPasswordReset email code password).eval semantics s choices.list =
      some (r, t))
    (before : user ∈ s.db.users) (after : user' ∈ t.db.users) (same : user'.id = user.id)
    (changed : user'.passwordHash ≠ user.passwordHash) :
    Revokes user.id s t ↔ (choices.deletion.fault = false ∧ choices.revocation.fault = false) ∨
      ∀ row ∈ s.db.refreshTokens, row.userId = user.id → row.revokedAt ≠ none := by
  have owner : ∀ id (passwordHash : Argon2Hash String),
      t.db.users = (s.updateUser id fun u => { u with passwordHash }).db.users → id = user.id := by
    intro id passwordHash users
    rw [users] at after
    obtain ⟨old, stored, rfl⟩ :=
      (Table.mem_update fun u : User => (rfl : ({ u with passwordHash } : User).id = u.id)).mp after
    by_cases own : old.id = id
    · simp only [own, decide_true, if_true] at same
      exact own.symm.trans (own.trans same)
    · simp only [own, decide_false, Bool.false_eq_true, if_false] at same changed
      obtain rfl : old = user := Table.eq_of_key stored before same
      contradiction
  cases reset_outcome ran with
  | unchanged users =>
    rw [users] at after
    obtain rfl : user' = user := Table.eq_of_key after before same
    contradiction
  | stopped id passwordHash users sessions rejected =>
    have answered : ¬ (choices.deletion.fault = false ∧ choices.revocation.fault = false) := by
      rintro ⟨deletion, revocation⟩
      rcases rejected with fault | fault
      · exact Bool.false_ne_true (deletion.symm.trans fault)
      · exact Bool.false_ne_true (revocation.symm.trans fault)
    rw [or_iff_right answered]
    constructor
    · intro revokes row stored own live
      obtain ⟨row', stored', same', revoked⟩ := revokes row stored own live
      obtain rfl : row' = row := Table.eq_of_key (sessions ▸ stored') stored same'
      contradiction
    · exact fun none row stored own live => absurd live (none row stored own)
  | revoked id passwordHash revokedAt users sessions answered =>
    obtain rfl := owner id passwordHash users
    refine iff_of_true (fun row stored own live => ?_) (.inl answered)
    refine ⟨_, (sessions _).mpr ⟨row, stored, rfl⟩, ?_, ?_⟩
    · rw [if_pos ⟨own, live⟩]
    · rw [if_pos ⟨own, live⟩]
      exact Option.some_ne_none _

section Sample

def signedInUser : User :=
  { id := aliceId, email := "alice@mail.com", passwordHash := ⟨argonSalt0, "Secret123"⟩
    createdAt := 0 }

def liveSession : RefreshToken :=
  { id := sessionId1, userId := aliceId, tokenHash := ⟨argonSalt2, .raw "token"⟩
    expiresAt := 900000, deviceId := laptopId }

def verifiedReset : PasswordReset :=
  { id := resetId1, userId := aliceId, tokenHash := ⟨argonSalt1, "k3x9"⟩
    expiresAt := 900000, used := true }

/-- A user with a verified reset row and a live session. -/
def signedInStore : Store where
  db := {
    users := ⟨[signedInUser], by decide⟩
    passwordResets := ⟨[verifiedReset], by decide⟩
    refreshTokens := ⟨[liveSession], by decide⟩ }

def resetSample (choices : ResetChoices) : Option (Except Exn String × Store) :=
  (AuthService.forgotPasswordReset (some "alice@mail.com") (some "k3x9")
    (some "New456")).eval semantics
    signedInStore choices.list

/-- The user with the new password, and what became of the session. -/
def changedWith (session : RefreshToken) (out : Except Exn String × Store) : Bool :=
  decide (out.2.db.users.rows = [{ signedInUser with passwordHash := ⟨argonSalt3, "New456"⟩ }]) &&
    decide (out.2.db.refreshTokens.rows = [session])

theorem changed_of_sample (choices : ResetChoices) (session : RefreshToken)
    (tested : (resetSample choices).any (changedWith session) = true) :
    ∃ r t user', resetSample choices = some (r, t) ∧ user' ∈ t.db.users ∧
    user'.id = signedInUser.id ∧
      user'.passwordHash ≠ signedInUser.passwordHash ∧ t.db.refreshTokens.rows = [session] := by
  obtain ⟨⟨r, t⟩, ran, passed⟩ := (Option.any_eq_true _ _).mp tested
  simp only [changedWith, Bool.and_eq_true, decide_eq_true_eq] at passed
  refine ⟨r, t, { signedInUser with passwordHash := ⟨argonSalt3, "New456"⟩ }, ran, ?_,
    rfl, by decide, passed.2⟩
  show _ ∈ t.db.users.rows
  rw [passed.1]
  exact List.mem_singleton_self _

/-- The deletion of the reset row is rejected. -/
def deletionRejected : ResetChoices :=
  { salt := { draw := argonSalt3 }, deletion := { fault := true } }

theorem sessions_survive_reset : ¬ ∀ email code password s (choices : ResetChoices) r t user user',
    (AuthService.forgotPasswordReset email code password).eval semantics s choices.list =
      some (r, t) →
    user ∈ s.db.users → user' ∈ t.db.users → user'.id = user.id →
    user'.passwordHash ≠ user.passwordHash → Revokes user.id s t := by
  intro revokes
  obtain ⟨r, t, user', ran, stored, same, changed, sessions⟩ :=
    changed_of_sample deletionRejected liveSession (by decide +kernel)
  obtain ⟨row, stored', -, revoked⟩ :=
    revokes _ _ _ _ _ r t signedInUser user' ran List.mem_cons_self stored same changed
    liveSession List.mem_cons_self rfl rfl
  obtain rfl : row = liveSession := List.mem_singleton.mp (sessions ▸ Table.mem_rows.mpr stored')
  contradiction

/-- Every command is answered, and the session is revoked. -/
theorem sessions_revoked_by_reset :
    ∃ r t, resetSample { salt := { draw := argonSalt3 } } = some (r, t) ∧
    liveSession ∈ signedInStore.db.refreshTokens ∧ Revokes aliceId signedInStore t := by
  obtain ⟨r, t, user', ran, stored, same, changed, -⟩ :=
    changed_of_sample { salt := { draw := argonSalt3 } }
    { liveSession with revokedAt := some 0 } (by decide +kernel)
  have before : signedInUser ∈ signedInStore.db.users := List.mem_cons_self
  exact ⟨r, t, ran, List.mem_cons_self,
    (password_change_revokes_iff ran before stored same changed).mpr (.inl ⟨rfl, rfl⟩)⟩

end Sample
end CorePlatform.Auth
