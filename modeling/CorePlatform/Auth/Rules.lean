import CorePlatform.Auth.Controller

/-! Rules for the atomic commands of the auth service: what each one can respond, over
every choice it leaves open, and the weakest preconditions that follow. -/
namespace CorePlatform.Auth
open Async Relational

variable {s t : Store}

/-- A command is rejected by the backend, or does its work. -/
theorem responds_iff {c : Cmd} {r : Except Exn c.Resp} : semantics.Responds c s r t ↔
    (c.canFail = true ∧ r = .error unreachable ∧ t = s) ∨
      ∃ choice, execTotal c choice s = some (r, t) := by
  constructor
  · rintro ⟨choice, executed⟩
    simp only [semantics, exec] at executed
    split at executed
    · split at executed
      · rename_i canFail
        simp only [Option.some.injEq, Prod.mk.injEq] at executed
        exact .inl ⟨canFail, executed.1.symm, executed.2.symm⟩
      · contradiction
    · exact .inr ⟨choice, executed⟩
  · rintro (⟨canFail, rfl, rfl⟩ | ⟨choice, executed⟩)
    · exact ⟨{ fault := true }, by simp only [semantics, exec, canFail, if_true]⟩
    · refine ⟨{ choice with fault := false }, ?_⟩
      cases c <;> exact executed

theorem post_call {c : Cmd} {Q : Except Exn c.Resp → Store → Prop} :
    Post semantics (call c) s Q ↔ (c.canFail = true → Q (.error unreachable) s) ∧
      ∀ choice r t, execTotal c choice s = some (r, t) → Q r t := by
  constructor
  · intro holds
    exact ⟨fun canFail => holds _ _ (responds_iff.mpr (.inl ⟨canFail, rfl, rfl⟩)),
      fun choice r t executed => holds _ _ (responds_iff.mpr (.inr ⟨choice, executed⟩))⟩
  · rintro ⟨rejected, done⟩ r t responds
    rcases responds_iff.mp responds with ⟨canFail, rfl, rfl⟩ | ⟨choice, executed⟩
    · exact rejected canFail
    · exact done choice r t executed

theorem pickFrom_cases {α : Type} {rows : List α} {P : Option α → Prop} :
    (∀ choice, P (pickFrom rows choice)) ↔ (rows = [] → P none) ∧ ∀ row ∈ rows, P (some row) := by
  constructor
  · intro all
    constructor
    · rintro rfl
      exact all {}
    · intro row found
      obtain ⟨i, bound, rfl⟩ := List.getElem_of_mem found
      have picked := all { pick := i }
      rwa [pickFrom, Nat.mod_eq_of_lt bound, List.getElem?_eq_getElem bound] at picked
  · rintro ⟨absent, present⟩ choice
    cases picked : pickFrom rows choice with
    | none => exact absent (pickFrom_none picked)
    | some row => exact present row (pickFrom_mem picked)

section Commands

@[simp] theorem post_now {Q : Except Exn (Cmd.Resp .now) → Store → Prop} :
    @Post Api Exn (no_index _) Store semantics (call .now) s Q ↔ Q (.ok s.now) s := by
  rw [post_call (c := .now)]
  simp [Cmd.canFail, execTotal]

@[simp] theorem post_clearCookie {name : String}
    {Q : Except Exn (Cmd.Resp (.clearCookie name)) → Store → Prop} :
    @Post Api Exn (no_index _) Store semantics (call (.clearCookie name)) s Q ↔ Q (.ok ()) s := by
  rw [post_call (c := .clearCookie name)]
  simp [Cmd.canFail, execTotal]

@[simp] theorem post_refreshTokenFindFirst {w : RefreshTokenWhere}
    {Q : Except Exn (Cmd.Resp (.refreshTokenFindFirst w)) → Store → Prop} :
    @Post Api Exn (no_index _) Store semantics (call (.refreshTokenFindFirst w)) s Q ↔
      Q (.error unreachable) s ∧
      ((∀ row ∈ s.db.refreshTokens, ¬ w.holds s.db.users row) → Q (.ok none) s) ∧
      ∀ row ∈ s.db.refreshTokens, w.holds s.db.users row → Q (.ok (some row)) s := by
  rw [post_call (c := .refreshTokenFindFirst w)]
  simp [Cmd.canFail, execTotal, pickFrom_cases (P := fun found => Q (.ok found) s), Table.mem_rows]

@[simp] theorem post_refreshTokenRevokeMany {w : RefreshTokenWhere} {revokedAt : Nat}
    {Q : Except Exn (Cmd.Resp (.refreshTokenRevokeMany w revokedAt)) → Store → Prop} :
    @Post Api Exn (no_index _) Store semantics (call (.refreshTokenRevokeMany w revokedAt)) s Q ↔
      Q (.error unreachable) s ∧
      Q (.ok (s.db.refreshTokens.rows.countP (w.holds s.db.users))) (s.revokeMany w revokedAt) := by
  rw [post_call (c := .refreshTokenRevokeMany w revokedAt)]
  simp [Cmd.canFail, execTotal]

@[simp] theorem post_randomCode {Q : Except Exn (Cmd.Resp .randomCode) → Store → Prop} :
    @Post Api Exn (no_index _) Store semantics (call .randomCode) s Q ↔
      ∀ code : RandomCode, Q (.ok code) s := by
  rw [post_call (c := .randomCode)]
  constructor
  · rintro ⟨_, drawn⟩ code
    exact drawn { draw := code.val } _ _ (by simp only [execTotal, code.property, dite_true])
  · refine fun drawn => ⟨nofun, fun choice r t executed => ?_⟩
    simp only [execTotal] at executed
    split at executed
    · obtain ⟨rfl, rfl⟩ := Prod.mk.inj (Option.some.inj executed)
      exact drawn _
    · contradiction

@[simp] theorem post_randomBytes16 {Q : Except Exn (Cmd.Resp .randomBytes16) → Store → Prop} :
    @Post Api Exn (no_index _) Store semantics (call .randomBytes16) s Q ↔
      ∀ bytes, Q (.ok bytes) s := by
  rw [post_call (c := .randomBytes16)]
  constructor
  · exact fun ⟨_, drawn⟩ bytes => drawn { bytes } _ _ rfl
  · refine fun drawn => ⟨nofun, fun choice r t executed => ?_⟩
    obtain ⟨rfl, rfl⟩ := Prod.mk.inj (Option.some.inj executed)
    exact drawn _

@[simp] theorem post_argon2Salt {Q : Except Exn (Cmd.Resp .argon2Salt) → Store → Prop} :
    @Post Api Exn (no_index _) Store semantics (call .argon2Salt) s Q ↔ ∀ salt, Q (.ok salt) s := by
  rw [post_call (c := .argon2Salt)]
  constructor
  · exact fun ⟨_, drawn⟩ salt => drawn { draw := salt } _ _ rfl
  · refine fun drawn => ⟨nofun, fun choice r t executed => ?_⟩
    obtain ⟨rfl, rfl⟩ := Prod.mk.inj (Option.some.inj executed)
    exact drawn _

@[simp] theorem post_userFindFirst {w : UserWhere}
    {Q : Except Exn (Cmd.Resp (.userFindFirst w)) → Store → Prop} :
    @Post Api Exn (no_index _) Store semantics (call (.userFindFirst w)) s Q ↔
      Q (.error unreachable) s ∧ ((∀ user ∈ s.db.users, ¬ w.holds user) → Q (.ok none) s) ∧
      ∀ user ∈ s.db.users, w.holds user → Q (.ok (some user)) s := by
  rw [post_call (c := .userFindFirst w)]
  simp [Cmd.canFail, execTotal, pickFrom_cases (P := fun found => Q (.ok found) s), Table.mem_rows]

@[simp] theorem post_passwordResetFindFirst {w : PasswordResetWhere}
    {Q : Except Exn (Cmd.Resp (.passwordResetFindFirst w)) → Store → Prop} :
    @Post Api Exn (no_index _) Store semantics (call (.passwordResetFindFirst w)) s Q ↔
      Q (.error unreachable) s ∧
      ((∀ row ∈ s.db.passwordResets, ¬ w.holds row) → Q (.ok none) s) ∧
      ∀ row ∈ s.db.passwordResets, w.holds row → Q (.ok (some row)) s := by
  rw [post_call (c := .passwordResetFindFirst w)]
  simp [Cmd.canFail, execTotal, pickFrom_cases (P := fun found => Q (.ok found) s), Table.mem_rows]

@[simp] theorem post_passwordResetCreate {userId : String} {tokenHash : Argon2Hash String}
    {expiresAt : Nat}
    {Q : Except Exn (Cmd.Resp (.passwordResetCreate userId tokenHash expiresAt)) → Store → Prop} :
    @Post Api Exn (no_index _) Store semantics
      (call (.passwordResetCreate userId tokenHash expiresAt)) s Q ↔
      Q (.error unreachable) s ∧ ∀ id rows,
        s.db.passwordResets.insert? { id, userId, tokenHash, expiresAt } = some rows →
          Q (.ok ()) (s.setPasswordResets rows) := by
  rw [post_call (c := .passwordResetCreate userId tokenHash expiresAt)]
  simp only [Cmd.canFail, execTotal, Option.map_eq_some_iff, Prod.mk.injEq, forall_const]
  refine and_congr_right fun _ => ?_
  constructor
  · exact fun created id rows inserted => created { draw := id } _ _ ⟨rows, inserted, rfl, rfl⟩
  · rintro created choice _ _ ⟨rows, inserted, rfl, rfl⟩
    exact created choice.draw rows inserted

@[simp] theorem post_queueAdd {job : MailJob}
    {Q : Except Exn (Cmd.Resp (.queueAdd job)) → Store → Prop} :
    @Post Api Exn (no_index _) Store semantics (call (.queueAdd job)) s Q ↔
      Q (.error unreachable) s ∧ Q (.ok ()) { s with jobs := job :: s.jobs } := by
  rw [post_call (c := .queueAdd job)]
  simp [Cmd.canFail, execTotal]

end Commands

section Methods

theorem post_combinedJwtAuthGuard {cfg : Config} {req : Request}
    {Q : Except Exn Js → Store → Prop} :
    Post semantics (combinedJwtAuthGuard cfg req) s Q ↔
      Q (CombinedJwtStrategy.authenticate cfg req.authorization s.now) s := by
  simp only [combinedJwtAuthGuard, post_bind, post_now]
  split <;> simp_all

theorem post_logoutAllDevices {userId : Option String} {Q : Except Exn Nat → Store → Prop} :
    Post semantics (UsersService.logoutAllDevices userId) s Q ↔ Q (.error unreachable) s ∧
      Q (.ok (s.db.refreshTokens.rows.countP
          (RefreshTokenWhere.holds { userId, live := true } s.db.users)))
        (s.revokeMany { userId, live := true } s.now) := by
  simp only [UsersService.logoutAllDevices, post_bind, post_now, post_refreshTokenRevokeMany]

/-- Every outcome of `UsersService.logoutDevice`: no session is found, the presented
token is missing or is not the session's, or the session is revoked. -/
theorem post_logoutDevice {deviceId userId : Option String} {token : Option Token}
    {Q : Except Exn Nat → Store → Prop} :
    Post semantics (UsersService.logoutDevice deviceId userId token) s Q ↔
      Q (.error unreachable) s ∧
      ((∀ row ∈ s.db.refreshTokens,
        ¬ RefreshTokenWhere.holds { userId, deviceId, live := true } s.db.users row) →
        Q (.ok 0) s) ∧ ∀ row ∈ s.db.refreshTokens,
        RefreshTokenWhere.holds { userId, deviceId, live := true } s.db.users row →
          (token = none → Q (.error missingPassword) s) ∧
          (∀ presented, token = some presented → row.tokenHash.plain ≠ presented → Q (.ok 0) s) ∧
          (token = some row.tokenHash.plain → Q (.error unreachable) s ∧
            Q (.ok (s.db.refreshTokens.rows.countP
                (RefreshTokenWhere.holds { id := some row.id } s.db.users)))
              (s.revokeMany { id := some row.id } s.now)) := by
  simp only [UsersService.logoutDevice, post_bind, post_refreshTokenFindFirst]
  refine and_congr_right fun _ => and_congr Iff.rfl ?_
  refine forall_congr' fun row => forall_congr' fun _ => forall_congr' fun _ => ?_
  cases token with
  | none => simp [verifyHash]
  | some presented =>
    by_cases valid : row.tokenHash.plain = presented
    · simp [verifyHash, valid, post_bind]
    · simp [verifyHash, valid, Ne.symm valid]

end Methods
end CorePlatform.Auth
