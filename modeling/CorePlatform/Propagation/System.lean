import CorePlatform.Auth.RefreshTokens
import CorePlatform.Roles.Versions

/-! The auth calls and the role calls over one table of users. Each kind has a database and calls
of its own, and finds the users as the other has left them: what a role change does to a user is,
for the auth calls, a new version of the user's permissions. -/
namespace CorePlatform.Propagation
open Async Relational
open Auth (User)

structure Service where
  auth : Auth.AuthPool
  roles : Roles.RolePool
  shared : roles.store.db.users = auth.store.db.users

/-- The auth calls, once the users have changed. -/
def withUsers (pool : Auth.AuthPool) (users : Table User.id)
    (emails : (users.rows.map User.email).Nodup) : Auth.AuthPool :=
  { pool with store := { pool.store with db := { pool.store.db with users, emails } } }

/-- The role calls, once the users have changed; none is lost. -/
def withAccounts (pool : Roles.RolePool) (users : Table User.id)
    (kept : ∀ user ∈ pool.store.db.users.rows, ∃ user' ∈ users.rows, user'.id = user.id) :
    Roles.RolePool :=
  { pool with store := pool.store.setDb { pool.store.db with
      users
      holding := by
        intro ur found
        obtain ⟨user, inTable, same⟩ := pool.store.db.holding ur found
        obtain ⟨user', inTable', same'⟩ := kept user inTable
        exact ⟨user', inTable', same'.trans same⟩ } }

/-- A step of an auth call, or of time, or of a role call. -/
inductive Step (cfg : Auth.Config) where
  | auth (label : Auth.Step cfg)
  | roles (label : Roles.Step)

/-- The versions are set by the role calls. -/
def setsVersion {cfg : Auth.Config} : Auth.Step cfg → Bool
  | .act (.setPermVersion ..) => true
  | _ => false

section Users

variable {cfg : Auth.Config}

theorem auth_kept {pool pool' : Auth.AuthPool} {label : Auth.Step cfg}
    (stepped : (Auth.authSystem cfg).step pool label = some pool') :
    ∀ user ∈ pool.store.db.users.rows, ∃ user' ∈ pool'.store.db.users.rows, user'.id = user.id := by
  intro user found
  have remains : Auth.Remains pool'.store user := by
    cases System.step_effect stepped with
    | spawn q => exact ⟨user, found, rfl, rfl⟩
    | run t choice th c k r s _ _ executed => exact Auth.exec_users executed found
    | act a s acted => exact Auth.act_users acted found
  obtain ⟨user', found', same, _⟩ := remains
  exact ⟨user', found', same⟩

/-- A step of a role call leaves the users, or sets the version of one. -/
theorem roles_users {pool pool' : Roles.RolePool} {label : Roles.Step}
    (stepped : Roles.rolesSystem.step pool label = some pool') :
    pool'.store.db.users = pool.store.db.users ∨ ∃ userId w, pool'.store.db.users =
      pool.store.db.users.update (·.id = userId) (fun row => { row with permVersion := w }) := by
  cases System.step_effect stepped with
  | spawn q => exact .inl rfl
  | run t choice th c k r s _ _ executed =>
    obtain ⟨_, done⟩ | ⟨rfl, _⟩ := Roles.exec_cases executed
    · obtain ⟨same, _⟩ | ⟨userId, w, _, _, users⟩ := Roles.users_effect done
      · exact .inl same
      · exact .inr ⟨userId, w, users⟩
    · exact .inl rfl
  | act a => cases a

theorem roles_emails {pool pool' : Roles.RolePool} {label : Roles.Step}
    (stepped : Roles.rolesSystem.step pool label = some pool') :
    pool'.store.db.users.rows.map User.email = pool.store.db.users.rows.map User.email := by
  obtain same | ⟨userId, w, users⟩ := roles_users stepped
  · rw [same]
  · rw [users]
    exact Table.map_update fun _ => rfl

end Users

def step (cfg : Auth.Config) (p : Service) : Step cfg → Option Service
  | .auth label =>
      if setsVersion label then none
      else
        match stepped : (Auth.authSystem cfg).step p.auth label with
        | some auth => some
          { auth, shared := rfl
            roles := withAccounts p.roles auth.store.db.users
              (by rw [p.shared]; exact auth_kept stepped) }
        | none => none
  | .roles label =>
      match stepped : Roles.rolesSystem.step p.roles label with
      | some roles => some
        { roles, shared := rfl
          auth := withUsers p.auth roles.store.db.users
            (by rw [roles_emails stepped, p.shared]; exact p.auth.store.db.emails) }
      | none => none

section Runs

variable {cfg : Auth.Config} {p p' : Service} {label : Step cfg} {cond : Service → Step cfg → Prop}

/-- Everything a step can do. -/
theorem step_cases (stepped : step cfg p label = some p') :
    (∃ l, label = .auth l ∧ setsVersion l = false ∧
      (Auth.authSystem cfg).step p.auth l = some p'.auth ∧
      p'.roles.threads = p.roles.threads) ∨
    ∃ l emails, label = .roles l ∧ Roles.rolesSystem.step p.roles l = some p'.roles ∧
      p'.auth = withUsers p.auth p'.roles.store.db.users emails := by
  cases label with
  | auth l =>
    simp only [step] at stepped
    split at stepped
    · contradiction
    · rename_i ticks
      split at stepped
      · rename_i auth there
        cases Option.some.inj stepped
        exact .inl ⟨l, rfl, Bool.eq_false_iff.mpr ticks, there, rfl⟩
      · contradiction
  | roles l =>
    simp only [step] at stepped
    split at stepped
    · rename_i roles there
      cases Option.some.inj stepped
      exact .inr ⟨l, _, rfl, there, rfl⟩
    · contradiction

/-- Steps that meet a condition on the state they are taken in. -/
def Run (cfg : Auth.Config) (cond : Service → Step cfg → Prop) : Service → Service → Prop :=
  Relation.ReflTransGen fun p p' => ∃ label, step cfg p label = some p' ∧ cond p label

/-- No condition on the steps. -/
def Any (_ : Service) (_ : Step cfg) : Prop := True

instance (p : Service) (label : Step cfg) : Decidable (Any p label) := .isTrue trivial

/-- Runs start without sessions, in any state of the users and their roles. -/
def Initial (p : Service) : Prop :=
  Auth.NoSessions p.auth.store ∧ p.auth.threads = [] ∧ p.roles.threads = []

def Reachable (cfg : Auth.Config) (p : Service) : Prop :=
  ∃ start, Initial start ∧ Run cfg Any start p

theorem Run.any (run : Run cfg cond p p') : Run cfg Any p p' := by
  induction run with
  | refl => exact .refl
  | tail _ last ih =>
    obtain ⟨label, stepped, _⟩ := last
    exact ih.tail ⟨label, stepped, trivial⟩

theorem Reachable.run (reachable : Reachable cfg p) (run : Run cfg cond p p') :
    Reachable cfg p' := by
  obtain ⟨start, initial, earlier⟩ := reachable
  exact ⟨start, initial, Relation.ReflTransGen.trans earlier run.any⟩

theorem withUsers_same {pool : Auth.AuthPool} {users : Table User.id}
    {emails : (users.rows.map User.email).Nodup} (same : users = pool.store.db.users) :
    withUsers pool users emails = pool := by
  subst same
  rfl

/-- A step of a role call leaves the auth calls where they are, or sets a version there. -/
theorem step_auth (stepped : step cfg p label = some p') :
    p'.auth = p.auth ∨ ∃ l, (Auth.authSystem cfg).step p.auth l = some p'.auth := by
  obtain ⟨l, _, _, there, _⟩ | ⟨l, emails, _, there, auth⟩ := step_cases stepped
  · exact .inr ⟨l, there⟩
  · rw [auth]
    obtain same | ⟨userId, w, users⟩ := roles_users there
    · exact .inl (withUsers_same (same.trans p.shared))
    · refine .inr ⟨.act (.setPermVersion userId w), ?_⟩
      rw [p.shared] at users
      simp only [System.step, Auth.act, Option.map_some, Auth.Store.updateUser, withUsers, ← users]

/-- The auth calls run as they do on their own, while the environment sets versions. -/
theorem Reachable.auth (reachable : Reachable cfg p) :
    (Auth.authSystem cfg).Reachable System.Any Auth.NoSessions p.auth := by
  obtain ⟨start, ⟨empty, idle, _⟩, run⟩ := reachable
  induction run with
  | refl =>
    obtain ⟨⟨store, threads⟩, roles, shared⟩ := start
    cases idle
    exact ⟨store, empty, .refl⟩
  | tail _ last ih =>
    obtain ⟨label, stepped, _⟩ := last
    obtain same | ⟨l, there⟩ := step_auth stepped
    · rw [same]
      exact ih
    · exact ih.head there trivial

/-- Execute a schedule whose steps all meet the condition. -/
def replay (cfg : Auth.Config) (cond : Service → Step cfg → Prop)
    [∀ p label, Decidable (cond p label)] (p : Service) :
    List (Step cfg) → Option Service
  | [] => some p
  | label :: rest =>
      if cond p label then
        match step cfg p label with
        | some next => replay cfg cond next rest
        | none => none
      else none

theorem run_replay [∀ p label, Decidable (cond p label)] {labels : List (Step cfg)}
    (replayed : replay cfg cond p labels = some p') : Run cfg cond p p' := by
  induction labels generalizing p with
  | nil =>
    cases Option.some.inj replayed
    exact .refl
  | cons label rest ih =>
    simp only [replay] at replayed
    split at replayed
    · rename_i met
      split at replayed
      · rename_i next stepped
        exact .head ⟨label, stepped, met⟩ (ih replayed)
      · contradiction
    · contradiction

end Runs
end CorePlatform.Propagation
