import CorePlatform.Async.Accretion
import CorePlatform.Common.Formats
import CorePlatform.Seed.Scripts
import Mathlib.Data.Set.Insert

/-! What the scripts establish, in terms of names: any runs, interrupted and concurrent ones
among them, add to what the tables say and agree on what it is in the end. -/
namespace CorePlatform.Seed
open Async Relational
open Roles (Role Permission RolePermission UserRole)
open Auth (User)

/-- A statement of the tables, with names in the place of identifiers. -/
inductive Fact where
  | permission (code : String)
  | role (name : String)
  | user (email : String)
  | grant (role code : String)
  | member (email role : String)
  deriving DecidableEq

namespace Db

variable (db : Db)

def Holds : Fact → Prop
  | .permission code => ∃ p ∈ db.permissions, p.code = code
  | .role name => ∃ role ∈ db.roles, role.name = name
  | .user email => ∃ user ∈ db.users, user.email = email
  | .grant name code => ∃ rp ∈ db.rolePermissions,
      (∃ role ∈ db.roles, role.id = rp.roleId ∧ role.name = name) ∧
        ∃ p ∈ db.permissions, p.id = rp.permissionId ∧ p.code = code
  | .member email name => ∃ ur ∈ db.userRoles,
      (∃ user ∈ db.users, user.id = ur.userId ∧ user.email = email) ∧
        ∃ role ∈ db.roles, role.id = ur.roleId ∧ role.name = name

def facts : Set Fact := {fact | db.Holds fact}

/-- What a command may add. -/
def learns : Cmd → Set Fact
  | .permissionUpsert code _ => {.permission code}
  | .roleUpsert name _ => {.role name}
  | .userUpsert email .. => {.user email}
  | .rolePermissionUpsert roleId permissionId =>
      {fact | ∃ role ∈ db.roles, role.id = roleId ∧ ∃ p ∈ db.permissions, p.id = permissionId ∧
        fact = .grant role.name p.code}
  | .userRoleUpsert userId roleId =>
      {fact | ∃ user ∈ db.users, user.id = userId ∧ ∃ role ∈ db.roles, role.id = roleId ∧
        fact = .member user.email role.name}
  | .argon2Hash _ | .roleFindUnique _ => ∅

end Db

section Effects

variable {db db' : Db} {c : Cmd}

theorem Keeps.facts (keeps : Keeps db db') : db.facts ⊆ db'.facts := by
  intro fact holds
  cases fact with
  | permission code =>
    obtain ⟨p, stored, same⟩ := holds
    exact ⟨p, keeps.permissions p stored, same⟩
  | role name =>
    obtain ⟨role, stored, same⟩ := holds
    exact ⟨role, keeps.roles role stored, same⟩
  | user email =>
    obtain ⟨user, stored, same⟩ := holds
    exact ⟨user, keeps.users user stored, same⟩
  | grant name code =>
    obtain ⟨rp, stored, ⟨role, hasRole, named⟩, p, hasPermission, coded⟩ := holds
    exact ⟨rp, keeps.rolePermissions rp stored, ⟨role, keeps.roles role hasRole, named⟩,
      p, keeps.permissions p hasPermission, coded⟩
  | member email name =>
    obtain ⟨ur, stored, ⟨user, hasUser, called⟩, role, hasRole, named⟩ := holds
    exact ⟨ur, keeps.userRoles ur stored, ⟨user, keeps.users user hasUser, called⟩,
      role, keeps.roles role hasRole, named⟩

/-- A row that was not there has an identifier that was not there either. -/
theorem Effect.permission_new (effect : Effect db c db') {row : Permission}
    (stored : row ∈ db'.permissions) : row ∈ db.permissions ∨
      .permission row.code ∈ db.learns c ∧ ∀ other ∈ db.permissions, other.id ≠ row.id := by
  cases effect with
  | permission p _ _ fresh permissions =>
    obtain rfl | old := (permissions row).mp stored
    · exact .inr ⟨rfl, fun other found => (fresh other found).2⟩
    · exact .inl old
  | none => exact .inl stored
  | role _ _ _ _ same | rolePermission _ _ _ _ _ same | user _ _ _ _ _ _ same
  | userRole _ _ _ _ _ same => exact .inl (same ▸ stored)

theorem Effect.role_new (effect : Effect db c db') {row : Role} (stored : row ∈ db'.roles) :
    row ∈ db.roles ∨ .role row.name ∈ db.learns c ∧ ∀ other ∈ db.roles, other.id ≠ row.id := by
  cases effect with
  | role new _ _ fresh _ roles =>
    obtain rfl | old := (roles row).mp stored
    · exact .inr ⟨rfl, fun other found => (fresh other found).2⟩
    · exact .inl old
  | none => exact .inl stored
  | permission _ _ _ _ _ same | rolePermission _ _ _ _ _ _ same | user _ _ _ _ _ _ _ same
  | userRole _ _ _ _ _ _ same => exact .inl (same ▸ stored)

theorem Effect.user_new (effect : Effect db c db') {row : User} (stored : row ∈ db'.users) :
    row ∈ db.users ∨ .user row.email ∈ db.learns c ∧ ∀ other ∈ db.users, other.id ≠ row.id := by
  cases effect with
  | user new _ _ _ _ fresh _ _ _ users =>
    obtain rfl | old := (users row).mp stored
    · exact .inr ⟨rfl, fun other found => (fresh other found).2⟩
    · exact .inl old
  | none => exact .inl stored
  | permission _ _ _ _ _ _ _ same | role _ _ _ _ _ _ _ same
  | rolePermission _ _ _ _ _ _ _ _ same | userRole _ _ _ _ _ _ _ _ same =>
    exact .inl (same ▸ stored)

theorem Effect.rolePermission_new (effect : Effect db c db') {row : RolePermission}
    (stored : row ∈ db'.rolePermissions) : row ∈ db.rolePermissions ∨
      c = .rolePermissionUpsert row.roleId row.permissionId ∧ db'.roles = db.roles ∧
        db'.permissions = db.permissions := by
  cases effect with
  | rolePermission rp _ _ _ _ permissions roles rolePermissions =>
    obtain rfl | old := (rolePermissions row).mp stored
    · exact .inr ⟨rfl, roles, permissions⟩
    · exact .inl old
  | none => exact .inl stored
  | permission _ _ _ _ _ _ same | role _ _ _ _ _ _ same | user _ _ _ _ _ _ _ _ same
  | userRole _ _ _ _ _ _ _ same => exact .inl (same ▸ stored)

theorem Effect.userRole_new (effect : Effect db c db') {row : UserRole}
    (stored : row ∈ db'.userRoles) : row ∈ db.userRoles ∨
      c = .userRoleUpsert row.userId row.roleId ∧ db'.users = db.users ∧ db'.roles = db.roles := by
  cases effect with
  | userRole ur _ _ _ _ _ roles _ users userRoles =>
    obtain rfl | old := (userRoles row).mp stored
    · exact .inr ⟨rfl, users, roles⟩
    · exact .inl old
  | none => exact .inl stored
  | permission _ _ _ _ _ _ _ _ same | role _ _ _ _ _ _ _ _ same
  | rolePermission _ _ _ _ _ _ _ _ _ same | user _ _ _ _ _ _ _ _ _ _ same =>
    exact .inl (same ▸ stored)

/-- A row that an old row refers to is an old one. -/
theorem Effect.role_old (effect : Effect db c db') {row : Role} (stored : row ∈ db'.roles)
    (referred : ∃ other ∈ db.roles.rows, other.id = row.id) : row ∈ db.roles := by
  obtain old | ⟨-, fresh⟩ := effect.role_new stored
  · exact old
  · obtain ⟨other, found, same⟩ := referred
    exact absurd same (fresh other found)

/-- A command adds nothing else. -/
theorem Effect.facts (effect : Effect db c db') : db'.facts ⊆ db.facts ∪ db.learns c := by
  intro fact holds
  cases fact with
  | permission code =>
    obtain ⟨row, stored, rfl⟩ := holds
    exact (effect.permission_new stored).imp (fun old => ⟨row, old, rfl⟩) And.left
  | role name =>
    obtain ⟨row, stored, rfl⟩ := holds
    exact (effect.role_new stored).imp (fun old => ⟨row, old, rfl⟩) And.left
  | user email =>
    obtain ⟨row, stored, rfl⟩ := holds
    exact (effect.user_new stored).imp (fun old => ⟨row, old, rfl⟩) And.left
  | grant name code =>
    obtain ⟨rp, stored, ⟨role, hasRole, sameRole, rfl⟩, p, hasPermission, samePermission, rfl⟩ :=
      holds
    obtain old | ⟨rfl, roles, permissions⟩ := effect.rolePermission_new stored
    · refine .inl ⟨rp, old, ⟨role, ?_, sameRole, rfl⟩, p, ?_, samePermission, rfl⟩
      · exact effect.role_old hasRole (sameRole ▸ db.granting rp old)
      · obtain old' | ⟨-, fresh⟩ := effect.permission_new hasPermission
        · exact old'
        · obtain ⟨other, found, same⟩ := db.granted rp old
          exact absurd (same.trans samePermission.symm) (fresh other found)
    · exact .inr ⟨role, roles ▸ hasRole, sameRole, p, permissions ▸ hasPermission, samePermission,
        rfl⟩
  | member email name =>
    obtain ⟨ur, stored, ⟨user, hasUser, sameUser, rfl⟩, role, hasRole, sameRole, rfl⟩ := holds
    obtain old | ⟨rfl, users, roles⟩ := effect.userRole_new stored
    · refine .inl ⟨ur, old, ⟨user, ?_, sameUser, rfl⟩, role, ?_, sameRole, rfl⟩
      · obtain old' | ⟨-, fresh⟩ := effect.user_new hasUser
        · exact old'
        · obtain ⟨other, found, same⟩ := db.holding ur old
          exact absurd (same.trans sameUser.symm) (fresh other found)
      · exact effect.role_old hasRole (sameRole ▸ db.held ur old)
    · exact .inr ⟨user, users ▸ hasUser, sameUser, role, roles ▸ hasRole, sameRole, rfl⟩

/-- A command that has nothing to add leaves the tables as they are. -/
theorem Effect.idle (effect : Effect db c db') (known : db.learns c ⊆ db.facts) : db' = db := by
  cases effect with
  | none => rfl
  | permission p _ _ fresh =>
    obtain ⟨row, stored, same⟩ := known (rfl : Fact.permission p.code ∈ {Fact.permission p.code})
    exact absurd same (fresh row stored).1
  | role new _ _ fresh =>
    obtain ⟨row, stored, same⟩ := known (rfl : Fact.role new.name ∈ {Fact.role new.name})
    exact absurd same (fresh row stored).1
  | user new _ _ _ _ fresh =>
    obtain ⟨row, stored, same⟩ := known (rfl : Fact.user new.email ∈ {Fact.user new.email})
    exact absurd same (fresh row stored).1
  | rolePermission rp _ fresh role permission =>
    obtain ⟨role, hasRole, sameRole⟩ := role
    obtain ⟨p, hasPermission, samePermission⟩ := permission
    obtain ⟨row, stored, ⟨role', hasRole', sameRole', named⟩, p', hasPermission', samePermission',
      coded⟩ := known ⟨role, hasRole, sameRole, p, hasPermission, samePermission, rfl⟩
    cases Table.eq_of_unique db.names hasRole' hasRole named
    cases Table.eq_of_unique db.codes hasPermission' hasPermission coded
    have same : row = rp := Roles.RolePermission.mk.injEq .. ▸
      ⟨sameRole'.symm.trans sameRole, samePermission'.symm.trans samePermission⟩
    exact absurd (same ▸ stored) fresh
  | userRole ur _ fresh user role =>
    obtain ⟨user, hasUser, sameUser⟩ := user
    obtain ⟨role, hasRole, sameRole⟩ := role
    obtain ⟨row, stored, ⟨user', hasUser', sameUser', called⟩, role', hasRole', sameRole', named⟩ :=
      known ⟨user, hasUser, sameUser, role, hasRole, sameRole, rfl⟩
    cases Table.eq_of_unique db.emails hasUser' hasUser called
    cases Table.eq_of_unique db.names hasRole' hasRole named
    have same : row.key = ur.key :=
      Prod.ext (sameUser'.symm.trans sameUser) (sameRole'.symm.trans sameRole)
    exact absurd (userRole_key same ▸ stored) fresh

end Effects

def roleSeeded : Set Fact :=
  {.permission "notifications:read", .permission "notifications:write", .role "user", .role "admin",
    .grant "user" "notifications:read", .grant "admin" "notifications:read",
    .grant "admin" "notifications:write"}

def userSeeded : Set Fact :=
  {.user SEED_ADMIN_EMAIL, .user SEED_USER_EMAIL, .member SEED_ADMIN_EMAIL "admin",
    .member SEED_USER_EMAIL "user"}

/-- What a script is for. -/
def Call.goal : Call → Set Fact
  | .main => roleSeeded ∪ userSeeded
  | .runRoleSeed => roleSeeded
  | .runUserSeed => userSeeded

/-- The replies that a fact rests on. -/
def Proven (trace : List Ev) : Fact → Prop
  | .permission code => ∃ text p, ⟨.permissionUpsert code text, .ok p⟩ ∈ trace
  | .role name => ∃ text role, ⟨.roleUpsert name text, .ok role⟩ ∈ trace
  | .user email => ∃ hash name active user, ⟨.userUpsert email hash name active, .ok user⟩ ∈ trace
  | .grant name code => ∃ text role text' p, ⟨.roleUpsert name text, .ok role⟩ ∈ trace ∧
      ⟨.permissionUpsert code text', .ok p⟩ ∈ trace ∧
        ⟨.rolePermissionUpsert role.id p.id, .ok ()⟩ ∈ trace
  | .member email name => ∃ hash called active user role,
      ⟨.userUpsert email hash called active, .ok user⟩ ∈ trace ∧
        ⟨.roleFindUnique name, .ok (some role)⟩ ∈ trace ∧
          ⟨.userRoleUpsert user.id role.id, .ok ()⟩ ∈ trace

/-- Both roles have been found. -/
def RolesFound (trace : List Ev) : Prop :=
  ∀ name ∈ ["admin", "user"], ∃ role, ⟨.roleFindUnique name, .ok (some role)⟩ ∈ trace

/-- A command of a script is about rows that earlier replies have returned. A role is looked up
after it has been written, where that is a part of the script. -/
def ScriptPoint (goal : Set Fact) (trace : List Ev) : Cmd → Prop
  | .permissionUpsert code _ => .permission code ∈ goal
  | .roleUpsert name _ => .role name ∈ goal
  | .userUpsert email .. => .user email ∈ goal
  | .rolePermissionUpsert roleId permissionId => ∃ name text role code text' p,
      ⟨.roleUpsert name text, .ok role⟩ ∈ trace ∧ role.id = roleId ∧
        ⟨.permissionUpsert code text', .ok p⟩ ∈ trace ∧ p.id = permissionId ∧
          .grant name code ∈ goal
  | .userRoleUpsert userId roleId => ∃ email hash called active user name role,
      ⟨.userUpsert email hash called active, .ok user⟩ ∈ trace ∧ user.id = userId ∧
        ⟨.roleFindUnique name, .ok (some role)⟩ ∈ trace ∧ role.id = roleId ∧
          .member email name ∈ goal ∧ RolesFound trace
  | .roleFindUnique name => .role name ∈ goal → Proven trace (.role name)
  | .argon2Hash _ => True

/-- A script that returns has every fact of its goal from a reply. It throws what a command was
rejected with, or misses a role. -/
def ScriptEnd (goal : Set Fact) (trace : List Ev) : Except Exn α → Prop
  | .ok _ => ∀ fact ∈ goal, Proven trace fact
  | .error e => (∃ c, ⟨c, .error e⟩ ∈ trace) ∨
      e = rolesMissing ∧ ∃ name ∈ ["admin", "user"], ⟨.roleFindUnique name, .ok none⟩ ∈ trace

theorem rolesFound {trace : List Ev} (roleAdmin roleUser : Role)
    (admin : ⟨.roleFindUnique "admin", .ok (some roleAdmin)⟩ ∈ trace)
    (user : ⟨.roleFindUnique "user", .ok (some roleUser)⟩ ∈ trace) : RolesFound trace := by
  intro name named
  simp only [List.mem_cons, List.not_mem_nil, or_false] at named
  obtain rfl | rfl := named
  · exact ⟨roleAdmin, admin⟩
  · exact ⟨roleUser, user⟩

section Points

variable {α : Type} {goal : Set Fact} {trace : List Ev}

theorem along_step {c : Cmd} {f : c.Resp → Action α} {R : List Ev → Except Exn α → Prop}
    {P : List Ev → Cmd → Prop} (point : P trace c)
    (rejected : ∀ trace e, (∃ c, ⟨c, .error e⟩ ∈ trace) → R trace (.error e))
    (next : ∀ a, Along P R (⟨c, .ok a⟩ :: trace) (f a)) : Along P R trace (call c >>= f) :=
  along_command_bind point (fun e => rejected _ e ⟨c, List.mem_cons_self⟩) next

theorem Proven.mono {trace' : List Ev} {fact : Fact} (proven : Proven trace fact)
    (extends' : ∀ e ∈ trace, e ∈ trace') : Proven trace' fact := by
  cases fact with
  | permission code =>
    obtain ⟨text, p, replied⟩ := proven
    exact ⟨text, p, extends' _ replied⟩
  | role name =>
    obtain ⟨text, role, replied⟩ := proven
    exact ⟨text, role, extends' _ replied⟩
  | user email =>
    obtain ⟨hash, name, active, user, replied⟩ := proven
    exact ⟨hash, name, active, user, extends' _ replied⟩
  | grant name code =>
    obtain ⟨text, role, text', p, hasRole, hasPermission, granted⟩ := proven
    exact ⟨text, role, text', p, extends' _ hasRole, extends' _ hasPermission, extends' _ granted⟩
  | member email name =>
    obtain ⟨hash, called, active, user, role, hasUser, hasRole, assigned⟩ := proven
    exact ⟨hash, called, active, user, role, extends' _ hasUser, extends' _ hasRole,
      extends' _ assigned⟩

/-- The part of a script that `runRoleSeed` is. -/
theorem along_runRoleSeed (within : roleSeeded ⊆ goal) :
    Along (ScriptPoint goal) (fun trace r => match r with
      | .ok _ => ∀ fact ∈ roleSeeded, Proven trace fact
      | .error e => ∃ c, ⟨c, .error e⟩ ∈ trace) [] runRoleSeed := by
  apply along_step (within (by simp [roleSeeded])) (fun _ _ thrown => thrown)
  intro permRead
  apply along_step (within (by simp [roleSeeded])) (fun _ _ thrown => thrown)
  intro permWrite
  apply along_step (within (by simp [roleSeeded])) (fun _ _ thrown => thrown)
  intro roleUser
  apply along_step (within (by simp [roleSeeded])) (fun _ _ thrown => thrown)
  intro roleAdmin
  refine along_step ⟨"user", _, roleUser, "notifications:read", _, permRead,
    by simp, rfl,
    by simp, rfl, within (by simp [roleSeeded])⟩
    (fun _ _ thrown => thrown) ?_
  intro _
  refine along_step ⟨"admin", _, roleAdmin, "notifications:read", _, permRead,
    by simp, rfl,
    by simp, rfl, within (by simp [roleSeeded])⟩
    (fun _ _ thrown => thrown) ?_
  intro _
  refine along_step ⟨"admin", _, roleAdmin, "notifications:write", _, permWrite,
    by simp, rfl,
    by simp, rfl, within (by simp [roleSeeded])⟩
    (fun _ _ thrown => thrown) ?_
  intro _ fact seeded
  rcases seeded with rfl | rfl | rfl | rfl | rfl | rfl | rfl
  · exact ⟨_, permRead, by simp⟩
  · exact ⟨_, permWrite, by simp⟩
  · exact ⟨_, roleUser, by simp⟩
  · exact ⟨_, roleAdmin, by simp⟩
  · exact ⟨_, roleUser, _, permRead, by simp,
      by simp, by simp⟩
  · exact ⟨_, roleAdmin, _, permRead, by simp,
      by simp, by simp⟩
  · exact ⟨_, roleAdmin, _, permWrite, by simp,
      by simp, by simp⟩

/-- The part that `runUserSeed` is, where the rest of the goal has been reached before. -/
theorem along_runUserSeed (within : userSeeded ⊆ goal)
    (before : ∀ fact ∈ goal, fact ∈ userSeeded ∨ Proven trace fact) :
    Along (ScriptPoint goal) (ScriptEnd goal) trace runUserSeed := by
  apply along_step trivial (fun _ _ thrown => .inl thrown)
  intro adminHash
  apply along_step trivial (fun _ _ thrown => .inl thrown)
  intro userHash
  apply along_step (within (by simp [userSeeded])) (fun _ _ thrown => .inl thrown)
  intro admin
  apply along_step (within (by simp [userSeeded])) (fun _ _ thrown => .inl thrown)
  intro user
  have written : ∀ {later : List Ev} {name : String}, (∀ e ∈ trace, e ∈ later) →
      .role name ∈ goal → Proven later (.role name) := by
    intro later name extends' wanted
    obtain seeded | earlier := before _ wanted
    · simp [userSeeded] at seeded
    · exact earlier.mono extends'
  refine along_step (written fun e found => ?_) (fun _ _ thrown => .inl thrown) ?_
  · iterate 4 apply List.mem_cons_of_mem
    exact found
  intro roleAdmin
  refine along_step (written fun e found => ?_) (fun _ _ thrown => .inl thrown) ?_
  · iterate 5 apply List.mem_cons_of_mem
    exact found
  intro roleUser
  cases roleAdmin with
  | none => exact .inr ⟨rfl, "admin", by simp, by simp⟩
  | some roleAdmin =>
    cases roleUser with
    | none => exact .inr ⟨rfl, "user", by simp, by simp⟩
    | some roleUser =>
      refine along_step ⟨SEED_ADMIN_EMAIL, adminHash, _, _, admin, "admin", roleAdmin, by simp, rfl,
        by simp, rfl, within (by simp [userSeeded]),
        rolesFound roleAdmin roleUser (by simp) (by simp)⟩ (fun _ _ thrown => .inl thrown) ?_
      intro _
      refine ⟨⟨SEED_USER_EMAIL, userHash, _, _, user, "user", roleUser, by simp, rfl, by simp, rfl,
        within (by simp [userSeeded]), rolesFound roleAdmin roleUser (by simp) (by simp)⟩,
        fun r => ?_⟩
      cases r with
      | error e => exact .inl ⟨_, List.mem_cons_self⟩
      | ok _ =>
        intro fact wanted
        obtain seeded | earlier := before fact wanted
        · rcases seeded with rfl | rfl | rfl | rfl
          · exact ⟨adminHash, _, _, admin, by simp⟩
          · exact ⟨userHash, _, _, user, by simp⟩
          · exact ⟨adminHash, _, _, admin, roleAdmin, by simp, by simp, by simp⟩
          · exact ⟨userHash, _, _, user, roleUser, by simp, by simp, by simp⟩
        · refine earlier.mono fun e found => ?_
          iterate 8 apply List.mem_cons_of_mem
          exact found

theorem along_body (c : Call) : Along (ScriptPoint c.goal) (ScriptEnd c.goal) [] (body c) := by
  cases c with
  | runUserSeed => exact along_runUserSeed (fun _ seeded => seeded) fun _ seeded => .inl seeded
  | runRoleSeed =>
    refine along_bind.mpr ((along_runRoleSeed fun _ seeded => seeded).mono (fun _ _ point => point)
      fun trace r ended => ?_)
    cases r with
    | error e => exact .inl ended
    | ok roles => exact ended
  | main =>
    refine along_bind.mpr ((along_runRoleSeed fun _ seeded => .inl seeded).mono
      (fun _ _ point => point) fun trace r ended => ?_)
    cases r with
    | error e => exact .inl ended
    | ok roles =>
      exact along_runUserSeed (fun _ seeded => .inr seeded) fun fact wanted =>
        wanted.symm.imp_right (ended fact)

end Points

/-- The scripts run from a database, in any number and any interleaving. -/
abbrev From (db : Db) : SeedPool → Prop := seedSystem.Reachable System.Any fun s => s.db = db

section Runs

variable {db : Db} {goal : Set Fact} {trace : List Ev} {pool : SeedPool} {th : SeedThread}

theorem proven_holds {fact : Fact} (shown : ∀ e ∈ trace, Shows db e) (proven : Proven trace fact) :
    fact ∈ db.facts := by
  cases fact with
  | permission code =>
    obtain ⟨_, p, replied⟩ := proven
    exact ⟨p, shown _ replied⟩
  | role name =>
    obtain ⟨_, role, replied⟩ := proven
    exact ⟨role, shown _ replied⟩
  | user email =>
    obtain ⟨_, _, _, user, replied⟩ := proven
    exact ⟨user, shown _ replied⟩
  | grant name code =>
    obtain ⟨_, role, _, p, hasRole, hasPermission, granted⟩ := proven
    obtain ⟨storedRole, named⟩ := shown _ hasRole
    obtain ⟨storedPermission, coded⟩ := shown _ hasPermission
    exact ⟨_, shown _ granted, ⟨role, storedRole, rfl, named⟩, p, storedPermission, rfl, coded⟩
  | member email name =>
    obtain ⟨_, _, _, user, role, hasUser, hasRole, assigned⟩ := proven
    obtain ⟨storedUser, called⟩ := shown _ hasUser
    obtain ⟨storedRole, named⟩ := shown _ hasRole
    exact ⟨_, shown _ assigned, ⟨user, storedUser, rfl, called⟩, role, storedRole, rfl, named⟩

theorem learns_within {c : Cmd} (shown : ∀ e ∈ trace, Shows db e)
    (point : ScriptPoint goal trace c) : db.learns c ⊆ goal := by
  cases c with
  | argon2Hash | roleFindUnique => exact fun _ learnt => absurd learnt (Set.notMem_empty _)
  | permissionUpsert | roleUpsert | userUpsert =>
    rintro _ rfl
    exact point
  | rolePermissionUpsert roleId permissionId =>
    intro fact learnt
    obtain ⟨role', storedRole', sameRole', p', storedPermission', samePermission', rfl⟩ := learnt
    obtain ⟨name, _, role, code, _, p, hasRole, sameRole, hasPermission, samePermission, wanted⟩ :=
      point
    obtain ⟨storedRole, named⟩ := shown _ hasRole
    obtain ⟨storedPermission, coded⟩ := shown _ hasPermission
    rwa [Table.eq_of_key storedRole' storedRole (sameRole'.trans sameRole.symm),
      Table.eq_of_key storedPermission' storedPermission
        (samePermission'.trans samePermission.symm), named, coded]
  | userRoleUpsert userId roleId =>
    intro fact learnt
    obtain ⟨user', storedUser', sameUser', role', storedRole', sameRole', rfl⟩ := learnt
    obtain ⟨email, _, _, _, user, name, role, hasUser, sameUser, hasRole, sameRole, wanted, _⟩ :=
      point
    obtain ⟨storedUser, called⟩ := shown _ hasUser
    obtain ⟨storedRole, named⟩ := shown _ hasRole
    rwa [Table.eq_of_key storedUser' storedUser (sameUser'.trans sameUser.symm),
      Table.eq_of_key storedRole' storedRole (sameRole'.trans sameRole.symm), called, named]

/-- Everything that a script has been told is still so. -/
theorem shown (reachable : From db pool) (found : pool.thread? t = some th) (e : Ev)
    (executed : e ∈ th.trace) : Shows pool.store.db e := by
  refine reachable.seen (P := fun _ s e => Shows s.db e) found executed ?_ ?_ ?_
  · intro pool t choice th c r s _ _ _ ran
    exact (exec_effect ran).2
  · intro _ e c choice s r s' ran before
    exact before.kept (exec_effect ran).1.keeps
  · intro _ e ms s s' ticked before
    cases Option.some.inj ticked
    exact before

/-- What a step of a run does to the tables, within the goals of the scripts. -/
theorem step_effect (reachable : From db pool) {pool' : SeedPool} {label : Step}
    (effect : seedSystem.Effect pool label pool') :
    ∃ c, Effect pool.store.db c pool'.store.db ∧ pool.store.db.learns c ⊆ Call.main.goal := by
  cases effect with
  | spawn q => exact ⟨.argon2Hash "", .none _, Set.empty_subset _⟩
  | act ms s ticked =>
    cases Option.some.inj ticked
    exact ⟨.argon2Hash "", .none _, Set.empty_subset _⟩
  | run t choice th c k r s found awaits ran =>
    refine ⟨c, (exec_effect ran).1, ?_⟩
    have point := reachable.point along_body found (by rw [Thread.next?, awaits])
    refine (learns_within (shown reachable found) point).trans ?_
    cases th.request with
    | main => exact fun _ wanted => wanted
    | runRoleSeed => exact Set.subset_union_left
    | runUserSeed => exact Set.subset_union_right

theorem accretes (db : Db) : seedSystem.Accretes System.Any (fun s => s.db = db)
    (fun s => s.db.facts) Call.main.goal := by
  intro pool label pool' before _ effect
  obtain ⟨c, changed, learns⟩ := step_effect before effect
  exact ⟨changed.keeps.facts, changed.facts.trans (Set.union_subset_union_right _ learns)⟩

theorem rows_kept (reachable : From db pool) : Keeps db pool.store.db := by
  refine reachable.invariant (P := fun pool => Keeps db pool.store.db) ?_ ?_
  · rintro s rfl
    exact .refl _
  · intro pool label pool' before _ keeps _ effect
    obtain ⟨c, changed, -⟩ := step_effect before effect
    exact keeps.trans changed.keeps

theorem goal_reached (reachable : From db pool) (member : th ∈ pool.threads)
    (ended : th.result? = some (.ok ())) : th.request.goal ⊆ pool.store.db.facts := by
  intro fact wanted
  obtain ⟨t, found⟩ := Pool.mem_threads.mp member
  exact proven_holds (shown reachable found)
    (reachable.returned along_body found ended fact wanted)

/-- No run takes a row away or changes it, whatever fails and wherever a script is interrupted,
and no run adds anything but the goal. A script that has returned has reached its goal, so that
all runs with a complete one agree on what the tables say. -/
theorem seeds_converge (reachable : From db pool) : Keeps db pool.store.db ∧
    pool.store.db.facts ⊆ db.facts ∪ Call.main.goal ∧
    (∀ th ∈ pool.threads, th.result? = some (.ok ()) → th.request.goal ⊆ pool.store.db.facts) ∧
    ((∃ th ∈ pool.threads, th.request = .main ∧ th.result? = some (.ok ())) →
      pool.store.db.facts = db.facts ∪ Call.main.goal) := by
  have start : ∀ s : Store, s.db = db → s.db.facts = db.facts := fun s same => same ▸ rfl
  refine ⟨rows_kept reachable, ((accretes db).between _ start reachable).2,
    fun th member ended => goal_reached reachable member ended, ?_⟩
  rintro ⟨th, member, asked, ended⟩
  refine (accretes db).complete start reachable ?_
  rw [← asked]
  exact goal_reached reachable member ended

/-- The scripts on an empty database, one command after the other. -/
def firstRun : List Step :=
  .spawn .main :: [manageId, refundId, adminId, editorId, "", "", "", argonSalt1, argonSalt2,
    aliceId, bobId, "", "", "", ""].map fun draw => .run 0 { draw }

def finished (t : Nat) (pool : SeedPool) : Bool :=
  match pool.thread? t with
  | some ⟨.main, _, .done (.ok ())⟩ => true
  | _ => false

theorem of_finished (ended : finished t pool = true) :
    ∃ th ∈ pool.threads, th.request = .main ∧ th.result? = some (.ok ()) := by
  unfold finished at ended
  split at ended
  · rename_i trace found
    exact ⟨_, Pool.thread?_mem found, rfl, rfl⟩
  · contradiction

theorem seeds_converge_first : ∃ pool : SeedPool, From .empty pool ∧
    pool.store.db.facts = Db.empty.facts ∪ Call.main.goal := by
  have tested : (seedSystem.replay System.Any (System.idle {}) firstRun).any
      (finished 0) = true := by decide +kernel
  obtain ⟨pool, run, ended⟩ := System.run_of_replay tested
  have reachable : From .empty pool := ⟨{}, rfl, run⟩
  exact ⟨pool, reachable, (seeds_converge reachable).2.2.2 (of_finished ended)⟩

/-- From a state in which the goal is reached, the tables stay as they are, row by row, whatever is
run again. -/
theorem seeds_idempotent {pool' : SeedPool} (reachable : From db pool)
    (seeded : Call.main.goal ⊆ pool.store.db.facts)
    (run : seedSystem.Run System.Any pool pool') : pool'.store.db = pool.store.db := by
  refine (accretes db).settled (fun s s' => s'.db = s.db) (fun _ => rfl)
    (fun s t u (first : t.db = s.db) (second : u.db = t.db) => second.trans first) ?_ reachable
    seeded run
  intro pool label pool' before _ effect there
  obtain ⟨c, changed, learns⟩ := step_effect before effect
  exact changed.idle (learns.trans there)

/-- The scripts are run a second time, beside the first. -/
def secondRun : List Step :=
  .spawn .main :: (List.replicate 15 "x").map fun draw => .run 1 { draw }

theorem seeds_idempotent_second : ∃ pool pool' : SeedPool, From .empty pool ∧
    finished 1 pool' = true ∧ pool'.store.db = pool.store.db := by
  have both : ((seedSystem.replay System.Any (System.idle {}) firstRun).any fun pool =>
      finished 0 pool && (seedSystem.replay System.Any pool secondRun).any (finished 1)) =
      true := by
    decide +kernel
  obtain ⟨pool, run, ended⟩ := System.run_of_replay both
  obtain ⟨ended, again⟩ := Bool.and_eq_true_iff.mp ended
  obtain ⟨pool', run', ended'⟩ := System.run_of_replay again
  have reachable : From .empty pool := ⟨{}, rfl, run⟩
  obtain ⟨th, member, asked, returned⟩ := of_finished ended
  exact ⟨pool, pool', reachable, ended',
    seeds_idempotent reachable (asked ▸ goal_reached reachable member returned) run'⟩

/-- A role that a script misses was not there at the start, and is not one that the script writes
itself. -/
theorem role_missed (reachable : From db pool) (found : pool.thread? t = some th) {name : String}
    (executed : (⟨.roleFindUnique name, .ok none⟩ : Ev) ∈ th.trace) :
    .role name ∉ db.facts ∧ .role name ∉ th.request.goal := by
  refine reachable.witnessed (P := fun q _ (e : Ev) => ∀ name,
    e = ⟨.roleFindUnique name, .ok none⟩ → .role name ∉ db.facts ∧ .role name ∉ q.goal)
    found executed ?_ ?_ name rfl
  · rintro pool t choice th c r s before found next - ran name ⟨⟩
    have absent : .role name ∉ pool.store.db.facts := by
      rintro ⟨role, stored, named⟩
      rcases choice with ⟨_ | e, _⟩
      · have missing := Except.ok.inj (Prod.mk.inj (Option.some.inj ran)).1
        exact List.find?_eq_none.mp missing role stored (decide_eq_true named)
      · have rejected := (Prod.mk.inj (Option.some.inj ran)).1
        contradiction
    refine ⟨fun known => absent ((rows_kept before).facts known), fun wanted => absent ?_⟩
    exact proven_holds (shown before found) (before.point along_body found next wanted)
  · intro pool label pool' q e _ _ _ holds
    exact holds

/-- What keeps `runUserSeed` from assigning a role: one of the two is missing. -/
def LacksRole (db : Db) : Prop := .role "admin" ∉ db.facts ∨ .role "user" ∉ db.facts

theorem LacksRole.not_found {roles : Db} (lacks : LacksRole db)
    (same : roles.roles = db.roles) (shown : ∀ e ∈ trace, Shows roles e) : ¬ RolesFound trace := by
  intro both
  have there : ∀ name ∈ ["admin", "user"], .role name ∈ db.facts := by
    intro name named
    obtain ⟨role, replied⟩ := both name named
    obtain ⟨stored, called⟩ := shown _ replied
    exact ⟨role, same ▸ stored, called⟩
  rcases lacks with absent | absent
  · exact absent (there "admin" (by simp))
  · exact absent (there "user" (by simp))

/-- What the user seed alone leaves as it is. -/
structure RolesKept (db db' : Db) : Prop where
  permissions : db'.permissions = db.permissions
  roles : db'.roles = db.roles
  rolePermissions : db'.rolePermissions = db.rolePermissions
  userRoles : db'.userRoles = db.userRoles

/-- `runUserSeed` writes users and memberships only, and these after it has found both roles. -/
theorem userSeed_kept {db' : Db} {c : Cmd} (effect : Effect db c db')
    (point : ScriptPoint userSeeded trace c) (missing : ¬ RolesFound trace) : RolesKept db db' := by
  cases effect with
  | none => exact ⟨rfl, rfl, rfl, rfl⟩
  | permission | role => simp [ScriptPoint, userSeeded] at point
  | rolePermission =>
    obtain ⟨_, _, _, _, _, _, _, _, _, _, wanted⟩ := point
    simp [userSeeded] at wanted
  | user _ _ _ _ _ _ permissions roles rolePermissions _ userRoles =>
    exact ⟨permissions, roles, rolePermissions, userRoles⟩
  | userRole =>
    obtain ⟨_, _, _, _, _, _, _, _, _, _, _, _, both⟩ := point
    exact absurd both missing

/-- As long as only the user seed runs, on a database that lacks a role, the roles and who holds
them stay as they are. -/
theorem userSeed_alone (lacks : LacksRole db) (reachable : From db pool)
    (only : ∀ th ∈ pool.threads, th.request = .runUserSeed) : RolesKept db pool.store.db := by
  suffices kept : (∃ th ∈ pool.threads, th.request ≠ .runUserSeed) ∨ RolesKept db pool.store.db by
    obtain ⟨th, member, other⟩ | kept := kept
    · exact absurd (only th member) other
    · exact kept
  refine reachable.invariant (P := fun pool => (∃ th ∈ pool.threads, th.request ≠ .runUserSeed) ∨
    RolesKept db pool.store.db) ?_ ?_
  · rintro s rfl
    exact .inr ⟨rfl, rfl, rfl, rfl⟩
  · rintro pool label pool' before - held - effect
    obtain ⟨th, member, other⟩ | kept := held
    · obtain ⟨th', member', same⟩ := effect.call_kept member
      exact .inl ⟨th', member', same ▸ other⟩
    cases effect with
    | spawn q => exact .inr kept
    | act ms s ticked =>
      cases Option.some.inj ticked
      exact .inr kept
    | run t choice th c k r s found awaits ran =>
      by_cases user : th.request = .runUserSeed
      · have point := before.point along_body found (by rw [Thread.next?, awaits])
        rw [user] at point
        have next := userSeed_kept (exec_effect ran).1 point
          (lacks.not_found kept.roles (shown before found))
        exact .inr ⟨next.permissions.trans kept.permissions, next.roles.trans kept.roles,
          next.rolePermissions.trans kept.rolePermissions, next.userRoles.trans kept.userRoles⟩
      · exact .inl ⟨_, Pool.thread?_mem (Pool.set_self _ found), user⟩

/-- A script that misses a role is the user seed on a database without it; and then, as long as no
other script is run, each of its calls throws in the end, and nobody is given a role. -/
theorem user_seed_needs_roles (reachable : From db pool) :
    (∀ th ∈ pool.threads, ∀ e, th.result? = some (.error e) → (∃ c, ⟨c, .error e⟩ ∈ th.trace) ∨
      e = rolesMissing ∧ th.request = .runUserSeed ∧ LacksRole db) ∧
    (LacksRole db → (∀ th ∈ pool.threads, th.request = .runUserSeed) →
      pool.store.db.roles = db.roles ∧ pool.store.db.userRoles = db.userRoles ∧
        ∀ th ∈ pool.threads, th.result? ≠ some (.ok ())) := by
  constructor
  · intro th member e ended
    obtain ⟨t, found⟩ := Pool.mem_threads.mp member
    obtain rejected | ⟨rfl, name, named, missed⟩ := reachable.returned along_body found ended
    · exact .inl rejected
    · obtain ⟨absent, foreign⟩ := role_missed reachable found missed
      simp only [List.mem_cons, List.not_mem_nil, or_false] at named
      refine .inr ⟨rfl, ?_, ?_⟩
      · cases asked : th.request with
        | runUserSeed => rfl
        | main | runRoleSeed =>
          rw [asked] at foreign
          rcases named with rfl | rfl <;> simp [Call.goal, roleSeeded] at foreign
      · rcases named with rfl | rfl
        · exact .inl absent
        · exact .inr absent
  · intro lacks only
    have kept := userSeed_alone lacks reachable only
    refine ⟨kept.roles, kept.userRoles, fun th member ended => ?_⟩
    obtain ⟨t, found⟩ := Pool.mem_threads.mp member
    have proven := reachable.returned along_body found ended
    rw [only th member] at proven
    refine lacks.not_found kept.roles (shown reachable found) ?_
    obtain ⟨_, _, _, _, roleAdmin, _, hasAdmin, _⟩ :=
      proven (.member SEED_ADMIN_EMAIL "admin") (by simp [Call.goal, userSeeded])
    obtain ⟨_, _, _, _, roleUser, _, hasUser, _⟩ :=
      proven (.member SEED_USER_EMAIL "user") (by simp [Call.goal, userSeeded])
    exact rolesFound roleAdmin roleUser hasAdmin hasUser

/-- The user seed alone, on an empty database. -/
def userRun : List Step :=
  .spawn .runUserSeed :: [argonSalt1, argonSalt2, aliceId, bobId, "", ""].map
    fun draw => .run 0 { draw }

def rejectedUserSeed (pool : SeedPool) : Bool :=
  match pool.threads with
  | [⟨.runUserSeed, _, .done (.error e)⟩] => e = rolesMissing
  | _ => false

theorem user_seed_needs_roles_first : ∃ pool : SeedPool, From .empty pool ∧
    rejectedUserSeed pool = true ∧ pool.store.db.userRoles = Db.empty.userRoles := by
  have tested : (seedSystem.replay System.Any (System.idle {}) userRun).any
      rejectedUserSeed = true := by decide +kernel
  obtain ⟨pool, run, ended⟩ := System.run_of_replay tested
  have reachable : From .empty pool := ⟨{}, rfl, run⟩
  have lacks : LacksRole .empty := by
    refine .inl ?_
    rintro ⟨role, stored, _⟩
    exact Table.not_mem_empty role stored
  have only : ∀ th ∈ pool.threads, th.request = .runUserSeed := by
    unfold rejectedUserSeed at ended
    split at ended
    · rename_i alone
      intro th member
      rw [alone] at member
      cases List.mem_singleton.mp member
      rfl
    · contradiction
  exact ⟨pool, reachable, ended, ((user_seed_needs_roles reachable).2 lacks only).2.1⟩

end Runs
end CorePlatform.Seed
