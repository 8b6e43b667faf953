import CorePlatform.Async.Pool
import CorePlatform.Seed.Store

/-! The seed scripts of auth-service, run any number of times and concurrently over one
database. -/
namespace CorePlatform.Seed
open Async Relational
open Roles (Role Permission RolePermission UserRole)
open Auth (User)

abbrev Action := Prog Api Exn

def call (c : Cmd) : Action c.Resp := Prog.perform (I := Api) c

/-- The roles `user` and `admin`, in this order. -/
def runRoleSeed : Action (Role × Role) := do
  let permRead ← call
    (.permissionUpsert "notifications:read" "Xem danh sách thông báo và unread count")
  let permWrite ← call (.permissionUpsert "notifications:write" "Đánh dấu đọc / read-all thông báo")
  let roleUser ← call (.roleUpsert "user" "User thường - chỉ notifications:read")
  let roleAdmin ← call (.roleUpsert "admin" "Admin - đủ notifications:read + notifications:write")
  call (.rolePermissionUpsert roleUser.id permRead.id)
  call (.rolePermissionUpsert roleAdmin.id permRead.id)
  call (.rolePermissionUpsert roleAdmin.id permWrite.id)
  return (roleUser, roleAdmin)

def SEED_ADMIN_EMAIL : String := "admin@example.com"
def SEED_ADMIN_PASSWORD : String := "Admin@123"
def SEED_USER_EMAIL : String := "user@example.com"
def SEED_USER_PASSWORD : String := "User@123"

def rolesMissing : Exn := .error none "Run role seed first."

def runUserSeed : Action Unit := do
  let adminHash ← call (.argon2Hash SEED_ADMIN_PASSWORD)
  let userHash ← call (.argon2Hash SEED_USER_PASSWORD)
  let admin ← call (.userUpsert SEED_ADMIN_EMAIL adminHash "Admin Seed" true)
  let user ← call (.userUpsert SEED_USER_EMAIL userHash "User Seed" true)
  let roleAdmin ← call (.roleFindUnique "admin")
  let roleUser ← call (.roleFindUnique "user")
  match roleAdmin, roleUser with
  | some roleAdmin, some roleUser =>
    call (.userRoleUpsert admin.id roleAdmin.id)
    call (.userRoleUpsert user.id roleUser.id)
  | _, _ => throw rolesMissing

def main : Action Unit := do
  let _ ← runRoleSeed
  runUserSeed

inductive Call where
  | main
  | runRoleSeed
  | runUserSeed
  deriving DecidableEq

def body : Call → Action Unit
  | .main => main
  | .runRoleSeed => do
    let _ ← runRoleSeed
    return ()
  | .runUserSeed => runUserSeed

@[reducible] def seedSystem : System Api Exn Call Unit Store where
  toSemantics := semantics
  body := body
  Act := Nat
  act ms s := some { s with now := s.now + ms }

abbrev Ev := Event Api Exn
abbrev SeedThread := Thread Api Exn Call Unit
abbrev SeedPool := Pool Api Exn Call Unit Store
abbrev Step := Label Call seedSystem.Choice seedSystem.Act

/-- What a reply of the database shows. No script takes a row away, so that it stays true. -/
def Shows (db : Db) : Ev → Prop
  | ⟨.permissionUpsert code _, .ok p⟩ => p ∈ db.permissions ∧ p.code = code
  | ⟨.roleUpsert name _, .ok role⟩ => role ∈ db.roles ∧ role.name = name
  | ⟨.userUpsert email .., .ok user⟩ => user ∈ db.users ∧ user.email = email
  | ⟨.roleFindUnique name, .ok (some role)⟩ => role ∈ db.roles ∧ role.name = name
  | ⟨.rolePermissionUpsert roleId permissionId, .ok _⟩ =>
      RolePermission.mk roleId permissionId ∈ db.rolePermissions
  | ⟨.userRoleUpsert userId roleId, .ok _⟩ => UserRole.mk userId roleId ∈ db.userRoles
  | _ => True

/-- Every row of `db` is a row of `db'`. -/
structure Keeps (db db' : Db) : Prop where
  permissions : ∀ row ∈ db.permissions, row ∈ db'.permissions
  roles : ∀ row ∈ db.roles, row ∈ db'.roles
  rolePermissions : ∀ row ∈ db.rolePermissions, row ∈ db'.rolePermissions
  users : ∀ row ∈ db.users, row ∈ db'.users
  userRoles : ∀ row ∈ db.userRoles, row ∈ db'.userRoles

/-- What a command can do to the tables: nothing, or one new row where there was none like it. -/
inductive Effect (db : Db) : Cmd → Db → Prop where
  | none (c : Cmd) : Effect db c db
  | permission (p : Permission) (description : String) (db' : Db)
      (fresh : ∀ other ∈ db.permissions, other.code ≠ p.code ∧ other.id ≠ p.id)
      (permissions : ∀ row, row ∈ db'.permissions ↔ row = p ∨ row ∈ db.permissions)
      (roles : db'.roles = db.roles) (rolePermissions : db'.rolePermissions = db.rolePermissions)
      (users : db'.users = db.users) (userRoles : db'.userRoles = db.userRoles) :
      Effect db (.permissionUpsert p.code description) db'
  | role (role : Role) (description : String) (db' : Db)
      (fresh : ∀ other ∈ db.roles, other.name ≠ role.name ∧ other.id ≠ role.id)
      (permissions : db'.permissions = db.permissions)
      (roles : ∀ row, row ∈ db'.roles ↔ row = role ∨ row ∈ db.roles)
      (rolePermissions : db'.rolePermissions = db.rolePermissions)
      (users : db'.users = db.users) (userRoles : db'.userRoles = db.userRoles) :
      Effect db (.roleUpsert role.name description) db'
  | rolePermission (rp : RolePermission) (db' : Db) (fresh : rp ∉ db.rolePermissions)
      (role : ∃ role ∈ db.roles, role.id = rp.roleId)
      (permission : ∃ p ∈ db.permissions, p.id = rp.permissionId)
      (permissions : db'.permissions = db.permissions) (roles : db'.roles = db.roles)
      (rolePermissions : ∀ row, row ∈ db'.rolePermissions ↔ row = rp ∨ row ∈ db.rolePermissions)
      (users : db'.users = db.users) (userRoles : db'.userRoles = db.userRoles) :
      Effect db (.rolePermissionUpsert rp.roleId rp.permissionId) db'
  | user (user : User) (passwordHash : Argon2Hash String) (name : String) (isActive : Bool)
      (db' : Db)
      (fresh : ∀ other ∈ db.users, other.email ≠ user.email ∧ other.id ≠ user.id)
      (permissions : db'.permissions = db.permissions) (roles : db'.roles = db.roles)
      (rolePermissions : db'.rolePermissions = db.rolePermissions)
      (users : ∀ row, row ∈ db'.users ↔ row = user ∨ row ∈ db.users)
      (userRoles : db'.userRoles = db.userRoles) :
      Effect db (.userUpsert user.email passwordHash name isActive) db'
  | userRole (ur : UserRole) (db' : Db) (fresh : ur ∉ db.userRoles)
      (user : ∃ user ∈ db.users, user.id = ur.userId)
      (role : ∃ role ∈ db.roles, role.id = ur.roleId)
      (permissions : db'.permissions = db.permissions) (roles : db'.roles = db.roles)
      (rolePermissions : db'.rolePermissions = db.rolePermissions) (users : db'.users = db.users)
      (userRoles : ∀ row, row ∈ db'.userRoles ↔ row = ur ∨ row ∈ db.userRoles) :
      Effect db (.userRoleUpsert ur.userId ur.roleId) db'

theorem Keeps.refl (db : Db) : Keeps db db :=
  ⟨fun _ found => found, fun _ found => found, fun _ found => found, fun _ found => found,
    fun _ found => found⟩

theorem Keeps.trans {db db' db'' : Db} (first : Keeps db db') (second : Keeps db' db'') :
    Keeps db db'' where
  permissions row found := second.permissions row (first.permissions row found)
  roles row found := second.roles row (first.roles row found)
  rolePermissions row found := second.rolePermissions row (first.rolePermissions row found)
  users row found := second.users row (first.users row found)
  userRoles row found := second.userRoles row (first.userRoles row found)

theorem Effect.keeps {db db' : Db} {c : Cmd} (effect : Effect db c db') : Keeps db db' := by
  cases effect with
  | none => exact .refl db
  | permission _ _ _ _ permissions roles rolePermissions users userRoles =>
    exact ⟨fun row found => (permissions row).mpr (.inr found), fun _ found => roles ▸ found,
      fun _ found => rolePermissions ▸ found, fun _ found => users ▸ found,
      fun _ found => userRoles ▸ found⟩
  | role _ _ _ _ permissions roles rolePermissions users userRoles =>
    exact ⟨fun _ found => permissions ▸ found, fun row found => (roles row).mpr (.inr found),
      fun _ found => rolePermissions ▸ found, fun _ found => users ▸ found,
      fun _ found => userRoles ▸ found⟩
  | rolePermission _ _ _ _ _ permissions roles rolePermissions users userRoles =>
    exact ⟨fun _ found => permissions ▸ found, fun _ found => roles ▸ found,
      fun row found => (rolePermissions row).mpr (.inr found), fun _ found => users ▸ found,
      fun _ found => userRoles ▸ found⟩
  | user _ _ _ _ _ _ permissions roles rolePermissions users userRoles =>
    exact ⟨fun _ found => permissions ▸ found, fun _ found => roles ▸ found,
      fun _ found => rolePermissions ▸ found, fun row found => (users row).mpr (.inr found),
      fun _ found => userRoles ▸ found⟩
  | userRole _ _ _ _ _ permissions roles rolePermissions users userRoles =>
    exact ⟨fun _ found => permissions ▸ found, fun _ found => roles ▸ found,
      fun _ found => rolePermissions ▸ found, fun _ found => users ▸ found,
      fun row found => (userRoles row).mpr (.inr found)⟩

theorem Shows.kept {db db' : Db} {e : Ev} (keeps : Keeps db db') (shows' : Shows db e) :
    Shows db' e := by
  obtain ⟨c, r⟩ := e
  cases r with
  | error e => cases c <;> trivial
  | ok a =>
    cases c with
    | argon2Hash => trivial
    | permissionUpsert => exact ⟨keeps.permissions _ shows'.1, shows'.2⟩
    | roleUpsert => exact ⟨keeps.roles _ shows'.1, shows'.2⟩
    | rolePermissionUpsert => exact keeps.rolePermissions _ shows'
    | userUpsert => exact ⟨keeps.users _ shows'.1, shows'.2⟩
    | userRoleUpsert => exact keeps.userRoles _ shows'
    | roleFindUnique =>
      cases a with
      | none => trivial
      | some role => exact ⟨keeps.roles _ shows'.1, shows'.2⟩

section Effects

variable {db db' : Db}

theorem upsertPermission_effect {p found : Permission} (description : String)
    (upserted : db.upsertPermission p = some (found, db')) :
    Effect db (.permissionUpsert p.code description) db' ∧ found ∈ db'.permissions ∧
      found.code = p.code := by
  unfold Db.upsertPermission at upserted
  split at upserted
  · contradiction
  · rename_i found' permissions rows
    obtain ⟨rfl, rfl⟩ := Prod.mk.inj (Option.some.inj upserted)
    refine ⟨?_, Table.upsert?_found rows⟩
    obtain ⟨rfl, -⟩ | ⟨rfl, fresh, inserted⟩ := Table.upsert?_cases rows
    · exact .none _
    · exact .permission found' description _
        (fun other stored => ⟨fresh other stored, Table.insert?_fresh inserted stored⟩)
        (fun row => Table.mem_insert? inserted) rfl rfl rfl rfl

theorem upsertRole_effect {role found : Role} (description : String)
    (upserted : db.upsertRole role = some (found, db')) :
    Effect db (.roleUpsert role.name description) db' ∧ found ∈ db'.roles ∧
      found.name = role.name := by
  unfold Db.upsertRole at upserted
  split at upserted
  · contradiction
  · rename_i found' roles rows
    obtain ⟨rfl, rfl⟩ := Prod.mk.inj (Option.some.inj upserted)
    refine ⟨?_, Table.upsert?_found rows⟩
    obtain ⟨rfl, -⟩ | ⟨rfl, fresh, inserted⟩ := Table.upsert?_cases rows
    · exact .none _
    · exact .role found' description _
        (fun other stored => ⟨fresh other stored, Table.insert?_fresh inserted stored⟩)
        rfl (fun row => Table.mem_insert? inserted) rfl rfl rfl

theorem upsertUser_effect {user found : User} (passwordHash : Argon2Hash String) (name : String)
    (isActive : Bool) (upserted : db.upsertUser user = some (found, db')) :
    Effect db (.userUpsert user.email passwordHash name isActive) db' ∧ found ∈ db'.users ∧
      found.email = user.email := by
  unfold Db.upsertUser at upserted
  split at upserted
  · contradiction
  · rename_i found' users rows
    obtain ⟨rfl, rfl⟩ := Prod.mk.inj (Option.some.inj upserted)
    refine ⟨?_, Table.upsert?_found rows⟩
    obtain ⟨rfl, -⟩ | ⟨rfl, fresh, inserted⟩ := Table.upsert?_cases rows
    · exact .none _
    · exact .user found' passwordHash name isActive _
        (fun other stored => ⟨fresh other stored, Table.insert?_fresh inserted stored⟩)
        rfl rfl rfl (fun row => Table.mem_insert? inserted) rfl

/-- A key is the whole row. -/
theorem rolePermission_key {rp rp' : RolePermission} (same : rp.key = rp'.key) : rp = rp' := by
  obtain ⟨roleId, permissionId⟩ := rp
  obtain ⟨rfl, rfl⟩ := Prod.mk.inj same
  rfl

theorem userRole_key {ur ur' : UserRole} (same : ur.key = ur'.key) : ur = ur' := by
  obtain ⟨userId, roleId⟩ := ur
  obtain ⟨rfl, rfl⟩ := Prod.mk.inj same
  rfl

theorem upsertRolePermission_effect {rp : RolePermission} {r : Except Exn Unit}
    (upserted : db.upsertRolePermission rp = (r, db')) :
    Effect db (.rolePermissionUpsert rp.roleId rp.permissionId) db' ∧
      (r = .ok () → rp ∈ db'.rolePermissions) := by
  unfold Db.upsertRolePermission at upserted
  split at upserted
  · obtain ⟨rfl, rfl⟩ := Prod.mk.inj upserted
    exact ⟨.none _, fun ok => by cases ok⟩
  · rename_i found rolePermissions rows
    split at upserted
    · rename_i known
      obtain ⟨rfl, rfl⟩ := Prod.mk.inj upserted
      obtain ⟨inTable, same⟩ := Table.upsert?_found rows
      cases rolePermission_key same
      refine ⟨?_, fun _ => inTable⟩
      obtain ⟨rfl, -⟩ | ⟨-, fresh, inserted⟩ := Table.upsert?_cases rows
      · exact .none _
      · exact .rolePermission _ _ (fun stored => fresh _ stored rfl) known.1 known.2 rfl rfl
          (fun row => Table.mem_insert? inserted) rfl rfl
    · obtain ⟨rfl, rfl⟩ := Prod.mk.inj upserted
      exact ⟨.none _, fun ok => by cases ok⟩

theorem upsertUserRole_effect {ur : UserRole} {r : Except Exn Unit}
    (upserted : db.upsertUserRole ur = (r, db')) :
    Effect db (.userRoleUpsert ur.userId ur.roleId) db' ∧ (r = .ok () → ur ∈ db'.userRoles) := by
  unfold Db.upsertUserRole at upserted
  split at upserted
  · obtain ⟨rfl, rfl⟩ := Prod.mk.inj upserted
    exact ⟨.none _, fun ok => by cases ok⟩
  · rename_i found userRoles rows
    split at upserted
    · rename_i known
      obtain ⟨rfl, rfl⟩ := Prod.mk.inj upserted
      obtain ⟨inTable, same⟩ := Table.upsert?_found rows
      cases userRole_key same
      refine ⟨?_, fun _ => inTable⟩
      obtain ⟨rfl, -⟩ | ⟨-, fresh, inserted⟩ := Table.upsert?_cases rows
      · exact .none _
      · exact .userRole _ _ (fun stored => fresh _ stored rfl) known.1 known.2 rfl rfl rfl
          rfl (fun row => Table.mem_insert? inserted)
    · obtain ⟨rfl, rfl⟩ := Prod.mk.inj upserted
      exact ⟨.none _, fun ok => by cases ok⟩

theorem exec_effect {c : Cmd} {choice : Choice} {s s' : Store} {r : Except Exn c.Resp}
    (executed : exec c choice s = some (r, s')) : Effect s.db c s'.db ∧ Shows s'.db ⟨c, r⟩ := by
  unfold exec at executed
  split at executed
  · cases c with
    | argon2Hash password =>
      obtain ⟨rfl, rfl⟩ := Prod.mk.inj (Option.some.inj executed)
      exact ⟨.none _, trivial⟩
    | permissionUpsert code description =>
      obtain ⟨⟨found, db⟩, upserted, both⟩ := Option.map_eq_some_iff.mp executed
      obtain ⟨rfl, rfl⟩ := Prod.mk.inj both
      exact upsertPermission_effect description upserted
    | roleUpsert name description =>
      obtain ⟨⟨found, db⟩, upserted, both⟩ := Option.map_eq_some_iff.mp executed
      obtain ⟨rfl, rfl⟩ := Prod.mk.inj both
      exact upsertRole_effect description upserted
    | userUpsert email passwordHash name isActive =>
      obtain ⟨⟨found, db⟩, upserted, both⟩ := Option.map_eq_some_iff.mp executed
      obtain ⟨rfl, rfl⟩ := Prod.mk.inj both
      exact upsertUser_effect passwordHash name isActive upserted
    | rolePermissionUpsert roleId permissionId =>
      cases upserted : s.db.upsertRolePermission ⟨roleId, permissionId⟩ with
      | mk r' db =>
        simp only [execTotal, upserted, Store.after, Option.some.injEq, Prod.mk.injEq] at executed
        obtain ⟨rfl, rfl⟩ := executed
        obtain ⟨effect, stored⟩ := upsertRolePermission_effect upserted
        refine ⟨effect, ?_⟩
        cases r' with
        | error e => trivial
        | ok _ => exact stored rfl
    | userRoleUpsert userId roleId =>
      cases upserted : s.db.upsertUserRole ⟨userId, roleId⟩ with
      | mk r' db =>
        simp only [execTotal, upserted, Store.after, Option.some.injEq, Prod.mk.injEq] at executed
        obtain ⟨rfl, rfl⟩ := executed
        obtain ⟨effect, stored⟩ := upsertUserRole_effect upserted
        refine ⟨effect, ?_⟩
        cases r' with
        | error e => trivial
        | ok _ => exact stored rfl
    | roleFindUnique name =>
      obtain ⟨rfl, rfl⟩ := Prod.mk.inj (Option.some.inj executed)
      refine ⟨.none _, ?_⟩
      cases found : s.db.roles.rows.find? (·.name = name) with
      | none => trivial
      | some role => exact Table.of_find found
  · obtain ⟨rfl, rfl⟩ := Prod.mk.inj (Option.some.inj executed)
    refine ⟨.none _, ?_⟩
    cases c <;> trivial

end Effects

end CorePlatform.Seed
