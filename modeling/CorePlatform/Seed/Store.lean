import CorePlatform.Relational.Upsert
import CorePlatform.Roles.Store

/-! The database as the seed scripts see it, and the atomic commands that they issue. Every
`upsert` of a script has nothing to update. -/
namespace CorePlatform.Seed
open Async Relational
open Roles (Role Permission RolePermission UserRole foreignKeyViolation)
open Auth (User)

structure Db extends Roles.Db where
  /-- `User.email` is unique. -/
  emails : (users.rows.map User.email).Nodup := by decide

namespace Db

def noUsers : Table User.id := .empty

def noRoles : Table Role.id := .empty

def noPermissions : Table Permission.id := .empty

/-- A new database. -/
def empty : Db := { users := noUsers, roles := noRoles, permissions := noPermissions }

variable (db : Db)

def upsertPermission (permission : Permission) : Option (Permission × Db) :=
  match upserted : db.permissions.upsert? Permission.code permission with
  | none => none
  | some (found, permissions) => some (found, { db with
      permissions
      codes := Table.upsert?_unique upserted db.codes
      granted := by
        intro rp inTable
        obtain ⟨p, stored, same⟩ := db.granted rp inTable
        exact ⟨p, Table.upsert?_kept upserted stored, same⟩ })

def upsertRole (role : Role) : Option (Role × Db) :=
  match upserted : db.roles.upsert? Role.name role with
  | none => none
  | some (found, roles) => some (found, { db with
      roles
      names := Table.upsert?_unique upserted db.names
      granting := by
        intro rp inTable
        obtain ⟨role, stored, same⟩ := db.granting rp inTable
        exact ⟨role, Table.upsert?_kept upserted stored, same⟩
      held := by
        intro ur inTable
        obtain ⟨role, stored, same⟩ := db.held ur inTable
        exact ⟨role, Table.upsert?_kept upserted stored, same⟩ })

def upsertUser (user : User) : Option (User × Db) :=
  match upserted : db.users.upsert? User.email user with
  | none => none
  | some (found, users) => some (found, { db with
      users
      emails := Table.upsert?_unique upserted db.emails
      holding := by
        intro ur inTable
        obtain ⟨user, stored, same⟩ := db.holding ur inTable
        exact ⟨user, Table.upsert?_kept upserted stored, same⟩ })

def upsertRolePermission (rp : RolePermission) : Except Exn Unit × Db :=
  match upserted : db.rolePermissions.upsert? RolePermission.key rp with
  | none => (.error uniqueViolation, db)
  | some (_, rolePermissions) =>
    if known : (∃ role ∈ db.roles.rows, role.id = rp.roleId) ∧ ∃ p ∈ db.permissions.rows,
      p.id = rp.permissionId then
      (.ok (), { db with
        rolePermissions
        granting := by
          intro other inTable
          obtain old | rfl := Table.upsert?_new upserted inTable
          · exact db.granting other old
          · rw [show other.roleId = rp.roleId from
              congrArg Prod.fst (Table.upsert?_found upserted).2]
            exact known.1
        granted := by
          intro other inTable
          obtain old | rfl := Table.upsert?_new upserted inTable
          · exact db.granted other old
          · rw [show other.permissionId = rp.permissionId from
              congrArg Prod.snd (Table.upsert?_found upserted).2]
            exact known.2 })
    else (.error foreignKeyViolation, db)

def upsertUserRole (ur : UserRole) : Except Exn Unit × Db :=
  match upserted : db.userRoles.upsert? UserRole.key ur with
  | none => (.error uniqueViolation, db)
  | some (_, userRoles) =>
    if known : (∃ user ∈ db.users.rows, user.id = ur.userId) ∧ ∃ role ∈ db.roles.rows,
      role.id = ur.roleId then
      (.ok (), { db with
        userRoles
        holding := by
          intro other inTable
          obtain old | rfl := Table.upsert?_new upserted inTable
          · exact db.holding other old
          · rw [show other.userId = ur.userId from
              congrArg Prod.fst (Table.upsert?_found upserted).2]
            exact known.1
        held := by
          intro other inTable
          obtain old | rfl := Table.upsert?_new upserted inTable
          · exact db.held other old
          · rw [show other.roleId = ur.roleId from
              congrArg Prod.snd (Table.upsert?_found upserted).2]
            exact known.2 })
    else (.error foreignKeyViolation, db)

end Db

inductive Cmd where
  /-- `argon2.hash`, under a random salt. -/
  | argon2Hash (password : String)
  | permissionUpsert (code description : String)
  | roleUpsert (name description : String)
  | rolePermissionUpsert (roleId permissionId : String)
  | userUpsert (email : String) (passwordHash : Argon2Hash String) (name : String) (isActive : Bool)
  | roleFindUnique (name : String)
  | userRoleUpsert (userId roleId : String)

@[reducible] def Cmd.Resp : Cmd → Type
  | .argon2Hash _ => Argon2Hash String
  | .permissionUpsert .. => Permission
  | .roleUpsert .. => Role
  | .userUpsert .. => User
  | .roleFindUnique _ => Option Role
  | .rolePermissionUpsert .. | .userRoleUpsert .. => Unit

abbrev Api : Interface := ⟨Cmd, Cmd.Resp⟩

structure Store where
  db : Db := .empty
  now : Nat := 0

/-- What a command leaves open: the error it is rejected with, and the identifier or the salt
that is drawn for it. -/
structure Choice where
  fault : Option Exn := none
  draw : String := ""

def Store.with? {α : Type} (s : Store) (upserted : Option (α × Db)) :
    Option (Except Exn α × Store) :=
  upserted.map fun (found, db) => (.ok found, { s with db })

def Store.after {α : Type} (s : Store) (outcome : Except Exn α × Db) :
    Option (Except Exn α × Store) :=
  some (outcome.1, { s with db := outcome.2 })

def execTotal : (c : Cmd) → Choice → Store → Option (Except Exn c.Resp × Store)
  | .argon2Hash password, ch, s => some (.ok { salt := ch.draw, plain := password }, s)
  | .permissionUpsert code description, ch, s =>
    s.with? (s.db.upsertPermission { id := ch.draw, code, description })
  | .roleUpsert name description, ch, s =>
    s.with? (s.db.upsertRole { id := ch.draw, name, description })
  | .rolePermissionUpsert roleId permissionId, _, s =>
    s.after (s.db.upsertRolePermission { roleId, permissionId })
  | .userUpsert email passwordHash name isActive, ch, s =>
    s.with? (s.db.upsertUser
      { id := ch.draw, email, passwordHash, name, isActive, createdAt := s.now })
  | .roleFindUnique name, _, s => some (.ok (s.db.roles.rows.find? (·.name = name)), s)
  | .userRoleUpsert userId roleId, _, s =>
    s.after (s.db.upsertUserRole { userId, roleId })

def exec (c : Cmd) (ch : Choice) (s : Store) : Option (Except Exn c.Resp × Store) :=
  match ch.fault with
  | none => execTotal c ch s
  | some e => some (.error e, s)

def semantics : Semantics Api Exn Store := ⟨Choice, exec⟩

end CorePlatform.Seed
