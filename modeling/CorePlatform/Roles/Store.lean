import CorePlatform.Auth.Store

/-! The role tables of the auth-service database, the permission cache in Redis, and the
atomic commands of the services that use them. Foreign keys and unique columns are fields
of the database, so that each operation shows that it keeps them. -/
namespace CorePlatform.Roles
open Async Relational
open Auth (User)

structure Role where
  id : String
  name : String
  description : Option String := none
  /-- `@updatedAt` -/
  updatedAt : Nat := 0
  deriving DecidableEq

structure Permission where
  id : String
  code : String
  description : Option String := none
  deriving DecidableEq

structure RolePermission where
  roleId : String
  permissionId : String
  deriving DecidableEq

def RolePermission.key (rp : RolePermission) : String × String := (rp.roleId, rp.permissionId)

structure UserRole where
  userId : String
  roleId : String
  deriving DecidableEq

def UserRole.key (ur : UserRole) : String × String := (ur.userId, ur.roleId)

structure Db where
  users : Table User.id := .empty
  roles : Table Role.id := .empty
  permissions : Table Permission.id := .empty
  rolePermissions : Table RolePermission.key := .empty
  userRoles : Table UserRole.key := .empty
  /-- `Role.name` is unique. -/
  names : (roles.rows.map Role.name).Nodup := by decide
  /-- `Permission.code` is unique. -/
  codes : (permissions.rows.map Permission.code).Nodup := by decide
  granting : ∀ rp ∈ rolePermissions.rows, ∃ role ∈ roles.rows, role.id = rp.roleId := by decide
  granted : ∀ rp ∈ rolePermissions.rows, ∃ p ∈ permissions.rows, p.id = rp.permissionId := by decide
  holding : ∀ ur ∈ userRoles.rows, ∃ user ∈ users.rows, user.id = ur.userId := by decide
  held : ∀ ur ∈ userRoles.rows, ∃ role ∈ roles.rows, role.id = ur.roleId := by decide

/-- A field of a request body: left out, `null`, or given. -/
inductive Field (α : Type) where
  | undefined
  | null
  | value (a : α)

/-- `field ?? undefined` -/
def Field.given? {α : Type} : Field α → Option α
  | .value a => some a
  | .undefined | .null => none

/-- A role with its permissions, as the queries include them. -/
structure RoleDetail where
  role : Role
  rolePermissions : List (RolePermission × List Permission)

def foreignKeyViolation : Exn := .database "P2003" "Foreign key constraint violated"

namespace Db

variable (db : Db)

def detail (role : Role) : RoleDetail where
  role := role
  rolePermissions := (db.rolePermissions.rows.filter (·.roleId = role.id)).map fun rp =>
    (rp, db.permissions.rows.filter (·.id = rp.permissionId))

/-- The codes of the roles of a user, role by role. -/
def codesByRole (userId : String) : List (List String) :=
  (db.userRoles.rows.filter (·.userId = userId)).map fun ur =>
    (db.rolePermissions.rows.filter (·.roleId = ur.roleId)).flatMap fun rp =>
      (db.permissions.rows.filter (·.id = rp.permissionId)).map Permission.code

/-- A role of the user grants the code. -/
def Grants (userId code : String) : Prop :=
  ∃ ur ∈ db.userRoles, ur.userId = userId ∧ ∃ rp ∈ db.rolePermissions, rp.roleId = ur.roleId ∧
    ∃ p ∈ db.permissions, p.id = rp.permissionId ∧ p.code = code

instance (userId code : String) : Decidable (db.Grants userId code) :=
  inferInstanceAs (Decidable (∃ ur ∈ db.userRoles.rows, ur.userId = userId ∧
    ∃ rp ∈ db.rolePermissions.rows, rp.roleId = ur.roleId ∧
      ∃ p ∈ db.permissions.rows, p.id = rp.permissionId ∧ p.code = code))

/-- A new role, unless its identifier is taken. -/
def createRole (role : Role) : Option (Except Exn Role × Db) :=
  match inserted : db.roles.insert? role with
  | none => none
  | some roles =>
    if names : (roles.rows.map Role.name).Nodup then
      some (.ok role, { db with
        roles, names
        granting := by
          intro rp found
          obtain ⟨role, inTable, same⟩ := db.granting rp found
          exact ⟨role, (Table.mem_insert? inserted).mpr (.inr inTable), same⟩
        held := by
          intro ur found
          obtain ⟨role, inTable, same⟩ := db.held ur found
          exact ⟨role, (Table.mem_insert? inserted).mpr (.inr inTable), same⟩ })
    else some (.error uniqueViolation, db)

/-- The role after an update: a field that is left out stays. An update that sets a field at all
writes the time. -/
def edited (now : Nat) (role : Role) (name : Option String) (description : Field String) : Role where
  id := role.id
  name := name.getD role.name
  description := match description with
    | .undefined => role.description
    | .null => none
    | .value text => some text
  updatedAt := match name, description with
    | none, .undefined => role.updatedAt
    | _, _ => now

def updateRole (now : Nat) (id : String) (name : Option String) (description : Field String) :
    Except Exn Unit × Db :=
  let roles := db.roles.update (·.id = id) (fun role => edited now role name description)
  if ¬ ∃ role ∈ db.roles.rows, role.id = id then (.error notFound, db)
  else if names : (roles.rows.map Role.name).Nodup then
    (.ok (), { db with
      roles, names
      granting := fun rp found => Table.exists_update _ (db.granting rp found)
      held := fun ur found => Table.exists_update _ (db.held ur found) })
  else (.error uniqueViolation, db)

/-- Deleting a role deletes its permissions and its assignments with it. -/
def deleteRole (id : String) : Except Exn Unit × Db :=
  if ∃ role ∈ db.roles.rows, role.id = id then
    (.ok (), { db with
      roles := db.roles.delete (·.id = id)
      rolePermissions := db.rolePermissions.delete (·.roleId = id)
      userRoles := db.userRoles.delete (·.roleId = id)
      names := db.names.sublist (List.filter_sublist.map Role.name)
      granting := by
        intro rp found
        obtain ⟨inTable, other⟩ := Table.mem_delete.mp found
        obtain ⟨role, exists', same⟩ := db.granting rp inTable
        exact ⟨role, Table.mem_delete.mpr ⟨exists', by simpa only [same] using other⟩, same⟩
      granted := fun rp found => db.granted rp (Table.mem_delete.mp found).1
      holding := fun ur found => db.holding ur (Table.mem_delete.mp found).1
      held := by
        intro ur found
        obtain ⟨inTable, other⟩ := Table.mem_delete.mp found
        obtain ⟨role, exists', same⟩ := db.held ur inTable
        exact ⟨role, Table.mem_delete.mpr ⟨exists', by simpa only [same] using other⟩, same⟩ })
  else (.error notFound, db)

def deletePermissionsOf (roleId : String) : Db :=
  { db with
    rolePermissions := db.rolePermissions.delete (·.roleId = roleId)
    granting := fun rp found => db.granting rp (Table.mem_delete.mp found).1
    granted := fun rp found => db.granted rp (Table.mem_delete.mp found).1 }

def grant (rp : RolePermission) : Except Exn Unit × Db :=
  match inserted : db.rolePermissions.insert? rp with
  | none => (.error uniqueViolation, db)
  | some rolePermissions =>
    if known : (∃ role ∈ db.roles.rows, role.id = rp.roleId) ∧ ∃ p ∈ db.permissions.rows,
      p.id = rp.permissionId then
      (.ok (), { db with
        rolePermissions
        granting := by
          intro rp' found
          obtain rfl | old := (Table.mem_insert? inserted).mp found
          · exact known.1
          · exact db.granting rp' old
        granted := by
          intro rp' found
          obtain rfl | old := (Table.mem_insert? inserted).mp found
          · exact known.2
          · exact db.granted rp' old })
    else (.error foreignKeyViolation, db)

theorem id_withPermVersion (permVersion : Int) (user : User) :
    ({ user with permVersion } : User).id = user.id := rfl

def setPermVersion (userId : String) (permVersion : Int) : Db :=
  { db with
    users := db.users.update (·.id = userId) (fun user => { user with permVersion })
      (id_withPermVersion permVersion)
    holding := fun ur found => Table.exists_update _ (db.holding ur found) }

/-- The assignment of a role that the user does not hold yet. -/
def assign (ur : UserRole) : Except Exn Unit × Db :=
  match inserted : db.userRoles.insert? ur with
  | none => (.ok (), db)
  | some userRoles =>
    if known : (∃ user ∈ db.users.rows, user.id = ur.userId) ∧ ∃ role ∈ db.roles.rows,
      role.id = ur.roleId then
      (.ok (), { db with
        userRoles
        holding := by
          intro ur' found
          obtain rfl | old := (Table.mem_insert? inserted).mp found
          · exact known.1
          · exact db.holding ur' old
        held := by
          intro ur' found
          obtain rfl | old := (Table.mem_insert? inserted).mp found
          · exact known.2
          · exact db.held ur' old })
    else (.error foreignKeyViolation, db)

def unassign (ur : UserRole) : Db :=
  { db with
    userRoles := db.userRoles.delete (· = ur)
    holding := fun ur' found => db.holding ur' (Table.mem_delete.mp found).1
    held := fun ur' found => db.held ur' (Table.mem_delete.mp found).1 }

theorem mem_codesByRole {userId code : String} :
    code ∈ (db.codesByRole userId).flatten ↔ db.Grants userId code := by
  rw [codesByRole, ← List.flatMap_def]
  simp only [Grants, List.mem_flatMap, List.mem_map, List.mem_filter,
    decide_eq_true_eq, Table.mem_rows, and_assoc]

end Db

/-- `Array.from(new Set(codes))` -/
def collect (rows : List (List String)) : List String := rows.flatten.eraseDups

/-- The Redis hash of a cached permission list. Serialising a list of strings and parsing
the text again gives the list. -/
structure PermissionHash where
  permVersion : String
  permissions : List String
  deriving DecidableEq

/-- The answer of the auth service to a request for permissions; `data` is absent when it
is not an array. -/
structure HttpReply where
  status : Nat
  statusText : String
  data : Option (List String)
  deriving DecidableEq

inductive Cmd where
  | now
  | roleFindByName (name : String)
  | roleFindById (id : String)
  | roleFindOther (name id : String)
  | roleCreate (name : String) (description : Option String)
  | roleUpdate (id : String) (name : Option String) (description : Field String)
  | roleDelete (id : String)
  | permissionFindMany (ids : List String)
  | rolePermissionUpsert (roleId permissionId : String)
  | rolePermissionCreate (roleId permissionId : String)
  | rolePermissionDeleteMany (roleId : String)
  | userFindUnique (id : String)
  | userRoleFindUnique (userId roleId : String)
  | userRoleFindManyCodes (userId : String)
  | assignTransaction (userId roleId : String) (permVersion : Int)
  | unassignTransaction (userId roleId : String) (permVersion : Int)
  | redisHset (key : String) (hash : PermissionHash)
  | redisHgetall (key : String)
  | redisExists (key : String)
  | httpGetPermissions (userId : String)

@[reducible] def Cmd.Resp : Cmd → Type
  | .now => Nat
  | .roleFindByName _ | .roleFindOther .. => Option Role
  | .roleFindById _ => Option RoleDetail
  | .roleCreate .. => Role
  | .permissionFindMany _ => List String
  | .userFindUnique _ => Option User
  | .userRoleFindUnique .. => Option UserRole
  | .userRoleFindManyCodes _ => List (List String)
  | .redisHgetall _ => Option PermissionHash
  | .redisExists _ => Bool
  | .httpGetPermissions _ => HttpReply
  | .roleUpdate .. | .roleDelete _ | .rolePermissionUpsert .. | .rolePermissionCreate ..
  | .rolePermissionDeleteMany _ | .assignTransaction .. | .unassignTransaction .. | .redisHset .. =>
      Unit

abbrev Api : Interface := ⟨Cmd, Cmd.Resp⟩

/-- Redis is an association list, the latest write first. -/
structure Store where
  db : Db := {}
  now : Nat := 0
  redis : List (String × PermissionHash) := []

/-- What a command leaves open: the error it is rejected with, a reply of the auth service
other than the permissions, and the identifier of a new row. -/
structure Choice where
  fault : Option Exn := none
  reply : Option HttpReply := none
  draw : String := ""

instance : Inhabited Choice := ⟨{}⟩

def Cmd.canFail : Cmd → Bool
  | .now => false
  | _ => true

def Cmd.usesRedis : Cmd → Bool
  | .redisHset .. | .redisHgetall _ | .redisExists _ => true
  | _ => false

/-- With `redisUp`, Redis rejects no command. -/
def Cmd.rejectable (redisUp : Bool) (c : Cmd) : Bool := c.canFail && !(redisUp && c.usesRedis)

namespace Store

variable (s : Store)

def setDb (db : Db) : Store := { s with db }

/-- The outcome of a database operation. -/
def with? {α : Type} (outcome : Except Exn α × Db) : Option (Except Exn α × Store) :=
  some (outcome.1, s.setDb outcome.2)

def hset (key : String) (hash : PermissionHash) : Store :=
  { s with redis := (key, hash) :: s.redis }

def hgetall (key : String) : Option PermissionHash := s.redis.lookup key

@[simp] theorem hgetall_hset (key key' : String) (hash : PermissionHash) :
    (s.hset key hash).hgetall key' = if key' = key then some hash else s.hgetall key' := by
  simp only [hset, hgetall, List.lookup_cons]
  by_cases same : key' = key
  · simp only [same, beq_self_eq_true, if_true]
  · simp only [beq_eq_false_iff_ne.mpr same, same, if_false]

@[simp] theorem hgetall_setDb (db : Db) (key : String) : (s.setDb db).hgetall key = s.hgetall key :=
  rfl

@[simp] theorem db_hset (key : String) (hash : PermissionHash) : (s.hset key hash).db = s.db := rfl

@[simp] theorem db_setDb (db : Db) : (s.setDb db).db = db := rfl

end Store

/-- Commands once they are not rejected by their backend. -/
def execTotal : (c : Cmd) → Choice → Store → Option (Except Exn c.Resp × Store)
  | .now, _, s => some (.ok s.now, s)
  | .roleFindByName name, _, s => some (.ok (s.db.roles.rows.find? (·.name = name)), s)
  | .roleFindById id, _, s => some (.ok ((s.db.roles.rows.find? (·.id = id)).map s.db.detail), s)
  | .roleFindOther name id, _, s =>
    some (.ok (s.db.roles.rows.find? fun role => role.name = name && role.id ≠ id), s)
  | .roleCreate name description, ch, s =>
    (s.db.createRole { id := ch.draw, name, description, updatedAt := s.now }).map
      fun (r, db) => (r, s.setDb db)
  | .roleUpdate id name description, _, s => s.with? (s.db.updateRole s.now id name description)
  | .roleDelete id, _, s => s.with? (s.db.deleteRole id)
  | .permissionFindMany ids, _, s =>
    some (.ok ((s.db.permissions.rows.filter (·.id ∈ ids)).map Permission.id), s)
  | .rolePermissionUpsert roleId permissionId, _, s =>
    if ⟨roleId, permissionId⟩ ∈ s.db.rolePermissions then some (.ok (), s)
    else s.with? (s.db.grant ⟨roleId, permissionId⟩)
  | .rolePermissionCreate roleId permissionId, _, s => s.with? (s.db.grant ⟨roleId, permissionId⟩)
  | .rolePermissionDeleteMany roleId, _, s =>
      some (.ok (), s.setDb (s.db.deletePermissionsOf roleId))
  | .userFindUnique id, _, s => some (.ok (s.db.users.rows.find? (·.id = id)), s)
  | .userRoleFindUnique userId roleId, _, s =>
    some (.ok (s.db.userRoles.rows.find? (· = ⟨userId, roleId⟩)), s)
  | .userRoleFindManyCodes userId, _, s => some (.ok (s.db.codesByRole userId), s)
  | .assignTransaction userId roleId permVersion, _, s =>
    match s.db.assign ⟨userId, roleId⟩ with
    | (.error e, _) => some (.error e, s)
    | (.ok _, db) => some (.ok (), s.setDb (db.setPermVersion userId permVersion))
  | .unassignTransaction userId roleId permVersion, _, s =>
    if ∃ user ∈ s.db.users.rows, user.id = userId then
      some (.ok (), s.setDb ((s.db.unassign ⟨userId, roleId⟩).setPermVersion userId permVersion))
    else some (.error notFound, s)
  | .redisHset key hash, _, s => some (.ok (), s.hset key hash)
  | .redisHgetall key, _, s => some (.ok (s.hgetall key), s)
  | .redisExists key, _, s => some (.ok (s.hgetall key).isSome, s)
  | .httpGetPermissions userId, ch, s =>
    match ch.reply.filter (·.status ≠ 200) with
    | some reply => some (.ok reply, s)
    | none =>
        some (.ok
          { status := 200, statusText := "OK", data := some (collect (s.db.codesByRole userId)) },
          s)

def exec (redisUp : Bool) (c : Cmd) (ch : Choice) (s : Store) :
    Option (Except Exn c.Resp × Store) :=
  match ch.fault with
  | none => execTotal c ch s
  | some e => if c.rejectable redisUp then some (.error e, s) else none

def semantics (redisUp : Bool) : Semantics Api Exn Store := ⟨Choice, exec redisUp⟩

end CorePlatform.Roles
