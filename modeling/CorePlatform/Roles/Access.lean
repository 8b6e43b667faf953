import CorePlatform.Async.Accretion
import CorePlatform.Async.Attribution
import CorePlatform.Roles.Unassign
import Mathlib.Data.Rel

/-! What users may do, as the composition of two relations: who has which role, and which role
grants which code. Each edge that appears in a run is the work of a call that was asked for it, and
so is each edge that disappears, however the calls interleave. -/
namespace CorePlatform.Roles
open Async Relational

/-- A user has a role, or a role grants a code. -/
inductive Edge where
  | assigned (userId roleId : String)
  | granted (roleId code : String)

/-- What the edges let users do. -/
def access (edges : Set Edge) : SetRel String String :=
  SetRel.comp {(userId, roleId) | Edge.assigned userId roleId ∈ edges}
    {(roleId, code) | Edge.granted roleId code ∈ edges}

theorem access_mono {edges edges' : Set Edge} (within : edges ⊆ edges') :
    access edges ⊆ access edges' :=
  SetRel.comp_subset_comp (fun _ there => within there) (fun _ there => within there)

/-- The codes of the listed permissions. -/
def codesOf (permissions : Table Permission.id) (ids : List String) : Set String :=
  {code | ∃ p ∈ permissions, p.id ∈ ids ∧ p.code = code}

def Db.edges (db : Db) : Set Edge := {e | match e with
  | .assigned userId roleId => ⟨userId, roleId⟩ ∈ db.userRoles
  | .granted roleId code =>
      ∃ p ∈ db.permissions, ⟨roleId, p.id⟩ ∈ db.rolePermissions ∧ p.code = code}

/-- The edges of the tables are what the permission queries follow. -/
theorem mem_access {db : Db} {userId code : String} :
    (userId, code) ∈ access db.edges ↔ db.Grants userId code := by
  constructor
  · rintro ⟨roleId, assigned, p, stored, granted, coded⟩
    exact ⟨_, assigned, rfl, _, granted, rfl, p, stored, rfl, coded⟩
  · rintro ⟨⟨_, _⟩, assigned, rfl, ⟨_, _⟩, granted, rfl, p, stored, rfl, coded⟩
    exact ⟨_, assigned, p, stored, granted, coded⟩

namespace Cmd

/-- The edges that a command may add. -/
def adds (permissions : Table Permission.id) : Cmd → Set Edge
  | .assignTransaction userId roleId _ => {.assigned userId roleId}
  | .rolePermissionUpsert roleId permissionId | .rolePermissionCreate roleId permissionId =>
      {e | ∃ code ∈ codesOf permissions [permissionId], e = .granted roleId code}
  | _ => ∅

/-- The edges that a command may remove. -/
def drops : Cmd → Set Edge
  | .unassignTransaction userId roleId _ => {.assigned userId roleId}
  | .roleDelete id => {e | match e with
      | .assigned _ roleId => roleId = id
      | .granted roleId _ => roleId = id}
  | .rolePermissionDeleteMany id => {e | ∃ code, e = .granted id code}
  | _ => ∅

end Cmd

section Effects

/-- A change of the tables within what is added and what is dropped. -/
structure EdgeChange (db db' : Db) (added dropped : Set Edge) : Prop where
  permissions : db'.permissions = db.permissions
  gained : db'.edges ⊆ db.edges ∪ added
  lost : db.edges ⊆ db'.edges ∪ dropped

variable {db db' : Db} {added dropped : Set Edge}

/-- A change of other tables, or of columns that are not edges. -/
theorem EdgeChange.none (permissions : db'.permissions = db.permissions)
    (rolePermissions : db'.rolePermissions = db.rolePermissions)
    (userRoles : db'.userRoles = db.userRoles) : EdgeChange db db' added dropped := by
  have same : db'.edges = db.edges := by
    unfold Db.edges
    rw [permissions, rolePermissions, userRoles]
  exact ⟨permissions, same ▸ Set.subset_union_left, same ▸ Set.subset_union_left⟩

theorem EdgeChange.same : EdgeChange db db added dropped := .none rfl rfl rfl

namespace Db

theorem createRole_edges {role : Role} {r : Except Exn Role}
    (created : db.createRole role = some (r, db')) : EdgeChange db db' added dropped := by
  unfold createRole at created
  split at created
  · contradiction
  · split at created
    · obtain ⟨_, rfl⟩ := Prod.mk.inj (Option.some.inj created)
      exact .none rfl rfl rfl
    · obtain ⟨_, rfl⟩ := Prod.mk.inj (Option.some.inj created)
      exact .same

theorem updateRole_edges (now : Nat) (id : String) (name : Option String)
    (description : Field String) :
    EdgeChange db (db.updateRole now id name description).2 added dropped := by
  unfold updateRole
  dsimp only
  split
  · exact .same
  · split
    · exact .none rfl rfl rfl
    · exact .same

theorem deleteRole_edges (id : String) :
    EdgeChange db (db.deleteRole id).2 ∅ (Cmd.drops (.roleDelete id)) := by
  unfold deleteRole
  split
  · refine ⟨rfl, ?_, ?_⟩
    · rintro (⟨userId, roleId⟩ | ⟨roleId, code⟩) there
      · exact .inl (Table.mem_delete.mp there).1
      · obtain ⟨p, stored, granted, coded⟩ := there
        exact .inl ⟨p, stored, (Table.mem_delete.mp granted).1, coded⟩
    · rintro (⟨userId, roleId⟩ | ⟨roleId, code⟩) there
      · by_cases same : roleId = id
        · exact .inr same
        · exact .inl (Table.mem_delete.mpr ⟨there, decide_eq_false same⟩)
      · by_cases same : roleId = id
        · exact .inr same
        · obtain ⟨p, stored, granted, coded⟩ := there
          exact .inl ⟨p, stored, Table.mem_delete.mpr ⟨granted, decide_eq_false same⟩, coded⟩
  · exact .same

theorem deletePermissionsOf_edges (roleId : String) :
    EdgeChange db (db.deletePermissionsOf roleId) ∅
      (Cmd.drops (.rolePermissionDeleteMany roleId)) := by
  refine ⟨rfl, ?_, ?_⟩
  · rintro (⟨userId, role⟩ | ⟨role, code⟩) there
    · exact .inl there
    · obtain ⟨p, stored, granted, coded⟩ := there
      exact .inl ⟨p, stored, (Table.mem_delete.mp granted).1, coded⟩
  · rintro (⟨userId, role⟩ | ⟨role, code⟩) there
    · exact .inl there
    · by_cases same : role = roleId
      · exact .inr ⟨code, same ▸ rfl⟩
      · obtain ⟨p, stored, granted, coded⟩ := there
        exact .inl ⟨p, stored, Table.mem_delete.mpr ⟨granted, decide_eq_false same⟩, coded⟩

theorem grant_edges (roleId permissionId : String) :
    EdgeChange db (db.grant ⟨roleId, permissionId⟩).2
      (Cmd.adds db.permissions (.rolePermissionCreate roleId permissionId)) ∅ := by
  unfold grant
  split
  · exact .same
  · rename_i rolePermissions inserted
    split
    · refine ⟨rfl, ?_, ?_⟩
      · rintro (⟨userId, role⟩ | ⟨role, code⟩) there
        · exact .inl there
        · obtain ⟨p, stored, granted, coded⟩ := there
          obtain new | old := (Table.mem_insert? inserted).mp granted
          · obtain ⟨rfl, rfl⟩ := RolePermission.mk.inj new
            exact .inr ⟨code, ⟨p, stored, List.mem_singleton_self _, coded⟩, rfl⟩
          · exact .inl ⟨p, stored, old, coded⟩
      · rintro (⟨userId, role⟩ | ⟨role, code⟩) there
        · exact .inl there
        · obtain ⟨p, stored, granted, coded⟩ := there
          exact .inl ⟨p, stored, (Table.mem_insert? inserted).mpr (.inr granted), coded⟩
    · exact .same

theorem setPermVersion_edges (userId : String) (permVersion : Int) :
    EdgeChange db (db.setPermVersion userId permVersion) added dropped := .none rfl rfl rfl

theorem assign_edges (userId roleId : String) :
    EdgeChange db (db.assign ⟨userId, roleId⟩).2 {.assigned userId roleId} ∅ := by
  unfold assign
  split
  · exact .same
  · rename_i userRoles inserted
    split
    · refine ⟨rfl, ?_, ?_⟩
      · rintro (⟨user, role⟩ | ⟨role, code⟩) there
        · obtain new | old := (Table.mem_insert? inserted).mp there
          · obtain ⟨rfl, rfl⟩ := UserRole.mk.inj new
            exact .inr rfl
          · exact .inl old
        · exact .inl there
      · rintro (⟨user, role⟩ | ⟨role, code⟩) there
        · exact .inl ((Table.mem_insert? inserted).mpr (.inr there))
        · exact .inl there
    · exact .same

theorem unassign_edges (userId roleId : String) :
    EdgeChange db (db.unassign ⟨userId, roleId⟩) ∅ {.assigned userId roleId} := by
  refine ⟨rfl, ?_, ?_⟩
  · rintro (⟨user, role⟩ | ⟨role, code⟩) there
    · exact .inl (Table.mem_delete.mp there).1
    · exact .inl there
  · rintro (⟨user, role⟩ | ⟨role, code⟩) there
    · by_cases same : (⟨user, role⟩ : UserRole) = ⟨userId, roleId⟩
      · obtain ⟨rfl, rfl⟩ := UserRole.mk.inj same
        exact .inr rfl
      · exact .inl (Table.mem_delete.mpr ⟨there, decide_eq_false same⟩)
    · exact .inl there

end Db

theorem EdgeChange.trans {db'' : Db} (first : EdgeChange db db' added dropped)
    (second : EdgeChange db' db'' ∅ ∅) : EdgeChange db db'' added dropped where
  permissions := second.permissions.trans first.permissions
  gained := (second.gained.trans (Set.union_empty _).subset).trans first.gained
  lost := first.lost.trans (Set.union_subset_union_left _
    (second.lost.trans (Set.union_empty _).subset))

/-- One command adds and drops what it may, and no more. -/
theorem exec_edges {redisUp : Bool} {c : Cmd} {choice : Choice} {s s' : Store}
    {r : Except Exn c.Resp} (executed : exec redisUp c choice s = some (r, s')) :
    EdgeChange s.db s'.db (c.adds s.db.permissions) c.drops := by
  obtain ⟨-, done⟩ | ⟨rfl, -⟩ := exec_cases executed
  · cases c with
    | roleCreate name description =>
      simp only [execTotal, Option.map_eq_some_iff] at done
      obtain ⟨⟨r', db⟩, created, out⟩ := done
      obtain ⟨-, rfl⟩ := Prod.mk.inj out
      exact Db.createRole_edges created
    | roleUpdate id name description =>
      obtain ⟨-, rfl⟩ := Prod.mk.inj (Option.some.inj done)
      exact Db.updateRole_edges s.now id name description
    | roleDelete id =>
      obtain ⟨-, rfl⟩ := Prod.mk.inj (Option.some.inj done)
      exact Db.deleteRole_edges id
    | rolePermissionUpsert roleId permissionId =>
      simp only [execTotal] at done
      split at done
      · obtain ⟨-, rfl⟩ := Prod.mk.inj (Option.some.inj done)
        exact .same
      · obtain ⟨-, rfl⟩ := Prod.mk.inj (Option.some.inj done)
        exact Db.grant_edges roleId permissionId
    | rolePermissionCreate roleId permissionId =>
      obtain ⟨-, rfl⟩ := Prod.mk.inj (Option.some.inj done)
      exact Db.grant_edges roleId permissionId
    | rolePermissionDeleteMany roleId =>
      obtain ⟨-, rfl⟩ := Prod.mk.inj (Option.some.inj done)
      exact Db.deletePermissionsOf_edges roleId
    | assignTransaction userId roleId permVersion =>
      have changes := @Db.assign_edges s.db userId roleId
      simp only [execTotal] at done
      split at done
      · obtain ⟨-, rfl⟩ := Prod.mk.inj (Option.some.inj done)
        exact .same
      · rename_i db assigned
        rw [assigned] at changes
        obtain ⟨-, rfl⟩ := Prod.mk.inj (Option.some.inj done)
        exact changes.trans (Db.setPermVersion_edges userId permVersion)
    | unassignTransaction userId roleId permVersion =>
      simp only [execTotal] at done
      split at done
      · obtain ⟨-, rfl⟩ := Prod.mk.inj (Option.some.inj done)
        exact (Db.unassign_edges userId roleId).trans
          (Db.setPermVersion_edges userId permVersion)
      · obtain ⟨-, rfl⟩ := Prod.mk.inj (Option.some.inj done)
        exact .same
    | httpGetPermissions user =>
      simp only [execTotal] at done
      split at done <;>
        (obtain ⟨-, rfl⟩ := Prod.mk.inj (Option.some.inj done)
         exact .same)
    | _ =>
      obtain ⟨-, rfl⟩ := Prod.mk.inj (Option.some.inj done)
      exact .none rfl rfl rfl
  · exact .same

end Effects

section Calls

/-- The call has looked up the role of this name. -/
def Named (trace : List Ev) (roleName roleId : String) : Prop :=
  ∃ role, (⟨.roleFindByName roleName, .ok (some role)⟩ : Ev) ∈ trace ∧ role.id = roleId

/-- The edges that a call makes: the assignment that it was asked for, or the permissions listed for
the role that it creates or updates. -/
def Makes (permissions : Table Permission.id) : Call → List Ev → Edge → Prop
  | .assignRole userId roleName, trace, .assigned user roleId =>
      user = userId ∧ Named trace roleName roleId
  | .create dto, trace, .granted roleId code =>
      code ∈ codesOf permissions (dto.permissionIds.given?.getD []) ∧ ∃ role description,
        (⟨.roleCreate dto.name description, .ok role⟩ : Ev) ∈ trace ∧ role.id = roleId
  | .update id dto, _, .granted roleId code =>
      roleId = id ∧ code ∈ codesOf permissions (dto.permissionIds.given?.getD [])
  | _, _, _ => False

/-- The edges that a call takes away: the assignment that it was asked to remove, those of the
role that it removes, or the permissions of the role that it gives others. -/
def Takes : Call → List Ev → Edge → Prop
  | .unassignRole userId roleName, trace, .assigned user roleId =>
      user = userId ∧ Named trace roleName roleId
  | .remove id, _, .assigned _ roleId => roleId = id
  | .remove id, _, .granted roleId _ => roleId = id
  | .update id dto, _, .granted roleId _ => roleId = id ∧ dto.permissionIds ≠ .undefined
  | _, _, _ => False

theorem Named.longer {trace : List Ev} {roleName roleId : String} (e : Ev)
    (named : Named trace roleName roleId) : Named (e :: trace) roleName roleId := by
  obtain ⟨role, found, same⟩ := named
  exact ⟨role, List.mem_cons_of_mem _ found, same⟩

theorem Makes.longer {permissions : Table Permission.id} (q : Call) (trace : List Ev) (e : Ev)
    (edge : Edge) (makes : Makes permissions q trace edge) :
    Makes permissions q (e :: trace) edge := by
  cases q <;> cases edge <;> try exact makes.elim
  · obtain ⟨listed, role, description, created, same⟩ := makes
    exact ⟨listed, role, description, List.mem_cons_of_mem _ created, same⟩
  · exact makes
  · exact ⟨makes.1, makes.2.longer e⟩

theorem Takes.longer (q : Call) (trace : List Ev) (e : Ev) (edge : Edge)
    (takes : Takes q trace edge) : Takes q (e :: trace) edge := by
  cases q <;> cases edge <;> try exact takes.elim
  · exact takes
  · exact takes
  · exact takes
  · exact ⟨takes.1, takes.2.longer e⟩

/-- A command of a call adds what the call makes and drops what it takes away. -/
structure AccessPoint (permissions : Table Permission.id) (q : Call) (trace : List Ev) (c : Cmd) :
    Prop where
  made : ∀ edge ∈ c.adds permissions, Makes permissions q trace edge
  taken : ∀ edge ∈ c.drops, Takes q trace edge

variable {permissions : Table Permission.id} {q : Call} {trace : List Ev}

/-- The commands that leave the edges alone. -/
def Cmd.Inert : Cmd → Prop
  | .roleDelete _ | .rolePermissionUpsert .. | .rolePermissionCreate ..
  | .rolePermissionDeleteMany _ | .assignTransaction .. | .unassignTransaction .. => False
  | _ => True

theorem Cmd.Inert.accessPoint {c : Cmd} (inert : c.Inert) : AccessPoint permissions q trace c := by
  cases c <;> first
    | exact inert.elim
    | exact ⟨fun edge there => absurd there (Set.notMem_empty edge),
        fun edge there => absurd there (Set.notMem_empty edge)⟩

/-- A program without a write to the edges is at a legitimate point all along. -/
theorem along_inert {α : Type} {p : Action α} (uses : p.Uses Cmd.Inert) :
    Along (AccessPoint permissions q) (fun _ _ => True) trace p :=
  uses.along.mono (fun _ _ inert => inert.accessPoint) fun _ _ there => there

theorem inert_findOne {id : String} : (RolesService.findOne id).Uses Cmd.Inert := by
  refine Prog.Uses.bind ⟨trivial, fun _ => trivial⟩ fun role => ?_
  cases role <;> trivial

theorem inert_checkName {id : String} {name : Option String} :
    (RolesService.checkName id name).Uses Cmd.Inert := by
  cases name with
  | none => trivial
  | some name =>
    refine Prog.Uses.bind ⟨trivial, fun _ => trivial⟩ fun other => ?_
    split <;> trivial

theorem inert_updatePermVersion {userId : String} {permVersion : Int} :
    (PermissionCache.updatePermVersion userId permVersion).Uses Cmd.Inert := by
  refine Prog.Uses.bind ⟨trivial, fun _ => trivial⟩ fun found => ?_
  split
  · exact ⟨trivial, fun _ => trivial⟩
  · trivial

theorem along_read {userId permVersion : String} :
    Along (AccessPoint permissions q) (fun _ _ => True) []
      (PermissionProvider.getPermissions userId permVersion) := by
  refine along_getPermissions.mono (fun _ c point => ?_) fun _ _ _ => trivial
  cases c <;> first
    | exact Cmd.Inert.accessPoint trivial
    | exact point.elim

theorem along_assign {userId roleName : String} :
    Along (AccessPoint permissions (.assignRole userId roleName)) (fun _ _ => True) []
      (RolesService.assignRole userId roleName) := by
  have any : ∀ (trace : List Ev) (e : Exn), True := fun _ _ => trivial
  refine along_rethrow any (along_await_bind (Cmd.Inert.accessPoint trivial) any fun user => ?_)
  cases user with
  | none => trivial
  | some user =>
    refine along_await_bind (Cmd.Inert.accessPoint trivial) any fun role => ?_
    cases role with
    | none => trivial
    | some role =>
      refine along_await_bind (Cmd.Inert.accessPoint trivial) any fun held => ?_
      cases held with
      | some held => trivial
      | none =>
        refine along_await_bind ⟨?_, fun edge there => absurd there (Set.notMem_empty edge)⟩ any
          fun _ => along_inert (inert_updatePermVersion.bind fun _ => trivial)
        rintro _ rfl
        exact ⟨rfl, role, List.mem_cons_of_mem _ List.mem_cons_self, rfl⟩

theorem along_unassign {userId roleName : String} :
    Along (AccessPoint permissions (.unassignRole userId roleName)) (fun _ _ => True) []
      (RolesService.unassignRole userId roleName) := by
  have any : ∀ (trace : List Ev) (e : Exn), True := fun _ _ => trivial
  refine along_rethrow any (along_await_bind (Cmd.Inert.accessPoint trivial) any fun role => ?_)
  cases role with
  | none => trivial
  | some role =>
    refine along_await_bind (Cmd.Inert.accessPoint trivial) any fun user => ?_
    cases user with
    | none => trivial
    | some user =>
      refine along_await_bind (Cmd.Inert.accessPoint trivial) any fun held => ?_
      cases held with
      | none => trivial
      | some held =>
        refine along_await_bind ⟨fun edge there => absurd there (Set.notMem_empty edge), ?_⟩ any
          fun _ => along_inert (inert_updatePermVersion.bind fun _ => trivial)
        rintro _ rfl
        exact ⟨rfl, role, List.mem_cons_of_mem _ (List.mem_cons_of_mem _ List.mem_cons_self), rfl⟩

theorem along_remove {id : String} :
    Along (AccessPoint permissions (.remove id)) (fun _ _ => True) [] (RolesService.remove id) := by
  refine along_bind.mpr ((along_inert inert_findOne).mono (fun _ _ point => point) fun _ r _ => ?_)
  cases r with
  | error e => trivial
  | ok _ =>
    refine along_await_bind ⟨fun edge there => absurd there (Set.notMem_empty edge), ?_⟩
      (fun _ _ => trivial) fun _ => trivial
    intro edge there
    cases edge <;> exact there

theorem along_create {dto : CreateRoleDto} :
    Along (AccessPoint permissions (.create dto)) (fun _ _ => True) []
      (RolesService.create dto) := by
  have any : ∀ (trace : List Ev) (e : Exn), True := fun _ _ => trivial
  refine along_await_bind (Cmd.Inert.accessPoint trivial) any fun existing => ?_
  cases existing with
  | some role => trivial
  | none =>
    refine along_await_bind (Cmd.Inert.accessPoint trivial) any fun role => ?_
    by_cases empty : dto.permissionIds.given?.getD [] = []
    · simp only [empty, ne_eq, not_true_eq_false, if_false]
      exact along_inert inert_findOne
    · simp only [empty, ne_eq, not_false_eq_true, if_true]
      refine along_await_bind (Cmd.Inert.accessPoint trivial) any fun existingIds => ?_
      split
      · trivial
      · refine along_bind.mpr ((along_forEach (E := fun _ _ => True) (J := fun _ trace =>
          (⟨.roleCreate dto.name dto.description.given?, .ok role⟩ : Ev) ∈ trace) [] _
          ?_ (List.mem_cons_of_mem _ List.mem_cons_self)).mono (fun _ _ point => point) ?_)
        · intro _ permissionId trace listed created
          refine ⟨⟨?_, fun edge there => absurd there (Set.notMem_empty edge)⟩, fun r => ?_⟩
          · rintro _ ⟨code, ⟨p, stored, same, coded⟩, rfl⟩
            rw [List.mem_singleton] at same
            exact ⟨⟨p, stored, same ▸ listed, coded⟩, role, _, created, rfl⟩
          · cases r with
            | error e => trivial
            | ok _ => exact List.mem_cons_of_mem _ created
        · intro trace r _
          cases r with
          | error e => trivial
          | ok _ => exact along_inert inert_findOne

theorem along_replace {id : String} {dto : UpdateRoleDto} :
    Along (AccessPoint permissions (.update id dto)) (fun _ _ => True) trace
      (RolesService.replacePermissions id dto.permissionIds) := by
  have clears : dto.permissionIds ≠ .undefined → ∀ trace,
      AccessPoint permissions (.update id dto) trace (.rolePermissionDeleteMany id) := by
    intro given trace
    refine ⟨fun edge there => absurd there (Set.notMem_empty edge), ?_⟩
    rintro _ ⟨code, rfl⟩
    exact ⟨rfl, given⟩
  cases asked : dto.permissionIds with
  | undefined => trivial
  | null =>
    have given : dto.permissionIds ≠ .undefined := by simp only [asked, ne_eq, reduceCtorEq,
      not_false_eq_true]
    exact along_await_bind (clears given _) (fun _ _ => trivial) fun _ => trivial
  | value permissionIds =>
    have given : dto.permissionIds ≠ .undefined := by simp only [asked, ne_eq, reduceCtorEq,
      not_false_eq_true]
    refine along_await_bind (clears given _) (fun _ _ => trivial) fun _ =>
      (along_forEach (E := fun _ _ => True) (J := fun _ _ => True) [] permissionIds ?_ trivial).mono
        (fun _ _ point => point) fun _ _ _ => trivial
    intro _ permissionId trace listed _
    refine ⟨⟨?_, fun edge there => absurd there (Set.notMem_empty edge)⟩, fun r => ?_⟩
    · rintro _ ⟨code, ⟨p, stored, same, coded⟩, rfl⟩
      rw [List.mem_singleton] at same
      refine ⟨rfl, p, stored, ?_, coded⟩
      rw [asked]
      exact same ▸ listed
    · cases r <;> trivial

theorem along_update {id : String} {dto : UpdateRoleDto} :
    Along (AccessPoint permissions (.update id dto)) (fun _ _ => True) []
      (RolesService.update id dto) := by
  have any : ∀ (trace : List Ev) (e : Exn), True := fun _ _ => trivial
  refine along_bind.mpr ((along_inert inert_findOne).mono (fun _ _ point => point) fun _ r _ => ?_)
  cases r with
  | error e => trivial
  | ok _ =>
  refine along_bind.mpr ((along_inert inert_checkName).mono (fun _ _ point => point)
    fun _ r _ => ?_)
  cases r with
  | error e => trivial
  | ok _ =>
  refine along_await_bind (Cmd.Inert.accessPoint trivial) any fun _ =>
    along_bind.mpr (along_replace.mono (fun _ _ point => point) fun _ r _ => ?_)
  cases r with
  | error e => trivial
  | ok _ => exact along_inert inert_findOne

/-- Every call stays within what it was asked for. -/
theorem along_access (q : Call) :
    Along (AccessPoint permissions q) (fun _ _ => True) [] (body q) := by
  have replied : ∀ {α : Type} {p : Action α} {f : α → Reply},
      Along (AccessPoint permissions q) (fun _ _ => True) [] p →
      Along (AccessPoint permissions q) (fun _ _ => True) [] (do return f (← p)) := by
    intro α p f along
    refine along_bind.mpr (along.mono (fun _ _ point => point) fun _ r _ => ?_)
    cases r <;> trivial
  cases q with
  | create dto => exact replied along_create
  | update id dto => exact replied along_update
  | remove id => exact replied along_remove
  | assignRole userId roleName => exact replied along_assign
  | unassignRole userId roleName => exact replied along_unassign
  | getPermissions userId permVersion => exact replied along_read

/-- A cached list or an answer of the auth service that names the code for the user. -/
def Tells (userId code : String) : Ev → Prop
  | ⟨.redisHgetall key, .ok (some hash)⟩ =>
      key = PermissionCache.cacheKey userId ∧ code ∈ hash.permissions
  | ⟨.httpGetPermissions user, .ok reply⟩ =>
      user = userId ∧ reply.status = 200 ∧ ∃ codes, reply.data = some codes ∧ code ∈ codes
  | _ => False

/-- What a call caches for a user it has been told. -/
def CachePoint (trace : List Ev) : Cmd → Prop
  | .redisHset key hash => ∃ userId, key = PermissionCache.cacheKey userId ∧
      ∀ code ∈ hash.permissions, ∃ e ∈ trace, Tells userId code e
  | _ => True

/-- The commands of a call that caches nothing but empty lists. -/
def Cmd.Clears : Cmd → Prop
  | .redisHset key hash => ∃ userId, key = PermissionCache.cacheKey userId ∧ hash.permissions = []
  | _ => True

theorem Cmd.Clears.cachePoint {c : Cmd} (clears : c.Clears) : CachePoint trace c := by
  cases c <;> try exact trivial
  obtain ⟨userId, same, empty⟩ := clears
  exact ⟨userId, same, fun code listed => absurd (empty ▸ listed) List.not_mem_nil⟩

theorem Cmd.Plain.clears {c : Cmd} (plain : c.Plain) : c.Clears := by
  cases c <;> first
    | exact trivial
    | exact plain.elim

theorem clears_updatePermVersion {userId : String} {permVersion : Int} :
    (PermissionCache.updatePermVersion userId permVersion).Uses Cmd.Clears := by
  refine uses_step trivial fun found => ?_
  split
  · exact ⟨⟨userId, rfl, rfl⟩, fun _ => trivial⟩
  · trivial

theorem clears_assignRole {userId roleName : String} :
    (RolesService.assignRole userId roleName).Uses Cmd.Clears := by
  refine Prog.Uses.catch (uses_step trivial fun user => ?_) fun _ => trivial
  cases user with
  | none => trivial
  | some user =>
    refine uses_step trivial fun role => ?_
    cases role with
    | none => trivial
    | some role =>
      refine uses_step trivial fun held => ?_
      cases held with
      | some held => trivial
      | none => exact uses_step trivial fun _ => clears_updatePermVersion.bind fun _ => trivial

theorem clears_unassignRole {userId roleName : String} :
    (RolesService.unassignRole userId roleName).Uses Cmd.Clears := by
  refine Prog.Uses.catch (uses_step trivial fun role => ?_) fun _ => trivial
  cases role with
  | none => trivial
  | some role =>
    refine uses_step trivial fun user => ?_
    cases user with
    | none => trivial
    | some user =>
      refine uses_step trivial fun held => ?_
      cases held with
      | none => trivial
      | some held => exact uses_step trivial fun _ => clears_updatePermVersion.bind fun _ => trivial

theorem along_cached {userId permVersion : String} :
    Along CachePoint (fun _ _ => True) []
      (PermissionProvider.getPermissions userId permVersion) := by
  have any : ∀ (trace : List Ev) (e : Exn), True := fun _ _ => trivial
  have missed : ∀ trace, Along CachePoint (fun _ _ => True) trace
      (tryCatch (PermissionProvider.fetch userId permVersion) fun error =>
        throw (PermissionProvider.failure error)) := by
    refine fun trace => along_rethrow any (along_await_bind trivial any fun reply => ?_)
    by_cases status : reply.status = 200
    · simp only [status, ne_eq, not_true_eq_false, if_false]
      cases data : reply.data with
      | none => trivial
      | some codes =>
        exact along_await_bind ⟨userId, rfl, fun code listed =>
          ⟨_, List.mem_cons_self, rfl, status, codes, data, listed⟩⟩ any fun _ => trivial
    · simp only [status, ne_eq, not_false_eq_true, if_true]
      trivial
  refine along_bind.mpr (along_await_bind trivial any fun found => ?_)
  cases found with
  | none => exact missed _
  | some cached =>
    simp only [Prog.pure_eq, along_done]
    generalize (if cached.permVersion ≠ permVersion then [] else cached.permissions) = codes
    by_cases hit : codes.length > 0
    · simp only [hit, if_true]
      trivial
    · simp only [hit, if_false]
      exact missed _

theorem along_caching (q : Call) : Along CachePoint (fun _ _ => True) [] (body q) := by
  have clearing : ∀ {p : Action Reply}, p.Uses Cmd.Clears →
      Along CachePoint (fun _ _ => True) [] p :=
    fun uses => uses.along.mono (fun _ _ clears => clears.cachePoint) fun _ _ there => there
  cases q with
  | create dto =>
    exact clearing ((plain_create.mono fun _ => Cmd.Plain.clears).bind fun _ => trivial)
  | update id dto =>
    exact clearing ((plain_update.mono fun _ => Cmd.Plain.clears).bind fun _ => trivial)
  | remove id =>
    exact clearing ((plain_remove.mono fun _ => Cmd.Plain.clears).bind fun _ => trivial)
  | assignRole userId roleName => exact clearing (clears_assignRole.bind fun _ => trivial)
  | unassignRole userId roleName => exact clearing (clears_unassignRole.bind fun _ => trivial)
  | getPermissions userId permVersion =>
    refine along_bind.mpr (along_cached.mono (fun _ _ point => point) fun _ r _ => ?_)
    cases r <;> trivial

end Calls

section Runs

/-- The cached list of the user names the code. -/
def Cached (s : Store) (userId code : String) : Prop :=
  ∃ hash, s.hgetall (PermissionCache.cacheKey userId) = some hash ∧ code ∈ hash.permissions

/-- The cache names only codes that are granted. -/
def CacheSound (s : Store) : Prop := ∀ userId code, Cached s userId code → s.db.Grants userId code

theorem cacheSound_empty {db : Db} : CacheSound { db } := by
  rintro userId code ⟨hash, held, _⟩
  contradiction

abbrev From (db : Db) (pool : RolePool) : Prop :=
  rolesSystem.Reachable System.Any (fun s => s.db = db ∧ CacheSound s) pool

variable {db : Db} {pool pool' : RolePool}

/-- No call touches the permissions themselves. -/
theorem permissions_kept (reachable : From db pool) :
    pool.store.db.permissions = db.permissions := by
  refine reachable.invariant (P := fun pool => pool.store.db.permissions = db.permissions)
    (fun s start => congrArg Db.permissions start.1) ?_
  intro pool label pool' _ _ before _ effect
  cases effect with
  | spawn q => exact before
  | act a s acted => exact a.elim
  | run t choice th c k r s found awaits executed =>
    exact (exec_edges executed).permissions.trans before

theorem edges_attributed (db : Db) : rolesSystem.Attributes System.Any
    (fun s => s.db = db ∧ CacheSound s) (fun s => s.db.edges) (Makes db.permissions) Takes where
  made_longer := Makes.longer
  taken_longer := Takes.longer
  gains := by
    intro pool t choice th c r s reachable found next _ executed edge there
    have point : AccessPoint db.permissions th.request th.trace c :=
      reachable.point along_access found next
    refine ((exec_edges executed).gained there).imp id fun added => ?_
    rw [permissions_kept reachable] at added
    exact (point.made edge added).longer _ _ _ _
  loses := by
    intro pool t choice th c r s reachable found next _ executed edge there
    have point : AccessPoint db.permissions th.request th.trace c :=
      reachable.point along_access found next
    exact ((exec_edges executed).lost there).imp id fun dropped =>
      (point.taken edge dropped).longer _ _ _ _
  acts a := a.elim

/-- Between any two states of a run: what a user may do was possible before or is the work of calls
that were asked for it, and no assignment or granting is lost but to a call that was asked to take
it away. -/
theorem access_accounted (reachable : From db pool)
    (run : rolesSystem.Run System.Any pool pool') :
    access pool'.store.db.edges ⊆
        access (pool.store.db.edges ∪ pool'.byCalls (Makes db.permissions)) ∧
      pool.store.db.edges \ pool'.byCalls Takes ⊆ pool'.store.db.edges := by
  obtain ⟨gained, lost⟩ := (edges_attributed db).between reachable run
  exact ⟨access_mono gained, Set.sdiff_subset_iff.mpr (by rwa [Set.union_comm])⟩

/-- The role is taken from the user, and given back. -/
def takenSteps : List Step := .spawn (.unassignRole aliceId "refunder") :: moves 0 5

def returnedSteps : List Step := .spawn (.assignRole aliceId "refunder") :: moves 1 5

theorem access_accounted_returned : ∃ pool pool', From refunder pool ∧
    rolesSystem.Run System.Any pool pool' ∧ ¬ pool.store.db.Grants aliceId "order:refund" ∧
    (aliceId, "order:refund") ∈
      access (pool.store.db.edges ∪ pool'.byCalls (Makes refunder.permissions)) := by
  have tested : (rolesSystem.replay System.Any (System.idle { db := refunder }) takenSteps).any
      (fun pool => !decide (pool.store.db.Grants aliceId "order:refund") &&
        (rolesSystem.replay System.Any pool returnedSteps).any
          fun pool' => decide (pool'.store.db.Grants aliceId "order:refund")) = true := by
    decide +kernel
  obtain ⟨pool, run, passed⟩ := System.run_of_replay tested
  obtain ⟨without, later⟩ := Bool.and_eq_true_iff.mp passed
  obtain ⟨pool', run', granted⟩ := System.run_of_replay later
  have reachable : From refunder pool := ⟨_, ⟨rfl, cacheSound_empty⟩, run⟩
  refine ⟨pool, pool', reachable, run', by simpa using without, ?_⟩
  exact (access_accounted reachable run').1 (mem_access.mpr (of_decide_eq_true granted))

theorem accounted (reachable : From db pool) :
    access pool.store.db.edges ⊆ access (db.edges ∪ pool.byCalls (Makes db.permissions)) :=
  access_mono ((edges_attributed db).accounted (fun _ start => congrArg Db.edges start.1) reachable)

/-- What the calls and the cache have been told that users may do. -/
def told (pool : RolePool) : SetRel String String := {(userId, code) |
  Cached pool.store userId code ∨ ∃ th ∈ pool.threads, ∃ e ∈ th.trace, Tells userId code e}

/-- An answer comes from the cache or from the tables. -/
theorem tells_true {c : Cmd} {choice : Choice} {s s' : Store} {r : Except Exn c.Resp}
    {userId code : String} (executed : exec false c choice s = some (r, s'))
    (tells : Tells userId code ⟨c, r⟩) : Cached s userId code ∨ s.db.Grants userId code := by
  unfold Tells at tells
  split at tells
  · rename_i key hash heard
    obtain ⟨rfl, heard⟩ := Event.mk.inj heard
    cases heard
    obtain ⟨rfl, listed⟩ := tells
    exact .inl ⟨hash, (exec_hgetall executed).2.symm, listed⟩
  · rename_i user reply heard
    obtain ⟨rfl, heard⟩ := Event.mk.inj heard
    cases heard
    obtain ⟨rfl, status, codes, data, listed⟩ := tells
    obtain ⟨_, current⟩ := exec_httpGetPermissions executed status
    cases data.symm.trans current
    exact .inr (s.db.mem_codesByRole.mp (List.mem_eraseDups.mp listed))
  · exact tells.elim

/-- The cache holds what it held, or what the command writes. -/
theorem cached_cases {c : Cmd} {choice : Choice} {s s' : Store} {r : Except Exn c.Resp}
    {trace : List Ev} {userId code : String} (executed : exec false c choice s = some (r, s'))
    (point : CachePoint trace c) (cached : Cached s' userId code) :
    Cached s userId code ∨ ∃ e ∈ trace, Tells userId code e := by
  obtain ⟨hash, held, listed⟩ := cached
  cases c with
  | redisHset key new =>
    obtain ⟨-, done⟩ | ⟨rfl, -⟩ := exec_cases executed
    · obtain ⟨-, rfl⟩ := Prod.mk.inj (Option.some.inj done)
      rw [Store.hgetall_hset] at held
      split at held
      · rename_i same
        cases Option.some.inj held
        obtain ⟨user, keyed, learnt⟩ := point
        cases cacheKey_inj (same.trans keyed)
        exact .inr (learnt code listed)
      · exact .inl ⟨hash, held, listed⟩
    · exact .inl ⟨hash, held, listed⟩
  | redisHgetall key | redisExists key =>
    obtain ⟨-, done⟩ | ⟨rfl, -⟩ := exec_cases executed
    · obtain ⟨-, rfl⟩ := Prod.mk.inj (Option.some.inj done)
      exact .inl ⟨hash, held, listed⟩
    · exact .inl ⟨hash, held, listed⟩
  | _ =>
    have kept := redis_kept rfl ⟨choice, executed⟩
    rw [Store.hgetall, kept] at held
    exact .inl ⟨hash, held, listed⟩

theorem told_accounted (reachable : From db pool) :
    told pool ⊆ access (db.edges ∪ pool.byCalls (Makes db.permissions)) := by
  refine reachable.invariant (P := fun pool => told pool ⊆
    access (db.edges ∪ pool.byCalls (Makes db.permissions))) ?_ ?_
  · rintro s ⟨rfl, sound⟩ ⟨userId, code⟩ (cached | ⟨th, member, _⟩)
    · exact access_mono Set.subset_union_left (mem_access.mpr (sound userId code cached))
    · exact absurd member List.not_mem_nil
  · rintro pool label pool' before - within - effect ⟨userId, code⟩ learnt
    have grows := access_mono (Set.union_subset_union_right db.edges
      (effect.byCalls_grows (@Makes.longer db.permissions)))
    have earlier : (userId, code) ∈ told pool →
        (userId, code) ∈ access (db.edges ∪ pool'.byCalls (Makes db.permissions)) :=
      fun known => grows (within known)
    cases effect with
    | spawn q =>
      obtain cached | ⟨th, member, e, inTrace, tells⟩ := learnt
      · exact earlier (.inl cached)
      · obtain old | new := List.mem_append.mp member
        · exact earlier (.inr ⟨th, old, e, inTrace, tells⟩)
        · cases List.mem_singleton.mp new
          exact absurd inTrace List.not_mem_nil
    | act a s acted => exact a.elim
    | run t choice th c k r s found awaits executed =>
      have next : th.next? = some c := by rw [Thread.next?, awaits]
      have point : CachePoint th.trace c := before.point along_caching found next
      obtain cached | ⟨th', member, e, inTrace, tells⟩ := learnt
      · obtain old | ⟨e, inTrace, tells⟩ := cached_cases executed point cached
        · exact earlier (.inl old)
        · exact earlier (.inr ⟨th, Pool.thread?_mem found, e, inTrace, tells⟩)
      · obtain ⟨u, found'⟩ := Pool.mem_threads.mp member
        obtain ⟨rfl, rfl⟩ | ⟨-, other⟩ := Pool.set_cases found'
        · obtain rfl | older := List.mem_cons.mp inTrace
          · obtain cached | granted := tells_true executed tells
            · exact earlier (.inl cached)
            · exact grows (accounted before (mem_access.mpr granted))
          · exact earlier (.inr ⟨th, Pool.thread?_mem found, e, older, tells⟩)
        · exact earlier (.inr ⟨th', Pool.thread?_mem other, e, inTrace, tells⟩)

/-- Whatever a permission read returns, whether fetched or cached and however old, each of its codes
is the user's by what there was at the start and by what calls were asked to make. -/
theorem served_accounted (reachable : From db pool) (member : th ∈ pool.threads)
    (asked : th.request = .getPermissions userId permVersion)
    (ended : th.result? = some (.ok (.permissions codes))) (listed : code ∈ codes) :
    (userId, code) ∈ access (db.edges ∪ pool.byCalls (Makes db.permissions)) := by
  obtain ⟨t, found⟩ := Pool.mem_threads.mp member
  have served := reachable.returned along_body found ended
  rw [asked] at served
  refine told_accounted reachable (.inr ⟨th, member, ?_⟩)
  obtain ⟨cached, heard, rfl⟩ | ⟨reply, heard, status, data⟩ := served codes rfl codes rfl
  · exact ⟨_, heard, rfl, listed⟩
  · exact ⟨_, heard, rfl, status, codes, data, listed⟩

/-- The first call has read the permission. -/
def readRefund (pool : RolePool) : Bool :=
  match pool.thread? 0 with
  | some ⟨.getPermissions aliceId "1", _, .done (.ok (.permissions codes))⟩ =>
      codes = ["order:refund"]
  | _ => false

theorem served_accounted_refunder : ∃ pool, From refunder pool ∧
    (aliceId, "order:refund") ∈
      access (refunder.edges ∪ pool.byCalls (Makes refunder.permissions)) := by
  have tested : (rolesSystem.replay System.Any (System.idle { db := refunder })
      (.spawn (.getPermissions aliceId "1") :: moves 0 3)).any readRefund = true := by
    decide +kernel
  obtain ⟨pool, run, passed⟩ := System.run_of_replay tested
  clear tested
  have reachable : From refunder pool := ⟨_, ⟨rfl, cacheSound_empty⟩, run⟩
  unfold readRefund at passed
  split at passed
  · rename_i trace codes found
    cases of_decide_eq_true passed
    exact ⟨pool, reachable,
      served_accounted reachable (Pool.thread?_mem found) rfl rfl List.mem_cons_self⟩
  · contradiction

end Runs
end CorePlatform.Roles
