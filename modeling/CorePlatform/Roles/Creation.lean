import CorePlatform.Common.Formats
import CorePlatform.Roles.Record

/-! Creating a role: the new role stays when one of the steps after its insertion fails. -/
namespace CorePlatform.Roles
open Async Relational

/-- The permissions that a request names. -/
def CreateRoleDto.ids (dto : CreateRoleDto) : List String := dto.permissionIds.given?.getD []

def AllKnown (db : Db) (ids : List String) : Prop := ∀ id ∈ ids, ∃ p ∈ db.permissions, p.id = id

instance (db : Db) (ids : List String) : Decidable (AllKnown db ids) :=
  inferInstanceAs (Decidable (∀ id ∈ ids, ∃ p ∈ db.permissions.rows, p.id = id))

/-- A call that throws has changed nothing, one that returns has added the role with its links. -/
def CreatedWhole (dto : CreateRoleDto) (before after : Db) : Except Exn RoleDetail → Prop
  | .error _ => SameRoles before after
  | .ok _ => ∃ role, role.name = dto.name ∧ role ∉ before.roles ∧
      (∀ other, other ∈ after.roles ↔ other = role ∨ other ∈ before.roles) ∧
      (∀ permissionId, ⟨role.id, permissionId⟩ ∈ after.rolePermissions ↔ permissionId ∈ dto.ids) ∧
      ∀ rp : RolePermission, rp.roleId ≠ role.id → (rp ∈ after.rolePermissions ↔
        rp ∈ before.rolePermissions)

/-- The links of a role after some more have been added. -/
structure Linked (roleId : String) (ids : List String) (before after : Db) : Prop where
  roles : after.roles = before.roles
  permissions : after.permissions = before.permissions
  links : ∀ rp, rp ∈ after.rolePermissions ↔ rp ∈ before.rolePermissions ∨ rp.roleId = roleId ∧
    rp.permissionId ∈ ids

section Linked

variable {before after final : Db} {roleId permissionId : String} {ids : List String}

theorem Linked.refl : Linked roleId [] before before where
  roles := rfl
  permissions := rfl
  links rp := by simp only [List.not_mem_nil, and_false, or_false]

theorem Linked.cons (first : Linked roleId [permissionId] before after)
    (rest : Linked roleId ids after final) :
    Linked roleId (permissionId :: ids) before final where
  roles := rest.roles.trans first.roles
  permissions := rest.permissions.trans first.permissions
  links rp := by
    rw [rest.links, first.links, List.mem_singleton, List.mem_cons, and_or_left, or_assoc]

end Linked

section Loop

variable {s : Store} {role : Role} {ids : List String} {permissionId : String}

/-- One link is added, unless the database rejects it. -/
theorem upsert_record (there : role ∈ s.db.roles)
    (known : ∃ p ∈ s.db.permissions, p.id = permissionId) :
    PostRecord (semantics false)
    (call (.rolePermissionUpsert role.id permissionId)) s fun steps r t =>
      (r = .ok () ∧ Unrejected steps ∧ Linked role.id [permissionId] s.db t.db) ∨
        (∃ e, r = .error e) ∧ ¬ Unrejected steps ∧ t = s := by
  intro choice r t executed
  rcases exec_split executed with ⟨quiet, done⟩ | ⟨fault, rfl, e, rfl⟩
  · simp only [execTotal] at done
    split at done
    · rename_i already
      obtain ⟨rfl, rfl⟩ := Prod.mk.inj (Option.some.inj done)
      refine .inl ⟨rfl, unrejected_of_none quiet, rfl, rfl, fun rp => ?_⟩
      constructor
      · exact .inl
      · rintro (old | ⟨same, one⟩)
        · exact old
        · rwa [show rp = ⟨role.id, permissionId⟩ from same ▸ List.mem_singleton.mp one ▸ rfl]
    · rename_i absent
      obtain ⟨rfl, rfl⟩ := Prod.mk.inj (Option.some.inj done)
      generalize granted : s.db.grant ⟨role.id, permissionId⟩ = outcome
      have granting := granted ▸ grant_granting s.db ⟨role.id, permissionId⟩
      cases granting with
      | taken there => exact absurd there absent
      | dangling _ unknown => exact absurd ⟨⟨role, there, rfl⟩, known⟩ unknown
      | granted db' _ _ roles permissions added =>
        refine .inl ⟨rfl, unrejected_of_none quiet, roles, permissions, fun rp => ?_⟩
        rw [Store.db_setDb, added, or_comm, List.mem_singleton]
        apply or_congr_right
        constructor
        · exact fun same => same ▸ ⟨rfl, rfl⟩
        · rintro ⟨role, permission⟩
          rw [← role, ← permission]
  · exact .inr ⟨⟨e, rfl⟩, not_unrejected fault, rfl⟩

/-- The loop over the permissions adds all the links, or stops at a rejected step. -/
theorem link_record (there : role ∈ s.db.roles) (known : AllKnown s.db ids) :
    PostRecord (semantics false)
    (Prog.forEach (fun id => call (.rolePermissionUpsert role.id id)) ids) s fun steps r t =>
      (r = .ok () ∧ Unrejected steps ∧ Linked role.id ids s.db t.db) ∨
        (∃ e, r = .error e) ∧ ¬ Unrejected steps ∧ role ∈ t.db.roles := by
  induction ids generalizing s with
  | nil => exact .inl ⟨rfl, unrejected_nil, .refl⟩
  | cons id ids ih =>
    obtain ⟨first, others⟩ := List.forall_mem_cons.mp known
    refine postRecord_bind.mpr ((upsert_record there first).mono fun steps r t => ?_)
    rintro (⟨rfl, unrejected, linked⟩ | ⟨⟨e, rfl⟩, some, rfl⟩)
    · refine (ih (linked.roles ▸ there) fun id member =>
        linked.permissions ▸ others id member).mono ?_
      rintro steps' r' u (⟨rfl, unrejected', linked'⟩ | ⟨failed, some, there⟩)
      · exact .inl ⟨rfl, unrejected_append.mpr ⟨unrejected, unrejected'⟩, linked.cons linked'⟩
      · exact .inr ⟨failed, fun all => some (unrejected_append.mp all).2, there⟩
    · exact .inr ⟨⟨e, rfl⟩, some, there⟩

end Loop

def NameTaken (db : Db) (name : String) : Prop := ∃ role ∈ db.roles, role.name = name

instance (db : Db) (name : String) : Decidable (NameTaken db name) :=
  inferInstanceAs (Decidable (∃ role ∈ db.roles.rows, role.name = name))

/-- How a call ends: refused before it has added the role, complete, or with the new role left
behind. -/
inductive Creating (dto : CreateRoleDto) (before : Db) :
    List RoleStep → Except Exn RoleDetail → Db → Prop where
  | refused (early : NameTaken before dto.name ∨ RejectedWithin 2 steps) : Creating dto before steps
      (.error e) before
  | complete (role : Role) (free : ¬ NameTaken before dto.name) (named : role.name = dto.name)
      (fresh : ∀ other ∈ before.roles, other.id ≠ role.id)
      (roles : ∀ other, other ∈ after.roles ↔ other = role ∨ other ∈ before.roles)
      (links : ∀ rp, rp ∈ after.rolePermissions ↔
        rp ∈ before.rolePermissions ∨ rp.roleId = role.id ∧ rp.permissionId ∈ dto.ids)
      (known : AllKnown before dto.ids) (unrejected : Unrejected steps) : Creating dto before steps
        (.ok detail) after
  | left (role : Role) (fresh : role ∉ before.roles) (there : role ∈ after.roles)
      (free : ¬ NameTaken before dto.name)
      (started : ¬ RejectedWithin 2 steps)
      (later : ¬ (AllKnown before dto.ids ∧ Unrejected steps)) :
      Creating dto before steps (.error e) after

/-- What follows the insertion of the role. -/
inductive Finishing (dto : CreateRoleDto) (role : Role) (before : Db) :
    List RoleStep → Except Exn RoleDetail → Db → Prop where
  | complete (known : AllKnown before dto.ids) (unrejected : Unrejected steps)
      (linked : Linked role.id dto.ids before after) : Finishing dto role before steps
        (.ok detail) after
  | stopped (there : role ∈ after.roles) (reason : ¬ (AllKnown before dto.ids ∧ Unrejected steps)) :
      Finishing dto role before steps (.error e) after

section Finishing

variable {s t u : Store} {role : Role} {dto : CreateRoleDto} {steps steps' : List RoleStep}
  {r : Except Exn RoleDetail}

/-- The last query ends the call. -/
theorem finishing_findOne (there : role ∈ t.db.roles) (known : AllKnown s.db dto.ids)
    (unrejected : Unrejected steps) (linked : Linked role.id dto.ids s.db t.db) :
    PostRecord (semantics false) (RolesService.findOne role.id) t
      fun steps' r u => Finishing dto role s.db (steps ++ steps') r u.db := by
  refine (findOne_record ⟨role, there, rfl⟩).mono fun steps' r u => ?_
  rintro ⟨rfl, ⟨⟨detail, rfl⟩, unrejected'⟩ | ⟨⟨e, rfl⟩, some⟩⟩
  · exact .complete known (unrejected_append.mpr ⟨unrejected, unrejected'⟩) linked
  · exact .stopped there fun all => some (unrejected_append.mp all.2).2

/-- The permissions are checked and linked, then the role is read back. -/
theorem finishing_links (there : role ∈ s.db.roles) : PostRecord (semantics false) (do
      let existingIds ← call (.permissionFindMany dto.ids)
      let missingIds := dto.ids.filter (· ∉ existingIds)
      if missingIds ≠ [] then
        throw (.service
          { message := "Some permissions do not exist: " ++ ", ".intercalate missingIds
            statusCode := 400, code := ErrorCodes.NOT_FOUND })
      Prog.forEach (fun permissionId => call (.rolePermissionUpsert role.id permissionId)) dto.ids
      RolesService.findOne role.id) s fun steps r t => Finishing dto role s.db steps r t.db := by
  refine record_query (fun choice => rfl) (fun step e refused => ?_) fun step quiet => ?_
  · exact .stopped there fun all => not_unrejected refused all.2
  · dsimp only
    split
    · rename_i missing
      refine .stopped there fun all => missing (List.filter_eq_nil_iff.mpr fun id member => ?_)
      obtain ⟨p, found, same⟩ := all.1 id member
      have listed : id ∈ (s.db.permissions.rows.filter (·.id ∈ dto.ids)).map Permission.id :=
        List.mem_map.mpr ⟨p, List.mem_filter.mpr ⟨found, decide_eq_true (same ▸ member)⟩, same⟩
      simp only [listed, not_true_eq_false, decide_false, Bool.false_eq_true, not_false_eq_true]
    · rename_i complete
      have known : AllKnown s.db dto.ids := by
        intro id member
        have listed := List.filter_eq_nil_iff.mp (Decidable.not_not.mp complete) id member
        simp only [decide_not, Bool.not_eq_eq_eq_not, Bool.not_true, decide_eq_false_iff_not,
          Decidable.not_not] at listed
        obtain ⟨p, found, same⟩ := List.mem_map.mp listed
        exact ⟨p, (List.mem_filter.mp found).1, same⟩
      refine postRecord_bind.mpr ((link_record there known).mono fun steps r t => ?_)
      rintro (⟨rfl, unrejected, linked⟩ | ⟨⟨e, rfl⟩, some, left⟩)
      · exact finishing_findOne (linked.roles ▸ there) known
          (unrejected_cons.mpr ⟨quiet, unrejected⟩) linked
      · exact .stopped left fun all => some (unrejected_cons.mp all.2).2

/-- A call that has added the role ends as its rest does. -/
theorem Finishing.creating {before db after : Db} {step step' : RoleStep}
    (finishing : Finishing dto role db steps r after) (free : ¬ NameTaken before dto.name)
    (named : role.name = dto.name) (fresh : ∀ other ∈ before.roles, other.id ≠ role.id)
    (roles : ∀ other, other ∈ db.roles ↔ other = role ∨ other ∈ before.roles)
    (permissions : db.permissions = before.permissions)
    (links : db.rolePermissions = before.rolePermissions) (quiet : rejected step = false)
    (quiet' : rejected step' = false) :
    Creating dto before (step :: step' :: steps) r after := by
  have known : AllKnown db dto.ids ↔ AllKnown before dto.ids := by
    rw [AllKnown, AllKnown, permissions]
  have unrejected : Unrejected (step :: step' :: steps) ↔ Unrejected steps := by
    simp only [unrejected_cons, quiet, quiet', true_and]
  cases finishing with
  | complete all quiet linked =>
    refine .complete role free named fresh (fun other => ?_) (fun rp => ?_) (known.mp all)
      (unrejected.mpr quiet)
    · rw [linked.roles, roles]
    · rw [linked.links, links]
  | stopped there reason =>
    refine .left role (fun old => fresh role old rfl) there free ?_ (by rwa [← known, unrejected])
    simp only [rejectedWithin_cons, quiet, quiet', Bool.false_eq_true, not_rejectedWithin_zero,
      or_self, not_false_eq_true]

theorem create_record (dto : CreateRoleDto) (s : Store) :
    PostRecord (semantics false) (RolesService.create dto) s fun steps r t =>
      Creating dto s.db steps r t.db := by
  refine record_query (fun choice => rfl) (fun step e refused => ?_) fun step quiet => ?_
  · exact .refused (.inr (rejectedWithin_cons.mpr (.inl refused)))
  · split
    · rename_i taken
      obtain ⟨role, found⟩ := Option.isSome_iff_exists.mp taken
      exact .refused (.inl ⟨role, Table.of_find found⟩)
    · rename_i free
      have free : ¬ NameTaken s.db dto.name := by
        rintro ⟨role, found, same⟩
        exact free (List.find?_isSome.mpr ⟨role, found, decide_eq_true same⟩)
      refine record_command (fun step' e refused => ?_) fun choice r t quiet' executed => ?_
      · exact .refused (.inr (by simp only [rejectedWithin_cons, refused, true_or, or_true]))
      · obtain ⟨⟨r, db⟩, created, same⟩ := Option.map_eq_some_iff.mp executed
        cases same
        obtain ⟨rfl, fresh, roles, permissions, links⟩ :=
          createRole_added (fun other found same => free ⟨other, found, same⟩) created
        have there := (roles _).mpr (.inl rfl)
        refine PostRecord.mono ?_ fun steps r u finishing =>
          Finishing.creating finishing free rfl fresh roles permissions links quiet quiet'
        dsimp only
        split
        · exact finishing_links (s := s.setDb db) there
        · rename_i empty
          have none : dto.ids = [] := Decidable.not_not.mp empty
          refine finishing_findOne (s := s.setDb db) (t := s.setDb db) there ?_ unrejected_nil ?_
          · exact none ▸ fun id member => absurd member List.not_mem_nil
          · exact none ▸ .refl

end Finishing

section AllOrNothing

variable {dto : CreateRoleDto} {before after : Db} {steps : List RoleStep}
  {r : Except Exn RoleDetail}

/-- The links of a fresh role are the ones the call has added. -/
theorem links_fresh {role : Role} (fresh : ∀ other ∈ before.roles, other.id ≠ role.id)
    (links : ∀ rp, rp ∈ after.rolePermissions ↔ rp ∈ before.rolePermissions ∨ rp.roleId = role.id ∧
      rp.permissionId ∈ dto.ids) :
    (∀ permissionId, ⟨role.id, permissionId⟩ ∈ after.rolePermissions ↔ permissionId ∈ dto.ids) ∧
      ∀ rp : RolePermission, rp.roleId ≠ role.id → (rp ∈ after.rolePermissions ↔
        rp ∈ before.rolePermissions) := by
  constructor
  · intro permissionId
    have none : (⟨role.id, permissionId⟩ : RolePermission) ∉ before.rolePermissions := by
      intro old
      obtain ⟨owner, found, same⟩ := before.granting _ old
      exact fresh owner found same
    rw [links]
    simp only [none, true_and, false_or]
  · intro rp foreign
    rw [links]
    simp only [foreign, false_and, or_false]

theorem Creating.whole_iff (creating : Creating dto before steps r after) :
    CreatedWhole dto before after r ↔
    NameTaken before dto.name ∨ RejectedWithin 2 steps ∨
    (AllKnown before dto.ids ∧ Unrejected steps) := by
  cases creating with
  | refused early =>
    constructor
    · exact fun _ => early.imp_right .inl
    · exact fun _ => .refl
  | complete role free named fresh roles links known unrejected =>
    constructor
    · exact fun _ => .inr (.inr ⟨known, unrejected⟩)
    · exact fun _ => ⟨role, named, fun old => fresh role old rfl, roles, links_fresh fresh links⟩
  | left role fresh there free started later =>
    constructor
    · exact fun same => absurd ((same.roles role).mp there) fresh
    · rintro (taken | early | complete)
      · exact absurd taken free
      · exact absurd early started
      · exact absurd complete later

/-- Creating a role is all or nothing exactly when the call is refused before the insertion, or the
permissions exist and no step is rejected. -/
theorem create_whole_iff {s t : Store}
    (execution : Executes (semantics false) (RolesService.create dto) s steps r t) :
    CreatedWhole dto s.db t.db r ↔
      NameTaken s.db dto.name ∨ RejectedWithin 2 steps ∨
      (AllKnown s.db dto.ids ∧ Unrejected steps) :=
  (postRecord_iff.mp (create_record dto s) steps r t execution).whole_iff

end AllOrNothing

section Sample

/-- One permission is known. -/
def permitted : Db where
  permissions := ⟨[{ id := refundId, code := "order:refund" }], by decide⟩

/-- The permission of the request is unknown: the call throws, with no step rejected, and the role
stays. -/
theorem create_leaves_role : ∃ steps r t,
    Executes (semantics false)
    (RolesService.create { name := "refunder", permissionIds := .value [cancelId] })
      { db := permitted } steps r t ∧
    Unrejected steps ∧ ¬ CreatedWhole { name := "refunder", permissionIds := .value [cancelId] }
      permitted t.db r := by
  have recorded :
      ((RolesService.create { name := "refunder", permissionIds := .value [cancelId] }).record
        (semantics false)
      { db := permitted } [{}, { draw := refunderId }, {}]).any
        (fun (steps, r, t) => steps.all (!rejected ·) && !r.isOk &&
        decide (t.db.roles.rows ≠ [])) = true := by decide +kernel
  obtain ⟨steps, r, t, execution, tested⟩ := executes_of_record recorded
  simp only [Bool.and_eq_true, List.all_eq_true, Bool.not_eq_eq_eq_not, Bool.not_true,
    decide_eq_true_eq] at tested
  obtain ⟨⟨unrejected, threw⟩, left⟩ := tested
  refine ⟨steps, r, t, execution, unrejected, ?_⟩
  cases r with
  | ok detail => contradiction
  | error e =>
    intro same
    obtain ⟨role, found⟩ := List.exists_mem_of_ne_nil _ left
    exact absurd ((same.roles role).mp found) List.not_mem_nil

/-- A repeated permission is linked once. -/
theorem create_whole_sample : ∃ steps r t,
    Executes (semantics false)
    (RolesService.create { name := "refunder", permissionIds := .value [refundId, refundId] })
      { db := permitted } steps r t ∧
    r.isOk = true ∧
      CreatedWhole { name := "refunder", permissionIds := .value [refundId, refundId] }
      permitted t.db r := by
  have recorded :
      ((RolesService.create
        { name := "refunder", permissionIds := .value [refundId, refundId] }).record
        (semantics false)
      { db := permitted } [{}, { draw := refunderId }, {}, {}, {}, {}]).any (fun (steps, r, _) =>
        steps.all (!rejected ·) && r.isOk) = true := by decide +kernel
  obtain ⟨steps, r, t, execution, tested⟩ := executes_of_record recorded
  simp only [Bool.and_eq_true, List.all_eq_true, Bool.not_eq_eq_eq_not, Bool.not_true] at tested
  obtain ⟨unrejected, returned⟩ := tested
  have known : AllKnown permitted [refundId, refundId] := by decide
  exact ⟨steps, r, t, execution, returned,
    (create_whole_iff execution).mpr (.inr (.inr ⟨known, unrejected⟩))⟩

end Sample
end CorePlatform.Roles
