import CorePlatform.Roles.Creation
import Mathlib.Data.List.Nodup

/-! Updating a role: the old links are deleted and the new ones inserted one by one, so that a
failing step leaves the links that were inserted before it. -/
namespace CorePlatform.Roles
open Async Relational

/-- Another role has the name that the request gives. -/
def NameHeld (db : Db) (id : String) (name : Option String) : Prop :=
  ∃ wanted, name = some wanted ∧ ∃ role ∈ db.roles, role.name = wanted ∧ role.id ≠ id

section Table

variable {db : Db} {now : Nat} {id : String} {role : Role} {name : Option String}
  {description : Field String}

/-- The names stay distinct when the wanted one is free. -/
theorem names_edited (free : ¬ NameHeld db id name) :
    ((db.roles.update (·.id = id) fun old => Db.edited now old name description).rows.map
      Role.name).Nodup := by
  have apart : ∀ old ∈ db.roles, ∀ other ∈ db.roles, other.id ≠ id →
      name.getD old.name = other.name → old = other := by
    intro old found other found' foreign same
    cases name with
    | none => exact List.inj_on_of_nodup_map db.names found found' same
    | some wanted => exact absurd ⟨wanted, rfl, other, found', same.symm, foreign⟩ free
  simp only [Table.update, List.map_map, decide_eq_true_eq]
  refine List.Nodup.map_on (fun old found other found' same => ?_) (List.Nodup.of_map _ db.names)
  simp only [Function.comp_apply] at same
  by_cases own : old.id = id <;> by_cases own' : other.id = id <;>
    simp only [own, own', if_true, if_false] at same
  · exact Table.eq_of_key found found' (own.trans own'.symm)
  · exact apart old found other found' own' same
  · exact (apart other found' old found own same.symm).symm
  · exact List.inj_on_of_nodup_map db.names found found' same

/-- A role with a free name is updated. -/
theorem updateRole_updated (now : Nat) (description : Field String)
    (there : ∃ role ∈ db.roles, role.id = id) (free : ¬ NameHeld db id name) :
    ∃ db', db.updateRole now id name description = (.ok (), db') ∧
      (∀ other, other ∈ db'.roles ↔ ∃ old ∈ db.roles,
        (if old.id = id then Db.edited now old name description else old) = other) ∧
      db'.permissions = db.permissions ∧ db'.rolePermissions = db.rolePermissions := by
  have known : ∃ role ∈ db.roles.rows, role.id = id := there
  unfold Db.updateRole
  simp only [known, not_true_eq_false, if_false, names_edited free, dif_pos]
  refine ⟨_, rfl, fun other =>
    (Table.mem_update (f := fun old => Db.edited now old name description) fun _ => rfl).trans ?_,
    rfl, rfl⟩
  simp only [decide_eq_true_eq]

/-- The roles are as before exactly when the edit changes nothing. -/
theorem roles_same_iff {db' : Db} (there : role ∈ db.roles)
    (roles : ∀ other, other ∈ db'.roles ↔
      ∃ old ∈ db.roles, (if old.id = role.id then Db.edited now old name description else old) =
        other) :
    (∀ other, other ∈ db'.roles ↔ other ∈ db.roles) ↔ Db.edited now role name description = role := by
  constructor
  · intro same
    obtain ⟨old, found, changed⟩ := (roles role).mp ((same role).mpr there)
    by_cases own : old.id = role.id
    · obtain rfl := Table.eq_of_key found there own
      simpa only [if_true] using changed
    · rw [if_neg own] at changed
      exact absurd (congrArg Role.id changed) own
  · intro idle other
    have fixed : ∀ old ∈ db.roles,
        (if old.id = role.id then Db.edited now old name description else old) = old := by
      intro old found
      split
      · rename_i own
        rw [Table.eq_of_key found there own, idle]
      · rfl
    rw [roles]
    constructor
    · rintro ⟨old, found, rfl⟩
      rwa [fixed old found]
    · exact fun found => ⟨other, found, fixed other found⟩

end Table
/-- The permissions inserted before the first that is there already, does not exist or is rejected,
the latest first. -/
def insertedBefore (permissions : Table Permission.id) (done : List String) :
    List String → List RoleStep → List String
  | id :: ids, step :: steps =>
    if rejected step = true ∨ id ∈ done ∨ ¬ ∃ p ∈ permissions.rows, p.id = id then done
    else insertedBefore permissions (id :: done) ids steps
  | _, _ => done

/-- The links can be inserted after those that are there. -/
def Insertable (permissions : Table Permission.id) (done ids : List String) : Prop :=
  ids.Nodup ∧ ∀ id ∈ ids, id ∉ done ∧ ∃ p ∈ permissions, p.id = id

/-- The role has the given permissions, and everything else is as before. -/
structure Replaced (roleId : String) (ids : List String) (before after : Db) : Prop where
  roles : after.roles = before.roles
  permissions : after.permissions = before.permissions
  own : ∀ permissionId, ⟨roleId, permissionId⟩ ∈ after.rolePermissions ↔ permissionId ∈ ids
  others : ∀ rp : RolePermission, rp.roleId ≠ roleId → (rp ∈ after.rolePermissions ↔
    rp ∈ before.rolePermissions)

section Loop

variable {permissions : Table Permission.id} {before : Db} {s : Store} {roleId id : String}
  {done ids : List String}
  {steps : List RoleStep}

theorem insertable_cons : Insertable permissions done (id :: ids) ↔
    (id ∉ done ∧ ∃ p ∈ permissions, p.id = id) ∧ Insertable permissions (id :: done) ids := by
  simp only [Insertable, List.nodup_cons, List.mem_cons, forall_eq_or_imp, not_or]
  constructor
  · rintro ⟨⟨apart, distinct⟩, first, others⟩
    exact ⟨first, distinct, fun other member =>
      ⟨⟨fun same => apart (same ▸ member), (others other member).1⟩, (others other member).2⟩⟩
  · rintro ⟨first, distinct, others⟩
    exact ⟨⟨fun member => (others id member).1.1 rfl, distinct⟩, first, fun other member =>
      ⟨(others other member).1.2, (others other member).2⟩⟩

/-- One more link is inserted unless something is in its way. -/
theorem insert_record (there : ∃ role ∈ before.roles, role.id = roleId)
    (replaced : Replaced roleId done before s.db) :
    PostRecord (semantics false) (call (.rolePermissionCreate roleId id)) s fun steps r t =>
      ∃ step, steps = [step] ∧
      ((rejected step = true ∨ id ∈ done ∨ ¬ ∃ p ∈ before.permissions.rows, p.id = id) ∧
        (∃ e, r = .error e) ∧ t = s ∨
        ¬ (rejected step = true ∨ id ∈ done ∨ ¬ ∃ p ∈ before.permissions.rows,
          p.id = id) ∧ r = .ok () ∧ Replaced roleId (id :: done) before t.db) := by
  intro choice r t executed
  refine ⟨_, rfl, ?_⟩
  rcases exec_split executed with ⟨quiet, done'⟩ | ⟨fault, rfl, e, rfl⟩
  · have taken : ⟨roleId, id⟩ ∈ s.db.rolePermissions ↔ id ∈ done := replaced.own id
    have unrejected : ∀ r, rejected ⟨.rolePermissionCreate roleId id, choice, r⟩ = false := fun _ =>
      (unrejected_cons.mp (unrejected_of_none quiet)).1
    obtain ⟨rfl, rfl⟩ := Prod.mk.inj (Option.some.inj done')
    generalize granted : s.db.grant ⟨roleId, id⟩ = outcome
    have granting := granted ▸ grant_granting s.db ⟨roleId, id⟩
    cases granting with
    | taken found => exact .inl ⟨.inr (.inl (taken.mp found)), ⟨_, rfl⟩, rfl⟩
    | dangling absent unknown =>
      refine .inl ⟨.inr (.inr fun known => unknown ⟨?_, ?_⟩), ⟨_, rfl⟩, rfl⟩
      · exact replaced.roles ▸ there
      · exact replaced.permissions ▸ known
    | granted db' absent known roles permissions added =>
      refine .inr ⟨?_, rfl, roles.trans replaced.roles, permissions.trans replaced.permissions,
        fun other => ?_, fun rp foreign => ?_⟩
      · rintro (refused | member | unknown)
        · exact absurd refused (Bool.not_eq_true _ ▸ unrejected _)
        · exact absent (taken.mpr member)
        · exact unknown (replaced.permissions ▸ known.2)
      · rw [Store.db_setDb, added, replaced.own, List.mem_cons]
        simp only [RolePermission.mk.injEq, true_and]
      · have other : rp ≠ ⟨roleId, id⟩ := fun same => foreign (same ▸ rfl)
        rw [Store.db_setDb, added, replaced.others rp foreign]
        simp only [other, false_or]
  · exact .inl ⟨.inl fault, ⟨e, rfl⟩, rfl⟩

/-- The loop inserts the permissions up to the first failure. -/
theorem insertAll_record (there : ∃ role ∈ before.roles, role.id = roleId)
    (replaced : Replaced roleId done before s.db) :
    PostRecord (semantics false)
    (Prog.forEach (fun id => call (.rolePermissionCreate roleId id)) ids) s fun steps r t =>
      (∀ more, Replaced roleId (insertedBefore before.permissions done ids
        (steps ++ more)) before t.db) ∧
        (r = .ok () ∧ Unrejected steps ∧ Insertable before.permissions done ids ∧
          Replaced roleId (ids.reverse ++ done) before t.db ∨
          (∃ e, r = .error e) ∧ ¬ (Unrejected steps ∧ Insertable before.permissions done ids)) := by
  induction ids generalizing s done with
  | nil =>
    refine ⟨fun more => ?_, .inl ⟨rfl, unrejected_nil,
      ⟨List.nodup_nil, fun _ member => absurd member List.not_mem_nil⟩, replaced⟩⟩
    rwa [insertedBefore]
    exact fun id ids step steps same => absurd same (List.cons_ne_nil _ _).symm
  | cons id ids ih =>
    refine postRecord_bind.mpr ((insert_record there replaced).mono fun steps r t => ?_)
    rintro ⟨step, rfl, ⟨stops, ⟨e, rfl⟩, rfl⟩ | ⟨passes, rfl, inserted⟩⟩
    · refine ⟨fun more => ?_, .inr ⟨⟨e, rfl⟩, ?_⟩⟩
      · rwa [List.singleton_append, insertedBefore, if_pos stops]
      · rintro ⟨unrejected, insertable⟩
        obtain ⟨⟨absent, known⟩, _⟩ := insertable_cons.mp insertable
        rcases stops with refused | member | unknown
        · exact not_unrejected refused unrejected
        · exact absent member
        · exact unknown known
    · have quiet : rejected step = false :=
        Bool.eq_false_iff.mpr fun refused => passes (.inl refused)
      have fits : id ∉ done ∧ ∃ p ∈ before.permissions, p.id = id :=
        ⟨fun member => passes (.inr (.inl member)), Decidable.not_not.mp fun unknown =>
          passes (.inr (.inr unknown))⟩
      refine (ih inserted).mono fun steps r u => ?_
      rintro ⟨reached, outcome⟩
      refine ⟨fun more => ?_, ?_⟩
      · rw [List.cons_append, List.cons_append, List.nil_append, insertedBefore, if_neg passes]
        exact reached more
      · rw [List.singleton_append, unrejected_cons, insertable_cons, List.reverse_cons,
          List.append_assoc, List.singleton_append]
        simpa only [quiet, fits.1, fits.2, not_false_eq_true, true_and] using outcome

end Loop

def permissionsOf (db : Db) (roleId : String) : List String :=
  (db.rolePermissions.rows.filter (·.roleId = roleId)).map RolePermission.permissionId

theorem mem_permissionsOf {db : Db} {roleId permissionId : String} :
    permissionId ∈ permissionsOf db roleId ↔ ⟨roleId, permissionId⟩ ∈ db.rolePermissions := by
  simp only [permissionsOf, List.mem_map, List.mem_filter, decide_eq_true_eq]
  constructor
  · rintro ⟨rp, ⟨found, rfl⟩, rfl⟩
    exact found
  · exact fun found => ⟨_, ⟨found, rfl⟩, rfl⟩

/-- The request leaves the links alone or gives permissions that exist, each once. -/
def Replaceable (db : Db) : Field (List String) → Prop
  | .undefined => True
  | .null => False
  | .value ids => ids.Nodup ∧ AllKnown db ids

/-- The permissions of the role when the replacement, which starts with the first of the steps, has
stopped. -/
def remaining (db : Db) (roleId : String) : Field (List String) → List RoleStep → List String
  | .null, step :: _ => if rejected step then permissionsOf db roleId else []
  | .value ids, step :: steps =>
    if rejected step then permissionsOf db roleId else insertedBefore db.permissions [] ids steps
  | _, _ => permissionsOf db roleId

section Replace

variable {s : Store} {db : Db} {roleId : String} {permissionIds : Field (List String)}

theorem Replaced.refl : Replaced roleId (permissionsOf db roleId) db db where
  roles := rfl
  permissions := rfl
  own _ := mem_permissionsOf.symm
  others _ _ := Iff.rfl

theorem replaced_deleted : Replaced roleId [] db (db.deletePermissionsOf roleId) where
  roles := rfl
  permissions := rfl
  own permissionId := by
    rw [Db.deletePermissionsOf, Table.mem_delete]
    simp only [decide_true, Bool.true_eq_false, and_false, List.not_mem_nil]
  others rp foreign := by
    rw [Db.deletePermissionsOf, Table.mem_delete]
    simp only [foreign, decide_false, and_true]

/-- The deletion that starts the replacement. -/
theorem delete_record {α : Type} {f : Unit → Action α}
    {Q : List RoleStep → Except Exn α → Store → Prop}
    (refused : ∀ step e, rejected step = true → Q [step] (.error e) s)
    (next : ∀ step t, rejected step = false → Replaced roleId [] s.db t.db →
      PostRecord (semantics false) (f ()) t fun steps => Q (step :: steps)) :
    PostRecord (semantics false) (call (.rolePermissionDeleteMany roleId) >>= f) s Q := by
  refine record_command refused fun choice r t quiet executed => ?_
  obtain ⟨rfl, rfl⟩ := Prod.mk.inj (Option.some.inj executed)
  exact next _ _ quiet replaced_deleted

theorem replace_record (there : ∃ role ∈ s.db.roles, role.id = roleId) :
    PostRecord (semantics false)
    (RolesService.replacePermissions roleId permissionIds) s fun steps r t =>
      (∀ more, Replaced roleId (remaining s.db roleId permissionIds (steps ++ more)) s.db t.db) ∧
        (r = .ok () ∧ Unrejected steps ∧ Replaceable s.db permissionIds ∧
            (∀ ids, permissionIds = .value ids → Replaced roleId ids s.db t.db) ∨
          (∃ e, r = .error e) ∧ ¬ (Unrejected steps ∧ Replaceable s.db permissionIds)) := by
  cases permissionIds with
  | undefined =>
      exact ⟨fun _ => .refl, .inl ⟨rfl, unrejected_nil, trivial, fun _ same => nomatch same⟩⟩
  | null =>
    refine delete_record (fun step e refused => ?_) fun step t quiet deleted => ?_
    · refine ⟨fun more => ?_, .inr ⟨⟨e, rfl⟩, fun all => all.2⟩⟩
      simpa only [List.singleton_append, remaining, refused, if_true] using Replaced.refl
    · refine ⟨fun more => ?_, .inr ⟨⟨_, rfl⟩, fun all => all.2⟩⟩
      simpa only [List.singleton_append, remaining, quiet, Bool.false_eq_true,
        if_false] using deleted
  | value ids =>
    refine delete_record (fun step e refused => ?_) fun step t quiet deleted => ?_
    · refine ⟨fun more => ?_, .inr ⟨⟨e, rfl⟩, fun all => not_unrejected refused all.1⟩⟩
      simpa only [List.singleton_append, remaining, refused, if_true] using Replaced.refl
    · refine (insertAll_record there deleted).mono fun steps r u => ?_
      rintro ⟨reached, outcome⟩
      have insertable : Insertable s.db.permissions [] ids ↔ Replaceable s.db (.value ids) := by
        simp only [Insertable, Replaceable, AllKnown, List.not_mem_nil, not_false_eq_true, true_and]
      refine ⟨fun more => ?_, ?_⟩
      · simpa only [List.cons_append, remaining, quiet, Bool.false_eq_true,
          if_false] using reached more
      · rw [unrejected_cons, ← insertable]
        simp only [quiet, true_and]
        rcases outcome with ⟨returned, unrejected, fits, all⟩ | stopped
        · refine .inl ⟨returned, unrejected, fits, ?_⟩
          rintro _ ⟨⟩
          exact ⟨all.roles, all.permissions, fun id => by rw [all.own, List.append_nil,
            List.mem_reverse], all.others⟩
        · exact .inr stopped

end Replace

/-- The steps up to the change of the role's own row. -/
def UpdateRoleDto.opening (dto : UpdateRoleDto) : Nat := if dto.name.given?.isSome then 3 else 2

/-- The call is refused before it has changed anything. -/
def Refused (id : String) (dto : UpdateRoleDto) (before : Db) (steps : List RoleStep) : Prop :=
  (¬ ∃ role ∈ before.roles, role.id = id) ∨ NameHeld before id dto.name.given? ∨
    RejectedWithin dto.opening steps

/-- How a call ends: refused, or with the role's row and links changed as far as the steps allow. -/
inductive Updating (now : Nat) (id : String) (dto : UpdateRoleDto) (before : Db) :
    List RoleStep → Except Exn RoleDetail → Db → Prop where
  | refused (early : Refused id dto before steps) : Updating now id dto before steps (.error e) before
  | complete (started : ¬ Refused id dto before steps)
      (links : ∀ ids, dto.permissionIds = .value ids →
        ∀ permissionId, ⟨id, permissionId⟩ ∈ after.rolePermissions ↔ permissionId ∈ ids)
      (replaceable : Replaceable before dto.permissionIds) (unrejected : Unrejected steps) :
      Updating now id dto before steps (.ok detail) after
  | left (role : Role) (there : role ∈ before.roles) (same : role.id = id)
      (started : ¬ Refused id dto before steps)
      (later : ¬ (Replaceable before dto.permissionIds ∧ Unrejected steps))
      (roles : ∀ other, other ∈ after.roles ↔ ∃ old ∈ before.roles,
        (if old.id = role.id then Db.edited now old dto.name.given? dto.description else old) = other)
      (own : ∀ permissionId, ⟨id, permissionId⟩ ∈ after.rolePermissions ↔
        permissionId ∈ remaining before id dto.permissionIds (steps.drop dto.opening))
      (others : ∀ rp : RolePermission, rp.roleId ≠ id → (rp ∈ after.rolePermissions ↔
        rp ∈ before.rolePermissions)) :
      Updating now id dto before steps (.error e) after

/-- The call has changed the role's own row. -/
structure Opened (now : Nat) (id : String) (dto : UpdateRoleDto) (before : Db)
    (steps : List RoleStep) (after : Db) : Prop where
  there : ∃ role ∈ before.roles, role.id = id
  free : ¬ NameHeld before id dto.name.given?
  length : steps.length = dto.opening
  unrejected : Unrejected steps
  roles : ∀ other, other ∈ after.roles ↔ ∃ old ∈ before.roles,
    (if old.id = id then Db.edited now old dto.name.given? dto.description else old) = other
  permissions : after.permissions = before.permissions
  links : after.rolePermissions = before.rolePermissions

section Opening

variable {now : Nat} {id : String} {dto : UpdateRoleDto} {s : Store}
  {steps more : List RoleStep} {after : Db}

theorem Opened.not_refused {before : Db} (opened : Opened now id dto before steps after) :
    ¬ Refused id dto before (steps ++ more) := by
  rintro (missing | held | early)
  · exact missing opened.there
  · exact opened.free held
  · have early := (rejectedWithin_append opened.unrejected (n := 0)).mp (opened.length ▸ early)
    exact not_rejectedWithin_zero early

theorem checkName_record (name : Option String) :
    PostRecord (semantics false) (RolesService.checkName id name) s fun steps r t => t = s ∧
      (r = .ok () ∧ ¬ NameHeld s.db id name ∧ Unrejected steps ∧
        steps.length = (if name.isSome then 1 else 0) ∨
        (∃ e, r = .error e) ∧ (NameHeld s.db id name ∨ name.isSome ∧ RejectedWithin 2 steps)) := by
  cases name with
  | none =>
    refine ⟨rfl, .inl ⟨rfl, ?_, unrejected_nil, rfl⟩⟩
    rintro ⟨_, ⟨⟩, _⟩
  | some wanted =>
    refine record_query (fun choice => rfl) (fun step e refused => ?_) fun step quiet => ?_
    · exact ⟨rfl, .inr ⟨⟨e, rfl⟩, .inr ⟨rfl, rejectedWithin_cons.mpr (.inl refused)⟩⟩⟩
    · split
      · rename_i taken
        obtain ⟨role, found⟩ := Option.isSome_iff_exists.mp taken
        have held := List.find?_some found
        simp only [Bool.and_eq_true, decide_eq_true_eq] at held
        exact ⟨rfl, .inr ⟨⟨_, rfl⟩, .inl ⟨wanted, rfl, role,
          List.mem_of_find?_eq_some found, held⟩⟩⟩
      · rename_i free
        refine ⟨rfl, .inl ⟨rfl, ?_, unrejected_cons.mpr ⟨quiet, unrejected_nil⟩, rfl⟩⟩
        rintro ⟨_, ⟨⟩, role, found, held⟩
        exact free (List.find?_isSome.mpr ⟨role, found, by simpa only [Bool.and_eq_true,
          decide_eq_true_eq] using held⟩)

/-- The part of the call up to the change of the role's own row. -/
theorem opening_record {α : Type} {f : Action α} {Q : List RoleStep → Except Exn α → Store → Prop}
    (refused : ∀ steps e, Refused id dto s.db steps → Q steps (.error e) s)
    (next : ∀ steps t, Opened s.now id dto s.db steps t.db →
      PostRecord (semantics false) f t fun steps' => Q (steps ++ steps')) :
    PostRecord (semantics false) (do
      let _ ← RolesService.findOne id
      RolesService.checkName id dto.name.given?
      call (.roleUpdate id dto.name.given? dto.description)
      f) s Q := by
  refine postRecord_bind.mpr (findOne_step.mono fun steps r t => ?_)
  rintro ⟨rfl, step, rfl, ⟨refused', e, rfl⟩ | ⟨quiet, there, detail, rfl⟩ | ⟨_, missing, e, rfl⟩⟩
  · refine refused _ e (.inr (.inr ?_))
    unfold UpdateRoleDto.opening
    split <;> simp only [rejectedWithin_cons, refused', true_or]
  · refine postRecord_bind.mpr ((checkName_record _).mono fun steps r u => ?_)
    rintro ⟨rfl, ⟨rfl, free, unrejected, length⟩ | ⟨⟨e, rfl⟩, held | ⟨given, early⟩⟩⟩
    · have count : dto.opening = (step :: steps).length + 1 := by
        rw [UpdateRoleDto.opening, List.length_cons, length]
        split <;> rfl
      have all : Unrejected (step :: steps) := unrejected_cons.mpr ⟨quiet, unrejected⟩
      refine record_command (fun step' e refused' => ?_) fun choice r t quiet' executed => ?_
      · refine refused (step :: (steps ++ [step'])) e (.inr (.inr ?_))
        rw [count, ← List.cons_append, rejectedWithin_append all]
        exact rejectedWithin_cons.mpr (.inl refused')
      · obtain ⟨db', updated, roles, permissions, links⟩ :=
          updateRole_updated u.now dto.description there free
        simp only [execTotal, Store.with?, updated] at executed
        obtain ⟨rfl, rfl⟩ := Prod.mk.inj (Option.some.inj executed)
        have opened : Opened u.now id dto u.db
            (step :: steps ++ [⟨.roleUpdate id dto.name.given? dto.description,
              choice, .ok ()⟩]) db' :=
          ⟨there, free, by rw [count, List.length_append, List.length_singleton],
            unrejected_append.mpr ⟨all, unrejected_cons.mpr ⟨quiet', unrejected_nil⟩⟩,
            roles, permissions, links⟩
        refine (next _ (u.setDb db') opened).mono fun steps' r t holds => ?_
        simpa only [List.cons_append, List.append_assoc, List.nil_append] using holds
    · exact refused _ e (.inr (.inl held))
    · refine refused _ e (.inr (.inr ?_))
      rw [UpdateRoleDto.opening, if_pos given, List.singleton_append, rejectedWithin_cons]
      exact .inr early
  · exact refused _ e (.inl missing)

end Opening

section Update

variable {now : Nat} {id : String} {dto : UpdateRoleDto} {before after : Db}
  {opened steps : List RoleStep} {s : Store}

/-- What the replacement finds of the links and the permissions is what was there before the
call. -/
theorem Opened.remaining_eq (opening : Opened now id dto before opened after) :
    remaining after id dto.permissionIds steps = remaining before id dto.permissionIds steps := by
  have kept : permissionsOf after id = permissionsOf before id := by
    rw [permissionsOf, permissionsOf, opening.links]
  cases dto.permissionIds with
  | undefined => exact kept
  | null => cases steps with
    | nil => exact kept
    | cons step steps => rw [remaining, remaining, kept]
  | value ids => cases steps with
    | nil => exact kept
    | cons step steps => rw [remaining, remaining, kept, opening.permissions]

theorem Opened.replaceable_iff (opening : Opened now id dto before opened after)
    {permissionIds : Field (List String)} :
    Replaceable after permissionIds ↔ Replaceable before permissionIds := by
  cases permissionIds with
  | value ids => rw [Replaceable, Replaceable, AllKnown, AllKnown, opening.permissions]
  | _ => exact Iff.rfl

/-- A call that has changed the role's row and then fails. -/
theorem Opened.left {final : Db} (opening : Opened now id dto before opened after)
    (replaced : Replaced id (remaining after id dto.permissionIds steps) after final)
    (later : ¬ (Replaceable before dto.permissionIds ∧ Unrejected steps)) :
    Updating now id dto before (opened ++ steps) (.error e) final := by
  obtain ⟨role, there, rfl⟩ := opening.there
  have dropped : (opened ++ steps).drop dto.opening = steps := opening.length ▸ List.drop_left
  refine .left role there rfl opening.not_refused ?_ (fun other => ?_)
    (fun permissionId => ?_) fun rp foreign => ?_
  · rintro ⟨replaceable, unrejected⟩
    exact later ⟨replaceable, (unrejected_append.mp unrejected).2⟩
  · rw [replaced.roles]
    exact opening.roles other
  · rw [replaced.own, dropped, opening.remaining_eq]
  · rw [replaced.others rp foreign, opening.links]

theorem update_record (id : String) (dto : UpdateRoleDto) (s : Store) :
    PostRecord (semantics false) (RolesService.update id dto) s fun steps r t =>
      Updating s.now id dto s.db steps r t.db := by
  refine opening_record (fun steps e early => .refused early) fun opened t opening => ?_
  have there : ∃ role ∈ t.db.roles, role.id = id := by
    obtain ⟨role, found, rfl⟩ := opening.there
    exact ⟨_, (opening.roles _).mpr ⟨role, found, if_pos rfl⟩, rfl⟩
  refine postRecord_bind.mpr ((replace_record there).mono fun steps r u => ?_)
  rintro ⟨reached, ⟨rfl, unrejected, replaceable, links⟩ | ⟨⟨e, rfl⟩, later⟩⟩
  · have kept : ∃ role ∈ u.db.roles, role.id = id :=
      (by simpa only [List.append_nil] using reached [] : Replaced ..).roles ▸ there
    refine (findOne_record kept).mono fun steps' r v => ?_
    rintro ⟨rfl, ⟨⟨detail, rfl⟩, unrejected'⟩ | ⟨⟨e, rfl⟩, some⟩⟩
    · refine .complete opening.not_refused (fun ids given => (links ids given).own)
        (opening.replaceable_iff.mp replaceable) ?_
      exact unrejected_append.mpr ⟨opening.unrejected,
        unrejected_append.mpr ⟨unrejected, unrejected'⟩⟩
    · exact opening.left (reached steps') fun all => some (unrejected_append.mp all.2).2
  · refine opening.left ?_ fun all => later ⟨all.2, opening.replaceable_iff.mpr all.1⟩
    simpa only [List.append_nil] using reached []

/-- A call that throws has changed nothing; after one that returns the role has the given
permissions. -/
def UpdatedWhole (id : String) (dto : UpdateRoleDto) (before after : Db) :
    Except Exn RoleDetail → Prop
  | .error _ => SameRoles before after
  | .ok _ => ∀ ids, dto.permissionIds = .value ids →
      ∀ permissionId, ⟨id, permissionId⟩ ∈ after.rolePermissions ↔ permissionId ∈ ids

/-- The edit of the row changes nothing, its time included, and the replacement stops when the role
has its old permissions. -/
def Idle (now : Nat) (id : String) (dto : UpdateRoleDto) (before : Db) (steps : List RoleStep) :
    Prop :=
  (∃ role ∈ before.roles, role.id = id ∧ Db.edited now role dto.name.given? dto.description = role) ∧
    ∀ permissionId, permissionId ∈ remaining before id dto.permissionIds (steps.drop dto.opening) ↔
      ⟨id, permissionId⟩ ∈ before.rolePermissions

theorem Updating.whole_iff {r : Except Exn RoleDetail}
    (updating : Updating now id dto before steps r after) :
    UpdatedWhole id dto before after r ↔
      Refused id dto before steps ∨ (Replaceable before dto.permissionIds ∧ Unrejected steps) ∨
      Idle now id dto before steps := by
  cases updating with
  | refused early =>
    constructor
    · exact fun _ => .inl early
    · exact fun _ => .refl
  | complete started links replaceable unrejected =>
    constructor
    · exact fun _ => .inr (.inl ⟨replaceable, unrejected⟩)
    · exact fun _ => links
  | left role there same started later roles own others =>
    subst same
    constructor
    · intro kept
      refine .inr (.inr ⟨⟨role, there, rfl, (roles_same_iff there roles).mp kept.roles⟩,
        fun permissionId => ?_⟩)
      rw [← own, kept.links]
    · rintro (early | complete | ⟨⟨role', there', same, idle⟩, back⟩)
      · exact absurd early started
      · exact absurd complete later
      · obtain rfl := Table.eq_of_key there' there same
        refine ⟨(roles_same_iff there roles).mpr idle, fun rp => ?_⟩
        by_cases foreign : rp.roleId = role'.id
        · obtain ⟨roleId, permissionId⟩ := rp
          obtain rfl : roleId = role'.id := foreign
          rw [own, back]
        · exact others rp foreign

end Update

/-- Every update with the list succeeds as soon as a creation with it does, and the role gets the
permissions of the new one. -/
def AcceptsAlike (s : Store) (id : String) (creation : CreateRoleDto)
    (dto : UpdateRoleDto) : Prop :=
  ∀ steps detail t, Executes (semantics false) (RolesService.create creation) s steps
    (.ok detail) t →
    ∀ steps' r t', Executes (semantics false) (RolesService.update id dto) s steps' r t' →
    Unrejected steps' → (∃ detail', r = .ok detail') ∧ ∀ role ∈ t.db.roles, role ∉ s.db.roles →
        ∀ permissionId, ⟨id, permissionId⟩ ∈ t'.db.rolePermissions ↔
        ⟨role.id, permissionId⟩ ∈ t.db.rolePermissions

section Alike

variable {s : Store} {id : String} {creation : CreateRoleDto}
  {dto : UpdateRoleDto} {ids : List String}

/-- A creation succeeds with permissions that exist and a free name. -/
theorem create_succeeds (creation : CreateRoleDto) (free : ¬ NameTaken s.db creation.name)
    (known : AllKnown s.db creation.ids) :
    ∃ steps detail t, Executes (semantics false)
    (RolesService.create creation) s steps (.ok detail) t := by
  obtain ⟨steps, r, t, execution, unrejected⟩ :=
    executes_unrejected (RolesService.create creation) s
  have creating := postRecord_iff.mp (create_record creation s) steps r t execution
  cases r with
  | ok detail => exact ⟨steps, detail, t, execution⟩
  | error e =>
    generalize t.db = after, s.db = before at *
    cases creating with
    | refused early => exact (early.elim free unrejected.not_within).elim
    | left _ _ _ _ _ later => exact absurd ⟨known, unrejected⟩ later

theorem acceptsAlike_iff (s : Store) (id : String) (creation : CreateRoleDto) (dto : UpdateRoleDto)
    (ids : List String) :
    AcceptsAlike s id { creation with permissionIds := .value ids }
    { dto with permissionIds := .value ids } ↔ NameTaken s.db creation.name ∨ ¬ AllKnown s.db ids ∨
      ids.Nodup ∧ (∃ role ∈ s.db.roles, role.id = id) ∧ ¬ NameHeld s.db id dto.name.given? := by
  constructor
  · intro alike
    by_cases taken : NameTaken s.db creation.name
    · exact .inl taken
    by_cases known : AllKnown s.db ids
    · obtain ⟨steps, detail, t, created⟩ :=
        create_succeeds { creation with permissionIds := .value ids } taken known
      obtain ⟨steps', r, t', updated, unrejected⟩ :=
        executes_unrejected (RolesService.update id { dto with permissionIds := .value ids }) s
      obtain ⟨⟨detail', rfl⟩, _⟩ := alike steps detail t created steps' r t' updated unrejected
      have updating := postRecord_iff.mp (update_record _ _ s) _ _ _ updated
      generalize t'.db = after, s.db = before at *
      cases updating with
      | complete started links replaceable _ =>
        refine .inr (.inr ⟨replaceable.1, ?_, fun held => started (.inr (.inl held))⟩)
        exact Decidable.not_not.mp fun missing => started (.inl missing)
    · exact .inr (.inl known)
  · intro condition steps detail t created steps' r t' updated unrejected
    have creating := postRecord_iff.mp (create_record _ s) _ _ _ created
    have updating := postRecord_iff.mp (update_record _ _ s) _ _ _ updated
    generalize t.db = created', t'.db = updated', s.db = before at *
    cases creating with
    | complete role free named fresh roles links known _ =>
      obtain ⟨distinct, there, unheld⟩ :=
        (condition.resolve_left free).resolve_left fun unknown => unknown known
      obtain ⟨added, _⟩ := links_fresh fresh links
      cases updating with
      | refused early =>
        rcases early with missing | held | early
        · exact absurd there missing
        · exact absurd held unheld
        · exact absurd early unrejected.not_within
      | complete _ own _ _ =>
        refine ⟨⟨_, rfl⟩, fun other found new permissionId => ?_⟩
        obtain rfl := ((roles other).mp found).resolve_right new
        rw [own ids rfl, added]
        rfl
      | left _ _ _ _ later => exact absurd ⟨⟨distinct, known⟩, unrejected⟩ later

end Alike

/-- An update is all or nothing exactly when it is refused before the role's row changes, when the
permissions exist, each is given once and no step is rejected, or when nothing was to change. It
accepts a list that a creation accepts exactly when no permission is repeated. -/
theorem update_whole_iff (s : Store) (id : String) (dto : UpdateRoleDto) :
    (∀ steps r t, Executes (semantics false) (RolesService.update id dto) s steps r t →
      (UpdatedWhole id dto s.db t.db r ↔
        Refused id dto s.db steps ∨ (Replaceable s.db dto.permissionIds ∧ Unrejected steps) ∨
        Idle s.now id dto s.db steps)) ∧ ∀ (creation : CreateRoleDto) (ids : List String),
      AcceptsAlike s id { creation with permissionIds := .value ids }
      { dto with permissionIds := .value ids } ↔
        NameTaken s.db creation.name ∨ ¬ AllKnown s.db ids ∨
          ids.Nodup ∧ (∃ role ∈ s.db.roles, role.id = id) ∧ ¬ NameHeld s.db id dto.name.given? := by
  constructor
  · intro steps r t execution
    exact (postRecord_iff.mp (update_record id dto s) steps r t execution).whole_iff
  · exact fun creation ids => acceptsAlike_iff s id creation dto ids

section Sample

/-- A role without permissions, and one permission. -/
def unlinked : Db where
  roles := ⟨[{ id := refunderId, name := "refunder" }], by decide⟩
  permissions := permitted.permissions
  codes := permitted.codes
  holding := permitted.holding

/-- The second insertion of a repeated permission fails: the call throws after the first, and does
not accept what a creation accepts. -/
theorem update_stops_halfway :
    (∃ steps r t, Executes (semantics false)
      (RolesService.update refunderId { permissionIds := .value [refundId, refundId] })
      { db := unlinked } steps r t ∧
      Unrejected steps ∧ ¬ UpdatedWhole refunderId { permissionIds := .value [refundId, refundId] }
        unlinked t.db r) ∧
    ¬ AcceptsAlike { db := unlinked } refunderId
      { name := "auditor", permissionIds := .value [refundId, refundId] }
      { permissionIds := .value [refundId, refundId] } := by
  constructor
  · have recorded : ((RolesService.update refunderId
        { permissionIds := .value [refundId, refundId] }).record (semantics false)
        { db := unlinked } [{}, {}, {}, {}, {}]).any
          (fun (steps, r, t) => steps.all (!rejected ·) && !r.isOk &&
          decide (t.db.rolePermissions.rows ≠ [])) = true := by decide +kernel
    obtain ⟨steps, r, t, execution, tested⟩ := executes_of_record recorded
    simp only [Bool.and_eq_true, List.all_eq_true, Bool.not_eq_eq_eq_not, Bool.not_true,
      decide_eq_true_eq] at tested
    obtain ⟨⟨unrejected, threw⟩, inserted⟩ := tested
    refine ⟨steps, r, t, execution, unrejected, ?_⟩
    cases r with
    | ok detail => contradiction
    | error e =>
      intro same
      obtain ⟨rp, found⟩ := List.exists_mem_of_ne_nil _ inserted
      exact absurd ((same.links rp).mp found) List.not_mem_nil
  · intro alike
    have free : ¬ NameTaken unlinked "auditor" := by decide
    have known : AllKnown unlinked [refundId, refundId] := by decide
    rcases (acceptsAlike_iff _ _ { name := "auditor" } {} _).mp
      alike with taken | unknown | ⟨distinct, _⟩
    · exact free taken
    · exact unknown known
    · exact absurd distinct (by decide)

/-- The only permission is given once. -/
theorem update_whole_sample :
    (∃ steps r t, Executes (semantics false)
      (RolesService.update refunderId { permissionIds := .value [refundId] })
      { db := unlinked } steps r t ∧
      r.isOk = true ∧
        UpdatedWhole refunderId { permissionIds := .value [refundId] } unlinked t.db r) ∧
    AcceptsAlike { db := unlinked } refunderId
      { name := "auditor", permissionIds := .value [refundId] }
      { permissionIds := .value [refundId] } := by
  have known : AllKnown unlinked [refundId] := by decide
  constructor
  · have recorded : ((RolesService.update refunderId { permissionIds := .value [refundId] }).record
        (semantics false)
        { db := unlinked } [{}, {}, {}, {}, {}]).any
          (fun (steps, r, _) => steps.all (!rejected ·) && r.isOk) = true := by
      decide +kernel
    obtain ⟨steps, r, t, execution, tested⟩ := executes_of_record recorded
    simp only [Bool.and_eq_true, List.all_eq_true, Bool.not_eq_eq_eq_not, Bool.not_true] at tested
    obtain ⟨unrejected, returned⟩ := tested
    have distinct : [refundId].Nodup := by decide
    exact ⟨steps, r, t, execution, returned,
      ((update_whole_iff _ _ _).1 _ _ _ execution).mpr
        (.inr (.inl ⟨⟨distinct, known⟩, unrejected⟩))⟩
  · refine ((update_whole_iff _ refunderId {}).2 { name := "auditor" } [refundId]).mpr
      (.inr (.inr ⟨by decide, ?_, ?_⟩))
    · exact ⟨_, List.mem_cons_self, rfl⟩
    · rintro ⟨_, ⟨⟩, _⟩

end Sample
end CorePlatform.Roles
