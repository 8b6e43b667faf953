import CorePlatform.Async.Record
import CorePlatform.Roles.Rules
import Mathlib.Data.Fintype.EquivFin

/-! Rules for the executions of the role services with their record, and what the commands on
roles and their permissions do to the tables. -/
namespace CorePlatform.Roles
open Async Relational

abbrev RoleStep := Taken (semantics false)

/-- The backend has rejected the command. -/
def rejected (step : RoleStep) : Bool := step.choice.fault.isSome

def Unrejected (steps : List RoleStep) : Prop := ∀ step ∈ steps, rejected step = false

@[simp] theorem unrejected_nil : Unrejected [] := fun _ found => absurd found List.not_mem_nil

@[simp] theorem unrejected_cons {step : RoleStep} {steps : List RoleStep} :
    Unrejected (step :: steps) ↔ rejected step = false ∧ Unrejected steps := List.forall_mem_cons

@[simp] theorem unrejected_append {steps steps' : List RoleStep} :
    Unrejected (steps ++ steps') ↔ Unrejected steps ∧ Unrejected steps' := List.forall_mem_append

theorem unrejected_of_none {c : Cmd} {choice : Choice} {r : Except Exn c.Resp}
    (quiet : choice.fault = none) :
    Unrejected [⟨c, choice, r⟩] :=
  unrejected_cons.mpr ⟨by rw [rejected, quiet, Option.isSome_none], unrejected_nil⟩

/-- The backend has rejected one of the first `n` commands. -/
def RejectedWithin (n : Nat) (steps : List RoleStep) : Prop :=
  ∃ step ∈ steps.take n, rejected step = true

@[simp] theorem rejectedWithin_cons {n : Nat} {step : RoleStep} {steps : List RoleStep} :
    RejectedWithin (n + 1) (step :: steps) ↔ rejected step = true ∨ RejectedWithin n steps := by
  simp only [RejectedWithin, List.take_succ_cons, List.mem_cons, exists_eq_or_imp]

@[simp] theorem not_rejectedWithin_zero {steps : List RoleStep} : ¬ RejectedWithin 0 steps := by
  simp only [RejectedWithin, List.take_zero, List.not_mem_nil, false_and,
    exists_false, not_false_eq_true]

theorem rejectedWithin_append {n : Nat} {steps steps' : List RoleStep} (quiet : Unrejected steps) :
    RejectedWithin (steps.length + n) (steps ++ steps') ↔ RejectedWithin n steps' := by
  induction steps with
  | nil => rw [List.length_nil, Nat.zero_add, List.nil_append]
  | cons step steps ih =>
    obtain ⟨first, others⟩ := unrejected_cons.mp quiet
    rw [List.length_cons, Nat.add_right_comm, List.cons_append, rejectedWithin_cons, ih others]
    simp only [first, Bool.false_eq_true, false_or]

theorem Unrejected.not_within {n : Nat} {steps : List RoleStep} (unrejected : Unrejected steps) :
    ¬ RejectedWithin n steps := by
  rintro ⟨step, member, refused⟩
  exact absurd refused (Bool.not_eq_true _ ▸ unrejected step (List.mem_of_mem_take member))

theorem not_unrejected {step : RoleStep} {steps : List RoleStep} (refused : rejected step = true) :
    ¬ Unrejected (step :: steps) :=
  fun unrejected => absurd refused (Bool.not_eq_true _ ▸ (unrejected_cons.mp unrejected).1)

section Rules

variable {α : Type} {s t : Store} {c : Cmd} {Q : List RoleStep → Except Exn α → Store → Prop}

theorem exec_split {choice : Choice} {r : Except Exn c.Resp}
    (executed : exec false c choice s = some (r, t)) :
    (choice.fault = none ∧ execTotal c choice s = some (r, t)) ∨
      (choice.fault.isSome = true ∧ t = s ∧ ∃ e, r = .error e) := by
  rcases exec_fault executed with done | ⟨e, fault, same, failed, -⟩
  · exact .inl done
  · exact .inr ⟨by rw [fault, Option.isSome_some], same, e, failed⟩

theorem record_command {f : c.Resp → Action α}
    (refused : ∀ step e, rejected step = true → Q [step] (.error e) s)
    (answered : ∀ choice r t, rejected ⟨c, choice, r⟩ = false →
      execTotal c choice s = some (r, t) → match r with
      | .ok a => PostRecord (semantics false) (f a) t fun steps => Q (⟨c, choice, .ok a⟩ :: steps)
      | .error e => Q [⟨c, choice, .error e⟩] (.error e) t) :
    PostRecord (semantics false) (call c >>= f) s Q := by
  apply postRecord_command
  intro choice r t executed
  rcases exec_split executed with ⟨quiet, done⟩ | ⟨fault, rfl, e, rfl⟩
  · have following := answered choice r t (by rw [rejected, quiet, Option.isSome_none]) done
    cases r with
    | ok a => exact following
    | error e => exact following
  · exact refused _ e fault

/-- A query, which leaves the store alone. -/
theorem record_query {f : c.Resp → Action α} {a : c.Resp}
    (definite : ∀ choice, execTotal c choice s = some (.ok a, s))
    (refused : ∀ step e, rejected step = true → Q [step] (.error e) s)
    (next : ∀ step, rejected step = false →
      PostRecord (semantics false) (f a) s fun steps => Q (step :: steps)) :
    PostRecord (semantics false) (call c >>= f) s Q := by
  apply record_command refused
  intro choice r t quiet executed
  obtain ⟨rfl, rfl⟩ := Prod.mk.inj (Option.some.inj ((definite choice).symm.trans executed))
  exact next _ quiet

end Rules

section Total

variable {α : Type} {c : Cmd} {s : Store}

/-- Every command can do its work; a new row finds a free identifier. -/
theorem execTotal_total (c : Cmd) (s : Store) : ∃ choice : Choice, choice.fault = none ∧
    (execTotal c choice s).isSome := by
  cases c with
  | roleCreate name description =>
    obtain ⟨id, fresh⟩ := Infinite.exists_notMem_finset (s.db.roles.rows.map Role.id).toFinset
    rw [List.mem_toFinset] at fresh
    refine ⟨{ draw := id }, rfl, ?_⟩
    have inserted : (s.db.roles.insert? ⟨id, name, description, s.now⟩).isSome :=
      Table.insert?_of_fresh fun other found same => fresh (List.mem_map.mpr ⟨other, found, same⟩)
    rw [execTotal, Option.isSome_map, Db.createRole]
    split
    · rename_i none
      rw [none] at inserted
      contradiction
    · split <;> rfl
  | _ =>
    refine ⟨{}, rfl, ?_⟩
    simp only [execTotal, Store.with?]
    repeat' split
    all_goals rfl

/-- A backend that rejects nothing has an execution of every program. -/
theorem executes_unrejected (p : Action α) (s : Store) :
    ∃ steps r t, Executes (semantics false) p s steps r t ∧ Unrejected steps := by
  induction p generalizing s with
  | done r => exact ⟨[], r, s, .done, unrejected_nil⟩
  | await c k ih =>
    obtain ⟨choice, quiet, works⟩ := execTotal_total c s
    obtain ⟨⟨r, t⟩, executed⟩ := Option.isSome_iff_exists.mp works
    obtain ⟨steps, out, u, execution, unrejected⟩ := ih r t
    refine ⟨⟨c, choice, r⟩ :: steps, out, u, .await ?_ execution, ?_⟩
    · simpa only [semantics, exec, quiet] using executed
    · exact unrejected_append.mpr ⟨unrejected_of_none quiet, unrejected⟩

end Total

section Tables

variable {db : Db}

/-- What `create` makes of the roles: a free name is accepted. -/
theorem createRole_added {role : Role} {r : Except Exn Role} {db' : Db}
    (free : ∀ other ∈ db.roles, other.name ≠ role.name)
    (created : db.createRole role = some (r, db')) :
    r = .ok role ∧ (∀ other ∈ db.roles, other.id ≠ role.id) ∧
      (∀ other, other ∈ db'.roles ↔ other = role ∨ other ∈ db.roles) ∧
      db'.permissions = db.permissions ∧ db'.rolePermissions = db.rolePermissions := by
  unfold Db.createRole at created
  split at created
  · contradiction
  · rename_i roles inserted
    have names : (roles.rows.map Role.name).Nodup := by
      rw [Table.insert?_rows inserted, List.map_cons, List.nodup_cons]
      refine ⟨fun taken => ?_, db.names⟩
      obtain ⟨other, found, same⟩ := List.mem_map.mp taken
      exact free other found same
    rw [dif_pos names] at created
    obtain ⟨rfl, rfl⟩ := Prod.mk.inj (Option.some.inj created)
    exact ⟨rfl, fun other found => Table.insert?_fresh inserted found, fun other =>
      Table.mem_insert? inserted, rfl, rfl⟩

/-- The role and the permission of a link exist. -/
def Known (db : Db) (rp : RolePermission) : Prop :=
  (∃ role ∈ db.roles.rows, role.id = rp.roleId) ∧ ∃ p ∈ db.permissions.rows, p.id = rp.permissionId

/-- What an insertion makes of the links. -/
inductive Granting (db : Db) (rp : RolePermission) : Except Exn Unit × Db → Prop where
  | taken (there : rp ∈ db.rolePermissions) : Granting db rp (.error uniqueViolation, db)
  | dangling (absent : rp ∉ db.rolePermissions) (unknown : ¬ Known db rp) : Granting db rp
      (.error foreignKeyViolation, db)
  | granted (db' : Db) (absent : rp ∉ db.rolePermissions) (known : Known db rp)
      (roles : db'.roles = db.roles)
      (permissions : db'.permissions = db.permissions)
      (added : ∀ other, other ∈ db'.rolePermissions ↔ other = rp ∨ other ∈ db.rolePermissions) :
      Granting db rp (.ok (), db')

/-- The roles and their links are as before. -/
structure SameRoles (before after : Db) : Prop where
  roles : ∀ role, role ∈ after.roles ↔ role ∈ before.roles
  links : ∀ rp, rp ∈ after.rolePermissions ↔ rp ∈ before.rolePermissions

theorem SameRoles.refl : SameRoles db db := ⟨fun _ => Iff.rfl, fun _ => Iff.rfl⟩

theorem key_injective : Function.Injective RolePermission.key := by
  rintro ⟨roleId, permissionId⟩ ⟨roleId', permissionId'⟩ same
  obtain ⟨rfl, rfl⟩ := Prod.mk.inj same
  rfl

theorem grant_granting (db : Db) (rp : RolePermission) : Granting db rp (db.grant rp) := by
  unfold Db.grant
  split
  · rename_i refused
    refine .taken ?_
    refine Decidable.byContradiction fun absent => ?_
    have inserted : (db.rolePermissions.insert? rp).isSome :=
      Table.insert?_of_fresh fun other found same => absent (key_injective same ▸ found)
    rw [refused] at inserted
    contradiction
  · rename_i rolePermissions inserted
    have absent : rp ∉ db.rolePermissions := fun found => Table.insert?_fresh inserted found rfl
    split
    · rename_i known
      exact .granted _ absent known rfl rfl fun other => Table.mem_insert? inserted
    · rename_i unknown
      exact .dangling absent unknown

end Tables

/-- The query for a role fails by rejection, or when there is no such role. -/
theorem findOne_step {s : Store} {id : String} :
    PostRecord (semantics false) (RolesService.findOne id) s fun steps r t =>
      t = s ∧ ∃ step, steps = [step] ∧
      (rejected step = true ∧ (∃ e, r = .error e) ∨ rejected step = false ∧
        (∃ role ∈ s.db.roles, role.id = id) ∧ (∃ detail, r = .ok detail) ∨
        rejected step = false ∧ (¬ ∃ role ∈ s.db.roles, role.id = id) ∧ ∃ e, r = .error e) := by
  refine record_query (fun choice => rfl) (fun step e refused => ?_) fun step quiet => ?_
  · exact ⟨rfl, step, rfl, .inl ⟨refused, e, rfl⟩⟩
  · cases lookup : s.db.roles.rows.find? (·.id = id) with
    | none =>
      refine ⟨rfl, step, rfl, .inr (.inr ⟨quiet, ?_, _, rfl⟩)⟩
      rintro ⟨role, there, same⟩
      exact List.find?_eq_none.mp lookup role there (decide_eq_true same)
    | some role =>
      exact ⟨rfl, step, rfl, .inr (.inl ⟨quiet, ⟨role, Table.of_find lookup⟩, _, rfl⟩)⟩

/-- The query for a role that exists fails by rejection only. -/
theorem findOne_record {s : Store} {id : String} (there : ∃ role ∈ s.db.roles, role.id = id) :
    PostRecord (semantics false) (RolesService.findOne id) s fun steps r t => t = s ∧
      ((∃ detail, r = .ok detail) ∧ Unrejected steps ∨ (∃ e, r = .error e) ∧
        ¬ Unrejected steps) := by
  refine findOne_step.mono fun steps r t => ?_
  rintro ⟨rfl, step, rfl, ⟨refused, failed⟩ | ⟨quiet, _, found⟩ | ⟨_, missing, _⟩⟩
  · exact ⟨rfl, .inr ⟨failed, not_unrejected refused⟩⟩
  · exact ⟨rfl, .inl ⟨found, unrejected_cons.mpr ⟨quiet, unrejected_nil⟩⟩⟩
  · exact absurd there missing

end CorePlatform.Roles
