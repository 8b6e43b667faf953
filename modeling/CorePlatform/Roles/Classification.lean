import CorePlatform.Roles.Assignment

/-! The class of an error on its way out of `assignRole` and `unassignRole`: the `catch` clauses
read `statusCode` and `code`, which an exception of the framework does not have, and the second
one sets the code whatever it has caught. -/
namespace CorePlatform.Roles
open Async Relational

/-- The status an error stands for: the `statusCode` of a `ServiceError`, the status of an
exception of the framework. The errors of the backends have none. -/
def status? : Exn → Option Nat
  | .service e => some e.statusCode
  | .http status _ => some status
  | .database .. | .error .. => none

/-- A `ServiceError` with the status and the code of the error it replaces. -/
structure Keeps (raised : Exn) (e : ServiceError) : Prop where
  status : ∀ status, status? raised = some status → e.statusCode = status
  code : ∀ code, raised.code? = some code → e.code = code

namespace Change

def block : Change → String → String → Action AssignedRole
  | .assign => RolesService.assignBlock
  | .unassign => RolesService.unassignBlock

def failure : Change → Exn → ServiceError
  | .assign => RolesService.assignFailure
  | .unassign => RolesService.unassignFailure

/-- What the `try` block raises where the user or the role is missing. -/
def absence : Change → String → Exn
  | .assign, message => .http 404 message
  | .unassign, message =>
      .service { message, statusCode := 404, code := ErrorCodes.NOT_FOUND }

/-- What the `try` block raises where the membership is wrong. -/
def refusal : Change → String → Exn
  | .assign, message => .service { message, statusCode := 400, code := ErrorCodes.CONFLICT }
  | .unassign, message => .service { message, statusCode := 400, code := ErrorCodes.NOT_FOUND }

/-- The errors whose status and code the `catch` clause keeps. -/
def Spares : Change → Exn → Prop
  | .assign, .service e => e.statusCode ≠ 0 ∧ e.code ≠ ""
  | .assign, .database code _ => code ≠ ""
  | .assign, .error code _ => code ≠ some ""
  | .unassign, .service e => e.statusCode ≠ 0 ∧ e.code = ErrorCodes.INTERNAL
  | .unassign, .database code _ => code = ErrorCodes.INTERNAL
  | .unassign, .error code _ => ∀ c ∈ code, c = ErrorCodes.INTERNAL
  | _, .http status _ => status = 500

end Change

/-- The user and the role of a call exist. -/
def Present (userId roleName : String) (s : Store) : Prop :=
  (∃ user ∈ s.db.users, user.id = userId) ∧ ∃ role ∈ s.db.roles, role.name = roleName

/-- The user has the role. -/
def HasRole (userId roleName : String) (s : Store) : Prop :=
  ∃ role ∈ s.db.roles, role.name = roleName ∧ ⟨userId, role.id⟩ ∈ s.db.userRoles

/-- The membership does not allow the change. -/
def Change.Refuses (userId roleName : String) (s : Store) : Change → Prop
  | .assign => HasRole userId roleName s
  | .unassign => ¬ HasRole userId roleName s

/-- The error with which the backend has rejected a command. -/
def rejection? (steps : List RoleStep) : Option Exn := steps.findSome? (·.choice.fault)

/-- What leaves a call whose `try` block has raised an error: 404 where the user or the role is
missing, 400 where the membership is wrong, the class of the error everywhere. -/
structure Classified (change : Change) (userId roleName : String) (s : Store)
    (steps : List RoleStep) (raised : Exn) (e : ServiceError) : Prop where
  absent : rejection? steps = none → ¬ Present userId roleName s →
    e.statusCode = 404 ∧ e.code = ErrorCodes.NOT_FOUND
  membership : rejection? steps = none → Present userId roleName s →
    change.Refuses userId roleName s → e.statusCode = 400 ∧ raised.code? = some e.code
  kept : Keeps raised e

/-- A rejected command had an error that the `catch` clause keeps, or no command was rejected and
the user and the role, and for `unassignRole` the membership, are there. -/
def Change.Classifies (userId roleName : String) (s : Store) (steps : List RoleStep)
    (change : Change) : Prop :=
  match rejection? steps with
  | some e => change.Spares e
  | none => Present userId roleName s ∧ (change = .unassign → HasRole userId roleName s)

section Failures

variable {change : Change} {userId roleName : String}

theorem call_eq : change.call userId roleName =
    tryCatch (change.block userId roleName) fun e => throw (.service (change.failure e)) := by
  cases change <;> rfl

/-- `value || default` is the value, unless that is falsy. -/
theorem filter_getD {α : Type} [DecidableEq α] {value falsy default : α} (other : default ≠ falsy) :
    ((some value).filter (· ≠ falsy)).getD default = value ↔ value ≠ falsy := by
  by_cases same : value = falsy
  · simpa [Option.filter_some, same] using other
  · simp [Option.filter_some, same]

theorem keeps_iff {raised : Exn} {e : ServiceError} : Keeps raised e ↔
    (∀ status, status? raised = some status → e.statusCode = status) ∧
      ∀ code, raised.code? = some code → e.code = code :=
  ⟨fun keeps => ⟨keeps.status, keeps.code⟩, fun keeps => ⟨keeps.1, keeps.2⟩⟩

theorem keeps_assignFailure (raised : Exn) :
    Keeps raised (RolesService.assignFailure raised) ↔ Change.assign.Spares raised := by
  have status : (500 : Nat) ≠ 0 := by decide
  have code : ErrorCodes.INTERNAL ≠ "" := by decide
  rw [keeps_iff]
  cases raised with
  | service e =>
    simp only [RolesService.assignFailure, Change.Spares, status?, Exn.code?, Exn.statusCode?,
      Option.some.injEq, forall_eq', filter_getD status, filter_getD code]
  | http status message =>
    simp [RolesService.assignFailure, Change.Spares, status?, Exn.code?, Exn.statusCode?, eq_comm]
  | database code' message =>
    simp only [RolesService.assignFailure, Change.Spares, status?, Exn.code?,
      Option.some.injEq, forall_eq', filter_getD code, reduceCtorEq, false_imp_iff, implies_true,
      true_and]
  | error code' message =>
    cases code' with
    | none => simp [RolesService.assignFailure, Change.Spares, status?, Exn.code?]
    | some code' =>
      simp only [RolesService.assignFailure, Change.Spares, status?, Exn.code?, Option.some.injEq,
        forall_eq', filter_getD code, reduceCtorEq, false_imp_iff, implies_true, true_and, ne_eq]

theorem keeps_unassignFailure (raised : Exn) :
    Keeps raised (RolesService.unassignFailure raised) ↔ Change.unassign.Spares raised := by
  have status : (500 : Nat) ≠ 0 := by decide
  rw [keeps_iff]
  cases raised with
  | service e =>
    simp only [RolesService.unassignFailure, Change.Spares, status?, Exn.code?, Exn.statusCode?,
      Option.some.injEq, forall_eq', filter_getD status]
    exact and_congr_right fun _ => eq_comm
  | http status message =>
    simp [RolesService.unassignFailure, Change.Spares, status?, Exn.code?, Exn.statusCode?, eq_comm]
  | database code message =>
    simp [RolesService.unassignFailure, Change.Spares, status?, Exn.code?, eq_comm]
  | error code message =>
    simp [RolesService.unassignFailure, Change.Spares, status?, Exn.code?, eq_comm]

theorem keeps_failure (raised : Exn) :
    Keeps raised (change.failure raised) ↔ change.Spares raised := by
  cases change with
  | assign => exact keeps_assignFailure raised
  | unassign => exact keeps_unassignFailure raised

end Failures

/-- A body ends with the error of a rejected command, or, when none is rejected, in `P`. -/
def Ends {α : Type} (P : Except Exn α → Prop) (steps : List RoleStep) (r : Except Exn α) : Prop :=
  match rejection? steps with
  | some e => r = .error e
  | none => P r

section Bodies

variable {α β : Type} {s t : Store} {c : Cmd} {userId roleName : String}

/-- A command whose work leaves nothing open. -/
theorem ends_step {P : Except Exn α → Prop} {f : c.Resp → Action α} {a : c.Resp}
    (definite : ∀ choice, execTotal c choice s = some (.ok a, t))
    (next : PostRecord (semantics false) (f a) t fun steps r _ => Ends P steps r) :
    PostRecord (semantics false) (call c >>= f) s fun steps r _ => Ends P steps r := by
  apply postRecord_command
  intro choice r u executed
  rcases exec_fault executed with ⟨quiet, done⟩ | ⟨e, fault, rfl, rfl, -⟩
  · obtain ⟨rfl, rfl⟩ := Prod.mk.inj (Option.some.inj ((definite choice).symm.trans done))
    refine next.mono fun steps r _ ends => ?_
    simpa only [Ends, rejection?, List.findSome?_cons, quiet] using ends
  · simp only [Ends, rejection?, List.findSome?_cons, fault]

theorem ends_done {P : Except Exn α → Prop} {r : Except Exn α} (holds : P r) :
    PostRecord (semantics false) (.done r : Action α) s fun steps r _ => Ends P steps r := holds

theorem ends_call {a : c.Resp} (definite : ∀ choice, execTotal c choice s = some (.ok a, t)) :
    PostRecord (semantics false) (call c) s fun steps r _ => Ends (· = .ok a) steps r := by
  intro choice r u executed
  rcases exec_fault executed with ⟨quiet, done⟩ | ⟨e, fault, rfl, rfl, -⟩
  · obtain ⟨rfl, rfl⟩ := Prod.mk.inj (Option.some.inj ((definite choice).symm.trans done))
    simp only [postRecord_done, Ends, rejection?, List.findSome?_cons, quiet, List.findSome?_nil]
  · simp only [postRecord_done, Ends, rejection?, List.findSome?_cons, fault]

/-- A body that only fails by rejection, and what follows it. -/
theorem ends_bind {P : Except Exn β → Prop} {p : Action α} {f : α → Action β} {a : α}
    (first : PostRecord (semantics false) p s fun steps r _ => Ends (· = .ok a) steps r)
    (next : ∀ t, PostRecord (semantics false) (f a) t fun steps r _ => Ends P steps r) :
    PostRecord (semantics false) (p >>= f) s fun steps r _ => Ends P steps r := by
  refine postRecord_bind.mpr (first.mono fun steps r t ends => ?_)
  unfold Ends at ends
  cases found : rejection? steps with
  | some e =>
    simp only [found] at ends
    subst ends
    simp only [Ends, found]
  | none =>
    simp only [found] at ends
    subst ends
    refine (next t).mono fun steps' r' _ ends' => ?_
    unfold rejection? at found
    simpa only [Ends, rejection?, List.findSome?_append, found, Option.none_or] using ends'

theorem updatePermVersion_ends (v : Int) :
    PostRecord (semantics false) (PermissionCache.updatePermVersion userId v) s
      fun steps r _ => Ends (· = .ok ()) steps r := by
  refine ends_step (fun choice => rfl) ?_
  split
  · exact ends_call fun choice => rfl
  · exact ends_done rfl

/-- How the `try` block ends when no command is rejected. -/
inductive Quiet (change : Change) (userId roleName : String) (s : Store) :
    Except Exn AssignedRole → Prop where
  | absent (message : String) (missing : ¬ Present userId roleName s) :
      Quiet change userId roleName s (.error (change.absence message))
  | refused (message : String) (there : Present userId roleName s)
      (refuses : change.Refuses userId roleName s) :
      Quiet change userId roleName s (.error (change.refusal message))
  | changed (there : Present userId roleName s) (allowed : ¬ change.Refuses userId roleName s) :
      Quiet change userId roleName s (.ok assigned)

theorem find?_missing {α : Type} {rows : List α} {p : α → Prop} [DecidablePred p]
    (missing : rows.find? (p ·) = none) : ¬ ∃ row ∈ rows, p row := by
  rintro ⟨row, there, holds⟩
  exact List.find?_eq_none.mp missing row there (decide_eq_true holds)

theorem hasRole_iff {role : Role} (there : role ∈ s.db.roles) (name : role.name = roleName) :
    HasRole userId roleName s ↔
      (s.db.userRoles.rows.find? (· = ⟨userId, role.id⟩)).isSome = true := by
  constructor
  · rintro ⟨other, there', name', has⟩
    have same := List.inj_on_of_nodup_map s.db.names there' there (name'.trans name.symm)
    exact List.find?_isSome.mpr ⟨_, same ▸ has, decide_eq_true rfl⟩
  · intro some
    obtain ⟨row, has, same⟩ := List.find?_isSome.mp some
    exact ⟨role, there, name, of_decide_eq_true same ▸ has⟩

theorem assignBlock_ends : PostRecord (semantics false) (RolesService.assignBlock userId roleName) s
    fun steps r _ => Ends (Quiet .assign userId roleName s) steps r := by
  refine ends_step (fun choice => rfl) ?_
  cases foundUser : s.db.users.rows.find? (·.id = userId) with
  | none =>
    exact ends_done (.absent _ fun present => find?_missing foundUser present.1)
  | some user =>
    obtain ⟨user_there, user_id⟩ := Table.of_find foundUser
    refine ends_step (fun choice => rfl) ?_
    cases foundRole : s.db.roles.rows.find? (·.name = roleName) with
    | none =>
      exact ends_done (.absent _ fun present => find?_missing foundRole present.2)
    | some role =>
      obtain ⟨role_there, role_name⟩ := Table.of_find foundRole
      have present : Present userId roleName s :=
        ⟨⟨user, user_there, user_id⟩, ⟨role, role_there, role_name⟩⟩
      refine ends_step (fun choice => rfl) ?_
      split
      · rename_i held
        exact ends_done (.refused _ present ((hasRole_iff role_there role_name).mpr held))
      · rename_i unheld
        have without : ¬ HasRole userId roleName s := fun has =>
          unheld ((hasRole_iff role_there role_name).mp has)
        have absent : (⟨userId, role.id⟩ : UserRole) ∉ s.db.userRoles := fun held =>
          without ⟨role, role_there, role_name, held⟩
        obtain ⟨db, assigned, _⟩ :=
          assign_assigned absent ⟨user, user_there, user_id⟩ ⟨role, role_there, rfl⟩
        have transacts : ∀ choice,
            execTotal (.assignTransaction userId role.id (user.permVersion + 1)) choice s =
              some (.ok (), s.setDb (db.setPermVersion userId (user.permVersion + 1))) := by
          intro choice
          simp only [execTotal, assigned]
        refine ends_step transacts ?_
        exact ends_bind (updatePermVersion_ends _) fun t => ends_done (.changed present without)

theorem unassignBlock_ends :
    PostRecord (semantics false) (RolesService.unassignBlock userId roleName) s
      fun steps r _ => Ends (Quiet .unassign userId roleName s) steps r := by
  refine ends_step (fun choice => rfl) ?_
  cases foundRole : s.db.roles.rows.find? (·.name = roleName) with
  | none =>
    exact ends_done (.absent _ fun present => find?_missing foundRole present.2)
  | some role =>
    obtain ⟨role_there, role_name⟩ := Table.of_find foundRole
    refine ends_step (fun choice => rfl) ?_
    cases foundUser : s.db.users.rows.find? (·.id = userId) with
    | none =>
      exact ends_done (.absent _ fun present => find?_missing foundUser present.1)
    | some user =>
      obtain ⟨user_there, user_id⟩ := Table.of_find foundUser
      have present : Present userId roleName s :=
        ⟨⟨user, user_there, user_id⟩, ⟨role, role_there, role_name⟩⟩
      refine ends_step (fun choice => rfl) ?_
      split
      · rename_i unheld
        refine ends_done (.refused _ present fun has => ?_)
        have held := (hasRole_iff role_there role_name).mp has
        rw [Option.isNone_iff_eq_none.mp unheld] at held
        contradiction
      · rename_i held
        have has : HasRole userId roleName s := by
          refine (hasRole_iff role_there role_name).mpr ?_
          simpa only [Option.isNone_iff_eq_none, ← ne_eq, Option.ne_none_iff_isSome] using held
        have found : ∃ user ∈ s.db.users.rows, user.id = userId := ⟨user, user_there, user_id⟩
        refine ends_step (fun choice => if_pos found) ?_
        exact ends_bind (updatePermVersion_ends _) fun t =>
          ends_done (.changed present fun refuses => refuses has)

theorem block_ends (change : Change) :
    PostRecord (semantics false) (change.block userId roleName) s
      fun steps r _ => Ends (Quiet change userId roleName s) steps r := by
  cases change with
  | assign => exact assignBlock_ends
  | unassign => exact unassignBlock_ends

end Bodies

section Calls

variable {change : Change} {userId roleName : String} {s t : Store} {steps : List RoleStep}
  {r : Except Exn AssignedRole} {raised : Exn}

theorem not_spares_absence {message : String} : ¬ change.Spares (change.absence message) := by
  cases change with
  | assign => simp [Change.absence, Change.Spares]
  | unassign => simp [Change.absence, Change.Spares, ErrorCodes.NOT_FOUND, ErrorCodes.INTERNAL]

theorem spares_refusal (message : String) :
    change.Spares (change.refusal message) ↔ change = .assign := by
  cases change with
  | assign => simp [Change.refusal, Change.Spares, ErrorCodes.CONFLICT]
  | unassign => simp [Change.refusal, Change.Spares, ErrorCodes.NOT_FOUND, ErrorCodes.INTERNAL]

/-- The class of the error that an execution of the `try` block raises. -/
theorem classified_block (execution : Executes (semantics false)
    (change.block userId roleName) s steps (.error raised) t) :
    Classified change userId roleName s steps raised (change.failure raised) ↔
      change.Classifies userId roleName s steps := by
  have ends := postRecord_iff.mp (block_ends change) steps _ t execution
  unfold Ends at ends
  unfold Change.Classifies
  cases found : rejection? steps with
  | some e =>
    simp only [found, Except.error.injEq] at ends ⊢
    subst ends
    have rejected : rejection? steps ≠ none := by simp [found]
    constructor
    · exact fun classified => (keeps_failure _).mp classified.kept
    · exact fun spared => ⟨fun none => absurd none rejected, fun none => absurd none rejected,
        (keeps_failure _).mpr spared⟩
  | none =>
    simp only [found] at ends ⊢
    cases ends with
    | absent message missing =>
      constructor
      · exact fun classified => absurd ((keeps_failure _).mp classified.kept) not_spares_absence
      · exact fun there => absurd there.1 missing
    | refused message there refuses =>
      constructor
      · intro classified
        have assigns := (spares_refusal _).mp ((keeps_failure _).mp classified.kept)
        exact ⟨there, fun unassigns => absurd (assigns.symm.trans unassigns) nofun⟩
      · rintro ⟨_, holds⟩
        have assigns : change = .assign := by
          cases change with
          | assign => rfl
          | unassign => exact absurd (holds rfl) refuses
        subst assigns
        have kept := (keeps_failure _).mpr ((spares_refusal message).mpr rfl)
        refine ⟨fun _ missing => absurd there missing, fun _ _ _ => ⟨kept.status _ rfl, ?_⟩, kept⟩
        exact congrArg some (kept.code _ rfl).symm

/-- An execution that returns has met no failure. -/
theorem classifies_of_ok {assigned : AssignedRole} (execution : Executes (semantics false)
    (change.block userId roleName) s steps (.ok assigned) t) :
    change.Classifies userId roleName s steps := by
  have ends := postRecord_iff.mp (block_ends change) steps _ t execution
  unfold Ends at ends
  unfold Change.Classifies
  cases found : rejection? steps with
  | some e =>
    simp only [found] at ends
    contradiction
  | none =>
    simp only [found] at ends ⊢
    cases ends with
    | changed there allowed =>
      refine ⟨there, fun unassigns => ?_⟩
      subst unassigns
      exact Classical.not_not.mp allowed

/-- The errors of `assignRole` and `unassignRole` keep their class exactly when the error of a
rejected command is one that the `catch` clause keeps, or no command is rejected and what the call
is about exists. -/
theorem classified_iff (execution : Executes (semantics false)
    (change.call userId roleName) s steps r t) :
    (∀ raised, Executes (semantics false) (change.block userId roleName) s steps (.error raised) t →
      ∃ e, r = .error (.service e) ∧ Classified change userId roleName s steps raised e) ↔
    change.Classifies userId roleName s steps := by
  rw [call_eq] at execution
  obtain ⟨r', body, rfl⟩ := executes_mapError execution
  cases r' with
  | ok assigned =>
    constructor
    · exact fun _ => classifies_of_ok body
    · intro _ raised body'
      exact absurd (body.unique body').1 nofun
  | error raised =>
    rw [← classified_block body]
    constructor
    · intro holds
      obtain ⟨e, same, classified⟩ := holds raised body
      cases same
      exact classified
    · intro classified raised' body'
      cases (body.unique body').1
      exact ⟨_, rfl, classified⟩

/-- Some execution of the call loses the class of its error. -/
def Misclassifies (change : Change) (userId roleName : String) (s : Store) : Prop :=
  ∃ steps r t, Executes (semantics false) (change.call userId roleName) s steps r t ∧
    ¬ ∀ raised,
      Executes (semantics false) (change.block userId roleName) s steps (.error raised) t →
        ∃ e, r = .error (.service e) ∧ Classified change userId roleName s steps raised e

/-- An execution that throws although nothing is rejected, because something is missing. -/
theorem Misclassifies.of_missing (choices : List Choice)
    (recorded : ((change.call userId roleName).record (semantics false) s choices).any
      (fun (steps, r, _) => !r.isOk && (rejection? steps).isNone) = true)
    (missing : ¬ Present userId roleName s) : Misclassifies change userId roleName s := by
  obtain ⟨steps, r, t, execution, tested⟩ := executes_of_record recorded
  simp only [Bool.and_eq_true, Bool.not_eq_true', Option.isNone_iff_eq_none] at tested
  refine ⟨steps, r, t, execution, fun holds => ?_⟩
  rw [call_eq] at execution
  obtain ⟨r', body, rfl⟩ := executes_mapError execution
  cases r' with
  | ok assigned => cases tested.1
  | error raised =>
    obtain ⟨e, same, classified⟩ := holds raised body
    cases same
    have there := (classified_block body).mp classified
    simp only [Change.Classifies, tested.2] at there
    exact missing there.1

end Calls

section Sample

/-- A user that does not exist: `assignRole` answers 500, `unassignRole` the code `INTERNAL`. -/
theorem missing_user_misclassified :
    Misclassifies .assign ghostId "editor" staffedStore ∧
      Misclassifies .unassign ghostId "editor" staffedStore := by
  have missing : ¬ Present ghostId "editor" staffedStore := fun there =>
    absurd there.1 (by decide)
  exact ⟨.of_missing (answered 1) (by decide +kernel) missing,
    .of_missing (answered 2) (by decide +kernel) missing⟩

/-- The user has the role already: the error of `assignRole` keeps its status and code. -/
theorem held_role_classified : ∃ steps r t,
    Executes (semantics false) (Change.assign.call aliceId "refunder") { db := refunder }
      steps r t ∧
      r.isOk = false ∧ ∀ raised,
      Executes (semantics false) (Change.assign.block aliceId "refunder") { db := refunder } steps
        (.error raised) t → ∃ e, r = .error (.service e) ∧
          Classified .assign aliceId "refunder" { db := refunder } steps raised e := by
  have recorded : ((Change.assign.call aliceId "refunder").record (semantics false)
      { db := refunder } (answered 3)).any
        (fun (steps, r, _) => !r.isOk && (rejection? steps).isNone) = true := by decide +kernel
  obtain ⟨steps, r, t, execution, tested⟩ := executes_of_record recorded
  simp only [Bool.and_eq_true, Bool.not_eq_true', Option.isNone_iff_eq_none] at tested
  refine ⟨steps, r, t, execution, tested.1, (classified_iff execution).mpr ?_⟩
  simp only [Change.Classifies, tested.2]
  exact ⟨⟨by decide, by decide⟩, by rintro ⟨⟩⟩

end Sample
end CorePlatform.Roles
