import CorePlatform.Async.Journal
import CorePlatform.Roles.Record
import CorePlatform.Roles.Versions

/-! Assigning a role and taking it away: the database changes in one transaction, the cached
list of the user in two commands after it. -/
namespace CorePlatform.Roles
open Async Relational

abbrev RoleJournal := Journal Api Exn Store

/-- The command has answered with a cached list of the user that is used. -/
def Serves (userId : String) (hash : PermissionHash) (e : Ev) : Prop :=
  e = ⟨.redisHgetall (PermissionCache.cacheKey userId), .ok (some hash)⟩ ∧ hash.permissions ≠ []

def Caches (userId : String) (hash : PermissionHash) (e : Ev) : Prop :=
  e = ⟨.redisHset (PermissionCache.cacheKey userId) hash, .ok ()⟩

/-- Whatever runs after a state, a cached list of the user that is served has been cached since. -/
def NoneServed (userId : String) (s : Store) : Prop :=
  ∀ journal pool, rolesSystem.Recorded System.Free (· = s) journal pool →
    ∀ later entry earlier, journal = later ++ entry :: earlier →
    ∀ hash, Serves userId hash entry.event → ∃ written ∈ earlier, Caches userId hash written.event

/-- The cached list of the user is empty or missing. -/
def EntryEmpty (userId : String) (s : Store) : Prop :=
  ∀ hash, s.hgetall (PermissionCache.cacheKey userId) = some hash → hash.permissions = []

section Runs

variable {userId : String} {s s' : Store} {journal : RoleJournal}
  {pool : RolePool} {choice : Choice}

/-- A command leaves the user's entry alone or writes it. -/
theorem entry_effect {c : Cmd} {r : Except Exn c.Resp} {key : String}
    (executed : exec false c choice s = some (r, s')) :
    s'.hgetall key = s.hgetall key ∨ ∃ hash, (⟨c, r⟩ : Ev) = ⟨.redisHset key hash, .ok ()⟩ ∧
    s'.hgetall key = some hash := by
  cases quiet : c.usesRedis with
  | false =>
    have kept := redis_kept quiet ⟨choice, executed⟩
    exact .inl (by rw [Store.hgetall, Store.hgetall, kept])
  | true =>
    rcases exec_cases executed with ⟨_, done⟩ | ⟨rfl, _⟩
    · cases c with
      | redisHset written hash =>
        obtain ⟨rfl, rfl⟩ := Prod.mk.inj (Option.some.inj done)
        by_cases same : key = written
        · subst same
          exact .inr ⟨hash, rfl, by rw [Store.hgetall_hset, if_pos rfl]⟩
        · exact .inl (by rw [Store.hgetall_hset, if_neg same])
      | redisHgetall | redisExists =>
        obtain ⟨_, rfl⟩ := Prod.mk.inj (Option.some.inj done)
        exact .inl rfl
      | _ => contradiction
    · exact .inl rfl

/-- The user's list is empty, or has been cached in the run. -/
def CachedSince (userId : String) (journal : RoleJournal) (s : Store) : Prop :=
  ∀ hash, s.hgetall (PermissionCache.cacheKey userId) = some hash → hash.permissions ≠ [] →
    ∃ written ∈ journal, Caches userId hash written.event

theorem cachedSince_recorded (emptied : EntryEmpty userId s)
    (recorded : rolesSystem.Recorded System.Free (· = s) journal pool) :
    CachedSince userId journal pool.store := by
  induction recorded with
  | start _ initial =>
    intro hash found used
    exact absurd (emptied hash (initial ▸ found)) used
  | step _ happens _ ih =>
    intro hash found used
    cases happens with
    | spawn q => exact ih hash found used
    | run t choice th c k r s' _ _ executed =>
      rcases entry_effect executed with kept | ⟨hash', wrote, now⟩
      · obtain ⟨written, member, cached⟩ := ih hash (kept.symm.trans found) used
        exact ⟨written, List.mem_cons_of_mem _ member, cached⟩
      · cases Option.some.inj (now.symm.trans found)
        exact ⟨_, List.mem_cons_self, wrote⟩
    | act a => cases a

theorem EntryEmpty.noneServed (emptied : EntryEmpty userId s) : NoneServed userId s := by
  intro journal pool recorded
  induction recorded with
  | start _ _ =>
    intro later entry earlier split
    cases later <;> contradiction
  | step before happens _ ih =>
    intro later entry earlier split hash serves
    cases happens with
    | spawn q => exact ih later entry earlier split hash serves
    | run t choice th c k r s' _ _ executed =>
      cases later with
      | nil =>
        obtain ⟨rfl, rfl⟩ := List.cons.inj split
        obtain ⟨read, used⟩ := serves
        cases read
        obtain ⟨_, found⟩ := exec_hgetall executed
        exact cachedSince_recorded emptied before hash found.symm used
      | cons last later => exact ih later entry earlier (List.cons.inj split).2 hash serves
    | act a => cases a

end Runs

inductive Change where
  | assign
  | unassign

namespace Change

def call : Change → String → String → Action AssignedRole
  | .assign => RolesService.assignRole
  | .unassign => RolesService.unassignRole

/-- The roles after the change, which the user does not hold yet, or holds. -/
def Moves : Change → UserRole → Db → Db → Prop
  | .assign, ur, before, after =>
      ur ∉ before.userRoles ∧ ∀ other, other ∈ after.userRoles ↔ other = ur ∨
      other ∈ before.userRoles
  | .unassign, ur, before, after => ur ∈ before.userRoles ∧ ∀ other, other ∈ after.userRoles ↔
      other ∈ before.userRoles ∧ other ≠ ur

end Change

/-- The commands on the cache: the transaction is the fourth command of either call. -/
def afterTransaction (steps : List RoleStep) : List RoleStep := steps.drop 4

/-- The roles of the users, their versions and the cached list of the user are as before. -/
structure Untouched (userId : String) (before after : Store) : Prop where
  roles : ∀ ur, ur ∈ after.db.userRoles ↔ ur ∈ before.db.userRoles
  versions : ∀ id v, VersionIs id v after ↔ VersionIs id v before
  cached : after.hgetall (PermissionCache.cacheKey userId) = before.hgetall
    (PermissionCache.cacheKey userId)

/-- The role is given or taken, the version is the next one. -/
structure Moved (change : Change) (userId roleName : String) (before after : Store) : Prop where
  role : ∃ role ∈ before.db.roles, role.name = roleName ∧
    change.Moves ⟨userId, role.id⟩ before.db after.db
  version : ∃ v, VersionIs userId v before ∧ VersionIs userId (v + 1) after

/-- A call that throws has changed nothing; after one that returns no list cached before is
served. -/
def ChangedWhole (change : Change) (userId roleName : String) (before after : Store) :
    Except Exn AssignedRole → Prop
  | .error _ => Untouched userId before after
  | .ok _ => Moved change userId roleName before after ∧ NoneServed userId after

/-- How a call ends: refused by its transaction or before it, complete, or in between. -/
inductive Changing (change : Change) (userId roleName : String) (before : Store) :
    List RoleStep → Except Exn AssignedRole → Store → Prop where
  | refused (few : afterTransaction steps = []) : Changing change userId roleName before steps
      (.error e) before
  | complete (moved : Moved change userId roleName before after) (empty : EntryEmpty userId after)
      (quiet : Unrejected (afterTransaction steps)) : Changing change userId roleName before steps
        (.ok assigned) after
  | committed (moved : Moved change userId roleName before after)
      (later : ¬ Unrejected (afterTransaction steps)) :
      Changing change userId roleName before steps (.error e) after

section Calls

variable {change : Change} {userId roleName : String} {s t : Store} {v : Int}
  {steps : List RoleStep}
  {r : Except Exn AssignedRole}

theorem Untouched.refl : Untouched userId s s := ⟨fun _ => Iff.rfl, fun _ _ => Iff.rfl, rfl⟩

theorem Moved.touched (moved : Moved change userId roleName s t) : ¬ Untouched userId s t := by
  intro same
  obtain ⟨v, was, is⟩ := moved.version
  have grown := was.unique ((same.versions userId (v + 1)).mp is)
  omega

/-- The cached list is emptied, unless one of the two commands is rejected. -/
theorem updatePermVersion_record (userId : String) (v : Int) (s : Store) :
    PostRecord (semantics false) (PermissionCache.updatePermVersion userId v) s fun steps r t =>
      t.db = s.db ∧
      (r = .ok () ∧ Unrejected steps ∧ EntryEmpty userId t ∨ (∃ e, r = .error e) ∧
        ¬ Unrejected steps) := by
  refine record_query (fun choice => rfl) (fun step e refused => ?_) fun step quiet => ?_
  · exact ⟨rfl, .inr ⟨⟨e, rfl⟩, not_unrejected refused⟩⟩
  · cases found : s.hgetall (PermissionCache.cacheKey userId) with
    | none =>
      refine ⟨rfl, .inl ⟨rfl, unrejected_cons.mpr ⟨quiet, unrejected_nil⟩, fun hash there => ?_⟩⟩
      rw [found] at there
      contradiction
    | some hash =>
      intro choice r t executed
      rcases exec_split executed with ⟨answered, done⟩ | ⟨fault, rfl, e, rfl⟩
      · obtain ⟨rfl, rfl⟩ := Prod.mk.inj (Option.some.inj done)
        refine ⟨rfl, .inl ⟨rfl, unrejected_cons.mpr ⟨quiet, unrejected_of_none answered⟩,
          fun hash' there => ?_⟩⟩
        rw [Store.hgetall_hset, if_pos rfl] at there
        cases Option.some.inj there
        rfl
      · exact ⟨rfl, .inr ⟨⟨e, rfl⟩, fun all => absurd (unrejected_cons.mp all).2
          (not_unrejected fault)⟩⟩

/-- What follows the committed transaction. -/
theorem committed_record (opened : List RoleStep) (four : opened.length = 4)
    (moved : ∀ u : Store, u.db = t.db → Moved change userId roleName s u) :
    PostRecord (semantics false) (do
      PermissionCache.updatePermVersion userId v
      return ({ userId, roleName } : AssignedRole)) t
      fun steps r u => Changing change userId roleName s (opened ++ steps) r u := by
  have rest : ∀ steps, afterTransaction (opened ++ steps) = steps := fun steps => by
    rw [afterTransaction, ← four, List.drop_left]
  refine postRecord_bind.mpr ((updatePermVersion_record userId v t).mono fun steps r u => ?_)
  rintro ⟨kept, ⟨rfl, quiet, empty⟩ | ⟨⟨e, rfl⟩, some⟩⟩
  · refine .complete (moved u kept) empty ?_
    rwa [List.append_nil, rest]
  · exact .committed (moved u kept) (by rwa [rest])

/-- A transaction that assigns a role the user does not hold. -/
theorem assign_assigned {db : Db} {ur : UserRole} (absent : ur ∉ db.userRoles)
    (user : ∃ user ∈ db.users.rows, user.id = ur.userId)
    (role : ∃ role ∈ db.roles.rows, role.id = ur.roleId) : ∃ db', db.assign ur = (.ok (), db') ∧
    db'.users = db.users ∧ ∀ other, other ∈ db'.userRoles ↔ other = ur ∨ other ∈ db.userRoles := by
  have fresh : ∀ other ∈ db.userRoles, other.key ≠ ur.key := by
    rintro ⟨userId, roleId⟩ found same
    obtain ⟨userId', roleId'⟩ := ur
    obtain ⟨rfl, rfl⟩ := Prod.mk.inj same
    exact absent found
  have inserted := Table.insert?_of_fresh fresh
  unfold Db.assign
  split
  · rename_i none
    rw [none] at inserted
    contradiction
  · rename_i userRoles some
    rw [dif_pos ⟨user, role⟩]
    exact ⟨_, rfl, rfl, fun other => Table.mem_insert? some⟩

/-- A user found has a version, which the transaction changes. -/
theorem version_written (db : Db) {user : Auth.User} {w : Int} {u : Store}
    (found : user ∈ s.db.users) (users : db.users = s.db.users)
    (written : u.db = db.setPermVersion user.id w) : VersionIs user.id w u := by
  refine ⟨{ user with permVersion := w }, ?_, rfl, rfl⟩
  rw [written]
  refine (Table.mem_update (f := fun row : Auth.User => { row with permVersion := w }) fun _ =>
    rfl).mpr ⟨user, users ▸ found, ?_⟩
  rw [if_pos (decide_eq_true rfl)]

/-- The handler of a call changes the error it throws, and nothing else. -/
theorem Changing.rethrown {p : Action AssignedRole} {other : Exn → Exn}
    (body : PostRecord (semantics false) p s fun steps r t =>
      Changing change userId roleName s steps r t) :
    PostRecord (semantics false) (tryCatch p fun e => throw (other e)) s
      fun steps r t => Changing change userId roleName s steps r t := by
  refine postRecord_mapError (body.mono fun steps r t changing => ?_)
  cases r with
  | ok assigned => exact changing
  | error e =>
    cases changing with
    | refused few => exact .refused few
    | committed moved later => exact .committed moved later

theorem assign_record (userId roleName : String) (s : Store) :
    PostRecord (semantics false) (RolesService.assignRole userId roleName) s
      fun steps r t => Changing .assign userId roleName s steps r t := by
  refine Changing.rethrown
    (record_query (fun choice => rfl) (fun step e _ => .refused rfl) fun step quiet => ?_)
  cases foundUser : s.db.users.rows.find? (·.id = userId) with
  | none => exact .refused rfl
  | some user =>
    obtain ⟨user_there, user_id⟩ := Table.of_find foundUser
    refine record_query (fun choice => rfl) (fun step e _ => .refused rfl) fun step' quiet' => ?_
    cases foundRole : s.db.roles.rows.find? (·.name = roleName) with
    | none => exact .refused rfl
    | some role =>
      obtain ⟨role_there, role_name⟩ := Table.of_find foundRole
      refine record_query (fun choice => rfl)
        (fun step e _ => .refused rfl) fun step'' quiet'' => ?_
      split
      · exact .refused rfl
      · rename_i unheld
        have absent : (⟨userId, role.id⟩ : UserRole) ∉ s.db.userRoles := fun held =>
          unheld (List.find?_isSome.mpr ⟨_, held, decide_eq_true rfl⟩)
        obtain ⟨db, assigned, users, roles⟩ :=
          assign_assigned absent ⟨user, user_there, user_id⟩ ⟨role, role_there, rfl⟩
        refine record_command (fun step e _ => .refused rfl) fun choice r t answered executed => ?_
        simp only [execTotal, assigned] at executed
        obtain ⟨rfl, rfl⟩ := Prod.mk.inj (Option.some.inj executed)
        refine committed_record [_, _, _, _] rfl fun u kept =>
          ⟨⟨role, role_there, role_name, absent, ?_⟩, user.permVersion, ?_, ?_⟩
        · rw [kept]
          exact roles
        · exact ⟨user, user_there, user_id, rfl⟩
        · subst user_id
          exact version_written db user_there users kept

theorem unassign_record (userId roleName : String) (s : Store) :
    PostRecord (semantics false) (RolesService.unassignRole userId roleName) s
      fun steps r t => Changing .unassign userId roleName s steps r t := by
  refine Changing.rethrown
    (record_query (fun choice => rfl) (fun step e _ => .refused rfl) fun step quiet => ?_)
  cases foundRole : s.db.roles.rows.find? (·.name = roleName) with
  | none => exact .refused rfl
  | some role =>
    obtain ⟨role_there, role_name⟩ := Table.of_find foundRole
    refine record_query (fun choice => rfl) (fun step e _ => .refused rfl) fun step' quiet' => ?_
    cases foundUser : s.db.users.rows.find? (·.id = userId) with
    | none => exact .refused rfl
    | some user =>
      obtain ⟨user_there, user_id⟩ := Table.of_find foundUser
      refine record_query (fun choice => rfl)
        (fun step e _ => .refused rfl) fun step'' quiet'' => ?_
      split
      · exact .refused rfl
      · rename_i held
        have there : (⟨userId, role.id⟩ : UserRole) ∈ s.db.userRoles := by
          cases found : s.db.userRoles.rows.find? (· = ⟨userId, role.id⟩) with
          | none => exact absurd (by rw [found]; rfl) held
          | some ur =>
            obtain ⟨inTable, rfl⟩ := Table.of_find found
            exact inTable
        refine record_command (fun step e _ => .refused rfl) fun choice r t answered executed => ?_
        simp only [execTotal, show ∃ user ∈ s.db.users.rows,
          user.id = userId from ⟨user, user_there, user_id⟩, if_true] at executed
        obtain ⟨rfl, rfl⟩ := Prod.mk.inj (Option.some.inj executed)
        refine committed_record [_, _, _, _] rfl fun u kept =>
          ⟨⟨role, role_there, role_name, there, fun other => ?_⟩, user.permVersion, ?_, ?_⟩
        · rw [kept]
          refine Table.mem_delete.trans ?_
          rw [decide_eq_false_iff_not]
        · exact ⟨user, user_there, user_id, rfl⟩
        · subst user_id
          exact version_written (s.db.unassign ⟨user.id, role.id⟩) user_there rfl kept

/-- Changing a role of a user is atomic exactly when no command on the cache is rejected after the
transaction. -/
theorem change_whole_iff (execution : Executes (semantics false)
    (change.call userId roleName) s steps r t) :
    ChangedWhole change userId roleName s t r ↔ Unrejected (afterTransaction steps) := by
  have changing : Changing change userId roleName s steps r t := by
    cases change with
    | assign => exact postRecord_iff.mp (assign_record userId roleName s) steps r t execution
    | unassign => exact postRecord_iff.mp (unassign_record userId roleName s) steps r t execution
  clear execution
  cases changing with
  | refused few =>
    constructor
    · exact fun _ => few ▸ unrejected_nil
    · exact fun _ => .refl
  | complete moved empty quiet =>
    constructor
    · exact fun _ => quiet
    · exact fun _ => ⟨moved, empty.noneServed⟩
  | committed moved later =>
    constructor
    · exact fun same => absurd same moved.touched
    · exact fun quiet => absurd quiet later

end Calls
section Sample

/-- The user's list is cached. -/
def staffedStore : Store where
  db := staffed
  redis :=
    [(PermissionCache.cacheKey aliceId, { permVersion := "1", permissions := ["order:refund"] })]

/-- Redis rejects a command after the transaction: the call throws, and the user has the role. -/
theorem change_throws_committed : ∃ steps r t,
    Executes (semantics false) (Change.assign.call aliceId "editor") staffedStore steps r t ∧
    ¬ ChangedWhole .assign aliceId "editor" staffedStore t r := by
  have recorded : ((Change.assign.call aliceId "editor").record (semantics false) staffedStore
      [{}, {}, {}, {}, { fault := some (.error (some "ECONNREFUSED") "connect ECONNREFUSED") }]).any
        (fun (_, r, t) =>
        !r.isOk && decide (VersionIs aliceId 2 t)) = true := by decide +kernel
  obtain ⟨steps, r, t, execution, tested⟩ := executes_of_record recorded
  simp only [Bool.and_eq_true, Bool.not_eq_eq_eq_not, Bool.not_true, decide_eq_true_eq] at tested
  obtain ⟨threw, next⟩ := tested
  refine ⟨steps, r, t, execution, ?_⟩
  cases r with
  | ok assigned => contradiction
  | error e =>
    intro same
    have before : VersionIs aliceId 2 staffedStore := (same.versions aliceId 2).mp next
    exact absurd before (by decide)

/-- With Redis answering, the role is assigned and the cached list emptied. -/
theorem change_whole_sample : ∃ steps r t,
    Executes (semantics false) (Change.assign.call aliceId "editor") staffedStore steps r t ∧
    r.isOk = true ∧
    ChangedWhole .assign aliceId "editor" staffedStore t r := by
  have recorded : ((Change.assign.call aliceId "editor").record
      (semantics false) staffedStore (answered 6)).any
      (fun (steps, r, _) => r.isOk && (afterTransaction steps).all (!rejected ·)) = true := by
        decide +kernel
  obtain ⟨steps, r, t, execution, tested⟩ := executes_of_record recorded
  simp only [Bool.and_eq_true, List.all_eq_true, Bool.not_eq_eq_eq_not, Bool.not_true] at tested
  obtain ⟨returned, quiet⟩ := tested
  exact ⟨steps, r, t, execution, returned, (change_whole_iff execution).mpr quiet⟩

end Sample
end CorePlatform.Roles
