import CorePlatform.Common.Formats
import CorePlatform.Roles.System

/-! Coherence of the permission cache with the role tables. Assigning and unassigning a
role empty the cached list of the user. Editing or deleting a role leaves the cached lists
of the users who hold it as they are, so that coherence rests on what such a call does to
them. -/
namespace CorePlatform.Roles
open Async Relational

/-- What the cache holds of a user, unless it is the empty list, which counts as absent, is
what the user's roles grant. -/
def CoherentAt (s : Store) (userId : String) : Prop :=
  ∀ cached, s.hgetall (PermissionCache.cacheKey userId) = some cached → cached.permissions ≠ [] →
    ∀ code, code ∈ cached.permissions ↔ s.db.Grants userId code

def Coherent (s : Store) : Prop := ∀ userId, CoherentAt s userId

/-- The users for whom the two databases grant the same codes. -/
def SameGrants (db db' : Db) (userId : String) : Prop :=
  ∀ code, db'.Grants userId code ↔ db.Grants userId code

variable {s t : Store} {redisUp : Bool} {userId : String}

theorem SameGrants.refl (db : Db) : SameGrants db db userId := fun _ => Iff.rfl

theorem SameGrants.trans {db db' db'' : Db} (first : SameGrants db db' userId)
    (second : SameGrants db' db'' userId) : SameGrants db db'' userId :=
  fun code => (second code).trans (first code)

/-- A user whose grants and cached list stay as they are stays coherent. -/
theorem CoherentAt.frame (coherent : CoherentAt s userId)
    (cache : t.hgetall (PermissionCache.cacheKey userId) =
      s.hgetall (PermissionCache.cacheKey userId))
    (grants : SameGrants s.db t.db userId) : CoherentAt t userId := by
  intro cached found present code
  rw [cache] at found
  exact (coherent cached found present code).trans (grants code).symm

theorem CoherentAt.setDb {db : Db} (coherent : CoherentAt s userId)
    (grants : SameGrants s.db db userId) :
    CoherentAt (s.setDb db) userId := coherent.frame rfl grants

theorem Coherent.frame (coherent : Coherent s) (cache : t.redis = s.redis)
    (grants : ∀ userId, SameGrants s.db t.db userId) : Coherent t := by
  intro userId
  apply (coherent userId).frame
  · rw [Store.hgetall, Store.hgetall, cache]
  · exact grants userId

section Database

variable {db db' : Db}

theorem mem_collect {code : String} : code ∈ collect (db.codesByRole userId) ↔
    db.Grants userId code := by
  rw [collect, List.mem_eraseDups, Db.mem_codesByRole]

theorem sameGrants_setPermVersion {user : String} {permVersion : Int} :
    SameGrants db (db.setPermVersion user permVersion) userId := fun _ => Iff.rfl

/-- A new role is held by nobody. -/
theorem createRole_effect {role : Role} {r : Except Exn Role}
    (created : db.createRole role = some (r, db')) :
    db'.rolePermissions = db.rolePermissions ∧ db'.userRoles = db.userRoles ∧
      db'.permissions = db.permissions ∧ (∀ ur ∈ db.userRoles, ur.roleId ≠ role.id) ∧
      ∀ made, r = .ok made → made = role := by
  unfold Db.createRole at created
  split at created
  · contradiction
  · rename_i roles inserted
    have unheld : ∀ ur ∈ db.userRoles, ur.roleId ≠ role.id := by
      intro ur found same
      obtain ⟨old, inTable, held⟩ := db.held ur found
      exact Table.insert?_fresh inserted inTable (held.trans same)
    split at created
    · obtain ⟨rfl, rfl⟩ := Prod.mk.inj (Option.some.inj created)
      refine ⟨rfl, rfl, rfl, unheld, ?_⟩
      rintro made ⟨⟩
      rfl
    · obtain ⟨rfl, rfl⟩ := Prod.mk.inj (Option.some.inj created)
      exact ⟨rfl, rfl, rfl, unheld, fun made impossible => nomatch impossible⟩

theorem sameGrants_of_tables (rolePermissions : db'.rolePermissions = db.rolePermissions)
    (userRoles : db'.userRoles = db.userRoles) (permissions : db'.permissions = db.permissions) :
    SameGrants db db' userId := by
  intro code
  rw [Db.Grants, Db.Grants, rolePermissions, userRoles, permissions]

theorem grant_userRoles {rp : RolePermission} : (db.grant rp).2.userRoles = db.userRoles := by
  unfold Db.grant
  split
  · rfl
  · split <;> rfl

/-- A permission of a role that nobody holds. -/
theorem sameGrants_grant {rp : RolePermission}
    (unheld : ∀ ur ∈ db.userRoles, ur.roleId ≠ rp.roleId) :
    SameGrants db (db.grant rp).2 userId := by
  unfold Db.grant
  split
  · exact .refl db
  · rename_i rolePermissions inserted
    split
    · intro code
      constructor
      · rintro ⟨ur, held, owner, rp', inTable, ofRole, rest⟩
        rcases (Table.mem_insert? inserted).mp inTable with rfl | old
        · exact absurd ofRole.symm (unheld ur held)
        · exact ⟨ur, held, owner, rp', old, ofRole, rest⟩
      · rintro ⟨ur, held, owner, rp', inTable, rest⟩
        exact ⟨ur, held, owner, rp', (Table.mem_insert? inserted).mpr (.inr inTable), rest⟩
    · exact .refl db

theorem sameGrants_assign {ur : UserRole} (other : ur.userId ≠ userId) :
    SameGrants db (db.assign ur).2 userId := by
  unfold Db.assign
  split
  · exact .refl db
  · rename_i userRoles inserted
    split
    · intro code
      constructor
      · rintro ⟨ur', held, rfl, rest⟩
        rcases (Table.mem_insert? inserted).mp held with rfl | old
        · exact absurd rfl other
        · exact ⟨ur', old, rfl, rest⟩
      · rintro ⟨ur', held, rest⟩
        exact ⟨ur', (Table.mem_insert? inserted).mpr (.inr held), rest⟩
    · exact .refl db

theorem sameGrants_unassign {ur : UserRole} (other : ur.userId ≠ userId) :
    SameGrants db (db.unassign ur) userId := by
  intro code
  constructor
  · rintro ⟨ur', held, rest⟩
    exact ⟨ur', (Table.mem_delete.mp held).1, rest⟩
  · rintro ⟨ur', held, rfl, rest⟩
    refine ⟨ur', Table.mem_delete.mpr ⟨held, ?_⟩, rfl, rest⟩
    rw [decide_eq_false_iff_not]
    rintro rfl
    exact other rfl

end Database

section Calls

/-- The version update empties the cached list of the user, when there is one. -/
theorem updatePermVersion_spec {permVersion : Int}
    (others : ∀ other, other ≠ userId → CoherentAt s other) :
    Post (semantics true) (PermissionCache.updatePermVersion userId permVersion) s fun _ t =>
      Coherent t := by
  refine post_bind.mpr ((post_definite fun _ => rfl).mpr ⟨nofun, ?_⟩)
  by_cases known : (s.hgetall (PermissionCache.cacheKey userId)).isSome
  · simp only [known, if_true]
    refine (post_definite fun _ => rfl).mpr ⟨nofun, fun other => ?_⟩
    by_cases same : other = userId
    · subst same
      intro cached found present
      rw [Store.hgetall_hset, if_pos rfl] at found
      cases Option.some.inj found
      contradiction
    · apply (others other same).frame
      · rw [Store.hgetall_hset, if_neg fun key => same (cacheKey_inj key)]
      · exact .refl _
  · simp only [known]
    intro other
    by_cases same : other = userId
    · subst same
      intro cached found
      rw [found] at known
      contradiction
    · exact others other same

/-- A handler that rethrows keeps what its body keeps. -/
theorem post_rethrow {α : Type} {p : Action α} {other : Exn → Exn} {P : Store → Prop}
    (body : Post (semantics redisUp) p s fun _ t => P t) :
    Post (semantics redisUp) (tryCatch p fun error => throw (other error)) s fun _ t => P t := by
  refine post_catch.mpr (body.mono fun r t kept => ?_)
  cases r <;> exact kept

/-- A transaction that changes the grants of the user only, and the version update after it. -/
theorem changed_coherent {db : Db} {version : Int} {assigned : AssignedRole} (coherent : Coherent s)
    (others : ∀ other, other ≠ userId → SameGrants s.db db other) :
    Post (semantics true) (do
      PermissionCache.updatePermVersion userId version
      return assigned) (s.setDb (db.setPermVersion userId version)) fun _ t => Coherent t := by
  have kept : ∀ other, other ≠ userId →
      CoherentAt (s.setDb (db.setPermVersion userId version)) other :=
    fun other different => (coherent other).setDb
      ((others other different).trans sameGrants_setPermVersion)
  refine post_bind.mpr ((updatePermVersion_spec kept).mono fun r t kept => ?_)
  cases r <;> exact kept

theorem assignRole_coherent {roleName : String} (coherent : Coherent s) :
    Post (semantics true) (RolesService.assignRole userId roleName) s fun _ t => Coherent t := by
  apply post_rethrow
  apply post_query (fun _ => rfl) fun _ => coherent
  cases s.db.users.rows.find? (·.id = userId) with
  | none => exact coherent
  | some user =>
    apply post_query (fun _ => rfl) fun _ => coherent
    cases s.db.roles.rows.find? (·.name = roleName) with
    | none => exact coherent
    | some role =>
      apply post_query (fun _ => rfl) fun _ => coherent
      by_cases holds : (s.db.userRoles.rows.find? (· = ⟨userId, role.id⟩)).isSome
      · simp only [holds, if_true]
        exact coherent
      · simp only [holds]
        apply post_step fun _ => coherent
        intro choice r t executed
        simp only [execTotal] at executed
        split at executed
        · obtain ⟨rfl, rfl⟩ := Prod.mk.inj (Option.some.inj executed)
          exact coherent
        · rename_i db assigned
          obtain ⟨rfl, rfl⟩ := Prod.mk.inj (Option.some.inj executed)
          apply changed_coherent coherent
          intro other different
          have kept : SameGrants s.db (s.db.assign ⟨userId, role.id⟩).2 other :=
            sameGrants_assign fun same => different same.symm
          rwa [assigned] at kept

theorem unassignRole_coherent {roleName : String} (coherent : Coherent s) :
    Post (semantics true) (RolesService.unassignRole userId roleName) s fun _ t => Coherent t := by
  apply post_rethrow
  apply post_query (fun _ => rfl) fun _ => coherent
  cases s.db.roles.rows.find? (·.name = roleName) with
  | none => exact coherent
  | some role =>
    apply post_query (fun _ => rfl) fun _ => coherent
    cases s.db.users.rows.find? (·.id = userId) with
    | none => exact coherent
    | some user =>
      apply post_query (fun _ => rfl) fun _ => coherent
      by_cases lacks : (s.db.userRoles.rows.find? (· = ⟨userId, role.id⟩)).isNone
      · simp only [lacks, if_true]
        exact coherent
      · simp only [lacks]
        apply post_step fun _ => coherent
        intro choice r t executed
        simp only [execTotal] at executed
        split at executed
        · obtain ⟨rfl, rfl⟩ := Prod.mk.inj (Option.some.inj executed)
          exact changed_coherent coherent fun other different => sameGrants_unassign fun same =>
            different same.symm
        · obtain ⟨rfl, rfl⟩ := Prod.mk.inj (Option.some.inj executed)
          exact coherent

/-- Granting permissions to a role that nobody holds. -/
theorem grantAll_coherent {roleId : String} (permissionIds : List String) (coherent : Coherent s)
    (unheld : ∀ ur ∈ s.db.userRoles, ur.roleId ≠ roleId) :
    Post (semantics redisUp)
    (Prog.forEach (fun permissionId => call (.rolePermissionUpsert roleId permissionId))
      permissionIds) s fun _ t => Coherent t ∧ ∀ ur ∈ t.db.userRoles, ur.roleId ≠ roleId := by
  apply post_forEach
  · rintro permissionId s ⟨coherent, unheld⟩
    refine post_call.mpr ⟨fun _ _ => ⟨coherent, unheld⟩, fun choice r t executed => ?_⟩
    simp only [execTotal, Store.with?] at executed
    split at executed
    · obtain ⟨_, rfl⟩ := Prod.mk.inj (Option.some.inj executed)
      exact ⟨coherent, unheld⟩
    · obtain ⟨_, rfl⟩ := Prod.mk.inj (Option.some.inj executed)
      refine ⟨fun userId => (coherent userId).setDb (sameGrants_grant unheld), ?_⟩
      rw [Store.db_setDb, grant_userRoles]
      exact unheld
  · exact ⟨coherent, unheld⟩

theorem create_coherent {dto : CreateRoleDto} (coherent : Coherent s) :
    Post (semantics redisUp) (RolesService.create dto) s fun _ t => Coherent t := by
  have found : ∀ {t : Store} {id : String}, Coherent t →
      Post (semantics redisUp) (RolesService.findOne id) t
      fun _ t => Coherent t := by
    intro t id coherent
    apply post_query (fun _ => rfl) fun _ => coherent
    cases (t.db.roles.rows.find? (·.id = id)).map t.db.detail <;> exact coherent
  apply post_query (fun _ => rfl) fun _ => coherent
  by_cases taken : (s.db.roles.rows.find? (·.name = dto.name)).isSome
  · simp only [taken, if_true]
    exact coherent
  · simp only [taken]
    apply post_step fun _ => coherent
    intro choice r t executed
    simp only [execTotal, Option.map_eq_some_iff] at executed
    obtain ⟨⟨r', db⟩, created, both⟩ := executed
    obtain ⟨rfl, rfl⟩ := Prod.mk.inj both
    obtain ⟨rolePermissions, userRoles, permissions, unheld, made⟩ := createRole_effect created
    have coherent' : Coherent (s.setDb db) := fun userId =>
      (coherent userId).setDb (sameGrants_of_tables rolePermissions userRoles permissions)
    cases r' with
    | error e => exact coherent'
    | ok role =>
      cases made role rfl
      by_cases none : dto.permissionIds.given?.getD [] = []
      · simp only [none, ne_eq, not_true_eq_false, if_false]
        exact found coherent'
      · simp only [none, ne_eq, not_false_eq_true, if_true]
        apply post_query (fun _ => rfl) fun _ => coherent'
        split
        · exact coherent'
        · rw [← userRoles] at unheld
          refine post_bind.mpr ((grantAll_coherent _ coherent' unheld).mono fun r t kept => ?_)
          cases r with
          | error e => exact kept.1
          | ok _ => exact found kept.1

/-- The commands of the database. -/
abbrev Cacheless (c : Cmd) : Prop := c.usesRedis = false

theorem cacheless_of_plain {c : Cmd} (plain : c.Plain) : Cacheless c := by
  cases c <;> first | rfl | contradiction

/-- A call that uses the database alone leaves every cached list as it is. -/
theorem cache_kept {α : Type} {p : Action α} (uses : p.Uses Cacheless) :
    Post (semantics redisUp) p s fun _ t => t.redis = s.redis :=
  uses.post (fun _ quiet _ _ _ responds kept => (redis_kept quiet responds).trans kept) rfl

/-- What the cache holds for the version of a token. -/
theorem get_spec {permVersion : String} :
    Post (semantics redisUp) (PermissionCache.get userId permVersion) s fun r t => t = s ∧
      ∀ codes, r = .ok codes → codes = [] ∨
        ∃ cached, s.hgetall (PermissionCache.cacheKey userId) = some cached ∧
        cached.permissions = codes := by
  apply post_query (fun _ => rfl)
  · exact fun e => ⟨rfl, fun _ impossible => nomatch impossible⟩
  · cases found : s.hgetall (PermissionCache.cacheKey userId) with
    | none =>
      refine ⟨rfl, ?_⟩
      rintro codes ⟨⟩
      exact .inl rfl
    | some cached =>
      refine ⟨rfl, ?_⟩
      rintro codes ⟨⟩
      split
      · exact .inl rfl
      · exact .inr ⟨cached, rfl, rfl⟩

theorem fetch_spec {permVersion : String} (coherent : Coherent s) :
    Post (semantics redisUp) (PermissionProvider.fetch userId permVersion) s fun r t => Coherent t ∧
      ∀ codes, r = .ok codes → ∀ code, code ∈ codes ↔ t.db.Grants userId code := by
  have refused : ∀ (e : Exn) codes, (.error e : Except Exn (List String)) = .ok codes →
      ∀ code, code ∈ codes ↔ s.db.Grants userId code := fun e codes impossible => nomatch impossible
  apply post_step fun e => ⟨coherent, refused e⟩
  intro choice r t executed
  simp only [execTotal] at executed
  split at executed
  · rename_i reply other
    obtain ⟨rfl, rfl⟩ := Prod.mk.inj (Option.some.inj executed)
    have status : reply.status ≠ 200 := by simpa using (Option.filter_eq_some_iff.mp other).2
    simp only [status, ne_eq, not_false_eq_true, if_true]
    exact ⟨coherent, refused _⟩
  · obtain ⟨rfl, rfl⟩ := Prod.mk.inj (Option.some.inj executed)
    simp only [ne_eq, not_true_eq_false, if_false]
    apply post_step fun e => ⟨coherent, refused e⟩
    intro choice r t executed
    obtain ⟨rfl, rfl⟩ := Prod.mk.inj (Option.some.inj executed)
    refine ⟨fun other => ?_, ?_⟩
    · by_cases same : other = userId
      · subst same
        intro cached found _ code
        rw [Store.hgetall_hset, if_pos rfl] at found
        cases Option.some.inj found
        exact mem_collect
      · apply (coherent other).frame
        · rw [Store.hgetall_hset, if_neg fun key => same (cacheKey_inj key)]
        · exact .refl _
    · rintro codes ⟨⟩ code
      exact mem_collect

/-- A call to `getPermissions` on a coherent cache returns what the roles grant. -/
theorem getPermissions_spec {permVersion : String} (coherent : Coherent s) :
    Post (semantics redisUp) (PermissionProvider.getPermissions userId permVersion) s fun r t =>
      Coherent t ∧ ∀ codes, r = .ok codes → ∀ code, code ∈ codes ↔ t.db.Grants userId code := by
  refine post_bind.mpr (get_spec.mono fun r t got => ?_)
  obtain ⟨rfl, cached⟩ := got
  cases r with
  | error e => exact ⟨coherent, fun codes impossible => nomatch impossible⟩
  | ok codes =>
    by_cases hit : codes.length > 0
    · simp only [hit, if_true]
      refine ⟨coherent, ?_⟩
      rintro codes' ⟨⟩
      rcases cached codes rfl with rfl | ⟨hash, found, rfl⟩
      · contradiction
      · exact coherent userId hash found (List.length_pos_iff.mp hit)
    · simp only [hit, if_false]
      refine post_catch.mpr ((fetch_spec coherent).mono fun r t fetched => ?_)
      cases r with
      | error e => exact ⟨fetched.1, fun codes impossible => nomatch impossible⟩
      | ok codes => exact fetched

end Calls

section Runs

/-- The calls that empty a cached list after their transaction. -/
def Call.emptiesCache : Call → Bool
  | .assignRole .. | .unassignRole .. => true
  | _ => false

/-- A completed call, with Redis up while a cached list is to be emptied. -/
def Completed (s : Store) (q : Call) (t : Store) : Prop :=
  ∃ r, Runs (semantics q.emptiesCache) (body q) s r t

/-- The condition on a call: editing or deleting a role leaves the codes alone of every
user with a cached list. -/
def SparesCached (s : Store) (q : Call) (t : Store) : Prop :=
  match q with
  | .update .. | .remove _ =>
      ∀ userId cached, s.hgetall (PermissionCache.cacheKey userId) = some cached →
      cached.permissions ≠ [] → SameGrants s.db t.db userId
  | _ => True

def CallRun (cond : Store → Call → Store → Prop) : Store → Store → Prop :=
  Relation.ReflTransGen fun s t => ∃ q, Completed s q t ∧ cond s q t

theorem Coherent.spared (coherent : Coherent s) (cache : t.redis = s.redis)
    (spared : ∀ userId cached, s.hgetall (PermissionCache.cacheKey userId) = some cached →
      cached.permissions ≠ [] → SameGrants s.db t.db userId) : Coherent t := by
  intro userId cached found present
  rw [Store.hgetall, cache, ← Store.hgetall] at found
  apply (coherent userId).frame ?_ (spared userId cached found present) cached ?_ present
  · rw [Store.hgetall, Store.hgetall, cache]
  · rw [Store.hgetall, cache, ← Store.hgetall, found]

theorem Completed.coherent {q : Call} (completed : Completed s q t) (spares : SparesCached s q t)
    (coherent : Coherent s) : Coherent t := by
  obtain ⟨r, run⟩ := completed
  have after : ∀ {P : Store → Prop}, Post (semantics q.emptiesCache) (body q) s
      (fun _ t => P t) → P t := fun post => post_iff_runs.mp post r t run
  cases q with
  | create dto => exact after (post_reply.mpr (create_coherent coherent))
  | update id dto =>
      exact coherent.spared
        (after (post_reply.mpr (cache_kept (plain_update.mono fun _ => cacheless_of_plain)))) spares
  | remove id =>
      exact coherent.spared
        (after (post_reply.mpr (cache_kept (plain_remove.mono fun _ => cacheless_of_plain)))) spares
  | assignRole user roleName => exact after (post_reply.mpr (assignRole_coherent coherent))
  | unassignRole user roleName => exact after (post_reply.mpr (unassignRole_coherent coherent))
  | getPermissions user permVersion =>
    exact after (post_reply.mpr ((getPermissions_spec coherent).mono fun _ _ both => both.1))

theorem CallRun.coherent (run : CallRun SparesCached s t) (coherent : Coherent s) : Coherent t := by
  induction run with
  | refl => exact coherent
  | tail _ last ih =>
    obtain ⟨q, completed, spares⟩ := last
    exact completed.coherent spares ih

/-- Coherence. In every run of completed calls in which no edit or deletion of a role
changes the codes of a user with a cached list, `getPermissions` returns exactly the codes
that the user's roles grant, whatever the version of the token. -/
theorem permission_cache_coherent {u : Store} {permVersion : String} {codes : List String}
    (cold : s.redis = []) (run : CallRun SparesCached s t)
    (returned : Runs (semantics false) (PermissionProvider.getPermissions userId permVersion) t
      (.ok codes) u) :
    ∀ code, code ∈ codes ↔ u.db.Grants userId code := by
  have start : Coherent s := by
    intro userId cached found
    rw [Store.hgetall, cold] at found
    contradiction
  have spec : Post (semantics false) (PermissionProvider.getPermissions userId permVersion) t _ :=
    getPermissions_spec (run.coherent start)
  exact (post_iff_runs.mp spec _ _ returned).2 codes rfl

end Runs

section Sample

/-- Complete calls one after the other, each with the choices of its commands. -/
def replayCalls (s : Store) : List (Call × List Choice) → Option Store
  | [] => some s
  | (q, choices) :: rest =>
    match (body q).eval (semantics q.emptiesCache) s choices with
    | some (_, t) => replayCalls t rest
    | none => none

theorem run_replayCalls {calls : List (Call × List Choice)}
    (replayed : replayCalls s calls = some t) :
    CallRun (fun _ q _ => q ∈ calls.map Prod.fst) s t := by
  suffices all : ∀ known : List Call, (∀ call ∈ calls, call.1 ∈ known) →
      CallRun (fun _ q _ => q ∈ known) s t from
    all _ fun call => List.mem_map_of_mem
  intro known
  induction calls generalizing s with
  | nil =>
    intro _
    cases Option.some.inj replayed
    exact .refl
  | cons call rest ih =>
    intro all
    obtain ⟨q, choices⟩ := call
    simp only [replayCalls] at replayed
    split at replayed
    · rename_i r next evaluated
      have first : q ∈ known := all (q, choices) List.mem_cons_self
      have later := ih replayed fun call found => all call (List.mem_cons_of_mem _ found)
      exact .head ⟨q, ⟨r, runs_eval evaluated⟩, first⟩ later
    · contradiction

def refundingUser : Auth.User :=
  { id := aliceId, email := "alice@mail.com", passwordHash := ⟨argonSalt0, "secret"⟩
    createdAt := 0 }

def refundingRole : Role := { id := refunderId, name := "refunder" }

def refundPermission : Permission := { id := refundId, code := "order:refund" }

def refundGrant : RolePermission := ⟨refunderId, refundId⟩

def refundHolding : UserRole := ⟨aliceId, refunderId⟩

/-- A user with one role, which grants one permission. -/
def refunder : Db where
  users := ⟨[refundingUser], by decide⟩
  roles := ⟨[refundingRole], by decide⟩
  permissions := ⟨[refundPermission], by decide⟩
  rolePermissions := ⟨[refundGrant], by decide⟩
  userRoles := ⟨[refundHolding], by decide⟩

def answered (n : Nat) : List Choice := List.replicate n {}

def readPermissions : Call × List Choice := (.getPermissions aliceId "1", answered 3)

/-- After the calls, `getPermissions` returns a code that no role of the user grants. -/
def ServesStale (calls : List (Call × List Choice)) : Prop := ∃ t u codes,
  CallRun (fun _ q _ => q ∈ calls.map Prod.fst) { db := refunder } t ∧
  Runs (semantics false) (PermissionProvider.getPermissions aliceId "1") t (.ok codes) u ∧
  "order:refund" ∈ codes ∧ ¬ u.db.Grants aliceId "order:refund"

/-- The test of a schedule of calls. -/
def servesAfter (calls : List (Call × List Choice)) (test : List String → Store → Bool) : Bool :=
  (replayCalls { db := refunder } calls).any fun t =>
    ((PermissionProvider.getPermissions aliceId "1").eval (semantics false) t (answered 3)).any fun
      | (.ok codes, u) => test codes u
      | _ => false

theorem runs_servesAfter {calls : List (Call × List Choice)} {test : List String → Store → Bool}
    (tested : servesAfter calls test = true) : ∃ t u codes,
      CallRun (fun _ q _ => q ∈ calls.map Prod.fst) { db := refunder } t ∧
      Runs (semantics false) (PermissionProvider.getPermissions aliceId "1") t (.ok codes) u ∧
      test codes u = true := by
  obtain ⟨t, replayed, rest⟩ := (Option.any_eq_true ..).mp tested
  obtain ⟨⟨r, u⟩, evaluated, both⟩ := (Option.any_eq_true ..).mp rest
  cases r with
  | error e => contradiction
  | ok codes => exact ⟨t, u, codes, run_replayCalls replayed, runs_eval evaluated, both⟩

theorem servesStale_of_replay {calls : List (Call × List Choice)}
    (stale : servesAfter calls (fun codes u =>
    codes.contains "order:refund" && !decide (u.db.Grants aliceId "order:refund")) = true) :
      ServesStale calls := by
  obtain ⟨t, u, codes, run, returned, both⟩ := runs_servesAfter stale
  simp only [Bool.and_eq_true, List.contains_iff_mem, Bool.not_eq_eq_eq_not, Bool.not_true,
    decide_eq_false_iff_not] at both
  exact ⟨t, u, codes, run, returned, both⟩

/-- A cached list is served after the role is deleted, and after its permissions are
taken away. -/
theorem stale_permissions_served :
    ServesStale [readPermissions, (.remove refunderId, answered 2)] ∧
    ServesStale
      [readPermissions, (.update refunderId { permissionIds := .value [] }, answered 4)] :=
  ⟨servesStale_of_replay (by decide +kernel), servesStale_of_replay (by decide +kernel)⟩

/-- Unassigning the role takes effect. -/
theorem permission_cache_coherent_unassigned : ∃ s t u codes, s.redis = [] ∧
    CallRun SparesCached s t ∧
    Runs (semantics false) (PermissionProvider.getPermissions aliceId "1") t
      (.ok codes) u ∧ codes = [] ∧ ∀ code, code ∈ codes ↔ u.db.Grants aliceId code := by
  have replayed : servesAfter [readPermissions, (.unassignRole aliceId "refunder", answered 6)]
      (fun codes _ => codes = []) = true := by decide +kernel
  obtain ⟨t, u, codes, run, returned, empty⟩ := runs_servesAfter replayed
  have conforms : CallRun SparesCached { db := refunder } t := by
    refine Relation.ReflTransGen.mono ?_ _ _ run
    rintro s t ⟨q, completed, called⟩
    refine ⟨q, completed, ?_⟩
    simp only [List.map_cons, List.map_nil, List.mem_cons, List.not_mem_nil, or_false] at called
    rcases called with rfl | rfl <;> trivial
  exact ⟨_, t, u, codes, rfl, conforms, returned, of_decide_eq_true empty,
    permission_cache_coherent rfl conforms returned⟩

end Sample
end CorePlatform.Roles
