import CorePlatform.Async.Counting
import CorePlatform.Roles.Authorization
import CorePlatform.Roles.Unassign

/-! The version of a user's permissions under concurrent role changes. A change reads the
version, and its transaction writes the successor of what it has read; two changes that
have read the same version write the same one. -/
namespace CorePlatform.Roles
open Async Relational

/-- The user has the version. -/
def VersionIs (userId : String) (v : Int) (s : Store) : Prop :=
  ∃ user ∈ s.db.users.rows, user.id = userId ∧ user.permVersion = v

instance (userId : String) (v : Int) (s : Store) : Decidable (VersionIs userId v s) :=
  inferInstanceAs (Decidable (∃ user ∈ s.db.users.rows, user.id = userId ∧ user.permVersion = v))

/-- The user of a transaction, and the version it writes. -/
def Cmd.transaction? : Cmd → Option (String × Int)
  | .assignTransaction userId _ permVersion | .unassignTransaction userId _ permVersion =>
      some (userId, permVersion)
  | _ => none

/-- A committed transaction on the user. -/
def commits (userId : String) (e : Ev) : Bool :=
  e.resp.isOk && e.cmd.transaction?.any (·.1 = userId)

def changesRole (userId : String) : Call → Bool
  | .assignRole user _ | .unassignRole user _ => user = userId
  | _ => false

/-- A call that has changed a role of the user and returned. -/
def changed (userId : String) (th : RoleThread) : Bool :=
  changesRole userId th.request && match th.result? with
    | some (.ok _) => true
    | _ => false

/-- The condition on a step. A transaction on the user that commits writes the successor of
the version the user has at that moment, which is then still the one it has read; and the
commands by which a role change of the user empties the cached list are not rejected. -/
def WritesSuccessor (userId : String) (pool : RolePool) : Step → Prop
  | .run t choice => ∀ th ∈ pool.thread? t, ∀ c ∈ th.next?,
      ((exec false c choice pool.store).any (·.1.isOk) = true →
        ∀ written ∈ c.transaction?, written.1 = userId →
        VersionIs userId (written.2 - 1) pool.store) ∧
      (changesRole userId th.request = true → c.usesRedis = true → choice.fault = none)
  | _ => True

instance (userId : String) (pool : RolePool) :
    (label : Step) → Decidable (WritesSuccessor userId pool label)
  | .run t choice => inferInstanceAs (Decidable (∀ th ∈ pool.thread? t, ∀ c ∈ th.next?,
      ((exec false c choice pool.store).any (·.1.isOk) = true →
        ∀ written ∈ c.transaction?, written.1 = userId →
        VersionIs userId (written.2 - 1) pool.store) ∧
      (changesRole userId th.request = true → c.usesRedis = true → choice.fault = none)))
  | .spawn _ | .act _ => isTrue trivial

/-- What a run makes of the version `v` that the user has at its start. Once the role
changes of the user have ended, the version has grown by one for each that returned; and
the version that a committed transaction gives the user was never the user's before. -/
def VersionsCounted (cond : RolePool → Step → Prop) (userId : String) (v : Int)
    (pool : RolePool) : Prop :=
  ((∀ th ∈ pool.threads, changesRole userId th.request = true → th.next? = none) →
    VersionIs userId (v + pool.threads.countP (changed userId)) pool.store) ∧
  ∀ earlier w w', rolesSystem.Reachable cond (VersionIs userId v) earlier →
    rolesSystem.Run cond earlier pool →
    earlier.executed (commits userId) < pool.executed (commits userId) →
    VersionIs userId w earlier.store → VersionIs userId w' pool.store → w < w'

section Steps

variable {userId : String} {s s' : Store} {choice : Choice} {c : Cmd}
  {r : Except Exn c.Resp} {v : Int} {n : Nat}

theorem grant_users {db : Db} {rp : RolePermission} : (db.grant rp).2.users = db.users := by
  unfold Db.grant
  split
  · rfl
  · split <;> rfl

/-- Only a transaction that commits touches the users, and only the version of one. -/
theorem users_effect (done : execTotal c choice s = some (r, s')) :
    (s'.db.users = s.db.users ∧ (r.isOk = true → c.transaction? = none)) ∨
    ∃ user w, r.isOk = true ∧ c.transaction? = some (user, w) ∧
      s'.db.users = s.db.users.update (·.id = user) (fun row => { row with permVersion := w }) := by
  cases c with
  | assignTransaction user roleId w =>
    simp only [execTotal, Db.assign] at done
    split at done
    · obtain ⟨rfl, rfl⟩ := Prod.mk.inj (Option.some.inj done)
      exact .inl ⟨rfl, by rintro ⟨⟩⟩
    · rename_i db assigned
      obtain ⟨rfl, rfl⟩ := Prod.mk.inj (Option.some.inj done)
      have users : db.users = s.db.users := by
        split at assigned
        · rw [← (Prod.mk.inj assigned).2]
        · split at assigned
          · rw [← (Prod.mk.inj assigned).2]
          · cases (Prod.mk.inj assigned).1
      refine .inr ⟨user, w, rfl, rfl, ?_⟩
      simp only [Store.setDb, Db.setPermVersion, users]
  | unassignTransaction user roleId w =>
    simp only [execTotal] at done
    split at done
    · obtain ⟨rfl, rfl⟩ := Prod.mk.inj (Option.some.inj done)
      exact .inr ⟨user, w, rfl, rfl, rfl⟩
    · obtain ⟨rfl, rfl⟩ := Prod.mk.inj (Option.some.inj done)
      exact .inl ⟨rfl, by rintro ⟨⟩⟩
  | roleCreate name description =>
    simp only [execTotal, Option.map_eq_some_iff] at done
    obtain ⟨⟨_, db⟩, created, both⟩ := done
    obtain ⟨_, rfl⟩ := Prod.mk.inj both
    refine .inl ⟨?_, fun _ => rfl⟩
    unfold Db.createRole at created
    split at created
    · contradiction
    · split at created <;>
        (obtain ⟨_, rfl⟩ := Prod.mk.inj (Option.some.inj created)
         rfl)
  | roleUpdate id name description =>
    obtain ⟨_, rfl⟩ := Prod.mk.inj (Option.some.inj done)
    refine .inl ⟨?_, fun _ => rfl⟩
    simp only [Store.setDb, Db.updateRole]
    split
    · rfl
    · split <;> rfl
  | roleDelete id =>
    obtain ⟨_, rfl⟩ := Prod.mk.inj (Option.some.inj done)
    refine .inl ⟨?_, fun _ => rfl⟩
    simp only [Store.setDb, Db.deleteRole]
    split <;> rfl
  | rolePermissionUpsert roleId permissionId =>
    refine .inl ⟨?_, fun _ => rfl⟩
    simp only [execTotal, Store.with?] at done
    split at done
    · obtain ⟨_, rfl⟩ := Prod.mk.inj (Option.some.inj done)
      rfl
    · obtain ⟨_, rfl⟩ := Prod.mk.inj (Option.some.inj done)
      exact grant_users
  | rolePermissionCreate roleId permissionId =>
    obtain ⟨_, rfl⟩ := Prod.mk.inj (Option.some.inj done)
    exact .inl ⟨grant_users, fun _ => rfl⟩
  | httpGetPermissions user =>
    refine .inl ⟨?_, fun _ => rfl⟩
    simp only [execTotal] at done
    split at done <;>
      (obtain ⟨_, rfl⟩ := Prod.mk.inj (Option.some.inj done)
       rfl)
  | _ =>
    obtain ⟨_, rfl⟩ := Prod.mk.inj (Option.some.inj done)
    exact .inl ⟨rfl, fun _ => rfl⟩

theorem VersionIs.unique {w : Int} (is : VersionIs userId v s)
    (is' : VersionIs userId w s) : v = w := by
  obtain ⟨row, found, same, rfl⟩ := is
  obtain ⟨row', found', same', rfl⟩ := is'
  rw [Table.eq_of_key found found' (same.trans same'.symm)]

/-- One command under the condition: the version grows by one if it commits a transaction
on the user, and stays otherwise. -/
theorem version_step (is : VersionIs userId (v + n) s)
    (executed : exec false c choice s = some (r, s'))
    (successor : (exec false c choice s).any (·.1.isOk) = true →
      ∀ written ∈ c.transaction?, written.1 = userId → VersionIs userId (written.2 - 1) s) :
    VersionIs userId (v + (n + tally (commits userId) ⟨c, r⟩ : Nat)) s' := by
  have quiet : commits userId ⟨c, r⟩ = false → s'.db.users = s.db.users →
      VersionIs userId (v + (n + tally (commits userId) ⟨c, r⟩ : Nat)) s' := by
    intro none users
    rw [tally, none, VersionIs, users]
    exact is
  rcases exec_cases executed with ⟨_, done⟩ | ⟨rfl, e, rfl⟩
  · rcases users_effect done with ⟨users, none⟩ | ⟨user, w, answered, writes, users⟩
    · apply quiet _ users
      by_cases answered : r.isOk = true
      · simp only [commits, none answered, Option.any_none, Bool.and_false]
      · simp only [commits, answered, Bool.false_and]
    · obtain ⟨row, found, same, version⟩ := is
      by_cases own : user = userId
      · -- the transaction writes the successor of the current version
        have current := successor (by rw [executed]; exact answered) _ writes own
        have next : w - 1 = v + n := current.unique ⟨row, found, same, version⟩
        have one : tally (commits userId) ⟨c, r⟩ = 1 := by
          simp only [tally, commits, answered, writes, Option.any_some, own, decide_true,
            Bool.and_self, if_true]
        rw [one, VersionIs, users]
        refine ⟨_, List.mem_map_of_mem found, ?_⟩
        simp only [same, own, decide_true, if_true, true_and]
        omega
      · have none : tally (commits userId) ⟨c, r⟩ = 0 := by
          simp only [tally, commits, answered, writes, Option.any_some, own,
            decide_false, Bool.and_false, Bool.false_eq_true, if_false]
        have other : row.id ≠ user := fun taken => own (taken.symm.trans same)
        rw [none, VersionIs, users]
        refine ⟨_, List.mem_map_of_mem found, ?_⟩
        simp only [other, decide_false, Bool.false_eq_true, if_false]
        exact ⟨same, version⟩
  · exact quiet rfl rfl

end Steps
section Bodies

variable {userId : String} {trace : List Ev} {α : Type}

/-- The command is no transaction on the user. -/
def Cmd.Spares (userId : String) (c : Cmd) : Prop := ∀ written ∈ c.transaction?, written.1 ≠ userId

theorem spares_none {c : Cmd} (none : c.transaction? = none) : c.Spares userId := by
  intro written writes
  rw [none] at writes
  contradiction

theorem spares_plain {c : Cmd} (plain : c.Plain) : c.Spares userId := by
  cases c with
  | assignTransaction | unassignTransaction => contradiction
  | _ => exact spares_none rfl

theorem spares_guarding {c : Cmd} (guarding : c.guarding) : c.Spares userId := by
  cases c with
  | assignTransaction | unassignTransaction => contradiction
  | _ => exact spares_none rfl

theorem commits_spared {c : Cmd} (spares : c.Spares userId) (r : Except Exn c.Resp) :
    commits userId ⟨c, r⟩ = false := by
  simp only [commits]
  cases writes : c.transaction? with
  | none => simp only [Option.any_none, Bool.and_false]
  | some written =>
    have other : written.1 ≠ userId := spares written writes
    simp only [Option.any_some, other, decide_false, Bool.and_false]

/-- The successful end of a call that has committed `n` transactions on the user. A call
that throws has committed none, or has been refused by Redis. -/
structure Settled (userId : String) (n : Nat) (trace : List Ev) (r : Except Exn α) : Prop where
  returned : r.isOk = true → trace.countP (commits userId) = n
  thrown : r.isOk = false → trace.countP (commits userId) = 0 ∨
    ∃ e ∈ trace, e.cmd.usesRedis = true ∧ e.resp.isOk = false

theorem settled_spared {n : Nat} {c : Cmd} {r : Except Exn c.Resp} (spares : c.Spares userId)
    (before : trace.countP (commits userId) = n) :
    (⟨c, r⟩ :: trace : List Ev).countP (commits userId) = n := by
  rw [countP_cons_tally, tally, commits_spared spares]
  exact before

theorem settled_error {e : Exn} {n : Nat} (none : trace.countP (commits userId) = 0) :
    Settled userId n trace (.error e : Except Exn α) where
  returned impossible := nomatch impossible
  thrown _ := .inl none

theorem settled_refused {c : Cmd} {e e' : Exn} {n : Nat} (redis : c.usesRedis = true) :
    Settled userId n (⟨c, .error e⟩ :: trace) (.error e' : Except Exn α) where
  returned impossible := nomatch impossible
  thrown _ := .inr ⟨_, List.mem_cons_self, redis, rfl⟩

/-- After the transaction only commands of the cache follow. -/
theorem along_updatePermVersion {user : String} {permVersion : Int} {n : Nat} {a : α}
    (committed : trace.countP (commits userId) = n) :
    Along (fun _ _ => True) (Settled userId n) trace
      (do PermissionCache.updatePermVersion user permVersion; return a : Action α) := by
  have looked : ∀ r : Except Exn Bool, (⟨.redisExists (PermissionCache.cacheKey user), r⟩ ::
      trace : List Ev).countP
      (commits userId) = n := fun r => settled_spared (spares_none rfl) committed
  refine along_bind.mpr (along_command_bind trivial (fun e => settled_refused rfl) fun found => ?_)
  cases found with
  | false => exact ⟨fun _ => looked _, fun impossible => nomatch impossible⟩
  | true =>
    refine ⟨trivial, fun r => ?_⟩
    cases r with
    | error e => exact settled_refused rfl
    | ok _ =>
        exact ⟨fun _ => settled_spared (spares_none rfl) (looked _),
          fun impossible => nomatch impossible⟩

/-- The transaction of a role change of the user, and what follows it. -/
theorem along_transaction {c : Cmd} {f : c.Resp → Action α} {w : Int}
    (writes : c.transaction? = some (userId, w)) (before : trace.countP (commits userId) = 0)
    (next : ∀ a trace, trace.countP (commits userId) = 1 →
      Along (fun _ _ => True) (Settled userId 1) trace (f a)) :
    Along (fun _ _ => True) (Settled userId 1) trace (call c >>= f) := by
  apply along_command_bind trivial
  · intro e
    apply settled_error
    rw [countP_cons_tally, before]
    rfl
  · intro a
    apply next
    have one : commits userId ⟨c, .ok a⟩ = true := by
      simp only [commits, writes, Option.any_some, decide_true, Bool.and_true]
      rfl
    rw [countP_cons_tally, before, tally, one]
    rfl

/-- A command before the transaction. -/
theorem along_before {c : Cmd} {f : c.Resp → Action α} {n : Nat} (spares : c.Spares userId)
    (before : trace.countP (commits userId) = 0)
    (next : ∀ a trace, trace.countP (commits userId) = 0 →
      Along (fun _ _ => True) (Settled userId n) trace (f a)) :
    Along (fun _ _ => True) (Settled userId n) trace (call c >>= f) := by
  apply along_command_bind trivial
  · exact fun e => settled_error (settled_spared spares before)
  · exact fun a => next a _ (settled_spared spares before)

theorem settled_rethrown {n : Nat} {e e' : Exn}
    (settled : Settled userId n trace (.error e : Except Exn α)) :
    Settled userId n trace (.error e' : Except Exn α) where
  returned impossible := nomatch impossible
  thrown _ := settled.thrown rfl

theorem settles_assignRole {roleName : String} :
    Along (fun _ _ => True) (Settled userId 1) [] (RolesService.assignRole userId roleName) := by
  apply along_mapError fun _ _ => settled_rethrown
  refine along_before (spares_none rfl) rfl fun user trace none => ?_
  cases user with
  | none => exact settled_error none
  | some user =>
    refine along_before (spares_none rfl) none fun role trace none => ?_
    cases role with
    | none => exact settled_error none
    | some role =>
      refine along_before (spares_none rfl) none fun held trace none => ?_
      cases held with
      | some held => exact settled_error none
      | none => exact along_transaction rfl none fun _ _ => along_updatePermVersion

theorem settles_unassignRole {roleName : String} :
    Along (fun _ _ => True) (Settled userId 1) [] (RolesService.unassignRole userId roleName) := by
  apply along_mapError fun _ _ => settled_rethrown
  refine along_before (spares_none rfl) rfl fun role trace none => ?_
  cases role with
  | none => exact settled_error none
  | some role =>
    refine along_before (spares_none rfl) none fun user trace none => ?_
    cases user with
    | none => exact settled_error none
    | some user =>
      refine along_before (spares_none rfl) none fun held trace none => ?_
      cases held with
      | none => exact settled_error none
      | some held => exact along_transaction rfl none fun _ _ => along_updatePermVersion

theorem spares_updatePermVersion {user : String} {permVersion : Int} :
    (PermissionCache.updatePermVersion user permVersion).Uses (Cmd.Spares userId) := by
  refine uses_step (spares_none rfl) fun found => ?_
  cases found with
  | false => trivial
  | true => exact ⟨(spares_none rfl), fun _ => trivial⟩

theorem spares_assignRole {user roleName : String} (other : user ≠ userId) :
    (RolesService.assignRole user roleName).Uses (Cmd.Spares userId) := by
  refine Prog.Uses.catch ?_ fun _ => trivial
  refine uses_step (spares_none rfl) fun found => ?_
  cases found with
  | none => trivial
  | some found =>
    refine uses_step (spares_none rfl) fun role => ?_
    cases role with
    | none => trivial
    | some role =>
      refine uses_step (spares_none rfl) fun held => ?_
      cases held with
      | some held => trivial
      | none =>
        refine uses_step ?_ fun _ => Prog.Uses.bind spares_updatePermVersion fun _ => trivial
        rintro _ ⟨⟩
        exact other

theorem spares_unassignRole {user roleName : String} (other : user ≠ userId) :
    (RolesService.unassignRole user roleName).Uses (Cmd.Spares userId) := by
  refine Prog.Uses.catch ?_ fun _ => trivial
  refine uses_step (spares_none rfl) fun role => ?_
  cases role with
  | none => trivial
  | some role =>
    refine uses_step (spares_none rfl) fun found => ?_
    cases found with
    | none => trivial
    | some found =>
      refine uses_step (spares_none rfl) fun held => ?_
      cases held with
      | none => trivial
      | some held =>
        refine uses_step ?_ fun _ => Prog.Uses.bind spares_updatePermVersion fun _ => trivial
        rintro _ ⟨⟩
        exact other

/-- A call that changes no role of the user issues no transaction on it. -/
theorem spares_body {q : Call} (other : changesRole userId q = false) :
    (body q).Uses (Cmd.Spares userId) := by
  have reply : ∀ {β : Type} {p : Action β} {f : β → Reply}, p.Uses (Cmd.Spares userId) →
      (do return f (← p) : Action Reply).Uses (Cmd.Spares userId) :=
    fun uses => Prog.Uses.bind uses fun _ => trivial
  cases q with
  | create dto => exact reply (plain_create.mono fun _ => spares_plain)
  | update id dto => exact reply (plain_update.mono fun _ => spares_plain)
  | remove id => exact reply (plain_remove.mono fun _ => spares_plain)
  | assignRole user roleName => exact reply (spares_assignRole (of_decide_eq_false other))
  | unassignRole user roleName => exact reply (spares_unassignRole (of_decide_eq_false other))
  | getPermissions user permVersion =>
      exact reply ((uses_getPermissions user permVersion).mono fun _ => spares_guarding)

/-- The transactions on the user that a call has committed, wherever it stands. -/
def commitPoint (userId : String) (q : Call) (trace : List Ev) (_ : Cmd) : Prop :=
  changesRole userId q = false → trace.countP (commits userId) = 0

def commitEnd (userId : String) (q : Call) (trace : List Ev) (r : Except Exn Reply) : Prop :=
  if changesRole userId q then Settled userId 1 trace r else trace.countP (commits userId) = 0

theorem commits_body (userId : String) (q : Call) : Along (commitPoint userId q)
    (commitEnd userId q) [] (body q) := by
  by_cases own : changesRole userId q = true
  · have settles : Along (fun _ _ => True) (Settled userId 1) [] (body q) := by
      have reply : ∀ {p : Action AssignedRole}, Along (fun _ _ => True) (Settled userId 1) [] p →
          Along (fun _ _ => True) (Settled userId 1) []
            (do return .assigned (← p) : Action Reply) := by
        refine fun along => along_bind.mpr
          (along.mono (fun _ _ point => point) fun trace r settled => ?_)
        cases r with
        | error e => exact ⟨(fun impossible => nomatch impossible), settled.thrown⟩
        | ok a => exact ⟨fun _ => settled.returned rfl, fun impossible => nomatch impossible⟩
      cases q with
      | assignRole user roleName =>
        obtain rfl : user = userId := of_decide_eq_true own
        exact reply settles_assignRole
      | unassignRole user roleName =>
        obtain rfl : user = userId := of_decide_eq_true own
        exact reply settles_unassignRole
      | create | update | remove | getPermissions => contradiction
    refine settles.mono (fun _ _ _ other => ?_) fun trace r settled => ?_
    · rw [own] at other
      contradiction
    · rw [commitEnd, if_pos own]
      exact settled
  · have other : changesRole userId q = false := Bool.eq_false_iff.mpr own
    have counted : Along (fun trace _ => trace.countP (commits userId) = 0)
        (fun trace _ => trace.countP (commits userId) = 0) [] (body q) :=
      (spares_body other).count (fun c r spares => commits_spared spares r) rfl
    refine counted.mono (fun _ _ none _ => none) fun trace r none => ?_
    rw [commitEnd, if_neg own]
    exact none

end Bodies
section Runs

variable {userId : String} {v : Int} {pool : RolePool}

abbrev Changes (userId : String) (v : Int) (pool : RolePool) : Prop :=
  rolesSystem.Reachable (WritesSuccessor userId) (VersionIs userId v) pool

/-- The version has grown by the number of committed transactions. -/
theorem version_counts (reachable : Changes userId v pool) :
    VersionIs userId (v + pool.executed (commits userId)) pool.store := by
  apply System.Reachable.counted (P := fun n s => VersionIs userId (v + n) s) reachable
  · intro s is
    simpa using is
  · intro pool t choice th c r s n _ found next met executed is
    exact version_step is executed (met th found c next).1
  · exact fun _ a => a.elim

/-- Redis refuses no role change of the user. -/
theorem redis_answers {t : Nat} {th : RoleThread} {e : Ev} (reachable : Changes userId v pool)
    (found : pool.thread? t = some th) (executed : e ∈ th.trace)
    (own : changesRole userId th.request = true) (redis : e.cmd.usesRedis = true) :
    e.resp.isOk = true := by
  refine reachable.seen (P := fun q _ (e : Ev) =>
    changesRole userId q = true → e.cmd.usesRedis = true → e.resp.isOk = true)
    found executed ?_ (fun _ _ _ _ _ _ _ _ holds => holds) (fun _ _ a => a.elim) own redis
  intro pool t choice th c r s found next met executed own redis
  have answered := (met th found c next).2 own redis
  have done : execTotal c choice pool.store = some (r, s) := by
    simpa only [rolesSystem, semantics, exec, answered] using executed
  cases c with
  | redisHset | redisHgetall | redisExists =>
    obtain ⟨rfl, _⟩ := Prod.mk.inj (Option.some.inj done)
    rfl
  | _ => cases redis

/-- Each call has committed one transaction on the user if it has changed a role of the
user and returned, and none otherwise. -/
theorem commits_once (reachable : Changes userId v pool)
    (ended : ∀ th ∈ pool.threads, changesRole userId th.request = true → th.next? = none) :
    ∀ th ∈ pool.threads, th.trace.countP (commits userId) = if changed userId th then 1 else 0 := by
  intro th started
  obtain ⟨t, found⟩ := Pool.mem_threads.mp started
  by_cases own : changesRole userId th.request = true
  · have stopped := ended th started own
    cases outcome : th.result? with
    | none =>
      obtain ⟨request, trace, rest⟩ := th
      cases rest <;> contradiction
    | some r =>
      have settled := reachable.returned (commits_body userId) found outcome
      rw [commitEnd, if_pos own] at settled
      cases r with
      | ok reply =>
        have did : changed userId th = true := by simp only [changed, own, outcome, Bool.and_self]
        rw [did]
        exact settled.returned rfl
      | error e =>
        have failed : changed userId th = false := by
          simp only [changed, own, outcome, Bool.and_false]
        rw [failed]
        rcases settled.thrown rfl with none | ⟨e, inTrace, redis, refused⟩
        · exact none
        · rw [redis_answers reachable found inTrace own redis] at refused
          contradiction
  · have other : changesRole userId th.request = false := Bool.eq_false_iff.mpr own
    have none : th.trace.countP (commits userId) = 0 := by
      cases next : th.next? with
      | some c => exact reachable.point (commits_body userId) found next other
      | none =>
        obtain ⟨request, trace, rest⟩ := th
        cases rest with
        | await c k => contradiction
        | done r =>
          have settled := reachable.returned (commits_body userId) found rfl
          rw [commitEnd, if_neg own] at settled
          exact settled
    rw [none, changed, other]
    rfl

/-- No increment is lost and no version repeats, in every run that meets the condition. -/
theorem versions_counted (reachable : rolesSystem.Reachable (WritesSuccessor userId)
    (VersionIs userId v) pool) :
    VersionsCounted (WritesSuccessor userId) userId v pool := by
  have counts := version_counts reachable
  constructor
  · intro ended
    rw [← Pool.executed_eq_countP (commits_once reachable ended)]
    exact counts
  · intro earlier w w' before _ more was is
    have same := was.unique (version_counts before)
    have same' := is.unique counts
    omega

end Runs
section Sample

def staffedUser : Auth.User :=
  { id := aliceId, email := "alice@mail.com", passwordHash := ⟨argonSalt0, "secret"⟩
    createdAt := 0 }

/-- A user without a role, and two roles. -/
def staffed : Db where
  users := ⟨[staffedUser], by decide⟩
  roles := ⟨[{ id := editorId, name := "editor" }, { id := auditorId, name := "auditor" }],
    by decide⟩

/-- Nothing is rejected. -/
def Answers (_ : RolePool) : Step → Prop
  | .run _ choice => choice.fault = none
  | _ => True

instance (pool : RolePool) : (label : Step) → Decidable (Answers pool label)
  | .run _ choice => inferInstanceAs (Decidable (choice.fault = none))
  | .spawn _ | .act _ => isTrue trivial

/-- Two calls read the version before either writes it. -/
def overlapping : List Step :=
  .spawn (.assignRole aliceId "editor") :: .spawn (.assignRole aliceId "auditor") ::
    moves 0 3 ++ moves 1 3 ++ moves 0 2 ++ moves 1 2

/-- The second call starts when the first has ended. -/
def consecutive : List Step :=
  .spawn (.assignRole aliceId "editor") :: moves 0 5 ++
    .spawn (.unassignRole aliceId "editor") :: moves 1 5

/-- Two role changes of the user have returned, and the version is `v`. -/
def bothChanged (v : Int) (pool : RolePool) : Bool :=
  pool.threads.all (fun th => th.next?.isNone) && pool.threads.countP (changed aliceId) = 2 &&
    decide (VersionIs aliceId v pool.store)

theorem changed_of_replay {cond : RolePool → Step → Prop}
    [∀ pool label, Decidable (cond pool label)] {v : Int} {steps : List Step}
    (tested : (rolesSystem.replay cond (System.idle { db := staffed }) steps).any
      (bothChanged v) = true) :
    ∃ pool, rolesSystem.Reachable cond (VersionIs aliceId 1) pool ∧
      (∀ th ∈ pool.threads, changesRole aliceId th.request = true → th.next? = none) ∧
      pool.threads.countP (changed aliceId) = 2 ∧ VersionIs aliceId v pool.store := by
  obtain ⟨pool, run, passed⟩ := System.run_of_replay tested
  simp only [bothChanged, Bool.and_eq_true, List.all_eq_true, Option.isNone_iff_eq_none,
    decide_eq_true_eq] at passed
  obtain ⟨⟨ended, two⟩, is⟩ := passed
  exact ⟨pool, ⟨_, by decide, run⟩, fun th started _ => ended th started, two, is⟩

/-- Two concurrent assignments of different roles return, and the version has grown by one. -/
theorem version_increment_lost : ¬ ∀ userId v pool, rolesSystem.Reachable Answers
    (VersionIs userId v) pool → VersionsCounted Answers userId v pool := by
  intro counted
  have tested : (rolesSystem.replay Answers (System.idle { db := staffed }) overlapping).any
      (bothChanged 2) = true := by
    decide +kernel
  obtain ⟨pool, reachable, ended, two, is⟩ := changed_of_replay tested
  have grown := (counted aliceId 1 pool reachable).1 ended
  rw [two] at grown
  exact absurd (grown.unique is) (by decide)

/-- An assignment and a removal, one after the other, and two versions. -/
theorem versions_counted_consecutive : ∃ pool, rolesSystem.Reachable (WritesSuccessor aliceId)
    (VersionIs aliceId 1) pool ∧
    pool.threads.countP (changed aliceId) = 2 ∧ VersionIs aliceId (1 + 2) pool.store := by
  have tested : (rolesSystem.replay (WritesSuccessor aliceId)
      (System.idle { db := staffed }) consecutive).any
      (bothChanged 3) = true := by decide +kernel
  obtain ⟨pool, reachable, ended, two, _⟩ := changed_of_replay tested
  have grown := (versions_counted reachable).1 ended
  rw [two] at grown
  exact ⟨pool, reachable, two, grown⟩

end Sample
end CorePlatform.Roles
