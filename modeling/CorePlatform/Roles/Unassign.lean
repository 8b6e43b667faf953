import CorePlatform.Roles.Coherence

/-! Removal of a role against concurrent reads of permissions. A read that has fetched the
codes before the transaction may write them into the cache after the removal has emptied
it, under whatever version the caller's token carries. -/
namespace CorePlatform.Roles
open Async Relational

/-- Some code of the list is granted by no role of the user. -/
def StaleList (db : Db) (userId : String) (codes : List String) : Prop :=
  ∃ code ∈ codes, ¬ db.Grants userId code

instance (db : Db) (userId : String) (codes : List String) :
    Decidable (StaleList db userId codes) :=
  inferInstanceAs (Decidable (∃ code ∈ codes, ¬ db.Grants userId code))

/-- A removal of a role of the user that is about to look at the cache after its
transaction, or to empty the cached list. -/
def awaitsClear (userId : String) (th : RoleThread) : Bool :=
  match th.request, th.next? with
  | .unassignRole user _, some (.redisExists _) | .unassignRole user _, some (.redisHset ..) =>
      user = userId
  | _, _ => false

/-- The list that a read of the user's permissions is about to cache. -/
def caches? (userId : String) (th : RoleThread) : Option (List String) :=
  match th.request, th.next? with
  | .getPermissions user _, some (.redisHset _ hash) =>
      if user = userId then some hash.permissions else none
  | _, _ => none

def isUnassign : Call → Bool
  | .unassignRole .. => true
  | _ => false

/-- The calls under consideration: one removal of a role of the user, and reads. -/
def InScope (userId : String) (pool : RolePool) : Step → Prop
  | .spawn (.unassignRole user _) =>
      user = userId ∧ ∀ th ∈ pool.threads, isUnassign th.request = false
  | .spawn (.getPermissions ..) => True
  | .spawn _ => False
  | _ => True

/-- The condition on a step: a read that writes a stale list into the cache does so before
the removal has emptied it. -/
def WritesCovered (userId : String) (pool : RolePool) : Step → Prop
  | .run t choice => ∀ th ∈ pool.thread? t, choice.fault = none → ∀ codes ∈ caches? userId th,
      StaleList pool.store.db userId codes → ∃ other ∈ pool.threads, awaitsClear userId other = true
  | _ => True

section Decidable

variable (userId : String) (pool : RolePool)

instance : (label : Step) → Decidable (InScope userId pool label)
  | .spawn (.unassignRole user _) => inferInstanceAs (Decidable (user = userId ∧
      ∀ th ∈ pool.threads, isUnassign th.request = false))
  | .spawn (.getPermissions ..) => isTrue trivial
  | .spawn (.create _) | .spawn (.update ..) | .spawn (.remove _) | .spawn (.assignRole ..) =>
      isFalse nofun
  | .run .. | .act _ => isTrue trivial

instance : (label : Step) → Decidable (WritesCovered userId pool label)
  | .run t choice =>
    match found : pool.thread? t with
    | none => isTrue (by simp [WritesCovered, found])
    | some th =>
      decidable_of_iff (choice.fault.isSome ∨ ∀ codes ∈ caches? userId th,
          StaleList pool.store.db userId codes → ∃ other ∈ pool.threads,
          awaitsClear userId other = true) (by
        cases fault : choice.fault <;> simp [WritesCovered, found, fault])
  | .spawn _ | .act _ => isTrue trivial

end Decidable

abbrev Conforms (userId : String) (pool : RolePool) (label : Step) : Prop :=
  InScope userId pool label ∧ WritesCovered userId pool label

section Points

/-- What a removal may write, and where it looks at the cache. -/
def unassignPoint (userId : String) (_ : List Ev) : Cmd → Prop
  | .unassignTransaction user .. => user = userId
  | .redisExists key => key = PermissionCache.cacheKey userId
  | .redisHset key hash => key = PermissionCache.cacheKey userId ∧ hash.permissions = []
  | .roleFindByName _ | .userFindUnique _ | .userRoleFindUnique .. => True
  | _ => False

/-- A removal that returns has emptied the cached list, or has found none. -/
def Emptied {α : Type} (userId : String) (trace : List Ev) (r : Except Exn α) : Prop :=
  ∀ a, r = .ok a →
    trace.head? = some ⟨.redisExists (PermissionCache.cacheKey userId), .ok false⟩ ∨
    ∃ hash, hash.permissions = [] ∧
      trace.head? = some ⟨.redisHset (PermissionCache.cacheKey userId) hash, .ok ()⟩

theorem emptied_error {α : Type} {userId : String} (trace : List Ev) (e : Exn) :
    Emptied userId trace (.error e : Except Exn α) := fun _ impossible => nomatch impossible

theorem along_unassignRole {userId roleName : String} :
    Along (unassignPoint userId) (Emptied userId) []
    (RolesService.unassignRole userId roleName) := by
  apply along_rethrow emptied_error
  refine along_await_bind trivial emptied_error fun role => ?_
  cases role with
  | none => exact emptied_error _ _
  | some role =>
    refine along_await_bind trivial emptied_error fun user => ?_
    cases user with
    | none => exact emptied_error _ _
    | some user =>
      refine along_await_bind trivial emptied_error fun held => ?_
      cases held with
      | none => exact emptied_error _ _
      | some held =>
        refine along_await_bind rfl emptied_error fun _ => ?_
        refine along_bind.mpr (along_await_bind rfl (fun _ _ => emptied_error _ _) fun found => ?_)
        cases found with
        | false => exact fun _ _ => .inl rfl
        | true =>
          refine ⟨⟨rfl, rfl⟩, fun r => ?_⟩
          cases r with
          | error e => exact emptied_error _ _
          | ok _ => exact fun _ _ => .inr ⟨_, rfl, rfl⟩

/-- What a read may do. -/
def readPoint (userId : String) (_ : List Ev) : Cmd → Prop
  | .redisHgetall key => key = PermissionCache.cacheKey userId
  | .httpGetPermissions user => user = userId
  | .redisHset key _ => key = PermissionCache.cacheKey userId
  | _ => False

/-- A read returns a cached list or a fetched one. -/
def Served (userId : String) (trace : List Ev) (r : Except Exn (List String)) : Prop :=
  ∀ codes, r = .ok codes →
    (∃ cached, (⟨.redisHgetall (PermissionCache.cacheKey userId), .ok (some cached)⟩ : Ev) ∈ trace ∧
      cached.permissions = codes) ∨
    ∃ reply, (⟨.httpGetPermissions userId, .ok reply⟩ : Ev) ∈ trace ∧ reply.status = 200 ∧
      reply.data = some codes

theorem served_error {userId : String} (trace : List Ev) (e : Exn) :
    Served userId trace (.error e) :=
  fun _ impossible => nomatch impossible

theorem along_fetch {userId permVersion : String} {trace : List Ev} :
    Along (readPoint userId) (Served userId) trace
      (PermissionProvider.fetch userId permVersion) := by
  refine along_await_bind rfl served_error fun reply => ?_
  by_cases status : reply.status = 200
  · simp only [status, ne_eq, not_true_eq_false, if_false]
    cases data : reply.data with
    | none => exact served_error _ _
    | some codes =>
      refine along_await_bind rfl served_error fun _ => ?_
      rintro _ ⟨⟩
      exact .inr ⟨reply, List.mem_cons_of_mem _ List.mem_cons_self, status, data⟩
  · simp only [status, ne_eq, not_false_eq_true, if_true]
    exact served_error _ _

theorem along_getPermissions {userId permVersion : String} :
    Along (readPoint userId) (Served userId) []
    (PermissionProvider.getPermissions userId permVersion) := by
  have missed : ∀ trace, Along (readPoint userId) (Served userId) trace
      (tryCatch (PermissionProvider.fetch userId permVersion) fun error =>
        throw (PermissionProvider.failure error)) :=
    fun trace => along_rethrow served_error along_fetch
  refine along_bind.mpr (along_await_bind rfl (fun _ _ => served_error _ _) fun found => ?_)
  cases found with
  | none => exact missed _
  | some cached =>
    simp only [Prog.pure_eq, along_done]
    by_cases version : cached.permVersion = permVersion
    · simp only [version, ne_eq, not_true_eq_false, if_false]
      by_cases hit : cached.permissions.length > 0
      · simp only [hit, if_true]
        rintro codes ⟨⟩
        exact .inl ⟨cached, List.mem_cons_self, rfl⟩
      · simp only [hit, if_false]
        exact missed _
    · simp only [version, ne_eq, not_false_eq_true, if_true]
      exact missed _

/-- Where a call may stand. -/
def callPoint : Call → List Ev → Cmd → Prop
  | .unassignRole userId _ => unassignPoint userId
  | .getPermissions userId _ => readPoint userId
  | _ => fun _ _ => True

def returnPoint : Call → List Ev → Except Exn Reply → Prop
  | .unassignRole userId _ => Emptied userId
  | .getPermissions userId _ =>
      fun trace r => ∀ codes, r = .ok (.permissions codes) → Served userId trace (.ok codes)
  | _ => fun _ _ => True

theorem along_body (q : Call) : Along (callPoint q) (returnPoint q) [] (body q) := by
  have free : ∀ {p : Action Reply} {trace : List Ev}, Along (fun _ _ => True)
      (fun _ _ => True) trace p := by
    intro p
    induction p with
    | done r => intro trace; trivial
    | await c k ih => exact fun {trace} => ⟨trivial, fun r => ih r⟩
  cases q with
  | unassignRole userId roleName =>
    refine along_bind.mpr (along_unassignRole.mono
      (fun _ _ point => point) fun trace r emptied => ?_)
    cases r with
    | error e => exact emptied_error _ _
    | ok a => exact fun _ _ => emptied a rfl
  | getPermissions userId permVersion =>
    refine along_bind.mpr (along_getPermissions.mono
      (fun _ _ point => point) fun trace r served => ?_)
    cases r with
    | error e => exact fun codes impossible => nomatch impossible
    | ok codes =>
      rintro _ ⟨⟩
      exact served
  | create dto => exact free
  | update id dto => exact free
  | remove id => exact free
  | assignRole userId roleName => exact free

end Points

section Effects

variable {s s' : Store} {choice : Choice}

/-- A command is rejected without effect, or does its work. -/
theorem exec_cases {redisUp : Bool} {c : Cmd} {r : Except Exn c.Resp}
    (executed : exec redisUp c choice s = some (r, s')) :
    (choice.fault = none ∧ execTotal c choice s = some (r, s')) ∨ (s' = s ∧ ∃ e, r = .error e) := by
  rcases exec_fault executed with done | ⟨e, _, same, failed, -⟩
  · exact .inl done
  · exact .inr ⟨same, e, failed⟩

/-- A read changes the cached list of its user, if anything. -/
theorem read_effect {userId : String} {trace : List Ev} {c : Cmd} {r : Except Exn c.Resp}
    (point : readPoint userId trace c) (executed : exec false c choice s = some (r, s')) :
    s' = s ∨ ∃ hash, c = .redisHset (PermissionCache.cacheKey userId) hash ∧ choice.fault = none ∧
        s' = s.hset (PermissionCache.cacheKey userId) hash := by
  rcases exec_cases executed with ⟨answered, done⟩ | ⟨same, _⟩
  · cases c with
    | redisHgetall key =>
      obtain ⟨_, rfl⟩ := Prod.mk.inj (Option.some.inj done)
      exact .inl rfl
    | httpGetPermissions user =>
      simp only [execTotal] at done
      split at done <;>
        (obtain ⟨_, rfl⟩ := Prod.mk.inj (Option.some.inj done)
         exact .inl rfl)
    | redisHset key hash =>
      obtain ⟨_, rfl⟩ := Prod.mk.inj (Option.some.inj done)
      cases point
      exact .inr ⟨hash, rfl, answered, rfl⟩
    | _ => contradiction
  · exact .inl same

theorem exec_hset {key : String} {hash : PermissionHash} {a : Unit}
    (executed : exec false (.redisHset key hash) choice s = some (.ok a, s')) :
    s' = s.hset key hash := by
  rcases exec_cases executed with ⟨_, done⟩ | ⟨_, _, impossible⟩
  · exact (Prod.mk.inj (Option.some.inj done)).2.symm
  · contradiction

theorem exec_exists {key : String} {found : Bool}
    (executed : exec false (.redisExists key) choice s = some (.ok found, s')) :
    s' = s ∧ found = (s.hgetall key).isSome := by
  rcases exec_cases executed with ⟨_, done⟩ | ⟨_, _, impossible⟩
  · obtain ⟨answer, rfl⟩ := Prod.mk.inj (Option.some.inj done)
    exact ⟨rfl, (Except.ok.inj answer).symm⟩
  · contradiction

theorem exec_hgetall {key : String} {cached : Option PermissionHash}
    (executed : exec false (.redisHgetall key) choice s = some (.ok cached, s')) :
    s' = s ∧ cached = s.hgetall key := by
  rcases exec_cases executed with ⟨_, done⟩ | ⟨_, _, impossible⟩
  · obtain ⟨answer, rfl⟩ := Prod.mk.inj (Option.some.inj done)
    exact ⟨rfl, (Except.ok.inj answer).symm⟩
  · contradiction

/-- What the auth service answers with status 200 is current. -/
theorem exec_httpGetPermissions {userId : String} {reply : HttpReply}
    (executed : exec false (.httpGetPermissions userId) choice s = some (.ok reply, s'))
    (status : reply.status = 200) :
    s' = s ∧ reply.data = some (collect (s.db.codesByRole userId)) := by
  rcases exec_cases executed with ⟨_, done⟩ | ⟨_, _, impossible⟩
  · simp only [execTotal] at done
    split at done
    · rename_i other filtered
      obtain ⟨answer, rfl⟩ := Prod.mk.inj (Option.some.inj done)
      cases Except.ok.inj answer
      have different : reply.status ≠ 200 := by
        simpa using (Option.filter_eq_some_iff.mp filtered).2
      exact absurd status different
    · obtain ⟨answer, rfl⟩ := Prod.mk.inj (Option.some.inj done)
      exact ⟨rfl, by rw [← Except.ok.inj answer]⟩
  · contradiction

end Effects

/-- The cached list of the user holds granted codes only. -/
def Fresh (userId : String) (s : Store) : Prop :=
  ∀ cached, s.hgetall (PermissionCache.cacheKey userId) = some cached →
    ¬ StaleList s.db userId cached.permissions

theorem fresh_empty {userId : String} {s : Store} {hash : PermissionHash}
    (empty : hash.permissions = []) :
    Fresh userId (s.hset (PermissionCache.cacheKey userId) hash) := by
  intro cached found
  rw [Store.hgetall_hset, if_pos rfl] at found
  cases Option.some.inj found
  rw [empty]
  exact fun ⟨code, found, _⟩ => List.not_mem_nil found

/-- The invariant of a removal: once it has returned, the cached list is fresh. -/
structure RemovalInv (userId : String) (pool : RolePool) : Prop where
  scope : ∀ t th, pool.thread? t = some th →
    (∃ roleName, th.request = .unassignRole userId roleName) ∨ ∃ user permVersion,
    th.request = .getPermissions user permVersion
  single : ∀ t th t' th', pool.thread? t = some th → pool.thread? t' = some th' →
    isUnassign th.request = true → isUnassign th'.request = true → t = t'
  cleared : ∀ t th reply, pool.thread? t = some th → isUnassign th.request = true →
    th.result? = some (.ok reply) → Fresh userId pool.store

abbrev Removes (userId : String) (pool : RolePool) : Prop :=
  rolesSystem.Reachable (Conforms userId) (fun _ => True) pool

section Preserved

variable {userId : String} {pool pool' : RolePool}

theorem isUnassign_scope {th : RoleThread} (unassigns : isUnassign th.request = true)
    (scope : (∃ roleName, th.request = .unassignRole userId roleName) ∨
      ∃ user permVersion, th.request = .getPermissions user permVersion) :
    ∃ roleName, th.request = .unassignRole userId roleName := by
  rcases scope with unassign | ⟨user, permVersion, reads⟩
  · exact unassign
  · rw [reads] at unassigns
    contradiction

theorem RemovalInv.spawn {q : Call} (inv : RemovalInv userId pool)
    (inScope : InScope userId pool (.spawn q)) :
    RemovalInv userId (pool.add ⟨q, [], body q⟩) := by
  have kinds : (∃ roleName, q = .unassignRole userId roleName) ∧
      (∀ th ∈ pool.threads, isUnassign th.request = false) ∨
      ∃ user permVersion, q = .getPermissions user permVersion := by
    cases q with
    | unassignRole user roleName =>
      obtain ⟨rfl, none⟩ := inScope
      exact .inl ⟨⟨roleName, rfl⟩, none⟩
    | getPermissions user permVersion => exact .inr ⟨user, permVersion, rfl⟩
    | _ => contradiction
  have alone : isUnassign q = true → ∀ t th, pool.thread? t = some th →
      isUnassign th.request = false := by
    intro unassigns t th found
    rcases kinds with ⟨_, none⟩ | ⟨user, permVersion, rfl⟩
    · exact none th (Pool.mem_threads.mpr ⟨t, found⟩)
    · contradiction
  constructor
  · intro t th found
    rcases Pool.add_cases found with ⟨_, rfl⟩ | old
    · exact kinds.imp_left And.left
    · exact inv.scope t th old
  · intro t th t' th' found found' unassigns unassigns'
    rcases Pool.add_cases found with ⟨new, rfl⟩ | old <;>
      rcases Pool.add_cases found' with ⟨new', rfl⟩ | old'
    · exact new.trans new'.symm
    · rw [alone unassigns t' th' old'] at unassigns'
      contradiction
    · rw [alone unassigns' t th old] at unassigns
      contradiction
    · exact inv.single t th t' th' old old' unassigns unassigns'
  · intro t th reply found unassigns returned
    rcases Pool.add_cases found with ⟨_, rfl⟩ | old
    · rcases kinds with ⟨⟨roleName, rfl⟩, _⟩ | ⟨user, permVersion, rfl⟩ <;> contradiction
    · exact inv.cleared t th reply old unassigns returned

section Ran

variable {t : Nat} {choice : Choice} {th : RoleThread} {c : Cmd} {r : Except Exn c.Resp} {s : Store}

/-- The removal has just returned. -/
theorem fresh_of_return {k : Except Exn c.Resp → Action Reply} {reply : Reply}
    (emptied : Emptied userId (⟨c, r⟩ :: th.trace : List Ev) (.ok reply : Except Exn Reply))
    (executed : exec false c choice pool.store = some (r, s)) : Fresh userId s := by
  rcases emptied reply rfl with absent | ⟨hash, empty, wrote⟩
  · cases Option.some.inj absent
    obtain ⟨rfl, missing⟩ := exec_exists executed
    intro cached found
    rw [found] at missing
    contradiction
  · cases Option.some.inj wrote
    rw [exec_hset executed]
    exact fresh_empty empty

/-- A read that moves after the removal has returned keeps the cached list fresh. -/
theorem fresh_of_read {user : String} {permVersion : String} {k : Except Exn c.Resp → Action Reply}
    (fresh : Fresh userId pool.store) (reads : th.request = .getPermissions user permVersion)
    (found : pool.thread? t = some th) (next : th.next? = some c)
    (point : readPoint user th.trace c)
    (uncovered : ∀ other ∈ pool.threads, awaitsClear userId other = false)
    (met : WritesCovered userId pool (.run t choice))
    (executed : exec false c choice pool.store = some (r, s)) :
    s.db = pool.store.db ∧ Fresh userId s := by
  rcases read_effect point executed with rfl | ⟨hash, rfl, answered, rfl⟩
  · exact ⟨rfl, fresh⟩
  · refine ⟨rfl, fun cached cachedNow stale => ?_⟩
    rw [Store.hgetall_hset] at cachedNow
    by_cases same : user = userId
    · subst same
      rw [if_pos rfl] at cachedNow
      cases Option.some.inj cachedNow
      have caches : caches? user th = some hash.permissions := by
        rw [caches?, reads, next]
        exact if_pos rfl
      obtain ⟨other, started, waits⟩ := met th found answered _ caches stale
      rw [uncovered other started] at waits
      contradiction
    · rw [if_neg fun key => same (cacheKey_inj key).symm] at cachedNow
      exact fresh cached cachedNow stale

/-- A removal that has returned is not about to look at the cache. -/
theorem RemovalInv.uncovered (inv : RemovalInv userId pool) {reply : Reply}
    (found : pool.thread? t = some th) (unassigns : isUnassign th.request = true)
    (returned : th.result? = some (.ok reply)) :
    ∀ other ∈ pool.threads, awaitsClear userId other = false := by
  intro other started
  obtain ⟨u, found'⟩ := Pool.mem_threads.mp started
  by_cases same : isUnassign other.request = true
  · obtain rfl := inv.single u other t th found' found same unassigns
    cases Option.some.inj (found.symm.trans found')
    have ended : th.next? = none := Thread.next?_none returned
    unfold awaitsClear
    rw [ended]
    split <;> first | contradiction | rfl
  · unfold awaitsClear
    split
    · rename_i request _
      rw [request] at same
      exact absurd rfl same
    · rename_i request _
      rw [request] at same
      exact absurd rfl same
    · rfl

theorem RemovalInv.run (inv : RemovalInv userId pool) (reachable : Removes userId pool)
    (found : pool.thread? t = some th) {k : Except Exn c.Resp → Action Reply}
    (next : th.next? = some c)
    (reachable' : Removes userId (({ pool with store := s } : RolePool).set t ⟨th.request,
      ⟨c, r⟩ :: th.trace, k r⟩))
    (met : WritesCovered userId pool (.run t choice))
    (executed : exec false c choice pool.store = some (r, s)) :
    RemovalInv userId (({ pool with store := s } : RolePool).set t ⟨th.request,
      ⟨c, r⟩ :: th.trace, k r⟩) := by
  -- the requests stay
  have before : ∀ u uth, (({ pool with store := s } : RolePool).set t ⟨th.request, ⟨c, r⟩ ::
      th.trace, k r⟩).thread? u =
      some uth → ∃ old, pool.thread? u = some old ∧ old.request = uth.request ∧
      (u ≠ t → old = uth) := by
    intro u uth uFound
    rcases Pool.set_cases uFound with ⟨rfl, rfl⟩ | ⟨_, old⟩
    · exact ⟨th, found, rfl, fun other => absurd rfl other⟩
    · exact ⟨uth, old, rfl, fun _ => rfl⟩
  constructor
  · intro u uth uFound
    obtain ⟨old, oldFound, same, _⟩ := before u uth uFound
    rw [← same]
    exact inv.scope u old oldFound
  · intro u uth u' uth' uFound uFound' unassigns unassigns'
    obtain ⟨old, oldFound, same, _⟩ := before u uth uFound
    obtain ⟨old', oldFound', same', _⟩ := before u' uth' uFound'
    rw [← same] at unassigns
    rw [← same'] at unassigns'
    exact inv.single u old u' old' oldFound oldFound' unassigns unassigns'
  · intro u uth reply uFound unassigns returned
    rcases Pool.set_cases uFound with ⟨rfl, rfl⟩ | ⟨other, old⟩
    · obtain ⟨roleName, request⟩ := isUnassign_scope unassigns (inv.scope u th found)
      have emptied := reachable'.returned along_body uFound returned
      rw [request] at emptied
      exact fresh_of_return (k := k) emptied executed
    · have fresh := inv.cleared u uth reply old unassigns returned
      have uncovered := inv.uncovered old unassigns returned
      rcases inv.scope t th found with ⟨roleName, request⟩ | ⟨user, permVersion, request⟩
      · have same := inv.single u uth t th old found unassigns (by rw [request]; rfl)
        exact absurd same other
      · have point := reachable.point along_body found next
        rw [request] at point
        exact (fresh_of_read (k := k) fresh request found next point uncovered met executed).2

end Ran
end Preserved

theorem removal_invariant {userId : String} {pool : RolePool} (reachable : Removes userId pool) :
    RemovalInv userId pool := by
  refine reachable.invariant (P := RemovalInv userId) ?_ ?_
  · intro s _
    have idle : ∀ t th, (System.idle s : RolePool).thread? t ≠ some th := by
      intro t th found
      cases found
    constructor
    · exact fun t th found => absurd found (idle t th)
    · exact fun t th _ _ found => absurd found (idle t th)
    · exact fun t th _ found => absurd found (idle t th)
  · intro pool label pool' before after inv met effect
    cases effect with
    | spawn q => exact inv.spawn met.1
    | run t choice th c k r s found awaits executed =>
      exact inv.run before found (by rw [Thread.next?, awaits]) after met.2 executed
    | act a => cases a

section Later

variable {userId : String} {db : Db}

/-- What a read has seen of the user's permissions is granted. -/
structure SeesGranted (userId : String) (db : Db) (trace : List Ev) : Prop where
  cached : ∀ cached, (⟨.redisHgetall (PermissionCache.cacheKey userId), .ok (some cached)⟩ : Ev) ∈
    trace → ∀ code ∈ cached.permissions, db.Grants userId code
  fetched : ∀ reply codes, (⟨.httpGetPermissions userId, .ok reply⟩ : Ev) ∈ trace →
    reply.status = 200 → reply.data = some codes → ∀ code ∈ codes, db.Grants userId code

theorem seesGranted_nil : SeesGranted userId db [] where
  cached _ found := absurd found List.not_mem_nil
  fetched _ _ found := absurd found List.not_mem_nil

/-- The state after the removal `t` has returned: the database stays, and the calls that
started since, numbered from `first`, have seen granted codes only. -/
structure Removed (userId : String) (db : Db) (t first : Nat) (pool : RolePool) : Prop where
  returned : ∃ th reply, pool.thread? t = some th ∧ isUnassign th.request = true ∧
    th.result? = some (.ok reply)
  database : pool.store.db = db
  begun : first ≤ pool.threads.length
  late : ∀ u th, first ≤ u → pool.thread? u = some th → SeesGranted userId db th.trace

theorem SeesGranted.step {pool : RolePool} {choice : Choice} {trace : List Ev} {c : Cmd}
    {r : Except Exn c.Resp} {s : Store} (sees : SeesGranted userId pool.store.db trace)
    (fresh : Fresh userId pool.store) (executed : exec false c choice pool.store = some (r, s)) :
    SeesGranted userId pool.store.db (⟨c, r⟩ :: trace) where
  cached := by
    intro cached found code inList
    rcases List.mem_cons.mp found with now | before
    · cases now
      obtain ⟨_, here⟩ := exec_hgetall executed
      exact Decidable.byContradiction fun missing => fresh cached here.symm ⟨code, inList, missing⟩
    · exact sees.cached cached before code inList
  fetched := by
    intro reply codes found status data code inList
    rcases List.mem_cons.mp found with now | before
    · cases now
      obtain ⟨_, current⟩ := exec_httpGetPermissions executed status
      cases Option.some.inj (data.symm.trans current)
      exact mem_collect.mp inList
    · exact sees.fetched reply codes before status data code inList

theorem Removed.step {t first : Nat} {pool pool' : RolePool} {label : Step}
    (removed : Removed userId db t first pool) (reachable : Removes userId pool)
    (met : Conforms userId pool label) (effect : System.Effect rolesSystem pool label pool') :
    Removed userId db t first pool' := by
  obtain ⟨⟨th₀, reply, found₀, unassigns, returned⟩, rfl, begun, late⟩ := removed
  have inv := removal_invariant reachable
  have fresh := inv.cleared t th₀ reply found₀ unassigns returned
  cases effect with
  | spawn q =>
    refine ⟨⟨th₀, reply, Pool.add_old _ found₀, unassigns, returned⟩, rfl, ?_,
      fun u uth started uFound => ?_⟩
    · simp only [Pool.add, List.length_append]
      omega
    · rcases Pool.add_cases uFound with ⟨_, rfl⟩ | old
      · exact seesGranted_nil
      · exact late u uth started old
  | act a => cases a
  | run u choice th c k r s found awaits executed =>
    have next : th.next? = some c := by rw [Thread.next?, awaits]
    have moves : u ≠ t := by
      rintro rfl
      cases Option.some.inj (found.symm.trans found₀)
      rw [Thread.next?_none returned] at next
      contradiction
    obtain ⟨user, permVersion, request⟩ : ∃ user permVersion,
      th.request = .getPermissions user permVersion := by
      rcases inv.scope u th found with ⟨roleName, request⟩ | reads
      · exact absurd (inv.single u th t th₀ found found₀ (by rw [request]; rfl) unassigns) moves
      · exact reads
    have point := reachable.point along_body found next
    rw [request] at point
    have uncovered := inv.uncovered found₀ unassigns returned
    obtain ⟨same, _⟩ :=
      fresh_of_read (k := k) fresh request found next point uncovered met.2 executed
    refine ⟨⟨th₀, reply, (Pool.set_other _ _ moves.symm).trans found₀, unassigns,
      returned⟩, same, ?_, ?_⟩
    · simpa only [Pool.set, List.length_set] using begun
    · intro v vth started vFound
      rcases Pool.set_cases vFound with ⟨rfl, rfl⟩ | ⟨_, old⟩
      · exact (late v th started found).step fresh executed
      · exact late v vth started old

/-- No revoked permission is served. After a removal of a role of the user has returned,
a read that starts later returns codes that the remaining roles of the user grant, in
every run that meets the condition, whatever the cache held and whatever version the
reads carry. -/
theorem revoked_permissions_not_served {pool later : RolePool} {t u : Nat} {th th' : RoleThread}
    {roleName : String} {reply : Reply} {permVersion : String} {codes : List String}
    (reachable : rolesSystem.Reachable (Conforms userId) (fun _ => True) pool)
    (found : pool.thread? t = some th) (unassigns : th.request = .unassignRole userId roleName)
    (returned : th.result? = some (.ok reply))
    (run : rolesSystem.Run (Conforms userId) pool later)
    (started : pool.threads.length ≤ u) (found' : later.thread? u = some th')
    (reads : th'.request = .getPermissions userId permVersion)
    (answered : th'.result? = some (.ok (.permissions codes))) :
    ∀ code ∈ codes, later.store.db.Grants userId code := by
  have start : Removed userId pool.store.db t pool.threads.length pool := by
    refine ⟨⟨th, reply, found, by rw [unassigns]; rfl, returned⟩, rfl, Nat.le_refl _,
      fun v vth late vFound => ?_⟩
    obtain ⟨bound, _⟩ := List.getElem?_eq_some_iff.mp vFound
    omega
  have both : Removes userId later ∧ Removed userId pool.store.db t pool.threads.length later := by
    refine System.Run.invariant (P := fun pool' => Removes userId pool' ∧
      Removed userId pool.store.db t pool.threads.length pool') ?_ run ⟨reachable, start⟩
    rintro pool₁ label pool₂ ⟨reachable, removed⟩ met stepped
    exact ⟨reachable.head stepped met, removed.step reachable met (System.step_effect stepped)⟩
  obtain ⟨reachable', removed⟩ := both
  have served := reachable'.returned along_body found' answered
  rw [reads] at served
  have sees := removed.late u th' started found'
  rw [removed.database]
  rcases served codes rfl codes rfl with ⟨cached, seen, rfl⟩ | ⟨reply', seen, status, data⟩
  · exact sees.cached cached seen
  · exact sees.fetched reply' codes seen status data

end Later
section Sample

def moves (t n : Nat) : List Step := List.replicate n (.run t {})

/-- A read fetches, and the removal runs to its end. -/
def fetchedSteps : List Step :=
  .spawn (.getPermissions aliceId "1") :: moves 0 2 ++
    .spawn (.unassignRole aliceId "refunder") :: moves 1 5

/-- Then the read caches what it has fetched, and another one starts. -/
def cachedSteps : List Step := moves 0 1 ++ .spawn (.getPermissions aliceId "1") :: moves 2 1

/-- The removal ends after the cached list is written, and empties it. -/
def emptiedSteps : List Step :=
  .spawn (.getPermissions aliceId "1") :: moves 0 2 ++
    .spawn (.unassignRole aliceId "refunder") :: moves 1 4 ++
    moves 0 1 ++ moves 1 2

def removed (pool : RolePool) : Bool :=
  match pool.thread? 1 with
  | some ⟨.unassignRole aliceId "refunder", _, .done (.ok _)⟩ => pool.threads.length ≤ 2
  | _ => false

def readCodes (pool : RolePool) : Option (List String) :=
  match pool.thread? 2 with
  | some ⟨.getPermissions aliceId "1", _, .done (.ok (.permissions codes))⟩ => some codes
  | _ => none

/-- After the schedule `before` the removal has returned, and after the schedule `after` a
read that started later has returned. -/
def ReadAfter (cond : RolePool → Step → Prop) (pool later : RolePool)
    (codes : List String) : Prop :=
  ∃ th reply th', rolesSystem.Reachable cond (fun _ => True) pool ∧
  pool.thread? 1 = some th ∧ th.request = .unassignRole aliceId "refunder" ∧
    th.result? = some (.ok reply) ∧
  rolesSystem.Run cond pool later ∧ pool.threads.length ≤ 2 ∧ later.thread? 2 = some th' ∧
  th'.request = .getPermissions aliceId "1" ∧ th'.result? = some (.ok (.permissions codes))

def replayRead (cond : RolePool → Step → Prop) [∀ pool label, Decidable (cond pool label)]
    (before after : List Step) (test : List String → RolePool → Bool) : Bool :=
  (rolesSystem.replay cond (System.idle { db := refunder }) before).any fun pool => removed pool &&
    (rolesSystem.replay cond pool after).any fun later =>
      (readCodes later).any fun codes => test codes later

theorem readAfter_of_replay {cond : RolePool → Step → Prop}
    [∀ pool label, Decidable (cond pool label)] {before after : List Step}
    {test : List String → RolePool → Bool}
    (tested : replayRead cond before after test = true) :
    ∃ pool later codes, ReadAfter cond pool later codes ∧ test codes later = true := by
  obtain ⟨pool, replayed, rest⟩ := (Option.any_eq_true ..).mp tested
  obtain ⟨ended, rest⟩ := (Bool.and_eq_true ..).mp rest
  obtain ⟨later, replayed', rest⟩ := (Option.any_eq_true ..).mp rest
  obtain ⟨codes, read, passed⟩ := (Option.any_eq_true ..).mp rest
  unfold removed at ended
  unfold readCodes at read
  split at ended
  · rename_i found
    split at read
    · rename_i found'
      cases Option.some.inj read
      exact ⟨pool, later, codes,
        ⟨_, _, _, ⟨_, trivial, System.run_replay replayed⟩, found, rfl, rfl,
        System.run_replay replayed', of_decide_eq_true ended, found', rfl, rfl⟩, passed⟩
    · contradiction
  · contradiction

/-- A read that fetched before the transaction caches the removed code after the removal
has returned, and a read that starts then is served it. -/
theorem revoked_permission_served : ∃ pool later codes,
    ReadAfter (InScope aliceId) pool later codes ∧
    "order:refund" ∈ codes ∧ ¬ later.store.db.Grants aliceId "order:refund" := by
  have tested : replayRead (InScope aliceId) fetchedSteps cachedSteps (fun codes later =>
      codes.contains "order:refund" &&
        !decide (later.store.db.Grants aliceId "order:refund")) = true := by
    decide +kernel
  obtain ⟨pool, later, codes, read, served⟩ := readAfter_of_replay tested
  simp only [Bool.and_eq_true, List.contains_iff_mem, Bool.not_eq_eq_eq_not, Bool.not_true,
    decide_eq_false_iff_not] at served
  exact ⟨pool, later, codes, read, served⟩

/-- Where the write comes before the removal looks at the cache, the later read is served
what the user still has. -/
theorem revoked_permissions_not_served_emptied :
    ∃ pool later codes, ReadAfter (Conforms aliceId) pool later codes ∧
    codes = [] ∧ ∀ code ∈ codes, later.store.db.Grants aliceId code := by
  have tested : replayRead (Conforms aliceId) emptiedSteps
      (.spawn (.getPermissions aliceId "1") :: moves 2 3)
      (fun codes _ => codes = []) = true := by decide +kernel
  obtain ⟨pool, later, codes, read, empty⟩ := readAfter_of_replay tested
  obtain ⟨th, reply, th', reachable, found, unassigns, returned, run, started, found', reads,
    answered⟩ := read
  exact ⟨pool, later, codes, ⟨th, reply, th', reachable, found, unassigns, returned, run,
    started, found', reads, answered⟩, of_decide_eq_true empty,
    revoked_permissions_not_served reachable found unassigns returned run
      started found' reads answered⟩

end Sample
end CorePlatform.Roles
