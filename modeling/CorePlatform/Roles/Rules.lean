import CorePlatform.Async.Pool
import CorePlatform.Roles.Service

/-! Rules for the commands of the role services, and what each of them leaves alone. -/
namespace CorePlatform.Roles
open Async Relational

variable {redisUp : Bool} {s t : Store}

/-- A command does its work, or is rejected with the error of the choice. -/
theorem exec_fault {c : Cmd} {choice : Choice} {r : Except Exn c.Resp}
    (executed : exec redisUp c choice s = some (r, t)) :
    (choice.fault = none ∧ execTotal c choice s = some (r, t)) ∨
      ∃ e, choice.fault = some e ∧ t = s ∧ r = .error e ∧ c.rejectable redisUp = true := by
  unfold exec at executed
  split at executed
  · rename_i quiet
    exact .inl ⟨quiet, executed⟩
  · rename_i e fault
    split at executed
    · rename_i rejectable
      obtain ⟨rfl, rfl⟩ := Prod.mk.inj (Option.some.inj executed)
      exact .inr ⟨e, fault, rfl, rfl, rejectable⟩
    · contradiction

/-- A command is rejected without effect, or does its work. -/
theorem responds_iff {c : Cmd} {r : Except Exn c.Resp} : (semantics redisUp).Responds c s r t ↔
    (c.rejectable redisUp = true ∧ ∃ e, r = .error e ∧ t = s) ∨
      ∃ choice, execTotal c choice s = some (r, t) := by
  constructor
  · rintro ⟨choice, executed⟩
    rcases exec_fault executed with ⟨-, done⟩ | ⟨e, -, rfl, rfl, rejectable⟩
    · exact .inr ⟨choice, done⟩
    · exact .inl ⟨rejectable, e, rfl, rfl⟩
  · rintro (⟨rejectable, e, rfl, rfl⟩ | ⟨choice, executed⟩)
    · exact ⟨{ fault := some e }, by simp only [semantics, exec, rejectable, if_true]⟩
    · refine ⟨{ choice with fault := none }, ?_⟩
      cases c <;> exact executed

theorem post_call {c : Cmd} {Q : Except Exn c.Resp → Store → Prop} :
    Post (semantics redisUp) (call c) s Q ↔ (c.rejectable redisUp = true → ∀ e, Q (.error e) s) ∧
      ∀ choice r t, execTotal c choice s = some (r, t) → Q r t := by
  constructor
  · intro holds
    constructor
    · exact fun rejectable e => holds _ _ (responds_iff.mpr (.inl ⟨rejectable, e, rfl, rfl⟩))
    · exact fun choice r t executed => holds _ _ (responds_iff.mpr (.inr ⟨choice, executed⟩))
  · rintro ⟨rejected, done⟩ r t responds
    rcases responds_iff.mp responds with ⟨rejectable, e, rfl, rfl⟩ | ⟨choice, executed⟩
    · exact rejected rejectable e
    · exact done choice r t executed

/-- A command whose work leaves nothing open. -/
theorem post_definite {c : Cmd} {r : Except Exn c.Resp}
    (definite : ∀ choice, execTotal c choice s = some (r, t))
    {Q : Except Exn c.Resp → Store → Prop} :
    Post (semantics redisUp) (call c) s Q ↔
    (c.rejectable redisUp = true → ∀ e, Q (.error e) s) ∧ Q r t := by
  rw [post_call]
  refine and_congr_right fun _ => ?_
  constructor
  · exact fun done => done {} r t (definite {})
  · intro done choice r' t' executed
    obtain ⟨rfl, rfl⟩ := Prod.mk.inj (Option.some.inj ((definite choice).symm.trans executed))
    exact done

/-- One command of a body whose failure is not handled on the spot. -/
theorem post_step {α : Type} {c : Cmd} {f : c.Resp → Action α} {Q : Except Exn α → Store → Prop}
    (rejected : ∀ e, Q (.error e) s)
    (done : ∀ choice r t, execTotal c choice s = some (r, t) → match r with
      | .error e => Q (.error e) t
      | .ok a => Post (semantics redisUp) (f a) t Q) :
    Post (semantics redisUp) (call c >>= f) s Q := by
  refine post_bind.mpr (post_call.mpr ⟨fun _ => rejected, fun choice r t executed => ?_⟩)
  have next := done choice r t executed
  cases r <;> exact next

/-- A query, which leaves the store alone. -/
theorem post_query {α : Type} {c : Cmd} {a : c.Resp} {f : c.Resp → Action α}
    {Q : Except Exn α → Store → Prop}
    (definite : ∀ choice, execTotal c choice s = some (.ok a, s)) (rejected : ∀ e, Q (.error e) s)
    (next : Post (semantics redisUp) (f a) s Q) : Post (semantics redisUp) (call c >>= f) s Q := by
  apply post_step rejected
  intro choice r t executed
  obtain ⟨rfl, rfl⟩ := Prod.mk.inj (Option.some.inj ((definite choice).symm.trans executed))
  exact next

/-- The commands of the database leave the cache alone. -/
theorem redis_kept {c : Cmd} {r : Except Exn c.Resp} (quiet : c.usesRedis = false)
    (responds : (semantics redisUp).Responds c s r t) : t.redis = s.redis := by
  rcases responds_iff.mp responds with ⟨_, _, _, rfl⟩ | ⟨choice, executed⟩
  · rfl
  · cases c with
    | redisHset | redisHgetall | redisExists => contradiction
    | _ =>
      simp only [execTotal, Store.with?] at executed
      repeat' split at executed
      all_goals first
        | (obtain ⟨_, rfl⟩ := Prod.mk.inj (Option.some.inj executed); rfl)
        | (obtain ⟨_, _, both⟩ := Option.map_eq_some_iff.mp executed
           obtain ⟨_, rfl⟩ := Prod.mk.inj both; rfl)

theorem uses_step {α : Type} {c : Cmd} {f : c.Resp → Action α}
    {allowed : Cmd → Prop} (this : allowed c)
    (next : ∀ a, (f a).Uses allowed) : (call c >>= f).Uses allowed :=
  Prog.Uses.bind ⟨this, fun _ => trivial⟩ next

/-- The commands on the tables of roles, outside the transactions. -/
def Cmd.Plain : Cmd → Prop
  | .assignTransaction .. | .unassignTransaction .. | .redisHset
      .. | .redisHgetall _ | .redisExists _
  | .httpGetPermissions _ => False
  | _ => True

section Plain

variable {id : String}

theorem plain_findOne : (RolesService.findOne id).Uses Cmd.Plain := by
  refine uses_step ?_ fun role => ?_
  · trivial
  · cases role <;> trivial

theorem plain_checkName {name : Option String} :
    (RolesService.checkName id name).Uses Cmd.Plain := by
  cases name with
  | none => trivial
  | some name =>
    refine uses_step ?_ fun existing => ?_
    · trivial
    · cases existing <;> trivial

theorem plain_replacePermissions {permissionIds : Field (List String)} :
    (RolesService.replacePermissions id permissionIds).Uses Cmd.Plain := by
  cases permissionIds with
  | undefined => trivial
  | null =>
    refine uses_step ?_ fun _ => ?_
    · trivial
    · trivial
  | value permissionIds =>
    refine uses_step ?_ fun _ => Prog.Uses.forEach (fun permissionId => ?_) permissionIds
    · trivial
    · exact ⟨trivial, fun _ => trivial⟩

theorem plain_update {dto : UpdateRoleDto} : (RolesService.update id dto).Uses Cmd.Plain := by
  refine Prog.Uses.bind plain_findOne fun _ => Prog.Uses.bind plain_checkName fun _ =>
    uses_step ?_ fun _ => ?_
  · trivial
  · exact Prog.Uses.bind plain_replacePermissions fun _ => plain_findOne

theorem plain_remove : (RolesService.remove id).Uses Cmd.Plain :=
  Prog.Uses.bind plain_findOne fun _ => uses_step trivial fun _ => trivial

theorem plain_create {dto : CreateRoleDto} : (RolesService.create dto).Uses Cmd.Plain := by
  refine uses_step ?_ fun existing => ?_
  · trivial
  · cases existing with
    | some role => trivial
    | none =>
      refine uses_step ?_ fun role => ?_
      · trivial
      · by_cases empty : dto.permissionIds.given?.getD [] = []
        · simp only [empty, ne_eq, not_true_eq_false, if_false]
          exact plain_findOne
        · simp only [empty, ne_eq, not_false_eq_true, if_true]
          refine uses_step ?_ fun existingIds => ?_
          · trivial
          · split
            · trivial
            · refine Prog.Uses.bind (Prog.Uses.forEach (fun permissionId => ?_) _) fun _ =>
                plain_findOne
              exact ⟨trivial, fun _ => trivial⟩

end Plain

theorem cacheKey_inj {userId userId' : String}
    (same : PermissionCache.cacheKey userId = PermissionCache.cacheKey userId') :
    userId = userId' := by
  unfold PermissionCache.cacheKey at same
  exact (String.append_right_inj _).mp ((String.append_left_inj _).mp same)

end CorePlatform.Roles
