import CorePlatform.Roles.Rules
import CorePlatform.Async.Pool

/-! The calls of the role services, one after the other or concurrently, over one database
and one cache. -/
namespace CorePlatform.Roles
open Async

inductive Call where
  | create (dto : CreateRoleDto)
  | update (id : String) (dto : UpdateRoleDto)
  | remove (id : String)
  | assignRole (userId roleName : String)
  | unassignRole (userId roleName : String)
  | getPermissions (userId permVersion : String)

inductive Reply where
  | role (detail : RoleDetail)
  | removed (id : String)
  | assigned (assigned : AssignedRole)
  | permissions (codes : List String)

def body : Call → Action Reply
  | .create dto => return .role (← RolesService.create dto)
  | .update id dto => return .role (← RolesService.update id dto)
  | .remove id => return .removed (← RolesService.remove id)
  | .assignRole userId roleName => return .assigned (← RolesService.assignRole userId roleName)
  | .unassignRole userId roleName => return .assigned (← RolesService.unassignRole userId roleName)
  | .getPermissions userId permVersion =>
    return .permissions (← PermissionProvider.getPermissions userId permVersion)

@[reducible] def rolesSystem : System Api Exn Call Reply Store where
  toSemantics := semantics false
  body := body
  Act := Empty
  act := nofun

abbrev Ev := Event Api Exn
abbrev RoleThread := Thread Api Exn Call Reply
abbrev RolePool := Pool Api Exn Call Reply Store
abbrev Step := Label Call rolesSystem.Choice rolesSystem.Act

/-- What a body keeps, its reply keeps. -/
theorem post_reply {α : Type} {redisUp : Bool} {s : Store} {p : Action α} {f : α → Reply}
    {P : Except Exn Reply → Store → Prop} :
    Post (semantics redisUp) (do return f (← p)) s P ↔
      Post (semantics redisUp) p s fun r t => P (r.map f) t := by
  refine post_bind.trans (iff_of_eq (congrArg _ (funext fun r => funext fun t => ?_)))
  cases r <;> rfl

end CorePlatform.Roles
