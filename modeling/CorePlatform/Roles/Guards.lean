import CorePlatform.Auth.Controller
import CorePlatform.Roles.System

/-! The way of a role request from the gateway's `client/roles` routes through the guards
of the auth service to `RolesService`. -/
namespace CorePlatform.Roles
open Async
open Auth (Config Request CombinedJwtStrategy.authenticate)

/-- `PermissionCode.ADMIN_MANAGE_ROLES` -/
def ADMIN_MANAGE_ROLES : String := "admin:manage-roles"

/-- The requests of `RolesController` that change roles. -/
inductive RoleRequest where
  | create (dto : CreateRoleDto)
  | update (id : String) (dto : UpdateRoleDto)
  | remove (id : String)
  | assignRole (userId roleName : String)
  | unassignRole (userId roleName : String)

/-- What the decorators of a handler leave for the guards. The class has none. -/
structure Metadata where
  isPublic : Bool := false
  requiredPermissions : List String := []
  tokenType : Option String := none

def RoleRequest.metadata : RoleRequest → Metadata
  | .create _ => { requiredPermissions := [ADMIN_MANAGE_ROLES], tokenType := some "internal" }
  | .update .. | .remove _ | .assignRole .. | .unassignRole .. => {}

def RoleRequest.call : RoleRequest → Call
  | .create dto => .create dto
  | .update id dto => .update id dto
  | .remove id => .remove id
  | .assignRole userId roleName => .assignRole userId roleName
  | .unassignRole userId roleName => .unassignRole userId roleName

def forbidden (message : String) : Exn := .http 403 message

/-- `CombinedJwtAuthGuard` -/
def combinedJwtAuthGuard (cfg : Config) (req : Request) : Action Js := do
  let now ← call .now
  match CombinedJwtStrategy.authenticate cfg req.authorization now with
  | .ok user => return user
  | .error e => throw e

namespace PermissionGuard

/-- `(user?.name ?? 0) !== 0 ? user?.name : user?.data?.name` -/
def principalField (user : Js) (name : String) : Js :=
  if (user.get name).orElse (.num "0") ≠ .num "0" then user.get name else (user.get "data").get name

def canActivate (metadata : Metadata) (user : Js) : Action Unit := do
  if metadata.isPublic then return ()
  if metadata.requiredPermissions = [] then return ()
  if user.get "type" = .str "internal" then return ()
  let userId := principalField user "userId"
  let permVersion := principalField user "permVersion"
  if !userId.truthy || permVersion = .undefined then
    throw (forbidden "Missing user context for permission check")
  let userPermissions ← PermissionProvider.getPermissions userId.toText permVersion.toText
  if !PermissionProvider.hasPermission userPermissions metadata.requiredPermissions then
    throw (forbidden ("Insufficient permissions. Required: [" ++
      ", ".intercalate metadata.requiredPermissions ++ "]"))

end PermissionGuard

def TokenTypeGuard.canActivate (metadata : Metadata) (user : Js) : Action Unit :=
  if metadata.isPublic then return ()
  else match metadata.tokenType with
  | none => return ()
  | some requiredType =>
    if !(user.get "type").truthy || user.get "type" ≠ .str requiredType then
      throw (forbidden "Invalid token type for this endpoint")
    else return ()

/-- The guards of the application in the order of their registration. `RateLimiterGuard`,
the second one, has no rule on these handlers. -/
def guards (cfg : Config) (q : RoleRequest) (req : Request) : Action Js := do
  let user ← combinedJwtAuthGuard cfg req
  PermissionGuard.canActivate q.metadata user
  TokenTypeGuard.canActivate q.metadata user
  return user

/-- `RolesController` -/
def handle (cfg : Config) (q : RoleRequest) (req : Request) : Action Reply := do
  let _ ← guards cfg q req
  body q.call

namespace RoleClientService

/-- `signInternalToken({})` -/
def signInternalToken (cfg : Config) (now : Nat) : Token :=
  Jwt.sign { sub := some "gateway", data := .obj [] } cfg.internalSecret 300 cfg.internalIssuer
    cfg.internalAudience now

/-- The authorization header of the request to the auth service: the user's own, or an
internal token when the user sent none. -/
def getHeaders (cfg : Config) (authToken : Option Token) (now : Nat) : Request :=
  { authorization := some (authToken.getD (signInternalToken cfg now)) }

end RoleClientService

/-- A request to a `client/roles` route, as it arrives at the auth service. -/
def sendThroughGateway (cfg : Config) (q : RoleRequest) (req : Request) : Action Reply := do
  let now ← call .now
  handle cfg q (RoleClientService.getHeaders cfg req.authorization now)

end CorePlatform.Roles
