import CorePlatform.Roles.Store

/-! `RolesService`, with the `PermissionCache` and the `PermissionProvider` of the common
package. Logging is left out. A token's version is carried as its text, which is all that
the cache compares and stores. -/
namespace CorePlatform.Roles
open Async
open Auth (User)

abbrev Action := Prog Api Exn

def call (c : Cmd) : Action c.Resp := Prog.perform (I := Api) c

structure CreateRoleDto where
  name : String
  description : Field String := .undefined
  permissionIds : Field (List String) := .undefined

structure UpdateRoleDto where
  name : Field String := .undefined
  description : Field String := .undefined
  permissionIds : Field (List String) := .undefined

/-- The reply to an assignment and to its removal. -/
structure AssignedRole where
  userId : String
  roleName : String

namespace PermissionCache

def cacheKey (userId : String) : String := "permissions:user:" ++ userId ++ ":"

def set (userId permVersion : String) (permissions : List String) : Action Unit :=
  call (.redisHset (cacheKey userId) { permVersion, permissions })

def get (userId permVersion : String) : Action (List String) := do
  match ← call (.redisHgetall (cacheKey userId)) with
  | none => return []
  | some cached => return if cached.permVersion ≠ permVersion then [] else cached.permissions

def updatePermVersion (userId : String) (permVersion : Int) : Action Unit := do
  let found ← call (.redisExists (cacheKey userId))
  if found then set userId (toString permVersion) []

end PermissionCache

namespace PermissionProvider

def unavailable (message : String) : Exn := .http 503 message

/-- The `catch` clause of `getPermissions`: a transport error carries a code, any other
error comes from the cache. -/
def failure : Exn → Exn
  | .http status message => .http status message
  | .error (some "ECONNREFUSED") _ => unavailable "Auth Service is unavailable"
  | .error (some _) _ => unavailable "Network error when fetching permissions"
  | _ => .http 500 "Failed to fetch permissions"

/-- The permissions of the auth service, cached under the version of the caller's token. -/
def fetch (userId permVersion : String) : Action (List String) := do
  let response ← call (.httpGetPermissions userId)
  if response.status ≠ 200 then
    throw (unavailable ("Auth Service error: " ++ toString response.status ++
      " " ++ response.statusText))
  match response.data with
  | none => throw (unavailable "Invalid response format from Auth Service")
  | some permissions =>
    PermissionCache.set userId permVersion permissions
    return permissions

def getPermissions (userId permVersion : String) : Action (List String) := do
  let cached ← PermissionCache.get userId permVersion
  if cached.length > 0 then return cached
  tryCatch (fetch userId permVersion) fun error => throw (failure error)

def hasPermission (userPermissions requiredPermissions : List String) : Bool :=
  requiredPermissions.any (userPermissions.contains ·)

end PermissionProvider

namespace RolesService

def notFoundException (message : String) : Exn := .http 404 message
def conflictException (name : String) : Exn :=
  .http 409 ("Role with name '" ++ name ++ "' already exists")

/-- `error.message || fallback` -/
def messageOr (error : Exn) (fallback : String) : String :=
  if error.message = "" then fallback else error.message

def findOne (id : String) : Action RoleDetail := do
  match ← call (.roleFindById id) with
  | none => throw (notFoundException ("Role with id '" ++ id ++ "' not found"))
  | some role => return role

def create (dto : CreateRoleDto) : Action RoleDetail := do
  if (← call (.roleFindByName dto.name)).isSome then throw (conflictException dto.name)
  let role ← call (.roleCreate dto.name dto.description.given?)
  let permissionIds := dto.permissionIds.given?.getD []
  if permissionIds ≠ [] then
    let existingIds ← call (.permissionFindMany permissionIds)
    let missingIds := permissionIds.filter (· ∉ existingIds)
    if missingIds ≠ [] then
      throw (.service { message := "Some permissions do not exist: " ++ ", ".intercalate missingIds
                        statusCode := 400, code := ErrorCodes.NOT_FOUND })
    Prog.forEach (fun permissionId =>
      call (.rolePermissionUpsert role.id permissionId)) permissionIds
  findOne role.id

/-- Another role must not have the name, when one is given. -/
def checkName (id : String) (name : Option String) : Action Unit :=
  match name with
  | none => return ()
  | some name => do if (← call (.roleFindOther name id)).isSome then throw (conflictException name)

/-- The role's permissions become the given ones, one by one. -/
def replacePermissions (id : String) (permissionIds : Field (List String)) : Action Unit :=
  match permissionIds with
  | .undefined => return ()
  | .null => do
    -- `null` passes the test against `undefined`, and is not iterable
    call (.rolePermissionDeleteMany id)
    throw (.error none "dto.permissionIds is not iterable")
  | .value permissionIds => do
    call (.rolePermissionDeleteMany id)
    Prog.forEach (fun permissionId => call (.rolePermissionCreate id permissionId)) permissionIds

def update (id : String) (dto : UpdateRoleDto) : Action RoleDetail := do
  let _ ← findOne id
  checkName id dto.name.given?
  call (.roleUpdate id dto.name.given? dto.description)
  replacePermissions id dto.permissionIds
  findOne id

def remove (id : String) : Action String := do
  let _ ← findOne id
  call (.roleDelete id)
  return id

/-- `{ statusCode: error.statusCode || 500, code: error.code || ErrorCodes.INTERNAL }`, and the
message: what the `catch` clause of `assignRole` makes of an error. -/
def assignFailure (error : Exn) : ServiceError :=
  { message := messageOr error "Failed to assign role"
    statusCode := (error.statusCode?.filter (· ≠ 0)).getD 500
    code := (error.code?.filter (· ≠ "")).getD ErrorCodes.INTERNAL }

/-- The `catch` clause of `unassignRole`, which sets the code. -/
def unassignFailure (error : Exn) : ServiceError :=
  { message := messageOr error "Failed to unassign role"
    statusCode := (error.statusCode?.filter (· ≠ 0)).getD 500
    code := ErrorCodes.INTERNAL }

/-- The `try` block of `assignRole`. -/
def assignBlock (userId roleName : String) : Action AssignedRole := do
  match ← call (.userFindUnique userId) with
  | none => throw (notFoundException "User not found")
  | some user =>
  match ← call (.roleFindByName roleName) with
  | none => throw (notFoundException ("Role '" ++ roleName ++ "' not found"))
  | some role =>
  if (← call (.userRoleFindUnique userId role.id)).isSome then
    throw (.service { message := "User already has role '" ++ roleName ++ "'"
                      statusCode := 400, code := ErrorCodes.CONFLICT })
  call (.assignTransaction userId role.id (user.permVersion + 1))
  PermissionCache.updatePermVersion userId (user.permVersion + 1)
  return { userId, roleName }

def assignRole (userId roleName : String) : Action AssignedRole :=
  tryCatch (assignBlock userId roleName) fun error => throw (.service (assignFailure error))

/-- The `try` block of `unassignRole`. -/
def unassignBlock (userId roleName : String) : Action AssignedRole := do
  match ← call (.roleFindByName roleName) with
  | none =>
      throw (.service
        { message := "Role not found", statusCode := 404, code := ErrorCodes.NOT_FOUND })
  | some role =>
  match ← call (.userFindUnique userId) with
  | none =>
      throw (.service
        { message := "User not found", statusCode := 404, code := ErrorCodes.NOT_FOUND })
  | some user =>
  if (← call (.userRoleFindUnique userId role.id)).isNone then
    throw (.service { message := "User does not have role '" ++ roleName ++ "'"
                      statusCode := 400, code := ErrorCodes.NOT_FOUND })
  call (.unassignTransaction userId role.id (user.permVersion + 1))
  PermissionCache.updatePermVersion userId (user.permVersion + 1)
  return { userId, roleName }

def unassignRole (userId roleName : String) : Action AssignedRole :=
  tryCatch (unassignBlock userId roleName) fun error => throw (.service (unassignFailure error))

def getPermissionCodesForUser (userId : String) : Action (List String) := do
  return collect (← call (.userRoleFindManyCodes userId))

end RolesService
end CorePlatform.Roles
