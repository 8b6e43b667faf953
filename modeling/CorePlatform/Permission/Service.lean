import CorePlatform.Permission.Store

/-! `PermissionCache`, `PermissionProvider` and `PermissionGuard` of the common package, for
arbitrary principals and replies. The log lines are kept only where writing one can throw. -/
namespace CorePlatform.Permission
open Async

abbrev Action := Prog Api Failure

def call (c : Cmd) : Action c.Resp := Prog.perform (I := Api) c

def typeError (message : String) : Failure := .other { message }

/-- The value, or the exception where it is absent. -/
def orThrow {α : Type} (e : Failure) : Option α → Action α
  | some a => return a
  | none => throw e

/-- `${v}` -/
def template (v : Js) : Action String :=
  orThrow (typeError "Cannot convert object to primitive value") v.template?

namespace PermissionCache

def cacheKey (userId : String) : String := "permissions:user:" ++ userId ++ ":"

/-- `permVersion.toString()` -/
def versionText : Js → Action String
  | .undefined => throw (typeError "Cannot read properties of undefined (reading 'toString')")
  | .null => throw (typeError "Cannot read properties of null (reading 'toString')")
  | .obj fields =>
      orThrow (typeError "permVersion.toString is not a function") (Js.obj fields).template?
  | v => template v

/-- The entry that `set` writes for a list. -/
def entry (version : String) (permissions : List Js) : Hash where
  permVersion := some version
  permissions := (Js.arr permissions).stringify

def set (userId permVersion : Js) (permissions : List Js) : Action Unit := do
  let userId ← template userId
  let version ← versionText permVersion
  call (.hset (cacheKey userId) (entry version permissions))

/-- The list of an entry, or whatever else its text parses to. -/
def read (platform : Platform) (version : String) (cached : Hash) : Js :=
  match cached.permissions with
  | none | some "" => .arr []
  | some text =>
      if cached.permVersion ≠ some version then .arr [] else (platform.parse text).getD (.arr [])

def get (platform : Platform) (userId permVersion : Js) : Action Js := do
  let userId ← template userId
  match ← call (.hgetall (cacheKey userId)) with
  | none => return .arr []
  | some cached =>
    let version ← versionText permVersion
    return read platform version cached

def invalidate (userId : String) : Action Unit := call (.del (cacheKey userId))

def updatePermVersion (userId : String) (permVersion : Js) : Action Unit := do
  let found ← call (.exists (cacheKey userId))
  if found then set (.str userId) permVersion []

def clear : Action Unit := call .flushall

end PermissionCache

namespace PermissionProvider

def unavailable (message : String) : Failure := .http 503 message

/-- The `catch` clause of `getPermissions`. -/
def failure : Failure → Failure
  | .http status message => .http status message
  | .other e =>
    if e.code = some "ECONNREFUSED" then unavailable "Auth Service is unavailable"
    else match e.response with
    | some status => unavailable ("Auth Service returned error: " ++ toString status)
    | none =>
      if e.request then unavailable "Network error when fetching permissions"
      else .http 500 "Failed to fetch permissions"

/-- `cached?.length > 0` -/
def hasLength (platform : Platform) : Js → Bool
  | .arr xs => xs ≠ []
  | .str s => s ≠ ""
  | .obj fields =>
    match (Js.obj fields).get "length" with
    | .bool b => b
    | .num text | .str text => platform.positive text
    | .arr xs => platform.positive (Js.arr xs).toText
    | .undefined | .null | .obj _ => false
  | _ => false

/-- The permissions of the auth service, cached under the version of the caller's token. -/
def fetch (platform : Platform) (userId permVersion : Js) : Action Js := do
  let userText ← template userId
  let response ← call (.httpGet userText)
  if response.status ≠ 200 then
    throw (unavailable ("Auth Service error: " ++ toString response.status ++
      " " ++ response.statusText))
  match response.data platform with
  | .arr permissions =>
    -- a log line joins the list
    let _ ← template (.arr permissions)
    PermissionCache.set userId permVersion permissions
    return .arr permissions
  | _ => throw (unavailable "Invalid response format from Auth Service")

def getPermissions (platform : Platform) (userId permVersion : Js) : Action Js := do
  let cached ← PermissionCache.get platform userId permVersion
  if hasLength platform cached then return cached
  tryCatch (fetch platform userId permVersion) fun error => throw (failure error)

/-- The list is asked for each required permission, and joined for a log line afterwards; only
an array has both methods. -/
def hasPermission (userPermissions : Js) (requiredPermissions : List String) : Action Bool :=
  match userPermissions with
  | .arr xs => do
    let _ ← template (.arr xs)
    return requiredPermissions.any fun permission => xs.contains (.str permission)
  | .str _ => throw (typeError "userPermissions.join is not a function")
  | _ => throw (typeError "userPermissions.includes is not a function")

def invalidateUserCache (userId : String) : Action Unit := PermissionCache.invalidate userId

end PermissionProvider

/-- What the decorators of a handler and of its class leave for the guard. -/
structure Metadata where
  isPublic : Bool := false
  requiredPermissions : List String := []
  deriving DecidableEq

namespace PermissionGuard

def forbidden (message : String) : Failure := .http 403 message

/-- `(user?.name ?? 0) !== 0 ? user?.name : user?.data?.name` -/
def principalField (user : Js) (name : String) : Js :=
  if (user.get name).orElse (.num "0") ≠ .num "0" then user.get name else (user.get "data").get name

/-- `typeof permVersion === 'string' ? parseInt(permVersion) : permVersion` -/
def version (platform : Platform) (permVersion : Js) : Js :=
  match permVersion with
  | .str s => .num (platform.parseInt s)
  | v => v

/-- The principal skips the check. -/
def trusted (user : Js) : Bool := user.get "type" = .str "internal"

/-- What follows once the token type has not decided. -/
def check (platform : Platform) (requiredPermissions : List String) (user : Js) : Action Bool := do
  let userId := principalField user "userId"
  let permVersion := principalField user "permVersion"
  if !userId.truthy || permVersion = .undefined then
    throw (forbidden "Missing user context for permission check")
  let userPermissions ← PermissionProvider.getPermissions platform userId
      (version platform permVersion)
  let hasPermission ← PermissionProvider.hasPermission userPermissions requiredPermissions
  if !hasPermission then
    throw (forbidden ("Insufficient permissions. Required: [" ++
      ", ".intercalate requiredPermissions ++ "]"))
  return true

def canActivate (platform : Platform) (metadata : Metadata) (user : Js) : Action Bool :=
  if metadata.isPublic then return true
  else if metadata.requiredPermissions = [] then return true
  else if trusted user then return true
  else check platform metadata.requiredPermissions user

end PermissionGuard

/-- The calls into the package. -/
inductive Call where
  | canActivate (metadata : Metadata) (user : Js)
  | updatePermVersion (userId : String) (permVersion : Js)
  | invalidateUserCache (userId : String)
  | clear
  deriving DecidableEq

def body (platform : Platform) : Call → Action Bool
  | .canActivate metadata user => PermissionGuard.canActivate platform metadata user
  | .updatePermVersion userId permVersion => do
    PermissionCache.updatePermVersion userId permVersion
    return true
  | .invalidateUserCache userId => do
    PermissionProvider.invalidateUserCache userId
    return true
  | .clear => do
    PermissionCache.clear
    return true

def system (platform : Platform) : System Api Failure Call Bool Redis where
  toSemantics := semantics
  body := body platform
  Act := Act
  act := act platform

end CorePlatform.Permission
