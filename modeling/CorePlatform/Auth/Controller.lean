import CorePlatform.Auth.Service

/-! The way of a request's identity: `CombinedJwtStrategy`, `CombinedJwtAuthGuard`, and
the handlers of `AuthController` that use the authenticated principal. -/
namespace CorePlatform.Auth
open Async

def unauthorized (message : String) : Exn := .http 401 message

namespace CombinedJwtStrategy

variable (cfg : Config)

/-- The secret a token is verified under, chosen by its unverified audience. -/
def secretOrKeyProvider (rawJwtToken : Token) : Except Exn String :=
  match Jwt.decode rawJwtToken with
  | none => .error (unauthorized "Invalid token format")
  | some decoded =>
    if decoded.aud = some cfg.internalAudience then .ok cfg.internalSecret
    else if decoded.aud = some cfg.jwtAudience then .ok cfg.jwtSecret
    else .error (unauthorized ("Unknown token audience: " ++ (Js.ofString? decoded.aud).toText))

def validate (payload : Claims) : Except Exn Js :=
  if payload.aud = some cfg.internalAudience then
    .ok (.obj [("type", .str "internal"), ("caller", .ofString? payload.sub),
      ("data", payload.data)])
  else if payload.aud = some cfg.jwtAudience then
    .ok (.obj [("type", .str "api"), ("caller", .str "User"), ("data", .obj
      [("userId", .ofString? payload.sub), ("email", .ofString? payload.email),
        ("permVersion", .ofInt? payload.permVersion)])])
  else .error (unauthorized "Invalid token type")

/-- The strategy on the bearer token of a request, at `now` milliseconds. Whatever fails
before `validate` reaches the guard as a refusal without a principal. -/
def authenticate (bearer : Option Token) (now : Nat) : Except Exn Js :=
  match bearer with
  | none => .error (unauthorized "Unauthorized")
  | some token =>
    match secretOrKeyProvider cfg token with
    | .error _ => .error (unauthorized "Unauthorized")
    | .ok secret =>
      match Jwt.verify token secret {} now with
      | .error _ => .error (unauthorized "Unauthorized")
      | .ok payload => validate cfg payload

end CombinedJwtStrategy

/-- `CombinedJwtAuthGuard` on a handler without `@Public()`: the principal it leaves in
`req.user` and `req.info`. -/
def combinedJwtAuthGuard (cfg : Config) (req : Request) : Action Js := do
  let now ← call .now
  match CombinedJwtStrategy.authenticate cfg req.authorization now with
  | .ok user => return user
  | .error e => throw e

namespace AuthController

variable (cfg : Config)

def me (req : Request) : Action (Option User) := do
  let info ← combinedJwtAuthGuard cfg req
  match info.get "data" with
  | .undefined | .null =>
      throw (.error none "Cannot read properties of undefined (reading 'userId')")
  | data =>
    let userId ← filterValue (data.get "userId")
    AuthService.info userId

/-- `POST auth/internal/logout-device`. The other global guards have no rule on it. -/
def logoutDevice (req : Request) : Action String := do
  let user ← combinedJwtAuthGuard cfg req
  AuthService.logoutDevice req.deviceId user req.refreshToken

/-- `POST auth/internal/logout-all` -/
def logoutAll (req : Request) : Action String := do
  let user ← combinedJwtAuthGuard cfg req
  AuthService.logoutAll user

end AuthController
end CorePlatform.Auth
