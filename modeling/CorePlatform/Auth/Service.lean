import CorePlatform.Auth.Users

/-! `AuthService`: issuing and rotating tokens, logout, registration and the password
reset. -/
namespace CorePlatform.Auth
open Async

/-- What the handlers read off a request. Body fields and cookies are strings or
absent. -/
structure Request where
  authorization : Option Token := none
  forwardedFor : Option String := none
  ip : Option String := none
  userAgent : Option String := none
  refreshToken : Option Token := none
  deviceId : Option String := none

structure LoginResponse where
  id : String
  email : String
  permVersion : Int
  accessToken : Token
  deriving DecidableEq

structure RegisterResponse where
  userId : String
  email : String
  createdAt : Nat

/-- A value used as a filter: `undefined` leaves the filter out, and the database client
rejects what is not a string. -/
def filterValue (v : Js) : Action (Option String) :=
  match v with
  | .undefined => return none
  | .str s => return some s
  | _ => throw (.error none "Invalid value provided. Expected String")

/-- `Number(text) || default` -/
def numberOr (n : Option Int) (default : Int) : Int :=
  match n with
  | some n => if n = 0 then default else n
  | none => default

def invalidCredentials (message : String) : Exn :=
  .service { code := ErrorCodes.AUTH_INVALID_CREDENTIALS, statusCode := 401, message }

namespace AuthService
open UsersService

variable (cfg : Config)

def getDeviceData (req : Request) : DeviceData :=
  let ip := match req.forwardedFor.bind fun header => (header.splitOn ",").head? with
    | some "" | none => req.ip
    | some ip => some ip
  { ip, deviceName := some (cfg.deviceName req.userAgent), userAgent := req.userAgent }

/-- The claims `issueTokens` signs for a user. -/
def payload (user : User) : Claims :=
  { email := some user.email, sub := some user.id, permVersion := some user.permVersion }

/-- `this.jwtService.sign(payload, { expiresIn })` -/
def sign (user : User) (expiresIn : Int) (now : Nat) : Token :=
  Jwt.sign (payload user) cfg.jwtSecret expiresIn cfg.jwtIssuer cfg.jwtAudience now

def refreshTokenOf (user : User) (now : Nat) : Token :=
  sign cfg user (numberOr cfg.jwtRefreshExpiresIn (60 * 60 * 24 * 30)) now

def issueTokens (user : User) (dataDevice : DeviceData) (deviceId : Option String)
    (refreshTokenOld : Option Token) : Action LoginResponse := do
  let now ← call .now
  let refreshToken := refreshTokenOf cfg user now
  saveRefreshToken cfg user.id refreshToken dataDevice deviceId refreshTokenOld
  let now ← call .now
  let accessToken := sign cfg user (numberOr cfg.jwtExpiresIn 900) now
  call (.setCookie (.refreshToken refreshToken
    (numberOr (cfg.jwtRefreshExpiresIn.map (· * 1000)) (60 * 60 * 24 * 30 * 1000))))
  call (.setCookie (.deviceId deviceId))
  return { id := user.id, email := user.email, permVersion := user.permVersion, accessToken }

/-- `UserRegisteredSchema.parse` and `PasswordResetRequestedSchema.parse` -/
def parseEvent (userId email : String) : Action Unit :=
  match cfg.schemaError userId email with
  | some message => throw (.error none message)
  | none => return ()

def register (dto : CreateUserDto) (requestId : Option String) : Action RegisterResponse := do
  let user ← create cfg dto
  parseEvent cfg user.userId user.email
  call (.natsPublish { userId := user.userId, email := user.email, code := user.code
                       createdAt := user.createdAt, requestId })
  return { userId := user.userId, email := user.email, createdAt := user.createdAt }

def verify (email code : String) : Action Bool :=
  tryCatch (veryfiRegister cfg email code) fun _ =>
    throw (.service
      { code := ErrorCodes.VALIDATION_ERROR, statusCode := 401, message := "Invalid code" })

def login (userReq : User) (req : Request) : Action LoginResponse :=
  tryCatch (do
    let dataDevice := getDeviceData cfg req
    let deviceId ← call .randomUUID
    let user ← checkActiveEmail userReq.email
    issueTokens cfg user dataDevice (some deviceId) none)
  fun error => if error.isService then throw error else throw (invalidCredentials error.message)

def refresh (refreshTokenOld : Option Token) (deviceId : Option String) (req : Request) :
    Action LoginResponse :=
  tryCatch (do
    let now ← call .now
    match refreshTokenOld, Jwt.verify refreshTokenOld cfg.jwtSecret
        { issuer := some cfg.jwtIssuer, audience := some cfg.jwtAudience } now with
    | some refreshToken, .ok decoded =>
      let dataDevice := getDeviceData cfg req
      let user ← findByRefreshToken decoded.sub decoded.permVersion refreshToken deviceId
      issueTokens cfg user dataDevice deviceId refreshTokenOld
    | _, .error message => throw (.error none message)
    | none, .ok _ => throw (.error none "jwt must be provided"))
  fun error => do
    call (.clearCookie "refreshToken")
    call (.clearCookie "deviceId")
    throw (.service { code := ErrorCodes.AUTH_REFRESH_TOKEN_INVALID, statusCode := 401
                      message := error.message })

def info (userId : Option String) : Action (Option User) := call (.userFindUnique { id := userId })

def resendCode (email : Option String) : Action String :=
  tryCatch (do
    match ← findOneByEmail email with
    | none => throw (invalidCredentials "Not found user")
    | some user =>
      if user.isActive then throw (invalidCredentials "Not found user")
      let hash ← hashPassword (← randomCode)
      let codeHash := cfg.phc hash
      let code ← encryptText cfg codeHash
      createOrUpdateEmailOtp user.id codeHash
      parseEvent cfg user.id user.email
      call (.natsPublish
        { userId := user.id, email := user.email, code, createdAt := user.createdAt })
      return "Verification code resent")
  fun error => throw (invalidCredentials error.message)

def logoutDevice (deviceId : Option String) (user : Js) (refreshToken : Option Token) :
    Action String := do
  let userId ← filterValue (user.get "id")
  let _ ← UsersService.logoutDevice deviceId userId refreshToken
  call (.clearCookie "refreshToken")
  call (.clearCookie "deviceId")
  return "logout success"

def logoutAll (user : Js) : Action String := do
  let userId ← filterValue (user.get "id")
  let _ ← logoutAllDevices userId
  call (.clearCookie "refreshToken")
  call (.clearCookie "deviceId")
  return "logout success"

def genericMessage : String :=
  "If an account with that email exists, a password reset link has been sent."

def PASSWORD_RESET_REQUESTED : String := "passwordReset.requested"

def forgotPassword (email : Option String) : Action String :=
  tryCatch (do
    match ← findOneByEmail email with
    | none => return genericMessage
    | some user =>
      let reset ← createPasswordReset cfg user.id
      parseEvent cfg user.id user.email
      call (.queueAdd { name := PASSWORD_RESET_REQUESTED, email := user.email, token := reset.token
                        userId := user.id, expiresAt := reset.expiresAt })
      return genericMessage)
  fun _ => return genericMessage

def forgotPasswordVerify (email code : Option String) : Action String :=
  tryCatch (do
    match ← findOneByEmail email with
    | none =>
        throw (.service
          { code := ErrorCodes.NOT_FOUND, statusCode := 404, message := "Email not found" })
    | some user =>
      let _ ← verifyPasswordReset user.id code
      return "Password reset verified")
  fun error => if error.isService then throw error else throw (badRequest error.message)

def forgotPasswordReset (email code password : Option String) : Action String :=
  tryCatch (do
    match ← findOneByEmail email with
    | none => throw (badRequest "Bad request")
    | some user =>
      let _ ← resetPassword user.id password code
      let _ ← logoutAllDevices (some user.id)
      return "Password reset success")
  fun error => if error.isService then throw error else throw (badRequest error.message)

end AuthService
end CorePlatform.Auth
