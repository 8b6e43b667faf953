import CorePlatform.Auth.Store
import CorePlatform.Common.Decryption
import CorePlatform.Common.Formats

/-! `UsersService`. Logging is left out; everything the methods read, check and write
is here, in the order of the source. -/
namespace CorePlatform.Auth
open Async

/-- The environment of the service and the third-party functions it calls: the textual
form of an argon2 hash, the cipher of `encrypt`, the case mapping of strings, the user
agent parser, and the `uuid` and `email` checks of the event schemas. -/
structure Config where
  jwtSecret : String
  jwtIssuer : String
  jwtAudience : String
  internalSecret : String
  internalAudience : String
  internalIssuer : String := "gateway"
  /-- `Number(process.env.JWT_EXPIRES_IN)`, absent when it is not a number. -/
  jwtExpiresIn : Option Int := none
  /-- `Number(process.env.JWT_REFRESH_EXPIRES_IN)` -/
  jwtRefreshExpiresIn : Option Int := none
  encryptKey : Option String
  phc : Argon2Hash String → String
  cipher : Cipher
  toLowerCase : String → String
  deviceName : Option String → String
  /-- The message of the error the event schemas throw for a user id and an email. -/
  schemaError : (userId email : String) → Option String

/-- The digests of two codes under the default costs of argon2id. -/
def knownDigests : List (Argon2Hash String × String) :=
  [(⟨argonSalt1, "k3x9"⟩, "tHuMirj+9T6MMS4/vssgoEU73CVLJpLjpCGd//sXIrg"),
    (⟨argonSalt2, "z7q2"⟩, "xHHHwWBlpPdgTb52qELuHZoGOYq//Gs76t1YLZjG02I")]

/-- The encoded hash, with the plaintext in place of a digest that is not known. -/
def phcOf (hash : Argon2Hash String) : String :=
  let digest := (knownDigests.find? (·.1 = hash)).map (·.2)
  "$argon2id$v=19$m=65536,t=3,p=4$" ++ hash.salt ++ "$" ++ digest.getD hash.plain

/-- The encoded hashes as AES-256-GCM enciphers them under the key `key`, where salt and vector are
drawn as zeros. -/
def knownSealings : List Sealing := [
  { password := "key", salt := .replicate 16 0, iv := .replicate 16 0
    plain := phcOf ⟨argonSalt1, "k3x9"⟩
    enc := [11, 175, 108, 10, 77, 6, 237, 39, 64, 228, 153, 68, 158, 187, 66, 172, 118, 145, 72,
      140, 200, 150, 233, 176, 236, 250, 203, 217, 176, 48, 66, 230, 71, 34, 84, 186, 8,
      141, 133, 58, 162, 33, 228, 46, 190, 201, 160, 235, 126, 123, 118, 191, 204, 10, 175,
      196, 11, 126, 190, 7, 68, 205, 64, 139, 117, 50, 216, 177, 150, 239, 172, 106, 24,
      239, 126, 162, 107, 247, 139, 135, 61, 14, 91, 7, 67, 224, 35, 118, 139, 151, 157,
      127, 18, 4, 130, 42, 216]
    authTag := #v[216, 13, 149, 84, 25, 249, 107, 12, 22, 81, 17, 215, 224, 196, 23, 198] },
  { password := "key", salt := .replicate 16 0, iv := .replicate 16 0
    plain := phcOf ⟨argonSalt2, "z7q2"⟩
    enc := [11, 175, 108, 10, 77, 6, 237, 39, 64, 228, 153, 68, 158, 187, 66, 172, 118, 145, 72,
      140, 200, 150, 233, 176, 236, 250, 203, 217, 176, 48, 66, 230, 71, 34, 84, 186, 8,
      141, 133, 58, 162, 33, 228, 46, 190, 201, 160, 235, 126, 123, 118, 191, 250, 10, 163,
      196, 54, 123, 160, 34, 108, 138, 9, 143, 39, 24, 193, 128, 151, 242, 171, 92, 39, 253,
      89, 189, 81, 135, 247, 157, 26, 109, 62, 48, 124, 189, 101, 65, 253, 170, 254, 10, 11,
      27, 251, 106, 246]
    authTag := #v[34, 103, 99, 151, 42, 15, 93, 169, 228, 53, 152, 132, 153, 206, 208, 157] }]

/-- The check of `userId` and `email` by zod, with the text of the first issue. -/
def formatError (userId email : String) : Option String :=
  if !Zod.uuid userId then some "Invalid UUID"
  else if !Zod.email email then some "Invalid email address" else none

/-- The defaults of the code. Of argon2 and the cipher it knows some outputs, and it has plain
stand-ins for the other third-party functions. -/
def Config.default : Config where
  jwtSecret := "change-me"
  jwtIssuer := "auth-service"
  jwtAudience := "api"
  internalSecret := "change-internal"
  internalAudience := "internal"
  encryptKey := some "key"
  phc := phcOf
  cipher := .known knownSealings
  toLowerCase := String.toLower
  deviceName _ := "Firefox on Linux"
  schemaError := formatError

abbrev Action := Prog Api Exn

def call (c : Cmd) : Action c.Resp := Prog.perform (I := Api) c

def hashPassword {α : Type} (password : α) : Action (Argon2Hash α) := do
  let salt ← call .argon2Salt
  return { salt, plain := password }

def missingPassword : Exn :=
  .error none "The first argument must be of type string or an instance of Buffer"

/-- `argon2.verify(hash, password)`, which rejects a missing password. -/
def verifyHash {α : Type} [DecidableEq α] (hash : Argon2Hash α)
    (password : Option α) : Action Bool :=
  match password with
  | none => throw missingPassword
  | some password => return verifyPassword hash password

/-- `Math.random().toString(36).substring(2, 15)` -/
def randomCode : Action String := do
  let code ← call .randomCode
  return code.val

def missingKey : String :=
  "[getEncryptKey] Missing ENCRYPT_KEY: not set or empty. " ++
    "Check (1) .env file exists and is loaded (root .env or app .env, ConfigModule envFilePath) " ++
    "and (2) ENCRYPT_KEY=<your-secret> is defined in that file."

def getEncryptKey (cfg : Config) : Action String :=
  match (cfg.encryptKey.map Js.trim).filter (· ≠ "") with
  | some key => return key
  | none =>
      throw (.service { code := ErrorCodes.INTERNAL, statusCode := 500, message := missingKey })

/-- `encrypt(plainText, getEncryptKey())` -/
def encryptText (cfg : Config) (plainText : String) : Action String := do
  let password ← getEncryptKey cfg
  let salt ← call .randomBytes16
  let iv ← call .randomBytes16
  return encrypt cfg.cipher salt iv plainText password

def normalizeEmail (cfg : Config) (email : String) : String := Js.trim (cfg.toLowerCase email)

/-- 15 minutes, in milliseconds. -/
def codeTtl : Nat := 15 * 60 * 1000

structure PasswordResetPayload where
  token : String
  expiresAt : Nat

structure CreateUserDto where
  email : String
  password : String
  name : Option String := none
  phone : Option String := none

structure CreateUserResponse where
  userId : String
  email : String
  code : String
  createdAt : Nat

def invalidRefreshToken : Exn :=
  .service { code := ErrorCodes.AUTH_REFRESH_TOKEN_INVALID, statusCode := 401
             message := "Invalid refresh token" }

def badRequest (message : String) : Exn :=
  .service { code := ErrorCodes.BAD_REQUEST, statusCode := 400, message }

namespace UsersService

variable (cfg : Config)

def createPasswordReset (userId : String) : Action PasswordResetPayload := do
  let token ← randomCode
  let tokenHash ← hashPassword token
  let tokenHashEncrypted ← encryptText cfg (cfg.phc tokenHash)
  let now ← call .now
  call (.passwordResetCreate userId tokenHash (now + codeTtl))
  let now ← call .now
  return { token := tokenHashEncrypted, expiresAt := now + codeTtl }

def findOneByEmail (email : Option String) : Action (Option User) := call (.userFindFirst { email })

def validateUser (email : Option String) (pass : String) : Action (Option User) := do
  let user ← findOneByEmail (email.map (normalizeEmail cfg))
  match user with
  | none => return none
  | some user => return if verifyPassword user.passwordHash pass then some user else none

def checkActiveEmail (email : String) : Action User := do
  match ← call (.userFindFirst { email := some email, isActive := some true }) with
  | none => throw (.service
      { code := ErrorCodes.AUTH_INVALID_CREDENTIALS, statusCode := 401
        message := "account_not_verified or not_found." })
  | some user => return user

def createOrUpdateEmailOtp (userId codeHash : String) : Action Unit := do
  let now ← call .now
  call (.emailOtpUpsert userId codeHash (now + codeTtl))

def create (dto : CreateUserDto) : Action CreateUserResponse := do
  let email := normalizeEmail cfg dto.email
  let existing ← call (.userFindUnique { email := some email })
  if existing.isSome then
    throw (.service
      { code := ErrorCodes.CONFLICT, statusCode := 409, message := "Email already exists" })
  let passwordHash ← hashPassword dto.password
  let hash ← hashPassword (← randomCode)
  let codeHash := cfg.phc hash
  let code ← encryptText cfg codeHash
  let user ← call (.userCreate email passwordHash dto.name dto.phone false)
  createOrUpdateEmailOtp user.id codeHash
  return { userId := user.id, email := user.email, code, createdAt := user.createdAt }

def veryfiRegister (email code : String) : Action Bool := do
  match ← call
    (.userFindFirst { email := some (normalizeEmail cfg email), isActive := some false }) with
  | none => throw (.http 404 "User not found Or already verified")
  | some user =>
    let now ← call .now
    match ← call (.emailOtpFindFirst
        { userId := some user.id, codeHash := some code, expiresAfter := some now }) with
    | none => throw (.http 400 "Invalid code")
    | some verifyOtp =>
      call (.emailOtpUse verifyOtp.id)
      call (.userActivate user.id)
      return true

/-- The lifetime of a stored session, in seconds: 30 days unless configured. -/
def refreshTtlSeconds : Nat :=
  match cfg.jwtRefreshExpiresIn with
  | some ttlSeconds => if ttlSeconds > 0 then ttlSeconds.toNat else 60 * 60 * 24 * 30
  | none => 60 * 60 * 24 * 30

def saveRefreshToken (id : String) (refreshTokenNew : Token) (dataDevice : DeviceData)
    (deviceId : Option String) (refreshTokenOld : Option Token) : Action Unit := do
  let now ← call .now
  let expiresAt := now + refreshTtlSeconds cfg * 1000
  let tokenHashNew ← hashPassword refreshTokenNew
  match ← call (.refreshTokenFindFirst { userId := some id, deviceId, live := true }) with
  | some existing =>
    -- a login passes no old token, and the check is skipped
    if refreshTokenOld.any fun old => !verifyPassword existing.tokenHash old then
      throw invalidRefreshToken
    call (.refreshTokenUpdate existing.id tokenHashNew expiresAt)
  | none =>
    call (.refreshTokenCreate
      { userId := id, tokenHash := tokenHashNew, deviceId, device := dataDevice, expiresAt })

def findByRefreshToken (id : Option String) (permVersion : Option Int) (refreshToken : Token)
    (deviceId : Option String) : Action User := do
  let now ← call .now
  match ← call (.refreshTokenFindFirstWithUser
      { userId := id, permVersion, deviceId, expiresAfter := some now, live := true }) with
  | none => throw invalidRefreshToken
  | some (session, user) =>
    if !verifyPassword session.tokenHash refreshToken then throw invalidRefreshToken
    return user

def logoutDevice (deviceId userId : Option String) (refreshToken : Option Token) : Action Nat := do
  match ← call (.refreshTokenFindFirst { userId, deviceId, live := true }) with
  | none => return 0
  | some session =>
    let valid ← verifyHash session.tokenHash refreshToken
    if !valid then return 0
    let now ← call .now
    call (.refreshTokenRevokeMany { id := some session.id } now)

def logoutAllDevices (userId : Option String) : Action Nat := do
  let now ← call .now
  call (.refreshTokenRevokeMany { userId, live := true } now)

def verifyPasswordReset (userId : String) (code : Option String) : Action Bool := do
  let now ← call .now
  match ← call (.passwordResetFindFirst
      { userId := some userId, expiresAfter := some now, used := some false }) with
  | none => throw (badRequest "expired or already used")
  | some passwordReset =>
    let verify ← verifyHash passwordReset.tokenHash code
    if !verify then throw (badRequest "Invalid code")
    call (.passwordResetUse passwordReset.id)
    return true

def resetPassword (userId : String) (password code : Option String) : Action Bool := do
  match ← call (.passwordResetFindFirst { userId := some userId, used := some true }) with
  | none => throw (badRequest "The code has not been verified")
  | some passwordReset =>
    let verify ← verifyHash passwordReset.tokenHash code
    if !verify then throw (badRequest "Invalid code")
    match password with
    | none => throw (.error none "The \"password\" argument must be of type string")
    | some password =>
      let passwordHash ← hashPassword password
      call (.userSetPassword userId passwordHash)
      call (.passwordResetDelete passwordReset.id)
      return true

end UsersService
end CorePlatform.Auth
