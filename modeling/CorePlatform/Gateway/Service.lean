import CorePlatform.Gateway.Store

/-! `IdempotencyService` and `AuthClientService.register` of the gateway. The headers of
the upstream request are left out. -/
namespace CorePlatform.Gateway
open Async

/-- The functions of other packages: the SHA-256 digest in hexadecimal. -/
structure Config where
  sha256 : String → String

/-- A plain stand-in that tells all texts apart. -/
def Config.default : Config := ⟨id⟩

abbrev Action := Prog Api Exn

def call (c : Cmd) : Action c.Resp := Prog.perform (I := Api) c

structure IdempotencyRequest where
  method : String
  path : String
  body : Js
  key : String

/-- The answer of `checkIdempotency`. -/
structure CheckResult where
  recordId : String
  shouldExecute : Bool
  cachedResponse : Option Json := none

/-- 5 minutes, in milliseconds. -/
def cacheTtl : Nat := 5 * 60 * 1000

/-- 24 hours, in milliseconds. -/
def recordTtl : Nat := 24 * 60 * 60 * 1000

namespace IdempotencyService

variable (cfg : Config) (gateway : Nat)

def computeRequestHash (method path : String) (body : Js) : String :=
  let canonical :=
    Js.obj [("method", .str method), ("path", .str path), ("body", Js.ofString? body.stringify)]
  cfg.sha256 (canonical.stringify.getD "")

def conflict (message : String) : Exn :=
  .service { code := ErrorCodes.CONFLICT, statusCode := 409, message }

def keyConflict : Exn := conflict "Idempotency key conflict: different request with same key"

def stillProcessing : Exn := conflict "Request is still processing"

/-- The second half of `checkIdempotency`, on what the database holds for the key. -/
def checkRecord (key requestHash : String) : Option IdempotencyRecord → Action CheckResult
  | some existingRecord => do
    if existingRecord.requestHash ≠ requestHash then throw keyConflict
    match existingRecord.status with
    | .completed =>
      call (.cacheSet gateway key existingRecord.responseBody cacheTtl)
      return { recordId := existingRecord.id, shouldExecute := false
               cachedResponse := some existingRecord.responseBody }
    | .processing => throw stillProcessing
    | .failed =>
      let now ← call .now
      let updated ← call (.recordUpdate existingRecord.id
        { status := .processing, responseStatus := none, expiresAt := some (now + recordTtl) })
      return { recordId := updated.id, shouldExecute := true }
  | none => do
    let now ← call .now
    let newRecord ← call (.recordCreate key requestHash (now + recordTtl))
    return { recordId := newRecord.id, shouldExecute := true }

def checkIdempotency (req : IdempotencyRequest) : Action CheckResult := do
  if req.key = "" then return { recordId := "", shouldExecute := true }
  let cachedResponse ← call (.cacheGet gateway req.key)
  if cachedResponse.val ≠ .null then
    return { recordId := "", shouldExecute := false, cachedResponse := some cachedResponse }
  let requestHash := computeRequestHash cfg req.method req.path req.body
  let existingRecord ← call (.recordFindUnique req.key)
  checkRecord gateway req.key requestHash existingRecord

def markCompleted (recordId : String) (responseStatus : Nat)
    (responseBody : Json) : Action Unit := do
  if recordId = "" then return ()
  let _ ← call (.recordUpdate recordId
    { status := .completed, responseStatus := some responseStatus, responseBody := some responseBody })

/-- `errorData || { error: 'Internal server error' }` -/
def errorBody (errorData : Json) : Json :=
  if errorData.val.truthy then errorData
    else ⟨.obj [("error", .str "Internal server error")], nofun⟩

def markFailed (recordId : String) (responseStatus : Nat) (errorData : Json) : Action Unit := do
  if recordId = "" then return ()
  let _ ← call (.recordUpdate recordId
    { status := .failed, responseStatus := some responseStatus
      responseBody := some (errorBody errorData) })

def cacheResponse (key : String) (response : Json) : Action Unit := do
  if key = "" then return ()
  call (.cacheSet gateway key response cacheTtl)

end IdempotencyService

/-- A call of `register`, with the gateway instance that received it. -/
structure RegisterRequest where
  gateway : Nat
  registerDto : List (String × Js)
  requestPath : String
  idempotencyKey : Option String

/-- `idempotencyKey || ''` -/
def RegisterRequest.key (q : RegisterRequest) : String := q.idempotencyKey.getD ""

def RegisterRequest.idempotency (q : RegisterRequest) : IdempotencyRequest where
  method := "POST"
  path := if q.requestPath = "" then "/client/auth/register" else q.requestPath
  body := .obj q.registerDto
  key := q.key

namespace AuthClientService
open IdempotencyService

variable (cfg : Config)

/-- The request to the auth service and what follows it inside `try`. -/
def execute (q : RegisterRequest) (recordId : String) : Action Json := do
  let response ← call (.httpRegister q.registerDto)
  if response.status ≥ 400 then
    markFailed recordId response.status response.data
    throw (.service (axiosError ⟨response.status, response.data⟩ "Auth service request failed"))
  else
    if recordId ≠ "" then
      markCompleted recordId response.status response.data
      cacheResponse q.gateway q.key response.data
    return response.data

/-- The `error` and `details` that the `catch` clause records. -/
def internalError (err : Exn) : Json :=
  ⟨.obj [("error", .str "Internal server error"), ("details", .str err.message)], nofun⟩

/-- The `catch` clause; it has no record before `checkIdempotency` has returned. -/
def rejected (recordId : String) (err : Exn) : Action Json := do
  markFailed recordId 500 (internalError err)
  throw (.service (handleAxiosError err "Register request failed"))

def register (q : RegisterRequest) : Action Json := do
  let check ← tryCatch (checkIdempotency cfg q.gateway q.idempotency) fun err =>
    throw (.service (handleAxiosError err "Register request failed"))
  match check.shouldExecute, check.cachedResponse with
  | false, some cachedResponse => return cachedResponse
  | _, _ => tryCatch (execute q check.recordId) (rejected check.recordId)

end AuthClientService
end CorePlatform.Gateway
