import CorePlatform.Common.Js

/-! Errors of the services: `ServiceError`, the exceptions of the framework and of the
database client, and the translation of upstream failures by `handleAxiosError`. -/
namespace CorePlatform

abbrev ErrorCode := String

namespace ErrorCodes

def INTERNAL : ErrorCode := "INTERNAL"
def VALIDATION_ERROR : ErrorCode := "VALIDATION_ERROR"
def NOT_FOUND : ErrorCode := "NOT_FOUND"
def UNAUTHORIZED : ErrorCode := "UNAUTHORIZED"
def FORBIDDEN : ErrorCode := "FORBIDDEN"
def TOO_MANY_REQUESTS : ErrorCode := "TOO_MANY_REQUESTS"
def CONFLICT : ErrorCode := "CONFLICT"
def BAD_REQUEST : ErrorCode := "BAD_REQUEST"
def AUTH_INVALID_CREDENTIALS : ErrorCode := "AUTH_INVALID_CREDENTIALS"
def AUTH_TOKEN_INVALID : ErrorCode := "AUTH_TOKEN_INVALID"
def AUTH_REFRESH_TOKEN_INVALID : ErrorCode := "AUTH_REFRESH_TOKEN_INVALID"

end ErrorCodes

structure ServiceError where
  code : ErrorCode
  statusCode : Nat
  message : String
  details : Js := .undefined
  exposeMessage : Bool := true
  deriving DecidableEq

/-- What a `catch` clause of the services can receive. -/
inductive Exn where
  | service (e : ServiceError)
  /-- A framework `HttpException` (`NotFoundException` and its siblings). -/
  | http (status : Nat) (message : String)
  /-- A rejected database call, with the code of the database client. -/
  | database (code : String) (message : String)
  /-- Any other error; a transport failure carries the code of its socket error. -/
  | error (code : Option String) (message : String)
  deriving DecidableEq

namespace Exn

def message : Exn → String
  | .service e => e.message
  | .http _ message | .database _ message | .error _ message => message

/-- `error.statusCode`, a property of `ServiceError` only. -/
def statusCode? : Exn → Option Nat
  | .service e => some e.statusCode
  | _ => none

/-- `error.code` -/
def code? : Exn → Option String
  | .service e => some e.code
  | .http _ _ => none
  | .database code _ => some code
  | .error code _ => code

def isService : Exn → Bool
  | .service _ => true
  | _ => false

end Exn

def notFound : Exn :=
  .database "P2025"
    "An operation failed because it depends on one or more records that were required but not found."
def uniqueViolation : Exn := .database "P2002" "Unique constraint failed"

/-- `{ response: { status, data } }`, built where a reply has status 400 or more. -/
structure AxiosLike where
  status : Nat
  data : Js

private def text (v : Js) (default : String) : String :=
  match v with
  | .undefined | .null => default
  | v => v.toText

/-- `handleAxiosError` on a reply: the code, message and details of the upstream body,
in the shape of `ApiResponse` or in the legacy shape. -/
def axiosError (err : AxiosLike) (defaultMessage : String) : ServiceError :=
  let body := err.data
  let codeFromBody := (body.get "messageKey").orElse ((body.get "error").get "code")
  let code := text codeFromBody
    (if err.status = 401 then ErrorCodes.AUTH_TOKEN_INVALID
      else if err.status = 404 then ErrorCodes.NOT_FOUND else ErrorCodes.INTERNAL)
  let message :=
    text ((body.get "message").orElse ((body.get "error").get "message")) defaultMessage
  let details := (body.get "errors").orElse ((body.get "error").get "details")
  { code, statusCode := err.status, message
    details := if err.status ≥ 500 then .undefined else details }

/-- `handleAxiosError` on what a `catch` clause received: a `ServiceError` passes
unchanged, a framework exception has a `response` property without a status, and the
rest becomes an internal error. -/
def handleAxiosError (err : Exn) (_defaultMessage : String) : ServiceError :=
  match err with
  | .service e => e
  | err => { code := ErrorCodes.INTERNAL, statusCode := 500, message := err.message }

end CorePlatform
