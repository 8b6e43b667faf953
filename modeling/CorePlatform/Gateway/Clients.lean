import CorePlatform.Async.Program
import CorePlatform.Gateway.Store

/-! The HTTP clients of the gateway: the proxy methods of `AuthClientService`,
`RoleClientService` and `NotificationService`. All three are created with a
`validateStatus` that accepts every status, so a request is rejected only where the
transport fails. `AuthClientService.register` is in the module of keyed registration. -/
namespace CorePlatform.Gateway
open Async

inductive HttpMethod where
  | get
  | post
  | patch
  | delete
  deriving DecidableEq

structure HttpRequest where
  method : HttpMethod
  url : String
  headers : List (String × String)
  data : Js := .undefined
  params : List (String × Option String) := []
  deriving DecidableEq

/-- A reply with its `set-cookie` header, empty where there is none. -/
structure HttpResponse extends HttpReply where
  setCookie : List String := []
  deriving DecidableEq

/-- What the methods call: `axios`, `InternalJwtService.signInternalToken`, and `append`
and `clearCookie` of the response to the client. -/
structure HttpPlatform (I : Interface) where
  send : HttpRequest → Prog I Exn HttpResponse
  signInternalToken : Js → Prog I Exn String
  append : String → Prog I Exn Unit
  clearCookie : String → Prog I Exn Unit

/-- The body that most methods return. -/
def bodyOf {I : Interface} (response : HttpResponse) : Prog I Exn Js := return response.data.val

section Requests

variable {I : Interface} (p : HttpPlatform I) (defaultMessage : String)

/-- A request whose reply is returned only after a look at its status. -/
def checked (request : Prog I Exn HttpRequest) (finish : HttpResponse → Prog I Exn Js) :
    Prog I Exn Js :=
  tryCatch (do
    let request ← request
    let response ← p.send request
    if response.status ≥ 400 then
      throw (.service (axiosError ⟨response.status, response.data⟩ defaultMessage))
    else finish response)
  fun err => throw (.service (handleAxiosError err defaultMessage))

/-- A request whose reply is returned as it is. -/
def unchecked (request : HttpRequest) : Prog I Exn Js :=
  tryCatch (do
    let response ← p.send request
    return response.data.val)
  fun err => throw (.service (handleAxiosError err defaultMessage))

end Requests

namespace AuthClientService

variable {I : Interface} (p : HttpPlatform I)

def requestFailed : String := "Auth service request failed"

/-- `getHeaders`; an empty token counts as none. -/
def getHeaders (requestId : String) (token : Option String := none) :
    Prog I Exn (List (String × String)) :=
  match token.filter (· ≠ "") with
  | some token => return [("x-request-id", requestId), ("Authorization", token)]
  | none => do
    let internalToken ← p.signInternalToken (.obj [])
    return [("x-request-id", requestId), ("Authorization", "Bearer " ++ internalToken)]

def forwardSetCookie (authResponse : HttpResponse) : Prog I Exn Unit :=
  Prog.forEach p.append authResponse.setCookie

/-- A post of the service, with further headers after those of `getHeaders`. -/
def post (url : String) (data : Js) (requestId : String) (token : Option String := none)
    (cookie : List (String × String) := []) : Prog I Exn HttpRequest := do
  let headers ← getHeaders p requestId token
  return { method := .post, url, data, headers := headers ++ cookie }

def sessionCookie (refreshToken deviceId : String) : List (String × String) :=
  [("Cookie", "refreshToken=" ++ refreshToken ++ "; deviceId=" ++ deviceId)]

/-- `forwardSetCookie` where there is a client, then the body. -/
def withCookies (clientRes : Bool) (response : HttpResponse) : Prog I Exn Js := do
  if clientRes then forwardSetCookie p response
  return response.data.val

/-- The session cookies are cleared where there is a client, then the body or a text for it. -/
def signedOut (clientRes : Bool) (response : HttpResponse) : Prog I Exn Js := do
  if clientRes then
    p.clearCookie "refreshToken"
    p.clearCookie "deviceId"
  return response.data.val.orElse (.str "logout success")

def getProfileByUserId (requestId : String) (token : Option String) : Prog I Exn Js :=
  checked p requestFailed (do
    let headers ← getHeaders p requestId token
    return { method := .get, url := "auth/internal/me", headers }) bodyOf

def login (loginDto : Js) (requestId : String) (clientRes : Bool) : Prog I Exn Js :=
  checked p requestFailed (post p "auth/internal/login" loginDto requestId)
    (withCookies p clientRes)

def verify (verifyDto : Js) (requestId : String) : Prog I Exn Js :=
  checked p requestFailed (post p "auth/internal/register/verify" verifyDto requestId) bodyOf

def confirm (confirmDto : Js) (requestId : String) : Prog I Exn Js := verify p confirmDto requestId

def resendCode (email requestId : String) : Prog I Exn Js :=
  checked p requestFailed (post p "auth/internal/resend-code"
    (.obj [("email", .str email)]) requestId) bodyOf

def refresh (refreshToken deviceId requestId : String) (clientRes : Bool) : Prog I Exn Js :=
  checked p requestFailed
    (post p "auth/internal/refresh" (.obj []) requestId none (sessionCookie refreshToken deviceId))
    (withCookies p clientRes)

def logoutDevice (deviceId refreshToken requestId : String) (clientRes : Bool)
    (token : Option String) : Prog I Exn Js :=
  checked p requestFailed
    (post p "auth/internal/logout-device" (.obj []) requestId token
      (sessionCookie refreshToken deviceId))
    (signedOut p clientRes)

def logoutAll (requestId : String) (clientRes : Bool) (token : Option String) : Prog I Exn Js :=
  checked p requestFailed (post p "auth/internal/logout-all" (.obj []) requestId token)
    (signedOut p clientRes)

def forgotPassword (forgotPasswordDto : Js) (requestId : String) : Prog I Exn Js :=
  checked p requestFailed
    (post p "auth/internal/forgot/password" forgotPasswordDto requestId) bodyOf

def forgotPasswordVerify (forgotPasswordVerifyDto : Js) (requestId : String) : Prog I Exn Js :=
  checked p requestFailed
    (post p "auth/internal/forgot/password/verify" forgotPasswordVerifyDto requestId) bodyOf

def forgotPasswordReset (forgotPasswordResetDto : Js) (requestId : String) : Prog I Exn Js :=
  checked p requestFailed
    (post p "auth/internal/forgot/password/reset" forgotPasswordResetDto requestId) bodyOf

end AuthClientService

namespace RoleClientService

variable {I : Interface} (p : HttpPlatform I)

def requestFailed : String := "Auth service request failed"

/-- `getHeaders`; an empty token counts as none. -/
def getHeaders (requestId : String) (authToken : Option String) :
    Prog I Exn (List (String × String)) :=
  match authToken.filter (· ≠ "") with
  | some authToken => return [("Authorization", authToken), ("x-request-id", requestId)]
  | none => do
    let token ← p.signInternalToken (.obj [])
    return [("Authorization", "Bearer " ++ token), ("x-request-id", requestId)]

/-- The shape that all nine methods share. -/
def forward (method : HttpMethod) (url : String) (data : Js) (requestId : String)
    (authToken : Option String) :
    Prog I Exn Js :=
  checked p requestFailed (do
    let headers ← getHeaders p requestId authToken
    return { method, url, data, headers }) bodyOf

def create (createRoleDto : Js) (requestId : String) (authToken : Option String) : Prog I Exn Js :=
  forward p .post "roles" createRoleDto requestId authToken

def findAll (requestId : String) (authToken : Option String) : Prog I Exn Js :=
  forward p .get "roles" .undefined requestId authToken

def findOne (id requestId : String) (authToken : Option String) : Prog I Exn Js :=
  forward p .get ("roles/" ++ id) .undefined requestId authToken

def update (id : String) (updateRoleDto : Js) (requestId : String)
    (authToken : Option String) : Prog I Exn Js :=
  forward p .patch ("roles/" ++ id) updateRoleDto requestId authToken

def remove (id requestId : String) (authToken : Option String) : Prog I Exn Js :=
  forward p .delete ("roles/" ++ id) .undefined requestId authToken

def getRolesForUser (userId requestId : String) (authToken : Option String) : Prog I Exn Js :=
  forward p .get ("roles/users/" ++ userId ++ "/roles") .undefined requestId authToken

def getPermissionsForUser (userId requestId : String) (authToken : Option String) : Prog I Exn Js :=
  forward p .get ("roles/users/" ++ userId ++ "/permissions") .undefined requestId authToken

def assignRole (dto : Js) (requestId : String) (authToken : Option String) : Prog I Exn Js :=
  forward p .post "roles/assign-role" dto requestId authToken

def unassignRole (dto : Js) (requestId : String) (authToken : Option String) : Prog I Exn Js :=
  forward p .post "roles/unassign-role" dto requestId authToken

end RoleClientService

namespace NotificationService

variable {I : Interface} (p : HttpPlatform I)

def requestFailed : String := "Notification service request failed"

/-- `getHeaders`; an empty token counts as none. -/
def getHeaders (requestId : String) (userToken : Option String := none) : List (String × String) :=
  match userToken.filter (· ≠ "") with
  | some userToken => [("x-request-id", requestId), ("Authorization", userToken)]
  | none => [("x-request-id", requestId)]

def ping : Prog I Exn Js :=
  checked p requestFailed
    (return { method := .get, url := "health", headers := getHeaders "health-check" }) bodyOf

def create (createNotificationDto : Js) (authToken requestId : String) : Prog I Exn Js :=
  unchecked p requestFailed { method := .post, url := "notification", data := createNotificationDto
                              headers := getHeaders requestId (some authToken) }

def findAll (authToken requestId : String) (page limit sortBy sortOrder : Option String) :
    Prog I Exn Js :=
  unchecked p requestFailed { method := .get, url := "notification/list"
                              headers := getHeaders requestId (some authToken)
                              params := [("page", page), ("limit", limit), ("sortBy", sortBy),
                                ("sortOrder", sortOrder)] }

def unreadCount (authToken requestId : String) : Prog I Exn Js :=
  unchecked p requestFailed { method := .get, url := "notification/unread-count"
                              headers := getHeaders requestId (some authToken) }

def markRead (id authToken requestId : String) : Prog I Exn Js :=
  unchecked p requestFailed
    { method := .post, url := "notification/" ++ id ++ "/read", data := .null
      headers := getHeaders requestId (some authToken) }

def readAll (authToken requestId : String) : Prog I Exn Js :=
  unchecked p requestFailed { method := .post, url := "notification/read-all", data := .null
                              headers := getHeaders requestId (some authToken) }

end NotificationService
end CorePlatform.Gateway
