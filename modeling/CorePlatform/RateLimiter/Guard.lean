import CorePlatform.Async.Pool
import CorePlatform.Common.Errors
import CorePlatform.RateLimiter.Service

/-! `RateLimiterGuard`, the rules on the routes of the gateway and of auth-service, and the
way of a client's request through both guards. The gateway sends auth-service the headers
that `getHeaders` names, among which the client's address is not. -/
namespace CorePlatform.RateLimiter
open Async

inductive KeySource where
  | ip
  | userId
  | body (field : String)

structure RateLimitRule where
  pfx : String
  limit : Nat
  /-- in seconds -/
  window : Nat
  keySource : KeySource
  message : Option String := none

/-- A header that may be left out or repeated. -/
inductive Header where
  | absent
  | text (value : String)
  | list (values : List String)

/-- What the guard reads off a request. -/
structure HttpRequest where
  forwardedFor : Header := .absent
  ip : Option String := none
  remoteAddress : Option String := none
  user : Js := .undefined
  body : Js := .undefined

/-- The digest of `createHash('sha256')` in hexadecimal, and the case mapping of strings. -/
structure Hashing where
  sha256Hex : String → String
  toLowerCase : String → String

/-- The response headers of the guard. -/
structure RateLimitHeaders where
  limit : Nat
  remaining : Nat
  retryAfter : Option Int

/-- A thrown error, with the headers set before. -/
structure Refusal where
  error : ServiceError
  headers : RateLimitHeaders

inductive Cmd where
  | check (key : String) (limit window : Nat)

@[reducible] def Cmd.Resp : Cmd → Type
  | .check .. => RateLimitResult

abbrev Api : Interface := ⟨Cmd, Cmd.Resp⟩

abbrev Action := Prog Api Refusal

def call (c : Cmd) : Action c.Resp := Prog.perform (I := Api) c

namespace RateLimiterGuard

variable (hashing : Hashing)

/-- `a || b` on strings that may be left out. -/
def orElse (a : Option String) (b : String) : String :=
  match a with
  | none | some "" => b
  | some a => a

def extractIp (req : HttpRequest) : String :=
  match req.forwardedFor with
  | .text forwarded => Js.trim ((forwarded.splitOn ",").headD "")
  | .list forwarded => orElse (forwarded.head?.map Js.trim) "unknown"
  | .absent => orElse req.ip (orElse req.remoteAddress "unknown")

def identifier (req : HttpRequest) (keySource : KeySource) : String :=
  match keySource with
  | .ip => extractIp req
  | .userId =>
    if (req.user.get "userId").truthy then (req.user.get "userId").toText
    else if (req.user.get "sub").truthy then (req.user.get "sub").toText else "anonymous"
  | .body field =>
    let value := req.body.get field
    if value.truthy then
      String.ofList
        ((hashing.sha256Hex (Js.trim (hashing.toLowerCase value.toText))).toList.take 16)
    else "empty"

def ruleKey (rule : RateLimitRule) (identifier : String) : String := rule.pfx ++ ":" ++ identifier

def buildKey (req : HttpRequest) (rule : RateLimitRule) : String :=
  ruleKey rule (identifier hashing req rule.keySource)

def setHeaders (limit remaining : Nat) (retryAfterMs : Int) : RateLimitHeaders :=
  { limit, remaining
    retryAfter := if retryAfterMs > 0 then some ((retryAfterMs + 999) / 1000) else none }

def tooManyRequests (rule : RateLimitRule) : ServiceError :=
  { code := ErrorCodes.TOO_MANY_REQUESTS, statusCode := 429
    message := orElse rule.message "Too many requests, please try again later" }

/-- The loop over the rules, with the most restrictive result so far. -/
def checkRules (req : HttpRequest) :
    List RateLimitRule → Option (RateLimitRule × RateLimitResult) → Action (Option RateLimitHeaders)
  | [], mostRestrictive =>
    pure (mostRestrictive.map fun (rule, result) =>
      setHeaders rule.limit result.remaining result.retryAfterMs)
  | rule :: rest, mostRestrictive => do
    let result ← call (.check (buildKey hashing req rule) rule.limit rule.window)
    if result.allowed then
      checkRules req rest (if mostRestrictive.all (result.remaining <
        ·.2.remaining) then some (rule, result)
        else mostRestrictive)
    else
      throw { error := tooManyRequests rule, headers := setHeaders rule.limit 0 result.retryAfterMs }

def canActivate (rules : List RateLimitRule) (req : HttpRequest) :
    Action (Option RateLimitHeaders) :=
  checkRules hashing req rules none

end RateLimiterGuard

/-- The routes that carry rules on both sides. -/
inductive Route where
  | login
  | register
  | resendCode
  | refresh
  deriving DecidableEq

def AuthClientController.rules : Route → List RateLimitRule
  | .login => [{ pfx := "login:ip", limit := 10, window := 60, keySource := .ip },
      { pfx := "login:email", limit := 5, window := 60, keySource := .body "email" }]
  | .register => [{ pfx := "register:ip", limit := 5, window := 60, keySource := .ip }]
  | .resendCode => [{ pfx := "resend:ip", limit := 5, window := 60, keySource := .ip },
      { pfx := "resend:email", limit := 2, window := 60, keySource := .body "email" }]
  | .refresh => [{ pfx := "refresh:ip", limit := 20, window := 60, keySource := .ip }]

def AuthController.rules : Route → List RateLimitRule
  | .login => [{ pfx := "auth:login:ip", limit := 10, window := 60, keySource := .ip },
      { pfx := "auth:login:email", limit := 5, window := 60, keySource := .body "email" }]
  | .register => [{ pfx := "auth:register:ip", limit := 5, window := 60, keySource := .ip }]
  | .resendCode => [{ pfx := "auth:resend:ip", limit := 5, window := 60, keySource := .ip },
      { pfx := "auth:resend:email", limit := 2, window := 60, keySource := .body "email" }]
  | .refresh => [{ pfx := "auth:refresh:ip", limit := 20, window := 60, keySource := .ip }]

/-- The request that auth-service gets: `getHeaders` names `x-request-id` and
`Authorization` only, and the connection comes from the gateway's address. -/
def AuthClientService.forwarded (route : Route) (gatewayAddress : String)
    (req : HttpRequest) : HttpRequest where
  ip := some gatewayAddress
  remoteAddress := some gatewayAddress
  body := match route with
    | .login | .register => req.body
    | .resendCode => .obj [("email", req.body.get "email")]
    | .refresh => .obj []

/-- A client's request, the address of the gateway instance that serves it, and whether its
handler contacts auth-service (a repeated registration may be answered from a record). -/
structure ClientRequest where
  route : Route
  http : HttpRequest
  gatewayAddress : String := "gateway"
  contacts : Bool := true

inductive Answer where
  | refusedByGateway (refusal : Refusal)
  | answeredByGateway
  | refusedByAuthService (refusal : Refusal)
  | admittedByAuthService (headers : Option RateLimitHeaders)

def attempt {α : Type} (p : Action α) : Action (Except Refusal α) :=
  tryCatch (do return .ok (← p)) fun refusal => return .error refusal

def body (hashing : Hashing) (q : ClientRequest) : Action Answer := do
  match ← attempt (RateLimiterGuard.canActivate hashing
    (AuthClientController.rules q.route) q.http) with
  | .error refusal => return .refusedByGateway refusal
  | .ok _ =>
    if q.contacts then
      match ← attempt (RateLimiterGuard.canActivate hashing (AuthController.rules q.route)
          (AuthClientService.forwarded q.route q.gatewayAddress q.http)) with
      | .error refusal => return .refusedByAuthService refusal
      | .ok headers => return .admittedByAuthService headers
    else return .answeredByGateway

/-- Redis, the time, and which keys were checked when, the latest first. -/
structure Store where
  redis : Redis := fun _ => none
  now : Nat := 0
  checks : List (String × Nat) := []

def Store.checksOn (s : Store) (key : String) : List Nat :=
  (s.checks.filter (·.1 = key)).map Prod.snd

/-- Redis answers every command. -/
def exec : (c : Cmd) → Unit → Store → Option (Except Refusal c.Resp × Store)
  | .check key limit window, _, s =>
    let (result, redis) := RateLimiterService.check {} true key limit (.finite window) s.now s.redis
    some (.ok result, { s with redis, checks := (key, s.now) :: s.checks })

/-- Requests of any clients, at any gateway instance, and the passing of time. -/
@[reducible] def limitedSystem (hashing : Hashing) :
    System Api Refusal ClientRequest Answer Store where
  Choice := Unit
  exec := exec
  body := body hashing
  Act := Nat
  act ms s := some { s with now := s.now + ms }

abbrev Ev := Event Api Refusal
abbrev LimitedThread := Thread Api Refusal ClientRequest Answer
abbrev LimitedPool := Pool Api Refusal ClientRequest Answer Store

end CorePlatform.RateLimiter
