import CorePlatform.Common.Errors
import CorePlatform.Common.Formats
import CorePlatform.Common.Jwt
import CorePlatform.Permission.Service

/-! The passport strategies of the auth service and of the notification service, which accept
the internal tokens of the services and the tokens of the users, and the guard that puts
their result on the request. -/
namespace CorePlatform.Tokens
open Permission (Platform Metadata PermissionGuard.canActivate PermissionGuard.check
    PermissionGuard.trusted)

/-- `jsonwebtoken`, left open. -/
structure Library where
  /-- `jwt.decode`: the payload, or `null` for a text that is not a token. -/
  decode : String → Except String Js
  /-- `jwt.verify(token, secret)` at a time. -/
  verify : String → String → Nat → Except String Js
  /-- The signature of the token verifies under the secret. -/
  Signed : String → String → Prop

/-- A token that passes is signed, and its payload is the decoded one. -/
structure Library.Lawful (lib : Library) : Prop where
  payload : ∀ {token secret now payload}, lib.verify token secret now = .ok payload →
    lib.decode token = .ok payload
  signed : ∀ {token secret now payload}, lib.verify token secret now = .ok payload →
    lib.Signed token secret

/-- The idealised tokens of the other services, read from texts, are such a library. -/
def Library.ideal (read : String → Token) : Library where
  decode text := .ok (match Jwt.decode (read text) with
    | some claims => claims.toJs
    | none => .null)
  verify text secret now := (Jwt.verify (some (read text)) secret {} now).map Claims.toJs
  Signed text secret := ∃ claims, read text = .jwt secret claims

/-- A text that verifies was signed with the secret and the claims. -/
theorem ideal_signed {read : String → Token} {text secret : String} {options : Jwt.VerifyOptions}
    {now : Nat} {payload : Js}
    (verified : (Jwt.verify (some (read text)) secret options now).map Claims.toJs = .ok payload) :
    ∃ claims, read text = .jwt secret claims ∧ claims.toJs = payload ∧
      Jwt.verify (some (read text)) secret options now = .ok claims := by
  cases checked : Jwt.verify (some (read text)) secret options now with
  | error message =>
    rw [checked] at verified
    contradiction
  | ok claims =>
    rw [checked] at verified
    exact ⟨claims, Option.some.inj (Jwt.verify_signed checked), Except.ok.inj verified, rfl⟩

theorem ideal_lawful (read : String → Token) : (Library.ideal read).Lawful where
  payload := by
    intro text secret now payload verified
    obtain ⟨claims, token, rfl, -⟩ := ideal_signed verified
    simp only [Library.ideal, token, Jwt.decode]
  signed := by
    intro text secret now payload verified
    obtain ⟨claims, token, -⟩ := ideal_signed verified
    exact ⟨claims, token⟩

/-- The variables that the strategies read through `ConfigService`. -/
structure Env where
  INTERNAL_JWT_SECRET : Option String := none
  JWT_SECRET : Option String := none
  INTERNAL_JWT_AUDIENCE : Option String := none
  JWT_AUDIENCE : Option String := none
  JWT_ISSUER : Option String := none

/-- `value || fallback` -/
def orDefault (value : Option String) (fallback : String) : String :=
  match value with
  | none | some "" => fallback
  | some value => value

/-- The services with a `CombinedJwtStrategy`. -/
inductive Service where
  | auth
  | notification
  deriving DecidableEq

structure CombinedJwtStrategy where
  internalSecret : String
  internalAudience : String
  userSecret : String
  userIssuer : String
  userAudience : String
  deriving DecidableEq

def unauthorized (message : String) : Exn := .http 401 message

namespace CombinedJwtStrategy

/-- The constructor. -/
def new (env : Env) : Except Exn CombinedJwtStrategy :=
  match env.INTERNAL_JWT_SECRET, env.JWT_SECRET with
  | none, _ | some "", _ => .error (.error none "INTERNAL_JWT_SECRET is required")
  | some _, none | some _, some "" => .error (.error none "JWT_SECRET is required")
  | some internalSecret, some userSecret =>
    .ok {
      internalSecret, userSecret
      internalAudience := orDefault env.INTERNAL_JWT_AUDIENCE "internal"
      userIssuer := orDefault env.JWT_ISSUER "auth-service"
      userAudience := orDefault env.JWT_AUDIENCE "api" }

variable (s : CombinedJwtStrategy)

/-- The secret for a token, chosen by the audience in its unverified payload. -/
def secretOrKeyProvider (lib : Library) (rawJwtToken : String) : Except Exn String :=
  match lib.decode rawJwtToken with
  | .error _ => .error (unauthorized "Token decode failed")
  | .ok decoded =>
    let audience := decoded.get "aud"
    if !decoded.truthy then .error (unauthorized "Invalid token format")
    else if audience = .str s.internalAudience then .ok s.internalSecret
    else if audience = .str s.userAudience then .ok s.userSecret
    else match audience.template? with
      | some text => .error (unauthorized ("Unknown token audience: " ++ text))
      | none => .error (unauthorized "Token decode failed")

/-- The principal of a user token, which differs between the services. -/
def userResult : Service → Js → Js
  | .auth, payload => .obj [("type", .str "api"), ("caller", .str "User"), ("data", .obj [
      ("userId", payload.get "sub"), ("email", payload.get "email"),
      ("permVersion", payload.get "permVersion")])]
  | .notification, payload => .obj [("type", .str "user"), ("userId", payload.get "sub"),
      ("email", payload.get "email"), ("permVersion", payload.get "permVersion")]

def validate (service : Service) (payload : Js) : Except Exn Js :=
  if payload.get "aud" = .str s.internalAudience then
    .ok (.obj [("type", .str "internal"), ("caller", payload.get "sub"),
      ("data", payload.get "data")])
  else if payload.get "aud" = .str s.userAudience then .ok (userResult service payload)
  else .error (unauthorized "Invalid token type")

/-- What passport makes of the strategy for a bearer token: a failure before `validate` is
answered without its reason. -/
def authenticate (lib : Library) (service : Service) (token : Option String)
    (now : Nat) : Except Exn Js :=
  match token with
  | none | some "" => .error (unauthorized "Unauthorized")
  | some token =>
    match s.secretOrKeyProvider lib token with
    | .error _ => .error (unauthorized "Unauthorized")
    | .ok secret =>
      match lib.verify token secret now with
      | .error _ => .error (unauthorized "Unauthorized")
      | .ok payload => s.validate service payload

end CombinedJwtStrategy

/-- What the guards leave on a request. -/
structure Request where
  user : Js := .undefined
  info : Js := .undefined
  deriving DecidableEq

/-- The `info` of an authenticated request: in the notification service for internal tokens
only. -/
def info : Service → Js → Js
  | .auth, user => user
  | .notification, user =>
    if user.get "type" = .str "internal" then
      .obj [("caller", user.get "caller"), ("data", user.get "data")]
    else .undefined

def CombinedJwtAuthGuard.canActivate (s : CombinedJwtStrategy) (lib : Library) (service : Service)
    (metadata : Metadata) (token : Option String) (now : Nat) : Except Exn Request :=
  if metadata.isPublic then .ok {}
  else match s.authenticate lib service token now with
    | .error e => .error e
    | .ok user => .ok { user, info := info service user }

section Confusion

variable {lib : Library} {env : Env} {s : CombinedJwtStrategy} {service : Service}
  {token : Option String} {now : Nat}

/-- The strategy's secrets are the configured ones. -/
theorem new_secrets (configured : CombinedJwtStrategy.new env = .ok s) :
    env.INTERNAL_JWT_SECRET = some s.internalSecret ∧ env.JWT_SECRET = some s.userSecret := by
  unfold CombinedJwtStrategy.new at configured
  split at configured
  · contradiction
  · contradiction
  · contradiction
  · contradiction
  · rename_i internal user
    cases configured
    exact ⟨internal, user⟩

/-- An accepted token was verified with the secret that its decoded payload selects. -/
theorem authenticate_ok {user : Js} (accepted : s.authenticate lib service token now = .ok user) :
    ∃ text secret payload, token = some text ∧ s.secretOrKeyProvider lib text = .ok secret ∧
      lib.verify text secret now = .ok payload ∧ s.validate service payload = .ok user := by
  unfold CombinedJwtStrategy.authenticate at accepted
  split at accepted
  · contradiction
  · contradiction
  · rename_i text _
    split at accepted
    · contradiction
    · rename_i secret provided
      split at accepted
      · contradiction
      · rename_i payload verified
        exact ⟨text, secret, payload, rfl, provided, verified, accepted⟩

/-- The secret for a payload follows its audience. -/
theorem secret_of_audience {text secret : String} {payload : Js}
    (decoded : lib.decode text = .ok payload)
    (provided : s.secretOrKeyProvider lib text = .ok secret) :
    secret = if payload.get "aud" = .str s.internalAudience then s.internalSecret
      else s.userSecret := by
  simp only [CombinedJwtStrategy.secretOrKeyProvider, decoded] at provided
  split at provided
  · contradiction
  · by_cases internal : payload.get "aud" = .str s.internalAudience
    · simp only [internal, if_true, Except.ok.injEq] at provided ⊢
      exact provided.symm
    · simp only [internal, if_false] at provided ⊢
      split at provided
      · exact (Except.ok.inj provided).symm
      · split at provided <;> contradiction

/-- The type of the principal follows the audience as well. -/
theorem type_of_audience {payload user : Js} (validated : s.validate service payload = .ok user) :
    user.get "type" = .str "internal" ↔ payload.get "aud" = .str s.internalAudience := by
  unfold CombinedJwtStrategy.validate at validated
  split at validated
  · rename_i internal
    cases validated
    exact iff_of_true rfl internal
  · rename_i other
    split at validated
    · cases validated
      cases service with
      | auth => exact iff_of_false (show ¬ Js.str "api" = .str "internal" by simp) other
      | notification => exact iff_of_false (show ¬ Js.str "user" = .str "internal" by simp) other
    · contradiction

/-- A principal is internal only if the token's signature verifies under the internal secret,
and any other principal comes from a token whose signature verifies under the users' secret. -/
theorem accepted_signed (lawful : lib.Lawful) {user : Js}
    (accepted : s.authenticate lib service token now = .ok user) :
    ∃ text, token = some text ∧
      lib.Signed text (if user.get "type" =
        .str "internal" then s.internalSecret else s.userSecret) := by
  obtain ⟨text, secret, payload, rfl, provided, verified, validated⟩ := authenticate_ok accepted
  have signed := lawful.signed verified
  rw [secret_of_audience (lawful.payload verified) provided] at signed
  simp only [type_of_audience validated]
  exact ⟨text, rfl, signed⟩

/-- On a handler that is not public the request carries the accepted principal. -/
theorem combinedJwtAuthGuard_ok {metadata : Metadata} {req : Request}
    (notPublic : metadata.isPublic = false)
    (passed : CombinedJwtAuthGuard.canActivate s lib service metadata token now = .ok req) :
    s.authenticate lib service token now = .ok req.user := by
  simp only [CombinedJwtAuthGuard.canActivate, notPublic, Bool.false_eq_true, if_false] at passed
  split at passed
  · contradiction
  · rename_i accepted
    cases passed
    exact accepted

/-- The type that a strategy gives a token agrees with the secret its signature verifies
under, and without a signature under the internal secret the permission guard checks. -/
theorem no_token_confusion (lawful : lib.Lawful) (configured : CombinedJwtStrategy.new env = .ok s)
    (service : Service) (text : String) (now : Nat) :
    (∀ user, s.authenticate lib service (some text) now = .ok user →
      (user.get "type" = .str "internal" → ∃ secret, env.INTERNAL_JWT_SECRET = some secret ∧
        lib.Signed text secret) ∧
      (user.get "type" ≠ .str "internal" → ∃ secret, env.JWT_SECRET = some secret ∧
        lib.Signed text secret)) ∧
    ∀ metadata req platform, metadata.isPublic = false → metadata.requiredPermissions ≠ [] →
      CombinedJwtAuthGuard.canActivate s lib service metadata (some text) now = .ok req →
        (∀ secret, env.INTERNAL_JWT_SECRET = some secret → ¬ lib.Signed text secret) →
          PermissionGuard.canActivate platform metadata req.user =
            PermissionGuard.check platform metadata.requiredPermissions req.user := by
  obtain ⟨internalSecret, userSecret⟩ := new_secrets configured
  constructor
  · intro user accepted
    obtain ⟨_, same, signed⟩ := accepted_signed lawful accepted
    cases same
    constructor
    · intro internal
      rw [if_pos internal] at signed
      exact ⟨_, internalSecret, signed⟩
    · intro other
      rw [if_neg other] at signed
      exact ⟨_, userSecret, signed⟩
  · intro metadata req platform notPublic required passed forged
    obtain ⟨_, same, signed⟩ := accepted_signed lawful (combinedJwtAuthGuard_ok notPublic passed)
    cases same
    have checked : PermissionGuard.trusted req.user = false := by
      refine decide_eq_false fun internal => ?_
      rw [if_pos internal] at signed
      exact forged _ internalSecret signed
    simp only [PermissionGuard.canActivate, notPublic, required, checked,
      Bool.false_eq_true, if_false]

end Confusion

section Sample

theorem eq_ok_of_toOption {α : Type} {e : Except Exn α} {a : α}
    (succeeds : e.toOption = some a) : e = .ok a := by
  cases e with
  | error _ => contradiction
  | ok b => exact congrArg _ (Option.some.inj succeeds)

def userClaims (userId email issuer : String) : Claims where
  sub := some userId
  email := some email
  permVersion := some 1
  iat := some 0
  exp := some 900
  aud := some "api"
  iss := some issuer

def issuedTokens : List (String × Token) :=
  [(gatewayToken, .jwt "internal-secret"
      { sub := some "gateway", data := .obj [], iat := some 0, exp := some 300
        aud := some "internal", iss := some "gateway" }),
    (aliceToken, .jwt "user-secret" (userClaims aliceId "alice@mail.com" "auth-service")),
    (bobToken, .jwt "user-secret" (userClaims bobId "bob@mail.com" "auth-service")),
    (partnerToken, .jwt "user-secret" (userClaims aliceId "alice@mail.com" "partner"))]

def readToken (text : String) : Token := (issuedTokens.lookup text).getD (.raw text)

def sampleLibrary : Library := .ideal readToken

def sampleEnv : Env :=
  { INTERNAL_JWT_SECRET := some "internal-secret", JWT_SECRET := some "user-secret" }
def sampleStrategy : CombinedJwtStrategy :=
  ⟨"internal-secret", "internal", "user-secret", "auth-service", "api"⟩

def samplePlatform : Platform := ⟨fun _ => none, id, fun _ => false⟩
def alicePrincipal : Js :=
  .obj [("type", .str "user"), ("userId", .str aliceId), ("email", .str "alice@mail.com"),
    ("permVersion", .num "1")]
def readPermission : Metadata := { requiredPermissions := ["read"] }

theorem no_token_confusion_sample :
    (∃ secret, sampleEnv.JWT_SECRET = some secret ∧ sampleLibrary.Signed aliceToken secret) ∧
    PermissionGuard.canActivate samplePlatform readPermission alicePrincipal =
      PermissionGuard.check samplePlatform ["read"] alicePrincipal := by
  have configured : CombinedJwtStrategy.new sampleEnv = .ok sampleStrategy := rfl
  have token : readToken aliceToken =
      .jwt "user-secret" (userClaims aliceId "alice@mail.com" "auth-service") := by decide +kernel
  obtain ⟨accepted, checked⟩ :=
    no_token_confusion (ideal_lawful readToken) configured .notification aliceToken 0
  have principal : sampleStrategy.authenticate sampleLibrary .notification (some aliceToken) 0 =
      .ok alicePrincipal := eq_ok_of_toOption (by decide +kernel)
  constructor
  · exact (accepted _ principal).2 (by decide +kernel)
  · have passed : CombinedJwtAuthGuard.canActivate sampleStrategy sampleLibrary .notification
        readPermission (some aliceToken) 0 = .ok { user := alicePrincipal } :=
      eq_ok_of_toOption (by decide +kernel)
    refine checked _ _ samplePlatform rfl (by decide) passed fun secret configured => ?_
    cases configured
    rintro ⟨claims, signed⟩
    exact absurd (Token.jwt.inj (token.symm.trans signed)).1 (by decide)

end Sample
end CorePlatform.Tokens
