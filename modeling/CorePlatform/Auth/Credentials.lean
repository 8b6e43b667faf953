import CorePlatform.Auth.Rotation

/-! The verifiers that let a bearer token in, and what they make of the refresh tokens of
`issueTokens`. Both tokens of a session carry the same claims under the same signature and
differ in their expiry only. -/
namespace CorePlatform

/-- `configService.get<string>(name) || default` -/
def configured (value : Option String) (default : String) : String :=
  match value with
  | none | some "" => default
  | some value => value

namespace Gateway

/-- The environment of the gateway, as far as user tokens are concerned. -/
structure JwtEnv where
  JWT_SECRET : Option String := none
  JWT_ISSUER : Option String := none
  JWT_AUDIENCE : Option String := none

namespace JwtEnv

variable (env : JwtEnv)

def secret : String := configured env.JWT_SECRET "change-me"

def issuer : String := configured env.JWT_ISSUER "auth-service"

def audience : String := configured env.JWT_AUDIENCE "api"

end JwtEnv

namespace UserJwtStrategy

def validate (payload : Claims) : Js :=
  .obj [("userId", .ofString? payload.sub), ("email", .ofString? payload.email),
    ("permVersion", .ofInt? payload.permVersion)]

/-- The strategy on the bearer token of a request. -/
def authenticate (env : JwtEnv) (bearer : Option Token) (now : Nat) : Except String Js :=
  match bearer with
  | none => .error "No auth token"
  | some token =>
    (Jwt.verify (some token) env.secret { issuer := some env.issuer, audience := some env.audience }
      now).map validate

end UserJwtStrategy

namespace CoreWebsocketGateway

def verifyToken (env : JwtEnv) (token : Token) (now : Nat) : Option Claims :=
  match Jwt.verify (some token) env.secret
    { issuer := some env.issuer, audience := some env.audience } now with
  | .ok payload => some payload
  | .error _ => none

end CoreWebsocketGateway
end Gateway

namespace Notification

/-- The settings of the notification service's strategy. Its constructor insists on both
secrets. -/
structure JwtConfig where
  internalSecret : String
  internalAudience : String := "internal"
  userSecret : String
  userAudience : String := "api"

namespace CombinedJwtStrategy

variable (cfg : JwtConfig)

def secretOrKeyProvider (rawJwtToken : Token) : Except String String :=
  match Jwt.decode rawJwtToken with
  | none => .error "Invalid token format"
  | some decoded =>
    if decoded.aud = some cfg.internalAudience then .ok cfg.internalSecret
    else if decoded.aud = some cfg.userAudience then .ok cfg.userSecret
    else .error ("Unknown token audience: " ++ (Js.ofString? decoded.aud).toText)

def validate (payload : Claims) : Except String Js :=
  if payload.aud = some cfg.internalAudience then
    .ok (.obj [("type", .str "internal"), ("caller", .ofString? payload.sub),
      ("data", payload.data)])
  else if payload.aud = some cfg.userAudience then
    .ok (.obj [("type", .str "user"), ("userId", .ofString? payload.sub),
      ("email", .ofString? payload.email), ("permVersion", .ofInt? payload.permVersion)])
  else .error "Invalid token type"

def authenticate (bearer : Option Token) (now : Nat) : Except String Js :=
  match bearer with
  | none => .error "No auth token"
  | some token =>
    match secretOrKeyProvider cfg token with
    | .error message => .error message
    | .ok secret =>
      match Jwt.verify (some token) secret {} now with
      | .error message => .error message
      | .ok payload => validate cfg payload

end CombinedJwtStrategy
end Notification

namespace Auth
open Async Relational

/-- The services of one installation, each with its own settings. -/
structure Deployment where
  auth : Config
  gateway : Gateway.JwtEnv := {}
  notification : Notification.JwtConfig

inductive Verifier where
  | userJwtStrategy
  | authCombinedJwtStrategy
  | notificationCombinedJwtStrategy
  | verifyToken
  deriving DecidableEq

namespace Deployment

variable (dep : Deployment)

/-- The verifier lets the token in, at `now` milliseconds. -/
def Accepts (token : Token) (now : Nat) : Verifier → Prop
  | .userJwtStrategy =>
      (Gateway.UserJwtStrategy.authenticate dep.gateway (some token) now).isOk = true
  | .authCombinedJwtStrategy =>
      (CombinedJwtStrategy.authenticate dep.auth (some token) now).isOk = true
  | .notificationCombinedJwtStrategy =>
    (Notification.CombinedJwtStrategy.authenticate dep.notification (some token) now).isOk = true
  | .verifyToken => (Gateway.CoreWebsocketGateway.verifyToken dep.gateway token now).isSome = true

instance (token : Token) (now : Nat) : (v : Verifier) → Decidable (dep.Accepts token now v)
  | .userJwtStrategy | .authCombinedJwtStrategy | .notificationCombinedJwtStrategy | .verifyToken =>
    inferInstanceAs (Decidable (_ = true))

/-- The verifier's settings are those under which auth-service signs. -/
def Trusts : Verifier → Prop
  | .userJwtStrategy | .verifyToken => dep.gateway.secret = dep.auth.jwtSecret ∧
      dep.gateway.issuer = dep.auth.jwtIssuer ∧ dep.gateway.audience = dep.auth.jwtAudience
  | .authCombinedJwtStrategy =>
    dep.auth.jwtAudience = dep.auth.internalAudience → dep.auth.internalSecret = dep.auth.jwtSecret
  | .notificationCombinedJwtStrategy =>
    if dep.auth.jwtAudience = dep.notification.internalAudience then
      dep.notification.internalSecret = dep.auth.jwtSecret
    else dep.auth.jwtAudience = dep.notification.userAudience ∧
      dep.notification.userSecret = dep.auth.jwtSecret

instance : (v : Verifier) → Decidable (dep.Trusts v)
  | .userJwtStrategy | .verifyToken => inferInstanceAs (Decidable (_ ∧ _ ∧ _))
  | .authCombinedJwtStrategy => inferInstanceAs (Decidable (_ → _))
  | .notificationCombinedJwtStrategy => by
    unfold Trusts
    infer_instance

end Deployment

/-- The seconds a refresh token is valid. -/
def refreshLifetime (cfg : Config) : Int := numberOr cfg.jwtRefreshExpiresIn (60 * 60 * 24 * 30)

section Accepted

variable {dep : Deployment} {user : User} {issuedAt now : Nat} {expiresIn : Int}

/-- What the verification of a signed token comes down to. -/
theorem verify_sign {payload : Claims} {secret key issuer audience : String}
    {options : Jwt.VerifyOptions} :
    (Jwt.verify (some (Jwt.sign payload secret expiresIn issuer audience issuedAt)) key
      options now).isOk = true ↔
      secret = key ∧ ((now / 1000 : Nat) : Int) < (issuedAt / 1000 : Nat) + expiresIn ∧
        (∀ a ∈ options.audience, audience = a) ∧ ∀ i ∈ options.issuer, issuer = i := by
  simp only [Jwt.verify, Jwt.sign, Option.any_some, Int.ofNat_eq_natCast,
    decide_eq_true_eq, Option.any_eq_true]
  split_ifs with foreign expired wrongAudience wrongIssuer
  · exact iff_of_false nofun fun ⟨same, _⟩ => foreign same
  · exact iff_of_false nofun fun ⟨_, live, _⟩ => absurd expired (Int.not_le.mpr live)
  · obtain ⟨a, given, other⟩ := wrongAudience
    exact iff_of_false nofun fun ⟨_, _, audiences, _⟩ => other (congrArg some (audiences a given))
  · obtain ⟨i, given, other⟩ := wrongIssuer
    exact iff_of_false nofun fun ⟨_, _, _, issuers⟩ => other (congrArg some (issuers i given))
  · refine iff_of_true rfl ⟨Decidable.not_not.mp foreign, Int.not_le.mp expired,
      fun a given => ?_, fun i given => ?_⟩
    · exact Decidable.byContradiction fun other =>
        wrongAudience ⟨a, given, fun same => other (Option.some.inj same)⟩
    · exact Decidable.byContradiction fun other =>
        wrongIssuer ⟨i, given, fun same => other (Option.some.inj same)⟩

theorem isOk_map {ε α β : Type} {x : Except ε α} {f : α → β} : (x.map f).isOk = x.isOk := by
  cases x <;> rfl

/-- The gateway compares the secret, the audience and the issuer. -/
theorem verify_gateway (user : User) :
    (Jwt.verify (some (AuthService.sign dep.auth user expiresIn issuedAt)) dep.gateway.secret
      { issuer := some dep.gateway.issuer, audience := some dep.gateway.audience } now).isOk =
        true ↔
    dep.Trusts .userJwtStrategy ∧ ((now / 1000 : Nat) : Int) <
      (issuedAt / 1000 : Nat) + expiresIn := by
  rw [AuthService.sign, verify_sign]
  simp only [Deployment.Trusts, Option.mem_def, Option.some.injEq, forall_eq']
  constructor
  · rintro ⟨secret, live, audience, issuer⟩
    exact ⟨⟨secret.symm, issuer.symm, audience.symm⟩, live⟩
  · rintro ⟨⟨secret, issuer, audience⟩, live⟩
    exact ⟨secret.symm, live, audience.symm, issuer.symm⟩

/-- The combined strategies compare the secret alone. -/
theorem verify_combined {secret : String} :
    (Jwt.verify (some (AuthService.sign dep.auth user expiresIn issuedAt)) secret {} now).isOk =
      true ↔ secret = dep.auth.jwtSecret ∧
        ((now / 1000 : Nat) : Int) < (issuedAt / 1000 : Nat) + expiresIn := by
  rw [AuthService.sign, verify_sign]
  simp [eq_comm]

theorem aud_signed {payload : Claims} {secret : String}
    (verified : Jwt.verify (some (AuthService.sign dep.auth user expiresIn issuedAt)) secret
      {} now = .ok payload) :
    payload.aud = some dep.auth.jwtAudience := by
  cases Option.some.inj (Jwt.verify_signed verified)
  rfl

/-- A verified token passes a validation that knows its audience. -/
theorem validated_isOk {ε : Type} {secret : String} {refused : String → ε}
    {validate : Claims → Except ε Js}
    (known : ∀ payload, payload.aud = some dep.auth.jwtAudience → (validate payload).isOk = true) :
    (match Jwt.verify (some (AuthService.sign dep.auth user expiresIn issuedAt)) secret {} now with
      | .error message => .error (refused message)
      | .ok payload => validate payload : Except ε Js).isOk = true ↔
      secret = dep.auth.jwtSecret ∧
        ((now / 1000 : Nat) : Int) < (issuedAt / 1000 : Nat) + expiresIn := by
  rw [← verify_combined]
  cases verified : Jwt.verify
    (some (AuthService.sign dep.auth user expiresIn issuedAt)) secret {} now with
  | error message => exact Iff.rfl
  | ok payload => exact iff_of_true (known payload (aud_signed verified)) rfl

theorem accepts_authCombined :
    dep.Accepts (AuthService.sign dep.auth user expiresIn issuedAt) now .authCombinedJwtStrategy ↔
    dep.Trusts .authCombinedJwtStrategy ∧
      ((now / 1000 : Nat) : Int) < (issuedAt / 1000 : Nat) + expiresIn := by
  have decoded : Jwt.decode (AuthService.sign dep.auth user expiresIn issuedAt) = some _ := rfl
  have known : ∀ payload : Claims, payload.aud = some dep.auth.jwtAudience →
      (CombinedJwtStrategy.validate dep.auth payload).isOk = true := by
    intro payload audience
    unfold CombinedJwtStrategy.validate
    rw [audience, if_pos rfl]
    split <;> rfl
  simp only [Deployment.Accepts, CombinedJwtStrategy.authenticate,
    CombinedJwtStrategy.secretOrKeyProvider, decoded, Deployment.Trusts, Option.some.injEq]
  by_cases internal : dep.auth.jwtAudience = dep.auth.internalAudience
  · simp only [internal, if_true, true_imp_iff]
    exact validated_isOk known
  · simp only [internal, if_false, if_true, false_imp_iff, true_and]
    exact (validated_isOk known).trans (and_iff_right rfl)

theorem accepts_notificationCombined :
    dep.Accepts (AuthService.sign dep.auth user expiresIn issuedAt) now
      .notificationCombinedJwtStrategy ↔ dep.Trusts .notificationCombinedJwtStrategy ∧
        ((now / 1000 : Nat) : Int) < (issuedAt / 1000 : Nat) + expiresIn := by
  have decoded : Jwt.decode (AuthService.sign dep.auth user expiresIn issuedAt) = some _ := rfl
  simp only [Deployment.Accepts, Notification.CombinedJwtStrategy.authenticate,
    Notification.CombinedJwtStrategy.secretOrKeyProvider, decoded,
    Deployment.Trusts, Option.some.injEq]
  by_cases internal : dep.auth.jwtAudience = dep.notification.internalAudience
  · have known : ∀ payload : Claims, payload.aud = some dep.auth.jwtAudience →
        (Notification.CombinedJwtStrategy.validate dep.notification payload).isOk = true := by
      intro payload audience
      rw [Notification.CombinedJwtStrategy.validate, audience, internal, if_pos rfl]
      rfl
    rw [if_pos internal, if_pos internal]
    exact validated_isOk known
  · rw [if_neg internal, if_neg internal]
    by_cases user : dep.auth.jwtAudience = dep.notification.userAudience
    · have known : ∀ payload : Claims, payload.aud = some dep.auth.jwtAudience →
          (Notification.CombinedJwtStrategy.validate dep.notification payload).isOk = true := by
        intro payload audience
        rw [Notification.CombinedJwtStrategy.validate, audience, user, if_pos rfl]
        split <;> rfl
      rw [if_pos user]
      refine (validated_isOk known).trans (and_congr_left fun _ => (and_iff_right user).symm)
    · rw [if_neg user]
      exact iff_of_false nofun fun trusted => user trusted.1.1

/-- A verifier accepts a token of auth-service, for whatever use and lifetime it was signed,
as long as it has not expired, if its settings are those under which auth-service signs. -/
theorem accepts_signed (v : Verifier) :
    dep.Accepts (AuthService.sign dep.auth user expiresIn issuedAt) now v ↔
      dep.Trusts v ∧ ((now / 1000 : Nat) : Int) < (issuedAt / 1000 : Nat) + expiresIn := by
  cases v with
  | userJwtStrategy =>
    rw [← verify_gateway user, Deployment.Accepts, Gateway.UserJwtStrategy.authenticate, isOk_map]
  | verifyToken =>
    refine Iff.trans ?_ (verify_gateway user)
    rw [Deployment.Accepts, Gateway.CoreWebsocketGateway.verifyToken]
    split <;> rename_i verified <;> simp [verified, Except.isOk, Except.toBool]
  | authCombinedJwtStrategy => exact accepts_authCombined
  | notificationCombinedJwtStrategy => exact accepts_notificationCombined

theorem accepts_refreshToken (v : Verifier) :
    dep.Accepts (AuthService.refreshTokenOf dep.auth user issuedAt) now v ↔
      dep.Trusts v ∧ ((now / 1000 : Nat) : Int) <
        (issuedAt / 1000 : Nat) + refreshLifetime dep.auth :=
  accepts_signed v

end Accepted
section Issued

variable {cfg : Config}

/-- The refresh token that a command hands to the client. -/
def Cmd.handsOut? : Cmd → Option Token
  | .setCookie (.refreshToken token _) => some token
  | _ => none

/-- A refresh token that the command hands out is signed for a user. -/
def Cmd.Signed (cfg : Config) (c : Cmd) : Prop :=
  ∀ token ∈ c.handsOut?, ∃ user issuedAt, token = AuthService.refreshTokenOf cfg user issuedAt

theorem signed_other {c : Cmd} (other : c.handsOut? = none) : c.Signed cfg := by
  intro token handed
  rw [other] at handed
  contradiction

theorem signed_issueless {c : Cmd} (issueless : Issueless c) : c.Signed cfg := by
  cases c with
  | setCookie => contradiction
  | _ => exact signed_other rfl

theorem signed_issuing {c : Cmd} (issuing : Issuing cfg c) : c.Signed cfg := by
  cases issuing with
  | plain plain => exact signed_issueless plain.issueless
  | token user issuedAt maxAge =>
    rintro token ⟨⟩
    exact ⟨user, issuedAt, rfl⟩
  | _ => exact signed_other rfl

theorem signed_body (q : Call) : (body cfg q).Uses (Cmd.Signed cfg) := by
  apply (uses_body q).mono
  intro c used
  cases q with
  | login | refresh => exact signed_issuing used
  | verify => exact signed_issueless used
  | _ => exact signed_issueless (Plain.issueless used)

end Issued

/-- Some call of the pool has set the refresh token cookie to the token. -/
def Issued (pool : AuthPool) (token : Token) : Prop :=
  ∃ th ∈ pool.threads, ∃ e ∈ th.trace, e.cmd.handsOut? = some token

instance (pool : AuthPool) (token : Token) : Decidable (Issued pool token) :=
  inferInstanceAs (Decidable (∃ th ∈ pool.threads, ∃ e ∈ th.trace, e.cmd.handsOut? = some token))

/-- `iat` of the token is not in the future. -/
def SignedBy (now : Nat) (token : Token) : Prop :=
  ∀ claims, Jwt.decode token = some claims → ∀ iat ∈ claims.iat, iat ≤ now / 1000

/-- No verifier lets the token in, at any time since it was signed. -/
def Deployment.Refuses (dep : Deployment) (token : Token) : Prop :=
  ∀ now, SignedBy now token → ∀ v, ¬ dep.Accepts token now v

/-- The refresh tokens that auth-service issues in any run are no access credentials
exactly if they expire at once, or no verifier trusts the signature of auth-service. -/
theorem refresh_tokens_refused_iff {dep : Deployment} {pool : AuthPool} {token : Token}
    (reachable : (authSystem dep.auth).Reachable System.Any (fun _ => True) pool)
    (issued : Issued pool token) :
    dep.Refuses token ↔ refreshLifetime dep.auth ≤ 0 ∨ ∀ v, ¬ dep.Trusts v := by
  obtain ⟨th, started, e, executed, handed⟩ := issued
  obtain ⟨t, found⟩ := Pool.mem_threads.mp started
  obtain ⟨user, issuedAt, rfl⟩ := reachable.allowed signed_body found executed token handed
  constructor
  · intro refuses
    by_cases expired : refreshLifetime dep.auth ≤ 0
    · exact .inl expired
    · refine .inr fun v trusts => refuses issuedAt ?_ v
        (accepts_refreshToken v |>.mpr ⟨trusts, by omega⟩)
      rintro _ ⟨⟩ _ ⟨⟩
      exact Nat.le_refl _
  · intro untrusted now signed v accepts
    have since : issuedAt / 1000 ≤ now / 1000 := signed _ rfl _ rfl
    obtain ⟨trusts, live⟩ := (accepts_refreshToken v).mp accepts
    rcases untrusted with expired | never
    · omega
    · exact never v trusts

section Sample

/-- All services share the settings for user tokens, here the defaults. -/
def shared : Deployment where
  auth := Config.default
  notification := { internalSecret := "change-internal", userSecret := "change-me" }

/-- A user logs in and logs out everywhere, and an hour passes. -/
def loggedOutSteps : List SampleStep :=
  loginSteps ++ .spawn (.logoutAll (.obj [])) :: steps 1 ["", "", "", ""] ++ [.act (.tick 3600000)]

/-- The reply to that login, with its access token. -/
def firstResponse : LoginResponse where
  id := aliceId
  email := "alice@mail.com"
  permVersion := 1
  accessToken := AuthService.sign Config.default loginUser 900 0

/-- The tokens of the first call. -/
def repliedTokens? (pool : AuthPool) : Option LoginResponse :=
  match (pool.thread? 0).bind Thread.result? with
  | some (.ok (.tokens response)) => some response
  | _ => none

theorem trusts_shared (v : Verifier) : shared.Trusts v := by
  cases v <;> decide

/-- An hour after the session was revoked the access token has expired, and the refresh
token is accepted by every verifier. -/
theorem refresh_token_grants_access : ∃ pool response,
    (authSystem shared.auth).Reachable System.Any (fun _ => True) pool ∧
    repliedTokens? pool = some response ∧ Issued pool firstToken ∧
    (∀ row ∈ pool.store.db.refreshTokens.rows, row.revokedAt ≠ none) ∧
    ∀ v, ¬ shared.Accepts response.accessToken pool.store.now v ∧
    shared.Accepts firstToken pool.store.now v := by
  have tested : ((authSystem shared.auth).replay System.Any
      (System.idle loginStore) loggedOutSteps).any
      (fun pool => decide (repliedTokens? pool = some firstResponse) &&
        decide (Issued pool firstToken) &&
        decide (∀ row ∈ pool.store.db.refreshTokens.rows, row.revokedAt ≠ none) &&
          pool.store.now = 3600000) = true := by
    decide +kernel
  obtain ⟨pool, run, passed⟩ := System.run_of_replay tested
  simp only [Bool.and_eq_true, decide_eq_true_eq] at passed
  obtain ⟨⟨⟨replied, issued⟩, revoked⟩, later⟩ := passed
  refine ⟨pool, firstResponse, ⟨loginStore, trivial, run⟩, replied, issued,
    revoked, fun v => ⟨?_, ?_⟩⟩
  · rw [later]
    exact fun accepted => absurd ((accepts_signed v).mp accepted).2 (by decide)
  · rw [later]
    exact (accepts_refreshToken v).mpr ⟨trusts_shared v, by decide⟩

/-- A refresh lifetime that is not positive. -/
def expiring : Deployment :=
  { shared with auth := { Config.default with jwtRefreshExpiresIn := some (-1) } }

/-- There the token of a login opens nothing, although every verifier trusts its signature. -/
theorem refresh_tokens_refused_expiring : ∃ pool token,
    (authSystem expiring.auth).Reachable System.Any (fun _ => True) pool ∧ Issued pool token ∧
    (∀ v, expiring.Trusts v) ∧ expiring.Refuses token := by
  have tested : ((authSystem expiring.auth).replay System.Any
      (System.idle loginStore) loginSteps).any
      (fun pool => decide (Issued pool (AuthService.refreshTokenOf expiring.auth loginUser 0))) =
        true := by decide +kernel
  obtain ⟨pool, run, passed⟩ := System.run_of_replay tested
  have reachable : (authSystem expiring.auth).Reachable System.Any (fun _ => True) pool :=
    ⟨loginStore, trivial, run⟩
  have issued := of_decide_eq_true passed
  exact ⟨pool, _, reachable, issued, fun v => by cases v <;> decide,
    (refresh_tokens_refused_iff reachable issued).mpr (.inl (by decide))⟩

end Sample
end Auth
end CorePlatform
