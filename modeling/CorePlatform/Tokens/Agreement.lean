import CorePlatform.Tokens.Strategy

/-! The four verifiers of user tokens: `UserJwtStrategy` and `CoreWebsocketGateway.verifyToken`
of the gateway, which leave audience and issuer to the library, and the two
`CombinedJwtStrategy`, which compare the audience themselves. Tokens are texts here. -/
namespace CorePlatform.Tokens

structure VerifyOptions where
  issuer : String
  audience : String

/-- `jsonwebtoken` with the options `issuer` and `audience` of `jwt.verify`. -/
structure OptionLibrary extends Library where
  verifyWith : String → String → VerifyOptions → Nat → Except String Js

/-- What the library accepts for an audience: the text itself, or an array that holds it. -/
def audienceMatches (audience : String) : Js → Bool
  | .arr elements => elements.any (· = .str audience)
  | aud => aud = .str audience

/-- The options are checked after signature and expiry. -/
structure OptionLibrary.Lawful (lib : OptionLibrary) : Prop extends lib.toLibrary.Lawful where
  options : ∀ {token secret options now payload},
    lib.verifyWith token secret options now = .ok payload ↔
    lib.verify token secret now = .ok payload ∧ audienceMatches options.audience
      (payload.get "aud") = true ∧ payload.get "iss" = .str options.issuer
  provided : ∀ {secret now payload}, lib.verify "" secret now ≠ .ok payload

structure UserJwtStrategy where
  secretOrKey : String
  options : VerifyOptions

namespace UserJwtStrategy

/-- The constructor. -/
def new (env : Env) : UserJwtStrategy where
  secretOrKey := orDefault env.JWT_SECRET "change-me"
  options := ⟨orDefault env.JWT_ISSUER "auth-service", orDefault env.JWT_AUDIENCE "api"⟩

def validate (payload : Js) : Js :=
  .obj [("userId", payload.get "sub"), ("email", payload.get "email"),
    ("permVersion", payload.get "permVersion")]

/-- What passport makes of the strategy for a bearer token. -/
def authenticate (s : UserJwtStrategy) (lib : OptionLibrary) (token : Option String)
    (now : Nat) : Except Exn Js :=
  match token with
  | none | some "" => .error (unauthorized "Unauthorized")
  | some token =>
    match lib.verifyWith token s.secretOrKey s.options now with
    | .error _ => .error (unauthorized "Unauthorized")
    | .ok payload => .ok (validate payload)

end UserJwtStrategy

structure CoreWebsocketGateway where
  jwtSecret : String
  jwtIssuer : String
  jwtAudience : String

namespace CoreWebsocketGateway

/-- The constructor. -/
def new (env : Env) : CoreWebsocketGateway where
  jwtSecret := orDefault env.JWT_SECRET "change-me"
  jwtIssuer := orDefault env.JWT_ISSUER "auth-service"
  jwtAudience := orDefault env.JWT_AUDIENCE "api"

/-- The payload, null where `jwt.verify` throws. -/
def verifyToken (s : CoreWebsocketGateway) (lib : OptionLibrary) (token : String)
    (now : Nat) : Option Js :=
  (lib.verifyWith token s.jwtSecret ⟨s.jwtIssuer, s.jwtAudience⟩ now).toOption

end CoreWebsocketGateway

/-- A gateway and two services that have started on the same three settings of user tokens. -/
structure Deployment where
  gateway : Env
  services : Service → Env
  strategies : Service → CombinedJwtStrategy
  started : ∀ service, CombinedJwtStrategy.new (services service) = .ok (strategies service)
  secret : ∀ service, (services service).JWT_SECRET = gateway.JWT_SECRET
  issuer : ∀ service, (services service).JWT_ISSUER = gateway.JWT_ISSUER
  audience : ∀ service, (services service).JWT_AUDIENCE = gateway.JWT_AUDIENCE

inductive Verifier where
  | userJwtStrategy
  | verifyToken
  | combined (service : Service)

/-- The user of a principal, none for an internal one. -/
def principalUser (service : Service) (principal : Js) : Option Js :=
  if principal.get "type" = .str "internal" then none
  else some (match service with
    | .auth => (principal.get "data").get "userId"
    | .notification => principal.get "userId")

namespace Deployment

variable (d : Deployment)

/-- The settings as the gateway reads them. -/
def settings : UserJwtStrategy := UserJwtStrategy.new d.gateway

/-- The user of whom a verifier takes the token to be, absent where it takes it for no token
of a user. -/
def userOf (lib : OptionLibrary) (token : String) (now : Nat) : Verifier → Option Js
  | .userJwtStrategy =>
      ((UserJwtStrategy.new d.gateway).authenticate lib (some token) now).toOption.map
        (·.get "userId")
  | .verifyToken =>
      ((CoreWebsocketGateway.new d.gateway).verifyToken lib token now).map (·.get "sub")
  | .combined service =>
    ((d.strategies service).authenticate lib.toLibrary service (some token) now).toOption.bind
      (principalUser service)

/-- All verifiers take the token to be of the same user, or none takes it for a user's. -/
def Agree (lib : OptionLibrary) (token : String) (now : Nat) : Prop :=
  ∀ v v', d.userOf lib token now v = d.userOf lib token now v'

/-- The condition on a payload. Where the audience is the configured text, the issuer is the
configured one exactly if the internal tokens have another audience; where it is an array that
holds the text, the issuer is another one. -/
def Uniform (payload : Js) : Prop :=
  if payload.get "aud" = .str d.settings.options.audience then
    ∀ service, payload.get "iss" = .str d.settings.options.issuer ↔
      (d.strategies service).internalAudience ≠ d.settings.options.audience
  else audienceMatches d.settings.options.audience (payload.get "aud") = true →
    payload.get "iss" ≠ .str d.settings.options.issuer

/-- Whether a verifier takes a verified payload for that of a user's token. -/
def Trusts (payload : Js) : Verifier → Prop
  | .userJwtStrategy | .verifyToken =>
      audienceMatches d.settings.options.audience (payload.get "aud") = true ∧
      payload.get "iss" = .str d.settings.options.issuer
  | .combined service => payload.get "aud" = .str d.settings.options.audience ∧
      (d.strategies service).internalAudience ≠ d.settings.options.audience

instance (payload : Js) (v : Verifier) : Decidable (d.Trusts payload v) := by
  cases v <;> (unfold Trusts; infer_instance)

end Deployment

section Verifiers

variable {lib : OptionLibrary} {d : Deployment} {token : String} {now : Nat} {service : Service}

theorem toOption_eq_some {ε α : Type} {r : Except ε α} {a : α} :
    r.toOption = some a ↔ r = .ok a := by
  cases r with
  | error e => exact iff_of_false nofun nofun
  | ok b =>
      exact ⟨fun same => congrArg _ (Option.some.inj same), fun same =>
        congrArg _ (Except.ok.inj same)⟩

/-- A service that has started has a secret for the users' tokens. -/
theorem new_userSettings {env : Env} {s : CombinedJwtStrategy}
    (started : CombinedJwtStrategy.new env = .ok s) (fallback : String) :
    s.userSecret = orDefault env.JWT_SECRET fallback ∧
    s.userAudience = orDefault env.JWT_AUDIENCE "api" := by
  unfold CombinedJwtStrategy.new at started
  split at started
  · contradiction
  · contradiction
  · contradiction
  · contradiction
  · rename_i nonempty _ configured
    rw [← Except.ok.inj started]
    refine ⟨?_, rfl⟩
    rw [configured, orDefault]
    exact nonempty

/-- The services read the users' settings as the gateway does. -/
theorem strategies_settings : (d.strategies service).userSecret = d.settings.secretOrKey ∧
    (d.strategies service).userAudience = d.settings.options.audience := by
  have read := new_userSettings (d.started service) "change-me"
  rw [d.secret, d.audience] at read
  exact read

/-- A payload that the gateway's settings let through. -/
theorem verifyWith_eq (lawful : lib.Lawful) {options : VerifyOptions} {secret : String} :
    (lib.verifyWith token secret options now).toOption =
      (lib.verify token secret now).toOption.filter fun payload =>
      audienceMatches options.audience (payload.get "aud") &&
        decide (payload.get "iss" = .str options.issuer) := by
  ext payload
  simp only [toOption_eq_some, Option.filter_eq_some_iff, Bool.and_eq_true, decide_eq_true_eq]
  exact lawful.options

theorem authenticate_gateway (lawful : lib.Lawful) {s : UserJwtStrategy} :
    (s.authenticate lib (some token) now).toOption =
      (lib.verifyWith token s.secretOrKey s.options now).toOption.map UserJwtStrategy.validate := by
  unfold UserJwtStrategy.authenticate
  split
  · contradiction
  · rename_i empty
    cases empty
    cases verified : lib.verifyWith "" s.secretOrKey s.options now with
    | error e => rfl
    | ok payload => exact absurd (lawful.options.mp verified).1 lawful.provided
  · rename_i same
    cases same
    split <;> simp only [*] <;> rfl

theorem principalUser_userResult {payload : Js} :
    principalUser service (CombinedJwtStrategy.userResult service payload) =
      some (payload.get "sub") := by
  have external : (CombinedJwtStrategy.userResult service payload).get "type" ≠
      .str "internal" := by
    cases service with
    | auth => exact show Js.str "api" ≠ .str "internal" by simp
    | notification => exact show Js.str "user" ≠ .str "internal" by simp
  unfold principalUser
  rw [if_neg external]
  cases service with
  | auth => rfl
  | notification => rfl

theorem truthy_of_get {payload : Js} {name text : String} (found : payload.get name = .str text) :
    payload.truthy = true := by
  cases payload with
  | obj fields => rfl
  | undefined | null | bool | num | str | arr => contradiction

/-- A combined strategy takes a token for a user's if it verifies under the users' secret and
its audience is the users' and not the internal one. -/
theorem authenticate_combined (lawful : lib.Lawful) {s : CombinedJwtStrategy} {user : Js} :
    (∃ principal, s.authenticate lib.toLibrary service (some token) now = .ok principal ∧
      principalUser service principal = some user) ↔
    ∃ payload, lib.verify token s.userSecret now = .ok payload ∧
      (payload.get "aud" = .str s.userAudience ∧ s.internalAudience ≠ s.userAudience) ∧
      payload.get "sub" = user := by
  constructor
  · rintro ⟨principal, accepted, external⟩
    obtain ⟨text, secret, payload, same, provided, verified, validated⟩ := authenticate_ok accepted
    cases same
    have other : payload.get "aud" ≠ .str s.internalAudience := by
      intro internal
      unfold principalUser at external
      rw [if_pos ((type_of_audience validated).mpr internal)] at external
      contradiction
    rw [secret_of_audience (lawful.payload verified) provided, if_neg other] at verified
    simp only [CombinedJwtStrategy.validate, if_neg other] at validated
    split at validated
    · rename_i audience
      obtain rfl := Except.ok.inj validated
      rw [principalUser_userResult] at external
      exact ⟨payload, verified,
        ⟨audience, fun same => other (audience.trans (congrArg _ same.symm))⟩,
        Option.some.inj external⟩
    · contradiction
  · rintro ⟨payload, verified, ⟨audience, apart⟩, rfl⟩
    have other : payload.get "aud" ≠ .str s.internalAudience := by
      rw [audience]
      exact fun same => apart (Js.str.inj same).symm
    have nonempty : token ≠ "" := by
      rintro rfl
      exact lawful.provided verified
    have provided : s.secretOrKeyProvider lib.toLibrary token = .ok s.userSecret := by
      simp only [CombinedJwtStrategy.secretOrKeyProvider, lawful.payload verified,
        truthy_of_get audience, Bool.not_true,
        Bool.false_eq_true, if_false, if_neg other, if_pos audience]
    refine ⟨CombinedJwtStrategy.userResult service payload, ?_, principalUser_userResult⟩
    unfold CombinedJwtStrategy.authenticate
    split
    · contradiction
    · rename_i empty
      cases empty
      contradiction
    · rename_i same
      cases same
      simp only [provided, verified, CombinedJwtStrategy.validate, if_neg other, if_pos audience]

/-- Every verifier works on the payload that verifies under the users' secret. -/
theorem userOf_eq_some (lawful : lib.Lawful) {v : Verifier} {user : Js} :
    d.userOf lib token now v = some user ↔
    ∃ payload, lib.verify token d.settings.secretOrKey now = .ok payload ∧ d.Trusts payload v ∧
    payload.get "sub" = user := by
  cases v with
  | userJwtStrategy =>
    have sub : ∀ payload, (UserJwtStrategy.validate payload).get "userId" = payload.get "sub" :=
      fun _ => rfl
    simp only [Deployment.userOf, authenticate_gateway lawful, Option.map_map, verifyWith_eq lawful,
      Option.map_eq_some_iff,
      Option.filter_eq_some_iff, toOption_eq_some, Bool.and_eq_true, decide_eq_true_eq,
      Function.comp, sub, Deployment.Trusts, and_assoc]
    rfl
  | verifyToken =>
    simp only [Deployment.userOf, CoreWebsocketGateway.verifyToken, verifyWith_eq lawful,
      Option.map_eq_some_iff,
      Option.filter_eq_some_iff, toOption_eq_some, Bool.and_eq_true, decide_eq_true_eq,
      Deployment.Trusts, and_assoc]
    rfl
  | combined service =>
    have combined : (∃ principal, (d.strategies service).authenticate lib.toLibrary service
        (some token) now = .ok principal ∧
        principalUser service principal = some user) ↔ _ := authenticate_combined lawful
    rw [strategies_settings.1, strategies_settings.2] at combined
    simp only [Deployment.userOf, Option.bind_eq_some_iff, toOption_eq_some]
    exact combined

end Verifiers

section Agreement

variable {lib : OptionLibrary} {d : Deployment} {token : String} {now : Nat}

/-- The condition on a payload is that the verifiers judge it alike. -/
theorem uniform_iff {payload : Js} : d.Uniform payload ↔ ∀ v v', d.Trusts payload v ↔
    d.Trusts payload v' := by
  have gateway : (∀ service, d.Trusts payload .userJwtStrategy ↔
      d.Trusts payload (.combined service)) ↔ ∀ v v', d.Trusts payload v ↔ d.Trusts payload v' := by
    constructor
    · intro alike
      have toGateway : ∀ v, d.Trusts payload .userJwtStrategy ↔ d.Trusts payload v := by
        intro v
        cases v with
        | userJwtStrategy => exact Iff.rfl
        | verifyToken => exact Iff.rfl
        | combined service => exact alike service
      exact fun v v' => (toGateway v).symm.trans (toGateway v')
    · exact fun alike service => alike _ _
  rw [← gateway, Deployment.Uniform]
  split
  · rename_i audience
    have matched : audienceMatches d.settings.options.audience
        (.str d.settings.options.audience) = true :=
      decide_eq_true rfl
    refine forall_congr' fun service => ?_
    simp only [Deployment.Trusts, audience, matched, true_and]
  · rename_i other
    simp only [Deployment.Trusts, other, false_and, iff_false, not_and]
    exact ⟨fun foreign _ => foreign, fun foreign => foreign .auth⟩

/-- The verifiers agree on a token unless it verifies under the users' secret and its audience
and issuer are not uniform. -/
theorem verifiers_agree_iff (lawful : lib.Lawful) (d : Deployment) (token : String) (now : Nat) :
    d.Agree lib token now ↔
    ∀ payload, lib.verify token d.settings.secretOrKey now = .ok payload → d.Uniform payload := by
  simp only [uniform_iff]
  constructor
  · intro agree payload verified v v'
    have judged : ∀ v, d.Trusts payload v ↔
        d.userOf lib token now v = some (payload.get "sub") := by
      intro v
      rw [userOf_eq_some lawful]
      constructor
      · exact fun trusts => ⟨payload, verified, trusts, rfl⟩
      · rintro ⟨payload', verified', trusts, _⟩
        cases Except.ok.inj (verified.symm.trans verified')
        exact trusts
    rw [judged, judged, agree v v']
  · intro uniform v v'
    ext user
    rw [userOf_eq_some lawful, userOf_eq_some lawful]
    refine exists_congr fun payload => and_congr_right fun verified => and_congr_left fun _ => ?_
    exact uniform payload verified v v'

end Agreement
section Ideal

/-- The idealised tokens, with the options checked after signature and expiry. -/
def OptionLibrary.ideal (read : String → Token) : OptionLibrary where
  toLibrary := .ideal read
  verifyWith text secret options now :=
    (Jwt.verify (some (read text)) secret
      { issuer := some options.issuer, audience := some options.audience } now).map Claims.toJs

theorem ofString?_eq_str {text? : Option String} {text : String} :
    Js.ofString? text? = .str text ↔ text? = some text := by
  cases text? with
  | none => simp only [Js.ofString?, reduceCtorEq]
  | some other => simp only [Js.ofString?, Js.str.injEq, Option.some.injEq]

theorem audienceMatches_ofString? {audience : String} {text? : Option String} :
    audienceMatches audience (.ofString? text?) = true ↔ text? = some audience := by
  rw [← ofString?_eq_str]
  cases text? <;> exact decide_eq_true_iff

/-- The options only take away from what verifies without them. -/
theorem verify_options {token : Option Token} {secret : String} {options : VerifyOptions}
    {now : Nat} {claims : Claims} :
    Jwt.verify token secret { issuer := some options.issuer, audience := some options.audience }
        now = .ok claims ↔
      Jwt.verify token secret {} now = .ok claims ∧ claims.aud = some options.audience ∧
        claims.iss = some options.issuer := by
  have audience : ∀ claims : Claims, (some options.audience).any (claims.aud ≠ some ·) = true ↔
      ¬ claims.aud = some options.audience := fun claims => decide_eq_true_iff
  have issuer : ∀ claims : Claims, (some options.issuer).any (claims.iss ≠ some ·) = true ↔
      ¬ claims.iss = some options.issuer := fun claims => decide_eq_true_iff
  unfold Jwt.verify
  split
  · simp only [reduceCtorEq, false_and]
  · simp only [reduceCtorEq, false_and]
  · simp only [reduceCtorEq, false_and]
  · simp only [audience, issuer, Option.any_none, Bool.false_eq_true, if_false]
    split_ifs with forged expired own issued
    · simp only [false_and]
    · simp only [false_and]
    · refine ⟨fun same => ?_, And.left⟩
      obtain rfl := Except.ok.inj same
      exact ⟨rfl, own, issued⟩
    · refine iff_of_false id ?_
      rintro ⟨same, -, iss⟩
      obtain rfl := Except.ok.inj same
      exact issued iss
    · refine iff_of_false id ?_
      rintro ⟨same, aud, -⟩
      obtain rfl := Except.ok.inj same
      exact own aud

theorem optionIdeal_lawful {read : String → Token} (empty : read "" = .raw "") :
    (OptionLibrary.ideal read).Lawful where
  payload := (ideal_lawful read).payload
  signed := (ideal_lawful read).signed
  options := by
    intro text secret options now payload
    simp only [OptionLibrary.ideal, Library.ideal]
    constructor
    · intro verified
      obtain ⟨claims, token, rfl, checked⟩ := ideal_signed verified
      obtain ⟨plain, audience, issuer⟩ := verify_options.mp checked
      refine ⟨by rw [plain]; rfl, ?_, ofString?_eq_str.mpr issuer⟩
      exact audienceMatches_ofString?.mpr audience
    · rintro ⟨verified, audience, issuer⟩
      obtain ⟨claims, token, rfl, plain⟩ := ideal_signed verified
      have checked := verify_options.mpr
        ⟨plain, audienceMatches_ofString?.mp audience, ofString?_eq_str.mp issuer⟩
      rw [checked]
      rfl
  provided := by
    intro secret now payload verified
    obtain ⟨claims, token, -⟩ := ideal_signed verified
    rw [empty] at token
    exact Token.noConfusion token

end Ideal

section Sample

def sampleOptionLibrary : OptionLibrary := .ideal readToken

theorem sampleOptionLibrary_lawful : sampleOptionLibrary.Lawful :=
  optionIdeal_lawful (by decide +kernel)

def sampleDeployment : Deployment where
  gateway := { JWT_SECRET := some "user-secret" }
  services _ := sampleEnv
  strategies _ := sampleStrategy
  started _ := rfl
  secret _ := rfl
  issuer _ := rfl
  audience _ := rfl

/-- The services take a token of a foreign issuer, which the gateway refuses. -/
theorem foreign_issuer_disagrees : ¬ ∀ (lib : OptionLibrary) (d : Deployment) (token : String)
    (now : Nat), lib.Lawful → d.Agree lib token now := by
  intro agree
  have gateway : sampleDeployment.userOf sampleOptionLibrary partnerToken 0 .userJwtStrategy =
      none := by decide +kernel
  have service : sampleDeployment.userOf sampleOptionLibrary partnerToken 0 (.combined .auth) =
      some (.str aliceId) := by
    decide +kernel
  have same := agree _ sampleDeployment partnerToken 0 sampleOptionLibrary_lawful .userJwtStrategy
      (.combined .auth)
  exact Option.some_ne_none _ (gateway.symm.trans (same.trans service)).symm

/-- On a token of auth-service all agree. -/
theorem verifiers_agree_sample : sampleDeployment.Agree sampleOptionLibrary aliceToken 0 ∧
    sampleDeployment.userOf sampleOptionLibrary aliceToken 0 .verifyToken =
      some (.str aliceId) := by
  refine ⟨(verifiers_agree_iff sampleOptionLibrary_lawful sampleDeployment aliceToken 0).mpr
    ?_, by decide +kernel⟩
  rintro payload verified
  have token : readToken aliceToken =
      .jwt "user-secret" (userClaims aliceId "alice@mail.com" "auth-service") := by decide +kernel
  simp only [sampleOptionLibrary, OptionLibrary.ideal, Library.ideal] at verified
  obtain ⟨claims, signed, rfl, -⟩ := ideal_signed verified
  obtain ⟨-, rfl⟩ := Token.jwt.inj (token.symm.trans signed)
  rw [Deployment.Uniform, if_pos (by decide +kernel)]
  have issuer : (userClaims aliceId "alice@mail.com" "auth-service").toJs.get "iss" =
      .str sampleDeployment.settings.options.issuer := by decide +kernel
  have apart : sampleStrategy.internalAudience ≠ sampleDeployment.settings.options.audience := by
    decide +kernel
  exact fun service => iff_of_true issuer apart

end Sample
end CorePlatform.Tokens
