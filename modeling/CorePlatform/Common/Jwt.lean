import CorePlatform.Common.Js
import Mathlib.Tactic.SplitIfs

/-! JSON web tokens, idealised: a token string is determined by the signing secret and
the claims, and a signature verifies under exactly the secret it was made with. -/
namespace CorePlatform

/-- The claims the services write and read. `iat` and `exp` are in seconds. -/
structure Claims where
  sub : Option String := none
  email : Option String := none
  permVersion : Option Int := none
  data : Js := .undefined
  iss : Option String := none
  aud : Option String := none
  iat : Option Nat := none
  exp : Option Int := none
  deriving DecidableEq

/-- The payload; an absent claim reads as undefined. -/
def Claims.toJs (claims : Claims) : Js :=
  .obj [("sub", .ofString? claims.sub), ("email", .ofString? claims.email),
    ("permVersion", .ofInt? claims.permVersion), ("data", claims.data),
    ("iat", .ofInt? (claims.iat.map Int.ofNat)), ("exp", .ofInt? claims.exp),
    ("aud", .ofString? claims.aud), ("iss", .ofString? claims.iss)]

/-- A string presented as a token. -/
inductive Token where
  | jwt (secret : String) (claims : Claims)
  | raw (text : String)
  deriving DecidableEq

namespace Jwt

/-- `jwt.sign(payload, secret, { expiresIn, issuer, audience })` at `now` milliseconds. -/
def sign (payload : Claims) (secret : String) (expiresIn : Int) (issuer audience : String)
    (now : Nat) : Token :=
  .jwt secret { payload with
    iss := some issuer, aud := some audience
    iat := some (now / 1000), exp := some (((now / 1000 : Nat) : Int) + expiresIn) }

/-- `jwt.decode`, without looking at the signature. -/
def decode : Token → Option Claims
  | .jwt _ claims => some claims
  | .raw _ => none

structure VerifyOptions where
  issuer : Option String := none
  audience : Option String := none

/-- `jwt.verify(token, secret, options)` at `now` milliseconds: signature, expiry,
audience and issuer, in this order. -/
def verify (token : Option Token) (secret : String) (options : VerifyOptions) (now : Nat) :
    Except String Claims :=
  match token with
  | none | some (.raw "") => .error "jwt must be provided"
  | some (.raw _) => .error "jwt malformed"
  | some (.jwt key claims) =>
    if key ≠ secret then .error "invalid signature"
    else if claims.exp.any (· ≤ Int.ofNat (now / 1000)) then .error "jwt expired"
    else if options.audience.any (claims.aud ≠ some ·) then .error "jwt audience invalid"
    else if options.issuer.any (claims.iss ≠ some ·) then .error "jwt issuer invalid"
    else .ok claims

theorem verify_signed {token : Option Token} {secret : String} {options : VerifyOptions} {now : Nat}
    (verified : verify token secret options now = .ok claims) :
    token = some (.jwt secret claims) := by
  unfold verify at verified
  split at verified
  · contradiction
  · contradiction
  · contradiction
  · rename_i key claims'
    split_ifs at verified with signed expired audience issuer
    obtain rfl := Except.ok.inj verified
    rw [Decidable.not_not.mp signed]

end Jwt
end CorePlatform
