import CorePlatform.Auth.Rules

/-! Which sessions a logout request revokes. The principal that the strategy builds has
no `id`, so that the handlers pass an absent user filter to the database. -/
namespace CorePlatform.Auth
open Async Relational

/-- The request carries a user token of `userId` that `CombinedJwtAuthGuard` accepts. -/
def UserJwt (cfg : Config) (req : Request) (now : Nat) (userId : String) : Prop :=
  ∃ user, CombinedJwtStrategy.authenticate cfg req.authorization now = .ok user ∧
    user.get "type" = .str "api" ∧ (user.get "data").get "userId" = .str userId

/-- `revokedAt` changes on sessions of `userId` only. -/
def RevokesOnly (userId : String) (before after : Store) : Prop :=
  ∀ row ∈ before.db.refreshTokens, ∀ row' ∈ after.db.refreshTokens, row'.id = row.id →
    row'.revokedAt ≠ row.revokedAt → row.userId = userId

def NoLiveSession (userId : String) (s : Store) : Prop :=
  ∀ row ∈ s.db.refreshTokens, row.userId = userId → row.revokedAt ≠ none

variable {cfg : Config} {s : Store} {req : Request} {userId : String}

theorem authenticate_get_id {bearer : Option Token} {now : Nat} {user : Js}
    (accepted : CombinedJwtStrategy.authenticate cfg bearer now = .ok user) :
    user.get "id" = .undefined := by
  simp only [CombinedJwtStrategy.authenticate] at accepted
  repeat' split at accepted
  all_goals try contradiction
  simp only [CombinedJwtStrategy.validate] at accepted
  split at accepted
  · rw [← Except.ok.inj accepted]
    rfl
  · split at accepted
    · rw [← Except.ok.inj accepted]
      rfl
    · contradiction

section Frame

variable {w : RefreshTokenWhere} {revokedAt : Nat}

theorem revokesOnly_refl : RevokesOnly userId s s := by
  intro row found row' found' same changed
  rw [Table.eq_of_key found' found same] at changed
  contradiction

theorem revokesOnly_revokeMany : RevokesOnly userId s (s.revokeMany w revokedAt) ↔
    ∀ row ∈ s.db.refreshTokens, w.holds s.db.users row → row.revokedAt ≠ some revokedAt →
      row.userId = userId := by
  constructor
  · intro frame row found matching changed
    have updated : { row with revokedAt := some revokedAt } ∈
        (s.revokeMany w revokedAt).db.refreshTokens :=
      mem_revokeMany.mpr ⟨row, found, if_pos matching⟩
    exact frame row found _ updated rfl changed.symm
  · intro own row found row' found' same changed
    obtain ⟨old, inTable, rfl⟩ := mem_revokeMany.mp found'
    have : old = row := Table.eq_of_key inTable found (by split at same <;> exact same)
    subst this
    split at changed
    · rename_i matching
      exact own old inTable matching changed.symm
    · contradiction

theorem noLiveSession_revokeMany :
    NoLiveSession userId (s.revokeMany { live := true } revokedAt) := by
  intro row found _
  obtain ⟨old, _, rfl⟩ := mem_revokeMany.mp found
  split
  · nofun
  · rename_i unmatched
    intro live
    exact unmatched ((holds_live none none old).mpr ⟨nofun, nofun, live⟩)

end Frame

/-- A logout request of a user revokes sessions of that user only, and `logout-all`
every one of them, exactly when no other user's session is in its way: none that is
live at all, or none that the cookies of the request select. -/
theorem logout_revokes_own_iff (accepted : UserJwt cfg req s.now userId) :
    ((∀ r t, Runs semantics (AuthController.logoutAll cfg req) s r t →
        RevokesOnly userId s t ∧ ∀ out, r = .ok out → NoLiveSession userId t) ↔
      ∀ row ∈ s.db.refreshTokens, row.revokedAt = none → row.userId = userId) ∧
    ((∀ r t, Runs semantics (AuthController.logoutDevice cfg req) s r t → RevokesOnly userId s t) ↔
      ∀ row ∈ s.db.refreshTokens, row.revokedAt = none →
        (∀ d, req.deviceId = some d → d = row.deviceId) →
        req.refreshToken = some row.tokenHash.plain → row.userId = userId) := by
  obtain ⟨user, authenticated, _⟩ := accepted
  have noId := authenticate_get_id authenticated
  rw [← post_iff_runs, ← post_iff_runs]
  constructor
  · have all : RevokesOnly userId s (s.revokeMany { live := true } s.now) ↔
        ∀ row ∈ s.db.refreshTokens, row.revokedAt = none → row.userId = userId := by
      rw [revokesOnly_revokeMany]
      refine forall_congr' fun row => forall_congr' fun _ => ?_
      rw [holds_live]
      constructor
      · intro own live
        exact own ⟨by rintro _ ⟨⟩, by rintro _ ⟨⟩, live⟩ (by rw [live]; rintro ⟨⟩)
      · rintro own ⟨_, _, live⟩ _
        exact own live
    simp [AuthController.logoutAll, post_bind, post_combinedJwtAuthGuard, authenticated,
      AuthService.logoutAll, noId, filterValue, post_logoutAllDevices, all, revokesOnly_refl,
      noLiveSession_revokeMany]
  · have one : ∀ row ∈ s.db.refreshTokens, row.revokedAt = none →
        (RevokesOnly userId s (s.revokeMany { id := some row.id } s.now) ↔
          row.userId = userId) := by
      intro row found live
      rw [revokesOnly_revokeMany]
      constructor
      · intro own
        exact own row found ((holds_id row.id row).mpr rfl) (by rw [live]; rintro ⟨⟩)
      · intro own other inTable matching _
        rw [← Table.eq_of_key found inTable ((holds_id row.id other).mp matching), own]
    simp only [AuthController.logoutDevice, post_bind, post_combinedJwtAuthGuard, authenticated,
      AuthService.logoutDevice, noId, filterValue, Prog.pure_eq, post_done, post_logoutDevice,
      post_clearCookie, revokesOnly_refl, holds_live, true_and, implies_true]
    refine forall_congr' fun row => forall_congr' fun found => ?_
    constructor
    · intro own live device presented
      exact (one row found live).mp (own ⟨by rintro _ ⟨⟩, device, live⟩ presented)
    · rintro own ⟨_, device, live⟩ presented
      exact (one row found live).mpr (own live device presented)

section Sample

/-- Two users with one live session each. -/
def aliceSession : RefreshToken :=
  { id := sessionId1, userId := aliceId, tokenHash := ⟨argonSalt1, .raw "a"⟩, expiresAt := 1000
    deviceId := laptopId }

def bobSession : RefreshToken :=
  { id := sessionId2, userId := bobId, tokenHash := ⟨argonSalt2, .raw "b"⟩, expiresAt := 1000
    deviceId := phoneId }

def twoSessions : Store := { db := { refreshTokens := ⟨[aliceSession, bobSession], by decide⟩ } }

def userTokenOf (userId : String) : Token :=
  Jwt.sign { sub := some userId, email := some (userId ++ "@mail.com"), permVersion := some 1 }
    Config.default.jwtSecret 900 "auth-service" "api" 0

def logoutRequest (userId : String) : Request := { authorization := some (userTokenOf userId) }

theorem userJwt_logoutRequest : UserJwt Config.default (logoutRequest aliceId) 0 aliceId :=
  ⟨_, rfl, rfl, rfl⟩

/-- Alice's `logout-all` revokes Bob's session. -/
theorem logoutAll_revokes_another_user : UserJwt Config.default (logoutRequest aliceId) 0 aliceId ∧
    ¬ ∀ r t, Runs semantics (AuthController.logoutAll Config.default
      (logoutRequest aliceId)) twoSessions r t →
      RevokesOnly aliceId twoSessions t ∧ ∀ out, r = .ok out → NoLiveSession aliceId t := by
  refine ⟨userJwt_logoutRequest, fun claim => ?_⟩
  have frame := (claim (.ok "logout success") (twoSessions.revokeMany { live := true } 0)
    (runs_eval (show Prog.eval semantics _ twoSessions [{}, {}, {}, {}, {}] = some _ from rfl))).1
  have revoked : { bobSession with revokedAt := some 0 } ∈
      (twoSessions.revokeMany { live := true } 0).db.refreshTokens := by decide
  exact absurd (frame bobSession (by decide) _ revoked rfl nofun) (by decide)

def oneSession : Store := { db := { refreshTokens := ⟨[aliceSession], by decide⟩ } }

/-- The condition holds where only sessions of the requesting user are live. -/
theorem logout_revokes_own_alone :
    (∀ r t, Runs semantics (AuthController.logoutAll Config.default
      (logoutRequest aliceId)) oneSession r t →
      RevokesOnly aliceId oneSession t ∧ ∀ out, r = .ok out → NoLiveSession aliceId t) ∧
    ∀ r t, Runs semantics (AuthController.logoutDevice Config.default
      (logoutRequest aliceId)) oneSession r t → RevokesOnly aliceId oneSession t := by
  have accepted : UserJwt Config.default (logoutRequest aliceId) oneSession.now aliceId :=
    userJwt_logoutRequest
  have owned : ∀ row ∈ oneSession.db.refreshTokens, row.userId = aliceId := by decide
  exact ⟨(logout_revokes_own_iff accepted).1.mpr fun row found _ => owned row found,
    (logout_revokes_own_iff accepted).2.mpr fun row found _ _ _ => owned row found⟩

end Sample
end CorePlatform.Auth
