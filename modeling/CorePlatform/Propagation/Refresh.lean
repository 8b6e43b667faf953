import CorePlatform.Propagation.System

/-! Role changes and the refresh tokens issued before them. A role change gives the user the next
version; the query of a refresh asks for the version in the token. -/
namespace CorePlatform.Propagation
open Async Relational
open Auth (RefreshToken Presentable Follows tokenVersion?)
open Roles (VersionIs WritesSuccessor commits)

/-- The users are the same for both kinds of calls. -/
theorem version_shared {p : Service} {userId : String} {v : Int} :
    VersionIs userId v p.roles.store ↔ Auth.HasVersion userId v p.auth.store := by
  rw [VersionIs, p.shared]
  rfl

/-- In every state that a run of auth calls and role calls reaches, a refresh with the token of a
live session succeeds and carries the user's current version exactly if that is the version in the
token. -/
theorem refresh_follows_iff {cfg : Auth.Config} {p : Service} {session : RefreshToken}
    (reachable : Reachable cfg p) (presentable : Presentable cfg p.auth.store session) :
    Follows cfg session p.auth.store ↔
      ∃ v, tokenVersion? session.tokenHash.plain = some v ∧
      VersionIs session.userId v p.roles.store := by
  have issued := Auth.sessions_issued reachable.auth session presentable.stored
  simp only [version_shared]
  exact Auth.follows_iff presentable issued

section Changes

variable {cfg : Auth.Config} {userId : String} {v : Int} {n : Nat}
  {p p' : Service} {label : Step cfg}

/-- Every role change of the user that commits writes the successor of the version. -/
def Successive (userId : String) (p : Service) : Step cfg → Prop
  | .roles label => WritesSuccessor userId p.roles label
  | .auth _ => True

instance (userId : String) (p : Service) :
    (label : Step cfg) → Decidable (Successive userId p label)
  | .roles label => inferInstanceAs (Decidable (WritesSuccessor userId p.roles label))
  | .auth _ => .isTrue trivial

theorem version_updateUser {s : Auth.Store} {id : String} {f : Auth.User → Auth.User}
    {same : ∀ u, (f u).id = u.id} {email : ∀ u, (f u).email = u.email}
    (kept : ∀ u, (f u).permVersion = u.permVersion) (is : Auth.HasVersion userId v s) :
    Auth.HasVersion userId v (s.updateUser id f same email) := by
  obtain ⟨user, found, owner, version⟩ := is
  refine ⟨_, Auth.mem_updateUser.mpr ⟨user, found, rfl⟩, ?_⟩
  split
  · exact ⟨(same user).trans owner, (kept user).trans version⟩
  · exact ⟨owner, version⟩

theorem exec_version {c : Auth.Cmd} {choice : Auth.Choice}
    {r : Except Exn c.Resp} {s s' : Auth.Store} (executed : Auth.exec c choice s = some (r, s'))
    (is : Auth.HasVersion userId v s) : Auth.HasVersion userId v s' := by
  cases Auth.exec_usersEffect executed with
  | none _ _ users =>
    obtain ⟨user, found, owner⟩ := is
    exact ⟨user, users ▸ found, owner⟩
  | create _ _ inserted =>
    obtain ⟨user, found, owner⟩ := is
    exact ⟨user, (Table.mem_insert? inserted).mpr (.inr found), owner⟩
  | activate id => exact version_updateUser (fun _ => rfl) is
  | setPassword id passwordHash => exact version_updateUser (fun _ => rfl) is

/-- The auth calls set no version. -/
theorem auth_version {pool pool' : Auth.AuthPool} {l : Auth.Step cfg}
    (stepped : (Auth.authSystem cfg).step pool l = some pool') (other : setsVersion l = false)
    (is : Auth.HasVersion userId v pool.store) : Auth.HasVersion userId v pool'.store := by
  cases System.step_effect stepped with
  | spawn q => exact is
  | act a s acted =>
    cases a with
    | tick ms =>
      cases Option.some.inj acted
      exact is
    | setPermVersion userId version => contradiction
  | run t choice th c k r s _ _ executed => exact exec_version executed is

/-- A step adds the changes that it commits to the version. -/
theorem step_version (stepped : step cfg p label = some p') (met : Successive userId p label)
    (is : VersionIs userId v p.roles.store) : ∃ n : Nat,
      p'.roles.executed (commits userId) = p.roles.executed (commits userId) + n ∧
      VersionIs userId (v + n) p'.roles.store := by
  obtain ⟨l, _, other, there, threads⟩ | ⟨l, _, rfl, there, _⟩ := step_cases stepped
  · refine ⟨0, by rw [Pool.executed, Pool.executed, threads, Nat.add_zero], ?_⟩
    rw [Int.natCast_zero, Int.add_zero, version_shared]
    exact auth_version there other (version_shared.mp is)
  · generalize p'.roles = roles at there ⊢
    cases System.step_effect there with
    | spawn q => exact ⟨0, Pool.executed_add q _, by rwa [Int.natCast_zero, Int.add_zero]⟩
    | act a => cases a
    | run t choice th c k r s found awaits executed =>
      have next : th.next? = some c := by rw [Thread.next?, awaits]
      have unchanged : VersionIs userId (v + (0 : Nat)) p.roles.store := by
        rwa [Int.natCast_zero, Int.add_zero]
      have after := Roles.version_step unchanged executed (met th found c next).1
      rw [Nat.zero_add] at after
      exact ⟨tally (commits userId) ⟨c, r⟩, Pool.executed_set found rfl, after⟩

/-- So does a run. -/
theorem run_version (run : Run cfg (Successive userId) p p')
    (is : VersionIs userId v p.roles.store) : ∃ n : Nat,
    p'.roles.executed (commits userId) = p.roles.executed (commits userId) + n ∧
    VersionIs userId (v + n) p'.roles.store := by
  induction run with
  | refl => exact ⟨0, rfl, by rwa [Int.natCast_zero, Int.add_zero]⟩
  | tail _ last ih =>
    obtain ⟨label, stepped, met⟩ := last
    obtain ⟨n, counted, is⟩ := ih
    obtain ⟨k, counted', is'⟩ := step_version stepped met is
    refine ⟨n + k, by rw [counted', counted, Nat.add_assoc], ?_⟩
    rwa [Int.natCast_add, ← Int.add_assoc]

/-- While no increment is lost, the session of a user whose roles have changed since its token was
issued is refused. -/
theorem changes_refused {session : RefreshToken} (reachable : Reachable cfg p)
    (run : Run cfg (Successive session.userId) p p')
    (issued : tokenVersion? session.tokenHash.plain = some v)
    (is : VersionIs session.userId v p.roles.store)
    (changed : p.roles.executed (commits session.userId) <
      p'.roles.executed (commits session.userId))
    (presentable : Presentable cfg p'.auth.store session) :
    ¬ Follows cfg session p'.auth.store := by
  obtain ⟨n, counted, is'⟩ := run_version run is
  intro follows
  have token := Auth.sessions_issued (reachable.run run).auth session presentable.stored
  obtain ⟨w, version, current⟩ := (Auth.follows_iff presentable token).mp follows
  cases Option.some.inj (issued.symm.trans version)
  have same := (version_shared.mpr current).unique is'
  omega

end Changes

section Sample

open Auth (Config)

def alice : Auth.User :=
  { id := aliceId, email := "alice@mail.com", passwordHash := ⟨argonSalt0, "secret"⟩
    createdAt := 0 }

/-- A user without sessions and roles. -/
def start : Service where
  auth := System.idle { db := { users := Roles.staffed.users } }
  roles := System.idle { db := Roles.staffed }
  shared := rfl

def loginSteps : List (Step Config.default) :=
  .auth (.spawn (.login alice {})) ::
    [laptopId, "", "", "", argonSalt2, "", sessionId1, "", "", ""].map
      fun draw => .auth (.run 0 { draw })

def assignSteps : List (Step Config.default) :=
  .roles (.spawn (.assignRole aliceId "editor")) :: List.replicate 5 (.roles (.run 0 {}))

/-- The session of the login. -/
def session : RefreshToken where
  id := sessionId1
  userId := aliceId
  tokenHash := ⟨argonSalt2, Auth.AuthService.refreshTokenOf Config.default alice 0⟩
  expiresAt := 2592000000
  deviceId := laptopId
  device := Auth.AuthService.getDeviceData Config.default {}

/-- The session is the only one and can be presented, and the user has the version. -/
def holdsSession (v : Int) (p : Service) : Bool :=
  p.auth.store.db.refreshTokens.rows = [session] && p.auth.store.now < session.expiresAt &&
    VersionIs aliceId v p.roles.store &&
    (Jwt.verify (some session.tokenHash.plain) Config.default.jwtSecret
      { issuer := some Config.default.jwtIssuer, audience := some Config.default.jwtAudience }
        p.auth.store.now).isOk

theorem presentable_of_holds {v : Int} {p : Service} (held : holdsSession v p = true) :
    Presentable Config.default p.auth.store session ∧ VersionIs aliceId v p.roles.store := by
  simp only [holdsSession, Bool.and_eq_true, decide_eq_true_eq] at held
  obtain ⟨⟨⟨only, unexpired⟩, is⟩, valid⟩ := held
  have member : ∀ row, row ∈ p.auth.store.db.refreshTokens ↔ row = session := by
    intro row
    rw [← Table.mem_rows, only, List.mem_singleton]
  refine ⟨⟨(member session).mpr rfl, rfl, unexpired, fun other found _ _ _ =>
    (member other).mp found, valid⟩, is⟩

theorem run_tested {p : Service} {labels : List (Step Config.default)} {test : Service → Bool}
    (tested : (replay Config.default Any p labels).any test = true) :
    ∃ p', Run Config.default Any p p' ∧ test p' = true := by
  obtain ⟨p', replayed, passed⟩ := (Option.any_eq_true ..).mp tested
  exact ⟨p', run_replay replayed, passed⟩

/-- A login and a role change, one after the other, and the session of the login is refused. -/
theorem role_change_refuses_refresh : ∃ p p', Reachable Config.default p ∧
    Presentable Config.default p.auth.store session ∧
    p.roles.threads = [] ∧ Run Config.default Any p p' ∧
    p'.roles.threads.countP (Roles.changed session.userId) = 1 ∧
    Presentable Config.default p'.auth.store session ∧
    ¬ Follows Config.default session p'.auth.store := by
  have opened : (replay Config.default Any start loginSteps).any (fun p => holdsSession 1 p &&
      p.roles.threads.isEmpty && (replay Config.default Any p assignSteps).any fun p' =>
        holdsSession 2 p' && p'.roles.threads.countP (Roles.changed session.userId) = 1) =
          true := by decide +kernel
  obtain ⟨p, run, tested⟩ := run_tested opened
  simp only [Bool.and_eq_true, List.isEmpty_iff] at tested
  obtain ⟨⟨held, none⟩, assigned⟩ := tested
  obtain ⟨p', run', tested'⟩ := run_tested assigned
  simp only [Bool.and_eq_true, decide_eq_true_eq] at tested'
  obtain ⟨held', changed⟩ := tested'
  obtain ⟨presentable, is⟩ := presentable_of_holds held'
  have reachable : Reachable Config.default p := ⟨start, ⟨rfl, rfl, rfl⟩, run⟩
  refine ⟨p, p', reachable, (presentable_of_holds held).1, none, run', changed,
    presentable, fun follows => ?_⟩
  have issued := Auth.sessions_issued (reachable.run run').auth session presentable.stored
  obtain ⟨v, version, current⟩ := (Auth.follows_iff presentable issued).mp follows
  have first : v = 1 := (Option.some.inj version).symm
  exact absurd ((version_shared.mpr current).unique is) (by rw [first]; decide)

/-- A login, and no role change yet. -/
theorem refresh_follows_sample : ∃ p, Reachable Config.default p ∧
    Presentable Config.default p.auth.store session ∧
    Follows Config.default session p.auth.store := by
  have tested : (replay Config.default Any start loginSteps).any (holdsSession 1) = true := by
    decide +kernel
  obtain ⟨p, run, held⟩ := run_tested tested
  obtain ⟨presentable, is⟩ := presentable_of_holds held
  have reachable : Reachable Config.default p := ⟨start, ⟨rfl, rfl, rfl⟩, run⟩
  exact ⟨p, reachable, presentable, (refresh_follows_iff reachable presentable).mpr ⟨1, rfl, is⟩⟩

end Sample
end CorePlatform.Propagation
