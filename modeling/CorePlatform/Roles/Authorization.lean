import CorePlatform.Auth.Logout
import CorePlatform.Roles.Guards

/-! Who may administer roles. The guards look at the permissions of the sender before
`create` only, where they refuse every user token afterwards; the other four requests of
`RolesController` carry no requirement and reach `RolesService` for every user. -/
namespace CorePlatform.Roles
open Async Relational
open Auth (Config Request UserJwt CombinedJwtStrategy.authenticate userTokenOf)

variable {cfg : Config} {s : Store} {req : Request} {user : Js} {userId : String} {q : RoleRequest}

/-- The request of a user reaches `RolesService` exactly when a role of the user grants
`admin:manage-roles`. -/
def AuthorisedExactly (cfg : Config) (q : RoleRequest) (req : Request) (s : Store)
    (userId : String) : Prop :=
  ∀ r t, Runs (semantics false)
    (guards cfg q (RoleClientService.getHeaders cfg req.authorization s.now)) s r t →
    ((∃ user, r = .ok user) ↔ s.db.Grants userId ADMIN_MANAGE_ROLES)

/-- A user without the code asks to create a role, or a user with the code asks for anything
else. -/
def MeetsGuards (q : RoleRequest) (db : Db) (userId : String) : Prop :=
  match q with
  | .create _ => ¬ db.Grants userId ADMIN_MANAGE_ROLES
  | .update .. | .remove _ | .assignRole .. | .unassignRole .. =>
      db.Grants userId ADMIN_MANAGE_ROLES

section Guards

theorem getHeaders_authorization {token : Token} {now : Nat}
    (sent : req.authorization = some token) :
    (RoleClientService.getHeaders cfg req.authorization now).authorization = req.authorization := by
  rw [sent, RoleClientService.getHeaders, Option.getD_some]

/-- The gateway forwards the token of a user. -/
theorem authenticate_forwarded {now : Nat} {user : Js}
    (accepted : CombinedJwtStrategy.authenticate cfg req.authorization now = .ok user)
    (later : Nat) :
    CombinedJwtStrategy.authenticate cfg
      (RoleClientService.getHeaders cfg req.authorization later).authorization now = .ok user := by
  cases sent : req.authorization with
  | none =>
    rw [sent] at accepted
    contradiction
  | some token =>
    rw [← sent, getHeaders_authorization sent]
    exact accepted

theorem post_combinedJwtAuthGuard {Q : Except Exn Js → Store → Prop}
    (accepted : CombinedJwtStrategy.authenticate cfg req.authorization s.now = .ok user) :
    Post (semantics false) (combinedJwtAuthGuard cfg req) s Q ↔ Q (.ok user) s := by
  unfold combinedJwtAuthGuard
  rw [post_bind, post_definite (r := .ok s.now) (t := s) fun _ => rfl]
  simp only [accepted, Prog.pure_eq, post_done]
  exact and_iff_right (by rintro ⟨⟩)

/-- A handler without metadata lets every authenticated request pass. -/
theorem post_guards_free {Q : Except Exn Js → Store → Prop} (free : q.metadata = {})
    (accepted : CombinedJwtStrategy.authenticate cfg req.authorization s.now = .ok user) :
    Post (semantics false) (guards cfg q req) s Q ↔ Q (.ok user) s := by
  unfold guards
  rw [post_bind, post_combinedJwtAuthGuard accepted]
  simp [free, PermissionGuard.canActivate, TokenTypeGuard.canActivate]

/-- A guard issues no command that changes the database. -/
def Cmd.guarding : Cmd → Prop
  | .now | .redisHgetall _ | .redisHset .. | .httpGetPermissions _ => True
  | _ => False

theorem guarding_keeps {c : Cmd} (guarding : c.guarding) {r : Except Exn c.Resp} {t : Store}
    (responds : (semantics false).Responds c s r t) : t.db = s.db := by
  rcases responds_iff.mp responds with ⟨_, _, _, rfl⟩ | ⟨choice, executed⟩
  · rfl
  · cases c with
    | now | redisHgetall | redisHset =>
      cases Option.some.inj executed
      rfl
    | httpGetPermissions userId =>
      simp only [execTotal] at executed
      split at executed
      all_goals
        cases Option.some.inj executed
        rfl
    | _ => contradiction

theorem uses_getPermissions (userId permVersion : String) :
    (PermissionProvider.getPermissions userId permVersion).Uses Cmd.guarding := by
  have cached : (PermissionCache.get userId permVersion).Uses Cmd.guarding := by
    refine uses_step trivial fun found => ?_
    cases found <;> trivial
  have fetched : (PermissionProvider.fetch userId permVersion).Uses Cmd.guarding := by
    refine uses_step trivial fun response => ?_
    by_cases status : response.status = 200
    · simp only [status, ne_eq, not_true_eq_false, if_false]
      cases response.data with
      | none => trivial
      | some permissions =>
        apply uses_step
        · trivial
        · exact fun _ => trivial
    · simp only [status, ne_eq, not_false_eq_true, if_true]
      trivial
  refine cached.bind fun cached => ?_
  split
  · trivial
  · exact fetched.catch fun _ => trivial

theorem uses_permissionGuard (metadata : Metadata) (user : Js) :
    (PermissionGuard.canActivate metadata user).Uses Cmd.guarding := by
  have checked : ∀ userId permVersion, (do
      let userPermissions ← PermissionProvider.getPermissions userId permVersion
      if !PermissionProvider.hasPermission userPermissions metadata.requiredPermissions then
        throw (forbidden ("Insufficient permissions. Required: [" ++
          ", ".intercalate metadata.requiredPermissions ++
            "]")) : Action Unit).Uses Cmd.guarding := by
    intro userId permVersion
    refine (uses_getPermissions userId permVersion).bind fun userPermissions => ?_
    split <;> trivial
  simp only [PermissionGuard.canActivate]
  split
  · trivial
  · split
    · trivial
    · split
      · trivial
      · split
        · trivial
        · exact checked _ _

/-- `create` asks for an internal token, which the token of a user is not. -/
theorem tokenTypeGuard_refuses {dto : CreateRoleDto} (api : user.get "type" = .str "api") :
    TokenTypeGuard.canActivate (RoleRequest.create dto).metadata user =
      throw (forbidden "Invalid token type for this endpoint") := by
  simp [TokenTypeGuard.canActivate, RoleRequest.metadata, api, Js.truthy]

/-- No user creates a role, and the attempt changes no row. -/
theorem post_guards_create (dto : CreateRoleDto) (api : user.get "type" = .str "api")
    (accepted : CombinedJwtStrategy.authenticate cfg req.authorization s.now = .ok user) :
    Post (semantics false) (guards cfg (.create dto) req) s fun r t =>
      (∃ e, r = .error e) ∧ t.db = s.db := by
  unfold guards
  rw [post_bind, post_combinedJwtAuthGuard accepted]
  have kept : Post (semantics false)
      (PermissionGuard.canActivate (RoleRequest.create dto).metadata user) s
      fun _ t => t.db = s.db :=
    (uses_permissionGuard _ user).post (P := fun t => t.db = s.db)
      (fun c guarding s' r t responds same => (guarding_keeps guarding responds).trans same) rfl
  refine post_bind.mpr (kept.mono fun r t same => ?_)
  cases r with
  | error e => exact ⟨⟨e, rfl⟩, same⟩
  | ok _ =>
    rw [tokenTypeGuard_refuses api]
    exact ⟨⟨_, rfl⟩, same⟩

end Guards
section Authorised

/-- Every command can respond. -/
theorem responds_exists (c : Cmd) (s : Store) : ∃ r t, (semantics false).Responds c s r t := by
  by_cases fails : c.canFail = true
  · refine ⟨_, s, responds_iff.mpr (.inl ⟨?_, .error none "", rfl, rfl⟩)⟩
    simp [Cmd.rejectable, fails]
  · cases c with
    | now => exact ⟨_, s, responds_iff.mpr (.inr ⟨{}, rfl⟩)⟩
    | _ => contradiction

theorem authorised_free (free : q.metadata = {}) (accepted : UserJwt cfg req s.now userId) :
    AuthorisedExactly cfg q req s userId ↔ s.db.Grants userId ADMIN_MANAGE_ROLES := by
  obtain ⟨user, authenticated, _⟩ := accepted
  rw [AuthorisedExactly, ← post_iff_runs,
    post_guards_free free (authenticate_forwarded authenticated s.now)]
  simp

theorem authorised_create {dto : CreateRoleDto} (accepted : UserJwt cfg req s.now userId) :
    AuthorisedExactly cfg (.create dto) req s userId ↔ ¬ s.db.Grants userId ADMIN_MANAGE_ROLES := by
  obtain ⟨user, authenticated, api, _⟩ := accepted
  have refused :=
    post_iff_runs.mp (post_guards_create dto api (authenticate_forwarded authenticated s.now))
  constructor
  · intro exact' grants
    obtain ⟨r, t, run⟩ := runs_exists responds_exists
      (guards cfg (.create dto) (RoleClientService.getHeaders cfg req.authorization s.now)) s
    obtain ⟨user', passed⟩ := (exact' r t run).mpr grants
    obtain ⟨⟨e, failed⟩, _⟩ := refused r t run
    exact nomatch failed.symm.trans passed
  · intro without r t run
    obtain ⟨⟨e, rfl⟩, _⟩ := refused r t run
    exact iff_of_false (fun ⟨_, passed⟩ => nomatch passed) without

theorem authorised_iff (accepted : UserJwt cfg req s.now userId) :
    AuthorisedExactly cfg q req s userId ↔ MeetsGuards q s.db userId := by
  cases q with
  | create dto => exact authorised_create accepted
  | update | remove | assignRole | unassignRole => exact authorised_free rfl accepted

end Authorised

/-- One request of a user without `admin:manage-roles`, or the passing of time. -/
inductive RequestStep (cfg : Config) (cond : RoleRequest → Db → String → Prop)
    (s : Store) : Store → Prop where
  | request (q : RoleRequest) (req : Request) (userId : String) (r : Except Exn Reply) (t : Store)
      (accepted : UserJwt cfg req s.now userId) (without : ¬ s.db.Grants userId ADMIN_MANAGE_ROLES)
      (met : cond q s.db userId)
      (run : Runs (semantics false) (sendThroughGateway cfg q req) s r t) :
      RequestStep cfg cond s t
  | tick (d : Nat) : RequestStep cfg cond s { s with now := s.now + d }

/-- Any number of such requests. -/
def Requests (cfg : Config) (cond : RoleRequest → Db → String → Prop) : Store → Store → Prop :=
  Relation.ReflTransGen (RequestStep cfg cond)

theorem RequestStep.keeps {t : Store} (step : RequestStep cfg MeetsGuards s t) : t.db = s.db := by
  cases step with
  | tick d => rfl
  | request q req userId r t accepted without met run =>
    cases q with
    | update | remove | assignRole | unassignRole => exact absurd met without
    | create dto =>
      obtain ⟨user, authenticated, api, _⟩ := accepted
      have refused := post_guards_create dto api (authenticate_forwarded authenticated s.now)
      have kept : Post (semantics false) (sendThroughGateway cfg (.create dto) req) s fun _ t =>
          t.db = s.db := by
        unfold sendThroughGateway
        refine post_query (a := s.now) (fun _ => rfl) (fun _ => rfl)
          (post_bind.mpr (refused.mono ?_))
        rintro r t ⟨⟨e, rfl⟩, same⟩
        exact same
      exact post_iff_runs.mp kept r _ run

theorem Requests.keeps {t : Store} (requests : Requests cfg MeetsGuards s t) : t.db = s.db := by
  induction requests with
  | refl => rfl
  | tail _ last ih => exact last.keeps.trans ih

/-- The guards authorise a request of a user exactly by `admin:manage-roles` where the
condition is met, and nowhere else. Requests of users without the code that meet it change
no table, however many there are. -/
theorem role_administration_authorised (cfg : Config) :
    (∀ s req userId q, UserJwt cfg req s.now userId →
      (AuthorisedExactly cfg q req s userId ↔ MeetsGuards q s.db userId)) ∧
    ∀ s t, Requests cfg MeetsGuards s t → t.db = s.db :=
  ⟨fun _ _ _ _ accepted => authorised_iff accepted, fun _ _ requests => requests.keeps⟩

section Sample

def plainUser : Auth.User :=
  { id := aliceId, email := "alice@mail.com", passwordHash := ⟨argonSalt0, "secret"⟩
    createdAt := 0 }

/-- A user without a role, and a role that may manage roles. -/
def unassigned : Db where
  users := ⟨[plainUser], by decide⟩
  roles := ⟨[{ id := adminId, name := "admin" }], by decide⟩
  permissions := ⟨[{ id := manageId, code := ADMIN_MANAGE_ROLES }], by decide⟩
  rolePermissions := ⟨[⟨adminId, manageId⟩], by decide⟩

/-- The user holds the role. -/
def managing : Db :=
  { unassigned with
    userRoles := ⟨[⟨aliceId, adminId⟩], by decide⟩, holding := by decide, held := by decide }

def roleRequest : Request := { authorization := some (userTokenOf aliceId) }

theorem userJwt_roleRequest : UserJwt Config.default roleRequest 0 aliceId := ⟨_, rfl, rfl, rfl⟩

/-- A user without any role assigns the managing role to itself, and a user who holds it
cannot create a role. -/
theorem role_administration_open :
    (UserJwt Config.default roleRequest 0 aliceId ∧ ¬ unassigned.Grants aliceId ADMIN_MANAGE_ROLES ∧
      ¬ AuthorisedExactly Config.default
        (.assignRole aliceId "admin") roleRequest { db := unassigned } aliceId ∧
      ∃ t, Requests Config.default (fun _ _ _ => True) { db := unassigned } t ∧
        t.db.Grants aliceId ADMIN_MANAGE_ROLES) ∧
    managing.Grants aliceId ADMIN_MANAGE_ROLES ∧
      ¬ AuthorisedExactly Config.default
        (.create { name := "auditor" }) roleRequest { db := managing } aliceId := by
  have without : ¬ unassigned.Grants aliceId ADMIN_MANAGE_ROLES := by decide
  have grants : managing.Grants aliceId ADMIN_MANAGE_ROLES := by decide
  refine ⟨⟨userJwt_roleRequest, without, ?_, ?_⟩, grants, ?_⟩
  · exact fun exact' => without ((authorised_iff userJwt_roleRequest).mp exact')
  · have tested : ((sendThroughGateway Config.default
        (.assignRole aliceId "admin") roleRequest).eval
        (semantics false) { db := unassigned } (List.replicate 7 {})).any
          (fun (_, t) => decide (t.db.Grants aliceId ADMIN_MANAGE_ROLES)) = true := by
      decide +kernel
    obtain ⟨⟨r, t⟩, evaluated, granted⟩ := (Option.any_eq_true ..).mp tested
    have step : RequestStep Config.default (fun _ _ _ => True) { db := unassigned } t :=
      .request _ roleRequest aliceId r t userJwt_roleRequest without trivial (runs_eval evaluated)
    exact ⟨t, .single step, of_decide_eq_true granted⟩
  · exact fun exact' => (authorised_iff userJwt_roleRequest).mp exact' grants

/-- The requests that meet the condition, on the same two databases. -/
theorem role_administration_authorised_sample :
    AuthorisedExactly Config.default
      (.assignRole aliceId "admin") roleRequest { db := managing } aliceId ∧
    AuthorisedExactly Config.default
      (.create { name := "auditor" }) roleRequest { db := unassigned } aliceId ∧
    ∃ t, Requests Config.default MeetsGuards { db := unassigned } t ∧ t.now = 5 ∧
    t.db = unassigned := by
  obtain ⟨authorised, kept⟩ := role_administration_authorised Config.default
  have grants : managing.Grants aliceId ADMIN_MANAGE_ROLES := by decide
  have without : ¬ unassigned.Grants aliceId ADMIN_MANAGE_ROLES := by decide
  have passing : Requests Config.default MeetsGuards { db := unassigned }
      { db := unassigned, now := 5 } := .single (.tick 5)
  exact ⟨(authorised _ _ _ _ userJwt_roleRequest).mpr grants,
    (authorised _ _ _ _ userJwt_roleRequest).mpr without,
    _, passing, rfl, kept _ _ passing⟩

end Sample
end CorePlatform.Roles
