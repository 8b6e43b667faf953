import CorePlatform.Errors.Handlers

/-! Which handlers tell a client the text of an internal error. Three `catch` clauses write it
into a `ServiceError` of status 500, whose message is exposed: those of `assignRole` and
`unassignRole`, and `handleAxiosError`. -/
namespace CorePlatform
open Async Gateway

/-- The handlers of the three services. -/
inductive Handler where
  | auth (cfg : Auth.Config) (call : Auth.Call)
  | me (cfg : Auth.Config) (req : Auth.Request)
  | roles (call : Roles.Call)
  | permissionCodes (userId : String)
  | inbox (cfg : Bell.InboxConfig) (userId : String) (route : Bell.InboxRoute)
  | createNoti (platform : Bell.Platform) (payLoad : Bell.CreateNotificationDto)
  | proxy (call : ProxyCall)
  | register (cfg : Gateway.Config) (q : RegisterRequest)

namespace Handler

def Conceals : Handler → Prop
  | .auth cfg call => CorePlatform.Conceals (Auth.body cfg call)
  | .me cfg req => CorePlatform.Conceals (Auth.AuthController.me cfg req)
  | .roles call => CorePlatform.Conceals (Roles.body call)
  | .permissionCodes userId =>
      CorePlatform.Conceals (Roles.RolesService.getPermissionCodesForUser userId)
  | .inbox cfg userId route => CorePlatform.Conceals (Bell.handle cfg userId route)
  | .createNoti platform payLoad =>
      CorePlatform.Conceals (Bell.NotificationService.createNoti platform payLoad)
  | .proxy call => CorePlatform.Conceals call.body
  | .register cfg q => CorePlatform.Conceals (AuthClientService.register cfg q)

/-- Whether an internal error of the handler passes one of the three clauses. -/
def rewraps : Handler → Bool
  | .roles (.assignRole ..) | .roles (.unassignRole ..) | .proxy _ | .register .. => true
  | .auth .. | .me .. | .roles _ | .permissionCodes _ | .inbox .. | .createNoti .. => false

end Handler

section Tells

/-- `error.message || fallback`, on a failure with a text. -/
theorem messageOr_text {message : String} (nonempty : message ≠ "") (fallback : String) :
    Roles.RolesService.messageOr (.error none message) fallback = message := if_neg nonempty

theorem assignRole_tells (userId roleName : String) :
    ¬ Conceals (Roles.body (.assignRole userId roleName)) := by
  apply @not_conceals Roles.Api _ _ [] (.userFindUnique userId)
  intro message nonempty
  have yielded : (Roles.body (.assignRole userId roleName)).Yields [⟨.userFindUnique userId,
      .error (.error none message)⟩]
      (.error (.service
        { message := Roles.RolesService.messageOr (.error none message) "Failed to assign role"
          statusCode := 500, code := ErrorCodes.INTERNAL })) := .await .done
  rwa [messageOr_text nonempty] at yielded

theorem unassignRole_tells (userId roleName : String) :
    ¬ Conceals (Roles.body (.unassignRole userId roleName)) := by
  apply @not_conceals Roles.Api _ _ [] (.roleFindByName roleName)
  intro message nonempty
  have yielded : (Roles.body (.unassignRole userId roleName)).Yields [⟨.roleFindByName roleName,
      .error (.error none message)⟩]
      (.error (.service
        { message := Roles.RolesService.messageOr (.error none message) "Failed to unassign role"
          statusCode := 500, code := ErrorCodes.INTERNAL })) := .await .done
  rwa [messageOr_text nonempty] at yielded

/-- A client method that looks at the status tells the text of the error of its transport. -/
theorem checksStatus_tells {p : Prog HttpApi Exn Js} (checks : ChecksStatus p) : ¬ Conceals p := by
  obtain ⟨defaultMessage, request, finish, builds, _⟩ := checks
  obtain ⟨events, built, yielded⟩ := builds.built
  apply @not_conceals HttpApi _ _ events (.send built)
  intro message _
  have sent : ∀ f : HttpResponse → Prog HttpApi Exn Js, (do f (← network.send (← request))).Yields
      (events ++ [(⟨.send built, .error (.error none message)⟩ : Event HttpApi Exn)])
        (.error (.error none message)) := fun f => yielded.bind (.await .done)
  exact (sent _).handled rfl

theorem proxy_tells (call : ProxyCall) : ¬ Conceals call.body := by
  cases passes : call.unchecked with
  | false => exact checksStatus_tells (checksStatus_proxy passes)
  | true =>
    obtain ⟨request, same⟩ := unchecked_proxy passes
    rw [same]
    apply @not_conceals HttpApi _ _ [] (.send request)
    intro message _
    exact .await .done

/-- A registration tells the text of the error of its transport without a key, and of the
database with one. -/
theorem register_tells (cfg : Gateway.Config) (q : RegisterRequest) :
    ¬ Conceals (AuthClientService.register cfg q) := by
  have unsent : ∀ req : IdempotencyRequest, req.key = "" →
      IdempotencyService.checkIdempotency cfg q.gateway req = .done
        (.ok { recordId := "", shouldExecute := true }) := by
    intro req unkeyed
    simp only [IdempotencyService.checkIdempotency, unkeyed, if_true, Prog.pure_eq]
  by_cases unkeyed : q.key = ""
  · apply @not_conceals Gateway.Api _ _ [] (.httpRegister q.registerDto)
    intro message _
    rw [AuthClientService.register, unsent q.idempotency unkeyed]
    exact .await .done
  · apply @not_conceals Gateway.Api _ _
      [⟨.cacheGet q.gateway q.key, .ok ⟨.null, Js.null_ne_undefined⟩⟩] (.recordFindUnique q.key)
    intro message _
    have keyed : ¬ q.idempotency.key = "" := unkeyed
    have checks : (IdempotencyService.checkIdempotency cfg q.gateway q.idempotency).Yields
        ([⟨.cacheGet q.gateway q.key, .ok ⟨.null, Js.null_ne_undefined⟩⟩] ++
          [⟨.recordFindUnique q.key, .error (.error none message)⟩])
        (.error (.error none message)) := by
      simp only [IdempotencyService.checkIdempotency, keyed, if_false]
      apply Prog.Yields.bind (.await .done)
      rw [if_neg (not_not.mpr rfl)]
      exact .await .done
    exact (checks.handled rfl).stops

end Tells

/-- A handler conceals the texts of internal errors exactly if none of the three clauses is on
the way of its errors to the filter. -/
theorem server_errors_concealed_iff (handler : Handler) : handler.Conceals ↔
    handler.rewraps = false := by
  have conceals : ∀ {handler : Handler}, handler.rewraps = false → handler.Conceals →
      (handler.Conceals ↔ handler.rewraps = false) :=
        fun passes conceals => iff_of_true conceals passes
  have tells : ∀ {handler : Handler}, handler.rewraps = true → ¬ handler.Conceals →
      (handler.Conceals ↔ handler.rewraps = false) := by
    intro handler rewraps tells
    exact iff_of_false tells fun passes => Bool.noConfusion (rewraps.symm.trans passes)
  cases handler with
  | auth cfg call => exact conceals rfl (conceals_of_blind (Auth.blind_body call))
  | me cfg req => exact conceals rfl (conceals_of_blind Auth.blind_me)
  | roles call =>
    cases call with
    | create dto =>
        exact conceals rfl (conceals_of_blind (Roles.blind_create.bind fun _ => Blind.done _))
    | update id dto =>
        exact conceals rfl (conceals_of_blind (Roles.blind_update.bind fun _ => Blind.done _))
    | remove id =>
        exact conceals rfl (conceals_of_blind (Roles.blind_remove.bind fun _ => Blind.done _))
    | assignRole userId roleName => exact tells rfl (assignRole_tells userId roleName)
    | unassignRole userId roleName => exact tells rfl (unassignRole_tells userId roleName)
    | getPermissions userId permVersion =>
      exact conceals rfl (conceals_of_blind (Roles.blind_getPermissions.bind fun _ => Blind.done _))
  | permissionCodes userId =>
      exact conceals rfl (conceals_of_blind (Blind.step fun _ => Blind.done _))
  | inbox cfg userId route => exact conceals rfl (conceals_of_blind (Bell.blind_handle route))
  | createNoti platform payLoad => exact conceals rfl (conceals_of_blind Bell.blind_createNoti)
  | proxy call => exact tells rfl (proxy_tells call)
  | register cfg q => exact tells rfl (register_tells cfg q)

/-- The assignment of a role tells its client which host the database client did not reach. -/
theorem assignment_tells_database : ¬ (Handler.roles (.assignRole aliceId "ADMIN")).Conceals := by
  intro conceals
  have failures : Twin SameFailure
      (⟨.userFindUnique aliceId,
        .error (.database "P1001" "Can't reach database server at 10.0.0.5:5432")⟩ : Event
          Roles.Api Exn)
      ⟨.userFindUnique aliceId,
        .error (.database "P1001" "Can't reach database server at 10.0.0.6:5432")⟩ :=
    .mk (.error (.database _ _ _))
  have same :=
    conceals _ _ _ _ _ _ (.cons failures .nil) (.await .done) (.await .done) rfl rfl (by decide)
  exact absurd same (by decide)

end CorePlatform
