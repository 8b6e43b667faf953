import CorePlatform.Auth.Controller
import CorePlatform.Auth.System
import CorePlatform.Bell.Inbox
import CorePlatform.Errors.Masked
import CorePlatform.Roles.System

/-! The handlers of auth-service and notification-service that treat masked failures alike. -/
namespace CorePlatform
open Async

namespace Roles

theorem blind_set {userId permVersion : String} {permissions : List String} :
    Blind Masked (PermissionCache.set userId permVersion permissions) := .perform

theorem failure_masked {e e' : Exn} (masked : Masked e e') :
    Masked (PermissionProvider.failure e) (PermissionProvider.failure e') := by
  cases masked with
  | same e => exact .same _
  | database code message message' => exact .same _
  | error code message message' =>
    obtain _ | code := code
    · exact .same _
    · by_cases refused : code = "ECONNREFUSED"
      · subst refused
        exact .same _
      · simp only [PermissionProvider.failure]
        exact .same _
  | refused e message low => exact .same _

theorem blind_getPermissions {userId permVersion : String} :
    Blind Masked (PermissionProvider.getPermissions userId permVersion) := by
  have fetched : Blind Masked (PermissionProvider.fetch userId permVersion) := by
    apply Blind.step
    intro response
    dsimp only
    split
    · exact Blind.done (.error _)
    · split
      · exact Blind.done _
      · exact blind_set.bind fun _ => Blind.done _
  unfold PermissionProvider.getPermissions PermissionCache.get
  apply Alike.bind
  · apply Blind.step
    intro found
    split
    · exact Blind.done _
    · exact Blind.done _
  · intro cached
    split
    · exact Blind.done _
    · exact fetched.catch fun e e' masked => .done (.error (failure_masked masked))

theorem blind_findOne {id : String} : Blind Masked (RolesService.findOne id) := by
  apply Blind.step
  intro found
  split
  · exact Blind.done _
  · exact Blind.done _

theorem blind_create {dto : CreateRoleDto} : Blind Masked (RolesService.create dto) := by
  apply Blind.step
  intro existing
  split
  · exact Blind.done _
  · apply Blind.step
    intro role
    dsimp only
    split
    · apply Blind.step
      intro existingIds
      split
      · exact Blind.done _
      · exact (Blind.forEach (fun _ => .perform) _).bind fun _ => blind_findOne
    · exact blind_findOne

theorem blind_update {id : String} {dto : UpdateRoleDto} :
    Blind Masked (RolesService.update id dto) := by
  have names : ∀ name, Blind Masked (RolesService.checkName id name) := by
    intro name
    cases name with
    | none => exact Blind.done _
    | some name =>
      apply Blind.step
      intro other
      split
      · exact Blind.done _
      · exact Blind.done _
  have replaced : ∀ permissionIds,
      Blind Masked (RolesService.replacePermissions id permissionIds) := by
    intro permissionIds
    cases permissionIds with
    | undefined => exact Blind.done _
    | null => exact Blind.step fun _ => Blind.done _
    | value permissionIds => exact Blind.step fun _ => Blind.forEach (fun _ => .perform) _
  apply blind_findOne.bind
  intro _
  apply (names _).bind
  intro _
  apply Blind.step
  intro _
  exact (replaced _).bind fun _ => blind_findOne

theorem blind_remove {id : String} : Blind Masked (RolesService.remove id) :=
  blind_findOne.bind fun _ => Blind.step fun _ => Blind.done _

end Roles

namespace Auth
open UsersService

variable {cfg : Config}

theorem blind_hashPassword {α : Type} {password : α} : Blind Masked (hashPassword password) :=
  Blind.step fun _ => Blind.done _

theorem blind_verifyHash {α : Type} [DecidableEq α] {hash : Argon2Hash α} {password : Option α} :
    Blind Masked (verifyHash hash password) := by
  cases password with
  | none => exact Blind.done _
  | some password => exact Blind.done _

theorem blind_randomCode : Blind Masked randomCode := Blind.step fun _ => Blind.done _

theorem blind_encryptText {plainText : String} : Blind Masked (encryptText cfg plainText) := by
  have key : Blind Masked (getEncryptKey cfg) := by
    unfold getEncryptKey
    split
    · exact Blind.done _
    · exact Blind.done _
  exact key.bind fun _ => Blind.step fun _ => Blind.step fun _ => Blind.done _

theorem blind_filterValue {v : Js} : Blind Masked (filterValue v) := by
  unfold filterValue
  split
  · exact Blind.done _
  · exact Blind.done _
  · exact Blind.done _

theorem blind_parseEvent {userId email : String} :
    Blind Masked (AuthService.parseEvent cfg userId email) := by
  unfold AuthService.parseEvent
  split
  · exact Blind.done _
  · exact Blind.done _

theorem blind_createPasswordReset {userId : String} :
    Blind Masked (createPasswordReset cfg userId) := by
  apply blind_randomCode.bind
  intro token
  apply blind_hashPassword.bind
  intro tokenHash
  apply blind_encryptText.bind
  intro tokenHashEncrypted
  exact Blind.step fun _ => Blind.step fun _ => Blind.step fun _ => Blind.done _

theorem blind_findOneByEmail {email : Option String} : Blind Masked (findOneByEmail email) :=
  .perform

theorem blind_checkActiveEmail {email : String} : Blind Masked (checkActiveEmail email) := by
  apply Blind.step
  intro found
  split
  · exact Blind.done _
  · exact Blind.done _

theorem blind_createOrUpdateEmailOtp {userId codeHash : String} :
    Blind Masked (createOrUpdateEmailOtp userId codeHash) :=
  Blind.step fun _ => .perform

theorem blind_createUser {dto : CreateUserDto} : Blind Masked (UsersService.create cfg dto) := by
  apply Blind.step
  intro existing
  split
  · exact Blind.done _
  · apply blind_hashPassword.bind
    intro passwordHash
    apply blind_randomCode.bind
    intro code
    apply blind_hashPassword.bind
    intro hash
    apply blind_encryptText.bind
    intro code
    apply Blind.step
    intro user
    exact blind_createOrUpdateEmailOtp.bind fun _ => Blind.done _

theorem blind_veryfiRegister {email code : String} :
    Blind Masked (veryfiRegister cfg email code) := by
  apply Blind.step
  intro found
  split
  · exact Blind.done _
  · apply Blind.step
    intro now
    apply Blind.step
    intro verifyOtp
    split
    · exact Blind.done _
    · exact Blind.step fun _ => Blind.step fun _ => Blind.done _

theorem blind_saveRefreshToken {id : String} {refreshTokenNew : Token} {dataDevice : DeviceData}
    {deviceId : Option String} {refreshTokenOld : Option Token} :
    Blind Masked (saveRefreshToken cfg id refreshTokenNew dataDevice deviceId refreshTokenOld) := by
  apply Blind.step
  intro now
  apply blind_hashPassword.bind
  intro tokenHashNew
  apply Blind.step
  intro existing
  split
  · split
    · exact Blind.done _
    · exact .perform
  · exact .perform

theorem blind_findByRefreshToken {id : Option String} {permVersion : Option Int}
    {refreshToken : Token} {deviceId : Option String} :
    Blind Masked (findByRefreshToken id permVersion refreshToken deviceId) := by
  apply Blind.step
  intro now
  apply Blind.step
  intro found
  split
  · exact Blind.done _
  · split
    · exact Blind.done _
    · exact Blind.done _

theorem blind_issueTokens {user : User} {dataDevice : DeviceData} {deviceId : Option String}
    {refreshTokenOld : Option Token} :
    Blind Masked (AuthService.issueTokens cfg user dataDevice deviceId refreshTokenOld) := by
  apply Blind.step
  intro now
  apply blind_saveRefreshToken.bind
  intro _
  exact Blind.step fun _ => Blind.step fun _ => Blind.step fun _ => Blind.done _

theorem blind_logoutAllDevices {userId : Option String} : Blind Masked (logoutAllDevices userId) :=
  Blind.step fun _ => .perform

theorem blind_logoutDevice {deviceId userId : Option String} {refreshToken : Option Token} :
    Blind Masked (UsersService.logoutDevice deviceId userId refreshToken) := by
  apply Blind.step
  intro found
  split
  · exact Blind.done _
  · apply blind_verifyHash.bind
    intro valid
    split
    · exact Blind.done _
    · exact Blind.step fun _ => .perform

theorem blind_verifyPasswordReset {userId : String} {code : Option String} :
    Blind Masked (verifyPasswordReset userId code) := by
  apply Blind.step
  intro now
  apply Blind.step
  intro found
  split
  · exact Blind.done _
  · apply blind_verifyHash.bind
    intro verify
    split
    · exact Blind.done _
    · exact Blind.step fun _ => Blind.done _

theorem blind_resetPassword {userId : String} {password code : Option String} :
    Blind Masked (resetPassword userId password code) := by
  apply Blind.step
  intro found
  split
  · exact Blind.done _
  · apply blind_verifyHash.bind
    intro verify
    dsimp only
    split
    · exact Blind.done _
    · cases password with
      | none => exact Blind.done _
      | some password =>
        apply blind_hashPassword.bind
        intro passwordHash
        exact Blind.step fun _ => Blind.step fun _ => Blind.done _

theorem invalidCredentials_masked (message message' : String) :
    Masked (invalidCredentials message) (invalidCredentials message') :=
  .refused _ message' (show 401 < 500 by decide)

theorem badRequest_masked (message message' : String) : Masked (badRequest message)
    (badRequest message') :=
  .refused _ message' (show 400 < 500 by decide)

/-- A `catch` clause that passes a `ServiceError` and hides the rest behind a status below 500. -/
theorem alike_rethrow {α : Type} {refusal : String → Exn}
    (refuses : ∀ message message', Masked (refusal message) (refusal message')) {e e' : Exn}
    (masked : Masked e e') :
    Alike Masked (if e.isService then throw e else throw (refusal e.message) : Action α)
      (if e'.isService then throw e' else throw (refusal e'.message)) := by
  cases masked with
  | same e =>
    split
    · exact Blind.done _
    · exact Blind.done _
  | database code message message' => exact .done (.error (refuses message message'))
  | error code message message' => exact .done (.error (refuses message message'))
  | refused e message low => exact .done (.error (.refused e message low))

open AuthService

theorem blind_register {dto : CreateUserDto} {requestId : Option String} :
    Blind Masked (register cfg dto requestId) := by
  apply blind_createUser.bind
  intro user
  apply blind_parseEvent.bind
  intro _
  exact Blind.step fun _ => Blind.done _

theorem blind_verify {email code : String} : Blind Masked (verify cfg email code) :=
  blind_veryfiRegister.catch fun _ _ _ => Blind.done _

theorem blind_login {userReq : User} {req : Request} : Blind Masked (login cfg userReq req) := by
  apply Alike.catch
  · apply Blind.step
    intro deviceId
    exact blind_checkActiveEmail.bind fun user => blind_issueTokens
  · exact fun e e' masked => alike_rethrow invalidCredentials_masked masked

theorem blind_refresh {refreshTokenOld : Option Token} {deviceId : Option String} {req : Request} :
    Blind Masked (refresh cfg refreshTokenOld deviceId req) := by
  apply Alike.catch
  · apply Blind.step
    intro now
    split
    · exact blind_findByRefreshToken.bind fun user => blind_issueTokens
    · exact Blind.done _
    · exact Blind.done _
  · intro e e' masked
    apply Alike.perform.bind
    intro _
    apply Alike.perform.bind
    intro _
    exact .done (.error (.refused _ _ (show 401 < 500 by decide)))

theorem blind_resendCode {email : Option String} : Blind Masked (resendCode cfg email) := by
  apply Alike.catch
  · apply blind_findOneByEmail.bind
    intro found
    split
    · exact Blind.done _
    · split
      · exact Blind.done _
      · apply blind_randomCode.bind
        intro code
        apply blind_hashPassword.bind
        intro hash
        apply blind_encryptText.bind
        intro code
        apply blind_createOrUpdateEmailOtp.bind
        intro _
        apply blind_parseEvent.bind
        intro _
        exact Blind.step fun _ => Blind.done _
  · exact fun e e' masked => .done (.error (invalidCredentials_masked _ _))

theorem blind_logout {deviceId : Option String} {user : Js} {refreshToken : Option Token} :
    Blind Masked (AuthService.logoutDevice deviceId user refreshToken) ∧
    Blind Masked (logoutAll user) := by
  have cleared : ∀ text, Blind Masked (do
      call (.clearCookie "refreshToken")
      call (.clearCookie "deviceId")
      return text : Action String) := fun _ => Blind.step fun _ => Blind.step fun _ => Blind.done _
  constructor
  · exact blind_filterValue.bind fun userId => blind_logoutDevice.bind fun _ => cleared _
  · exact blind_filterValue.bind fun userId => blind_logoutAllDevices.bind fun _ => cleared _

theorem blind_forgotPassword {email : Option String} : Blind Masked (forgotPassword cfg email) := by
  apply Alike.catch
  · apply blind_findOneByEmail.bind
    intro found
    split
    · exact Blind.done _
    · apply blind_createPasswordReset.bind
      intro reset
      apply blind_parseEvent.bind
      intro _
      exact Blind.step fun _ => Blind.done _
  · exact fun e e' masked => Blind.done _

theorem blind_forgotPasswordVerify {email code : Option String} :
    Blind Masked (forgotPasswordVerify email code) := by
  apply Alike.catch
  · apply blind_findOneByEmail.bind
    intro found
    split
    · exact Blind.done _
    · exact blind_verifyPasswordReset.bind fun _ => Blind.done _
  · exact fun e e' masked => alike_rethrow badRequest_masked masked

theorem blind_forgotPasswordReset {email code password : Option String} :
    Blind Masked (forgotPasswordReset email code password) := by
  apply Alike.catch
  · apply blind_findOneByEmail.bind
    intro found
    split
    · exact Blind.done _
    · exact blind_resetPassword.bind fun _ => blind_logoutAllDevices.bind fun _ => Blind.done _
  · exact fun e e' masked => alike_rethrow badRequest_masked masked

/-- Every call of the authentication endpoints. -/
theorem blind_body (call : Call) : Blind Masked (body cfg call) := by
  have returned : ∀ {α : Type} {p : Action α} {f : α → Reply}, Blind Masked p →
      Blind Masked (do return f (← p)) := fun blind => blind.bind fun _ => Blind.done _
  cases call with
  | login userReq req => exact returned blind_login
  | refresh refreshToken deviceId req => exact returned blind_refresh
  | logoutDevice deviceId user refreshToken => exact returned blind_logout.1
  | logoutAll user => exact returned (@blind_logout none user none).2
  | register dto requestId => exact returned blind_register
  | verify email code => exact returned blind_verify
  | resendCode email => exact returned blind_resendCode
  | forgotPassword email => exact returned blind_forgotPassword
  | forgotPasswordVerify email code => exact returned blind_forgotPasswordVerify
  | forgotPasswordReset email code password => exact returned blind_forgotPasswordReset

theorem blind_me {req : Request} : Blind Masked (AuthController.me cfg req) := by
  have guarded : Blind Masked (combinedJwtAuthGuard cfg req) := by
    apply Blind.step
    intro now
    split
    · exact Blind.done _
    · exact Blind.done _
  apply guarded.bind
  intro info
  split
  · exact Blind.done _
  · exact Blind.done _
  · exact blind_filterValue.bind fun userId => .perform

end Auth

namespace Bell
open NotificationService

theorem alike_inService {α : Type} {p p' : Action α} (alike : Alike Masked p p') :
    Alike Masked (inService p) (inService p') := by
  induction alike with
  | done paired => exact .done paired
  | await _ ih => exact .await ih

theorem blind_unreadCount {userId : String} : Blind Masked (unreadCount userId) := by
  unfold unreadCount
  split
  · exact Blind.done _
  · exact .perform

theorem blind_markRead {platform : Platform} {userId notificationId : String} :
    Blind Masked (markRead platform userId notificationId) := by
  unfold markRead
  split
  · exact Blind.done _
  · apply Blind.step
    intro found
    split
    · exact Blind.done _
    · split
      · exact Blind.done _
      · exact Blind.step fun _ => Blind.step fun _ => Blind.done _

theorem blind_readAll {userId : String} : Blind Masked (readAll userId) := by
  unfold readAll
  split
  · exact Blind.done _
  · exact Blind.step fun _ => .perform

theorem blind_createNoti {platform : Platform} {payLoad : CreateNotificationDto} :
    Blind Masked (createNoti platform payLoad) := by
  have time : ∀ v, Blind Masked (actionTime platform v) := by
    intro v
    unfold actionTime
    split
    · exact Blind.step fun _ => Blind.done _
    · exact Blind.step fun _ => Blind.done _
    · exact Blind.done _
  have published : ∀ data, Blind Masked (NatsService.publish NOTIFICATION_CREATED data) :=
    fun data => Alike.perform.catch fun _ _ _ => Blind.done _
  apply Blind.step
  intro noti
  apply blind_unreadCount.bind
  intro count
  apply (time _).bind
  intro actionCreatedAt
  split
  · exact Blind.done _
  · exact (published _).bind fun _ => Blind.done _

theorem blind_listByUser {numbers : Numbers} {userId : String} {page limit sortBy sortOrder : Js} :
    Blind Masked (listByUser numbers userId page limit sortBy sortOrder) := by
  by_cases empty : userId = ""
  · simp only [listByUser, empty, if_true]
    exact Blind.done _
  · simp only [listByUser, empty, if_false]
    exact Blind.step fun _ => Blind.step fun _ => Blind.done _

/-- Every route of the notifications. -/
theorem blind_handle {cfg : InboxConfig} {userId : String} (route : InboxRoute) :
    Blind Masked (handle cfg userId route) := by
  cases route with
  | list page limit sortBy sortOrder => exact blind_listByUser.bind fun _ => Blind.done _
  | unreadCount => exact (alike_inService blind_unreadCount).bind fun _ => Blind.done _
  | markRead id => exact (alike_inService blind_markRead).bind fun _ => Blind.done _
  | readAll => exact (alike_inService blind_readAll).bind fun _ => Blind.done _

end Bell

end CorePlatform
