import CorePlatform.Bell.Inbox
import CorePlatform.Bell.System
import Mathlib.Data.List.Nodup

/-! A user's requests and messages read and change rows of the user only, and their outcome
depends on no other row: executed from two tables that agree on the user's rows they go along. -/
namespace CorePlatform.Bell
open Async Relational

section Rows

variable {userId : String} {t t' : Table Notification.id}

/-- The tables have the same rows of the user. -/
def AgreeOn (userId : String) (t t' : Table Notification.id) : Prop :=
  ∀ row, row.userId = userId → (row ∈ t ↔ row ∈ t')

theorem AgreeOn.refl (userId : String) (t : Table Notification.id) : AgreeOn userId t t :=
  fun _ _ => Iff.rfl

theorem AgreeOn.symm (agree : AgreeOn userId t t') : AgreeOn userId t' t :=
  fun row own => (agree row own).symm

theorem AgreeOn.trans {t'' : Table Notification.id} (first : AgreeOn userId t t')
    (second : AgreeOn userId t' t'') :
    AgreeOn userId t t'' := fun row own => (first row own).trans (second row own)

/-- A filter that only rows of the user meet selects the same rows. -/
theorem AgreeOn.filter_perm (agree : AgreeOn userId t t') {p : Notification → Bool}
    (own : ∀ row, p row = true → row.userId = userId) :
    (t.rows.filter p).Perm (t'.rows.filter p) := by
  have distinct : ∀ u : Table Notification.id, (u.rows.filter p).Nodup :=
    fun u => (List.Nodup.of_map _ u.keyed).filter p
  refine (List.perm_ext_iff_of_nodup (distinct t) (distinct t')).mpr fun row => ?_
  simp only [List.mem_filter]
  exact and_congr_left fun meets => agree row (own row meets)

theorem AgreeOn.find?_eq (agree : AgreeOn userId t t') {p : Notification → Bool} {id : String}
    (own : ∀ row, p row = true → row.userId = userId ∧ row.id = id) :
    t.rows.find? p = t'.rows.find? p := by
  have found : ∀ {u u' : Table Notification.id}, AgreeOn userId u u' →
      ∀ row, u.rows.find? p = some row → u'.rows.find? p = some row := by
    intro u u' agree row found
    have meets := List.find?_some found
    have stored : row ∈ u'.rows :=
      (agree row (own row meets).1).mp (List.mem_of_find?_eq_some found)
    cases other : u'.rows.find? p with
    | none => exact absurd meets (List.find?_eq_none.mp other row stored)
    | some row' =>
      have stored' := List.mem_of_find?_eq_some other
      have same : row'.id = row.id :=
        (own row' (List.find?_some other)).2.trans (own row meets).2.symm
      rw [Table.eq_of_key stored' stored same]
  cases first : t.rows.find? p with
  | some row => exact (found agree row first).symm
  | none =>
    cases second : t'.rows.find? p with
    | none => rfl
    | some row => exact absurd (first.symm.trans (found agree.symm row second)) nofun

theorem AgreeOn.setReadAt (agree : AgreeOn userId t t') (p : Notification → Bool) (readAt : Nat) :
    AgreeOn userId (t.update p (Notification.setReadAt readAt))
    (t'.update p (Notification.setReadAt readAt)) := by
  have kept : ∀ old : Notification, (if p old then old.setReadAt readAt else old).userId =
      old.userId := by
    intro old
    split <;> rfl
  have carried : ∀ {u u' : Table Notification.id}, AgreeOn userId u u' →
      ∀ row, row.userId = userId →
      row ∈ u.update p (Notification.setReadAt readAt) →
      row ∈ u'.update p (Notification.setReadAt readAt) := by
    intro u u' agree row own found
    obtain ⟨old, stored, rfl⟩ := (Table.mem_update (Notification.setReadAt_id readAt)).mp found
    exact (Table.mem_update (Notification.setReadAt_id readAt)).mpr
      ⟨old, (agree old ((kept old).symm.trans own)).mp stored, rfl⟩
  exact fun row own => ⟨carried agree row own, carried agree.symm row own⟩

end Rows

section Commands

variable {platform : Platform} {userId : String} {s s' : Store} {choice : Choice}

/-- The stores differ in the rows of other users at most. -/
def SameFor (userId : String) (s s' : Store) : Prop :=
  ∃ notifications, s' = { s with notifications } ∧ AgreeOn userId s.notifications notifications

theorem SameFor.refl (userId : String) (s : Store) : SameFor userId s s := ⟨_, rfl, .refl _ _⟩

/-- The commands that concern the rows of the user, or no rows. -/
def Low (userId : String) : BellCmd → Prop
  | .notificationCreate _ | .notificationUpdate .. => False
  | .notificationCount u | .notificationFindFirst _ u | .notificationUpdateMany u _ => u = userId
  | _ => True

/-- The rows that an event names, returns or changes are rows of the user. -/
def Confined (userId : String) : Ev → Prop
  | ⟨.notificationCreate _, _⟩ => False
  | ⟨.notificationCount u, _⟩ => u = userId
  | ⟨.notificationFindFirst _ u, r⟩ => u = userId ∧ ∀ row, r = .ok (some row) → row.userId = userId
  | ⟨.notificationUpdate _ _, r⟩ => ∀ row, r = .ok row → row.userId = userId
  | ⟨.notificationUpdateMany u _, _⟩ => u = userId
  | _ => True

theorem confined_error {c : BellCmd} {e : Exn} (low : Low userId c) :
    Confined userId ⟨c, .error e⟩ := by
  cases c with
  | notificationFindFirst id u => exact ⟨low, nofun⟩
  | notificationCount | notificationUpdateMany => exact low
  | notificationCreate | notificationUpdate => exact low.elim
  | _ => trivial

/-- What the same command does in the other store. -/
def Follows (userId : String) (c : BellCmd) (r : Except Exn c.Resp) (t : Store)
    (other : Option (Except Exn c.Resp × Store)) : Prop :=
  ∃ t', other = some (r, t') ∧ Confined userId ⟨c, r⟩ ∧ SameFor userId t t'

theorem unread_length {notifications : Table Notification.id}
    (agree : AgreeOn userId s.notifications notifications) :
    (unread userId s).length = (unread userId { s with notifications }).length := by
  have perm :=
    agree.filter_perm (p := fun row => row.userId = userId && row.readAt.isNone) fun row meets =>
    of_decide_eq_true (Bool.and_eq_true_iff.mp meets).1
  simpa only [unread, List.length_map] using perm.length_eq

theorem execTotal_low {c : BellCmd} {r : Except Exn c.Resp} {t : Store} (low : Low userId c)
    (same : SameFor userId s s') (executed : execTotal platform choice s c = some (r, t)) :
    Follows userId c r t (execTotal platform choice s' c) := by
  obtain ⟨notifications, rfl, agree⟩ := same
  cases c with
  | notificationCreate | notificationUpdate => exact low.elim
  | now | httpRequest | httpReply | checkRateLimit | randomUUID | emit | emitToUser =>
    cases Option.some.inj executed
    exact ⟨_, rfl, trivial, _, rfl, agree⟩
  | publish subject text =>
    simp only [execTotal] at executed ⊢
    split at executed
    · rename_i counted
      cases Option.some.inj executed
      rw [if_pos counted]
      exact ⟨_, rfl, trivial, _, rfl, agree⟩
    · rename_i other
      cases Option.some.inj executed
      rw [if_neg other]
      exact ⟨_, rfl, trivial, _, rfl, agree⟩
  | signInternalToken data =>
    simp only [execTotal] at executed ⊢
    split at executed
    · rename_i signed
      cases Option.some.inj executed
      rw [if_pos signed]
      exact ⟨_, rfl, trivial, _, rfl, agree⟩
    · contradiction
  | notificationCount u =>
    obtain rfl : u = userId := low
    simp only [execTotal] at executed ⊢
    split at executed
    · rename_i exact
      cases Option.some.inj executed
      have length := unread_length agree
      refine ⟨_, ?_, rfl, _, rfl, agree⟩
      simp only [← length, exact, dite_true]
    · contradiction
  | notificationFindFirst id u =>
    obtain rfl : u = userId := low
    cases Option.some.inj executed
    have own : ∀ row : Notification, (row.id = id && row.userId = u) = true →
        row.userId = u ∧ row.id = id := by
      intro row meets
      simp only [Bool.and_eq_true, decide_eq_true_eq] at meets
      exact meets.symm
    refine ⟨_, ?_, ⟨rfl, fun row found => ?_⟩, _, rfl, agree⟩
    · rw [execTotal, agree.find?_eq own]
    · have meets := List.find?_some (Except.ok.inj found)
      exact (own row meets).1
  | notificationUpdateMany u readAt =>
    obtain rfl : u = userId := low
    cases Option.some.inj executed
    refine ⟨_, ?_, rfl, _, rfl, agree.setReadAt _ readAt⟩
    rw [execTotal, unread_length agree]
    rfl

theorem execOwn_low {c : BellCmd} {r : Except Exn c.Resp} {t : Store} (low : Low userId c)
    (same : SameFor userId s s') (executed : execOwn platform choice s c = some (r, t)) :
    Follows userId c r t (execOwn platform choice s' c) := by
  unfold execOwn at executed ⊢
  split at executed
  · exact execTotal_low low same executed
  · split at executed
    · rename_i rejected
      cases Option.some.inj executed
      rw [if_pos rejected]
      exact ⟨s', rfl, confined_error low, same⟩
    · contradiction

/-- A row of the user is updated in both stores. -/
theorem execOwn_update {row : Notification} {readAt : Nat} {r : Except Exn Notification} {t : Store}
    (found : row ∈ s.notifications) (own : row.userId = userId) (same : SameFor userId s s')
    (executed : execOwn platform choice s (.notificationUpdate row.id readAt) = some (r, t)) :
    Follows userId (.notificationUpdate row.id readAt) r t
      (execOwn platform choice s' (.notificationUpdate row.id readAt)) := by
  obtain ⟨notifications, rfl, agree⟩ := same
  have only : ∀ {u : Table Notification.id}, row ∈ u → u.rows.find? (·.id = row.id) = some row := by
    intro u stored
    cases first : u.rows.find? (·.id = row.id) with
    | none => exact absurd (decide_eq_true rfl) (List.find?_eq_none.mp first row stored)
    | some other =>
      have meets := List.find?_some first
      have sameId : other.id = row.id := of_decide_eq_true meets
      rw [Table.eq_of_key (List.mem_of_find?_eq_some first) stored sameId]
  unfold execOwn at executed ⊢
  split at executed
  · simp only [execTotal, only found] at executed
    cases Option.some.inj executed
    refine ⟨_, ?_, fun row' updated => ?_, _, rfl, agree.setReadAt _ readAt⟩
    · simp only [execTotal, only ((agree row own).mp found)]
      rfl
    · cases updated
      exact own
  · split at executed
    · rename_i rejected
      cases Option.some.inj executed
      rw [if_pos rejected]
      exact ⟨_, rfl, by rintro row ⟨⟩, _, rfl, agree⟩
    · contradiction

end Commands

section Services

variable {platform : Platform} {userId : String}

/-- The commands of the services, without the consume loop. -/
def bellSemantics (platform : Platform) : Semantics BellApi Exn Store :=
  ⟨Choice, fun c choice s => execOwn platform choice s c⟩

/-- The program is confined to the rows of the user. -/
abbrev IsolatedFor (platform : Platform) (userId : String) {α : Type} (p : Action α) : Prop :=
  Isolated (bellSemantics platform) (Confined userId) (SameFor userId) p

theorem isolated_call {c : BellCmd} (low : Low userId c) : IsolatedFor platform userId (call c) :=
  .perform fun _ _ _ _ _ same executed => execOwn_low low same executed

theorem isolated_return {α : Type} (a : α) : IsolatedFor platform userId (return a) := .done _

theorem isolated_throw {α : Type} (e : Exn) : IsolatedFor platform userId (throw e : Action α) :=
  .done _

theorem isolated_unreadCount :
    IsolatedFor platform userId (NotificationService.unreadCount userId) := by
  unfold NotificationService.unreadCount
  split
  · exact isolated_throw _
  · exact isolated_call rfl

theorem isolated_readAll : IsolatedFor platform userId (NotificationService.readAll userId) := by
  unfold NotificationService.readAll
  split
  · exact isolated_throw _
  · exact (isolated_call (c := .now) trivial).bind fun now => isolated_call rfl

/-- The row to be updated has been found by the user's own id, and the reply is about a row of
the user. -/
theorem sync_markRead (id : String) {s s' : Store} (same : SameFor userId s s') :
    Sync (bellSemantics platform) (Confined userId)
    (NotificationService.markRead platform userId id) s s' fun r t t' =>
      SameFor userId t t' ∧ ∀ body, r = .ok body → ∃ row : Notification, row.userId = userId ∧
        body = NotificationService.marked platform row := by
  unfold NotificationService.markRead
  split
  · exact ⟨same, nofun⟩
  · refine sync_bind fun choice r t executed => ?_
    obtain ⟨t', executed', confined, same⟩ :=
      execOwn_low (c := .notificationFindFirst id userId) rfl same executed
    refine ⟨t', executed', confined, ?_⟩
    rcases r with e | _ | existing
    · exact ⟨same, nofun⟩
    · exact ⟨same, nofun⟩
    · obtain ⟨stored, -, own⟩ := exec_findFirst executed
      simp only [Sync]
      split
      · refine ⟨same, fun body returned => ?_⟩
        cases returned
        exact ⟨existing, own, rfl⟩
      · refine sync_bind fun choice r t executed => ?_
        obtain ⟨t', executed', confined, same⟩ := execOwn_low (c := .now) trivial same executed
        refine ⟨t', executed', confined, ?_⟩
        cases r with
        | error e => exact ⟨same, nofun⟩
        | ok now =>
          obtain ⟨-, rfl⟩ := Prod.mk.inj (Option.some.inj (execOwn_ok executed))
          refine sync_bind fun choice r t executed => ?_
          obtain ⟨t', executed', confined, same⟩ := execOwn_update stored own same executed
          refine ⟨t', executed', confined, ?_⟩
          cases r with
          | error e => exact ⟨same, nofun⟩
          | ok updated =>
            refine ⟨same, fun body returned => ?_⟩
            cases returned
            exact ⟨updated, confined updated rfl, rfl⟩

theorem isolated_markRead (id : String) :
    IsolatedFor platform userId (NotificationService.markRead platform userId id) :=
  fun _ _ same => (sync_markRead id same).mono fun _ _ _ holds => holds.1

theorem isolated_handle {infoData : Js}
    (caller : NotificationController.resolveUserId infoData = userId)
    (handler : NotificationController.Handler) :
    IsolatedFor platform userId (NotificationController.handle platform infoData handler) := by
  cases handler with
  | unreadCount =>
    rw [NotificationController.handle, caller]
    exact isolated_unreadCount.bind fun _ => isolated_return _
  | markRead id =>
    rw [NotificationController.handle, caller]
    refine (isolated_markRead id).bind fun body => ?_
    split <;> exact isolated_return _
  | readAll =>
    rw [NotificationController.handle, caller]
    exact isolated_readAll.bind fun _ => isolated_return _

/-- A request with an internal token for the user, or without a valid token. -/
def For (platform : Platform) (userId : String) (request : Gateway.HttpRequest) : Prop :=
  ∀ infoData, (request.headers.lookup "Authorization").bind platform.internalData = some infoData →
    NotificationController.resolveUserId infoData = userId

theorem isolated_serve {request : Gateway.HttpRequest} (own : For platform userId request) :
    IsolatedFor platform userId (serve platform request) := by
  refine Isolated.catch ?_ fun e => isolated_return _
  cases NotificationController.route request with
  | none => exact isolated_throw _
  | some handler =>
    cases authorized : (request.headers.lookup "Authorization").bind platform.internalData with
    | none => exact isolated_throw _
    | some infoData => exact isolated_handle (own infoData authorized) handler

theorem isolated_request {request : Gateway.HttpRequest} {message : String}
    (own : For platform userId request) :
    IsolatedFor platform userId (Gateway.unchecked (client platform) message request) := by
  refine Isolated.catch (Isolated.bind ?_ fun _ => isolated_return _) fun e => isolated_throw _
  refine (isolated_call (c := .httpRequest request) trivial).bind fun refused => ?_
  cases refused with
  | some refused => exact isolated_return _
  | none =>
    refine (isolated_serve own).bind fun reply => ?_
    exact (isolated_call (c := .httpReply _) trivial).bind fun _ => isolated_return _

end Services

section Messages

variable {platform : Platform} {gateway : Nat} {socket : Socket} {userId : String}

/-- What the gateway sends with a token for the user. -/
theorem for_token {request : Gateway.HttpRequest} {token : String}
    (signed : platform.internalData ("Bearer " ++ token) = some (.obj [("userId", .str userId)]))
    (sent : request.headers.lookup "Authorization" = some ("Bearer " ++ token)) :
    For platform userId request := by
  intro infoData authorized
  rw [sent, Option.bind_some, signed] at authorized
  cases authorized
  rfl

theorem isolated_emitError (message : String) (errors : List (String × Js)) :
    IsolatedFor platform userId (NotificationWsGateway.emitError gateway socket message errors) :=
  isolated_call trivial

theorem isolated_property (v : Js) (name : String) :
    IsolatedFor platform userId (property v name) := by
  cases v <;> exact .done _

variable {token : String} (signed : platform.internalData ("Bearer " ++ token) =
  some (.obj [("userId", .str userId)]))
include signed

theorem isolated_markAsRead (id requestId : String) : IsolatedFor platform userId
    (NotificationWsGateway.markAsRead platform gateway userId id ("Bearer " ++
      token) requestId) := by
  refine (isolated_request (for_token signed authorization_sent)).bind fun _ => ?_
  refine (isolated_request (for_token signed authorization_sent)).bind fun body => ?_
  exact (isolated_property _ _).bind fun count => isolated_call trivial

theorem isolated_markAllAsRead (requestId : String) : IsolatedFor platform userId
    (NotificationWsGateway.markAllAsRead platform gateway userId ("Bearer " ++
      token) requestId) := by
  refine (isolated_request (for_token signed authorization_sent)).bind fun body => ?_
  exact (isolated_property _ _).bind fun _ => isolated_call trivial

omit signed

/-- Once the limiter has let a message pass, the token is signed for the user. -/
theorem isolated_signed {attempt : String → String → Action Unit} {message : String}
    (attempts : ∀ token requestId, platform.internalData ("Bearer " ++ token) =
      some (.obj [("userId", .str userId)]) →
      IsolatedFor platform userId (attempt ("Bearer " ++ token) requestId)) :
    IsolatedFor platform userId (do
      let requestId ← call .randomUUID
      let internalToken ← NotificationWsGateway.internalToken platform userId
      tryCatch (attempt internalToken requestId) fun _ =>
        NotificationWsGateway.emitError gateway socket message) := by
  refine (isolated_call (c := .randomUUID) trivial).bind fun requestId => ?_
  intro s s' same
  refine sync_bind (sync_bind fun choice r t executed => ?_)
  obtain ⟨t', executed', confined, same⟩ :=
    execOwn_low (c := .signInternalToken _) trivial same executed
  refine ⟨t', executed', confined, ?_⟩
  cases r with
  | error e => exact same
  | ok token =>
    have attempted := attempts token requestId (exec_token executed)
    exact Isolated.catch attempted (fun e => isolated_emitError _ _) _ _ same

theorem isolated_accepted {next : String → Action Unit} (user : socket.user? = some userId)
    (continues : IsolatedFor platform userId (next userId)) :
    IsolatedFor platform userId (NotificationWsGateway.accepted gateway socket next) := by
  unfold NotificationWsGateway.accepted
  split
  · exact isolated_emitError _ _
  · rename_i socketData authenticated
    rw [Socket.user?, authenticated, Option.map_some, Option.some.injEq] at user
    refine (isolated_call (c := .checkRateLimit gateway _) trivial).bind fun allowed => ?_
    cases allowed with
    | true => exact user ▸ continues
    | false => exact isolated_emitError _ _

theorem isolated_handleNotificationRead (user : socket.user? = some userId) (body : Js) :
    IsolatedFor platform userId
      (NotificationWsGateway.handleNotificationRead platform gateway socket body) := by
  refine isolated_accepted user ?_
  cases NotificationReadRequestSchema platform body with
  | none => exact isolated_emitError _ _
  | some id =>
      exact isolated_signed fun _ requestId signed => isolated_markAsRead signed id requestId

theorem isolated_handleNotificationReadAll (user : socket.user? = some userId) :
    IsolatedFor platform userId
      (NotificationWsGateway.handleNotificationReadAll platform gateway socket) :=
  isolated_accepted user (isolated_signed fun _ requestId signed =>
    isolated_markAllAsRead signed requestId)

end Messages

end CorePlatform.Bell
