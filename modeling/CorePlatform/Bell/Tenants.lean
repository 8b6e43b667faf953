import CorePlatform.Bell.Isolation
import CorePlatform.Bell.Truthful
import CorePlatform.Permission.FailsClosed

/-! Tenants of the notification table: whatever the requests of other users do, a user's
requests return what they would return if there were no other users. -/
namespace CorePlatform.Bell
open Async Relational
open Permission (PermissionCache.cacheKey)

section Stores

variable {userId : String} {s s' t : InboxStore}

/-- The stores differ in what belongs to other users at most. -/
def SameTenant (userId : String) (s s' : InboxStore) : Prop :=
  SameFor userId s.bell s'.bell ∧ s.redis (PermissionCache.cacheKey userId) = s'.redis
    (PermissionCache.cacheKey userId)

/-- The commands of the permission package on the entry of a user. -/
def About (userId : String) : Permission.Cmd → Prop
  | .hgetall key | .hset key _ | .exists key | .del key => key = PermissionCache.cacheKey userId
  | .httpGet u => u = userId
  | .flushall => False

/-- The commands on the table and the clock. -/
def onTable : BellCmd → Bool
  | .now | .notificationCount _ | .notificationFindFirst .. | .notificationUpdate ..
  | .notificationUpdateMany .. =>
      true
  | _ => false

/-- What an event of a request reads and writes belongs to the user. -/
def ConfinedTo (userId : String) : Event InboxApi Exn → Prop
  | ⟨.service c, r⟩ => onTable c = true ∧ Confined userId ⟨c, r⟩
  | ⟨.permission c, _⟩ => About userId c
  | ⟨.notificationFindMany u .., r⟩ =>
      u = userId ∧ ∀ items, r = .ok items → ∀ row ∈ items, row.userId = userId
  | ⟨.notificationCountAll u, _⟩ => u = userId

/-- What does not belong to the user is left as it is. -/
def Leaves (userId : String) (s t : InboxStore) : Prop :=
  ∀ other, other ≠ userId → SameTenant other s t

end Stores

section Permissions

variable {cfg : InboxConfig} {userId : String} {s s' : InboxStore}

theorem exec_about {c : Permission.Cmd} {ch : Permission.Choice} {redis redis' t : Permission.Redis}
    {r : Except Permission.Failure c.Resp} (about : About userId c)
    (same : redis (PermissionCache.cacheKey userId) = redis' (PermissionCache.cacheKey userId))
    (executed : Permission.exec c ch redis = some (r, t)) :
    ∃ t', Permission.exec c ch redis' = some (r, t') ∧
      t (PermissionCache.cacheKey userId) = t' (PermissionCache.cacheKey userId) := by
  have total : (Permission.execTotal c ch redis).1 = (Permission.execTotal c ch redis').1 ∧
      (Permission.execTotal c ch redis).2 (PermissionCache.cacheKey userId) =
        (Permission.execTotal c ch redis').2 (PermissionCache.cacheKey userId) := by
    cases c with
    | flushall => exact about.elim
    | httpGet u => exact ⟨rfl, same⟩
    | hgetall key =>
      obtain rfl : key = _ := about
      exact ⟨same, same⟩
    | «exists» key =>
      obtain rfl : key = _ := about
      exact ⟨congrArg Option.isSome same, same⟩
    | hset key hash =>
      obtain rfl : key = _ := about
      exact ⟨rfl, by simp only [Permission.execTotal, Permission.Redis.hset_apply, if_true]⟩
    | del key =>
      obtain rfl : key = _ := about
      exact ⟨rfl, by simp only [Permission.execTotal, Permission.Redis.del_apply, if_true]⟩
  simp only [Permission.exec] at executed ⊢
  cases fault : ch.fault with
  | none =>
    rw [fault] at executed
    cases executed
    exact ⟨_, by rw [total.1], total.2⟩
  | some e =>
    rw [fault] at executed
    cases executed
    refine ⟨_, rfl, ?_⟩
    split
    · exact total.2
    · exact same

theorem uses_orThrow {α β : Type} {allowed : Permission.Cmd → Prop}
    {e : Permission.Failure} {a? : Option β} {f : β → Permission.Action α}
    (next : ∀ a, a? = some a → (f a).Uses allowed) :
    (Permission.orThrow e a? >>= f).Uses allowed := by
  cases a? with
  | none => trivial
  | some a => exact next a rfl

theorem uses_template {α : Type} {allowed : Permission.Cmd → Prop} {v : Js}
    {f : String → Permission.Action α}
    (next : (f v.toText).Uses allowed) : (Permission.template v >>= f).Uses allowed := by
  refine uses_orThrow fun text found => ?_
  rw [Js.template?, Option.ite_none_right_eq_some] at found
  exact Option.some.inj found.2 ▸ next

theorem uses_versionText {α : Type} {allowed : Permission.Cmd → Prop} {v : Js}
    {f : String → Permission.Action α}
    (next : ∀ text, (f text).Uses allowed) :
    (Permission.PermissionCache.versionText v >>= f).Uses allowed := by
  cases v with
  | undefined | null => trivial
  | obj fields => exact uses_orThrow fun text _ => next text
  | bool | num | str | arr => exact uses_template (next _)

theorem uses_getPermissions {platform : Permission.Platform} {user permVersion : Js} :
    (Permission.PermissionProvider.getPermissions platform user permVersion).Uses
      (About user.toText) := by
  have fetched : (Permission.PermissionProvider.fetch platform user permVersion).Uses
      (About user.toText) := by
    apply uses_template
    refine Prog.Uses.bind (p := Permission.call (.httpGet user.toText))
      ⟨rfl, fun _ => trivial⟩ fun response => ?_
    by_cases accepted : response.status = 200
    · simp only [ne_eq, accepted, not_true_eq_false, if_false]
      cases response.data platform with
      | arr permissions =>
        apply uses_template
        refine Prog.Uses.bind ?_ fun _ => trivial
        apply uses_template
        apply uses_versionText
        exact fun version => ⟨rfl, fun _ => trivial⟩
      | undefined | null | bool | num | str | obj => trivial
    · simp only [ne_eq, accepted, not_false_eq_true, if_true]
      trivial
  refine Prog.Uses.bind ?_ fun cached => ?_
  · apply uses_template
    refine Prog.Uses.bind (p := Permission.call (.hgetall _))
      ⟨rfl, fun _ => trivial⟩ fun found => ?_
    cases found with
    | none => trivial
    | some cached => exact uses_versionText fun _ => trivial
  · split
    · trivial
    · exact fetched.catch fun _ => trivial

theorem uses_canActivate {platform : Permission.Platform}
    {metadata : Permission.Metadata} {user : Js} :
    (Permission.PermissionGuard.canActivate platform metadata user).Uses
      (About (Permission.userText user)) := by
  unfold Permission.PermissionGuard.canActivate
  split
  · trivial
  · split
    · trivial
    · split
      · trivial
      · unfold Permission.PermissionGuard.check
        dsimp only
        split
        · trivial
        · refine uses_getPermissions.bind fun permissions => Prog.Uses.bind ?_ fun held => ?_
          · cases permissions with
            | arr xs => exact uses_template trivial
            | undefined | null | bool | num | str | obj => trivial
          · cases held <;> trivial

end Permissions

section Parts

variable {cfg : InboxConfig} {userId : String} {s s' : InboxStore} {α : Type}

/-- A program of the service is as isolated within a request as it is alone. -/
theorem sync_inService {p : Action α} {Q : Except Exn α → Store → Store → Prop}
    (key : s.redis (PermissionCache.cacheKey userId) = s'.redis (PermissionCache.cacheKey userId))
    (sync : Sync (bellSemantics cfg.platform) (fun e => onTable e.cmd = true ∧
      Confined userId e) p s.bell s'.bell Q) :
    Sync (inboxSemantics cfg) (ConfinedTo userId) (inService p) s s' fun r t t' =>
      Q r t.bell t'.bell ∧ t.redis (PermissionCache.cacheKey userId) =
        t'.redis (PermissionCache.cacheKey userId) := by
  induction p generalizing s s' with
  | done r => exact ⟨sync, key⟩
  | await c k ih =>
    intro choice r t executed
    obtain ⟨⟨r, bell⟩, ran, same⟩ := Option.map_eq_some_iff.mp executed
    cases same
    obtain ⟨bell', executed', good, rest⟩ := sync choice.bell r bell ran
    refine ⟨{ s' with bell := bell' }, ?_, good, ih r key rest⟩
    simp only [inboxSemantics, inboxExec, show execOwn cfg.platform choice.bell s'.bell c =
      some (r, bell') from executed', Option.map_some]

theorem sync_inPermission {p : Permission.Action α} (uses : p.Uses (About userId))
    (same : SameTenant userId s s') :
    Sync (inboxSemantics cfg) (ConfinedTo userId) (inPermission p) s s' fun _ =>
      SameTenant userId := by
  induction p generalizing s s' with
  | done r => cases r <;> exact same
  | await c k ih =>
    simp only [inPermission]
    intro choice r t executed
    obtain ⟨⟨r, redis⟩, ran, same'⟩ := Option.map_eq_some_iff.mp executed
    cases same'
    obtain ⟨redis', executed', kept⟩ := exec_about uses.1 same.2 ran
    refine ⟨{ s' with redis := redis' }, ?_, uses.1, ?_⟩
    · simp only [inboxSemantics, inboxExec, executed', Option.map_some]
    · have same : SameTenant userId { s with redis } { s' with redis := redis' } := ⟨same.1, kept⟩
      exact ih r (uses.2 r) same

theorem uses_service {userId : String} (id : String) :
    (NotificationService.unreadCount userId).Uses (onTable · = true) ∧
      (NotificationService.markRead cfg.platform userId id).Uses (onTable · = true) ∧
        (NotificationService.readAll userId).Uses (onTable · = true) := by
  have called : ∀ c, onTable c = true → (call c).Uses (onTable · = true) :=
    fun c allowed => ⟨allowed, fun _ => trivial⟩
  refine ⟨?_, ?_, ?_⟩
  · unfold NotificationService.unreadCount
    split
    · trivial
    · exact called _ rfl
  · unfold NotificationService.markRead
    split
    · trivial
    · refine (called (.notificationFindFirst id userId) rfl).bind fun existing => ?_
      cases existing with
      | none => trivial
      | some existing =>
        dsimp only
        split
        · trivial
        · exact (called .now rfl).bind fun now =>
            (called (.notificationUpdate _ now) rfl).bind fun _ => trivial
  · unfold NotificationService.readAll
    split
    · trivial
    · exact (called .now rfl).bind fun now => called (.notificationUpdateMany _ now) rfl

/-- The rows and the marks of a reply are the user's. -/
def OwnReply (cfg : InboxConfig) (userId : String) : Except Exn InboxReply → Prop
  | .ok (.page page) => ∀ row ∈ page.items, row.userId = userId
  | .ok (.marked body) =>
      ∃ row : Notification, row.userId = userId ∧ body = NotificationService.marked cfg.platform row
  | .ok (.count _) | .ok (.updated _) | .error _ => True

/-- What a part of a request leaves. -/
def Answers (cfg : InboxConfig) (userId : String) (r : Except Exn InboxReply)
    (t t' : InboxStore) : Prop :=
  SameTenant userId t t' ∧ OwnReply cfg userId r

theorem rowsOf_perm (same : SameFor userId s.bell s'.bell) :
    (s.bell.rowsOf userId).Perm (s'.bell.rowsOf userId) := by
  obtain ⟨notifications, bell, agree⟩ := same
  rw [bell]
  exact agree.filter_perm fun row meets => of_decide_eq_true meets

theorem sync_findMany {sortBy : SortField} {sortOrder : SortOrder} {skip take : String}
    (same : SameTenant userId s s') :
    Sync (inboxSemantics cfg) (ConfinedTo userId)
    (ask (.notificationFindMany userId sortBy sortOrder skip take)) s s' fun r t t' =>
      SameTenant userId t t' ∧ ∀ items, r = .ok items → ∀ row ∈ items, row.userId = userId := by
  intro choice r t executed
  have perm := rowsOf_perm same.1
  have finish : ∀ r : Except Exn (List Notification), (∀ items, r = .ok items →
      ∀ row ∈ items, row.userId = userId) →
      ConfinedTo userId ⟨.notificationFindMany userId sortBy sortOrder skip take, r⟩ ∧
        SameTenant userId s s' ∧ ∀ items, r = .ok items → ∀ row ∈ items, row.userId = userId :=
    fun r own => ⟨⟨rfl, own⟩, same, own⟩
  simp only [inboxSemantics, inboxExec] at executed ⊢
  split at executed
  · rename_i e _ _ fault
    split at executed
    · rename_i foreign
      cases executed
      exact ⟨s', if_pos foreign, finish _ nofun⟩
    · contradiction
  · rename_i skip take _ _ _
    split at executed
    · rename_i sorted
      cases executed
      refine ⟨s', if_pos ⟨sorted.1.trans perm, sorted.2⟩,
        finish _ fun items returned row member => ?_⟩
      cases returned
      have stored := sorted.1.subset (List.mem_of_mem_drop (List.mem_of_mem_take member))
      exact of_decide_eq_true (List.mem_filter.mp stored).2
    · contradiction
  · cases executed
    exact ⟨s', rfl, finish _ nofun⟩

theorem sync_countAll (same : SameTenant userId s s') :
    Sync (inboxSemantics cfg) (ConfinedTo userId) (ask (.notificationCountAll userId)) s s' fun _ =>
      SameTenant userId := by
  intro choice r t executed
  have perm := rowsOf_perm same.1
  simp only [inboxSemantics, inboxExec] at executed ⊢
  split at executed
  · split at executed
    · rename_i foreign
      cases executed
      exact ⟨s', if_pos foreign, rfl, same⟩
    · contradiction
  · cases executed
    refine ⟨s', ?_, rfl, same⟩
    rw [perm.length_eq]

theorem sync_handle (same : SameTenant userId s s') (route : InboxRoute) :
    Sync (inboxSemantics cfg) (ConfinedTo userId)
    (handle cfg userId route) s s' (Answers cfg userId) := by
  cases route with
  | list page limit sortBy sortOrder =>
    refine sync_bind ?_
    by_cases nobody : userId = ""
    · simp only [listByUser, nobody, if_true]
      exact ⟨nobody ▸ same, trivial⟩
    · simp only [listByUser, nobody, if_false]
      refine sync_bind ((sync_findMany same).mono fun r t t' found => ?_)
      cases r with
      | error e => exact ⟨found.1, trivial⟩
      | ok items =>
        refine sync_bind ((sync_countAll found.1).mono fun r u u' same => ?_)
        cases r with
        | error e => exact ⟨same, trivial⟩
        | ok total => exact ⟨same, found.2 items rfl⟩
  | unreadCount =>
    have isolated : IsolatedFor cfg.platform userId (NotificationService.unreadCount userId) :=
      isolated_unreadCount
    have alone := (isolated s.bell s'.bell same.1).and_uses (@uses_service cfg userId "").1
    refine sync_bind ((sync_inService same.2 alone).mono fun r t t' kept => ?_)
    cases r <;> exact ⟨kept, trivial⟩
  | markRead id =>
    have alone := (sync_markRead id same.1).and_uses (@uses_service cfg userId id).2.1
    refine sync_bind ((sync_inService same.2 alone).mono fun r t t' kept => ?_)
    cases r with
    | error e => exact ⟨⟨kept.1.1, kept.2⟩, trivial⟩
    | ok body => exact ⟨⟨kept.1.1, kept.2⟩, kept.1.2 body rfl⟩
  | readAll =>
    have isolated : IsolatedFor cfg.platform userId (NotificationService.readAll userId) :=
      isolated_readAll
    have alone := (isolated s.bell s'.bell same.1).and_uses (@uses_service cfg userId "").2.2
    refine sync_bind ((sync_inService same.2 alone).mono fun r t t' kept => ?_)
    cases r <;> exact ⟨kept, trivial⟩

end Parts

section Requests

variable {cfg : InboxConfig} {userId : String} {s s' t : InboxStore} {q : InboxRequest}

/-- The user that a request's token names, where its audience is not the internal one. -/
def InboxConfig.user? (cfg : InboxConfig) (q : InboxRequest) : Option String :=
  match q.token with
  | none => none
  | some text =>
    match cfg.lib.decode text with
    | .error _ => none
    | .ok payload =>
        if payload.get "aud" = .str cfg.strategy.internalAudience then
          none else (payload.get "sub").string?

theorem sub_of_user (user : cfg.user? q = some userId) : ∃ text payload, q.token = some text ∧
    cfg.lib.decode text = .ok payload ∧
    payload.get "aud" ≠ .str cfg.strategy.internalAudience ∧ payload.get "sub" = .str userId := by
  unfold InboxConfig.user? at user
  split at user
  · contradiction
  · rename_i text token
    split at user
    · contradiction
    · rename_i payload decoded
      split at user
      · contradiction
      · rename_i other
        refine ⟨text, payload, token, decoded, other, ?_⟩
        unfold Js.string? at user
        split at user
        · cases user
          assumption
        · contradiction

/-- An accepted request carries the user of its token. -/
theorem principal_of_user (lawful : cfg.lib.Lawful) (user : cfg.user? q = some userId) {now : Nat}
    {req : Tokens.Request}
    (passed : Tokens.CombinedJwtAuthGuard.canActivate cfg.strategy cfg.lib .notification
      q.route.metadata q.token now = .ok req) :
    req.user.get "userId" = .str userId ∧ req.info = .undefined := by
  obtain ⟨text, payload, token, decoded, other, sub⟩ := sub_of_user user
  have notPublic : q.route.metadata.isPublic = false := by cases q.route <;> rfl
  simp only [Tokens.CombinedJwtAuthGuard.canActivate, notPublic,
    Bool.false_eq_true, if_false] at passed
  split at passed
  · contradiction
  · rename_i principal accepted
    cases passed
    obtain ⟨text', secret, payload', token', provided, verified, validated⟩ :=
      Tokens.authenticate_ok accepted
    cases token.symm.trans token'
    cases decoded.symm.trans (lawful.payload verified)
    unfold Tokens.CombinedJwtStrategy.validate at validated
    rw [if_neg other] at validated
    split at validated
    · cases validated
      exact ⟨sub, if_neg (show Js.str "user" ≠ .str "internal" by simp)⟩
    · contradiction

theorem sync_ask {c : BellCmd} (table : onTable c = true) (low : Low userId c)
    (same : SameTenant userId s s') :
    Sync (inboxSemantics cfg) (ConfinedTo userId) (ask (.service c)) s s' fun _ =>
      SameTenant userId := by
  have alone : IsolatedFor cfg.platform userId (call c) := isolated_call low
  have uses : (call c).Uses (onTable · = true) := ⟨table, fun _ => trivial⟩
  exact sync_inService same.2 ((alone _ _ same.1).and_uses uses)

theorem sync_request (lawful : cfg.lib.Lawful) (user : cfg.user? q = some userId)
    (same : SameTenant userId s s') :
    Sync (inboxSemantics cfg) (ConfinedTo userId) (request cfg q) s s' (Answers cfg userId) := by
  refine sync_bind (sync_bind ((sync_ask (c := .now) rfl trivial same).mono fun r t t' same => ?_))
  cases r with
  | error e => exact ⟨same, trivial⟩
  | ok now =>
    dsimp only
    split
    · rename_i req passed
      obtain ⟨principal, info⟩ := principal_of_user lawful user passed
      have text : Permission.userText req.user = userId := by
        rw [Permission.userText, Permission.PermissionGuard.principalField, principal,
          if_pos (show (Js.str userId).orElse (.num "0") ≠ .num "0" from nofun), Js.toText]
      have resolved : resolveUserId req.user (req.info.get "data") q.headerUserId =
          .str userId := by
        rw [resolveUserId, principal]
        rfl
      have uses := @uses_canActivate cfg.permissions q.route.metadata req.user
      rw [text] at uses
      refine sync_bind ((sync_inPermission uses same).mono fun r t t' same => ?_)
      cases r with
      | error e => exact ⟨same, trivial⟩
      | ok _ =>
        dsimp only
        rw [resolved]
        exact sync_handle same q.route
    · exact ⟨same, trivial⟩

end Requests

section Frames

variable {cfg : InboxConfig} {userId : String} {s t : InboxStore}

theorem SameTenant.refl (userId : String) (s : InboxStore) : SameTenant userId s s :=
  ⟨.refl _ _, rfl⟩

theorem SameTenant.trans {u : InboxStore} (first : SameTenant userId s t)
    (second : SameTenant userId t u) :
    SameTenant userId s u := by
  obtain ⟨⟨rows, bell, agree⟩, key⟩ := first
  obtain ⟨⟨rows', bell', agree'⟩, key'⟩ := second
  refine ⟨⟨rows', ?_, ?_⟩, key.trans key'⟩
  · rw [bell', bell]
  · rw [bell] at agree'
    exact agree.trans agree'

/-- Marking rows of one user is nothing to another. -/
theorem agreeOn_setReadAt {store : Store} {p : Notification → Bool} {readAt : Nat} {other : String}
    (own : ∀ row ∈ store.notifications, p row = true → row.userId ≠ other) :
    AgreeOn other store.notifications (store.setReadAt p readAt).notifications := by
  intro row theirs
  constructor
  · intro found
    refine mem_setReadAt.mpr ⟨row, found, if_neg fun meets => ?_⟩
    exact own row found meets theirs
  · intro found
    obtain ⟨old, stored, same⟩ := mem_setReadAt.mp found
    split at same
    · rename_i meets
      subst same
      exact absurd theirs (own old stored meets)
    · exact same ▸ stored

theorem cacheKey_ne {other : String} (different : other ≠ userId) :
    PermissionCache.cacheKey other ≠ PermissionCache.cacheKey userId :=
  fun same => different (Permission.cacheKey_injective same)

/-- A command on the table leaves the rest of the service's store. -/
theorem onTable_rest {platform : Platform} {choice : Choice} {c : BellCmd}
    {r : Except Exn c.Resp} {b b' : Store} (table : onTable c = true)
    (executed : execOwn platform choice b c = some (r, b')) :
    b' = { b with notifications := b'.notifications } := by
  unfold execOwn at executed
  split at executed
  · cases c with
    | now | notificationFindFirst | notificationUpdateMany =>
      cases Option.some.inj executed
      rfl
    | notificationCount =>
      simp only [execTotal] at executed
      split at executed
      · cases executed
        rfl
      · contradiction
    | notificationUpdate id readAt =>
      simp only [execTotal] at executed
      split at executed
      · cases executed
        rfl
      · cases executed
        rfl
    | _ => contradiction
  · split at executed
    · cases executed
      rfl
    · contradiction

theorem effect_agree {b b' : Store} {c : BellCmd} {r : Except Exn c.Resp} {other : String}
    (effect : RowEffect b b' c r) (confined : Confined userId ⟨c, r⟩) (different : other ≠ userId) :
    AgreeOn other b.notifications b'.notifications := by
  cases effect with
  | kept c r rows => exact rows ▸ .refl other _
  | created data row inserted => exact confined.elim
  | marked id readAt row found own rows =>
    rw [rows]
    refine agreeOn_setReadAt fun old stored meets theirs => different ?_
    have mine := confined _ rfl
    obtain rfl := Table.eq_of_key stored found ((of_decide_eq_true meets).trans own.symm)
    exact theirs.symm.trans mine
  | markedAll u readAt n rows =>
    obtain rfl : u = userId := confined
    rw [rows]
    refine agreeOn_setReadAt fun old stored meets theirs => different ?_
    simp only [Bool.and_eq_true, decide_eq_true_eq] at meets
    exact theirs.symm.trans meets.1

/-- What an event of a user's request does is nothing to another user. -/
theorem exec_leaves {c : InboxCmd} {choice : InboxChoice} {r : Except Exn c.Resp}
    (executed : inboxExec cfg choice s c = some (r, t)) (confined : ConfinedTo userId ⟨c, r⟩) :
    Leaves userId s t := by
  intro other different
  cases c with
  | service c =>
    obtain ⟨⟨r, bell⟩, ran, same⟩ := Option.map_eq_some_iff.mp executed
    cases same
    refine ⟨⟨bell.notifications, onTable_rest confined.1 ran, ?_⟩, rfl⟩
    exact effect_agree (execOwn_effect ran) confined.2 different
  | permission c =>
    obtain ⟨⟨r, redis⟩, ran, same⟩ := Option.map_eq_some_iff.mp executed
    cases same
    refine ⟨.refl other _, ?_⟩
    have total : (Permission.execTotal c choice.permission s.redis).2
        (PermissionCache.cacheKey other) = s.redis (PermissionCache.cacheKey other) := by
      cases c with
      | flushall => exact confined.elim
      | httpGet | hgetall | «exists» => rfl
      | hset key hash =>
        obtain rfl : key = _ := confined
        exact if_neg (cacheKey_ne different)
      | del key =>
        obtain rfl : key = _ := confined
        exact if_neg (cacheKey_ne different)
    simp only [Permission.exec] at ran
    split at ran
    · cases ran
      exact total.symm
    · cases ran
      dsimp only
      split
      · exact total.symm
      · rfl
  | notificationFindMany u sortBy sortOrder skip take =>
    simp only [inboxExec] at executed
    split at executed
    · split at executed
      · cases executed
        exact .refl other s
      · contradiction
    · split at executed
      · cases executed
        exact .refl other s
      · contradiction
    · cases executed
      exact .refl other s
  | notificationCountAll u =>
    simp only [inboxExec] at executed
    split at executed
    · split at executed
      · cases executed
        exact .refl other s
      · contradiction
    · cases executed
      exact .refl other s

end Frames

section Sequences

variable {cfg : InboxConfig} {userId : String}

/-- The store at a time. -/
def InboxStore.at (s : InboxStore) (time : Nat) : InboxStore :=
  { s with bell := { s.bell with now := time } }

/-- A request that has been answered: when it came, what was left open in it, and what was
executed and returned. -/
structure Exchange where
  request : InboxRequest
  time : Nat
  choices : List InboxChoice
  events : List (Event InboxApi Exn)
  result : Except Exn InboxReply

/-- The exchange leads from one store to another. -/
def Serve (cfg : InboxConfig) (s : InboxStore) (a : Exchange) (t : InboxStore) : Prop :=
  (request cfg a.request).play (inboxSemantics cfg) (s.at a.time) a.choices =
    some (a.events, a.result, t)

/-- Requests answered one after the other. -/
inductive Serves (cfg : InboxConfig) : InboxStore → List Exchange → InboxStore → Prop where
  | nil (s : InboxStore) : Serves cfg s [] s
  | cons {s t u : InboxStore} {a : Exchange} {rest : List Exchange} (first : Serve cfg s a t)
      (others : Serves cfg t rest u) :
      Serves cfg s (a :: rest) u

/-- Answer requests in turn. -/
def serveAll (cfg : InboxConfig) (s : InboxStore) :
    List (InboxRequest × Nat × List InboxChoice) → Option (List Exchange × InboxStore)
  | [] => some ([], s)
  | (q, time, choices) :: rest =>
      match (request cfg q).play (inboxSemantics cfg) (s.at time) choices with
      | none => none
      | some (events, result, t) =>
          (serveAll cfg t rest).map fun (exchanges, u) =>
            (⟨q, time, choices, events, result⟩ :: exchanges, u)

theorem serves_of_serveAll {requests : List (InboxRequest × Nat × List InboxChoice)}
    {s t : InboxStore} {exchanges : List Exchange}
    (served : serveAll cfg s requests = some (exchanges, t)) :
    Serves cfg s exchanges t ∧ exchanges.map Exchange.request = requests.map Prod.fst := by
  induction requests generalizing s exchanges with
  | nil =>
    cases Option.some.inj served
    exact ⟨.nil _, rfl⟩
  | cons first rest ih =>
    obtain ⟨q, time, choices⟩ := first
    simp only [serveAll] at served
    split at served
    · contradiction
    · rename_i events result u played
      obtain ⟨⟨later, v⟩, continued, same⟩ := Option.map_eq_some_iff.mp served
      cases same
      obtain ⟨serves, requests⟩ := ih continued
      exact ⟨.cons played serves, congrArg (q :: ·) requests⟩

/-- The stores differ in what belongs to other users, and in the time, at most. -/
def SeenBy (userId : String) (s s' : InboxStore) : Prop := SameTenant userId (s.at 0) (s'.at 0)

variable {s s' t : InboxStore}

theorem SeenBy.at (seen : SeenBy userId s s') (time : Nat) :
    SameTenant userId (s.at time) (s'.at time) := by
  obtain ⟨⟨notifications, bell, agree⟩, key⟩ := seen
  exact ⟨⟨notifications, congrArg (fun b : Store => { b with now := time }) bell, agree⟩, key⟩

theorem SameTenant.seen (same : SameTenant userId s s') : SeenBy userId s s' := by
  obtain ⟨⟨notifications, bell, agree⟩, key⟩ := same
  exact ⟨⟨notifications, congrArg (fun b : Store => { b with now := 0 }) bell, agree⟩, key⟩

theorem SeenBy.trans {u : InboxStore} (first : SeenBy userId s t) (second : SeenBy userId t u) :
    SeenBy userId s u :=
  SameTenant.trans first second

theorem SameTenant.symm (same : SameTenant userId s s') : SameTenant userId s' s := by
  obtain ⟨⟨notifications, bell, agree⟩, key⟩ := same
  refine ⟨⟨s.bell.notifications, ?_, ?_⟩, key.symm⟩
  · rw [bell]
  · rw [bell]
    exact agree.symm

variable {a : Exchange}

/-- An exchange of a user goes the same way from any store that looks the same to the user. -/
theorem Serve.follows (lawful : cfg.lib.Lawful) (served : Serve cfg s a t)
    (user : cfg.user? a.request = some userId) (seen : SeenBy userId s s') :
    ∃ t', Serve cfg s' a t' ∧ (∀ e ∈ a.events, ConfinedTo userId e) ∧
      SameTenant userId t t' ∧ OwnReply cfg userId a.result :=
  sync_play (sync_request lawful user (seen.at a.time)) served

theorem Serve.leaves (lawful : cfg.lib.Lawful) (served : Serve cfg s a t)
    (user : cfg.user? a.request = some userId) :
    Leaves userId (s.at a.time) t := by
  obtain ⟨_, _, confined, _⟩ := served.follows lawful user (SameTenant.refl userId _)
  refine play_along served confined (fun s other _ => .refl other s) ?_ ?_
  · exact fun s t u first second other different => (first other different).trans
      (second other different)
  · exact fun c choice s r t executed good => exec_leaves executed good

/-- What a user sees of a sequence of requests are the user's own. -/
theorem Serves.own (lawful : cfg.lib.Lawful) {exchanges : List Exchange}
    (serves : Serves cfg s exchanges t)
    (users : ∀ a ∈ exchanges, (cfg.user? a.request).isSome = true) (seen : SeenBy userId s s') :
    ∃ t', Serves cfg s' (exchanges.filter fun a => cfg.user? a.request = some userId) t' ∧
    SeenBy userId t t' := by
  induction serves generalizing s' with
  | nil s => exact ⟨s', .nil s', seen⟩
  | @cons s t u a rest first others ih =>
    have later := fun a member => users a (List.mem_cons_of_mem _ member)
    obtain ⟨other, user⟩ := Option.isSome_iff_exists.mp (users a List.mem_cons_self)
    by_cases mine : other = userId
    · subst mine
      obtain ⟨t', first', _, same, _⟩ := first.follows lawful user seen
      obtain ⟨u', others', seen'⟩ := ih later same.seen
      simp only [List.filter_cons, user, decide_true, if_true]
      exact ⟨u', .cons first' others', seen'⟩
    · have left := first.leaves lawful user userId fun same => mine same.symm
      have now : SeenBy userId s (s.at a.time) := SameTenant.refl userId (s.at 0)
      have after : SeenBy userId t s' := (now.trans left.seen).symm.trans seen
      obtain ⟨u', others', seen'⟩ := ih later after
      have foreign : ¬ cfg.user? a.request = some userId :=
        fun same => mine (Option.some.inj (user.symm.trans same))
      simp only [List.filter_cons, foreign, decide_false, Bool.false_eq_true, if_false]
      exact ⟨u', others', seen'⟩

/-- The messages of a socket that concern notifications. -/
inductive InboxMessage where
  | notificationRead (body : Js)
  | notificationReadAll

def InboxMessage.handle (platform : Platform) (gateway : Nat) (socket : Socket) :
    InboxMessage → Action Unit
  | .notificationRead body =>
      NotificationWsGateway.handleNotificationRead platform gateway socket body
  | .notificationReadAll => NotificationWsGateway.handleNotificationReadAll platform gateway socket

/-- The requests and the messages of a user return and change rows of the user only, and are
answered as if there were no other users: whatever the rows of the others are, and whatever
requests the others send in between. -/
theorem tenant_isolation (lawful : cfg.lib.Lawful) (userId : String) :
    (∀ s a t, Serve cfg s a t → cfg.user? a.request = some userId →
      OwnReply cfg userId a.result ∧ (∀ e ∈ a.events, ConfinedTo userId e) ∧
      Leaves userId (s.at a.time) t) ∧
    (∀ s exchanges t, Serves cfg s exchanges t →
      (∀ a ∈ exchanges, (cfg.user? a.request).isSome = true) →
      ∀ s', SeenBy userId s s' → ∃ t',
        Serves cfg s' (exchanges.filter fun a => cfg.user? a.request = some userId) t' ∧
        SeenBy userId t t') ∧
    ∀ gateway socket (message : InboxMessage) s choices events r t, socket.user? = some userId →
      (message.handle cfg.platform gateway socket).play (bellSemantics cfg.platform) s choices =
        some (events, r, t) →
        (∀ e ∈ events, Confined userId e) ∧
        (∀ other, other ≠ userId → AgreeOn other s.notifications t.notifications) ∧
        ∀ s', SameFor userId s s' → ∃ t', SameFor userId t t' ∧
          (message.handle cfg.platform gateway socket).play
            (bellSemantics cfg.platform) s' choices = some (events, r, t') := by
  refine ⟨?_, ?_, ?_⟩
  · intro s a t served user
    obtain ⟨_, _, confined, _, own⟩ := served.follows lawful user (SameTenant.refl userId _)
    exact ⟨own, confined, served.leaves lawful user⟩
  · exact fun s exchanges t serves users s' seen => serves.own lawful users seen
  · intro gateway socket message s choices events r t user played
    have isolated : IsolatedFor cfg.platform userId
        (message.handle cfg.platform gateway socket) := by
      cases message with
      | notificationRead body => exact isolated_handleNotificationRead user body
      | notificationReadAll => exact isolated_handleNotificationReadAll user
    obtain ⟨_, _, confined, _⟩ := sync_play (isolated s s (.refl userId s)) played
    refine ⟨confined, fun other different => ?_, fun s' same => ?_⟩
    · refine play_along (F := fun s t => AgreeOn other s.notifications t.notifications) played
        confined (fun _ => .refl other _) ?_ ?_
      · exact fun s t u first second => first.trans second
      · exact fun c choice s r t executed good =>
          effect_agree (execOwn_effect executed) good different
    · obtain ⟨t', played', _, same'⟩ := sync_play (isolated s s' same) played
      exact ⟨t', same', played'⟩

end Sequences

section Sample

def sampleConfig : InboxConfig where
  platform := samplePlatform
  permissions := Permission.samplePlatform
  numbers := ⟨fun _ => "NaN", fun _ b => b, fun _ b => b, fun _ _ => "0", fun _ _ => "0"⟩
  lib := Tokens.sampleLibrary
  strategy := Tokens.sampleStrategy

def sampleInbox : InboxStore := ⟨sampleStore, Permission.Redis.empty⟩

def readAllOf (token : String) : InboxRequest := ⟨some token, .str alice, .readAll⟩

/-- Bob and then Alice mark everything as read; both requests name Alice in their header. -/
theorem tenant_isolation_sample : ∃ exchanges t t', Serves sampleConfig sampleInbox exchanges t ∧
    exchanges.map Exchange.request = [readAllOf bobToken, readAllOf aliceToken] ∧
      Serves sampleConfig sampleInbox (exchanges.filter fun a => sampleConfig.user? a.request =
        some alice) t' ∧ SeenBy alice t t' := by
  have answered : (serveAll sampleConfig sampleInbox
      [(readAllOf bobToken, 5, .replicate 3 {}),
        (readAllOf aliceToken, 7, .replicate 3 {})]).isSome = true := by
    decide +kernel
  obtain ⟨⟨exchanges, t⟩, answered⟩ := Option.isSome_iff_exists.mp answered
  obtain ⟨serves, requests⟩ := serves_of_serveAll answered
  have users : ∀ a ∈ exchanges, (sampleConfig.user? a.request).isSome = true := by
    intro a member
    have asked : a.request ∈ exchanges.map Exchange.request := List.mem_map_of_mem member
    rw [requests] at asked
    simp only [List.map_cons, List.map_nil, List.mem_cons, List.not_mem_nil, or_false] at asked
    obtain same | same := asked <;> (rw [same]; decide +kernel)
  obtain ⟨t', own, seen⟩ :=
    (tenant_isolation (Tokens.ideal_lawful Tokens.readToken) alice).2.1 _ _ _ serves users _
      (SameTenant.refl alice _)
  exact ⟨exchanges, t, t', serves, requests, own, seen⟩

end Sample

end CorePlatform.Bell
