import CorePlatform.WebSocket.Gateway
import Mathlib.Data.List.Nodup
import Mathlib.Algebra.GroupWithZero.Nat

/-! The two maps of the registry are inverse to each other and hold the authenticated sockets
that are connected, so that an event for a user reaches these sockets, each once. -/
namespace CorePlatform.WebSocket
open SocketRegistryService CoreWebsocketGateway
open Bell (SocketData)

section Maps

variable {α : Type}

theorem lookup_insert (map : JsMap α) (key key' : String) (value : α) :
    (map.insert key value).lookup key' = if key' = key then some value else map.lookup key' := by
  split
  · rename_i same
    rw [same, AList.lookup_insert]
  · rename_i other
    exact AList.lookup_insert_ne other

theorem lookup_erase (map : JsMap α) (key key' : String) :
    (map.erase key).lookup key' = if key' = key then none else map.lookup key' := by
  split
  · rename_i same
    rw [same, AList.lookup_erase]
  · rename_i other
    exact AList.lookup_erase_ne other

theorem mem_entries {map : JsMap α} {key : String} {value : α} : ⟨key, value⟩ ∈ map.entries ↔
    map.lookup key = some value :=
  AList.mem_lookup_iff.symm

end Maps

/-- The registry on its own: both maps say the same, no user has an empty set, and no user is
the empty string. -/
structure Inverse (registry : SocketRegistry) : Prop where
  inverse : ∀ userId socketId,
    socketId ∈ (getSocketsByUser registry userId).ids ↔
    getUserBySocket registry socketId = some userId
  nonempty : ∀ userId sockets, registry.userSockets.lookup userId = some sockets → sockets.ids ≠ []
  named : ∀ socketId userId, getUserBySocket registry socketId = some userId → userId ≠ ""

section Registry

variable {registry : SocketRegistry} {userId userId' socketId socketId' : String}

theorem getUserBySocket_register : getUserBySocket (register registry userId socketId) socketId' =
    if socketId' = socketId then some userId else getUserBySocket registry socketId' :=
  lookup_insert _ _ _ _

/-- What the set of a user is after a registration. -/
theorem lookup_register : (register registry userId socketId).userSockets.lookup userId' =
    if userId' = userId then some ((getSocketsByUser registry userId).add socketId)
      else registry.userSockets.lookup userId' := by
  simp only [register, lookup_insert, getSocketsByUser]
  by_cases known : userId ∈ registry.userSockets
  · simp only [known, if_true]
  · have unknown : registry.userSockets.lookup userId = none := AList.lookup_eq_none.mpr known
    simp only [known, if_false, lookup_insert, if_true, unknown, Option.getD_some, Option.getD_none]
    split <;> rfl

theorem mem_register : socketId' ∈
    (getSocketsByUser (register registry userId socketId) userId').ids ↔
    (socketId' = socketId ∧ userId' = userId) ∨
    socketId' ∈ (getSocketsByUser registry userId').ids := by
  rw [getSocketsByUser, lookup_register]
  by_cases same : userId' = userId
  · subst same
    simp only [if_true, Option.getD_some, SocketSet.mem_add, and_true]
  · simp only [same, if_false, and_false, false_or]
    rfl

/-- A new socket is registered. -/
theorem Inverse.register (inv : Inverse registry) (fresh : getUserBySocket registry socketId = none)
    (named : userId ≠ "") :
    Inverse (register registry userId socketId) where
  inverse user id := by
    rw [mem_register, getUserBySocket_register]
    by_cases same : id = socketId
    · subst same
      have absent : id ∉ (getSocketsByUser registry user).ids := by
        rw [inv.inverse, fresh]
        exact nofun
      simp only [true_and, absent, or_false, if_true, Option.some.injEq]
      exact eq_comm
    · simp only [same, false_and, false_or, if_false]
      exact inv.inverse user id
  nonempty user sockets found := by
    rw [lookup_register] at found
    split at found
    · cases found
      exact List.ne_nil_of_mem (SocketSet.mem_add.mpr (.inl rfl))
    · exact inv.nonempty user sockets found
  named id user found := by
    rw [getUserBySocket_register] at found
    split at found
    · cases found
      exact named
    · exact inv.named id user found

theorem unregister_unknown (unknown : getUserBySocket registry socketId = none) :
    unregister registry socketId = registry := by
  rw [getUserBySocket] at unknown
  simp only [unregister, unknown, Option.filter_none]

theorem unregister_known (known : getUserBySocket registry socketId = some userId)
    (named : userId ≠ "") :
    unregister registry socketId = { userSockets := withoutSocket registry userId socketId
                                     socketToUser := registry.socketToUser.erase socketId } := by
  rw [getUserBySocket] at known
  simp only [unregister, known, Option.filter_some, named, ne_eq, not_false_eq_true,
    decide_true, if_true]

theorem lookup_withoutSocket : (withoutSocket registry userId socketId).lookup userId' =
    if userId' = userId then
      ((registry.userSockets.lookup userId).map (·.delete socketId)).filter (·.size ≠ 0)
    else registry.userSockets.lookup userId' := by
  unfold withoutSocket
  cases found : registry.userSockets.lookup userId with
  | none =>
    by_cases same : userId' = userId
    · rw [if_pos same, same, found]
      rfl
    · rw [if_neg same]
  | some sockets =>
    by_cases last : (sockets.delete socketId).size = 0
    · simp only [last, if_true, lookup_erase, Option.map_some, Option.filter_some, ne_eq,
        not_true_eq_false, decide_false, Bool.false_eq_true, if_false]
    · simp only [last, if_false, lookup_insert, Option.map_some, Option.filter_some, ne_eq,
        not_false_eq_true, decide_true, if_true]

theorem mem_withoutSocket :
    socketId' ∈ (((withoutSocket registry userId socketId).lookup userId').getD {}).ids ↔
    socketId' ∈ (getSocketsByUser registry userId').ids ∧
    ¬ (socketId' = socketId ∧ userId' = userId) := by
  rw [lookup_withoutSocket]
  by_cases same : userId' = userId
  · subst same
    rw [if_pos rfl, getSocketsByUser]
    cases registry.userSockets.lookup userId' with
    | none =>
        simp only [Option.map_none, Option.filter_none, Option.getD_none,
          List.not_mem_nil, false_and]
    | some sockets =>
      have members := @SocketSet.mem_delete sockets socketId socketId'
      by_cases last : (sockets.delete socketId).size = 0
      · rw [List.length_eq_zero_iff.mp last] at members
        simp only [Option.map_some, Option.filter_some, last, ne_eq, not_true_eq_false,
          decide_false, Bool.false_eq_true, if_false, Option.getD_none, Option.getD_some, and_true]
        rw [members, and_comm]
      · simp only [Option.map_some, Option.filter_some, last, ne_eq, not_false_eq_true, decide_true,
          if_true, Option.getD_some, and_true]
        rw [members, and_comm]
  · simp only [same, if_false, and_false, not_false_eq_true, and_true]
    rfl

/-- A socket is taken out, whether it is known or not. -/
theorem Inverse.unregister (inv : Inverse registry) : Inverse (unregister registry socketId) ∧
    ∀ id, getUserBySocket (unregister registry socketId) id = if id = socketId then
      none else getUserBySocket registry id := by
  cases known : getUserBySocket registry socketId with
  | none =>
    rw [unregister_unknown known]
    refine ⟨inv, fun id => ?_⟩
    split
    · rename_i same
      rw [same, known]
    · rfl
  | some userId =>
    rw [unregister_known known (inv.named _ _ known)]
    have users : ∀ id, getUserBySocket ⟨withoutSocket registry userId socketId,
        registry.socketToUser.erase socketId⟩ id =
        if id = socketId then none else getUserBySocket registry id := lookup_erase _ _
    refine ⟨⟨fun user id => ?_, fun user sockets found => ?_, fun id user found => ?_⟩, users⟩
    · rw [users, getSocketsByUser, mem_withoutSocket, inv.inverse]
      by_cases same : id = socketId
      · subst same
        simp only [known, Option.some.injEq, true_and, if_true, reduceCtorEq,
          iff_false, not_and, not_not]
        exact Eq.symm
      · simp only [same, false_and, not_false_eq_true, and_true, if_false]
    · have found : (withoutSocket registry userId socketId).lookup user = some sockets := found
      rw [lookup_withoutSocket] at found
      split at found
      · have left := (Option.filter_eq_some_iff.mp found).2
        simp only [ne_eq, decide_eq_true_eq] at left
        exact fun empty => left (congrArg List.length empty)
      · exact inv.nonempty user sockets found
    · rw [users] at found
      split at found
      · contradiction
      · exact inv.named id user found

end Registry
section Total

variable {registry : SocketRegistry}

theorem mem_socketIds {socketId : String} :
    socketId ∈ registry.userSockets.entries.flatMap (·.2.ids) ↔
    ∃ userId, socketId ∈ (getSocketsByUser registry userId).ids := by
  rw [List.mem_flatMap]
  constructor
  · rintro ⟨⟨userId, sockets⟩, stored, member⟩
    refine ⟨userId, ?_⟩
    rw [getSocketsByUser, mem_entries.mp stored]
    exact member
  · rintro ⟨userId, member⟩
    rw [getSocketsByUser] at member
    cases found : registry.userSockets.lookup userId with
    | none =>
      rw [found] at member
      exact absurd member List.not_mem_nil
    | some sockets =>
      rw [found] at member
      exact ⟨⟨userId, sockets⟩, mem_entries.mpr found, member⟩

/-- No socket is in the sets of two users. -/
theorem Inverse.nodup_socketIds (inv : Inverse registry) :
    (registry.userSockets.entries.flatMap (·.2.ids)).Nodup := by
  rw [List.nodup_flatMap]
  constructor
  · exact fun entry _ => entry.2.nodup
  · refine (List.nodupKeys_iff_pairwise.mp registry.userSockets.nodupKeys).imp_of_mem ?_
    intro first second stored stored' distinct socketId member member'
    have own : getUserBySocket registry socketId = some first.1 := by
      rw [← inv.inverse, getSocketsByUser, mem_entries.mp stored]
      exact member
    have own' : getUserBySocket registry socketId = some second.1 := by
      rw [← inv.inverse, getSocketsByUser, mem_entries.mp stored']
      exact member'
    exact distinct (Option.some.inj (own.symm.trans own'))

/-- The connections are counted as the sizes of the sets. -/
theorem Inverse.total (inv : Inverse registry) :
    getTotalConnectionsCount registry = (registry.userSockets.entries.map (·.2.size)).sum := by
  have same : registry.socketToUser.keys.Perm (registry.userSockets.entries.flatMap (·.2.ids)) := by
    rw [List.perm_ext_iff_of_nodup registry.socketToUser.keys_nodup inv.nodup_socketIds]
    intro socketId
    rw [mem_socketIds, ← AList.mem_keys, ← AList.lookup_isSome, Option.isSome_iff_exists]
    exact exists_congr fun userId => (inv.inverse userId socketId).symm
  have lengths := same.length_eq
  rw [List.length_flatMap] at lengths
  exact (List.length_map _).symm.trans lengths

end Total

/-- The socket is connected, and authenticated as the user. -/
def isOn (s : Instance) (socketId userId : String) : Bool :=
  (s.sockets.lookup socketId).join.any fun data => data.authenticated && data.userId = userId

structure Exact (s : Instance) : Prop where
  maps : Inverse s.registry
  live : ∀ socketId userId, getUserBySocket s.registry socketId = some userId ↔
    isOn s socketId userId = true

/-- A token that lets a socket in names its user. -/
def SubPresent (cfg : WsConfig) (s : Instance) : SocketEvent → Prop
  | .connect _ handshake _ =>
      ∀ payload ∈ authenticated cfg s.now handshake, ∃ sub ∈ payload.sub, sub ≠ ""
  | .disconnect _ | .message _ | .push .. | .tick _ => True

section Runs

variable {cfg : WsConfig} {s s' : Instance} {socketId : String}
  {handshake : Handshake} {throws : Bool}

/-- Everything a handshake can lead to. -/
theorem handleConnection_cases (cfg : WsConfig) (s : Instance) (socketId : String)
    (handshake : Handshake) (throws : Bool) :
    ((handleConnection cfg s socketId handshake throws).registry = s.registry ∧
      (handleConnection cfg s socketId handshake throws).sockets = s.sockets.insert socketId none) ∨
    ∃ payload, authenticated cfg s.now handshake = some payload ∧
      (handleConnection cfg s socketId handshake throws).registry = register s.registry
        (payload.sub.getD "") socketId ∧
      (handleConnection cfg s socketId handshake throws).sockets = s.sockets.insert socketId
        (some ⟨payload.sub.getD "", true⟩) := by
  unfold handleConnection authenticated
  cases (extractToken handshake).filter (· ≠ .raw "") with
  | none => exact .inl ⟨rfl, rfl⟩
  | some token =>
    cases verified : verifyToken cfg s.now token with
    | none =>
      simp only [verified]
      exact .inl ⟨rfl, rfl⟩
    | some payload =>
      simp only [Option.bind_some, verified]
      refine .inr ⟨payload, rfl, ?_⟩
      cases throws <;> exact ⟨rfl, rfl⟩

theorem isOn_insert {data : Option SocketData} {id user : String}
    (sockets : s'.sockets = s.sockets.insert socketId data) :
    isOn s' id user = if id = socketId then
      data.any (fun data => data.authenticated && data.userId = user) else isOn s id user := by
  rw [isOn, sockets, lookup_insert]
  split
  · rfl
  · rfl

theorem Exact.unknown (exact : Exact s) (fresh : socketId ∉ s.sockets) :
    getUserBySocket s.registry socketId = none := by
  cases known : getUserBySocket s.registry socketId with
  | none => rfl
  | some userId =>
    have on := (exact.live socketId userId).mp known
    rw [isOn, AList.lookup_eq_none.mpr fresh] at on
    contradiction

theorem Exact.handleConnection (exact : Exact s) (fresh : socketId ∉ s.sockets)
    (named : SubPresent cfg s (.connect socketId handshake throws)) :
    Exact (handleConnection cfg s socketId handshake throws) := by
  have unknown := exact.unknown fresh
  rcases handleConnection_cases cfg s socketId handshake throws with ⟨registry, sockets⟩ | ⟨payload,
    let_in, registry, sockets⟩
  · constructor
    · rw [registry]
      exact exact.maps
    · intro id user
      rw [registry, isOn_insert sockets]
      split
      · rename_i same
        rw [same, unknown]
        simp only [reduceCtorEq, Option.any_none, Bool.false_eq_true]
      · exact exact.live id user
  · obtain ⟨sub, present, nonempty⟩ := named payload let_in
    rw [present, Option.getD_some] at registry sockets
    constructor
    · rw [registry]
      exact exact.maps.register unknown nonempty
    · intro id user
      rw [registry, isOn_insert sockets, getUserBySocket_register]
      split
      · simp only [Option.some.injEq, Option.any_some, Bool.true_and, decide_eq_true_eq]
      · exact exact.live id user

theorem Exact.handleDisconnect (exact : Exact s) : Exact (handleDisconnect s socketId) := by
  obtain ⟨maps, users⟩ := @Inverse.unregister _ socketId exact.maps
  constructor
  · exact maps
  · intro id user
    have left : isOn (CoreWebsocketGateway.handleDisconnect s socketId) id user = if id =
        socketId then false else isOn s id user := by
      simp only [isOn, CoreWebsocketGateway.handleDisconnect, lookup_erase]
      split <;> rfl
    have known : getUserBySocket (CoreWebsocketGateway.handleDisconnect s socketId).registry id =
        if id = socketId then none else getUserBySocket s.registry id := users id
    rw [left, known]
    split
    · simp only [reduceCtorEq, Bool.false_eq_true]
    · exact exact.live id user

theorem emitToUser_frame (s : Instance) (userId event : String) (data : Js) :
    (emitToUser s userId event data).registry = s.registry ∧
    (emitToUser s userId event data).sockets = s.sockets := by
  unfold emitToUser
  split <;> exact ⟨rfl, rfl⟩

theorem Exact.step (exact : Exact s) {e : SocketEvent} (named : SubPresent cfg s e)
    (stepped : step cfg s e = some s') : Exact s' := by
  cases e with
  | connect socketId handshake throws =>
    simp only [WebSocket.step] at stepped
    split at stepped
    · contradiction
    · rename_i fresh
      cases stepped
      exact exact.handleConnection fresh named
  | disconnect socketId =>
    cases stepped
    exact exact.handleDisconnect
  | push userId event data =>
    cases stepped
    obtain ⟨registry, sockets⟩ := emitToUser_frame s userId event data
    refine ⟨registry ▸ exact.maps, fun id user => ?_⟩
    rw [registry, isOn, sockets]
    exact exact.live id user
  | message userId | tick ms =>
    cases stepped
    exact ⟨exact.maps, exact.live⟩

theorem exact_run {admitted : List (String × Nat)}
    (run : Run cfg (SubPresent cfg) admitted s) : Exact s := by
  induction run with
  | start now =>
    constructor
    · constructor
      · intro userId socketId
        simp [getSocketsByUser, getUserBySocket]
      · exact fun _ _ absent => nomatch absent
      · exact fun _ _ absent => nomatch absent
    · intro socketId userId
      simp [getUserBySocket, isOn]
  | step _ named stepped exact => exact exact.step named stepped

theorem emitToUser_emitted (s : Instance) (userId event : String) (data : Js) :
    (emitToUser s userId event data).emitted = emissions s userId event data ++ s.emitted := by
  unfold emitToUser
  split
  · rename_i empty
    rw [emissions, List.length_eq_zero_iff.mp empty]
    rfl
  · rfl

end Runs

section Sample

instance (cfg : WsConfig) (s : Instance) : (e : SocketEvent) → Decidable (SubPresent cfg s e)
  | .connect _ handshake _ =>
      inferInstanceAs (Decidable (∀ payload ∈ authenticated cfg s.now handshake,
        ∃ sub ∈ payload.sub, _))
  | .disconnect _ | .message _ | .push .. | .tick _ => .isTrue trivial

def tokenOf (userId : String) : Token :=
  .jwt "change-me" { sub := some userId, iss := some "auth-service", aud := some "api" }

end Sample
end CorePlatform.WebSocket
