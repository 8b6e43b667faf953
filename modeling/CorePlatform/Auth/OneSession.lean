import CorePlatform.Auth.Revocation

/-! One live session per device. `saveRefreshToken` searches the live session of the device
and creates one if there is none. No key of the table forbids a second one: two refreshes
that have both found none create one each. -/
namespace CorePlatform.Auth
open Async Relational

variable {cfg : Config}

/-- A user has at most one live session on a device. -/
def OneLivePerDevice (s : Store) : Prop :=
  ∀ row ∈ s.db.refreshTokens, ∀ row' ∈ s.db.refreshTokens, row.userId = row'.userId →
    row.deviceId = row'.deviceId → row.revokedAt = none → row'.revokedAt = none → row = row'

/-- All sessions of the user on the device are revoked. -/
def Vacant (s : Store) (userId deviceId : String) : Prop :=
  ∀ row ∈ s.db.refreshTokens, row.userId = userId → row.deviceId = deviceId → row.revokedAt ≠ none

/-- The user and the device of the session that a call is about to create. -/
def creating? (th : AuthThread) : Option (String × String) :=
  match th.next? with
  | some (.refreshTokenCreate data) => data.deviceId.map (data.userId, ·)
  | _ => none

/-- A refresh that re-reads the session of its device finds one, or no other call is about to
create one. -/
def MissesAlone (pool : AuthPool) (t : Nat) (th : AuthThread) : Prop :=
  ∀ _token ∈ presented? th.request, ∀ w ∈ searched? th,
    (∃ row ∈ pool.store.db.refreshTokens.rows, w.holds pool.store.db.users row) ∨
      ∀ other ∈ pool.others t, ∀ pair ∈ creating? other, w.userId = some pair.1 →
      w.deviceId ≠ some pair.2

instance (pool : AuthPool) (t : Nat) (th : AuthThread) : Decidable (MissesAlone pool t th) :=
  inferInstanceAs (Decidable (∀ _token ∈ presented? th.request, ∀ w ∈ searched? th,
    (∃ row ∈ pool.store.db.refreshTokens.rows, w.holds pool.store.db.users row) ∨
      ∀ other ∈ pool.others t, ∀ pair ∈ creating? other, w.userId = some pair.1 →
      w.deviceId ≠ some pair.2))

/-- The condition on a step. -/
def Unraced (cfg : Config) (pool : AuthPool) : Step cfg → Prop
  | .run t choice => ∀ th ∈ pool.thread? t, choice.fault = false → MissesAlone pool t th
  | _ => True

instance (pool : AuthPool) : (label : Step cfg) → Decidable (Unraced cfg pool label)
  | .run t choice =>
      inferInstanceAs (Decidable (∀ th ∈ pool.thread? t, choice.fault = false →
        MissesAlone pool t th))
  | .spawn _ | .act _ => isTrue trivial

/-- The database a run may start with: any sessions, under identifiers that have been drawn. -/
structure SessionsSound (s : Store) : Prop where
  single : OneLivePerDevice s
  drawn : DevicesDrawn s

section Creating

variable {cond : AuthPool → Step cfg → Prop} {init : Store → Prop} {pool : AuthPool}
  {t : Nat} {th : AuthThread}
  {userId deviceId : String}

theorem creating?_some (creating : creating? th = some (userId, deviceId)) : ∃ data,
    th.next? = some (.refreshTokenCreate data) ∧ data.userId = userId ∧
    data.deviceId = some deviceId := by
  unfold creating? at creating
  split at creating
  · rename_i data next
    obtain ⟨d, device, same⟩ := Option.map_eq_some_iff.mp creating
    obtain ⟨rfl, rfl⟩ := Prod.mk.inj same
    exact ⟨data, next, rfl, device⟩
  · contradiction

/-- A call that is about to create a session has just found none. -/
theorem missed_of_creating (reachable : (authSystem cfg).Reachable cond init pool)
    (found : pool.thread? t = some th) (creating : creating? th = some (userId, deviceId)) :
    th.trace.head? = some ⟨.refreshTokenFindFirst (savedSession userId (some deviceId)),
      .ok none⟩ := by
  obtain ⟨data, next, rfl, device⟩ := creating?_some creating
  have point := reachable.point along_body found next
  cases request : th.request with
  | login | refresh =>
    rw [request] at point
    obtain ⟨userId, dev, _, head, owner, same, _⟩ := point
    rw [head, owner, ← device, same]
  | _ =>
    rw [request] at point
    contradiction

end Creating

/-- The invariant: where a call is about to create a session, there is none, and it is alone. -/
structure PairsInv (pool : AuthPool) : Prop where
  single : OneLivePerDevice pool.store
  vacant : ∀ t th userId deviceId, pool.thread? t = some th →
    creating? th = some (userId, deviceId) → Vacant pool.store userId deviceId
  alone : ∀ t th t' th' pair, pool.thread? t = some th → pool.thread? t' = some th' →
    creating? th = some pair → creating? th' = some pair → t = t'

section Preserved

variable {pool pool' : AuthPool} {t : Nat} {choice : Choice} {th : AuthThread} {c : Cmd}
  {r : Except Exn c.Resp} {s : Store}

/-- Every session after a step is an old one, or the one that the stepping call was about to
create. -/
theorem created_rows (next : th.next? = some c)
    (executed : exec c choice pool.store = some (r, s)) :
    ∃ id, ∀ row' ∈ s.db.refreshTokens, (∃ row ∈ pool.store.db.refreshTokens, Continues row row') ∨
      creating? th = some (row'.userId, row'.deviceId) ∧ row'.id = id := by
  obtain ⟨id, rows⟩ := (exec_session executed).back
  refine ⟨id, fun row' inTable => (rows row' inTable).imp_right ?_⟩
  rintro ⟨data, ⟨⟩, owner, device, same⟩
  constructor
  · simp only [creating?, next, device, Option.map_some, owner]
  · exact same

theorem PairsInv.single_run (inv : PairsInv pool) (found : pool.thread? t = some th)
    (next : th.next? = some c) (executed : exec c choice pool.store = some (r, s)) :
    OneLivePerDevice s := by
  obtain ⟨id, rows⟩ := created_rows next executed
  intro row inTable row' inTable' owner device live live'
  apply Table.eq_of_key inTable inTable'
  rcases rows row inTable with ⟨old, inOld, continues⟩ | ⟨creating, here⟩ <;>
    rcases rows row' inTable' with ⟨old', inOld', continues'⟩ | ⟨creating', here'⟩
  · rw [continues.userId, continues'.userId] at owner
    rw [continues.deviceId, continues'.deviceId] at device
    have same :=
      inv.single old inOld old' inOld' owner device (continues.live live) (continues'.live live')
    rw [continues.id, continues'.id, same]
  · have vacant := inv.vacant t th _ _ found creating'
    exact absurd (continues.live live)
      (vacant old inOld (continues.userId.symm.trans owner) (continues.deviceId.symm.trans device))
  · have vacant := inv.vacant t th _ _ found creating
    exact absurd (continues'.live live')
      (vacant old' inOld' (continues'.userId.symm.trans owner.symm)
        (continues'.deviceId.symm.trans device.symm))
  · exact here.trans here'.symm

/-- A search that has found nothing leaves the device vacant. -/
theorem vacant_of_missed {userId deviceId : String}
    (executed : exec (.refreshTokenFindFirst (savedSession userId (some deviceId))) choice
      pool.store = some (.ok none, s)) :
    Vacant s userId deviceId := by
  have missed := exec_findFirst_none executed
  obtain ⟨_, rows⟩ := (exec_session executed).back
  intro row' inTable owner device live
  rcases rows row' inTable with ⟨row, inOld, continues⟩ | ⟨data, impossible, _⟩
  · apply missed row inOld
    apply (holds_live ..).mpr
    refine ⟨?_, ?_, continues.live live⟩
    · rintro _ ⟨⟩
      exact owner.symm.trans continues.userId
    · rintro _ ⟨⟩
      exact device.symm.trans continues.deviceId
  · cases impossible

/-- A call that has just found its device vacant is alone: a refresh by the condition, a login
because nobody else knows the identifier it has drawn. -/
theorem alone_of_missed {u : Nat} {uth th' : AuthThread} {userId deviceId : String}
    (reachable' : (authSystem cfg).Reachable (Unraced cfg) SessionsSound pool')
    (met : choice.fault = false → MissesAlone pool t th)
    (next : th.next? = some (.refreshTokenFindFirst (savedSession userId (some deviceId))))
    (executed : exec (.refreshTokenFindFirst (savedSession userId (some deviceId))) choice
      pool.store = some (.ok none, s))
    (found' : pool'.thread? t = some th') (request : th'.request = th.request) (other : u ≠ t)
    (uFound : pool.thread? u = some uth) (uFound' : pool'.thread? u = some uth)
    (creating : creating? th' = some (userId, deviceId)) :
    creating? uth ≠ some (userId, deviceId) := by
  intro creating'
  have drawn := drawn_invariant reachable' fun _ sound => sound.drawn
  obtain ⟨data, awaits, rfl, device⟩ := creating?_some creating
  obtain ⟨data', awaits', _, device'⟩ := creating?_some creating'
  rcases create_device reachable' found' awaits device with ⟨_, drew,
    unstored⟩ | ⟨⟨token, presents⟩, _⟩
  · rcases create_device reachable' uFound' awaits' device' with ⟨_, drew',
      _⟩ | ⟨_, row, inTable, same⟩
    · exact other (drawn.distinct u uth t th' deviceId uFound' found' drew' drew)
    · exact drawn.unused t th' deviceId found' drew unstored row inTable same
  · have presented : presented? th.request = some token := by rw [← request]; exact presents
    have searched : searched? th = some (savedSession data.userId (some deviceId)) := by
      rw [searched?, next]
    rcases met (exec_answered executed) token presented _ searched with ⟨row,
      inTable, matching⟩ | quiet
    · exact exec_findFirst_none executed row inTable matching
    · exact quiet uth (Pool.mem_others uFound other) _ creating' rfl rfl

theorem PairsInv.run (inv : PairsInv pool)
    (reachable' : (authSystem cfg).Reachable (Unraced cfg) SessionsSound
      (({ pool with store := s } : AuthPool).set t ⟨th.request, ⟨c, r⟩ :: th.trace, rest⟩))
    (met : choice.fault = false → MissesAlone pool t th) (found : pool.thread? t = some th)
    (next : th.next? = some c)
    (executed : exec c choice pool.store = some (r, s)) :
    PairsInv (({ pool with store := s } : AuthPool).set t ⟨th.request, ⟨c, r⟩ ::
      th.trace, rest⟩) := by
  have found' : ({ pool with store := s } : AuthPool).thread? t = some th := found
  have here := Pool.set_self (⟨th.request, ⟨c, r⟩ :: th.trace, rest⟩ : AuthThread) found'
  -- where the stepping call is about to create a session, it has just missed it
  have missed : ∀ userId deviceId, creating? (⟨th.request, ⟨c, r⟩ :: th.trace, rest⟩ : AuthThread) =
      some (userId, deviceId) →
      (⟨c, r⟩ : Ev) = ⟨.refreshTokenFindFirst (savedSession userId (some deviceId)), .ok none⟩ := by
    intro userId deviceId creating
    exact Option.some.inj (missed_of_creating reachable' here creating)
  have alone : ∀ u uth pair, u ≠ t → pool.thread? u = some uth →
      creating? (⟨th.request, ⟨c, r⟩ :: th.trace, rest⟩ : AuthThread) = some pair →
      creating? uth ≠ some pair := by
    rintro u uth ⟨userId, deviceId⟩ other old creating
    have kept := (Pool.set_other { pool with store := s } (⟨th.request, ⟨c, r⟩ :: th.trace,
        rest⟩ : AuthThread) other).trans old
    cases missed userId deviceId creating
    exact alone_of_missed reachable' met next executed here rfl other old kept creating
  constructor
  · exact inv.single_run found next executed
  · intro u uth userId deviceId uFound creating
    rcases Pool.set_cases uFound with ⟨rfl, rfl⟩ | ⟨other, old⟩
    · cases missed userId deviceId creating
      exact vacant_of_missed executed
    · obtain ⟨id, rows⟩ := created_rows next executed
      intro row' inTable owner device live
      rcases rows row' inTable with ⟨row, inOld, continues⟩ | ⟨created, _⟩
      · exact inv.vacant u uth userId deviceId old creating row inOld
          (continues.userId.symm.trans owner)
          (continues.deviceId.symm.trans device) (continues.live live)
      · rw [owner, device] at created
        exact other (inv.alone u uth t th _ old found creating created)
  · intro u uth u' uth' pair uFound uFound' creating creating'
    rcases Pool.set_cases uFound with ⟨rfl, rfl⟩ | ⟨other, old⟩ <;>
      rcases Pool.set_cases uFound' with ⟨rfl, rfl⟩ | ⟨other', old'⟩
    · rfl
    · exact absurd creating' (alone u' uth' pair other' old' creating)
    · exact absurd creating (alone u uth pair other old creating')
    · exact inv.alone u uth u' uth' pair old old' creating creating'

/-- No call has moved, and the sessions are as they were. -/
theorem PairsInv.of_threads (inv : PairsInv pool)
    (rows : pool'.store.db.refreshTokens = pool.store.db.refreshTokens)
    (threads : ∀ t th pair, pool'.thread? t = some th → creating? th = some pair →
      pool.thread? t = some th) :
    PairsInv pool' := by
  constructor
  · rw [OneLivePerDevice, rows]
    exact inv.single
  · intro t th userId deviceId found creating
    rw [Vacant, rows]
    exact inv.vacant t th userId deviceId (threads t th _ found creating) creating
  · intro t th t' th' pair found found' creating creating'
    exact inv.alone t th t' th' pair (threads t th _ found creating)
      (threads t' th' _ found' creating') creating creating'

end Preserved

theorem pairs_invariant {pool : AuthPool}
    (reachable : (authSystem cfg).Reachable (Unraced cfg) SessionsSound pool) :
    PairsInv pool := by
  refine reachable.invariant (P := PairsInv) ?_ fun pool label pool' before
    after inv met effect => ?_
  · intro s sound
    have idle : ∀ t th, (System.idle s : AuthPool).thread? t ≠ some th := by
      intro t th found
      cases found
    constructor
    · exact sound.single
    · exact fun t th _ _ found => absurd found (idle t th)
    · exact fun t th _ _ _ found => absurd found (idle t th)
  · cases effect with
    | spawn q =>
      refine inv.of_threads rfl ?_
      rintro u uth ⟨userId, deviceId⟩ found creating
      rcases Pool.add_cases found with ⟨_, rfl⟩ | old
      · have missed := missed_of_creating after found creating
        contradiction
      · exact old
    | run t choice th c k r s found awaits executed =>
      exact inv.run after (met th found) found (by rw [Thread.next?, awaits]) executed
    | act a s acted => exact inv.of_threads (act_tables acted).1 fun u th pair found _ => found

/-- In every run whose steps meet the condition, for any interleaving of the calls, each user
has at most one live session on each device. -/
theorem one_live_session {pool : AuthPool}
    (reachable : (authSystem cfg).Reachable (Unraced cfg) SessionsSound pool) :
    OneLivePerDevice pool.store := (pairs_invariant reachable).single

section Sample

/-- Two refreshes of one device have checked its session, which a `logoutAll` then revokes. -/
def revokedSteps : List SampleStep :=
  loginSteps ++ [.act (.tick 1000), .spawn (.refresh (some firstToken) (some laptopId) {}),
    .spawn (.refresh (some firstToken) (some laptopId) {})] ++
    steps 1 ["", "", "", "", "", argonSalt2] ++ steps 2 ["", "", "", "", "", argonSalt3] ++
    .spawn (.logoutAll (principal aliceId)) :: steps 3 ["", ""]

/-- Some user has two live sessions on a device. -/
def liveTwice (pool : AuthPool) : Bool :=
  let rows := pool.store.db.refreshTokens.rows
  rows.any fun row => rows.any fun row' => row.userId = row'.userId &&
    row.deviceId = row'.deviceId &&
    row.revokedAt.isNone && row'.revokedAt.isNone && row.id ≠ row'.id

theorem not_liveTwice {pool : AuthPool} (single : OneLivePerDevice pool.store) :
    liveTwice pool = false := by
  apply Bool.eq_false_iff.mpr
  simp only [liveTwice, ne_eq, List.any_eq_true, Bool.and_eq_true, decide_eq_true_eq,
    Option.isNone_iff_eq_none]
  rintro ⟨row, inTable, row', inTable', ⟨⟨⟨owner, device⟩, live⟩, live'⟩, different⟩
  exact different (congrArg RefreshToken.id
    (single row inTable row' inTable' owner device live live'))

theorem soundStart : SessionsSound loginStore := by
  constructor <;> exact fun row found => absurd found List.not_mem_nil

/-- Both refreshes re-read after the revocation, before either of them creates. -/
theorem two_live_sessions : ¬ ∀ pool,
    (authSystem Config.default).Reachable System.Any SessionsSound pool →
    OneLivePerDevice pool.store := by
  intro claim
  have replayed : (((authSystem Config.default).replay System.Any (System.idle loginStore)
      (revokedSteps ++ steps 1 [""] ++ steps 2 [""] ++ steps 1 [sessionId2] ++
        steps 2 [sessionId3])).any fun pool =>
        liveTwice pool) = true := by decide +kernel
  obtain ⟨pool, run, twice⟩ := System.run_of_replay replayed
  have once := not_liveTwice (claim pool ⟨loginStore, soundStart, run⟩)
  exact Bool.false_ne_true (once.symm.trans twice)

/-- One refresh creates its session before the other one re-reads. -/
theorem one_live_session_sample : ∃ pool,
    (authSystem Config.default).Reachable (Unraced Config.default) SessionsSound pool ∧
    pool.store.db.refreshTokens.rows.length = 2 ∧ liveOn laptopId pool = true ∧
    OneLivePerDevice pool.store := by
  have replayed : (((authSystem Config.default).replay (Unraced Config.default)
      (System.idle loginStore)
      (revokedSteps ++ steps 1 ["", sessionId2] ++ steps 2 [""])).any fun pool =>
        pool.store.db.refreshTokens.rows.length = 2 && liveOn laptopId pool) = true := by
    decide +kernel
  obtain ⟨pool, run, both⟩ := System.run_of_replay replayed
  obtain ⟨rows, live⟩ := (Bool.and_eq_true ..).mp both
  have reachable : (authSystem Config.default).Reachable (Unraced Config.default) SessionsSound pool :=
    ⟨loginStore, soundStart, run⟩
  exact ⟨pool, reachable, of_decide_eq_true rows, live, one_live_session reachable⟩

end Sample
end CorePlatform.Auth
