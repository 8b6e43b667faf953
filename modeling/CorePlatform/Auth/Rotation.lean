import CorePlatform.Auth.Bodies

/-! Rotation of refresh tokens. A token is redeemed by the refresh that replaces it. The
check, the re-read and the write of a refresh are separate steps, and the new token is a
function of the claims and of the second, so that single use rests on two conditions on
the interleaving; the invariant below carries it through every run that meets them. -/
namespace CorePlatform.Auth
open Async Relational

variable {cfg : Config}

/-- The token a refresh presents. -/
def presented? : Call → Option Token
  | .refresh presented _ _ => presented
  | _ => none

abbrev Presents (th : AuthThread) (token : Token) : Prop := presented? th.request = some token

theorem Presents.request {th : AuthThread} {token : Token} (presents : Presents th token) :
    ∃ deviceId req, th.request = .refresh (some token) deviceId req := by
  obtain ⟨request, trace, rest⟩ := th
  cases request with
  | refresh presented deviceId req => exact ⟨deviceId, req, by rw [← presents]; rfl⟩
  | _ => contradiction

/-- The next command stores a token. -/
abbrev Pending (th : AuthThread) : Prop := (th.next?.bind Cmd.storing?).isSome

theorem pending_iff {th : AuthThread} :
    Pending th ↔ ∃ c, th.next? = some c ∧ c.storing?.isSome := by
  cases next : th.next? with
  | none => simp only [Pending, next, Option.bind_none, Option.isSome_none, Bool.false_eq_true,
      reduceCtorEq, false_and, exists_false]
  | some c => simp only [Pending, next, Option.bind_some, Option.some.injEq, exists_eq_left']

/-- The call has stored a token. -/
abbrev Written (th : AuthThread) : Prop := ∃ e ∈ th.trace, (stored? e).isSome

/-- Some call has stored `token` as a session's refresh token. -/
abbrev Stored (pool : AuthPool) (token : Token) : Prop :=
  ∃ th ∈ pool.threads, ∃ e ∈ th.trace, stored? e = some token

/-- Signed for the same account and permission version in the same second. -/
def sameSecond (token token' : Token) : Bool :=
  match Jwt.decode token, Jwt.decode token' with
  | some claims, some claims' => claims.sub = claims'.sub && claims.email = claims'.email &&
      claims.permVersion = claims'.permVersion && claims.iat = claims'.iat
  | _, _ => false

/-- The token about to be stored was signed in another second than every token stored
before for the same account and permission version. -/
def SignsAnew (pool : AuthPool) (th : AuthThread) : Prop :=
  ∀ token ∈ th.next?.bind Cmd.storing?, ∀ other ∈ pool.threads, ∀ e ∈ other.trace,
    ∀ token' ∈ stored? e, ¬ sameSecond token token'

/-- The sessions a call is about to search. -/
def searched? (th : AuthThread) : Option RefreshTokenWhere :=
  match th.next? with
  | some (.refreshTokenFindFirst w) => some w
  | _ => none

/-- When a refresh re-reads its session, no other refresh that presents the same token
stands right before its write, and if another one has written, the session is still
live. -/
def RereadsAlone (pool : AuthPool) (t : Nat) (th : AuthThread) : Prop :=
  ∀ token ∈ presented? th.request, ∀ w ∈ searched? th, ∀ other ∈ pool.others t,
    Presents other token → ¬ Pending other ∧
      (Written other → ∃ row ∈ pool.store.db.refreshTokens.rows, w.holds pool.store.db.users row)

/-- The condition on a step. -/
def Undisturbed (cfg : Config) (pool : AuthPool) : Step cfg → Prop
  | .run t choice =>
      ∀ th ∈ pool.thread? t, choice.fault = false → SignsAnew pool th ∧ RereadsAlone pool t th
  | _ => True

section Decidable

instance (pool : AuthPool) (th : AuthThread) : Decidable (SignsAnew pool th) :=
  inferInstanceAs (Decidable (∀ token ∈ th.next?.bind Cmd.storing?, ∀ other ∈ pool.threads,
    ∀ e ∈ other.trace, ∀ token' ∈ stored? e, ¬ sameSecond token token'))

instance (pool : AuthPool) (t : Nat) (th : AuthThread) : Decidable (RereadsAlone pool t th) :=
  inferInstanceAs (Decidable (∀ token ∈ presented? th.request, ∀ w ∈ searched? th,
    ∀ other ∈ pool.others t, Presents other token → ¬ Pending other ∧
      (Written other → ∃ row ∈ pool.store.db.refreshTokens.rows, w.holds pool.store.db.users row)))

instance (pool : AuthPool) : (label : Step cfg) → Decidable (Undisturbed cfg pool label)
  | .run t choice => inferInstanceAs (Decidable (∀ th ∈ pool.thread? t, choice.fault = false →
      SignsAnew pool th ∧ RereadsAlone pool t th))
  | .spawn _ | .act _ => isTrue trivial

end Decidable

/-- While it is stored anywhere, `session`'s token is where it was seen. -/
structure Tracks (pool : AuthPool) (session : RefreshToken) : Prop where
  stored : Stored pool session.tokenHash.plain
  same : ∀ row ∈ pool.store.db.refreshTokens, row.tokenHash.plain = session.tokenHash.plain →
    row.id = session.id ∧ row.userId = session.userId ∧ row.deviceId = session.deviceId

/-- The invariant of rotation. A token is in one row at most, and never again in a live
one after a refresh that presents it has written. -/
structure RotationInv (pool : AuthPool) : Prop where
  known : ∀ row ∈ pool.store.db.refreshTokens, Stored pool row.tokenHash.plain
  unique : ∀ row ∈ pool.store.db.refreshTokens, ∀ row' ∈ pool.store.db.refreshTokens,
    row.tokenHash.plain = row'.tokenHash.plain → row = row'
  checked : ∀ t th w session user, pool.thread? t = some th →
    (⟨.refreshTokenFindFirstWithUser w, .ok (some (session, user))⟩ : Ev) ∈ th.trace →
      Tracks pool session ∧ session.userId = user.id ∧ ∀ d, w.deviceId = some d →
      d = session.deviceId
  reread : ∀ t th w existing, pool.thread? t = some th →
    (⟨.refreshTokenFindFirst w, .ok (some existing)⟩ : Ev) ∈ th.trace → Tracks pool existing
  absent : ∀ t th token deviceId session user, pool.thread? t = some th →
    Checked token deviceId th.trace session user →
    th.trace.head? = some ⟨.refreshTokenFindFirst (savedSession user.id deviceId), .ok none⟩ →
      ∀ row ∈ pool.store.db.refreshTokens, row.tokenHash.plain = token → row.revokedAt ≠ none
  consumed : ∀ t th token, pool.thread? t = some th → Presents th token → Written th →
    Stored pool token ∧ ∀ row ∈ pool.store.db.refreshTokens, row.tokenHash.plain = token →
    row.revokedAt ≠ none
  single : ∀ t th t' th' token, pool.thread? t = some th → pool.thread? t' = some th' →
    Presents th token → Presents th' token → Pending th ∨ Written th →
    Pending th' ∨ Written th' → t = t'

abbrev Rotates (cfg : Config) (pool : AuthPool) : Prop :=
  (authSystem cfg).Reachable (Undisturbed cfg) NoSessions pool

section Points

variable {pool : AuthPool} {t : Nat} {th : AuthThread} {token : Token}

/-- A refresh that is about to write has checked its token, and has re-read either no live
session or one that holds the token. -/
theorem pending_refresh {c : Cmd} (reachable : Rotates cfg pool) (found : pool.thread? t = some th)
    (presents : Presents th token) (next : th.next? = some c) (storing : c.storing?.isSome) :
    ∃ deviceId session user existing, Checked token deviceId th.trace session user ∧
      th.trace.head? = some ⟨.refreshTokenFindFirst (savedSession user.id deviceId), .ok existing⟩ ∧
      match existing with
      | none => ∃ data, c = .refreshTokenCreate data
      | some row =>
          row.tokenHash.plain = token ∧ ∃ hash expiresAt,
          c = .refreshTokenUpdate row.id hash expiresAt := by
  have point := reachable.point along_body found next
  obtain ⟨deviceId, req, request⟩ := presents.request
  rw [request] at point
  cases c with
  | refreshTokenUpdate id hash expiresAt =>
    obtain ⟨userId, _, existing, ⟨rfl, token', session, user, given, checked, rfl⟩, head, holds, rfl,
      _⟩ := point
    cases Option.some.inj given
    exact ⟨_, session, user, some existing, checked, head, holds _ rfl, hash, expiresAt, rfl⟩
  | refreshTokenCreate data =>
    obtain ⟨userId, _, ⟨rfl, token', session, user, given, checked, rfl⟩, head, _, _, _⟩ := point
    cases Option.some.inj given
    exact ⟨_, session, user, none, checked, head, data, rfl⟩
  | _ => contradiction

/-- The token a call is about to store is new. -/
theorem storing_anew {c : Cmd} (reachable : Rotates cfg pool) (found : pool.thread? t = some th)
    (next : th.next? = some c) (signs : SignsAnew pool th) (storing : c.storing? = some token) :
    ¬ Stored pool token := by
  have signed : (Jwt.decode token).isSome := by
    have point := reachable.point along_body found next
    cases request : th.request <;> rw [request] at point <;> cases c <;>
      first
      | (cases storing; obtain ⟨_, _, _, _, _, _, _, signed, _⟩ := point; exact signed)
      | (cases storing; obtain ⟨_, _, _, _, _, _, signed, _⟩ := point; exact signed)
      | contradiction
  obtain ⟨claims, decoded⟩ := Option.isSome_iff_exists.mp signed
  intro stored
  obtain ⟨other, started, e, inTrace, stores⟩ := stored
  refine signs token (by rw [next]; exact storing) other started e inTrace token stores ?_
  simp only [sameSecond, decoded, decide_true, Bool.and_self]

theorem written_of_returned {r : Reply} (reachable : Rotates cfg pool)
    (found : pool.thread? t = some th) (presents : Presents th token)
    (ended : th.result? = some (.ok r)) : Written th := by
  have returned := reachable.returned along_body found ended
  obtain ⟨deviceId, req, request⟩ := presents.request
  rw [request] at returned
  exact returned r rfl

end Points

/-- What a step does to the stored tokens: it forgets none, and a row holds its old token
or one that was never stored before. -/
structure Advance (pool pool' : AuthPool) : Prop where
  stored : ∀ token, Stored pool token → Stored pool' token
  rows : ∃ id, ∀ row' ∈ pool'.store.db.refreshTokens,
    (∃ row ∈ pool.store.db.refreshTokens, Carried row row') ∨
      ¬ Stored pool row'.tokenHash.plain ∧ Stored pool' row'.tokenHash.plain ∧ row'.id = id

section Advance

variable {pool pool' : AuthPool}

theorem stored_set {s : Store} {t : Nat} {th th' : AuthThread} {token : Token}
    (found : pool.thread? t = some th) (extends' : ∀ e ∈ th.trace, e ∈ th'.trace)
    (stored : Stored pool token) :
    Stored (({ pool with store := s } : AuthPool).set t th') token := by
  obtain ⟨uth, started, e, inTrace, stores⟩ := stored
  obtain ⟨u, uFound⟩ := Pool.mem_threads.mp started
  by_cases same : u = t
  · subst same
    cases Option.some.inj (found.symm.trans uFound)
    exact ⟨th', Pool.mem_threads.mpr ⟨u, Pool.set_self th' found⟩, e, extends' e inTrace, stores⟩
  · exact ⟨uth, Pool.mem_threads.mpr ⟨u, (Pool.set_other _ _ same).trans uFound⟩,
      e, inTrace, stores⟩

theorem advance {label : Step cfg} (reachable : Rotates cfg pool) (met : Undisturbed cfg pool label)
    (effect : System.Effect (authSystem cfg) pool label pool') : Advance pool pool' := by
  cases effect with
  | spawn q =>
    refine ⟨fun token ⟨th, started, stores⟩ => ⟨th, List.mem_append_left _ started, stores⟩,
      "", fun row' found => .inl ⟨row', found, .refl row'⟩⟩
  | act a s acted =>
    refine ⟨fun token stored => stored, "", fun row' found => .inl ⟨row', ?_, .refl row'⟩⟩
    cases a <;> cases Option.some.inj acted <;> exact found
  | run t choice th c k r s found awaits executed =>
    refine ⟨fun token => stored_set found fun e inTrace => List.mem_cons_of_mem _ inTrace, ?_⟩
    obtain ⟨id, rows⟩ := (exec_session executed).rows
    refine ⟨id, fun row' inTable => (rows row' inTable).imp_right fun ⟨stores, same⟩ => ?_⟩
    refine ⟨?_, ⟨_, Pool.mem_threads.mpr ⟨t, Pool.set_self _ found⟩, _,
      List.mem_cons_self, stores⟩, same⟩
    have answered : choice.fault = false := by
      cases r with
      | error e => cases c <;> contradiction
      | ok a => exact exec_answered executed
    exact storing_anew reachable found (by rw [Thread.next?, awaits]) (met th found answered).1
      (stored?_storing stores)

theorem Tracks.advance {session : RefreshToken} (tracks : Tracks pool session)
    (step : Advance pool pool') : Tracks pool' session := by
  refine ⟨step.stored _ tracks.stored, fun row' found same => ?_⟩
  obtain ⟨id, rows⟩ := step.rows
  rcases rows row' found with ⟨row, inTable, carried⟩ | ⟨fresh, _⟩
  · rw [carried.id, carried.userId, carried.deviceId]
    exact tracks.same row inTable (carried.tokenHash ▸ same)
  · exact absurd (same ▸ tracks.stored) fresh

/-- A token that is stored, but in no live row, stays out of the live rows. -/
theorem Advance.revoked {token : Token} (step : Advance pool pool') (stored : Stored pool token)
    (revoked : ∀ row ∈ pool.store.db.refreshTokens, row.tokenHash.plain = token →
      row.revokedAt ≠ none) :
    ∀ row ∈ pool'.store.db.refreshTokens, row.tokenHash.plain = token → row.revokedAt ≠ none := by
  intro row' found same live
  obtain ⟨id, rows⟩ := step.rows
  rcases rows row' found with ⟨row, inTable, carried⟩ | ⟨fresh, _⟩
  · exact revoked row inTable (carried.tokenHash ▸ same) (carried.live live)
  · exact fresh (same ▸ stored)

theorem RotationInv.known_advance (inv : RotationInv pool) (step : Advance pool pool') :
    ∀ row ∈ pool'.store.db.refreshTokens, Stored pool' row.tokenHash.plain := by
  intro row' found
  obtain ⟨id, rows⟩ := step.rows
  rcases rows row' found with ⟨row, inTable, carried⟩ | ⟨_, stored, _⟩
  · exact carried.tokenHash ▸ step.stored _ (inv.known row inTable)
  · exact stored

theorem RotationInv.unique_advance (inv : RotationInv pool) (step : Advance pool pool') :
    ∀ row ∈ pool'.store.db.refreshTokens, ∀ row' ∈ pool'.store.db.refreshTokens,
      row.tokenHash.plain = row'.tokenHash.plain → row = row' := by
  intro row' found row'' found' same
  obtain ⟨id, rows⟩ := step.rows
  apply Table.eq_of_key found found'
  rcases rows row' found with ⟨old, inTable, carried⟩ | ⟨fresh, _, here⟩ <;>
    rcases rows row'' found' with ⟨old', inTable', carried'⟩ | ⟨fresh', _, here'⟩
  · rw [carried.tokenHash, carried'.tokenHash] at same
    rw [carried.id, carried'.id, inv.unique old inTable old' inTable' same]
  · exact absurd (same ▸ carried.tokenHash ▸ inv.known old inTable) fresh'
  · exact absurd (same ▸ carried'.tokenHash ▸ inv.known old' inTable') fresh
  · exact here.trans here'.symm

end Advance

section Preserved

variable {pool pool' : AuthPool}

theorem rotation_initial (s : Store) (start : NoSessions s) :
    RotationInv (System.idle s : AuthPool) := by
  have empty : ∀ row : RefreshToken, row ∉ s.db.refreshTokens := by
    intro row found
    rw [← Table.mem_rows, start] at found
    exact List.not_mem_nil found
  have idle : ∀ t th, (System.idle s : AuthPool).thread? t ≠ some th := by
    intro t th found
    cases found
  exact {
    known := fun row found => absurd found (empty row)
    unique := fun row found => absurd found (empty row)
    checked := fun t th _ _ _ found => absurd found (idle t th)
    reread := fun t th _ _ found => absurd found (idle t th)
    absent := fun t th _ _ _ _ found => absurd found (idle t th)
    consumed := fun t th _ found => absurd found (idle t th)
    single := fun t th _ _ _ found => absurd found (idle t th) }

/-- No new event: what was seen stays seen. -/
theorem RotationInv.of_threads (inv : RotationInv pool) (step : Advance pool pool')
    (reachable : Rotates cfg pool')
    (threads : ∀ t th, pool'.thread? t = some th → pool.thread? t = some th ∨ th.trace = []) :
    RotationInv pool' where
  known := inv.known_advance step
  unique := inv.unique_advance step
  checked t th w session user found inTrace := by
    rcases threads t th found with old | fresh
    · obtain ⟨tracks, rest⟩ := inv.checked t th w session user old inTrace
      exact ⟨tracks.advance step, rest⟩
    · rw [fresh] at inTrace
      exact absurd inTrace List.not_mem_nil
  reread t th w existing found inTrace := by
    rcases threads t th found with old | fresh
    · exact (inv.reread t th w existing old inTrace).advance step
    · rw [fresh] at inTrace
      exact absurd inTrace List.not_mem_nil
  absent t th token deviceId session user found checked head := by
    rcases threads t th found with old | fresh
    · obtain ⟨w, device, _, inTrace⟩ := checked.found
      have stored := (inv.checked t th w session user old inTrace).1.stored
      rw [checked.verified] at stored
      exact step.revoked stored (inv.absent t th token deviceId session user old checked head)
    · rw [fresh] at head
      contradiction
  consumed t th token found presents written := by
    rcases threads t th found with old | fresh
    · obtain ⟨stored, revoked⟩ := inv.consumed t th token old presents written
      exact ⟨step.stored _ stored, step.revoked stored revoked⟩
    · obtain ⟨e, inTrace, _⟩ := written
      rw [fresh] at inTrace
      exact absurd inTrace List.not_mem_nil
  single t th t' th' token found found' presents presents' holds holds' := by
    have started : ∀ t th, pool'.thread? t = some th → Presents th token → Pending th ∨ Written th →
        th.trace ≠ [] := by
      rintro t th found presents (pending | ⟨e, inTrace, _⟩) fresh
      · obtain ⟨c, next, storing⟩ := pending_iff.mp pending
        obtain ⟨_, _, _, _, _, head, _⟩ := pending_refresh reachable found presents next storing
        rw [fresh] at head
        contradiction
      · rw [fresh] at inTrace
        exact absurd inTrace List.not_mem_nil
    have old := (threads t th found).resolve_right (started t th found presents holds)
    have old' := (threads t' th' found').resolve_right (started t' th' found' presents' holds')
    exact inv.single t th t' th' token old old' presents presents' holds holds'

theorem RotationInv.tracks (inv : RotationInv pool) {session : RefreshToken}
    (found : session ∈ pool.store.db.refreshTokens) : Tracks pool session where
  stored := inv.known session found
  same row inTable same := by
    rw [inv.unique row inTable session found same]
    exact ⟨rfl, rfl, rfl⟩

section Ran

variable {t : Nat} {choice : Choice} {th : AuthThread} {c : Cmd} {r : Except Exn c.Resp} {s : Store}

/-- The re-read found no live session: the rows that hold the checked token are revoked. -/
theorem RotationInv.absent_reread (inv : RotationInv pool) (found : pool.thread? t = some th)
    {token : Token} {deviceId : Option String} {session : RefreshToken} {user : User}
    (checked : Checked token deviceId th.trace session user)
    (executed : exec (.refreshTokenFindFirst (savedSession user.id deviceId)) choice pool.store =
      some (.ok none, s)) :
    Stored pool token ∧
      ∀ row ∈ pool.store.db.refreshTokens, row.tokenHash.plain = token → row.revokedAt ≠ none := by
  obtain ⟨⟨w, device, _, inTrace⟩, rfl⟩ := checked
  obtain ⟨tracks, owner, matching⟩ := inv.checked t th w session user found inTrace
  refine ⟨tracks.stored, fun row inTable same live => ?_⟩
  obtain ⟨_, sameUser, sameDevice⟩ := tracks.same row inTable same
  refine exec_findFirst_none executed row inTable ((holds_live ..).mpr ⟨?_, ?_, live⟩)
  · rintro _ ⟨⟩
    rw [sameUser, owner]
  · intro d given
    rw [sameDevice]
    exact matching d (device.trans given)

/-- A refresh that has just written leaves no live row with the token it presented. -/
theorem RotationInv.consumed_write (inv : RotationInv pool) (step : Advance pool pool')
    (reachable : Rotates cfg pool) (found : pool.thread? t = some th) (next : th.next? = some c)
    (signs : SignsAnew pool th) (executed : exec c choice pool.store = some (r, s))
    (store : pool'.store = s) {token : Token} (presents : Presents th token)
    (stores : (stored? ⟨c, r⟩).isSome) :
    Stored pool' token ∧
      ∀ row ∈ pool'.store.db.refreshTokens, row.tokenHash.plain = token → row.revokedAt ≠ none := by
  obtain ⟨new, stored⟩ := Option.isSome_iff_exists.mp stores
  have storing : c.storing?.isSome := by rw [stored?_storing stored]; rfl
  obtain ⟨deviceId, session, user, existing, checked, head, rest⟩ :=
    pending_refresh reachable found presents next storing
  have known : Stored pool token := by
    obtain ⟨⟨w, _, _, inTrace⟩, rfl⟩ := checked
    exact (inv.checked t th w session user found inTrace).1.stored
  refine ⟨step.stored _ known, ?_⟩
  cases existing with
  | none =>
      exact step.revoked known (inv.absent t th token deviceId session user found checked head)
  | some row =>
    -- the row the token is in is the one that is overwritten
    obtain ⟨holds, hash, expiresAt, rfl⟩ := rest
    have tracks := inv.reread t th _ row found (List.mem_of_mem_head? head)
    intro row' inTable same
    obtain ⟨id, rows⟩ := step.rows
    rcases rows row' inTable with ⟨old, inOld, carried⟩ | ⟨fresh, _⟩
    · have sameId := (tracks.same old inOld (by rw [holds, ← same, carried.tokenHash])).1
      have effect := exec_session executed
      rw [store] at inTable
      cases effect with
      | none _ _ _ nothing =>
        rw [nothing] at stored
        contradiction
      | update _ _ _ table modified =>
        obtain ⟨old', _, rfl⟩ := (Table.mem_modify? modified).mp inTable
        split at same
        · exact absurd (same ▸ known) (storing_anew reachable found next signs rfl)
        · rename_i other
          rw [if_neg other] at carried
          exact absurd (carried.id.trans sameId) other
    · exact absurd (same ▸ known) fresh

/-- A refresh comes to hold its token by its re-read only, which then has found a live row
of the token or none. -/
theorem held_before (reachable' : Rotates cfg pool') (next : th.next? = some c)
    {k : Except Exn c.Resp → Action Reply} {token : Token}
    (found' : pool'.thread? t = some ⟨th.request, ⟨c, r⟩ :: th.trace, k r⟩)
    (presents : Presents th token)
    (holds : Pending (⟨th.request, ⟨c, r⟩ :: th.trace, k r⟩ : AuthThread) ∨
      Written (⟨th.request, ⟨c, r⟩ :: th.trace, k r⟩ : AuthThread)) :
    (Pending th ∨ Written th) ∨ ∃ userId deviceId existing,
      (⟨c, r⟩ : Ev) = ⟨.refreshTokenFindFirst (savedSession userId deviceId), .ok existing⟩ ∧
      ∀ row, existing = some row → row.tokenHash.plain = token := by
  rcases holds with pending | ⟨e, inTrace, stores⟩
  · obtain ⟨c', next', storing⟩ := pending_iff.mp pending
    have presents' : Presents (⟨th.request, ⟨c, r⟩ :: th.trace, k r⟩ : AuthThread) token := presents
    obtain ⟨deviceId, session, user, existing, _, head, rest⟩ :=
      pending_refresh reachable' found' presents' next' storing
    refine .inr ⟨user.id, deviceId, existing, Option.some.inj head, ?_⟩
    rintro row rfl
    exact rest.1
  · left
    rcases List.mem_cons.mp inTrace with rfl | old
    · obtain ⟨token', stored⟩ := Option.isSome_iff_exists.mp stores
      exact .inl (pending_iff.mpr ⟨c, next, by rw [stored?_storing stored]; rfl⟩)
    · exact .inr ⟨e, old, stores⟩

end Ran

theorem RotationInv.run (inv : RotationInv pool) (reachable : Rotates cfg pool)
    (reachable' : Rotates cfg pool') {label : Step cfg} (met : Undisturbed cfg pool label)
    (effect : System.Effect (authSystem cfg) pool label pool') : RotationInv pool' := by
  have step := advance reachable met effect
  cases effect with
  | spawn q =>
    refine inv.of_threads step reachable' fun u th found => ?_
    rcases Pool.add_cases found with ⟨_, rfl⟩ | old
    · exact .inr rfl
    · exact .inl old
  | act a s acted => exact inv.of_threads step reachable' fun u th found => .inl found
  | run t choice th c k r s found awaits executed =>
    have next : th.next? = some c := by rw [Thread.next?, awaits]
    have at' : ∀ u uth, (({ pool with store := s } : AuthPool).set t ⟨th.request, ⟨c, r⟩ ::
        th.trace, k r⟩).thread? u =
        some uth → (u = t ∧ uth = ⟨th.request, ⟨c, r⟩ :: th.trace, k r⟩) ∨
        (u ≠ t ∧ pool.thread? u = some uth) := fun u uth found => Pool.set_cases found
    exact {
      known := inv.known_advance step
      unique := inv.unique_advance step
      checked := by
        intro u uth w session user uFound inTrace
        rcases at' u uth uFound with ⟨rfl, rfl⟩ | ⟨_, old⟩
        · rcases List.mem_cons.mp inTrace with now | before
          · cases now
            obtain ⟨inTable, matching, owner⟩ := exec_findFirstWithUser executed
            exact ⟨(inv.tracks inTable).advance step, owner, fun d => holds_deviceId matching⟩
          · obtain ⟨tracks, rest⟩ := inv.checked u th w session user found before
            exact ⟨tracks.advance step, rest⟩
        · obtain ⟨tracks, rest⟩ := inv.checked u uth w session user old inTrace
          exact ⟨tracks.advance step, rest⟩
      reread := by
        intro u uth w existing uFound inTrace
        rcases at' u uth uFound with ⟨rfl, rfl⟩ | ⟨_, old⟩
        · rcases List.mem_cons.mp inTrace with now | before
          · cases now
            exact (inv.tracks (exec_findFirst executed).1).advance step
          · exact (inv.reread u th w existing found before).advance step
        · exact (inv.reread u uth w existing old inTrace).advance step
      absent := by
        intro u uth token deviceId session user uFound checked head
        rcases at' u uth uFound with ⟨rfl, rfl⟩ | ⟨_, old⟩
        · cases Option.some.inj head
          obtain ⟨⟨w, device, live, inTrace⟩, verified⟩ := checked
          have before := (List.mem_cons.mp inTrace).resolve_left (by rintro ⟨⟩)
          obtain ⟨stored, revoked⟩ :=
            inv.absent_reread found ⟨⟨w, device, live, before⟩, verified⟩ executed
          exact step.revoked stored revoked
        · obtain ⟨⟨w, device, live, inTrace⟩, verified⟩ := checked
          have stored := (inv.checked u uth w session user old inTrace).1.stored
          rw [verified] at stored
          exact step.revoked stored
            (inv.absent u uth token deviceId session user old
              ⟨⟨w, device, live, inTrace⟩, verified⟩ head)
      consumed := by
        intro u uth token uFound presents written
        rcases at' u uth uFound with ⟨rfl, rfl⟩ | ⟨_, old⟩
        · obtain ⟨e, inTrace, stores⟩ := written
          rcases List.mem_cons.mp inTrace with rfl | before
          · have answered : choice.fault = false := by
              cases r with
              | error e => cases c <;> contradiction
              | ok a => exact exec_answered executed
            exact inv.consumed_write step reachable found next (met th found
              answered).1 executed rfl presents stores
          · obtain ⟨stored, revoked⟩ := inv.consumed u th token found presents ⟨e, before, stores⟩
            exact ⟨step.stored _ stored, step.revoked stored revoked⟩
        · obtain ⟨stored, revoked⟩ := inv.consumed u uth token old presents written
          exact ⟨step.stored _ stored, step.revoked stored revoked⟩
      single := by
        -- the call that has moved shares its token with no other holder
        have alone : ∀ u uth token, u ≠ t → pool.thread? u = some uth → Presents th token →
            Presents uth token →
            Pending (⟨th.request, ⟨c, r⟩ :: th.trace, k r⟩ : AuthThread) ∨
              Written (⟨th.request, ⟨c, r⟩ :: th.trace, k r⟩ : AuthThread) →
            Pending uth ∨ Written uth → False := by
          intro u uth token other old presents presents' holds holds'
          rcases held_before reachable' next (Pool.set_self _ found) presents holds with
            before | ⟨userId, deviceId, existing, now, held⟩
          · exact other (inv.single u uth t th token old found presents' presents holds' before)
          · cases now
            have searched : searched? th = some (savedSession userId deviceId) := by rw [searched?,
                next]
            obtain ⟨notPending, live⟩ := (met th found (exec_answered executed)).2 token presents _
              searched uth (Pool.mem_others old other) presents'
            have written := holds'.resolve_left notPending
            cases existing with
            | none =>
              obtain ⟨row, inTable, matching⟩ := live written
              exact exec_findFirst_none executed row inTable matching
            | some row =>
              obtain ⟨inTable, matching⟩ := exec_findFirst executed
              exact (inv.consumed u uth token old presents' written).2 row inTable (held row rfl)
                ((holds_live ..).mp matching).2.2
        intro u uth u' uth' token uFound uFound' presents presents' holds holds'
        rcases at' u uth uFound with ⟨rfl, rfl⟩ | ⟨other, old⟩ <;>
          rcases at' u' uth' uFound' with ⟨rfl, rfl⟩ | ⟨other', old'⟩
        · rfl
        · exact (alone u' uth' token other' old' presents presents' holds holds').elim
        · exact (alone u uth token other old presents' presents holds' holds).elim
        · exact inv.single u uth u' uth' token old old' presents presents' holds holds' }

end Preserved

theorem rotation_invariant {pool : AuthPool} (reachable : Rotates cfg pool) : RotationInv pool :=
  reachable.invariant rotation_initial fun _ _ _ before after inv met effect =>
    inv.run before after met effect

/-- Single use. In every run whose steps meet the condition, for any interleaving and any
timing of the calls, a refresh token is redeemed by one refresh at most: once a refresh
with it has returned, every other refresh that presents it and ends is rejected. -/
theorem refresh_token_single_use {pool : AuthPool} {t t' : Nat}
    {th th' : AuthThread} {token : Token} {reply : Reply} {r : Except Exn Reply}
    (reachable : (authSystem cfg).Reachable (Undisturbed cfg) NoSessions pool)
    (found : pool.thread? t = some th) (presents : Presents th token)
    (redeemed : th.result? = some (.ok reply))
    (found' : pool.thread? t' = some th') (presents' : Presents th' token) (another : t' ≠ t)
    (ended : th'.result? = some r) : ∃ e, r = .error e := by
  cases r with
  | error e => exact ⟨e, rfl⟩
  | ok reply' =>
    have written := written_of_returned reachable found presents redeemed
    have written' := written_of_returned reachable found' presents' ended
    exact absurd ((rotation_invariant reachable).single t' th' t th token found'
      found presents' presents
      (.inr written') (.inr written)) another

section Sample

def loginUser : User :=
  { id := aliceId, email := "alice@mail.com", passwordHash := ⟨argonSalt0, "Secret123"⟩
    createdAt := 0 }

def loginStore : Store := { db := { users := ⟨[loginUser], by decide⟩ } }

/-- The refresh token of a login in the first second. -/
def firstToken : Token := AuthService.refreshTokenOf Config.default loginUser 0

abbrev SampleStep := Step Config.default

def steps (t : Nat) (draws : List String) : List SampleStep :=
  draws.map fun draw => .run t ({ draw } : Choice)

/-- A login on device `d1`, up to its end. -/
def loginSteps : List SampleStep :=
  .spawn (.login loginUser {}) ::
    steps 0 [laptopId, "", "", "", argonSalt1, "", sessionId1, "", "", ""]

/-- Two refreshes with the token of that login, one after the other, in the same second:
the second token is the first one again. -/
def sameSecondSteps : List SampleStep :=
  loginSteps ++ [.spawn (.refresh (some firstToken) (some laptopId) {}),
    .spawn (.refresh (some firstToken) (some laptopId) {})] ++
    steps 1 (List.replicate 11 "") ++ steps 2 (List.replicate 11 "")

/-- Two refreshes in different seconds, the second of which re-reads the session before
the first one writes. -/
def racingSteps : List SampleStep :=
  loginSteps ++ [.act (.tick 1000), .spawn (.refresh (some firstToken) (some laptopId) {}),
    .spawn (.refresh (some firstToken) (some laptopId) {})] ++
    steps 1 (List.replicate 7 "") ++ [.act (.tick 1000)] ++ steps 2 (List.replicate 7 "") ++
    steps 1 (List.replicate 4 "") ++ steps 2 (List.replicate 4 "")

def redeems (token : Token) (pool : AuthPool) (t : Nat) : Bool :=
  match pool.thread? t with
  | some ⟨.refresh (some presented) _ _, _, .done (.ok _)⟩ => presented = token
  | _ => false

def RedeemedBy (token : Token) (pool : AuthPool) (t : Nat) : Prop :=
  ∃ th reply, pool.thread? t = some th ∧ Presents th token ∧ th.result? = some (.ok reply)

theorem redeemedBy_of_redeems {token : Token} {pool : AuthPool} {t : Nat}
    (redeemed : redeems token pool t) :
    RedeemedBy token pool t := by
  unfold redeems at redeemed
  split at redeemed
  · rename_i presented _ _ _ reply found
    exact ⟨_, reply, found, congrArg some (of_decide_eq_true redeemed), rfl⟩
  · contradiction

/-- The end of a schedule in which the token of the login is redeemed twice. -/
def RedeemedTwice (labels : List SampleStep) : Prop := ∃ pool,
  (authSystem Config.default).replay System.Any (System.idle loginStore) labels = some pool ∧
  (authSystem Config.default).Reachable System.Any NoSessions pool ∧
  RedeemedBy firstToken pool 1 ∧ RedeemedBy firstToken pool 2

theorem redeemedTwice_of_replay {labels : List SampleStep}
    (twice : (((authSystem Config.default).replay System.Any
      (System.idle loginStore) labels).any fun pool =>
      redeems firstToken pool 1 && redeems firstToken pool 2) = true) : RedeemedTwice labels := by
  obtain ⟨pool, replayed, both⟩ := (Option.any_eq_true ..).mp twice
  obtain ⟨first, second⟩ := (Bool.and_eq_true ..).mp both
  exact ⟨pool, replayed, ⟨loginStore, rfl, System.run_replay replayed⟩,
    redeemedBy_of_redeems first, redeemedBy_of_redeems second⟩

/-- The token of a login is redeemed twice: within the second it was signed in, and by two
refreshes in different seconds that race. -/
theorem refresh_token_redeemed_twice : RedeemedTwice sameSecondSteps ∧ RedeemedTwice racingSteps :=
  ⟨redeemedTwice_of_replay (by decide +kernel), redeemedTwice_of_replay (by decide +kernel)⟩

/-- A refresh in a later second, and another one with the same token after it. -/
def rotatedSteps : List SampleStep :=
  loginSteps ++ [.act (.tick 1000), .spawn (.refresh (some firstToken) (some laptopId) {}),
    .spawn (.refresh (some firstToken) (some laptopId) {})] ++
    steps 1 (List.replicate 11 "") ++ steps 2 (List.replicate 5 "")

def rejects (token : Token) (pool : AuthPool) (t : Nat) : Bool :=
  match pool.thread? t with
  | some ⟨.refresh (some presented) _ _, _, .done (.error _)⟩ => presented = token
  | _ => false

theorem rejectedBy_of_rejects {token : Token} {pool : AuthPool} {t : Nat}
    (rejected : rejects token pool t) :
    ∃ th e, pool.thread? t = some th ∧ Presents th token ∧ th.result? = some (.error e) := by
  unfold rejects at rejected
  split at rejected
  · rename_i presented _ _ _ e found
    exact ⟨_, e, found, congrArg some (of_decide_eq_true rejected), rfl⟩
  · contradiction

theorem rotated_pool : ∃ pool, (authSystem Config.default).Reachable
    (Undisturbed Config.default) NoSessions pool ∧ RedeemedBy firstToken pool 1 ∧
    ∃ th e, pool.thread? 2 = some th ∧ Presents th firstToken ∧ th.result? = some (.error e) := by
  have checked : (((authSystem Config.default).replay (Undisturbed Config.default)
      (System.idle loginStore) rotatedSteps).any fun pool =>
        redeems firstToken pool 1 && rejects firstToken pool 2) = true := by decide +kernel
  obtain ⟨pool, run, both⟩ := System.run_of_replay checked
  obtain ⟨first, second⟩ := (Bool.and_eq_true ..).mp both
  exact ⟨pool, ⟨loginStore, rfl, run⟩, redeemedBy_of_redeems first, rejectedBy_of_rejects second⟩

/-- The second refresh of a conforming run is rejected. -/
theorem refresh_token_single_use_rotated : ∃ pool th r,
    (authSystem Config.default).Reachable (Undisturbed Config.default) NoSessions pool ∧
    pool.thread? 2 = some th ∧ th.result? = some r ∧ ∃ e, r = .error e := by
  obtain ⟨pool, reachable, ⟨th, reply, found, presents, redeemed⟩, th', e, found', presents', ended⟩ :=
    rotated_pool
  exact ⟨pool, th', _, reachable, found', ended,
    refresh_token_single_use reachable found presents redeemed found' presents' (by decide) ended⟩

end Sample
end CorePlatform.Auth
