import CorePlatform.Auth.System

/-! Concurrent resets of passwords. A reset reads the verified row, sets the password and
deletes the row in three commands of their own; the deletion is what consumes the code. -/
namespace CorePlatform.Auth
open Async Relational

structure ResetCall where
  email : Option String
  code : Option String
  password : Option String

/-- Calls of `forgotPasswordReset`, while time passes and permission versions change. -/
@[reducible] def resetSystem : System Api Exn ResetCall String Store where
  toSemantics := semantics
  body q := AuthService.forgotPasswordReset q.email q.code q.password
  Act := EnvAct
  act := act

abbrev ResetThread := Thread Api Exn ResetCall String
abbrev ResetPool := Pool Api Exn ResetCall String Store
abbrev ResetStep := Label ResetCall resetSystem.Choice resetSystem.Act

/-- The password of the account was set. -/
def SetsPassword (id : String) (trace : List Ev) : Prop :=
  ∃ hash, ⟨.userSetPassword id hash, .ok ()⟩ ∈ trace

/-- The event sets the password of the account. -/
def sets (id : String) : Ev → Bool
  | ⟨.userSetPassword id' _, .ok _⟩ => id' = id
  | _ => false

theorem setsPassword_any {id : String} {trace : List Ev} : trace.any (sets id) = true ↔
    SetsPassword id trace := by
  rw [List.any_eq_true]
  constructor
  · rintro ⟨e, found, setting⟩
    unfold sets at setting
    split at setting
    · rename_i id' hash _
      obtain rfl := of_decide_eq_true setting
      exact ⟨hash, found⟩
    · contradiction
  · exact fun ⟨hash, found⟩ => ⟨_, found, decide_eq_true rfl⟩

instance (id : String) (trace : List Ev) : Decidable (SetsPassword id trace) :=
  decidable_of_iff _ setsPassword_any

/-- At most one call with a code has set the password of a user, and none that threw has set
a password. -/
structure OneTime (pool : ResetPool) : Prop where
  once : ∀ id code t u th uth, pool.thread? t = some th → pool.thread? u = some uth →
    th.request.code = some code → uth.request.code = some code →
    SetsPassword id th.trace → SetsPassword id uth.trace → t = u
  failed : ∀ t th e id, pool.thread? t = some th → th.result? = some (.error e) →
    ¬ SetsPassword id th.trace

/-- The row that a call has read. -/
def verified? (trace : List Ev) : Option PasswordReset :=
  trace.findSome? fun
    | ⟨.passwordResetFindFirst _, .ok row⟩ => row
    | _ => none

/-- The row that a call deletes next. -/
def deleting? (th : ResetThread) : Option String :=
  th.next?.bind fun
    | .passwordResetDelete id => some id
    | _ => none

/-- The row is stored, and its code works for no other row of the user. -/
def Sole (s : Store) (row : PasswordReset) : Prop :=
  row ∈ s.db.passwordResets.rows ∧ ∀ other ∈ s.db.passwordResets.rows,
    other.userId = row.userId → other.tokenHash.plain = row.tokenHash.plain → other = row

instance (s : Store) (row : PasswordReset) : Decidable (Sole s row) :=
  inferInstanceAs (Decidable (_ ∧ _))

/-- What the condition asks of a command. -/
def AloneAt (pool : ResetPool) (t : Nat) (choice : Choice) (trace : List Ev) : Cmd → Prop
  | .userSetPassword .. => choice.fault = false → ∀ row ∈ verified? trace, Sole pool.store row ∧
      ∀ uth ∈ pool.others t, deleting? uth ≠ some row.id
  | .passwordResetDelete _ | .refreshTokenRevokeMany .. => choice.fault = false
  | _ => True

/-- The condition on a step. Where a password is set, the row that the call has verified is
still stored and the only one of the user with its code, and no other call is about to
delete it; and the two commands after that are not rejected. -/
def ConsumesAlone (pool : ResetPool) : ResetStep → Prop
  | .run t choice => ∀ th ∈ pool.thread? t, ∀ c ∈ th.next?, AloneAt pool t choice th.trace c
  | _ => True

section Body

variable {email code password : Option String} {trace : List Ev} {id : String}

/-- The call has read the row of the account, and its code is the row's. -/
def HasVerified (code : Option String) (id : String) (trace : List Ev)
    (row : PasswordReset) : Prop :=
  verified? trace = some row ∧ code = some row.tokenHash.plain ∧
    ⟨.passwordResetFindFirst { userId := some id, used := some true }, .ok (some row)⟩ ∈ trace

/-- The last command has set the password. -/
def JustSet (id : String) (trace : List Ev) : Prop :=
  ∃ hash before, trace = ⟨.userSetPassword id hash, .ok ()⟩ :: before

def Cmd.writesResets : Cmd → Bool
  | .passwordResetCreate .. | .passwordResetUse _ | .passwordResetDelete _ => true
  | _ => false

def Cmd.setsPassword : Cmd → Bool
  | .userSetPassword .. => true
  | _ => false

/-- Where a reset stands: it sets the password once, after it has read its row, and then
deletes that row. -/
structure ResetPoint (code : Option String) (trace : List Ev) (c : Cmd) : Prop where
  sets : ∀ id hash, c = .userSetPassword id hash → (∃ row, HasVerified code id trace row) ∧
    ∀ id, ¬ SetsPassword id trace
  next : ∀ id, JustSet id trace → ∃ row, HasVerified code id trace row ∧
    c = .passwordResetDelete row.id
  writes : c.writesResets = true → ∃ id, JustSet id trace

/-- The commands after the password was set. -/
def Cmd.finishes : Cmd → Bool
  | .passwordResetDelete _ | .now | .refreshTokenRevokeMany .. => true
  | _ => false

/-- One of them was rejected. -/
def Unfinished (trace : List Ev) : Prop := ∃ e ∈ trace, e.cmd.finishes = true ∧ e.resp.isOk = false

/-- How a reset ends. Where it throws although it has set a password, a later command failed. -/
structure ResetEnd {α : Type} (trace : List Ev) (r : Except Exn α) : Prop where
  settled : ∀ id, ¬ JustSet id trace
  failed : ∀ e id, r = .error e → SetsPassword id trace → Unfinished trace

theorem not_justSet {c : Cmd} {r : Except Exn c.Resp} (other : c.setsPassword = false) :
    ∀ id, ¬ JustSet id (⟨c, r⟩ :: trace) := by
  rintro id ⟨hash, _, same⟩
  cases same
  contradiction

theorem setsPassword_cons {c : Cmd} {r : Except Exn c.Resp} (other : c.setsPassword = false) :
    SetsPassword id (⟨c, r⟩ :: trace) ↔ SetsPassword id trace := by
  constructor
  · rintro ⟨hash, found⟩
    rcases List.mem_cons.mp found with same | earlier
    · cases same
      contradiction
    · exact ⟨hash, earlier⟩
  · exact fun ⟨hash, found⟩ => ⟨hash, List.mem_cons_of_mem _ found⟩

/-- A command before the password is set, or long after. -/
theorem resetPoint_other {c : Cmd} (past : ∀ id, ¬ JustSet id trace)
    (other : c.setsPassword = false) (reads : c.writesResets = false) :
    ResetPoint code trace c where
  sets id hash same := by
    rw [same] at other
    contradiction
  next id just := absurd just (past id)
  writes writing := absurd (reads.symm.trans writing) Bool.false_ne_true

theorem resetEnd_unset {α : Type} {r : Except Exn α} (unset : ∀ id, ¬ SetsPassword id trace) :
    ResetEnd trace r where
  settled id := fun ⟨hash, _, same⟩ => unset id ⟨hash, same ▸ List.mem_cons_self⟩
  failed _ id _ set := absurd set (unset id)

/-- The password is set, the row deleted and the sessions revoked. -/
theorem along_setPassword {row : PasswordReset} {passwordHash : Argon2Hash String}
    (read : HasVerified code id trace row) (unset : ∀ id, ¬ SetsPassword id trace) :
    Along (ResetPoint code) ResetEnd trace (do
      let _ ← (do
        call (.userSetPassword id passwordHash)
        call (.passwordResetDelete row.id)
        return true : Action Bool)
      let _ ← UsersService.logoutAllDevices (some id)
      return "Password reset success" : Action String) := by
  have past : ∀ id, ¬ JustSet id trace :=
    fun id ⟨hash, _, same⟩ => unset id ⟨hash, same ▸ List.mem_cons_self⟩
  refine along_bind.mpr ?_
  apply along_command_bind
  · refine ⟨fun id hash same => ?_, fun id just => absurd just (past id), nofun⟩
    cases same
    exact ⟨⟨row, read⟩, unset⟩
  · intro e
    apply resetEnd_unset
    rintro id ⟨hash, found⟩
    rcases List.mem_cons.mp found with same | earlier
    · nomatch same
    · exact unset id ⟨hash, earlier⟩
  · intro _
    have read' : HasVerified code id (⟨.userSetPassword id passwordHash, .ok ()⟩ :: trace) row :=
      ⟨read.1, read.2.1, List.mem_cons_of_mem _ read.2.2⟩
    apply along_command_bind
    · refine ⟨nofun, ?_, fun _ => ⟨id, passwordHash, trace, rfl⟩⟩
      rintro id' ⟨hash, _, same⟩
      cases same
      exact ⟨row, read', rfl⟩
    · exact fun e => ⟨not_justSet rfl, fun _ _ _ _ => ⟨_, List.mem_cons_self, rfl, rfl⟩⟩
    · intro _
      refine along_bind.mpr
        (along_command_bind (resetPoint_other (not_justSet rfl) rfl rfl) ?_ fun now => ?_)
      · exact fun e => ⟨not_justSet rfl, fun _ _ _ _ => ⟨_, List.mem_cons_self, rfl, rfl⟩⟩
      · refine ⟨resetPoint_other (not_justSet rfl) rfl rfl, fun r => ?_⟩
        cases r with
        | error e => exact ⟨not_justSet rfl, fun _ _ _ _ => ⟨_, List.mem_cons_self, rfl, rfl⟩⟩
        | ok _ => exact ⟨not_justSet rfl, nofun⟩

/-- No command so far sets a password. -/
def Reading (trace : List Ev) : Prop := ∀ e ∈ trace, e.cmd.setsPassword = false

theorem Reading.unset (reading : Reading trace) (id : String) : ¬ SetsPassword id trace :=
  fun ⟨_, found⟩ => Bool.false_ne_true (reading _ found).symm

theorem Reading.past (reading : Reading trace) (id : String) : ¬ JustSet id trace :=
  fun ⟨hash, _, same⟩ => reading.unset id ⟨hash, same ▸ List.mem_cons_self⟩

theorem Reading.cons {c : Cmd} {r : Except Exn c.Resp} (reading : Reading trace)
    (other : c.setsPassword = false) : Reading (⟨c, r⟩ :: trace) := by
  intro e found
  rcases List.mem_cons.mp found with rfl | earlier
  · exact other
  · exact reading e earlier

/-- One reading command. -/
theorem along_read {α : Type} {c : Cmd} {k : Except Exn c.Resp → Action α} (reading : Reading trace)
    (other : c.setsPassword = false) (reads : c.writesResets = false)
    (next : ∀ r, Reading (⟨c, r⟩ :: trace) →
      Along (ResetPoint code) ResetEnd (⟨c, r⟩ :: trace) (k r)) :
    Along (ResetPoint code) ResetEnd trace (.await c k) :=
  ⟨resetPoint_other reading.past other reads, fun r => next r (reading.cons other)⟩

theorem along_forgotPasswordReset : Along (ResetPoint code) ResetEnd []
    (AuthService.forgotPasswordReset email code password) := by
  refine along_catch.mpr (Along.mono (P := ResetPoint code) (R := ResetEnd) ?_
    (fun _ _ point => point) fun trace r ended => ?_)
  · have start : Reading [] := fun _ none => absurd none List.not_mem_nil
    refine along_read start ?_ ?_ ?_
    · rfl
    · rfl
    rintro (_ | _ | user) reading
    · exact resetEnd_unset reading.unset
    · exact resetEnd_unset reading.unset
    refine along_read reading ?_ ?_ ?_
    · rfl
    · rfl
    rintro (_ | _ | row) reading
    · exact resetEnd_unset reading.unset
    · exact resetEnd_unset reading.unset
    cases code with
    | none => exact resetEnd_unset reading.unset
    | some code =>
      by_cases valid : verifyPassword row.tokenHash code = true
      · simp only [Prog.graft, verifyHash, valid, Prog.pure_eq, Prog.bind_ok, Bool.not_true,
          Bool.false_eq_true, if_false]
        cases password with
        | none => exact resetEnd_unset reading.unset
        | some password =>
          refine along_read reading ?_ ?_ ?_
          · rfl
          · rfl
          rintro (_ | salt) reading
          · exact resetEnd_unset reading.unset
          refine along_setPassword ⟨rfl, ?_, ?_⟩ reading.unset
          · rw [(verifyPassword_iff _ _).mp valid]
          · exact List.mem_cons_of_mem _ List.mem_cons_self
      · simp only [Prog.graft, verifyHash, valid, Prog.pure_eq, Prog.bind_ok,
          Bool.not_false, if_true]
        exact resetEnd_unset reading.unset
  · cases r with
    | ok a => exact ended
    | error e =>
      dsimp only
      split
      · exact ended
      · exact ⟨ended.settled, fun _ id _ set => ended.failed e id rfl set⟩

end Body

section Commands

variable {s s' : Store} {choice : Choice}

/-- Three commands write reset rows. -/
theorem exec_resets {c : Cmd} {r : Except Exn c.Resp} (executed : exec c choice s = some (r, s'))
    (reads : c.writesResets = false) : s'.db.passwordResets = s.db.passwordResets := by
  unfold exec at executed
  split at executed
  · split at executed
    · obtain ⟨_, rfl⟩ := Prod.mk.inj (Option.some.inj executed)
      rfl
    · contradiction
  · cases c with
    | passwordResetCreate | passwordResetUse | passwordResetDelete => contradiction
    | _ =>
      simp only [execTotal, Store.createUser, Store.affected, Store.updateUser, Store.setEmailOtps,
        Store.revokeMany, Store.setRefreshTokens] at executed
      repeat' split at executed
      all_goals first
        | contradiction
        | (obtain ⟨_, rfl⟩ := Prod.mk.inj (Option.some.inj executed); rfl)
        | (obtain ⟨_, _, both⟩ := Option.map_eq_some_iff.mp executed
           obtain ⟨_, rfl⟩ := Prod.mk.inj both; rfl)

end Commands

section Runs

variable {pool : ResetPool} {t : Nat} {th : ResetThread} {id code : String}

abbrev Resets (pool : ResetPool) : Prop := resetSystem.Reachable ConsumesAlone (fun _ => True) pool

theorem along_resets (q : ResetCall) : Along (ResetPoint q.code) ResetEnd [] (resetSystem.body q) :=
  along_forgotPasswordReset

theorem reset_point {c : Cmd} (reachable : Resets pool) (found : pool.thread? t = some th)
    (next : th.next? = some c) :
    ResetPoint th.request.code th.trace c :=
  reachable.point (P := fun q => ResetPoint q.code) (R := fun _ => ResetEnd) along_resets found next

/-- The row that a call has read is one of the account. -/
theorem read_row {row : PasswordReset} (reachable : Resets pool) (found : pool.thread? t = some th)
    (read : HasVerified th.request.code id th.trace row) : row.userId = id := by
  have shown :=
    System.Reachable.seen (P := fun _ _ (e : Ev) => ∀ (id : String) (row : PasswordReset),
    e = ⟨.passwordResetFindFirst { userId := some id, used := some true }, .ok (some row)⟩ →
    row.userId = id)
    reachable found read.2.2 ?_ ?_ ?_
  · exact shown id row rfl
  · rintro pool t choice th c r s _ _ _ executed id row same
    cases same
    have holds := (exec_passwordResetFindFirst executed).2
    simp only [PasswordResetWhere.holds, Option.all_some, Bool.and_eq_true, beq_iff_eq] at holds
    exact holds.1.1.symm
  · exact fun _ _ _ _ _ _ _ _ holds => holds
  · exact fun _ _ _ _ _ _ holds => holds

/-- After it has set a password, a call deletes the row it has read. -/
theorem deleting_of_justSet (reachable : Resets pool) (found : pool.thread? t = some th)
    (just : JustSet id th.trace) :
    ∃ row, HasVerified th.request.code id th.trace row ∧ deleting? th = some row.id := by
  cases ended : th.result? with
  | none =>
    obtain ⟨c, next⟩ := Thread.next?_some ended
    obtain ⟨row, read, rfl⟩ := (reset_point reachable found next).next id just
    exact ⟨row, read, by rw [deleting?, next]; rfl⟩
  | some r =>
    have settled := (reachable.returned (P := fun q => ResetPoint q.code)
        (R := fun _ => ResetEnd) along_resets found
      ended).settled
    exact absurd just (settled id)

theorem deleting?_some {reset : String} (deleting : deleting? th = some reset) :
    th.next? = some (.passwordResetDelete reset) := by
  obtain ⟨c, next, same⟩ := Option.bind_eq_some_iff.mp deleting
  split at same
  · cases same
    exact next
  · contradiction

/-- Only a call that has just set a password deletes. -/
theorem justSet_of_deleting {reset : String} (reachable : Resets pool)
    (found : pool.thread? t = some th) (deleting : deleting? th = some reset) :
    ∃ id, JustSet id th.trace :=
  (reset_point reachable found (deleting?_some deleting)).writes rfl

/-- What becomes of the code of a call that has set a password: its row is deleted next, and
is the only one with the code, or there is none. -/
def Consumes (s : Store) (th : ResetThread) (id code : String) : Prop :=
  (∃ row, deleting? th = some row.id ∧ row.userId = id ∧ row.tokenHash.plain = code ∧ Sole s row) ∨
    deleting? th = none ∧ ∀ row ∈ s.db.passwordResets.rows, row.userId = id →
    row.tokenHash.plain ≠ code

structure Consumed (pool : ResetPool) : Prop where
  sole : ∀ t u th uth reset, pool.thread? t = some th → pool.thread? u = some uth →
    deleting? th = some reset → deleting? uth = some reset → t = u
  consumes : ∀ t th id code, pool.thread? t = some th → th.request.code = some code →
    SetsPassword id th.trace → Consumes pool.store th id code
  once : ∀ id code t u th uth, pool.thread? t = some th → pool.thread? u = some uth →
    th.request.code = some code →
    uth.request.code = some code → SetsPassword id th.trace → SetsPassword id uth.trace → t = u

/-- What a call sees of the store once reset rows have been lost. -/
theorem Consumes.shrink {s s' : Store} {th : ResetThread} (consumes : Consumes s th id code)
    (lost : ∀ row ∈ s'.db.passwordResets.rows, row ∈ s.db.passwordResets.rows)
    (kept : ∀ row ∈ s.db.passwordResets.rows, deleting? th = some row.id →
      row ∈ s'.db.passwordResets.rows) :
    Consumes s' th id code := by
  obtain ⟨row, deleting, owner, plain, stored, only⟩ | ⟨idle, none⟩ := consumes
  · exact .inl ⟨row, deleting, owner, plain, kept row stored deleting, fun other found =>
      only other (lost other found)⟩
  · exact .inr ⟨idle, fun row found => none row (lost row found)⟩

section Step

variable {c : Cmd} {r : Except Exn c.Resp} {s : Store} {choice : Choice} {th' : ResetThread}

/-- A step that sets no password and is followed by no deletion. Whoever deletes afterwards
did so before, and the code of its own call is used up. -/
theorem Consumed.other (inv : Consumed pool) (found : pool.thread? t = some th)
    (same : th'.request = th.request) (sets : ∀ id, SetsPassword id th'.trace ↔
      SetsPassword id th.trace) (idle : deleting? th' = none)
    (lost : ∀ row ∈ s.db.passwordResets.rows, row ∈ pool.store.db.passwordResets.rows)
    (kept : ∀ u uth row, u ≠ t → pool.thread? u = some uth → deleting? uth = some row.id →
      row ∈ pool.store.db.passwordResets.rows → row ∈ s.db.passwordResets.rows)
    (used : ∀ id code, th.request.code = some code → SetsPassword id th.trace →
      ∀ row ∈ s.db.passwordResets.rows, row.userId = id → row.tokenHash.plain ≠ code) :
    Consumed (({ pool with store := s } : ResetPool).set t th') := by
  constructor
  · intro u v uth vth reset uFound vFound uDeletes vDeletes
    obtain ⟨rfl, rfl⟩ | ⟨_, uFound⟩ := Pool.set_cases uFound
    · rw [idle] at uDeletes
      contradiction
    · obtain ⟨rfl, rfl⟩ | ⟨_, vFound⟩ := Pool.set_cases vFound
      · rw [idle] at vDeletes
        contradiction
      · exact inv.sole u v uth vth reset uFound vFound uDeletes vDeletes
  · intro u uth id code uFound coded set
    obtain ⟨rfl, rfl⟩ | ⟨other, uFound⟩ := Pool.set_cases uFound
    · exact .inr ⟨idle, used id code (same ▸ coded) ((sets id).mp set)⟩
    · exact (inv.consumes u uth id code uFound coded set).shrink lost fun row stored deleting =>
        kept u uth row other uFound deleting stored
  · intro id code u v uth vth uFound vFound uCoded vCoded uSet vSet
    have back : ∀ u uth, (({ pool with store := s } : ResetPool).set t th').thread? u = some uth →
        uth.request.code = some code → SetsPassword id uth.trace →
        ∃ old, pool.thread? u = some old ∧ old.request.code = some code ∧
        SetsPassword id old.trace := by
      intro u uth uFound coded set
      obtain ⟨rfl, rfl⟩ | ⟨_, uFound⟩ := Pool.set_cases uFound
      · exact ⟨th, found, same ▸ coded, (sets id).mp set⟩
      · exact ⟨uth, uFound, coded, set⟩
    obtain ⟨uOld, uFound, uCoded, uSet⟩ := back u uth uFound uCoded uSet
    obtain ⟨vOld, vFound, vCoded, vSet⟩ := back v vth vFound vCoded vSet
    exact inv.once id code u v uOld vOld uFound vFound uCoded vCoded uSet vSet

/-- The step that sets the password. -/
theorem Consumed.set {row : PasswordReset} (inv : Consumed pool) (found : pool.thread? t = some th)
    (same : th'.request = th.request) (coded : th.request.code = some row.tokenHash.plain)
    (sets : ∀ id, SetsPassword id th'.trace → id = row.userId)
    (resets : s.db.passwordResets = pool.store.db.passwordResets)
    (deleting : deleting? th' = some row.id) (alone : Sole pool.store row)
    (others : ∀ uth ∈ pool.others t, deleting? uth ≠ some row.id) :
    Consumed (({ pool with store := s } : ResetPool).set t th') := by
  have unused : ∀ u uth code, u ≠ t → pool.thread? u = some uth → uth.request.code = some code →
      row.tokenHash.plain = code → ¬ SetsPassword row.userId uth.trace := by
    rintro u uth _ other uFound uCoded rfl uSet
    obtain ⟨row', uDeletes, owner, plain, stored, only⟩ | ⟨-, none⟩ :=
      inv.consumes u uth _ _ uFound uCoded uSet
    · obtain rfl := only row alone.1 owner.symm plain.symm
      exact others uth (Pool.mem_others uFound other) uDeletes
    · exact none row alone.1 rfl rfl
  constructor
  · intro u v uth vth reset uFound vFound uDeletes vDeletes
    obtain ⟨rfl, rfl⟩ | ⟨uOther, uOld⟩ := Pool.set_cases uFound
    · obtain ⟨rfl, rfl⟩ | ⟨vOther, vOld⟩ := Pool.set_cases vFound
      · rfl
      · cases deleting.symm.trans uDeletes
        exact absurd vDeletes (others vth (Pool.mem_others vOld vOther))
    · obtain ⟨rfl, rfl⟩ | ⟨_, vOld⟩ := Pool.set_cases vFound
      · cases deleting.symm.trans vDeletes
        exact absurd uDeletes (others uth (Pool.mem_others uOld uOther))
      · exact inv.sole u v uth vth reset uOld vOld uDeletes vDeletes
  · intro u uth id code uFound uCoded uSet
    obtain ⟨rfl, rfl⟩ | ⟨other, uFound⟩ := Pool.set_cases uFound
    · obtain rfl := sets id uSet
      cases (same ▸ uCoded).symm.trans coded
      exact .inl ⟨row, deleting, rfl, rfl, by rw [Sole, Pool.set_store, resets]; exact alone⟩
    · refine (inv.consumes u uth id code uFound uCoded uSet).shrink ?_ ?_
      · exact fun row stored => resets ▸ stored
      · exact fun row stored _ => resets.symm ▸ stored
  · intro id code u v uth vth uFound vFound uCoded vCoded uSet vSet
    obtain ⟨rfl, rfl⟩ | ⟨uOther, uOld⟩ := Pool.set_cases uFound
    · obtain ⟨rfl, rfl⟩ | ⟨vOther, vOld⟩ := Pool.set_cases vFound
      · rfl
      · obtain rfl := sets id uSet
        have plain := Option.some.inj (coded.symm.trans (same ▸ uCoded))
        exact absurd vSet (unused v vth code vOther vOld vCoded plain)
    · obtain ⟨rfl, rfl⟩ | ⟨_, vOld⟩ := Pool.set_cases vFound
      · obtain rfl := sets id vSet
        have plain := Option.some.inj (coded.symm.trans (same ▸ vCoded))
        exact absurd uSet (unused u uth code uOther uOld uCoded plain)
      · exact inv.once id code u v uth vth uOld vOld uCoded vCoded uSet vSet

end Step

/-- The deletion that is due finds its row. -/
theorem Consumed.due {reset : String} (inv : Consumed pool) (reachable : Resets pool)
    (found : pool.thread? t = some th) (deleting : deleting? th = some reset) :
    ∃ row, row.id = reset ∧ Sole pool.store row ∧
      ∀ id code, th.request.code = some code → SetsPassword id th.trace → row.userId = id ∧
      row.tokenHash.plain = code := by
  obtain ⟨id, just⟩ := justSet_of_deleting reachable found deleting
  obtain ⟨row, read, -⟩ := deleting_of_justSet reachable found just
  obtain ⟨hash, before, trace⟩ := just
  have set : SetsPassword id th.trace := ⟨hash, trace ▸ List.mem_cons_self⟩
  have consumes : ∀ id code, th.request.code = some code → SetsPassword id th.trace →
      ∃ row, row.id = reset ∧ row.userId = id ∧ row.tokenHash.plain = code ∧
      Sole pool.store row := by
    intro id code coded set
    obtain ⟨row, deletes, rest⟩ | ⟨idle, -⟩ := inv.consumes t th id code found coded set
    · exact ⟨row, (Option.some.inj (deleting.symm.trans deletes)).symm, rest⟩
    · rw [deleting] at idle
      contradiction
  obtain ⟨row, same, -, -, alone⟩ := consumes id _ read.2.1 set
  refine ⟨row, same, alone, fun id' code' coded' set' => ?_⟩
  obtain ⟨row', same', owner, plain, alone'⟩ := consumes id' code' coded' set'
  obtain rfl : row' = row := Table.eq_of_key alone'.1 alone.1 (same'.trans same.symm)
  exact ⟨owner, plain⟩

/-- In every run that meets the condition, codes are consumed one call at a time. -/
theorem consumed_run (reachable : Resets pool) : Consumed pool := by
  refine System.Reachable.invariant (P := Consumed) reachable ?_ ?_
  · intro s _
    constructor
    · rintro t u th uth reset ⟨⟩
    · rintro t th id code ⟨⟩
    · rintro id code t u th uth ⟨⟩
  · intro pool label pool' before after inv met effect
    cases effect with
    | act a s acted =>
      have resets : s.db.passwordResets = pool.store.db.passwordResets := by
        cases a <;> cases Option.some.inj acted <;> rfl
      refine ⟨inv.sole, fun t th id code found coded set => ?_, inv.once⟩
      exact (inv.consumes t th id code found coded set).shrink (fun row stored => resets ▸ stored)
        fun row stored _ => resets.symm ▸ stored
    | spawn q =>
      have old : ∀ {u uth}, (pool.add ⟨q, [], resetSystem.body q⟩).thread? u = some uth →
          (∃ reset, deleting? uth = some reset) ∨ (∃ id, SetsPassword id uth.trace) →
          pool.thread? u = some uth := by
        intro u uth found active
        obtain ⟨-, rfl⟩ | earlier := Pool.add_cases found
        · rcases active with ⟨reset, deleting⟩ | ⟨id, hash, set⟩
          · obtain ⟨id, hash, before, empty⟩ := justSet_of_deleting after found deleting
            contradiction
          · contradiction
        · exact earlier
      constructor
      · exact fun t u th uth reset tFound uFound tDeletes uDeletes =>
          inv.sole t u th uth reset (old tFound (.inl ⟨_, tDeletes⟩))
            (old uFound (.inl ⟨_, uDeletes⟩)) tDeletes uDeletes
      · exact fun t th id code found coded set =>
          inv.consumes t th id code (old found (.inr ⟨id, set⟩)) coded set
      · exact fun id code t u th uth tFound uFound tCoded uCoded tSet uSet =>
          inv.once id code t u th uth (old tFound (.inr ⟨id, tSet⟩))
            (old uFound (.inr ⟨id, uSet⟩)) tCoded uCoded tSet uSet
    | run t choice th c k r s found awaits executed =>
      have next : th.next? = some c := by rw [Thread.next?, awaits]
      have self : (({ pool with store := s } : ResetPool).set t ⟨th.request, ⟨c, r⟩ :: th.trace,
          k r⟩).thread? t = _ := Pool.set_self _ found
      have point := reset_point before found next
      have cond := met th found c next
      have idle : (∀ id, ¬ JustSet id (⟨c, r⟩ :: th.trace)) →
          deleting? ⟨th.request, ⟨c, r⟩ :: th.trace, k r⟩ = none := by
        intro past
        cases deleting : deleting? ⟨th.request, ⟨c, r⟩ :: th.trace, k r⟩ with
        | none => rfl
        | some reset =>
          obtain ⟨id, just⟩ := justSet_of_deleting after self deleting
          exact absurd just (past id)
      by_cases deletes : ∃ reset, c = .passwordResetDelete reset
      · obtain ⟨reset, rfl⟩ := deletes
        obtain ⟨row, rfl, alone, own⟩ := inv.due before found (by rw [deleting?, next]; rfl)
        obtain ⟨-, -, -, rows⟩ := exec_passwordResetDelete alone.1 executed cond
        refine inv.other found rfl (fun id => setsPassword_cons rfl)
          (idle (not_justSet rfl)) ?_ ?_ ?_
        · exact fun row stored => ((rows row).mp stored).1
        · intro u uth row' other uFound uDeletes stored
          refine (rows row').mpr ⟨stored, fun same => other ?_⟩
          exact inv.sole u t uth th row.id uFound found (same ▸ uDeletes)
            (by rw [deleting?, next]; rfl)
        · rintro id code coded set row' stored rfl rfl
          obtain ⟨owner, plain⟩ := own _ _ coded set
          obtain ⟨stored, other⟩ := (rows row').mp stored
          exact other (congrArg _ (alone.2 row' stored owner.symm plain.symm))
      · by_cases sets : ∃ id hash, (⟨c, r⟩ : Ev) = ⟨.userSetPassword id hash, .ok ()⟩
        · obtain ⟨id, hash, same⟩ := sets
          cases same
          obtain ⟨⟨row, read⟩, unset⟩ := point.sets id hash rfl
          obtain ⟨alone, others⟩ := cond (exec_answered executed) row read.1
          obtain ⟨row', read', deleting⟩ := deleting_of_justSet after self ⟨hash, th.trace, rfl⟩
          obtain rfl : row = row' := Option.some.inj (read.1.symm.trans read'.1)
          obtain rfl := read_row before found read
          refine inv.set found rfl read.2.1 ?_ (exec_resets executed rfl) deleting alone others
          rintro id ⟨hash', setting⟩
          rcases List.mem_cons.mp setting with same | earlier
          · cases same
            rfl
          · exact absurd ⟨hash', earlier⟩ (unset id)
        · have past : ∀ id, ¬ JustSet id (⟨c, r⟩ :: th.trace) := by
            rintro id ⟨hash, _, same⟩
            exact sets ⟨id, hash, (List.cons.inj same).1⟩
          have reads : c.writesResets = false := by
            cases writing : c.writesResets with
            | false => rfl
            | true =>
              obtain ⟨id, just⟩ := point.writes writing
              obtain ⟨row, -, same⟩ := point.next id just
              exact absurd ⟨row.id, same⟩ deletes
          have resets := exec_resets executed reads
          refine inv.other found rfl (fun id => ⟨?_, ?_⟩) (idle past) ?_ ?_ ?_
          · rintro ⟨hash, set⟩
            rcases List.mem_cons.mp set with same | earlier
            · exact absurd ⟨id, hash, same.symm⟩ sets
            · exact ⟨hash, earlier⟩
          · rintro ⟨hash, set⟩
            exact ⟨hash, List.mem_cons_of_mem _ set⟩
          · exact fun row stored => resets ▸ stored
          · exact fun _ _ row _ _ _ stored => resets.symm ▸ stored
          · intro id code coded set row stored owner
            obtain ⟨row', due, -⟩ | ⟨-, none⟩ := inv.consumes t th id code found coded set
            · exact absurd ⟨row'.id, Option.some.inj (next.symm.trans (deleting?_some due))⟩ deletes
            · exact none row (resets ▸ stored) owner

/-- No command that follows the password is rejected. -/
theorem finishes_ok {e : Ev} (reachable : Resets pool) (found : pool.thread? t = some th)
    (executed : e ∈ th.trace) (finishing : e.cmd.finishes = true) : e.resp.isOk = true := by
  refine System.Reachable.witnessed (P := fun _ _ (e : Ev) => e.cmd.finishes = true →
    e.resp.isOk = true) reachable found
    executed ?_ ?_ finishing
  · intro pool t choice th c r s before found next met executed finishing
    have cond := met th found c next
    cases c with
    | passwordResetDelete reset =>
      obtain ⟨row, rfl, alone, -⟩ :=
        (consumed_run before).due before found (by rw [deleting?, next]; rfl)
      rw [(exec_passwordResetDelete alone.1 executed cond).1]
      rfl
    | now =>
      have executed : exec .now choice pool.store = some (r, s) := executed
      unfold exec at executed
      split at executed
      · contradiction
      · obtain ⟨rfl, -⟩ := Prod.mk.inj (Option.some.inj executed)
        rfl
    | refreshTokenRevokeMany w revokedAt =>
      have answered : choice.fault = false := cond
      have executed : exec (.refreshTokenRevokeMany w revokedAt) choice pool.store = some (r, s) :=
        executed
      simp only [exec, answered, Bool.false_eq_true, if_false] at executed
      obtain ⟨rfl, -⟩ := Prod.mk.inj (Option.some.inj executed)
      rfl
    | _ => contradiction
  · exact fun _ _ _ _ _ _ _ _ holds => holds

/-- A reset code is one-time, and a reset that throws has changed nothing, in every run whose
steps meet the condition. -/
theorem reset_code_one_time (reachable : Resets pool) : OneTime pool where
  once := (consumed_run reachable).once
  failed t th e id found ended set := by
    have ending := reachable.returned (P := fun q => ResetPoint q.code)
        (R := fun _ => ResetEnd) along_resets found ended
    obtain ⟨e, executed, finishing, rejected⟩ := ending.failed _ id rfl set
    exact absurd ((finishes_ok reachable found executed finishing).symm.trans rejected) (by decide)

end Runs

section Sample

instance aloneAtDecidable (pool : ResetPool) (t : Nat) (choice : Choice)
    (trace : List Ev) (c : Cmd) :
    Decidable (AloneAt pool t choice trace c) := by
  unfold AloneAt
  split <;> infer_instance

instance (pool : ResetPool) : (label : ResetStep) → Decidable (ConsumesAlone pool label)
  | .run t choice =>
    have (th : ResetThread) (c : Cmd) : Decidable (AloneAt pool t choice th.trace c) :=
      aloneAtDecidable pool t choice th.trace c
    inferInstanceAs (Decidable (∀ th ∈ pool.thread? t, ∀ c ∈ th.next?,
      AloneAt pool t choice th.trace c))
  | .spawn _ | .act _ => isTrue trivial

/-- A user with a verified reset row for the code `k3x9`. -/
def verifiedStore : Store where
  db := {
    users := ⟨[{ id := aliceId, email := "alice@mail.com", passwordHash := ⟨argonSalt0, "Secret123"⟩
                 createdAt := 0 }], by decide⟩
    passwordResets := ⟨[{ id := resetId1, userId := aliceId, tokenHash := ⟨argonSalt1, "k3x9"⟩
                          expiresAt := 900000, used := true }],
      by decide⟩ }

def resetTo (password : String) : ResetCall :=
  { email := some "alice@mail.com", code := some "k3x9", password := some password }

/-- The next commands of a call, none of them rejected. -/
def moves (t n : Nat) : List ResetStep := List.replicate n (.run t (default : Choice))

/-- Two calls start, and then the commands of these calls run. -/
def twoCalls (commands : List ResetStep) : List ResetStep :=
  .spawn (resetTo "first") :: .spawn (resetTo "second") :: commands

/-- The call has set the password of `u1` with the code. -/
def reused (pool : ResetPool) (t : Nat) : Bool :=
  (pool.thread? t).any fun th => th.request.code = some "k3x9" &&
    decide (SetsPassword aliceId th.trace)

theorem reused_thread {pool : ResetPool} {t : Nat} (used : reused pool t = true) :
    ∃ th, pool.thread? t = some th ∧ th.request.code = some "k3x9" ∧
    SetsPassword aliceId th.trace := by
  obtain ⟨th, found, both⟩ := (Option.any_eq_true _ _).mp used
  simp only [Bool.and_eq_true, decide_eq_true_eq] at both
  exact ⟨th, found, both⟩

/-- Two calls read the row before either deletes it, and both set the password. -/
theorem code_used_twice : ¬ ∀ pool, resetSystem.Reachable System.Any (fun _ => True) pool →
    OneTime pool := by
  intro oneTime
  have tested : (resetSystem.replay System.Any (System.idle verifiedStore)
      (twoCalls (moves 0 3 ++ moves 1 3 ++ moves 0 4 ++ moves 1 2))).any
        (fun pool => reused pool 0 && reused pool 1) = true := by
    decide +kernel
  obtain ⟨pool, run, passed⟩ := System.run_of_replay tested
  obtain ⟨first, second⟩ := (Bool.and_eq_true _ _).mp passed
  obtain ⟨th, found, coded, set⟩ := reused_thread first
  obtain ⟨th', found', coded', set'⟩ := reused_thread second
  exact absurd ((oneTime pool ⟨_, trivial, run⟩).once aliceId "k3x9" 0 1 th th' found found' coded
    coded' set set') (by decide)

/-- Two calls that do not overlap after they have read the row. The second one throws. -/
theorem code_used_once : ∃ pool, Resets pool ∧ reused pool 0 = true ∧
    (pool.thread? 1).any (fun th => th.result?.any fun r => !r.isOk) = true ∧ OneTime pool := by
  have tested : (resetSystem.replay ConsumesAlone (System.idle verifiedStore)
      (twoCalls (moves 0 7 ++ moves 1 2))).any (fun pool => reused pool 0 &&
        (pool.thread? 1).any (fun th => th.result?.any fun r => !r.isOk)) = true := by
    decide +kernel
  obtain ⟨pool, run, passed⟩ := System.run_of_replay tested
  obtain ⟨first, second⟩ := (Bool.and_eq_true _ _).mp passed
  have reachable : Resets pool := ⟨_, trivial, run⟩
  exact ⟨pool, reachable, first, second, reset_code_one_time reachable⟩

end Sample
end CorePlatform.Auth
