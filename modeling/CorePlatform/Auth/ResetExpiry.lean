import CorePlatform.Async.Journal
import CorePlatform.Auth.Bodies
import CorePlatform.Auth.ResetCodes

/-! Reset codes over time. The expiry of a code is checked when it is verified; the password may
be changed at any later time. -/
namespace CorePlatform.Auth
open Async Relational

inductive CodeCall where
  | createPasswordReset (userId : String)
  | verifyPasswordReset (userId : String) (code : Option String)
  | resetPassword (userId : String) (password code : Option String)

def CodeCall.body (cfg : Config) : CodeCall → Action Bool
  | .createPasswordReset userId => do
    let _ ← UsersService.createPasswordReset cfg userId
    return true
  | .verifyPasswordReset userId code => UsersService.verifyPasswordReset userId code
  | .resetPassword userId password code => UsersService.resetPassword userId password code

/-- The calls on reset codes, while time passes. -/
@[reducible] def codeSystem (cfg : Config) : System Api Exn CodeCall Bool Store where
  toSemantics := semantics
  body := CodeCall.body cfg
  Act := Nat
  act ms s := some { s with now := s.now + ms }

/-- A run starts in any state. -/
abbrev AnyStore (_ : Store) : Prop := True

abbrev CodeJournal := Journal Api Exn Store
abbrev CodePool := Pool Api Exn CodeCall Bool Store

/-- The user whose password a command sets. -/
def Cmd.setsPasswordOf? : Cmd → Option String
  | .userSetPassword id _ => some id
  | _ => none

/-- The code a reset is called with. -/
def CodeCall.code? : CodeCall → Option String
  | .resetPassword _ _ code => code
  | _ => none

/-- The query of `resetPassword` has picked this row of the user. -/
def picks (userId : String) (row : PasswordReset) : Ev :=
  ⟨.passwordResetFindFirst { userId := some userId, used := some true }, .ok (some row)⟩

def readsResets : Cmd → Bool
  | .passwordResetFindFirst _ => true
  | _ => false

/-- A call that changes a password has picked a row with the submitted code, which has not
expired. -/
def ChangesUnexpired (journal : CodeJournal) (pool : CodePool) : Prop :=
  ∀ entry ∈ journal, entry.event.resp.isOk = true → ∀ userId ∈ entry.event.cmd.setsPasswordOf?,
    ∃ th password code, pool.thread? entry.call = some th ∧
    th.request = .resetPassword userId password (some code) ∧
      ∃ picked ∈ journal, picked.call = entry.call ∧ ∃ row, picked.event = picks userId row ∧
        Confirms code row ∧ entry.before.now < row.expiresAt

/-- No row of the store that a reset with the code could pick has expired at `now`. -/
def NoneExpired (userId code : String) (now : Nat) (s : Store) : Prop :=
  ∀ row ∈ s.db.passwordResets.rows, row.userId = userId ∧ row.used = true ∧ Confirms code row →
    now < row.expiresAt

instance (userId code : String) (now : Nat) (s : Store) :
    Decidable (NoneExpired userId code now s) :=
  inferInstanceAs (Decidable (∀ row ∈ s.db.passwordResets.rows,
    row.userId = userId ∧ row.used = true ∧ Confirms code row → now < row.expiresAt))

/-- When a password is set, no redeemed row with the submitted code that was there at the call's
query has expired. -/
def CodesUnexpired (journal : CodeJournal) (pool : CodePool) :
    Option (Entry Api Exn Store) → CodePool → Prop
  | some entry, _ =>
      ∀ userId ∈ entry.event.cmd.setsPasswordOf?, ∀ th ∈ pool.thread? entry.call,
      ∀ code ∈ th.request.code?,
    ∀ picked ∈ journal, picked.call = entry.call ∧ readsResets picked.event.cmd = true →
      NoneExpired userId code entry.before.now picked.before
  | none, _ => True

instance (journal : CodeJournal) (pool : CodePool) :
    (entry : Option (Entry Api Exn Store)) → (pool' : CodePool) →
    Decidable (CodesUnexpired journal pool entry pool')
  | some entry, _ => inferInstanceAs (Decidable (∀ userId ∈ entry.event.cmd.setsPasswordOf?,
      ∀ th ∈ pool.thread? entry.call, ∀ code ∈ th.request.code?,
      ∀ picked ∈ journal, picked.call = entry.call ∧ readsResets picked.event.cmd = true →
        NoneExpired userId code entry.before.now picked.before))
  | none, _ => .isTrue trivial

section Bodies

variable {cfg : Config} {userId : String} {password code : Option String} {trace : List Ev}

/-- Where a call sets a password, it has picked a row with the submitted code. -/
def setPoint (q : CodeCall) (trace : List Ev) (c : Cmd) : Prop :=
  ∀ userId ∈ c.setsPasswordOf?, ∃ password code row,
    q = .resetPassword userId password (some code) ∧ picks userId row ∈ trace ∧ Confirms code row

def Passive (c : Cmd) : Prop := c.setsPasswordOf? = none

theorem setPoint_passive {q : CodeCall} {c : Cmd} (passive : Passive c) : setPoint q trace c := by
  intro userId sets
  rw [passive] at sets
  contradiction

theorem uses_createPasswordReset : (UsersService.createPasswordReset cfg userId).Uses Passive := by
  have encrypts : ∀ plainText, (encryptText cfg plainText).Uses Passive := by
    intro plainText
    refine Prog.Uses.bind ?_ fun _ => ⟨rfl, fun r => ?_⟩
    · unfold getEncryptKey
      split <;> trivial
    · cases r with
      | error e => trivial
      | ok salt => exact ⟨rfl, fun r => by cases r <;> trivial⟩
  refine Prog.Uses.bind (Prog.Uses.bind ⟨rfl, fun _ => trivial⟩ fun _ => trivial) fun token => ?_
  refine Prog.Uses.bind (Prog.Uses.bind ⟨rfl, fun _ => trivial⟩ fun _ => trivial) fun hash => ?_
  refine Prog.Uses.bind (encrypts _) fun _ => Prog.Uses.bind ⟨rfl, fun _ => trivial⟩ fun now => ?_
  refine Prog.Uses.bind ⟨rfl, fun _ => trivial⟩ fun _ =>
    Prog.Uses.bind ⟨rfl, fun _ => trivial⟩ fun _ => trivial

theorem uses_verifyPasswordReset : (UsersService.verifyPasswordReset userId code).Uses Passive := by
  refine uses_step rfl fun now => uses_step rfl fun found => ?_
  cases found with
  | none => trivial
  | some row =>
    refine Prog.Uses.bind ?_ fun verified => ?_
    · cases code <;> trivial
    · cases verified
      · trivial
      · exact uses_step rfl fun _ => trivial

theorem along_resetPassword : Along (setPoint (.resetPassword userId password code))
    (fun _ _ => True) [] (UsersService.resetPassword userId password code) := by
  refine along_await_bind (setPoint_passive rfl) (fun _ _ => trivial) fun found => ?_
  cases found with
  | none => trivial
  | some row =>
    cases code with
    | none => trivial
    | some code =>
      simp only [verifyHash, Prog.pure_eq, Prog.bind_ok]
      by_cases verified : Confirms code row
      · have accepted := verified
        rw [Confirms] at accepted
        simp only [accepted, Bool.not_true, Bool.false_eq_true, if_false]
        cases password with
        | none => trivial
        | some password =>
          refine along_bind.mpr (along_await_bind (setPoint_passive rfl)
            (fun _ _ => trivial) fun salt => ?_)
          rw [Prog.pure_eq, along_done]
          refine along_await_bind ?_ (fun _ _ => trivial) fun _ => ?_
          · intro id sets
            cases Option.some.inj sets
            exact ⟨_, code, row, rfl, List.mem_cons_of_mem _ List.mem_cons_self, verified⟩
          · exact along_await_bind (setPoint_passive rfl) (fun _ _ => trivial) fun _ => trivial
      · rw [Confirms, Bool.not_eq_true] at verified
        simp only [verified, Bool.not_false, if_true]
        trivial

theorem along_resetBody (q : CodeCall) : Along (setPoint q) (fun _ _ => True) [] (q.body cfg) := by
  have passive : ∀ {p : Action Bool}, p.Uses Passive →
      Along (setPoint q) (fun _ _ => True) [] p := by
    intro p uses
    have points : Along (fun _ c => Passive c) (fun _ _ => True) [] p := uses.along
    exact points.mono (fun _ c passive => setPoint_passive passive) fun _ _ _ => trivial
  cases q with
  | createPasswordReset userId =>
      exact passive (Prog.Uses.bind uses_createPasswordReset fun _ => trivial)
  | verifyPasswordReset userId code => exact passive uses_verifyPasswordReset
  | resetPassword userId password code => exact along_resetPassword

end Bodies

/-- In every run in which no code in use has expired when a password is set, each change of a
password used a code that had not expired. -/
theorem reset_codes_expire {cfg : Config} {journal : CodeJournal} {pool : CodePool}
    (recorded : (codeSystem cfg).Recorded CodesUnexpired AnyStore journal pool) :
    ChangesUnexpired journal pool := by
  intro entry member answered userId sets
  obtain ⟨later, earlier, rfl⟩ := List.append_of_mem member
  obtain ⟨before, next, th, th', recorded', met, found, awaits, now, request⟩ := recorded.met
  obtain ⟨password, code, row, asked, read, verified⟩ :=
    recorded'.reachable.point along_resetBody found awaits userId sets
  obtain ⟨picked, inEarlier, own, event⟩ := (recorded'.mem_trace found).mp read
  obtain ⟨choice, executed⟩ := recorded'.executed inEarlier
  have there : row ∈ picked.before.db.passwordResets.rows ∧ row.userId = userId ∧
      row.used = true := by
    rw [event] at executed
    obtain ⟨inTable, holds⟩ := exec_passwordResetFindFirst executed
    exact ⟨inTable, holds_redeemed.mp holds⟩
  refine ⟨th', password, code, now, request.trans asked, picked, ?_, own, row, event, verified, ?_⟩
  · exact List.mem_append_right _ (List.mem_cons_of_mem _ inEarlier)
  · have submitted : th.request.code? = some code := by rw [asked, CodeCall.code?]
    have reads : readsResets picked.event.cmd = true := by rw [event, picks, readsResets]
    exact met userId sets th found code submitted picked inEarlier ⟨own, reads⟩ row there.1
      ⟨there.2.1, there.2.2, verified⟩

section Sample

def resetCalls (n : Nat) (t : Nat) : List (Label CodeCall Choice Nat) :=
  List.replicate n (.run t { draw := "k3x9" })

/-- A code is requested and verified, and some time later used. -/
def resetLabels (pause : Nat) : List (Label CodeCall Choice Nat) :=
  .spawn (.createPasswordReset aliceId) :: resetCalls 7 0 ++
    .spawn (.verifyPasswordReset aliceId (some "k3x9")) :: resetCalls 3 1 ++
    .act pause :: .spawn (.resetPassword aliceId (some "pass") (some "k3x9")) :: resetCalls 4 2

def setsPassword (entry : Entry Api Exn Store) : Bool :=
  entry.event.resp.isOk && entry.event.cmd.setsPasswordOf?.isSome

def pickedRow? (e : Ev) : Option PasswordReset :=
  match e with
  | ⟨.passwordResetFindFirst _, .ok row⟩ => row
  | _ => none

/-- An account without reset codes. -/
def unrequestedUser : User :=
  { id := aliceId, email := "alice@mail.com", passwordHash := ⟨argonSalt0, "secret"⟩
    createdAt := 0 }

def unrequested : Store where
  db := { users := ⟨[unrequestedUser], by decide⟩ }

/-- A password is changed a quarter of an hour after the code was verified. -/
theorem expired_code_used : ∃ journal pool,
    (codeSystem Config.default).Recorded System.Free AnyStore journal pool ∧
    ¬ ChangesUnexpired journal pool := by
  have tested : ((codeSystem Config.default).record System.Free [] (System.idle unrequested)
      (resetLabels codeTtl)).any
      (fun (journal, _) => journal.any fun entry => setsPassword entry && journal.all fun picked =>
        (pickedRow? picked.event).all (·.expiresAt ≤ entry.before.now)) = true := by decide +kernel
  obtain ⟨journal, pool, recorded, passed⟩ :=
    System.recorded_of_test (show AnyStore unrequested from trivial) tested
  obtain ⟨entry, member, passed⟩ := List.any_eq_true.mp passed
  simp only [setsPassword, Bool.and_eq_true, List.all_eq_true] at passed
  obtain ⟨⟨answered, sets⟩, expired⟩ := passed
  obtain ⟨userId, sets⟩ := Option.isSome_iff_exists.mp sets
  refine ⟨journal, pool, recorded, fun unexpired => ?_⟩
  obtain ⟨_, _, _, _, _, picked, inJournal, _, row, event, _, later⟩ :=
    unexpired entry member answered userId sets
  have past := expired picked inJournal
  simp only [event, pickedRow?, picks, Option.all_some, decide_eq_true_eq] at past
  omega

/-- The password is changed at once. -/
theorem reset_codes_expire_sample : ∃ journal pool,
    (codeSystem Config.default).Recorded CodesUnexpired AnyStore journal pool ∧
    (∃ entry ∈ journal, setsPassword entry = true) ∧ ChangesUnexpired journal pool := by
  have tested : ((codeSystem Config.default).record CodesUnexpired [] (System.idle unrequested)
      (resetLabels 0)).any
      (fun (journal, _) => journal.any setsPassword) = true := by decide +kernel
  obtain ⟨journal, pool, recorded, passed⟩ :=
    System.recorded_of_test (show AnyStore unrequested from trivial) tested
  exact ⟨journal, pool, recorded, List.any_eq_true.mp passed, reset_codes_expire recorded⟩

end Sample
end CorePlatform.Auth
