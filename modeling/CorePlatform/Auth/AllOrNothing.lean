import CorePlatform.Async.Record
import CorePlatform.Auth.Issuing
import CorePlatform.Auth.Registration

/-! A registration that throws. The account is inserted first; its code is stored and the payload
of its event is checked afterwards, without a transaction around the three. -/
namespace CorePlatform.Auth
open Async Relational

abbrev AuthStep := Taken semantics

/-- The accounts and their codes are as before. -/
structure SameAccounts (before after : Db) : Prop where
  users : after.users = before.users
  emailOtps : after.emailOtps = before.emailOtps

theorem SameAccounts.refl (db : Db) : SameAccounts db db := ⟨rfl, rfl⟩

theorem SameAccounts.symm {db db' : Db} (same : SameAccounts db db') : SameAccounts db' db :=
  ⟨same.users.symm, same.emailOtps.symm⟩

theorem SameAccounts.trans {db db' db'' : Db} (first : SameAccounts db db')
    (second : SameAccounts db' db'') : SameAccounts db db'' :=
  ⟨second.users.trans first.users, second.emailOtps.trans first.emailOtps⟩

/-- The database rejects the code of the new account, or inserts the account under an identifier
and an address that the schema of the event does not accept. -/
def failsAfterInsert (cfg : Config) (email : String) (step : AuthStep) : Bool :=
  match step.cmd with
  | .emailOtpUpsert .. => step.choice.fault
  | .userCreate .. => !step.choice.fault && (cfg.schemaError step.choice.draw email).isSome
  | _ => false

abbrev FailsAfterInsert (cfg : Config) (email : String) (step : AuthStep) : Prop :=
  failsAfterInsert cfg email step = true

/-- The commands before the insertion. -/
def Cmd.early : Cmd → Bool
  | .now | .userFindUnique _ | .argon2Salt | .randomCode | .randomBytes16 => true
  | _ => false

abbrev Early (c : Cmd) : Prop := c.early = true

/-- How a registration ends: before it inserts the account, in between, or complete, which is too
late for what is still to be checked. -/
inductive Registering (cfg : Config) (email : String) (db : Db) {α : Type} (unchecked : α → Prop) :
    List AuthStep → Except Exn α → Store → Prop where
  | refused (same : SameAccounts db t.db)
      (safe : ∀ step ∈ record, ¬ FailsAfterInsert cfg email step) :
      Registering cfg email db unchecked record (.error e) t
  | inserted (grown : ¬ SameAccounts db t.db)
      (late : ∃ step ∈ record, FailsAfterInsert cfg email step) :
      Registering cfg email db unchecked record (.error e) t
  | complete (grown : ¬ SameAccounts db t.db)
      (late : (∃ step ∈ record, FailsAfterInsert cfg email step) ↔ unchecked a) :
      Registering cfg email db unchecked record (.ok a) t

section Steps

variable {cfg : Config} {email : String} {s t : Store} {α β : Type}

theorem early_same {c : Cmd} {choice : Choice} {r : Except Exn c.Resp} (early : c.early = true)
    (executed : exec c choice s = some (r, t)) : SameAccounts s.db t.db := by
  have quiet : c.quiet = true := by
    cases c with
    | emailOtpUpsert | emailOtpUse | natsPublish => contradiction
    | _ => rfl
  refine ⟨?_, (exec_quiet quiet executed).1⟩
  cases exec_usersEffect executed with
  | none _ _ same => exact same
  | create | activate | setPassword => contradiction

theorem early_not_fails {step : AuthStep} (early : step.cmd.early = true) :
    ¬ FailsAfterInsert cfg email step := by
  obtain ⟨c, choice, r⟩ := step
  cases c with
  | emailOtpUpsert | userCreate => contradiction
  | _ => exact nofun

/-- A program of early commands. -/
theorem early_record (cfg : Config) (email : String) {p : Action α} (uses : p.Uses Early) :
    PostRecord semantics p s fun record _ t =>
      SameAccounts s.db t.db ∧ ∀ step ∈ record, ¬ FailsAfterInsert cfg email step := by
  induction p generalizing s with
  | done r => exact ⟨.refl s.db, fun _ found => absurd found List.not_mem_nil⟩
  | await c k ih =>
    intro choice r t executed
    refine (ih r (uses.2 r)).mono fun record _ u ⟨same, safe⟩ => ?_
    constructor
    · exact (early_same uses.1 executed).trans same
    · exact List.forall_mem_cons.mpr ⟨early_not_fails uses.1, safe⟩

theorem exists_append_safe {record record' : List AuthStep}
    (safe : ∀ step ∈ record, ¬ FailsAfterInsert cfg email step) :
    (∃ step ∈ record ++ record', FailsAfterInsert cfg email step) ↔
      ∃ step ∈ record', FailsAfterInsert cfg email step := by
  constructor
  · rintro ⟨step, member, fails⟩
    rcases List.mem_append.mp member with before | after
    · exact absurd fails (safe step before)
    · exact ⟨step, after, fails⟩
  · rintro ⟨step, member, fails⟩
    exact ⟨step, List.mem_append_right _ member, fails⟩

theorem Registering.after {db db' : Db} {unchecked : α → Prop} {record record' : List AuthStep}
    {r : Except Exn α} (same : SameAccounts db db')
    (safe : ∀ step ∈ record, ¬ FailsAfterInsert cfg email step)
    (registering : Registering cfg email db' unchecked record' r t) :
    Registering cfg email db unchecked (record ++ record') r t := by
  cases registering with
  | refused same' safe' =>
    exact .refused (same.trans same') (List.forall_mem_append.mpr ⟨safe, safe'⟩)
  | inserted grown late =>
    exact .inserted (fun unchanged => grown (same.symm.trans unchanged))
      ((exists_append_safe safe).mpr late)
  | complete grown late =>
    exact .complete (fun unchanged => grown (same.symm.trans unchanged))
      ((exists_append_safe safe).trans late)

/-- What follows a program of early commands. -/
theorem registering_bind {unchecked : β → Prop} {p : Action α} {f : α → Action β}
    (uses : p.Uses Early) (next : ∀ a t, SameAccounts s.db t.db → PostRecord semantics (f a) t
      fun record r u => Registering cfg email t.db unchecked record r u) :
    PostRecord semantics (p >>= f) s fun record r u =>
      Registering cfg email s.db unchecked record r u := by
  refine postRecord_bind.mpr ((early_record cfg email uses).mono fun record r t ⟨same, safe⟩ => ?_)
  cases r with
  | error e => exact .refused same safe
  | ok a => exact (next a t same).mono fun record' r u registering => registering.after same safe

end Steps

section Register

variable {cfg : Config} {email : String} {s t : Store}

theorem early_hashPassword {α : Type} {password : α} : (hashPassword password).Uses Early :=
  uses_step rfl fun _ => trivial

theorem early_randomCode : randomCode.Uses Early := uses_step rfl fun _ => trivial

theorem early_encryptText {plainText : String} : (encryptText cfg plainText).Uses Early := by
  refine Prog.Uses.bind ?_ fun _ => uses_step rfl fun _ => uses_step rfl fun _ => trivial
  unfold getEncryptKey
  split <;> trivial

theorem exec_upsert {userId codeHash : String} {expiresAt : Nat} {choice : Choice}
    {r : Except Exn Unit} (executed : exec (.emailOtpUpsert userId codeHash expiresAt) choice s =
      some (r, t)) :
    t.db.users = s.db.users ∧ (choice.fault = true ↔ r.isOk = false) := by
  constructor
  · cases exec_usersEffect executed with
    | none _ _ same => exact same
  · cases fault : choice.fault with
    | true =>
      simp only [exec, fault, Cmd.canFail, if_true, Option.some.injEq, Prod.mk.injEq] at executed
      obtain ⟨rfl, _⟩ := executed
      exact ⟨fun _ => rfl, fun _ => rfl⟩
    | false =>
      simp only [exec, fault, Bool.false_eq_true, if_false, execTotal] at executed
      have answered : r = .ok () := by
        split at executed
        · exact (Prod.mk.inj (Option.some.inj executed)).1.symm
        · obtain ⟨_, _, both⟩ := Option.map_eq_some_iff.mp executed
          exact (Prod.mk.inj both).1.symm
      subst answered
      constructor
      · rintro ⟨⟩
      · rintro ⟨⟩

/-- The code of an account is stored, unless the database rejects it. -/
theorem createOrUpdateEmailOtp_record (cfg : Config) (email userId codeHash : String) :
    PostRecord semantics (UsersService.createOrUpdateEmailOtp userId codeHash) s fun record r t =>
      t.db.users = s.db.users ∧
        ((∃ step ∈ record, FailsAfterInsert cfg email step) ↔ r.isOk = false) := by
  refine postRecord_command fun choice r t executed => ?_
  obtain ⟨rfl, rfl⟩ := exec_now executed
  intro choice' r u executed'
  obtain ⟨users, fault⟩ := exec_upsert executed'
  refine ⟨users, ?_⟩
  simp only [List.mem_cons, exists_eq_or_imp, List.not_mem_nil, or_false, exists_eq_left,
    FailsAfterInsert, failsAfterInsert, Bool.false_eq_true, false_or]
  exact fault

theorem exec_findFree {choice : Choice}
    (executed : exec (.userFindUnique { email := some email }) choice s = some (.ok none, t)) :
    Unregistered email s := by
  rw [exec, exec_answered executed] at executed
  rintro ⟨user, found, same⟩
  have absent := pickFrom_none (Except.ok.inj (Prod.mk.inj (Option.some.inj executed)).1)
  refine absurd (absent ▸ List.mem_filter.mpr ⟨found, ?_⟩) List.not_mem_nil
  simp [UserWhere.holds, same]

/-- The schema of the event does not accept the account. -/
def RefusedEvent (cfg : Config) (user : CreateUserResponse) : Prop :=
  (cfg.schemaError user.userId user.email).isSome = true

/-- The account is inserted and its code stored, or the database rejects one of the two. -/
theorem insert_record (cfg : Config) (passwordHash : Argon2Hash String)
    (name phone : Option String) (codeHash : String) (reply : User → CreateUserResponse)
    (same : ∀ user, (reply user).userId = user.id ∧ (reply user).email = user.email)
    (free : Unregistered email s) :
    PostRecord semantics (do
      let user ← call (.userCreate email passwordHash name phone false)
      UsersService.createOrUpdateEmailOtp user.id codeHash
      return reply user) s fun record r t =>
        Registering cfg email s.db (RefusedEvent cfg) record r t := by
  refine postRecord_command fun choice r t executed => ?_
  cases answered : choice.fault with
  | true =>
    simp only [semantics, exec, answered, Cmd.canFail, if_true, Option.some.injEq,
      Prod.mk.injEq] at executed
    obtain ⟨rfl, rfl⟩ := executed
    refine .refused (.refl _) fun step member fails => ?_
    obtain rfl := List.mem_singleton.mp member
    simp [FailsAfterInsert, failsAfterInsert, answered] at fails
  | false =>
    obtain ⟨taken, _⟩ | ⟨_, user, named, rfl, inserted, drawn⟩ := exec_userCreate answered executed
    · exact absurd taken free
    · refine postRecord_bind.mpr
        ((createOrUpdateEmailOtp_record cfg email user.id codeHash).mono
          fun record r u stored => ?_)
      obtain ⟨users, failed⟩ := stored
      have grown : ¬ SameAccounts s.db u.db := by
        intro unchanged
        have there : user ∈ t.db.users := (Table.mem_insert? inserted).mpr (.inl rfl)
        rw [← users, unchanged.users] at there
        exact free ⟨user, there, named⟩
      cases r with
      | error e =>
        obtain ⟨step, member, fails⟩ := failed.mpr rfl
        exact .inserted grown ⟨step, List.mem_cons_of_mem _ member, fails⟩
      | ok _ =>
        have stored : ¬ ∃ step ∈ record, FailsAfterInsert cfg email step :=
          fun late => absurd (failed.mp late) (by rintro ⟨⟩)
        refine .complete grown ?_
        simp only [List.append_nil, List.mem_cons, exists_eq_or_imp, or_iff_left stored]
        obtain ⟨id, address⟩ := same user
        simp only [FailsAfterInsert, failsAfterInsert, RefusedEvent, answered, Bool.not_false,
          Bool.true_and, id, address, named, drawn]

theorem SameAccounts.unregistered {email : String} (same : SameAccounts s.db t.db)
    (free : Unregistered email s) : Unregistered email t := by
  rintro ⟨user, found, named⟩
  rw [same.users] at found
  exact free ⟨user, found, named⟩

theorem create_record (cfg : Config) (dto : CreateUserDto) :
    PostRecord semantics (UsersService.create cfg dto) s fun record r t =>
      Registering cfg (normalizeEmail cfg dto.email) s.db (RefusedEvent cfg) record r t := by
  refine postRecord_command fun choice existing t executed => ?_
  have same := early_same rfl executed
  have safe : ∀ step ∈ [(⟨_, choice, existing⟩ : AuthStep)],
      ¬ FailsAfterInsert cfg (normalizeEmail cfg dto.email) step := fun step member =>
    early_not_fails (by rw [List.mem_singleton.mp member]; rfl)
  cases existing with
  | error e => exact .refused same safe
  | ok found =>
    cases found with
    | some user => exact .refused same safe
    | none =>
      have free := same.unregistered (exec_findFree executed)
      refine PostRecord.mono (P := fun record r u => Registering cfg (normalizeEmail cfg dto.email)
        t.db (RefusedEvent cfg) record r u) ?_ fun record r u rest => rest.after same safe
      refine registering_bind early_hashPassword fun passwordHash t₁ same₁ => ?_
      refine registering_bind early_randomCode fun random t₂ same₂ => ?_
      refine registering_bind early_hashPassword fun hash t₃ same₃ => ?_
      refine registering_bind early_encryptText fun code t₄ same₄ => ?_
      refine insert_record cfg passwordHash dto.name dto.phone (cfg.phc hash) _
        (fun _ => ⟨rfl, rfl⟩) ?_
      exact (((same₁.trans same₂).trans same₃).trans same₄).unregistered free

/-- The publication cannot be rejected. -/
theorem exec_publish {event : UserRegisteredEvent} {choice : Choice} {r : Except Exn Unit}
    (executed : exec (.natsPublish event) choice s = some (r, t)) : r = .ok () ∧ t.db = s.db := by
  cases fault : choice.fault with
  | true => simp [exec, fault, Cmd.canFail] at executed
  | false =>
    rw [exec, fault] at executed
    obtain ⟨rfl, rfl⟩ := Prod.mk.inj (Option.some.inj executed)
    exact ⟨rfl, rfl⟩

theorem register_record (cfg : Config) (dto : CreateUserDto) (requestId : Option String) :
    PostRecord semantics (AuthService.register cfg dto requestId) s fun record r t =>
      Registering cfg (normalizeEmail cfg dto.email) s.db (fun _ => False) record r t := by
  refine postRecord_bind.mpr ((create_record cfg dto).mono fun record r t registering => ?_)
  cases registering with
  | refused same safe => exact .refused same safe
  | inserted grown late => exact .inserted grown late
  | complete grown late =>
    rename_i user
    cases refused : cfg.schemaError user.userId user.email with
    | some message =>
      simp only [AuthService.parseEvent, refused, Prog.throw_eq, Prog.bind_error, postRecord_done,
        List.append_nil]
      exact .inserted grown (late.mpr (by simp [RefusedEvent, refused]))
    | none =>
      simp only [AuthService.parseEvent, refused, Prog.pure_eq, Prog.bind_ok]
      refine postRecord_command fun choice published u executed => ?_
      obtain ⟨rfl, same⟩ := exec_publish executed
      refine .complete (same ▸ grown) ⟨?_, False.elim⟩
      rintro ⟨step, member, fails⟩
      rcases List.mem_append.mp member with before | after
      · have refuses := late.mp ⟨step, before, fails⟩
        rw [RefusedEvent, refused] at refuses
        contradiction
      · rw [List.mem_singleton.mp after] at fails
        contradiction

/-- A registration that throws leaves the accounts and the codes as they were exactly when nothing
fails after the insertion of the account. -/
theorem register_whole_iff {cfg : Config} {dto : CreateUserDto} {requestId : Option String}
    {record : List AuthStep} {r : Except Exn RegisterResponse}
    (execution : Executes semantics (AuthService.register cfg dto requestId) s record r t) :
    (r.isOk = false → SameAccounts s.db t.db) ↔
      ∀ step ∈ record, ¬ FailsAfterInsert cfg (normalizeEmail cfg dto.email) step := by
  have registering := postRecord_iff.mp (register_record cfg dto requestId) record r t execution
  cases registering with
  | refused same safe => exact ⟨fun _ => safe, fun _ _ => same⟩
  | inserted grown late =>
    obtain ⟨step, member, fails⟩ := late
    constructor
    · exact fun whole => absurd (whole rfl) grown
    · exact fun safe => absurd fails (safe step member)
  | complete grown late =>
    constructor
    · exact fun _ step member fails => late.mp ⟨step, member, fails⟩
    · exact fun _ => nofun

end Register

section Sample

/-- An address with a letter that the `email` format of the schema does not take. -/
def umlautDto : CreateUserDto := { email := "zoë@mail.com", password := "Secret123" }

/-- The schema refuses an address whose account is in the table already. -/
theorem register_keeps_refused : ∃ record r t,
    Executes semantics (AuthService.register Config.default umlautDto none) {} record r t ∧
      r.isOk = false ∧ ¬ SameAccounts ({} : Store).db t.db := by
  have recorded : ((AuthService.register Config.default umlautDto none).record semantics {}
      [{}, {}, {}, {}, {}, {}, { draw := aliceId }, {}, { draw := otpId1 }]).any
        (fun (_, r, t) => !r.isOk && !t.db.users.rows.isEmpty) = true := by decide +kernel
  obtain ⟨record, r, t, execution, tested⟩ := executes_of_record recorded
  simp only [Bool.and_eq_true, Bool.not_eq_true'] at tested
  refine ⟨record, r, t, execution, tested.1, fun same => ?_⟩
  rw [same.users] at tested
  exact absurd tested.2 (by decide)

/-- The database rejects the insertion, and nothing is left. -/
theorem register_whole_sample : ∃ record r t,
    Executes semantics (AuthService.register Config.default umlautDto none) {} record r t ∧
      r.isOk = false ∧ SameAccounts ({} : Store).db t.db := by
  have recorded : ((AuthService.register Config.default umlautDto none).record semantics {}
      [{}, {}, {}, {}, {}, {}, { fault := true }]).any (fun (record, r, _) =>
        !r.isOk && record.all fun step =>
          !failsAfterInsert Config.default (normalizeEmail Config.default umlautDto.email) step) =
      true := by decide +kernel
  obtain ⟨record, r, t, execution, tested⟩ := executes_of_record recorded
  simp only [Bool.and_eq_true, Bool.not_eq_true', List.all_eq_true] at tested
  refine ⟨record, r, t, execution, tested.1, (register_whole_iff execution).mpr ?_ tested.1⟩
  exact fun step member fails => absurd (tested.2 step member) (by rw [fails]; nofun)

end Sample
end CorePlatform.Auth
