import CorePlatform.Auth.Bodies
import CorePlatform.Errors.Relay

/-! Concurrent registrations of one address. The address is looked up before two hashes are
computed and the account is inserted after them, so a call can come too late at either point. -/
namespace CorePlatform.Auth
open Async Relational

structure RegisterCall where
  dto : CreateUserDto
  requestId : Option String := none

/-- The address that a call registers. -/
def RegisterCall.address (cfg : Config) (q : RegisterCall) : String :=
  normalizeEmail cfg q.dto.email

/-- The calls of `register`, of any address. -/
@[reducible] def registerSystem (cfg : Config) :
    System Api Exn RegisterCall RegisterResponse Store where
  toSemantics := semantics
  body q := AuthService.register cfg q.dto q.requestId
  Act := EnvAct
  act := act

abbrev RegisterPool := Pool Api Exn RegisterCall RegisterResponse Store
abbrev RegisterThread := Thread Api Exn RegisterCall RegisterResponse
abbrev RegisterStep (cfg : Config) :=
  Label RegisterCall (registerSystem cfg).Choice (registerSystem cfg).Act

/-- The address has an account. -/
def Registered (email : String) (s : Store) : Prop := ∃ user ∈ s.db.users.rows, user.email = email

instance (email : String) (s : Store) : Decidable (Registered email s) :=
  inferInstanceAs (Decidable (∃ user ∈ s.db.users.rows, user.email = email))

def Unregistered (email : String) (s : Store) : Prop := ¬ Registered email s

instance (email : String) (s : Store) : Decidable (Unregistered email s) :=
  inferInstanceAs (Decidable (¬ Registered email s))

/-- The user that an executed command has created. -/
def created? : Ev → Option User
  | ⟨.userCreate .., .ok user⟩ => some user
  | _ => none

/-- A user has been created. -/
def Made (trace : List Ev) : Prop := ∃ e ∈ trace, (created? e).isSome = true

/-- A call that registers the address. -/
structure Registration (cfg : Config) (email : String) (pool : RegisterPool) (t : Nat)
    (th : RegisterThread) : Prop where
  found : pool.thread? t = some th
  address : th.request.address cfg = email

/-- What the filter answers to a call whose address is taken. -/
def conflictReply : ErrorReply :=
  { status := 409, messageKey := ErrorCodes.CONFLICT, message := "Email already exists"
    errors := none }

/-- At most one call creates the account; once a call has ended exactly one has, and every other
that has ended is a conflict. -/
structure Resolved (cfg : Config) (email : String) (pool : RegisterPool) : Prop where
  once : ∀ t t' th th', Registration cfg email pool t th → Registration cfg email pool t' th' →
    Made th.trace → Made th'.trace → t = t'
  created : ∀ t th, Registration cfg email pool t th → th.result?.isSome = true →
    ∃ t' th', Registration cfg email pool t' th' ∧ Made th'.trace
  conflicts : ∀ t th r, Registration cfg email pool t th → th.result? = some r → ¬ Made th.trace →
    ∃ e, r = .error e ∧ HttpExceptionFilter.reply e.thrown = some conflictReply

/-- The commands of a registration up to the insertion. -/
def Cmd.upToInsert : Cmd → Bool
  | .userFindUnique _ | .argon2Salt | .randomCode | .randomBytes16 | .userCreate .. => true
  | _ => false

def Cmd.inserts : Cmd → Bool
  | .userCreate .. => true
  | _ => false

/-- No call that registers the address inserts it when it has an account already, and the backend
rejects no command of such a call up to the insertion. -/
def InTime (cfg : Config) (email : String) (pool : RegisterPool) : RegisterStep cfg → Prop
  | .run t choice => ∀ th ∈ pool.thread? t, th.request.address cfg = email →
      ∀ c ∈ th.next?, c.upToInsert = true →
        choice.fault = false ∧ (c.inserts = true → ¬ Registered email pool.store)
  | .spawn _ | .act _ => True

instance (cfg : Config) (email : String) (pool : RegisterPool) :
    (label : RegisterStep cfg) → Decidable (InTime cfg email pool label)
  | .run t choice =>
      inferInstanceAs (Decidable (∀ th ∈ pool.thread? t, th.request.address cfg = email →
      ∀ c ∈ th.next?, c.upToInsert = true →
        choice.fault = false ∧ (c.inserts = true → ¬ Registered email pool.store)))
  | .spawn _ => .isTrue trivial
  | .act _ => .isTrue trivial

/-- `ENCRYPT_KEY` is set. -/
def HasKey (cfg : Config) : Prop := ((cfg.encryptKey.map Js.trim).filter (· ≠ "")).isSome = true

/-- The address that an executed command has shown to have an account. -/
def shows? : Ev → Option String
  | ⟨.userCreate .., .ok user⟩ | ⟨.userFindUnique _, .ok (some user)⟩ => some user.email
  | _ => none

theorem shows?_created {e : Ev} {user : User} (made : created? e = some user) :
    shows? e = some user.email := by
  obtain ⟨c, r⟩ := e
  cases c <;> cases r <;> first | contradiction | (cases made; rfl)

section Bodies

variable {cfg : Config} {q : RegisterCall} {trace : List Ev}

def emailExists : Exn :=
  .service { code := ErrorCodes.CONFLICT, statusCode := 409, message := "Email already exists" }

/-- The commands that name an address name the call's own. -/
def ownAddress (cfg : Config) (q : RegisterCall) : Cmd → Prop
  | .userFindUnique w => w = { email := some (q.address cfg) }
  | .userCreate email .. => email = q.address cfg
  | _ => True

/-- The call was told that the address is taken, or one of its commands was rejected. -/
def Refused {α : Type} (trace : List Ev) (r : Except Exn α) : Prop := ∃ error, r = .error error ∧
  (((∃ e ∈ trace, (shows? e).isSome = true) ∧ error = emailExists) ∨
    ∃ e ∈ trace, e.cmd.upToInsert = true ∧ e.resp.isOk = false)

/-- What follows the insertion. -/
theorem along_made {α : Type} {p : Action α} (uses : p.Uses (ownAddress cfg q))
    (made : Made trace) :
    Along (fun _ => ownAddress cfg q) (fun trace r => Made trace ∨ Refused trace r) trace p := by
  obtain ⟨e, member, made⟩ := made
  refine uses.along_appends.mono (fun _ _ point => point.1) ?_
  rintro _ _ ⟨added, rfl, _⟩
  exact .inl ⟨e, List.mem_append_right _ member, made⟩

/-- One command up to the insertion. -/
theorem along_towards {α : Type} {c : Cmd} {k : Except Exn c.Resp → Action α}
    (own : ownAddress cfg q c) (towards : c.upToInsert = true)
    (thrown : ∀ e, k (.error e) = .done (.error e)) (next : ∀ a, Along
      (fun _ => ownAddress cfg q) (fun trace r => Made trace ∨ Refused trace r)
      (⟨c, .ok a⟩ :: trace) (k (.ok a))) :
    Along (fun _ => ownAddress cfg q)
      (fun trace r => Made trace ∨ Refused trace r) trace (.await c k) := by
  refine ⟨own, fun r => ?_⟩
  cases r with
  | error e =>
    rw [thrown]
    exact .inr ⟨e, rfl, .inr ⟨_, List.mem_cons_self, towards, rfl⟩⟩
  | ok a => exact next a

theorem along_create (key : HasKey cfg) : Along (fun _ => ownAddress cfg q)
    (fun trace r => Made trace ∨ Refused trace r) [] (UsersService.create cfg q.dto) := by
  obtain ⟨key, has⟩ := Option.isSome_iff_exists.mp key
  refine along_towards rfl rfl (fun _ => rfl) fun existing => ?_
  cases existing with
  | some user => exact .inr ⟨_, rfl, .inl ⟨⟨_, List.mem_cons_self, rfl⟩, rfl⟩⟩
  | none =>
    refine along_towards trivial rfl (fun _ => rfl) fun salt => ?_
    refine along_towards trivial rfl (fun _ => rfl) fun code => ?_
    refine along_towards trivial rfl (fun _ => rfl) fun salt' => ?_
    simp only [encryptText, getEncryptKey, has, Prog.pure_eq, Prog.bind_ok]
    refine along_towards trivial rfl (fun _ => rfl) fun bytes => ?_
    refine along_towards trivial rfl (fun _ => rfl) fun iv => ?_
    refine along_towards rfl rfl (fun _ => rfl) fun user => ?_
    refine along_made ⟨trivial, fun now => ?_⟩ ⟨_, List.mem_cons_self, rfl⟩
    cases now with
    | error e => trivial
    | ok now => exact ⟨trivial, fun r => by cases r <;> trivial⟩

theorem along_register (key : HasKey cfg) : Along (fun _ => ownAddress cfg q)
    (fun trace r => Made trace ∨ Refused trace r) []
    (AuthService.register cfg q.dto q.requestId) := by
  refine along_bind.mpr ((along_create key).mono (fun _ _ own => own) fun trace r ends => ?_)
  cases r with
  | error error =>
    obtain made | ⟨_, same, refused⟩ := ends
    · exact .inl made
    · cases same
      exact .inr ⟨error, rfl, refused⟩
  | ok user =>
    obtain made | ⟨_, impossible, _⟩ := ends
    · refine along_made (Prog.Uses.bind ?_ fun _ => uses_step trivial fun _ => trivial) made
      unfold AuthService.parseEvent
      split <;> trivial
    · nomatch impossible

end Bodies

section Commands

variable {cfg : Config} {q : RegisterCall} {s s' : Store} {c : Cmd} {choice : Choice}
  {r : Except Exn c.Resp}

theorem UsersEffect.registered {email : String} (effect : UsersEffect s c s')
    (known : Registered email s) :
    Registered email s' := by
  obtain ⟨user, found, rfl⟩ := known
  cases effect with
  | none _ _ same => exact ⟨user, same ▸ found, rfl⟩
  | create _ _ inserted => exact ⟨user, (Table.mem_insert? inserted).mpr (.inr found), rfl⟩
  | activate id =>
    obtain ⟨user', found', _, same⟩ := remains_updateUser found
    exact ⟨user', found', same⟩
  | setPassword id passwordHash =>
    obtain ⟨user', found', _, same⟩ := remains_updateUser found
    exact ⟨user', found', same⟩

/-- An insertion takes a free address, and fails on a taken one. -/
theorem exec_userCreate {email : String} {passwordHash : Argon2Hash String}
    {name phone : Option String} {isActive : Bool} {r : Except Exn User}
    (answered : choice.fault = false)
    (executed : exec (.userCreate email passwordHash name phone isActive) choice s = some (r, s')) :
    (Registered email s ∧ r = .error uniqueViolation ∧ s' = s) ∨
      ¬ Registered email s ∧ ∃ user, user.email = email ∧ r = .ok user ∧
      s.db.users.insert? user = some s'.db.users ∧ user.id = choice.draw := by
  simp only [exec, answered, Bool.false_eq_true, if_false, execTotal, Store.createUser] at executed
  split at executed
  · rename_i fresh
    split at executed
    · rename_i users inserted
      obtain ⟨rfl, rfl⟩ := Prod.mk.inj (Option.some.inj executed)
      refine .inr ⟨?_, _, rfl, rfl, inserted, rfl⟩
      rintro ⟨user, found, same⟩
      exact fresh (List.mem_map.mpr ⟨user, found, same⟩)
    · contradiction
  · rename_i taken
    obtain ⟨user, found, same⟩ := List.mem_map.mp (Decidable.not_not.mp taken)
    obtain ⟨rfl, rfl⟩ := Prod.mk.inj (Option.some.inj executed)
    exact .inl ⟨⟨user, found, same⟩, rfl, rfl⟩

theorem exec_created {user : User} (executed : exec c choice s = some (r, s'))
    (made : created? ⟨c, r⟩ = some user) :
    ¬ Registered user.email s ∧ Registered user.email s' := by
  obtain _ | made' := r
  · cases c <;> contradiction
  · cases c with
    | userCreate email passwordHash name phone isActive =>
      cases Option.some.inj made
      obtain ⟨_, impossible, _⟩ | ⟨free, user, rfl, same, inserted, _⟩ :=
        exec_userCreate (exec_answered executed) executed
      · nomatch impossible
      · cases Except.ok.inj same
        exact ⟨free, _, (Table.mem_insert? inserted).mpr (.inl rfl), rfl⟩
    | _ => contradiction

/-- What a command shows is about the call's own address. -/
theorem exec_shows {email : String} (own : ownAddress cfg q c)
    (executed : exec c choice s = some (r, s')) (shown : shows? ⟨c, r⟩ = some email) :
    email = q.address cfg ∧ Registered email s' := by
  obtain _ | a := r
  · cases c <;> contradiction
  · cases c with
    | userCreate email passwordHash name phone isActive =>
      cases own
      cases Option.some.inj shown
      obtain ⟨_, impossible, _⟩ | ⟨_, user, named, same, _⟩ :=
        exec_userCreate (exec_answered executed) executed
      · nomatch impossible
      · cases Except.ok.inj same
        exact ⟨named, (exec_created executed rfl).2⟩
    | userFindUnique w =>
      cases own
      cases a with
      | none => contradiction
      | some user =>
        cases Option.some.inj shown
        rw [exec, exec_answered executed] at executed
        obtain ⟨picked, rfl⟩ := Prod.mk.inj (Option.some.inj executed)
        obtain ⟨found, matching⟩ := List.mem_filter.mp (pickFrom_mem (Except.ok.inj picked))
        simp only [UserWhere.holds, Option.all_none, Option.all_some, Bool.and_true, Bool.true_and,
          beq_iff_eq] at matching
        exact ⟨matching.symm, user, found, rfl⟩
    | _ => contradiction

theorem registered_updateUser {email id : String} {f : User → User} {same : ∀ u, (f u).id = u.id}
    {kept : ∀ u, (f u).email = u.email} (known : Registered email (s.updateUser id f same kept)) :
    Registered email s := by
  obtain ⟨user, found, rfl⟩ := known
  obtain ⟨old, inTable, rfl⟩ := mem_updateUser.mp found
  refine ⟨old, inTable, ?_⟩
  split
  · exact (kept old).symm
  · rfl

/-- Every account that is there after a command was there before, or the command has created it. -/
theorem exec_emails {email : String} (executed : exec c choice s = some (r, s'))
    (known : Registered email s') :
    Registered email s ∨ ∃ user, created? ⟨c, r⟩ = some user ∧ user.email = email := by
  cases exec_usersEffect executed with
  | none _ _ same =>
    obtain ⟨user, found, rfl⟩ := known
    exact .inl ⟨user, same ▸ found, rfl⟩
  | create user _ inserted =>
    cases answered : choice.fault with
    | true =>
      simp only [exec, answered, Cmd.canFail, if_true, Option.some.injEq, Prod.mk.injEq] at executed
      exact .inl (executed.2 ▸ known)
    | false =>
      obtain ⟨taken, _, rfl⟩ | ⟨_, user, _, rfl, inserted, _⟩ := exec_userCreate answered executed
      · exact .inl known
      · obtain ⟨user', found, rfl⟩ := known
        obtain rfl | old := (Table.mem_insert? inserted).mp found
        · exact .inr ⟨user', rfl, rfl⟩
        · exact .inl ⟨user', old, rfl⟩
  | activate id => exact .inl (registered_updateUser known)
  | setPassword id passwordHash => exact .inl (registered_updateUser known)

/-- What is not rejected up to the insertion succeeds, where the address is free at the
insertion. -/
theorem exec_towards (own : ownAddress cfg q c) (towards : c.upToInsert = true)
    (answered : choice.fault = false) (free : c.inserts = true → ¬ Registered (q.address cfg) s)
    (executed : exec c choice s = some (r, s')) :
    r.isOk = true := by
  cases c with
  | userFindUnique w =>
    cases own
    rw [exec, answered] at executed
    obtain ⟨rfl, _⟩ := Prod.mk.inj (Option.some.inj executed)
    rfl
  | userCreate email passwordHash name phone isActive =>
    cases own
    obtain ⟨taken, _⟩ | ⟨_, user, _, rfl, _⟩ := exec_userCreate answered executed
    · exact absurd taken (free rfl)
    · rfl
  | argon2Salt | randomBytes16 =>
    rw [exec, answered] at executed
    obtain ⟨rfl, _⟩ := Prod.mk.inj (Option.some.inj executed)
    rfl
  | randomCode =>
    simp only [exec, answered, Bool.false_eq_true, if_false, execTotal] at executed
    split at executed
    · obtain ⟨rfl, _⟩ := Prod.mk.inj (Option.some.inj executed)
      rfl
    · contradiction
  | _ => contradiction

theorem act_registered {a : EnvAct} {email : String} (acted : act a s = some s') :
    Registered email s' ↔ Registered email s := by
  cases a with
  | tick ms =>
    cases Option.some.inj acted
    rfl
  | setPermVersion userId version =>
    cases Option.some.inj acted
    refine ⟨registered_updateUser, ?_⟩
    rintro ⟨user, found, rfl⟩
    obtain ⟨user', found', _, same⟩ := remains_updateUser found
    exact ⟨user', found', same⟩

end Commands

section Runs

variable {cfg : Config} {email : String} {pool pool' : RegisterPool} {t : Nat} {th : RegisterThread}
  {init : Store → Prop} {cond : RegisterPool → RegisterStep cfg → Prop}

/-- What a call was shown about its address stays true. -/
theorem shows_registered (key : HasKey cfg)
    (reachable : (registerSystem cfg).Reachable cond init pool)
    (registration : Registration cfg email pool t th)
    (shown : ∃ e ∈ th.trace, (shows? e).isSome = true) :
    Registered email pool.store := by
  obtain ⟨e, executed, shown⟩ := shown
  obtain ⟨address, shown⟩ := Option.isSome_iff_exists.mp shown
  have stays := reachable.witnessed (P := fun q s e => ∀ a, shows? e = some a →
      a = q.address cfg ∧ Registered a s)
    registration.found executed ?_ ?_
  · obtain ⟨same, known⟩ := stays address shown
    rw [registration.address] at same
    exact same ▸ known
  · intro pool t choice th c r s before found next _ executed a shown
    exact exec_shows (before.point (fun q => along_register key) found next) executed shown
  · intro pool label pool' q e _ _ effect holds a shown
    obtain ⟨same, known⟩ := holds a shown
    refine ⟨same, ?_⟩
    cases effect with
    | spawn q => exact known
    | run t choice th c k r s found awaits executed =>
        exact (exec_usersEffect executed).registered known
    | act a s acted => exact (act_registered acted).mpr known

theorem Made.shows {trace : List Ev} (made : Made trace) :
    ∃ e ∈ trace, (shows? e).isSome = true := by
  obtain ⟨e, executed, made⟩ := made
  obtain ⟨user, made⟩ := Option.isSome_iff_exists.mp made
  exact ⟨e, executed, by rw [shows?_created made, Option.isSome_some]⟩

/-- A call that has created a user has so before the step, or inserts it now. -/
theorem made_before (key : HasKey cfg) (reachable : (registerSystem cfg).Reachable cond init pool)
    {label : RegisterStep cfg} (effect : (registerSystem cfg).Effect pool label pool')
    (registration : Registration cfg email pool' t th) (made : Made th.trace) :
    (∃ th, Registration cfg email pool t th ∧ Made th.trace) ∨
      (∃ choice, label = .run t choice) ∧ ¬ Registered email pool.store := by
  obtain ⟨found, address⟩ := registration
  cases effect with
  | spawn q =>
    obtain ⟨_, rfl⟩ | old := Pool.add_cases found
    · obtain ⟨_, impossible, _⟩ := made
      nomatch impossible
    · exact .inl ⟨th, ⟨old, address⟩, made⟩
  | act a s acted => exact .inl ⟨th, ⟨found, address⟩, made⟩
  | run u choice th' c k r s found' awaits executed =>
    obtain ⟨rfl, rfl⟩ | ⟨_, old⟩ := Pool.set_cases found
    · obtain ⟨e, executed', made⟩ := made
      obtain rfl | earlier := List.mem_cons.mp executed'
      · obtain ⟨user, made⟩ := Option.isSome_iff_exists.mp made
        have own : ownAddress cfg th'.request c :=
          reachable.point (fun q => along_register key) found' (by rw [Thread.next?, awaits])
        obtain ⟨same, _⟩ := exec_shows own executed (shows?_created made)
        refine .inr ⟨⟨choice, rfl⟩, ?_⟩
        rw [← address, ← same]
        exact (exec_created executed made).1
      · exact .inl ⟨th', ⟨found', address⟩, e, earlier, made⟩
    · exact .inl ⟨th, ⟨old, address⟩, made⟩

/-- It stays so. -/
theorem made_after {label : RegisterStep cfg}
    (effect : (registerSystem cfg).Effect pool label pool')
    (registration : Registration cfg email pool t th) (made : Made th.trace) :
    ∃ th', Registration cfg email pool' t th' ∧ Made th'.trace := by
  obtain ⟨found, address⟩ := registration
  cases effect with
  | spawn q => exact ⟨th, ⟨Pool.add_old _ found, address⟩, made⟩
  | act a s acted => exact ⟨th, ⟨found, address⟩, made⟩
  | run u choice th' c k r s found' awaits executed =>
    by_cases same : t = u
    · subst same
      cases found.symm.trans found'
      obtain ⟨e, executed', made⟩ := made
      exact ⟨_, ⟨Pool.set_self _ found, address⟩, e, List.mem_cons_of_mem _ executed', made⟩
    · exact ⟨th, ⟨(Pool.set_other _ _ same).trans found, address⟩, made⟩

/-- The unique key lets one call create the account. -/
theorem made_once (key : HasKey cfg) (reachable : (registerSystem cfg).Reachable cond init pool) :
    ∀ t t' th th', Registration cfg email pool t th → Registration cfg email pool t' th' →
      Made th.trace → Made th'.trace → t = t' := by
  refine reachable.invariant (P := fun pool => ∀ t t' th th', Registration cfg email pool t th →
    Registration cfg email pool t' th' → Made th.trace → Made th'.trace → t = t') ?_ ?_
  · intro s _ t t' th th' registration
    nomatch registration.found
  · intro pool label pool' before _ once _ effect t t' th th' registration registration' made made'
    obtain ⟨old, oldReg, oldMade⟩ | ⟨⟨choice, rfl⟩, free⟩ :=
      made_before key before effect registration made
    · obtain ⟨old', oldReg', oldMade'⟩ | ⟨_, free⟩ :=
        made_before key before effect registration' made'
      · exact once t t' old old' oldReg oldReg' oldMade oldMade'
      · exact absurd (shows_registered key before oldReg oldMade.shows) free
    · obtain ⟨old', oldReg', oldMade'⟩ | ⟨⟨choice', same⟩, _⟩ :=
        made_before key before effect registration' made'
      · exact absurd (shows_registered key before oldReg' oldMade'.shows) free
      · cases same
        rfl

/-- An account that was not there before has been created by one of the calls. -/
theorem registered_made (key : HasKey cfg)
    (reachable : (registerSystem cfg).Reachable cond (Unregistered email) pool)
    (known : Registered email pool.store) : ∃ t th, Registration cfg email pool t th ∧
    Made th.trace := by
  revert known
  refine reachable.invariant (P := fun pool => Registered email pool.store →
    ∃ t th, Registration cfg email pool t th ∧
    Made th.trace) (fun s free known => absurd known free) ?_
  intro pool label pool' before _ creator _ effect known
  have old : Registered email pool.store → ∃ t th, Registration cfg email pool' t th ∧
      Made th.trace := by
    intro known
    obtain ⟨t, th, registration, made⟩ := creator known
    obtain ⟨th', registration', made'⟩ := made_after effect registration made
    exact ⟨t, th', registration', made'⟩
  cases effect with
  | spawn q => exact old known
  | act a s acted => exact old ((act_registered acted).mp known)
  | run t choice th c k r s found awaits executed =>
    obtain earlier | ⟨user, made, rfl⟩ := exec_emails executed known
    · exact old earlier
    · have own : ownAddress cfg th.request c :=
        before.point (fun q => along_register key) found (by rw [Thread.next?, awaits])
      obtain ⟨same, _⟩ := exec_shows own executed (shows?_created made)
      refine ⟨t, _, ⟨Pool.set_self _ found, same.symm⟩, _, List.mem_cons_self, ?_⟩
      rw [made, Option.isSome_some]

/-- In time, no command of a call is rejected up to its insertion. -/
theorem towards_succeeds (key : HasKey cfg)
    (reachable : (registerSystem cfg).Reachable (InTime cfg email) init pool)
    (registration : Registration cfg email pool t th) {e : Ev} (executed : e ∈ th.trace)
    (towards : e.cmd.upToInsert = true) : e.resp.isOk = true := by
  have stays := reachable.witnessed
    (P := fun q _ (e : Ev) => q.address cfg = email → e.cmd.upToInsert = true →
      e.resp.isOk = true) registration.found executed ?_ ?_
  · exact stays registration.address towards
  · intro pool t choice th c r s before found next met executed address towards
    obtain ⟨answered, free⟩ := met th found address c next towards
    rw [← address] at free
    exact exec_towards (before.point (fun q => along_register key) found next)
      towards answered free executed
  · exact fun _ _ _ _ _ _ _ _ holds => holds

/-- In every run in which no call comes to its insertion late, exactly one call of the address
creates the account and every other is a conflict. -/
theorem registrations_resolve (key : HasKey cfg)
    (reachable : (registerSystem cfg).Reachable (InTime cfg email) (Unregistered email) pool) :
    Resolved cfg email pool := by
  have returned : ∀ t th r, Registration cfg email pool t th → th.result? = some r →
      Made th.trace ∨ Refused th.trace r :=
    fun t th r registration ended =>
      reachable.returned (fun q => along_register key) registration.found ended
  refine ⟨made_once key reachable, fun t th registration ended => ?_,
    fun t th r registration ended late => ?_⟩
  · obtain ⟨r, ended⟩ := Option.isSome_iff_exists.mp ended
    obtain made | ⟨_, _, ⟨shown, _⟩ | ⟨e, executed, towards, rejected⟩⟩ :=
      returned t th r registration ended
    · exact ⟨t, th, registration, made⟩
    · exact registered_made key reachable (shows_registered key reachable registration shown)
    · rw [towards_succeeds key reachable registration executed towards] at rejected
      contradiction
  · obtain made | ⟨error, same, ⟨_, rfl⟩ | ⟨e, executed, towards, rejected⟩⟩ :=
      returned t th r registration ended
    · exact absurd made late
    · exact ⟨_, same, rfl⟩
    · rw [towards_succeeds key reachable registration executed towards] at rejected
      contradiction

end Runs

section Sample

def registerCalls (t : Nat) (draws : List String) : List (RegisterStep Config.default) :=
  draws.map fun draw => .run t { draw }

def firstCall : RegisterCall := { dto := { email := "alice@mail.com", password := "Secret123" } }
def secondCall : RegisterCall := { dto := { email := " Alice@mail.com", password := "secret123" } }

/-- The second call looks the address up after the first has run `n` commands, and then follows. -/
def registerLabels (n : Nat) : List (RegisterStep Config.default) :=
  let draws := ["", argonSalt0, "k3x9", argonSalt1, "", "", aliceId, "", otpId1, ""]
  .spawn firstCall :: .spawn secondCall :: registerCalls 0 (draws.take n) ++ registerCalls 1 [""] ++
    registerCalls 0 (draws.drop n)

/-- The error that a call has ended in. -/
def failure? (th : RegisterThread) : Option Exn :=
  match th.result? with
  | some (.error e) => some e
  | _ => none

theorem result?_failure {th : RegisterThread} {e : Exn} (failed : failure? th = some e) :
    th.result? = some (.error e) := by
  unfold failure? at failed
  split at failed
  · rename_i same
    cases Option.some.inj failed
    exact same
  · contradiction

/-- The second call has ended in the error and has created nothing. -/
def secondFails (error : Exn) (pool : RegisterPool) : Bool :=
  match pool.thread? 1 with
  | some th => th.request.address Config.default = "alice@mail.com" && failure? th = some error &&
      th.trace.all (fun e => (created? e).isNone)
  | none => false

theorem secondFails_thread {error : Exn} {pool : RegisterPool}
    (fails : secondFails error pool = true) :
    ∃ th, Registration Config.default "alice@mail.com" pool 1 th ∧
      th.result? = some (.error error) ∧
    ¬ Made th.trace := by
  unfold secondFails at fails
  split at fails
  · rename_i th found
    simp only [Bool.and_eq_true, decide_eq_true_eq, List.all_eq_true,
      Option.isNone_iff_eq_none] at fails
    obtain ⟨⟨address, failed⟩, nothing⟩ := fails
    refine ⟨th, ⟨found, address⟩, result?_failure failed, ?_⟩
    rintro ⟨e, executed, made⟩
    rw [nothing e executed] at made
    contradiction
  · contradiction

/-- Two calls look the address up before either inserts it: the slower one fails with the error of
the database client, which the filter answers with status 500. -/
theorem registrations_collide : ∃ pool,
    (registerSystem Config.default).Reachable System.Any (Unregistered "alice@mail.com") pool ∧
    ¬ Resolved Config.default "alice@mail.com" pool := by
  have tested : ((registerSystem Config.default).replay System.Any (System.idle {})
      (registerLabels 1 ++ registerCalls 1 [argonSalt2, "m7q2", argonSalt3, "", "", bobId])).any
        (secondFails uniqueViolation) = true := by
    decide +kernel
  obtain ⟨pool, run, fails⟩ := System.run_of_replay tested
  obtain ⟨th, registration, ended, late⟩ := secondFails_thread fails
  refine ⟨pool, ⟨{}, (by decide), run⟩, fun resolved => ?_⟩
  obtain ⟨e, same, answered⟩ := resolved.conflicts 1 th _ registration ended late
  cases same
  nomatch answered

/-- The second call looks the address up when the first has inserted it. -/
theorem registrations_resolve_sample : ∃ pool th,
    (registerSystem Config.default).Reachable (InTime Config.default "alice@mail.com")
    (Unregistered "alice@mail.com") pool ∧
    Registration Config.default "alice@mail.com" pool 1 th ∧
    th.result? = some (.error emailExists) ∧
    Resolved Config.default "alice@mail.com" pool := by
  have tested : ((registerSystem Config.default).replay
      (InTime Config.default "alice@mail.com") (System.idle {})
      (registerLabels 7)).any (secondFails emailExists) = true := by decide +kernel
  obtain ⟨pool, run, fails⟩ := System.run_of_replay tested
  obtain ⟨th, registration, ended, _⟩ := secondFails_thread fails
  have reachable : (registerSystem Config.default).Reachable
      (InTime Config.default "alice@mail.com") (Unregistered "alice@mail.com") pool :=
    ⟨{}, (by decide), run⟩
  have key : HasKey Config.default := by rw [HasKey]; decide +kernel
  exact ⟨pool, th, reachable, registration, ended, registrations_resolve key reachable⟩

end Sample
end CorePlatform.Auth
