import CorePlatform.Auth.Custody
import CorePlatform.Auth.Issuing
import CorePlatform.Auth.Registration

/-! The codes that the auth service makes, and what it hands out to have them mailed. A code is
drawn by a call that has registered an account or looked it up, its hash is stored for this account,
and what is handed out bears the identifier and the address of the account beside the hash, which is
encrypted. -/
namespace CorePlatform.Auth
open Async Relational

variable {cfg : Config}

/-- The codes of the accounts, and what has been handed out: events of the stream and jobs of the
mail queue. -/
inductive MailFact where
  | code (userId codeHash : String)
  | published (event : UserRegisteredEvent)
  | enqueued (job : MailJob)

def Store.mailFacts (s : Store) : Set MailFact := {f | match f with
  | .code userId codeHash => ∃ expiresAt, HasCode s userId codeHash expiresAt
  | .published event => event ∈ s.events
  | .enqueued job => job ∈ s.jobs}

/-- The call has drawn a code at random and hashed it. -/
structure Draws (trace : List Ev) (hash : Argon2Hash String) : Prop where
  code : ∃ code, (⟨.randomCode, .ok code⟩ : Ev) ∈ trace ∧ hash.plain = code.val
  salt : (⟨.argon2Salt, .ok hash.salt⟩ : Ev) ∈ trace

/-- The call draws codes for the account: one that it has registered under the address of its
request, or that it has found by it. -/
def Serves (cfg : Config) : Call → List Ev → User → Prop
  | .register dto _, trace, user => ∃ passwordHash, (⟨.userCreate (normalizeEmail cfg dto.email)
      passwordHash dto.name dto.phone false, .ok user⟩ : Ev) ∈ trace
  | .resendCode email, trace, user =>
      (⟨.userFindFirst { email }, .ok (some user)⟩ : Ev) ∈ trace ∧ user.isActive = false
  | .forgotPassword email, trace, user => (⟨.userFindFirst { email }, .ok (some user)⟩ : Ev) ∈ trace
  | _, _, _ => False

/-- The calls that make codes to verify an account. -/
def Call.registers : Call → Bool
  | .register .. | .resendCode _ => true
  | _ => false

/-- The call has made a code to verify the account. -/
structure CodeFor (cfg : Config) (q : Call) (trace : List Ev) (user : User)
    (hash : Argon2Hash String) : Prop where
  asked : q.registers = true
  serves : Serves cfg q trace user
  draws : Draws trace hash
  stored : ∃ expiresAt, (⟨.emailOtpUpsert user.id (cfg.phc hash) expiresAt, .ok ()⟩ : Ev) ∈ trace

/-- The call has made a code to reset the password of the account. -/
structure ResetFor (cfg : Config) (q : Call) (trace : List Ev) (user : User)
    (hash : Argon2Hash String) : Prop where
  asked : q.registers = false
  serves : Serves cfg q trace user
  draws : Draws trace hash
  stored : ∃ expiresAt, (⟨.passwordResetCreate user.id hash expiresAt, .ok ()⟩ : Ev) ∈ trace

/-- What a call makes. -/
def Posts (cfg : Config) (q : Call) (trace : List Ev) : MailFact → Prop
  | .code userId codeHash => ∃ user hash, CodeFor cfg q trace user hash ∧ userId = user.id ∧
      codeHash = cfg.phc hash
  | .published event => ∃ user hash, CodeFor cfg q trace user hash ∧ event.userId = user.id ∧
      event.email = user.email ∧ Encrypts cfg event.code (cfg.phc hash)
  | .enqueued job => ∃ user hash, ResetFor cfg q trace user hash ∧ job.userId = user.id ∧
      job.email = user.email ∧ Encrypts cfg job.token (cfg.phc hash)

/-- What a call takes away: the code of the account before its own. -/
def Replaces (_ : Call) (trace : List Ev) : MailFact → Prop
  | .code userId _ => ∃ codeHash expiresAt,
      (⟨.emailOtpUpsert userId codeHash expiresAt, .ok ()⟩ : Ev) ∈ trace
  | .published _ | .enqueued _ => False

section Longer

variable {q : Call} {trace : List Ev} {user : User} {hash : Argon2Hash String}

theorem Draws.longer (draws : Draws trace hash) (later : List Ev) :
    Draws (later ++ trace) hash where
  code := draws.code.imp fun _ drawn => ⟨List.mem_append_right _ drawn.1, drawn.2⟩
  salt := List.mem_append_right _ draws.salt

theorem Serves.longer (serves : Serves cfg q trace user) (later : List Ev) :
    Serves cfg q (later ++ trace) user := by
  cases q <;> try exact serves.elim
  · exact serves.imp fun _ created => List.mem_append_right _ created
  · exact ⟨List.mem_append_right _ serves.1, serves.2⟩
  · exact List.mem_append_right _ serves

theorem CodeFor.longer (codeFor : CodeFor cfg q trace user hash) (later : List Ev) :
    CodeFor cfg q (later ++ trace) user hash where
  asked := codeFor.asked
  serves := codeFor.serves.longer later
  draws := codeFor.draws.longer later
  stored := codeFor.stored.imp fun _ stored => List.mem_append_right _ stored

theorem ResetFor.longer (resetFor : ResetFor cfg q trace user hash) (later : List Ev) :
    ResetFor cfg q (later ++ trace) user hash where
  asked := resetFor.asked
  serves := resetFor.serves.longer later
  draws := resetFor.draws.longer later
  stored := resetFor.stored.imp fun _ stored => List.mem_append_right _ stored

theorem Posts.longer (q : Call) (trace : List Ev) (e : Ev) (fact : MailFact)
    (posts : Posts cfg q trace fact) : Posts cfg q (e :: trace) fact := by
  cases fact with
  | code userId codeHash =>
    obtain ⟨user, hash, codeFor, same⟩ := posts
    exact ⟨user, hash, codeFor.longer [e], same⟩
  | published event =>
    obtain ⟨user, hash, codeFor, same⟩ := posts
    exact ⟨user, hash, codeFor.longer [e], same⟩
  | enqueued job =>
    obtain ⟨user, hash, resetFor, same⟩ := posts
    exact ⟨user, hash, resetFor.longer [e], same⟩

theorem Replaces.longer (q : Call) (trace : List Ev) (e : Ev) (fact : MailFact)
    (replaces : Replaces q trace fact) : Replaces q (e :: trace) fact := by
  cases fact with
  | code userId codeHash =>
    obtain ⟨codeHash', expiresAt, stored⟩ := replaces
    exact ⟨codeHash', expiresAt, List.mem_cons_of_mem _ stored⟩
  | published | enqueued => exact replaces

end Longer

/-- What a call has done before it stores a code for verification, and before it hands one out. -/
def mailPoint (cfg : Config) (q : Call) (trace : List Ev) : Cmd → Prop
  | .emailOtpUpsert userId codeHash _ => q.registers = true ∧ ∃ user hash,
      Serves cfg q trace user ∧ Draws trace hash ∧ userId = user.id ∧ codeHash = cfg.phc hash
  | .natsPublish event => Posts cfg q trace (.published event)
  | .queueAdd job => Posts cfg q trace (.enqueued job)
  | _ => True

section Along

variable {q : Call} {trace : List Ev} {α β : Type} {R : List Ev → Except Exn α → Prop}

/-- The command neither stores a code for verification nor hands one out. -/
abbrev Silent (c : Cmd) : Prop := c.posts = false

theorem along_silent {p : Action α} (silent : p.Uses Silent) :
    Along (mailPoint cfg q) (fun _ _ => True) trace p := by
  refine silent.along.mono (fun trace c quiet => ?_) fun _ _ there => there
  cases c <;> first
    | contradiction
    | trivial

theorem silent_of_routine {p : Action α} (routine : p.Uses Routine) : p.Uses Silent :=
  routine.mono fun _ quiet => (Bool.or_eq_false_iff.mp quiet).2

theorem silent_confirm {email code : Option String} :
    (AuthService.forgotPasswordVerify email code).Uses Silent := by
  refine Prog.Uses.catch (uses_step rfl fun user => ?_) fun e => by split <;> trivial
  cases user with
  | none => trivial
  | some user =>
    refine Prog.Uses.bind (uses_step rfl fun now => uses_step rfl fun row => ?_) fun _ => trivial
    cases row with
    | none => trivial
    | some row =>
      cases code with
      | none => trivial
      | some code =>
        simp only [verifyHash, Prog.pure_eq, Prog.bind_ok]
        split
        · trivial
        · exact uses_step rfl fun _ => trivial

theorem silent_reset {email code password : Option String} :
    (AuthService.forgotPasswordReset email code password).Uses Silent := by
  refine Prog.Uses.catch (uses_step rfl fun user => ?_) fun e => by split <;> trivial
  cases user with
  | none => trivial
  | some user =>
    refine Prog.Uses.bind (uses_step rfl fun row => ?_) fun _ =>
      Prog.Uses.bind (silent_of_routine routine_logoutAllDevices) fun _ => trivial
    cases row with
    | none => trivial
    | some row =>
      cases code with
      | none => trivial
      | some code =>
        simp only [verifyHash, Prog.pure_eq, Prog.bind_ok]
        split
        · trivial
        · cases password with
          | none => trivial
          | some password =>
            exact Prog.Uses.bind (silent_of_routine routine_hashPassword) fun hash =>
              uses_step rfl fun _ => uses_step rfl fun _ => trivial

theorem along_hashed {password : β} {f : Argon2Hash β → Action α}
    (rejected : ∀ trace e, R trace (.error e))
    (next : ∀ salt, Along (mailPoint cfg q) R (⟨.argon2Salt, .ok salt⟩ :: trace)
      (f { salt, plain := password })) :
    Along (mailPoint cfg q) R trace (hashPassword password >>= f) := by
  refine along_bind.mpr ⟨trivial, fun salt => ?_⟩
  cases salt with
  | error e => exact rejected _ e
  | ok salt => exact next salt

/-- A code is drawn and hashed. -/
theorem along_drawn {f : Argon2Hash String → Action α} (rejected : ∀ trace e, R trace (.error e))
    (next : ∀ hash later, Draws (later ++ trace) hash →
      Along (mailPoint cfg q) R (later ++ trace) (f hash)) :
    Along (mailPoint cfg q) R trace (do f (← hashPassword (← randomCode))) := by
  refine along_bind.mpr ⟨trivial, fun code => ?_⟩
  cases code with
  | error e => exact rejected _ e
  | ok code =>
    refine along_hashed rejected fun salt => next _ [_, _] ⟨⟨code, ?_, rfl⟩, ?_⟩
    · exact List.mem_cons_of_mem _ List.mem_cons_self
    · exact List.mem_cons_self

theorem along_encrypted {plainText : String} {f : String → Action α}
    (rejected : ∀ trace e, R trace (.error e))
    (next : ∀ text later, Encrypts cfg text plainText →
      Along (mailPoint cfg q) R (later ++ trace) (f text)) :
    Along (mailPoint cfg q) R trace (encryptText cfg plainText >>= f) := by
  cases configured : (cfg.encryptKey.map Js.trim).filter (· ≠ "") with
  | none =>
    simp only [encryptText, getEncryptKey, configured, Prog.throw_eq, Prog.bind_error, along_done]
    exact rejected _ _
  | some key =>
    simp only [encryptText, getEncryptKey, configured, Prog.pure_eq, Prog.bind_ok]
    refine along_bind.mpr ⟨trivial, fun salt => ?_⟩
    cases salt with
    | error e => exact rejected _ e
    | ok salt =>
      refine ⟨trivial, fun iv => ?_⟩
      cases iv with
      | error e => exact rejected _ e
      | ok iv => exact next _ [_, _] ⟨key, salt, iv, configured, rfl⟩

theorem along_parsed {userId email : String} {f : Unit → Action α}
    (rejected : ∀ trace e, R trace (.error e)) (next : Along (mailPoint cfg q) R trace (f ())) :
    Along (mailPoint cfg q) R trace (AuthService.parseEvent cfg userId email >>= f) := by
  unfold AuthService.parseEvent
  split
  · exact rejected _ _
  · exact next

/-- A code that was drawn for an account is stored, to verify it. -/
theorem along_stored {user : User} {hash : Argon2Hash String} {f : Unit → Action α}
    (rejected : ∀ trace e, R trace (.error e)) (asked : q.registers = true)
    (serves : Serves cfg q trace user)
    (draws : Draws trace hash)
    (next : ∀ later, CodeFor cfg q (later ++ trace) user hash →
      Along (mailPoint cfg q) R (later ++ trace) (f ())) :
    Along (mailPoint cfg q) R trace
      (UsersService.createOrUpdateEmailOtp user.id (cfg.phc hash) >>= f) := by
  refine along_bind.mpr ⟨trivial, fun now => ?_⟩
  cases now with
  | error e => exact rejected _ e
  | ok now =>
    refine ⟨⟨asked, user, hash, serves.longer [_], draws.longer [_], rfl, rfl⟩, fun stored => ?_⟩
    cases stored with
    | error e => exact rejected _ e
    | ok _ =>
      exact next [_, _] ⟨asked, serves.longer [_, _], draws.longer [_, _], _, List.mem_cons_self⟩

theorem along_registration {dto : CreateUserDto} {requestId : Option String} :
    Along (mailPoint cfg (.register dto requestId)) (fun _ _ => True) []
      (AuthService.register cfg dto requestId) := by
  have passes : ∀ (_ : List Ev) (_ : Exn), True := fun _ _ => trivial
  refine along_bind.mpr (along_await_bind trivial passes fun existing => ?_)
  cases existing with
  | some user => trivial
  | none =>
    refine along_hashed passes fun salt => along_drawn passes fun hash later draws =>
      along_encrypted passes fun code later' encrypts => along_await_bind trivial passes
        fun user => ?_
    have serves : ∀ trace, Serves cfg (.register dto requestId)
        (⟨.userCreate (normalizeEmail cfg dto.email) { salt, plain := dto.password } dto.name
          dto.phone false, .ok user⟩ :: trace) user := fun trace => ⟨_, List.mem_cons_self⟩
    refine along_stored passes rfl (serves _) ((draws.longer later').longer [_])
      fun later'' codeFor => ?_
    exact along_parsed passes (along_await_bind ⟨user, hash, codeFor, rfl, rfl, encrypts⟩ passes
      fun _ => trivial)

theorem along_resending {email : Option String} :
    Along (mailPoint cfg (.resendCode email)) (fun _ _ => True) []
      (AuthService.resendCode cfg email) := by
  have passes : ∀ (_ : List Ev) (_ : Exn), True := fun _ _ => trivial
  refine along_rethrow passes (along_await_bind trivial passes fun found => ?_)
  cases found with
  | none => trivial
  | some user =>
    dsimp only
    split
    · trivial
    · rename_i inactive
      refine along_drawn passes fun hash later draws =>
        along_encrypted passes fun code later' encrypts => ?_
      have serves : ∀ later, Serves cfg (.resendCode email)
          (later ++ [⟨.userFindFirst { email }, .ok (some user)⟩]) user := fun later =>
        ⟨List.mem_append_right _ (List.mem_singleton_self _), Bool.eq_false_iff.mpr inactive⟩
      rw [← List.append_assoc]
      refine along_stored passes rfl (serves _) ?_ fun later'' codeFor => ?_
      · rw [List.append_assoc]
        exact draws.longer later'
      · exact along_parsed passes (along_await_bind ⟨user, hash, codeFor, rfl, rfl, encrypts⟩
          passes fun _ => trivial)

theorem along_requesting {email : Option String} :
    Along (mailPoint cfg (.forgotPassword email)) (fun _ _ => True) []
      (AuthService.forgotPassword cfg email) := by
  have passes : ∀ (_ : List Ev) (_ : Exn), True := fun _ _ => trivial
  refine along_catch.mpr (Along.mono (R := fun _ _ => True) ?_ (fun _ _ point => point)
    fun _ r _ => by cases r <;> trivial)
  refine along_await_bind trivial passes fun found => ?_
  cases found with
  | none => trivial
  | some user =>
    refine along_bind.mpr (along_drawn passes fun hash later draws =>
      along_encrypted passes fun token later' encrypts => along_await_bind trivial passes
        fun now => along_await_bind trivial passes fun _ => along_await_bind trivial passes
          fun now' => ?_)
    have serves : Serves cfg (.forgotPassword email)
        [⟨.userFindFirst { email }, .ok (some user)⟩] user := List.mem_singleton_self _
    refine along_parsed passes (along_await_bind ⟨user, hash, ⟨rfl, ?_, ?_, now + codeTtl, ?_⟩, rfl,
      rfl, encrypts⟩ passes fun _ => trivial)
    · exact ((serves.longer later).longer later').longer [_, _, _]
    · exact (draws.longer later').longer [_, _, _]
    · exact List.mem_cons_of_mem _ List.mem_cons_self

theorem along_mailing (q : Call) :
    Along (mailPoint cfg q) (fun _ _ => True) [] (body cfg q) := by
  have replied : ∀ {α : Type} {p : Action α} {f : α → Reply},
      Along (mailPoint cfg q) (fun _ _ => True) [] p →
      Along (mailPoint cfg q) (fun _ _ => True) [] (do return f (← p)) := by
    intro α p f along
    refine along_bind.mpr (along.mono (fun _ _ point => point) fun _ r _ => ?_)
    cases r <;> trivial
  have routine : ∀ {α : Type} {p : Action α}, p.Uses Routine →
      Along (mailPoint cfg q) (fun _ _ => True) [] p := fun quiet =>
    along_silent (silent_of_routine quiet)
  cases q with
  | login userReq req => exact replied (routine routine_login)
  | refresh token deviceId req => exact replied (routine routine_refresh)
  | logoutDevice deviceId user token => exact replied (routine routine_logoutDevice)
  | logoutAll user => exact replied (routine routine_logoutAll)
  | register dto requestId => exact replied along_registration
  | verify email code => exact replied (routine routine_verify)
  | resendCode email => exact replied along_resending
  | forgotPassword email => exact replied along_requesting
  | forgotPasswordVerify email code => exact replied (along_silent silent_confirm)
  | forgotPasswordReset email code password => exact replied (along_silent silent_reset)

end Along

section Effects

variable {s s' : Store} {choice : Choice}

/-- The facts that an executed command has added. -/
def mailedBy : Ev → Set MailFact
  | ⟨.emailOtpUpsert userId codeHash _, .ok _⟩ => {.code userId codeHash}
  | ⟨.natsPublish event, .ok _⟩ => {.published event}
  | ⟨.queueAdd job, .ok _⟩ => {.enqueued job}
  | _ => ∅

/-- The facts that it has taken away. -/
def replacedBy : Ev → Set MailFact
  | ⟨.emailOtpUpsert userId _ _, .ok _⟩ => {f | ∃ codeHash, f = .code userId codeHash}
  | _ => ∅

theorem exec_jobs {c : Cmd} {r : Except Exn c.Resp} (silent : Silent c)
    (executed : exec c choice s = some (r, s')) : s'.jobs = s.jobs := by
  unfold exec at executed
  split at executed
  · split at executed
    · obtain ⟨_, rfl⟩ := Prod.mk.inj (Option.some.inj executed)
      rfl
    · contradiction
  · cases c with
    | emailOtpUpsert | natsPublish | queueAdd => contradiction
    | _ =>
      simp only [execTotal, Store.createUser, Store.updateUser, Store.affected, Store.revokeMany,
        Store.setRefreshTokens, Store.setEmailOtps, Store.setPasswordResets] at executed
      repeat' split at executed
      all_goals first
        | contradiction
        | (obtain ⟨_, rfl⟩ := Prod.mk.inj (Option.some.inj executed); rfl)
        | (obtain ⟨_, _, both⟩ := Option.map_eq_some_iff.mp executed
           obtain ⟨_, rfl⟩ := Prod.mk.inj both; rfl)

theorem exec_silent {c : Cmd} {r : Except Exn c.Resp} (silent : Silent c)
    (executed : exec c choice s = some (r, s')) : s'.mailFacts = s.mailFacts := by
  have events : s'.events = s.events := by
    refine exec_events ?_ executed
    rintro event rfl
    contradiction
  have codes : ∀ u h e, HasCode s' u h e ↔ HasCode s u h e := by
    intro u h e
    by_cases quiet : c.quiet = true
    · rw [HasCode, (exec_quiet quiet executed).1, HasCode]
    · cases c with
      | emailOtpUse id => exact hasCode_use executed u h e
      | emailOtpUpsert | natsPublish => contradiction
      | _ => exact absurd rfl quiet
  ext fact
  cases fact with
  | code userId codeHash => exact exists_congr fun e => codes userId codeHash e
  | published event => exact iff_of_eq (congrArg (event ∈ ·) events)
  | enqueued job => exact iff_of_eq (congrArg (job ∈ ·) (exec_jobs silent executed))

theorem exec_storesCode {userId codeHash : String} {expiresAt : Nat} {r : Except Exn Unit}
    (executed : exec (.emailOtpUpsert userId codeHash expiresAt) choice s = some (r, s')) :
    s'.jobs = s.jobs ∧ ((∃ e, r = .error e) ∧ s' = s ∨ r = .ok ()) := by
  unfold exec at executed
  split at executed
  · cases executed
    exact ⟨rfl, .inl ⟨⟨_, rfl⟩, rfl⟩⟩
  · simp only [execTotal] at executed
    split at executed
    · cases executed
      exact ⟨rfl, .inr rfl⟩
    · obtain ⟨_, _, both⟩ := Option.map_eq_some_iff.mp executed
      cases both
      exact ⟨rfl, .inr rfl⟩

theorem mailFacts_publish (s : Store) (event : UserRegisteredEvent) :
    ({ s with events := event :: s.events } : Store).mailFacts =
      insert (.published event) s.mailFacts := by
  ext fact
  cases fact <;>
    simp only [Store.mailFacts, HasCode, Set.mem_insert_iff, Set.mem_ofPred_eq, List.mem_cons,
      MailFact.published.injEq, reduceCtorEq, false_or]

theorem mailFacts_enqueue (s : Store) (job : MailJob) :
    ({ s with jobs := job :: s.jobs } : Store).mailFacts = insert (.enqueued job) s.mailFacts := by
  ext fact
  cases fact <;>
    simp only [Store.mailFacts, HasCode, Set.mem_insert_iff, Set.mem_ofPred_eq, List.mem_cons,
      MailFact.enqueued.injEq, reduceCtorEq, false_or]

/-- A code that is stored takes the place of those the account had. -/
theorem mailFacts_store {userId codeHash : String} {expiresAt : Nat}
    (executed : exec (.emailOtpUpsert userId codeHash expiresAt) choice s = some (.ok (), s')) :
    s'.mailFacts ⊆ s.mailFacts ∪ {.code userId codeHash} ∧
      s.mailFacts ⊆ s'.mailFacts ∪ {f | ∃ codeHash, f = .code userId codeHash} := by
  have events : s'.events = s.events := exec_events (by rintro event ⟨⟩) executed
  have jobs := (exec_storesCode executed).1
  have codes := hasCode_upsert executed
  constructor
  · rintro (⟨u, h⟩ | event | job) there
    · obtain ⟨e, has⟩ := there
      obtain ⟨rfl, rfl, -⟩ | ⟨-, before⟩ := (codes u h e).mp has
      · exact .inr rfl
      · exact .inl ⟨e, before⟩
    · exact .inl ((congrArg (event ∈ ·) events).mp there)
    · exact .inl ((congrArg (job ∈ ·) jobs).mp there)
  · rintro (⟨u, h⟩ | event | job) there
    · obtain ⟨e, has⟩ := there
      by_cases mine : u = userId
      · exact .inr ⟨h, by rw [mine]⟩
      · exact .inl ⟨e, (codes u h e).mpr (.inr ⟨mine, has⟩)⟩
    · exact .inl ((congrArg (event ∈ ·) events).mpr there)
    · exact .inl ((congrArg (job ∈ ·) jobs).mpr there)

theorem exec_mailing {c : Cmd} {r : Except Exn c.Resp}
    (executed : exec c choice s = some (r, s')) :
    s'.mailFacts ⊆ s.mailFacts ∪ mailedBy ⟨c, r⟩ ∧
      s.mailFacts ⊆ s'.mailFacts ∪ replacedBy ⟨c, r⟩ := by
  by_cases silent : Silent c
  · rw [exec_silent silent executed]
    exact ⟨Set.subset_union_left, Set.subset_union_left⟩
  · cases c with
    | emailOtpUpsert userId codeHash expiresAt =>
      obtain ⟨_, ⟨⟨e, rfl⟩, rfl⟩ | rfl⟩ := exec_storesCode executed
      · exact ⟨Set.subset_union_left, Set.subset_union_left⟩
      · exact mailFacts_store executed
    | natsPublish event =>
      unfold exec at executed
      split at executed
      · contradiction
      · cases executed
        rw [mailFacts_publish]
        exact ⟨Set.union_singleton.symm.subset,
          (Set.subset_insert _ _).trans Set.subset_union_left⟩
    | queueAdd job =>
      unfold exec at executed
      split at executed
      · cases executed
        exact ⟨Set.subset_union_left, Set.subset_union_left⟩
      · cases executed
        rw [mailFacts_enqueue]
        exact ⟨Set.union_singleton.symm.subset,
          (Set.subset_insert _ _).trans Set.subset_union_left⟩
    | _ => exact absurd rfl silent

end Effects

section Runs

variable {pool pool' : AuthPool} {init : Store → Prop}
  {cond : AuthPool → Step cfg → Prop}

/-- What a command adds, its call posts. -/
theorem posts_of_point {q : Call} {trace : List Ev} {c : Cmd} {r : Except Exn c.Resp}
    {fact : MailFact} (point : mailPoint cfg q trace c) (added : fact ∈ mailedBy ⟨c, r⟩) :
    Posts cfg q (⟨c, r⟩ :: trace) fact := by
  cases r with
  | error e => exact absurd added (by cases c <;> exact Set.notMem_empty fact)
  | ok a =>
    cases c with
    | emailOtpUpsert userId codeHash expiresAt =>
      cases Set.mem_singleton_iff.mp added
      obtain ⟨asked, user, hash, serves, draws, rfl, rfl⟩ := point
      exact ⟨user, hash, ⟨asked, serves.longer [_], draws.longer [_], expiresAt,
        List.mem_cons_self⟩, rfl, rfl⟩
    | natsPublish event =>
      cases Set.mem_singleton_iff.mp added
      exact Posts.longer _ _ _ _ point
    | queueAdd job =>
      cases Set.mem_singleton_iff.mp added
      exact Posts.longer _ _ _ _ point
    | _ => exact absurd added (Set.notMem_empty fact)

theorem replaces_of_dropped {q : Call} {trace : List Ev} {c : Cmd} {r : Except Exn c.Resp}
    {fact : MailFact} (dropped : fact ∈ replacedBy ⟨c, r⟩) :
    Replaces q (⟨c, r⟩ :: trace) fact := by
  cases r with
  | error e => exact absurd dropped (by cases c <;> exact Set.notMem_empty fact)
  | ok a =>
    cases c with
    | emailOtpUpsert userId codeHash expiresAt =>
      obtain ⟨old, rfl⟩ := dropped
      exact ⟨codeHash, expiresAt, List.mem_cons_self⟩
    | _ => exact absurd dropped (Set.notMem_empty fact)

theorem mailing_attributed (cfg : Config) (cond : AuthPool → Step cfg → Prop)
    (init : Store → Prop) :
    (authSystem cfg).Attributes cond init Store.mailFacts (Posts cfg) Replaces where
  made_longer := Posts.longer
  taken_longer := Replaces.longer
  gains pool t choice th c r s reachable found next _ executed fact there :=
    ((exec_mailing executed).1 there).imp id
      (posts_of_point (reachable.point along_mailing found next))
  loses pool t choice th c r s _ _ _ _ executed fact there :=
    ((exec_mailing executed).2 there).imp id replaces_of_dropped
  acts a s s' acted := by
    cases a with
    | tick ms =>
      cases Option.some.inj acted
      rfl
    | setPermVersion userId version =>
      cases Option.some.inj acted
      rfl

/-- The address that a call is asked with is the one of the account. -/
def Addressed (cfg : Config) : Call → User → Prop
  | .register dto _, user => user.email = normalizeEmail cfg dto.email
  | .resendCode email, user | .forgotPassword email, user =>
      ∀ address, email = some address → user.email = address
  | _, _ => False

/-- The account that a command shows, with the address it was made or found by. -/
inductive ShowsUser : Ev → Option String → User → Prop where
  | created (email : String) (passwordHash : Argon2Hash String) (name phone : Option String)
      (isActive : Bool) (user : User) :
      ShowsUser ⟨.userCreate email passwordHash name phone isActive, .ok user⟩ (some email) user
  | found (w : UserWhere) (user : User) :
      ShowsUser ⟨.userFindFirst w, .ok (some user)⟩ w.email user

theorem exec_showsUser {c : Cmd} {choice : Choice} {s s' : Store} {r : Except Exn c.Resp}
    {email : Option String} {user : User} (executed : exec c choice s = some (r, s'))
    (shows : ShowsUser ⟨c, r⟩ email user) :
    Remains s' user ∧ ∀ address, email = some address → user.email = address := by
  cases shows with
  | created email passwordHash name phone isActive =>
    obtain ⟨_, impossible, _⟩ | ⟨_, user, named, same, inserted, _⟩ :=
      exec_userCreate (exec_answered executed) executed
    · nomatch impossible
    · cases Except.ok.inj same
      refine ⟨⟨_, (Table.mem_insert? inserted).mpr (.inl rfl), rfl, rfl⟩, ?_⟩
      rintro address ⟨⟩
      exact named
  | found w =>
    obtain ⟨inTable, matching⟩ := exec_userFindFirst executed
    refine ⟨exec_users executed inTable, fun address asked => ?_⟩
    simp only [UserWhere.holds, asked, Option.all_some, Bool.and_eq_true, beq_iff_eq] at matching
    exact matching.1.2.symm

/-- An account that a call has been shown stays, under the address it was made or found by. -/
theorem shown_remains (reachable : (authSystem cfg).Reachable cond init pool)
    (member : th ∈ pool.threads) {e : Ev} {email : Option String} {user : User}
    (executed : e ∈ th.trace) (shows : ShowsUser e email user) :
    Remains pool.store user ∧ ∀ address, email = some address → user.email = address := by
  obtain ⟨t, found⟩ := Pool.mem_threads.mp member
  refine reachable.seen (P := fun _ s e => ∀ email, ShowsUser e email user →
    Remains s user ∧ ∀ address, email = some address → user.email = address) found executed
    ?_ ?_ ?_ email shows
  · exact fun pool t choice th c r s _ _ _ ran email shows => exec_showsUser ran shows
  · exact fun q e c choice s r s' ran earlier email shows =>
      (earlier email shows).imp (fun remains => remains.trans fun _ => exec_users ran) id
  · exact fun q e a s s' acted earlier email shows =>
      (earlier email shows).imp (fun remains => remains.trans fun _ => act_users acted) id

/-- An account that a call draws codes for stays, under the address that the call was asked with. -/
theorem serves_remains (reachable : (authSystem cfg).Reachable cond init pool)
    (member : th ∈ pool.threads) {user : User} (serves : Serves cfg th.request th.trace user) :
    Remains pool.store user ∧ Addressed cfg th.request user := by
  have shown : ∀ e ∈ th.trace, ∀ email, ShowsUser e email user → Remains pool.store user ∧
      ∀ address, email = some address → user.email = address := fun _ executed _ shows =>
    shown_remains reachable member executed shows
  generalize th.request = q at serves ⊢
  cases q <;> try exact serves.elim
  · obtain ⟨passwordHash, created⟩ := serves
    obtain ⟨remains, named⟩ := shown _ created _ (.created _ _ _ _ _ _)
    exact ⟨remains, named _ rfl⟩
  · exact shown _ serves.1 _ (.found _ _)
  · exact shown _ serves _ (.found _ _)

/-- An account that is there under the address of `user` is this account. -/
theorem owner_of_remains {s : Store} {user other : User} (remains : Remains s user)
    (there : other ∈ s.db.users) : other.email = user.email ↔ other.id = user.id := by
  obtain ⟨kept, inTable, sameId, sameEmail⟩ := remains
  rw [← sameId, ← sameEmail]
  constructor
  · intro same
    rw [List.inj_on_of_nodup_map s.db.emails there inTable same]
  · intro same
    rw [Table.eq_of_key there inTable same]

end Runs

end CorePlatform.Auth
