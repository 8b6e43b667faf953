import CorePlatform.Auth.Custody

/-! Runs of the auth service in which a password changes. The three calls of a reset, and what each
has seen of the one before. The identifier of a reset row is a UUID: a new row does not get that of
a row that some call has read. -/
namespace CorePlatform.Auth
open Async Relational

variable {cfg : Config}

/-- The reset row that a call has read. -/
def readReset? : Ev → Option PasswordReset
  | ⟨.passwordResetFindFirst _, .ok row⟩ => row
  | _ => none

def freshReset (pool : AuthPool) : Step cfg → Bool
  | .run t choice => (pool.thread? t).all fun th => match th.next? with
    | some (.passwordResetCreate ..) => pool.threads.all fun other => other.trace.all fun e =>
        (readReset? e).all (·.id ≠ choice.draw)
    | _ => true
  | _ => true

/-- A new reset row does not get the identifier of a row that has been read. -/
def FreshResets (pool : AuthPool) (label : Step cfg) : Prop := freshReset pool label = true

instance (pool : AuthPool) (label : Step cfg) : Decidable (FreshResets pool label) :=
  inferInstanceAs (Decidable (freshReset pool label = true))

theorem FreshResets.unread {pool : AuthPool} {t : Nat} {choice : Choice} {th : AuthThread}
    {userId : String} {tokenHash : Argon2Hash String} {expiresAt : Nat}
    (fresh : @FreshResets cfg pool (.run t choice)) (found : pool.thread? t = some th)
    (next : th.next? = some (.passwordResetCreate userId tokenHash expiresAt))
    (member : other ∈ pool.threads) (executed : e ∈ other.trace) (read : readReset? e = some row) :
    row.id ≠ choice.draw := by
  unfold FreshResets freshReset at fresh
  simp only [found, next, Option.all_some, List.all_eq_true] at fresh
  have apart := fresh other member e executed
  rw [read] at apart
  exact of_decide_eq_true apart

/-- The row that has been read, if it is still there, is the same but for its mark. -/
def Current (s : Store) (row : PasswordReset) : Prop :=
  ∀ now ∈ s.db.passwordResets, now.id = row.id →
    now.userId = row.userId ∧ now.tokenHash = row.tokenHash

section Runs

variable {db : Db} {pool pool' : AuthPool} {init : Store → Prop}

theorem CustodyEffect.current {s s' : Store} {draw : String} {e : Ev} {row : PasswordReset}
    (effect : CustodyEffect s draw e s') (before : Current s row)
    (apart : ∀ userId tokenHash expiresAt,
      e.cmd = .passwordResetCreate userId tokenHash expiresAt → row.id ≠ draw) :
    Current s' row := by
  intro now stored same
  cases effect with
  | none e s' users resets => exact before now (resets ▸ stored) same
  | create user s' inserted resets => exact before now (resets ▸ stored) same
  | activate id => exact before now stored same
  | setPassword id passwordHash => exact before now stored same
  | issue new rows unused drawn inserted =>
    obtain rfl | old := (Table.mem_insert? inserted).mp stored
    · exact absurd (same.symm.trans drawn) (apart _ _ _ rfl)
    · exact before now old same
  | use id rows modified =>
    obtain ⟨old, inTable, rfl⟩ := (Table.mem_modify? modified).mp stored
    split at same
    · rw [if_pos ‹_›]
      exact before old inTable same
    · rw [if_neg ‹_›]
      exact before old inTable same
  | delete id rows removed => exact before now ((Table.mem_remove? removed).mp stored).1 same

/-- What a call has read of a reset row stays so. -/
theorem reads_current (reachable : (authSystem cfg).Reachable FreshResets init pool)
    {w : PasswordResetWhere} {row : PasswordReset} (member : th ∈ pool.threads)
    (executed : (⟨.passwordResetFindFirst w, .ok (some row)⟩ : Ev) ∈ th.trace) :
    w.holds row = true ∧ Current pool.store row := by
  suffices all : ∀ th ∈ pool.threads, ∀ w row,
      (⟨.passwordResetFindFirst w, .ok (some row)⟩ : Ev) ∈ th.trace →
      w.holds row = true ∧ Current pool.store row from all th member w row executed
  refine reachable.invariant (P := fun pool => ∀ th ∈ pool.threads, ∀ w row,
    (⟨.passwordResetFindFirst w, .ok (some row)⟩ : Ev) ∈ th.trace →
    w.holds row = true ∧ Current pool.store row) ?_ ?_
  · exact fun s _ th none => absurd none List.not_mem_nil
  · intro pool label pool' _ _ earlier met effect th member w row executed
    obtain ⟨u, found'⟩ := Pool.mem_threads.mp member
    cases effect with
    | spawn q =>
      obtain ⟨_, rfl⟩ | old := Pool.add_cases found'
      · exact absurd executed List.not_mem_nil
      · exact earlier th (Pool.thread?_mem old) w row executed
    | act a s acted =>
      obtain ⟨holds, before⟩ := earlier th member w row executed
      refine ⟨holds, fun now stored same => before now ?_ same⟩
      cases a with
      | tick ms =>
        cases Option.some.inj acted
        exact stored
      | setPermVersion userId version =>
        cases Option.some.inj acted
        exact stored
    | run t choice th₀ c k r s found awaits ran =>
      have next : th₀.next? = some c := by rw [Thread.next?, awaits]
      have stays : ∀ other ∈ pool.threads, ∀ w row,
          (⟨.passwordResetFindFirst w, .ok (some row)⟩ : Ev) ∈ other.trace →
          w.holds row = true ∧ Current s row := by
        intro other inPool w row executed
        obtain ⟨holds, before⟩ := earlier other inPool w row executed
        refine ⟨holds, (exec_custody ran).current before ?_⟩
        rintro userId tokenHash expiresAt rfl
        exact met.unread found next inPool executed rfl
      obtain ⟨rfl, rfl⟩ | ⟨_, old⟩ := Pool.set_cases found'
      · obtain new | older := List.mem_cons.mp executed
        · obtain ⟨rfl, same⟩ := Event.mk.inj new
          cases same
          obtain ⟨stored, holds⟩ := exec_passwordResetFindFirst ran
          have current : Current pool.store row := by
            intro now inTable same
            cases Table.eq_of_key inTable stored same
            exact ⟨rfl, rfl⟩
          exact ⟨holds, (exec_custody ran).current current fun _ _ _ impossible => by
            contradiction⟩
        · exact stays th₀ (Pool.thread?_mem found) w row older
      · exact stays th (Pool.thread?_mem old) w row executed

theorem holds_resetsOf {userId : String} {since : Option Nat} {used : Bool} {row : PasswordReset}
    (holds : (resetsOf userId since used).holds row = true) :
    row.userId = userId ∧ row.used = used := by
  simp only [PasswordResetWhere.holds, Option.all_some, Bool.and_eq_true, beq_iff_eq] at holds
  exact ⟨holds.1.1.symm, holds.2.symm⟩

section Points

variable {q : Call} {trace : List Ev} {s : Store} {fact : AccountFact}

/-- What the rows that a call has read say of the table. -/
def ReadsCurrent (s : Store) (trace : List Ev) : Prop := ∀ w row,
  (⟨.passwordResetFindFirst w, .ok (some row)⟩ : Ev) ∈ trace → w.holds row = true ∧ Current s row

/-- A row of the table with the identifier of a picked one. -/
theorem Picked.current {email code : Option String} {used : Bool} {userId : String}
    {row now : PasswordReset} (picked : Picked trace email code used userId row)
    (current : ReadsCurrent s trace) (stored : now ∈ s.db.passwordResets) (same : now.id = row.id) :
    now.userId = userId ∧ now.tokenHash = row.tokenHash := by
  obtain ⟨since, found⟩ := picked.found
  obtain ⟨holds, kept⟩ := current _ row found
  obtain ⟨owner, hash⟩ := kept now stored same
  exact ⟨owner.trans (holds_resetsOf holds).1, hash⟩

/-- What a command adds, its call makes. -/
theorem makes_of_point {c : Cmd} {r : Except Exn c.Resp} (point : custodyPoint cfg q trace c)
    (current : ReadsCurrent s trace) (added : fact ∈ addedBy s ⟨c, r⟩) :
    Makes cfg q (⟨c, r⟩ :: trace) fact := by
  cases c with
  | userCreate email hash name phone active =>
    cases r with
    | error e => exact absurd added (Set.notMem_empty fact)
    | ok user =>
      cases q <;> try contradiction
      have created : Created (⟨.userCreate email hash name phone active, .ok user⟩ :: trace)
        user.id := ⟨email, hash, name, phone, active, user, List.mem_cons_self, rfl⟩
      obtain rfl | rfl := added
      · exact ⟨point.1, created⟩
      · exact ⟨point.2, created⟩
  | userSetPassword id hash =>
    cases r with
    | error e => exact absurd added (Set.notMem_empty fact)
    | ok _ =>
      cases q <;> try contradiction
      cases Set.mem_singleton_iff.mp added
      exact ⟨point.1, point.2.imp fun _ picked => picked.longer _⟩
  | passwordResetCreate userId hash expiresAt =>
    cases r with
    | error e => exact absurd added (Set.notMem_empty fact)
    | ok _ =>
      cases q <;> try contradiction
      cases Set.mem_singleton_iff.mp added
      obtain ⟨holder, code, drawn, same⟩ := point
      exact ⟨holder.longer _, code, List.mem_cons_of_mem _ drawn, same⟩
  | passwordResetUse id =>
    cases r with
    | error e => exact absurd added (Set.notMem_empty fact)
    | ok _ =>
      cases q <;> try contradiction
      obtain ⟨now, stored, rfl, rfl⟩ := added
      obtain ⟨userId, row, picked, same⟩ := point
      obtain ⟨rfl, hash⟩ := picked.current current stored same.symm
      exact ⟨picked.holder.longer _, hash ▸ picked.matching⟩
  | _ => exact absurd added (by cases r <;> exact Set.notMem_empty fact)

/-- What a command takes away, its call does. -/
theorem takes_of_point {c : Cmd} {r : Except Exn c.Resp} (point : custodyPoint cfg q trace c)
    (current : ReadsCurrent s trace) (dropped : fact ∈ droppedBy s ⟨c, r⟩) :
    Takes q (⟨c, r⟩ :: trace) fact := by
  cases c with
  | userSetPassword id hash =>
    cases r with
    | error e => exact absurd dropped (Set.notMem_empty fact)
    | ok _ =>
      cases q <;> try contradiction
      obtain ⟨old, rfl⟩ := dropped
      exact point.2.imp fun _ picked => picked.longer _
  | passwordResetDelete id =>
    cases r with
    | error e => exact absurd dropped (Set.notMem_empty fact)
    | ok _ =>
      cases q <;> try contradiction
      obtain ⟨now, stored, rfl, deleted⟩ := dropped
      obtain ⟨userId, row, picked, same⟩ := point
      obtain ⟨rfl, hash⟩ := picked.current current stored same.symm
      obtain rfl | rfl := deleted <;> exact ⟨row, picked.longer _, hash.symm⟩
  | _ => exact absurd dropped (by cases r <;> exact Set.notMem_empty fact)

end Points

theorem custody_attributed (cfg : Config) (init : Store → Prop) :
    (authSystem cfg).Attributes FreshResets init (fun s => s.db.accountFacts) (Makes cfg)
      Takes where
  made_longer := Makes.longer
  taken_longer := Takes.longer
  gains pool t choice th c r s reachable found next _ executed fact there :=
    ((exec_custody executed).facts.1 there).imp id
      (makes_of_point (reachable.point along_custody found next) fun _ _ read =>
        reads_current reachable (Pool.thread?_mem found) read)
  loses pool t choice th c r s reachable found next _ executed fact there :=
    ((exec_custody executed).facts.2 there).imp id
      (takes_of_point (reachable.point along_custody found next) fun _ _ read =>
        reads_current reachable (Pool.thread?_mem found) read)
  acts a s s' acted := by
    cases a with
    | tick ms =>
      cases Option.some.inj acted
      rfl
    | setPermVersion userId version =>
      cases Option.some.inj acted
      exact congrArg₂ (· ∪ ·) (userFacts_update fun _ => rfl) rfl

abbrev From (cfg : Config) (db : Db) (pool : AuthPool) : Prop :=
  (authSystem cfg).Reachable FreshResets (fun s => s.db = db) pool

/-- Between any two states of a run: accounts never go, and an account, a password, a reset code or
its confirmation that comes or goes is the work of a call that has looked up this account; what goes
does so by a call that has picked a confirmed code of the account, its own. -/
theorem custody_accounted (reachable : From cfg db pool)
    (run : (authSystem cfg).Run FreshResets pool pool') :
    pool'.store.db.accountFacts ⊆ pool.store.db.accountFacts ∪ pool'.byCalls (Makes cfg) ∧
      pool.store.db.accountFacts ⊆ pool'.store.db.accountFacts ∪ pool'.byCalls Takes :=
  (custody_attributed cfg _).between reachable run

/-- The code of a reset has been drawn for the account. -/
def CodeDrawn (db : Db) (pool : AuthPool) (userId code : String) : Prop :=
  (∃ row ∈ db.passwordResets, row.userId = userId ∧ row.tokenHash.plain = code) ∨
  ∃ th ∈ pool.threads, ∃ email draw, th.request = .forgotPassword email ∧
    Holder th.trace email userId ∧ (⟨.randomCode, .ok draw⟩ : Ev) ∈ th.trace ∧ draw.val = code

/-- The code has been presented for the account and found right. -/
def CodePresented (db : Db) (pool : AuthPool) (userId code : String) : Prop :=
  (∃ row ∈ db.passwordResets, row.userId = userId ∧ row.tokenHash.plain = code ∧
    row.used = true) ∨
  ∃ th ∈ pool.threads, ∃ email, th.request = .forgotPasswordVerify email (some code) ∧
    Holder th.trace email userId

theorem drawn_of_accounted {userId : String} {hash : Argon2Hash String}
    (accounted : .issued userId hash ∈ System.Accounted db.accountFacts (Makes cfg) pool) :
    CodeDrawn db pool userId hash.plain := by
  obtain (impossible | ⟨row, stored, owner, rfl⟩) | ⟨th, member, made⟩ := accounted
  · exact impossible.elim
  · exact .inl ⟨row, stored, owner, rfl⟩
  · cases asked : th.request <;> rw [asked] at made <;> try exact made.elim
    obtain ⟨holder, draw, drawn, same⟩ := made
    exact .inr ⟨th, member, _, draw, asked, holder, drawn, same.symm⟩

theorem presented_of_accounted {userId : String} {hash : Argon2Hash String}
    (accounted : .confirmed userId hash ∈ System.Accounted db.accountFacts (Makes cfg) pool) :
    CodePresented db pool userId hash.plain := by
  obtain (impossible | ⟨row, stored, owner, rfl, used⟩) | ⟨th, member, made⟩ := accounted
  · exact impossible.elim
  · exact .inl ⟨row, stored, owner, rfl, used⟩
  · cases asked : th.request <;> rw [asked] at made <;> try exact made.elim
    obtain ⟨holder, rfl⟩ := made
    exact .inr ⟨th, member, _, asked, holder⟩

/-- What the query for a reset row shows. -/
def ShowsReset (e : Ev) (fact : AccountFact) : Prop := ∃ row, readReset? e = some row ∧
  (fact = .issued row.userId row.tokenHash ∨
    row.used = true ∧ fact = .confirmed row.userId row.tokenHash)

theorem showsReset_true {c : Cmd} {choice : Choice} {s s' : Store} {r : Except Exn c.Resp}
    {fact : AccountFact} (executed : exec c choice s = some (r, s'))
    (shows : ShowsReset ⟨c, r⟩ fact) : fact ∈ s.db.accountFacts := by
  obtain ⟨row, read, facts⟩ := shows
  unfold readReset? at read
  split at read
  · rename_i w row' heard
    subst read
    obtain ⟨rfl, same⟩ := Event.mk.inj heard
    cases same
    obtain ⟨stored, _⟩ := exec_passwordResetFindFirst executed
    obtain rfl | ⟨used, rfl⟩ := facts
    · exact .inr ⟨row, stored, rfl, rfl⟩
    · exact .inr ⟨row, stored, rfl, rfl, used⟩
  · contradiction

/-- A call that has picked a confirmed row of the account: its code was drawn for the account, and
presented for it before. -/
theorem code_chain {email code : Option String} {userId : String} {row : PasswordReset}
    (reachable : From cfg db pool) (member : th ∈ pool.threads)
    (picked : Picked th.trace email code true userId row) :
    CodeDrawn db pool userId row.tokenHash.plain ∧
      CodePresented db pool userId row.tokenHash.plain := by
  obtain ⟨since, found⟩ := picked.found
  obtain ⟨rfl, used⟩ := holds_resetsOf (reads_current reachable member found).1
  have accounted : ∀ fact, ShowsReset _ fact →
      fact ∈ System.Accounted db.accountFacts (Makes cfg) pool := fun fact shows =>
    (custody_attributed cfg _).shown (fun s start => congrArg Db.accountFacts start)
      (fun pool t choice th c r s fact _ _ _ ran => showsReset_true ran) reachable member found
      shows
  exact ⟨drawn_of_accounted (accounted _ ⟨row, rfl, .inl rfl⟩),
    presented_of_accounted (accounted _ ⟨row, rfl, .inr ⟨used, rfl⟩⟩)⟩

/-- Whatever the interleaving: the password of an account is the one it had, the one that it was
registered with, or one set by a reset for this account that has presented a code drawn for the
account, after a verification that had presented the same code. -/
theorem password_custody (reachable : From cfg db pool) (stored : user ∈ pool.store.db.users) :
    (∃ old ∈ db.users, old.id = user.id ∧ old.passwordHash = user.passwordHash) ∨
    (∃ th ∈ pool.threads, ∃ dto requestId, th.request = .register dto requestId ∧
      user.passwordHash.plain = dto.password ∧ Created th.trace user.id) ∨
    ∃ th ∈ pool.threads, ∃ email code, th.request =
        .forgotPasswordReset email (some code) (some user.passwordHash.plain) ∧
      Holder th.trace email user.id ∧ CodeDrawn db pool user.id code ∧
        CodePresented db pool user.id code := by
  have accounted := (custody_attributed cfg _).accounted
    (fun s start => congrArg Db.accountFacts start) reachable
    (show AccountFact.password user.id user.passwordHash ∈ pool.store.db.accountFacts from
      .inl ⟨user, stored, rfl, rfl⟩)
  obtain (old | impossible) | ⟨th, member, made⟩ := accounted
  · exact .inl old
  · exact impossible.elim
  · cases asked : th.request <;> rw [asked] at made <;> try exact made.elim
    · exact .inr (.inl ⟨th, member, _, _, asked, made.1, made.2⟩)
    · obtain ⟨rfl, row, picked⟩ := made
      obtain ⟨drawn, presented⟩ := code_chain reachable member picked
      obtain rfl := picked.matching
      exact .inr (.inr ⟨th, member, _, _, asked, picked.holder, drawn, presented⟩)

/-- An account with a forgotten password. -/
def forgetfulUser : User :=
  { id := carolId, email := "carol@mail.com", passwordHash := ⟨argonSalt0, "Forgotten1"⟩
    createdAt := 0 }

def forgetfulDb : Db := { users := ⟨[forgetfulUser], by decide⟩ }

/-- The three calls of a reset, one after the other. -/
def resetSteps : List (Step Config.default) :=
  .spawn (.forgotPassword (some "carol@mail.com")) ::
      ["", "k3x9", argonSalt1, "", "", "", resetId1, "", ""].map
        (fun draw => .run 0 ({ draw } : Choice)) ++
    .spawn (.forgotPasswordVerify (some "carol@mail.com") (some "k3x9")) ::
      List.replicate 4 (.run 1 ({} : Choice)) ++
    .spawn (.forgotPasswordReset (some "carol@mail.com") (some "k3x9") (some "Renewed2")) ::
      List.replicate 7 (.run 2 ({ draw := argonSalt2 } : Choice))

def renewed (pool : AuthPool) : Bool :=
  pool.store.db.users.rows.any fun user => user.passwordHash.plain = "Renewed2"

theorem custody_accounted_renewed : ∃ pool, From Config.default forgetfulDb pool ∧
    renewed pool = true ∧ pool.store.db.accountFacts ⊆
      forgetfulDb.accountFacts ∪ pool.byCalls (Makes Config.default) := by
  have tested : ((authSystem Config.default).replay FreshResets
      (System.idle { db := forgetfulDb }) resetSteps).any renewed = true := by decide +kernel
  obtain ⟨pool, run, passed⟩ := System.run_of_replay tested
  exact ⟨pool, ⟨_, rfl, run⟩, passed, (custody_accounted ⟨_, rfl, .refl⟩ run).1⟩

/-- The new password is there by a code that was drawn and presented. -/
theorem password_custody_renewed : ∃ pool, From Config.default forgetfulDb pool ∧
    ∃ user ∈ pool.store.db.users, user.passwordHash.plain = "Renewed2" ∧ (
      (∃ th ∈ pool.threads, ∃ dto requestId, th.request = .register dto requestId ∧
        user.passwordHash.plain = dto.password ∧ Created th.trace user.id) ∨
      ∃ code, CodeDrawn forgetfulDb pool user.id code ∧
        CodePresented forgetfulDb pool user.id code) := by
  have tested : ((authSystem Config.default).replay FreshResets
      (System.idle { db := forgetfulDb }) resetSteps).any renewed = true := by decide +kernel
  obtain ⟨pool, run, passed⟩ := System.run_of_replay tested
  obtain ⟨user, stored, changed⟩ := List.any_eq_true.mp passed
  have reachable : From Config.default forgetfulDb pool := ⟨_, rfl, run⟩
  have changed := of_decide_eq_true changed
  refine ⟨pool, reachable, user, stored, changed, ?_⟩
  obtain ⟨old, inTable, _, same⟩ | registered | ⟨_, _, _, code, _, _, drawn, presented⟩ :=
    password_custody reachable stored
  · cases List.mem_singleton.mp inTable
    rw [← same] at changed
    exact absurd changed (by decide)
  · exact .inl registered
  · exact .inr ⟨code, drawn, presented⟩

end Runs
end CorePlatform.Auth
