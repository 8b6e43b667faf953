import CorePlatform.Async.Attribution
import CorePlatform.Auth.Bodies

/-! Who can change a password. Accounts, their passwords and their reset codes are facts of the
tables; each that appears is the work of a call on the account, and a password of an account that
exists is replaced only with a code that was drawn for the account and confirmed beforehand. -/
namespace CorePlatform.Auth
open Async Relational

variable {cfg : Config}

inductive AccountFact where
  | account (id email : String)
  | password (userId : String) (hash : Argon2Hash String)
  | issued (userId : String) (hash : Argon2Hash String)
  | confirmed (userId : String) (hash : Argon2Hash String)

def userFacts (users : Table User.id) : Set AccountFact := {f | match f with
  | .account id email => ∃ user ∈ users, user.id = id ∧ user.email = email
  | .password userId hash => ∃ user ∈ users, user.id = userId ∧ user.passwordHash = hash
  | .issued .. | .confirmed .. => False}

def resetFacts (resets : Table PasswordReset.id) : Set AccountFact := {f | match f with
  | .issued userId hash => ∃ row ∈ resets, row.userId = userId ∧ row.tokenHash = hash
  | .confirmed userId hash =>
      ∃ row ∈ resets, row.userId = userId ∧ row.tokenHash = hash ∧ row.used = true
  | .account .. | .password .. => False}

def Db.accountFacts (db : Db) : Set AccountFact :=
  userFacts db.users ∪ resetFacts db.passwordResets

section Effects

variable {s s' : Store} {choice : Choice}

/-- What an executed command did to the accounts and their reset codes. -/
inductive CustodyEffect (s : Store) (draw : String) : Ev → Store → Prop where
  | none (e : Ev) (s' : Store) (users : s'.db.users = s.db.users)
      (resets : s'.db.passwordResets = s.db.passwordResets) : CustodyEffect s draw e s'
  | create (user : User) (s' : Store) (inserted : s.db.users.insert? user = some s'.db.users)
      (resets : s'.db.passwordResets = s.db.passwordResets) :
      CustodyEffect s draw ⟨.userCreate user.email user.passwordHash user.name user.phone
        user.isActive, .ok user⟩ s'
  | activate (id : String) : CustodyEffect s draw ⟨.userActivate id, .ok ()⟩
      (s.updateUser id fun u => { u with isActive := true })
  | setPassword (id : String) (passwordHash : Argon2Hash String) :
      CustodyEffect s draw ⟨.userSetPassword id passwordHash, .ok ()⟩
        (s.updateUser id fun u => { u with passwordHash })
  | issue (row : PasswordReset) (rows : Table PasswordReset.id) (unused : row.used = false)
      (drawn : row.id = draw) (inserted : s.db.passwordResets.insert? row = some rows) :
      CustodyEffect s draw ⟨.passwordResetCreate row.userId row.tokenHash row.expiresAt, .ok ()⟩
        (s.setPasswordResets rows)
  | use (id : String) (rows : Table PasswordReset.id)
      (modified : s.db.passwordResets.modify? id (fun row => { row with used := true }) =
        some rows) :
      CustodyEffect s draw ⟨.passwordResetUse id, .ok ()⟩ (s.setPasswordResets rows)
  | delete (id : String) (rows : Table PasswordReset.id)
      (removed : s.db.passwordResets.remove? id = some rows) :
      CustodyEffect s draw ⟨.passwordResetDelete id, .ok ()⟩ (s.setPasswordResets rows)

theorem exec_custody {c : Cmd} {r : Except Exn c.Resp}
    (executed : exec c choice s = some (r, s')) : CustodyEffect s choice.draw ⟨c, r⟩ s' := by
  unfold exec at executed
  split at executed
  · split at executed
    · obtain ⟨_, rfl⟩ := Prod.mk.inj (Option.some.inj executed)
      exact .none _ _ rfl rfl
    · contradiction
  · cases c with
    | userCreate email passwordHash name phone isActive =>
      simp only [execTotal, Store.createUser] at executed
      split at executed
      · split at executed
        · rename_i users inserted
          obtain ⟨rfl, rfl⟩ := Prod.mk.inj (Option.some.inj executed)
          exact .create
            { id := choice.draw, email, passwordHash, name, phone, isActive, createdAt := s.now }
              _ inserted rfl
        · contradiction
      · obtain ⟨_, rfl⟩ := Prod.mk.inj (Option.some.inj executed)
        exact .none _ _ rfl rfl
    | userActivate id =>
      simp only [execTotal] at executed
      split at executed
      · obtain ⟨rfl, rfl⟩ := Prod.mk.inj (Option.some.inj executed)
        exact .activate id
      · obtain ⟨_, rfl⟩ := Prod.mk.inj (Option.some.inj executed)
        exact .none _ _ rfl rfl
    | userSetPassword id passwordHash =>
      simp only [execTotal] at executed
      split at executed
      · obtain ⟨rfl, rfl⟩ := Prod.mk.inj (Option.some.inj executed)
        exact .setPassword id passwordHash
      · obtain ⟨_, rfl⟩ := Prod.mk.inj (Option.some.inj executed)
        exact .none _ _ rfl rfl
    | passwordResetCreate userId tokenHash expiresAt =>
      simp only [execTotal, Option.map_eq_some_iff] at executed
      obtain ⟨rows, inserted, out⟩ := executed
      obtain ⟨rfl, rfl⟩ := Prod.mk.inj out
      exact .issue { id := choice.draw, userId, tokenHash, expiresAt } rows rfl rfl inserted
    | passwordResetUse id =>
      simp only [execTotal, Store.affected, Option.some.injEq] at executed
      split at executed
      · rename_i rows modified
        obtain ⟨rfl, rfl⟩ := Prod.mk.inj executed
        exact .use id rows modified
      · obtain ⟨_, rfl⟩ := Prod.mk.inj executed
        exact .none _ _ rfl rfl
    | passwordResetDelete id =>
      simp only [execTotal, Store.affected, Option.some.injEq] at executed
      split at executed
      · rename_i rows removed
        obtain ⟨rfl, rfl⟩ := Prod.mk.inj executed
        exact .delete id rows removed
      · obtain ⟨_, rfl⟩ := Prod.mk.inj executed
        exact .none _ _ rfl rfl
    | _ =>
      simp only [execTotal, Store.affected, Store.setEmailOtps, Store.revokeMany,
        Store.setRefreshTokens] at executed
      repeat' split at executed
      all_goals first
        | contradiction
        | (obtain ⟨_, rfl⟩ := Prod.mk.inj (Option.some.inj executed); exact .none _ _ rfl rfl)
        | (obtain ⟨_, _, both⟩ := Option.map_eq_some_iff.mp executed
           obtain ⟨_, rfl⟩ := Prod.mk.inj both; exact .none _ _ rfl rfl)

/-- The facts that an executed command has added to the tables it found. -/
def addedBy (s : Store) : Ev → Set AccountFact
  | ⟨.userCreate email hash _ _ _, .ok user⟩ => {.account user.id email, .password user.id hash}
  | ⟨.userSetPassword id hash, .ok _⟩ => {.password id hash}
  | ⟨.passwordResetCreate userId hash _, .ok _⟩ => {.issued userId hash}
  | ⟨.passwordResetUse id, .ok _⟩ =>
      {f | ∃ row ∈ s.db.passwordResets, row.id = id ∧ f = .confirmed row.userId row.tokenHash}
  | _ => ∅

/-- The facts that it has taken away. -/
def droppedBy (s : Store) : Ev → Set AccountFact
  | ⟨.userSetPassword id _, .ok _⟩ => {f | ∃ hash, f = .password id hash}
  | ⟨.passwordResetDelete id, .ok _⟩ => {f | ∃ row ∈ s.db.passwordResets, row.id = id ∧
      (f = .issued row.userId row.tokenHash ∨ f = .confirmed row.userId row.tokenHash)}
  | _ => ∅

section Tables

variable {users users' : Table User.id} {resets resets' : Table PasswordReset.id}

theorem userFacts_insert {user : User} (inserted : users.insert? user = some users') :
    userFacts users ⊆ userFacts users' ∧ userFacts users' ⊆
      userFacts users ∪ {.account user.id user.email, .password user.id user.passwordHash} := by
  constructor
  · rintro (⟨id, email⟩ | ⟨userId, hash⟩ | _ | _) there
    · obtain ⟨other, stored, same⟩ := there
      exact ⟨other, (Table.mem_insert? inserted).mpr (.inr stored), same⟩
    · obtain ⟨other, stored, same⟩ := there
      exact ⟨other, (Table.mem_insert? inserted).mpr (.inr stored), same⟩
    · exact there
    · exact there
  · rintro (⟨id, email⟩ | ⟨userId, hash⟩ | _ | _) there
    · obtain ⟨other, stored, rfl, rfl⟩ := there
      obtain rfl | old := (Table.mem_insert? inserted).mp stored
      · exact .inr (.inl rfl)
      · exact .inl ⟨other, old, rfl, rfl⟩
    · obtain ⟨other, stored, rfl, rfl⟩ := there
      obtain rfl | old := (Table.mem_insert? inserted).mp stored
      · exact .inr (.inr rfl)
      · exact .inl ⟨other, old, rfl, rfl⟩
    · exact .inl there
    · exact .inl there

/-- An update of columns that are not facts. -/
theorem userFacts_update {id : String} {f : User → User} {same : ∀ u, (f u).id = u.id}
    {email : ∀ u, (f u).email = u.email} (kept : ∀ u, (f u).passwordHash = u.passwordHash) :
    userFacts (s.updateUser id f same email).db.users = userFacts s.db.users := by
  have columns : ∀ old : User, (if old.id = id then f old else old).id = old.id ∧
      (if old.id = id then f old else old).email = old.email ∧
      (if old.id = id then f old else old).passwordHash = old.passwordHash := by
    intro old
    split
    · exact ⟨same old, email old, kept old⟩
    · exact ⟨rfl, rfl, rfl⟩
  ext fact
  cases fact with
  | account userId address =>
    constructor
    · rintro ⟨user, stored, rfl, rfl⟩
      obtain ⟨old, inTable, rfl⟩ := mem_updateUser.mp stored
      exact ⟨old, inTable, (columns old).1.symm, (columns old).2.1.symm⟩
    · rintro ⟨old, inTable, rfl, rfl⟩
      exact ⟨_, mem_updateUser.mpr ⟨old, inTable, rfl⟩, (columns old).1, (columns old).2.1⟩
  | password userId hash =>
    constructor
    · rintro ⟨user, stored, rfl, rfl⟩
      obtain ⟨old, inTable, rfl⟩ := mem_updateUser.mp stored
      exact ⟨old, inTable, (columns old).1.symm, (columns old).2.2.symm⟩
    · rintro ⟨old, inTable, rfl, rfl⟩
      exact ⟨_, mem_updateUser.mpr ⟨old, inTable, rfl⟩, (columns old).1, (columns old).2.2⟩
  | issued | confirmed => exact Iff.rfl

theorem userFacts_setPassword (id : String) (passwordHash : Argon2Hash String) :
    userFacts (s.updateUser id fun u => { u with passwordHash }).db.users ⊆
        userFacts s.db.users ∪ {.password id passwordHash} ∧
      userFacts s.db.users ⊆ userFacts (s.updateUser id fun u => { u with passwordHash }).db.users ∪
        {f | ∃ hash, f = .password id hash} := by
  constructor
  · rintro (⟨userId, address⟩ | ⟨userId, hash⟩ | _ | _) there
    · obtain ⟨user, stored, rfl, rfl⟩ := there
      obtain ⟨old, inTable, rfl⟩ := mem_updateUser.mp stored
      refine .inl ⟨old, inTable, ?_⟩
      split <;> exact ⟨rfl, rfl⟩
    · obtain ⟨user, stored, rfl, rfl⟩ := there
      obtain ⟨old, inTable, rfl⟩ := mem_updateUser.mp stored
      by_cases target : old.id = id
      · simp only [target, if_true]
        exact .inr rfl
      · simp only [target, if_false]
        exact .inl ⟨old, inTable, rfl, rfl⟩
    · exact .inl there
    · exact .inl there
  · rintro (⟨userId, address⟩ | ⟨userId, hash⟩ | _ | _) there
    · obtain ⟨old, inTable, rfl, rfl⟩ := there
      refine .inl ⟨_, mem_updateUser.mpr ⟨old, inTable, rfl⟩, ?_⟩
      split <;> exact ⟨rfl, rfl⟩
    · obtain ⟨old, inTable, rfl, rfl⟩ := there
      by_cases target : old.id = id
      · exact .inr ⟨old.passwordHash, by rw [target]⟩
      · exact .inl ⟨old, mem_updateUser.mpr ⟨old, inTable, if_neg target⟩, rfl, rfl⟩
    · exact there.elim
    · exact there.elim

theorem resetFacts_insert {row : PasswordReset} (unused : row.used = false)
    (inserted : resets.insert? row = some resets') : resetFacts resets ⊆ resetFacts resets' ∧
      resetFacts resets' ⊆ resetFacts resets ∪ {.issued row.userId row.tokenHash} := by
  constructor
  · rintro (_ | _ | ⟨userId, hash⟩ | ⟨userId, hash⟩) there
    · exact there
    · exact there
    · obtain ⟨other, stored, same⟩ := there
      exact ⟨other, (Table.mem_insert? inserted).mpr (.inr stored), same⟩
    · obtain ⟨other, stored, same⟩ := there
      exact ⟨other, (Table.mem_insert? inserted).mpr (.inr stored), same⟩
  · rintro (_ | _ | ⟨userId, hash⟩ | ⟨userId, hash⟩) there
    · exact .inl there
    · exact .inl there
    · obtain ⟨other, stored, rfl, rfl⟩ := there
      obtain rfl | old := (Table.mem_insert? inserted).mp stored
      · exact .inr rfl
      · exact .inl ⟨other, old, rfl, rfl⟩
    · obtain ⟨other, stored, rfl, rfl, used⟩ := there
      obtain rfl | old := (Table.mem_insert? inserted).mp stored
      · rw [unused] at used
        contradiction
      · exact .inl ⟨other, old, rfl, rfl, used⟩

theorem resetFacts_use {id : String}
    (modified : resets.modify? id (fun row => { row with used := true }) = some resets') :
    resetFacts resets ⊆ resetFacts resets' ∧ resetFacts resets' ⊆ resetFacts resets ∪
      {f | ∃ row ∈ resets, row.id = id ∧ f = .confirmed row.userId row.tokenHash} := by
  constructor
  · rintro (_ | _ | ⟨userId, hash⟩ | ⟨userId, hash⟩) there
    · exact there
    · exact there
    · obtain ⟨old, stored, rfl, rfl⟩ := there
      refine ⟨_, (Table.mem_modify? modified).mpr ⟨old, stored, rfl⟩, ?_⟩
      split <;> exact ⟨rfl, rfl⟩
    · obtain ⟨old, stored, rfl, rfl, used⟩ := there
      refine ⟨_, (Table.mem_modify? modified).mpr ⟨old, stored, rfl⟩, ?_⟩
      split
      · exact ⟨rfl, rfl, rfl⟩
      · exact ⟨rfl, rfl, used⟩
  · rintro (_ | _ | ⟨userId, hash⟩ | ⟨userId, hash⟩) there
    · exact .inl there
    · exact .inl there
    · obtain ⟨row, stored, rfl, rfl⟩ := there
      obtain ⟨old, inTable, rfl⟩ := (Table.mem_modify? modified).mp stored
      refine .inl ⟨old, inTable, ?_⟩
      split <;> exact ⟨rfl, rfl⟩
    · obtain ⟨row, stored, rfl, rfl, used⟩ := there
      obtain ⟨old, inTable, rfl⟩ := (Table.mem_modify? modified).mp stored
      by_cases target : old.id = id
      · simp only [target, if_true]
        exact .inr ⟨old, inTable, target, rfl⟩
      · simp only [target, if_false] at used ⊢
        exact .inl ⟨old, inTable, rfl, rfl, used⟩

theorem resetFacts_delete {id : String} (removed : resets.remove? id = some resets') :
    resetFacts resets' ⊆ resetFacts resets ∧ resetFacts resets ⊆ resetFacts resets' ∪
      {f | ∃ row ∈ resets, row.id = id ∧
        (f = .issued row.userId row.tokenHash ∨ f = .confirmed row.userId row.tokenHash)} := by
  constructor
  · rintro (_ | _ | ⟨userId, hash⟩ | ⟨userId, hash⟩) there
    · exact there
    · exact there
    · obtain ⟨row, stored, same⟩ := there
      exact ⟨row, ((Table.mem_remove? removed).mp stored).1, same⟩
    · obtain ⟨row, stored, same⟩ := there
      exact ⟨row, ((Table.mem_remove? removed).mp stored).1, same⟩
  · rintro (_ | _ | ⟨userId, hash⟩ | ⟨userId, hash⟩) there
    · exact .inl there
    · exact .inl there
    · obtain ⟨row, stored, rfl, rfl⟩ := there
      by_cases target : row.id = id
      · exact .inr ⟨row, stored, target, .inl rfl⟩
      · exact .inl ⟨row, (Table.mem_remove? removed).mpr ⟨stored, target⟩, rfl, rfl⟩
    · obtain ⟨row, stored, rfl, rfl, used⟩ := there
      by_cases target : row.id = id
      · exact .inr ⟨row, stored, target, .inr rfl⟩
      · exact .inl ⟨row, (Table.mem_remove? removed).mpr ⟨stored, target⟩, rfl, rfl, used⟩

end Tables

/-- One command adds and takes away what its event shows. -/
theorem CustodyEffect.facts {e : Ev} {draw : String} (effect : CustodyEffect s draw e s') :
    s'.db.accountFacts ⊆ s.db.accountFacts ∪ addedBy s e ∧
      s.db.accountFacts ⊆ s'.db.accountFacts ∪ droppedBy s e := by
  have ofUsers : ∀ {added dropped : Set AccountFact}, s'.db.passwordResets = s.db.passwordResets →
      userFacts s'.db.users ⊆ userFacts s.db.users ∪ added →
      userFacts s.db.users ⊆ userFacts s'.db.users ∪ dropped →
      s'.db.accountFacts ⊆ s.db.accountFacts ∪ added ∧
        s.db.accountFacts ⊆ s'.db.accountFacts ∪ dropped := by
    intro added dropped resets more fewer
    unfold Db.accountFacts
    rw [resets]
    exact ⟨Set.union_subset (more.trans (Set.union_subset_union_left _ Set.subset_union_left))
        (Set.subset_union_right.trans Set.subset_union_left),
      Set.union_subset (fewer.trans (Set.union_subset_union_left _ Set.subset_union_left))
        (Set.subset_union_right.trans Set.subset_union_left)⟩
  have ofResets : ∀ {added dropped : Set AccountFact}, s'.db.users = s.db.users →
      resetFacts s'.db.passwordResets ⊆ resetFacts s.db.passwordResets ∪ added →
      resetFacts s.db.passwordResets ⊆ resetFacts s'.db.passwordResets ∪ dropped →
      s'.db.accountFacts ⊆ s.db.accountFacts ∪ added ∧
        s.db.accountFacts ⊆ s'.db.accountFacts ∪ dropped := by
    intro added dropped users more fewer
    unfold Db.accountFacts
    rw [users]
    exact ⟨Set.union_subset (Set.subset_union_left.trans Set.subset_union_left)
        (more.trans (Set.union_subset_union_left _ Set.subset_union_right)),
      Set.union_subset (Set.subset_union_left.trans Set.subset_union_left)
        (fewer.trans (Set.union_subset_union_left _ Set.subset_union_right))⟩
  cases effect with
  | none e s' users resets =>
    exact ofUsers resets (users ▸ Set.subset_union_left) (users ▸ Set.subset_union_left)
  | create user s' inserted resets =>
    obtain ⟨kept, new⟩ := userFacts_insert inserted
    exact ofUsers resets new (kept.trans Set.subset_union_left)
  | activate id =>
    have same := @userFacts_update s id (fun u => { u with isActive := true }) (fun _ => rfl)
      (fun _ => rfl) (fun _ => rfl)
    exact ofUsers rfl (same.subset.trans Set.subset_union_left)
      (same.superset.trans Set.subset_union_left)
  | setPassword id passwordHash =>
    obtain ⟨new, lost⟩ := userFacts_setPassword (s := s) id passwordHash
    exact ofUsers rfl new lost
  | issue row rows unused drawn inserted =>
    obtain ⟨kept, new⟩ := resetFacts_insert unused inserted
    exact ofResets rfl new (kept.trans Set.subset_union_left)
  | use id rows modified =>
    obtain ⟨kept, new⟩ := resetFacts_use modified
    exact ofResets rfl new (kept.trans Set.subset_union_left)
  | delete id rows removed =>
    obtain ⟨kept, lost⟩ := resetFacts_delete removed
    exact ofResets rfl (kept.trans Set.subset_union_left) lost

end Effects

section Calls

variable {trace : List Ev}

/-- The commands that accounts, passwords and reset codes come and go by. -/
def Cmd.custodial : Cmd → Bool
  | .userCreate .. | .userSetPassword .. | .passwordResetCreate .. | .passwordResetUse _
  | .passwordResetDelete _ => true
  | _ => false

/-- The command leaves them alone. -/
abbrev Bystander (c : Cmd) : Prop := c.custodial = false

/-- The call has looked up the account of the address, or some account where the address is left
out. -/
def Holder (trace : List Ev) (email : Option String) (userId : String) : Prop :=
  ∃ user, (⟨.userFindFirst { email }, .ok (some user)⟩ : Ev) ∈ trace ∧ user.id = userId

/-- The reset rows of an account that are confirmed or not. -/
abbrev resetsOf (userId : String) (since : Option Nat) (used : Bool) : PasswordResetWhere :=
  { userId := some userId, expiresAfter := since, used := some used }

/-- The call has looked up the account and picked a reset row for it, which the code matches. -/
structure Picked (trace : List Ev) (email code : Option String) (used : Bool) (userId : String)
    (row : PasswordReset) : Prop where
  holder : Holder trace email userId
  found : ∃ since, (⟨.passwordResetFindFirst (resetsOf userId since used), .ok (some row)⟩ : Ev) ∈
    trace
  matching : code = some row.tokenHash.plain

/-- What a call has done before it changes an account or its codes. -/
def custodyPoint (cfg : Config) : Call → List Ev → Cmd → Prop
  | .register dto _, _, .userCreate email hash _ _ _ =>
      email = normalizeEmail cfg dto.email ∧ hash.plain = dto.password
  | .forgotPassword email, trace, .passwordResetCreate userId hash _ =>
      Holder trace email userId ∧ ∃ code, (⟨.randomCode, .ok code⟩ : Ev) ∈ trace ∧
        hash.plain = code.val
  | .forgotPasswordVerify email code, trace, .passwordResetUse id =>
      ∃ userId row, Picked trace email code false userId row ∧ row.id = id
  | .forgotPasswordReset email code password, trace, .userSetPassword userId hash =>
      password = some hash.plain ∧ ∃ row, Picked trace email code true userId row
  | .forgotPasswordReset email code _, trace, .passwordResetDelete id =>
      ∃ userId row, Picked trace email code true userId row ∧ row.id = id
  | _, _, c => Bystander c

theorem Bystander.point {c : Cmd} {q : Call} (bystander : Bystander c) :
    custodyPoint cfg q trace c := by
  cases c <;> first
    | contradiction
    | (cases q <;> exact bystander)

section Bystanders

/-- The commands by which codes are stored for verification, or handed out to be mailed. -/
def Cmd.posts : Cmd → Bool
  | .emailOtpUpsert .. | .natsPublish _ | .queueAdd _ => true
  | _ => false

/-- The command does neither. -/
abbrev Routine (c : Cmd) : Prop := (c.custodial || c.posts) = false

theorem spares_of_routine {α : Type} {p : Action α} (routine : p.Uses Routine) :
    p.Uses Bystander :=
  routine.mono fun _ quiet => (Bool.or_eq_false_iff.mp quiet).1

theorem routine_hashPassword {α : Type} {password : α} : (hashPassword password).Uses Routine :=
  uses_step rfl fun _ => trivial

theorem routine_encryptText {plainText : String} :
    (encryptText cfg plainText).Uses Routine := by
  refine Prog.Uses.bind ?_ fun _ => uses_step rfl fun _ => uses_step rfl fun _ => trivial
  unfold getEncryptKey
  split <;> trivial

theorem routine_parseEvent {userId email : String} :
    (AuthService.parseEvent cfg userId email).Uses Routine := by
  unfold AuthService.parseEvent
  split <;> trivial

theorem spares_createOrUpdateEmailOtp {userId codeHash : String} :
    (UsersService.createOrUpdateEmailOtp userId codeHash).Uses Bystander :=
  uses_step rfl fun _ => ⟨rfl, fun _ => trivial⟩

theorem routine_logoutAllDevices {userId : Option String} :
    (UsersService.logoutAllDevices userId).Uses Routine :=
  uses_step rfl fun _ => ⟨rfl, fun _ => trivial⟩

theorem routine_issueTokens {user : User} {dataDevice : DeviceData} {deviceId : Option String}
    {old : Option Token} :
    (AuthService.issueTokens cfg user dataDevice deviceId old).Uses Routine := by
  have saves : ∀ token, (UsersService.saveRefreshToken cfg user.id token dataDevice deviceId
      old).Uses Routine := by
    intro token
    refine uses_step rfl fun now => Prog.Uses.bind routine_hashPassword fun hash =>
      uses_step rfl fun found => ?_
    cases found with
    | none => exact ⟨rfl, fun _ => trivial⟩
    | some existing =>
      dsimp only
      split
      · trivial
      · exact ⟨rfl, fun _ => trivial⟩
  exact uses_step rfl fun issuedAt => Prog.Uses.bind (saves _) fun _ =>
    uses_step rfl fun now => uses_step rfl fun _ => uses_step rfl fun _ => trivial

theorem routine_login {userReq : User} {req : Request} :
    (AuthService.login cfg userReq req).Uses Routine := by
  refine Prog.Uses.catch (uses_step rfl fun d => Prog.Uses.bind (uses_step rfl fun found => ?_)
    fun user => routine_issueTokens) fun error => ?_
  · cases found <;> trivial
  · split <;> trivial

theorem routine_refresh {presented : Option Token} {deviceId : Option String} {req : Request} :
    (AuthService.refresh cfg presented deviceId req).Uses Routine := by
  refine Prog.Uses.catch (uses_step rfl fun now => ?_) fun error =>
    uses_step rfl fun _ => uses_step rfl fun _ => trivial
  split
  · refine Prog.Uses.bind (uses_step rfl fun now' => uses_step rfl fun found => ?_)
      fun user => routine_issueTokens
    cases found with
    | none => trivial
    | some pair =>
      dsimp only
      split <;> trivial
  · trivial
  · trivial

theorem routine_filterValue {v : Js} : (filterValue v).Uses Routine := by
  unfold filterValue
  split <;> trivial

theorem routine_logoutDevice {deviceId : Option String} {user : Js} {token : Option Token} :
    (AuthService.logoutDevice deviceId user token).Uses Routine := by
  refine Prog.Uses.bind routine_filterValue fun userId =>
    Prog.Uses.bind (uses_step rfl fun session => ?_) fun _ =>
      uses_step rfl fun _ => uses_step rfl fun _ => trivial
  cases session with
  | none => trivial
  | some session =>
    cases token with
    | none => trivial
    | some presented =>
      simp only [verifyHash, Prog.pure_eq, Prog.bind_ok]
      split
      · trivial
      · exact uses_step rfl fun _ => ⟨rfl, fun _ => trivial⟩

theorem routine_logoutAll {user : Js} : (AuthService.logoutAll user).Uses Routine :=
  Prog.Uses.bind routine_filterValue fun _ => Prog.Uses.bind routine_logoutAllDevices fun _ =>
    uses_step rfl fun _ => uses_step rfl fun _ => trivial

theorem routine_verify {email code : String} :
    (AuthService.verify cfg email code).Uses Routine := by
  refine Prog.Uses.catch (uses_step rfl fun user => ?_) fun _ => trivial
  cases user with
  | none => trivial
  | some user =>
    refine uses_step rfl fun now => uses_step rfl fun otp => ?_
    cases otp with
    | none => trivial
    | some otp => exact uses_step rfl fun _ => uses_step rfl fun _ => trivial

theorem spares_resendCode {email : Option String} :
    (AuthService.resendCode cfg email).Uses Bystander := by
  refine Prog.Uses.catch (uses_step rfl fun user => ?_) fun _ => trivial
  cases user with
  | none => trivial
  | some user =>
    dsimp only
    split
    · trivial
    · exact Prog.Uses.bind (uses_step rfl fun _ => trivial) fun code =>
        Prog.Uses.bind (spares_of_routine routine_hashPassword) fun hash =>
          Prog.Uses.bind (spares_of_routine routine_encryptText) fun code =>
            Prog.Uses.bind spares_createOrUpdateEmailOtp fun _ =>
              Prog.Uses.bind (spares_of_routine routine_parseEvent) fun _ =>
                uses_step rfl fun _ => trivial

end Bystanders

section Along

variable {q : Call} {α β : Type}

theorem along_spared {p : Action α} (uses : p.Uses Bystander) :
    Along (custodyPoint cfg q) (fun _ _ => True) trace p :=
  uses.along.mono (fun _ _ => Bystander.point) fun _ _ there => there

/-- What follows bystanders. -/
theorem along_after {p : Action α} {f : α → Action β} (uses : p.Uses Bystander)
    (next : ∀ a later, Along (custodyPoint cfg q) (fun _ _ => True) (later ++ trace) (f a)) :
    Along (custodyPoint cfg q) (fun _ _ => True) trace (p >>= f) := by
  refine along_bind.mpr (uses.along_appends.mono (fun _ _ point => Bystander.point point.1) ?_)
  rintro _ r ⟨later, rfl, _⟩
  cases r with
  | error e => trivial
  | ok a => exact next a later

/-- A command, whatever it does, and what follows when it is answered. -/
theorem along_command {c : Cmd} {f : c.Resp → Action α} (point : custodyPoint cfg q trace c)
    (next : ∀ a, Along (custodyPoint cfg q) (fun _ _ => True) (⟨c, .ok a⟩ :: trace) (f a)) :
    Along (custodyPoint cfg q) (fun _ _ => True) trace (call c >>= f) :=
  along_await_bind point (fun _ _ => trivial) next

theorem along_account {dto : CreateUserDto} {requestId : Option String} :
    Along (custodyPoint cfg (.register dto requestId)) (fun _ _ => True) []
      (AuthService.register cfg dto requestId) := by
  refine along_bind.mpr ((show Along (custodyPoint cfg (.register dto requestId))
    (fun _ _ => True) [] (UsersService.create cfg dto) from ?_).mono (fun _ _ point => point)
      fun trace r _ => ?_)
  · refine along_command (Bystander.point rfl) fun existing => ?_
    cases existing with
    | some user => trivial
    | none =>
      refine along_bind.mpr ⟨Bystander.point rfl, fun salt => ?_⟩
      cases salt with
      | error e => trivial
      | ok salt =>
        refine along_after (uses_step rfl fun _ => trivial) fun code _ =>
          along_after (spares_of_routine routine_hashPassword) fun hash _ =>
            along_after (spares_of_routine routine_encryptText) fun text _ => ?_
        exact along_command ⟨rfl, rfl⟩ fun user =>
          along_spared (Prog.Uses.bind spares_createOrUpdateEmailOtp fun _ => trivial)
  · cases r with
    | error e => trivial
    | ok user =>
      exact along_spared (Prog.Uses.bind (spares_of_routine routine_parseEvent) fun _ =>
        uses_step rfl fun _ => trivial)

theorem along_request {email : Option String} :
    Along (custodyPoint cfg (.forgotPassword email)) (fun _ _ => True) []
      (AuthService.forgotPassword cfg email) := by
  refine along_catch.mpr ((show Along (custodyPoint cfg (.forgotPassword email))
    (fun _ _ => True) [] _ from ?_).mono (fun _ _ point => point) fun _ r _ => by
      cases r <;> trivial)
  refine along_command (Bystander.point rfl) fun user => ?_
  cases user with
  | none => trivial
  | some user =>
    refine along_bind.mpr ((show Along (custodyPoint cfg (.forgotPassword email))
      (fun _ _ => True) _ (UsersService.createPasswordReset cfg user.id) from ?_).mono
        (fun _ _ point => point) fun _ r _ => ?_)
    · refine along_bind.mpr ⟨Bystander.point rfl, fun code => ?_⟩
      cases code with
      | error e => trivial
      | ok code =>
        refine along_bind.mpr ⟨Bystander.point rfl, fun salt => ?_⟩
        cases salt with
        | error e => trivial
        | ok salt =>
          refine along_after (spares_of_routine routine_encryptText) fun text later =>
            along_command (Bystander.point rfl) fun now => along_command ⟨⟨user, ?_, rfl⟩,
              code, ?_, rfl⟩ fun _ => along_spared (uses_step rfl fun _ => trivial)
          · exact List.mem_cons_of_mem _ (List.mem_append_right _ (by simp))
          · exact List.mem_cons_of_mem _ (List.mem_append_right _ (by simp))
    · cases r with
      | error e => trivial
      | ok reset =>
        exact along_spared (Prog.Uses.bind (spares_of_routine routine_parseEvent) fun _ =>
          uses_step rfl fun _ => trivial)

theorem along_confirm {email code : Option String} :
    Along (custodyPoint cfg (.forgotPasswordVerify email code)) (fun _ _ => True) []
      (AuthService.forgotPasswordVerify email code) := by
  refine along_catch.mpr ((show Along (custodyPoint cfg (.forgotPasswordVerify email code))
    (fun _ _ => True) [] _ from ?_).mono (fun _ _ point => point) fun _ r _ => ?_)
  · refine along_command (Bystander.point rfl) fun user => ?_
    cases user with
    | none => trivial
    | some user =>
      refine along_bind.mpr ((show Along (custodyPoint cfg (.forgotPasswordVerify email code))
        (fun _ _ => True) _ (UsersService.verifyPasswordReset user.id code) from ?_).mono
          (fun _ _ point => point) fun _ r _ => by cases r <;> trivial)
      refine along_command (Bystander.point rfl) fun now =>
        along_command (Bystander.point rfl) fun row => ?_
      cases row with
      | none => trivial
      | some row =>
        cases code with
        | none => trivial
        | some code =>
          simp only [verifyHash, Prog.pure_eq, Prog.bind_ok]
          split
          · trivial
          · rename_i valid
            refine along_command ⟨user.id, row, ⟨⟨user, by simp, rfl⟩, ⟨some now, by simp⟩, ?_⟩,
              rfl⟩ fun _ => trivial
            simp only [Bool.not_eq_true', verifyPassword_eq_false, ne_eq, not_not] at valid
            rw [valid]
  · cases r with
    | ok _ => trivial
    | error e =>
      dsimp only
      split <;> trivial

theorem along_reset {email code password : Option String} :
    Along (custodyPoint cfg (.forgotPasswordReset email code password)) (fun _ _ => True) []
      (AuthService.forgotPasswordReset email code password) := by
  refine along_catch.mpr ((show Along (custodyPoint cfg (.forgotPasswordReset email code password))
    (fun _ _ => True) [] _ from ?_).mono (fun _ _ point => point) fun _ r _ => ?_)
  · refine along_command (Bystander.point rfl) fun user => ?_
    cases user with
    | none => trivial
    | some user =>
      refine along_bind.mpr ((show Along (custodyPoint cfg (.forgotPasswordReset email code
        password)) (fun _ _ => True) _ (UsersService.resetPassword user.id password code) from
          ?_).mono (fun _ _ point => point) fun _ r _ => ?_)
      · refine along_command (Bystander.point rfl) fun row => ?_
        cases row with
        | none => trivial
        | some row =>
          cases code with
          | none => trivial
          | some code =>
            simp only [verifyHash, Prog.pure_eq, Prog.bind_ok]
            split
            · trivial
            · rename_i valid
              simp only [Bool.not_eq_true', verifyPassword_eq_false, ne_eq, not_not] at valid
              cases password with
              | none => trivial
              | some password =>
                refine along_bind.mpr ⟨Bystander.point rfl, fun salt => ?_⟩
                cases salt with
                | error e => trivial
                | ok salt =>
                  refine along_command ⟨rfl, row, ⟨user, by simp, rfl⟩, ⟨none, by simp⟩,
                    congrArg some valid.symm⟩ fun _ => along_command
                      ⟨user.id, row, ⟨⟨user, by simp, rfl⟩, ⟨none, by simp⟩,
                        congrArg some valid.symm⟩, rfl⟩ fun _ => trivial
      · cases r with
        | error e => trivial
        | ok _ =>
          exact along_spared (Prog.Uses.bind (spares_of_routine routine_logoutAllDevices)
            fun _ => trivial)
  · cases r with
    | ok _ => trivial
    | error e =>
      dsimp only
      split <;> trivial

theorem along_custody (q : Call) :
    Along (custodyPoint cfg q) (fun _ _ => True) [] (body cfg q) := by
  have replied : ∀ {α : Type} {p : Action α} {f : α → Reply},
      Along (custodyPoint cfg q) (fun _ _ => True) [] p →
      Along (custodyPoint cfg q) (fun _ _ => True) [] (do return f (← p)) := by
    intro α p f along
    refine along_bind.mpr (along.mono (fun _ _ point => point) fun _ r _ => ?_)
    cases r <;> trivial
  cases q with
  | login userReq req => exact replied (along_spared (spares_of_routine routine_login))
  | refresh token deviceId req => exact replied (along_spared (spares_of_routine routine_refresh))
  | logoutDevice deviceId user token =>
      exact replied (along_spared (spares_of_routine routine_logoutDevice))
  | logoutAll user => exact replied (along_spared (spares_of_routine routine_logoutAll))
  | register dto requestId => exact replied along_account
  | verify email code => exact replied (along_spared (spares_of_routine routine_verify))
  | resendCode email => exact replied (along_spared spares_resendCode)
  | forgotPassword email => exact replied along_request
  | forgotPasswordVerify email code => exact replied along_confirm
  | forgotPasswordReset email code password => exact replied along_reset

end Along

/-- The call has created the account. -/
def Created (trace : List Ev) (id : String) : Prop :=
  ∃ email hash name phone active user,
    (⟨.userCreate email hash name phone active, .ok user⟩ : Ev) ∈ trace ∧ user.id = id

/-- The facts that a call makes. -/
def Makes (cfg : Config) : Call → List Ev → AccountFact → Prop
  | .register dto _, trace, .account id email =>
      email = normalizeEmail cfg dto.email ∧ Created trace id
  | .register dto _, trace, .password id hash => hash.plain = dto.password ∧ Created trace id
  | .forgotPassword email, trace, .issued userId hash =>
      Holder trace email userId ∧ ∃ code, (⟨.randomCode, .ok code⟩ : Ev) ∈ trace ∧
        hash.plain = code.val
  | .forgotPasswordVerify email code, trace, .confirmed userId hash =>
      Holder trace email userId ∧ code = some hash.plain
  | .forgotPasswordReset email code password, trace, .password userId hash =>
      password = some hash.plain ∧ ∃ row, Picked trace email code true userId row
  | _, _, _ => False

/-- The facts that a call takes away: the password that it replaces, and the code that it uses. Both
ask for the row of a confirmed code, which the call has picked with the code of its request. -/
def Takes : Call → List Ev → AccountFact → Prop
  | .forgotPasswordReset email code _, trace, .password userId _ =>
      ∃ row, Picked trace email code true userId row
  | .forgotPasswordReset email code _, trace, .issued userId hash
  | .forgotPasswordReset email code _, trace, .confirmed userId hash =>
      ∃ row, Picked trace email code true userId row ∧ row.tokenHash = hash
  | _, _, _ => False

theorem Created.longer {id : String} (e : Ev) (created : Created trace id) :
    Created (e :: trace) id := by
  obtain ⟨email, hash, name, phone, active, user, found, same⟩ := created
  exact ⟨email, hash, name, phone, active, user, List.mem_cons_of_mem _ found, same⟩

theorem Holder.longer {email : Option String} {userId : String} (e : Ev)
    (holder : Holder trace email userId) : Holder (e :: trace) email userId := by
  obtain ⟨user, found, same⟩ := holder
  exact ⟨user, List.mem_cons_of_mem _ found, same⟩

theorem Picked.longer {email code : Option String} {used : Bool} {userId : String}
    {row : PasswordReset} (e : Ev) (picked : Picked trace email code used userId row) :
    Picked (e :: trace) email code used userId row where
  holder := picked.holder.longer e
  found := picked.found.imp fun _ found => List.mem_cons_of_mem _ found
  matching := picked.matching

theorem Makes.longer (q : Call) (trace : List Ev) (e : Ev) (fact : AccountFact)
    (makes : Makes cfg q trace fact) : Makes cfg q (e :: trace) fact := by
  cases q <;> cases fact <;> try exact makes.elim
  · exact ⟨makes.1, makes.2.longer e⟩
  · exact ⟨makes.1, makes.2.longer e⟩
  · obtain ⟨holder, code, drawn, same⟩ := makes
    exact ⟨holder.longer e, code, List.mem_cons_of_mem _ drawn, same⟩
  · exact ⟨makes.1.longer e, makes.2⟩
  · exact ⟨makes.1, makes.2.imp fun _ picked => picked.longer e⟩

theorem Takes.longer (q : Call) (trace : List Ev) (e : Ev) (fact : AccountFact)
    (takes : Takes q trace fact) : Takes q (e :: trace) fact := by
  cases q <;> cases fact <;> try exact takes.elim
  · exact takes.imp fun _ picked => picked.longer e
  · exact takes.imp fun _ used => ⟨used.1.longer e, used.2⟩
  · exact takes.imp fun _ used => ⟨used.1.longer e, used.2⟩

end Calls
end CorePlatform.Auth
