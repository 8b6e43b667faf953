import CorePlatform.Auth.Rules
import CorePlatform.Notification.Mails

/-! The way of a password reset code: drawn and hashed by `createPasswordReset`, handed
to the queue, mailed by the worker, and compared by `verifyPasswordReset`. What is mailed
is the encryption of the hash; what is compared with the stored hash is the code. -/
namespace CorePlatform.Auth
open Async Relational Notification

variable {cfg : Config} {s t : Store} {email : Option String}

/-- The rows of `t` that are not in `s` hold the hash of a drawn code. -/
def DrawnSince (s t : Store) : Prop :=
  ∀ row ∈ t.db.passwordResets, row ∈ s.db.passwordResets ∨ row.tokenHash.plain.length ≤ 13

theorem drawnSince_refl : DrawnSince s s := fun _ found => .inl found

theorem post_getEncryptKey {Q : Except Exn String → Store → Prop} (all : ∀ r, Q r s) :
    Post semantics (getEncryptKey cfg) s Q := by
  unfold getEncryptKey
  split <;> exact all _

/-- What `encryptText` returns is an encryption, and it has no effect. -/
theorem post_encryptText {plainText : String} {Q : Except Exn String → Store → Prop}
    (failed : ∀ e, Q (.error e) s)
    (encrypted : ∀ salt iv password, Q (.ok (encrypt cfg.cipher salt iv plainText password)) s) :
    Post semantics (encryptText cfg plainText) s Q := by
  simp only [encryptText, post_bind]
  apply post_getEncryptKey
  intro r
  cases r with
  | error e => exact failed e
  | ok password =>
    simp only [post_randomBytes16]
    exact fun salt iv => encrypted salt iv password

/-- The stored hash is that of a code of at most thirteen characters, the returned token
an encryption. -/
theorem createPasswordReset_spec {userId : String} :
    Post semantics (UsersService.createPasswordReset cfg userId) s fun r t =>
      t.jobs = s.jobs ∧ DrawnSince s t ∧ ∀ reset, r = .ok reset → 64 ≤ reset.token.length := by
  simp only [UsersService.createPasswordReset, randomCode, hashPassword, post_bind, post_randomCode,
    post_argon2Salt]
  intro code salt
  apply post_encryptText
  · intro e
    exact ⟨rfl, drawnSince_refl, by rintro reset ⟨⟩⟩
  · intro salt' iv password
    simp only [post_now, post_passwordResetCreate]
    refine ⟨⟨trivial, drawnSince_refl, ?_⟩, fun id rows inserted => ⟨rfl, ?_, ?_⟩⟩
    · rintro reset ⟨⟩
    · intro row found
      rcases (Table.mem_insert? inserted).mp found with rfl | old
      · exact .inr code.property
      · exact .inl old
    · rintro reset ⟨⟩
      exact encrypt_length ..

/-- The one job a request enqueues carries an encryption. -/
theorem forgotPassword_spec :
    Post semantics (AuthService.forgotPassword cfg email) s fun _ t =>
      DrawnSince s t ∧ (t.jobs = s.jobs ∨ ∃ job, t.jobs = job :: s.jobs ∧
        job.name = AuthService.PASSWORD_RESET_REQUESTED ∧ 64 ≤ job.token.length) := by
  simp only [AuthService.forgotPassword, UsersService.findOneByEmail, post_catch, post_bind,
    post_userFindFirst]
  refine ⟨⟨drawnSince_refl, .inl rfl⟩, fun _ => ⟨drawnSince_refl, .inl rfl⟩, fun user _ _ => ?_⟩
  refine createPasswordReset_spec.mono ?_
  rintro r t ⟨jobs, drawn, long⟩
  cases r with
  | error e => exact ⟨drawn, .inl jobs⟩
  | ok reset =>
    simp only [AuthService.parseEvent]
    split
    · exact ⟨drawn, .inl jobs⟩
    · simp only [Prog.pure_eq, post_done, post_queueAdd]
      exact ⟨⟨drawn, .inl jobs⟩, drawn, .inr ⟨_, congrArg _ jobs, rfl, long reset rfl⟩⟩

/-- The reset rows that `verifyPasswordReset` may find for an account of `email`. -/
def Outstanding (email : Option String) (s : Store) (row : PasswordReset) : Prop :=
  row ∈ s.db.passwordResets ∧ row.used = false ∧ s.now < row.expiresAt ∧
    ∃ user ∈ s.db.users, UserWhere.holds { email } user ∧ row.userId = user.id

/-- A code longer than the codes behind all outstanding rows is refused, with no effect. -/
theorem forgotPasswordVerify_refuses {code : String}
    (shorter : ∀ row, Outstanding email s row → row.tokenHash.plain.length < code.length) :
    Post semantics (AuthService.forgotPasswordVerify email (some code)) s fun r t =>
      (∃ e, r = .error e) ∧ t = s := by
  have refused : ∀ e, Post semantics
      (if e.isService then throw e else throw (badRequest e.message) :
      Action String) s fun r t => (∃ e, r = .error e) ∧ t = s := by
    intro e
    split <;> exact ⟨⟨_, rfl⟩, rfl⟩
  simp only [AuthService.forgotPasswordVerify, UsersService.findOneByEmail, post_catch, post_bind,
    post_userFindFirst]
  refine ⟨refused _, fun _ => refused _, fun user found matching => ?_⟩
  simp only [UsersService.verifyPasswordReset, post_bind, post_now, post_passwordResetFindFirst]
  refine ⟨refused _, fun _ => refused _, fun row inTable outstanding => ?_⟩
  have mismatch : verifyPassword row.tokenHash code = false := by
    simp [PasswordResetWhere.holds] at outstanding
    have := shorter row ⟨inTable, outstanding.2, outstanding.1.2, user, found,
        matching, outstanding.1.1.symm⟩
    rw [verifyPassword_eq_false]
    rintro rfl
    omega
  simp only [verifyHash, mismatch, Prog.pure_eq, post_done, Bool.not_false, if_true]
  exact refused _

/-- What the link of a reset mail carries is never accepted: whatever the user, the code
drawn, the salts and the state in between, the value that the worker mails is refused
while the requested reset is the one outstanding, and the request changes nothing. -/
theorem mailed_reset_code_refused {sendMail : Mail → Except String Unit}
    {job : MailJob} {later : Store} {r : Except Exn String} {address code : String}
    (requested : Runs semantics (AuthService.forgotPassword cfg email) s r t)
    (enqueued : t.jobs = job :: s.jobs)
    (mailed : process sendMail (.other job) = .ok (some (.resetPassword address code)))
    (alone : ∀ row, Outstanding email later row →
      row ∈ t.db.passwordResets ∧ row ∉ s.db.passwordResets) :
    ∀ out last, Runs semantics (AuthService.forgotPasswordVerify email (some code)) later out last →
      (∃ e, out = .error e) ∧ last = later := by
  obtain ⟨drawn, sent⟩ := post_iff_runs.mp forgotPassword_spec _ _ requested
  have long : 64 ≤ code.length := by
    rcases sent with same | ⟨job', same, name, long⟩
    · rw [enqueued] at same
      exact absurd same (List.cons_ne_self job s.jobs)
    · obtain rfl : job = job' := (List.cons.inj (enqueued.symm.trans same)).1
      simp only [process, name, if_true] at mailed
      split at mailed
      · simp only [Except.ok.injEq, Option.some.injEq, Mail.resetPassword.injEq] at mailed
        exact mailed.2 ▸ long
      · contradiction
  have shorter : ∀ row, Outstanding email later row → row.tokenHash.plain.length < code.length := by
    intro row outstanding
    obtain ⟨created, absent⟩ := alone row outstanding
    have := (drawn row created).resolve_left absent
    omega
  exact post_iff_runs.mp (forgotPasswordVerify_refuses shorter)

section Sample

def resetUser : User :=
  { id := aliceId, email := "alice@mail.com", passwordHash := ⟨argonSalt0, "Secret123"⟩
    createdAt := 0 }

def resetStore : Store := { db := { users := ⟨[resetUser], by decide⟩ } }

def resetRow : PasswordReset :=
  { id := resetId1, userId := aliceId, tokenHash := ⟨argonSalt1, "k3x9"⟩, expiresAt := codeTtl }

def resetJob : MailJob :=
  { name := AuthService.PASSWORD_RESET_REQUESTED, email := "alice@mail.com"
    token := encrypt Config.default.cipher (Vector.replicate 16 0) (Vector.replicate 16 0)
      (Config.default.phc resetRow.tokenHash) "key"
    userId := aliceId, expiresAt := codeTtl }

def requestedStore : Store :=
  { db := { users := ⟨[resetUser], by decide⟩, passwordResets := ⟨[resetRow], by decide⟩ }
    jobs := [resetJob] }

theorem forgotPassword_runs :
    Runs semantics (AuthService.forgotPassword Config.default (some "alice@mail.com"))
    resetStore (.ok AuthService.genericMessage) requestedStore :=
  runs_eval (show Prog.eval semantics _ resetStore
    [{}, { draw := "k3x9" }, { draw := argonSalt1 }, {}, {}, {}, { draw := resetId1 },
      {}, {}] = some _ from rfl)

theorem resetJob_mailed : process (fun _ => .ok ()) (.other resetJob) =
    .ok (some (.resetPassword "alice@mail.com" resetJob.token)) := rfl

theorem resetRow_alone {row : PasswordReset}
    (outstanding : Outstanding (some "alice@mail.com") requestedStore row) : row = resetRow :=
  List.mem_singleton.mp outstanding.1

theorem resetRow_outstanding : Outstanding (some "alice@mail.com") requestedStore resetRow :=
  ⟨List.mem_singleton.mpr rfl, rfl, by decide, resetUser, List.mem_singleton.mpr rfl, rfl, rfl⟩

theorem resetJob_mismatch : verifyPassword resetRow.tokenHash resetJob.token = false := by
  rw [verifyPassword_eq_false]
  intro same
  have long : 64 ≤ resetJob.token.length := encrypt_length ..
  have short : resetRow.tokenHash.plain.length = 4 := by decide
  rw [same] at short
  omega

/-- Alice submits the token of her mail at once and is told `Invalid code`. -/
theorem mailed_reset_code_invalid :
    Runs semantics (AuthService.forgotPassword Config.default (some "alice@mail.com"))
      resetStore (.ok AuthService.genericMessage) requestedStore ∧
    process (fun _ => .ok ()) (.other resetJob) =
      .ok (some (.resetPassword "alice@mail.com" resetJob.token)) ∧
    Outstanding (some "alice@mail.com") requestedStore resetRow ∧
    Runs semantics (AuthService.forgotPasswordVerify (some "alice@mail.com") (some resetJob.token))
      requestedStore (.error (badRequest "Invalid code")) requestedStore := by
  refine ⟨forgotPassword_runs, resetJob_mailed, resetRow_outstanding, ?_⟩
  · refine .await ⟨{}, rfl⟩ (.await ⟨{}, rfl⟩ (.await ⟨{}, rfl⟩ ?_))
    have found : pickFrom (requestedStore.db.passwordResets.rows.filter
        (PasswordResetWhere.holds
          { userId := some resetUser.id, expiresAfter := some requestedStore.now
            used := some false })) {} =
        some resetRow := rfl
    simp only [found, verifyHash, Prog.pure_eq, Prog.throw_eq, Prog.bind_ok,
      Prog.bind_error, Prog.graft,
      resetJob_mismatch, Bool.not_false, if_true, badRequest, Exn.isService]
    exact .done

/-- Every run of the submission ends so. -/
theorem mailed_reset_code_refused_alice :
    Outstanding (some "alice@mail.com") requestedStore resetRow ∧ ∀ out last,
      Runs semantics (AuthService.forgotPasswordVerify (some "alice@mail.com") (some resetJob.token))
        requestedStore out last → (∃ e, out = .error e) ∧ last = requestedStore :=
  ⟨resetRow_outstanding, mailed_reset_code_refused forgotPassword_runs rfl resetJob_mailed
    (fun _ outstanding => resetRow_alone outstanding ▸ ⟨List.mem_singleton.mpr rfl,
      List.not_mem_nil⟩)⟩

end Sample
end CorePlatform.Auth
