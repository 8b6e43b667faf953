import CorePlatform.Auth.Rules

/-! Which of a user's reset rows a code is compared with. The queries pick any matching row and
the code is compared afterwards, with that row only. -/
namespace CorePlatform.Auth
open Async Relational

/-- No backend rejects a command. -/
@[reducible] def steady : Semantics Api Exn Store := ⟨Choice, execTotal⟩

/-- A row that `verifyPasswordReset` may pick. -/
def Redeemable (userId : String) (s : Store) (row : PasswordReset) : Prop :=
  row ∈ s.db.passwordResets ∧ row.userId = userId ∧ s.now < row.expiresAt ∧ row.used = false

/-- A row that `resetPassword` may pick. -/
def Redeemed (userId : String) (s : Store) (row : PasswordReset) : Prop :=
  row ∈ s.db.passwordResets ∧ row.userId = userId ∧ row.used = true

def Confirms (code : String) (row : PasswordReset) : Prop :=
  verifyPassword row.tokenHash code = true

instance (code : String) (row : PasswordReset) : Decidable (Confirms code row) :=
  inferInstanceAs (Decidable (verifyPassword row.tokenHash code = true))

/-- Exactly the given row has been marked as used. -/
def Marked (row : PasswordReset) (s t : Store) : Prop :=
  ∀ row', row' ∈ t.db.passwordResets ↔ ∃ old ∈ s.db.passwordResets,
    (if old.id = row.id then { old with used := true } else old) = row'

/-- A verification succeeds exactly if the code is that of some redeemable row, and marks such a
row. -/
def VerifiesAny (userId code : String) (s : Store) : Prop :=
  Post steady (UsersService.verifyPasswordReset userId (some code)) s fun r t =>
    (r = .ok true ↔ ∃ row, Redeemable userId s row ∧ Confirms code row) ∧
      (r = .ok true → ∃ row, Redeemable userId s row ∧ Confirms code row ∧ Marked row s t)

/-- A reset succeeds exactly if the code is that of some redeemed row. -/
def ResetsAny (userId password code : String) (s : Store) : Prop :=
  Post steady (UsersService.resetPassword userId (some password) (some code)) s fun r _ =>
    r = .ok true ↔ ∃ row, Redeemed userId s row ∧ Confirms code row

/-- The code is that of all the rows or of none. -/
def Unanimous (code : String) (rows : PasswordReset → Prop) : Prop :=
  ∀ row row', rows row → rows row' → (Confirms code row ↔ Confirms code row')

section Queries

variable {s t : Store} {userId code password : String}

/-- A command whose work leaves nothing open. -/
theorem post_steady {α : Type} {c : Cmd} {r : Except Exn c.Resp} {f : c.Resp → Action α}
    {Q : Except Exn α → Store → Prop}
    (definite : ∀ choice, execTotal c choice s = some (r, t)) :
    Post steady (call c >>= f) s Q ↔ match r with
      | .ok a => Post steady (f a) t Q
      | .error e => Q (.error e) t := by
  have responds : steady.Responds c s r t := ⟨{}, definite {}⟩
  refine (post_command responds ?_).trans (by cases r <;> rfl)
  rintro r' t' ⟨choice, executed⟩
  exact Prod.mk.inj (Option.some.inj (executed.symm.trans (definite choice)))

/-- A query may pick any row that matches. -/
theorem post_steady_pick {α β : Type} {c : Cmd} {f : c.Resp → Action α}
    {Q : Except Exn α → Store → Prop}
    (rows : List β) (found : Option β → c.Resp)
    (picks : ∀ choice, execTotal c choice s = some (.ok (found (pickFrom rows choice)), s)) :
    Post steady (call c >>= f) s Q ↔
      (rows = [] → Post steady (f (found none)) s Q) ∧ ∀ row ∈ rows,
      Post steady (f (found (some row))) s Q := by
  have cases : (∀ choice, Post steady (f (found (pickFrom rows choice))) s Q) ↔ _ :=
    pickFrom_cases (P := fun picked => Post steady (f (found picked)) s Q)
  refine post_bind.trans (Iff.trans ?_ cases)
  constructor
  · exact fun holds choice => holds (.ok _) s ⟨choice, picks choice⟩
  · rintro holds r t ⟨choice, executed⟩
    obtain ⟨rfl, rfl⟩ := Prod.mk.inj (Option.some.inj ((picks choice).symm.trans executed))
    exact holds choice

theorem post_steady_findFirst {α : Type} {w : PasswordResetWhere}
    {f : Option PasswordReset → Action α}
    {Q : Except Exn α → Store → Prop} : Post steady (call (.passwordResetFindFirst w) >>= f) s Q ↔
      ((∀ row ∈ s.db.passwordResets, ¬ w.holds row) → Post steady (f none) s Q) ∧
        ∀ row ∈ s.db.passwordResets, w.holds row → Post steady (f (some row)) s Q := by
  have picked : Post steady (call (.passwordResetFindFirst w) >>= f) s Q ↔ _ :=
    post_steady_pick (s.db.passwordResets.rows.filter w.holds) (fun picked => picked) fun _ => rfl
  simp only [List.filter_eq_nil_iff, List.mem_filter, and_imp] at picked
  exact picked

/-- The salt of a hash is any text. -/
theorem post_steady_hashPassword {α β : Type} {plain : β} {f : Argon2Hash β → Action α}
    {Q : Except Exn α → Store → Prop} :
    Post steady (hashPassword plain >>= f) s Q ↔ ∀ salt, Post steady (f ⟨salt, plain⟩) s Q := by
  constructor
  · exact fun holds salt => holds (.ok salt) s ⟨{ draw := salt }, rfl⟩
  · rintro holds r t ⟨choice, executed⟩
    obtain ⟨rfl, rfl⟩ := Prod.mk.inj (Option.some.inj executed)
    exact holds choice.draw

theorem holds_redeemable {row : PasswordReset} :
    PasswordResetWhere.holds
      { userId := some userId, expiresAfter := some s.now, used := some false } row ↔
      row.userId = userId ∧ s.now < row.expiresAt ∧ row.used = false := by
  simp only [PasswordResetWhere.holds, Option.all_some, Bool.and_eq_true, beq_iff_eq,
    decide_eq_true_eq, and_assoc]
  exact and_congr eq_comm (and_congr_right fun _ => eq_comm)

theorem holds_redeemed {row : PasswordReset} :
    PasswordResetWhere.holds { userId := some userId, used := some true } row ↔
    row.userId = userId ∧ row.used = true := by
  simp only [PasswordResetWhere.holds, Option.all_some, Option.all_none, Bool.and_true,
    Bool.and_eq_true, beq_iff_eq]
  exact and_congr eq_comm eq_comm

/-- The code is that of all rows or of none exactly if no mismatch stands beside a match. -/
theorem unanimous_iff {rows : PasswordReset → Prop} :
    Unanimous code rows ↔ ∀ row, rows row → ¬ Confirms code row → ¬ ∃ row', rows row' ∧
    Confirms code row' := by
  constructor
  · rintro alike row found mismatch ⟨row', found', verified⟩
    exact mismatch ((alike row row' found found').mpr verified)
  · intro apart row row' found found'
    by_cases verified : Confirms code row
    · refine iff_of_true verified (Decidable.byContradiction fun mismatch => ?_)
      exact apart row' found' mismatch ⟨row, found, verified⟩
    · exact iff_of_false verified fun verified' =>
        apart row found verified ⟨row', found', verified'⟩

/-- The update of a row that is there. -/
theorem exec_use {row : PasswordReset} (found : row ∈ s.db.passwordResets) : ∃ t, Marked row s t ∧
    ∀ choice, execTotal (.passwordResetUse row.id) choice s = some (.ok (), t) := by
  have there : row.id ∈ s.db.passwordResets.rows.map PasswordReset.id := List.mem_map_of_mem found
  obtain ⟨rows, modified⟩ : ∃ rows, s.db.passwordResets.modify? row.id
    (fun row => { row with used := true }) = some rows := by
    unfold Table.modify?
    exact ⟨_, if_pos there⟩
  refine ⟨s.setPasswordResets rows, fun row' => Table.mem_modify? modified, fun choice => ?_⟩
  simp only [execTotal, modified, Store.affected]

theorem verifiesAny_iff : VerifiesAny userId code s ↔ Unanimous code (Redeemable userId s) := by
  rw [unanimous_iff]
  unfold VerifiesAny UsersService.verifyPasswordReset
  rw [post_steady (r := .ok s.now) (t := s) fun _ => rfl]
  refine post_steady_findFirst.trans ?_
  simp only [holds_redeemable]
  constructor
  · rintro ⟨_, picked⟩ row ⟨found, redeemable⟩ mismatch
    have refused := picked row found redeemable
    rw [Confirms, Bool.not_eq_true] at mismatch
    simp only [verifyHash, mismatch, Prog.pure_eq, Prog.bind_ok, Bool.not_false, if_true,
      Prog.throw_eq] at refused
    intro verified
    cases refused.1.mpr verified
  · intro apart
    refine ⟨fun none => ?_, fun row found redeemable => ?_⟩
    · refine ⟨iff_of_false ?_ ?_, ?_⟩
      · rintro ⟨⟩
      · rintro ⟨row, ⟨found, redeemable⟩, _⟩
        exact none row found redeemable
      · rintro ⟨⟩
    · by_cases verified : Confirms code row
      · obtain ⟨t, marked, used⟩ := exec_use found
        have accepted := verified
        rw [Confirms] at accepted
        simp only [verifyHash, accepted, Prog.pure_eq, Prog.bind_ok, Bool.not_true,
          Bool.false_eq_true, if_false]
        rw [post_steady used]
        have there : Redeemable userId s row ∧ Confirms code row := ⟨⟨found, redeemable⟩, verified⟩
        exact ⟨iff_of_true rfl ⟨row, there⟩, fun _ => ⟨row, there.1, there.2, marked⟩⟩
      · have mismatch := verified
        rw [Confirms, Bool.not_eq_true] at mismatch
        simp only [verifyHash, mismatch, Prog.pure_eq, Prog.bind_ok, Bool.not_false, if_true]
        refine ⟨iff_of_false ?_ (apart row ⟨found, redeemable⟩ verified), ?_⟩
        · rintro ⟨⟩
        · rintro ⟨⟩

/-- The password of an existing user is set. -/
theorem exec_setPassword {user : User} (passwordHash : Argon2Hash String)
    (found : user ∈ s.db.users) :
    ∃ t, t.db.passwordResets = s.db.passwordResets ∧
      ∀ choice, execTotal (.userSetPassword user.id passwordHash) choice s = some (.ok (), t) := by
  have there : user.id ∈ s.db.users.rows.map User.id := List.mem_map_of_mem found
  exact ⟨s.updateUser user.id fun u => { u with passwordHash }, rfl,
    fun choice => by simp only [execTotal, there, if_true]⟩

theorem exec_delete {row : PasswordReset} (found : row ∈ s.db.passwordResets) :
    ∃ t, ∀ choice, execTotal (.passwordResetDelete row.id) choice s = some (.ok (), t) := by
  have there : row.id ∈ s.db.passwordResets.rows.map PasswordReset.id := List.mem_map_of_mem found
  obtain ⟨rows, removed⟩ : ∃ rows, s.db.passwordResets.remove? row.id = some rows := by
    unfold Table.remove?
    exact ⟨_, if_pos there⟩
  exact ⟨s.setPasswordResets rows, fun choice => by simp only [execTotal, removed, Store.affected]⟩

theorem resetsAny_iff (known : ∃ user ∈ s.db.users, user.id = userId) :
    ResetsAny userId password code s ↔ Unanimous code (Redeemed userId s) := by
  obtain ⟨user, there, rfl⟩ := known
  rw [unanimous_iff]
  unfold ResetsAny UsersService.resetPassword
  refine post_steady_findFirst.trans ?_
  simp only [holds_redeemed]
  constructor
  · rintro ⟨_, picked⟩ row ⟨found, redeemed⟩ mismatch
    have refused := picked row found redeemed
    rw [Confirms, Bool.not_eq_true] at mismatch
    simp only [verifyHash, mismatch, Prog.pure_eq, Prog.bind_ok, Bool.not_false, if_true,
      Prog.throw_eq] at refused
    intro verified
    cases refused.mpr verified
  · intro apart
    refine ⟨fun none => ?_, fun row found redeemed => ?_⟩
    · apply iff_of_false
      · rintro ⟨⟩
      · rintro ⟨row, ⟨found, redeemed⟩, _⟩
        exact none row found redeemed
    · by_cases verified : Confirms code row
      · have accepted := verified
        rw [Confirms] at accepted
        simp only [verifyHash, accepted, Prog.pure_eq, Prog.bind_ok, Bool.not_true,
          Bool.false_eq_true, if_false]
        refine post_steady_hashPassword.mpr fun salt => ?_
        obtain ⟨t, resets, set⟩ := exec_setPassword ⟨salt, password⟩ there
        obtain ⟨u, deleted⟩ := exec_delete (s := t) (resets ▸ found)
        rw [post_steady set, post_steady deleted]
        exact iff_of_true rfl ⟨row, ⟨found, redeemed⟩, verified⟩
      · have mismatch := verified
        rw [Confirms, Bool.not_eq_true] at mismatch
        simp only [verifyHash, mismatch, Prog.pure_eq, Prog.bind_ok, Bool.not_false, if_true]
        exact iff_of_false (by rintro ⟨⟩) (apart row ⟨found, redeemed⟩ verified)

/-- A code is matched against all rows of a user exactly if the rows that each query may pick
agree on it. -/
theorem codes_matched_iff (known : ∃ user ∈ s.db.users, user.id = userId) :
    VerifiesAny userId code s ∧ ResetsAny userId password code s ↔
      Unanimous code (Redeemable userId s) ∧ Unanimous code (Redeemed userId s) :=
  and_congr verifiesAny_iff (resetsAny_iff known)

end Queries
section Sample

def resetCode (id plain : String) (used : Bool) : PasswordReset :=
  { id, userId := aliceId, tokenHash := ⟨argonSalt0, plain⟩, expiresAt := codeTtl, used }

/-- Alice has requested two mails. -/
def twiceRequested : Store where
  db := {
    users := ⟨[{ id := aliceId, email := "alice@mail.com", passwordHash := ⟨argonSalt0, "secret"⟩
                 createdAt := 0 }], by decide⟩
    passwordResets := ⟨[resetCode resetId1 "k3x9" false, resetCode resetId2 "m7q2" false],
      by decide⟩ }

/-- The code of one mail is refused when the query picks the row of the other. -/
theorem issued_code_refused : ¬ VerifiesAny aliceId "m7q2" twiceRequested := by
  intro verifies
  have evaluated : (UsersService.verifyPasswordReset aliceId (some "m7q2")).eval steady
      twiceRequested [{}, {}] = some (.error (badRequest "Invalid code"), twiceRequested) := rfl
  have accepted := (post_iff_runs.mp verifies _ _ (runs_eval evaluated)).1.mpr
    ⟨_, ⟨List.mem_cons_of_mem _ List.mem_cons_self, rfl, by decide, rfl⟩, rfl⟩
  contradiction

/-- Beside the verified code another one is outstanding. -/
def onceVerified : Store where
  db := { twiceRequested.db with
    passwordResets := ⟨[resetCode resetId1 "k3x9" true, resetCode resetId2 "m7q2" false],
      by decide⟩ }

/-- Each of the two codes is the only one that its query may pick. -/
theorem codes_matched_sample : VerifiesAny aliceId "m7q2" onceVerified ∧
    ResetsAny aliceId "pass" "m7q2" onceVerified := by
  have known : ∃ user ∈ onceVerified.db.users, user.id = aliceId := ⟨_, List.mem_cons_self, rfl⟩
  have redeemable : ∀ row ∈ onceVerified.db.passwordResets.rows, row.used = false →
      row = resetCode resetId2 "m7q2" false := by
    decide
  have redeemed : ∀ row ∈ onceVerified.db.passwordResets.rows, row.used = true →
      row = resetCode resetId1 "k3x9" true := by
    decide
  refine (codes_matched_iff known).mpr ⟨?_, ?_⟩
  · rintro row row' ⟨found, _, _, unused⟩ ⟨found', _, _, unused'⟩
    rw [redeemable row found unused, redeemable row' found' unused']
  · rintro row row' ⟨found, _, used⟩ ⟨found', _, used'⟩
    rw [redeemed row found used, redeemed row' found' used']

end Sample
end CorePlatform.Auth
