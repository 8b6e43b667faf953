import CorePlatform.Auth.Mailing
import CorePlatform.Auth.Verified

/-! Who has become active. An account is activated by a verification that was asked with the address
of the account and with a code of it, and a code of an account was made by a call that serves this
account. -/
namespace CorePlatform.Auth
open Async Relational

variable {cfg : Config} {pool : AuthPool} {s₀ : Store} {user : User}

def Store.activeIds (s : Store) : Set String := {id | ActiveAccount s id}

/-- An account that is not active was found under the address. -/
def Found (cfg : Config) (email : String) (trace : List Ev) (id : String) : Prop :=
  ∃ user, (⟨.userFindFirst { email := some (normalizeEmail cfg email), isActive := some false },
    .ok (some user)⟩ : Ev) ∈ trace ∧ user.id = id

/-- The call has found the account under the address it was asked with, then its code by the one it
was asked with, and has activated the account. -/
def Activates (cfg : Config) : Call → List Ev → String → Prop
  | .verify email code, trace, id => Found cfg email trace id ∧ (∃ now otp,
      (⟨.emailOtpFindFirst { userId := some id, codeHash := some code, expiresAfter := some now },
        .ok (some otp)⟩ : Ev) ∈ trace) ∧ (⟨.userActivate id, .ok ()⟩ : Ev) ∈ trace
  | _, _, _ => False

theorem Found.longer {email id : String} {trace : List Ev} (e : Ev)
    (found : Found cfg email trace id) : Found cfg email (e :: trace) id :=
  found.imp fun _ looked => ⟨List.mem_cons_of_mem _ looked.1, looked.2⟩

theorem Activates.longer (q : Call) (trace : List Ev) (e : Ev) (id : String)
    (activates : Activates cfg q trace id) : Activates cfg q (e :: trace) id := by
  cases q <;> try exact activates.elim
  obtain ⟨found, ⟨now, otp, searched⟩, activated⟩ := activates
  exact ⟨found.longer e, ⟨now, otp, List.mem_cons_of_mem _ searched⟩,
    List.mem_cons_of_mem _ activated⟩

section Along

/-- What a verification has looked up when it activates an account. -/
def lookupPoint (cfg : Config) : Call → List Ev → Cmd → Prop
  | .verify email _ => fun trace c => ∀ id, c = .userActivate id → Found cfg email trace id
  | _ => fun _ _ => True

theorem along_lookup {email code : String} :
    Along (lookupPoint cfg (.verify email code)) (fun _ _ => True) []
      (AuthService.verify cfg email code) := by
  have passes : ∀ (_ : List Ev) (_ : Exn), True := fun _ _ => trivial
  refine along_rethrow passes (along_await_bind (by rintro id ⟨⟩) passes fun found => ?_)
  cases found with
  | none => trivial
  | some user =>
    refine along_await_bind (by rintro id ⟨⟩) passes fun now =>
      along_await_bind (by rintro id ⟨⟩) passes fun found => ?_
    cases found with
    | none => trivial
    | some otp =>
      refine along_await_bind (by rintro id ⟨⟩) passes fun _ =>
        along_await_bind ?_ passes fun _ => trivial
      rintro id ⟨⟩
      exact ⟨user, by simp only [List.mem_cons, true_or, or_true], rfl⟩

theorem along_looking (q : Call) :
    Along (lookupPoint cfg q) (fun _ _ => True) [] (body cfg q) := by
  cases q with
  | verify email code =>
    refine along_bind.mpr (along_lookup.mono (fun _ _ point => point) fun trace r _ => ?_)
    cases r <;> trivial
  | _ => exact (uses_body _).along.mono (fun _ _ _ => trivial) fun _ _ _ => trivial

end Along

theorem exec_activate {choice : Choice} {s s' : Store} {id : String} {r : Except Exn Unit}
    (executed : exec (.userActivate id) choice s = some (r, s')) : s' = s ∨ r = .ok () := by
  unfold exec at executed
  split at executed
  · cases executed
    exact .inl rfl
  · simp only [execTotal] at executed
    split at executed
    · cases executed
      exact .inr rfl
    · cases executed
      exact .inl rfl

theorem active_attributed (cfg : Config) (cond : AuthPool → Step cfg → Prop)
    (init : Store → Prop) :
    (authSystem cfg).Attributes cond init Store.activeIds (Activates cfg) fun _ _ _ => False where
  made_longer := Activates.longer
  taken_longer _ _ _ _ impossible := impossible
  gains pool t choice th c r s reachable found next _ executed id there := by
    have point := reachable.point along_activation found next
    obtain before | rfl | ⟨email, hash, name, phone, rfl⟩ :=
      (exec_usersEffect executed).activated there
    · exact .inl before
    · obtain rfl | rfl := exec_activate executed
      · exact .inl there
      have looked := reachable.point along_looking found next
      cases request : th.request <;> rw [request] at point looked <;> try contradiction
      obtain ⟨now, otp, _, searched⟩ := point
      exact .inr ⟨(looked id rfl).longer _, ⟨now, otp, List.mem_cons_of_mem _ searched⟩,
        List.mem_cons_self⟩
    · cases request : th.request <;> rw [request] at point <;> contradiction
  loses pool t choice th c r s _ _ _ _ executed id there :=
    .inl ((exec_usersEffect executed).active there)
  acts a s s' acted := by
    ext id
    exact act_active acted

/-- The code that a search has found for an account. -/
inductive ShowsCode : Ev → MailFact → Prop where
  | found (userId codeHash : String) (now : Nat) (otp : EmailOtp) :
      ShowsCode ⟨.emailOtpFindFirst { userId := some userId, codeHash := some codeHash
                                      expiresAfter := some now }, .ok (some otp)⟩
        (.code userId codeHash)

theorem exec_showsCode {c : Cmd} {choice : Choice} {s s' : Store} {r : Except Exn c.Resp}
    {fact : MailFact} (executed : exec c choice s = some (r, s')) (shows : ShowsCode ⟨c, r⟩ fact) :
    fact ∈ s.mailFacts := by
  cases shows with
  | found userId codeHash now otp =>
    obtain ⟨inTable, matching⟩ := exec_emailOtpFindFirst executed
    simp only [EmailOtpWhere.holds, Option.all_some, Bool.and_eq_true, beq_iff_eq] at matching
    exact ⟨otp.expiresAt, otp, inTable, matching.1.1.symm, matching.1.2.symm, rfl⟩

/-- The code was one of the account at the start, or a call has drawn it for the account. -/
def CodeOf (cfg : Config) (s₀ : Store) (pool : AuthPool) (user : User) (code : String) : Prop :=
  (∃ expiresAt, HasCode s₀ user.id code expiresAt) ∨
    ∃ maker ∈ pool.threads, ∃ account hash, CodeFor cfg maker.request maker.trace account hash ∧
      account.id = user.id ∧ account.email = user.email ∧ Addressed cfg maker.request account ∧
      code = cfg.phc hash

/-- Whatever the interleaving: an account that is active was so at the start, or a verification has
activated it that was asked with its address and with a code of it. -/
theorem activation_custody (reachable : (authSystem cfg).Reachable System.Any (· = s₀) pool)
    (stored : user ∈ pool.store.db.users) (active : user.isActive = true) :
    ActiveAccount s₀ user.id ∨ ∃ th ∈ pool.threads, ∃ email code,
      th.request = .verify email code ∧ Activates cfg th.request th.trace user.id ∧
        user.email = normalizeEmail cfg email ∧ CodeOf cfg s₀ pool user code := by
  have accounted := (active_attributed cfg _ _).accounted
    (fun s start => congrArg Store.activeIds start) reachable
    (show user.id ∈ pool.store.activeIds from ⟨user, stored, rfl, active⟩)
  obtain before | ⟨th, member, activates⟩ := accounted
  · exact .inl before
  have whole := activates
  cases asked : th.request <;> rw [asked] at activates <;> try exact activates.elim
  rename_i email code
  obtain ⟨⟨found, looked, same⟩, ⟨now, otp, searched⟩, _⟩ := activates
  obtain ⟨remains, named⟩ := shown_remains reachable member looked (.found _ _)
  have address := ((owner_of_remains remains stored).mpr same.symm).trans (named _ rfl)
  refine .inr ⟨th, member, email, code, asked, whole, address, ?_⟩
  have known := (mailing_attributed cfg _ _).shown (fun s start => congrArg Store.mailFacts start)
    (fun pool t choice th c r s f _ _ _ => exec_showsCode) reachable member searched
    (.found user.id code now otp)
  obtain had | ⟨maker, made, account, hash, codeFor, sameUser, sameCode⟩ := known
  · exact .inl had
  · obtain ⟨remains', addressed⟩ := serves_remains reachable made codeFor.serves
    have owned := (owner_of_remains remains' stored).mpr sameUser
    exact .inr ⟨maker, made, account, hash, codeFor, sameUser.symm, owned.symm, addressed, sameCode⟩

/-- The account of the sample was activated with the code of its registration. -/
theorem activation_custody_sample : ∃ pool, ∃ user ∈ pool.store.db.users,
    (authSystem Config.default).Reachable System.Any (· = {}) pool ∧ user.isActive = true ∧
    ∃ th ∈ pool.threads, ∃ email code, th.request = .verify email code ∧
      Activates Config.default th.request th.trace user.id ∧
      user.email = normalizeEmail Config.default email ∧
      CodeOf Config.default {} pool user code := by
  have replayed : ((authSystem Config.default).replay System.Any (System.idle {})
      verifiedSteps).any (fun pool => pool.store.db.users.rows.any User.isActive) = true := by
    decide +kernel
  obtain ⟨pool, run, tested⟩ := System.run_of_replay replayed
  obtain ⟨user, stored, active⟩ := List.any_eq_true.mp tested
  have reachable : (authSystem Config.default).Reachable System.Any (· = {}) pool := ⟨{}, rfl, run⟩
  refine ⟨pool, user, stored, reachable, active, ?_⟩
  refine (activation_custody reachable stored active).resolve_left ?_
  rintro ⟨old, inTable, _⟩
  exact absurd inTable List.not_mem_nil

end CorePlatform.Auth
