import CorePlatform.Auth.Issuing
import CorePlatform.Common.Decryption
import CorePlatform.Notification.Registered

/-! The code that verifies an account. It is stored by auth-service, published encrypted, and
mailed by notification-service as it is decrypted there: over any sequence of registrations,
resends and verifications, exactly the code of the last mail of an account is accepted. -/
namespace CorePlatform.Notification
open Async Auth Relational

variable {cfg : Config} {platform : Platform} {d : Decipher}

/-- `getEncryptKey()` in notification-service. -/
def getEncryptKey (encryptKey : Option String) : Except Exn String :=
  match (encryptKey.map Js.trim).filter (· ≠ "") with
  | some key => .ok key
  | none =>
      .error (.service { code := ErrorCodes.INTERNAL, statusCode := 500, message := missingKey })

/-- The service decrypts under a key. -/
def Platform.Decrypts (platform : Platform) (d : Decipher) (encryptKey : Option String) : Prop :=
  ∀ cipherText, platform.decrypt cipherText = (getEncryptKey encryptKey).bind
    (CorePlatform.decrypt d cipherText)

/-- The payload that the consumer reads off the message of an event. -/
def received (createdAt : String) (event : Auth.UserRegisteredEvent) : UserRegisteredEvent :=
  { userId := event.userId, email := event.email, code := event.code, createdAt
    requestId := event.requestId }

/-- A handler whose mails the transport accepts. -/
def handling (platform : Platform) : Semantics RegisteredApi Exn (List Mail) where
  Choice := Unit
  exec
    | .decrypt cipherText, _, mails => some (platform.decrypt cipherText, mails)
    | .sendMail mail, _, mails => some (.ok (), mail :: mails)

/-- On processing the event, `sendMailRegis` mails the code. -/
def Mails (platform : Platform) (event : Auth.UserRegisteredEvent) (code : String) : Prop :=
  ∀ createdAt, Runs (handling platform)
    (NotificationService.sendMailRegis (received createdAt event)) []
    (.ok (.bool true)) [.verifyCode event.email code]

/-- A call that has ended, and the state it has left. -/
structure Ended where
  call : Call
  result : Except Exn Reply
  after : Timed

/-- The calls that issue a code. -/
def issuing : Call → Bool
  | .register .. | .resendCode _ => true
  | _ => false

def verifying : Call → Bool
  | .verify .. => true
  | _ => false

/-- Calls of registrations, resends and verifications, none overlapping another, latest first.
A registration or resend that has not succeeded has not touched the codes. -/
inductive Sequence (cfg : Config) : List Ended → Timed → Prop where
  | start (σ : Timed) (uncoded : σ.store.db.emailOtps.rows = []) : Sequence cfg [] σ
  | call {history : List Ended} {σ τ : Timed} {q : Call} {r : Except Exn Reply}
      (earlier : Sequence cfg history σ)
      (runs : Runs (timed true) (body cfg q) σ r τ)
      (about : verifying q = true ∨ issuing q = true ∧
        (r.isOk = true ∨ τ.store.db.emailOtps = σ.store.db.emailOtps)) :
      Sequence cfg (⟨q, r, τ⟩ :: history) τ

/-- What a call that has succeeded has issued: the event it has published, and when. -/
def issued? (e : Ended) : Option (Auth.UserRegisteredEvent × Nat) :=
  if issuing e.call && e.result.isOk then e.after.store.events.head?.map (·, e.after.read) else none

/-- The last issuance of an account. -/
def latest? (history : List Ended) (userId : String) : Option (Auth.UserRegisteredEvent × Nat) :=
  history.findSome? fun e => (issued? e).filter (·.1.userId = userId)

/-- The email is the one of an inactive account, and the code is what the mail of its last
issuance carries, which is less than 15 minutes old. -/
def Current (platform : Platform) (cfg : Config) (history : List Ended) (σ : Timed)
    (email code : String) (now : Nat) : Prop :=
  ∃ user ∈ σ.store.db.users, user.email = normalizeEmail cfg email ∧ user.isActive = false ∧
    ∃ event issuedAt, latest? history user.id = some (event, issuedAt) ∧ Mails platform event code ∧
    now < issuedAt + codeTtl

section Mail

variable {event : Auth.UserRegisteredEvent} {code : String}

theorem mails_iff : Mails platform event code ↔ platform.decrypt event.code = .ok code := by
  constructor
  · intro mails
    have sent : Post (handling platform)
        (NotificationService.sendMailRegis (received "" event)) [] fun _ handed =>
        handed = [.verifyCode event.email code] → platform.decrypt event.code = .ok code := by
      refine post_catch.mpr (post_bind.mpr (post_perform.mpr ?_))
      rintro r handed ⟨_, decrypted⟩
      obtain ⟨rfl, rfl⟩ := Prod.mk.inj (Option.some.inj decrypted)
      cases plain : platform.decrypt (received "" event).code with
      | error e =>
        intro impossible
        cases impossible
      | ok text =>
        refine post_bind.mpr (post_perform.mpr ?_)
        rintro r handed ⟨_, handedOver⟩
        obtain ⟨rfl, rfl⟩ := Prod.mk.inj (Option.some.inj handedOver)
        intro same
        cases same
        exact plain
    exact post_iff_runs.mp sent _ _ (mails "") rfl
  · intro plain createdAt
    have first : (handling platform).exec (.decrypt (received createdAt event).code)
        () [] = some (.ok code, []) := congrArg (fun r => some (r, [])) plain
    exact Runs.await ⟨(), first⟩ (Runs.await ⟨(), rfl⟩ Runs.done)

/-- With one key in both services, an event mails the code it was encrypted from. -/
theorem mails_of_encrypts (inverts : d.Inverts cfg.cipher)
    (decrypts : platform.Decrypts d cfg.encryptKey) (encrypts : Encrypts cfg event.code code) :
    Mails platform event code := by
  obtain ⟨key, salt, iv, configured, same⟩ := encrypts
  have plain := decrypt_encrypt inverts salt iv code key
  rw [mails_iff, same, decrypts]
  simp only [getEncryptKey, configured, Except.bind, plain]

theorem mails_unique {code' : String} (mails : Mails platform event code)
    (mails' : Mails platform event code') :
    code = code' := Except.ok.inj ((mails_iff.mp mails).symm.trans (mails_iff.mp mails'))

end Mail

section Calls

variable {rejects : Bool} {q : Call} {σ τ : Timed} {r : Except Exn Reply} {email code : String}

theorem issues_of_runs (runs : Runs (timed rejects) (body cfg q) σ r τ)
    (issues : issuing q = true) :
    IssuesOnReturn cfg σ r τ := by
  have replied : ∀ {α : Type} {p : Action α} {f : α → Reply}, Post (timed rejects) p σ
      (IssuesOnReturn cfg σ) →
      Post (timed rejects) (do return f (← p)) σ (IssuesOnReturn cfg σ) := by
    intro α p f spec
    refine post_bind.mpr (spec.mono fun r υ issued => ?_)
    cases r with
    | error e => exact issuesOnReturn_error e υ
    | ok a => exact fun _ => issued rfl
  cases q with
  | register dto requestId => exact post_iff_runs.mp (replied register_spec) r τ runs
  | resendCode address => exact post_iff_runs.mp (replied resendCode_spec) r τ runs
  | _ => contradiction

theorem verifies_of_runs (runs : Runs (timed rejects) (body cfg (.verify email code)) σ r τ) :
    ∃ r', Verifies cfg rejects email code σ r' τ ∧ r = r'.map .verified := by
  have spec : Post (timed rejects) (body cfg (.verify email code)) σ fun r τ =>
      ∃ r', Verifies cfg rejects email code σ r' τ ∧ r = r'.map .verified := by
    refine post_bind.mpr (verify_spec.mono fun r υ verifies => ?_)
    cases r <;> exact ⟨_, verifies, rfl⟩
  exact post_iff_runs.mp spec r τ runs

/-- A verification accepts, or is rejected. -/
theorem verified_or_error {r' : Except Exn Bool} (verifies : Verifies cfg rejects email code σ r' τ)
    (same : r = r'.map .verified) : (r = .ok (.verified true) ↔ r' = .ok true) ∧
    (r ≠ .ok (.verified true) → ∃ e, r = .error e) := by
  subst same
  cases r' with
  | error e => exact ⟨⟨nofun, nofun⟩, fun _ => ⟨e, rfl⟩⟩
  | ok verified =>
    obtain rfl := verifies.returns verified rfl
    exact ⟨⟨fun _ => rfl, fun _ => rfl⟩, fun refused => absurd rfl refused⟩

end Calls

section Latest

variable {history : List Ended} {id : String} {e : Ended}

theorem latest?_other (none : issued? e = none) :
    latest? (e :: history) id = latest? history id := by
  simp only [latest?, List.findSome?_cons, none, Option.filter_none]

theorem latest?_issued {event : Auth.UserRegisteredEvent} {issuedAt : Nat}
    (issued : issued? e = some (event, issuedAt)) :
    latest? (e :: history) id = if event.userId = id then some (event, issuedAt)
      else latest? history id := by
  simp only [latest?, List.findSome?_cons, issued, Option.filter_some, decide_eq_true_eq]
  split
  · rename_i found
    split at found
    · rename_i same
      rw [if_pos same, found]
    · contradiction
  · rename_i none
    split at none
    · contradiction
    · rename_i other
      rw [if_neg other]

end Latest

/-- The codes that the table holds are those of the last issuances. -/
def Tracks (platform : Platform) (history : List Ended) (s : Store) : Prop :=
  ∀ id, match latest? history id with
    | none => ∀ code expiresAt, ¬ HasCode s id code expiresAt
    | some (event, issuedAt) => ∃ current, Mails platform event current ∧
        ∀ code expiresAt, HasCode s id code expiresAt ↔ code = current ∧
        expiresAt = issuedAt + codeTtl

theorem Tracks.same {history history' : List Ended} {s s' : Store}
    (tracks : Tracks platform history s) (latest : ∀ id, latest? history' id = latest? history id)
    (codes : ∀ u h e, HasCode s' u h e ↔ HasCode s u h e) : Tracks platform history' s' := by
  intro id
  have before := tracks id
  rw [latest id]
  cases known : latest? history id with
  | none =>
    rw [known] at before
    exact fun code expiresAt has => before code expiresAt ((codes ..).mp has)
  | some issuance =>
    rw [known] at before
    obtain ⟨current, mails, exactly⟩ := before
    exact ⟨current, mails, fun code expiresAt => (codes ..).trans (exactly code expiresAt)⟩

/-- A code that is issued takes the place of the account's last one. -/
theorem Tracks.issue {history : List Ended} {σ τ : Timed} {e : Ended}
    {event : Auth.UserRegisteredEvent} {codeHash : String}
    (tracks : Tracks platform history σ.store) (issues : Issues cfg σ τ event codeHash)
    (mails : Mails platform event codeHash) (issued : issued? e = some (event, τ.read)) :
    Tracks platform (e :: history) τ.store := by
  intro id
  have before := tracks id
  rw [latest?_issued issued]
  by_cases mine : event.userId = id
  · rw [if_pos mine]
    refine ⟨codeHash, mails, fun code expiresAt => ?_⟩
    rw [issues.codes, ← mine]
    simp only [true_and, ne_eq, not_true_eq_false, false_and, or_false]
  · rw [if_neg mine]
    have other : id ≠ event.userId := fun same => mine same.symm
    have kept : ∀ code expiresAt, HasCode τ.store id code expiresAt ↔
        HasCode σ.store id code expiresAt := by
      intro code expiresAt
      rw [issues.codes]
      simp only [other, false_and, ne_eq, not_false_eq_true, true_and, false_or]
    cases known : latest? history id with
    | none =>
      rw [known] at before
      exact fun code expiresAt has => before code expiresAt ((kept ..).mp has)
    | some issuance =>
      rw [known] at before
      obtain ⟨current, mailed, exactly⟩ := before
      exact ⟨current, mailed, fun code expiresAt => (kept ..).trans (exactly code expiresAt)⟩

theorem sequence_tracks (inverts : d.Inverts cfg.cipher)
    (decrypts : platform.Decrypts d cfg.encryptKey) {history : List Ended} {σ : Timed}
    (sequence : Sequence cfg history σ) : Tracks platform history σ.store := by
  induction sequence with
  | start σ uncoded =>
    rintro id code expiresAt ⟨otp, stored, _⟩
    rw [← Table.mem_rows, uncoded] at stored
    exact List.not_mem_nil stored
  | @call history σ τ q r earlier runs about tracks =>
    have silent : issuing q = false ∨ r.isOk = false → issued? ⟨q, r, τ⟩ = none := by
      rintro (other | failed)
      · simp only [issued?, other, Bool.false_and, Bool.false_eq_true, if_false]
      · simp only [issued?, failed, Bool.and_false, Bool.false_eq_true, if_false]
    rcases about with verifies | ⟨issues, settled⟩
    · cases q with
      | verify email code =>
        obtain ⟨r', verified, _⟩ := verifies_of_runs runs
        exact tracks.same (fun id => latest?_other (silent (.inl rfl))) verified.codes
      | _ => contradiction
    · cases returned : r.isOk with
      | true =>
        obtain ⟨event, codeHash, issued⟩ := issues_of_runs runs issues returned
        refine tracks.issue issued (mails_of_encrypts inverts decrypts issued.code) ?_
        simp only [issued?, issues, returned, Bool.and_self, if_true, issued.events,
          List.head?_cons, Option.map_some]
      | false =>
        have unchanged := settled.resolve_left fun ok => by rw [returned] at ok; contradiction
        refine tracks.same (fun id => latest?_other (silent (.inr returned))) fun u h e => ?_
        simp only [HasCode, unchanged]

section Accepted

variable {history : List Ended} {σ τ : Timed} {r : Except Exn Reply} {email code : String}

theorem acceptable_iff (tracks : Tracks platform history σ.store) {now : Nat} :
    Acceptable cfg email code σ now ↔ Current platform cfg history σ email code now := by
  constructor
  · rintro ⟨user, inTable, owner, inactive, expiresAt, has, unexpired⟩
    have known := tracks user.id
    cases latest : latest? history user.id with
    | none =>
      rw [latest] at known
      exact absurd has (known code expiresAt)
    | some issuance =>
      rw [latest] at known
      obtain ⟨current, mails, exactly⟩ := known
      obtain ⟨rfl, rfl⟩ := (exactly code expiresAt).mp has
      exact ⟨user, inTable, owner, inactive, issuance.1, issuance.2, latest, mails, unexpired⟩
  · rintro ⟨user, inTable, owner, inactive, event, issuedAt, latest, mails, recent⟩
    have known := tracks user.id
    rw [latest] at known
    obtain ⟨current, mails', exactly⟩ := known
    have has := (exactly code (issuedAt + codeTtl)).mpr ⟨mails_unique mails mails', rfl⟩
    exact ⟨user, inTable, owner, inactive, _, has, recent⟩

/-- What every command and the passing of time keep, a call keeps. -/
theorem kept_of_runs {P : Store → Prop} {q : Call} (runs : Runs (timed true) (body cfg q) σ r τ)
    (start : P σ.store) (commands : ∀ c choice s r s', exec c choice s = some (r, s') → P s → P s')
    (time : ∀ s ms, P s → P (s.after ms)) :
    P τ.store := by
  have step : ∀ (c : Cmd) (σ : Timed) (r : Except Exn c.Resp) (τ : Timed),
      (timed true).Responds c σ r τ → P σ.store → P τ.store := by
    intro c σ r τ responds holds
    obtain ⟨ms, choice, s, executed, _⟩ := stepped_of_responds responds
    exact commands c choice _ r s executed (time _ ms holds)
  exact post_iff_runs.mp ((uses_body q).post (fun c _ => step c) start) r τ runs

theorem remains_of_runs {user : User} {q : Call} (runs : Runs (timed true) (body cfg q) σ r τ)
    (remains : Remains σ.store user) : Remains τ.store user :=
  kept_of_runs (P := fun s => Remains s user) runs remains
    (fun _ _ _ _ _ executed remains => remains.trans fun _ found => exec_users executed found)
    fun _ _ remains => remains

/-- The account is there and active. -/
def Opened (s : Store) (user : User) : Prop := Remains s user ∧ ActiveAccount s user.id

theorem Opened.kept {user : User} {q : Call} (opened : Opened σ.store user)
    (runs : Runs (timed true) (body cfg q) σ r τ) :
    Opened τ.store user := by
  constructor
  · exact remains_of_runs runs opened.1
  · exact kept_of_runs (P := fun s => ActiveAccount s user.id) runs opened.2
      (fun _ _ _ _ _ executed active => (exec_usersEffect executed).active active)
      fun _ _ active => active

/-- There is one account of the email, and it is active. -/
theorem Opened.active {user : User} {email : String} (opened : Opened σ.store user)
    (owner : user.email = email) :
    ∃ found ∈ σ.store.db.users, found.email = email ∧ found.isActive = true := by
  obtain ⟨⟨user', stored, id, same⟩, active, stored', id', activated⟩ := opened
  have one : user' = active := Table.eq_of_key stored stored' (id.trans id'.symm)
  exact ⟨user', stored, same.trans owner, one ▸ activated⟩

/-- Once an account has been verified it stays active, whatever calls follow. -/
theorem opened_later {user : User} {ended : Ended} {later : List Ended}
    (opened : Opened ended.after.store user)
    (sequence : Sequence cfg (later ++ ended :: history) τ) : Opened τ.store user := by
  induction later generalizing τ with
  | nil =>
    cases sequence with
    | call => exact opened
  | cons first later ih =>
    cases sequence with
    | call earlier runs => exact (ih earlier).kept runs

theorem Opened.refuses {user : User} {rejects : Bool} {r' : Except Exn Bool}
    (opened : Opened σ.store user) (owner : user.email = normalizeEmail cfg email)
    (verifies : Verifies cfg rejects email code σ r' τ) : r' ≠ .ok true := by
  intro accepted
  obtain ⟨⟨found, inTable, address, inactive, _⟩, _⟩ := verifies.accepts accepted
  obtain ⟨active, stored, same, activated⟩ := opened.active owner
  have one : found = active :=
    List.inj_on_of_nodup_map σ.store.db.emails inTable stored (address.trans same.symm)
  rw [one, activated] at inactive
  contradiction

end Accepted

/-- A verification is accepted exactly for the code of the last mail of an inactive account,
less than 15 minutes after it was issued; from then on the account is active, and every other
verification for it is rejected. -/
theorem verify_accepts_current_code {history : List Ended} {σ : Timed}
    (sequence : Sequence cfg history σ) (inverts : d.Inverts cfg.cipher)
    (decrypts : platform.Decrypts d cfg.encryptKey) :
    (∀ email code r τ, Runs (timed false) (body cfg (.verify email code)) σ r τ →
      (r = .ok (.verified true) ↔ Current platform cfg history σ email code τ.read)) ∧
    ∀ email code τ later υ, Runs (timed true)
      (body cfg (.verify email code)) σ (.ok (.verified true)) τ →
      Sequence cfg (later ++ ⟨.verify email code, .ok (.verified true), τ⟩ :: history) υ →
      (∃ user ∈ υ.store.db.users, user.email = normalizeEmail cfg email ∧ user.isActive = true) ∧
      ∀ email' code' r' ω, normalizeEmail cfg email' = normalizeEmail cfg email →
        Runs (timed true) (body cfg (.verify email' code')) υ r' ω → ∃ e, r' = .error e := by
  have tracks := sequence_tracks inverts decrypts sequence
  constructor
  · intro email code r τ runs
    obtain ⟨r', verifies, same⟩ := verifies_of_runs runs
    rw [(verified_or_error verifies same).1, ← acceptable_iff tracks]
    constructor
    · exact fun accepted => (verifies.accepts accepted).1
    · exact verifies.complete rfl
  · intro email code τ later υ runs continued
    obtain ⟨r', verifies, same⟩ := verifies_of_runs runs
    have accepted := (verified_or_error verifies same).1.mp rfl
    obtain ⟨_, user, found, owner, active⟩ := verifies.accepts accepted
    have opened : Opened τ.store user := ⟨remains_of_runs runs ⟨user, found, rfl, rfl⟩, active⟩
    have opened' := opened_later opened continued
    constructor
    · exact opened'.active owner
    · intro email' code' r' ω sameEmail runs'
      obtain ⟨r'', verifies', same'⟩ := verifies_of_runs runs'
      have refused := opened'.refuses (owner.trans sameEmail.symm) verifies'
      exact (verified_or_error verifies' same').2 fun accepted =>
        refused ((verified_or_error verifies' same').1.mp accepted)

section Sample

/-- Calls one after the other, with the choices of their commands. -/
def replayCalls (cfg : Config) (history : List Ended) (σ : Timed) :
    List (Call × List (Nat × Choice)) → Option (List Ended × Timed)
  | [] => some (history, σ)
  | (q, choices) :: rest =>
    match (body cfg q).eval (timed true) σ choices with
    | some (r, τ) =>
      if verifying q || issuing q && r.isOk then
        replayCalls cfg (⟨q, r, τ⟩ :: history) τ rest else none
    | none => none

theorem sequence_of_replay {history history' : List Ended} {σ τ : Timed}
    {calls : List (Call × List (Nat × Choice))} (sequence : Sequence cfg history σ)
    (replayed : replayCalls cfg history σ calls = some (history', τ)) :
    Sequence cfg history' τ := by
  induction calls generalizing history σ with
  | nil =>
    cases Option.some.inj replayed
    exact sequence
  | cons call rest ih =>
    obtain ⟨q, choices⟩ := call
    simp only [replayCalls] at replayed
    split at replayed
    · rename_i r υ evaluated
      split at replayed
      · rename_i about
        simp only [Bool.or_eq_true, Bool.and_eq_true] at about
        refine ih (sequence.call (runs_eval evaluated) ?_) replayed
        exact about.imp_right fun ⟨issues, returned⟩ => ⟨issues, .inl returned⟩
      · contradiction
    · contradiction

def knownDecipher : Decipher := .known knownSealings

theorem knownDecipher_inverts : knownDecipher.Inverts Config.default.cipher :=
  known_inverts (by decide)

/-- The key of the auth service, the formats of zod, and one instant. -/
def keyedPlatform : Platform where
  jsonParse _ := none
  uuid := Zod.uuid
  email := Zod.email
  datetime s := s = "1970-01-01T00:00:00.000Z"
  decrypt text :=
    (getEncryptKey Config.default.encryptKey).bind (CorePlatform.decrypt knownDecipher text)

def drawing (draws : List String) : List (Nat × Choice) := draws.map fun draw => (1000, { draw })

/-- A registration, a resend, and a verification with the first code. -/
def registrationCalls : List (Call × List (Nat × Choice)) :=
  [(.register { email := "alice@mail.com", password := "Secret123" } none,
      drawing ["", argonSalt0, "k3x9", argonSalt1, "", "", aliceId, "", otpId1, ""]),
    (.resendCode (some "alice@mail.com"), drawing ["", "z7q2", argonSalt2, "", "", "", "", ""]),
    (.verify "alice@mail.com" (phcOf ⟨argonSalt1, "k3x9"⟩), drawing ["", "", ""])]

def acceptsCode : Except Exn Auth.Reply × Timed → Bool
  | (.ok (.verified true), _) => true
  | _ => false

/-- The code of the resend is accepted. -/
theorem resent_code_accepted : ∃ history σ τ, Sequence Config.default history σ ∧
    history.length = 3 ∧
    Runs (timed false)
      (body Config.default (.verify "alice@mail.com" (phcOf ⟨argonSalt2, "z7q2"⟩))) σ
      (.ok (.verified true)) τ ∧
    Current keyedPlatform Config.default history σ "alice@mail.com" (phcOf ⟨argonSalt2, "z7q2"⟩)
      τ.read := by
  have replayed : ((replayCalls Config.default [] {store := {}} registrationCalls).any fun ended =>
      ended.1.length = 3 &&
        ((body Config.default (.verify "alice@mail.com" (phcOf ⟨argonSalt2, "z7q2"⟩))).eval
          (timed false) ended.2
        (drawing ["", "", "", "", ""])).any acceptsCode) = true := by decide +kernel
  obtain ⟨⟨history, σ⟩, replayed, passed⟩ := (Option.any_eq_true _ _).mp replayed
  obtain ⟨calls, accepted⟩ := (Bool.and_eq_true ..).mp passed
  have sequence := sequence_of_replay (.start { store := {} } rfl) replayed
  obtain ⟨r, τ, runs, verified⟩ := runs_of_eval accepted
  have returned : r = .ok (.verified true) := by
    unfold acceptsCode at verified
    split at verified
    · rename_i same
      exact (Prod.mk.inj same).1
    · contradiction
  subst returned
  have decrypts : keyedPlatform.Decrypts knownDecipher Config.default.encryptKey := fun _ => rfl
  have current := (verify_accepts_current_code sequence knownDecipher_inverts decrypts).1 _ _ _ τ runs
  exact ⟨history, σ, τ, sequence, of_decide_eq_true calls, runs, current.mp rfl⟩

end Sample
end CorePlatform.Notification
