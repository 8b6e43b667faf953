import CorePlatform.Gateway.Permanence
import Mathlib.Data.Fintype.EquivFin

/-! The cache against the table. `checkIdempotency` answers from the cache by the key alone;
from the table it also compares the request and looks at the status of the record. -/
namespace CorePlatform.Gateway
open Async Relational
open IdempotencyService (computeRequestHash keyConflict stillProcessing checkIdempotency)

/-- No backend rejects a command. -/
@[reducible] def steady : Semantics Api Exn Store := ⟨Choice, execTotal⟩

/-- What `checkIdempotency` decides for a call of `register`. -/
inductive Decision where
  | refused (e : Exn)
  | replay (body : Json)
  | execute
  deriving DecidableEq

def decision : Except Exn CheckResult → Decision
  | .error e => .refused e
  | .ok check =>
    match check.shouldExecute, check.cachedResponse with
    | false, some body => .replay body
    | _, _ => .execute

/-- The cache of the instance makes no difference to the decision on the request. -/
def SameDecision (cfg : Config) (gateway : Nat) (req : IdempotencyRequest) (s : Store) : Prop :=
  ∀ r t r' t', Runs steady (checkIdempotency cfg gateway req) s r t →
    Runs steady (checkIdempotency cfg gateway req) (s.setGatewayCache gateway fun _ => none) r' t' →
    decision r = decision r'

/-- The unexpired response of a key, where it is not `null`. -/
def live? (s : Store) (gateway : Nat) (key : String) : Option Json :=
  match s.caches gateway key with
  | none => none
  | some cached =>
      if s.now > cached.expiresAt ∨ cached.response.val = .null then none else some cached.response

/-- The decision from the table. -/
def tableDecision (cfg : Config) (db : Db) (req : IdempotencyRequest) : Decision :=
  match db.findUnique req.key with
  | none => .execute
  | some record =>
    if record.requestHash ≠ computeRequestHash cfg req.method req.path req.body then
      .refused keyConflict
    else match record.status with
      | .completed => .replay record.responseBody
      | .processing => .refused stillProcessing
      | .failed => .execute

variable {cfg : Config} {gateway : Nat} {req : IdempotencyRequest} {s t : Store}

/-- A command whose work leaves nothing open. -/
theorem post_steady {α : Type} {c : Cmd} {a : c.Resp} {f : c.Resp → Action α}
    {Q : Except Exn α → Store → Prop}
    (definite : ∀ choice, execTotal c choice s = some (.ok a, t)) :
    Post steady (call c >>= f) s Q ↔ Post steady (f a) t Q := by
  have responds : steady.Responds c s (.ok a) t := ⟨{}, definite {}⟩
  refine (post_command responds ?_).trans Iff.rfl
  rintro r t' ⟨choice, executed⟩
  exact Prod.mk.inj (Option.some.inj (executed.symm.trans (definite choice)))

theorem update_found {record : IdempotencyRecord} {data : RecordUpdate}
    (inTable : record ∈ s.db.records) (choice : Choice) :
    execTotal (.recordUpdate record.id data) choice s =
      some (.ok (data.apply record), s.setDb (s.db.update record.id data)) := by
  have searched : s.db.records.rows.find? (·.id.val = record.id.val) = some record := by
    cases found : s.db.records.rows.find? (·.id.val = record.id.val) with
    | none =>
      have absent := List.find?_eq_none.mp found record inTable
      simp at absent
    | some other =>
      have matched := List.find?_some found
      have same : other.id = record.id := Subtype.ext (of_decide_eq_true matched)
      rw [Table.eq_of_key (List.mem_of_find?_eq_some found) inTable same]
  simp only [execTotal, searched]

/-- The decision where the cache has no live response. -/
theorem post_checkRecord : Post steady
    (IdempotencyService.checkRecord gateway req.key
      (computeRequestHash cfg req.method req.path req.body)
      (s.db.findUnique req.key)) s fun r _ => decision r = tableDecision cfg s.db req := by
  cases searched : s.db.findUnique req.key with
  | none =>
    simp only [IdempotencyService.checkRecord, tableDecision, searched]
    rw [post_steady (a := s.now) (t := s) fun _ => rfl, post_bind]
    rintro r t ⟨choice, executed⟩
    obtain ⟨⟨r', db⟩, created, both⟩ := Option.map_eq_some_iff.mp executed
    obtain ⟨rfl, rfl⟩ := Prod.mk.inj both
    obtain rfl := Db.create_free searched created
    rfl
  | some record =>
    obtain ⟨inTable, _⟩ := Db.findUnique_spec searched
    simp only [IdempotencyService.checkRecord, tableDecision, searched]
    by_cases same : record.requestHash = computeRequestHash cfg req.method req.path req.body
    · simp only [same, ne_eq, not_true_eq_false, if_false]
      cases record.status with
      | processing => rfl
      | completed =>
        dsimp only
        rw [post_steady fun _ => rfl]
        rfl
      | failed =>
        dsimp only
        rw [post_steady (a := s.now) (t := s) fun _ => rfl, post_steady (update_found inTable)]
        rfl
    · simp only [same, ne_eq, not_false_eq_true, if_true]
      rfl

theorem live_value {key : String} {body : Json} (live : live? s gateway key = some body) :
    body.val ≠ .null ∧ ∃ entry, s.caches gateway key = some entry ∧ entry.response = body ∧
      getFromCache (s.caches gateway) key s.now = (body, s.caches gateway) := by
  unfold live? at live
  split at live
  · contradiction
  · rename_i cached found
    split at live
    · contradiction
    · rename_i usable
      cases Option.some.inj live
      obtain ⟨fresh, value⟩ := not_or.mp usable
      refine ⟨value, cached, found, rfl, ?_⟩
      simp only [getFromCache, found, fresh, if_false]

theorem not_live {key : String} (missing : live? s gateway key = none) :
    (getFromCache (s.caches gateway) key s.now).1.val = .null := by
  cases found : s.caches gateway key with
  | none => simp only [getFromCache, found]
  | some cached =>
    by_cases expired : s.now > cached.expiresAt
    · simp only [getFromCache, found, expired, if_true]
    · simp only [live?, found, expired, false_or, ite_eq_left_iff, reduceCtorEq, imp_false,
        Decidable.not_not] at missing
      simp only [getFromCache, found, expired, if_false, missing]

/-- What `checkIdempotency` decides, from the cache where it has a live response. -/
theorem post_checkIdempotency (keyed : req.key ≠ "") :
    Post steady (checkIdempotency cfg gateway req) s fun r _ =>
    decision r = match live? s gateway req.key with
      | some body => .replay body
      | none => tableDecision cfg s.db req := by
  simp only [checkIdempotency, keyed, if_false]
  rw [post_steady (a := (getFromCache (s.caches gateway) req.key s.now).1)
    (t := s.setGatewayCache gateway (getFromCache (s.caches gateway) req.key s.now).2) fun _ => rfl]
  cases live : live? s gateway req.key with
  | some body =>
    obtain ⟨value, _, _, _, got⟩ := live_value live
    simp only [got, ne_eq, value, not_false_eq_true, if_true]
    rfl
  | none =>
    simp only [ne_eq, not_live live, not_true_eq_false, if_false]
    rw [post_steady (a := s.db.findUnique req.key) fun _ => rfl]
    exact post_checkRecord (s := s.setGatewayCache gateway
      (getFromCache (s.caches gateway) req.key s.now).2)

/-- The cache agrees with the table on the request: the record of its key is completed, was
made for the same request, and has the cached body. -/
def CacheAgrees (cfg : Config) (gateway : Nat) (req : IdempotencyRequest) (s : Store) : Prop :=
  req.key = "" ∨ ∀ body, live? s gateway req.key = some body → ∃ record ∈ s.db.records,
    record.key = req.key ∧
    record.requestHash = computeRequestHash cfg req.method req.path req.body ∧
    record.status = .completed ∧ record.responseBody = body

theorem tableDecision_replay {body : Json} : tableDecision cfg s.db req = .replay body ↔
    ∃ record ∈ s.db.records, record.key = req.key ∧
      record.requestHash = computeRequestHash cfg req.method req.path req.body ∧
      record.status = .completed ∧ record.responseBody = body := by
  constructor
  · intro replays
    unfold tableDecision at replays
    split at replays
    · contradiction
    · rename_i record searched
      obtain ⟨inTable, keyed⟩ := Db.findUnique_spec searched
      split at replays
      · contradiction
      · rename_i same
        split at replays
        · rename_i completed
          cases replays
          exact ⟨record, inTable, keyed, Decidable.not_not.mp same, completed, rfl⟩
        · contradiction
        · contradiction
  · rintro ⟨record, inTable, keyed, same, completed, rfl⟩
    simp only [tableDecision, Db.findUnique_eq inTable keyed, same, completed, ne_eq,
      not_true_eq_false, if_false]

/-- Some identifier is free. -/
theorem exists_fresh (db : Db) : ∃ id : RecordId, ∀ other ∈ db.records, other.id ≠ id := by
  obtain ⟨text, new⟩ :=
    Infinite.exists_notMem_finset (insert "" (db.records.rows.map (·.id.val)).toFinset)
  simp only [Finset.mem_insert, List.mem_toFinset, List.mem_map, not_or, not_exists, not_and] at new
  exact ⟨⟨text, new.1⟩, fun other found same => new.2 other found (congrArg Subtype.val same)⟩

theorem responds_exists (c : Cmd) (s : Store) : ∃ r t, steady.Responds c s r t := by
  cases c with
  | recordUpdate id data =>
    simp only [Semantics.Responds, execTotal]
    split
    · exact ⟨_, _, {}, rfl⟩
    · exact ⟨_, _, {}, rfl⟩
  | recordCreate key requestHash expiresAt =>
    obtain ⟨id, fresh⟩ := exists_fresh s.db
    have created :
        (s.db.create { id, key, requestHash, status := .processing, expiresAt }).isSome :=
      Db.create_some fresh
    obtain ⟨⟨r, db⟩, some⟩ := Option.isSome_iff_exists.mp created
    refine ⟨r, s.setDb db, { draw := id }, ?_⟩
    simp only [execTotal, some, Option.map_some]
  | _ => exact ⟨_, _, {}, rfl⟩

/-- The cache makes no difference exactly where it agrees with the table. -/
theorem sameDecision_iff : SameDecision cfg gateway req s ↔ CacheAgrees cfg gateway req s := by
  by_cases unkeyed : req.key = ""
  · refine iff_of_true ?_ (.inl unkeyed)
    intro r t r' t' run run'
    simp only [checkIdempotency, unkeyed, if_true] at run run'
    cases run
    cases run'
    rfl
  · have cold : live? (s.setGatewayCache gateway fun _ => none) gateway req.key = none := by
      simp only [live?, Store.caches_setGatewayCache, Function.update_self]
    have warm : Post steady (checkIdempotency cfg gateway req) s _ := post_checkIdempotency unkeyed
    have fromTable : Post steady (checkIdempotency cfg gateway req)
        (s.setGatewayCache gateway fun _ => none) _ := post_checkIdempotency unkeyed
    simp only [cold, Store.db_setGatewayCache] at fromTable
    rw [CacheAgrees, or_iff_right unkeyed]
    simp only [← tableDecision_replay]
    constructor
    · intro same body live
      obtain ⟨r, t, run⟩ := runs_exists responds_exists (checkIdempotency cfg gateway req) s
      obtain ⟨r', t', run'⟩ := runs_exists responds_exists (checkIdempotency cfg gateway req)
        (s.setGatewayCache gateway fun _ => none)
      have replays := post_iff_runs.mp warm r t run
      simp only [live] at replays
      rw [← post_iff_runs.mp fromTable r' t' run', ← same r t r' t' run run', replays]
    · intro agrees r t r' t' run run'
      rw [post_iff_runs.mp warm r t run, post_iff_runs.mp fromTable r' t' run']
      cases live : live? s gateway req.key with
      | none => rfl
      | some body => exact (agrees body live).symm

/-- The request is the one its key was registered for, as far as the cache is asked. -/
def SameRequest (cfg : Config) (gateway : Nat) (req : IdempotencyRequest) (s : Store) : Prop :=
  req.key = "" ∨ live? s gateway req.key = none ∨ ∃ record ∈ s.db.records, record.key = req.key ∧
    record.requestHash = computeRequestHash cfg req.method req.path req.body

/-- Where registrations are permanent, a cached response is the body of the completed record. -/
theorem cacheAgrees_iff {pool : GatewayPool} (reachable : Enduring cfg pool) :
    CacheAgrees cfg gateway req pool.store ↔ SameRequest cfg gateway req pool.store := by
  refine or_congr_right ?_
  cases live : live? pool.store gateway req.key with
  | none => exact iff_of_true nofun (.inl rfl)
  | some body =>
    obtain ⟨_, entry, cached, rfl, _⟩ := live_value live
    obtain ⟨done, doneInTable, doneKey, completed, stored⟩ := cache_agrees reachable cached
    constructor
    · intro agrees
      obtain ⟨record, inTable, keyed, same, _⟩ := agrees _ rfl
      exact .inr ⟨record, inTable, keyed, same⟩
    · rintro (absent | ⟨record, inTable, keyed, same⟩) body ⟨⟩
      · contradiction
      · rw [Db.eq_of_recordKey inTable doneInTable (keyed.trans doneKey.symm)] at same
        exact ⟨done, doneInTable, doneKey, same, completed, stored⟩

/-- The cache only accelerates the table exactly where it agrees with it; in the runs whose
registrations are permanent, exactly where the cached key is asked for the same request. -/
theorem cache_accelerates_iff (cfg : Config) :
    (∀ gateway req s, SameDecision cfg gateway req s ↔ CacheAgrees cfg gateway req s) ∧
    ∀ pool, (gatewaySystem cfg).Reachable (Lasting cfg) Cold pool → ∀ gateway req,
      SameDecision cfg gateway req pool.store ↔ SameRequest cfg gateway req pool.store :=
  ⟨fun _ _ _ => sameDecision_iff, fun _ reachable _ _ =>
    sameDecision_iff.trans (cacheAgrees_iff reachable)⟩

section Sample

/-- A registration that completes, and is cached at instance 0. -/
def cachedSteps : List SampleStep := answeredSteps ++ moves 0 2

/-- The same key for another account. -/
def otherRequest : IdempotencyRequest where
  method := "POST"
  path := "/client/auth/register"
  body := .obj [("email", .str "bob@mail.com"), ("password", .str "secret")]
  key := "k1"

/-- In the state after the registration the cache has a response for the key, and the request
is not, or is, the one of the record. -/
def cachedFor (req : IdempotencyRequest) (same : Bool) (pool : GatewayPool) : Bool :=
  live? pool.store 0 req.key = some created.data && pool.store.db.records.rows.all fun record =>
    decide (record.requestHash = computeRequestHash Config.default req.method req.path req.body) =
      same

/-- In a reachable state a request for another account is answered with the first one's
reply, where the table alone refuses it. -/
theorem cached_reply_for_other_request : ∃ pool,
    (gatewaySystem Config.default).Reachable System.Any Cold pool ∧
    ¬ SameDecision Config.default 0 otherRequest pool.store := by
  have tested : ((gatewaySystem Config.default).replay System.Any (System.idle {}) cachedSteps).any
      (cachedFor otherRequest false) = true := by decide +kernel
  obtain ⟨pool, run, which⟩ := System.run_of_replay tested
  obtain ⟨live, others⟩ := (Bool.and_eq_true ..).mp which
  refine ⟨pool, ⟨{}, fun _ _ => rfl, run⟩, fun same => ?_⟩
  rcases sameDecision_iff.mp same with empty | agrees
  · contradiction
  · obtain ⟨record, inTable, _, matching, _⟩ := agrees _ (of_decide_eq_true live)
    have different := of_decide_eq_true (List.all_eq_true.mp others record inTable)
    rw [decide_eq_false_iff_not] at different
    exact different matching

/-- The same request is answered alike with and without the cache. -/
theorem cache_accelerates_repeated : ∃ pool, (gatewaySystem Config.default).Reachable
    (Lasting Config.default) Cold pool ∧ live? pool.store 0 "k1" = some created.data ∧
    SameDecision Config.default 0 (registration 0).idempotency pool.store := by
  have tested : ((gatewaySystem Config.default).replay (Lasting Config.default)
      (System.idle {}) cachedSteps).any
      (cachedFor (registration 0).idempotency true) = true := by decide +kernel
  obtain ⟨pool, run, which⟩ := System.run_of_replay tested
  obtain ⟨live, same⟩ := (Bool.and_eq_true ..).mp which
  have reachable : (gatewaySystem Config.default).Reachable (Lasting Config.default) Cold pool :=
    ⟨{}, fun _ _ => rfl, run⟩
  obtain ⟨_, entry, cached, _⟩ := live_value (of_decide_eq_true live)
  obtain ⟨record, inTable, keyed, _⟩ := cache_agrees reachable cached
  have matching := of_decide_eq_true (List.all_eq_true.mp same record inTable)
  exact ⟨pool, reachable, of_decide_eq_true live,
    ((cache_accelerates_iff Config.default).2 pool reachable 0 _).mpr
    (.inr (.inr ⟨record, inTable, keyed, of_decide_eq_true matching⟩))⟩

end Sample
end CorePlatform.Gateway
