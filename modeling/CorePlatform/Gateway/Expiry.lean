import CorePlatform.Async.Record
import CorePlatform.Gateway.Accelerator

/-! Expired records. Both paths of `checkIdempotency` that claim a key write `expiresAt`, and no
path reads it. -/
namespace CorePlatform.Gateway
open Async Relational
open IdempotencyService (computeRequestHash checkIdempotency)

/-- What a claim leaves under the key of the call. -/
structure FreshClaim (cfg : Config) (q : RegisterRequest) (now : Nat)
    (record : IdempotencyRecord) : Prop where
  key : record.key = q.key
  request : record.requestHash =
    computeRequestHash cfg q.idempotency.method q.idempotency.path q.idempotency.body
  status : record.status = .processing
  unanswered : record.responseStatus = none
  expires : record.expiresAt = now + recordTtl

/-- The call claims its key. -/
def Claims (cfg : Config) (q : RegisterRequest) (s : Store) : Prop :=
  Post steady (checkIdempotency cfg q.gateway q.idempotency) s fun r t =>
    ∃ record ∈ t.db.records, r = .ok { recordId := record.id, shouldExecute := true } ∧
      FreshClaim cfg q t.now record

/-- As for a fresh key, the call claims the key and is sent to the auth service. -/
def ExecutesAfresh (cfg : Config) (q : RegisterRequest) (s : Store) : Prop :=
  Claims cfg q s ∧ ∀ steps r t, Executes steady (AuthClientService.register cfg q) s steps r t →
    ∃ step ∈ steps, step.cmd = .httpRegister q.registerDto

section Calls

variable {cfg : Config} {q : RegisterRequest} {s : Store} {record : IdempotencyRecord}

/-- A call that has claimed its key is sent. -/
theorem Claims.executes (claims : Claims cfg q s) : ExecutesAfresh cfg q s := by
  refine ⟨claims, postRecord_iff.mp (postRecord_bind.mpr (postRecord_catch.mpr ?_))⟩
  refine postRecord_iff.mpr fun steps r t execution => ?_
  obtain ⟨record, _, rfl, _⟩ := post_iff_runs.mp claims r t execution.runs
  intro choice r u _
  refine postRecord_iff.mpr fun steps' out v _ => ?_
  exact ⟨_, List.mem_append_right _ List.mem_cons_self, rfl⟩

/-- Without a live response in the cache, the table decides. -/
theorem claims_of_missing (keyed : q.key ≠ "") (missing : live? s q.gateway q.key = none)
    (found : ∀ t, t.db = s.db → Post steady (IdempotencyService.checkRecord q.gateway q.key
        (computeRequestHash cfg q.idempotency.method q.idempotency.path q.idempotency.body)
        (s.db.findUnique q.key)) t
      fun r u => ∃ record ∈ u.db.records, r = .ok { recordId := record.id, shouldExecute := true } ∧
        FreshClaim cfg q u.now record) : Claims cfg q s := by
  have key : q.idempotency.key = q.key := rfl
  simp only [Claims, checkIdempotency, key, keyed, if_false]
  rw [post_steady (a := (getFromCache (s.caches q.gateway) q.key s.now).1)
    (t := s.setGatewayCache q.gateway (getFromCache (s.caches q.gateway) q.key s.now).2) fun _ =>
      rfl]
  simp only [ne_eq, not_live missing, not_true_eq_false, if_false]
  rw [post_steady (a := s.db.findUnique q.key) fun _ => rfl]
  exact found _ rfl

/-- A failed record of the same request is claimed again. -/
theorem failed_executesAfresh (keyed : q.key ≠ "") (missing : live? s q.gateway q.key = none)
    (inTable : record ∈ s.db.records) (same : record.key = q.key) (failed : record.status = .failed)
    (request : record.requestHash =
      computeRequestHash cfg q.idempotency.method q.idempotency.path q.idempotency.body) :
    ExecutesAfresh cfg q s := by
  refine (claims_of_missing keyed missing fun t unchanged => ?_).executes
  have inTable' : record ∈ t.db.records := unchanged ▸ inTable
  rw [Db.findUnique_eq inTable same]
  simp only [IdempotencyService.checkRecord, request, ne_eq, not_true_eq_false, if_false, failed]
  rw [post_steady (a := t.now) (t := t) fun _ => rfl, post_steady (update_found inTable')]
  refine ⟨_, Db.mem_update.mpr ⟨record, inTable', if_pos rfl⟩, rfl, ?_⟩
  exact { key := same, request, status := rfl, unanswered := rfl
          expires := by simp only [RecordUpdate.apply, Option.getD_some, Store.setDb] }

/-- What a record means to a call with its key does not depend on its expiry. -/
theorem executes_iff (keyed : q.key ≠ "") (inTable : record ∈ s.db.records)
    (same : record.key = q.key) :
    ExecutesAfresh cfg q s ↔
      record.status = .failed ∧
      record.requestHash = computeRequestHash cfg q.idempotency.method
        q.idempotency.path q.idempotency.body ∧ live? s q.gateway q.key = none := by
  constructor
  · rintro ⟨claims, _⟩
    obtain ⟨r, t, run⟩ :=
      runs_exists responds_exists (checkIdempotency cfg q.gateway q.idempotency) s
    have decided := post_iff_runs.mp (post_checkIdempotency keyed) r t run
    obtain ⟨_, _, rfl, _⟩ := post_iff_runs.mp claims r t run
    cases live : live? s q.gateway q.idempotency.key with
    | some body =>
      rw [live] at decided
      contradiction
    | none =>
      have found : s.db.findUnique q.idempotency.key = some record := Db.findUnique_eq inTable same
      simp only [live, tableDecision, found] at decided
      split at decided
      · contradiction
      · rename_i request
        cases status : record.status with
        | failed => exact ⟨rfl, Decidable.not_not.mp request, live⟩
        | processing | completed =>
          simp only [status] at decided
          contradiction
  · rintro ⟨failed, request, missing⟩
    exact failed_executesAfresh keyed missing inTable same failed request

/-- In every state, a record past its expiry does not keep a call from executing as for a fresh key
exactly when it has failed, was made for the same request, and the cache has no live response. -/
theorem expired_executes_iff (cfg : Config) (s : Store) (q : RegisterRequest) (keyed : q.key ≠ "")
    (record : IdempotencyRecord) (inTable : record ∈ s.db.records) (same : record.key = q.key) :
    record.expiresAt < s.now → (ExecutesAfresh cfg q s ↔ record.status = .failed ∧
      record.requestHash = computeRequestHash cfg q.idempotency.method
        q.idempotency.path q.idempotency.body ∧
      live? s q.gateway q.key = none) := fun _ => executes_iff keyed inTable same

end Calls
section Sample

/-- A call claims the key, and the instance crashes before the reply. -/
def crashedSteps : List SampleStep :=
  .spawn (registration 0) :: moves 0 4 ++ [.act (.tick (recordTtl + 1))]

/-- Under the key of the request there is an expired record that passes a test. -/
def expiredRecord (test : Store → IdempotencyRecord → Bool) (pool : GatewayPool) : Bool :=
  pool.store.db.records.rows.any fun record =>
    record.key = (registration 1).key && decide (record.expiresAt < pool.store.now) &&
      test pool.store record

theorem reached_expired (test : Store → IdempotencyRecord → Bool) {steps : List SampleStep}
    (tested : ((gatewaySystem Config.default).replay System.Any (System.idle {}) steps).any
      (expiredRecord test) = true) :
    ∃ pool, (gatewaySystem Config.default).Reachable System.Any Cold pool ∧
    ∃ record ∈ pool.store.db.records,
      record.key = (registration 1).key ∧ record.expiresAt < pool.store.now ∧
      test pool.store record = true := by
  obtain ⟨pool, run, which⟩ := System.run_of_replay tested
  obtain ⟨record, inTable, which⟩ := List.any_eq_true.mp which
  simp only [Bool.and_eq_true, decide_eq_true_eq] at which
  exact ⟨pool, ⟨{}, fun _ _ => rfl, run⟩, record, inTable, which.1.1, which.1.2, which.2⟩

/-- A day after the crash the record has expired, and a retry of the request is still not
executed. -/
theorem crashed_record_stuck :
    ∃ pool, (gatewaySystem Config.default).Reachable System.Any Cold pool ∧
    ∃ record ∈ pool.store.db.records, record.key = (registration 1).key ∧
    record.expiresAt < pool.store.now ∧
      ¬ ExecutesAfresh Config.default (registration 1) pool.store := by
  have tested : ((gatewaySystem Config.default).replay System.Any (System.idle {}) crashedSteps).any
      (expiredRecord fun _ record => record.status = .processing) = true := by decide +kernel
  obtain ⟨pool, reachable, record, inTable, same, expired, processing⟩ := reached_expired _ tested
  refine ⟨pool, reachable, record, inTable, same, expired, fun executes => ?_⟩
  have failed := ((executes_iff (by decide) inTable same).mp executes).1
  rw [of_decide_eq_true processing] at failed
  contradiction

/-- A day after a refusal upstream the request is executed again. -/
theorem expired_executes_sample :
    ∃ pool, (gatewaySystem Config.default).Reachable System.Any Cold pool ∧
    ∃ record ∈ pool.store.db.records, record.key = (registration 1).key ∧
    record.expiresAt < pool.store.now ∧
      ExecutesAfresh Config.default (registration 1) pool.store := by
  have tested : ((gatewaySystem Config.default).replay System.Any (System.idle {})
      (failedSteps ++ [.act (.tick (recordTtl + 1))])).any
        (expiredRecord fun s record => decide (record.status = .failed) &&
        decide (record.requestHash =
          computeRequestHash Config.default "POST" "/client/auth/register"
          (.obj (registration 1).registerDto)) && (live? s 1 "k1").isNone) = true := by
            decide +kernel
  obtain ⟨pool, reachable, record, inTable, same, expired, passed⟩ := reached_expired _ tested
  simp only [Bool.and_eq_true, decide_eq_true_eq, Option.isNone_iff_eq_none] at passed
  obtain ⟨⟨failed, request⟩, missing⟩ := passed
  refine ⟨pool, reachable, record, inTable, same, expired, ?_⟩
  exact (expired_executes_iff Config.default pool.store (registration 1)
    (by decide) record inTable same expired).mpr
    ⟨failed, request, missing⟩

end Sample
end CorePlatform.Gateway
