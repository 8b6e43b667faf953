import CorePlatform.Async.Holding
import CorePlatform.Gateway.System

/-! Mutual exclusion of keyed registrations. The unique key protects the creation of a
record; the retry of a failed record and the second `markFailed` of a call write the record
by its identifier alone, whoever is executing by then. -/
namespace CorePlatform.Gateway
open Async Relational

variable {cfg : Config}

/-- The record that a call is about to write without holding it: one it has found failed, at
its retry, or one it has marked already, at the `markFailed` of the `catch` clause. -/
def foreign? (th : GatewayThread) : Option String :=
  match th.next? with
  | some (.recordUpdate id data) =>
      if data.status = .processing ∨ th.trace.any marked = true then some id else none
  | _ => none

/-- A written retry, or second mark, meets its record in an allowed status. -/
def ForeignWrites (cfg : Config) (allowed : IdempotencyStatus → Prop)
    (pool : GatewayPool) : Step cfg → Prop
  | .run t choice => ∀ th ∈ pool.thread? t, choice.fault = none → ∀ id ∈ foreign? th,
      ∀ record ∈ pool.store.db.records.rows, record.id.val = id → allowed record.status
  | _ => True

instance (allowed : IdempotencyStatus → Prop) [DecidablePred allowed] (pool : GatewayPool) :
    (label : Step cfg) → Decidable (ForeignWrites cfg allowed pool label)
  | .run t choice =>
    decidable_of_iff (∀ th ∈ pool.thread? t, choice.fault.isNone = true → ∀ id ∈ foreign? th,
      ∀ record ∈ pool.store.db.records.rows, record.id.val = id → allowed record.status)
      (by simp only [Option.isNone_iff_eq_none, ForeignWrites])
  | .spawn _ | .act _ => isTrue trivial

/-- The condition: the record is not being processed. -/
abbrev Unheld (cfg : Config) : GatewayPool → Step cfg → Prop := ForeignWrites cfg (· ≠ .processing)

/-- The record is being processed. -/
def Taken (id : String) (s : Store) : Prop :=
  ∃ record ∈ s.db.records, record.id.val = id ∧ record.status = .processing

theorem taken_iff {s : Store} {record : IdempotencyRecord} (found : record ∈ s.db.records) :
    Taken record.id s ↔ record.status = .processing := by
  constructor
  · rintro ⟨other, found', same, status⟩
    rw [Table.eq_of_key found found' (Subtype.ext same.symm)]
    exact status
  · exact fun status => ⟨record, found, rfl, status⟩

theorem fault_none {c : Cmd} {choice : Choice} {s t : Store} {a : c.Resp}
    (executed : exec c choice s = some (.ok a, t)) : choice.fault = none := by
  unfold exec at executed
  split at executed
  · assumption
  · split at executed
    · cases (Prod.mk.inj (Option.some.inj executed)).1
    · contradiction

theorem act_db {a : EnvAct} {s s' : Store} (acted : act a s = some s') : s'.db = s.db := by
  cases a with
  | tick ms =>
    cases Option.some.inj acted
    rfl
  | restart gateway =>
    cases Option.some.inj acted
    rfl

section Steps

variable {cond : GatewayPool → Step cfg → Prop} {init : Store → Prop} {pool : GatewayPool} {t : Nat}
  {th : GatewayThread}

/-- A mark by a call that has not marked yet is a mark of the record it holds. -/
theorem marks_own {id : String} {data : RecordUpdate}
    (reachable : (gatewaySystem cfg).Reachable cond init pool) (found : pool.thread? t = some th)
    (next : th.next? = some (.recordUpdate id data)) (own : foreign? th = none) :
    held? th.trace = some id := by
  have point := reachable.point along_register found next
  have keyed : th.request.key ≠ "" := fun unkeyed => absurd (point.1 unkeyed) Bool.false_ne_true
  have standing := point.2 keyed
  simp only [foreign?, next, ite_eq_right_iff, reduceCtorEq, imp_false, not_or] at own
  obtain ⟨mark, unmarked⟩ := own
  cases status : data.status with
  | processing => exact absurd status mark
  | completed =>
    simp only [keyedPoint, status] at standing
    exact standing.1
  | failed =>
    simp only [keyedPoint, status] at standing
    exact standing.2.resolve_right unmarked

/-- What one command does to the records that calls hold. -/
theorem holds_of_exec {c : Cmd} {choice : Choice} {r : Except Exn c.Resp} {s : Store}
    (reachable : (gatewaySystem cfg).Reachable cond init pool) (found : pool.thread? t = some th)
    (next : th.next? = some c) (met : Unheld cfg pool (.run t choice))
    (executed : exec c choice pool.store = some (r, s)) :
    Holds held? Taken th.trace ⟨c, r⟩ pool.store s := by
  cases wrote_of_exec executed with
  | nothing same claimless markless =>
    refine .frame (by simp only [held?, claimless, markless, Bool.false_eq_true,
      if_false]) fun id => ?_
    rw [Taken, Taken, same]
    exact fun taken => taken
  | created record started fresh added =>
    constructor
    · rintro id ⟨⟩ _
      refine ⟨⟨record, (added record).mpr (.inl rfl), rfl, started⟩, .inr ?_⟩
      rintro ⟨other, inTable, same, _⟩
      exact fresh other inTable (Subtype.ext same)
    · rintro id _ ⟨other, inTable, same, status⟩
      exact ⟨other, (added other).mpr (.inr inTable), same, status⟩
  | updated data record inTable written =>
    have answered := fault_none executed
    have rewritten : data.apply record ∈ s.db.records := by
      rw [written]
      exact Db.mem_update.mpr ⟨record, inTable, if_pos rfl⟩
    have others : ∀ id, id ≠ record.id.val → Taken id pool.store → Taken id s := by
      rintro id other ⟨row, rowInTable, rfl, status⟩
      refine ⟨row, ?_, rfl, status⟩
      rw [written]
      exact Db.mem_update.mpr ⟨row, rowInTable, if_neg other⟩
    have free : (foreign? th).isSome → ¬ Taken record.id pool.store := by
      intro foreign taken
      obtain ⟨id, isForeign⟩ := Option.isSome_iff_exists.mp foreign
      have same : record.id.val = id := by
        simp only [foreign?, next] at isForeign
        split at isForeign
        · exact Option.some.inj isForeign
        · contradiction
      exact met th found answered id isForeign record inTable same ((taken_iff inTable).mp taken)
    constructor
    · intro id holds known
      by_cases claim : data.status = .processing
      · simp only [held?, claims?, claim, if_true, Option.some.injEq,
          RecordUpdate.apply_id] at holds
        subst holds
        refine ⟨⟨_, rewritten, rfl, claim⟩, .inr (free ?_)⟩
        simp only [foreign?, next, claim, true_or, if_true, Option.isSome_some]
      · have mark : marked ⟨.recordUpdate record.id data, .ok (data.apply record)⟩ = true := by
          simp [marked, isMark, claim, Except.isOk, Except.toBool]
        simp only [held?, claims?, claim, if_false, mark, if_true, reduceCtorEq] at holds
    · intro id unheld taken
      apply others id _ taken
      rintro rfl
      cases foreign : foreign? th with
      | some id => exact free (by rw [foreign]; rfl) taken
      | none => exact unheld (marks_own reachable found next foreign)

/-- In every run that meets the condition the record a call holds is being processed, and
no other call holds it. -/
theorem exclusive (implies : ∀ pool label, cond pool label → Unheld cfg pool label)
    (reachable : (gatewaySystem cfg).Reachable cond init pool) : Exclusive held? Taken pool := by
  refine reachable.exclusive rfl ?_ ?_
  · intro pool t choice th c r s before found next met executed
    exact holds_of_exec before found next (implies _ _ met) executed
  · intro a s s' acted id taken
    rw [Taken, act_db acted]
    exact taken

/-- A record is there, under a key. -/
def Kept (id key : String) (s : Store) : Prop :=
  ∃ record ∈ s.db.records, record.id.val = id ∧ record.key = key

theorem Kept.exec {id key : String} {c : Cmd} {choice : Choice}
    {r : Except Exn c.Resp} {s s' : Store} (kept : Kept id key s)
    (executed : exec c choice s = some (r, s')) : Kept id key s' := by
  obtain ⟨record, inTable, rfl, rfl⟩ := kept
  obtain ⟨record', inTable', id, key⟩ := (wrote_of_exec executed).kept inTable
  exact ⟨record', inTable', by rw [id], key⟩

theorem Kept.act {id key : String} {a : EnvAct} {s s' : Store} (kept : Kept id key s)
    (acted : act a s = some s') :
    Kept id key s' := by
  rw [Kept, act_db acted]
  exact kept

/-- A record that a call has read is there. -/
theorem kept_of_looked {record : IdempotencyRecord}
    (reachable : (gatewaySystem cfg).Reachable cond init pool) (found : pool.thread? t = some th)
    (looked : Looked th.request th.trace record) :
    Kept record.id th.request.key pool.store := by
  refine reachable.seen (P := fun q s e => ∀ record,
    e = (⟨.recordFindUnique q.key, .ok (some record)⟩ : Ev) →
    Kept record.id q.key s) found looked ?_ ?_ ?_ record rfl
  · rintro pool t choice th c r s found next met executed record ⟨⟩
    have answered := fault_none executed
    simp only [exec, answered, execTotal, Option.some.injEq, Prod.mk.injEq,
      Except.ok.injEq] at executed
    obtain ⟨searched, rfl⟩ := executed
    obtain ⟨inTable, key⟩ := Db.findUnique_spec searched
    exact ⟨record, inTable, rfl, key⟩
  · exact fun q e c choice s r s' executed kept record same => (kept record same).exec executed
  · exact fun q e a s s' acted kept record same => (kept record same).act acted

/-- The record that a call claims is there, under the key of the call. -/
theorem kept_of_claimed {e : Ev} {id : String}
    (reachable : (gatewaySystem cfg).Reachable cond init pool) (found : pool.thread? t = some th)
    (executed : e ∈ th.trace) (claims : claims? e = some id) :
    Kept id th.request.key pool.store := by
  refine reachable.witnessed (P := fun q s e => ∀ id, claims? e = some id →
    Kept id q.key s) found executed ?_ ?_ id
    claims
  · intro pool t choice th c r s before found next met executed id claims
    have point := before.point along_register found next
    cases wrote_of_exec executed with
    | nothing same claimless markless =>
      rw [claimless] at claims
      contradiction
    | created record started fresh added =>
      cases Option.some.inj claims
      have keyed : th.request.key ≠ "" := fun unkeyed => absurd (point.1 unkeyed) Bool.false_ne_true
      exact ⟨record, (added record).mpr (.inl rfl), rfl, (point.2 keyed).1⟩
    | updated data record inTable written =>
      have keyed : th.request.key ≠ "" := fun unkeyed => absurd (point.1 unkeyed) Bool.false_ne_true
      have standing := point.2 keyed
      simp only [claims?, RecordUpdate.apply_id] at claims
      split at claims
      · rename_i claim
        cases Option.some.inj claims
        simp only [keyedPoint, claim] at standing
        obtain ⟨_, read, looked, same⟩ := standing
        rw [← same]
        exact (kept_of_looked before found looked).exec executed
      · contradiction
  · intro pool label pool' q e before met effect kept id claims
    have earlier := kept id claims
    cases effect with
    | spawn q => exact earlier
    | run t choice th c k r s found awaits executed => exact earlier.exec executed
    | act a s acted => exact earlier.act acted

end Steps

/-- At most one call of a key is executing, at any moment of a run that meets a condition. -/
def MutuallyExclusive (cfg : Config) (cond : GatewayPool → Step cfg → Prop) : Prop :=
  ∀ (pool : GatewayPool) (t u : Nat) (th uth : GatewayThread),
    (gatewaySystem cfg).Reachable cond (fun _ => True) pool →
    pool.thread? t = some th → pool.thread? u = some uth →
    th.request.key = uth.request.key → Executing th → Executing uth → t = u

/-- Registrations of one key exclude each other in every run whose retries and second marks
do not meet a record that is being processed, whatever the table held at its start. -/
theorem registrations_exclude : MutuallyExclusive cfg (Unheld cfg) := by
  intro pool t u th uth reachable found uFound sameKey executing uExecuting
  have alone := exclusive (fun _ _ met => met) reachable
  obtain ⟨id, holds⟩ := held_of_claimed executing.1 executing.2
  obtain ⟨uid, uHolds⟩ := held_of_claimed uExecuting.1 uExecuting.2
  obtain ⟨e, inTrace, claims⟩ := claimed_of_held holds
  obtain ⟨ue, uInTrace, uClaims⟩ := claimed_of_held uHolds
  obtain ⟨record, inTable, rfl, key⟩ := kept_of_claimed reachable found inTrace claims
  obtain ⟨other, otherInTable, rfl, otherKey⟩ := kept_of_claimed reachable uFound uInTrace uClaims
  have same : record = other :=
    Db.eq_of_recordKey inTable otherInTable (key.trans (sameKey.trans otherKey.symm))
  rw [same] at holds
  exact (alone u uth other.id uFound uHolds).2 t th found holds

section Sample

instance (th : GatewayThread) : Decidable (Executing th) :=
  inferInstanceAs (Decidable ((∃ e ∈ th.trace, (claims? e).isSome = true) ∧ ∀ e ∈ th.trace,
    isMark e.cmd = false))

abbrev SampleStep := Step Config.default

def registration (gateway : Nat) : RegisterRequest where
  gateway := gateway
  registerDto := [("email", .str "alice@mail.com"), ("password", .str "secret")]
  requestPath := "/client/auth/register"
  idempotencyKey := some "k1"

def moves (t n : Nat) : List SampleStep := List.replicate n (.run t {})

def refusal : HttpReply := { status := 409, data := ⟨.obj [], Js.emptyObject_ne_undefined⟩ }

/-- A call claims the key, is refused upstream, and marks its record failed for the first time. -/
def failedSteps : List SampleStep :=
  .spawn (registration 0) :: moves 0 4 ++ .run 0 { reply := refusal } :: moves 0 1

/-- Two calls at two instances read the failed record before either of them retries. -/
def retrySteps : List SampleStep :=
  failedSteps ++ moves 0 1 ++ [.spawn (registration 1), .spawn (registration 2)] ++
    moves 1 2 ++ moves 2 2 ++ moves 1 2 ++ moves 2 2

/-- A call retries between the two marks of the first one, another retries after them. -/
def secondMarkSteps : List SampleStep :=
  failedSteps ++ .spawn (registration 1) :: moves 1 4 ++ moves 0 1 ++
    .spawn (registration 2) :: moves 2 4

def executes (pool : GatewayPool) (t : Nat) : Bool :=
  (pool.thread? t).any fun th => th.request.key = "k1" && decide (Executing th)

theorem executes_spec {pool : GatewayPool} {t : Nat} (holds : executes pool t = true) :
    ∃ th, pool.thread? t = some th ∧ th.request.key = "k1" ∧ Executing th := by
  obtain ⟨th, found, both⟩ := (Option.any_eq_true ..).mp holds
  obtain ⟨key, executing⟩ := (Bool.and_eq_true ..).mp both
  exact ⟨th, found, of_decide_eq_true key, of_decide_eq_true executing⟩

/-- Two calls execute at once. -/
theorem two_registrations_execute : ¬ MutuallyExclusive Config.default System.Any := by
  intro claim
  have tested : ((gatewaySystem Config.default).replay System.Any (System.idle {}) retrySteps).any
      (fun pool => executes pool 1 && executes pool 2) = true := by decide +kernel
  obtain ⟨pool, run, both⟩ := System.run_of_replay tested
  obtain ⟨first, second⟩ := (Bool.and_eq_true ..).mp both
  obtain ⟨th, found, key, executing⟩ := executes_spec first
  obtain ⟨uth, uFound, uKey, uExecuting⟩ := executes_spec second
  have same :=
    claim pool 1 2 th uth ⟨{}, trivial, run⟩ found uFound (key.trans uKey.symm) executing uExecuting
  contradiction

example : ((gatewaySystem Config.default).replay System.Any (System.idle {}) secondMarkSteps).any
    (fun pool => executes pool 1 && executes pool 2) = true := by decide +kernel

/-- In a run that meets the condition the retry of a failed record executes alone. -/
theorem registrations_exclude_retry : ∃ (pool : GatewayPool) (th : GatewayThread),
    (gatewaySystem Config.default).Reachable (Unheld Config.default) (fun _ => True) pool ∧
    pool.thread? 1 = some th ∧ Executing th ∧ pool.threads.length = 3 ∧
    ∀ u uth, pool.thread? u = some uth → th.request.key = uth.request.key →
    Executing uth → 1 = u := by
  have tested : ((gatewaySystem Config.default).replay (Unheld Config.default) (System.idle {})
      (failedSteps ++ moves 0 1 ++ .spawn (registration 1) :: moves 1 4 ++
        .spawn (registration 2) :: moves 2 2)).any
      (fun pool => executes pool 1 && pool.threads.length = 3) = true := by decide +kernel
  obtain ⟨pool, run, both⟩ := System.run_of_replay tested
  obtain ⟨first, length⟩ := (Bool.and_eq_true ..).mp both
  obtain ⟨th, found, key, executing⟩ := executes_spec first
  exact ⟨pool, th, ⟨{}, trivial, run⟩, found, executing, of_decide_eq_true length,
    fun u uth uFound same uExecuting =>
      registrations_exclude pool 1 u th uth
        ⟨{}, trivial, run⟩ found uFound same executing uExecuting⟩

end Sample
end CorePlatform.Gateway
