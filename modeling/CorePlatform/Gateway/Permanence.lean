import CorePlatform.Common.Formats
import CorePlatform.Gateway.Exclusion

/-! Permanence of keyed registrations. While no `markCompleted` is rejected and nobody
writes over a record that is not failed, a completed record stays as it is, and the caches
of all instances agree with it. -/
namespace CorePlatform.Gateway
open Async Relational

variable {cfg : Config}

/-- The write of a `markCompleted` is not rejected. -/
def CompletionWritten (cfg : Config) (pool : GatewayPool) : Step cfg → Prop
  | .run t choice =>
      ∀ th ∈ pool.thread? t, ∀ c ∈ th.next?, isCompletion c = true → choice.fault = none
  | _ => True

instance (pool : GatewayPool) : (label : Step cfg) → Decidable (CompletionWritten cfg pool label)
  | .run t choice =>
    decidable_of_iff (∀ th ∈ pool.thread? t, ∀ c ∈ th.next?, isCompletion c = true →
      choice.fault.isNone = true)
      (by simp only [Option.isNone_iff_eq_none, CompletionWritten])
  | .spawn _ | .act _ => isTrue trivial

/-- The condition: a retry or second mark meets its record still failed, and every
`markCompleted` is written. -/
abbrev Lasting (cfg : Config) (pool : GatewayPool) (label : Step cfg) : Prop :=
  ForeignWrites cfg (· = .failed) pool label ∧ CompletionWritten cfg pool label

theorem Lasting.unheld {pool : GatewayPool} {label : Step cfg} (met : Lasting cfg pool label) :
    Unheld cfg pool label := by
  cases label with
  | spawn _ | act _ => trivial
  | run t choice =>
    intro th found written id foreign record inTable same processing
    have failed := met.1 th found written id foreign record inTable same
    rw [failed] at processing
    contradiction

/-- The instances have just started. -/
def Cold (s : Store) : Prop := ∀ gateway key, s.caches gateway key = none

/-- The registration of the key is completed with the body. -/
def Done (key : String) (body : Json) (s : Store) : Prop :=
  ∃ record ∈ s.db.records, record.key = key ∧ record.status = .completed ∧
    record.responseBody = body

section Steps

variable {pool pool' : GatewayPool} {t : Nat} {th : GatewayThread} {key : String} {body : Json}

abbrev Enduring (cfg : Config) (pool : GatewayPool) : Prop :=
  (gatewaySystem cfg).Reachable (Lasting cfg) Cold pool

theorem Enduring.exclusive (reachable : Enduring cfg pool) : Exclusive held? Taken pool :=
  Gateway.exclusive (fun _ _ => Lasting.unheld) reachable

/-- A call that holds a record finds it being processed. -/
theorem Enduring.processing {record : IdempotencyRecord} (reachable : Enduring cfg pool)
    (found : pool.thread? t = some th) (holds : held? th.trace = some record.id.val)
    (inTable : record ∈ pool.store.db.records) : record.status = .processing :=
  (taken_iff inTable).mp (reachable.exclusive t th _ found holds).1

/-- No step changes a completed record. -/
theorem completed_stays {label : Step cfg} {record : IdempotencyRecord}
    (reachable : Enduring cfg pool) (met : Lasting cfg pool label)
    (effect : (gatewaySystem cfg).Effect pool label pool')
    (inTable : record ∈ pool.store.db.records) (completed : record.status = .completed) :
    record ∈ pool'.store.db.records := by
  cases effect with
  | spawn q => exact inTable
  | act a s acted =>
    show record ∈ s.db.records
    rw [act_db acted]
    exact inTable
  | run t choice th c k r s found awaits executed =>
    have next : th.next? = some c := by rw [Thread.next?, awaits]
    show record ∈ s.db.records
    cases wrote_of_exec executed with
    | nothing same =>
      rw [same]
      exact inTable
    | created new _ _ added => exact (added record).mpr (.inr inTable)
    | updated data row rowInTable written =>
      rw [written]
      refine Db.mem_update.mpr ⟨record, inTable, if_neg fun same => ?_⟩
      obtain rfl : record = row := Table.eq_of_key inTable rowInTable (Subtype.ext same)
      cases foreign : foreign? th with
      | none =>
        have processing :=
          reachable.processing found (marks_own reachable found next foreign) inTable
        rw [completed] at processing
        contradiction
      | some id =>
        have same : id = record.id.val := by
          simp only [foreign?, next] at foreign
          split at foreign
          · exact (Option.some.inj foreign).symm
          · contradiction
        have failed := met.1 th found (fault_none executed) id foreign record inTable same.symm
        rw [completed] at failed
        contradiction

theorem Done.step {label : Step cfg} (reachable : Enduring cfg pool) (met : Lasting cfg pool label)
    (effect : (gatewaySystem cfg).Effect pool label pool') (done : Done key body pool.store) :
    Done key body pool'.store := by
  obtain ⟨record, inTable, keyed, completed, stored⟩ := done
  exact ⟨record, completed_stays reachable met effect inTable completed, keyed, completed, stored⟩

/-- What a call has read from a completed record is the body of the registration. -/
theorem done_of_readBack (reachable : Enduring cfg pool) (found : pool.thread? t = some th)
    (read : ReadBack th.request th.trace body) : Done th.request.key body pool.store := by
  obtain ⟨record, looked, completed, rfl⟩ := read
  refine reachable.witnessed (P := fun q s e => ∀ record,
    e = (⟨.recordFindUnique q.key, .ok (some record)⟩ : Ev) →
    record.status = .completed →
    Done q.key record.responseBody s) found looked ?_ ?_ record rfl completed
  · rintro pool t choice th c r s _ found next met executed record ⟨⟩ completed
    have answered := fault_none executed
    simp only [exec, answered, execTotal, Option.some.injEq, Prod.mk.injEq,
      Except.ok.injEq] at executed
    obtain ⟨searched, rfl⟩ := executed
    obtain ⟨inTable, keyed⟩ := Db.findUnique_spec searched
    exact ⟨record, inTable, keyed, completed, rfl⟩
  · exact fun pool label pool' q e before met effect done record same completed =>
      (done record same completed).step before met effect

theorem marked_of_completes {e : Ev} (completes : completes? e = some body) : marked e = true := by
  unfold completes? at completes
  split at completes
  · rename_i id data record
    split at completes
    · rename_i completion
      simp [marked, isMark, completion, Except.isOk, Except.toBool]
    · contradiction
  · contradiction

/-- What a call has completed its record with is the body of the registration. -/
theorem done_of_completed (reachable : Enduring cfg pool) (found : pool.thread? t = some th)
    (stored : completed? th.trace = some body) : Done th.request.key body pool.store := by
  obtain ⟨e, inTrace, completes⟩ := List.exists_of_findSome?_eq_some stored
  refine reachable.witnessed (P := fun q s e => ∀ body, completes? e = some body →
    Done q.key body s) found inTrace
    ?_ ?_ body completes
  · intro pool t choice th c r s before found next met executed body completes
    have point := before.point along_register found next
    cases wrote_of_exec executed with
    | nothing same claimless markless =>
      rw [marked_of_completes completes] at markless
      contradiction
    | created record started fresh added => contradiction
    | updated data record inTable written =>
      simp only [completes?] at completes
      split at completes
      · rename_i completion
        have keyed : th.request.key ≠ "" :=
          fun unkeyed => absurd (point.1 unkeyed) Bool.false_ne_true
        have standing := point.2 keyed
        simp only [keyedPoint, completion] at standing
        obtain ⟨own, ownInTrace, claims⟩ := claimed_of_held standing.1
        obtain ⟨row, rowInTable, same, rowKey⟩ := kept_of_claimed before found ownInTrace claims
        obtain rfl : record = row := Table.eq_of_key inTable rowInTable (Subtype.ext same.symm)
        refine ⟨data.apply record, ?_, rowKey, completion, ?_⟩
        · rw [written]
          exact Db.mem_update.mpr ⟨record, inTable, if_pos rfl⟩
        · rw [RecordUpdate.apply, completes, Option.getD_some]
      · contradiction
  · exact fun pool label pool' q e before met effect done body completes =>
      (done body completes).step before met effect

/-- No `markCompleted` has been lost. -/
theorem lost_never {e : Ev} (reachable : Enduring cfg pool) (found : pool.thread? t = some th)
    (executed : e ∈ th.trace) : lost e = false := by
  refine reachable.witnessed (P := fun _ _ e => lost e = false) found executed ?_ ?_
  · intro pool t choice th c r s before found next met executed
    cases completion : isCompletion c with
    | false => rw [lost, completion, Bool.false_and]
    | true =>
      have answered := met.2 th found c next completion
      have point := before.point along_register found next
      cases c with
      | recordUpdate id data =>
        have keyed : th.request.key ≠ "" :=
          fun unkeyed => absurd (point.1 unkeyed) Bool.false_ne_true
        have standing := point.2 keyed
        simp only [keyedPoint, of_decide_eq_true completion] at standing
        obtain ⟨record, inTable, same, _⟩ := (Enduring.exclusive before t th id found standing.1).1
        simp only [exec, answered, execTotal] at executed
        split at executed
        · rename_i absent
          have other := List.find?_eq_none.mp absent record inTable
          simp [same] at other
        · cases (Prod.mk.inj (Option.some.inj executed)).1
          simp [lost, Except.isOk, Except.toBool]
      | _ => contradiction
  · exact fun pool label pool' q e _ _ _ kept => kept

/-- A settled reply is in the table. -/
theorem done_of_settled (reachable : Enduring cfg pool) (found : pool.thread? t = some th)
    (settled : Settled th.trace) (answered : succeeded? th.trace = some body) :
    Done th.request.key body pool.store := by
  rcases settled body answered with stored | ⟨e, inTrace, rejected⟩
  · exact done_of_completed reachable found stored
  · rw [lost_never reachable found inTrace] at rejected
    contradiction

/-- A call of the key has received a successful reply with the body. -/
def Answered (key : String) (body : Json) (pool : GatewayPool) : Prop :=
  ∃ t th, pool.thread? t = some th ∧ th.request.key = key ∧ succeeded? th.trace = some body

/-- The call of the reply holds its record and is about to complete it. -/
def Completing (key : String) (pool : GatewayPool) : Prop :=
  ∃ t th id data, pool.thread? t = some th ∧ th.request.key = key ∧
    th.next? = some (.recordUpdate id data) ∧ data.status = .completed ∧ held? th.trace = some id

/-- The body of a successful reply is in the table, or on its way. -/
theorem Answered.done (reachable : Enduring cfg pool) (keyed : key ≠ "")
    (answered : Answered key body pool) :
    Done key body pool.store ∨ Completing key pool := by
  obtain ⟨t, th, found, rfl, success⟩ := answered
  cases rest : th.rest with
  | done r =>
    have ended : th.result? = some r := by rw [Thread.result?, rest]
    exact .inl (done_of_settled reachable found
      (reachable.returned along_register found ended keyed).1 success)
  | await c k =>
    have next : th.next? = some c := by rw [Thread.next?, rest]
    have standing := (reachable.point along_register found next).2 keyed
    have unanswered : succeeded? th.trace ≠ none := by
      rw [success]
      exact Option.some_ne_none _
    cases c with
    | now => exact absurd standing unanswered
    | cacheGet | recordFindUnique | recordCreate | httpRegister =>
        exact absurd standing.2 unanswered
    | cacheSet => exact .inl (done_of_settled reachable found standing.2.1 success)
    | recordUpdate id data =>
      cases status : data.status with
      | processing =>
        simp only [keyedPoint, status] at standing
        exact absurd standing.1 unanswered
      | completed =>
        simp only [keyedPoint, status] at standing
        exact .inr ⟨t, th, id, data, found, rfl, next, status, standing.1⟩
      | failed =>
        simp only [keyedPoint, status] at standing
        exact .inl (done_of_settled reachable found standing.1 success)

/-- A reply that has been received stays received. -/
theorem Answered.step {label : Step cfg} (reachable : Enduring cfg pool) (keyed : key ≠ "")
    (effect : (gatewaySystem cfg).Effect pool label pool') (answered : Answered key body pool) :
    Answered key body pool' := by
  obtain ⟨t, th, found, rfl, success⟩ := answered
  cases effect with
  | spawn q => exact ⟨t, th, Pool.add_old _ found, rfl, success⟩
  | act a s acted => exact ⟨t, th, found, rfl, success⟩
  | run u choice uth c k r s uFound awaits executed =>
    by_cases same : t = u
    · subst same
      cases Option.some.inj (uFound.symm.trans found)
      have next : th.next? = some c := by rw [Thread.next?, awaits]
      have standing := (reachable.point along_register found next).2 keyed
      refine ⟨t, _, Pool.set_self _ found, rfl, ?_⟩
      cases replied : success? ⟨c, r⟩ with
      | none =>
        rw [succeeded?, List.findSome?_cons, replied]
        exact success
      | some other =>
        cases c with
        | httpRegister dto =>
          rw [standing.2] at success
          contradiction
        | _ => contradiction
    · exact ⟨t, th, (Pool.set_other _ _ same).trans found, rfl, success⟩

/-- A command changes the cache of an instance at one key, by `setCache`, or drops an entry. -/
theorem cached_of_exec {c : Cmd} {choice : Choice} {r : Except Exn c.Resp}
    {s s' : Store} {gateway : Nat} {entry : CacheEntry} (executed : exec c choice s = some (r, s'))
    (cached : s'.caches gateway key = some entry) :
    s.caches gateway key = some entry ∨ ∃ ttlMs,
    c = .cacheSet gateway key entry.response ttlMs := by
  unfold exec at executed
  split at executed
  · cases c with
    | now | recordFindUnique | httpRegister =>
      obtain ⟨_, rfl⟩ := Prod.mk.inj (Option.some.inj executed)
      exact .inl cached
    | recordUpdate id data =>
      simp only [execTotal] at executed
      split at executed
      · obtain ⟨_, rfl⟩ := Prod.mk.inj (Option.some.inj executed)
        exact .inl cached
      · obtain ⟨_, rfl⟩ := Prod.mk.inj (Option.some.inj executed)
        exact .inl cached
    | recordCreate =>
      obtain ⟨⟨r, db⟩, _, both⟩ := Option.map_eq_some_iff.mp executed
      obtain ⟨_, rfl⟩ := Prod.mk.inj both
      exact .inl cached
    | cacheGet other name =>
      obtain ⟨_, rfl⟩ := Prod.mk.inj (Option.some.inj executed)
      left
      rw [Store.caches_setGatewayCache, Function.update_apply] at cached
      split at cached
      · rename_i same
        subst same
        exact getFromCache_drops cached
      · exact cached
    | cacheSet other name response ttlMs =>
      obtain ⟨_, rfl⟩ := Prod.mk.inj (Option.some.inj executed)
      rw [Store.caches_setGatewayCache, Function.update_apply] at cached
      split at cached
      · rename_i same
        subst same
        simp only [setCache, Function.update_apply] at cached
        split at cached
        · rename_i same
          subst same
          cases Option.some.inj cached
          exact .inr ⟨ttlMs, rfl⟩
        · exact .inl cached
      · exact .inl cached
  · split at executed
    · obtain ⟨_, rfl⟩ := Prod.mk.inj (Option.some.inj executed)
      exact .inl cached
    · contradiction

/-- The caches of all instances agree with the table. -/
theorem cache_agrees {gateway : Nat} {entry : CacheEntry} (reachable : Enduring cfg pool)
    (cached : pool.store.caches gateway key = some entry) : Done key entry.response pool.store := by
  suffices all : ∀ gateway key entry, pool.store.caches gateway key = some entry →
      Done key entry.response pool.store from all gateway key entry cached
  refine reachable.invariant (P := fun pool => ∀ gateway key entry,
    pool.store.caches gateway key = some entry → Done key entry.response pool.store) ?_ ?_
  · intro s cold gateway key entry cached
    have absent := (cold gateway key).symm.trans cached
    contradiction
  · intro pool label pool' before _ agree met effect gateway key entry cached
    have kept : pool.store.caches gateway key = some entry → Done key entry.response pool'.store :=
      fun earlier => (agree gateway key entry earlier).step before met effect
    cases effect with
    | spawn q => exact kept cached
    | act a s acted =>
      apply kept
      cases a with
      | tick ms =>
        cases Option.some.inj acted
        exact cached
      | restart other =>
        cases Option.some.inj acted
        simp only [Store.caches_setGatewayCache, Function.update_apply] at cached
        split at cached
        · contradiction
        · exact cached
    | run t choice th c k r s found awaits executed =>
      have next : th.next? = some c := by rw [Thread.next?, awaits]
      rcases cached_of_exec executed cached with earlier | ⟨ttlMs, rfl⟩
      · exact kept earlier
      · have point := before.point along_register found next
        have keyed : th.request.key ≠ "" :=
          fun unkeyed => absurd (point.1 unkeyed) Bool.false_ne_true
        obtain ⟨rfl, _, source⟩ := point.2 keyed
        have done : Done th.request.key entry.response pool.store := by
          rcases source with read | stored
          · exact done_of_readBack before found read
          · exact done_of_completed before found stored
        exact done.step before met (.run t choice th _ k r s found awaits executed)

/-- A response read from a cache is the body of the registration. -/
theorem done_of_cacheGet {gateway : Nat} (reachable : Enduring cfg pool)
    (found : pool.thread? t = some th)
    (executed : (⟨.cacheGet gateway key, .ok body⟩ : Ev) ∈ th.trace) (hit : body.val ≠ .null) :
    Done key body pool.store := by
  refine reachable.witnessed (P := fun _ s e => ∀ body,
    e = (⟨.cacheGet gateway key, .ok body⟩ : Ev) →
    body.val ≠ .null → Done key body s) found executed ?_ ?_ body rfl hit
  · rintro pool t choice th c r s before found next met executed body ⟨⟩ hit
    have answered := fault_none executed
    simp only [exec, answered, execTotal, Option.some.injEq, Prod.mk.injEq,
      Except.ok.injEq] at executed
    obtain ⟨got, rfl⟩ := executed
    simp only [getFromCache] at got
    split at got
    · subst got
      contradiction
    · rename_i entry cached
      split at got
      · subst got
        contradiction
      · subst got
        exact cache_agrees before cached
  · exact fun pool label pool' q e before met effect done body same hit =>
      (done body same hit).step before met effect

/-- A normal return of a call with a key gives the body of the registration. -/
theorem done_of_returned (reachable : Enduring cfg pool) (found : pool.thread? t = some th)
    (keyed : th.request.key ≠ "") (returned : th.result? = some (.ok body)) :
    Done th.request.key body pool.store := by
  rcases (reachable.returned along_register found returned keyed).2 body rfl with (⟨gateway, hit,
    value⟩ | read) | stored
  · exact done_of_cacheGet reachable found hit value
  · exact done_of_readBack reachable found read
  · exact done_of_completed reachable found stored

/-- Only one body is the body of a key. -/
theorem Done.unique {s : Store} {other : Json} (done : Done key body s) (done' : Done key other s) :
    other = body := by
  obtain ⟨record, inTable, keyed, _, rfl⟩ := done
  obtain ⟨record', inTable', keyed', _, rfl⟩ := done'
  rw [Db.eq_of_recordKey inTable inTable' (keyed.trans keyed'.symm)]

/-- A record of the key that a call holds is not completed. -/
theorem not_done_of_held {id : String} (reachable : Enduring cfg pool)
    (found : pool.thread? t = some th) (holds : held? th.trace = some id) :
    ¬ Done th.request.key body pool.store := by
  rintro ⟨record, inTable, keyed, completed, _⟩
  obtain ⟨e, inTrace, claims⟩ := claimed_of_held holds
  obtain ⟨own, ownInTable, rfl, ownKey⟩ := kept_of_claimed reachable found inTrace claims
  have processing := reachable.processing found holds ownInTable
  rw [Db.eq_of_recordKey ownInTable inTable (ownKey.trans keyed.symm), completed] at processing
  contradiction

/-- Once a successful reply is there, no call of the key is about to contact the auth
service. -/
theorem Answered.contactless {c : Cmd} (reachable : Enduring cfg pool) (keyed : key ≠ "")
    (answered : Answered key body pool) (found : pool.thread? t = some th)
    (sameKey : th.request.key = key) (next : th.next? = some c) : isContact c = false := by
  cases c with
  | httpRegister dto =>
    subst sameKey
    obtain ⟨held, _⟩ := (reachable.point along_register found next).2 keyed
    obtain ⟨id, holds⟩ := Option.isSome_iff_exists.mp held
    rcases answered.done reachable keyed with done | ⟨u, uth, uid, data, uFound,
      uKey, uNext, _, uHolds⟩
    · exact absurd done (not_done_of_held reachable found holds)
    · obtain ⟨e, inTrace, claims⟩ := claimed_of_held holds
      obtain ⟨ue, uInTrace, uClaims⟩ := claimed_of_held uHolds
      obtain ⟨record, inTable, rfl, recordKey⟩ := kept_of_claimed reachable found inTrace claims
      obtain ⟨other, otherInTable, rfl, otherKey⟩ :=
        kept_of_claimed reachable uFound uInTrace uClaims
      have same : other = record :=
        Db.eq_of_recordKey otherInTable inTable (otherKey.trans (uKey.trans recordKey.symm))
      rw [same] at uHolds
      obtain rfl := (reachable.exclusive t th _ found holds).2 u uth uFound uHolds
      cases Option.some.inj (found.symm.trans uFound)
      rw [next] at uNext
      cases Option.some.inj uNext
  | _ => rfl

/-- A call of the key that returns normally returns the body. -/
theorem Answered.returns {reply : Json} (reachable : Enduring cfg pool) (keyed : key ≠ "")
    (answered : Answered key body pool) (found : pool.thread? t = some th)
    (sameKey : th.request.key = key) (returned : th.result? = some (.ok reply)) : reply = body := by
  subst sameKey
  have done := done_of_returned reachable found keyed returned
  rcases answered.done reachable keyed with stored | ⟨u, uth, uid, data, uFound, uKey, _, _, uHolds⟩
  · exact stored.unique done
  · rw [← uKey] at done
    exact absurd done (not_done_of_held reachable uFound uHolds)

theorem Answered.run {later : GatewayPool} (reachable : Enduring cfg pool) (keyed : key ≠ "")
    (answered : Answered key body pool) (run : (gatewaySystem cfg).Run (Lasting cfg) pool later) :
    Enduring cfg later ∧ Answered key body later := by
  refine System.Run.invariant (P := fun pool => Enduring cfg pool ∧ Answered key body pool) ?_ run
    ⟨reachable, answered⟩
  rintro pool label pool' ⟨before, answered⟩ met stepped
  exact ⟨System.Reachable.head before stepped met,
    answered.step before keyed (System.step_effect stepped)⟩

theorem completed_lasts {later : GatewayPool} {record : IdempotencyRecord}
    (reachable : Enduring cfg pool) (run : (gatewaySystem cfg).Run (Lasting cfg) pool later)
    (inTable : record ∈ pool.store.db.records) (completed : record.status = .completed) :
    record ∈ later.store.db.records := by
  have both : Enduring cfg later ∧ record ∈ later.store.db.records := by
    refine System.Run.invariant (P := fun pool => Enduring cfg pool ∧
      record ∈ pool.store.db.records) ?_ run
      ⟨reachable, inTable⟩
    rintro pool label pool' ⟨before, inTable⟩ met stepped
    exact ⟨System.Reachable.head before stepped met,
      completed_stays before met (System.step_effect stepped) inTable completed⟩
  exact both.2

end Steps

/-- Once the auth service has answered a registration of the key with success, in every
state from then on no call of the key is about to contact it, a completed record stays as
it is, and a call of the key that has returned normally has returned the body of that
answer. -/
def RegistrationPermanent (cfg : Config) (cond : GatewayPool → Step cfg → Prop) : Prop :=
  ∀ (pool later : GatewayPool) (key : String) (body : Json), key ≠ "" →
    (gatewaySystem cfg).Reachable cond Cold pool → Answered key body pool →
    (gatewaySystem cfg).Run cond pool later →
    (∀ u uth c, later.thread? u = some uth → uth.request.key = key → uth.next? = some c →
      isContact c = false) ∧
    (∀ record ∈ pool.store.db.records, record.key = key → record.status = .completed →
      record ∈ later.store.db.records) ∧
    ∀ u uth reply, later.thread? u = some uth → uth.request.key = key →
      uth.result? = some (.ok reply) → reply = body

/-- A successful registration is permanent in every run that meets the condition. -/
theorem keyed_registration_permanent : RegistrationPermanent cfg (Lasting cfg) := by
  intro pool later key body keyed reachable answered run
  obtain ⟨reachable', answered'⟩ := answered.run reachable keyed run
  refine ⟨?_, ?_, ?_⟩
  · exact fun u uth c found sameKey next =>
      answered'.contactless reachable' keyed found sameKey next
  · exact fun record inTable _ completed => completed_lasts reachable run inTable completed
  · exact fun u uth reply found sameKey returned =>
      answered'.returns reachable' keyed found sameKey returned

section Sample

def created : HttpReply := { status := 201, data := ⟨.obj [("userId", .str aliceId)], nofun⟩ }

/-- A call claims the key and receives a successful reply. -/
def answeredSteps : List SampleStep :=
  .spawn (registration 0) :: moves 0 4 ++ [.run 0 { reply := created }]

/-- `markCompleted` is rejected, the `catch` clause marks the record failed, and a second
call retries it. -/
def retriedSteps : List SampleStep :=
  .run 0 { fault := some (.error none "connection lost") } :: moves 0 1 ++
    .spawn (registration 1) :: moves 1 4

/-- The record is completed, a second call at another instance reads it back, and a third
one there is served from the cache. -/
def completedSteps : List SampleStep :=
  moves 0 2 ++ .spawn (registration 1) :: moves 1 3 ++ .spawn (registration 1) :: moves 2 1

def isAnswered (pool : GatewayPool) : Bool :=
  (pool.thread? 0).any fun th => th.request.key = "k1" && succeeded? th.trace = some created.data

/-- The schedule `after` leads from the successful reply to a state that passes the test. -/
def answeredThen (cond : GatewayPool → SampleStep → Prop)
    [∀ pool label, Decidable (cond pool label)] (after : List SampleStep)
    (test : GatewayPool → Bool) : Bool :=
  ((gatewaySystem Config.default).replay cond (System.idle {}) answeredSteps).any fun pool =>
    isAnswered pool && ((gatewaySystem Config.default).replay cond pool after).any test

theorem answeredThen_spec {cond : GatewayPool → SampleStep → Prop}
    [∀ pool label, Decidable (cond pool label)] {after : List SampleStep}
    {test : GatewayPool → Bool} (tested : answeredThen cond after test = true) :
    ∃ pool later, (gatewaySystem Config.default).Reachable cond Cold pool ∧
    Answered "k1" created.data pool ∧
      (gatewaySystem Config.default).Run cond pool later ∧ test later = true := by
  obtain ⟨pool, replayed, both⟩ := (Option.any_eq_true ..).mp tested
  obtain ⟨answered, rest⟩ := (Bool.and_eq_true ..).mp both
  obtain ⟨later, replayed', passed⟩ := (Option.any_eq_true ..).mp rest
  obtain ⟨th, found, which⟩ := (Option.any_eq_true ..).mp answered
  obtain ⟨key, success⟩ := (Bool.and_eq_true ..).mp which
  exact ⟨pool, later, ⟨{}, fun _ _ => rfl, System.run_replay replayed⟩,
    ⟨0, th, found, of_decide_eq_true key, of_decide_eq_true success⟩,
    System.run_replay replayed', passed⟩

/-- A call of the key is about to contact the auth service. -/
def contacts (pool : GatewayPool) (t : Nat) : Bool :=
  (pool.thread? t).any fun th => th.request.key = "k1" && th.next?.any isContact

/-- A registration that has succeeded is sent to the auth service again. -/
theorem successful_registration_repeated : ¬ RegistrationPermanent Config.default System.Any := by
  intro claim
  have tested : answeredThen System.Any retriedSteps (contacts · 1) = true := by decide +kernel
  obtain ⟨pool, later, reachable, answered, run, about⟩ := answeredThen_spec tested
  obtain ⟨th, found, which⟩ := (Option.any_eq_true ..).mp about
  obtain ⟨key, contact⟩ := (Bool.and_eq_true ..).mp which
  obtain ⟨c, next, isContact⟩ := (Option.any_eq_true ..).mp contact
  have quiet :=
    (claim pool later "k1" _
      (by decide) reachable answered run).1 1 th c found (of_decide_eq_true key) next
  rw [quiet] at isContact
  contradiction

def returnsCreated (pool : GatewayPool) (t : Nat) : Bool :=
  (pool.thread? t).any fun th => th.request.key = "k1" && match th.result? with
    | some (.ok reply) => reply = created.data
    | _ => false

/-- In a run that meets the condition the registration lasts, from the table and from a
cache. -/
theorem keyed_registration_permanent_replayed : ∃ pool later,
    (gatewaySystem Config.default).Reachable (Lasting Config.default) Cold pool ∧
    (gatewaySystem Config.default).Run (Lasting Config.default) pool later ∧
    returnsCreated later 1 = true ∧ returnsCreated later 2 = true ∧
    ∀ u uth reply, later.thread? u = some uth → uth.request.key = "k1" →
    uth.result? = some (.ok reply) → reply = created.data := by
  have tested : answeredThen (Lasting Config.default) completedSteps
      (fun later => returnsCreated later 1 && returnsCreated later 2) = true := by decide +kernel
  obtain ⟨pool, later, reachable, answered, run, both⟩ := answeredThen_spec tested
  obtain ⟨readBack, cached⟩ := (Bool.and_eq_true ..).mp both
  exact ⟨pool, later, reachable, run, readBack, cached,
    (keyed_registration_permanent pool later "k1" _ (by decide) reachable answered run).2.2⟩

end Sample
end CorePlatform.Gateway
