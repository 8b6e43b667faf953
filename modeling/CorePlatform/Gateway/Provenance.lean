import CorePlatform.Async.Attribution
import CorePlatform.Common.Json
import CorePlatform.Gateway.Permanence

/-! Where a replayed reply comes from. A record keeps the hash of the request it was made for, and
is completed by a call with that hash; the cache of an instance has the key alone. -/
namespace CorePlatform.Gateway
open Async Relational
open IdempotencyService (computeRequestHash)

variable {cfg : Config}

def requestHash (cfg : Config) (q : RegisterRequest) : String :=
  computeRequestHash cfg q.idempotency.method q.idempotency.path q.idempotency.body

/-- The text that `computeRequestHash` hashes for the call. -/
def canonical (q : RegisterRequest) : String :=
  (Js.obj [("method", .str q.idempotency.method), ("path", .str q.idempotency.path),
    ("body", Js.ofString? q.idempotency.body.stringify)]).stringify.getD ""

theorem requestHash_canonical (q : RegisterRequest) :
    requestHash cfg q = cfg.sha256 (canonical q) := rfl

/-- The text that is hashed determines the path and the text of the body. -/
theorem canonical_injective {method path path' body body' : String}
    (same : (Js.obj [("method", .str method), ("path", .str path), ("body", .str body)]).stringify =
      (Js.obj [("method", .str method), ("path", .str path'), ("body", .str body')]).stringify) :
    path = path' ∧ body = body' := by
  obtain ⟨written, text⟩ : ∃ written, (Js.obj
      [("method", .str method), ("path", .str path), ("body", .str body)]).stringify =
      some written := ⟨_, rfl⟩
  have read := JSON.parse_stringify rfl text
  have read' := JSON.parse_stringify rfl (same.symm.trans text)
  have decoded := Option.some.inj (read.symm.trans read')
  simp only [JSON.decoded, JSON.decodedFields, JSON.decodedField, List.singleton_append,
    List.append_nil] at decoded
  injection decoded with fields
  injection fields with _ rest
  injection rest with first rest
  injection rest with second _
  injection first with _ paths
  injection second with _ bodies
  injection paths with paths
  injection bodies with bodies
  exact ⟨paths, bodies⟩

/-- The two are one request to the auth service. -/
structure LikeRequest (q q' : RegisterRequest) : Prop where
  path : q.idempotency.path = q'.idempotency.path
  body : (Js.obj q.registerDto).stringify = (Js.obj q'.registerDto).stringify

/-- Calls whose texts are the same have one path and one body. -/
theorem likeRequest_of_canonical {q q' : RegisterRequest} (texts : canonical q = canonical q') :
    LikeRequest q q' := by
  obtain ⟨body, written⟩ : ∃ body, (Js.obj q.registerDto).stringify = some body := ⟨_, rfl⟩
  obtain ⟨body', written'⟩ : ∃ body', (Js.obj q'.registerDto).stringify = some body' := ⟨_, rfl⟩
  simp only [canonical, RegisterRequest.idempotency, written, written', Js.ofString?] at texts
  have hashed : ∀ {fields : List (String × Js)},
      (Js.obj fields).stringify = some ((Js.obj fields).stringify.getD "") := rfl
  have same := hashed.trans ((congrArg some texts).trans hashed.symm)
  obtain ⟨paths, rfl⟩ := canonical_injective same
  exact ⟨paths, written.trans written'.symm⟩

/-- The texts of the two calls are a collision of the digest. -/
structure Collide (cfg : Config) (q q' : RegisterRequest) : Prop where
  texts : canonical q ≠ canonical q'
  digests : cfg.sha256 (canonical q) = cfg.sha256 (canonical q')

theorem likeRequest_or_collide {q q' : RegisterRequest}
    (same : requestHash cfg q = requestHash cfg q') : LikeRequest q q' ∨ Collide cfg q q' := by
  by_cases texts : canonical q = canonical q'
  · exact .inl (likeRequest_of_canonical texts)
  · exact .inr ⟨texts, by rwa [requestHash_canonical, requestHash_canonical] at same⟩

section Bodies

/-- The call has received the body with a status below 400. -/
def Received (trace : List Ev) (body : Json) : Prop := ∃ e ∈ trace, success? e = some body

/-- The cache has answered with the body. -/
def Hit (q : RegisterRequest) (trace : List Ev) (body : Json) : Prop :=
  ∃ gateway, (⟨.cacheGet gateway q.key, .ok body⟩ : Ev) ∈ trace ∧ body.val ≠ .null

/-- The body comes from a completed record for the request of the call. -/
def ReadFor (cfg : Config) (q : RegisterRequest) (trace : List Ev) (body : Json) : Prop :=
  ∃ record, Looked q trace record ∧ record.requestHash = requestHash cfg q ∧
    record.status = .completed ∧ record.responseBody = body

/-- Where a call may stand that writes a record or the cache. -/
def replyPoint (cfg : Config) (q : RegisterRequest) (trace : List Ev) : Cmd → Prop
  | .recordCreate key hash _ => key = q.key ∧ hash = requestHash cfg q
  | .recordUpdate id data =>
    match data.status with
    | .processing => ∃ record, Looked q trace record ∧ record.id.val = id ∧
        record.requestHash = requestHash cfg q
    | .completed => ∃ body, data.responseBody = some body ∧ Received trace body
    | .failed => True
  | .cacheSet _ key body _ => key = q.key ∧ (ReadFor cfg q trace body ∨ Received trace body)
  | _ => True

def replyEnd (cfg : Config) (q : RegisterRequest) (trace : List Ev) (r : Except Exn Json) : Prop :=
  ∀ body, r = .ok body → Hit q trace body ∨ ReadFor cfg q trace body ∨ Received trace body

/-- What `checkIdempotency` gives a call to answer with. -/
def checkEnd (cfg : Config) (q : RegisterRequest) (trace : List Ev)
    (r : Except Exn CheckResult) : Prop :=
  ∀ check body, r = .ok check → check.shouldExecute = false → check.cachedResponse = some body →
    Hit q trace body ∨ ReadFor cfg q trace body

variable {q : RegisterRequest} {trace : List Ev}

theorem checkEnd_error (e : Exn) : checkEnd cfg q trace (.error e) := by
  intro check body same
  cases same

theorem checkEnd_execute {recordId : String} :
    checkEnd cfg q trace (.ok { recordId, shouldExecute := true }) := by
  intro check body same executes
  cases same
  cases executes

theorem replyEnd_error (e : Exn) : replyEnd cfg q trace (.error e) := by
  intro body same
  cases same

theorem along_check_reply : Along (replyPoint cfg q) (checkEnd cfg q) []
    (IdempotencyService.checkIdempotency cfg q.gateway q.idempotency) := by
  have key : q.idempotency.key = q.key := rfl
  by_cases unkeyed : q.key = ""
  · simp only [IdempotencyService.checkIdempotency, key, unkeyed, if_true]
    exact checkEnd_execute
  simp only [IdempotencyService.checkIdempotency, key, unkeyed, if_false]
  refine along_command_bind trivial (fun e => checkEnd_error e) fun cachedResponse => ?_
  by_cases hit : cachedResponse.val = .null
  · simp only [hit, ne_eq, not_true_eq_false, if_false]
    refine along_command_bind trivial (fun e => checkEnd_error e) fun existingRecord => ?_
    cases existingRecord with
    | none =>
      refine along_command_bind trivial (fun e => checkEnd_error e) fun now => ?_
      exact along_command_bind ⟨rfl, rfl⟩ (fun e => checkEnd_error e) fun _ => checkEnd_execute
    | some record =>
      have looked : ∀ {trace}, Looked q
          (⟨.recordFindUnique q.key, .ok (some record)⟩ :: trace) record := List.mem_cons_self
      by_cases same : record.requestHash = requestHash cfg q
      · have same' := same
        rw [requestHash] at same'
        simp only [IdempotencyService.checkRecord, same', ne_eq, not_true_eq_false, if_false]
        cases status : record.status with
        | processing => exact checkEnd_error _
        | completed =>
          refine along_command_bind ⟨rfl, .inl ⟨record, looked, same, status, rfl⟩⟩
            (fun e => checkEnd_error e) fun _ => ?_
          rintro check body ⟨⟩ _ ⟨⟩
          exact .inr ⟨record, List.mem_cons_of_mem _ looked, same, status, rfl⟩
        | failed =>
          refine along_command_bind trivial (fun e => checkEnd_error e) fun now => ?_
          refine along_command_bind ⟨record, List.mem_cons_of_mem _ looked, rfl, same⟩
            (fun e => checkEnd_error e) fun _ => checkEnd_execute
      · rw [requestHash] at same
        simp only [IdempotencyService.checkRecord, same, ne_eq, not_false_eq_true, if_true]
        exact checkEnd_error _
  · simp only [hit, ne_eq, not_false_eq_true, if_true]
    rintro check body ⟨⟩ _ ⟨⟩
    exact .inl ⟨q.gateway, List.mem_cons_self, hit⟩

theorem along_rejected_reply (recordId : String) (err : Exn) :
    Along (replyPoint cfg q) (replyEnd cfg q) trace (AuthClientService.rejected recordId err) := by
  by_cases none : recordId = ""
  · simp only [AuthClientService.rejected, IdempotencyService.markFailed, none, if_true]
    exact replyEnd_error _
  · simp only [AuthClientService.rejected, IdempotencyService.markFailed, none, if_false]
    exact along_mark trivial (fun e => replyEnd_error e) fun _ => replyEnd_error _

theorem along_execute_reply (recordId : String) :
    Along (replyPoint cfg q) (replyEnd cfg q) trace
      (tryCatch (AuthClientService.execute q recordId) (AuthClientService.rejected recordId)) := by
  refine along_catch.mpr (along_command_bind trivial (fun e => along_rejected_reply _ e) ?_)
  intro reply
  by_cases failed : reply.status ≥ 400
  · simp only [failed, if_true]
    by_cases none : recordId = ""
    · simp only [IdempotencyService.markFailed, none, if_true]
      exact along_rejected_reply _ _
    · simp only [IdempotencyService.markFailed, none, if_false]
      exact along_mark trivial (fun e => along_rejected_reply _ e) fun _ => along_rejected_reply _ _
  · simp only [failed, if_false]
    have received : ∀ {later}, Received
        (later ++ ⟨.httpRegister q.registerDto, .ok reply⟩ :: trace) reply.data := by
      intro later
      refine ⟨_, List.mem_append_right _ List.mem_cons_self, ?_⟩
      simp only [success?, Nat.not_le.mp failed, if_true]
    by_cases none : recordId = ""
    · simp only [none, ne_eq, not_true_eq_false, if_false]
      rintro body ⟨⟩
      exact .inr (.inr (@received []))
    · simp only [none, ne_eq, not_false_eq_true, if_true, IdempotencyService.markCompleted,
        if_false]
      refine along_mark ⟨_, rfl, @received []⟩ (fun e => along_rejected_reply _ e) ?_
      intro record
      have stored := @received [⟨.recordUpdate recordId
        { status := .completed, responseStatus := some reply.status
          responseBody := some reply.data }, .ok record⟩]
      by_cases unkeyed : q.key = ""
      · simp only [IdempotencyService.cacheResponse, unkeyed, if_true]
        rintro body ⟨⟩
        exact .inr (.inr stored)
      · simp only [IdempotencyService.cacheResponse, unkeyed, if_false]
        refine along_command_bind ⟨rfl, .inr stored⟩ (fun e => along_rejected_reply _ e) fun _ => ?_
        rintro body ⟨⟩
        obtain ⟨e, found, success⟩ := stored
        exact .inr (.inr ⟨e, List.mem_cons_of_mem _ found, success⟩)

theorem along_reply (q : RegisterRequest) :
    Along (replyPoint cfg q) (replyEnd cfg q) [] ((gatewaySystem cfg).body q) := by
  refine along_bind.mpr (along_catch.mpr (along_check_reply.mono (fun _ _ point => point) ?_))
  intro trace r checked
  cases r with
  | error e => exact replyEnd_error _
  | ok check =>
    obtain ⟨recordId, shouldExecute, cachedResponse⟩ := check
    cases shouldExecute with
    | true => exact along_execute_reply recordId
    | false =>
      cases cachedResponse with
      | none => exact along_execute_reply recordId
      | some body =>
        rintro _ ⟨⟩
        exact (checked _ body rfl rfl rfl).imp id .inl

end Bodies

section Runs

variable {pool : GatewayPool} {t : Nat} {th : GatewayThread}
  {cond : GatewayPool → Step cfg → Prop} {init : Store → Prop}

/-- A record is there, made for requests of the key and the hash. -/
def KeptFor (id key hash : String) (s : Store) : Prop :=
  ∃ record ∈ s.db.records, record.id.val = id ∧ record.key = key ∧ record.requestHash = hash

theorem KeptFor.exec {id key hash : String} {c : Cmd} {choice : Choice} {r : Except Exn c.Resp}
    {s s' : Store} (kept : KeptFor id key hash s) (executed : exec c choice s = some (r, s')) :
    KeptFor id key hash s' := by
  obtain ⟨record, stored, rfl, rfl, rfl⟩ := kept
  cases wrote_of_exec executed with
  | nothing same =>
    rw [KeptFor, same]
    exact ⟨record, stored, rfl, rfl, rfl⟩
  | created new _ _ added => exact ⟨record, (added record).mpr (.inr stored), rfl, rfl, rfl⟩
  | updated data old _ written =>
    rw [KeptFor, written]
    refine ⟨_, Db.mem_update.mpr ⟨record, stored, rfl⟩, ?_⟩
    split
    · exact ⟨rfl, rfl, rfl⟩
    · exact ⟨rfl, rfl, rfl⟩

theorem KeptFor.act {id key hash : String} {a : EnvAct} {s s' : Store}
    (kept : KeptFor id key hash s) (acted : act a s = some s') : KeptFor id key hash s' := by
  rw [KeptFor, act_db acted]
  exact kept

theorem looked_spec {key : String} {record : IdempotencyRecord} {choice : Choice} {s s' : Store}
    (executed : exec (.recordFindUnique key) choice s = some (.ok (some record), s')) :
    record ∈ s.db.records ∧ record.key = key ∧ s' = s := by
  have answered := fault_none executed
  simp only [exec, answered, execTotal, Option.some.injEq, Prod.mk.injEq,
    Except.ok.injEq] at executed
  obtain ⟨searched, rfl⟩ := executed
  obtain ⟨stored, keyed⟩ := Db.findUnique_spec searched
  exact ⟨stored, keyed, rfl⟩

theorem keptFor_of_looked {record : IdempotencyRecord}
    (reachable : (gatewaySystem cfg).Reachable cond init pool) (found : pool.thread? t = some th)
    (looked : Looked th.request th.trace record) :
    KeptFor record.id th.request.key record.requestHash pool.store := by
  refine reachable.seen (P := fun q s e => ∀ record,
    e = (⟨.recordFindUnique q.key, .ok (some record)⟩ : Ev) →
    KeptFor record.id q.key record.requestHash s) found looked ?_ ?_ ?_ record rfl
  · rintro pool t choice th c r s found next met executed record ⟨⟩
    obtain ⟨stored, keyed, rfl⟩ := looked_spec executed
    exact ⟨record, stored, rfl, keyed, rfl⟩
  · exact fun q e c choice s r s' executed kept record same => (kept record same).exec executed
  · exact fun q e a s s' acted kept record same => (kept record same).act acted

/-- The record that a call claims was made for requests like its own. -/
theorem keptFor_of_claimed {e : Ev} {id : String}
    (reachable : (gatewaySystem cfg).Reachable cond init pool) (found : pool.thread? t = some th)
    (executed : e ∈ th.trace) (claims : claims? e = some id) :
    KeptFor id th.request.key (requestHash cfg th.request) pool.store := by
  refine reachable.witnessed (P := fun q s e => ∀ id, claims? e = some id →
    KeptFor id q.key (requestHash cfg q) s) found executed ?_ ?_ id claims
  · intro pool t choice th c r s before found next met executed id claims
    have standing := before.point along_reply found next
    cases wrote_of_exec executed with
    | nothing same claimless markless =>
      rw [claimless] at claims
      contradiction
    | created record started fresh added =>
      cases Option.some.inj claims
      exact ⟨record, (added record).mpr (.inl rfl), rfl, standing.1, standing.2⟩
    | updated data record inTable written =>
      simp only [claims?, RecordUpdate.apply_id] at claims
      split at claims
      · rename_i claim
        cases Option.some.inj claims
        simp only [replyPoint, claim] at standing
        obtain ⟨read, looked, same, hash⟩ := standing
        rw [← same, ← hash]
        exact (keptFor_of_looked before found looked).exec executed
      · contradiction
  · intro pool label pool' q e before met effect kept id claims
    have earlier := kept id claims
    cases effect with
    | spawn q => exact earlier
    | run t choice th c k r s found awaits executed => exact earlier.exec executed
    | act a s acted => exact earlier.act acted

/-- The replies that the table has, with key and hash. -/
def completedFacts (s : Store) : Set (String × String × Json) :=
  {f | ∃ record ∈ s.db.records, record.status = .completed ∧
    (record.key, record.requestHash, record.responseBody) = f}

/-- The call has received the reply, to a request of the key and the hash. -/
def provides (cfg : Config) (q : RegisterRequest) (trace : List Ev)
    (f : String × String × Json) : Prop :=
  q.key = f.1 ∧ requestHash cfg q = f.2.1 ∧ Received trace f.2.2

theorem provides_longer (q : RegisterRequest) (trace : List Ev) (e : Ev)
    (f : String × String × Json) (provided : provides cfg q trace f) :
    provides cfg q (e :: trace) f := by
  obtain ⟨key, hash, received, member, success⟩ := provided
  exact ⟨key, hash, received, List.mem_cons_of_mem e member, success⟩

/-- A completed record has the reply that a call for it has received. A late `markFailed` may take
it away again. -/
theorem completed_attributed (cfg : Config) (init : Store → Prop) :
    (gatewaySystem cfg).Attributes System.Any init completedFacts (provides cfg)
      fun _ _ _ => True where
  made_longer := provides_longer
  taken_longer _ _ _ _ taken := taken
  acts a s s' acted := by rw [completedFacts, act_db acted, completedFacts]
  loses _ _ _ _ _ _ _ _ _ _ _ _ _ _ := .inr trivial
  gains pool t choice th c r s reachable found next _ executed := by
    rintro _ ⟨record, stored, completed, rfl⟩
    cases wrote_of_exec executed with
    | nothing same => exact .inl ⟨record, same ▸ stored, completed, rfl⟩
    | created new started _ added =>
      obtain rfl | old := (added record).mp stored
      · rw [started] at completed
        contradiction
      · exact .inl ⟨record, old, completed, rfl⟩
    | updated data old inTable written =>
      rw [written] at stored
      obtain ⟨row, there, rfl⟩ := Db.mem_update.mp stored
      by_cases same : row.id.val = old.id.val
      · obtain rfl : row = old := Table.eq_of_key there inTable (Subtype.ext same)
        rw [if_pos rfl] at completed ⊢
        obtain ⟨unkeyed, point⟩ := reachable.point along_register found next
        have keyed : th.request.key ≠ "" :=
          fun empty => absurd (unkeyed empty) Bool.false_ne_true
        have holds := point keyed
        have standing := reachable.point along_reply found next
        rw [RecordUpdate.apply_status] at completed
        simp only [keyedPoint, replyPoint, completed] at holds standing
        obtain ⟨claim, inTrace, claims⟩ := claimed_of_held holds.1
        obtain ⟨kept, keptIn, identity, key, hash⟩ :=
          keptFor_of_claimed reachable found inTrace claims
        obtain rfl : kept = row := Table.eq_of_key keptIn there (Subtype.ext identity)
        obtain ⟨body, given, received⟩ := standing
        refine .inr (provides_longer _ _ _ _ ⟨key.symm, hash.symm, ?_⟩)
        rw [RecordUpdate.apply, given, Option.getD_some]
        exact received
      · rw [if_neg same] at completed ⊢
        exact .inl ⟨row, there, completed, rfl⟩

/-- No registration is completed, and the instances have just started. -/
def Unanswered (s : Store) : Prop :=
  (∀ record ∈ s.db.records, record.status ≠ .completed) ∧ Cold s

/-- The same for a call of the key, whatever it was asked. -/
def providesKey (cfg : Config) (q : RegisterRequest) (trace : List Ev) (f : String × Json) : Prop :=
  ∃ hash, provides cfg q trace (f.1, hash, f.2)

theorem providesKey_longer (q : RegisterRequest) (trace : List Ev) (e : Ev) (f : String × Json)
    (provided : providesKey cfg q trace f) : providesKey cfg q (e :: trace) f := by
  obtain ⟨hash, provided⟩ := provided
  exact ⟨hash, provides_longer _ _ _ _ provided⟩

/-- The command has read a completed record. -/
def readsCompleted (e : Ev) (f : String × String × Json) : Prop :=
  ∃ record, e = ⟨.recordFindUnique f.1, .ok (some record)⟩ ∧ record.status = .completed ∧
    (record.requestHash, record.responseBody) = f.2

/-- The cache has answered the command. -/
def readsCache (e : Ev) (f : String × Json) : Prop :=
  ∃ gateway, e = ⟨.cacheGet gateway f.1, .ok f.2⟩ ∧ f.2.val ≠ .null

section Started

variable (reachable : (gatewaySystem cfg).Reachable System.Any Unanswered pool)
include reachable

theorem read_provided (found : pool.thread? t = some th) {body : Json}
    (read : ReadFor cfg th.request th.trace body) :
    (th.request.key, requestHash cfg th.request, body) ∈ pool.byCalls (provides cfg) := by
  obtain ⟨record, looked, hash, completed, rfl⟩ := read
  have none : ∀ s, Unanswered s → completedFacts s = ∅ := by
    intro s unanswered
    refine Set.eq_empty_of_forall_notMem ?_
    rintro f ⟨record, stored, completed, _⟩
    exact unanswered.1 record stored completed
  have reads : readsCompleted ⟨.recordFindUnique th.request.key, .ok (some record)⟩
      (th.request.key, record.requestHash, record.responseBody) := ⟨record, rfl, completed, rfl⟩
  have shown : (th.request.key, record.requestHash, record.responseBody) ∈
      System.Accounted ∅ (provides cfg) pool := by
    refine (completed_attributed cfg Unanswered).shown none ?_ reachable
      (Pool.thread?_mem found) looked reads
    rintro pool t choice th c r s ⟨key, hash, body⟩ _ _ _ executed ⟨record, ⟨⟩, completed, ⟨⟩⟩
    obtain ⟨stored, keyed, _⟩ := looked_spec executed
    exact ⟨record, stored, completed, by rw [keyed]⟩
  rwa [System.Accounted, Set.empty_union, hash] at shown

/-- What the cache of an instance has, a call of the key has received. -/
theorem cached_provided {gateway : Nat} {key : String} {entry : CacheEntry}
    (cached : pool.store.caches gateway key = some entry) :
    (key, entry.response) ∈ pool.byCalls (providesKey cfg) := by
  suffices all : ∀ gateway key entry, pool.store.caches gateway key = some entry →
      (key, entry.response) ∈ pool.byCalls (providesKey cfg) from all gateway key entry cached
  refine reachable.invariant (P := fun pool => ∀ gateway key entry,
    pool.store.caches gateway key = some entry →
    (key, entry.response) ∈ pool.byCalls (providesKey cfg)) ?_ ?_
  · intro s unanswered gateway key entry cached
    have absent := (unanswered.2 gateway key).symm.trans cached
    contradiction
  · intro pool label pool' before _ earlier _ effect gateway key entry cached
    have grows := effect.byCalls_grows (@providesKey_longer cfg)
    cases effect with
    | spawn q => exact grows (earlier gateway key entry cached)
    | act a s acted =>
      apply earlier gateway key entry
      cases a with
      | tick ms =>
        cases Option.some.inj acted
        exact cached
      | restart other =>
        cases Option.some.inj acted
        simp only [Store.caches_setGatewayCache, Function.update_apply] at cached
        split at cached
        · contradiction
        · exact cached
    | run t choice th c k r s found awaits executed =>
      have next : th.next? = some c := by rw [Thread.next?, awaits]
      rcases cached_of_exec executed cached with old | ⟨ttlMs, rfl⟩
      · exact grows (earlier gateway key entry old)
      · obtain ⟨rfl, read | received⟩ := before.point along_reply found next
        · obtain ⟨uth, member, provided⟩ := read_provided before found read
          exact grows ⟨uth, member, _, provided⟩
        · exact grows ⟨th, Pool.thread?_mem found, _, rfl, rfl, received⟩

theorem hit_provided (found : pool.thread? t = some th) {body : Json}
    (hit : Hit th.request th.trace body) :
    (th.request.key, body) ∈ pool.byCalls (providesKey cfg) := by
  obtain ⟨gateway, executed, value⟩ := hit
  have reads : readsCache ⟨.cacheGet gateway th.request.key, .ok body⟩ (th.request.key, body) :=
    ⟨gateway, rfl, value⟩
  have accounted : (th.request.key, body) ∈ System.Accounted ∅ (providesKey cfg) pool := by
    refine reachable.accounted_since providesKey_longer ?_ (Pool.thread?_mem found) executed reads
    rintro pool t choice th c r s ⟨key, body⟩ before _ _ executed ⟨gateway, ⟨⟩, value⟩
    have answered := fault_none executed
    simp only [exec, answered, execTotal, Option.some.injEq, Prod.mk.injEq,
      Except.ok.injEq] at executed
    obtain ⟨got, rfl⟩ := executed
    simp only [getFromCache] at got
    split at got
    · subst got
      contradiction
    · rename_i entry cached
      split at got
      · subst got
        contradiction
      · subst got
        exact .inr (cached_provided before cached)
  rwa [System.Accounted, Set.empty_union] at accounted

/-- Whatever a registration is answered with, the auth service gave to a registration of the key.
Where the cache of the instance has not answered, that was one of the same request, unless the two
calls themselves are a collision of the digest. -/
theorem replies_provided (found : pool.thread? t = some th) {body : Json}
    (returned : th.result? = some (.ok body)) :
    ∃ uth ∈ pool.threads, uth.request.key = th.request.key ∧ Received uth.trace body ∧
      (Hit th.request th.trace body ∨ LikeRequest uth.request th.request ∨
        Collide cfg uth.request th.request) := by
  have member := Pool.thread?_mem found
  rcases reachable.returned along_reply found returned body rfl with hit | read | received
  · obtain ⟨uth, provider, _, key, _, received⟩ := hit_provided reachable found hit
    exact ⟨uth, provider, key, received, .inl hit⟩
  · obtain ⟨uth, provider, key, hash, received⟩ := read_provided reachable found read
    exact ⟨uth, provider, key, received, .inr (likeRequest_or_collide hash)⟩
  · exact ⟨th, member, rfl, received, .inr (.inl ⟨rfl, rfl⟩)⟩

end Started

/-- A registration, and the same one again at another instance. -/
def repeatedSteps : List SampleStep :=
  .spawn (registration 0) :: moves 0 7 ++ .spawn (registration 1) :: moves 1 3

def answeredWith (pool : GatewayPool) (u : Nat) : Option Json :=
  match pool.thread? u with
  | some ⟨_, _, .done (.ok body)⟩ => some body
  | _ => none

theorem replies_provided_repeated : ∃ pool th body,
    (gatewaySystem Config.default).Reachable System.Any Unanswered pool ∧
    pool.thread? 1 = some th ∧ th.result? = some (.ok body) ∧
    ∃ uth ∈ pool.threads, uth.request.key = th.request.key ∧ Received uth.trace body ∧
      (Hit th.request th.trace body ∨ LikeRequest uth.request th.request ∨
        Collide Config.default uth.request th.request) := by
  have replayed : ((gatewaySystem Config.default).replay System.Any (System.idle {})
      repeatedSteps).any (fun pool => (answeredWith pool 1).isSome) = true := by decide +kernel
  obtain ⟨pool, run, tested⟩ := System.run_of_replay replayed
  have start : Unanswered {} :=
    ⟨fun record stored => absurd stored List.not_mem_nil, fun _ _ => rfl⟩
  have reachable : (gatewaySystem Config.default).Reachable System.Any Unanswered pool :=
    ⟨{}, start, run⟩
  unfold answeredWith at tested
  split at tested
  · rename_i request trace body found
    exact ⟨pool, _, body, reachable, found, rfl, replies_provided reachable found rfl⟩
  · contradiction

end Runs

end CorePlatform.Gateway
