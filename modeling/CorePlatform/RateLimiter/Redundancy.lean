import CorePlatform.RateLimiter.Guard
import CorePlatform.RateLimiter.Safety

/-! Whether the limiter of auth-service is redundant behind the gateway's. A key of
auth-service belongs to one rule, so that its counter is a fixed-window limiter on the checks
that auth-service makes. All clients of a gateway share the keys of the address rules. -/
namespace CorePlatform.RateLimiter
open Async Limiting RateLimiterGuard

/-- The limiter lets the request of the check pass. -/
def allows : Ev → Bool
  | ⟨.check .., .ok result⟩ => result.allowed
  | ⟨.check .., .error _⟩ => false

def Cmd.key : Cmd → String
  | .check key .. => key

section Keys

/-- A key that auth-service counts under. -/
def AuthKey (key : String) : Prop :=
  ∃ route, ∃ rule ∈ AuthController.rules route, ∃ i, key = ruleKey rule i

def routes : List Route := [.login, .register, .resendCode, .refresh]

theorem mem_routes (route : Route) : route ∈ routes := by cases route <;> decide

/-- One of the prefixes, with the separator, begins with the other. -/
def Overlap (rule rule' : RateLimitRule) : Prop :=
  (rule.pfx ++ ":").toList <+: (rule'.pfx ++ ":").toList ∨ (rule'.pfx ++ ":").toList <+:
    (rule.pfx ++ ":").toList

instance (rule rule' : RateLimitRule) : Decidable (Overlap rule rule') :=
  inferInstanceAs (Decidable (_ ∨ _))

theorem prefixes_apart : ∀ route ∈ routes, ∀ rule ∈ AuthController.rules route, ∀ route' ∈ routes,
    (∀ rule' ∈ AuthController.rules route', Overlap rule rule' → rule.limit = rule'.limit ∧
      rule.window = rule'.window) ∧
      ∀ rule' ∈ AuthClientController.rules route', ¬ Overlap rule rule' := by
  decide +kernel

variable {rule rule' : RateLimitRule} {route route' : Route} {i i' : String}

theorem overlap_of_key (same : ruleKey rule i = ruleKey rule' i') : Overlap rule rule' := by
  have whole : (rule.pfx ++ ":").toList ++ i.toList = (rule'.pfx ++ ":").toList ++ i'.toList := by
    simpa only [ruleKey, String.toList_append] using congrArg String.toList same
  exact List.prefix_or_prefix_of_prefix ⟨i.toList, rfl⟩ ⟨i'.toList, whole.symm⟩

theorem authKey_rule (ruled : rule ∈ AuthController.rules route)
    (ruled' : rule' ∈ AuthController.rules route') (same : ruleKey rule i = ruleKey rule' i') :
    rule.limit = rule'.limit ∧ rule.window = rule'.window :=
  (prefixes_apart route (mem_routes route) rule ruled route' (mem_routes route')).1 rule' ruled'
    (overlap_of_key same)

theorem gateway_key (ruled : rule ∈ AuthClientController.rules route) :
    ¬ AuthKey (ruleKey rule i) := by
  rintro ⟨route', rule', ruled', i', same⟩
  exact (prefixes_apart route' (mem_routes route') rule' ruled' route
    (mem_routes route)).2 rule ruled
    (overlap_of_key same.symm)

/-- Every rule of auth-service admits something and has a window of whole milliseconds. -/
theorem rules_positive : ∀ route ∈ routes, ∀ rule ∈ AuthController.rules route, 1 ≤ rule.limit ∧
    1 ≤ rule.window * 1000 ∧
      Redis.integer? (RateLimiterService.windowMs (.finite rule.window)) =
        some ((rule.window * 1000 : Nat) : Int) := by
  decide +kernel

end Keys

section Bodies

variable {hashing : Hashing} {q : ClientRequest} {trace : List Ev}

/-- Auth-service has denied a check of the call. -/
def Denied (trace : List Ev) : Prop := ∃ e ∈ trace, AuthKey e.cmd.key ∧ allows e = false

/-- A call goes on as long as auth-service has denied nothing, and each of its checks is one
of a rule. -/
def Point (trace : List Ev) (c : Cmd) : Prop :=
  ¬ Denied trace ∧ ∃ route rule i, (rule ∈ AuthClientController.rules route ∨
    rule ∈ AuthController.rules route) ∧ c = .check (ruleKey rule i) rule.limit rule.window

/-- The answer is auth-service's refusal exactly if it has denied a check. -/
def Answered (trace : List Ev) (r : Except Refusal Answer) : Prop :=
  (∃ refusal, r = .ok (.refusedByAuthService refusal)) ↔ Denied trace

theorem denied_cons {e : Ev} (clean : ¬ Denied trace) : Denied (e :: trace) ↔
    AuthKey e.cmd.key ∧ allows e = false := by
  constructor
  · rintro ⟨e', found, denial⟩
    obtain rfl | earlier := List.mem_cons.mp found
    · exact denial
    · exact absurd ⟨e', earlier, denial⟩ clean
  · exact fun denial => ⟨e, List.mem_cons_self, denial⟩

/-- The first check that is denied ends the loop over the rules. -/
theorem along_checkRules {req : HttpRequest} {route : Route} {rules : List RateLimitRule}
    {R : List Ev → Except Refusal (Option RateLimitHeaders) → Prop}
    (mostRestrictive : Option (RateLimitRule × RateLimitResult))
    (ruled : ∀ rule ∈ rules, rule ∈ AuthClientController.rules route ∨
      rule ∈ AuthController.rules route)
    (refused : ∀ rule ∈ rules, ∀ i trace e refusal, e.cmd.key = ruleKey rule i →
      allows e = false → ¬ Denied trace → R (e :: trace) (.error refusal))
    (passed : ∀ trace headers, ¬ Denied trace → R trace (.ok headers)) (clean : ¬ Denied trace) :
    Along (fun trace c => Point trace c) R trace
      (checkRules hashing req rules mostRestrictive) := by
  induction rules generalizing mostRestrictive trace with
  | nil => exact passed trace _ clean
  | cons rule rest ih =>
    have next : ∀ most trace, ¬ Denied trace →
        Along (fun trace c => Point trace c) R trace (checkRules hashing req rest most) :=
          fun most trace clean =>
      ih most (fun rule found => ruled rule (List.mem_cons_of_mem _ found))
        (fun rule found => refused rule (List.mem_cons_of_mem _ found)) clean
    have denial := refused rule List.mem_cons_self (identifier hashing req rule.keySource)
    apply along_command_bind
    · exact ⟨clean, route, rule, identifier hashing req rule.keySource,
        ruled rule List.mem_cons_self, rfl⟩
    · intro refusal
      exact denial trace _ refusal rfl rfl clean
    · intro result
      by_cases allowed : result.allowed = true
      · rw [if_pos allowed]
        apply next
        rw [denied_cons clean]
        rintro ⟨-, notAllowed⟩
        exact absurd (allowed.symm.trans notAllowed) (by decide)
      · rw [if_neg allowed]
        exact denial trace _ _ rfl (Bool.eq_false_iff.mpr allowed) clean

theorem along_attempt {α : Type} {p : Action α} {P : List Ev → Cmd → Prop}
    {R : List Ev → Except Refusal (Except Refusal α) → Prop}
    (along : Along P (fun trace r => R trace (.ok r)) trace p) : Along P R trace (attempt p) := by
  refine along_catch.mpr
    (along_bind.mpr (along.mono (fun _ _ point => point) fun trace r holds => ?_))
  cases r with
  | error refusal => exact holds
  | ok a => exact holds

theorem along_body (q : ClientRequest) : Along (fun trace c => Point trace c) Answered []
    (body hashing q) := by
  have start : ¬ Denied [] := by
    rintro ⟨e, found, -⟩
    exact absurd found List.not_mem_nil
  have other : ∀ {trace : List Ev} {answer : Answer}, ¬ Denied trace →
      (∀ refusal, answer ≠ .refusedByAuthService refusal) →
      Answered trace (.ok answer) := by
    intro trace answer clean different
    refine iff_of_false ?_ clean
    rintro ⟨refusal, same⟩
    exact different refusal (Except.ok.inj same)
  refine along_bind.mpr
    (along_attempt (along_checkRules none (fun rule found => .inl found) ?_ ?_ start))
  · intro rule ruled i trace e refusal checked _ clean
    refine other ?_ (fun _ same => nomatch same)
    rw [denied_cons clean, checked]
    exact fun denial => gateway_key ruled denial.1
  · intro trace headers clean
    show Along _ _ trace (if q.contacts then _ else _)
    by_cases contacts : q.contacts = true
    · rw [if_pos contacts]
      refine along_bind.mpr
        (along_attempt (along_checkRules none (fun rule found => .inr found) ?_ ?_ clean))
      · intro rule ruled i trace e refusal checked denied clean
        refine iff_of_true ⟨refusal, rfl⟩ ((denied_cons clean).mpr ⟨?_, denied⟩)
        exact ⟨q.route, rule, ruled, i, checked⟩
      · exact fun trace headers clean => other clean fun _ same => nomatch same
    · rw [if_neg contacts]
      exact other clean fun _ same => nomatch same

end Bodies
section Runs

variable {hashing : Hashing}

abbrev Start (s : Store) : Prop := (∀ key, s.redis key = none) ∧ s.checks = []

abbrev Reachable (hashing : Hashing) (pool : LimitedPool) : Prop :=
  (limitedSystem hashing).Reachable System.Any Start pool

/-- A check on the key was denied, in some call of the pool. -/
def DeniedOn (key : String) (pool : LimitedPool) : Prop :=
  ∃ t th, pool.thread? t = some th ∧ ∃ e ∈ th.trace, e.cmd.key = key ∧ allows e = false

theorem checksOn_cons {s : Store} {redis : Redis} {key key' : String} :
    ({ s with redis, checks := (key', s.now) :: s.checks } : Store).checksOn key =
      if key' = key then s.now :: s.checksOn key else s.checksOn key := by
  simp only [Store.checksOn, List.filter_cons, decide_eq_true_eq]
  split <;> rfl

/-- What is denied after a call has executed a check was denied before it, or by its check. -/
theorem deniedOn_run {pool : LimitedPool} {t : Nat} {th : LimitedThread} {e : Ev} {s : Store}
    {rest : Action Answer} {key : String} (found : pool.thread? t = some th) :
    DeniedOn key (({ pool with store := s } : LimitedPool).set t ⟨th.request,
      e :: th.trace, rest⟩) ↔ (e.cmd.key = key ∧ allows e = false) ∨ DeniedOn key pool := by
  constructor
  · rintro ⟨u, uth, uFound, e', executed, denied⟩
    obtain ⟨rfl, rfl⟩ | ⟨-, uFound⟩ := Pool.set_cases uFound
    · obtain rfl | earlier := List.mem_cons.mp executed
      · exact .inl denied
      · exact .inr ⟨u, th, found, e', earlier, denied⟩
    · exact .inr ⟨u, uth, uFound, e', executed, denied⟩
  · have self : (({ pool with store := s } : LimitedPool).set t ⟨th.request, e :: th.trace,
        rest⟩).thread? t = _ := Pool.set_self _ found
    rintro (denied | ⟨u, uth, uFound, e', executed, denied⟩)
    · exact ⟨t, _, self, e, List.mem_cons_self, denied⟩
    · by_cases same : u = t
      · subst same
        cases Option.some.inj (found.symm.trans uFound)
        exact ⟨u, _, self, e', List.mem_cons_of_mem e executed, denied⟩
      · exact ⟨u, uth, (Pool.set_other _ _ same).trans uFound, e', executed, denied⟩

/-- The counter of a key under a rule, next to the times of its checks. -/
structure Counts (rule : RateLimitRule) (key : String) (pool : LimitedPool) : Prop where
  ordered : (pool.store.now :: pool.store.checksOn key).Pairwise (· ≥ ·)
  denied : DeniedOn key pool ↔ ¬ Uncrowded rule.limit (rule.window * 1000) (pool.store.checksOn key)
  counter : Uncrowded rule.limit (rule.window * 1000) (pool.store.checksOn key) →
    pool.store.redis (RateLimiterService.fullKey {} key) =
      (windowOf (rule.window * 1000) (pool.store.checksOn key)).map RateLimiterService.counterOf

variable {rule : RateLimitRule} {key : String} {pool : LimitedPool} {t : Nat} {th : LimitedThread}
  {rest : Action Answer}

/-- A check on the key itself. -/
theorem Counts.own (counts : Counts rule key pool) (positive : 1 ≤ rule.limit)
    (lasting : 1 ≤ rule.window * 1000)
    (whole : Redis.integer? (RateLimiterService.windowMs (.finite rule.window)) =
      some ((rule.window * 1000 : Nat) : Int)) (found : pool.thread? t = some th)
    {result : RateLimitResult} {redis : Redis}
    (checked : RateLimiterService.check {} true key rule.limit
      (.finite rule.window) pool.store.now pool.store.redis = (result, redis)) :
    Counts rule key
      (({ pool with store := { pool.store with
        redis, checks := (key, pool.store.now) :: pool.store.checks } } :
        LimitedPool).set t ⟨th.request, ⟨.check key rule.limit rule.window, .ok result⟩ ::
        th.trace, rest⟩) := by
  obtain ⟨ordered, denied, counter⟩ := counts
  have judged : Uncrowded rule.limit (rule.window * 1000) (pool.store.checksOn key) →
      (result.allowed = true ↔ Uncrowded rule.limit (rule.window * 1000) (pool.store.now ::
        pool.store.checksOn key)) ∧
      (Uncrowded rule.limit (rule.window * 1000) (pool.store.now :: pool.store.checksOn key) →
        redis (RateLimiterService.fullKey {} key) = (windowOf (rule.window * 1000)
          (pool.store.now :: pool.store.checksOn key)).map RateLimiterService.counterOf) := by
    intro uncrowded
    have both : (RateLimiterService.check {} true key rule.limit (.finite rule.window)
        pool.store.now
        _).1.allowed = _ ∧ _ :=
      RateLimiterService.check_judges positive whole lasting (counter uncrowded) fun c last =>
        windowOf_positive lasting (List.pairwise_cons.mp ordered).2 last
    rw [checked, judge_windowOf positive lasting ordered uncrowded] at both
    by_cases fits : Uncrowded rule.limit (rule.window * 1000)
      (pool.store.now :: pool.store.checksOn key)
    · rw [if_pos fits] at both
      exact ⟨iff_of_true both.1 fits, fun _ => both.2⟩
    · rw [if_neg fits] at both
      exact ⟨iff_of_false (Bool.eq_false_iff.mp both.1) fits,
        fun uncrowded => absurd uncrowded fits⟩
  constructor
  all_goals
    rw [Pool.set_store, checksOn_cons, if_pos rfl]
  · exact List.pairwise_cons.mpr
      ⟨List.forall_mem_cons.mpr ⟨Nat.le_refl _, (List.pairwise_cons.mp ordered).1⟩, ordered⟩
  · rw [deniedOn_run found, denied]
    by_cases uncrowded : Uncrowded rule.limit (rule.window * 1000) (pool.store.checksOn key)
    · rw [← (judged uncrowded).1, or_iff_left (not_not_intro uncrowded), Bool.not_eq_true]
      exact and_iff_right rfl
    · refine iff_of_true (.inr uncrowded) fun fits => uncrowded ?_
      exact ((uncrowded_cons lasting ordered).mp fits).1
  · intro fits
    exact (judged ((uncrowded_cons lasting ordered).mp fits).1).2 fits

/-- A check on another key. -/
theorem Counts.other (counts : Counts rule key pool)
    (found : pool.thread? t = some th) {other : String} (different : other ≠ key)
    {limit window : Nat} {result : RateLimitResult} {redis : Redis}
    (checked : RateLimiterService.check {} true other limit
      (.finite window) pool.store.now pool.store.redis = (result, redis)) :
    Counts rule key
      (({ pool with store := { pool.store with
        redis, checks := (other, pool.store.now) :: pool.store.checks } } :
        LimitedPool).set t ⟨th.request, ⟨.check other limit window, .ok result⟩ ::
        th.trace, rest⟩) := by
  obtain ⟨ordered, denied, counter⟩ := counts
  constructor
  all_goals
    rw [Pool.set_store, checksOn_cons, if_neg different]
  · exact ordered
  · rw [deniedOn_run found, ← denied]
    exact or_iff_right fun denial => different denial.1
  · intro uncrowded
    have kept : (RateLimiterService.check {} true other limit (.finite window) pool.store.now
        pool.store.redis).2 _ = _ :=
      RateLimiterService.check_other limit _ pool.store.now pool.store.redis different
    rw [checked] at kept
    exact kept.trans (counter uncrowded)

theorem Counts.later (counts : Counts rule key pool) (ms : Nat) :
    Counts rule key
      ({ pool with store := { pool.store with now := pool.store.now + ms } } : LimitedPool) where
  ordered := by
    obtain ⟨latest, rest⟩ := List.pairwise_cons.mp counts.ordered
    exact List.pairwise_cons.mpr
      ⟨fun x found => Nat.le_trans (latest x found) (Nat.le_add_right _ ms), rest⟩
  denied := counts.denied
  counter := counts.counter

theorem Counts.spawn (counts : Counts rule key pool) (q : ClientRequest) :
    Counts rule key (pool.add ⟨q, [], body hashing q⟩) where
  ordered := counts.ordered
  denied := by
    rw [Pool.add_store, ← counts.denied]
    constructor
    · rintro ⟨t, th, found, e, executed, denied⟩
      obtain ⟨-, rfl⟩ | found := Pool.add_cases found
      · exact absurd executed List.not_mem_nil
      · exact ⟨t, th, found, e, executed, denied⟩
    · rintro ⟨t, th, found, e, executed, denied⟩
      exact ⟨t, th, Pool.add_old _ found, e, executed, denied⟩
  counter := counts.counter

/-- The counters of the rules of auth-service, after any run. -/
theorem counts_run {route : Route} {i : String} (reachable : Reachable hashing pool)
    (ruled : rule ∈ AuthController.rules route) : Counts rule (ruleKey rule i) pool := by
  refine System.Reachable.invariant
    (P := fun pool => Counts rule (ruleKey rule i) pool) reachable ?_ ?_
  · rintro s ⟨empty, unchecked⟩
    have none : s.checksOn (ruleKey rule i) = [] := by rw [Store.checksOn, unchecked]; rfl
    have nothing : ¬ DeniedOn (ruleKey rule i) (System.idle s : LimitedPool) := by
      rintro ⟨t, th, found, -⟩
      contradiction
    have uncrowded : Uncrowded rule.limit (rule.window * 1000) (s.checksOn (ruleKey rule i)) := by
      rw [none]
      exact fun s found => absurd found List.not_mem_nil
    refine ⟨?_, iff_of_false nothing (not_not_intro uncrowded), fun _ => ?_⟩
    · rw [System.idle, none]
      exact List.pairwise_singleton _ _
    · rw [System.idle, none]
      exact empty _
  · intro pool label pool' reachable _ counts _ effect
    cases effect with
    | spawn q => exact counts.spawn q
    | act ms s acted =>
      cases Option.some.inj acted
      exact counts.later ms
    | run t choice th c k r s found awaits executed =>
      have next : th.next? = some c := by rw [Thread.next?, awaits]
      obtain ⟨-, route', rule', i', ruled', rfl⟩ :=
        reachable.point (P := fun _ => Point) (R := fun _ => Answered) along_body found next
      cases checked : RateLimiterService.check {} true (ruleKey rule' i') rule'.limit
        (.finite rule'.window) pool.store.now
        pool.store.redis with
      | mk result redis =>
        simp only [exec, checked] at executed
        obtain ⟨rfl, rfl⟩ := Prod.mk.inj (Option.some.inj executed)
        by_cases same : ruleKey rule' i' = ruleKey rule i
        · rw [same] at checked ⊢
          obtain ruled' | ruled' := ruled'
          · exact absurd ⟨route, rule, ruled, i, same⟩ (gateway_key ruled')
          · obtain ⟨limit, window⟩ := authKey_rule ruled ruled' same.symm
            rw [← limit, ← window] at checked ⊢
            obtain ⟨positive, lasting, whole⟩ := rules_positive route (mem_routes route) rule ruled
            exact counts.own positive lasting whole found checked
        · exact counts.other found same checked

end Runs

/-- No request is refused by auth-service. -/
def Redundant (pool : LimitedPool) : Prop :=
  ∀ th ∈ pool.threads, ∀ refusal, th.result? ≠ some (.ok (.refusedByAuthService refusal))

/-- No window of a rule of auth-service has more checks than the limit, where a check that
comes after the end of the last window opens the next one. -/
def Spaced (s : Store) : Prop :=
  ∀ route, ∀ rule ∈ AuthController.rules route, ∀ identifier,
    Uncrowded rule.limit (rule.window * 1000) (s.checksOn (ruleKey rule identifier))

/-- In any run the limiter of auth-service has refused nothing exactly if the checks that it
made crowd none of the windows. -/
theorem redundant_iff {hashing : Hashing} {pool : LimitedPool}
    (reachable : Reachable hashing pool) :
    Redundant pool ↔ Spaced pool.store := by
  have returned : ∀ t th r, pool.thread? t = some th → th.result? = some r → Answered th.trace r :=
    fun t th r =>
    reachable.returned (P := fun _ => Point) (R := fun _ => Answered) along_body
  constructor
  · intro redundant route rule ruled i
    by_contra crowded
    obtain ⟨t, th, found, e, executed, key, denied⟩ :=
      (counts_run reachable ruled).denied.mpr crowded
    have denial : Denied th.trace := ⟨e, executed, ⟨route, rule, ruled, i, key⟩, denied⟩
    cases ended : th.result? with
    | none =>
      obtain ⟨c, next⟩ := Thread.next?_some ended
      have point :=
        reachable.point (P := fun _ => Point) (R := fun _ => Answered) along_body found next
      exact point.1 denial
    | some r =>
      obtain ⟨refusal, rfl⟩ := (returned t th r found ended).mpr denial
      exact redundant th (Pool.thread?_mem found) refusal ended
  · intro spaced th started refusal ended
    obtain ⟨t, found⟩ := Pool.mem_threads.mp started
    obtain ⟨e, executed, ⟨route, rule, ruled, i, key⟩, denied⟩ :=
      (returned t th _ found ended).mp ⟨refusal, rfl⟩
    have crowded := (counts_run reachable ruled).denied.mp ⟨t, th, found, e, executed, key, denied⟩
    exact crowded (spaced route rule ruled i)
section Sample

/-- Digests and case mapping that keep the text. -/
def plain : Hashing := ⟨id, id⟩

def loginFrom (ip email : String) : ClientRequest where
  route := .login
  http := { ip := some ip, body := .obj [("email", .str email)] }

abbrev SampleStep := Label ClientRequest Unit Nat

/-- A login that runs to its end, with so many checks. -/
def loginSteps (t checks : Nat) (ip email : String) : List SampleStep :=
  .spawn (loginFrom ip email) :: List.replicate checks (.run t ())

/-- One client signs in with ten accounts, which its own limit allows, and another client
with one. -/
def sharedAddressSteps : List SampleStep :=
  (List.range 10).flatMap (fun i => loginSteps i 4 "198.51.100.1" (toString i ++ "@mail.com")) ++
    loginSteps 10 3 "203.0.113.2" "alice@mail.com"

def refusedStatus? (th : LimitedThread) : Option Nat :=
  match th.result? with
  | some (.ok (.refusedByAuthService refusal)) => some refusal.error.statusCode
  | _ => none

def admitted (th : LimitedThread) : Bool :=
  match th.result? with
  | some (.ok (.admittedByAuthService _)) => true
  | _ => false

/-- The calls have another address and another email. -/
def Stranger (th other : LimitedThread) : Prop :=
  other.request.http.ip ≠ th.request.http.ip ∧ other.request.http.body.get "email" ≠
    th.request.http.body.get "email"

instance (th other : LimitedThread) : Decidable (Stranger th other) :=
  inferInstanceAs (Decidable (_ ∧ _))

/-- The last call is refused by auth-service, and calls of another client alone, all of them
admitted, precede it. -/
def strangerRefused (pool : LimitedPool) : Bool :=
  pool.threads.getLast?.any fun th => refusedStatus? th = some 429 &&
    decide (∀ other ∈ pool.threads.dropLast, admitted other ∧ Stranger th other)

theorem not_redundant {pool : LimitedPool} {th : LimitedThread} {status : Nat}
    (started : th ∈ pool.threads) (refused : refusedStatus? th = some status) :
    ¬ Redundant pool := by
  intro redundant
  rw [refusedStatus?] at refused
  split at refused
  · rename_i refusal ended
    exact redundant th started refusal ended
  · contradiction

theorem another_client_refused : ∃ pool th, Reachable plain pool ∧ pool.threads.getLast? = some th ∧
    refusedStatus? th = some 429 ∧
    (∀ other ∈ pool.threads.dropLast, admitted other ∧ Stranger th other) ∧
    ¬ Redundant pool := by
  have tested : ((limitedSystem plain).replay System.Any (System.idle {}) sharedAddressSteps).any
      strangerRefused = true := by decide +kernel
  obtain ⟨pool, run, passed⟩ := System.run_of_replay tested
  obtain ⟨th, last, passed⟩ := (Option.any_eq_true _ _).mp passed
  simp only [Bool.and_eq_true, decide_eq_true_eq] at passed
  exact ⟨pool, th, ⟨{}, ⟨fun _ => rfl, rfl⟩, run⟩, last, passed.1, passed.2,
    not_redundant (List.mem_of_getLast? last) passed.1⟩

/-- Two clients, one login each. -/
theorem redundant_sample : ∃ pool, Reachable plain pool ∧ pool.threads.length = 2 ∧
    (∀ th ∈ pool.threads, admitted th) ∧ Spaced pool.store := by
  have tested : ((limitedSystem plain).replay System.Any (System.idle {})
      (loginSteps 0 4 "198.51.100.1" "bob@mail.com" ++
        loginSteps 1 4 "203.0.113.2" "alice@mail.com")).any
      (fun pool => pool.threads.length = 2 &&
        decide (∀ th ∈ pool.threads, admitted th)) = true := by
    decide +kernel
  obtain ⟨pool, run, passed⟩ := System.run_of_replay tested
  simp only [Bool.and_eq_true, decide_eq_true_eq] at passed
  have reachable : Reachable plain pool := ⟨{}, ⟨fun _ => rfl, rfl⟩, run⟩
  refine ⟨pool, reachable, passed.1, passed.2, (redundant_iff reachable).mp ?_⟩
  intro th started refusal ended
  have ok := passed.2 th started
  rw [admitted, ended] at ok
  contradiction

end Sample

end CorePlatform.RateLimiter
