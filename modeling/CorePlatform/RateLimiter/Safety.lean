import CorePlatform.RateLimiter.Service

/-! The limits that `check` keeps over a sequence of calls. The counter of
a key and its expiry are the open window of a fixed-window limiter, and the script moves them
as that limiter does. -/
namespace CorePlatform.RateLimiterService
open Limiting

/-- The counter that stands for a window. -/
def counterOf (w : Window) : Counter := { value := w.count, expiresAt := some w.expiry }

variable {redis : Redis} {key : String} {limit length now : Nat} {window windowSeconds : Number}

section Script

variable {w : Option Window} {c : Window}

theorem get_window (holds : redis key = w.map counterOf) :
    redis.get now key = (open? now w).map counterOf := by
  rw [Redis.get, holds]
  cases w with
  | none => rfl
  | some c =>
    by_cases current : now < c.expiry <;> simp [open?, counterOf, Option.filter, current]

theorem get_closed (holds : redis key = w.map counterOf)
    (closed : ∀ c, w = some c → c.expiry ≤ now) :
    redis.get now key = none := by
  rw [get_window holds]
  cases w with
  | none => rfl
  | some c =>
    have ended := closed c rfl
    simp only [open?, Option.filter, Nat.not_lt.mpr ended, decide_false, Bool.false_eq_true,
      if_false, Option.map_none]

theorem get_current (holds : redis key = some (counterOf c)) (current : now < c.expiry) :
    redis.get now key = some (counterOf c) := by
  rw [get_window (w := some c) holds]
  simp only [open?, Option.filter, current, decide_true, if_true, Option.map_some]

/-- The script opens a window. -/
theorem script_opens (whole : Redis.integer? window = some (length : Int))
    (absent : redis.get now key = none) (positive : 1 ≤ limit) (lasting : 1 ≤ length) :
    RATE_LIMIT_LUA_SCRIPT key limit window now redis =
      (some ⟨1, 1, length⟩, redis.set key (some (counterOf ⟨1, now + length⟩))) := by
  have some' : ¬ 0 ≥ limit := Nat.not_le.mpr positive
  have running : now < now + length := Nat.lt_add_of_pos_right lasting
  have ahead : ¬ (length : Int) ≤ 0 := by omega
  simp only [RATE_LIMIT_LUA_SCRIPT, absent, Option.map_none, Option.getD_none, some', if_false,
    Redis.incr, if_true, whole, Redis.pexpire, Redis.get_set, Option.all_none, Redis.set_set, ahead,
    Int.toNat_natCast]
  have ttl : (redis.set key (some (counterOf ⟨1, now + length⟩))).pttl now key = length := by
    simp only [Redis.pttl, Redis.get_set, counterOf, Option.all_some, running, decide_true,
      if_true, Int.ofNat_eq_natCast]
    omega
  exact congrArg (fun ttl => (some (ScriptReply.mk 1 1 ttl),
    redis.set key (some (counterOf ⟨1, now + length⟩)))) ttl

/-- The script counts a request in the open window. -/
theorem script_joins (window : Number) (found : redis.get now key = some (counterOf c))
    (current : now < c.expiry) (counting : 1 ≤ c.count) (room : c.count < limit) :
    RATE_LIMIT_LUA_SCRIPT key limit window now redis =
      (some ⟨1, c.count + 1, Int.ofNat c.expiry - now⟩,
        redis.set key (some (counterOf { c with count := c.count + 1 }))) := by
  have notFirst : c.count + 1 ≠ 1 := by omega
  simp only [RATE_LIMIT_LUA_SCRIPT, found, Option.map_some, Option.getD_some, counterOf,
    Nat.not_le.mpr room, if_false,
    Redis.incr, notFirst, Redis.pttl, Redis.get_set, Option.all_some, current, decide_true, if_true]

/-- The script refuses a request and changes nothing. -/
theorem script_refuses (window : Number) (found : redis.get now key = some (counterOf c))
    (current : now < c.expiry) (full : limit ≤ c.count) :
    RATE_LIMIT_LUA_SCRIPT key limit window now redis =
      (some ⟨0, c.count, Int.ofNat c.expiry - now⟩, redis) := by
  have left : ¬ (Int.ofNat c.expiry - now : Int) < 0 := by
    simp only [Int.ofNat_eq_natCast]
    omega
  simp only [RATE_LIMIT_LUA_SCRIPT, Redis.pttl, found, Option.map_some, Option.getD_some,
    counterOf, ge_iff_le, full, if_true, left, if_false]

/-- Where Redis takes the window for no integer, the script ends at the expiry of the counter that
it has made. -/
theorem script_fails (refused : Redis.integer? window = none) (absent : redis.get now key = none)
    (positive : 1 ≤ limit) : RATE_LIMIT_LUA_SCRIPT key limit window now redis =
      (none, redis.set key (some { value := 1 })) := by
  have some' : ¬ 0 ≥ limit := Nat.not_le.mpr positive
  simp only [RATE_LIMIT_LUA_SCRIPT, absent, Option.map_none, Option.getD_none, some', if_false,
    Redis.incr, if_true, refused]

/-- The script counts a request on a counter without an expiry. -/
theorem script_counts (window : Number) {n : Nat} (found : redis.get now key = some { value := n })
    (counting : n ≠ 0) (room : n < limit) : RATE_LIMIT_LUA_SCRIPT key limit window now redis =
      (some ⟨1, n + 1, -1⟩, redis.set key (some { value := n + 1 })) := by
  have notFirst : n + 1 ≠ 1 := by omega
  simp only [RATE_LIMIT_LUA_SCRIPT, found, Option.map_some, Option.getD_some, ge_iff_le,
    Nat.not_le.mpr room, if_false, Redis.incr, notFirst, Redis.pttl, Redis.get_set,
    Option.all_none, if_true]

/-- The script refuses a request on such a counter that is at the limit. -/
theorem script_denies (window : Number) (found : redis.get now key = some { value := limit }) :
    RATE_LIMIT_LUA_SCRIPT key limit window now redis =
      (some ⟨0, limit, Redis.replyInteger window⟩, redis) := by
  simp only [RATE_LIMIT_LUA_SCRIPT, Redis.pttl, found, Option.map_some, Option.getD_some,
    ge_iff_le, Nat.le_refl, if_true, Int.reduceNeg, Int.reduceLT]

/-- The script touches the counter of its key only. -/
theorem script_other {other : String} (different : other ≠ key) :
    (RATE_LIMIT_LUA_SCRIPT key limit window now redis).2 other = redis other := by
  have incr : (redis.incr now key).2 other = redis other := by
    unfold Redis.incr
    split <;> exact Redis.set_other _ _ _ different
  have pexpire : ∀ (redis : Redis) ms, redis.pexpire now key ms other = redis other := by
    intro redis ms
    rw [Redis.pexpire]
    cases redis.get now key with
    | none => rfl
    | some counter => exact Redis.set_other _ _ _ different
  simp only [RATE_LIMIT_LUA_SCRIPT]
  split
  · rfl
  · split
    · split
      · exact incr
      · exact (pexpire _ _).trans incr
    · exact incr

end Script

/-- One call of `check`, by whichever instance, at `now` milliseconds. -/
structure CheckCall where
  key : String
  limit : Nat
  windowSeconds : Number
  now : Nat

/-- The calls one after the other, as Redis runs their scripts. -/
def serve (options : RateLimiterOptions) :
    Redis → List CheckCall → List (CheckCall × RateLimitResult) × Redis
  | redis, [] => ([], redis)
  | redis, c :: rest =>
    let (result, redis) := check options true c.key c.limit c.windowSeconds c.now redis
    let (results, redis) := serve options redis rest
    ((c, result) :: results, redis)

/-- The times of the allowed calls on a key. -/
def allowedTimes (key : String) (results : List (CheckCall × RateLimitResult)) : List Nat :=
  (results.filter fun (c, r) => c.key = key && r.allowed).map fun (c, _) => c.now

/-- The times of the calls that are the first of a window. -/
def openings (key : String) (results : List (CheckCall × RateLimitResult)) : List Nat :=
  (results.filter fun (c, r) => c.key = key && r.allowed && r.count = 1).map fun (c, _) => c.now

section Calls

variable {keyPrefix : String} {h : History}

/-- The counter of the key is the window of the history. -/
def Holds (keyPrefix key : String) (redis : Redis) (h : History) : Prop :=
  redis (fullKey { keyPrefix } key) = h.window.map counterOf

/-- A call on a counter that stands for a window, next to what the abstract limiter does: it opens
a window, counts in the open one, or refuses and changes nothing. -/
inductive Checks (keyPrefix key : String) (limit : Nat) (windowSeconds : Number) (length now : Nat)
    (redis : Redis) (w : Option Window) : Prop where
  | opens (closed : (open? now w).isNone = true) (judged : judge limit length now w =
      (true, some ⟨1, now + length⟩))
      (checked : check { keyPrefix } true key limit windowSeconds now redis =
        (⟨true, 1, limit - 1, 0⟩, redis.set (fullKey { keyPrefix } key)
          (some (counterOf ⟨1, now + length⟩))))
  | joins (c : Window) (recorded : w = some c) (current : (open? now w).isNone = false)
      (counting : 1 ≤ c.count)
      (judged : judge limit length now w = (true, some { c with count := c.count + 1 }))
      (checked : check { keyPrefix } true key limit windowSeconds now redis =
        (⟨true, c.count + 1, limit - (c.count + 1), 0⟩,
          redis.set (fullKey { keyPrefix } key) (some (counterOf { c with count := c.count + 1 }))))
  | refuses (c : Window) (recorded : w = some c) (current : now < c.expiry)
      (judged : judge limit length now w = (false, w))
      (checked : check { keyPrefix } true key limit windowSeconds now redis =
        (⟨false, c.count, limit - c.count, max 0 ((c.expiry : Int) - now)⟩, redis))

theorem check_cases {w : Option Window} (positive : 1 ≤ limit)
    (whole : Redis.integer? (windowMs windowSeconds) = some (length : Int)) (lasting : 1 ≤ length)
    (holds : redis (fullKey { keyPrefix } key) = w.map counterOf)
    (counting : ∀ c, w = some c → 1 ≤ c.count) :
    Checks keyPrefix key limit windowSeconds length now redis w := by
  rcases judge_cases length now w positive with
    ⟨closed, none, judged⟩ | ⟨c, rfl, current, opened, ⟨room, judged⟩ | ⟨full, judged⟩⟩
  · apply Checks.opens none judged
    rw [check, script_opens whole (get_closed holds closed) positive lasting]
    rfl
  · apply Checks.joins c rfl opened (counting c rfl) judged
    rw [check, script_joins _ (get_current holds current) current (counting c rfl) room]
    rfl
  · apply Checks.refuses c rfl current judged
    rw [check, script_refuses _ (get_current holds current) current full]
    rfl

/-- What a call on the key answers and leaves, next to what the abstract limiter does. -/
theorem check_step {result : RateLimitResult} {redis' : Redis} (positive : 1 ≤ limit)
    (whole : Redis.integer? (windowMs windowSeconds) = some (length : Int)) (lasting : 1 ≤ length)
    (holds : Holds keyPrefix key redis h) (fair : Fair limit length now h)
    (checked : check { keyPrefix } true key limit windowSeconds now redis = (result, redis')) :
    Holds keyPrefix key redis' (h.arrive limit length now) ∧
      (h.arrive limit length now).admitted = (if result.allowed then [now] else []) ++ h.admitted ∧
      (h.arrive limit length now).starts = (if result.allowed &&
        result.count = 1 then [now] else []) ++ h.starts := by
  cases @check_cases _ _ _ _ now _ _ _ positive whole lasting holds fair.counting with
  | opens none judged checked' =>
    have after : h.arrive limit length now = ⟨some ⟨1, now + length⟩, now :: h.admitted,
        now :: h.starts⟩ := by
      rw [History.arrive, judged]
      simp only [none, if_true]
    obtain ⟨rfl, rfl⟩ := Prod.mk.inj (checked'.symm.trans checked)
    rw [after]
    exact ⟨Redis.set_self _ _ _, rfl, rfl⟩
  | joins c recorded current counting judged checked' =>
    have after : h.arrive limit length now = ⟨some { c with count := c.count + 1 }, now ::
        h.admitted, h.starts⟩ := by
      rw [History.arrive, judged]
      simp only [current, Bool.false_eq_true, if_false]
    have notFirst : c.count + 1 ≠ 1 := by omega
    obtain ⟨rfl, rfl⟩ := Prod.mk.inj (checked'.symm.trans checked)
    rw [after]
    refine ⟨Redis.set_self _ _ _, rfl, ?_⟩
    simp only [notFirst, decide_false, Bool.and_false, Bool.false_eq_true,
      if_false, List.nil_append]
  | refuses c recorded current judged checked' =>
    have after : h.arrive limit length now = h := by
      rw [History.arrive, judged]
    obtain ⟨rfl, rfl⟩ := Prod.mk.inj (checked'.symm.trans checked)
    rw [after]
    exact ⟨holds, rfl, rfl⟩

/-- The same for a counter that stands for a window of any limiter. -/
theorem check_judges {w : Option Window} (positive : 1 ≤ limit)
    (whole : Redis.integer? (windowMs windowSeconds) = some (length : Int)) (lasting : 1 ≤ length)
    (holds : redis (fullKey { keyPrefix } key) = w.map counterOf)
    (counting : ∀ c, w = some c → 1 ≤ c.count) :
    (check { keyPrefix } true key limit windowSeconds now redis).1.allowed =
      (judge limit length now w).1 ∧
      (check { keyPrefix } true key limit windowSeconds now redis).2 (fullKey { keyPrefix } key) =
        (judge limit length now w).2.map counterOf := by
  cases @check_cases _ _ _ _ now _ _ _ positive whole lasting holds counting with
  | opens none judged checked =>
    rw [judged, checked]
    exact ⟨rfl, Redis.set_self _ _ _⟩
  | joins c recorded current counting judged checked =>
    rw [judged, checked]
    exact ⟨rfl, Redis.set_self _ _ _⟩
  | refuses c recorded current judged checked =>
    rw [judged, checked]
    exact ⟨rfl, holds⟩

/-- A call on another key leaves the counter alone. -/
theorem check_other {other : String} (limit : Nat) (windowSeconds : Number) (now : Nat)
    (redis : Redis) (different : other ≠ key) :
    (check { keyPrefix } true other limit windowSeconds now redis).2
      (fullKey { keyPrefix } key) = redis (fullKey { keyPrefix } key) := by
  have keys : fullKey { keyPrefix } key ≠ fullKey { keyPrefix } other :=
    fun same => different (fullKey_inj _ same).symm
  have kept := @script_other redis _ limit now (windowMs windowSeconds) _ keys
  simp only [check, Bool.false_eq_true, if_false, if_true]
  split <;> rename_i left
  all_goals
    rw [left] at kept
    exact kept

theorem allowedTimes_cons {c : CheckCall} {r : RateLimitResult}
    {results : List (CheckCall × RateLimitResult)} :
    allowedTimes key ((c, r) :: results) = (if c.key = key && r.allowed then [c.now] else []) ++
      allowedTimes key results := by
  simp only [allowedTimes, List.filter_cons]
  split <;> rfl

theorem openings_cons {c : CheckCall} {r : RateLimitResult}
    {results : List (CheckCall × RateLimitResult)} :
    openings key ((c, r) :: results) =
      (if c.key = key && r.allowed && r.count = 1 then [c.now] else []) ++
        openings key results := by
  simp only [openings, List.filter_cons]
  split <;> rfl

/-- The calls on the key, in the order of time, move its counter as a fixed-window limiter
moves its window. -/
theorem serve_history {calls : List CheckCall} (positive : 1 ≤ limit)
    (whole : Redis.integer? (windowMs windowSeconds) = some (length : Int)) (lasting : 1 ≤ length)
    (holds : Holds keyPrefix key redis h) (fair : Fair limit length now h)
    (ordered : calls.Pairwise fun c d => c.now ≤ d.now) (since : ∀ c ∈ calls, now ≤ c.now)
    (fixed : ∀ c ∈ calls, c.key = key → c.limit = limit ∧ c.windowSeconds = windowSeconds) :
    ∃ h', Holds keyPrefix key (serve { keyPrefix } redis calls).2 h' ∧
      h'.admitted = (allowedTimes key (serve { keyPrefix } redis calls).1).reverse ++ h.admitted ∧
      h'.starts = (openings key (serve { keyPrefix } redis calls).1).reverse ++ h.starts ∧
      ∀ later, now ≤ later → (∀ c ∈ calls, c.now ≤ later) → Fair limit length later h' := by
  induction calls generalizing now redis h with
  | nil => exact ⟨h, holds, rfl, rfl, fun later reached _ => fair.later reached⟩
  | cons c rest ih =>
    obtain ⟨k, l, w, n⟩ := c
    obtain ⟨later, restOrdered⟩ := List.pairwise_cons.mp ordered
    have here : now ≤ n := since _ List.mem_cons_self
    have restFixed : ∀ d ∈ rest, d.key = key →
        d.limit = limit ∧ d.windowSeconds = windowSeconds :=
      fun d found => fixed d (List.mem_cons_of_mem _ found)
    cases checked : check { keyPrefix } true k l w n redis with
    | mk result redis' =>
      have served : serve { keyPrefix } redis (⟨k, l, w, n⟩ :: rest) =
          ((⟨k, l, w, n⟩, result) :: (serve { keyPrefix } redis' rest).1,
            (serve { keyPrefix } redis' rest).2) := by
        simp only [serve, checked]
      rw [served]
      simp only [allowedTimes_cons, openings_cons]
      by_cases own : k = key
      · subst own
        obtain ⟨rfl, rfl⟩ := fixed _ List.mem_cons_self rfl
        obtain ⟨held, admitted, starts⟩ :=
          check_step positive whole lasting holds (fair.later here) checked
        obtain ⟨h', held', admitted', starts', fair'⟩ :=
          ih held ((fair.later here).arrive positive lasting) restOrdered later restFixed
        refine ⟨h', held', ?_, ?_, fun last reached all => fair' last (all _ List.mem_cons_self)
          fun d found => all d (List.mem_cons_of_mem _ found)⟩
        · rw [admitted', admitted]
          cases result.allowed <;> simp
        · rw [starts', starts]
          by_cases first : (result.allowed && result.count = 1) = true <;> simp [first]
      · have held : Holds keyPrefix key redis' h := by
          have same : (check { keyPrefix } true k l w n redis).2 _ = redis _ :=
            check_other l w n redis own
          rw [checked] at same
          exact same.trans holds
        obtain ⟨h', held', admitted', starts', fair'⟩ :=
          ih held (fair.later here) restOrdered later restFixed
        refine ⟨h', held', ?_, ?_, fun last reached all => fair' last (all _ List.mem_cons_self)
          fun d found => all d (List.mem_cons_of_mem _ found)⟩
        · simpa [own] using admitted'
        · simpa [own] using starts'

/-- A call that is denied meets a full window, changes nothing and reports the time until
the window closes. -/
theorem check_denied {result : RateLimitResult} {redis' : Redis} (positive : 1 ≤ limit)
    (whole : Redis.integer? (windowMs windowSeconds) = some (length : Int)) (lasting : 1 ≤ length)
    (holds : Holds keyPrefix key redis h) (fair : Fair limit length now h)
    (checked : check { keyPrefix } true key limit windowSeconds now redis = (result, redis'))
    (denied : result.allowed = false) :
    ∃ c, h.window = some c ∧ now < c.expiry ∧ redis' = redis ∧ result.retryAfterMs =
      (c.expiry : Int) - now := by
  cases @check_cases _ _ _ _ now _ _ _ positive whole lasting holds fair.counting with
  | opens none judged checked' =>
    obtain ⟨rfl, _⟩ := Prod.mk.inj (checked'.symm.trans checked)
    contradiction
  | joins c recorded current counting judged checked' =>
    obtain ⟨rfl, _⟩ := Prod.mk.inj (checked'.symm.trans checked)
    contradiction
  | refuses c recorded current judged checked' =>
    have left : (0 : Int) ≤ (c.expiry : Int) - now := by omega
    obtain ⟨rfl, rfl⟩ := Prod.mk.inj (checked'.symm.trans checked)
    exact ⟨c, recorded, current, rfl, Int.max_eq_right left⟩

/-- Calls on other keys leave the counter alone. -/
theorem serve_others {calls : List CheckCall} (others : ∀ c ∈ calls, c.key ≠ key)
    (holds : Holds keyPrefix key redis h) :
    Holds keyPrefix key (serve { keyPrefix } redis calls).2 h := by
  induction calls generalizing redis with
  | nil => exact holds
  | cons c rest ih =>
    have kept : Holds keyPrefix key
        (check { keyPrefix } true c.key c.limit c.windowSeconds c.now redis).2 h :=
      (check_other _ _ _ _ (others c List.mem_cons_self)).trans holds
    exact ih (fun d found => others d (List.mem_cons_of_mem c found)) kept

/-- Once the window has closed, a call is allowed. -/
theorem check_allowed (positive : 1 ≤ limit)
    (whole : Redis.integer? (windowMs windowSeconds) = some (length : Int)) (lasting : 1 ≤ length)
    (holds : Holds keyPrefix key redis h) (closed : ∀ c, h.window = some c → c.expiry ≤ now) :
    (check { keyPrefix } true key limit windowSeconds now redis).1.allowed = true := by
  have opens := script_opens whole (get_closed holds closed) positive lasting
  simp only [check, opens, Bool.false_eq_true, if_false, if_true, decide_true]

end Calls

/-- What the limiter guarantees for a key with a fixed limit and window, after `calls` from
the state `redis`. -/
structure FixedWindowSafe (keyPrefix key : String) (limit : Nat) (windowSeconds : Number)
    (length : Nat) (redis : Redis) (calls : List CheckCall) : Prop where
  /-- A counter counts up to the limit and expires within a window's time. -/
  counter : ∀ now counter, (∀ c ∈ calls, c.now ≤ now) →
    (serve { keyPrefix } redis calls).2.get now (fullKey { keyPrefix } key) = some counter →
    1 ≤ counter.value ∧ counter.value ≤ limit ∧
      ∃ expiry, counter.expiresAt = some expiry ∧ now < expiry ∧ expiry ≤ now + length
  /-- Allowed calls in any interval as long as the window. -/
  interval : ∀ x, within x (x + length)
    (allowedTimes key (serve { keyPrefix } redis calls).1) ≤ 2 * limit
  /-- Allowed calls between the first call of a window and its expiry. -/
  window : ∀ s ∈ openings key (serve { keyPrefix } redis calls).1,
    within s (s + length) (allowedTimes key (serve { keyPrefix } redis calls).1) ≤ limit
  denied : ∀ now result redis', (∀ c ∈ calls, c.now ≤ now) →
    check { keyPrefix } true key limit windowSeconds now (serve { keyPrefix } redis calls).2 =
      (result, redis') →
    result.allowed = false → redis' = (serve { keyPrefix } redis calls).2 ∧
      0 ≤ result.retryAfterMs ∧ result.retryAfterMs ≤ length
  /-- After a denied call, calls on other keys may follow, and then one on the key. -/
  recovers : ∀ (now later : Nat) result redis' between, (∀ c ∈ calls, c.now ≤ now) →
    check { keyPrefix } true key limit windowSeconds now (serve { keyPrefix } redis calls).2 =
      (result, redis') →
    result.allowed = false → (∀ c ∈ between, c.key ≠ key) →
      (now : Int) + result.retryAfterMs ≤ later →
      (check { keyPrefix } true key limit windowSeconds later
        (serve { keyPrefix } redis' between).2).1.allowed = true

/-- The calls come in the order of time. -/
abbrev Ordered (calls : List CheckCall) : Prop := calls.Pairwise fun c d => c.now ≤ d.now

/-- The calls on the key have that limit and window. -/
abbrev Fixed (key : String) (limit : Nat) (windowSeconds : Number) (calls : List CheckCall) :
    Prop :=
  ∀ c ∈ calls, c.key = key → c.limit = limit ∧ c.windowSeconds = windowSeconds

/-- Fixed-window safety and recovery where the window is a whole number of milliseconds, for every
sequence of calls in the order of time, on this key and on others. -/
theorem safe_of_whole {keyPrefix : String} {calls : List CheckCall} (positive : 1 ≤ limit)
    (whole : Redis.integer? (windowMs windowSeconds) = some (length : Int)) (lasting : 1 ≤ length)
    (absent : redis (fullKey { keyPrefix } key) = none) (ordered : Ordered calls)
    (fixed : Fixed key limit windowSeconds calls) :
    FixedWindowSafe keyPrefix key limit windowSeconds length redis calls := by
  have empty : Holds keyPrefix key redis {} := absent
  have fairStart : Fair limit length 0 {} := fair_start
  obtain ⟨h, holds, admitted, starts, fairAt⟩ :=
    serve_history positive whole lasting empty fairStart ordered (fun _ _ => Nat.zero_le _) fixed
  have fair : ∀ now, (∀ c ∈ calls, c.now ≤ now) → Fair limit length now h :=
    fun now after => fairAt now (Nat.zero_le now) after
  -- the history has the allowed times latest first
  have counts : ∀ first last, within first last h.admitted =
      within first last (allowedTimes key (serve { keyPrefix } redis calls).1) := by
    intro first last
    rw [admitted, List.append_nil, within, List.countP_reverse, within]
  obtain ⟨last, after⟩ : ∃ last, ∀ c ∈ calls, c.now ≤ last :=
    ⟨(calls.map CheckCall.now).max?.getD 0, fun c found =>
      List.le_max?_getD_of_mem (List.mem_map_of_mem found)⟩
  constructor
  · intro now counter later found
    obtain ⟨c, recorded, current⟩ : ∃ c, h.window = some c ∧ now < c.expiry ∧
      counter = counterOf c := by
      cases recorded : h.window with
      | none =>
        rw [get_closed (w := none) (holds.trans (congrArg _ recorded))
          (by rintro _ ⟨⟩)] at found
        contradiction
      | some c =>
        by_cases current : now < c.expiry
        · rw [get_current (holds.trans (congrArg _ recorded)) current] at found
          exact ⟨c, rfl, current, (Option.some.inj found).symm⟩
        · rw [get_closed (holds.trans (congrArg _ recorded))
            (by rintro _ ⟨⟩; exact Nat.le_of_not_lt current)] at found
          contradiction
    obtain ⟨current, rfl⟩ := current
    obtain ⟨start, inv⟩ := (fair now later).window c recorded
    have expires := inv.expires
    have started := inv.started
    exact ⟨inv.positive, inv.limited, c.expiry, rfl, current, by omega⟩
  · intro x
    rw [← counts]
    exact (fair last after).perInterval x
  · intro s opened
    rw [← counts]
    apply (fair last after).perWindow
    rw [starts, List.append_nil, List.mem_reverse]
    exact opened
  · intro now result redis' later checked denied
    obtain ⟨c, recorded, current, same, left⟩ :=
      check_denied positive whole lasting holds (fair now later) checked denied
    obtain ⟨start, inv⟩ := (fair now later).window c recorded
    have expires := inv.expires
    have started := inv.started
    refine ⟨same, ?_, ?_⟩
    · rw [left]
      omega
    · rw [left]
      omega
  · intro now later result redis' between before checked denied others waited
    obtain ⟨c, recorded, current, same, left⟩ :=
      check_denied positive whole lasting holds (fair now before) checked denied
    rw [left] at waited
    apply check_allowed positive whole lasting (serve_others others (same ▸ holds))
    intro d again
    cases Option.some.inj (recorded.symm.trans again)
    omega

section Fractions

variable {keyPrefix : String}

/-- The counter after so many calls on a key whose expiry Redis refuses. -/
def unexpiring (limit n : Nat) : Option Counter :=
  if n = 0 then none else some { value := min n limit }

theorem get_unexpiring {n : Nat} (held : redis key = unexpiring limit n) (now : Nat) :
    redis.get now key = unexpiring limit n := by
  rw [Redis.get, held, unexpiring]
  split <;> rfl

/-- The first call leaves a counter without an expiry, and is allowed as the script fails. The
calls up to the limit are counted, and the others denied. -/
theorem check_fractional {n : Nat} (positive : 1 ≤ limit)
    (refused : Redis.integer? (windowMs windowSeconds) = none)
    (held : redis (fullKey { keyPrefix } key) = unexpiring limit n) (now : Nat) :
    (check { keyPrefix } true key limit windowSeconds now redis).1.allowed = decide (n < limit) ∧
      (check { keyPrefix } true key limit windowSeconds now redis).2 (fullKey { keyPrefix } key) =
        unexpiring limit (n + 1) := by
  have found := get_unexpiring held now
  by_cases first : n = 0
  · subst first
    simp only [check, script_fails refused found positive, Bool.false_eq_true, if_false, if_true,
      failedOpen]
    refine ⟨(decide_eq_true positive).symm, ?_⟩
    rw [Redis.set_self, unexpiring, if_neg (Nat.succ_ne_zero 0), Nat.min_eq_left positive]
  · have counter : unexpiring limit n = some { value := min n limit } := if_neg first
    rw [counter] at found
    by_cases full : limit ≤ n
    · rw [Nat.min_eq_right full] at found
      simp only [check, script_denies _ found, Bool.false_eq_true, if_false, if_true]
      refine ⟨(decide_eq_false (Nat.not_lt.mpr full)).symm, ?_⟩
      rw [held, counter, unexpiring, if_neg (Nat.succ_ne_zero n), Nat.min_eq_right full,
        Nat.min_eq_right (by omega)]
    · have room : n < limit := Nat.lt_of_not_le full
      rw [Nat.min_eq_left room.le] at found
      simp only [check, script_counts _ found first room, Bool.false_eq_true, if_false, if_true]
      refine ⟨(decide_eq_true room).symm, ?_⟩
      rw [Redis.set_self, unexpiring, if_neg (Nat.succ_ne_zero n), Nat.min_eq_left (by omega)]

/-- The counter counts the calls on the key up to the limit, and never expires. -/
theorem serve_fractional {calls : List CheckCall} {n : Nat} (positive : 1 ≤ limit)
    (refused : Redis.integer? (windowMs windowSeconds) = none)
    (held : redis (fullKey { keyPrefix } key) = unexpiring limit n)
    (fixed : Fixed key limit windowSeconds calls) :
    (serve { keyPrefix } redis calls).2 (fullKey { keyPrefix } key) =
      unexpiring limit (n + calls.countP fun c => c.key = key) := by
  induction calls generalizing redis n with
  | nil => exact held
  | cons c rest ih =>
    have restFixed : Fixed key limit windowSeconds rest :=
      fun d found => fixed d (List.mem_cons_of_mem _ found)
    rw [List.countP_cons]
    by_cases own : c.key = key
    · obtain ⟨sameLimit, sameWindow⟩ := fixed c List.mem_cons_self own
      have after := (check_fractional positive refused held c.now).2
      have counted := ih after restFixed
      simp only [own, decide_true, if_true, serve, sameLimit, sameWindow]
      rw [counted, Nat.add_assoc, Nat.add_comm 1]
    · have after := (check_other c.limit c.windowSeconds c.now redis own).trans held
      have counted := ih after restFixed
      simpa only [own, decide_false, Bool.false_eq_true, if_false, Nat.add_zero, serve] using counted

end Fractions

theorem integer?_natCast {ms : Nat} (bounded : ms ≤ 2 ^ 53) :
    Redis.integer? (.finite ms) = some (ms : Int) := by
  have small : |(ms : ℚ)| ≤ 2 ^ 62 := by
    rw [abs_of_nonneg (Nat.cast_nonneg ms)]
    exact_mod_cast bounded.trans (by decide)
  rw [Redis.integer?, if_pos ⟨Rat.den_natCast ms, small⟩, Rat.num_natCast]

/-- Fixed-window safety and recovery, for every sequence of calls from a state without a counter
for the key, where the product of the seconds with 1000 is a whole number of milliseconds. Where
Redis takes the product for no integer, the counter counts up to the limit without an expiry, and
from then on the key is denied at any time. -/
theorem fixed_window_safe {keyPrefix key : String} {limit : Nat} {windowSeconds : Number}
    {redis : Redis} (positive : 1 ≤ limit) (absent : redis (fullKey { keyPrefix } key) = none) :
    (∀ ms : ℕ, windowMs windowSeconds = .finite ms → 1 ≤ ms → ms ≤ 2 ^ 53 →
      ∀ calls, Ordered calls → Fixed key limit windowSeconds calls →
        FixedWindowSafe keyPrefix key limit windowSeconds ms redis calls) ∧
    (Redis.integer? (windowMs windowSeconds) = none →
      ∀ calls, Fixed key limit windowSeconds calls →
        (serve { keyPrefix } redis calls).2 (fullKey { keyPrefix } key) =
          unexpiring limit (calls.countP fun c => c.key = key) ∧
        (limit ≤ calls.countP (fun c => c.key = key) → ∀ now,
          (check { keyPrefix } true key limit windowSeconds now
            (serve { keyPrefix } redis calls).2).1.allowed = false)) := by
  constructor
  · intro ms product lasting bounded calls ordered fixed
    have whole : Redis.integer? (windowMs windowSeconds) = some (ms : Int) := by
      rw [product, integer?_natCast bounded]
    exact safe_of_whole positive whole lasting absent ordered fixed
  · intro refused calls fixed
    have start : redis (fullKey { keyPrefix } key) = unexpiring limit 0 := absent
    have held := serve_fractional positive refused start fixed
    rw [Nat.zero_add] at held
    refine ⟨held, ?_⟩
    intro full now
    rw [(check_fractional positive refused held now).1]
    exact decide_eq_false (Nat.not_lt.mpr full)

/-- Calls on two keys, around the end of a window. -/
def sampleCalls : List CheckCall :=
  [⟨"login:ip:a", 2, .finite 60, 0⟩, ⟨"login:ip:b", 5, .finite 1, 10⟩,
    ⟨"login:ip:a", 2, .finite 60, 59998⟩, ⟨"login:ip:a", 2, .finite 60, 59999⟩,
    ⟨"login:ip:a", 2, .finite 60, 60000⟩]

/-- The third call on the key is denied, and the next one, at the end of the window, allowed. -/
theorem fixed_window_safe_sample :
    (serve {} (fun _ => none) sampleCalls).1.map (fun (_, r) => r.allowed) =
      [true, true, true, false, true] ∧
      FixedWindowSafe "rl" "login:ip:a" 2 (.finite 60) 60000 (fun _ => none) sampleCalls := by
  have served : (serve {} (fun _ => none) sampleCalls).1.map (fun (_, r) => r.allowed) =
      [true, true, true, false, true] := by decide +kernel
  have product : windowMs (.finite 60) = .finite (60000 : ℕ) := by decide +kernel
  have safe := @fixed_window_safe "rl" "login:ip:a" 2 (.finite 60) (fun _ => none) (by decide) rfl
  exact ⟨served, safe.1 60000 product (by decide) (by decide) sampleCalls (by decide)
    (by decide +kernel)⟩

/-- A window of 1.001 seconds. -/
def fractionalSeconds : Number := .ofRat (1001 / 1000)

/-- The product of 1.001 and 1000 is a little less than 1001: after one call the counter has no
expiry, and after two the key is denied, long after the time that was reported. -/
theorem fractional_window_blocks :
    (windowMs fractionalSeconds).le (.finite 1001) = true ∧
      (Number.finite 1000).le (windowMs fractionalSeconds) = true ∧
    (serve {} (fun _ => none) [⟨"login:ip:a", 2, fractionalSeconds, 0⟩]).2.get 10
        "rl:login:ip:a" = some ⟨1, none⟩ ∧
    (serve {} (fun _ => none) [⟨"login:ip:a", 2, fractionalSeconds, 0⟩,
      ⟨"login:ip:a", 2, fractionalSeconds, 0⟩, ⟨"login:ip:a", 2, fractionalSeconds, 0⟩,
      ⟨"login:ip:a", 2, fractionalSeconds, 5000⟩]).1.map
        (fun (_, r) => (r.allowed, r.retryAfterMs)) =
      [(true, 0), (true, 0), (false, 1000), (false, 1000)] := by
  decide +kernel

end CorePlatform.RateLimiterService
