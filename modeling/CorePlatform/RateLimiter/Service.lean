import CorePlatform.Common.Number
import CorePlatform.Limiting.FixedWindow

/-! `RateLimiterService` of the common package: the counters in Redis, the script that Redis
runs as one step, and what `check` makes of its reply. The numbers of Lua are doubles, which hold
milliseconds up to 2^53 exactly; longer times are not rounded here. Logging is left out. -/
namespace CorePlatform

/-- The value of a counter key. Redis deletes it at the time of its expiry. -/
structure Counter where
  value : Nat
  expiresAt : Option Nat := none
  deriving DecidableEq

abbrev Redis := String → Option Counter

namespace Redis

variable (redis : Redis) (now : Nat) (key : String)

def set (counter : Option Counter) : Redis :=
  fun other => if other = key then counter else redis other

/-- `GET`, the counter that has not expired. -/
def get : Option Counter := (redis key).filter fun counter => counter.expiresAt.all (now < ·)

def incr : Nat × Redis :=
  match redis.get now key with
  | none => (1, redis.set key (some { value := 1 }))
  | some counter =>
      (counter.value + 1, redis.set key (some { counter with value := counter.value + 1 }))

/-- The integer that a command reads of a number of a script: Redis writes whole numbers of that
size as integers, and others with a point or an exponent, which no command takes for an integer. -/
def integer? : Number → Option Int
  | .finite q => if q.den = 1 ∧ |q| ≤ 2 ^ 62 then some q.num else none
  | _ => none

/-- The integer that a number of a script is in its reply: what is in front of the fraction. -/
def replyInteger : Number → Int
  | .finite q => if |q| < 2 ^ 63 then q.num.tdiv q.den else -2 ^ 63
  | _ => -2 ^ 63

/-- A key that is to expire at once is deleted. -/
def pexpire (ms : Int) : Redis :=
  match redis.get now key with
  | none => redis
  | some counter =>
    redis.set key
      (if ms ≤ 0 then none else some { counter with expiresAt := some (now + ms.toNat) })

/-- The remaining milliseconds, -1 without an expiry, -2 without a key. -/
def pttl : Int :=
  match redis.get now key with
  | none => -2
  | some counter => match counter.expiresAt with
    | none => -1
    | some expiresAt => Int.ofNat expiresAt - now

def del : Redis := redis.set key none

@[simp] theorem set_self (counter : Option Counter) : redis.set key counter key = counter :=
  if_pos rfl

@[simp] theorem set_set (counter counter' : Option Counter) :
    (redis.set key counter).set key counter' = redis.set key counter' := by
  funext other
  by_cases same : other = key
  · simp only [set, same, if_true]
  · simp only [set, same, if_false]

@[simp] theorem get_set (counter : Counter) : (redis.set key (some counter)).get now key =
    if counter.expiresAt.all (now < ·) then some counter else none := by
  rw [get, set_self, Option.filter]

theorem set_other {other : String} (counter : Option Counter) (different : other ≠ key) :
    redis.set key counter other = redis other := if_neg different

end Redis

/-- `[allowed, count, ttl]` -/
structure ScriptReply where
  allowed : Nat
  count : Nat
  ttlMs : Int
  deriving DecidableEq

/-- An error reply is `none`. It ends the script, and what the script has written stays. -/
def RATE_LIMIT_LUA_SCRIPT (key : String) (limit : Nat) (window : Number) (now : Nat)
    (redis : Redis) : Option ScriptReply × Redis :=
  let current := ((redis.get now key).map Counter.value).getD 0
  if current ≥ limit then
    let ttl := redis.pttl now key
    (some ⟨0, current, if ttl < 0 then Redis.replyInteger window else ttl⟩, redis)
  else
    let (count, redis) := redis.incr now key
    if count = 1 then
      match Redis.integer? window with
      | none => (none, redis)
      | some ms =>
        let redis := redis.pexpire now key ms
        (some ⟨1, count, redis.pttl now key⟩, redis)
    else (some ⟨1, count, redis.pttl now key⟩, redis)

structure RateLimitResult where
  allowed : Bool
  count : Nat
  remaining : Nat
  retryAfterMs : Int
  deriving DecidableEq

structure RateLimiterOptions where
  keyPrefix : String := "rl"
  disabled : Bool := false

namespace RateLimiterService

variable (options : RateLimiterOptions)

def fullKey (key : String) : String := options.keyPrefix ++ ":" ++ key

/-- `windowSeconds * 1000` -/
def windowMs (windowSeconds : Number) : Number := windowSeconds.mul (.finite 1000)

/-- What `check` gives where it has no reply. -/
def failedOpen (limit : Nat) : RateLimitResult :=
  { allowed := true, count := 0, remaining := limit, retryAfterMs := 0 }

/-- `check(key, limit, windowSeconds)`. The script reads the window from the text of the number,
which is the number again. Where Redis does not answer, or with an error, the request is allowed. -/
def check (redisUp : Bool) (key : String) (limit : Nat) (windowSeconds : Number) (now : Nat)
    (redis : Redis) : RateLimitResult × Redis :=
  if options.disabled then (failedOpen limit, redis)
  else if redisUp then
    match RATE_LIMIT_LUA_SCRIPT (fullKey options key) limit (windowMs windowSeconds) now redis with
    | (none, redis) => (failedOpen limit, redis)
    | (some reply, redis) =>
      ({ allowed := reply.allowed = 1, count := reply.count, remaining := limit - reply.count
         retryAfterMs := if reply.allowed = 1 then 0 else max 0 reply.ttlMs }, redis)
  else (failedOpen limit, redis)

def reset (key : String) (redis : Redis) : Redis := redis.del (fullKey options key)

theorem fullKey_inj {key key' : String} (same : fullKey options key = fullKey options key') :
    key = key' :=
  (String.append_right_inj _).mp same

end RateLimiterService
end CorePlatform
