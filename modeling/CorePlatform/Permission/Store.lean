import CorePlatform.Common.Js
import CorePlatform.Async.Journal

/-! What the permission package of the common library reaches: the Redis hashes of
`PermissionCache` and the permission route of the auth service. Every reply of the auth
service and every rejection is possible at any time; a rejected Redis command may have
been carried out all the same. -/
namespace CorePlatform.Permission
open Async

/-- Functions of the platform, left open. -/
structure Platform where
  /-- `JSON.parse`, absent where it throws. -/
  parse : String → Option Js
  /-- The text of `parseInt(s)`. -/
  parseInt : String → String
  /-- `s > 0`, for a string or the text of a number. -/
  positive : String → Bool

/-- What `JSON.parse` is relied on for: an array it has read is serialised to a text that it
reads as an array again, and no string is new in it. -/
structure Platform.Lawful (platform : Platform) : Prop where
  again : ∀ body xs text, platform.parse body = some (.arr xs) → (Js.arr xs).stringify = some text →
    ∃ ys, platform.parse text = some (.arr ys) ∧ ∀ p, .str p ∈ ys → .str p ∈ xs
  empty : platform.parse "[]" = some (.arr [])

/-- The fields of a cached entry that are read. -/
structure Hash where
  permVersion : Option String
  permissions : Option String
  deriving DecidableEq

/-- What a rejected command is rejected with, as far as a `catch` clause reads it: `response`
is the status of a reply that came with the error, `request` says that a request was sent. -/
structure Thrown where
  code : Option String := none
  response : Option Nat := none
  request : Bool := false
  message : String
  deriving DecidableEq

inductive Failure where
  /-- A framework `HttpException`. -/
  | http (status : Nat) (message : String)
  | other (e : Thrown)
  deriving DecidableEq

structure HttpReply where
  status : Nat
  statusText : String
  body : String
  deriving DecidableEq

/-- `response.data`: the parsed body, or the text of a body that is not JSON. -/
def HttpReply.data (platform : Platform) (reply : HttpReply) : Js :=
  (platform.parse reply.body).getD (.str reply.body)

/-- An array can only have been parsed. -/
theorem HttpReply.parsed {platform : Platform} (reply : HttpReply) {xs : List Js}
    (data : reply.data platform = .arr xs) :
    platform.parse reply.body = some (.arr xs) := by
  rw [HttpReply.data] at data
  cases parsed : platform.parse reply.body with
  | none =>
    rw [parsed] at data
    contradiction
  | some v =>
    rw [parsed] at data
    rw [show v = _ from data]

inductive Cmd where
  | hgetall (key : String)
  | hset (key : String) (hash : Hash)
  | exists (key : String)
  | del (key : String)
  | flushall
  | httpGet (userId : String)
  deriving DecidableEq

@[reducible] def Cmd.Resp : Cmd → Type
  | .hgetall _ => Option Hash
  | .exists _ => Bool
  | .httpGet _ => HttpReply
  | .hset .. | .del _ | .flushall => Unit

abbrev Api : Interface := ⟨Cmd, Cmd.Resp⟩

abbrev Redis := String → Option Hash

namespace Redis

def empty : Redis := fun _ => none

def IsEmpty (redis : Redis) : Prop := redis = empty

def hset (redis : Redis) (key : String) (hash : Hash) : Redis :=
  fun k => if k = key then some hash else redis k

def del (redis : Redis) (key : String) : Redis := fun k => if k = key then none else redis k

@[simp] theorem hset_apply (redis : Redis) (key k : String) (hash : Hash) :
    redis.hset key hash k = if k = key then some hash else redis k := rfl

@[simp] theorem del_apply (redis : Redis) (key k : String) :
    redis.del key k = if k = key then none else redis k := rfl

end Redis

/-- What a command leaves open: the error it is rejected with, whether Redis carried it out
before that, and the reply of the auth service. -/
structure Choice where
  fault : Option Thrown := none
  applied : Bool := false
  reply : HttpReply := ⟨200, "OK", "[]"⟩

instance : Inhabited Choice := ⟨{}⟩

def execTotal : (c : Cmd) → Choice → Redis → c.Resp × Redis
  | .hgetall key, _, redis => (redis key, redis)
  | .hset key hash, _, redis => ((), redis.hset key hash)
  | .exists key, _, redis => ((redis key).isSome, redis)
  | .del key, _, redis => ((), redis.del key)
  | .flushall, _, _ => ((), Redis.empty)
  | .httpGet _, ch, redis => (ch.reply, redis)

def exec (c : Cmd) (ch : Choice) (redis : Redis) : Option (Except Failure c.Resp × Redis) :=
  let (r, redis') := execTotal c ch redis
  match ch.fault with
  | none => some (.ok r, redis')
  | some e => some (.error (.other e), if ch.applied then redis' else redis)

def semantics : Semantics Api Failure Redis := ⟨Choice, exec⟩

/-- What can befall an entry from outside: it is evicted, or damaged so that nothing can be
read from it. -/
inductive Act where
  | evict (key : String)
  | damage (key : String) (hash : Hash)
  deriving DecidableEq

/-- No list can be read from the entry. -/
def Hash.Corrupt (platform : Platform) (hash : Hash) : Prop :=
  hash.permVersion = none ∨ (hash.permissions.bind platform.parse).isNone

instance (platform : Platform) (hash : Hash) : Decidable (hash.Corrupt platform) :=
  inferInstanceAs (Decidable (_ ∨ _))

def act (platform : Platform) : Act → Redis → Option Redis
  | .evict key, redis => some (redis.del key)
  | .damage key hash, redis => if hash.Corrupt platform then some (redis.hset key hash) else none

/-- The entries of `after` that were not there before. -/
def Writes (before after : Redis) (p : String → Hash → Prop) : Prop :=
  ∀ key hash, after key = some hash → before key = some hash ∨ p key hash

/-- A command adds no entry but the one that an `hset` writes. -/
theorem exec_writes {c : Cmd} {ch : Choice} {redis redis' : Redis} {r : Except Failure c.Resp}
    (executed : exec c ch redis = some (r, redis')) : Writes redis redis' fun key hash =>
      c = .hset key hash := by
  have total : Writes redis (execTotal c ch redis).2 fun key hash => c = .hset key hash := by
    intro key hash found
    cases c with
    | hset key' hash' =>
      simp only [execTotal, Redis.hset_apply] at found
      split at found
      · rename_i same
        cases found
        exact .inr (by rw [same])
      · exact .inl found
    | del key' =>
      simp only [execTotal, Redis.del_apply] at found
      split at found
      · contradiction
      · exact .inl found
    | flushall => contradiction
    | hgetall _ => exact .inl found
    | «exists» _ => exact .inl found
    | httpGet _ => exact .inl found
  simp only [exec] at executed
  split at executed
  · cases executed
    exact total
  · cases executed
    split
    · exact total
    · exact fun _ _ found => .inl found

theorem act_writes {platform : Platform} {a : Act} {redis redis' : Redis}
    (acted : act platform a redis = some redis') :
    Writes redis redis' fun _ hash => hash.Corrupt platform := by
  intro key hash found
  cases a with
  | evict key' =>
    cases acted
    simp only [Redis.del_apply] at found
    split at found
    · contradiction
    · exact .inl found
  | damage key' hash' =>
    simp only [act] at acted
    split at acted
    · rename_i corrupt
      cases acted
      simp only [Redis.hset_apply] at found
      split at found
      · cases found
        exact .inr corrupt
      · exact .inl found
    · contradiction

/-- What `hgetall` answers is the entry. -/
theorem exec_hgetall {key : String} {ch : Choice} {redis redis' : Redis} {found : Option Hash}
    (executed : exec (.hgetall key) ch redis = some (.ok found, redis')) : redis key = found := by
  simp only [exec] at executed
  split at executed
  · cases executed
    rfl
  · cases executed

end CorePlatform.Permission
