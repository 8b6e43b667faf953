import CorePlatform.Async.Logic
import CorePlatform.Common.Errors
import CorePlatform.Relational.Table
import Mathlib.Logic.Function.Basic

/-! The data of keyed registration: the table of idempotency records that all gateway
instances share, the response cache of each instance, and the atomic commands on them. -/
namespace CorePlatform.Gateway
open Async Relational

/-- A JSON value, as a parsed reply or a column holds it: never `undefined`. -/
abbrev Json := { v : Js // v ≠ .undefined }

/-- A generated identifier, never empty. -/
abbrev RecordId := { id : String // id ≠ "" }

inductive IdempotencyStatus where
  | processing
  | completed
  | failed
  deriving DecidableEq

structure IdempotencyRecord where
  id : RecordId
  key : String
  requestHash : String
  status : IdempotencyStatus
  responseStatus : Option Nat := none
  /-- The column is nullable; without a value it reads as `null`. -/
  responseBody : Json := ⟨.null, Js.null_ne_undefined⟩
  expiresAt : Nat
  deriving DecidableEq

structure Db where
  records : Table IdempotencyRecord.id := .empty
  /-- `IdempotencyRecord.key` is unique. -/
  keys : (records.rows.map IdempotencyRecord.key).Nodup := by decide

/-- The fields an update sets; the others stay. -/
structure RecordUpdate where
  status : IdempotencyStatus
  responseStatus : Option Nat
  responseBody : Option Json := none
  expiresAt : Option Nat := none

def RecordUpdate.apply (data : RecordUpdate) (record : IdempotencyRecord) : IdempotencyRecord :=
  { record with
    status := data.status
    responseStatus := data.responseStatus
    responseBody := data.responseBody.getD record.responseBody
    expiresAt := data.expiresAt.getD record.expiresAt }

@[simp] theorem RecordUpdate.apply_id (data : RecordUpdate) (record : IdempotencyRecord) :
    (data.apply record).id = record.id := rfl

@[simp] theorem RecordUpdate.apply_key (data : RecordUpdate) (record : IdempotencyRecord) :
    (data.apply record).key = record.key := rfl

@[simp] theorem RecordUpdate.apply_status (data : RecordUpdate) (record : IdempotencyRecord) :
    (data.apply record).status = data.status := rfl

namespace Db

variable (db : Db)

def findUnique (key : String) : Option IdempotencyRecord := db.records.rows.find? (·.key = key)

def update (id : String) (data : RecordUpdate) : Db where
  records := db.records.update (·.id.val = id) data.apply data.apply_id
  keys := by
    rw [Table.map_update data.apply_key]
    exact db.keys

/-- A new record, unless its identifier is taken. -/
def create (record : IdempotencyRecord) : Option (Except Exn IdempotencyRecord × Db) :=
  match db.records.insert? record with
  | none => none
  | some records =>
    if keys : (records.rows.map IdempotencyRecord.key).Nodup then
      some (.ok record, { records, keys })
    else some (.error uniqueViolation, db)

variable {db} {record record' : IdempotencyRecord}

/-- A key determines its record. -/
theorem eq_of_recordKey (found : record ∈ db.records) (found' : record' ∈ db.records)
    (same : record.key = record'.key) : record = record' := by
  have byKey : record ∈ (⟨db.records.rows, db.keys⟩ : Table IdempotencyRecord.key) := found
  exact Table.eq_of_key byKey found' same

theorem findUnique_spec {key : String} (found : db.findUnique key = some record) :
    record ∈ db.records ∧ record.key = key := by
  have member := List.mem_of_find?_eq_some found
  have matched := List.find?_some found
  exact ⟨member, of_decide_eq_true matched⟩

theorem findUnique_eq {key : String} (found : record ∈ db.records) (keyed : record.key = key) :
    db.findUnique key = some record := by
  cases searched : db.findUnique key with
  | none =>
    have absent := List.find?_eq_none.mp searched record found
    simp [keyed] at absent
  | some other =>
    obtain ⟨member, same⟩ := findUnique_spec searched
    rw [eq_of_recordKey found member (keyed.trans same.symm)]

theorem mem_update {id : String} {data : RecordUpdate} : record ∈ (db.update id data).records ↔
    ∃ old ∈ db.records, (if old.id.val = id then data.apply old else old) = record := by
  rw [update, Table.mem_update data.apply_id]
  simp only [decide_eq_true_eq]

/-- The outcome of a creation: the key was free and the record is new, or nothing changed. -/
theorem create_spec {r : Except Exn IdempotencyRecord} {db' : Db}
    (created : db.create record = some (r, db')) :
    (r = .ok record ∧ (∀ other ∈ db.records, other.id ≠ record.id) ∧
      ∀ other, other ∈ db'.records ↔ other = record ∨ other ∈ db.records) ∨
    (r = .error uniqueViolation ∧ db' = db) := by
  unfold create at created
  split at created
  · contradiction
  · rename_i records inserted
    split at created
    · obtain ⟨rfl, rfl⟩ := Prod.mk.inj (Option.some.inj created)
      exact .inl ⟨rfl, fun other found => Table.insert?_fresh inserted found, fun other =>
        Table.mem_insert? inserted⟩
    · obtain ⟨rfl, rfl⟩ := Prod.mk.inj (Option.some.inj created)
      exact .inr ⟨rfl, rfl⟩

/-- A free key is not refused. -/
theorem create_free {r : Except Exn IdempotencyRecord} {db' : Db}
    (free : db.findUnique record.key = none) (created : db.create record = some (r, db')) :
    r = .ok record := by
  unfold create at created
  split at created
  · contradiction
  · rename_i records inserted
    have keys : (records.rows.map IdempotencyRecord.key).Nodup := by
      rw [Table.insert?_rows inserted, List.map_cons, List.nodup_cons]
      refine ⟨fun taken => ?_, db.keys⟩
      obtain ⟨other, found, same⟩ := List.mem_map.mp taken
      have absent := List.find?_eq_none.mp free other found
      simp [same] at absent
    rw [dif_pos keys] at created
    exact (Prod.mk.inj (Option.some.inj created)).1.symm

/-- A creation under a free identifier goes through. -/
theorem create_some (fresh : ∀ other ∈ db.records, other.id ≠ record.id) :
    (db.create record).isSome := by
  obtain ⟨records, inserted⟩ := Option.isSome_iff_exists.mp (Table.insert?_of_fresh fresh)
  unfold create
  rw [inserted]
  dsimp only
  split <;> rfl

end Db

structure CacheEntry where
  response : Json
  expiresAt : Nat

/-- The `Map` of an instance. -/
abbrev Cache := String → Option CacheEntry

/-- `IdempotencyService.getFromCache` at `now`, with the cache it leaves. -/
def getFromCache (cache : Cache) (key : String) (now : Nat) : Json × Cache :=
  match cache key with
  | none => (⟨.null, Js.null_ne_undefined⟩, cache)
  | some cached =>
    if now > cached.expiresAt then (⟨.null, Js.null_ne_undefined⟩, Function.update cache key none)
    else (cached.response, cache)

/-- `IdempotencyService.setCache` at `now`. -/
def setCache (cache : Cache) (key : String) (response : Json) (ttlMs now : Nat) : Cache :=
  Function.update cache key (some { response, expiresAt := now + ttlMs })

/-- Looking up a key adds no entry. -/
theorem getFromCache_drops {cache : Cache} {key other : String} {now : Nat} {entry : CacheEntry}
    (cached : (getFromCache cache other now).2 key = some entry) : cache key = some entry := by
  unfold getFromCache at cached
  split at cached
  · exact cached
  · split at cached
    · simp only [Function.update_apply] at cached
      split at cached
      · contradiction
      · exact cached
    · exact cached

/-- The reply of the auth service to a registration, whatever its status. -/
structure HttpReply where
  status : Nat
  data : Json
  deriving DecidableEq

inductive Cmd where
  | now
  | cacheGet (gateway : Nat) (key : String)
  | cacheSet (gateway : Nat) (key : String) (response : Json) (ttlMs : Nat)
  | recordFindUnique (key : String)
  | recordUpdate (id : String) (data : RecordUpdate)
  | recordCreate (key requestHash : String) (expiresAt : Nat)
  | httpRegister (registerDto : List (String × Js))

@[reducible] def Cmd.Resp : Cmd → Type
  | .now => Nat
  | .cacheGet .. => Json
  | .cacheSet .. => Unit
  | .recordFindUnique _ => Option IdempotencyRecord
  | .recordUpdate .. | .recordCreate .. => IdempotencyRecord
  | .httpRegister _ => HttpReply

abbrev Api : Interface := ⟨Cmd, Cmd.Resp⟩

theorem Db.no_keys :
    ((Table.empty : Table IdempotencyRecord.id).rows.map IdempotencyRecord.key).Nodup := by decide

/-- The shared table, the clock, and the cache of each gateway instance. -/
structure Store where
  db : Db := { keys := Db.no_keys }
  now : Nat := 0
  caches : Nat → Cache := fun _ _ => none

theorem sampleId_filled : "r" ≠ "" := by decide

/-- What a command leaves open: the error it is rejected with, the reply of the auth
service, and the identifier of a new record. -/
structure Choice where
  fault : Option Exn := none
  reply : HttpReply := { status := 201, data := ⟨.obj [], Js.emptyObject_ne_undefined⟩ }
  draw : RecordId := ⟨"r", sampleId_filled⟩

/-- Commands on the clock and the cache of the own process cannot fail. -/
def Cmd.canFail : Cmd → Bool
  | .now | .cacheGet .. | .cacheSet .. => false
  | .recordFindUnique _ | .recordUpdate .. | .recordCreate .. | .httpRegister _ => true

namespace Store

variable (s : Store)

def setDb (db : Db) : Store := { s with db }

def setGatewayCache (gateway : Nat) (cache : Cache) : Store :=
  { s with caches := Function.update s.caches gateway cache }

@[simp] theorem db_setDb (db : Db) : (s.setDb db).db = db := rfl

@[simp] theorem caches_setDb (db : Db) : (s.setDb db).caches = s.caches := rfl

@[simp] theorem db_setGatewayCache (gateway : Nat) (cache : Cache) :
    (s.setGatewayCache gateway cache).db = s.db := rfl

@[simp] theorem caches_setGatewayCache (gateway : Nat) (cache : Cache) :
    (s.setGatewayCache gateway cache).caches = Function.update s.caches gateway cache := rfl

end Store

/-- Commands once they are not rejected by their backend. -/
def execTotal : (c : Cmd) → Choice → Store → Option (Except Exn c.Resp × Store)
  | .now, _, s => some (.ok s.now, s)
  | .cacheGet gateway key, _, s =>
    let (response, cache) := getFromCache (s.caches gateway) key s.now
    some (.ok response, s.setGatewayCache gateway cache)
  | .cacheSet gateway key response ttlMs, _, s =>
    some (.ok (), s.setGatewayCache gateway (setCache (s.caches gateway) key response ttlMs s.now))
  | .recordFindUnique key, _, s => some (.ok (s.db.findUnique key), s)
  | .recordUpdate id data, _, s =>
    match s.db.records.rows.find? (·.id.val = id) with
    | none => some (.error notFound, s)
    | some record => some (.ok (data.apply record), s.setDb (s.db.update id data))
  | .recordCreate key requestHash expiresAt, ch, s =>
    (s.db.create { id := ch.draw, key, requestHash, status := .processing, expiresAt }).map
      fun (r, db) =>
      (r, s.setDb db)
  | .httpRegister _, ch, s => some (.ok ch.reply, s)

def exec (c : Cmd) (ch : Choice) (s : Store) : Option (Except Exn c.Resp × Store) :=
  match ch.fault with
  | none => execTotal c ch s
  | some e => if c.canFail then some (.error e, s) else none

@[reducible] def semantics : Semantics Api Exn Store := ⟨Choice, exec⟩

end CorePlatform.Gateway
