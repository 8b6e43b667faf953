import CorePlatform.Async.Pool
import CorePlatform.Common.Errors
import CorePlatform.Common.Jwt
import CorePlatform.Common.Security
import CorePlatform.Relational.Table

/-! The auth-service database and the atomic commands its services issue. A filter
field that is `none` is a filter value that is `undefined` in the code: the database
client treats it as absent. A command of the database may also be rejected, without
effect; `findFirst` may return any matching row. -/
namespace CorePlatform.Auth
open Async Relational

structure User where
  id : String
  email : String
  passwordHash : Argon2Hash String
  permVersion : Int := 1
  name : Option String := none
  phone : Option String := none
  isActive : Bool := true
  createdAt : Nat
  deriving DecidableEq

structure EmailOtp where
  id : String
  userId : String
  codeHash : String
  expiresAt : Nat
  isUsed : Bool := false
  deriving DecidableEq

/-- What `getDeviceData` reads off a request. -/
structure DeviceData where
  ip : Option String := none
  deviceName : Option String := none
  userAgent : Option String := none
  deriving DecidableEq

structure RefreshToken where
  id : String
  userId : String
  tokenHash : Argon2Hash Token
  revokedAt : Option Nat := none
  expiresAt : Nat
  deviceId : String
  device : DeviceData := {}
  deriving DecidableEq

structure PasswordReset where
  id : String
  userId : String
  tokenHash : Argon2Hash String
  expiresAt : Nat
  used : Bool := false
  deriving DecidableEq

structure Db where
  users : Table User.id := .empty
  emailOtps : Table EmailOtp.id := .empty
  refreshTokens : Table RefreshToken.id := .empty
  passwordResets : Table PasswordReset.id := .empty
  /-- `email` is unique. -/
  emails : (users.rows.map User.email).Nodup := by decide

structure UserWhere where
  id : Option String := none
  email : Option String := none
  isActive : Option Bool := none

def UserWhere.holds (w : UserWhere) (u : User) : Bool :=
  w.id.all (· == u.id) && w.email.all (· == u.email) && w.isActive.all (· == u.isActive)

structure EmailOtpWhere where
  userId : Option String := none
  codeHash : Option String := none
  expiresAfter : Option Nat := none

def EmailOtpWhere.holds (w : EmailOtpWhere) (otp : EmailOtp) : Bool :=
  w.userId.all (· == otp.userId) && w.codeHash.all (· == otp.codeHash) &&
    w.expiresAfter.all (· < otp.expiresAt)

/-- `live` is the filter `revokedAt: null`, `permVersion` the filter on the related
user. -/
structure RefreshTokenWhere where
  id : Option String := none
  userId : Option String := none
  deviceId : Option String := none
  live : Bool := false
  expiresAfter : Option Nat := none
  permVersion : Option Int := none
  deriving DecidableEq

def RefreshTokenWhere.holds (w : RefreshTokenWhere) (users : Table User.id)
    (row : RefreshToken) : Bool :=
  w.id.all (· == row.id) && w.userId.all (· == row.userId) && w.deviceId.all (· == row.deviceId) &&
    (!w.live || row.revokedAt.isNone) && w.expiresAfter.all (· < row.expiresAt) &&
      w.permVersion.all fun v => users.rows.any fun u => u.id == row.userId && u.permVersion == v

structure PasswordResetWhere where
  userId : Option String := none
  expiresAfter : Option Nat := none
  used : Option Bool := none

def PasswordResetWhere.holds (w : PasswordResetWhere) (row : PasswordReset) : Bool :=
  w.userId.all (· == row.userId) && w.expiresAfter.all (· < row.expiresAt) &&
    w.used.all (· == row.used)

structure RefreshTokenData where
  userId : String
  tokenHash : Argon2Hash Token
  deviceId : Option String
  device : DeviceData
  expiresAt : Nat

inductive Cookie where
  | refreshToken (value : Token) (maxAge : Int)
  | deviceId (value : Option String)

/-- The jobs handed to the mail queue. -/
structure MailJob where
  name : String
  email : String
  token : String
  userId : String
  expiresAt : Nat
  deriving DecidableEq

structure UserRegisteredEvent where
  userId : String
  email : String
  code : String
  createdAt : Nat
  requestId : Option String := none
  deriving DecidableEq

inductive Cmd where
  | now
  | randomUUID
  | randomCode
  | randomBytes16
  | argon2Salt
  | userFindFirst (w : UserWhere)
  | userFindUnique (w : UserWhere)
  | userCreate (email : String) (passwordHash : Argon2Hash String) (name phone : Option String)
      (isActive : Bool)
  | userActivate (id : String)
  | userSetPassword (id : String) (passwordHash : Argon2Hash String)
  | emailOtpUpsert (userId codeHash : String) (expiresAt : Nat)
  | emailOtpFindFirst (w : EmailOtpWhere)
  | emailOtpUse (id : String)
  | refreshTokenFindFirst (w : RefreshTokenWhere)
  | refreshTokenFindFirstWithUser (w : RefreshTokenWhere)
  | refreshTokenUpdate (id : String) (tokenHash : Argon2Hash Token) (expiresAt : Nat)
  | refreshTokenRevokeMany (w : RefreshTokenWhere) (revokedAt : Nat)
  | refreshTokenCreate (data : RefreshTokenData)
  | passwordResetCreate (userId : String) (tokenHash : Argon2Hash String) (expiresAt : Nat)
  | passwordResetFindFirst (w : PasswordResetWhere)
  | passwordResetUse (id : String)
  | passwordResetDelete (id : String)
  | queueAdd (job : MailJob)
  | natsPublish (event : UserRegisteredEvent)
  | setCookie (cookie : Cookie)
  | clearCookie (name : String)

@[reducible] def Cmd.Resp : Cmd → Type
  | .now => Nat
  | .randomUUID | .argon2Salt => String
  | .randomCode => RandomCode
  | .randomBytes16 => Vector UInt8 16
  | .userFindFirst _ | .userFindUnique _ => Option User
  | .userCreate .. => User
  | .emailOtpFindFirst _ => Option EmailOtp
  | .refreshTokenFindFirst _ => Option RefreshToken
  | .refreshTokenFindFirstWithUser _ => Option (RefreshToken × User)
  | .refreshTokenRevokeMany .. => Nat
  | .passwordResetFindFirst _ => Option PasswordReset
  | .userActivate _ | .userSetPassword .. | .emailOtpUpsert .. | .emailOtpUse _
  | .refreshTokenUpdate .. | .refreshTokenCreate _ | .passwordResetCreate .. | .passwordResetUse _
  | .passwordResetDelete _ | .queueAdd _ | .natsPublish _ | .setCookie _ | .clearCookie _ => Unit

abbrev Api : Interface := ⟨Cmd, Cmd.Resp⟩

/-- The state shared by the calls: the database, the clock in milliseconds, the random
identifiers drawn so far, and what was handed to the queue and to the event bus. -/
structure Store where
  db : Db := {}
  now : Nat := 0
  drawn : List String := []
  jobs : List MailJob := []
  events : List UserRegisteredEvent := []

/-- What a command leaves open: whether the backend rejects it, which of the matching
rows is returned, and the value of a random draw. -/
structure Choice where
  fault : Bool := false
  pick : Nat := 0
  draw : String := ""
  bytes : Vector UInt8 16 := Vector.replicate 16 0

instance : Inhabited Choice := ⟨{}⟩

/-- `NatsService.publish` catches the errors of the connection. -/
def Cmd.canFail : Cmd → Bool
  | .now | .randomUUID | .randomCode | .randomBytes16 | .argon2Salt | .natsPublish _ | .setCookie _
  | .clearCookie _ => false
  | _ => true

/-- Any of the matching rows. -/
def pickFrom (rows : List α) (choice : Choice) : Option α := rows[choice.pick % rows.length]?

theorem pickFrom_mem {rows : List α} {choice : Choice} (picked : pickFrom rows choice = some row) :
    row ∈ rows := List.mem_of_getElem? picked

theorem pickFrom_none {rows : List α} {choice : Choice} (picked : pickFrom rows choice = none) :
    rows = [] := by
  simp only [pickFrom, List.getElem?_eq_none_iff] at picked
  refine Decidable.byContradiction fun nonempty => ?_
  have := Nat.mod_lt choice.pick (List.length_pos_iff.mpr nonempty)
  omega

def unreachable : Exn := .error none "Can't reach database server"

namespace Store

variable (s : Store)

def updateUser (id : String) (f : User → User) (same : ∀ u, (f u).id = u.id := by intro u; rfl)
    (email : ∀ u, (f u).email = u.email := by intro u; rfl) : Store :=
  { s with db := { s.db with
      users := s.db.users.update (·.id = id) f same
      emails := by rw [Table.map_update email]; exact s.db.emails } }

/-- A new user, unless the identifier is taken; an email in use is a violation of its
unique key. -/
def createUser (user : User) : Option (Except Exn User × Store) :=
  if fresh : user.email ∉ s.db.users.rows.map User.email then
    match inserted : s.db.users.insert? user with
    | some users => some (.ok user, { s with db := { s.db with
        users, emails := by
          rw [Table.insert?_rows inserted, List.map_cons]
          exact List.nodup_cons.mpr ⟨fresh, s.db.emails⟩ } })
    | none => none
  else some (.error uniqueViolation, s)

def setEmailOtps (emailOtps : Table EmailOtp.id) : Store := { s with db := { s.db with emailOtps } }

def setRefreshTokens (refreshTokens : Table RefreshToken.id) : Store :=
  { s with db := { s.db with refreshTokens } }

def revokeMany (w : RefreshTokenWhere) (revokedAt : Nat) : Store :=
  s.setRefreshTokens (s.db.refreshTokens.update (w.holds s.db.users) fun row =>
    { row with revokedAt := some revokedAt })

def setPasswordResets (passwordResets : Table PasswordReset.id) : Store :=
  { s with db := { s.db with passwordResets } }

/-- The reply to an `update` or `delete` of one row. -/
def affected (table : Option α) (set : α → Store) : Except Exn Unit × Store :=
  match table with
  | some table => (.ok (), set table)
  | none => (.error notFound, s)

end Store

/-- Commands once they are not rejected by the backend. A new row gets any identifier
that is not in use. -/
def execTotal : (c : Cmd) → Choice → Store → Option (Except Exn c.Resp × Store)
  | .now, _, s => some (.ok s.now, s)
  | .randomUUID, ch, s =>
    if ch.draw ∈ s.drawn then none else some (.ok ch.draw, { s with drawn := ch.draw :: s.drawn })
  | .randomCode, ch, s =>
      if short : ch.draw.length ≤ 13 then some (.ok ⟨ch.draw, short⟩, s) else none
  | .randomBytes16, ch, s => some (.ok ch.bytes, s)
  | .argon2Salt, ch, s => some (.ok ch.draw, s)
  | .userFindFirst w, ch, s => some (.ok (pickFrom (s.db.users.rows.filter w.holds) ch), s)
  | .userFindUnique w, ch, s =>
    if w.id.isNone && w.email.isNone then
      some (.error (.error none "Argument `where` needs at least one of `id` or `email`."), s)
    else some (.ok (pickFrom (s.db.users.rows.filter w.holds) ch), s)
  | .userCreate email passwordHash name phone isActive, ch, s =>
    s.createUser { id := ch.draw, email, passwordHash, name, phone, isActive, createdAt := s.now }
  | .userActivate id, _, s =>
    if id ∈ s.db.users.rows.map User.id then
      some (.ok (), s.updateUser id fun u => { u with isActive := true })
    else some (.error notFound, s)
  | .userSetPassword id passwordHash, _, s =>
    if id ∈ s.db.users.rows.map User.id then
      some (.ok (), s.updateUser id fun u => { u with passwordHash })
    else some (.error notFound, s)
  | .emailOtpUpsert userId codeHash expiresAt, ch, s =>
    if s.db.emailOtps.rows.any (·.userId = userId) then
      some (.ok (), s.setEmailOtps (s.db.emailOtps.update (·.userId = userId) fun otp =>
        { otp with codeHash, expiresAt }))
    else (s.db.emailOtps.insert? { id := ch.draw, userId, codeHash, expiresAt }).map fun otps =>
      (.ok (), s.setEmailOtps otps)
  | .emailOtpFindFirst w, ch, s => some (.ok (pickFrom (s.db.emailOtps.rows.filter w.holds) ch), s)
  | .emailOtpUse id, _, s =>
    some (s.affected (s.db.emailOtps.modify? id fun otp =>
      { otp with isUsed := true }) s.setEmailOtps)
  | .refreshTokenFindFirst w, ch, s =>
    some (.ok (pickFrom (s.db.refreshTokens.rows.filter (w.holds s.db.users)) ch), s)
  | .refreshTokenFindFirstWithUser w, ch, s =>
    some (.ok (pickFrom ((s.db.refreshTokens.rows.filter (w.holds s.db.users)).filterMap fun row =>
      (s.db.users.rows.find? (·.id = row.userId)).map (row, ·)) ch), s)
  | .refreshTokenUpdate id tokenHash expiresAt, _, s =>
    some (s.affected (s.db.refreshTokens.modify? id fun row => { row with tokenHash, expiresAt })
      s.setRefreshTokens)
  | .refreshTokenRevokeMany w revokedAt, _, s =>
    some (.ok (s.db.refreshTokens.rows.countP (w.holds s.db.users)), s.revokeMany w revokedAt)
  | .refreshTokenCreate data, ch, s =>
    match data.deviceId with
    | none => some (.error (.error none "Argument `deviceId` is missing."), s)
    | some deviceId =>
      (s.db.refreshTokens.insert?
        { id := ch.draw, userId := data.userId, tokenHash := data.tokenHash
          expiresAt := data.expiresAt, deviceId, device := data.device }).map fun rows =>
        (.ok (), s.setRefreshTokens rows)
  | .passwordResetCreate userId tokenHash expiresAt, ch, s =>
    (s.db.passwordResets.insert? { id := ch.draw, userId, tokenHash, expiresAt }).map fun rows =>
      (.ok (), s.setPasswordResets rows)
  | .passwordResetFindFirst w, ch, s =>
    some (.ok (pickFrom (s.db.passwordResets.rows.filter w.holds) ch), s)
  | .passwordResetUse id, _, s =>
    some (s.affected (s.db.passwordResets.modify? id fun row => { row with used := true })
      s.setPasswordResets)
  | .passwordResetDelete id, _, s =>
    some (s.affected (s.db.passwordResets.remove? id) s.setPasswordResets)
  | .queueAdd job, _, s => some (.ok (), { s with jobs := job :: s.jobs })
  | .natsPublish event, _, s => some (.ok (), { s with events := event :: s.events })
  | .setCookie _, _, s => some (.ok (), s)
  | .clearCookie _, _, s => some (.ok (), s)

def exec (c : Cmd) (ch : Choice) (s : Store) : Option (Except Exn c.Resp × Store) :=
  if ch.fault then if c.canFail then some (.error unreachable, s) else none
  else execTotal c ch s

section Sessions

variable {s : Store} {w : RefreshTokenWhere} {revokedAt : Nat}

theorem mem_revokeMany {row : RefreshToken} : row ∈ (s.revokeMany w revokedAt).db.refreshTokens ↔
    ∃ old ∈ s.db.refreshTokens,
      (if w.holds s.db.users old then { old with revokedAt := some revokedAt } else old) = row := by
  simp only [Store.revokeMany, Store.setRefreshTokens, Table.mem_update]

theorem holds_live (userId deviceId : Option String) (row : RefreshToken) :
    RefreshTokenWhere.holds { userId, deviceId, live := true } s.db.users row ↔
      (∀ u, userId = some u → u = row.userId) ∧ (∀ d, deviceId = some d → d = row.deviceId) ∧
        row.revokedAt = none := by
  simp [RefreshTokenWhere.holds, Option.all_eq_true, and_assoc]

theorem holds_deviceId {row : RefreshToken} {d : String} (matching : w.holds s.db.users row)
    (given : w.deviceId = some d) : d = row.deviceId := by
  simp only [RefreshTokenWhere.holds, given, Option.all_some, Bool.and_eq_true,
    beq_iff_eq] at matching
  exact matching.1.1.1.2

theorem holds_id (id : String) (row : RefreshToken) :
    RefreshTokenWhere.holds { id := some id } s.db.users row ↔ id = row.id := by
  simp [RefreshTokenWhere.holds]

end Sessions

def semantics : Semantics Api Exn Store := ⟨Choice, exec⟩

end CorePlatform.Auth
