import CorePlatform.Permission.Service

/-! The guard lets a request through only on a list of the auth service that contains a
required permission: the answer in the same call, or an entry that another call wrote with the
answer it had, under the version that the request carries. Every other outcome is an exception. -/
namespace CorePlatform.Permission
open Async

abbrev PermissionEvent := Event Api Failure
abbrev PermissionPool := Pool Api Failure Call Bool Redis
abbrev PermissionJournal := Journal Api Failure Redis

/-- The user of the principal, as text. -/
def userText (user : Js) : String := (PermissionGuard.principalField user "userId").toText

/-- The version of the principal's permissions, as text. -/
def versionText (platform : Platform) (user : Js) : String :=
  (PermissionGuard.version platform (PermissionGuard.principalField user "permVersion")).toText

/-- The auth service returned the list for the user. -/
def Answered (platform : Platform) (trace : List PermissionEvent) (userId : String)
    (xs : List Js) : Prop :=
  ∃ reply, (⟨.httpGet userId, .ok reply⟩ : PermissionEvent) ∈ trace ∧ reply.status = 200 ∧
    reply.data platform = .arr xs

/-- An entry of the user under the version was read, with a text that parses to the value. -/
def Read (platform : Platform) (trace : List PermissionEvent)
    (userId version : String) (v : Js) : Prop :=
  ∃ hash text, (⟨.hgetall (PermissionCache.cacheKey userId), .ok (some hash)⟩ : PermissionEvent) ∈
    trace ∧
    hash.permVersion = some version ∧ hash.permissions = some text ∧ platform.parse text = some v

/-- Where a permission list comes from. -/
def Obtained (platform : Platform) (trace : List PermissionEvent)
    (userId version : String) (v : Js) : Prop :=
  (∃ xs, v = .arr xs ∧ Answered platform trace userId xs) ∨ Read platform trace userId version v

/-- Only the empty list and lists of the auth service are written. -/
def Point (platform : Platform) (trace : List PermissionEvent) : Cmd → Prop
  | .hset key hash =>
    (∃ version, hash = PermissionCache.entry version []) ∨
      ∃ userId version xs, key = PermissionCache.cacheKey userId ∧
      hash = PermissionCache.entry version xs ∧ Answered platform trace userId xs
  | _ => True

/-- A property of the values a program returns; it may throw anything. -/
def Yields {α : Type} (Q : List PermissionEvent → α → Prop) (trace : List PermissionEvent) :
    Except Failure α → Prop
  | .ok a => Q trace a
  | .error _ => True

section Rules

variable {platform : Platform} {trace : List PermissionEvent} {α β : Type}
  {P : List PermissionEvent → Cmd → Prop} {Q : List PermissionEvent → α → Prop}
  {Q' : List PermissionEvent → β → Prop}

theorem along_then {p : Action α} {f : α → Action β} (first : Along P (Yields Q) trace p)
    (next : ∀ trace a, Q trace a → Along P (Yields Q') trace (f a)) :
    Along P (Yields Q') trace (p >>= f) := by
  refine along_bind.mpr (first.mono (fun _ _ point => point) fun trace r yields => ?_)
  cases r with
  | ok a => exact next trace a yields
  | error e => trivial

theorem along_call {c : Cmd} {f : c.Resp → Action β} (point : P trace c)
    (next : ∀ a, Along P (Yields Q') (⟨c, .ok a⟩ :: trace) (f a)) :
    Along P (Yields Q') trace (call c >>= f) :=
  along_await_bind point (fun _ _ => trivial) next

/-- A value that must be present. -/
theorem along_orThrow {e : Failure} {a? : Option α} {f : α → Action β}
    (next : ∀ a, a? = some a → Along P (Yields Q') trace (f a)) :
    Along P (Yields Q') trace (orThrow e a? >>= f) := by
  cases a? with
  | none => trivial
  | some a => exact next a rfl

theorem along_template {v : Js} {f : String → Action β}
    (next : Along P (Yields Q') trace (f v.toText)) :
    Along P (Yields Q') trace (template v >>= f) := by
  refine along_orThrow fun text found => ?_
  rw [Js.template?, Option.ite_none_right_eq_some] at found
  exact Option.some.inj found.2 ▸ next

theorem along_versionText {v : Js} {f : String → Action β}
    (next : Along P (Yields Q') trace (f v.toText)) :
    Along P (Yields Q') trace (PermissionCache.versionText v >>= f) := by
  cases v with
  | undefined => trivial
  | null => trivial
  | obj fields =>
    refine along_orThrow fun text found => ?_
    rw [Js.template?, Option.ite_none_right_eq_some] at found
    exact Option.some.inj found.2 ▸ next
  | bool _ => exact along_template next
  | num _ => exact along_template next
  | str _ => exact along_template next
  | arr _ => exact along_template next

end Rules

section Bodies

variable {platform : Platform} {trace : List PermissionEvent} {userId permVersion : Js}

theorem along_set {permissions : List Js} {Q : List PermissionEvent → Unit → Prop}
    (point : Point platform trace (.hset (PermissionCache.cacheKey userId.toText)
      (PermissionCache.entry permVersion.toText permissions)))
    (written : ∀ e, e.cmd = .hset (PermissionCache.cacheKey userId.toText)
      (PermissionCache.entry permVersion.toText permissions) → Q (e :: trace) ()) :
    Along (Point platform) (Yields Q) trace
      (PermissionCache.set userId permVersion permissions) := by
  apply along_template
  apply along_versionText
  refine ⟨point, fun r => ?_⟩
  cases r with
  | ok _ => exact written _ rfl
  | error e => trivial

theorem read_cases (version : String) (cached : Hash) :
    PermissionCache.read platform version cached = .arr [] ∨
    ∃ text, cached.permVersion = some version ∧
      cached.permissions = some text ∧ platform.parse text =
        some (PermissionCache.read platform version cached) := by
  rw [PermissionCache.read]
  split
  · exact .inl rfl
  · exact .inl rfl
  · rename_i text _ present
    by_cases current : cached.permVersion = some version
    · rw [if_neg (Decidable.not_not.mpr current)]
      cases parsed : platform.parse text with
      | none => exact .inl rfl
      | some v => exact .inr ⟨text, current, present, parsed⟩
    · simp only [ne_eq, current, not_false_eq_true, if_true, true_or]

/-- What the cache gives is the empty list or what an entry was read as. -/
theorem along_get : Along (Point platform)
    (Yields fun trace v => v = .arr [] ∨
      Read platform trace userId.toText permVersion.toText v) trace
    (PermissionCache.get platform userId permVersion) := by
  apply along_template
  refine along_call trivial fun cached => ?_
  cases cached with
  | none => exact .inl rfl
  | some cached =>
    apply along_versionText
    obtain nothing | ⟨text, current, present, parsed⟩ :=
      @read_cases platform permVersion.toText cached
    · exact .inl nothing
    · exact .inr ⟨cached, text, List.mem_cons_self, current, present, parsed⟩

theorem along_fetch : Along (Point platform)
    (Yields fun trace v => ∃ xs, v = .arr xs ∧ Answered platform trace userId.toText xs) trace
    (PermissionProvider.fetch platform userId permVersion) := by
  apply along_template
  refine along_call trivial fun reply => ?_
  by_cases accepted : reply.status = 200
  · simp only [ne_eq, accepted, not_true_eq_false, if_false]
    cases data : reply.data platform with
    | arr permissions =>
      have answered : ∀ trace, Answered platform (⟨.httpGet userId.toText, .ok reply⟩ ::
          trace) userId.toText permissions := fun _ => ⟨reply, List.mem_cons_self, accepted, data⟩
      apply along_template
      refine along_then (Q := fun trace _ => Answered platform trace userId.toText permissions)
        (along_set (.inr ⟨_, _, permissions, rfl, rfl, answered _⟩) ?_) ?_
      · intro e _
        obtain ⟨reply, found, rest⟩ := answered trace
        exact ⟨reply, List.mem_cons_of_mem _ found, rest⟩
      · exact fun _ _ answered => ⟨permissions, rfl, answered⟩
    | undefined => trivial
    | null => trivial
    | bool _ => trivial
    | num _ => trivial
    | str _ => trivial
    | obj _ => trivial
  · simp only [ne_eq, accepted, not_false_eq_true, if_true]
    trivial

theorem along_getPermissions : Along (Point platform)
    (Yields fun trace v => Obtained platform trace userId.toText permVersion.toText v) trace
    (PermissionProvider.getPermissions platform userId permVersion) := by
  refine along_then along_get fun trace cached found => ?_
  by_cases hit : PermissionProvider.hasLength platform cached
  · simp only [hit, if_true]
    obtain rfl | read := found
    · simp only [PermissionProvider.hasLength, ne_eq, not_true_eq_false, decide_false,
        Bool.false_eq_true] at hit
    · exact .inr read
  · simp only [hit, Bool.false_eq_true, if_false]
    refine along_rethrow (fun _ _ => trivial)
      (along_fetch.mono (fun _ _ point => point) fun trace r yields => ?_)
    cases r with
    | ok v => exact .inl yields
    | error e => trivial

theorem along_hasPermission {required : List String} {v : Js} : Along (Point platform)
    (Yields fun trace' b => trace' = trace ∧
      (b = true → ∃ xs, v = .arr xs ∧ ∃ permission ∈ required, .str permission ∈ xs))
    trace (PermissionProvider.hasPermission v required) := by
  cases v with
  | arr xs =>
    apply along_template
    refine ⟨rfl, fun held => ⟨xs, rfl, ?_⟩⟩
    obtain ⟨permission, member, held⟩ := List.any_eq_true.mp held
    exact ⟨permission, member, List.contains_iff_mem.mp held⟩
  | undefined => trivial
  | null => trivial
  | bool _ => trivial
  | num _ => trivial
  | str _ => trivial
  | obj _ => trivial

/-- The check succeeds on a list that holds a required permission. -/
theorem along_check {required : List String} {user : Js} : Along (Point platform)
    (Yields fun trace b => b = true ∧ ∃ xs,
      Obtained platform trace (userText user) (versionText platform user) (.arr xs) ∧
      ∃ permission ∈ required, .str permission ∈ xs) trace
    (PermissionGuard.check platform required user) := by
  unfold PermissionGuard.check
  dsimp only
  split
  · trivial
  · refine along_then along_getPermissions fun trace v obtained =>
      along_then along_hasPermission fun trace' held found => ?_
    obtain ⟨rfl, holds⟩ := found
    cases held with
    | false => trivial
    | true =>
      obtain ⟨xs, rfl, granted⟩ := holds rfl
      exact ⟨rfl, xs, obtained, granted⟩

theorem along_updatePermVersion {userId : String} {Q : List PermissionEvent → Unit → Prop}
    (holds : ∀ trace, Q trace ()) :
    Along (Point platform) (Yields Q) trace
      (PermissionCache.updatePermVersion userId permVersion) := by
  refine along_call trivial fun found => ?_
  cases found with
  | false => exact holds _
  | true => exact along_set (.inl ⟨_, rfl⟩) fun _ _ => holds _

/-- What the end of a call says: a request with something to check passes on a list with a
required permission. -/
def Ended (platform : Platform) : Call → List PermissionEvent → Except Failure Bool → Prop
  | .canActivate metadata user =>
    Yields fun trace b => metadata.isPublic = false → metadata.requiredPermissions ≠ [] →
      user.get "type" ≠ .str "internal" →
      b = true ∧ ∃ xs, Obtained platform trace (userText user)
        (versionText platform user) (.arr xs) ∧
        ∃ permission ∈ metadata.requiredPermissions, .str permission ∈ xs
  | _ => Yields fun _ _ => True

theorem along_body (q : Call) : Along (Point platform) (Ended platform q) [] (body platform q) := by
  cases q with
  | canActivate metadata user =>
    simp only [body, PermissionGuard.canActivate, Ended]
    by_cases isPublic : metadata.isPublic
    · simp only [isPublic, if_true]
      exact fun notPublic => absurd notPublic nofun
    · by_cases nothing : metadata.requiredPermissions = []
      · simp only [isPublic, nothing, Bool.false_eq_true, if_false, if_true]
        exact fun _ required => absurd rfl required
      · by_cases trusted : PermissionGuard.trusted user
        · simp only [isPublic, nothing, trusted, Bool.false_eq_true, if_false, if_true]
          exact fun _ _ principal => absurd (of_decide_eq_true trusted) principal
        · simp only [isPublic, nothing, trusted, Bool.false_eq_true, if_false]
          refine along_check.mono (fun _ _ point => point) fun trace r yields => ?_
          cases r with
          | ok b => exact fun _ _ _ => yields
          | error e => trivial
  | updatePermVersion userId permVersion =>
    exact along_then (Q := fun _ _ => True) (along_updatePermVersion fun _ => trivial) fun _ _ _ =>
      trivial
  | invalidateUserCache userId => exact along_call trivial fun _ => trivial
  | clear => exact along_call trivial fun _ => trivial

end Bodies

section Runs

variable {platform : Platform} {journal : PermissionJournal} {pool : PermissionPool}
  {cond : PermissionJournal → PermissionPool → Option (Entry Api Failure
    Redis) → PermissionPool → Prop}

/-- An entry is corrupt, or stands as it was written. -/
def Kept (platform : Platform) (journal : PermissionJournal) (redis : Redis) : Prop :=
  ∀ key hash, redis key = some hash → hash.Corrupt platform ∨ ∃ e ∈ journal,
    e.event.cmd = .hset key hash

theorem Kept.later {redis redis' : Redis} (kept : Kept platform journal redis)
    (later : PermissionJournal)
    (writes : Writes redis redis' fun key hash => hash.Corrupt platform ∨ ∃ e ∈ later ++ journal,
      e.event.cmd = .hset key hash) :
    Kept platform (later ++ journal) redis' := by
  intro key hash found
  obtain old | new := writes key hash found
  · obtain corrupt | ⟨e, member, written⟩ := kept key hash old
    · exact .inl corrupt
    · exact .inr ⟨e, List.mem_append_right _ member, written⟩
  · exact new

theorem kept (recorded : (system platform).Recorded cond Redis.IsEmpty journal pool) :
    Kept platform journal pool.store := by
  induction recorded with
  | start redis initial =>
    intro key hash found
    cases initial
    contradiction
  | step _ happens _ ih =>
    cases happens with
    | spawn q => exact ih
    | run t choice th c k r redis found awaits executed =>
      refine ih.later [_] fun key hash found => ?_
      obtain old | written := exec_writes executed key hash found
      · exact .inl old
      · exact .inr (.inr ⟨_, List.mem_cons_self, written⟩)
    | act a redis acted =>
      refine ih.later [] fun key hash found => ?_
      obtain old | corrupt := act_writes acted key hash found
      · exact .inl old
      · exact .inr (.inl corrupt)

/-- The auth service returned the list for the user in call `t`. -/
def Returned (platform : Platform) (journal : PermissionJournal) (t : Nat) (userId : String)
    (xs : List Js) : Prop :=
  ∃ e ∈ journal, e.call = t ∧ ∃ reply, e.event = ⟨.httpGet userId, .ok reply⟩ ∧ reply.status = 200 ∧
    reply.data platform = .arr xs

/-- A call wrote the list that the auth service had returned to it for the user into the
user's entry, under the version. -/
def CachedUnder (platform : Platform) (journal : PermissionJournal) (userId version : String)
    (xs : List Js) : Prop :=
  ∃ e ∈ journal, e.event.cmd = .hset (PermissionCache.cacheKey userId)
    (PermissionCache.entry version xs) ∧ Returned platform journal e.call userId xs

/-- Call `t` may let the user through: a list of the auth service contains a required
permission. -/
def Granted (platform : Platform) (journal : PermissionJournal) (t : Nat) (required : List String)
    (userId version : String) : Prop :=
  ∃ xs, (Returned platform journal t userId xs ∨ CachedUnder platform journal userId version xs) ∧
    ∃ permission ∈ required, .str permission ∈ xs

theorem Answered.returned (recorded : (system platform).Recorded cond Redis.IsEmpty journal pool)
    {th : Thread Api Failure Call Bool} (found : pool.thread? t = some th)
    {userId : String} {xs : List Js} (answered : Answered platform th.trace userId xs) :
    Returned platform journal t userId xs := by
  obtain ⟨reply, member, accepted, data⟩ := answered
  obtain ⟨e, member, same, event⟩ := (recorded.mem_trace found).mp member
  exact ⟨e, member, same, reply, event, accepted, data⟩

theorem Returned.later {userId : String} {xs : List Js}
    (returned : Returned platform journal t userId xs) (later : PermissionJournal) :
    Returned platform (later ++ journal) t userId xs := by
  obtain ⟨e, member, rest⟩ := returned
  exact ⟨e, List.mem_append_right _ member, rest⟩

theorem along (recorded : (system platform).Recorded cond Redis.IsEmpty journal pool)
    {th : Thread Api Failure Call Bool} (found : pool.thread? t = some th) :
    Along (Point platform) (Ended platform th.request) th.trace th.rest :=
  recorded.reachable.along (P := fun _ => Point platform) along_body found

theorem cacheKey_injective {userId userId' : String}
    (same : PermissionCache.cacheKey userId = PermissionCache.cacheKey userId') :
    userId = userId' := by
  exact (String.append_right_inj _).mp ((String.append_left_inj _).mp same)

/-- A written entry holds the empty list or an answer to the call that wrote it. -/
theorem written (recorded : (system platform).Recorded cond Redis.IsEmpty journal pool)
    {e : Entry Api Failure Redis} (member : e ∈ journal) {userId : String} {hash : Hash}
    (writes : e.event.cmd = .hset (PermissionCache.cacheKey userId) hash) :
    (∃ version, hash = PermissionCache.entry version []) ∨
      ∃ version xs, hash = PermissionCache.entry version xs ∧
      Returned platform journal e.call userId xs := by
  obtain ⟨later, earlier, rfl⟩ := List.append_of_mem member
  obtain ⟨before, th, _, _, recorded, _, found, next, _, _, _⟩ := recorded.rewind
  have point := along recorded found
  obtain ⟨request, trace, rest⟩ := th
  cases rest with
  | done r => contradiction
  | await c k =>
    obtain rfl : c = _ := (Option.some.inj next).trans writes
    obtain empty | ⟨userId', version, xs, key, rfl, answered⟩ := point.1
    · exact .inl empty
    · obtain rfl := cacheKey_injective key
      have returned := (answered.returned recorded found).later (later ++ [e])
      rw [List.append_assoc] at returned
      exact .inr ⟨version, xs, rfl, returned⟩

/-- What is read as a list with a string in it has been cached. -/
theorem Read.cached (lawful : platform.Lawful)
    (recorded : (system platform).Recorded cond Redis.IsEmpty journal pool)
    {th : Thread Api Failure Call Bool} (found : pool.thread? t = some th)
    {userId version permission : String} {ys : List Js}
    (read : Read platform th.trace userId version (.arr ys)) (holds : .str permission ∈ ys) :
    ∃ xs, CachedUnder platform journal userId version xs ∧ .str permission ∈ xs := by
  obtain ⟨hash, text, member, current, present, parsed⟩ := read
  obtain ⟨e, member, _, event⟩ := (recorded.mem_trace found).mp member
  obtain ⟨later, earlier, rfl⟩ := List.append_of_mem member
  obtain ⟨before, _, _, _, recorded', store, _, _, executed, _, _⟩ := recorded.rewind
  have entry : before.store (PermissionCache.cacheKey userId) = some hash := by
    rw [event] at executed
    rw [store]
    exact exec_hgetall executed
  obtain corrupt | ⟨e', member', writes⟩ := kept recorded' _ _ entry
  · simp only [Hash.Corrupt, current, present, Option.bind_some, parsed,
      Option.isNone_some, Bool.false_eq_true, reduceCtorEq, or_self] at corrupt
  · have member' : e' ∈ later ++ e :: earlier :=
      List.mem_append_right _ (List.mem_cons_of_mem _ member')
    obtain ⟨version', rfl⟩ | ⟨version', xs, rfl, returned⟩ := written recorded member' writes
    · cases Option.some.inj present
      cases parsed.symm.trans lawful.empty
      contradiction
    · cases Option.some.inj current
      refine ⟨xs, ⟨e', member', writes, returned⟩, ?_⟩
      obtain ⟨_, _, _, reply, _, _, data⟩ := returned
      obtain ⟨ys', again, known⟩ := lawful.again _ _ _ (reply.parsed data) present
      cases parsed.symm.trans again
      exact known _ holds

/-- Whatever Redis and the auth service do, a request that has permissions to show and is not
internal passes only with a required permission in a list that the auth service returned for
its user, in the same call or when the list was cached under the same version; otherwise the
guard throws. -/
theorem canActivate_fails_closed (lawful : platform.Lawful)
    (recorded : (system platform).Recorded System.Free Redis.IsEmpty journal pool)
    {th : Thread Api Failure Call Bool} (found : pool.thread? t = some th)
    {metadata : Metadata} {user : Js} (asked : th.request = .canActivate metadata user)
    (notPublic : metadata.isPublic = false) (required : metadata.requiredPermissions ≠ [])
    (principal : user.get "type" ≠ .str "internal") {r : Except Failure Bool}
    (ended : th.result? = some r) :
    (∃ e, r = .error e) ∨ r = .ok true ∧
      Granted platform journal t metadata.requiredPermissions (userText user)
      (versionText platform user) := by
  cases r with
  | error e => exact .inl ⟨e, rfl⟩
  | ok b =>
    have holds := along recorded found
    obtain ⟨request, trace, rest⟩ := th
    cases rest with
    | await c k => contradiction
    | done out =>
      cases Option.some.inj ended
      cases asked
      obtain ⟨rfl, xs, obtained, permission, member, holds⟩ := holds notPublic required principal
      refine .inr ⟨rfl, ?_⟩
      obtain ⟨xs', same, answered⟩ | read := obtained
      · cases same
        exact ⟨xs, .inl (answered.returned recorded found), permission, member, holds⟩
      · obtain ⟨xs', cached, holds'⟩ := read.cached lawful recorded found holds
        exact ⟨xs', .inr cached, permission, member, holds'⟩

end Runs

section Sample

def samplePlatform : Platform where
  parse text := if text = "[]" then some (.arr []) else if text = "[\"read\"]" then
    some (.arr [.str "read"]) else none
  parseInt := id
  positive text := text = "1"

theorem samplePlatform_lawful : samplePlatform.Lawful where
  again body xs text parsed written := by
    simp only [samplePlatform] at parsed
    split at parsed
    · cases parsed
      cases written
      exact ⟨[], rfl, nofun⟩
    · split at parsed
      · cases parsed
        cases written
        exact ⟨[.str "read"], rfl, fun _ => id⟩
      · contradiction
  empty := rfl

def readPermission : Metadata := { requiredPermissions := ["read"] }
def alice : Js := .obj [("type", .str "user"), ("userId", .str "alice"), ("permVersion", .num "3")]

/-- Two requests of a user: the first asks the auth service, the second finds the entry. -/
def sampleSteps : List (Label Call Choice Act) :=
  .spawn (.canActivate readPermission alice) :: .run 0 {} ::
    .run 0 { reply := ⟨200, "OK", "[\"read\"]"⟩ } :: .run 0 {} ::
    .spawn (.canActivate readPermission alice) :: [.run 1 {}]

theorem canActivate_fails_closed_sample :
    ∃ journal pool, (system samplePlatform).Recorded System.Free Redis.IsEmpty journal pool ∧
    Granted samplePlatform journal 1 ["read"] "alice" "3" := by
  have tested : ((system samplePlatform).record System.Free []
      (System.idle Redis.empty) sampleSteps).any
      (fun (_, pool) => (pool.thread? 1).any fun th =>
        th.request = .canActivate readPermission alice &&
          th.result?.any (·.toOption = some true)) = true := by
    decide +kernel
  obtain ⟨journal, pool, recorded, passed⟩ :=
    System.recorded_of_test (show Redis.IsEmpty Redis.empty from rfl) tested
  obtain ⟨th, found, passed⟩ := (Option.any_eq_true _ _).mp passed
  obtain ⟨asked, ended⟩ := (Bool.and_eq_true _ _).mp passed
  obtain ⟨r, ended, ok⟩ := (Option.any_eq_true _ _).mp ended
  obtain ⟨e, rfl⟩ | ⟨-, granted⟩ :=
    canActivate_fails_closed samplePlatform_lawful recorded found (of_decide_eq_true asked)
    rfl (by decide) (by decide +kernel) ended
  · contradiction
  · have user : userText alice = "alice" := by decide +kernel
    have version : versionText samplePlatform alice = "3" := by decide +kernel
    rw [user, version] at granted
    exact ⟨journal, pool, recorded, granted⟩

end Sample

end CorePlatform.Permission
