import CorePlatform.Bell.Truthful

/-! When a notification has been read: concurrent calls of `NotificationService`. `markRead`
looks whether a notification is unread, and then marks it whatever has happened since. -/
namespace CorePlatform.Bell
open Async Relational

inductive MarkCall where
  | createNoti (payLoad : CreateNotificationDto)
  | markRead (userId notificationId : String)
  | readAll (userId : String)

def MarkCall.body (platform : Platform) : MarkCall → Action Js
  | .createNoti payLoad => NotificationService.createNoti platform payLoad
  | .markRead userId notificationId => NotificationService.markRead platform userId notificationId
  | .readAll userId => do
    let updated ← NotificationService.readAll userId
    return .obj [("updated", .num (toString updated))]

/-- The calls of notification-service, and the time. -/
@[reducible] def markSystem (platform : Platform) : System BellApi Exn MarkCall Js Store where
  Choice := Choice
  exec c choice s := execOwn platform choice s c
  body := MarkCall.body platform
  Act := Nat
  act ms s := some { s with now := s.now + ms }

abbrev MarkPool := Pool BellApi Exn MarkCall Js Store

/-- The notification has been read at that time. -/
def ReadAt (s : Store) (id : String) (readAt : Nat) : Prop :=
  ∃ row ∈ s.notifications, row.id = id ∧ row.readAt = some readAt

instance {s : Store} {id : String} {readAt : Nat} : Decidable (ReadAt s id readAt) :=
  inferInstanceAs (Decidable (∃ row ∈ s.notifications.rows, row.id = id ∧ _))

/-- The update that a call is about to make. -/
def updating? (pool : MarkPool) (t : Nat) : Option (String × Nat) :=
  match (pool.thread? t).bind Thread.next? with
  | some (.notificationUpdate id readAt) => some (id, readAt)
  | _ => none

/-- Where `markRead` updates a row, it is as unread as it was when the call has looked, or has
been read at the very time. -/
def Undisturbed (pool : MarkPool) : Label MarkCall Choice Nat → Prop
  | .run t choice => choice.fault.isNone = true → ∀ update ∈ updating? pool t,
      ∀ row ∈ pool.store.notifications.rows, row.id = update.1 →
        ∀ earlier ∈ row.readAt, earlier = update.2
  | _ => True

instance (pool : MarkPool) :
    (label : Label MarkCall Choice Nat) → Decidable (Undisturbed pool label)
  | .run t _ => inferInstanceAs (Decidable (_ → ∀ update ∈ updating? pool t,
      ∀ row ∈ pool.store.notifications.rows, row.id = update.1 →
        ∀ earlier ∈ row.readAt, earlier = update.2))
  | .spawn _ | .act _ => .isTrue trivial

/-- A notification that has been read keeps its time, and a `markRead` that returns has returned
that time. -/
structure WriteOnce (platform : Platform) (pool pool' : MarkPool) : Prop where
  kept : ∀ id readAt, ReadAt pool.store id readAt → ReadAt pool'.store id readAt
  returned : ∀ t th userId id v, pool'.thread? t = some th → th.request = .markRead userId id →
    th.result? = some (.ok v) → ∃ readAt, ReadAt pool'.store id readAt ∧
      v = .obj [("id", .str id), ("readAt", .str (platform.toISOString readAt))]

section Commands

variable {platform : Platform} {choice : Choice} {s s' : Store}

/-- The times at which notifications have been read. -/
def Keeps (s s' : Store) : Prop := ∀ id readAt, ReadAt s id readAt → ReadAt s' id readAt

theorem Keeps.of_eq (same : s'.notifications = s.notifications) : Keeps s s' := by
  rintro id readAt ⟨row, stored, read⟩
  exact ⟨row, same ▸ stored, read⟩

/-- A mark keeps the times where the rows that it finds read have been read then. -/
theorem Keeps.setReadAt {p : Notification → Bool} {readAt : Nat}
    (same : ∀ row ∈ s.notifications, p row = true → ∀ earlier, row.readAt = some earlier →
      earlier = readAt)
    (rows : s'.notifications = (s.setReadAt p readAt).notifications) : Keeps s s' := by
  rintro id earlier ⟨row, stored, own, read⟩
  refine ⟨_, rows ▸ mem_setReadAt.mpr ⟨row, stored, rfl⟩, ?_⟩
  split
  · rename_i marked
    exact ⟨own, congrArg some (same row stored marked earlier read).symm⟩
  · exact ⟨own, read⟩

theorem RowEffect.keeps {c : BellCmd} {r : Except Exn c.Resp} (effect : RowEffect s s' c r)
    (undisturbed : ∀ id readAt, c = .notificationUpdate id readAt → r.isOk = true →
      ∀ earlier, ReadAt s id earlier → earlier = readAt) : Keeps s s' := by
  cases effect with
  | kept _ _ rows => exact .of_eq rows
  | created data row inserted =>
    rintro id readAt ⟨old, stored, read⟩
    exact ⟨old, (Table.mem_insert? inserted).mpr (.inr stored), read⟩
  | marked id readAt row found own rows =>
    refine .setReadAt (fun old stored marks earlier read => ?_) rows
    exact undisturbed id readAt rfl rfl earlier ⟨old, stored, of_decide_eq_true marks, read⟩
  | markedAll userId readAt n rows =>
    refine .setReadAt (fun old stored marks earlier read => ?_) rows
    have unread := ((Bool.and_eq_true _ _).mp marks).2
    rw [read] at unread
    contradiction

/-- What an executed command has shown of the time at which a notification was read. -/
def Shown (s : Store) : Ev → Prop
  | ⟨.notificationFindFirst id _, .ok (some row)⟩ =>
      row.id = id ∧ ∀ readAt, row.readAt = some readAt → ReadAt s id readAt
  | ⟨.notificationUpdate id readAt, .ok row⟩ =>
      row.id = id ∧ row.readAt = some readAt ∧ ReadAt s id readAt
  | _ => True

theorem Shown.keeps {e : Ev} (shown : Shown s e) (keeps : Keeps s s') : Shown s' e := by
  unfold Shown at shown ⊢
  split
  · exact ⟨shown.1, fun readAt read => keeps _ _ (shown.2 readAt read)⟩
  · exact ⟨shown.1, shown.2.1, keeps _ _ shown.2.2⟩
  · trivial

theorem execOwn_shown {c : BellCmd} {r : Except Exn c.Resp}
    (executed : execOwn platform choice s c = some (r, s')) : Shown s' ⟨c, r⟩ := by
  unfold Shown
  split
  · rename_i id userId row same
    cases same
    obtain ⟨stored, own, -⟩ := exec_findFirst executed
    exact ⟨own, fun readAt read => ⟨row, stored, own, read⟩⟩
  · rename_i id readAt row same
    cases same
    obtain ⟨stored, own, read⟩ := exec_notificationUpdate executed
    exact ⟨own, read, row, stored, own, read⟩
  · trivial

/-- A command that answers was not rejected. -/
theorem execOwn_unrejected {c : BellCmd} {r : Except Exn c.Resp}
    (executed : execOwn platform choice s c = some (r, s')) (answered : r.isOk = true) :
    choice.fault = none := by
  unfold execOwn at executed
  split at executed
  · assumption
  · split at executed
    · cases Option.some.inj executed
      contradiction
    · contradiction

end Commands

section Runs

variable {platform : Platform} {pool pool' : MarkPool} {init : Store → Prop}

/-- The step lemma. -/
theorem Undisturbed.keeps
    {label : Label MarkCall (markSystem platform).Choice (markSystem platform).Act}
    (undisturbed : Undisturbed pool label)
    (effect : (markSystem platform).Effect pool label pool') : Keeps pool.store pool'.store := by
  cases effect with
  | spawn q => exact .of_eq rfl
  | act ms s acted =>
    cases Option.some.inj acted
    exact .of_eq rfl
  | run t choice th c k r s found awaits executed =>
    refine (execOwn_effect executed).keeps fun id readAt same answered => ?_
    subst same
    have updates : updating? pool t = some (id, readAt) := by
      rw [updating?, found, Option.bind_some, Thread.next?, awaits]
    have unrejected := Option.isNone_iff_eq_none.mpr (execOwn_unrejected executed answered)
    rintro earlier ⟨row, stored, own, read⟩
    exact undisturbed unrejected _ updates row stored own earlier read

/-- The run lemma. -/
theorem run_keeps (run : (markSystem platform).Run Undisturbed pool pool') :
    Keeps pool.store pool'.store := by
  refine run.invariant (P := fun now => Keeps pool.store now.store) ?_ (.of_eq rfl)
  intro now label next kept undisturbed stepped id readAt read
  exact undisturbed.keeps (System.step_effect stepped) id readAt (kept id readAt read)

/-- Where a `markRead` that returns has its answer from. -/
def MarkAnswers (platform : Platform) (trace : List Ev) (r : Except Exn Js) : MarkCall → Prop
  | .markRead userId id => ∀ v, r = .ok v → ∃ existing,
      ⟨.notificationFindFirst id userId, .ok (some existing)⟩ ∈ trace ∧
      ((existing.readAt.isSome = true ∧ v = NotificationService.marked platform existing) ∨
        ∃ readAt updated, ⟨.notificationUpdate existing.id readAt, .ok updated⟩ ∈ trace ∧
          v = NotificationService.marked platform updated)
  | _ => True

theorem along_anything {p : Action Js} {trace : List Ev} :
    Along (fun _ _ => True) (fun _ _ => True) trace p := by
  induction p generalizing trace with
  | done r => trivial
  | await c k ih => exact ⟨trivial, fun r => ih r⟩

theorem along_body (q : MarkCall) : Along (fun _ _ => True)
    (fun trace r => MarkAnswers platform trace r q) [] (q.body platform) := by
  cases q with
  | createNoti payLoad => exact along_anything
  | readAll userId => exact along_anything
  | markRead userId id =>
    simp only [MarkCall.body, NotificationService.markRead]
    split
    · rintro v ⟨⟩
    apply along_command_bind trivial
    · rintro e v ⟨⟩
    intro found
    cases found with
    | none => rintro v ⟨⟩
    | some existing =>
      dsimp only
      split
      · rename_i read
        intro v returned
        cases returned
        exact ⟨existing, List.mem_cons_self, .inl ⟨read, rfl⟩⟩
      apply along_command_bind trivial
      · rintro e v ⟨⟩
      intro now
      apply along_command_bind trivial
      · rintro e v ⟨⟩
      intro updated v returned
      cases returned
      refine ⟨existing, ?_, .inr ⟨now, updated, List.mem_cons_self, rfl⟩⟩
      exact List.mem_cons_of_mem _ (List.mem_cons_of_mem _ List.mem_cons_self)

/-- What a call has been shown stays so. -/
theorem shown_of_mem (reachable : (markSystem platform).Reachable Undisturbed init pool)
    {t : Nat} {th : Thread BellApi Exn MarkCall Js} {e : Ev} (found : pool.thread? t = some th)
    (executed : e ∈ th.trace) : Shown pool.store e := by
  refine reachable.witnessed (P := fun _ s e => Shown s e) found executed ?_ ?_
  · exact fun _ _ _ _ _ _ _ _ _ _ _ executed => execOwn_shown executed
  · exact fun _ _ _ _ _ _ undisturbed effect shown => shown.keeps (undisturbed.keeps effect)

/-- In every run whose updates find what their calls have seen, `readAt` is written once. -/
theorem readAt_write_once (reachable : (markSystem platform).Reachable Undisturbed init pool)
    (run : (markSystem platform).Run Undisturbed pool pool') : WriteOnce platform pool pool' := by
  refine ⟨run_keeps run, fun t th userId id v found asked returned => ?_⟩
  obtain ⟨s, start, earlier⟩ := reachable
  have reachable' : (markSystem platform).Reachable Undisturbed init pool' :=
    ⟨s, start, earlier.trans run⟩
  have answers := reachable'.returned along_body found returned
  rw [asked] at answers
  obtain ⟨existing, looked, answer⟩ := answers v rfl
  obtain ⟨own, read⟩ := shown_of_mem reachable' found looked
  rcases answer with ⟨already, rfl⟩ | ⟨readAt, updated, marked, rfl⟩
  · obtain ⟨readAt, at'⟩ := Option.isSome_iff_exists.mp already
    refine ⟨readAt, read readAt at', ?_⟩
    rw [NotificationService.marked, own, at']
    rfl
  · obtain ⟨own', at', read'⟩ := shown_of_mem reachable' found marked
    refine ⟨readAt, own ▸ read', ?_⟩
    rw [NotificationService.marked, own', own, at']
    rfl

end Runs

section Sample

/-- A platform whose times differ. -/
def clockPlatform : Platform :=
  { samplePlatform with toISOString := fun now => if now = 0 then "1970-01-01T00:00:00.000Z"
      else "1970-01-01T00:00:00.001Z" }

def aliceReads : MarkCall := .markRead alice aliceNote.id

/-- Two calls have looked, and the first has marked; the clock goes on between them. -/
def overtaken : List (Label MarkCall Choice Nat) :=
  [.spawn aliceReads, .spawn aliceReads, .run 0 {}, .run 1 {}, .run 0 {}, .act 1, .run 1 {},
    .run 0 {}]

/-- Whether the notification has been read at 0. -/
def readFirst (pool : MarkPool) : Bool := decide (ReadAt pool.store aliceNote.id 0)

/-- The update of the second call replaces the time of the first. -/
theorem readAt_written_twice : ¬ ∀ platform init pool pool',
    (markSystem platform).Reachable System.Any init pool →
      (markSystem platform).Run System.Any pool pool' → WriteOnce platform pool pool' := by
  intro once
  have tested : ((markSystem clockPlatform).replay System.Any (System.idle sampleStore)
      overtaken).any (fun pool => readFirst pool &&
        ((markSystem clockPlatform).replay System.Any pool [.run 1 {}]).any
          (fun pool' => !readFirst pool')) = true := by
    decide +kernel
  obtain ⟨pool, run, passed⟩ := System.run_of_replay tested
  obtain ⟨read, later⟩ := (Bool.and_eq_true _ _).mp passed
  obtain ⟨pool', run', lost⟩ := System.run_of_replay later
  have kept := (once _ Sampled pool pool' ⟨sampleStore, rfl, run⟩ run').kept _ _
    (of_decide_eq_true read)
  exact of_decide_eq_false ((Bool.not_eq_true' _).mp lost) kept

/-- One call after the other: the second returns the time of the first. -/
theorem readAt_written_once : ∃ pool pool', ReadAt pool.store aliceNote.id 0 ∧
    (pool'.thread? 1).any (·.result?.isSome) = true ∧ WriteOnce clockPlatform pool pool' := by
  have tested : ((markSystem clockPlatform).replay Undisturbed (System.idle sampleStore)
      [.spawn aliceReads, .run 0 {}, .run 0 {}, .run 0 {}]).any (fun pool => readFirst pool &&
        ((markSystem clockPlatform).replay Undisturbed pool
          [.act 1, .spawn aliceReads, .spawn (.readAll alice), .run 2 {}, .run 2 {}, .run 1 {}]).any
          (fun pool' => (pool'.thread? 1).any (·.result?.isSome))) = true := by
    decide +kernel
  obtain ⟨pool, run, passed⟩ := System.run_of_replay tested
  obtain ⟨read, later⟩ := (Bool.and_eq_true _ _).mp passed
  obtain ⟨pool', run', returned⟩ := System.run_of_replay later
  have reachable : (markSystem clockPlatform).Reachable Undisturbed Sampled pool :=
    ⟨sampleStore, rfl, run⟩
  exact ⟨pool, pool', of_decide_eq_true read, returned, readAt_write_once reachable run'⟩

end Sample

end CorePlatform.Bell
