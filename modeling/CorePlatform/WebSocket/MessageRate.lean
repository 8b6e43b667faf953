import CorePlatform.Limiting.FixedWindow
import CorePlatform.WebSocket.Gateway

/-! The limit of messages. The counter of a user is a fixed window, as long as no disconnection
throws away a window that is still open. -/
namespace CorePlatform.WebSocket
open CoreWebsocketGateway Limiting
open Bell (MessageLimit MAX_MESSAGES_PER_SECOND)

/-- The times of the admitted messages of a user, latest first. -/
def admittedOf (userId : String) (admitted : List (String × Nat)) : List Nat :=
  (admitted.filter (·.1 = userId)).map Prod.snd

/-- No interval of a second or less has more than two windows' worth of messages. -/
def TwoWindows (userId : String) (admitted : List (String × Nat)) : Prop :=
  ∀ first last, last ≤ first + 1000 →
    (admittedOf userId admitted).countP (fun t => first ≤ t && t ≤ last) ≤
      2 * MAX_MESSAGES_PER_SECOND

/-- A disconnection throws away counters of past windows only. -/
def CountersKept (s : Instance) : SocketEvent → Prop
  | .disconnect socketId =>
      ∀ data ∈ (s.sockets.lookup socketId).join, goesOffline s socketId data.userId = true →
      ∀ limit ∈ s.rateLimits data.userId, limit.resetAt < s.now
  | .connect .. | .message _ | .push .. | .tick _ => True

/-- `resetAt` is the last moment of a window. -/
def windowLength : Nat := 1001

/-- A recorded counter is the window; where none is recorded, no window is open. -/
def Tracks (now : Nat) (limit : Option MessageLimit) (window : Option Window) : Prop :=
  match limit with
  | none => open? now window = none
  | some limit => window = some ⟨limit.count, limit.resetAt + 1⟩

section Counters

variable {now now' : Nat} {limit : Option MessageLimit} {window : Option Window}

theorem open_later (closed : open? now window = none) (ordered : now ≤ now') :
    open? now' window = none := by
  rw [open?, Option.filter_eq_none_iff] at closed ⊢
  intro w recorded current
  have current := of_decide_eq_true current
  exact closed w recorded (decide_eq_true (by omega))

theorem Tracks.later (tracks : Tracks now limit window) (ordered : now ≤ now') :
    Tracks now' limit window := by
  cases limit with
  | none => exact open_later tracks ordered
  | some limit => exact tracks

/-- The code's step is the step of the window. -/
theorem checkRateLimit_judge (tracks : Tracks now limit window) :
    (Bell.checkRateLimit now limit).1 = (judge MAX_MESSAGES_PER_SECOND windowLength now window).1 ∧
      Tracks now (Bell.checkRateLimit now limit).2
        (judge MAX_MESSAGES_PER_SECOND windowLength now window).2 := by
  have opened : open? now window = none →
      judge MAX_MESSAGES_PER_SECOND windowLength now window =
        (true, some ⟨1, now + windowLength⟩) := by
    intro closed
    rw [judge, closed]
    rfl
  cases limit with
  | none =>
    rw [opened tracks]
    exact ⟨rfl, rfl⟩
  | some limit =>
    subst tracks
    by_cases past : now > limit.resetAt
    · have closed : open? now (some ⟨limit.count, limit.resetAt + 1⟩) = none := by
        simp only [open?, Option.filter_some, show ¬ now < limit.resetAt + 1 by omega, decide_false,
          Bool.false_eq_true, if_false]
      rw [opened closed]
      simp only [Bell.checkRateLimit, past, if_true, true_and]
      rfl
    · have current : open? now (some ⟨limit.count, limit.resetAt + 1⟩) =
          some ⟨limit.count, limit.resetAt + 1⟩ := by
        simp only [open?, Option.filter_some, show now < limit.resetAt + 1 by omega,
          decide_true, if_true]
      by_cases full : limit.count ≥ MAX_MESSAGES_PER_SECOND
      · simp only [Bell.checkRateLimit, past, if_false, full, if_true, judge, current, true_and]
        rfl
      · simp only [Bell.checkRateLimit, past, if_false, full, judge, current, true_and]
        rfl

end Counters

section Runs

variable {cfg : WsConfig} {s s' : Instance} {admitted : List (String × Nat)} {userId : String}

/-- What is admitted of a user is what a window admits. -/
def Windowed (s : Instance) (userId : String) (admitted : List (String × Nat)) : Prop :=
  ∃ h : History, h.admitted = admittedOf userId admitted ∧
    Fair MAX_MESSAGES_PER_SECOND windowLength s.now h ∧
    Tracks s.now (s.rateLimits userId) h.window

theorem admittedOf_cons (user : String) (t : Nat) : admittedOf userId ((user, t) :: admitted) =
    if user = userId then t :: admittedOf userId admitted else admittedOf userId admitted := by
  simp only [admittedOf, List.filter_cons, decide_eq_true_eq]
  split <;> rfl

/-- A message of the user is an arrival at the window. -/
theorem Windowed.message (windowed : Windowed s userId admitted) (user : String) :
    Windowed (checkRateLimit s user).2 userId (admission s (.message user) ++ admitted) := by
  obtain ⟨h, times, fair, tracks⟩ := windowed
  by_cases same : user = userId
  · subst same
    obtain ⟨decision, tracks'⟩ := checkRateLimit_judge tracks
    have recorded : (checkRateLimit s user).2.rateLimits user =
        (Bell.checkRateLimit s.now (s.rateLimits user)).2 :=
      Function.update_self ..
    have allowed : (checkRateLimit s user).1 =
        (judge MAX_MESSAGES_PER_SECOND windowLength s.now h.window).1 :=
      decision
    refine ⟨h.arrive MAX_MESSAGES_PER_SECOND windowLength s.now, ?_,
      fair.arrive (by decide) (by decide), ?_⟩
    · rw [admission, allowed, History.arrive]
      generalize judge MAX_MESSAGES_PER_SECOND windowLength s.now h.window = judged
      obtain ⟨_ | _, window⟩ := judged
      · exact times
      · rw [if_pos rfl, List.singleton_append, admittedOf_cons, if_pos rfl, ← times]
    · have window : (h.arrive MAX_MESSAGES_PER_SECOND windowLength s.now).window =
          (judge MAX_MESSAGES_PER_SECOND windowLength s.now h.window).2 := by
        rw [History.arrive]
        generalize judge MAX_MESSAGES_PER_SECOND windowLength s.now h.window = judged
        obtain ⟨_ | _, window⟩ := judged <;> rfl
      rw [recorded, window]
      exact tracks'
  · have kept : (checkRateLimit s user).2.rateLimits userId = s.rateLimits userId :=
      Function.update_of_ne (Ne.symm same) ..
    refine ⟨h, ?_, fair, kept ▸ tracks⟩
    rw [admission]
    split
    · rw [List.singleton_append, admittedOf_cons, if_neg same]
      exact times
    · exact times

/-- A disconnection that throws away no open window. -/
theorem Windowed.handleDisconnect (windowed : Windowed s userId admitted) {socketId : String}
    (kept : CountersKept s (.disconnect socketId)) :
    Windowed (handleDisconnect s socketId) userId admitted := by
  obtain ⟨h, times, fair, tracks⟩ := windowed
  refine ⟨h, times, fair, ?_⟩
  simp only [CoreWebsocketGateway.handleDisconnect]
  cases known : (s.sockets.lookup socketId).join with
  | none => exact tracks
  | some data =>
    by_cases offline : goesOffline s socketId data.userId = true
    · simp only [offline, if_true]
      by_cases same : userId = data.userId
      · subst same
        rw [Function.update_self]
        cases recorded : s.rateLimits data.userId with
        | none =>
          rw [recorded] at tracks
          exact tracks
        | some limit =>
          have past := kept data known offline limit recorded
          rw [recorded] at tracks
          rw [Tracks, show h.window = _ from tracks, open?, Option.filter_eq_none_iff]
          intro w same current
          cases same
          have current : s.now < limit.resetAt + 1 := of_decide_eq_true current
          omega
      · rw [Function.update_of_ne same]
        exact tracks
    · simp only [offline, Bool.false_eq_true, if_false]
      exact tracks

theorem handleConnection_keeps (cfg : WsConfig) (s : Instance) (socketId : String)
    (handshake : Handshake) (throws : Bool) :
    (handleConnection cfg s socketId handshake throws).rateLimits = s.rateLimits ∧
      (handleConnection cfg s socketId handshake throws).now = s.now := by
  unfold handleConnection
  split
  · exact ⟨rfl, rfl⟩
  · split
    · exact ⟨rfl, rfl⟩
    · cases throws <;> exact ⟨rfl, rfl⟩

theorem Windowed.step (windowed : Windowed s userId admitted) {e : SocketEvent}
    (kept : CountersKept s e) (stepped : step cfg s e = some s') :
    Windowed s' userId (admission s e ++ admitted) := by
  cases e with
  | message user =>
    cases stepped
    exact windowed.message user
  | disconnect socketId =>
    cases stepped
    exact windowed.handleDisconnect kept
  | connect socketId handshake throws =>
    simp only [WebSocket.step] at stepped
    split at stepped
    · contradiction
    · cases stepped
      obtain ⟨limits, now⟩ := handleConnection_keeps cfg s socketId handshake throws
      rw [Windowed, limits, now]
      exact windowed
  | push user event data =>
    cases stepped
    unfold Windowed emitToUser
    split <;> exact windowed
  | tick ms =>
    cases stepped
    obtain ⟨h, times, fair, tracks⟩ := windowed
    have ordered : s.now ≤ s.now + ms := Nat.le_add_right _ _
    exact ⟨h, times, fair.later ordered, tracks.later ordered⟩

theorem windowed_run (run : Run cfg CountersKept admitted s) (userId : String) :
    Windowed s userId admitted := by
  induction run with
  | start now => exact ⟨{}, rfl, fair_start, rfl⟩
  | step _ kept stepped windowed => exact windowed.step kept stepped

theorem message_rate_limited (run : Run cfg CountersKept admitted s) (userId : String) :
    TwoWindows userId admitted := by
  intro first last short
  obtain ⟨h, times, fair, -⟩ := windowed_run run userId
  have bound := fair.perInterval first
  rw [times] at bound
  refine le_trans (List.countP_mono_left fun t _ inside => ?_) bound
  simp only [Bool.and_eq_true, decide_eq_true_eq] at inside ⊢
  simp only [windowLength]
  omega

end Runs

section Sample

instance (s : Instance) : (e : SocketEvent) → Decidable (CountersKept s e)
  | .disconnect socketId => inferInstanceAs (Decidable (∀ data ∈ (s.sockets.lookup socketId).join,
      goesOffline s socketId data.userId = true → ∀ limit ∈ s.rateLimits data.userId,
      limit.resetAt < s.now))
  | .connect .. | .message _ | .push .. | .tick _ => .isTrue trivial

def aliceHandshake : Handshake where
  query :=
    some (.jwt "change-me" { sub := some aliceId, iss := some "auth-service", aud := some "api" })

/-- A tab that sends `n` messages and is closed. -/
def visit (socketId : String) (n : Nat) : List SocketEvent :=
  .connect socketId aliceHandshake false :: .replicate n (.message aliceId) ++
    [.disconnect socketId]

/-- A user who reconnects twice within a second gets three windows. -/
theorem reconnects_exceed : ¬ ∀ cfg admitted s userId, Run cfg (fun _ _ => True) admitted s →
    TwoWindows userId admitted := by
  intro limited
  have tested : (replay {} (fun _ _ => True) [] { now := 0 } (visit "s1" 10 ++
      visit "s2" 10 ++ visit "s3" 10)).any
      (fun (admitted, _) => decide (admittedOf aliceId admitted = .replicate 30 0)) = true := by
    decide +kernel
  obtain ⟨admitted, s, run, passed⟩ := run_of_test tested
  have bound := limited _ admitted s aliceId run 0 1000 (by decide)
  rw [of_decide_eq_true passed] at bound
  contradiction

/-- The user waits until the window is over before the last tab is closed. -/
theorem message_rate_limited_sample : ∃ admitted s, Run {} CountersKept admitted s ∧
    (admittedOf aliceId admitted).length = 20 ∧ TwoWindows aliceId admitted := by
  have tested : (replay {} CountersKept [] { now := 0 }
      (.connect "s1" aliceHandshake false :: .replicate 12 (.message aliceId) ++
        .tick 1001 :: visit "s2" 12)).any
        (fun (admitted, _) => decide ((admittedOf aliceId admitted).length = 20)) = true := by
    decide +kernel
  obtain ⟨admitted, s, run, passed⟩ := run_of_test tested
  exact ⟨admitted, s, run, of_decide_eq_true passed, message_rate_limited run aliceId⟩

end Sample
end CorePlatform.WebSocket
