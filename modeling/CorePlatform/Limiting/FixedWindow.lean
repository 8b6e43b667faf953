import Mathlib.Data.List.Basic

/-! Fixed-window limiting. The first arrival that finds no open window opens one, which lasts
for a fixed time and admits a fixed number of arrivals. Windows never overlap, so that a
stretch of time as long as a window meets two of them at most. -/
namespace Limiting

structure Window where
  count : Nat
  expiry : Nat
  deriving DecidableEq

/-- The window that is open at a time, if there is one. -/
def open? (now : Nat) (w : Option Window) : Option Window := w.filter (now < ·.expiry)

/-- Whether an arrival is admitted, and the window after it. -/
def judge (limit length now : Nat) (w : Option Window) : Bool × Option Window :=
  match open? now w with
  | none => if limit = 0 then (false, w) else (true, some ⟨1, now + length⟩)
  | some current =>
    if limit ≤ current.count then (false, w)
      else (true, some { current with count := current.count + 1 })

/-- How many of the times lie in `[first, last)`. -/
def within (first last : Nat) (times : List Nat) : Nat :=
  times.countP fun t => first ≤ t && t < last

/-- The window, the times of the admitted arrivals, and those that opened a window, the
latest first. -/
structure History where
  window : Option Window := none
  admitted : List Nat := []
  starts : List Nat := []

namespace History

variable {limit length now : Nat} {h : History}

def arrive (limit length : Nat) (h : History) (now : Nat) : History :=
  match judge limit length now h.window with
  | (false, window) => { h with window }
  | (true, window) =>
    { window, admitted := now :: h.admitted
      starts := if (open? now h.window).isNone then now :: h.starts else h.starts }

end History

section Counting

variable {first last t : Nat} {times : List Nat}

theorem within_cons : within first last (t :: times) =
    within first last times + if first ≤ t ∧ t < last then 1 else 0 := by
  simp only [within, List.countP_cons, Bool.and_eq_true, decide_eq_true_eq]

theorem within_mono {first' last' : Nat} (narrower : ∀ t ∈ times, first ≤ t → t < last →
    first' ≤ t ∧ t < last') :
    within first last times ≤ within first' last' times := by
  apply List.countP_mono_left
  intro t found inside
  simp only [Bool.and_eq_true, decide_eq_true_eq] at inside ⊢
  exact narrower t found inside.1 inside.2

/-- An interval is covered by its two parts. -/
theorem within_split (first middle last : Nat) (times : List Nat) :
    within first last times ≤ within first middle times + within middle last times := by
  induction times with
  | nil => exact Nat.le_refl 0
  | cons t times ih =>
    simp only [within_cons]
    split <;> split <;> split <;> omega

end Counting

/-- The invariant. Where a window is recorded, it started at `start`; what was admitted since
is its count, and what was admitted in a window's time before it is within the limit. -/
structure Within (limit length now start : Nat) (w : Window) (h : History) : Prop where
  expires : w.expiry = start + length
  started : start ≤ now
  positive : 1 ≤ w.count
  limited : w.count ≤ limit
  counted : within start w.expiry h.admitted = w.count
  past : ∀ t ∈ h.admitted, t < w.expiry
  before : ∀ x, start ≤ x + length → within x start h.admitted ≤ limit
  starts : ∀ s ∈ h.starts, s = start ∨ s + length ≤ start

structure Fair (limit length now : Nat) (h : History) : Prop where
  fresh : h.window = none → h.admitted = [] ∧ h.starts = []
  window : ∀ w, h.window = some w → ∃ start, Within limit length now start w h
  perWindow : ∀ s ∈ h.starts, within s (s + length) h.admitted ≤ limit
  perInterval : ∀ x, within x (x + length) h.admitted ≤ 2 * limit

section Steps

variable {limit length now start : Nat} {h : History}

/-- Everything an arrival can meet: no open window, one with room, or a full one. -/
theorem judge_cases (length now : Nat) (w : Option Window) (positive : 1 ≤ limit) :
    ((∀ c, w = some c → c.expiry ≤ now) ∧ (open? now w).isNone ∧
      judge limit length now w = (true, some ⟨1, now + length⟩)) ∨
    ∃ c, w = some c ∧ now < c.expiry ∧ (open? now w).isNone = false ∧
      ((c.count < limit ∧ judge limit length now w = (true, some { c with count := c.count + 1 })) ∨
        limit ≤ c.count ∧ judge limit length now w = (false, w)) := by
  have nonzero : limit ≠ 0 := Nat.ne_of_gt positive
  cases w with
  | none => exact .inl ⟨(fun _ none => nomatch none), rfl, if_neg nonzero⟩
  | some c =>
    by_cases current : now < c.expiry
    · have opened : open? now (some c) = some c := by
        simp only [open?, Option.filter, current, decide_true, if_true]
      refine .inr ⟨c, rfl, current, by rw [opened]; rfl, ?_⟩
      by_cases full : limit ≤ c.count
      · exact .inr ⟨full, by simp only [judge, opened, full, if_true]⟩
      · exact .inl ⟨Nat.lt_of_not_le full, by simp only [judge, opened, full, if_false]⟩
    · have closed : open? now (some c) = none := by
        simp only [open?, Option.filter, current, decide_false, Bool.false_eq_true, if_false]
      refine .inl ⟨?_, by rw [closed]; rfl, by simp only [judge, closed, nonzero, if_false]⟩
      rintro _ ⟨⟩
      exact Nat.le_of_not_lt current

/-- A window counts its opening. -/
theorem Fair.counting (fair : Fair limit length now h) (w : Window) (recorded : h.window = some w) :
    1 ≤ w.count := by
  obtain ⟨start, inv⟩ := fair.window w recorded
  exact inv.positive

theorem fair_start : Fair limit length now {} where
  fresh _ := ⟨rfl, rfl⟩
  window _ recorded := nomatch recorded
  perWindow _ started := absurd started List.not_mem_nil
  perInterval _ := Nat.zero_le _

theorem Fair.later {now' : Nat} (fair : Fair limit length now h) (ordered : now ≤ now') :
    Fair limit length now' h where
  fresh := fair.fresh
  window w recorded := by
    obtain ⟨start, inv⟩ := fair.window w recorded
    exact ⟨start, { inv with started := Nat.le_trans inv.started ordered }⟩
  perWindow := fair.perWindow
  perInterval := fair.perInterval

/-- What was admitted lies before an arrival that finds no open window, and as far as a
window's time reaches back from it, within the limit. -/
theorem Fair.closed (fair : Fair limit length now h)
    (closed : ∀ c, h.window = some c → c.expiry ≤ now) :
    (∀ t ∈ h.admitted, t < now) ∧ (∀ s ∈ h.starts, s + length ≤ now) ∧
      ∀ x, now ≤ x + length → within x now h.admitted ≤ limit := by
  cases recorded : h.window with
  | none =>
    obtain ⟨nothing, none⟩ := fair.fresh recorded
    rw [nothing, none]
    exact ⟨fun _ found => absurd found List.not_mem_nil, fun _ found =>
      absurd found List.not_mem_nil, fun _ _ => Nat.zero_le _⟩
  | some c =>
    obtain ⟨start, inv⟩ := fair.window c recorded
    have ended := closed c recorded
    have expires := inv.expires
    refine ⟨fun t found => Nat.lt_of_lt_of_le (inv.past t found) ended,
      fun s found => ?_, fun x reach => ?_⟩
    · rcases inv.starts s found with rfl | earlier <;> omega
    · have inside : within x now h.admitted ≤ within start c.expiry h.admitted := by
        apply within_mono
        intro t found late _
        exact ⟨by omega, inv.past t found⟩
      have counted := inv.counted
      have limited := inv.limited
      omega

/-- An arrival that opens a window. -/
theorem Fair.opens (fair : Fair limit length now h) (positive : 1 ≤ limit) (lasting : 1 ≤ length)
    (closed : ∀ c, h.window = some c → c.expiry ≤ now) :
    Fair limit length now ⟨some ⟨1, now + length⟩, now :: h.admitted, now :: h.starts⟩ := by
  obtain ⟨past, ended, behind⟩ := fair.closed closed
  have before : ∀ x last, now ≤ last → within x last h.admitted ≤ within x now h.admitted := by
    intro x last _
    apply within_mono
    exact fun t found late _ => ⟨late, past t found⟩
  have none : ∀ last, within now last h.admitted = 0 := by
    intro last
    apply List.countP_eq_zero.mpr
    intro t found
    have earlier := past t found
    simp only [Bool.and_eq_true, decide_eq_true_eq]
    omega
  constructor
  · exact fun impossible => nomatch impossible
  · rintro _ ⟨⟩
    refine ⟨now, rfl, Nat.le_refl _, Nat.le_refl _, positive, ?_, ?_, ?_, ?_⟩
    · simp only [within_cons, none]
      split <;> omega
    · intro t found
      rcases List.mem_cons.mp found with rfl | earlier
      · show t < t + length
        omega
      · have := past t earlier
        show t < now + length
        omega
    · intro x reach
      have limited := behind x reach
      rw [within_cons]
      split <;> omega
    · intro s found
      rcases List.mem_cons.mp found with rfl | earlier
      · exact .inl rfl
      · exact .inr (ended s earlier)
  · intro s found
    rw [within_cons]
    rcases List.mem_cons.mp found with rfl | earlier
    · rw [none]
      split <;> omega
    · have limited := fair.perWindow s earlier
      have gone := ended s earlier
      split <;> omega
  · intro x
    have limited := fair.perInterval x
    rw [within_cons]
    by_cases inside : x ≤ now ∧ now < x + length
    · have room := behind x (by omega)
      have shorter := before x (x + length) (by omega)
      rw [if_pos inside]
      omega
    · rw [if_neg inside]
      exact limited

/-- An arrival that is admitted to the open window. -/
theorem Fair.joins {c : Window} (fair : Fair limit length now h) (recorded : h.window = some c)
    (current : now < c.expiry) (room : c.count < limit) :
    Fair limit length now ⟨some { c with count := c.count + 1 }, now :: h.admitted, h.starts⟩ := by
  obtain ⟨start, inv⟩ := fair.window c recorded
  have expires := inv.expires
  have started := inv.started
  have counted := inv.counted
  constructor
  · exact fun impossible => nomatch impossible
  · rintro _ ⟨⟩
    refine ⟨start, expires, started, Nat.le_add_left _ _, room, ?_, ?_, ?_, inv.starts⟩
    · show within start c.expiry (now :: h.admitted) = c.count + 1
      rw [within_cons, if_pos ⟨started, current⟩, counted]
    · intro t found
      rcases List.mem_cons.mp found with rfl | earlier
      · exact current
      · exact inv.past t earlier
    · intro x reach
      have limited := inv.before x reach
      rw [within_cons, if_neg (by omega)]
      exact limited
  · intro s found
    have limited := fair.perWindow s found
    rw [within_cons]
    rcases inv.starts s found with rfl | earlier
    · rw [← expires, counted]
      split <;> omega
    · rw [if_neg (by omega)]
      exact limited
  · intro x
    have limited := fair.perInterval x
    rw [within_cons]
    by_cases inside : x ≤ now ∧ now < x + length
    · rw [if_pos inside]
      have late : within start (x + length) h.admitted ≤ within start c.expiry h.admitted := by
        apply within_mono
        exact fun t found later _ => ⟨later, inv.past t found⟩
      by_cases early : x < start
      · have split := within_split x start (x + length) h.admitted
        have before := inv.before x (by omega)
        omega
      · have inner : within x (x + length) h.admitted ≤ within start (x + length) h.admitted := by
          apply within_mono
          exact fun t _ later sooner => ⟨by omega, sooner⟩
        omega
    · rw [if_neg inside]
      exact limited

/-- One arrival keeps the invariant. -/
theorem Fair.arrive (fair : Fair limit length now h) (positive : 1 ≤ limit) (lasting : 1 ≤ length) :
    Fair limit length now (h.arrive limit length now) := by
  rcases judge_cases length now h.window positive with
    ⟨closed, none, judged⟩ | ⟨c, recorded, current, opened, ⟨room, judged⟩ | ⟨full, judged⟩⟩
  · rw [History.arrive, judged]
    simp only [none, if_true]
    exact fair.opens positive lasting closed
  · rw [History.arrive, judged]
    simp only [opened, Bool.false_eq_true, if_false]
    exact fair.joins recorded current room
  · rw [History.arrive, judged]
    exact fair

end Steps

/-! What a limiter that never refuses makes of its arrivals, read off their times alone. The
lists have the latest time first. -/

/-- The times that open a window. -/
def windowStarts (length : Nat) : List Nat → List Nat
  | [] => []
  | t :: earlier =>
    match windowStarts length earlier with
    | [] => [t]
    | s :: older => if t < s + length then s :: older else t :: s :: older

/-- The last window, with everything that arrived in it. -/
def windowOf (length : Nat) (times : List Nat) : Option Window :=
  (windowStarts length times).head?.map fun s => ⟨within s (s + length) times, s + length⟩

/-- No window is to admit more than the limit. -/
def Uncrowded (limit length : Nat) (times : List Nat) : Prop :=
  ∀ s ∈ windowStarts length times, within s (s + length) times ≤ limit

instance (limit length : Nat) (times : List Nat) : Decidable (Uncrowded limit length times) :=
  inferInstanceAs (Decidable (∀ s ∈ windowStarts length times, within s (s + length) times ≤ limit))

section Arrivals

variable {limit length t s : Nat} {times older : List Nat}

theorem windowStarts_empty (none : windowStarts length times = []) : times = [] := by
  cases times with
  | nil => rfl
  | cons t earlier =>
    simp only [windowStarts] at none
    split at none
    · contradiction
    · split at none <;> contradiction

/-- The last window reaches beyond every arrival, and the ones before it have ended. -/
theorem windowStarts_cons (lasting : 1 ≤ length) (ordered : times.Pairwise (· ≥ ·))
    (starts : windowStarts length times = s :: older) :
    (∀ x ∈ times, x < s + length) ∧ (∀ x ∈ older, x + length ≤ s) ∧ ∃ x ∈ times, s ≤ x := by
  induction times generalizing s older with
  | nil => contradiction
  | cons t earlier ih =>
    obtain ⟨latest, rest⟩ := List.pairwise_cons.mp ordered
    have opened : ∀ x ∈ t :: earlier, x < t + length := by
      intro x found
      rcases List.mem_cons.mp found with rfl | before
      · omega
      · have := latest x before
        omega
    cases before : windowStarts length earlier with
    | nil =>
      simp only [windowStarts, before] at starts
      obtain ⟨rfl, rfl⟩ := List.cons.inj starts
      exact ⟨opened, fun _ none => absurd none List.not_mem_nil, t,
        List.mem_cons_self, Nat.le_refl t⟩
    | cons s₀ older₀ =>
      obtain ⟨past, ended, x, arrived, since⟩ := ih rest before
      simp only [windowStarts, before] at starts
      split at starts
      · rename_i joined
        obtain ⟨rfl, rfl⟩ := List.cons.inj starts
        refine ⟨fun y found => ?_, ended, x, List.mem_cons_of_mem t arrived, since⟩
        rcases List.mem_cons.mp found with rfl | earlier'
        · exact joined
        · exact past y earlier'
      · rename_i apart
        obtain ⟨rfl, rfl⟩ := List.cons.inj starts
        refine ⟨opened, fun y found => ?_, t, List.mem_cons_self, Nat.le_refl t⟩
        rcases List.mem_cons.mp found with rfl | earlier'
        · omega
        · have := ended y earlier'
          omega

/-- The last window holds the arrival that opened it. -/
theorem windowOf_positive {w : Window} (lasting : 1 ≤ length) (ordered : times.Pairwise (· ≥ ·))
    (last : windowOf length times = some w) : 1 ≤ w.count := by
  cases starts : windowStarts length times with
  | nil =>
    rw [windowOf, starts] at last
    contradiction
  | cons s older =>
    obtain ⟨past, -, x, arrived, since⟩ := windowStarts_cons lasting ordered starts
    rw [windowOf, starts] at last
    cases Option.some.inj last
    apply List.countP_pos_iff.mpr
    exact ⟨x, arrived, by simp only [since, past x arrived, decide_true, Bool.and_self]⟩

/-- An arrival opens a window, which holds nothing else, or falls into the last one. -/
theorem arrival_cases (lasting : 1 ≤ length) (ordered : (t :: times).Pairwise (· ≥ ·)) :
    (windowStarts length (t :: times) = t :: windowStarts length times ∧
      (∀ s ∈ windowStarts length times, s + length ≤ t) ∧ within t (t + length) (t :: times) = 1) ∨
    ∃ s older, windowStarts length times = s :: older ∧
      windowStarts length (t :: times) = s :: older ∧
      s ≤ t ∧ t < s + length ∧ ∀ x ∈ older, x + length ≤ s := by
  obtain ⟨latest, rest⟩ := List.pairwise_cons.mp ordered
  have alone : (∀ x ∈ times, x < t) → within t (t + length) (t :: times) = 1 := by
    intro past
    have none : within t (t + length) times = 0 := by
      apply List.countP_eq_zero.mpr
      intro x found
      have := past x found
      simp only [Bool.and_eq_true, decide_eq_true_eq]
      omega
    rw [within_cons, none, if_pos (by omega)]
  cases starts : windowStarts length times with
  | nil =>
    have nothing := windowStarts_empty starts
    subst nothing
    exact .inl ⟨rfl, fun _ none => absurd none List.not_mem_nil, alone fun _ none =>
      absurd none List.not_mem_nil⟩
  | cons s older =>
    obtain ⟨past, ended, x, arrived, since⟩ := windowStarts_cons lasting rest starts
    by_cases joins : t < s + length
    · have reached := latest x arrived
      exact .inr ⟨s, older, rfl, by simp only [windowStarts, starts, joins, if_true], by omega,
        joins, ended⟩
    · refine .inl ⟨by simp only [windowStarts, starts, joins, if_false], fun y found => ?_,
        alone fun y found => ?_⟩
      · rcases List.mem_cons.mp found with rfl | before
        · omega
        · have := ended y before
          omega
      · have := past y found
        omega

/-- One more arrival crowds the last window, if any. -/
theorem uncrowded_cons (lasting : 1 ≤ length) (ordered : (t :: times).Pairwise (· ≥ ·)) :
    Uncrowded limit length (t :: times) ↔
      Uncrowded limit length times ∧ ∀ w ∈ windowOf length (t :: times), w.count ≤ limit := by
  have outside : ∀ s, s + length ≤ t → within s (s + length) (t :: times) = within s
      (s + length) times := by
    intro s ended
    rw [within_cons, if_neg (by omega), Nat.add_zero]
  rcases arrival_cases lasting ordered with ⟨starts, ended, -⟩ | ⟨s, older, before,
    starts, since, inside, ended⟩
  · simp only [Uncrowded, windowOf, starts, List.forall_mem_cons, List.head?_cons,
      Option.map_some, Option.mem_def, Option.some.injEq, forall_eq']
    rw [and_comm]
    refine and_congr_left fun _ => forall_congr' fun s => forall_congr' fun found => ?_
    rw [outside s (ended s found)]
  · have grows : within s (s + length) (t :: times) = within s (s + length) times + 1 := by
      rw [within_cons, if_pos ⟨since, inside⟩]
    have others : (∀ x ∈ older, within x (x + length) (t :: times) ≤ limit) ↔
        ∀ x ∈ older, within x (x + length) times ≤ limit := by
      refine forall_congr' fun x => forall_congr' fun found => ?_
      have := ended x found
      rw [outside x (by omega)]
    simp only [Uncrowded, windowOf, starts, before, List.forall_mem_cons,
      List.head?_cons, Option.map_some,
      Option.mem_def, Option.some.injEq, forall_eq', others, grows]
    constructor
    · exact fun ⟨here, rest⟩ => ⟨⟨by omega, rest⟩, here⟩
    · exact fun ⟨⟨_, rest⟩, here⟩ => ⟨here, rest⟩

/-- The limiter admits an arrival exactly if it crowds no window, and counts it then. -/
theorem judge_windowOf (positive : 1 ≤ limit) (lasting : 1 ≤ length)
    (ordered : (t :: times).Pairwise (· ≥ ·)) (uncrowded : Uncrowded limit length times) :
    judge limit length t (windowOf length times) =
      if Uncrowded limit length (t :: times) then (true, windowOf length (t :: times))
      else (false, windowOf length times) := by
  have crowds : Uncrowded limit length (t :: times) ↔ _ := uncrowded_cons lasting ordered
  rcases arrival_cases lasting ordered with ⟨starts, ended, alone⟩ | ⟨s, older, before,
    starts, since, inside, -⟩
  · have last : windowOf length (t :: times) = some ⟨1, t + length⟩ := by
      rw [windowOf, starts, List.head?_cons, Option.map_some, alone]
    have fits : Uncrowded limit length (t :: times) := by
      refine crowds.mpr ⟨uncrowded, ?_⟩
      rw [last]
      rintro _ ⟨⟩
      exact positive
    rw [if_pos fits, last]
    rcases judge_cases length t (windowOf length times) positive with ⟨-, -,
      judged⟩ | ⟨c, recorded, current, -⟩
    · exact judged
    · -- the last window has ended
      cases old : windowStarts length times with
      | nil =>
        rw [windowOf, old] at recorded
        contradiction
      | cons s older =>
        rw [windowOf, old] at recorded
        cases Option.some.inj recorded
        have gone := ended s (old ▸ List.mem_cons_self)
        exact absurd current (Nat.not_lt.mpr gone)
  · have grows : within s (s + length) (t :: times) = within s (s + length) times + 1 := by
      rw [within_cons, if_pos ⟨since, inside⟩]
    have last : windowOf length times = some ⟨within s (s + length) times, s + length⟩ := by
      rw [windowOf, before, List.head?_cons, Option.map_some]
    have next : windowOf length (t :: times) =
        some ⟨within s (s + length) times + 1, s + length⟩ := by
      rw [windowOf, starts, List.head?_cons, Option.map_some, grows]
    have fits : Uncrowded limit length (t :: times) ↔ within s (s + length) times < limit := by
      rw [crowds, next]
      simp only [Option.mem_def, Option.some.injEq, forall_eq', uncrowded,
        true_and, Nat.succ_le_iff]
    rw [last, next]
    rcases judge_cases length t (some ⟨within s (s + length) times, s + length⟩) positive with
      ⟨closed, -, -⟩ | ⟨c, recorded, -, -, ⟨room, judged⟩ | ⟨full, judged⟩⟩
    · exact absurd (closed _ rfl) (Nat.not_le.mpr inside)
    · cases Option.some.inj recorded
      rw [if_pos (fits.mpr room), judged]
    · cases Option.some.inj recorded
      rw [if_neg fun uncrowded => Nat.not_lt.mpr full (fits.mp uncrowded), judged]

end Arrivals
end Limiting
