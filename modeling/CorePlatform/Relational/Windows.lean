import Mathlib.Data.List.Basic
import Mathlib.Data.List.Nodup
import Mathlib.Tactic.Ring

/-! Pages of rows that an order leaves partly open. Each page is cut, by its offset and its limit,
out of the rows in some order of its own; rows that are equal in the order may stand either way. -/
namespace Relational

variable {α : Type} {le : α → α → Bool} {rows sorted : List α} {a : α} {m n limit : ℕ}

/-- The rows as a query may return them. -/
def Ordered (le : α → α → Bool) (rows sorted : List α) : Prop :=
  sorted.Perm rows ∧ sorted.Pairwise (le · ·)

/-- The number of rows that come before a row in every order. -/
def before (le : α → α → Bool) (rows : List α) (a : α) : ℕ := rows.countP fun b => !le a b

/-- The number of rows, the row itself included, that come no later than it in some order. -/
def upTo (le : α → α → Bool) (rows : List α) (a : α) : ℕ := rows.countP fun b => le b a

/-- No rows that are equal in the order stand on both sides of a position. -/
def Uncrossed (le : α → α → Bool) (rows : List α) (m : ℕ) : Prop :=
  ∀ a ∈ rows, m ≤ before le rows a ∨ upTo le rows a ≤ m

/-- The rows from an offset on, up to a limit. -/
def window (sorted : List α) (skip limit : ℕ) : List α := (sorted.drop skip).take limit

theorem take_add_window (k : ℕ) :
    sorted.take ((k + 1) * limit) = sorted.take (k * limit) ++ window sorted (k * limit) limit := by
  rw [Nat.succ_mul, List.take_add, window]

section Position

variable {front back : List α}

theorem before_le_length (total : ∀ a b, (le a b || le b a) = true)
    (ordered : Ordered le rows (front ++ a :: back)) : before le rows a ≤ front.length := by
  obtain ⟨perm, sorted⟩ := ordered
  have self : le a a = true := by simpa using total a a
  have later : ∀ b ∈ a :: back, ¬ (!le a b) = true := by
    intro b member
    rcases List.mem_cons.mp member with rfl | member
    · simp [self]
    · simp [(List.pairwise_cons.mp (List.pairwise_append.mp sorted).2.1).1 b member]
  rw [before, ← perm.countP_eq, List.countP_append, List.countP_eq_zero.mpr later]
  exact List.countP_le_length

theorem length_lt_upTo (total : ∀ a b, (le a b || le b a) = true)
    (ordered : Ordered le rows (front ++ a :: back)) : front.length < upTo le rows a := by
  obtain ⟨perm, sorted⟩ := ordered
  have self : le a a = true := by simpa using total a a
  have earlier : ∀ b ∈ front, le b a = true := fun b member =>
    (List.pairwise_append.mp sorted).2.2 b member a List.mem_cons_self
  rw [upTo, ← perm.countP_eq, List.countP_append, List.countP_eq_length.mpr earlier,
    List.countP_cons_of_pos (p := fun b => le b a) self]
  omega

end Position

/-- The rows in front of a position that is not crossed are the same in every order. -/
theorem take_perm_filter (total : ∀ a b, (le a b || le b a) = true)
    (ordered : Ordered le rows sorted) (uncrossed : Uncrossed le rows m) :
    (sorted.take m).Perm (rows.filter fun a => before le rows a < m) := by
  have kept : ∀ a ∈ sorted.take m, decide (before le rows a < m) = true := by
    intro a member
    obtain ⟨front, back, split⟩ := List.append_of_mem member
    have short : front.length < m := by
      have bound := List.length_take_le m sorted
      rw [split, List.length_append, List.length_cons] at bound
      omega
    have whole : sorted = front ++ a :: (back ++ sorted.drop m) := by
      rw [← List.cons_append, ← List.append_assoc, ← split, List.take_append_drop]
    exact decide_eq_true ((before_le_length total (whole ▸ ordered)).trans_lt short)
  have dropped : ∀ a ∈ sorted.drop m, ¬ decide (before le rows a < m) = true := by
    intro a member
    obtain ⟨front, back, split⟩ := List.append_of_mem member
    have whole : sorted = (sorted.take m ++ front) ++ a :: back := by
      rw [List.append_assoc, ← split, List.take_append_drop]
    have long : m ≤ (sorted.take m ++ front).length := by
      have filled : m < sorted.length := by
        by_contra short
        rw [List.drop_eq_nil_of_le (not_lt.mp short)] at member
        contradiction
      rw [List.length_append, List.length_take, min_eq_left filled.le]
      omega
    have inside := length_lt_upTo total (whole ▸ ordered)
    have stored : a ∈ rows := ordered.1.subset (List.mem_of_mem_drop member)
    rw [decide_eq_true_eq, not_lt]
    exact (uncrossed a stored).resolve_right (by omega)
  have same : sorted.take m = sorted.filter fun a => before le rows a < m := by
    conv_rhs => rw [← List.take_append_drop m sorted]
    rw [List.filter_append, List.filter_eq_self.mpr kept, List.filter_eq_nil_iff.mpr dropped,
      List.append_nil]
  rw [same]
  exact ordered.1.filter _

/-- The pages up to an offset are the rows in front of it. -/
theorem windows_perm_filter {sorted : ℕ → List α} (total : ∀ a b, (le a b || le b a) = true)
    (uncrossed : ∀ k, Uncrossed le rows (k * limit)) :
    (∀ k < n, Ordered le rows (sorted k)) →
    ((List.range n).flatMap fun k => window (sorted k) (k * limit) limit).Perm
      (rows.filter fun a => before le rows a < n * limit) := by
  induction n with
  | zero => simp
  | succ n ih =>
    intro ordered
    have earlier := ih fun k within => ordered k (by omega)
    have last := ordered n (by omega)
    have front := take_perm_filter total last (uncrossed n)
    rw [List.range_succ, List.flatMap_append, List.flatMap_singleton]
    refine ((earlier.trans front.symm).append_right _).trans ?_
    rw [← take_add_window]
    exact take_perm_filter total last (uncrossed (n + 1))

/-- All pages together are the rows. -/
theorem windows_perm {sorted : ℕ → List α} (total : ∀ a b, (le a b || le b a) = true)
    (uncrossed : ∀ k, Uncrossed le rows (k * limit)) (enough : rows.length ≤ n * limit)
    (ordered : ∀ k < n, Ordered le rows (sorted k)) :
    ((List.range n).flatMap fun k => window (sorted k) (k * limit) limit).Perm rows := by
  have every : ∀ a ∈ rows, decide (before le rows a < n * limit) = true := by
    intro a member
    have self : le a a = true := by simpa using total a a
    have fewer : before le rows a < rows.length := by
      rw [before, List.countP_eq_length_filter]
      refine List.length_filter_lt_length_iff_exists.mpr ⟨a, member, ?_⟩
      simp [self]
    exact decide_eq_true (fewer.trans_le enough)
  have pages := windows_perm_filter total uncrossed ordered
  rwa [List.filter_eq_self.mpr every] at pages

/-- Where a position is crossed, the rows next to it may be exchanged. -/
theorem exists_exchange (trans : ∀ a b c, le a b = true → le b c = true → le a c = true)
    (total : ∀ a b, (le a b || le b a) = true) (crossed : ¬ Uncrossed le rows m) :
    ∃ front x y back, front.length + 1 = m ∧ Ordered le rows (front ++ x :: y :: back) ∧
      Ordered le rows (front ++ y :: x :: back) := by
  simp only [Uncrossed, not_forall, not_or, not_le] at crossed
  obtain ⟨a, -, above, below⟩ := crossed
  have perm : (rows.mergeSort le).Perm rows := List.mergeSort_perm rows le
  have sorted : (rows.mergeSort le).Pairwise (le · ·) := List.pairwise_mergeSort trans total rows
  generalize rows.mergeSort le = sorted' at perm sorted
  have long : m < sorted'.length := by
    rw [perm.length_eq]
    exact below.trans_le List.countP_le_length
  obtain ⟨i, rfl⟩ : ∃ i, m = i + 1 := ⟨m - 1, by omega⟩
  obtain ⟨front, x, y, back, rfl, rfl⟩ :
      ∃ front x y back, sorted' = front ++ x :: y :: back ∧ front.length = i := by
    refine ⟨sorted'.take i, sorted'[i], sorted'[i + 1], sorted'.drop (i + 2), ?_, ?_⟩
    · rw [← List.drop_eq_getElem_cons, ← List.drop_eq_getElem_cons, List.take_append_drop]
    · rw [List.length_take, min_eq_left (by omega)]
  have parts := List.pairwise_append.mp sorted
  simp only [List.pairwise_cons, List.forall_mem_cons] at parts
  obtain ⟨inFront, ⟨⟨inOrder, xBack⟩, yBack, inBack⟩, across⟩ := parts
  have low : le a x = true := by
    by_contra high
    have strict : ∀ b ∈ front ++ [x], (!le a b) = true := by
      intro b member
      have small : le b x = true := by
        rcases List.mem_append.mp member with member | member
        · exact (across b member).1
        · rw [List.mem_singleton.mp member]
          simpa using total x x
      cases reached : le a b with
      | false => rfl
      | true => exact absurd (trans a b x reached small) high
    have many : (front ++ [x]).length ≤ before le rows a := by
      rw [before, ← perm.countP_eq, ← List.countP_eq_length.mpr strict]
      exact List.Sublist.countP_le (by simp)
    rw [List.length_append, List.length_singleton] at many
    omega
  have high : le y a = true := by
    by_contra low
    have strict : ∀ b ∈ y :: back, ¬ le b a = true := by
      intro b member small
      rcases List.mem_cons.mp member with rfl | member
      · exact low small
      · exact low (trans y b a (yBack b member) small)
    have few : upTo le rows a ≤ (front ++ [x]).length := by
      have split : front ++ x :: y :: back = (front ++ [x]) ++ y :: back := by simp
      rw [upTo, ← perm.countP_eq, split, List.countP_append, List.countP_eq_zero.mpr strict]
      exact List.countP_le_length
    rw [List.length_append, List.length_singleton] at few
    omega
  refine ⟨front, x, y, back, rfl, ⟨perm, sorted⟩, ?_, ?_⟩
  · exact ((List.Perm.swap x y back).append_left front).trans perm
  · refine List.pairwise_append.mpr ⟨inFront, ?_, ?_⟩
    · simp only [List.pairwise_cons, List.forall_mem_cons]
      exact ⟨⟨trans y a x high low, yBack⟩, xBack, inBack⟩
    · intro b member c member'
      obtain ⟨toX, toY, toBack⟩ := across b member
      rcases List.mem_cons.mp member' with rfl | member'
      · exact toY
      · rcases List.mem_cons.mp member' with rfl | member'
        · exact toX
        · exact toBack c member'

/-- The pages hold every row once, whatever the orders of their queries, exactly if no page ends
between rows that are equal. -/
theorem count_windows_iff [DecidableEq α]
    (trans : ∀ a b c, le a b = true → le b c = true → le a c = true)
    (total : ∀ a b, (le a b || le b a) = true) (distinct : rows.Nodup) (filled : 1 ≤ limit)
    (enough : rows.length ≤ n * limit) :
    (∀ sorted : ℕ → List α, (∀ k < n, Ordered le rows (sorted k)) → ∀ a ∈ rows,
      ((List.range n).flatMap fun k => window (sorted k) (k * limit) limit).count a = 1) ↔
      ∀ k, Uncrossed le rows (k * limit) := by
  constructor
  · intro once k
    by_contra crossed
    obtain ⟨front, x, y, back, length, ordered, exchanged⟩ := exists_exchange trans total crossed
    have short : front.length + 1 < n * limit := by
      have bound := ordered.1.length_eq
      simp only [List.length_append, List.length_cons] at bound
      omega
    obtain ⟨j, rfl⟩ : ∃ j, k = j + 1 := by
      refine ⟨k - 1, ?_⟩
      rcases Nat.eq_zero_or_pos k with rfl | positive
      · omega
      · omega
    obtain ⟨r, rfl⟩ : ∃ r, n = j + 1 + 1 + r := by
      have before : j + 1 < n := by
        rw [length] at short
        exact Nat.lt_of_mul_lt_mul_right short
      exact ⟨n - (j + 1 + 1), by omega⟩
    -- the row in front of the boundary comes again after it
    let sorted : ℕ → List α := fun i => if i = j + 1 then front ++ y :: x :: back
      else front ++ x :: y :: back
    have every : ∀ i < j + 1 + 1 + r, Ordered le rows (sorted i) := by
      intro i _
      simp only [sorted]
      split
      · exact exchanged
      · exact ordered
    have first : x ∈ window (sorted j) (j * limit) limit := by
      rw [Nat.succ_mul] at length
      have cut : limit = (front.drop (j * limit)).length + 1 := by
        rw [List.length_drop]
        omega
      have other : sorted j = front ++ x :: y :: back := if_neg (by omega)
      rw [window, other, List.drop_append_of_le_length (by omega)]
      generalize front.drop (j * limit) = rest at cut
      rw [cut, List.take_length_add_append, List.take_succ_cons]
      exact List.mem_append_right _ List.mem_cons_self
    have second : x ∈ window (sorted (j + 1)) ((j + 1) * limit) limit := by
      have same : sorted (j + 1) = (front ++ [y]) ++ x :: back := by simp [sorted]
      obtain ⟨l, rfl⟩ : ∃ l, limit = l + 1 := ⟨limit - 1, by omega⟩
      rw [window, same, ← length, List.drop_left' (by simp), List.take_succ_cons]
      exact List.mem_cons_self
    have stored : x ∈ rows := ordered.1.subset (by simp)
    have counted := once sorted every x stored
    rw [List.range_add, List.range_succ, List.range_succ] at counted
    simp only [List.flatMap_append, List.flatMap_singleton, List.count_append] at counted
    have first := List.count_pos_iff.mpr first
    have second := List.count_pos_iff.mpr second
    omega
  · intro uncrossed sorted ordered a member
    rw [(windows_perm total uncrossed enough ordered).count_eq]
    exact List.count_eq_one_of_mem distinct member

end Relational
