import CorePlatform.Common.Json
import Mathlib.Data.Int.Log
import Mathlib.Data.Nat.Factorization.Basic
import Mathlib.Data.Rat.Floor
import Mathlib.Tactic.Linarith
import Mathlib.Tactic.NormNum
import Mathlib.Tactic.Positivity
import Mathlib.Tactic.Ring

/-! ECMAScript numbers: rationals rounded to double precision, and `Number(text)`. The two zeros
are one value here. -/
namespace CorePlatform

inductive Number where
  | nan
  | infinity (negative : Bool)
  | finite (q : ℚ)
  deriving DecidableEq

namespace Number

/-- The nearest integer, of two the even one. -/
def nearestEven (x : ℚ) : ℤ :=
  let n := ⌊x⌋
  if x - n < 1 / 2 then n
  else if 1 / 2 < x - n then n + 1
  else if n % 2 = 0 then n
  else n + 1

/-- The exponent of the last place of the significand. -/
def lastPlace (q : ℚ) : ℤ := max (Int.log 2 |q| - 52) (-1074)

/-- The number nearest to a rational. -/
def ofRat (q : ℚ) : Number :=
  let r := nearestEven (q / 2 ^ lastPlace q) * (2 : ℚ) ^ lastPlace q
  if |r| < 2 ^ 1024 then finite r else infinity (q < 0)

/-- `a <= b` -/
def le : Number → Number → Bool
  | .nan, _ | _, .nan => false
  | .infinity negative, b => negative || b = .infinity false
  | .finite _, .infinity negative => !negative
  | .finite a, .finite b => a ≤ b

/-- `Math.max(a, b)` -/
def max : Number → Number → Number
  | .nan, _ | _, .nan => .nan
  | a, b => if a.le b then b else a

/-- `Math.min(a, b)` -/
def min : Number → Number → Number
  | .nan, _ | _, .nan => .nan
  | a, b => if a.le b then a else b

/-- `a - b` -/
def sub : Number → Number → Number
  | .finite a, .finite b => ofRat (a - b)
  | .infinity s, .infinity t => if s = t then .nan else .infinity s
  | .infinity s, .finite _ => .infinity s
  | .finite _, .infinity t => .infinity !t
  | .nan, _ | _, .nan => .nan

/-- `a * b` -/
def mul : Number → Number → Number
  | .finite a, .finite b => ofRat (a * b)
  | .infinity s, .infinity t => .infinity (s != t)
  | .infinity s, .finite q | .finite q, .infinity s =>
      if q = 0 then .nan else .infinity (s != decide (q < 0))
  | .nan, _ | _, .nan => .nan

def neg : Number → Number
  | .finite q => .finite (-q)
  | .infinity s => .infinity !s
  | .nan => .nan

/-- `a + b` -/
def add (a b : Number) : Number := a.sub b.neg

/-- `a / b` -/
def div : Number → Number → Number
  | .finite a, .finite b =>
    if b ≠ 0 then ofRat (a / b) else if a = 0 then .nan else .infinity (a < 0)
  | .infinity s, .finite b => .infinity (s != decide (b < 0))
  | .finite _, .infinity _ => .finite 0
  | .infinity _, .infinity _ => .nan
  | .nan, _ | _, .nan => .nan

/-- `Math.floor(a)` -/
def floor : Number → Number
  | .finite q => .finite ⌊q⌋
  | n => n

/-- The value of digits, most significant first. -/
def ofDigits (radix : ℕ) (digits : List ℕ) : ℕ :=
  digits.foldl (fun n digit => radix * n + digit) 0

/-- The digits of an integer literal, at least one. -/
def digits? (radix : ℕ) (cs : List Char) : Option ℕ :=
  if cs = [] then none
  else (cs.mapM fun c => (JSON.hexDigit? c).filter (· < radix)).map (ofDigits radix)

/-- `0b`, `0o` and `0x` -/
def nonDecimal? : List Char → Option ℕ
  | '0' :: c :: cs =>
    if c = 'x' ∨ c = 'X' then digits? 16 cs
    else if c = 'o' ∨ c = 'O' then digits? 8 cs
    else if c = 'b' ∨ c = 'B' then digits? 2 cs
    else none
  | _ => none

def exponent? : List Char → Option ℤ
  | [] => some 0
  | e :: cs =>
    if e = 'e' ∨ e = 'E' then
      match cs with
      | '+' :: cs => (digits? 10 cs).map Int.ofNat
      | '-' :: cs => (digits? 10 cs).map fun n => -Int.ofNat n
      | cs => (digits? 10 cs).map Int.ofNat
    else none

/-- What follows the digits in front of a decimal point, if there is one: the digits after it, and
the exponent. -/
def fraction : List Char → List Char × List Char
  | '.' :: cs => (cs.takeWhile Char.isDigit, cs.dropWhile Char.isDigit)
  | cs => ([], cs)

def decimal? (cs : List Char) : Option ℚ := do
  let (after, rest) := fraction (cs.dropWhile Char.isDigit)
  let n ← digits? 10 (cs.takeWhile Char.isDigit ++ after)
  let e ← exponent? rest
  return n * 10 ^ (e - after.length)

/-- What is in front of the fraction of a number that is written without a sign. -/
def wholePart? (text : String) : Option ℕ := (decimal? text.toList).map fun q => ⌊q⌋.toNat

def unsigned (cs : List Char) : Number :=
  if cs = "Infinity".toList then .infinity false
  else (decimal? cs).elim .nan ofRat

/-- `StringToNumber` -/
def ofString (text : String) : Number :=
  let cs := (Js.trim text).toList
  if cs = [] then .finite 0
  else match nonDecimal? cs with
    | some n => ofRat n
    | none => match cs with
      | '+' :: cs => unsigned cs
      | '-' :: cs => (unsigned cs).neg
      | cs => unsigned cs

/-- A natural number with at most 53 digits before its trailing zeros in binary. -/
def Representable (n : ℕ) : Prop := ∃ m k : ℕ, m ≤ 2 ^ 53 ∧ n = m * 2 ^ k

theorem Representable.of_le {n : ℕ} (small : n ≤ 2 ^ 53) : Representable n :=
  ⟨n, 0, small, (mul_one n).symm⟩

/-- A representable number has no digit behind its last place. -/
theorem Representable.dvd {n : ℕ} (representable : Representable n) :
    2 ^ (Nat.log 2 n - 52) ∣ n := by
  obtain ⟨m, k, bound, rfl⟩ := representable
  by_cases full : m = 2 ^ 53
  · rw [full, ← pow_add, Nat.log_pow (by decide)]
    exact pow_dvd_pow 2 (by omega)
  by_cases zero : m = 0
  · rw [zero, zero_mul]
    exact dvd_zero _
  have below : m * 2 ^ k < 2 ^ (53 + k) := by
    rw [pow_add]
    exact Nat.mul_lt_mul_of_pos_right (by omega) (by positivity)
  have log : Nat.log 2 (m * 2 ^ k) < 53 + k := Nat.log_lt_of_lt_pow (by positivity) below
  exact (pow_dvd_pow 2 (by omega)).trans (dvd_mul_left _ _)

section Rounding

theorem nearestEven_intCast (z : ℤ) : nearestEven z = z := by
  simp only [nearestEven, Int.floor_intCast, sub_self]
  rw [if_pos (by norm_num)]

/-- An integer number of last places is a number. -/
theorem ofRat_exact {q : ℚ} {z : ℤ} (places : q = z * 2 ^ lastPlace q) (bounded : |q| < 2 ^ 1024) :
    ofRat q = finite q := by
  have positive : (2 : ℚ) ^ lastPlace q ≠ 0 := (zpow_pos (by norm_num) _).ne'
  have whole : q / 2 ^ lastPlace q = z := (div_eq_iff positive).mpr places
  simp only [ofRat, whole, nearestEven_intCast]
  rw [← places, if_pos bounded]

theorem ofRat_zero : ofRat 0 = finite 0 :=
  ofRat_exact (z := 0) (by rw [Int.cast_zero, zero_mul]) (by norm_num)

theorem ofRat_natCast {n : ℕ} (representable : Representable n) (bounded : n < 2 ^ 1024) :
    ofRat n = finite n := by
  by_cases zero : n = 0
  · subst zero
    rw [Nat.cast_zero, ofRat_zero]
  have magnitude : |(n : ℚ)| = n := abs_of_nonneg (Nat.cast_nonneg n)
  have bounded : |(n : ℚ)| < 2 ^ 1024 := by
    rw [magnitude]
    exact_mod_cast bounded
  have place : lastPlace n = (Nat.log 2 n : ℤ) - 52 := by
    rw [lastPlace, magnitude, Int.log_natCast]
    omega
  by_cases small : Nat.log 2 n ≤ 52
  · refine ofRat_exact (z := n * 2 ^ (52 - Nat.log 2 n)) ?_ bounded
    have exponent : lastPlace n = -((52 - Nat.log 2 n : ℕ) : ℤ) := by omega
    rw [exponent, zpow_neg, zpow_natCast]
    push_cast
    rw [mul_assoc, mul_inv_cancel₀ (by positivity), mul_one]
  · have exponent : lastPlace n = ((Nat.log 2 n - 52 : ℕ) : ℤ) := by omega
    obtain ⟨z, places⟩ := representable.dvd
    refine ofRat_exact (z := z) ?_ bounded
    rw [exponent, zpow_natCast]
    have places : (n : ℚ) = 2 ^ (Nat.log 2 n - 52) * z := by exact_mod_cast places
    rw [mul_comm]
    exact_mod_cast places

theorem nearestEven_bounds (x : ℚ) : ⌊x⌋ ≤ nearestEven x ∧ nearestEven x ≤ ⌊x⌋ + 1 := by
  unfold nearestEven
  dsimp only
  split_ifs <;> omega

/-- A magnitude is less than 53 binary digits of last places. -/
theorem abs_div_lastPlace (q : ℚ) : |q / 2 ^ lastPlace q| < 2 ^ 53 := by
  have positive : (0 : ℚ) < 2 ^ lastPlace q := zpow_pos (by norm_num) _
  have places : Int.log 2 |q| + 1 ≤ 53 + lastPlace q := by
    have first : Int.log 2 |q| - 52 ≤ lastPlace q := le_max_left _ _
    omega
  rw [abs_div, abs_of_pos positive, div_lt_iff₀ positive]
  calc |q| < (2 : ℚ) ^ (Int.log 2 |q| + 1) := Int.lt_zpow_succ_log_self (by decide) _
    _ ≤ 2 ^ (53 + lastPlace q) := zpow_le_zpow_right₀ (by norm_num) places
    _ = 2 ^ 53 * 2 ^ lastPlace q := by
      rw [zpow_add₀ (by norm_num)]
      norm_num

/-- A natural number that rounding gives is representable. -/
theorem representable_of_ofRat {q : ℚ} {n : ℕ} (rounded : ofRat q = finite n) :
    Representable n := by
  simp only [ofRat] at rounded
  split at rounded
  · have value := finite.inj rounded
    have bounds := nearestEven_bounds (q / 2 ^ lastPlace q)
    have above := (abs_lt.mp (abs_div_lastPlace q)).2
    have floor : ⌊q / 2 ^ lastPlace q⌋ < 2 ^ 53 := by
      rw [Int.floor_lt]
      exact_mod_cast above
    generalize nearestEven (q / 2 ^ lastPlace q) = m at value bounds
    by_cases whole : 0 ≤ lastPlace q
    · obtain ⟨k, places⟩ := Int.eq_ofNat_of_zero_le whole
      rw [places, zpow_natCast] at value
      have value : m * 2 ^ k = (n : ℤ) := by exact_mod_cast value
      have positive : 0 ≤ m := by
        by_contra negative
        have := mul_neg_of_neg_of_pos (not_le.mp negative) (pow_pos (by decide : (0 : ℤ) < 2) k)
        omega
      refine ⟨m.toNat, k, by omega, ?_⟩
      zify
      rw [Int.toNat_of_nonneg positive, value]
    · refine .of_le ?_
      have small : (2 : ℚ) ^ lastPlace q ≤ 1 := zpow_le_one_of_nonpos₀ (by norm_num) (by omega)
      have positive : (0 : ℚ) < 2 ^ lastPlace q := zpow_pos (by norm_num) _
      have bound : (m : ℚ) ≤ 2 ^ 53 := by exact_mod_cast (by omega : m ≤ 2 ^ 53)
      have value : (n : ℚ) ≤ 2 ^ 53 := by
        rw [← value]
        nlinarith
      exact_mod_cast value
  · contradiction

end Rounding

/-- A number is less than any infinity. -/
theorem bounded_of_ofRat {q : ℚ} {n : ℕ} (rounded : ofRat q = finite n) : n < 2 ^ 1024 := by
  simp only [ofRat] at rounded
  split at rounded
  · rename_i bounded
    rw [finite.inj rounded, abs_of_nonneg (Nat.cast_nonneg n)] at bounded
    exact_mod_cast bounded
  · contradiction

/-- A product with an odd factor has that factor among its digits. -/
theorem Representable.odd_le {a b : ℕ} (representable : Representable (a * b)) (odd : Odd a)
    (filled : 0 < b) : a ≤ 2 ^ 53 := by
  obtain ⟨m, k, bound, product⟩ := representable
  have coprime : (2 ^ k).Coprime a := odd.coprime_two_left.pow_left k
  obtain ⟨c, rfl⟩ : 2 ^ k ∣ b := coprime.dvd_of_dvd_mul_left ⟨m, by rw [product, mul_comm]⟩
  have positive : 0 < c := Nat.pos_of_mul_pos_left filled
  have same : a * c = m := by
    refine Nat.eq_of_mul_eq_mul_right (pow_pos (by decide : 0 < 2) k) ?_
    rw [← product]
    ring
  exact (Nat.le_mul_of_pos_right a positive).trans (same.le.trans bound)

/-- The factors of a representable number are representable. -/
theorem Representable.factor {a b : ℕ} (representable : Representable (a * b)) (filled : 0 < b) :
    Representable a := by
  by_cases zero : a = 0
  · exact .of_le (zero ▸ Nat.zero_le _)
  obtain ⟨k, o, odd, rfl⟩ := Nat.exists_eq_two_pow_mul_odd zero
  have product : Representable (o * (2 ^ k * b)) := by
    rw [← mul_assoc, mul_comm o]
    exact representable
  exact ⟨o, k, product.odd_le odd (by positivity), mul_comm _ _⟩

section Quotients

/-- Rounding is off by half a last place at most. -/
theorem abs_nearestEven_sub (x : ℚ) : |nearestEven x - x| ≤ 1 / 2 := by
  have lower := Int.floor_le x
  have upper := Int.lt_floor_add_one x
  unfold nearestEven
  dsimp only
  rw [abs_le]
  split_ifs
  all_goals
    push_cast
    constructor <;> linarith

/-- The last place of a quotient of safe integers: it has no more of them than the numerator has
units, and 1 is a whole number of them. -/
theorem lastPlace_div {m n : ℕ} (filled : 0 < m) (small : m < 2 ^ 53) (positive : 0 < n)
    (bounded : n < 2 ^ 53) : lastPlace (m / n) ≤ 0 ∧
      (2 : ℚ) ^ lastPlace (m / n) * 2 ^ 52 ≤ m / n := by
  have m1 : (1 : ℚ) ≤ m := by exact_mod_cast filled
  have m2 : (m : ℚ) < 2 ^ 53 := by exact_mod_cast small
  have n1 : (1 : ℚ) ≤ n := by exact_mod_cast positive
  have n2 : (n : ℚ) < 2 ^ 53 := by exact_mod_cast bounded
  have q : (0 : ℚ) < m / n := by positivity
  have above : Int.log 2 ((m : ℚ) / n) < 53 := by
    refine (Int.lt_zpow_iff_log_lt (by decide) q).mp ?_
    rw [div_lt_iff₀ (by positivity), zpow_ofNat]
    exact m2.trans_le (le_mul_of_one_le_right (by positivity) n1)
  have below : -53 ≤ Int.log 2 ((m : ℚ) / n) := by
    refine (Int.zpow_le_iff_le_log (by decide) q).mp ?_
    rw [le_div_iff₀ (by positivity), zpow_neg, zpow_ofNat, inv_mul_le_iff₀ (by positivity)]
    exact n2.le.trans (le_mul_of_one_le_right (by positivity) m1)
  have places : lastPlace (m / n) = Int.log 2 ((m : ℚ) / n) - 52 := by
    rw [lastPlace, abs_of_pos q]
    omega
  refine ⟨by omega, ?_⟩
  rw [places, zpow_sub₀ (by norm_num)]
  calc (2 : ℚ) ^ Int.log 2 ((m : ℚ) / n) / 2 ^ (52 : ℤ) * 2 ^ 52
      = 2 ^ Int.log 2 ((m : ℚ) / n) := div_mul_cancel₀ _ (by norm_num)
    _ ≤ m / n := Int.zpow_log_le_self (by decide) q

/-- A quotient of safe integers is rounded to a number between the integers next to it. -/
theorem ofRat_div {m n : ℕ} (small : m < 2 ^ 53) (positive : 0 < n) (bounded : n < 2 ^ 53) :
    ∃ r : ℚ, ofRat (m / n) = finite r ∧ ⌊r⌋ = (m / n : ℕ) := by
  by_cases filled : m = 0
  · subst filled
    exact ⟨0, by rw [Nat.cast_zero, zero_div, ofRat_zero], by rw [Nat.zero_div]; rfl⟩
  obtain ⟨whole, places⟩ := lastPlace_div (Nat.pos_of_ne_zero filled) small positive bounded
  have n1 : (1 : ℚ) ≤ n := by exact_mod_cast positive
  have m2 : (m : ℚ) < 2 ^ 53 := by exact_mod_cast small
  generalize q_eq : (m : ℚ) / n = q at whole places ⊢
  have product : q * n = m := by rw [← q_eq, div_mul_cancel₀ _ (by positivity)]
  have unit : (0 : ℚ) < 2 ^ lastPlace q := zpow_pos (by norm_num) _
  have near := abs_le.mp (abs_nearestEven_sub (q / 2 ^ lastPlace q))
  have back : q / 2 ^ lastPlace q * 2 ^ lastPlace q = q := div_mul_cancel₀ _ unit.ne'
  -- The remainder leaves one n-th at least below the next integer.
  have next : q + 1 / n ≤ (m / n : ℕ) + 1 := by
    rw [← q_eq, ← add_div, div_le_iff₀ (by positivity), mul_comm]
    exact_mod_cast Nat.lt_mul_div_succ m positive
  have less : (2 : ℚ) ^ lastPlace q / 2 < 1 / n := by
    rw [lt_div_iff₀ (by positivity)]
    nlinarith
  have lower : ((m / n : ℕ) : ℚ) ≤ nearestEven (q / 2 ^ lastPlace q) * 2 ^ lastPlace q := by
    obtain ⟨k, place⟩ := Int.eq_ofNat_of_zero_le (neg_nonneg.mpr whole)
    have unit_eq : (2 : ℚ) ^ lastPlace q = (2 ^ k)⁻¹ := by
      rw [← zpow_natCast, ← zpow_neg, ← place, neg_neg]
    have scaled : ((m / n * 2 ^ k : ℕ) : ℤ) ≤ ⌊q / 2 ^ lastPlace q⌋ := by
      rw [Int.le_floor, unit_eq, div_inv_eq_mul, ← q_eq]
      have quotient : ((m / n : ℕ) : ℚ) ≤ m / n := by
        rw [le_div_iff₀ (by positivity)]
        exact_mod_cast Nat.div_mul_le_self m n
      push_cast
      exact mul_le_mul_of_nonneg_right quotient (by positivity)
    have rounded : ((m / n * 2 ^ k : ℕ) : ℤ) ≤ nearestEven (q / 2 ^ lastPlace q) :=
      scaled.trans (nearestEven_bounds _).1
    rw [unit_eq, ← div_eq_mul_inv, le_div_iff₀ (by positivity), ← unit_eq]
    calc ((m / n : ℕ) : ℚ) * 2 ^ k = (((m / n * 2 ^ k : ℕ) : ℤ) : ℚ) := by push_cast; rfl
      _ ≤ nearestEven (q / 2 ^ lastPlace q) := Int.cast_le.mpr rounded
  have upper : nearestEven (q / 2 ^ lastPlace q) * 2 ^ lastPlace q < ((m / n : ℕ) : ℚ) + 1 := by
    nlinarith
  have least : (0 : ℚ) ≤ (m / n : ℕ) := Nat.cast_nonneg _
  have most : ((m / n : ℕ) : ℚ) ≤ m := by exact_mod_cast Nat.div_le_self m n
  refine ⟨_, ?_, Int.floor_eq_iff.mpr ⟨lower, upper⟩⟩
  rw [ofRat, if_pos]
  rw [abs_of_nonneg (least.trans lower)]
  calc _ < ((m / n : ℕ) : ℚ) + 1 := upper
    _ ≤ 2 ^ 53 + 1 := by linarith
    _ < 2 ^ 54 := by norm_num
    _ ≤ 2 ^ 1024 := pow_le_pow_right₀ (by norm_num) (by decide)

end Quotients

section Digits

theorem isDigit_not_space {c : Char} (digit : c.isDigit = true) : Js.isSpace c = false := by
  have bounds : 48 ≤ c.toNat ∧ c.toNat ≤ 57 := Char.isDigit_iff_toNat.mp digit
  simp only [Js.isSpace, List.mem_cons, List.not_mem_nil, or_false]
  simp only [Bool.or_eq_false_iff, Bool.and_eq_false_iff, decide_eq_false_iff_not]
  omega

/-- A text of digits has nothing to trim. -/
theorem trim_digits {text : String} (digits : ∀ c ∈ text.toList, c.isDigit = true) :
    Js.trim text = text := by
  have kept : ∀ cs : List Char, (∀ c ∈ cs, c.isDigit = true) → cs.dropWhile Js.isSpace = cs := by
    intro cs digits
    cases cs with
    | nil => rfl
    | cons c cs =>
      have plain := isDigit_not_space (digits c List.mem_cons_self)
      exact List.dropWhile_cons_of_neg (Bool.eq_false_iff.mp plain)
  rw [Js.trim, kept _ digits, kept _ fun c member => digits c (List.mem_reverse.mp member),
    List.reverse_reverse, String.ofList_toList]

theorem hexDigit?_isDigit {c : Char} (digit : c.isDigit = true) :
    (JSON.hexDigit? c).filter (· < 10) = some (c.toNat - 48) := by
  have bounds : 48 ≤ c.toNat ∧ c.toNat ≤ 57 := Char.isDigit_iff_toNat.mp digit
  rw [JSON.hexDigit?, if_pos digit, Option.filter_some, if_pos (decide_eq_true (by omega))]

theorem digits?_ofDigitChars {cs : List Char} (digits : ∀ c ∈ cs, c.isDigit = true)
    (filled : cs ≠ []) : digits? 10 cs = some (Nat.ofDigitChars 10 cs 0) := by
  have read : cs.mapM (fun c => (JSON.hexDigit? c).filter (· < 10)) =
      some (cs.map fun c => c.toNat - 48) := by
    clear filled
    induction cs with
    | nil => rfl
    | cons c cs ih =>
      obtain ⟨first, others⟩ := List.forall_mem_cons.mp digits
      rw [List.mapM_cons, hexDigit?_isDigit first, ih others]
      rfl
  rw [digits?, if_neg filled, read, Option.map_some, ofDigits, List.foldl_map,
    Nat.ofDigitChars_eq_foldl]
  rfl

theorem nonDecimal?_digits {cs : List Char} (digits : ∀ c ∈ cs, c.isDigit = true) :
    nonDecimal? cs = none := by
  unfold nonDecimal?
  split
  · rename_i c cs
    have digit := digits c (List.mem_cons_of_mem _ List.mem_cons_self)
    have other : ∀ d : Char, d.isDigit = false → c ≠ d := by
      rintro d letter rfl
      exact absurd digit (Bool.eq_false_iff.mp letter)
    have letters : ∀ d ∈ ['x', 'X', 'o', 'O', 'b', 'B'], c ≠ d := by
      intro d member
      have plain : (['x', 'X', 'o', 'O', 'b', 'B'].all fun d => !d.isDigit) = true := by decide
      have letter := List.all_eq_true.mp plain d member
      exact other d (by simpa using letter)
    simp only [List.forall_mem_cons] at letters
    obtain ⟨x, upperX, o, upperO, b, upperB, -⟩ := letters
    rw [if_neg (not_or_intro x upperX), if_neg (not_or_intro o upperO),
      if_neg (not_or_intro b upperB)]
  · rfl

theorem decimal?_digits {cs : List Char} {n : ℕ} (digits : ∀ c ∈ cs, c.isDigit = true)
    (value : digits? 10 cs = some n) : decimal? cs = some (n : ℚ) := by
  have taken : cs.takeWhile Char.isDigit = cs := List.takeWhile_eq_self_iff.mpr digits
  have dropped : cs.dropWhile Char.isDigit = [] := List.dropWhile_eq_nil_iff.mpr digits
  rw [decimal?, taken, dropped]
  simp only [fraction, List.append_nil, value, exponent?, Option.bind_eq_bind, Option.bind_some,
    Option.pure_def, List.length_nil, Nat.cast_zero, sub_zero, zpow_zero, mul_one]

theorem unsigned_digits {cs : List Char} {n : ℕ} (digits : ∀ c ∈ cs, c.isDigit = true)
    (value : digits? 10 cs = some n) : unsigned cs = ofRat n := by
  have named : cs ≠ "Infinity".toList := by
    rintro rfl
    exact absurd (digits 'I' List.mem_cons_self) (by decide)
  rw [unsigned, if_neg named, decimal?_digits digits value, Option.elim_some]

theorem toList_toString (n : ℕ) : (toString n).toList = Nat.toDigits 10 n := String.toList_ofList

theorem ofDigitChars_toString (n : ℕ) : Nat.ofDigitChars 10 (toString n).toList 0 = n := by
  rw [toList_toString, Nat.ofDigitChars_toDigits (by decide) (by decide)]

/-- The digits of a natural number and their value. -/
theorem digits?_toString (n : ℕ) : digits? 10 (toString n).toList = some n := by
  have filled : (toString n).toList ≠ [] := toList_toString n ▸ Nat.toDigits_ne_nil
  rw [digits?_ofDigitChars (fun _ => JSON.isDigit_of_mem_toString) filled, ofDigitChars_toString]

/-- `Number` of the digits of a natural number. -/
theorem ofString_toString {n : ℕ} (small : n ≤ 2 ^ 53) : ofString (toString n) = finite n := by
  have digits : ∀ c ∈ (toString n).toList, c.isDigit = true := fun _ =>
    JSON.isDigit_of_mem_toString
  have filled : (toString n).toList ≠ [] := toList_toString n ▸ Nat.toDigits_ne_nil
  have value := digits?_toString n
  rw [ofString, trim_digits digits, if_neg filled, nonDecimal?_digits digits]
  obtain ⟨c, cs, same⟩ := List.exists_cons_of_ne_nil filled
  rw [same] at digits value ⊢
  have number := unsigned_digits digits value
  have digit := digits c List.mem_cons_self
  dsimp only
  split
  · rename_i plus
    rw [(List.cons.inj plus).1] at digit
    contradiction
  · rename_i minus
    rw [(List.cons.inj minus).1] at digit
    contradiction
  · have bounded : n < 2 ^ 1024 := by
      refine small.trans_lt ?_
      gcongr <;> norm_num
    rw [number, ofRat_natCast (.of_le small) bounded]

/-- A natural number is its own whole part. -/
theorem wholePart?_toString (n : ℕ) : wholePart? (toString n) = some n := by
  rw [wholePart?, decimal?_digits (fun _ => JSON.isDigit_of_mem_toString) (digits?_toString n),
    Option.map_some, Int.floor_natCast, Int.toNat_natCast]

end Digits

end Number
end CorePlatform
