import CorePlatform.Common.Errors
import CorePlatform.Common.Number

/-! `parsePagination`: page, offset, sort and filter of a list request. The operations on numbers
are those of an arithmetic that computes exactly with natural numbers as far as they are safe: all
of them for rationals, those below 2^53 for doubles. -/
namespace CorePlatform.Pagination

structure Arithmetic (ν : Type) where
  nat : ℕ → ν
  falsy : ν → Bool
  /-- `a <= b` -/
  le : ν → ν → Bool
  add : ν → ν → ν
  sub : ν → ν → ν
  mul : ν → ν → ν
  div : ν → ν → ν
  floor : ν → ν
  Safe : ℕ → Prop
  safe_of_le : m ≤ n → Safe n → Safe m
  safe_ten : Safe 10
  nat_inj : Safe m → Safe n → nat m = nat n → m = n
  falsy_nat : Safe n → falsy (nat n) = decide (n = 0)
  le_nat : Safe m → Safe n → le (nat m) (nat n) = decide (m ≤ n)
  add_nat : Safe (m + n) → add (nat m) (nat n) = nat (m + n)
  sub_nat : Safe m → n ≤ m → sub (nat m) (nat n) = nat (m - n)
  mul_nat : Safe m → Safe n → Safe (m * n) → mul (nat m) (nat n) = nat (m * n)
  floor_div_nat : Safe m → Safe n → 0 < n → floor (div (nat m) (nat n)) = nat (m / n)

/-- The rationals: every natural number is safe. -/
def rationals : Arithmetic ℚ where
  nat n := n
  falsy q := q = 0
  le a b := a ≤ b
  add a b := a + b
  sub a b := a - b
  mul a b := a * b
  div a b := a / b
  floor q := ⌊q⌋
  Safe _ := True
  safe_of_le _ _ := trivial
  safe_ten := trivial
  nat_inj _ _ same := Nat.cast_injective same
  falsy_nat _ := by simp only [Nat.cast_eq_zero]
  le_nat _ _ := by simp only [Nat.cast_le]
  add_nat _ := (Nat.cast_add _ _).symm
  sub_nat _ ordered := (Nat.cast_sub ordered).symm
  mul_nat _ _ _ := (Nat.cast_mul _ _).symm
  floor_div_nat _ _ _ := by
    rw [Rat.floor_natCast_div_natCast]
    rfl

/-- A safe integer is a number. -/
theorem ofRat_safe {n : ℕ} (safe : n < 2 ^ 53) : Number.ofRat n = .finite n :=
  Number.ofRat_natCast (.of_le safe.le)
    (safe.trans_le (pow_le_pow_right₀ one_le_two (by omega)))

open Number in
/-- ECMAScript numbers: the integers up to `Number.MAX_SAFE_INTEGER` are safe. -/
def doubles : Arithmetic Number where
  nat n := ofRat n
  falsy n := n = finite 0 || n = .nan
  le := Number.le
  add := Number.add
  sub := Number.sub
  mul := Number.mul
  div := Number.div
  floor := Number.floor
  Safe n := n < 2 ^ 53
  safe_of_le := lt_of_le_of_lt
  safe_ten := by norm_num
  nat_inj := by
    intro m n small safe same
    rw [ofRat_safe small, ofRat_safe safe] at same
    exact Nat.cast_injective (finite.inj same)
  falsy_nat := by
    intro n safe
    rw [ofRat_safe safe, ← Nat.cast_zero]
    simp only [finite.injEq, Nat.cast_inj, reduceCtorEq, decide_false, Bool.or_false]
  le_nat := by
    intro m n small safe
    rw [ofRat_safe small, ofRat_safe safe]
    simp only [Number.le, Nat.cast_le]
  add_nat := by
    intro m n safe
    rw [ofRat_safe (lt_of_le_of_lt (Nat.le_add_right m n) safe),
      ofRat_safe (lt_of_le_of_lt (Nat.le_add_left n m) safe), Nat.cast_add, ← sub_neg_eq_add]
    rfl
  sub_nat := by
    intro m n safe ordered
    rw [ofRat_safe safe, ofRat_safe (lt_of_le_of_lt ordered safe), Nat.cast_sub ordered]
    rfl
  mul_nat := by
    intro m n small safe _
    rw [ofRat_safe small, ofRat_safe safe, Nat.cast_mul]
    rfl
  floor_div_nat := by
    intro m n small safe positive
    obtain ⟨r, rounded, floored⟩ := ofRat_div small positive safe
    have filled : (n : ℚ) ≠ 0 := Nat.cast_ne_zero.mpr positive.ne'
    rw [ofRat_safe small, ofRat_safe safe, Number.div, if_pos filled, rounded, Number.floor,
      floored, ofRat_safe (lt_of_le_of_lt (Nat.div_le_self m n) small), Int.cast_natCast]

inductive SortOrder where
  | ASC
  | DESC
  deriving DecidableEq

structure PaginationDto (ν : Type) where
  page : Option ν
  per_page : Option ν
  _start : Option ν
  _end : Option ν
  _sort : Option String
  _order : Option SortOrder
  filter : Option String

/-- The fields that a request leaves out. -/
def PaginationDto.initial {ν : Type} (A : Arithmetic ν) : PaginationDto ν :=
  ⟨some (A.nat 1), some (A.nat 10), none, none, none, some .ASC, none⟩

structure IPaginationOptions (ν : Type) where
  page : ν
  limit : ν
  skip : ν
  sort : List (String × SortOrder)
  filter : Js

/-- Numbers with their texts, and `JSON.parse`: a value, or the message of its error. -/
structure Runtime (ν : Type) extends Arithmetic ν where
  text : ν → String
  parse : String → Except String Js

variable {ν : Type} (rt : Runtime ν)

namespace Runtime

/-- `v || fallback` -/
def orElse (v : Option ν) (fallback : ℕ) : ν :=
  match v with
  | some n => if rt.falsy n then rt.nat fallback else n
  | none => rt.nat fallback

def outOfOrder (start stop : ν) : ServiceError where
  code := ErrorCodes.VALIDATION_ERROR
  statusCode := 400
  message := "Invalid pagination params: _end (" ++ rt.text stop ++
    ") must be greater than _start (" ++ rt.text start ++ ")"
  details := .obj [("_start", .num (rt.text start)), ("_end", .num (rt.text stop))]

/-- The page and its limit: those of the request, or those that the range comes to. -/
def pageAndLimit (dto : PaginationDto ν) : Except ServiceError (ν × ν) :=
  match dto._start, dto._end with
  | some start, some stop =>
    if rt.le stop start then .error (rt.outOfOrder start stop)
    else
      let limit := rt.sub stop start
      .ok (rt.add (rt.floor (rt.div start limit)) (rt.nat 1), limit)
  | _, _ => .ok (rt.orElse dto.page 1, rt.orElse dto.per_page 10)

/-- `sort[_sort] = ...`; an assignment to `__proto__` makes no field. -/
def sortOf (dto : PaginationDto ν) : List (String × SortOrder) :=
  match dto._sort with
  | some field =>
    if field = "" ∨ field = "__proto__" then []
    else [(field, if dto._order = some .DESC then .DESC else .ASC)]
  | none => []

def unreadable (text message : String) : ServiceError where
  code := ErrorCodes.VALIDATION_ERROR
  statusCode := 400
  message := "Invalid filter format: " ++ message ++ ". Provided value: " ++ text
  details := .obj [("filter", .str text)]

def filterOf (dto : PaginationDto ν) : Except ServiceError Js :=
  match dto.filter with
  | some text =>
    if text = "" then .ok (.obj [])
    else match rt.parse text with
      | .ok (.obj fields) => .ok (.obj fields)
      | .ok (.arr xs) => .ok (.arr xs)
      | .ok _ => .ok (.obj [])
      | .error message => .error (unreadable text message)
  | none => .ok (.obj [])

end Runtime

def parsePagination (dto : PaginationDto ν) : Except ServiceError (IPaginationOptions ν) := do
  let (page, limit) ← rt.pageAndLimit dto
  let skip := rt.mul (rt.sub page (rt.nat 1)) limit
  let sort := Runtime.sortOf dto
  let filter ← rt.filterOf dto
  return ⟨page, limit, skip, sort, filter⟩

namespace Runtime

/-- The filter is absent, empty or JSON. -/
def Readable (dto : PaginationDto ν) : Prop :=
  ∀ text ∈ dto.filter, text = "" ∨ ∃ v, rt.parse text = .ok v

/-- The rows from `start` on, up to `stop`. -/
structure Selects (o : IPaginationOptions ν) (start stop : ℕ) : Prop where
  skip : o.skip = rt.nat start
  limit : o.limit = rt.nat (stop - start)

/-- The request is answered with the rows from `start` on, up to `stop`. -/
def Answers (dto : PaginationDto ν) (start stop : ℕ) : Prop :=
  ∃ o, parsePagination rt dto = .ok o ∧ rt.Selects o start stop

end Runtime

section Slices

variable {rt} {dto : PaginationDto ν}

theorem filterOf_readable (readable : rt.Readable dto) : ∃ v, rt.filterOf dto = .ok v := by
  simp only [Runtime.filterOf]
  split
  · rename_i text given
    split
    · exact ⟨_, rfl⟩
    · rename_i filled
      obtain ⟨v, parsed⟩ := (readable text given).resolve_left filled
      rw [parsed]
      split
      · exact ⟨_, rfl⟩
      · exact ⟨_, rfl⟩
      · exact ⟨_, rfl⟩
      · contradiction
  · exact ⟨_, rfl⟩

/-- The offset is the limit times the pages in front. -/
theorem parsePagination_page {k n : ℕ}
    (paged : rt.pageAndLimit dto = .ok (rt.nat (k + 1), rt.nat n)) (safe : rt.Safe (k + 1))
    (limited : rt.Safe n) (product : rt.Safe (k * n))
    (readable : rt.Readable dto) :
    ∃ o, parsePagination rt dto = .ok o ∧ o.skip = rt.nat (k * n) ∧ o.limit = rt.nat n := by
  obtain ⟨v, read⟩ := filterOf_readable readable
  have previous : rt.sub (rt.nat (k + 1)) (rt.nat 1) = rt.nat k :=
    rt.sub_nat safe (Nat.le_add_left 1 k)
  have skipped : rt.mul (rt.nat k) (rt.nat n) = rt.nat (k * n) :=
    rt.mul_nat (rt.safe_of_le (Nat.le_succ k) safe) limited product
  simp only [parsePagination, paged, read, bind, Except.bind, previous, skipped]
  exact ⟨_, rfl, rfl, rfl⟩

theorem pageAndLimit_range {start stop : ℕ} (safe : rt.Safe stop) (ordered : start < stop)
    (first : dto._start = some (rt.nat start)) (last : dto._end = some (rt.nat stop)) :
    rt.pageAndLimit dto =
      .ok (rt.nat (start / (stop - start) + 1), rt.nat (stop - start)) := by
  have small : rt.Safe start := rt.safe_of_le ordered.le safe
  have limited : rt.Safe (stop - start) := rt.safe_of_le (Nat.sub_le stop start) safe
  have next : rt.Safe (start / (stop - start) + 1) := by
    refine rt.safe_of_le ?_ safe
    have := Nat.div_le_self start (stop - start)
    omega
  have before : rt.le (rt.nat stop) (rt.nat start) = false := by
    rw [rt.le_nat safe small]
    exact decide_eq_false (Nat.not_le.mpr ordered)
  simp only [Runtime.pageAndLimit, first, last, before, Bool.false_eq_true, if_false,
    rt.sub_nat safe ordered.le, rt.floor_div_nat small limited (Nat.sub_pos_of_lt ordered),
    rt.add_nat next]

theorem pageAndLimit_page {page n : ℕ} (openEnded : dto._start = none ∨ dto._end = none)
    (positive : 0 < page) (safe : rt.Safe page) (limit : rt.orElse dto.per_page 10 = rt.nat n) :
    rt.pageAndLimit { dto with page := some (rt.nat page) } = .ok (rt.nat page, rt.nat n) := by
  have given : rt.orElse (some (rt.nat page)) 1 = rt.nat page := by
    have filled : rt.falsy (rt.nat page) = false := by
      rw [rt.falsy_nat safe]
      exact decide_eq_false positive.ne'
    simp only [Runtime.orElse, filled, Bool.false_eq_true, if_false]
  simp only [Runtime.pageAndLimit, given, limit]
  split
  · simp_all only [reduceCtorEq, or_self]
  · rfl

/-- A range begins where it was asked to exactly when its length divides its beginning. -/
theorem answers_range_iff {start stop : ℕ} (safe : rt.Safe stop) (ordered : start < stop)
    (first : dto._start = some (rt.nat start)) (last : dto._end = some (rt.nat stop))
    (readable : rt.Readable dto) : rt.Answers dto start stop ↔ stop - start ∣ start := by
  have small : rt.Safe start := rt.safe_of_le ordered.le safe
  have limited : rt.Safe (stop - start) := rt.safe_of_le (Nat.sub_le stop start) safe
  have next : rt.Safe (start / (stop - start) + 1) := by
    refine rt.safe_of_le ?_ safe
    have := Nat.div_le_self start (stop - start)
    omega
  have product : rt.Safe (start / (stop - start) * (stop - start)) :=
    rt.safe_of_le (Nat.div_mul_le_self _ _) small
  obtain ⟨o, answered, skip, limit⟩ := parsePagination_page
    (pageAndLimit_range safe ordered first last) next limited product readable
  constructor
  · rintro ⟨o', answered', selects⟩
    obtain rfl : o = o' := Except.ok.inj (answered.symm.trans answered')
    have same := rt.nat_inj product small (skip.symm.trans selects.skip)
    exact Nat.dvd_of_mod_eq_zero (by
      have := Nat.div_add_mod' start (stop - start)
      omega)
  · intro divides
    rw [Nat.div_mul_cancel divides] at skip
    exact ⟨o, answered, skip, limit⟩

/-- With exact numbers this is so for all natural numbers. -/
theorem answers_range_rationals {rt : Runtime ℚ} {dto : PaginationDto ℚ} {start stop : ℕ}
    (exact : rt.toArithmetic = rationals) (ordered : start < stop)
    (first : dto._start = some (start : ℚ)) (last : dto._end = some (stop : ℚ))
    (readable : rt.Readable dto) : rt.Answers dto start stop ↔ stop - start ∣ start := by
  have safe (n : ℕ) : rt.Safe n := by
    rw [exact]
    trivial
  have number (n : ℕ) : rt.nat n = n := by
    rw [exact]
    rfl
  rw [← number] at first last
  exact answers_range_iff (safe stop) ordered first last readable

theorem parsePagination_outOfOrder {start stop : ℕ} (safe : rt.Safe start) (ordered : stop ≤ start)
    (first : dto._start = some (rt.nat start)) (last : dto._end = some (rt.nat stop)) :
    parsePagination rt dto = .error (rt.outOfOrder (rt.nat start) (rt.nat stop)) := by
  have before : rt.le (rt.nat stop) (rt.nat start) = true := by
    rw [rt.le_nat (rt.safe_of_le ordered safe) safe]
    exact decide_eq_true ordered
  have refused : rt.pageAndLimit dto = .error (rt.outOfOrder (rt.nat start) (rt.nat stop)) := by
    simp only [Runtime.pageAndLimit, first, last, before, if_true]
  simp only [parsePagination, refused, bind, Except.bind]

theorem answers_page {page n : ℕ} (openEnded : dto._start = none ∨ dto._end = none)
    (positive : 0 < page) (filled : 0 < n) (safe : rt.Safe (page * n))
    (limit : rt.orElse dto.per_page 10 = rt.nat n) (readable : rt.Readable dto) :
    rt.Answers { dto with page := some (rt.nat page) } ((page - 1) * n) (page * n) := by
  obtain ⟨k, rfl⟩ := Nat.exists_eq_succ_of_ne_zero positive.ne'
  have paged : rt.Safe (k + 1) := rt.safe_of_le (Nat.le_mul_of_pos_right _ filled) safe
  have limited : rt.Safe n := rt.safe_of_le (Nat.le_mul_of_pos_left _ positive) safe
  have product : rt.Safe (k * n) := rt.safe_of_le (Nat.mul_le_mul_right n (Nat.le_succ k)) safe
  obtain ⟨o, answered, skip, size⟩ := parsePagination_page
    (pageAndLimit_page openEnded positive paged limit) paged limited product readable
  have window : (k + 1) * n - k * n = n := by rw [Nat.succ_mul, Nat.add_sub_cancel_left]
  refine ⟨o, answered, skip, ?_⟩
  rw [Nat.succ_sub_one, Nat.succ_eq_add_one, window]
  exact size

/-- The windows of the pages are one behind the other. -/
theorem page_of_row {n : ℕ} (filled : 0 < n) (row : ℕ) :
    ∃! page, 0 < page ∧ row ∈ Set.Ico ((page - 1) * n) (page * n) := by
  have least : row / n * n ≤ row := Nat.div_mul_le_self row n
  have most : row < (row / n + 1) * n := by
    rw [mul_comm]
    exact Nat.lt_mul_div_succ row filled
  refine ⟨row / n + 1, ⟨Nat.succ_pos _, least, most⟩, ?_⟩
  rintro page ⟨positive, lower, upper⟩
  obtain ⟨k, rfl⟩ := Nat.exists_eq_succ_of_ne_zero positive.ne'
  rw [Nat.div_eq_of_lt_le lower upper]
  rfl

end Slices

/-- A range is answered with its rows exactly when its length divides its beginning; one that ends
where it begins or before is refused; without a range the pages come one behind the other. -/
theorem parsePagination_slices (dto : PaginationDto ν) :
    (∀ start stop, rt.Safe stop → start < stop → dto._start = some (rt.nat start) →
      dto._end = some (rt.nat stop) → rt.Readable dto →
        (rt.Answers dto start stop ↔ stop - start ∣ start)) ∧
    (∀ start stop, rt.Safe start → stop ≤ start → dto._start = some (rt.nat start) →
      dto._end = some (rt.nat stop) →
        ∃ e, parsePagination rt dto = .error e ∧ e.statusCode = 400) ∧
    (dto._start = none ∨ dto._end = none → rt.Readable dto → ∀ n, 0 < n →
      rt.orElse dto.per_page 10 = rt.nat n →
        (∀ page, 0 < page → rt.Safe (page * n) →
          rt.Answers { dto with page := some (rt.nat page) } ((page - 1) * n) (page * n)) ∧
        ∀ row, ∃! page, 0 < page ∧ row ∈ Set.Ico ((page - 1) * n) (page * n)) := by
  refine ⟨?_, ?_, ?_⟩
  · intro start stop safe ordered first last readable
    exact answers_range_iff safe ordered first last readable
  · intro start stop safe ordered first last
    exact ⟨_, parsePagination_outOfOrder safe ordered first last, rfl⟩
  · intro openEnded readable n filled limit
    constructor
    · intro page positive safe
      exact answers_page openEnded positive filled safe limit readable
    · exact page_of_row filled

section Sample

/-- ECMAScript numbers with the texts of integers. -/
def engine : Runtime Number where
  toArithmetic := doubles
  text
    | .finite q => toString q.floor
    | .infinity negative => if negative then "-Infinity" else "Infinity"
    | .nan => "NaN"
  parse text := (JSON.parse text).elim (.error "Unexpected token") .ok

def ranged (start stop : ℕ) : PaginationDto Number :=
  { PaginationDto.initial doubles with
    _start := some (doubles.nat start), _end := some (doubles.nat stop) }

theorem ranged_readable (start stop : ℕ) : engine.Readable (ranged start stop) :=
  fun _ given => nomatch given

theorem safe_thirty : engine.Safe 30 := by norm_num [engine, doubles]

theorem ten_by_default :
    engine.orElse (PaginationDto.initial doubles).per_page 10 = engine.nat 10 := by
  have filled : engine.falsy (engine.nat 10) = false := engine.falsy_nat engine.safe_ten
  simp only [PaginationDto.initial, Runtime.orElse]
  exact if_neg (Bool.eq_false_iff.mp filled)

/-- Rows 20 to 29 are the third page of ten, and a range that runs backwards is refused. -/
theorem third_ten_answered :
    engine.Answers (ranged 20 30) 20 30 ∧
    (∃ e, parsePagination engine (ranged 30 20) = .error e ∧ e.statusCode = 400) ∧
    engine.Answers { PaginationDto.initial doubles with page := some (engine.nat 3) } 20 30 :=
  ⟨((parsePagination_slices engine (ranged 20 30)).1 20 30 safe_thirty (by decide) rfl rfl
    (ranged_readable 20 30)).mpr (by decide),
  (parsePagination_slices engine (ranged 30 20)).2.1 30 20 safe_thirty (by decide) rfl rfl,
  ((parsePagination_slices engine (PaginationDto.initial doubles)).2.2 (.inl rfl)
    (fun _ given => nomatch given) 10 (by decide) ten_by_default).1 3 (by decide) safe_thirty⟩

/-- Rows 5 to 14 are asked for, and rows 0 to 9 are given. -/
theorem rows_from_five_missed :
    engine.Answers (ranged 5 15) 0 10 ∧ ¬ engine.Answers (ranged 5 15) 5 15 := by
  have safe : engine.Safe 15 := engine.safe_of_le (by decide) safe_thirty
  have readable := ranged_readable 5 15
  constructor
  · obtain ⟨o, answered, skip, limit⟩ := parsePagination_page
      (pageAndLimit_range safe (by decide) rfl rfl) (engine.safe_of_le (by decide) safe)
      engine.safe_ten (engine.safe_of_le (by decide) safe) readable
    exact ⟨o, answered, skip, limit⟩
  · intro answered
    have divides := (answers_range_iff safe (by decide) rfl rfl readable).mp answered
    exact absurd divides (by decide)

end Sample

end CorePlatform.Pagination
