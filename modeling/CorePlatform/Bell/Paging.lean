import CorePlatform.Async.Record
import CorePlatform.Bell.Tenants
import CorePlatform.Common.Number

/-! The arguments that `listByUser` passes to the database for the page and the limit of a
request, in double precision as ECMAScript computes them. -/
namespace CorePlatform.Bell
open Async
open Number (finite)

/-- `Number::toString`, and the number that a text shows. -/
structure NumberTexts where
  text : Number → String
  read : String → Number
  read_text : ∀ n, read (text n) = n
  natural : ∀ n : ℕ, n < 10 ^ 21 → text (finite n) = toString n
  nan : text .nan = "NaN"

namespace NumberTexts

variable (texts : NumberTexts)

/-- `Number(v)` -/
def number : Js → Number
  | .undefined => .nan
  | .null => finite 0
  | .bool b => finite (if b then 1 else 0)
  | .num text => texts.read text
  | .str s => .ofString s
  | v => .ofString v.toText

def numbers : Numbers where
  number v := texts.text (texts.number v)
  max a b := texts.text ((texts.read a).max (texts.read b))
  min a b := texts.text ((texts.read a).min (texts.read b))
  sub a b := texts.text ((texts.read a).sub (texts.read b))
  mul a b := texts.text ((texts.read a).mul (texts.read b))

/-- `Number(raw ?? fallback) || fallback` -/
def given (raw : Js) (fallback : ℕ) : Number :=
  let n := texts.number (raw.orElse (.num (toString fallback)))
  if n = finite 0 ∨ n = .nan then finite fallback else n

end NumberTexts

/-- `Math.max(1, page)` -/
def pageOf (page : Number) : Number := (finite 1).max page

/-- `Math.min(100, Math.max(1, limit))` -/
def takeOf (limit : Number) : Number := (finite 100).min ((finite 1).max limit)

/-- `(page - 1) * limit` -/
def skipOf (page limit : Number) : Number := ((pageOf page).sub (finite 1)).mul (takeOf limit)

/-- An integer take of 1 to 100, and the rows of the pages before an integer page as skip. -/
def Legal (page take skip : Number) : Prop :=
  ∃ p t : ℕ, page = finite p ∧ 1 ≤ p ∧ take = finite t ∧ 1 ≤ t ∧ t ≤ 100 ∧
    skip = finite ((p - 1) * t : ℕ)

/-- A limit that is whole, or cut off. -/
inductive Limited (m : Number) : ℕ → Prop where
  | small : m.le (finite 1) = true → Limited m 1
  | large : (finite 100).le m = true → Limited m 100
  | whole {t : ℕ} : m = finite t → 1 ≤ t → t ≤ 100 → Limited m t

/-- The numbers that a request gives are whole, or cut off, and the rows before the page are a
number that double precision has. -/
structure Countable (n m : Number) : Prop where
  page : n.le (finite 1) = true ∨ ∃ p : ℕ, n = finite p
  limit : ∃ t, Limited m t
  exact : ∀ p t : ℕ, n = finite p → Limited m t →
    Number.ofRat ((p - 1) * t : ℕ) = finite ((p - 1) * t : ℕ)

section Clamping

variable {n : Number}

theorem le_total_one (known : n ≠ .nan) : n.le (finite 1) = true ∨ (finite 1).le n = true := by
  cases n with
  | nan => contradiction
  | infinity negative => cases negative <;> decide
  | finite q => simpa only [Number.le, decide_eq_true_eq] using le_total q 1

theorem pageOf_small (known : n ≠ .nan) (small : n.le (finite 1) = true) :
    pageOf n = finite 1 := by
  cases n with
  | nan => contradiction
  | infinity negative => cases negative <;> first | rfl | contradiction
  | finite q =>
    simp only [pageOf, Number.max, Number.le, decide_eq_true_eq] at small ⊢
    split
    · rename_i large
      rw [le_antisymm small large]
    · rfl

theorem pageOf_large (large : (finite 1).le n = true) : pageOf n = n := by
  cases n with
  | nan => contradiction
  | infinity negative | finite q => simp only [pageOf, Number.max, large, if_true]

theorem takeOf_small (known : n ≠ .nan) (small : n.le (finite 1) = true) :
    takeOf n = finite 1 := by
  have clamped : (finite 1).max n = finite 1 := pageOf_small known small
  rw [takeOf, clamped]
  decide

theorem takeOf_large (large : (finite 100).le n = true) : takeOf n = finite 100 := by
  cases n with
  | nan => contradiction
  | infinity negative => cases negative <;> first | rfl | contradiction
  | finite q =>
    have bound : (100 : ℚ) ≤ q := of_decide_eq_true large
    have one : (finite 1).le (finite q) = true := decide_eq_true (le_trans (by norm_num) bound)
    have clamped : (finite 1).max (finite q) = finite q := pageOf_large one
    rw [takeOf, clamped]
    simp only [Number.min, large, if_true]

theorem takeOf_between (one : (finite 1).le n = true) (below : (finite 100).le n = false) :
    takeOf n = n := by
  have clamped : (finite 1).max n = n := pageOf_large one
  rw [takeOf, clamped]
  cases n with
  | nan => contradiction
  | infinity negative | finite q => simp only [Number.min, below, Bool.false_eq_true, if_false]

/-- What a page number gives is natural where it is cut off or natural. -/
theorem pageOf_natural (known : n ≠ .nan) {p : ℕ} : 1 ≤ p ∧ pageOf n = finite p ↔
    n.le (finite 1) = true ∧ p = 1 ∨ n = finite p ∧ 1 ≤ p := by
  constructor
  · rintro ⟨positive, clamped⟩
    rcases le_total_one known with small | large
    · rw [pageOf_small known small, ← Nat.cast_one] at clamped
      exact .inl ⟨small, by exact_mod_cast (Number.finite.inj clamped).symm⟩
    · exact .inr ⟨(pageOf_large large).symm.trans clamped, positive⟩
  · rintro (⟨small, rfl⟩ | ⟨rfl, positive⟩)
    · exact ⟨le_rfl, by rw [pageOf_small known small, Nat.cast_one]⟩
    · have large : (1 : ℚ) ≤ p := by exact_mod_cast positive
      exact ⟨positive, pageOf_large (decide_eq_true large)⟩

theorem takeOf_natural (known : n ≠ .nan) {t : ℕ} :
    takeOf n = finite t ∧ 1 ≤ t ∧ t ≤ 100 ↔ Limited n t := by
  constructor
  · rintro ⟨clamped, least, most⟩
    rcases le_total_one known with small | one
    · rw [takeOf_small known small, ← Nat.cast_one] at clamped
      obtain rfl : 1 = t := by exact_mod_cast Number.finite.inj clamped
      exact .small small
    cases above : (finite 100).le n with
    | true =>
      rw [takeOf_large above, ← Nat.cast_ofNat] at clamped
      obtain rfl : 100 = t := by exact_mod_cast Number.finite.inj clamped
      exact .large above
    | false => exact .whole ((takeOf_between one above).symm.trans clamped) least most
  · intro limited
    cases limited with
    | small small => exact ⟨by rw [takeOf_small known small, Nat.cast_one], by decide⟩
    | large above => exact ⟨by rw [takeOf_large above, Nat.cast_ofNat], by decide⟩
    | whole same least most =>
      subst same
      have one : (finite 1).le (finite t) = true := decide_eq_true (by exact_mod_cast least)
      refine ⟨?_, least, most⟩
      cases above : (finite 100).le (finite t) with
      | true =>
        have bound : (100 : ℚ) ≤ t := of_decide_eq_true above
        obtain rfl : t = 100 := most.antisymm (by exact_mod_cast bound)
        rw [takeOf_large above, Nat.cast_ofNat]
      | false => exact takeOf_between one above

/-- No rounding takes place where the rows before a page are representable. -/
theorem skip_of_representable {p t : ℕ} (positive : 1 ≤ p) (filled : 1 ≤ t)
    (representable : Number.Representable ((p - 1) * t)) (bounded : (p - 1) * t < 2 ^ 1024) :
    ((finite p).sub (finite 1)).mul (finite t) = finite ((p - 1) * t : ℕ) := by
  have before : (p : ℚ) - 1 = (p - 1 : ℕ) := by
    rw [Nat.cast_sub positive, Nat.cast_one]
  have factor : p - 1 < 2 ^ 1024 := (Nat.le_mul_of_pos_right _ filled).trans_lt bounded
  rw [Number.sub, before, Number.ofRat_natCast (representable.factor filled) factor, Number.mul,
    ← Nat.cast_mul, Number.ofRat_natCast representable bounded]

/-- The rows before a page are counted exactly where their number is one of double precision. -/
theorem skip_exact {p t : ℕ} (positive : 1 ≤ p) (filled : 1 ≤ t) :
    ((finite p).sub (finite 1)).mul (finite t) = finite ((p - 1) * t : ℕ) ↔
      Number.ofRat ((p - 1) * t : ℕ) = finite ((p - 1) * t : ℕ) := by
  have exact_of : ∀ q, Number.ofRat q = finite ((p - 1) * t : ℕ) →
      Number.Representable ((p - 1) * t) ∧ (p - 1) * t < 2 ^ 1024 := fun q rounded =>
    ⟨Number.representable_of_ofRat rounded, Number.bounded_of_ofRat rounded⟩
  constructor
  · intro product
    have double : Number.Representable ((p - 1) * t) ∧ (p - 1) * t < 2 ^ 1024 := by
      cases before : (finite p).sub (finite 1) with
      | finite q =>
        rw [before] at product
        exact exact_of _ product
      | nan =>
        rw [before] at product
        contradiction
      | infinity negative =>
        rw [before, Number.mul] at product
        split at product <;> contradiction
    exact Number.ofRat_natCast double.1 double.2
  · intro rounded
    obtain ⟨representable, bounded⟩ := exact_of _ rounded
    exact skip_of_representable positive filled representable bounded

/-- The arguments are legal exactly where the numbers given are countable. -/
theorem legal_iff {n m : Number} (known : n ≠ .nan) (known' : m ≠ .nan) :
    Legal (pageOf n) (takeOf m) (skipOf n m) ↔ Countable n m := by
  constructor
  · rintro ⟨p, t, page, positive, take, least, most, skip⟩
    have limited : Limited m t := (takeOf_natural known').mp ⟨take, least, most⟩
    refine ⟨?_, ⟨t, limited⟩, fun p' t' given limited' => ?_⟩
    · exact ((pageOf_natural known).mp ⟨positive, page⟩).imp And.left fun whole => ⟨p, whole.1⟩
    obtain ⟨take', least', -⟩ := (takeOf_natural known').mpr limited'
    obtain rfl : t = t' := by exact_mod_cast Number.finite.inj (take.symm.trans take')
    rw [skipOf, page, take] at skip
    rcases (pageOf_natural known).mp ⟨positive, page⟩ with ⟨small, rfl⟩ | ⟨same, -⟩
    · -- a page that is cut off has nothing before it
      have below : p' - 1 = 0 := by
        rw [given] at small
        have bound : (p' : ℚ) ≤ 1 := of_decide_eq_true small
        exact Nat.sub_eq_zero_of_le (by exact_mod_cast bound)
      rw [below, Nat.zero_mul, Nat.cast_zero, Number.ofRat_zero]
    · obtain rfl : p' = p := by exact_mod_cast Number.finite.inj (given.symm.trans same)
      exact (skip_exact positive least).mp skip
  · rintro ⟨page, ⟨t, limited⟩, exact'⟩
    obtain ⟨take, least, most⟩ := (takeOf_natural known').mpr limited
    by_cases small : n.le (finite 1) = true
    · have page : pageOf n = finite 1 := pageOf_small known small
      refine ⟨1, t, by rw [page, Nat.cast_one], le_rfl, take, least, most, ?_⟩
      rw [skipOf, page, take, ← Nat.cast_one]
      refine (skip_exact le_rfl least).mpr ?_
      rw [Nat.sub_self, Nat.zero_mul, Nat.cast_zero, Number.ofRat_zero]
    · obtain ⟨p, rfl⟩ := page.resolve_left small
      have above : (1 : ℚ) < p := not_le.mp fun bound => small (decide_eq_true bound)
      have positive : 1 ≤ p := by exact_mod_cast above.le
      have page := ((pageOf_natural known).mpr (.inr ⟨rfl, positive⟩)).2
      refine ⟨p, t, page, positive, take, least, most, ?_⟩
      rw [skipOf, page, take]
      exact (skip_exact positive least).mpr (exact' p t rfl limited)

end Clamping

section Texts

variable {texts : NumberTexts} {raw : Js}

theorem NumberTexts.read_natural {n : ℕ} (small : n < 10 ^ 21) :
    texts.read (toString n) = finite n := by
  rw [← texts.natural n small, texts.read_text]

theorem NumberTexts.text_inj {a b : Number} : texts.text a = texts.text b ↔ a = b :=
  (Function.LeftInverse.injective texts.read_text).eq_iff

theorem NumberTexts.given_ne_nan {fallback : ℕ} : texts.given raw fallback ≠ .nan := by
  simp only [NumberTexts.given]
  split
  · exact nofun
  · rename_i other
    exact fun missing => other (.inr missing)

/-- The texts follow the numbers. -/
theorem numberOr_text (raw : Js) (fallback : ℕ) (small : fallback < 10 ^ 21) :
    numberOr texts.numbers raw (toString fallback) = texts.text (texts.given raw fallback) := by
  have zero : texts.text (finite 0) = "0" := by
    have zero := texts.natural 0 (by norm_num)
    rwa [Nat.cast_zero] at zero
  have same : ∀ n, (texts.text n = "0" || texts.text n = "NaN") = true ↔
      n = finite 0 ∨ n = .nan := by
    intro n
    rw [← zero, ← texts.nan]
    simp only [Bool.or_eq_true, decide_eq_true_eq, texts.text_inj]
  simp only [numberOr, NumberTexts.given]
  split
  · rename_i missing
    rw [if_pos ((same _).mp missing), texts.natural _ small]
  · rename_i known
    rw [if_neg fun missing => known ((same _).mpr missing)]
    rfl

/-- The two queries of a page, and what is returned. -/
def queryPage (userId : String) (sortBy : SortField) (sortOrder : SortOrder)
    (page limit skip : String) : InboxAction Page := do
  let items ← ask (.notificationFindMany userId sortBy sortOrder skip limit)
  let total ← ask (.notificationCountAll userId)
  return { items, total, page, limit, sortBy, sortOrder }

/-- What `listByUser` asks of the database. -/
theorem listByUser_eq {userId : String} (named : userId ≠ "")
    (pageRaw limitRaw sortByRaw sortOrderRaw : Js) :
    listByUser texts.numbers userId pageRaw limitRaw sortByRaw sortOrderRaw =
      queryPage userId (if sortByRaw = .str "readAt" then .readAt else .createdAt)
        (if sortOrderRaw = .str "asc" then .asc else .desc)
        (texts.text (pageOf (texts.given pageRaw 1)))
        (texts.text (takeOf (texts.given limitRaw 20)))
        (texts.text (skipOf (texts.given pageRaw 1) (texts.given limitRaw 20))) := by
  have one : texts.read "1" = finite 1 := by
    have one := texts.read_natural (n := 1) (by norm_num)
    rwa [Nat.cast_one] at one
  have hundred : texts.read "100" = finite 100 := by
    have hundred := texts.read_natural (n := 100) (by norm_num)
    rwa [Nat.cast_ofNat] at hundred
  have page : texts.numbers.max "1" (numberOr texts.numbers pageRaw "1") =
      texts.text (pageOf (texts.given pageRaw 1)) := by
    have given : numberOr texts.numbers pageRaw "1" = texts.text (texts.given pageRaw 1) :=
      numberOr_text pageRaw 1 (by norm_num)
    rw [given]
    simp only [NumberTexts.numbers, one, texts.read_text, pageOf]
  have limit : texts.numbers.min "100" (texts.numbers.max "1"
      (numberOr texts.numbers limitRaw "20")) = texts.text (takeOf (texts.given limitRaw 20)) := by
    have given : numberOr texts.numbers limitRaw "20" = texts.text (texts.given limitRaw 20) :=
      numberOr_text limitRaw 20 (by norm_num)
    rw [given]
    simp only [NumberTexts.numbers, one, hundred, texts.read_text, takeOf]
  have skip : texts.numbers.mul
      (texts.numbers.sub (texts.text (pageOf (texts.given pageRaw 1))) "1")
      (texts.text (takeOf (texts.given limitRaw 20))) =
        texts.text (skipOf (texts.given pageRaw 1) (texts.given limitRaw 20)) := by
    simp only [NumberTexts.numbers, one, texts.read_text, skipOf]
  rw [← skip, ← limit, ← page, listByUser, if_neg named]
  rfl

end Texts

section Queries

variable {texts : NumberTexts} {cfg : InboxConfig} {userId : String}
  {pageRaw limitRaw sortByRaw sortOrderRaw : Js} {s t : InboxStore}
  {record : List (Taken (inboxSemantics cfg))} {r : Except Exn Page}

/-- The arguments of every query of a page are legal. -/
def LegalQueries (texts : NumberTexts) (page : Number)
    (record : List (Taken (inboxSemantics cfg))) : Prop :=
  ∀ step ∈ record, ∀ u f o skip take, step.cmd = .notificationFindMany u f o skip take →
    Legal page (texts.read take) (texts.read skip)

theorem executes_queryPage {f : SortField} {o : SortOrder} {page limit skip : String}
    (execution : Executes (inboxSemantics cfg) (queryPage userId f o page limit skip) s record r
      t) :
    ∃ first rest, record = first :: rest ∧ first.cmd = .notificationFindMany userId f o skip limit ∧
      ∀ step ∈ rest, step.cmd = .notificationCountAll userId := by
  obtain ⟨choice, found, s', rest, rfl, -, execution⟩ := executes_await execution
  refine ⟨_, rest, rfl, rfl, ?_⟩
  cases found with
  | error e =>
    cases execution
    exact fun step member => absurd member List.not_mem_nil
  | ok items =>
    obtain ⟨choice', counted, s'', rest', rfl, -, execution⟩ := executes_await execution
    cases counted <;> (cases execution; exact List.forall_mem_singleton.mpr rfl)

/-- The rows of a page stand in any order that the query allows. -/
theorem exec_findMany {f : SortField} {o : SortOrder} {skip take : String} {n m : ℕ}
    {sorted : List Notification} (before : Number.wholePart? skip = some n)
    (size : Number.wholePart? take = some m)
    (ordered : sorted.Perm (s.bell.rowsOf userId) ∧ sorted.Pairwise (o.allows f · ·)) :
    (inboxSemantics cfg).exec (.notificationFindMany userId f o skip take) { sorted } s =
      some (.ok ((sorted.drop n).take m), s) := by
  simp only [inboxSemantics, inboxExec, before, size, if_pos ordered]

/-- A page as it is found where the rows stand in a given order. -/
theorem queryPage_found {f : SortField} {o : SortOrder} {page skip take : String} {n m : ℕ}
    {sorted : List Notification} (before : Number.wholePart? skip = some n)
    (size : Number.wholePart? take = some m)
    (ordered : sorted.Perm (s.bell.rowsOf userId) ∧ sorted.Pairwise (o.allows f · ·)) :
    ∃ first rest, first.cmd = .notificationFindMany userId f o skip take ∧
      Executes (inboxSemantics cfg) (queryPage userId f o page take skip) s (first :: rest)
      (.ok { items := (sorted.drop n).take m, total := (s.bell.rowsOf userId).length
             page, limit := take, sortBy := f, sortOrder := o }) s := by
  have counted : (inboxSemantics cfg).exec (.notificationCountAll userId) {} s =
      some (.ok (s.bell.rowsOf userId).length, s) := rfl
  exact ⟨_, _, rfl, .await (exec_findMany before size ordered) (.await counted .done)⟩

/-- No page and limit make a query illegal, exactly if the numbers that they give are countable. -/
theorem paging_legal_iff (execution : Executes (inboxSemantics cfg)
      (listByUser texts.numbers userId pageRaw limitRaw sortByRaw sortOrderRaw) s record r t) :
    LegalQueries texts (pageOf (texts.given pageRaw 1)) record ↔
      userId = "" ∨ Countable (texts.given pageRaw 1) (texts.given limitRaw 20) := by
  by_cases named : userId = ""
  · subst named
    rw [listByUser] at execution
    cases execution
    exact ⟨fun _ => .inl rfl, fun _ step member => absurd member List.not_mem_nil⟩
  rw [listByUser_eq named] at execution
  obtain ⟨first, rest, rfl, query, others⟩ := executes_queryPage execution
  rw [or_iff_right named, ← legal_iff texts.given_ne_nan texts.given_ne_nan]
  constructor
  · intro legal
    have arguments := legal first List.mem_cons_self _ _ _ _ _ query
    rwa [texts.read_text, texts.read_text] at arguments
  · intro legal step member u f o skip take asked
    rcases List.mem_cons.mp member with rfl | other
    · cases query.symm.trans asked
      rwa [texts.read_text, texts.read_text]
    · cases (others step other).symm.trans asked

end Queries

section Sample

/-- An integer as it is written. -/
def showInt : ℤ → String
  | .ofNat n => toString n
  | .negSucc n => "-" ++ toString (n + 1)

/-- A rational as it is written where it is whole, or natural but for a half; others are written as
fractions. -/
def showFraction (q : ℚ) : String :=
  if q.den = 1 then showInt q.num
  else if q.den = 2 ∧ 0 < q.num then toString (q.num.toNat / 2) ++ ".5"
  else showInt q.num ++ "/" ++ toString q.den

def showNumber : Number → String
  | .nan => "NaN"
  | .infinity false => "Infinity"
  | .infinity true => "-Infinity"
  | .finite q => showFraction q

def readInt : List Char → ℤ
  | '-' :: cs => -(Nat.ofDigitChars 10 cs 0 : ℕ)
  | cs => (Nat.ofDigitChars 10 cs 0 : ℕ)

/-- Not the sign that ends the whole part. -/
def isWhole (c : Char) : Bool := c ≠ '/' && c ≠ '.'

def readFraction (cs : List Char) : ℚ :=
  let n := readInt (cs.takeWhile isWhole)
  match cs.dropWhile isWhole with
  | [] => n
  | '.' :: _ => n + 1 / 2
  | _ :: digits => n / (Nat.ofDigitChars 10 digits 0 : ℕ)

def readNumber (text : String) : Number :=
  if text = "NaN" then .nan
  else if text = "Infinity" then .infinity false
  else if text = "-Infinity" then .infinity true
  else finite (readFraction text.toList)

theorem showInt_chars (z : ℤ) : ∀ c ∈ (showInt z).toList, c = '-' ∨ c.isDigit = true := by
  intro c member
  cases z with
  | ofNat n => exact .inr (JSON.isDigit_of_mem_toString member)
  | negSucc n =>
    rw [showInt, String.toList_append, List.mem_append] at member
    rcases member with sign | digit
    · exact .inl (List.mem_singleton.mp sign)
    · exact .inr (JSON.isDigit_of_mem_toString digit)

theorem readInt_showInt (z : ℤ) : readInt (showInt z).toList = z := by
  cases z with
  | ofNat n =>
    have plain : ∀ cs, (toString n).toList ≠ '-' :: cs := by
      intro cs same
      have digit :=
        JSON.isDigit_of_mem_toString (same ▸ List.mem_cons_self : '-' ∈ (toString n).toList)
      contradiction
    rw [showInt, readInt.eq_2 _ plain, Number.ofDigitChars_toString]
    rfl
  | negSucc n =>
    rw [showInt, String.toList_append]
    exact congrArg (fun m : ℕ => -(m : ℤ)) (Number.ofDigitChars_toString (n + 1))

theorem isWhole_showInt (z : ℤ) : ∀ c ∈ (showInt z).toList, isWhole c = true := by
  intro c member
  rcases showInt_chars z c member with rfl | digit
  · rfl
  · simp only [isWhole, Bool.and_eq_true, decide_eq_true_eq]
    constructor <;> (rintro rfl; contradiction)

/-- An integer is read up to the sign behind it. -/
theorem whole_showInt (z : ℤ) {c : Char} (ends : isWhole c = false) (rest : List Char) :
    ((showInt z).toList ++ c :: rest).takeWhile isWhole = (showInt z).toList ∧
      ((showInt z).toList ++ c :: rest).dropWhile isWhole = c :: rest := by
  have stops : ¬ isWhole c = true := Bool.eq_false_iff.mp ends
  constructor
  · rw [List.takeWhile_append_of_pos (isWhole_showInt z), List.takeWhile_cons_of_neg stops,
      List.append_nil]
  · rw [List.dropWhile_append_of_pos (isWhole_showInt z), List.dropWhile_cons_of_neg stops]

/-- A positive rational of denominator two is a natural number and a half. -/
theorem half_of_den {q : ℚ} (den : q.den = 2) (positive : 0 < q.num) :
    ((q.num.toNat / 2 : ℕ) : ℚ) + 1 / 2 = q := by
  have odd : ¬ 2 ∣ q.num.natAbs := by
    have coprime := q.reduced
    rw [den] at coprime
    exact fun even => absurd (Nat.Coprime.eq_one_of_dvd coprime.symm even) (by decide)
  obtain ⟨n, whole, halved⟩ : ∃ n : ℕ, q.num = 2 * n + 1 ∧ q.num.toNat / 2 = n :=
    ⟨q.num.toNat / 2, by omega, rfl⟩
  rw [halved]
  calc (n : ℚ) + 1 / 2 = (q.num : ℚ) / q.den := by
        rw [den, whole]
        push_cast
        ring
    _ = q := Rat.num_div_den q

theorem readFraction_show (q : ℚ) : readFraction (showFraction q).toList = q := by
  unfold showFraction
  split
  · rename_i whole
    have alone : (showInt q.num).toList.takeWhile isWhole = (showInt q.num).toList ∧
        (showInt q.num).toList.dropWhile isWhole = [] :=
      ⟨List.takeWhile_eq_self_iff.mpr (isWhole_showInt _),
        List.dropWhile_eq_nil_iff.mpr (isWhole_showInt _)⟩
    rw [readFraction, alone.1, alone.2, readInt_showInt]
    exact Rat.coe_int_num_of_den_eq_one whole
  split
  · rename_i half
    have text : (toString (q.num.toNat / 2) ++ ".5").toList =
        (showInt (q.num.toNat / 2 : ℕ)).toList ++ '.' :: ['5'] := String.toList_append
    obtain ⟨taken, dropped⟩ := whole_showInt (q.num.toNat / 2 : ℕ) (c := '.') rfl ['5']
    rw [readFraction, text, taken, dropped, readInt_showInt]
    exact half_of_den half.1 half.2
  · have text : (showInt q.num ++ "/" ++ toString q.den).toList =
        (showInt q.num).toList ++ '/' :: (toString q.den).toList := by
      rw [String.toList_append, String.toList_append, List.append_assoc]
      rfl
    obtain ⟨taken, dropped⟩ := whole_showInt q.num (c := '/') rfl (toString q.den).toList
    rw [readFraction, text, taken, dropped, readInt_showInt]
    have below := congrArg (fun d : ℕ => (q.num : ℚ) / d) (Number.ofDigitChars_toString q.den)
    exact below.trans (Rat.num_div_den q)

/-- Words that are not numbers. -/
theorem showFraction_ne (q : ℚ) {word : String} (letter : 'n' ∈ word.toList ∨ 'N' ∈ word.toList) :
    showFraction q ≠ word := by
  rintro rfl
  have digits : ∀ c : Char, c = '-' ∨ c.isDigit = true → c ≠ 'n' ∧ c ≠ 'N' := by
    rintro c (rfl | digit)
    · decide
    · constructor <;> (rintro rfl; contradiction)
  have natural : ∀ n : ℕ, ∀ c ∈ (toString n).toList, c ≠ 'n' ∧ c ≠ 'N' := fun n c member =>
    digits c (.inr (JSON.isDigit_of_mem_toString member))
  have plain : ∀ c ∈ (showFraction q).toList, c ≠ 'n' ∧ c ≠ 'N' := by
    intro c member
    unfold showFraction at member
    split at member
    · exact digits c (showInt_chars _ c member)
    split at member
    · rw [String.toList_append, List.mem_append] at member
      rcases member with whole | half
      · exact natural _ c whole
      · rcases List.mem_pair.mp half with rfl | rfl
        · decide
        · decide
    · rw [String.toList_append, String.toList_append, List.mem_append, List.mem_append] at member
      rcases member with (whole | slash) | below
      · exact digits c (showInt_chars _ c whole)
      · rw [List.mem_singleton.mp slash]
        decide
      · exact natural _ c below
  rcases letter with small | large
  · exact (plain 'n' small).1 rfl
  · exact (plain 'N' large).2 rfl

theorem readNumber_show (n : Number) : readNumber (showNumber n) = n := by
  cases n with
  | nan => rfl
  | infinity negative => cases negative <;> decide
  | finite q =>
    rw [showNumber, readNumber, if_neg (showFraction_ne q (by decide)),
      if_neg (showFraction_ne q (by decide)), if_neg (showFraction_ne q (by decide)),
      readFraction_show]

/-- Whole numbers and halves of natural numbers as they are written. -/
def plainTexts : NumberTexts where
  text := showNumber
  read := readNumber
  read_text := readNumber_show
  natural n _ := by
    rw [showNumber, showFraction, if_pos (Rat.den_natCast n), Rat.num_natCast]
    rfl
  nan := rfl

/-- Half a row is no legal number of rows. -/
theorem half_not_legal {page take : Number} : ¬ Legal page take (finite (1 / 2)) := by
  rintro ⟨p, t, -, -, -, -, -, skip⟩
  have same : (1 / 2 : ℚ) = ((p - 1) * t : ℕ) := Number.finite.inj skip
  have twice : (1 : ℚ) = (2 * ((p - 1) * t) : ℕ) := by
    rw [Nat.cast_mul, ← same]
    norm_num
  have twice : 1 = 2 * ((p - 1) * t) := by exact_mod_cast twice
  omega

/-- For page one and a half the database is to skip half a row, and skips none. The query for an
infinite page fails. -/
theorem raw_pages_illegal :
    (∃ record r, Executes (inboxSemantics sampleConfig)
      (listByUser plainTexts.numbers alice (.str "1.5") (.str "1") .undefined .undefined)
      sampleInbox record (.ok r) sampleInbox ∧
      ¬ LegalQueries plainTexts (pageOf (plainTexts.given (.str "1.5") 1)) record) ∧
    ∃ record, Executes (inboxSemantics sampleConfig)
      (listByUser plainTexts.numbers alice (.str "Infinity") .undefined .undefined .undefined)
      sampleInbox record (.error invalidArgument) sampleInbox ∧
      ¬ LegalQueries plainTexts (pageOf (plainTexts.given (.str "Infinity") 1)) record := by
  constructor
  · have half : plainTexts.text (skipOf (plainTexts.given (.str "1.5") 1)
        (plainTexts.given (.str "1") 20)) = "0.5" := by decide +kernel
    have one : plainTexts.text (takeOf (plainTexts.given (.str "1") 20)) = "1" := by decide +kernel
    have before : Number.wholePart? "0.5" = some 0 := by decide +kernel
    have size : Number.wholePart? "1" = some 1 := by decide +kernel
    have ordered : [aliceNote].Perm (sampleInbox.bell.rowsOf alice) ∧
        [aliceNote].Pairwise (SortOrder.desc.allows .createdAt · ·) := by decide +kernel
    obtain ⟨first, rest, query, execution⟩ := queryPage_found before size ordered
    rw [listByUser_eq (by decide), half, one, if_neg (by rintro ⟨⟩), if_neg (by rintro ⟨⟩)]
    refine ⟨_, _, execution, fun queries => ?_⟩
    have legal := queries first List.mem_cons_self _ _ _ _ _ query
    have read : plainTexts.read "0.5" = finite (1 / 2) := by decide +kernel
    rw [read] at legal
    exact half_not_legal legal
  · have endless : plainTexts.text (skipOf (plainTexts.given (.str "Infinity") 1)
        (plainTexts.given .undefined 20)) = "Infinity" := by decide +kernel
    have none : Number.wholePart? "Infinity" = none := by decide +kernel
    have rejected : ∀ take, (inboxSemantics sampleConfig).exec
        (.notificationFindMany alice .createdAt .desc "Infinity" take) {} sampleInbox =
          some (.error invalidArgument, sampleInbox) := by
      intro take
      simp only [inboxSemantics, inboxExec, none]
    rw [listByUser_eq (by decide), endless, if_neg (by rintro ⟨⟩), if_neg (by rintro ⟨⟩)]
    refine ⟨_, .await (rejected _) .done, fun queries => ?_⟩
    obtain ⟨p, t, -, -, -, -, -, skip⟩ := queries _ List.mem_cons_self _ _ _ _ _ rfl
    have read : plainTexts.read "Infinity" = .infinity false := by decide +kernel
    exact Number.noConfusion (read.symm.trans skip)

/-- The third page of twenty. -/
theorem third_page_legal : ∃ (record : List (Taken (inboxSemantics sampleConfig))) (r : _) (t : _),
    Executes (inboxSemantics sampleConfig)
      (listByUser plainTexts.numbers alice (.str " 3 ") .undefined .undefined .undefined)
      sampleInbox record r t ∧
    record ≠ [] ∧ LegalQueries plainTexts (pageOf (plainTexts.given (.str " 3 ") 1)) record := by
  have third : plainTexts.given (.str " 3 ") 1 = finite (3 : ℕ) := by decide +kernel
  have twenty : plainTexts.given .undefined 20 = finite (20 : ℕ) := by decide +kernel
  have forty : skipOf (finite (3 : ℕ)) (finite (20 : ℕ)) = finite (40 : ℕ) := by decide +kernel
  have take : takeOf (finite (20 : ℕ)) = finite (20 : ℕ) := by decide +kernel
  have execution : ∃ first rest r, Executes (inboxSemantics sampleConfig)
      (listByUser plainTexts.numbers alice (.str " 3 ") .undefined .undefined .undefined)
      sampleInbox (first :: rest) r sampleInbox := by
    rw [listByUser_eq (by decide), third, twenty, forty, take, plainTexts.natural _ (by norm_num),
      plainTexts.natural _ (by norm_num), if_neg nofun, if_neg nofun]
    have ordered : [aliceNote].Perm (sampleInbox.bell.rowsOf alice) ∧
        [aliceNote].Pairwise (SortOrder.desc.allows .createdAt · ·) := by decide +kernel
    obtain ⟨first, rest, -, execution⟩ := queryPage_found (Number.wholePart?_toString 40)
      (Number.wholePart?_toString 20) ordered
    exact ⟨first, rest, _, execution⟩
  obtain ⟨first, rest, r, execution⟩ := execution
  refine ⟨_, r, _, execution, nofun, (paging_legal_iff execution).mpr (.inr ?_)⟩
  rw [third, twenty]
  refine ⟨.inr ⟨3, rfl⟩, ⟨20, .whole rfl (by decide) (by decide)⟩, fun p t given limited => ?_⟩
  obtain rfl : 3 = p := by exact_mod_cast Number.finite.inj given
  have take' := ((takeOf_natural (n := finite (20 : ℕ)) nofun).mpr limited).1
  obtain rfl : 20 = t := by exact_mod_cast Number.finite.inj (take.symm.trans take')
  decide +kernel

end Sample

end CorePlatform.Bell
