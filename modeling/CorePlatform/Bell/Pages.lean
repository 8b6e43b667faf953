import CorePlatform.Bell.Paging
import CorePlatform.Relational.Windows

/-! The pages of `listByUser` one after the other, on a table that stays as it is. -/
namespace CorePlatform.Bell
open Async Relational
open Number (finite)

def sortFieldOf (sortByRaw : Js) : SortField :=
  if sortByRaw = .str "readAt" then .readAt else .createdAt

def sortOrderOf (sortOrderRaw : Js) : SortOrder :=
  if sortOrderRaw = .str "asc" then .asc else .desc

/-- `Math.ceil(total / limit)` -/
def lastPage (total limit : ℕ) : ℕ := (total + limit - 1) / limit

/-- A page that `listByUser` may return. -/
def Lists (texts : NumberTexts) (cfg : InboxConfig) (userId : String)
    (pageRaw limitRaw sortByRaw sortOrderRaw : Js) (s : InboxStore) (page : Page) : Prop :=
  ∃ record t, Executes (inboxSemantics cfg)
    (listByUser texts.numbers userId pageRaw limitRaw sortByRaw sortOrderRaw) s record (.ok page) t

theorem notAfter_total (a b : Option Nat) : (notAfter a b || notAfter b a) = true := by
  cases a <;> cases b <;> simp [notAfter, Nat.le_total]

theorem notAfter_trans {a b c : Option Nat} (ab : notAfter a b = true) (bc : notAfter b c = true) :
    notAfter a c = true := by
  cases c with
  | none => cases a <;> rfl
  | some c =>
    cases b with
    | none => contradiction
    | some b =>
      cases a with
      | none => contradiction
      | some a =>
        simp only [notAfter, decide_eq_true_eq] at ab bc ⊢
        exact ab.trans bc

theorem allows_total (f : SortField) (o : SortOrder) (a b : Notification) :
    (o.allows f a b || o.allows f b a) = true := by
  cases o with
  | asc => exact notAfter_total _ _
  | desc => exact notAfter_total _ _

theorem allows_trans (f : SortField) (o : SortOrder) (a b c : Notification)
    (ab : o.allows f a b = true) (bc : o.allows f b c = true) : o.allows f a c = true := by
  cases o with
  | asc => exact notAfter_trans ab bc
  | desc => exact notAfter_trans bc ab

theorem nodup_rowsOf (s : Store) (userId : String) : (s.rowsOf userId).Nodup :=
  s.notifications.keyed.of_map.filter _

theorem le_lastPage {total limit : ℕ} (filled : 1 ≤ limit) :
    total ≤ lastPage total limit * limit := by
  have bound := Nat.lt_div_mul_add (a := total + limit - 1) filled
  rw [lastPage]
  omega

/-- The pages up to the last one begin in front of the end. -/
theorem lt_of_lastPage {total limit k : ℕ} (filled : 1 ≤ limit)
    (within : k < lastPage total limit) : k * limit < total := by
  have bound : (k + 1) * limit ≤ total + limit - 1 :=
    (Nat.le_div_iff_mul_le filled).mp within
  rw [Nat.succ_mul] at bound
  omega

section Results

variable {texts : NumberTexts} {cfg : InboxConfig} {userId : String} {s t : InboxStore}
  {f : SortField} {o : SortOrder} {skip take : ℕ}

/-- What a query for a page finds is a window of the rows in an order that it allows. -/
theorem findMany_found {ch : InboxChoice} {items : List Notification}
    (executed : (inboxSemantics cfg).exec (.notificationFindMany userId f o (toString skip)
      (toString take)) ch s = some (.ok items, t)) :
    t = s ∧ ∃ sorted, Ordered (o.allows f) (s.bell.rowsOf userId) sorted ∧
      items = window sorted skip take := by
  cases fault : ch.fault with
  | some e =>
    simp only [inboxSemantics, inboxExec, fault] at executed
    split at executed <;> cases executed
  | none =>
    simp only [inboxSemantics, inboxExec, fault, Number.wholePart?_toString] at executed
    split at executed
    · rename_i ordered
      cases executed
      exact ⟨rfl, _, ordered, rfl⟩
    · contradiction

theorem countAll_found {ch : InboxChoice} {total : ℕ}
    (executed : (inboxSemantics cfg).exec (.notificationCountAll userId) ch s =
      some (.ok total, t)) : t = s ∧ total = (s.bell.rowsOf userId).length := by
  simp only [inboxSemantics, inboxExec] at executed
  split at executed
  · split at executed <;> cases executed
  · cases executed
    exact ⟨rfl, rfl⟩

/-- The page of a query. -/
def pageFrom (s : InboxStore) (userId : String) (f : SortField) (o : SortOrder) (page : String)
    (skip take : ℕ) (sorted : List Notification) : Page where
  items := window sorted skip take
  total := (s.bell.rowsOf userId).length
  page := page
  limit := toString take
  sortBy := f
  sortOrder := o

theorem queryPage_iff {page : String} {r : Page} :
    (∃ record t, Executes (inboxSemantics cfg)
      (queryPage userId f o page (toString take) (toString skip)) s record (.ok r) t) ↔
      ∃ sorted, Ordered (o.allows f) (s.bell.rowsOf userId) sorted ∧
        r = pageFrom s userId f o page skip take sorted := by
  constructor
  · rintro ⟨record, t, execution⟩
    obtain ⟨choice, found, s', rest, -, executed, counting⟩ := executes_await execution
    cases found with
    | error e => cases counting
    | ok items =>
      obtain ⟨rfl, sorted, ordered, rfl⟩ := findMany_found executed
      obtain ⟨choice', counted, s'', rest', -, executed, done⟩ := executes_await counting
      cases counted with
      | error e => cases done
      | ok total =>
        obtain ⟨rfl, rfl⟩ := countAll_found executed
        cases done
        exact ⟨sorted, ordered, rfl⟩
  · rintro ⟨sorted, ordered, rfl⟩
    obtain ⟨first, rest, -, execution⟩ := queryPage_found (Number.wholePart?_toString skip)
      (Number.wholePart?_toString take) ordered
    exact ⟨_, _, execution⟩

/-- What a page holds that is given by natural numbers, with `k` pages before it. -/
theorem lists_iff {k limit : ℕ} {pageRaw limitRaw sortByRaw sortOrderRaw : Js} {r : Page}
    (named : userId ≠ "") (numbered : texts.given pageRaw 1 = finite (1 + k : ℕ))
    (asked : texts.given limitRaw 20 = finite limit) (least : 1 ≤ limit) (most : limit ≤ 100)
    (few : k * limit ≤ 2 ^ 53) :
    Lists texts cfg userId pageRaw limitRaw sortByRaw sortOrderRaw s r ↔
      ∃ sorted, Ordered ((sortOrderOf sortOrderRaw).allows (sortFieldOf sortByRaw))
          (s.bell.rowsOf userId) sorted ∧
        r = pageFrom s userId (sortFieldOf sortByRaw) (sortOrderOf sortOrderRaw)
          (texts.text (finite (1 + k : ℕ))) (k * limit) limit sorted := by
  have page : pageOf (finite (1 + k : ℕ)) = finite (1 + k : ℕ) :=
    ((pageOf_natural (n := finite (1 + k : ℕ)) nofun).mpr (.inr ⟨rfl, Nat.le_add_right 1 k⟩)).2
  have take : takeOf (finite limit) = finite limit :=
    ((takeOf_natural (n := finite limit) nofun).mpr (.whole rfl least most)).1
  have skip : skipOf (finite (1 + k : ℕ)) (finite limit) = finite (k * limit : ℕ) := by
    have bounded : k * limit < 2 ^ 1024 := by
      refine few.trans_lt ?_
      gcongr <;> norm_num
    have before : 1 + k - 1 = k := Nat.add_sub_cancel_left 1 k
    have product := skip_of_representable (p := 1 + k) (t := limit) (Nat.le_add_right 1 k) least
    rw [before] at product
    rw [skipOf, page, take]
    exact product (.of_le few) bounded
  have small : limit < 10 ^ 21 := most.trans_lt (by norm_num)
  have written : k * limit < 10 ^ 21 := few.trans_lt (by norm_num)
  simp only [Lists, listByUser_eq named, numbered, asked, page, take, skip,
    texts.natural limit small, texts.natural _ written]
  exact queryPage_iff

end Results

/-- The notifications of pages, one page after the other. -/
def concatenated (pages : ℕ → Page) (last : ℕ) : List Notification :=
  (List.range' 1 last).flatMap fun k => (pages k).items

/-- The pages hold every notification once, whatever the orders of their queries, exactly if no page
ends between notifications that the sort key leaves equal. -/
theorem pages_once_iff {texts : NumberTexts} {cfg : InboxConfig} {userId : String} {s : InboxStore}
    {limitRaw sortByRaw sortOrderRaw : Js} {pageRaw : ℕ → Js} {limit last : ℕ}
    (named : userId ≠ "") (least : 1 ≤ limit) (most : limit ≤ 100)
    (asked : texts.given limitRaw 20 = finite limit)
    (ends : last = lastPage (s.bell.rowsOf userId).length limit)
    (numbered : ∀ k, 1 ≤ k → k ≤ last → texts.given (pageRaw k) 1 = finite k)
    (stored : (s.bell.rowsOf userId).length ≤ 2 ^ 53) :
    (∀ pages : ℕ → Page, (∀ k, 1 ≤ k → k ≤ last →
        Lists texts cfg userId (pageRaw k) limitRaw sortByRaw sortOrderRaw s (pages k)) →
      ∀ row ∈ s.bell.rowsOf userId, (concatenated pages last).count row = 1) ↔
    ∀ k, Uncrossed ((sortOrderOf sortOrderRaw).allows (sortFieldOf sortByRaw))
      (s.bell.rowsOf userId) (k * limit) := by
  have enough : (s.bell.rowsOf userId).length ≤ last * limit := ends ▸ le_lastPage least
  have few : ∀ k < last, k * limit ≤ 2 ^ 53 := fun k within =>
    (lt_of_lastPage least (ends ▸ within)).le.trans stored
  have joined : ∀ pages : ℕ → Page, concatenated pages last =
      (List.range last).flatMap fun k => (pages (1 + k)).items := by
    intro pages
    rw [concatenated, List.range'_eq_map_range, List.flatMap_map]
  rw [← count_windows_iff (n := last) (allows_trans _ _) (allows_total _ _)
    (nodup_rowsOf s.bell userId) least enough]
  constructor
  · intro once sorted ordered row member
    -- the pages that are cut out of the given orders
    let pages : ℕ → Page := fun k => pageFrom s userId (sortFieldOf sortByRaw)
      (sortOrderOf sortOrderRaw) (texts.text (finite k)) ((k - 1) * limit) limit (sorted (k - 1))
    have shown : ∀ k, 1 ≤ k → k ≤ last →
        Lists texts cfg userId (pageRaw k) limitRaw sortByRaw sortOrderRaw s (pages k) := by
      intro k positive within
      obtain ⟨i, rfl⟩ : ∃ i, k = 1 + i := ⟨k - 1, by omega⟩
      have inside : i < last := by omega
      refine (lists_iff named (numbered _ positive within) asked least most (few i inside)).mpr ?_
      refine ⟨sorted i, ordered i inside, ?_⟩
      simp only [pages, Nat.add_sub_cancel_left]
    have counted := once pages shown row member
    rw [joined] at counted
    simpa only [pages, pageFrom, Nat.add_sub_cancel_left] using counted
  · intro once pages shown row member
    have orders : ∀ k, ∃ sorted, k < last →
        Ordered ((sortOrderOf sortOrderRaw).allows (sortFieldOf sortByRaw))
          (s.bell.rowsOf userId) sorted ∧
        (pages (1 + k)).items = window sorted (k * limit) limit := by
      intro k
      by_cases within : k < last
      · have positive : 1 ≤ 1 + k := Nat.le_add_right 1 k
        have inside : 1 + k ≤ last := by omega
        obtain ⟨sorted, ordered, page⟩ := (lists_iff named (numbered _ positive inside) asked least
          most (few k within)).mp (shown _ positive inside)
        exact ⟨sorted, fun _ => ⟨ordered, congrArg Page.items page⟩⟩
      · exact ⟨[], fun within' => absurd within' within⟩
    choose sorted ordered using orders
    have same : ((List.range last).flatMap fun k => (pages (1 + k)).items) =
        (List.range last).flatMap fun k => window (sorted k) (k * limit) limit :=
      List.flatMap_congr fun k inRange => (ordered k (List.mem_range.mp inRange)).2
    rw [joined, same]
    exact once sorted (fun k within => (ordered k within).1) row member

/-- The text of a natural number gives that number. -/
theorem given_toString (texts : NumberTexts) {k : ℕ} (fallback : ℕ) (positive : 1 ≤ k)
    (small : k ≤ 2 ^ 53) : texts.given (.str (toString k)) fallback = finite k := by
  have read : texts.number (.str (toString k)) = finite k := by
    rw [NumberTexts.number, Number.ofString_toString small]
  have given : (Js.str (toString k)).orElse (.num (toString fallback)) = .str (toString k) := rfl
  simp only [NumberTexts.given, given, read]
  refine if_neg ?_
  rintro (zero | missing)
  · have zero : (k : ℚ) = 0 := Number.finite.inj zero
    have zero : k = 0 := by exact_mod_cast zero
    omega
  · cases missing

section Sample

def secondNote : Notification := { aliceNote with id := bobNote.id }

def inboxOf (createdAt : ℕ) : InboxStore where
  bell := { notifications := ⟨[aliceNote, { secondNote with createdAt }], by
    have other : aliceNote.id ≠ secondNote.id := by decide
    simpa using other⟩ }
  redis := Permission.Redis.empty

theorem given_one : plainTexts.given (.str "1") 20 = finite (1 : ℕ) := by
  have text : toString 1 = "1" := by decide
  rw [← text]
  exact given_toString plainTexts 20 le_rfl (by norm_num)

/-- Pages of one notification each, with an order of the rows for each of them. -/
def samplePages (createdAt : ℕ) (orders : ℕ → List Notification) (k : ℕ) : Page :=
  pageFrom (inboxOf createdAt) alice .createdAt .desc (plainTexts.text (finite k)) ((k - 1) * 1) 1
    (orders k)

theorem samplePages_listed {createdAt : ℕ} {orders : ℕ → List Notification}
    (ordered : ∀ k, Ordered (SortOrder.desc.allows .createdAt)
      ((inboxOf createdAt).bell.rowsOf alice) (orders k)) {k : ℕ} (positive : 1 ≤ k)
    (within : k ≤ 2) : Lists plainTexts sampleConfig alice (.str (toString k)) (.str "1")
      .undefined .undefined (inboxOf createdAt) (samplePages createdAt orders k) := by
  obtain ⟨i, rfl⟩ : ∃ i, k = 1 + i := ⟨k - 1, by omega⟩
  have few : i * 1 ≤ 2 ^ 53 := by omega
  refine (lists_iff (by decide) (given_toString plainTexts 1 positive (by omega)) given_one le_rfl
    (by norm_num) few).mpr ⟨orders (1 + i), ?_, ?_⟩
  · simpa only [sortFieldOf, sortOrderOf, reduceCtorEq, if_false] using ordered (1 + i)
  · simp only [samplePages, Nat.add_sub_cancel_left, sortFieldOf, sortOrderOf, reduceCtorEq,
      if_false]

/-- Two notifications of one moment: the second page may repeat the first one. -/
theorem tied_rows_repeated : lastPage ((inboxOf 0).bell.rowsOf alice).length 1 = 2 ∧
    secondNote ∈ (inboxOf 0).bell.rowsOf alice ∧ ∃ pages : ℕ → Page,
      (∀ k, 1 ≤ k → k ≤ 2 → Lists plainTexts sampleConfig alice (.str (toString k)) (.str "1")
        .undefined .undefined (inboxOf 0) (pages k)) ∧
      (concatenated pages 2).count aliceNote = 2 ∧
      (concatenated pages 2).count secondNote = 0 := by
  let orders : ℕ → List Notification := fun k =>
    if k = 1 then [aliceNote, secondNote] else [secondNote, aliceNote]
  refine ⟨by decide +kernel, by decide +kernel, samplePages 0 orders, fun k positive within =>
    samplePages_listed (fun k => ?_) positive within, by decide +kernel, by decide +kernel⟩
  simp only [orders]
  split
  · exact ⟨by decide +kernel, by decide +kernel⟩
  · exact ⟨by decide +kernel, by decide +kernel⟩

/-- Two notifications of different moments are both shown. -/
theorem distinct_rows_once : lastPage ((inboxOf 5).bell.rowsOf alice).length 1 = 2 ∧
    ∃ pages : ℕ → Page,
      (∀ k, 1 ≤ k → k ≤ 2 → Lists plainTexts sampleConfig alice (.str (toString k)) (.str "1")
        .undefined .undefined (inboxOf 5) (pages k)) ∧
      ∀ row ∈ (inboxOf 5).bell.rowsOf alice, (concatenated pages 2).count row = 1 := by
  have rows : ((inboxOf 5).bell.rowsOf alice).length = 2 := by decide +kernel
  have ordered : Ordered (SortOrder.desc.allows .createdAt) ((inboxOf 5).bell.rowsOf alice)
      [{ secondNote with createdAt := 5 }, aliceNote] := ⟨by decide +kernel, by decide +kernel⟩
  have listed : ∀ k, 1 ≤ k → k ≤ 2 → Lists plainTexts sampleConfig alice (.str (toString k))
      (.str "1") .undefined .undefined (inboxOf 5)
        (samplePages 5 (fun _ => [{ secondNote with createdAt := 5 }, aliceNote]) k) :=
    fun k positive within => samplePages_listed (fun _ => ordered) positive within
  refine ⟨by rw [rows]; rfl, _, listed, (pages_once_iff (by decide) le_rfl (by norm_num) given_one
    (by rw [rows]; rfl) (fun k positive within => given_toString plainTexts 1 positive (by omega))
    (by rw [rows]; norm_num)).mpr (fun k row member => ?_) _ listed⟩
  match k with
  | 0 => exact .inl (by rw [Nat.zero_mul]; exact Nat.zero_le _)
  | 1 =>
    revert row
    decide +kernel
  | k + 2 =>
    have few : upTo ((sortOrderOf .undefined).allows (sortFieldOf .undefined))
      ((inboxOf 5).bell.rowsOf alice) row ≤ 2 := rows ▸ List.countP_le_length
    exact .inr (by omega)

end Sample

end CorePlatform.Bell
