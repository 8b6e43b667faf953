/-! Tables with a primary key: finite lists of rows in which no key occurs twice. The
operations are those of a database client; each keeps the key, so that a table with
a repeated key cannot be built. -/
namespace Relational

structure Table {α κ : Type} (key : α → κ) where
  rows : List α
  keyed : (rows.map key).Nodup

variable {α β κ : Type} {key : α → κ}

namespace Table

instance : Membership α (Table key) := ⟨fun table row => row ∈ table.rows⟩

instance [DecidableEq α] (table : Table key) (row : α) : Decidable (row ∈ table) :=
  inferInstanceAs (Decidable (row ∈ table.rows))

theorem mem_rows {table : Table key} {row : α} : row ∈ table.rows ↔ row ∈ table := Iff.rfl

def empty : Table key := ⟨[], List.nodup_nil⟩

@[simp] theorem not_mem_empty (row : α) : row ∉ (empty : Table key) := List.not_mem_nil

private theorem nodup_eq {rows : List α} (keyed : (rows.map key).Nodup) (found : row ∈ rows)
    (found' : row' ∈ rows) (same : key row = key row') : row = row' := by
  induction rows with
  | nil => cases found
  | cons head tail ih =>
    simp only [List.map_cons, List.nodup_cons, List.mem_map, not_exists, not_and] at keyed
    rcases List.mem_cons.mp found with rfl | inTail
    · rcases List.mem_cons.mp found' with rfl | inTail'
      · rfl
      · exact absurd same.symm (keyed.1 row' inTail')
    · rcases List.mem_cons.mp found' with rfl | inTail'
      · exact absurd same (keyed.1 row inTail)
      · exact ih keyed.2 inTail inTail'

/-- A key determines its row. -/
theorem eq_of_key {table : Table key} (found : row ∈ table) (found' : row' ∈ table)
    (same : key row = key row') : row = row' := nodup_eq table.keyed found found' same

/-- A row that a query finds is in the table and matches. -/
theorem of_find {table : Table key} {p : α → Prop} [DecidablePred p]
    (found : table.rows.find? (p ·) = some row) : row ∈ table ∧ p row := by
  have matching := List.find?_some found
  exact ⟨List.mem_of_find?_eq_some found, of_decide_eq_true matching⟩

/-- `updateMany`: change the rows that meet a filter. -/
def update (table : Table key) (p : α → Bool) (f : α → α)
    (same : ∀ row, key (f row) = key row := by intro row; rfl) : Table key where
  rows := table.rows.map fun row => if p row then f row else row
  keyed := by
    have keys : (table.rows.map fun row => if p row then f row else row).map key =
        table.rows.map key := by
      simp only [List.map_map, List.map_inj_left, Function.comp_apply]
      intro row _
      split <;> simp only [same]
    rw [keys]
    exact table.keyed

theorem mem_update {table : Table key} {p : α → Bool} {f : α → α}
    (same : ∀ row, key (f row) = key row) :
    row ∈ table.update p f same ↔ ∃ old ∈ table, (if p old then f old else old) = row := by
  simp only [← mem_rows, update, List.mem_map]

/-- A column that the change leaves alone keeps its values. -/
theorem map_update {table : Table key} {p : α → Bool} {f : α → α}
    {same : ∀ row, key (f row) = key row} {column : α → β}
    (kept : ∀ row, column (f row) = column row) :
    (table.update p f same).rows.map column = table.rows.map column := by
  simp only [update, List.map_map, List.map_inj_left, Function.comp_apply]
  intro row _
  split <;> simp only [kept]

/-- A change keeps every key. -/
theorem exists_update {table : Table key} {p : α → Bool} {f : α → α}
    (same : ∀ row, key (f row) = key row) (found : ∃ row ∈ table.rows, key row = k) :
    ∃ row ∈ (table.update p f same).rows, key row = k := by
  obtain ⟨row, inTable, rfl⟩ := found
  refine ⟨_, (mem_update same).mpr ⟨row, inTable, rfl⟩, ?_⟩
  split
  · exact same row
  · rfl

/-- `deleteMany` -/
def delete (table : Table key) (p : α → Bool) : Table key where
  rows := table.rows.filter fun row => !p row
  keyed := table.keyed.sublist (List.filter_sublist.map key)

theorem mem_delete {table : Table key} {p : α → Bool} :
    row ∈ table.delete p ↔ row ∈ table ∧ p row = false := by
  simp only [← mem_rows, delete, List.mem_filter, Bool.not_eq_eq_eq_not, Bool.not_true]

section Keys

variable [DecidableEq κ]

/-- `create`, refused when the key is taken. -/
def insert? (table : Table key) (row : α) : Option (Table key) :=
  if fresh : key row ∉ table.rows.map key then
    some ⟨row :: table.rows, List.nodup_cons.mpr ⟨fresh, table.keyed⟩⟩
  else none

theorem insert?_rows {table table' : Table key} (inserted : table.insert? row = some table') :
    table'.rows = row :: table.rows := by
  unfold insert? at inserted
  split at inserted
  · rw [← Option.some.inj inserted]
  · contradiction

theorem mem_insert? {table table' : Table key} (inserted : table.insert? row = some table') :
    row' ∈ table' ↔ row' = row ∨ row' ∈ table := by
  rw [← mem_rows, insert?_rows inserted, List.mem_cons, mem_rows]

theorem insert?_fresh {table table' : Table key} (inserted : table.insert? row = some table')
    (found : row' ∈ table) : key row' ≠ key row := by
  unfold insert? at inserted
  split at inserted
  · rename_i fresh
    exact fun same => fresh (List.mem_map.mpr ⟨row', found, same⟩)
  · contradiction

theorem insert?_of_fresh {table : Table key} (fresh : ∀ other ∈ table, key other ≠ key row) :
    (table.insert? row).isSome := by
  have absent : key row ∉ table.rows.map key := by
    intro taken
    obtain ⟨other, found, same⟩ := List.mem_map.mp taken
    exact fresh other found same
  rw [insert?, dif_pos absent, Option.isSome_some]

/-- `update`: change the row with a key, refused when there is none. -/
def modify? (table : Table key) (k : κ) (f : α → α)
    (same : ∀ row, key (f row) = key row := by intro row; rfl) : Option (Table key) :=
  if k ∈ table.rows.map key then some (table.update (fun row => key row = k) f same) else none

theorem mem_modify? {table table' : Table key} {f : α → α} {same : ∀ row, key (f row) = key row}
    (modified : table.modify? k f same = some table') :
    row ∈ table' ↔ ∃ old ∈ table, (if key old = k then f old else old) = row := by
  unfold modify? at modified
  split at modified
  · rw [← Option.some.inj modified, mem_update]
    simp only [decide_eq_true_eq]
  · contradiction

/-- `delete`, refused when there is no row with the key. -/
def remove? (table : Table key) (k : κ) : Option (Table key) :=
  if k ∈ table.rows.map key then some (table.delete fun row => key row = k) else none

theorem mem_remove? {table table' : Table key} (removed : table.remove? k = some table') :
    row ∈ table' ↔ row ∈ table ∧ key row ≠ k := by
  unfold remove? at removed
  split at removed
  · rw [← Option.some.inj removed, mem_delete]
    simp only [decide_eq_false_iff_not, ne_eq]
  · contradiction

end Keys
end Table
end Relational
