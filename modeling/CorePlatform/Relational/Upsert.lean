import CorePlatform.Relational.Table

/-! `upsert` with nothing to update: the row that holds the value of a unique column stays as
it is, and a new row is inserted where no row holds it. -/
namespace Relational
namespace Table

variable {α κ γ : Type} {key : α → κ} {table table' : Table key} {column : α → γ}

/-- A unique column determines its row. -/
theorem eq_of_unique (unique : (table.rows.map column).Nodup) (inTable : row ∈ table)
    (inTable' : row' ∈ table) (same : column row = column row') : row = row' :=
  @eq_of_key _ _ column _ _ ⟨table.rows, unique⟩ inTable inTable' same

variable [DecidableEq κ] [DecidableEq γ]

/-- The row that holds the value, and the table behind it. -/
def upsert? (table : Table key) (column : α → γ) (row : α) : Option (α × Table key) :=
  match table.rows.find? (column · = column row) with
  | some found => some (found, table)
  | none => (table.insert? row).map (row, ·)

theorem upsert?_cases (upserted : table.upsert? column row = some (found, table')) :
    (table' = table ∧ found ∈ table ∧ column found = column row) ∨
      (found = row ∧ (∀ other ∈ table, column other ≠ column row) ∧
        table.insert? row = some table') := by
  unfold upsert? at upserted
  split at upserted
  · rename_i row' holds
    obtain ⟨rfl, rfl⟩ := Prod.mk.inj (Option.some.inj upserted)
    obtain ⟨inTable, same⟩ := of_find holds
    exact .inl ⟨rfl, inTable, same⟩
  · rename_i absent
    obtain ⟨rows, inserted, both⟩ := Option.map_eq_some_iff.mp upserted
    obtain ⟨rfl, rfl⟩ := Prod.mk.inj both
    refine .inr ⟨rfl, fun other inTable same => ?_, inserted⟩
    have missed := List.find?_eq_none.mp absent other inTable
    exact missed (decide_eq_true same)

/-- A row with the value is there afterwards. -/
theorem upsert?_found (upserted : table.upsert? column row = some (found, table')) :
    found ∈ table' ∧ column found = column row := by
  obtain ⟨rfl, inTable, same⟩ | ⟨rfl, -, inserted⟩ := upsert?_cases upserted
  · exact ⟨inTable, same⟩
  · exact ⟨(mem_insert? inserted).mpr (.inl rfl), rfl⟩

/-- Every row stays as it is. -/
theorem upsert?_kept (upserted : table.upsert? column row = some (found, table'))
    (inTable : other ∈ table) : other ∈ table' := by
  obtain ⟨rfl, -⟩ | ⟨-, -, inserted⟩ := upsert?_cases upserted
  · exact inTable
  · exact (mem_insert? inserted).mpr (.inr inTable)

/-- There is no other new row. -/
theorem upsert?_new (upserted : table.upsert? column row = some (found, table'))
    (inTable : other ∈ table') : other ∈ table ∨ other = found := by
  obtain ⟨rfl, -⟩ | ⟨rfl, -, inserted⟩ := upsert?_cases upserted
  · exact .inl inTable
  · exact ((mem_insert? inserted).mp inTable).symm

/-- The column stays unique. -/
theorem upsert?_unique (upserted : table.upsert? column row = some (found, table'))
    (unique : (table.rows.map column).Nodup) : (table'.rows.map column).Nodup := by
  obtain ⟨rfl, -⟩ | ⟨-, fresh, inserted⟩ := upsert?_cases upserted
  · exact unique
  · rw [insert?_rows inserted, List.map_cons]
    refine List.nodup_cons.mpr ⟨fun taken => ?_, unique⟩
    obtain ⟨other, inTable, same⟩ := List.mem_map.mp taken
    exact fresh other inTable same

end Table
end Relational
