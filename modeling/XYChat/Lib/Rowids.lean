import XYChat.Lib.IntMap

/-!
# Rows by their rowids

A table whose rows are found by rowid, and the statements that hand rowids out. The
choice of a new rowid is a parameter. Where it is past the rowids in use, the order of
the rowids is the order of the writes: the rows in that order are a list to which every
write appends.
-/

namespace XYChat.Lib

/-- A new rowid is larger than every rowid in use. -/
def Increasing (newRowid : List Int → Int) : Prop := ∀ rowids, ∀ i ∈ rowids, i < newRowid rowids

/-- The choice documented for tables without AUTOINCREMENT, as long as the largest
rowid there can be is not in use. -/
def nextRowid (rowids : List Int) : Int := rowids.foldl max 0 + 1

theorem increasing_nextRowid : Increasing nextRowid := by
  have hmax : ∀ (rowids : List Int) (n : Int),
      n ≤ rowids.foldl max n ∧ ∀ i ∈ rowids, i ≤ rowids.foldl max n := by
    intro rowids
    induction rowids with
    | nil => exact fun n => ⟨Int.le_refl n, List.forall_mem_nil _⟩
    | cons j rowids ih =>
        intro n
        obtain ⟨hstart, hrest⟩ := ih (max n j)
        rw [List.foldl_cons]
        exact ⟨by omega, List.forall_mem_cons.mpr ⟨by omega, hrest⟩⟩
  intro rowids i hi
  have := (hmax rowids 0).2 i hi
  unfold nextRowid
  omega

namespace IntMap

variable {β : Type} (m : IntMap β)

/-- The rows in the order of their rowids. -/
def rows : List β := m.entries.map (·.2)

/-- Delete the rows that `p` selects. -/
def deleteRows (p : β → Bool) : IntMap β where
  entries := m.entries.filter fun e => !p e.2
  sorted := m.sorted.filter _

/-- `INSERT OR REPLACE`: the rowid is chosen, the rows in conflict go, the row comes. -/
def insertOrReplace (newRowid : List Int → Int) (conflicts : β → Bool) (row : β) : IntMap β :=
  (m.deleteRows conflicts).insert (newRowid m.keys) row

/-- `ORDER BY rowid DESC LIMIT 1` among the rows that meet `p`. -/
def newest (p : β → Bool) : Option β := ((m.entries.filter fun e => p e.2).getLast?).map (·.2)

variable {m} {p : β → Bool}

@[simp] theorem rows_empty : (empty : IntMap β).rows = [] := rfl

@[simp] theorem rows_deleteRows : (m.deleteRows p).rows = m.rows.filter fun row => !p row := by
  unfold rows deleteRows
  rw [List.filter_map]
  rfl

/-- The rows that are written one after the other are in the order of their rowids. -/
theorem rows_insertOrReplace {newRowid : List Int → Int} (h : Increasing newRowid) {row : β} :
    (m.insertOrReplace newRowid p row).rows = (m.rows.filter fun old => !p old) ++ [row] := by
  have hpast : ∀ e ∈ (m.deleteRows p).entries, e.1 < newRowid m.keys :=
    fun e he => h m.keys e.1 (List.mem_map_of_mem (List.mem_filter.mp he).1)
  unfold insertOrReplace
  rw [← rows_deleteRows]
  unfold rows
  rw [entries_insert_of_lt hpast, List.map_append]
  rfl

/-- The newest row is the last one. -/
theorem newest_eq : m.newest p = (m.rows.filter p).getLast? := by
  unfold newest rows
  rw [List.filter_map, List.getLast?_map]
  rfl

end IntMap

end XYChat.Lib
