import Mathlib.Data.List.Nodup

/-!
# Tables with an AUTOINCREMENT key

A table is the list of its rows in key order and the last key it has given out.
The order and the bound are fields, so a table with two rows of one key, or with
a row whose key may be given out again, cannot be built; `insert`, `update` and
`delete` are the statements a store runs on it.
-/

namespace XYChat.Lib

/-- Rows with an integer primary key. -/
class Keyed (ρ : Type) where
  key : ρ → Int

export Keyed (key)

structure Table (ρ : Type) [Keyed ρ] where
  rows : List ρ
  lastId : Int
  sorted : rows.Pairwise fun a b => key a < key b
  bounded : ∀ r ∈ rows, 0 < key r ∧ key r ≤ lastId
  lastId_nonneg : 0 ≤ lastId

namespace Table

variable {ρ : Type} [Keyed ρ] (t : Table ρ)

/-- A table nothing was ever inserted into. -/
def empty : Table ρ := ⟨[], 0, List.Pairwise.nil, by simp, Int.le_refl 0⟩

instance : Inhabited (Table ρ) := ⟨empty⟩

/-- The row with key `i`. -/
def get (i : Int) : Option ρ := t.rows.find? fun r => key r == i

/-- Insert the row `mk` builds under the next key. -/
def insert (mk : Int → ρ) (hmk : ∀ i, key (mk i) = i := by intro; rfl) : Table ρ where
  rows := t.rows ++ [mk (t.lastId + 1)]
  lastId := t.lastId + 1
  sorted := by
    refine List.pairwise_append.mpr ⟨t.sorted, List.pairwise_singleton _ _, ?_⟩
    intro a ha b hb
    rw [List.mem_singleton.mp hb, hmk]
    have := (t.bounded a ha).2
    omega
  bounded := by
    intro r hr
    have hnonneg := t.lastId_nonneg
    rcases List.mem_append.mp hr with hr | hr
    · have := t.bounded r hr
      omega
    · rw [List.mem_singleton.mp hr, hmk]
      omega
  lastId_nonneg := by
    have := t.lastId_nonneg
    omega

/-- Insert a row whose key is past the last one given out. -/
def add (r : ρ) : Table ρ :=
  if h : t.lastId < key r then
    { rows := t.rows ++ [r]
      lastId := key r
      sorted := by
        refine List.pairwise_append.mpr ⟨t.sorted, List.pairwise_singleton _ _, ?_⟩
        intro a ha b hb
        rw [List.mem_singleton.mp hb]
        exact Int.lt_of_le_of_lt (t.bounded a ha).2 h
      bounded := by
        have hnonneg := t.lastId_nonneg
        intro r' hr'
        rcases List.mem_append.mp hr' with hr' | hr'
        · have := t.bounded r' hr'
          omega
        · rw [List.mem_singleton.mp hr']
          omega
      lastId_nonneg := Int.le_trans t.lastId_nonneg (Int.le_of_lt h) }
  else t

/-- The table of `rows`, which are in key order. -/
def ofRows (rows : List ρ) : Table ρ := rows.foldl add empty

/-- Change the rows that `p` selects by `f`, which keeps keys. -/
def update (p : ρ → Bool) (f : ρ → ρ) (hf : ∀ r, key (f r) = key r := by intro; rfl) :
    Table ρ where
  rows := t.rows.map fun r => if p r then f r else r
  lastId := t.lastId
  sorted := by
    refine List.pairwise_map.mpr (t.sorted.imp fun {a b} hab => ?_)
    split <;> split <;> simpa [hf] using hab
  bounded := by
    intro r hr
    obtain ⟨r', hr', rfl⟩ := List.mem_map.mp hr
    split
    · rw [hf]
      exact t.bounded r' hr'
    · exact t.bounded r' hr'
  lastId_nonneg := t.lastId_nonneg

/-- Delete the rows that `p` selects. -/
def delete (p : ρ → Bool) : Table ρ where
  rows := t.rows.filter fun r => !p r
  lastId := t.lastId
  sorted := t.sorted.filter _
  bounded := fun r hr => t.bounded r (List.mem_filter.mp hr).1
  lastId_nonneg := t.lastId_nonneg

variable {t}

@[simp] theorem lastId_insert (mk : Int → ρ) (hmk) : (t.insert mk hmk).lastId = t.lastId + 1 := rfl

@[simp] theorem lastId_update (p : ρ → Bool) (f : ρ → ρ) (hf) :
    (t.update p f hf).lastId = t.lastId := rfl

@[simp] theorem lastId_delete (p : ρ → Bool) : (t.delete p).lastId = t.lastId := rfl

@[simp] theorem mem_insert {mk : Int → ρ} {hmk} {r : ρ} :
    r ∈ (t.insert mk hmk).rows ↔ r ∈ t.rows ∨ r = mk (t.lastId + 1) := by
  simp [insert]

theorem rows_update (p : ρ → Bool) (f : ρ → ρ) (hf) :
    (t.update p f hf).rows = t.rows.map fun r => if p r then f r else r := rfl

/-- An update that selects no row leaves the table as it is. -/
theorem update_of_none {p : ρ → Bool} {f : ρ → ρ} (hf : ∀ r, key (f r) = key r)
    (h : ∀ r ∈ t.rows, p r = false) : t.update p f hf = t := by
  obtain ⟨rows, lastId, sorted, bounded, nonneg⟩ := t
  have hrows : (rows.map fun r => if p r then f r else r) = rows := by
    refine (List.map_congr_left fun r hr => ?_).trans (List.map_id rows)
    rw [h r hr]
    rfl
  unfold update
  simp only [hrows]

@[simp] theorem mem_delete {p : ρ → Bool} {r : ρ} :
    r ∈ (t.delete p).rows ↔ r ∈ t.rows ∧ p r = false := by
  simp [delete]

theorem keys_nodup : (t.rows.map key).Nodup :=
  List.pairwise_map.mpr (t.sorted.imp fun h => by omega)

theorem le_lastId {r : ρ} (hr : r ∈ t.rows) : key r ≤ t.lastId := (t.bounded r hr).2

/-- A key names at most one row. -/
theorem key_inj {a b : ρ} (ha : a ∈ t.rows) (hb : b ∈ t.rows) (h : key a = key b) : a = b :=
  List.inj_on_of_nodup_map keys_nodup ha hb h

/-- Deleting by a key deletes the one row that has it. -/
theorem mem_delete_key {r : ρ} (hr : r ∈ t.rows) {row : ρ} :
    row ∈ (t.delete fun row => key row == key r).rows ↔ row ∈ t.rows ∧ row ≠ r := by
  rw [mem_delete, beq_eq_false_iff_ne]
  refine and_congr_right fun hrow => not_congr ⟨fun h => key_inj hrow hr h, ?_⟩
  rintro rfl
  rfl

theorem get_eq_some {i : Int} {r : ρ} : t.get i = some r ↔ r ∈ t.rows ∧ key r = i := by
  constructor
  · intro h
    exact ⟨List.mem_of_find?_eq_some h, by simpa using List.find?_some h⟩
  · rintro ⟨hr, rfl⟩
    cases h : t.get (key r) with
    | none => exact absurd (List.find?_eq_none.mp h r hr) (by simp)
    | some r' =>
        have hr' := List.mem_of_find?_eq_some h
        have hkey : key r' = key r := by simpa using List.find?_some h
        rw [key_inj hr' hr hkey]

theorem get_mem {r : ρ} (hr : r ∈ t.rows) : t.get (key r) = some r :=
  get_eq_some.mpr ⟨hr, rfl⟩

theorem get_eq_none {i : Int} : t.get i = none ↔ ∀ r ∈ t.rows, key r ≠ i := by
  simp [get]

/-- The key an insertion gives out is new. -/
theorem get_insert {mk : Int → ρ} {hmk} {i : Int} :
    (t.insert mk hmk).get i = if i = t.lastId + 1 then some (mk i) else t.get i := by
  split
  · rename_i h
    subst h
    exact get_eq_some.mpr ⟨by simp, hmk _⟩
  · rename_i h
    cases hget : t.get i with
    | some r =>
        obtain ⟨hr, hkey⟩ := get_eq_some.mp hget
        exact get_eq_some.mpr ⟨by simp [hr], hkey⟩
    | none =>
        refine get_eq_none.mpr fun r hr => ?_
        rcases mem_insert.mp hr with hr | rfl
        · exact get_eq_none.mp hget r hr
        · rw [hmk]
          exact fun h' => h h'.symm

theorem get_update {p : ρ → Bool} {f : ρ → ρ} {hf} {i : Int} :
    (t.update p f hf).get i = (t.get i).map fun r => if p r then f r else r := by
  cases hget : t.get i with
  | some r =>
      obtain ⟨hr, hkey⟩ := get_eq_some.mp hget
      refine get_eq_some.mpr ⟨List.mem_map.mpr ⟨r, hr, rfl⟩, ?_⟩
      show key (if p r then f r else r) = i
      split
      · rw [hf, hkey]
      · exact hkey
  | none =>
      refine get_eq_none.mpr fun r hr => ?_
      obtain ⟨r', hr', rfl⟩ := List.mem_map.mp hr
      have := get_eq_none.mp hget r' hr'
      split
      · rwa [hf]
      · exact this

end Table

end XYChat.Lib
