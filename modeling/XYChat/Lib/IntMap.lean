import Mathlib.Data.List.Forall2
import Mathlib.Data.List.Nodup
import Mathlib.Data.List.Sort

/-!
# Maps with integer keys

A map is the list of its entries in ascending order of their keys; the order is
a field. `shrink` removes the smallest keys until a capacity is met.
-/

namespace XYChat.Lib

structure IntMap (β : Type) where
  entries : List (Int × β)
  sorted : entries.Pairwise fun a b => a.1 < b.1

namespace IntMap

variable {β : Type} (m : IntMap β)

def empty : IntMap β := ⟨[], List.Pairwise.nil⟩

instance : Inhabited (IntMap β) := ⟨empty⟩

def size : Nat := m.entries.length

def keys : List Int := m.entries.map (·.1)

/-- The value at a key. -/
def find (k : Int) : Option β := m.entries.lookup k

/-- Set the value at a key. -/
def insert (k : Int) (v : β) : IntMap β where
  entries := m.entries.filter (fun e => e.1 < k) ++ (k, v) :: m.entries.filter fun e => k < e.1
  sorted := by
    refine List.pairwise_append.mpr ⟨m.sorted.filter _, ?_, ?_⟩
    · refine List.pairwise_cons.mpr ⟨fun e he => ?_, m.sorted.filter _⟩
      simpa using (List.mem_filter.mp he).2
    · intro a ha b hb
      have hak : a.1 < k := by simpa using (List.mem_filter.mp ha).2
      rcases List.mem_cons.mp hb with rfl | hb
      · exact hak
      · have hkb : k < b.1 := by simpa using (List.mem_filter.mp hb).2
        omega

/-- Change the values that `p` selects by `f`. -/
def update (p : Int → β → Bool) (f : β → β) : IntMap β where
  entries := m.entries.map fun e => (e.1, if p e.1 e.2 then f e.2 else e.2)
  sorted := List.pairwise_map.mpr m.sorted

/-- Remove a key. -/
def erase (k : Int) : IntMap β where
  entries := m.entries.filter fun e => e.1 != k
  sorted := m.sorted.filter _

/-- Remove the smallest key while there are more than `capacity`. -/
def shrinkEntries (capacity : Nat) : List (Int × β) → List (Int × β)
  | [] => []
  | e :: l => if capacity < (e :: l).length then shrinkEntries capacity l else e :: l

theorem shrinkEntries_eq_drop (capacity : Nat) (l : List (Int × β)) :
    shrinkEntries capacity l = l.drop (l.length - capacity) := by
  induction l with
  | nil => simp [shrinkEntries]
  | cons e l ih =>
      unfold shrinkEntries
      split
      · rename_i hlong
        rw [List.length_cons] at hlong ⊢
        rw [ih, Nat.succ_sub (by omega), List.drop_succ_cons]
      · rename_i hshort
        rw [Nat.sub_eq_zero_of_le (by omega), List.drop_zero]

def shrink (capacity : Nat) : IntMap β where
  entries := shrinkEntries capacity m.entries
  sorted := by
    rw [shrinkEntries_eq_drop]
    exact m.sorted.sublist (List.drop_sublist _ _)

/-- The keys `shrink` removes. -/
def removedKeys (capacity : Nat) : List Int := m.keys.take (m.size - capacity)

variable {m} {k : Int} {v : β}

theorem mem_of_find (h : m.find k = some v) : (k, v) ∈ m.entries := by
  unfold find at h
  generalize m.entries = l at h
  induction l with
  | nil => cases h
  | cons e l ih =>
      obtain ⟨k', v'⟩ := e
      by_cases hk : k = k'
      · subst hk
        rw [List.lookup_cons_self, Option.some.injEq] at h
        subst h
        exact List.mem_cons_self
      · rw [List.lookup_cons, beq_eq_false_iff_ne.mpr hk] at h
        exact List.mem_cons_of_mem _ (ih h)

/-- A key has one value. -/
theorem find_eq_some : m.find k = some v ↔ (k, v) ∈ m.entries := by
  refine ⟨mem_of_find, fun h => ?_⟩
  have hsorted := m.sorted
  unfold find
  generalize m.entries = l at h hsorted
  induction l with
  | nil => cases h
  | cons e l ih =>
      obtain ⟨hfirst, hrest⟩ := List.pairwise_cons.mp hsorted
      rcases List.mem_cons.mp h with rfl | h
      · rw [List.lookup_cons_self]
      · have hlt : e.1 < k := hfirst _ h
        have hne : k ≠ e.1 := by omega
        rw [List.lookup_cons, beq_eq_false_iff_ne.mpr hne]
        exact ih h hrest

theorem find_eq_none : m.find k = none ↔ k ∉ m.keys := by
  unfold find keys
  rw [List.lookup_eq_none_iff]
  constructor
  · intro h hk
    obtain ⟨e, he, rfl⟩ := List.mem_map.mp hk
    simpa using h e he
  · intro h e he
    have hne : k ≠ e.1 := fun heq => h (heq ▸ List.mem_map_of_mem he)
    simpa using hne

@[simp] theorem keys_empty : (empty : IntMap β).keys = [] := rfl

/-- A key above all others goes to the end. -/
theorem entries_insert_of_lt (h : ∀ e ∈ m.entries, e.1 < k) :
    (m.insert k v).entries = m.entries ++ [(k, v)] := by
  have hbelow : m.entries.filter (fun e => e.1 < k) = m.entries :=
    List.filter_eq_self.mpr fun e he => by simpa using h e he
  have habove : m.entries.filter (fun e => k < e.1) = [] :=
    List.filter_eq_nil_iff.mpr fun e he => by simpa using Int.le_of_lt (h e he)
  show m.entries.filter _ ++ (k, v) :: m.entries.filter _ = _
  rw [hbelow, habove]

theorem mem_erase {e : Int × β} : e ∈ (m.erase k).entries ↔ e ∈ m.entries ∧ e.1 ≠ k := by
  simp [erase]

theorem mem_keys_erase {k' : Int} : k' ∈ (m.erase k).keys ↔ k' ∈ m.keys ∧ k' ≠ k := by
  unfold keys
  simp only [List.mem_map, mem_erase]
  constructor
  · rintro ⟨e, ⟨he, hne⟩, rfl⟩
    exact ⟨⟨e, he, rfl⟩, hne⟩
  · rintro ⟨⟨e, he, rfl⟩, hne⟩
    exact ⟨e, ⟨he, hne⟩, rfl⟩

theorem size_insert_le : (m.insert k v).size ≤ m.size + 1 := by
  have hsplit := @List.length_eq_countP_add_countP _ (fun e : Int × β => decide (e.1 < k)) m.entries
  have habove : m.entries.countP (fun e => decide (k < e.1)) ≤
      m.entries.countP (fun e => decide ¬(decide (e.1 < k) = true)) := by
    refine List.countP_mono_left fun e _ h => ?_
    simp only [decide_eq_true_eq] at h ⊢
    omega
  show (m.entries.filter _ ++ (k, v) :: m.entries.filter _).length ≤ m.entries.length + 1
  rw [List.length_append, List.length_cons, ← List.countP_eq_length_filter,
    ← List.countP_eq_length_filter]
  omega

theorem size_erase_le : (m.erase k).size ≤ m.size := List.length_filter_le _ _

theorem size_shrink_le (capacity : Nat) : (m.shrink capacity).size ≤ capacity := by
  show (shrinkEntries capacity m.entries).length ≤ capacity
  rw [shrinkEntries_eq_drop, List.length_drop]
  omega

theorem mem_of_mem_shrink {capacity : Nat} {e : Int × β} (h : e ∈ (m.shrink capacity).entries) :
    e ∈ m.entries := by
  have h' : e ∈ shrinkEntries capacity m.entries := h
  rw [shrinkEntries_eq_drop] at h'
  exact List.mem_of_mem_drop h'

/-- `shrink` removes the keys of `removedKeys` and keeps the others. -/
theorem mem_keys_shrink (capacity : Nat) (h : k ∈ m.keys) :
    k ∈ m.removedKeys capacity ∨ k ∈ (m.shrink capacity).keys := by
  have hkeys : (m.shrink capacity).keys = m.keys.drop (m.size - capacity) := by
    show (shrinkEntries capacity m.entries).map (·.1) = _
    rw [shrinkEntries_eq_drop, List.map_drop]
    rfl
  rw [hkeys]
  rw [← List.take_append_drop (m.size - capacity) m.keys] at h
  exact List.mem_append.mp h

@[simp] theorem find_empty : (empty : IntMap β).find k = none := rfl

theorem find_insert_self : (m.insert k v).find k = some v := by
  have hnone : (m.entries.filter fun e => e.1 < k).lookup k = none := by
    refine List.lookup_eq_none_iff.mpr fun e he => ?_
    have hlt : e.1 < k := by simpa using (List.mem_filter.mp he).2
    have hne : k ≠ e.1 := by omega
    simpa using hne
  show List.lookup k (m.entries.filter (fun e => e.1 < k) ++ _) = _
  rw [List.lookup_append, hnone, List.lookup_cons_self]
  rfl

theorem find_insert_of_ne {k' : Int} (h : k' ≠ k) : (m.insert k v).find k' = m.find k' := by
  ext v'
  rw [find_eq_some, find_eq_some]
  show (k', v') ∈ m.entries.filter (fun e => e.1 < k) ++ (k, v) :: m.entries.filter _ ↔ _
  simp only [List.mem_append, List.mem_cons, List.mem_filter, Prod.mk.injEq, h, false_and,
    false_or, decide_eq_true_eq]
  constructor
  · rintro (⟨hmem, _⟩ | ⟨hmem, _⟩) <;> exact hmem
  · intro hmem
    rcases Int.lt_or_lt_of_ne h with hlt | hlt
    · exact .inl ⟨hmem, hlt⟩
    · exact .inr ⟨hmem, hlt⟩

theorem find_update {p : Int → β → Bool} {f : β → β} :
    (m.update p f).find k = (m.find k).map fun v => if p k v then f v else v := by
  show List.lookup k (m.entries.map fun e => (e.1, if p e.1 e.2 then f e.2 else e.2)) =
    (List.lookup k m.entries).map _
  induction m.entries with
  | nil => rfl
  | cons e l ih =>
      rw [List.map_cons, List.lookup_cons, List.lookup_cons]
      by_cases hk : k = e.1
      · simp [hk]
      · simp only [beq_eq_false_iff_ne.mpr hk, ih]

theorem find_erase_self : (m.erase k).find k = none :=
  find_eq_none.mpr fun hk => (mem_keys_erase.mp hk).2 rfl

theorem find_erase_of_ne {k' : Int} (h : k' ≠ k) : (m.erase k).find k' = m.find k' := by
  ext v'
  rw [find_eq_some, find_eq_some, mem_erase]
  exact and_iff_left h

/-- Inserting the entries of one map into another: where both have a value, the
first one's is taken. -/
theorem find_foldl_insert (m' : IntMap β) :
    (m'.entries.foldl (fun m e => m.insert e.1 e.2) m).find k = (m'.find k).or (m.find k) := by
  have hsorted := m'.sorted
  unfold find
  generalize m'.entries = l at hsorted
  induction l generalizing m with
  | nil => rfl
  | cons e l ih =>
      obtain ⟨hfirst, hrest⟩ := List.pairwise_cons.mp hsorted
      rw [List.foldl_cons, ih hrest, List.lookup_cons]
      by_cases hk : k = e.1
      · subst hk
        have hnone : l.lookup e.1 = none := by
          refine List.lookup_eq_none_iff.mpr fun e' he' => ?_
          have hlt := hfirst e' he'
          have hne : e.1 ≠ e'.1 := by omega
          simpa using hne
        rw [hnone, beq_self_eq_true]
        exact find_insert_self
      · rw [beq_eq_false_iff_ne.mpr hk]
        exact congrArg (Option.or (l.lookup k)) (find_insert_of_ne hk)

/-- The keys of a map are those that have a value. -/
theorem mem_keys_iff : k ∈ m.keys ↔ (m.find k).isSome = true := by
  rw [← not_iff_not, ← find_eq_none, Option.not_isSome_iff_eq_none]

/-- Maps with values at the same keys have one list of keys. -/
theorem keys_congr {m' : IntMap β} (h : ∀ k, (m.find k).isSome = (m'.find k).isSome) :
    m.keys = m'.keys := by
  have hsorted : ∀ m : IntMap β, m.keys.Pairwise (· < ·) := fun m => List.pairwise_map.mpr m.sorted
  refine (hsorted m).eq_of_mem_iff (hsorted m') fun k => ?_
  rw [mem_keys_iff, mem_keys_iff, h k]

theorem eq_empty_of_entries (h : m.entries = []) : m = empty := by
  cases m
  cases h
  rfl

/-- Maps with the same values are the same. -/
theorem ext_find {m' : IntMap β} (h : ∀ k, m.find k = m'.find k) : m = m' := by
  have hmem : ∀ e, e ∈ m.entries ↔ e ∈ m'.entries := by
    intro e
    rw [← find_eq_some, ← find_eq_some, h e.1]
  have hnodup : ∀ m : IntMap β, m.entries.Nodup := fun m =>
    m.sorted.imp fun hlt heq => hlt.ne (congrArg Prod.fst heq)
  have hentries : m.entries = m'.entries :=
    ((List.perm_ext_iff_of_nodup (hnodup m) (hnodup m')).mpr hmem).eq_of_pairwise
      (fun a b _ _ hab hba => absurd hab hba.le.not_gt) m.sorted m'.sorted
  cases m
  cases m'
  cases hentries
  rfl

/-- An entry of a map is one of the youngest, or its key is among the smallest. -/
theorem mem_drop_or_removed {capacity : Nat} {e : Int × β} (h : e ∈ m.entries) :
    e ∈ m.entries.drop (m.size - capacity) ∨ e.1 ∈ m.removedKeys capacity := by
  rw [← List.take_append_drop (m.size - capacity) m.entries] at h
  rcases List.mem_append.mp h with htake | hdrop
  · right
    unfold removedKeys keys
    rw [← List.map_take]
    exact List.mem_map_of_mem htake
  · exact .inl hdrop

/-! ## Maps related value by value -/

section

variable {γ : Type} {R : β → γ → Prop} {m' : IntMap γ} {v' : γ}

/-- The maps have the same keys, and `R` relates the values at each key. -/
def Rel (R : β → γ → Prop) (m : IntMap β) (m' : IntMap γ) : Prop :=
  List.Forall₂ (fun a b => a.1 = b.1 ∧ R a.2 b.2) m.entries m'.entries

theorem Rel.empty : Rel R (empty : IntMap β) (empty : IntMap γ) := List.Forall₂.nil

theorem Rel.find (h : Rel R m m') (k : Int) : Option.Rel R (m.find k) (m'.find k) := by
  unfold IntMap.find
  unfold Rel at h
  generalize m.entries = l at h ⊢
  generalize m'.entries = l' at h ⊢
  induction h with
  | nil => exact .none
  | @cons a b _ _ hab _ ih =>
      obtain ⟨hkey, hvalue⟩ := hab
      rw [List.lookup_cons, List.lookup_cons, ← hkey]
      by_cases hk : k == a.1
      · rw [hk]
        exact .some hvalue
      · rw [(Bool.not_eq_true _).mp hk]
        exact ih

private theorem Rel.filter (h : Rel R m m') (p : Int → Bool) :
    List.Forall₂ (fun a b => a.1 = b.1 ∧ R a.2 b.2) (m.entries.filter fun e => p e.1)
      (m'.entries.filter fun e => p e.1) :=
  List.rel_filter (fun {a b} hab => by
    show p a.1 = true ↔ p b.1 = true
    rw [hab.1]) h

/-- Setting the same key keeps the relation exactly when the values are
related. -/
theorem Rel.insert_iff (h : Rel R m m') : Rel R (m.insert k v) (m'.insert k v') ↔ R v v' := by
  constructor
  · intro hrel
    have hfind := hrel.find k
    rw [find_insert_self, find_insert_self] at hfind
    cases hfind with
    | some hvalue => exact hvalue
  · intro hvalue
    exact List.rel_append (h.filter fun i => decide (i < k))
      (.cons ⟨rfl, hvalue⟩ (h.filter fun i => decide (k < i)))

end

end IntMap

end XYChat.Lib
