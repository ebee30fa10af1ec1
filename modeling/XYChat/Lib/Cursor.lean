import XYChat.Lib.Table

/-!
# Logs read by a cursor

A log is a list of rows in ascending order of their keys. A reader asks for the
rows after its cursor, a page at a time, and moves the cursor to the last key it
was given: the pages it gets are the rows between where it started and where it
is. A reader that has something to do for each row may move its cursor past a row
only when that is done.
-/

namespace XYChat.Lib

namespace Cursor

variable {ρ : Type} [Keyed ρ]

/-- The rows after a key. -/
def after (a : Int) (log : List ρ) : List ρ := log.filter fun r => a < key r

/-- The rows after `a` and up to `b`. -/
def window (a b : Int) (log : List ρ) : List ρ := log.filter fun r => a < key r && key r ≤ b

/-- Where a reader at `a` stands after a page. -/
def moved (a : Int) (page : List ρ) : Int := (page.getLast?.map key).getD a

/-- The rows are in ascending order of their keys. -/
abbrev Ascending (log : List ρ) : Prop := log.Pairwise fun r r' => key r < key r'

variable {log : List ρ} {a b c : Int}

@[simp] theorem mem_after {r : ρ} : r ∈ after a log ↔ r ∈ log ∧ a < key r := by
  simp [after]

@[simp] theorem mem_window {r : ρ} : r ∈ window a b log ↔ r ∈ log ∧ a < key r ∧ key r ≤ b := by
  simp [window]

theorem window_eq_nil (h : b ≤ a) : window a b log = [] := by
  refine List.filter_eq_nil_iff.mpr fun r _ => ?_
  simp
  omega

/-- A new row beyond the window does not change it. -/
theorem window_append_of_lt {r : ρ} (h : a < b → b < key r) :
    window a b (log ++ [r]) = window a b log := by
  have hout : (decide (a < key r) && decide (key r ≤ b)) = false := by
    by_cases hab : a < b
    · have hr := h hab
      simp
      omega
    · simp
      omega
  simp [window, hout]

/-- Two windows side by side are one. -/
theorem window_append_window (hlog : Ascending log) (hab : a ≤ b) (hbc : b ≤ c) :
    window a b log ++ window b c log = window a c log := by
  induction log with
  | nil => rfl
  | cons r log ih =>
      obtain ⟨hfirst, hrest⟩ := List.pairwise_cons.mp hlog
      have hwindow := ih hrest
      unfold window at hwindow ⊢
      by_cases hlow : a < key r ∧ key r ≤ b
      · simp only [List.filter_cons]
        rw [if_pos (by simpa using hlow), if_neg (by simp; omega), if_pos (by simp; omega),
          List.cons_append, hwindow]
      · by_cases hhigh : b < key r ∧ key r ≤ c
        · -- the rows before it are the ones of the first window: there are none
          have hnone : log.filter (fun r => decide (a < key r) && decide (key r ≤ b)) = [] := by
            refine List.filter_eq_nil_iff.mpr fun r' hr' => ?_
            have hlt := hfirst r' hr'
            simp
            omega
          rw [hnone, List.nil_append] at hwindow
          simp only [List.filter_cons]
          rw [if_neg (by simpa using hlow), if_pos (by simpa using hhigh), if_pos (by simp; omega),
            hnone, List.nil_append, hwindow]
        · simp only [List.filter_cons]
          rw [if_neg (by simpa using hlow), if_neg (by simpa using hhigh), if_neg (by simp; omega),
            hwindow]

/-- The reader stands at the last key of the page. -/
theorem key_le_moved {page : List ρ} (hpage : Ascending page) {r : ρ} (hr : r ∈ page) :
    key r ≤ moved a page := by
  unfold moved
  cases hlast : page.getLast? with
  | none =>
      rw [List.getLast?_eq_none_iff.mp hlast] at hr
      cases hr
  | some last =>
      have hsplit := List.dropLast_append_getLast? last hlast
      rw [← hsplit] at hpage hr
      obtain ⟨_, _, hbefore⟩ := List.pairwise_append.mp hpage
      rcases List.mem_append.mp hr with hr | hr
      · exact Int.le_of_lt (hbefore r hr last List.mem_cons_self)
      · rw [List.mem_singleton.mp hr]
        exact Int.le_refl _

/-- Logs that agree after a key agree after a later one. -/
theorem after_congr {log' : List ρ} (h : after a log = after a log') (hab : a ≤ b) :
    after b log = after b log' := by
  have hafter : ∀ l : List ρ, after b l = (after a l).filter fun r => b < key r := by
    intro l
    unfold after
    rw [List.filter_filter]
    refine List.filter_congr fun r _ => ?_
    by_cases hr : b < key r
    · have hlow : a < key r := by omega
      simp [hr, hlow]
    · simp [hr]
  rw [hafter, hafter, h]

/-- A window and what follows it. -/
theorem window_append_after (hlog : Ascending log) (hab : a ≤ b) :
    window a b log ++ after b log = after a log := by
  cases hlast : log.getLast? with
  | none =>
      rw [List.getLast?_eq_none_iff.mp hlast]
      rfl
  | some last =>
      -- up to a bound above every key, what follows is a window too
      have hafter : ∀ c, after c log = window c (max b (key last)) log := by
        intro c
        refine List.filter_congr fun r hr => ?_
        have hle : key r ≤ key last := by
          have hmoved := key_le_moved (a := 0) hlog hr
          unfold moved at hmoved
          rwa [hlast] at hmoved
        have hmax : key r ≤ max b (key last) := by omega
        simp [hmax]
      rw [hafter b, hafter a]
      exact window_append_window hlog hab (by omega)

/-- A page lets the reader only forward. -/
theorem le_moved {page : List ρ} (h : ∀ r ∈ page, a < key r) : a ≤ moved a page := by
  unfold moved
  cases hlast : page.getLast? with
  | none => exact Int.le_refl a
  | some r =>
      have hr := h r (List.mem_of_getLast? hlast)
      simpa using Int.le_of_lt hr

/-- **A page is a window:** the first rows after the cursor are those up to where
the reader moves. -/
theorem take_after_eq_window (hlog : Ascending log) (n : Nat) :
    (after a log).take n = window a (moved a ((after a log).take n)) log := by
  have hafter : Ascending (after a log) := List.Pairwise.filter _ hlog
  have hwindow : window a (moved a ((after a log).take n)) log =
      (after a log).filter fun r => key r ≤ moved a ((after a log).take n) := by
    unfold window after
    rw [List.filter_filter]
    exact List.filter_congr fun r _ => by rw [Bool.and_comm]
  rw [hwindow]
  have hpos : ∀ r ∈ after a log, a < key r := fun r hr => (mem_after.mp hr).2
  generalize after a log = rows at hafter hpos ⊢
  clear hwindow
  have hsplit := List.take_append_drop n rows
  conv => rhs; rw [← hsplit]
  rw [← hsplit] at hafter
  obtain ⟨htake, _, hcross⟩ := List.pairwise_append.mp hafter
  rw [List.filter_append, List.take_append_drop]
  have hpage : (rows.take n).filter (fun r => key r ≤ moved a (rows.take n)) = rows.take n := by
    refine List.filter_eq_self.mpr fun r hr => ?_
    simpa using key_le_moved htake hr
  have hrest : (rows.drop n).filter (fun r => key r ≤ moved a (rows.take n)) = [] := by
    refine List.filter_eq_nil_iff.mpr fun r hr => ?_
    have hbeyond : moved a (rows.take n) < key r := by
      unfold moved
      cases hlast : (rows.take n).getLast? with
      | none => exact hpos r (List.mem_of_mem_drop hr)
      | some last => exact hcross last (List.mem_of_getLast? hlast) r hr
    simpa using hbeyond
  rw [hpage, hrest, List.append_nil]

/-! ## What the reader does with the rows -/

/-- A row that was handed out, and whether what it calls for was done. -/
structure Delivery (ρ : Type) where
  row : ρ
  done : Bool

/-- One of the times the row was handed out it was done. -/
def Settled (log : List (Delivery ρ)) (r : ρ) : Prop := ∃ d ∈ log, d.row = r ∧ d.done = true

/-- Nothing the cursor has passed was left undone. -/
def Sound (c : Int) (log : List (Delivery ρ)) : Prop :=
  ∀ d ∈ log, key d.row ≤ c → Settled log d.row

variable {log' : List (Delivery ρ)} {batch : List (Delivery ρ)}

omit [Keyed ρ] in
theorem settled_append {r : ρ} :
    Settled (log' ++ batch) r ↔ Settled log' r ∨ Settled batch r := by
  unfold Settled
  constructor
  · rintro ⟨d, hd, hrow⟩
    rcases List.mem_append.mp hd with hd | hd
    · exact .inl ⟨d, hd, hrow⟩
    · exact .inr ⟨d, hd, hrow⟩
  · rintro (⟨d, hd, hrow⟩ | ⟨d, hd, hrow⟩)
    · exact ⟨d, List.mem_append_left _ hd, hrow⟩
    · exact ⟨d, List.mem_append_right _ hd, hrow⟩

/-- **A batch and a move** keep the reader sound exactly when every row of the
batch, and every row handed out beyond the old cursor, that the new one passes is
done by then. -/
theorem sound_append_iff (h : Sound a log') :
    Sound b (log' ++ batch) ↔
      (∀ d ∈ batch, key d.row ≤ b → Settled log' d.row ∨ Settled batch d.row) ∧
        ∀ d ∈ log', a < key d.row → key d.row ≤ b → Settled log' d.row ∨ Settled batch d.row := by
  constructor
  · intro hsound
    refine ⟨fun d hd hle => ?_, fun d hd _ hle => ?_⟩
    · exact settled_append.mp (hsound d (List.mem_append_right _ hd) hle)
    · exact settled_append.mp (hsound d (List.mem_append_left _ hd) hle)
  · rintro ⟨hbatch, hlog⟩ d hd hle
    refine settled_append.mpr ?_
    rcases List.mem_append.mp hd with hd | hd
    · by_cases hpassed : key d.row ≤ a
      · exact .inl (h d hd hpassed)
      · exact hlog d hd (by omega) hle
    · exact hbatch d hd hle

end Cursor

end XYChat.Lib
