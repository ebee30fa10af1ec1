import Mathlib.Algebra.Order.Group.Unbundled.Basic
import Mathlib.Algebra.Order.Monoid.Defs
import Mathlib.Data.List.Basic

/-!
# Limits over a sliding window

A log of instants is limited when no window of the given width has more of them than
the limit. Who is to add an instant reserves a place first, at a moment at which the
instants of the window that ends then and the places reserved are below the limit.
Between the two, time may pass and others may reserve and add.

Where only the instants of one window are counted, and the next window begins when an
instant comes that is past it, a window that may begin anywhere has up to twice the
limit: it reaches over at most two of those that are counted.
-/

namespace XYChat.Lib

variable {α : Type} [AddCommGroup α] [LinearOrder α]

/-- The instants of the window that ends now. -/
def recent (width now : α) (ts : List α) : Nat := ts.countP fun t => decide (now - width ≤ t)

/-- The instants of the window that begins at `lo`. -/
def inWindow (width lo : α) (ts : List α) : Nat :=
  ts.countP fun t => decide (lo ≤ t) && decide (t ≤ lo + width)

/-- Later there are no more of them. -/
theorem recent_later [IsOrderedAddMonoid α] {width now now' : α} (hnow : now ≤ now') (ts : List α) :
    recent width now' ts ≤ recent width now ts := by
  refine List.countP_mono_left fun t _ ht => ?_
  exact decide_eq_true ((sub_le_sub_right hnow width).trans (of_decide_eq_true ht))

/-- The log is limited, and will be when the reserved places are taken. -/
structure Limited (limit : Nat) (width now : α) (ts : List α) (reserved : Nat) : Prop where
  past : ∀ t ∈ ts, t ≤ now
  windows : ∀ lo, inWindow width lo ts ≤ limit
  room : recent width now ts + reserved ≤ limit

namespace Limited

variable {limit reserved : Nat} {width now now' : α} {ts : List α}

theorem empty : Limited limit width now [] 0 where
  past _ h := nomatch h
  windows _ := Nat.zero_le _
  room := Nat.zero_le _

/-- Time passes. -/
theorem later [IsOrderedAddMonoid α] (h : Limited limit width now ts reserved) (hnow : now ≤ now') :
    Limited limit width now' ts reserved where
  past t ht := (h.past t ht).trans hnow
  windows := h.windows
  room := (Nat.add_le_add_right (recent_later hnow ts) _).trans h.room

/-- A place is reserved while there is room. -/
theorem reserve (h : Limited limit width now ts reserved)
    (hroom : recent width now ts + reserved < limit) :
    Limited limit width now ts (reserved + 1) :=
  ⟨h.past, h.windows, hroom⟩

/-- **A reserved place is taken.** A window that has the new instant in it ends now or
later, so what else is in it counted when the place was reserved. -/
theorem take [IsOrderedAddMonoid α] (h : Limited limit width now ts (reserved + 1))
    (hwidth : 0 ≤ width) :
    Limited limit width now (ts ++ [now]) reserved where
  past t ht := by
    rcases List.mem_append.mp ht with hold | hnew
    · exact h.past t hold
    · exact (List.mem_singleton.mp hnew).le
  windows lo := by
    unfold inWindow
    rw [List.countP_append]
    by_cases hlo : lo ≤ now ∧ now ≤ lo + width
    · have hcounted : inWindow width lo ts ≤ recent width now ts := by
        refine List.countP_mono_left fun t _ ht => ?_
        rw [Bool.and_eq_true, decide_eq_true_eq, decide_eq_true_eq] at ht
        exact decide_eq_true ((sub_le_iff_le_add.mpr hlo.2).trans ht.1)
      have hroom := h.room
      have hone := List.countP_le_length (l := [now])
        (p := fun t => decide (lo ≤ t) && decide (t ≤ lo + width))
      rw [List.length_singleton] at hone
      unfold inWindow at hcounted
      omega
    · have hnone : [now].countP (fun t => decide (lo ≤ t) && decide (t ≤ lo + width)) = 0 := by
        refine List.countP_eq_zero.mpr fun t ht => ?_
        rw [List.mem_singleton.mp ht, Bool.and_eq_true, decide_eq_true_eq, decide_eq_true_eq]
        exact hlo
      rw [hnone]
      exact h.windows lo
  room := by
    have hone : recent width now (ts ++ [now]) = recent width now ts + 1 := by
      unfold recent
      rw [List.countP_append, List.countP_singleton, if_pos (decide_eq_true (sub_le_self now hwidth))]
    rw [hone]
    have hroom := h.room
    omega

end Limited

/-! ## Windows one after another -/

/-- The instants of the half-open window that begins at `lo`. -/
def within (width lo : α) (ts : List α) : Nat :=
  ts.countP fun t => decide (lo ≤ t) && decide (t < lo + width)

theorem within_append {width lo : α} {ts ts' : List α} :
    within width lo (ts ++ ts') = within width lo ts + within width lo ts' :=
  List.countP_append

theorem within_le_length {width lo : α} {ts : List α} : within width lo ts ≤ ts.length :=
  List.countP_le_length

theorem within_eq_zero {width lo : α} {ts : List α} (h : ∀ t ∈ ts, lo ≤ t → lo + width ≤ t) :
    within width lo ts = 0 := by
  refine List.countP_eq_zero.mpr fun t ht => ?_
  simpa using fun hlo => h t ht hlo

/-- A log that is counted in windows one after another: `current` are the instants of
the window that begins at `start`, `old` those of the windows before. -/
structure Successive (limit : Nat) (width start : α) (old current : List α) : Prop where
  counted : current.length ≤ limit
  inside : ∀ t ∈ current, start ≤ t ∧ t < start + width
  before : ∀ t ∈ old, t < start
  windows : ∀ lo, within width lo old ≤ 2 * limit
  reaching : ∀ lo, start < lo + width → within width lo old ≤ limit

namespace Successive

variable {limit : Nat} {width start now : α} {old current : List α}

theorem empty : Successive limit width start [] [] where
  counted := Nat.zero_le _
  inside _ h := nomatch h
  before _ h := nomatch h
  windows _ := Nat.zero_le _
  reaching _ _ := Nat.zero_le _

/-- An instant is counted while there is room. -/
theorem add (h : Successive limit width start old current)
    (hnow : start ≤ now ∧ now < start + width) (hroom : current.length < limit) :
    Successive limit width start old (current ++ [now]) where
  counted := by
    rw [List.length_append, List.length_singleton]
    exact hroom
  inside t ht := by
    rcases List.mem_append.mp ht with hold | hnew
    · exact h.inside t hold
    · rwa [List.mem_singleton.mp hnew]
  before := h.before
  windows := h.windows
  reaching := h.reaching

/-- **Twice the limit.** A window that ends before the counted one begins has old
instants only; one that reaches into it has at most the limit of either. -/
theorem within_le (h : Successive limit width start old current) (lo : α) :
    within width lo (old ++ current) ≤ 2 * limit := by
  rw [within_append]
  by_cases hreach : start < lo + width
  · have hold := h.reaching lo hreach
    have hnew : within width lo current ≤ limit := within_le_length.trans h.counted
    omega
  · have hnone : within width lo current = 0 :=
      within_eq_zero fun t ht _ => (not_lt.mp hreach).trans (h.inside t ht).1
    rw [hnone]
    exact h.windows lo

/-- **The next window.** It begins at an instant that is past the present one: so what
reaches into it began after the present one did, and has none of the windows before. -/
theorem next [IsOrderedAddMonoid α] (h : Successive limit width start old current)
    (hnow : start + width ≤ now) (hwidth : 0 ≤ width) :
    Successive limit width now (old ++ current) [] where
  counted := Nat.zero_le _
  inside _ ht := nomatch ht
  before t ht := by
    rcases List.mem_append.mp ht with hold | hnew
    · exact (h.before t hold).trans_le ((le_add_of_nonneg_right hwidth).trans hnow)
    · exact (h.inside t hnew).2.trans_le hnow
  windows := h.within_le
  reaching lo hlo := by
    have hstart : start < lo := lt_of_add_lt_add_right (hnow.trans_lt hlo)
    have hnone : within width lo old = 0 :=
      within_eq_zero fun t ht hle => absurd (hle.trans_lt (h.before t ht)) hstart.asymm
    rw [within_append, hnone, Nat.zero_add]
    exact within_le_length.trans h.counted

/-- Who finds no room finds the limit reached by instants that are less than the width
away. -/
theorem held (h : Successive limit width start old current) (hfull : current.length = limit)
    (hnow : now - width < start) :
    limit ≤ (old ++ current).countP fun t => decide (now - width < t) := by
  have hall : current.countP (fun t => decide (now - width < t)) = current.length :=
    List.countP_eq_length.mpr fun t ht => decide_eq_true (hnow.trans_le (h.inside t ht).1)
  rw [List.countP_append, hall, hfull]
  exact Nat.le_add_left _ _

end Successive

end XYChat.Lib
