import XYChat.Lib.Machine

/-!
# Mailboxes

A receiver takes up the messages posted to it in the order they were posted,
each by one step of a machine of its own. What the receiver will have become
when it has caught up depends on what was posted alone, not on how far it is.
-/

namespace XYChat.Lib

/-- A receiver's state and the messages that wait for it. `posted` is history:
every message there ever was. -/
structure Mailbox (σ μ : Type) where
  state : σ
  queue : List μ := []
  posted : List μ := []

namespace Mailbox

variable {σ μ : Type} (M : Machine σ μ)

def post (m : Mailbox σ μ) (x : μ) : Mailbox σ μ :=
  { m with queue := m.queue ++ [x], posted := m.posted ++ [x] }

/-- Take up the next message. -/
def take (m : Mailbox σ μ) : Mailbox σ μ :=
  match m.queue with
  | [] => m
  | x :: rest => { m with state := M.step m.state x, queue := rest }

/-- The receiver's state when it has caught up. -/
def settled (m : Mailbox σ μ) : σ := M.run m.state m.queue

/-- The receiver started in `s₀` and has taken up all but its queue. -/
def Sound (s₀ : σ) (m : Mailbox σ μ) : Prop :=
  ∃ taken, m.posted = taken ++ m.queue ∧ m.state = M.run s₀ taken

@[simp] theorem posted_post (m : Mailbox σ μ) (x : μ) : (m.post x).posted = m.posted ++ [x] := rfl

@[simp] theorem posted_take (m : Mailbox σ μ) : (m.take M).posted = m.posted := by
  unfold take
  split <;> rfl

variable {M} {s₀ : σ} {m : Mailbox σ μ}

theorem sound_start (s₀ : σ) : Sound M s₀ { state := s₀ } := ⟨[], rfl, rfl⟩

theorem Sound.post (h : Sound M s₀ m) (x : μ) : Sound M s₀ (m.post x) := by
  obtain ⟨taken, hposted, hstate⟩ := h
  refine ⟨taken, ?_, hstate⟩
  simp [Mailbox.post, hposted]

theorem Sound.take (h : Sound M s₀ m) : Sound M s₀ (m.take M) := by
  obtain ⟨taken, hposted, hstate⟩ := h
  unfold Mailbox.take
  split
  · exact ⟨taken, hposted, hstate⟩
  · rename_i x rest hqueue
    refine ⟨taken ++ [x], ?_, ?_⟩
    · simp [hposted, hqueue]
    · show M.step m.state x = M.run s₀ (taken ++ [x])
      rw [Machine.run_append, ← hstate]
      rfl

/-- **Catching up.** What the receiver will have become is the run of what was
posted. -/
theorem Sound.settled_eq (h : Sound M s₀ m) : m.settled M = M.run s₀ m.posted := by
  obtain ⟨taken, hposted, hstate⟩ := h
  rw [hposted, Machine.run_append, ← hstate]
  rfl

/-- A receiver with nothing to take up has caught up. -/
theorem Sound.state_eq (h : Sound M s₀ m) (hqueue : m.queue = []) : m.state = M.run s₀ m.posted := by
  rw [← h.settled_eq]
  simp [settled, hqueue]

end Mailbox

end XYChat.Lib
