import Mathlib.Logic.Function.Basic
import XYChat.Lib.Prog

/-!
# Pools of programs

Workers that share a store: each has a local state and, while it is busy, the
rest of the program it runs, whose result is its next local state. One worker at
a time executes one statement. A pool is guarded by a ghost state for each
worker when every busy worker follows the protocol from its own.
-/

namespace XYChat.Lib

/-- One party of a pool: its local state, and what is left of its program. -/
structure Worker (σ κ : Type) where
  here : κ
  running : Option (Prog σ κ) := none

/-- The shared store and the workers. -/
structure Pool (σ κ : Type) where
  store : σ
  workers : Nat → Worker σ κ

namespace Pool

variable {σ κ τ : Type}

/-- Replace one worker. -/
def setWorker (p : Pool σ κ) (c : Nat) (w : Worker σ κ) : Pool σ κ :=
  { p with workers := Function.update p.workers c w }

/-- Worker `c` starts a program. -/
def start (p : Pool σ κ) (c : Nat) (prog : Prog σ κ) : Pool σ κ :=
  p.setWorker c { p.workers c with running := some prog }

/-- Worker `c` executes its next statement, or takes up the result of a program
that has ended. -/
def advance (p : Pool σ κ) (c : Nat) : Pool σ κ :=
  match (p.workers c).running with
  | none => p
  | some (.ret k) => p.setWorker c { here := k }
  | some (.stmt upd next) =>
      { p.setWorker c { p.workers c with running := some (next p.store) } with
        store := upd p.store }

@[simp] theorem store_setWorker (p : Pool σ κ) (c : Nat) (w : Worker σ κ) :
    (p.setWorker c w).store = p.store := rfl

@[simp] theorem workers_setWorker (p : Pool σ κ) (c : Nat) (w : Worker σ κ) :
    (p.setWorker c w).workers = Function.update p.workers c w := rfl

@[simp] theorem store_start (p : Pool σ κ) (c : Nat) (prog : Prog σ κ) :
    (p.start c prog).store = p.store := rfl

/-! ## Guarded pools -/

variable (P : Prog.Protocol σ τ) (Q : τ → κ → Prop)

/-- Every busy worker knows what its ghost state says and follows the protocol
from it. -/
def Guarded (g : Nat → τ) (p : Pool σ κ) : Prop :=
  ∀ c prog, (p.workers c).running = some prog → P.holds (g c) p.store ∧ prog.Follows P Q (g c)

/-- A statement of one worker leaves what each other worker knows true. -/
def Stable (g : Nat → τ) (c : Nat) (s s' : σ) : Prop :=
  ∀ c', c' ≠ c → P.holds (g c') s → P.holds (g c') s'

variable {P Q} {g : Nat → τ} {p : Pool σ κ} {c : Nat}

/-- A worker that starts a program needs a ghost state to start it from. -/
theorem Guarded.start {prog : Prog σ κ} {t : τ} (h : Guarded P Q g p) (ht : P.holds t p.store)
    (hprog : prog.Follows P Q t) : Guarded P Q (Function.update g c t) (p.start c prog) := by
  intro c' prog' hrunning
  by_cases hc : c' = c
  · subst hc
    simp only [Pool.start, workers_setWorker, Function.update_self, Option.some.injEq] at hrunning
    subst hrunning
    rw [Function.update_self]
    exact ⟨ht, hprog⟩
  · simp only [Pool.start, workers_setWorker, Function.update_of_ne hc] at hrunning
    rw [Function.update_of_ne hc]
    exact h c' prog' hrunning

/-- The store may change where what the workers know stays true. -/
theorem Guarded.setStore {s : σ} (h : Guarded P Q g p) (hs : ∀ t, P.holds t p.store → P.holds t s) :
    Guarded P Q g { p with store := s } := by
  intro c' prog' hrunning
  obtain ⟨hholds, hfollows⟩ := h c' prog' hrunning
  exact ⟨hs _ hholds, hfollows⟩

/-- A worker may always be replaced by an idle one. -/
theorem Guarded.setWorker {k : κ} (h : Guarded P Q g p) :
    Guarded P Q g (p.setWorker c { here := k }) := by
  intro c' prog' hrunning
  by_cases hc : c' = c
  · subst hc
    simp at hrunning
  · simp only [workers_setWorker, Function.update_of_ne hc] at hrunning
    exact h c' prog' hrunning

/-- What a worker follows does not depend on its local state. -/
theorem Guarded.setHere {k : κ} (h : Guarded P Q g p) :
    Guarded P Q g (p.setWorker c { p.workers c with here := k }) := by
  intro c' prog' hrunning
  by_cases hc : c' = c
  · subst hc
    simp only [workers_setWorker, Function.update_self] at hrunning
    exact h c' prog' hrunning
  · simp only [workers_setWorker, Function.update_of_ne hc] at hrunning
    exact h c' prog' hrunning

/-- What one worker does leaves the pool guarded when the others' knowledge is
stable under it. -/
theorem Guarded.step {upd : σ → σ} {next : σ → Prog σ κ} {t' : τ} (h : Guarded P Q g p)
    (hstable : Stable P g c p.store (upd p.store)) (ht : P.holds t' (upd p.store))
    (hnext : (next p.store).Follows P Q t') :
    Guarded P Q (Function.update g c t')
      { p.setWorker c { p.workers c with running := some (next p.store) } with
        store := upd p.store } := by
  intro c' prog' hrunning
  by_cases hc : c' = c
  · subst hc
    simp only [workers_setWorker, Function.update_self, Option.some.injEq] at hrunning
    subst hrunning
    rw [Function.update_self]
    exact ⟨ht, hnext⟩
  · simp only [workers_setWorker, Function.update_of_ne hc] at hrunning
    rw [Function.update_of_ne hc]
    obtain ⟨hholds, hfollows⟩ := h c' prog' hrunning
    exact ⟨hstable c' hc hholds, hfollows⟩

/-- **Worker rule.** Advancing a worker of a guarded pool either leaves the store
alone, or is a step the protocol allows from the worker's ghost state; the pool
stays guarded under the ghost state that step leaves. -/
theorem Guarded.advance (h : Guarded P Q g p)
    (hknown : ∀ t s s' t', P.holds t s → P.step t s s' t' → P.holds t' s')
    (hstable : ∀ s' t', P.step (g c) p.store s' t' → Stable P g c p.store s') :
    ((p.advance c).store = p.store ∧ Guarded P Q g (p.advance c)) ∨
      ∃ t', P.step (g c) p.store (p.advance c).store t' ∧
        Guarded P Q (Function.update g c t') (p.advance c) := by
  unfold Pool.advance
  cases hrunning : (p.workers c).running with
  | none => exact .inl ⟨rfl, h⟩
  | some prog =>
      cases prog with
      | ret k => exact .inl ⟨rfl, h.setWorker⟩
      | stmt upd next =>
          obtain ⟨hholds, hfollows⟩ := h c _ hrunning
          obtain ⟨t', hstep, hnext⟩ := Prog.follows_stmt.mp hfollows p.store hholds
          exact .inr ⟨t', hstep, h.step (hstable _ _ hstep) (hknown _ _ _ _ hholds hstep) hnext⟩

/-! ## What all statements of a pool have in common -/

section within

variable {R : σ → σ → Prop}

/-- Each statement that a busy worker has left to execute stays within `R`. -/
def Within (R : σ → σ → Prop) (p : Pool σ κ) : Prop :=
  ∀ c prog, (p.workers c).running = some prog → prog.Within R

theorem Within.setWorker {k : κ} (h : p.Within R) : (p.setWorker c { here := k }).Within R := by
  intro c' prog hrunning
  by_cases hc : c' = c
  · subst hc
    simp at hrunning
  · simp only [workers_setWorker, Function.update_of_ne hc] at hrunning
    exact h c' prog hrunning

theorem Within.start {prog : Prog σ κ} (h : p.Within R) (hprog : prog.Within R) :
    (p.start c prog).Within R := by
  intro c' prog' hrunning
  by_cases hc : c' = c
  · subst hc
    simp only [Pool.start, workers_setWorker, Function.update_self, Option.some.injEq] at hrunning
    subst hrunning
    exact hprog
  · simp only [Pool.start, workers_setWorker, Function.update_of_ne hc] at hrunning
    exact h c' prog' hrunning

/-- What one worker executes stays within `R`, and so does what is left. -/
theorem Within.advance (h : p.Within R) :
    ((p.advance c).store = p.store ∨ R p.store (p.advance c).store) ∧ (p.advance c).Within R := by
  unfold Pool.advance
  cases hrunning : (p.workers c).running with
  | none => exact ⟨.inl rfl, h⟩
  | some prog =>
      cases prog with
      | ret k => exact ⟨.inl rfl, h.setWorker⟩
      | stmt upd next =>
          obtain ⟨hstep, hnext⟩ := Prog.within_stmt.mp (h c _ hrunning) p.store
          refine ⟨.inr hstep, fun c' prog' hrunning' => ?_⟩
          by_cases hc : c' = c
          · subst hc
            simp only [workers_setWorker, Function.update_self, Option.some.injEq] at hrunning'
            subst hrunning'
            exact hnext
          · simp only [workers_setWorker, Function.update_of_ne hc] at hrunning'
            exact h c' prog' hrunning'

end within

end Pool

end XYChat.Lib
