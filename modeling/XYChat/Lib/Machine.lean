import Mathlib.Data.List.Infix

/-!
# Labelled machines and their runs

A machine takes one labelled step at a time and is total: a label that is not
enabled in a state leaves the state as it is. Interleavings are runs whose
labels say which party moves. Every safety argument of the development is one
of the run rules of this file applied to a step lemma.
-/

namespace XYChat.Lib

universe u v

/-- A machine over states `σ` and labels `ι`: its initial states and the state
each label leads to. -/
structure Machine (σ : Type u) (ι : Type v) where
  init : σ → Prop
  step : σ → ι → σ

namespace Machine

variable {σ : Type u} {ι : Type v} (M : Machine σ ι)

/-- The state after the labels of `ops`, first label first. -/
def run (s : σ) (ops : List ι) : σ := ops.foldl M.step s

@[simp] theorem run_nil (s : σ) : M.run s [] = s := rfl

@[simp] theorem run_cons (s : σ) (op : ι) (ops : List ι) :
    M.run s (op :: ops) = M.run (M.step s op) ops := rfl

theorem run_append (s : σ) (ops ops' : List ι) :
    M.run s (ops ++ ops') = M.run (M.run s ops) ops' :=
  List.foldl_append

/-- The states an initial state can be driven to. -/
def Reachable (s : σ) : Prop := ∃ s₀ ops, M.init s₀ ∧ M.run s₀ ops = s

/-- Each step of the run meets `P`, read at the state the step starts from. -/
def Along (P : σ → ι → Prop) : σ → List ι → Prop
  | _, [] => True
  | s, op :: ops => P s op ∧ Along P (M.step s op) ops

instance decidableAlong (P : σ → ι → Prop) [∀ s op, Decidable (P s op)] :
    ∀ s ops, Decidable (M.Along P s ops)
  | _, [] => isTrue trivial
  | s, op :: ops =>
      have := decidableAlong P (M.step s op) ops
      inferInstanceAs (Decidable (P s op ∧ M.Along P (M.step s op) ops))

/-- `Q` holds in each state of the run, the first and the last included. -/
def Always (Q : σ → Prop) : σ → List ι → Prop
  | s, [] => Q s
  | s, op :: ops => Q s ∧ Always Q (M.step s op) ops

variable {M}

theorem along_append {P : σ → ι → Prop} {s : σ} {ops ops' : List ι} :
    M.Along P s (ops ++ ops') ↔ M.Along P s ops ∧ M.Along P (M.run s ops) ops' := by
  induction ops generalizing s with
  | nil => exact ⟨fun h => ⟨trivial, h⟩, fun h => h.2⟩
  | cons op ops ih => exact (and_congr_right fun _ => ih).trans and_assoc.symm

/-- Conditions that agree on every step agree on every run. -/
theorem along_congr {P P' : σ → ι → Prop} (h : ∀ s op, P s op ↔ P' s op) {s : σ}
    {ops : List ι} : M.Along P s ops ↔ M.Along P' s ops := by
  induction ops generalizing s with
  | nil => exact Iff.rfl
  | cons op ops ih => exact and_congr (h s op) ih

theorem along_of_forall {P : σ → ι → Prop} {s : σ} {ops : List ι}
    (h : ∀ op ∈ ops, ∀ s, P s op) : M.Along P s ops := by
  induction ops generalizing s with
  | nil => trivial
  | cons op ops ih =>
      exact ⟨h op List.mem_cons_self s, ih fun op' hop' => h op' (List.mem_cons_of_mem _ hop')⟩

/-- Each step of a run is as an inductive predicate has it. -/
theorem along_of_step {P : σ → ι → Prop} {Q : σ → Prop} (hstep : ∀ s op, Q s → Q (M.step s op))
    (hP : ∀ s op, Q s → P s op) {s : σ} {ops : List ι} (hs : Q s) : M.Along P s ops := by
  induction ops generalizing s with
  | nil => trivial
  | cons op ops ih => exact ⟨hP s op hs, ih (hstep s op hs)⟩

/-- Where a predicate is kept by the steps that meet `P`, and these are then as `P'` has
it, so is each step of a run whose steps meet `P`. -/
theorem along_of_along {P P' : σ → ι → Prop} {Q : σ → Prop}
    (hstep : ∀ s op, Q s → P s op → P' s op ∧ Q (M.step s op)) {s : σ} {ops : List ι} (hs : Q s)
    (h : M.Along P s ops) : M.Along P' s ops := by
  induction ops generalizing s with
  | nil => trivial
  | cons op ops ih =>
      obtain ⟨hop, hnext⟩ := hstep s op hs h.1
      exact ⟨hop, ih hnext h.2⟩

theorem Always.head {Q : σ → Prop} {s : σ} {ops : List ι} (h : M.Always Q s ops) : Q s := by
  cases ops with
  | nil => exact h
  | cons op ops => exact h.1

/-- `Always` speaks about the states after the prefixes of the run. -/
theorem always_iff_prefixes {Q : σ → Prop} {s : σ} {ops : List ι} :
    M.Always Q s ops ↔ ∀ pre, pre <+: ops → Q (M.run s pre) := by
  induction ops generalizing s with
  | nil =>
      constructor
      · intro h pre hpre
        rw [List.prefix_nil.mp hpre]
        exact h
      · intro h
        exact h [] (List.prefix_refl _)
  | cons op ops ih =>
      constructor
      · rintro ⟨hs, hrest⟩ pre hpre
        cases pre with
        | nil => exact hs
        | cons op' pre =>
            obtain ⟨rfl, htail⟩ := List.cons_prefix_cons.mp hpre
            exact ih.mp hrest pre htail
      · intro h
        refine ⟨h [] ⟨_, rfl⟩, ih.mpr fun pre hpre => ?_⟩
        exact h (op :: pre) (List.cons_prefix_cons.mpr ⟨rfl, hpre⟩)

theorem Always.mono {Q Q' : σ → Prop} (hQ : ∀ s, Q s → Q' s) {s : σ} {ops : List ι}
    (h : M.Always Q s ops) : M.Always Q' s ops :=
  always_iff_prefixes.mpr fun pre hpre => hQ _ (always_iff_prefixes.mp h pre hpre)

theorem Always.last {Q : σ → Prop} {s : σ} {ops : List ι} (h : M.Always Q s ops) :
    Q (M.run s ops) :=
  always_iff_prefixes.mp h ops (List.prefix_refl _)

/-- **Run rule.** What each step that meets `P` preserves holds in each state
of a run all of whose steps meet `P`. -/
theorem always_of_along {P : σ → ι → Prop} {Q : σ → Prop}
    (hstep : ∀ s op, Q s → P s op → Q (M.step s op)) {s : σ} {ops : List ι}
    (hs : Q s) (h : M.Along P s ops) : M.Always Q s ops := by
  induction ops generalizing s with
  | nil => exact hs
  | cons op ops ih => exact ⟨hs, ih (hstep s op hs h.1) h.2⟩

/-- The run rule for what every step preserves. -/
theorem always_of_step {Q : σ → Prop} (hstep : ∀ s op, Q s → Q (M.step s op))
    {s : σ} (hs : Q s) (ops : List ι) : M.Always Q s ops := by
  induction ops generalizing s with
  | nil => exact hs
  | cons op ops ih => exact ⟨hs, ih (hstep s op hs)⟩

theorem run_of_step {Q : σ → Prop} (hstep : ∀ s op, Q s → Q (M.step s op))
    {s : σ} (hs : Q s) (ops : List ι) : Q (M.run s ops) :=
  (always_of_step hstep hs ops).last

/-- An inductive predicate holds in every reachable state. -/
theorem Reachable.of_step {Q : σ → Prop} (hinit : ∀ s, M.init s → Q s)
    (hstep : ∀ s op, Q s → Q (M.step s op)) {s : σ} (h : M.Reachable s) : Q s := by
  obtain ⟨s₀, ops, h₀, rfl⟩ := h
  exact run_of_step hstep (hinit s₀ h₀) ops

/-- **Exact run rule.** Where `W` is preserved by every step and, in states with
`W` and `Q`, a step keeps `Q` exactly when it meets `P`, a run keeps `Q`
throughout exactly when each of its steps meets `P`. -/
theorem always_iff_along {P : σ → ι → Prop} {Q W : σ → Prop}
    (hW : ∀ s op, W s → W (M.step s op))
    (hstep : ∀ s op, W s → Q s → (Q (M.step s op) ↔ P s op))
    {s : σ} {ops : List ι} (hw : W s) (hs : Q s) :
    M.Always Q s ops ↔ M.Along P s ops := by
  induction ops generalizing s with
  | nil => exact ⟨fun _ => trivial, fun _ => hs⟩
  | cons op ops ih =>
      constructor
      · rintro ⟨_, hrest⟩
        exact ⟨(hstep s op hw hs).mp hrest.head,
          (ih (hW s op hw) hrest.head).mp hrest⟩
      · rintro ⟨hop, hrest⟩
        have hs' := (hstep s op hw hs).mpr hop
        exact ⟨hs, (ih (hW s op hw) hs').mpr hrest⟩

end Machine

end XYChat.Lib
