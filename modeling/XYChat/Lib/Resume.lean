import Mathlib.Data.List.Basic

/-!
# Scripts that are started over

A script is a list of commands, each of which changes the state or fails. One that was
cut is started over from the beginning, so the commands that were done are run again;
where they change nothing then, the script ends as if it had never been cut.
-/

namespace XYChat.Lib.Resume

variable {σ κ : Type} (exec : κ → σ → Option σ)

/-- The commands one after the other, as long as none fails. -/
def runAll : List κ → σ → Option σ
  | [], s => some s
  | c :: cs, s => (exec c s).bind (runAll cs)

/-- Run again, the command changes nothing. -/
def Settled (c : κ) (s : σ) : Prop := exec c s = some s

/-- Once done, a command stays done, whatever is run after it. -/
structure Lasting (cs : List κ) : Prop where
  done : ∀ c ∈ cs, ∀ s s', exec c s = some s' → Settled exec c s'
  kept : cs.Pairwise fun c d => ∀ s s', Settled exec c s → exec d s = some s' → Settled exec c s'

variable {exec} {before after cs : List κ} {c : κ} {s s' : σ}

@[simp] theorem runAll_nil : runAll exec [] s = some s := rfl

@[simp] theorem runAll_cons : runAll exec (c :: cs) s = (exec c s).bind (runAll exec cs) := rfl

@[simp] theorem runAll_append :
    runAll exec (before ++ after) s = (runAll exec before s).bind (runAll exec after) := by
  induction before generalizing s with
  | nil => rfl
  | cons c before ih =>
      simp only [List.cons_append, runAll_cons]
      cases exec c s with
      | none => rfl
      | some s' => exact ih

theorem runAll_of_settled (h : ∀ c ∈ cs, Settled exec c s) : runAll exec cs s = some s := by
  induction cs with
  | nil => rfl
  | cons c cs ih =>
      obtain ⟨hc, hcs⟩ := List.forall_mem_cons.mp h
      rw [runAll_cons, show exec c s = some s from hc]
      exact ih hcs

/-- What every later command keeps settled stays so. -/
theorem Settled.runAll (h : Settled exec c s)
    (hkept : ∀ d ∈ cs, ∀ s s', Settled exec c s → exec d s = some s' → Settled exec c s')
    (hrun : runAll exec cs s = some s') : Settled exec c s' := by
  induction cs generalizing s with
  | nil =>
      rw [← Option.some.inj hrun]
      exact h
  | cons d cs ih =>
      obtain ⟨hd, hcs⟩ := List.forall_mem_cons.mp hkept
      obtain ⟨s₁, hexec, hrest⟩ := Option.bind_eq_some_iff.mp hrun
      exact ih (hd s s₁ h hexec) hcs hrest

theorem Lasting.settled (h : Lasting exec cs) (hrun : runAll exec cs s = some s') :
    ∀ c ∈ cs, Settled exec c s' := by
  induction cs generalizing s with
  | nil => simp
  | cons c cs ih =>
      obtain ⟨hkept, hpairs⟩ := List.pairwise_cons.mp h.kept
      obtain ⟨s₁, hexec, hrest⟩ := Option.bind_eq_some_iff.mp hrun
      refine List.forall_mem_cons.mpr ⟨?_, ?_⟩
      · exact (h.done c List.mem_cons_self s s₁ hexec).runAll hkept hrest
      · exact ih ⟨fun d hd => h.done d (List.mem_cons_of_mem c hd), hpairs⟩ hrest

/-- **Starting over** after the first commands ends as the script would have. -/
theorem Lasting.startOver (h : Lasting exec before) (hcut : runAll exec before s = some s') :
    runAll exec (before ++ after) s' = runAll exec (before ++ after) s := by
  rw [runAll_append, runAll_append, runAll_of_settled (h.settled hcut), hcut]

/-- The same commands but the last ones last, too. -/
theorem Lasting.take (h : Lasting exec cs) (n : Nat) : Lasting exec (cs.take n) :=
  ⟨fun c hc => h.done c (List.mem_of_mem_take hc), h.kept.sublist (List.take_sublist n cs)⟩

end XYChat.Lib.Resume
