import XYChat.Common.Crypto
import XYChat.Lib.Durable

/-!
# Writing a file in place of another

`writeFileAtomic` of KeyStorage.cpp call by call: every call to the file system may
fail, and the process may end after any of them. The new content goes to a temporary
file first. But the old file is removed before the temporary one is renamed, and what
`close` does not get to the disk is never noticed: the function keeps its promise
exactly where no harm comes of the two.
-/

namespace XYChat.Client.AtomicWrite

open Lib

/-! ## The file system -/

/-- The file at `path`, the one at `path + ".tmp"`, and what was written to the latter
and is not on the disk yet. -/
structure Files where
  target : Option Bytes := none
  tmp : Option Bytes := none
  buffer : Bytes := []
  deriving DecidableEq

/-- The calls of `writeFileAtomic`. -/
inductive FileCall where
  | mkpath
  | openTmp
  | writeTmp (data : Bytes)
  | closeTmp
  | existsTarget
  | removeTarget
  | renameTmp
  | removeTmp
  deriving DecidableEq

/-- How a call comes out: whether it works, and how many bytes a write or a flush that
does not has done. -/
structure CallOutcome where
  works : Bool := true
  bytes : Nat := 0
  deriving DecidableEq

/-- The bytes that are done. -/
def CallOutcome.done (o : CallOutcome) (data : Bytes) : Bytes :=
  if o.works then data else data.take o.bytes

/-- The files after a call and what it returns. `QFile` writes to a buffer, and its
`close` flushes it and says nothing of errors. `QFile::rename` does not replace a file;
the temporary file is in the directory of the target, where renaming is one step. -/
def FileCall.apply (o : CallOutcome) (files : Files) : FileCall → Files × Bool
  | .mkpath => (files, o.works)
  | .openTmp => if o.works then ({ files with tmp := some [], buffer := [] }, true) else (files, false)
  | .writeTmp data => ({ files with buffer := o.done data }, o.works)
  | .closeTmp => ({ files with tmp := files.tmp.map (· ++ o.done files.buffer), buffer := [] }, true)
  | .existsTarget => (files, o.works && files.target.isSome)
  | .removeTarget => if o.works then ({ files with target := none }, true) else (files, false)
  | .renameTmp =>
      if o.works && files.target.isNone then ({ files with target := files.tmp, tmp := none }, true)
      else (files, false)
  | .removeTmp => if o.works then ({ files with tmp := none }, true) else (files, false)

def fileMedium : Medium Files FileCall CallOutcome where
  write call o files := call.apply o files
  enter files := files

section

variable (o : CallOutcome) (files : Files)

@[simp] theorem write_mkpath : fileMedium.write .mkpath o files = (files, o.works) := rfl

@[simp] theorem write_openTmp : fileMedium.write .openTmp o files =
    if o.works then ({ files with tmp := some [], buffer := [] }, true) else (files, false) := rfl

@[simp] theorem write_writeTmp (data : Bytes) : fileMedium.write (.writeTmp data) o files =
    ({ files with buffer := o.done data }, o.works) := rfl

@[simp] theorem write_closeTmp : fileMedium.write .closeTmp o files =
    ({ files with tmp := files.tmp.map (· ++ o.done files.buffer), buffer := [] }, true) := rfl

@[simp] theorem write_existsTarget : fileMedium.write .existsTarget o files =
    (files, o.works && files.target.isSome) := rfl

@[simp] theorem write_removeTarget : fileMedium.write .removeTarget o files =
    if o.works then ({ files with target := none }, true) else (files, false) := rfl

@[simp] theorem write_renameTmp : fileMedium.write .renameTmp o files =
    if o.works && files.target.isNone then ({ files with target := files.tmp, tmp := none }, true)
    else (files, false) := rfl

@[simp] theorem write_removeTmp : fileMedium.write .removeTmp o files =
    if o.works then ({ files with tmp := none }, true) else (files, false) := rfl

end

abbrev FileJob := Job Files FileCall

/-- The ends of `writeFileAtomic` that return `false`. -/
def discardTmp : FileJob Bool := do
  let _ ← .perform .removeTmp
  return false

def renameTmp : FileJob Bool := do
  if ← .perform .renameTmp then return true
  else discardTmp

/-- The temporary file takes the place of the target, which is removed first. -/
def replaceTarget : FileJob Bool := do
  if ← .perform .existsTarget then
    let _ ← .perform .removeTarget
    renameTmp
  else renameTmp

/-- `writeFileAtomic`. -/
def writeFileAtomic (data : Bytes) : FileJob Bool := do
  let _ ← .perform .mkpath
  if ← .perform .openTmp then
    let written ← .perform (.writeTmp data)
    let _ ← .perform .closeTmp
    if written then replaceTarget else discardTmp
  else return false

/-! ## The promise -/

/-- How the calls come out, and after which of them the process ends. -/
structure Faults where
  outcome : FileCall → CallOutcome := fun _ => {}
  ends : FileCall → Bool := fun _ => false

/-- What is left of a run under the faults: the result, if it came to one, and the
files. -/
def Faults.run {α : Type} (faults : Faults) (job : FileJob α) (files : Files) : Option α × Files :=
  job.runUntil fileMedium faults.outcome faults.ends files

/-- What is left is the old content or the new, and the old where `false` was
returned. -/
def Safe (old : Option Bytes) (data : Bytes) (r : Option Bool × Files) : Prop :=
  (r.2.target = old ∨ r.2.target = some data) ∧ (r.1 = some false → r.2.target = old)

def CrashSafe (faults : Faults) (data : Bytes) (files : Files) : Prop :=
  Safe files.target data (faults.run (writeFileAtomic data) files)

/-- The temporary file is written, as far as the function can tell, and the process
gets as far as looking for the target. -/
structure Faults.Writes (faults : Faults) (data : Bytes) : Prop where
  mkpath : faults.ends .mkpath = false
  opened : (faults.outcome .openTmp).works = true ∧ faults.ends .openTmp = false
  written : (faults.outcome (.writeTmp data)).works = true ∧ faults.ends (.writeTmp data) = false
  closed : faults.ends .closeTmp = false
  looked : faults.ends .existsTarget = false

/-- What `close` leaves in the temporary file. -/
def Faults.flushed (faults : Faults) (data : Bytes) : Bytes := (faults.outcome .closeTmp).done data

/-- Where there was no file, a file that is renamed has the new content. Where there was
one and it is removed, the process goes on and the renaming works, and the file that is
renamed has the new content, or the old. -/
def Faults.Harmless (faults : Faults) (data : Bytes) : Option Bytes → Prop
  | none => (faults.outcome .renameTmp).works = true → faults.flushed data = data
  | some old => (faults.outcome .existsTarget).works = true →
      (faults.outcome .removeTarget).works = true →
        faults.ends .removeTarget = false ∧ (faults.outcome .renameTmp).works = true ∧
          (faults.flushed data = old ∨ faults.flushed data = data)

/-! ## Replacing -/

section

variable {faults : Faults} {files : Files} {old : Option Bytes} {data left : Bytes}

/-- What does not touch the target is safe. -/
theorem Safe.untouched {r : Option Bool × Files} (h : r.2.target = old) : Safe old data r :=
  ⟨.inl h, fun _ => h⟩

theorem target_discardTmp : (faults.run discardTmp files).2.target = files.target := by
  have hremove : (fileMedium.write .removeTmp (faults.outcome .removeTmp) files).1.target =
      files.target := by
    rw [write_removeTmp]
    split <;> rfl
  unfold Faults.run discardTmp
  rw [Job.runUntil_perform_bind]
  split <;> exact hremove

/-- A file that is still there is not replaced. -/
theorem target_renameTmp_of_present (h : files.target.isSome = true) :
    (faults.run renameTmp files).2.target = files.target := by
  have hblocked : files.target.isNone = false := by simpa using h
  unfold Faults.run renameTmp
  rw [Job.runUntil_perform_bind, write_renameTmp, hblocked, Bool.and_false]
  split
  · rfl
  · exact target_discardTmp

/-- Where there is none, the temporary file takes the place if the renaming works. -/
theorem renameTmp_works (htarget : files.target = none)
    (hworks : (faults.outcome .renameTmp).works = true) :
    (faults.run renameTmp files).2.target = files.tmp ∧
      (faults.run renameTmp files).1 ≠ some false := by
  unfold Faults.run renameTmp
  rw [Job.runUntil_perform_bind, write_renameTmp, htarget, hworks]
  cases faults.ends .renameTmp with
  | true => exact ⟨rfl, nofun⟩
  | false => exact ⟨rfl, nofun⟩

theorem renameTmp_fails (htarget : files.target = none)
    (hworks : (faults.outcome .renameTmp).works = false) :
    (faults.run renameTmp files).2.target = none := by
  unfold Faults.run renameTmp
  rw [Job.runUntil_perform_bind, write_renameTmp, hworks, Bool.false_and]
  split
  · exact htarget
  · exact target_discardTmp.trans htarget

/-- **Renaming.** Where the target is gone, it is safe to try to rename exactly when it
works and the temporary file has the right content, or there was no old file. -/
theorem renameTmp_safe_iff (htarget : files.target = none) (htmp : files.tmp = some left) :
    Safe old data (faults.run renameTmp files) ↔
      if (faults.outcome .renameTmp).works then old = some left ∨ left = data else old = none := by
  cases hworks : (faults.outcome .renameTmp).works with
  | true =>
      obtain ⟨hplaced, hresult⟩ := renameTmp_works htarget hworks
      rw [if_pos rfl]
      unfold Safe
      rw [hplaced, htmp, Option.some.injEq, @eq_comm _ (some left)]
      exact and_iff_left fun hfalse => absurd hfalse hresult
  | false =>
      have hgone := renameTmp_fails htarget hworks
      rw [if_neg Bool.false_ne_true]
      unfold Safe
      rw [hgone]
      constructor
      · rintro ⟨hold | hnew, _⟩
        · exact hold.symm
        · cases hnew
      · intro hold
        exact ⟨.inl hold.symm, fun _ => hold.symm⟩

/-- Removing the old file and renaming: where the removal works, the process must go on,
and the renaming work with the right content. -/
theorem removeTarget_safe_iff {old : Bytes} (htarget : files.target = some old)
    (htmp : files.tmp = some left) :
    Safe (some old) data (faults.run (do let _ ← .perform .removeTarget; renameTmp) files) ↔
      ((faults.outcome .removeTarget).works = true → faults.ends .removeTarget = false ∧
        (faults.outcome .renameTmp).works = true ∧ (left = old ∨ left = data)) := by
  unfold Faults.run
  rw [Job.runUntil_perform_bind, write_removeTarget]
  cases (faults.outcome .removeTarget).works with
  | false =>
      rw [if_neg Bool.false_ne_true]
      refine iff_of_true (.untouched ?_) nofun
      split
      · exact htarget
      · exact (target_renameTmp_of_present (by rw [htarget]; rfl)).trans htarget
  | true =>
      rw [if_pos rfl, forall_prop_of_true rfl]
      cases faults.ends .removeTarget with
      | true =>
          -- neither the old file is there nor the new one
          rw [if_pos rfl]
          refine iff_of_false ?_ fun h => absurd h.1 (by decide)
          rintro ⟨hold | hnew, _⟩
          · cases hold
          · cases hnew
      | false =>
          rw [if_neg Bool.false_ne_true]
          have hrename := @renameTmp_safe_iff faults { files with target := none } (some old) data left
            rfl htmp
          refine hrename.trans ?_
          cases (faults.outcome .renameTmp).works with
          | true => simp [eq_comm]
          | false => simp

theorem replaceTarget_safe_iff (hlooked : faults.ends .existsTarget = false)
    (htmp : files.tmp = some (faults.flushed data)) :
    Safe files.target data (faults.run replaceTarget files) ↔
      faults.Harmless data files.target := by
  have hlook : faults.run replaceTarget files =
      faults.run (if (faults.outcome .existsTarget).works && files.target.isSome then do
          let _ ← .perform .removeTarget
          renameTmp
        else renameTmp) files := by
    unfold Faults.run replaceTarget
    rw [Job.runUntil_goes_on hlooked, write_existsTarget]
  rw [hlook]
  cases htarget : files.target with
  | none =>
      rw [Option.isSome_none, Bool.and_false, if_neg Bool.false_ne_true,
        renameTmp_safe_iff htarget htmp]
      unfold Faults.Harmless
      cases (faults.outcome .renameTmp).works with
      | true => simp
      | false => simp
  | some old =>
      rw [Option.isSome_some, Bool.and_true]
      unfold Faults.Harmless
      dsimp only
      cases (faults.outcome .existsTarget).works with
      | false =>
          -- the function does not see the file, and then cannot rename over it
          rw [if_neg Bool.false_ne_true]
          refine iff_of_true (.untouched ?_) nofun
          rw [target_renameTmp_of_present (by rw [htarget]; rfl), htarget]
      | true =>
          rw [if_pos rfl, forall_prop_of_true rfl]
          exact removeTarget_safe_iff htarget htmp

/-! ## The whole function -/

/-- As long as the temporary file is not written, the target is not touched. -/
theorem target_of_not_writes (h : ¬faults.Writes data) :
    (faults.run (writeFileAtomic data) files).2.target = files.target := by
  unfold Faults.run writeFileAtomic
  rw [Job.runUntil_perform_bind, write_mkpath]
  split
  · rfl
  rename_i hmkpath
  rw [Job.runUntil_perform_bind, write_openTmp]
  cases hopen : (faults.outcome .openTmp).works with
  | false =>
      rw [if_neg Bool.false_ne_true]
      split <;> rfl
  | true =>
      rw [if_pos rfl]
      split
      · rfl
      rename_i hopened
      dsimp only
      rw [if_pos rfl, Job.runUntil_perform_bind, write_writeTmp]
      split
      · rfl
      rename_i hwritten
      rw [Job.runUntil_perform_bind, write_closeTmp]
      split
      · rfl
      rename_i hclosed
      dsimp only
      cases hwrite : (faults.outcome (.writeTmp data)).works with
      | false =>
          rw [if_neg Bool.false_ne_true]
          exact target_discardTmp
      | true =>
          -- what is left is that the process ends when it has looked for the target
          rw [if_pos rfl]
          have hlooked : faults.ends .existsTarget = true := by
            by_contra hgoes
            exact h ⟨by simpa using hmkpath, ⟨hopen, by simpa using hopened⟩,
              ⟨hwrite, by simpa using hwritten⟩, by simpa using hclosed, by simpa using hgoes⟩
          unfold replaceTarget
          rw [Job.runUntil_ends hlooked]
          rfl

/-- When it is written, the target is to be replaced by what `close` left. -/
theorem run_of_writes (h : faults.Writes data) :
    faults.run (writeFileAtomic data) files =
      faults.run replaceTarget { files with tmp := some (faults.flushed data), buffer := [] } := by
  unfold Faults.run writeFileAtomic
  rw [Job.runUntil_goes_on h.mkpath, write_mkpath, Job.runUntil_goes_on h.opened.2, write_openTmp,
    if_pos h.opened.1]
  dsimp only
  rw [if_pos rfl, Job.runUntil_goes_on h.written.2, write_writeTmp,
    Job.runUntil_goes_on h.closed, write_closeTmp, if_pos h.written.1]
  unfold Faults.flushed
  rw [CallOutcome.done, if_pos h.written.1]
  rfl

end

/-- **Crash safety.** Wherever the process ends and whichever calls fail, the target has
the old content or the new, and the old where `false` is returned, exactly when replacing
the target is harmless or the function does not come to it. -/
theorem writeFileAtomic_crashSafe_iff (faults : Faults) (data : Bytes) (files : Files) :
    CrashSafe faults data files ↔ (faults.Writes data → faults.Harmless data files.target) := by
  by_cases h : faults.Writes data
  · unfold CrashSafe
    rw [run_of_writes h, forall_prop_of_true h]
    exact replaceTarget_safe_iff h.looked rfl
  · exact iff_of_true (.untouched (target_of_not_writes h)) fun hwrites => absurd hwrites h

/-- The temporary file cannot be renamed. -/
def renameFails : Faults where
  outcome call := { works := call != .renameTmp }

/-- `false` is returned, and neither file is left. -/
theorem writeFileAtomic_loses : ¬CrashSafe renameFails [2] { target := some [1] } := by
  intro h
  have hresult : (renameFails.run (writeFileAtomic [2]) { target := some [1] }).1 = some false := by
    decide
  exact absurd (h.2 hresult) (by decide)

end XYChat.Client.AtomicWrite
