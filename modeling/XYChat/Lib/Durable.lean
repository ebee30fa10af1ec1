import XYChat.Lib.Machine

/-!
# Jobs that write to a lasting medium

A job reads a medium that outlives the process and writes to it, one write at a
time. The environment decides how each write comes out, and it may end the
process before any of them. What a job leaves behind is therefore said for every
write it may be about to make.
-/

namespace XYChat.Lib

/-- A job on a medium `δ` with writes `ω`; a write reports whether it worked. -/
inductive Job (δ ω α : Type) : Type where
  | ret (a : α)
  | read (next : δ → Job δ ω α)
  | write (w : ω) (next : Bool → Job δ ω α)

/-- What a write does to the medium, by the outcome the environment picks, and
what the start of a job does. -/
structure Medium (δ ω ε : Type) where
  write : ω → ε → δ → δ × Bool
  enter : δ → δ

/-- Which outcomes of a write are considered, and where a job may be left: at its
end, or before the write it is about to make. -/
structure Care (δ ω ε : Type) where
  outcome : δ → ω → ε → Prop
  leave : δ → Option ω → Prop

namespace Job

variable {δ ω ε α β : Type}

def query (f : δ → α) : Job δ ω α := .read fun d => .ret (f d)

def perform (w : ω) : Job δ ω Bool := .write w .ret

protected def bind : Job δ ω α → (α → Job δ ω β) → Job δ ω β
  | .ret a, f => f a
  | .read next, f => .read fun d => (next d).bind f
  | .write w next, f => .write w fun ok => (next ok).bind f

instance : Monad (Job δ ω) where
  pure := .ret
  bind := Job.bind

/-- What the job does next on the medium: return, or make a write. -/
def head : Job δ ω α → δ → α ⊕ (ω × (Bool → Job δ ω α))
  | .ret a, _ => .inl a
  | .read next, d => (next d).head d
  | .write w next, _ => .inr (w, next)

/-- The result and the medium of a job that runs to its end, its writes coming out
as `e` says, one after the other. -/
def run (M : Medium δ ω ε) : Job δ ω α → (Nat → ε) → δ → α × δ
  | .ret a, _, d => (a, d)
  | .read next, e, d => (next d).run M e d
  | .write w next, e, d =>
      (next (M.write w (e 0) d).2).run M (fun n => e (n + 1)) (M.write w (e 0) d).1

/-! ## What a job keeps -/

/-- With care, the job leaves `I` wherever it is left, and `Q` of its result and
the medium at its end. -/
def Keeps (M : Medium δ ω ε) (c : Care δ ω ε) (I : δ → Prop) (Q : α → δ → Prop) :
    Job δ ω α → δ → Prop
  | .ret a, d => Q a d
  | .read next, d => Keeps M c I Q (next d) d
  | .write w next, d =>
      (c.leave d (some w) → I d) ∧
        ∀ e, c.outcome d w e → Keeps M c I Q (next (M.write w e d).2) (M.write w e d).1

variable {M : Medium δ ω ε} {c : Care δ ω ε} {I : δ → Prop} {Q Q' : α → δ → Prop} {d : δ}

@[simp] theorem keeps_pure {a : α} : Keeps M c I Q (pure a) d ↔ Q a d := Iff.rfl

@[simp] theorem keeps_query {f : δ → α} : Keeps M c I Q (query f) d ↔ Q (f d) d := Iff.rfl

theorem keeps_perform {w : ω} {Q : Bool → δ → Prop} (hleave : c.leave d (some w) → I d)
    (hnext : ∀ e, c.outcome d w e → Q (M.write w e d).2 (M.write w e d).1) :
    Keeps M c I Q (perform w) d := ⟨hleave, hnext⟩

theorem Keeps.mono {j : Job δ ω α} (h : Keeps M c I Q j d) (hQ : ∀ a d, Q a d → Q' a d) :
    Keeps M c I Q' j d := by
  induction j generalizing d with
  | ret a => exact hQ a d h
  | read next ih => exact ih d h
  | write w next ih => exact ⟨h.1, fun e he => ih _ (h.2 e he)⟩

theorem Keeps.bind {Q : β → δ → Prop} {j : Job δ ω α} {f : α → Job δ ω β}
    (h : Keeps M c I (fun a d => Keeps M c I Q (f a) d) j d) : Keeps M c I Q (j >>= f) d := by
  induction j generalizing d with
  | ret a => exact h
  | read next ih => exact ih d h
  | write w next ih => exact ⟨h.1, fun e he => ih _ (h.2 e he)⟩

/-- What the job keeps holds where it has run with outcomes that are considered. -/
theorem Keeps.run_of {j : Job δ ω α} (h : Keeps M c I Q j d) {e : Nat → ε}
    (he : ∀ n d w, c.outcome d w (e n)) : Q (j.run M e d).1 (j.run M e d).2 := by
  induction j generalizing d e with
  | ret a => exact h
  | read next ih => exact ih d h he
  | write w next ih => exact ih _ (h.2 (e 0) (he 0 d w)) fun n => he (n + 1)

/-- Where all outcomes of writes are considered, what the job keeps holds however
it has run. -/
theorem Keeps.run {j : Job δ ω α} (h : Keeps M c I Q j d) (hc : ∀ d w e, c.outcome d w e)
    (e : Nat → ε) : Q (j.run M e d).1 (j.run M e d).2 :=
  h.run_of fun n d w => hc d w (e n)

theorem keeps_ite {p : Prop} [Decidable p] {j k : Job δ ω α} (hj : p → Keeps M c I Q j d)
    (hk : ¬p → Keeps M c I Q k d) : Keeps M c I Q (if p then j else k) d := by
  by_cases hp : p
  · rw [if_pos hp]
    exact hj hp
  · rw [if_neg hp]
    exact hk hp

/-! ## A run that may end early -/

/-- The job with a fixed outcome for each write, in a process that ends after a write
`w` with `ends w`: then there is no result. -/
def runUntil (M : Medium δ ω ε) (e : ω → ε) (ends : ω → Bool) : Job δ ω α → δ → Option α × δ
  | .ret a, d => (some a, d)
  | .read next, d => (next d).runUntil M e ends d
  | .write w next, d =>
      if ends w then (none, (M.write w (e w) d).1)
      else (next (M.write w (e w) d).2).runUntil M e ends (M.write w (e w) d).1

section

variable {e : ω → ε} {ends : ω → Bool}

@[simp] theorem runUntil_pure {a : α} : (pure a : Job δ ω α).runUntil M e ends d = (some a, d) := rfl

theorem runUntil_perform_bind {w : ω} {f : Bool → Job δ ω α} :
    (perform w >>= f).runUntil M e ends d =
      if ends w then (none, (M.write w (e w) d).1)
      else (f (M.write w (e w) d).2).runUntil M e ends (M.write w (e w) d).1 := rfl

/-- The process ends after the write. -/
theorem runUntil_ends {w : ω} {f : Bool → Job δ ω α} (h : ends w = true) :
    (perform w >>= f).runUntil M e ends d = (none, (M.write w (e w) d).1) := by
  rw [runUntil_perform_bind, if_pos h]

/-- It goes on after the write. -/
theorem runUntil_goes_on {w : ω} {f : Bool → Job δ ω α} (h : ends w = false) :
    (perform w >>= f).runUntil M e ends d =
      (f (M.write w (e w) d).2).runUntil M e ends (M.write w (e w) d).1 := by
  rw [runUntil_perform_bind, if_neg (by rw [h]; decide)]

end

end Job

/-! ## The process -/

/-- A process: the medium, its memory, and the job it is running. -/
structure Process (δ ω μ : Type) where
  medium : δ
  memory : μ
  job : Option (Job δ ω μ) := none

/-- An idle process starts a job; a running one makes its next write or returns;
the process ends and is started again. -/
inductive Event (ι ε : Type) where
  | start (i : ι)
  | next (e : ε)
  | crash

namespace Process

variable {δ ω ε μ ι : Type} (M : Medium δ ω ε) (begin : ι → μ → Job δ ω μ) (fresh : μ)

def step (p : Process δ ω μ) : Event ι ε → Process δ ω μ
  | .start i =>
      match p.job with
      | some _ => p
      | none => { p with medium := M.enter p.medium, job := some (begin i p.memory) }
  | .next e =>
      match p.job with
      | none => p
      | some j =>
          match j.head p.medium with
          | .inl m => { p with memory := m, job := none }
          | .inr (w, next) =>
              let r := M.write w e p.medium
              { p with medium := r.1, job := some (next r.2) }
  | .crash => { p with memory := fresh, job := none }

/-- The write the process is about to make, or that it is about to return. -/
def pending (p : Process δ ω μ) : Option (Option ω) :=
  p.job.map fun j =>
    match j.head p.medium with
    | .inl _ => none
    | .inr (w, _) => some w

/-- The pending write may come out as `e`, or the job may return. -/
def MeetsNext (c : Care δ ω ε) (d : δ) (e : ε) : Option (Option ω) → Prop
  | none => True
  | some none => c.leave d none
  | some (some w) => c.outcome d w e

/-- The job may be left where it is. -/
def MeetsCrash (c : Care δ ω ε) (d : δ) : Option (Option ω) → Prop
  | none => True
  | some pending => c.leave d pending

/-- The event is one the care considers. -/
def Meets (c : Care δ ω ε) (p : Process δ ω μ) : Event ι ε → Prop
  | .start _ => True
  | .next e => MeetsNext c p.medium e p.pending
  | .crash => MeetsCrash c p.medium p.pending

section

variable (c : Care δ ω ε) [∀ d w e, Decidable (c.outcome d w e)] [∀ d w, Decidable (c.leave d w)]

instance (d : δ) (e : ε) : ∀ pending, Decidable (MeetsNext c d e pending)
  | none => isTrue trivial
  | some none => inferInstanceAs (Decidable (c.leave d none))
  | some (some w) => inferInstanceAs (Decidable (c.outcome d w e))

instance (d : δ) : ∀ pending, Decidable (MeetsCrash c d pending)
  | none => isTrue trivial
  | some pending => inferInstanceAs (Decidable (c.leave d pending))

instance (p : Process δ ω μ) : ∀ op : Event ι ε, Decidable (p.Meets c op)
  | .start _ => isTrue trivial
  | .next e => inferInstanceAs (Decidable (MeetsNext c p.medium e p.pending))
  | .crash => inferInstanceAs (Decidable (MeetsCrash c p.medium p.pending))

end

variable {M begin fresh} {c : Care δ ω ε} {I : δ → Prop} {R : μ → δ → Prop}

/-- Idle the process has `R` of its memory and the medium; at work, its job will leave
them so, and the medium with `I` where it is left before its end. -/
def Holds (M : Medium δ ω ε) (c : Care δ ω ε) (I : δ → Prop) (R : μ → δ → Prop)
    (p : Process δ ω μ) : Prop :=
  match p.job with
  | none => R p.memory p.medium
  | some j => Job.Keeps M c I (fun m d => c.leave d none → R m d) j p.medium

theorem Holds.idle {p : Process δ ω μ} (h : Holds M c I R p) (hidle : p.job = none) :
    R p.memory p.medium := by
  unfold Holds at h
  rw [hidle] at h
  exact h

/-- At work with a write pending, the process is at the head of its job. -/
theorem keeps_head {Q : μ → δ → Prop} {j : Job δ ω μ} {d : δ} (h : Job.Keeps M c I Q j d) :
    match j.head d with
    | .inl m => Q m d
    | .inr (w, next) => Job.Keeps M c I Q (.write w next) d := by
  induction j with
  | ret a => exact h
  | read next ih => exact ih d h
  | write w next => exact h

/-- **Crash rule.** If every job keeps what it finds, and the process can start over
from wherever it is left, then with care it has `R` whenever it is idle, at the end of
a job and after a crash in its midst. -/
theorem Holds.step (hidle : ∀ m d, R m d → R fresh d) (hleft : ∀ d, I d → R fresh d)
    (hbegin : ∀ i m d, R m d →
      Job.Keeps M c I (fun m d => c.leave d none → R m d) (begin i m) (M.enter d))
    {p : Process δ ω μ} {op : Event ι ε} (h : Holds M c I R p) (hop : p.Meets c op) :
    Holds M c I R (p.step M begin fresh op) := by
  obtain ⟨d, m, job⟩ := p
  cases op with
  | start i =>
      cases job with
      | none => exact hbegin i m d h
      | some j => exact h
  | next e =>
      cases job with
      | none => exact h
      | some j =>
          have hhead := keeps_head h
          unfold Process.step Holds
          unfold Meets pending at hop
          dsimp only [Option.map_some, MeetsNext] at hop ⊢ hhead
          cases hj : j.head d with
          | inl m' =>
              rw [hj] at hop hhead
              exact hhead hop
          | inr w =>
              rw [hj] at hop hhead
              exact hhead.2 e hop
  | crash =>
      cases job with
      | none => exact hidle m d h
      | some j =>
          have hhead := keeps_head h
          unfold Meets pending at hop
          dsimp only [Option.map_some, MeetsCrash] at hop hhead
          show R fresh d
          cases hj : j.head d with
          | inl m' =>
              rw [hj] at hop hhead
              exact hidle m' d (hhead hop)
          | inr w =>
              rw [hj] at hop hhead
              exact hleft d (hhead.1 hop)

end Process

end XYChat.Lib
