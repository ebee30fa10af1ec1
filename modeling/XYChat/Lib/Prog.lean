import XYChat.Lib.Machine

/-!
# Programs of atomic statements

A handler that talks to a shared store is a tree of atomic statements: each
statement updates the store in one step and hands the state it ran in to the
rest of the handler. `exec` runs a program alone; where programs interleave, what
others do in between is visible exactly where the code reads again, and what a
program does whatever the others do is said statement by statement.
-/

namespace XYChat.Lib

/-- A program over a store `σ` with result `α`. -/
inductive Prog (σ : Type) (α : Type) : Type where
  | ret (a : α)
  | stmt (upd : σ → σ) (next : σ → Prog σ α)

namespace Prog

variable {σ α β γ : Type}

/-- One atomic statement with a result. -/
def call (f : σ → σ × α) : Prog σ α := .stmt (fun s => (f s).1) (fun s => .ret (f s).2)

/-- A statement that only reads. -/
def query (f : σ → α) : Prog σ α := .stmt id (fun s => .ret (f s))

/-- A statement whose result nobody looks at. -/
def update (f : σ → σ) : Prog σ Unit := .stmt f (fun _ => .ret ())

protected def bind : Prog σ α → (α → Prog σ β) → Prog σ β
  | .ret a, f => f a
  | .stmt upd next, f => .stmt upd fun s => (next s).bind f

instance : Monad (Prog σ) where
  pure := .ret
  bind := Prog.bind

/-- The store and the result when no other program runs in between. -/
def exec : Prog σ α → σ → σ × α
  | .ret a, s => (s, a)
  | .stmt upd next, s => (next s).exec (upd s)

@[simp] theorem exec_pure (a : α) (s : σ) : (pure a : Prog σ α).exec s = (s, a) := rfl

@[simp] theorem exec_call (f : σ → σ × α) (s : σ) : (call f).exec s = f s := rfl

@[simp] theorem exec_query (f : σ → α) (s : σ) : (query f).exec s = (s, f s) := rfl

@[simp] theorem exec_update (f : σ → σ) (s : σ) : (update f).exec s = (f s, ()) := rfl

@[simp] theorem exec_bind (p : Prog σ α) (f : α → Prog σ β) (s : σ) :
    (p >>= f).exec s = (f (p.exec s).2).exec (p.exec s).1 := by
  induction p generalizing s with
  | ret a => rfl
  | stmt upd next ih => exact ih s (upd s)

@[simp] theorem exec_ite (c : Prop) [Decidable c] (p q : Prog σ α) (s : σ) :
    (if c then p else q).exec s = if c then p.exec s else q.exec s := by
  split <;> rfl

@[simp] theorem exec_map (f : α → β) (p : Prog σ α) (s : σ) :
    (f <$> p).exec s = ((p.exec s).1, f (p.exec s).2) :=
  exec_bind p (fun a => pure (f a)) s

/-- A block of statements run as one: what a transaction does. -/
def atomically (p : Prog σ α) : Prog σ α := call p.exec

@[simp] theorem exec_atomically (p : Prog σ α) (s : σ) : (atomically p).exec s = p.exec s := rfl

/-! ## Statements that fail -/

/-- A statement that changes nothing and returns `failed` where it fails. -/
def attempt (fails : Bool) (failed : α) (f : σ → σ × α) : Prog σ α :=
  call fun s => if fails then (s, failed) else f s

@[simp] theorem exec_attempt (fails : Bool) (failed : α) (f : σ → σ × α) (s : σ) :
    (attempt fails failed f).exec s = if fails then (s, failed) else f s := rfl

/-- Statements in a transaction, with a result when none of those that matter failed:
where one did, or beginning or committing fails, all are taken back. -/
def transaction (beginFails commitFails : Bool) (p : Prog σ (Option α)) : Prog σ (Option α) :=
  call fun s =>
    if beginFails then (s, none)
    else match p.exec s with
      | (_, none) => (s, none)
      | (s', some a) => if commitFails then (s, none) else (s', some a)

/-- **All or nothing.** A transaction without a result changes nothing; with one, it has
done what its statements do. -/
theorem exec_transaction (beginFails commitFails : Bool) (p : Prog σ (Option α)) (s : σ) :
    (transaction beginFails commitFails p).exec s = (s, none) ∨
      ∃ a, p.exec s = (((transaction beginFails commitFails p).exec s).1, some a) ∧
        ((transaction beginFails commitFails p).exec s).2 = some a := by
  unfold transaction
  rw [exec_call]
  split
  · exact .inl rfl
  split
  · exact .inl rfl
  · rename_i s' a hexec
    split
    · exact .inl rfl
    · exact .inr ⟨a, hexec, rfl⟩

/-! ## Postconditions of a program run alone -/

/-- `Q` holds of the result and the store `p` leaves when it runs alone from
`s`. -/
def wp (p : Prog σ α) (Q : α → σ → Prop) (s : σ) : Prop := Q (p.exec s).2 (p.exec s).1

section wp

variable {Q Q' : α → σ → Prop}

@[simp] theorem wp_pure (a : α) (s : σ) : (pure a : Prog σ α).wp Q s ↔ Q a s := Iff.rfl

@[simp] theorem wp_call (f : σ → σ × α) (s : σ) : (call f).wp Q s ↔ Q (f s).2 (f s).1 := Iff.rfl

@[simp] theorem wp_query (f : σ → α) (s : σ) : (query f).wp Q s ↔ Q (f s) s := Iff.rfl

@[simp] theorem wp_update {Q : Unit → σ → Prop} (f : σ → σ) (s : σ) :
    (update f).wp Q s ↔ Q () (f s) := Iff.rfl

@[simp] theorem wp_atomically (p : Prog σ α) (s : σ) : (atomically p).wp Q s ↔ p.wp Q s := Iff.rfl

@[simp] theorem wp_bind {Q : β → σ → Prop} (p : Prog σ α) (f : α → Prog σ β) (s : σ) :
    (p >>= f).wp Q s ↔ p.wp (fun a => (f a).wp Q) s := by
  unfold wp
  rw [exec_bind]

@[simp] theorem wp_map {Q : β → σ → Prop} (f : α → β) (p : Prog σ α) (s : σ) :
    (f <$> p).wp Q s ↔ p.wp (fun a => Q (f a)) s := by
  unfold wp
  rw [exec_map]

theorem wp_ite {c : Prop} [Decidable c] {p q : Prog σ α} {s : σ}
    (hp : c → p.wp Q s) (hq : ¬c → q.wp Q s) : (if c then p else q).wp Q s := by
  split
  · rename_i h
    exact hp h
  · rename_i h
    exact hq h

theorem wp_attempt {fails : Bool} {failed : α} {f : σ → σ × α} {s : σ}
    (hfails : fails = true → Q failed s) (hworks : fails = false → Q (f s).2 (f s).1) :
    (attempt fails failed f).wp Q s := by
  unfold wp
  rw [exec_attempt]
  cases fails with
  | true => exact hfails rfl
  | false => exact hworks rfl

theorem wp_mono {p : Prog σ α} {s : σ} (h : p.wp Q s) (hQ : ∀ a s', Q a s' → Q' a s') :
    p.wp Q' s :=
  hQ _ _ h

end wp

/-! ## Results -/

/-- A result the program can have, whatever is done to the store between its
statements. -/
def Returns : Prog σ α → α → Prop
  | .ret a, b => b = a
  | .stmt _ next, b => ∃ s, (next s).Returns b

section returns

variable {a b : α}

@[simp] theorem returns_pure : (pure a : Prog σ α).Returns b ↔ b = a := Iff.rfl

@[simp] theorem returns_call {f : σ → σ × α} : (call f).Returns b ↔ ∃ s, b = (f s).2 := Iff.rfl

@[simp] theorem returns_query {f : σ → α} : (query f).Returns b ↔ ∃ s, b = f s := Iff.rfl

@[simp] theorem returns_bind {p : Prog σ β} {f : β → Prog σ α} :
    (p >>= f).Returns b ↔ ∃ c, p.Returns c ∧ (f c).Returns b := by
  induction p with
  | ret c => exact ⟨fun h => ⟨c, rfl, h⟩, fun ⟨_, rfl, h⟩ => h⟩
  | stmt upd next ih =>
      constructor
      · rintro ⟨s, hs⟩
        obtain ⟨c, hc, hf⟩ := (ih s).mp hs
        exact ⟨c, ⟨s, hc⟩, hf⟩
      · rintro ⟨c, ⟨s, hc⟩, hf⟩
        exact ⟨s, (ih s).mpr ⟨c, hc, hf⟩⟩

/-- The result of a run alone is one of them. -/
theorem returns_exec (p : Prog σ α) (s : σ) : p.Returns (p.exec s).2 := by
  induction p generalizing s with
  | ret a => rfl
  | stmt upd next ih => exact ⟨s, ih s (upd s)⟩

end returns

/-! ## What all statements of a program have in common -/

/-- Whatever state it runs in, each statement of the program stays within `R`. -/
def Within (R : σ → σ → Prop) : Prog σ α → Prop
  | .ret _ => True
  | .stmt upd next => ∀ s, R s (upd s) ∧ Within R (next s)

section within

variable {R R' : σ → σ → Prop}

@[simp] theorem within_pure (a : α) : (pure a : Prog σ α).Within R := trivial

theorem within_stmt {upd : σ → σ} {next : σ → Prog σ α} :
    (Prog.stmt upd next).Within R ↔ ∀ s, R s (upd s) ∧ (next s).Within R := Iff.rfl

theorem within_call {f : σ → σ × α} (h : ∀ s, R s (f s).1) : (call f).Within R :=
  fun s => ⟨h s, trivial⟩

theorem within_query {f : σ → α} (h : ∀ s, R s s) : (query f).Within R :=
  fun s => ⟨h s, trivial⟩

theorem within_update {f : σ → σ} (h : ∀ s, R s (f s)) : (update f).Within R :=
  fun s => ⟨h s, trivial⟩

theorem Within.bind {p : Prog σ α} {f : α → Prog σ β} (hp : p.Within R)
    (hf : ∀ a, (f a).Within R) : (p >>= f).Within R := by
  induction p with
  | ret a => exact hf a
  | stmt upd next ih => exact fun s => ⟨(hp s).1, ih s (hp s).2⟩

theorem Within.map {p : Prog σ α} {f : α → β} (hp : p.Within R) : (f <$> p).Within R :=
  hp.bind fun _ => trivial

theorem within_ite {c : Prop} [Decidable c] {p q : Prog σ α} (hp : c → p.Within R)
    (hq : ¬c → q.Within R) : (if c then p else q).Within R := by
  split
  · rename_i h
    exact hp h
  · rename_i h
    exact hq h

theorem Within.mono {p : Prog σ α} (h : p.Within R) (hR : ∀ s s', R s s' → R' s s') :
    p.Within R' := by
  induction p with
  | ret a => trivial
  | stmt upd next ih => exact fun s => ⟨hR s _ (h s).1, ih s (h s).2⟩

theorem Within.and {p : Prog σ α} (h : p.Within R) (h' : p.Within R') :
    p.Within fun s s' => R s s' ∧ R' s s' := by
  induction p with
  | ret a => trivial
  | stmt upd next ih => exact fun s => ⟨⟨(h s).1, (h' s).1⟩, ih s (h s).2 (h' s).2⟩

/-- A program whose statements stay within a preorder does. -/
theorem Within.exec {p : Prog σ α} (h : p.Within R) (refl : ∀ s, R s s)
    (trans : ∀ {s s' s''}, R s s' → R s' s'' → R s s'') (s : σ) : R s (p.exec s).1 := by
  induction p generalizing s with
  | ret a => exact refl s
  | stmt upd next ih => exact trans (h s).1 (ih s (h s).2 (upd s))

theorem Within.atomically {p : Prog σ α} (h : p.Within R) (refl : ∀ s, R s s)
    (trans : ∀ {s s' s''}, R s s' → R s' s'' → R s s'') : (atomically p).Within R :=
  within_call (h.exec refl trans)

end within

/-! ## What a program does, statement by statement -/

/-- What the statements of a program may do, with a ghost state that says how
far the program has come. `holds t s` is what it knows about the store in ghost
state `t`; `step t s s' t'` allows the statement that leads from `s` to `s'` and
leaves the ghost state `t'`. -/
structure Protocol (σ τ : Type) where
  holds : τ → σ → Prop
  step : τ → σ → σ → τ → Prop

variable {τ : Type} {P : Protocol σ τ}

/-- Whatever runs between its statements, as long as what it knows stays true,
the program does what the protocol allows, and `Q` holds of the ghost state and
the result at the end. -/
def Follows (P : Protocol σ τ) (Q : τ → α → Prop) : τ → Prog σ α → Prop
  | t, .ret a => Q t a
  | t, .stmt upd next =>
      ∀ s, P.holds t s → ∃ t', P.step t s (upd s) t' ∧ Follows P Q t' (next s)

variable {Q Q' : τ → α → Prop} {t : τ}

@[simp] theorem follows_pure {a : α} : Follows P Q t (pure a) ↔ Q t a := Iff.rfl

theorem follows_stmt {upd : σ → σ} {next : σ → Prog σ α} :
    Follows P Q t (.stmt upd next) ↔
      ∀ s, P.holds t s → ∃ t', P.step t s (upd s) t' ∧ Follows P Q t' (next s) :=
  Iff.rfl

theorem follows_call {f : σ → σ × α}
    (h : ∀ s, P.holds t s → ∃ t', P.step t s (f s).1 t' ∧ Q t' (f s).2) :
    Follows P Q t (call f) := h

theorem follows_query {f : σ → α}
    (h : ∀ s, P.holds t s → ∃ t', P.step t s s t' ∧ Q t' (f s)) : Follows P Q t (query f) := h

theorem follows_update {Q : τ → Unit → Prop} {f : σ → σ}
    (h : ∀ s, P.holds t s → ∃ t', P.step t s (f s) t' ∧ Q t' ()) :
    Follows P Q t (update f) := h

theorem follows_atomically {p : Prog σ α}
    (h : ∀ s, P.holds t s → ∃ t', P.step t s (p.exec s).1 t' ∧ Q t' (p.exec s).2) :
    Follows P Q t (atomically p) := h

theorem Follows.mono {p : Prog σ α} (h : Follows P Q t p) (hQ : ∀ t a, Q t a → Q' t a) :
    Follows P Q' t p := by
  induction p generalizing t with
  | ret a => exact hQ t a h
  | stmt upd next ih =>
      intro s hs
      obtain ⟨t', hstep, hnext⟩ := h s hs
      exact ⟨t', hstep, ih s hnext⟩

/-- What every step keeps of the ghost state holds at the end. -/
theorem Follows.keep {I : τ → Prop} {p : Prog σ α} (h : Follows P Q t p) (ht : I t)
    (hI : ∀ t s s' t', P.step t s s' t' → I t → I t') :
    Follows P (fun t a => I t ∧ Q t a) t p := by
  induction p generalizing t with
  | ret a => exact ⟨ht, h⟩
  | stmt upd next ih =>
      intro s hs
      obtain ⟨t', hstep, hnext⟩ := h s hs
      exact ⟨t', hstep, ih s hnext (hI _ _ _ _ hstep ht)⟩

theorem Follows.bind {Q : τ → β → Prop} {p : Prog σ α} {f : α → Prog σ β}
    (h : Follows P (fun t a => Follows P Q t (f a)) t p) : Follows P Q t (p >>= f) := by
  induction p generalizing t with
  | ret a => exact h
  | stmt upd next ih =>
      intro s hs
      obtain ⟨t', hstep, hnext⟩ := h s hs
      exact ⟨t', hstep, ih s hnext⟩

theorem Follows.map {Q : τ → β → Prop} {p : Prog σ α} {f : α → β}
    (h : Follows P (fun t a => Q t (f a)) t p) : Follows P Q t (f <$> p) :=
  Follows.bind (h.mono fun _ _ hQ => hQ)

theorem follows_ite {c : Prop} [Decidable c] {p q : Prog σ α}
    (hp : c → Follows P Q t p) (hq : ¬c → Follows P Q t q) :
    Follows P Q t (if c then p else q) := by
  by_cases hc : c
  · rw [if_pos hc]
    exact hp hc
  · rw [if_neg hc]
    exact hq hc

/-- Where the protocol allows all that the statements of a program do, from ghost
states with `I` to such, the program follows it. -/
theorem Within.followsIn {R : σ → σ → Prop} {I : τ → Prop} {p : Prog σ α} (h : p.Within R)
    (hR : ∀ t s s', I t → P.holds t s → R s s' → ∃ t', P.step t s s' t' ∧ I t')
    (hQ : ∀ t a, I t → Q t a) (ht : I t) : Follows P Q t p := by
  induction p generalizing t with
  | ret a => exact hQ t a ht
  | stmt upd next ih =>
      intro s hs
      obtain ⟨t', hstep, ht'⟩ := hR t s _ ht hs (h s).1
      exact ⟨t', hstep, ih s (h s).2 ht'⟩

/-- Where it allows all that without moving on, the program follows it so. -/
theorem Within.follows {R : σ → σ → Prop} {p : Prog σ α} (h : p.Within R)
    (hR : ∀ s s', P.holds t s → R s s' → P.step t s s' t) (hQ : ∀ a, Q t a) :
    Follows P Q t p := by
  refine h.followsIn (I := (· = t)) (fun t' s s' ht hs hstep => ?_) (fun t' a ht => ?_) rfl
  · rw [ht] at hs ⊢
    exact ⟨t, hR s s' hs hstep, rfl⟩
  · rw [ht]
    exact hQ a

/-! ## A program over a part of the store -/

/-- Run a program over the part of the store that `get` reads and `set`
writes. -/
def zoom {ρ : Type} (get : σ → ρ) (set : ρ → σ → σ) : Prog ρ α → Prog σ α
  | .ret a => .ret a
  | .stmt upd next => .stmt (fun s => set (upd (get s)) s) fun s => (next (get s)).zoom get set

/-- What the statements do to the part is what they do to the store. -/
theorem Within.zoom {ρ : Type} {R : ρ → ρ → Prop} {R' : σ → σ → Prop} {get : σ → ρ}
    {set : ρ → σ → σ} {p : Prog ρ α} (h : p.Within R)
    (hset : ∀ r s, R (get s) r → R' s (set r s)) : (p.zoom get set).Within R' := by
  induction p with
  | ret a => trivial
  | stmt upd next ih => exact fun s => ⟨hset _ s (h (get s)).1, ih (get s) (h (get s)).2⟩

/-- Where writing the part is always allowed, so is any program over it. -/
theorem follows_zoom {ρ : Type} {get : σ → ρ} {set : ρ → σ → σ} {p : Prog ρ α}
    (hset : ∀ r s, P.step t s (set r s) t) (hQ : ∀ a, Q t a) :
    Follows P Q t (p.zoom get set) := by
  induction p with
  | ret a => exact hQ a
  | stmt upd next ih => exact fun s _ => ⟨t, hset _ s, ih (get s)⟩

/-! ## Programs told phase by phase -/

/-- The phase `k` tells where a program is: it has ended, and `step` leaves it
alone; or `step` does to the store what its next statement does, and leads to a
phase that tells the rest. -/
def Tells {κ : Type} (step : σ → κ → σ × κ) (rest : κ → Prog σ α) (k : κ) : Prop :=
  (∃ a, rest k = pure a ∧ ∀ s, step s k = (s, k)) ∨
    ∃ upd next, rest k = .stmt upd next ∧
      ∀ s, (step s k).1 = upd s ∧ rest (step s k).2 = next s

-- from here on the rules above are all there is to know
attribute [irreducible] Follows Within Returns

end Prog

end XYChat.Lib
