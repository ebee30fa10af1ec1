import XYChat.Lib.Machine
import XYChat.Lib.SlidingWindow
import XYChat.Server.Connection
import XYChat.Server.Replay

/-!
# The limits of the counters

A `RateWindow` counts in windows that begin one after another, so an interval of a
window's length may have twice the maximum. A `NonceCache` makes room at its maximum by
age alone: it stays within the maximum exactly as long as, whenever a nonce comes for
which there is no room, one of those remembered is old enough to be dropped.
-/

namespace XYChat.Server

open XYChat.Lib

/-! ## The rate window -/

namespace RateWindow

/-- The calls of `allow` at `times`, each with its answer. -/
def calls (w : RateWindow) : List Int → List (Int × Bool)
  | [] => []
  | now :: times => (now, (w.allow now).2) :: (w.allow now).1.calls times

/-- The times of the calls that were allowed. -/
def allowed (log : List (Int × Bool)) : List Int := (log.filter (·.2)).map (·.1)

@[simp] theorem allowed_nil : allowed [] = [] := rfl

@[simp] theorem allowed_cons_true (t : Int) (log : List (Int × Bool)) :
    allowed ((t, true) :: log) = t :: allowed log := rfl

@[simp] theorem allowed_cons_false (t : Int) (log : List (Int × Bool)) :
    allowed ((t, false) :: log) = allowed log := rfl

/-- The counter tallies with the times it has allowed: they are those of windows one
after another, and the count is that of the last. -/
structure Tally (maxCount : Nat) (windowSeconds : Int) (w : RateWindow) (past : List Int) :
    Prop where
  maxCount_eq : w.maxCount = maxCount
  windowSeconds_eq : w.windowSeconds = windowSeconds
  fresh : w.initialized = false → past = []
  counts : ∃ old current, past = old ++ current ∧ w.count = current.length ∧
    Successive maxCount windowSeconds w.windowStart old current

section Calls

variable {maxCount : Nat} {windowSeconds : Int} {w : RateWindow} {past : List Int} {now : Int}

/-- The window a call is counted in has begun and is not over. -/
theorem roll_window (hwindow : 0 < w.windowSeconds)
    (hbegun : w.initialized = true → w.windowStart ≤ now) :
    (w.roll now).initialized = true ∧ (w.roll now).windowStart ≤ now ∧
      now < (w.roll now).windowStart + w.windowSeconds := by
  unfold roll
  split
  · refine ⟨rfl, le_refl now, ?_⟩
    show now < now + w.windowSeconds
    omega
  · rename_i hcurrent
    simp at hcurrent
    have hstart := hbegun hcurrent.1
    refine ⟨hcurrent.1, hstart, ?_⟩
    omega

/-- Rolling on to the next window keeps the tally. -/
theorem roll_tally (h : Tally maxCount windowSeconds w past) (hwindow : 0 < windowSeconds) :
    Tally maxCount windowSeconds (w.roll now) past := by
  obtain ⟨old, current, hpast, hcount, hsuccessive⟩ := h.counts
  unfold roll
  split
  · rename_i hnext
    refine ⟨h.maxCount_eq, h.windowSeconds_eq, nofun, past, [], (List.append_nil past).symm, rfl, ?_⟩
    show Successive maxCount windowSeconds now past []
    by_cases hfresh : w.initialized = false
    · -- the first call of all: nothing was allowed before
      rw [h.fresh hfresh]
      exact .empty
    · have hover : w.windowStart + windowSeconds ≤ now := by
        simp [hfresh, h.windowSeconds_eq] at hnext
        omega
      rw [hpast]
      exact hsuccessive.next hover hwindow.le
  · exact h

/-- **One call.** The tally is kept, and a call is refused only when the window it is
counted in has the maximum. -/
theorem allow_tally (h : Tally maxCount windowSeconds w past) (hwindow : 0 < windowSeconds)
    (hbegun : w.initialized = true → w.windowStart ≤ now) :
    Tally maxCount windowSeconds (w.allow now).1 (past ++ allowed [(now, (w.allow now).2)]) ∧
      (w.allow now).1.windowStart ≤ now ∧
      ((w.allow now).2 = false →
        maxCount ≤ past.countP fun t => decide (now - windowSeconds < t)) := by
  obtain ⟨hinit, hstart, hend⟩ := roll_window (h.windowSeconds_eq ▸ hwindow) hbegun
  rw [h.windowSeconds_eq] at hend
  have hrolled : Tally maxCount windowSeconds (w.roll now) past := roll_tally h hwindow
  obtain ⟨old, current, hpast, hcount, hsuccessive⟩ := hrolled.counts
  unfold allow
  dsimp only
  split
  · rename_i hfull
    simp only [allowed_cons_false, allowed_nil, List.append_nil]
    refine ⟨hrolled, hstart, fun _ => ?_⟩
    have hlength : current.length = maxCount := by
      have hle := hsuccessive.counted
      rw [hrolled.maxCount_eq, hcount] at hfull
      omega
    rw [hpast]
    exact hsuccessive.held hlength (by omega)
  · rename_i hroom
    refine ⟨⟨hrolled.maxCount_eq, hrolled.windowSeconds_eq, ?_, ?_⟩, hstart, nofun⟩
    · intro hfresh
      exact absurd (hinit.symm.trans hfresh) (by decide)
    · refine ⟨old, current ++ [now], ?_, ?_, hsuccessive.add ⟨hstart, hend⟩ ?_⟩
      · rw [hpast, List.append_assoc]
        rfl
      · show (w.roll now).count + 1 = _
        rw [hcount, List.length_append, List.length_singleton, Nat.cast_add, Nat.cast_one]
      · rw [hrolled.maxCount_eq, hcount] at hroom
        omega

end Calls

section Runs

variable {maxCount : Nat} {windowSeconds : Int} {w : RateWindow} {past times : List Int}

/-- What the times to come find: the window has begun before each of them. -/
private theorem allow_begun {now : Int} (hstart : (w.allow now).1.windowStart ≤ now)
    (hsorted : (now :: times).Pairwise (· ≤ ·)) :
    ∀ t ∈ times, (w.allow now).1.initialized = true → (w.allow now).1.windowStart ≤ t :=
  fun t ht _ => hstart.trans ((List.pairwise_cons.mp hsorted).1 t ht)

/-- The log of a call and those after it. -/
private theorem allowed_cons_append (past : List Int) (call : Int × Bool) (log : List (Int × Bool)) :
    past ++ allowed (call :: log) = past ++ allowed [call] ++ allowed log := by
  obtain ⟨t, ok⟩ := call
  cases ok <;> simp

theorem calls_bounded (h : Tally maxCount windowSeconds w past) (hwindow : 0 < windowSeconds)
    (hbegun : ∀ t ∈ times, w.initialized = true → w.windowStart ≤ t)
    (hsorted : times.Pairwise (· ≤ ·)) (lo : Int) :
    within windowSeconds lo (past ++ allowed (w.calls times)) ≤ 2 * maxCount := by
  induction times generalizing w past with
  | nil =>
      obtain ⟨old, current, hpast, _, hsuccessive⟩ := h.counts
      rw [calls, allowed_nil, List.append_nil, hpast]
      exact hsuccessive.within_le lo
  | cons now times ih =>
      obtain ⟨htally, hstart, _⟩ := allow_tally h hwindow (hbegun now List.mem_cons_self)
      rw [calls, allowed_cons_append]
      exact ih htally (allow_begun hstart hsorted) hsorted.of_cons

theorem calls_earned (h : Tally maxCount windowSeconds w past) (hwindow : 0 < windowSeconds)
    (hbegun : ∀ t ∈ times, w.initialized = true → w.windowStart ≤ t)
    (hsorted : times.Pairwise (· ≤ ·)) {before after : List (Int × Bool)} {t : Int}
    (hcalls : w.calls times = before ++ (t, false) :: after) :
    maxCount ≤ (past ++ allowed before).countP fun s => decide (t - windowSeconds < s) := by
  induction times generalizing w past before with
  | nil => simp [calls] at hcalls
  | cons now times ih =>
      obtain ⟨htally, hstart, hrefused⟩ := allow_tally h hwindow (hbegun now List.mem_cons_self)
      rw [calls] at hcalls
      cases before with
      | nil =>
          obtain ⟨hcall, _⟩ := List.cons.inj hcalls
          obtain ⟨rfl, hno⟩ := Prod.mk.inj hcall
          rw [allowed_nil, List.append_nil]
          exact hrefused hno
      | cons call before =>
          obtain ⟨rfl, hrest⟩ := List.cons.inj hcalls
          rw [allowed_cons_append]
          exact ih htally (allow_begun hstart hsorted) hsorted.of_cons hrest

end Runs

/-- **The bound of the rate window.** An interval as long as the window has at most
twice the maximum of allowed calls, and a call is refused only after the maximum was
allowed less than a window's length ago. -/
theorem calls_limited (maxCount windowSeconds : Int) (times : List Int) (hmax : 0 < maxCount)
    (hwindow : 0 < windowSeconds) (hsorted : times.Pairwise (· ≤ ·)) :
    (∀ lo, (within windowSeconds lo
        (allowed (RateWindow.calls { maxCount, windowSeconds } times)) : Int) ≤ 2 * maxCount) ∧
      ∀ before t after,
        RateWindow.calls { maxCount, windowSeconds } times = before ++ (t, false) :: after →
        maxCount ≤ ((allowed before).countP fun s => decide (t - windowSeconds < s) : Nat) := by
  obtain ⟨limit, rfl⟩ := Int.eq_ofNat_of_zero_le hmax.le
  have hnew : Tally limit windowSeconds { maxCount := limit, windowSeconds } [] :=
    ⟨rfl, rfl, fun _ => rfl, [], [], rfl, rfl, .empty⟩
  have hbegun : ∀ t ∈ times, (false = true) → (0 : Int) ≤ t := fun _ _ h => nomatch h
  refine ⟨fun lo => ?_, fun before t after hlog => ?_⟩
  · have hbound := calls_bounded hnew hwindow hbegun hsorted lo
    rw [List.nil_append] at hbound
    exact_mod_cast hbound
  · have hearned := calls_earned hnew hwindow hbegun hsorted hlog
    rw [List.nil_append] at hearned
    exact_mod_cast hearned

/-- Two windows meet: four calls within ten seconds, the fifth refused. -/
theorem calls_limited_burst :
    RateWindow.calls { maxCount := 2, windowSeconds := 10 } [0, 9, 10, 11, 12] =
        [(0, true), (9, true), (10, true), (11, true)] ++ (12, false) :: [] ∧
      (within 10 2 (allowed [(0, true), (9, true), (10, true), (11, true)]) : Int) ≤ 2 * 2 ∧
      2 ≤ ((allowed [(0, true), (9, true), (10, true), (11, true)]).countP
        fun s => decide ((12 : Int) - 10 < s) : Nat) := by
  have hlimited := calls_limited 2 10 [0, 9, 10, 11, 12] (by decide) (by decide) (by decide)
  have hcalls : RateWindow.calls { maxCount := 2, windowSeconds := 10 } [0, 9, 10, 11, 12] =
      [(0, true), (9, true), (10, true), (11, true)] ++ (12, false) :: [] := by decide
  refine ⟨hcalls, ?_, ?_⟩
  · have hwithin := hlimited.1 2
    rw [hcalls] at hwithin
    exact hwithin
  · exact_mod_cast hlimited.2 _ _ _ hcalls

end RateWindow

/-! ## The nonce cache -/

/-- A call of the nonce cache at second `now`. -/
inductive NonceCall where
  | checkAndInsert (nonce : String) (now : Int)
  | purgeExpired (now : Int)

/-- The second a call is made at. -/
def NonceCall.time : NonceCall → Int
  | .checkAndInsert _ now => now
  | .purgeExpired now => now

namespace NonceCache

/-- The cache under any calls, empty at first. -/
def calls : Machine NonceCache NonceCall where
  init c := c.nonces = []
  step
    | c, .checkAndInsert nonce now => (c.checkAndInsert nonce now).1
    | c, .purgeExpired now => c.purgeExpired now

/-- No more nonces are remembered than the configured maximum. -/
def Bounded (c : NonceCache) : Prop := c.size ≤ c.maxEntries

/-- The remembered nonces whose time to live is not over. -/
def live (c : NonceCache) (now : Int) : List (String × Int) :=
  c.nonces.filter fun e => decide (now - e.2 ≤ c.ttlSeconds)

/-- Where a new nonce comes and the maximum of live ones is remembered, one of these is
older than half the time to live. -/
def MakesRoom (c : NonceCache) : NonceCall → Prop
  | .checkAndInsert nonce now => nonce ≠ "" → (∀ e ∈ c.live now, e.1 ≠ nonce) →
      c.maxEntries ≤ (c.live now).length →
      ∃ e ∈ c.live now, e.2 < now - c.ttlSeconds.tdiv 2
  | .purgeExpired _ => True

variable {c : NonceCache} {nonce : String} {now : Int}

theorem nonces_purgeExpired : (c.purgeExpired now).nonces = c.live now := by
  show c.nonces.filter _ = c.nonces.filter _
  refine List.filter_congr fun e _ => ?_
  by_cases hlive : now - e.2 ≤ c.ttlSeconds
  · simp [hlive]
  · simp [hlive, not_le.mp hlive]

theorem size_purgeExpired_le : (c.purgeExpired now).size ≤ c.size :=
  Int.ofNat_le.mpr (List.length_filter_le _ _)

theorem size_clean_le : (c.clean now).size ≤ c.size := by
  unfold clean
  split
  · exact size_purgeExpired_le
  · exact le_refl _

/-- At its maximum the cache is cleaned: what is left is live. -/
theorem nonces_clean_of_full (hmax : 0 < c.maxEntries) (hfull : c.maxEntries ≤ c.size) :
    (c.clean now).nonces = c.live now := by
  have hhalf : c.maxEntries.tdiv 2 < c.size := by
    rw [Int.tdiv_eq_ediv_of_nonneg hmax.le]
    omega
  unfold clean
  rw [if_pos hhalf]
  exact nonces_purgeExpired

/-- Where all nonces are live, one is refused exactly when it is one of them. -/
theorem find_any_live (hall : ∀ e ∈ c.nonces, now - e.2 ≤ c.ttlSeconds) :
    ((c.find nonce).any fun seen => now - seen ≤ c.ttlSeconds) = true ↔
      ∃ e ∈ c.nonces, e.1 = nonce := by
  cases hfind : c.find nonce with
  | none =>
      have hnone := List.lookup_eq_none_iff.mp hfind
      simp only [Option.any_none, Bool.false_eq_true, false_iff, not_exists, not_and]
      intro e he heq
      simpa [heq] using hnone e he
  | some seen =>
      obtain ⟨l₁, l₂, hsplit, _⟩ := List.lookup_eq_some_iff.mp hfind
      have hmem : (nonce, seen) ∈ c.nonces := by
        rw [hsplit]
        simp
      simp only [Option.any_some, decide_eq_true_eq, hall _ hmem, true_iff]
      exact ⟨_, hmem, rfl⟩

/-- A new nonce takes a place, unless it takes that of an entry of its own. -/
theorem size_insert_le : (c.insert nonce now).size ≤ c.size + 1 := by
  show (((nonce, now) :: c.nonces.filter _).length : Int) ≤ (c.nonces.length : Int) + 1
  have hfewer := List.length_filter_le (fun e : String × Int => e.1 != nonce) c.nonces
  rw [List.length_cons]
  omega

theorem size_insert_of_new (h : ∀ e ∈ c.nonces, e.1 ≠ nonce) :
    (c.insert nonce now).size = c.size + 1 := by
  show (((nonce, now) :: c.nonces.filter _).length : Int) = (c.nonces.length : Int) + 1
  have hall : (c.nonces.filter fun e => e.1 != nonce) = c.nonces :=
    List.filter_eq_self.mpr fun e he => bne_iff_ne.mpr (h e he)
  rw [hall, List.length_cons, Nat.cast_add, Nat.cast_one]

/-- Eviction makes room exactly when an entry is older than half the time to live. -/
theorem size_evict_lt_iff (hfull : c.maxEntries ≤ c.size) :
    (c.evict now).size < c.size ↔ ∃ e ∈ c.nonces, e.2 < now - c.ttlSeconds.tdiv 2 := by
  unfold evict
  rw [if_pos hfull]
  show ((c.nonces.filter _).length : Int) < (c.nonces.length : Int) ↔ _
  rw [Nat.cast_lt, List.length_filter_lt_length_iff_exists]
  refine exists_congr fun e => and_congr_right fun _ => ?_
  simp only [Bool.not_eq_true', decide_eq_false_iff_not, not_not]

theorem size_evict_le : (c.evict now).size ≤ c.size := by
  unfold evict
  split
  · exact Int.ofNat_le.mpr (List.length_filter_le _ _)
  · exact le_refl _

theorem mem_evict {e : String × Int} (h : e ∈ (c.evict now).nonces) : e ∈ c.nonces := by
  unfold evict at h
  split at h
  · exact List.mem_of_mem_filter h
  · exact h

/-- What `checkAndInsert` leaves of a nonce that is not empty. -/
theorem checkAndInsert_of_nonempty (hnonce : nonce ≠ "") :
    (c.checkAndInsert nonce now).1 =
      if ((c.clean now).find nonce).any fun seen => now - seen ≤ c.ttlSeconds then c.clean now
      else ((c.clean now).evict now).insert nonce now := by
  unfold checkAndInsert
  rw [if_neg hnonce]
  dsimp only
  rw [ttlSeconds_clean]
  split <;> rfl

theorem bounded_clean (h : c.Bounded) : (c.clean now).Bounded := by
  show (c.clean now).size ≤ (c.clean now).maxEntries
  rw [maxEntries_clean]
  exact size_clean_le.trans h

/-- After eviction a new nonce fits in exactly when there is room. -/
theorem bounded_insert_iff (hnew : ∀ e ∈ c.nonces, e.1 ≠ nonce) :
    ((c.evict now).insert nonce now).Bounded ↔ (c.evict now).size < c.maxEntries := by
  show ((c.evict now).insert nonce now).size ≤ (c.evict now).maxEntries ↔ _
  rw [size_insert_of_new fun e he => hnew e (mem_evict he), maxEntries_evict]
  exact Int.add_one_le_iff

/-- With fewer live nonces than the maximum, whatever comes fits in. -/
theorem bounded_of_few (hmax : 0 < c.maxEntries) (h : c.Bounded) (hnonce : nonce ≠ "")
    (hfew : ((c.live now).length : Int) < c.maxEntries) :
    (c.checkAndInsert nonce now).1.Bounded := by
  rw [checkAndInsert_of_nonempty hnonce]
  split
  · exact bounded_clean h
  · have hroom : (c.clean now).size < c.maxEntries := by
      by_contra hfull
      have hsize : c.maxEntries ≤ c.size := (not_lt.mp hfull).trans size_clean_le
      -- at the maximum the cache is cleaned, and then holds the live nonces alone
      have hlive : (c.clean now).nonces = c.live now := nonces_clean_of_full hmax hsize
      rw [size, hlive] at hfull
      exact hfull hfew
    show (((c.clean now).evict now).insert nonce now).size ≤ ((c.clean now).evict now).maxEntries
    rw [maxEntries_evict, maxEntries_clean]
    exact size_insert_le.trans (size_evict_le.trans_lt hroom)

/-- With the maximum of live nonces, a new one fits in exactly when one of them is old
enough to be dropped. -/
theorem bounded_iff_of_full (hmax : 0 < c.maxEntries) (h : c.Bounded) (hnonce : nonce ≠ "")
    (hfull : c.maxEntries ≤ (c.live now).length) :
    (c.checkAndInsert nonce now).1.Bounded ↔ c.MakesRoom (.checkAndInsert nonce now) := by
  have hsize : c.maxEntries ≤ c.size :=
    hfull.trans (Int.ofNat_le.mpr (List.length_filter_le _ _))
  have hlive : (c.clean now).nonces = c.live now := nonces_clean_of_full hmax hsize
  have hall : ∀ e ∈ (c.clean now).nonces, now - e.2 ≤ (c.clean now).ttlSeconds := by
    intro e he
    rw [hlive] at he
    rw [ttlSeconds_clean]
    exact of_decide_eq_true (List.mem_filter.mp he).2
  have hfind := @find_any_live _ nonce _ hall
  rw [hlive, ttlSeconds_clean] at hfind
  rw [checkAndInsert_of_nonempty hnonce]
  by_cases hknown : ∃ e ∈ c.live now, e.1 = nonce
  · rw [if_pos (hfind.mpr hknown)]
    refine iff_of_true (bounded_clean h) fun _ hnew => ?_
    obtain ⟨e, he, heq⟩ := hknown
    exact absurd heq (hnew e he)
  · have hnew : ∀ e ∈ c.live now, e.1 ≠ nonce := fun e he heq => hknown ⟨e, he, heq⟩
    have hcount : (c.clean now).size = c.maxEntries := by
      refine le_antisymm (size_clean_le.trans h) ?_
      rw [size, hlive]
      exact hfull
    have hevict := @size_evict_lt_iff (c.clean now) now (by rw [maxEntries_clean, hcount])
    rw [hcount, hlive, ttlSeconds_clean] at hevict
    rw [if_neg (mt hfind.mp hknown), bounded_insert_iff (by rwa [hlive]), maxEntries_clean, hevict]
    exact ⟨fun hold _ _ _ => hold, fun hroom => hroom hnonce hnew hfull⟩

/-- **One call.** Within its maximum, the cache stays so exactly when the call makes
room. -/
theorem step_bounded {call : NonceCall} (hmax : 0 < c.maxEntries) (h : c.Bounded) :
    (calls.step c call).Bounded ↔ c.MakesRoom call := by
  cases call with
  | purgeExpired now => exact iff_of_true (size_purgeExpired_le.trans h) trivial
  | checkAndInsert nonce now =>
      show (c.checkAndInsert nonce now).1.Bounded ↔ _
      by_cases hnonce : nonce = ""
      · refine iff_of_true ?_ fun hne => absurd hnonce hne
        unfold checkAndInsert
        rwa [if_pos hnonce]
      by_cases hfull : c.maxEntries ≤ (c.live now).length
      · exact bounded_iff_of_full hmax h hnonce hfull
      · exact iff_of_true (bounded_of_few hmax h hnonce (not_le.mp hfull))
          fun _ _ h' => absurd h' hfull

theorem step_maxEntries (call : NonceCall) : (calls.step c call).maxEntries = c.maxEntries := by
  cases call with
  | purgeExpired now => rfl
  | checkAndInsert nonce now =>
      show (c.checkAndInsert nonce now).1.maxEntries = c.maxEntries
      unfold checkAndInsert
      dsimp only
      split
      · rfl
      · split
        · exact maxEntries_clean
        · exact maxEntries_evict.trans maxEntries_clean

/-- **The bound of the nonce cache.** It is kept throughout a run exactly when each call
of the run makes room. -/
theorem bounded_iff_makesRoom (ttlSeconds maxEntries : Int) (hmax : 0 < maxEntries)
    (ops : List NonceCall) :
    calls.Always Bounded { ttlSeconds, maxEntries } ops ↔
      calls.Along MakesRoom { ttlSeconds, maxEntries } ops := by
  refine Machine.always_iff_along (W := fun c => 0 < c.maxEntries) ?_ ?_ hmax ?_
  · intro c call h
    rwa [step_maxEntries]
  · intro c call h hbounded
    exact step_bounded h hbounded
  · exact hmax.le

/-- A nonce comes when one of the two remembered is old enough to be dropped. -/
theorem bounded_iff_makesRoom_aged :
    calls.Always Bounded { ttlSeconds := 600, maxEntries := 2 }
      [.checkAndInsert "a" 0, .checkAndInsert "b" 400, .checkAndInsert "c" 500] := by
  refine (bounded_iff_makesRoom 600 2 (by decide) _).mpr ⟨?_, ?_, ?_, trivial⟩
  · intro _ _ hfull
    exact absurd hfull (by decide)
  · intro _ _ hfull
    exact absurd hfull (by decide)
  · intro _ _ _
    exact ⟨("a", 0), by decide, by decide⟩

/-- Three nonces in one second, where two are the maximum. -/
theorem bounded_burst :
    ¬∀ ttlSeconds maxEntries ops, 0 < maxEntries →
      (ops.map NonceCall.time).Pairwise (· ≤ ·) →
      calls.Always Bounded { ttlSeconds, maxEntries } ops := by
  intro h
  have hrun := (h 600 2 [.checkAndInsert "a" 0, .checkAndInsert "b" 0, .checkAndInsert "c" 0]
    (by decide) (by decide)).last
  exact absurd hrun (by unfold Bounded; decide)

end NonceCache

end XYChat.Server
