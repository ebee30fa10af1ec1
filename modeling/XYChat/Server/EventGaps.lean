import XYChat.Lib.Cursor
import XYChat.Server.Ciphertext
import XYChat.Server.SyncEvents

/-!
# No gap in the event streams

Devices read their event streams page by page while events are appended and
expired ones pruned. A device that is behind the watermark is told so; one that
is not misses nothing, as long as everything deleted lies below the watermark
its request compared the cursor with.
-/

namespace XYChat.Server

open XYChat.Lib
open XYChat.Lib.Cursor (Ascending after moved window)

/-! ## The machine -/

/-- A device that reads a stream: it started after the event `start`, stands at
`cursor`, and has received the events `received`; once a reply told it to
synchronise in full, it has stopped. `seen` is history: how many events had been
appended when its last page was read. -/
structure Poller where
  userId : Int
  start : Int
  cursor : Int
  received : List Json := []
  fullSync : Bool := false
  hasMore : Bool := true
  limit : Nat := 200
  phase : Option SyncPhase := none
  seen : Nat := 0

/-- Take up the data of a reply. -/
def Poller.take (p : Poller) (data : Json) (seen : Nat) : Poller :=
  if (data.value "needsFullSync").toBool then { p with fullSync := true, phase := none }
  else
    { p with
      cursor := (data.value "lastSeq").toLongLong
      received := p.received ++ (data.value "events").toArray
      hasMore := (data.value "hasMore").toBool
      phase := none
      seen }

/-- The database, the prune that runs, and the devices. `appended` is history:
every event there ever was. -/
structure EventServer where
  db : Db
  prune : Option PrunePhase := none
  pollers : Nat → Option Poller := fun _ => none
  appended : List SyncEventRow := []

/-- A handler appends an event; a prune starts, or executes a statement; a device
starts from a cursor, asks for the next page, or its request makes its next read;
time passes. -/
inductive EventOp where
  | append (userId : Int) (eventType : String) (payload : Json)
  | startPrune (retentionDays : Int)
  | prune
  | poll (i : Nat) (userId start : Int)
  | request (i : Nat) (limit : Json)
  | read (i : Nat)
  | tick (seconds : Nat)

section

variable (qt : Qt)

def EventServer.setPoller (s : EventServer) (i : Nat) (p : Poller) : EventServer :=
  { s with pollers := Function.update s.pollers i (some p) }

/-- The next read of a device's request, and its reply when it is the last. -/
def Poller.read (db : Db) (seen : Nat) (p : Poller) : Poller :=
  match p.phase with
  | none => p
  | some phase =>
      match phase.step qt p.userId p.cursor p.limit db with
      | .answered data => p.take data seen
      | phase => { p with phase := some phase }

def eventStep (s : EventServer) : EventOp → EventServer
  | .append userId eventType payload =>
      let db := s.db.appendSyncEvent userId eventType payload
      { s with
        db
        appended := s.appended ++ db.syncEvents.rows.drop s.db.syncEvents.rows.length }
  | .startPrune retentionDays =>
      if s.prune.isSome ∨ retentionDays ≤ 0 then s
      else { s with prune := some (.start retentionDays) }
  | .prune =>
      match s.prune with
      | none => s
      | some phase =>
          let (db, phase) := phase.step s.db
          match phase with
          | .done _ => { s with db, prune := none }
          | phase => { s with db, prune := some phase }
  | .poll i userId start => s.setPoller i { userId, start, cursor := start }
  | .request i limit =>
      match s.pollers i with
      | none => s
      | some p =>
          if p.phase.isSome then s
          else
            let request := Json.obj [("afterSeq", .int p.cursor), ("limit", limit)]
            s.setPoller i { p with phase := some .asked, limit := pageLimit request }
  | .read i =>
      match s.pollers i with
      | none => s
      | some p => s.setPoller i (p.read qt s.db s.appended.length)
  | .tick seconds => { s with db := { s.db with now := s.db.now + seconds } }

/-- A database without events, and nobody at work. -/
structure EventServer.Fresh (s : EventServer) : Prop where
  rows : s.db.syncEvents.rows = []
  watermark : s.db.prunedBelowSeq = 0
  prune : s.prune = none
  pollers : ∀ i, s.pollers i = none
  appended : s.appended = []

def eventMachine : Machine EventServer EventOp where
  init := EventServer.Fresh
  step := eventStep qt

/-- The events of a device's user. -/
def Poller.stream (p : Poller) (events : List SyncEventRow) : List SyncEventRow :=
  events.filter (·.userId == p.userId)

/-- A device that was not told to synchronise in full has received each event of
its user between where it started and where it stands, once and in order; and
each after its start that was appended before its last page, once a reply said
that there are no more. -/
structure NoGap (s : EventServer) (p : Poller) : Prop where
  pages : p.received = (window p.start p.cursor (p.stream s.appended)).map (eventJson qt)
  complete : p.hasMore = false →
    p.received = (after p.start (p.stream (s.appended.take p.seen))).map (eventJson qt)

/-- No device misses an event silently, and the streams are in ascending order. -/
structure NoGaps (s : EventServer) : Prop where
  ascending : Ascending s.appended
  devices : ∀ i, ∀ p ∈ s.pollers i, 0 < p.start → p.fullSync = false → NoGap qt s p

/-- What is or will be below the watermark when the running prune has ended. -/
def EventServer.covered (s : EventServer) : Int :=
  match s.prune with
  | some (.deleted _ cutoffSeq) => max s.db.prunedBelowSeq cutoffSeq
  | _ => s.db.prunedBelowSeq

/-- The `DELETE` a prune is at would remove nothing above the cutoff it has
found: no event has expired in between. -/
def DeletesBelow (db : Db) : Option PrunePhase → Prop
  | some (.found retentionDays cutoffSeq) =>
      ∀ e ∈ db.syncEvents.rows, db.isExpired retentionDays e = true → e.seq ≤ cutoffSeq
  | _ => True

/-- The watermark a request has compared with is at least `covered`. -/
def ComparesWith (covered : Int) : Option SyncPhase → Prop
  | some (.compared watermark) => covered ≤ watermark
  | _ => True

/-- No event expires between the statements of a prune, and a page is read under
a watermark that covers all that is deleted. -/
def StepUndisturbed (s : EventServer) : EventOp → Prop
  | .prune => DeletesBelow s.db s.prune
  | .read i => ComparesWith s.covered ((s.pollers i).bind (·.phase))
  | _ => True

end

/-! ## The invariant -/

section

variable (qt : Qt)

/-- What is known of a device: where it stands, and that the watermark its
request has compared with is not above it. -/
structure Sound (s : EventServer) (p : Poller) : Prop where
  seen : p.seen ≤ s.appended.length
  forward : p.start ≤ p.cursor
  known : p.cursor = p.start ∨ p.cursor ≤ s.db.syncEvents.lastId
  compared : ∀ watermark, p.phase = some (.compared watermark) → 0 < p.start →
    watermark ≤ p.cursor
  running : ∀ data, p.phase ≠ some (.answered data)
  gap : 0 < p.start → p.fullSync = false → NoGap qt s p

/-- Above what is covered no event is missing. -/
structure EventInvariant (s : EventServer) : Prop where
  ascending : Ascending s.appended
  bounded : ∀ e ∈ s.appended, e.seq ≤ s.db.syncEvents.lastId
  kept : after s.covered s.db.syncEvents.rows = after s.covered s.appended
  devices : ∀ i, ∀ p ∈ s.pollers i, Sound qt s p

end

section steps

variable {qt : Qt} {s : EventServer}

/-- A step that leaves the history alone, and no device worse off. -/
theorem EventInvariant.of_same {s' : EventServer} (h : EventInvariant qt s)
    (happended : s'.appended = s.appended)
    (hlastId : s'.db.syncEvents.lastId = s.db.syncEvents.lastId)
    (hkept : after s'.covered s'.db.syncEvents.rows = after s'.covered s'.appended)
    (hdevices : ∀ i, ∀ p ∈ s'.pollers i, Sound qt s' p) : EventInvariant qt s' where
  ascending := by
    rw [happended]
    exact h.ascending
  bounded := by
    rw [happended, hlastId]
    exact h.bounded
  kept := hkept
  devices := hdevices

/-- A device is as sound as before where the history and the keys given out are
the same. -/
theorem Sound.of_same {s' : EventServer} {p : Poller} (h : Sound qt s p)
    (happended : s'.appended = s.appended)
    (hlastId : s'.db.syncEvents.lastId = s.db.syncEvents.lastId) : Sound qt s' p where
  seen := by
    rw [happended]
    exact h.seen
  forward := h.forward
  known := by
    rw [hlastId]
    exact h.known
  compared := h.compared
  running := h.running
  gap := by
    intro hstart hfull
    obtain ⟨hpages, hcomplete⟩ := h.gap hstart hfull
    refine ⟨?_, ?_⟩
    · rw [happended]
      exact hpages
    · rw [happended]
      exact hcomplete

/-- One device changes. -/
theorem EventInvariant.setPoller {i : Nat} {p : Poller} (h : EventInvariant qt s)
    (hp : Sound qt (s.setPoller i p) p) : EventInvariant qt (s.setPoller i p) := by
  refine h.of_same rfl rfl h.kept fun j q hq => ?_
  by_cases hj : j = i
  · subst hj
    have hself : Function.update s.pollers j (some p) j = some q := hq
    rw [Function.update_self, Option.some.injEq] at hself
    subst hself
    exact hp
  · have hother : Function.update s.pollers i (some p) j = some q := hq
    rw [Function.update_of_ne hj] at hother
    exact (h.devices j q hother).of_same rfl rfl

/-! ### Appending -/

/-- What an append does: nothing, or one event above all others. -/
theorem appendSyncEvent_cases (userId : Int) (eventType : String) (payload : Json) (db : Db) :
    db.appendSyncEvent userId eventType payload = db ∨
    ∃ e : SyncEventRow, e.seq = db.syncEvents.lastId + 1 ∧
      (db.appendSyncEvent userId eventType payload).syncEvents.rows = db.syncEvents.rows ++ [e] ∧
      (db.appendSyncEvent userId eventType payload).syncEvents.lastId = db.syncEvents.lastId + 1 ∧
      (db.appendSyncEvent userId eventType payload).prunedBelowSeq = db.prunedBelowSeq := by
  unfold Db.appendSyncEvent
  split
  · exact .inr ⟨_, rfl, rfl, rfl, rfl⟩
  · exact .inl rfl

theorem append_invariant (h : EventInvariant qt s) (userId : Int) (eventType : String)
    (payload : Json) : EventInvariant qt (eventStep qt s (.append userId eventType payload)) := by
  unfold eventStep
  dsimp only
  rcases appendSyncEvent_cases userId eventType payload s.db with
    hsame | ⟨e, hseq, hrows, hlastId, hwatermark⟩
  · rw [hsame, List.drop_length, List.append_nil]
    exact h
  rw [hrows, List.drop_left]
  generalize hdb : s.db.appendSyncEvent userId eventType payload = db at hrows hlastId hwatermark ⊢
  have hcovered : EventServer.covered { s with db, appended := s.appended ++ [e] } = s.covered := by
    unfold EventServer.covered
    dsimp only
    rw [hwatermark]
  have hnew : ∀ r ∈ s.appended, key r < key e := by
    intro r hr
    have hr := h.bounded r hr
    simp only [key_syncEventRow]
    omega
  refine ⟨?_, ?_, ?_, fun i p hp => ?_⟩
  · refine List.pairwise_append.mpr ⟨h.ascending, List.pairwise_singleton _ _, fun r hr r' hr' => ?_⟩
    rw [List.mem_singleton.mp hr']
    exact hnew r hr
  · intro r hr
    show r.seq ≤ db.syncEvents.lastId
    rcases List.mem_append.mp hr with hr | hr
    · have hr := h.bounded r hr
      omega
    · rw [List.mem_singleton.mp hr]
      omega
  · rw [hcovered]
    show after s.covered db.syncEvents.rows = after s.covered (s.appended ++ [e])
    rw [hrows]
    unfold after
    rw [List.filter_append, List.filter_append]
    exact congrArg (· ++ _) h.kept
  · have hsound := h.devices i p hp
    refine ⟨?_, hsound.forward, ?_, hsound.compared, hsound.running, fun hstart hfull => ?_⟩
    · have hseen := hsound.seen
      simp only [List.length_append]
      omega
    · refine hsound.known.imp id fun hle => ?_
      show p.cursor ≤ db.syncEvents.lastId
      omega
    · obtain ⟨hpages, hcomplete⟩ := hsound.gap hstart hfull
      refine ⟨?_, fun hdone => ?_⟩
      · -- the new event lies beyond the cursor, unless nothing was read yet
        have hwindow : window p.start p.cursor (p.stream (s.appended ++ [e])) =
            window p.start p.cursor (p.stream s.appended) := by
          unfold Poller.stream
          rw [List.filter_append, List.filter_singleton]
          cases e.userId == p.userId with
          | false => rw [cond_false, List.append_nil]
          | true =>
              refine Cursor.window_append_of_lt fun hlt => ?_
              simp only [key_syncEventRow]
              rcases hsound.known with heq | hle <;> omega
        show p.received = _
        rw [hwindow, hpages]
      · show p.received = (after p.start (p.stream ((s.appended ++ [e]).take p.seen))).map _
        rw [List.take_append_of_le_length hsound.seen]
        exact hcomplete hdone

/-! ### Pruning -/

/-- **A prune** covers what it deletes, if it deletes nothing above its cutoff. -/
theorem prune_invariant (h : EventInvariant qt s) (hop : StepUndisturbed s .prune) :
    EventInvariant qt (eventStep qt s .prune) := by
  unfold eventStep
  dsimp only
  cases hprune : s.prune with
  | none => exact h
  | some phase =>
      have hdevices : ∀ s' : EventServer, s'.pollers = s.pollers → s'.appended = s.appended →
          s'.db.syncEvents.lastId = s.db.syncEvents.lastId →
          ∀ i, ∀ p ∈ s'.pollers i, Sound qt s' p := by
        intro s' hpollers happended hlastId i p hp
        rw [hpollers] at hp
        exact (h.devices i p hp).of_same happended hlastId
      have hkept := h.kept
      unfold EventServer.covered at hkept
      rw [hprune] at hkept
      cases phase with
      | start retentionDays =>
          unfold PrunePhase.step
          dsimp only
          by_cases hnone : s.db.expiredCutoff retentionDays ≤ 0
          · rw [if_pos hnone]
            exact h.of_same rfl rfl hkept (hdevices _ rfl rfl rfl)
          · rw [if_neg hnone]
            exact h.of_same rfl rfl hkept (hdevices _ rfl rfl rfl)
      | found retentionDays cutoffSeq =>
          have hbelow : DeletesBelow s.db s.prune := hop
          rw [hprune] at hbelow
          refine h.of_same rfl rfl ?_ (hdevices _ rfl rfl rfl)
          show after (max s.db.prunedBelowSeq cutoffSeq)
              (s.db.syncEvents.rows.filter fun r => !s.db.isExpired retentionDays r) =
            after (max s.db.prunedBelowSeq cutoffSeq) s.appended
          rw [← Cursor.after_congr hkept (Int.le_max_left _ _)]
          unfold after
          rw [List.filter_filter]
          refine List.filter_congr fun e he => ?_
          cases hexpired : s.db.isExpired retentionDays e with
          | false => simp
          | true =>
              have hle := hbelow e he hexpired
              simp
              omega
      | deleted removed cutoffSeq =>
          exact h.of_same rfl rfl hkept (hdevices _ rfl rfl rfl)
      | done removed => exact h.of_same rfl rfl hkept (hdevices _ rfl rfl rfl)

/-! ### Reading -/

@[simp] theorem needsFullSync_fullSyncData (afterSeq prunedBelow maxSeq : Int) :
    ((fullSyncData afterSeq prunedBelow maxSeq).value "needsFullSync").toBool = true := by
  simp [fullSyncData, Json.value, Json.toBool, List.lookup_cons]

/-- What a device takes from a page. -/
theorem take_pageData (p : Poller) (limit seen : Nat) (events : List SyncEventRow) :
    p.take (pageData qt p.cursor limit events) seen =
      { p with
        cursor := moved p.cursor events
        received := p.received ++ events.map (eventJson qt)
        hasMore := decide (limit ≤ events.length)
        phase := none
        seen } := by
  simp [Poller.take, pageData, Json.value, Json.toBool, Json.toArray, Json.toLongLong,
    List.lookup_cons]
  rfl

/-- **A page** read by a device that nothing covered concerns leaves no gap. -/
theorem page_sound {p : Poller} (h : EventInvariant qt s) (hp : Sound qt s p)
    (hcovered : 0 < p.start → s.covered ≤ p.cursor) :
    Sound qt s (p.take (pageData qt p.cursor p.limit
      (s.db.getSyncEvents p.userId p.cursor p.limit)) s.appended.length) := by
  rw [take_pageData]
  have hpage : s.db.getSyncEvents p.userId p.cursor p.limit =
      (after p.cursor (p.stream s.db.syncEvents.rows)).take p.limit := by
    unfold Db.getSyncEvents after Poller.stream
    rw [List.filter_filter]
    exact congrArg _ (List.filter_congr fun e _ => Bool.and_comm _ _)
  have hforward : p.cursor ≤ moved p.cursor (s.db.getSyncEvents p.userId p.cursor p.limit) := by
    refine Cursor.le_moved fun e he => ?_
    rw [hpage] at he
    exact (Cursor.mem_after.mp (List.mem_of_mem_take he)).2
  refine ⟨Nat.le_refl _, Int.le_trans hp.forward hforward, ?_, by simp, by simp,
    fun hstart hfull => ?_⟩
  · dsimp only
    unfold moved
    cases hlast : (s.db.getSyncEvents p.userId p.cursor p.limit).getLast? with
    | none => exact hp.known
    | some e =>
        have he := List.mem_of_getLast? hlast
        unfold Db.getSyncEvents at he
        exact .inr (s.db.syncEvents.bounded e (List.mem_filter.mp (List.mem_of_mem_take he)).1).2
  · obtain ⟨hpages, -⟩ := hp.gap hstart hfull
    have hstream : Ascending (p.stream s.appended) := List.Pairwise.filter _ h.ascending
    -- nothing the device still wants has been deleted
    have hafter : after p.cursor (p.stream s.db.syncEvents.rows) =
        after p.cursor (p.stream s.appended) := by
      have hrows := Cursor.after_congr h.kept (hcovered hstart)
      unfold after at hrows ⊢
      unfold Poller.stream
      rw [List.filter_comm, hrows, List.filter_comm]
    rw [hafter] at hpage
    have hpages' : p.received ++ (s.db.getSyncEvents p.userId p.cursor p.limit).map (eventJson qt) =
        (window p.start (moved p.cursor (s.db.getSyncEvents p.userId p.cursor p.limit))
          (p.stream s.appended)).map (eventJson qt) := by
      rw [← Cursor.window_append_window hstream hp.forward hforward, List.map_append, hpages]
      congr 2
      rw [hpage]
      exact Cursor.take_after_eq_window hstream p.limit
    refine ⟨hpages', fun hdone => ?_⟩
    have hshort : (s.db.getSyncEvents p.userId p.cursor p.limit).length < p.limit := by
      simpa using hdone
    have hall : s.db.getSyncEvents p.userId p.cursor p.limit =
        after p.cursor (p.stream s.appended) := by
      rw [hpage] at hshort ⊢
      refine List.take_of_length_le ?_
      rw [List.length_take] at hshort
      omega
    dsimp only
    rw [List.take_length, hall, hpages, ← List.map_append,
      Cursor.window_append_after hstream hp.forward]
    rfl

/-- **A read** of a request. -/
theorem read_invariant {i : Nat} (h : EventInvariant qt s) (hop : StepUndisturbed s (.read i)) :
    EventInvariant qt (eventStep qt s (.read i)) := by
  unfold eventStep
  dsimp only
  cases hpoller : s.pollers i with
  | none => exact h
  | some p =>
      have hp := h.devices i p hpoller
      refine h.setPoller (Sound.of_same (s := s) ?_ rfl rfl)
      unfold Poller.read
      cases hphase : p.phase with
      | none => exact hp
      | some phase =>
          cases phase with
          | asked =>
              unfold SyncPhase.step
              dsimp only
              split
              · rename_i data heq
                split at heq <;> cases heq
              · refine ⟨hp.seen, hp.forward, hp.known, fun watermark hwatermark hstart => ?_,
                  fun data hdata => ?_, fun hstart hfull => ?_⟩
                · have hpos : 0 < p.start := hstart
                  simp only [Option.some.injEq] at hwatermark
                  split at hwatermark
                  · cases hwatermark
                  · rename_i hahead
                    cases hwatermark
                    have hforward := hp.forward
                    show s.db.prunedBelowSeq ≤ p.cursor
                    omega
                · simp only [Option.some.injEq] at hdata
                  split at hdata <;> cases hdata
                · obtain ⟨hpages, hcomplete⟩ := hp.gap hstart hfull
                  exact ⟨hpages, hcomplete⟩
          | behind prunedBelow =>
              unfold SyncPhase.step Poller.take
              dsimp only
              rw [if_pos (needsFullSync_fullSyncData _ _ _)]
              exact ⟨hp.seen, hp.forward, hp.known, by simp, by simp, by simp⟩
          | compared watermark =>
              have hcovered : ComparesWith s.covered ((s.pollers i).bind (·.phase)) := hop
              rw [hpoller, Option.bind_some, hphase] at hcovered
              have hle : s.covered ≤ watermark := hcovered
              refine page_sound h hp fun hstart => ?_
              have hcursor := hp.compared watermark hphase hstart
              omega
          | answered data => exact absurd hphase (hp.running data)

/-- **Step lemma.** An undisturbed step keeps the invariant. -/
theorem eventStep_invariant {op : EventOp} (h : EventInvariant qt s) (hop : StepUndisturbed s op) :
    EventInvariant qt (eventStep qt s op) := by
  cases op with
  | append userId eventType payload => exact append_invariant h userId eventType payload
  | prune => exact prune_invariant h hop
  | read i => exact read_invariant h hop
  | startPrune retentionDays =>
      unfold eventStep
      dsimp only
      split
      · exact h
      · rename_i hnone
        have hidle : s.prune = none := by simpa using fun h => hnone (.inl h)
        have hkept := h.kept
        unfold EventServer.covered at hkept
        rw [hidle] at hkept
        exact h.of_same rfl rfl hkept fun i p hp => (h.devices i p hp).of_same rfl rfl
  | poll i userId start =>
      refine h.setPoller ⟨Nat.zero_le _, Int.le_refl _, .inl rfl, by simp, by simp, fun _ _ => ?_⟩
      refine ⟨?_, by simp⟩
      rw [Cursor.window_eq_nil (Int.le_refl _)]
      rfl
  | request i limit =>
      unfold eventStep
      dsimp only
      cases hpoller : s.pollers i with
      | none => exact h
      | some p =>
          dsimp only
          split
          · exact h
          · have hp := h.devices i p hpoller
            refine h.setPoller ⟨hp.seen, hp.forward, hp.known, by simp, by simp,
              fun hstart hfull => ?_⟩
            obtain ⟨hpages, hcomplete⟩ := hp.gap hstart hfull
            exact ⟨hpages, hcomplete⟩
  | tick seconds =>
      exact h.of_same rfl rfl h.kept fun i p hp => (h.devices i p hp).of_same rfl rfl

/-- **No silent gap** in any interleaving of appends, prunes and page reads whose
steps are undisturbed. -/
theorem noGaps_of_undisturbed (s₀ : EventServer) (h₀ : s₀.Fresh) (ops : List EventOp)
    (hops : (eventMachine qt).Along StepUndisturbed s₀ ops) :
    (eventMachine qt).Always (NoGaps qt) s₀ ops := by
  have hinit : EventInvariant qt s₀ := by
    refine ⟨?_, ?_, ?_, fun i p hp => ?_⟩
    · rw [h₀.appended]
      exact List.Pairwise.nil
    · rw [h₀.appended]
      simp
    · rw [h₀.rows, h₀.appended]
    · rw [h₀.pollers i] at hp
      cases hp
  refine (Machine.always_of_along (fun _ _ => eventStep_invariant) hinit hops).mono fun s hs => ?_
  exact ⟨hs.ascending, fun i p hp hstart hfull => (hs.devices i p hp).gap hstart hfull⟩

end steps

/-! ## Two runs -/

instance (db : Db) : ∀ phase, Decidable (DeletesBelow db phase)
  | some (.found retentionDays cutoffSeq) =>
      inferInstanceAs (Decidable (∀ e ∈ db.syncEvents.rows,
        db.isExpired retentionDays e = true → e.seq ≤ cutoffSeq))
  | none => isTrue trivial
  | some (.start _) => isTrue trivial
  | some (.deleted ..) => isTrue trivial
  | some (.done _) => isTrue trivial

instance (covered : Int) : ∀ phase, Decidable (ComparesWith covered phase)
  | some (.compared watermark) => inferInstanceAs (Decidable (covered ≤ watermark))
  | none => isTrue trivial
  | some .asked => isTrue trivial
  | some (.behind _) => isTrue trivial
  | some (.answered _) => isTrue trivial

instance (s : EventServer) : ∀ op, Decidable (StepUndisturbed s op)
  | .prune => inferInstanceAs (Decidable (DeletesBelow s.db s.prune))
  | .read i => inferInstanceAs (Decidable (ComparesWith s.covered ((s.pollers i).bind (·.phase))))
  | .append .. => isTrue trivial
  | .startPrune _ => isTrue trivial
  | .poll .. => isTrue trivial
  | .request .. => isTrue trivial
  | .tick _ => isTrue trivial

/-- A server with one user. -/
def eventServer : EventServer where
  db := { now := 1767225600, users := .ofRows [{ id := 1, username := "alice" }] }

theorem eventServer_fresh : eventServer.Fresh := ⟨rfl, rfl, rfl, fun _ => rfl, rfl⟩

/-- Three events, the first two a second apart, and the third thirty days later. -/
def threeEvents : List EventOp :=
  [ .append 1 "message" (.obj []), .tick 1, .append 1 "message" (.obj []), .tick (86400 * 30)
  , .append 1 "message" (.obj []) ]

/-- The first event has expired. It goes, and a device that had read it reads
on. -/
theorem noGaps_afterPrune :
    (eventMachine sampleQt).Always (NoGaps sampleQt) eventServer
      (threeEvents ++ [.startPrune 30, .prune, .prune, .prune, .poll 0 1 1, .request 0 .null,
        .read 0, .read 0]) :=
  noGaps_of_undisturbed eventServer eventServer_fresh _ (by decide +kernel)

/-- A second passes between the statement that finds the cutoff and the one that
deletes. -/
def tickingPrune : List EventOp :=
  threeEvents ++ [.startPrune 30, .prune, .tick 1, .prune, .prune, .poll 0 1 1, .request 0 .null,
    .read 0, .read 0]

/-- The second event is gone, and the device that had read the first is not
told. -/
theorem tickingPrune_gap : ¬(eventMachine sampleQt).Always (NoGaps sampleQt)
    eventServer tickingPrune := by
  intro h
  have hpoller : (((eventMachine sampleQt).run eventServer tickingPrune).pollers 0).map
      (fun p => (p.start, p.cursor, p.fullSync, p.received.length)) = some (1, 3, false, 1) := by
    decide +kernel
  obtain ⟨p, hp, heq⟩ := Option.map_eq_some_iff.mp hpoller
  simp only [Prod.mk.injEq] at heq
  obtain ⟨hstart, hcursor, hfull, hreceived⟩ := heq
  have hpages := (h.last.devices 0 p hp (by omega) hfull).pages
  have huser : (((eventMachine sampleQt).run eventServer tickingPrune).pollers 0).map (·.userId) =
      some 1 := by decide +kernel
  rw [Option.mem_def.mp hp, Option.map_some, Option.some.injEq] at huser
  have hstream : (window 1 3 (((eventMachine sampleQt).run eventServer tickingPrune).appended.filter
      (·.userId == 1))).length = 2 := by decide +kernel
  have hlength := congrArg List.length hpages
  unfold Poller.stream at hlength
  rw [List.length_map, hstart, hcursor, huser, hstream, hreceived] at hlength
  cases hlength

end XYChat.Server
