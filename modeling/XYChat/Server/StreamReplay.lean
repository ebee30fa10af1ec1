import XYChat.Common.JsonText
import XYChat.Server.MessageRuns

/-!
# Streams and the table of messages

A handler changes the row of a message with one statement and appends an event to the
stream of each member with others, one at a time; the handlers of several connections
interleave. A device that applies its user's events in order shows what the table holds
as long as no stream gets the event of a write after that of a later one.
-/

namespace XYChat.Server

open XYChat.Lib

/-! ## Replaying a stream -/

/-- What an event does to a message as a device shows it, its content and whether it is
deleted: a message is inserted or its content replaced, and an edit or a deletion
updates one that is there. -/
def MessageEvent.apply (content : String) (shown : Option (String × Bool)) :
    MessageEvent → Option (String × Bool)
  | .message => some (content, (shown.map (·.2)).getD false)
  | .edited => shown.map fun p => (content, p.2)
  | .deleted => shown.map fun _ => ("", true)

def SyncEventRow.apply (shown : Option (String × Bool)) (e : SyncEventRow) : Option (String × Bool) :=
  let content := (e.payload.value "content").toStr ""
  if e.eventType = MessageEvent.message.text then MessageEvent.message.apply content shown
  else if e.eventType = MessageEvent.edited.text then MessageEvent.edited.apply content shown
  else if e.eventType = MessageEvent.deleted.text then MessageEvent.deleted.apply content shown
  else shown

/-- Message `i` after the events of user `u`, in the order of their sequence numbers. -/
def Db.replay (db : Db) (u i : Int) : Option (String × Bool) :=
  (db.syncEvents.rows.filter fun e => e.userId == u && e.about == i).foldl SyncEventRow.apply none

/-- User `u` is a member of the message's conversation, and has neither joined nor left
it since the message was stored. -/
def MessageServer.Stays (s : MessageServer) (m : MessageRow) (u : Int) : Prop :=
  s.pool.store.isConversationMember m.conversationId u = true ∧
    ∀ p ∈ s.moved, p.1 = m.conversationId → p.2.1 = u → p.2.2 < m.id

/-- When no handler is at work, the stream of each member shows each message, sent while
it was a member, as the table has it. -/
def StreamsAgree (s : MessageServer) : Prop :=
  (∀ c, ¬s.Busy c) → ∀ m ∈ s.pool.store.messages.rows, ∀ u, s.Stays m u →
    s.pool.store.replay u m.id = some (m.content, m.deleted)

/-- Which write of the run a handler has made, 0 for one that has made none. -/
def Handled.version (r : Handled) : Nat := (r.wrote.map (·.2)).getD 0

/-- The statement appends no event to a stream that already tells of a later write of
the same row, or its event changes nothing there. A handler that has written nothing
tells of a message that another has stored. -/
def StepInOrder (s : MessageServer) : MessageOp → Prop
  | .statement c =>
      ∀ e ∈ eventsBetween s.pool.store (s.statement c).pool.store,
        s.shown e.about e.userId ≤ (s.handled c).version ∨
          (s.statement c).pool.store.replay e.userId e.about =
            s.pool.store.replay e.userId e.about
  | _ => True

/-! ## What a statement does to a stream -/

section

variable {db db' : Db} {i u v : Int}

theorem Db.replay_of_eq (h : db'.syncEvents = db.syncEvents) : db'.replay u i = db.replay u i := by
  unfold Db.replay
  rw [h]

theorem eventsBetween_same (h : db'.syncEvents = db.syncEvents) : eventsBetween db db' = [] := by
  unfold eventsBetween
  rw [h, List.drop_length]

/-- The event that tells `u` of the fan's message. -/
def toldRow (db : Db) (f : Fan) (payload : Json) (u : Int) : SyncEventRow :=
  { seq := db.syncEvents.lastId + 1, userId := u, eventType := f.event.text, payload
    createdAt := db.now }

variable {f : Fan} {payload : Json}

theorem rows_told (huser : (db.users.get v).isSome)
    (h : db'.syncEvents = (db.appendSyncEvent v f.event.text payload).syncEvents) :
    db'.syncEvents.rows = db.syncEvents.rows ++ [toldRow db f payload v] := by
  rw [h]
  unfold Db.appendSyncEvent
  rw [if_pos huser]
  rfl

theorem eventsBetween_told (huser : (db.users.get v).isSome)
    (h : db'.syncEvents = (db.appendSyncEvent v f.event.text payload).syncEvents) :
    eventsBetween db db' = [toldRow db f payload v] := by
  unfold eventsBetween
  rw [rows_told huser h, List.drop_left]

theorem about_told (htells : f.Tells payload) : (toldRow db f payload v).about = f.messageId := by
  unfold SyncEventRow.about toldRow
  rw [htells.messageId]
  rfl

theorem apply_told (htells : f.Tells payload) (shown : Option (String × Bool)) :
    SyncEventRow.apply shown (toldRow db f payload v) = f.event.apply f.content shown := by
  unfold SyncEventRow.apply toldRow
  have hcontent := htells.content
  cases hevent : f.event with
  | message =>
      rw [hevent] at hcontent
      dsimp only
      rw [if_pos rfl, hcontent nofun]
      rfl
  | edited =>
      rw [hevent] at hcontent
      dsimp only
      rw [if_neg (by decide), if_pos rfl, hcontent nofun]
      rfl
  | deleted =>
      dsimp only
      rw [if_neg (by decide), if_neg (by decide), if_pos rfl]
      rfl

/-- Telling `v` of a message changes that message in the stream of `v` only. -/
theorem Db.replay_told (huser : (db.users.get v).isSome) (htells : f.Tells payload)
    (h : db'.syncEvents = (db.appendSyncEvent v f.event.text payload).syncEvents) :
    db'.replay u i =
      if v = u ∧ f.messageId = i then f.event.apply f.content (db.replay u i) else db.replay u i := by
  unfold Db.replay
  rw [rows_told huser h, List.filter_append]
  by_cases hmine : v = u ∧ f.messageId = i
  · rw [if_pos hmine, List.filter_cons_of_pos, List.filter_nil, List.foldl_append]
    · exact apply_told htells _
    · rw [about_told htells, hmine.2]
      simp [toldRow, hmine.1]
  · rw [if_neg hmine, List.filter_cons_of_neg, List.filter_nil, List.append_nil]
    rw [about_told htells]
    simpa [toldRow] using hmine

end

/-! ## The invariant -/

/-- The handler of `c` has made a write of message `i` and has still to tell `u`. -/
structure MustTell (s : MessageServer) (g : Nat → MessageGhost) (c : Nat) (i u : Int) (f : Fan) :
    Prop where
  busy : s.Busy c
  fan : (g c).fan = some f
  own : f.own = true
  about : f.messageId = i
  left : ∀ l, f.left = some l → u ∈ l

/-- A member's stream and the message: the stream tells of no write before it was made;
once it tells of the last, it shows the row, unless it is still without the message;
and who has made that write, or has stored the message, is at work while it does not. -/
structure StreamOf (s : MessageServer) (g : Nat → MessageGhost) (m : MessageRow) (u : Int) : Prop where
  le : s.shown m.id u ≤ s.written m.id
  same : s.shown m.id u = s.written m.id →
    s.pool.store.replay u m.id = some (m.content, m.deleted) ∨ s.pool.store.replay u m.id = none
  owed : s.shown m.id u < s.written m.id →
    ∃ c f, MustTell s g c m.id u f ∧ (s.handled c).version = s.written m.id
  first : s.pool.store.replay u m.id = none → ∃ c f, MustTell s g c m.id u f ∧ f.event = .message
  gone : ∀ content, s.pool.store.replay u m.id = some (content, true) → m.deleted = true

/-- What a handler tells: its own write, which is the row's last or an earlier one, or
that another has stored the message. -/
structure FanOf (s : MessageServer) (c : Nat) (f : Fan) : Prop where
  other : f.own = false → f.event = .message
  made : f.own = true → 0 < (s.handled c).version
  version : f.own = true → (s.handled c).version ≤ s.written f.messageId
  last : f.own = true → (s.handled c).version = s.written f.messageId →
    ∀ m ∈ s.pool.store.messages.rows, m.id = f.messageId →
      m.content = f.content ∧ m.deleted = (f.event == .deleted)
  empty : f.event = .deleted → f.content = ""
  gone : f.event = .deleted → ∀ m ∈ s.pool.store.messages.rows, m.id = f.messageId → m.deleted = true

/-- What holds between the statements while no event comes late. -/
structure StreamInvariant (s : MessageServer) (g : Nat → MessageGhost) : Prop where
  fans : ∀ c, s.Busy c → ∀ f ∈ (g c).fan, FanOf s c f
  streams : ∀ m ∈ s.pool.store.messages.rows, ∀ u, s.Stays m u → StreamOf s g m u
  stored : ∀ m ∈ s.pool.store.messages.rows, 0 < s.written m.id
  count : ∀ i, s.written i ≤ s.count
  fresh : ∀ i, s.pool.store.messages.lastId < i →
    s.written i = 0 ∧ ∀ u, s.shown i u = 0 ∧ s.pool.store.replay u i = none

section

variable {qt : Qt} {s s' : MessageServer} {g g' : Nat → MessageGhost} {c : Nat}

/-! ### What stays as it is -/

/-- Who stays until after a step, and has a message that was there before, stayed before. -/
theorem stays_before {m : MessageRow} {u : Int} (hmoved : ∀ p ∈ s.moved, p ∈ s'.moved)
    (hmembers : ∀ id v, s'.pool.store.isConversationMember id v =
      s.pool.store.isConversationMember id v ∨
      (id, v, s.pool.store.messages.lastId) ∈ s'.moved)
    (hm : m.id ≤ s.pool.store.messages.lastId) (h : s'.Stays m u) : s.Stays m u := by
  refine ⟨?_, fun p hp => h.2 p (hmoved p hp)⟩
  rcases hmembers m.conversationId u with hsame | hmove
  · rw [← hsame]
    exact h.1
  · have hafter : s.pool.store.messages.lastId < m.id := h.2 _ hmove rfl rfl
    omega

theorem StreamOf.transfer {m : MessageRow} {u : Int} (h : StreamOf s g m u)
    (hwritten : s'.written m.id = s.written m.id) (hshown : s'.shown m.id u = s.shown m.id u)
    (hreplay : s'.pool.store.replay u m.id = s.pool.store.replay u m.id)
    (hmust : ∀ c f, MustTell s g c m.id u f → ∃ f', MustTell s' g' c m.id u f' ∧ f'.event = f.event ∧
      (s'.handled c).version = (s.handled c).version) : StreamOf s' g' m u := by
  refine ⟨?_, ?_, fun hlt => ?_, fun hnone => ?_, ?_⟩
  · rw [hwritten, hshown]
    exact h.le
  · rw [hwritten, hshown, hreplay]
    exact h.same
  · rw [hwritten, hshown] at hlt
    obtain ⟨c, f, hf, hversion⟩ := h.owed hlt
    obtain ⟨f', hf', _, hsame⟩ := hmust c f hf
    exact ⟨c, f', hf', by rw [hsame, hversion, hwritten]⟩
  · rw [hreplay] at hnone
    obtain ⟨c, f, hf, hevent⟩ := h.first hnone
    obtain ⟨f', hf', hsame, _⟩ := hmust c f hf
    exact ⟨c, f', hf', hsame.trans hevent⟩
  · rw [hreplay]
    exact h.gone

theorem FanOf.transfer {c' : Nat} {f : Fan} (h : FanOf s c' f)
    (hversion : (s'.handled c').version = (s.handled c').version)
    (hwritten : s'.written f.messageId = s.written f.messageId)
    (hrows : ∀ m ∈ s'.pool.store.messages.rows, m.id = f.messageId →
      m ∈ s.pool.store.messages.rows) : FanOf s' c' f := by
  refine ⟨h.other, ?_, ?_, ?_, h.empty, fun hevent m hm hid => h.gone hevent m (hrows m hm hid) hid⟩
  · rw [hversion]
    exact h.made
  · rw [hversion, hwritten]
    exact h.version
  · rw [hversion, hwritten]
    exact fun hown hlast m hm hid => h.last hown hlast m (hrows m hm hid) hid

/-- Another fan of the same write. -/
theorem FanOf.of_same {f k : Fan} (h : FanOf s c f) (hid : k.messageId = f.messageId)
    (hevent : k.event = f.event) (hcontent : k.content = f.content) (hown : k.own = f.own) :
    FanOf s c k := by
  refine ⟨?_, ?_, ?_, ?_, ?_, ?_⟩
  · rw [hown, hevent]
    exact h.other
  · rw [hown]
    exact h.made
  · rw [hown, hid]
    exact h.version
  · rw [hown, hid, hevent, hcontent]
    exact h.last
  · rw [hevent, hcontent]
    exact h.empty
  · rw [hevent, hid]
    exact h.gone

/-! ### Statements -/

namespace Executes

variable (hexec : Executes qt s s' g g' c)

include hexec

theorem busy_here : s.Busy c := by
  obtain ⟨upd, next, hrunning⟩ := hexec.running
  unfold MessageServer.Busy
  rw [hrunning]
  rfl

theorem mustTell_other {c' : Nat} {i u : Int} {f : Fan} (h : MustTell s g c' i u f) (hne : c' ≠ c) :
    MustTell s' g' c' i u f ∧ (s'.handled c').version = (s.handled c').version := by
  obtain ⟨hhandled, hghost⟩ := hexec.others c' hne
  exact ⟨⟨(hexec.busy c').mpr h.busy, hghost ▸ h.fan, h.own, h.about, h.left⟩, by rw [hhandled]⟩

/-- A statement that writes no row. -/
theorem unwritten (h : (s.handled c).writes s.pool.store s'.pool.store = none) :
    s'.count = s.count ∧ (∀ i, s'.written i = s.written i) ∧
      (s'.handled c).version = (s.handled c).version := by
  refine ⟨by rw [hexec.count, h]; rfl, fun i => by rw [hexec.written, h]; rfl, ?_⟩
  unfold Handled.version
  rw [hexec.here, Handled.wrote_after, h]

/-- A statement that writes the row `i`. -/
theorem wrote {i : Int} (h : (s.handled c).writes s.pool.store s'.pool.store = some i) :
    s'.count = s.count + 1 ∧ s'.written i = s.count + 1 ∧ (∀ j, j ≠ i → s'.written j = s.written j) ∧
      (s'.handled c).version = s.count + 1 := by
  refine ⟨by rw [hexec.count, h]; rfl, by rw [hexec.written, if_pos h], fun j hne => ?_, ?_⟩
  · rw [hexec.written, if_neg]
    rw [h]
    exact fun heq => hne (Option.some.inj heq).symm
  · unfold Handled.version
    rw [hexec.here, Handled.wrote_after, h]
    rfl

/-- A statement that tells nobody. -/
theorem untold (hevents : s'.pool.store.syncEvents = s.pool.store.syncEvents) (i u : Int) :
    s'.shown i u = s.shown i u ∧ s'.pool.store.replay u i = s.pool.store.replay u i := by
  refine ⟨?_, Db.replay_of_eq hevents⟩
  rw [hexec.shown, eventsBetween_same hevents]
  split
  · exact if_neg fun h => Bool.false_ne_true h.2
  · rfl

/-- The fan of the handler, and those of the others, after its statement. -/
theorem fans (hhere : ∀ f' ∈ (g' c).fan, FanOf s' c f')
    (hothers : ∀ c', c' ≠ c → s.Busy c' → ∀ f ∈ (g c').fan, FanOf s' c' f) :
    ∀ c', s'.Busy c' → ∀ f ∈ (g' c').fan, FanOf s' c' f := by
  intro c' hc' f hf
  by_cases heq : c' = c
  · subst heq
    exact hhere f hf
  · rw [(hexec.others c' heq).2] at hf
    exact hothers c' heq ((hexec.busy c').mp hc') f hf

theorem stays {m : MessageRow} {u : Int} (hm : m.id ≤ s.pool.store.messages.lastId)
    (h : s'.Stays m u) : s.Stays m u :=
  stays_before hexec.moved hexec.members hm h

end Executes

/-- A statement that neither writes a row nor tells anyone, and lets nobody out. -/
theorem StreamInvariant.quiet (h : StreamInvariant s g) (hexec : Executes qt s s' g g' c)
    (hmessages : s'.pool.store.messages = s.pool.store.messages)
    (hevents : s'.pool.store.syncEvents = s.pool.store.syncEvents)
    (hwrites : (s.handled c).writes s.pool.store s'.pool.store = none)
    (hfan : ∀ f' ∈ (g' c).fan, FanOf s c f')
    (hmust : ∀ m ∈ s.pool.store.messages.rows, ∀ u, s.Stays m u → ∀ f, MustTell s g c m.id u f →
      ∃ f', MustTell s' g' c m.id u f' ∧ f'.event = f.event) : StreamInvariant s' g' := by
  obtain ⟨hcount, hwritten, hversion⟩ := hexec.unwritten hwrites
  have huntold := hexec.untold hevents
  have hrows : ∀ {i : Int}, ∀ m ∈ s'.pool.store.messages.rows, m.id = i →
      m ∈ s.pool.store.messages.rows := by
    rw [hmessages]
    exact fun m hm _ => hm
  refine ⟨hexec.fans (fun f' hf' => ?_) fun c' hne hc' f hf => ?_, fun m hm u hu => ?_, fun m hm => ?_,
    fun i => ?_, fun i hi => ?_⟩
  · exact (hfan f' hf').transfer hversion (hwritten _) hrows
  · exact (h.fans c' hc' f hf).transfer (by rw [(hexec.others c' hne).1]) (hwritten _) hrows
  · rw [hmessages] at hm
    have hstays := hexec.stays (Table.le_lastId hm) hu
    refine (h.streams m hm u hstays).transfer (hwritten _) (huntold _ _).1 (huntold _ _).2
      fun c' f hf => ?_
    by_cases heq : c' = c
    · subst heq
      obtain ⟨f', hf', hevent⟩ := hmust m hm u hstays f hf
      exact ⟨f', hf', hevent, hversion⟩
    · obtain ⟨hf', hsame⟩ := hexec.mustTell_other hf heq
      exact ⟨f, hf', rfl, hsame⟩
  · rw [hmessages] at hm
    rw [hwritten]
    exact h.stored m hm
  · rw [hwritten, hcount]
    exact h.count i
  · rw [hmessages] at hi
    obtain ⟨hzero, hstream⟩ := h.fresh i hi
    refine ⟨by rw [hwritten, hzero], fun u => ?_⟩
    rw [(huntold i u).1, (huntold i u).2]
    exact hstream u

/-- A statement that stores a message. -/
theorem StreamInvariant.store {m : MessageRow} (h : StreamInvariant s g) (hflow : FlowInvariant qt s g)
    (hexec : Executes qt s s' g g' c) (happended : Appended s.pool.store s'.pool.store m)
    (hevents : s'.pool.store.syncEvents = s.pool.store.syncEvents) (hnone : (g c).fan = none)
    (hlive : m.deleted = false)
    (hfan : (g' c).fan = some ⟨m.id, m.conversationId, .message, m.content, true, none⟩) :
    StreamInvariant s' g' := by
  obtain ⟨hcount, hwritten, hothers, hversion⟩ := hexec.wrote (writes_appended happended)
  have huntold := hexec.untold hevents
  have hid := happended.id
  obtain ⟨hzero, hstream⟩ := h.fresh m.id (by omega)
  have hold : ∀ m' ∈ s.pool.store.messages.rows, m'.id ≠ m.id := by
    intro m' hm' heq
    have hle : m'.id ≤ s.pool.store.messages.lastId := Table.le_lastId hm'
    omega
  refine ⟨hexec.fans (fun f' hf' => ?_) fun c' hne hc' f hf => ?_, fun m' hm' u hu => ?_,
    fun m' hm' => ?_, fun i => ?_, fun i hi => ?_⟩
  · cases hfan.symm.trans hf'
    refine ⟨nofun, fun _ => by omega, fun _ => ?_, fun _ _ m' hm' heq => ?_, nofun, nofun⟩
    · rw [hversion, hwritten]
    · rcases (happended.mem m').mp hm' with hm' | rfl
      · exact absurd heq (hold m' hm')
      · exact ⟨rfl, hlive⟩
  · have hne' : f.messageId ≠ m.id := by
      have := hflow.fan_bound hc' hf
      omega
    refine (h.fans c' hc' f hf).transfer (by rw [(hexec.others c' hne).1]) (hothers _ hne')
      fun m' hm' heq => ?_
    rcases (happended.mem m').mp hm' with hm' | rfl
    · exact hm'
    · exact absurd heq.symm hne'
  · rcases (happended.mem m').mp hm' with hm' | rfl
    · have hstays := hexec.stays (Table.le_lastId hm') hu
      refine (h.streams m' hm' u hstays).transfer (hothers _ (hold m' hm')) (huntold _ _).1
        (huntold _ _).2 fun c' f hf => ?_
      have hne : c' ≠ c := by
        rintro rfl
        cases hnone.symm.trans hf.fan
      obtain ⟨hf', hsame⟩ := hexec.mustTell_other hf hne
      exact ⟨f, hf', rfl, hsame⟩
    · -- nobody has been told of the new message
      obtain ⟨hshown, hreplay⟩ := huntold m'.id u
      rw [(hstream u).1] at hshown
      rw [(hstream u).2] at hreplay
      have hmust : MustTell s' g' c m'.id u _ :=
        ⟨(hexec.busy c).mpr hexec.busy_here, hfan, rfl, rfl, nofun⟩
      refine ⟨by omega, fun _ => .inr hreplay, fun _ => ⟨c, _, hmust, by rw [hversion, hwritten]⟩,
        fun _ => ⟨c, _, hmust, rfl⟩, fun content hsome => ?_⟩
      rw [hreplay] at hsome
      cases hsome
  · rcases (happended.mem m').mp hm' with hm' | rfl
    · rw [hothers _ (hold m' hm')]
      exact h.stored m' hm'
    · omega
  · by_cases heq : i = m.id
    · rw [heq, hwritten, hcount]
    · rw [hothers i heq, hcount]
      exact Nat.le_succ_of_le (h.count i)
  · rw [happended.lastId] at hi
    obtain ⟨hzero', hstream'⟩ := h.fresh i (by omega)
    refine ⟨by rw [hothers i (by omega), hzero'], fun u => ?_⟩
    rw [(huntold i u).1, (huntold i u).2]
    exact hstream' u

/-- A statement that rewrites a row. -/
theorem StreamInvariant.write {f : Fan} (h : StreamInvariant s g) (hexec : Executes qt s s' g g' c)
    (hrewritten : Rewritten s.pool.store s'.pool.store f.messageId f.content (f.event == .deleted))
    (hwrites : (s.handled c).writes s.pool.store s'.pool.store = some f.messageId)
    (hevents : s'.pool.store.syncEvents = s.pool.store.syncEvents) (hnone : (g c).fan = none)
    (hevent : f.event ≠ .message) (hown : f.own = true) (hleft : f.left = none)
    (hlive : f.event = .edited →
      ∀ m ∈ s.pool.store.messages.rows, m.id = f.messageId → m.deleted = false)
    (hempty : f.event = .deleted → f.content = "")
    (hexists : ∃ m ∈ s.pool.store.messages.rows, m.id = f.messageId)
    (hfan : (g' c).fan = some f) : StreamInvariant s' g' := by
  obtain ⟨hcount, hwritten, hothers, hversion⟩ := hexec.wrote hwrites
  have huntold := hexec.untold hevents
  -- what was deleted stays deleted
  have hgone : ∀ m ∈ s.pool.store.messages.rows, m.id = f.messageId → m.deleted = true →
      f.event = .deleted := by
    intro m hm hid hdeleted
    cases hkind : f.event with
    | message => exact absurd hkind hevent
    | edited =>
        rw [hlive hkind m hm hid] at hdeleted
        cases hdeleted
    | deleted => rfl
  refine ⟨hexec.fans (fun f' hf' => ?_) fun c' hne hc' f' hf' => ?_, fun m' hm' u hu => ?_,
    fun m' hm' => ?_, fun i => ?_, fun i hi => ?_⟩
  · cases hfan.symm.trans hf'
    refine ⟨fun h => ?_, fun _ => by omega, fun _ => ?_, fun _ _ m' hm' heq => ?_, hempty,
      fun hdeleted m' hm' heq => ?_⟩
    · rw [hown] at h
      cases h
    · rw [hversion, hwritten]
    · obtain ⟨m, _, hid, _, _, _, _, _, hnew⟩ := hrewritten.mem hm'
      exact hnew (hid.symm.trans heq)
    · obtain ⟨m, _, hid, _, _, _, _, _, hnew⟩ := hrewritten.mem hm'
      rw [(hnew (hid.symm.trans heq)).2, hdeleted]
      rfl
  · have hbefore := h.fans c' hc' f' hf'
    have hsame : (s'.handled c').version = (s.handled c').version := by rw [(hexec.others c' hne).1]
    by_cases heq : f'.messageId = f.messageId
    · -- the other's write is no longer the last
      have hearlier := h.count f'.messageId
      refine ⟨hbefore.other, ?_, fun hown' => ?_, fun hown' hlast => ?_, hbefore.empty,
        fun hdeleted m' hm' hid => ?_⟩
      · rw [hsame]
        exact hbefore.made
      · have := hbefore.version hown'
        rw [hsame, heq, hwritten]
        omega
      · have := hbefore.version hown'
        rw [hsame, heq, hwritten] at hlast
        omega
      · obtain ⟨m, hm, hidm, _, _, _, _, _, hnew⟩ := hrewritten.mem hm'
        have hm_id : m.id = f.messageId := hidm.symm.trans (hid.trans heq)
        have hdel := hgone m hm hm_id (hbefore.gone hdeleted m hm (hm_id.trans heq.symm))
        rw [(hnew hm_id).2, hdel]
        rfl
    · refine hbefore.transfer hsame (hothers _ heq) fun m' hm' hid => ?_
      obtain ⟨m, hm, hidm, _, _, _, _, hkept, _⟩ := hrewritten.mem hm'
      have hne_id : m.id ≠ f.messageId := fun h => heq (hid.symm.trans (hidm.trans h))
      rw [hkept hne_id]
      exact hm
  · obtain ⟨m, hm, hid, hconv, _, _, _, hkept, hnew⟩ := hrewritten.mem hm'
    have hstays : s.Stays m u := by
      refine hexec.stays (Table.le_lastId hm) ?_
      unfold MessageServer.Stays at hu ⊢
      rwa [hid, hconv] at hu
    have hstream := h.streams m hm u hstays
    have hmust : ∀ c' f', MustTell s g c' m.id u f' → c' ≠ c := by
      rintro c' f' hf' rfl
      cases hnone.symm.trans hf'.fan
    by_cases heq : m.id = f.messageId
    · -- the row's stream does not tell of the new write
      obtain ⟨hshown, hreplay⟩ := huntold m.id u
      have hle := hstream.le
      have hcountm := h.count m.id
      have hlt : s'.shown m'.id u < s'.written m'.id := by
        rw [hid, hshown, heq, hwritten, ← heq]
        omega
      refine ⟨Nat.le_of_lt hlt, fun hsame => absurd hsame (Nat.ne_of_lt hlt), fun _ => ?_,
        fun hnone' => ?_, fun content hsome => ?_⟩
      · refine ⟨c, f, ⟨(hexec.busy c).mpr hexec.busy_here, hfan, hown, ?_, ?_⟩, ?_⟩
        · rw [hid, heq]
        · rw [hleft]
          nofun
        · rw [hversion, hid, heq, hwritten]
      · rw [hid, hreplay] at hnone'
        obtain ⟨c', f', hf', hmessage⟩ := hstream.first hnone'
        rw [hid]
        exact ⟨c', f', (hexec.mustTell_other hf' (hmust c' f' hf')).1, hmessage⟩
      · rw [hid, hreplay] at hsome
        rw [(hnew heq).2, hgone m hm heq (hstream.gone content hsome)]
        rfl
    · rw [hkept heq]
      refine hstream.transfer (hothers _ heq) (huntold _ _).1 (huntold _ _).2 fun c' f' hf' => ?_
      obtain ⟨hf'', hsame⟩ := hexec.mustTell_other hf' (hmust c' f' hf')
      exact ⟨f', hf'', rfl, hsame⟩
  · obtain ⟨m, hm, hid, _⟩ := hrewritten.mem hm'
    by_cases heq : m'.id = f.messageId
    · rw [heq, hwritten]
      omega
    · rw [hothers _ heq, hid]
      exact h.stored m hm
  · by_cases heq : i = f.messageId
    · rw [heq, hwritten, hcount]
    · rw [hothers i heq, hcount]
      exact Nat.le_succ_of_le (h.count i)
  · rw [hrewritten.lastId] at hi
    obtain ⟨m, hm, hid⟩ := hexists
    have hle : m.id ≤ s.pool.store.messages.lastId := Table.le_lastId hm
    obtain ⟨hzero, hstream⟩ := h.fresh i hi
    refine ⟨by rw [hothers i (by omega), hzero], fun u => ?_⟩
    rw [(huntold i u).1, (huntold i u).2]
    exact hstream u

/-- What the stream of `u` is told, when the handler of `c` tells `u` of its fan. -/
theorem StreamOf.tell {m : MessageRow} {u : Int} {f : Fan} (h : StreamOf s g m u)
    (hfan : FanOf s c f) (hm : m ∈ s.pool.store.messages.rows) (hid : m.id = f.messageId)
    (hstored : 0 < s.written m.id) (hcond : s.shown m.id u ≤ (s.handled c).version ∨
      s'.pool.store.replay u m.id = s.pool.store.replay u m.id)
    (hreplay : s'.pool.store.replay u m.id = f.event.apply f.content (s.pool.store.replay u m.id))
    (hwritten : s'.written m.id = s.written m.id)
    (hshown : s'.shown m.id u =
      if f.own then max (s.shown m.id u) (s.handled c).version else s.shown m.id u)
    (hversion : f.own = false → (s.handled c).version = 0)
    (hmust : ∀ c' f', MustTell s g c' m.id u f' →
      c' = c ∧ f' = f ∨ MustTell s' g' c' m.id u f' ∧
          (s'.handled c').version = (s.handled c').version) :
    StreamOf s' g' m u := by
  have hle := h.le
  -- a stream that shows a deletion shows one of the row
  have hgone : ∀ content, s'.pool.store.replay u m.id = some (content, true) → m.deleted = true := by
    intro content hsome
    rw [hreplay] at hsome
    cases hbefore : s.pool.store.replay u m.id with
    | none =>
        rw [hbefore] at hsome
        cases hevent : f.event with
        | message =>
            rw [hevent] at hsome
            cases (Prod.mk.inj (Option.some.inj hsome)).2
        | edited =>
            rw [hevent] at hsome
            cases hsome
        | deleted => exact hfan.gone hevent m hm hid
    | some shown =>
        obtain ⟨old, flag⟩ := shown
        rw [hbefore] at hsome
        cases hevent : f.event with
        | message =>
            rw [hevent] at hsome
            obtain ⟨_, hflag⟩ := Prod.mk.inj (Option.some.inj hsome)
            exact h.gone old (hbefore.trans (by rw [← hflag]; rfl))
        | edited =>
            rw [hevent] at hsome
            obtain ⟨_, hflag⟩ := Prod.mk.inj (Option.some.inj hsome)
            exact h.gone old (hbefore.trans (by rw [← hflag]))
        | deleted => exact hfan.gone hevent m hm hid
  -- the last write of the row, told to whom it concerns
  have hlast : f.own = true → (s.handled c).version = s.written m.id →
      s'.pool.store.replay u m.id = some (m.content, m.deleted) ∨
        s'.pool.store.replay u m.id = none := by
    intro hown hversion
    rw [hid] at hversion
    obtain ⟨hcontent, hdeleted⟩ := hfan.last hown hversion m hm hid
    rw [hreplay, hcontent, hdeleted]
    have hlive : f.event ≠ .deleted → ∀ old flag,
        s.pool.store.replay u m.id = some (old, flag) → flag = false := by
      intro hevent old flag hbefore
      cases flag with
      | false => rfl
      | true =>
          rw [h.gone old hbefore] at hdeleted
          exact absurd (beq_iff_eq.mp hdeleted.symm) hevent
    cases hevent : f.event with
    | message =>
        left
        cases hbefore : s.pool.store.replay u m.id with
        | none => rfl
        | some shown =>
            show some (f.content, shown.2) = some (f.content, false)
            rw [hlive (by rw [hevent]; nofun) shown.1 shown.2 hbefore]
    | edited =>
        cases hbefore : s.pool.store.replay u m.id with
        | none => exact .inr rfl
        | some shown =>
            left
            show some (f.content, shown.2) = some (f.content, false)
            rw [hlive (by rw [hevent]; nofun) shown.1 shown.2 hbefore]
    | deleted =>
        rw [hfan.empty hevent]
        cases s.pool.store.replay u m.id with
        | none => exact .inr rfl
        | some shown => exact .inl rfl
  refine ⟨?_, fun hsame => ?_, fun hlt => ?_, fun hnone => ?_, hgone⟩
  · rw [hwritten, hshown]
    split
    · rename_i hown
      have := hfan.version hown
      rw [← hid] at this
      omega
    · exact hle
  · rw [hwritten, hshown] at hsame
    split at hsame
    · rename_i hown
      by_cases hnew : (s.handled c).version = s.written m.id
      · exact hlast hown hnew
      · -- the stream has been told of a later write
        have hver := hfan.version hown
        rw [← hid] at hver
        rcases hcond with hcond | hunchanged
        · omega
        · rw [hunchanged]
          exact h.same (by omega)
    · rename_i hown
      have hzero := hversion (Bool.not_eq_true _ ▸ hown)
      rcases hcond with hcond | hunchanged
      · omega
      · rw [hunchanged]
        exact h.same hsame
  · rw [hwritten, hshown] at hlt
    have hbefore : s.shown m.id u < s.written m.id := by
      split at hlt <;> omega
    obtain ⟨c', f', hf', hver⟩ := h.owed hbefore
    rcases hmust c' f' hf' with ⟨rfl, rfl⟩ | ⟨hf'', hsame⟩
    · rw [if_pos hf'.own] at hlt
      omega
    · exact ⟨c', f', hf'', by rw [hsame, hver, hwritten]⟩
  · rw [hreplay] at hnone
    have hnotnew : f.event ≠ .message := by
      intro hevent
      rw [hevent] at hnone
      cases hnone
    have hbefore : s.pool.store.replay u m.id = none := by
      cases hevent : f.event with
      | message => exact absurd hevent hnotnew
      | edited =>
          rw [hevent] at hnone
          exact Option.map_eq_none_iff.mp hnone
      | deleted =>
          rw [hevent] at hnone
          exact Option.map_eq_none_iff.mp hnone
    obtain ⟨c', f', hf', hmessage⟩ := h.first hbefore
    rcases hmust c' f' hf' with ⟨rfl, rfl⟩ | ⟨hf'', _⟩
    · exact absurd hmessage hnotnew
    · exact ⟨c', f', hf'', hmessage⟩

theorem Accounts.wrote_own {r : Handled} {t : MessageGhost} {f : Fan} (h : Accounts r t)
    (hfan : t.fan = some f) (hown : f.own = true) : r.wrote = some (f.messageId, r.version) := by
  have hwrote := h.wrote
  rw [MessageGhost.written_own hfan hown] at hwrote
  obtain ⟨⟨i, n⟩, hpair, rfl⟩ := Option.map_eq_some_iff.mp hwrote
  unfold Handled.version
  rw [hpair]
  rfl

theorem Accounts.wrote_other {r : Handled} {t : MessageGhost} {f : Fan} (h : Accounts r t)
    (hfan : t.fan = some f) (hown : f.own = false) : r.wrote = none := by
  have hwrote := h.wrote
  rw [MessageGhost.written_other hfan hown] at hwrote
  exact Option.map_eq_none_iff.mp hwrote

/-- What the streams are known to tell after the handler has told `u`. -/
theorem Executes.shown_told {f : Fan} {u : Int} {payload : Json} (hexec : Executes qt s s' g g' c)
    (haccounts : Accounts (s.handled c) (g c)) (hfan : (g c).fan = some f)
    (hwrites : (s.handled c).writes s.pool.store s'.pool.store = none) (htells : f.Tells payload)
    (huser : (s.pool.store.users.get u).isSome)
    (hevents : s'.pool.store.syncEvents =
      (s.pool.store.appendSyncEvent u f.event.text payload).syncEvents) (i v : Int) :
    s'.shown i v = if u = v ∧ f.messageId = i then
      if f.own then max (s.shown i v) (s.handled c).version else s.shown i v
    else s.shown i v := by
  have hwrote : (s'.handled c).wrote = (s.handled c).wrote := by
    rw [hexec.here, Handled.wrote_after, hwrites]
  rw [hexec.shown, hwrote, eventsBetween_told huser hevents]
  cases hown : f.own with
  | false =>
      rw [haccounts.wrote_other hfan hown, if_neg Bool.false_ne_true, ite_self]
  | true =>
      rw [haccounts.wrote_own hfan hown, if_pos rfl]
      dsimp only
      refine if_congr ?_ rfl rfl
      rw [List.any_cons, List.any_nil, Bool.or_false, about_told htells]
      show _ ∧ (u == v && f.messageId == i) = true ↔ _
      rw [Bool.and_eq_true, beq_iff_eq, beq_iff_eq]
      exact ⟨fun h => h.2, fun h => ⟨h.2, h⟩⟩

/-- A statement that tells one member, whose stream is not ahead. -/
theorem StreamInvariant.tell {f : Fan} {u : Int} {l : List Int} {payload : Json}
    (h : StreamInvariant s g) (hflow : FlowInvariant qt s g) (hexec : Executes qt s s' g g' c)
    (hmessages : s'.pool.store.messages = s.pool.store.messages)
    (hwrites : (s.handled c).writes s.pool.store s'.pool.store = none)
    (hfan : (g c).fan = some f) (hleft : f.left = some (u :: l)) (htells : f.Tells payload)
    (hevents : s'.pool.store.syncEvents =
      (s.pool.store.appendSyncEvent u f.event.text payload).syncEvents)
    (hfan' : (g' c).fan = some { f with left := some l })
    (hcond : s.shown f.messageId u ≤ (s.handled c).version ∨
      s'.pool.store.replay u f.messageId = s.pool.store.replay u f.messageId) :
    StreamInvariant s' g' := by
  have hc := hexec.busy_here
  have haccounts := hflow.accounts c hc
  have hknown := (hflow.knows hc).fan f hfan
  have huser := hknown.2 _ hleft u List.mem_cons_self
  obtain ⟨hcount, hwritten, hversion⟩ := hexec.unwritten hwrites
  have hshown := hexec.shown_told haccounts hfan hwrites htells huser hevents
  have hreplay : ∀ v i, s'.pool.store.replay v i =
      if u = v ∧ f.messageId = i then f.event.apply f.content (s.pool.store.replay v i)
      else s.pool.store.replay v i := fun v i => Db.replay_told huser htells hevents
  have hbefore := h.fans c hc f hfan
  have hrows : ∀ {i : Int}, ∀ m ∈ s'.pool.store.messages.rows, m.id = i →
      m ∈ s.pool.store.messages.rows := by
    rw [hmessages]
    exact fun m hm _ => hm
  refine ⟨hexec.fans (fun f' hf' => ?_) fun c' hne hc' f' hf' => ?_, fun m hm v hv => ?_,
    fun m hm => ?_, fun i => ?_, fun i hi => ?_⟩
  · cases hfan'.symm.trans hf'
    exact (hbefore.of_same (k := { f with left := some l }) rfl rfl rfl rfl).transfer hversion
      (hwritten _) hrows
  · exact (h.fans c' hc' f' hf').transfer (by rw [(hexec.others c' hne).1]) (hwritten _) hrows
  · rw [hmessages] at hm
    have hstream := h.streams m hm v (hexec.stays (Table.le_lastId hm) hv)
    by_cases hmine : u = v ∧ f.messageId = m.id
    · obtain ⟨rfl, hid⟩ := hmine
      refine hstream.tell hbefore hm hid.symm (h.stored m hm) (hid ▸ hcond) ?_ (hwritten _) ?_
        (fun hown => ?_) fun c' f' hf' => ?_
      · rw [hreplay, if_pos ⟨rfl, hid⟩]
      · rw [hshown, if_pos ⟨rfl, hid⟩]
      · unfold Handled.version
        rw [haccounts.wrote_other hfan hown]
        rfl
      · by_cases heq : c' = c
        · subst heq
          exact .inl ⟨rfl, Option.some.inj (hf'.fan.symm.trans hfan)⟩
        · exact .inr (hexec.mustTell_other hf' heq)
    · refine hstream.transfer (hwritten _) (by rw [hshown, if_neg hmine])
        (by rw [hreplay, if_neg hmine]) fun c' f' hf' => ?_
      by_cases heq : c' = c
      · subst heq
        obtain rfl := Option.some.inj (hf'.fan.symm.trans hfan)
        refine ⟨_, ⟨(hexec.busy c').mpr hc, hfan', hf'.own, hf'.about, ?_⟩, rfl, hversion⟩
        rintro _ ⟨⟩
        rcases List.mem_cons.mp (hf'.left _ hleft) with hv | hv
        · exact absurd ⟨hv.symm, hf'.about⟩ hmine
        · exact hv
      · obtain ⟨hf'', hsame⟩ := hexec.mustTell_other hf' heq
        exact ⟨f', hf'', rfl, hsame⟩
  · rw [hmessages] at hm
    rw [hwritten]
    exact h.stored m hm
  · rw [hwritten, hcount]
    exact h.count i
  · rw [hmessages] at hi
    have hbound := hflow.fan_bound hc hfan
    obtain ⟨hzero, hstream⟩ := h.fresh i hi
    refine ⟨by rw [hwritten, hzero], fun v => ?_⟩
    have hne : ¬(u = v ∧ f.messageId = i) := by omega
    rw [hshown, if_neg hne, hreplay, if_neg hne]
    exact hstream v

/-- The handler reads whom to tell: nobody who stays is left out. -/
theorem mustTell_audience {f : Fan} {l : List Int} {m : MessageRow} {u : Int}
    (hflow : FlowInvariant qt s g) (hexec : Executes qt s s' g g' c)
    (hm : m ∈ s.pool.store.messages.rows) (hu : s.Stays m u) (hfan : (g c).fan = some f)
    (hmembers : f.own = true →
      ∀ u, u ∈ l ↔ s.pool.store.isConversationMember f.conversationId u = true)
    (hfan' : (g' c).fan = some { f with left := some l }) {f₀ : Fan} (h : MustTell s g c m.id u f₀) :
    ∃ f', MustTell s' g' c m.id u f' ∧ f'.event = f₀.event := by
  obtain rfl := Option.some.inj (hfan.symm.trans h.fan)
  refine ⟨_, ⟨(hexec.busy c).mpr hexec.busy_here, hfan', h.own, h.about, ?_⟩, rfl⟩
  rintro _ ⟨⟩
  obtain ⟨⟨m', hm', hid, hconv⟩, _⟩ := (hflow.knows hexec.busy_here).fan f hfan
  obtain rfl : m' = m := Table.key_inj hm' hm (hid.trans h.about)
  rw [hmembers h.own, ← hconv h.own]
  exact hu.1

/-- A statement of a handler, with which no event comes late. -/
theorem StreamInvariant.statement (h : StreamInvariant s g) (hflow : FlowInvariant qt s g)
    (hexec : Executes qt s s' g g' c)
    (hcond : ∀ e ∈ eventsBetween s.pool.store s'.pool.store,
      s.shown e.about e.userId ≤ (s.handled c).version ∨
        s'.pool.store.replay e.userId e.about = s.pool.store.replay e.userId e.about) :
    StreamInvariant s' g' := by
  have hc := hexec.busy_here
  have haccounts := hflow.accounts c hc
  have hkeeps : (g' c).fan = (g c).fan → (∀ f' ∈ (g' c).fan, FanOf s c f') ∧
      ∀ m ∈ s.pool.store.messages.rows, ∀ u, s.Stays m u → ∀ f, MustTell s g c m.id u f →
        ∃ f', MustTell s' g' c m.id u f' ∧ f'.event = f.event := by
    intro hsame
    rw [hsame]
    exact ⟨h.fans c hc, fun m _ u _ f hf => ⟨f, ⟨(hexec.busy c).mpr hc, hsame ▸ hf.fan, hf.own,
      hf.about, hf.left⟩, rfl⟩⟩
  have hstep := hexec.statement
  generalize ht : g' c = t at hstep
  cases hstep with
  | quiet _ members messages syncEvents rewrites task executed conv learns knows =>
      have hwrites := haccounts.writes_none messages rewrites
      generalize hfan' : t.fan = fan' at learns
      rw [← ht] at hfan'
      cases learns with
      | nothing =>
          obtain ⟨hfans, hmust⟩ := hkeeps hfan'
          exact h.quiet hexec messages syncEvents hwrites hfans hmust
      | audience f l hfan hleft nodup members =>
          refine h.quiet hexec messages syncEvents hwrites (fun f' hf' => ?_)
            fun m hm u hu f₀ hf₀ => mustTell_audience hflow hexec hm hu hfan members hfan' hf₀
          cases hfan'.symm.trans hf'
          exact (h.fans c hc f hfan).of_same rfl rfl rfl rfl
      | other f hfan kind event own ready taken =>
          refine h.quiet hexec messages syncEvents hwrites (fun f' hf' => ?_)
            fun m hm u hu f₀ hf₀ => ?_
          · cases hfan'.symm.trans hf'
            refine ⟨fun _ => event, ?_, ?_, ?_, ?_, ?_⟩
            · rw [own]
              nofun
            · rw [own]
              nofun
            · rw [own]
              nofun
            · rw [event]
              nofun
            · rw [event]
              nofun
          · cases hfan.symm.trans hf₀.fan
  | create id members messages syncEvents kind =>
      obtain ⟨hfans, hmust⟩ := hkeeps (by rw [ht]; rfl)
      exact h.quiet hexec messages syncEvents
        (haccounts.writes_none messages (Task.rewrites_send kind _ _)) hfans hmust
  | join id u l hconv hl new exist kind members messages syncEvents =>
      obtain ⟨hfans, hmust⟩ := hkeeps (by rw [ht]; rfl)
      exact h.quiet hexec messages syncEvents
        (haccounts.writes_none messages (Task.rewrites_send kind _ _)) hfans hmust
  | store m members syncEvents appended kind fan owns live ready =>
      exact h.store hflow hexec appended syncEvents fan live (by rw [ht])
  | write f members syncEvents rewrites fan messageId own left conversation event live empty
      rewritten =>
      obtain ⟨m, hm, hid, _⟩ := conversation
      refine h.write hexec rewritten ?_ syncEvents fan event own left live empty ⟨m, hm, hid⟩
        (by rw [ht])
      rw [messageId]
      exact haccounts.writes_rewritten rewrites rewritten
  | tell f u l payload members messages fan left rewrites tells syncEvents =>
      have huser := ((hflow.knows hc).fan f fan).2 _ left u List.mem_cons_self
      refine h.tell hflow hexec messages (haccounts.writes_none messages rewrites) fan left tells
        syncEvents (by rw [ht]) ?_
      have hevent := hcond (toldRow s.pool.store f payload u)
        (by rw [eventsBetween_told huser syncEvents]; exact List.mem_singleton_self _)
      rwa [about_told tells] at hevent

/-! ### The other steps -/

/-- A connection sends the answer of its handler, which has told everyone. -/
theorem StreamInvariant.answer {k : Connection × Option Response} (h : StreamInvariant s g)
    (hanswers : Answers s s' g c k) : StreamInvariant s' g := by
  have hbusy : ∀ {c'}, s'.Busy c' → s.Busy c' := fun hc' => ((hanswers.busy _).mp hc').1
  obtain ⟨o, rfl, hended⟩ := hanswers.answered
  have hstays : ∀ {m u}, s'.Stays m u → s.Stays m u := by
    intro m u hu
    unfold MessageServer.Stays at hu ⊢
    rwa [hanswers.store, hanswers.moved] at hu
  refine ⟨fun c' hc' f hf => ?_, fun m hm u hu => ?_, ?_, ?_, ?_⟩
  · refine (h.fans c' (hbusy hc') f hf).transfer (by rw [hanswers.handled]) (by rw [hanswers.written])
      fun m hm _ => ?_
    rwa [hanswers.store] at hm
  · rw [hanswers.store] at hm
    refine (h.streams m hm u (hstays hu)).transfer (by rw [hanswers.written]) (by rw [hanswers.shown])
      (by rw [hanswers.store]) fun c' f hf => ?_
    have hne : c' ≠ c := by
      rintro rfl
      cases hf.left _ (hended.told f hf.fan)
    exact ⟨f, ⟨(hanswers.busy c').mpr ⟨hf.busy, hne⟩, hf.fan, hf.own, hf.about, hf.left⟩, rfl,
      by rw [hanswers.handled]⟩
  · rw [hanswers.store, hanswers.written]
    exact h.stored
  · rw [hanswers.written, hanswers.count]
    exact h.count
  · rw [hanswers.store, hanswers.written, hanswers.shown]
    exact h.fresh

/-- A step that is no statement. -/
theorem StreamInvariant.undisturbed (h : StreamInvariant s g) (hun : Undisturbed s s' g g') :
    StreamInvariant s' g' := by
  have hmessages := hun.outside.messages
  have hreplay : ∀ u i, s'.pool.store.replay u i = s.pool.store.replay u i :=
    fun u i => Db.replay_of_eq hun.outside.syncEvents
  refine ⟨fun c hc f hf => ?_, fun m hm u hu => ?_, ?_, ?_, fun i hi => ?_⟩
  · rcases hun.started c hc with hbusy | ⟨task, _, hghost⟩
    · obtain ⟨_, hhandled, hghost⟩ := hun.busy c hbusy
      rw [hghost] at hf
      refine (h.fans c hbusy f hf).transfer (by rw [hhandled]) (by rw [hun.written]) fun m hm _ => ?_
      rwa [hmessages] at hm
    · rw [hghost] at hf
      cases hf
  · rw [hmessages] at hm
    have hstays : s.Stays m u := stays_before hun.moved hun.members (Table.le_lastId hm) hu
    refine (h.streams m hm u hstays).transfer (by rw [hun.written]) (by rw [hun.shown]) (hreplay _ _)
      fun c f hf => ?_
    obtain ⟨hbusy, hhandled, hghost⟩ := hun.busy c hf.busy
    exact ⟨f, ⟨hbusy, hghost ▸ hf.fan, hf.own, hf.about, hf.left⟩, rfl, by rw [hhandled]⟩
  · rw [hmessages, hun.written]
    exact h.stored
  · rw [hun.written, hun.count]
    exact h.count
  · rw [hmessages] at hi
    obtain ⟨hzero, hstream⟩ := h.fresh i hi
    refine ⟨by rw [hun.written, hzero], fun u => ?_⟩
    rw [hun.shown, hreplay]
    exact hstream u

theorem MessageServer.Fresh.streams (h : s.Fresh) (g : Nat → MessageGhost) : StreamInvariant s g := by
  refine ⟨fun c hc => ?_, ?_, ?_, fun i => ?_, fun i _ => ⟨h.written i, fun u => ⟨h.shown i u, ?_⟩⟩⟩
  · unfold MessageServer.Busy at hc
    rw [h.idle c] at hc
    cases hc
  · rw [h.messages]
    exact List.forall_mem_nil _
  · rw [h.messages]
    exact List.forall_mem_nil _
  · rw [h.written]
    exact Nat.zero_le _
  · unfold Db.replay
    rw [h.syncEvents]
    rfl

/-- Where nobody is at work, all have been told of the last write. -/
theorem StreamInvariant.agree (h : StreamInvariant s g) : StreamsAgree s := by
  intro hidle m hm u hu
  have hstream := h.streams m hm u hu
  have hlast : s.shown m.id u = s.written m.id := by
    refine Nat.le_antisymm hstream.le (Nat.not_lt.mp fun hlt => ?_)
    obtain ⟨c, f, hf, _⟩ := hstream.owed hlt
    exact hidle c hf.busy
  rcases hstream.same hlast with hsame | hnone
  · exact hsame
  · obtain ⟨c, f, hf, _⟩ := hstream.first hnone
    exact absurd hf.busy (hidle c)

/-- There are ghost states for which the invariants hold. -/
def Streams (qt : Qt) (s : MessageServer) : Prop :=
  ∃ g, FlowInvariant qt s g ∧ StreamInvariant s g

/-- **Step lemma.** A step with which no event comes late keeps the invariant. -/
theorem messageStep_streams {op : MessageOp} (h : Streams qt s) (hop : StepInOrder s op) :
    Streams qt (messageStep qt s op) := by
  obtain ⟨g, hflow, hstream⟩ := h
  obtain ⟨g', hflow', hcases⟩ := messageStep_cases hflow op
  refine ⟨g', hflow', ?_⟩
  rcases hcases with hun | ⟨c, rfl, hexec⟩ | ⟨c, k, rfl, rfl, hanswers⟩
  · exact hstream.undisturbed hun
  · exact hstream.statement hflow hexec hop
  · exact hstream.answer hanswers

/-- **Streams replay to the table**, in any interleaving in which no stream gets the event
of a write after that of a later one, or that of a retry after any. -/
theorem streamsAgree_of_inOrder (qt : Qt) (s₀ : MessageServer) (h₀ : s₀.Fresh) (ops : List MessageOp)
    (hops : (messageMachine qt).Along StepInOrder s₀ ops) :
    (messageMachine qt).Always StreamsAgree s₀ ops := by
  have hinit : Streams qt s₀ := ⟨fun _ => {}, h₀.flow _, h₀.streams _⟩
  refine (Machine.always_of_along (fun _ _ => messageStep_streams) hinit hops).mono fun s hs => ?_
  obtain ⟨g, _, hstream⟩ := hs
  exact hstream.agree

end

/-! ## Connections that nothing happens on -/

/-- The connection that a step is about. -/
def MessageOp.connection : MessageOp → Option Nat
  | .connect c _ => some c
  | .request c .. => some c
  | .statement c => some c
  | _ => none

theorem messageStep_elsewhere (qt : Qt) (s : MessageServer) {op : MessageOp} {c : Nat}
    (h : op.connection ≠ some c) : (messageStep qt s op).pool.workers c = s.pool.workers c := by
  have hother : ∀ {c'}, op.connection = some c' → c ≠ c' := by
    rintro c' hc' rfl
    exact h hc'
  cases op with
  | register username passwordHash => rfl
  | createGroup => rfl
  | join id u role =>
      rw [messageStep_join]
      split <;> rfl
  | leave id u =>
      rw [messageStep_leave]
      split <;> rfl
  | prekeys table =>
      rw [messageStep_prekeys]
      split <;> rfl
  | tick seconds => rfl
  | connect c' conn =>
      rw [messageStep_connect]
      split
      · rfl
      · exact Function.update_of_ne (hother rfl) _ _
  | request c' kind requestId request =>
      rw [messageStep_request]
      dsimp only
      split
      · rfl
      · exact Function.update_of_ne (hother rfl) _ _
  | statement c' =>
      show ((s.statement c').pool.workers c) = _
      unfold MessageServer.statement
      split
      · rfl
      · unfold Pool.advance
        split
        · rfl
        · exact Function.update_of_ne (hother rfl) _ _
        · exact Function.update_of_ne (hother rfl) _ _
      · unfold Pool.advance
        split
        · rfl
        · exact Function.update_of_ne (hother rfl) _ _
        · exact Function.update_of_ne (hother rfl) _ _

theorem run_elsewhere (qt : Qt) (s : MessageServer) {ops : List MessageOp} {c : Nat}
    (h : ∀ op ∈ ops, op.connection ≠ some c) :
    ((messageMachine qt).run s ops).pool.workers c = s.pool.workers c := by
  induction ops generalizing s with
  | nil => rfl
  | cons op ops ih =>
      rw [Machine.run_cons, ih _ fun op' hop' => h op' (List.mem_cons_of_mem _ hop')]
      exact messageStep_elsewhere qt s (h op List.mem_cons_self)

/-! ## Two runs -/

instance (s : MessageServer) : ∀ op, Decidable (StepInOrder s op)
  | .statement c => inferInstanceAs (Decidable (∀ e ∈
      eventsBetween s.pool.store (s.statement c).pool.store,
        s.shown e.about e.userId ≤ (s.handled c).version ∨
          (s.statement c).pool.store.replay e.userId e.about =
            s.pool.store.replay e.userId e.about))
  | .register .. => isTrue trivial
  | .createGroup => isTrue trivial
  | .join .. => isTrue trivial
  | .leave .. => isTrue trivial
  | .prekeys _ => isTrue trivial
  | .tick _ => isTrue trivial
  | .connect .. => isTrue trivial
  | .request .. => isTrue trivial

instance (s : MessageServer) (m : MessageRow) (u : Int) : Decidable (s.Stays m u) :=
  inferInstanceAs (Decidable (_ ∧ _))

/-- An envelope for one device, with this ciphertext. -/
def envelopeOf (ct : String) : Json := .obj
  [ ("devices", .arr [.obj
      [ ("ct", .str ct)
      , ("deviceId", .str "B")
      , ("eph", .str "AAAAAAAAAAAAAAAAAAAAAAAAAAAAAAAAAAAAAAAAAAA=")
      , ("iv", .str "AAAAAAAAAAAAAAAA")
      , ("prekeyId", .int 1) ]])
  , ("v", .int 1) ]

def secondText : Json := envelopeOf "AAAAAAAAAAAAAAAAAAAAAA=="

def thirdText : Json := envelopeOf "AQEBAQEBAQEBAQEBAQEBAQ=="

def editsQt : Qt := Qt.ofDocuments [secondText, thirdText]

/-- Alice and bob in a group, two devices of alice's, and a message of hers. -/
def groupAndMessage : List MessageOp :=
  [ .register "alice" "", .register "bob" "", .createGroup, .join 1 1 .owner, .join 1 2 .member
  , .connect 0 { authenticatedUserId := 1, currentDeviceId := "phone" }
  , .connect 1 { authenticatedUserId := 1, currentDeviceId := "tablet" }
  , .request 0 .sendMessage 1 (.obj
      [ ("clientMessageId", .str "m1"), ("conversationId", .int 1), ("content", .str "first") ]) ]
    ++ List.replicate 13 (.statement 0)

/-- Connection `c` takes up an edit of the message. -/
def editsTo (c requestId : Nat) (content : Json) : MessageOp :=
  .request c .editMessage requestId (.obj
    [("messageId", .int 1), ("content", .str content.text), ("contentType", .str "text")])

/-- An edit on each device, one after the other, and a deletion. -/
def editsInTurn : List MessageOp :=
  groupAndMessage ++ editsTo 0 2 secondText :: List.replicate 7 (.statement 0)
    ++ editsTo 1 3 thirdText :: List.replicate 7 (.statement 1)
    ++ .request 0 .deleteMessage 4 (.obj [("messageId", .int 1)]) :: List.replicate 7 (.statement 0)

/-- The second edit is stored and told between the first's `UPDATE` and its events. -/
def editsCrossing : List MessageOp :=
  groupAndMessage ++ editsTo 0 2 secondText :: editsTo 1 3 thirdText
      :: List.replicate 2 (.statement 0)
    ++ List.replicate 7 (.statement 1) ++ List.replicate 5 (.statement 0)

theorem editsInTurn_agree :
    (messageMachine editsQt).Always StreamsAgree emptyMessageServer editsInTurn :=
  streamsAgree_of_inOrder editsQt emptyMessageServer emptyMessageServer_fresh editsInTurn
    (by decide +kernel)

/-- The table holds the second edit, and both streams end with the first. -/
theorem editsCrossing_disagree :
    ¬(messageMachine editsQt).Always StreamsAgree emptyMessageServer editsCrossing := by
  intro halways
  have hend := Machine.always_iff_prefixes.mp halways _ (List.prefix_refl _)
  have hidle : ∀ c, ¬((messageMachine editsQt).run emptyMessageServer editsCrossing).Busy c := by
    intro c
    by_cases h : c = 0 ∨ c = 1
    · rcases h with rfl | rfl <;> exact Bool.not_eq_true _ ▸ (by decide +kernel)
    · have hops : ∀ op ∈ editsCrossing, op.connection = none ∨ op.connection = some 0 ∨
          op.connection = some 1 := by
        decide
      have hother : ∀ op ∈ editsCrossing, op.connection ≠ some c := by
        intro op hop heq
        have := hops op hop
        rw [heq] at this
        simp only [reduceCtorEq, Option.some.injEq, false_or] at this
        exact h this
      unfold MessageServer.Busy
      rw [run_elsewhere editsQt emptyMessageServer hother]
      exact Bool.false_ne_true
  have hrow : ∃ m ∈ ((messageMachine editsQt).run emptyMessageServer
      editsCrossing).pool.store.messages.rows, ((messageMachine editsQt).run emptyMessageServer
        editsCrossing).Stays m 2 ∧ ((messageMachine editsQt).run emptyMessageServer
          editsCrossing).pool.store.replay 2 m.id ≠ some (m.content, m.deleted) := by
    decide +kernel
  obtain ⟨m, hm, hstays, hne⟩ := hrow
  exact hne (hend hidle m hm 2 hstays)

end XYChat.Server
