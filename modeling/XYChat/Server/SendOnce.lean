import XYChat.Server.MessageRuns

/-!
# A message is sent once

A client that has no answer sends its message again, with the same id of its own. The
server looks that key up before it stores the message, and a unique index keeps a second
row of the same key out; the events for the members are appended afterwards, by the
handler that believes to have stored the message.
-/

namespace XYChat.Server

open XYChat.Lib

instance (k : Task) (m : MessageRow) : Decidable (k.Owns m) :=
  decidable_of_iff (m.senderId = k.conn.authenticatedUserId ∧
      m.senderDeviceId = Db.nullable k.conn.currentDeviceId ∧
      m.clientMessageId = some k.clientMessageId)
    ⟨fun h => ⟨h.1, h.2.1, h.2.2⟩, fun h => ⟨h.sender, h.device, h.clientId⟩⟩

/-- The two rows have one sender, device and client id. -/
structure MessageRow.SameKey (m m' : MessageRow) : Prop where
  sender : m.senderId = m'.senderId
  device : m.senderDeviceId = m'.senderDeviceId
  clientId : m.clientMessageId = m'.clientMessageId

/-- How many `message` events about message `i` user `u` has. -/
def Db.told (db : Db) (i u : Int) : Nat :=
  db.syncEvents.rows.countP fun e =>
    e.userId == u && e.eventType == MessageEvent.message.text && e.about == i

/-- Each of the users has one `message` event about message `i`, and nobody else has one. -/
def Db.ToldOnce (db : Db) (i : Int) (users : List Int) : Prop :=
  ∀ u, db.told i u = if u ∈ users then 1 else 0

/-- At most one row is stored for each key; every reply to a send that succeeded carries
the id of the row of its key; and of each row either its handler is still at work, or
those who were members at one of the handler's statements have one event each. -/
structure SentOnce (s : MessageServer) : Prop where
  once : ∀ m ∈ s.pool.store.messages.rows, ∀ m' ∈ s.pool.store.messages.rows,
    m.SameKey m' → m = m'
  reply : ∀ p ∈ s.replies, p.1.kind = .sendMessage → p.2.code = .ok →
    ∃ m ∈ s.pool.store.messages.rows, p.1.Owns m ∧ p.2.data.value "messageId" = .int m.id
  told : ∀ p ∈ s.sent, ∃ members ∈ p.2, s.pool.store.ToldOnce p.1 members
  rows : ∀ m ∈ s.pool.store.messages.rows, (∃ p ∈ s.sent, p.1 = m.id) ∨
    ∃ c, s.Busy c ∧ (s.handled c).stored = some m.id

/-- Connection `c` is to execute a statement of a send whose checks are done and whose
message it has not stored, and a message of that key is stored. -/
def MessageServer.overtaken (qt : Qt) (s : MessageServer) (c : Nat) : Bool :=
  match (s.pool.workers c).running with
  | some (.stmt _ _) =>
      (s.handled c).task.kind == .sendMessage && (s.handled c).stored.isNone
        && decide ((s.handled c).task.checks qt ≤ (s.handled c).executed)
        && s.pool.store.messages.rows.any fun m => decide ((s.handled c).task.Owns m)
  | _ => false

/-- The handler at work is not overtaken. -/
def StepSendsOnce (qt : Qt) (s : MessageServer) : MessageOp → Prop
  | .statement c => s.overtaken qt c = false
  | _ => True

/-! ## Events about a message -/

theorem MessageEvent.text_inj (e : MessageEvent) (h : e.text = MessageEvent.message.text) :
    e = .message := by
  cases e with
  | message => rfl
  | edited => exact absurd h (by decide)
  | deleted => exact absurd h (by decide)

section

variable {db db' : Db} {i u : Int}

theorem Db.told_of_eq (h : db'.syncEvents = db.syncEvents) : db'.told i u = db.told i u := by
  unfold Db.told
  rw [h]

/-- An event of the user `v` about `j`. -/
theorem Db.told_append {v : Int} {type : String} {payload : Json} {j : Int}
    (huser : (db.users.get v).isSome) (hpayload : payload.value "messageId" = .int j)
    (h : db'.syncEvents = (db.appendSyncEvent v type payload).syncEvents) :
    db'.told i u = db.told i u +
      if v = u ∧ type = MessageEvent.message.text ∧ j = i then 1 else 0 := by
  unfold Db.told
  rw [h]
  unfold Db.appendSyncEvent
  rw [if_pos huser]
  show List.countP _ (db.syncEvents.rows ++ [_]) = _
  rw [List.countP_append, List.countP_singleton]
  simp only [SyncEventRow.about, hpayload, Json.toLongLong, Bool.and_eq_true, beq_iff_eq, and_assoc]

end

/-! ## What a send keeps -/

/-- How far the members have been told of a message: nobody was, or those who are still
to be told were members like those who have been. -/
def Telling (db : Db) (r : Handled) (f : Fan) : Prop :=
  match f.left with
  | none => ∀ u, db.told f.messageId u = 0
  | some l => ∃ members ∈ r.seen, ∀ u,
      db.told f.messageId u + l.count u = if u ∈ members then 1 else 0

/-- What holds between the statements as long as no handler is overtaken: the handlers
that tell of a message are the ones that have stored it, and no two tell of the same. -/
structure SendInvariant (s : MessageServer) (g : Nat → MessageGhost) : Prop where
  once : ∀ m ∈ s.pool.store.messages.rows, ∀ m' ∈ s.pool.store.messages.rows,
    m.SameKey m' → m = m'
  reply : ∀ p ∈ s.replies, p.1.kind = .sendMessage → p.2.code = .ok →
    ∃ m ∈ s.pool.store.messages.rows, p.1.Owns m ∧ p.2.data.value "messageId" = .int m.id
  told : ∀ p ∈ s.sent, ∃ members ∈ p.2, s.pool.store.ToldOnce p.1 members
  rows : ∀ m ∈ s.pool.store.messages.rows, (∃ p ∈ s.sent, p.1 = m.id) ∨
    ∃ c, s.Busy c ∧ (s.handled c).stored = some m.id
  kind : ∀ c, s.Busy c → ∀ f ∈ (g c).fan,
    (f.event = .message ↔ (g c).task.kind = .sendMessage)
  telling : ∀ c, s.Busy c → ∀ f ∈ (g c).fan, f.event = .message →
    f.own = true ∧ Telling s.pool.store (s.handled c) f
  apart : ∀ c c', s.Busy c → s.Busy c' → ∀ f ∈ (g c).fan, ∀ f' ∈ (g c').fan,
    f.event = .message → f'.event = .message → f.messageId = f'.messageId → c = c'
  ended : ∀ p ∈ s.sent, p.1 ≤ s.pool.store.messages.lastId ∧
    ∀ c, s.Busy c → ∀ f ∈ (g c).fan, f.event = .message → f.messageId ≠ p.1
  bound : ∀ i u, s.pool.store.messages.lastId < i → s.pool.store.told i u = 0

section

variable {qt : Qt} {s s' : MessageServer} {g g' : Nat → MessageGhost} {c : Nat}

theorem SendInvariant.sentOnce (h : SendInvariant s g) : SentOnce s :=
  ⟨h.once, h.reply, h.told, h.rows⟩

/-- The message a handler has stored is the one it tells of. -/
theorem Accounts.stored {r : Handled} {t : MessageGhost} (h : Accounts r t) :
    r.stored = if t.task.kind = .sendMessage then t.written else none := by
  unfold Handled.stored
  rw [h.wrote, h.task]

/-- What the handler has seen before, it has still seen. -/
theorem Handled.mem_seen_after {r : Handled} {count : Nat} {db db' : Db} {members : List Int}
    (h : members ∈ r.seen) : members ∈ (r.after count db db').seen :=
  List.mem_append_left _ h

/-- The handler that has stored a message sees the members with each statement. -/
theorem Handled.seen_after {r : Handled} {count : Nat} {db db' : Db} {m : MessageRow}
    (hstored : r.stored = some m.id) (hm : m ∈ db.messages.rows) :
    db.getConversationMemberIds m.conversationId ∈ (r.after count db db').seen := by
  refine List.mem_append_right _ ?_
  rw [hstored, Option.bind_some]
  rw [show db.messages.get m.id = some m from Table.get_mem hm]
  exact List.mem_singleton_self _

theorem Telling.of_told {db db' : Db} {r r' : Handled} {f : Fan} (h : Telling db r f)
    (htold : ∀ u, db'.told f.messageId u = db.told f.messageId u)
    (hseen : ∀ members ∈ r.seen, members ∈ r'.seen) : Telling db' r' f := by
  unfold Telling at h ⊢
  split at h
  · intro u
    rw [htold]
    exact h u
  · obtain ⟨members, hmembers, hcount⟩ := h
    refine ⟨members, hseen _ hmembers, fun u => ?_⟩
    rw [htold]
    exact hcount u

theorem Db.ToldOnce.of_told {db db' : Db} {i : Int} {users : List Int} (h : db.ToldOnce i users)
    (htold : ∀ u, db'.told i u = db.told i u) : db'.ToldOnce i users := by
  intro u
  rw [htold]
  exact h u

/-- What a handler tells of after its statement, and what the statement may change. -/
structure TellsOn (db db' : Db) (t t' : MessageGhost) (r' : Handled) : Prop where
  once : ∀ m ∈ db'.messages.rows, ∀ m' ∈ db'.messages.rows, m.SameKey m' → m = m'
  rows : ∀ m' ∈ db'.messages.rows, (∃ m ∈ db.messages.rows, m.id = m'.id) ∨ r'.stored = some m'.id
  lastId : db.messages.lastId ≤ db'.messages.lastId
  events : ∀ i u, db'.told i u = db.told i u ∨ ∃ f ∈ t.fan, f.event = .message ∧ f.messageId = i
  kind : ∀ f ∈ t'.fan, (f.event = .message ↔ t'.task.kind = .sendMessage)
  telling : ∀ f ∈ t'.fan, f.event = .message → f.own = true ∧ Telling db' r' f
  same : ∀ f' ∈ t'.fan, f'.event = .message →
    (∃ f ∈ t.fan, f.event = .message ∧ f.messageId = f'.messageId) ∨
      db.messages.lastId < f'.messageId
  keeps : ∀ f ∈ t.fan, f.own = true → t.task.kind = .sendMessage → r'.stored = some f.messageId

/-- A handler is ready to execute a statement: it tells of its own message only, the keys
are unique, no message has been told of ahead of time, and if its checks are done and its
message is not stored, no message of its key is. -/
structure TellsSo (qt : Qt) (db : Db) (t : MessageGhost) (r : Handled) : Prop where
  accounts : Accounts r t
  once : ∀ m ∈ db.messages.rows, ∀ m' ∈ db.messages.rows, m.SameKey m' → m = m'
  kind : ∀ f ∈ t.fan, (f.event = .message ↔ t.task.kind = .sendMessage)
  telling : ∀ f ∈ t.fan, f.event = .message → f.own = true ∧ Telling db r f
  bound : ∀ i u, db.messages.lastId < i → db.told i u = 0
  free : t.task.kind = .sendMessage → t.fan = none → t.task.checks qt ≤ t.executed →
    ∀ m ∈ db.messages.rows, ¬t.task.Owns m

section statement

variable {db db' : Db} {t t' : MessageGhost} {r r' : Handled}

theorem Accounts.stored_own {f : Fan} (h : Accounts r t) (hkind : t.task.kind = .sendMessage)
    (hfan : t.fan = some f) (hown : f.own = true) : r.stored = some f.messageId := by
  rw [h.stored, if_pos hkind]
  exact MessageGhost.written_own hfan hown

/-- A statement that leaves messages and events alone, and what the handler tells. -/
theorem TellsSo.aside (h : TellsSo qt db t r) (hmessages : db'.messages = db.messages)
    (hevents : db'.syncEvents = db.syncEvents) (htask : t'.task = t.task) (hfan : t'.fan = t.fan)
    (haccounts : Accounts r' t') (hseen : ∀ members ∈ r.seen, members ∈ r'.seen) :
    TellsOn db db' t t' r' := by
  refine ⟨by rw [hmessages]; exact h.once, fun m' hm' => ?_, by rw [hmessages],
    fun i u => .inl (Db.told_of_eq hevents), ?_, fun f hf hevent => ?_, fun f hf hevent => ?_,
    fun f hf hown hkind => ?_⟩
  · rw [hmessages] at hm'
    exact .inl ⟨m', hm', rfl⟩
  · rw [hfan, htask]
    exact h.kind
  · rw [hfan] at hf
    obtain ⟨hown, htelling⟩ := h.telling f hf hevent
    exact ⟨hown, htelling.of_told (fun _ => Db.told_of_eq hevents) hseen⟩
  · rw [hfan] at hf
    exact .inl ⟨f, hf, hevent, rfl⟩
  · exact haccounts.stored_own (htask ▸ hkind) (hfan.trans hf) hown

/-- The handler reads whom to tell of its message. -/
theorem TellsSo.audience {f : Fan} {l : List Int} (h : TellsSo qt db t r) (hknows : t.Knows db)
    (hmessages : db'.messages = db.messages) (hevents : db'.syncEvents = db.syncEvents)
    (htask : t'.task = t.task) (hfan : t.fan = some f) (hleft : f.left = none) (hnodup : l.Nodup)
    (hmembers : f.own = true → ∀ u, u ∈ l ↔ db.isConversationMember f.conversationId u = true)
    (hfan' : t'.fan = some { f with left := some l }) {count : Nat}
    (haccounts : Accounts (r.after count db db') t') :
    TellsOn db db' t t' (r.after count db db') := by
  refine ⟨by rw [hmessages]; exact h.once, fun m' hm' => ?_, by rw [hmessages],
    fun i u => .inl (Db.told_of_eq hevents), fun f' hf' => ?_, fun f' hf' hevent => ?_,
    fun f' hf' hevent => ?_, fun f' hf' hown hkind => ?_⟩
  · rw [hmessages] at hm'
    exact .inl ⟨m', hm', rfl⟩
  · cases hfan'.symm.trans hf'
    rw [htask]
    exact h.kind f hfan
  · cases hfan'.symm.trans hf'
    obtain ⟨hown, htelling⟩ := h.telling f hfan hevent
    unfold Telling at htelling
    rw [hleft] at htelling
    obtain ⟨⟨m, hm, hid, hconv⟩, _⟩ := hknows.fan f hfan
    have hstored := h.accounts.stored_own ((h.kind f hfan).mp hevent) hfan hown
    rw [← hid] at hstored
    refine ⟨hown, _, Handled.seen_after hstored hm, fun u => ?_⟩
    rw [Db.told_of_eq hevents, htelling, Nat.zero_add, hnodup.count, hconv hown]
    simp only [hmembers hown, MessageFlow.mem_getConversationMemberIds]
  · cases hfan'.symm.trans hf'
    exact .inl ⟨f, hfan, hevent, rfl⟩
  · cases hfan.symm.trans hf'
    exact haccounts.stored_own (f := { f with left := some l }) (htask ▸ hkind) hfan' hown

/-- The handler stores its message. -/
theorem TellsSo.store {m : MessageRow} (h : TellsSo qt db t r)
    (hevents : db'.syncEvents = db.syncEvents) (happended : Appended db db' m)
    (hkind : t.task.kind = .sendMessage) (hfan : t.fan = none) (howns : t.task.Owns m)
    (hready : t.task.checks qt ≤ t.executed) (htask : t'.task = t.task)
    (hfan' : t'.fan = some ⟨m.id, m.conversationId, .message, m.content, true, none⟩)
    (haccounts : Accounts r' t') : TellsOn db db' t t' r' := by
  have hfree := h.free hkind hfan hready
  have hnew : ∀ m' ∈ db.messages.rows, ¬m'.SameKey m := fun m' hm' hsame =>
    hfree m' hm' ⟨hsame.sender.trans howns.sender, hsame.device.trans howns.device,
      hsame.clientId.trans howns.clientId⟩
  have hid : db.messages.lastId < m.id := by
    rw [happended.id]
    omega
  refine ⟨fun m₁ hm₁ m₂ hm₂ hsame => ?_, fun m' hm' => ?_, ?_, fun i u => .inl (Db.told_of_eq hevents),
    fun f hf => ?_, fun f hf hevent => ?_, fun f hf hevent => ?_, fun f hf => ?_⟩
  · rcases (happended.mem m₁).mp hm₁ with hold₁ | rfl <;>
      rcases (happended.mem m₂).mp hm₂ with hold₂ | rfl
    · exact h.once m₁ hold₁ m₂ hold₂ hsame
    · exact absurd hsame (hnew m₁ hold₁)
    · exact absurd ⟨hsame.sender.symm, hsame.device.symm, hsame.clientId.symm⟩ (hnew m₂ hold₂)
    · rfl
  · rcases (happended.mem m').mp hm' with hold | rfl
    · exact .inl ⟨m', hold, rfl⟩
    · exact .inr (haccounts.stored_own (htask ▸ hkind) hfan' rfl)
  · rw [happended.lastId]
    omega
  · cases hfan'.symm.trans hf
    rw [htask]
    exact ⟨fun _ => hkind, fun _ => rfl⟩
  · cases hfan'.symm.trans hf
    refine ⟨rfl, fun u => ?_⟩
    rw [Db.told_of_eq hevents]
    exact h.bound m.id u hid
  · cases hfan'.symm.trans hf
    exact .inr hid
  · rw [hfan] at hf
    cases hf

/-- The handler rewrites a row, and is none of a send. -/
theorem TellsSo.write {i : Int} {content : String} {gone : Bool} {f : Fan} (h : TellsSo qt db t r)
    (hevents : db'.syncEvents = db.syncEvents) (hrewritten : Rewritten db db' i content gone)
    (hkind : t.task.kind ≠ .sendMessage) (hevent : f.event ≠ .message) (htask : t'.task = t.task)
    (hfan' : t'.fan = some f) : TellsOn db db' t t' r' := by
  refine ⟨fun m₁' hm₁' m₂' hm₂' hsame => ?_, fun m' hm' => ?_, ?_,
    fun i u => .inl (Db.told_of_eq hevents), fun f' hf' => ?_, fun f' hf' hevent' => ?_,
    fun f' hf' hevent' => ?_, fun f' hf' _ hsend => absurd hsend hkind⟩
  · obtain ⟨m₁, hm₁, hid₁, _, hsender₁, hdevice₁, hclient₁, _⟩ := hrewritten.mem hm₁'
    obtain ⟨m₂, hm₂, hid₂, _, hsender₂, hdevice₂, hclient₂, _⟩ := hrewritten.mem hm₂'
    have heq : m₁ = m₂ := by
      refine h.once m₁ hm₁ m₂ hm₂ ⟨?_, ?_, ?_⟩
      · rw [← hsender₁, ← hsender₂]
        exact hsame.sender
      · rw [← hdevice₁, ← hdevice₂]
        exact hsame.device
      · rw [← hclient₁, ← hclient₂]
        exact hsame.clientId
    refine Table.key_inj hm₁' hm₂' ?_
    show m₁'.id = m₂'.id
    rw [hid₁, hid₂, heq]
  · obtain ⟨m, hm, hid, _⟩ := hrewritten.mem hm'
    exact .inl ⟨m, hm, hid.symm⟩
  · rw [hrewritten.lastId]
  · cases hfan'.symm.trans hf'
    rw [htask]
    exact iff_of_false hevent hkind
  · cases hfan'.symm.trans hf'
    exact absurd hevent' hevent
  · cases hfan'.symm.trans hf'
    exact absurd hevent' hevent

/-- The handler tells one member. -/
theorem TellsSo.tell {f : Fan} {u : Int} {l : List Int} {payload : Json} (h : TellsSo qt db t r)
    (hmessages : db'.messages = db.messages) (huser : (db.users.get u).isSome)
    (hfan : t.fan = some f) (hleft : f.left = some (u :: l)) (htells : f.Tells payload)
    (hevents : db'.syncEvents = (db.appendSyncEvent u f.event.text payload).syncEvents)
    (htask : t'.task = t.task) (hfan' : t'.fan = some { f with left := some l })
    (haccounts : Accounts r' t') (hseen : ∀ members ∈ r.seen, members ∈ r'.seen) :
    TellsOn db db' t t' r' := by
  have htold : ∀ i v, db'.told i v = db.told i v +
      if u = v ∧ f.event.text = MessageEvent.message.text ∧ f.messageId = i then 1 else 0 :=
    fun i v => Db.told_append huser htells.messageId hevents
  refine ⟨by rw [hmessages]; exact h.once, fun m' hm' => ?_, by rw [hmessages], fun i v => ?_,
    fun f' hf' => ?_, fun f' hf' hevent => ?_, fun f' hf' hevent => ?_, fun f' hf' hown hkind => ?_⟩
  · rw [hmessages] at hm'
    exact .inl ⟨m', hm', rfl⟩
  · by_cases hmine : f.event = .message ∧ f.messageId = i
    · exact .inr ⟨f, hfan, hmine⟩
    · left
      have hno : ¬(u = v ∧ f.event.text = MessageEvent.message.text ∧ f.messageId = i) :=
        fun hyes => hmine ⟨f.event.text_inj hyes.2.1, hyes.2.2⟩
      rw [htold, if_neg hno, Nat.add_zero]
  · cases hfan'.symm.trans hf'
    rw [htask]
    exact h.kind f hfan
  · cases hfan'.symm.trans hf'
    obtain ⟨hown, htelling⟩ := h.telling f hfan hevent
    unfold Telling at htelling
    rw [hleft] at htelling
    obtain ⟨members, hmembers, hcount⟩ := htelling
    refine ⟨hown, members, hseen _ hmembers, fun v => ?_⟩
    have hbefore := hcount v
    rw [List.count_cons] at hbefore
    rw [← hbefore, htold]
    show _ + _ + List.count v l = _
    simp only [show f.event.text = MessageEvent.message.text from congrArg _ hevent,
      and_true, beq_iff_eq]
    omega
  · cases hfan'.symm.trans hf'
    exact .inl ⟨f, hfan, hevent, rfl⟩
  · cases hfan.symm.trans hf'
    exact haccounts.stored_own (f := { f with left := some l }) (htask ▸ hkind) hfan' hown

/-- A statement of a handler that is not overtaken. -/
theorem TellsSo.statement (h : TellsSo qt db t r) (hknows : t.Knows db)
    (hstep : MessageStatement qt t db db' t') (count : Nat) :
    TellsOn db db' t t' (r.after count db db') := by
  have haccounts := hstep.accounts h.accounts count
  have hseen : ∀ members ∈ r.seen, members ∈ (r.after count db db').seen :=
    fun _ => Handled.mem_seen_after
  cases hstep with
  | quiet _ members messages syncEvents rewrites task executed conv learns knows =>
      generalize hfan' : t'.fan = fan' at learns
      cases learns with
      | nothing => exact h.aside messages syncEvents task hfan' haccounts hseen
      | audience f l hfan hleft nodup members =>
          exact h.audience hknows messages syncEvents task hfan hleft nodup members hfan' haccounts
      | other f hfan kind event own ready taken =>
          obtain ⟨m, hm, howns⟩ := taken
          exact absurd howns (h.free kind hfan ready m hm)
  | create id members messages syncEvents =>
      exact h.aside messages syncEvents rfl rfl haccounts hseen
  | join id u l hconv hl new exist kind members messages syncEvents =>
      exact h.aside messages syncEvents rfl rfl haccounts hseen
  | store m members syncEvents appended kind fan owns live ready =>
      exact h.store syncEvents appended kind fan owns ready rfl rfl haccounts
  | write f members syncEvents rewrites fan messageId own left conversation event live empty
      rewritten =>
      refine h.write syncEvents rewritten (fun hkind => ?_) event rfl rfl
      rw [Task.rewrites_send hkind] at rewrites
      cases rewrites
  | tell f u l payload members messages fan left rewrites tells syncEvents =>
      have huser := (hknows.fan f fan).2 _ left u List.mem_cons_self
      exact h.tell messages huser fan left tells syncEvents rfl rfl haccounts hseen

end statement

theorem SendInvariant.executes (h : SendInvariant s g) (hflow : FlowInvariant qt s g)
    (hexec : Executes qt s s' g g' c)
    (hstep : TellsOn s.pool.store s'.pool.store (g c) (g' c) (s'.handled c)) :
    SendInvariant s' g' := by
  obtain ⟨upd, next, hrunning⟩ := hexec.running
  have hc : s.Busy c := by
    unfold MessageServer.Busy
    rw [hrunning]
    rfl
  have hkept := hexec.statement.messagesKept
  have hbusy {c' : Nat} (hc' : s'.Busy c') : s.Busy c' := (hexec.busy c').mp hc'
  -- the messages that others tell of, or have told of, are not this handler's
  have hsent : ∀ p ∈ s.sent, ∀ u, s'.pool.store.told p.1 u = s.pool.store.told p.1 u := by
    intro p hp u
    rcases hstep.events p.1 u with hsame | ⟨f, hf, hevent, hid⟩
    · exact hsame
    · exact absurd hid ((h.ended p hp).2 c hc f hf hevent)
  have hother : ∀ c', c' ≠ c → s.Busy c' → ∀ f ∈ (g c').fan, f.event = .message → ∀ u,
      s'.pool.store.told f.messageId u = s.pool.store.told f.messageId u := by
    intro c' hne hc' f hf hevent u
    rcases hstep.events f.messageId u with hsame | ⟨f', hf', hevent', hid⟩
    · exact hsame
    · exact absurd (h.apart c' c hc' hc f hf f' hf' hevent hevent' hid.symm) hne
  refine ⟨hstep.once, fun p hp hkind hcode => ?_, fun p hp => ?_, fun m' hm' => ?_, fun c' hc' => ?_,
    fun c' hc' => ?_, fun c₁ c₂ hc₁ hc₂ => ?_, fun p hp => ?_, fun i u hi => ?_⟩
  · rw [hexec.replies] at hp
    obtain ⟨m, hm, howns, hdata⟩ := h.reply p hp hkind hcode
    obtain ⟨m', hm', hid, _, hsender, hdevice, hclient⟩ := hkept m hm
    exact ⟨m', hm', howns.of_kept hsender hdevice hclient, by rw [hid, hdata]⟩
  · rw [hexec.sent] at hp
    obtain ⟨members, hmembers, honce⟩ := h.told p hp
    exact ⟨members, hmembers, honce.of_told (hsent p hp)⟩
  · rcases hstep.rows m' hm' with ⟨m, hm, hid⟩ | hstored
    · rw [hexec.sent, ← hid]
      rcases h.rows m hm with hended | ⟨c', hc', hstored⟩
      · exact .inl hended
      · refine .inr ⟨c', (hexec.busy c').mpr hc', ?_⟩
        by_cases heq : c' = c
        · subst heq
          have haccounts := hflow.accounts c' hc'
          rw [haccounts.stored] at hstored
          split at hstored
          · rename_i hkind
            obtain ⟨f, hf, hown, hid⟩ := MessageGhost.fan_of_written hstored
            rw [← hid]
            exact hstep.keeps f hf hown hkind
          · cases hstored
        · rw [(hexec.others c' heq).1]
          exact hstored
    · exact .inr ⟨c, (hexec.busy c).mpr hc, hstored⟩
  · by_cases heq : c' = c
    · rw [heq]
      exact hstep.kind
    · rw [(hexec.others c' heq).2]
      exact h.kind c' (hbusy hc')
  · by_cases heq : c' = c
    · rw [heq]
      exact hstep.telling
    · rw [(hexec.others c' heq).1, (hexec.others c' heq).2]
      intro f hf hevent
      obtain ⟨hown, htelling⟩ := h.telling c' (hbusy hc') f hf hevent
      exact ⟨hown, htelling.of_told (hother c' heq (hbusy hc') f hf hevent) fun _ hm => hm⟩
  · -- another handler's message is neither this one's nor the one it has just stored
    have hnew : ∀ c', c' ≠ c → s.Busy c' → ∀ f ∈ (g' c).fan, ∀ f' ∈ (g c').fan,
        f.event = .message → f'.event = .message → f.messageId ≠ f'.messageId := by
      intro c' hne hc' f hf f' hf' hevent hevent' hid
      rcases hstep.same f hf hevent with ⟨f₀, hf₀, hevent₀, hid₀⟩ | hfresh
      · exact hne (h.apart c' c hc' hc f' hf' f₀ hf₀ hevent' hevent₀ (hid.symm.trans hid₀.symm))
      · have := hflow.fan_bound hc' hf'
        omega
    by_cases heq₁ : c₁ = c <;> by_cases heq₂ : c₂ = c
    · rw [heq₁, heq₂]
      exact fun _ _ _ _ _ _ _ => rfl
    · rw [heq₁, (hexec.others c₂ heq₂).2]
      intro f hf f' hf' hevent hevent' hid
      exact absurd hid (hnew c₂ heq₂ (hbusy hc₂) f hf f' hf' hevent hevent')
    · rw [heq₂, (hexec.others c₁ heq₁).2]
      intro f hf f' hf' hevent hevent' hid
      exact absurd hid.symm (hnew c₁ heq₁ (hbusy hc₁) f' hf' f hf hevent' hevent)
    · rw [(hexec.others c₁ heq₁).2, (hexec.others c₂ heq₂).2]
      exact h.apart c₁ c₂ (hbusy hc₁) (hbusy hc₂)
  · rw [hexec.sent] at hp
    obtain ⟨hbound, hnever⟩ := h.ended p hp
    refine ⟨hbound.trans hstep.lastId, fun c' hc' f hf hevent => ?_⟩
    by_cases heq : c' = c
    · subst heq
      rcases hstep.same f hf hevent with ⟨f₀, hf₀, hevent₀, hid₀⟩ | hfresh
      · rw [← hid₀]
        exact hnever c' hc f₀ hf₀ hevent₀
      · omega
    · rw [(hexec.others c' heq).2] at hf
      exact hnever c' (hbusy hc') f hf hevent
  · have hle := hstep.lastId
    rcases hstep.events i u with hsame | ⟨f, hf, hevent, hid⟩
    · rw [hsame]
      exact h.bound i u (by omega)
    · have := hflow.fan_bound hc hf
      omega

/-- A connection that is not overtaken executes a statement. -/
theorem SendInvariant.statement (h : SendInvariant s g) (hflow : FlowInvariant qt s g)
    (hexec : Executes qt s s' g g' c) (halone : s.overtaken qt c = false) : SendInvariant s' g' := by
  obtain ⟨upd, next, hrunning⟩ := hexec.running
  have hc : s.Busy c := by
    unfold MessageServer.Busy
    rw [hrunning]
    rfl
  have haccounts := hflow.accounts c hc
  refine h.executes hflow hexec ?_
  rw [hexec.here]
  refine TellsSo.statement ⟨haccounts, h.once, h.kind c hc, h.telling c hc, h.bound,
    fun hkind hfan hready m hm howns => ?_⟩ (hflow.knows hc) hexec.statement s.count
  unfold MessageServer.overtaken at halone
  rw [hrunning] at halone
  have hnone : (s.handled c).stored = none := by
    rw [haccounts.stored, if_pos hkind]
    unfold MessageGhost.written
    rw [hfan]
    rfl
  rw [haccounts.task] at hkind hready howns
  rw [haccounts.executed] at hready
  have hany : (s.pool.store.messages.rows.any fun m => decide ((s.handled c).task.Owns m)) = true :=
    List.any_eq_true.mpr ⟨m, hm, decide_eq_true howns⟩
  simp only [hkind, hnone, hany, decide_eq_true hready] at halone
  cases halone

/-- A connection sends the answer of its handler. -/
theorem SendInvariant.answer {k : Connection × Option Response} (h : SendInvariant s g)
    (hflow : FlowInvariant qt s g) (hanswers : Answers s s' g c k) : SendInvariant s' g := by
  have hc := hanswers.was
  have hbusy : ∀ {c'}, s'.Busy c' → s.Busy c' := fun hc' => ((hanswers.busy _).mp hc').1
  have haccounts := hflow.accounts c hc
  obtain ⟨o, rfl, hended⟩ := hanswers.answered
  -- a handler that has stored a message has told everyone of it
  have hstored : ∀ i, (s.handled c).stored = some i →
      ∃ f, (g c).fan = some f ∧ f.event = .message ∧ f.messageId = i ∧
        ∃ members ∈ (s.handled c).seen, s.pool.store.ToldOnce i members := by
    intro i hi
    rw [haccounts.stored] at hi
    split at hi
    · rename_i hkind
      obtain ⟨f, hfan, _, rfl⟩ := MessageGhost.fan_of_written hi
      have hevent := (h.kind c hc f hfan).mpr hkind
      refine ⟨f, hfan, hevent, rfl, ?_⟩
      obtain ⟨_, htelling⟩ := h.telling c hc f hfan hevent
      unfold Telling at htelling
      rw [hended.told f hfan] at htelling
      exact htelling
    · cases hi
  have hsent : ∀ p ∈ s'.sent, p ∈ s.sent ∨
      ∃ i, (s.handled c).stored = some i ∧ p = (i, (s.handled c).seen) := by
    intro p hp
    rw [hanswers.sent] at hp
    rcases List.mem_append.mp hp with hold | hnew
    · exact .inl hold
    · obtain ⟨i, hi, rfl⟩ := List.mem_map.mp hnew
      exact .inr ⟨i, Option.mem_toList.mp hi, rfl⟩
  refine ⟨?_, fun p hp hkind hcode => ?_, fun p hp => ?_, fun m hm => ?_, fun c' hc' => ?_,
    fun c' hc' => ?_, fun c₁ c₂ hc₁ hc₂ => ?_, fun p hp => ?_, ?_⟩
  · rw [hanswers.store]
    exact h.once
  · rw [hanswers.store]
    rw [hanswers.replies] at hp
    rcases List.mem_append.mp hp with hold | hnew
    · exact h.reply p hold hkind hcode
    · obtain rfl := List.mem_singleton.mp hnew
      rw [← haccounts.task] at hkind
      obtain ⟨row, hrow, hdata⟩ := hended.answer hkind hcode
      obtain ⟨m, hm, hid, _, howns⟩ := (hflow.knows hc).row row hrow
      refine ⟨m, hm, ?_, by rw [hid]; exact hdata⟩
      show (s.handled c).task.Owns m
      rw [← haccounts.task]
      exact howns hkind
  · rw [hanswers.store]
    rcases hsent p hp with hold | ⟨i, hi, rfl⟩
    · exact h.told p hold
    · obtain ⟨_, _, _, _, honce⟩ := hstored i hi
      exact honce
  · rw [hanswers.store] at hm
    rcases h.rows m hm with ⟨p, hp, hid⟩ | ⟨c', hc', hi⟩
    · exact .inl ⟨p, by rw [hanswers.sent]; exact List.mem_append_left _ hp, hid⟩
    · by_cases heq : c' = c
      · rw [heq] at hi
        refine .inl ⟨(m.id, (s.handled c).seen), ?_, rfl⟩
        rw [hanswers.sent, hi]
        exact List.mem_append_right _ (List.mem_singleton_self _)
      · rw [hanswers.handled]
        exact .inr ⟨c', (hanswers.busy c').mpr ⟨hc', heq⟩, hi⟩
  · exact h.kind c' (hbusy hc')
  · rw [hanswers.store, hanswers.handled]
    exact h.telling c' (hbusy hc')
  · exact h.apart c₁ c₂ (hbusy hc₁) (hbusy hc₂)
  · rw [hanswers.store]
    rcases hsent p hp with hold | ⟨i, hi, rfl⟩
    · exact ⟨(h.ended p hold).1, fun c' hc' => (h.ended p hold).2 c' (hbusy hc')⟩
    · obtain ⟨f, hfan, hevent, rfl, _⟩ := hstored i hi
      refine ⟨hflow.fan_bound hc hfan, fun c' hc' f' hfan' hevent' heq => ?_⟩
      obtain ⟨hbusy', hne⟩ := (hanswers.busy c').mp hc'
      exact hne (h.apart c' c hbusy' hc f' hfan' f hfan hevent' hevent heq)
  · rw [hanswers.store]
    exact h.bound

/-- A step that is no statement. -/
theorem SendInvariant.undisturbed (h : SendInvariant s g) (hun : Undisturbed s s' g g') :
    SendInvariant s' g' := by
  have hmessages := hun.outside.messages
  have htold : ∀ i u, s'.pool.store.told i u = s.pool.store.told i u :=
    fun i u => Db.told_of_eq hun.outside.syncEvents
  -- one that has just started tells nothing
  have hold : ∀ c, s'.Busy c → ∀ f ∈ (g' c).fan,
      s.Busy c ∧ s'.handled c = s.handled c ∧ g' c = g c := by
    intro c hc f hf
    rcases hun.started c hc with hbusy | ⟨task, _, hghost⟩
    · exact ⟨hbusy, (hun.busy c hbusy).2⟩
    · rw [hghost] at hf
      cases hf
  refine ⟨?_, ?_, fun p hp => ?_, fun m hm => ?_, fun c hc f hf => ?_, fun c hc f hf hevent => ?_,
    fun c c' hc hc' f hf f' hf' => ?_, fun p hp => ?_, fun i u hi => ?_⟩
  · rw [hmessages]
    exact h.once
  · rw [hmessages, hun.replies]
    exact h.reply
  · rw [hun.sent] at hp
    obtain ⟨members, hmembers, honce⟩ := h.told p hp
    exact ⟨members, hmembers, honce.of_told (htold p.1)⟩
  · rw [hmessages] at hm
    rw [hun.sent]
    rcases h.rows m hm with hended | ⟨c, hc, hi⟩
    · exact .inl hended
    · exact .inr ⟨c, (hun.busy c hc).1, by rw [(hun.busy c hc).2.1]; exact hi⟩
  · obtain ⟨hbusy, _, hghost⟩ := hold c hc f hf
    rw [hghost] at hf ⊢
    exact h.kind c hbusy f hf
  · obtain ⟨hbusy, hhandled, hghost⟩ := hold c hc f hf
    rw [hghost] at hf
    obtain ⟨hown, htelling⟩ := h.telling c hbusy f hf hevent
    rw [hhandled]
    exact ⟨hown, htelling.of_told (htold f.messageId) fun _ hm => hm⟩
  · obtain ⟨hbusy, _, hghost⟩ := hold c hc f hf
    obtain ⟨hbusy', _, hghost'⟩ := hold c' hc' f' hf'
    rw [hghost] at hf
    rw [hghost'] at hf'
    exact h.apart c c' hbusy hbusy' f hf f' hf'
  · rw [hun.sent] at hp
    rw [hmessages]
    refine ⟨(h.ended p hp).1, fun c hc f hf => ?_⟩
    obtain ⟨hbusy, _, hghost⟩ := hold c hc f hf
    rw [hghost] at hf
    exact (h.ended p hp).2 c hbusy f hf
  · rw [hmessages] at hi
    rw [htold]
    exact h.bound i u hi

theorem MessageServer.Fresh.sends (h : s.Fresh) (g : Nat → MessageGhost) : SendInvariant s g := by
  have hidle : ∀ c, ¬s.Busy c := fun c hc => by
    unfold MessageServer.Busy at hc
    rw [h.idle c] at hc
    cases hc
  refine ⟨?_, ?_, ?_, ?_, fun c hc => absurd hc (hidle c), fun c hc => absurd hc (hidle c),
    fun c _ hc => absurd hc (hidle c), ?_, fun i u _ => ?_⟩
  · rw [h.messages]
    exact List.forall_mem_nil _
  · rw [h.replies]
    exact List.forall_mem_nil _
  · rw [h.sent]
    exact List.forall_mem_nil _
  · rw [h.messages]
    exact List.forall_mem_nil _
  · rw [h.sent]
    exact List.forall_mem_nil _
  · unfold Db.told
    rw [h.syncEvents]
    rfl

/-- There are ghost states for which the invariants hold. -/
def Sends (qt : Qt) (s : MessageServer) : Prop := ∃ g, FlowInvariant qt s g ∧ SendInvariant s g

/-- **Step lemma.** A step that overtakes no handler keeps the invariant. -/
theorem messageStep_sends {op : MessageOp} (h : Sends qt s) (hop : StepSendsOnce qt s op) :
    Sends qt (messageStep qt s op) := by
  obtain ⟨g, hflow, hsend⟩ := h
  obtain ⟨g', hflow', hcases⟩ := messageStep_cases hflow op
  refine ⟨g', hflow', ?_⟩
  rcases hcases with hun | ⟨c, rfl, hexec⟩ | ⟨c, k, rfl, rfl, hanswers⟩
  · exact hsend.undisturbed hun
  · exact hsend.statement hflow hexec hop
  · exact hsend.answer hflow hanswers

/-- **Sent once**, in any interleaving of the handlers in which none is overtaken between
its checks and its own `INSERT` by another that stores a message of the same key. -/
theorem sentOnce_of_notOvertaken (qt : Qt) (s₀ : MessageServer) (h₀ : s₀.Fresh)
    (ops : List MessageOp) (hops : (messageMachine qt).Along (StepSendsOnce qt) s₀ ops) :
    (messageMachine qt).Always SentOnce s₀ ops := by
  have hinit : Sends qt s₀ := ⟨fun _ => {}, h₀.flow _, h₀.sends _⟩
  refine (Machine.always_of_along (fun _ _ => messageStep_sends) hinit hops).mono fun s hs => ?_
  obtain ⟨g, _, hsend⟩ := hs
  exact hsend.sentOnce

end

/-! ## Three runs -/

instance (qt : Qt) (s : MessageServer) : ∀ op, Decidable (StepSendsOnce qt s op)
  | .statement c => inferInstanceAs (Decidable (s.overtaken qt c = false))
  | .register .. => isTrue trivial
  | .createGroup => isTrue trivial
  | .join .. => isTrue trivial
  | .leave .. => isTrue trivial
  | .prekeys _ => isTrue trivial
  | .tick _ => isTrue trivial
  | .connect .. => isTrue trivial
  | .request .. => isTrue trivial

/-- Group messages in plain text need no JSON. -/
def plainTextQt : Qt where
  fromJson _ := none
  toJson _ := ""
  fromBase64 _ := []
  toBase64 _ := ""
  isoDate _ := ""

/-- A user and its group, and two connections of its device. -/
def groupOfOne (deviceId : String) : List MessageOp :=
  [ .register "alice" "", .createGroup, .join 1 1 .owner
  , .connect 0 { authenticatedUserId := 1, currentDeviceId := deviceId }
  , .connect 1 { authenticatedUserId := 1, currentDeviceId := deviceId } ]

/-- Connection `c` takes up the send of one message. -/
def sendsGreeting (c requestId : Nat) : MessageOp :=
  .request c .sendMessage requestId
    (.obj
      [ ("clientMessageId", .str "greeting")
      , ("conversationId", .int 1)
      , ("content", .str "hello") ])

/-- A message and a retry after its reply, over another connection. -/
def retriedSend (deviceId : String) : List MessageOp :=
  groupOfOne deviceId ++ sendsGreeting 0 1 :: List.replicate 12 (.statement 0)
    ++ sendsGreeting 1 2 :: List.replicate 12 (.statement 1)

/-- A message and a retry that looks its key up before the first has stored it. -/
def racingSend (deviceId : String) : List MessageOp :=
  groupOfOne deviceId ++ sendsGreeting 0 1 :: sendsGreeting 1 2 :: List.replicate 4 (.statement 1)
    ++ List.replicate 12 (.statement 0) ++ List.replicate 8 (.statement 1)

/-- A retry after the reply, from a session with a device id. -/
theorem retriedSend_sentOnce :
    (messageMachine plainTextQt).Always SentOnce emptyMessageServer (retriedSend "phone") :=
  sentOnce_of_notOvertaken plainTextQt emptyMessageServer emptyMessageServer_fresh (retriedSend "phone")
    (by decide +kernel)

instance (m m' : MessageRow) : Decidable (m.SameKey m') :=
  decidable_of_iff (m.senderId = m'.senderId ∧ m.senderDeviceId = m'.senderDeviceId ∧
      m.clientMessageId = m'.clientMessageId)
    ⟨fun h => ⟨h.1, h.2.1, h.2.2⟩, fun h => ⟨h.sender, h.device, h.clientId⟩⟩

/-- An empty device id is stored as NULL, which no lookup finds and no unique index
holds: a retry is stored again. And a retry that is overtaken finds the message stored
by another, and tells every member of it once more. -/
theorem retriedSend_twice :
    ¬(messageMachine plainTextQt).Always SentOnce emptyMessageServer (retriedSend "") ∧
      ¬(messageMachine plainTextQt).Always SentOnce emptyMessageServer (racingSend "phone") := by
  constructor
  · intro halways
    have hend := Machine.always_iff_prefixes.mp halways _ (List.prefix_refl _)
    have htwo : ∃ m ∈ ((messageMachine plainTextQt).run emptyMessageServer
        (retriedSend "")).pool.store.messages.rows, ∃ m' ∈ ((messageMachine plainTextQt).run
        emptyMessageServer (retriedSend "")).pool.store.messages.rows, m.SameKey m' ∧ m.id ≠ m'.id := by
      decide +kernel
    obtain ⟨m, hm, m', hm', hsame, hne⟩ := htwo
    exact hne (congrArg MessageRow.id (hend.once m hm m' hm' hsame))
  · intro halways
    have hend := Machine.always_iff_prefixes.mp halways _ (List.prefix_refl _)
    have htwice : ∃ p ∈ ((messageMachine plainTextQt).run emptyMessageServer (racingSend "phone")).sent,
        1 < ((messageMachine plainTextQt).run emptyMessageServer
          (racingSend "phone")).pool.store.told p.1 1 := by
      decide +kernel
    obtain ⟨p, hp, htold⟩ := htwice
    obtain ⟨members, _, honce⟩ := hend.told p hp
    have := honce 1
    split at this <;> omega

end XYChat.Server
