import XYChat.Server.MessageHandlers

/-!
# Runs of the message handlers

In every state of a run each busy connection follows the protocol of `MessageFlow` from
a ghost state that agrees with what the machine has recorded of its handler. One lemma
says what a statement of a connection does; what is said of whole runs rests on it.
-/

namespace XYChat.Server

open XYChat.Lib
open XYChat.Lib.Prog

/-- The row that a handler has written, or will have told the members of. -/
def MessageGhost.written (t : MessageGhost) : Option Int :=
  (t.fan.filter (·.own)).map (·.messageId)

theorem MessageGhost.written_own {t : MessageGhost} {f : Fan} (hfan : t.fan = some f)
    (hown : f.own = true) : t.written = some f.messageId := by
  unfold MessageGhost.written
  rw [hfan]
  simp [Option.filter, hown]

theorem MessageGhost.written_other {t : MessageGhost} {f : Fan} (hfan : t.fan = some f)
    (hown : f.own = false) : t.written = none := by
  unfold MessageGhost.written
  rw [hfan]
  simp [Option.filter, hown]

theorem MessageGhost.fan_of_written {t : MessageGhost} {i : Int} (h : t.written = some i) :
    ∃ f, t.fan = some f ∧ f.own = true ∧ f.messageId = i := by
  obtain ⟨f, hf, hid⟩ := Option.map_eq_some_iff.mp h
  obtain ⟨hfan, hown⟩ := Option.filter_eq_some_iff.mp hf
  exact ⟨f, hfan, hown, hid⟩

/-- What the machine has recorded of a handler agrees with its ghost state. -/
structure Accounts (r : Handled) (t : MessageGhost) : Prop where
  task : t.task = r.task
  executed : t.executed = r.executed
  wrote : r.wrote.map (·.1) = t.written

/-- An answer, and that the handler had ended. -/
def Answered (t : MessageGhost) (k : Connection × Option Response) : Prop :=
  ∃ o : Outcome, k = o.answer ∧ Ended t o

/-- The connection works on a request. -/
def MessageServer.Busy (s : MessageServer) (c : Nat) : Prop := (s.pool.workers c).running.isSome

/-- Every busy connection follows the protocol, and no two have created the same
conversation. -/
structure FlowInvariant (qt : Qt) (s : MessageServer) (g : Nat → MessageGhost) : Prop where
  formed : s.pool.store.WellFormed
  guarded : Pool.Guarded (messageProtocol qt) Answered g s.pool
  accounts : ∀ c, s.Busy c → Accounts (s.handled c) (g c)
  apart : ∀ c c', c ≠ c' → s.Busy c → s.Busy c' → ∀ k ∈ (g c).conv, ∀ k' ∈ (g c').conv,
    k.created = true → k'.created = true → k.id ≠ k'.id

section

variable {qt : Qt} {s : MessageServer} {g : Nat → MessageGhost} {c : Nat} {db db' : Db}
  {t t' : MessageGhost} {r : Handled}

theorem FlowInvariant.knows (h : FlowInvariant qt s g) (hc : s.Busy c) : (g c).Knows s.pool.store := by
  obtain ⟨prog, hrunning⟩ := Option.isSome_iff_exists.mp hc
  exact (h.guarded c prog hrunning).1.2

theorem FlowInvariant.fan_bound (h : FlowInvariant qt s g) (hc : s.Busy c) {f : Fan}
    (hf : f ∈ (g c).fan) : f.messageId ≤ s.pool.store.messages.lastId := by
  obtain ⟨⟨m, hm, hid, _⟩, _⟩ := (h.knows hc).fan f hf
  rw [← hid]
  exact (s.pool.store.messages.bounded m hm).2

theorem MessageServer.Fresh.flow (h : s.Fresh) (g : Nat → MessageGhost) : FlowInvariant qt s g := by
  have hidle : ∀ c, ¬s.Busy c := fun c hc => by
    unfold MessageServer.Busy at hc
    rw [h.idle c] at hc
    cases hc
  refine ⟨⟨?_, ?_, ?_, fun id _ => ⟨0, 0, fun u hu => ?_⟩, ?_, ?_⟩, fun c prog hrunning => ?_,
    fun c hc => absurd hc (hidle c), fun c _ _ hc => absurd hc (hidle c)⟩
  · rw [h.members]
    exact List.forall_mem_nil _
  · rw [h.members]
    exact List.forall_mem_nil _
  · rw [h.members]
    exact List.forall_mem_nil _
  · obtain ⟨r, hr, _⟩ := (isConversationMember_iff id u).mp hu
    rw [h.members] at hr
    cases hr
  · rw [h.prekeys]
    exact List.forall_mem_nil _
  · rw [h.messages]
    exact List.forall_mem_nil _
  · rw [h.idle c] at hrunning
    cases hrunning

/-! ## A statement of a handler -/

/-- A statement that changes no row is seen to write none. -/
theorem Accounts.writes_none (h : Accounts r t) (hmessages : db'.messages = db.messages)
    (hrewrites : t.task.rewrites t.executed db = false) : r.writes db db' = none := by
  unfold Handled.writes
  rw [storedBetween_same hmessages, ← h.task, ← h.executed, hrewrites]
  rfl

theorem writes_appended {m : MessageRow} (h : Appended db db' m) : r.writes db db' = some m.id := by
  unfold Handled.writes
  rw [storedBetween_appended h]

theorem Accounts.writes_rewritten {i : Int} {content : String} {gone : Bool} (h : Accounts r t)
    (hrewrites : t.task.rewrites t.executed db = true) (hrewritten : Rewritten db db' i content gone) :
    r.writes db db' = some t.task.messageId := by
  have hnone : storedBetween db db' = [] := by
    obtain ⟨f', hrows, _⟩ := hrewritten.rows
    unfold storedBetween
    rw [hrows, List.drop_eq_nil_iff, List.length_map]
  unfold Handled.writes
  rw [hnone, ← h.task, ← h.executed, hrewrites, if_pos rfl]

/-- The handler's last write, after the statement. -/
theorem Handled.wrote_after {count : Nat} : (r.after count db db').wrote =
    match r.writes db db' with
    | some i => some (i, count + 1)
    | none => r.wrote := rfl

/-- What a statement writes of the tables of messages and events, as the machine sees
it. -/
theorem MessageStatement.accounts (h : MessageStatement qt t db db' t') (hr : Accounts r t)
    (count : Nat) : Accounts (r.after count db db') t' := by
  have hquiet : ∀ {t' : MessageGhost}, db'.messages = db.messages →
      t.task.rewrites t.executed db = false → t'.task = t.task → t'.executed = t.executed + 1 →
      t'.written = t.written → Accounts (r.after count db db') t' := by
    intro t' hmessages hrewrites htask hexecuted hwritten
    refine ⟨htask.trans hr.task, by rw [hexecuted, hr.executed]; rfl, ?_⟩
    rw [Handled.wrote_after, hr.writes_none hmessages hrewrites, hwritten]
    exact hr.wrote
  cases h with
  | quiet _ members messages syncEvents rewrites task executed conv learns knows =>
      refine hquiet messages rewrites task executed ?_
      unfold MessageGhost.written
      revert learns
      generalize t'.fan = fan
      intro learns
      cases learns with
      | nothing => rfl
      | audience f l hfan hleft =>
          rw [hfan]
          cases hown : f.own <;> simp [Option.filter, hown]
      | other f hfan kind event own =>
          rw [hfan]
          simp [Option.filter, own]
  | create id members messages syncEvents kind =>
      exact hquiet messages (Task.rewrites_send kind _ db) rfl rfl rfl
  | join id u l hconv hl new exist kind members messages =>
      exact hquiet messages (Task.rewrites_send kind _ db) rfl rfl rfl
  | store m members syncEvents appended =>
      refine ⟨hr.task, congrArg (· + 1) hr.executed, ?_⟩
      rw [Handled.wrote_after, writes_appended appended]
      rfl
  | write f members syncEvents rewrites fan messageId own left conversation event live empty
      rewritten =>
      refine ⟨hr.task, congrArg (· + 1) hr.executed, ?_⟩
      rw [Handled.wrote_after, hr.writes_rewritten rewrites rewritten]
      show some t.task.messageId = _
      unfold MessageGhost.written
      simp [Option.filter, own, messageId]
  | tell f u l payload members messages fan left rewrites tells =>
      refine hquiet messages rewrites rfl rfl ?_
      unfold MessageGhost.written
      rw [fan]
      cases hown : f.own <;> simp [Option.filter, hown]

/-- A user that a statement makes a member is recorded. -/
theorem MessageStatement.joined (h : MessageStatement qt t db db' t') (id u : Int) :
    db'.isConversationMember id u = db.isConversationMember id u ∨
      ∃ r ∈ joinedBetween db db', r.conversationId = id ∧ r.userId = u := by
  cases h with
  | quiet _ members => exact .inl (isConversationMember_of_eq members id u)
  | create _ members => exact .inl (isConversationMember_of_eq members id u)
  | join x v l _ _ _ _ _ members =>
      obtain ⟨r, _, _, hrows⟩ := members
      by_cases heq : r.conversationId = id ∧ r.userId = u
      · refine .inr ⟨r, ?_, heq⟩
        unfold joinedBetween
        rw [hrows, List.drop_left]
        exact List.mem_singleton_self r
      · left
        rw [Bool.eq_iff_iff, isConversationMember_append hrows]
        exact or_iff_left heq
  | store _ members => exact .inl (isConversationMember_of_eq members id u)
  | write _ members => exact .inl (isConversationMember_of_eq members id u)
  | tell _ _ _ _ members => exact .inl (isConversationMember_of_eq members id u)

/-- A statement creates a conversation that no other handler has created. -/
theorem MessageStatement.apart {t₂ : MessageGhost} (h : MessageStatement qt t db db' t')
    (ht₂ : t₂.Knows db) (hne : ∀ k ∈ t.conv, ∀ k₂ ∈ t₂.conv, k.created = true →
      k₂.created = true → k.id ≠ k₂.id) : ∀ k ∈ t'.conv, ∀ k₂ ∈ t₂.conv, k.created = true →
      k₂.created = true → k.id ≠ k₂.id := by
  cases h with
  | quiet _ members messages syncEvents rewrites task executed conv =>
      intro k hk k₂ hk₂ hcreated
      exact hne k (conv k hk hcreated) k₂ hk₂ hcreated
  | create id members messages syncEvents kind conv fresh =>
      rintro _ ⟨⟩ k₂ hk₂ _ _ rfl
      rw [(ht₂.conv k₂ hk₂).1] at fresh
      cases fresh
  | join id u l hconv =>
      rintro _ ⟨⟩ k₂ hk₂ hcreated hcreated₂
      exact hne _ hconv k₂ hk₂ hcreated hcreated₂
  | store => exact hne
  | write => exact hne
  | tell => exact hne

/-- **Statement lemma.** A statement does what the protocol allows, and leaves a state
with a ghost state for each busy connection. -/
theorem FlowInvariant.statement {upd : Db → Db}
    {next : Db → Prog Db (Connection × Option Response)} (h : FlowInvariant qt s g)
    (hrunning : (s.pool.workers c).running = some (.stmt upd next)) :
    ∃ t', s.pool.store.Grows (upd s.pool.store) ∧
      MessageStatement qt (g c) s.pool.store (upd s.pool.store) t' ∧
      Accounts (s.handled c) (g c) ∧
      FlowInvariant qt (s.statement c) (Function.update g c t') := by
  have hbusy : ∀ c', (s.statement c).Busy c' → s.Busy c' := by
    intro c' hc'
    by_cases heq : c' = c
    · rw [heq]
      unfold MessageServer.Busy
      rw [hrunning]
      rfl
    · unfold MessageServer.Busy MessageServer.statement Pool.advance at hc'
      rw [hrunning] at hc'
      simpa [MessageServer.Busy, Function.update_of_ne heq] using hc'
  have hc : s.Busy c := by
    unfold MessageServer.Busy
    rw [hrunning]
    rfl
  obtain ⟨⟨hformed, hknows⟩, hfollows⟩ := h.guarded c _ hrunning
  obtain ⟨t', ⟨hgrows, hstep⟩, hnext⟩ := follows_stmt.mp hfollows _ ⟨hformed, hknows⟩
  have hformed' := hstep.wellFormed hgrows hformed hknows
  have hpool : (s.statement c).pool =
      { s.pool.setWorker c { s.pool.workers c with running := some (next s.pool.store) } with
        store := upd s.pool.store } := by
    unfold MessageServer.statement Pool.advance
    rw [hrunning]
  have hhandled : (s.statement c).handled = Function.update s.handled c
      ((s.handled c).after s.count s.pool.store (upd s.pool.store)) := by
    unfold MessageServer.statement
    rw [hrunning]
  refine ⟨t', hgrows, hstep, h.accounts c hc, ⟨?_, ?_, fun c' hc' => ?_, ?_⟩⟩
  · rw [hpool]
    exact hformed'
  · -- what the others know stays true
    intro c' prog' hrunning'
    rw [hpool] at hrunning' ⊢
    by_cases heq : c' = c
    · subst heq
      simp only [Pool.workers_setWorker, Function.update_self, Option.some.injEq] at hrunning'
      subst hrunning'
      rw [Function.update_self]
      exact ⟨⟨hformed', hstep.knows hgrows hformed hknows⟩, hnext⟩
    · simp only [Pool.workers_setWorker, Function.update_of_ne heq] at hrunning'
      rw [Function.update_of_ne heq]
      obtain ⟨⟨_, hknows'⟩, hfollows'⟩ := h.guarded c' prog' hrunning'
      have hc' : s.Busy c' := by
        unfold MessageServer.Busy
        rw [hrunning']
        rfl
      exact ⟨⟨hformed', hstep.knows_other hgrows hknows hknows' (h.apart c c' (Ne.symm heq) hc hc')⟩,
        hfollows'⟩
  · rw [hhandled]
    by_cases heq : c' = c
    · subst heq
      rw [Function.update_self, Function.update_self]
      exact hstep.accounts (h.accounts c' hc) s.count
    · rw [Function.update_of_ne heq, Function.update_of_ne heq]
      exact h.accounts c' (hbusy c' hc')
  · intro c₁ c₂ hne hc₁ hc₂
    by_cases heq₁ : c₁ = c
    · subst heq₁
      rw [Function.update_self, Function.update_of_ne hne.symm]
      exact hstep.apart (h.knows (hbusy c₂ hc₂)) (h.apart c₁ c₂ hne hc (hbusy c₂ hc₂))
    · rw [Function.update_of_ne heq₁]
      by_cases heq₂ : c₂ = c
      · subst heq₂
        rw [Function.update_self]
        intro k hk k' hk' hcreated hcreated' heq
        refine hstep.apart (h.knows (hbusy c₁ hc₁)) ?_ k' hk' k hk hcreated' hcreated heq.symm
        intro k₂ hk₂ k₁ hk₁ hcreated₂ hcreated₁ heq'
        exact h.apart c₁ c₂ hne (hbusy c₁ hc₁) hc k₁ hk₁ k₂ hk₂ hcreated₁ hcreated₂ heq'.symm
      · rw [Function.update_of_ne heq₂]
        exact h.apart c₁ c₂ hne (hbusy c₁ hc₁) (hbusy c₂ hc₂)

/-- The end of a handler: its answer is sent. -/
theorem FlowInvariant.answer {k : Connection × Option Response} (h : FlowInvariant qt s g)
    (hrunning : (s.pool.workers c).running = some (.ret k)) :
    Accounts (s.handled c) (g c) ∧ Answered (g c) k ∧ (g c).Knows s.pool.store ∧
      FlowInvariant qt (s.statement c) g := by
  have hc : s.Busy c := by
    unfold MessageServer.Busy
    rw [hrunning]
    rfl
  have hpool : (s.statement c).pool = s.pool.setWorker c { here := k } := by
    unfold MessageServer.statement Pool.advance
    rw [hrunning]
  have hhandled : (s.statement c).handled = s.handled := by
    unfold MessageServer.statement
    rw [hrunning]
  have hbusy : ∀ c', (s.statement c).Busy c' → s.Busy c' := by
    intro c' hc'
    unfold MessageServer.Busy at hc' ⊢
    rw [hpool] at hc'
    by_cases heq : c' = c
    · subst heq
      simp at hc'
    · rwa [Pool.workers_setWorker, Function.update_of_ne heq] at hc'
  refine ⟨h.accounts c hc, follows_pure.mp (h.guarded c _ hrunning).2, h.knows hc, ?_, ?_, ?_, ?_⟩
  · rw [hpool]
    exact h.formed
  · rw [hpool]
    exact h.guarded.setWorker
  · intro c' hc'
    rw [hhandled]
    exact h.accounts c' (hbusy c' hc')
  · intro c₁ c₂ hne hc₁ hc₂
    exact h.apart c₁ c₂ hne (hbusy c₁ hc₁) (hbusy c₂ hc₂)

/-! ## What else may happen -/

/-- What happens outside the handlers: the messages and the events stay, and the
members of private conversations. -/
structure Db.Outside (db db' : Db) : Prop where
  grows : db.Grows db'
  messages : db'.messages = db.messages
  syncEvents : db'.syncEvents = db.syncEvents
  privates : ∀ id, db.conversationType id = some .privateType →
    ∀ u, db'.isConversationMember id u = db.isConversationMember id u

theorem Db.Outside.refl (db : Db) : db.Outside db := ⟨.refl db, rfl, rfl, fun _ _ _ => rfl⟩

theorem FlowInvariant.setDb (h : FlowInvariant qt s g) (hout : s.pool.store.Outside db')
    (hformed : db'.WellFormed) : FlowInvariant qt (s.setDb db') g := by
  refine ⟨hformed, h.guarded.setStore fun t ht => ⟨hformed, ?_⟩, h.accounts, h.apart⟩
  exact ht.2.of_kept hout.grows (.of_eq hout.messages) fun k hk => hout.privates _ (ht.2.conv k hk).1

theorem registerUser_outside (username passwordHash : String) (db : Db) :
    db.Outside (db.registerUser username passwordHash).1 ∧
      (db.registerUser username passwordHash).1.conversationMembers = db.conversationMembers := by
  unfold Db.registerUser
  split
  · exact ⟨.refl db, rfl⟩
  · refine ⟨⟨⟨fun u hu => ?_, fun _ _ h => h, fun p hp => .inr ⟨p, hp, rfl⟩⟩, rfl, rfl,
      fun _ _ _ => rfl⟩, rfl⟩
    show (Table.get _ u).isSome
    rw [Table.get_insert]
    split
    · rfl
    · exact hu

theorem createGroup_outside (db : Db) : db.Outside (db.insertConversation .groupType).1 := by
  refine ⟨⟨fun _ h => h, fun id type htype => ?_, fun p hp => .inr ⟨p, hp, rfl⟩⟩, rfl, rfl,
    fun _ _ _ => rfl⟩
  unfold Db.insertConversation Db.conversationType Db.getConversation
  rw [Table.get_insert]
  split
  · rename_i heq
    rw [heq, Db.conversationType_lastId] at htype
    cases htype
  · exact htype

/-- Membership changes in the one conversation only. -/
theorem insertMember_outside {id u : Int} {role : MemberRole}
    (hgroup : db.conversationType id = some .groupType) (hformed : db.WellFormed) :
    db.Outside (db.insertMember id u role).1 ∧ (db.insertMember id u role).1.WellFormed := by
  rcases insertMember_cases id u role db with hsame | ⟨r, hr, hu, _, _, hadded⟩
  · rw [hsame]
    exact ⟨.refl db, hformed⟩
  have haside : (db.insertMember id u role).1.messages = db.messages ∧
      (db.insertMember id u role).1.syncEvents = db.syncEvents ∧
      db.Grows (db.insertMember id u role).1 := by
    unfold Db.insertMember
    split
    · exact ⟨rfl, rfl, .of_eq rfl rfl rfl⟩
    · exact ⟨rfl, rfl, .refl db⟩
  obtain ⟨hmessages, hevents, hgrows⟩ := haside
  have huser : (db.users.get r.userId).isSome := by
    unfold Db.insertMember at hadded
    split at hadded
    · rename_i hcond
      simp only [Bool.and_eq_true] at hcond
      rw [hu]
      exact hcond.1.2
    · have hlength := congrArg List.length hadded.rows
      simp at hlength
  refine ⟨⟨hgrows, hmessages, hevents, fun id' hprivate v => ?_⟩, ?_⟩
  · have hne : r.conversationId ≠ id' := by
      rw [hr]
      intro heq
      subst heq
      rw [hgroup] at hprivate
      cases hprivate
    rw [Bool.eq_iff_iff, isConversationMember_append hadded.rows]
    simp [hne]
  · rw [← hr] at hgroup
    refine hformed.of_member hgrows hadded.rows hmessages huser ?_ hgroup (by intros; contradiction)
    rw [hadded.new]
    intro h
    cases h

theorem removeGroupMember_outside {id u : Int} (hgroup : db.conversationType id = some .groupType)
    (hformed : db.WellFormed) :
    db.Outside (db.removeGroupMember id u).1 ∧ (db.removeGroupMember id u).1.WellFormed := by
  have hremoved := removeGroupMember_removed id u db
  have hout : db.Outside (db.removeGroupMember id u).1 := by
    refine ⟨.of_eq rfl rfl rfl, rfl, rfl, fun id' hprivate v => ?_⟩
    have hne : id' ≠ id := by
      rintro rfl
      rw [hgroup] at hprivate
      cases hprivate
    rw [Bool.eq_iff_iff, isConversationMember_iff, isConversationMember_iff]
    refine exists_congr fun r => ?_
    rw [hremoved.mem, and_assoc]
    refine and_congr_right fun _ => ⟨And.right, fun h => ⟨fun h' => hne (h.1.symm.trans h'.1), h⟩⟩
  exact ⟨hout, hformed.of_fewer hout.grows (fun r hr => (hremoved.mem.mp hr).1) hformed.deviceId⟩

/-! ## Runs -/

/-- What a step that is no statement does to the database. -/
theorem messageStep_outside (h : FlowInvariant qt s g) {op : MessageOp} (hop : ∀ c, op ≠ .statement c) :
    s.pool.store.Outside (messageStep qt s op).pool.store ∧
      (messageStep qt s op).pool.store.WellFormed := by
  have hsame : s.pool.store.Outside s.pool.store ∧ s.pool.store.WellFormed :=
    ⟨.refl _, h.formed⟩
  cases op with
  | register username passwordHash =>
      obtain ⟨hout, hmembers⟩ := registerUser_outside username passwordHash s.pool.store
      show s.pool.store.Outside (s.pool.store.registerUser username passwordHash).1 ∧
        (s.pool.store.registerUser username passwordHash).1.WellFormed
      refine ⟨hout, h.formed.of_fewer hout.grows (fun r hr => ?_) ?_⟩
      · rwa [hmembers] at hr
      · rw [hout.messages]
        exact h.formed.deviceId
  | createGroup =>
      have hout := createGroup_outside s.pool.store
      exact ⟨hout, h.formed.of_fewer hout.grows (fun _ hr => hr) h.formed.deviceId⟩
  | join id u role =>
      rw [messageStep_join]
      split
      · exact insertMember_outside ‹_› h.formed
      · exact hsame
  | leave id u =>
      rw [messageStep_leave]
      split
      · exact removeGroupMember_outside ‹_› h.formed
      · exact hsame
  | prekeys table =>
      rw [messageStep_prekeys]
      split
      · rename_i hall
        have hout : s.pool.store.Outside { s.pool.store with prekeys := table } :=
          ⟨⟨fun _ h => h, fun _ _ h => h, fun p hp => .inl (List.all_eq_true.mp hall p hp)⟩, rfl, rfl,
            fun _ _ _ => rfl⟩
        exact ⟨hout, h.formed.of_fewer hout.grows (fun _ hr => hr) h.formed.deviceId⟩
      · exact hsame
  | tick seconds =>
      have hout : s.pool.store.Outside { s.pool.store with now := s.pool.store.now + seconds } :=
        ⟨.of_eq rfl rfl rfl, rfl, rfl, fun _ _ _ => rfl⟩
      exact ⟨hout, h.formed.of_fewer hout.grows (fun _ hr => hr) h.formed.deviceId⟩
  | connect c conn =>
      rw [messageStep_connect]
      split <;> exact hsame
  | request c kind requestId request =>
      rw [messageStep_request]
      dsimp only
      split <;> exact hsame
  | statement c => exact absurd rfl (hop c)

/-- A step that is no statement: nothing is recorded but who joins or leaves, the busy
connections go on as they were, and an idle one may take up a request. -/
structure Undisturbed (s s' : MessageServer) (g g' : Nat → MessageGhost) : Prop where
  outside : s.pool.store.Outside s'.pool.store
  replies : s'.replies = s.replies
  sent : s'.sent = s.sent
  count : s'.count = s.count
  written : s'.written = s.written
  shown : s'.shown = s.shown
  busy : ∀ c, s.Busy c → s'.Busy c ∧ s'.handled c = s.handled c ∧ g' c = g c
  started : ∀ c, s'.Busy c → s.Busy c ∨ ∃ task, s'.handled c = { task } ∧ g' c = { task }
  moved : ∀ m ∈ s.moved, m ∈ s'.moved
  members : ∀ id u, s'.pool.store.isConversationMember id u = s.pool.store.isConversationMember id u ∨
    (id, u, s.pool.store.messages.lastId) ∈ s'.moved

theorem undisturbed_setDb {moved : List (Int × Int × Int)} (hout : s.pool.store.Outside db')
    (hmoved : ∀ m ∈ s.moved, m ∈ moved)
    (hmembers : ∀ id u, db'.isConversationMember id u = s.pool.store.isConversationMember id u ∨
      (id, u, s.pool.store.messages.lastId) ∈ moved) :
    Undisturbed s { s.setDb db' with moved := moved } g g :=
  ⟨hout, rfl, rfl, rfl, rfl, rfl, fun _ hc => ⟨hc, rfl, rfl⟩, fun _ hc => .inl hc, hmoved, hmembers⟩

theorem undisturbed_refl : Undisturbed s s g g :=
  ⟨.refl _, rfl, rfl, rfl, rfl, rfl, fun _ hc => ⟨hc, rfl, rfl⟩, fun _ hc => .inl hc, fun _ hm => hm,
    fun _ _ => .inl rfl⟩

/-- A user that joins or leaves a conversation is recorded. -/
theorem insertMember_members {id u : Int} {role : MemberRole} (id' v : Int) :
    (db.insertMember id u role).1.isConversationMember id' v = db.isConversationMember id' v ∨
      (id = id' ∧ u = v) := by
  rcases insertMember_cases id u role db with hsame | ⟨r, hr, hu, _, _, hadded⟩
  · rw [hsame]
    exact .inl rfl
  · by_cases heq : id = id' ∧ u = v
    · exact .inr heq
    · left
      rw [Bool.eq_iff_iff, isConversationMember_append hadded.rows, hr, hu]
      exact or_iff_left heq

theorem removeGroupMember_members {id u : Int} (id' v : Int) :
    (db.removeGroupMember id u).1.isConversationMember id' v = db.isConversationMember id' v ∨
      (id = id' ∧ u = v) := by
  by_cases heq : id = id' ∧ u = v
  · exact .inr heq
  · left
    rw [Bool.eq_iff_iff, isConversationMember_iff, isConversationMember_iff]
    refine exists_congr fun r => ?_
    rw [(removeGroupMember_removed id u db).mem, and_assoc]
    refine and_congr_right fun _ => ⟨And.right, fun h => ⟨fun h' => heq ?_, h⟩⟩
    exact ⟨h'.1.symm.trans h.1, h'.2.symm.trans h.2⟩

/-- The connections that are busy after `c` got a new worker. -/
theorem busy_setWorker {w : Worker Db (Connection × Option Response)} {c' : Nat} (hne : c' ≠ c) :
    MessageServer.Busy { s with pool := s.pool.setWorker c w } c' ↔ s.Busy c' := by
  unfold MessageServer.Busy
  rw [Pool.workers_setWorker, Function.update_of_ne hne]

theorem not_busy_idle {k : Connection × Option Response} :
    ¬MessageServer.Busy { s with pool := s.pool.setWorker c { here := k } } c := by
  unfold MessageServer.Busy
  rw [Pool.workers_setWorker, Function.update_self]
  exact Bool.false_ne_true

theorem FlowInvariant.connect (h : FlowInvariant qt s g) {k : Connection × Option Response} :
    FlowInvariant qt { s with pool := s.pool.setWorker c { here := k } } g := by
  have hbusy : ∀ c', MessageServer.Busy { s with pool := s.pool.setWorker c { here := k } } c' →
      s.Busy c' := by
    intro c' hc'
    by_cases heq : c' = c
    · rw [heq] at hc'
      exact absurd hc' not_busy_idle
    · exact (busy_setWorker heq).mp hc'
  exact ⟨h.formed, h.guarded.setWorker, fun c' hc' => h.accounts c' (hbusy c' hc'),
    fun c₁ c₂ hne hc₁ hc₂ => h.apart c₁ c₂ hne (hbusy c₁ hc₁) (hbusy c₂ hc₂)⟩

theorem undisturbed_connect {k : Connection × Option Response}
    (hidle : ¬(s.pool.workers c).running.isSome) :
    Undisturbed s { s with pool := s.pool.setWorker c { here := k } } g g := by
  refine ⟨.refl _, rfl, rfl, rfl, rfl, rfl, fun c' hc' => ?_, fun c' hc' => ?_, fun _ hm => hm,
    fun _ _ => .inl rfl⟩
  · have hne : c' ≠ c := by
      rintro rfl
      exact hidle hc'
    exact ⟨(busy_setWorker hne).mpr hc', rfl, rfl⟩
  · by_cases heq : c' = c
    · rw [heq] at hc'
      exact absurd hc' not_busy_idle
    · exact .inl ((busy_setWorker heq).mp hc')

/-- An idle connection takes up a request of a user that exists. -/
theorem FlowInvariant.request (h : FlowInvariant qt s g) {task : Task}
    (hidle : ¬(s.pool.workers c).running.isSome)
    (huser : (s.pool.store.users.get task.conn.authenticatedUserId).isSome) :
    FlowInvariant qt
      { s with
        pool := s.pool.start c (Outcome.answer <$> task.handler qt)
        handled := Function.update s.handled c { task } }
      (Function.update g c { task }) := by
  have hbusy {c' : Nat} (hne : c' ≠ c) (hc' : MessageServer.Busy
      { s with
        pool := s.pool.start c (Outcome.answer <$> task.handler qt)
        handled := Function.update s.handled c { task } } c') : s.Busy c' :=
    (busy_setWorker hne).mp hc'
  have hknows : MessageGhost.Knows { task } s.pool.store :=
    ⟨huser, nofun, nofun, nofun, nofun⟩
  refine ⟨h.formed, h.guarded.start ⟨h.formed, hknows⟩ ?_, fun c' hc' => ?_, ?_⟩
  · exact (MessageFlow.handler_follows qt task).mono (fun t o ho => ⟨o, rfl, ho⟩) |>.map
  · by_cases heq : c' = c
    · subst heq
      rw [Function.update_self]
      show Accounts (Function.update s.handled c' { task } c') _
      rw [Function.update_self]
      exact ⟨rfl, rfl, rfl⟩
    · rw [Function.update_of_ne heq]
      show Accounts (Function.update s.handled c { task } c') _
      rw [Function.update_of_ne heq]
      exact h.accounts c' (hbusy heq hc')
  · -- the new handler has created no conversation yet
    intro c₁ c₂ hne hc₁ hc₂
    by_cases heq₁ : c₁ = c
    · subst heq₁
      rw [Function.update_self]
      nofun
    · by_cases heq₂ : c₂ = c
      · subst heq₂
        rw [Function.update_self]
        nofun
      · rw [Function.update_of_ne heq₁, Function.update_of_ne heq₂]
        exact h.apart c₁ c₂ hne (hbusy heq₁ hc₁) (hbusy heq₂ hc₂)

theorem undisturbed_request {task : Task} (hidle : ¬(s.pool.workers c).running.isSome) :
    Undisturbed s
      { s with
        pool := s.pool.start c (Outcome.answer <$> task.handler qt)
        handled := Function.update s.handled c { task } } g (Function.update g c { task }) := by
  refine ⟨.refl _, rfl, rfl, rfl, rfl, rfl, fun c' hc' => ?_, fun c' hc' => ?_, fun _ hm => hm,
    fun _ _ => .inl rfl⟩
  · have hne : c' ≠ c := by
      rintro rfl
      exact hidle hc'
    exact ⟨(busy_setWorker hne).mpr hc', Function.update_of_ne hne _ _, Function.update_of_ne hne _ _⟩
  · by_cases heq : c' = c
    · subst heq
      exact .inr ⟨task, Function.update_self _ _ _, Function.update_self _ _ _⟩
    · exact .inl ((busy_setWorker heq).mp hc')

/-- **Step lemma for what is no statement.** -/
theorem messageStep_undisturbed (h : FlowInvariant qt s g) {op : MessageOp}
    (hop : ∀ c, op ≠ .statement c) :
    ∃ g', FlowInvariant qt (messageStep qt s op) g' ∧ Undisturbed s (messageStep qt s op) g g' := by
  obtain ⟨hout, hformed⟩ := messageStep_outside h hop
  have hmove : ∀ {id u : Int}, ∀ m ∈ s.moved, m ∈ s.moved ++ [(id, u, s.pool.store.messages.lastId)] :=
    fun m hm => List.mem_append_left _ hm
  have hmember : ∀ {id u id' v : Int} {b b' : Bool}, (b' = b ∨ (id = id' ∧ u = v)) →
      b' = b ∨ (id', v, s.pool.store.messages.lastId) ∈
        s.moved ++ [(id, u, s.pool.store.messages.lastId)] := by
    rintro id u id' v b b' (hsame | ⟨rfl, rfl⟩)
    · exact .inl hsame
    · exact .inr (List.mem_append_right _ (List.mem_singleton_self _))
  cases op with
  | register username passwordHash =>
      refine ⟨g, h.setDb hout hformed, undisturbed_setDb hout (fun _ hm => hm) fun id u => .inl ?_⟩
      exact isConversationMember_of_eq (registerUser_outside username passwordHash _).2 id u
  | createGroup =>
      exact ⟨g, h.setDb hout hformed, undisturbed_setDb hout (fun _ hm => hm) fun _ _ => .inl rfl⟩
  | join id u role =>
      rw [messageStep_join] at hout hformed ⊢
      split at hout
      · rename_i hgroup
        rw [if_pos hgroup] at hformed ⊢
        obtain ⟨hflow, hun⟩ := And.intro (h.setDb hout hformed) (undisturbed_setDb (g := g) hout hmove
          fun id' v => hmember (insertMember_members id' v))
        exact ⟨g, ⟨hflow.formed, hflow.guarded, hflow.accounts, hflow.apart⟩, hun⟩
      · rename_i hgroup
        rw [if_neg hgroup]
        exact ⟨g, h, undisturbed_refl⟩
  | leave id u =>
      rw [messageStep_leave] at hout hformed ⊢
      split at hout
      · rename_i hgroup
        rw [if_pos hgroup] at hformed ⊢
        obtain ⟨hflow, hun⟩ := And.intro (h.setDb hout hformed) (undisturbed_setDb (g := g) hout hmove
          fun id' v => hmember (removeGroupMember_members id' v))
        exact ⟨g, ⟨hflow.formed, hflow.guarded, hflow.accounts, hflow.apart⟩, hun⟩
      · rename_i hgroup
        rw [if_neg hgroup]
        exact ⟨g, h, undisturbed_refl⟩
  | prekeys table =>
      rw [messageStep_prekeys] at hout hformed ⊢
      split at hout
      · rename_i hall
        rw [if_pos hall] at hformed ⊢
        exact ⟨g, h.setDb hout hformed, undisturbed_setDb hout (fun _ hm => hm) fun _ _ => .inl rfl⟩
      · rename_i hall
        rw [if_neg hall]
        exact ⟨g, h, undisturbed_refl⟩
  | tick seconds =>
      exact ⟨g, h.setDb hout hformed, undisturbed_setDb hout (fun _ hm => hm) fun _ _ => .inl rfl⟩
  | connect c conn =>
      rw [messageStep_connect]
      split
      · exact ⟨g, h, undisturbed_refl⟩
      · rename_i hidle
        exact ⟨g, h.connect, undisturbed_connect hidle⟩
  | request c kind requestId request =>
      rw [messageStep_request]
      dsimp only
      split
      · exact ⟨g, h, undisturbed_refl⟩
      · rename_i hcond
        obtain ⟨hidle, huser⟩ := not_or.mp hcond
        have huser := Option.ne_none_iff_isSome.mp (mt Option.isNone_iff_eq_none.mpr huser)
        exact ⟨_, h.request hidle huser, undisturbed_request hidle⟩
  | statement c => exact absurd rfl (hop c)

/-! ### Steps of a connection -/

/-- Connection `c` executes a statement: it does what the protocol allows, and is
accounted for. -/
structure Executes (qt : Qt) (s s' : MessageServer) (g g' : Nat → MessageGhost) (c : Nat) : Prop where
  running : ∃ upd next, (s.pool.workers c).running = some (.stmt upd next)
  busy : ∀ c', s'.Busy c' ↔ s.Busy c'
  grows : s.pool.store.Grows s'.pool.store
  statement : MessageStatement qt (g c) s.pool.store s'.pool.store (g' c)
  here : s'.handled c = (s.handled c).after s.count s.pool.store s'.pool.store
  others : ∀ c', c' ≠ c → s'.handled c' = s.handled c' ∧ g' c' = g c'
  replies : s'.replies = s.replies
  sent : s'.sent = s.sent
  moved : ∀ m ∈ s.moved, m ∈ s'.moved
  members : ∀ id u, s'.pool.store.isConversationMember id u = s.pool.store.isConversationMember id u ∨
    (id, u, s.pool.store.messages.lastId) ∈ s'.moved
  count : s'.count =
    if ((s.handled c).writes s.pool.store s'.pool.store).isSome then s.count + 1 else s.count
  written : ∀ i, s'.written i =
    if (s.handled c).writes s.pool.store s'.pool.store = some i then s.count + 1 else s.written i
  shown : ∀ i u, s'.shown i u =
    match (s'.handled c).wrote with
    | some (j, n) =>
        if j = i ∧ (eventsBetween s.pool.store s'.pool.store).any
          (fun e => e.userId == u && e.about == i) then max (s.shown i u) n else s.shown i u
    | none => s.shown i u

/-- Connection `c` sends the answer of its handler. -/
structure Answers (s s' : MessageServer) (g : Nat → MessageGhost) (c : Nat)
    (k : Connection × Option Response) : Prop where
  was : s.Busy c
  busy : ∀ c', s'.Busy c' ↔ s.Busy c' ∧ c' ≠ c
  store : s'.pool.store = s.pool.store
  handled : s'.handled = s.handled
  answered : Answered (g c) k
  replies : s'.replies = s.replies ++ k.2.toList.map fun response => ((s.handled c).task, response)
  sent : s'.sent = s.sent ++ (s.handled c).stored.toList.map fun i => (i, (s.handled c).seen)
  moved : s'.moved = s.moved
  count : s'.count = s.count
  written : s'.written = s.written
  shown : s'.shown = s.shown

theorem FlowInvariant.executes {upd : Db → Db} {next : Db → Prog Db (Connection × Option Response)}
    (h : FlowInvariant qt s g) (hrunning : (s.pool.workers c).running = some (.stmt upd next)) :
    ∃ g', FlowInvariant qt (s.statement c) g' ∧ Executes qt s (s.statement c) g g' c := by
  obtain ⟨t', hgrows, hstep, -, hflow⟩ := h.statement hrunning
  have hstate : s.statement c =
      { s with
        pool := s.pool.advance c
        handled := Function.update s.handled c
          ((s.handled c).after s.count s.pool.store (upd s.pool.store))
        count := (s.statement c).count
        written := (s.statement c).written
        shown := (s.statement c).shown
        moved := (s.statement c).moved } := by
    unfold MessageServer.statement
    rw [hrunning]
  have hstore : (s.statement c).pool.store = upd s.pool.store := by
    rw [hstate]
    unfold Pool.advance
    rw [hrunning]
  have hhere : (s.statement c).handled c =
      (s.handled c).after s.count s.pool.store (s.statement c).pool.store := by
    rw [hstore, hstate]
    exact Function.update_self _ _ _
  have hmoved : (s.statement c).moved = s.moved ++
      (joinedBetween s.pool.store (upd s.pool.store)).map fun r =>
        (r.conversationId, r.userId, s.pool.store.messages.lastId) := by
    unfold MessageServer.statement
    rw [hrunning]
  refine ⟨_, hflow, ⟨⟨upd, next, hrunning⟩, fun c' => ?_, hstore ▸ hgrows, ?_, hhere, fun c' hne => ?_,
    ?_, ?_, fun m hm => ?_, fun id u => ?_, ?_, fun i => ?_, fun i u => ?_⟩⟩
  · rw [hstate]
    unfold MessageServer.Busy Pool.advance
    rw [hrunning]
    by_cases heq : c' = c
    · subst heq
      show (Function.update s.pool.workers c' _ c').running.isSome = true ↔ _
      rw [Function.update_self, hrunning]
      rfl
    · show (Function.update s.pool.workers c _ c').running.isSome = true ↔ _
      rw [Function.update_of_ne heq]
  · rw [hstore, Function.update_self]
    exact hstep
  · rw [hstate]
    exact ⟨Function.update_of_ne hne _ _, Function.update_of_ne hne _ _⟩
  · rw [hstate]
  · rw [hstate]
  · rw [hmoved]
    exact List.mem_append_left _ hm
  · rw [hmoved, hstore]
    rcases hstep.joined id u with hsame | ⟨r, hr, rfl, rfl⟩
    · exact .inl hsame
    · exact .inr (List.mem_append_right _ (List.mem_map_of_mem hr))
  · rw [hstore]
    unfold MessageServer.statement
    rw [hrunning]
  · rw [hstore]
    unfold MessageServer.statement
    rw [hrunning]
  · rw [hhere, hstore]
    unfold MessageServer.statement
    generalize (s.pool.workers c).running = prog at hrunning
    subst hrunning
    rfl

theorem FlowInvariant.answers {k : Connection × Option Response} (h : FlowInvariant qt s g)
    (hrunning : (s.pool.workers c).running = some (.ret k)) :
    FlowInvariant qt (s.statement c) g ∧ Answers s (s.statement c) g c k := by
  obtain ⟨-, hanswered, -, hflow⟩ := h.answer hrunning
  have hstate : s.statement c =
      { s with
        pool := s.pool.setWorker c { here := k }
        replies := s.replies ++ k.2.toList.map fun response => ((s.handled c).task, response)
        sent := s.sent ++ (s.handled c).stored.toList.map fun i => (i, (s.handled c).seen) } := by
    unfold MessageServer.statement Pool.advance
    rw [hrunning]
  refine ⟨hflow, ?_⟩
  rw [hstate]
  refine ⟨?_, fun c' => ?_, rfl, rfl, hanswered, rfl, rfl, rfl, rfl, rfl, rfl⟩
  · unfold MessageServer.Busy
    rw [hrunning]
    rfl
  · by_cases heq : c' = c
    · rw [heq]
      exact ⟨fun hc => absurd hc not_busy_idle, fun hc => absurd rfl hc.2⟩
    · exact (busy_setWorker heq).trans (and_iff_left heq).symm

/-- **Step lemma.** A step leaves a state with a ghost state for each busy connection:
nobody is disturbed, or one connection executes a statement or sends an answer. -/
theorem messageStep_cases (h : FlowInvariant qt s g) (op : MessageOp) :
    ∃ g', FlowInvariant qt (messageStep qt s op) g' ∧
      (Undisturbed s (messageStep qt s op) g g' ∨
        (∃ c, op = .statement c ∧ Executes qt s (messageStep qt s op) g g' c) ∨
        ∃ c k, op = .statement c ∧ g' = g ∧ Answers s (messageStep qt s op) g c k) := by
  by_cases hop : ∃ c, op = .statement c
  · obtain ⟨c, rfl⟩ := hop
    show ∃ g', FlowInvariant qt (s.statement c) g' ∧ (Undisturbed s (s.statement c) g g' ∨
      (∃ c', MessageOp.statement c = .statement c' ∧ Executes qt s (s.statement c) g g' c') ∨
      ∃ c' k, MessageOp.statement c = .statement c' ∧ g' = g ∧ Answers s (s.statement c) g c' k)
    cases hrunning : (s.pool.workers c).running with
    | none =>
        have hsame : s.statement c = s := by
          unfold MessageServer.statement
          rw [hrunning]
        rw [hsame]
        exact ⟨g, h, .inl undisturbed_refl⟩
    | some prog =>
        cases prog with
        | ret k =>
            obtain ⟨hflow, hanswers⟩ := h.answers hrunning
            exact ⟨g, hflow, .inr (.inr ⟨c, k, rfl, rfl, hanswers⟩)⟩
        | stmt upd next =>
            obtain ⟨g', hflow, hexecutes⟩ := h.executes hrunning
            exact ⟨g', hflow, .inr (.inl ⟨c, rfl, hexecutes⟩)⟩
  · obtain ⟨g', hflow, hundisturbed⟩ := messageStep_undisturbed h fun c hc => hop ⟨c, hc⟩
    exact ⟨g', hflow, .inl hundisturbed⟩

end

end XYChat.Server
