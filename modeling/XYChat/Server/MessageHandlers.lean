import XYChat.Server.MessageFlow
import XYChat.Server.PrivateConversations

/-!
# The message handlers, statement by statement

Each of the three handlers follows the protocol of `MessageFlow`: it looks, stores or
rewrites its row at most once, and then tells each member in turn.
-/

namespace XYChat.Server

open XYChat.Lib
open XYChat.Lib.Prog
open E2eeCrypto (EnvelopeEntry)

theorem Db.Grows.refl (db : Db) : db.Grows db :=
  ⟨fun _ h => h, fun _ _ h => h, fun p hp => .inr ⟨p, hp, rfl⟩⟩

theorem Db.Grows.of_eq {db db' : Db} (husers : db'.users = db.users)
    (hconversations : db'.conversations = db.conversations) (hprekeys : db'.prekeys = db.prekeys) :
    db.Grows db' := by
  refine ⟨fun u hu => by rwa [husers], fun id type htype => ?_, fun p hp => .inr ⟨p, ?_, rfl⟩⟩
  · unfold Db.conversationType Db.getConversation at htype ⊢
    rwa [hconversations]
  · rwa [hprekeys] at hp

theorem Db.Grows.of_extends {db db' : Db} (h : db.Extends db') (hprekeys : db'.prekeys = db.prekeys) :
    db.Grows db' := by
  refine ⟨fun u hu => by rwa [h.users], fun id type => conversationType_of_extends h,
    fun p hp => .inr ⟨p, ?_, rfl⟩⟩
  rwa [hprekeys] at hp

theorem Db.Grows.trans {db db' db'' : Db} (h : db.Grows db') (h' : db'.Grows db'') :
    db.Grows db'' := by
  refine ⟨fun u hu => h'.users u (h.users u hu), fun id type htype => h'.types _ _ (h.types _ _ htype),
    fun p'' hp'' => ?_⟩
  rcases h'.prekeys p'' hp'' with huser | ⟨p', hp', heq'⟩
  · exact .inl huser
  · rcases h.prekeys p' hp' with huser | ⟨p, hp, heq⟩
    · rw [heq']
      exact .inl (h'.users _ huser)
    · exact .inr ⟨p, hp, heq'.trans heq⟩

theorem consumePrekeys_grows (prekeyIds : List Int) (db : Db) :
    db.Grows (db.consumePrekeys prekeyIds).1 := by
  refine ⟨fun _ h => h, fun _ _ h => h, fun p hp => ?_⟩
  obtain ⟨p', hp', rfl⟩ := List.mem_map.mp hp
  refine .inr ⟨p', hp', ?_⟩
  split <;> rfl

theorem insertMessage_aside (convId senderId : Int) (content contentType clientMessageId
    senderDeviceId : String) (db : Db) :
    (db.insertMessage convId senderId content contentType clientMessageId
        senderDeviceId).1.conversationMembers = db.conversationMembers ∧
      (db.insertMessage convId senderId content contentType clientMessageId
        senderDeviceId).1.syncEvents = db.syncEvents := by
  unfold Db.insertMessage
  split <;> exact ⟨rfl, rfl⟩

namespace MessageGhost

variable {t t' : MessageGhost} {db db' : Db}

theorem Knows.next (h : t.Knows db) : t.next.Knows db := ⟨h.me, h.peer, h.conv, h.row, h.fan⟩

/-- Some statements later, with what the handler has found and written as before. -/
structure Later (t t' : MessageGhost) : Prop where
  task : t'.task = t.task
  executed : t.executed ≤ t'.executed
  conv : t'.conv = t.conv
  row : t'.row = t.row
  fan : t'.fan = t.fan

theorem Later.refl (t : MessageGhost) : t.Later t := ⟨rfl, Nat.le_refl _, rfl, rfl, rfl⟩

theorem Later.next (t : MessageGhost) : t.Later t.next := ⟨rfl, Nat.le_succ _, rfl, rfl, rfl⟩

theorem Later.trans {t'' : MessageGhost} (h : t.Later t') (h' : t'.Later t'') : t.Later t'' :=
  ⟨h'.task.trans h.task, h.executed.trans h'.executed, h'.conv.trans h.conv, h'.row.trans h.row,
    h'.fan.trans h.fan⟩

end MessageGhost

theorem Task.rewrites_edit {k : Task} (h : k.kind = .editMessage) (db : Db) :
    k.rewrites 1 db = (db.messages.get k.messageId).any fun m => !m.deleted := by
  unfold Task.rewrites
  rw [h]
  rfl

theorem Task.rewrites_delete {k : Task} (h : k.kind = .deleteMessage) (db : Db) :
    k.rewrites 1 db = (db.messages.get k.messageId).any fun _ => true := by
  unfold Task.rewrites
  rw [h]
  rfl

/-- A send rewrites nothing. -/
theorem Task.rewrites_send {k : Task} (h : k.kind = .sendMessage) (executed : Nat) (db : Db) :
    k.rewrites executed db = false := by
  unfold Task.rewrites
  simp [h]

/-- An edit or a deletion rewrites nothing but with its second statement. -/
theorem Task.rewrites_other {k : Task} {executed : Nat} (h : executed ≠ 1) (db : Db) :
    k.rewrites executed db = false := by
  unfold Task.rewrites
  simp [h]

/-! ## How far a send has come -/

section

variable {qt : Qt} {t : MessageGhost}

/-- The message is stored under `id`, by this handler or by another. -/
structure MessageGhost.StoredAs (t : MessageGhost) (convId : Int) (content : String) (id : Int) :
    Prop where
  fan : ∃ own, t.fan = some ⟨id, convId, .message, content, own, none⟩
  row : ∃ c, t.row = some (id, c)

/-- After the statements that store the message: it is stored or not. -/
structure MessageGhost.Stores (t t' : MessageGhost) (convId : Int) (content : String)
    (r : Option Int) : Prop where
  task : t'.task = t.task
  conv : t'.conv = t.conv
  peer : t'.peer = t.peer
  failed : r = none → t'.fan = none
  stored : ∀ id ∈ r, t'.StoredAs convId content id

/-- One statement finds the message stored by another. -/
def MessageGhost.finds (t : MessageGhost) (convId : Int) (content : String) (m : MessageRow) :
    MessageGhost :=
  { t.next with
    row := some (m.id, m.conversationId)
    fan := some ⟨m.id, convId, .message, content, false, none⟩ }

theorem MessageGhost.Knows.finds {db : Db} {convId : Int} {content : String} {m : MessageRow}
    (h : t.Knows db) (hm : m ∈ db.messages.rows) (howns : t.task.Owns m) :
    (t.finds convId content m).Knows db := by
  refine ⟨h.me, h.peer, h.conv, ?_, ?_⟩
  · rintro _ ⟨⟩
    exact ⟨m, hm, rfl, rfl, fun _ => howns⟩
  · rintro _ ⟨⟩
    exact ⟨⟨m, hm, rfl, nofun⟩, nofun⟩

theorem MessageGhost.stores_finds {convId : Int} {content : String} {m : MessageRow} :
    t.Stores (t.finds convId content m) convId content (some m.id) := by
  refine ⟨rfl, rfl, rfl, nofun, ?_⟩
  rintro _ ⟨⟩
  exact ⟨⟨_, rfl⟩, ⟨_, rfl⟩⟩

/-- One statement stores the message. -/
def MessageGhost.storesRow (t : MessageGhost) (m : MessageRow) : MessageGhost :=
  { t.next with
    row := some (m.id, m.conversationId)
    fan := some ⟨m.id, m.conversationId, .message, m.content, true, none⟩ }

theorem MessageGhost.Later.stores {t₁ t' : MessageGhost} {convId : Int} {content : String}
    {r : Option Int} (h : t.Later t₁) (h' : t₁.Stores t' convId content r)
    (hpeer : t₁.peer = t.peer) : t.Stores t' convId content r :=
  ⟨h'.task.trans h.task, h'.conv.trans h.conv, h'.peer.trans hpeer, h'.failed,
    fun id hid => ⟨(h'.stored id hid).fan, (h'.stored id hid).row⟩⟩

/-- A statement that changes no row but those of the prekeys and conversations. -/
theorem MessageStatement.aside {db db' : Db} (hkind : t.task.kind = .sendMessage)
    (hmembers : db'.conversationMembers = db.conversationMembers)
    (hmessages : db'.messages = db.messages) (hevents : db'.syncEvents = db.syncEvents)
    (hgrows : db.Grows db') (hknows : t.Knows db) : MessageStatement qt t db db' t.next := by
  refine .quiet t.next hmembers hmessages hevents (Task.rewrites_send hkind _ db) rfl rfl
    (fun _ hk _ => hk) .nothing ?_
  exact hknows.next.of_kept hgrows (.of_eq hmessages)
    fun k _ => isConversationMember_of_eq hmembers k.id

/-- A handler of a send that has come to the choice of its path. -/
structure MessageGhost.Opened (t : MessageGhost) (conn : Connection) (clientMessageId : String) :
    Prop where
  kind : t.task.kind = .sendMessage
  executed : t.executed = 1
  me : conn.authenticatedUserId = t.task.conn.authenticatedUserId
  device : conn.currentDeviceId = t.task.conn.currentDeviceId
  clientId : clientMessageId = t.task.clientMessageId
  nonempty : clientMessageId ≠ ""
  conv : t.conv = none
  fan : t.fan = none

end

namespace MessageFlow

variable {qt : Qt} {α : Type} {Q : MessageGhost → α → Prop} {t : MessageGhost}

/-! ## Statements -/

/-- A statement that only reads. -/
theorem follows_read {f : Db → α} (hrewrites : ∀ db, t.task.rewrites t.executed db = false)
    (h : ∀ db, db.WellFormed → t.Knows db → ∃ t' : MessageGhost, t'.task = t.task ∧
      t'.executed = t.executed + 1 ∧ (∀ k ∈ t'.conv, k.created = true → t.conv = some k) ∧
      Learns qt t db t'.fan ∧ t'.Knows db ∧ Q t' (f db)) :
    Follows (messageProtocol qt) Q t (query f) := by
  refine follows_query fun db hdb => ?_
  obtain ⟨t', htask, hexecuted, hconv, hlearns, hknows, hQ⟩ := h db hdb.1 hdb.2
  exact ⟨t', ⟨.refl db, .quiet t' rfl rfl rfl (hrewrites db) htask hexecuted hconv hlearns hknows⟩,
    hQ⟩

/-- A statement that reads what needs no remembering. -/
theorem follows_glance {f : Db → α} (hrewrites : ∀ db, t.task.rewrites t.executed db = false)
    (h : ∀ db, db.WellFormed → t.Knows db → Q t.next (f db)) :
    Follows (messageProtocol qt) Q t (query f) :=
  follows_read hrewrites fun db hformed hknows =>
    ⟨t.next, rfl, rfl, fun _ hk _ => hk, .nothing, hknows.next, h db hformed hknows⟩

/-- A statement that changes the prekeys, or when a conversation was last used. -/
theorem follows_aside {f : Db → Db × α} (hrewrites : ∀ db, t.task.rewrites t.executed db = false)
    (hmembers : ∀ db : Db, (f db).1.conversationMembers = db.conversationMembers)
    (hmessages : ∀ db : Db, (f db).1.messages = db.messages)
    (hevents : ∀ db : Db, (f db).1.syncEvents = db.syncEvents)
    (hgrows : ∀ db : Db, db.Grows (f db).1)
    (h : ∀ a, Q t.next a) : Follows (messageProtocol qt) Q t (call f) := by
  refine follows_call fun db hdb => ⟨t.next, ⟨hgrows db, ?_⟩, h _⟩
  refine .quiet t.next (hmembers db) (hmessages db) (hevents db) (hrewrites db) rfl rfl
    (fun _ hk _ => hk) .nothing ?_
  refine hdb.2.next.of_kept (hgrows db) (.of_eq (hmessages db)) fun k _ => ?_
  exact isConversationMember_of_eq (hmembers db) k.id

/-- One event for each of those who are still to be told. -/
theorem appendSyncEvents_follows {f : Fan} {payload : Json} {l : List Int}
    (hfan : t.fan = some f) (hleft : f.left = some l) (htells : f.Tells payload)
    (hrewrites : ∀ n, t.executed ≤ n → ∀ db, t.task.rewrites n db = false) :
    Follows (messageProtocol qt) (fun t' _ => t'.task = t.task ∧ t'.row = t.row ∧
      t'.fan = some { f with left := some [] }) t (appendSyncEvents f.event.text payload l) := by
  induction l generalizing t f with
  | nil => exact follows_pure.mpr ⟨rfl, rfl, by rw [hfan, ← hleft]⟩
  | cons u rest ih =>
      refine Follows.bind (follows_update fun db hdb => ?_)
      let f' : Fan := { f with left := some rest }
      refine ⟨{ t.next with fan := some f' }, ⟨?_, ?_⟩, ?_⟩
      · unfold Db.appendSyncEvent
        split
        · exact .of_eq rfl rfl rfl
        · exact .refl db
      · refine .tell f u rest payload ?_ ?_ hfan hleft (hrewrites _ (Nat.le_refl _) db) htells rfl
        · unfold Db.appendSyncEvent
          split <;> rfl
        · unfold Db.appendSyncEvent
          split <;> rfl
      · exact ih (t := { t.next with fan := some f' }) (f := f') rfl rfl
          ⟨htells.messageId, htells.content⟩ fun n hn => hrewrites n (Nat.le_of_succ_le hn)

/-! ## Private sends -/

/-- The entry is the sender's own copy, which names no prekey. -/
abbrev OwnCopy (conn : Connection) (entry : EnvelopeEntry) : Prop :=
  entry.deviceId = conn.currentDeviceId ∧ entry.prekeyId = E2eeCrypto.selfCopyPrekeyId

/-- Each entry that names a prekey takes a statement, and one that names a valid one
names a user. -/
theorem checkEntries_follows {conn : Connection} {u : Int} {entries : List EnvelopeEntry}
    {prekeyIds : List Int} {seen : List String} {own : Bool}
    (hkind : t.task.kind = .sendMessage) (hpeer : prekeyIds = [] ∨ t.peer = some u) :
    Follows (messageProtocol qt) (fun t' r => t.Later t' ∧ ∀ ids, r = .ok ids →
        t'.executed = t.executed + entries.countP (fun e => !decide (OwnCopy conn e)) ∧
          (ids = [] ∨ t'.peer = some u)) t
      (checkEntries conn u entries prekeyIds seen own) := by
  induction entries generalizing t prekeyIds seen own with
  | nil =>
      refine follows_pure.mpr ⟨.refl t, fun ids hids => ⟨rfl, ?_⟩⟩
      rw [← Except.ok.inj hids]
      exact hpeer
  | cons entry rest ih =>
      unfold checkEntries
      refine follows_ite (fun hown => ?_) fun hown => ?_
      · have hcount : (entry :: rest).countP (fun e => !decide (OwnCopy conn e)) =
            rest.countP (fun e => !decide (OwnCopy conn e)) :=
          List.countP_cons_of_neg (by simp [hown])
        refine follows_ite (fun _ => follows_pure.mpr ⟨.refl t, fun _ hids => ?_⟩) fun _ => ?_
        · cases hids
        · rw [hcount]
          exact ih hkind hpeer
      have hcount : (entry :: rest).countP (fun e => !decide (OwnCopy conn e)) =
          rest.countP (fun e => !decide (OwnCopy conn e)) + 1 :=
        List.countP_cons_of_pos ((Bool.not_eq_true' _).mpr (decide_eq_false hown))
      refine follows_ite (fun _ => follows_pure.mpr ⟨.refl t, fun _ hids => ?_⟩) fun _ => ?_
      · cases hids
      refine Follows.bind (follows_read (fun db => Task.rewrites_send hkind _ db) ?_)
      intro db hformed hknows
      by_cases hvalid : db.validateClaimedPrekey u entry.deviceId entry.prekeyId = true
      · -- the prekey is one of `u`'s, so there is such a user
        have huser : (db.users.get u).isSome := by
          unfold Db.validateClaimedPrekey at hvalid
          obtain ⟨p, hp, hcond⟩ := List.any_eq_true.mp hvalid
          simp only [Bool.and_eq_true, beq_iff_eq] at hcond
          have := hformed.prekeyUser p hp
          rwa [hcond.1.1.2] at this
        let t₁ : MessageGhost := { t.next with peer := some u }
        have hlater : t.Later t₁ := ⟨rfl, Nat.le_succ _, rfl, rfl, rfl⟩
        refine ⟨t₁, rfl, rfl, fun _ hk _ => hk, .nothing, ⟨hknows.me, ?_, hknows.conv, hknows.row,
          hknows.fan⟩, ?_⟩
        · rintro _ ⟨⟩
          exact huser
        · rw [if_pos hvalid]
          refine (ih (t := t₁) hkind (.inr rfl)).mono ?_
          rintro t' r ⟨hlater', hids⟩
          refine ⟨hlater.trans hlater', fun ids hok => ?_⟩
          obtain ⟨hexecuted, hpeer'⟩ := hids ids hok
          refine ⟨?_, hpeer'⟩
          rw [hexecuted, hcount]
          show t.executed + 1 + _ = _
          omega
      · refine ⟨t.next, rfl, rfl, fun _ hk _ => hk, .nothing, hknows.next, ?_⟩
        rw [if_neg hvalid]
        refine follows_pure.mpr ⟨.next t, fun _ hids => ?_⟩
        cases hids

/-- The member row of a user that exists and is no member yet. -/
theorem insertMember_joins {db : Db} {id u : Int} (hconv : (db.conversationType id).isSome)
    (huser : (db.users.get u).isSome) (hnew : db.isConversationMember id u = false) :
    ∃ r : MemberRow, r.conversationId = id ∧ r.userId = u ∧
      (db.insertMember id u .member).1.conversationMembers.rows =
        db.conversationMembers.rows ++ [r] := by
  rcases insertMember_cases id u .member db with hsame | ⟨r, hr, hu, _, _, hadded⟩
  · have hexists : (db.getConversation id).isSome = true := by
      unfold Db.conversationType at hconv
      rwa [Option.isSome_map] at hconv
    unfold Db.insertMember at hsame
    rw [if_pos (by rw [hexists, huser, hnew]; rfl)] at hsame
    cases (Prod.mk.inj hsame).2
  · exact ⟨r, hr, hu, hadded.rows⟩

theorem insertMember_aside (id u : Int) (db : Db) :
    (db.insertMember id u .member).1.messages = db.messages ∧
      (db.insertMember id u .member).1.syncEvents = db.syncEvents ∧
      db.Grows (db.insertMember id u .member).1 := by
  unfold Db.insertMember
  split
  · exact ⟨rfl, rfl, .of_eq rfl rfl rfl⟩
  · exact ⟨rfl, rfl, .refl db⟩

/-- One of the two joins the conversation that has just been created. -/
theorem join_follows {id u : Int} {l : List Int} {Q : MessageGhost → Bool → Prop}
    (hkind : t.task.kind = .sendMessage) (hconv : t.conv = some ⟨id, l, true⟩) (hl : l.length ≤ 1)
    (hnew : u ∉ l) (huser : ∀ db : Db, t.Knows db → (db.users.get u).isSome)
    (hQ : ∀ ok, Q { t.next with conv := some ⟨id, l ++ [u], true⟩ } ok) :
    Follows (messageProtocol qt) Q t (call (Db.insertMember id u .member)) := by
  refine follows_call fun db hdb => ?_
  obtain ⟨htype, hmembers, _⟩ := hdb.2.conv _ hconv
  have hmember : db.isConversationMember id u = false := by
    rw [Bool.eq_false_iff]
    exact fun h => hnew ((hmembers u).mp h)
  obtain ⟨r, hr, hu, hrows⟩ := insertMember_joins (by rw [htype]; rfl) (huser db hdb.2) hmember
  obtain ⟨hmessages, hevents, hgrows⟩ := insertMember_aside id u db
  exact ⟨_, ⟨hgrows, .join id u l hconv hl hnew (huser db hdb.2) hkind ⟨r, hr, hu, hrows⟩ hmessages
    hevents⟩, hQ _⟩

/-- The private conversation of the sender and the recipient, found or created. -/
theorem getOrCreatePrivateConversation_follows {u : Int} (hkind : t.task.kind = .sendMessage)
    (hne : u ≠ t.task.conn.authenticatedUserId) (hpeer : t.peer = some u) (hconv : t.conv = none) :
    Follows (messageProtocol qt) (fun t' r => t'.task = t.task ∧ t.executed ≤ t'.executed ∧
        t'.row = t.row ∧ t'.fan = t.fan ∧ t'.peer = t.peer ∧ ∃ k : Known, r = some k.id ∧
          t'.conv = some k ∧ ∀ v, v ∈ k.members ↔ v = t.task.conn.authenticatedUserId ∨ v = u) t
      (getOrCreatePrivateConversation t.task.conn.authenticatedUserId u) := by
  unfold getOrCreatePrivateConversation
  refine follows_ite (fun heq => absurd heq.symm hne) fun _ => ?_
  refine Follows.bind (follows_read (fun db => Task.rewrites_send hkind _ db) ?_)
  intro db hformed hknows
  cases hfound : db.findPrivateConversation t.task.conn.authenticatedUserId u with
  | some id =>
      obtain ⟨htype, hme, hu⟩ := Db.findPrivateConversation_some hfound
      rw [Db.mem_memberUsers] at hme hu
      let k : Known := ⟨id, [t.task.conn.authenticatedUserId, u], false⟩
      refine ⟨{ t.next with conv := some k }, rfl, rfl, ?_, .nothing, ⟨hknows.me, hknows.peer, ?_,
        hknows.row, hknows.fan⟩, follows_pure.mpr ⟨rfl, Nat.le_succ _, rfl, rfl, rfl, k, rfl, rfl,
          fun v => by simp [k]⟩⟩
      · rintro _ ⟨⟩ ⟨⟩
      · rintro _ ⟨⟩
        refine ⟨htype, fun v => ⟨fun hv => ?_, fun hv => ?_⟩, fun _ => ⟨_, _, hne.symm, rfl⟩⟩
        · -- a private conversation has no third member
          obtain ⟨a, b, hab⟩ := hformed.pair id htype
          have hme' := hab _ hme
          have hu' := hab _ hu
          have hv' := hab v hv
          simp only [k, List.mem_cons, List.not_mem_nil, or_false]
          omega
        · simp only [k, List.mem_cons, List.not_mem_nil, or_false] at hv
          rcases hv with rfl | rfl
          · exact hme
          · exact hu
  | none =>
      refine ⟨t.next, rfl, rfl, fun _ hk _ => hk, .nothing, hknows.next, ?_⟩
      refine Follows.bind (follows_call fun db₁ _ => ?_)
      have htypes := fun i => @Db.insertConversation_type db₁ i
      refine ⟨_, ⟨⟨fun _ h => h, fun i type htype => ?_, fun p hp => .inr ⟨p, hp, rfl⟩⟩,
        .create (db₁.conversations.lastId + 1) rfl rfl rfl hkind hconv Db.conversationType_lastId
          (by rw [htypes, if_pos rfl])⟩, ?_⟩
      · rw [htypes]
        split
        · rename_i heq
          rw [heq, Db.conversationType_lastId] at htype
          cases htype
        · exact htype
      refine Follows.bind (join_follows hkind rfl (by simp) (by simp) (fun _ h => h.me) fun _ => ?_)
      refine Follows.bind (join_follows hkind rfl (by simp) (by simpa using hne)
        (fun _ h => h.peer u hpeer) fun _ => ?_)
      refine follows_pure.mpr ⟨rfl, ?_, rfl, rfl, rfl, _, rfl, rfl, fun v => by simp⟩
      show t.executed ≤ t.executed + 1 + 1 + 1 + 1
      omega

/-! ## Storing the message -/

/-- What `getMessageByClientKey` finds is a row of the key. -/
theorem owns_of_found {k : Task} {db : Db} {m : MessageRow} (hformed : db.WellFormed)
    (h : db.getMessageByClientKey k.conn.authenticatedUserId k.conn.currentDeviceId
      k.clientMessageId = some m) : m ∈ db.messages.rows ∧ k.Owns m := by
  unfold Db.getMessageByClientKey at h
  split at h
  · cases h
  have hm := List.mem_of_find?_eq_some h
  have hcond := List.find?_some h
  simp only [Bool.and_eq_true, beq_iff_eq] at hcond
  obtain ⟨⟨hsender, hdevice⟩, hclient⟩ := hcond
  refine ⟨hm, hsender, ?_, hclient⟩
  -- no row has the empty device id
  have hnonempty : k.conn.currentDeviceId ≠ "" := by
    intro hempty
    rw [hempty] at hdevice
    exact hformed.deviceId m hm hdevice
  rw [hdevice]
  exact (if_neg hnonempty).symm

/-- The row that the key's `INSERT` writes. -/
theorem owns_newMessage {k : Task} {convId : Int} {content contentType : String} {db : Db}
    (hclient : k.clientMessageId ≠ "") :
    k.Owns (newMessage db convId k.conn.authenticatedUserId content contentType k.clientMessageId
      k.conn.currentDeviceId) :=
  ⟨rfl, rfl, if_neg hclient⟩

/-- `sendMessage`, statement by statement. -/
theorem sendMessage_follows {convId : Int} {content contentType : String}
    (hkind : t.task.kind = .sendMessage) (hclient : t.task.clientMessageId ≠ "")
    (hready : t.task.checks qt ≤ t.executed) (hfan : t.fan = none) :
    Follows (messageProtocol qt) (fun t' r => t.Stores t' convId content r) t
      (sendMessage convId t.task.conn.authenticatedUserId content contentType
        t.task.clientMessageId t.task.conn.currentDeviceId) := by
  -- a lookup of the key that finds a row
  have hfound : ∀ (t₁ : MessageGhost) (db : Db) (m : MessageRow), t.Later t₁ →
      db.WellFormed → t₁.Knows db → db.getMessageByClientKey t.task.conn.authenticatedUserId
        t.task.conn.currentDeviceId t.task.clientMessageId = some m →
      Learns qt t₁ db (t₁.finds convId content m).fan ∧ (t₁.finds convId content m).Knows db := by
    intro t₁ db m hlater hformed hknows hkey
    rw [← hlater.task] at hkey
    obtain ⟨hm, howns⟩ := owns_of_found hformed hkey
    refine ⟨.other _ (hlater.fan.trans hfan) (by rw [hlater.task]; exact hkind) rfl rfl ?_
      ⟨m, hm, howns⟩, hknows.finds hm howns⟩
    rw [hlater.task]
    exact hready.trans hlater.executed
  unfold sendMessage
  refine Follows.bind (follows_read (fun db => Task.rewrites_send hkind _ db) ?_)
  intro db hformed hknows
  cases hkey : db.getMessageByClientKey t.task.conn.authenticatedUserId
      t.task.conn.currentDeviceId t.task.clientMessageId with
  | some m =>
      obtain ⟨hlearns, hknows'⟩ := hfound t db m (.refl t) hformed hknows hkey
      exact ⟨t.finds convId content m, rfl, rfl, fun _ hk _ => hk, hlearns, hknows',
        follows_pure.mpr MessageGhost.stores_finds⟩
  | none =>
      refine ⟨t.next, rfl, rfl, fun _ hk _ => hk, .nothing, hknows.next, ?_⟩
      refine Follows.bind (follows_call fun db₁ hdb₁ => ?_)
      rcases insertMessage_spec convId t.task.conn.authenticatedUserId content contentType
          t.task.clientMessageId t.task.conn.currentDeviceId db₁ with
        ⟨_, hnone⟩ | ⟨_, db', hsome, hext, hprekeys, happended⟩
      · -- the key is taken: the row of another is looked up
        rw [hnone]
        refine ⟨t.next.next, ⟨.refl db₁, .aside hkind rfl rfl rfl (.refl db₁) hdb₁.2⟩, ?_⟩
        refine Follows.bind (follows_read (fun db => Task.rewrites_send hkind _ db) ?_)
        intro db₂ hformed₂ hknows₂
        have hlater : t.Later t.next.next := (MessageGhost.Later.next t).trans (.next _)
        cases hkey₂ : db₂.getMessageByClientKey t.task.conn.authenticatedUserId
            t.task.conn.currentDeviceId t.task.clientMessageId with
        | some m =>
            obtain ⟨hlearns, hknows'⟩ := hfound _ db₂ m hlater hformed₂ hknows₂ hkey₂
            exact ⟨t.next.next.finds convId content m, rfl, rfl, fun _ hk _ => hk, hlearns, hknows',
              follows_pure.mpr (hlater.stores MessageGhost.stores_finds rfl)⟩
        | none =>
            exact ⟨t.next.next.next, rfl, rfl, fun _ hk _ => hk, .nothing, hknows₂.next,
              follows_pure.mpr ⟨rfl, rfl, rfl, fun _ => hfan, nofun⟩⟩
      · obtain ⟨hmembers, hevents⟩ := insertMessage_aside convId t.task.conn.authenticatedUserId
          content contentType t.task.clientMessageId t.task.conn.currentDeviceId db₁
        rw [hsome] at hmembers hevents ⊢
        generalize hm : newMessage db₁ convId t.task.conn.authenticatedUserId content contentType
          t.task.clientMessageId t.task.conn.currentDeviceId = m at happended
        have howns : t.task.Owns m := by rw [← hm]; exact owns_newMessage hclient
        have hid : some (db₁.messages.lastId + 1) = some m.id := by rw [← hm]; rfl
        have hconv : m.conversationId = convId := by rw [← hm]; rfl
        have hcontent : m.content = content := by rw [← hm]; rfl
        refine ⟨t.next.storesRow m, ⟨.of_extends hext hprekeys, .store m hmembers hevents happended
          hkind hfan howns (by rw [← hm]; rfl) (Nat.le_succ_of_le hready)⟩, ?_⟩
        have hkind₁ : (t.next.storesRow m).task.kind = .sendMessage := hkind
        refine Follows.bind (follows_update fun db₂ hdb₂ => ⟨(t.next.storesRow m).next,
          ⟨.of_extends (Db.extends_touchConversation convId db₂) rfl,
            .aside hkind₁ rfl rfl rfl (.of_extends (Db.extends_touchConversation convId db₂) rfl)
              hdb₂.2⟩, ?_⟩)
        refine follows_pure.mpr ?_
        rw [hid, ← hconv, ← hcontent]
        refine ⟨rfl, rfl, rfl, nofun, ?_⟩
        rintro _ ⟨⟩
        exact ⟨⟨_, rfl⟩, ⟨_, rfl⟩⟩

/-- The transaction of a private send stores the message, or finds it stored. -/
theorem storePrivateMessage_follows {convId : Int} {content contentType : String}
    {prekeyIds : List Int} (hkind : t.task.kind = .sendMessage) (hclient : t.task.clientMessageId ≠ "")
    (hready : t.task.checks qt ≤ t.executed) (hfan : t.fan = none) :
    Follows (messageProtocol qt) (fun t' r => t.Stores t' convId content r) t
      (storePrivateMessage convId t.task.conn.authenticatedUserId content contentType
        t.task.clientMessageId t.task.conn.currentDeviceId prekeyIds) := by
  refine follows_atomically fun db hdb => ?_
  obtain ⟨hformed, hknows⟩ := hdb
  have hconsume := consumePrekeys_grows prekeyIds
  unfold sendMessage
  cases hkey : db.getMessageByClientKey t.task.conn.authenticatedUserId
      t.task.conn.currentDeviceId t.task.clientMessageId with
  | some m =>
      obtain ⟨hm, howns⟩ := owns_of_found hformed hkey
      simp only [exec_bind, exec_query, hkey, exec_pure, exec_call]
      refine ⟨t.finds convId content m, ⟨hconsume db, .quiet _ rfl rfl rfl
        (Task.rewrites_send hkind _ db) rfl rfl (fun _ hk _ => hk)
        (.other _ hfan hkind rfl rfl hready ⟨m, hm, howns⟩) ?_⟩, MessageGhost.stores_finds⟩
      exact (hknows.finds hm howns).of_kept (hconsume db) (.of_eq rfl) fun _ _ _ => rfl
  | none =>
      simp only [exec_bind, exec_query, hkey, exec_call]
      rcases insertMessage_spec convId t.task.conn.authenticatedUserId content contentType
          t.task.clientMessageId t.task.conn.currentDeviceId db with
        ⟨_, hnone⟩ | ⟨_, db', hsome, hext, hprekeys, happended⟩
      · rw [hnone]
        simp only [exec_bind, exec_query, exec_pure, hkey, Option.map_none]
        exact ⟨t.next, ⟨.refl db, .aside hkind rfl rfl rfl (.refl db) hknows⟩, rfl, rfl, rfl,
          fun _ => hfan, (by intros; contradiction)⟩
      · obtain ⟨hmembers, hevents⟩ := insertMessage_aside convId t.task.conn.authenticatedUserId
          content contentType t.task.clientMessageId t.task.conn.currentDeviceId db
        rw [hsome] at hmembers hevents ⊢
        simp only [exec_bind, exec_pure, exec_update, exec_call]
        generalize hm : newMessage db convId t.task.conn.authenticatedUserId content contentType
          t.task.clientMessageId t.task.conn.currentDeviceId = m at happended
        have howns : t.task.Owns m := by rw [← hm]; exact owns_newMessage hclient
        have htouch : db'.Extends (db'.touchConversation convId) := Db.extends_touchConversation _ _
        have hlast : (db'.touchConversation convId).Extends
          ((db'.touchConversation convId).consumePrekeys prekeyIds).1 := .of_eq rfl rfl
        refine ⟨t.storesRow m, ⟨?_, .store m hmembers hevents
          ((happended.of_after htouch rfl).of_after hlast rfl) hkind hfan howns (by rw [← hm]; rfl)
          hready⟩, ?_⟩
        · exact (Db.Grows.of_extends (hext.trans htouch) hprekeys).trans (hconsume _)
        · rw [← hm]
          refine ⟨rfl, rfl, rfl, (by intros; contradiction), ?_⟩
          rintro _ ⟨⟩
          exact ⟨⟨_, rfl⟩, ⟨_, rfl⟩⟩

/-- The statements that store a group message. -/
theorem storeGroupMessage_follows {convId : Int} {content contentType : String}
    {prekeyIds : List Int} (hkind : t.task.kind = .sendMessage) (hclient : t.task.clientMessageId ≠ "")
    (hready : t.task.checks qt ≤ t.executed) (hfan : t.fan = none) :
    Follows (messageProtocol qt) (fun t' r => t.Stores t' convId content r) t
      (storeGroupMessage convId t.task.conn.authenticatedUserId content contentType
        t.task.clientMessageId t.task.conn.currentDeviceId prekeyIds) := by
  refine Follows.bind ((sendMessage_follows hkind hclient hready hfan).mono ?_)
  rintro t₁ r hstores
  cases r with
  | none => exact follows_pure.mpr hstores
  | some id =>
      refine follows_ite (fun _ => follows_pure.mpr hstores) fun _ => ?_
      have hkind₁ : t₁.task.kind = .sendMessage := by rw [hstores.task]; exact hkind
      refine Follows.bind (follows_aside (fun db => Task.rewrites_send hkind₁ _ db) (fun _ => rfl)
        (fun _ => rfl) (fun _ => rfl) (consumePrekeys_grows prekeyIds) fun _ => ?_)
      exact follows_pure.mpr ⟨hstores.task, hstores.conv, hstores.peer, nofun,
        fun i hi => ⟨(hstores.stored i hi).fan, (hstores.stored i hi).row⟩⟩

/-! ## Telling the members -/

/-- Those to be told are known: each is told, and the send is answered. -/
theorem announceMessage_follows {f : Fan} {payload : Json} {l : List Int} {o : Outcome}
    (hkind : t.task.kind = .sendMessage) (hfan : t.fan = some f) (hleft : f.left = some l)
    (hevent : f.event = .message) (htells : f.Tells payload)
    (hrow : ∃ c, t.row = some (f.messageId, c))
    (ho : o.response.data.value "messageId" = .int f.messageId) :
    Follows (messageProtocol qt) Ended t (do
      appendSyncEvents "message" payload l
      return o) := by
  have hfollows := @appendSyncEvents_follows qt t f payload l hfan hleft htells
    fun n _ db => Task.rewrites_send hkind n db
  rw [hevent] at hfollows
  refine Follows.bind (hfollows.mono ?_)
  rintro t' _ ⟨htask, hrow', hfan'⟩
  refine follows_pure.mpr ⟨?_, fun _ _ => ?_⟩
  · rw [hfan']
    rintro _ ⟨⟩
    rfl
  · obtain ⟨c, hc⟩ := hrow
    exact ⟨(f.messageId, c), hrow'.trans hc, ho⟩

theorem messageEvent_tells {id convId senderId createdAt : Int}
    {content contentType clientMessageId : String} {own : Bool} {left : Option (List Int)} :
    Fan.Tells ⟨id, convId, .message, content, own, left⟩
      (messageEvent qt id convId senderId content contentType clientMessageId createdAt) :=
  ⟨rfl, fun _ => rfl⟩

theorem fanOutPrivateMessage_follows {requestId : Nat} {conn : Connection} {u convId id : Int}
    {content contentType clientMessageId : String} {own : Bool} {k : Known}
    (hkind : t.task.kind = .sendMessage)
    (hme : conn.authenticatedUserId = t.task.conn.authenticatedUserId)
    (hne : u ≠ t.task.conn.authenticatedUserId) (hpeer : t.peer = some u)
    (hfan : t.fan = some ⟨id, convId, .message, content, own, none⟩)
    (hrow : ∃ c, t.row = some (id, c)) (hconv : t.conv = some k) (hid : k.id = convId)
    (hmembers : ∀ v, v ∈ k.members ↔ v = t.task.conn.authenticatedUserId ∨ v = u) :
    Follows (messageProtocol qt) Ended t
      (fanOutPrivateMessage qt requestId conn u convId content contentType clientMessageId id) := by
  unfold fanOutPrivateMessage
  refine Follows.bind (follows_read (fun db => Task.rewrites_send hkind _ db) ?_)
  intro db _ hknows
  rw [hme]
  let f : Fan := ⟨id, convId, .message, content, own, some [u, t.task.conn.authenticatedUserId]⟩
  refine ⟨{ t.next with fan := some f }, rfl, rfl, fun _ hk _ => hk,
    .audience _ [u, t.task.conn.authenticatedUserId] hfan rfl (by simpa using hne) ?_,
    ⟨hknows.me, hknows.peer, hknows.conv, hknows.row, ?_⟩, ?_⟩
  · intro _ v
    obtain ⟨_, hmem, _⟩ := hknows.conv k hconv
    rw [← hid, hmem v, hmembers v, List.mem_cons, List.mem_singleton, or_comm]
  · rintro _ ⟨⟩
    refine ⟨(hknows.fan _ hfan).1, ?_⟩
    rintro _ ⟨⟩ v hv
    rcases List.mem_cons.mp hv with rfl | hv
    · exact hknows.peer _ hpeer
    · rw [List.mem_singleton.mp hv]
      exact hknows.me
  · exact announceMessage_follows hkind rfl rfl rfl messageEvent_tells hrow rfl

/-- The members of a conversation, as they are read, no one twice. -/
theorem getConversationMemberIds_nodup {db : Db} (h : db.WellFormed) (id : Int) :
    (db.getConversationMemberIds id).Nodup := by
  unfold Db.getConversationMemberIds
  refine List.Nodup.map_on (fun r hr r' hr' heq => ?_)
    (((List.perm_insertionSort _ _).nodup_iff).mpr ((Table.keys_nodup.of_map _).filter _))
  obtain ⟨hmem, hconv⟩ := List.mem_filter.mp ((List.mem_insertionSort _).mp hr)
  obtain ⟨hmem', hconv'⟩ := List.mem_filter.mp ((List.mem_insertionSort _).mp hr')
  exact h.unique r hmem r' hmem' ((beq_iff_eq.mp hconv).trans (beq_iff_eq.mp hconv').symm) heq

theorem mem_getConversationMemberIds {db : Db} {id u : Int} :
    u ∈ db.getConversationMemberIds id ↔ db.isConversationMember id u = true := by
  unfold Db.getConversationMemberIds
  rw [isConversationMember_iff, List.mem_map]
  simp only [List.mem_insertionSort, List.mem_filter, beq_iff_eq, and_assoc]

/-- The statement that reads who is to be told. -/
theorem follows_members {f : Fan} {convId : Int}
    (hrewrites : ∀ db, t.task.rewrites t.executed db = false)
    (hfan : t.fan = some f) (hleft : f.left = none) (hconv : f.conversationId = convId)
    {Q : MessageGhost → List Int → Prop}
    (h : ∀ l, Q { t.next with fan := some { f with left := some l } } l) :
    Follows (messageProtocol qt) Q t (query (·.getConversationMemberIds convId)) := by
  subst hconv
  refine follows_read hrewrites fun db hformed hknows => ?_
  let f' : Fan := { f with left := some (db.getConversationMemberIds f.conversationId) }
  refine ⟨{ t.next with fan := some f' }, rfl, rfl, fun _ hk _ => hk, .audience f _ hfan hleft
    (getConversationMemberIds_nodup hformed _) fun _ u => mem_getConversationMemberIds,
    ⟨hknows.me, hknows.peer, hknows.conv, hknows.row, ?_⟩, h _⟩
  rintro _ ⟨⟩
  refine ⟨(hknows.fan f hfan).1, ?_⟩
  rintro _ ⟨⟩ u hu
  obtain ⟨r, hr, _, rfl⟩ := (isConversationMember_iff _ u).mp (mem_getConversationMemberIds.mp hu)
  exact hformed.memberUser r hr

theorem fanOutGroupMessage_follows {requestId : Nat} {conn : Connection} {convId id : Int}
    {content contentType clientMessageId : String} {own : Bool}
    (hkind : t.task.kind = .sendMessage)
    (hfan : t.fan = some ⟨id, convId, .message, content, own, none⟩)
    (hrow : ∃ c, t.row = some (id, c)) : Follows (messageProtocol qt) Ended t
      (fanOutGroupMessage qt requestId conn convId content contentType clientMessageId id) := by
  unfold fanOutGroupMessage
  refine Follows.bind (follows_glance (fun db => Task.rewrites_send hkind _ db) fun _ _ _ => ?_)
  refine Follows.bind (follows_glance (fun db => Task.rewrites_send hkind _ db) fun _ _ _ => ?_)
  refine Follows.bind (follows_members (t := t.next.next)
    (f := ⟨id, convId, .message, content, own, none⟩) (fun db => Task.rewrites_send hkind _ db)
      hfan rfl rfl fun l => ?_)
  exact announceMessage_follows hkind rfl rfl rfl messageEvent_tells hrow rfl

/-! ## The handlers -/

/-- A refusal ends a handler that has written nothing. -/
theorem ended_reply {requestId : Nat} {conn : Connection} {messageType : MessageType}
    {code : ErrorCode} {message : String} (hfan : t.fan = none) (hcode : code ≠ .ok) :
    Ended t (conn.reply requestId messageType code message) := by
  refine ⟨?_, fun _ hok => absurd hok hcode⟩
  rw [hfan]
  nofun

/-- So does the answer to a retry whose message the handler has found. -/
theorem ended_replyReused {requestId : Nat} {conn : Connection} {clientMessageId : String}
    {m : MessageRow} (hfan : t.fan = none) :
    Ended { t with row := some (m.id, m.conversationId) }
      (replyReused conn requestId clientMessageId m) := by
  refine ⟨?_, fun _ _ => ⟨_, rfl, rfl⟩⟩
  rw [hfan]
  nofun

/-- The lookup of the key finds the message of an earlier send, or nothing. -/
theorem follows_lookup {requestId : Nat} {conn : Connection} {clientMessageId : String}
    {p : Prog Db Outcome} (hkind : t.task.kind = .sendMessage)
    (hme : conn.authenticatedUserId = t.task.conn.authenticatedUserId)
    (hdevice : conn.currentDeviceId = t.task.conn.currentDeviceId)
    (hclient : clientMessageId = t.task.clientMessageId) (hfan : t.fan = none)
    (hp : Follows (messageProtocol qt) Ended t.next p) :
    Follows (messageProtocol qt) Ended t (do
      match ← Prog.query (·.getMessageByClientKey conn.authenticatedUserId conn.currentDeviceId
          clientMessageId) with
      | some existing => return replyReused conn requestId clientMessageId existing
      | none => p) := by
  rw [hme, hdevice, hclient]
  refine Follows.bind (follows_read (fun db => Task.rewrites_send hkind _ db) ?_)
  intro db hformed hknows
  cases hkey : db.getMessageByClientKey t.task.conn.authenticatedUserId
      t.task.conn.currentDeviceId t.task.clientMessageId with
  | some m =>
      obtain ⟨hm, howns⟩ := owns_of_found hformed hkey
      refine ⟨{ t.next with row := some (m.id, m.conversationId) }, rfl, rfl, fun _ hk _ => hk,
        .nothing, ⟨hknows.me, hknows.peer, hknows.conv, ?_, hknows.fan⟩,
        follows_pure.mpr (ended_replyReused (t := t.next) hfan)⟩
      rintro _ ⟨⟩
      exact ⟨m, hm, rfl, rfl, fun _ => howns⟩
  | none => exact ⟨t.next, rfl, rfl, fun _ hk _ => hk, .nothing, hknows.next, hp⟩

theorem processSendPrivateMessage_follows {requestId : Nat} {conn : Connection}
    {request : Json} {clientMessageId : String} (h : t.Opened conn clientMessageId)
    (hrequest : t.task.request = request)
    (hprivate : ¬0 < (request.value "conversationId").toLongLong) :
    Follows (messageProtocol qt) Ended t
      (processSendPrivateMessage qt requestId conn request clientMessageId) := by
  unfold processSendPrivateMessage
  refine follows_ite (fun _ => follows_pure.mpr (ended_reply h.fan nofun)) fun htarget => ?_
  refine follows_ite (fun _ => follows_pure.mpr (ended_reply h.fan nofun)) fun _ => ?_
  refine follows_lookup h.kind h.me h.device h.clientId h.fan ?_
  cases hdecode : E2eeCrypto.decodeEnvelope qt ((request.value "content").toStr "") with
  | none => exact follows_pure.mpr (ended_reply h.fan nofun)
  | some entries =>
      refine Follows.bind ((checkEntries_follows (t := t.next) h.kind (.inl rfl)).mono ?_)
      rintro t₁ r ⟨hlater, hids⟩
      have hfan₁ : t₁.fan = none := hlater.fan.trans h.fan
      rcases r with message | (_ | ⟨prekeyId, prekeyIds⟩)
      · exact follows_pure.mpr (ended_reply hfan₁ nofun)
      · exact follows_pure.mpr (ended_reply hfan₁ nofun)
      · obtain ⟨hexecuted, hpeer⟩ := hids _ rfl
        replace hpeer := hpeer.resolve_left (List.cons_ne_nil _ _)
        have htask₁ : t₁.task = t.task := hlater.task
        have hkind₁ : t₁.task.kind = .sendMessage := by rw [htask₁]; exact h.kind
        have hready₁ : t₁.task.checks qt ≤ t₁.executed := by
          rw [htask₁, hexecuted]
          unfold Task.checks
          rw [hrequest, if_neg hprivate, hdecode, ← h.device]
          show 2 + _ ≤ t.executed + 1 + _
          rw [h.executed]
          exact Nat.le_refl _
        have hne : (request.value "toUserId").toLongLong ≠ t₁.task.conn.authenticatedUserId := by
          rw [htask₁, ← h.me]
          exact fun heq => htarget (.inr heq)
        rw [h.me, ← htask₁]
        refine Follows.bind ((getOrCreatePrivateConversation_follows hkind₁ hne hpeer
          (hlater.conv.trans h.conv)).mono ?_)
        rintro t₂ _ ⟨htask₂, hlater₂, _, hfan₂, hpeer₂, k, rfl, hconv₂, hmembers⟩
        dsimp only
        have hkind₂ : t₂.task.kind = .sendMessage := by rw [htask₂]; exact hkind₁
        have hready₂ : t₂.task.checks qt ≤ t₂.executed := by
          rw [htask₂]
          exact hready₁.trans hlater₂
        have hclient₂ : clientMessageId = t₂.task.clientMessageId := by
          rw [htask₂, htask₁]
          exact h.clientId
        have hdevice₂ : conn.currentDeviceId = t₂.task.conn.currentDeviceId := by
          rw [htask₂, htask₁]
          exact h.device
        rw [hdevice₂, hclient₂, ← htask₂]
        refine Follows.bind ((storePrivateMessage_follows hkind₂ (hclient₂ ▸ h.nonempty) hready₂
          (hfan₂.trans hfan₁)).mono ?_)
        rintro t₃ stored hstores
        cases stored with
        | none => exact follows_pure.mpr (ended_reply (hstores.failed rfl) nofun)
        | some id =>
            obtain ⟨⟨own, hfan₃⟩, hrow₃⟩ := hstores.stored id rfl
            refine fanOutPrivateMessage_follows (by rw [hstores.task]; exact hkind₂) ?_ ?_
              (hstores.peer.trans (hpeer₂.trans hpeer)) hfan₃ hrow₃ (hstores.conv.trans hconv₂) rfl ?_
            · rw [hstores.task, htask₂, htask₁]
              exact h.me
            · rw [hstores.task, htask₂]
              exact hne
            · rw [hstores.task, htask₂]
              exact hmembers

theorem processSendGroupMessage_follows {requestId : Nat} {conn : Connection}
    {clientMessageId : String} (h : t.Opened conn clientMessageId)
    (hgroup : 0 < (t.task.request.value "conversationId").toLongLong) :
    Follows (messageProtocol qt) Ended t
      (processSendGroupMessage qt requestId conn t.task.request
        (t.task.request.value "conversationId").toLongLong clientMessageId) := by
  have hrewrites : ∀ n (db : Db), t.task.rewrites n db = false :=
    fun n db => Task.rewrites_send h.kind n db
  unfold processSendGroupMessage
  refine Follows.bind (follows_glance (hrewrites _) fun db _ _ => ?_)
  cases db.getConversation (t.task.request.value "conversationId").toLongLong with
  | none => exact follows_pure.mpr (ended_reply h.fan nofun)
  | some conv =>
      refine follows_ite (fun _ => follows_pure.mpr (ended_reply h.fan nofun)) fun _ => ?_
      refine Follows.bind (follows_glance (hrewrites _) fun db _ _ => ?_)
      refine follows_ite (fun _ => follows_pure.mpr (ended_reply h.fan nofun)) fun _ => ?_
      refine follows_ite (fun _ => follows_pure.mpr (ended_reply h.fan nofun)) fun _ => ?_
      refine follows_ite (fun _ => follows_pure.mpr (ended_reply h.fan nofun)) fun _ => ?_
      refine follows_ite (fun _ => follows_pure.mpr (ended_reply h.fan nofun)) fun _ => ?_
      cases checkGroupContent qt (t.task.request.value "conversationId").toLongLong
          ((t.task.request.value "content").toStr "")
          ((t.task.request.value "contentType").toStr "text") with
      | error message => exact follows_pure.mpr (ended_reply h.fan nofun)
      | ok distPrekeyIds =>
          refine follows_lookup (t := t.next.next) h.kind h.me h.device h.clientId h.fan ?_
          have hready : t.task.checks qt ≤ t.next.next.next.executed := by
            unfold Task.checks
            rw [if_pos hgroup]
            show 4 ≤ t.executed + 1 + 1 + 1
            rw [h.executed]
          rw [h.me, h.device, h.clientId]
          refine Follows.bind ((storeGroupMessage_follows (t := t.next.next.next) h.kind
            (h.clientId ▸ h.nonempty) hready h.fan).mono ?_)
          rintro t₁ stored hstores
          cases stored with
          | none => exact follows_pure.mpr (ended_reply (hstores.failed rfl) nofun)
          | some id =>
              obtain ⟨⟨own, hfan₁⟩, hrow₁⟩ := hstores.stored id rfl
              exact fanOutGroupMessage_follows (by rw [hstores.task]; exact h.kind) hfan₁ hrow₁

/-- A handler of a send follows the protocol from its first statement. -/
theorem processSendMessageRequest_follows {k : Task} (hkind : k.kind = .sendMessage) :
    Follows (messageProtocol qt) Ended { task := k }
      (processSendMessageRequest qt k.requestId k.conn k.request) := by
  unfold processSendMessageRequest
  refine follows_ite (fun _ => follows_pure.mpr (ended_reply rfl nofun)) fun hclient => ?_
  refine Follows.bind (follows_glance (fun db => Task.rewrites_send hkind _ db) fun db _ _ => ?_)
  refine follows_ite (fun _ => follows_pure.mpr (ended_reply rfl nofun)) fun _ => ?_
  have hopened : MessageGhost.Opened { task := k, executed := 1 }
      { k.conn with sendWindow := (k.conn.sendWindow.allow db.now).1 } k.clientMessageId :=
    ⟨hkind, rfl, rfl, rfl, rfl, fun h => hclient (.inl h), rfl, rfl⟩
  refine follows_ite (fun hgroup => ?_) fun hprivate => ?_
  · exact processSendGroupMessage_follows hopened hgroup
  · exact processSendPrivateMessage_follows hopened rfl hprivate

/-! ### Edits and deletions -/

/-- After its write, a handler reads the members and tells each of them. -/
theorem announceRewrite_follows {f : Fan} {convId : Int} {payload : Int → Json}
    {o : Int → List Int → Outcome} (hkind : t.task.kind ≠ .sendMessage) (hexecuted : 2 ≤ t.executed)
    (hfan : t.fan = some f) (hleft : f.left = none) (hconv : f.conversationId = convId)
    (htells : ∀ now, f.Tells (payload now)) :
    Follows (messageProtocol qt) Ended t (do
      let now ← Prog.query (·.now)
      let members ← Prog.query (·.getConversationMemberIds convId)
      appendSyncEvents f.event.text (payload now) members
      return o now members) := by
  have hrewrites : ∀ n, t.executed ≤ n → ∀ db, t.task.rewrites n db = false :=
    fun n hn db => Task.rewrites_other (by omega) db
  refine Follows.bind (follows_glance (hrewrites _ (Nat.le_refl _)) fun db _ _ => ?_)
  refine Follows.bind (follows_members (t := t.next) (hrewrites _ (Nat.le_succ _)) hfan hleft hconv
    fun l => ?_)
  let f' : Fan := { f with left := some l }
  refine Follows.bind ((appendSyncEvents_follows (t := { t.next.next with fan := some f' }) (f := f')
    rfl rfl ⟨(htells db.now).messageId, (htells db.now).content⟩ fun n hn db => ?_).mono ?_)
  · exact hrewrites n (Nat.le_of_succ_le (Nat.le_of_succ_le hn)) db
  · rintro t' _ ⟨htask, _, hfan'⟩
    refine follows_pure.mpr ⟨?_, fun hsend => ?_⟩
    · rw [hfan']
      rintro _ ⟨⟩
      rfl
    · rw [htask] at hsend
      exact absurd hsend hkind

/-- The row that `getMessage` finds. -/
theorem getMessage_found {db : Db} {messageId : Int} {m : MessageRow}
    (h : db.getMessage messageId = some m) : m ∈ db.messages.rows ∧ m.id = messageId := by
  unfold Db.getMessage at h
  exact Table.get_eq_some.mp (Option.filter_eq_some_iff.mp h).1

/-- The `UPDATE` of an edit rewrites a row that is not deleted, or nothing. -/
theorem editMessage_rewrites {db : Db} {messageId : Int} {content contentType : String}
    (hid : ¬messageId ≤ 0) (hcontent : ¬(content = "" ∨ contentType = "")) :
    ((db.editMessage messageId content contentType).2 = false ∧
        (db.editMessage messageId content contentType).1.messages = db.messages ∧
        (db.messages.get messageId).any (fun m => !m.deleted) = false) ∨
      ((db.editMessage messageId content contentType).2 = true ∧
        (∃ m ∈ db.messages.rows, m.id = messageId ∧ m.deleted = false) ∧
        (db.messages.get messageId).any (fun m => !m.deleted) = true ∧
        Rewritten db (db.editMessage messageId content contentType).1 messageId content false) := by
  have hchecks : ¬(messageId ≤ 0 ∨ content = "" ∨ contentType = "") := fun h => h.elim hid hcontent
  have hsame : (∀ m ∈ db.messages.rows, (m.id == messageId && !m.deleted) = false) →
      db.messages.update (fun m => m.id == messageId && !m.deleted) (fun m =>
        { m with content := content, contentType := contentType, editedAt := some db.now }) =
          db.messages := Table.update_of_none _
  unfold Db.editMessage
  rw [if_neg hchecks]
  cases hget : db.messages.get messageId with
  | none =>
      refine .inl ⟨rfl, hsame fun m hm => ?_, rfl⟩
      have hne := Table.get_eq_none.mp hget m hm
      simpa using fun heq => absurd heq hne
  | some m =>
      obtain ⟨hm, hkey⟩ := Table.get_eq_some.mp hget
      cases hdeleted : m.deleted with
      | true =>
          refine .inl ⟨by simp [hdeleted], hsame fun m' hm' => ?_, by simp [hdeleted]⟩
          by_cases heq : m'.id = messageId
          · rw [Table.key_inj hm' hm (heq.trans hkey.symm), hdeleted]
            simp
          · simp [heq]
      | false =>
          refine .inr ⟨by simp [hdeleted], ⟨m, hm, hkey, hdeleted⟩, by simp [hdeleted], rfl, _, rfl,
            fun m' => ?_, fun m' _ hne => ?_, fun m' hm' heq => ?_⟩
          · split <;> exact ⟨rfl, rfl, rfl, rfl, rfl⟩
          · exact if_neg (by simp [hne])
          · obtain rfl : m' = m := Table.key_inj hm' hm (heq.trans hkey.symm)
            rw [if_pos (by simp [heq, hdeleted])]
            exact ⟨rfl, hdeleted⟩

theorem deleteMessage_rewrites {db : Db} {messageId : Int} (hid : ¬messageId ≤ 0) :
    (db.deleteMessage messageId).2 = true ∧
      Rewritten db (db.deleteMessage messageId).1 messageId "" true := by
  unfold Db.deleteMessage
  rw [if_neg hid]
  refine ⟨rfl, rfl, _, rfl, fun m => ?_, fun m _ hne => ?_, fun m _ heq => ?_⟩
  · split <;> exact ⟨rfl, rfl, rfl, rfl, rfl⟩
  · exact if_neg (by simp [hne])
  · rw [if_pos (by simp [heq])]
    exact ⟨rfl, rfl⟩

/-- A handler of an edit follows the protocol from its first statement. -/
theorem editMessage_follows {k : Task} (hkind : k.kind = .editMessage) :
    Follows (messageProtocol qt) Ended { task := k }
      (processEditMessageRequest qt k.requestId k.conn k.request) := by
  have hsend : k.kind ≠ .sendMessage := by rw [hkind]; decide
  unfold processEditMessageRequest
  refine follows_ite (fun _ => follows_pure.mpr (ended_reply rfl (by decide))) fun hid => ?_
  refine follows_ite (fun _ => follows_pure.mpr (ended_reply rfl (by decide))) fun hcontent => ?_
  refine Follows.bind (follows_read (fun db => Task.rewrites_other Nat.zero_ne_one db) ?_)
  intro db _ hknows
  cases hfound : db.getMessage (k.request.value "messageId").toLongLong with
  | none =>
      exact ⟨{ task := k, executed := 1 }, rfl, rfl, fun _ hk _ => hk, .nothing, hknows.next,
        follows_pure.mpr (ended_reply rfl (by decide))⟩
  | some msg =>
      obtain ⟨hmsg, hmsgid⟩ := getMessage_found hfound
      let t₁ : MessageGhost :=
        { task := k, executed := 1, row := some (msg.id, msg.conversationId) }
      refine ⟨t₁, rfl, rfl, (by intros; contradiction), .nothing,
        ⟨hknows.me, hknows.peer, (by intros; contradiction), ?_, hknows.fan⟩, ?_⟩
      · rintro _ ⟨⟩
        exact ⟨msg, hmsg, rfl, rfl, fun h => absurd h hsend⟩
      refine follows_ite (fun _ => follows_pure.mpr (ended_reply rfl (by decide))) fun _ => ?_
      refine follows_ite (fun _ => follows_pure.mpr (ended_reply rfl (by decide))) fun _ => ?_
      refine follows_ite (fun _ => follows_pure.mpr (ended_reply rfl (by decide))) fun _ => ?_
      refine follows_ite (fun _ => follows_pure.mpr (ended_reply rfl (by decide))) fun _ => ?_
      refine follows_ite (fun _ => follows_pure.mpr (ended_reply rfl (by decide))) fun _ => ?_
      cases checkEditContent qt k.conn ((k.request.value "content").toStr "")
          ((k.request.value "contentType").toStr "") with
      | error message => exact follows_pure.mpr (ended_reply rfl (by decide))
      | ok _ =>
          refine Follows.bind (follows_call fun db₁ hdb₁ => ?_)
          have hgrows : db₁.Grows (db₁.editMessage (k.request.value "messageId").toLongLong
              ((k.request.value "content").toStr "")
              ((k.request.value "contentType").toStr "")).1 := by
            unfold Db.editMessage
            split
            · exact .refl db₁
            · exact .of_eq rfl rfl rfl
          have hothers : (db₁.editMessage (k.request.value "messageId").toLongLong
              ((k.request.value "content").toStr "")
              ((k.request.value "contentType").toStr "")).1.conversationMembers =
                db₁.conversationMembers ∧
              (db₁.editMessage (k.request.value "messageId").toLongLong
                ((k.request.value "content").toStr "")
                ((k.request.value "contentType").toStr "")).1.syncEvents = db₁.syncEvents := by
            unfold Db.editMessage
            split <;> exact ⟨rfl, rfl⟩
          rcases @editMessage_rewrites db₁ _ ((k.request.value "content").toStr "")
              ((k.request.value "contentType").toStr "") hid hcontent with
            ⟨hno, hsame, hnone⟩ | ⟨hyes, ⟨m, hm, hmid, hlive⟩, hsome, hrewritten⟩
          · refine ⟨t₁.next, ⟨hgrows, .quiet t₁.next hothers.1 hsame hothers.2 ?_ rfl rfl
              (fun _ hk _ => hk) .nothing ?_⟩, ?_⟩
            · rw [Task.rewrites_edit hkind]
              exact hnone
            · exact hdb₁.2.next.of_kept hgrows (.of_eq hsame) (by intros; contradiction)
            · rw [hno]
              exact follows_pure.mpr (ended_reply rfl (by decide))
          · let f : Fan := ⟨(k.request.value "messageId").toLongLong, msg.conversationId, .edited,
              (k.request.value "content").toStr "", true, none⟩
            have hevent : f.event ≠ .message := by
              show MessageEvent.edited ≠ .message
              decide
            obtain ⟨m', hm', hmid', hconv', _⟩ := hdb₁.2.row _ rfl
            refine ⟨{ t₁.next with fan := some f }, ⟨hgrows, .write f hothers.1 hothers.2 ?_ rfl rfl
              rfl rfl ⟨m', hm', hmid'.trans hmsgid, hconv'⟩ hevent (fun _ m₂ hm₂ hid₂ => ?_)
              (by intros; contradiction) hrewritten⟩, ?_⟩
            · rw [Task.rewrites_edit hkind]
              exact hsome
            · rw [Table.key_inj hm₂ hm (hid₂.trans hmid.symm)]
              exact hlive
            · rw [hyes]
              exact announceRewrite_follows (t := { t₁.next with fan := some f }) (f := f) hsend
                (Nat.le_refl 2) rfl rfl rfl fun _ => ⟨rfl, fun _ => rfl⟩

theorem deleteMessage_follows {k : Task} (hkind : k.kind = .deleteMessage) :
    Follows (messageProtocol qt) Ended { task := k }
      (processDeleteMessageRequest qt k.requestId k.conn k.request) := by
  have hsend : k.kind ≠ .sendMessage := by rw [hkind]; decide
  unfold processDeleteMessageRequest
  refine follows_ite (fun _ => follows_pure.mpr (ended_reply rfl (by decide))) fun hid => ?_
  refine Follows.bind (follows_read (fun db => Task.rewrites_other Nat.zero_ne_one db) ?_)
  intro db _ hknows
  cases hfound : db.getMessage (k.request.value "messageId").toLongLong with
  | none =>
      exact ⟨{ task := k, executed := 1 }, rfl, rfl, fun _ hk _ => hk, .nothing, hknows.next,
        follows_pure.mpr (ended_reply rfl (by decide))⟩
  | some msg =>
      obtain ⟨hmsg, hmsgid⟩ := getMessage_found hfound
      let t₁ : MessageGhost :=
        { task := k, executed := 1, row := some (msg.id, msg.conversationId) }
      refine ⟨t₁, rfl, rfl, (by intros; contradiction), .nothing,
        ⟨hknows.me, hknows.peer, (by intros; contradiction), ?_, hknows.fan⟩, ?_⟩
      · rintro _ ⟨⟩
        exact ⟨msg, hmsg, rfl, rfl, fun h => absurd h hsend⟩
      refine follows_ite (fun _ => follows_pure.mpr (ended_reply rfl (by decide))) fun _ => ?_
      refine follows_ite (fun _ => follows_pure.mpr (ended_reply rfl (by decide))) fun _ => ?_
      refine Follows.bind (follows_call fun db₁ hdb₁ => ?_)
      obtain ⟨hyes, hrewritten⟩ := @deleteMessage_rewrites db₁ _ hid
      have hgrows : db₁.Grows (db₁.deleteMessage (k.request.value "messageId").toLongLong).1 := by
        unfold Db.deleteMessage
        split
        · exact .refl db₁
        · exact .of_eq rfl rfl rfl
      have hothers :
          (db₁.deleteMessage (k.request.value "messageId").toLongLong).1.conversationMembers =
            db₁.conversationMembers ∧
          (db₁.deleteMessage (k.request.value "messageId").toLongLong).1.syncEvents =
            db₁.syncEvents := by
        unfold Db.deleteMessage
        split <;> exact ⟨rfl, rfl⟩
      let f : Fan := ⟨(k.request.value "messageId").toLongLong, msg.conversationId, .deleted, "",
        true, none⟩
      have hevent : f.event ≠ .message := by
        show MessageEvent.deleted ≠ .message
        decide
      obtain ⟨m, hm, hmid, hconv, _⟩ := hdb₁.2.row _ rfl
      replace hmid : m.id = (k.request.value "messageId").toLongLong := hmid.trans hmsgid
      refine ⟨{ t₁.next with fan := some f }, ⟨hgrows, .write f hothers.1 hothers.2 ?_ rfl rfl rfl rfl
        ⟨m, hm, hmid, hconv⟩ hevent (by intros; contradiction) (fun _ => rfl) hrewritten⟩, ?_⟩
      · rw [Task.rewrites_delete hkind]
        show ((db₁.messages.get (k.request.value "messageId").toLongLong).any fun _ => true) = true
        rw [← hmid]
        exact congrArg (Option.any fun _ => true) (Table.get_mem hm)
      · rw [hyes]
        exact announceRewrite_follows (t := { t₁.next with fan := some f }) (f := f) hsend
          (Nat.le_refl 2) rfl rfl rfl fun _ => ⟨rfl, (by intros; contradiction)⟩

/-- **Handler lemma.** Each handler follows the protocol. -/
theorem handler_follows (qt : Qt) (k : Task) :
    Follows (messageProtocol qt) Ended { task := k } (k.handler qt) := by
  unfold Task.handler
  cases hkind : k.kind with
  | sendMessage => exact processSendMessageRequest_follows hkind
  | editMessage => exact editMessage_follows hkind
  | deleteMessage => exact deleteMessage_follows hkind

end MessageFlow

end XYChat.Server
