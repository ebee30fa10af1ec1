import XYChat.Server.Messages

/-!
# What the message handlers do to the tables

One postcondition for each handler, read when it runs alone. `Extends` is the
frame all of them share and `Stored` says which row a send may add and which
checks that row has passed; callers use these and never open a handler again.
-/

namespace XYChat.Server

open XYChat.Lib
open E2eeCrypto (EnvelopeEntry)

/-! ## The frame -/

/-- No user is lost and no conversation is lost or changes its type. -/
structure Db.Extends (db db' : Db) : Prop where
  users : db'.users = db.users
  conversations : ∀ id c, db.getConversation id = some c →
    ∃ c', db'.getConversation id = some c' ∧ c'.type = c.type

namespace Db

theorem Extends.of_eq {db db' : Db} (hu : db'.users = db.users)
    (hc : db'.conversations = db.conversations) : db.Extends db' :=
  ⟨hu, fun id c h => ⟨c, by simpa [getConversation, hc] using h, rfl⟩⟩

theorem Extends.refl (db : Db) : db.Extends db := .of_eq rfl rfl

theorem Extends.trans {db₁ db₂ db₃ : Db} (h : db₁.Extends db₂) (h' : db₂.Extends db₃) :
    db₁.Extends db₃ := by
  refine ⟨h'.users.trans h.users, fun id c hget => ?_⟩
  obtain ⟨c', hget', htype'⟩ := h.conversations id c hget
  obtain ⟨c'', hget'', htype''⟩ := h'.conversations id c' hget'
  exact ⟨c'', hget'', htype''.trans htype'⟩

theorem extends_insertMember (conversationId userId : Int) (role : MemberRole) (db : Db) :
    db.Extends (insertMember conversationId userId role db).1 := by
  unfold insertMember
  split
  · exact .of_eq rfl rfl
  · exact .refl db

theorem insertMember_messages (conversationId userId : Int) (role : MemberRole) (db : Db) :
    (insertMember conversationId userId role db).1.messages = db.messages := by
  unfold insertMember
  split <;> rfl

theorem insertMember_prekeys (conversationId userId : Int) (role : MemberRole) (db : Db) :
    (insertMember conversationId userId role db).1.prekeys = db.prekeys := by
  unfold insertMember
  split <;> rfl

theorem extends_insertConversation (type : ConversationType) (db : Db) :
    db.Extends (insertConversation type db).1 := by
  refine ⟨rfl, fun id c h => ⟨c, ?_, rfl⟩⟩
  have hle := (db.conversations.bounded c (Table.get_eq_some.mp h).1).2
  have hid : c.id = id := (Table.get_eq_some.mp h).2
  unfold insertConversation getConversation
  rw [Table.get_insert, if_neg (by simp only [key_conversationRow] at hle; omega)]
  exact h

theorem extends_touchConversation (conversationId : Int) (db : Db) :
    db.Extends (touchConversation conversationId db) := by
  refine ⟨rfl, fun id c h => ?_⟩
  refine ⟨if c.id == conversationId then { c with updatedAt := db.now } else c, ?_, by split <;> rfl⟩
  unfold touchConversation getConversation
  rw [Table.get_update]
  unfold getConversation at h
  rw [h]
  rfl

theorem extends_appendSyncEvent (userId : Int) (eventType : String) (payload : Json) (db : Db) :
    db.Extends (appendSyncEvent userId eventType payload db) := by
  unfold appendSyncEvent
  split
  · exact .of_eq rfl rfl
  · exact .refl db

/-- A found private conversation is one. -/
theorem findPrivateConversation_type {db : Db} {userId1 userId2 convId : Int}
    (h : db.findPrivateConversation userId1 userId2 = some convId) :
    ∃ c, db.getConversation convId = some c ∧ c.type = .privateType := by
  unfold findPrivateConversation at h
  obtain ⟨cm1, hfind, rfl⟩ := Option.map_eq_some_iff.mp h
  have hcond := List.find?_some hfind
  simp only [Bool.and_eq_true, beq_iff_eq, Option.map_eq_some_iff] at hcond
  exact hcond.2

end Db

/-- The type of a conversation; `none` when there is none. -/
def Db.conversationType (db : Db) (conversationId : Int) : Option ConversationType :=
  (db.getConversation conversationId).map (·.type)

theorem conversationType_of_extends {db db' : Db} (h : db.Extends db') {id : Int}
    {type : ConversationType} (htype : db.conversationType id = some type) :
    db'.conversationType id = some type := by
  obtain ⟨c, hc, hctype⟩ := Option.map_eq_some_iff.mp htype
  obtain ⟨c', hc', htype'⟩ := h.conversations id c hc
  exact Option.map_eq_some_iff.mpr ⟨c', hc', htype'.trans hctype⟩

/-! ## Functions that leave the messages alone -/

/-- Appending events changes the event table only. -/
theorem appendSyncEvents_frame (eventType : String) (payload : Json) (userIds : List Int) (db : Db) :
    (appendSyncEvents eventType payload userIds).wp
      (fun _ db' => db.Extends db' ∧ db'.messages = db.messages ∧ db'.prekeys = db.prekeys) db := by
  induction userIds generalizing db with
  | nil => exact ⟨.refl db, rfl, rfl⟩
  | cons userId rest ih =>
      simp only [appendSyncEvents, Prog.wp_bind, Prog.wp_update]
      have hframe : (Db.appendSyncEvent userId eventType payload db).messages = db.messages
          ∧ (Db.appendSyncEvent userId eventType payload db).prekeys = db.prekeys := by
        unfold Db.appendSyncEvent
        split <;> exact ⟨rfl, rfl⟩
      refine Prog.wp_mono (ih _) fun _ db' h => ⟨?_, ?_, ?_⟩
      · exact (Db.extends_appendSyncEvent _ _ _ _).trans h.1
      · exact h.2.1.trans hframe.1
      · exact h.2.2.trans hframe.2

/-- Checking the entries only reads. -/
theorem checkEntries_frame (conn : Connection) (targetUserId : Int) (entries : List EnvelopeEntry)
    (prekeyIds : List Int) (seenPeerDevices : List String) (seenSelfCopy : Bool) (db : Db) :
    (checkEntries conn targetUserId entries prekeyIds seenPeerDevices seenSelfCopy).wp
      (fun _ db' => db' = db) db := by
  induction entries generalizing prekeyIds seenPeerDevices seenSelfCopy with
  | nil => rfl
  | cons entry rest ih =>
      unfold checkEntries
      refine Prog.wp_ite (fun _ => ?_) (fun _ => ?_)
      · exact Prog.wp_ite (fun _ => rfl) (fun _ => ih _ _ _)
      · refine Prog.wp_ite (fun _ => rfl) (fun _ => ?_)
        simp only [Prog.wp_bind, Prog.wp_query]
        exact Prog.wp_ite (fun _ => ih _ _ _) (fun _ => rfl)

/-- The conversation a private send is stored in is private. -/
theorem getOrCreatePrivateConversation_spec (userId1 userId2 : Int) (db : Db) :
    (getOrCreatePrivateConversation userId1 userId2).wp
      (fun r db' => db.Extends db' ∧ db'.messages = db.messages ∧ db'.prekeys = db.prekeys ∧
        ∀ convId, r = some convId →
          ∃ c, db'.getConversation convId = some c ∧ c.type = .privateType) db := by
  unfold getOrCreatePrivateConversation
  refine Prog.wp_ite (fun _ => ⟨.refl db, rfl, rfl, by simp⟩) (fun _ => ?_)
  simp only [Prog.wp_bind, Prog.wp_query]
  split
  · rename_i convId hfind
    refine ⟨.refl db, rfl, rfl, fun convId' h => ?_⟩
    cases h
    exact Db.findPrivateConversation_type hfind
  · simp only [Prog.wp_bind, Prog.wp_call, Prog.wp_pure]
    -- the new conversation is private, and adding its members does not touch it
    have hins := Db.extends_insertConversation .privateType db
    have hm₁ := Db.extends_insertMember (db.conversations.lastId + 1) userId1 .member
      (Db.insertConversation .privateType db).1
    have hm₂ := Db.extends_insertMember (db.conversations.lastId + 1) userId2 .member
      (Db.insertMember (db.conversations.lastId + 1) userId1 .member
        (Db.insertConversation .privateType db).1).1
    refine ⟨hins.trans (hm₁.trans hm₂), ?_, ?_, fun convId h => ?_⟩
    · rw [Db.insertMember_messages, Db.insertMember_messages]
      rfl
    · rw [Db.insertMember_prekeys, Db.insertMember_prekeys]
      rfl
    · cases h
      obtain ⟨c, hget, htype⟩ := (hm₁.trans hm₂).conversations (db.conversations.lastId + 1)
        { id := db.conversations.lastId + 1, type := .privateType, updatedAt := db.now }
        (by simp [Db.getConversation, Db.insertConversation, Table.get_insert])
      exact ⟨c, hget, htype⟩

/-! ## Storing a message -/

/-- The conversation and the sender exist and the idempotency key is free. -/
structure Db.CanInsert (db : Db) (conversationId senderId : Int)
    (senderDeviceId clientMessageId : String) : Prop where
  conversation : (db.getConversation conversationId).isSome
  sender : (db.users.get senderId).isSome
  free : db.getMessageByClientKey senderId senderDeviceId clientMessageId = none

/-- The row a successful `sendMessage` inserts. -/
def newMessage (db : Db) (conversationId senderId : Int) (content contentType clientMessageId
    senderDeviceId : String) : MessageRow where
  id := db.messages.lastId + 1
  conversationId := conversationId
  senderId := senderId
  content := content
  contentType := contentType
  createdAt := db.now
  clientMessageId := Db.nullable clientMessageId
  senderDeviceId := Db.nullable senderDeviceId

/-- `db'` holds the messages of `db` and one row more, of an existing
conversation and under the next id. -/
structure Appended (db db' : Db) (row : MessageRow) : Prop where
  rows : db'.messages.rows = db.messages.rows ++ [row]
  lastId : db'.messages.lastId = db.messages.lastId + 1
  id : row.id = db.messages.lastId + 1
  conversation : (db'.getConversation row.conversationId).isSome

namespace Appended

variable {db db₁ db₂ db' : Db} {row : MessageRow}

theorem mem (h : Appended db db' row) (m : MessageRow) :
    m ∈ db'.messages.rows ↔ m ∈ db.messages.rows ∨ m = row := by
  rw [h.rows]
  simp

theorem of_before (h : Appended db₁ db' row) (hm : db₁.messages = db.messages) :
    Appended db db' row :=
  ⟨hm ▸ h.rows, hm ▸ h.lastId, hm ▸ h.id, h.conversation⟩

theorem of_after (h : Appended db db₁ row) (hext : db₁.Extends db₂)
    (hm : db₂.messages = db₁.messages) : Appended db db₂ row := by
  refine ⟨hm ▸ h.rows, hm ▸ h.lastId, h.id, ?_⟩
  obtain ⟨c, hc⟩ := Option.isSome_iff_exists.mp h.conversation
  obtain ⟨c', hc', _⟩ := hext.conversations _ c hc
  exact Option.isSome_iff_exists.mpr ⟨c', hc'⟩

end Appended

/-- The messages that are in `db'` and not yet in `db`. -/
def storedBetween (db db' : Db) : List MessageRow :=
  db'.messages.rows.drop db.messages.rows.length

theorem storedBetween_same {db db' : Db} (h : db'.messages = db.messages) :
    storedBetween db db' = [] := by
  unfold storedBetween
  rw [h, List.drop_length]

theorem storedBetween_appended {db db' : Db} {m : MessageRow} (h : Appended db db' m) :
    storedBetween db db' = [m] := by
  unfold storedBetween
  rw [h.rows, List.drop_left]

theorem insertMessage_spec (conversationId senderId : Int) (content contentType clientMessageId
    senderDeviceId : String) (db : Db) :
    (¬db.CanInsert conversationId senderId senderDeviceId clientMessageId ∧
      db.insertMessage conversationId senderId content contentType clientMessageId senderDeviceId
        = (db, none)) ∨
    (db.CanInsert conversationId senderId senderDeviceId clientMessageId ∧
      ∃ db', db.insertMessage conversationId senderId content contentType clientMessageId
          senderDeviceId = (db', some (db.messages.lastId + 1)) ∧
        db.Extends db' ∧ db'.prekeys = db.prekeys ∧
        Appended db db' (newMessage db conversationId senderId content contentType clientMessageId
          senderDeviceId)) := by
  unfold Db.insertMessage
  split
  · rename_i hcond
    simp only [Bool.and_eq_true, Option.isNone_iff_eq_none] at hcond
    exact .inr ⟨⟨hcond.1.1, hcond.1.2, hcond.2⟩, _, rfl, .of_eq rfl rfl, rfl,
      ⟨rfl, rfl, rfl, hcond.1.1⟩⟩
  · rename_i hcond
    simp only [Bool.and_eq_true, Option.isNone_iff_eq_none] at hcond
    exact .inl ⟨fun h => hcond ⟨⟨h.conversation, h.sender⟩, h.free⟩, rfl⟩

/-- `sendMessage` run alone stores one new row when it can be inserted, and
nothing otherwise. -/
theorem sendMessage_spec (conversationId senderId : Int) (content contentType clientMessageId
    senderDeviceId : String) (db : Db) :
    (sendMessage conversationId senderId content contentType clientMessageId senderDeviceId).wp
      (fun r db' => db.Extends db' ∧ db'.prekeys = db.prekeys ∧
        ((¬db.CanInsert conversationId senderId senderDeviceId clientMessageId ∧
            db'.messages = db.messages) ∨
          (db.CanInsert conversationId senderId senderDeviceId clientMessageId ∧
            r = some (db.messages.lastId + 1) ∧
            Appended db db' (newMessage db conversationId senderId content contentType
              clientMessageId senderDeviceId)))) db := by
  unfold sendMessage
  simp only [Prog.wp_bind, Prog.wp_query]
  split
  · rename_i existing hexisting
    exact ⟨.refl db, rfl, .inl ⟨fun h => by simp [h.free] at hexisting, rfl⟩⟩
  · simp only [Prog.wp_bind, Prog.wp_call]
    rcases insertMessage_spec conversationId senderId content contentType clientMessageId
      senderDeviceId db with ⟨hcannot, hnone⟩ | ⟨hcan, db', hsome, hext, hprekeys, happ⟩
    · rw [hnone]
      exact ⟨.refl db, rfl, .inl ⟨hcannot, rfl⟩⟩
    · rw [hsome]
      have htouch := Db.extends_touchConversation conversationId db'
      exact ⟨hext.trans htouch, hprekeys, .inr ⟨hcan, rfl, happ.of_after htouch rfl⟩⟩

/-- The private transaction stores nothing or one new row. -/
theorem storePrivateMessage_spec (convId senderId : Int) (content contentType clientMessageId
    senderDeviceId : String) (prekeyIds : List Int) (db : Db) :
    (storePrivateMessage convId senderId content contentType clientMessageId senderDeviceId
        prekeyIds).wp
      (fun _ db' => db.Extends db' ∧
        (db'.messages = db.messages ∨
          Appended db db' (newMessage db convId senderId content contentType clientMessageId
            senderDeviceId))) db := by
  unfold storePrivateMessage
  simp only [Prog.wp_atomically, Prog.wp_bind]
  refine Prog.wp_mono (sendMessage_spec convId senderId content contentType clientMessageId
    senderDeviceId db) fun r db' h => ?_
  obtain ⟨hext, _, hrows⟩ := h
  have hrows' := hrows.imp And.right fun h => h.2.2
  cases r with
  | none => exact ⟨hext, hrows'⟩
  | some msgId =>
      -- consuming prekeys touches the prekey table only
      have hconsume : db'.Extends (db'.consumePrekeys prekeyIds).1 := .of_eq rfl rfl
      exact ⟨hext.trans hconsume, hrows'.imp id fun h => h.of_after hconsume rfl⟩

/-- The group's insertion and consumption store one new row when it can be
inserted, and nothing otherwise. -/
theorem storeGroupMessage_spec (conversationId senderId : Int) (content contentType
    clientMessageId senderDeviceId : String) (distPrekeyIds : List Int) (db : Db) :
    (storeGroupMessage conversationId senderId content contentType clientMessageId senderDeviceId
        distPrekeyIds).wp
      (fun _ db' => db.Extends db' ∧
        ((¬db.CanInsert conversationId senderId senderDeviceId clientMessageId ∧
            db'.messages = db.messages) ∨
          (db.CanInsert conversationId senderId senderDeviceId clientMessageId ∧
            Appended db db' (newMessage db conversationId senderId content contentType
              clientMessageId senderDeviceId)))) db := by
  unfold storeGroupMessage
  simp only [Prog.wp_bind]
  refine Prog.wp_mono (sendMessage_spec conversationId senderId content contentType
    clientMessageId senderDeviceId db) fun r db' h => ?_
  obtain ⟨hext, _, hrows⟩ := h
  have hrows' := hrows.imp_right fun h => And.intro h.1 h.2.2
  cases r with
  | none => exact ⟨hext, hrows'⟩
  | some msgId =>
      refine Prog.wp_ite (fun _ => ⟨hext, hrows'⟩) (fun _ => ?_)
      have hconsume : db'.Extends (db'.consumePrekeys distPrekeyIds).1 := .of_eq rfl rfl
      refine ⟨hext.trans hconsume, hrows'.imp (fun h => ⟨h.1, h.2⟩) fun h => ?_⟩
      exact ⟨h.1, h.2.of_after hconsume rfl⟩

/-! ## The handlers -/

/-- A group content that has passed its check is decodable. -/
theorem checkGroupContent_ok {qt : Qt} {conversationId : Int} {content contentType : String}
    {ids : List Int} (h : checkGroupContent qt conversationId content contentType = .ok ids) :
    (contentType = "e2ee_group" → (GroupE2eeCrypto.decodeGroupMessage qt content).isSome) ∧
      (contentType = "sender_key_distribution" →
        (GroupE2eeCrypto.decodeDistribution qt content).isSome) := by
  unfold checkGroupContent at h
  constructor
  · intro htype
    rw [if_pos htype] at h
    split at h
    · rename_i hdecode
      simp [hdecode]
    · simp at h
  · intro htype
    rw [if_neg (by rw [htype]; decide), if_pos htype] at h
    split at h
    · rename_i hdecode
      simp [hdecode]
    · simp at h

/-- The row was sent by the user and the device of the connection. -/
structure MessageRow.SentBy (m : MessageRow) (conn : Connection) : Prop where
  sender : m.senderId = conn.authenticatedUserId
  device : m.senderDeviceId = Db.nullable conn.currentDeviceId
  deleted : m.deleted = false

/-- What a send leaves in `messages`: nothing new, or one row that has passed
the checks of its path. -/
inductive Stored (qt : Qt) (conn : Connection) (db db' : Db) : Prop where
  | nothing (h : db'.messages = db.messages)
  | privateRow (row : MessageRow) (hnew : Appended db db' row) (hby : row.SentBy conn)
      (hconv : ∃ c, db'.getConversation row.conversationId = some c ∧ c.type = .privateType)
      (hcontent : (E2eeCrypto.decodeEnvelope qt row.content).isSome)
  | groupRow (row : MessageRow) (hnew : Appended db db' row) (hby : row.SentBy conn)
      (hconv : ∃ c, db'.getConversation row.conversationId = some c ∧ c.type = .groupType)
      (hcontent : ∃ ids,
        checkGroupContent qt row.conversationId row.content row.contentType = .ok ids)

theorem Stored.after {qt : Qt} {conn : Connection} {db db₁ db₂ : Db} (h : Stored qt conn db db₁)
    (hext : db₁.Extends db₂) (hm : db₂.messages = db₁.messages) : Stored qt conn db db₂ := by
  have hconv {id : Int} {type : ConversationType}
      (h : ∃ c, db₁.getConversation id = some c ∧ c.type = type) :
      ∃ c, db₂.getConversation id = some c ∧ c.type = type := by
    obtain ⟨c, hc, htype⟩ := h
    obtain ⟨c', hc', htype'⟩ := hext.conversations id c hc
    exact ⟨c', hc', htype'.trans htype⟩
  cases h with
  | nothing h => exact .nothing (hm.trans h)
  | privateRow row hnew hby hc hcontent =>
      exact .privateRow row (hnew.of_after hext hm) hby (hconv hc) hcontent
  | groupRow row hnew hby hc hcontent =>
      exact .groupRow row (hnew.of_after hext hm) hby (hconv hc) hcontent

/-- The rate window a request was counted in is no part of who sends it. -/
theorem Stored.of_sendWindow {qt : Qt} {conn : Connection} {w : RateWindow} {db db' : Db}
    (h : Stored qt { conn with sendWindow := w } db db') : Stored qt conn db db' := by
  cases h with
  | nothing h => exact .nothing h
  | privateRow row hnew hby hconv hcontent =>
      exact .privateRow row hnew ⟨hby.sender, hby.device, hby.deleted⟩ hconv hcontent
  | groupRow row hnew hby hconv hcontent =>
      exact .groupRow row hnew ⟨hby.sender, hby.device, hby.deleted⟩ hconv hcontent

theorem newMessage_sentBy (db : Db) (conn : Connection) (conversationId : Int)
    (content contentType clientMessageId : String) :
    (newMessage db conversationId conn.authenticatedUserId content contentType clientMessageId
      conn.currentDeviceId).SentBy conn :=
  ⟨rfl, rfl, rfl⟩

theorem fanOutPrivateMessage_frame (qt : Qt) (requestId : Nat) (conn : Connection)
    (targetUserId convId : Int) (content contentType clientMessageId : String) (msgId : Int)
    (db : Db) :
    (fanOutPrivateMessage qt requestId conn targetUserId convId content contentType
        clientMessageId msgId).wp
      (fun _ db' => db.Extends db' ∧ db'.messages = db.messages) db := by
  unfold fanOutPrivateMessage
  simp only [Prog.wp_bind, Prog.wp_query]
  exact Prog.wp_mono (appendSyncEvents_frame _ _ _ _) fun _ _ h => ⟨h.1, h.2.1⟩

theorem fanOutGroupMessage_frame (qt : Qt) (requestId : Nat) (conn : Connection)
    (conversationId : Int) (content contentType clientMessageId : String) (msgId : Int) (db : Db) :
    (fanOutGroupMessage qt requestId conn conversationId content contentType clientMessageId
        msgId).wp
      (fun _ db' => db.Extends db' ∧ db'.messages = db.messages) db := by
  unfold fanOutGroupMessage
  simp only [Prog.wp_bind, Prog.wp_query]
  exact Prog.wp_mono (appendSyncEvents_frame _ _ _ _) fun _ _ h => ⟨h.1, h.2.1⟩

/-- **Private sends.** The row a private send stores lies in a private
conversation and its content is an envelope. -/
theorem processSendPrivateMessage_stored (qt : Qt) (requestId : Nat) (conn : Connection)
    (request : Json) (clientMessageId : String) (db : Db) :
    (processSendPrivateMessage qt requestId conn request clientMessageId).wp
      (fun _ db' => db.Extends db' ∧ Stored qt conn db db') db := by
  unfold processSendPrivateMessage
  refine Prog.wp_ite (fun _ => ⟨.refl db, .nothing rfl⟩) (fun _ => ?_)
  refine Prog.wp_ite (fun _ => ⟨.refl db, .nothing rfl⟩) (fun _ => ?_)
  simp only [Prog.wp_bind, Prog.wp_query]
  split
  · exact ⟨.refl db, .nothing rfl⟩
  split
  · exact ⟨.refl db, .nothing rfl⟩
  rename_i entries hdecode
  simp only [Prog.wp_bind]
  refine Prog.wp_mono (checkEntries_frame conn _ entries [] [] false db) fun r db₀ h₀ => ?_
  subst h₀
  split
  · exact ⟨.refl _, .nothing rfl⟩
  · exact ⟨.refl _, .nothing rfl⟩
  simp only [Prog.wp_bind]
  refine Prog.wp_mono (getOrCreatePrivateConversation_spec _ _ _) fun r db₁ h₁ => ?_
  obtain ⟨hext₁, hm₁, _, hconv⟩ := h₁
  cases r with
  | none => exact ⟨hext₁, .nothing hm₁⟩
  | some convId =>
      simp only [Prog.wp_bind]
      refine Prog.wp_mono (storePrivateMessage_spec _ _ _ _ _ _ _ db₁) fun r db₂ h₂ => ?_
      obtain ⟨hext₂, hrows⟩ := h₂
      have hstored : Stored qt conn db₀ db₂ := by
        rcases hrows with hsame | hnew
        · exact .nothing (hsame.trans hm₁)
        · obtain ⟨c, hc, htype⟩ := hconv convId rfl
          obtain ⟨c', hc', htype'⟩ := hext₂.conversations convId c hc
          exact .privateRow _ (hnew.of_before hm₁) (newMessage_sentBy _ _ _ _ _ _)
            ⟨c', hc', htype'.trans htype⟩ (by simp [newMessage, hdecode])
      cases r with
      | none => exact ⟨hext₁.trans hext₂, hstored⟩
      | some msgId =>
          refine Prog.wp_mono (fanOutPrivateMessage_frame _ _ _ _ _ _ _ _ _ db₂)
            fun _ db₃ h₃ => ?_
          exact ⟨hext₁.trans (hext₂.trans h₃.1), hstored.after h₃.1 h₃.2⟩

/-- The checks a group send has to pass before it is stored; `ids` are the
prekeys its content references. -/
structure GroupSendable (qt : Qt) (conn : Connection) (request : Json) (conversationId : Int)
    (clientMessageId : String) (db : Db) (ids : List Int) : Prop where
  group : ∃ c, db.getConversation conversationId = some c ∧ c.type = .groupType
  member : db.isConversationMember conversationId conn.authenticatedUserId
  content : (request.value "content").toStr "" ≠ ""
  length : qsize ((request.value "content").toStr "") ≤ maxGroupMessageLength
  contentType : (request.value "contentType").toStr "text" = "text" ∨
    (request.value "contentType").toStr "text" = "sender_key_distribution" ∨
    (request.value "contentType").toStr "text" = "e2ee_group"
  checked : checkGroupContent qt conversationId ((request.value "content").toStr "")
    ((request.value "contentType").toStr "text") = .ok ids
  insertable : db.CanInsert conversationId conn.authenticatedUserId conn.currentDeviceId
    clientMessageId

/-- The row a group send stores. -/
def groupMessage (conn : Connection) (request : Json) (conversationId : Int)
    (clientMessageId : String) (db : Db) : MessageRow :=
  newMessage db conversationId conn.authenticatedUserId ((request.value "content").toStr "")
    ((request.value "contentType").toStr "text") clientMessageId conn.currentDeviceId

/-- **Group sends.** A group send that passes its checks is stored, any other
leaves the messages as they are. -/
theorem processSendGroupMessage_spec (qt : Qt) (requestId : Nat) (conn : Connection)
    (request : Json) (conversationId : Int) (clientMessageId : String) (db : Db) :
    (processSendGroupMessage qt requestId conn request conversationId clientMessageId).wp
      (fun _ db' => db.Extends db' ∧
        ((∃ ids, GroupSendable qt conn request conversationId clientMessageId db ids ∧
            Appended db db' (groupMessage conn request conversationId clientMessageId db)) ∨
          ((∀ ids, ¬GroupSendable qt conn request conversationId clientMessageId db ids) ∧
            db'.messages = db.messages))) db := by
  unfold processSendGroupMessage
  simp only [Prog.wp_bind, Prog.wp_query]
  split
  · rename_i hconv
    refine ⟨.refl db, .inr ⟨fun ids h => ?_, rfl⟩⟩
    obtain ⟨c, hc, _⟩ := h.group
    simp [hc] at hconv
  rename_i conv hconv
  refine Prog.wp_ite (fun h => ⟨.refl db, .inr ⟨fun ids hs => ?_, rfl⟩⟩) (fun htype => ?_)
  · obtain ⟨c, hc, htype⟩ := hs.group
    obtain rfl : conv = c := by simpa [hconv] using hc
    exact h htype
  simp only [Prog.wp_bind, Prog.wp_query]
  refine Prog.wp_ite (fun h => ⟨.refl db, .inr ⟨fun ids hs => ?_, rfl⟩⟩) (fun hmember => ?_)
  · simp [hs.member] at h
  refine Prog.wp_ite (fun h => ⟨.refl db, .inr ⟨fun ids hs => hs.content h, rfl⟩⟩)
    (fun hcontent => ?_)
  refine Prog.wp_ite (fun h => ⟨.refl db, .inr ⟨fun ids hs => ?_, rfl⟩⟩) (fun hlength => ?_)
  · exact absurd hs.length (by omega)
  refine Prog.wp_ite (fun h => ⟨.refl db, .inr ⟨fun ids hs => ?_, rfl⟩⟩) (fun hct => ?_)
  · rcases hs.contentType with ht | ht | ht
    · exact h.1 ht
    · exact h.2.1 ht
    · exact h.2.2 ht
  split
  · rename_i message hcheck
    exact ⟨.refl db, .inr ⟨fun ids hs => by simp [hs.checked] at hcheck, rfl⟩⟩
  rename_i distPrekeyIds hcheck
  simp only [Prog.wp_bind, Prog.wp_query]
  split
  · rename_i existing hexisting
    exact ⟨.refl db, .inr ⟨fun ids hs => by simp [hs.insertable.free] at hexisting, rfl⟩⟩
  simp only [Prog.wp_bind]
  refine Prog.wp_mono (storeGroupMessage_spec _ _ _ _ _ _ _ db) fun r db₁ h₁ => ?_
  obtain ⟨hext₁, hrows⟩ := h₁
  have hstored : (∃ ids, GroupSendable qt conn request conversationId clientMessageId db ids ∧
        Appended db db₁ (groupMessage conn request conversationId clientMessageId db)) ∨
      ((∀ ids, ¬GroupSendable qt conn request conversationId clientMessageId db ids) ∧
        db₁.messages = db.messages) := by
    rcases hrows with ⟨hcannot, hsame⟩ | ⟨hcan, hnew⟩
    · exact .inr ⟨fun ids hs => hcannot hs.insertable, hsame⟩
    · refine .inl ⟨distPrekeyIds, ?_, hnew⟩
      exact
        { group := ⟨conv, hconv, not_not.mp htype⟩
          member := by simpa using hmember
          content := hcontent
          length := by omega
          contentType := by
            by_contra hno
            simp only [not_or] at hno
            exact hct hno
          checked := hcheck
          insertable := hcan }
  cases r with
  | none => exact ⟨hext₁, hstored⟩
  | some msgId =>
      refine Prog.wp_mono (fanOutGroupMessage_frame _ _ _ _ _ _ _ _ db₁) fun _ db₂ h₂ => ?_
      rcases hstored with ⟨ids, hs, hnew⟩ | ⟨hno, hsame⟩
      · exact ⟨hext₁.trans h₂.1, .inl ⟨ids, hs, hnew.of_after h₂.1 h₂.2⟩⟩
      · exact ⟨hext₁.trans h₂.1, .inr ⟨hno, h₂.2.trans hsame⟩⟩

theorem processSendGroupMessage_stored (qt : Qt) (requestId : Nat) (conn : Connection)
    (request : Json) (conversationId : Int) (clientMessageId : String) (db : Db) :
    (processSendGroupMessage qt requestId conn request conversationId clientMessageId).wp
      (fun _ db' => db.Extends db' ∧ Stored qt conn db db') db := by
  refine Prog.wp_mono (processSendGroupMessage_spec qt requestId conn request conversationId
    clientMessageId db) fun _ db' h => ⟨h.1, ?_⟩
  rcases h.2 with ⟨ids, hs, hnew⟩ | ⟨_, hsame⟩
  · obtain ⟨c, hc, htype⟩ := hs.group
    obtain ⟨c', hc', htype'⟩ := h.1.conversations conversationId c hc
    exact .groupRow _ hnew (newMessage_sentBy _ _ _ _ _ _) ⟨c', hc', htype'.trans htype⟩
      ⟨ids, hs.checked⟩
  · exact .nothing hsame

/-- **Sends.** What a `SendMessage` request may store, on either path. -/
theorem processSendMessageRequest_stored (qt : Qt) (requestId : Nat) (conn : Connection)
    (request : Json) (db : Db) :
    (processSendMessageRequest qt requestId conn request).wp
      (fun _ db' => db.Extends db' ∧ Stored qt conn db db') db := by
  unfold processSendMessageRequest
  refine Prog.wp_ite (fun _ => ⟨.refl db, .nothing rfl⟩) (fun _ => ?_)
  simp only [Prog.wp_bind, Prog.wp_query]
  refine Prog.wp_ite (fun _ => ⟨.refl db, .nothing rfl⟩) (fun _ => ?_)
  refine Prog.wp_ite (fun _ => ?_) (fun _ => ?_)
  · exact Prog.wp_mono (processSendGroupMessage_stored qt requestId _ request _ _ db)
      fun _ _ h => ⟨h.1, h.2.of_sendWindow⟩
  · exact Prog.wp_mono (processSendPrivateMessage_stored qt requestId _ request _ db)
      fun _ _ h => ⟨h.1, h.2.of_sendWindow⟩

/-- The name a send gives its message. -/
def clientMessageIdOf (request : Json) : String :=
  trimmed ((request.value "clientMessageId").toStr "")

/-- All the checks of a `SendMessage` request that names a group. -/
structure GroupAccepted (qt : Qt) (conn : Connection) (request : Json) (db : Db) : Prop where
  named : clientMessageIdOf request ≠ "" ∧ qsize (clientMessageIdOf request) ≤ 128
  allowed : (conn.sendWindow.allow db.now).2 = true
  sendable : ∃ ids, GroupSendable qt conn request (request.value "conversationId").toLongLong
    (clientMessageIdOf request) db ids

/-- The checks do not look at the window once it has been asked. -/
theorem GroupSendable.of_sendWindow {qt : Qt} {conn conn' : Connection} {request : Json}
    {conversationId : Int} {clientMessageId : String} {db : Db} {ids : List Int}
    (h : GroupSendable qt conn request conversationId clientMessageId db ids)
    (huser : conn'.authenticatedUserId = conn.authenticatedUserId)
    (hdevice : conn'.currentDeviceId = conn.currentDeviceId) :
    GroupSendable qt conn' request conversationId clientMessageId db ids := by
  refine ⟨h.group, ?_, h.content, h.length, h.contentType, h.checked, ?_⟩
  · rw [huser]
    exact h.member
  · rw [huser, hdevice]
    exact h.insertable

/-- A request that names a conversation stores its message when it passes the checks,
and nothing otherwise. -/
theorem processSendMessageRequest_group (qt : Qt) (requestId : Nat) (conn : Connection)
    (request : Json) (db : Db) (hgroup : 0 < (request.value "conversationId").toLongLong) :
    (processSendMessageRequest qt requestId conn request).wp
      (fun _ db' =>
        (GroupAccepted qt conn request db ∧
          Appended db db' (groupMessage conn request
            (request.value "conversationId").toLongLong (clientMessageIdOf request) db)) ∨
        (¬GroupAccepted qt conn request db ∧ db'.messages = db.messages)) db := by
  unfold processSendMessageRequest
  refine Prog.wp_ite (fun hname => .inr ⟨fun h => ?_, rfl⟩) (fun hname => ?_)
  · rcases hname with hname | hname
    · exact h.named.1 hname
    · exact absurd h.named.2 (Nat.not_le.mpr hname)
  simp only [Prog.wp_bind, Prog.wp_query]
  refine Prog.wp_ite (fun hfull => .inr ⟨fun h => ?_, rfl⟩) (fun hallowed => ?_)
  · rw [h.allowed] at hfull
    cases hfull
  refine Prog.wp_ite (fun _ => ?_) (fun h => absurd hgroup h)
  refine Prog.wp_mono (processSendGroupMessage_spec qt requestId _ request _ _ db)
    fun _ db' h => ?_
  rcases h.2 with ⟨ids, hs, hnew⟩ | ⟨hno, hsame⟩
  · refine .inl ⟨⟨?_, by simpa using hallowed, ids, hs.of_sendWindow rfl rfl⟩, hnew⟩
    exact ⟨fun h => hname (.inl h), Nat.le_of_not_lt fun h => hname (.inr h)⟩
  · refine .inr ⟨fun h => ?_, hsame⟩
    obtain ⟨ids, hs⟩ := h.sendable
    exact hno ids (hs.of_sendWindow rfl rfl)

/-- The checks an edit of the stored row `m` has to pass before its update. -/
structure Editable (qt : Qt) (conn : Connection) (request : Json) (db : Db) (m : MessageRow) :
    Prop where
  messageId : 0 < (request.value "messageId").toLongLong
  content : (request.value "content").toStr "" ≠ ""
  contentType : (request.value "contentType").toStr "" ≠ ""
  found : db.getMessage (request.value "messageId").toLongLong = some m
  sender : m.senderId = conn.authenticatedUserId
  live : m.deleted = false
  notSystem : m.contentType ≠ "system"
  length : qsize ((request.value "content").toStr "") ≤ maxGroupMessageLength
  sameType : (request.value "contentType").toStr "" = m.contentType
  checked : checkEditContent qt conn ((request.value "content").toStr "")
    ((request.value "contentType").toStr "") = .ok ()

/-- **Edits.** An edit that passes its checks runs the update, any other leaves
the messages as they are. -/
theorem processEditMessageRequest_spec (qt : Qt) (requestId : Nat) (conn : Connection)
    (request : Json) (db : Db) :
    (processEditMessageRequest qt requestId conn request).wp
      (fun _ db' => db.Extends db' ∧
        ((∃ m, Editable qt conn request db m ∧
            db'.messages = (db.editMessage (request.value "messageId").toLongLong
              ((request.value "content").toStr "")
              ((request.value "contentType").toStr "")).1.messages) ∨
          ((∀ m, ¬Editable qt conn request db m) ∧ db'.messages = db.messages))) db := by
  unfold processEditMessageRequest
  refine Prog.wp_ite (fun h => ⟨.refl db, .inr ⟨fun m he => ?_, rfl⟩⟩) (fun hid => ?_)
  · exact absurd he.messageId (by omega)
  refine Prog.wp_ite (fun h => ⟨.refl db, .inr ⟨fun m he => ?_, rfl⟩⟩) (fun hcontent => ?_)
  · exact h.elim he.content he.contentType
  simp only [Prog.wp_bind, Prog.wp_query]
  split
  · rename_i hget
    exact ⟨.refl db, .inr ⟨fun m he => by simp [he.found] at hget, rfl⟩⟩
  rename_i m hget
  have huniq {m' : MessageRow} (he : Editable qt conn request db m') : m' = m := by
    have := he.found.symm.trans hget
    simpa using this
  refine Prog.wp_ite (fun h => ⟨.refl db, .inr ⟨fun m' he => ?_, rfl⟩⟩) (fun hsender => ?_)
  · exact h (huniq he ▸ he.sender)
  refine Prog.wp_ite (fun h => ⟨.refl db, .inr ⟨fun m' he => ?_, rfl⟩⟩) (fun hlive => ?_)
  · exact absurd h (by simp [← huniq he, he.live])
  refine Prog.wp_ite (fun h => ⟨.refl db, .inr ⟨fun m' he => ?_, rfl⟩⟩) (fun hsystem => ?_)
  · exact (huniq he ▸ he.notSystem) h
  refine Prog.wp_ite (fun h => ⟨.refl db, .inr ⟨fun m' he => ?_, rfl⟩⟩) (fun hlength => ?_)
  · exact absurd he.length (by omega)
  refine Prog.wp_ite (fun h => ⟨.refl db, .inr ⟨fun m' he => ?_, rfl⟩⟩) (fun htype => ?_)
  · exact h (huniq he ▸ he.sameType)
  split
  · rename_i message hcheck
    exact ⟨.refl db, .inr ⟨fun m' he => by simp [he.checked] at hcheck, rfl⟩⟩
  rename_i hcheck
  have hedit : Editable qt conn request db m :=
    { messageId := by omega
      content := fun h => hcontent (.inl h)
      contentType := fun h => hcontent (.inr h)
      found := hget
      sender := not_not.mp hsender
      live := by simpa using hlive
      notSystem := hsystem
      length := by omega
      sameType := not_not.mp htype
      checked := hcheck }
  have hext : db.Extends (db.editMessage (request.value "messageId").toLongLong
      ((request.value "content").toStr "") ((request.value "contentType").toStr "")).1 := by
    unfold Db.editMessage
    split
    · exact .refl db
    · exact .of_eq rfl rfl
  simp only [Prog.wp_bind, Prog.wp_call]
  refine Prog.wp_ite (fun _ => ⟨hext, .inl ⟨m, hedit, rfl⟩⟩) (fun _ => ?_)
  simp only [Prog.wp_bind, Prog.wp_query]
  refine Prog.wp_mono (appendSyncEvents_frame _ _ _ _) fun _ db' h => ?_
  exact ⟨hext.trans h.1, .inl ⟨m, hedit, h.2.1⟩⟩

/-- **Deletions.** A deletion leaves the messages as they are or turns one row
into a tombstone. -/
theorem processDeleteMessageRequest_spec (qt : Qt) (requestId : Nat) (conn : Connection)
    (request : Json) (db : Db) :
    (processDeleteMessageRequest qt requestId conn request).wp
      (fun _ db' => db.Extends db' ∧ (db'.messages = db.messages ∨
        db'.messages =
          (db.deleteMessage (request.value "messageId").toLongLong).1.messages)) db := by
  unfold processDeleteMessageRequest
  refine Prog.wp_ite (fun _ => ⟨.refl db, .inl rfl⟩) (fun _ => ?_)
  simp only [Prog.wp_bind, Prog.wp_query]
  split
  · exact ⟨.refl db, .inl rfl⟩
  refine Prog.wp_ite (fun _ => ⟨.refl db, .inl rfl⟩) (fun _ => ?_)
  refine Prog.wp_ite (fun _ => ⟨.refl db, .inl rfl⟩) (fun _ => ?_)
  have hext : db.Extends (db.deleteMessage (request.value "messageId").toLongLong).1 := by
    unfold Db.deleteMessage
    split
    · exact .refl db
    · exact .of_eq rfl rfl
  simp only [Prog.wp_bind, Prog.wp_call]
  refine Prog.wp_ite (fun _ => ⟨hext, .inr rfl⟩) (fun _ => ?_)
  simp only [Prog.wp_bind, Prog.wp_query]
  refine Prog.wp_mono (appendSyncEvents_frame _ _ _ _) fun _ db' h => ?_
  exact ⟨hext.trans h.1, .inr h.2.1⟩

end XYChat.Server
