import XYChat.Server.MemberSpecs
import XYChat.Server.Sequential

/-!
# What the handlers keep

Most statements of the server neither touch a member row, a receipt or a
conversation's type, nor take anything from a message but its text: each such
function is shown to keep these, whatever runs in between, and so is each handler
made of such functions.
-/

namespace XYChat.Server

open XYChat.Lib
open XYChat.Lib.Prog
open E2eeCrypto (EnvelopeEntry)

/-! ## The frame -/

/-- A message stays whose it is and where, keeps its status, and stays deleted. -/
structure MessageRow.Keeps (m m' : MessageRow) : Prop where
  id : m'.id = m.id
  conversation : m'.conversationId = m.conversationId
  sender : m'.senderId = m.senderId
  status : m'.status = m.status
  deleted : m.deleted = true → m'.deleted = true

/-- What is deleted has no text. -/
def Db.Blank (db : Db) : Prop := ∀ m ∈ db.messages.rows, m.deleted = true → m.content = ""

/-- Each message is kept, and what is deleted stays without text. -/
structure Db.KeepsMessages (db db' : Db) : Prop where
  rows : ∀ m ∈ db.messages.rows, ∃ m' ∈ db'.messages.rows, m.Keeps m'
  blank : db.Blank → db'.Blank

/-- The member rows, the receipts and the types of the conversations are the
same, and each message is kept. -/
structure Db.Keeps (db db' : Db) : Prop where
  members : db'.conversationMembers = db.conversationMembers
  types : ∀ id, db'.conversationType id = db.conversationType id
  receipts : db'.messageReceipts = db.messageReceipts
  messages : db.KeepsMessages db'

theorem MessageRow.Keeps.refl (m : MessageRow) : m.Keeps m := ⟨rfl, rfl, rfl, rfl, fun h => h⟩

theorem MessageRow.Keeps.trans {m m' m'' : MessageRow} (h : m.Keeps m') (h' : m'.Keeps m'') :
    m.Keeps m'' :=
  ⟨h'.id.trans h.id, h'.conversation.trans h.conversation, h'.sender.trans h.sender,
    h'.status.trans h.status, fun hdeleted => h'.deleted (h.deleted hdeleted)⟩

namespace Db.KeepsMessages

variable {db db' : Db}

theorem of_eq (h : db'.messages = db.messages) : db.KeepsMessages db' := by
  refine ⟨fun m hm => ⟨m, by rw [h]; exact hm, .refl m⟩, fun hblank => ?_⟩
  unfold Db.Blank
  rw [h]
  exact hblank

theorem refl (db : Db) : db.KeepsMessages db := .of_eq rfl

theorem trans {db'' : Db} (h : db.KeepsMessages db') (h' : db'.KeepsMessages db'') :
    db.KeepsMessages db'' := by
  refine ⟨fun m hm => ?_, fun hblank => h'.blank (h.blank hblank)⟩
  obtain ⟨m', hm', hkeeps⟩ := h.rows m hm
  obtain ⟨m'', hm'', hkeeps'⟩ := h'.rows m' hm'
  exact ⟨m'', hm'', hkeeps.trans hkeeps'⟩

end Db.KeepsMessages

namespace Db.Keeps

variable {db db' : Db}

theorem of_eq (hm : db'.conversationMembers = db.conversationMembers)
    (hc : db'.conversations = db.conversations) (hr : db'.messageReceipts = db.messageReceipts)
    (hmessages : db'.messages = db.messages) : db.Keeps db' := by
  refine ⟨hm, fun id => ?_, hr, .of_eq hmessages⟩
  unfold Db.conversationType Db.getConversation
  rw [hc]

theorem refl (db : Db) : db.Keeps db := .of_eq rfl rfl rfl rfl

theorem trans {db'' : Db} (h : db.Keeps db') (h' : db'.Keeps db'') : db.Keeps db'' :=
  ⟨h'.members.trans h.members, fun id => (h'.types id).trans (h.types id),
    h'.receipts.trans h.receipts, h.messages.trans h'.messages⟩

/-- An `UPDATE` of messages that keeps each of them, and leaves no text of what it
deletes. -/
theorem update {p : MessageRow → Bool} {f : MessageRow → MessageRow}
    (h : ∀ m, p m = true → m.Keeps (f m))
    (hblank : ∀ m, p m = true → (f m).deleted = true → (f m).content = "")
    (hrows : db'.messages.rows = db.messages.rows.map fun m => if p m then f m else m)
    (hm : db'.conversationMembers = db.conversationMembers)
    (hc : db'.conversations = db.conversations)
    (hr : db'.messageReceipts = db.messageReceipts) : db.Keeps db' := by
  refine ⟨hm, fun id => by unfold Db.conversationType Db.getConversation; rw [hc], hr,
    fun m hmem => ⟨if p m then f m else m, ?_, ?_⟩, fun hdb m' hm' hdeleted => ?_⟩
  · rw [hrows]
    exact List.mem_map.mpr ⟨m, hmem, rfl⟩
  · split
    · rename_i hp
      exact h m hp
    · exact .refl m
  · rw [hrows] at hm'
    obtain ⟨m, hmem, rfl⟩ := List.mem_map.mp hm'
    by_cases hp : p m = true
    · rw [if_pos hp] at hdeleted ⊢
      exact hblank m hp hdeleted
    · rw [if_neg hp] at hdeleted ⊢
      exact hdb m hmem hdeleted

theorem touchConversation (conversationId : Int) (db : Db) :
    db.Keeps (db.touchConversation conversationId) := by
  refine ⟨rfl, fun id => ?_, rfl, .of_eq rfl⟩
  unfold Db.conversationType Db.getConversation Db.touchConversation
  rw [Table.get_update, Option.map_map]
  refine congrArg (Option.map · _) (funext fun c => ?_)
  show (if _ then _ else c : ConversationRow).type = c.type
  split <;> rfl

theorem insertMessage (conversationId senderId : Int) (content contentType clientMessageId
    senderDeviceId : String) (db : Db) :
    db.Keeps (db.insertMessage conversationId senderId content contentType clientMessageId
      senderDeviceId).1 := by
  unfold Db.insertMessage
  split
  · refine ⟨rfl, fun _ => rfl, rfl, fun m hm => ⟨m, Table.mem_insert.mpr (.inl hm), .refl m⟩,
      fun hblank m hm hdeleted => ?_⟩
    rcases Table.mem_insert.mp hm with hm | rfl
    · exact hblank m hm hdeleted
    · cases hdeleted
  · exact .refl db

theorem editMessage (messageId : Int) (content contentType : String) (db : Db) :
    db.Keeps (db.editMessage messageId content contentType).1 := by
  unfold Db.editMessage
  split
  · exact .refl db
  · -- the `UPDATE` leaves alone what is deleted
    refine .update ?_ ?_ rfl rfl rfl rfl
    · exact fun m _ => ⟨rfl, rfl, rfl, rfl, fun h => h⟩
    · intro m hm hdeleted
      have : m.deleted = true := hdeleted
      simp [this] at hm

theorem deleteMessage (messageId : Int) (db : Db) :
    db.Keeps (db.deleteMessage messageId).1 := by
  unfold Db.deleteMessage
  split
  · exact .refl db
  · refine .update ?_ ?_ rfl rfl rfl rfl
    · exact fun m _ => ⟨rfl, rfl, rfl, rfl, fun _ => rfl⟩
    · exact fun m _ _ => rfl

theorem appendSyncEvent (userId : Int) (eventType : String) (payload : Json) (db : Db) :
    db.Keeps (db.appendSyncEvent userId eventType payload) := by
  unfold Db.appendSyncEvent
  split
  · exact .of_eq rfl rfl rfl rfl
  · exact .refl db

theorem setIdentityKey (userId : Int) (deviceId identityPub : String) (db : Db) :
    db.Keeps (db.setIdentityKey userId deviceId identityPub).1 := by
  unfold Db.setIdentityKey
  split
  · exact .refl db
  · split <;> exact .of_eq rfl rfl rfl rfl

theorem insertPrekeys (userId : Int) (deviceId : String) (pubs : List String) (db : Db) :
    db.Keeps (db.insertPrekeys userId deviceId pubs).1 := by
  induction pubs generalizing db with
  | nil => exact .refl db
  | cons pub pubs ih =>
      unfold Db.insertPrekeys
      split
      · exact ih db
      · have hrest := ih
          { db with prekeys := db.prekeys.insert fun id => { id, userId, deviceId, pub } }
        generalize Db.insertPrekeys userId deviceId pubs _ = inserted at hrest ⊢
        obtain ⟨db', n⟩ := inserted
        show db.Keeps db'
        exact ⟨hrest.members, hrest.types, hrest.receipts, ⟨hrest.messages.rows, hrest.messages.blank⟩⟩

theorem uploadPrekeys (userId : Int) (deviceId : String) (pubs : List String) (db : Db) :
    db.Keeps (db.uploadPrekeys userId deviceId pubs).1 := by
  unfold Db.uploadPrekeys
  split
  · exact .refl db
  · split
    · exact .refl db
    · exact insertPrekeys userId deviceId pubs db

theorem claimPrekey (userId : Int) (deviceId : String) (db : Db) :
    db.Keeps (db.claimPrekey userId deviceId).1 := by
  unfold Db.claimPrekey
  split
  · exact .refl db
  · exact .of_eq rfl rfl rfl rfl

theorem claimDevices (userId : Int) (devices : List String) (db : Db) :
    db.Keeps (db.claimDevices userId devices).1 := by
  induction devices generalizing db with
  | nil => exact .refl db
  | cons deviceId rest ih => exact (claimPrekey userId deviceId db).trans (ih _)

theorem claimPrekeys (userId : Int) (db : Db) : db.Keeps (db.claimPrekeys userId).1 := by
  have hreclaimed : db.Keeps db.reclaimPrekeys := .of_eq rfl rfl rfl rfl
  exact hreclaimed.trans
    (claimDevices userId (db.reclaimPrekeys.devicesWithPrekeys userId) db.reclaimPrekeys)

theorem insertContact (userId contactUserId : Int) (db : Db) :
    db.Keeps (db.insertContact userId contactUserId).1 := by
  unfold Db.insertContact
  split
  · exact .refl db
  · split
    · exact .refl db
    · exact .of_eq rfl rfl rfl rfl

end Db.Keeps

/-! ## Functions -/

theorem appendSyncEvents_keeps (eventType : String) (payload : Json) (userIds : List Int) :
    (appendSyncEvents eventType payload userIds).Within Db.Keeps := by
  induction userIds with
  | nil => exact within_pure _
  | cons userId rest ih =>
      exact (within_update fun db => .appendSyncEvent _ _ _ db).bind fun _ => ih

theorem sendMessage_keeps (conversationId senderId : Int) (content contentType clientMessageId
    senderDeviceId : String) :
    (sendMessage conversationId senderId content contentType clientMessageId
      senderDeviceId).Within Db.Keeps := by
  refine (within_query .refl).bind fun existing => ?_
  cases existing with
  | some m => exact within_pure _
  | none =>
      refine (within_call fun db => .insertMessage _ _ _ _ _ _ db).bind fun stored => ?_
      cases stored with
      | none => exact (within_query .refl).bind fun _ => within_pure _
      | some msgId => exact (within_update (.touchConversation _)).bind fun _ => within_pure _

theorem checkEntries_keeps (conn : Connection) (targetUserId : Int) (entries : List EnvelopeEntry)
    (prekeyIds : List Int) (seenPeerDevices : List String) (seenSelfCopy : Bool) :
    (checkEntries conn targetUserId entries prekeyIds seenPeerDevices seenSelfCopy).Within
      Db.Keeps := by
  induction entries generalizing prekeyIds seenPeerDevices seenSelfCopy with
  | nil => exact within_pure _
  | cons entry rest ih =>
      refine within_ite (fun _ => within_ite (fun _ => within_pure _) fun _ => ih _ _ _) fun _ => ?_
      refine within_ite (fun _ => within_pure _) fun _ => (within_query .refl).bind fun _ => ?_
      exact within_ite (fun _ => ih _ _ _) fun _ => within_pure _

theorem storePrivateMessage_keeps (convId senderId : Int) (content contentType clientMessageId
    senderDeviceId : String) (prekeyIds : List Int) :
    (storePrivateMessage convId senderId content contentType clientMessageId senderDeviceId
      prekeyIds).Within Db.Keeps := by
  refine Within.atomically ((sendMessage_keeps _ _ _ _ _ _).bind fun stored => ?_) .refl .trans
  cases stored with
  | none => exact within_pure _
  | some msgId => exact (within_call fun db => .of_eq rfl rfl rfl rfl).bind fun _ => within_pure _

theorem fanOutPrivateMessage_keeps (qt : Qt) (requestId : Nat) (conn : Connection)
    (targetUserId convId : Int) (content contentType clientMessageId : String) (msgId : Int) :
    (fanOutPrivateMessage qt requestId conn targetUserId convId content contentType
      clientMessageId msgId).Within Db.Keeps :=
  (within_query .refl).bind fun _ => (appendSyncEvents_keeps _ _ _).bind fun _ => within_pure _

theorem storeGroupMessage_keeps (conversationId senderId : Int) (content contentType
    clientMessageId senderDeviceId : String) (distPrekeyIds : List Int) :
    (storeGroupMessage conversationId senderId content contentType clientMessageId senderDeviceId
      distPrekeyIds).Within Db.Keeps := by
  refine (sendMessage_keeps _ _ _ _ _ _).bind fun stored => ?_
  cases stored with
  | none => exact within_pure _
  | some msgId =>
      refine within_ite (fun _ => within_pure _) fun _ => ?_
      exact (within_call fun db => .of_eq rfl rfl rfl rfl).bind fun _ => within_pure _

theorem fanOutGroupMessage_keeps (qt : Qt) (requestId : Nat) (conn : Connection)
    (conversationId : Int) (content contentType clientMessageId : String) (msgId : Int) :
    (fanOutGroupMessage qt requestId conn conversationId content contentType clientMessageId
      msgId).Within Db.Keeps :=
  (within_query .refl).bind fun _ => (within_query .refl).bind fun _ =>
    (within_query .refl).bind fun _ => (appendSyncEvents_keeps _ _ _).bind fun _ => within_pure _

theorem postGroupSystemMessage_keeps (qt : Qt) (conversationId operatorId : Int)
    (payload : Json) :
    (postGroupSystemMessage qt conversationId operatorId payload).Within Db.Keeps := by
  refine (sendMessage_keeps _ _ _ _ _ _).bind fun stored => ?_
  cases stored with
  | none => exact within_pure _
  | some msgId =>
      refine (within_query .refl).bind fun _ => (within_query .refl).bind fun _ =>
        (within_query .refl).bind fun _ => ?_
      exact (appendSyncEvents_keeps _ _ _).bind fun _ => within_pure _

theorem notifyGroupChanged_keeps (conversationId : Int) (changeType : String)
    (operatorId targetUserId : Int) :
    (notifyGroupChanged conversationId changeType operatorId targetUserId).Within Db.Keeps := by
  refine (within_query .refl).bind fun _ => (within_query .refl).bind fun _ => ?_
  exact (appendSyncEvents_keeps _ _ _).bind fun _ => within_pure _

theorem announce_keeps (qt : Qt) (conversationId operatorId : Int) (event : String)
    (details : List (String × Json)) (targetUserId : Int) :
    (announce qt conversationId operatorId event details targetUserId).Within Db.Keeps :=
  (postGroupSystemMessage_keeps _ _ _ _).bind fun _ =>
    (notifyGroupChanged_keeps _ _ _ _).bind fun _ => within_pure _

theorem findUnknownUser_keeps (ids : List Int) : (findUnknownUser ids).Within Db.Keeps := by
  induction ids with
  | nil => exact within_pure _
  | cons id rest ih =>
      refine (within_query .refl).bind fun _ => ?_
      exact within_ite (fun _ => within_pure _) fun _ => ih

theorem checkInvitees_keeps (me conversationId : Int) (currentCount : Nat) (users : List Json)
    (seen toAdd : List Int) :
    (checkInvitees me conversationId currentCount users seen toAdd).Within Db.Keeps := by
  induction users generalizing seen toAdd with
  | nil => exact within_pure _
  | cons v rest ih =>
      refine within_ite (fun _ => ih _ _) fun _ => ?_
      refine (within_query .refl).bind fun _ => within_ite (fun _ => within_pure _) fun _ => ?_
      refine (within_query .refl).bind fun _ => within_ite (fun _ => within_pure _) fun _ => ?_
      exact within_ite (fun _ => within_pure _) fun _ => ih _ _

theorem upsertIdentityKey_keeps (userId : Int) (deviceId identityPub : String) :
    (upsertIdentityKey userId deviceId identityPub).Within Db.Keeps := by
  refine within_ite (fun _ => within_pure _) fun _ => (within_query .refl).bind fun oldPub => ?_
  cases oldPub with
  | none => exact within_call (.setIdentityKey _ _ _)
  | some oldPub =>
      refine within_ite (fun _ => ?_) fun _ => within_call (.setIdentityKey _ _ _)
      exact (within_update fun db => .of_eq rfl rfl rfl rfl).bind fun _ =>
        within_call (.setIdentityKey _ _ _)

theorem collectBundles_keeps (userIds : List Int) : (collectBundles userIds).Within Db.Keeps := by
  induction userIds with
  | nil => exact within_pure _
  | cons userId rest ih =>
      refine (within_call (.claimPrekeys _)).bind fun _ => within_ite (fun _ => ih) fun _ => ?_
      exact (within_query .refl).bind fun _ => ih.bind fun _ => within_pure _

theorem countUnread_keeps (userId : Int) (cs : List ConversationInfo) :
    (countUnread userId cs).Within Db.Keeps := by
  induction cs with
  | nil => exact within_pure _
  | cons c rest ih => exact (within_query .refl).bind fun _ => ih.bind fun _ => within_pure _

theorem fillPeers_keeps (userId : Int) (cs : List ConversationInfo) :
    (fillPeers userId cs).Within Db.Keeps := by
  induction cs with
  | nil => exact within_pure _
  | cons c rest ih =>
      unfold fillPeers
      dsimp only
      cases c.type with
      | privateType => exact (within_query .refl).bind fun _ => ih.bind fun _ => within_pure _
      | groupType => exact (within_query .refl).bind fun _ => ih.bind fun _ => within_pure _

/-! ## Handlers -/

section

variable {qt : Qt} {requestId : Nat} {conn : Connection} {request : Json}

theorem processSendGroupMessage_keeps (conversationId : Int) (clientMessageId : String) :
    (processSendGroupMessage qt requestId conn request conversationId clientMessageId).Within
      Db.Keeps := by
  unfold processSendGroupMessage
  dsimp only
  refine (within_query .refl).bind fun found => ?_
  cases found with
  | none => exact within_pure _
  | some conv =>
      refine within_ite (fun _ => within_pure _) fun _ => (within_query .refl).bind fun _ => ?_
      refine within_ite (fun _ => within_pure _) fun _ =>
        within_ite (fun _ => within_pure _) fun _ => ?_
      refine within_ite (fun _ => within_pure _) fun _ =>
        within_ite (fun _ => within_pure _) fun _ => ?_
      cases checkGroupContent qt conversationId ((request.value "content").toStr "")
          ((request.value "contentType").toStr "text") with
      | error message => exact within_pure _
      | ok distPrekeyIds =>
          refine (within_query .refl).bind fun existing => ?_
          cases existing with
          | some m => exact within_pure _
          | none =>
              refine (storeGroupMessage_keeps _ _ _ _ _ _ _).bind fun stored => ?_
              cases stored with
              | none => exact within_pure _
              | some msgId => exact fanOutGroupMessage_keeps _ _ _ _ _ _ _ _

theorem processEditMessageRequest_keeps :
    (processEditMessageRequest qt requestId conn request).Within Db.Keeps := by
  unfold processEditMessageRequest
  dsimp only
  refine within_ite (fun _ => within_pure _) fun _ => within_ite (fun _ => within_pure _) fun _ => ?_
  refine (within_query .refl).bind fun found => ?_
  cases found with
  | none => exact within_pure _
  | some msg =>
      refine within_ite (fun _ => within_pure _) fun _ =>
        within_ite (fun _ => within_pure _) fun _ => ?_
      refine within_ite (fun _ => within_pure _) fun _ =>
        within_ite (fun _ => within_pure _) fun _ => ?_
      refine within_ite (fun _ => within_pure _) fun _ => ?_
      cases checkEditContent qt conn ((request.value "content").toStr "")
          ((request.value "contentType").toStr "") with
      | error message => exact within_pure _
      | ok _ =>
          refine (within_call (.editMessage _ _ _)).bind fun _ =>
            within_ite (fun _ => within_pure _) fun _ => ?_
          refine (within_query .refl).bind fun _ => (within_query .refl).bind fun _ => ?_
          exact (appendSyncEvents_keeps _ _ _).bind fun _ => within_pure _

theorem processDeleteMessageRequest_keeps :
    (processDeleteMessageRequest qt requestId conn request).Within Db.Keeps := by
  unfold processDeleteMessageRequest
  dsimp only
  refine within_ite (fun _ => within_pure _) fun _ => (within_query .refl).bind fun found => ?_
  cases found with
  | none => exact within_pure _
  | some msg =>
      refine within_ite (fun _ => within_pure _) fun _ =>
        within_ite (fun _ => within_pure _) fun _ => ?_
      refine (within_call (.deleteMessage _)).bind fun _ =>
        within_ite (fun _ => within_pure _) fun _ => ?_
      refine (within_query .refl).bind fun _ => (within_query .refl).bind fun _ => ?_
      exact (appendSyncEvents_keeps _ _ _).bind fun _ => within_pure _

theorem processRegisterKeysRequest_keeps :
    (processRegisterKeysRequest qt requestId conn request).Within Db.Keeps := by
  unfold processRegisterKeysRequest
  dsimp only
  refine within_ite (fun _ => within_pure _) fun _ => (upsertIdentityKey_keeps _ _ _).bind fun _ => ?_
  refine within_ite (fun _ => within_pure _) fun _ => ?_
  refine within_ite (fun _ => (within_query .refl).bind fun _ => within_pure _) fun _ => ?_
  refine within_ite (fun _ => within_pure _) fun _ => (within_query .refl).bind fun _ => ?_
  refine within_ite (fun _ => within_pure _) fun _ => within_ite (fun _ => within_pure _) fun _ => ?_
  refine (within_call (.uploadPrekeys _ _ _)).bind fun uploaded => ?_
  cases uploaded with
  | none => exact within_pure _
  | some n => exact (within_query .refl).bind fun _ => within_pure _

theorem processFetchKeysRequest_keeps :
    (processFetchKeysRequest requestId conn request).Within Db.Keeps := by
  unfold processFetchKeysRequest
  dsimp only
  refine within_ite (fun _ => within_pure _) fun _ => (within_query .refl).bind fun _ => ?_
  refine within_ite (fun _ => within_pure _) fun _ => (within_query .refl).bind fun _ => ?_
  refine within_ite (fun _ => within_pure _) fun _ => (within_call (.claimPrekeys _)).bind fun _ => ?_
  refine within_ite (fun _ => within_pure _) fun _ => (within_query .refl).bind fun _ => ?_
  exact within_ite (fun _ => within_pure _) fun _ => within_pure _

theorem processFetchGroupKeysRequest_keeps :
    (processFetchGroupKeysRequest requestId conn request).Within Db.Keeps := by
  unfold processFetchGroupKeysRequest
  dsimp only
  refine within_ite (fun _ => within_pure _) fun _ => (within_query .refl).bind fun found => ?_
  cases found with
  | none => exact within_pure _
  | some conv =>
      refine within_ite (fun _ => within_pure _) fun _ => (within_query .refl).bind fun _ => ?_
      refine within_ite (fun _ => within_pure _) fun _ => (within_query .refl).bind fun _ => ?_
      refine within_ite (fun _ => within_pure _) fun _ => (within_query .refl).bind fun _ => ?_
      exact (collectBundles_keeps _).bind fun _ => within_pure _

theorem processSearchUsersRequest_keeps :
    (processSearchUsersRequest requestId conn request).Within Db.Keeps := by
  unfold processSearchUsersRequest
  dsimp only
  refine within_ite (fun _ => within_pure _) fun _ => (within_query .refl).bind fun _ => ?_
  exact within_ite (fun _ => within_pure _) fun _ => (within_query .refl).bind fun _ => within_pure _

theorem processAddContactRequest_keeps :
    (processAddContactRequest requestId conn request).Within Db.Keeps := by
  unfold processAddContactRequest
  dsimp only
  refine within_ite (fun _ => within_pure _) fun _ => (within_query .refl).bind fun _ => ?_
  refine within_ite (fun _ => within_pure _) fun _ => Within.bind ?_ fun _ => ?_
  · refine within_ite (fun _ => within_pure _) fun _ => ?_
    refine (within_call (.insertContact _ _)).bind fun _ => ?_
    exact within_ite (fun _ => within_pure _) fun _ => within_call (.insertContact _ _)
  · refine within_ite (fun _ => within_pure _) fun _ => ?_
    exact (within_update (.appendSyncEvent _ _ _)).bind fun _ =>
      (within_update (.appendSyncEvent _ _ _)).bind fun _ => within_pure _

theorem processGetContactsRequest_keeps :
    (processGetContactsRequest qt requestId conn).Within Db.Keeps :=
  (within_query .refl).bind fun _ => within_pure _

theorem processGetConversationsRequest_keeps :
    (processGetConversationsRequest qt requestId conn).Within Db.Keeps := by
  refine Within.bind ?_ fun _ => within_pure _
  exact (within_query .refl).bind fun _ => (countUnread_keeps _ _).bind fun _ => fillPeers_keeps _ _

theorem processSyncEventsRequest_keeps :
    (processSyncEventsRequest qt requestId conn request).Within Db.Keeps := by
  unfold processSyncEventsRequest
  dsimp only
  refine within_ite (fun _ => within_pure _) fun _ => (within_query .refl).bind fun _ => ?_
  refine within_ite (fun _ => (within_query .refl).bind fun _ => within_pure _) fun _ => ?_
  exact (within_query .refl).bind fun _ => within_pure _

theorem processGetGroupInfoRequest_keeps :
    (processGetGroupInfoRequest qt requestId conn request).Within Db.Keeps := by
  unfold processGetGroupInfoRequest
  dsimp only
  refine within_ite (fun _ => within_pure _) fun _ => (within_query .refl).bind fun db => ?_
  cases Option.filter (fun c : ConversationRow => decide (c.type = .groupType)) db with
  | none => exact within_pure _
  | some conv =>
      refine (within_query .refl).bind fun role => ?_
      cases role with
      | none => exact within_pure _
      | some myRole => exact (within_query .refl).bind fun _ => within_pure _

end

/-! ## What keeps the rows -/

/-- A user has one row in a conversation. -/
def Db.MembersUnique (db : Db) : Prop :=
  ∀ r ∈ db.conversationMembers.rows, ∀ r' ∈ db.conversationMembers.rows,
    r.conversationId = r'.conversationId → r.userId = r'.userId → r = r'

instance (db : Db) : Decidable db.MembersUnique :=
  inferInstanceAs (Decidable (∀ r ∈ db.conversationMembers.rows,
    ∀ r' ∈ db.conversationMembers.rows,
    r.conversationId = r'.conversationId → r.userId = r'.userId → r = r'))

/-- Each message is kept, and a user does not get a second row in a
conversation. -/
structure Db.KeepsRows (db db' : Db) : Prop where
  messages : db.KeepsMessages db'
  unique : db.MembersUnique → db'.MembersUnique

namespace Db.KeepsRows

variable {db db' : Db}

theorem refl (db : Db) : db.KeepsRows db := ⟨.refl db, fun h => h⟩

theorem trans {db'' : Db} (h : db.KeepsRows db') (h' : db'.KeepsRows db'') :
    db.KeepsRows db'' :=
  ⟨h.messages.trans h'.messages, fun hu => h'.unique (h.unique hu)⟩

theorem of_keeps (h : db.Keeps db') : db.KeepsRows db' := by
  refine ⟨h.messages, fun hu => ?_⟩
  unfold Db.MembersUnique
  rw [h.members]
  exact hu

theorem of_eq (hm : db'.conversationMembers = db.conversationMembers)
    (hmessages : db'.messages = db.messages) : db.KeepsRows db' := by
  refine ⟨.of_eq hmessages, fun hu => ?_⟩
  unfold Db.MembersUnique
  rw [hm]
  exact hu

/-- An `UPDATE` of member rows that leaves their users and conversations alone. -/
theorem update {p : MemberRow → Bool} {f : MemberRow → MemberRow}
    (h : ∀ m, (f m).conversationId = m.conversationId ∧ (f m).userId = m.userId)
    (hrows : db'.conversationMembers.rows =
      db.conversationMembers.rows.map fun m => if p m then f m else m)
    (hmessages : db'.messages = db.messages) : db.KeepsRows db' := by
  refine ⟨.of_eq hmessages, fun hu r hr r' hr' hconv huser => ?_⟩
  have hkept : ∀ m, (if p m then f m else m).conversationId = m.conversationId ∧
      (if p m then f m else m).userId = m.userId := by
    intro m
    split
    · exact h m
    · exact ⟨rfl, rfl⟩
  rw [hrows] at hr hr'
  obtain ⟨m, hm, rfl⟩ := List.mem_map.mp hr
  obtain ⟨m', hm', rfl⟩ := List.mem_map.mp hr'
  rw [(hkept m).1, (hkept m').1] at hconv
  rw [(hkept m).2, (hkept m').2] at huser
  rw [hu m hm m' hm' hconv huser]

theorem removed {g u : Int} (h : MemberRemoved db db' g u)
    (hmessages : db'.messages = db.messages) : db.KeepsRows db' :=
  ⟨.of_eq hmessages, fun hu r hr r' hr' => hu r (h.mem.mp hr).1 r' (h.mem.mp hr').1⟩

theorem insertMember (conversationId userId : Int) (role : MemberRole) (db : Db) :
    db.KeepsRows (db.insertMember conversationId userId role).1 := by
  refine ⟨.of_eq (Db.insertMember_messages _ _ _ db), fun hu => ?_⟩
  rcases insertMember_cases conversationId userId role db with hsame | ⟨r, _, _, _, _, hadded⟩
  · rw [hsame]
    exact hu
  · have hnew : ∀ x ∈ db.conversationMembers.rows, x.conversationId = r.conversationId →
        x.userId ≠ r.userId := fun x hx hconv huser => by
      have hin := (isConversationMember_iff r.conversationId r.userId).mpr ⟨x, hx, hconv, huser⟩
      rw [hadded.new] at hin
      exact nomatch hin
    intro x hx x' hx' hconv huser
    rw [hadded.rows, List.mem_append, List.mem_singleton] at hx hx'
    rcases hx with hx | rfl <;> rcases hx' with hx' | rfl
    · exact hu x hx x' hx' hconv huser
    · exact absurd huser (hnew x hx hconv)
    · exact absurd huser.symm (hnew x' hx' hconv.symm)
    · rfl

theorem insertInitialMembers {conversationId : Int} {memberIds added : List Int}
    (h : Db.insertInitialMembers conversationId memberIds added db = some db') :
    db.KeepsRows db' := by
  induction memberIds generalizing added db with
  | nil =>
      rw [← Option.some.inj h]
      exact .refl db
  | cons memberId rest ih =>
      unfold Db.insertInitialMembers at h
      split at h
      · rw [← Option.some.inj h]
        exact .refl db
      split at h
      · exact ih h
      · have hkept := insertMember conversationId memberId .member db
        generalize Db.insertMember conversationId memberId .member db = inserted at h hkept
        obtain ⟨db₁, ok⟩ := inserted
        cases ok with
        | false => cases h
        | true => exact hkept.trans (ih h)

theorem createGroup (ownerId : Int) (name : String) (memberIds : List Int) (db : Db) :
    db.KeepsRows (db.createGroup ownerId name memberIds).1 := by
  unfold Db.createGroup
  split
  · exact .refl db
  · dsimp only
    have hcreated : db.KeepsRows
        { db with
          conversations := db.conversations.insert fun id =>
            { id, type := .groupType, name := trimmed name, updatedAt := db.now } } :=
      .of_eq rfl rfl
    have hkept := insertMember (db.conversations.lastId + 1) ownerId .owner
      { db with
        conversations := db.conversations.insert fun id =>
          { id, type := .groupType, name := trimmed name, updatedAt := db.now } }
    generalize Db.insertMember (db.conversations.lastId + 1) ownerId .owner _ = owned at hkept ⊢
    obtain ⟨db₁, ok⟩ := owned
    cases ok with
    | false => exact .refl db
    | true =>
        dsimp only
        split
        · exact .refl db
        · rename_i db' hmore
          exact (hcreated.trans hkept).trans (insertInitialMembers hmore)

theorem setConversationPrefs (conversationId userId : Int) (pinned muted : Bool) (db : Db) :
    db.KeepsRows (db.setConversationPrefs conversationId userId pinned muted).1 := by
  unfold Db.setConversationPrefs
  split
  · exact .refl db
  · refine .update ?_ rfl rfl
    exact fun _ => ⟨rfl, rfl⟩

theorem updateMemberReadCursor (conversationId userId messageId : Int) (db : Db) :
    db.KeepsRows (db.updateMemberReadCursor conversationId userId messageId) := by
  refine .update ?_ rfl rfl
  exact fun _ => ⟨rfl, rfl⟩

theorem updateMemberRole (conversationId userId : Int) (role : MemberRole) (db : Db) :
    db.KeepsRows (db.updateMemberRole conversationId userId role).1 := by
  refine .update ?_ rfl rfl
  exact fun _ => ⟨rfl, rfl⟩

theorem removeGroupMember (conversationId userId : Int) (db : Db) :
    db.KeepsRows (db.removeGroupMember conversationId userId).1 :=
  .removed (removeGroupMember_removed conversationId userId db) rfl

end Db.KeepsRows

/-- What keeps all of this keeps the rows. -/
theorem keepsRows_of_keeps {α : Type} {p : Prog Db α} (h : p.Within Db.Keeps) :
    p.Within Db.KeepsRows :=
  h.mono fun _ _ => .of_keeps

theorem addGroupMembers_keepsRows (conversationId : Int) (ids seen : List Int) :
    (addGroupMembers conversationId ids seen).Within Db.KeepsRows := by
  induction ids generalizing seen with
  | nil => exact within_pure _
  | cons userId rest ih =>
      refine within_ite (fun _ => ih _) fun _ => (within_query .refl).bind fun _ => ?_
      refine within_ite (fun _ => ih _) fun _ => (within_query .refl).bind fun _ => ?_
      refine within_ite (fun _ => within_pure _) fun _ => ?_
      refine (within_call (.insertMember _ _ _)).bind fun _ => ?_
      exact within_ite (fun _ => ih _) fun _ => within_pure _

theorem getOrCreatePrivateConversation_keepsRows (userId1 userId2 : Int) :
    (getOrCreatePrivateConversation userId1 userId2).Within Db.KeepsRows := by
  refine within_ite (fun _ => within_pure _) fun _ => (within_query .refl).bind fun found => ?_
  cases found with
  | some convId => exact within_pure _
  | none =>
      refine (within_call fun db => .of_eq rfl rfl).bind fun _ => ?_
      exact (within_call (.insertMember _ _ _)).bind fun _ =>
        (within_call (.insertMember _ _ _)).bind fun _ =>
          within_pure _

section

variable {qt : Qt} {requestId : Nat} {conn : Connection} {request : Json}

theorem processSendMessageRequest_keepsRows :
    (processSendMessageRequest qt requestId conn request).Within Db.KeepsRows := by
  unfold processSendMessageRequest
  dsimp only
  refine within_ite (fun _ => within_pure _) fun _ => (within_query .refl).bind fun _ => ?_
  refine within_ite (fun _ => within_pure _) fun _ => ?_
  refine within_ite (fun _ => keepsRows_of_keeps (processSendGroupMessage_keeps _ _)) fun _ => ?_
  unfold processSendPrivateMessage
  dsimp only
  refine within_ite (fun _ => within_pure _) fun _ => within_ite (fun _ => within_pure _) fun _ => ?_
  refine (within_query .refl).bind fun existing => ?_
  cases existing with
  | some m => exact within_pure _
  | none =>
      cases E2eeCrypto.decodeEnvelope qt ((request.value "content").toStr "") with
      | none => exact within_pure _
      | some entries =>
          refine (keepsRows_of_keeps (checkEntries_keeps _ _ _ _ _ _)).bind fun checked => ?_
          match checked with
          | .error message => exact within_pure _
          | .ok [] => exact within_pure _
          | .ok (prekeyId :: prekeyIds) =>
              refine (getOrCreatePrivateConversation_keepsRows _ _).bind fun convId => ?_
              cases convId with
              | none => exact within_pure _
              | some convId =>
                  refine (keepsRows_of_keeps
                    (storePrivateMessage_keeps _ _ _ _ _ _ _)).bind fun stored => ?_
                  cases stored with
                  | none => exact within_pure _
                  | some msgId =>
                      exact keepsRows_of_keeps (fanOutPrivateMessage_keeps _ _ _ _ _ _ _ _ _)

theorem processSyncMessagesRequest_keepsRows :
    (processSyncMessagesRequest qt requestId conn request).Within Db.KeepsRows := by
  unfold processSyncMessagesRequest
  dsimp only
  refine within_ite (fun _ => within_pure _) fun _ => (within_query .refl).bind fun _ => ?_
  refine within_ite (fun _ => within_pure _) fun _ => (within_query .refl).bind fun messages => ?_
  cases messages.getLast? with
  | none => exact within_pure _
  | some last => exact (within_update (.updateMemberReadCursor _ _ _)).bind fun _ => within_pure _

theorem processSetConversationPrefsRequest_keepsRows :
    (processSetConversationPrefsRequest requestId conn request).Within Db.KeepsRows := by
  unfold processSetConversationPrefsRequest
  dsimp only
  refine within_ite (fun _ => within_pure _) fun _ => within_ite (fun _ => within_pure _) fun _ => ?_
  refine (within_query .refl).bind fun _ => within_ite (fun _ => within_pure _) fun _ => ?_
  refine (within_call (.setConversationPrefs _ _ _ _)).bind fun _ => ?_
  refine within_ite (fun _ => within_pure _) fun _ => ?_
  exact (within_update fun db => .of_keeps (.appendSyncEvent _ _ _ db)).bind fun _ =>
    within_pure _

theorem processCreateGroupRequest_keepsRows :
    (processCreateGroupRequest qt requestId conn request).Within Db.KeepsRows := by
  unfold processCreateGroupRequest
  dsimp only
  refine within_ite (fun _ => within_pure _) fun _ => within_ite (fun _ => within_pure _) fun _ => ?_
  refine within_ite (fun _ => within_pure _) fun _ => ?_
  refine (keepsRows_of_keeps (findUnknownUser_keeps _)).bind fun unknown => ?_
  cases unknown with
  | some id => exact within_pure _
  | none =>
      refine (within_call (.createGroup _ _ _)).bind fun created => ?_
      cases created with
      | none => exact within_pure _
      | some convId =>
          refine (keepsRows_of_keeps (announce_keeps _ _ _ _ _ _)).bind fun _ => ?_
          exact (within_query .refl).bind fun _ => within_pure _

theorem processInviteGroupMembersRequest_keepsRows :
    (processInviteGroupMembersRequest qt requestId conn request).Within Db.KeepsRows := by
  unfold processInviteGroupMembersRequest
  dsimp only
  refine within_ite (fun _ => within_pure _) fun _ => (within_query .refl).bind fun _ => ?_
  refine within_ite (fun _ => within_pure _) fun _ => (within_query .refl).bind fun _ => ?_
  refine within_ite (fun _ => within_pure _) fun _ => within_ite (fun _ => within_pure _) fun _ => ?_
  refine within_ite (fun _ => within_pure _) fun _ => (within_query .refl).bind fun _ => ?_
  refine (keepsRows_of_keeps (checkInvitees_keeps _ _ _ _ _ _)).bind fun checked => ?_
  match checked with
  | .error (code, message) => exact within_pure _
  | .ok [] => exact within_pure _
  | .ok (first :: rest) =>
      refine (addGroupMembers_keepsRows _ _ _).bind fun _ =>
        within_ite (fun _ => within_pure _) fun _ => ?_
      refine (keepsRows_of_keeps (announce_keeps _ _ _ _ _ _)).bind fun _ => ?_
      exact (within_query .refl).bind fun _ => within_pure _

theorem handOver_keepsRows (conversationId me : Int) (role : MemberRole) :
    (handOver qt conversationId me role).Within Db.KeepsRows := by
  unfold handOver
  refine within_ite (fun _ => within_pure _) fun _ => (within_query .refl).bind fun members => ?_
  cases successor me members with
  | none => exact within_pure _
  | some newOwner =>
      refine (within_call (.updateMemberRole _ _ _)).bind fun _ => ?_
      exact (keepsRows_of_keeps (postGroupSystemMessage_keeps _ _ _ _)).bind fun _ =>
        (keepsRows_of_keeps (notifyGroupChanged_keeps _ _ _ _)).bind fun _ => within_pure _

theorem processLeaveGroupRequest_keepsRows :
    (processLeaveGroupRequest qt requestId conn request).Within Db.KeepsRows := by
  unfold processLeaveGroupRequest
  dsimp only
  refine within_ite (fun _ => within_pure _) fun _ => (within_query .refl).bind fun _ => ?_
  refine within_ite (fun _ => within_pure _) fun _ => (within_query .refl).bind fun role => ?_
  cases role with
  | none => exact within_pure _
  | some role =>
      refine (handOver_keepsRows _ _ _).bind fun _ => ?_
      refine (within_call (.removeGroupMember _ _)).bind fun _ => ?_
      refine within_ite (fun _ => within_pure _) fun _ => ?_
      exact (keepsRows_of_keeps (announce_keeps _ _ _ _ _ _)).bind fun _ => within_pure _

theorem processKickGroupMemberRequest_keepsRows :
    (processKickGroupMemberRequest qt requestId conn request).Within Db.KeepsRows := by
  unfold processKickGroupMemberRequest
  dsimp only
  refine within_ite (fun _ => within_pure _) fun _ => (within_query .refl).bind fun _ => ?_
  refine within_ite (fun _ => within_pure _) fun _ => within_ite (fun _ => within_pure _) fun _ => ?_
  refine (within_query .refl).bind fun _ => (within_query .refl).bind fun targetRole => ?_
  cases targetRole with
  | none => exact within_pure _
  | some targetRole =>
      refine within_ite (fun _ => within_pure _) fun _ => ?_
      refine (within_call (.removeGroupMember _ _)).bind fun _ => ?_
      refine within_ite (fun _ => within_pure _) fun _ => ?_
      exact (keepsRows_of_keeps (announce_keeps _ _ _ _ _ _)).bind fun _ => within_pure _

end

/-- Every handler but the one of `AckMessage` keeps the rows. -/
theorem program_keepsRows {qt : Qt} {requestId : Nat} {conn : Connection} {request : Json}
    {handler : Handler} {p : Prog Db Outcome}
    (hp : handler.program qt requestId conn request = some p) (hack : handler ≠ .ackMessage) :
    p.Within Db.KeepsRows := by
  cases handler <;>
    simp only [Handler.program, otherHandlers, reduceCtorEq, Option.some.injEq, ne_eq,
      not_true_eq_false] at hp hack <;>
    subst hp
  case sendMessage => exact processSendMessageRequest_keepsRows
  case editMessage => exact keepsRows_of_keeps processEditMessageRequest_keeps
  case deleteMessage => exact keepsRows_of_keeps processDeleteMessageRequest_keeps
  case registerKeys => exact keepsRows_of_keeps processRegisterKeysRequest_keeps
  case fetchKeys => exact keepsRows_of_keeps processFetchKeysRequest_keeps
  case fetchGroupKeys => exact keepsRows_of_keeps processFetchGroupKeysRequest_keeps
  case searchUsers => exact keepsRows_of_keeps processSearchUsersRequest_keeps
  case addContact => exact keepsRows_of_keeps processAddContactRequest_keeps
  case getContacts => exact keepsRows_of_keeps processGetContactsRequest_keeps
  case getConversations => exact keepsRows_of_keeps processGetConversationsRequest_keeps
  case syncMessages => exact processSyncMessagesRequest_keepsRows
  case syncEvents => exact keepsRows_of_keeps processSyncEventsRequest_keeps
  case getGroupInfo => exact keepsRows_of_keeps processGetGroupInfoRequest_keeps
  case setConversationPrefs => exact processSetConversationPrefsRequest_keepsRows
  case createGroup => exact processCreateGroupRequest_keepsRows
  case inviteGroupMembers => exact processInviteGroupMembersRequest_keepsRows
  case leaveGroup => exact processLeaveGroupRequest_keepsRows
  case kickGroupMember => exact processKickGroupMemberRequest_keepsRows

/-! ## The session handlers -/

/-- The tables of `Db` are kept. -/
def ServerDb.Keeps (s s' : ServerDb) : Prop := s.toDb.Keeps s'.toDb

theorem ServerDb.Keeps.refl (s : ServerDb) : s.Keeps s := Db.Keeps.refl s.toDb

theorem ServerDb.Keeps.trans {s s' s'' : ServerDb} (h : s.Keeps s') (h' : s'.Keeps s'') :
    s.Keeps s'' :=
  Db.Keeps.trans h h'

theorem ServerDb.Keeps.of_eq {s s' : ServerDb} (h : s'.toDb = s.toDb) : s.Keeps s' := by
  unfold ServerDb.Keeps
  rw [h]
  exact .refl _

theorem ServerDb.Keeps.createSession (userId : Int) (deviceId tokenHash loginIp : String)
    (s : ServerDb) : s.Keeps (s.createSession userId deviceId tokenHash loginIp).1 := by
  unfold ServerDb.createSession
  split <;> exact .of_eq rfl

theorem ServerDb.Keeps.registerUser (username passwordHash : String) (s : ServerDb) :
    s.Keeps (s.registerUser username passwordHash).1 := by
  show s.toDb.Keeps (s.toDb.registerUser username passwordHash).1
  unfold Db.registerUser
  split
  · exact .refl _
  · exact .of_eq rfl rfl rfl rfl

theorem ServerDb.Keeps.registerDevice (userId : Int) (deviceId deviceName platform : String)
    (s : ServerDb) : s.Keeps (s.registerDevice userId deviceId deviceName platform) := by
  show s.toDb.Keeps (s.toDb.registerDevice userId deviceId deviceName platform)
  obtain ⟨devices, hdb⟩ := s.toDb.registerDevice_eq userId deviceId deviceName platform
  rw [hdb]
  exact .of_eq rfl rfl rfl rfl

section

variable {qt : Qt} {hashes : Hashes} {requestId : Nat} {conn : Connection} {request : Json}

theorem checkRateLimit_keeps (ipAddress : String) (userId : Int) :
    (checkRateLimit ipAddress userId).Within ServerDb.Keeps := by
  refine (within_query .refl).bind fun _ => within_ite (fun _ => within_pure _) fun _ => ?_
  exact within_ite (fun _ => (within_query .refl).bind fun _ => within_pure _) fun _ => within_pure _

theorem processLoginRequest_keeps (token : String) :
    (processLoginRequest qt hashes token requestId conn request).Within ServerDb.Keeps := by
  unfold processLoginRequest
  dsimp only
  refine within_ite (fun _ => within_pure _) fun _ => (within_query .refl).bind fun found => ?_
  cases found with
  | none => exact (within_update fun _ => .of_eq rfl).bind fun _ => within_pure _
  | some user =>
      refine (checkRateLimit_keeps _ _).bind fun _ => within_ite (fun _ => within_pure _) fun _ => ?_
      refine within_ite (fun _ => ?_) fun _ => ?_
      · exact (within_update fun _ => .of_eq rfl).bind fun _ => within_pure _
      refine (within_update (.registerDevice _ _ _ _)).bind fun _ => ?_
      refine (within_call (.createSession _ _ _ _)).bind fun created => ?_
      cases created with
      | none => exact within_pure _
      | some sessionId =>
          refine (within_update fun _ => .of_eq rfl).bind fun _ => ?_
          exact (within_query .refl).bind fun _ => within_pure _

theorem processRegisterRequest_keeps (salt : String) :
    (processRegisterRequest hashes salt requestId conn request).Within ServerDb.Keeps := by
  unfold processRegisterRequest
  dsimp only
  refine within_ite (fun _ => within_pure _) fun _ => within_ite (fun _ => within_pure _) fun _ => ?_
  refine within_ite (fun _ => within_pure _) fun _ => (within_query .refl).bind fun _ => ?_
  refine within_ite (fun _ => within_pure _) fun _ => ?_
  refine (within_call (.registerUser _ _)).bind fun registered => ?_
  cases registered with
  | none => exact within_pure _
  | some userId => exact within_pure _

theorem processLogoutRequest_keeps :
    (processLogoutRequest requestId conn).Within ServerDb.Keeps :=
  (within_update fun _ => .of_eq rfl).bind fun _ => within_pure _

theorem processTokenRenewRequest_keeps (newToken : String) :
    (processTokenRenewRequest qt hashes newToken requestId conn request).Within ServerDb.Keeps := by
  unfold processTokenRenewRequest
  dsimp only
  refine within_ite (fun _ => within_pure _) fun _ => (within_query .refl).bind fun found => ?_
  cases found with
  | none => exact within_pure _
  | some session =>
      refine within_ite (fun _ => within_pure _) fun _ => ?_
      refine (within_update fun _ => .of_eq rfl).bind fun _ => ?_
      refine (within_call (.createSession _ _ _ _)).bind fun created => ?_
      cases created with
      | none => exact within_pure _
      | some sessionId => exact (within_query .refl).bind fun _ => within_pure _

theorem processTerminateSessionRequest_keeps :
    (processTerminateSessionRequest requestId conn request).Within ServerDb.Keeps := by
  unfold processTerminateSessionRequest
  dsimp only
  refine within_ite (fun _ => within_pure _) fun _ => within_ite (fun _ => within_pure _) fun _ => ?_
  refine within_ite (fun _ => within_pure _) fun _ => (within_query .refl).bind fun sessions => ?_
  cases sessions.find? _ with
  | none => exact within_pure _
  | some target => exact (within_update fun _ => .of_eq rfl).bind fun _ => within_pure _

theorem handler_of_program_none {handler : Handler}
    (hp : handler.program qt requestId conn request = none) :
    handler = .register ∨ handler = .login ∨ handler = .logout ∨ handler = .tokenRenew ∨
      handler = .terminateSession := by
  cases handler <;> simp [Handler.program] at hp ⊢

/-- The handlers that work on the session tables keep those of `Db`. -/
theorem handle_keeps {other : OtherHandlers} {random : Random} {handler : Handler}
    (hp : handler.program qt requestId conn request = none) :
    (handle qt hashes other random requestId conn request handler).Within ServerDb.Keeps := by
  rcases handler_of_program_none hp with rfl | rfl | rfl | rfl | rfl <;> dsimp only [handle]
  · exact processRegisterRequest_keeps _
  · exact processLoginRequest_keeps _
  · exact processLogoutRequest_keeps
  · exact processTokenRenewRequest_keeps _
  · exact processTerminateSessionRequest_keeps

/-- A packet that reaches no program over the tables of `Db` keeps them. -/
theorem process_keeps {random : Random} {s : SequentialServer} {c : Nat} {packet : Packet}
    {wait : Nat}
    (h : ∀ handler request, (s.admits qt hashes c packet wait).2 = .handle handler request →
      handler.program qt packet.requestId (s.conns c) request = none) :
    s.db.Keeps (s.process qt hashes c packet random wait).1 := by
  unfold SequentialServer.process
  have hwithin : (processAdmitted qt hashes (otherHandlers qt) random packet.requestId (s.conns c)
      (s.admits qt hashes c packet wait).2).Within ServerDb.Keeps := by
    cases hadmits : (s.admits qt hashes c packet wait).2 with
    | pong => exact within_pure _
    | reject code message => exact within_pure _
    | unknown type => exact (within_update fun _ => .of_eq rfl).bind fun _ => within_pure _
    | handle handler request =>
        have hkeeps := @handle_keeps qt hashes packet.requestId (s.conns c) request
          (otherHandlers qt) random handler (h handler request hadmits)
        refine within_ite (fun _ => ?_) fun _ => hkeeps
        exact (within_update fun _ => .of_eq rfl).bind fun _ => hkeeps
  exact hwithin.exec .refl .trans s.db

end

end XYChat.Server
