import XYChat.Server.MemberSpecs
import XYChat.Server.Sequential

/-!
# What the server writes

The statements by which the handlers change the database, and that every handler,
whatever runs between its statements, executes no others. What these statements
keep is then kept by the server.
-/

namespace XYChat.Server

open XYChat.Lib
open XYChat.Lib.Prog
open E2eeCrypto (EnvelopeEntry)

/-! ## The tables of `Db` -/

/-- The row of a group that is created. -/
def newGroup (name : String) (now id : Int) : ConversationRow :=
  { id, type := .groupType, name := trimmed name, updatedAt := now }

theorem key_newGroup (name : String) (now id : Int) : key (newGroup name now id) = id := rfl

/-- `INSERT INTO conversations` of `createGroup`. -/
def Db.insertGroupNamed (name : String) (db : Db) : Db :=
  { db with
    conversations := db.conversations.insert (newGroup name db.now) (key_newGroup name db.now) }

def newPrekey (userId : Int) (deviceId pub : String) (id : Int) : PrekeyRow :=
  { id, userId, deviceId, pub }

theorem key_newPrekey (userId : Int) (deviceId pub : String) (id : Int) :
    key (newPrekey userId deviceId pub id) = id := rfl

/-- One of the insertions of `uploadPrekeys`. -/
def Db.insertPrekey (userId : Int) (deviceId pub : String) (db : Db) : Db :=
  { db with
    prekeys := db.prekeys.insert (newPrekey userId deviceId pub)
      (key_newPrekey userId deviceId pub) }

/-- What the statements of the handlers make of the tables, one after the other. -/
inductive Db.Writes : Db → Db → Prop
  | refl (db : Db) : Writes db db
  | trans {db db' db'' : Db} : Writes db db' → Writes db' db'' → Writes db db''
  | insertConversation (type : ConversationType) (db : Db) :
      Writes db (db.insertConversation type).1
  | insertGroupNamed (name : String) (db : Db) : Writes db (db.insertGroupNamed name)
  | touchConversation (conversationId : Int) (db : Db) :
      Writes db (db.touchConversation conversationId)
  | insertMember (conversationId userId : Int) (role : MemberRole) (db : Db) :
      Writes db (db.insertMember conversationId userId role).1
  | updateMemberRole (conversationId userId : Int) (role : MemberRole) (db : Db) :
      Writes db (db.updateMemberRole conversationId userId role).1
  | setConversationPrefs (conversationId userId : Int) (pinned muted : Bool) (db : Db) :
      Writes db (db.setConversationPrefs conversationId userId pinned muted).1
  | updateMemberReadCursor (conversationId userId messageId : Int) (db : Db) :
      Writes db (db.updateMemberReadCursor conversationId userId messageId)
  | removeGroupMember (conversationId userId : Int) (db : Db) :
      Writes db (db.removeGroupMember conversationId userId).1
  | insertMessage (conversationId senderId : Int) (content contentType clientMessageId
      senderDeviceId : String) (db : Db) :
      Writes db (db.insertMessage conversationId senderId content contentType clientMessageId
        senderDeviceId).1
  | editMessage (messageId : Int) (content contentType : String) (db : Db) :
      Writes db (db.editMessage messageId content contentType).1
  | deleteMessage (messageId : Int) (db : Db) : Writes db (db.deleteMessage messageId).1
  | updateMessageStatus (messageId : Int) (status : MessageStatus) (db : Db) :
      Writes db (db.updateMessageStatus messageId status)
  | recordMessageReceipt (messageId userId : Int) (deviceId : String) (receipt : Receipt)
      (db : Db) :
      Writes db (db.recordMessageReceipt messageId userId deviceId receipt)
  | appendSyncEvent (userId : Int) (eventType : String) (payload : Json) (db : Db) :
      Writes db (db.appendSyncEvent userId eventType payload)
  | insertContact (userId contactUserId : Int) (db : Db) :
      Writes db (db.insertContact userId contactUserId).1
  | setIdentityKey (userId : Int) (deviceId identityPub : String) (db : Db) :
      Writes db (db.setIdentityKey userId deviceId identityPub).1
  | purgePrekeys (userId : Int) (deviceId : String) (db : Db) :
      Writes db (db.purgePrekeys userId deviceId)
  | insertPrekey (userId : Int) (deviceId pub : String) (db : Db) :
      Writes db (db.insertPrekey userId deviceId pub)
  | prunes {db db' : Db} : db.Prunes syncEventRetentionDays db' → Writes db db'
  | reclaimPrekeys (db : Db) : Writes db db.reclaimPrekeys
  | claimPrekey (userId : Int) (deviceId : String) (db : Db) :
      Writes db (db.claimPrekey userId deviceId).1
  | consumePrekeys (prekeyIds : List Int) (db : Db) : Writes db (db.consumePrekeys prekeyIds).1

namespace Db.Writes

variable {db db' : Db}

theorem insertPrekeys (userId : Int) (deviceId : String) (pubs : List String) (db : Db) :
    db.Writes (db.insertPrekeys userId deviceId pubs).1 := by
  induction pubs generalizing db with
  | nil => exact .refl db
  | cons pub pubs ih =>
      unfold Db.insertPrekeys
      split
      · exact ih db
      · exact (Writes.insertPrekey userId deviceId pub db).trans (ih _)

theorem uploadPrekeys (userId : Int) (deviceId : String) (pubs : List String) (db : Db) :
    db.Writes (db.uploadPrekeys userId deviceId pubs).1 := by
  unfold Db.uploadPrekeys
  split
  · exact .refl db
  · split
    · exact .refl db
    · exact insertPrekeys userId deviceId pubs db

theorem claimDevices (userId : Int) (devices : List String) (db : Db) :
    db.Writes (db.claimDevices userId devices).1 := by
  induction devices generalizing db with
  | nil => exact .refl db
  | cons deviceId rest ih => exact (claimPrekey userId deviceId db).trans (ih _)

theorem claimPrekeys (userId : Int) (db : Db) : db.Writes (db.claimPrekeys userId).1 :=
  (reclaimPrekeys db).trans
    (claimDevices userId (db.reclaimPrekeys.devicesWithPrekeys userId) db.reclaimPrekeys)

theorem insertInitialMembers {conversationId : Int} {memberIds added : List Int}
    (h : Db.insertInitialMembers conversationId memberIds added db = some db') :
    db.Writes db' := by
  induction memberIds generalizing added db with
  | nil =>
      rw [← Option.some.inj h]
      exact .refl db
  | cons memberId rest ih =>
      unfold Db.insertInitialMembers at h
      split at h
      · rw [← Option.some.inj h]
        exact .refl db
      split at h
      · exact ih h
      · have hwrites := insertMember conversationId memberId .member db
        generalize Db.insertMember conversationId memberId .member db = inserted at h hwrites
        obtain ⟨db₁, ok⟩ := inserted
        cases ok with
        | false => cases h
        | true => exact hwrites.trans (ih h)

theorem createGroup (ownerId : Int) (name : String) (memberIds : List Int) (db : Db) :
    db.Writes (db.createGroup ownerId name memberIds).1 := by
  unfold Db.createGroup
  split
  · exact .refl db
  · dsimp only
    generalize hown : Db.insertMember (db.conversations.lastId + 1) ownerId .owner _ = owned
    have howned : (db.insertGroupNamed name).Writes owned.1 := by
      rw [← hown]
      exact insertMember (db.conversations.lastId + 1) ownerId .owner (db.insertGroupNamed name)
    obtain ⟨db₁, ok⟩ := owned
    cases ok with
    | false => exact .refl db
    | true =>
        dsimp only
        split
        · exact .refl db
        · rename_i db' hmore
          exact ((insertGroupNamed name db).trans howned).trans (insertInitialMembers hmore)

/-- No statement on these tables sets the clock or touches a user. -/
theorem kept (h : db.Writes db') : db'.now = db.now ∧ db'.users = db.users := by
  induction h with
  | refl db => exact ⟨rfl, rfl⟩
  | trans _ _ ih ih' => exact ⟨ih'.1.trans ih.1, ih'.2.trans ih.2⟩
  | insertMember conversationId userId role db =>
      unfold Db.insertMember
      split <;> exact ⟨rfl, rfl⟩
  | setConversationPrefs conversationId userId pinned muted db =>
      unfold Db.setConversationPrefs
      split <;> exact ⟨rfl, rfl⟩
  | insertMessage conversationId senderId content contentType clientMessageId senderDeviceId db =>
      unfold Db.insertMessage
      split <;> exact ⟨rfl, rfl⟩
  | editMessage messageId content contentType db =>
      unfold Db.editMessage
      split <;> exact ⟨rfl, rfl⟩
  | deleteMessage messageId db =>
      unfold Db.deleteMessage
      split <;> exact ⟨rfl, rfl⟩
  | recordMessageReceipt messageId userId deviceId receipt db =>
      unfold Db.recordMessageReceipt
      dsimp only
      split
      · exact ⟨rfl, rfl⟩
      · split <;> exact ⟨rfl, rfl⟩
  | appendSyncEvent userId eventType payload db =>
      unfold Db.appendSyncEvent
      split <;> exact ⟨rfl, rfl⟩
  | insertContact userId contactUserId db =>
      unfold Db.insertContact
      split
      · exact ⟨rfl, rfl⟩
      · split <;> exact ⟨rfl, rfl⟩
  | setIdentityKey userId deviceId identityPub db =>
      unfold Db.setIdentityKey
      split
      · exact ⟨rfl, rfl⟩
      · split <;> exact ⟨rfl, rfl⟩
  | claimPrekey userId deviceId db =>
      unfold Db.claimPrekey
      split <;> exact ⟨rfl, rfl⟩
  | prunes h => exact ⟨h.now, h.users⟩
  | _ => exact ⟨rfl, rfl⟩

end Db.Writes

/-! ## Functions -/

theorem appendSyncEvents_writes (eventType : String) (payload : Json) (userIds : List Int) :
    (appendSyncEvents eventType payload userIds).Within Db.Writes := by
  induction userIds with
  | nil => exact within_pure _
  | cons userId rest ih =>
      exact (within_update fun db => .appendSyncEvent _ _ _ db).bind fun _ => ih

theorem sendMessage_writes (conversationId senderId : Int) (content contentType clientMessageId
    senderDeviceId : String) :
    (sendMessage conversationId senderId content contentType clientMessageId
      senderDeviceId).Within Db.Writes := by
  refine (within_query .refl).bind fun existing => ?_
  cases existing with
  | some m => exact within_pure _
  | none =>
      refine (within_call fun db => .insertMessage _ _ _ _ _ _ db).bind fun stored => ?_
      cases stored with
      | none => exact (within_query .refl).bind fun _ => within_pure _
      | some msgId => exact (within_update (.touchConversation _)).bind fun _ => within_pure _

theorem checkEntries_writes (conn : Connection) (targetUserId : Int) (entries : List EnvelopeEntry)
    (prekeyIds : List Int) (seenPeerDevices : List String) (seenSelfCopy : Bool) :
    (checkEntries conn targetUserId entries prekeyIds seenPeerDevices seenSelfCopy).Within
      Db.Writes := by
  induction entries generalizing prekeyIds seenPeerDevices seenSelfCopy with
  | nil => exact within_pure _
  | cons entry rest ih =>
      refine within_ite (fun _ => within_ite (fun _ => within_pure _) fun _ => ih _ _ _) fun _ => ?_
      refine within_ite (fun _ => within_pure _) fun _ => (within_query .refl).bind fun _ => ?_
      exact within_ite (fun _ => ih _ _ _) fun _ => within_pure _

theorem storePrivateMessage_writes (convId senderId : Int) (content contentType clientMessageId
    senderDeviceId : String) (prekeyIds : List Int) :
    (storePrivateMessage convId senderId content contentType clientMessageId senderDeviceId
      prekeyIds).Within Db.Writes := by
  refine Within.atomically ((sendMessage_writes _ _ _ _ _ _).bind fun stored => ?_) .refl .trans
  cases stored with
  | none => exact within_pure _
  | some msgId => exact (within_call (.consumePrekeys _)).bind fun _ => within_pure _

theorem fanOutPrivateMessage_writes (qt : Qt) (requestId : Nat) (conn : Connection)
    (targetUserId convId : Int) (content contentType clientMessageId : String) (msgId : Int) :
    (fanOutPrivateMessage qt requestId conn targetUserId convId content contentType
      clientMessageId msgId).Within Db.Writes :=
  (within_query .refl).bind fun _ => (appendSyncEvents_writes _ _ _).bind fun _ => within_pure _

theorem storeGroupMessage_writes (conversationId senderId : Int) (content contentType
    clientMessageId senderDeviceId : String) (distPrekeyIds : List Int) :
    (storeGroupMessage conversationId senderId content contentType clientMessageId senderDeviceId
      distPrekeyIds).Within Db.Writes := by
  refine (sendMessage_writes _ _ _ _ _ _).bind fun stored => ?_
  cases stored with
  | none => exact within_pure _
  | some msgId =>
      refine within_ite (fun _ => within_pure _) fun _ => ?_
      exact (within_call (.consumePrekeys _)).bind fun _ => within_pure _

theorem fanOutGroupMessage_writes (qt : Qt) (requestId : Nat) (conn : Connection)
    (conversationId : Int) (content contentType clientMessageId : String) (msgId : Int) :
    (fanOutGroupMessage qt requestId conn conversationId content contentType clientMessageId
      msgId).Within Db.Writes :=
  (within_query .refl).bind fun _ => (within_query .refl).bind fun _ =>
    (within_query .refl).bind fun _ => (appendSyncEvents_writes _ _ _).bind fun _ => within_pure _

theorem postGroupSystemMessage_writes (qt : Qt) (conversationId operatorId : Int)
    (payload : Json) :
    (postGroupSystemMessage qt conversationId operatorId payload).Within Db.Writes := by
  refine (sendMessage_writes _ _ _ _ _ _).bind fun stored => ?_
  cases stored with
  | none => exact within_pure _
  | some msgId =>
      refine (within_query .refl).bind fun _ => (within_query .refl).bind fun _ =>
        (within_query .refl).bind fun _ => ?_
      exact (appendSyncEvents_writes _ _ _).bind fun _ => within_pure _

theorem notifyGroupChanged_writes (conversationId : Int) (changeType : String)
    (operatorId targetUserId : Int) :
    (notifyGroupChanged conversationId changeType operatorId targetUserId).Within Db.Writes := by
  refine (within_query .refl).bind fun _ => (within_query .refl).bind fun _ => ?_
  exact (appendSyncEvents_writes _ _ _).bind fun _ => within_pure _

theorem announce_writes (qt : Qt) (conversationId operatorId : Int) (event : String)
    (details : List (String × Json)) (targetUserId : Int) :
    (announce qt conversationId operatorId event details targetUserId).Within Db.Writes :=
  (postGroupSystemMessage_writes _ _ _ _).bind fun _ =>
    (notifyGroupChanged_writes _ _ _ _).bind fun _ => within_pure _

theorem findUnknownUser_writes (ids : List Int) : (findUnknownUser ids).Within Db.Writes := by
  induction ids with
  | nil => exact within_pure _
  | cons id rest ih =>
      refine (within_query .refl).bind fun _ => ?_
      exact within_ite (fun _ => within_pure _) fun _ => ih

theorem checkInvitees_writes (me conversationId : Int) (currentCount : Nat) (users : List Json)
    (seen toAdd : List Int) :
    (checkInvitees me conversationId currentCount users seen toAdd).Within Db.Writes := by
  induction users generalizing seen toAdd with
  | nil => exact within_pure _
  | cons v rest ih =>
      refine within_ite (fun _ => ih _ _) fun _ => ?_
      refine (within_query .refl).bind fun _ => within_ite (fun _ => within_pure _) fun _ => ?_
      refine (within_query .refl).bind fun _ => within_ite (fun _ => within_pure _) fun _ => ?_
      exact within_ite (fun _ => within_pure _) fun _ => ih _ _

theorem upsertIdentityKey_writes (userId : Int) (deviceId identityPub : String) :
    (upsertIdentityKey userId deviceId identityPub).Within Db.Writes := by
  refine within_ite (fun _ => within_pure _) fun _ => (within_query .refl).bind fun oldPub => ?_
  cases oldPub with
  | none => exact within_call (.setIdentityKey _ _ _)
  | some oldPub =>
      refine within_ite (fun _ => ?_) fun _ => within_call (.setIdentityKey _ _ _)
      exact (within_update (.purgePrekeys _ _)).bind fun _ =>
        within_call (.setIdentityKey _ _ _)

theorem collectBundles_writes (userIds : List Int) : (collectBundles userIds).Within Db.Writes := by
  induction userIds with
  | nil => exact within_pure _
  | cons userId rest ih =>
      refine (within_call (.claimPrekeys _)).bind fun _ => within_ite (fun _ => ih) fun _ => ?_
      exact (within_query .refl).bind fun _ => ih.bind fun _ => within_pure _

theorem countUnread_writes (userId : Int) (cs : List ConversationInfo) :
    (countUnread userId cs).Within Db.Writes := by
  induction cs with
  | nil => exact within_pure _
  | cons c rest ih => exact (within_query .refl).bind fun _ => ih.bind fun _ => within_pure _

theorem fillPeers_writes (userId : Int) (cs : List ConversationInfo) :
    (fillPeers userId cs).Within Db.Writes := by
  induction cs with
  | nil => exact within_pure _
  | cons c rest ih =>
      unfold fillPeers
      dsimp only
      cases c.type with
      | privateType => exact (within_query .refl).bind fun _ => ih.bind fun _ => within_pure _
      | groupType => exact (within_query .refl).bind fun _ => ih.bind fun _ => within_pure _

theorem addGroupMembers_writes (conversationId : Int) (ids seen : List Int) :
    (addGroupMembers conversationId ids seen).Within Db.Writes := by
  induction ids generalizing seen with
  | nil => exact within_pure _
  | cons userId rest ih =>
      refine within_ite (fun _ => ih _) fun _ => (within_query .refl).bind fun _ => ?_
      refine within_ite (fun _ => ih _) fun _ => (within_query .refl).bind fun _ => ?_
      refine within_ite (fun _ => within_pure _) fun _ => ?_
      refine (within_call (.insertMember _ _ _)).bind fun _ => ?_
      exact within_ite (fun _ => ih _) fun _ => within_pure _

theorem getOrCreatePrivateConversation_writes (userId1 userId2 : Int) :
    (getOrCreatePrivateConversation userId1 userId2).Within Db.Writes := by
  refine within_ite (fun _ => within_pure _) fun _ => (within_query .refl).bind fun found => ?_
  cases found with
  | some convId => exact within_pure _
  | none =>
      refine (within_call (.insertConversation _)).bind fun _ => ?_
      exact (within_call (.insertMember _ _ _)).bind fun _ =>
        (within_call (.insertMember _ _ _)).bind fun _ =>
          within_pure _

/-! ## Handlers -/

section

variable {qt : Qt} {requestId : Nat} {conn : Connection} {request : Json}

theorem processSendGroupMessage_writes (conversationId : Int) (clientMessageId : String) :
    (processSendGroupMessage qt requestId conn request conversationId clientMessageId).Within
      Db.Writes := by
  unfold processSendGroupMessage
  dsimp only
  refine (within_query .refl).bind fun found => ?_
  cases found with
  | none => exact within_pure _
  | some conv =>
      refine within_ite (fun _ => within_pure _) fun _ => (within_query .refl).bind fun _ => ?_
      refine within_ite (fun _ => within_pure _) fun _ => ?_
      refine within_ite (fun _ => within_pure _) fun _ => ?_
      refine within_ite (fun _ => within_pure _) fun _ => ?_
      refine within_ite (fun _ => within_pure _) fun _ => ?_
      cases checkGroupContent qt conversationId ((request.value "content").toStr "")
          ((request.value "contentType").toStr "text") with
      | error message => exact within_pure _
      | ok distPrekeyIds =>
          refine (within_query .refl).bind fun existing => ?_
          cases existing with
          | some m => exact within_pure _
          | none =>
              refine (storeGroupMessage_writes _ _ _ _ _ _ _).bind fun stored => ?_
              cases stored with
              | none => exact within_pure _
              | some msgId => exact fanOutGroupMessage_writes _ _ _ _ _ _ _ _

theorem processEditMessageRequest_writes :
    (processEditMessageRequest qt requestId conn request).Within Db.Writes := by
  unfold processEditMessageRequest
  dsimp only
  refine within_ite (fun _ => within_pure _) fun _ => ?_
  refine within_ite (fun _ => within_pure _) fun _ => ?_
  refine (within_query .refl).bind fun found => ?_
  cases found with
  | none => exact within_pure _
  | some msg =>
      refine within_ite (fun _ => within_pure _) fun _ => ?_
      refine within_ite (fun _ => within_pure _) fun _ => ?_
      refine within_ite (fun _ => within_pure _) fun _ => ?_
      refine within_ite (fun _ => within_pure _) fun _ => ?_
      refine within_ite (fun _ => within_pure _) fun _ => ?_
      cases checkEditContent qt conn ((request.value "content").toStr "")
          ((request.value "contentType").toStr "") with
      | error message => exact within_pure _
      | ok _ =>
          refine (within_call (.editMessage _ _ _)).bind fun _ => ?_
          refine within_ite (fun _ => within_pure _) fun _ => ?_
          refine (within_query .refl).bind fun _ => (within_query .refl).bind fun _ => ?_
          exact (appendSyncEvents_writes _ _ _).bind fun _ => within_pure _

theorem processDeleteMessageRequest_writes :
    (processDeleteMessageRequest qt requestId conn request).Within Db.Writes := by
  unfold processDeleteMessageRequest
  dsimp only
  refine within_ite (fun _ => within_pure _) fun _ => (within_query .refl).bind fun found => ?_
  cases found with
  | none => exact within_pure _
  | some msg =>
      refine within_ite (fun _ => within_pure _) fun _ => ?_
      refine within_ite (fun _ => within_pure _) fun _ => ?_
      refine (within_call (.deleteMessage _)).bind fun _ => ?_
      refine within_ite (fun _ => within_pure _) fun _ => ?_
      refine (within_query .refl).bind fun _ => (within_query .refl).bind fun _ => ?_
      exact (appendSyncEvents_writes _ _ _).bind fun _ => within_pure _

theorem processRegisterKeysRequest_writes :
    (processRegisterKeysRequest qt requestId conn request).Within Db.Writes := by
  unfold processRegisterKeysRequest
  dsimp only
  refine within_ite (fun _ => within_pure _) fun _ =>
    (upsertIdentityKey_writes _ _ _).bind fun _ => ?_
  refine within_ite (fun _ => within_pure _) fun _ => ?_
  refine within_ite (fun _ => (within_query .refl).bind fun _ => within_pure _) fun _ => ?_
  refine within_ite (fun _ => within_pure _) fun _ => (within_query .refl).bind fun _ => ?_
  refine within_ite (fun _ => within_pure _) fun _ => ?_
  refine within_ite (fun _ => within_pure _) fun _ => ?_
  refine (within_call (.uploadPrekeys _ _ _)).bind fun uploaded => ?_
  cases uploaded with
  | none => exact within_pure _
  | some n => exact (within_query .refl).bind fun _ => within_pure _

theorem processFetchKeysRequest_writes :
    (processFetchKeysRequest requestId conn request).Within Db.Writes := by
  unfold processFetchKeysRequest
  dsimp only
  refine within_ite (fun _ => within_pure _) fun _ => (within_query .refl).bind fun _ => ?_
  refine within_ite (fun _ => within_pure _) fun _ => (within_query .refl).bind fun _ => ?_
  refine within_ite (fun _ => within_pure _) fun _ =>
    (within_call (.claimPrekeys _)).bind fun _ => ?_
  refine within_ite (fun _ => within_pure _) fun _ => (within_query .refl).bind fun _ => ?_
  exact within_ite (fun _ => within_pure _) fun _ => within_pure _

theorem processFetchGroupKeysRequest_writes :
    (processFetchGroupKeysRequest requestId conn request).Within Db.Writes := by
  unfold processFetchGroupKeysRequest
  dsimp only
  refine within_ite (fun _ => within_pure _) fun _ => (within_query .refl).bind fun found => ?_
  cases found with
  | none => exact within_pure _
  | some conv =>
      refine within_ite (fun _ => within_pure _) fun _ => (within_query .refl).bind fun _ => ?_
      refine within_ite (fun _ => within_pure _) fun _ => (within_query .refl).bind fun _ => ?_
      refine within_ite (fun _ => within_pure _) fun _ => (within_query .refl).bind fun _ => ?_
      exact (collectBundles_writes _).bind fun _ => within_pure _

theorem processSearchUsersRequest_writes :
    (processSearchUsersRequest requestId conn request).Within Db.Writes := by
  unfold processSearchUsersRequest
  dsimp only
  refine within_ite (fun _ => within_pure _) fun _ => (within_query .refl).bind fun _ => ?_
  exact within_ite (fun _ => within_pure _) fun _ => (within_query .refl).bind fun _ =>
    within_pure _

theorem processAddContactRequest_writes :
    (processAddContactRequest requestId conn request).Within Db.Writes := by
  unfold processAddContactRequest
  dsimp only
  refine within_ite (fun _ => within_pure _) fun _ => (within_query .refl).bind fun _ => ?_
  refine within_ite (fun _ => within_pure _) fun _ => Within.bind ?_ fun _ => ?_
  · refine within_ite (fun _ => within_pure _) fun _ => ?_
    refine (within_call (.insertContact _ _)).bind fun _ => ?_
    exact within_ite (fun _ => within_pure _) fun _ => within_call (.insertContact _ _)
  · refine within_ite (fun _ => within_pure _) fun _ => ?_
    exact (within_update (.appendSyncEvent _ _ _)).bind fun _ =>
      (within_update (.appendSyncEvent _ _ _)).bind fun _ => within_pure _

theorem processGetContactsRequest_writes :
    (processGetContactsRequest qt requestId conn).Within Db.Writes :=
  (within_query .refl).bind fun _ => within_pure _

theorem processGetConversationsRequest_writes :
    (processGetConversationsRequest qt requestId conn).Within Db.Writes := by
  refine Within.bind ?_ fun _ => within_pure _
  exact (within_query .refl).bind fun _ => (countUnread_writes _ _).bind fun _ =>
    fillPeers_writes _ _

theorem processSyncEventsRequest_writes :
    (processSyncEventsRequest qt requestId conn request).Within Db.Writes := by
  unfold processSyncEventsRequest
  dsimp only
  refine within_ite (fun _ => within_pure _) fun _ => (within_query .refl).bind fun _ => ?_
  refine within_ite (fun _ => (within_query .refl).bind fun _ => within_pure _) fun _ => ?_
  exact (within_query .refl).bind fun _ => within_pure _

theorem processGetGroupInfoRequest_writes :
    (processGetGroupInfoRequest qt requestId conn request).Within Db.Writes := by
  unfold processGetGroupInfoRequest
  dsimp only
  refine within_ite (fun _ => within_pure _) fun _ => (within_query .refl).bind fun db => ?_
  cases Option.filter (fun c : ConversationRow => decide (c.type = .groupType)) db with
  | none => exact within_pure _
  | some conv =>
      refine (within_query .refl).bind fun role => ?_
      cases role with
      | none => exact within_pure _
      | some myRole => exact (within_query .refl).bind fun _ => within_pure _

theorem syncReadCursor_writes (msg : MessageRow) (receipt : Receipt) :
    (syncReadCursor conn msg receipt).Within Db.Writes := by
  cases receipt with
  | delivered => exact within_pure _
  | read =>
      refine (within_update (.updateMemberReadCursor _ _ _)).bind fun _ => ?_
      exact (within_update (.appendSyncEvent _ _ _)).bind fun _ => within_pure _

theorem aggregateReceipts_writes (msg : MessageRow) :
    (aggregateReceipts conn msg).Within Db.Writes := by
  unfold aggregateReceipts
  refine (within_query .refl).bind fun expected => (within_query .refl).bind fun reads =>
    (within_query .refl).bind fun delivereds => ?_
  cases aggregatedStatus expected reads delivereds with
  | none => exact within_pure _
  | some status =>
      refine within_ite (fun _ => within_pure _) fun _ => ?_
      unfold syncStatus
      refine (within_update (.updateMessageStatus _ _)).bind fun _ => ?_
      exact (within_update (.appendSyncEvent _ _ _)).bind fun _ => within_pure _

theorem processAckMessageRequest_writes :
    (processAckMessageRequest requestId conn request).Within Db.Writes := by
  unfold processAckMessageRequest
  dsimp only
  refine within_ite (fun _ => within_pure _) fun _ => ?_
  cases Receipt.ofText ((request.value "status").toStr "delivered") with
  | none => exact within_pure _
  | some receipt =>
      refine (within_query .refl).bind fun found => ?_
      cases found with
      | none => exact within_pure _
      | some msg =>
          refine (within_query .refl).bind fun _ => within_ite (fun _ => within_pure _) fun _ => ?_
          refine (within_update (.recordMessageReceipt _ _ _ _)).bind fun _ => ?_
          exact (syncReadCursor_writes _ _).bind fun _ =>
            (aggregateReceipts_writes _).bind fun _ => within_pure _

theorem processSendMessageRequest_writes :
    (processSendMessageRequest qt requestId conn request).Within Db.Writes := by
  unfold processSendMessageRequest
  dsimp only
  refine within_ite (fun _ => within_pure _) fun _ => (within_query .refl).bind fun _ => ?_
  refine within_ite (fun _ => within_pure _) fun _ => ?_
  refine within_ite (fun _ => processSendGroupMessage_writes _ _) fun _ => ?_
  unfold processSendPrivateMessage
  dsimp only
  refine within_ite (fun _ => within_pure _) fun _ => ?_
  refine within_ite (fun _ => within_pure _) fun _ => ?_
  refine (within_query .refl).bind fun existing => ?_
  cases existing with
  | some m => exact within_pure _
  | none =>
      cases E2eeCrypto.decodeEnvelope qt ((request.value "content").toStr "") with
      | none => exact within_pure _
      | some entries =>
          refine (checkEntries_writes _ _ _ _ _ _).bind fun checked => ?_
          rcases checked with message | _ | ⟨prekeyId, prekeyIds⟩
          · exact within_pure _
          · exact within_pure _
          · refine (getOrCreatePrivateConversation_writes _ _).bind fun convId => ?_
            cases convId with
            | none => exact within_pure _
            | some convId =>
                refine (storePrivateMessage_writes _ _ _ _ _ _ _).bind fun stored => ?_
                cases stored with
                | none => exact within_pure _
                | some msgId => exact fanOutPrivateMessage_writes _ _ _ _ _ _ _ _ _

theorem processSyncMessagesRequest_writes :
    (processSyncMessagesRequest qt requestId conn request).Within Db.Writes := by
  unfold processSyncMessagesRequest
  dsimp only
  refine within_ite (fun _ => within_pure _) fun _ => (within_query .refl).bind fun _ => ?_
  refine within_ite (fun _ => within_pure _) fun _ => (within_query .refl).bind fun messages => ?_
  cases messages.getLast? with
  | none => exact within_pure _
  | some last => exact (within_update (.updateMemberReadCursor _ _ _)).bind fun _ => within_pure _

theorem processSetConversationPrefsRequest_writes :
    (processSetConversationPrefsRequest requestId conn request).Within Db.Writes := by
  unfold processSetConversationPrefsRequest
  dsimp only
  refine within_ite (fun _ => within_pure _) fun _ => ?_
  refine within_ite (fun _ => within_pure _) fun _ => ?_
  refine (within_query .refl).bind fun _ => within_ite (fun _ => within_pure _) fun _ => ?_
  refine (within_call (.setConversationPrefs _ _ _ _)).bind fun _ => ?_
  refine within_ite (fun _ => within_pure _) fun _ => ?_
  exact (within_update fun db => .appendSyncEvent _ _ _ db).bind fun _ =>
    within_pure _

theorem processCreateGroupRequest_writes :
    (processCreateGroupRequest qt requestId conn request).Within Db.Writes := by
  unfold processCreateGroupRequest
  dsimp only
  refine within_ite (fun _ => within_pure _) fun _ => ?_
  refine within_ite (fun _ => within_pure _) fun _ => ?_
  refine within_ite (fun _ => within_pure _) fun _ => ?_
  refine (findUnknownUser_writes _).bind fun unknown => ?_
  cases unknown with
  | some id => exact within_pure _
  | none =>
      refine (within_call (.createGroup _ _ _)).bind fun created => ?_
      cases created with
      | none => exact within_pure _
      | some convId =>
          refine (announce_writes _ _ _ _ _ _).bind fun _ => ?_
          exact (within_query .refl).bind fun _ => within_pure _

theorem processInviteGroupMembersRequest_writes :
    (processInviteGroupMembersRequest qt requestId conn request).Within Db.Writes := by
  unfold processInviteGroupMembersRequest
  dsimp only
  refine within_ite (fun _ => within_pure _) fun _ => (within_query .refl).bind fun _ => ?_
  refine within_ite (fun _ => within_pure _) fun _ => (within_query .refl).bind fun _ => ?_
  refine within_ite (fun _ => within_pure _) fun _ => ?_
  refine within_ite (fun _ => within_pure _) fun _ => ?_
  refine within_ite (fun _ => within_pure _) fun _ => (within_query .refl).bind fun _ => ?_
  refine (checkInvitees_writes _ _ _ _ _ _).bind fun checked => ?_
  rcases checked with ⟨code, message⟩ | _ | ⟨first, rest⟩
  · exact within_pure _
  · exact within_pure _
  · refine (addGroupMembers_writes _ _ _).bind fun _ => ?_
    refine within_ite (fun _ => within_pure _) fun _ => ?_
    refine (announce_writes _ _ _ _ _ _).bind fun _ => ?_
    exact (within_query .refl).bind fun _ => within_pure _

theorem handOver_writes (conversationId me : Int) (role : MemberRole) :
    (handOver qt conversationId me role).Within Db.Writes := by
  unfold handOver
  refine within_ite (fun _ => within_pure _) fun _ => (within_query .refl).bind fun members => ?_
  cases successor me members with
  | none => exact within_pure _
  | some newOwner =>
      refine (within_call (.updateMemberRole _ _ _)).bind fun _ => ?_
      exact (postGroupSystemMessage_writes _ _ _ _).bind fun _ =>
        (notifyGroupChanged_writes _ _ _ _).bind fun _ => within_pure _

theorem processLeaveGroupRequest_writes :
    (processLeaveGroupRequest qt requestId conn request).Within Db.Writes := by
  unfold processLeaveGroupRequest
  dsimp only
  refine within_ite (fun _ => within_pure _) fun _ => (within_query .refl).bind fun _ => ?_
  refine within_ite (fun _ => within_pure _) fun _ => (within_query .refl).bind fun role => ?_
  cases role with
  | none => exact within_pure _
  | some role =>
      refine (handOver_writes _ _ _).bind fun _ => ?_
      refine (within_call (.removeGroupMember _ _)).bind fun _ => ?_
      refine within_ite (fun _ => within_pure _) fun _ => ?_
      exact (announce_writes _ _ _ _ _ _).bind fun _ => within_pure _

theorem processKickGroupMemberRequest_writes :
    (processKickGroupMemberRequest qt requestId conn request).Within Db.Writes := by
  unfold processKickGroupMemberRequest
  dsimp only
  refine within_ite (fun _ => within_pure _) fun _ => (within_query .refl).bind fun _ => ?_
  refine within_ite (fun _ => within_pure _) fun _ => ?_
  refine within_ite (fun _ => within_pure _) fun _ => ?_
  refine (within_query .refl).bind fun _ => (within_query .refl).bind fun targetRole => ?_
  cases targetRole with
  | none => exact within_pure _
  | some targetRole =>
      refine within_ite (fun _ => within_pure _) fun _ => ?_
      refine (within_call (.removeGroupMember _ _)).bind fun _ => ?_
      refine within_ite (fun _ => within_pure _) fun _ => ?_
      exact (announce_writes _ _ _ _ _ _).bind fun _ => within_pure _

end

/-- What a handler over the tables of `Db` writes. -/
theorem program_writes {qt : Qt} {requestId : Nat} {conn : Connection} {request : Json}
    {handler : Handler} {p : Prog Db Outcome}
    (hp : handler.program qt requestId conn request = some p) : p.Within Db.Writes := by
  cases handler <;>
    simp only [Handler.program, otherHandlers, reduceCtorEq, Option.some.injEq] at hp <;>
    subst hp
  case sendMessage => exact processSendMessageRequest_writes
  case editMessage => exact processEditMessageRequest_writes
  case deleteMessage => exact processDeleteMessageRequest_writes
  case ackMessage => exact processAckMessageRequest_writes
  case registerKeys => exact processRegisterKeysRequest_writes
  case fetchKeys => exact processFetchKeysRequest_writes
  case fetchGroupKeys => exact processFetchGroupKeysRequest_writes
  case searchUsers => exact processSearchUsersRequest_writes
  case addContact => exact processAddContactRequest_writes
  case getContacts => exact processGetContactsRequest_writes
  case getConversations => exact processGetConversationsRequest_writes
  case syncMessages => exact processSyncMessagesRequest_writes
  case syncEvents => exact processSyncEventsRequest_writes
  case getGroupInfo => exact processGetGroupInfoRequest_writes
  case setConversationPrefs => exact processSetConversationPrefsRequest_writes
  case createGroup => exact processCreateGroupRequest_writes
  case inviteGroupMembers => exact processInviteGroupMembersRequest_writes
  case leaveGroup => exact processLeaveGroupRequest_writes
  case kickGroupMember => exact processKickGroupMemberRequest_writes

/-! ## The session tables -/

/-- What a request can make an account of: a name without space around it, 3 to 32
long, and the hash of a password of at least 6. -/
structure AccountOf (hashes : Hashes) (username passwordHash : String) : Prop where
  trimmed : ∃ text, username = trimmed text
  length : 3 ≤ qsize username ∧ qsize username ≤ 32
  hashed : ∃ salt password, 6 ≤ qsize password ∧
    passwordHash = hashes.hashPasswordWithSalt salt password

/-- What the statements of the handlers make of the whole database. -/
inductive ServerDb.Writes (hashes : Hashes) : ServerDb → ServerDb → Prop
  | refl (s : ServerDb) : Writes hashes s s
  | trans {s s' s'' : ServerDb} :
      Writes hashes s s' → Writes hashes s' s'' → Writes hashes s s''
  | tables {db : Db} (s : ServerDb) : s.toDb.Writes db → Writes hashes s { s with toDb := db }
  | registerUser {username passwordHash : String} (s : ServerDb) :
      AccountOf hashes username passwordHash →
      Writes hashes s (s.registerUser username passwordHash).1
  | registerDevice (userId : Int) (deviceId deviceName platform : String) (s : ServerDb) :
      Writes hashes s (s.registerDevice userId deviceId deviceName platform)
  | createSession (userId : Int) (deviceId tokenHash loginIp : String) (s : ServerDb) :
      Writes hashes s (s.createSession userId deviceId tokenHash loginIp).1
  | updateSessionLastActive (sessionId : Int) (s : ServerDb) :
      Writes hashes s (s.updateSessionLastActive sessionId)
  | deleteSession (sessionId : Int) (s : ServerDb) : Writes hashes s (s.deleteSession sessionId)
  | recordLoginAttempt (userId : Int) (ipAddress : String) (success : Bool)
      (failureReason : String) (s : ServerDb) :
      Writes hashes s (s.recordLoginAttempt userId ipAddress success failureReason)

theorem ServerDb.Writes.now {hashes : Hashes} {s s' : ServerDb} (h : s.Writes hashes s') :
    s'.now = s.now := by
  induction h with
  | refl s => rfl
  | trans _ _ ih ih' => exact ih'.trans ih
  | tables s h => exact h.kept.1
  | registerUser s h =>
      unfold ServerDb.registerUser Db.registerUser
      split <;> rfl
  | registerDevice userId deviceId deviceName platform s =>
      obtain ⟨devices, hdb⟩ := s.toDb.registerDevice_eq userId deviceId deviceName platform
      unfold ServerDb.registerDevice
      rw [hdb]
  | createSession userId deviceId tokenHash loginIp s =>
      unfold ServerDb.createSession
      split <;> rfl
  | _ => rfl

section

variable {qt : Qt} {hashes : Hashes} {random : Random} {requestId : Nat} {conn : Connection}
  {request : Json}

theorem checkRateLimit_writes (ipAddress : String) (userId : Int) :
    (checkRateLimit ipAddress userId).Within (ServerDb.Writes hashes) := by
  refine (within_query .refl).bind fun _ => within_ite (fun _ => within_pure _) fun _ => ?_
  exact within_ite (fun _ => (within_query .refl).bind fun _ => within_pure _) fun _ =>
    within_pure _

theorem processLoginRequest_writes (token : String) :
    (processLoginRequest qt hashes token requestId conn request).Within
      (ServerDb.Writes hashes) := by
  unfold processLoginRequest
  dsimp only
  refine within_ite (fun _ => within_pure _) fun _ => (within_query .refl).bind fun found => ?_
  cases found with
  | none => exact (within_update (.recordLoginAttempt _ _ _ _)).bind fun _ => within_pure _
  | some user =>
      refine (checkRateLimit_writes _ _).bind fun _ => ?_
      refine within_ite (fun _ => within_pure _) fun _ => ?_
      refine within_ite (fun _ => ?_) fun _ => ?_
      · exact (within_update (.recordLoginAttempt _ _ _ _)).bind fun _ => within_pure _
      refine (within_update (.registerDevice _ _ _ _)).bind fun _ => ?_
      refine (within_call (.createSession _ _ _ _)).bind fun created => ?_
      cases created with
      | none => exact within_pure _
      | some sessionId =>
          refine (within_update (.recordLoginAttempt _ _ _ _)).bind fun _ => ?_
          exact (within_query .refl).bind fun _ => within_pure _

theorem processRegisterRequest_writes (salt : String) :
    (processRegisterRequest hashes salt requestId conn request).Within
      (ServerDb.Writes hashes) := by
  unfold processRegisterRequest
  dsimp only
  refine within_ite (fun _ => within_pure _) fun _ => ?_
  refine within_ite (fun _ => within_pure _) fun hname => ?_
  refine within_ite (fun _ => within_pure _) fun hpassword => (within_query .refl).bind fun _ => ?_
  refine within_ite (fun _ => within_pure _) fun _ => ?_
  have haccount : AccountOf hashes (trimmed ((request.value "username").toStr ""))
      (hashes.hashPasswordWithSalt salt ((request.value "password").toStr "")) :=
    ⟨⟨_, rfl⟩, by omega, salt, _, by omega, rfl⟩
  refine (within_call fun s => .registerUser s haccount).bind fun registered => ?_
  cases registered with
  | none => exact within_pure _
  | some userId => exact within_pure _

theorem processLogoutRequest_writes :
    (processLogoutRequest requestId conn).Within (ServerDb.Writes hashes) :=
  (within_update (.deleteSession _)).bind fun _ => within_pure _

theorem processTokenRenewRequest_writes (newToken : String) :
    (processTokenRenewRequest qt hashes newToken requestId conn request).Within
      (ServerDb.Writes hashes) := by
  unfold processTokenRenewRequest
  dsimp only
  refine within_ite (fun _ => within_pure _) fun _ => (within_query .refl).bind fun found => ?_
  cases found with
  | none => exact within_pure _
  | some session =>
      refine within_ite (fun _ => within_pure _) fun _ => ?_
      refine (within_update (.deleteSession _)).bind fun _ => ?_
      refine (within_call (.createSession _ _ _ _)).bind fun created => ?_
      cases created with
      | none => exact within_pure _
      | some sessionId => exact (within_query .refl).bind fun _ => within_pure _

theorem processTerminateSessionRequest_writes :
    (processTerminateSessionRequest requestId conn request).Within (ServerDb.Writes hashes) := by
  unfold processTerminateSessionRequest
  dsimp only
  refine within_ite (fun _ => within_pure _) fun _ => ?_
  refine within_ite (fun _ => within_pure _) fun _ => ?_
  refine within_ite (fun _ => within_pure _) fun _ => (within_query .refl).bind fun sessions => ?_
  cases sessions.find? _ with
  | none => exact within_pure _
  | some target => exact (within_update (.deleteSession _)).bind fun _ => within_pure _

/-- A handler over the tables of `Db` writes what its program writes. -/
theorem business_writes {p : Prog Db Outcome} (h : p.Within Db.Writes) :
    (business conn p).Within (ServerDb.Writes hashes) :=
  (h.zoom fun _ s hwrites => .tables s hwrites).bind fun _ => within_pure _

theorem handle_writes (handler : Handler) :
    (handle qt hashes (otherHandlers qt) random requestId conn request handler).Within
      (ServerDb.Writes hashes) := by
  cases hp : handler.program qt requestId conn request with
  | some p =>
      rw [handle_eq_business hp]
      exact business_writes (program_writes hp)
  | none =>
      cases handler with
      | register => exact processRegisterRequest_writes _
      | login => exact processLoginRequest_writes _
      | logout => exact processLogoutRequest_writes
      | tokenRenew => exact processTokenRenewRequest_writes _
      | terminateSession => exact processTerminateSessionRequest_writes
      | _ => cases hp

theorem processAdmitted_writes (admission : Admission) :
    (processAdmitted qt hashes (otherHandlers qt) random requestId conn admission).Within
      (ServerDb.Writes hashes) := by
  cases admission with
  | pong => exact within_pure _
  | reject code message => exact within_pure _
  | unknown type => exact (within_update (.updateSessionLastActive _)).bind fun _ => within_pure _
  | handle handler request =>
      refine within_ite (fun _ => ?_) fun _ => handle_writes handler
      exact (within_update (.updateSessionLastActive _)).bind fun _ => handle_writes handler

end

/-! ## The server -/

section

variable (qt : Qt) (hashes : Hashes)

/-- The server with all its handlers. -/
def chatServer : Machine ServerState ServerOp := serverMachine qt hashes (otherHandlers qt)

variable {qt hashes} {R : ServerDb → ServerDb → Prop} {s s₀ : ServerState}

/-- What a busy connection has left to execute are such statements. -/
def ServerState.Writing (hashes : Hashes) (s : ServerState) : Prop :=
  s.pool.Within (ServerDb.Writes hashes)

theorem ServerState.Started.writing (h : s.Started hashes) : s.Writing hashes := by
  intro c prog hrunning
  rw [h.idle c] at hrunning
  cases hrunning

/-- **One step.** The database the step leaves is related to the one before it by every
preorder that the statements and the clock stay within. -/
theorem serverStep_related (refl : ∀ s, R s s)
    (hwrites : ∀ s s', ServerDb.Writes hashes s s' → R s s')
    (hclock : ∀ s (seconds : Nat), R s { s with now := s.now + seconds }) (h : s.Writing hashes)
    (op : ServerOp) :
    R s.pool.store ((chatServer qt hashes).step s op).pool.store ∧
      ((chatServer qt hashes).step s op).Writing hashes := by
  cases op with
  | connect c peerAddress => exact ⟨refl _, h.setWorker⟩
  | packet c packet random wait =>
      show R _ (s.take qt hashes (otherHandlers qt) c packet random wait).pool.store ∧
        (s.take qt hashes (otherHandlers qt) c packet random wait).Writing hashes
      unfold ServerState.take
      split
      · exact ⟨refl _, h⟩
      · exact ⟨refl _, h.start (processAdmitted_writes _).map⟩
  | statement c =>
      obtain ⟨hstore, hrest⟩ := h.advance (c := c)
      refine ⟨?_, hrest⟩
      show R s.pool.store { (s.pool.advance c).store with now := s.pool.store.now }
      rcases hstore with hsame | hwrite
      · rw [hsame]
        exact refl _
      · rw [← hwrite.now]
        exact hwrites _ _ hwrite
  | prune => exact ⟨refl _, h⟩
  | pruneStatement =>
      show R _ s.advancePruning.pool.store ∧ s.advancePruning.Writing hashes
      unfold ServerState.advancePruning
      split
      · exact ⟨refl _, h⟩
      · rename_i pruning _
        exact ⟨hwrites _ _ (.tables _ (.prunes (pruning.advance_prunes _))), h⟩
  | tick seconds => exact ⟨hclock _ seconds, h⟩

/-- **Every run.** -/
theorem run_related (refl : ∀ s, R s s) (trans : ∀ {s s' s''}, R s s' → R s' s'' → R s s'')
    (hwrites : ∀ s s', ServerDb.Writes hashes s s' → R s s')
    (hclock : ∀ s (seconds : Nat), R s { s with now := s.now + seconds }) (h : s.Writing hashes)
    (ops : List ServerOp) :
    R s.pool.store ((chatServer qt hashes).run s ops).pool.store ∧
      ((chatServer qt hashes).run s ops).Writing hashes := by
  induction ops generalizing s with
  | nil => exact ⟨refl _, h⟩
  | cons op ops ih =>
      obtain ⟨hstep, hwriting⟩ : R s.pool.store ((chatServer qt hashes).step s op).pool.store ∧
          ((chatServer qt hashes).step s op).Writing hashes :=
        serverStep_related refl hwrites hclock h op
      obtain ⟨hrun, hwriting'⟩ := ih hwriting
      exact ⟨trans hstep hrun, hwriting'⟩

end

end XYChat.Server
