import XYChat.Server.Groups
import XYChat.Server.Receipts

/-!
# Conversations

The handlers that list a user's conversations, read a conversation's messages
and set the user's preferences.
-/

namespace XYChat.Server

open XYChat.Lib

def ConversationType.text : ConversationType → String
  | .privateType => "private"
  | .groupType => "group"

/-! ## Statements -/

/-- What `getConversationsForUser` finds out about a conversation. -/
structure ConversationInfo where
  id : Int
  type : ConversationType
  name : String
  lastMessage : Option MessageRow
  lastReadMessageId : Int
  pinned : Bool
  muted : Bool
  sortedBy : Int
  unreadCount : Nat := 0
  peer : Option (Int × String) := none
  memberCount : Nat := 0

namespace Db

/-- The message of a conversation with the largest id. -/
def lastMessage (db : Db) (conversationId : Int) : Option MessageRow :=
  (db.messages.rows.filter (·.conversationId == conversationId)).getLast?

/-- A member row joined with its conversation and the last message there. -/
def conversationInfo (db : Db) (m : MemberRow) : Option ConversationInfo :=
  (db.getConversation m.conversationId).map fun c =>
    let lastMessage := db.lastMessage c.id
    { id := c.id, type := c.type, name := c.name, lastMessage
      lastReadMessageId := m.lastReadMessageId, pinned := m.pinned, muted := m.muted
      sortedBy := (lastMessage.map (·.createdAt)).getD c.updatedAt }

/-- The first `SELECT` of `getConversationsForUser`. -/
def selectConversations (db : Db) (userId : Int) : List ConversationInfo :=
  ((db.conversationMembers.rows.filter (·.userId == userId)).filterMap
    db.conversationInfo).insertionSort fun a b => b.sortedBy ≤ a.sortedBy

def unreadCount (db : Db) (conversationId lastReadId userId : Int) : Nat :=
  db.messages.rows.countP fun m =>
    m.conversationId == conversationId && lastReadId < m.id && m.senderId != userId

/-- The other member of a private conversation, with the name. -/
def peerOf (db : Db) (conversationId userId : Int) : Option (Int × String) :=
  (db.conversationMembers.rows.filter fun m =>
    m.conversationId == conversationId && m.userId != userId).findSome? fun m =>
      (db.users.get m.userId).map fun u => (m.userId, u.username)

/-- `syncMessages`: the messages after `afterId`, each with its sender's name; a
negative limit is none. -/
def syncMessages (db : Db) (conversationId afterId limit : Int) : List (MessageRow × String) :=
  let found := db.messages.rows.filterMap fun m =>
    if m.conversationId = conversationId ∧ afterId < m.id then
      (db.users.get m.senderId).map fun u => (m, u.username)
    else none
  if limit < 0 then found else found.take limit.toNat

/-- `setConversationPrefs`: true when there was such a row. -/
def setConversationPrefs (conversationId userId : Int) (pinned muted : Bool) (db : Db) :
    Db × Bool :=
  if conversationId ≤ 0 ∨ userId ≤ 0 then (db, false)
  else
    ({ db with
        conversationMembers := db.conversationMembers.update
          (fun m => m.conversationId == conversationId && m.userId == userId)
          fun m => { m with pinned := pinned, muted := muted } },
      db.isConversationMember conversationId userId)

end Db

/-- Count what is unread, conversation by conversation. -/
def countUnread (userId : Int) : List ConversationInfo → Prog Db (List ConversationInfo)
  | [] => pure []
  | c :: rest => do
      let unreadCount ← Prog.query (·.unreadCount c.id c.lastReadMessageId userId)
      let others ← countUnread userId rest
      return { c with unreadCount } :: others

/-- Fill in the other member, or how many members there are. -/
def fillPeers (userId : Int) : List ConversationInfo → Prog Db (List ConversationInfo)
  | [] => pure []
  | c :: rest => do
      let filled ← match c.type with
        | .privateType => do
            let peer ← Prog.query (·.peerOf c.id userId)
            pure { c with peer }
        | .groupType => do
            let memberCount ← Prog.query (·.memberCount c.id)
            pure { c with memberCount }
      let others ← fillPeers userId rest
      return filled :: others

/-- `DatabaseManager::getConversationsForUser`. -/
def getConversationsForUser (userId : Int) : Prog Db (List ConversationInfo) := do
  let found ← Prog.query (·.selectConversations userId)
  let counted ← countUnread userId found
  fillPeers userId counted

/-! ## Handlers -/

section

variable (qt : Qt) (requestId : Nat) (conn : Connection) (request : Json)

/-- A conversation as the list shows it. -/
def conversationJson (c : ConversationInfo) : Json := .obj
  ([ ("conversationId", .int c.id)
   , ("type", .str c.type.text)
   , ("peerUserId", .int ((c.peer.map (·.1)).getD 0))
   , ("peerUsername", .str ((c.peer.map (·.2)).getD ""))
   , ("lastMessage", .str ((c.lastMessage.map (·.content)).getD ""))
   , ("lastMessageId", .int ((c.lastMessage.map (·.id)).getD 0))
   , ("lastMessageAt", .str ((c.lastMessage.map (qt.sqlDate ·.createdAt)).getD ""))
   , ("unreadCount", .int c.unreadCount)
   , ("pinned", .bool c.pinned)
   , ("muted", .bool c.muted) ]
    ++ match c.type with
      | .privateType => []
      | .groupType => [("name", .str c.name), ("memberCount", .int c.memberCount)])

/-- `RequestHandler::processGetConversationsRequest`. -/
def processGetConversationsRequest : Prog Db Outcome := do
  let conversations ← getConversationsForUser conn.authenticatedUserId
  return {
    conn
    response :=
      { requestId, messageType := .getConversationsResponse, code := .ok, message := "OK"
        data := .obj [("conversations", .arr (conversations.map (conversationJson qt)))] } }

/-- A message as a page shows it. -/
def messageJson (m : MessageRow) (senderUsername : String) : Json := .obj
  ([ ("messageId", .int m.id)
   , ("conversationId", .int m.conversationId)
   , ("senderId", .int m.senderId)
   , ("senderUsername", .str senderUsername)
   , ("content", .str m.content)
   , ("contentType", .str m.contentType)
   , ("status", .str m.status.text)
   , ("createdAt", .str (qt.sqlDate m.createdAt))
   , ("deleted", .bool m.deleted) ]
    ++ match m.editedAt with
      | none => []
      | some editedAt => [("edited", .bool true), ("editedAt", .str (qt.sqlDate editedAt))])

/-- `RequestHandler::processSyncMessagesRequest`. -/
def processSyncMessagesRequest : Prog Db Outcome := do
  let reject := conn.reply requestId .syncMessagesResponse
  let me := conn.authenticatedUserId
  let conversationId := (request.value "conversationId").toLongLong
  let afterId := (request.value "afterId").toLongLong
  let limit := (request.value "limit").toInt 100
  if conversationId ≤ 0 then return reject .invalidRequest "Invalid conversationId"
  else if !(← Prog.query (·.isConversationMember conversationId me)) then
    return reject .permissionDenied "Not a member of this conversation"
  else
    let messages ← Prog.query (·.syncMessages conversationId afterId limit)
    match messages.getLast? with
    | none => pure ()
    | some last => Prog.update (Db.updateMemberReadCursor conversationId me last.1.id)
    return {
      conn
      response :=
        { requestId, messageType := .syncMessagesResponse, code := .ok, message := "OK"
          data := .obj
            [ ("conversationId", .int conversationId)
            , ("messages", .arr (messages.map fun m => messageJson qt m.1 m.2))
            , ("hasMore", .bool (limit ≤ messages.length)) ] } }

/-- `RequestHandler::processSetConversationPrefsRequest`. A number is let through
and then read as false. -/
def processSetConversationPrefsRequest : Prog Db Outcome := do
  let reject := conn.reply requestId .setConversationPrefsResponse
  let me := conn.authenticatedUserId
  let conversationId := (request.value "conversationId").toLongLong
  let pinnedVal := request.value "pinned"
  let mutedVal := request.value "muted"
  if conversationId ≤ 0 then return reject .invalidRequest "Invalid conversationId"
  else if !(pinnedVal.isBool || pinnedVal.isDouble) ∨ !(mutedVal.isBool || mutedVal.isDouble) then
    return reject .invalidRequest "pinned and muted must be boolean"
  else if !(← Prog.query (·.isConversationMember conversationId me)) then
    return reject .permissionDenied "Not a member of this conversation"
  else if !(← Prog.call (Db.setConversationPrefs conversationId me pinnedVal.toBool
      mutedVal.toBool)) then
    return reject .internalError "Failed to update conversation preferences"
  else
    let payload := Json.obj
      [ ("conversationId", .int conversationId), ("pinned", .bool pinnedVal.toBool)
      , ("muted", .bool mutedVal.toBool) ]
    Prog.update (Db.appendSyncEvent me "conversation_prefs" payload)
    return {
      conn
      pushes := [⟨me, .conversationPrefsNotification, payload⟩]
      response :=
        { requestId, messageType := .setConversationPrefsResponse, code := .ok, message := "OK"
          data := payload } }

end

end XYChat.Server
