import XYChat.Server.Connection
import XYChat.Server.Db

/-!
# Sending, editing and deleting messages

The handlers of `SendMessage` (both its paths), `EditMessage` and
`DeleteMessage`, with every check in the order the source makes it.
-/

namespace XYChat.Server

open XYChat.Lib
open E2eeCrypto (EnvelopeEntry)

/-- Limit on the length of a group message and of an edit. -/
def maxGroupMessageLength : Nat := 16384

/-- One `appendSyncEvent` for each user of the list. -/
def appendSyncEvents (eventType : String) (payload : Json) : List Int → Prog Db Unit
  | [] => pure ()
  | userId :: rest => do
      Prog.update (Db.appendSyncEvent userId eventType payload)
      appendSyncEvents eventType payload rest

/-- The reply to a retry of a message that is already stored. -/
def replyReused (conn : Connection) (requestId : Nat) (clientMessageId : String)
    (existing : MessageRow) : Outcome :=
  { conn
    response :=
      { requestId
        messageType := .sendMessageResponse
        code := .ok
        message := "Message sent"
        data := .obj
          [ ("messageId", .int existing.id)
          , ("conversationId", .int existing.conversationId)
          , ("clientMessageId", .str clientMessageId)
          , ("status", .str existing.status.text)
          , ("reused", .bool true) ] } }

/-- The reply to a stored message. -/
def replySent (conn : Connection) (requestId : Nat) (clientMessageId : String)
    (msgId convId : Int) (pushes : List Push) : Outcome :=
  { conn
    pushes
    response :=
      { requestId
        messageType := .sendMessageResponse
        code := .ok
        message := "Message sent"
        data := .obj
          [ ("messageId", .int msgId)
          , ("conversationId", .int convId)
          , ("clientMessageId", .str clientMessageId)
          , ("status", .str "sent") ] } }

/-- The payload of a `message` event. -/
def messageEvent (qt : Qt) (msgId convId senderId : Int) (content contentType clientMessageId : String)
    (createdAt : Int) : Json :=
  .obj
    [ ("messageId", .int msgId)
    , ("conversationId", .int convId)
    , ("senderId", .int senderId)
    , ("content", .str content)
    , ("contentType", .str contentType)
    , ("clientMessageId", .str clientMessageId)
    , ("createdAt", .str (qt.isoDate createdAt)) ]

/-! ## Private messages -/

/-- The loop of `processSendMessageRequest` over the envelope's entries: the
prekey ids of the recipient's devices, or the message of the rejection. -/
def checkEntries (conn : Connection) (targetUserId : Int) :
    List EnvelopeEntry → List Int → List String → Bool → Prog Db (Except String (List Int))
  | [], prekeyIds, _, _ => pure (.ok prekeyIds)
  | entry :: rest, prekeyIds, seenPeerDevices, seenSelfCopy =>
      if entry.deviceId = conn.currentDeviceId ∧ entry.prekeyId = E2eeCrypto.selfCopyPrekeyId then
        -- the sender's own copy carries no prekey
        if seenSelfCopy then pure (.error "Duplicate device entry in envelope")
        else checkEntries conn targetUserId rest prekeyIds seenPeerDevices true
      else if entry.deviceId ∈ seenPeerDevices then
        pure (.error "Duplicate device entry in envelope")
      else do
        if ← Prog.query (·.validateClaimedPrekey targetUserId entry.deviceId entry.prekeyId) then
          checkEntries conn targetUserId rest (prekeyIds ++ [entry.prekeyId])
            (seenPeerDevices ++ [entry.deviceId]) seenSelfCopy
        else pure (.error "Envelope references invalid or unconsumable prekey")

/-- The transaction of a private send: insert the message and consume the
prekeys. The number of prekeys consumed is not looked at. -/
def storePrivateMessage (convId senderId : Int) (content contentType clientMessageId
    senderDeviceId : String) (prekeyIds : List Int) : Prog Db (Option Int) :=
  Prog.atomically do
    match ← sendMessage convId senderId content contentType clientMessageId senderDeviceId with
    | none => return none
    | some msgId => do
        let _ ← Prog.call (Db.consumePrekeys prekeyIds)
        return some msgId

/-- The events and the notification of a stored private message, and its reply. -/
def fanOutPrivateMessage (qt : Qt) (requestId : Nat) (conn : Connection) (targetUserId convId : Int)
    (content contentType clientMessageId : String) (msgId : Int) : Prog Db Outcome := do
  let me := conn.authenticatedUserId
  let createdAt ← Prog.query (·.now)
  let ev := messageEvent qt msgId convId me content contentType clientMessageId createdAt
  appendSyncEvents "message" ev [targetUserId, me]
  let notify := Json.obj
    [ ("messageId", .int msgId)
    , ("conversationId", .int convId)
    , ("senderId", .int me)
    , ("content", .str content)
    , ("contentType", .str contentType)
    , ("createdAt", .str (qt.isoDate createdAt)) ]
  return replySent conn requestId clientMessageId msgId convId
    [⟨targetUserId, .newMessageNotification, notify⟩]

/-- The private path of `processSendMessageRequest`, from the recipient on. -/
def processSendPrivateMessage (qt : Qt) (requestId : Nat) (conn : Connection) (request : Json)
    (clientMessageId : String) : Prog Db Outcome := do
  let targetUserId := (request.value "toUserId").toLongLong
  let content := (request.value "content").toStr ""
  let contentType := (request.value "contentType").toStr "text"
  let me := conn.authenticatedUserId
  let reject := conn.reply requestId .sendMessageResponse
  if targetUserId ≤ 0 ∨ targetUserId = me then
    return reject .cannotSendToSelf "Invalid recipient"
  else if content = "" then
    return reject .invalidRequest "Message content is empty"
  else
    -- a retry is answered before its envelope, whose prekeys may be used up, is looked at
    match ← Prog.query (·.getMessageByClientKey me conn.currentDeviceId clientMessageId) with
    | some existing => return replyReused conn requestId clientMessageId existing
    | none =>
      match E2eeCrypto.decodeEnvelope qt content with
      | none =>
          return reject .e2eeInvalidEnvelope "Message content must be a valid E2EE envelope"
      | some entries =>
        match ← checkEntries conn targetUserId entries [] [] false with
        | .error message => return reject .e2eeInvalidEnvelope message
        | .ok [] => return reject .e2eeInvalidEnvelope "Envelope has no recipient device entry"
        | .ok prekeyIds =>
          match ← getOrCreatePrivateConversation me targetUserId with
          | none => return reject .internalError "Failed to create conversation"
          | some convId =>
            match ← storePrivateMessage convId me content contentType clientMessageId
                conn.currentDeviceId prekeyIds with
            | none => return reject .internalError "Failed to send message"
            | some msgId =>
                fanOutPrivateMessage qt requestId conn targetUserId convId content contentType
                  clientMessageId msgId

/-! ## Group messages -/

/-- What a group content must satisfy to be stored, by its type: the prekey ids
it references, or the message of the rejection. -/
def checkGroupContent (qt : Qt) (conversationId : Int) (content contentType : String) :
    Except String (List Int) :=
  if contentType = "e2ee_group" then
    match GroupE2eeCrypto.decodeGroupMessage qt content with
    | some (_, senderDeviceId) =>
        if senderDeviceId = "" then .error "Group e2ee content is not a valid envelope" else .ok []
    | none => .error "Group e2ee content is not a valid envelope"
  else if contentType = "sender_key_distribution" then
    match GroupE2eeCrypto.decodeDistribution qt content with
    | some dist =>
        if dist.entries.isEmpty ∨ dist.groupId ≠ conversationId then
          .error "sender_key_distribution content is not a valid envelope"
        else .ok ((dist.entries.map (·.envelope.prekeyId)).filter (0 < ·))
    | none => .error "sender_key_distribution content is not a valid envelope"
  else .ok []

/-- Insert the group message, then consume the prekeys a distribution
references. The two are separate statements, and the number of prekeys consumed
is not looked at. -/
def storeGroupMessage (conversationId senderId : Int) (content contentType clientMessageId
    senderDeviceId : String) (distPrekeyIds : List Int) : Prog Db (Option Int) := do
  match ← sendMessage conversationId senderId content contentType clientMessageId
      senderDeviceId with
  | none => return none
  | some msgId =>
      if distPrekeyIds = [] then return some msgId
      else do
        let _ ← Prog.call (Db.consumePrekeys distPrekeyIds)
        return some msgId

/-- The events and notifications of a stored group message, and its reply. -/
def fanOutGroupMessage (qt : Qt) (requestId : Nat) (conn : Connection) (conversationId : Int)
    (content contentType clientMessageId : String) (msgId : Int) : Prog Db Outcome := do
  let me := conn.authenticatedUserId
  let createdAt ← Prog.query (·.now)
  let senderUsername ← Prog.query (·.usernameById me)
  let ev := messageEvent qt msgId conversationId me content contentType clientMessageId createdAt
  let members ← Prog.query (·.getConversationMemberIds conversationId)
  appendSyncEvents "message" ev members
  let notify := ev.setMember "senderUsername" (.str senderUsername)
  return replySent conn requestId clientMessageId msgId conversationId
    ((members.filter (· ≠ me)).map fun m => ⟨m, .newMessageNotification, notify⟩)

/-- `RequestHandler::processSendGroupMessage`. -/
def processSendGroupMessage (qt : Qt) (requestId : Nat) (conn : Connection) (request : Json)
    (conversationId : Int) (clientMessageId : String) : Prog Db Outcome := do
  let me := conn.authenticatedUserId
  let reject := conn.reply requestId .sendMessageResponse
  match ← Prog.query (·.getConversation conversationId) with
  | none => return reject .conversationNotFound "Conversation not found"
  | some conv =>
    if conv.type ≠ .groupType then
      return reject .invalidRequest
        "conversationId refers to a private conversation, use toUserId"
    else if !(← Prog.query (·.isConversationMember conversationId me)) then
      return reject .permissionDenied "Not a member of this group"
    else
      let content := (request.value "content").toStr ""
      let contentType := (request.value "contentType").toStr "text"
      if content = "" then
        return reject .invalidRequest "Message content is empty"
      else if maxGroupMessageLength < qsize content then
        return reject .invalidRequest "Message content too long"
      else if contentType ≠ "text" ∧ contentType ≠ "sender_key_distribution"
          ∧ contentType ≠ "e2ee_group" then
        return reject .invalidRequest "Unsupported group message content type"
      else
        match checkGroupContent qt conversationId content contentType with
        | .error message => return reject .e2eeInvalidEnvelope message
        | .ok distPrekeyIds =>
          match ← Prog.query (·.getMessageByClientKey me conn.currentDeviceId clientMessageId) with
          | some existing => return replyReused conn requestId clientMessageId existing
          | none =>
            match ← storeGroupMessage conversationId me content contentType clientMessageId
                conn.currentDeviceId distPrekeyIds with
            | none => return reject .internalError "Failed to send message"
            | some msgId =>
                fanOutGroupMessage qt requestId conn conversationId content contentType
                  clientMessageId msgId

/-- `RequestHandler::processSendMessageRequest`. -/
def processSendMessageRequest (qt : Qt) (requestId : Nat) (conn : Connection) (request : Json) :
    Prog Db Outcome := do
  let clientMessageId := trimmed ((request.value "clientMessageId").toStr "")
  if clientMessageId = "" ∨ 128 < qsize clientMessageId then
    return conn.reply requestId .sendMessageResponse .invalidRequest "clientMessageId is required"
  else
    let now ← Prog.query (·.now)
    let (sendWindow, allowed) := conn.sendWindow.allow now
    let conn := { conn with sendWindow }
    if !allowed then
      return conn.reply requestId .sendMessageResponse .rateLimited
        "Too many messages, please slow down"
    else
      -- a conversation id selects the group path, otherwise the message is private
      let groupConvId := (request.value "conversationId").toLongLong
      if 0 < groupConvId then
        processSendGroupMessage qt requestId conn request groupConvId clientMessageId
      else
        processSendPrivateMessage qt requestId conn request clientMessageId

/-! ## Edits and deletions -/

/-- What an edit's content must satisfy, by the message's type. A type other
than the two encrypted kinds the source names is not checked. -/
def checkEditContent (qt : Qt) (conn : Connection) (content contentType : String) :
    Except String Unit :=
  if contentType = "e2ee_group" then
    match GroupE2eeCrypto.decodeGroupMessage qt content with
    | some (_, senderDeviceId) =>
        if senderDeviceId ≠ conn.currentDeviceId then
          .error "Edited group e2ee content is not a valid envelope"
        else .ok ()
    | none => .error "Edited group e2ee content is not a valid envelope"
  else if contentType = "text" then
    if (E2eeCrypto.decodeEnvelope qt content).isSome then .ok ()
    else .error "Edited content must be a valid E2EE envelope"
  else .ok ()

/-- `RequestHandler::processEditMessageRequest`. -/
def processEditMessageRequest (qt : Qt) (requestId : Nat) (conn : Connection) (request : Json) :
    Prog Db Outcome := do
  let messageId := (request.value "messageId").toLongLong
  let content := (request.value "content").toStr ""
  let contentType := (request.value "contentType").toStr ""
  let reject := conn.reply requestId .editMessageResponse
  if messageId ≤ 0 then
    return reject .invalidRequest "Invalid messageId"
  else if content = "" ∨ contentType = "" then
    return reject .invalidRequest "content and contentType are required"
  else
    match ← Prog.query (·.getMessage messageId) with
    | none => return reject .messageNotFound "Message not found"
    | some msg =>
      if msg.senderId ≠ conn.authenticatedUserId then
        return reject .permissionDenied "Only the sender can edit this message"
      else if msg.deleted then
        return reject .messageNotFound "Message has been deleted"
      else if msg.contentType = "system" then
        return reject .permissionDenied "System messages cannot be edited"
      else if maxGroupMessageLength < qsize content then
        return reject .invalidRequest "Message content too long"
      else if contentType ≠ msg.contentType then
        return reject .invalidRequest "contentType must match the original message"
      else
        match checkEditContent qt conn content contentType with
        | .error message => return reject .e2eeInvalidEnvelope message
        | .ok () =>
          if !(← Prog.call (Db.editMessage messageId content contentType)) then
            return reject .internalError "Failed to edit message"
          else
            let editedAt ← Prog.query (·.now)
            let ev := Json.obj
              [ ("messageId", .int messageId)
              , ("conversationId", .int msg.conversationId)
              , ("senderId", .int conn.authenticatedUserId)
              , ("originDeviceId", .str conn.currentDeviceId)
              , ("content", .str content)
              , ("contentType", .str contentType)
              , ("editedAt", .str (qt.isoDate editedAt)) ]
            let members ← Prog.query (·.getConversationMemberIds msg.conversationId)
            appendSyncEvents "message_edited" ev members
            return {
              conn
              pushes := members.map fun m => ⟨m, .editMessageResponse, ev⟩
              response :=
                { requestId, messageType := .editMessageResponse, code := .ok
                  message := "OK", data := ev } }

/-- `RequestHandler::processDeleteMessageRequest`. -/
def processDeleteMessageRequest (qt : Qt) (requestId : Nat) (conn : Connection) (request : Json) :
    Prog Db Outcome := do
  let messageId := (request.value "messageId").toLongLong
  let reject := conn.reply requestId .deleteMessageResponse
  if messageId ≤ 0 then
    return reject .invalidRequest "Invalid messageId"
  else
    match ← Prog.query (·.getMessage messageId) with
    | none => return reject .messageNotFound "Message not found"
    | some msg =>
      if msg.senderId ≠ conn.authenticatedUserId then
        return reject .permissionDenied "Only the sender can delete this message"
      else if msg.contentType = "system" then
        return reject .permissionDenied "System messages cannot be deleted"
      else if !(← Prog.call (Db.deleteMessage messageId)) then
        return reject .internalError "Failed to delete message"
      else
        let deletedAt ← Prog.query (·.now)
        let ev := Json.obj
          [ ("messageId", .int messageId)
          , ("conversationId", .int msg.conversationId)
          , ("senderId", .int conn.authenticatedUserId)
          , ("originDeviceId", .str conn.currentDeviceId)
          , ("deletedAt", .str (qt.isoDate deletedAt)) ]
        let members ← Prog.query (·.getConversationMemberIds msg.conversationId)
        appendSyncEvents "message_deleted" ev members
        return {
          conn
          pushes := members.map fun m => ⟨m, .deleteMessageResponse, ev⟩
          response :=
            { requestId, messageType := .deleteMessageResponse, code := .ok
              message := "OK", data := ev } }

end XYChat.Server
