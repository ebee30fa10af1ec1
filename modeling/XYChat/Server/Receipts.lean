import XYChat.Server.Messages

/-!
# Receipts

The statements on receipts and on the status of messages, and the handler of
`AckMessage`.
-/

namespace XYChat.Server

open XYChat.Lib

/-- The status an `AckMessage` request reports. -/
inductive Receipt where
  | delivered
  | read
  deriving DecidableEq, Repr

def Receipt.text : Receipt → String
  | .delivered => "delivered"
  | .read => "read"

/-- The status of that name. -/
def Receipt.ofText (s : String) : Option Receipt :=
  if s = "delivered" then some .delivered else if s = "read" then some .read else none

/-- The status a message has when everybody has sent this receipt. -/
def Receipt.status : Receipt → MessageStatus
  | .delivered => .delivered
  | .read => .read

/-- The row counts as this receipt; one that was read was delivered. -/
def ReceiptRow.shows (r : ReceiptRow) : Receipt → Bool
  | .delivered => r.deliveredAt.isSome || r.readAt.isSome
  | .read => r.readAt.isSome

/-! ## Statements -/

namespace Db

/-- The row of a receipt at the time `now`, on conflict with the one there is. -/
def renewReceipt (now : Int) (receipt : Receipt) (r : ReceiptRow) : ReceiptRow :=
  { r with
    deliveredAt := some (r.deliveredAt.getD now)
    readAt := if receipt = .read then some (r.readAt.getD now) else r.readAt }

/-- `recordMessageReceipt`: fails without a row when the message or the user does
not exist. -/
def recordMessageReceipt (messageId userId : Int) (deviceId : String) (receipt : Receipt)
    (db : Db) : Db :=
  if (db.messages.get messageId).isNone ∨ (db.users.get userId).isNone then db
  else
    let mine (r : ReceiptRow) : Bool :=
      r.messageId == messageId && r.userId == userId && r.deviceId == deviceId
    if db.messageReceipts.rows.any mine then
      { db with
        messageReceipts := db.messageReceipts.update mine (renewReceipt db.now receipt) }
    else
      { db with
        messageReceipts := db.messageReceipts.insert fun id =>
          renewReceipt db.now receipt { id, messageId, userId, deviceId } }

/-- The users with such a receipt for the message, each once. -/
def receiptUsers (db : Db) (messageId : Int) (receipt : Receipt) : List Int :=
  ((db.messageReceipts.rows.filter fun r => r.messageId == messageId && r.shows receipt).map
    (·.userId)).dedup

/-- `receiptUserCount`. -/
def receiptUserCount (db : Db) (messageId : Int) (receipt : Receipt) : Nat :=
  (db.receiptUsers messageId receipt).length

/-- `memberCountExcluding`. -/
def memberCountExcluding (db : Db) (conversationId excludeUserId : Int) : Nat :=
  db.conversationMembers.rows.countP fun m =>
    m.conversationId == conversationId && m.userId != excludeUserId

/-- `updateMessageStatus`. -/
def updateMessageStatus (messageId : Int) (status : MessageStatus) (db : Db) : Db :=
  { db with
    messages := db.messages.update (·.id == messageId) fun m => { m with status := status } }

/-- `updateMemberReadCursor`: the cursor only moves forward. -/
def updateMemberReadCursor (conversationId userId messageId : Int) (db : Db) : Db :=
  { db with
    conversationMembers := db.conversationMembers.update
      (fun m => m.conversationId == conversationId && m.userId == userId
        && m.lastReadMessageId < messageId)
      fun m => { m with lastReadMessageId := messageId } }

end Db

/-! ## The handler -/

/-- The status the message gets, from the number of recipients and of those with
a receipt. -/
def aggregatedStatus (expectedRecipients readCount deliveredCount : Nat) : Option Receipt :=
  if 0 < expectedRecipients ∧ expectedRecipients ≤ readCount then some .read
  else if 0 < expectedRecipients ∧ expectedRecipients ≤ deliveredCount then some .delivered
  else none

/-- The event and the notification of a reader's own devices. -/
def syncReadCursor (conn : Connection) (msg : MessageRow) : Receipt → Prog Db (List Push)
  | .delivered => pure []
  | .read => do
      let me := conn.authenticatedUserId
      Prog.update (Db.updateMemberReadCursor msg.conversationId me msg.id)
      let ev := Json.obj
        [("conversationId", .int msg.conversationId), ("readMessageId", .int msg.id)]
      Prog.update (Db.appendSyncEvent me "read_cursor" ev)
      return [⟨me, .readCursorNotification, ev⟩]

/-- The new status of the message, with what its sender is told about it. -/
def syncStatus (conn : Connection) (msg : MessageRow) (status : Receipt)
    (deliveredCount readCount : Nat) : Prog Db (List Push) := do
  Prog.update (Db.updateMessageStatus msg.id status.status)
  let update := Json.obj
    [ ("messageId", .int msg.id), ("conversationId", .int msg.conversationId)
    , ("status", .str status.text), ("deliveredCount", .int deliveredCount)
    , ("readCount", .int readCount) ]
  let ev := Json.obj
    [ ("messageId", .int msg.id), ("conversationId", .int msg.conversationId)
    , ("status", .str status.text), ("byUserId", .int conn.authenticatedUserId)
    , ("deliveredCount", .int deliveredCount), ("readCount", .int readCount) ]
  Prog.update (Db.appendSyncEvent msg.senderId "receipt" ev)
  return [⟨msg.senderId, .messageStatusUpdate, update⟩]

/-- What follows the receipt: the message's status is worked out from the
receipts there are now, and compared with the one read at the start. -/
def aggregateReceipts (conn : Connection) (msg : MessageRow) : Prog Db (List Push) := do
  let expectedRecipients ← Prog.query (·.memberCountExcluding msg.conversationId msg.senderId)
  let readCount ← Prog.query (·.receiptUserCount msg.id .read)
  let deliveredCount ← Prog.query (·.receiptUserCount msg.id .delivered)
  match aggregatedStatus expectedRecipients readCount deliveredCount with
  | none => return []
  | some status =>
      if status.status = msg.status then return []
      else syncStatus conn msg status deliveredCount readCount

/-- `RequestHandler::processAckMessageRequest`. -/
def processAckMessageRequest (requestId : Nat) (conn : Connection) (request : Json) :
    Prog Db Outcome := do
  let reject := conn.reply requestId .ackMessageResponse
  let me := conn.authenticatedUserId
  let messageId := (request.value "messageId").toLongLong
  let status := (request.value "status").toStr "delivered"
  if messageId ≤ 0 then return reject .invalidRequest "Invalid messageId"
  else
    match Receipt.ofText status with
    | none => return reject .invalidRequest "Status must be 'delivered' or 'read'"
    | some receipt =>
      match ← Prog.query (·.getMessage messageId) with
      | none => return reject .messageNotFound "Message not found"
      | some msg =>
        if !(← Prog.query (·.isConversationMember msg.conversationId me)) then
          return reject .permissionDenied "Not a member of this conversation"
        else
          Prog.update (Db.recordMessageReceipt messageId me conn.currentDeviceId receipt)
          let own ← syncReadCursor conn msg receipt
          let told ← aggregateReceipts conn msg
          return {
            conn
            pushes := own ++ told
            response :=
              { requestId, messageType := .ackMessageResponse, code := .ok, message := "OK"
                data := .obj [("messageId", .int messageId), ("status", .str status)] } }

end XYChat.Server
