import Mathlib.Data.Finset.Card
import XYChat.Server.Frames

/-!
# Acknowledgements, step by step

The message, the members and the receipts are read by one statement each, and
other handlers execute theirs in between. A message becomes delivered or read when
as many users have sent such a receipt as the conversation has members besides
the sender; who these users are is not looked at.
-/

namespace XYChat.Server

open XYChat.Lib

/-! ## Who has sent receipts -/

namespace Db

/-- The members of the message's conversation besides its sender. -/
def recipients (db : Db) (m : MessageRow) : Finset Int :=
  ((db.conversationMembers.rows.filter fun r =>
    r.conversationId == m.conversationId && r.userId != m.senderId).map (·.userId)).toFinset

/-- The recipients without such a receipt. -/
def lacking (db : Db) (m : MessageRow) (receipt : Receipt) : Finset Int :=
  db.recipients m \ (db.receiptUsers m.id receipt).toFinset

/-- The users with such a receipt who are no recipients. -/
def standIns (db : Db) (m : MessageRow) (receipt : Receipt) : Finset Int :=
  (db.receiptUsers m.id receipt).toFinset \ db.recipients m

/-- Nobody stands in for one of the recipients, `expected` when they were counted:
none lacks the receipt, or those who do are more than the others with one and
those who have joined since. -/
def NoStandIns (db : Db) (m : MessageRow) (receipt : Receipt) (expected : Nat) : Prop :=
  expected = 0 ∨ db.lacking m receipt = ∅ ∨
    (db.standIns m receipt).card + (db.recipients m).card <
      (db.lacking m receipt).card + expected

/-- The message has the status. -/
def HasStatus (db : Db) (messageId : Int) (status : MessageStatus) : Prop :=
  ∃ m ∈ db.messages.rows, m.id = messageId ∧ m.status = status

instance (db : Db) (m : MessageRow) (receipt : Receipt) (expected : Nat) :
    Decidable (db.NoStandIns m receipt expected) :=
  inferInstanceAs (Decidable (expected = 0 ∨ db.lacking m receipt = ∅ ∨
    (db.standIns m receipt).card + (db.recipients m).card <
      (db.lacking m receipt).card + expected))

instance (db : Db) (messageId : Int) (status : MessageStatus) :
    Decidable (db.HasStatus messageId status) :=
  inferInstanceAs (Decidable (∃ m ∈ db.messages.rows, m.id = messageId ∧ m.status = status))

end Db

section counting

variable {db : Db} {m : MessageRow} {receipt : Receipt}

theorem mem_recipients {u : Int} : u ∈ db.recipients m ↔
    db.isConversationMember m.conversationId u = true ∧ u ≠ m.senderId := by
  unfold Db.recipients
  rw [List.mem_toFinset, List.mem_map, isConversationMember_iff]
  simp only [List.mem_filter, Bool.and_eq_true, beq_iff_eq, bne_iff_ne, ne_eq]
  constructor
  · rintro ⟨r, ⟨hr, hconv, hne⟩, rfl⟩
    exact ⟨⟨r, hr, hconv, rfl⟩, hne⟩
  · rintro ⟨⟨r, hr, hconv, rfl⟩, hne⟩
    exact ⟨r, ⟨hr, hconv, hne⟩, rfl⟩

/-- With one row for each user, the members are counted as users. -/
theorem card_recipients (hu : db.MembersUnique) :
    (db.recipients m).card = db.memberCountExcluding m.conversationId m.senderId := by
  unfold Db.recipients Db.memberCountExcluding
  rw [List.toFinset_card_of_nodup, List.length_map, ← List.countP_eq_length_filter]
  have hrows := (List.Nodup.of_map key (@Table.keys_nodup _ _ db.conversationMembers)).filter
    fun r => r.conversationId == m.conversationId && r.userId != m.senderId
  refine List.Nodup.map_on (fun r hr r' hr' huser => ?_) hrows
  obtain ⟨hr, hconv⟩ := List.mem_filter.mp hr
  obtain ⟨hr', hconv'⟩ := List.mem_filter.mp hr'
  simp only [Bool.and_eq_true, beq_iff_eq] at hconv hconv'
  exact hu r hr r' hr' (hconv.1.trans hconv'.1.symm) huser

/-- Where the recipients are still the ones counted, it is the others with a
receipt that are fewer than those lacking one. -/
theorem noStandIns_counted (hu : db.MembersUnique) :
    db.NoStandIns m receipt (db.memberCountExcluding m.conversationId m.senderId) ↔
      db.lacking m receipt = ∅ ∨
        (db.standIns m receipt).card < (db.lacking m receipt).card := by
  unfold Db.NoStandIns
  rw [← card_recipients hu, Finset.card_eq_zero, Nat.add_lt_add_iff_right]
  constructor
  · rintro (hnobody | hrest)
    · left
      unfold Db.lacking
      rw [hnobody, Finset.empty_sdiff]
    · exact hrest
  · exact Or.inr

theorem card_receiptUsers :
    (db.receiptUsers m.id receipt).toFinset.card = db.receiptUserCount m.id receipt :=
  List.toFinset_card_of_nodup (List.nodup_dedup _)

/-- The recipients and the others with a receipt are those with one and the
recipients who lack it. -/
theorem card_standIns :
    (db.standIns m receipt).card + (db.recipients m).card =
      (db.lacking m receipt).card + db.receiptUserCount m.id receipt := by
  unfold Db.standIns Db.lacking
  rw [← card_receiptUsers, Finset.card_sdiff_add_card, Finset.card_sdiff_add_card,
    Finset.union_comm]

/-- **Counting lemma.** Where nobody stands in for a recipient, as many receipts
as were expected are from all recipients. -/
theorem lacking_of_enough {expected : Nat} (h : db.NoStandIns m receipt expected)
    (hpos : 0 < expected) (hle : expected ≤ db.receiptUserCount m.id receipt) :
    db.lacking m receipt = ∅ := by
  rcases h with hzero | hempty | hfew
  · omega
  · exact hempty
  · have hcard := @card_standIns db m receipt
    omega

theorem receiptUsers_of_lacking (h : db.lacking m receipt = ∅) {u : Int}
    (hu : u ∈ db.recipients m) : u ∈ db.receiptUsers m.id receipt :=
  List.mem_toFinset.mp (Finset.sdiff_eq_empty_iff_subset.mp h hu)

end counting

/-! ## An acknowledgement step by step -/

/-- An `AckMessage` request on a connection. -/
structure Acknowledgement where
  conn : Connection
  request : Json
  requestId : Nat

namespace Acknowledgement

def messageId (a : Acknowledgement) : Int := (a.request.value "messageId").toLongLong

def status (a : Acknowledgement) : String := (a.request.value "status").toStr "delivered"

def reject (a : Acknowledgement) : ErrorCode → String → Outcome :=
  a.conn.reply a.requestId .ackMessageResponse

end Acknowledgement

/-- Where an acknowledgement is: what its next statement is, and what it has read
before. `present` is history: the recipients when the receipts were counted that
the new status comes from. -/
inductive AckPhase where
  | getMessage (receipt : Receipt)
  | isMember (receipt : Receipt) (msg : MessageRow)
  | recordReceipt (receipt : Receipt) (msg : MessageRow)
  | moveCursor (msg : MessageRow)
  | tellReader (msg : MessageRow)
  | countMembers (own : List Push) (msg : MessageRow)
  | countReaders (own : List Push) (msg : MessageRow) (expectedRecipients : Nat)
  | countReceivers (own : List Push) (msg : MessageRow) (expectedRecipients readCount : Nat)
      (present : Finset Int)
  | setStatus (own : List Push) (msg : MessageRow) (status : Receipt)
      (deliveredCount readCount : Nat) (present : Finset Int)
  | tellSender (own : List Push) (msg : MessageRow) (status : Receipt)
      (deliveredCount readCount : Nat)
  | answered (outcome : Outcome)

section

variable (a : Acknowledgement)

namespace Acknowledgement

/-- The answer to an acknowledgement that is recorded. -/
def accepted (own told : List Push) : Outcome where
  conn := a.conn
  pushes := own ++ told
  response :=
    { requestId := a.requestId, messageType := .ackMessageResponse, code := .ok, message := "OK"
      data := .obj [("messageId", .int a.messageId), ("status", .str a.status)] }

/-- What the reader's devices are told. -/
def readCursor (msg : MessageRow) : Json := .obj
  [("conversationId", .int msg.conversationId), ("readMessageId", .int msg.id)]

/-- The event that the sender's devices find later. -/
def receiptEvent (msg : MessageRow) (status : Receipt) (deliveredCount readCount : Nat) : Json :=
  .obj
    [ ("messageId", .int msg.id), ("conversationId", .int msg.conversationId)
    , ("status", .str status.text), ("byUserId", .int a.conn.authenticatedUserId)
    , ("deliveredCount", .int deliveredCount), ("readCount", .int readCount) ]

/-- What the sender's devices are told at once. -/
def statusUpdate (msg : MessageRow) (status : Receipt) (deliveredCount readCount : Nat) : Push where
  targetUserId := msg.senderId
  messageType := .messageStatusUpdate
  payload := .obj
    [ ("messageId", .int msg.id), ("conversationId", .int msg.conversationId)
    , ("status", .str status.text), ("deliveredCount", .int deliveredCount)
    , ("readCount", .int readCount) ]

end Acknowledgement

/-- A request that names no message or no status is answered at once. -/
def AckPhase.start : AckPhase :=
  if a.messageId ≤ 0 then .answered (a.reject .invalidRequest "Invalid messageId")
  else
    match Receipt.ofText a.status with
    | none => .answered (a.reject .invalidRequest "Status must be 'delivered' or 'read'")
    | some receipt => .getMessage receipt

/-- The next statement. -/
def AckPhase.step (db : Db) : AckPhase → Db × AckPhase
  | .getMessage receipt =>
      ( db
      , match db.getMessage a.messageId with
        | none => .answered (a.reject .messageNotFound "Message not found")
        | some msg => .isMember receipt msg )
  | .isMember receipt msg =>
      ( db
      , if !db.isConversationMember msg.conversationId a.conn.authenticatedUserId then
          .answered (a.reject .permissionDenied "Not a member of this conversation")
        else .recordReceipt receipt msg )
  | .recordReceipt receipt msg =>
      ( db.recordMessageReceipt a.messageId a.conn.authenticatedUserId a.conn.currentDeviceId
          receipt
      , match receipt with
        | .delivered => .countMembers [] msg
        | .read => .moveCursor msg )
  | .moveCursor msg =>
      ( db.updateMemberReadCursor msg.conversationId a.conn.authenticatedUserId msg.id
      , .tellReader msg )
  | .tellReader msg =>
      ( db.appendSyncEvent a.conn.authenticatedUserId "read_cursor" (Acknowledgement.readCursor msg)
      , .countMembers
          [⟨a.conn.authenticatedUserId, .readCursorNotification, Acknowledgement.readCursor msg⟩]
          msg )
  | .countMembers own msg =>
      (db, .countReaders own msg (db.memberCountExcluding msg.conversationId msg.senderId))
  | .countReaders own msg expectedRecipients =>
      ( db
      , .countReceivers own msg expectedRecipients (db.receiptUserCount msg.id .read)
          (db.recipients msg) )
  | .countReceivers own msg expectedRecipients readCount present =>
      let deliveredCount := db.receiptUserCount msg.id .delivered
      ( db
      , match aggregatedStatus expectedRecipients readCount deliveredCount with
        | none => .answered (a.accepted own [])
        | some status =>
            if status.status = msg.status then .answered (a.accepted own [])
            else
              .setStatus own msg status deliveredCount readCount
                (if status = .read then present else db.recipients msg) )
  | .setStatus own msg status deliveredCount readCount _ =>
      ( db.updateMessageStatus msg.id status.status
      , .tellSender own msg status deliveredCount readCount )
  | .tellSender own msg status deliveredCount readCount =>
      ( db.appendSyncEvent msg.senderId "receipt"
          (a.receiptEvent msg status deliveredCount readCount)
      , .answered
          (a.accepted own
            [Acknowledgement.statusUpdate msg status deliveredCount readCount]) )
  | .answered outcome => (db, .answered outcome)

/-! ## The phases are those of the code -/

namespace Acknowledgement

def telling (own : List Push) (msg : MessageRow) (status : Receipt)
    (deliveredCount readCount : Nat) : Prog Db Outcome := do
  Prog.update
    (Db.appendSyncEvent msg.senderId "receipt" (a.receiptEvent msg status deliveredCount readCount))
  return a.accepted own [statusUpdate msg status deliveredCount readCount]

def setting (own : List Push) (msg : MessageRow) (status : Receipt)
    (deliveredCount readCount : Nat) : Prog Db Outcome := do
  Prog.update (Db.updateMessageStatus msg.id status.status)
  a.telling own msg status deliveredCount readCount

def countingReceivers (own : List Push) (msg : MessageRow) (expectedRecipients readCount : Nat) :
    Prog Db Outcome := do
  let deliveredCount ← Prog.query (·.receiptUserCount msg.id .delivered)
  match aggregatedStatus expectedRecipients readCount deliveredCount with
  | none => return a.accepted own []
  | some status =>
      if status.status = msg.status then return a.accepted own []
      else a.setting own msg status deliveredCount readCount

def countingReaders (own : List Push) (msg : MessageRow) (expectedRecipients : Nat) :
    Prog Db Outcome := do
  a.countingReceivers own msg expectedRecipients
    (← Prog.query (·.receiptUserCount msg.id .read))

def countingMembers (own : List Push) (msg : MessageRow) : Prog Db Outcome := do
  a.countingReaders own msg
    (← Prog.query (·.memberCountExcluding msg.conversationId msg.senderId))

def tellingReader (msg : MessageRow) : Prog Db Outcome := do
  Prog.update (Db.appendSyncEvent a.conn.authenticatedUserId "read_cursor" (readCursor msg))
  a.countingMembers
    [⟨a.conn.authenticatedUserId, .readCursorNotification, readCursor msg⟩] msg

def movingCursor (msg : MessageRow) : Prog Db Outcome := do
  Prog.update (Db.updateMemberReadCursor msg.conversationId a.conn.authenticatedUserId msg.id)
  a.tellingReader msg

def recording (receipt : Receipt) (msg : MessageRow) : Prog Db Outcome := do
  Prog.update (Db.recordMessageReceipt a.messageId a.conn.authenticatedUserId
    a.conn.currentDeviceId receipt)
  match receipt with
  | .delivered => a.countingMembers [] msg
  | .read => a.movingCursor msg

def authorizing (receipt : Receipt) (msg : MessageRow) : Prog Db Outcome := do
  if !(← Prog.query (·.isConversationMember msg.conversationId a.conn.authenticatedUserId)) then
    return a.reject .permissionDenied "Not a member of this conversation"
  else a.recording receipt msg

def looking (receipt : Receipt) : Prog Db Outcome := do
  match ← Prog.query (·.getMessage a.messageId) with
  | none => return a.reject .messageNotFound "Message not found"
  | some msg => a.authorizing receipt msg

end Acknowledgement

/-- What is left of `processAckMessageRequest` at a phase. -/
def AckPhase.rest : AckPhase → Prog Db Outcome
  | .getMessage receipt => a.looking receipt
  | .isMember receipt msg => a.authorizing receipt msg
  | .recordReceipt receipt msg => a.recording receipt msg
  | .moveCursor msg => a.movingCursor msg
  | .tellReader msg => a.tellingReader msg
  | .countMembers own msg => a.countingMembers own msg
  | .countReaders own msg expectedRecipients => a.countingReaders own msg expectedRecipients
  | .countReceivers own msg expectedRecipients readCount _ =>
      a.countingReceivers own msg expectedRecipients readCount
  | .setStatus own msg status deliveredCount readCount _ =>
      a.setting own msg status deliveredCount readCount
  | .tellSender own msg status deliveredCount readCount =>
      a.telling own msg status deliveredCount readCount
  | .answered outcome => pure outcome

/-- Working out the status, and the answer. -/
theorem aggregateReceipts_bind (own : List Push) (msg : MessageRow) :
    (aggregateReceipts a.conn msg >>= fun told => pure (a.accepted own told)) =
      a.countingMembers own msg := by
  have hdecided : ∀ expectedRecipients readCount deliveredCount,
      ((match aggregatedStatus expectedRecipients readCount deliveredCount with
        | none => return []
        | some status =>
            if status.status = msg.status then return []
            else syncStatus a.conn msg status deliveredCount readCount : Prog Db (List Push)) >>=
          fun told => pure (a.accepted own told)) =
        match aggregatedStatus expectedRecipients readCount deliveredCount with
        | none => return a.accepted own []
        | some status =>
            if status.status = msg.status then return a.accepted own []
            else a.setting own msg status deliveredCount readCount := by
    intro expectedRecipients readCount deliveredCount
    cases aggregatedStatus expectedRecipients readCount deliveredCount with
    | none => rfl
    | some status =>
        dsimp only
        split <;> rfl
  refine congrArg (Prog.stmt id) (funext fun db => ?_)
  refine congrArg (Prog.stmt id) (funext fun db' => ?_)
  exact congrArg (Prog.stmt id) (funext fun db'' => hdecided _ _ _)

theorem processAckMessageRequest_eq :
    processAckMessageRequest a.requestId a.conn a.request = (AckPhase.start a).rest a := by
  unfold AckPhase.start
  by_cases hid : a.messageId ≤ 0
  · rw [if_pos hid]
    exact if_pos hid
  · rw [if_neg hid]
    refine (if_neg hid).trans ?_
    show (match Receipt.ofText a.status with
      | none => _
      | some receipt => _) = _
    cases Receipt.ofText a.status with
    | none => rfl
    | some receipt =>
        refine congrArg (Prog.stmt id) (funext fun db => ?_)
        show (match db.getMessage a.messageId with
          | none => _
          | some msg => _) = (match db.getMessage a.messageId with
          | none => pure (a.reject .messageNotFound "Message not found")
          | some msg => a.authorizing receipt msg)
        cases db.getMessage a.messageId with
        | none => rfl
        | some msg =>
            refine congrArg (Prog.stmt id) (funext fun db' => ?_)
            show (if _ then _ else _) = (if _ then _ else _)
            split
            · rfl
            · refine congrArg (Prog.stmt _) (funext fun _ => ?_)
              cases receipt with
              | delivered => exact aggregateReceipts_bind a [] msg
              | read =>
                  refine congrArg (Prog.stmt _) (funext fun _ => ?_)
                  refine congrArg (Prog.stmt _) (funext fun _ => ?_)
                  exact aggregateReceipts_bind a _ msg

/-- **The steps of an acknowledgement** are the statements of
`processAckMessageRequest`. -/
theorem AckPhase.tells (phase : AckPhase) :
    Prog.Tells (fun db phase => phase.step a db) (AckPhase.rest a) phase := by
  cases phase with
  | getMessage receipt =>
      refine .inr ⟨_, _, rfl, fun db => ⟨rfl, ?_⟩⟩
      unfold AckPhase.step
      dsimp only
      cases db.getMessage a.messageId <;> rfl
  | isMember receipt msg =>
      refine .inr ⟨_, _, rfl, fun db => ⟨rfl, ?_⟩⟩
      show AckPhase.rest a
          (if !db.isConversationMember msg.conversationId a.conn.authenticatedUserId then
            .answered (a.reject .permissionDenied "Not a member of this conversation")
          else .recordReceipt receipt msg) =
        if !db.isConversationMember msg.conversationId a.conn.authenticatedUserId then
          pure (a.reject .permissionDenied "Not a member of this conversation")
        else a.recording receipt msg
      split <;> rfl
  | recordReceipt receipt msg =>
      refine .inr ⟨_, _, rfl, fun db => ⟨rfl, ?_⟩⟩
      cases receipt <;> rfl
  | moveCursor msg => exact .inr ⟨_, _, rfl, fun db => ⟨rfl, rfl⟩⟩
  | tellReader msg => exact .inr ⟨_, _, rfl, fun db => ⟨rfl, rfl⟩⟩
  | countMembers own msg => exact .inr ⟨_, _, rfl, fun db => ⟨rfl, rfl⟩⟩
  | countReaders own msg expectedRecipients => exact .inr ⟨_, _, rfl, fun db => ⟨rfl, rfl⟩⟩
  | countReceivers own msg expectedRecipients readCount present =>
      refine .inr ⟨_, _, rfl, fun db => ⟨rfl, ?_⟩⟩
      unfold AckPhase.step
      show AckPhase.rest a (match aggregatedStatus expectedRecipients readCount
          (db.receiptUserCount msg.id .delivered) with
        | none => _
        | some status => _) =
        match aggregatedStatus expectedRecipients readCount
          (db.receiptUserCount msg.id .delivered) with
        | none => pure (a.accepted own [])
        | some status =>
            if status.status = msg.status then pure (a.accepted own [])
            else
              a.setting own msg status (db.receiptUserCount msg.id .delivered) readCount
      cases aggregatedStatus expectedRecipients readCount
        (db.receiptUserCount msg.id .delivered) with
      | none => rfl
      | some status =>
          dsimp only
          split <;> rfl
  | setStatus own msg status deliveredCount readCount present =>
      exact .inr ⟨_, _, rfl, fun db => ⟨rfl, rfl⟩⟩
  | tellSender own msg status deliveredCount readCount =>
      exact .inr ⟨_, _, rfl, fun db => ⟨rfl, rfl⟩⟩
  | answered outcome => exact .inl ⟨_, rfl, fun db => rfl⟩

end

end XYChat.Server
