import Mathlib.Data.List.Dedup
import Mathlib.Data.List.Sort
import XYChat.Lib.Prog
import XYChat.Lib.Table
import XYChat.Common.Envelope

/-!
# The server's database

The tables of `DatabaseManager` and the statements it runs on them. A function
of `DatabaseManager` that is one SQL statement is a function of `Db`; one that
runs several is a `Prog`, so that other connections may run in between.
-/

namespace XYChat.Server

open XYChat.Lib

/-! ## Rows -/

structure UserRow where
  id : Int
  username : String
  passwordHash : String := ""
  deriving DecidableEq, Repr

/-- `conversations.type`. -/
inductive ConversationType where
  | privateType
  | groupType
  deriving DecidableEq, Repr

structure ConversationRow where
  id : Int
  type : ConversationType
  name : String := ""
  updatedAt : Int := 0
  deriving DecidableEq, Repr

/-- `conversation_members.role`. -/
inductive MemberRole where
  | owner
  | admin
  | member
  deriving DecidableEq, Repr

structure MemberRow where
  id : Int
  conversationId : Int
  userId : Int
  role : MemberRole := .member
  joinedAt : Int := 0
  lastReadMessageId : Int := 0
  pinned : Bool := false
  muted : Bool := false
  deriving DecidableEq, Repr

/-- `ORDER BY joined_at, user_id`. -/
def MemberRow.joinedBefore (a b : MemberRow) : Bool :=
  a.joinedAt < b.joinedAt || (a.joinedAt == b.joinedAt && a.userId ≤ b.userId)

/-- `messages.status`. -/
inductive MessageStatus where
  | sent
  | delivered
  | read
  deriving DecidableEq, Repr

def MessageStatus.text : MessageStatus → String
  | .sent => "sent"
  | .delivered => "delivered"
  | .read => "read"

/-- A row of `messages`; a NULL column is `none`. -/
structure MessageRow where
  id : Int
  conversationId : Int
  senderId : Int
  content : String
  contentType : String
  status : MessageStatus := .sent
  createdAt : Int := 0
  clientMessageId : Option String := none
  senderDeviceId : Option String := none
  editedAt : Option Int := none
  deleted : Bool := false
  deriving DecidableEq, Repr

structure SyncEventRow where
  seq : Int
  userId : Int
  eventType : String
  payload : Json
  createdAt : Int := 0

/-- A row of `message_receipts`. -/
structure ReceiptRow where
  id : Int
  messageId : Int
  userId : Int
  deviceId : String
  deliveredAt : Option Int := none
  readAt : Option Int := none
  deriving DecidableEq, Repr

structure ContactRow where
  id : Int
  userId : Int
  contactUserId : Int
  createdAt : Int := 0
  deriving DecidableEq, Repr

structure DeviceRow where
  id : Int
  userId : Int
  deviceId : String
  deviceName : String := ""
  platform : String := ""
  createdAt : Int := 0
  lastSeenAt : Int := 0
  deriving DecidableEq, Repr

/-- A row of `device_identity_keys`. -/
structure IdentityKeyRow where
  id : Int
  userId : Int
  deviceId : String
  identityPub : String
  deriving DecidableEq, Repr

/-- `prekeys.status`. -/
inductive PrekeyStatus where
  | unused
  | claimed
  | used
  deriving DecidableEq, Repr

structure PrekeyRow where
  id : Int
  userId : Int
  deviceId : String
  pub : String
  status : PrekeyStatus := .unused
  claimedAt : Option Int := none
  deriving DecidableEq, Repr

instance : Keyed UserRow := ⟨UserRow.id⟩
instance : Keyed ConversationRow := ⟨ConversationRow.id⟩
instance : Keyed MemberRow := ⟨MemberRow.id⟩
instance : Keyed MessageRow := ⟨MessageRow.id⟩
instance : Keyed SyncEventRow := ⟨SyncEventRow.seq⟩
instance : Keyed ReceiptRow := ⟨ReceiptRow.id⟩
instance : Keyed ContactRow := ⟨ContactRow.id⟩
instance : Keyed DeviceRow := ⟨DeviceRow.id⟩
instance : Keyed IdentityKeyRow := ⟨IdentityKeyRow.id⟩
instance : Keyed PrekeyRow := ⟨PrekeyRow.id⟩

@[simp] theorem key_userRow (r : UserRow) : key r = r.id := rfl
@[simp] theorem key_conversationRow (r : ConversationRow) : key r = r.id := rfl
@[simp] theorem key_memberRow (r : MemberRow) : key r = r.id := rfl
@[simp] theorem key_messageRow (r : MessageRow) : key r = r.id := rfl
@[simp] theorem key_syncEventRow (r : SyncEventRow) : key r = r.seq := rfl
@[simp] theorem key_receiptRow (r : ReceiptRow) : key r = r.id := rfl
@[simp] theorem key_contactRow (r : ContactRow) : key r = r.id := rfl
@[simp] theorem key_deviceRow (r : DeviceRow) : key r = r.id := rfl
@[simp] theorem key_identityKeyRow (r : IdentityKeyRow) : key r = r.id := rfl
@[simp] theorem key_prekeyRow (r : PrekeyRow) : key r = r.id := rfl

/-- The tables, the watermark of `sync_meta`, and the clock that
`datetime('now')` and the handlers read. -/
structure Db where
  now : Int := 0
  users : Table UserRow := .empty
  conversations : Table ConversationRow := .empty
  conversationMembers : Table MemberRow := .empty
  messages : Table MessageRow := .empty
  messageReceipts : Table ReceiptRow := .empty
  contacts : Table ContactRow := .empty
  syncEvents : Table SyncEventRow := .empty
  devices : Table DeviceRow := .empty
  deviceIdentityKeys : Table IdentityKeyRow := .empty
  prekeys : Table PrekeyRow := .empty
  prunedBelowSeq : Int := 0

namespace Db

/-! ## Users -/

def userExists (db : Db) (username : String) : Bool := db.users.rows.any (·.username == username)

def getUserByUsername (db : Db) (username : String) : Option UserRow :=
  db.users.rows.find? (·.username == username)

/-- `registerUser`; `none` is -1: the name is taken. -/
def registerUser (username passwordHash : String) (db : Db) : Db × Option Int :=
  if db.userExists username then (db, none)
  else
    ({ db with users := db.users.insert fun id => { id, username, passwordHash } },
      some (db.users.lastId + 1))

/-! ## Conversations -/

def getConversation (db : Db) (conversationId : Int) : Option ConversationRow :=
  db.conversations.get conversationId

def isConversationMember (db : Db) (conversationId userId : Int) : Bool :=
  db.conversationMembers.rows.any fun m => m.conversationId == conversationId && m.userId == userId

/-- `getGroupMemberIds` and `getConversationMemberIds`, which run the same
statement. -/
def getConversationMemberIds (db : Db) (conversationId : Int) : List Int :=
  ((db.conversationMembers.rows.filter fun m => m.conversationId == conversationId).insertionSort
    fun a b => a.joinedBefore b).map (·.userId)

def usernameById (db : Db) (userId : Int) : String :=
  ((db.users.get userId).map (·.username)).getD ""

/-- The join of `getOrCreatePrivateConversation`: a private conversation that
has both users as members. -/
def findPrivateConversation (db : Db) (userId1 userId2 : Int) : Option Int :=
  ((db.conversationMembers.rows.find? fun cm1 =>
    cm1.userId == userId1
      && (db.isConversationMember cm1.conversationId userId2)
      && ((db.getConversation cm1.conversationId).map (·.type)) == some .privateType)).map
    (·.conversationId)

def insertConversation (type : ConversationType) (db : Db) : Db × Int :=
  ({ db with conversations := db.conversations.insert fun id => { id, type, updatedAt := db.now } },
    db.conversations.lastId + 1)

/-- `INSERT INTO conversation_members`: fails without a row when a foreign key
or the unique pair does. -/
def insertMember (conversationId userId : Int) (role : MemberRole) (db : Db) : Db × Bool :=
  if (db.getConversation conversationId).isSome && (db.users.get userId).isSome
      && !db.isConversationMember conversationId userId then
    ({ db with conversationMembers :=
        db.conversationMembers.insert fun id =>
          { id, conversationId, userId, role, joinedAt := db.now } }, true)
  else (db, false)

def touchConversation (conversationId : Int) (db : Db) : Db :=
  { db with
    conversations :=
      db.conversations.update (·.id == conversationId) fun c => { c with updatedAt := db.now } }

/-! ## Messages -/

def getMessageByClientKey (db : Db) (senderId : Int) (senderDeviceId clientMessageId : String) :
    Option MessageRow :=
  if clientMessageId = "" then none
  else db.messages.rows.find? fun m =>
    m.senderId == senderId && m.senderDeviceId == some senderDeviceId
      && m.clientMessageId == some clientMessageId

/-- `getMessage`: the row joined with its sender's. -/
def getMessage (db : Db) (messageId : Int) : Option MessageRow :=
  (db.messages.get messageId).filter fun m => (db.users.get m.senderId).isSome

/-- An empty string is bound as NULL. -/
def nullable (s : String) : Option String := if s = "" then none else some s

/-- The `INSERT` of `sendMessage`: `none` when a foreign key fails or the unique
index on (sender, device, client id) already holds the key. -/
def insertMessage (conversationId senderId : Int) (content contentType clientMessageId
    senderDeviceId : String) (db : Db) : Db × Option Int :=
  if (db.getConversation conversationId).isSome && (db.users.get senderId).isSome
      && (db.getMessageByClientKey senderId senderDeviceId clientMessageId).isNone then
    ({ db with messages := db.messages.insert fun id =>
        { id, conversationId, senderId, content, contentType
          createdAt := db.now
          clientMessageId := nullable clientMessageId
          senderDeviceId := nullable senderDeviceId } },
      some (db.messages.lastId + 1))
  else (db, none)

/-- `editMessage`: true when a row was changed. -/
def editMessage (messageId : Int) (content contentType : String) (db : Db) : Db × Bool :=
  if messageId ≤ 0 ∨ content = "" ∨ contentType = "" then (db, false)
  else
    ({ db with
        messages := db.messages.update (fun m => m.id == messageId && !m.deleted) fun m =>
          { m with content := content, contentType := contentType, editedAt := some db.now } },
      ((db.messages.get messageId).map fun m => !m.deleted).getD false)

/-- `deleteMessage`: leaves a tombstone. -/
def deleteMessage (messageId : Int) (db : Db) : Db × Bool :=
  if messageId ≤ 0 then (db, false)
  else
    ({ db with
        messages := db.messages.update (·.id == messageId) fun m =>
          { m with deleted := true, content := "" } }, true)

/-! ## Synchronisation events -/

/-- `appendSyncEvent`: fails without a row when the user does not exist. -/
def appendSyncEvent (userId : Int) (eventType : String) (payload : Json) (db : Db) : Db :=
  if (db.users.get userId).isSome then
    { db with
      syncEvents := db.syncEvents.insert fun seq =>
        { seq, userId, eventType, payload, createdAt := db.now } }
  else db

/-- `getSyncEvents`: a page of a user's events after a cursor. -/
def getSyncEvents (db : Db) (userId afterSeq : Int) (limit : Nat) : List SyncEventRow :=
  (db.syncEvents.rows.filter fun e => e.userId == userId && afterSeq < e.seq).take limit

def maxSyncEventSeq (db : Db) : Int := (db.syncEvents.rows.getLast?.map (·.seq)).getD 0

/-- `created_at < datetime('now', '-N days')`. -/
def isExpired (db : Db) (retentionDays : Int) (e : SyncEventRow) : Bool :=
  e.createdAt < db.now - 86400 * retentionDays

/-- The largest seq among the expired events, 0 when there are none. -/
def expiredCutoff (db : Db) (retentionDays : Int) : Int :=
  (((db.syncEvents.rows.filter (db.isExpired retentionDays)).getLast?).map (·.seq)).getD 0

/-- `DELETE` of the expired events; the result is how many went. -/
def deleteExpired (retentionDays : Int) (db : Db) : Db × Nat :=
  ({ db with syncEvents := db.syncEvents.delete (db.isExpired retentionDays) },
    db.syncEvents.rows.countP (db.isExpired retentionDays))

/-- The `UPDATE` of the watermark, which only raises it. -/
def raisePruned (cutoffSeq : Int) (db : Db) : Db :=
  { db with prunedBelowSeq := max db.prunedBelowSeq cutoffSeq }

/-! ## Devices -/

/-- `registerDevice`: a device is one row, which is rewritten where there is one. -/
def registerDevice (userId : Int) (deviceId deviceName platform : String) (db : Db) : Db :=
  let conflicts (d : DeviceRow) := d.userId == userId && d.deviceId == deviceId
  if db.devices.rows.any conflicts then
    { db with
      devices := db.devices.update conflicts fun d =>
        { d with lastSeenAt := db.now, deviceName, platform } }
  else if (db.users.get userId).isSome then
    { db with
      devices := db.devices.insert fun id =>
        { id, userId, deviceId, deviceName, platform, createdAt := db.now, lastSeenAt := db.now } }
  else db

/-- It leaves the other tables alone. -/
theorem registerDevice_eq (userId : Int) (deviceId deviceName platform : String) (db : Db) :
    ∃ devices, db.registerDevice userId deviceId deviceName platform = { db with devices } := by
  unfold registerDevice
  dsimp only
  split
  · exact ⟨_, rfl⟩
  · split
    · exact ⟨_, rfl⟩
    · exact ⟨db.devices, rfl⟩

/-- The devices of a user, the one seen last first. -/
def getDevicesByUserId (db : Db) (userId : Int) : List DeviceRow :=
  (db.devices.rows.filter (·.userId == userId)).insertionSort fun a b =>
    b.lastSeenAt ≤ a.lastSeenAt

def getIdentityKeysByUser (db : Db) (userId : Int) : List IdentityKeyRow :=
  db.deviceIdentityKeys.rows.filter (·.userId == userId)

/-- The identity key of a device, as `upsertIdentityKey` looks it up. -/
def identityPub (db : Db) (userId : Int) (deviceId : String) : Option String :=
  (db.deviceIdentityKeys.rows.find? fun k => k.userId == userId && k.deviceId == deviceId).map
    (·.identityPub)

/-- `DELETE` of the prekeys of a device that were not used. -/
def purgePrekeys (userId : Int) (deviceId : String) (db : Db) : Db :=
  { db with
    prekeys := db.prekeys.delete fun p =>
      p.userId == userId && p.deviceId == deviceId && p.status != .used }

/-- `INSERT INTO device_identity_keys ... ON CONFLICT`: fails without the user. -/
def setIdentityKey (userId : Int) (deviceId identityPub : String) (db : Db) : Db × Bool :=
  if (db.users.get userId).isNone then (db, false)
  else if (db.identityPub userId deviceId).isSome then
    ({ db with
        deviceIdentityKeys :=
          db.deviceIdentityKeys.update (fun k => k.userId == userId && k.deviceId == deviceId)
            fun k => { k with identityPub := identityPub } }, true)
  else
    ({ db with
        deviceIdentityKeys :=
          db.deviceIdentityKeys.insert fun id => { id, userId, deviceId, identityPub } }, true)

/-! ## Prekeys -/

/-- The insertions of `uploadPrekeys`: empty keys are skipped. -/
def insertPrekeys (userId : Int) (deviceId : String) : List String → Db → Db × Nat
  | [], db => (db, 0)
  | pub :: pubs, db =>
      if pub = "" then insertPrekeys userId deviceId pubs db
      else
        let (db, inserted) := insertPrekeys userId deviceId pubs
          { db with prekeys := db.prekeys.insert fun id => { id, userId, deviceId, pub } }
        (db, inserted + 1)

/-- `uploadPrekeys`, one transaction; `none` is -1. -/
def uploadPrekeys (userId : Int) (deviceId : String) (prekeyPubs : List String) (db : Db) :
    Db × Option Nat :=
  if deviceId = "" ∨ prekeyPubs = [] then (db, none)
  else if (db.users.get userId).isNone ∧ prekeyPubs.any (· ≠ "") then (db, none)
  else
    let (db, inserted) := insertPrekeys userId deviceId prekeyPubs db
    (db, some inserted)

def prekeyCount (db : Db) (userId : Int) (deviceId : String) : Nat :=
  db.prekeys.rows.countP fun p =>
    p.userId == userId && p.deviceId == deviceId && p.status == .unused

/-- Claims older than this are taken back. -/
def claimTimeout : Int := 600

/-- The `UPDATE` of `claimPrekeys` that takes back stale claims. -/
def reclaimPrekeys (db : Db) : Db :=
  { db with
    prekeys := db.prekeys.update
      (fun p => p.status == .claimed && p.claimedAt.any (· ≤ db.now - claimTimeout))
      fun p => { p with status := .unused, claimedAt := none } }

structure ClaimedPrekey where
  deviceId : String
  prekeyId : Int
  prekeyPub : String
  deriving DecidableEq, Repr

/-- Claim the oldest unused prekey of a device. -/
def claimPrekey (userId : Int) (deviceId : String) (db : Db) : Db × Option ClaimedPrekey :=
  match db.prekeys.rows.find? fun p =>
      p.userId == userId && p.deviceId == deviceId && p.status == .unused with
  | none => (db, none)
  | some row =>
      ({ db with
          prekeys := db.prekeys.update (·.id == row.id) fun p =>
            { p with status := .claimed, claimedAt := some db.now } },
        some { deviceId, prekeyId := row.id, prekeyPub := row.pub })

/-- The loop of `claimPrekeys` over the devices. -/
def claimDevices (userId : Int) : List String → Db → Db × List ClaimedPrekey
  | [], db => (db, [])
  | deviceId :: rest, db =>
      let (db, claimed) := claimPrekey userId deviceId db
      let (db, others) := claimDevices userId rest db
      (db, claimed.toList ++ others)

/-- The devices of a user that have unused prekeys. `SELECT DISTINCT` walks
`idx_prekeys_lookup`, so they come in the order of their names. -/
def devicesWithPrekeys (db : Db) (userId : Int) : List String :=
  (((db.prekeys.rows.filter fun p => p.userId == userId && p.status == .unused).map
    (·.deviceId)).dedup).insertionSort (· ≤ ·)

theorem nodup_devicesWithPrekeys {db : Db} {userId : Int} :
    (db.devicesWithPrekeys userId).Nodup :=
  (List.perm_insertionSort _ _).nodup_iff.mpr (List.nodup_dedup _)

theorem mem_devicesWithPrekeys {db : Db} {userId : Int} {deviceId : String} :
    deviceId ∈ db.devicesWithPrekeys userId ↔
      ∃ p ∈ db.prekeys.rows, (p.userId = userId ∧ p.status = .unused) ∧ p.deviceId = deviceId := by
  unfold devicesWithPrekeys
  rw [List.mem_insertionSort, List.mem_dedup, List.mem_map]
  simp only [List.mem_filter, Bool.and_eq_true, beq_iff_eq, and_assoc]

/-- `claimPrekeys`, one immediate transaction: take back stale claims, then
claim one prekey for each device of the user. -/
def claimPrekeys (userId : Int) (db : Db) : Db × List ClaimedPrekey :=
  let db := db.reclaimPrekeys
  claimDevices userId (db.devicesWithPrekeys userId) db

def validateClaimedPrekey (db : Db) (userId : Int) (deviceId : String) (prekeyId : Int) : Bool :=
  db.prekeys.rows.any fun p =>
    p.id == prekeyId && p.userId == userId && p.deviceId == deviceId && p.status == .claimed

/-- `consumePrekeys`: the claimed ones among the ids become used; the count is
how many did. -/
def consumePrekeys (prekeyIds : List Int) (db : Db) : Db × Nat :=
  ({ db with
      prekeys := db.prekeys.update (fun p => prekeyIds.contains p.id && p.status == .claimed)
        fun p => { p with status := .used } },
    (prekeyIds.dedup.filter fun id => (db.prekeys.get id).any (·.status == .claimed)).length)

end Db

/-! ## Functions of several statements -/

/-- `DatabaseManager::sendMessage`; `none` is -1. -/
def sendMessage (conversationId senderId : Int) (content contentType clientMessageId
    senderDeviceId : String) : Prog Db (Option Int) := do
  match ← Prog.query (·.getMessageByClientKey senderId senderDeviceId clientMessageId) with
  | some existing => return some existing.id
  | none =>
      match ← Prog.call (Db.insertMessage conversationId senderId content contentType
          clientMessageId senderDeviceId) with
      | none =>
          -- a concurrent retry may have taken the key: look again
          return (← Prog.query (·.getMessageByClientKey senderId senderDeviceId
            clientMessageId)).map (·.id)
      | some msgId => do
          Prog.update (Db.touchConversation conversationId)
          return some msgId

/-- `DatabaseManager::pruneSyncEvents`: the expired events go, and the watermark
rises to the largest of them that was found. -/
def pruneSyncEvents (retentionDays : Int) : Prog Db Nat := do
  if retentionDays ≤ 0 then return 0
  else
    let cutoffSeq ← Prog.query (·.expiredCutoff retentionDays)
    if cutoffSeq ≤ 0 then return 0
    else
      let removed ← Prog.call (Db.deleteExpired retentionDays)
      Prog.update (Db.raisePruned cutoffSeq)
      return removed

/-- `DatabaseManager::getOrCreatePrivateConversation`; `none` is -1. -/
def getOrCreatePrivateConversation (userId1 userId2 : Int) : Prog Db (Option Int) := do
  if userId1 = userId2 then return none
  match ← Prog.query (·.findPrivateConversation userId1 userId2) with
  | some convId => return some convId
  | none => do
      let convId ← Prog.call (Db.insertConversation .privateType)
      let _ ← Prog.call (Db.insertMember convId userId1 .member)
      let _ ← Prog.call (Db.insertMember convId userId2 .member)
      return some convId

end XYChat.Server
