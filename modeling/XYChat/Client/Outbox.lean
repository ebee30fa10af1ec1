import Mathlib.Data.List.Sort
import XYChat.Client.Encryption
import XYChat.Client.SenderKeys

/-!
# A user's local database

What `LocalStore` keeps on disk for the sending half of the client: the unsent
messages, the sender keys and the cursor of the event stream. A statement that
reports failure answers `none`.
-/

namespace XYChat.Client

/-! ## The outbox -/

/-- `OutboxItem`: a private message has a user, a group message a conversation. -/
structure OutboxItem where
  clientMessageId : String
  toUserId : Int
  conversationId : Int
  content : String
  deriving DecidableEq, Repr

/-- A row of `outbox`. -/
structure OutboxRow where
  clientMessageId : String
  toUserId : Int
  contentEnc : String
  createdAt : String
  conversationId : Int
  deriving DecidableEq, Repr

/-- What `loadOutbox` reads off a row. -/
def OutboxRow.item (cipher : TextCipher) (row : OutboxRow) : OutboxItem where
  clientMessageId := row.clientMessageId
  toUserId := row.toUserId
  conversationId := row.conversationId
  content := cipher.decryptText row.contentEnc

/-- One database file: `outbox` and `sender_keys` in rowid order, and `sync_seq`
of `meta`. -/
structure Database where
  outbox : List OutboxRow := []
  senderKeys : List SenderKeyRow := []
  syncCursor : Int := 0
  deriving DecidableEq, Repr

/-- The tables `clearUserData` empties, of those kept here. -/
inductive UserTable where
  | outbox
  | metaTable
  deriving DecidableEq, Repr

namespace Database

/-- `LocalStore::addOutboxItem` on a usable store: `INSERT OR REPLACE`. -/
def addOutboxItem (cipher : TextCipher) (r : Nat) (createdAt : String) (item : OutboxItem)
    (db : Database) : Option Database :=
  if item.clientMessageId = "" ∨ (item.toUserId ≤ 0 ∧ item.conversationId ≤ 0) then none
  else
    let enc := cipher.encryptText r item.content
    if enc = "" then none
    else
      let row : OutboxRow :=
        { clientMessageId := item.clientMessageId
          toUserId := item.toUserId
          contentEnc := enc
          createdAt
          conversationId := item.conversationId }
      some { db with outbox :=
        db.outbox.filter (·.clientMessageId != item.clientMessageId) ++ [row] }

/-- `LocalStore::removeOutboxItem`. -/
def removeOutboxItem (clientMessageId : String) (db : Database) : Option Database :=
  if clientMessageId = "" then none
  else some { db with outbox := db.outbox.filter (·.clientMessageId != clientMessageId) }

/-- `LocalStore::loadOutbox`, `ORDER BY created_at`. -/
def loadOutbox (cipher : TextCipher) (db : Database) : List OutboxItem :=
  ((db.outbox.insertionSort fun a b => a.createdAt ≤ b.createdAt).map (·.item cipher)).filter
    fun item => item.clientMessageId != "" && (0 < item.toUserId || 0 < item.conversationId)
      && item.content != ""

/-- One `DELETE` of `LocalStore::clearUserData`. -/
def clearTable (db : Database) : UserTable → Database
  | .outbox => { db with outbox := [] }
  | .metaTable => { db with syncCursor := 0 }

/-! ## The own sender keys -/

/-- `LocalStore::latestSenderKeyId`; empty where there is none. -/
def latestSenderKeyId (db : Database) (groupId senderUserId : Int) (senderDeviceId : String) :
    String :=
  if groupId ≤ 0 ∨ senderUserId ≤ 0 ∨ senderDeviceId = "" then ""
  else
    match (db.senderKeys.filter fun row => row.groupId == groupId
      && row.senderUserId == senderUserId && row.senderDeviceId == senderDeviceId).getLast? with
    | none => ""
    | some row => row.keyId

/-- `LocalStore::loadSenderKey`: the key with what of it could be decrypted. -/
def loadSenderKey (qt : Qt) (cipher : TextCipher) (db : Database) (groupId senderUserId : Int)
    (senderDeviceId keyId : String) : Option GroupE2eeCrypto.SenderKey :=
  if groupId ≤ 0 ∨ senderUserId ≤ 0 ∨ senderDeviceId = "" ∨ keyId = "" then none
  else
    match db.senderKeys.find? fun row => row.groupId == groupId
      && row.senderUserId == senderUserId && row.senderDeviceId == senderDeviceId
      && row.keyId == keyId with
    | none => none
    | some row =>
        let chainB64 := cipher.decryptText row.chainKeyEnc
        let privateB64 := cipher.decryptText row.privateSigningKeyEnc
        if chainB64 = "" then none
        else
          let key : GroupE2eeCrypto.SenderKey :=
            { keyId
              chainKey := qt.fromBase64 chainB64
              publicSigningKey := qt.fromBase64 row.publicSigningKey
              privateSigningKey := if privateB64 = "" then [] else qt.fromBase64 privateB64
              iteration := row.iteration }
          if key.chainKey.length = 32 ∧ key.publicSigningKey.length = 32 then some key else none

/-- `LocalStore::removeSenderKeysForGroup`. -/
def removeSenderKeysForGroup (groupId : Int) (db : Database) : Option Database :=
  if groupId ≤ 0 then none
  else some { db with senderKeys := db.senderKeys.filter (·.groupId != groupId) }

/-- `LocalStore::setSyncCursor`. -/
def setSyncCursor (seq : Int) (db : Database) : Option Database :=
  if seq < 0 then none else some { db with syncCursor := seq }

end Database

/-! ## Files -/

/-- `LocalStore::dbFilePath`, below its directory. -/
def dbFilePath (username deviceId : String) : String := username ++ "_" ++ deviceId ++ ".db"

theorem dbFilePath_inj {username username' deviceId : String}
    (h : dbFilePath username deviceId = dbFilePath username' deviceId) : username = username' := by
  have hlist := congrArg String.toList h
  simp only [dbFilePath, String.toList_append, List.append_assoc] at hlist
  exact String.toList_inj.mp (List.append_cancel_right hlist)

/-! ## What the statements do to the outbox -/

section

variable {cipher : TextCipher} {db db' : Database}

theorem addOutboxItem_outbox {r : Nat} {createdAt : String} {item : OutboxItem}
    (h : db.addOutboxItem cipher r createdAt item = some db') {row : OutboxRow}
    (hrow : row ∈ db'.outbox) :
    row ∈ db.outbox ∨ (row.contentEnc = cipher.encryptText r item.content ∧
      row.clientMessageId = item.clientMessageId ∧ row.toUserId = item.toUserId ∧
      row.conversationId = item.conversationId) := by
  unfold Database.addOutboxItem at h
  split at h
  · cases h
  · dsimp only at h
    split at h
    · cases h
    · obtain rfl := Option.some.inj h
      rcases List.mem_append.mp hrow with hrow | hrow
      · exact .inl (List.mem_filter.mp hrow).1
      · obtain rfl := List.mem_singleton.mp hrow
        exact .inr ⟨rfl, rfl, rfl, rfl⟩

theorem mem_loadOutbox {item : OutboxItem} (h : item ∈ db.loadOutbox cipher) :
    ∃ row ∈ db.outbox, row.item cipher = item := by
  obtain ⟨row, hrow, rfl⟩ := List.mem_map.mp (List.mem_filter.mp h).1
  exact ⟨row, (List.mem_insertionSort _).mp hrow, rfl⟩

end

end XYChat.Client
