import XYChat.Client.Outbox
import XYChat.Common.Packet
import XYChat.Common.PacketCodec

/-!
# The sending client

`NetworkManager` as far as it signs in and out, keeps the outbox and its own
sender keys, and sends. One operation is one slot call of the Qt event loop: a
user's action, a packet, a socket event or a timer. What the outside decides
meanwhile (which disk accesses fail, what is drawn at random) comes with the
operation; a timer may fire at any time.
-/

namespace XYChat.Client

open E2eeCrypto (KeyPair)
open GroupE2eeCrypto (SenderKey)

/-! ## Requests -/

/-- A request the client sends. A send carries beside its content what the
content was made of: the outbox item, or the distribution. -/
inductive Request where
  | login (username password deviceId : String)
  | register (username password email phone : String)
  | logout
  | tokenRenew (token : String)
  | registerKeys (identityPub : String) (prekeys : List String)
  | fetchKeys (userId : Int)
  | fetchGroupKeys (conversationId : Int)
  | sendPrivate (item : OutboxItem) (envelope : String)
  | sendGroup (item : OutboxItem) (envelope keyId : String)
  | sendDistribution (conversationId : Int) (clientMessageId content : String)
      (dist : GroupE2eeCrypto.Distribution)
  | editMessage (messageId conversationId : Int) (content contentType : String)
  | getConversations
  | syncEvents (afterSeq : Int)

namespace Request

def messageType : Request → MessageType
  | .login .. => .loginRequest
  | .register .. => .registerRequest
  | .logout => .logoutRequest
  | .tokenRenew .. => .tokenRenewRequest
  | .registerKeys .. => .registerKeysRequest
  | .fetchKeys .. => .fetchKeysRequest
  | .fetchGroupKeys .. => .fetchGroupKeysRequest
  | .sendPrivate .. => .sendMessageRequest
  | .sendGroup .. => .sendMessageRequest
  | .sendDistribution .. => .sendMessageRequest
  | .editMessage .. => .editMessageRequest
  | .getConversations => .getConversationsRequest
  | .syncEvents .. => .syncEventsRequest

/-- The members of the request's object, before the replay protection. -/
def members : Request → List (String × Json)
  | .login username password deviceId =>
      [ ("type", .str "login"), ("username", .str username), ("password", .str password)
      , ("clientVersion", .str "0.2.0"), ("deviceId", .str deviceId) ]
  | .register username password email phone =>
      [ ("type", .str "register"), ("username", .str username), ("password", .str password)
      , ("email", .str email), ("phone", .str phone) ]
  | .logout => [("type", .str "logout")]
  | .tokenRenew token => [("type", .str "token_renew"), ("token", .str token)]
  | .registerKeys identityPub prekeys =>
      [ ("type", .str "register_keys"), ("identityPub", .str identityPub) ]
        ++ if prekeys = [] then [] else [("prekeys", .arr (prekeys.map .str))]
  | .fetchKeys userId => [("type", .str "fetch_keys"), ("userId", .int userId)]
  | .fetchGroupKeys conversationId =>
      [("type", .str "fetch_group_keys"), ("conversationId", .int conversationId)]
  | .sendPrivate item envelope =>
      [ ("type", .str "send_message"), ("toUserId", .int item.toUserId)
      , ("content", .str envelope), ("contentType", .str "text")
      , ("clientMessageId", .str item.clientMessageId) ]
  | .sendGroup item envelope _ =>
      [ ("type", .str "send_message"), ("conversationId", .int item.conversationId)
      , ("content", .str envelope), ("contentType", .str "e2ee_group")
      , ("clientMessageId", .str item.clientMessageId) ]
  | .sendDistribution conversationId clientMessageId content _ =>
      [ ("type", .str "send_message"), ("conversationId", .int conversationId)
      , ("content", .str content), ("contentType", .str "sender_key_distribution")
      , ("clientMessageId", .str clientMessageId) ]
  | .editMessage messageId _ content contentType =>
      [ ("type", .str "edit_message"), ("messageId", .int messageId)
      , ("content", .str content), ("contentType", .str contentType) ]
  | .getConversations => [("type", .str "get_conversations")]
  | .syncEvents afterSeq =>
      [("type", .str "sync_events"), ("afterSeq", .int afterSeq), ("limit", .int 100)]

/-- The outbox item a `send_message` request carries. -/
def item? : Request → Option OutboxItem
  | .sendPrivate item _ => some item
  | .sendGroup item _ _ => some item
  | _ => none

end Request

/-- A written request: on which connection, under which id, and as whom the
client was signed in. -/
structure Sent where
  connection : Nat
  requestId : Nat
  account : Option String
  request : Request

/-! ## The outside -/

/-- The installation: `QSysInfo::machineUniqueId` in hex, each user's storage
key, and whether `connectToServer` may connect (TLS, or the development
override). -/
structure Host where
  machineUniqueId : String
  cipher : String → TextCipher
  mayConnect : Bool := true

/-- An access to the local database. -/
inductive DiskCall where
  | openDatabase (username : String)
  | addOutboxItem (clientMessageId : String)
  | removeOutboxItem (clientMessageId : String)
  | loadOutbox
  | clearTable (table : UserTable)
  | loadSenderKey (conversationId : Int)
  | saveSenderKey (conversationId : Int)
  | removeSenderKeys (conversationId : Int)
  | readSyncCursor
  | setSyncCursor
  deriving DecidableEq, Repr

/-- It succeeds, it fails, or it finds the connection lost and cannot reopen
it, which closes the store. -/
inductive DiskOutcome where
  | done
  | failed
  | lost
  deriving DecidableEq, Repr

/-- What `bootstrapE2ee` ends up with: the identity key it loads or generates,
the prekeys it loads or generates and the public parts it uploads. -/
structure Registration where
  identityKey : KeyPair := {}
  localPrekeys : List KeyPair := []
  prekeys : List String := []

/-- What the outside decides during one operation: the disk, the clock, the
random values, and the order in which a set of ids is iterated. -/
structure Outside where
  disk : DiskCall → DiskOutcome := fun _ => .done
  now : Int := 0
  nonce : String := ""
  registration : Registration := {}
  /-- For each text that is encrypted for the local database. -/
  storageIv : Nat := 0
  /-- For each group message, by the client's id. -/
  groupIv : String → Bytes := fun _ => []
  draw : Int → Nat → Drawn := fun _ _ => ⟨{}, []⟩
  generatedKey : SenderKey := {}
  uuid : String := ""
  order : Int → Nat := fun _ => 0

/-! ## State -/

inductive ConnectionState where
  | disconnected
  | connecting
  | connected
  | loggingIn
  | authenticated
  deriving DecidableEq, Repr

/-- The account an open `LocalStore` belongs to. -/
structure StoreHandle where
  username : String
  deviceId : String
  deriving DecidableEq, Repr

def StoreHandle.path (handle : StoreHandle) : String :=
  dbFilePath handle.username handle.deviceId

/-- The members of `NetworkManager`, the database files, and two things that
are history: what was written to the sockets, and for whom each outbox item was
enqueued. -/
structure NetworkManager where
  state : ConnectionState := .disconnected
  connection : Nat := 0
  nextRequestId : Nat := 1
  pendingLoginRequestId : Nat := 0
  pendingRegisterRequestId : Nat := 0
  pendingTokenRenewRequestId : Nat := 0
  pendingUsername : String := ""
  pendingPassword : String := ""
  pendingRegisterPassword : String := ""
  pendingEmail : String := ""
  pendingPhone : String := ""
  loginQueued : Bool := false
  registerQueued : Bool := false
  reconnectEnabled : Bool := false
  sessionToken : String := ""
  userId : Int := 0
  username : String := ""
  sessionExpiredNotified : Bool := false
  localDeviceId : String := ""
  identityKey : KeyPair := {}
  localPrekeys : List KeyPair := []
  e2eeReady : Bool := false
  e2eeBootstrapPending : Bool := false
  pendingRegisterKeysRequestId : Nat := 0
  pendingFetchKeysRequestId : Nat := 0
  fetchKeysTargetUserId : Int := 0
  fetchBackoffUntil : List (Int × Int) := []
  pendingFetchGroupKeysRequestId : Nat := 0
  fetchGroupKeysTargetConvId : Int := 0
  pendingGroupDistributions : List String := []
  groupSenderKeys : List (Int × SenderKey) := []
  healQueue : List Int := []
  pendingEditMessageId : Int := 0
  pendingEditConversationId : Int := 0
  pendingEditPeerUserId : Int := 0
  pendingEditContent : String := ""
  pendingEditMessageRequestId : Nat := 0
  pendingSyncEventsRequestId : Nat := 0
  outbox : List OutboxItem := []
  pendingSendByRequestId : List (Nat × String) := []
  outboxFlushScheduled : Bool := false
  localStore : Option StoreHandle := none
  disk : String → Database := fun _ => {}
  sent : List Sent := []
  enqueued : List (OutboxItem × String) := []

namespace NetworkManager

/-- The user the client is signed in as. -/
def account (s : NetworkManager) : Option String :=
  if s.state = .authenticated then some s.username else none

/-- The user a new outbox item is for: the signed-in one, else the one a login
is pending for. -/
def outboxUser (s : NetworkManager) : String :=
  if s.state = .authenticated then s.username else s.pendingUsername

section

variable (qt : Qt) (crypto : Crypto) (host : Host) (o : Outside)

/-! ## Packets -/

/-- `addReplayProtection`, on the members: the token goes along only when the
client is signed in. -/
def addReplayProtection (s : NetworkManager) (members : List (String × Json)) : Json :=
  .obj (members ++ [("timestamp", .int o.now), ("nonce", .str o.nonce)]
    ++ if s.state = .authenticated ∧ s.sessionToken ≠ "" then [("token", .str s.sessionToken)]
      else [])

/-- Send a request under the next id. `sendPacket` drops what cannot be encoded. -/
def sendPacket (s : NetworkManager) (request : Request) : NetworkManager :=
  let frame := Protocol.encode
    { messageType := UInt16.ofNat request.messageType.code
      requestId := UInt64.ofNat s.nextRequestId
      payload := toUtf8 (qt.toJson (s.addReplayProtection o request.members)) }
  { s with
    nextRequestId := s.nextRequestId + 1
    sent :=
      if frame = [] then s.sent
      else s.sent ++ [⟨s.connection, s.nextRequestId, s.account, request⟩] }

/-! ## The local store -/

/-- `LocalStore::open`; a store that is open stays as it is. -/
def openDatabase (s : NetworkManager) (username deviceId : String) : NetworkManager :=
  if s.localStore.isSome then s
  else if username = "" ∨ deviceId = "" then s
  else if o.disk (.openDatabase username) = .done then
    { s with localStore := some ⟨username, deviceId⟩ }
  else s

/-- A writing access to the local store, with what it does to the database. -/
def write (s : NetworkManager) (call : DiskCall)
    (statement : TextCipher → Database → Option Database) : NetworkManager :=
  match s.localStore with
  | none => s
  | some handle =>
      match o.disk call with
      | .lost => { s with localStore := none }
      | .failed => s
      | .done =>
          match statement (host.cipher handle.username) (s.disk handle.path) with
          | none => s
          | some db => { s with disk := Function.update s.disk handle.path db }

/-- A reading access: the database and its cipher, where it succeeds. -/
def readStore (s : NetworkManager) (call : DiskCall) : Option (TextCipher × Database) :=
  match s.localStore with
  | none => none
  | some handle =>
      if o.disk call = .done then some (host.cipher handle.username, s.disk handle.path) else none

def addOutboxItem (s : NetworkManager) (item : OutboxItem) : NetworkManager :=
  s.write host o (.addOutboxItem item.clientMessageId) fun cipher db =>
    db.addOutboxItem cipher o.storageIv (qt.isoDate o.now) item

def removeOutboxItem (s : NetworkManager) (clientMessageId : String) : NetworkManager :=
  s.write host o (.removeOutboxItem clientMessageId) fun _ db =>
    db.removeOutboxItem clientMessageId

def loadOutbox (s : NetworkManager) : List OutboxItem :=
  match s.readStore host o .loadOutbox with
  | none => []
  | some (cipher, db) => db.loadOutbox cipher

/-- `LocalStore::clearUserData`, then `close`. -/
def clearAndClose (s : NetworkManager) : NetworkManager :=
  let s := s.write host o (.clearTable .outbox) fun _ db => some (db.clearTable .outbox)
  let s := s.write host o (.clearTable .metaTable) fun _ db => some (db.clearTable .metaTable)
  { s with localStore := none }

def syncCursor (s : NetworkManager) : Int :=
  match s.readStore host o .readSyncCursor with
  | none => 0
  | some (_, db) => db.syncCursor

/-- The cursor only moves forward. -/
def advanceSyncCursor (s : NetworkManager) (seq : Int) : NetworkManager :=
  if s.syncCursor host o < seq then
    s.write host o .setSyncCursor fun _ db => db.setSyncCursor seq
  else s

/-! ## The own sender keys -/

def senderKey? (s : NetworkManager) (conversationId : Int) : Option SenderKey :=
  s.groupSenderKeys.lookup conversationId

def insertSenderKey (s : NetworkManager) (conversationId : Int) (key : SenderKey) :
    NetworkManager :=
  { s with groupSenderKeys :=
      (conversationId, key) :: s.groupSenderKeys.filter (·.1 != conversationId) }

def removeSenderKey (s : NetworkManager) (conversationId : Int) : NetworkManager :=
  { s with groupSenderKeys := s.groupSenderKeys.filter (·.1 != conversationId) }

/-- Save an own sender key where the store is open. -/
def saveOwnKey (s : NetworkManager) (conversationId : Int) (key : SenderKey) : NetworkManager :=
  s.write host o (.saveSenderKey conversationId) fun cipher db =>
    (saveSenderKey qt cipher (o.storageIv, o.storageIv + 1) conversationId s.userId s.localDeviceId
      key.keyId key.chainKey key.publicSigningKey key.privateSigningKey key.iteration
      db.senderKeys).map fun rows => { db with senderKeys := rows }

/-- The latest stored key of a conversation that the client can send under. -/
def loadOwnKey (s : NetworkManager) (conversationId : Int) : Option SenderKey :=
  match s.readStore host o (.loadSenderKey conversationId) with
  | none => none
  | some (cipher, db) =>
      let keyId := db.latestSenderKeyId conversationId s.userId s.localDeviceId
      match db.loadSenderKey qt cipher conversationId s.userId s.localDeviceId keyId with
      | none => none
      | some key => if key.privateSigningKey.length = 32 then some { key with valid := true } else none

/-- `ensureGroupSenderKey`: the key in memory, else the stored one. -/
def ensureGroupSenderKey (s : NetworkManager) (conversationId : Int) :
    NetworkManager × Option SenderKey :=
  if conversationId ≤ 0 ∨ s.userId ≤ 0 ∨ s.localDeviceId = "" then (s, none)
  else match (s.senderKey? conversationId).filter (·.valid) with
    | some key => (s, some key)
    | none =>
        match s.loadOwnKey qt host o conversationId with
        | some key => (s.insertSenderKey conversationId key, some key)
        | none => (s, none)

/-- `encryptGroupMessage`, with the id of the key; the ratcheted key is saved
before the message is returned. -/
def encryptGroupMessage (s : NetworkManager) (conversationId : Int) (iv : Bytes)
    (plaintext : String) : NetworkManager × Option (String × String) :=
  match s.ensureGroupSenderKey qt host o conversationId with
  | (s, none) => (s, none)
  | (s, some key) =>
      let (key, encrypted) := GroupE2eeCrypto.encryptMessage crypto iv key (toUtf8 plaintext)
      if encrypted.valid = false then (s, none)
      else
        let s := (s.saveOwnKey qt host o conversationId key).insertSenderKey conversationId key
        let envelope := qt.toJson (GroupE2eeCrypto.encodeGroupMessage qt encrypted s.localDeviceId)
        if envelope = "" then (s, none) else (s, some (envelope, key.keyId))

/-! ## Fetching keys -/

/-- `bootstrapE2ee` with `sendRegisterKeysRequest`. -/
def bootstrapE2ee (s : NetworkManager) : NetworkManager :=
  if s.e2eeBootstrapPending ∨ s.localDeviceId = "" ∨ s.username = "" then s
  else
    let identityKey := if s.identityKey.valid then s.identityKey else o.registration.identityKey
    if identityKey.valid = false then s
    else
      let s := { s with
        identityKey
        localPrekeys := o.registration.localPrekeys
        e2eeBootstrapPending := true
        pendingRegisterKeysRequestId := s.nextRequestId }
      s.sendPacket qt o (.registerKeys (qt.toBase64 identityKey.publicKey) o.registration.prekeys)

def sendFetchKeysRequest (s : NetworkManager) (toUserId : Int) : NetworkManager :=
  { s with
    pendingFetchKeysRequestId := s.nextRequestId
    fetchKeysTargetUserId := toUserId }.sendPacket qt o (.fetchKeys toUserId)

def sendFetchGroupKeysRequest (s : NetworkManager) (conversationId : Int) : NetworkManager :=
  if s.state ≠ .authenticated ∨ conversationId ≤ 0 then s
  else
    { s with
      pendingFetchGroupKeysRequestId := s.nextRequestId
      fetchGroupKeysTargetConvId := conversationId }.sendPacket qt o
        (.fetchGroupKeys conversationId)

/-- The least id of a set in the order it is iterated. -/
def firstOf (ids : List Int) : Option Int :=
  (ids.insertionSort fun a b => o.order a ≤ o.order b).head?

/-- `drainHealQueue`. -/
def drainHealQueue (s : NetworkManager) : NetworkManager :=
  if s.state ≠ .authenticated ∨ s.e2eeReady = false ∨ s.pendingFetchGroupKeysRequestId ≠ 0 then s
  else match firstOf o s.healQueue with
    | none => s
    | some nextConv =>
        { s with healQueue := s.healQueue.filter (· != nextConv) }.sendFetchGroupKeysRequest qt o
          nextConv

/-- `healGroupSenderKey`. -/
def healGroupSenderKey (s : NetworkManager) (conversationId : Int) : NetworkManager :=
  if conversationId ≤ 0 then s
  else if s.fetchGroupKeysTargetConvId = conversationId ∨ conversationId ∈ s.healQueue then s
  else if s.state ≠ .authenticated ∨ s.e2eeReady = false ∨ s.pendingFetchGroupKeysRequestId ≠ 0 then
    { s with healQueue := s.healQueue ++ [conversationId] }
  else s.sendFetchGroupKeysRequest qt o conversationId

/-! ## Flushing the outbox -/

/-- Remember under which id a send is in flight. -/
def noteSend (s : NetworkManager) (clientMessageId : String) : NetworkManager :=
  { s with pendingSendByRequestId :=
      s.pendingSendByRequestId ++ [(s.nextRequestId, clientMessageId)] }

/-- The loop over the group messages; `false` when it returned for a key fetch. -/
def flushGroupItems (inFlight : List String) :
    List OutboxItem → NetworkManager → NetworkManager × Bool
  | [], s => (s, true)
  | item :: rest, s =>
      if item.conversationId ≤ 0 ∨ item.clientMessageId ∈ inFlight then
        flushGroupItems inFlight rest s
      else match s.ensureGroupSenderKey qt host o item.conversationId with
        | (s, some _) =>
            match s.encryptGroupMessage qt crypto host o item.conversationId
              (o.groupIv item.clientMessageId) item.content with
            | (s, none) => flushGroupItems inFlight rest s
            | (s, some (envelope, keyId)) =>
                flushGroupItems inFlight rest
                  ((s.noteSend item.clientMessageId).sendPacket qt o
                    (.sendGroup item envelope keyId))
        | (s, none) =>
            if s.pendingFetchGroupKeysRequestId = 0 then
              (s.sendFetchGroupKeysRequest qt o item.conversationId, false)
            else flushGroupItems inFlight rest s

/-- The loop over the users with unsent messages: one key fetch at a time, none
for a user it is backing off from. -/
def flushTargets : List Int → NetworkManager → NetworkManager
  | [], s => s
  | target :: rest, s =>
      if s.pendingFetchKeysRequestId ≠ 0 then s
      else if o.now < (s.fetchBackoffUntil.lookup target).getD 0 then flushTargets rest s
      else flushTargets rest (s.sendFetchKeysRequest qt o target)

/-- The users of the private messages that are not in flight. -/
def flushedTargets (inFlight : List String) (s : NetworkManager) : List Int :=
  (((s.outbox.filter fun item => decide (item.conversationId ≤ 0)
    && decide (item.clientMessageId ∉ inFlight)).map (·.toUserId)).dedup).insertionSort
      fun a b => o.order a ≤ o.order b

/-- `flushOutbox`. -/
def flushOutbox (s : NetworkManager) : NetworkManager :=
  if s.state ≠ .authenticated then s
  else if s.e2eeReady = false then s.bootstrapE2ee qt o
  else
    let inFlight := s.pendingSendByRequestId.map (·.2)
    match flushGroupItems qt crypto host o inFlight s.outbox s with
    | (s, false) => s
    | (s, true) => flushTargets qt o (flushedTargets o inFlight s) s

/-! ## What the user does -/

/-- Open the local store for the user a new item is for. -/
def openForOutbox (s : NetworkManager) : NetworkManager :=
  s.openDatabase o s.outboxUser
    (if s.localDeviceId = "" then host.machineUniqueId else s.localDeviceId)

/-- Put an item into the local store and the outbox. -/
def enqueue (s : NetworkManager) (item : OutboxItem) : NetworkManager :=
  let user := s.outboxUser
  let s := (s.openForOutbox host o).addOutboxItem qt host o item
  { s with
    outbox := s.outbox ++ [item]
    enqueued := s.enqueued ++ [(item, user)] }

/-- `sendMessage`, under the client's id it creates. -/
def sendMessage (s : NetworkManager) (clientMessageId : String) (toUserId : Int)
    (content : String) : NetworkManager :=
  let s := s.enqueue qt host o { clientMessageId, toUserId, conversationId := 0, content }
  if s.state = .authenticated then s.flushOutbox qt crypto host o else s

/-- `sendGroupMessage`. -/
def sendGroupMessage (s : NetworkManager) (clientMessageId : String) (conversationId : Int)
    (content : String) : NetworkManager :=
  if conversationId ≤ 0 ∨ trimmed content = "" then s
  else
    let s := s.enqueue qt host o { clientMessageId, toUserId := 0, conversationId, content }
    if s.state = .authenticated then s.flushOutbox qt crypto host o else s

def clearPendingEdit (s : NetworkManager) : NetworkManager :=
  { s with
    pendingEditMessageId := 0
    pendingEditConversationId := 0
    pendingEditPeerUserId := 0
    pendingEditContent := "" }

def sendEditMessageRequest (s : NetworkManager) (messageId conversationId : Int)
    (content contentType : String) : NetworkManager :=
  { s with pendingEditMessageRequestId := s.nextRequestId }.sendPacket qt o
    (.editMessage messageId conversationId content contentType)

/-- `editMessage`. -/
def editMessage (s : NetworkManager) (conversationId peerUserId messageId : Int)
    (newContent : String) : NetworkManager :=
  if s.state ≠ .authenticated ∨ messageId ≤ 0 then s
  else if trimmed newContent = "" then s
  else
    let s := { s with
      pendingEditMessageId := messageId
      pendingEditConversationId := conversationId
      pendingEditPeerUserId := peerUserId
      pendingEditContent := newContent }
    if 0 < conversationId ∧ peerUserId = 0 then
      match s.encryptGroupMessage qt crypto host o conversationId (o.groupIv "") newContent with
      | (s, none) => s.clearPendingEdit
      | (s, some (envelope, _)) =>
          s.sendEditMessageRequest qt o messageId conversationId envelope "e2ee_group"
    else if 0 < peerUserId then s.sendFetchKeysRequest qt o peerUserId
    else s.clearPendingEdit

/-! ## Signing in and out -/

def sendLoginRequest (s : NetworkManager) : NetworkManager :=
  let s := { s with
    localDeviceId := host.machineUniqueId
    pendingLoginRequestId := s.nextRequestId }
  { s.sendPacket qt o (.login s.pendingUsername s.pendingPassword s.localDeviceId) with
    state := .loggingIn }

def sendRegisterRequest (s : NetworkManager) : NetworkManager :=
  { { s with pendingRegisterRequestId := s.nextRequestId }.sendPacket qt o
      (.register s.pendingUsername s.pendingRegisterPassword s.pendingEmail s.pendingPhone) with
    state := .loggingIn }

/-- `connectToServer`, where the client may connect. -/
def connectToServer (s : NetworkManager) : NetworkManager :=
  if s.state ≠ .disconnected then s
  else if host.mayConnect then { s with state := .connecting }
  else { s with reconnectEnabled := false, loginQueued := false,
                registerQueued := s.registerQueued && s.loginQueued }

/-- `login`. -/
def login (s : NetworkManager) (username password : String) : NetworkManager :=
  let s := { s with
    pendingUsername := username
    pendingPassword := password
    loginQueued := true
    registerQueued := false
    reconnectEnabled := true }
  if s.state = .connected ∨ s.state = .authenticated then s.sendLoginRequest qt host o
  else s.connectToServer host

/-- `registerAccount`. -/
def registerAccount (s : NetworkManager) (username password email phone : String) :
    NetworkManager :=
  let s := { s with
    pendingUsername := username
    pendingRegisterPassword := password
    pendingEmail := email
    pendingPhone := phone
    registerQueued := true
    loginQueued := false
    reconnectEnabled := false }
  if s.state = .connected ∨ s.state = .authenticated then s.sendRegisterRequest qt o
  else s.connectToServer host

/-- `logout`. -/
def logout (s : NetworkManager) : NetworkManager :=
  if s.state ≠ .authenticated then s else s.sendPacket qt o .logout

/-- `renewToken`, also from its timers. -/
def renewToken (s : NetworkManager) : NetworkManager :=
  if s.state ≠ .authenticated ∨ s.sessionToken = "" then s
  else
    { s with pendingTokenRenewRequestId := s.nextRequestId }.sendPacket qt o
      (.tokenRenew s.sessionToken)

/-- `resetAuthState`. -/
def resetAuthState (s : NetworkManager) : NetworkManager :=
  let s := { s with
    sessionToken := ""
    pendingPassword := ""
    pendingRegisterPassword := ""
    pendingTokenRenewRequestId := 0
    userId := 0
    username := ""
    pendingUsername := ""
    e2eeReady := false
    e2eeBootstrapPending := false
    pendingRegisterKeysRequestId := 0
    pendingFetchKeysRequestId := 0
    fetchKeysTargetUserId := 0
    fetchBackoffUntil := []
    pendingFetchGroupKeysRequestId := 0
    fetchGroupKeysTargetConvId := 0
    pendingGroupDistributions := []
    groupSenderKeys := []
    healQueue := []
    identityKey := {}
    localPrekeys := [] }
  if s.localStore.isSome then s.clearAndClose host o else s

/-- `notifySessionExpired`. -/
def notifySessionExpired (s : NetworkManager) : NetworkManager :=
  if s.sessionExpiredNotified then s
  else
    { { s with sessionExpiredNotified := true }.resetAuthState host o with
      loginQueued := false
      registerQueued := false
      reconnectEnabled := false
      state := .disconnected }

/-- `syncEvents`. -/
def syncEvents (s : NetworkManager) (afterSeq : Int) : NetworkManager :=
  if s.state ≠ .authenticated then s
  else
    { s with pendingSyncEventsRequestId := s.nextRequestId }.sendPacket qt o
      (.syncEvents afterSeq)

/-- `getConversations`. -/
def getConversations (s : NetworkManager) : NetworkManager :=
  if s.state ≠ .authenticated then s else s.sendPacket qt o .getConversations

/-- Take a stored item into the outbox, unless its id is there. -/
def restoreItem (s : NetworkManager) (item : OutboxItem) : NetworkManager :=
  if s.outbox.any (·.clientMessageId == item.clientMessageId) then s
  else { s with outbox := s.outbox ++ [item] }

/-- Close a store that is open for another account. -/
def closeOther (s : NetworkManager) : NetworkManager :=
  match s.localStore with
  | some handle => if handle.username ≠ s.username then s.clearAndClose host o else s
  | none => s

/-- `openLocalStore`. -/
def openLocalStore (s : NetworkManager) : NetworkManager :=
  if s.username = "" ∨ s.localDeviceId = "" then s
  else
    let s := s.closeOther host o
    let s := s.openDatabase o s.username s.localDeviceId
    if s.localStore.isNone then s
    else
      let s := (s.loadOutbox host o).foldl restoreItem s
      s.syncEvents qt o (s.syncCursor host o)

/-! ## Socket events -/

/-- `onConnected`. -/
def onConnected (s : NetworkManager) : NetworkManager :=
  let s := { s with state := .connected, connection := s.connection + 1 }
  if s.loginQueued then s.sendLoginRequest qt host o
  else if s.registerQueued then s.sendRegisterRequest qt o
  else s

/-- `onDisconnected`. -/
def onDisconnected (s : NetworkManager) : NetworkManager :=
  { s with
    pendingTokenRenewRequestId := 0
    pendingLoginRequestId := 0
    pendingSendByRequestId := []
    e2eeReady := false
    e2eeBootstrapPending := false
    pendingRegisterKeysRequestId := 0
    pendingFetchKeysRequestId := 0
    fetchKeysTargetUserId := 0
    pendingFetchGroupKeysRequestId := 0
    fetchGroupKeysTargetConvId := 0
    pendingGroupDistributions := []
    groupSenderKeys := []
    healQueue := []
    state := .disconnected
    loginQueued :=
      if s.reconnectEnabled ∧ s.pendingUsername ≠ "" then true else s.loginQueued }

/-- Give up the queued registration, else the queued login. -/
def dropQueued (s : NetworkManager) : NetworkManager :=
  if s.registerQueued then { s with registerQueued := false } else { s with loginQueued := false }

/-- `onSocketError`. -/
def onSocketError (s : NetworkManager) : NetworkManager :=
  if s.state = .connecting ∨ s.state = .loggingIn then
    { s.dropQueued with state := .disconnected }
  else s

/-- `onSslErrors`. -/
def onSslErrors (s : NetworkManager) : NetworkManager :=
  { s.dropQueued with state := .disconnected }

/-! ## Responses -/

/-- The code of a response; a missing one reads as the default. -/
def codeOf (response : Json) (default : Int) : Int := (response.value "code").toInt default

/-- `handleLoginResponse`. -/
def handleLoginResponse (s : NetworkManager) (requestId : Nat) (response : Json) :
    NetworkManager :=
  if requestId ≠ s.pendingLoginRequestId then s
  else
    let s := { s with pendingLoginRequestId := 0 }
    if codeOf response ErrorCode.internalError.code = ErrorCode.ok.code then
      let data := response.value "data"
      let s := { s with
        sessionToken := (data.value "token").toStr ""
        userId := (data.value "userId").toLongLong
        username := (data.value "username").toStr ""
        sessionExpiredNotified := false
        loginQueued := false
        state := .authenticated }
      (s.openLocalStore qt host o).flushOutbox qt crypto host o
    else { s with state := .connected }

/-- `handleRegisterResponse`: whatever the code, the client is connected. -/
def handleRegisterResponse (s : NetworkManager) (requestId : Nat) : NetworkManager :=
  if requestId ≠ s.pendingRegisterRequestId then s
  else { s with pendingRegisterRequestId := 0, registerQueued := false, state := .connected }

/-- `handleLogoutResponse`. -/
def handleLogoutResponse (s : NetworkManager) : NetworkManager :=
  { s.resetAuthState host o with reconnectEnabled := false, state := .connected }

/-- `handleTokenRenewResponse`. -/
def handleTokenRenewResponse (s : NetworkManager) (requestId : Nat) (response : Json) :
    NetworkManager :=
  if requestId ≠ s.pendingTokenRenewRequestId then s
  else
    let s := { s with pendingTokenRenewRequestId := 0 }
    let code := codeOf response ErrorCode.internalError.code
    if code = ErrorCode.ok.code then
      { s with sessionToken := ((response.value "data").value "token").toStr "" }
    else if code = ErrorCode.sessionInvalid.code ∨ code = ErrorCode.sessionExpired.code then
      s.notifySessionExpired host o
    else s

/-- `handleErrorResponse`. -/
def handleErrorResponse (s : NetworkManager) (requestId : Nat) (response : Json) :
    NetworkManager :=
  let code := codeOf response 0
  if code = ErrorCode.sessionInvalid.code ∨ code = ErrorCode.sessionExpired.code then
    s.notifySessionExpired host o
  else
    let s :=
      if requestId ≠ 0 ∧ requestId = s.pendingFetchGroupKeysRequestId then
        { s with pendingFetchGroupKeysRequestId := 0, fetchGroupKeysTargetConvId := 0 }.drainHealQueue
          qt o
      else s
    let s :=
      if requestId ≠ 0 ∧ requestId = s.pendingFetchKeysRequestId then
        { s with pendingFetchKeysRequestId := 0, fetchKeysTargetUserId := 0 }
      else s
    if requestId ≠ 0 ∧ requestId = s.pendingRegisterKeysRequestId then
      { s with pendingRegisterKeysRequestId := 0, e2eeBootstrapPending := false }
    else s

/-- `handleRegisterKeysResponse`. -/
def handleRegisterKeysResponse (s : NetworkManager) (requestId : Nat) (response : Json) :
    NetworkManager :=
  if requestId ≠ s.pendingRegisterKeysRequestId then s
  else
    let s := { s with pendingRegisterKeysRequestId := 0, e2eeBootstrapPending := false }
    if codeOf response 0 = ErrorCode.ok.code then
      ({ s with e2eeReady := true }.flushOutbox qt crypto host o).drainHealQueue qt o
    else s

/-- The timer that follows a failed registration of keys. -/
def retryBootstrap (s : NetworkManager) : NetworkManager :=
  if s.state = .authenticated ∧ s.e2eeReady = false then s.bootstrapE2ee qt o else s

/-- Remove an item from the local store and the outbox. -/
def dropItem (s : NetworkManager) (clientMessageId : String) : NetworkManager :=
  let s := s.removeOutboxItem host o clientMessageId
  { s with outbox := s.outbox.eraseP (·.clientMessageId == clientMessageId) }

/-- `handleFetchKeysResponse` on a failure. -/
def fetchKeysFailed (s : NetworkManager) (target code : Int) : NetworkManager :=
  if s.pendingEditMessageId ≠ 0 ∧ s.pendingEditPeerUserId = target then s.clearPendingEdit
  else
    let s :=
      if code = ErrorCode.cannotSendToSelf.code then
        let refused := s.outbox.filter (·.toUserId == target)
        let s := refused.foldl (fun s item => s.removeOutboxItem host o item.clientMessageId) s
        { s with outbox := s.outbox.filter (·.toUserId != target) }
      else
        let seconds :=
          if code = ErrorCode.keyBundleUnavailable.code ∨ code = ErrorCode.accountNotFound.code then
            30
          else 3
        { s with fetchBackoffUntil :=
            (target, o.now + seconds) :: s.fetchBackoffUntil.filter (·.1 != target) }
    s.flushOutbox qt crypto host o

/-- Send the first unsent message for `target` under the bundles. -/
def sendUnder (s : NetworkManager) (target : Int) (bundles : List Json) (inFlight : List String) :
    NetworkManager :=
  match s.outbox.find? fun item => decide (item.toUserId = target)
      && decide (item.clientMessageId ∉ inFlight) with
  | none => s
  | some item =>
      let envelope := encryptForUser qt crypto s.identityKey s.localDeviceId (o.draw target) bundles
        item.content
      if envelope = "" then s.dropItem host o item.clientMessageId
      else (s.noteSend item.clientMessageId).sendPacket qt o (.sendPrivate item envelope)

/-- `handleFetchKeysResponse`. -/
def handleFetchKeysResponse (s : NetworkManager) (requestId : Nat) (response : Json) :
    NetworkManager :=
  if requestId ≠ s.pendingFetchKeysRequestId then s
  else
    let target := s.fetchKeysTargetUserId
    let s := { s with pendingFetchKeysRequestId := 0, fetchKeysTargetUserId := 0 }
    let code := codeOf response 0
    if code ≠ ErrorCode.ok.code then s.fetchKeysFailed qt crypto host o target code
    else
      let s := { s with fetchBackoffUntil := s.fetchBackoffUntil.filter (·.1 != target) }
      let bundles := ((response.value "data").value "bundles").toArray
      if bundles.isEmpty then s.flushOutbox qt crypto host o
      else if s.pendingEditMessageId ≠ 0 ∧ s.pendingEditPeerUserId = target
          ∧ s.pendingEditContent ≠ "" then
        let envelope := encryptForUser qt crypto s.identityKey s.localDeviceId (o.draw target)
          bundles s.pendingEditContent
        if envelope = "" then s.clearPendingEdit
        else
          s.sendEditMessageRequest qt o s.pendingEditMessageId s.pendingEditConversationId envelope
            "text"
      else
        (s.sendUnder qt crypto host o target bundles
          (s.pendingSendByRequestId.map (·.2))).flushOutbox qt crypto host o

/-- `buildGroupSenderKeyDistribution`: a new key and its distribution. The key
is saved as soon as the distribution is built. -/
def buildGroupSenderKeyDistribution (s : NetworkManager) (conversationId : Int)
    (bundlesByUser : Json) : NetworkManager × Option GroupE2eeCrypto.Distribution :=
  let key := o.generatedKey
  if conversationId ≤ 0 ∨ key.valid = false then (s, none)
  else
    let entries := distributionEntries qt crypto s.identityKey s.localDeviceId o.draw
      (qt.toBase64 key.chainKey) bundlesByUser
    if entries.isEmpty then (s, none)
    else
      ((s.saveOwnKey qt host o conversationId key).insertSenderKey conversationId key,
        some
          { groupId := conversationId
            senderUserId := s.userId
            senderDeviceId := s.localDeviceId
            key, entries })

/-- `handleFetchGroupKeysResponse`: the distribution is sent once, and is no
outbox item. -/
def handleFetchGroupKeysResponse (s : NetworkManager) (requestId : Nat) (response : Json) :
    NetworkManager :=
  if requestId ≠ s.pendingFetchGroupKeysRequestId then s
  else
    let convId := s.fetchGroupKeysTargetConvId
    let s := { s with pendingFetchGroupKeysRequestId := 0, fetchGroupKeysTargetConvId := 0 }
    let code := codeOf response 0
    if code ≠ ErrorCode.ok.code ∨ convId ≤ 0 then
      if (code = ErrorCode.rateLimited.code ∨ code = ErrorCode.loginRateLimited.code
          ∨ code = ErrorCode.internalError.code ∨ code = ErrorCode.timeout.code) ∧ 0 < convId then
        { s with healQueue := s.healQueue.filter (· != convId) ++ [convId] }
      else s.drainHealQueue qt o
    else
      match s.buildGroupSenderKeyDistribution qt crypto host o convId
        ((response.value "data").value "bundles") with
      | (s, none) => s.drainHealQueue qt o
      | (s, some dist) =>
          let content := qt.toJson (GroupE2eeCrypto.encodeDistribution qt dist)
          let s := s.noteSend o.uuid
          let s := { s with pendingGroupDistributions := s.pendingGroupDistributions ++ [o.uuid] }
          (s.sendPacket qt o (.sendDistribution convId o.uuid content dist)).drainHealQueue qt o

/-- `handleSendMessageResponse`: the timer that a failure schedules is an
operation of its own. -/
def handleSendMessageResponse (s : NetworkManager) (requestId : Nat) (response : Json) :
    NetworkManager :=
  match s.pendingSendByRequestId.lookup requestId with
  | none => s
  | some clientMessageId =>
      let s := { s with pendingSendByRequestId :=
        s.pendingSendByRequestId.filter (·.1 != requestId) }
      let code := codeOf response 0
      if code = ErrorCode.ok.code then
        let ackedId := ((response.value "data").value "clientMessageId").toStr clientMessageId
        if ackedId ∈ s.pendingGroupDistributions then
          let s := { s with pendingGroupDistributions :=
            s.pendingGroupDistributions.filter (· != ackedId) }
          let s :=
            if s.outbox.any (·.clientMessageId == ackedId) then s.dropItem host o ackedId else s
          s.flushOutbox qt crypto host o
        else s.dropItem host o ackedId
      else if code = ErrorCode.permissionDenied.code ∨ code = ErrorCode.conversationNotFound.code
          ∨ code = ErrorCode.invalidRequest.code then
        match s.outbox.find? (·.clientMessageId == clientMessageId) with
        | none => s
        | some item => if 0 < item.conversationId then s.dropItem host o clientMessageId else s
      else { s with outboxFlushScheduled := true }

/-- `handleLeaveGroupResponse`, to a request of this client. -/
def handleLeaveGroupResponse (s : NetworkManager) (response : Json) : NetworkManager :=
  if codeOf response 0 ≠ ErrorCode.ok.code then s
  else
    let conversationId := ((response.value "data").value "conversationId").toLongLong
    ((s.removeSenderKey conversationId).write host o (.removeSenderKeys conversationId)
      fun _ db => db.removeSenderKeysForGroup conversationId).getConversations qt o

/-! ## Events -/

/-- `processGroupSenderKeyDistribution` on the client's keys and its open
store. -/
def processDistribution (s : NetworkManager) (msg : Json) : NetworkManager :=
  let device : E2eeDevice :=
    { userId := s.userId
      localDeviceId := s.localDeviceId
      identityKey := s.identityKey
      localPrekeys := s.localPrekeys
      storeOpen := s.localStore.isSome }
  let process cipher rows := processGroupSenderKeyDistribution qt crypto cipher
    (o.storageIv, o.storageIv + 1) { device with senderKeys := rows } msg
  let (opened, installed) := process (host.cipher s.username) []
  let s := { s with localPrekeys := opened.localPrekeys }
  if installed then
    s.write host o (.saveSenderKey (msg.value "conversationId").toLongLong) fun cipher db =>
      some { db with senderKeys := (process cipher db.senderKeys).1.senderKeys }
  else s

/-- What a change of a group's members asks of this client: nothing, to forget
its key, or to make a new one. -/
def membershipChanged (payload : Json) : Bool :=
  let changeType := (payload.value "changeType").toStr ""
  changeType == "member_added" || changeType == "member_removed" || changeType == "member_left"

def selfRemoved (s : NetworkManager) (payload : Json) : Bool :=
  let changeType := (payload.value "changeType").toStr ""
  (changeType == "member_removed" && (payload.value "targetUserId").toLongLong == s.userId)
    || (changeType == "member_left" && (payload.value "operatorId").toLongLong == s.userId)

/-- `handleGroupChangedNotification`. -/
def handleGroupChangedNotification (s : NetworkManager) (payload : Json) : NetworkManager :=
  let convId := (payload.value "conversationId").toLongLong
  let s := s.getConversations qt o
  if membershipChanged payload ∧ 0 < convId then
    if s.selfRemoved payload then s.removeSenderKey convId else s.healGroupSenderKey qt o convId
  else s

/-- The message is a sender key distribution. -/
def isDistribution (payload : Json) : Bool :=
  (payload.value "contentType").toStr "" == "sender_key_distribution"
    || GroupE2eeCrypto.looksLikeDistribution qt ((payload.value "content").toStr "")

/-- One event of `ingestSyncEvents`, with the groups to make new keys for. -/
def ingestEvent (x : NetworkManager × List Int) (event : Json) : NetworkManager × List Int :=
  let (s, healConvs) := x
  let payload := event.value "payload"
  let type := (event.value "type").toStr ""
  if type = "message" then
    let cmid := (payload.value "clientMessageId").toStr ""
    if isDistribution qt payload then x
    else if (payload.value "senderId").toLongLong = s.userId ∧ cmid ≠ "" then
      (s.dropItem host o cmid, healConvs)
    else x
  else if type = "group_changed" then
    let convId := (payload.value "conversationId").toLongLong
    if 0 < convId ∧ membershipChanged payload then
      if s.selfRemoved payload then (s.removeSenderKey convId, healConvs.filter (· != convId))
      else (s, if convId ∈ healConvs then healConvs else healConvs ++ [convId])
    else x
  else x

/-- `ingestSyncEvents`. -/
def ingestSyncEvents (s : NetworkManager) (events : List Json) (lastSeq : Int) (hasMore : Bool) :
    NetworkManager :=
  if s.localStore.isNone then s
  else
    let (s, healConvs) := events.foldl (ingestEvent qt host o) (s, [])
    let s := (healConvs.insertionSort fun a b => o.order a ≤ o.order b).foldl
      (fun s convId => s.healGroupSenderKey qt o convId) s
    let s := s.advanceSyncCursor host o lastSeq
    if hasMore then s.syncEvents qt o lastSeq else s

/-- `handleSyncEventsResponse`. -/
def handleSyncEventsResponse (s : NetworkManager) (requestId : Nat) (response : Json) :
    NetworkManager :=
  if requestId ≠ s.pendingSyncEventsRequestId then s
  else
    let s := { s with pendingSyncEventsRequestId := 0 }
    if codeOf response 0 ≠ ErrorCode.ok.code then s
    else
      let data := response.value "data"
      if (data.value "needsFullSync").toBool then
        let s := s.advanceSyncCursor host o (data.value "fullSyncSeq").toLongLong
        s.getConversations qt o
      else
        let events := (data.value "events").toArray
        let distributions := (events.filter fun event =>
          (event.value "type").toStr "" == "message" && isDistribution qt (event.value "payload")).map
            (·.value "payload")
        let s := distributions.foldl (processDistribution qt crypto host o) s
        s.ingestSyncEvents qt host o events (data.value "lastSeq").toLongLong
          (data.value "hasMore").toBool

/-- `handlePacket`: the responses and notifications that reach the members kept
here. -/
def handlePacket (s : NetworkManager) (messageType : MessageType) (requestId : Nat)
    (payload : Json) : NetworkManager :=
  match messageType with
  | .loginResponse => s.handleLoginResponse qt crypto host o requestId payload
  | .registerResponse => s.handleRegisterResponse requestId
  | .logoutResponse => s.handleLogoutResponse host o
  | .tokenRenewResponse => s.handleTokenRenewResponse host o requestId payload
  | .error => s.handleErrorResponse qt host o requestId payload
  | .sendMessageResponse => s.handleSendMessageResponse qt crypto host o requestId payload
  | .syncEventsResponse => s.handleSyncEventsResponse qt crypto host o requestId payload
  | .registerKeysResponse => s.handleRegisterKeysResponse qt crypto host o requestId payload
  | .fetchKeysResponse => s.handleFetchKeysResponse qt crypto host o requestId payload
  | .fetchGroupKeysResponse => s.handleFetchGroupKeysResponse qt crypto host o requestId payload
  | .leaveGroupResponse => s.handleLeaveGroupResponse qt host o payload
  | .groupChangedNotification => s.handleGroupChangedNotification qt o payload
  | _ => s

end

end NetworkManager

/-! ## The machine -/

/-- One call into the client: what the user does, what the socket tells, a
packet, a timer, or a new start of the program. -/
inductive ClientCall where
  | login (username password : String)
  | registerAccount (username password email phone : String)
  | logout
  | renewToken
  | sendMessage (clientMessageId : String) (toUserId : Int) (content : String)
  | sendGroupMessage (clientMessageId : String) (conversationId : Int) (content : String)
  | editMessage (conversationId peerUserId messageId : Int) (newContent : String)
  | getConversations
  | connected
  | disconnected
  | socketError
  | sslErrors
  | reconnectTimer
  | flushTimer
  | bootstrapTimer
  | healTimer
  | packet (messageType : MessageType) (requestId : Nat) (payload : Json)
  | restart

def ClientCall.apply (qt : Qt) (crypto : Crypto) (host : Host) (o : Outside) (s : NetworkManager) :
    ClientCall → NetworkManager
  | .login username password => s.login qt host o username password
  | .registerAccount username password email phone =>
      s.registerAccount qt host o username password email phone
  | .logout => s.logout qt o
  | .renewToken => s.renewToken qt o
  | .sendMessage clientMessageId toUserId content =>
      s.sendMessage qt crypto host o clientMessageId toUserId content
  | .sendGroupMessage clientMessageId conversationId content =>
      s.sendGroupMessage qt crypto host o clientMessageId conversationId content
  | .editMessage conversationId peerUserId messageId newContent =>
      s.editMessage qt crypto host o conversationId peerUserId messageId newContent
  | .getConversations => s.getConversations qt o
  | .connected => s.onConnected qt host o
  | .disconnected => s.onDisconnected
  | .socketError => s.onSocketError
  | .sslErrors => s.onSslErrors
  | .reconnectTimer => s.connectToServer host
  | .flushTimer => { s with outboxFlushScheduled := false }.flushOutbox qt crypto host o
  | .bootstrapTimer => s.retryBootstrap qt o
  | .healTimer => s.drainHealQueue qt o
  | .packet messageType requestId payload =>
      s.handlePacket qt crypto host o messageType requestId payload
  | .restart =>
      { connection := s.connection
        disk := s.disk
        sent := s.sent
        enqueued := s.enqueued }

end XYChat.Client
