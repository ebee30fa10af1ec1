import XYChat.Lib.Pool
import XYChat.Server.Keys
import XYChat.Server.Maintenance
import XYChat.Server.Messages
import XYChat.Server.Replay
import XYChat.Server.Sessions

/-!
# Dispatching packets

A packet is admitted by `processPacket` up to the choice of its handler, which
then runs statement by statement while other connections run theirs. The
handlers that are not modelled are a parameter: programs over the tables of
`Db`, which the session code does not share.
-/

namespace XYChat.Server

open XYChat.Lib

/-- `Packet`, less the version; the header's type is any 16-bit number. -/
structure Packet where
  messageType : Nat
  requestId : Nat
  payload : String

/-! ## The routes -/

/-- The handlers `processPacket` chooses from. -/
inductive Handler where
  | register
  | login
  | logout
  | tokenRenew
  | terminateSession
  | searchUsers
  | addContact
  | getContacts
  | getConversations
  | sendMessage
  | ackMessage
  | syncMessages
  | syncEvents
  | registerKeys
  | fetchKeys
  | createGroup
  | inviteGroupMembers
  | leaveGroup
  | kickGroupMember
  | getGroupInfo
  | fetchGroupKeys
  | setConversationPrefs
  | editMessage
  | deleteMessage
  deriving DecidableEq, Repr

/-- One `if` of `processPacket`: the header type and the payload types that
choose a handler. -/
structure Route where
  header : MessageType
  types : List String
  handler : Handler

def Route.accepts (r : Route) (messageType : Nat) (type : String) : Bool :=
  messageType == r.header.code || r.types.contains type

/-- The requests that need no session, in the order they are tried. -/
def openRoutes : List Route :=
  [ ⟨.registerRequest, ["register"], .register⟩
  , ⟨.loginRequest, ["login"], .login⟩ ]

/-- The requests that need one, in the order they are tried. -/
def sessionRoutes : List Route :=
  [ ⟨.logoutRequest, ["logout"], .logout⟩
  , ⟨.tokenRenewRequest, ["token_renew"], .tokenRenew⟩
  , ⟨.forceLogoutRequest, ["force_logout", "terminate_session"], .terminateSession⟩
  , ⟨.searchUsersRequest, ["search_users"], .searchUsers⟩
  , ⟨.addContactRequest, ["add_contact"], .addContact⟩
  , ⟨.getContactsRequest, ["get_contacts"], .getContacts⟩
  , ⟨.getConversationsRequest, ["get_conversations"], .getConversations⟩
  , ⟨.sendMessageRequest, ["send_message"], .sendMessage⟩
  , ⟨.ackMessageRequest, ["ack_message"], .ackMessage⟩
  , ⟨.syncMessagesRequest, ["sync_messages"], .syncMessages⟩
  , ⟨.syncEventsRequest, ["sync_events"], .syncEvents⟩
  , ⟨.registerKeysRequest, ["register_keys"], .registerKeys⟩
  , ⟨.fetchKeysRequest, ["fetch_keys"], .fetchKeys⟩
  , ⟨.createGroupRequest, ["create_group"], .createGroup⟩
  , ⟨.inviteGroupMembersRequest, ["invite_group_members"], .inviteGroupMembers⟩
  , ⟨.leaveGroupRequest, ["leave_group"], .leaveGroup⟩
  , ⟨.kickGroupMemberRequest, ["kick_group_member"], .kickGroupMember⟩
  , ⟨.getGroupInfoRequest, ["get_group_info"], .getGroupInfo⟩
  , ⟨.fetchGroupKeysRequest, ["fetch_group_keys"], .fetchGroupKeys⟩
  , ⟨.setConversationPrefsRequest, ["set_conversation_prefs"], .setConversationPrefs⟩
  , ⟨.editMessageRequest, ["edit_message"], .editMessage⟩
  , ⟨.deleteMessageRequest, ["delete_message"], .deleteMessage⟩ ]

/-- The first route of a list that accepts the packet. -/
def choose (routes : List Route) (messageType : Nat) (type : String) : Option Handler :=
  (routes.find? (·.accepts messageType type)).map (·.handler)

/-- Registering and logging in are the handlers an open route leads to. -/
def Handler.needsSession : Handler → Bool
  | .register => false
  | .login => false
  | _ => true

/-- The handlers an expired session may still reach. -/
def Handler.endsSession : Handler → Bool
  | .logout => true
  | .tokenRenew => true
  | _ => false

/-! ## Admission -/

/-- The member `type` of a request. -/
def typeOf (request : Json) : String := (request.value "type").toStr ""

/-- What `processPacket` decides before a handler runs. -/
inductive Admission where
  | pong
  | reject (code : ErrorCode) (message : String)
  | unknown (type : String)
  | handle (handler : Handler) (request : Json)

/-- The replay check of `processPacket`. A packet headed `Pong` passes unchecked,
though its payload is dispatched like any other. -/
def replayGate (packet : Packet) (request : Json) (checkedAt seenAt : Int) (nonces : NonceCache) :
    NonceCache × Bool :=
  if packet.messageType = MessageType.pong.code then (nonces, true)
  else checkReplayProtection request checkedAt seenAt nonces

/-- `processPacket` up to the choice of the handler, on the database and the
nonce cache at the time of its checks; `wait` seconds pass between the replay
check's two readings of the clock. -/
def admission (qt : Qt) (hashes : Hashes) (conn : Connection) (packet : Packet) (wait : Nat)
    (db : ServerDb) (nonces : NonceCache) : NonceCache × Admission :=
  if packet.messageType = MessageType.ping.code then (nonces, .pong)
  else match qt.fromJson packet.payload with
    | none => (nonces, .reject .invalidRequest "Invalid JSON payload")
    | some request =>
        if !request.isObject then (nonces, .reject .invalidRequest "Invalid JSON payload")
        else
          let gate := replayGate packet request (db.now - wait) db.now nonces
          if !gate.2 then (gate.1, .reject .replayRejected "Replay protection check failed")
          else match choose openRoutes packet.messageType (typeOf request) with
            | some handler => (gate.1, .handle handler request)
            | none =>
                if !validateSession hashes conn request db then
                  (gate.1, .reject .sessionInvalid "Authentication required")
                else match choose sessionRoutes packet.messageType (typeOf request) with
                  | some handler => (gate.1, .handle handler request)
                  | none => (gate.1, .unknown (typeOf request))

/-! ## Running a handler -/

/-- The handlers of the repository that work on the tables of `Db` alone and
leave the connection's authentication alone. -/
abbrev OtherHandlers := Handler → Nat → Connection → Json → Prog Db Outcome

/-- Run a handler over the tables of `Db`; of the connection it changes the rate
windows only, and it tells the server nothing about sessions. -/
def business (conn : Connection) (p : Prog Db Outcome) : Prog ServerDb Outcome := do
  let o ← p.zoom (·.toDb) fun db server => { server with toDb := db }
  return {
    o with
    signals := []
    conn :=
      { conn with
        fetchKeysWindow := o.conn.fetchKeysWindow
        sendWindow := o.conn.sendWindow
        searchWindow := o.conn.searchWindow } }

/-- What a handler may draw at random. -/
structure Random where
  token : String
  salt : String

/-- The handler's program. -/
def handle (qt : Qt) (hashes : Hashes) (other : OtherHandlers) (random : Random) (requestId : Nat)
    (conn : Connection) (request : Json) : Handler → Prog ServerDb Outcome
  | .register => processRegisterRequest hashes random.salt requestId conn request
  | .login => processLoginRequest qt hashes random.token requestId conn request
  | .logout => processLogoutRequest requestId conn
  | .tokenRenew => processTokenRenewRequest qt hashes random.token requestId conn request
  | .terminateSession => processTerminateSessionRequest requestId conn request
  | .sendMessage => business conn (processSendMessageRequest qt requestId conn request)
  | .editMessage => business conn (processEditMessageRequest qt requestId conn request)
  | .deleteMessage => business conn (processDeleteMessageRequest qt requestId conn request)
  | .registerKeys => business conn (processRegisterKeysRequest qt requestId conn request)
  | .fetchKeys => business conn (processFetchKeysRequest requestId conn request)
  | .fetchGroupKeys => business conn (processFetchGroupKeysRequest requestId conn request)
  | handler => business conn (other handler requestId conn request)

/-- The rest of `processPacket`: a request with a session first refreshes it. A
pong is a bare header. -/
def processAdmitted (qt : Qt) (hashes : Hashes) (other : OtherHandlers) (random : Random)
    (requestId : Nat) (conn : Connection) : Admission → Prog ServerDb Outcome
  | .pong => return conn.reply requestId .pong .ok ""
  | .reject code message => return conn.reply requestId .error code message
  | .unknown type => do
      Prog.update (ServerDb.updateSessionLastActive conn.currentSessionId)
      return conn.reply requestId .error .invalidRequest ("Unknown request type: " ++ type)
  | .handle handler request =>
      if handler.needsSession then do
        Prog.update (ServerDb.updateSessionLastActive conn.currentSessionId)
        handle qt hashes other random requestId conn request handler
      else handle qt hashes other random requestId conn request handler

/-! ## The server -/

/-- A request that reached a handler. -/
structure Reached where
  connection : Nat
  handler : Handler
  request : Json

/-- The server: the database and the connections as a pool, the nonce cache, and
the pruning that runs. `drawn` (the tokens drawn so far) and `reached` are
history: nothing reads them. -/
structure ServerState where
  pool : Pool ServerDb Connection
  nonces : NonceCache := {}
  pruning : Option Pruning := none
  drawn : List String := []
  reached : List Reached := []

/-- What can happen next: a client connects in slot `c`, the packet of a
connection is taken up (the replay check waits so many seconds for the nonce
cache), a busy connection executes a statement, the timer starts a pruning, the
pruning executes a statement, time passes. -/
inductive ServerOp where
  | connect (c : Nat) (peerAddress : String)
  | packet (c : Nat) (packet : Packet) (random : Random) (wait : Nat := 0)
  | statement (c : Nat)
  | prune
  | pruneStatement
  | tick (seconds : Nat)

section

variable (qt : Qt) (hashes : Hashes) (other : OtherHandlers)

/-- The decision on a packet of connection `c`. -/
def ServerState.admits (s : ServerState) (c : Nat) (packet : Packet) (wait : Nat) :
    NonceCache × Admission :=
  admission qt hashes (s.pool.workers c).here packet wait s.pool.store s.nonces

/-- The log entry of a decision. -/
def Admission.reached (c : Nat) : Admission → List Reached
  | .handle handler request => [⟨c, handler, request⟩]
  | _ => []

/-- Take up a packet; a connection whose handler is still running does not. -/
def ServerState.take (s : ServerState) (c : Nat) (packet : Packet) (random : Random)
    (wait : Nat) : ServerState :=
  if (s.pool.workers c).running.isSome then s
  else
    let conn := (s.pool.workers c).here
    let decision := s.admits qt hashes c packet wait
    { s with
      pool := s.pool.start c ((·.conn) <$>
        processAdmitted qt hashes other random packet.requestId conn decision.2)
      nonces := decision.1
      drawn := random.token :: s.drawn
      reached := s.reached ++ decision.2.reached c }

/-- The pruning, if one runs, executes its next statement. -/
def ServerState.advancePruning (s : ServerState) : ServerState :=
  match s.pruning with
  | none => s
  | some pruning =>
      let done := pruning.advance s.pool.store.toDb
      { s with
        pool := { s.pool with store := { s.pool.store with toDb := done.1 } }
        pruning := done.2 }

/-- The same server at another time. -/
def ServerState.atTime (s : ServerState) (now : Int) : ServerState :=
  { s with pool := { s.pool with store := { s.pool.store with now } } }

def serverStep (s : ServerState) : ServerOp → ServerState
  | .connect c peerAddress => { s with pool := s.pool.setWorker c { here := { peerAddress } } }
  | .packet c packet random wait => s.take qt hashes other c packet random wait
  -- no statement sets the clock
  | .statement c => { s with pool := s.pool.advance c : ServerState }.atTime s.pool.store.now
  | .prune => { s with pruning := s.pruning.orElse fun _ => some .start }
  | .pruneStatement => s.advancePruning
  | .tick seconds => s.atTime (s.pool.store.now + seconds)

/-- A server that has just started: nobody is connected, nothing has been
received, and each session row holds the hash of a token drawn once, its own. -/
structure ServerState.Started (s : ServerState) : Prop where
  idle : ∀ c, s.pool.workers c = { here := {} }
  nonces : s.nonces = {}
  reached : s.reached = []
  drawn : ∀ row ∈ s.pool.store.sessions.rows, ∃ token ∈ s.drawn, row.tokenHash = hashes.hashToken token
  unique : ∀ a ∈ s.pool.store.sessions.rows, ∀ b ∈ s.pool.store.sessions.rows,
    a.tokenHash = b.tokenHash → a.id = b.id

def serverMachine : Machine ServerState ServerOp where
  init := ServerState.Started hashes
  step := serverStep qt hashes other

end

end XYChat.Server
