import Mathlib.Data.List.Basic
import XYChat.Lib.Mailbox
import XYChat.Server.Dispatch

/-!
# Routing pushes to connections

`Server` keeps which sessions are online and which handler serves each, fed by
the signals its handlers emit. A handler's thread handles the packets of one
connection; what it emits is posted to the server's thread, which takes the
signals up one by one, whatever the handlers do in between.
-/

namespace XYChat.Server

open XYChat.Lib

/-! ## The server's slots -/

/-- What a handler's thread emits. -/
inductive Signal where
  | session (signal : SessionSignal)
  | messageForUser (push : Push)
  | finished

/-- The hashes of `Server`, each the function of what it holds (a set of
sessions is the list of its elements), and what the server has done to its
handlers: the packets handed to them, and those told to disconnect. -/
structure Routing where
  onlineSessions : Int → Option (List Int) := fun _ => none
  sessionHandlers : Int → Option Nat := fun _ => none
  handlerUsers : Nat → Option Int := fun _ => none
  handed : List (Nat × Push) := []
  disconnected : List Nat := []

namespace Routing

/-- A user's set, dropped from the hash when it is empty. -/
def setOnline (r : Routing) (userId : Int) (sessions : List Int) : Routing :=
  { r with
    onlineSessions :=
      Function.update r.onlineSessions userId (if sessions = [] then none else some sessions) }

/-- `Server::onUserLoggedIn`. -/
def onUserLoggedIn (r : Routing) (handler : Nat) (userId sessionId : Int) : Routing :=
  { r with
    onlineSessions :=
      Function.update r.onlineSessions userId
        (some (((r.onlineSessions userId).getD []).insert sessionId))
    sessionHandlers := Function.update r.sessionHandlers sessionId (some handler)
    handlerUsers := Function.update r.handlerUsers handler (some userId) }

/-- `Server::onUserLoggedOut`; session 0 stands for all sessions of the user. -/
def onUserLoggedOut (r : Routing) (userId sessionId : Int) : Routing :=
  if sessionId = 0 then
    { r with
      onlineSessions := Function.update r.onlineSessions userId none
      handlerUsers := fun h => (r.handlerUsers h).filter (· ≠ userId) }
  else
    { r.setOnline userId (((r.onlineSessions userId).getD []).filter (· ≠ sessionId)) with
      sessionHandlers := Function.update r.sessionHandlers sessionId none }

/-- `Server::onHandlerFinished`: the sessions of the handler go, as far as they
are its last user's. -/
def onHandlerFinished (r : Routing) (handler : Nat) : Routing :=
  match r.handlerUsers handler with
  | none => r
  | some userId =>
      let r := { r with handlerUsers := Function.update r.handlerUsers handler none }
      match r.onlineSessions userId with
      | none => r
      | some sessions =>
          { r.setOnline userId (sessions.filter fun s => r.sessionHandlers s ≠ some handler) with
            sessionHandlers := fun s => (r.sessionHandlers s).filter (· ≠ handler) }

/-- The handlers a packet for a user is handed to. -/
def handlersOf (r : Routing) (userId : Int) : List Nat :=
  match r.onlineSessions userId with
  | none => []
  | some sessions => sessions.filterMap r.sessionHandlers

/-- `Server::onMessageForUser`. -/
def onMessageForUser (r : Routing) (push : Push) : Routing :=
  { r with handed := r.handed ++ (r.handlersOf push.targetUserId).map fun h => (h, push) }

/-- `Server::onSessionTerminated`. -/
def onSessionTerminated (r : Routing) (sessionId : Int) : Routing :=
  match r.sessionHandlers sessionId with
  | none => r
  | some handler => { r with disconnected := r.disconnected ++ [handler] }

/-- The slot a signal of a handler is connected to. -/
def slot (r : Routing) : Nat × Signal → Routing
  | (handler, .session (.userLoggedIn userId sessionId)) =>
      r.onUserLoggedIn handler userId sessionId
  | (_, .session (.userLoggedOut userId sessionId)) => r.onUserLoggedOut userId sessionId
  | (_, .session (.sessionTerminated sessionId)) => r.onSessionTerminated sessionId
  | (_, .messageForUser push) => r.onMessageForUser push
  | (handler, .finished) => r.onHandlerFinished handler

/-- A session of a user that the handler serves: pushes for the user reach the
handler's connection. -/
def Registered (r : Routing) (handler : Nat) (userId sessionId : Int) : Prop :=
  sessionId ∈ (r.onlineSessions userId).getD [] ∧ r.sessionHandlers sessionId = some handler

instance (r : Routing) (handler : Nat) (userId sessionId : Int) :
    Decidable (r.Registered handler userId sessionId) :=
  inferInstanceAs (Decidable (_ ∧ _))

end Routing

/-- The server's thread as a machine over signals and their senders. -/
def routing : Machine Routing (Nat × Signal) where
  init r := r = {}
  step := Routing.slot

/-! ## Handlers and their threads -/

/-- The handler a packet reaches. -/
def Admission.handler : Admission → Option Handler
  | .handle handler _ => some handler
  | _ => none

/-- A slot for a connection is empty; its thread runs, with the connection open;
or the connection has closed, or never came to be. -/
inductive ThreadState where
  | absent
  | running
  | ended
  deriving DecidableEq, Repr

/-- The thread of a handler: its connection, and what it has still to emit of
what the last request left. `serving` is history, the handler of the request
that runs, and so is `logins`: the users and sessions it has logged in. -/
structure HandlerThread where
  conn : Connection := {}
  state : ThreadState := .absent
  outbox : List Signal := []
  serving : Option Handler := none
  logins : List (Int × Int) := []

/-- The user and the session of a login. -/
def SessionSignal.login : SessionSignal → Option (Int × Int)
  | .userLoggedIn userId sessionId => some (userId, sessionId)
  | _ => none

/-- The thread after a request. -/
def HandlerThread.after (t : HandlerThread) (o : Outcome) : HandlerThread :=
  { t with
    conn := o.conn
    outbox := o.pushes.map .messageForUser ++ o.signals.map .session
    serving := none
    logins := t.logins ++ o.signals.filterMap (·.login) }

/-- The connection is open and authenticated as the user. -/
structure HandlerThread.AuthenticatedAs (t : HandlerThread) (userId : Int) : Prop where
  running : t.state = .running
  user : t.conn.authenticatedUserId = userId
  session : 0 < t.conn.currentSessionId

/-- The end of `RequestHandler::run`: the connection has closed. The handler does
not say that it has finished. -/
def HandlerThread.close (t : HandlerThread) : HandlerThread :=
  { t with
    state := .ended
    outbox :=
      if 0 < t.conn.currentSessionId then
        [.session (.userLoggedOut t.conn.authenticatedUserId t.conn.currentSessionId)]
      else [] }

/-- The handler's threads over the database, and the server's thread. `accepted`
and `cut` are history: the connections there have been, and for each of them the
sessions a `TerminateSession` request deleted while they were its current one. -/
structure PushServer where
  pool : Pool ServerDb HandlerThread
  nonces : NonceCache := {}
  mailbox : Mailbox Routing (Nat × Signal) := { state := {} }
  accepted : List Nat := []
  cut : Nat → List Int := fun _ => []

/-- A connection is accepted in an empty slot, or its handler cannot open the
database or the socket; an open one that is idle takes up a packet or closes; a
busy one executes a statement; a thread posts what it emits next; the server's
thread takes up a signal; time passes. -/
inductive PushOp where
  | accept (c : Nat) (peerAddress : String)
  | initFailed (c : Nat)
  | packet (c : Nat) (packet : Packet) (random : Random) (wait : Nat := 0)
  | statement (c : Nat)
  | emit (c : Nat)
  | slot
  | disconnect (c : Nat)
  | tick (seconds : Nat)

namespace PushServer

/-- The thread of a connection. -/
def thread (s : PushServer) (c : Nat) : HandlerThread := (s.pool.workers c).here

/-- Open, and between two requests. -/
def ready (s : PushServer) (c : Nat) : Bool :=
  (s.thread c).state == .running && (s.pool.workers c).running.isNone
    && (s.thread c).outbox.isEmpty

def setThread (s : PushServer) (c : Nat) (t : HandlerThread) : PushServer :=
  { s with pool := s.pool.setWorker c { s.pool.workers c with here := t } }

section

variable (qt : Qt) (hashes : Hashes) (other : OtherHandlers)

/-- Take up a packet. -/
def take (s : PushServer) (c : Nat) (packet : Packet) (random : Random) (wait : Nat) :
    PushServer :=
  let thread := s.thread c
  let decision := admission qt hashes thread.conn packet wait s.pool.store s.nonces
  let thread := { thread with serving := decision.2.handler }
  { s.setThread c thread with
    pool := (s.setThread c thread).pool.start c
      (thread.after <$>
        processAdmitted qt hashes other random packet.requestId thread.conn decision.2)
    nonces := decision.1 }

/-- The current session of the connection is deleted between the two states. -/
def losesSession (db db' : ServerDb) (t : HandlerThread) : Bool :=
  t.state == .running && (db.sessions.get t.conn.currentSessionId).isSome
    && (db'.sessions.get t.conn.currentSessionId).isNone

/-- Execute a statement. No statement sets the clock. -/
def statement (s : PushServer) (c : Nat) : PushServer :=
  let pool := s.pool.advance c
  let db := { pool.store with now := s.pool.store.now }
  { s with
    pool := { pool with store := db }
    cut := fun h =>
      if (s.thread c).serving = some .terminateSession ∧ losesSession s.pool.store db (s.thread h)
      then (s.thread h).conn.currentSessionId :: s.cut h
      else s.cut h }

/-- Post the next signal. -/
def emit (s : PushServer) (c : Nat) : PushServer :=
  match (s.thread c).outbox with
  | x :: rest =>
      { s.setThread c { s.thread c with outbox := rest } with mailbox := s.mailbox.post (c, x) }
  | [] => s

end

/-- The server's hashes when it has taken up all that was posted. -/
def settled (s : PushServer) : Routing := s.mailbox.settled routing

end PushServer

section

variable (qt : Qt) (hashes : Hashes) (other : OtherHandlers)

def pushStep (s : PushServer) : PushOp → PushServer
  | .accept c peerAddress =>
      if (s.thread c).state = .absent then
        { s.setThread c { conn := { peerAddress }, state := .running } with
          accepted := s.accepted ++ [c] }
      else s
  -- the only case in which a handler emits `finished`
  | .initFailed c =>
      if (s.thread c).state = .absent then
        { s.setThread c { state := .ended, outbox := [.finished] } with
          accepted := s.accepted ++ [c] }
      else s
  | .packet c packet random wait =>
      if s.ready c then s.take qt hashes other c packet random wait else s
  | .statement c => s.statement c
  | .emit c => s.emit c
  | .slot => { s with mailbox := s.mailbox.take routing }
  | .disconnect c => if s.ready c then s.setThread c (s.thread c).close else s
  | .tick seconds =>
      { s with pool := { s.pool with
                          store := { s.pool.store with now := s.pool.store.now + seconds } } }

/-- A server that has just started, over any database. -/
structure PushServer.Started (s : PushServer) : Prop where
  idle : ∀ c, s.pool.workers c = { here := {} }
  mailbox : s.mailbox = { state := {} }
  accepted : s.accepted = []
  cut : ∀ c, s.cut c = []

def pushMachine : Machine PushServer PushOp where
  init := PushServer.Started
  step := pushStep qt hashes other

end

end XYChat.Server
