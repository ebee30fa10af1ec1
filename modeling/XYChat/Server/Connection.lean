import XYChat.Common.Packet
import XYChat.Common.Qt

/-!
# Connections

What a `RequestHandler` keeps for its connection, and what it sends: the
response to the client and the packets the server routes to other users.
-/

namespace XYChat.Server

/-- `RateWindow`: a fixed-window counter. -/
structure RateWindow where
  maxCount : Int
  windowSeconds : Int
  windowStart : Int := 0
  count : Int := 0
  initialized : Bool := false
  deriving DecidableEq, Repr

/-- The window a call at `now` is counted in. -/
def RateWindow.roll (w : RateWindow) (now : Int) : RateWindow :=
  if !w.initialized || w.windowSeconds ≤ now - w.windowStart then
    { w with windowStart := now, count := 0, initialized := true }
  else w

/-- `RateWindow::allow`. -/
def RateWindow.allow (w : RateWindow) (now : Int) : RateWindow × Bool :=
  let w := w.roll now
  if w.maxCount ≤ w.count then (w, false) else ({ w with count := w.count + 1 }, true)

/-- The authentication state and the rate windows of one connection. -/
structure Connection where
  authenticatedUserId : Int := 0
  currentSessionId : Int := 0
  currentDeviceId : String := ""
  fetchKeysWindow : RateWindow := { maxCount := 20, windowSeconds := 60 }
  sendWindow : RateWindow := { maxCount := 30, windowSeconds := 10 }
  searchWindow : RateWindow := { maxCount := 20, windowSeconds := 60 }
  peerAddress : String := ""
  deriving DecidableEq, Repr

/-- What `sendResponse` sends. -/
structure Response where
  requestId : Nat
  messageType : MessageType
  code : ErrorCode
  message : String
  data : Json := .obj []

/-- A packet handed to `messageForUser`. -/
structure Push where
  targetUserId : Int
  messageType : MessageType
  payload : Json

/-- What a handler tells the server about its session. -/
inductive SessionSignal where
  | userLoggedIn (userId sessionId : Int)
  | userLoggedOut (userId sessionId : Int)
  | sessionTerminated (sessionId : Int)
  deriving DecidableEq, Repr

/-- What handling one request leaves: the connection's state, the response, the
packets to route and the signals about sessions, in the order they are
emitted. -/
structure Outcome where
  conn : Connection
  response : Response
  pushes : List Push := []
  signals : List SessionSignal := []

/-- The request was answered with success. -/
def Outcome.ok (o : Outcome) : Bool := o.response.code == .ok

/-- Answer without data and without routing anything. -/
def Connection.reply (conn : Connection) (requestId : Nat) (messageType : MessageType)
    (code : ErrorCode) (message : String) : Outcome :=
  { conn, response := { requestId, messageType, code, message } }

end XYChat.Server
