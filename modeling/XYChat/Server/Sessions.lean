import XYChat.Server.Connection
import XYChat.Server.Db

/-!
# Accounts and sessions

The tables behind logging in, the statements on them, and the handlers that
create and end sessions. What a handler draws at random (a token, a salt) is an
argument.
-/

namespace XYChat.Server

open XYChat.Lib

/-! ## Tables -/

/-- A row of `sessions`. An expiry is `none` when its text is no date. -/
structure SessionRow where
  id : Int
  userId : Int
  deviceId : String
  tokenHash : String
  loginIp : String
  createdAt : Int
  lastActiveAt : Int
  expiresAt : Option Int
  deriving DecidableEq, Repr

structure LoginAuditRow where
  id : Int
  userId : Int
  ipAddress : String
  success : Bool
  failureReason : String
  createdAt : Int
  deriving DecidableEq, Repr

instance : Keyed SessionRow := ⟨SessionRow.id⟩
instance : Keyed LoginAuditRow := ⟨LoginAuditRow.id⟩

@[simp] theorem key_sessionRow (r : SessionRow) : key r = r.id := rfl
@[simp] theorem key_loginAuditRow (r : LoginAuditRow) : key r = r.id := rfl

/-- The whole database: the tables of `Db`, and those of the session code. -/
structure ServerDb extends Db where
  sessions : Table SessionRow := .empty
  loginAudit : Table LoginAuditRow := .empty

/-- What `EncryptionManager` computes: SHA-256 of a token, and the salted
password hash with its check. -/
structure Hashes where
  hashToken : String → String
  hashPasswordWithSalt : String → String → String
  verifyPassword : String → String → Bool

namespace ServerDb

def registerUser (username passwordHash : String) (db : ServerDb) : ServerDb × Option Int :=
  ({ db with toDb := (db.toDb.registerUser username passwordHash).1 },
    (db.toDb.registerUser username passwordHash).2)

def registerDevice (userId : Int) (deviceId deviceName platform : String) (db : ServerDb) :
    ServerDb :=
  { db with toDb := db.toDb.registerDevice userId deviceId deviceName platform }

/-- Seven days. -/
def sessionTtlSeconds : Int := 86400 * 7

/-- `createSession`; `none` is -1: there is no such user, or the token hash,
which is UNIQUE, is there already. -/
def createSession (userId : Int) (deviceId tokenHash loginIp : String) (db : ServerDb) :
    ServerDb × Option Int :=
  if (db.users.get userId).isSome && !db.sessions.rows.any (·.tokenHash == tokenHash) then
    ({ db with sessions := db.sessions.insert fun id =>
        { id, userId, deviceId, tokenHash, loginIp
          createdAt := db.now
          lastActiveAt := db.now
          expiresAt := some (db.now + sessionTtlSeconds) } },
      some (db.sessions.lastId + 1))
  else (db, none)

def getSessionById (db : ServerDb) (sessionId : Int) : Option SessionRow :=
  db.sessions.get sessionId

def updateSessionLastActive (sessionId : Int) (db : ServerDb) : ServerDb :=
  { db with
    sessions :=
      db.sessions.update (·.id == sessionId) fun s => { s with lastActiveAt := db.now } }

def deleteSession (sessionId : Int) (db : ServerDb) : ServerDb :=
  { db with sessions := db.sessions.delete (·.id == sessionId) }

/-- `getSessionsByUserId`, newest first. -/
def getSessionsByUserId (db : ServerDb) (userId : Int) : List SessionRow :=
  (db.sessions.rows.filter (·.userId == userId)).insertionSort fun a b => b.createdAt ≤ a.createdAt

def recordLoginAttempt (userId : Int) (ipAddress : String) (success : Bool) (failureReason : String)
    (db : ServerDb) : ServerDb :=
  { db with loginAudit := db.loginAudit.insert fun id =>
      { id, userId, ipAddress, success, failureReason, createdAt := db.now } }

def recentFailedLoginCount (db : ServerDb) (ipAddress : String) (windowSeconds : Int) : Nat :=
  db.loginAudit.rows.countP fun a =>
    a.ipAddress == ipAddress && !a.success && db.now - windowSeconds ≤ a.createdAt

def recentFailedLoginCountForUser (db : ServerDb) (userId windowSeconds : Int) : Nat :=
  db.loginAudit.rows.countP fun a =>
    a.userId == userId && !a.success && db.now - windowSeconds ≤ a.createdAt

end ServerDb

/-! ## Handlers -/

/-- The member `token` of a request. -/
def tokenOf (request : Json) : String := (request.value "token").toStr ""

/-- `RequestHandler::validateSession`, on the database and the clock at the time
of its one statement. -/
def validateSession (hashes : Hashes) (conn : Connection) (request : Json) (db : ServerDb) : Bool :=
  if conn.currentSessionId ≤ 0 ∨ conn.authenticatedUserId ≤ 0 then false
  else match db.getSessionById conn.currentSessionId with
    | none => false
    | some session =>
        if session.userId ≠ conn.authenticatedUserId then false
        else match session.expiresAt with
          | none => false
          | some expiresAt =>
              -- only a renewal may use an expired session
              let isRenew := (request.value "type").toStr "" == "token_renew"
              if isRenew = false ∧ expiresAt < db.now then false
              else if tokenOf request = "" then false
              else hashes.hashToken (tokenOf request) == session.tokenHash

/-- `RequestHandler::checkRateLimit`: too many failed logins within five minutes,
ten from an address or five of a user. -/
def checkRateLimit (ipAddress : String) (userId : Int) : Prog ServerDb Bool := do
  if 10 ≤ (← Prog.query (·.recentFailedLoginCount ipAddress 300)) then return true
  else if 0 < userId then
    return 5 ≤ (← Prog.query (·.recentFailedLoginCountForUser userId 300))
  else return false

/-- What a login calls its device. -/
def deviceNameOf (deviceId : String) : String := "Device-" ++ qleft 8 deviceId

/-- `RequestHandler::processLoginRequest`, with the token it draws. -/
def processLoginRequest (qt : Qt) (hashes : Hashes) (token : String) (requestId : Nat)
    (conn : Connection) (request : Json) : Prog ServerDb Outcome := do
  let username := trimmed ((request.value "username").toStr "")
  let clientPassword := (request.value "password").toStr ""
  let deviceId := (request.value "deviceId").toStr ""
  let platform := (request.value "platform").toStr ""
  let reject := conn.reply requestId .loginResponse
  if username = "" ∨ clientPassword = "" then
    return reject .invalidRequest "Username and password are required"
  else
    match ← Prog.query (·.getUserByUsername username) with
    | none =>
        Prog.update (ServerDb.recordLoginAttempt 0 conn.peerAddress false "User not found")
        return reject .authenticationFailed "Invalid username or password"
    | some user =>
      if ← checkRateLimit conn.peerAddress user.id then
        return reject .loginRateLimited "Too many failed login attempts. Please try again later."
      else if !hashes.verifyPassword clientPassword user.passwordHash then
        Prog.update (ServerDb.recordLoginAttempt user.id conn.peerAddress false "Wrong password")
        return reject .authenticationFailed "Invalid username or password"
      else
        Prog.update (ServerDb.registerDevice user.id deviceId (deviceNameOf deviceId) platform)
        match ← Prog.call (ServerDb.createSession user.id deviceId (hashes.hashToken token)
            conn.peerAddress) with
        | none => return reject .internalError "Failed to create session"
        | some sessionId =>
            Prog.update (ServerDb.recordLoginAttempt user.id conn.peerAddress true "")
            let now ← Prog.query (·.now)
            return {
              conn :=
                { conn with
                  authenticatedUserId := user.id
                  currentSessionId := sessionId
                  currentDeviceId := deviceId }
              signals := [.userLoggedIn user.id sessionId]
              response :=
                { requestId, messageType := .loginResponse, code := .ok, message := "OK"
                  data := .obj
                    [ ("username", .str user.username)
                    , ("userId", .int user.id)
                    , ("token", .str token)
                    , ("expiresAt", .str (qt.isoDate (now + ServerDb.sessionTtlSeconds))) ] } }

/-- `RequestHandler::processRegisterRequest`, with the salt it draws. -/
def processRegisterRequest (hashes : Hashes) (salt : String) (requestId : Nat) (conn : Connection)
    (request : Json) : Prog ServerDb Outcome := do
  let username := trimmed ((request.value "username").toStr "")
  let password := (request.value "password").toStr ""
  let reject := conn.reply requestId .registerResponse
  if username = "" ∨ password = "" then
    return reject .invalidRequest "Username and password are required"
  else if qsize username < 3 ∨ 32 < qsize username then
    return reject .invalidRequest "Username must be 3-32 characters"
  else if qsize password < 6 then
    return reject .invalidRequest "Password must be at least 6 characters"
  else if ← Prog.query (·.userExists username) then
    return reject .accountAlreadyExists "Username already exists"
  else
    match ← Prog.call (ServerDb.registerUser username
        (hashes.hashPasswordWithSalt salt password)) with
    | none => return reject .internalError "Failed to create account"
    | some userId =>
        return {
          conn
          response :=
            { requestId, messageType := .registerResponse, code := .ok
              message := "Account created successfully"
              data := .obj [("userId", .int userId), ("username", .str username)] } }

/-- `RequestHandler::processLogoutRequest`. -/
def processLogoutRequest (requestId : Nat) (conn : Connection) : Prog ServerDb Outcome := do
  Prog.update (ServerDb.deleteSession conn.currentSessionId)
  return {
    conn := { conn with authenticatedUserId := 0, currentSessionId := 0 }
    signals := [.userLoggedOut conn.authenticatedUserId conn.currentSessionId]
    response :=
      { requestId, messageType := .logoutResponse, code := .ok, message := "Logged out" } }

/-- `RequestHandler::processTokenRenewRequest`, with the token it draws. -/
def processTokenRenewRequest (qt : Qt) (hashes : Hashes) (newToken : String) (requestId : Nat)
    (conn : Connection) (request : Json) : Prog ServerDb Outcome := do
  let oldSessionId := conn.currentSessionId
  let reject := conn.reply requestId .tokenRenewResponse
  if tokenOf request = "" then
    return reject .invalidRequest "Token is required"
  else
    match ← Prog.query (·.getSessionById oldSessionId) with
    | none => return reject .sessionExpired "Session no longer exists"
    | some session =>
      if hashes.hashToken (tokenOf request) ≠ session.tokenHash then
        return reject .sessionInvalid "Supplied token does not match session"
      else
        Prog.update (ServerDb.deleteSession oldSessionId)
        match ← Prog.call (ServerDb.createSession conn.authenticatedUserId conn.currentDeviceId
            (hashes.hashToken newToken) conn.peerAddress) with
        | none => return reject .internalError "Failed to renew token"
        | some newSessionId =>
            let now ← Prog.query (·.now)
            return {
              conn := { conn with currentSessionId := newSessionId }
              response :=
                { requestId, messageType := .tokenRenewResponse, code := .ok
                  message := "Token renewed"
                  data := .obj
                    [ ("token", .str newToken)
                    , ("expiresAt", .str (qt.isoDate (now + ServerDb.sessionTtlSeconds))) ] } }

/-- `RequestHandler::processTerminateSessionRequest`. -/
def processTerminateSessionRequest (requestId : Nat) (conn : Connection) (request : Json) :
    Prog ServerDb Outcome := do
  let reject := conn.reply requestId .forceLogoutResponse
  let targetSessionId := (request.value "sessionId").toLongLong
  let targetDeviceId := (request.value "deviceId").toStr ""
  if request.contains "userId" ∧ (request.value "userId").toLongLong ≠ conn.authenticatedUserId then
    return reject .permissionDenied "Cannot terminate sessions of another user"
  else if targetSessionId ≤ 0 ∧ targetDeviceId = "" then
    return reject .invalidRequest "sessionId or deviceId is required"
  else if targetSessionId = conn.currentSessionId then
    return reject .invalidRequest "Cannot terminate current session, use logout instead"
  else
    let sessions ← Prog.query (·.getSessionsByUserId conn.authenticatedUserId)
    let target := sessions.find? fun s =>
      (0 < targetSessionId && s.id == targetSessionId)
        || (targetDeviceId != "" && s.deviceId == targetDeviceId)
    match target with
    | none => return reject .permissionDenied "Target session not found among your own sessions"
    | some s =>
        Prog.update (ServerDb.deleteSession s.id)
        return {
          conn
          signals := [.userLoggedOut conn.authenticatedUserId s.id, .sessionTerminated s.id]
          response :=
            { requestId, messageType := .forceLogoutResponse, code := .ok
              message := "Session terminated"
              data := .obj [("terminatedSessionId", .int s.id)] } }

end XYChat.Server
