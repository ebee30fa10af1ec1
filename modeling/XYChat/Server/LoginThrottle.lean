import XYChat.Lib.SlidingWindow
import XYChat.Server.Sessions

/-!
# Failed logins

A login reads the failures of its address and of its user, checks the password and
writes a failure down, each on its own; logins on other connections do the same in
between, and one for an unknown user name reads nothing.
-/

namespace XYChat.Server

open XYChat.Lib

/-! ## A login step by step -/

/-- A login request on a connection, with the token it would get. -/
structure LoginAttempt where
  conn : Connection
  request : Json
  token : String
  requestId : Nat

namespace LoginAttempt

def username (a : LoginAttempt) : String := trimmed ((a.request.value "username").toStr "")

def clientPassword (a : LoginAttempt) : String := (a.request.value "password").toStr ""

def deviceId (a : LoginAttempt) : String := (a.request.value "deviceId").toStr ""

def platform (a : LoginAttempt) : String := (a.request.value "platform").toStr ""

def reject (a : LoginAttempt) : ErrorCode → String → Outcome :=
  a.conn.reply a.requestId .loginResponse

end LoginAttempt

/-- Where a login is: what its next statement is. -/
inductive LoginPhase where
  | getUser
  | countAddress (user : UserRow)
  | countUser (user : UserRow)
  | recordFailure (userId : Int) (failureReason : String)
  | registerDevice (user : UserRow)
  | createSession (user : UserRow)
  | recordSuccess (user : UserRow) (sessionId : Int)
  | readClock (user : UserRow) (sessionId : Int)
  | answered (outcome : Outcome)

section

variable (qt : Qt) (hashes : Hashes) (a : LoginAttempt)

def LoginAttempt.limited : Outcome :=
  a.reject .loginRateLimited "Too many failed login attempts. Please try again later."

def LoginAttempt.refused : Outcome :=
  a.reject .authenticationFailed "Invalid username or password"

/-- The answer to a login that succeeds. -/
def LoginAttempt.accepted (user : UserRow) (sessionId now : Int) : Outcome where
  conn :=
    { a.conn with
      authenticatedUserId := user.id
      currentSessionId := sessionId
      currentDeviceId := a.deviceId }
  signals := [.userLoggedIn user.id sessionId]
  response :=
    { requestId := a.requestId, messageType := .loginResponse, code := .ok, message := "OK"
      data := .obj
        [ ("username", .str user.username)
        , ("userId", .int user.id)
        , ("token", .str a.token)
        , ("expiresAt", .str (qt.isoDate (now + ServerDb.sessionTtlSeconds))) ] }

/-- The password is checked once the counts are below their limits. -/
def LoginPhase.checked (user : UserRow) : LoginPhase :=
  if !hashes.verifyPassword a.clientPassword user.passwordHash then
    .recordFailure user.id "Wrong password"
  else .registerDevice user

/-- A request without a name or a password is answered at once. -/
def LoginPhase.start : LoginPhase :=
  if a.username = "" ∨ a.clientPassword = "" then
    .answered (a.reject .invalidRequest "Username and password are required")
  else .getUser

/-- The next statement. -/
def LoginPhase.step (db : ServerDb) : LoginPhase → ServerDb × LoginPhase
  | .getUser =>
      ( db
      , match db.getUserByUsername a.username with
        | none => .recordFailure 0 "User not found"
        | some user => .countAddress user )
  | .countAddress user =>
      ( db
      , if 10 ≤ db.recentFailedLoginCount a.conn.peerAddress 300 then .answered a.limited
        else if 0 < user.id then .countUser user
        else .checked hashes a user )
  | .countUser user =>
      ( db
      , if 5 ≤ db.recentFailedLoginCountForUser user.id 300 then .answered a.limited
        else .checked hashes a user )
  | .recordFailure userId failureReason =>
      ( db.recordLoginAttempt userId a.conn.peerAddress false failureReason
      , .answered a.refused )
  | .registerDevice user =>
      ( db.registerDevice user.id a.deviceId (deviceNameOf a.deviceId) a.platform
      , .createSession user )
  | .createSession user =>
      let result := db.createSession user.id a.deviceId (hashes.hashToken a.token)
        a.conn.peerAddress
      ( result.1
      , match result.2 with
        | none => .answered (a.reject .internalError "Failed to create session")
        | some sessionId => .recordSuccess user sessionId )
  | .recordSuccess user sessionId =>
      (db.recordLoginAttempt user.id a.conn.peerAddress true "", .readClock user sessionId)
  | .readClock user sessionId => (db, .answered (a.accepted qt user sessionId db.now))
  | .answered outcome => (db, .answered outcome)

/-! ## The phases are those of the code -/

namespace LoginAttempt

def failing (userId : Int) (failureReason : String) : Prog ServerDb Outcome := do
  Prog.update (ServerDb.recordLoginAttempt userId a.conn.peerAddress false failureReason)
  return a.refused

def reading (user : UserRow) (sessionId : Int) : Prog ServerDb Outcome := do
  let now ← Prog.query (·.now)
  return a.accepted qt user sessionId now

def recording (user : UserRow) (sessionId : Int) : Prog ServerDb Outcome := do
  Prog.update (ServerDb.recordLoginAttempt user.id a.conn.peerAddress true "")
  a.reading qt user sessionId

def creating (user : UserRow) : Prog ServerDb Outcome := do
  match ← Prog.call (ServerDb.createSession user.id a.deviceId (hashes.hashToken a.token)
      a.conn.peerAddress) with
  | none => return a.reject .internalError "Failed to create session"
  | some sessionId => a.recording qt user sessionId

def registering (user : UserRow) : Prog ServerDb Outcome := do
  Prog.update
    (ServerDb.registerDevice user.id a.deviceId (deviceNameOf a.deviceId) a.platform)
  a.creating qt hashes user

def verifying (user : UserRow) : Prog ServerDb Outcome :=
  if !hashes.verifyPassword a.clientPassword user.passwordHash then
    a.failing user.id "Wrong password"
  else a.registering qt hashes user

def countingUser (user : UserRow) : Prog ServerDb Outcome := do
  if 5 ≤ (← Prog.query (·.recentFailedLoginCountForUser user.id 300)) then return a.limited
  else a.verifying qt hashes user

def countingAddress (user : UserRow) : Prog ServerDb Outcome := do
  if 10 ≤ (← Prog.query (·.recentFailedLoginCount a.conn.peerAddress 300)) then return a.limited
  else if 0 < user.id then a.countingUser qt hashes user
  else a.verifying qt hashes user

def looking : Prog ServerDb Outcome := do
  match ← Prog.query (·.getUserByUsername a.username) with
  | none => a.failing 0 "User not found"
  | some user => a.countingAddress qt hashes user

end LoginAttempt

/-- What is left of `processLoginRequest` at a phase. -/
def LoginPhase.rest : LoginPhase → Prog ServerDb Outcome
  | .getUser => a.looking qt hashes
  | .countAddress user => a.countingAddress qt hashes user
  | .countUser user => a.countingUser qt hashes user
  | .recordFailure userId failureReason => a.failing userId failureReason
  | .registerDevice user => a.registering qt hashes user
  | .createSession user => a.creating qt hashes user
  | .recordSuccess user sessionId => a.recording qt user sessionId
  | .readClock user sessionId => a.reading qt user sessionId
  | .answered outcome => pure outcome

theorem LoginPhase.rest_checked (user : UserRow) :
    (LoginPhase.checked hashes a user).rest qt hashes a = a.verifying qt hashes user := by
  unfold LoginPhase.checked LoginAttempt.verifying
  split <;> rfl

/-- The check of the counts, and what follows it. -/
theorem checkRateLimit_bind (user : UserRow) :
    (do
      if ← checkRateLimit a.conn.peerAddress user.id then return a.limited
      else a.verifying qt hashes user) = a.countingAddress qt hashes user := by
  refine congrArg (Prog.stmt id) (funext fun db => ?_)
  show ((if 10 ≤ db.recentFailedLoginCount a.conn.peerAddress 300 then pure true
      else if 0 < user.id then do
        return 5 ≤ (← Prog.query (·.recentFailedLoginCountForUser user.id 300))
      else pure false : Prog ServerDb Bool) >>= fun limited =>
        if limited = true then pure a.limited else a.verifying qt hashes user) =
    if 10 ≤ db.recentFailedLoginCount a.conn.peerAddress 300 then pure a.limited
    else if 0 < user.id then a.countingUser qt hashes user
    else a.verifying qt hashes user
  split
  · rfl
  split
  · refine congrArg (Prog.stmt id) (funext fun db => ?_)
    show (if decide (5 ≤ db.recentFailedLoginCountForUser user.id 300) = true then pure a.limited
        else a.verifying qt hashes user) =
      if 5 ≤ db.recentFailedLoginCountForUser user.id 300 then pure a.limited
      else a.verifying qt hashes user
    simp only [decide_eq_true_eq]
  · rfl

theorem processLoginRequest_eq :
    processLoginRequest qt hashes a.token a.requestId a.conn a.request =
      (LoginPhase.start a).rest qt hashes a := by
  unfold LoginPhase.start
  by_cases hempty : a.username = "" ∨ a.clientPassword = ""
  · rw [if_pos hempty]
    exact if_pos hempty
  · rw [if_neg hempty]
    refine (if_neg hempty).trans (congrArg (Prog.stmt id) (funext fun db => ?_))
    show (match db.getUserByUsername a.username with
      | none => _
      | some user => _) = (match db.getUserByUsername a.username with
      | none => a.failing 0 "User not found"
      | some user => a.countingAddress qt hashes user)
    cases db.getUserByUsername a.username with
    | none => rfl
    | some user => exact checkRateLimit_bind qt hashes a user

/-- **The steps of a login** are the statements of `processLoginRequest`. -/
theorem LoginPhase.tells (phase : LoginPhase) :
    Prog.Tells (fun db phase => phase.step qt hashes a db) (LoginPhase.rest qt hashes a) phase := by
  cases phase with
  | getUser =>
      refine .inr ⟨_, _, rfl, fun db => ⟨rfl, ?_⟩⟩
      unfold LoginPhase.step
      dsimp only
      cases db.getUserByUsername a.username <;> rfl
  | countAddress user =>
      refine .inr ⟨_, _, rfl, fun db => ⟨rfl, ?_⟩⟩
      show LoginPhase.rest qt hashes a
          (if 10 ≤ db.recentFailedLoginCount a.conn.peerAddress 300 then .answered a.limited
          else if 0 < user.id then .countUser user
          else .checked hashes a user) =
        if 10 ≤ db.recentFailedLoginCount a.conn.peerAddress 300 then pure a.limited
        else if 0 < user.id then a.countingUser qt hashes user
        else a.verifying qt hashes user
      split
      · rfl
      split
      · rfl
      · exact rest_checked qt hashes a user
  | countUser user =>
      refine .inr ⟨_, _, rfl, fun db => ⟨rfl, ?_⟩⟩
      show LoginPhase.rest qt hashes a
          (if 5 ≤ db.recentFailedLoginCountForUser user.id 300 then .answered a.limited
          else .checked hashes a user) =
        if 5 ≤ db.recentFailedLoginCountForUser user.id 300 then pure a.limited
        else a.verifying qt hashes user
      split
      · rfl
      · exact rest_checked qt hashes a user
  | recordFailure userId failureReason => exact .inr ⟨_, _, rfl, fun db => ⟨rfl, rfl⟩⟩
  | registerDevice user => exact .inr ⟨_, _, rfl, fun db => ⟨rfl, rfl⟩⟩
  | createSession user =>
      refine .inr ⟨_, _, rfl, fun db => ⟨rfl, ?_⟩⟩
      unfold LoginPhase.step
      dsimp only
      cases (db.createSession user.id a.deviceId (hashes.hashToken a.token)
        a.conn.peerAddress).2 <;> rfl
  | recordSuccess user sessionId => exact .inr ⟨_, _, rfl, fun db => ⟨rfl, rfl⟩⟩
  | readClock user sessionId => exact .inr ⟨_, _, rfl, fun db => ⟨rfl, rfl⟩⟩
  | answered outcome => exact .inl ⟨_, rfl, fun db => rfl⟩

/-! ## Logins at the same time -/

/-- The failures of some of the rows of the log, by their times. -/
def failures (p : LoginAuditRow → Bool) (db : ServerDb) : List Int :=
  (db.loginAudit.rows.filter fun row => p row && !row.success).map (·.createdAt)

def addressFailures (ipAddress : String) : ServerDb → List Int :=
  failures fun row => row.ipAddress == ipAddress

def userFailures (userId : Int) : ServerDb → List Int := failures fun row => row.userId == userId

/-- **Bounded failures**: in no window of 300 seconds are more than five failed
verifications of a user's password written down, nor more than ten failures of an
address. -/
structure LoginsBounded (db : ServerDb) : Prop where
  user : ∀ userId, 0 < userId → ∀ lo, inWindow 300 lo (userFailures userId db) ≤ 5
  address : ∀ ipAddress lo, inWindow 300 lo (addressFailures ipAddress db) ≤ 10

/-- The database, and the logins that have been begun. -/
structure LoginServer where
  db : ServerDb
  logins : List (LoginAttempt × LoginPhase) := []

/-- A login begins, one executes its next statement, time passes; or a user registers. -/
inductive LoginOp where
  | arrive (a : LoginAttempt)
  | statement (i : Nat)
  | tick (seconds : Nat)
  | register (username passwordHash : String)

/-- The user for whom a failure is about to be written down; 0 for an unknown name. -/
def LoginPhase.failing : LoginPhase → Option Int
  | .recordFailure userId _ => some userId
  | _ => none

namespace LoginServer

def step (s : LoginServer) : LoginOp → LoginServer
  | .arrive a => { s with logins := s.logins ++ [(a, .start a)] }
  | .statement i =>
      match s.logins[i]? with
      | none => s
      | some (a, phase) =>
          let next := phase.step qt hashes a s.db
          { db := next.1, logins := s.logins.set i (a, next.2) }
  | .tick seconds => { s with db := { s.db with now := s.db.now + seconds } }
  | .register username passwordHash => { s with db := (s.db.registerUser username passwordHash).1 }

/-- The login is past the checks and is to be refused, and it is from the address. -/
def failingAt (ipAddress : String) (x : LoginAttempt × LoginPhase) : Bool :=
  x.2.failing.isSome && x.1.conn.peerAddress == ipAddress

/-- It is for the user. -/
def failingFor (userId : Int) (x : LoginAttempt × LoginPhase) : Bool := x.2.failing == some userId

def addressFailing (s : LoginServer) (ipAddress : String) : Nat :=
  s.logins.countP (failingAt ipAddress)

def userFailing (s : LoginServer) (userId : Int) : Nat := s.logins.countP (failingFor userId)

/-- With one more failure neither the address nor the user gets beyond its limit. -/
def HasRoom (s : LoginServer) (ipAddress : String) (userId : Int) : Prop :=
  s.db.recentFailedLoginCount ipAddress 300 + s.addressFailing ipAddress < 10 ∧
    (0 < userId → s.db.recentFailedLoginCountForUser userId 300 + s.userFailing userId < 5)

instance (s : LoginServer) (ipAddress : String) (userId : Int) :
    Decidable (s.HasRoom ipAddress userId) := by
  unfold HasRoom
  infer_instance

/-- A statement after which a login is to be refused is executed where there is room for
its failure. -/
def Spaced (s : LoginServer) : LoginOp → Prop
  | .statement i =>
      match s.logins[i]? with
      | none => True
      | some (a, phase) =>
          match (phase.step qt hashes a s.db).2.failing with
          | none => True
          | some userId => phase.failing = none → s.HasRoom a.conn.peerAddress userId
  | _ => True

instance (s : LoginServer) : ∀ op, Decidable (s.Spaced qt hashes op)
  | .arrive _ | .tick _ | .register _ _ => isTrue trivial
  | .statement i => by
      unfold Spaced
      dsimp only
      split
      · exact isTrue trivial
      · split <;> infer_instance

end LoginServer

/-- The server on which nobody has tried to log in yet. -/
def loginMachine : Machine LoginServer LoginOp where
  init s := s.logins = [] ∧ s.db.loginAudit.rows = []
  step := LoginServer.step qt hashes

/-- The log is limited for each address and each user, with a place for every failure
that is about to be written down. -/
structure Throttled (s : LoginServer) : Prop where
  address : ∀ ipAddress,
    Limited 10 300 s.db.now (addressFailures ipAddress s.db) (s.addressFailing ipAddress)
  user : ∀ userId, 0 < userId →
    Limited 5 300 s.db.now (userFailures userId s.db) (s.userFailing userId)

theorem Throttled.bounded {s : LoginServer} (h : Throttled s) : LoginsBounded s.db where
  user userId hpos := (h.user userId hpos).windows
  address ipAddress := (h.address ipAddress).windows

end

/-! ## What a statement does to the log -/

section

variable {qt : Qt} {hashes : Hashes} {a : LoginAttempt} {db db' : ServerDb} {s : LoginServer}

theorem recent_failures {p : LoginAuditRow → Bool} :
    recent 300 db.now (failures p db) =
      db.loginAudit.rows.countP fun row => p row && !row.success && db.now - 300 ≤ row.createdAt := by
  unfold recent failures
  rw [List.countP_map, List.countP_filter]
  refine List.countP_congr fun row _ => ?_
  rw [Function.comp_apply, Bool.and_comm]

theorem recentFailedLoginCount_eq {ipAddress : String} :
    db.recentFailedLoginCount ipAddress 300 = recent 300 db.now (addressFailures ipAddress db) :=
  recent_failures.symm

theorem recentFailedLoginCountForUser_eq {userId : Int} :
    db.recentFailedLoginCountForUser userId 300 = recent 300 db.now (userFailures userId db) :=
  recent_failures.symm

/-- A failure goes to the end of the log; a success is none. -/
theorem failures_recordLoginAttempt {p : LoginAuditRow → Bool} {userId : Int} {ipAddress : String}
    {success : Bool} {failureReason : String} :
    failures p (db.recordLoginAttempt userId ipAddress success failureReason) =
      failures p db ++
        if p ⟨db.loginAudit.lastId + 1, userId, ipAddress, success, failureReason, db.now⟩ && !success
        then [db.now] else [] := by
  unfold failures ServerDb.recordLoginAttempt
  show List.map _ (List.filter _ (db.loginAudit.rows ++ [_])) = _
  rw [List.filter_append, List.map_append]
  congr 1
  split
  · rw [List.filter_cons_of_pos (by assumption)]
    rfl
  · rw [List.filter_cons_of_neg (by assumption)]
    rfl

/-- Unless it writes a failure down, a statement leaves the failures and the clock. -/
theorem LoginPhase.step_failures {phase : LoginPhase} (h : phase.failing = none)
    (p : LoginAuditRow → Bool) :
    failures p (phase.step qt hashes a db).1 = failures p db ∧
      (phase.step qt hashes a db).1.now = db.now := by
  cases phase with
  | getUser | countAddress | countUser | readClock | answered => exact ⟨rfl, rfl⟩
  | recordFailure => cases h
  | registerDevice user =>
      refine ⟨rfl, ?_⟩
      obtain ⟨devices, hdb⟩ := db.toDb.registerDevice_eq user.id a.deviceId
        (deviceNameOf a.deviceId) a.platform
      show (db.toDb.registerDevice user.id a.deviceId _ _).now = db.now
      rw [hdb]
  | createSession user =>
      unfold LoginPhase.step
      dsimp only
      unfold ServerDb.createSession
      split <;> exact ⟨rfl, rfl⟩
  | recordSuccess user sessionId =>
      refine ⟨?_, rfl⟩
      show failures p (db.recordLoginAttempt _ _ true _) = _
      rw [failures_recordLoginAttempt, Bool.not_true, Bool.and_false]
      exact List.append_nil _

/-- One login goes on: of the logins with a property there is one less if it had it, and
one more if it has it. -/
theorem countP_goOn {logins : List (LoginAttempt × LoginPhase)} {i : Nat}
    {x : LoginAttempt × LoginPhase} (hx : logins[i]? = some x) (y : LoginAttempt × LoginPhase)
    (p : LoginAttempt × LoginPhase → Bool) :
    (logins.set i y).countP p + (if p x then 1 else 0) =
      logins.countP p + if p y then 1 else 0 := by
  obtain ⟨hi, rfl⟩ := List.getElem?_eq_some_iff.mp hx
  have hle := @List.boole_getElem_le_countP _ p logins i hi
  rw [List.countP_set hi]
  omega

/-- A login that is to be refused is answered; no other one has a failure to write down. -/
theorem LoginPhase.failing_eq_some {phase : LoginPhase} {userId : Int}
    (h : phase.failing = some userId) :
    ∃ failureReason, phase = .recordFailure userId failureReason := by
  cases phase with
  | recordFailure u failureReason =>
      cases h
      exact ⟨failureReason, rfl⟩
  | getUser | countAddress | countUser | registerDevice | createSession | recordSuccess
  | readClock | answered => cases h

/-! ## Steps -/

/-- The failure of a login is written down in the place that was reserved for it. -/
theorem Throttled.record {i : Nat} {userId : Int} {failureReason : String} (h : Throttled s)
    (hi : s.logins[i]? = some (a, .recordFailure userId failureReason)) :
    Throttled
      { db := s.db.recordLoginAttempt userId a.conn.peerAddress false failureReason
        logins := s.logins.set i (a, .answered a.refused) } where
  address ipAddress := by
    have hcount := countP_goOn hi (a, .answered a.refused) (LoginServer.failingAt ipAddress)
    have hanswered : LoginServer.failingAt ipAddress (a, .answered a.refused) = false := rfl
    have hlimited := h.address ipAddress
    unfold addressFailures at hlimited ⊢
    unfold LoginServer.addressFailing at hlimited ⊢
    rw [failures_recordLoginAttempt]
    have hfails : LoginServer.failingAt ipAddress (a, .recordFailure userId failureReason) =
        (a.conn.peerAddress == ipAddress) := rfl
    rw [hanswered, if_neg Bool.false_ne_true, Nat.add_zero, hfails] at hcount
    by_cases hip : a.conn.peerAddress = ipAddress
    · rw [if_pos (beq_iff_eq.mpr hip)] at hcount
      rw [← hcount] at hlimited
      rw [if_pos (by simpa using hip)]
      exact hlimited.take (by decide)
    · rw [if_neg (fun h => hip (beq_iff_eq.mp h)), Nat.add_zero] at hcount
      rw [if_neg (by simpa using hip), List.append_nil, hcount]
      exact hlimited
  user u hpos := by
    have hcount := countP_goOn hi (a, .answered a.refused) (LoginServer.failingFor u)
    have hanswered : LoginServer.failingFor u (a, .answered a.refused) = false := rfl
    have hlimited := h.user u hpos
    unfold userFailures at hlimited ⊢
    unfold LoginServer.userFailing at hlimited ⊢
    rw [failures_recordLoginAttempt]
    have hfails : LoginServer.failingFor u (a, .recordFailure userId failureReason) =
        (some userId == some u) := rfl
    rw [hanswered, if_neg Bool.false_ne_true, Nat.add_zero, hfails] at hcount
    by_cases hu : userId = u
    · subst hu
      rw [if_pos (beq_self_eq_true _)] at hcount
      rw [← hcount] at hlimited
      rw [if_pos (by simp)]
      exact hlimited.take (by decide)
    · rw [if_neg (fun h => hu (Option.some.inj (beq_iff_eq.mp h))), Nat.add_zero] at hcount
      rw [if_neg (by simpa using hu), List.append_nil, hcount]
      exact hlimited

/-- A login that is to be refused gets its place where there is room. -/
theorem Throttled.goOn {i : Nat} {phase : LoginPhase} (h : Throttled s)
    (hi : s.logins[i]? = some (a, phase)) (hphase : phase.failing = none)
    (hroom : ∀ userId, (phase.step qt hashes a s.db).2.failing = some userId →
      s.HasRoom a.conn.peerAddress userId) :
    Throttled
      { db := (phase.step qt hashes a s.db).1
        logins := s.logins.set i (a, (phase.step qt hashes a s.db).2) } where
  address ipAddress := by
    have hsame := @LoginPhase.step_failures qt hashes a s.db phase hphase
      fun row => row.ipAddress == ipAddress
    have hcount := countP_goOn hi (a, (phase.step qt hashes a s.db).2)
      (LoginServer.failingAt ipAddress)
    have hbefore : LoginServer.failingAt ipAddress (a, phase) = false := by
      unfold LoginServer.failingAt
      rw [hphase]
      rfl
    have hlimited := h.address ipAddress
    rw [hbefore, if_neg Bool.false_ne_true, Nat.add_zero] at hcount
    unfold addressFailures at hlimited ⊢
    unfold LoginServer.addressFailing at hlimited ⊢
    dsimp only
    rw [hsame.1, hsame.2, hcount]
    by_cases hnext : LoginServer.failingAt ipAddress (a, (phase.step qt hashes a s.db).2) = true
    · rw [if_pos hnext]
      unfold LoginServer.failingAt at hnext
      obtain ⟨hsome, hip⟩ := Bool.and_eq_true_iff.mp hnext
      obtain ⟨userId, huser⟩ := Option.isSome_iff_exists.mp hsome
      have hfew := (hroom userId huser).1
      rw [beq_iff_eq.mp hip, recentFailedLoginCount_eq] at hfew
      exact hlimited.reserve hfew
    · rw [if_neg hnext]
      exact hlimited
  user u hpos := by
    have hsame := @LoginPhase.step_failures qt hashes a s.db phase hphase fun row => row.userId == u
    have hcount := countP_goOn hi (a, (phase.step qt hashes a s.db).2) (LoginServer.failingFor u)
    have hbefore : LoginServer.failingFor u (a, phase) = false := by
      unfold LoginServer.failingFor
      rw [hphase]
      rfl
    have hlimited := h.user u hpos
    rw [hbefore, if_neg Bool.false_ne_true, Nat.add_zero] at hcount
    unfold userFailures at hlimited ⊢
    unfold LoginServer.userFailing at hlimited ⊢
    dsimp only
    rw [hsame.1, hsame.2, hcount]
    by_cases hnext : LoginServer.failingFor u (a, (phase.step qt hashes a s.db).2) = true
    · rw [if_pos hnext]
      have hfew := (hroom u (beq_iff_eq.mp hnext)).2 hpos
      rw [recentFailedLoginCountForUser_eq] at hfew
      exact hlimited.reserve hfew
    · rw [if_neg hnext]
      exact hlimited

/-- Nothing of the log, nor of the logins that are to be refused, is different. -/
theorem Throttled.of_same {s' : LoginServer} (h : Throttled s)
    (hrows : s'.db.loginAudit = s.db.loginAudit) (hnow : s.db.now ≤ s'.db.now)
    (haddress : ∀ ipAddress, s'.addressFailing ipAddress = s.addressFailing ipAddress)
    (huser : ∀ userId, s'.userFailing userId = s.userFailing userId) : Throttled s' where
  address ipAddress := by
    unfold addressFailures failures
    rw [hrows, haddress]
    exact (h.address ipAddress).later hnow
  user u hpos := by
    unfold userFailures failures
    rw [hrows, huser]
    exact (h.user u hpos).later hnow

/-- **Step.** -/
theorem Throttled.step {op : LoginOp} (h : Throttled s) (hop : s.Spaced qt hashes op) :
    Throttled (s.step qt hashes op) := by
  cases op with
  | arrive a =>
      have hnone : (LoginPhase.start a).failing = none := by
        unfold LoginPhase.start
        split <;> rfl
      refine h.of_same rfl (Int.le_refl _) (fun ipAddress => ?_) fun userId => ?_
      · show (s.logins ++ [(a, LoginPhase.start a)]).countP (LoginServer.failingAt ipAddress) = _
        have hfew : LoginServer.failingAt ipAddress (a, .start a) = false := by
          unfold LoginServer.failingAt
          rw [hnone]
          rfl
        rw [List.countP_append, List.countP_singleton, hfew]
        rfl
      · show (s.logins ++ [(a, LoginPhase.start a)]).countP (LoginServer.failingFor userId) = _
        have hfew : LoginServer.failingFor userId (a, .start a) = false := by
          unfold LoginServer.failingFor
          rw [hnone]
          rfl
        rw [List.countP_append, List.countP_singleton, hfew]
        rfl
  | statement i =>
      unfold LoginServer.Spaced at hop
      unfold LoginServer.step
      dsimp only at hop ⊢
      split
      · exact h
      · rename_i a phase hi
        rw [hi] at hop
        dsimp only at hop ⊢
        cases hphase : phase.failing with
        | some userId =>
            obtain ⟨failureReason, rfl⟩ := LoginPhase.failing_eq_some hphase
            exact h.record hi
        | none =>
            refine h.goOn hi hphase fun userId hnext => ?_
            rw [hnext] at hop
            exact hop hphase
  | tick seconds =>
      refine h.of_same rfl ?_ (fun _ => rfl) fun _ => rfl
      show s.db.now ≤ s.db.now + (seconds : Int)
      omega
  | register username passwordHash =>
      refine h.of_same rfl (le_of_eq ?_) (fun _ => rfl) fun _ => rfl
      show s.db.now = (s.db.toDb.registerUser username passwordHash).1.now
      unfold Db.registerUser
      split <;> rfl

/-- **Failed logins are bounded**, however the statements of the logins interleave, as
long as each login that is refused past the checks gets there while, with the failures
that are still to be written down, there is room for its own. -/
theorem loginsBounded_of_spaced {ops : List LoginOp} (hs : (loginMachine qt hashes).init s)
    (h : (loginMachine qt hashes).Along (LoginServer.Spaced qt hashes) s ops) :
    (loginMachine qt hashes).Always (fun s => LoginsBounded s.db) s ops := by
  have hstart : Throttled s := by
    obtain ⟨hlogins, hrows⟩ := hs
    constructor
    · intro ipAddress
      unfold addressFailures failures LoginServer.addressFailing
      rw [hrows, hlogins]
      exact Limited.empty
    · intro userId _
      unfold userFailures failures LoginServer.userFailing
      rw [hrows, hlogins]
      exact Limited.empty
  exact (Machine.always_of_along (fun _ _ h hop => h.step hop) hstart h).mono fun _ h => h.bounded

end

/-! ## One at a time -/

def LoginPhase.isAnswered : LoginPhase → Bool
  | .answered _ => true
  | _ => false

/-- A login begins when all before it are answered, and asks for a user there is. -/
def LoginServer.OneAtATime (s : LoginServer) : LoginOp → Prop
  | .arrive _ => ∀ x ∈ s.logins, x.2.isAnswered = true
  | .statement i => ∀ a, s.logins[i]? = some (a, .getUser) →
      (s.db.getUserByUsername a.username).isSome = true
  | _ => True

/-- One login at most is under way, and the counts that it has read still hold. -/
structure LoginServer.Alone (s : LoginServer) : Prop where
  one : ∀ (i j : Nat) (a b : LoginAttempt) (phase phase' : LoginPhase),
    s.logins[i]? = some (a, phase) → s.logins[j]? = some (b, phase') →
      phase.isAnswered = false → phase'.isAnswered = false → i = j
  counted : ∀ a user, (a, LoginPhase.countUser user) ∈ s.logins →
    s.db.recentFailedLoginCount a.conn.peerAddress 300 < 10
  known : ∀ a user, (a, LoginPhase.countAddress user) ∈ s.logins → 0 < user.id

section

variable {qt : Qt} {hashes : Hashes} {a : LoginAttempt} {db : ServerDb} {s : LoginServer}

theorem LoginPhase.step_answered {phase : LoginPhase} (h : phase.isAnswered = true) :
    phase.step qt hashes a db = (db, phase) := by
  cases phase with
  | answered outcome => rfl
  | getUser | countAddress | countUser | recordFailure | registerDevice | createSession
  | recordSuccess | readClock => cases h

theorem LoginPhase.isAnswered_of_failing {phase : LoginPhase} (h : phase.failing.isSome = true) :
    phase.isAnswered = false := by
  cases phase with
  | recordFailure => rfl
  | answered => cases h
  | getUser | countAddress | countUser | registerDevice | createSession | recordSuccess
  | readClock => rfl

theorem LoginPhase.failing_checked {user : UserRow} {userId : Int}
    (h : (LoginPhase.checked hashes a user).failing = some userId) : userId = user.id := by
  unfold LoginPhase.checked at h
  split at h
  · exact (Option.some.inj h).symm
  · cases h

/-- Which statements lead to a failure. -/
theorem LoginPhase.step_failing {phase : LoginPhase} {userId : Int}
    (hphase : phase.failing = none)
    (h : (phase.step qt hashes a db).2.failing = some userId) :
    (phase = .getUser ∧ db.getUserByUsername a.username = none) ∨
    (∃ user, phase = .countAddress user ∧ ¬0 < user.id) ∨
    ∃ user, phase = .countUser user ∧ userId = user.id ∧
      db.recentFailedLoginCountForUser user.id 300 < 5 := by
  cases phase with
  | getUser =>
      unfold LoginPhase.step at h
      dsimp only at h
      cases hfound : db.getUserByUsername a.username with
      | none => exact .inl ⟨rfl, rfl⟩
      | some user =>
          rw [hfound] at h
          cases h
  | countAddress user =>
      unfold LoginPhase.step at h
      dsimp only at h
      split at h
      · cases h
      split at h
      · cases h
      · rename_i hunknown
        exact .inr (.inl ⟨user, rfl, hunknown⟩)
  | countUser user =>
      unfold LoginPhase.step at h
      dsimp only at h
      split at h
      · cases h
      · rename_i hfew
        exact .inr (.inr ⟨user, rfl, failing_checked h, Nat.not_le.mp hfew⟩)
  | recordFailure => cases hphase
  | createSession user =>
      unfold LoginPhase.step at h
      dsimp only at h
      split at h <;> cases h
  | registerDevice | recordSuccess | readClock | answered => cases h

theorem LoginPhase.checked_counts (user other : UserRow) :
    LoginPhase.checked hashes a user ≠ .countAddress other ∧
      LoginPhase.checked hashes a user ≠ .countUser other := by
  unfold LoginPhase.checked
  split <;> constructor <;> rintro ⟨⟩

/-- Which statements lead to a count: the address is counted for a known user, and the
user below the limit of the address. -/
theorem LoginPhase.step_counts (phase : LoginPhase) :
    (∃ user, phase = .getUser ∧ db.getUserByUsername a.username = some user ∧
      (phase.step qt hashes a db).2 = .countAddress user) ∨
    (∃ user, phase = .countAddress user ∧
      db.recentFailedLoginCount a.conn.peerAddress 300 < 10 ∧
      (phase.step qt hashes a db).2 = .countUser user) ∨
    ∀ user, (phase.step qt hashes a db).2 ≠ .countAddress user ∧
      (phase.step qt hashes a db).2 ≠ .countUser user := by
  cases phase with
  | getUser =>
      unfold LoginPhase.step
      dsimp only
      cases hfound : db.getUserByUsername a.username with
      | none =>
          refine .inr (.inr fun user => ?_)
          constructor <;> rintro ⟨⟩
      | some user => exact .inl ⟨user, rfl, rfl, rfl⟩
  | countAddress found =>
      unfold LoginPhase.step
      dsimp only
      split
      · refine .inr (.inr fun user => ?_)
        constructor <;> rintro ⟨⟩
      rename_i hfew
      split
      · exact .inr (.inl ⟨found, rfl, Nat.not_le.mp hfew, rfl⟩)
      · exact .inr (.inr (checked_counts found))
  | countUser found =>
      unfold LoginPhase.step
      dsimp only
      split
      · refine .inr (.inr fun user => ?_)
        constructor <;> rintro ⟨⟩
      · exact .inr (.inr (checked_counts found))
  | createSession found =>
      refine .inr (.inr fun user => ?_)
      unfold LoginPhase.step
      dsimp only
      constructor <;> split <;> rintro ⟨⟩
  | recordFailure | registerDevice | recordSuccess | readClock | answered =>
      refine .inr (.inr fun user => ?_)
      constructor <;> rintro ⟨⟩

theorem LoginPhase.step_eq_countUser {phase : LoginPhase} {user : UserRow}
    (h : (phase.step qt hashes a db).2 = .countUser user) :
    phase = .countAddress user ∧ db.recentFailedLoginCount a.conn.peerAddress 300 < 10 := by
  obtain ⟨_, -, -, hnext⟩ | ⟨_, rfl, hfew, hnext⟩ | hother := step_counts phase
  · cases hnext.symm.trans h
  · cases hnext.symm.trans h
    exact ⟨rfl, hfew⟩
  · exact absurd h (hother user).2

theorem LoginPhase.step_eq_countAddress {phase : LoginPhase} {user : UserRow}
    (h : (phase.step qt hashes a db).2 = .countAddress user) :
    phase = .getUser ∧ db.getUserByUsername a.username = some user := by
  obtain ⟨_, rfl, hfound, hnext⟩ | ⟨_, -, -, hnext⟩ | hother := step_counts phase
  · cases hnext.symm.trans h
    exact ⟨rfl, hfound⟩
  · cases hnext.symm.trans h
  · exact absurd h (hother user).1

namespace LoginServer

/-- While a login that is under way has no failure to write down, nobody has. -/
theorem Alone.none_failing {i : Nat} {phase : LoginPhase} (h : s.Alone)
    (hi : s.logins[i]? = some (a, phase)) (hbusy : phase.isAnswered = false)
    (hphase : phase.failing = none) : ∀ x ∈ s.logins, x.2.failing = none := by
  intro x hx
  obtain ⟨j, hj⟩ := List.getElem?_of_mem hx
  cases hfailing : x.2.failing with
  | none => rfl
  | some userId =>
      have hij := h.one i j a x.1 phase x.2 hi hj hbusy
        (LoginPhase.isAnswered_of_failing (by rw [hfailing]; rfl))
      subst hij
      have hsame : (a, phase) = x := Option.some.inj (hi.symm.trans hj)
      rw [← hsame, hphase] at hfailing
      cases hfailing

/-- **The check gives the room.** A login that nobody overtakes has read both counts below
their limits when it gets to its failure. -/
theorem Alone.room {i : Nat} {phase : LoginPhase} {userId : Int} (h : s.Alone)
    (hknown : ∀ a, s.logins[i]? = some (a, .getUser) →
      (s.db.getUserByUsername a.username).isSome = true)
    (hi : s.logins[i]? = some (a, phase)) (hphase : phase.failing = none)
    (hnext : (phase.step qt hashes a s.db).2.failing = some userId) :
    s.HasRoom a.conn.peerAddress userId := by
  have hmem := List.mem_of_getElem? hi
  obtain ⟨rfl, hmissing⟩ | ⟨user, rfl, hunknown⟩ | ⟨user, rfl, rfl, hfew⟩ :=
    LoginPhase.step_failing hphase hnext
  · -- a known user is counted first
    have hfound := hknown a hi
    rw [hmissing] at hfound
    cases hfound
  · exact absurd (h.known a user hmem) hunknown
  · -- nobody else has a failure to write down, so the counts are all there is
    have hnone := h.none_failing hi rfl hphase
    have haddress : s.addressFailing a.conn.peerAddress = 0 := by
      refine List.countP_eq_zero.mpr fun x hx => ?_
      unfold failingAt
      rw [hnone x hx]
      exact Bool.false_ne_true
    have huser : s.userFailing user.id = 0 := by
      refine List.countP_eq_zero.mpr fun x hx => ?_
      unfold failingFor
      rw [hnone x hx]
      exact Bool.false_ne_true
    unfold HasRoom
    rw [haddress, huser, Nat.add_zero, Nat.add_zero]
    exact ⟨h.counted a user hmem, fun _ => hfew⟩

theorem Alone.spaced {op : LoginOp} (h : s.Alone) (hop : s.OneAtATime op) :
    s.Spaced qt hashes op := by
  cases op with
  | arrive | tick | register => trivial
  | statement i =>
      unfold Spaced
      dsimp only
      split
      · trivial
      rename_i a phase hi
      split
      · trivial
      rename_i userId hnext
      exact fun hphase => h.room hop hi hphase hnext

theorem Alone.statement {i : Nat} {phase : LoginPhase} (h : s.Alone)
    (hi : s.logins[i]? = some (a, phase)) (hbusy : phase.isAnswered = false) :
    Alone
      { db := (phase.step qt hashes a s.db).1
        logins := s.logins.set i (a, (phase.step qt hashes a s.db).2) } where
  one j k b c phase₁ phase₂ hj hk hbusy₁ hbusy₂ := by
    -- who is under way after the statement is the one who executed it
    have hat : ∀ n b phase', (s.logins.set i (a, (phase.step qt hashes a s.db).2))[n]? =
        some (b, phase') → phase'.isAnswered = false → n = i := by
      intro n b phase' hn hbusy'
      by_cases hne : n = i
      · exact hne
      · rw [List.getElem?_set_ne (Ne.symm hne)] at hn
        exact h.one n i b a phase' phase hn hi hbusy' hbusy
    exact (hat j b phase₁ hj hbusy₁).trans (hat k c phase₂ hk hbusy₂).symm
  counted b user hmem := by
    rcases List.mem_or_eq_of_mem_set hmem with hold | hnew
    · obtain ⟨j, hj⟩ := List.getElem?_of_mem hold
      obtain rfl := h.one i j a b phase _ hi hj hbusy rfl
      obtain ⟨rfl, rfl⟩ := Prod.mk.inj (Option.some.inj (hi.symm.trans hj))
      exact h.counted a user hold
    · obtain ⟨rfl, hnext⟩ := Prod.mk.inj hnew
      obtain ⟨rfl, hfew⟩ := LoginPhase.step_eq_countUser hnext.symm
      exact hfew
  known b user hmem := by
    rcases List.mem_or_eq_of_mem_set hmem with hold | hnew
    · exact h.known b user hold
    · obtain ⟨rfl, hnext⟩ := Prod.mk.inj hnew
      obtain ⟨-, hfound⟩ := LoginPhase.step_eq_countAddress hnext.symm
      exact (s.db.users.bounded user (List.mem_of_find?_eq_some hfound)).1

theorem Alone.arrive (h : s.Alone) (hidle : ∀ x ∈ s.logins, x.2.isAnswered = true)
    (a : LoginAttempt) : Alone { s with logins := s.logins ++ [(a, .start a)] } := by
  -- only the new login can be under way
  have hold : ∀ i b phase, (s.logins ++ [(a, LoginPhase.start a)])[i]? = some (b, phase) →
      phase.isAnswered = false → i = s.logins.length := by
    intro i b phase hi hbusy
    by_cases hlt : i < s.logins.length
    · rw [List.getElem?_append_left hlt] at hi
      rw [hidle _ (List.mem_of_getElem? hi)] at hbusy
      cases hbusy
    · have hlength := (List.getElem?_eq_some_iff.mp hi).1
      rw [List.length_append, List.length_singleton] at hlength
      omega
  have hstart : ∀ user, LoginPhase.start a ≠ .countUser user ∧
      LoginPhase.start a ≠ .countAddress user := by
    intro user
    unfold LoginPhase.start
    constructor <;> split <;> rintro ⟨⟩
  refine ⟨fun i j b c phase phase' hi hj hbusy hbusy' => ?_, fun b user hmem => ?_,
    fun b user hmem => ?_⟩
  · exact (hold i b phase hi hbusy).trans (hold j c phase' hj hbusy').symm
  · rcases List.mem_append.mp hmem with hmem | hmem
    · exact h.counted b user hmem
    · exact absurd (Prod.mk.inj (List.mem_singleton.mp hmem)).2.symm (hstart user).1
  · rcases List.mem_append.mp hmem with hmem | hmem
    · exact h.known b user hmem
    · exact absurd (Prod.mk.inj (List.mem_singleton.mp hmem)).2.symm (hstart user).2

/-- **Step.** -/
theorem Alone.step {op : LoginOp} (h : s.Alone) (hop : s.OneAtATime op) :
    (s.step qt hashes op).Alone := by
  cases op with
  | arrive a => exact h.arrive hop a
  | statement i =>
      unfold LoginServer.step
      dsimp only
      split
      · exact h
      · rename_i a phase hi
        cases hbusy : phase.isAnswered with
        | false => exact h.statement hi hbusy
        | true =>
            obtain ⟨hlt, hat⟩ := List.getElem?_eq_some_iff.mp hi
            rw [LoginPhase.step_answered hbusy, ← hat, List.set_getElem_self]
            exact h
  | tick seconds =>
      -- a window that moves on has no more failures in it
      refine ⟨h.one, fun a user hmem => Nat.lt_of_le_of_lt ?_ (h.counted a user hmem), h.known⟩
      have hlater : s.db.now ≤ (s.step qt hashes (.tick seconds)).db.now := by
        show s.db.now ≤ s.db.now + (seconds : Int)
        omega
      rw [recentFailedLoginCount_eq, recentFailedLoginCount_eq]
      exact recent_later hlater _
  | register username passwordHash =>
      refine ⟨h.one, fun a user hmem => Nat.lt_of_le_of_lt (Nat.le_of_eq ?_)
        (h.counted a user hmem), h.known⟩
      have hnow : (s.step qt hashes (.register username passwordHash)).db.now = s.db.now := by
        show (s.db.toDb.registerUser username passwordHash).1.now = s.db.now
        unfold Db.registerUser
        split <;> rfl
      unfold ServerDb.recentFailedLoginCount
      rw [hnow]
      rfl

end LoginServer

/-- **One login after the other**: as long as they ask for users there are, the check of the
counts alone gives every failure its room. -/
theorem spaced_of_oneAtATime {ops : List LoginOp} (hs : (loginMachine qt hashes).init s)
    (h : (loginMachine qt hashes).Along LoginServer.OneAtATime s ops) :
    (loginMachine qt hashes).Along (LoginServer.Spaced qt hashes) s ops := by
  have hstart : s.Alone := by
    have hnil : s.logins = [] := hs.1
    refine ⟨fun i j a b phase phase' hi => ?_, fun a user hmem => ?_, fun a user hmem => ?_⟩
    · rw [hnil] at hi
      cases hi
    · rw [hnil] at hmem
      cases hmem
    · rw [hnil] at hmem
      cases hmem
  exact Machine.along_of_along (fun s op h hop => ⟨h.spaced hop, h.step hop⟩) hstart h

end

/-! ## Six at a time -/

/-- Passwords are stored as they are. -/
def openPasswords : Hashes where
  hashToken token := token
  hashPasswordWithSalt _ password := password
  verifyPassword password hash := password == hash

def noTexts : Qt where
  fromJson _ := none
  toJson _ := ""
  fromBase64 _ := []
  toBase64 _ := ""
  isoDate _ := ""

/-- A login of alice, or of somebody, with a password. -/
def loginOf (username password : String) : LoginAttempt where
  conn := { peerAddress := "10.0.0.1" }
  request := .obj [("username", .str username), ("password", .str password)]
  token := "t"
  requestId := 1

/-- Alice's account, whose password is "right". -/
def alicesServer : LoginServer where
  db := (ServerDb.registerUser "alice" "right" {}).1

/-- Two logins at the same time, a wrong one and then the right one. -/
def wrongThenRight : List LoginOp :=
  [.arrive (loginOf "alice" "wrong"), .arrive (loginOf "alice" "right")]
    ++ List.replicate 4 (.statement 0) ++ List.replicate 7 (.statement 1)

/-- Six wrong ones, which have all read the counts before the first is written down. -/
def sixWrong : List LoginOp :=
  List.replicate 6 (.arrive (loginOf "alice" "wrong"))
    ++ (List.range 6).flatMap (fun i => List.replicate 3 (.statement i))
    ++ (List.range 6).map .statement

/-- Eleven for an unknown name, one after the other. -/
def elevenUnknown : List LoginOp :=
  (List.range 11).flatMap fun i =>
    [.arrive (loginOf "nobody" "wrong"), .statement i, .statement i]

theorem loginsBounded_wrongThenRight :
    (loginMachine noTexts openPasswords).Always (fun s => LoginsBounded s.db) alicesServer
      wrongThenRight :=
  loginsBounded_of_spaced ⟨rfl, rfl⟩ (by decide +kernel)

/-- **The defect**, twice: the counts are read long before the failure is written down, and
not at all for an unknown name. -/
theorem loginsBounded_sixWrong :
    (loginMachine noTexts openPasswords).init alicesServer ∧
      ¬(loginMachine noTexts openPasswords).Always (fun s => LoginsBounded s.db) alicesServer
        sixWrong ∧
      ¬(loginMachine noTexts openPasswords).Always (fun s => LoginsBounded s.db) alicesServer
        elevenUnknown := by
  refine ⟨⟨rfl, rfl⟩, fun h => ?_, fun h => ?_⟩
  · have hfive := h.last.user 1 (by decide) 0
    revert hfive
    decide +kernel
  · have hten := h.last.address "10.0.0.1" 0
    revert hten
    decide +kernel

end XYChat.Server
