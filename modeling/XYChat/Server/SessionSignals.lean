import XYChat.Server.Authorization
import XYChat.Server.Routing

/-!
# What handlers tell the server about sessions

A handler that logs its connection in tells the server about the session it has
created; one that ends a session tells it about that one; a renewal tells it
nothing. One lemma for each handler, whatever the other threads do meanwhile.
-/

namespace XYChat.Server

open XYChat.Lib XYChat.Lib.Prog

/-- What a handler has come to: the thread it was started by, the session it has
created, the one it has found in the table (each with its user), and the one it
has deleted. -/
structure SessionGhost where
  thread : HandlerThread
  created : Option (Int × Int) := none
  found : Option (Int × Int) := none
  removed : Option Int := none

/-- The connection the handler was started for. -/
abbrev SessionGhost.conn (t : SessionGhost) : Connection := t.thread.conn

/-- The same sessions, as far as their ids and users go. -/
structure SameSessions (db db' : ServerDb) : Prop where
  lastId : db'.sessions.lastId = db.sessions.lastId
  rows : ∀ row' ∈ db'.sessions.rows,
    ∃ row ∈ db.sessions.rows, row.id = row'.id ∧ row.userId = row'.userId
  kept : ∀ row ∈ db.sessions.rows, ∃ row' ∈ db'.sessions.rows, row'.id = row.id

/-- What one statement of a handler may do to the sessions. -/
structure SessionStatement (t : SessionGhost) (db db' : ServerDb) (t' : SessionGhost) : Prop where
  thread : t'.thread = t.thread
  created : (db'.sessions.lastId = db.sessions.lastId ∧ t'.created = t.created) ∨
    (db'.sessions.lastId = db.sessions.lastId + 1 ∧
      ∃ userId, t'.created = some (db.sessions.lastId + 1, userId))
  rows : ∀ row' ∈ db'.sessions.rows,
    (∃ row ∈ db.sessions.rows, row.id = row'.id ∧ row.userId = row'.userId) ∨
      (row'.id = db.sessions.lastId + 1 ∧ t'.created = some (row'.id, row'.userId))
  found : t'.found = t.found ∨ ∃ row ∈ db.sessions.rows, t'.found = some (row.id, row.userId)
  lost : ∀ row ∈ db.sessions.rows,
    (∃ row' ∈ db'.sessions.rows, row'.id = row.id) ∨ t'.removed = some row.id
  removed : ∀ sessionId, t.removed = some sessionId → t'.removed = some sessionId

def sessionProtocol : Protocol ServerDb SessionGhost where
  holds _ _ := True
  step := SessionStatement

/-- What a request leaves of the connection's session, and what its handler
tells the server. -/
inductive SessionEnd (t : SessionGhost) (o : Outcome) : Prop where
  | same (user : o.conn.authenticatedUserId = t.conn.authenticatedUserId)
      (session : o.conn.currentSessionId = t.conn.currentSessionId) (signals : o.signals = [])
  | loggedIn (userId sessionId : Int) (pos : 0 < sessionId)
      (created : t.created = some (sessionId, userId))
      (user : o.conn.authenticatedUserId = userId) (session : o.conn.currentSessionId = sessionId)
      (signals : o.signals = [.userLoggedIn userId sessionId])
  | renewed (sessionId : Int) (pos : 0 < sessionId)
      (serving : t.thread.serving = some .tokenRenew)
      (created : t.created = some (sessionId, t.conn.authenticatedUserId))
      (user : o.conn.authenticatedUserId = t.conn.authenticatedUserId)
      (session : o.conn.currentSessionId = sessionId) (signals : o.signals = [])
  | loggedOut (current : 0 < t.conn.currentSessionId) (user : o.conn.authenticatedUserId = 0)
      (session : o.conn.currentSessionId = 0)
      (signals : o.signals =
        [.userLoggedOut t.conn.authenticatedUserId t.conn.currentSessionId])
  | terminated (sessionId : Int) (found : t.found = some (sessionId, t.conn.authenticatedUserId))
      (user : o.conn.authenticatedUserId = t.conn.authenticatedUserId)
      (session : o.conn.currentSessionId = t.conn.currentSessionId)
      (signals : o.signals =
        [.userLoggedOut t.conn.authenticatedUserId sessionId, .sessionTerminated sessionId])

/-- How a handler ends: what `TerminateSession` has deleted it tells the
server. -/
structure Tells (t : SessionGhost) (o : Outcome) : Prop where
  ends : SessionEnd t o
  owed : t.thread.serving = some .terminateSession → ∀ sessionId, t.removed = some sessionId →
    o.signals =
      [.userLoggedOut t.conn.authenticatedUserId sessionId, .sessionTerminated sessionId]

/-! ## Statements -/

theorem SameSessions.of_eq {db db' : ServerDb} (h : db'.sessions = db.sessions) :
    SameSessions db db' := by
  refine ⟨by rw [h], fun row hrow => ?_, fun row hrow => ?_⟩
  · exact ⟨row, h ▸ hrow, rfl, rfl⟩
  · exact ⟨row, h ▸ hrow, rfl⟩

theorem sameSessions_lastActive (sessionId : Int) (db : ServerDb) :
    SameSessions db (db.updateSessionLastActive sessionId) := by
  refine ⟨rfl, fun row' hrow' => ?_, fun row hrow => ?_⟩
  · obtain ⟨row, hrow, rfl⟩ := List.mem_map.mp hrow'
    refine ⟨row, hrow, ?_⟩
    split <;> exact ⟨rfl, rfl⟩
  · refine ⟨_, List.mem_map.mpr ⟨row, hrow, rfl⟩, ?_⟩
    split <;> rfl

theorem sameSessions_recordLoginAttempt (userId : Int) (ipAddress : String) (success : Bool)
    (failureReason : String) (db : ServerDb) :
    SameSessions db (db.recordLoginAttempt userId ipAddress success failureReason) :=
  .of_eq rfl

theorem sameSessions_registerDevice (userId : Int) (deviceId deviceName platform : String)
    (db : ServerDb) :
    SameSessions db (db.registerDevice userId deviceId deviceName platform) :=
  .of_eq rfl

section follows

variable {α : Type} {t : SessionGhost} {Q : SessionGhost → α → Prop}

private theorem SameSessions.statement {db db' : ServerDb} (h : SameSessions db db') :
    SessionStatement t db db' t where
  thread := rfl
  created := .inl ⟨h.lastId, rfl⟩
  rows := fun row' hrow' => .inl (h.rows row' hrow')
  found := .inl rfl
  lost := fun row hrow => .inl (h.kept row hrow)
  removed := fun _ hid => hid

private theorem follows_sessionRead {f : ServerDb → α} (h : ∀ db, Q t (f db)) :
    Follows sessionProtocol Q t (query f) :=
  follows_query fun db _ => ⟨t, SameSessions.statement (.of_eq rfl), h db⟩

private theorem follows_same {Q : SessionGhost → Unit → Prop} {f : ServerDb → ServerDb}
    (hf : ∀ db, SameSessions db (f db)) (h : Q t ()) :
    Follows sessionProtocol Q t (update f) :=
  follows_update fun db _ => ⟨t, (hf db).statement, h⟩

/-- The session a handler creates is its own. -/
private theorem follows_create {Q : SessionGhost → Option Int → Prop} {userId : Int}
    {deviceId tokenHash loginIp : String} (hnone : Q t none)
    (hsome : ∀ sessionId, 0 < sessionId →
      Q { t with created := some (sessionId, userId) } (some sessionId)) :
    Follows sessionProtocol Q t
      (call (ServerDb.createSession userId deviceId tokenHash loginIp)) := by
  refine follows_call fun db _ => ?_
  unfold ServerDb.createSession
  split
  · have hnonneg := db.sessions.lastId_nonneg
    refine ⟨{ t with created := some (db.sessions.lastId + 1, userId) }, ?_, hsome _ (by omega)⟩
    refine ⟨rfl, .inr ⟨rfl, userId, rfl⟩, fun row' hrow' => ?_, .inl rfl,
      fun row hrow => .inl ⟨row, ?_, rfl⟩, fun _ hid => hid⟩
    · rcases Table.mem_insert.mp hrow' with hold | rfl
      · exact .inl ⟨row', hold, rfl, rfl⟩
      · exact .inr ⟨rfl, rfl⟩
    · exact Table.mem_insert.mpr (.inl hrow)
  · exact ⟨t, SameSessions.statement (.of_eq rfl), hnone⟩

/-- A deletion loses one session at most. -/
private theorem follows_delete {Q : SessionGhost → Unit → Prop} {sessionId : Int}
    (hfirst : t.removed = none) (h : Q { t with removed := some sessionId } ()) :
    Follows sessionProtocol Q t (update (ServerDb.deleteSession sessionId)) := by
  refine follows_update fun db _ => ⟨{ t with removed := some sessionId }, ?_, h⟩
  refine ⟨rfl, .inl ⟨rfl, rfl⟩, fun row' hrow' => ?_, .inl rfl, fun row hrow => ?_, ?_⟩
  · exact .inl ⟨row', (Table.mem_delete.mp hrow').1, rfl, rfl⟩
  · by_cases hid : row.id = sessionId
    · exact .inr (by rw [hid])
    · exact .inl ⟨row, Table.mem_delete.mpr ⟨hrow, by simpa using hid⟩, rfl⟩
  · rw [hfirst]
    exact fun _ hid => by cases hid

private theorem follows_rateLimit {ipAddress : String} {userId : Int}
    {Q : SessionGhost → Bool → Prop} (h : ∀ b, Q t b) :
    Follows sessionProtocol Q t (checkRateLimit ipAddress userId) := by
  unfold checkRateLimit
  refine (follows_sessionRead fun db => ?_).bind
  refine follows_ite (fun _ => follows_pure.mpr (h _)) fun _ => ?_
  refine follows_ite (fun _ => ?_) fun _ => follows_pure.mpr (h _)
  refine (follows_sessionRead fun db => ?_).bind
  exact follows_pure.mpr (h _)

/-- A handler that has not touched the sessions may end at any point. -/
private theorem follows_reply {t : SessionGhost} (hremoved : t.removed = none) (requestId : Nat)
    (messageType : MessageType) (code : ErrorCode) (message : String) :
    Follows sessionProtocol Tells t
      (pure (t.conn.reply requestId messageType code message)) :=
  follows_pure.mpr ⟨.same rfl rfl rfl, fun _ _ hid => by rw [hremoved] at hid; cases hid⟩

end follows

/-! ## Handlers -/

section handlers

variable (qt : Qt) (hashes : Hashes) (other : OtherHandlers) (random : Random) (requestId : Nat)
  {thread : HandlerThread} (request : Json)

theorem processLoginRequest_tells (token : String) (hserving : thread.serving = some .login) :
    (processLoginRequest qt hashes token requestId thread.conn request).Follows sessionProtocol
      Tells { thread } := by
  unfold processLoginRequest
  dsimp only
  refine follows_ite (fun _ => follows_reply rfl ..) fun _ => ?_
  refine (follows_sessionRead fun db => ?_).bind
  cases db.getUserByUsername (trimmed ((request.value "username").toStr "")) with
  | none =>
      refine (follows_same (sameSessions_recordLoginAttempt _ _ _ _) ?_).bind
      exact follows_reply rfl ..
  | some user =>
      refine (follows_rateLimit fun limited => ?_).bind
      refine follows_ite (fun _ => follows_reply rfl ..) fun _ => ?_
      refine follows_ite (fun _ => ?_) fun _ => ?_
      · refine (follows_same (sameSessions_recordLoginAttempt _ _ _ _) ?_).bind
        exact follows_reply rfl ..
      refine (follows_same (sameSessions_registerDevice _ _ _ _) ?_).bind
      refine (follows_create ?_ fun sessionId hpos => ?_).bind
      · exact follows_reply rfl ..
      · refine (follows_same (sameSessions_recordLoginAttempt _ _ _ _) ?_).bind
        refine (follows_sessionRead fun _ => ?_).bind
        exact follows_pure.mpr ⟨.loggedIn user.id sessionId hpos rfl rfl rfl rfl,
          fun h => absurd (hserving.symm.trans h) (by decide)⟩

theorem processTokenRenewRequest_tells (token : String)
    (hserving : thread.serving = some .tokenRenew) :
    (processTokenRenewRequest qt hashes token requestId thread.conn request).Follows
      sessionProtocol Tells { thread } := by
  unfold processTokenRenewRequest
  dsimp only
  refine follows_ite (fun _ => follows_reply rfl ..) fun _ => ?_
  refine (follows_sessionRead fun db => ?_).bind
  cases db.getSessionById thread.conn.currentSessionId with
  | none => exact follows_reply rfl ..
  | some session =>
      refine follows_ite (fun _ => follows_reply rfl ..) fun _ => ?_
      refine (follows_delete rfl ?_).bind
      refine (follows_create ?_ fun sessionId hpos => ?_).bind
      · exact follows_pure.mpr ⟨.same rfl rfl rfl,
          fun h => absurd (hserving.symm.trans h) (by decide)⟩
      · refine (follows_sessionRead fun _ => ?_).bind
        exact follows_pure.mpr ⟨.renewed sessionId hpos hserving rfl rfl rfl rfl,
          fun h => absurd (hserving.symm.trans h) (by decide)⟩

theorem processRegisterRequest_tells (salt : String) :
    (processRegisterRequest hashes salt requestId thread.conn request).Follows sessionProtocol
      Tells { thread } := by
  unfold processRegisterRequest
  dsimp only
  refine follows_ite (fun _ => follows_reply rfl ..) fun _ => ?_
  refine follows_ite (fun _ => follows_reply rfl ..) fun _ => ?_
  refine follows_ite (fun _ => follows_reply rfl ..) fun _ => ?_
  refine (follows_sessionRead fun db => ?_).bind
  refine follows_ite (fun _ => follows_reply rfl ..) fun _ => ?_
  refine Follows.bind (follows_call fun db _ => ⟨_, SameSessions.statement (.of_eq rfl), ?_⟩)
  cases (ServerDb.registerUser _ _ db).2 with
  | none => exact follows_reply rfl ..
  | some userId =>
      exact follows_pure.mpr ⟨.same rfl rfl rfl, fun _ _ hid => by cases hid⟩

theorem processLogoutRequest_tells (hserving : thread.serving = some .logout)
    (hcurrent : 0 < thread.conn.currentSessionId) :
    (processLogoutRequest requestId thread.conn).Follows sessionProtocol Tells { thread } := by
  unfold processLogoutRequest
  refine (follows_delete rfl ?_).bind
  exact follows_pure.mpr ⟨.loggedOut hcurrent rfl rfl rfl,
    fun h => absurd (hserving.symm.trans h) (by decide)⟩

/-- The session a termination finds is one of the user's own. -/
theorem processTerminateSessionRequest_tells :
    (processTerminateSessionRequest requestId thread.conn request).Follows sessionProtocol Tells
      { thread } := by
  unfold processTerminateSessionRequest
  dsimp only
  refine follows_ite (fun _ => follows_reply rfl ..) fun _ => ?_
  refine follows_ite (fun _ => follows_reply rfl ..) fun _ => ?_
  refine follows_ite (fun _ => follows_reply rfl ..) fun _ => ?_
  refine Follows.bind (follows_query fun db _ => ?_)
  cases htarget : (db.getSessionsByUserId thread.conn.authenticatedUserId).find? fun s =>
      (0 < (request.value "sessionId").toLongLong
        && s.id == (request.value "sessionId").toLongLong)
      || ((request.value "deviceId").toStr "" != ""
        && s.deviceId == (request.value "deviceId").toStr "") with
  | none => exact ⟨_, SameSessions.statement (.of_eq rfl), follows_reply rfl ..⟩
  | some row =>
      have hmem : row ∈ db.getSessionsByUserId thread.conn.authenticatedUserId :=
        List.mem_of_find?_eq_some htarget
      have hrow : row ∈ db.sessions.rows ∧ row.userId = thread.conn.authenticatedUserId := by
        have hfilter := (List.mem_insertionSort _).mp hmem
        simpa using List.mem_filter.mp hfilter
      refine ⟨{ thread, found := some (row.id, thread.conn.authenticatedUserId) }, ?_, ?_⟩
      · have hsame : SessionStatement { thread } db db { thread } :=
          SameSessions.statement (.of_eq rfl)
        exact { hsame with found := .inr ⟨row, hrow.1, by rw [hrow.2]⟩ }
      · refine (follows_delete rfl ?_).bind
        refine follows_pure.mpr ⟨.terminated row.id rfl rfl rfl rfl, fun _ sessionId hid => ?_⟩
        cases hid
        rfl

theorem business_tells (p : Prog Db Outcome) :
    (business thread.conn p).Follows sessionProtocol Tells { thread } := by
  unfold business
  refine Follows.bind ?_
  refine follows_zoom (fun _ db => SameSessions.statement (.of_eq rfl)) fun o => ?_
  exact follows_pure.mpr ⟨.same rfl rfl rfl, fun _ _ hid => by cases hid⟩

/-- **Handlers.** What each of them tells the server. -/
theorem handle_tells {handler : Handler} (hserving : thread.serving = some handler)
    (hcurrent : handler.needsSession = true → 0 < thread.conn.currentSessionId) :
    (handle qt hashes other random requestId thread.conn request handler).Follows sessionProtocol
      Tells { thread } := by
  cases handler with
  | register =>
      rw [handle]
      exact processRegisterRequest_tells ..
  | login => exact processLoginRequest_tells qt hashes requestId request _ hserving
  | logout => exact processLogoutRequest_tells requestId hserving (hcurrent rfl)
  | tokenRenew => exact processTokenRenewRequest_tells qt hashes requestId request _ hserving
  | terminateSession =>
      rw [handle]
      exact processTerminateSessionRequest_tells ..
  | _ => exact business_tells ..

/-- A packet that reaches a handler which needs a session has one. -/
theorem admission_current {qt : Qt} {hashes : Hashes} {conn : Connection} {packet : Packet}
    {wait : Nat} {db : ServerDb} {nonces : NonceCache} {handler : Handler} {request : Json}
    (h : (admission qt hashes conn packet wait db nonces).2 = .handle handler request)
    (hneeds : handler.needsSession = true) : 0 < conn.currentSessionId := by
  let s : ServerState := { pool := { store := db, workers := fun _ => { here := conn } }, nonces }
  have hadmits : (s.admits qt hashes 0 packet wait).2 = .handle handler request := h
  obtain ⟨row, hrow⟩ := admits_sessionOf hadmits hneeds
  have hpos : 0 < key row := (db.sessions.bounded row hrow.exists_).1
  have hcurrent : row.id = conn.currentSessionId := hrow.current
  rw [← hcurrent]
  exact hpos

theorem processAdmitted_tells (packet : Packet) (wait : Nat) (db : ServerDb) (nonces : NonceCache)
    (hserving : thread.serving = (admission qt hashes thread.conn packet wait db nonces).2.handler) :
    (processAdmitted qt hashes other random requestId thread.conn
      (admission qt hashes thread.conn packet wait db nonces).2).Follows sessionProtocol Tells
      { thread } := by
  cases hadmission : (admission qt hashes thread.conn packet wait db nonces).2 with
  | pong => exact follows_reply rfl ..
  | reject code message => exact follows_reply rfl ..
  | unknown type =>
      refine (follows_same (sameSessions_lastActive _) ?_).bind
      exact follows_reply rfl ..
  | handle handler request =>
      rw [hadmission] at hserving
      have hhandle := handle_tells qt hashes other random requestId request hserving
        (admission_current hadmission)
      refine follows_ite (fun _ => ?_) fun _ => hhandle
      refine (follows_same (sameSessions_lastActive _) ?_).bind
      exact hhandle

end handlers

end XYChat.Server
