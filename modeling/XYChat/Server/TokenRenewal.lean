import XYChat.Server.Authorization
import XYChat.Server.Sequential

/-!
# A renewal whose statements may fail

A renewal looks up the old session, deletes it and inserts the new one, each in a
statement of its own whose result but the last nobody looks at. It is one change or
none exactly when the deletion and the insertion both happen or neither does.
-/

namespace XYChat.Server

open XYChat.Lib

/-! ## The handler -/

inductive RenewalStatement where
  | selectSession
  | deleteSession
  | insertSession
  deriving DecidableEq

section

variable (qt : Qt) (hashes : Hashes) (fails : RenewalStatement → Bool)

/-- The end of `processTokenRenewRequest`: the new session is created. -/
def createRenewedSession (newToken : String) (requestId : Nat) (conn : Connection) :
    Prog ServerDb Outcome := do
  match ← Prog.attempt (fails .insertSession) none
      (ServerDb.createSession conn.authenticatedUserId conn.currentDeviceId
        (hashes.hashToken newToken) conn.peerAddress) with
  | none =>
      return conn.reply requestId .tokenRenewResponse .internalError "Failed to renew token"
  | some newSessionId =>
      let now ← Prog.query (·.now)
      return {
        conn := { conn with currentSessionId := newSessionId }
        response :=
          { requestId, messageType := .tokenRenewResponse, code := .ok
            message := "Token renewed"
            data := .obj
              [ ("token", .str newToken)
              , ("expiresAt", .str (qt.isoDate (now + ServerDb.sessionTtlSeconds))) ] } }

/-- `RequestHandler::processTokenRenewRequest` where statements may fail. -/
def processTokenRenewRequestUnder (newToken : String) (requestId : Nat) (conn : Connection)
    (request : Json) : Prog ServerDb Outcome := do
  let oldSessionId := conn.currentSessionId
  let reject := conn.reply requestId .tokenRenewResponse
  if tokenOf request = "" then
    return reject .invalidRequest "Token is required"
  else
    match ← Prog.attempt (fails .selectSession) none
        (fun db => (db, db.getSessionById oldSessionId)) with
    | none => return reject .sessionExpired "Session no longer exists"
    | some session =>
      if hashes.hashToken (tokenOf request) ≠ session.tokenHash then
        return reject .sessionInvalid "Supplied token does not match session"
      else
        Prog.attempt (fails .deleteSession) () fun db => (db.deleteSession oldSessionId, ())
        createRenewedSession qt hashes fails newToken requestId conn

/-- Where none fails, it is the handler that requests are dispatched to. -/
theorem exec_processTokenRenewRequestUnder (newToken : String) (requestId : Nat)
    (conn : Connection) (request : Json) (db : ServerDb) :
    (processTokenRenewRequestUnder qt hashes (fun _ => false) newToken requestId conn request).exec
        db = (processTokenRenewRequest qt hashes newToken requestId conn request).exec db := by
  unfold processTokenRenewRequestUnder createRenewedSession processTokenRenewRequest
  dsimp only
  simp only [Prog.exec_ite, Prog.exec_pure, Prog.exec_bind, Prog.exec_query, Prog.exec_attempt]
  split
  · rfl
  · simp only [Bool.false_eq_true, if_false]
    cases db.getSessionById conn.currentSessionId with
    | none => rfl
    | some session =>
      simp only [Prog.exec_ite, Prog.exec_pure, Prog.exec_bind, Prog.exec_attempt,
        Prog.exec_update]
      rfl

end

/-! ## The property -/

section

variable (hashes : Hashes)

/-- The old session is gone, one new session of its user and device holds the hash of
the token returned, and on the connection the new token is accepted and the old one
refused. -/
structure Renewed (newToken : String) (conn : Connection) (request : Json) (db db' : ServerDb)
    (o : Outcome) : Prop where
  rows : ∃ old ∈ db.sessions.rows, old.id = conn.currentSessionId ∧
    ∃ new, new ∉ db.sessions.rows ∧ new.userId = old.userId ∧ new.deviceId = old.deviceId ∧
      new.tokenHash = hashes.hashToken newToken ∧
      (∀ row, row ∈ db'.sessions.rows ↔ (row ∈ db.sessions.rows ∧ row ≠ old) ∨ row = new) ∧
      ∀ row ∈ db'.sessions.rows, row.tokenHash = hashes.hashToken newToken → row = new
  returned : o.response.data.value "token" = .str newToken
  accepted : ∀ r, tokenOf r = newToken → validateSession hashes o.conn r db' = true
  refused : ∀ r, tokenOf r = tokenOf request → validateSession hashes o.conn r db' = false

/-- An error leaves the sessions as they were and the presented token valid; success
leaves the session renewed. -/
def RenewsAtomically (newToken : String) (conn : Connection) (request : Json) (db : ServerDb)
    (r : ServerDb × Outcome) : Prop :=
  (r.2.ok = false → r.1.sessions = db.sessions ∧
      validateSession hashes r.2.conn request r.1 = true) ∧
    (r.2.ok = true → Renewed hashes newToken conn request db r.1 r.2)

/-- The new session can be inserted: the statement works, the user exists, and no session
holds the hash of the new token. -/
structure Insertable (fails : RenewalStatement → Bool) (newToken : String) (conn : Connection)
    (db : ServerDb) : Prop where
  works : fails .insertSession = false
  user : (db.users.get conn.authenticatedUserId).isSome = true
  fresh : ∀ row ∈ db.sessions.rows, row.tokenHash ≠ hashes.hashToken newToken

/-- If the old session is found, its deletion works exactly when the new one can be
inserted. -/
def BothOrNeither (fails : RenewalStatement → Bool) (newToken : String) (conn : Connection)
    (db : ServerDb) : Prop :=
  fails .selectSession = false →
    (fails .deleteSession = false ↔ Insertable hashes fails newToken conn db)

end

/-! ## One renewal -/

section

variable {qt : Qt} {hashes : Hashes} {fails : RenewalStatement → Bool} {newToken : String}
  {requestId : Nat} {conn : Connection} {request : Json} {db : ServerDb}

/-- The session that a validated request is about. -/
structure Presented (hashes : Hashes) (conn : Connection) (request : Json) (db : ServerDb)
    (old : SessionRow) : Prop where
  mem : old ∈ db.sessions.rows
  current : old.id = conn.currentSessionId
  user : old.userId = conn.authenticatedUserId
  token : hashes.hashToken (tokenOf request) = old.tokenHash
  given : tokenOf request ≠ ""
  connected : 0 < conn.currentSessionId ∧ 0 < conn.authenticatedUserId

theorem presented_of_valid (h : validateSession hashes conn request db = true) :
    ∃ old, Presented hashes conn request db old := by
  obtain ⟨old, hold, hid, huser, htoken, _⟩ := validateSession_ok h
  unfold validateSession at h
  split at h
  · cases h
  rename_i hconn
  rw [not_or, not_le, not_le] at hconn
  refine ⟨old, hold, hid, huser, htoken.symm, ?_, hconn⟩
  intro hempty
  rw [ServerDb.getSessionById, Table.get_eq_some.mpr ⟨hold, hid⟩] at h
  dsimp only at h
  rw [if_neg (not_not.mpr huser)] at h
  rw [if_pos hempty] at h
  split at h
  · cases h
  · split at h <;> cases h

/-- A validated request whose session is found: delete, then insert. -/
theorem exec_renewal {old : SessionRow} (hold : Presented hashes conn request db old)
    (hselect : fails .selectSession = false) :
    let db₁ := if fails .deleteSession then db else db.deleteSession conn.currentSessionId
    let created := if fails .insertSession then (db₁, none)
      else db₁.createSession conn.authenticatedUserId conn.currentDeviceId
        (hashes.hashToken newToken) conn.peerAddress
    let r := (processTokenRenewRequestUnder qt hashes fails newToken requestId conn request).exec db
    r.1 = created.1 ∧
      match created.2 with
      | none => r.2.ok = false ∧ r.2.conn = conn
      | some newSessionId =>
          r.2.ok = true ∧ r.2.conn = { conn with currentSessionId := newSessionId } ∧
            r.2.response.data.value "token" = .str newToken := by
  have hget : db.getSessionById conn.currentSessionId = some old :=
    Table.get_eq_some.mpr ⟨hold.mem, hold.current⟩
  unfold processTokenRenewRequestUnder
  dsimp only
  rw [if_neg hold.given, Prog.exec_bind, Prog.exec_attempt, hselect, if_neg Bool.false_ne_true, hget]
  dsimp only
  rw [if_neg (not_not.mpr hold.token), Prog.exec_bind, Prog.exec_attempt]
  unfold createRenewedSession
  rw [Prog.exec_bind, Prog.exec_attempt]
  have hdb₁ : (if fails .deleteSession = true then (db, ())
      else (db.deleteSession conn.currentSessionId, ())).1 =
        if fails .deleteSession then db else db.deleteSession conn.currentSessionId := by
    split <;> rfl
  rw [hdb₁]
  generalize hcreated : (if fails .insertSession = true then (_, none) else _) = created
  obtain ⟨db₂, made⟩ := created
  cases made with
  | none => exact ⟨rfl, rfl, rfl⟩
  | some newSessionId => exact ⟨rfl, rfl, rfl, rfl⟩

/-- A session is created when its user exists and no session has its hash. -/
theorem createSession_some {userId : Int} {deviceId tokenHash loginIp : String}
    (huser : (db.users.get userId).isSome = true)
    (hfree : ∀ row ∈ db.sessions.rows, row.tokenHash ≠ tokenHash) :
    db.createSession userId deviceId tokenHash loginIp =
      ({ db with sessions := db.sessions.insert fun id =>
          { id, userId, deviceId, tokenHash, loginIp
            createdAt := db.now
            lastActiveAt := db.now
            expiresAt := some (db.now + ServerDb.sessionTtlSeconds) } },
        some (db.sessions.lastId + 1)) := by
  unfold ServerDb.createSession
  refine if_pos ?_
  rw [huser, Bool.true_and, Bool.not_eq_true', List.any_eq_false]
  intro row hrow
  simpa using hfree row hrow

theorem createSession_none {userId : Int} {deviceId tokenHash loginIp : String}
    (h : ¬((db.users.get userId).isSome = true ∧
      ∀ row ∈ db.sessions.rows, row.tokenHash ≠ tokenHash)) :
    db.createSession userId deviceId tokenHash loginIp = (db, none) := by
  unfold ServerDb.createSession
  refine if_neg fun hmade => h ?_
  rw [Bool.and_eq_true, Bool.not_eq_true', List.any_eq_false] at hmade
  exact ⟨hmade.1, fun row hrow => by simpa using hmade.2 row hrow⟩

/-- With a session that is not over, requests pass by their token. -/
theorem validate_live {session : SessionRow} {r : Json} {expiresAt : Int}
    (hget : db.getSessionById conn.currentSessionId = some session)
    (hconn : 0 < conn.currentSessionId ∧ 0 < conn.authenticatedUserId)
    (huser : session.userId = conn.authenticatedUserId)
    (hexpires : session.expiresAt = some expiresAt) (hlive : db.now ≤ expiresAt) :
    validateSession hashes conn r db = true ↔
      tokenOf r ≠ "" ∧ hashes.hashToken (tokenOf r) = session.tokenHash := by
  unfold validateSession
  rw [if_neg (by omega), hget]
  dsimp only
  rw [if_neg (not_not.mpr huser), hexpires]
  dsimp only
  rw [if_neg (by omega)]
  by_cases hempty : tokenOf r = ""
  · rw [if_pos hempty]
    exact iff_of_false Bool.false_ne_true fun h => h.1 hempty
  · rw [if_neg hempty, beq_iff_eq]
    exact ⟨fun h => ⟨hempty, h⟩, fun h => h.2⟩

/-- The row a renewal inserts. -/
def renewedRow (hashes : Hashes) (newToken : String) (conn : Connection) (now id : Int) :
    SessionRow where
  id
  userId := conn.authenticatedUserId
  deviceId := conn.currentDeviceId
  tokenHash := hashes.hashToken newToken
  loginIp := conn.peerAddress
  createdAt := now
  lastActiveAt := now
  expiresAt := some (now + ServerDb.sessionTtlSeconds)

theorem key_renewedRow (now id : Int) : key (renewedRow hashes newToken conn now id) = id := rfl

def insertRenewed (hashes : Hashes) (newToken : String) (conn : Connection) (db : ServerDb) :
    ServerDb :=
  { db with
    sessions := db.sessions.insert (renewedRow hashes newToken conn db.now) (key_renewedRow db.now) }

theorem mem_insertRenewed {row : SessionRow} :
    row ∈ (insertRenewed hashes newToken conn db).sessions.rows ↔
      row ∈ db.sessions.rows ∨ row =
          renewedRow hashes newToken conn db.now (db.sessions.lastId + 1) := by
  rw [insertRenewed, Table.mem_insert]

/-- On the connection, what the new row has been inserted for passes. -/
theorem validate_renewed {r : Json} (huser : 0 < conn.authenticatedUserId) :
    validateSession hashes { conn with currentSessionId := db.sessions.lastId + 1 } r
        (insertRenewed hashes newToken conn db) = true ↔
      tokenOf r ≠ "" ∧ hashes.hashToken (tokenOf r) = hashes.hashToken newToken := by
  have hlast := db.sessions.lastId_nonneg
  have hget : (insertRenewed hashes newToken conn db).getSessionById (db.sessions.lastId + 1) =
      some (renewedRow hashes newToken conn db.now (db.sessions.lastId + 1)) := by
    show Table.get _ _ = _
    rw [insertRenewed, Table.get_insert, if_pos rfl]
  refine @validate_live hashes { conn with currentSessionId := db.sessions.lastId + 1 }
    (insertRenewed hashes newToken conn db) _ r _ hget ⟨?_, huser⟩ rfl rfl ?_
  · show 0 < db.sessions.lastId + 1
    omega
  · show db.now ≤ db.now + ServerDb.sessionTtlSeconds
    unfold ServerDb.sessionTtlSeconds
    omega

/-- The old session deleted and the new one inserted: the session is renewed exactly when
the hash of the new token is not that of the old. -/
theorem renewed_iff {old : SessionRow} {o : Outcome} (hold : Presented hashes conn request db old)
    (hdevice : old.deviceId = conn.currentDeviceId) (hdrawn : newToken ≠ "")
    (hfree : ∀ row ∈ db.sessions.rows, row ≠ old → row.tokenHash ≠ hashes.hashToken newToken)
    (hconn : o.conn = { conn with currentSessionId := db.sessions.lastId + 1 })
    (hreturned : o.response.data.value "token" = .str newToken) :
    Renewed hashes newToken conn request db
        (insertRenewed hashes newToken conn (db.deleteSession conn.currentSessionId)) o ↔
      old.tokenHash ≠ hashes.hashToken newToken := by
  have hvalid : ∀ r, validateSession hashes o.conn r
      (insertRenewed hashes newToken conn (db.deleteSession conn.currentSessionId)) = true ↔
        tokenOf r ≠ "" ∧ hashes.hashToken (tokenOf r) = hashes.hashToken newToken := by
    intro r
    rw [hconn]
    exact @validate_renewed hashes newToken conn (db.deleteSession conn.currentSessionId) r
      hold.connected.2
  constructor
  · intro h hsame
    have hpasses := (hvalid request).mpr ⟨hold.given, hold.token.trans hsame⟩
    rw [h.refused request rfl] at hpasses
    cases hpasses
  · intro hother
    have hdeleted : ∀ row, row ∈ (db.deleteSession conn.currentSessionId).sessions.rows ↔
        row ∈ db.sessions.rows ∧ row ≠ old := by
      intro row
      rw [← hold.current]
      exact Table.mem_delete_key hold.mem
    have hrows : ∀ row, row ∈ (insertRenewed hashes newToken conn
        (db.deleteSession conn.currentSessionId)).sessions.rows ↔ (row ∈ db.sessions.rows ∧ row ≠ old) ∨
            row = renewedRow hashes newToken conn db.now (db.sessions.lastId + 1) := by
      intro row
      rw [mem_insertRenewed, hdeleted]
      rfl
    refine ⟨⟨old, hold.mem, hold.current, _, ?_, hold.user.symm, hdevice.symm, rfl, hrows, ?_⟩,
      hreturned, ?_, ?_⟩
    · intro hmem
      have hbound := (db.sessions.bounded _ hmem).2
      simp [renewedRow] at hbound
    · intro row hrow hhash
      rcases (hrows row).mp hrow with ⟨hmem, hne⟩ | hnew
      · exact absurd hhash (hfree row hmem hne)
      · exact hnew
    · rintro r rfl
      exact (hvalid r).mpr ⟨hdrawn, rfl⟩
    · intro r hr
      rw [← Bool.not_eq_true, hvalid, hr]
      rintro ⟨_, hhash⟩
      exact hother (hold.token.symm.trans hhash)

/-- The insertion of a renewal, made or not. -/
theorem insert_renewed (h : Insertable hashes fails newToken conn db) :
    (if fails .insertSession then (db, none) else db.createSession conn.authenticatedUserId
        conn.currentDeviceId (hashes.hashToken newToken) conn.peerAddress) =
      (insertRenewed hashes newToken conn db, some (db.sessions.lastId + 1)) := by
  rw [h.works, if_neg Bool.false_ne_true, createSession_some h.user h.fresh]
  rfl

theorem insert_not_renewed (h : ¬Insertable hashes fails newToken conn db) :
    (if fails .insertSession then (db, none) else db.createSession conn.authenticatedUserId
        conn.currentDeviceId (hashes.hashToken newToken) conn.peerAddress) = (db, none) := by
  split
  · rfl
  · rename_i hworks
    refine createSession_none fun hmade => h ⟨?_, hmade.1, hmade.2⟩
    exact (Bool.not_eq_true _).mp hworks

/-- The presented session is not found: nothing is done. -/
theorem exec_renewal_unread {old : SessionRow} (hold : Presented hashes conn request db old)
    (hselect : fails .selectSession = true) :
    let r := (processTokenRenewRequestUnder qt hashes fails newToken requestId conn request).exec db
    r.1 = db ∧ r.2.ok = false ∧ r.2.conn = conn := by
  unfold processTokenRenewRequestUnder
  dsimp only
  rw [if_neg hold.given, Prog.exec_bind, Prog.exec_attempt, hselect, if_pos rfl]
  exact ⟨rfl, rfl, rfl⟩

/-- Of a session that the renewal has deleted, an error is not atomic. -/
theorem deleted_not_kept {old : SessionRow} (hold : Presented hashes conn request db old) :
    (db.deleteSession conn.currentSessionId).sessions ≠ db.sessions := by
  intro hsame
  have hgone : old ∈ (db.deleteSession conn.currentSessionId).sessions.rows := by
    rw [hsame]
    exact hold.mem
  rw [← hold.current] at hgone
  exact ((Table.mem_delete_key hold.mem).mp hgone).2 rfl

/-- With the old session still there, an insertion renews nothing. -/
theorem not_renewed_of_kept {o : Outcome} :
    ¬Renewed hashes newToken conn request db (insertRenewed hashes newToken conn db) o := by
  intro h
  obtain ⟨old, hold, _, new, hnew, _, _, _, hrows, _⟩ := h.rows
  rcases (hrows old).mp (mem_insertRenewed.mpr (.inl hold)) with ⟨_, hne⟩ | hsame
  · exact hne rfl
  · exact hnew (hsame ▸ hold)

/-- **One renewal.** It is atomic exactly when deletion and insertion both happen or
neither does. -/
theorem renewsAtomically_iff (hvalid : validateSession hashes conn request db = true)
    (hdevice : ∀ row ∈ db.sessions.rows, row.id = conn.currentSessionId →
      row.deviceId = conn.currentDeviceId) (hdrawn : newToken ≠ "") :
    RenewsAtomically hashes newToken conn request db
        ((processTokenRenewRequestUnder qt hashes fails newToken requestId conn request).exec db) ↔
      BothOrNeither hashes fails newToken conn db := by
  obtain ⟨old, hold⟩ := presented_of_valid hvalid
  unfold RenewsAtomically BothOrNeither
  cases hselect : fails .selectSession with
  | true =>
      obtain ⟨hdb, hok, hconn⟩ := @exec_renewal_unread qt hashes fails newToken requestId _ _ _ _
        hold hselect
      rw [hdb, hok, hconn]
      exact iff_of_true ⟨fun _ => ⟨rfl, hvalid⟩, nofun⟩ nofun
  | false =>
      rw [forall_prop_of_true rfl]
      obtain ⟨hdb, hreply⟩ := @exec_renewal qt hashes fails newToken requestId _ _ _ _ hold hselect
      cases hdelete : fails .deleteSession with
      | false =>
          rw [hdelete, if_neg Bool.false_ne_true] at hdb hreply
          by_cases hmade : Insertable hashes fails newToken conn
              (db.deleteSession conn.currentSessionId)
          · rw [insert_renewed hmade] at hdb hreply
            obtain ⟨hok, hconn, hreturned⟩ := hreply
            have hfree : ∀ row ∈ db.sessions.rows, row ≠ old →
                row.tokenHash ≠ hashes.hashToken newToken := by
              intro row hrow hne
              refine hmade.fresh row ?_
              rw [← hold.current]
              exact (Table.mem_delete_key hold.mem).mpr ⟨hrow, hne⟩
            rw [hdb, hok, renewed_iff hold
              (hdevice old hold.mem hold.current) hdrawn hfree hconn hreturned]
            constructor
            · rintro ⟨_, hother⟩
              refine iff_of_true rfl ⟨hmade.works, hmade.user, fun row hrow => ?_⟩
              by_cases hsame : row = old
              · rw [hsame]
                exact hother rfl
              · exact hfree row hrow hsame
            · intro h
              exact ⟨nofun, fun _ => (h.mp rfl).fresh old hold.mem⟩
          · rw [insert_not_renewed hmade] at hdb hreply
            obtain ⟨hok, hconn⟩ := hreply
            rw [hdb, hok]
            refine iff_of_false (fun h => deleted_not_kept hold (h.1 rfl).1) fun h => hmade ?_
            obtain ⟨hworks, huser, hfresh⟩ := h.mp rfl
            exact ⟨hworks, huser, fun row hrow => hfresh row (Table.mem_delete.mp hrow).1⟩
      | true =>
          rw [hdelete, if_pos rfl] at hdb hreply
          by_cases hmade : Insertable hashes fails newToken conn db
          · rw [insert_renewed hmade] at hdb hreply
            obtain ⟨hok, hconn, hreturned⟩ := hreply
            rw [hdb, hok]
            exact iff_of_false (fun h => not_renewed_of_kept (h.2 rfl)) fun h => nomatch h.mpr hmade
          · rw [insert_not_renewed hmade] at hdb hreply
            obtain ⟨hok, hconn⟩ := hreply
            rw [hdb, hok, hconn]
            exact iff_of_true ⟨fun _ => ⟨rfl, hvalid⟩, nofun⟩ (iff_of_false nofun hmade)

end

/-! ## Every reachable table -/

/-- A packet is handled to its end, or a validated renewal is, whose statements may
fail. -/
inductive RenewalOp where
  | serve (op : SequentialOp)
  | renew (c : Nat) (request : Json) (newToken : String) (requestId : Nat)
      (fails : RenewalStatement → Bool)

def SequentialServer.renew (qt : Qt) (hashes : Hashes) (s : SequentialServer) (c : Nat)
    (request : Json) (newToken : String) (requestId : Nat) (fails : RenewalStatement → Bool) :
    SequentialServer :=
  if validateSession hashes (s.conns c) request s.db then
    let done := (processTokenRenewRequestUnder qt hashes fails newToken requestId (s.conns c)
      request).exec s.db
    { s with db := done.1, conns := Function.update s.conns c done.2.conn }
  else s

/-- The server from any tables, with nobody connected. -/
def renewalMachine (qt : Qt) (hashes : Hashes) : Machine SequentialServer RenewalOp where
  init s := ∀ c, s.conns c = {}
  step
    | s, .serve op => s.step qt hashes op
    | s, .renew c request newToken requestId fails =>
        s.renew qt hashes c request newToken requestId fails

/-- The connection's session, if it is there, is of the connection's device. -/
structure OnDevice (conn : Connection) (db : ServerDb) : Prop where
  given : conn.currentSessionId ≤ db.sessions.lastId
  device : ∀ row ∈ db.sessions.rows, row.id = conn.currentSessionId →
    row.deviceId = conn.currentDeviceId

/-- No session that was there before is of another device now. -/
structure ServerDb.SessionsGrow (db db' : ServerDb) : Prop where
  lastId : db.sessions.lastId ≤ db'.sessions.lastId
  rows : ∀ row' ∈ db'.sessions.rows, row'.id ≤ db.sessions.lastId →
    ∃ row ∈ db.sessions.rows, row.id = row'.id ∧ row.deviceId = row'.deviceId

namespace ServerDb.SessionsGrow

variable {db db' db'' : ServerDb}

theorem of_eq (h : db'.sessions = db.sessions) : db.SessionsGrow db' :=
  ⟨by rw [h], fun row hrow _ => ⟨row, h ▸ hrow, rfl, rfl⟩⟩

theorem trans (h : db.SessionsGrow db') (h' : db'.SessionsGrow db'') : db.SessionsGrow db'' := by
  refine ⟨h.lastId.trans h'.lastId, fun row hrow hle => ?_⟩
  obtain ⟨row', hrow', hid', hdevice'⟩ := h'.rows row hrow (hle.trans h.lastId)
  obtain ⟨row'', hrow'', hid, hdevice⟩ := h.rows row' hrow' (hid' ▸ hle)
  exact ⟨row'', hrow'', hid.trans hid', hdevice.trans hdevice'⟩

theorem deleteSession (sessionId : Int) (db : ServerDb) :
    db.SessionsGrow (db.deleteSession sessionId) :=
  ⟨le_refl _, fun row hrow _ => ⟨row, (Table.mem_delete.mp hrow).1, rfl, rfl⟩⟩

theorem updateSessionLastActive (sessionId : Int) (db : ServerDb) :
    db.SessionsGrow (db.updateSessionLastActive sessionId) := by
  refine ⟨le_refl _, fun row' hrow' _ => ?_⟩
  obtain ⟨row, hrow, rfl⟩ := List.mem_map.mp hrow'
  refine ⟨row, hrow, ?_⟩
  split <;> exact ⟨rfl, rfl⟩

end ServerDb.SessionsGrow

section

variable {conn conn' : Connection} {db db' : ServerDb} {userId : Int}
  {deviceId tokenHash loginIp : String}

theorem OnDevice.grow (h : OnDevice conn db) (hgrow : db.SessionsGrow db') : OnDevice conn db' := by
  refine ⟨h.given.trans hgrow.lastId, fun row hrow hid => ?_⟩
  obtain ⟨old, hold, hsame, hdevice⟩ := hgrow.rows row hrow (hid.le.trans h.given)
  exact hdevice.symm.trans (h.device old hold (hsame.trans hid))

theorem OnDevice.congr (h : OnDevice conn db) (hid : conn'.currentSessionId = conn.currentSessionId)
    (hdevice : conn'.currentDeviceId = conn.currentDeviceId) : OnDevice conn' db :=
  ⟨hid ▸ h.given, fun row hrow hrowId => (h.device row hrow (hrowId.trans hid)).trans hdevice.symm⟩

/-- No session: there is nothing to be of another device. -/
theorem OnDevice.none (h : conn.currentSessionId = 0) : OnDevice conn db := by
  refine ⟨h ▸ db.sessions.lastId_nonneg, fun row hrow hid => ?_⟩
  have hpos := (db.sessions.bounded row hrow).1
  rw [key_sessionRow, hid, h] at hpos
  exact absurd hpos (by decide)

/-- What `createSession` leaves: a session of the device, under a new id. -/
theorem createSession_cases :
    db.createSession userId deviceId tokenHash loginIp = (db, none) ∨
      ∃ db', db.createSession userId deviceId tokenHash loginIp =
          (db', some (db.sessions.lastId + 1)) ∧ db.SessionsGrow db' ∧
        db'.sessions.lastId = db.sessions.lastId + 1 ∧
        ∀ row ∈ db'.sessions.rows, row.id = db.sessions.lastId + 1 → row.deviceId = deviceId := by
  unfold ServerDb.createSession
  split
  · refine .inr ⟨_, rfl, ⟨?_, fun row hrow hle => ?_⟩, rfl, fun row hrow hid => ?_⟩
    · show db.sessions.lastId ≤ db.sessions.lastId + 1
      omega
    · rcases Table.mem_insert.mp hrow with hold | rfl
      · exact ⟨row, hold, rfl, rfl⟩
      · dsimp only at hle
        omega
    · rcases Table.mem_insert.mp hrow with hold | rfl
      · have hbound := (db.sessions.bounded row hold).2
        rw [key_sessionRow] at hbound
        omega
      · rfl
  · exact .inl rfl

end

/-! ## The handlers -/

/-- What a handler leaves of the sessions and of its connection. -/
def LeavesOnDevice (db : ServerDb) (o : Outcome) (db' : ServerDb) : Prop :=
  db.SessionsGrow db' ∧ OnDevice o.conn db'

section

open Prog

variable {qt : Qt} {hashes : Hashes} {fails : RenewalStatement → Bool} {token : String}
  {requestId : Nat} {conn : Connection} {request : Json} {db db' : ServerDb} {o : Outcome}

/-- A handler that leaves the connection's session alone. -/
theorem LeavesOnDevice.same (h : OnDevice conn db) (hgrow : db.SessionsGrow db')
    (hid : o.conn.currentSessionId = conn.currentSessionId)
    (hdevice : o.conn.currentDeviceId = conn.currentDeviceId) : LeavesOnDevice db o db' :=
  ⟨hgrow, (h.congr hid hdevice).grow hgrow⟩

/-- A handler that replies only. -/
theorem LeavesOnDevice.reply (h : OnDevice conn db) {messageType : MessageType} {code : ErrorCode}
    {message : String} :
    LeavesOnDevice db (conn.reply requestId messageType code message) db :=
  .same h (.of_eq rfl) rfl rfl

theorem wp_checkRateLimit {ipAddress : String} {userId : Int} {Q : Bool → ServerDb → Prop}
    (h : ∀ b, Q b db) : (checkRateLimit ipAddress userId).wp Q db := by
  unfold checkRateLimit
  rw [wp_bind, wp_query]
  refine wp_ite (fun _ => h _) fun _ => wp_ite (fun _ => ?_) fun _ => h _
  rw [wp_bind, wp_query]
  exact h _

theorem processLoginRequest_onDevice (h : OnDevice conn db) :
    (processLoginRequest qt hashes token requestId conn request).wp (LeavesOnDevice db) db := by
  unfold processLoginRequest
  dsimp only
  refine wp_ite (fun _ => .reply h) fun _ => ?_
  rw [wp_bind, wp_query]
  cases db.getUserByUsername (trimmed ((request.value "username").toStr "")) with
  | none => exact .same h (.of_eq rfl) rfl rfl
  | some user =>
      dsimp only
      rw [wp_bind]
      refine wp_checkRateLimit fun limited => ?_
      refine wp_ite (fun _ => .reply h) fun _ => wp_ite (fun _ => ?_) fun _ => ?_
      · exact .same h (.of_eq rfl) rfl rfl
      rw [wp_bind, wp_update, wp_bind, wp_call]
      rcases @createSession_cases (db.registerDevice user.id ((request.value "deviceId").toStr "")
          (deviceNameOf ((request.value "deviceId").toStr ""))
          ((request.value "platform").toStr "")) user.id ((request.value "deviceId").toStr "")
          (hashes.hashToken token) conn.peerAddress with
        hnone | ⟨db', hsome, hgrow, hlast, hdevice⟩
      · rw [hnone]
        exact .same h (.of_eq rfl) rfl rfl
      · rw [hsome]
        have hgrow' : db.SessionsGrow db' := ⟨hgrow.lastId, hgrow.rows⟩
        exact ⟨hgrow'.trans (.of_eq rfl), hlast.ge, hdevice⟩

theorem processRegisterRequest_onDevice {salt : String} (h : OnDevice conn db) :
    (processRegisterRequest hashes salt requestId conn request).wp (LeavesOnDevice db) db := by
  unfold processRegisterRequest
  dsimp only
  refine wp_ite (fun _ => .reply h) fun _ => wp_ite (fun _ => .reply h) fun _ => ?_
  refine wp_ite (fun _ => .reply h) fun _ => ?_
  rw [wp_bind, wp_query]
  refine wp_ite (fun _ => .reply h) fun _ => ?_
  rw [wp_bind, wp_call]
  generalize hregistered : ServerDb.registerUser _ _ db = registered
  have hsame : registered.1.sessions = db.sessions := by
    rw [← hregistered]
    rfl
  cases hid : registered.2 with
  | none => exact .same h (.of_eq hsame) rfl rfl
  | some userId => exact .same h (.of_eq hsame) rfl rfl

theorem processLogoutRequest_onDevice :
    (processLogoutRequest requestId conn).wp (LeavesOnDevice db) db :=
  ⟨.deleteSession _ db, .none rfl⟩

theorem processTerminateSessionRequest_onDevice (h : OnDevice conn db) :
    (processTerminateSessionRequest requestId conn request).wp (LeavesOnDevice db) db := by
  unfold processTerminateSessionRequest
  dsimp only
  refine wp_ite (fun _ => .reply h) fun _ => wp_ite (fun _ => .reply h) fun _ => ?_
  refine wp_ite (fun _ => .reply h) fun _ => ?_
  rw [wp_bind, wp_query]
  cases List.find? _ (db.getSessionsByUserId conn.authenticatedUserId) with
  | none => exact .reply h
  | some s => exact .same h (.deleteSession s.id db) rfl rfl

/-- The new session is of the connection's device. -/
theorem createRenewedSession_onDevice (h : OnDevice conn db) (hgrow : db.SessionsGrow db') :
    (createRenewedSession qt hashes fails token requestId conn).wp (LeavesOnDevice db) db' := by
  unfold createRenewedSession
  rw [wp_bind]
  refine wp_attempt (fun _ => .same h hgrow rfl rfl) fun _ => ?_
  rcases @createSession_cases db' conn.authenticatedUserId conn.currentDeviceId
      (hashes.hashToken token) conn.peerAddress with hnone | ⟨db₂, hsome, hgrow₂, hlast, hdevice⟩
  · rw [hnone]
    exact .same h hgrow rfl rfl
  · rw [hsome]
    exact ⟨hgrow.trans hgrow₂, hlast.ge, hdevice⟩

/-- A renewal, whatever fails. -/
theorem processTokenRenewRequestUnder_onDevice (h : OnDevice conn db) :
    (processTokenRenewRequestUnder qt hashes fails token requestId conn request).wp
      (LeavesOnDevice db) db := by
  unfold processTokenRenewRequestUnder
  dsimp only
  refine wp_ite (fun _ => .reply h) fun _ => ?_
  rw [wp_bind]
  refine wp_attempt (fun _ => .reply h) fun _ => ?_
  dsimp only
  cases db.getSessionById conn.currentSessionId with
  | none => exact .reply h
  | some session =>
      refine wp_ite (fun _ => .reply h) fun _ => ?_
      rw [wp_bind]
      refine wp_attempt (fun _ => ?_) fun _ => ?_
      · exact createRenewedSession_onDevice h (.of_eq rfl)
      · exact createRenewedSession_onDevice h (.deleteSession _ db)

theorem business_onDevice {p : Prog Db Outcome} (h : OnDevice conn db) :
    (business conn p).wp (LeavesOnDevice db) db := by
  unfold business
  rw [wp_bind]
  unfold Prog.wp
  rw [exec_zoom]
  exact .same h (.of_eq rfl) rfl rfl

theorem handle_onDevice {other : OtherHandlers} {random : Random} (handler : Handler)
    (h : OnDevice conn db) :
    (handle qt hashes other random requestId conn request handler).wp (LeavesOnDevice db) db := by
  cases handler with
  | register => exact processRegisterRequest_onDevice h
  | login => exact processLoginRequest_onDevice h
  | logout => exact processLogoutRequest_onDevice
  | tokenRenew =>
      unfold Prog.wp handle
      rw [← exec_processTokenRenewRequestUnder]
      exact processTokenRenewRequestUnder_onDevice h
  | terminateSession => exact processTerminateSessionRequest_onDevice h
  | _ => exact business_onDevice h

theorem processAdmitted_onDevice {other : OtherHandlers} {random : Random} (admission : Admission)
    (h : OnDevice conn db) :
    (processAdmitted qt hashes other random requestId conn admission).wp (LeavesOnDevice db) db := by
  have hactive := ServerDb.SessionsGrow.updateSessionLastActive conn.currentSessionId db
  cases admission with
  | pong => exact .reply h
  | reject code message => exact .reply h
  | unknown type => exact .same h hactive rfl rfl
  | handle handler request =>
      refine wp_ite (fun _ => ?_) fun _ => handle_onDevice handler h
      rw [wp_bind, wp_update]
      obtain ⟨hgrow, hleft⟩ := @handle_onDevice qt hashes requestId conn request _ other random
        handler (h.grow hactive)
      exact ⟨hactive.trans hgrow, hleft⟩

end

/-! ## Runs -/

section

variable {qt : Qt} {hashes : Hashes}

/-- Whatever one connection does, the sessions of all stay on their devices. -/
theorem onDevice_update {db db' : ServerDb} {conns : Nat → Connection} {c : Nat} {conn : Connection}
    (h : ∀ c, OnDevice (conns c) db) (hgrow : db.SessionsGrow db') (hconn : OnDevice conn db') :
    ∀ c', OnDevice (Function.update conns c conn c') db' := by
  intro c'
  by_cases hc : c' = c
  · rw [hc, Function.update_self]
    exact hconn
  · rw [Function.update_of_ne hc]
    exact (h c').grow hgrow

theorem renewalStep_onDevice (s : SequentialServer) (op : RenewalOp)
    (h : ∀ c, OnDevice (s.conns c) s.db) :
    ∀ c, OnDevice (((renewalMachine qt hashes).step s op).conns c)
      ((renewalMachine qt hashes).step s op).db := by
  cases op with
  | serve op =>
      cases op with
      | connect c peerAddress => exact onDevice_update h (.of_eq rfl) (.none rfl)
      | packet c packet random wait =>
          obtain ⟨hgrow, hconn⟩ := @processAdmitted_onDevice qt hashes packet.requestId (s.conns c)
            s.db (otherHandlers qt) random (s.admits qt hashes c packet wait).2 (h c)
          exact onDevice_update h hgrow hconn
      | tick seconds => exact fun c => (h c).grow (.of_eq rfl)
  | renew c request newToken requestId fails =>
      show ∀ c', OnDevice ((s.renew qt hashes c request newToken requestId fails).conns c')
        (s.renew qt hashes c request newToken requestId fails).db
      unfold SequentialServer.renew
      split
      · obtain ⟨hgrow, hconn⟩ := @processTokenRenewRequestUnder_onDevice qt hashes fails newToken
          requestId (s.conns c) request s.db (h c)
        exact onDevice_update h hgrow hconn
      · exact h

/-- **Renewal is atomic** in every reachable state, for every validated request and every
pattern of failing statements, exactly when the deletion and the insertion both happen or
neither does. -/
theorem tokenRenewal_atomic_iff {s : SequentialServer} (hs : (renewalMachine qt hashes).Reachable s)
    (c : Nat) (request : Json) (newToken : String) (requestId : Nat)
    (fails : RenewalStatement → Bool) (hdrawn : newToken ≠ "")
    (hvalid : validateSession hashes (s.conns c) request s.db = true) :
    RenewsAtomically hashes newToken (s.conns c) request s.db
        ((processTokenRenewRequestUnder qt hashes fails newToken requestId (s.conns c) request).exec
          s.db) ↔
      BothOrNeither hashes fails newToken (s.conns c) s.db := by
  have hdevices : ∀ c, OnDevice (s.conns c) s.db := by
    refine hs.of_step (Q := fun s => ∀ c, OnDevice (s.conns c) s.db) (fun s hinit c => ?_)
      renewalStep_onDevice
    rw [hinit c]
    exact .none rfl
  exact renewsAtomically_iff hvalid (hdevices c).device hdrawn

end

/-! ## Alice's renewal -/

/-- Alice has logged in on a server with her account alone. -/
def renewalServer : SequentialServer :=
  (renewalMachine sessionQt sessionHashes).run { db := freshServer.pool.store }
    [ .serve (.packet 0
        ⟨1, 1, "\x7b\"deviceId\":\"A\",\"nonce\":\"1\",\"password\":\"pw\",\"timestamp\":1,\"username\":\"alice\"\x7d"⟩
        ⟨"t1", ""⟩) ]

theorem renewalServer_reachable :
    (renewalMachine sessionQt sessionHashes).Reachable renewalServer :=
  ⟨_, _, fun _ => rfl, rfl⟩

/-- Where all statements work she has the new token and the old one is gone. -/
theorem tokenRenewal_atomic_alice :
    validateSession sessionHashes (renewalServer.conns 0) (tokenRequest "2" "t1") renewalServer.db
        = true ∧
      RenewsAtomically sessionHashes "t2" (renewalServer.conns 0) (tokenRequest "2" "t1")
        renewalServer.db
        ((processTokenRenewRequestUnder sessionQt sessionHashes (fun _ => false) "t2" 2
          (renewalServer.conns 0) (tokenRequest "2" "t1")).exec renewalServer.db) := by
  have hvalid : validateSession sessionHashes (renewalServer.conns 0) (tokenRequest "2" "t1")
      renewalServer.db = true := by decide +kernel
  refine ⟨hvalid, (tokenRenewal_atomic_iff renewalServer_reachable 0 (tokenRequest "2" "t1") "t2" 2
    (fun _ => false) (by decide) hvalid).mpr fun _ => iff_of_true rfl ⟨rfl, ?_, ?_⟩⟩
  · decide +kernel
  · decide +kernel

/-- Where the insertion alone fails she is left without a session. -/
theorem tokenRenewal_strands_alice :
    ¬RenewsAtomically sessionHashes "t2" (renewalServer.conns 0) (tokenRequest "2" "t1")
        renewalServer.db
        ((processTokenRenewRequestUnder sessionQt sessionHashes
          (fun statement => statement == .insertSession) "t2" 2 (renewalServer.conns 0)
          (tokenRequest "2" "t1")).exec renewalServer.db) := by
  intro h
  have herror := h.1 (by decide +kernel)
  exact absurd herror.2 (by decide +kernel)

end XYChat.Server
