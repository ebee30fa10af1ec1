import XYChat.Server.Connection
import XYChat.Server.Db

/-!
# Synchronising events

The handler of `SyncEvents`, and both its reads and those of `pruneSyncEvents`
as steps that may interleave.
-/

namespace XYChat.Server

open XYChat.Lib

/-- The event as a reply shows it. -/
def eventJson (qt : Qt) (e : SyncEventRow) : Json := .obj
  [ ("seq", .int e.seq), ("type", .str e.eventType), ("payload", e.payload)
  , ("createdAt", .str (qt.sqlDate e.createdAt)) ]

/-- The limit of a page, 200 where the request's is out of range. -/
def pageLimit (request : Json) : Nat :=
  let limit := (request.value "limit").toInt 200
  if limit ≤ 0 ∨ 1000 < limit then 200 else limit.toNat

/-- The reply to a device whose cursor is behind the watermark. -/
def fullSyncData (afterSeq prunedBelow maxSeq : Int) : Json := .obj
  [ ("events", .arr []), ("lastSeq", .int afterSeq), ("hasMore", .bool false)
  , ("needsFullSync", .bool true), ("fullSyncSeq", .int (max maxSeq prunedBelow)) ]

/-- The reply with a page of events. -/
def pageData (qt : Qt) (afterSeq : Int) (limit : Nat) (events : List SyncEventRow) : Json := .obj
  [ ("events", .arr (events.map (eventJson qt)))
  , ("lastSeq", .int ((events.getLast?.map (·.seq)).getD afterSeq))
  , ("hasMore", .bool (limit ≤ events.length)), ("needsFullSync", .bool false) ]

/-- The reply of the handler with this data. -/
def eventsReply (requestId : Nat) (conn : Connection) (data : Json) : Outcome where
  conn := conn
  response := { requestId, messageType := .syncEventsResponse, code := .ok, message := "OK", data }

/-- `RequestHandler::processSyncEventsRequest`. -/
def processSyncEventsRequest (qt : Qt) (requestId : Nat) (conn : Connection) (request : Json) :
    Prog Db Outcome := do
  let afterSeq := (request.value "afterSeq").toLongLong
  if afterSeq < 0 then
    return conn.reply requestId .syncEventsResponse .invalidRequest "Invalid afterSeq"
  else
    let limit := pageLimit request
    let prunedBelow ← Prog.query (·.prunedBelowSeq)
    if 0 < afterSeq ∧ afterSeq < prunedBelow then
      let maxSeq ← Prog.query (·.maxSyncEventSeq)
      return eventsReply requestId conn (fullSyncData afterSeq prunedBelow maxSeq)
    else
      let events ← Prog.query (·.getSyncEvents conn.authenticatedUserId afterSeq limit)
      return eventsReply requestId conn (pageData qt afterSeq limit events)

/-! ## One statement at a time -/

/-- A `pruneSyncEvents` that runs: what it has read, and the statement it is
at. -/
inductive PrunePhase where
  | start (retentionDays : Int)
  | found (retentionDays cutoffSeq : Int)
  | deleted (removed : Nat) (cutoffSeq : Int)
  | done (removed : Nat)
  deriving DecidableEq, Repr

/-- Its next statement. -/
def PrunePhase.step (db : Db) : PrunePhase → Db × PrunePhase
  | .start retentionDays =>
      let cutoffSeq := db.expiredCutoff retentionDays
      (db, if cutoffSeq ≤ 0 then .done 0 else .found retentionDays cutoffSeq)
  | .found retentionDays cutoffSeq =>
      let (db, removed) := db.deleteExpired retentionDays
      (db, .deleted removed cutoffSeq)
  | .deleted removed cutoffSeq => (db.raisePruned cutoffSeq, .done removed)
  | .done removed => (db, .done removed)

/-- A `SyncEvents` request that runs. -/
inductive SyncPhase where
  | asked
  | behind (prunedBelow : Int)
  | compared (prunedBelow : Int)
  | answered (data : Json)

/-- Its next read; the answer is the `data` of the reply. -/
def SyncPhase.step (qt : Qt) (userId afterSeq : Int) (limit : Nat) (db : Db) :
    SyncPhase → SyncPhase
  | .asked =>
      let prunedBelow := db.prunedBelowSeq
      if 0 < afterSeq ∧ afterSeq < prunedBelow then .behind prunedBelow else .compared prunedBelow
  | .behind prunedBelow => .answered (fullSyncData afterSeq prunedBelow db.maxSyncEventSeq)
  | .compared _ => .answered (pageData qt afterSeq limit (db.getSyncEvents userId afterSeq limit))
  | .answered data => .answered data

/-! ## The phases are those of the code -/

/-- What is left of `pruneSyncEvents` at a phase. -/
def PrunePhase.rest : PrunePhase → Prog Db Nat
  | .start retentionDays => do
      let cutoffSeq ← Prog.query (·.expiredCutoff retentionDays)
      if cutoffSeq ≤ 0 then return 0
      else
        let removed ← Prog.call (Db.deleteExpired retentionDays)
        Prog.update (Db.raisePruned cutoffSeq)
        return removed
  | .found retentionDays cutoffSeq => do
      let removed ← Prog.call (Db.deleteExpired retentionDays)
      Prog.update (Db.raisePruned cutoffSeq)
      return removed
  | .deleted removed cutoffSeq => do
      Prog.update (Db.raisePruned cutoffSeq)
      return removed
  | .done removed => pure removed

theorem pruneSyncEvents_eq {retentionDays : Int} (h : 0 < retentionDays) :
    pruneSyncEvents retentionDays = (PrunePhase.start retentionDays).rest := if_neg (by omega)

/-- **The steps of a prune** are the statements of `pruneSyncEvents`. -/
theorem PrunePhase.tells (phase : PrunePhase) :
    Prog.Tells PrunePhase.step PrunePhase.rest phase := by
  cases phase with
  | start retentionDays =>
      refine .inr ⟨_, _, rfl, fun db => ⟨rfl, ?_⟩⟩
      show (if db.expiredCutoff retentionDays ≤ 0 then PrunePhase.done 0
        else .found retentionDays (db.expiredCutoff retentionDays)).rest = _
      split
      · exact (if_pos (by assumption)).symm
      · exact (if_neg (by assumption)).symm
  | found retentionDays cutoffSeq => exact .inr ⟨_, _, rfl, fun db => ⟨rfl, rfl⟩⟩
  | deleted removed cutoffSeq => exact .inr ⟨_, _, rfl, fun db => ⟨rfl, rfl⟩⟩
  | done removed => exact .inl ⟨removed, rfl, fun db => rfl⟩

section

variable (qt : Qt) (requestId : Nat) (conn : Connection) (afterSeq : Int) (limit : Nat)

/-- What is left of `processSyncEventsRequest` at a phase. -/
def SyncPhase.rest : SyncPhase → Prog Db Outcome
  | .asked => do
      let prunedBelow ← Prog.query (·.prunedBelowSeq)
      if 0 < afterSeq ∧ afterSeq < prunedBelow then
        let maxSeq ← Prog.query (·.maxSyncEventSeq)
        return eventsReply requestId conn (fullSyncData afterSeq prunedBelow maxSeq)
      else
        let events ← Prog.query (·.getSyncEvents conn.authenticatedUserId afterSeq limit)
        return eventsReply requestId conn (pageData qt afterSeq limit events)
  | .behind prunedBelow => do
      let maxSeq ← Prog.query (·.maxSyncEventSeq)
      return eventsReply requestId conn (fullSyncData afterSeq prunedBelow maxSeq)
  | .compared _ => do
      let events ← Prog.query (·.getSyncEvents conn.authenticatedUserId afterSeq limit)
      return eventsReply requestId conn (pageData qt afterSeq limit events)
  | .answered data => pure (eventsReply requestId conn data)

theorem processSyncEventsRequest_eq {request : Json}
    (h : 0 ≤ (request.value "afterSeq").toLongLong) :
    processSyncEventsRequest qt requestId conn request =
      SyncPhase.asked.rest qt requestId conn (request.value "afterSeq").toLongLong
        (pageLimit request) := if_neg (by omega)

/-- **The steps of a request** are the reads of `processSyncEventsRequest`. -/
theorem SyncPhase.tells (phase : SyncPhase) :
    Prog.Tells (fun db phase => (db, phase.step qt conn.authenticatedUserId afterSeq limit db))
      (SyncPhase.rest qt requestId conn afterSeq limit) phase := by
  cases phase with
  | asked =>
      refine .inr ⟨_, _, rfl, fun db => ⟨rfl, ?_⟩⟩
      show (if 0 < afterSeq ∧ afterSeq < db.prunedBelowSeq then SyncPhase.behind db.prunedBelowSeq
        else .compared db.prunedBelowSeq).rest qt requestId conn afterSeq limit = _
      split
      · exact (if_pos (by assumption)).symm
      · exact (if_neg (by assumption)).symm
  | behind prunedBelow => exact .inr ⟨_, _, rfl, fun db => ⟨rfl, rfl⟩⟩
  | compared prunedBelow => exact .inr ⟨_, _, rfl, fun db => ⟨rfl, rfl⟩⟩
  | answered data => exact .inl ⟨_, rfl, fun db => rfl⟩

end

end XYChat.Server
