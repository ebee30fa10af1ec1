import XYChat.Server.Sessions

/-!
# The session a TerminateSession request ends

The request names its target by the id of a session, by a device, or by both. One scan
takes the newest session of the user that has either name, and only the id in the request
is compared with the connection's own session. The request ends what it names exactly
when the session the scan comes to is neither the connection's own nor one with only one
of two names.
-/

namespace XYChat.Server

open XYChat.Lib

/-! ## Names -/

/-- The session id a TerminateSession request gives; none where it is not positive. -/
def targetSessionId (request : Json) : Int := (request.value "sessionId").toLongLong

/-- The device a TerminateSession request gives; none where it is empty. -/
def targetDeviceId (request : Json) : String := (request.value "deviceId").toStr ""

/-- The session has one of the names given. -/
def Named (request : Json) (s : SessionRow) : Bool :=
  (0 < targetSessionId request && s.id == targetSessionId request)
    || (targetDeviceId request != "" && s.deviceId == targetDeviceId request)

/-- The session has every name given. -/
def Matches (request : Json) (s : SessionRow) : Prop :=
  (0 < targetSessionId request → s.id = targetSessionId request) ∧
    (targetDeviceId request ≠ "" → s.deviceId = targetDeviceId request)

/-- The request is of the connection's user, gives a name, and not the id of the
connection's own session. -/
structure Asks (conn : Connection) (request : Json) : Prop where
  user : ¬(request.contains "userId" = true ∧
    (request.value "userId").toLongLong ≠ conn.authenticatedUserId)
  named : ¬(targetSessionId request ≤ 0 ∧ targetDeviceId request = "")
  other : targetSessionId request ≠ conn.currentSessionId

/-! ## The property -/

/-- One session of the user is deleted; it has every name given and is not the
connection's own. -/
def EndsTarget (conn : Connection) (request : Json) (db db' : ServerDb) : Prop :=
  ∃ s ∈ db.sessions.rows, s.userId = conn.authenticatedUserId ∧ Matches request s ∧
    s.id ≠ conn.currentSessionId ∧
    ∀ row, row ∈ db'.sessions.rows ↔ row ∈ db.sessions.rows ∧ row ≠ s

/-- A request that succeeds ends its target, and one that does not ends nothing. -/
def HitsTarget (requestId : Nat) (conn : Connection) (request : Json) (db : ServerDb) : Prop :=
  let r := (processTerminateSessionRequest requestId conn request).exec db
  (r.2.ok = true → EndsTarget conn request db r.1) ∧
    (r.2.ok = false → r.1.sessions = db.sessions)

/-- The newest session of the user that has one of the names given is not the
connection's own, and has all of them. -/
def NewestFits (conn : Connection) (request : Json) (db : ServerDb) : Prop :=
  Asks conn request → ∀ newer s older,
    db.getSessionsByUserId conn.authenticatedUserId = newer ++ s :: older →
    (∀ x ∈ newer, Named request x = false) → Named request s = true →
      s.id ≠ conn.currentSessionId ∧ Matches request s

/-! ## The handler -/

section

variable {requestId : Nat} {conn : Connection} {request : Json} {db : ServerDb}

theorem mem_getSessionsByUserId {userId : Int} {s : SessionRow} :
    s ∈ db.getSessionsByUserId userId ↔ s ∈ db.sessions.rows ∧ s.userId = userId := by
  unfold ServerDb.getSessionsByUserId
  rw [List.mem_insertionSort, List.mem_filter, beq_iff_eq]

/-- What is not asked for properly is refused. -/
theorem terminate_not_asked (h : ¬Asks conn request) :
    ((processTerminateSessionRequest requestId conn request).exec db).1 = db ∧
      ((processTerminateSessionRequest requestId conn request).exec db).2.ok = false := by
  unfold processTerminateSessionRequest
  dsimp only
  simp only [Prog.exec_ite, Prog.exec_pure]
  split
  · exact ⟨rfl, rfl⟩
  rename_i huser
  split
  · exact ⟨rfl, rfl⟩
  rename_i hnamed
  split
  · exact ⟨rfl, rfl⟩
  rename_i hother
  exact absurd ⟨huser, hnamed, hother⟩ h

/-- What is asked for is looked for among the user's sessions: the first that has one of
the names is deleted, and where there is none the request is refused. -/
theorem terminate_asked (h : Asks conn request) :
    match (db.getSessionsByUserId conn.authenticatedUserId).find? (Named request) with
    | none =>
        ((processTerminateSessionRequest requestId conn request).exec db).1 = db ∧
          ((processTerminateSessionRequest requestId conn request).exec db).2.ok = false
    | some s =>
        ((processTerminateSessionRequest requestId conn request).exec db).1 =
            db.deleteSession s.id ∧
          ((processTerminateSessionRequest requestId conn request).exec db).2.ok = true := by
  have hnamed : ¬((request.value "sessionId").toLongLong ≤ 0 ∧
      (request.value "deviceId").toStr "" = "") := h.named
  have hother : (request.value "sessionId").toLongLong ≠ conn.currentSessionId := h.other
  unfold processTerminateSessionRequest
  dsimp only
  rw [if_neg h.user, if_neg hnamed, if_neg hother, Prog.exec_bind, Prog.exec_query]
  dsimp only
  unfold Named targetSessionId targetDeviceId
  cases List.find? _ (db.getSessionsByUserId conn.authenticatedUserId) with
  | none => exact ⟨rfl, rfl⟩
  | some s => exact ⟨rfl, rfl⟩

/-- Deleting a session of the user ends the target exactly when it is the target. -/
theorem deleteSession_endsTarget_iff {s : SessionRow} (hs : s ∈ db.sessions.rows)
    (huser : s.userId = conn.authenticatedUserId) :
    EndsTarget conn request db (db.deleteSession s.id) ↔
      s.id ≠ conn.currentSessionId ∧ Matches request s := by
  have hdelete : ∀ row, row ∈ (db.deleteSession s.id).sessions.rows ↔
      row ∈ db.sessions.rows ∧ row ≠ s := fun row => Table.mem_delete_key hs
  constructor
  · rintro ⟨target, htarget, _, hmatches, hother, hrows⟩
    -- the row that is gone is the one deleted
    have hsame : target = s := by
      by_contra hne
      have hkept := (hdelete target).mpr ⟨htarget, hne⟩
      exact ((hrows target).mp hkept).2 rfl
    rw [← hsame]
    exact ⟨hother, hmatches⟩
  · rintro ⟨hother, hmatches⟩
    exact ⟨s, hs, huser, hmatches, hother, hdelete⟩

end

/-- **What a request ends.** For all sessions and every request, success ends exactly the
target and failure nothing, if and only if the newest session that has one of the names
is not the connection's own and has all of them. -/
theorem terminateSession_hitsTarget_iff (requestId : Nat) (conn : Connection) (request : Json)
    (db : ServerDb) : HitsTarget requestId conn request db ↔ NewestFits conn request db := by
  unfold HitsTarget NewestFits
  dsimp only
  by_cases hasks : Asks conn request
  · rw [forall_prop_of_true hasks]
    have hscan := @terminate_asked requestId conn request db hasks
    cases hfind : (db.getSessionsByUserId conn.authenticatedUserId).find? (Named request) with
    | none =>
        rw [hfind] at hscan
        obtain ⟨hdb, hok⟩ := hscan
        rw [hdb, hok]
        refine iff_of_true ⟨nofun, fun _ => rfl⟩ ?_
        intro newer s older hlist _ hnamed
        have hmem : s ∈ db.getSessionsByUserId conn.authenticatedUserId := by
          rw [hlist]
          simp
        exact absurd hnamed (List.find?_eq_none.mp hfind s hmem)
    | some s =>
        rw [hfind] at hscan
        obtain ⟨hdb, hok⟩ := hscan
        obtain ⟨hnamed, newer, older, hlist, hnewer⟩ := List.find?_eq_some_iff_append.mp hfind
        have hmem : s ∈ db.getSessionsByUserId conn.authenticatedUserId := by
          rw [hlist]
          simp
        obtain ⟨hs, huser⟩ := mem_getSessionsByUserId.mp hmem
        rw [hdb, hok, deleteSession_endsTarget_iff hs huser]
        simp only [forall_true_left, Bool.true_eq_false, false_implies, and_true]
        constructor
        · intro hfits newer' s' older' hlist' hnewer' hnamed'
          -- the scan comes to one session
          have hfind' : (db.getSessionsByUserId conn.authenticatedUserId).find? (Named request) =
              some s' :=
            List.find?_eq_some_iff_append.mpr ⟨hnamed', newer', older', hlist', by simpa using hnewer'⟩
          rw [hfind] at hfind'
          rw [← Option.some.inj hfind']
          exact hfits
        · intro hfits
          exact hfits newer s older hlist (by simpa using hnewer) hnamed
  · obtain ⟨hdb, hok⟩ := @terminate_not_asked requestId conn request db hasks
    rw [hdb, hok]
    exact iff_of_true ⟨nofun, fun _ => rfl⟩ fun h => absurd h hasks

/-! ## The own session by its device -/

/-- Alice's connection on her laptop. -/
def onLaptop : Connection :=
  { authenticatedUserId := 1, currentSessionId := 1, currentDeviceId := "laptop" }

/-- Her one session. -/
def oneSession : ServerDb where
  now := 1767225600
  users := .ofRows [{ id := 1, username := "alice" }]
  sessions := .ofRows
    [{ id := 1, userId := 1, deviceId := "laptop", tokenHash := "h1", loginIp := "", createdAt := 0
       lastActiveAt := 0, expiresAt := some 604800 }]

/-- Alice asks for the session of her laptop to be ended, on her laptop: it is. -/
theorem terminateSession_ends_own :
    ¬HitsTarget 1 onLaptop (.obj [("deviceId", .str "laptop")]) oneSession := by
  intro h
  obtain ⟨s, hs, _, _, hother, _⟩ := h.1 (by decide +kernel)
  have hid : ∀ s ∈ oneSession.sessions.rows, s.id = 1 := by decide
  exact hother (hid s hs)

end XYChat.Server
