import XYChat.Server.Dispatch

/-!
# Who may reach a handler

Every handler but those of registering and logging in is reached only with the
token of a live session of the connection's user, and a session that has been
deleted never lets its token in again, whatever the connections do in between.
-/

namespace XYChat.Server

open XYChat.Lib XYChat.Lib.Prog

/-! ## What a packet needs to reach a handler -/

/-- The session a request of connection `c` reaches a handler with: it is the
connection's, its user is the connection's, its hash is that of the request's
token, and once expired it is good for logging out and for a renewal only. -/
structure SessionOf (hashes : Hashes) (s : ServerState) (c : Nat) (handler : Handler)
    (request : Json) (row : SessionRow) : Prop where
  exists_ : row ∈ s.pool.store.sessions.rows
  current : row.id = (s.pool.workers c).here.currentSessionId
  user : row.userId = (s.pool.workers c).here.authenticatedUserId
  token : row.tokenHash = hashes.hashToken (tokenOf request)
  expiry : ∃ expiresAt, row.expiresAt = some expiresAt ∧
    (expiresAt < s.pool.store.now → handler.endsSession = true)

/-- What `validateSession` accepts. -/
theorem validateSession_ok {hashes : Hashes} {conn : Connection} {request : Json} {db : ServerDb}
    (h : validateSession hashes conn request db = true) :
    ∃ row ∈ db.sessions.rows, row.id = conn.currentSessionId ∧
      row.userId = conn.authenticatedUserId ∧
      row.tokenHash = hashes.hashToken (tokenOf request) ∧
      ∃ expiresAt, row.expiresAt = some expiresAt ∧
        (expiresAt < db.now → typeOf request = "token_renew") := by
  unfold validateSession at h
  split at h
  · simp at h
  cases hget : db.getSessionById conn.currentSessionId with
  | none =>
      rw [hget] at h
      simp at h
  | some row =>
      rw [hget] at h
      obtain ⟨hrow, hid⟩ := Table.get_eq_some.mp hget
      dsimp only at h
      split at h
      · simp at h
      rename_i huser
      cases hexp : row.expiresAt with
      | none =>
          rw [hexp] at h
          simp at h
      | some expiresAt =>
          rw [hexp] at h
          dsimp only at h
          split at h
          · simp at h
          rename_i hlive
          split at h
          · simp at h
          refine ⟨row, hrow, hid, not_not.mp huser, (beq_iff_eq.mp h).symm, expiresAt, hexp, ?_⟩
          intro hlt
          by_contra hne
          exact hlive ⟨beq_eq_false_iff_ne.mpr hne, hlt⟩

/-- A chosen handler is that of a route which accepts the packet. -/
private theorem choose_some {routes : List Route} {messageType : Nat} {type : String}
    {handler : Handler} (h : choose routes messageType type = some handler) :
    ∃ r ∈ routes, r.accepts messageType type = true ∧ r.handler = handler := by
  obtain ⟨r, hfind, hr⟩ := Option.map_eq_some_iff.mp h
  exact ⟨r, List.mem_of_find?_eq_some hfind, by simpa using List.find?_some hfind, hr⟩

/-- The open routes lead to registering and logging in. -/
private theorem choose_open {messageType : Nat} {type : String} {handler : Handler}
    (h : choose openRoutes messageType type = some handler) : handler.needsSession = false := by
  obtain ⟨r, hr, _, rfl⟩ := choose_some h
  exact (by decide : ∀ r ∈ openRoutes, r.handler.needsSession = false) r hr

/-- A renewal is only dispatched to logging out, by its header, or to the
renewal: its route comes before all the others. -/
private theorem choose_renew {messageType : Nat} {handler : Handler}
    (h : choose sessionRoutes messageType "token_renew" = some handler) :
    handler.endsSession = true := by
  unfold choose sessionRoutes at h
  rw [List.find?_cons] at h
  split at h
  · cases h
    rfl
  · rw [List.find?_cons] at h
    have hrenew : Route.accepts ⟨.tokenRenewRequest, ["token_renew"], .tokenRenew⟩ messageType
        "token_renew" = true := by
      simp [Route.accepts]
    rw [hrenew] at h
    cases h
    rfl

/-- A packet that reaches a handler has an object for its payload and takes an
open route, or any route with a valid session. -/
theorem admit_handle {qt : Qt} {hashes : Hashes} {conn : Connection} {packet : Packet}
    {wait : Nat} {db : ServerDb} {nonces : NonceCache} {handler : Handler} {request : Json}
    (h : (admission qt hashes conn packet wait db nonces).2 = .handle handler request) :
    qt.fromJson packet.payload = some request ∧ request.isObject = true ∧
      (choose openRoutes packet.messageType (typeOf request) = some handler ∨
        (validateSession hashes conn request db = true ∧
          choose sessionRoutes packet.messageType (typeOf request) = some handler)) := by
  unfold admission at h
  split at h
  · cases h
  split at h
  · cases h
  rename_i request' hjson
  split at h
  · cases h
  rename_i hobject
  simp only [Bool.not_eq_true', Bool.not_eq_false] at hobject
  dsimp only at h
  split at h
  · cases h
  cases hopen : choose openRoutes packet.messageType (typeOf request') with
  | some handler' =>
      rw [hopen] at h
      cases h
      exact ⟨hjson, hobject, .inl hopen⟩
  | none =>
      rw [hopen] at h
      dsimp only at h
      split at h
      · cases h
      rename_i hvalid
      cases hsession : choose sessionRoutes packet.messageType (typeOf request') with
      | some handler' =>
          rw [hsession] at h
          cases h
          exact ⟨hjson, hobject, .inr ⟨by simpa using hvalid, hsession⟩⟩
      | none =>
          rw [hsession] at h
          cases h

/-- **Admission.** In any state, a request that reaches a handler other than
those of registering and logging in has a session. -/
theorem admits_sessionOf {qt : Qt} {hashes : Hashes} {s : ServerState} {c : Nat} {packet : Packet}
    {wait : Nat} {handler : Handler} {request : Json}
    (h : (s.admits qt hashes c packet wait).2 = .handle handler request)
    (hneeds : handler.needsSession = true) : ∃ row, SessionOf hashes s c handler request row := by
  rcases (admit_handle h).2.2 with hopen | ⟨hvalid, hsession⟩
  · rw [choose_open hopen] at hneeds
    cases hneeds
  · obtain ⟨row, hrow, hid, huser, htoken, expiresAt, hexp, hrenew⟩ := validateSession_ok hvalid
    refine ⟨row, hrow, hid, huser, htoken, expiresAt, hexp, fun hlt => ?_⟩
    rw [hrenew hlt] at hsession
    exact choose_renew hsession

/-! ## What handlers do to the sessions -/

/-- Each session row of `db'` is one of `db`, apart from its last activity. -/
def SessionsKept (db db' : ServerDb) : Prop :=
  ∀ row' ∈ db'.sessions.rows,
    ∃ row ∈ db.sessions.rows, row.id = row'.id ∧ row.tokenHash = row'.tokenHash

/-- Each session row of `db'` is one of `db` or the next row, which holds the
hash of `token`. -/
def SessionsIssued (hashes : Hashes) (token : String) (db db' : ServerDb) : Prop :=
  ∀ row' ∈ db'.sessions.rows,
    (∃ row ∈ db.sessions.rows, row.id = row'.id ∧ row.tokenHash = row'.tokenHash) ∨
      (row'.id = db.sessions.lastId + 1 ∧ row'.tokenHash = hashes.hashToken token)

/-- A handler with a token to issue issues it at most once; otherwise it creates
no session. -/
def issuing (hashes : Hashes) : Protocol ServerDb (Option String) where
  holds _ _ := True
  step t db db' t' :=
    (t' = t ∧ SessionsKept db db') ∨
      ∃ token, t = some token ∧ t' = none ∧ SessionsIssued hashes token db db'

/-- At the end of a handler nothing is left to show. -/
def done {α : Type} : Option String → α → Prop := fun _ _ => True

theorem SessionsKept.refl (db : ServerDb) : SessionsKept db db := fun row h => ⟨row, h, rfl, rfl⟩

theorem sessionsKept_of_eq {db db' : ServerDb} (h : db'.sessions = db.sessions) :
    SessionsKept db db' := by
  intro row hrow
  exact ⟨row, h ▸ hrow, rfl, rfl⟩

theorem sessionsKept_delete (sessionId : Int) (db : ServerDb) :
    SessionsKept db (db.deleteSession sessionId) := by
  intro row hrow
  exact ⟨row, (Table.mem_delete.mp hrow).1, rfl, rfl⟩

theorem sessionsKept_lastActive (sessionId : Int) (db : ServerDb) :
    SessionsKept db (db.updateSessionLastActive sessionId) := by
  intro row' hrow'
  obtain ⟨row, hrow, rfl⟩ := List.mem_map.mp hrow'
  refine ⟨row, hrow, ?_⟩
  split <;> exact ⟨rfl, rfl⟩

theorem sessionsKept_recordLoginAttempt (userId : Int) (ipAddress : String) (success : Bool)
    (failureReason : String) (db : ServerDb) :
    SessionsKept db (db.recordLoginAttempt userId ipAddress success failureReason) :=
  sessionsKept_of_eq rfl

theorem sessionsKept_registerDevice (userId : Int) (deviceId deviceName platform : String)
    (db : ServerDb) :
    SessionsKept db (db.registerDevice userId deviceId deviceName platform) :=
  sessionsKept_of_eq rfl

section follows

variable {hashes : Hashes} {α : Type} {t : Option String} {Q : Option String → α → Prop}

private theorem follows_read {f : ServerDb → α} (h : ∀ db, Q t (f db)) :
    Follows (issuing hashes) Q t (query f) :=
  follows_query fun db _ => ⟨t, .inl ⟨rfl, .refl db⟩, h db⟩

private theorem follows_keep {Q : Option String → Unit → Prop} {f : ServerDb → ServerDb}
    (hf : ∀ db, SessionsKept db (f db)) (h : Q t ()) :
    Follows (issuing hashes) Q t (update f) :=
  follows_update fun db _ => ⟨t, .inl ⟨rfl, hf db⟩, h⟩

private theorem follows_registerUser {Q : Option String → Option Int → Prop}
    {username passwordHash : String} (h : ∀ r, Q t r) :
    Follows (issuing hashes) Q t (call (ServerDb.registerUser username passwordHash)) :=
  follows_call fun _ _ => ⟨t, .inl ⟨rfl, sessionsKept_of_eq rfl⟩, h _⟩

/-- Creating the session issues the token, or fails and leaves it. -/
private theorem follows_createSession {Q : Option String → Option Int → Prop} {token : String}
    {userId : Int} {deviceId loginIp : String} (h : ∀ t r, Q t r) :
    Follows (issuing hashes) Q (some token)
      (call (ServerDb.createSession userId deviceId (hashes.hashToken token) loginIp)) := by
  refine follows_call fun db _ => ⟨none, .inr ⟨token, rfl, rfl, ?_⟩, h _ _⟩
  intro row hrow
  unfold ServerDb.createSession at hrow
  split at hrow
  · rcases Table.mem_insert.mp hrow with hold | rfl
    · exact .inl ⟨row, hold, rfl, rfl⟩
    · exact .inr ⟨rfl, rfl⟩
  · exact .inl ⟨row, hrow, rfl, rfl⟩

private theorem follows_checkRateLimit {ipAddress : String} {userId : Int}
    {Q : Option String → Bool → Prop} (h : ∀ b, Q t b) :
    Follows (issuing hashes) Q t (checkRateLimit ipAddress userId) := by
  unfold checkRateLimit
  refine (follows_read fun db => ?_).bind
  refine follows_ite (fun _ => follows_pure.mpr (h _)) fun _ => ?_
  refine follows_ite (fun _ => ?_) fun _ => follows_pure.mpr (h _)
  refine (follows_read fun db => ?_).bind
  exact follows_pure.mpr (h _)

private theorem follows_end {a : α} : Follows (issuing hashes) done t (pure a) :=
  follows_pure.mpr trivial

end follows

variable (qt : Qt) (hashes : Hashes) (other : OtherHandlers) (random : Random) (requestId : Nat)
  (conn : Connection) (request : Json)

theorem processLoginRequest_issuing (token : String) :
    (processLoginRequest qt hashes token requestId conn request).Follows (issuing hashes) done
      (some token) := by
  unfold processLoginRequest
  dsimp only
  refine follows_ite (fun _ => follows_end) fun _ => ?_
  refine (follows_read fun db => ?_).bind
  cases db.getUserByUsername (trimmed ((request.value "username").toStr "")) with
  | none =>
      refine (follows_keep (sessionsKept_recordLoginAttempt _ _ _ _) ?_).bind
      exact follows_end
  | some user =>
      refine (follows_checkRateLimit fun limited => ?_).bind
      refine follows_ite (fun _ => follows_end) fun _ => ?_
      refine follows_ite (fun _ => ?_) fun _ => ?_
      · refine (follows_keep (sessionsKept_recordLoginAttempt _ _ _ _) ?_).bind
        exact follows_end
      refine (follows_keep (sessionsKept_registerDevice _ _ _ _) ?_).bind
      refine (follows_createSession fun t created => ?_).bind
      cases created with
      | none => exact follows_end
      | some sessionId =>
          refine (follows_keep (sessionsKept_recordLoginAttempt _ _ _ _) ?_).bind
          refine (follows_read fun _ => ?_).bind
          exact follows_end

theorem processTokenRenewRequest_issuing (token : String) :
    (processTokenRenewRequest qt hashes token requestId conn request).Follows (issuing hashes) done
      (some token) := by
  unfold processTokenRenewRequest
  dsimp only
  refine follows_ite (fun _ => follows_end) fun _ => ?_
  refine (follows_read fun db => ?_).bind
  cases db.getSessionById conn.currentSessionId with
  | none => exact follows_end
  | some session =>
      refine follows_ite (fun _ => follows_end) fun _ => ?_
      refine (follows_keep (sessionsKept_delete _) ?_).bind
      refine (follows_createSession fun t created => ?_).bind
      cases created with
      | none => exact follows_end
      | some sessionId =>
          refine (follows_read fun _ => ?_).bind
          exact follows_end

theorem processRegisterRequest_issuing (salt : String) (t : Option String) :
    (processRegisterRequest hashes salt requestId conn request).Follows (issuing hashes) done t := by
  unfold processRegisterRequest
  dsimp only
  refine follows_ite (fun _ => follows_end) fun _ => ?_
  refine follows_ite (fun _ => follows_end) fun _ => ?_
  refine follows_ite (fun _ => follows_end) fun _ => ?_
  refine (follows_read fun db => ?_).bind
  refine follows_ite (fun _ => follows_end) fun _ => ?_
  refine (follows_registerUser fun registered => ?_).bind
  cases registered with
  | none => exact follows_end
  | some userId => exact follows_end

theorem processLogoutRequest_issuing (t : Option String) :
    (processLogoutRequest requestId conn).Follows (issuing hashes) done t := by
  unfold processLogoutRequest
  refine (follows_keep (sessionsKept_delete _) ?_).bind
  exact follows_end

theorem processTerminateSessionRequest_issuing (t : Option String) :
    (processTerminateSessionRequest requestId conn request).Follows (issuing hashes) done t := by
  unfold processTerminateSessionRequest
  dsimp only
  refine follows_ite (fun _ => follows_end) fun _ => ?_
  refine follows_ite (fun _ => follows_end) fun _ => ?_
  refine follows_ite (fun _ => follows_end) fun _ => ?_
  refine (follows_read fun db => ?_).bind
  split
  · exact follows_end
  · refine (follows_keep (sessionsKept_delete _) ?_).bind
    exact follows_end

theorem business_issuing (p : Prog Db Outcome) (t : Option String) :
    (business conn p).Follows (issuing hashes) done t := by
  unfold business
  refine Follows.bind ?_
  exact follows_zoom (fun _ db => .inl ⟨rfl, sessionsKept_of_eq rfl⟩) fun _ => follows_end

/-- Every handler issues the token drawn for it at most once. -/
theorem handle_issuing (handler : Handler) :
    (handle qt hashes other random requestId conn request handler).Follows (issuing hashes) done
      (some random.token) := by
  cases handler with
  | register =>
      rw [handle]
      exact processRegisterRequest_issuing ..
  | login => exact processLoginRequest_issuing ..
  | logout => exact processLogoutRequest_issuing ..
  | tokenRenew => exact processTokenRenewRequest_issuing ..
  | terminateSession =>
      rw [handle]
      exact processTerminateSessionRequest_issuing ..
  | _ => exact business_issuing ..

theorem processAdmitted_issuing (admission : Admission) :
    (processAdmitted qt hashes other random requestId conn admission).Follows (issuing hashes) done
      (some random.token) := by
  cases admission with
  | pong => exact follows_end
  | reject code message => exact follows_end
  | unknown type =>
      refine (follows_keep (sessionsKept_lastActive _) ?_).bind
      exact follows_end
  | handle handler request =>
      have hhandle := handle_issuing qt hashes other random requestId conn request handler
      refine follows_ite (fun _ => ?_) fun _ => hhandle
      refine (follows_keep (sessionsKept_lastActive _) ?_).bind
      exact hhandle

/-! ## Runs -/

/-- The token drawn for a packet was not drawn before. -/
def FreshToken (s : ServerState) : ServerOp → Prop
  | .packet _ _ random _ => random.token ∉ s.drawn
  | _ => True

instance (s : ServerState) : ∀ op, Decidable (FreshToken s op)
  | .packet _ _ random _ => inferInstanceAs (Decidable (random.token ∉ s.drawn))
  | .connect .. => isTrue trivial
  | .statement _ => isTrue trivial
  | .prune => isTrue trivial
  | .pruneStatement => isTrue trivial
  | .tick _ => isTrue trivial

/-- `g` says which token each connection's handler still has to issue: a drawn
one, no other connection's, whose hash no session row holds. Each session row
holds the hash of a drawn token, and no two rows the same. -/
structure Issued (g : Nat → Option String) (s : ServerState) : Prop where
  guarded : s.pool.Guarded (issuing hashes) done g
  drawn : ∀ row ∈ s.pool.store.sessions.rows,
    ∃ token ∈ s.drawn, row.tokenHash = hashes.hashToken token
  unique : ∀ a ∈ s.pool.store.sessions.rows, ∀ b ∈ s.pool.store.sessions.rows,
    a.tokenHash = b.tokenHash → a.id = b.id
  pending : ∀ c token, g c = some token → token ∈ s.drawn ∧
    ∀ row ∈ s.pool.store.sessions.rows, row.tokenHash ≠ hashes.hashToken token
  apart : ∀ c c' token, g c = some token → g c' = some token → c = c'

/-- What a step does to the sessions and to the tokens still to be issued. -/
structure Evolves (g g' : Nat → Option String) (s s' : ServerState) : Prop where
  sessions : ∀ row' ∈ s'.pool.store.sessions.rows,
    (∃ row ∈ s.pool.store.sessions.rows, row.id = row'.id ∧ row.tokenHash = row'.tokenHash) ∨
      ∃ c token, g c = some token ∧ row'.tokenHash = hashes.hashToken token
  pending : ∀ c token, g' c = some token → g c = some token ∨ token ∉ s.drawn
  drawn : ∀ token ∈ s.drawn, token ∈ s'.drawn

variable {qt hashes other}

theorem Started.issued {s : ServerState} (h : s.Started hashes) :
    Issued hashes (fun _ => none) s where
  guarded := by
    intro c prog hrunning
    rw [h.idle c] at hrunning
    cases hrunning
  drawn := h.drawn
  unique := h.unique
  pending := by simp
  apart := by simp

/-- Nothing is issued: the sessions and the ghost states stay. -/
private theorem Issued.keep {g : Nat → Option String} {s s' : ServerState} (h : Issued hashes g s)
    (hguarded : s'.pool.Guarded (issuing hashes) done g)
    (hkept : SessionsKept s.pool.store s'.pool.store) (hdrawn : s'.drawn = s.drawn) :
    Issued hashes g s' ∧ Evolves hashes g g s s' := by
  refine ⟨⟨hguarded, ?_, ?_, ?_, h.apart⟩, fun row' hrow' => .inl (hkept row' hrow'),
    fun c token hg => .inl hg, fun token htoken => hdrawn ▸ htoken⟩
  · intro row' hrow'
    obtain ⟨row, hrow, _, hhash⟩ := hkept row' hrow'
    rw [hdrawn, ← hhash]
    exact h.drawn row hrow
  · intro a' ha' b' hb' heq
    obtain ⟨a, ha, haid, hahash⟩ := hkept a' ha'
    obtain ⟨b, hb, hbid, hbhash⟩ := hkept b' hb'
    rw [← haid, ← hbid]
    exact h.unique a ha b hb (by rw [hahash, hbhash, heq])
  · intro c token hg
    obtain ⟨hmem, hne⟩ := h.pending c token hg
    refine ⟨hdrawn ▸ hmem, fun row' hrow' => ?_⟩
    obtain ⟨row, hrow, _, hhash⟩ := hkept row' hrow'
    rw [← hhash]
    exact hne row hrow

/-- A handler issues its token: the row is new, and so is its hash. -/
private theorem Issued.issue {g : Nat → Option String} {s s' : ServerState} {c : Nat}
    {token : String} (h : Issued hashes g s) (hg : g c = some token)
    (hguarded : s'.pool.Guarded (issuing hashes) done (Function.update g c none))
    (hissued : SessionsIssued hashes token s.pool.store s'.pool.store)
    (hinj : Function.Injective hashes.hashToken) (hdrawn : s'.drawn = s.drawn) :
    Issued hashes (Function.update g c none) s' ∧
      Evolves hashes g (Function.update g c none) s s' := by
  obtain ⟨htoken, hnew⟩ := h.pending c token hg
  -- who still has a token to issue had it before, and is not `c`
  have hold : ∀ c' t, Function.update g c none c' = some t → c' ≠ c ∧ g c' = some t := by
    intro c' t ht
    by_cases hc : c' = c
    · subst hc
      rw [Function.update_self] at ht
      cases ht
    · rw [Function.update_of_ne hc] at ht
      exact ⟨hc, ht⟩
  refine ⟨⟨hguarded, ?_, ?_, ?_, ?_⟩, ?_, fun c' t ht => .inl (hold c' t ht).2,
    fun t ht => hdrawn ▸ ht⟩
  · intro row' hrow'
    rw [hdrawn]
    rcases hissued row' hrow' with ⟨row, hrow, _, hhash⟩ | ⟨_, hhash⟩
    · rw [← hhash]
      exact h.drawn row hrow
    · exact ⟨token, htoken, hhash⟩
  · intro a' ha' b' hb' heq
    rcases hissued a' ha' with ⟨a, ha, haid, hahash⟩ | ⟨haid, hahash⟩ <;>
      rcases hissued b' hb' with ⟨b, hb, hbid, hbhash⟩ | ⟨hbid, hbhash⟩
    · rw [← haid, ← hbid]
      exact h.unique a ha b hb (by rw [hahash, hbhash, heq])
    · exact absurd (by rw [hahash, heq, hbhash]) (hnew a ha)
    · exact absurd (by rw [hbhash, ← heq, hahash]) (hnew b hb)
    · rw [haid, hbid]
  · intro c' t ht
    obtain ⟨hc, hgt⟩ := hold c' t ht
    obtain ⟨hmem, hne⟩ := h.pending c' t hgt
    refine ⟨hdrawn ▸ hmem, fun row' hrow' => ?_⟩
    rcases hissued row' hrow' with ⟨row, hrow, _, hhash⟩ | ⟨_, hhash⟩
    · rw [← hhash]
      exact hne row hrow
    · rw [hhash]
      intro heq
      exact hc (h.apart c' c t hgt (hinj heq ▸ hg))
  · intro c₁ c₂ t h₁ h₂
    exact h.apart c₁ c₂ t (hold c₁ t h₁).2 (hold c₂ t h₂).2
  · intro row' hrow'
    rcases hissued row' hrow' with hrow | ⟨_, hhash⟩
    · exact .inl hrow
    · exact .inr ⟨c, token, hg, hhash⟩

/-- A packet gives its handler a fresh token. -/
private theorem Issued.draw {g : Nat → Option String} {s s' : ServerState} {c : Nat}
    {token : String} (h : Issued hashes g s) (hfresh : token ∉ s.drawn)
    (hguarded : s'.pool.Guarded (issuing hashes) done (Function.update g c (some token)))
    (hsessions : s'.pool.store = s.pool.store)
    (hinj : Function.Injective hashes.hashToken) (hdrawn : s'.drawn = token :: s.drawn) :
    Issued hashes (Function.update g c (some token)) s' ∧
      Evolves hashes g (Function.update g c (some token)) s s' := by
  have hold : ∀ c' t, Function.update g c (some token) c' = some t →
      (c' = c ∧ t = token) ∨ (c' ≠ c ∧ g c' = some t) := by
    intro c' t ht
    by_cases hc : c' = c
    · subst hc
      rw [Function.update_self, Option.some.injEq] at ht
      exact .inl ⟨rfl, ht.symm⟩
    · rw [Function.update_of_ne hc] at ht
      exact .inr ⟨hc, ht⟩
  refine ⟨⟨hguarded, ?_, ?_, ?_, ?_⟩, ?_, ?_, ?_⟩
  · intro row hrow
    rw [hsessions] at hrow
    obtain ⟨t, ht, hhash⟩ := h.drawn row hrow
    exact ⟨t, by simp [hdrawn, ht], hhash⟩
  · rw [hsessions]
    exact h.unique
  · rw [hsessions, hdrawn]
    intro c' t ht
    rcases hold c' t ht with ⟨_, rfl⟩ | ⟨_, hgt⟩
    · refine ⟨List.mem_cons_self, fun row hrow heq => ?_⟩
      obtain ⟨t', ht', hhash⟩ := h.drawn row hrow
      exact hfresh (hinj (heq.symm.trans hhash) ▸ ht')
    · exact ⟨List.mem_cons_of_mem _ (h.pending c' t hgt).1, (h.pending c' t hgt).2⟩
  · intro c₁ c₂ t h₁ h₂
    rcases hold c₁ t h₁ with ⟨rfl, rfl⟩ | ⟨_, hg₁⟩ <;> rcases hold c₂ t h₂ with ⟨rfl, ht⟩ | ⟨_, hg₂⟩
    · rfl
    · exact absurd (h.pending c₂ t hg₂).1 hfresh
    · exact absurd (ht ▸ (h.pending c₁ t hg₁).1) hfresh
    · exact h.apart c₁ c₂ t hg₁ hg₂
  · intro row hrow
    exact .inl ⟨row, hsessions ▸ hrow, rfl, rfl⟩
  · intro c' t ht
    rcases hold c' t ht with ⟨_, rfl⟩ | ⟨_, hgt⟩
    · exact .inr hfresh
    · exact .inl hgt
  · intro t ht
    rw [hdrawn]
    exact List.mem_cons_of_mem _ ht

/-- A statement of one connection. -/
private theorem advance_issued {g : Nat → Option String} {s : ServerState}
    (hinj : Function.Injective hashes.hashToken) (h : Issued hashes g s) (c : Nat) :
    ∃ g', Issued hashes g' { s with pool := s.pool.advance c } ∧
      Evolves hashes g g' s { s with pool := s.pool.advance c } := by
  rcases h.guarded.advance (c := c) (fun _ _ _ _ _ _ => trivial)
      (fun _ _ _ _ _ _ => trivial) with ⟨hstore, hguarded⟩ | ⟨t', hstep, hguarded⟩
  · exact ⟨g, h.keep hguarded (sessionsKept_of_eq (congrArg ServerDb.sessions hstore)) rfl⟩
  · rcases hstep with ⟨rfl, hkept⟩ | ⟨token, hg, rfl, hissued⟩
    · rw [Function.update_eq_self] at hguarded
      exact ⟨g, h.keep hguarded hkept rfl⟩
    · exact ⟨_, h.issue hg hguarded hissued hinj rfl⟩

/-- The time makes no difference. -/
private theorem Issued.atTime {g : Nat → Option String} {s : ServerState} (h : Issued hashes g s)
    (now : Int) : Issued hashes g (s.atTime now) ∧ Evolves hashes g g s (s.atTime now) :=
  have hguarded : (s.atTime now).pool.Guarded (issuing hashes) done g :=
    h.guarded.setStore fun _ _ => trivial
  h.keep hguarded (sessionsKept_of_eq rfl) rfl

/-- Nor does the pruning. -/
private theorem Issued.prune {g : Nat → Option String} {s : ServerState} (h : Issued hashes g s) :
    Issued hashes g s.advancePruning ∧ Evolves hashes g g s s.advancePruning := by
  unfold ServerState.advancePruning
  split
  · exact h.keep h.guarded (SessionsKept.refl _) rfl
  · refine h.keep ?_ (sessionsKept_of_eq rfl) rfl
    exact h.guarded.setStore fun _ _ => trivial

/-- A step at whose end the time is set. -/
private theorem Evolves.trans_keep {g g' : Nat → Option String} {s s' s'' : ServerState}
    (h : Evolves hashes g g' s s') (hkept : SessionsKept s'.pool.store s''.pool.store)
    (hdrawn : s''.drawn = s'.drawn) : Evolves hashes g g' s s'' := by
  refine ⟨fun row'' hrow'' => ?_, h.pending, fun token htoken => hdrawn ▸ h.drawn token htoken⟩
  obtain ⟨row', hrow', hid, hhash⟩ := hkept row'' hrow''
  rcases h.sessions row' hrow' with ⟨row, hrow, hid', hhash'⟩ | ⟨c, token, hg, hhash'⟩
  · exact .inl ⟨row, hrow, hid'.trans hid, hhash'.trans hhash⟩
  · exact .inr ⟨c, token, hg, hhash.symm.trans hhash'⟩

/-- **Step lemma.** A step that draws a fresh token keeps the tokens apart. -/
theorem serverStep_issued (qt : Qt) (other : OtherHandlers) {g : Nat → Option String}
    {s : ServerState} {op : ServerOp}
    (hinj : Function.Injective hashes.hashToken) (h : Issued hashes g s) (hfresh : FreshToken s op) :
    ∃ g', Issued hashes g' (serverStep qt hashes other s op) ∧
      Evolves hashes g g' s (serverStep qt hashes other s op) := by
  cases op with
  | connect c peerAddress =>
      have hguarded : (serverStep qt hashes other s (.connect c peerAddress)).pool.Guarded
          (issuing hashes) done g := h.guarded.setWorker
      exact ⟨g, h.keep hguarded (SessionsKept.refl _) rfl⟩
  | prune => exact ⟨g, h.keep h.guarded (SessionsKept.refl _) rfl⟩
  | pruneStatement => exact ⟨g, h.prune⟩
  | tick seconds => exact ⟨g, h.atTime _⟩
  | packet c packet random wait =>
      show ∃ g', Issued hashes g' (s.take qt hashes other c packet random wait) ∧
        Evolves hashes g g' s (s.take qt hashes other c packet random wait)
      unfold ServerState.take
      by_cases hbusy : (s.pool.workers c).running.isSome = true
      · rw [if_pos hbusy]
        exact ⟨g, h.keep h.guarded (SessionsKept.refl _) rfl⟩
      · rw [if_neg hbusy]
        refine ⟨_, h.draw hfresh (h.guarded.start trivial ?_) rfl hinj rfl⟩
        have hissuing := processAdmitted_issuing qt hashes other random packet.requestId
          (s.pool.workers c).here (s.admits qt hashes c packet wait).2
        exact Follows.map (hissuing.mono fun _ _ _ => trivial)
  | statement c =>
      obtain ⟨g', hg', hstep⟩ := advance_issued hinj h c
      exact ⟨g', (hg'.atTime s.pool.store.now).1, hstep.trans_keep (sessionsKept_of_eq rfl) rfl⟩

/-- The token hash of a deleted session: no session holds it, and no handler has
the token left to issue. -/
structure Revoked (hashes : Hashes) (tokenHash : String) (g : Nat → Option String)
    (s : ServerState) : Prop where
  gone : ∀ row ∈ s.pool.store.sessions.rows, row.tokenHash ≠ tokenHash
  pending : ∀ c token, g c = some token → hashes.hashToken token ≠ tokenHash
  drawn : ∃ token ∈ s.drawn, tokenHash = hashes.hashToken token

/-- A revoked token hash stays revoked. -/
private theorem Revoked.step {tokenHash : String} {g g' : Nat → Option String} {s s' : ServerState}
    (hinj : Function.Injective hashes.hashToken) (h : Revoked hashes tokenHash g s)
    (hstep : Evolves hashes g g' s s') : Revoked hashes tokenHash g' s' := by
  obtain ⟨t₀, ht₀, hhash₀⟩ := h.drawn
  refine ⟨?_, ?_, t₀, hstep.drawn t₀ ht₀, hhash₀⟩
  · intro row' hrow'
    rcases hstep.sessions row' hrow' with ⟨row, hrow, _, hhash⟩ | ⟨c, token, hg, hhash⟩
    · rw [← hhash]
      exact h.gone row hrow
    · rw [hhash]
      exact h.pending c token hg
  · intro c token hg'
    rcases hstep.pending c token hg' with hg | hfresh
    · exact h.pending c token hg
    · intro heq
      exact hfresh (hinj (heq.trans hhash₀) ▸ ht₀)

/-- A step that leaves no row of a session's id revokes the session's hash. -/
private theorem Evolves.revokes {g g' : Nat → Option String} {s s' : ServerState} {row : SessionRow}
    (hinj : Function.Injective hashes.hashToken) (h : Issued hashes g s)
    (hstep : Evolves hashes g g' s s') (hrow : row ∈ s.pool.store.sessions.rows)
    (hgone : s'.pool.store.sessions.get row.id = none) : Revoked hashes row.tokenHash g' s' := by
  obtain ⟨t₀, ht₀, hhash₀⟩ := h.drawn row hrow
  refine ⟨?_, ?_, t₀, hstep.drawn t₀ ht₀, hhash₀⟩
  · intro row' hrow' heq
    rcases hstep.sessions row' hrow' with ⟨row₁, hrow₁, hid, hhash⟩ | ⟨c, token, hg, hhash⟩
    · have hsame := h.unique row₁ hrow₁ row hrow (hhash.trans heq)
      exact Table.get_eq_none.mp hgone row' hrow' (hid.symm.trans hsame)
    · exact (h.pending c token hg).2 row hrow (heq.symm.trans hhash)
  · intro c token hg'
    rcases hstep.pending c token hg' with hg | hfresh
    · exact fun heq => (h.pending c token hg).2 row hrow heq.symm
    · exact fun heq => hfresh (hinj (heq.trans hhash₀) ▸ ht₀)

/-- Some step of the run from `s₀` deleted the session. -/
def DeletedAlong (qt : Qt) (hashes : Hashes) (other : OtherHandlers) (s₀ : ServerState)
    (ops : List ServerOp) (row : SessionRow) : Prop :=
  ∃ pre op post, ops = pre ++ op :: post ∧
    row ∈ ((serverMachine qt hashes other).run s₀ pre).pool.store.sessions.rows ∧
    ((serverMachine qt hashes other).run s₀ (pre ++ [op])).pool.store.sessions.get row.id = none

private theorem run_issued {s₀ : ServerState} {ops : List ServerOp} {g : Nat → Option String}
    (hinj : Function.Injective hashes.hashToken) (h₀ : Issued hashes g s₀)
    (hfresh : (serverMachine qt hashes other).Along FreshToken s₀ ops) :
    ∃ g', Issued hashes g' ((serverMachine qt hashes other).run s₀ ops) := by
  have hstep : ∀ s op, (∃ g, Issued hashes g s) → FreshToken s op →
      ∃ g, Issued hashes g ((serverMachine qt hashes other).step s op) := by
    rintro s op ⟨g, hg⟩ hop
    obtain ⟨g', hg', _⟩ := serverStep_issued qt other hinj hg hop
    exact ⟨g', hg'⟩
  exact (Machine.always_of_along hstep ⟨g, h₀⟩ hfresh).last

private theorem run_revoked {s₀ : ServerState} {ops : List ServerOp} {g : Nat → Option String}
    {tokenHash : String} (hinj : Function.Injective hashes.hashToken) (h₀ : Issued hashes g s₀)
    (hrevoked : Revoked hashes tokenHash g s₀)
    (hfresh : (serverMachine qt hashes other).Along FreshToken s₀ ops) :
    ∃ g', Revoked hashes tokenHash g' ((serverMachine qt hashes other).run s₀ ops) := by
  have hstep : ∀ s op, (∃ g, Issued hashes g s ∧ Revoked hashes tokenHash g s) → FreshToken s op →
      ∃ g, Issued hashes g ((serverMachine qt hashes other).step s op) ∧
        Revoked hashes tokenHash g ((serverMachine qt hashes other).step s op) := by
    rintro s op ⟨g, hg, hr⟩ hop
    obtain ⟨g', hg', hevolves⟩ := serverStep_issued qt other hinj hg hop
    exact ⟨g', hg', hr.step hinj hevolves⟩
  obtain ⟨g', _, hr⟩ := (Machine.always_of_along hstep ⟨g, h₀, hrevoked⟩ hfresh).last
  exact ⟨g', hr⟩

/-- **Run lemma.** The hash of a deleted session is revoked in each later state. -/
private theorem deletedAlong_revoked {s₀ : ServerState} {ops : List ServerOp} {row : SessionRow}
    (hinj : Function.Injective hashes.hashToken) (h₀ : s₀.Started hashes)
    (hfresh : (serverMachine qt hashes other).Along FreshToken s₀ ops)
    (hdeleted : DeletedAlong qt hashes other s₀ ops row) :
    ∃ g, Revoked hashes row.tokenHash g ((serverMachine qt hashes other).run s₀ ops) := by
  obtain ⟨pre, op, post, rfl, hrow, hgone⟩ := hdeleted
  obtain ⟨hpre, hop, hpost⟩ := Machine.along_append.mp hfresh
  obtain ⟨g, hg⟩ := run_issued hinj (Started.issued h₀) hpre
  obtain ⟨g', hg', hstep⟩ := serverStep_issued qt other hinj hg hop
  rw [Machine.run_append] at hgone
  have hrevoked := hstep.revokes hinj hg hrow hgone
  rw [Machine.run_append, Machine.run_cons]
  exact run_revoked hinj hg' hrevoked hpost

/-- **Session authorization.** Token hashes do not collide and tokens are drawn
fresh. In every state of every run, a packet reaches a handler other than those
of registering and logging in only with a session of its connection, and never
with the token of a session that was deleted earlier in the run. -/
theorem session_authorization (qt : Qt) (hashes : Hashes) (other : OtherHandlers)
    (hinj : Function.Injective hashes.hashToken) (s₀ : ServerState) (h₀ : s₀.Started hashes)
    (ops : List ServerOp) (hfresh : (serverMachine qt hashes other).Along FreshToken s₀ ops)
    (c : Nat) (packet : Packet) (wait : Nat) (handler : Handler) (request : Json)
    (hreach : (((serverMachine qt hashes other).run s₀ ops).admits qt hashes c packet wait).2
      = .handle handler request)
    (hneeds : handler.needsSession = true) :
    (∃ row, SessionOf hashes ((serverMachine qt hashes other).run s₀ ops) c handler request row) ∧
      ∀ row, DeletedAlong qt hashes other s₀ ops row →
        hashes.hashToken (tokenOf request) ≠ row.tokenHash := by
  obtain ⟨row, hrow⟩ := admits_sessionOf hreach hneeds
  refine ⟨⟨row, hrow⟩, fun deleted hdeleted => ?_⟩
  obtain ⟨g, hrevoked⟩ := deletedAlong_revoked hinj h₀ hfresh hdeleted
  rw [← hrow.token]
  exact hrevoked.gone row hrow.exists_

/-! ## A run with a logout -/

def loginRequest (nonce : String) : Json := .obj
  [ ("deviceId", .str "A"), ("nonce", .str nonce), ("password", .str "pw")
  , ("timestamp", .int 1), ("username", .str "alice") ]

def tokenRequest (nonce token : String) : Json := .obj
  [("nonce", .str nonce), ("timestamp", .int 1), ("token", .str token)]

/-- The parser on the payloads of this run. -/
def sessionQt : Qt where
  fromJson
    | "\x7b\"deviceId\":\"A\",\"nonce\":\"1\",\"password\":\"pw\",\"timestamp\":1,\"username\":\"alice\"\x7d" =>
        some (loginRequest "1")
    | "\x7b\"nonce\":\"2\",\"timestamp\":1,\"token\":\"t1\"\x7d" => some (tokenRequest "2" "t1")
    | "\x7b\"deviceId\":\"A\",\"nonce\":\"3\",\"password\":\"pw\",\"timestamp\":1,\"username\":\"alice\"\x7d" =>
        some (loginRequest "3")
    | "\x7b\"nonce\":\"4\",\"timestamp\":1,\"token\":\"t2\"\x7d" => some (tokenRequest "4" "t2")
    | _ => none
  toJson _ := ""
  fromBase64 _ := []
  toBase64 _ := ""
  isoDate _ := "1970-01-08T00:00:01Z"

def sessionHashes : Hashes where
  hashToken token := token
  hashPasswordWithSalt _ password := password
  verifyPassword password passwordHash := password == passwordHash

/-- Handlers that answer without a statement. -/
def idleHandlers : OtherHandlers := fun _ requestId conn _ => return conn.reply requestId .error .ok ""

/-- A server with one account. -/
def freshServer : ServerState where
  pool :=
    { store :=
        { now := 1
          users := .ofRows [{ id := 1, username := "alice", passwordHash := "pw" }] }
      workers := fun _ => { here := {} } }

/-- Alice logs in and out: the last statement deletes her session. -/
def loginLogout : List ServerOp :=
  [.packet 0 ⟨1, 1, "\x7b\"deviceId\":\"A\",\"nonce\":\"1\",\"password\":\"pw\",\"timestamp\":1,\"username\":\"alice\"\x7d"⟩
      ⟨"t1", ""⟩]
    ++ List.replicate 8 (.statement 0)
    ++ [.packet 0 ⟨12, 2, "\x7b\"nonce\":\"2\",\"timestamp\":1,\"token\":\"t1\"\x7d"⟩ ⟨"r", ""⟩]
    ++ List.replicate 2 (.statement 0)

/-- Alice logs in again. -/
def loginAgain : List ServerOp :=
  [.statement 0,
   .packet 0 ⟨1, 3, "\x7b\"deviceId\":\"A\",\"nonce\":\"3\",\"password\":\"pw\",\"timestamp\":1,\"username\":\"alice\"\x7d"⟩ ⟨"t2", ""⟩]
    ++ List.replicate 8 (.statement 0)

/-- After the second login a request with the new token is admitted with its
session, and the token of the first session is not the one it carries. -/
theorem session_authorization_loginAgain :
    ∃ request row,
      DeletedAlong sessionQt sessionHashes idleHandlers freshServer (loginLogout ++ loginAgain) row ∧
      (∃ live, SessionOf sessionHashes
        ((serverMachine sessionQt sessionHashes idleHandlers).run freshServer
          (loginLogout ++ loginAgain)) 0 .getContacts request live) ∧
      sessionHashes.hashToken (tokenOf request) ≠ row.tokenHash := by
  have hreach : ((((serverMachine sessionQt sessionHashes idleHandlers).run freshServer
      (loginLogout ++ loginAgain)).admits sessionQt sessionHashes 0
        ⟨24, 4, "\x7b\"nonce\":\"4\",\"timestamp\":1,\"token\":\"t2\"\x7d"⟩ 0).2.reached 0).map
          (·.handler) = [.getContacts] := by
    decide +kernel
  cases hadmits : (((serverMachine sessionQt sessionHashes idleHandlers).run freshServer
      (loginLogout ++ loginAgain)).admits sessionQt sessionHashes 0
        ⟨24, 4, "\x7b\"nonce\":\"4\",\"timestamp\":1,\"token\":\"t2\"\x7d"⟩ 0).2 with
  | handle handler request =>
      rw [hadmits] at hreach
      have hhandler : handler = .getContacts := by simpa [Admission.reached] using hreach
      subst hhandler
      have hdeleted : ∃ row ∈ ((serverMachine sessionQt sessionHashes idleHandlers).run freshServer
          loginLogout.dropLast).pool.store.sessions.rows,
          ((serverMachine sessionQt sessionHashes idleHandlers).run freshServer
            (loginLogout.dropLast ++ [.statement 0])).pool.store.sessions.get row.id = none := by
        decide +kernel
      obtain ⟨row, hrow, hgone⟩ := hdeleted
      have halong : DeletedAlong sessionQt sessionHashes idleHandlers freshServer
          (loginLogout ++ loginAgain) row :=
        ⟨loginLogout.dropLast, .statement 0, loginAgain, rfl, hrow, hgone⟩
      have hauth := session_authorization sessionQt sessionHashes idleHandlers (fun _ _ h => h)
        freshServer ⟨fun _ => rfl, rfl, rfl, by simp [freshServer, Table.empty],
          by simp [freshServer, Table.empty]⟩
        (loginLogout ++ loginAgain) (by decide +kernel) 0 _ 0 .getContacts request hadmits rfl
      exact ⟨request, row, halong, hauth.1, hauth.2 row halong⟩
  | pong =>
      rw [hadmits] at hreach
      cases hreach
  | reject code message =>
      rw [hadmits] at hreach
      cases hreach
  | unknown type =>
      rw [hadmits] at hreach
      cases hreach

end XYChat.Server
