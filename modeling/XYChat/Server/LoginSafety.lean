import XYChat.Server.Authorization
import XYChat.Server.History

/-!
# Whom a session belongs to

A session row, and the user of a connection, go back to a `Login` request that named
the user and brought a password the check accepted against the stored hash, whatever
other requests are handled in between. A renewal only carries over what such a login
gave the connection.
-/

namespace XYChat.Server

open XYChat.Lib
open XYChat.Lib.Prog

/-! ## What a login shows -/

/-- The name and the password of a request, as `processLoginRequest` reads them. -/
def loginName (request : Json) : String := trimmed ((request.value "username").toStr "")

def loginPassword (request : Json) : String := (request.value "password").toStr ""

/-- The request names the user of the row, with a password accepted for it. -/
structure Identifies (hashes : Hashes) (request : Json) (user : UserRow) : Prop where
  name : user.username = loginName request
  password : hashes.verifyPassword (loginPassword request) user.passwordHash = true

/-- A request has reached the login handler that names the user of this id, with the
right password. -/
def LoggedIn (hashes : Hashes) (s : ServerState) (userId : Int) : Prop :=
  ∃ login ∈ s.reached, login.handler = .login ∧
    ∃ user ∈ s.pool.store.users.rows, user.id = userId ∧ Identifies hashes login.request user

/-! ## What a connection knows -/

/-- What a handler started from: the user of its connection, the request if it is a
login, and the row that was found for it. -/
structure Credential where
  before : Int := 0
  request : Option Json := none
  found : Option UserRow := none

/-- The credential stands for the user of this id. -/
def Credential.Proves (hashes : Hashes) (t : Credential) (userId : Int) : Prop :=
  ∃ request user, t.request = some request ∧ t.found = some user ∧ user.id = userId ∧
    Identifies hashes request user

/-- The sessions of `db'` are some of `db`, or of the user whose credential it is. -/
def SessionsOf (hashes : Hashes) (t : Credential) (db db' : ServerDb) : Prop :=
  ∀ session ∈ db'.sessions.rows,
    (∃ old ∈ db.sessions.rows, old.id = session.id ∧ old.userId = session.userId) ∨
      (0 < session.userId ∧ (session.userId = t.before ∨ t.Proves hashes session.userId))

/-- The row that was found is there, and sessions are created for its user, or for the
user of the connection. -/
def authenticating (hashes : Hashes) : Protocol ServerDb Credential where
  holds t db := ∀ user, t.found = some user → user ∈ db.users.rows
  step t db db' t' :=
    t'.before = t.before ∧ t'.request = t.request ∧ db.users.rows <+: db'.users.rows ∧
      (∀ user, t'.found = some user → user ∈ db'.users.rows) ∧ SessionsOf hashes t db db'

/-- The connection is left to nobody, to its user, or to whom the credential stands
for. -/
def LeftTo (hashes : Hashes) (t : Credential) (conn : Connection) : Prop :=
  conn.authenticatedUserId = t.before ∨ conn.authenticatedUserId ≤ 0 ∨
    t.Proves hashes conn.authenticatedUserId

/-! ## Statements -/

section

variable {hashes : Hashes} {t : Credential} {db db' : ServerDb} {α : Type}
  {Q : Credential → α → Prop}

/-- What creates no session and takes away no user. -/
structure ServerDb.Fewer (db db' : ServerDb) : Prop where
  users : db.users.rows <+: db'.users.rows
  sessions : ∀ session ∈ db'.sessions.rows,
    ∃ old ∈ db.sessions.rows, old.id = session.id ∧ old.userId = session.userId

theorem ServerDb.Fewer.of_eq (husers : db'.users = db.users) (h : db'.sessions = db.sessions) :
    db.Fewer db' :=
  ⟨by rw [husers], fun session hsession => ⟨session, h ▸ hsession, rfl, rfl⟩⟩

theorem ServerDb.Fewer.refl (db : ServerDb) : db.Fewer db := .of_eq rfl rfl

theorem ServerDb.Fewer.updateSessionLastActive (sessionId : Int) (db : ServerDb) :
    db.Fewer (db.updateSessionLastActive sessionId) := by
  refine ⟨List.prefix_refl _, fun session hsession => ?_⟩
  obtain ⟨old, hold, rfl⟩ := List.mem_map.mp hsession
  refine ⟨old, hold, ?_⟩
  split <;> exact ⟨rfl, rfl⟩

theorem ServerDb.Fewer.deleteSession (sessionId : Int) (db : ServerDb) :
    db.Fewer (db.deleteSession sessionId) :=
  ⟨List.prefix_refl _, fun session hsession =>
    ⟨session, (Table.mem_delete.mp hsession).1, rfl, rfl⟩⟩

theorem ServerDb.Fewer.registerUser (username passwordHash : String) (db : ServerDb) :
    db.Fewer (db.registerUser username passwordHash).1 := by
  unfold ServerDb.registerUser Db.registerUser
  split
  · exact .refl db
  · exact ⟨List.prefix_append _ _, fun session hsession => ⟨session, hsession, rfl, rfl⟩⟩

theorem ServerDb.Fewer.registerDevice (userId : Int) (deviceId deviceName platform : String)
    (db : ServerDb) : db.Fewer (db.registerDevice userId deviceId deviceName platform) := by
  obtain ⟨devices, hdb⟩ := db.toDb.registerDevice_eq userId deviceId deviceName platform
  unfold ServerDb.registerDevice
  rw [hdb]
  exact .of_eq rfl rfl

theorem ServerDb.Fewer.recordLoginAttempt (userId : Int) (ipAddress : String) (success : Bool)
    (failureReason : String) (db : ServerDb) :
    db.Fewer (db.recordLoginAttempt userId ipAddress success failureReason) :=
  .of_eq rfl rfl

theorem ServerDb.Fewer.step (h : db.Fewer db') (hholds : (authenticating hashes).holds t db) :
    (authenticating hashes).step t db db' t :=
  ⟨rfl, rfl, h.users, fun user hfound => h.users.subset (hholds user hfound),
    fun session hsession => .inl (h.sessions session hsession)⟩

theorem follows_fewer {f : ServerDb → ServerDb × α} (hf : ∀ db : ServerDb, db.Fewer (f db).1)
    (h : ∀ a, Q t a) : Follows (authenticating hashes) Q t (call f) :=
  follows_call fun db hholds => ⟨t, (hf db).step hholds, h _⟩

theorem follows_fetch {f : ServerDb → α} (h : ∀ a, Q t a) :
    Follows (authenticating hashes) Q t (query f) :=
  follows_query fun db hholds => ⟨t, (ServerDb.Fewer.refl db).step hholds, h _⟩

theorem follows_change {Q : Credential → Unit → Prop} {f : ServerDb → ServerDb}
    (hf : ∀ db : ServerDb, db.Fewer (f db)) (h : Q t ()) :
    Follows (authenticating hashes) Q t (update f) :=
  follows_update fun db hholds => ⟨t, (hf db).step hholds, h⟩

/-- The row of a name is found, and from then on the credential holds it. -/
theorem follows_find {Q : Credential → Option UserRow → Prop} {name : String}
    (h : ∀ found, (∀ user, found = some user → user.username = name) → Q { t with found } found) :
    Follows (authenticating hashes) Q t (query (·.getUserByUsername name)) := by
  refine follows_query fun db _ => ?_
  refine ⟨{ t with found := db.getUserByUsername name },
    ⟨rfl, rfl, List.prefix_refl _, fun user hfind => List.mem_of_find?_eq_some hfind,
      fun session hsession => .inl ⟨session, hsession, rfl, rfl⟩⟩, h _ fun user hfind => ?_⟩
  exact beq_iff_eq.mp (List.find?_some (p := fun u : UserRow => u.username == name) hfind)

/-- A session may be created for the user of the connection, and for whom the credential
stands for. -/
theorem follows_session {Q : Credential → Option Int → Prop} {userId : Int}
    {deviceId tokenHash loginIp : String} (huser : userId = t.before ∨ t.Proves hashes userId)
    (h : ∀ a, Q t a) :
    Follows (authenticating hashes) Q t
      (call (ServerDb.createSession userId deviceId tokenHash loginIp)) := by
  refine follows_call fun db hholds => ⟨t, ⟨rfl, rfl, ?_, ?_, ?_⟩, h _⟩
  · unfold ServerDb.createSession
    split <;> exact List.prefix_refl _
  · unfold ServerDb.createSession
    split <;> exact hholds
  · intro session hsession
    unfold ServerDb.createSession at hsession
    split at hsession
    · rename_i hexists
      rcases Table.mem_insert.mp hsession with hold | rfl
      · exact .inl ⟨session, hold, rfl, rfl⟩
      · -- a session needs its user, so the id is positive
        simp only [Bool.and_eq_true] at hexists
        obtain ⟨user, hget⟩ := Option.isSome_iff_exists.mp hexists.1
        obtain ⟨hmem, hkey⟩ := Table.get_eq_some.mp hget
        have hpos := (db.users.bounded user hmem).1
        rw [hkey] at hpos
        exact .inr ⟨hpos, huser⟩
    · exact .inl ⟨session, hsession, rfl, rfl⟩

theorem follows_limit {Q : Credential → Bool → Prop} {ipAddress : String} {userId : Int}
    (h : ∀ b, Q t b) : Follows (authenticating hashes) Q t (checkRateLimit ipAddress userId) := by
  unfold checkRateLimit
  refine (follows_fetch fun _ => ?_).bind
  refine follows_ite (fun _ => follows_pure.mpr (h _)) fun _ => ?_
  refine follows_ite (fun _ => ?_) fun _ => follows_pure.mpr (h _)
  exact (follows_fetch fun _ => follows_pure.mpr (h _)).bind

end

/-! ## Handlers -/

section

variable {qt : Qt} {hashes : Hashes} {random : Random} {requestId : Nat} {conn : Connection}
  {request : Json} {t : Credential}

/-- The result leaves the connection as `LeftTo` says. -/
def leaves (hashes : Hashes) (t : Credential) (o : Outcome) : Prop := LeftTo hashes t o.conn

/-- The handler has not changed the user of the connection. -/
private theorem follows_unchanged {o : Outcome} (ht : conn.authenticatedUserId = t.before)
    (ho : o.conn.authenticatedUserId = conn.authenticatedUserId) :
    Follows (authenticating hashes) (leaves hashes) t (pure o) :=
  follows_pure.mpr (.inl (ho.trans ht))

theorem processLoginRequest_authenticates (token : String)
    (ht : conn.authenticatedUserId = t.before) (hrequest : t.request = some request) :
    (processLoginRequest qt hashes token requestId conn request).Follows (authenticating hashes)
      (leaves hashes) t := by
  unfold processLoginRequest
  dsimp only
  refine follows_ite (fun _ => follows_unchanged ht rfl) fun _ => ?_
  refine (follows_find fun found hname => ?_).bind
  cases found with
  | none =>
      refine (follows_change (ServerDb.Fewer.recordLoginAttempt _ _ _ _) ?_).bind
      exact follows_unchanged ht rfl
  | some user =>
      refine (follows_limit fun limited => ?_).bind
      refine follows_ite (fun _ => follows_unchanged ht rfl) fun _ => ?_
      refine follows_ite (fun _ => ?_) fun hverified => ?_
      · refine (follows_change (ServerDb.Fewer.recordLoginAttempt _ _ _ _) ?_).bind
        exact follows_unchanged ht rfl
      have hproves : Credential.Proves hashes { t with found := some user } user.id :=
        ⟨request, user, hrequest, rfl, rfl, hname user rfl,
          by simpa [loginPassword] using hverified⟩
      refine (follows_change (ServerDb.Fewer.registerDevice _ _ _ _) ?_).bind
      refine (follows_session (.inr hproves) fun created => ?_).bind
      cases created with
      | none => exact follows_unchanged ht rfl
      | some sessionId =>
          refine (follows_change (ServerDb.Fewer.recordLoginAttempt _ _ _ _) ?_).bind
          refine (follows_fetch fun _ => ?_).bind
          exact follows_pure.mpr (.inr (.inr hproves))

theorem processRegisterRequest_authenticates (salt : String)
    (ht : conn.authenticatedUserId = t.before) :
    (processRegisterRequest hashes salt requestId conn request).Follows (authenticating hashes)
      (leaves hashes) t := by
  unfold processRegisterRequest
  dsimp only
  refine follows_ite (fun _ => follows_unchanged ht rfl) fun _ => ?_
  refine follows_ite (fun _ => follows_unchanged ht rfl) fun _ => ?_
  refine follows_ite (fun _ => follows_unchanged ht rfl) fun _ => ?_
  refine (follows_fetch fun taken => ?_).bind
  refine follows_ite (fun _ => follows_unchanged ht rfl) fun _ => ?_
  refine (follows_fewer (ServerDb.Fewer.registerUser _ _) fun registered => ?_).bind
  cases registered with
  | none => exact follows_unchanged ht rfl
  | some userId => exact follows_unchanged ht rfl

theorem processLogoutRequest_authenticates :
    (processLogoutRequest requestId conn).Follows (authenticating hashes) (leaves hashes) t := by
  unfold processLogoutRequest
  refine (follows_change (ServerDb.Fewer.deleteSession _) ?_).bind
  exact follows_pure.mpr (.inr (.inl (Int.le_refl 0)))

theorem processTokenRenewRequest_authenticates (newToken : String)
    (ht : conn.authenticatedUserId = t.before) :
    (processTokenRenewRequest qt hashes newToken requestId conn request).Follows
      (authenticating hashes) (leaves hashes) t := by
  unfold processTokenRenewRequest
  dsimp only
  refine follows_ite (fun _ => follows_unchanged ht rfl) fun _ => ?_
  refine (follows_fetch fun found => ?_).bind
  cases found with
  | none => exact follows_unchanged ht rfl
  | some session =>
      refine follows_ite (fun _ => follows_unchanged ht rfl) fun _ => ?_
      refine (follows_change (ServerDb.Fewer.deleteSession _) ?_).bind
      refine (follows_session (.inl ht) fun created => ?_).bind
      cases created with
      | none => exact follows_unchanged ht rfl
      | some sessionId =>
          refine (follows_fetch fun _ => ?_).bind
          exact follows_unchanged ht rfl

theorem processTerminateSessionRequest_authenticates (ht : conn.authenticatedUserId = t.before) :
    (processTerminateSessionRequest requestId conn request).Follows (authenticating hashes)
      (leaves hashes) t := by
  unfold processTerminateSessionRequest
  dsimp only
  refine follows_ite (fun _ => follows_unchanged ht rfl) fun _ => ?_
  refine follows_ite (fun _ => follows_unchanged ht rfl) fun _ => ?_
  refine follows_ite (fun _ => follows_unchanged ht rfl) fun _ => ?_
  refine (follows_fetch fun sessions => ?_).bind
  cases sessions.find? _ with
  | none => exact follows_unchanged ht rfl
  | some target =>
      refine (follows_change (ServerDb.Fewer.deleteSession _) ?_).bind
      exact follows_unchanged ht rfl

/-- A handler over the tables of `Db` has no part in this. -/
theorem business_authenticates {p : Prog Db Outcome} (h : p.Within Db.Writes)
    (ht : conn.authenticatedUserId = t.before) :
    (business conn p).Follows (authenticating hashes) (leaves hashes) t := by
  have hfewer : (p.zoom (·.toDb) fun db (server : ServerDb) => { server with toDb := db }).Within
      ServerDb.Fewer := by
    refine h.zoom fun db s hwrites => .of_eq ?_ rfl
    exact hwrites.kept.2
  refine (hfewer.follows (fun s s' hholds h => h.step hholds) fun o => ?_).bind
  exact follows_unchanged ht rfl

theorem handle_authenticates {handler : Handler} (ht : conn.authenticatedUserId = t.before)
    (hlogin : handler = .login → t.request = some request) :
    (handle qt hashes (otherHandlers qt) random requestId conn request handler).Follows
      (authenticating hashes) (leaves hashes) t := by
  cases hp : handler.program qt requestId conn request with
  | some p =>
      rw [handle_eq_business hp]
      exact business_authenticates (program_writes hp) ht
  | none =>
      cases handler with
      | register => exact processRegisterRequest_authenticates _ ht
      | login => exact processLoginRequest_authenticates _ ht (hlogin rfl)
      | logout => exact processLogoutRequest_authenticates
      | tokenRenew => exact processTokenRenewRequest_authenticates _ ht
      | terminateSession => exact processTerminateSessionRequest_authenticates ht
      | _ => cases hp

/-- The request of a login that is admitted. -/
def Admission.login : Admission → Option Json
  | .handle .login request => some request
  | _ => none

/-- A login that is admitted is recorded. -/
theorem Admission.login_reached {admission : Admission} (c : Nat)
    (h : admission.login = some request) :
    ∃ login ∈ admission.reached c, login.handler = .login ∧ login.request = request := by
  cases admission with
  | pong => cases h
  | reject code message => cases h
  | unknown type => cases h
  | handle handler request' =>
      cases handler with
      | login =>
          obtain rfl := Option.some.inj h
          exact ⟨⟨c, .login, request'⟩, List.mem_singleton_self _, rfl, rfl⟩
      | _ => cases h

theorem processAdmitted_authenticates {admission : Admission}
    (ht : conn.authenticatedUserId = t.before) (hlogin : t.request = admission.login) :
    (processAdmitted qt hashes (otherHandlers qt) random requestId conn admission).Follows
      (authenticating hashes) (leaves hashes) t := by
  cases admission with
  | pong => exact follows_unchanged ht rfl
  | reject code message => exact follows_unchanged ht rfl
  | unknown type =>
      refine (follows_change (ServerDb.Fewer.updateSessionLastActive _) ?_).bind
      exact follows_unchanged ht rfl
  | handle handler request =>
      have hhandle : (handle qt hashes (otherHandlers qt) random requestId conn request
          handler).Follows (authenticating hashes) (leaves hashes) t :=
        handle_authenticates ht fun h => by
          rw [hlogin, h]
          rfl
      refine follows_ite (fun _ => ?_) fun _ => hhandle
      refine (follows_change (ServerDb.Fewer.updateSessionLastActive _) ?_).bind
      exact hhandle

end

/-! ## Runs -/

section

variable {qt : Qt} {hashes : Hashes} {s₀ s s' : ServerState} {g : Nat → Credential}

/-- `g` says what each connection's handler started from. Each session that was not
there at the start, the user of each connection, and the user each handler started
from, has logged in. -/
structure Authentic (hashes : Hashes) (s₀ : ServerState) (g : Nat → Credential)
    (s : ServerState) : Prop where
  guarded : s.pool.Guarded (authenticating hashes) (LeftTo hashes) g
  sessions : ∀ session ∈ s.pool.store.sessions.rows,
    (∃ old ∈ s₀.pool.store.sessions.rows, old.id = session.id ∧ old.userId = session.userId) ∨
      LoggedIn hashes s session.userId
  connections : ∀ c, 0 < (s.pool.workers c).here.authenticatedUserId →
    LoggedIn hashes s (s.pool.workers c).here.authenticatedUserId
  before : ∀ c, 0 < (g c).before → LoggedIn hashes s (g c).before
  reached : ∀ c request, (g c).request = some request →
    ∃ login ∈ s.reached, login.handler = .login ∧ login.request = request

/-- Who has logged in has done so ever after. -/
theorem LoggedIn.mono {userId : Int} (h : LoggedIn hashes s userId)
    (hreached : ∀ login ∈ s.reached, login ∈ s'.reached)
    (husers : ∀ user ∈ s.pool.store.users.rows, user ∈ s'.pool.store.users.rows) :
    LoggedIn hashes s' userId := by
  obtain ⟨login, hlogin, hhandler, user, huser, hid, hidentifies⟩ := h
  exact ⟨login, hreached login hlogin, hhandler, user, husers user huser, hid, hidentifies⟩

theorem Started.authentic (h : s₀.Started hashes) : Authentic hashes s₀ (fun _ => {}) s₀ where
  guarded := by
    intro c prog hrunning
    rw [h.idle c] at hrunning
    cases hrunning
  sessions := fun session hsession => .inl ⟨session, hsession, rfl, rfl⟩
  connections := by
    intro c hpos
    rw [h.idle c] at hpos
    exact absurd hpos (Int.lt_irrefl 0)
  before := fun c hpos => absurd hpos (Int.lt_irrefl 0)
  reached := by simp

namespace Authentic

/-- A credential of a handler that is running stands for a login. -/
theorem loggedIn (h : Authentic hashes s₀ g s) {c : Nat} {userId : Int}
    (hfound : ∀ user, (g c).found = some user → user ∈ s.pool.store.users.rows)
    (hproves : (g c).Proves hashes userId) : LoggedIn hashes s userId := by
  obtain ⟨request, user, hrequest, huser, hid, hidentifies⟩ := hproves
  obtain ⟨login, hlogin, hhandler, rfl⟩ := h.reached c request hrequest
  exact ⟨login, hlogin, hhandler, user, hfound user huser, hid, hidentifies⟩

/-- A step that leaves the connections and the credentials alone, but for one that may
find a row. -/
theorem keep {c : Nat} {t' : Credential} (h : Authentic hashes s₀ g s)
    (hguarded : s'.pool.Guarded (authenticating hashes) (LeftTo hashes) (Function.update g c t'))
    (hbefore : t'.before = (g c).before) (hrequest : t'.request = (g c).request)
    (hfound : ∀ user, (g c).found = some user → user ∈ s.pool.store.users.rows)
    (husers : ∀ user ∈ s.pool.store.users.rows, user ∈ s'.pool.store.users.rows)
    (hsessions : SessionsOf hashes (g c) s.pool.store s'.pool.store)
    (hhere : ∀ c, (s'.pool.workers c).here = (s.pool.workers c).here)
    (hreached : s'.reached = s.reached) : Authentic hashes s₀ (Function.update g c t') s' := by
  have hmono : ∀ {userId}, LoggedIn hashes s userId → LoggedIn hashes s' userId := fun hlogged =>
    hlogged.mono (fun _ hlogin => hreached ▸ hlogin) husers
  refine ⟨hguarded, fun session hsession => ?_, fun c' hpos => ?_, fun c' hpos => ?_,
    fun c' request hrequest' => ?_⟩
  · rcases hsessions session hsession with ⟨old, hold, hid, huser⟩ | ⟨hpos, hallowed⟩
    · rw [← hid, ← huser]
      exact (h.sessions old hold).imp_right hmono
    · rcases hallowed with hsame | hproves
      · rw [hsame] at hpos ⊢
        exact .inr (hmono (h.before c hpos))
      · exact .inr (hmono (h.loggedIn hfound hproves))
  · rw [hhere] at hpos ⊢
    exact hmono (h.connections c' hpos)
  · by_cases hc : c' = c
    · subst hc
      rw [Function.update_self, hbefore] at hpos ⊢
      exact hmono (h.before c' hpos)
    · rw [Function.update_of_ne hc] at hpos ⊢
      exact hmono (h.before c' hpos)
  · rw [hreached]
    by_cases hc : c' = c
    · subst hc
      rw [Function.update_self, hrequest] at hrequest'
      exact h.reached c' request hrequest'
    · rw [Function.update_of_ne hc] at hrequest'
      exact h.reached c' request hrequest'

/-- A connection is replaced by one of nobody, or of who has logged in. -/
theorem replace (h : Authentic hashes s₀ g s) {c : Nat} {conn : Connection}
    (hconn : 0 < conn.authenticatedUserId → LoggedIn hashes s conn.authenticatedUserId) :
    Authentic hashes s₀ g { s with pool := s.pool.setWorker c { here := conn } } := by
  refine ⟨h.guarded.setWorker, h.sessions, fun c' hpos => ?_, h.before, h.reached⟩
  by_cases hc : c' = c
  · subst hc
    simp only [Pool.workers_setWorker, Function.update_self] at hpos ⊢
    exact hconn hpos
  · simp only [Pool.workers_setWorker, Function.update_of_ne hc] at hpos ⊢
    exact h.connections c' hpos

/-- A handler starts from the user of its connection. -/
theorem start (h : Authentic hashes s₀ g s) {c : Nat} {prog : Prog ServerDb Connection}
    {t : Credential} {nonces : NonceCache} {drawn : List String} {new : List Reached}
    (hprog : prog.Follows (authenticating hashes) (LeftTo hashes) t)
    (hbefore : t.before = (s.pool.workers c).here.authenticatedUserId) (hfound : t.found = none)
    (hrequest : ∀ request, t.request = some request →
      ∃ login ∈ new, login.handler = .login ∧ login.request = request) :
    Authentic hashes s₀ (Function.update g c t)
      { s with pool := s.pool.start c prog, nonces, drawn, reached := s.reached ++ new } := by
  have hmono : ∀ {userId}, LoggedIn hashes s userId → LoggedIn hashes
      { s with pool := s.pool.start c prog, nonces, drawn, reached := s.reached ++ new } userId :=
    fun hlogged => hlogged.mono (fun _ => List.mem_append_left _) fun _ huser => huser
  have hhere : ∀ c', ((s.pool.start c prog).workers c').here = (s.pool.workers c').here := by
    intro c'
    by_cases hc : c' = c
    · subst hc
      simp [Pool.start]
    · simp [Pool.start, Function.update_of_ne hc]
  refine ⟨h.guarded.start (fun user h => ?_) hprog, fun session hsession => ?_, fun c' hpos => ?_,
    fun c' hpos => ?_, fun c' request hrequest' => ?_⟩
  · rw [hfound] at h
    cases h
  · exact (h.sessions session hsession).imp_right hmono
  · dsimp only at hpos ⊢
    rw [hhere] at hpos ⊢
    exact hmono (h.connections c' hpos)
  · by_cases hc : c' = c
    · subst hc
      rw [Function.update_self, hbefore] at hpos ⊢
      exact hmono (h.connections c' hpos)
    · rw [Function.update_of_ne hc] at hpos ⊢
      exact hmono (h.before c' hpos)
  · by_cases hc : c' = c
    · subst hc
      rw [Function.update_self] at hrequest'
      obtain ⟨login, hlogin, hrest⟩ := hrequest request hrequest'
      exact ⟨login, List.mem_append_right _ hlogin, hrest⟩
    · rw [Function.update_of_ne hc] at hrequest'
      obtain ⟨login, hlogin, hrest⟩ := h.reached c' request hrequest'
      exact ⟨login, List.mem_append_left _ hlogin, hrest⟩

/-- The clock makes no difference. -/
theorem atTime (h : Authentic hashes s₀ g s) (now : Int) :
    Authentic hashes s₀ g (s.atTime now) :=
  ⟨h.guarded.setStore fun _ hholds => hholds, h.sessions, h.connections, h.before, h.reached⟩

/-- Nor does the pruning, which leaves the users alone. -/
theorem prune (h : Authentic hashes s₀ g s) : Authentic hashes s₀ g s.advancePruning := by
  unfold ServerState.advancePruning
  split
  · exact h
  rename_i pruning _
  have husers := (pruning.advance_prunes s.pool.store.toDb).users
  have hmono : ∀ {s' : ServerState} {userId : Int}, s'.reached = s.reached →
      s'.pool.store.users = (pruning.advance s.pool.store.toDb).1.users →
      LoggedIn hashes s userId → LoggedIn hashes s' userId := by
    intro s' userId hreached hstore hlogged
    refine hlogged.mono (fun _ hlogin => hreached ▸ hlogin) fun user huser => ?_
    rw [hstore, husers]
    exact huser
  refine ⟨h.guarded.setStore fun t hholds user hfound => ?_,
    fun session hsession => (h.sessions session hsession).imp_right (hmono rfl rfl),
    fun c hpos => hmono rfl rfl (h.connections c hpos),
    fun c hpos => hmono rfl rfl (h.before c hpos), h.reached⟩
  show user ∈ (pruning.advance s.pool.store.toDb).1.users.rows
  rw [husers]
  exact hholds user hfound

/-- **A statement.** It is executed by a handler that knows its credential. -/
theorem advance (h : Authentic hashes s₀ g s) (c : Nat) :
    ∃ g', Authentic hashes s₀ g' { s with pool := s.pool.advance c } := by
  cases hrunning : (s.pool.workers c).running with
  | none =>
      have hsame : s.pool.advance c = s.pool := by simp [Pool.advance, hrunning]
      rw [hsame]
      exact ⟨g, h⟩
  | some prog =>
      obtain ⟨hholds, hfollows⟩ := h.guarded c prog hrunning
      cases prog with
      | ret conn =>
          have hdone : s.pool.advance c = s.pool.setWorker c { here := conn } := by
            simp [Pool.advance, hrunning]
          rw [hdone]
          refine ⟨g, h.replace fun hpos => ?_⟩
          rcases follows_pure.mp hfollows with hsame | hnobody | hproves
          · rw [hsame] at hpos ⊢
            exact h.before c hpos
          · omega
          · exact h.loggedIn hholds hproves
      | stmt upd next =>
          obtain ⟨t', hstep, hnext⟩ := follows_stmt.mp hfollows _ hholds
          obtain ⟨hbefore, hrequest, husers, hfound, hsessions⟩ := hstep
          have hadvance : s.pool.advance c =
              { s.pool.setWorker c
                  { s.pool.workers c with running := some (next s.pool.store) } with
                store := upd s.pool.store } := by
            simp [Pool.advance, hrunning]
          refine ⟨Function.update g c t', h.keep ?_ hbefore hrequest hholds
            (fun user huser => ?_) ?_ (fun c' => ?_) rfl⟩
          · rw [hadvance]
            refine h.guarded.step (fun c' _ hheld user hfound' => ?_) hfound hnext
            exact husers.subset (hheld user hfound')
          · rw [hadvance]
            exact husers.subset huser
          · rw [hadvance]
            exact hsessions
          · rw [hadvance]
            by_cases hc : c' = c
            · subst hc
              simp
            · simp [Function.update_of_ne hc]

/-- **One step.** -/
theorem step (h : Authentic hashes s₀ g s) (op : ServerOp) :
    ∃ g', Authentic hashes s₀ g' ((chatServer qt hashes).step s op) := by
  cases op with
  | connect c peerAddress => exact ⟨g, h.replace fun hpos => absurd hpos (Int.lt_irrefl 0)⟩
  | packet c packet random wait =>
      show ∃ g', Authentic hashes s₀ g' (s.take qt hashes (otherHandlers qt) c packet random wait)
      unfold ServerState.take
      split
      · exact ⟨g, h⟩
      · have hfollows : (processAdmitted qt hashes (otherHandlers qt) random packet.requestId
            (s.pool.workers c).here (s.admits qt hashes c packet wait).2).Follows
              (authenticating hashes) (leaves hashes)
            { before := (s.pool.workers c).here.authenticatedUserId
              request := (s.admits qt hashes c packet wait).2.login } :=
          processAdmitted_authenticates rfl rfl
        exact ⟨_, h.start (Follows.map hfollows) rfl rfl fun request hlogin =>
          Admission.login_reached c hlogin⟩
  | statement c =>
      obtain ⟨g', h'⟩ := h.advance c
      exact ⟨g', h'.atTime s.pool.store.now⟩
  | prune => exact ⟨g, h.guarded, h.sessions, h.connections, h.before, h.reached⟩
  | pruneStatement => exact ⟨g, h.prune⟩
  | tick seconds => exact ⟨g, h.atTime _⟩

end Authentic

/-- In every state of a run some credentials stand for what has happened. -/
theorem run_authentic (qt : Qt) (h : s₀.Started hashes) (ops : List ServerOp) :
    ∃ g, Authentic hashes s₀ g ((chatServer qt hashes).run s₀ ops) := by
  have hstep : ∀ s op, (∃ g, Authentic hashes s₀ g s) →
      ∃ g, Authentic hashes s₀ g ((chatServer qt hashes).step s op) := by
    rintro s op ⟨g, h⟩
    exact h.step op
  exact Machine.run_of_step hstep ⟨_, Started.authentic h⟩ ops

/-- **Whom a session belongs to.** In every state of every run of the server, a session
that was not there at the start belongs to a user whose name and right password a login
has brought, and so does every connection that has a user. -/
theorem sessions_loggedIn (h : s₀.Started hashes) (ops : List ServerOp) :
    (∀ session ∈ ((chatServer qt hashes).run s₀ ops).pool.store.sessions.rows,
      (∃ old ∈ s₀.pool.store.sessions.rows, old.id = session.id ∧ old.userId = session.userId) ∨
        LoggedIn hashes ((chatServer qt hashes).run s₀ ops) session.userId) ∧
    ∀ c, 0 < (((chatServer qt hashes).run s₀ ops).pool.workers c).here.authenticatedUserId →
      LoggedIn hashes ((chatServer qt hashes).run s₀ ops)
        (((chatServer qt hashes).run s₀ ops).pool.workers c).here.authenticatedUserId := by
  obtain ⟨g, hauthentic⟩ := run_authentic qt h ops
  exact ⟨hauthentic.sessions, hauthentic.connections⟩

end

/-- Alice logs in, and has a session then: it is hers because she did. -/
theorem sessions_loggedIn_alice :
    (((chatServer sessionQt sessionHashes).run freshServer loginAgain).pool.store.sessions.rows.map
      (·.userId)) = [1] ∧
    LoggedIn sessionHashes ((chatServer sessionQt sessionHashes).run freshServer loginAgain) 1 := by
  have hrows : (((chatServer sessionQt sessionHashes).run freshServer
      loginAgain).pool.store.sessions.rows.map (·.userId)) = [1] := by decide +kernel
  refine ⟨hrows, ?_⟩
  have hmem : (1 : Int) ∈ ((chatServer sessionQt sessionHashes).run freshServer
      loginAgain).pool.store.sessions.rows.map (·.userId) := by
    rw [hrows]
    exact List.mem_singleton_self 1
  obtain ⟨session, hsession, huser⟩ := List.mem_map.mp hmem
  have hstarted : freshServer.Started sessionHashes :=
    ⟨fun _ => rfl, rfl, rfl, by simp [freshServer, Table.empty],
      by simp [freshServer, Table.empty]⟩
  rw [← huser]
  rcases (sessions_loggedIn hstarted loginAgain).1 session hsession with ⟨old, hold, _⟩ | hlogged
  · cases hold
  · exact hlogged

end XYChat.Server
