import XYChat.Server.RoutingInvariant

/-!
# Pushes reach their user only

When all signals have been taken up, a push for a user is handed to connections
that are authenticated as this user only, and a user without one is not online.
A connection has to give up its sessions before it changes its user or closes,
though: logging in again leaves sessions registered that the connection has no
more, and so does logging out or closing after that or after a renewal, since all
that is told of then is the current session. A handler whose connection closes
does not say that it has finished, so nothing else clears the hashes.
-/

namespace XYChat.Server

open XYChat.Lib XYChat.Lib.Prog

/-! ## The property -/

/-- The server has taken up all signals, and no thread has one left to emit. -/
structure Delivered (s : PushServer) : Prop where
  queue : s.mailbox.queue = []
  outboxes : ∀ c, (s.thread c).outbox = []

/-- A push reaches connections that are authenticated as its user, and only a
user with such a connection is online. -/
structure PushesPrivate (s : PushServer) : Prop where
  handlers : ∀ userId, ∀ h ∈ s.mailbox.state.handlersOf userId, (s.thread h).AuthenticatedAs userId
  online : ∀ userId, (∀ h, ¬(s.thread h).AuthenticatedAs userId) →
    s.mailbox.state.onlineSessions userId = none

/-- No session is registered for the connection but its current one. -/
def CurrentOnly (s : PushServer) (c : Nat) : Prop :=
  ∀ x ∈ (s.thread c).logins, s.settled.Registered c x.1 x.2 →
    x.2 = (s.thread c).conn.currentSessionId

/-- The request that leaves the thread as `t` ends cleanly: where the connection
stays or comes to be logged in, no session of another user is registered for it;
where it is logged out, none but the one it gives up. -/
structure SwitchesClean (s : PushServer) (c : Nat) (t : HandlerThread) : Prop where
  login : 0 < t.conn.currentSessionId →
    ∀ x ∈ (s.thread c).logins, s.settled.Registered c x.1 x.2 → x.1 = t.conn.authenticatedUserId
  logout : t.conn.currentSessionId = 0 → CurrentOnly s c

/-- A condition on the end of a request. -/
def AtAnswer (P : PushServer → Nat → HandlerThread → Prop) (s : PushServer) (c : Nat) :
    Option (Prog ServerDb HandlerThread) → Prop
  | some (.ret t) => P s c t
  | _ => True

/-- The condition on a step: a connection that closes gives up all it has
registered, too. -/
def StepSwitchesClean (s : PushServer) : PushOp → Prop
  | .statement c => AtAnswer SwitchesClean s c (s.pool.workers c).running
  | .disconnect c => s.ready c = true → CurrentOnly s c
  | _ => True

/-! ## Looking ahead -/

/-- The server's hashes when everything posted is taken up, and then what the
thread has still to emit. -/
def PushServer.ahead (s : PushServer) (c : Nat) : Routing :=
  routing.run {} (s.mailbox.posted ++ (s.thread c).outbox.map fun x => (c, x))

/-- The hashes `r'` hold no more of the connection than `r`. -/
def Routing.Within (c : Nat) (r' r : Routing) : Prop :=
  ∀ userId sessionId, r'.Registered c userId sessionId → r.Registered c userId sessionId

section ahead

variable {issue : Issue} {last : Int} {g : Nat → SessionGhost} {s s' : PushServer} {c : Nat}
  {r r' : Routing}

/-- A signal of the connection itself does the same to both. -/
theorem Routing.Within.slot {x : Signal} (h : r'.Within c r) (hr' : r'.Fits issue)
    (hr : r.Fits issue) (hx : SignalFits issue last (c, x)) :
    (r'.slot (c, x)).Within c (r.slot (c, x)) := by
  intro u i hi
  cases x with
  | messageForUser push => exact h u i hi
  | finished => exact absurd (registered_onHandlerFinished hi) (hr'.unregistered hx)
  | session signal =>
      cases signal with
      | sessionTerminated sessionId =>
          exact registered_onSessionTerminated.mpr (h u i (registered_onSessionTerminated.mp hi))
      | userLoggedIn userId sessionId =>
          exact (registered_onUserLoggedIn hr hx).mpr
            (((registered_onUserLoggedIn hr' hx).mp hi).imp_right fun hold =>
              ⟨h u i hold.1, hold.2⟩)
      | userLoggedOut userId sessionId =>
          exact (registered_onUserLoggedOut hx.1).mpr
            (((registered_onUserLoggedOut hx.1).mp hi).imp_left (h u i))

theorem Routing.Within.run {xs : List Signal} (h : r'.Within c r) (hr' : r'.Fits issue)
    (hr : r.Fits issue) (hxs : ∀ x ∈ xs, SignalFits issue last (c, x)) :
    (routing.run r' (xs.map fun x => (c, x))).Within c
      (routing.run r (xs.map fun x => (c, x))) := by
  induction xs generalizing r r' with
  | nil => exact h
  | cons x xs ih =>
      have hx := hxs x List.mem_cons_self
      exact ih (h.slot hr' hr hx) (hr'.slot hx) (hr.slot hx)
        fun y hy => hxs y (List.mem_cons_of_mem _ hy)

/-- Where nothing changes for the connection, it looks ahead to the same. -/
theorem ahead_of_same (hthread : (s'.thread c).outbox = (s.thread c).outbox)
    (hposted : s'.mailbox.posted = s.mailbox.posted) : s'.ahead c = s.ahead c := by
  unfold PushServer.ahead
  rw [hthread, hposted]

/-- What it posts it has looked ahead to. -/
theorem ahead_of_emitted {x : Signal} {rest : List Signal}
    (houtbox : (s.thread c).outbox = x :: rest) (hrest : (s'.thread c).outbox = rest)
    (hposted : s'.mailbox.posted = s.mailbox.posted ++ [(c, x)]) : s'.ahead c = s.ahead c := by
  unfold PushServer.ahead
  rw [hposted, hrest, houtbox, List.map_cons, List.append_assoc]
  rfl

/-- What another thread posts registers nothing for it. -/
theorem ahead_of_other {x : Nat × Signal} (h : Coherent issue g s)
    (hx : SignalFits issue s.pool.store.sessions.lastId x) (hne : c ≠ x.1)
    (hthread : (s'.thread c).outbox = (s.thread c).outbox)
    (hposted : s'.mailbox.posted = s.mailbox.posted ++ [x]) :
    (s'.ahead c).Within c (s.ahead c) := by
  have hfits : (routing.run {} s.mailbox.posted).Fits issue :=
    fits_run (fits_start issue) h.posted
  have hslot := hfits.slot hx
  have hwithin : ((routing.run {} s.mailbox.posted).slot x).Within c
      (routing.run {} s.mailbox.posted) :=
    fun u i => hfits.slot_other hx hne
  unfold PushServer.ahead
  rw [hposted, hthread, Machine.run_append, Machine.run_append, Machine.run_append]
  exact hwithin.run hslot hfits (h.outboxes c)

end ahead

/-! ## The ledger -/

/-- The session is one the connection has logged in with, and the connection is
still authenticated as its user. -/
def PushServer.Holds (s : PushServer) (c : Nat) (userId sessionId : Int) : Prop :=
  (userId, sessionId) ∈ (s.thread c).logins ∧ (s.thread c).AuthenticatedAs userId

/-- What a connection will have registered it holds. Sessions that are online have
a handler. -/
structure Ledger (s : PushServer) : Prop where
  registered : ∀ c userId sessionId, (s.ahead c).Registered c userId sessionId →
    s.Holds c userId sessionId
  served : ∀ userId, ∀ sessionId ∈ (((routing.run {} s.mailbox.posted).onlineSessions userId).getD []),
    ∃ h, (routing.run {} s.mailbox.posted).sessionHandlers sessionId = some h
  nonempty : ∀ userId sessions,
    (routing.run {} s.mailbox.posted).onlineSessions userId = some sessions → sessions ≠ []

section ledger

variable {issue issue' : Issue} {last : Int} {g g' : Nat → SessionGhost} {s s' : PushServer}
  {c : Nat} {r : Routing}

theorem setOnline_nonempty {userId : Int} {sessions : List Int}
    (h : ∀ u sessions, r.onlineSessions u = some sessions → sessions ≠ []) :
    ∀ u sessions', (r.setOnline userId sessions).onlineSessions u = some sessions' →
      sessions' ≠ [] := by
  intro u sessions' hu
  unfold Routing.setOnline at hu
  dsimp only at hu
  by_cases hsame : u = userId
  · subst hsame
    rw [Function.update_self] at hu
    split at hu
    · cases hu
    · rename_i hne
      cases hu
      exact hne
  · rw [Function.update_of_ne hsame] at hu
    exact h u sessions' hu

/-- No set in the hash is empty. -/
theorem nonempty_slot {x : Nat × Signal} (hx : SignalFits issue last x)
    (h : ∀ u sessions, r.onlineSessions u = some sessions → sessions ≠ []) :
    ∀ u sessions, (r.slot x).onlineSessions u = some sessions → sessions ≠ [] := by
  obtain ⟨handler, x⟩ := x
  cases x with
  | messageForUser push => exact h
  | finished =>
      show ∀ u sessions, (r.onHandlerFinished handler).onlineSessions u = some sessions → _
      unfold Routing.onHandlerFinished
      cases r.handlerUsers handler with
      | none => exact h
      | some userId =>
          dsimp only
          cases r.onlineSessions userId with
          | none => exact h
          | some sessions => exact setOnline_nonempty h
  | session signal =>
      cases signal with
      | sessionTerminated sessionId =>
          show ∀ u sessions, (r.onSessionTerminated sessionId).onlineSessions u = some sessions → _
          rw [onSessionTerminated_hashes.1]
          exact h
      | userLoggedIn userId sessionId =>
          intro u sessions hu
          have hu : Function.update r.onlineSessions userId _ u = some sessions := hu
          by_cases hsame : u = userId
          · subst hsame
            rw [Function.update_self, Option.some.injEq] at hu
            rw [← hu]
            exact List.ne_nil_of_mem List.mem_insert_self
          · rw [Function.update_of_ne hsame] at hu
            exact h u sessions hu
      | userLoggedOut userId sessionId =>
          show ∀ u sessions, (r.onUserLoggedOut userId sessionId).onlineSessions u = some sessions → _
          have hpos : 0 < sessionId := hx.1
          unfold Routing.onUserLoggedOut
          rw [if_neg (by omega)]
          exact setOnline_nonempty h

/-- A session that is online keeps its handler. -/
theorem served_slot {x : Nat × Signal} (hfits : r.Fits issue) (hx : SignalFits issue last x)
    (h : ∀ u, ∀ i ∈ (r.onlineSessions u).getD [], ∃ h, r.sessionHandlers i = some h) :
    ∀ u, ∀ i ∈ ((r.slot x).onlineSessions u).getD [],
      ∃ h, (r.slot x).sessionHandlers i = some h := by
  obtain ⟨handler, x⟩ := x
  intro u i hi
  cases x with
  | messageForUser push => exact h u i hi
  | finished =>
      have hold := (onHandlerFinished_mem.mp hi).1
      obtain ⟨h₁, hh₁⟩ := h u i hold
      have hne : h₁ ≠ handler := by
        rintro rfl
        exact hfits.unregistered hx ⟨hold, hh₁⟩
      exact ⟨h₁, (onHandlerFinished_handlers hne).mpr hh₁⟩
  | session signal =>
      cases signal with
      | sessionTerminated sessionId =>
          have hi : i ∈ ((r.onSessionTerminated sessionId).onlineSessions u).getD [] := hi
          rw [onSessionTerminated_hashes.1] at hi
          show ∃ h, (r.onSessionTerminated sessionId).sessionHandlers i = some h
          rw [onSessionTerminated_hashes.2]
          exact h u i hi
      | userLoggedIn userId sessionId =>
          show ∃ h, Function.update r.sessionHandlers sessionId (some handler) i = some h
          by_cases hsame : i = sessionId
          · subst hsame
            exact ⟨handler, Function.update_self ..⟩
          · rw [Function.update_of_ne hsame]
            rcases mem_onUserLoggedIn.mp hi with ⟨_, hnew⟩ | hold
            · exact absurd hnew hsame
            · exact h u i hold
      | userLoggedOut userId sessionId =>
          obtain ⟨hold, hne⟩ := (mem_onUserLoggedOut hx.1).mp hi
          show ∃ h, (r.onUserLoggedOut userId sessionId).sessionHandlers i = some h
          rw [sessionHandlers_onUserLoggedOut hx.1]
          by_cases hsame : i = sessionId
          · -- the session ends under the name of its user
            subst hsame
            obtain ⟨handler', hissue⟩ := hfits.users u i hold
            exact absurd rfl (hne (hx.2.2 handler' u hissue))
          · rw [Function.update_of_ne hsame]
            exact h u i hold

/-! ## Steps -/

/-- A connection that nothing happens to holds what it held. -/
private theorem Holds.of_thread {userId sessionId : Int} (h : s.Holds c userId sessionId)
    (hthread : s'.thread c = s.thread c) : s'.Holds c userId sessionId := by
  unfold PushServer.Holds at *
  rw [hthread]
  exact h

/-- The pushes of a request register nothing. -/
private theorem run_pushes (r : Routing) (c : Nat) (pushes : List Push) :
    ∀ h userId sessionId,
      (routing.run r (pushes.map fun push => (c, Signal.messageForUser push))).Registered h userId
        sessionId ↔ r.Registered h userId sessionId := by
  induction pushes generalizing r with
  | nil => exact fun _ _ _ => Iff.rfl
  | cons push pushes ih => exact ih (r.onMessageForUser push)

/-- What a request leaves the connection with it looks ahead to. -/
private theorem ahead_after {o : Outcome} (houtbox : (s.thread c).outbox = [])
    (hthread : s'.thread c = (s.thread c).after o)
    (hposted : s'.mailbox.posted = s.mailbox.posted) :
    s'.ahead c = routing.run (routing.run (s.ahead c)
      (o.pushes.map fun push => (c, Signal.messageForUser push)))
      (o.signals.map fun signal => (c, Signal.session signal)) := by
  unfold PushServer.ahead
  rw [hposted, hthread, houtbox]
  unfold HandlerThread.after
  dsimp only
  rw [List.map_append, List.map_map, List.map_map, List.map_nil, List.append_nil,
    ← List.append_assoc, Machine.run_append, Machine.run_append]
  rfl

/-- A connection with nothing left to emit looks ahead to what is posted. -/
private theorem ahead_of_settled (h : Coherent issue g s) (houtbox : (s.thread c).outbox = []) :
    s.ahead c = s.settled := by
  unfold PushServer.ahead PushServer.settled
  rw [houtbox, List.map_nil, List.append_nil, h.mailbox.settled_eq]

/-- **The end of a request** leaves the connection what is its own. -/
private theorem answered_registered {t : SessionGhost} {o : Outcome} (hl : Ledger s)
    (h : Coherent issue g s) (h' : Coherent issue' g' s')
    (hghost : t.thread = s.thread c) (hstate : (s.thread c).state = .running)
    (houtbox : (s.thread c).outbox = []) (hends : SessionEnd t o)
    (hthread : s'.thread c = (s.thread c).after o)
    (hposted : s'.mailbox.posted = s.mailbox.posted)
    (hclean : SwitchesClean s c ((s.thread c).after o)) (userId sessionId : Int)
    (hreg : (s'.ahead c).Registered c userId sessionId) : s'.Holds c userId sessionId := by
  have hsettled : s.ahead c = s.settled := ahead_of_settled h houtbox
  have hfits : (s.ahead c).Fits issue' := by
    unfold PushServer.ahead
    rw [houtbox, List.map_nil, List.append_nil, ← hposted]
    exact fits_run (fits_start issue') h'.posted
  have houtboxes := h'.outboxes c
  rw [hthread] at houtboxes
  have hpushes := run_pushes (s.ahead c) c o.pushes
  have hpushed : (routing.run (s.ahead c)
      (o.pushes.map fun push => (c, Signal.messageForUser push))).Fits issue' :=
    fits_run hfits (fun x hx => by
      obtain ⟨push, _, rfl⟩ := List.mem_map.mp hx
      trivial : ∀ x ∈ o.pushes.map fun push => (c, Signal.messageForUser push),
        SignalFits issue' s'.pool.store.sessions.lastId x)
  rw [ahead_after houtbox hthread hposted] at hreg
  generalize routing.run (s.ahead c) (o.pushes.map fun push => (c, Signal.messageForUser push)) = r
    at hreg hpushes hpushed
  -- what was registered before belongs to the connection
  have hold : ∀ {u i : Int}, r.Registered c u i → s.Holds c u i :=
    fun {u i} hri => hl.registered c u i ((hpushes c u i).mp hri)
  have hholds : ∀ {u i : Int}, (u, i) ∈ (s.thread c).logins →
      o.conn.authenticatedUserId = u → 0 < o.conn.currentSessionId → s'.Holds c u i := by
    intro u i hlogin huser hpos
    unfold PushServer.Holds
    rw [hthread]
    exact ⟨List.mem_append.mpr (.inl hlogin), hstate, huser, hpos⟩
  have hregistered : ∀ {u i : Int}, r.Registered c u i → s.settled.Registered c u i := by
    intro u i hri
    rw [← hsettled]
    exact (hpushes c u i).mp hri
  have hconn : t.conn = (s.thread c).conn := congrArg HandlerThread.conn hghost
  cases hends with
  | same user session signals =>
      rw [signals] at hreg
      obtain ⟨hlogin, hauth⟩ := hold hreg
      refine hholds hlogin ?_ ?_
      · rw [user, hconn]
        exact hauth.user
      · rw [session, hconn]
        exact hauth.session
  | loggedIn user sessionId' pos created huser session signals =>
      have hissue : issue' sessionId' = some (c, user) :=
        houtboxes (.session (.userLoggedIn user sessionId'))
          (List.mem_append.mpr (.inr (by simp [signals])))
      rw [signals] at hreg
      -- the session of the login, or one from before, which is of the same user
      have hreg : (r.onUserLoggedIn c user sessionId').Registered c userId sessionId := hreg
      rcases (registered_onUserLoggedIn hpushed hissue).mp hreg with ⟨_, rfl, rfl⟩ | ⟨hkept, _⟩
      · unfold PushServer.Holds
        rw [hthread]
        refine ⟨List.mem_append.mpr (.inr ?_), hstate, huser, ?_⟩
        · simp [signals, SessionSignal.login]
        · show 0 < o.conn.currentSessionId
          rw [session]
          exact pos
      · obtain ⟨hlogin, _⟩ := hold hkept
        have hsame : userId = o.conn.authenticatedUserId :=
          hclean.login (show 0 < o.conn.currentSessionId by rw [session]; exact pos) _ hlogin
            (hregistered hkept)
        exact hholds hlogin hsame.symm (by rw [session]; exact pos)
  | renewed sessionId' pos serving created user session signals =>
      rw [signals] at hreg
      obtain ⟨hlogin, hauth⟩ := hold hreg
      refine hholds hlogin ?_ ?_
      · rw [user, hconn]
        exact hauth.user
      · rw [session]
        exact pos
  | loggedOut current user session signals =>
      rw [signals] at hreg
      have hreg : (r.onUserLoggedOut t.conn.authenticatedUserId t.conn.currentSessionId).Registered c
          userId sessionId := hreg
      obtain ⟨hkept, hne⟩ := (registered_onUserLoggedOut current).mp hreg
      -- a logout that is clean leaves nothing registered
      obtain ⟨hlogin, _⟩ := hold hkept
      have hcurrent := hclean.logout session _ hlogin (hregistered hkept)
      rw [hconn] at hne
      exact absurd hcurrent hne
  | terminated sessionId' found user session signals =>
      have hpos : 0 < sessionId' :=
        (houtboxes (.session (.userLoggedOut t.conn.authenticatedUserId sessionId'))
          (List.mem_append.mpr (.inr (by simp [signals])))).1
      rw [signals] at hreg
      have hreg : ((r.onUserLoggedOut t.conn.authenticatedUserId sessionId').onSessionTerminated
          sessionId').Registered c userId sessionId := hreg
      obtain ⟨hkept, _⟩ := (registered_onUserLoggedOut hpos).mp
        (registered_onSessionTerminated.mp hreg)
      obtain ⟨hlogin, hauth⟩ := hold hkept
      refine hholds hlogin ?_ ?_
      · rw [user, hconn]
        exact hauth.user
      · rw [session, hconn]
        exact hauth.session

/-- Nothing is posted: what is served stays served. -/
private theorem Ledger.of_registered (hl : Ledger s)
    (hposted : s'.mailbox.posted = s.mailbox.posted)
    (hreg : ∀ c userId sessionId, (s'.ahead c).Registered c userId sessionId →
      s'.Holds c userId sessionId) : Ledger s' :=
  ⟨hreg, hposted ▸ hl.served, hposted ▸ hl.nonempty⟩

/-- A connection whose thread stays as it is, and that posts nothing. -/
private theorem Ledger.untouched (hl : Ledger s) (hthread : s'.thread c = s.thread c)
    (hposted : s'.mailbox.posted = s.mailbox.posted) (userId sessionId : Int)
    (hreg : (s'.ahead c).Registered c userId sessionId) : s'.Holds c userId sessionId := by
  rw [ahead_of_same (by rw [hthread]) hposted] at hreg
  exact Holds.of_thread (hl.registered c userId sessionId hreg) hthread

/-- A connection whose thread stays as it is while another one posts. -/
private theorem Ledger.beside {x : Nat × Signal} (hl : Ledger s) (h : Coherent issue g s)
    (hx : SignalFits issue s.pool.store.sessions.lastId x) (hne : c ≠ x.1)
    (hthread : s'.thread c = s.thread c) (hposted : s'.mailbox.posted = s.mailbox.posted ++ [x])
    (userId sessionId : Int) (hreg : (s'.ahead c).Registered c userId sessionId) :
    s'.Holds c userId sessionId := by
  have hwithin := ahead_of_other h hx hne (by rw [hthread]) hposted
  exact Holds.of_thread (hl.registered c userId sessionId (hwithin _ _ hreg)) hthread

/-- One more signal is posted. -/
private theorem Ledger.posted {x : Nat × Signal} (hl : Ledger s) (h : Coherent issue g s)
    (hx : SignalFits issue s.pool.store.sessions.lastId x)
    (hposted : s'.mailbox.posted = s.mailbox.posted ++ [x])
    (hreg : ∀ c userId sessionId, (s'.ahead c).Registered c userId sessionId →
      s'.Holds c userId sessionId) : Ledger s' := by
  have hfits : (routing.run {} s.mailbox.posted).Fits issue :=
    fits_run (fits_start issue) h.posted
  have hrun : routing.run {} s'.mailbox.posted = (routing.run {} s.mailbox.posted).slot x := by
    rw [hposted, Machine.run_append]
    rfl
  refine ⟨hreg, ?_, ?_⟩
  · rw [hrun]
    exact served_slot hfits hx hl.served
  · rw [hrun]
    exact nonempty_slot hx hl.nonempty

/-- **The close of a connection** that has its current session registered only
leaves nothing registered. -/
private theorem closed_unregistered (hl : Ledger s) (h : Coherent issue g s)
    (hready : s.ready c = true) (hthread : s'.thread c = (s.thread c).close)
    (hposted : s'.mailbox.posted = s.mailbox.posted) (hclean : CurrentOnly s c)
    (userId sessionId : Int) : ¬(s'.ahead c).Registered c userId sessionId := by
  intro hreg
  have houtbox := (ready_iff.mp hready).2.2
  have hahead : s'.ahead c =
      routing.run (s.ahead c) ((s.thread c).close.outbox.map fun x => (c, x)) := by
    unfold PushServer.ahead
    rw [hposted, hthread, houtbox, List.map_nil, List.append_nil, Machine.run_append]
  rw [hahead] at hreg
  unfold HandlerThread.close at hreg
  dsimp only at hreg
  have hcurrent : ∀ {u i : Int}, (s.ahead c).Registered c u i →
      i = (s.thread c).conn.currentSessionId := by
    intro u i hri
    refine hclean (u, i) (hl.registered c u i hri).1 ?_
    rw [← ahead_of_settled h houtbox]
    exact hri
  split at hreg
  · rename_i hpos
    obtain ⟨hkept, hne⟩ := (registered_onUserLoggedOut hpos).mp hreg
    exact hne (hcurrent hkept)
  · -- a connection that has something registered is logged in
    rename_i hpos
    exact hpos (hl.registered c userId sessionId hreg).2.session

/-- **Step lemma.** A step whose request, if it ends one, ends it cleanly, and
that closes no connection with more than its current session, keeps the ledger. -/
theorem Ledger.step {op : PushOp} (hl : Ledger s) (h : Coherent issue g s)
    (h' : Coherent issue' g' s') (hmoved : Moved s op s') (hclean : StepSwitchesClean s op) :
    Ledger s' := by
  cases hmoved with
  | quiet threads posted =>
      refine hl.of_registered posted fun c userId sessionId hreg => ?_
      obtain ⟨serving, hthread⟩ := threads c
      rw [ahead_of_same (by rw [hthread]) posted] at hreg
      obtain ⟨hlogin, hauth⟩ := hl.registered c userId sessionId hreg
      unfold PushServer.Holds
      rw [hthread]
      exact ⟨hlogin, hauth.running, hauth.user, hauth.session⟩
  | accepted c peerAddress state threads posted =>
      refine hl.of_registered posted fun c' userId sessionId hreg => ?_
      by_cases hc : c' = c
      · subst hc
        -- nothing was registered for an empty slot
        rw [ahead_of_same (by rw [threads, Function.update_self, h.absent c' state]) posted] at hreg
        have hrunning := (hl.registered c' userId sessionId hreg).2.running
        rw [state] at hrunning
        cases hrunning
      · exact hl.untouched (by rw [threads, Function.update_of_ne hc]) posted userId sessionId hreg
  | failed c state threads posted =>
      refine hl.of_registered posted fun c' userId sessionId hreg => ?_
      by_cases hc : c' = c
      · subst hc
        have hahead : s'.ahead c' = (s.ahead c').onHandlerFinished c' := by
          unfold PushServer.ahead
          rw [posted, threads, Function.update_self, h.absent c' state, List.map_nil,
            List.append_nil, Machine.run_append]
          rfl
        rw [hahead] at hreg
        have hrunning :=
          (hl.registered c' userId sessionId (registered_onHandlerFinished hreg)).2.running
        rw [state] at hrunning
        cases hrunning
      · exact hl.untouched (by rw [threads, Function.update_of_ne hc]) posted userId sessionId hreg
  | answered c t o label running thread state outbox tells threads posted =>
      have hswitch : SwitchesClean s c ((s.thread c).after o) := by
        subst label
        have hanswer : AtAnswer SwitchesClean s c (s.pool.workers c).running := hclean
        rw [running] at hanswer
        exact hanswer
      refine hl.of_registered posted fun c' userId sessionId hreg => ?_
      by_cases hc : c' = c
      · subst hc
        exact answered_registered hl h h' thread state outbox tells.ends
          (by rw [threads, Function.update_self]) posted hswitch userId sessionId hreg
      · exact hl.untouched (by rw [threads, Function.update_of_ne hc]) posted userId sessionId hreg
  | emitted c x rest label outbox threads posted =>
      have hx := h.outboxes c x (by rw [outbox]; exact List.mem_cons_self)
      refine hl.posted h hx posted fun c' userId sessionId hreg => ?_
      by_cases hc : c' = c
      · subst hc
        rw [ahead_of_emitted outbox (by rw [threads, Function.update_self]) posted] at hreg
        obtain ⟨hlogin, hauth⟩ := hl.registered c' userId sessionId hreg
        unfold PushServer.Holds
        rw [threads, Function.update_self]
        exact ⟨hlogin, hauth.running, hauth.user, hauth.session⟩
      · exact hl.beside h hx hc (by rw [threads, Function.update_of_ne hc]) posted userId sessionId
          hreg
  | closed c label ready threads posted =>
      subst label
      refine hl.of_registered posted fun c' userId sessionId hreg => ?_
      by_cases hc : c' = c
      · subst hc
        exact absurd hreg (closed_unregistered hl h ready (by rw [threads, Function.update_self])
          posted (hclean ready) userId sessionId)
      · exact hl.untouched (by rw [threads, Function.update_of_ne hc]) posted userId sessionId hreg

/-! ## Runs -/

theorem PushServer.Started.ledger (h : s.Started) : Ledger s := by
  have hposted : s.mailbox.posted = [] := by rw [h.mailbox]
  have hahead : ∀ c, s.ahead c = {} := by
    intro c
    unfold PushServer.ahead PushServer.thread
    rw [hposted, h.idle c]
    rfl
  refine ⟨fun c userId sessionId hreg => ?_, ?_, ?_⟩
  · rw [hahead] at hreg
    cases hreg.2
  · rw [hposted]
    intro userId sessionId hmem
    cases hmem
  · rw [hposted]
    intro userId sessions honline
    cases honline

/-- When all is delivered the hashes hold what the ledger says. -/
theorem Ledger.pushesPrivate (hl : Ledger s) (h : Coherent issue g s) (hd : Delivered s) :
    PushesPrivate s := by
  have hstate := h.mailbox.state_eq hd.queue
  have hregistered : ∀ c userId sessionId,
      (routing.run {} s.mailbox.posted).Registered c userId sessionId →
        (s.thread c).AuthenticatedAs userId := by
    intro c userId sessionId hreg
    have hahead : s.ahead c = routing.run {} s.mailbox.posted := by
      unfold PushServer.ahead
      rw [hd.outboxes c, List.map_nil, List.append_nil]
    rw [← hahead] at hreg
    exact (hl.registered c userId sessionId hreg).2
  refine ⟨fun userId c hmem => ?_, fun userId hnone => ?_⟩
  · rw [hstate] at hmem
    unfold Routing.handlersOf at hmem
    cases honline : (routing.run {} s.mailbox.posted).onlineSessions userId with
    | none =>
        rw [honline] at hmem
        cases hmem
    | some sessions =>
        rw [honline] at hmem
        obtain ⟨sessionId, hsession, hhandler⟩ := List.mem_filterMap.mp hmem
        refine hregistered c userId sessionId ⟨?_, hhandler⟩
        rw [honline]
        exact hsession
  · rw [hstate]
    cases honline : (routing.run {} s.mailbox.posted).onlineSessions userId with
    | none => rfl
    | some sessions =>
        obtain ⟨sessionId, hsession⟩ :=
          List.exists_mem_of_ne_nil _ (hl.nonempty userId sessions honline)
        have hmem : sessionId ∈
            ((routing.run {} s.mailbox.posted).onlineSessions userId).getD [] := by
          rw [honline]
          exact hsession
        obtain ⟨c, hhandler⟩ := hl.served userId sessionId hmem
        exact absurd (hregistered c userId sessionId ⟨hmem, hhandler⟩) (hnone c)

/-- **Push routing is private** in every run in which no connection changes its
user or closes while sessions it has no more are registered for it. -/
theorem pushesPrivate_of_clean (qt : Qt) (hashes : Hashes) (other : OtherHandlers)
    (s₀ : PushServer) (h₀ : s₀.Started) (ops : List PushOp)
    (hclean : (pushMachine qt hashes other).Along StepSwitchesClean s₀ ops) :
    (pushMachine qt hashes other).Always (fun s => Delivered s → PushesPrivate s) s₀ ops := by
  have hstep : ∀ s op, ((∃ issue g, Coherent issue g s) ∧ Ledger s) → StepSwitchesClean s op →
      (∃ issue g, Coherent issue g ((pushMachine qt hashes other).step s op)) ∧
        Ledger ((pushMachine qt hashes other).step s op) := by
    rintro s op ⟨⟨issue, g, h⟩, hl⟩ hop
    obtain ⟨issue', g', h', _, hmoved, _⟩ := pushStep_leads h qt hashes other op
    exact ⟨⟨issue', g', h'⟩, hl.step h h' hmoved hop⟩
  refine (Machine.always_of_along hstep ⟨⟨_, _, h₀.coherent⟩, h₀.ledger⟩ hclean).mono fun s hs => ?_
  obtain ⟨⟨issue, g, h⟩, hl⟩ := hs
  exact hl.pushesPrivate h

end ledger

/-! ## Two runs -/

instance (s : PushServer) (c : Nat) : Decidable (CurrentOnly s c) :=
  inferInstanceAs (Decidable (∀ x ∈ (s.thread c).logins, s.settled.Registered c x.1 x.2 →
    x.2 = (s.thread c).conn.currentSessionId))

instance (s : PushServer) (c : Nat) (t : HandlerThread) : Decidable (SwitchesClean s c t) :=
  decidable_of_iff
    ((0 < t.conn.currentSessionId → ∀ x ∈ (s.thread c).logins, s.settled.Registered c x.1 x.2 →
        x.1 = t.conn.authenticatedUserId) ∧
      (t.conn.currentSessionId = 0 → CurrentOnly s c))
    ⟨fun h => ⟨h.1, h.2⟩, fun h => ⟨h.login, h.logout⟩⟩

instance (s : PushServer) (c : Nat) : ∀ prog, Decidable (AtAnswer SwitchesClean s c prog)
  | some (.ret t) => inferInstanceAs (Decidable (SwitchesClean s c t))
  | some (.stmt ..) => isTrue trivial
  | none => isTrue trivial

instance (s : PushServer) : ∀ op, Decidable (StepSwitchesClean s op)
  | .statement c => inferInstanceAs (Decidable (AtAnswer SwitchesClean s c _))
  | .disconnect c => inferInstanceAs (Decidable (s.ready c = true → CurrentOnly s c))
  | .accept .. => isTrue trivial
  | .initFailed _ => isTrue trivial
  | .packet .. => isTrue trivial
  | .emit _ => isTrue trivial
  | .slot => isTrue trivial
  | .tick _ => isTrue trivial

/-- The request to log a user in, and its text. -/
def loginAs (username nonce : String) : Json := .obj
  [ ("deviceId", .str "A"), ("nonce", .str nonce), ("password", .str "pw")
  , ("timestamp", .int 1), ("username", .str username) ]

def loginText (username nonce : String) : String :=
  "\x7b\"deviceId\":\"A\",\"nonce\":\"" ++ nonce
    ++ "\",\"password\":\"pw\",\"timestamp\":1,\"username\":\"" ++ username ++ "\"\x7d"

def tokenText (nonce token : String) : String :=
  "\x7b\"nonce\":\"" ++ nonce ++ "\",\"timestamp\":1,\"token\":\"" ++ token ++ "\"\x7d"

/-- The parser on the payloads of these runs. -/
def pushQt : Qt :=
  { sessionQt with
    fromJson := fun text =>
      [ (loginText "alice" "1", loginAs "alice" "1"), (loginText "bob" "2", loginAs "bob" "2")
      , (loginText "alice" "3", loginAs "alice" "3")
      , (tokenText "2" "t1", tokenRequest "2" "t1") ].lookup text }

/-- Alice and bob have accounts. -/
def pushDb : ServerDb where
  now := 1
  users := .ofRows
    [ { id := 1, username := "alice", passwordHash := "pw" }
    , { id := 2, username := "bob", passwordHash := "pw" } ]

def pushServer : PushServer where
  pool := { store := pushDb, workers := fun _ => { here := {} } }

theorem pushServer_started : pushServer.Started := ⟨fun _ => rfl, rfl, rfl, fun _ => rfl⟩

/-- A connection sends a packet, which is handled. -/
def handled (c messageType requestId : Nat) (text token : String) : List PushOp :=
  .packet c ⟨messageType, requestId, text⟩ ⟨token, ""⟩ :: List.replicate 9 (.statement c)

/-- The server takes up the next signal of a connection. -/
def told (c : Nat) : List PushOp := [.emit c, .slot]

/-- Alice logs in. -/
def aliceIn : List PushOp :=
  .accept 0 "" :: handled 0 1 1 (loginText "alice" "1") "t1" ++ told 0

/-- Alice logs in and out and in again, and closes her connection; the next one
does not come to be. -/
theorem pushesPrivate_inOut :
    (pushMachine pushQt sessionHashes idleHandlers).Always (fun s => Delivered s → PushesPrivate s)
      pushServer (aliceIn ++ handled 0 12 2 (tokenText "2" "t1") "" ++ told 0
        ++ handled 0 1 3 (loginText "alice" "3") "t3" ++ told 0
        ++ .disconnect 0 :: told 0 ++ .initFailed 1 :: told 1) :=
  pushesPrivate_of_clean pushQt sessionHashes idleHandlers pushServer pushServer_started _
    (by decide +kernel)

/-- Alice logs in, and bob after her on the same connection. -/
def bobAfterAlice : List PushOp := aliceIn ++ handled 0 1 2 (loginText "bob" "2") "t2" ++ told 0

/-- A push for alice is handed to the connection, which is bob's by now. -/
theorem bobAfterAlice_receives :
    ¬(pushMachine pushQt sessionHashes idleHandlers).Always
      (fun s => Delivered s → PushesPrivate s) pushServer bobAfterAlice := by
  intro h
  have hqueue : ((pushMachine pushQt sessionHashes idleHandlers).run pushServer
      bobAfterAlice).mailbox.queue.isEmpty = true := by
    decide +kernel
  have hzero : (((pushMachine pushQt sessionHashes idleHandlers).run pushServer
      bobAfterAlice).thread 0).outbox.isEmpty = true := by
    decide +kernel
  have hothers : ∀ c, c ≠ 0 → ((pushMachine pushQt sessionHashes idleHandlers).run pushServer
      bobAfterAlice).thread c = {} := by
    intro c hc
    have hconnections : ∀ op ∈ bobAfterAlice, op.connection = some 0 ∨ op.connection = none := by
      decide +kernel
    unfold PushServer.thread
    rw [pushRun_others]
    · rfl
    · intro op hop heq
      rcases hconnections op hop with hzero | hnone
      · rw [hzero, Option.some.injEq] at heq
        exact hc heq.symm
      · rw [hnone] at heq
        cases heq
  have hdelivered : Delivered ((pushMachine pushQt sessionHashes idleHandlers).run pushServer
      bobAfterAlice) := by
    refine ⟨List.isEmpty_iff.mp hqueue, fun c => ?_⟩
    by_cases hc : c = 0
    · subst hc
      exact List.isEmpty_iff.mp hzero
    · rw [hothers c hc]
  have hhanded : 0 ∈ ((pushMachine pushQt sessionHashes idleHandlers).run pushServer
      bobAfterAlice).mailbox.state.handlersOf 1 := by
    decide +kernel
  have hbob : (((pushMachine pushQt sessionHashes idleHandlers).run pushServer
      bobAfterAlice).thread 0).conn.authenticatedUserId = 2 := by
    decide +kernel
  have halice := ((h.last hdelivered).handlers 1 0 hhanded).user
  rw [hbob] at halice
  cases halice

end XYChat.Server
