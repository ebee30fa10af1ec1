import XYChat.Server.SessionSignals

/-!
# Sessions and the server's hashes

Each session is created by one connection for one user. As long as the signals
respect this, so do the server's hashes, and one signal registers or removes
just the session it is about. `Moved` says once what a step of the threads can
do; the arguments about push routing and about terminations start from it.
-/

namespace XYChat.Server

open XYChat.Lib XYChat.Lib.Prog

/-! ## The slots -/

/-- Which connection created a session, and for which user. -/
abbrev Issue := Int → Option (Nat × Int)

/-- The hashes agree with where the sessions come from. -/
structure Routing.Fits (issue : Issue) (r : Routing) : Prop where
  users : ∀ userId, ∀ sessionId ∈ (r.onlineSessions userId).getD [],
    ∃ handler, issue sessionId = some (handler, userId)
  handlers : ∀ sessionId handler, r.sessionHandlers sessionId = some handler →
    ∃ userId, issue sessionId = some (handler, userId)

/-- So does a signal: a login is emitted by the session's connection, a session,
one of those up to `last`, ends under the name of its user, and a handler that
finishes has none. -/
def SignalFits (issue : Issue) (last : Int) : Nat × Signal → Prop
  | (handler, .session (.userLoggedIn userId sessionId)) =>
      issue sessionId = some (handler, userId)
  | (_, .session (.userLoggedOut userId sessionId)) =>
      0 < sessionId ∧ sessionId ≤ last ∧
        ∀ handler userId', issue sessionId = some (handler, userId') → userId' = userId
  | (handler, .finished) => ∀ sessionId userId, issue sessionId ≠ some (handler, userId)
  | _ => True

section slots

variable {issue : Issue} {last : Int} {r : Routing} {handler h : Nat}
  {userId sessionId u i : Int}

theorem mem_setOnline {sessions : List Int} :
    i ∈ ((r.setOnline userId sessions).onlineSessions u).getD [] ↔
      (u = userId ∧ i ∈ sessions) ∨ (u ≠ userId ∧ i ∈ (r.onlineSessions u).getD []) := by
  unfold Routing.setOnline
  dsimp only
  by_cases hu : u = userId
  · subst hu
    rw [Function.update_self]
    by_cases hempty : sessions = []
    · simp [hempty]
    · simp [hempty]
  · rw [Function.update_of_ne hu]
    simp [hu]

/-! ### Logging in -/

theorem mem_onUserLoggedIn :
    i ∈ ((r.onUserLoggedIn handler userId sessionId).onlineSessions u).getD [] ↔
      (u = userId ∧ i = sessionId) ∨ i ∈ (r.onlineSessions u).getD [] := by
  unfold Routing.onUserLoggedIn
  dsimp only
  by_cases hu : u = userId
  · subst hu
    simp [Function.update_self]
  · simp [hu]

theorem registered_onUserLoggedIn (hfits : r.Fits issue)
    (hissue : issue sessionId = some (handler, userId)) :
    (r.onUserLoggedIn handler userId sessionId).Registered h u i ↔
      (h = handler ∧ u = userId ∧ i = sessionId) ∨ (r.Registered h u i ∧ i ≠ sessionId) := by
  unfold Routing.Registered
  rw [mem_onUserLoggedIn]
  show _ ∧ Function.update r.sessionHandlers sessionId (some handler) i = some h ↔ _
  by_cases hi : i = sessionId
  · subst hi
    rw [Function.update_self]
    constructor
    · rintro ⟨hmem, heq⟩
      cases heq
      rcases hmem with ⟨hu, _⟩ | hmem
      · exact .inl ⟨rfl, hu, rfl⟩
      · obtain ⟨handler', hissue'⟩ := hfits.users u i hmem
        rw [hissue] at hissue'
        cases hissue'
        exact .inl ⟨rfl, rfl, rfl⟩
    · rintro (⟨rfl, rfl, _⟩ | ⟨_, hne⟩)
      · exact ⟨.inl ⟨rfl, rfl⟩, rfl⟩
      · exact absurd rfl hne
  · rw [Function.update_of_ne hi]
    simp [hi]

/-! ### Logging out -/

theorem mem_onUserLoggedOut (hpos : 0 < sessionId) :
    i ∈ ((r.onUserLoggedOut userId sessionId).onlineSessions u).getD [] ↔
      i ∈ (r.onlineSessions u).getD [] ∧ (u = userId → i ≠ sessionId) := by
  unfold Routing.onUserLoggedOut
  rw [if_neg (by omega)]
  rw [mem_setOnline]
  by_cases hu : u = userId
  · subst hu
    simp
  · simp [hu]

theorem sessionHandlers_onUserLoggedOut (hpos : 0 < sessionId) :
    (r.onUserLoggedOut userId sessionId).sessionHandlers =
      Function.update r.sessionHandlers sessionId none := by
  unfold Routing.onUserLoggedOut
  rw [if_neg (by omega)]

theorem registered_onUserLoggedOut (hpos : 0 < sessionId) :
    (r.onUserLoggedOut userId sessionId).Registered h u i ↔ r.Registered h u i ∧ i ≠ sessionId := by
  unfold Routing.Registered
  rw [mem_onUserLoggedOut hpos, sessionHandlers_onUserLoggedOut hpos]
  by_cases hi : i = sessionId
  · subst hi
    simp [Function.update_self]
  · simp [hi]

/-! ### The end of a handler -/

theorem onHandlerFinished_mem :
    i ∈ ((r.onHandlerFinished handler).onlineSessions u).getD [] ↔
      i ∈ (r.onlineSessions u).getD [] ∧
        (r.handlerUsers handler = some u → r.sessionHandlers i ≠ some handler) := by
  unfold Routing.onHandlerFinished
  cases huser : r.handlerUsers handler with
  | none => simp
  | some last =>
      dsimp only
      cases honline : r.onlineSessions last with
      | none =>
          by_cases hu : u = last
          · subst hu
            simp [honline]
          · simp [Ne.symm hu]
      | some sessions =>
          dsimp only
          show i ∈ ((Routing.setOnline _ last _).onlineSessions u).getD [] ↔ _
          rw [mem_setOnline]
          by_cases hu : u = last
          · subst hu
            simp [honline]
          · simp [hu, Ne.symm hu]

/-- Only entries of the handler go. -/
theorem onHandlerFinished_handlers (hne : h ≠ handler) :
    (r.onHandlerFinished handler).sessionHandlers i = some h ↔ r.sessionHandlers i = some h := by
  unfold Routing.onHandlerFinished
  cases r.handlerUsers handler with
  | none => exact Iff.rfl
  | some last =>
      dsimp only
      cases r.onlineSessions last with
      | none => exact Iff.rfl
      | some sessions =>
          simp only [Option.filter_eq_some_iff]
          simp [hne]

theorem onHandlerFinished_handlers_of (h' : (r.onHandlerFinished handler).sessionHandlers i = some h) :
    r.sessionHandlers i = some h := by
  unfold Routing.onHandlerFinished at h'
  cases huser : r.handlerUsers handler with
  | none =>
      rw [huser] at h'
      exact h'
  | some last =>
      rw [huser] at h'
      dsimp only at h'
      cases honline : r.onlineSessions last with
      | none =>
          rw [honline] at h'
          exact h'
      | some sessions =>
          rw [honline] at h'
          exact (Option.filter_eq_some_iff.mp h').1

/-- What stays registered was. -/
theorem registered_onHandlerFinished (h' : (r.onHandlerFinished handler).Registered h u i) :
    r.Registered h u i :=
  ⟨(onHandlerFinished_mem.mp h'.1).1, onHandlerFinished_handlers_of h'.2⟩

theorem registered_of_otherFinished (hne : h ≠ handler) (h' : r.Registered h u i) :
    (r.onHandlerFinished handler).Registered h u i := by
  refine ⟨onHandlerFinished_mem.mpr ⟨h'.1, fun _ heq => ?_⟩,
    (onHandlerFinished_handlers hne).mpr h'.2⟩
  rw [h'.2, Option.some.injEq] at heq
  exact hne heq

/-! ### The other slots -/

@[simp] theorem registered_onMessageForUser (push : Push) :
    (r.onMessageForUser push).Registered h u i ↔ r.Registered h u i := Iff.rfl

theorem registered_onSessionTerminated :
    (r.onSessionTerminated sessionId).Registered h u i ↔ r.Registered h u i := by
  unfold Routing.onSessionTerminated
  split <;> exact Iff.rfl

theorem onSessionTerminated_hashes :
    (r.onSessionTerminated sessionId).onlineSessions = r.onlineSessions ∧
      (r.onSessionTerminated sessionId).sessionHandlers = r.sessionHandlers := by
  unfold Routing.onSessionTerminated
  split <;> exact ⟨rfl, rfl⟩

/-! ### All slots -/

/-- **Fitting signals** keep the hashes fitting. -/
theorem Routing.Fits.slot {x : Nat × Signal} (hfits : r.Fits issue) (hx : SignalFits issue last x) :
    (r.slot x).Fits issue := by
  obtain ⟨handler, x⟩ := x
  cases x with
  | messageForUser push => exact ⟨hfits.users, hfits.handlers⟩
  | finished =>
      refine ⟨fun u i hi => hfits.users u i (onHandlerFinished_mem.mp hi).1, fun i h hh => ?_⟩
      exact hfits.handlers i h (onHandlerFinished_handlers_of hh)
  | session signal =>
      cases signal with
      | sessionTerminated sessionId =>
          obtain ⟨honline, hhandlers⟩ : (r.onSessionTerminated sessionId).onlineSessions = _ ∧ _ :=
            onSessionTerminated_hashes
          constructor
          · show ∀ u, ∀ i ∈ ((r.onSessionTerminated sessionId).onlineSessions u).getD [], _
            rw [honline]
            exact hfits.users
          · show ∀ i h, (r.onSessionTerminated sessionId).sessionHandlers i = some h → _
            rw [hhandlers]
            exact hfits.handlers
      | userLoggedIn userId sessionId =>
          have hissue : issue sessionId = some (handler, userId) := hx
          refine ⟨fun u i hi => ?_, fun i h hh => ?_⟩
          · rcases mem_onUserLoggedIn.mp hi with ⟨rfl, rfl⟩ | hi
            · exact ⟨handler, hissue⟩
            · exact hfits.users u i hi
          · have hh : Function.update r.sessionHandlers sessionId (some handler) i = some h := hh
            by_cases hi : i = sessionId
            · subst hi
              rw [Function.update_self, Option.some.injEq] at hh
              subst hh
              exact ⟨userId, hissue⟩
            · rw [Function.update_of_ne hi] at hh
              exact hfits.handlers i h hh
      | userLoggedOut userId sessionId =>
          have hpos : 0 < sessionId := hx.1
          refine ⟨fun u i hi => hfits.users u i ((mem_onUserLoggedOut hpos).mp hi).1,
            fun i h hh => ?_⟩
          have hh : (r.onUserLoggedOut userId sessionId).sessionHandlers i = some h := hh
          rw [sessionHandlers_onUserLoggedOut hpos] at hh
          by_cases hi : i = sessionId
          · subst hi
            rw [Function.update_self] at hh
            cases hh
          · rw [Function.update_of_ne hi] at hh
            exact hfits.handlers i h hh

/-- What is registered after a signal of another connection was before. -/
theorem Routing.Fits.slot_other {x : Nat × Signal} (hfits : r.Fits issue)
    (hx : SignalFits issue last x) (hne : h ≠ x.1) (h' : (r.slot x).Registered h u i) :
    r.Registered h u i := by
  obtain ⟨handler, x⟩ := x
  cases x with
  | messageForUser push => exact h'
  | finished => exact registered_onHandlerFinished h'
  | session signal =>
      cases signal with
      | sessionTerminated sessionId => exact registered_onSessionTerminated.mp h'
      | userLoggedIn userId sessionId =>
          rcases (registered_onUserLoggedIn hfits hx).mp h' with ⟨rfl, _⟩ | ⟨hold, _⟩
          · exact absurd rfl hne
          · exact hold
      | userLoggedOut userId sessionId => exact ((registered_onUserLoggedOut hx.1).mp h').1

/-- A handler that finishes has nothing registered. -/
theorem Routing.Fits.unregistered (hfits : r.Fits issue)
    (hx : SignalFits issue last (h, .finished)) : ¬r.Registered h u i := by
  intro hreg
  obtain ⟨userId, hissue⟩ := hfits.handlers i h hreg.2
  exact hx i userId hissue

end slots

theorem fits_run {issue : Issue} {last : Int} {r : Routing} {xs : List (Nat × Signal)}
    (hfits : r.Fits issue)
    (hxs : ∀ x ∈ xs, SignalFits issue last x) : (routing.run r xs).Fits issue := by
  induction xs generalizing r with
  | nil => exact hfits
  | cons x xs ih =>
      exact ih (hfits.slot (hxs x List.mem_cons_self)) fun y hy => hxs y (List.mem_cons_of_mem _ hy)

theorem fits_start (issue : Issue) : Routing.Fits issue {} :=
  ⟨fun _ _ h => by simp at h, fun _ _ h => by cases h⟩

/-! ## The threads -/

/-- A handler's program ends with its thread's next state, having told the
server what it has done. -/
def endsThread (t : SessionGhost) (k : HandlerThread) : Prop :=
  ∃ o, k = t.thread.after o ∧ Tells t o

/-- The handler has finished: it says so or has said so. -/
def PushServer.Finishes (s : PushServer) (c : Nat) : Prop :=
  Signal.finished ∈ (s.thread c).outbox ∨ (c, Signal.finished) ∈ s.mailbox.posted

/-- The sessions of connections, handlers, signals and hashes are those their
connections created for their users. -/
structure Coherent (issue : Issue) (g : Nat → SessionGhost) (s : PushServer) : Prop where
  guarded : s.pool.Guarded sessionProtocol endsThread g
  busy : ∀ c, (s.pool.workers c).running.isSome → (g c).thread = s.thread c ∧
    (s.thread c).state = .running ∧ (s.thread c).outbox = []
  mailbox : s.mailbox.Sound routing {}
  known : ∀ sessionId x, issue sessionId = some x → sessionId ≤ s.pool.store.sessions.lastId
  rows : ∀ row ∈ s.pool.store.sessions.rows, ∀ handler userId,
    issue row.id = some (handler, userId) → userId = row.userId
  created : ∀ c sessionId userId, (g c).created = some (sessionId, userId) →
    0 < sessionId ∧ issue sessionId = some (c, userId)
  found : ∀ c sessionId userId, (g c).found = some (sessionId, userId) →
    0 < sessionId ∧ sessionId ≤ s.pool.store.sessions.lastId ∧
      ∀ handler userId', issue sessionId = some (handler, userId') → userId' = userId
  current : ∀ c, (s.thread c).conn.currentSessionId ≠ 0 →
    0 < (s.thread c).conn.currentSessionId ∧
      issue (s.thread c).conn.currentSessionId = some (c, (s.thread c).conn.authenticatedUserId)
  outboxes : ∀ c, ∀ x ∈ (s.thread c).outbox, SignalFits issue s.pool.store.sessions.lastId (c, x)
  posted : ∀ x ∈ s.mailbox.posted, SignalFits issue s.pool.store.sessions.lastId x
  finished : ∀ c, s.Finishes c → (s.thread c).state = .ended
  absent : ∀ c, (s.thread c).state = .absent → (s.thread c).outbox = []
  unissued : ∀ c, (s.thread c).state = .absent → ∀ sessionId userId,
    issue sessionId ≠ some (c, userId)
  accepted : ∀ c, (s.thread c).state ≠ .absent → c ∈ s.accepted

/-- A running `TerminateSession` handler has deleted the session. -/
def Owes (g : Nat → SessionGhost) (s : PushServer) (sessionId : Int) : Prop :=
  ∃ c, (s.pool.workers c).running.isSome ∧ (g c).thread.serving = some .terminateSession ∧
    (g c).removed = some sessionId

/-- What a step does to the threads and to what they have posted. -/
inductive Moved (s : PushServer) (op : PushOp) (s' : PushServer) : Prop where
  | quiet (threads : ∀ c, ∃ serving, s'.thread c = { s.thread c with serving })
      (posted : s'.mailbox.posted = s.mailbox.posted)
  | accepted (c : Nat) (peerAddress : String) (state : (s.thread c).state = .absent)
      (threads : s'.thread =
        Function.update s.thread c { conn := { peerAddress }, state := .running })
      (posted : s'.mailbox.posted = s.mailbox.posted)
  | failed (c : Nat) (state : (s.thread c).state = .absent)
      (threads : s'.thread =
        Function.update s.thread c { state := .ended, outbox := [.finished] })
      (posted : s'.mailbox.posted = s.mailbox.posted)
  | answered (c : Nat) (t : SessionGhost) (o : Outcome) (label : op = .statement c)
      (running : (s.pool.workers c).running = some (.ret ((s.thread c).after o)))
      (thread : t.thread = s.thread c) (state : (s.thread c).state = .running)
      (outbox : (s.thread c).outbox = [])
      (tells : Tells t o) (threads : s'.thread = Function.update s.thread c ((s.thread c).after o))
      (posted : s'.mailbox.posted = s.mailbox.posted)
  | emitted (c : Nat) (x : Signal) (rest : List Signal) (label : op = .emit c)
      (outbox : (s.thread c).outbox = x :: rest)
      (threads : s'.thread = Function.update s.thread c { s.thread c with outbox := rest })
      (posted : s'.mailbox.posted = s.mailbox.posted ++ [(c, x)])
  | closed (c : Nat) (label : op = .disconnect c) (ready : s.ready c = true)
      (threads : s'.thread = Function.update s.thread c (s.thread c).close)
      (posted : s'.mailbox.posted = s.mailbox.posted)

/-- What `TerminateSession` deletes it tells the server, sooner or later. -/
structure Debts (g g' : Nat → SessionGhost) (s s' : PushServer) : Prop where
  owes : ∀ sessionId, Owes g s sessionId → Owes g' s' sessionId ∨
    ∃ c, Signal.session (.sessionTerminated sessionId) ∈ (s'.thread c).outbox
  cut : ∀ h, ∀ sessionId ∈ s'.cut h, sessionId ∈ s.cut h ∨
    (Owes g' s' sessionId ∧ (s.thread h).state = .running)

section steps

variable {issue : Issue} {g : Nat → SessionGhost} {s s' : PushServer} {c : Nat}

theorem thread_of_pool {t : HandlerThread} (hpool : s'.pool = (s.setThread c t).pool) :
    s'.thread = Function.update s.thread c t := by
  funext c'
  unfold PushServer.thread
  rw [hpool]
  show (Function.update s.pool.workers c _ c').here = _
  by_cases hc : c' = c
  · subst hc
    rw [Function.update_self, Function.update_self]
  · rw [Function.update_of_ne hc, Function.update_of_ne hc]

theorem running_of_pool {t : HandlerThread} (hpool : s'.pool = (s.setThread c t).pool) (c' : Nat) :
    (s'.pool.workers c').running = (s.pool.workers c').running := by
  rw [hpool]
  show (Function.update s.pool.workers c _ c').running = _
  by_cases hc : c' = c
  · subst hc
    rw [Function.update_self]
  · rw [Function.update_of_ne hc]

/-- A handler runs on an open connection that has nothing to emit. -/
theorem Coherent.idle (h : Coherent issue g s)
    (hstate : (s.thread c).state ≠ .running ∨ (s.thread c).outbox ≠ []) :
    (s.pool.workers c).running = none := by
  cases hrunning : (s.pool.workers c).running with
  | none => rfl
  | some prog =>
      obtain ⟨_, hrun, hempty⟩ := h.busy c (by rw [hrunning]; rfl)
      exact absurd hstate (by simp [hrun, hempty])

/-- One connection gets another thread, and no handler is started. -/
private theorem Coherent.replace {t : HandlerThread} (h : Coherent issue g s)
    (hguarded : s'.pool.Guarded sessionProtocol endsThread g)
    (hbusy : ∀ c', (s'.pool.workers c').running.isSome →
      c' ≠ c ∧ (s.pool.workers c').running.isSome)
    (hthread : s'.thread = Function.update s.thread c t)
    (hsessions : s'.pool.store.sessions = s.pool.store.sessions)
    (hmailbox : s'.mailbox.Sound routing {})
    (hcurrent : t.conn.currentSessionId ≠ 0 → 0 < t.conn.currentSessionId ∧
      issue t.conn.currentSessionId = some (c, t.conn.authenticatedUserId))
    (houtbox : ∀ x ∈ t.outbox, SignalFits issue s.pool.store.sessions.lastId (c, x))
    (hposted : ∀ x ∈ s'.mailbox.posted, SignalFits issue s.pool.store.sessions.lastId x)
    (hfinished : ∀ c', s'.Finishes c' → s.Finishes c' ∨ (c' = c ∧ t.state = .ended))
    (hended : (s.thread c).state = .ended → t.state = .ended)
    (habsent : t.state ≠ .absent) (haccepted : c ∈ s'.accepted)
    (hothers : ∀ c' ∈ s.accepted, c' ∈ s'.accepted) : Coherent issue g s' := by
  refine ⟨hguarded, ?_, hmailbox, hsessions ▸ h.known, hsessions ▸ h.rows, h.created,
    hsessions ▸ h.found, ?_, ?_, hsessions ▸ hposted, ?_, ?_, ?_, ?_⟩
  · intro c' hb
    obtain ⟨hc, hb⟩ := hbusy c' hb
    rw [hthread, Function.update_of_ne hc]
    exact h.busy c' hb
  · intro c'
    rw [hthread]
    by_cases hc : c' = c
    · subst hc
      rw [Function.update_self]
      exact hcurrent
    · rw [Function.update_of_ne hc]
      exact h.current c'
  · intro c'
    rw [hthread, hsessions]
    by_cases hc : c' = c
    · subst hc
      rw [Function.update_self]
      exact houtbox
    · rw [Function.update_of_ne hc]
      exact h.outboxes c'
  · intro c' hfinishes
    rw [hthread]
    by_cases hc : c' = c
    · subst hc
      rw [Function.update_self]
      exact (hfinished c' hfinishes).elim (fun hold => hended (h.finished c' hold)) (·.2)
    · rw [Function.update_of_ne hc]
      exact h.finished c' ((hfinished c' hfinishes).resolve_right fun hnew => hc hnew.1)
  · intro c'
    rw [hthread]
    by_cases hc : c' = c
    · subst hc
      rw [Function.update_self]
      exact fun habs => absurd habs habsent
    · rw [Function.update_of_ne hc]
      exact h.absent c'
  · intro c'
    rw [hthread]
    by_cases hc : c' = c
    · subst hc
      rw [Function.update_self]
      exact fun habs => absurd habs habsent
    · rw [Function.update_of_ne hc]
      exact h.unissued c'
  · intro c'
    rw [hthread]
    by_cases hc : c' = c
    · subst hc
      exact fun _ => haccepted
    · rw [Function.update_of_ne hc]
      exact fun hstate => hothers c' (h.accepted c' hstate)

/-- A thread that is not busy changes, and may have posted something. -/
theorem Coherent.setThread {t : HandlerThread} (h : Coherent issue g s)
    (hpool : s'.pool = (s.setThread c t).pool) (hidle : (s.pool.workers c).running = none)
    (hmailbox : s'.mailbox.Sound routing {})
    (hcurrent : t.conn.currentSessionId ≠ 0 → 0 < t.conn.currentSessionId ∧
      issue t.conn.currentSessionId = some (c, t.conn.authenticatedUserId))
    (houtbox : ∀ x ∈ t.outbox, SignalFits issue s.pool.store.sessions.lastId (c, x))
    (hposted : ∀ x ∈ s'.mailbox.posted, SignalFits issue s.pool.store.sessions.lastId x)
    (hfinished : ∀ c', s'.Finishes c' → s.Finishes c' ∨ (c' = c ∧ t.state = .ended))
    (hended : (s.thread c).state = .ended → t.state = .ended)
    (habsent : t.state ≠ .absent) (haccepted : c ∈ s'.accepted)
    (hothers : ∀ c' ∈ s.accepted, c' ∈ s'.accepted) : Coherent issue g s' := by
  have hsessions : s'.pool.store.sessions = s.pool.store.sessions := by
    rw [hpool]
    rfl
  refine h.replace (hpool ▸ h.guarded.setHere) (fun c' hb => ?_) (thread_of_pool hpool) hsessions
    hmailbox hcurrent houtbox hposted hfinished hended habsent haccepted hothers
  rw [running_of_pool hpool] at hb
  refine ⟨?_, hb⟩
  rintro rfl
  rw [hidle] at hb
  cases hb

/-- A step that starts and ends no handler, and executes no statement. -/
theorem Debts.of_same (hrunning : ∀ c, (s'.pool.workers c).running = (s.pool.workers c).running)
    (hcut : s'.cut = s.cut) : Debts g g s s' where
  owes := by
    rintro sessionId ⟨c, hbusy, howes⟩
    exact .inl ⟨c, by rw [hrunning]; exact hbusy, howes⟩
  cut := by
    intro h sessionId hmem
    rw [hcut] at hmem
    exact .inl hmem

/-- What a step of the server leads to. Sessions stay whose they are. -/
def Leads (issue : Issue) (g : Nat → SessionGhost) (s : PushServer) (op : PushOp)
    (s' : PushServer) : Prop :=
  ∃ issue' g', Coherent issue' g' s' ∧
    (∀ sessionId x, issue sessionId = some x → issue' sessionId = some x) ∧ Moved s op s' ∧
    Debts g g' s s'

/-- Nothing has happened. -/
theorem Coherent.stays (h : Coherent issue g s) (op : PushOp) : Leads issue g s op s :=
  ⟨issue, g, h, fun _ _ hx => hx, .quiet (fun c => ⟨(s.thread c).serving, rfl⟩) rfl,
    .of_same (fun _ => rfl) rfl⟩

/-- Who finishes where a thread takes another state without posting anything. -/
theorem finishes_of_pool {t : HandlerThread} (hpool : s'.pool = (s.setThread c t).pool)
    (hmailbox : s'.mailbox = s.mailbox) {c' : Nat} (h : s'.Finishes c') :
    s.Finishes c' ∨ (c' = c ∧ Signal.finished ∈ t.outbox) := by
  unfold PushServer.Finishes at *
  rw [thread_of_pool hpool, hmailbox] at h
  by_cases hc : c' = c
  · subst hc
    rw [Function.update_self] at h
    exact h.symm.imp .inr fun hmem => ⟨rfl, hmem⟩
  · rw [Function.update_of_ne hc] at h
    exact .inl h

theorem accept_leads (h : Coherent issue g s) (qt : Qt) (hashes : Hashes) (other : OtherHandlers)
    (peerAddress : String) : Leads issue g s (.accept c peerAddress)
      (pushStep qt hashes other s (.accept c peerAddress)) := by
  show Leads issue g s _ (if _ then _ else _)
  split
  · rename_i hstate
    have hidle := h.idle (c := c) (.inl (by rw [hstate]; decide))
    refine ⟨issue, g, h.setThread rfl hidle h.mailbox (fun hne => absurd rfl hne)
        (fun x hx => by cases hx) h.posted (fun c' hfinishes => ?_) (fun hended => ?_) (by simp)
        (by simp) (fun c' hc' => by simp [hc']), fun _ _ hx => hx,
      .accepted c peerAddress hstate (thread_of_pool rfl) rfl, .of_same (running_of_pool rfl) rfl⟩
    · exact .inl ((finishes_of_pool rfl rfl hfinishes).resolve_right fun hnew => by cases hnew.2)
    · rw [hstate] at hended
      cases hended
  · exact h.stays _

/-- A handler that cannot start has no sessions. -/
theorem initFailed_leads (h : Coherent issue g s) (qt : Qt) (hashes : Hashes)
    (other : OtherHandlers) :
    Leads issue g s (.initFailed c) (pushStep qt hashes other s (.initFailed c)) := by
  show Leads issue g s _ (if _ then _ else _)
  split
  · rename_i hstate
    have hidle := h.idle (c := c) (.inl (by rw [hstate]; decide))
    refine ⟨issue, g, h.setThread rfl hidle h.mailbox (fun hne => absurd rfl hne) (fun x hx => ?_)
        h.posted (fun c' hfinishes => ?_) (fun _ => rfl) (by simp) (by simp)
        (fun c' hc' => by simp [hc']), fun _ _ hx => hx,
      .failed c hstate (thread_of_pool rfl) rfl, .of_same (running_of_pool rfl) rfl⟩
    · obtain rfl := List.mem_singleton.mp hx
      exact h.unissued c hstate
    · exact (finishes_of_pool rfl rfl hfinishes).imp_right fun hnew => ⟨hnew.1, rfl⟩
  · exact h.stays _

/-- An idle connection has nothing running and nothing to emit. -/
theorem ready_iff : s.ready c = true ↔
    (s.thread c).state = .running ∧ (s.pool.workers c).running = none ∧
      (s.thread c).outbox = [] := by
  simp [PushServer.ready, and_assoc]

theorem disconnect_leads (h : Coherent issue g s) (qt : Qt) (hashes : Hashes)
    (other : OtherHandlers) :
    Leads issue g s (.disconnect c) (pushStep qt hashes other s (.disconnect c)) := by
  show Leads issue g s _ (if _ then _ else _)
  split
  · rename_i hready
    obtain ⟨hstate, hidle, _⟩ := ready_iff.mp hready
    have hemits : ∀ x ∈ (s.thread c).close.outbox,
        SignalFits issue s.pool.store.sessions.lastId (c, x) ∧ x ≠ .finished := by
      intro x hx
      unfold HandlerThread.close at hx
      dsimp only at hx
      split at hx
      · rename_i hpos
        obtain rfl := List.mem_singleton.mp hx
        have hissue := (h.current c (by omega)).2
        refine ⟨⟨hpos, h.known _ _ hissue, fun handler userId hother => ?_⟩, by simp⟩
        rw [hissue] at hother
        cases hother
        rfl
      · cases hx
    exact ⟨issue, g, h.setThread rfl hidle h.mailbox (h.current c) (fun x hx => (hemits x hx).1)
        h.posted (fun c' hfinishes => (finishes_of_pool rfl rfl hfinishes).imp_right fun hnew =>
          absurd rfl (hemits _ hnew.2).2)
        (fun _ => rfl) (by simp [HandlerThread.close]) (h.accepted c (by rw [hstate]; decide))
        (fun _ hc' => hc'),
      fun _ _ hx => hx, .closed c rfl hready (thread_of_pool rfl) rfl,
      .of_same (running_of_pool rfl) rfl⟩
  · exact h.stays _

theorem emit_leads (h : Coherent issue g s) : Leads issue g s (.emit c) (s.emit c) := by
  unfold PushServer.emit
  cases houtbox : (s.thread c).outbox with
  | nil => exact h.stays _
  | cons x rest =>
      have hidle := h.idle (c := c) (.inr (by rw [houtbox]; simp))
      have hfits := h.outboxes c
      rw [houtbox] at hfits
      have hpresent : (s.thread c).state ≠ .absent := by
        intro habsent
        rw [h.absent c habsent] at houtbox
        cases houtbox
      refine ⟨issue, g, h.setThread rfl hidle (h.mailbox.post _) (h.current c)
          (fun y hy => hfits y (List.mem_cons_of_mem _ hy)) (fun y hy => ?_)
          (fun c' hfinishes => .inl ?_) id hpresent (h.accepted c hpresent) (fun _ hc' => hc'),
        fun _ _ hx => hx, .emitted c x rest rfl houtbox (thread_of_pool rfl) rfl,
        .of_same (running_of_pool rfl) rfl⟩
      · rcases List.mem_append.mp hy with hy | hy
        · exact h.posted y hy
        · rw [List.mem_singleton.mp hy]
          exact hfits x List.mem_cons_self
      · rcases hfinishes with hmem | hmem
        · have hmem : Signal.finished ∈
              ((s.setThread c { s.thread c with outbox := rest }).thread c').outbox := hmem
          rw [thread_of_pool (s := s) rfl] at hmem
          by_cases hc : c' = c
          · subst hc
            rw [Function.update_self] at hmem
            exact .inl (by rw [houtbox]; exact List.mem_cons_of_mem _ hmem)
          · rw [Function.update_of_ne hc] at hmem
            exact .inl hmem
        · rcases List.mem_append.mp hmem with hmem | hmem
          · exact .inr hmem
          · cases List.mem_singleton.mp hmem
            exact .inl (by rw [houtbox]; exact List.mem_cons_self)

theorem slot_leads (h : Coherent issue g s) (qt : Qt) (hashes : Hashes) (other : OtherHandlers) :
    Leads issue g s .slot (pushStep qt hashes other s .slot) := by
  refine ⟨issue, g, ?_, fun _ _ hx => hx,
    .quiet (fun c => ⟨(s.thread c).serving, rfl⟩) (Mailbox.posted_take ..),
    .of_same (fun _ => rfl) rfl⟩
  refine ⟨h.guarded, h.busy, h.mailbox.take, h.known, h.rows, h.created, h.found, h.current,
    h.outboxes, ?_, fun c' hfinishes => h.finished c' (hfinishes.imp_right fun hmem => ?_),
    h.absent, h.unissued, h.accepted⟩
  · show ∀ x ∈ (s.mailbox.take routing).posted, _
    rw [Mailbox.posted_take]
    exact h.posted
  · have hmem : (c', Signal.finished) ∈ (s.mailbox.take routing).posted := hmem
    rwa [Mailbox.posted_take] at hmem

/-- The time makes no difference to the sessions. -/
theorem tick_leads (h : Coherent issue g s) (qt : Qt) (hashes : Hashes) (other : OtherHandlers)
    (seconds : Nat) : Leads issue g s (.tick seconds) (pushStep qt hashes other s (.tick seconds)) :=
  ⟨issue, g,
    ⟨h.guarded.setStore fun _ _ => trivial, h.busy, h.mailbox, h.known, h.rows, h.created, h.found,
      h.current, h.outboxes, h.posted, h.finished, h.absent, h.unissued, h.accepted⟩,
    fun _ _ hx => hx, .quiet (fun c => ⟨(s.thread c).serving, rfl⟩) rfl,
    .of_same (fun _ => rfl) rfl⟩

theorem thread_start (s : PushServer) (nonces : NonceCache) (c : Nat)
    (prog : Prog ServerDb HandlerThread) :
    ({ s with pool := s.pool.start c prog, nonces } : PushServer).thread = s.thread := by
  funext c'
  show (Function.update s.pool.workers c _ c').here = (s.pool.workers c').here
  by_cases hc : c' = c
  · subst hc
    rw [Function.update_self]
  · rw [Function.update_of_ne hc]

/-- An idle connection starts a handler. -/
theorem Coherent.start {prog : Prog ServerDb HandlerThread} (h : Coherent issue g s)
    (nonces : NonceCache) (hstate : (s.thread c).state = .running)
    (houtbox : (s.thread c).outbox = [])
    (hfollows : Follows sessionProtocol endsThread { thread := s.thread c } prog) :
    Coherent issue (Function.update g c { thread := s.thread c })
      { s with pool := s.pool.start c prog, nonces } := by
  have hthread := thread_start s nonces c prog
  refine ⟨h.guarded.start trivial hfollows, fun c' hbusy => ?_, h.mailbox, h.known, h.rows, ?_, ?_,
    hthread ▸ h.current, hthread ▸ h.outboxes, h.posted, fun c' hfinishes => ?_,
    hthread ▸ h.absent, hthread ▸ h.unissued, hthread ▸ h.accepted⟩
  · rw [hthread]
    by_cases hc : c' = c
    · subst hc
      rw [Function.update_self]
      exact ⟨rfl, hstate, houtbox⟩
    · rw [Function.update_of_ne hc]
      have hbusy : (Function.update s.pool.workers c _ c').running.isSome := hbusy
      rw [Function.update_of_ne hc] at hbusy
      exact h.busy c' hbusy
  · intro c' sessionId userId hcreated
    by_cases hc : c' = c
    · subst hc
      rw [Function.update_self] at hcreated
      cases hcreated
    · rw [Function.update_of_ne hc] at hcreated
      exact h.created c' sessionId userId hcreated
  · intro c' sessionId userId hfound
    by_cases hc : c' = c
    · subst hc
      rw [Function.update_self] at hfound
      cases hfound
    · rw [Function.update_of_ne hc] at hfound
      exact h.found c' sessionId userId hfound
  · unfold PushServer.Finishes at hfinishes
    rw [hthread] at hfinishes ⊢
    exact h.finished c' hfinishes

/-- A packet starts its handler from the thread as it is. -/
theorem packet_leads (h : Coherent issue g s) (qt : Qt) (hashes : Hashes) (other : OtherHandlers)
    (packet : Packet) (random : Random) (wait : Nat) :
    Leads issue g s (.packet c packet random wait)
      (pushStep qt hashes other s (.packet c packet random wait)) := by
  show Leads issue g s _ (if _ then _ else _)
  split
  swap
  · exact h.stays _
  rename_i hready
  obtain ⟨hstate, hidle, houtbox⟩ := ready_iff.mp hready
  unfold PushServer.take
  dsimp only
  generalize hdecision : admission qt hashes (s.thread c).conn packet wait s.pool.store s.nonces =
    decision
  generalize hthread : ({ s.thread c with serving := decision.2.handler } : HandlerThread) = thread
  have hconn : thread.conn = (s.thread c).conn := by rw [← hthread]
  have hserving : thread.serving = decision.2.handler := by rw [← hthread]
  have hkept : thread.state = (s.thread c).state ∧ thread.outbox = (s.thread c).outbox := by
    rw [← hthread]
    exact ⟨rfl, rfl⟩
  -- first the thread notes what it serves, then the handler starts
  have hset : Coherent issue g (s.setThread c thread) := by
    refine h.setThread rfl hidle h.mailbox (by rw [hconn]; exact h.current c)
      (by rw [hkept.2]; exact h.outboxes c) h.posted (fun c' hfinishes => .inl ?_)
      (by rw [hkept.1]; exact id) (by rw [hkept.1, hstate]; decide)
      (h.accepted c (by rw [hstate]; decide)) (fun _ hc' => hc')
    refine (finishes_of_pool rfl rfl hfinishes).elim id fun hnew => ?_
    rw [hkept.2, houtbox] at hnew
    cases hnew.2
  have hserved : thread.serving =
      (admission qt hashes thread.conn packet wait s.pool.store s.nonces).2.handler := by
    rw [hconn, hdecision]
    exact hserving
  have htells := processAdmitted_tells qt hashes other random packet.requestId packet wait
    s.pool.store s.nonces hserved
  rw [hconn, hdecision] at htells
  have hfollows : Follows sessionProtocol endsThread { thread }
      (thread.after <$> processAdmitted qt hashes other random packet.requestId (s.thread c).conn
        decision.2) :=
    Follows.map ((htells.keep (I := fun t => t.thread = thread) rfl
      fun _ _ _ _ hstep hsame => hstep.thread.trans hsame).mono
        fun t o hends => ⟨o, by rw [hends.1], hends.2⟩)
  have hself : (s.setThread c thread).thread c = thread := by
    rw [thread_of_pool (s := s) rfl, Function.update_self]
  have hstart := hset.start (c := c) decision.1 (by rw [hself, hkept.1, hstate])
    (by rw [hself, hkept.2, houtbox]) (by rw [hself]; exact hfollows)
  rw [hself] at hstart
  refine ⟨issue, _, hstart, fun _ _ hx => hx, .quiet (fun c' => ?_) rfl, fun sessionId howes => ?_,
    fun h sessionId hmem => .inl hmem⟩
  · have hthreads := (thread_start (s.setThread c thread) decision.1 c
      (thread.after <$> processAdmitted qt hashes other random packet.requestId (s.thread c).conn
        decision.2)).trans (thread_of_pool (s := s) rfl)
    by_cases hc : c' = c
    · subst hc
      refine ⟨decision.2.handler, (congrFun hthreads c').trans ?_⟩
      rw [Function.update_self, hthread]
    · refine ⟨(s.thread c').serving, (congrFun hthreads c').trans ?_⟩
      rw [Function.update_of_ne hc]
  · obtain ⟨c', hbusy, howed⟩ := howes
    have hc : c' ≠ c := by
      rintro rfl
      rw [hidle] at hbusy
      cases hbusy
    refine .inl ⟨c', ?_, ?_⟩
    · have hkeeps : ((s.setThread c thread).pool.workers c').running =
          (s.pool.workers c').running := running_of_pool rfl c'
      show (Function.update (s.setThread c thread).pool.workers c _ c').running.isSome
      rw [Function.update_of_ne hc, hkeeps]
      exact hbusy
    · rw [Function.update_of_ne hc]
      exact howed

/-! ### Statements -/

/-- A signal keeps fitting when sessions are created after it. -/
theorem SignalFits.grow {issue' : Issue} {last last' : Int} {x : Nat × Signal}
    (hx : SignalFits issue last x) (hlast : last ≤ last')
    (hkept : ∀ sessionId y, issue sessionId = some y → issue' sessionId = some y)
    (hold : ∀ sessionId, sessionId ≤ last → issue' sessionId = issue sessionId)
    (hnew : x.2 = .finished → ∀ sessionId userId, issue' sessionId = some (x.1, userId) →
      issue sessionId = some (x.1, userId)) :
    SignalFits issue' last' x := by
  obtain ⟨handler, x⟩ := x
  cases x with
  | messageForUser push => trivial
  | finished => exact fun sessionId userId hissue => hx _ _ (hnew rfl _ _ hissue)
  | session signal =>
      cases signal with
      | sessionTerminated sessionId => trivial
      | userLoggedIn userId sessionId => exact hkept _ _ hx
      | userLoggedOut userId sessionId =>
          obtain ⟨hpos, hle, huser⟩ := hx
          refine ⟨hpos, Int.le_trans hle hlast, ?_⟩
          rw [hold sessionId hle]
          exact huser

/-- What the session tables and what is issued may become by a statement of
connection `c`. -/
structure Grows (c : Nat) (issue issue' : Issue) (db db' : ServerDb) : Prop where
  last : db.sessions.lastId ≤ db'.sessions.lastId
  kept : ∀ sessionId y, issue sessionId = some y → issue' sessionId = some y
  old : ∀ sessionId, sessionId ≤ db.sessions.lastId → issue' sessionId = issue sessionId
  new : ∀ sessionId y, issue' sessionId = some y → issue sessionId = some y ∨ y.1 = c

/-- A statement that creates a session issues it to its connection. -/
private theorem statement_issue {t' : SessionGhost} {db' : ServerDb} (h : Coherent issue g s)
    (hstep : SessionStatement (g c) s.pool.store db' t') :
    ∃ issue' : Issue, Grows c issue issue' s.pool.store db' ∧
      (∀ sessionId x, issue' sessionId = some x → sessionId ≤ db'.sessions.lastId) ∧
      (∀ row ∈ db'.sessions.rows, ∀ handler userId,
        issue' row.id = some (handler, userId) → userId = row.userId) ∧
      ∀ sessionId userId, t'.created = some (sessionId, userId) →
        0 < sessionId ∧ issue' sessionId = some (c, userId) := by
  have hrow : ∀ row ∈ s.pool.store.sessions.rows, row.id ≤ s.pool.store.sessions.lastId :=
    fun row hrow => (s.pool.store.sessions.bounded row hrow).2
  rcases hstep.created with ⟨hlast, hcreated⟩ | ⟨hlast, userId, hcreated⟩
  · -- nothing is created, so no row is new
    refine ⟨issue, ⟨hlast.ge, fun _ _ hy => hy, fun _ _ => rfl, fun _ _ => .inl⟩, hlast ▸ h.known,
      ?_, ?_⟩
    · intro row' hrow'
      rcases hstep.rows row' hrow' with ⟨row, hmem, hid, huser⟩ | ⟨hid, hnew⟩
      · rw [← hid, ← huser]
        exact h.rows row hmem
      · rw [hcreated] at hnew
        have hknown := h.known _ _ (h.created c _ _ hnew).2
        rw [hid] at hknown
        omega
    · rw [hcreated]
      exact h.created c
  · refine ⟨Function.update issue (s.pool.store.sessions.lastId + 1) (some (c, userId)), ?_, ?_, ?_,
      ?_⟩
    · refine ⟨by omega, fun sessionId y hy => ?_, fun sessionId hle => ?_, fun sessionId y hy => ?_⟩
      · have hknown := h.known sessionId y hy
        rw [Function.update_of_ne (by omega)]
        exact hy
      · exact Function.update_of_ne (by omega) ..
      · by_cases hid : sessionId = s.pool.store.sessions.lastId + 1
        · rw [hid, Function.update_self, Option.some.injEq] at hy
          rw [← hy]
          exact .inr rfl
        · rw [Function.update_of_ne hid] at hy
          exact .inl hy
    · intro sessionId x hx
      by_cases hid : sessionId = s.pool.store.sessions.lastId + 1
      · omega
      · rw [Function.update_of_ne hid] at hx
        have hknown := h.known _ _ hx
        omega
    · intro row' hrow' handler user hissue
      rcases hstep.rows row' hrow' with ⟨row, hmem, hid, huser⟩ | ⟨hid, hnew⟩
      · have hle := hrow row hmem
        rw [← hid, Function.update_of_ne (by omega)] at hissue
        rw [← huser]
        exact h.rows row hmem handler user hissue
      · rw [hid, Function.update_self] at hissue
        rw [hcreated, Option.some.injEq, Prod.mk.injEq] at hnew
        rw [Option.some.injEq, Prod.mk.injEq] at hissue
        exact hissue.2.symm.trans hnew.2
    · intro sessionId user hnew
      rw [hcreated] at hnew
      cases hnew
      have hnonneg := s.pool.store.sessions.lastId_nonneg
      exact ⟨by omega, Function.update_self ..⟩

/-- The same threads over a table of sessions that has grown. -/
private theorem Coherent.grow {issue' : Issue} {t' : SessionGhost} (h : Coherent issue g s)
    (hstep : SessionStatement (g c) s.pool.store s'.pool.store t')
    (hguarded : s'.pool.Guarded sessionProtocol endsThread (Function.update g c t'))
    (hrunning : ∀ c', (s'.pool.workers c').running.isSome → (s.pool.workers c').running.isSome)
    (hthread : s'.thread = s.thread) (hmailbox : s'.mailbox = s.mailbox)
    (haccepted : s'.accepted = s.accepted)
    (hbusy : (s.pool.workers c).running.isSome)
    (hgrows : Grows c issue issue' s.pool.store s'.pool.store)
    (hknown : ∀ sessionId x, issue' sessionId = some x →
      sessionId ≤ s'.pool.store.sessions.lastId)
    (hrows : ∀ row ∈ s'.pool.store.sessions.rows, ∀ handler userId,
      issue' row.id = some (handler, userId) → userId = row.userId)
    (hcreated : ∀ sessionId userId, t'.created = some (sessionId, userId) →
      0 < sessionId ∧ issue' sessionId = some (c, userId)) :
    Coherent issue' (Function.update g c t') s' := by
  have hrunningState := (h.busy c hbusy).2.1
  -- the connection the statement is of does not finish
  have hnew : ∀ c', s.Finishes c' → ∀ sessionId userId, issue' sessionId = some (c', userId) →
      issue sessionId = some (c', userId) := by
    intro c' hfinishes sessionId userId hissue
    refine (hgrows.new sessionId _ hissue).resolve_right fun hc => ?_
    have hended := h.finished c' hfinishes
    rw [show c' = c from hc, hrunningState] at hended
    cases hended
  refine ⟨hguarded, fun c' hbusy => ?_, hmailbox ▸ h.mailbox, hknown, hrows, ?_, ?_, ?_, ?_, ?_,
    ?_, hthread ▸ h.absent, ?_, ?_⟩
  · obtain ⟨hghost, hstate⟩ := h.busy c' (hrunning c' hbusy)
    rw [hthread]
    by_cases hc : c' = c
    · subst hc
      rw [Function.update_self]
      exact ⟨hstep.thread.trans hghost, hstate⟩
    · rw [Function.update_of_ne hc]
      exact ⟨hghost, hstate⟩
  · intro c' sessionId userId hnew
    by_cases hc : c' = c
    · subst hc
      rw [Function.update_self] at hnew
      exact hcreated sessionId userId hnew
    · rw [Function.update_of_ne hc] at hnew
      exact (h.created c' sessionId userId hnew).imp_right (hgrows.kept _ _)
  · intro c' sessionId userId hfound
    have hlast := hgrows.last
    have hold : (g c').found = some (sessionId, userId) → 0 < sessionId ∧
        sessionId ≤ s'.pool.store.sessions.lastId ∧ ∀ handler userId',
          issue' sessionId = some (handler, userId') → userId' = userId := by
      intro hfound
      obtain ⟨hpos, hle, huser⟩ := h.found c' sessionId userId hfound
      rw [hgrows.old sessionId hle]
      exact ⟨hpos, Int.le_trans hle hlast, huser⟩
    by_cases hc : c' = c
    · subst hc
      rw [Function.update_self] at hfound
      rcases hstep.found with hsame | ⟨row, hrow, hnew⟩
      · exact hold (hsame ▸ hfound)
      · rw [hnew] at hfound
        cases hfound
        have hbounds : 0 < row.id ∧ row.id ≤ s.pool.store.sessions.lastId :=
          s.pool.store.sessions.bounded row hrow
        rw [hgrows.old row.id hbounds.2]
        exact ⟨hbounds.1, Int.le_trans hbounds.2 hlast, h.rows row hrow⟩
    · rw [Function.update_of_ne hc] at hfound
      exact hold hfound
  · intro c' hcurrent
    rw [hthread] at hcurrent ⊢
    exact (h.current c' hcurrent).imp_right (hgrows.kept _ _)
  · intro c' x hx
    rw [hthread] at hx
    refine (h.outboxes c' x hx).grow hgrows.last hgrows.kept hgrows.old fun hfinished => ?_
    exact hnew c' (.inl (hfinished ▸ hx))
  · rintro ⟨c', x⟩ hx
    rw [hmailbox] at hx
    refine (h.posted _ hx).grow hgrows.last hgrows.kept hgrows.old fun hfinished => ?_
    cases hfinished
    exact hnew c' (.inr hx)
  · intro c' hfinishes
    unfold PushServer.Finishes at hfinishes
    rw [hthread, hmailbox] at hfinishes
    rw [hthread]
    exact h.finished c' hfinishes
  · intro c' habsent sessionId userId hissue
    rw [hthread] at habsent
    rcases hgrows.new sessionId _ hissue with hold | hc
    · exact h.unissued c' habsent sessionId userId hold
    · rw [show c' = c from hc, hrunningState] at habsent
      cases habsent
  · rw [hthread, haccepted]
    exact h.accepted

/-- What a session loses its row to: a statement of a handler that deletes it. -/
private theorem removed_of_lost {t' : SessionGhost} {db' : ServerDb} {sessionId : Int}
    (hstep : SessionStatement (g c) s.pool.store db' t')
    (hsome : (s.pool.store.sessions.get sessionId).isSome)
    (hnone : (db'.sessions.get sessionId).isNone) : t'.removed = some sessionId := by
  obtain ⟨row, hget⟩ := Option.isSome_iff_exists.mp hsome
  obtain ⟨hrow, hid⟩ := Table.get_eq_some.mp hget
  rcases hstep.lost row hrow with ⟨row', hrow', hid'⟩ | hremoved
  · have hnone := Table.get_eq_none.mp (Option.isNone_iff_eq_none.mp hnone) row' hrow'
    exact absurd (hid'.trans hid) hnone
  · have hid : row.id = sessionId := hid
    rw [hremoved, hid]

/-- Where no session goes, none is cut. -/
private theorem cut_of_same (hsessions : (s.statement c).pool.store.sessions = s.pool.store.sessions) :
    (s.statement c).cut = s.cut := by
  funext h
  unfold PushServer.statement at hsessions ⊢
  dsimp only at hsessions ⊢
  rw [if_neg]
  rintro ⟨_, hloses⟩
  unfold PushServer.losesSession at hloses
  rw [hsessions] at hloses
  cases hget : s.pool.store.sessions.get (s.thread h).conn.currentSessionId with
  | none => simp [hget] at hloses
  | some row => simp [hget] at hloses

/-- What the last statement of a request leaves for its thread to emit. -/
private theorem after_fits {o : Outcome} (h : Coherent issue g s)
    (hthread : (g c).thread = s.thread c) (hends : SessionEnd (g c) o) :
    (∀ x ∈ ((s.thread c).after o).outbox,
      SignalFits issue s.pool.store.sessions.lastId (c, x) ∧ x ≠ .finished) ∧
    (o.conn.currentSessionId ≠ 0 → 0 < o.conn.currentSessionId ∧
      issue o.conn.currentSessionId = some (c, o.conn.authenticatedUserId)) := by
  have hcurrent := h.current c
  rw [← hthread] at hcurrent
  have hsignals : (∀ signal ∈ o.signals,
      SignalFits issue s.pool.store.sessions.lastId (c, .session signal)) ∧
      (o.conn.currentSessionId ≠ 0 → 0 < o.conn.currentSessionId ∧
        issue o.conn.currentSessionId = some (c, o.conn.authenticatedUserId)) := by
    cases hends with
    | same user session signals =>
        rw [signals, user, session]
        exact ⟨by simp, hcurrent⟩
    | loggedIn userId sessionId pos created user session signals =>
        have hissue := h.created c sessionId userId created
        rw [signals, user, session]
        refine ⟨fun signal hsignal => ?_, fun _ => hissue⟩
        obtain rfl := List.mem_singleton.mp hsignal
        exact hissue.2
    | renewed sessionId pos serving created user session signals =>
        rw [signals, user, session]
        exact ⟨by simp, fun _ => h.created c _ _ created⟩
    | loggedOut current user session signals =>
        have hissue := (hcurrent current.ne').2
        rw [signals, session]
        refine ⟨fun signal hsignal => ?_, fun hne => absurd rfl hne⟩
        obtain rfl := List.mem_singleton.mp hsignal
        refine ⟨current, h.known _ _ hissue, fun handler userId hother => ?_⟩
        rw [hissue] at hother
        cases hother
        rfl
    | terminated sessionId found user session signals =>
        have hfound := h.found c _ _ found
        rw [signals, user, session]
        refine ⟨fun signal hsignal => ?_, hcurrent⟩
        rcases List.mem_cons.mp hsignal with rfl | hsignal
        · exact hfound
        · obtain rfl := List.mem_singleton.mp hsignal
          trivial
  refine ⟨fun x hx => ?_, hsignals.2⟩
  rcases List.mem_append.mp hx with hx | hx
  · obtain ⟨push, _, rfl⟩ := List.mem_map.mp hx
    exact ⟨trivial, by simp⟩
  · obtain ⟨signal, hsignal, rfl⟩ := List.mem_map.mp hx
    exact ⟨hsignals.1 signal hsignal, by simp⟩

/-- The end of a request. -/
private theorem answer_leads {k : HandlerThread} (h : Coherent issue g s)
    (hrunning : (s.pool.workers c).running = some (.ret k)) :
    Leads issue g s (.statement c) (s.statement c) := by
  obtain ⟨_, hfollows⟩ := h.guarded c _ hrunning
  obtain ⟨hghost, hstate, houtbox⟩ := h.busy c (by rw [hrunning]; rfl)
  have hends : endsThread (g c) k := follows_pure.mp hfollows
  obtain ⟨o, rfl, htells⟩ := hends
  rw [hghost] at hrunning
  have hadvance : s.pool.advance c = s.pool.setWorker c { here := (s.thread c).after o } := by
    unfold Pool.advance
    rw [hrunning]
  have hworkers : (s.statement c).pool.workers =
      Function.update s.pool.workers c { here := (s.thread c).after o } := by
    unfold PushServer.statement
    rw [hadvance]
    rfl
  have hsessions : (s.statement c).pool.store.sessions = s.pool.store.sessions := by
    unfold PushServer.statement
    rw [hadvance]
    rfl
  have hthread : (s.statement c).thread = Function.update s.thread c ((s.thread c).after o) := by
    funext c'
    unfold PushServer.thread
    rw [hworkers]
    by_cases hc : c' = c
    · subst hc
      rw [Function.update_self, Function.update_self]
      rfl
    · rw [Function.update_of_ne hc, Function.update_of_ne hc]
  have hguarded : (s.statement c).pool.Guarded sessionProtocol endsThread g := by
    unfold PushServer.statement
    rw [hadvance]
    exact Pool.Guarded.setStore (p := s.pool.setWorker c _) h.guarded.setWorker fun _ _ => trivial
  have hbusy : ∀ c', ((s.statement c).pool.workers c').running.isSome →
      c' ≠ c ∧ (s.pool.workers c').running.isSome := by
    intro c' hb
    rw [hworkers] at hb
    by_cases hc : c' = c
    · subst hc
      rw [Function.update_self] at hb
      cases hb
    · rw [Function.update_of_ne hc] at hb
      exact ⟨hc, hb⟩
  obtain ⟨hsignals, hcurrent⟩ := after_fits h hghost htells.ends
  refine ⟨issue, g, ?_, fun _ _ hx => hx, .answered c (g c) o rfl hrunning hghost
    hstate houtbox htells hthread rfl,
    fun sessionId howes => ?_, fun h' sessionId hmem => ?_⟩
  · refine h.replace hguarded hbusy hthread hsessions h.mailbox hcurrent
      (fun x hx => (hsignals x hx).1) h.posted (fun c' hfinishes => ?_) (fun hended => ?_)
      (fun habsent => ?_) (h.accepted c (by rw [hstate]; decide)) fun _ hc' => hc'
    · unfold PushServer.Finishes at hfinishes
      rw [hthread] at hfinishes
      by_cases hc : c' = c
      · subst hc
        rw [Function.update_self] at hfinishes
        rcases hfinishes with hmem | hmem
        · exact absurd rfl (hsignals _ hmem).2
        · exact .inl (.inr hmem)
      · rw [Function.update_of_ne hc] at hfinishes
        exact .inl hfinishes
    · rw [hstate] at hended
      cases hended
    · have habsent : (s.thread c).state = .absent := habsent
      rw [hstate] at habsent
      cases habsent
  · obtain ⟨c', hb, hserving, hremoved⟩ := howes
    by_cases hc : c' = c
    · subst hc
      refine .inr ⟨c', ?_⟩
      rw [hthread, Function.update_self]
      show _ ∈ o.pushes.map Signal.messageForUser ++ o.signals.map Signal.session
      rw [htells.owed hserving sessionId hremoved]
      simp
    · refine .inl ⟨c', ?_, hserving, hremoved⟩
      rw [hworkers, Function.update_of_ne hc]
      exact hb
  · rw [cut_of_same hsessions] at hmem
    exact .inl hmem

/-- **Statements.** A statement changes what is issued and what is owed, the last
one also the thread. -/
theorem statement_leads (h : Coherent issue g s) :
    Leads issue g s (.statement c) (s.statement c) := by
  cases hrunning : (s.pool.workers c).running with
  | none =>
      have hadvance : s.pool.advance c = s.pool := by
        unfold Pool.advance
        rw [hrunning]
      have hpool : (s.statement c).pool = s.pool := by
        unfold PushServer.statement
        rw [hadvance]
      have hcut := cut_of_same (s := s) (c := c) (by rw [hpool])
      have hsame : s.statement c = s := by
        have hfields : s.statement c =
            { s with pool := (s.statement c).pool, cut := (s.statement c).cut } := rfl
        rw [hfields, hpool, hcut]
      rw [hsame]
      exact h.stays _
  | some prog =>
    cases prog with
    | ret k => exact answer_leads h hrunning
    | stmt upd next =>
      obtain ⟨_, hfollows⟩ := h.guarded c _ hrunning
      obtain ⟨t', hstep, hnext⟩ := follows_stmt.mp hfollows s.pool.store trivial
      have hadvance : s.pool.advance c =
          { s.pool.setWorker c { s.pool.workers c with running := some (next s.pool.store) } with
            store := upd s.pool.store } := by
        unfold Pool.advance
        rw [hrunning]
      have hstep' : SessionStatement (g c) s.pool.store (s.statement c).pool.store t' := by
        unfold PushServer.statement
        rw [hadvance]
        exact { hstep with }
      have hworkers : (s.statement c).pool.workers = Function.update s.pool.workers c
          { s.pool.workers c with running := some (next s.pool.store) } := by
        unfold PushServer.statement
        rw [hadvance]
        rfl
      have hthread : (s.statement c).thread = s.thread := by
        funext c'
        unfold PushServer.thread
        rw [hworkers]
        by_cases hc : c' = c
        · subst hc
          rw [Function.update_self]
        · rw [Function.update_of_ne hc]
      have hbusy : ∀ c', ((s.statement c).pool.workers c').running.isSome ↔
          (s.pool.workers c').running.isSome := by
        intro c'
        rw [hworkers]
        by_cases hc : c' = c
        · subst hc
          rw [Function.update_self, hrunning]
          simp
        · rw [Function.update_of_ne hc]
      have hguarded : (s.statement c).pool.Guarded sessionProtocol endsThread
          (Function.update g c t') := by
        unfold PushServer.statement
        rw [hadvance]
        exact (h.guarded.step (fun _ _ _ => trivial) trivial hnext).setStore fun _ _ => trivial
      obtain ⟨issue', hgrows, hknown, hrows, hcreated⟩ := statement_issue h hstep'
      refine ⟨issue', _, h.grow hstep' hguarded (fun c' => (hbusy c').mp) hthread rfl rfl
        (by rw [hrunning]; rfl) hgrows hknown hrows hcreated, hgrows.kept,
        .quiet (fun c' => ⟨(s.thread c').serving, by rw [hthread]⟩) rfl, ?_,
        ?_⟩
      · rintro sessionId ⟨c', hb, hserving, hremoved⟩
        refine .inl ⟨c', (hbusy c').mpr hb, ?_⟩
        by_cases hc : c' = c
        · subst hc
          rw [Function.update_self]
          exact ⟨by rw [hstep.thread]; exact hserving, hstep.removed _ hremoved⟩
        · rw [Function.update_of_ne hc]
          exact ⟨hserving, hremoved⟩
      · intro c' sessionId hmem
        have hmem : sessionId ∈ if (s.thread c).serving = some .terminateSession ∧
            PushServer.losesSession s.pool.store (s.statement c).pool.store (s.thread c') = true
          then (s.thread c').conn.currentSessionId :: s.cut c' else s.cut c' := hmem
        split at hmem
        · rename_i hcut
          rcases List.mem_cons.mp hmem with rfl | hmem
          · obtain ⟨hserving, hloses⟩ := hcut
            simp only [PushServer.losesSession, Bool.and_eq_true, beq_iff_eq] at hloses
            refine .inr ⟨⟨c, (hbusy c).mpr (by rw [hrunning]; rfl), ?_, ?_⟩, hloses.1.1⟩
            · rw [Function.update_self, hstep.thread, (h.busy c (by rw [hrunning]; rfl)).1]
              exact hserving
            · rw [Function.update_self]
              exact removed_of_lost hstep' hloses.1.2 hloses.2
          · exact .inl hmem
        · exact .inl hmem

/-- **Step lemma.** -/
theorem pushStep_leads (h : Coherent issue g s) (qt : Qt) (hashes : Hashes) (other : OtherHandlers)
    (op : PushOp) : Leads issue g s op (pushStep qt hashes other s op) := by
  cases op with
  | accept c peerAddress => exact accept_leads h qt hashes other peerAddress
  | initFailed c => exact initFailed_leads h qt hashes other
  | packet c packet random wait => exact packet_leads h qt hashes other packet random wait
  | statement c => exact statement_leads h
  | emit c => exact emit_leads h
  | slot => exact slot_leads h qt hashes other
  | disconnect c => exact disconnect_leads h qt hashes other
  | tick seconds => exact tick_leads h qt hashes other seconds

end steps

/-- Nothing has been issued to anybody yet. -/
theorem PushServer.Started.coherent {s : PushServer} (h : s.Started) :
    Coherent (fun _ => none) (fun _ => { thread := {} }) s := by
  have hthread : ∀ c, s.thread c = {} := by
    intro c
    unfold PushServer.thread
    rw [h.idle c]
  refine ⟨fun c prog hrunning => ?_, fun c hbusy => ?_, ?_, by simp, by simp, by simp, by simp,
    fun c hne => ?_, fun c => ?_, ?_, fun c hfinishes => ?_, fun c _ => ?_, by simp,
    fun c hstate => ?_⟩
  · rw [h.idle c] at hrunning
    cases hrunning
  · rw [h.idle c] at hbusy
    cases hbusy
  · rw [h.mailbox]
    exact Mailbox.sound_start _
  · rw [hthread c] at hne
    exact absurd rfl hne
  · rw [hthread c]
    simp
  · rw [h.mailbox]
    simp
  · unfold PushServer.Finishes at hfinishes
    rw [hthread c, h.mailbox] at hfinishes
    rcases hfinishes with hmem | hmem <;> cases hmem
  · rw [hthread c]
  · rw [hthread c] at hstate
    exact absurd rfl hstate

/-! ## Other connections -/

/-- The connection a step is about. -/
def PushOp.connection : PushOp → Option Nat
  | .accept c _ => some c
  | .initFailed c => some c
  | .packet c _ _ _ => some c
  | .statement c => some c
  | .emit c => some c
  | .slot => none
  | .disconnect c => some c
  | .tick _ => none

/-- A step about one connection leaves the threads of the others alone. -/
theorem pushStep_others (qt : Qt) (hashes : Hashes) (other : OtherHandlers) (s : PushServer)
    {op : PushOp} {c : Nat} (hne : op.connection ≠ some c) :
    (pushStep qt hashes other s op).pool.workers c = s.pool.workers c := by
  have hset : ∀ c' t, c ≠ c' → (s.setThread c' t).pool.workers c = s.pool.workers c :=
    fun c' t hc => Function.update_of_ne hc ..
  cases op with
  | accept c' peerAddress =>
      have hc : c ≠ c' := fun heq => hne (by rw [heq]; rfl)
      unfold pushStep
      dsimp only
      split
      · exact hset c' _ hc
      · rfl
  | initFailed c' =>
      have hc : c ≠ c' := fun heq => hne (by rw [heq]; rfl)
      unfold pushStep
      dsimp only
      split
      · exact hset c' _ hc
      · rfl
  | packet c' packet random wait =>
      have hc : c ≠ c' := fun heq => hne (by rw [heq]; rfl)
      unfold pushStep
      dsimp only
      split
      · exact (Function.update_of_ne hc ..).trans (hset c' _ hc)
      · rfl
  | statement c' =>
      have hc : c ≠ c' := fun heq => hne (by rw [heq]; rfl)
      show (s.pool.advance c').workers c = _
      unfold Pool.advance
      split
      · rfl
      · exact Function.update_of_ne hc ..
      · exact Function.update_of_ne hc ..
  | emit c' =>
      have hc : c ≠ c' := fun heq => hne (by rw [heq]; rfl)
      show (s.emit c').pool.workers c = _
      unfold PushServer.emit
      split
      · exact hset c' _ hc
      · rfl
  | slot => rfl
  | disconnect c' =>
      have hc : c ≠ c' := fun heq => hne (by rw [heq]; rfl)
      unfold pushStep
      dsimp only
      split
      · exact hset c' _ hc
      · rfl
  | tick seconds => rfl

theorem pushRun_others (qt : Qt) (hashes : Hashes) (other : OtherHandlers) (s : PushServer)
    {ops : List PushOp} {c : Nat} (hne : ∀ op ∈ ops, op.connection ≠ some c) :
    ((pushMachine qt hashes other).run s ops).pool.workers c = s.pool.workers c := by
  induction ops generalizing s with
  | nil => rfl
  | cons op ops ih =>
      rw [Machine.run_cons, ih _ fun op' hop' => hne op' (List.mem_cons_of_mem _ hop')]
      exact pushStep_others qt hashes other s (hne op List.mem_cons_self)

end XYChat.Server
