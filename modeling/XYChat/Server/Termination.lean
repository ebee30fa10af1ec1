import XYChat.Server.PushRouting

/-!
# Terminating a session

`TerminateSession` tells the server that the session is logged out before it
tells it that the session was terminated. The first signal takes the session's
handler out of the hashes, so the second one finds it only if the session's own
login reaches the server in between; and a renewed session is never there.
-/

namespace XYChat.Server

open XYChat.Lib XYChat.Lib.Prog

/-! ## The property -/

/-- Everything is delivered, and no handler runs. -/
structure Quiescent (s : PushServer) : Prop extends Delivered s where
  idle : ∀ c, (s.pool.workers c).running = none

/-- A connection that is open, and whose current session was terminated, has
been told to disconnect; one that is open and logged in, and has not been told
so, is registered under its current session. -/
structure TerminationsCut (s : PushServer) : Prop where
  cut : ∀ c, (s.thread c).state = .running → s.cut c ≠ [] → c ∈ s.mailbox.state.disconnected
  registered : ∀ c, (s.thread c).state = .running → 0 < (s.thread c).conn.currentSessionId →
    c ∈ s.mailbox.state.disconnected ∨
      s.mailbox.state.Registered c (s.thread c).conn.authenticatedUserId
        (s.thread c).conn.currentSessionId

/-- What one more signal says about a session: whose login it was, or that it is
logged out. -/
def lastWord (sessionId : Int) (last : Option Nat) : Nat × Signal → Option Nat
  | (handler, .session (.userLoggedIn _ i)) => if i = sessionId then some handler else last
  | (_, .session (.userLoggedOut _ i)) => if i = sessionId then none else last
  | _ => last

/-- The handler whose login is the last that was posted about a session. -/
def lastLogin (sessionId : Int) (posted : List (Nat × Signal)) : Option Nat :=
  posted.foldl (lastWord sessionId) none

/-- A renewal does not give the connection another session. -/
def NotRenewed (s : PushServer) (c : Nat) (t : HandlerThread) : Prop :=
  (s.thread c).serving = some .tokenRenew →
    t.conn.currentSessionId = (s.thread c).conn.currentSessionId

/-- When it is posted that a session was terminated, the last that was posted
about it is its login by the open connection whose current session it is, or was
when it was deleted; unless that connection is being disconnected anyway. -/
def LoginLast (s : PushServer) : List Signal → Prop
  | .session (.sessionTerminated sessionId) :: _ =>
      ∀ h ∈ s.accepted, (s.thread h).state = .running →
        (sessionId ∈ s.cut h ∨ (s.thread h).conn.currentSessionId = sessionId) →
          h ∈ s.settled.disconnected ∨ lastLogin sessionId s.mailbox.posted = some h
  | _ => True

/-- The condition on a step. -/
def StepTerminates (s : PushServer) : PushOp → Prop
  | .statement c => AtAnswer NotRenewed s c (s.pool.workers c).running
  | .emit c => LoginLast s (s.thread c).outbox
  | _ => True

/-! ## The last word about a session -/

section slots

variable {issue : Issue} {last : Int} {r : Routing} {h : Nat} {u i : Int}

/-- A registered session stays so but for its logout. -/
theorem Routing.Fits.slot_keeps {x : Nat × Signal} (hfits : r.Fits issue)
    (hx : SignalFits issue last x) (hreg : r.Registered h u i)
    (hlogout : ∀ userId, x.2 ≠ .session (.userLoggedOut userId i)) :
    (r.slot x).Registered h u i := by
  obtain ⟨handler, x⟩ := x
  cases x with
  | messageForUser push => exact hreg
  | finished =>
      refine registered_of_otherFinished ?_ hreg
      rintro rfl
      exact hfits.unregistered hx hreg
  | session signal =>
      cases signal with
      | sessionTerminated sessionId => exact registered_onSessionTerminated.mpr hreg
      | userLoggedIn userId sessionId =>
          have hissue : issue sessionId = some (handler, userId) := hx
          refine (registered_onUserLoggedIn hfits hissue).mpr ?_
          by_cases hi : i = sessionId
          · -- the session's one login
            subst hi
            obtain ⟨handler', huser⟩ := hfits.users u i hreg.1
            obtain ⟨userId', hhandler⟩ := hfits.handlers i h hreg.2
            rw [hissue] at huser hhandler
            cases huser
            cases hhandler
            exact .inl ⟨rfl, rfl, rfl⟩
          · exact .inr ⟨hreg, hi⟩
      | userLoggedOut userId sessionId =>
          refine (registered_onUserLoggedOut hx.1).mpr ⟨hreg, ?_⟩
          rintro rfl
          exact hlogout userId rfl

/-- A handler that was told to disconnect has been told so for good. -/
theorem mem_disconnected_slot {x : Nat × Signal} (hmem : h ∈ r.disconnected) :
    h ∈ (r.slot x).disconnected := by
  obtain ⟨handler, x⟩ := x
  cases x with
  | messageForUser push => exact hmem
  | finished =>
      show h ∈ (r.onHandlerFinished handler).disconnected
      unfold Routing.onHandlerFinished
      split
      · exact hmem
      · dsimp only
        split <;> exact hmem
  | session signal =>
      cases signal with
      | userLoggedIn userId sessionId => exact hmem
      | userLoggedOut userId sessionId =>
          show h ∈ (r.onUserLoggedOut userId sessionId).disconnected
          unfold Routing.onUserLoggedOut
          split <;> exact hmem
      | sessionTerminated sessionId =>
          show h ∈ (r.onSessionTerminated sessionId).disconnected
          unfold Routing.onSessionTerminated
          split
          · exact hmem
          · exact List.mem_append.mpr (.inl hmem)

/-- The termination of a session disconnects its handler. -/
theorem disconnected_of_terminated (hhandler : r.sessionHandlers i = some h) :
    h ∈ (r.onSessionTerminated i).disconnected := by
  unfold Routing.onSessionTerminated
  rw [hhandler]
  simp

/-- One more signal: the hashes follow the last word. -/
private theorem lastWord_handlers {x : Nat × Signal} {word : Option Nat}
    (hx : SignalFits issue last x) (hfinished : x ≠ (h, .finished))
    (hword : word = some h → r.sessionHandlers i = some h) (hlast : lastWord i word x = some h) :
    (r.slot x).sessionHandlers i = some h := by
  obtain ⟨handler, x⟩ := x
  cases x with
  | messageForUser push => exact hword hlast
  | finished =>
      exact (onHandlerFinished_handlers fun heq => hfinished (by rw [heq])).mpr (hword hlast)
  | session signal =>
      cases signal with
      | sessionTerminated sessionId =>
          show (r.onSessionTerminated sessionId).sessionHandlers i = some h
          rw [onSessionTerminated_hashes.2]
          exact hword hlast
      | userLoggedIn userId sessionId =>
          show Function.update r.sessionHandlers sessionId (some handler) i = some h
          have hlast : (if sessionId = i then some handler else word) = some h := hlast
          by_cases hi : sessionId = i
          · subst hi
            rw [if_pos rfl] at hlast
            rw [Function.update_self, hlast]
          · rw [if_neg hi] at hlast
            rw [Function.update_of_ne (Ne.symm hi)]
            exact hword hlast
      | userLoggedOut userId sessionId =>
          show (r.onUserLoggedOut userId sessionId).sessionHandlers i = some h
          have hlast : (if sessionId = i then none else word) = some h := hlast
          by_cases hi : sessionId = i
          · rw [if_pos hi] at hlast
            cases hlast
          · rw [if_neg hi] at hlast
            rw [sessionHandlers_onUserLoggedOut hx.1, Function.update_of_ne (Ne.symm hi)]
            exact hword hlast

/-- **The last word.** A session whose last word is its login by a handler that
has not ended is served by it. -/
theorem handlers_of_lastLogin {posted : List (Nat × Signal)}
    (hposted : ∀ x ∈ posted, SignalFits issue last x) (hfinished : (h, Signal.finished) ∉ posted)
    (hlast : lastLogin i posted = some h) :
    (routing.run {} posted).sessionHandlers i = some h := by
  induction posted using List.reverseRecOn generalizing h with
  | nil => cases hlast
  | append_singleton xs x ih =>
      unfold lastLogin at hlast
      rw [List.foldl_append] at hlast
      rw [Machine.run_append]
      refine lastWord_handlers (hposted x (by simp)) ?_ (fun hword => ?_) hlast
      · rintro rfl
        simp at hfinished
      · refine ih (fun y hy => hposted y (List.mem_append.mpr (.inl hy))) (fun hmem => ?_) hword
        exact hfinished (List.mem_append.mpr (.inl hmem))

end slots

/-! ## The invariant -/

/-- It is still to be posted that the session was terminated. -/
def PushServer.WillTell (s : PushServer) (sessionId : Int) : Prop :=
  ∃ c, Signal.session (.sessionTerminated sessionId) ∈ (s.thread c).outbox

/-- The hashes when everything posted is taken up. -/
abbrev PushServer.caughtUp (s : PushServer) : Routing := routing.run {} s.mailbox.posted

/-- A terminated session's connection has been told to disconnect or will be,
and the current session of an open connection is registered or will be, unless
the connection is told to disconnect. A session that is logged out is terminated
as well, or no longer the current one of its connection. -/
structure Accounted (issue : Issue) (g : Nat → SessionGhost) (s : PushServer) : Prop where
  fresh : ∀ c, (s.thread c).state = .absent → s.cut c = []
  cut : ∀ c, (s.thread c).state = .running → ∀ sessionId ∈ s.cut c,
    c ∈ s.caughtUp.disconnected ∨ Owes g s sessionId ∨ s.WillTell sessionId
  registered : ∀ c, (s.thread c).state = .running → 0 < (s.thread c).conn.currentSessionId →
    c ∈ s.caughtUp.disconnected ∨
      Signal.session (.userLoggedIn (s.thread c).conn.authenticatedUserId
        (s.thread c).conn.currentSessionId) ∈ (s.thread c).outbox ∨
      s.caughtUp.Registered c (s.thread c).conn.authenticatedUserId
        (s.thread c).conn.currentSessionId ∨
      s.WillTell (s.thread c).conn.currentSessionId
  ends : ∀ c userId sessionId rest,
    Signal.session (.userLoggedOut userId sessionId) :: rest <:+ (s.thread c).outbox →
      Signal.session (.sessionTerminated sessionId) ∈ rest ∨
        ((∃ userId', issue sessionId = some (c, userId')) ∧
          ((s.thread c).state = .running → (s.thread c).conn.currentSessionId ≠ sessionId))

section accounted

variable {issue issue' : Issue} {g g' : Nat → SessionGhost} {s s' : PushServer} {op : PushOp}

/-- What a step does to the thread of one connection. -/
inductive Turned (s : PushServer) (op : PushOp) (s' : PushServer) (c : Nat) : Prop where
  | same (conn : (s'.thread c).conn = (s.thread c).conn)
      (state : (s'.thread c).state = (s.thread c).state)
      (outbox : (s'.thread c).outbox = (s.thread c).outbox)
  | accepted (state : (s.thread c).state = .absent) (running : (s'.thread c).state = .running)
      (session : (s'.thread c).conn.currentSessionId = 0) (outbox : (s'.thread c).outbox = [])
  | answered (t : SessionGhost) (o : Outcome) (running : (s.thread c).state = .running)
      (empty : (s.thread c).outbox = []) (thread : t.thread = s.thread c) (ends : SessionEnd t o)
      (after : s'.thread c = (s.thread c).after o) (renewed : NotRenewed s c ((s.thread c).after o))
  | emitted (x : Signal) (label : op = .emit c)
      (posted : s'.mailbox.posted = s.mailbox.posted ++ [(c, x)])
      (conn : (s'.thread c).conn = (s.thread c).conn)
      (state : (s'.thread c).state = (s.thread c).state)
      (outbox : (s.thread c).outbox = x :: (s'.thread c).outbox)
  | closed (running : (s.thread c).state = .running) (empty : (s.thread c).outbox = [])
      (after : s'.thread c = (s.thread c).close)
  | failed (state : (s.thread c).state = .absent) (ended : (s'.thread c).state = .ended)
      (outbox : (s'.thread c).outbox = [.finished])

theorem Moved.turned (hmoved : Moved s op s') (hop : StepTerminates s op) (c : Nat) :
    Turned s op s' c := by
  have hother : ∀ c' t, s'.thread = Function.update s.thread c' t → c ≠ c' →
      Turned s op s' c := by
    intro c' t threads hc
    have hthread : s'.thread c = s.thread c := by rw [threads, Function.update_of_ne hc]
    exact .same (by rw [hthread]) (by rw [hthread]) (by rw [hthread])
  cases hmoved with
  | quiet threads posted =>
      obtain ⟨serving, hthread⟩ := threads c
      exact .same (by rw [hthread]) (by rw [hthread]) (by rw [hthread])
  | accepted c' peerAddress state threads posted =>
      by_cases hc : c = c'
      · subst hc
        have hthread : s'.thread c = { conn := { peerAddress }, state := .running } := by
          rw [threads, Function.update_self]
        exact .accepted state (by rw [hthread]) (by rw [hthread]) (by rw [hthread])
      · exact hother c' _ threads hc
  | answered c' t o label running thread state outbox tells threads posted =>
      by_cases hc : c = c'
      · subst hc
        subst label
        have hanswer : AtAnswer NotRenewed s c (s.pool.workers c).running := hop
        rw [running] at hanswer
        exact .answered t o state outbox thread tells.ends (by rw [threads, Function.update_self])
          hanswer
      · exact hother c' _ threads hc
  | emitted c' x rest label outbox threads posted =>
      by_cases hc : c = c'
      · subst hc
        have hthread : s'.thread c = { s.thread c with outbox := rest } := by
          rw [threads, Function.update_self]
        exact .emitted x label posted (by rw [hthread]) (by rw [hthread]) (by rw [hthread, outbox])
      · exact hother c' _ threads hc
  | closed c' label ready threads posted =>
      by_cases hc : c = c'
      · subst hc
        obtain ⟨state, _, outbox⟩ := ready_iff.mp ready
        exact .closed state outbox (by rw [threads, Function.update_self])
      · exact hother c' _ threads hc
  | failed c' state threads posted =>
      by_cases hc : c = c'
      · subst hc
        have hthread : s'.thread c = { state := .ended, outbox := [.finished] } := by
          rw [threads, Function.update_self]
        exact .failed state (by rw [hthread]) (by rw [hthread])
      · exact hother c' _ threads hc

/-- What a step posts: nothing, or one signal that its thread emits. -/
theorem Moved.posts (hmoved : Moved s op s') :
    s'.mailbox.posted = s.mailbox.posted ∨
    ∃ c x, op = .emit c ∧ (s.thread c).outbox = x :: (s'.thread c).outbox ∧
      s'.mailbox.posted = s.mailbox.posted ++ [(c, x)] := by
  cases hmoved with
  | quiet threads posted => exact .inl posted
  | accepted c peerAddress state threads posted => exact .inl posted
  | answered c t o label running thread state outbox tells threads posted => exact .inl posted
  | failed c state threads posted => exact .inl posted
  | closed c label ready threads posted => exact .inl posted
  | emitted c x rest label outbox threads posted =>
      exact .inr ⟨c, x, label, by rw [threads, Function.update_self, outbox], posted⟩

/-- Told to disconnect stays told. -/
theorem Moved.disconnected (hmoved : Moved s op s') {c : Nat}
    (hmem : c ∈ s.caughtUp.disconnected) : c ∈ s'.caughtUp.disconnected := by
  unfold PushServer.caughtUp
  rcases hmoved.posts with hposted | ⟨c', x, _, _, hposted⟩
  · rw [hposted]
    exact hmem
  · rw [hposted, Machine.run_append]
    exact mem_disconnected_slot (x := (c', x)) hmem

/-- The connection a termination is about is told to disconnect. -/
private theorem told_of_posted {c c' : Nat} {sessionId : Int} {rest : List Signal}
    (h : Coherent issue g s) (hop : LoginLast s (s.thread c').outbox)
    (houtbox : (s.thread c').outbox = .session (.sessionTerminated sessionId) :: rest)
    (hposted : s'.mailbox.posted =
      s.mailbox.posted ++ [(c', .session (.sessionTerminated sessionId))])
    (hstate : (s.thread c).state = .running)
    (hcurrent : sessionId ∈ s.cut c ∨ (s.thread c).conn.currentSessionId = sessionId) :
    c ∈ s'.caughtUp.disconnected := by
  rw [houtbox] at hop
  have hslot : s'.caughtUp = s.caughtUp.onSessionTerminated sessionId := by
    unfold PushServer.caughtUp
    rw [hposted, Machine.run_append]
    rfl
  rw [hslot]
  rcases hop c (h.accepted c (by rw [hstate]; decide)) hstate hcurrent with htold | hlast
  · rw [PushServer.settled, h.mailbox.settled_eq] at htold
    exact mem_disconnected_slot (x := (c', .session (.sessionTerminated sessionId))) htold
  · refine disconnected_of_terminated (handlers_of_lastLogin h.posted (fun hmem => ?_) hlast)
    have hended := h.finished c (.inr hmem)
    rw [hstate] at hended
    cases hended

/-- What is still to be told stays so until it is posted. -/
private theorem WillTell.step {sessionId : Int} (h : Coherent issue g s) (hmoved : Moved s op s')
    (hop : StepTerminates s op) (hwill : s.WillTell sessionId) :
    s'.WillTell sessionId ∨ ∃ c rest, LoginLast s (s.thread c).outbox ∧
      (s.thread c).outbox = .session (.sessionTerminated sessionId) :: rest ∧
      s'.mailbox.posted =
        s.mailbox.posted ++ [(c, .session (.sessionTerminated sessionId))] := by
  obtain ⟨c, hmem⟩ := hwill
  cases hmoved.turned hop c with
  | same conn state outbox => exact .inl ⟨c, by rw [outbox]; exact hmem⟩
  | accepted state running session outbox =>
      rw [h.absent c state] at hmem
      cases hmem
  | failed state ended outbox =>
      rw [h.absent c state] at hmem
      cases hmem
  | answered t o running empty thread ends after renewed =>
      rw [empty] at hmem
      cases hmem
  | closed running empty after =>
      rw [empty] at hmem
      cases hmem
  | emitted x label posted conn state outbox =>
      rw [outbox] at hmem
      rcases List.mem_cons.mp hmem with rfl | hmem
      · subst label
        exact .inr ⟨c, _, hop, outbox, posted⟩
      · exact .inl ⟨c, hmem⟩

/-! ## Steps -/

private theorem Accounted.stepCut (ha : Accounted issue g s) (h : Coherent issue g s)
    (hmoved : Moved s op s') (hop : StepTerminates s op) (hdebts : Debts g g' s s') {c : Nat}
    (hstate : (s'.thread c).state = .running) {sessionId : Int} (hmem : sessionId ∈ s'.cut c) :
    c ∈ s'.caughtUp.disconnected ∨ Owes g' s' sessionId ∨ s'.WillTell sessionId := by
  rcases hdebts.cut c sessionId hmem with hold | ⟨hnew, _⟩
  swap
  · exact .inr (.inl hnew)
  have hrunning : (s.thread c).state = .running := by
    cases hmoved.turned hop c with
    | same conn state outbox => exact state.symm.trans hstate
    | accepted state running session outbox =>
        rw [ha.fresh c state] at hold
        cases hold
    | answered t o running empty thread ends after renewed => exact running
    | emitted x label posted conn state outbox => exact state.symm.trans hstate
    | closed running empty after => exact running
    | failed state ended outbox =>
        rw [hstate] at ended
        cases ended
  rcases ha.cut c hrunning sessionId hold with htold | howes | hwill
  · exact .inl (hmoved.disconnected htold)
  · exact .inr (hdebts.owes sessionId howes)
  · rcases WillTell.step h hmoved hop hwill with hwill | ⟨c', rest, hlast, houtbox, hposted⟩
    · exact .inr (.inr hwill)
    · exact .inl (told_of_posted h hlast houtbox hposted hrunning (.inl hold))

private theorem Accounted.stepFresh (ha : Accounted issue g s) (hmoved : Moved s op s')
    (hop : StepTerminates s op) (hdebts : Debts g g' s s') {c : Nat}
    (hstate : (s'.thread c).state = .absent) : s'.cut c = [] := by
  have habsent : (s.thread c).state = .absent := by
    cases hmoved.turned hop c with
    | same conn state outbox => exact state.symm.trans hstate
    | accepted state running session outbox => exact state
    | emitted x label posted conn state outbox => exact state.symm.trans hstate
    | answered t o running empty thread ends after renewed =>
        rw [after] at hstate
        exact hstate
    | closed running empty after =>
        rw [after] at hstate
        cases hstate
    | failed state ended outbox => exact state
  refine List.eq_nil_iff_forall_not_mem.mpr fun sessionId hmem => ?_
  rcases hdebts.cut c sessionId hmem with hold | ⟨_, hrunning⟩
  · rw [ha.fresh c habsent] at hold
    cases hold
  · rw [habsent] at hrunning
    cases hrunning

/-- The registration of a current session stays, or what takes it away also
terminates the session. -/
private theorem Accounted.keepsRegistered (ha : Accounted issue g s) (h : Coherent issue g s)
    (hmoved : Moved s op s') {c : Nat} (hrunning : (s.thread c).state = .running) {userId : Int}
    (hreg : s.caughtUp.Registered c userId (s.thread c).conn.currentSessionId) :
    s'.caughtUp.Registered c userId (s.thread c).conn.currentSessionId ∨
      s'.WillTell (s.thread c).conn.currentSessionId := by
  have hfits : s.caughtUp.Fits issue := fits_run (fits_start issue) h.posted
  unfold PushServer.caughtUp
  rcases hmoved.posts with hposted | ⟨c', x, _, houtbox, hposted⟩
  · rw [hposted]
    exact .inl hreg
  · have hx := h.outboxes c' x (by rw [houtbox]; exact List.mem_cons_self)
    by_cases hlogout : ∃ userId', x =
        .session (.userLoggedOut userId' (s.thread c).conn.currentSessionId)
    · obtain ⟨userId', rfl⟩ := hlogout
      rcases ha.ends c' userId' _ _ (by rw [houtbox]) with
        hterm | ⟨⟨user, hissue⟩, hcurrent⟩
      · exact .inr ⟨c', hterm⟩
      · -- the session is the connection's own, and still its current one
        obtain ⟨user', hissue'⟩ := hfits.handlers _ _ hreg.2
        rw [hissue] at hissue'
        cases hissue'
        exact absurd rfl (hcurrent hrunning)
    · refine .inl ?_
      rw [hposted, Machine.run_append]
      exact hfits.slot_keeps hx hreg fun userId' heq => hlogout ⟨userId', heq⟩

/-- The account of a connection whose current session is what it was. -/
private theorem Accounted.keepsSession (ha : Accounted issue g s) (h : Coherent issue g s)
    (hmoved : Moved s op s') (hop : StepTerminates s op) {c : Nat}
    (hrunning : (s.thread c).state = .running) (hpos : 0 < (s.thread c).conn.currentSessionId)
    (hlogin : Signal.session (.userLoggedIn (s.thread c).conn.authenticatedUserId
        (s.thread c).conn.currentSessionId) ∈ (s.thread c).outbox →
      Signal.session (.userLoggedIn (s.thread c).conn.authenticatedUserId
        (s.thread c).conn.currentSessionId) ∈ (s'.thread c).outbox ∨
      s'.caughtUp.Registered c (s.thread c).conn.authenticatedUserId
        (s.thread c).conn.currentSessionId) :
    c ∈ s'.caughtUp.disconnected ∨
      Signal.session (.userLoggedIn (s.thread c).conn.authenticatedUserId
        (s.thread c).conn.currentSessionId) ∈ (s'.thread c).outbox ∨
      s'.caughtUp.Registered c (s.thread c).conn.authenticatedUserId
        (s.thread c).conn.currentSessionId ∨
      s'.WillTell (s.thread c).conn.currentSessionId := by
  rcases ha.registered c hrunning hpos with htold | hemits | hreg | hwill
  · exact .inl (hmoved.disconnected htold)
  · exact .inr ((hlogin hemits).imp_right .inl)
  · exact .inr (.inr (ha.keepsRegistered h hmoved hrunning hreg))
  · rcases WillTell.step h hmoved hop hwill with hwill | ⟨c', rest, hlast, houtbox, hposted⟩
    · exact .inr (.inr (.inr hwill))
    · exact .inl (told_of_posted h hlast houtbox hposted hrunning (.inr rfl))

private theorem Accounted.stepRegistered (ha : Accounted issue g s) (h : Coherent issue g s)
    (hmoved : Moved s op s') (hop : StepTerminates s op) {c : Nat}
    (hstate : (s'.thread c).state = .running) (hpos : 0 < (s'.thread c).conn.currentSessionId) :
    c ∈ s'.caughtUp.disconnected ∨
      Signal.session (.userLoggedIn (s'.thread c).conn.authenticatedUserId
        (s'.thread c).conn.currentSessionId) ∈ (s'.thread c).outbox ∨
      s'.caughtUp.Registered c (s'.thread c).conn.authenticatedUserId
        (s'.thread c).conn.currentSessionId ∨
      s'.WillTell (s'.thread c).conn.currentSessionId := by
  cases hmoved.turned hop c with
  | same conn state outbox =>
      rw [conn] at hpos ⊢
      exact ha.keepsSession h hmoved hop (state ▸ hstate) hpos
        fun hemits => .inl (by rw [outbox]; exact hemits)
  | accepted state running session outbox => omega
  | closed running empty after =>
      rw [after] at hstate
      cases hstate
  | failed state ended outbox =>
      rw [hstate] at ended
      cases ended
  | emitted x label posted conn state outbox =>
      rw [conn] at hpos ⊢
      refine ha.keepsSession h hmoved hop (state ▸ hstate) hpos fun hemits => ?_
      rw [outbox] at hemits
      rcases List.mem_cons.mp hemits with rfl | hemits
      · have hfits : s.caughtUp.Fits issue := fits_run (fits_start issue) h.posted
        have hissue := (h.current c hpos.ne').2
        refine .inr ?_
        unfold PushServer.caughtUp
        rw [posted, Machine.run_append]
        exact (registered_onUserLoggedIn hfits hissue).mpr (.inl ⟨rfl, rfl, rfl⟩)
      · exact .inl hemits
  | answered t o running empty thread ends after renewed =>
      have hconn : t.conn = (s.thread c).conn := congrArg HandlerThread.conn thread
      have hafter : (s'.thread c).conn = o.conn := by
        rw [after]
        rfl
      -- a request that leaves the session as it is
      have hkept : o.conn.authenticatedUserId = t.conn.authenticatedUserId →
          o.conn.currentSessionId = t.conn.currentSessionId →
          c ∈ s'.caughtUp.disconnected ∨
            Signal.session (.userLoggedIn (s'.thread c).conn.authenticatedUserId
              (s'.thread c).conn.currentSessionId) ∈ (s'.thread c).outbox ∨
            s'.caughtUp.Registered c (s'.thread c).conn.authenticatedUserId
              (s'.thread c).conn.currentSessionId ∨
            s'.WillTell (s'.thread c).conn.currentSessionId := by
        intro huser hsession
        rw [hafter, hsession, hconn] at hpos
        rw [hafter, huser, hsession, hconn]
        refine ha.keepsSession h hmoved hop running hpos fun hemits => ?_
        rw [empty] at hemits
        cases hemits
      cases ends with
      | same user session signals => exact hkept user session
      | terminated sessionId found user session signals => exact hkept user session
      | renewed sessionId pos serving created user session signals =>
          refine hkept user (Eq.trans (b := (s.thread c).conn.currentSessionId) ?_ (by rw [hconn]))
          exact renewed (by rw [← thread]; exact serving)
      | loggedIn userId sessionId pos created user session signals =>
          refine .inr (.inl ?_)
          rw [hafter, user, session, after]
          exact List.mem_append.mpr (.inr (by simp [signals]))
      | loggedOut current user session signals =>
          rw [hafter, session] at hpos
          omega

/-- The last of a list that ends in `y` is behind all others. -/
private theorem mem_of_suffix {α : Type} {x y : α} {rest xs : List α}
    (h : x :: rest <:+ xs ++ [y]) (hne : x ≠ y) : y ∈ rest := by
  rcases List.suffix_concat_iff.mp h with hnil | ⟨t, ht, _⟩
  · cases hnil
  · cases t with
    | nil =>
        rw [List.nil_append, List.cons.injEq] at ht
        exact absurd ht.1 hne
    | cons z t =>
        rw [List.cons_append, List.cons.injEq] at ht
        rw [ht.2]
        simp

private theorem Accounted.stepEnds (ha : Accounted issue g s) (h : Coherent issue g s)
    (hissue : ∀ sessionId x, issue sessionId = some x → issue' sessionId = some x)
    (hmoved : Moved s op s') (hop : StepTerminates s op) {c : Nat} {userId sessionId : Int}
    {rest : List Signal}
    (hsuffix : Signal.session (.userLoggedOut userId sessionId) :: rest <:+ (s'.thread c).outbox) :
    Signal.session (.sessionTerminated sessionId) ∈ rest ∨
      ((∃ userId', issue' sessionId = some (c, userId')) ∧
        ((s'.thread c).state = .running → (s'.thread c).conn.currentSessionId ≠ sessionId)) := by
  have hmem := hsuffix.subset List.mem_cons_self
  have hkept : ∀ outbox, (s.thread c).outbox = outbox →
      Signal.session (.userLoggedOut userId sessionId) :: rest <:+ outbox →
      (s'.thread c).state = (s.thread c).state → (s'.thread c).conn = (s.thread c).conn →
      Signal.session (.sessionTerminated sessionId) ∈ rest ∨
        ((∃ userId', issue' sessionId = some (c, userId')) ∧
          ((s'.thread c).state = .running →
            (s'.thread c).conn.currentSessionId ≠ sessionId)) := by
    rintro outbox rfl hold hstate hconn
    rw [hstate, hconn]
    refine (ha.ends c userId sessionId rest hold).imp_right fun ⟨⟨user, hsession⟩, hcurrent⟩ => ?_
    exact ⟨⟨user, hissue _ _ hsession⟩, hcurrent⟩
  cases hmoved.turned hop c with
  | same conn state outbox => exact hkept _ rfl (outbox ▸ hsuffix) state conn
  | emitted x label posted conn state outbox =>
      exact hkept _ outbox (hsuffix.trans (List.suffix_cons _ _)) state conn
  | accepted state running session outbox =>
      rw [outbox] at hmem
      cases hmem
  | failed state ended outbox =>
      rw [outbox] at hmem
      cases List.mem_singleton.mp hmem
  | closed running empty after =>
      rw [after] at hmem ⊢
      unfold HandlerThread.close at hmem
      dsimp only at hmem
      split at hmem
      · rename_i hpos
        cases List.mem_singleton.mp hmem
        exact .inr ⟨⟨_, hissue _ _ (h.current c hpos.ne').2⟩, fun hrunning => by cases hrunning⟩
      · cases hmem
  | answered t o running empty thread ends after renewed =>
      have hconn : t.conn = (s.thread c).conn := congrArg HandlerThread.conn thread
      rw [after] at hmem hsuffix ⊢
      have hsignal : SessionSignal.userLoggedOut userId sessionId ∈ o.signals := by
        rcases List.mem_append.mp hmem with hmem | hmem
        · obtain ⟨push, _, heq⟩ := List.mem_map.mp hmem
          cases heq
        · obtain ⟨signal, hsignal, heq⟩ := List.mem_map.mp hmem
          cases heq
          exact hsignal
      cases ends with
      | same user session signals =>
          rw [signals] at hsignal
          cases hsignal
      | renewed sessionId' pos serving created user session signals =>
          rw [signals] at hsignal
          cases hsignal
      | loggedIn user sessionId' pos created huser session signals =>
          rw [signals] at hsignal
          cases List.mem_singleton.mp hsignal
      | loggedOut current user session signals =>
          rw [signals] at hsignal
          cases List.mem_singleton.mp hsignal
          have howned := h.current c
          rw [← hconn] at howned
          refine .inr ⟨⟨_, hissue _ _ (howned current.ne').2⟩, fun _ => ?_⟩
          show o.conn.currentSessionId ≠ _
          rw [session]
          exact current.ne
      | terminated sessionId' found user session signals =>
          rw [signals] at hsignal
          rcases List.mem_cons.mp hsignal with heq | hterm
          · cases heq
            have houtbox : ((s.thread c).after o).outbox =
                (o.pushes.map Signal.messageForUser ++
                  [.session (.userLoggedOut t.conn.authenticatedUserId sessionId)]) ++
                [.session (.sessionTerminated sessionId)] := by
              unfold HandlerThread.after
              simp [signals]
            rw [houtbox] at hsuffix
            exact .inl (mem_of_suffix hsuffix (by simp))
          · cases List.mem_singleton.mp hterm

/-- **Step lemma.** -/
theorem Accounted.step (ha : Accounted issue g s) (h : Coherent issue g s)
    (hissue : ∀ sessionId x, issue sessionId = some x → issue' sessionId = some x)
    (hmoved : Moved s op s') (hdebts : Debts g g' s s') (hop : StepTerminates s op) :
    Accounted issue' g' s' where
  fresh := fun _ hstate => ha.stepFresh hmoved hop hdebts hstate
  cut := fun _ hstate _ hmem => ha.stepCut h hmoved hop hdebts hstate hmem
  registered := fun _ hstate hpos => ha.stepRegistered h hmoved hop hstate hpos
  ends := fun _ _ _ _ hsuffix => ha.stepEnds h hissue hmoved hop hsuffix

/-! ## Runs -/

theorem PushServer.Started.accounted (h : s.Started) :
    Accounted (fun _ => none) (fun _ => { thread := {} }) s := by
  have hthread : ∀ c, s.thread c = {} := by
    intro c
    unfold PushServer.thread
    rw [h.idle c]
  refine ⟨fun c _ => h.cut c, fun c hstate => ?_, fun c hstate => ?_, fun c _ _ _ hsuffix => ?_⟩
  · rw [hthread c] at hstate
    cases hstate
  · rw [hthread c] at hstate
    cases hstate
  · rw [hthread c] at hsuffix
    cases hsuffix.subset List.mem_cons_self

theorem Accounted.terminationsCut (ha : Accounted issue g s) (h : Coherent issue g s)
    (hq : Quiescent s) : TerminationsCut s := by
  have hstate := h.mailbox.state_eq hq.queue
  have hnoTell : ∀ sessionId, ¬s.WillTell sessionId := by
    rintro sessionId ⟨c, hmem⟩
    rw [hq.outboxes c] at hmem
    cases hmem
  have hnoOwes : ∀ sessionId, ¬Owes g s sessionId := by
    rintro sessionId ⟨c, hbusy, _⟩
    rw [hq.idle c] at hbusy
    cases hbusy
  constructor
  · intro c hrunning hcut
    obtain ⟨sessionId, hmem⟩ := List.exists_mem_of_ne_nil _ hcut
    rw [hstate]
    rcases ha.cut c hrunning sessionId hmem with htold | howes | hwill
    · exact htold
    · exact absurd howes (hnoOwes sessionId)
    · exact absurd hwill (hnoTell sessionId)
  · intro c hrunning hpos
    rw [hstate]
    rcases ha.registered c hrunning hpos with htold | hemits | hreg | hwill
    · exact .inl htold
    · rw [hq.outboxes c] at hemits
      cases hemits
    · exact .inr hreg
    · exact absurd hwill (hnoTell _)

/-- **Terminations cut connections** in every run without a renewal in which a
session's login is the last word about it when its termination is posted. -/
theorem terminationsCut_of_loginLast (qt : Qt) (hashes : Hashes) (other : OtherHandlers)
    (s₀ : PushServer) (h₀ : s₀.Started) (ops : List PushOp)
    (hlast : (pushMachine qt hashes other).Along StepTerminates s₀ ops) :
    (pushMachine qt hashes other).Always (fun s => Quiescent s → TerminationsCut s) s₀ ops := by
  have hstep : ∀ s op, (∃ issue g, Coherent issue g s ∧ Accounted issue g s) →
      StepTerminates s op → ∃ issue g, Coherent issue g ((pushMachine qt hashes other).step s op) ∧
        Accounted issue g ((pushMachine qt hashes other).step s op) := by
    rintro s op ⟨issue, g, h, ha⟩ hop
    obtain ⟨issue', g', h', hissue, hmoved, hdebts⟩ := pushStep_leads h qt hashes other op
    exact ⟨issue', g', h', ha.step h hissue hmoved hdebts hop⟩
  refine (Machine.always_of_along hstep ⟨_, _, h₀.coherent, h₀.accounted⟩ hlast).mono fun s hs => ?_
  obtain ⟨issue, g, h, ha⟩ := hs
  exact ha.terminationsCut h

end accounted

/-! ## Two runs -/

instance (s : PushServer) : ∀ outbox, Decidable (LoginLast s outbox)
  | [] => isTrue trivial
  | .messageForUser _ :: _ => isTrue trivial
  | .finished :: _ => isTrue trivial
  | .session (.userLoggedIn ..) :: _ => isTrue trivial
  | .session (.userLoggedOut ..) :: _ => isTrue trivial
  | .session (.sessionTerminated sessionId) :: _ =>
      inferInstanceAs (Decidable (∀ h ∈ s.accepted, (s.thread h).state = .running →
        (sessionId ∈ s.cut h ∨ (s.thread h).conn.currentSessionId = sessionId) →
          h ∈ s.settled.disconnected ∨ lastLogin sessionId s.mailbox.posted = some h))

instance (s : PushServer) (c : Nat) : ∀ prog, Decidable (AtAnswer NotRenewed s c prog)
  | some (.ret t) => inferInstanceAs (Decidable ((s.thread c).serving = some .tokenRenew →
      t.conn.currentSessionId = (s.thread c).conn.currentSessionId))
  | some (.stmt ..) => isTrue trivial
  | none => isTrue trivial

instance (s : PushServer) : ∀ op, Decidable (StepTerminates s op)
  | .statement c => inferInstanceAs (Decidable (AtAnswer NotRenewed s c _))
  | .emit _ => inferInstanceAs (Decidable (LoginLast s _))
  | .accept .. => isTrue trivial
  | .initFailed _ => isTrue trivial
  | .packet .. => isTrue trivial
  | .slot => isTrue trivial
  | .disconnect _ => isTrue trivial
  | .tick _ => isTrue trivial

def terminateText : String :=
  "\x7b\"nonce\":\"3\",\"sessionId\":1,\"timestamp\":1,\"token\":\"t2\"\x7d"

/-- The parser on the payloads of these runs. -/
def terminationQt : Qt :=
  { sessionQt with
    fromJson := fun text =>
      [ (loginText "alice" "1", loginAs "alice" "1"), (loginText "alice" "2", loginAs "alice" "2")
      , (terminateText, .obj
          [ ("nonce", .str "3"), ("sessionId", .int 1), ("timestamp", .int 1)
          , ("token", .str "t2") ]) ].lookup text }

/-- Alice's two connections log in, the first of which still has to tell the
server so, and the second terminates the session of the first. -/
def terminateFirst : List PushOp :=
  .accept 0 "" :: .accept 1 "" :: handled 0 1 1 (loginText "alice" "1") "t1"
    ++ handled 1 1 1 (loginText "alice" "2") "t2" ++ told 1
    ++ handled 1 16 2 terminateText ""

/-- The login is posted between the two signals of the termination. -/
theorem terminationsCut_loginBetween :
    (pushMachine terminationQt sessionHashes idleHandlers).Always
      (fun s => Quiescent s → TerminationsCut s) pushServer
      (terminateFirst ++ told 1 ++ told 0 ++ told 1) :=
  terminationsCut_of_loginLast terminationQt sessionHashes idleHandlers pushServer
    pushServer_started _ (by decide +kernel)

/-- The login is posted first, as it is when the termination comes later. -/
def loginBefore : List PushOp := terminateFirst ++ told 0 ++ told 1 ++ told 1

/-- The first connection stays open, without its session. -/
theorem loginBefore_staysOpen :
    ¬(pushMachine terminationQt sessionHashes idleHandlers).Always
      (fun s => Quiescent s → TerminationsCut s) pushServer loginBefore := by
  intro h
  have hqueue : ((pushMachine terminationQt sessionHashes idleHandlers).run pushServer
      loginBefore).mailbox.queue.isEmpty = true := by
    decide +kernel
  have htwo : ∀ c ∈ [0, 1],
      (((pushMachine terminationQt sessionHashes idleHandlers).run pushServer
        loginBefore).thread c).outbox.isEmpty = true ∧
      (((pushMachine terminationQt sessionHashes idleHandlers).run pushServer
        loginBefore).thread c).state = .running ∧
      (((pushMachine terminationQt sessionHashes idleHandlers).run pushServer
        loginBefore).pool.workers c).running.isNone = true := by
    decide +kernel
  have hothers : ∀ c, c ∉ [0, 1] → ((pushMachine terminationQt sessionHashes idleHandlers).run
      pushServer loginBefore).pool.workers c = { here := {} } := by
    intro c hc
    have hconnections : ∀ op ∈ loginBefore, ∀ c' ∈ op.connection, c' ∈ [0, 1] := by
      decide +kernel
    rw [pushRun_others]
    · rfl
    · exact fun op hop heq => hc (hconnections op hop c heq)
  have hquiescent : Quiescent ((pushMachine terminationQt sessionHashes idleHandlers).run pushServer
      loginBefore) := by
    refine ⟨⟨List.isEmpty_iff.mp hqueue, fun c => ?_⟩, fun c => ?_⟩
    all_goals by_cases hc : c ∈ [0, 1]
    · exact List.isEmpty_iff.mp (htwo c hc).1
    · unfold PushServer.thread
      rw [hothers c hc]
    · exact Option.isNone_iff_eq_none.mp (htwo c hc).2.2
    · rw [hothers c hc]
  have hcut : ((pushMachine terminationQt sessionHashes idleHandlers).run pushServer
      loginBefore).cut 0 = [1] ∧ ((pushMachine terminationQt sessionHashes idleHandlers).run
        pushServer loginBefore).mailbox.state.disconnected = [] := by
    decide +kernel
  have htold := (h.last hquiescent).cut 0 (htwo 0 (by decide)).2.1 (by rw [hcut.1]; decide)
  rw [hcut.2] at htold
  cases htold

end XYChat.Server
