import XYChat.Common.JsonText
import XYChat.Server.Authorization

/-!
# Replays

The check refuses a nonce seen within the time to live, and a timestamp that
could still be accepted is never older than that: so no two requests with the
same timestamp and nonce reach a handler, as long as the cache is consulted and
does not forget. The ways in which it fails to are the condition under which
replays are excluded: a packet headed `Pong` is dispatched unchecked, at capacity
the cache drops nonces whose requests' timestamps are still accepted, and while a
packet whose timestamp was just accepted waits for the cache, the time to live of
its nonce can end.
-/

namespace XYChat.Server

open XYChat.Lib

/-! ## The cache -/

namespace NonceCache

private theorem lookup_filter {l : List (String × Int)} {p : String × Int → Bool} {nonce : String}
    {seen : Int} (h : l.lookup nonce = some seen) (hp : p (nonce, seen) = true) :
    (l.filter p).lookup nonce = some seen := by
  induction l with
  | nil => cases h
  | cons e l ih =>
      obtain ⟨k, v⟩ := e
      by_cases hk : nonce = k
      · subst hk
        rw [List.lookup_cons_self, Option.some.injEq] at h
        subst h
        rw [List.filter_cons_of_pos hp, List.lookup_cons_self]
      · have hk' : (nonce == k) = false := beq_eq_false_iff_ne.mpr hk
        rw [List.lookup_cons, hk'] at h
        rw [List.filter_cons]
        split
        · rw [List.lookup_cons, hk']
          exact ih h
        · exact ih h

variable {c : NonceCache} {nonce : String} {seen now : Int}

/-- Cleaning keeps what is within the time to live. -/
theorem find_clean (h : c.find nonce = some seen) (hlive : now - seen ≤ c.ttlSeconds) :
    (c.clean now).find nonce = some seen := by
  unfold clean
  split
  · exact lookup_filter h (by simpa using hlive)
  · exact h

/-- Eviction keeps what is within half the time to live, and below capacity
everything. -/
theorem find_evict (h : c.find nonce = some seen)
    (hyoung : c.maxEntries ≤ c.size → now - c.ttlSeconds.tdiv 2 ≤ seen) :
    (c.evict now).find nonce = some seen := by
  unfold evict
  split
  · rename_i hfull
    exact lookup_filter h (by simpa using hyoung hfull)
  · exact h

theorem find_insert_self : (c.insert nonce now).find nonce = some now := List.lookup_cons_self

theorem find_insert_of_ne {other : String} (h : c.find other = some seen) (hne : other ≠ nonce) :
    (c.insert nonce now).find other = some seen := by
  unfold insert find
  rw [List.lookup_cons, beq_eq_false_iff_ne.mpr hne]
  exact lookup_filter h (by simpa using hne)

/-- A nonce the cache takes is not there within the time to live, and it is
inserted with the present second. -/
theorem checkAndInsert_ok (h : (c.checkAndInsert nonce now).2 = true) :
    (∀ seen, (c.clean now).find nonce = some seen → c.ttlSeconds < now - seen) ∧
      (c.checkAndInsert nonce now).1 = ((c.clean now).evict now).insert nonce now := by
  unfold checkAndInsert at h ⊢
  by_cases hempty : nonce = ""
  · rw [if_pos hempty] at h
    cases h
  · rw [if_neg hempty] at h ⊢
    dsimp only at h ⊢
    split at h
    · cases h
    · rename_i hnew
      rw [if_neg hnew]
      refine ⟨fun seen hseen => ?_, rfl⟩
      have hold : ¬now - seen ≤ c.ttlSeconds := by simpa [hseen] using hnew
      omega

/-- A nonce the cache refuses leaves it as it is, or cleaned. -/
theorem checkAndInsert_refused (h : (c.checkAndInsert nonce now).2 = false) :
    (c.checkAndInsert nonce now).1 = c ∨ (c.checkAndInsert nonce now).1 = c.clean now := by
  unfold checkAndInsert at h ⊢
  by_cases hempty : nonce = ""
  · rw [if_pos hempty]
    exact .inl rfl
  · rw [if_neg hempty] at h ⊢
    dsimp only at h ⊢
    split at h
    · rename_i hseen
      rw [if_pos hseen]
      exact .inr rfl
    · cases h

end NonceCache

/-- What passes the check: the timestamp is within the tolerance, and the cache
takes the nonce. -/
theorem checkReplayProtection_ok {request : Json} {checkedAt seenAt : Int} {c : NonceCache}
    (h : (checkReplayProtection request checkedAt seenAt c).2 = true) :
    |checkedAt - timestampOf request| ≤ replayTimestampToleranceSecs ∧
      checkReplayProtection request checkedAt seenAt c =
        c.checkAndInsert (nonceOf request) seenAt := by
  unfold checkReplayProtection at h ⊢
  split at h
  · cases h
  rename_i h₁
  split at h
  · cases h
  rename_i h₂
  split at h
  · cases h
  rename_i h₃
  split at h
  · cases h
  rename_i h₄
  rw [if_neg h₁, if_neg h₂, if_neg h₃, if_neg h₄]
  exact ⟨not_lt.mp h₃, rfl⟩

/-- What fails the check leaves the cache as it is, or cleaned. -/
theorem checkReplayProtection_refused {request : Json} {checkedAt seenAt : Int} {c : NonceCache}
    (h : (checkReplayProtection request checkedAt seenAt c).2 = false) :
    (checkReplayProtection request checkedAt seenAt c).1 = c ∨
      (checkReplayProtection request checkedAt seenAt c).1 = c.clean seenAt := by
  unfold checkReplayProtection at h ⊢
  split_ifs at h ⊢
  iterate 4 exact .inl rfl
  exact NonceCache.checkAndInsert_refused h

/-! ## The property and its condition -/

/-- The request's timestamp is still inside the accepted window, or ahead of
it. -/
def Acceptable (now : Int) (request : Json) : Prop :=
  now ≤ timestampOf request + replayTimestampToleranceSecs

/-- No two requests with the same timestamp and nonce have reached a handler, and
the nonce of each that did is in the cache, within its time to live, for as long
as the timestamp is acceptable. -/
structure ReplaysExcluded (s : ServerState) : Prop where
  distinct : s.reached.Pairwise fun a b =>
    ¬(timestampOf a.request = timestampOf b.request ∧ nonceOf a.request = nonceOf b.request)
  remembered : ∀ r ∈ s.reached, Acceptable s.pool.store.now r.request →
    ∃ seen, s.nonces.find (nonceOf r.request) = some seen ∧
      s.pool.store.now - seen ≤ s.nonces.ttlSeconds

/-- The cache is at capacity, and older than half the time to live is the nonce
of a request whose timestamp is acceptable. -/
def EvictsAcceptable (s : ServerState) : Prop :=
  let cache := s.nonces.clean s.pool.store.now
  cache.maxEntries ≤ cache.size ∧ ∃ r ∈ s.reached, Acceptable s.pool.store.now r.request ∧
    ∃ seen, cache.find (nonceOf r.request) = some seen ∧
      seen < s.pool.store.now - cache.ttlSeconds / 2

/-- The packet of the request is checked, and the cache takes its nonce. -/
def Registers (qt : Qt) (s : ServerState) (packet : Packet) (wait : Nat) (request : Json) : Prop :=
  packet.messageType ≠ MessageType.ping.code ∧ packet.messageType ≠ MessageType.pong.code ∧
    qt.fromJson packet.payload = some request ∧ request.isObject = true ∧
      (checkReplayProtection request (s.pool.store.now - wait) s.pool.store.now s.nonces).2 = true

/-- When the cache reads the clock, the timestamp the check has accepted is
acceptable no more, and it is that of a request that has reached a handler. -/
def LapsesWaiting (s : ServerState) (request : Json) : Prop :=
  ¬Acceptable s.pool.store.now request ∧
    ∃ r ∈ s.reached, timestampOf r.request = timestampOf request

/-- No route takes the packet: its payload is no object, or its type is that of
no open route and, with a valid session, that of no other. -/
def Unrouted (qt : Qt) (hashes : Hashes) (s : ServerState) (c : Nat) (packet : Packet) : Prop :=
  ∀ request, qt.fromJson packet.payload = some request → request.isObject = true →
    choose openRoutes packet.messageType (typeOf request) = none ∧
      (validateSession hashes (s.pool.workers c).here request s.pool.store = true →
        choose sessionRoutes packet.messageType (typeOf request) = none)

/-- Where an idle connection takes up a packet headed `Pong`, no route takes it,
and where the cache takes a nonce it evicts none of an acceptable request, and the
timestamp of a request that has reached a handler does not lapse on the way. -/
def Checked (qt : Qt) (hashes : Hashes) (s : ServerState) : ServerOp → Prop
  | .packet c packet _ wait => (s.pool.workers c).running.isSome = false →
      (packet.messageType = MessageType.pong.code → Unrouted qt hashes s c packet) ∧
      ∀ request, Registers qt s packet wait request →
        ¬EvictsAcceptable s ∧ ¬LapsesWaiting s request
  | _ => True

/-! ## One packet -/

/-- What admission does to the cache, and what a packet that reaches a handler
has passed. -/
theorem admit_cases (qt : Qt) (hashes : Hashes) (conn : Connection) (packet : Packet)
    (wait : Nat) (db : ServerDb) (nonces : NonceCache) (c : Nat) :
    let decision := admission qt hashes conn packet wait db nonces
    (decision.1 = nonces ∧
        (decision.2.reached c = [] ∨ packet.messageType = MessageType.pong.code)) ∨
      (decision.1 = nonces.clean db.now ∧ decision.2.reached c = []) ∨
      ∃ request, qt.fromJson packet.payload = some request ∧ request.isObject = true ∧
        packet.messageType ≠ MessageType.ping.code ∧
        packet.messageType ≠ MessageType.pong.code ∧
        (checkReplayProtection request (db.now - wait) db.now nonces).2 = true ∧
        decision.1 = (checkReplayProtection request (db.now - wait) db.now nonces).1 ∧
        ∀ r ∈ decision.2.reached c, r.request = request := by
  dsimp only
  unfold admission
  split
  · exact .inl ⟨rfl, .inl rfl⟩
  rename_i hping
  cases hjson : qt.fromJson packet.payload with
  | none => exact .inl ⟨rfl, .inl rfl⟩
  | some request =>
      dsimp only
      split
      · exact .inl ⟨rfl, .inl rfl⟩
      rename_i hobject
      simp only [Bool.not_eq_true', Bool.not_eq_false] at hobject
      by_cases hpong : packet.messageType = MessageType.pong.code
      · -- the check is skipped, whatever the payload asks for
        refine .inl ⟨?_, .inr hpong⟩
        rw [replayGate, if_pos hpong]
        dsimp only [Bool.not_true]
        rw [if_neg (by simp)]
        split
        · rfl
        · split
          · rfl
          · split <;> rfl
      · rw [replayGate, if_neg hpong]
        split
        · rename_i hrefused
          simp only [Bool.not_eq_true'] at hrefused
          -- a refusal by the cache has cleaned it, one by the window has not
          rcases checkReplayProtection_refused hrefused with h | h
          · exact .inl ⟨h, .inl rfl⟩
          · exact .inr (.inl ⟨h, rfl⟩)
        · rename_i hok
          simp only [Bool.not_eq_true', Bool.not_eq_false] at hok
          refine .inr (.inr ⟨request, rfl, hobject, hping, hpong, hok, ?_⟩)
          cases choose openRoutes packet.messageType (typeOf request) with
          | some handler => exact ⟨rfl, by simp [Admission.reached]⟩
          | none =>
              dsimp only
              split
              · exact ⟨rfl, by simp [Admission.reached]⟩
              · cases choose sessionRoutes packet.messageType (typeOf request) with
                | some handler => exact ⟨rfl, by simp [Admission.reached]⟩
                | none => exact ⟨rfl, by simp [Admission.reached]⟩

/-- What no route takes reaches no handler. -/
theorem Unrouted.reached {qt : Qt} {hashes : Hashes} {s : ServerState} {c : Nat} {packet : Packet}
    {wait : Nat} (h : Unrouted qt hashes s c packet) :
    (s.admits qt hashes c packet wait).2.reached c = [] := by
  cases hdecision : (s.admits qt hashes c packet wait).2 with
  | handle handler request =>
      obtain ⟨hjson, hobject, hroute⟩ := admit_handle hdecision
      obtain ⟨hopen, hsession⟩ := h request hjson hobject
      rcases hroute with hroute | ⟨hvalid, hroute⟩
      · rw [hopen] at hroute
        cases hroute
      · rw [hsession hvalid] at hroute
        cases hroute
  | _ => rfl

/-! ## Runs -/

/-- The nonce of each request that has reached a handler and is still acceptable
is in the cache, with a second the timestamp is within the tolerance of. -/
structure Remembering (s : ServerState) : Prop where
  ttl : s.nonces.ttlSeconds = 600
  distinct : s.reached.Pairwise fun a b =>
    ¬(timestampOf a.request = timestampOf b.request ∧ nonceOf a.request = nonceOf b.request)
  remembered : ∀ r ∈ s.reached, Acceptable s.pool.store.now r.request →
    ∃ seen, s.nonces.find (nonceOf r.request) = some seen ∧
      timestampOf r.request ≤ seen + replayTimestampToleranceSecs

/-- An acceptable timestamp within the tolerance of `seen` keeps `seen` within
the time to live. -/
private theorem within_ttl {now seen : Int} {request : Json} (h : Acceptable now request)
    (hseen : timestampOf request ≤ seen + replayTimestampToleranceSecs) : now - seen ≤ 600 := by
  unfold Acceptable replayTimestampToleranceSecs at *
  omega

theorem Remembering.excluded {s : ServerState} (h : Remembering s) : ReplaysExcluded s := by
  refine ⟨h.distinct, fun r hr hacceptable => ?_⟩
  obtain ⟨seen, hfind, hseen⟩ := h.remembered r hr hacceptable
  exact ⟨seen, hfind, h.ttl ▸ within_ttl hacceptable hseen⟩

/-- Cleaning forgets no acceptable request. -/
private theorem Remembering.clean {s : ServerState} (h : Remembering s) :
    ∀ r ∈ s.reached, Acceptable s.pool.store.now r.request →
      ∃ seen, (s.nonces.clean s.pool.store.now).find (nonceOf r.request) = some seen ∧
        timestampOf r.request ≤ seen + replayTimestampToleranceSecs := by
  intro r hr hacceptable
  obtain ⟨seen, hfind, hseen⟩ := h.remembered r hr hacceptable
  exact ⟨seen, NonceCache.find_clean hfind (h.ttl ▸ within_ttl hacceptable hseen), hseen⟩

/-- Where the cache takes the nonce of a request: no acceptable request has that
nonce, and unless one is evicted all are still remembered. -/
private theorem Remembering.insert {s : ServerState} {request : Json} {checkedAt : Int}
    (h : Remembering s)
    (hok : (checkReplayProtection request checkedAt s.pool.store.now s.nonces).2 = true)
    (hkept : ¬EvictsAcceptable s) :
    (∀ r ∈ s.reached, Acceptable s.pool.store.now r.request →
        nonceOf r.request ≠ nonceOf request ∧
        ∃ seen, (checkReplayProtection request checkedAt s.pool.store.now s.nonces).1.find
            (nonceOf r.request) = some seen ∧
          timestampOf r.request ≤ seen + replayTimestampToleranceSecs) ∧
      (checkReplayProtection request checkedAt s.pool.store.now s.nonces).1.ttlSeconds = 600 ∧
      (checkReplayProtection request checkedAt s.pool.store.now s.nonces).1.find (nonceOf request)
        = some s.pool.store.now := by
  obtain ⟨_, hcheck⟩ := checkReplayProtection_ok hok
  rw [hcheck] at hok ⊢
  obtain ⟨hnew, hcache⟩ := NonceCache.checkAndInsert_ok hok
  rw [hcache]
  refine ⟨fun r hr hacceptable => ?_, ?_, NonceCache.find_insert_self⟩
  · obtain ⟨seen, hfind, hseen⟩ := h.clean r hr hacceptable
    have hlive := within_ttl hacceptable hseen
    have hne : nonceOf r.request ≠ nonceOf request := by
      intro heq
      have hold := hnew seen (heq ▸ hfind)
      rw [h.ttl] at hold
      omega
    refine ⟨hne, seen, NonceCache.find_insert_of_ne (NonceCache.find_evict hfind ?_) hne, hseen⟩
    intro hfull
    rw [Int.tdiv_eq_ediv_of_nonneg (by rw [NonceCache.ttlSeconds_clean, h.ttl]; decide)]
    by_contra hyoung
    exact hkept ⟨hfull, r, hr, hacceptable, seen, hfind, not_le.mp hyoung⟩
  · show ((s.nonces.clean _).evict _).ttlSeconds = 600
    rw [NonceCache.ttlSeconds_evict, NonceCache.ttlSeconds_clean, h.ttl]

variable {qt : Qt} {hashes : Hashes} {other : OtherHandlers}

/-- A packet taken up under the condition. -/
private theorem take_remembering {s : ServerState} {c : Nat} {packet : Packet} {random : Random}
    {wait : Nat} (h : Remembering s) (hidle : (s.pool.workers c).running.isSome = false)
    (hop : Checked qt hashes s (.packet c packet random wait)) :
    Remembering (s.take qt hashes other c packet random wait) := by
  obtain ⟨hpong, hregisters⟩ := hop hidle
  unfold ServerState.take
  rw [if_neg (by simp [hidle])]
  dsimp only
  rcases admit_cases qt hashes (s.pool.workers c).here packet wait s.pool.store s.nonces c with
    ⟨hcache, hreached⟩ | ⟨hcache, hreached⟩ |
    ⟨request, hjson, hobject, hnotPing, hnotPong, hok, hcache, hreached⟩
  · have hnone : (s.admits qt hashes c packet wait).2.reached c = [] :=
      hreached.elim id fun h => (hpong h).reached
    rw [hnone, List.append_nil]
    exact ⟨hcache ▸ h.ttl, h.distinct, fun r hr ha => hcache ▸ h.remembered r hr ha⟩
  · have hnone : (s.admits qt hashes c packet wait).2.reached c = [] := hreached
    rw [hnone, List.append_nil]
    refine ⟨?_, h.distinct, fun r hr ha => hcache ▸ h.clean r hr ha⟩
    show (s.admits qt hashes c packet wait).1.ttlSeconds = 600
    rw [show (s.admits qt hashes c packet wait).1 = _ from hcache, NonceCache.ttlSeconds_clean, h.ttl]
  · obtain ⟨hevict, hlapse⟩ := hregisters request ⟨hnotPing, hnotPong, hjson, hobject, hok⟩
    obtain ⟨hothers, httl, hself⟩ := h.insert hok hevict
    -- the check's own reading of the clock comes before the cache's
    have hwindow := abs_le.mp (checkReplayProtection_ok hok).1
    refine ⟨hcache ▸ httl, ?_, ?_⟩
    · refine List.pairwise_append.mpr ⟨h.distinct, ?_, ?_⟩
      · cases hdecision : (s.admits qt hashes c packet wait).2 <;> simp [Admission.reached]
      · rintro a ha b hb ⟨htime, hnonce⟩
        rw [hreached b hb] at htime hnonce
        by_cases hacceptable : Acceptable s.pool.store.now a.request
        · exact (hothers a ha hacceptable).1 hnonce
        · refine hlapse ⟨fun hstill => hacceptable ?_, a, ha, htime⟩
          unfold Acceptable at hstill ⊢
          rw [htime]
          exact hstill
    · intro r hr hacceptable
      show ∃ seen, (s.admits qt hashes c packet wait).1.find _ = some seen ∧ _
      rw [show (s.admits qt hashes c packet wait).1 = _ from hcache]
      rcases List.mem_append.mp hr with hold | hnew
      · exact (hothers r hold hacceptable).2
      · rw [hreached r hnew]
        exact ⟨_, hself, by omega⟩

/-- **Step lemma.** -/
private theorem serverStep_remembering {s : ServerState} {op : ServerOp} (h : Remembering s)
    (hop : Checked qt hashes s op) : Remembering (serverStep qt hashes other s op) := by
  cases op with
  | connect c peerAddress => exact ⟨h.ttl, h.distinct, h.remembered⟩
  | statement c => exact ⟨h.ttl, h.distinct, h.remembered⟩
  | prune => exact ⟨h.ttl, h.distinct, h.remembered⟩
  | pruneStatement =>
      show Remembering s.advancePruning
      unfold ServerState.advancePruning
      split
      · exact h
      · rename_i pruning _
        refine ⟨h.ttl, h.distinct, fun r hr hacceptable => h.remembered r hr ?_⟩
        have hnow := (pruning.advance_prunes s.pool.store.toDb).now
        rw [← hnow]
        exact hacceptable
  | tick seconds =>
      refine ⟨h.ttl, h.distinct, fun r hr hacceptable => h.remembered r hr ?_⟩
      have hlater : s.pool.store.now + seconds
          ≤ timestampOf r.request + replayTimestampToleranceSecs := hacceptable
      unfold Acceptable
      omega
  | packet c packet random wait =>
      by_cases hidle : (s.pool.workers c).running.isSome = false
      · exact take_remembering h hidle hop
      · have hbusy : (s.pool.workers c).running.isSome = true := Bool.not_eq_false _ ▸ hidle
        rw [serverStep, ServerState.take, if_pos hbusy]
        exact h

/-- **Replay safety.** On a server that has just started, whatever its
connections send, however full the cache is and however long a packet waits for
it, replays are excluded in every state of a run in which no packet headed `Pong`
reaches a handler, no acceptable nonce is evicted and no timestamp a handler has
been reached with lapses on the way to the cache. -/
theorem replaysExcluded_of_checked (qt : Qt) (hashes : Hashes) (other : OtherHandlers)
    (s₀ : ServerState) (h₀ : s₀.Started hashes) (ops : List ServerOp)
    (hchecked : (serverMachine qt hashes other).Along (Checked qt hashes) s₀ ops) :
    (serverMachine qt hashes other).Always ReplaysExcluded s₀ ops := by
  have hstart : Remembering s₀ := by
    refine ⟨by rw [h₀.nonces], by rw [h₀.reached]; exact List.Pairwise.nil, ?_⟩
    rw [h₀.reached]
    simp
  have hrun := Machine.always_of_along (M := serverMachine qt hashes other) (Q := Remembering)
    (fun _ _ => serverStep_remembering) hstart hchecked
  exact hrun.mono fun _ h => h.excluded

/-! ## A login sent twice -/

def loginAt (timestamp : Int) : Json := .obj
  [("nonce", .str "1"), ("timestamp", .int timestamp), ("type", .str "login")]

def loginQt : Qt :=
  { Qt.ofDocuments [loginAt 1, loginAt 301] with isoDate := sessionQt.isoDate }

/-- The same login on two connections. -/
def loginTwice (messageType : Nat) : List ServerOp :=
  [0, 1].map fun c => .packet c ⟨messageType, 1, (loginAt 1).text⟩ ⟨toString c, ""⟩

/-- Headed `LoginRequest`, one of them reaches the handler. -/
theorem replaysExcluded_loginTwice :
    ((serverMachine loginQt sessionHashes idleHandlers).run freshServer (loginTwice 1)).reached.length
        = 1 ∧
      (serverMachine loginQt sessionHashes idleHandlers).Always ReplaysExcluded freshServer
        (loginTwice 1) := by
  refine ⟨by decide +kernel, replaysExcluded_of_checked loginQt sessionHashes idleHandlers freshServer
    ⟨fun _ => rfl, rfl, rfl, by simp [freshServer, Table.empty], by simp [freshServer, Table.empty]⟩
    (loginTwice 1) ⟨fun _ => ⟨fun h => absurd h (by decide), fun _ _ => ⟨fun h => ?_, fun h => ?_⟩⟩,
      fun _ => ⟨fun h => absurd h (by decide), fun _ h => ?_⟩, trivial⟩⟩
  · exact absurd h.1 (by decide +kernel)
  · obtain ⟨r, hr, _⟩ := h.2
    cases hr
  · -- the cache refuses the nonce
    obtain ⟨_, _, hjson, _, hok⟩ := h
    obtain rfl := Option.some.inj hjson
    exact absurd hok (by decide +kernel)

/-- Headed `Pong`, both do. -/
theorem pongLogin_replayed :
    ¬(serverMachine loginQt sessionHashes idleHandlers).Always ReplaysExcluded freshServer
      (loginTwice 4) := by
  intro h
  exact absurd h.last.distinct (by decide +kernel)

/-- Of a login as far ahead of the clock as it may be, the copy waits over the
second in which the time to live ends. -/
def loginWaits : List ServerOp :=
  [ .packet 0 ⟨1, 1, (loginAt 301).text⟩ ⟨"0", ""⟩, .tick 601
  , .packet 1 ⟨1, 1, (loginAt 301).text⟩ ⟨"1", ""⟩ 1 ]

-- both reach the handler
example : ((serverMachine loginQt sessionHashes idleHandlers).run freshServer
    loginWaits).reached.length = 2 := by
  decide +kernel

end XYChat.Server
