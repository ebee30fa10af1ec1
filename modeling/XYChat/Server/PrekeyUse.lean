import XYChat.Lib.Pool
import XYChat.Server.Ciphertext
import XYChat.Server.PrekeySpecs

/-!
# One-time prekeys

The server's connections handle `FetchKeys`, `FetchGroupKeys` and `SendMessage`
statement by statement, in any interleaving. A private send checks its prekeys
before the transaction that consumes them, and a distribution is stored without
a check and before its prekeys are consumed; so a prekey protects one accepted
message as long as what was claimed is still claimed at these points.
-/

namespace XYChat.Server

open XYChat.Lib
open XYChat.Lib.Prog
open E2eeCrypto (EnvelopeEntry)

/-! ## The prekeys of a message -/

/-- The prekeys an envelope refers to. -/
def envelopePrekeys (qt : Qt) (content : String) : List Int :=
  match E2eeCrypto.decodeEnvelope qt content with
  | none => []
  | some entries => (entries.map (·.prekeyId)).filter (0 < ·)

/-- The prekeys a sender key distribution refers to. -/
def distributionPrekeys (qt : Qt) (content : String) : List Int :=
  match GroupE2eeCrypto.decodeDistribution qt content with
  | none => []
  | some dist => (dist.entries.map (·.envelope.prekeyId)).filter (0 < ·)

/-- The prekeys that protect a private message. -/
def privatePrekeys (qt : Qt) (db : Db) (m : MessageRow) : List Int :=
  if db.conversationType m.conversationId = some .privateType then envelopePrekeys qt m.content
  else []

/-- The prekeys that protect a distribution in a group. -/
def groupPrekeys (qt : Qt) (db : Db) (m : MessageRow) : List Int :=
  if db.conversationType m.conversationId = some .groupType
      ∧ m.contentType = "sender_key_distribution" then distributionPrekeys qt m.content
  else []

/-- A prekey of a private message accepted after the row `b` is no other such
message's, private or distribution. -/
def PrekeysUsedOnce (qt : Qt) (b : Int) (db : Db) : Prop :=
  ∀ m ∈ db.messages.rows, ∀ m' ∈ db.messages.rows, b < m.id → b < m'.id → m.id ≠ m'.id →
    ∀ id ∈ privatePrekeys qt db m, id ∉ privatePrekeys qt db m' ∧ id ∉ groupPrekeys qt db m'

/-! ## The server -/

inductive KeyRequest where
  | fetchKeys
  | fetchGroupKeys
  | sendMessage
  deriving DecidableEq, Repr

/-- The handler of a request. -/
def KeyRequest.handler (qt : Qt) (requestId : Nat) (conn : Connection) (request : Json) :
    KeyRequest → Prog Db Outcome
  | .fetchKeys => processFetchKeysRequest requestId conn request
  | .fetchGroupKeys => processFetchGroupKeysRequest requestId conn request
  | .sendMessage => processSendMessageRequest qt requestId conn request

/-- The connections over the database. `waiting` is history: the prekeys of the
distribution that the running handler of a connection has stored. -/
structure KeyServer where
  pool : Pool Db Connection
  waiting : List (Nat × Int) := []

/-- An idle slot is given to a connection, an idle connection takes up a request,
a busy one executes a statement, time passes. -/
inductive KeyOp where
  | connect (c : Nat) (conn : Connection)
  | request (c : Nat) (requestId : Nat) (kind : KeyRequest) (request : Json)
  | statement (c : Nat)
  | tick (seconds : Nat)

section

variable (qt : Qt)

def KeyServer.statement (s : KeyServer) (c : Nat) : KeyServer :=
  match (s.pool.workers c).running with
  | none => s
  | some (.ret _) =>
      -- the handler has ended
      { pool := s.pool.advance c, waiting := s.waiting.filter (·.1 != c) }
  | some (.stmt upd _) =>
      let stored := storedBetween s.pool.store (upd s.pool.store)
      { pool := s.pool.advance c
        waiting :=
          s.waiting ++ (stored.flatMap (groupPrekeys qt s.pool.store)).map fun id => (c, id) }

def keyStep (s : KeyServer) : KeyOp → KeyServer
  | .connect c conn =>
      if (s.pool.workers c).running.isSome then s
      else { s with pool := s.pool.setWorker c { here := conn } }
  | .request c requestId kind request =>
      if (s.pool.workers c).running.isSome then s
      else
        { s with
          pool := s.pool.start c ((·.conn) <$>
            kind.handler qt requestId (s.pool.workers c).here request) }
  | .statement c => s.statement qt c
  | .tick seconds =>
      { s with pool := { s.pool with
                          store := { s.pool.store with now := s.pool.store.now + seconds } } }

/-- Nobody is connected. -/
structure KeyServer.Idle (s : KeyServer) : Prop where
  idle : ∀ c, (s.pool.workers c).running = none
  waiting : s.waiting = []

def keyMachine : Machine KeyServer KeyOp where
  init := KeyServer.Idle
  step := keyStep qt

/-- The claims hold. A statement that stores a private message finds each of its
prekeys claimed, and in no distribution whose handler still runs; one that
stores a distribution finds each of its prekeys claimed; and no statement takes
back the claim of a prekey of a distribution whose handler still runs. -/
structure ClaimsHold (s : KeyServer) (c : Nat) : Prop where
  privates : ∀ m ∈ storedBetween s.pool.store (s.pool.advance c).store,
    ∀ id ∈ privatePrekeys qt s.pool.store m,
      s.pool.store.prekeyStatus id = some .claimed ∧ id ∉ s.waiting.map (·.2)
  groups : ∀ m ∈ storedBetween s.pool.store (s.pool.advance c).store,
    ∀ id ∈ groupPrekeys qt s.pool.store m, s.pool.store.prekeyStatus id = some .claimed
  kept : ∀ id ∈ s.waiting.map (·.2),
    ¬(s.pool.store.prekeyStatus id = some .claimed ∧
      (s.pool.advance c).store.prekeyStatus id = some .unused)

/-- The condition on a step. -/
def StepClaimsHold (s : KeyServer) : KeyOp → Prop
  | .statement c => ClaimsHold qt s c
  | _ => True

end

/-! ## What a handler does -/

/-- What a handler knows and owes: the type of a conversation, and the prekeys of
the distribution it has stored and not yet consumed. -/
structure KeyGhost where
  conv : Option (Int × ConversationType) := none
  pending : List Int := []

def KeyGhost.Holds (t : KeyGhost) (db : Db) : Prop :=
  ∀ x ∈ t.conv, db.conversationType x.1 = some x.2

theorem KeyGhost.Holds.of_extends {t : KeyGhost} {db db' : Db} (h : t.Holds db)
    (hext : db.Extends db') : t.Holds db' :=
  fun x hx => conversationType_of_extends hext (h x hx)

section

variable (qt : Qt)

/-- A message a handler stores: its conversation exists, its claimed prekeys
become used with it, or are owed from then on. -/
structure StoredWith (t' : KeyGhost) (db db' : Db) (m : MessageRow) : Prop where
  appended : Appended db db' m
  conv : (db.getConversation m.conversationId).isSome
  privates : ∀ id ∈ privatePrekeys qt db m, db.prekeyStatus id = some .claimed →
    db'.prekeyStatus id = some .used
  groups : ∀ id ∈ groupPrekeys qt db m,
    id ∈ t'.pending ∧ db'.prekeyStatus id = db.prekeyStatus id

/-- What one statement of a handler may do. -/
structure KeyStatement (t : KeyGhost) (db db' : Db) (t' : KeyGhost) : Prop where
  ext : db.Extends db'
  kept : PrekeysKept db db'
  known : t'.Holds db'
  settled : ∀ id ∈ t.pending,
    id ∈ t'.pending ∨ (db.prekeyStatus id = some .claimed → db'.prekeyStatus id = some .used)
  messages : db'.messages = db.messages ∨ ∃ m, StoredWith qt t' db db' m

def keyProtocol : Protocol Db KeyGhost where
  holds := KeyGhost.Holds
  step := KeyStatement qt

end

/-- A handler ends owing nothing. -/
def settled {α : Type} (t : KeyGhost) (_ : α) : Prop := t.pending = []

/-- A statement that leaves the messages alone, and the used prekeys. -/
structure Quiet (db db' : Db) : Prop where
  ext : db.Extends db'
  kept : PrekeysKept db db'
  messages : db'.messages = db.messages

section follows

variable {qt : Qt} {α : Type} {t : KeyGhost} {Q : KeyGhost → α → Prop}

theorem Quiet.of_eq {db db' : Db} (hu : db'.users = db.users)
    (hc : db'.conversations = db.conversations) (hm : db'.messages = db.messages)
    (hp : db'.prekeys = db.prekeys) : Quiet db db' :=
  ⟨.of_eq hu hc, .of_eq hp, hm⟩

private theorem Quiet.statement {db db' : Db} (h : Quiet db db') (ht : t.Holds db) :
    KeyStatement qt t db db' t :=
  ⟨h.ext, h.kept, ht.of_extends h.ext, fun _ hid => .inl hid, .inl h.messages⟩

private theorem follows_quiet {f : Db → Db × α} (hf : ∀ db, Quiet db (f db).1) (h : ∀ a, Q t a) :
    Follows (keyProtocol qt) Q t (call f) :=
  follows_call fun db ht => ⟨t, (hf db).statement ht, h _⟩

private theorem follows_quietUpdate {Q : KeyGhost → Unit → Prop} {f : Db → Db}
    (hf : ∀ db, Quiet db (f db)) (h : Q t ()) : Follows (keyProtocol qt) Q t (update f) :=
  follows_update fun db ht => ⟨t, (hf db).statement ht, h⟩

private theorem follows_look {f : Db → α} (h : ∀ db, Q t (f db)) :
    Follows (keyProtocol qt) Q t (query f) :=
  follows_query fun db ht => ⟨t, Quiet.statement (.of_eq rfl rfl rfl rfl) ht, h db⟩

private theorem follows_return {a : α} (h : Q t a) : Follows (keyProtocol qt) Q t (pure a) :=
  follows_pure.mpr h

/-! ### Fetching keys -/

theorem quiet_claimPrekeys (userId : Int) (db : Db) : Quiet db (db.claimPrekeys userId).1 :=
  ⟨(db.claimPrekeys_frame userId).1, db.prekeysKept_claimPrekeys userId,
    (db.claimPrekeys_frame userId).2⟩

theorem quiet_appendSyncEvent (userId : Int) (eventType : String) (payload : Json) (db : Db) :
    Quiet db (db.appendSyncEvent userId eventType payload) := by
  unfold Db.appendSyncEvent
  split <;> exact .of_eq rfl rfl rfl rfl

private theorem collectBundles_follows {Q : KeyGhost → List (String × Json) → Prop}
    (userIds : List Int) (h : ∀ bundles, Q t bundles) :
    Follows (keyProtocol qt) Q t (collectBundles userIds) := by
  induction userIds generalizing Q with
  | nil => exact follows_return (h _)
  | cons userId rest ih =>
      unfold collectBundles
      refine (follows_quiet (quiet_claimPrekeys userId) fun claimed => ?_).bind
      refine follows_ite (fun _ => ih h) fun _ => ?_
      refine (follows_look fun db => ?_).bind
      refine (ih fun others => ?_).bind
      exact follows_return (h _)

variable (requestId : Nat) (conn : Connection) (request : Json)

theorem processFetchKeysRequest_follows (ht : t.pending = []) :
    Follows (keyProtocol qt) settled t (processFetchKeysRequest requestId conn request) := by
  unfold processFetchKeysRequest
  dsimp only
  refine follows_ite (fun _ => follows_return ht) fun _ => ?_
  refine (follows_look fun db => ?_).bind
  refine follows_ite (fun _ => follows_return ht) fun _ => ?_
  refine (follows_look fun db => ?_).bind
  refine follows_ite (fun _ => follows_return ht) fun _ => ?_
  refine (follows_quiet (quiet_claimPrekeys _) fun claimed => ?_).bind
  refine follows_ite (fun _ => follows_return ht) fun _ => ?_
  refine (follows_look fun db => ?_).bind
  exact follows_ite (fun _ => follows_return ht) fun _ => follows_return ht

theorem processFetchGroupKeysRequest_follows (ht : t.pending = []) :
    Follows (keyProtocol qt) settled t (processFetchGroupKeysRequest requestId conn request) := by
  unfold processFetchGroupKeysRequest
  dsimp only
  refine follows_ite (fun _ => follows_return ht) fun _ => ?_
  refine (follows_look fun db => ?_).bind
  cases db.getConversation ((request.value "conversationId").toLongLong) with
  | none => exact follows_return ht
  | some conv =>
      refine follows_ite (fun _ => follows_return ht) fun _ => ?_
      refine (follows_look fun db => ?_).bind
      refine follows_ite (fun _ => follows_return ht) fun _ => ?_
      refine (follows_look fun db => ?_).bind
      refine follows_ite (fun _ => follows_return ht) fun _ => ?_
      refine (follows_look fun db => ?_).bind
      refine (collectBundles_follows _ fun bundles => ?_).bind
      exact follows_return ht

/-! ### Private messages -/

/-- What the loop accepts contains every prekey of the entries. -/
private theorem checkEntries_follows {Q : KeyGhost → Except String (List Int) → Prop}
    (targetUserId : Int) (entries : List EnvelopeEntry) (prekeyIds : List Int)
    (seenPeerDevices : List String) (seenSelfCopy : Bool)
    (h : ∀ r, (∀ ids, r = .ok ids → (∀ id ∈ prekeyIds, id ∈ ids) ∧
      ∀ e ∈ entries, 0 < e.prekeyId → e.prekeyId ∈ ids) → Q t r) :
    Follows (keyProtocol qt) Q t
      (checkEntries conn targetUserId entries prekeyIds seenPeerDevices seenSelfCopy) := by
  induction entries generalizing prekeyIds seenPeerDevices seenSelfCopy with
  | nil =>
      refine follows_return (h _ fun ids hids => ?_)
      cases hids
      exact ⟨fun _ hid => hid, by simp⟩
  | cons entry rest ih =>
      unfold checkEntries
      refine follows_ite (fun hself => ?_) fun _ => follows_ite (fun _ => ?_) fun _ => ?_
      · refine follows_ite (fun _ => follows_return (h _ (by simp))) fun _ => ?_
        refine ih _ _ _ fun r hr => h r fun ids hids => ?_
        obtain ⟨hkept, hrest⟩ := hr ids hids
        refine ⟨hkept, fun e he hpos => ?_⟩
        rcases List.mem_cons.mp he with rfl | he
        · rw [hself.2] at hpos
          exact absurd hpos (by decide)
        · exact hrest e he hpos
      · exact follows_return (h _ (by simp))
      · refine (follows_look fun db => ?_).bind
        refine follows_ite (fun _ => ?_) fun _ => follows_return (h _ (by simp))
        refine ih _ _ _ fun r hr => h r fun ids hids => ?_
        obtain ⟨hkept, hrest⟩ := hr ids hids
        refine ⟨fun id hid => hkept id (List.mem_append.mpr (.inl hid)), fun e he hpos => ?_⟩
        rcases List.mem_cons.mp he with rfl | he
        · exact hkept _ (List.mem_append.mpr (.inr List.mem_cons_self))
        · exact hrest e he hpos

/-- Afterwards the conversation is known to be private. -/
private theorem getOrCreatePrivateConversation_follows {Q : KeyGhost → Option Int → Prop}
    (userId1 userId2 : Int)
    (h : ∀ t' r, t'.pending = t.pending →
      (∀ convId, r = some convId → t'.conv = some (convId, .privateType)) → Q t' r) :
    Follows (keyProtocol qt) Q t (getOrCreatePrivateConversation userId1 userId2) := by
  unfold getOrCreatePrivateConversation
  refine follows_ite (fun _ => ?_) fun _ => ?_
  · exact follows_return (h t none rfl (by simp))
  refine Follows.bind (follows_query fun db ht => ?_)
  cases hfind : db.findPrivateConversation userId1 userId2 with
  | some convId =>
      refine ⟨{ t with conv := some (convId, .privateType) }, ?_, ?_⟩
      · refine ⟨.refl db, .refl db, ?_, fun _ hid => .inl hid, .inl rfl⟩
        intro x hx
        cases hx
        exact Option.map_eq_some_iff.mpr (Db.findPrivateConversation_type hfind)
      · exact follows_return (h _ _ rfl fun _ heq => by cases heq; rfl)
  | none =>
      refine ⟨t, Quiet.statement (.of_eq rfl rfl rfl rfl) ht, ?_⟩
      refine Follows.bind (follows_call fun db' ht' => ?_)
      refine ⟨{ t with conv := some (db'.conversations.lastId + 1, .privateType) }, ?_, ?_⟩
      · refine ⟨Db.extends_insertConversation _ _, .of_eq rfl, ?_, fun _ hid => .inl hid,
          .inl rfl⟩
        intro x hx
        cases hx
        simp [Db.conversationType, Db.getConversation, Db.insertConversation, Table.get_insert]
      have hmember : ∀ convId userId role db, Quiet db (Db.insertMember convId userId role db).1 :=
        fun convId userId role db => ⟨Db.extends_insertMember convId userId role db,
          .of_eq (Db.insertMember_prekeys convId userId role db),
          Db.insertMember_messages convId userId role db⟩
      refine (follows_quiet (hmember _ _ _) fun _ => ?_).bind
      refine (follows_quiet (hmember _ _ _) fun _ => ?_).bind
      exact follows_return (h _ _ rfl fun _ heq => by cases heq; rfl)

/-- The transaction, in a conversation known to be private and with every prekey
of the envelope. -/
private theorem storePrivateMessage_follows {Q : KeyGhost → Option Int → Prop} {convId : Int}
    (senderId : Int) (content contentType clientMessageId senderDeviceId : String)
    (prekeyIds : List Int) (hconv : t.conv = some (convId, .privateType))
    (hprekeys : ∀ id ∈ envelopePrekeys qt content, id ∈ prekeyIds) (h : ∀ r, Q t r) :
    Follows (keyProtocol qt) Q t (storePrivateMessage convId senderId content contentType
      clientMessageId senderDeviceId prekeyIds) := by
  refine follows_atomically fun db ht => ⟨t, ?_, h _⟩
  have htype : db.conversationType convId = some .privateType := ht _ hconv
  obtain ⟨hext, hkept, hrows⟩ := storePrivateMessage_prekeys convId senderId content contentType
    clientMessageId senderDeviceId prekeyIds db
  refine ⟨hext, hkept, ht.of_extends hext, fun _ hid => .inl hid, ?_⟩
  refine hrows.imp id fun ⟨happended, hconsumed⟩ => ⟨_, happended, ?_, ?_, ?_⟩
  · obtain ⟨c, hc, _⟩ := Option.map_eq_some_iff.mp htype
    exact Option.isSome_iff_exists.mpr ⟨c, hc⟩
  · intro id hid
    have hrefs : privatePrekeys qt db (newMessage db convId senderId content contentType
        clientMessageId senderDeviceId) = envelopePrekeys qt content := if_pos htype
    rw [hrefs] at hid
    exact hconsumed id (hprekeys id hid)
  · intro id hid
    have hrefs : groupPrekeys qt db (newMessage db convId senderId content contentType
        clientMessageId senderDeviceId) = [] := if_neg fun hgroup => by
      cases htype.symm.trans hgroup.1
    rw [hrefs] at hid
    cases hid

private theorem appendSyncEvents_follows {Q : KeyGhost → Unit → Prop} (eventType : String)
    (payload : Json) (userIds : List Int) (h : Q t ()) :
    Follows (keyProtocol qt) Q t (appendSyncEvents eventType payload userIds) := by
  induction userIds with
  | nil => exact follows_return h
  | cons userId rest ih =>
      unfold appendSyncEvents
      refine (follows_quietUpdate (quiet_appendSyncEvent _ _ _) ?_).bind
      exact ih

theorem processSendPrivateMessage_follows (clientMessageId : String) (ht : t.pending = []) :
    Follows (keyProtocol qt) settled t
      (processSendPrivateMessage qt requestId conn request clientMessageId) := by
  unfold processSendPrivateMessage
  dsimp only
  refine follows_ite (fun _ => follows_return ht) fun _ => ?_
  refine follows_ite (fun _ => follows_return ht) fun _ => ?_
  refine (follows_look fun db => ?_).bind
  cases db.getMessageByClientKey conn.authenticatedUserId conn.currentDeviceId clientMessageId with
  | some existing => exact follows_return ht
  | none =>
    cases hdecode : E2eeCrypto.decodeEnvelope qt ((request.value "content").toStr "") with
    | none => exact follows_return ht
    | some entries =>
      refine (checkEntries_follows conn _ entries [] [] false fun r hr => ?_).bind
      cases r with
      | error message => exact follows_return ht
      | ok prekeyIds =>
        have hprekeys : ∀ id ∈ envelopePrekeys qt ((request.value "content").toStr ""),
            id ∈ prekeyIds := by
          intro id hid
          unfold envelopePrekeys at hid
          rw [hdecode] at hid
          obtain ⟨hentry, hpos⟩ := List.mem_filter.mp hid
          obtain ⟨e, he, rfl⟩ := List.mem_map.mp hentry
          exact (hr prekeyIds rfl).2 e he (by simpa using hpos)
        cases prekeyIds with
        | nil => exact follows_return ht
        | cons id rest =>
          refine (getOrCreatePrivateConversation_follows _ _ fun t' r ht' hconv => ?_).bind
          have hpending : t'.pending = [] := ht'.trans ht
          cases r with
          | none => exact follows_return hpending
          | some convId =>
            refine (storePrivateMessage_follows _ _ _ _ _ _ (hconv convId rfl) hprekeys
              fun stored => ?_).bind
            cases stored with
            | none => exact follows_return hpending
            | some msgId =>
              unfold fanOutPrivateMessage
              refine (follows_look fun db => ?_).bind
              refine (appendSyncEvents_follows _ _ _ ?_).bind
              exact follows_return hpending

/-! ### Group messages -/

/-- What the check accepts are the prekeys of the message. -/
private theorem checkGroupContent_prekeys {conversationId : Int} {content contentType : String}
    {ids : List Int} (h : checkGroupContent qt conversationId content contentType = .ok ids)
    (htype : contentType = "sender_key_distribution") :
    ids = distributionPrekeys qt content := by
  unfold checkGroupContent at h
  unfold distributionPrekeys
  rw [if_neg (by rw [htype]; decide), if_pos htype] at h
  cases hdecode : GroupE2eeCrypto.decodeDistribution qt content with
  | none =>
      rw [hdecode] at h
      cases h
  | some dist =>
      rw [hdecode] at h
      dsimp only at h
      split at h
      · cases h
      · cases h
        rfl

/-- Sending in a conversation known to be a group: with the row the handler
owes the prekeys of its distribution. -/
private theorem sendMessage_follows {Q : KeyGhost → Option Int → Prop} {conversationId : Int}
    (senderId : Int) (content contentType clientMessageId senderDeviceId : String)
    (distPrekeyIds : List Int) (hconv : t.conv = some (conversationId, .groupType))
    (hprekeys : contentType = "sender_key_distribution" →
      distPrekeyIds = distributionPrekeys qt content) (ht : t.pending = [])
    (h : ∀ t' r, t'.pending = [] ∨ (t'.pending = distPrekeyIds ∧ r ≠ none) → Q t' r) :
    Follows (keyProtocol qt) Q t (sendMessage conversationId senderId content contentType
      clientMessageId senderDeviceId) := by
  unfold sendMessage
  refine (follows_look fun db => ?_).bind
  cases db.getMessageByClientKey senderId senderDeviceId clientMessageId with
  | some existing => exact follows_return (h _ _ (.inl ht))
  | none =>
      refine Follows.bind (follows_call fun db' ht' => ?_)
      have htype : db'.conversationType conversationId = some .groupType := ht' _ hconv
      rcases insertMessage_spec conversationId senderId content contentType clientMessageId
        senderDeviceId db' with ⟨_, hnone⟩ | ⟨hcan, db'', hsome, hext, hsame, happended⟩
      · rw [hnone]
        refine ⟨t, Quiet.statement (.of_eq rfl rfl rfl rfl) ht', ?_⟩
        dsimp only
        refine (follows_look fun db => ?_).bind
        exact follows_return (h _ _ (.inl ht))
      · rw [hsome]
        refine ⟨{ t with pending := distPrekeyIds }, ?_, ?_⟩
        · refine ⟨hext, .of_eq hsame, KeyGhost.Holds.of_extends (fun x hx => ht' x hx) hext, ?_,
            .inr ⟨_, happended, hcan.conversation, ?_, ?_⟩⟩
          · intro id hid
            rw [ht] at hid
            cases hid
          · intro id hid
            have hrefs : privatePrekeys qt db' (newMessage db' conversationId senderId content
                contentType clientMessageId senderDeviceId) = [] := if_neg fun hprivate => by
              cases htype.symm.trans hprivate
            rw [hrefs] at hid
            cases hid
          · intro id hid
            unfold groupPrekeys at hid
            split at hid
            · rename_i hgroup
              refine ⟨?_, ?_⟩
              · rw [hprekeys hgroup.2]
                exact hid
              · unfold Db.prekeyStatus
                rw [hsame]
            · cases hid
        · have htouch : ∀ db, Quiet db (Db.touchConversation conversationId db) := fun db =>
            ⟨Db.extends_touchConversation conversationId db, .of_eq rfl, rfl⟩
          refine (follows_quietUpdate htouch ?_).bind
          exact follows_return (h _ _ (.inr ⟨rfl, by simp⟩))

/-- The consumption settles what is owed. -/
private theorem storeGroupMessage_follows {Q : KeyGhost → Option Int → Prop} {conversationId : Int}
    (senderId : Int) (content contentType clientMessageId senderDeviceId : String)
    (distPrekeyIds : List Int) (hconv : t.conv = some (conversationId, .groupType))
    (hprekeys : contentType = "sender_key_distribution" →
      distPrekeyIds = distributionPrekeys qt content) (ht : t.pending = [])
    (h : ∀ t' r, t'.pending = [] → Q t' r) :
    Follows (keyProtocol qt) Q t (storeGroupMessage conversationId senderId content contentType
      clientMessageId senderDeviceId distPrekeyIds) := by
  unfold storeGroupMessage
  refine (sendMessage_follows senderId content contentType clientMessageId senderDeviceId
    distPrekeyIds hconv hprekeys ht fun t' r ht' => ?_).bind
  cases r with
  | none =>
      rcases ht' with hnone | ⟨_, hsome⟩
      · exact follows_return (h _ _ hnone)
      · exact absurd rfl hsome
  | some msgId =>
      refine follows_ite (fun hempty => ?_) fun _ => ?_
      · refine follows_return (h _ _ ?_)
        rcases ht' with hnone | ⟨howed, _⟩
        · exact hnone
        · exact howed.trans hempty
      · refine Follows.bind (follows_call fun db hknown => ?_)
        refine ⟨{ t' with pending := [] }, ?_, follows_return (h _ _ rfl)⟩
        refine ⟨.of_eq rfl rfl, Db.prekeysKept_consumePrekeys distPrekeyIds db,
          KeyGhost.Holds.of_extends (fun x hx => hknown x hx) (.of_eq rfl rfl), ?_, .inl rfl⟩
        intro id hid
        rcases ht' with hnone | ⟨howed, _⟩
        · rw [hnone] at hid
          cases hid
        · rw [howed] at hid
          exact .inr (Db.prekeyStatus_consumePrekeys hid)

theorem processSendGroupMessage_follows (conversationId : Int) (clientMessageId : String)
    (ht : t.pending = []) :
    Follows (keyProtocol qt) settled t
      (processSendGroupMessage qt requestId conn request conversationId clientMessageId) := by
  unfold processSendGroupMessage
  dsimp only
  refine Follows.bind (follows_query fun db hknown => ?_)
  cases hconv : db.getConversation conversationId with
  | none =>
      exact ⟨t, Quiet.statement (.of_eq rfl rfl rfl rfl) hknown, follows_return ht⟩
  | some conv =>
    -- what the handler reads here it knows from now on
    refine ⟨{ t with conv := some (conversationId, conv.type) }, ?_, ?_⟩
    · refine ⟨.refl db, .refl db, ?_, fun _ hid => .inl hid, .inl rfl⟩
      intro x hx
      cases hx
      exact Option.map_eq_some_iff.mpr ⟨conv, hconv, rfl⟩
    dsimp only
    refine follows_ite (fun _ => follows_return ht) fun hgroup => ?_
    have htype : conv.type = .groupType := not_not.mp hgroup
    rw [htype]
    refine (follows_look fun db => ?_).bind
    refine follows_ite (fun _ => follows_return ht) fun _ => ?_
    refine follows_ite (fun _ => follows_return ht) fun _ => ?_
    refine follows_ite (fun _ => follows_return ht) fun _ => ?_
    refine follows_ite (fun _ => follows_return ht) fun _ => ?_
    cases hcheck : checkGroupContent qt conversationId ((request.value "content").toStr "")
        ((request.value "contentType").toStr "text") with
    | error message => exact follows_return ht
    | ok distPrekeyIds =>
      refine (follows_look fun db => ?_).bind
      cases db.getMessageByClientKey conn.authenticatedUserId conn.currentDeviceId
          clientMessageId with
      | some existing => exact follows_return ht
      | none =>
        have hgroupConv : ({ t with conv := some (conversationId, .groupType) } : KeyGhost).conv =
            some (conversationId, .groupType) := rfl
        refine (storeGroupMessage_follows _ _ _ _ _ _ hgroupConv (checkGroupContent_prekeys hcheck) ht
          fun t' stored ht' => ?_).bind
        cases stored with
        | none => exact follows_return ht'
        | some msgId =>
          unfold fanOutGroupMessage
          refine (follows_look fun db => ?_).bind
          refine (follows_look fun db => ?_).bind
          refine (follows_look fun db => ?_).bind
          refine (appendSyncEvents_follows _ _ _ ?_).bind
          exact follows_return ht'

/-- **Handlers.** Every handler follows the protocol, from nothing to nothing. -/
theorem handler_follows (kind : KeyRequest) :
    Follows (keyProtocol qt) settled {} (kind.handler qt requestId conn request) := by
  cases kind with
  | fetchKeys => exact processFetchKeysRequest_follows requestId conn request rfl
  | fetchGroupKeys => exact processFetchGroupKeysRequest_follows requestId conn request rfl
  | sendMessage =>
      unfold KeyRequest.handler processSendMessageRequest
      dsimp only
      refine follows_ite (fun _ => follows_return rfl) fun _ => ?_
      refine (follows_look fun db => ?_).bind
      refine follows_ite (fun _ => follows_return rfl) fun _ => ?_
      refine follows_ite (fun _ => ?_) fun _ => ?_
      · exact processSendGroupMessage_follows requestId _ request _ _ rfl
      · exact processSendPrivateMessage_follows requestId _ request _ rfl

end follows

/-! ## Runs -/

section runs

variable {qt : Qt} {b : Int} {g : Nat → KeyGhost} {s : KeyServer}

theorem privatePrekeys_of_extends (qt : Qt) {db db' : Db} {m : MessageRow} (h : db.Extends db')
    (hconv : (db.getConversation m.conversationId).isSome) :
    privatePrekeys qt db' m = privatePrekeys qt db m ∧
      groupPrekeys qt db' m = groupPrekeys qt db m := by
  obtain ⟨c, hc⟩ := Option.isSome_iff_exists.mp hconv
  have htype : db.conversationType m.conversationId = some c.type :=
    Option.map_eq_some_iff.mpr ⟨c, hc, rfl⟩
  unfold privatePrekeys groupPrekeys
  rw [htype, conversationType_of_extends h htype]
  exact ⟨rfl, rfl⟩

/-- The prekeys of the private messages accepted after the row `b` are used;
those of the distributions are used, or their handler still runs and will use
them; and no prekey protects two. -/
structure KeyInvariant (qt : Qt) (b : Int) (g : Nat → KeyGhost) (s : KeyServer) : Prop where
  guarded : s.pool.Guarded (keyProtocol qt) settled g
  idle : ∀ c, (s.pool.workers c).running = none → ∀ id, (c, id) ∉ s.waiting
  conv : ∀ m ∈ s.pool.store.messages.rows, b < m.id →
    (s.pool.store.getConversation m.conversationId).isSome
  privates : ∀ m ∈ s.pool.store.messages.rows, b < m.id →
    ∀ id ∈ privatePrekeys qt s.pool.store m, s.pool.store.prekeyStatus id = some .used
  groups : ∀ m ∈ s.pool.store.messages.rows, b < m.id →
    ∀ id ∈ groupPrekeys qt s.pool.store m,
      s.pool.store.prekeyStatus id = some .used ∨ id ∈ s.waiting.map (·.2)
  waits : ∀ c id, (c, id) ∈ s.waiting → s.pool.store.prekeyStatus id = some .used ∨
    (id ∈ (g c).pending ∧ s.pool.store.prekeyStatus id = some .claimed)
  once : PrekeysUsedOnce qt b s.pool.store

/-- A new row shares no prekey with the older ones when its claims hold. -/
private theorem KeyInvariant.once_appended {db' : Db} {m : MessageRow} (h : KeyInvariant qt b g s)
    (hext : s.pool.store.Extends db') (happended : Appended s.pool.store db' m)
    (hconv : (s.pool.store.getConversation m.conversationId).isSome)
    (hprivates : ∀ id ∈ privatePrekeys qt s.pool.store m,
      s.pool.store.prekeyStatus id = some .claimed ∧ id ∉ s.waiting.map (·.2))
    (hgroups : ∀ id ∈ groupPrekeys qt s.pool.store m,
      s.pool.store.prekeyStatus id = some .claimed) :
    PrekeysUsedOnce qt b db' := by
  intro m₁ hm₁ m₂ hm₂ hb₁ hb₂ hne id hid
  have hclaimed_ne : s.pool.store.prekeyStatus id = some .claimed →
      s.pool.store.prekeyStatus id = some .used → False := by
    intro hclaimed hused
    rw [hclaimed] at hused
    cases hused
  rcases (happended.mem m₁).mp hm₁ with hold₁ | rfl
  · obtain ⟨hprivate₁, _⟩ := privatePrekeys_of_extends qt hext (h.conv m₁ hold₁ hb₁)
    rw [hprivate₁] at hid
    have hused := h.privates m₁ hold₁ hb₁ id hid
    rcases (happended.mem m₂).mp hm₂ with hold₂ | rfl
    · obtain ⟨hprivate₂, hgroup₂⟩ := privatePrekeys_of_extends qt hext
        (h.conv m₂ hold₂ hb₂)
      rw [hprivate₂, hgroup₂]
      exact h.once m₁ hold₁ m₂ hold₂ hb₁ hb₂ hne id hid
    · obtain ⟨hprivate₂, hgroup₂⟩ := privatePrekeys_of_extends qt hext hconv
      rw [hprivate₂, hgroup₂]
      exact ⟨fun hid₂ => hclaimed_ne (hprivates id hid₂).1 hused,
        fun hid₂ => hclaimed_ne (hgroups id hid₂) hused⟩
  · obtain ⟨hprivate₁, _⟩ := privatePrekeys_of_extends qt hext hconv
    rw [hprivate₁] at hid
    obtain ⟨hclaimed, hfree⟩ := hprivates id hid
    rcases (happended.mem m₂).mp hm₂ with hold₂ | rfl
    · obtain ⟨hprivate₂, hgroup₂⟩ := privatePrekeys_of_extends qt hext
        (h.conv m₂ hold₂ hb₂)
      rw [hprivate₂, hgroup₂]
      refine ⟨fun hid₂ => hclaimed_ne hclaimed (h.privates m₂ hold₂ hb₂ id hid₂), fun hid₂ => ?_⟩
      rcases h.groups m₂ hold₂ hb₂ id hid₂ with hused | hwaits
      · exact hclaimed_ne hclaimed hused
      · exact hfree hwaits
    · exact absurd rfl hne

/-- **Statements.** One that finds the claims it relies on keeps the
invariant. -/
private theorem KeyInvariant.statement {c : Nat} {upd : Db → Db} {next : Db → Prog Db Connection}
    (h : KeyInvariant qt b g s) (hrunning : (s.pool.workers c).running = some (.stmt upd next))
    (hclaims : ClaimsHold qt s c) : ∃ g', KeyInvariant qt b g' (s.statement qt c) := by
  have hadvance : s.pool.advance c =
      { s.pool.setWorker c { s.pool.workers c with running := some (next s.pool.store) } with
        store := upd s.pool.store } := by
    unfold Pool.advance
    rw [hrunning]
  have hstatement : s.statement qt c =
      { pool := s.pool.advance c
        waiting := s.waiting ++ ((storedBetween s.pool.store (upd s.pool.store)).flatMap
          (groupPrekeys qt s.pool.store)).map fun id => (c, id) } := by
    unfold KeyServer.statement
    rw [hrunning]
  obtain ⟨hprivates, hgroups, hkept⟩ := hclaims
  rw [hadvance] at hprivates hgroups hkept
  dsimp only at hprivates hgroups hkept
  rw [hstatement, hadvance]
  obtain ⟨hholds, hfollows⟩ := h.guarded c _ hrunning
  obtain ⟨t', hstep, hnext⟩ := follows_stmt.mp hfollows s.pool.store hholds
  have hstable : Pool.Stable (keyProtocol qt) g c s.pool.store (upd s.pool.store) :=
    fun c' _ hknown => KeyGhost.Holds.of_extends hknown hstep.ext
  -- a prekey that waits for its consumption stays claimed until it is used
  have hwaiting : ∀ id ∈ s.waiting.map (·.2), s.pool.store.prekeyStatus id = some .claimed →
      (upd s.pool.store).prekeyStatus id = some .claimed ∨
        (upd s.pool.store).prekeyStatus id = some .used := by
    intro id hid hclaimed
    obtain ⟨status, hstatus, _⟩ := hstep.kept id _ hclaimed
    cases status with
    | unused => exact absurd ⟨hclaimed, hstatus⟩ (hkept id hid)
    | claimed => exact .inl hstatus
    | used => exact .inr hstatus
  have hwaits : ∀ c' id, (c', id) ∈ s.waiting → (upd s.pool.store).prekeyStatus id = some .used ∨
      (id ∈ (Function.update g c t' c').pending ∧
        (upd s.pool.store).prekeyStatus id = some .claimed) := by
    intro c' id hid
    rcases h.waits c' id hid with hused | ⟨hpending, hclaimed⟩
    · exact .inl (hstep.kept.used hused)
    · rcases hwaiting id (List.mem_map_of_mem hid) hclaimed with hclaimed' | hused
      · by_cases hc : c' = c
        · subst hc
          rw [Function.update_self]
          rcases hstep.settled id hpending with hpending' | hsettled
          · exact .inr ⟨hpending', hclaimed'⟩
          · exact .inl (hsettled hclaimed)
        · rw [Function.update_of_ne hc]
          exact .inr ⟨hpending, hclaimed'⟩
      · exact .inl hused
  have hidle : ∀ c', (Function.update s.pool.workers c
        { s.pool.workers c with running := some (next s.pool.store) } c').running = none →
      c' ≠ c ∧ (s.pool.workers c').running = none := by
    intro c' hnone
    by_cases hc : c' = c
    · subst hc
      simp at hnone
    · rw [Function.update_of_ne hc] at hnone
      exact ⟨hc, hnone⟩
  refine ⟨Function.update g c t', ?_⟩
  rcases hstep.messages with hsame | ⟨m, hstored⟩
  · rw [storedBetween_same hsame, List.flatMap_nil, List.map_nil, List.append_nil]
    have hrefs := fun m hm hb => privatePrekeys_of_extends qt hstep.ext (h.conv m hm hb)
    refine ⟨h.guarded.step hstable hstep.known hnext, fun c' hnone => h.idle c' (hidle c' hnone).2,
      ?_, ?_, ?_, hwaits, ?_⟩
    · intro m hm hb
      rw [hsame] at hm
      obtain ⟨conv, hconv⟩ := Option.isSome_iff_exists.mp (h.conv m hm hb)
      obtain ⟨conv', hconv', _⟩ := hstep.ext.conversations _ conv hconv
      exact Option.isSome_iff_exists.mpr ⟨conv', hconv'⟩
    · intro m hm hb id hid
      rw [hsame] at hm
      rw [(hrefs m hm hb).1] at hid
      exact hstep.kept.used (h.privates m hm hb id hid)
    · intro m hm hb id hid
      rw [hsame] at hm
      rw [(hrefs m hm hb).2] at hid
      exact (h.groups m hm hb id hid).imp_left hstep.kept.used
    · intro m₁ hm₁ m₂ hm₂ hb₁ hb₂ hne id hid
      rw [hsame] at hm₁ hm₂
      rw [(hrefs m₁ hm₁ hb₁).1] at hid
      rw [(hrefs m₂ hm₂ hb₂).1, (hrefs m₂ hm₂ hb₂).2]
      exact h.once m₁ hm₁ m₂ hm₂ hb₁ hb₂ hne id hid
  · rw [storedBetween_appended hstored.appended] at hprivates hgroups ⊢
    rw [List.flatMap_singleton]
    have hnew := hprivates m List.mem_cons_self
    have hnewGroup := hgroups m List.mem_cons_self
    have hrefs := privatePrekeys_of_extends qt hstep.ext hstored.conv
    refine ⟨h.guarded.step hstable hstep.known hnext, ?_, ?_, ?_, ?_, ?_,
      h.once_appended hstep.ext hstored.appended hstored.conv hnew hnewGroup⟩
    · intro c' hnone id hid
      obtain ⟨hc, hnone'⟩ := hidle c' hnone
      rcases List.mem_append.mp hid with hold | hadded
      · exact h.idle c' hnone' id hold
      · obtain ⟨id', _, heq⟩ := List.mem_map.mp hadded
        cases heq
        exact hc rfl
    · intro m' hm' hb
      rcases (hstored.appended.mem m').mp hm' with hold | rfl
      · obtain ⟨conv, hconv⟩ := Option.isSome_iff_exists.mp (h.conv m' hold hb)
        obtain ⟨conv', hconv', _⟩ := hstep.ext.conversations _ conv hconv
        exact Option.isSome_iff_exists.mpr ⟨conv', hconv'⟩
      · exact hstored.appended.conversation
    · intro m' hm' hb id hid
      rcases (hstored.appended.mem m').mp hm' with hold | rfl
      · rw [(privatePrekeys_of_extends qt hstep.ext (h.conv m' hold hb)).1] at hid
        exact hstep.kept.used (h.privates m' hold hb id hid)
      · rw [hrefs.1] at hid
        exact hstored.privates id hid (hnew id hid).1
    · intro m' hm' hb id hid
      rw [List.map_append, List.mem_append]
      rcases (hstored.appended.mem m').mp hm' with hold | rfl
      · rw [(privatePrekeys_of_extends qt hstep.ext (h.conv m' hold hb)).2] at hid
        exact (h.groups m' hold hb id hid).imp hstep.kept.used .inl
      · rw [hrefs.2] at hid
        exact .inr (.inr (by simpa using hid))
    · intro c' id hid
      rcases List.mem_append.mp hid with hold | hadded
      · exact hwaits c' id hold
      · obtain ⟨id', hid', heq⟩ := List.mem_map.mp hadded
        cases heq
        obtain ⟨howed, hunchanged⟩ := hstored.groups id hid'
        rw [Function.update_self]
        exact .inr ⟨howed, hunchanged.trans (hnewGroup id hid')⟩

/-- **Step lemma.** A step that finds the claims it relies on keeps the
invariant. -/
theorem keyStep_invariant {op : KeyOp} (h : KeyInvariant qt b g s) (hop : StepClaimsHold qt s op) :
    ∃ g', KeyInvariant qt b g' (keyStep qt s op) := by
  cases op with
  | connect c conn =>
      unfold keyStep
      dsimp only
      by_cases hbusy : (s.pool.workers c).running.isSome = true
      · rw [if_pos hbusy]
        exact ⟨g, h⟩
      · rw [if_neg hbusy]
        have hnone : (s.pool.workers c).running = none := by simpa using hbusy
        refine ⟨g, h.guarded.setWorker, fun c' hidle => ?_, h.conv, h.privates, h.groups, h.waits,
          h.once⟩
        by_cases hc : c' = c
        · subst hc
          exact h.idle c' hnone
        · dsimp only [Pool.setWorker] at hidle
          rw [Function.update_of_ne hc] at hidle
          exact h.idle c' hidle
  | request c requestId kind request =>
      unfold keyStep
      dsimp only
      by_cases hbusy : (s.pool.workers c).running.isSome = true
      · rw [if_pos hbusy]
        exact ⟨g, h⟩
      · rw [if_neg hbusy]
        have hnone : (s.pool.workers c).running = none := by simpa using hbusy
        have hfollows : Follows (keyProtocol qt) (fun t (o : Outcome) => settled t o.conn) {}
            (kind.handler qt requestId (s.pool.workers c).here request) :=
          (handler_follows requestId (s.pool.workers c).here request kind).mono fun _ _ hend => hend
        have hholds : (keyProtocol qt).holds {} s.pool.store := fun x hx => by cases hx
        refine ⟨_, h.guarded.start hholds (Follows.map hfollows), fun c' hidle => ?_, h.conv,
          h.privates, h.groups, fun c' id hid => ?_, h.once⟩
        · by_cases hc : c' = c
          · subst hc
            exact h.idle c' hnone
          · dsimp only [Pool.start, Pool.setWorker] at hidle
            rw [Function.update_of_ne hc] at hidle
            exact h.idle c' hidle
        · by_cases hc : c' = c
          · subst hc
            exact absurd hid (h.idle c' hnone id)
          · rw [Function.update_of_ne hc]
            exact h.waits c' id hid
  | statement c =>
      show ∃ g', KeyInvariant qt b g' (s.statement qt c)
      cases hrunning : (s.pool.workers c).running with
      | none =>
          refine ⟨g, ?_⟩
          unfold KeyServer.statement
          rw [hrunning]
          exact h
      | some prog =>
        cases prog with
        | stmt upd next => exact h.statement hrunning hop
        | ret conn =>
          -- the handler ends, and owes nothing
          have hend : Follows (keyProtocol qt) settled (g c) (pure conn) :=
            (h.guarded c _ hrunning).2
          have hsettled : settled (g c) conn := follows_pure.mp hend
          have hnothing : (g c).pending = [] := hsettled
          have hused : ∀ id, (c, id) ∈ s.waiting → s.pool.store.prekeyStatus id = some .used := by
            intro id hid
            rcases h.waits c id hid with hused | ⟨hpending, _⟩
            · exact hused
            · rw [hnothing] at hpending
              cases hpending
          have hadvance : s.pool.advance c = s.pool.setWorker c { here := conn } := by
            unfold Pool.advance
            rw [hrunning]
          unfold KeyServer.statement
          rw [hrunning]
          dsimp only
          rw [hadvance]
          refine ⟨g, h.guarded.setWorker, fun c' hidle id hid => ?_, h.conv, h.privates, ?_, ?_,
            h.once⟩
          · obtain ⟨hold, hne⟩ := List.mem_filter.mp hid
            have hc : c' ≠ c := by simpa using hne
            dsimp only [Pool.setWorker] at hidle
            rw [Function.update_of_ne hc] at hidle
            exact h.idle c' hidle id hold
          · intro m hm hb id hid
            rcases h.groups m hm hb id hid with hused' | hwaits
            · exact .inl hused'
            · obtain ⟨⟨c', id'⟩, hold, rfl⟩ := List.mem_map.mp hwaits
              by_cases hc : c' = c
              · subst hc
                exact .inl (hused _ hold)
              · exact .inr (List.mem_map.mpr ⟨(c', id'), List.mem_filter.mpr ⟨hold, by simpa⟩, rfl⟩)
          · intro c' id hid
            exact h.waits c' id (List.mem_filter.mp hid).1
  | tick seconds =>
      exact ⟨g, h.guarded.setStore fun t ht => ht, h.idle, h.conv, h.privates, h.groups, h.waits,
        h.once⟩

/-- **Prekeys protect one message** in every interleaving whose statements find
the claims they rely on. -/
theorem prekeysUsedOnce_of_claims (qt : Qt) (s₀ : KeyServer) (h₀ : s₀.Idle) (ops : List KeyOp)
    (hclaims : (keyMachine qt).Along (StepClaimsHold qt) s₀ ops) :
    (keyMachine qt).Always
      (fun s => PrekeysUsedOnce qt s₀.pool.store.messages.lastId s.pool.store) s₀ ops := by
  have hold : ∀ m ∈ s₀.pool.store.messages.rows, ¬s₀.pool.store.messages.lastId < m.id :=
    fun m hm hlt => absurd (s₀.pool.store.messages.bounded m hm).2 (by simpa using hlt)
  have hinit : ∃ g, KeyInvariant qt s₀.pool.store.messages.lastId g s₀ := by
    refine ⟨fun _ => {}, ?_, fun c _ id hid => ?_, fun m hm hb => absurd hb (hold m hm),
      fun m hm hb => absurd hb (hold m hm), fun m hm hb => absurd hb (hold m hm),
      fun c id hid => ?_, fun m hm _ _ hb => absurd hb (hold m hm)⟩
    · intro c prog hrunning
      rw [h₀.idle c] at hrunning
      cases hrunning
    · rw [h₀.waiting] at hid
      cases hid
    · rw [h₀.waiting] at hid
      cases hid
  have hstep : ∀ s op, (∃ g, KeyInvariant qt s₀.pool.store.messages.lastId g s) →
      StepClaimsHold qt s op →
      ∃ g, KeyInvariant qt s₀.pool.store.messages.lastId g ((keyMachine qt).step s op) := by
    rintro s op ⟨g, hg⟩ hop
    exact keyStep_invariant hg hop
  refine (Machine.always_of_along hstep hinit hclaims).mono fun s hs => ?_
  obtain ⟨g, hg⟩ := hs
  exact hg.once

end runs

/-! ## Two runs -/

instance (qt : Qt) (s : KeyServer) (c : Nat) : Decidable (ClaimsHold qt s c) :=
  decidable_of_iff
    ((∀ m ∈ storedBetween s.pool.store (s.pool.advance c).store,
        ∀ id ∈ privatePrekeys qt s.pool.store m,
          s.pool.store.prekeyStatus id = some .claimed ∧ id ∉ s.waiting.map Prod.snd) ∧
      (∀ m ∈ storedBetween s.pool.store (s.pool.advance c).store,
        ∀ id ∈ groupPrekeys qt s.pool.store m, s.pool.store.prekeyStatus id = some .claimed) ∧
      ∀ id ∈ s.waiting.map Prod.snd, ¬(s.pool.store.prekeyStatus id = some .claimed ∧
        (s.pool.advance c).store.prekeyStatus id = some .unused))
    ⟨fun h => ⟨h.1, h.2.1, h.2.2⟩, fun h => ⟨h.privates, h.groups, h.kept⟩⟩

instance (qt : Qt) (s : KeyServer) : ∀ op, Decidable (StepClaimsHold qt s op)
  | .statement c => inferInstanceAs (Decidable (ClaimsHold qt s c))
  | .connect .. => isTrue trivial
  | .request .. => isTrue trivial
  | .tick _ => isTrue trivial

/-- Alice, and bob with an identity key and one prekey. -/
def keyDb : Db where
  now := 1767225600
  users := .ofRows [{ id := 1, username := "alice" }, { id := 2, username := "bob" }]
  devices := .ofRows [{ id := 1, userId := 2, deviceId := "B" }]
  deviceIdentityKeys := .ofRows [{ id := 1, userId := 2, deviceId := "B", identityPub := "aWQ=" }]
  prekeys := .ofRows [{ id := 1, userId := 2, deviceId := "B", pub := "cHVi" }]

def keyServer : KeyServer where
  pool := { store := keyDb, workers := fun _ => { here := {} } }

theorem keyServer_idle : keyServer.Idle := ⟨fun _ => rfl, rfl⟩

/-- Alice's request to send the envelope to bob. -/
def sendEnvelope (clientMessageId : String) : Json := .obj
  [ ("clientMessageId", .str clientMessageId), ("toUserId", .int 2)
  , ("content", .str sampleEnvelope.text) ]

/-- Alice fetches bob's keys. -/
def fetchBob : List KeyOp :=
  [.connect 0 alice, .request 0 1 .fetchKeys (.obj [("userId", .int 2)])]
    ++ List.replicate 5 (.statement 0)

/-- Alice sends one message under the prekey she has claimed. -/
theorem prekeysUsedOnce_oneSend :
    (keyMachine sampleQt).Always (fun s => PrekeysUsedOnce sampleQt 0 s.pool.store) keyServer
      (fetchBob ++ .request 0 2 .sendMessage (sendEnvelope "m1") ::
        List.replicate 12 (.statement 0)) :=
  prekeysUsedOnce_of_claims sampleQt keyServer keyServer_idle _ (by decide +kernel)

/-- Alice sends two messages under it, over two connections: both are checked
before either is stored. -/
def twoSends : List KeyOp :=
  fetchBob ++ [.connect 1 alice, .request 0 2 .sendMessage (sendEnvelope "m1")
    , .request 1 2 .sendMessage (sendEnvelope "m2")]
    ++ List.replicate 3 (.statement 0) ++ List.replicate 3 (.statement 1)
    ++ List.replicate 9 (.statement 0) ++ List.replicate 9 (.statement 1)

/-- Both are accepted, under one prekey. -/
theorem twoSends_share_prekey :
    ¬(keyMachine sampleQt).Always (fun s => PrekeysUsedOnce sampleQt 0 s.pool.store) keyServer
      twoSends := by
  intro h
  have hrows : ∃ m ∈ ((keyMachine sampleQt).run keyServer twoSends).pool.store.messages.rows,
      ∃ m' ∈ ((keyMachine sampleQt).run keyServer twoSends).pool.store.messages.rows,
        m.id = 1 ∧ m'.id = 2 ∧
          1 ∈ privatePrekeys sampleQt
            ((keyMachine sampleQt).run keyServer twoSends).pool.store m ∧
          1 ∈ privatePrekeys sampleQt
            ((keyMachine sampleQt).run keyServer twoSends).pool.store m' := by
    decide +kernel
  obtain ⟨m, hm, m', hm', hid, hid', hprekey, hprekey'⟩ := hrows
  exact (h.last m hm m' hm' (by omega) (by omega) (by omega) 1 hprekey).1 hprekey'

end XYChat.Server
