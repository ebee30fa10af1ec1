import XYChat.Lib.Pool
import XYChat.Server.MemberSpecs

/-!
# Messages and their events

The server's connections handle `SendMessage`, `EditMessage` and `DeleteMessage`
statement by statement, in any interleaving, while users register and groups
change. A handler writes one row of `messages` and then tells the members, one
event each; this file says what each of its statements may do, whatever the
others do in between.
-/

namespace XYChat.Server

open XYChat.Lib
open XYChat.Lib.Prog
open E2eeCrypto (EnvelopeEntry)

/-! ## The machine -/

inductive MessageRequest where
  | sendMessage
  | editMessage
  | deleteMessage
  deriving DecidableEq, Repr

/-- A request that a connection takes up. -/
structure Task where
  kind : MessageRequest := .sendMessage
  requestId : Nat := 0
  conn : Connection := {}
  request : Json := .null

namespace Task

/-- Its handler. -/
def handler (qt : Qt) (k : Task) : Prog Db Outcome :=
  match k.kind with
  | .sendMessage => processSendMessageRequest qt k.requestId k.conn k.request
  | .editMessage => processEditMessageRequest qt k.requestId k.conn k.request
  | .deleteMessage => processDeleteMessageRequest qt k.requestId k.conn k.request

/-- The client's id of the message a send asks for. -/
def clientMessageId (k : Task) : String := trimmed ((k.request.value "clientMessageId").toStr "")

/-- The message that an edit or a deletion names. -/
def messageId (k : Task) : Int := (k.request.value "messageId").toLongLong

/-- How many statements a send executes before its checks are done and nothing can
keep it from its `INSERT`: those up to the lookup of its key, and one for each
prekey of a private envelope. -/
def checks (qt : Qt) (k : Task) : Nat :=
  if 0 < (k.request.value "conversationId").toLongLong then 4
  else 2 + ((E2eeCrypto.decodeEnvelope qt ((k.request.value "content").toStr "")).getD []).countP
    fun e => !decide (e.deviceId = k.conn.currentDeviceId ∧ e.prekeyId = E2eeCrypto.selfCopyPrekeyId)

/-- The row is one that a send's idempotency key names. -/
structure Owns (k : Task) (m : MessageRow) : Prop where
  sender : m.senderId = k.conn.authenticatedUserId
  device : m.senderDeviceId = Db.nullable k.conn.currentDeviceId
  clientId : m.clientMessageId = some k.clientMessageId

/-- The statement after `executed` others is the `UPDATE` of an edit or of a
deletion, and there is a row for it. -/
def rewrites (k : Task) (executed : Nat) (db : Db) : Bool :=
  executed == 1 && k.kind != .sendMessage
    && (db.messages.get k.messageId).any fun m => k.kind == .deleteMessage || !m.deleted

end Task

/-- What has happened of a handler: how many statements it has executed, the row
it has written and which write of the run that was, and who the members of the
stored message's conversation were at each of its statements since. -/
structure Handled where
  task : Task := {}
  executed : Nat := 0
  wrote : Option (Int × Nat) := none
  seen : List (List Int) := []

namespace Handled

/-- The message that the handler of a send has stored. -/
def stored (r : Handled) : Option Int :=
  if r.task.kind = .sendMessage then r.wrote.map (·.1) else none

/-- The row that the statement from `db` to `db'` writes. -/
def writes (r : Handled) (db db' : Db) : Option Int :=
  match storedBetween db db' with
  | m :: _ => some m.id
  | [] => if r.task.rewrites r.executed db then some r.task.messageId else none

/-- Account for the statement from `db` to `db'`, before which there were `count`
writes. -/
def after (r : Handled) (count : Nat) (db db' : Db) : Handled where
  task := r.task
  executed := r.executed + 1
  wrote :=
    match r.writes db db' with
    | some i => some (i, count + 1)
    | none => r.wrote
  seen := r.seen ++ ((r.stored.bind db.messages.get).map fun m =>
    db.getConversationMemberIds m.conversationId).toList

end Handled

/-- The message an event is about. -/
def SyncEventRow.about (e : SyncEventRow) : Int := (e.payload.value "messageId").toLongLong

/-- The events that are in `db'` and not yet in `db`. -/
def eventsBetween (db db' : Db) : List SyncEventRow :=
  db'.syncEvents.rows.drop db.syncEvents.rows.length

/-- The members that are in `db'` and not yet in `db`. -/
def joinedBetween (db db' : Db) : List MemberRow :=
  db'.conversationMembers.rows.drop db.conversationMembers.rows.length

/-- The connections over the database, and what has happened so far: the answers,
the members seen by the handlers of the messages sent, how many writes there were
and which was the last of each row, the last of them each user was told of, and
who joined or left which conversation after which message. -/
structure MessageServer where
  pool : Pool Db (Connection × Option Response)
  handled : Nat → Handled := fun _ => {}
  replies : List (Task × Response) := []
  sent : List (Int × List (List Int)) := []
  count : Nat := 0
  written : Int → Nat := fun _ => 0
  shown : Int → Int → Nat := fun _ _ => 0
  moved : List (Int × Int × Int) := []

/-- A user registers, a group is created, a user joins or leaves a group, the
prekeys change, time passes; an idle slot is given to a connection, an idle
connection takes up a request, a busy one executes a statement. -/
inductive MessageOp where
  | register (username passwordHash : String)
  | createGroup
  | join (conversationId userId : Int) (role : MemberRole)
  | leave (conversationId userId : Int)
  | prekeys (table : Table PrekeyRow)
  | tick (seconds : Nat)
  | connect (c : Nat) (conn : Connection)
  | request (c : Nat) (kind : MessageRequest) (requestId : Nat) (request : Json)
  | statement (c : Nat)

namespace MessageServer

def setDb (s : MessageServer) (db : Db) : MessageServer :=
  { s with pool := { s.pool with store := db } }

/-- A user joins or leaves a group. -/
def move (s : MessageServer) (conversationId userId : Int) (db : Db) : MessageServer :=
  { s.setDb db with
    moved := s.moved ++ [(conversationId, userId, s.pool.store.messages.lastId)] }

/-- A connection executes the next statement of its handler, or the answer of one
that has ended is sent. -/
def statement (s : MessageServer) (c : Nat) : MessageServer :=
  match (s.pool.workers c).running with
  | none => s
  | some (.ret k) =>
      let r := s.handled c
      { s with
        pool := s.pool.advance c
        replies := s.replies ++ k.2.toList.map fun response => (r.task, response)
        sent := s.sent ++ r.stored.toList.map fun i => (i, r.seen) }
  | some (.stmt upd _) =>
      let db := s.pool.store
      let db' := upd db
      let r := (s.handled c).after s.count db db'
      { s with
        pool := s.pool.advance c
        handled := Function.update s.handled c r
        count := if ((s.handled c).writes db db').isSome then s.count + 1 else s.count
        written := fun i => if (s.handled c).writes db db' = some i then s.count + 1 else s.written i
        shown := fun i u =>
          match r.wrote with
          | some (j, n) =>
              if j = i ∧ (eventsBetween db db').any (fun e => e.userId == u && e.about == i) then
                max (s.shown i u) n
              else s.shown i u
          | none => s.shown i u
        moved := s.moved ++ (joinedBetween db db').map fun r =>
          (r.conversationId, r.userId, db.messages.lastId) }

end MessageServer

/-- The answer of a handler. -/
def Outcome.answer (o : Outcome) : Connection × Option Response := (o.conn, some o.response)

section

variable (qt : Qt)

def messageStep (s : MessageServer) : MessageOp → MessageServer
  | .register username passwordHash =>
      s.setDb (s.pool.store.registerUser username passwordHash).1
  | .createGroup => s.setDb (s.pool.store.insertConversation .groupType).1
  | .join conversationId userId role =>
      if s.pool.store.conversationType conversationId = some .groupType then
        s.move conversationId userId (s.pool.store.insertMember conversationId userId role).1
      else s
  | .leave conversationId userId =>
      if s.pool.store.conversationType conversationId = some .groupType then
        s.move conversationId userId (s.pool.store.removeGroupMember conversationId userId).1
      else s
  | .prekeys table =>
      if table.rows.all fun p => (s.pool.store.users.get p.userId).isSome then
        s.setDb { s.pool.store with prekeys := table }
      else s
  | .tick seconds => s.setDb { s.pool.store with now := s.pool.store.now + seconds }
  | .connect c conn =>
      if (s.pool.workers c).running.isSome then s
      else { s with pool := s.pool.setWorker c { here := (conn, none) } }
  | .request c kind requestId request =>
      let task : Task := { kind, requestId, conn := (s.pool.workers c).here.1, request }
      if (s.pool.workers c).running.isSome
          ∨ (s.pool.store.users.get task.conn.authenticatedUserId).isNone then s
      else
        { s with
          pool := s.pool.start c (Outcome.answer <$> task.handler qt)
          handled := Function.update s.handled c { task } }
  | .statement c => s.statement c

section

variable {qt} {s : MessageServer}

theorem messageStep_join {id u : Int} {role : MemberRole} : messageStep qt s (.join id u role) =
    if s.pool.store.conversationType id = some .groupType then
      s.move id u (s.pool.store.insertMember id u role).1
    else s := rfl

theorem messageStep_leave {id u : Int} : messageStep qt s (.leave id u) =
    if s.pool.store.conversationType id = some .groupType then
      s.move id u (s.pool.store.removeGroupMember id u).1
    else s := rfl

theorem messageStep_prekeys {table : Table PrekeyRow} : messageStep qt s (.prekeys table) =
    if table.rows.all fun p => (s.pool.store.users.get p.userId).isSome then
      s.setDb { s.pool.store with prekeys := table }
    else s := rfl

theorem messageStep_connect {c : Nat} {conn : Connection} : messageStep qt s (.connect c conn) =
    if (s.pool.workers c).running.isSome then s
    else { s with pool := s.pool.setWorker c { here := (conn, none) } } := rfl

theorem messageStep_request {c requestId : Nat} {kind : MessageRequest} {request : Json} :
    messageStep qt s (.request c kind requestId request) =
      let task : Task := { kind, requestId, conn := (s.pool.workers c).here.1, request }
      if (s.pool.workers c).running.isSome
          ∨ (s.pool.store.users.get task.conn.authenticatedUserId).isNone then s
      else
        { s with
          pool := s.pool.start c (Outcome.answer <$> task.handler qt)
          handled := Function.update s.handled c { task } } := rfl

end

/-- Nobody is connected to an empty database, and nothing has happened. -/
structure MessageServer.Fresh (s : MessageServer) : Prop where
  idle : ∀ c, (s.pool.workers c).running = none
  members : s.pool.store.conversationMembers.rows = []
  prekeys : s.pool.store.prekeys.rows = []
  messages : s.pool.store.messages.rows = []
  syncEvents : s.pool.store.syncEvents.rows = []
  replies : s.replies = []
  sent : s.sent = []
  written : ∀ i, s.written i = 0
  shown : ∀ i u, s.shown i u = 0

def emptyMessageServer : MessageServer where
  pool := { store := { now := 1767225600 }, workers := fun _ => { here := ({}, none) } }

theorem emptyMessageServer_fresh : emptyMessageServer.Fresh :=
  ⟨fun _ => rfl, rfl, rfl, rfl, rfl, rfl, rfl, fun _ => rfl, fun _ _ => rfl⟩

def messageMachine : Machine MessageServer MessageOp where
  init := MessageServer.Fresh
  step := messageStep qt

end

/-! ## What holds of the tables -/

/-- The foreign keys and unique pairs of the schema, and no private conversation
has more than two members. -/
structure Db.WellFormed (db : Db) : Prop where
  memberUser : ∀ r ∈ db.conversationMembers.rows, (db.users.get r.userId).isSome
  memberConversation : ∀ r ∈ db.conversationMembers.rows,
    (db.conversationType r.conversationId).isSome
  unique : ∀ r ∈ db.conversationMembers.rows, ∀ r' ∈ db.conversationMembers.rows,
    r.conversationId = r'.conversationId → r.userId = r'.userId → r = r'
  pair : ∀ id, db.conversationType id = some .privateType →
    ∃ a b, ∀ u, db.isConversationMember id u = true → u = a ∨ u = b
  prekeyUser : ∀ p ∈ db.prekeys.rows, (db.users.get p.userId).isSome
  deviceId : ∀ m ∈ db.messages.rows, m.senderDeviceId ≠ some ""

/-- Users, conversations with their types, and the users of prekeys stay. -/
structure Db.Grows (db db' : Db) : Prop where
  users : ∀ u, (db.users.get u).isSome → (db'.users.get u).isSome
  types : ∀ id type, db.conversationType id = some type → db'.conversationType id = some type
  prekeys : ∀ p' ∈ db'.prekeys.rows, (db'.users.get p'.userId).isSome ∨
    ∃ p ∈ db.prekeys.rows, p'.userId = p.userId

/-- No row is lost, and each keeps what says whose message it is. -/
def MessagesKept (db db' : Db) : Prop :=
  ∀ m ∈ db.messages.rows, ∃ m' ∈ db'.messages.rows, m'.id = m.id ∧
    m'.conversationId = m.conversationId ∧ m'.senderId = m.senderId ∧
    m'.senderDeviceId = m.senderDeviceId ∧ m'.clientMessageId = m.clientMessageId

/-! ## The protocol of a handler -/

/-- The kinds of events about a message. -/
inductive MessageEvent where
  | message
  | edited
  | deleted
  deriving DecidableEq, Repr

def MessageEvent.text : MessageEvent → String
  | .message => "message"
  | .edited => "message_edited"
  | .deleted => "message_deleted"

/-- A private conversation a handler works with: its members, and whether this
handler has created it. -/
structure Known where
  id : Int
  members : List Int
  created : Bool := false

/-- What a handler tells the members: an event about a message it has written,
or that another has stored, and who is still to be told once that is known. -/
structure Fan where
  messageId : Int
  conversationId : Int
  event : MessageEvent
  content : String
  own : Bool := true
  left : Option (List Int) := none

/-- The payload is that of the fan's event. -/
structure Fan.Tells (f : Fan) (payload : Json) : Prop where
  messageId : payload.value "messageId" = .int f.messageId
  content : f.event ≠ .deleted → payload.value "content" = .str f.content

/-- How far a handler has come: another user it knows to exist, the private
conversation it works with, the row it will answer with or change and the
conversation of that, and what it tells the members. -/
structure MessageGhost where
  task : Task := {}
  executed : Nat := 0
  peer : Option Int := none
  conv : Option Known := none
  row : Option (Int × Int) := none
  fan : Option Fan := none

/-- One statement later. -/
def MessageGhost.next (t : MessageGhost) : MessageGhost := { t with executed := t.executed + 1 }

/-- What a handler knows of the database. -/
structure MessageGhost.Knows (t : MessageGhost) (db : Db) : Prop where
  me : (db.users.get t.task.conn.authenticatedUserId).isSome
  peer : ∀ u ∈ t.peer, (db.users.get u).isSome
  conv : ∀ k ∈ t.conv, db.conversationType k.id = some .privateType ∧
    (∀ u, db.isConversationMember k.id u = true ↔ u ∈ k.members) ∧
    (k.created = false → ∃ a b, a ≠ b ∧ k.members = [a, b])
  row : ∀ r ∈ t.row, ∃ m ∈ db.messages.rows, m.id = r.1 ∧ m.conversationId = r.2 ∧
    (t.task.kind = .sendMessage → t.task.Owns m)
  fan : ∀ f ∈ t.fan, (∃ m ∈ db.messages.rows, m.id = f.messageId ∧
    (f.own = true → m.conversationId = f.conversationId)) ∧
    ∀ l ∈ f.left, ∀ u ∈ l, (db.users.get u).isSome

section

variable (qt : Qt)

/-- What a handler may learn from a statement that only reads: who is to be told
of what it has written, or that another has stored its message. -/
inductive Learns (t : MessageGhost) (db : Db) : Option Fan → Prop
  | nothing : Learns t db t.fan
  | audience (f : Fan) (l : List Int) (hfan : t.fan = some f) (hleft : f.left = none)
      (nodup : l.Nodup)
      (members : f.own = true → ∀ u, u ∈ l ↔ db.isConversationMember f.conversationId u = true) :
      Learns t db (some { f with left := some l })
  | other (f : Fan) (hfan : t.fan = none) (kind : t.task.kind = .sendMessage)
      (event : f.event = .message) (own : f.own = false)
      (ready : t.task.checks qt ≤ t.executed)
      (taken : ∃ m ∈ db.messages.rows, t.task.Owns m) : Learns t db (some f)

/-- The row `i` gets a new content, and no other row changes. -/
structure Rewritten (db db' : Db) (i : Int) (content : String) (gone : Bool) : Prop where
  lastId : db'.messages.lastId = db.messages.lastId
  rows : ∃ g : MessageRow → MessageRow, db'.messages.rows = db.messages.rows.map g ∧
    (∀ m, (g m).id = m.id ∧ (g m).conversationId = m.conversationId ∧
      (g m).senderId = m.senderId ∧ (g m).senderDeviceId = m.senderDeviceId ∧
      (g m).clientMessageId = m.clientMessageId) ∧
    (∀ m ∈ db.messages.rows, m.id ≠ i → g m = m) ∧
    ∀ m ∈ db.messages.rows, m.id = i → (g m).content = content ∧ (g m).deleted = gone

/-- What one statement of a handler may do. It changes no table but the prekeys;
it creates a private conversation, or adds a member to one it has created; it
stores the message, rewrites a row, or tells a member. -/
inductive MessageStatement (t : MessageGhost) (db db' : Db) : MessageGhost → Prop
  | quiet (t' : MessageGhost) (members : db'.conversationMembers = db.conversationMembers)
      (messages : db'.messages = db.messages) (syncEvents : db'.syncEvents = db.syncEvents)
      (rewrites : t.task.rewrites t.executed db = false)
      (task : t'.task = t.task) (executed : t'.executed = t.executed + 1)
      (conv : ∀ k ∈ t'.conv, k.created = true → t.conv = some k)
      (learns : Learns qt t db t'.fan) (knows : t'.Knows db') : MessageStatement t db db' t'
  | create (id : Int) (members : db'.conversationMembers = db.conversationMembers)
      (messages : db'.messages = db.messages) (syncEvents : db'.syncEvents = db.syncEvents)
      (kind : t.task.kind = .sendMessage) (conv : t.conv = none)
      (fresh : db.conversationType id = none)
      (created : db'.conversationType id = some .privateType) :
      MessageStatement t db db' { t.next with conv := some ⟨id, [], true⟩ }
  | join (id u : Int) (l : List Int) (hconv : t.conv = some ⟨id, l, true⟩) (hl : l.length ≤ 1)
      (new : u ∉ l) (exist : (db.users.get u).isSome) (kind : t.task.kind = .sendMessage)
      (members : ∃ r : MemberRow, r.conversationId = id ∧ r.userId = u ∧
        db'.conversationMembers.rows = db.conversationMembers.rows ++ [r])
      (messages : db'.messages = db.messages) (syncEvents : db'.syncEvents = db.syncEvents) :
      MessageStatement t db db' { t.next with conv := some ⟨id, l ++ [u], true⟩ }
  | store (m : MessageRow) (members : db'.conversationMembers = db.conversationMembers)
      (syncEvents : db'.syncEvents = db.syncEvents) (appended : Appended db db' m)
      (kind : t.task.kind = .sendMessage) (fan : t.fan = none) (owns : t.task.Owns m)
      (live : m.deleted = false) (ready : t.task.checks qt ≤ t.executed) :
      MessageStatement t db db'
        { t.next with row := some (m.id, m.conversationId), fan := some ⟨m.id, m.conversationId,
            .message, m.content, true, none⟩ }
  | write (f : Fan) (members : db'.conversationMembers = db.conversationMembers)
      (syncEvents : db'.syncEvents = db.syncEvents)
      (rewrites : t.task.rewrites t.executed db = true)
      (fan : t.fan = none) (messageId : f.messageId = t.task.messageId) (own : f.own = true)
      (left : f.left = none)
      (conversation : ∃ m ∈ db.messages.rows, m.id = f.messageId ∧
        m.conversationId = f.conversationId)
      (event : f.event ≠ .message)
      (live : f.event = .edited → ∀ m ∈ db.messages.rows, m.id = f.messageId → m.deleted = false)
      (empty : f.event = .deleted → f.content = "")
      (rewritten : Rewritten db db' f.messageId f.content (f.event == .deleted)) :
      MessageStatement t db db' { t.next with fan := some f }
  | tell (f : Fan) (u : Int) (l : List Int) (payload : Json)
      (members : db'.conversationMembers = db.conversationMembers)
      (messages : db'.messages = db.messages) (fan : t.fan = some f) (left : f.left = some (u :: l))
      (rewrites : t.task.rewrites t.executed db = false)
      (tells : f.Tells payload)
      (syncEvents : db'.syncEvents = (db.appendSyncEvent u f.event.text payload).syncEvents) :
      MessageStatement t db db' { t.next with fan := some { f with left := some l } }

def messageProtocol : Protocol Db MessageGhost where
  holds t db := db.WellFormed ∧ t.Knows db
  step t db db' t' := db.Grows db' ∧ MessageStatement qt t db db' t'

end

/-- A handler ends when everyone has been told, and answers a send with success
only with the row of its key. -/
structure Ended (t : MessageGhost) (o : Outcome) : Prop where
  told : ∀ f ∈ t.fan, f.left = some []
  answer : t.task.kind = .sendMessage → o.response.code = .ok →
    ∃ r ∈ t.row, o.response.data.value "messageId" = .int r.1

/-! ## What a statement keeps -/

section kept

variable {qt : Qt} {db db' : Db} {t t' : MessageGhost}

theorem MessagesKept.of_eq (h : db'.messages = db.messages) : MessagesKept db db' := by
  intro m hm
  exact ⟨m, by rwa [h], rfl, rfl, rfl, rfl, rfl⟩

theorem Appended.kept {m : MessageRow} (h : Appended db db' m) : MessagesKept db db' := by
  intro m' hm'
  exact ⟨m', (h.mem m').mpr (.inl hm'), rfl, rfl, rfl, rfl, rfl⟩

theorem Rewritten.kept {i : Int} {content : String} {gone : Bool}
    (h : Rewritten db db' i content gone) : MessagesKept db db' := by
  obtain ⟨g, hrows, hkeep, _, _⟩ := h.rows
  intro m hm
  refine ⟨g m, ?_, hkeep m⟩
  rw [hrows]
  exact List.mem_map_of_mem hm

/-- A row of `db'` was there, or is the one that was stored. -/
theorem Rewritten.mem {i : Int} {content : String} {gone : Bool}
    (h : Rewritten db db' i content gone) {m' : MessageRow} (hm' : m' ∈ db'.messages.rows) :
    ∃ m ∈ db.messages.rows, m'.id = m.id ∧ m'.conversationId = m.conversationId ∧
      m'.senderId = m.senderId ∧ m'.senderDeviceId = m.senderDeviceId ∧
      m'.clientMessageId = m.clientMessageId ∧ (m.id ≠ i → m' = m) ∧
      (m.id = i → m'.content = content ∧ m'.deleted = gone) := by
  obtain ⟨g, hrows, hkeep, hothers, hrow⟩ := h.rows
  rw [hrows] at hm'
  obtain ⟨m, hm, rfl⟩ := List.mem_map.mp hm'
  obtain ⟨hid, hconv, hsender, hdevice, hclient⟩ := hkeep m
  exact ⟨m, hm, hid, hconv, hsender, hdevice, hclient, hothers m hm, hrow m hm⟩

theorem Task.Owns.of_kept {k : Task} {m m' : MessageRow} (h : k.Owns m)
    (hsender : m'.senderId = m.senderId) (hdevice : m'.senderDeviceId = m.senderDeviceId)
    (hclient : m'.clientMessageId = m.clientMessageId) : k.Owns m' :=
  ⟨hsender.trans h.sender, hdevice.trans h.device, hclient.trans h.clientId⟩

/-- What a handler knows stays true where the members of its conversation stay. -/
theorem MessageGhost.Knows.of_kept (h : t.Knows db) (hgrows : db.Grows db')
    (hkept : MessagesKept db db')
    (hmembers : ∀ k ∈ t.conv, ∀ u,
      db'.isConversationMember k.id u = db.isConversationMember k.id u) : t.Knows db' := by
  refine ⟨hgrows.users _ h.me, fun u hu => hgrows.users _ (h.peer u hu), fun k hk => ?_,
    fun i hi => ?_, fun f hf => ?_⟩
  · obtain ⟨htype, hmem, hpair⟩ := h.conv k hk
    refine ⟨hgrows.types _ _ htype, fun u => ?_, hpair⟩
    rw [hmembers k hk]
    exact hmem u
  · obtain ⟨m, hm, hid, hconv, howns⟩ := h.row i hi
    obtain ⟨m', hm', hid', hconv', hsender, hdevice, hclient⟩ := hkept m hm
    exact ⟨m', hm', hid'.trans hid, hconv'.trans hconv,
      fun hkind => (howns hkind).of_kept hsender hdevice hclient⟩
  · obtain ⟨⟨m, hm, hid, hconv⟩, husers⟩ := h.fan f hf
    obtain ⟨m', hm', hid', hconv', _⟩ := hkept m hm
    exact ⟨⟨m', hm', hid'.trans hid, fun hown => hconv'.trans (hconv hown)⟩,
      fun l hl u hu => hgrows.users _ (husers l hl u hu)⟩

theorem MessageStatement.messagesKept (h : MessageStatement qt t db db' t') : MessagesKept db db' := by
  cases h with
  | quiet _ _ messages => exact .of_eq messages
  | create _ _ messages => exact .of_eq messages
  | join _ _ _ _ _ _ _ _ _ messages => exact .of_eq messages
  | store _ _ _ appended => exact appended.kept
  | write _ _ _ _ _ _ _ _ _ _ _ _ rewritten => exact rewritten.kept
  | tell _ _ _ _ _ messages => exact .of_eq messages

/-- A statement changes the members only of a conversation its handler has
created, and that has at most one. -/
theorem MessageStatement.members (h : MessageStatement qt t db db' t') {id : Int}
    (hid : ∀ l, l.length ≤ 1 → t.conv ≠ some ⟨id, l, true⟩) (u : Int) :
    db'.isConversationMember id u = db.isConversationMember id u := by
  cases h with
  | quiet _ members => exact isConversationMember_of_eq members id u
  | create _ members => exact isConversationMember_of_eq members id u
  | join x _ l hconv hl _ _ _ members =>
      obtain ⟨r, hr, _, hrows⟩ := members
      have hne : r.conversationId ≠ id := by
        rw [hr]
        rintro rfl
        exact hid l hl hconv
      rw [Bool.eq_iff_iff, isConversationMember_append hrows]
      simp [hne]
  | store _ members => exact isConversationMember_of_eq members id u
  | write _ members => exact isConversationMember_of_eq members id u
  | tell _ _ _ _ members => exact isConversationMember_of_eq members id u

/-- What a handler knows is known after its statement. -/
theorem MessageStatement.knows (h : MessageStatement qt t db db' t') (hgrows : db.Grows db')
    (hformed : db.WellFormed) (ht : t.Knows db) : t'.Knows db' := by
  have hkept := h.messagesKept
  cases h with
  | quiet _ _ _ _ _ _ _ _ _ knows => exact knows
  | create id members messages _ _ _ fresh created =>
      have hsame := ht.of_kept hgrows hkept fun k _ => isConversationMember_of_eq members k.id
      refine ⟨hsame.me, hsame.peer, fun k hk => ?_, hsame.row, hsame.fan⟩
      cases hk
      refine ⟨created, fun u => ?_, by simp⟩
      rw [isConversationMember_of_eq members]
      simp only [List.not_mem_nil, iff_false]
      intro hmember
      obtain ⟨r, hr, hid, _⟩ := (isConversationMember_iff id u).mp hmember
      have hexists := hformed.memberConversation r hr
      rw [hid, fresh] at hexists
      cases hexists
  | join id u l hconv _ _ _ _ members =>
      obtain ⟨r, hr, hu, hrows⟩ := members
      have hbefore := ht.conv _ hconv
      have hbare : MessageGhost.Knows { t with conv := none } db :=
        ⟨ht.me, ht.peer, by simp, ht.row, ht.fan⟩
      have hsame := hbare.of_kept hgrows hkept (by simp)
      refine ⟨hsame.me, hsame.peer, fun k hk => ?_, hsame.row, hsame.fan⟩
      cases hk
      refine ⟨hgrows.types _ _ hbefore.1, fun u' => ?_, by simp⟩
      rw [isConversationMember_append hrows, hr, hu, List.mem_append, List.mem_singleton,
        ← hbefore.2.1 u', eq_comm (a := u)]
      simp
  | store m members _ appended kind _ owns =>
      have hsame := ht.of_kept hgrows hkept fun k _ => isConversationMember_of_eq members k.id
      have hmem := (appended.mem m).mpr (.inr rfl)
      refine ⟨hsame.me, hsame.peer, hsame.conv, fun i hi => ?_, fun f hf => ?_⟩
      · cases hi
        exact ⟨m, hmem, rfl, rfl, fun _ => owns⟩
      · cases hf
        exact ⟨⟨m, hmem, rfl, fun _ => rfl⟩, by simp⟩
  | write f members _ _ _ _ _ left conversation =>
      have hsame := ht.of_kept hgrows hkept fun k _ => isConversationMember_of_eq members k.id
      refine ⟨hsame.me, hsame.peer, hsame.conv, hsame.row, fun f' hf' => ?_⟩
      cases hf'
      obtain ⟨m, hm, hid, hconv⟩ := conversation
      obtain ⟨m', hm', hid', hconv', _⟩ := hkept m hm
      refine ⟨⟨m', hm', hid'.trans hid, fun _ => hconv'.trans hconv⟩, ?_⟩
      rw [left]
      simp
  | tell f u l _ members _ fan left =>
      have hsame := ht.of_kept hgrows hkept fun k _ => isConversationMember_of_eq members k.id
      refine ⟨hsame.me, hsame.peer, hsame.conv, hsame.row, fun f' hf' => ?_⟩
      cases hf'
      obtain ⟨hrow, husers⟩ := hsame.fan f fan
      refine ⟨hrow, fun l' hl' u' hu' => ?_⟩
      cases hl'
      exact husers _ left u' (List.mem_cons_of_mem _ hu')

/-- What another handler knows, as long as the two have not created the same
conversation. -/
theorem MessageStatement.knows_other {t₂ : MessageGhost} (h : MessageStatement qt t db db' t')
    (hgrows : db.Grows db') (ht : t.Knows db) (ht₂ : t₂.Knows db)
    (hne : ∀ k ∈ t.conv, ∀ k₂ ∈ t₂.conv, k.created = true → k₂.created = true → k.id ≠ k₂.id) :
    t₂.Knows db' := by
  refine ht₂.of_kept hgrows h.messagesKept fun k₂ hk₂ u => h.members (fun l hl hconv => ?_) u
  obtain ⟨_, hmem₂, hpair⟩ := ht₂.conv k₂ hk₂
  cases hcreated : k₂.created with
  | true => exact hne _ hconv k₂ hk₂ rfl hcreated rfl
  | false =>
      -- the conversation has two members already
      obtain ⟨a, b, hab, hmembers⟩ := hpair hcreated
      obtain ⟨_, hmem, _⟩ := ht.conv _ hconv
      have ha := (hmem a).mp ((hmem₂ a).mpr (by simp [hmembers]))
      have hb := (hmem b).mp ((hmem₂ b).mpr (by simp [hmembers]))
      match l, hl with
      | [], _ => cases ha
      | [x], _ => exact hab ((List.mem_singleton.mp ha).trans (List.mem_singleton.mp hb).symm)

/-! ### The schema -/

theorem Db.WellFormed.pair_of_same (h : db.WellFormed) (hgrows : db.Grows db') {id : Int}
    (htype : db'.conversationType id = some .privateType)
    (hmembers : ∀ u, db'.isConversationMember id u = true → db.isConversationMember id u = true) :
    ∃ a b, ∀ u, db'.isConversationMember id u = true → u = a ∨ u = b := by
  cases hbefore : db.conversationType id with
  | some type =>
      rw [hgrows.types _ _ hbefore] at htype
      obtain ⟨a, b, hab⟩ := h.pair id (hbefore.trans htype)
      exact ⟨a, b, fun u hu => hab u (hmembers u hu)⟩
  | none =>
      -- a conversation that was not there has no members
      refine ⟨0, 0, fun u hu => ?_⟩
      obtain ⟨r, hr, hid, _⟩ := (isConversationMember_iff id u).mp (hmembers u hu)
      have hexists := h.memberConversation r hr
      rw [hid, hbefore] at hexists
      cases hexists

theorem Db.WellFormed.prekeys_of (h : db.WellFormed) (hgrows : db.Grows db') :
    ∀ p' ∈ db'.prekeys.rows, (db'.users.get p'.userId).isSome := by
  intro p' hp'
  rcases hgrows.prekeys p' hp' with hsome | ⟨p, hp, heq⟩
  · exact hsome
  · rw [heq]
    exact hgrows.users _ (h.prekeyUser p hp)

theorem Db.Grows.conversation (h : db.Grows db') {id : Int} (hid : (db.conversationType id).isSome) :
    (db'.conversationType id).isSome := by
  obtain ⟨type, htype⟩ := Option.isSome_iff_exists.mp hid
  rw [h.types _ _ htype]
  rfl

/-- The schema holds after a statement that adds no member. -/
theorem Db.WellFormed.of_fewer (h : db.WellFormed) (hgrows : db.Grows db')
    (hmembers : ∀ r ∈ db'.conversationMembers.rows, r ∈ db.conversationMembers.rows)
    (hdevices : ∀ m' ∈ db'.messages.rows, m'.senderDeviceId ≠ some "") : db'.WellFormed := by
  refine ⟨fun r hr => hgrows.users _ (h.memberUser r (hmembers r hr)),
    fun r hr => hgrows.conversation (h.memberConversation r (hmembers r hr)),
    fun r hr r' hr' => h.unique r (hmembers r hr) r' (hmembers r' hr'),
    fun id htype => h.pair_of_same hgrows htype fun u hu => ?_, h.prekeys_of hgrows, hdevices⟩
  obtain ⟨r, hr, heq⟩ := (isConversationMember_iff id u).mp hu
  exact (isConversationMember_iff id u).mpr ⟨r, hmembers r hr, heq⟩

/-- The schema holds after a new member, of a group or as one of two. -/
theorem Db.WellFormed.of_member (h : db.WellFormed) (hgrows : db.Grows db') {r : MemberRow}
    (hrows : db'.conversationMembers.rows = db.conversationMembers.rows ++ [r])
    (hmessages : db'.messages = db.messages) (huser : (db.users.get r.userId).isSome)
    (hnew : db.isConversationMember r.conversationId r.userId ≠ true)
    {type : ConversationType} (htype : db.conversationType r.conversationId = some type)
    (hpair : type = .privateType →
      ∃ a, ∀ u, db.isConversationMember r.conversationId u = true → u = a) : db'.WellFormed := by
  have hmem : ∀ r' ∈ db'.conversationMembers.rows, r' ∈ db.conversationMembers.rows ∨ r' = r := by
    intro r' hr'
    rw [hrows] at hr'
    simpa using hr'
  have hdiffer : ∀ r' ∈ db.conversationMembers.rows, r'.conversationId = r.conversationId →
      r'.userId ≠ r.userId := fun r' hr' hconv huser =>
    hnew ((isConversationMember_iff _ _).mpr ⟨r', hr', hconv, huser⟩)
  refine ⟨fun r' hr' => ?_, fun r' hr' => ?_, fun r₁ hr₁ r₂ hr₂ hconv hsame => ?_,
    fun id hid => ?_, h.prekeys_of hgrows, ?_⟩
  · rcases hmem r' hr' with hold | rfl
    · exact hgrows.users _ (h.memberUser r' hold)
    · exact hgrows.users _ huser
  · rcases hmem r' hr' with hold | rfl
    · exact hgrows.conversation (h.memberConversation r' hold)
    · rw [hgrows.types _ _ htype]
      rfl
  · rcases hmem r₁ hr₁ with hold₁ | rfl <;> rcases hmem r₂ hr₂ with hold₂ | rfl
    · exact h.unique r₁ hold₁ r₂ hold₂ hconv hsame
    · exact absurd hsame (hdiffer r₁ hold₁ hconv)
    · exact absurd hsame.symm (hdiffer r₂ hold₂ hconv.symm)
    · rfl
  · by_cases heq : id = r.conversationId
    · subst heq
      rw [hgrows.types _ _ htype] at hid
      obtain ⟨a, ha⟩ := hpair (Option.some.inj hid)
      refine ⟨a, r.userId, fun u hu => ?_⟩
      rcases (isConversationMember_append hrows _ u).mp hu with hold | ⟨_, heq⟩
      · exact .inl (ha u hold)
      · exact .inr heq.symm
    · refine h.pair_of_same hgrows hid fun u hu => ?_
      rcases (isConversationMember_append hrows _ u).mp hu with hold | ⟨hconv, _⟩
      · exact hold
      · exact absurd hconv.symm heq
  · rw [hmessages]
    exact h.deviceId

/-- A statement of a handler keeps the schema. -/
theorem MessageStatement.wellFormed (h : MessageStatement qt t db db' t') (hgrows : db.Grows db')
    (hformed : db.WellFormed) (ht : t.Knows db) : db'.WellFormed := by
  have hsame (hmembers : db'.conversationMembers = db.conversationMembers)
      (hdevices : ∀ m' ∈ db'.messages.rows, m'.senderDeviceId ≠ some "") : db'.WellFormed :=
    hformed.of_fewer hgrows (by rw [hmembers]; exact fun _ hr => hr) hdevices
  cases h with
  | quiet _ members messages => exact hsame members (by rw [messages]; exact hformed.deviceId)
  | create _ members messages => exact hsame members (by rw [messages]; exact hformed.deviceId)
  | join id u l hconv hl new exist kind members messages syncEvents =>
      obtain ⟨r, rfl, rfl, hrows⟩ := members
      obtain ⟨htype, hmem, _⟩ := ht.conv _ hconv
      refine hformed.of_member hgrows hrows messages exist (fun hu => new ((hmem _).mp hu)) htype
        fun _ => ?_
      match l, hl with
      | [], _ => exact ⟨0, fun u hu => nomatch (hmem u).mp hu⟩
      | [a], _ => exact ⟨a, fun u hu => List.mem_singleton.mp ((hmem u).mp hu)⟩
  | store m members _ appended _ _ owns =>
      refine hsame members fun m' hm' => ?_
      rcases (appended.mem m').mp hm' with hold | rfl
      · exact hformed.deviceId m' hold
      · rw [owns.device]
        unfold Db.nullable
        split
        · exact nofun
        · simpa using ‹_›
  | write f members _ _ _ _ _ _ _ _ _ _ rewritten =>
      refine hsame members fun m' hm' => ?_
      obtain ⟨m, hm, _, _, _, hdevice, _⟩ := rewritten.mem hm'
      rw [hdevice]
      exact hformed.deviceId m hm
  | tell _ _ _ _ members messages => exact hsame members (by rw [messages]; exact hformed.deviceId)

end kept

end XYChat.Server
