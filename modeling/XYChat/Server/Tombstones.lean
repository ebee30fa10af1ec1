import XYChat.Lib.Machine
import XYChat.Lib.Pool
import XYChat.Server.Frames
import XYChat.Server.Membership

/-!
# Deleted messages stay deleted

The server's connections work on requests of all types statement by statement, in
any interleaving. The `UPDATE` of an edit asks itself whether the message is
deleted: whatever its handler has read before, a message that is deleted gets no
text again, and an edit that comes too late fails.
-/

namespace XYChat.Server

open XYChat.Lib
open XYChat.Lib.Prog

/-! ## Deleted messages -/

/-- The message is deleted. -/
def Db.Deleted (db : Db) (i : Int) : Prop :=
  ∃ m ∈ db.messages.rows, m.id = i ∧ m.deleted = true

/-- The message is deleted, and nothing is left of its text. -/
def Db.Tombstone (db : Db) (i : Int) : Prop :=
  ∃ m ∈ db.messages.rows, m.id = i ∧ m.deleted = true ∧ m.content = ""

/-- The statement of a handler that decides about a message: the `UPDATE` of an
edit, or the `SELECT` that reads the messages of a page or of a list. -/
def Handler.decisive : Handler → Option Nat
  | .editMessage | .syncMessages => some 1
  | .getConversations => some 0
  | _ => none

/-- A request that a connection works on: how many statements of its handler have
been executed, and the database that the decisive one was executed in. -/
structure Job where
  handler : Handler
  request : Json
  executed : Nat := 0
  decided : Option Db := none

/-- One statement later. -/
def Job.after (j : Job) (db : Db) : Job :=
  { j with
    executed := j.executed + 1
    decided := if j.handler.decisive = some j.executed then some db else j.decided }

/-- The reply takes the message for deleted: an edit of it has failed, and no text
of it is shown. -/
structure Job.TakesDeleted (j : Job) (response : Response) (i : Int) : Prop where
  edit : j.handler = .editMessage → (j.request.value "messageId").toLongLong = i →
    response.code ≠ .ok
  page : j.handler = .syncMessages → ∀ e ∈ (response.data.value "messages").toArray,
    (e.value "messageId").toLongLong = i → e.value "content" = .str ""
  list : j.handler = .getConversations → ∀ e ∈ (response.data.value "conversations").toArray,
    (e.value "lastMessageId").toLongLong = i → e.value "lastMessage" = .str ""

/-- What was deleted when the decisive statement was executed, the reply takes for
deleted. -/
def Job.Faithful (j : Job) (response : Response) : Prop :=
  ∀ db ∈ j.decided, ∀ i, db.Deleted i → j.TakesDeleted response i

/-! ## The server -/

/-- The connections over the database, the request each works on, and the replies
so far. -/
structure TombstoneServer where
  pool : Pool Db (Connection × Option Response)
  jobs : Nat → Job
  replies : List (Job × Response) := []

/-- A user registers, time passes; an idle slot is given to a connection, an idle
connection takes up a request, a busy one executes a statement. -/
inductive TombstoneOp where
  | register (username passwordHash : String)
  | tick (seconds : Nat)
  | connect (c : Nat) (conn : Connection)
  | request (c : Nat) (handler : Handler) (requestId : Nat) (request : Json)
  | statement (c : Nat)

namespace TombstoneServer

def db (s : TombstoneServer) : Db := s.pool.store

def setDb (s : TombstoneServer) (db : Db) : TombstoneServer :=
  { s with pool := { s.pool with store := db } }

/-- A connection executes the next statement of its handler, or the answer of one
that has ended is sent. -/
def statement (s : TombstoneServer) (c : Nat) : TombstoneServer :=
  match (s.pool.workers c).running with
  | none => s
  | some (.ret k) =>
      { s with
        pool := s.pool.advance c
        replies := s.replies ++ k.2.toList.map fun response => (s.jobs c, response) }
  | some (.stmt _ _) =>
      { s with
        pool := s.pool.advance c
        jobs := Function.update s.jobs c ((s.jobs c).after s.db) }

/-- Nobody is midway, nothing has been answered, and what is deleted has no
text. -/
structure Start (s : TombstoneServer) : Prop where
  idle : ∀ c, (s.pool.workers c).running = none
  blank : s.db.Blank
  replies : s.replies = []

end TombstoneServer

section

variable (qt : Qt)

def tombstoneStep (s : TombstoneServer) : TombstoneOp → TombstoneServer
  | .register username passwordHash => s.setDb (s.db.registerUser username passwordHash).1
  | .tick seconds => s.setDb { s.db with now := s.db.now + seconds }
  | .connect c conn =>
      if (s.pool.workers c).running.isSome then s
      else { s with pool := s.pool.setWorker c { here := (conn, none) } }
  | .request c handler requestId request =>
      if (s.pool.workers c).running.isSome then s
      else
        match handler.program qt requestId (s.pool.workers c).here.1 request with
        | none => s
        | some p =>
            { s with
              pool := s.pool.start c ((fun o => (o.conn, some o.response)) <$> p)
              jobs := Function.update s.jobs c { handler, request } }
  | .statement c => s.statement c

def tombstoneMachine : Machine TombstoneServer TombstoneOp where
  init := TombstoneServer.Start
  step := tombstoneStep qt

end

/-! ## What the statements keep -/

/-- What is deleted stays so, and has no text. -/
structure Db.KeepsTombstones (db db' : Db) : Prop where
  deleted : ∀ i, db.Deleted i → db'.Deleted i
  blank : db.Blank → db'.Blank

namespace Db.KeepsTombstones

variable {db db' : Db}

theorem refl (db : Db) : db.KeepsTombstones db := ⟨fun _ h => h, fun h => h⟩

theorem trans {db'' : Db} (h : db.KeepsTombstones db') (h' : db'.KeepsTombstones db'') :
    db.KeepsTombstones db'' :=
  ⟨fun i hi => h'.deleted i (h.deleted i hi), fun hb => h'.blank (h.blank hb)⟩

theorem of_keeps (h : db.KeepsMessages db') : db.KeepsTombstones db' := by
  refine ⟨?_, h.blank⟩
  rintro i ⟨m, hm, hid, hdeleted⟩
  obtain ⟨m', hm', hkeeps⟩ := h.rows m hm
  exact ⟨m', hm', hkeeps.id.trans hid, hkeeps.deleted hdeleted⟩

theorem of_eq (h : db'.messages = db.messages) : db.KeepsTombstones db' := of_keeps (.of_eq h)

theorem recordMessageReceipt (messageId userId : Int) (deviceId : String) (receipt : Receipt)
    (db : Db) : db.KeepsTombstones (db.recordMessageReceipt messageId userId deviceId receipt) := by
  unfold Db.recordMessageReceipt
  dsimp only
  split
  · exact .refl db
  · split <;> exact .of_eq rfl

theorem updateMessageStatus (messageId : Int) (status : MessageStatus) (db : Db) :
    db.KeepsTombstones (db.updateMessageStatus messageId status) := by
  unfold Db.updateMessageStatus
  constructor
  · rintro i ⟨m, hm, hid, hdeleted⟩
    refine ⟨_, List.mem_map.mpr ⟨m, hm, rfl⟩, ?_⟩
    split <;> exact ⟨hid, hdeleted⟩
  · intro hblank m' hm' hdeleted
    obtain ⟨m, hm, rfl⟩ := List.mem_map.mp hm'
    by_cases hid : (m.id == messageId) = true
    · rw [if_pos hid] at hdeleted ⊢
      exact hblank m hm hdeleted
    · rw [if_neg hid] at hdeleted ⊢
      exact hblank m hm hdeleted

/-- A message that is deleted in a state in order is a tombstone. -/
theorem tombstone (h : db.KeepsTombstones db') (hblank : db.Blank) {i : Int} (hi : db.Deleted i) :
    db'.Tombstone i := by
  obtain ⟨m, hm, hid, hdeleted⟩ := h.deleted i hi
  exact ⟨m, hm, hid, hdeleted, h.blank hblank m hm hdeleted⟩

end Db.KeepsTombstones

section

variable {conn : Connection} {request : Json} {requestId : Nat} {m : MessageRow}

theorem syncReadCursor_keepsTombstones (receipt : Receipt) :
    (syncReadCursor conn m receipt).Within Db.KeepsTombstones := by
  cases receipt with
  | delivered => exact within_pure _
  | read =>
      refine (within_update fun db => .of_eq rfl).bind fun _ => ?_
      refine (within_update fun db => ?_).bind fun _ => within_pure _
      exact .of_keeps (Db.Keeps.appendSyncEvent _ _ _ db).messages

theorem aggregateReceipts_keepsTombstones :
    (aggregateReceipts conn m).Within Db.KeepsTombstones := by
  refine (within_query .refl).bind fun _ => (within_query .refl).bind fun _ =>
    (within_query .refl).bind fun _ => ?_
  split
  · exact within_pure _
  · refine within_ite (fun _ => within_pure _) fun _ => ?_
    refine (within_update (.updateMessageStatus _ _)).bind fun _ => ?_
    refine (within_update fun db => ?_).bind fun _ => within_pure _
    exact .of_keeps (Db.Keeps.appendSyncEvent _ _ _ db).messages

theorem processAckMessageRequest_keepsTombstones :
    (processAckMessageRequest requestId conn request).Within Db.KeepsTombstones := by
  unfold processAckMessageRequest
  dsimp only
  refine within_ite (fun _ => within_pure _) fun _ => ?_
  cases Receipt.ofText ((request.value "status").toStr "delivered") with
  | none => exact within_pure _
  | some receipt =>
      refine (within_query .refl).bind fun found => ?_
      cases found with
      | none => exact within_pure _
      | some msg =>
          refine (within_query .refl).bind fun _ => within_ite (fun _ => within_pure _) fun _ => ?_
          refine (within_update (.recordMessageReceipt _ _ _ _)).bind fun _ => ?_
          refine (syncReadCursor_keepsTombstones receipt).bind fun _ => ?_
          exact aggregateReceipts_keepsTombstones.bind fun _ => within_pure _

theorem program_keepsTombstones {qt : Qt} {handler : Handler} {p : Prog Db Outcome}
    (hp : handler.program qt requestId conn request = some p) : p.Within Db.KeepsTombstones := by
  by_cases hack : handler = .ackMessage
  · subst hack
    rw [← Option.some.inj hp]
    exact processAckMessageRequest_keepsTombstones
  · exact (program_keepsRows hp hack).mono fun _ _ h => .of_keeps h.messages

end

/-! ## What the handlers reply -/

/-- A handler finds what is deleted without text, and keeps it so. -/
def tombstoneProtocol : Protocol Db Job where
  holds _ db := db.Blank
  step j db db' j' := db.KeepsTombstones db' ∧ j' = j.after db

/-- The decisive statement of the handler is behind it, or there is none. -/
def Job.Settled (j : Job) : Prop := ∀ n ∈ j.handler.decisive, n < j.executed

/-- The same request, later, with its decisive statement behind it. -/
structure Job.Continues (j j' : Job) : Prop where
  handler : j'.handler = j.handler
  request : j'.request = j.request
  decided : j'.decided = j.decided
  settled : j'.Settled

namespace Job

variable {j j' : Job} {response : Response} {db : Db}

theorem Continues.after (h : j.Continues j') (db : Db) : j.Continues (j'.after db) := by
  refine ⟨h.handler, h.request, ?_, fun n hn => Nat.lt_succ_of_lt (h.settled n hn)⟩
  show (if j'.handler.decisive = some j'.executed then some db else j'.decided) = j.decided
  rw [if_neg fun heq : j'.handler.decisive = some j'.executed =>
    Nat.lt_irrefl _ (h.settled _ heq), h.decided]

theorem Continues.faithful (h : j.Continues j') (hj : j.Faithful response) :
    j'.Faithful response := by
  intro db hdb i hi
  rw [h.decided] at hdb
  obtain ⟨hedit, hpage, hlist⟩ := hj db hdb i hi
  exact ⟨by rw [h.handler, h.request]; exact hedit, by rw [h.handler]; exact hpage,
    by rw [h.handler]; exact hlist⟩

/-- Before the decisive statement any reply will do. -/
theorem faithful_of_undecided (h : j.decided = none) : j.Faithful response := by
  intro db hdb
  rw [h] at hdb
  exact nomatch hdb

end Job

section follows

variable {α : Type} {Q : Job → α → Prop} {j : Job}

/-- With the decisive statement behind it, a program may do anything that keeps
tombstones. -/
theorem follows_settled {p : Prog Db α} (h : p.Within Db.KeepsTombstones) (hj : j.Settled)
    (hQ : ∀ j' a, j.Continues j' → Q j' a) : Follows tombstoneProtocol Q j p :=
  h.followsIn (I := j.Continues)
    (fun j' db _ hj' _ hkeeps => ⟨j'.after db, ⟨hkeeps, rfl⟩, hj'.after db⟩)
    (fun j' a hj' => hQ j' a hj') ⟨rfl, rfl, rfl, hj⟩

private theorem follows_select {f : Db → α} (h : ∀ db, db.Blank → Q (j.after db) (f db)) :
    Follows tombstoneProtocol Q j (query f) :=
  follows_query fun db hblank => ⟨j.after db, ⟨.refl db, rfl⟩, h db hblank⟩

variable {qt : Qt} {requestId : Nat} {conn : Connection} {request : Json}

/-- The `UPDATE` of an edit reports a change of what is not deleted only. -/
theorem not_deleted_of_edited {db : Db} {messageId : Int} {content contentType : String}
    (h : (db.editMessage messageId content contentType).2 = true) : ¬db.Deleted messageId := by
  rintro ⟨m, hm, rfl, hdeleted⟩
  have hget : db.messages.get m.id = some m := Table.get_mem hm
  unfold Db.editMessage at h
  split at h
  · cases h
  · simp [hget, hdeleted] at h

/-- What a handler leaves: a faithful reply. -/
private def replied (j : Job) (o : Outcome) : Prop := j.Faithful o.response

/-- An edit whose `UPDATE` finds the message deleted fails. -/
theorem processEditMessageRequest_follows :
    Follows tombstoneProtocol replied { handler := .editMessage, request := request }
      (processEditMessageRequest qt requestId conn request) := by
  have hrefused : ∀ {j : Job} {o : Outcome}, j.decided = none →
      Follows tombstoneProtocol replied j (pure o) :=
    fun h => follows_pure.mpr (Job.faithful_of_undecided h)
  unfold processEditMessageRequest
  dsimp only
  refine follows_ite (fun _ => hrefused rfl) fun _ => ?_
  refine follows_ite (fun _ => hrefused rfl) fun _ => ?_
  refine Follows.bind (follows_select fun db₀ _ => ?_)
  generalize hj₁ : Job.after _ db₀ = j₁
  have hundecided : j₁.decided = none := by rw [← hj₁]; rfl
  cases db₀.getMessage (request.value "messageId").toLongLong with
  | none => exact hrefused hundecided
  | some msg =>
      refine follows_ite (fun _ => hrefused hundecided) fun _ => ?_
      refine follows_ite (fun _ => hrefused hundecided) fun _ => ?_
      refine follows_ite (fun _ => hrefused hundecided) fun _ => ?_
      refine follows_ite (fun _ => hrefused hundecided) fun _ => ?_
      refine follows_ite (fun _ => hrefused hundecided) fun _ => ?_
      cases checkEditContent qt conn ((request.value "content").toStr "")
          ((request.value "contentType").toStr "") with
      | error message => exact hrefused hundecided
      | ok _ =>
          refine Follows.bind (follows_call fun db _ => ⟨j₁.after db,
            ⟨.of_keeps (Db.Keeps.editMessage _ _ _ db).messages, rfl⟩, ?_⟩)
          subst hj₁
          refine follows_ite (fun _ => follows_pure.mpr ?_) fun hok => ?_
          · refine fun _ _ i _ => ⟨fun _ _ => by simp [Connection.reply], ?_, ?_⟩
            all_goals rintro ⟨⟩
          have hlive : ¬db.Deleted (request.value "messageId").toLongLong :=
            not_deleted_of_edited (by simpa using hok)
          refine follows_settled ?_ (fun n hn => ?_) fun j' o hj' => hj'.faithful ?_
          · refine (within_query .refl).bind fun _ => (within_query .refl).bind fun _ => ?_
            refine ((appendSyncEvents_keeps _ _ _).mono fun _ _ h => ?_).bind fun _ => within_pure _
            exact .of_keeps h.messages
          · rw [← Option.some.inj hn]
            exact Nat.one_lt_two
          · intro db' hdb' i hi
            rw [← Option.some.inj hdb'] at hi
            refine ⟨fun _ hid => absurd (hid ▸ hi) hlive, ?_, ?_⟩
            all_goals rintro ⟨⟩

/-- What a page shows of a message that is deleted. -/
theorem messageJson_deleted {db : Db} {m : MessageRow} {username : String} {i : Int}
    (hblank : db.Blank) (hm : m ∈ db.messages.rows) (hi : db.Deleted i)
    (hid : ((messageJson qt m username).value "messageId").toLongLong = i) :
    (messageJson qt m username).value "content" = .str "" := by
  obtain ⟨m', hm', hid', hdeleted⟩ := hi
  have hsame : m = m' := Table.key_inj hm hm' (hid.trans hid'.symm)
  have hempty : m.content = "" := hblank m hm (by rw [hsame]; exact hdeleted)
  show Json.str m.content = .str ""
  rw [hempty]

theorem mem_syncMessages {db : Db} {conversationId afterId limit : Int} {m : MessageRow × String}
    (h : m ∈ db.syncMessages conversationId afterId limit) : m.1 ∈ db.messages.rows := by
  have hfound : m ∈ db.messages.rows.filterMap fun m =>
      if m.conversationId = conversationId ∧ afterId < m.id then
        (db.users.get m.senderId).map fun u => (m, u.username)
      else none := by
    unfold Db.syncMessages at h
    dsimp only at h
    split at h
    · exact h
    · exact List.mem_of_mem_take h
  obtain ⟨m', hm', hsome⟩ := List.mem_filterMap.mp hfound
  split at hsome
  · obtain ⟨u, _, rfl⟩ := Option.map_eq_some_iff.mp hsome
    exact hm'
  · exact nomatch hsome

/-- A page shows no text of what its `SELECT` found deleted. -/
theorem processSyncMessagesRequest_follows :
    Follows tombstoneProtocol replied { handler := .syncMessages, request := request }
      (processSyncMessagesRequest qt requestId conn request) := by
  unfold processSyncMessagesRequest
  dsimp only
  refine follows_ite (fun _ => follows_pure.mpr (Job.faithful_of_undecided rfl)) fun _ => ?_
  refine Follows.bind (follows_select fun db₀ _ => ?_)
  refine follows_ite (fun _ => follows_pure.mpr (Job.faithful_of_undecided rfl)) fun _ => ?_
  refine Follows.bind (follows_select fun db hblank => ?_)
  generalize hfound : db.syncMessages _ _ _ = found
  have hsettled : ((Job.mk .syncMessages request 0 none).after db₀ |>.after db).Settled :=
    fun n hn => by rw [← Option.some.inj hn]; exact Nat.one_lt_two
  have hfaithful : ∀ o : Outcome,
      o.response.data.value "messages" = .arr (found.map fun m => messageJson qt m.1 m.2) →
      ((Job.mk .syncMessages request 0 none).after db₀ |>.after db).Faithful o.response := by
    intro o ho db' hdb' i hi
    rw [← Option.some.inj hdb'] at hi
    refine ⟨nofun, fun _ e he hid => ?_, nofun⟩
    rw [ho] at he
    obtain ⟨m, hm, rfl⟩ := List.mem_map.mp he
    rw [← hfound] at hm
    exact messageJson_deleted hblank (mem_syncMessages hm) hi hid
  cases found.getLast? with
  | none => exact follows_pure.mpr (hfaithful _ rfl)
  | some last =>
      dsimp only
      refine Follows.bind (follows_settled (within_update fun _ => .of_eq rfl) hsettled
        fun j' _ hj' => ?_)
      exact follows_pure.mpr (hj'.faithful (hfaithful _ rfl))

/-- The last messages of these conversations are rows. -/
def ShowsRows (db : Db) (cs : List ConversationInfo) : Prop :=
  ∀ c ∈ cs, ∀ m ∈ c.lastMessage, m ∈ db.messages.rows

theorem selectConversations_showsRows (db : Db) (userId : Int) :
    ShowsRows db (db.selectConversations userId) := by
  intro c hc m hm
  unfold Db.selectConversations at hc
  obtain ⟨r, _, hr⟩ := List.mem_filterMap.mp ((List.mem_insertionSort _).mp hc)
  obtain ⟨conv, _, rfl⟩ := Option.map_eq_some_iff.mp hr
  exact List.mem_of_mem_filter (List.mem_of_getLast? hm)

/-- What fills in the conversations leaves their last messages. -/
def fills (j : Job) (db : Db) (j' : Job) (cs : List ConversationInfo) : Prop :=
  j.Continues j' ∧ ShowsRows db cs

theorem countUnread_follows {db : Db} {userId : Int} {cs : List ConversationInfo} {j j' : Job}
    (hj : j.Continues j') (h : ShowsRows db cs) :
    Follows tombstoneProtocol (fills j db) j' (countUnread userId cs) := by
  induction cs generalizing j' with
  | nil => exact follows_pure.mpr ⟨hj, h⟩
  | cons c rest ih =>
      refine Follows.bind (follows_select fun db₁ _ => ?_)
      refine Follows.bind ((ih (hj.after db₁) fun c' hc' => h c' (List.mem_cons_of_mem _ hc')).mono ?_)
      rintro j'' others ⟨hj'', hothers⟩
      refine follows_pure.mpr ⟨hj'', fun c' hc' => ?_⟩
      rcases List.mem_cons.mp hc' with rfl | hc'
      · exact h c List.mem_cons_self
      · exact hothers c' hc'

theorem fillPeers_follows {db : Db} {userId : Int} {cs : List ConversationInfo} {j j' : Job}
    (hj : j.Continues j') (h : ShowsRows db cs) :
    Follows tombstoneProtocol (fills j db) j' (fillPeers userId cs) := by
  induction cs generalizing j' with
  | nil => exact follows_pure.mpr ⟨hj, h⟩
  | cons c rest ih =>
      have hrest : ∀ (filled : ConversationInfo) (db₁ : Db), filled.lastMessage = c.lastMessage →
          Follows tombstoneProtocol (fills j db) (j'.after db₁) (do
            let others ← fillPeers userId rest
            return filled :: others) := by
        intro filled db₁ hfilled
        refine Follows.bind
          ((ih (hj.after db₁) fun c' hc' => h c' (List.mem_cons_of_mem _ hc')).mono ?_)
        rintro j'' others ⟨hj'', hothers⟩
        refine follows_pure.mpr ⟨hj'', fun c' hc' => ?_⟩
        rcases List.mem_cons.mp hc' with rfl | hc'
        · rw [hfilled]
          exact h c List.mem_cons_self
        · exact hothers c' hc'
      unfold fillPeers
      dsimp only
      cases c.type with
      | privateType => exact Follows.bind (follows_select fun db₁ _ => hrest _ db₁ rfl)
      | groupType => exact Follows.bind (follows_select fun db₁ _ => hrest _ db₁ rfl)

/-- A list shows no text of what its `SELECT` found deleted. -/
theorem processGetConversationsRequest_follows :
    Follows tombstoneProtocol replied { handler := .getConversations, request := request }
      (processGetConversationsRequest qt requestId conn) := by
  refine Follows.bind (Follows.bind (follows_select fun db hblank => ?_))
  have hsettled : ∀ j : Job, j.Settled → j.Continues j := fun j hj => ⟨rfl, rfl, rfl, hj⟩
  refine Follows.bind ((countUnread_follows (hsettled _ fun n hn => ?_)
    (selectConversations_showsRows db _)).mono ?_)
  · rw [← Option.some.inj hn]
    exact Nat.zero_lt_one
  rintro j₁ counted ⟨hj₁, hcounted⟩
  refine (fillPeers_follows hj₁ hcounted).mono ?_
  rintro j₂ conversations ⟨hj₂, hrows⟩
  refine follows_pure.mpr (hj₂.faithful ?_)
  intro db' hdb' i hi
  rw [← Option.some.inj hdb'] at hi
  refine ⟨nofun, nofun, fun _ e he hid => ?_⟩
  obtain ⟨c, hc, rfl⟩ := List.mem_map.mp he
  show Json.str ((c.lastMessage.map (·.content)).getD "") = .str ""
  replace hid : (c.lastMessage.map (·.id)).getD 0 = i := hid
  cases hlast : c.lastMessage with
  | none => rfl
  | some m =>
      rw [hlast] at hid
      obtain ⟨m', hm', hid', hdeleted⟩ := hi
      have hm := hrows c hc m hlast
      have hsame : m = m' := Table.key_inj hm hm' (hid.trans hid'.symm)
      show Json.str m.content = .str ""
      rw [hblank m hm (by rw [hsame]; exact hdeleted)]

/-- **Handler lemma.** Each handler keeps tombstones and replies faithfully. -/
theorem program_follows {handler : Handler} {p : Prog Db Outcome}
    (hp : handler.program qt requestId conn request = some p) :
    Follows tombstoneProtocol replied { handler, request } p := by
  by_cases hdecisive : handler.decisive = none
  · refine follows_settled (program_keepsTombstones hp) (fun n hn => ?_) fun j' o hj' => ?_
    · rw [hdecisive] at hn
      exact nomatch hn
    · exact Job.faithful_of_undecided hj'.decided
  · cases handler <;> first
      | exact absurd rfl hdecisive
      | rw [← Option.some.inj hp]
    · exact processGetConversationsRequest_follows
    · exact processSyncMessagesRequest_follows
    · exact processEditMessageRequest_follows

end follows

/-! ## Runs -/

section runs

variable {qt : Qt} {s : TombstoneServer} {c : Nat}

/-- The replies a connection gives are faithful. -/
def FaithfulWorker (j : Job) (k : Connection × Option Response) : Prop :=
  ∀ response ∈ k.2, j.Faithful response

/-- Every busy connection follows the protocol, what is deleted has no text, and
the replies so far are faithful. -/
structure TombstoneInvariant (s : TombstoneServer) : Prop where
  blank : s.db.Blank
  guarded : Pool.Guarded tombstoneProtocol FaithfulWorker s.jobs s.pool
  faithful : ∀ r ∈ s.replies, r.1.Faithful r.2

theorem TombstoneServer.Start.invariant (h : s.Start) : TombstoneInvariant s := by
  refine ⟨h.blank, fun c prog hrunning => ?_, fun r hr => ?_⟩
  · rw [h.idle c] at hrunning
    exact nomatch hrunning
  · rw [h.replies] at hr
    exact nomatch hr

/-- The database may change where tombstones are kept. -/
theorem TombstoneInvariant.setDb {db : Db} (h : TombstoneInvariant s)
    (hdb : s.db.KeepsTombstones db) : TombstoneInvariant (s.setDb db) :=
  ⟨hdb.blank h.blank, h.guarded.setStore fun _ _ => hdb.blank h.blank, h.faithful⟩

theorem TombstoneInvariant.statement (h : TombstoneInvariant s) :
    TombstoneInvariant (s.statement c) ∧ s.db.KeepsTombstones (s.statement c).db := by
  unfold TombstoneServer.statement
  cases hrunning : (s.pool.workers c).running with
  | none => exact ⟨h, .refl s.db⟩
  | some prog =>
      obtain ⟨_, hfollows⟩ := h.guarded c prog hrunning
      cases prog with
      | ret k =>
          have hpool : s.pool.advance c = s.pool.setWorker c { here := k } := by
            unfold Pool.advance
            rw [hrunning]
          have hk : FaithfulWorker (s.jobs c) k := follows_pure.mp hfollows
          dsimp only
          rw [hpool]
          refine ⟨⟨h.blank, h.guarded.setWorker, fun r hr => ?_⟩, .refl s.db⟩
          rcases List.mem_append.mp hr with hr | hr
          · exact h.faithful r hr
          · obtain ⟨response, hresponse, rfl⟩ := List.mem_map.mp hr
            exact hk response (Option.mem_toList.mp hresponse)
      | stmt upd next =>
          have hpool : s.pool.advance c =
              { s.pool.setWorker c { s.pool.workers c with running := some (next s.db) } with
                store := upd s.db } := by
            unfold Pool.advance
            rw [hrunning]
            rfl
          obtain ⟨j', ⟨hkeeps, rfl⟩, hnext⟩ := follows_stmt.mp hfollows s.db h.blank
          dsimp only
          rw [hpool]
          refine ⟨⟨hkeeps.blank h.blank, ?_, h.faithful⟩, hkeeps⟩
          exact h.guarded.step (fun _ _ _ => hkeeps.blank h.blank) (hkeeps.blank h.blank) hnext

/-- **Step lemma.** -/
theorem tombstoneStep_invariant (h : TombstoneInvariant s) (op : TombstoneOp) :
    TombstoneInvariant (tombstoneStep qt s op) ∧
      s.db.KeepsTombstones (tombstoneStep qt s op).db := by
  have hsame : TombstoneInvariant s ∧ s.db.KeepsTombstones s.db := ⟨h, .refl s.db⟩
  cases op with
  | register username passwordHash =>
      have hkeeps : s.db.KeepsTombstones (s.db.registerUser username passwordHash).1 := by
        unfold Db.registerUser
        split
        · exact .refl _
        · exact .of_eq rfl
      exact ⟨h.setDb hkeeps, hkeeps⟩
  | tick seconds => exact ⟨h.setDb (.of_eq rfl), .of_eq rfl⟩
  | connect c conn =>
      show TombstoneInvariant (if (s.pool.workers c).running.isSome then s else _) ∧
        s.db.KeepsTombstones (if (s.pool.workers c).running.isSome then s else _ : TombstoneServer).db
      split
      · exact hsame
      · exact ⟨⟨h.blank, h.guarded.setWorker, h.faithful⟩, .refl s.db⟩
  | request c handler requestId request =>
      show TombstoneInvariant (if (s.pool.workers c).running.isSome then s else _) ∧
        s.db.KeepsTombstones (if (s.pool.workers c).running.isSome then s else _ : TombstoneServer).db
      split
      · exact hsame
      · cases hp : handler.program qt requestId (s.pool.workers c).here.1 request with
        | none => exact hsame
        | some p =>
            refine ⟨⟨h.blank, h.guarded.start h.blank ?_, h.faithful⟩, .refl s.db⟩
            refine Follows.map ((program_follows hp).mono fun j o ho response hresponse => ?_)
            rw [← Option.some.inj hresponse]
            exact ho
  | statement c => exact h.statement

theorem tombstoneRun_invariant (h : TombstoneInvariant s) (ops : List TombstoneOp) :
    TombstoneInvariant ((tombstoneMachine qt).run s ops) ∧
      s.db.KeepsTombstones ((tombstoneMachine qt).run s ops).db := by
  induction ops generalizing s with
  | nil => exact ⟨h, .refl s.db⟩
  | cons op ops ih =>
      obtain ⟨hstep, hkeeps⟩ := @tombstoneStep_invariant qt s h op
      obtain ⟨hrun, hrest⟩ := ih hstep
      exact ⟨hrun, hkeeps.trans hrest⟩

/-- **Tombstones are absorbing.** In any run of interleaved handlers a message that
is deleted is a tombstone in every later state, and every reply takes for deleted
what was deleted when its decisive statement was executed. -/
theorem tombstones_absorbing (qt : Qt) (s₀ : TombstoneServer) (h₀ : s₀.Start)
    (ops later : List TombstoneOp) :
    (∀ i, ((tombstoneMachine qt).run s₀ ops).db.Deleted i →
      ((tombstoneMachine qt).run s₀ (ops ++ later)).db.Tombstone i) ∧
    ∀ r ∈ ((tombstoneMachine qt).run s₀ ops).replies, r.1.Faithful r.2 := by
  obtain ⟨hinv, _⟩ := @tombstoneRun_invariant qt s₀ h₀.invariant ops
  obtain ⟨_, hkeeps⟩ := @tombstoneRun_invariant qt _ hinv later
  refine ⟨fun i hi => ?_, hinv.faithful⟩
  rw [Machine.run_append]
  exact hkeeps.tombstone hinv.blank hi

end runs

/-! ## An edit that comes too late -/

instance (db : Db) (i : Int) : Decidable (db.Deleted i) :=
  inferInstanceAs (Decidable (∃ m ∈ db.messages.rows, m.id = i ∧ m.deleted = true))

/-- Alice has sent a message and has two connections. -/
def oneMessage : TombstoneServer where
  pool :=
    { store :=
        { now := 1
          users := .ofRows [{ id := 1, username := "alice" }]
          conversations := .ofRows [{ id := 1, type := .groupType, name := "g" }]
          conversationMembers := .ofRows [{ id := 1, conversationId := 1, userId := 1, role := .owner }]
          messages := .ofRows
            [{ id := 1, conversationId := 1, senderId := 1, content := "hello", contentType := "note"
               createdAt := 1 }] }
      workers _ := { here := ({ authenticatedUserId := 1 }, none) } }
  jobs _ := { handler := .getContacts, request := .null }

/-- While the handler of an edit is between its check and its `UPDATE`, the message
is deleted by another connection. -/
def lateEdit : List TombstoneOp :=
  [ .request 0 .editMessage 1 (.obj
      [("messageId", .int 1), ("content", .str "bye"), ("contentType", .str "note")])
  , .statement 0, .request 1 .deleteMessage 2 (.obj [("messageId", .int 1)]) ]
    ++ List.replicate 8 (.statement 1) ++ List.replicate 8 (.statement 0)

/-- The message stays a tombstone, the deletion succeeds, and the edit fails. -/
theorem tombstones_lateEdit :
    ((tombstoneMachine Qt.compact).run oneMessage (lateEdit ++ [.tick 1])).db.Tombstone 1 ∧
    ((tombstoneMachine Qt.compact).run oneMessage lateEdit).replies.map (·.2.code) =
      [.ok, .internalError] ∧
    ∀ r ∈ ((tombstoneMachine Qt.compact).run oneMessage lateEdit).replies, r.1.Faithful r.2 := by
  have hstart : oneMessage.Start := ⟨fun _ => rfl, by unfold Db.Blank; decide, rfl⟩
  obtain ⟨htombstone, hreplies⟩ :=
    tombstones_absorbing Qt.compact oneMessage hstart lateEdit [.tick 1]
  exact ⟨htombstone 1 (by decide +kernel), by decide +kernel, hreplies⟩

end XYChat.Server
