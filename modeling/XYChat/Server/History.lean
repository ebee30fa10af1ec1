import XYChat.Common.JsonText
import XYChat.Lib.History
import XYChat.Server.Statements

/-!
# Nothing is rewritten

Users and contacts are only ever added; of a conversation, a message, a receipt, a
device or an identity key it stays what it is about and where it stands in its
table; an event is not changed, and it goes when it has expired; a read cursor, the
times of a receipt and the watermark of the events only move one way. This is so
from each moment of a run to each later one, whatever requests are handled in
between, however their statements interleave and whenever the events are pruned.
-/

namespace XYChat.Server

open XYChat.Lib
open XYChat.Lib.Table

/-! ## What stays -/

/-- Where a message comes from. -/
structure MessageOrigin where
  id : Int
  conversationId : Int
  senderId : Int
  createdAt : Int
  clientMessageId : Option String
  senderDeviceId : Option String
  deriving DecidableEq, Repr

def MessageRow.origin (m : MessageRow) : MessageOrigin where
  id := m.id
  conversationId := m.conversationId
  senderId := m.senderId
  createdAt := m.createdAt
  clientMessageId := m.clientMessageId
  senderDeviceId := m.senderDeviceId

def ConversationRow.fixed (c : ConversationRow) : Int × ConversationType × String :=
  (c.id, c.type, c.name)

def ReceiptRow.fixed (r : ReceiptRow) : Int × Int × Int × String :=
  (r.id, r.messageId, r.userId, r.deviceId)

def DeviceRow.fixed (d : DeviceRow) : Int × Int × String × Int :=
  (d.id, d.userId, d.deviceId, d.createdAt)

def IdentityKeyRow.fixed (k : IdentityKeyRow) : Int × Int × String := (k.id, k.userId, k.deviceId)

/-- The membership is the same one, and its read cursor has not moved back. -/
structure MemberRow.Later (m m' : MemberRow) : Prop where
  conversation : m'.conversationId = m.conversationId
  user : m'.userId = m.userId
  joined : m'.joinedAt = m.joinedAt
  cursor : m.lastReadMessageId ≤ m'.lastReadMessageId

/-- A time the receipt has is not changed. -/
structure ReceiptRow.Later (r r' : ReceiptRow) : Prop where
  delivered : r.deliveredAt.isSome → r'.deliveredAt = r.deliveredAt
  read : r.readAt.isSome → r'.readAt = r.readAt

/-- The history in `db` is the beginning of the history in `db'`. -/
structure Db.Endures (db db' : Db) : Prop where
  clock : db.now ≤ db'.now
  users : db.users.Extends id db'.users
  contacts : db.contacts.Extends id db'.contacts
  devices : db.devices.Extends DeviceRow.fixed db'.devices
  events : db.syncEvents.Retains
    (fun e => db'.isExpired syncEventRetentionDays e = true) db'.syncEvents
  watermark : db.prunedBelowSeq ≤ db'.prunedBelowSeq
  conversations : db.conversations.Extends ConversationRow.fixed db'.conversations
  messages : db.messages.Extends MessageRow.origin db'.messages
  receipts : db.messageReceipts.Extends ReceiptRow.fixed db'.messageReceipts
  identityKeys : db.deviceIdentityKeys.Extends IdentityKeyRow.fixed db'.deviceIdentityKeys
  members : db.conversationMembers.Evolves MemberRow.Later db'.conversationMembers
  times : db.messageReceipts.Evolves ReceiptRow.Later db'.messageReceipts

theorem MemberRow.Later.refl (m : MemberRow) : m.Later m := ⟨rfl, rfl, rfl, Int.le_refl _⟩

theorem MemberRow.Later.trans (a b c : MemberRow) (h : a.Later b) (h' : b.Later c) : a.Later c :=
  ⟨h'.conversation.trans h.conversation, h'.user.trans h.user, h'.joined.trans h.joined,
    Int.le_trans h.cursor h'.cursor⟩

theorem ReceiptRow.Later.refl (r : ReceiptRow) : r.Later r := ⟨fun _ => rfl, fun _ => rfl⟩

theorem ReceiptRow.Later.trans (a b c : ReceiptRow) (h : a.Later b) (h' : b.Later c) :
    a.Later c := by
  constructor
  · intro hsome
    have hsame := h.delivered hsome
    exact (h'.delivered (by rwa [hsame])).trans hsame
  · intro hsome
    have hsame := h.read hsome
    exact (h'.read (by rwa [hsame])).trans hsame

namespace Db.Endures

variable {db db' db'' : Db}

theorem refl (db : Db) : db.Endures db where
  clock := Int.le_refl _
  users := .refl _
  contacts := .refl _
  devices := .refl _
  events := .refl _
  watermark := Int.le_refl _
  conversations := .refl _
  messages := .refl _
  receipts := .refl _
  identityKeys := .refl _
  members := .refl .refl _
  times := .refl .refl _

/-- An event that has expired stays expired. -/
theorem isExpired_mono (hclock : db.now ≤ db'.now) {retentionDays : Int} {e : SyncEventRow}
    (h : db.isExpired retentionDays e = true) : db'.isExpired retentionDays e = true := by
  unfold Db.isExpired at *
  simp only [decide_eq_true_eq] at *
  omega

theorem trans (h : db.Endures db') (h' : db'.Endures db'') : db.Endures db'' where
  clock := Int.le_trans h.clock h'.clock
  users := h.users.trans h'.users
  contacts := h.contacts.trans h'.contacts
  devices := h.devices.trans h'.devices
  events := h.events.trans h'.events fun _ => isExpired_mono h'.clock
  watermark := Int.le_trans h.watermark h'.watermark
  conversations := h.conversations.trans h'.conversations
  messages := h.messages.trans h'.messages
  receipts := h.receipts.trans h'.receipts
  identityKeys := h.identityKeys.trans h'.identityKeys
  members := h.members.trans .trans h'.members
  times := h.times.trans .trans h'.times

/-! ## One statement -/

theorem insertMember (conversationId userId : Int) (role : MemberRole) (db : Db) :
    db.Endures (db.insertMember conversationId userId role).1 := by
  unfold Db.insertMember
  split
  · exact { refl db with members := .insert rfl rfl rfl MemberRow.Later.refl }
  · exact refl db

theorem updateMemberReadCursor (conversationId userId messageId : Int) (db : Db) :
    db.Endures (db.updateMemberReadCursor conversationId userId messageId) := by
  refine { refl db with
    members := .update rfl rfl (fun _ => rfl) MemberRow.Later.refl
      fun m hm => ⟨rfl, rfl, rfl, ?_⟩ }
  simp only [Bool.and_eq_true, decide_eq_true_eq] at hm
  exact Int.le_of_lt hm.2

theorem renewReceipt_later (now : Int) (receipt : Receipt) (r : ReceiptRow) :
    r.Later (renewReceipt now receipt r) := by
  constructor
  · intro hsome
    obtain ⟨at', hat⟩ := Option.isSome_iff_exists.mp hsome
    show some (r.deliveredAt.getD now) = r.deliveredAt
    rw [hat]
    rfl
  · intro hsome
    obtain ⟨at', hat⟩ := Option.isSome_iff_exists.mp hsome
    show (if receipt = .read then some (r.readAt.getD now) else r.readAt) = r.readAt
    rw [hat]
    split <;> rfl

theorem recordMessageReceipt (messageId userId : Int) (deviceId : String) (receipt : Receipt)
    (db : Db) : db.Endures (db.recordMessageReceipt messageId userId deviceId receipt) := by
  unfold Db.recordMessageReceipt
  dsimp only
  split
  · exact refl db
  · split
    · exact { refl db with
        receipts := .update rfl fun _ => rfl
        times := .update rfl rfl (fun _ => rfl) ReceiptRow.Later.refl fun r _ =>
          renewReceipt_later db.now receipt r }
    · exact { refl db with
        receipts := .insert rfl
        times := .insert rfl rfl rfl ReceiptRow.Later.refl }

theorem setIdentityKey (userId : Int) (deviceId identityPub : String) (db : Db) :
    db.Endures (db.setIdentityKey userId deviceId identityPub).1 := by
  unfold Db.setIdentityKey
  split
  · exact refl db
  · split
    · exact { refl db with identityKeys := .update rfl fun _ => rfl }
    · exact { refl db with identityKeys := .insert rfl }

theorem prunes (h : db.Prunes syncEventRetentionDays db') : db.Endures db' := by
  cases h with
  | read db => exact refl db
  | deleteExpired db =>
      refine { refl db with events := .delete rfl rfl fun e he => ?_ }
      have hexpired : db.isExpired syncEventRetentionDays e = true := by simpa using he
      exact hexpired
  | raisePruned cutoffSeq db => exact { refl db with watermark := le_max_left _ _ }

/-- Whatever statement is executed, the history grows. -/
theorem of_writes (h : db.Writes db') : db.Endures db' := by
  induction h with
  | refl db => exact refl db
  | trans _ _ ih ih' => exact ih.trans ih'
  | insertConversation type db => exact { refl db with conversations := .insert rfl }
  | insertGroupNamed name db => exact { refl db with conversations := .insert rfl }
  | touchConversation conversationId db =>
      exact { refl db with conversations := .update rfl fun _ => rfl }
  | insertMember conversationId userId role db => exact insertMember conversationId userId role db
  | updateMemberRole conversationId userId role db =>
      exact { refl db with
        members := .update rfl rfl (fun _ => rfl) MemberRow.Later.refl
          fun _ _ => ⟨rfl, rfl, rfl, Int.le_refl _⟩ }
  | setConversationPrefs conversationId userId pinned muted db =>
      unfold Db.setConversationPrefs
      split
      · exact refl db
      · exact { refl db with
          members := .update rfl rfl (fun _ => rfl) MemberRow.Later.refl
            fun _ _ => ⟨rfl, rfl, rfl, Int.le_refl _⟩ }
  | updateMemberReadCursor conversationId userId messageId db =>
      exact updateMemberReadCursor conversationId userId messageId db
  | removeGroupMember conversationId userId db =>
      exact { refl db with members := .delete rfl rfl MemberRow.Later.refl }
  | insertMessage conversationId senderId content contentType clientMessageId senderDeviceId db =>
      unfold Db.insertMessage
      split
      · exact { refl db with messages := .insert rfl }
      · exact refl db
  | editMessage messageId content contentType db =>
      unfold Db.editMessage
      split
      · exact refl db
      · exact { refl db with messages := .update rfl fun _ => rfl }
  | deleteMessage messageId db =>
      unfold Db.deleteMessage
      split
      · exact refl db
      · exact { refl db with messages := .update rfl fun _ => rfl }
  | updateMessageStatus messageId status db =>
      exact { refl db with messages := .update rfl fun _ => rfl }
  | recordMessageReceipt messageId userId deviceId receipt db =>
      exact recordMessageReceipt messageId userId deviceId receipt db
  | appendSyncEvent userId eventType payload db =>
      unfold Db.appendSyncEvent
      split
      · exact { refl db with events := .insert rfl rfl rfl }
      · exact refl db
  | insertContact userId contactUserId db =>
      unfold Db.insertContact
      split
      · exact refl db
      · split
        · exact refl db
        · exact { refl db with contacts := .insert rfl }
  | setIdentityKey userId deviceId identityPub db =>
      exact setIdentityKey userId deviceId identityPub db
  | claimPrekey userId deviceId db =>
      unfold Db.claimPrekey
      split
      · exact refl db
      · exact { refl db with }
  | prunes h => exact prunes h
  | purgePrekeys | insertPrekey | reclaimPrekeys | consumePrekeys => exact { refl _ with }

end Db.Endures

/-! ## When things were made -/

/-- The times of rows that were made in the order of the list, none of them after `now`. -/
def Past (now : Int) (times : List Int) : Prop :=
  times.Pairwise (· ≤ ·) ∧ ∀ t ∈ times, t ≤ now

/-- Messages and events were made in the order of their keys, and not in the future. -/
structure Db.InTime (db : Db) : Prop where
  messages : Past db.now (db.messages.rows.map (·.createdAt))
  events : Past db.now (db.syncEvents.rows.map (·.createdAt))

theorem Past.mono {now now' : Int} {times : List Int} (h : Past now times) (hle : now ≤ now') :
    Past now' times :=
  ⟨h.1, fun t ht => Int.le_trans (h.2 t ht) hle⟩

theorem Past.snoc {now : Int} {times : List Int} (h : Past now times) :
    Past now (times ++ [now]) := by
  constructor
  · refine List.pairwise_append.mpr ⟨h.1, List.pairwise_singleton _ _, fun a ha b hb => ?_⟩
    rw [List.mem_singleton.mp hb]
    exact h.2 a ha
  · intro t ht
    rcases List.mem_append.mp ht with ht | ht
    · exact h.2 t ht
    · rw [List.mem_singleton.mp ht]

/-- Rows of a table that go leave the others in time. -/
theorem Past.filter {now : Int} {rows : List SyncEventRow} (h : Past now (rows.map (·.createdAt)))
    (p : SyncEventRow → Bool) : Past now ((rows.filter p).map (·.createdAt)) := by
  have hsub : ((rows.filter p).map (·.createdAt)).Sublist (rows.map (·.createdAt)) :=
    List.filter_sublist.map _
  exact ⟨h.1.sublist hsub, fun t ht => h.2 t (hsub.subset ht)⟩

namespace Db.InTime

variable {db db' : Db}

theorem of_eq (h : db.InTime) (hnow : db'.now = db.now)
    (hmessages : db'.messages.rows.map (·.createdAt) = db.messages.rows.map (·.createdAt))
    (hevents : db'.syncEvents = db.syncEvents) : db'.InTime := by
  constructor
  · rw [hnow, hmessages]
    exact h.messages
  · rw [hnow, hevents]
    exact h.events

theorem update (h : db.InTime) {p : MessageRow → Bool} {f : MessageRow → MessageRow}
    (hrows : db'.messages.rows = db.messages.rows.map fun m => if p m then f m else m)
    (hf : ∀ m, (f m).createdAt = m.createdAt) (hnow : db'.now = db.now)
    (hevents : db'.syncEvents = db.syncEvents) : db'.InTime := by
  refine of_eq h hnow ?_ hevents
  rw [hrows, List.map_map]
  refine List.map_congr_left fun m _ => ?_
  show (if p m then f m else m).createdAt = m.createdAt
  split
  · exact hf m
  · rfl

theorem insertMessage (h : db.InTime) (conversationId senderId : Int) (content contentType
    clientMessageId senderDeviceId : String) :
    (db.insertMessage conversationId senderId content contentType clientMessageId
      senderDeviceId).1.InTime := by
  unfold Db.insertMessage
  split
  · refine ⟨?_, h.events⟩
    show Past db.now ((db.messages.rows ++ [_]).map _)
    rw [List.map_append]
    exact h.messages.snoc
  · exact h

theorem appendSyncEvent (h : db.InTime) (userId : Int) (eventType : String) (payload : Json) :
    (db.appendSyncEvent userId eventType payload).InTime := by
  unfold Db.appendSyncEvent
  split
  · refine ⟨h.messages, ?_⟩
    show Past db.now ((db.syncEvents.rows ++ [_]).map _)
    rw [List.map_append]
    exact h.events.snoc
  · exact h

/-- The events that are left are in time. -/
theorem prunes (h : db.InTime) (hprunes : db.Prunes syncEventRetentionDays db') :
    db'.InTime := by
  cases hprunes with
  | read db => exact h
  | deleteExpired db => exact ⟨h.messages, h.events.filter _⟩
  | raisePruned cutoffSeq db => exact of_eq h rfl rfl rfl

/-- Whatever statement is executed, what is made is made now. -/
theorem of_writes (hwrites : db.Writes db') (h : db.InTime) : db'.InTime := by
  induction hwrites with
  | refl db => exact h
  | trans _ _ ih ih' => exact ih' (ih h)
  | insertMember conversationId userId role db =>
      unfold Db.insertMember
      split
      · exact of_eq h rfl rfl rfl
      · exact h
  | setConversationPrefs conversationId userId pinned muted db =>
      unfold Db.setConversationPrefs
      split
      · exact h
      · exact of_eq h rfl rfl rfl
  | insertMessage conversationId senderId content contentType clientMessageId senderDeviceId db =>
      exact insertMessage h conversationId senderId content contentType clientMessageId
        senderDeviceId
  | editMessage messageId content contentType db =>
      unfold Db.editMessage
      split
      · exact h
      · refine update h rfl (fun _ => ?_) rfl rfl
        rfl
  | deleteMessage messageId db =>
      unfold Db.deleteMessage
      split
      · exact h
      · refine update h rfl (fun _ => ?_) rfl rfl
        rfl
  | updateMessageStatus messageId status db =>
      refine update h rfl (fun _ => ?_) rfl rfl
      rfl
  | recordMessageReceipt messageId userId deviceId receipt db =>
      unfold Db.recordMessageReceipt
      dsimp only
      split
      · exact h
      · split <;> exact of_eq h rfl rfl rfl
  | appendSyncEvent userId eventType payload db =>
      exact appendSyncEvent h userId eventType payload
  | insertContact userId contactUserId db =>
      unfold Db.insertContact
      split
      · exact h
      · split
        · exact h
        · exact of_eq h rfl rfl rfl
  | setIdentityKey userId deviceId identityPub db =>
      unfold Db.setIdentityKey
      split
      · exact h
      · split <;> exact of_eq h rfl rfl rfl
  | claimPrekey userId deviceId db =>
      unfold Db.claimPrekey
      split
      · exact h
      · exact of_eq h rfl rfl rfl
  | prunes hprunes => exact prunes h hprunes
  | _ => exact of_eq h rfl rfl rfl

end Db.InTime

/-! ## The whole database -/

theorem ServerDb.endures_of_writes {hashes : Hashes} {s s' : ServerDb} (h : s.Writes hashes s') :
    s.toDb.Endures s'.toDb := by
  induction h with
  | trans _ _ ih ih' => exact ih.trans ih'
  | tables s h => exact .of_writes h
  | registerUser s h =>
      unfold ServerDb.registerUser Db.registerUser
      split
      · exact .refl _
      · exact { Db.Endures.refl _ with users := .insert rfl }
  | registerDevice userId deviceId deviceName platform s =>
      unfold ServerDb.registerDevice Db.registerDevice
      dsimp only
      split
      · exact { Db.Endures.refl _ with devices := .update rfl fun _ => rfl }
      · split
        · exact { Db.Endures.refl _ with devices := .insert rfl }
        · exact .refl _
  | createSession userId deviceId tokenHash loginIp s =>
      unfold ServerDb.createSession
      split <;> exact .refl _
  | _ => exact .refl _

theorem ServerDb.inTime_of_writes {hashes : Hashes} {s s' : ServerDb} (h : s.Writes hashes s')
    (hs : s.toDb.InTime) : s'.toDb.InTime := by
  induction h with
  | refl s => exact hs
  | trans _ _ ih ih' => exact ih' (ih hs)
  | tables s h => exact .of_writes h hs
  | registerUser s h =>
      unfold ServerDb.registerUser Db.registerUser
      split
      · exact hs
      · exact .of_eq hs rfl rfl rfl
  | registerDevice userId deviceId deviceName platform s =>
      obtain ⟨devices, hdb⟩ := s.toDb.registerDevice_eq userId deviceId deviceName platform
      unfold ServerDb.registerDevice
      rw [hdb]
      exact .of_eq hs rfl rfl rfl
  | createSession userId deviceId tokenHash loginIp s =>
      unfold ServerDb.createSession
      split <;> exact hs
  | _ => exact hs

/-- The clock adds to no history. -/
theorem Db.Endures.tick (db : Db) (seconds : Nat) :
    db.Endures { db with now := db.now + seconds } :=
  { Db.Endures.refl db with
    clock := Int.le_add_of_nonneg_right (Int.natCast_nonneg seconds)
    events := .refl _ }

theorem Db.InTime.tick {db : Db} (h : db.InTime) (seconds : Nat) :
    Db.InTime { db with now := db.now + seconds } := by
  have hle : db.now ≤ db.now + seconds := Int.le_add_of_nonneg_right (Int.natCast_nonneg seconds)
  exact ⟨h.messages.mono hle, h.events.mono hle⟩

/-! ## Every run -/

section

variable {qt : Qt} {hashes : Hashes} {s s₀ : ServerState}

theorem run_endures (qt : Qt) (h : s.Writing hashes) (ops : List ServerOp) :
    s.pool.store.toDb.Endures ((chatServer qt hashes).run s ops).pool.store.toDb ∧
      ((chatServer qt hashes).run s ops).Writing hashes :=
  run_related (R := fun a b => a.toDb.Endures b.toDb) (fun _ => .refl _) .trans
    (fun _ _ => ServerDb.endures_of_writes) (fun _ seconds => .tick _ seconds) h ops

theorem run_inTime (h : s.Writing hashes) (hs : s.pool.store.toDb.InTime) (ops : List ServerOp) :
    ((chatServer qt hashes).run s ops).pool.store.toDb.InTime :=
  (run_related (R := fun a b => a.toDb.InTime → b.toDb.InTime) (fun _ h => h)
    (fun h h' hs => h' (h hs)) (fun _ _ => ServerDb.inTime_of_writes)
    (fun _ seconds h => h.tick seconds) h ops).1 hs

/-- **Nothing is rewritten.** At each moment of a run of the server the history is the
beginning of what it is at each later moment, and what has been made was made in the
order of the keys. -/
theorem history_kept (h : s₀.Started hashes) (hs : s₀.pool.store.toDb.InTime)
    (ops later : List ServerOp) :
    ((chatServer qt hashes).run s₀ ops).pool.store.toDb.Endures
        ((chatServer qt hashes).run s₀ (ops ++ later)).pool.store.toDb ∧
      ((chatServer qt hashes).run s₀ (ops ++ later)).pool.store.toDb.InTime := by
  constructor
  · rw [Machine.run_append]
    exact (run_endures qt (run_endures qt h.writing ops).2 later).1
  · exact run_inTime h.writing hs (ops ++ later)

end

/-! ## Somebody registers -/

/-- A server with one user, who has written one message to the group she is in, and
been told of it. -/
def recordedServer : ServerState where
  pool :=
    { store :=
        { now := 5
          users := .ofRows [{ id := 1, username := "alice" }]
          conversations := .ofRows [{ id := 1, type := .groupType }]
          conversationMembers := .ofRows [{ id := 1, conversationId := 1, userId := 1 }]
          messages := .ofRows
            [ { id := 1, conversationId := 1, senderId := 1, content := "a", contentType := "text"
                createdAt := 2 } ]
          syncEvents := .ofRows
            [ { seq := 1, userId := 1, eventType := "message", payload := .obj [], createdAt := 2 } ] }
      workers := fun _ => { here := {} } }

/-- The registration of bob. -/
def registration : Json := .obj
  [ ("nonce", .str "1"), ("password", .str "secret"), ("timestamp", .int 5)
  , ("type", .str "register"), ("username", .str " bob") ]

def registerQt : Qt := Qt.ofDocuments [registration]

def markedHashes : Hashes where
  hashToken token := token
  hashPasswordWithSalt salt password := salt ++ password
  verifyPassword _ _ := false

theorem recordedServer_started : recordedServer.Started markedHashes :=
  ⟨fun _ => rfl, rfl, rfl, by simp [recordedServer, Table.empty],
    by simp [recordedServer, Table.empty]⟩

theorem recordedServer_inTime : recordedServer.pool.store.toDb.InTime :=
  ⟨⟨by decide, by decide⟩, ⟨by decide, by decide⟩⟩

def bobRegisters : List ServerOp :=
  .packet 0 ⟨1, 1, registration.text⟩ ⟨"", "s"⟩ :: List.replicate 2 (.statement 0)

/-- The timer fires when the event is more than thirty days old. -/
def monthPasses : List ServerOp :=
  .tick (86400 * 31) :: .prune :: List.replicate 4 .pruneStatement

/-- Bob registers, and his row follows what was there; a month later the event has gone. -/
theorem history_kept_bob :
    ((chatServer registerQt markedHashes).run recordedServer bobRegisters).pool.store.users.rows =
      [⟨1, "alice", ""⟩, ⟨2, "bob", "ssecret"⟩] ∧
    ((chatServer registerQt markedHashes).run recordedServer
        (bobRegisters ++ monthPasses)).pool.store.syncEvents.rows.length = 0 ∧
    ((chatServer registerQt markedHashes).run recordedServer bobRegisters).pool.store.toDb.Endures
        ((chatServer registerQt markedHashes).run recordedServer
          (bobRegisters ++ monthPasses)).pool.store.toDb ∧
      ((chatServer registerQt markedHashes).run recordedServer
          (bobRegisters ++ monthPasses)).pool.store.toDb.InTime :=
  ⟨by decide +kernel, by decide +kernel,
    history_kept recordedServer_started recordedServer_inTime _ _⟩

end XYChat.Server
