import XYChat.Server.Acknowledgement
import XYChat.Server.History

/-!
# The status that receipts add up to

While acknowledgements work out the status of a message, others come in and users
join and leave: the sender and people who have left can stand in for members that
have sent none, and what is counted need not be so any more when the status is set.
-/

namespace XYChat.Server

open XYChat.Lib
open XYChat.Lib.Prog

/-! ## What a status says -/

/-- How far a status is. -/
def MessageStatus.rank : MessageStatus → Nat
  | .sent => 0
  | .delivered => 1
  | .read => 2

/-- A message that becomes delivered (or read) has such a receipt from each
member but its sender, and no message goes back. -/
structure StatusesSound (db db' : Db) : Prop where
  justified : ∀ m ∈ db.messages.rows, ∀ m' ∈ db'.messages.rows, m'.id = m.id →
    ∀ receipt : Receipt, m'.status = receipt.status → m.status ≠ receipt.status →
    ∀ r ∈ db'.conversationMembers.rows, r.conversationId = m.conversationId →
      r.userId ≠ m.senderId → r.userId ∈ db'.receiptUsers m.id receipt
  forward : ∀ m ∈ db.messages.rows, ∀ m' ∈ db'.messages.rows, m'.id = m.id →
    m.status.rank ≤ m'.status.rank

/-! ## Acknowledgements among the other requests -/

/-- What a connection is at: nothing, an acknowledgement, or what is left of the
handler of another request. -/
inductive Activity where
  | idle
  | acknowledging (a : Acknowledgement) (phase : AckPhase)
  | handling (p : Prog Db Outcome)

namespace Activity

/-- A request that no handler over these tables takes leaves the connection idle. -/
def start (qt : Qt) (conn : Connection) (requestId : Nat) (request : Json) : Handler → Activity
  | .ackMessage => .acknowledging ⟨conn, request, requestId⟩ (.start ⟨conn, request, requestId⟩)
  | handler =>
      match handler.program qt requestId conn request with
      | none => .idle
      | some p => .handling p

/-- The next statement, or the end of what is answered. -/
def execute (db : Db) : Activity → Db × Activity
  | .idle => (db, .idle)
  | .acknowledging _ (.answered _) => (db, .idle)
  | .acknowledging a phase => ((phase.step a db).1, .acknowledging a (phase.step a db).2)
  | .handling (.ret _) => (db, .idle)
  | .handling (.stmt upd next) => (upd db, .handling (next db))

end Activity

structure ReceiptServer where
  db : Db
  activity : Nat → Activity := fun _ => .idle

/-- An idle connection takes up a request, a connection executes its next
statement; a user registers, old events are pruned, time passes. -/
inductive ReceiptOp where
  | request (c : Nat) (handler : Handler) (conn : Connection) (requestId : Nat) (request : Json)
  | statement (c : Nat)
  | register (username passwordHash : String)
  | prune (p : Pruning)
  | tick (seconds : Nat)

namespace ReceiptServer

def step (qt : Qt) (s : ReceiptServer) : ReceiptOp → ReceiptServer
  | .request c handler conn requestId request =>
      match s.activity c with
      | .idle =>
          { s with
            activity := Function.update s.activity c (.start qt conn requestId request handler) }
      | _ => s
  | .statement c =>
      { db := ((s.activity c).execute s.db).1
        activity := Function.update s.activity c ((s.activity c).execute s.db).2 }
  | .register username passwordHash => { s with db := (s.db.registerUser username passwordHash).1 }
  | .prune p => { s with db := (p.advance s.db).1 }
  | .tick seconds => { s with db := { s.db with now := s.db.now + seconds } }

/-- The step keeps the statuses of messages sound. -/
def StepSound (qt : Qt) (s : ReceiptServer) (op : ReceiptOp) : Prop :=
  StatusesSound s.db (s.step qt op).db

end ReceiptServer

/-- The condition on a statement of an acknowledgement, read where it is executed.
Where the read receipts are counted, nobody stands in for a recipient, unless the
message was read already. Where the delivered ones are counted and too few have
read it, nobody does, unless the message was delivered already; and if it was read,
too few have received it. Where the status is set, whoever has become a recipient
since has sent such a receipt, unless the message has this status already; and a
message is not set to delivered that somebody has set to read since it was looked
at. -/
def AckPhase.CountsRight (db : Db) : AckPhase → Prop
  | .countReaders _ msg expectedRecipients =>
      msg.status = .read ∨ db.NoStandIns msg .read expectedRecipients
  | .countReceivers _ msg expectedRecipients readCount _ =>
      expectedRecipients ≤ readCount ∨ msg.status = .delivered ∨
        db.NoStandIns msg .delivered expectedRecipients ∧
          (msg.status = .read → db.receiptUserCount msg.id .delivered < expectedRecipients)
  | .setStatus _ msg status _ _ present =>
      (db.HasStatus msg.id status.status ∨
        ∀ u ∈ db.recipients msg, u ∈ present ∨ u ∈ db.receiptUsers msg.id status) ∧
      (status = .delivered → db.HasStatus msg.id .read → msg.status = .read)
  | _ => True

/-- The condition on a step. -/
def ReceiptServer.CountsRight (s : ReceiptServer) : ReceiptOp → Prop
  | .statement c =>
      match s.activity c with
      | .acknowledging _ phase => phase.CountsRight s.db
      | _ => True
  | _ => True

/-- Nobody is connected. -/
def receiptMachine (qt : Qt) : Machine ReceiptServer ReceiptOp where
  init s := ∀ c, s.activity c = .idle
  step := ReceiptServer.step qt

/-! ## What stays -/

/-- Messages stay whose they are and where, and receipts stay. -/
structure Db.Accrues (db db' : Db) : Prop where
  messages : ∀ m ∈ db.messages.rows, ∃ m' ∈ db'.messages.rows,
    m'.id = m.id ∧ m'.conversationId = m.conversationId ∧ m'.senderId = m.senderId
  receipts : ∀ messageId receipt, ∀ u ∈ db.receiptUsers messageId receipt,
    u ∈ db'.receiptUsers messageId receipt

namespace Db.Accrues

variable {db db' : Db}

theorem of_eq (hmessages : db'.messages = db.messages)
    (hreceipts : db'.messageReceipts = db.messageReceipts) : db.Accrues db' := by
  constructor
  · intro m hm
    rw [hmessages]
    exact ⟨m, hm, rfl, rfl, rfl⟩
  · intro messageId receipt u hu
    unfold Db.receiptUsers at hu ⊢
    rwa [hreceipts]

theorem of_endures (h : db.Endures db') : db.Accrues db' := by
  constructor
  · intro m hm
    obtain ⟨m', hm', horigin⟩ := h.messages.mem hm
    exact ⟨m', hm', congrArg MessageOrigin.id horigin,
      congrArg MessageOrigin.conversationId horigin, congrArg MessageOrigin.senderId horigin⟩
  · intro messageId receipt u hu
    unfold Db.receiptUsers at hu ⊢
    rw [List.mem_dedup, List.mem_map] at hu ⊢
    obtain ⟨r, hr, rfl⟩ := hu
    obtain ⟨hr, hshows⟩ := List.mem_filter.mp hr
    simp only [Bool.and_eq_true, beq_iff_eq] at hshows
    obtain ⟨r', hr', hfixed⟩ := h.receipts.mem hr
    obtain ⟨hid, hmessage, huser, _⟩ := by simpa [ReceiptRow.fixed] using hfixed
    have hlater := h.times.rel hr hr' hid
    refine ⟨r', List.mem_filter.mpr ⟨hr', ?_⟩, huser⟩
    simp only [Bool.and_eq_true, beq_iff_eq]
    refine ⟨hmessage.trans hshows.1, ?_⟩
    have hread : r.readAt.isSome = true → r'.readAt.isSome = true := fun hsome => by
      rw [hlater.read hsome]
      exact hsome
    have hdelivered : r.deliveredAt.isSome = true → r'.deliveredAt.isSome = true := fun hsome => by
      rw [hlater.delivered hsome]
      exact hsome
    cases receipt with
    | read => exact hread hshows.2
    | delivered =>
        refine Bool.or_eq_true_iff.mpr ?_
        exact (Bool.or_eq_true_iff.mp hshows.2).imp hdelivered hread

theorem of_writes (h : db.Writes db') : db.Accrues db' := of_endures (.of_writes h)

end Db.Accrues

/-- Where each message is kept, statuses are sound. -/
theorem sound_of_keeps {db db' : Db} (h : db.KeepsMessages db') : StatusesSound db db' := by
  have hstatus : ∀ m ∈ db.messages.rows, ∀ m' ∈ db'.messages.rows, m'.id = m.id →
      m'.status = m.status := by
    intro m hm m' hm' hid
    obtain ⟨x, hx, hkeeps⟩ := h.rows m hm
    rw [Table.key_inj hm' hx (hid.trans hkeeps.id.symm)]
    exact hkeeps.status
  constructor
  · intro m hm m' hm' hid receipt hreceipt hne
    exact absurd ((hstatus m hm m' hm' hid).symm.trans hreceipt) hne
  · intro m hm m' hm' hid
    rw [hstatus m hm m' hm' hid]

/-! ## What an acknowledgement relies on -/

/-- The message is in the table, if with another status or text by now. -/
def Db.Knows (db : Db) (m : MessageRow) : Prop :=
  ∃ x ∈ db.messages.rows,
    x.id = m.id ∧ x.conversationId = m.conversationId ∧ x.senderId = m.senderId

/-- What an acknowledgement has read stands for what it takes it for: enough receipts
for the recipients there were are receipts from these. -/
def AckPhase.Reliable (db : Db) : AckPhase → Prop
  | .getMessage _ | .tellSender .. | .answered _ => True
  | .isMember _ msg | .recordReceipt _ msg | .moveCursor msg | .tellReader msg
  | .countMembers _ msg | .countReaders _ msg _ => db.Knows msg
  | .countReceivers _ msg expectedRecipients readCount present =>
      db.Knows msg ∧
        (0 < expectedRecipients → expectedRecipients ≤ readCount → msg.status ≠ .read →
          ∀ u ∈ present, u ∈ db.receiptUsers msg.id .read)
  | .setStatus _ msg status _ _ present =>
      db.Knows msg ∧ (∀ u ∈ present, u ∈ db.receiptUsers msg.id status) ∧
        (status = .delivered → msg.status ≠ .read)

section

variable {a : Acknowledgement} {db db' : Db} {phase : AckPhase}

theorem Db.Knows.mono {m : MessageRow} (h : db.Knows m) (haccrues : db.Accrues db') :
    db'.Knows m := by
  obtain ⟨x, hx, hid, hconv, hsender⟩ := h
  obtain ⟨x', hx', hid', hconv', hsender'⟩ := haccrues.messages x hx
  exact ⟨x', hx', hid'.trans hid, hconv'.trans hconv, hsender'.trans hsender⟩

/-- What others do in between leaves it so. -/
theorem AckPhase.Reliable.mono (h : phase.Reliable db) (haccrues : db.Accrues db') :
    phase.Reliable db' := by
  cases phase with
  | getMessage | tellSender | answered => trivial
  | isMember | recordReceipt | moveCursor | tellReader | countMembers | countReaders =>
      exact Db.Knows.mono h haccrues
  | countReceivers own msg expectedRecipients readCount present =>
      obtain ⟨hknows, hreaders⟩ := h
      refine ⟨hknows.mono haccrues, fun hpos hle hne u hu => ?_⟩
      exact haccrues.receipts _ _ u (hreaders hpos hle hne u hu)
  | setStatus own msg status deliveredCount readCount present =>
      obtain ⟨hknows, hpresent, hne⟩ := h
      exact ⟨hknows.mono haccrues, fun u hu => haccrues.receipts _ _ u (hpresent u hu), hne⟩

/-- Its statements are statements of the server. -/
theorem AckPhase.step_writes : db.Writes (phase.step a db).1 := by
  cases phase with
  | getMessage | isMember | countMembers | countReaders | countReceivers | answered =>
      exact .refl db
  | recordReceipt receipt msg => exact .recordMessageReceipt _ _ _ _ db
  | moveCursor msg => exact .updateMemberReadCursor _ _ _ db
  | tellReader msg => exact .appendSyncEvent _ _ _ db
  | setStatus own msg status deliveredCount readCount present =>
      exact .updateMessageStatus _ _ db
  | tellSender own msg status deliveredCount readCount => exact .appendSyncEvent _ _ _ db

theorem aggregatedStatus_read {expectedRecipients readCount deliveredCount : Nat}
    (h : aggregatedStatus expectedRecipients readCount deliveredCount = some .read) :
    0 < expectedRecipients ∧ expectedRecipients ≤ readCount := by
  unfold aggregatedStatus at h
  split at h
  · assumption
  · split at h <;> cases h

theorem aggregatedStatus_delivered {expectedRecipients readCount deliveredCount : Nat}
    (h : aggregatedStatus expectedRecipients readCount deliveredCount = some .delivered) :
    readCount < expectedRecipients ∧ 0 < expectedRecipients ∧
      expectedRecipients ≤ deliveredCount := by
  unfold aggregatedStatus at h
  split at h
  · cases h
  · split at h
    · omega
    · cases h

/-- **Counts.** A statement where nobody stands in for a recipient leaves what the
next one relies on. -/
theorem AckPhase.Reliable.step (h : phase.Reliable db) (hcount : phase.CountsRight db) :
    (phase.step a db).2.Reliable (phase.step a db).1 := by
  have haccrues : db.Accrues (phase.step a db).1 := .of_writes step_writes
  cases phase with
  | getMessage receipt =>
      unfold AckPhase.step
      dsimp only
      cases hfound : db.getMessage a.messageId with
      | none => trivial
      | some msg =>
          have hm := (Table.get_eq_some.mp (Option.filter_eq_some_iff.mp hfound).1).1
          exact ⟨msg, hm, rfl, rfl, rfl⟩
  | isMember receipt msg =>
      unfold AckPhase.step
      dsimp only
      split
      · trivial
      · exact h
  | recordReceipt receipt msg => cases receipt <;> exact Db.Knows.mono h haccrues
  | moveCursor | tellReader => exact Db.Knows.mono h haccrues
  | countMembers => exact h
  | countReaders own msg expectedRecipients =>
      refine ⟨h, fun hpos hle hne u hu => ?_⟩
      rcases hcount with hread | hnone
      · exact absurd hread hne
      · exact receiptUsers_of_lacking (lacking_of_enough hnone hpos hle) hu
  | countReceivers own msg expectedRecipients readCount present =>
      obtain ⟨hknows, hreaders⟩ := h
      unfold AckPhase.step
      dsimp only
      cases hstatus : aggregatedStatus expectedRecipients readCount
        (db.receiptUserCount msg.id .delivered) with
      | none => trivial
      | some status =>
          dsimp only
          split
          · trivial
          rename_i hne
          cases status with
          | read =>
              obtain ⟨hpos, hle⟩ := aggregatedStatus_read hstatus
              rw [if_pos rfl]
              exact ⟨hknows, hreaders hpos hle (Ne.symm hne), fun h => by cases h⟩
          | delivered =>
              obtain ⟨hfew, hpos, hle⟩ := aggregatedStatus_delivered hstatus
              rw [if_neg (by decide)]
              -- enough readers would have made it read, and a delivered one is not set again
              rcases hcount with hmany | hsame | ⟨hnone, hread⟩
              · omega
              · exact absurd hsame.symm hne
              · refine ⟨hknows, fun u hu => ?_, fun _ hwas => ?_⟩
                · exact receiptUsers_of_lacking (lacking_of_enough hnone hpos hle) hu
                · have hfewer := hread hwas
                  omega
  | setStatus | tellSender | answered => trivial

/-- Only where the status is set are the messages not as they were. -/
theorem AckPhase.step_keeps
    (h : ∀ own msg status deliveredCount readCount present,
      phase ≠ .setStatus own msg status deliveredCount readCount present) :
    db.KeepsMessages (phase.step a db).1 := by
  cases phase with
  | getMessage | isMember | countMembers | countReaders | countReceivers | answered =>
      exact .refl db
  | recordReceipt receipt msg =>
      refine .of_eq ?_
      unfold AckPhase.step Db.recordMessageReceipt
      dsimp only
      split
      · rfl
      · split <;> rfl
  | moveCursor msg => exact .of_eq rfl
  | tellReader msg => exact (Db.Keeps.appendSyncEvent _ _ _ db).messages
  | setStatus own msg status deliveredCount readCount present =>
      exact absurd rfl (h own msg status deliveredCount readCount present)
  | tellSender own msg status deliveredCount readCount =>
      exact (Db.Keeps.appendSyncEvent _ _ _ db).messages

theorem Receipt.status_injective {receipt receipt' : Receipt}
    (h : receipt.status = receipt'.status) : receipt = receipt' := by
  cases receipt <;> cases receipt' <;> first | rfl | cases h

/-- The update sets the status of one message and keeps that of the others. -/
theorem status_updated {messageId : Int} {status : MessageStatus} {m m' : MessageRow}
    (hm : m ∈ db.messages.rows)
    (hm' : m' ∈ (db.updateMessageStatus messageId status).messages.rows) (hid : m'.id = m.id) :
    (m.id = messageId ∧ m'.status = status) ∨ m'.status = m.status := by
  obtain ⟨y, hy, rfl⟩ := List.mem_map.mp hm'
  have hym : y = m := by
    refine Table.key_inj hy hm ?_
    split at hid <;> exact hid
  subst hym
  split
  · rename_i heq
    exact .inl ⟨beq_iff_eq.mp heq, rfl⟩
  · exact .inr rfl

/-- **The status is set soundly** where nobody has become a recipient since the
receipts were counted, and nobody has set the message to read. -/
theorem setStatus_sound {own : List Push} {msg : MessageRow} {status : Receipt}
    {deliveredCount readCount : Nat} {present : Finset Int}
    (h : (AckPhase.setStatus own msg status deliveredCount readCount present).Reliable db)
    (hcount : (AckPhase.setStatus own msg status deliveredCount readCount present).CountsRight db) :
    StatusesSound db (db.updateMessageStatus msg.id status.status) := by
  obtain ⟨⟨x, hx, hid, hconv, hsender⟩, hpresent, hne⟩ := h
  obtain ⟨hjoined, hovertaken⟩ := hcount
  constructor
  · intro m hm m' hm' hmid receipt hstatus hwas r hr hrconv hrsender
    rcases status_updated hm hm' hmid with ⟨heq, hset⟩ | hkept
    · obtain rfl := Table.key_inj hm hx (heq.trans hid.symm)
      have hreceipt : status = receipt := Receipt.status_injective (hset.symm.trans hstatus)
      subst hreceipt
      show r.userId ∈ db.receiptUsers m.id status
      rw [hid]
      have hrecipient : r.userId ∈ db.recipients msg := by
        refine mem_recipients.mpr ⟨?_, fun heq => hrsender (heq.trans hsender.symm)⟩
        exact (isConversationMember_iff _ _).mpr ⟨r, hr, hrconv.trans hconv, rfl⟩
      rcases hjoined with ⟨y, hy, hyid, hystatus⟩ | hall
      · obtain rfl := Table.key_inj hy hm (hyid.trans hid.symm)
        exact absurd hystatus hwas
      -- a recipient was one when the receipts were counted, or has sent a receipt since
      · rcases hall _ hrecipient with hold | hsent
        · exact hpresent _ hold
        · exact hsent
    · exact absurd (hkept.symm.trans hstatus) hwas
  · intro m hm m' hm' hmid
    rcases status_updated hm hm' hmid with ⟨heq, hset⟩ | hkept
    · rw [hset]
      cases status with
      | read => cases m.status <;> decide
      | delivered =>
          cases hwas : m.status with
          | sent | delivered => decide
          | read => exact absurd (hovertaken rfl ⟨m, hm, heq, hwas⟩) (hne rfl)
    · rw [hkept]

/-- A statement of an acknowledgement keeps statuses sound. -/
theorem AckPhase.Reliable.sound (h : phase.Reliable db) (hcount : phase.CountsRight db) :
    StatusesSound db (phase.step a db).1 := by
  cases phase with
  | setStatus => exact setStatus_sound h hcount
  | _ =>
      refine sound_of_keeps (AckPhase.step_keeps fun own msg status d r present h => ?_)
      cases h

end

/-! ## Runs -/

section runs

variable {qt : Qt} {s : ReceiptServer}

/-- What another handler's statements do. -/
def KeepsStanding (db db' : Db) : Prop := db.KeepsMessages db' ∧ db.Accrues db'

/-- Acknowledgements can rely on what they have read, and the other handlers leave
it so. -/
structure ReceiptServer.Reliable (s : ReceiptServer) : Prop where
  acknowledging : ∀ c a phase, s.activity c = .acknowledging a phase → phase.Reliable s.db
  handling : ∀ c p, s.activity c = .handling p → p.Within KeepsStanding

namespace ReceiptServer.Reliable

/-- The tables change and messages and receipts stay. -/
theorem setDb {db : Db} (h : s.Reliable) (haccrues : s.db.Accrues db) :
    ({ s with db := db } : ReceiptServer).Reliable where
  acknowledging c a phase hc := (h.acknowledging c a phase hc).mono haccrues
  handling := h.handling

/-- One connection goes on. -/
theorem goOn {db : Db} {c : Nat} {next : Activity} (h : s.Reliable) (haccrues : s.db.Accrues db)
    (hack : ∀ a phase, next = .acknowledging a phase → phase.Reliable db)
    (hhandle : ∀ p, next = .handling p → p.Within KeepsStanding) :
    ReceiptServer.Reliable { db, activity := Function.update s.activity c next } := by
  constructor
  · intro c' a phase hc'
    by_cases hc : c' = c
    · subst hc
      exact hack a phase (by simpa using hc')
    · dsimp only at hc'
      rw [Function.update_of_ne hc] at hc'
      exact (h.acknowledging c' a phase hc').mono haccrues
  · intro c' p hc'
    by_cases hc : c' = c
    · subst hc
      exact hhandle p (by simpa using hc')
    · dsimp only at hc'
      rw [Function.update_of_ne hc] at hc'
      exact h.handling c' p hc'

end ReceiptServer.Reliable

theorem AckPhase.reliable_start (a : Acknowledgement) (db : Db) :
    (AckPhase.start a).Reliable db := by
  unfold AckPhase.start
  split
  · trivial
  · split <;> trivial

/-- A request that is taken up relies on nothing yet. -/
theorem reliable_start {db : Db} {conn : Connection} {requestId : Nat} {request : Json}
    {handler : Handler} :
    (∀ a phase, Activity.start qt conn requestId request handler = .acknowledging a phase →
        phase.Reliable db) ∧
      ∀ p, Activity.start qt conn requestId request handler = .handling p →
        p.Within KeepsStanding := by
  by_cases hack : handler = .ackMessage
  · subst hack
    constructor
    · intro a phase h
      obtain ⟨rfl, rfl⟩ := Activity.acknowledging.inj h
      exact AckPhase.reliable_start _ db
    · intro p h
      cases h
  · have hstart : Activity.start qt conn requestId request handler =
        match handler.program qt requestId conn request with
        | none => .idle
        | some p => .handling p := by
      cases handler <;> first | rfl | exact absurd rfl hack
    rw [hstart]
    cases hp : handler.program qt requestId conn request with
    | none =>
        constructor
        · intro a phase h
          cases h
        · intro p h
          cases h
    | some p =>
        constructor
        · intro a phase h
          cases h
        intro p' h
        obtain rfl := Activity.handling.inj h
        have hrows := (program_keepsRows hp hack).mono fun _ _ h => h.messages
        exact hrows.and ((program_writes hp).mono fun _ _ h => .of_writes h)

/-- **Statement lemma.** Where nobody stands in for a recipient, a statement keeps
statuses sound, and what acknowledgements rely on. -/
theorem statement_sound {c : Nat} (h : s.Reliable) (hcount : s.CountsRight (.statement c)) :
    s.StepSound qt (.statement c) ∧ (s.step qt (.statement c)).Reliable := by
  unfold ReceiptServer.CountsRight at hcount
  show StatusesSound s.db ((s.activity c).execute s.db).1 ∧
    ReceiptServer.Reliable
      { db := ((s.activity c).execute s.db).1
        activity := Function.update s.activity c ((s.activity c).execute s.db).2 }
  have hkept : StatusesSound s.db s.db := sound_of_keeps (.refl _)
  have hidle : ReceiptServer.Reliable
      { db := s.db, activity := Function.update s.activity c .idle } :=
    h.goOn (.of_eq rfl rfl) (fun _ _ h => by cases h) fun _ h => by cases h
  cases hc : s.activity c with
  | idle => exact ⟨hkept, hidle⟩
  | acknowledging a phase =>
      dsimp only at hcount
      rw [hc] at hcount
      have hreliable := h.acknowledging c a phase hc
      cases hphase : phase with
      | answered outcome => exact ⟨hkept, hidle⟩
      | _ =>
          rw [← hphase]
          have hexecute : (Activity.acknowledging a phase).execute s.db =
              ((phase.step a s.db).1, .acknowledging a (phase.step a s.db).2) := by
            rw [hphase]
            rfl
          rw [hexecute]
          refine ⟨hreliable.sound hcount, h.goOn (.of_writes AckPhase.step_writes) ?_ ?_⟩
          · intro a' phase' heq
            obtain ⟨rfl, rfl⟩ := Activity.acknowledging.inj heq
            exact hreliable.step hcount
          · intro p heq
            cases heq
  | handling p =>
      cases p with
      | ret outcome => exact ⟨hkept, hidle⟩
      | stmt upd next =>
          obtain ⟨⟨hmessages, haccrues⟩, hnext⟩ := within_stmt.mp (h.handling c _ hc) s.db
          refine ⟨sound_of_keeps hmessages, h.goOn haccrues (fun _ _ heq => by cases heq) ?_⟩
          intro p heq
          obtain rfl := Activity.handling.inj heq
          exact hnext

/-- **Step lemma.** -/
theorem step_sound {op : ReceiptOp} (h : s.Reliable) (hcount : s.CountsRight op) :
    s.StepSound qt op ∧ (s.step qt op).Reliable := by
  cases op with
  | statement c => exact statement_sound h hcount
  | request c handler conn requestId request =>
      unfold ReceiptServer.StepSound ReceiptServer.step
      dsimp only
      cases hc : s.activity c with
      | acknowledging | handling => exact ⟨sound_of_keeps (.refl _), h⟩
      | idle =>
          obtain ⟨hack, hhandle⟩ := @reliable_start qt s.db conn requestId request handler
          exact ⟨sound_of_keeps (.refl _), h.goOn (.of_eq rfl rfl) hack hhandle⟩
  | register username passwordHash =>
      have hsame : (s.db.registerUser username passwordHash).1.messages = s.db.messages ∧
          (s.db.registerUser username passwordHash).1.messageReceipts = s.db.messageReceipts := by
        unfold Db.registerUser
        split <;> exact ⟨rfl, rfl⟩
      exact ⟨sound_of_keeps (.of_eq hsame.1), h.setDb (.of_eq hsame.1 hsame.2)⟩
  | prune p =>
      have hsame : (p.advance s.db).1.messages = s.db.messages ∧
          (p.advance s.db).1.messageReceipts = s.db.messageReceipts := by
        have hprunes := p.advance_prunes s.db
        generalize (p.advance s.db).1 = db at hprunes ⊢
        cases hprunes <;> exact ⟨rfl, rfl⟩
      exact ⟨sound_of_keeps (.of_eq hsame.1), h.setDb (.of_eq hsame.1 hsame.2)⟩
  | tick seconds => exact ⟨sound_of_keeps (.of_eq rfl), h.setDb (.of_eq rfl rfl)⟩

end runs

/-! ## Receipts from a recipient and from the sender -/

instance (db db' : Db) : Decidable (StatusesSound db db') :=
  decidable_of_iff
    ((∀ m ∈ db.messages.rows, ∀ m' ∈ db'.messages.rows, m'.id = m.id →
      ∀ receipt ∈ [Receipt.delivered, .read],
        m'.status = receipt.status → m.status ≠ receipt.status →
        ∀ r ∈ db'.conversationMembers.rows, r.conversationId = m.conversationId →
          r.userId ≠ m.senderId → r.userId ∈ db'.receiptUsers m.id receipt) ∧
    ∀ m ∈ db.messages.rows, ∀ m' ∈ db'.messages.rows, m'.id = m.id →
      m.status.rank ≤ m'.status.rank)
    ⟨fun ⟨h, h'⟩ => ⟨fun m hm m' hm' hid receipt =>
        h m hm m' hm' hid receipt (by cases receipt <;> simp), h'⟩,
      fun h => ⟨fun m hm m' hm' hid receipt _ => h.justified m hm m' hm' hid receipt, h.forward⟩⟩

instance (qt : Qt) (s : ReceiptServer) (op : ReceiptOp) : Decidable (s.StepSound qt op) :=
  inferInstanceAs (Decidable (StatusesSound s.db (s.step qt op).db))

instance (db : Db) : ∀ phase : AckPhase, Decidable (phase.CountsRight db)
  | .countReaders .. | .countReceivers .. | .setStatus .. => by
      unfold AckPhase.CountsRight
      infer_instance
  | .getMessage _ | .isMember .. | .recordReceipt .. | .moveCursor _ | .tellReader _
  | .countMembers .. | .tellSender .. | .answered _ => isTrue trivial

instance (s : ReceiptServer) : ∀ op, Decidable (s.CountsRight op)
  | .statement c => by
      unfold ReceiptServer.CountsRight
      dsimp only
      split <;> infer_instance
  | .request .. | .register .. | .prune _ | .tick _ => isTrue trivial

/-- Alice and bob in a group, with a message of bob's. -/
def groupWithMessage : ReceiptServer where
  db :=
    { users := .ofRows [{ id := 1, username := "alice" }, { id := 2, username := "bob" }]
      conversations := .ofRows [{ id := 1, type := .groupType, updatedAt := 1 }]
      conversationMembers := .ofRows
        [ { id := 1, conversationId := 1, userId := 1, role := .owner }
        , { id := 2, conversationId := 1, userId := 2 } ]
      messages := .ofRows
        [{ id := 1, conversationId := 1, senderId := 2, content := "hello", contentType := "text"
           createdAt := 1 }] }

def fromAlice (deviceId : String) : Connection where
  authenticatedUserId := 1
  currentDeviceId := deviceId

/-- An acknowledgement of alice's. -/
def acknowledge (c : Nat) (deviceId : String) (messageId : Int) (status : String) : ReceiptOp :=
  .request c .ackMessage (fromAlice deviceId) 1
    (.obj [("messageId", .int messageId), ("status", .str status)])

/-- Alice's phone has received bob's message and her tablet shows it; the tablet is
answered last. -/
def tabletLast : List ReceiptOp :=
  [acknowledge 0 "phone" 1 "delivered", acknowledge 1 "tablet" 1 "read"]
    ++ List.replicate 4 (.statement 0) ++ List.replicate 5 (.statement 1)
    ++ List.replicate 6 (.statement 0) ++ List.replicate 6 (.statement 1)

/-- The same, but the phone has counted before the tablet and is answered last. -/
def phoneLast : List ReceiptOp :=
  [acknowledge 0 "phone" 1 "delivered", acknowledge 1 "tablet" 1 "read"]
    ++ List.replicate 6 (.statement 0) ++ List.replicate 11 (.statement 1)
    ++ List.replicate 3 (.statement 0)

/-- Alice sends a message to the group and acknowledges it herself. -/
def ownReceipt : List ReceiptOp :=
  .request 0 .sendMessage (fromAlice "phone") 1
      (.obj
        [ ("clientMessageId", .str "m"), ("conversationId", .int 1), ("content", .str "hello")
        , ("contentType", .str "text") ])
    :: List.replicate 20 (.statement 0)
    ++ acknowledge 0 "phone" 2 "read" :: List.replicate 11 (.statement 0)

end XYChat.Server
