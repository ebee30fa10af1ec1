import XYChat.Client.MessageCache
import XYChat.Common.Packet
import XYChat.Lib.Cursor

/-!
# The event cursor and the store

A page of events is written to the local store event by event, and then the cursor
moves past the page. The client looks at no result: where a write fails, the cursor
still moves, and the event is not fetched again. The run below keeps a history of
what was delivered and whether its write was made.
-/

namespace XYChat.Client

open Lib Cursor

/-! ## The store -/

/-- A local store with the preferences of its conversations, pinned and muted, and
the value of `sync_seq` in its table `meta`. -/
structure SyncStore extends LocalStore where
  prefs : IntMap (Bool × Bool) := .empty
  syncSeq : Int := 0

/-- What is decided about one event of a page from outside: whether its statement
works, and the second one where there are two, the random iv of its text, and what
`decryptMessageObject` and `decryptEditContent` make of its payload. -/
structure Turn where
  works : Bool
  worksToo : Bool := true
  iv : Nat := 0
  read : Json → Json := id
  readEdit : Json → Option String := fun _ => none

namespace SyncStore

/-- `LocalStore::syncCursor`. -/
def syncCursor (s : SyncStore) : Int := if s.opened then s.syncSeq else 0

/-- `LocalStore::setSyncCursor`. -/
def setSyncCursor (works : Bool) (seq : Int) (s : SyncStore) : SyncStore :=
  if !s.opened || seq < 0 then s else if works then { s with syncSeq := seq } else s

/-- A call of the store whose statement works or fails: whether it was made, and
the store. -/
def attempt (works : Bool) (r : Bool × LocalStore) (s : SyncStore) : Bool × SyncStore :=
  if works && r.1 then (true, { s with toLocalStore := r.2 }) else (false, s)

variable (qt : Qt) (sqlite : Sqlite) (cipher : TextCipher) (t : Turn)

/-- `upsertMessage`, which makes no statement where readable content is kept. -/
def storeMessage (msg : Json) (s : SyncStore) : Bool × SyncStore :=
  let keeps := readableContent qt msg = "" ∧
    s.loadMessageContent cipher (msg.value "messageId").toLongLong ≠ ""
  s.attempt (t.works || keeps) (s.upsertMessage qt sqlite cipher t.iv msg)

/-- `NetworkManager::applyReadCursor`. `markConversationRead` makes its two
statements one after the other; the second reads nothing that the first writes. -/
def applyReadCursor (userId conversationId readMessageId : Int) (s : SyncStore) :
    Bool × SyncStore :=
  if conversationId ≤ 0 ∨ readMessageId ≤ 0 then (true, s)
  else
    let read := (s.markConversationRead conversationId readMessageId userId).2
    (t.works && t.worksToo,
      { s with
        messages := if t.works then read.messages else s.messages
        unreadCounts := if t.worksToo then read.unreadCounts else s.unreadCounts })

/-- `NetworkManager::applyConversationPrefs`. -/
def applyConversationPrefs (conversationId : Int) (pinned muted : Bool) (s : SyncStore) :
    Bool × SyncStore :=
  if conversationId ≤ 0 then (true, s)
  else if t.works then
    (true, { s with
      prefs := s.prefs.update (fun id _ => id == conversationId) fun _ => (pinned, muted) })
  else (false, s)

end SyncStore

/-! ## Events -/

/-- An event of a page. -/
structure SyncEvent where
  seq : Int
  type : String
  payload : Json

instance : Keyed SyncEvent := ⟨SyncEvent.seq⟩

def SyncEvent.ofJson (value : Json) : SyncEvent where
  seq := (value.value "seq").toLongLong
  type := (value.value "type").toStr ""
  payload := (value.value "payload").toObject

section

variable (qt : Qt) (sqlite : Sqlite) (cipher : TextCipher) (userId : Int) (localDeviceId : String)
  (t : Turn)

/-- The test for a sender key distribution. -/
def isDistribution (payload : Json) : Bool :=
  (payload.value "contentType").toStr "" == "sender_key_distribution"
    || GroupE2eeCrypto.looksLikeDistribution qt ((payload.value "content").toStr "")

/-- The first loop of `handleSyncEventsResponse`: the messages are decrypted, and
distributions lose their content. -/
def SyncEvent.decrypted (event : SyncEvent) : SyncEvent :=
  if event.type = "message" then
    { event with
      payload :=
        if isDistribution qt event.payload then event.payload.setMember "content" (.str "")
        else t.read event.payload }
  else event

/-- The message of an event with the status it starts with. -/
def statedMessage (payload : Json) : Json :=
  payload.setMember "status"
    (.str (if (payload.value "senderId").toLongLong = userId then "sent" else "delivered"))

/-- An edit or a deletion that this device has asked for. -/
def isOwn (payload : Json) : Bool :=
  (payload.value "senderId").toLongLong == userId
    && (payload.value "originDeviceId").toStr "" != ""
    && (payload.value "originDeviceId").toStr "" == localDeviceId

/-- The types of events that write to the store. -/
def SyncEvent.hasEffect (event : SyncEvent) : Bool :=
  ["message", "receipt", "read_cursor", "conversation_prefs", "message_edited",
    "message_deleted"].contains event.type

/-- One turn of the loop of `ingestSyncEvents`: whether the writes of the event
were made, and the store. Other events write nothing. -/
def ingestEvent (event : SyncEvent) (s : SyncStore) : Bool × SyncStore :=
  let payload := event.payload
  let messageId := (payload.value "messageId").toLongLong
  let conversationId := (payload.value "conversationId").toLongLong
  let editedAt := (payload.value "editedAt").toStr ""
  if event.type = "message" then
    if isDistribution qt payload then (true, s)
    else s.storeMessage qt sqlite cipher t (statedMessage userId payload)
  else if event.type = "receipt" then
    s.attempt t.works (s.updateMessageStatus messageId ((payload.value "status").toStr ""))
  else if event.type = "read_cursor" then
    s.applyReadCursor t userId conversationId (payload.value "readMessageId").toLongLong
  else if event.type = "conversation_prefs" then
    s.applyConversationPrefs t conversationId (payload.value "pinned").toBool
      (payload.value "muted").toBool
  else if event.type = "message_edited" then
    if isOwn userId localDeviceId payload then (true, s)
    else match t.readEdit payload with
      | some plaintext =>
          s.attempt t.works (s.updateMessageContent cipher t.iv messageId plaintext editedAt)
      | none =>
          if s.loadMessageContent cipher messageId = "" then (true, s)
          else s.attempt t.works (s.markMessageEdited messageId editedAt)
  else if event.type = "message_deleted" then
    if isOwn userId localDeviceId payload then (true, s)
    else s.attempt t.works (s.markMessageDeleted messageId)
  else (true, s)

/-- The loop, with the first one of `handleSyncEventsResponse`. -/
def ingestEvents : (Nat → Turn) → List SyncEvent → SyncStore → List (Delivery SyncEvent) × SyncStore
  | _, [], s => ([], s)
  | turns, event :: rest, s =>
      let r := ingestEvent qt sqlite cipher userId localDeviceId (turns 0)
        (event.decrypted qt (turns 0)) s
      let rs := ingestEvents (fun n => turns (n + 1)) rest r.2
      (⟨event, r.1⟩ :: rs.1, rs.2)

/-! ## The run -/

/-- The store, the `afterSeq` of the request that is out, and the events that pages
have delivered. -/
structure CursorState where
  store : SyncStore
  asked : Option Int := none
  delivered : List (Delivery SyncEvent) := []

/-- `NetworkManager::ingestSyncEvents`; a closed store takes nothing. -/
def ingestSyncEvents (turns : Nat → Turn) (cursorWorks authenticated : Bool)
    (events : List SyncEvent) (lastSeq : Int) (hasMore : Bool) (s : CursorState) : CursorState :=
  if !s.store.opened then
    { s with delivered := s.delivered ++ events.map fun event => ⟨event, !event.hasEffect⟩ }
  else
    let r := ingestEvents qt sqlite cipher userId localDeviceId turns events s.store
    { store :=
        if r.2.syncCursor < lastSeq then r.2.setSyncCursor cursorWorks lastSeq else r.2
      asked := if hasMore && authenticated then some lastSeq else s.asked
      delivered := s.delivered ++ r.1 }

/-- `NetworkManager::handleSyncEventsResponse`, to the request that is out. -/
def handleSyncEventsResponse (turns : Nat → Turn) (cursorWorks authenticated : Bool)
    (response : Json) (s : CursorState) : CursorState :=
  if s.asked = none then s
  else
    let s := { s with asked := none }
    if (response.value "code").toInt 0 ≠ ErrorCode.ok.code then s
    else
      let data := response.value "data"
      if (data.value "needsFullSync").toBool then
        let fullSyncSeq := (data.value "fullSyncSeq").toLongLong
        if s.store.opened ∧ s.store.syncCursor < fullSyncSeq then
          { s with store := s.store.setSyncCursor cursorWorks fullSyncSeq }
        else s
      else
        ingestSyncEvents qt sqlite cipher userId localDeviceId turns cursorWorks authenticated
          ((data.value "events").toArray.map .ofJson) (data.value "lastSeq").toLongLong
          (data.value "hasMore").toBool s

/-- `openLocalStore` asks for the events after the stored cursor; a response comes,
with what is decided about each of its events and about the write of the cursor. -/
inductive CursorOp where
  | syncEvents
  | response (turns : Nat → Turn) (cursorWorks authenticated : Bool) (response : Json)

def cursorMachine : Machine CursorState CursorOp where
  init s := s.delivered = []
  step s
    | .syncEvents => { s with asked := some s.store.syncCursor }
    | .response turns cursorWorks authenticated response =>
        handleSyncEventsResponse qt sqlite cipher userId localDeviceId turns cursorWorks
          authenticated response s

/-! ## What the client has to be spared -/

/-- The write of the event, where it makes one, is accepted and works: its ids are
there, its text can be encrypted and its statements do not fail. -/
def Turn.Takes (event : SyncEvent) : Prop :=
  let payload := (event.decrypted qt t).payload
  let messageId := (payload.value "messageId").toLongLong
  let conversationId := (payload.value "conversationId").toLongLong
  if event.type = "message" then
    isDistribution qt payload = false → t.works = true ∧ 0 < messageId ∧ 0 < conversationId ∧
      let content := readableContent qt (statedMessage userId payload)
      (content ≠ "" → cipher.encryptText t.iv content ≠ "")
  else if event.type = "receipt" then
    t.works = true ∧ 0 < messageId ∧ (payload.value "status").toStr "" ≠ ""
  else if event.type = "read_cursor" then t.works = true ∧ t.worksToo = true
  else if event.type = "conversation_prefs" then t.works = true
  else if event.type = "message_edited" then
    isOwn userId localDeviceId payload = false → t.works = true ∧
      ∀ plaintext ∈ t.readEdit payload, 0 < messageId ∧
        (plaintext ≠ "" → cipher.encryptText t.iv plaintext ≠ "")
  else if event.type = "message_deleted" then
    isOwn userId localDeviceId payload = false → t.works = true ∧ 0 < messageId
  else True

/-- A step is spared. Every event at or below the stored cursor it leaves, of its
own page or delivered beyond the cursor before, has had its write, or has it in this
page. -/
def Spared (s : CursorState) : CursorOp → Prop
  | .syncEvents => True
  | .response turns cursorWorks _ response =>
      let data := response.value "data"
      let full := (data.value "needsFullSync").toBool
      let events := if full then [] else (data.value "events").toArray.map SyncEvent.ofJson
      let next := (data.value (if full then "fullSyncSeq" else "lastSeq")).toLongLong
      let moves := s.store.opened = true ∧ cursorWorks = true ∧ s.store.syncSeq < next ∧ 0 ≤ next
      s.asked ≠ none → (response.value "code").toInt 0 = ErrorCode.ok.code →
        ∀ event, event ∈ events ∨ (∃ d ∈ s.delivered, d.row = event ∧ s.store.syncSeq < event.seq) →
          event.seq ≤ (if moves then next else s.store.syncSeq) →
            Settled s.delivered event ∨ event.hasEffect = false ∧ event ∈ events ∨
              s.store.opened = true ∧ ∃ n, events[n]? = some event ∧
                (turns n).Takes qt cipher userId localDeviceId event

end

/-- **Nothing is skipped**: what the stored cursor has passed is in the store. -/
def CursorSound (s : CursorState) : Prop := Sound s.store.syncSeq s.delivered

/-! ## One event -/

section

variable {qt : Qt} {sqlite : Sqlite} {cipher : TextCipher} {userId : Int} {localDeviceId : String}
  {t : Turn} {s : SyncStore}

theorem attempt_done {works : Bool} {r : Bool × LocalStore} (hworks : works = true)
    (hr : r.1 = true) : (s.attempt works r).1 = true := by
  unfold SyncStore.attempt
  rw [hworks, hr]
  rfl

/-- A call of the store leaves it as open as it was. -/
theorem attempt_opened {works : Bool} {r : Bool × LocalStore} (hr : r.2.opened = s.opened) :
    (s.attempt works r).2.opened = s.opened := by
  unfold SyncStore.attempt
  split
  · exact hr
  · rfl

theorem updateMessageContent_opened {store : LocalStore} {r : Nat} {messageId : Int}
    {plaintext editedAt : String} :
    (store.updateMessageContent cipher r messageId plaintext editedAt).2.opened = store.opened := by
  unfold LocalStore.updateMessageContent
  dsimp only
  split_ifs <;> rfl

theorem ingestEvent_opened (event : SyncEvent) :
    (ingestEvent qt sqlite cipher userId localDeviceId t event s).2.opened = s.opened := by
  unfold ingestEvent
  dsimp only
  split_ifs
  · rfl
  · exact attempt_opened (upsertMessage_opened _ _ _)
  · refine attempt_opened ?_
    unfold LocalStore.updateMessageStatus
    split_ifs <;> rfl
  · unfold SyncStore.applyReadCursor
    split_ifs <;> rfl
  · unfold SyncStore.applyConversationPrefs
    split_ifs <;> rfl
  · rfl
  · split
    · exact attempt_opened updateMessageContent_opened
    · rfl
  · split
    · exact attempt_opened updateMessageContent_opened
    · refine attempt_opened ?_
      unfold LocalStore.markMessageEdited
      split_ifs <;> rfl
  · rfl
  · refine attempt_opened ?_
    unfold LocalStore.markMessageDeleted
    split_ifs <;> rfl
  · rfl

/-- A message the store can take is taken. -/
private theorem upsertMessage_taken {store : LocalStore} {r : Nat} {msg : Json}
    (hopen : store.opened = true) (hid : 0 < (msg.value "messageId").toLongLong)
    (hconversation : 0 < (msg.value "conversationId").toLongLong)
    (henc : readableContent qt msg ≠ "" → cipher.encryptText r (readableContent qt msg) ≠ "") :
    (store.upsertMessage qt sqlite cipher r msg).1 = true := by
  unfold LocalStore.upsertMessage
  dsimp only
  rw [if_neg (by simp [hopen]), if_neg (by omega)]
  split
  · rfl
  · rw [if_neg fun h => henc h.1 h.2]

/-- A message with an id and readable content is in an open store. -/
private theorem opened_of_content {store : LocalStore} {messageId : Int}
    (h : store.loadMessageContent cipher messageId ≠ "") : store.opened = true ∧ 0 < messageId := by
  unfold LocalStore.loadMessageContent at h
  split at h
  · exact absurd rfl h
  · rename_i hopen
    simp only [Bool.or_eq_true, not_or, Bool.not_eq_true', Bool.not_eq_false,
      decide_eq_true_eq] at hopen
    exact ⟨hopen.1, by omega⟩

/-- **An event whose write is accepted and works** is written. -/
theorem ingestEvent_done {event : SyncEvent} (hopen : s.opened = true)
    (h : t.Takes qt cipher userId localDeviceId event) :
    (ingestEvent qt sqlite cipher userId localDeviceId t (event.decrypted qt t) s).1 = true := by
  have htype : (event.decrypted qt t).type = event.type := by
    unfold SyncEvent.decrypted
    split <;> rfl
  unfold Turn.Takes at h
  unfold ingestEvent
  dsimp only at h ⊢
  rw [htype]
  generalize (event.decrypted qt t).payload = payload at h ⊢
  by_cases hmessage : event.type = "message"
  · rw [if_pos hmessage] at h ⊢
    by_cases hdist : isDistribution qt payload = true
    · rw [if_pos hdist]
    · obtain ⟨hworks, hid, hconversation, henc⟩ := h (Bool.not_eq_true _ ▸ hdist)
      rw [if_neg hdist]
      refine attempt_done (by simp [hworks]) (upsertMessage_taken hopen ?_ ?_ henc)
      · unfold statedMessage
        rwa [Json.value_setMember_of_ne (by decide)]
      · unfold statedMessage
        rwa [Json.value_setMember_of_ne (by decide)]
  rw [if_neg hmessage] at h ⊢
  by_cases hreceipt : event.type = "receipt"
  · rw [if_pos hreceipt] at h ⊢
    obtain ⟨hworks, hid, hstatus⟩ := h
    refine attempt_done hworks ?_
    unfold LocalStore.updateMessageStatus
    rw [if_neg (by simp [hopen, hstatus]; omega)]
  rw [if_neg hreceipt] at h ⊢
  by_cases hread : event.type = "read_cursor"
  · rw [if_pos hread] at h ⊢
    unfold SyncStore.applyReadCursor
    rw [h.1, h.2]
    split <;> rfl
  rw [if_neg hread] at h ⊢
  by_cases hprefs : event.type = "conversation_prefs"
  · rw [if_pos hprefs] at h ⊢
    unfold SyncStore.applyConversationPrefs
    rw [h]
    split <;> rfl
  rw [if_neg hprefs] at h ⊢
  by_cases hedited : event.type = "message_edited"
  · rw [if_pos hedited] at h ⊢
    by_cases hown : isOwn userId localDeviceId payload = true
    · rw [if_pos hown]
    · obtain ⟨hworks, hedit⟩ := h (Bool.not_eq_true _ ▸ hown)
      rw [if_neg hown]
      split
      · rename_i plaintext hplaintext
        obtain ⟨hid, henc⟩ := hedit plaintext hplaintext
        refine attempt_done hworks ?_
        unfold LocalStore.updateMessageContent
        dsimp only
        rw [if_neg (by simp [hopen]; omega), if_neg fun h => henc h.2 h.1]
      · split
        · rfl
        · rename_i hcontent
          obtain ⟨-, hid⟩ := opened_of_content hcontent
          refine attempt_done hworks ?_
          unfold LocalStore.markMessageEdited
          rw [if_neg (by simp [hopen]; omega)]
  rw [if_neg hedited] at h ⊢
  by_cases hdeleted : event.type = "message_deleted"
  · rw [if_pos hdeleted] at h ⊢
    by_cases hown : isOwn userId localDeviceId payload = true
    · rw [if_pos hown]
    · obtain ⟨hworks, hid⟩ := h (Bool.not_eq_true _ ▸ hown)
      rw [if_neg hown]
      refine attempt_done hworks ?_
      unfold LocalStore.markMessageDeleted
      rw [if_neg (by simp [hopen]; omega)]
  rw [if_neg hdeleted]

/-! ## A page -/

theorem ingestEvents_opened (turns : Nat → Turn) (events : List SyncEvent) :
    (ingestEvents qt sqlite cipher userId localDeviceId turns events s).2.opened = s.opened := by
  induction events generalizing turns s with
  | nil => rfl
  | cons event rest ih => exact (ih _).trans (ingestEvent_opened _)

/-- What the page delivers are its events. -/
theorem ingestEvents_rows (turns : Nat → Turn) (events : List SyncEvent) :
    (ingestEvents qt sqlite cipher userId localDeviceId turns events s).1.map (·.row) = events := by
  induction events generalizing turns s with
  | nil => rfl
  | cons event rest ih => exact congrArg (event :: ·) (ih _)

/-- An event of the page whose write works is settled by it. -/
theorem ingestEvents_settled {turns : Nat → Turn} {events : List SyncEvent} {event : SyncEvent}
    {n : Nat} (hopen : s.opened = true) (hevent : events[n]? = some event)
    (h : (turns n).Takes qt cipher userId localDeviceId event) :
    Settled (ingestEvents qt sqlite cipher userId localDeviceId turns events s).1 event := by
  induction events generalizing turns s n with
  | nil => cases hevent
  | cons first rest ih =>
      cases n with
      | zero =>
          obtain rfl : first = event := Option.some.inj hevent
          exact ⟨_, List.mem_cons_self, rfl, ingestEvent_done hopen h⟩
      | succ n =>
          obtain ⟨d, hd, hrow⟩ := @ih (ingestEvent qt sqlite cipher userId localDeviceId (turns 0)
              (first.decrypted qt (turns 0)) s).2
            (fun n => turns (n + 1)) n ((ingestEvent_opened _).trans hopen) hevent h
          exact ⟨d, List.mem_cons_of_mem _ hd, hrow⟩

/-- An event of another type is settled by being delivered. -/
theorem ingestEvents_settled_other {turns : Nat → Turn} {events : List SyncEvent}
    {event : SyncEvent} (hevent : event ∈ events) (h : event.hasEffect = false) :
    Settled (ingestEvents qt sqlite cipher userId localDeviceId turns events s).1 event := by
  have hdone : ∀ (t : Turn) (s : SyncStore),
      (ingestEvent qt sqlite cipher userId localDeviceId t (event.decrypted qt t) s).1 = true := by
    intro t s
    unfold SyncEvent.hasEffect at h
    simp only [List.contains_eq_mem, List.mem_cons, List.not_mem_nil, or_false,
      decide_eq_false_iff_not, not_or] at h
    obtain ⟨hmessage, hreceipt, hread, hprefs, hedited, hdeleted⟩ := h
    unfold SyncEvent.decrypted ingestEvent
    rw [if_neg hmessage]
    dsimp only
    rw [if_neg hmessage, if_neg hreceipt, if_neg hread, if_neg hprefs, if_neg hedited,
      if_neg hdeleted]
  induction events generalizing turns s with
  | nil => cases hevent
  | cons first rest ih =>
      rcases List.mem_cons.mp hevent with rfl | hevent
      · exact ⟨_, List.mem_cons_self, rfl, hdone _ _⟩
      · obtain ⟨d, hd, hrow⟩ := @ih (ingestEvent qt sqlite cipher userId localDeviceId (turns 0)
            (first.decrypted qt (turns 0)) s).2 (fun n => turns (n + 1)) hevent
        exact ⟨d, List.mem_cons_of_mem _ hd, hrow⟩

/-- An event changes no cursor. -/
theorem ingestEvent_syncSeq (event : SyncEvent) :
    (ingestEvent qt sqlite cipher userId localDeviceId t event s).2.syncSeq = s.syncSeq := by
  have hattempt : ∀ works r, (s.attempt works r).2.syncSeq = s.syncSeq := by
    intro works r
    unfold SyncStore.attempt
    split <;> rfl
  unfold ingestEvent SyncStore.applyReadCursor SyncStore.applyConversationPrefs
    SyncStore.storeMessage
  dsimp only
  split_ifs <;> try first | rfl | exact hattempt _ _
  all_goals
    split
    · exact hattempt _ _
    · first | rfl | exact hattempt _ _

theorem ingestEvents_syncSeq (turns : Nat → Turn) (events : List SyncEvent) :
    (ingestEvents qt sqlite cipher userId localDeviceId turns events s).2.syncSeq = s.syncSeq := by
  induction events generalizing turns s with
  | nil => rfl
  | cons event rest ih => exact (ih _).trans (ingestEvent_syncSeq _)

/-! ## Runs -/

/-- The cursor that a page or a full resync leaves. -/
theorem setSyncCursor_syncSeq {works : Bool} {seq : Int} (hopen : s.opened = true) :
    (if s.syncCursor < seq then s.setSyncCursor works seq else s).syncSeq =
      if s.opened = true ∧ works = true ∧ s.syncSeq < seq ∧ 0 ≤ seq then seq else s.syncSeq := by
  unfold SyncStore.syncCursor SyncStore.setSyncCursor
  rw [if_pos hopen]
  by_cases hlt : s.syncSeq < seq
  · by_cases hneg : seq < 0
    · rw [if_pos hlt, if_pos (by simp [hneg]), if_neg (by omega)]
    · rw [if_pos hlt, if_neg (by simp [hopen]; omega)]
      cases works with
      | true =>
          have hmoves : s.opened = true ∧ true = true ∧ s.syncSeq < seq ∧ 0 ≤ seq :=
            ⟨hopen, rfl, hlt, by omega⟩
          rw [if_pos hmoves]
          rfl
      | false => rw [if_neg (by decide), if_neg fun h => by cases h.2.1]
  · rw [if_neg hlt, if_neg fun h => hlt h.2.2.1]

/-- A page is sound where each event the cursor then has passed was settled before or
is settled by it. -/
private theorem sound_page {c c' : Int} {log batch : List (Delivery SyncEvent)}
    {events : List SyncEvent} (hs : Sound c log) (hrows : batch.map (·.row) = events)
    (h : ∀ event, event ∈ events ∨ (∃ d ∈ log, d.row = event ∧ c < event.seq) →
      event.seq ≤ c' → Settled log event ∨ Settled batch event) : Sound c' (log ++ batch) := by
  refine (sound_append_iff hs).mpr ⟨fun d hd hle => ?_, fun d hd hlt hle => ?_⟩
  · exact h d.row (.inl (hrows ▸ List.mem_map_of_mem hd)) hle
  · exact h d.row (.inr ⟨d, hd, rfl, hlt⟩) hle

/-- **Step lemma.** A spared step keeps the cursor behind the store. -/
theorem cursorStep_sound {s : CursorState} {op : CursorOp} (hs : CursorSound s)
    (h : Spared qt cipher userId localDeviceId s op) :
    CursorSound ((cursorMachine qt sqlite cipher userId localDeviceId).step s op) := by
  cases op with
  | syncEvents => exact hs
  | response turns cursorWorks authenticated response =>
      show CursorSound (handleSyncEventsResponse _ _ _ _ _ _ _ _ _ _)
      unfold handleSyncEventsResponse
      by_cases hasked : s.asked = none
      · rw [if_pos hasked]
        exact hs
      rw [if_neg hasked]
      by_cases hcode : (response.value "code").toInt 0 = ErrorCode.ok.code
      swap
      · rw [if_pos hcode]
        exact hs
      rw [if_neg (not_not.mpr hcode)]
      have hspared := h hasked hcode
      generalize response.value "data" = data at hspared ⊢
      cases hfull : (data.value "needsFullSync").toBool with
      | true =>
          -- a full resync moves the cursor and delivers nothing
          simp only [hfull, if_true] at hspared ⊢
          have hsettled := @sound_page _ (if s.store.opened = true ∧ cursorWorks = true ∧
              s.store.syncSeq < (data.value "fullSyncSeq").toLongLong ∧
              0 ≤ (data.value "fullSyncSeq").toLongLong then
            (data.value "fullSyncSeq").toLongLong else s.store.syncSeq) _ [] [] hs rfl
            fun event hevent hle => by
              rcases hspared event hevent hle with hsettled | ⟨-, hmem⟩ | ⟨-, n, hn, -⟩
              · exact .inl hsettled
              · cases hmem
              · cases hn
          rw [List.append_nil] at hsettled
          by_cases hopen : s.store.opened = true
          · rw [← setSyncCursor_syncSeq hopen] at hsettled
            split
            · rename_i hmoves
              rwa [if_pos hmoves.2] at hsettled
            · rename_i hstays
              rwa [if_neg fun hlt => hstays ⟨hopen, hlt⟩] at hsettled
          · rw [if_neg fun hmoves => hopen hmoves.1]
            exact hs
      | false =>
          simp only [hfull, Bool.false_eq_true, if_false] at hspared ⊢
          unfold ingestSyncEvents
          dsimp only
          generalize (data.value "events").toArray.map SyncEvent.ofJson = events at hspared ⊢
          by_cases hopen : s.store.opened = true
          · rw [if_neg (by simp [hopen])]
            have hopened := @ingestEvents_opened qt sqlite cipher userId localDeviceId s.store turns
              events
            have hcursor := @setSyncCursor_syncSeq (ingestEvents qt sqlite cipher userId
              localDeviceId turns events s.store).2 cursorWorks (data.value "lastSeq").toLongLong
              (hopened.trans hopen)
            rw [ingestEvents_syncSeq, hopened] at hcursor
            unfold CursorSound
            dsimp only
            rw [hcursor]
            refine sound_page hs (ingestEvents_rows _ _) fun event hevent hle => ?_
            rcases hspared event hevent hle with hsettled | ⟨heffect, hmem⟩ | ⟨-, n, hn, htakes⟩
            · exact .inl hsettled
            · exact .inr (ingestEvents_settled_other hmem heffect)
            · exact .inr (ingestEvents_settled hopen hn htakes)
          · rw [if_pos (by simpa using hopen)]
            unfold CursorSound
            dsimp only
            rw [if_neg fun hmoves => hopen hmoves.1] at hspared
            have hrows : (events.map fun event =>
                (⟨event, !event.hasEffect⟩ : Delivery SyncEvent)).map (·.row) = events :=
              (List.map_map ..).trans (List.map_id _)
            refine sound_page hs hrows fun event hevent hle => ?_
            rcases hspared event hevent hle with hsettled | ⟨heffect, hmem⟩ | ⟨hopened, -⟩
            · exact .inl hsettled
            · exact .inr ⟨_, List.mem_map_of_mem hmem, rfl, by rw [heffect]; rfl⟩
            · exact absurd hopened hopen

end

/-! ## One message -/

/-- A store that was just opened, on a device of user 1. -/
def freshCursor : CursorState where
  store := { opened := true, messages := .empty }

/-- The event of a message of bob's. -/
def bobsEvent : SyncEvent where
  seq := 7
  type := "message"
  payload := .obj
    [ ("messageId", .int 5), ("conversationId", .int 20), ("senderId", .int 2)
    , ("content", .str "hi"), ("contentType", .str "text") ]

/-- A page with this one event. -/
def bobsPage : Json := .obj
  [ ("code", .int 0)
  , ("data", .obj
      [ ("events", .arr [.obj
          [ ("seq", .int bobsEvent.seq), ("type", .str bobsEvent.type)
          , ("payload", bobsEvent.payload) ]])
      , ("lastSeq", .int 7), ("hasMore", .bool false), ("needsFullSync", .bool false) ]) ]

/-- The page comes, and its message and the cursor are written or not. -/
def bobsResponse (works cursorWorks : Bool) : CursorOp :=
  .response (fun _ => { works }) cursorWorks true bobsPage

theorem bobsEvent_taken :
    Turn.Takes noJson plainCipher 1 "a" { works := true } bobsEvent := by
  show _ → _
  exact fun _ => ⟨rfl, by decide, by decide, fun _ => by decide⟩

end XYChat.Client
