import XYChat.Client.LocalStore

/-!
# Read cursors in any order

`markConversationRead` is called for every cursor that arrives, from any device and also
from replayed events. The statuses only know how far the largest cursor went. The unread
count is computed anew from the cursor of each call, so it is that of the last one.
-/

namespace XYChat.Client

open Lib

/-! ## What one call writes -/

/-- The messages with the peer's up to `cursor` read. -/
def readUpTo (conversationId selfUserId cursor : Int) (messages : IntMap CachedMessage) :
    IntMap CachedMessage :=
  messages.update
    (fun id row => row.conversationId == conversationId && id ≤ cursor
      && row.senderId != selfUserId && row.statusRank < 3)
    fun row => { row with status := "read", statusRank := 3 }

/-- How many of the peer's messages follow `cursor`. -/
def unreadAfter (conversationId selfUserId cursor : Int) (messages : IntMap CachedMessage) : Nat :=
  messages.entries.countP fun e =>
    e.2.conversationId == conversationId && e.2.senderId != selfUserId && cursor < e.1

/-- The stored unread count of a conversation is `n`. -/
def setUnread (conversationId n : Int) (counts : IntMap Int) : IntMap Int :=
  counts.update (fun id _ => id == conversationId) fun _ => n

section

variable {conversationId selfUserId cursor cursor' : Int} {messages : IntMap CachedMessage}
  {counts : IntMap Int} {store : LocalStore}

/-- Two cursors read what the larger one does. -/
theorem readUpTo_readUpTo :
    readUpTo conversationId selfUserId cursor' (readUpTo conversationId selfUserId cursor messages) =
      readUpTo conversationId selfUserId (max cursor cursor') messages := by
  unfold readUpTo IntMap.update
  simp only [IntMap.mk.injEq, List.map_map]
  refine List.map_congr_left fun e _ => Prod.ext rfl ?_
  simp only [Function.comp, le_max_iff]
  by_cases hpeer : e.2.conversationId = conversationId ∧ e.2.senderId ≠ selfUserId ∧
      e.2.statusRank < 3
  · obtain ⟨hconv, hsender, hrank⟩ := hpeer
    by_cases hfirst : e.1 ≤ cursor
    · simp [hconv, hsender, hrank, hfirst]
    · by_cases hsecond : e.1 ≤ cursor'
      · simp [hconv, hsender, hrank, hfirst, hsecond]
      · simp [hfirst, hsecond]
  · -- a message of another conversation, of the user, or already read
    have hno : ∀ p : Bool, (e.2.conversationId == conversationId && p
        && e.2.senderId != selfUserId && decide (e.2.statusRank < 3)) = false := by
      intro p
      cases p with
      | false => simp
      | true => simpa using hpeer
    simp [hno]

/-- Reading changes no sender and no conversation, so the count is as before. -/
theorem unreadAfter_readUpTo :
    unreadAfter conversationId selfUserId cursor'
        (readUpTo conversationId selfUserId cursor messages) =
      unreadAfter conversationId selfUserId cursor' messages := by
  unfold unreadAfter readUpTo IntMap.update
  rw [List.countP_map]
  refine List.countP_congr fun e _ => ?_
  simp only [Function.comp]
  split <;> rfl

theorem setUnread_setUnread {n n' : Int} :
    setUnread conversationId n' (setUnread conversationId n counts) =
      setUnread conversationId n' counts := by
  unfold setUnread IntMap.update
  simp only [IntMap.mk.injEq, List.map_map]
  refine List.map_congr_left fun e _ => Prod.ext rfl ?_
  simp only [Function.comp]
  split <;> rfl

theorem find_setUnread {n : Int} :
    (setUnread conversationId n counts).find conversationId =
      (counts.find conversationId).map fun _ => n := by
  unfold setUnread
  rw [IntMap.find_update]
  simp

/-- A call writes both, on an open store. -/
theorem markConversationRead_eq (hopen : store.opened = true) (hconv : 0 < conversationId)
    (hcursor : 0 < cursor) :
    (store.markConversationRead conversationId cursor selfUserId).2 =
      { store with
        messages := readUpTo conversationId selfUserId cursor store.messages
        unreadCounts := setUnread conversationId
          (unreadAfter conversationId selfUserId cursor store.messages) store.unreadCounts } := by
  rw [← @unreadAfter_readUpTo conversationId selfUserId cursor cursor store.messages]
  unfold LocalStore.markConversationRead
  rw [if_neg (by simp [hopen, hconv, hcursor])]
  rfl

end

/-! ## A sequence of cursors -/

/-- The store after `markConversationRead` with each of the cursors, the first one
first. -/
def LocalStore.advance (conversationId selfUserId : Int) (store : LocalStore)
    (cursors : List Int) : LocalStore :=
  cursors.foldl (fun store cursor => (store.markConversationRead conversationId cursor selfUserId).2)
    store

/-- The largest of the cursors that end in `last`. -/
def largestCursor (before : List Int) (last : Int) : Int := before.foldl max last

/-- The statuses and the unread count are those of one call with the largest cursor, and
the count is that of the peer's messages with a greater id. -/
def AsOneCall (conversationId selfUserId : Int) (store : LocalStore) (before : List Int)
    (last : Int) : Prop :=
  let after := store.advance conversationId selfUserId (before ++ [last])
  let once := (store.markConversationRead conversationId (largestCursor before last) selfUserId).2
  after.messages = once.messages ∧ after.unreadCounts = once.unreadCounts ∧
    (store.opened = true → 0 < conversationId →
      ∀ n, after.unreadCounts.find conversationId = some n →
        n = unreadAfter conversationId selfUserId (largestCursor before last) after.messages)

/-- Where the conversation is stored, no message of the peer lies above the last cursor
and up to the largest. -/
def NoneBetween (conversationId selfUserId : Int) (store : LocalStore) (before : List Int)
    (last : Int) : Prop :=
  store.opened = true → 0 < conversationId → store.unreadCounts.find conversationId ≠ none →
    ∀ e ∈ store.messages.entries, e.2.conversationId = conversationId →
      e.2.senderId ≠ selfUserId → last < e.1 → largestCursor before last < e.1

section

variable {conversationId selfUserId last : Int} {before : List Int} {store : LocalStore}

theorem largestCursor_cons (cursor : Int) :
    largestCursor (cursor :: before) last = max cursor (largestCursor before last) := by
  unfold largestCursor
  rw [List.foldl_cons, max_comm last cursor]
  exact List.foldl_assoc

theorem last_le_largestCursor : last ≤ largestCursor before last := by
  induction before with
  | nil => exact le_refl last
  | cons cursor before ih =>
      rw [largestCursor_cons]
      exact ih.trans (le_max_right _ _)

/-- **The run.** The statuses are those of the largest cursor, the count is that of the
last. -/
theorem advance_eq (hopen : store.opened = true) (hconv : 0 < conversationId)
    (hpos : ∀ cursor ∈ before ++ [last], 0 < cursor) :
    store.advance conversationId selfUserId (before ++ [last]) =
      { store with
        messages := readUpTo conversationId selfUserId (largestCursor before last) store.messages
        unreadCounts := setUnread conversationId
          (unreadAfter conversationId selfUserId last store.messages) store.unreadCounts } := by
  induction before generalizing store with
  | nil => exact markConversationRead_eq hopen hconv (hpos last (by simp))
  | cons cursor before ih =>
      have hfirst := @markConversationRead_eq conversationId selfUserId cursor store hopen hconv
        (hpos cursor (by simp))
      have hpos' : ∀ c ∈ before ++ [last], 0 < c := fun c hc => hpos c (List.mem_cons_of_mem _ hc)
      show LocalStore.advance conversationId selfUserId
        (store.markConversationRead conversationId cursor selfUserId).2 (before ++ [last]) = _
      rw [hfirst]
      refine (ih ?_ hpos').trans ?_
      · exact hopen
      dsimp only
      rw [readUpTo_readUpTo, unreadAfter_readUpTo, setUnread_setUnread, largestCursor_cons]

/-- A store that is closed, or no conversation: nothing is written. -/
theorem advance_refused (h : ¬(store.opened = true ∧ 0 < conversationId)) (cursors : List Int) :
    store.advance conversationId selfUserId cursors = store := by
  have hnone : ∀ cursor,
      (store.markConversationRead conversationId cursor selfUserId).2 = store := by
    intro cursor
    unfold LocalStore.markConversationRead
    rw [if_pos]
    rw [not_and_or, Bool.not_eq_true, not_lt] at h
    simp only [Bool.or_eq_true, Bool.not_eq_true', decide_eq_true_eq]
    exact .inl h
  induction cursors with
  | nil => rfl
  | cons cursor cursors ih =>
      show LocalStore.advance conversationId selfUserId
        (store.markConversationRead conversationId cursor selfUserId).2 cursors = store
      rw [hnone, ih]

end

/-- Of two counts one of which counts less, they are equal when it misses nothing. -/
private theorem countP_eq_iff {α : Type} {p q : α → Bool} {l : List α}
    (h : ∀ a ∈ l, q a = true → p a = true) :
    l.countP p = l.countP q ↔ ∀ a ∈ l, p a = true → q a = true := by
  have hcounted : (l.filter p).countP q = l.countP q := by
    rw [List.countP_filter]
    refine List.countP_congr fun a ha => ?_
    simpa using h a ha
  rw [← hcounted, List.countP_eq_length_filter, eq_comm, List.countP_eq_length]
  simp only [List.mem_filter, and_imp]

/-- The counts from two cursors agree when no message of the peer lies between. -/
theorem unreadAfter_eq_iff {conversationId selfUserId lower upper : Int}
    {messages : IntMap CachedMessage} (hle : lower ≤ upper) :
    unreadAfter conversationId selfUserId lower messages =
        unreadAfter conversationId selfUserId upper messages ↔
      ∀ e ∈ messages.entries, e.2.conversationId = conversationId → e.2.senderId ≠ selfUserId →
        lower < e.1 → upper < e.1 := by
  unfold unreadAfter
  rw [countP_eq_iff]
  · refine forall₂_congr fun e _ => ?_
    simp only [Bool.and_eq_true, beq_iff_eq, bne_iff_ne, decide_eq_true_eq]
    tauto
  · intro e _ habove
    simp only [Bool.and_eq_true, beq_iff_eq, bne_iff_ne, decide_eq_true_eq] at habove ⊢
    exact ⟨habove.1, hle.trans_lt habove.2⟩

/-- Stored counts are the same when they are of no conversation, or equal. -/
theorem setUnread_eq_iff {conversationId n n' : Int} {counts : IntMap Int} :
    setUnread conversationId n counts = setUnread conversationId n' counts ↔
      (counts.find conversationId ≠ none → n = n') := by
  constructor
  · intro heq hstored
    have hfind := congrArg (fun counts : IntMap Int => counts.find conversationId) heq
    simp only [find_setUnread] at hfind
    obtain ⟨old, hold⟩ := Option.ne_none_iff_exists'.mp hstored
    simpa [hold] using hfind
  · intro h
    by_cases hstored : counts.find conversationId = none
    · unfold setUnread IntMap.update
      simp only [IntMap.mk.injEq]
      refine List.map_congr_left fun e he => ?_
      have hne : e.1 ≠ conversationId := by
        intro heq
        exact IntMap.find_eq_none.mp hstored (heq ▸ List.mem_map_of_mem he)
      simp [hne]
    · rw [h hstored]

/-- **Read cursors in any order.** However many arrive and in whichever order, the
statuses and the count are those of the largest exactly when no message of the peer lies
between the last one and the largest. -/
theorem advance_asOneCall_iff (conversationId selfUserId : Int) (store : LocalStore)
    (before : List Int) (last : Int) (hpos : ∀ cursor ∈ before ++ [last], 0 < cursor) :
    AsOneCall conversationId selfUserId store before last ↔
      NoneBetween conversationId selfUserId store before last := by
  unfold AsOneCall NoneBetween
  dsimp only
  by_cases h : store.opened = true ∧ 0 < conversationId
  · obtain ⟨hopen, hconv⟩ := h
    have hlargest : 0 < largestCursor before last :=
      (hpos last (by simp)).trans_le last_le_largestCursor
    rw [advance_eq hopen hconv hpos, markConversationRead_eq hopen hconv hlargest]
    dsimp only
    simp only [hopen, hconv, forall_true_left, true_and]
    rw [setUnread_eq_iff, unreadAfter_readUpTo, ← unreadAfter_eq_iff last_le_largestCursor,
      Nat.cast_inj]
    refine ⟨fun hcounts => hcounts.1, fun hcounts => ⟨hcounts, fun n hn => ?_⟩⟩
    rw [find_setUnread] at hn
    obtain ⟨old, hold, rfl⟩ := Option.map_eq_some_iff.mp hn
    rw [hcounts (by simp [hold])]
  · have hrefused : ∀ cursors, store.advance conversationId selfUserId cursors = store :=
      advance_refused h
    have honce := hrefused [largestCursor before last]
    rw [hrefused]
    unfold LocalStore.advance at honce
    rw [List.foldl_cons, List.foldl_nil] at honce
    rw [honce]
    exact ⟨fun _ hopen hconv => absurd ⟨hopen, hconv⟩ h,
      fun _ => ⟨rfl, rfl, fun hopen hconv => absurd ⟨hopen, hconv⟩ h⟩⟩

/-! ## A cursor that comes late -/

/-- A message of user 2 in conversation 5. -/
def peerMessage (content : String) : CachedMessage where
  conversationId := 5
  senderId := 2
  senderUsername := "bob"
  contentEnc := content
  contentType := "text"
  status := "delivered"
  statusRank := 2
  undecryptable := .integer 0
  clientMessageId := ""
  createdAt := "2026-08-21T00:00:00Z"

/-- Two unread messages of the peer. -/
def twoUnread : LocalStore where
  opened := true
  messages := (IntMap.empty.insert 10 (peerMessage "m1")).insert 20 (peerMessage "m2")
  unreadCounts := IntMap.empty.insert 5 2

/-- The cursors come in order: both messages are read, and the count is 0. -/
theorem advance_asOneCall_inOrder : AsOneCall 5 1 twoUnread [10] 20 :=
  (advance_asOneCall_iff 5 1 twoUnread [10] 20 (by decide)).mpr fun _ _ _ => by decide

/-- The older cursor comes last: both messages are read, and the count is 1. -/
theorem advance_lateCursor : ¬AsOneCall 5 1 twoUnread [20] 10 := by
  intro h
  have hcount := h.2.2 rfl (by decide) 1 (by decide)
  exact absurd hcount (by decide)

end XYChat.Client
