import XYChat.Client.MessageCache

/-!
# The status a message is shown with

Three writers touch the status of a cached message: `upsertMessage` compares
ranks, `markConversationRead` only goes up, and `updateMessageStatus` writes what
it is given. The rank that `upsertMessage` compares with is not the one the
status has, so a shown status goes back exactly when one of the first and the
last brings a lower one.
-/

namespace XYChat.Client

open Lib

/-! ## Operations -/

/-- `loadMessages` shows the message with this status. -/
def Shows (cipher : TextCipher) (store : LocalStore) (messageId : Int) (status : String) : Prop :=
  ∃ conversationId limit, ∃ msg ∈ store.loadMessages cipher conversationId limit,
    msg.value "messageId" = .int messageId ∧ msg.value "status" = .str status

/-- A writer of the status, with its arguments; `r` is a random iv. -/
inductive StatusOp where
  | upsertMessage (r : Nat) (msg : Json)
  | updateMessageStatus (messageId : Int) (status : String)
  | markConversationRead (conversationId readMessageId selfUserId : Int)

/-- A store, and what it was one operation earlier. -/
structure StatusState where
  earlier : LocalStore
  store : LocalStore

section

variable (qt : Qt) (sqlite : Sqlite) (cipher : TextCipher)

def StatusOp.apply (store : LocalStore) : StatusOp → LocalStore
  | .upsertMessage r msg => (store.upsertMessage qt sqlite cipher r msg).2
  | .updateMessageStatus messageId status => (store.updateMessageStatus messageId status).2
  | .markConversationRead conversationId readMessageId selfUserId =>
      (store.markConversationRead conversationId readMessageId selfUserId).2

def statusMachine : Machine StatusState StatusOp where
  init s := s.earlier = s.store
  step s op := { earlier := s.store, store := op.apply qt sqlite cipher s.store }

/-- No shown message went back. -/
def StatusForward (s : StatusState) : Prop :=
  ∀ messageId before now, Shows cipher s.earlier messageId before →
    Shows cipher s.store messageId now → statusRank before ≤ statusRank now

/-- What is written over a shown status has no lower rank: the status of an
upsert that writes content over a row with no rank, and that of every
`updateMessageStatus`. -/
def WritesForward (s : StatusState) : StatusOp → Prop
  | .upsertMessage r msg =>
      let messageId := (msg.value "messageId").toLongLong
      s.store.opened = true → 0 < messageId → 0 < (msg.value "conversationId").toLongLong →
        cipher.encryptText r (readableContent qt msg) ≠ "" →
          ∀ row ∈ s.store.messages.find messageId, 0 < row.conversationId → row.statusRank ≤ 0 →
            statusRank row.status ≤ statusRank (text msg "status" "sent")
  | .updateMessageStatus messageId status =>
      s.store.opened = true → 0 < messageId → status ≠ "" →
        ∀ row ∈ s.store.messages.find messageId, 0 < row.conversationId →
          statusRank row.status ≤ statusRank status
  | .markConversationRead .. => True

end

/-! ## What is shown -/

variable {qt : Qt} {sqlite : Sqlite} {cipher : TextCipher}

theorem loadedMessage_messageId (messageId : Int) (row : CachedMessage) :
    (loadedMessage cipher messageId row).value "messageId" = .int messageId := by
  simp [loadedMessage, Json.value]

theorem loadedMessage_status (messageId : Int) (row : CachedMessage) :
    (loadedMessage cipher messageId row).value "status" = .str row.status := by
  unfold loadedMessage
  dsimp only
  split_ifs <;> simp [Json.value, List.lookup_cons]

/-- `loadMessages` shows a message exactly when it has a row in a conversation that
can be loaded, and shows it as that row. -/
theorem loads_iff {store : LocalStore} {messageId : Int} {P : Json → Prop} :
    (∃ conversationId limit, ∃ msg ∈ store.loadMessages cipher conversationId limit,
      msg.value "messageId" = .int messageId ∧ P msg) ↔
    store.opened = true ∧ ∃ row, store.messages.find messageId = some row ∧
      0 < row.conversationId ∧ P (loadedMessage cipher messageId row) := by
  unfold LocalStore.loadMessages
  constructor
  · rintro ⟨conversationId, limit, msg, hmsg, hid, hP⟩
    split at hmsg
    · cases hmsg
    · rename_i hopen
      obtain ⟨⟨messageId', row⟩, hrow, rfl⟩ := List.mem_map.mp hmsg
      rw [loadedMessage_messageId, Json.int.injEq] at hid
      have hentry := List.mem_reverse.mp (List.mem_of_mem_take (List.mem_reverse.mp hrow))
      obtain ⟨hmem, hconv⟩ := List.mem_filter.mp hentry
      simp only [Bool.or_eq_true, not_or, Bool.not_eq_true', decide_eq_true_eq] at hopen
      have hconversation : row.conversationId = conversationId := by simpa using hconv
      subst hid
      exact ⟨by simpa using hopen.1, row, IntMap.find_eq_some.mpr hmem, by omega, hP⟩
  · rintro ⟨hopen, row, hrow, hpos, hP⟩
    refine ⟨row.conversationId, store.messages.entries.length, loadedMessage cipher messageId row,
      ?_, loadedMessage_messageId _ _, hP⟩
    rw [if_neg (by simp [hopen]; omega)]
    refine List.mem_map.mpr ⟨(messageId, row), ?_, rfl⟩
    refine List.mem_reverse.mpr ?_
    rw [List.take_of_length_le (by simpa using List.length_filter_le _ _)]
    exact List.mem_reverse.mpr (List.mem_filter.mpr ⟨IntMap.mem_of_find hrow, by simp⟩)

/-- Showing a status is having a row with it, of a conversation that can be
loaded. -/
theorem shows_iff {store : LocalStore} {messageId : Int} {status : String} :
    Shows cipher store messageId status ↔ store.opened = true ∧
      ∃ row, store.messages.find messageId = some row ∧ 0 < row.conversationId ∧
        row.status = status := by
  unfold Shows
  rw [loads_iff]
  simp only [loadedMessage_status, Json.str.injEq]

theorem statusRank_le (status : String) : statusRank status ≤ 3 := by
  unfold statusRank
  split
  · decide
  · split
    · decide
    · split <;> decide

/-! ## Steps -/

/-- What is forward, said of the rows. -/
theorem statusForward_iff_rows {s : StatusState} (hopen : s.store.opened = s.earlier.opened) :
    StatusForward cipher s ↔ (s.earlier.opened = true → ∀ messageId,
      ∀ before ∈ s.earlier.messages.find messageId, 0 < before.conversationId →
        ∀ now ∈ s.store.messages.find messageId, 0 < now.conversationId →
          statusRank before.status ≤ statusRank now.status) := by
  unfold StatusForward
  constructor
  · intro h hopened messageId before hbefore hpos now hnow hpos'
    exact h messageId _ _ (shows_iff.mpr ⟨hopened, before, hbefore, hpos, rfl⟩)
      (shows_iff.mpr ⟨hopen.trans hopened, now, hnow, hpos', rfl⟩)
  · intro h messageId before now hbefore hnow
    obtain ⟨hopened, row, hrow, hpos, rfl⟩ := shows_iff.mp hbefore
    obtain ⟨_, row', hrow', hpos', rfl⟩ := shows_iff.mp hnow
    exact h hopened messageId row hrow hpos row' hrow' hpos'

/-- A store that stays as it is shows what it showed. -/
theorem statusForward_same {store : LocalStore} : StatusForward cipher ⟨store, store⟩ := by
  refine (statusForward_iff_rows rfl).mpr fun _ messageId before hbefore _ now hnow _ => ?_
  rw [Option.mem_def.mp hbefore] at hnow
  cases hnow
  exact Int.le_refl _

/-- Writing one row goes forward exactly when that row does, if it was shown and
still is. -/
theorem statusForward_insert {store : LocalStore} {messageId : Int} {row : CachedMessage}
    (hopen : store.opened = true) (hpos : 0 < row.conversationId) :
    StatusForward cipher
        ⟨store, { store with messages := store.messages.insert messageId row }⟩ ↔
      ∀ old ∈ store.messages.find messageId, 0 < old.conversationId →
        statusRank old.status ≤ statusRank row.status := by
  rw [statusForward_iff_rows rfl]
  constructor
  · intro h old hold hpos'
    exact h hopen messageId old hold hpos' row (Option.mem_def.mpr IntMap.find_insert_self) hpos
  · intro h _ messageId' before hbefore hpos' now hnow _
    have hnow' : (store.messages.insert messageId row).find messageId' = some now := hnow
    by_cases hid : messageId' = messageId
    · subst hid
      rw [IntMap.find_insert_self, Option.some.injEq] at hnow'
      subst hnow'
      exact h before hbefore hpos'
    · rw [IntMap.find_insert_of_ne hid, Option.mem_def.mp hbefore, Option.some.injEq] at hnow'
      subst hnow'
      exact Int.le_refl _

/-- Changing rows in place goes forward exactly when each changed row that is
shown does, where the conversations stay. -/
theorem statusForward_update {store : LocalStore} {p : Int → CachedMessage → Bool}
    {f : CachedMessage → CachedMessage} {unreadCounts : IntMap Int} (hopen : store.opened = true)
    (hf : ∀ row, (f row).conversationId = row.conversationId) :
    StatusForward cipher
        ⟨store, { store with messages := store.messages.update p f, unreadCounts }⟩ ↔
      ∀ messageId, ∀ row ∈ store.messages.find messageId, 0 < row.conversationId →
        p messageId row = true → statusRank row.status ≤ statusRank (f row).status := by
  rw [statusForward_iff_rows rfl]
  constructor
  · intro h messageId row hrow hpos hp
    refine h hopen messageId row hrow hpos (f row) ?_ ((hf row).symm ▸ hpos)
    show (store.messages.update p f).find messageId = some (f row)
    rw [IntMap.find_update, Option.mem_def.mp hrow, Option.map_some, if_pos hp]
  · intro h _ messageId before hbefore hpos now hnow _
    have hnow' : (store.messages.update p f).find messageId = some now := hnow
    rw [IntMap.find_update, Option.mem_def.mp hbefore, Option.map_some, Option.some.injEq] at hnow'
    subst hnow'
    split
    · rename_i hp
      exact h messageId before hbefore hpos hp
    · exact Int.le_refl _

/-- The status an upsert leaves. -/
private theorem onConflict_status {old excluded : CachedMessage} :
    (old.onConflict excluded).status =
      if excluded.contentEnc ≠ "" ∧ old.statusRank ≤ excluded.statusRank then excluded.status
      else old.status := rfl

private theorem upsert_forward_iff {s : StatusState} {r : Nat} {msg : Json} :
    StatusForward cipher
        ⟨s.store, (s.store.upsertMessage qt sqlite cipher r msg).2⟩ ↔
      WritesForward qt cipher s (.upsertMessage r msg) := by
  unfold LocalStore.upsertMessage WritesForward
  dsimp only
  by_cases hopen : s.store.opened = true
  swap
  · rw [if_pos (by simpa using hopen)]
    exact ⟨fun _ h => absurd h hopen, fun _ => statusForward_same⟩
  rw [if_neg (by simp [hopen])]
  by_cases hids : (msg.value "messageId").toLongLong ≤ 0 ∨
      (msg.value "conversationId").toLongLong ≤ 0
  · rw [if_pos hids]
    exact ⟨fun _ _ _ _ => by omega, fun _ => statusForward_same⟩
  rw [if_neg hids]
  have hconv : 0 < (msg.value "conversationId").toLongLong := by omega
  by_cases hempty : readableContent qt msg = ""
  · -- without readable content the status of an old row stays
    have henc : cipher.encryptText r (readableContent qt msg) = "" := by
      rw [hempty]
      rfl
    refine ⟨fun _ _ _ _ hne => absurd henc hne, fun _ => ?_⟩
    split
    · exact statusForward_same
    · rw [if_neg fun h => h.1 hempty]
      refine (statusForward_insert hopen ?_).mpr fun old hold _ => ?_
      · cases s.store.messages.find (msg.value "messageId").toLongLong <;> exact hconv
      · rw [Option.mem_def.mp hold]
        show _ ≤ statusRank (old.onConflict _).status
        rw [onConflict_status, if_neg fun h => h.1 henc]
  · rw [if_neg fun h => hempty h.1]
    by_cases henc : cipher.encryptText r (readableContent qt msg) = ""
    · rw [if_pos ⟨hempty, henc⟩]
      exact ⟨fun _ _ _ _ hne => absurd henc hne, fun _ => statusForward_same⟩
    · rw [if_neg fun h => henc h.2]
      -- the rank bound for the row is the flag of a readable message
      have hflag : (boundRow qt sqlite msg (readableContent qt msg)
          (cipher.encryptText r (readableContent qt msg))).statusRank = 0 :=
        if_neg fun h => hempty h.2
      have hpos : 0 < (upsertRow (boundRow qt sqlite msg (readableContent qt msg)
          (cipher.encryptText r (readableContent qt msg)))
          (s.store.messages.find (msg.value "messageId").toLongLong)).conversationId := by
        cases s.store.messages.find (msg.value "messageId").toLongLong <;> exact hconv
      rw [statusForward_insert hopen hpos]
      have hstatus : ∀ old : CachedMessage, (old.onConflict (boundRow qt sqlite msg
          (readableContent qt msg) (cipher.encryptText r (readableContent qt msg)))).status =
          if old.statusRank ≤ 0 then text msg "status" "sent" else old.status := by
        intro old
        rw [onConflict_status, hflag]
        by_cases hrank : old.statusRank ≤ 0
        · rw [if_pos ⟨henc, hrank⟩, if_pos hrank]
          rfl
        · rw [if_neg fun h => hrank h.2, if_neg hrank]
      constructor
      · intro h _ _ _ _ old hold hshown hrank
        have hforward := h old hold hshown
        rw [Option.mem_def.mp hold] at hforward
        dsimp only [upsertRow] at hforward
        rwa [hstatus, if_pos hrank] at hforward
      · intro h old hold hshown
        rw [Option.mem_def.mp hold]
        dsimp only [upsertRow]
        rw [hstatus]
        split
        · rename_i hrank
          exact h hopen (by omega) hconv henc old hold hshown hrank
        · exact Int.le_refl _

private theorem update_forward_iff {s : StatusState} {messageId : Int} {status : String} :
    StatusForward cipher ⟨s.store, (s.store.updateMessageStatus messageId status).2⟩ ↔
      WritesForward qt cipher s (.updateMessageStatus messageId status) := by
  unfold LocalStore.updateMessageStatus WritesForward
  by_cases hrefused : (!s.store.opened || decide (messageId ≤ 0) || decide (status = "")) = true
  · rw [if_pos hrefused]
    refine ⟨fun _ hopen hpos hne => ?_, fun _ => statusForward_same⟩
    simp [hopen, hne] at hrefused
    omega
  · rw [if_neg hrefused]
    simp only [Bool.or_eq_true, not_or, decide_eq_true_eq, Bool.not_eq_true', not_le,
      Bool.not_eq_false] at hrefused
    obtain ⟨⟨hopen, hpos⟩, hne⟩ := hrefused
    dsimp only
    refine (statusForward_update hopen ?_).trans ⟨?_, ?_⟩
    · exact fun _ => rfl
    · intro h _ _ _ row hrow hshown
      exact h messageId row hrow hshown (by simp)
    · intro h id row hrow hshown hid
      have hid' : id = messageId := by simpa using hid
      subst hid'
      exact h hopen hpos hne row hrow hshown

/-- Reading goes forward: no rank is above that of `read`. -/
private theorem read_forward {store : LocalStore} {conversationId readMessageId selfUserId : Int} :
    StatusForward cipher
      ⟨store, (store.markConversationRead conversationId readMessageId selfUserId).2⟩ := by
  unfold LocalStore.markConversationRead
  split
  · exact statusForward_same
  · rename_i hopen
    simp only [Bool.or_eq_true, not_or, Bool.not_eq_true', Bool.not_eq_false] at hopen
    refine (statusForward_update hopen.1.1 ?_).mpr ?_
    · exact fun _ => rfl
    · exact fun _ row _ _ _ => statusRank_le row.status

/-- **Step lemma.** An operation shows no lower status exactly when what it
writes has none. -/
theorem statusStep_forward_iff (s : StatusState) (op : StatusOp) :
    StatusForward cipher ((statusMachine qt sqlite cipher).step s op) ↔
      WritesForward qt cipher s op := by
  cases op with
  | upsertMessage r msg => exact upsert_forward_iff
  | updateMessageStatus messageId status => exact update_forward_iff
  | markConversationRead conversationId readMessageId selfUserId =>
      exact ⟨fun _ => trivial, fun _ => read_forward⟩

/-- **The shown status only moves forward** through any sequence of operations on
any store exactly when each writes no lower one. -/
theorem statusForward_iff (store : LocalStore) (ops : List StatusOp) :
    (statusMachine qt sqlite cipher).Always (StatusForward cipher) ⟨store, store⟩ ops ↔
      (statusMachine qt sqlite cipher).Along (WritesForward qt cipher) ⟨store, store⟩ ops :=
  Machine.always_iff_along (W := fun _ => True) (fun _ _ _ => trivial)
    (fun s op _ _ => statusStep_forward_iff s op) trivial statusForward_same

/-- A message is read, and then a late `delivered` arrives. -/
theorem lateDelivered_regresses :
    ¬(statusMachine noJson digitSqlite plainCipher).Always (StatusForward plainCipher)
      ⟨freshCache.store, freshCache.store⟩
      [ .upsertMessage 0 (bobsMessage "hi" "sent" "m1" "2026-08-21T00:00:00Z")
      , .updateMessageStatus 5 "read", .updateMessageStatus 5 "delivered" ] := by
  intro h
  have hwrites := (statusForward_iff _ _).mp h
  exact absurd (hwrites.2.2.1 rfl (by decide) (by decide) _ rfl (by decide)) (by decide)

end XYChat.Client
