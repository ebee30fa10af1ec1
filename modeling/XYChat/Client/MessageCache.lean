import XYChat.Client.LocalStore
import XYChat.Lib.Machine

/-!
# What the message cache keeps

A ledger says what the upserts of a message leave known about it: the values of
the last effective upsert, the last readable content, a status that only moves
forward. A store keeps the ledger when each row holds its message and
`loadMessages` answers from it. It does so exactly while the values that
`upsertMessage` binds to the wrong columns happen to coincide.
-/

namespace XYChat.Client

open Lib

/-! ## The ledger -/

/-- What is known of a message. The rank of a known status is its rank. -/
structure StoredMessage where
  conversationId : Int
  senderId : Int
  senderUsername : String
  contentType : String
  content : String
  status : String
  statusRank : Int
  clientMessageId : String
  createdAt : String
  rank_nonneg : 0 ≤ statusRank
  ranked : 0 < statusRank → Client.statusRank status = statusRank

/-- The rank of the status a message gives. -/
def messageRank (msg : Json) : Int := statusRank ((msg.value "status").toStr "")

theorem statusRank_nonneg (status : String) : 0 ≤ statusRank status := by
  unfold statusRank
  split
  · decide
  · split
    · decide
    · split <;> decide

/-- A rank above 0 determines the status. -/
theorem statusRank_inj {a b : String} (h : statusRank a = statusRank b) (hpos : 0 < statusRank a) :
    a = b := by
  unfold statusRank at h hpos
  split_ifs at h hpos <;> first | omega | simp_all

/-- A status that has a rank is there. -/
theorem text_status_of_rank {msg : Json} (h : 0 < messageRank msg) :
    statusRank (text msg "status" "sent") = messageRank msg := by
  unfold messageRank text at *
  cases hvalue : msg.value "status" with
  | str s => rfl
  | _ =>
      rw [hvalue] at h
      exact absurd h (show ¬ 0 < statusRank "" by decide)

variable (qt : Qt)

/-- The values of one upsert, each from the field of its name. -/
def StoredMessage.ofUpsert (msg : Json) : StoredMessage where
  conversationId := (msg.value "conversationId").toLongLong
  senderId := (msg.value "senderId").toLongLong
  senderUsername := text msg "senderUsername" ""
  contentType := text msg "contentType" "text"
  content := readableContent qt msg
  status := text msg "status" "sent"
  statusRank := messageRank msg
  clientMessageId := text msg "clientMessageId" ""
  createdAt := text msg "createdAt" ""
  rank_nonneg := statusRank_nonneg _
  ranked := text_status_of_rank

/-- An effective upsert: everything is new, but the status moves only with
readable content, and never back. -/
def StoredMessage.over (new : StoredMessage) : Option StoredMessage → StoredMessage
  | none => new
  | some old =>
      let forward := new.content ≠ "" ∧ old.statusRank ≤ new.statusRank
      { new with
        status := if forward then new.status else old.status
        statusRank := if forward then new.statusRank else old.statusRank
        rank_nonneg := by
          split
          · exact new.rank_nonneg
          · exact old.rank_nonneg
        ranked := by
          split
          · exact new.ranked
          · exact old.ranked }

/-- The messages by their id. -/
abbrev Ledger := IntMap StoredMessage

/-- The readable content of a message, empty where none was ever stored. -/
def Ledger.content (ledger : Ledger) (messageId : Int) : String :=
  match ledger.find messageId with
  | none => ""
  | some m => m.content

/-- What an upsert does: nothing without valid ids, and nothing to readable
content when it has none. -/
def Ledger.upsert (msg : Json) (ledger : Ledger) : Ledger :=
  let messageId := (msg.value "messageId").toLongLong
  let new := StoredMessage.ofUpsert qt msg
  if messageId ≤ 0 ∨ (msg.value "conversationId").toLongLong ≤ 0 then ledger
  else if new.content = "" ∧ ledger.content messageId ≠ "" then ledger
  else ledger.insert messageId (new.over (ledger.find messageId))

/-- A message as `loadMessages` shows it. -/
def StoredMessage.loaded (messageId : Int) (m : StoredMessage) : Json :=
  let body :=
    if m.content ≠ "" then [("content", .str m.content)]
    else [("content", .str ""), ("undecryptable", .bool true)]
  .obj ([ ("messageId", .int messageId), ("conversationId", .int m.conversationId)
        , ("senderId", .int m.senderId), ("senderUsername", .str m.senderUsername)] ++ body ++
    [ ("contentType", .str m.contentType), ("status", .str m.status)
    , ("createdAt", .str m.createdAt) ])

/-- The newest `limit` messages of a conversation, in ascending order of their
ids. -/
def Ledger.loadMessages (ledger : Ledger) (conversationId : Int) (limit : Nat) : List Json :=
  if conversationId ≤ 0 then []
  else
    let messages := ledger.entries.filter fun e => e.2.conversationId == conversationId
    (messages.reverse.take limit).reverse.map fun e => e.2.loaded e.1

/-! ## A store that keeps the ledger -/

/-- Each column of the row has the value of the message. -/
structure Holds (cipher : TextCipher) (row : CachedMessage) (m : StoredMessage) : Prop where
  conversationId : row.conversationId = m.conversationId
  senderId : row.senderId = m.senderId
  senderUsername : row.senderUsername = m.senderUsername
  contentEnc : row.contentEnc = "" ↔ m.content = ""
  content : cipher.decryptText row.contentEnc = m.content
  contentType : row.contentType = m.contentType
  status : row.status = m.status
  statusRank : row.statusRank = m.statusRank
  undecryptable : row.undecryptable.toInt ≠ 0 ↔ m.content = ""
  clientMessageId : row.clientMessageId = m.clientMessageId
  createdAt : row.createdAt = m.createdAt
  editedAt : row.editedAt = ""
  deleted : row.deleted = 0

/-- A store, and the ledger of the upserts made on it. -/
structure CacheState where
  store : LocalStore
  ledger : Ledger

/-- The rows hold the messages, and loading shows them. -/
structure Kept (cipher : TextCipher) (s : CacheState) : Prop where
  rows : IntMap.Rel (Holds cipher) s.store.messages s.ledger
  loads : ∀ conversationId limit,
    s.store.loadMessages cipher conversationId limit = s.ledger.loadMessages conversationId limit

/-- An upsert of the message `op.2` under the random iv `op.1`. -/
def upsertStep (sqlite : Sqlite) (cipher : TextCipher) (s : CacheState) (op : Nat × Json) :
    CacheState where
  store := (s.store.upsertMessage qt sqlite cipher op.1 op.2).2
  ledger := s.ledger.upsert qt op.2

def upsertMachine (sqlite : Sqlite) (cipher : TextCipher) : Machine CacheState (Nat × Json) where
  init s := s.store.opened = true ∧ s.store.messages = .empty ∧ s.ledger = .empty
  step := upsertStep qt sqlite cipher

/-- The misplaced values coincide. Where the statement runs, the time is the
rank in decimal and the client's id is that time too; a new row has rank 1
without readable content, and then the message is marked, and rank 0 with it; on
an old row readable content brings no higher rank. -/
def Coincides (cipher : TextCipher) (s : CacheState) (op : Nat × Json) : Prop :=
  let messageId := (op.2.value "messageId").toLongLong
  let content := readableContent qt op.2
  0 < messageId → 0 < (op.2.value "conversationId").toLongLong →
    (content ≠ "" ∨ s.store.loadMessageContent cipher messageId = "") →
      text op.2 "createdAt" "" = toString (messageRank op.2) ∧
      text op.2 "clientMessageId" "" = text op.2 "createdAt" "" ∧
      match s.store.messages.find messageId with
      | none => messageRank op.2 = (if content = "" then 1 else 0) ∧
          (content = "" → markUndecryptable qt op.2 = true)
      | some row => content ≠ "" → messageRank op.2 ≤ row.statusRank

/-! ## Rows -/

variable {qt} {sqlite : Sqlite} {cipher : TextCipher}

/-- The text of a small rank reads as that rank. -/
private theorem toInt_rank (hsqlite : sqlite.ReadsDigits) {n : Int} (h : n = 0 ∨ n = 1) :
    (sqlite.integerAffinity (toString n)).toInt = n := by
  rcases h with rfl | rfl
  · have hzero := hsqlite 0 (by decide)
    have htext : toString (0 : Int) = toString 0 := rfl
    rw [htext, hzero]
    rfl
  · have hone := hsqlite 1 (by decide)
    have htext : toString (1 : Int) = toString 1 := rfl
    rw [htext, hone]
    rfl

/-- **A new row** holds its message exactly when the values coincide. -/
theorem holds_first_iff (hcipher : cipher.Correct) (hsqlite : sqlite.ReadsDigits) {r : Nat}
    {msg : Json} :
    Holds cipher (boundRow qt sqlite msg (readableContent qt msg)
        (cipher.encryptText r (readableContent qt msg))) (.ofUpsert qt msg) ↔
      text msg "createdAt" "" = toString (messageRank msg) ∧
      text msg "clientMessageId" "" = text msg "createdAt" "" ∧
      messageRank msg = (if readableContent qt msg = "" then 1 else 0) ∧
      (readableContent qt msg = "" → markUndecryptable qt msg = true) := by
  constructor
  · intro h
    have hcreatedAt : toString (messageRank msg) = text msg "createdAt" "" := h.createdAt
    have hclient : text msg "createdAt" "" = text msg "clientMessageId" "" := h.clientMessageId
    have hrank : (if markUndecryptable qt msg ∧ readableContent qt msg = "" then (1 : Int) else 0) =
      messageRank msg := h.statusRank
    have hflag : (sqlite.integerAffinity (text msg "clientMessageId" "")).toInt ≠ 0 ↔
      readableContent qt msg = "" := h.undecryptable
    have hsmall : messageRank msg = 0 ∨ messageRank msg = 1 := by
      rw [← hrank]
      split
      · exact .inr rfl
      · exact .inl rfl
    rw [← hclient, ← hcreatedAt, toInt_rank hsqlite hsmall] at hflag
    refine ⟨hcreatedAt.symm, hclient.symm, ?_, ?_⟩
    · by_cases hempty : readableContent qt msg = ""
      · rw [if_pos hempty]
        have := hflag.mpr hempty
        omega
      · rw [if_neg hempty]
        exact not_not.mp fun hne => hempty (hflag.mp hne)
    · intro hempty
      by_contra hunmarked
      rw [if_neg fun hmarked => hunmarked hmarked.1] at hrank
      exact hflag.mpr hempty hrank.symm
  · rintro ⟨hcreatedAt, hclient, hrank, hmarked⟩
    have hsmall : messageRank msg = 0 ∨ messageRank msg = 1 := by
      rw [hrank]
      split
      · exact .inr rfl
      · exact .inl rfl
    refine ⟨rfl, rfl, rfl, hcipher.encryptText_eq_nil, hcipher.decryptText_encryptText, rfl, rfl,
      ?_, ?_, hclient.symm, hcreatedAt.symm, rfl, rfl⟩
    · show (if markUndecryptable qt msg ∧ readableContent qt msg = "" then (1 : Int) else 0) =
        messageRank msg
      rw [hrank]
      by_cases hempty : readableContent qt msg = ""
      · rw [if_pos hempty, if_pos ⟨hmarked hempty, hempty⟩]
      · rw [if_neg hempty, if_neg fun h => hempty h.2]
    · show (sqlite.integerAffinity (text msg "clientMessageId" "")).toInt ≠ 0 ↔
        readableContent qt msg = ""
      rw [hclient, hcreatedAt, toInt_rank hsqlite hsmall, hrank]
      split
      · rename_i hempty
        exact ⟨fun _ => hempty, fun _ => one_ne_zero⟩
      · rename_i hreadable
        exact ⟨fun h => absurd rfl h, fun h => absurd h hreadable⟩

/-- **Forward only.** With readable content the statement compares the row's
rank with the flag, which is 0; that agrees with the message's rank exactly when
it is no higher than the row's. -/
private theorem forward_iff {old new : StoredMessage} :
    ((if old.statusRank ≤ 0 then new.status else old.status) =
        (if old.statusRank ≤ new.statusRank then new.status else old.status) ∧
      (if old.statusRank ≤ 0 then 0 else old.statusRank) =
        (if old.statusRank ≤ new.statusRank then new.statusRank else old.statusRank)) ↔
      new.statusRank ≤ old.statusRank := by
  have hold := old.rank_nonneg
  have hnew := new.rank_nonneg
  by_cases hzero : old.statusRank ≤ 0
  · have hforward : old.statusRank ≤ new.statusRank := by omega
    rw [if_pos hzero, if_pos hzero, if_pos hforward, if_pos hforward]
    exact ⟨fun h => by omega, fun h => ⟨rfl, by omega⟩⟩
  · rw [if_neg hzero, if_neg hzero]
    by_cases hforward : old.statusRank ≤ new.statusRank
    · rw [if_pos hforward, if_pos hforward]
      refine ⟨fun h => by omega, fun h => ?_⟩
      -- equal ranks above 0 are the ranks of one status
      have hranks : old.statusRank = new.statusRank := by omega
      refine ⟨statusRank_inj ?_ ?_, hranks⟩
      · rw [old.ranked (by omega), new.ranked (by omega), hranks]
      · rw [old.ranked (by omega)]
        omega
    · rw [if_neg hforward, if_neg hforward]
      exact ⟨fun _ => by omega, fun _ => ⟨rfl, rfl⟩⟩

/-- Without a ciphertext the statement leaves content, status and flag. -/
private theorem onConflict_unreadable {old excluded : CachedMessage} (h : excluded.contentEnc = "") :
    old.onConflict excluded =
      { old with
        conversationId := excluded.conversationId
        senderId := excluded.senderId
        senderUsername := excluded.senderUsername
        contentType := excluded.contentType
        clientMessageId := excluded.clientMessageId
        createdAt := excluded.createdAt } := by
  unfold CachedMessage.onConflict
  simp only [h, ne_eq, not_true_eq_false, false_and, if_false]

/-- With one, and the flag of a readable message for its rank, it goes by the
rank of the row. -/
private theorem onConflict_readable {old excluded : CachedMessage} (h : excluded.contentEnc ≠ "")
    (hflag : excluded.statusRank = 0) :
    old.onConflict excluded =
      { excluded with
        status := if old.statusRank ≤ 0 then excluded.status else old.status
        statusRank := if old.statusRank ≤ 0 then 0 else old.statusRank
        undecryptable := .integer 0
        editedAt := old.editedAt
        deleted := old.deleted } := by
  unfold CachedMessage.onConflict
  simp only [h, hflag, ne_eq, not_false_eq_true, true_and, if_true]

/-- **An old row** holds its message after an effective upsert exactly when the
values coincide. -/
theorem holds_onConflict_iff (hcipher : cipher.Correct) {r : Nat} {msg : Json}
    {row : CachedMessage} {m : StoredMessage} (h : Holds cipher row m)
    (heffective : readableContent qt msg ≠ "" ∨ m.content = "") :
    Holds cipher (row.onConflict (boundRow qt sqlite msg (readableContent qt msg)
        (cipher.encryptText r (readableContent qt msg))))
        ((StoredMessage.ofUpsert qt msg).over (some m)) ↔
      text msg "createdAt" "" = toString (messageRank msg) ∧
      text msg "clientMessageId" "" = text msg "createdAt" "" ∧
      (readableContent qt msg ≠ "" → messageRank msg ≤ row.statusRank) := by
  have henc : cipher.encryptText r (readableContent qt msg) = "" ↔ readableContent qt msg = "" :=
    hcipher.encryptText_eq_nil
  by_cases hempty : readableContent qt msg = ""
  · have hold : m.content = "" := heffective.resolve_left (not_not.mpr hempty)
    have hstays : ¬((StoredMessage.ofUpsert qt msg).content ≠ "" ∧
        m.statusRank ≤ (StoredMessage.ofUpsert qt msg).statusRank) := fun hne => hne.1 hempty
    rw [onConflict_unreadable (henc.mpr hempty)]
    constructor
    · intro hholds
      exact ⟨hholds.createdAt.symm, hholds.clientMessageId.symm, fun hne => absurd hempty hne⟩
    · rintro ⟨hcreatedAt, hclient, _⟩
      exact
        { conversationId := rfl
          senderId := rfl
          senderUsername := rfl
          contentEnc := ⟨fun _ => hempty, fun _ => h.contentEnc.mpr hold⟩
          content := h.content.trans (hold.trans hempty.symm)
          contentType := rfl
          status := h.status.trans (if_neg hstays).symm
          statusRank := h.statusRank.trans (if_neg hstays).symm
          undecryptable := ⟨fun _ => hempty, fun _ => h.undecryptable.mpr hold⟩
          clientMessageId := hclient.symm
          createdAt := hcreatedAt.symm
          editedAt := h.editedAt
          deleted := h.deleted }
  · have hflag : (boundRow qt sqlite msg (readableContent qt msg)
        (cipher.encryptText r (readableContent qt msg))).statusRank = 0 :=
      if_neg fun hmarked => hempty hmarked.2
    have hreadable : (StoredMessage.ofUpsert qt msg).content ≠ "" := hempty
    have hforward := @forward_iff m (.ofUpsert qt msg)
    rw [onConflict_readable (mt henc.mp hempty) hflag, h.status, h.statusRank]
    unfold StoredMessage.over
    simp only [hreadable, ne_eq, not_false_eq_true, true_and]
    constructor
    · intro hholds
      refine ⟨hholds.createdAt.symm, hholds.clientMessageId.symm, fun _ => hforward.mp ⟨?_, ?_⟩⟩
      · exact hholds.status
      · exact hholds.statusRank
    · rintro ⟨hcreatedAt, hclient, hrank⟩
      obtain ⟨hsame, hsameRank⟩ := hforward.mpr (hrank hempty)
      exact
        { conversationId := rfl
          senderId := rfl
          senderUsername := rfl
          contentEnc := henc
          content := hcipher.decryptText_encryptText
          contentType := rfl
          status := hsame
          statusRank := hsameRank
          undecryptable := ⟨fun hne => absurd rfl hne, fun h' => absurd h' hempty⟩
          clientMessageId := hclient.symm
          createdAt := hcreatedAt.symm
          editedAt := h.editedAt
          deleted := h.deleted }

/-! ## Loading -/

/-- A row that holds a message is shown as that message. -/
theorem Holds.loaded {row : CachedMessage} {m : StoredMessage} (h : Holds cipher row m)
    (messageId : Int) : loadedMessage cipher messageId row = m.loaded messageId := by
  unfold loadedMessage StoredMessage.loaded
  dsimp only
  rw [if_neg (not_not.mpr h.deleted), if_neg (not_not.mpr h.editedAt), List.append_nil, h.content,
    h.conversationId, h.senderId, h.senderUsername, h.contentType, h.status, h.createdAt]

/-- Loading follows from the rows. -/
theorem loads_of_rows {s : CacheState} (hopen : s.store.opened = true)
    (h : IntMap.Rel (Holds cipher) s.store.messages s.ledger) (conversationId : Int) (limit : Nat) :
    s.store.loadMessages cipher conversationId limit =
      s.ledger.loadMessages conversationId limit := by
  unfold LocalStore.loadMessages Ledger.loadMessages
  simp only [hopen, Bool.not_true, Bool.false_or, decide_eq_true_eq]
  by_cases hnone : conversationId ≤ 0
  · rw [if_pos hnone, if_pos hnone]
  · rw [if_neg hnone, if_neg hnone]
    have hrows := List.rel_filter (p := fun e => e.2.conversationId == conversationId)
      (q := fun e => e.2.conversationId == conversationId)
      (fun {a b} hab => by
        show (a.2.conversationId == conversationId) = true ↔
          (b.2.conversationId == conversationId) = true
        rw [hab.2.conversationId]) h
    have hnewest := (List.forall₂_reverse_iff.mpr
      (List.forall₂_take limit (List.forall₂_reverse_iff.mpr hrows)))
    refine List.forall₂_eq_eq_eq ▸ List.forall₂_map_left_iff.mpr (List.forall₂_map_right_iff.mpr ?_)
    refine hnewest.imp fun a b hab => ?_
    rw [hab.2.loaded, hab.1]

/-- A kept row yields the readable content of its message. -/
theorem loadMessageContent_eq {s : CacheState} (hopen : s.store.opened = true)
    (h : IntMap.Rel (Holds cipher) s.store.messages s.ledger) {messageId : Int}
    (hpos : 0 < messageId) :
    s.store.loadMessageContent cipher messageId = s.ledger.content messageId := by
  unfold LocalStore.loadMessageContent Ledger.content
  have hfind := h.find messageId
  rw [hopen, Bool.not_true, Bool.false_or, if_neg (by simpa using hpos)]
  cases hrow : s.store.messages.find messageId with
  | none =>
      rw [hrow] at hfind
      cases hm : s.ledger.find messageId with
      | none => rfl
      | some m =>
          rw [hm] at hfind
          cases hfind
  | some row =>
      rw [hrow] at hfind
      cases hm : s.ledger.find messageId with
      | none =>
          rw [hm] at hfind
          cases hfind
      | some m =>
          rw [hm] at hfind
          cases hfind with
          | some hholds =>
              dsimp only
              by_cases hflag : row.undecryptable.toInt ≠ 0
              · rw [if_pos hflag, hholds.undecryptable.mp hflag]
              · rw [if_neg hflag, hholds.content]

/-! ## Runs of upserts -/

theorem upsertMessage_opened (r : Nat) (msg : Json) (store : LocalStore) :
    (store.upsertMessage qt sqlite cipher r msg).2.opened = store.opened := by
  unfold LocalStore.upsertMessage
  dsimp only
  split_ifs <;> rfl

/-- An upsert changes no row but that of its message. -/
theorem upsertMessage_find_of_ne {store : LocalStore} {r : Nat} {msg : Json} {messageId : Int}
    (h : messageId ≠ (msg.value "messageId").toLongLong) :
    (store.upsertMessage qt sqlite cipher r msg).2.messages.find messageId =
      store.messages.find messageId := by
  unfold LocalStore.upsertMessage
  dsimp only
  split_ifs
  · rfl
  · rfl
  · rfl
  · rfl
  · exact IntMap.find_insert_of_ne h

/-- The text a row decrypts to; there is none without a row. -/
def storedText (cipher : TextCipher) (row : Option CachedMessage) : String :=
  (row.map fun row => cipher.decryptText row.contentEnc).getD ""

/-- **What an upsert leaves** of a message with valid ids: a row that keeps deletion
and edit time, and has the new text where that is readable. The row is written,
unless it keeps a readable text. -/
theorem upsertMessage_row (hcipher : cipher.Correct) {store : LocalStore} {r : Nat} {msg : Json}
    (hopen : store.opened = true) (hid : 0 < (msg.value "messageId").toLongLong)
    (hconversation : 0 < (msg.value "conversationId").toLongLong) :
    let old := store.messages.find (msg.value "messageId").toLongLong
    let content := readableContent qt msg
    ∃ row, (store.upsertMessage qt sqlite cipher r msg).2.messages.find
        (msg.value "messageId").toLongLong = some row ∧
      (row.conversationId = (msg.value "conversationId").toLongLong ∨
        content = "" ∧ old = some row) ∧
      row.deleted = (old.map (·.deleted)).getD 0 ∧
      row.editedAt = (old.map (·.editedAt)).getD "" ∧
      cipher.decryptText row.contentEnc = if content = "" then storedText cipher old else content := by
  unfold LocalStore.upsertMessage
  dsimp only
  rw [if_neg (by simp [hopen]), if_neg (by omega)]
  generalize (msg.value "messageId").toLongLong = messageId at hid ⊢
  by_cases hkeeps : readableContent qt msg = "" ∧ store.loadMessageContent cipher messageId ≠ ""
  · rw [if_pos hkeeps, if_pos hkeeps.1]
    have hcontent := hkeeps.2
    unfold LocalStore.loadMessageContent at hcontent
    rw [if_neg (by simp [hopen]; omega)] at hcontent
    cases hfind : store.messages.find messageId with
    | none =>
        rw [hfind] at hcontent
        exact absurd rfl hcontent
    | some row => exact ⟨row, rfl, .inr ⟨hkeeps.1, rfl⟩, rfl, rfl, rfl⟩
  · rw [if_neg hkeeps, if_neg fun h => h.1 (hcipher.encryptText_eq_nil.mp h.2)]
    refine ⟨_, IntMap.find_insert_self, ?_⟩
    generalize readableContent qt msg = content
    generalize henc : cipher.encryptText r content = enc
    have hempty : enc = "" ↔ content = "" := henc ▸ hcipher.encryptText_eq_nil
    have hdecrypt : cipher.decryptText enc = content := henc ▸ hcipher.decryptText_encryptText
    cases store.messages.find messageId with
    | none =>
        refine ⟨.inl rfl, rfl, rfl, hdecrypt.trans ?_⟩
        split
        · assumption
        · rfl
    | some old =>
        refine ⟨.inl rfl, rfl, rfl, ?_⟩
        show cipher.decryptText (if enc ≠ "" then enc else old.contentEnc) = _
        by_cases hnone : content = ""
        · rw [if_neg (not_not.mpr (hempty.mpr hnone)), if_pos hnone]
          rfl
        · rw [if_pos fun h => hnone (hempty.mp h), if_neg hnone, hdecrypt]

/-- On an open store keeping is keeping the rows. -/
theorem kept_iff_rows {s : CacheState} (hopen : s.store.opened = true) :
    Kept cipher s ↔ IntMap.Rel (Holds cipher) s.store.messages s.ledger :=
  ⟨fun h => h.rows, fun h => ⟨h, loads_of_rows hopen h⟩⟩

/-- Without valid ids nothing happens. -/
private theorem upsertStep_refused {s : CacheState} {r : Nat} {msg : Json}
    (h : (msg.value "messageId").toLongLong ≤ 0 ∨ (msg.value "conversationId").toLongLong ≤ 0) :
    upsertStep qt sqlite cipher s (r, msg) = s := by
  unfold upsertStep LocalStore.upsertMessage Ledger.upsert
  dsimp only
  rw [if_pos h, if_pos h]
  split <;> rfl

/-- Readable content stays when there is none to replace it. -/
private theorem upsertStep_ineffective {s : CacheState} {r : Nat} {msg : Json}
    (hopen : s.store.opened = true)
    (hids : ¬((msg.value "messageId").toLongLong ≤ 0 ∨
      (msg.value "conversationId").toLongLong ≤ 0))
    (hcontent : s.store.loadMessageContent cipher (msg.value "messageId").toLongLong =
      s.ledger.content (msg.value "messageId").toLongLong)
    (h : readableContent qt msg = "" ∧
      s.store.loadMessageContent cipher (msg.value "messageId").toLongLong ≠ "") :
    upsertStep qt sqlite cipher s (r, msg) = s := by
  have hledger : (StoredMessage.ofUpsert qt msg).content = "" ∧
      s.ledger.content (msg.value "messageId").toLongLong ≠ "" := ⟨h.1, hcontent ▸ h.2⟩
  unfold upsertStep LocalStore.upsertMessage Ledger.upsert
  dsimp only
  rw [if_neg hids, if_neg hids, if_pos h, if_pos hledger, hopen]
  rfl

/-- Otherwise the statement runs, and the ledger takes the message. -/
private theorem upsertStep_effective (hcipher : cipher.Correct) {s : CacheState} {r : Nat}
    {msg : Json} (hopen : s.store.opened = true)
    (hids : ¬((msg.value "messageId").toLongLong ≤ 0 ∨
      (msg.value "conversationId").toLongLong ≤ 0))
    (hcontent : s.store.loadMessageContent cipher (msg.value "messageId").toLongLong =
      s.ledger.content (msg.value "messageId").toLongLong)
    (h : ¬(readableContent qt msg = "" ∧
      s.store.loadMessageContent cipher (msg.value "messageId").toLongLong ≠ "")) :
    let messageId := (msg.value "messageId").toLongLong
    let excluded := boundRow qt sqlite msg (readableContent qt msg)
      (cipher.encryptText r (readableContent qt msg))
    upsertStep qt sqlite cipher s (r, msg) =
      { store := { s.store with
          messages := s.store.messages.insert messageId
            (upsertRow excluded (s.store.messages.find messageId)) }
        ledger := s.ledger.insert messageId
          ((StoredMessage.ofUpsert qt msg).over (s.ledger.find messageId)) } := by
  have hledger : ¬((StoredMessage.ofUpsert qt msg).content = "" ∧
      s.ledger.content (msg.value "messageId").toLongLong ≠ "") := hcontent ▸ h
  have hsealed : ¬(readableContent qt msg ≠ "" ∧
      cipher.encryptText r (readableContent qt msg) = "") :=
    fun hnone => hnone.1 (hcipher.encryptText_eq_nil.mp hnone.2)
  unfold upsertStep LocalStore.upsertMessage Ledger.upsert
  dsimp only
  rw [if_neg hids, if_neg hids, if_neg h, if_neg hledger, if_neg hsealed, hopen]
  rfl

/-- **Step lemma.** An upsert keeps the ledger exactly when the misplaced values
coincide. -/
theorem upsertStep_kept_iff (hcipher : cipher.Correct) (hsqlite : sqlite.ReadsDigits)
    {s : CacheState} (hopen : s.store.opened = true) (h : Kept cipher s) (op : Nat × Json) :
    Kept cipher (upsertStep qt sqlite cipher s op) ↔ Coincides qt cipher s op := by
  obtain ⟨r, msg⟩ := op
  unfold Coincides
  dsimp only
  by_cases hids : (msg.value "messageId").toLongLong ≤ 0 ∨
      (msg.value "conversationId").toLongLong ≤ 0
  · rw [upsertStep_refused hids]
    exact ⟨fun _ hpos hpos' => by omega, fun _ => h⟩
  have hpos : 0 < (msg.value "messageId").toLongLong := by omega
  have hpos' : 0 < (msg.value "conversationId").toLongLong := by omega
  have hcontent := loadMessageContent_eq hopen h.rows hpos
  by_cases hstays : readableContent qt msg = "" ∧
      s.store.loadMessageContent cipher (msg.value "messageId").toLongLong ≠ ""
  · rw [upsertStep_ineffective hopen hids hcontent hstays]
    refine ⟨fun _ _ _ heffective => ?_, fun _ => h⟩
    exact absurd (heffective.resolve_left (not_not.mpr hstays.1)) hstays.2
  have heffective : readableContent qt msg ≠ "" ∨
      s.store.loadMessageContent cipher (msg.value "messageId").toLongLong = "" := by
    rwa [not_and_or, not_not] at hstays
  have hopen' : (upsertStep qt sqlite cipher s (r, msg)).store.opened = true :=
    (upsertMessage_opened r msg s.store).trans hopen
  rw [kept_iff_rows hopen', upsertStep_effective hcipher hopen hids hcontent hstays]
  dsimp only
  rw [h.rows.insert_iff]
  have hcoincide : ∀ P : Prop, (0 < (msg.value "messageId").toLongLong →
      0 < (msg.value "conversationId").toLongLong → (readableContent qt msg ≠ "" ∨
      s.store.loadMessageContent cipher (msg.value "messageId").toLongLong = "") → P) ↔ P :=
    fun P => ⟨fun hP => hP hpos hpos' heffective, fun hP _ _ _ => hP⟩
  rw [hcoincide]
  rw [hcontent] at heffective
  unfold Ledger.content at heffective
  have hfind := h.rows.find (msg.value "messageId").toLongLong
  generalize s.store.messages.find (msg.value "messageId").toLongLong = row at hfind ⊢
  generalize s.ledger.find (msg.value "messageId").toLongLong = m at hfind heffective ⊢
  cases hfind with
  | none => exact holds_first_iff hcipher hsqlite
  | some hholds => exact holds_onConflict_iff hcipher hholds heffective

/-- **The cache keeps the ledger** through a run of upserts on an open store
exactly when at each upsert the misplaced values coincide. -/
theorem upserts_kept_iff (hcipher : cipher.Correct) (hsqlite : sqlite.ReadsDigits)
    {s : CacheState} (hopen : s.store.opened = true) (hs : Kept cipher s)
    (upserts : List (Nat × Json)) :
    (upsertMachine qt sqlite cipher).Always (Kept cipher) s upserts ↔
      (upsertMachine qt sqlite cipher).Along (Coincides qt cipher) s upserts :=
  Machine.always_iff_along (W := fun s => s.store.opened = true)
    (fun s op hopen => (upsertMessage_opened op.1 op.2 s.store).trans hopen)
    (fun _ op hopen hs => upsertStep_kept_iff hcipher hsqlite hopen hs op) hopen hs

/-! ## Two histories -/

/-- A cipher that only puts the prefix before the text. -/
def plainCipher : TextCipher where
  encrypt _ plaintext := cipherPrefix ++ plaintext
  decryptText cipher := String.ofList (cipher.toList.drop cipherPrefix.length)

theorem plainCipher_correct : plainCipher.Correct where
  opens := by
    intro _ plaintext _
    show String.ofList ((cipherPrefix ++ plaintext).toList.drop cipherPrefix.length) = plaintext
    rw [String.toList_append, ← String.length_toList, List.drop_left, String.ofList_toList]
  empty := rfl

/-- An affinity that knows the digits. -/
def digitSqlite : Sqlite where
  integerAffinity s :=
    match s.toList with
    | [c] => if c.isDigit then .integer (c.toNat - '0'.toNat) else .text s
    | _ => .text s

theorem digitSqlite_reads : digitSqlite.ReadsDigits := by
  unfold Sqlite.ReadsDigits
  decide

/-- Codecs that find no JSON in the contents of these histories. -/
def noJson : Qt where
  fromJson _ := none
  toJson _ := ""
  fromBase64 _ := []
  toBase64 _ := ""
  isoDate _ := ""

/-- A store that was just opened. -/
def freshCache : CacheState where
  store := { opened := true, messages := .empty }
  ledger := .empty

theorem freshCache_kept : Kept plainCipher freshCache :=
  (kept_iff_rows rfl).mpr IntMap.Rel.empty

/-- A message of bob's with the given status, client id and time. -/
def bobsMessage (content status clientMessageId createdAt : String) : Json := .obj
  [ ("messageId", .int 5), ("conversationId", .int 20), ("senderId", .int 2)
  , ("senderUsername", .str "bob"), ("content", .str content), ("contentType", .str "text")
  , ("status", .str status), ("clientMessageId", .str clientMessageId)
  , ("createdAt", .str createdAt), ("undecryptable", .bool (content == "")) ]

/-- First without readable content, then with it, and values that coincide. -/
theorem upserts_kept_coinciding :
    (upsertMachine noJson digitSqlite plainCipher).Always (Kept plainCipher) freshCache
      [(0, bobsMessage "" "sent" "1" "1"), (1, bobsMessage "hi" "sent" "1" "1")] := by
  refine (upserts_kept_iff plainCipher_correct digitSqlite_reads rfl freshCache_kept _).mpr
    ⟨fun _ _ _ => ⟨by decide, by decide, by decide, by decide⟩, ?_, trivial⟩
  exact fun _ _ _ => ⟨by decide, by decide, fun _ => by decide⟩

/-- An ordinary message is stored under its rank for its time. -/
theorem bobsMessage_misplaced :
    ¬(upsertMachine noJson digitSqlite plainCipher).Always (Kept plainCipher) freshCache
      [(0, bobsMessage "hi" "delivered" "m1" "2026-08-21T00:00:00Z")] := by
  intro h
  have hrow := h.2.rows.find 5
  cases hrow with
  | some hholds => exact absurd hholds.createdAt (by decide)

end XYChat.Client
