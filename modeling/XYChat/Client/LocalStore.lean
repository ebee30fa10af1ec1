import XYChat.Common.Crypto
import XYChat.Lib.IntMap

/-!
# The client's local store

`LocalStore`: the text encryption every table uses, and the `messages` table
with the statements that fill and read it. What the SQLite library makes of a
text in an INTEGER column is a parameter.
-/

namespace XYChat.Client

open Lib

/-! ## Text encryption -/

/-- `encryptText` and `decryptText` under the storage key; `encrypt r` is
encryption under the random iv `r`. -/
structure TextCipher where
  encrypt : Nat → String → String
  decryptText : String → String

/-- `LocalStore::encryptText`: nothing for an empty text. -/
def TextCipher.encryptText (cipher : TextCipher) (r : Nat) (plaintext : String) : String :=
  if plaintext = "" then "" else cipher.encrypt r plaintext

/-- The AEAD is correct: what was encrypted decrypts, and no text decrypts from
nothing. -/
structure TextCipher.Correct (cipher : TextCipher) : Prop where
  opens : ∀ r plaintext, plaintext ≠ "" →
    cipher.decryptText (cipher.encrypt r plaintext) = plaintext
  empty : cipher.decryptText "" = ""

namespace TextCipher.Correct

variable {cipher : TextCipher} {r : Nat} {plaintext : String}

/-- Encryption leaves no text exactly where there is none. -/
theorem encryptText_eq_nil (h : cipher.Correct) :
    cipher.encryptText r plaintext = "" ↔ plaintext = "" := by
  unfold TextCipher.encryptText
  by_cases hempty : plaintext = ""
  · rw [if_pos hempty]
    exact ⟨fun _ => hempty, fun _ => rfl⟩
  · rw [if_neg hempty]
    refine ⟨fun hnone => ?_, fun hempty' => absurd hempty' hempty⟩
    have hopens := h.opens r plaintext hempty
    rw [hnone, h.empty] at hopens
    exact hopens.symm

theorem decryptText_encryptText (h : cipher.Correct) :
    cipher.decryptText (cipher.encryptText r plaintext) = plaintext := by
  unfold TextCipher.encryptText
  by_cases hempty : plaintext = ""
  · rw [if_pos hempty, h.empty, hempty]
  · rw [if_neg hempty, h.opens r plaintext hempty]

end TextCipher.Correct

def storageKeySize : Nat := 32

def cipherPrefix : String := "enc1:"

/-- The cipher as the source builds it from AES-GCM under the storage key;
`iv r` are the random bytes. -/
def storageCipher (qt : Qt) (crypto : Crypto) (storageKey : Bytes) (iv : Nat → Bytes) :
    TextCipher where
  encrypt r plaintext :=
    if storageKey.length ≠ storageKeySize then ""
    else
      match E2eeCrypto.aesGcmEncrypt crypto storageKey (iv r) (toUtf8 plaintext) with
      | none => ""
      | some gcm => cipherPrefix ++ qt.toBase64 gcm.1 ++ ":" ++ qt.toBase64 gcm.2
  decryptText cipher :=
    if cipherPrefix.toList.isPrefixOf cipher.toList = false
        ∨ storageKey.length ≠ storageKeySize then ""
    else
      match (cipher.toList.drop cipherPrefix.length).splitOn ':' with
      | [ivText, ctText] =>
          let iv := qt.fromBase64 (String.ofList ivText)
          let ct := qt.fromBase64 (String.ofList ctText)
          if iv = [] ∨ ct = [] then ""
          else fromUtf8 (E2eeCrypto.aesGcmDecrypt crypto storageKey iv ct)
      | _ => ""

/-! ## The messages table -/

/-- What a column without a fixed type holds. -/
inductive Cell where
  | integer (n : Int)
  | real (q : Rat)
  | text (s : String)
  deriving DecidableEq, Repr

/-- `QVariant::toInt` of a column. -/
def Cell.toInt : Cell → Int
  | .integer n => n.bmod (2 ^ 32)
  | .real q => (qRound64 q).bmod (2 ^ 32)
  | .text s => if inInt32 (stringToLongLong s) then stringToLongLong s else 0

/-- SQLite's conversion of a text on its way into a column of INTEGER affinity:
a text that reads as a number becomes that number. -/
structure Sqlite where
  integerAffinity : String → Cell

/-- A digit reads as a number. -/
def Sqlite.ReadsDigits (sqlite : Sqlite) : Prop :=
  ∀ n : Nat, n < 10 → sqlite.integerAffinity (toString n) = .integer n

/-- A row of `messages`, without its primary key. -/
structure CachedMessage where
  conversationId : Int
  senderId : Int
  senderUsername : String
  contentEnc : String
  contentType : String
  status : String
  statusRank : Int
  undecryptable : Cell
  clientMessageId : String
  createdAt : String
  editedAt : String := ""
  deleted : Int := 0
  deriving DecidableEq, Repr

/-- A `LocalStore`: whether it is open, its messages by `message_id`, and the
`unread_count` of its conversations by `conversation_id`. -/
structure LocalStore where
  opened : Bool
  messages : IntMap CachedMessage
  unreadCounts : IntMap Int := .empty

/-- `text` of LocalStore.cpp: a missing string reads as the fallback. -/
def text (msg : Json) (key fallback : String) : String := (msg.value key).toStr fallback

/-- `statusRank`. -/
def statusRank (status : String) : Int :=
  if status = "sent" then 1
  else if status = "delivered" then 2
  else if status = "read" then 3
  else 0

/-- `LocalStore::loadMessageContent`. -/
def LocalStore.loadMessageContent (cipher : TextCipher) (store : LocalStore) (messageId : Int) :
    String :=
  if !store.opened || messageId ≤ 0 then ""
  else
    match store.messages.find messageId with
    | none => ""
    | some row =>
        if row.undecryptable.toInt ≠ 0 then ""
        else cipher.decryptText row.contentEnc

section upsert

variable (qt : Qt) (sqlite : Sqlite) (cipher : TextCipher)

/-- `markUndecryptable` of `upsertMessage`: the sender of the message says so, or
its content is still a ciphertext. -/
def markUndecryptable (msg : Json) : Bool :=
  let content := (msg.value "content").toStr ""
  (msg.value "undecryptable").toBool || E2eeCrypto.looksLikeEnvelope qt content
    || GroupE2eeCrypto.looksLikeGroupMessage qt content
    || GroupE2eeCrypto.looksLikeDistribution qt content

/-- The content `upsertMessage` stores: cleared where it is not readable. -/
def readableContent (msg : Json) : String :=
  if markUndecryptable qt msg then "" else (msg.value "content").toStr ""

/-- The row `excluded` of the statement. Its columns end in status, status_rank,
undecryptable, client_message_id, created_at; the values bound to the last four
places are the flag, the client's id, the time and the rank. -/
def boundRow (msg : Json) (content enc : String) : CachedMessage where
  conversationId := (msg.value "conversationId").toLongLong
  senderId := (msg.value "senderId").toLongLong
  senderUsername := text msg "senderUsername" ""
  contentEnc := enc
  contentType := text msg "contentType" "text"
  status := text msg "status" "sent"
  statusRank := if markUndecryptable qt msg ∧ content = "" then 1 else 0
  undecryptable := sqlite.integerAffinity (text msg "clientMessageId" "")
  clientMessageId := text msg "createdAt" ""
  createdAt := toString (statusRank ((msg.value "status").toStr ""))

/-- `ON CONFLICT(message_id) DO UPDATE`. -/
def CachedMessage.onConflict (old excluded : CachedMessage) : CachedMessage :=
  let forward := excluded.contentEnc ≠ "" ∧ old.statusRank ≤ excluded.statusRank
  { old with
    conversationId := excluded.conversationId
    senderId := excluded.senderId
    senderUsername := excluded.senderUsername
    contentEnc := if excluded.contentEnc ≠ "" then excluded.contentEnc else old.contentEnc
    contentType := excluded.contentType
    status := if forward then excluded.status else old.status
    statusRank := if forward then excluded.statusRank else old.statusRank
    undecryptable := if excluded.contentEnc ≠ "" then .integer 0 else old.undecryptable
    clientMessageId := excluded.clientMessageId
    createdAt := excluded.createdAt }

/-- The upsert statement for one `message_id`. -/
def upsertRow (excluded : CachedMessage) : Option CachedMessage → CachedMessage
  | none => excluded
  | some old => old.onConflict excluded

/-- `LocalStore::upsertMessage` under the random iv `r`. -/
def LocalStore.upsertMessage (r : Nat) (msg : Json) (store : LocalStore) : Bool × LocalStore :=
  let messageId := (msg.value "messageId").toLongLong
  let conversationId := (msg.value "conversationId").toLongLong
  if !store.opened then (false, store)
  else if messageId ≤ 0 ∨ conversationId ≤ 0 then (false, store)
  else
    let content := readableContent qt msg
    if content = "" ∧ store.loadMessageContent cipher messageId ≠ "" then (true, store)
    else
      let enc := cipher.encryptText r content
      if content ≠ "" ∧ enc = "" then (false, store)
      else
        let row := upsertRow (boundRow qt sqlite msg content enc) (store.messages.find messageId)
        (true, { store with messages := store.messages.insert messageId row })

end upsert

/-- `LocalStore::updateMessageStatus`, which writes the status and its rank
whatever they were. -/
def LocalStore.updateMessageStatus (messageId : Int) (status : String) (store : LocalStore) :
    Bool × LocalStore :=
  if !store.opened || messageId ≤ 0 || status = "" then (false, store)
  else
    (true, { store with
      messages := store.messages.update (fun id _ => id == messageId) fun row =>
        { row with status := status, statusRank := statusRank status } })

/-- `LocalStore::updateMessageContent` under the random iv `r`. -/
def LocalStore.updateMessageContent (cipher : TextCipher) (r : Nat) (messageId : Int)
    (plaintext editedAt : String) (store : LocalStore) : Bool × LocalStore :=
  if !store.opened || messageId ≤ 0 then (false, store)
  else
    let enc := cipher.encryptText r plaintext
    if enc = "" ∧ plaintext ≠ "" then (false, store)
    else
      (true, { store with
        messages := store.messages.update (fun id _ => id == messageId) fun row =>
          { row with contentEnc := enc, undecryptable := .integer 0, editedAt } })

/-- `LocalStore::markMessageEdited`. -/
def LocalStore.markMessageEdited (messageId : Int) (editedAt : String) (store : LocalStore) :
    Bool × LocalStore :=
  if !store.opened || messageId ≤ 0 then (false, store)
  else
    (true, { store with
      messages := store.messages.update (fun id _ => id == messageId) fun row =>
        { row with editedAt } })

/-- `LocalStore::markMessageDeleted`. -/
def LocalStore.markMessageDeleted (messageId : Int) (store : LocalStore) : Bool × LocalStore :=
  if !store.opened || messageId ≤ 0 then (false, store)
  else
    (true, { store with
      messages := store.messages.update (fun id _ => id == messageId) fun row =>
        { row with contentEnc := "", undecryptable := .integer 0, deleted := 1 } })

/-- `LocalStore::markConversationRead`: the peer's messages up to `readMessageId`
become read, and the unread count is how many of the peer's follow it. -/
def LocalStore.markConversationRead (conversationId readMessageId selfUserId : Int)
    (store : LocalStore) : Bool × LocalStore :=
  if !store.opened || conversationId ≤ 0 || readMessageId ≤ 0 then (false, store)
  else
    let messages := store.messages.update
      (fun id row => row.conversationId == conversationId && id ≤ readMessageId
        && row.senderId != selfUserId && row.statusRank < 3)
      fun row => { row with status := "read", statusRank := 3 }
    let unread := messages.entries.countP fun e =>
      e.2.conversationId == conversationId && e.2.senderId != selfUserId && readMessageId < e.1
    (true, { store with
      messages
      unreadCounts := store.unreadCounts.update (fun id _ => id == conversationId) fun _ => unread })

/-- One element of `loadMessages`. -/
def loadedMessage (cipher : TextCipher) (messageId : Int) (row : CachedMessage) : Json :=
  let content := cipher.decryptText row.contentEnc
  let body :=
    if row.deleted ≠ 0 then [("content", .str ""), ("deleted", .bool true)]
    else if content ≠ "" then [("content", .str content)]
    else [("content", .str ""), ("undecryptable", .bool true)]
  let edited :=
    if row.editedAt ≠ "" then [("edited", .bool true), ("editedAt", .str row.editedAt)] else []
  .obj ([ ("messageId", .int messageId), ("conversationId", .int row.conversationId)
        , ("senderId", .int row.senderId), ("senderUsername", .str row.senderUsername)] ++ body ++
    [ ("contentType", .str row.contentType), ("status", .str row.status)
    , ("createdAt", .str row.createdAt) ] ++ edited)

/-- `LocalStore::loadMessages`: the newest `limit` rows of a conversation, the
oldest of them first. -/
def LocalStore.loadMessages (cipher : TextCipher) (store : LocalStore) (conversationId : Int)
    (limit : Nat) : List Json :=
  if !store.opened || conversationId ≤ 0 then []
  else
    let rows := store.messages.entries.filter fun e => e.2.conversationId == conversationId
    (rows.reverse.take limit).reverse.map fun e => loadedMessage cipher e.1 e.2

/-! ## The storage cipher is correct -/

section

variable {qt : Qt} {crypto : Crypto} {storageKey : Bytes} {iv : Nat → Bytes}

/-- What the cipher relies on: base64 round trips and has no colon, and AES-GCM
opens what it sealed, whose text is not shorter than the tag. -/
structure StorageAead (qt : Qt) (crypto : Crypto) (storageKey : Bytes) (iv : Nat → Bytes) :
    Prop where
  key : storageKey.length = storageKeySize
  iv : ∀ r, (iv r).length = E2eeCrypto.gcmIvSize
  base64 : ∀ bytes, qt.fromBase64 (qt.toBase64 bytes) = bytes
  colon : ∀ bytes, ':' ∉ (qt.toBase64 bytes).toList
  tag : ∀ iv plaintext, E2eeCrypto.gcmTagSize ≤ (crypto.gcmSeal storageKey iv plaintext).length
  opens : ∀ iv plaintext,
    crypto.gcmOpen storageKey iv (crypto.gcmSeal storageKey iv plaintext) = some plaintext

/-- **The source's text encryption is correct** where AES-GCM and base64 are. -/
theorem storageCipher_correct (h : StorageAead qt crypto storageKey iv) :
    (storageCipher qt crypto storageKey iv).Correct where
  opens := by
    intro r plaintext _
    have hseal : E2eeCrypto.aesGcmEncrypt crypto storageKey (iv r) (toUtf8 plaintext) =
        some (iv r, crypto.gcmSeal storageKey (iv r) (toUtf8 plaintext)) := if_pos h.key
    have hopen : E2eeCrypto.aesGcmDecrypt crypto storageKey (iv r)
        (crypto.gcmSeal storageKey (iv r) (toUtf8 plaintext)) = toUtf8 plaintext := by
      unfold E2eeCrypto.aesGcmDecrypt
      rw [if_pos ⟨h.key, h.iv r, h.tag _ _⟩, h.opens]
      rfl
    have htag := h.tag (iv r) (toUtf8 plaintext)
    have hiv := h.iv r
    unfold storageCipher
    dsimp only
    rw [if_neg (not_not.mpr h.key), hseal]
    dsimp only
    generalize hct : crypto.gcmSeal storageKey (iv r) (toUtf8 plaintext) = ct at htag hopen
    have hparts : (cipherPrefix ++ qt.toBase64 (iv r) ++ ":" ++ qt.toBase64 ct).toList =
        cipherPrefix.toList ++ ((qt.toBase64 (iv r)).toList ++ ':' :: (qt.toBase64 ct).toList) := by
      simp only [String.toList_append, List.append_assoc]
      rfl
    rw [if_neg (by simp [h.key]), hparts, ← String.length_toList, List.drop_left,
      List.splitOn_append_cons_self_of_not_mem (h.colon _), List.splitOn_eq_singleton (h.colon _)]
    dsimp only
    rw [String.ofList_toList, String.ofList_toList, h.base64, h.base64, if_neg, hopen,
      fromUtf8_toUtf8]
    rintro (hempty | hempty)
    · rw [hempty] at hiv
      cases hiv
    · rw [hempty] at htag
      cases htag
  empty := by
    unfold storageCipher
    dsimp only
    rw [if_pos (.inl rfl)]

end

end XYChat.Client
