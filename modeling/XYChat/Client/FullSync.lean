import XYChat.Client.EventCursor
import XYChat.Client.Transparency

/-!
# Deletions and edits in a full sync

A page of `SyncMessages` brings messages as they are now, with marks for those that
were edited or deleted. The client decrypts each of them unless it finds a text for
it in one of its caches, and upserts it; the marks are not written. What is shown
afterwards is right exactly where the store and the caches were right before.
-/

namespace XYChat.Client

open Lib

/-! ## The handler -/

/-- The client as the handler sees it: the keys of the device, which decryption may
use up, the map of decrypted texts in memory, the table `decrypt_cache`, and the
store. -/
structure SyncClient (κ : Type) where
  keys : κ
  memory : IntMap String := .empty
  table : IntMap String := .empty
  store : LocalStore

namespace SyncClient

variable {κ : Type} (qt : Qt) (sqlite : Sqlite) (cipher : TextCipher)

/-- `LocalStore::loadDecryptedContent`. -/
def loadDecryptedContent (s : SyncClient κ) (messageId : Int) : String :=
  if s.store.opened = false ∨ messageId ≤ 0 then ""
  else
    match s.table.find messageId with
    | none => ""
    | some enc => cipher.decryptText enc

/-- `LocalStore::saveDecryptedContent` under the random iv `r`. -/
def saveDecryptedContent (r : Nat) (messageId : Int) (plaintext : String) (s : SyncClient κ) :
    SyncClient κ :=
  if s.store.opened = false ∨ messageId ≤ 0 ∨ plaintext = "" then s
  else if cipher.encryptText r plaintext = "" then s
  else { s with table := s.table.insert messageId (cipher.encryptText r plaintext) }

/-- The map in memory with one more text; it is emptied where it outgrows its
limit. -/
def remember (messageId : Int) (plain : String) (s : SyncClient κ) : SyncClient κ :=
  let memory := s.memory.insert messageId plain
  { s with memory := if Memory.decryptCacheLimit < memory.size then .empty else memory }

/-- `NetworkManager::decryptMessageObject` on a private or a group message.
`decrypt` is what `decryptIncomingContent` or `decryptGroupMessageObject` gets out of
the message with the keys, and the keys it leaves. -/
def decryptMessageObject (decrypt : κ → Json → Option String × κ) (r : Nat) (msg : Json)
    (s : SyncClient κ) : SyncClient κ × Json :=
  let messageId := (msg.value "messageId").toLongLong
  match if 0 < messageId then s.memory.find messageId else none with
  | some cached => (s, msg.setMember "content" (.str cached))
  | none =>
      let cached := s.loadDecryptedContent cipher messageId
      if cached ≠ "" then
        ({ s with memory := s.memory.insert messageId cached },
          msg.setMember "content" (.str cached))
      else
        let (plain, keys) := decrypt s.keys msg
        let s := { s with keys }
        match plain with
        | none => (s, (msg.setMember "content" (.str "")).setMember "undecryptable" (.bool true))
        | some plain =>
            (if 0 < messageId then
                (s.remember messageId plain).saveDecryptedContent cipher r messageId plain
              else s,
              msg.setMember "content" (.str plain))

/-- `LocalStore::upsertMessage`, which puts a readable content into the table of
decrypted texts too. -/
def upsertMessage (r : Nat) (msg : Json) (s : SyncClient κ) : SyncClient κ :=
  let stored := s.store.upsertMessage qt sqlite cipher r msg
  let s := { s with store := stored.2 }
  if stored.1 = true ∧ readableContent qt msg ≠ "" then
    s.saveDecryptedContent cipher (r + 1) (msg.value "messageId").toLongLong
      (readableContent qt msg)
  else s

/-- One turn of the loop of `handleSyncMessagesResponse`, whose random ivs begin at
`x.1`. A distribution is processed, which `install` says of the keys, and not
stored. -/
def syncMessage (decrypt : κ → Json → Option String × κ) (install : κ → Json → κ)
    (s : SyncClient κ) (x : Nat × Json) : SyncClient κ :=
  if isDistribution qt x.2 then { s with keys := install s.keys x.2 }
  else
    let (s, msg) := s.decryptMessageObject cipher decrypt x.1 x.2
    s.upsertMessage qt sqlite cipher (x.1 + 1) msg

end SyncClient

/-- `NetworkManager::handleSyncMessagesResponse` takes the messages of its page one
after the other. -/
def syncMachine {κ : Type} (qt : Qt) (sqlite : Sqlite) (cipher : TextCipher)
    (decrypt : κ → Json → Option String × κ) (install : κ → Json → κ) :
    Machine (SyncClient κ) (Nat × Json) where
  init _ := True
  step := SyncClient.syncMessage qt sqlite cipher decrypt install

/-! ## What should be shown -/

/-- `loadMessages` shows the message so. -/
def ShownAs (cipher : TextCipher) (store : LocalStore) (messageId : Int) (P : Json → Prop) :
    Prop :=
  ∃ conversationId limit, ∃ shown ∈ store.loadMessages cipher conversationId limit,
    shown.value "messageId" = .int messageId ∧ P shown

/-- **Shown as it is** on this device: a message of the page, whose content decrypts on this
device to `text`. -/
structure Survives (cipher : TextCipher) (store : LocalStore) (msg : Json)
    (text : Option String) : Prop where
  deleted : (msg.value "deleted").toBool = true →
    ShownAs cipher store (msg.value "messageId").toLongLong fun shown =>
      (shown.value "deleted").toBool = true ∧ shown.value "content" = .str ""
  edited : (msg.value "edited").toBool = true →
    ShownAs cipher store (msg.value "messageId").toLongLong fun shown =>
      (shown.value "editedAt").toStr "" = (msg.value "editedAt").toStr "" ∧
        ∀ plain ∈ text, plain ≠ "" → shown.value "content" = .str plain

/-- A message as the server lists it: with ids, with a time where it was edited, and
without the client's own mark. -/
structure Served (msg : Json) : Prop where
  messageId : 0 < (msg.value "messageId").toLongLong
  conversationId : 0 < (msg.value "conversationId").toLongLong
  editedAt : (msg.value "edited").toBool = true → (msg.value "editedAt").toStr "" ≠ ""
  unmarked : (msg.value "undecryptable").toBool = false

/-- No row is without its conversation; `upsertMessage` stores none. -/
def Filed (store : LocalStore) : Prop :=
  ∀ messageId, ∀ row ∈ store.messages.find messageId, 0 < row.conversationId

section

variable {κ : Type} (qt : Qt) (sqlite : Sqlite) (cipher : TextCipher)
  (decrypt : κ → Json → Option String × κ) (install : κ → Json → κ)

/-- The messages of a page that are to be shown, with what each content decrypts to
when it is its turn. -/
def readings (s : SyncClient κ) : List (Nat × Json) → List (Json × Option String)
  | [] => []
  | x :: rest =>
      let others := readings (s.syncMessage qt sqlite cipher decrypt install x) rest
      if isDistribution qt x.2 then others else (x.2, (decrypt s.keys x.2).1) :: others

/-- The text a client has for a message without decrypting it. -/
def SyncClient.cached (s : SyncClient κ) (messageId : Int) : Option String :=
  match s.memory.find messageId with
  | some text => some text
  | none =>
      let stored := s.loadDecryptedContent cipher messageId
      if stored ≠ "" then some stored else none

/-- The text, if the store would keep it. -/
def readableText (text : String) : String := if looksLikeCiphertext qt text then "" else text

/-- The client is already right about a message: the store is open, a deleted one has
a row that says so, an edited one has a row with its edit time; and where it
decrypts, that row is not deleted, no cache has another readable text, and if none
has a readable one, the row has the new text. -/
def Anticipates (s : SyncClient κ) (x : Nat × Json) : Prop :=
  isDistribution qt x.2 = false →
    let messageId := (x.2.value "messageId").toLongLong
    let row := s.store.messages.find messageId
    ((x.2.value "deleted").toBool = true →
      s.store.opened = true ∧ ∃ old ∈ row, old.deleted ≠ 0) ∧
    ((x.2.value "edited").toBool = true →
      s.store.opened = true ∧ ∃ old ∈ row, old.editedAt = (x.2.value "editedAt").toStr "" ∧
        ∀ plain ∈ (decrypt s.keys x.2).1, plain ≠ "" → old.deleted = 0 ∧
          let held := readableText qt ((s.cached cipher messageId).getD plain)
          (held ≠ "" → held = plain) ∧ (held = "" → cipher.decryptText old.contentEnc = plain))

end

/-! ## One message -/

section

variable {κ : Type} {qt : Qt} {sqlite : Sqlite} {cipher : TextCipher}
  {decrypt : κ → Json → Option String × κ} {install : κ → Json → κ}

theorem loadedMessage_deleted (messageId : Int) (row : CachedMessage) :
    ((loadedMessage cipher messageId row).value "deleted").toBool = decide (row.deleted ≠ 0) := by
  unfold loadedMessage
  dsimp only
  split_ifs <;> simp_all [Json.value, List.lookup_cons, List.lookup_nil, Json.toBool]

theorem loadedMessage_editedAt (messageId : Int) (row : CachedMessage) :
    ((loadedMessage cipher messageId row).value "editedAt").toStr "" = row.editedAt := by
  unfold loadedMessage
  dsimp only
  split_ifs <;> simp_all [Json.value, List.lookup_cons, List.lookup_nil, Json.toStr]

/-- What is readable of a message whose content was replaced. -/
theorem readableContent_setContent {msg : Json} (hserved : Served msg) (text : String) :
    readableContent qt (msg.setMember "content" (.str text)) = readableText qt text := by
  have hcontent : (msg.setMember "content" (.str text)).value "content" = .str text :=
    Json.value_setMember_self (isObject_of_messageId hserved.messageId)
  unfold readableContent markUndecryptable readableText looksLikeCiphertext
  rw [hcontent, Json.value_setMember_of_ne (by decide), hserved.unmarked]
  rfl

/-- A text a cache has for the message, or else what its content decrypts to, where
the store would keep it. -/
def SyncClient.decryptedText (qt : Qt) (cipher : TextCipher)
    (decrypt : κ → Json → Option String × κ) (s : SyncClient κ) (msg : Json) : String :=
  match s.cached cipher (msg.value "messageId").toLongLong with
  | some text => readableText qt text
  | none => (((decrypt s.keys msg).1).map (readableText qt)).getD ""

theorem decryptedText_of_opens {s : SyncClient κ} {msg : Json} {plain : String}
    (h : plain ∈ (decrypt s.keys msg).1) :
    s.decryptedText qt cipher decrypt msg =
      readableText qt ((s.cached cipher (msg.value "messageId").toLongLong).getD plain) := by
  unfold SyncClient.decryptedText
  rw [Option.mem_def.mp h]
  cases s.cached cipher (msg.value "messageId").toLongLong <;> rfl

/-- **Decrypting a message** leaves its ids and the store, and what is readable then
is a text a cache has or else what its content decrypts to. -/
theorem decryptMessageObject_readable {s : SyncClient κ} {r : Nat} {msg : Json}
    (hserved : Served msg) :
    let done := s.decryptMessageObject cipher decrypt r msg
    done.1.store = s.store ∧ done.2.value "messageId" = msg.value "messageId" ∧
      done.2.value "conversationId" = msg.value "conversationId" ∧
      readableContent qt done.2 = s.decryptedText qt cipher decrypt msg := by
  have hid := hserved.messageId
  have hset : ∀ text : String,
      (msg.setMember "content" (.str text)).value "messageId" = msg.value "messageId" ∧
        (msg.setMember "content" (.str text)).value "conversationId" =
          msg.value "conversationId" := fun text =>
    ⟨Json.value_setMember_of_ne (by decide), Json.value_setMember_of_ne (by decide)⟩
  unfold SyncClient.decryptMessageObject SyncClient.decryptedText SyncClient.cached
  dsimp only
  rw [if_pos hid]
  cases hmemory : s.memory.find (msg.value "messageId").toLongLong with
  | some text => exact ⟨rfl, (hset text).1, (hset text).2, readableContent_setContent hserved text⟩
  | none =>
      dsimp only
      by_cases hstored : s.loadDecryptedContent cipher (msg.value "messageId").toLongLong ≠ ""
      · rw [if_pos hstored, if_pos hstored]
        exact ⟨rfl, (hset _).1, (hset _).2, readableContent_setContent hserved _⟩
      · rw [if_neg hstored, if_neg hstored]
        cases hplain : (decrypt s.keys msg).1 with
        | none =>
            dsimp only
            have hmarked : ((msg.setMember "content" (.str "")).setMember "undecryptable"
                (.bool true)).value "undecryptable" = .bool true :=
              Json.value_setMember_self (by
                rw [Json.isObject_setMember]
                exact isObject_of_messageId hid)
            refine ⟨rfl, ?_, ?_, ?_⟩
            · rw [Json.value_setMember_of_ne (by decide), (hset _).1]
            · rw [Json.value_setMember_of_ne (by decide), (hset _).2]
            · refine if_pos ?_
              unfold markUndecryptable
              rw [hmarked]
              rfl
        | some text =>
            refine ⟨?_, (hset _).1, (hset _).2, readableContent_setContent hserved _⟩
            dsimp only
            rw [if_pos hid]
            unfold SyncClient.saveDecryptedContent SyncClient.remember
            split_ifs <;> rfl

/-- What the handler does to the store. -/
theorem syncMessage_store {s : SyncClient κ} {x : Nat × Json}
    (hmessage : isDistribution qt x.2 = false) (hserved : Served x.2) :
    (s.syncMessage qt sqlite cipher decrypt install x).store =
      (s.store.upsertMessage qt sqlite cipher (x.1 + 1)
        (s.decryptMessageObject cipher decrypt x.1 x.2).2).2 := by
  have hstore := (@decryptMessageObject_readable κ qt cipher decrypt s x.1 x.2 hserved).1
  unfold SyncClient.syncMessage
  rw [if_neg (by rw [hmessage]; decide)]
  dsimp only
  unfold SyncClient.upsertMessage SyncClient.saveDecryptedContent
  dsimp only
  rw [hstore]
  split_ifs <;> rfl

theorem syncMessage_opened {s : SyncClient κ} {x : Nat × Json} (hserved : Served x.2) :
    (s.syncMessage qt sqlite cipher decrypt install x).store.opened = s.store.opened := by
  cases hmessage : isDistribution qt x.2 with
  | true =>
      unfold SyncClient.syncMessage
      rw [if_pos hmessage]
  | false =>
      rw [syncMessage_store hmessage hserved]
      exact upsertMessage_opened _ _ _

/-- The rows of other messages stay. -/
theorem syncMessage_find_of_ne {s : SyncClient κ} {x : Nat × Json} (hserved : Served x.2)
    {messageId : Int} (h : messageId ≠ (x.2.value "messageId").toLongLong) :
    (s.syncMessage qt sqlite cipher decrypt install x).store.messages.find messageId =
      s.store.messages.find messageId := by
  cases hmessage : isDistribution qt x.2 with
  | true =>
      unfold SyncClient.syncMessage
      rw [if_pos hmessage]
  | false =>
      obtain ⟨-, hid, -, -⟩ := @decryptMessageObject_readable κ qt cipher decrypt s x.1 x.2 hserved
      rw [syncMessage_store hmessage hserved]
      refine upsertMessage_find_of_ne ?_
      rw [hid]
      exact h

/-- **The row the handler leaves** of a message. -/
theorem syncMessage_row (hcipher : cipher.Correct) {s : SyncClient κ} {x : Nat × Json}
    (hopen : s.store.opened = true) (hfiled : Filed s.store)
    (hmessage : isDistribution qt x.2 = false) (hserved : Served x.2) :
    let old := s.store.messages.find (x.2.value "messageId").toLongLong
    let text := s.decryptedText qt cipher decrypt x.2
    ∃ row, (s.syncMessage qt sqlite cipher decrypt install x).store.messages.find
        (x.2.value "messageId").toLongLong = some row ∧ 0 < row.conversationId ∧
      row.deleted = (old.map (·.deleted)).getD 0 ∧
      row.editedAt = (old.map (·.editedAt)).getD "" ∧
      cipher.decryptText row.contentEnc = if text = "" then storedText cipher old else text := by
  obtain ⟨-, hid, hconversation, hreadable⟩ :=
    @decryptMessageObject_readable κ qt cipher decrypt s x.1 x.2 hserved
  rw [syncMessage_store hmessage hserved]
  obtain ⟨row, hrow, hconv, hdeleted, hedited, hcontent⟩ := @upsertMessage_row qt sqlite cipher
    hcipher s.store (x.1 + 1) (s.decryptMessageObject cipher decrypt x.1 x.2).2 hopen
    (hid ▸ hserved.messageId) (hconversation ▸ hserved.conversationId)
  rw [hid] at hrow hconv hdeleted hedited hcontent
  rw [hreadable] at hconv hcontent
  refine ⟨row, hrow, ?_, hdeleted, hedited, hcontent⟩
  rcases hconv with hconv | ⟨-, hold⟩
  · rw [hconv, hconversation]
    exact hserved.conversationId
  · exact hfiled _ row hold

/-- A closed store stays as it is. -/
theorem syncMessage_closed {s : SyncClient κ} {x : Nat × Json} (hclosed : s.store.opened = false)
    (hserved : Served x.2) :
    (s.syncMessage qt sqlite cipher decrypt install x).store = s.store := by
  cases hmessage : isDistribution qt x.2 with
  | true =>
      unfold SyncClient.syncMessage
      rw [if_pos hmessage]
  | false =>
      rw [syncMessage_store hmessage hserved]
      unfold LocalStore.upsertMessage
      dsimp only
      rw [if_pos (by simp [hclosed])]

theorem syncMessage_filed (hcipher : cipher.Correct) {s : SyncClient κ} {x : Nat × Json}
    (hfiled : Filed s.store) (hserved : Served x.2) :
    Filed (s.syncMessage qt sqlite cipher decrypt install x).store := by
  intro messageId row hrow
  by_cases hclosed : s.store.opened = false
  · rw [syncMessage_closed hclosed hserved] at hrow
    exact hfiled messageId row hrow
  by_cases hother : messageId ≠ (x.2.value "messageId").toLongLong
  · rw [syncMessage_find_of_ne hserved hother] at hrow
    exact hfiled messageId row hrow
  cases hmessage : isDistribution qt x.2 with
  | true =>
      unfold SyncClient.syncMessage at hrow
      rw [if_pos hmessage] at hrow
      exact hfiled messageId row hrow
  | false =>
      obtain ⟨row', hrow', hconversation, -⟩ := @syncMessage_row κ qt sqlite cipher decrypt install
        hcipher s x (by simpa using hclosed) hfiled hmessage hserved
      rw [not_not.mp hother, hrow'] at hrow
      cases hrow
      exact hconversation

/-! ## What is shown afterwards -/

theorem shownAs_iff {store : LocalStore} {messageId : Int} {P : Json → Prop} :
    ShownAs cipher store messageId P ↔ store.opened = true ∧
      ∃ row, store.messages.find messageId = some row ∧ 0 < row.conversationId ∧
        P (loadedMessage cipher messageId row) := loads_iff

/-- What is shown of a message depends on its row. -/
theorem survives_congr {store store' : LocalStore} {msg : Json} {text : Option String}
    (hopen : store'.opened = store.opened)
    (hfind : store'.messages.find (msg.value "messageId").toLongLong =
      store.messages.find (msg.value "messageId").toLongLong) :
    Survives cipher store' msg text ↔ Survives cipher store msg text := by
  have hshown : ∀ P, ShownAs cipher store' (msg.value "messageId").toLongLong P ↔
      ShownAs cipher store (msg.value "messageId").toLongLong P := by
    intro P
    rw [shownAs_iff, shownAs_iff, hopen, hfind]
  constructor
  · exact fun h => ⟨fun hd => (hshown _).mp (h.deleted hd), fun he => (hshown _).mp (h.edited he)⟩
  · exact fun h => ⟨fun hd => (hshown _).mpr (h.deleted hd), fun he => (hshown _).mpr (h.edited he)⟩

/-- The text shown is the new one exactly when nothing else is in its way. -/
private theorem shownText_eq_iff {deleted : Int} {held stored plain : String} (hne : plain ≠ "") :
    (if deleted ≠ 0 then "" else if held = "" then stored else held) = plain ↔
      deleted = 0 ∧ (held ≠ "" → held = plain) ∧ (held = "" → stored = plain) := by
  by_cases hdeleted : deleted = 0
  · rw [if_neg (not_not.mpr hdeleted)]
    by_cases hheld : held = ""
    · rw [if_pos hheld]
      exact ⟨fun h => ⟨hdeleted, fun hne => absurd hheld hne, fun _ => h⟩, fun h => h.2.2 hheld⟩
    · rw [if_neg hheld]
      exact ⟨fun h => ⟨hdeleted, fun _ => h, fun h => absurd h hheld⟩, fun h => h.2.1 hheld⟩
  · rw [if_pos hdeleted]
    exact ⟨fun h => absurd h.symm hne, fun h => absurd h.1 hdeleted⟩

/-- With its row known, what is shown of a message is the row. -/
theorem survives_iff_row {store : LocalStore} {msg : Json} {text : Option String}
    {row : CachedMessage} (hopen : store.opened = true)
    (hrow : store.messages.find (msg.value "messageId").toLongLong = some row)
    (hconversation : 0 < row.conversationId) :
    Survives cipher store msg text ↔
      ((msg.value "deleted").toBool = true → row.deleted ≠ 0) ∧
      ((msg.value "edited").toBool = true → row.editedAt = (msg.value "editedAt").toStr "" ∧
        ∀ plain ∈ text, plain ≠ "" →
          (if row.deleted ≠ 0 then "" else cipher.decryptText row.contentEnc) = plain) := by
  have hshown : ∀ P, ShownAs cipher store (msg.value "messageId").toLongLong P ↔
      P (loadedMessage cipher (msg.value "messageId").toLongLong row) := by
    intro P
    rw [shownAs_iff, hrow]
    constructor
    · rintro ⟨-, row', hrow', -, hP⟩
      cases hrow'
      exact hP
    · exact fun hP => ⟨hopen, row, rfl, hconversation, hP⟩
  constructor
  · intro h
    refine ⟨fun hd => ?_, fun he => ?_⟩
    · have hflag := ((hshown _).mp (h.deleted hd)).1
      rw [loadedMessage_deleted] at hflag
      exact of_decide_eq_true hflag
    · obtain ⟨htime, htext⟩ := (hshown _).mp (h.edited he)
      rw [loadedMessage_editedAt] at htime
      refine ⟨htime, fun plain hplain hne => ?_⟩
      have hcontent := htext plain hplain hne
      rw [loadedMessage_content] at hcontent
      exact Json.str.inj hcontent
  · intro h
    refine ⟨fun hd => (hshown _).mpr ⟨?_, ?_⟩, fun he => (hshown _).mpr ⟨?_, ?_⟩⟩
    · rw [loadedMessage_deleted]
      exact decide_eq_true (h.1 hd)
    · rw [loadedMessage_content, if_pos (h.1 hd)]
    · rw [loadedMessage_editedAt]
      exact (h.2 he).1
    · intro plain hplain hne
      rw [loadedMessage_content]
      exact congrArg Json.str ((h.2 he).2 plain hplain hne)

/-- **Step lemma.** A message is shown as it should be exactly where the client was
right about it already. -/
theorem syncMessage_survives_iff (hcipher : cipher.Correct) {s : SyncClient κ} {x : Nat × Json}
    (hfiled : Filed s.store) (hmessage : isDistribution qt x.2 = false) (hserved : Served x.2) :
    Survives cipher (s.syncMessage qt sqlite cipher decrypt install x).store x.2
        (decrypt s.keys x.2).1 ↔
      Anticipates qt cipher decrypt s x := by
  by_cases hopen : s.store.opened = true
  swap
  · -- a closed store shows nothing
    have hclosed : (s.syncMessage qt sqlite cipher decrypt install x).store.opened ≠ true := by
      rw [syncMessage_opened hserved]
      exact hopen
    constructor
    · intro h _
      exact ⟨fun hd => absurd (shownAs_iff.mp (h.deleted hd)).1 hclosed,
        fun he => absurd (shownAs_iff.mp (h.edited he)).1 hclosed⟩
    · intro h
      exact ⟨fun hd => absurd ((h hmessage).1 hd).1 hopen,
        fun he => absurd ((h hmessage).2 he).1 hopen⟩
  obtain ⟨row, hrow, hconversation, hdeleted, hedited, hcontent⟩ :=
    @syncMessage_row κ qt sqlite cipher decrypt install hcipher s x hopen hfiled hmessage hserved
  have hopened := (@syncMessage_opened κ qt sqlite cipher decrypt install s x hserved).trans hopen
  rw [survives_iff_row hopened hrow hconversation, hdeleted, hedited, hcontent]
  unfold Anticipates
  simp only [hmessage, forall_const]
  cases hold : s.store.messages.find (x.2.value "messageId").toLongLong with
  | none =>
      -- a message without a row is neither deleted nor edited
      have htime := hserved.editedAt
      refine and_congr (imp_congr_right fun hd => ?_) (imp_congr_right fun he => ?_)
      · exact ⟨fun h => absurd rfl h, fun ⟨_, _, hnone, _⟩ => by cases hnone⟩
      · exact ⟨fun h => absurd h.1.symm (htime he), fun ⟨_, _, hnone, _⟩ => by cases hnone⟩
  | some old =>
      refine and_congr (imp_congr_right fun _ => ?_) (imp_congr_right fun _ => ?_)
      · exact ⟨fun h => ⟨hopen, old, rfl, h⟩, fun ⟨_, _, hsome, h⟩ => Option.some.inj hsome ▸ h⟩
      · have htext : ∀ plain ∈ (decrypt s.keys x.2).1, plain ≠ "" →
            ((if old.deleted ≠ 0 then "" else
              if s.decryptedText qt cipher decrypt x.2 = "" then cipher.decryptText old.contentEnc
              else s.decryptedText qt cipher decrypt x.2) = plain ↔
              old.deleted = 0 ∧
                (readableText qt ((s.cached cipher
                  (x.2.value "messageId").toLongLong).getD plain) ≠ "" →
                  readableText qt ((s.cached cipher
                    (x.2.value "messageId").toLongLong).getD plain) = plain) ∧
                (readableText qt ((s.cached cipher
                  (x.2.value "messageId").toLongLong).getD plain) = "" →
                  cipher.decryptText old.contentEnc = plain)) := by
          intro plain hplain hne
          rw [decryptedText_of_opens hplain]
          exact shownText_eq_iff hne
        constructor
        · rintro ⟨htime, h⟩
          exact ⟨hopen, old, rfl, htime,
            fun plain hplain hne => (htext plain hplain hne).mp (h plain hplain hne)⟩
        · rintro ⟨-, old', hsome, htime, h⟩
          cases hsome
          exact ⟨htime, fun plain hplain hne =>
            (htext plain hplain hne).mpr (h plain hplain hne)⟩

/-! ## A page -/

/-- The rest of a page leaves what is shown of another message. -/
theorem syncRun_survives_iff {s : SyncClient κ} {page : List (Nat × Json)} {msg : Json}
    {text : Option String} (hserved : ∀ y ∈ page, Served y.2)
    (hother : ∀ y ∈ page, (msg.value "messageId").toLongLong ≠
      (y.2.value "messageId").toLongLong) :
    Survives cipher ((syncMachine qt sqlite cipher decrypt install).run s page).store msg text ↔
      Survives cipher s.store msg text := by
  induction page generalizing s with
  | nil => exact Iff.rfl
  | cons y page ih =>
      obtain ⟨hy, hpage⟩ := List.forall_mem_cons.mp hserved
      obtain ⟨hne, hrest⟩ := List.forall_mem_cons.mp hother
      refine (ih hpage hrest).trans (survives_congr ?_ ?_)
      · exact syncMessage_opened hy
      · exact syncMessage_find_of_ne hy hne

/-- **After a page** of messages with different ids, deletions and edits are shown
exactly where at the turn of each message the client was right about it already. -/
theorem readings_survive_iff (hcipher : cipher.Correct) {s : SyncClient κ}
    (hfiled : Filed s.store) {page : List (Nat × Json)} (hserved : ∀ x ∈ page, Served x.2)
    (hids : (page.map fun x => (x.2.value "messageId").toLongLong).Nodup) :
    (∀ e ∈ readings qt sqlite cipher decrypt install s page,
      Survives cipher ((syncMachine qt sqlite cipher decrypt install).run s page).store e.1 e.2) ↔
      (syncMachine qt sqlite cipher decrypt install).Along (Anticipates qt cipher decrypt) s
        page := by
  induction page generalizing s with
  | nil => exact ⟨fun _ => trivial, fun _ _ he => by cases he⟩
  | cons x page ih =>
      obtain ⟨hx, hpage⟩ := List.forall_mem_cons.mp hserved
      rw [List.map_cons, List.nodup_cons] at hids
      have hrest := @ih (s.syncMessage qt sqlite cipher decrypt install x)
        (syncMessage_filed hcipher hfiled hx) hpage hids.2
      have hother : ∀ y ∈ page, (x.2.value "messageId").toLongLong ≠
          (y.2.value "messageId").toLongLong := by
        intro y hy heq
        exact hids.1 (heq ▸ List.mem_map.mpr ⟨y, hy, rfl⟩)
      unfold readings
      dsimp only
      cases hmessage : isDistribution qt x.2 with
      | true =>
          rw [if_pos rfl]
          refine hrest.trans ⟨fun h => ⟨fun hm => ?_, h⟩, fun h => h.2⟩
          rw [hmessage] at hm
          cases hm
      | false =>
          rw [if_neg (by decide), List.forall_mem_cons]
          have hhead := @syncMessage_survives_iff κ qt sqlite cipher decrypt install hcipher s x hfiled
            hmessage hx
          exact and_congr ((syncRun_survives_iff hpage hother).trans hhead) hrest

end

/-! ## A page for bob -/

/-- A device without keys: a content decrypts to itself. -/
def openDecrypt (keys : Unit) (msg : Json) : Option String × Unit :=
  (some ((msg.value "content").toStr ""), keys)

/-- A message of alice's as the server lists it. -/
def listedMessage (content : String) (deleted edited : Bool) : Json := .obj
  ([ ("messageId", .int 5), ("conversationId", .int 20), ("senderId", .int 1)
   , ("senderUsername", .str "alice"), ("content", .str content), ("contentType", .str "text")
   , ("status", .str "sent"), ("createdAt", .str "2026-09-05T00:00:00Z")
   , ("deleted", .bool deleted) ] ++
    if edited then [("edited", .bool true), ("editedAt", .str "2026-09-06T00:00:00Z")] else [])

theorem listedMessage_served (content : String) (deleted edited : Bool) :
    Served (listedMessage content deleted edited) := by
  have hid : (0 : Int) < 5 ∧ (0 : Int) < 20 := by decide
  have htime : "2026-09-06T00:00:00Z" ≠ "" := by decide
  cases edited
  · exact { messageId := hid.1
            conversationId := hid.2
            editedAt := fun h => by cases h
            unmarked := rfl }
  · exact { messageId := hid.1
            conversationId := hid.2
            editedAt := fun _ => htime
            unmarked := rfl }

/-- Bob's client with this row for the message and nothing in its caches. -/
def clientWithRow (contentEnc editedAt : String) (deleted : Int) : SyncClient Unit where
  keys := ()
  store :=
    { opened := true
      messages := IntMap.empty.insert 5
        { conversationId := 20, senderId := 1, senderUsername := "alice", contentEnc
          contentType := "text", status := "sent", statusRank := 1, undecryptable := .integer 0
          clientMessageId := "", createdAt := "2026-09-05T00:00:00Z", editedAt, deleted } }

theorem clientWithRow_filed (contentEnc editedAt : String) (deleted : Int) :
    Filed (clientWithRow contentEnc editedAt deleted).store := by
  intro messageId row hrow
  have hmem := IntMap.mem_of_find hrow
  cases List.mem_singleton.mp hmem
  exact (by decide : (0 : Int) < 20)

/-- The row has the edit time, and the new text replaces the old one. -/
theorem editedMessage_survives :
    readings noJson digitSqlite plainCipher openDecrypt (fun keys _ => keys)
        (clientWithRow "enc1:hi" "2026-09-06T00:00:00Z" 0) [(0, listedMessage "ho" false true)] =
      [(listedMessage "ho" false true, some "ho")] ∧
    ∀ e ∈ readings noJson digitSqlite plainCipher openDecrypt (fun keys _ => keys)
        (clientWithRow "enc1:hi" "2026-09-06T00:00:00Z" 0) [(0, listedMessage "ho" false true)],
      Survives plainCipher ((syncMachine noJson digitSqlite plainCipher openDecrypt
        (fun keys _ => keys)).run (clientWithRow "enc1:hi" "2026-09-06T00:00:00Z" 0)
          [(0, listedMessage "ho" false true)]).store e.1 e.2 := by
  have hserved : ∀ x ∈ [((0 : Nat), listedMessage "ho" false true)], Served x.2 := by
    intro x hx
    obtain rfl := List.mem_singleton.mp hx
    exact listedMessage_served _ _ _
  refine ⟨rfl, (readings_survive_iff plainCipher_correct (clientWithRow_filed _ _ _) hserved
    (List.nodup_singleton _)).mpr ⟨fun _ => ⟨?_, fun _ => ?_⟩, trivial⟩⟩
  · exact fun h => by cases h
  · refine ⟨rfl, _, rfl, rfl, fun plain hplain _ => ⟨rfl, fun _ => ?_, fun hempty => ?_⟩⟩
    · cases hplain
      decide
    · cases hplain
      exact absurd hempty (by decide)

/-- **The defect**: a message that was deleted on the server is still shown with its
text. -/
theorem deletedMessage_shown :
    ¬∀ e ∈ readings noJson digitSqlite plainCipher openDecrypt (fun keys _ => keys)
        (clientWithRow "enc1:hi" "" 0) [(0, listedMessage "" true false)],
      Survives plainCipher ((syncMachine noJson digitSqlite plainCipher openDecrypt
        (fun keys _ => keys)).run (clientWithRow "enc1:hi" "" 0)
          [(0, listedMessage "" true false)]).store e.1 e.2 := by
  intro h
  have hdeleted := (h _ List.mem_cons_self).deleted (by decide)
  obtain ⟨-, row, hrow, -, hflag, -⟩ := shownAs_iff.mp hdeleted
  rw [loadedMessage_deleted] at hflag
  have hkept : row.deleted = 0 := by
    have hfind : _ = some row := hrow
    cases hfind
    rfl
  rw [hkept] at hflag
  cases hflag

end XYChat.Client
