import Mathlib.Data.List.Perm.Basic
import XYChat.Client.Decryption
import XYChat.Client.Outbox
import XYChat.Common.RatchetAtomicity

/-!
# Receiving group messages

`decryptGroupMessageObject` and the two tables it reads and writes: `sender_keys`,
with the chain key and its iteration, and `sender_key_skipped`, with the message keys
of the iterations that were passed over. Each is written by a statement of its own,
which may fail, and the process may end before either.
-/

namespace XYChat.Client

open Lib
open GroupE2eeCrypto (SkippedKeys Receiver SenderKey between maxSkippedMessageKeys)

/-! ## The skipped keys of an address -/

/-- What the rows of both tables are filed under. -/
structure KeyAddress where
  groupId : Int
  senderUserId : Int
  senderDeviceId : String
  keyId : String
  deriving DecidableEq, Repr

def SenderKeyRow.address (row : SenderKeyRow) : KeyAddress :=
  ⟨row.groupId, row.senderUserId, row.senderDeviceId, row.keyId⟩

/-- A row of `sender_key_skipped`. -/
structure SkippedRow where
  address : KeyAddress
  skippedKeysEnc : String
  deriving DecidableEq, Repr

/-- An address that the statements of both tables take. -/
def KeyAddress.Refused (a : KeyAddress) : Prop :=
  a.groupId ≤ 0 ∨ a.senderUserId ≤ 0 ∨ a.senderDeviceId = "" ∨ a.keyId = ""

instance (a : KeyAddress) : Decidable a.Refused := by
  unfold KeyAddress.Refused
  infer_instance

/-- `QString::toInt`, none for what is not a decimal 32-bit number. -/
def stringToInt? (s : String) : Option Int :=
  let n : Option Int := match (trimmed s).toList with
    | '-' :: cs => (digits? cs).map fun n => -(n : Int)
    | '+' :: cs => (digits? cs).map fun n => (n : Int)
    | cs => (digits? cs).map fun n => (n : Int)
  n.filter inInt32

section

variable (qt : Qt) (cipher : TextCipher)

/-- The object of `saveSkippedMessageKeys`, the keys by their iterations. -/
def skippedMembers (keys : SkippedKeys) : List (String × Json) :=
  keys.entries.map fun e => (toString e.1, .str (qt.toBase64 e.2))

/-- One member in the loop of `loadSkippedMessageKeys`. -/
def readSkippedMember (keys : SkippedKeys) (x : String × Json) : SkippedKeys :=
  let key := qt.fromBase64 (x.2.toStr "")
  match stringToInt? x.1 with
  | none => keys
  | some iteration => if iteration ≤ 0 ∨ key = [] then keys else keys.insert iteration key

def readSkippedKeys : Json → SkippedKeys
  | .obj members => members.foldl (readSkippedMember qt) .empty
  | _ => .empty

/-- `LocalStore::loadSkippedMessageKeys` on an open store. -/
def loadSkippedMessageKeys (a : KeyAddress) (rows : List SkippedRow) : SkippedKeys :=
  if a.Refused then .empty
  else
    match rows.find? (·.address == a) with
    | none => .empty
    | some row =>
        let plain := cipher.decryptText row.skippedKeysEnc
        if plain = "" then .empty else readSkippedKeys qt ((qt.fromJson plain).getD .null)

/-- `LocalStore::saveSkippedMessageKeys` on a usable store; no keys are no row. -/
def saveSkippedMessageKeys (r : Nat) (a : KeyAddress) (keys : SkippedKeys)
    (rows : List SkippedRow) : Option (List SkippedRow) :=
  if a.Refused then none
  else if keys.entries = [] then some (rows.filter (·.address != a))
  else
    let skippedKeysEnc := cipher.encryptText r (qt.toJson (.obj (skippedMembers qt keys)))
    if skippedKeysEnc = "" then none
    else some (rows.filter (·.address != a) ++ [{ address := a, skippedKeysEnc }])

/-! ## The tables -/

/-- Both tables, and the history: the iterations that were decrypted, and those whose
keys the size bound evicted. -/
structure GroupDisk where
  senderKeys : List SenderKeyRow := []
  skipped : List SkippedRow := []
  decrypted : List (KeyAddress × Int) := []
  evicted : List (KeyAddress × Int) := []

namespace GroupDisk

/-- `LocalStore::loadSenderKey` on an open store. -/
def loadSenderKey (a : KeyAddress) (d : GroupDisk) : Option SenderKey :=
  Database.loadSenderKey qt cipher { senderKeys := d.senderKeys } a.groupId a.senderUserId
    a.senderDeviceId a.keyId

def loadSkipped (a : KeyAddress) (d : GroupDisk) : SkippedKeys :=
  loadSkippedMessageKeys qt cipher a d.skipped

/-- `LocalStore::senderUserIdForKey` on an open store; 0 where there is none. -/
def senderUserIdForKey (groupId : Int) (senderDeviceId keyId : String) (d : GroupDisk) : Int :=
  if groupId ≤ 0 ∨ senderDeviceId = "" ∨ keyId = "" then 0
  else
    match (d.senderKeys.filter fun row => row.groupId == groupId
      && row.senderDeviceId == senderDeviceId && row.keyId == keyId).getLast? with
    | none => 0
    | some row => row.senderUserId

end GroupDisk

/-- The writes of `decryptGroupMessageObject`; the first is the history's. -/
inductive GroupWrite where
  | opened (a : KeyAddress) (iteration : Int) (evicted : List Int)
  | plaintext
  | senderKey (a : KeyAddress) (key : SenderKey)
  | skippedKeys (a : KeyAddress) (keys : SkippedKeys)

def GroupDisk.write (e : Outcome) (d : GroupDisk) : GroupWrite → GroupDisk × Bool
  | .opened a iteration evicted =>
      ({ d with
          decrypted := (a, iteration) :: d.decrypted
          evicted := evicted.map (a, ·) ++ d.evicted }, true)
  | .plaintext => (d, e.works)
  | .senderKey a key =>
      match saveSenderKey qt cipher (e.iv, e.iv + 1) a.groupId a.senderUserId a.senderDeviceId
          a.keyId key.chainKey key.publicSigningKey key.privateSigningKey key.iteration
          d.senderKeys with
      | none => (d, false)
      | some rows => if e.works then ({ d with senderKeys := rows }, true) else (d, false)
  | .skippedKeys a keys =>
      match saveSkippedMessageKeys qt cipher e.iv a keys d.skipped with
      | none => (d, false)
      | some rows => if e.works then ({ d with skipped := rows }, true) else (d, false)

def groupMedium : Medium GroupDisk GroupWrite Outcome where
  write w e d := d.write qt cipher e w
  enter d := d

abbrev GroupJob := Job GroupDisk GroupWrite

/-! ## decryptGroupMessageObject -/

/-- The keys that go when the keys passed over on the way to an iteration are added. -/
def evictedKeys (r r' : Receiver) : List Int :=
  if r.iteration < r'.iteration then
    ((between r.iteration r'.iteration).foldl (fun m k => m.insert k []) r.keys).removedKeys
      maxSkippedMessageKeys
  else []

def undecryptable (msg : Json) : Json :=
  (msg.setMember "content" (.str "")).setMember "undecryptable" (.bool true)

variable (crypto : Crypto)

/-- The message opens: its plaintext goes to the caches, then the two tables are
written, the skipped keys only where they were or are any. -/
def keepOpened (a : KeyAddress) (key : SenderKey) (r : Receiver) (iteration : Int) (msg : Json)
    (plain : Bytes) (r' : Receiver) : GroupJob (Json × Bool) := do
  let _ ← .perform (.opened a iteration (evictedKeys r r'))
  if 0 < (msg.value "messageId").toLongLong then
    let _ ← .perform .plaintext
  let _ ← .perform (.senderKey a { key with
    chainKey := r'.chainKey, iteration := r'.iteration, privateSigningKey := [] })
  if r'.keys.entries ≠ [] ∨ r.keys.entries ≠ [] then
    let _ ← .perform (.skippedKeys a r'.keys)
  return (msg.setMember "content" (.str (fromUtf8 plain)), true)

/-- The message is opened under the stored key, where it does open. -/
def openStored (a : KeyAddress) (msg : Json) (encrypted : GroupE2eeCrypto.EncryptedMessage)
    (key : SenderKey) (skippedKeys : SkippedKeys) : GroupJob (Json × Bool) :=
  let r : Receiver :=
    { chainKey := key.chainKey, iteration := key.iteration, skippedKeys := some skippedKeys }
  let result := GroupE2eeCrypto.decryptMessage crypto key.publicSigningKey r encrypted
  if result.1 = [] then return (undecryptable msg, false)
  else keepOpened a key r encrypted.iteration msg result.1 result.2

/-- `NetworkManager::decryptGroupMessageObject`: the message it leaves, and whether it
could be decrypted. -/
def decryptGroupMessageObject (storeOpen : Bool) (msg : Json) : GroupJob (Json × Bool) :=
  match GroupE2eeCrypto.decodeGroupMessage qt ((msg.value "content").toStr "") with
  | none => return (undecryptable msg, false)
  | some (encrypted, senderDeviceId) =>
      if storeOpen = false then return (undecryptable msg, false)
      else do
        let groupId := (msg.value "conversationId").toLongLong
        let named := (msg.value "senderId").toLongLong
        let found ← .query fun d =>
          d.senderUserIdForKey groupId senderDeviceId encrypted.keyId
        let senderUserId := if named ≤ 0 then found else named
        let msg := if named ≤ 0 ∧ 0 < found then msg.setMember "senderId" (.int found) else msg
        let a : KeyAddress := { groupId, senderUserId, senderDeviceId, keyId := encrypted.keyId }
        match ← .query fun d => d.loadSenderKey qt cipher a with
        | none => return (undecryptable msg, false)
        | some key => do
            let skippedKeys ← .query fun d => d.loadSkipped qt cipher a
            openStored crypto a msg encrypted key skippedKeys

end

/-! ## The sender_keys table -/

section

variable {qt : Qt} {cipher : TextCipher} {a b : KeyAddress} {d d' : GroupDisk}

theorem samePrimaryKey_iff {x y : SenderKeyRow} :
    x.samePrimaryKey y = true ↔ x.address = y.address := by
  unfold SenderKeyRow.samePrimaryKey SenderKeyRow.address
  simp [and_assoc]

/-- The columns that a statement compares are the address. -/
theorem columns_eq_address (a : KeyAddress) :
    (fun row : SenderKeyRow => row.groupId == a.groupId && row.senderUserId == a.senderUserId
      && row.senderDeviceId == a.senderDeviceId && row.keyId == a.keyId) =
      fun row => row.address == a := by
  funext row
  obtain ⟨groupId, senderUserId, senderDeviceId, keyId⟩ := a
  rw [Bool.eq_iff_iff]
  simp [SenderKeyRow.address, and_assoc]

/-- What is loaded is what the row of the address says. -/
theorem loadSenderKey_congr
    (h : d'.senderKeys.find? (·.address == a) = d.senderKeys.find? (·.address == a)) :
    d'.loadSenderKey qt cipher a = d.loadSenderKey qt cipher a := by
  unfold GroupDisk.loadSenderKey Database.loadSenderKey
  rw [columns_eq_address]
  dsimp only
  rw [h]

/-- A stored key has a usable address and keys of the right size. -/
theorem loadSenderKey_some {key : SenderKey} (h : d.loadSenderKey qt cipher a = some key) :
    ¬a.Refused ∧ key.chainKey.length = 32 ∧ key.publicSigningKey.length = 32 := by
  unfold GroupDisk.loadSenderKey Database.loadSenderKey at h
  split at h
  · cases h
  rename_i hrefused
  split at h
  · cases h
  dsimp only at h
  split at h
  · cases h
  split at h
  · rename_i hsizes
    cases h
    exact ⟨hrefused, hsizes⟩
  · cases h

/-- The rows after a save. -/
theorem saveSenderKey_replaces {r : Nat × Nat} {key : SenderKey} {rows rows' : List SenderKeyRow}
    (h : saveSenderKey qt cipher r a.groupId a.senderUserId a.senderDeviceId a.keyId key.chainKey
      key.publicSigningKey key.privateSigningKey key.iteration rows = some rows') :
    ∃ row : SenderKeyRow, row.address = a ∧ row.iteration = key.iteration ∧
      row.chainKeyEnc = cipher.encryptText r.1 (qt.toBase64 key.chainKey) ∧ row.chainKeyEnc ≠ "" ∧
      row.publicSigningKey = qt.toBase64 key.publicSigningKey ∧
      rows' = (rows.filter fun old => old.address != a) ++ [row] := by
  unfold saveSenderKey at h
  split at h
  · cases h
  dsimp only at h
  split at h
  · cases h
  rename_i hne
  rw [Option.some.injEq] at h
  refine ⟨{ groupId := a.groupId, senderUserId := a.senderUserId
            senderDeviceId := a.senderDeviceId, keyId := a.keyId
            chainKeyEnc := cipher.encryptText r.1 (qt.toBase64 key.chainKey)
            publicSigningKey := qt.toBase64 key.publicSigningKey
            privateSigningKeyEnc := if key.privateSigningKey = [] then ""
              else cipher.encryptText r.2 (qt.toBase64 key.privateSigningKey)
            iteration := key.iteration }, rfl, rfl, rfl, hne, rfl, h.symm.trans ?_⟩
  congr 1
  refine List.filter_congr fun old _ => ?_
  rw [Bool.eq_iff_iff, Bool.not_eq_true', bne_iff_ne, ← Bool.not_eq_true, samePrimaryKey_iff]
  rfl

/-- Other rows stay when the rows of an address are taken out, -/
theorem find_removed {α : Type} (f : α → KeyAddress) (rows : List α) (hb : b ≠ a) :
    (rows.filter fun old => f old != a).find? (f · == b) = rows.find? (f · == b) := by
  rw [List.find?_filter]
  congr 1
  funext old
  rw [Bool.eq_iff_iff]
  simp only [bne_iff_ne, beq_iff_eq, decide_eq_true_eq]
  constructor
  · exact fun h => h.2
  · rintro rfl
    exact ⟨hb, rfl⟩

/-- and when one is put in their place, -/
theorem find_replaced_of_ne {α : Type} (f : α → KeyAddress) {row : α} (rows : List α)
    (hrow : f row = a) (hb : b ≠ a) :
    ((rows.filter fun old => f old != a) ++ [row]).find? (f · == b) = rows.find? (f · == b) := by
  rw [List.find?_append, find_removed f rows hb, List.find?_cons_of_neg, List.find?_nil,
    Option.or_none]
  rw [hrow]
  simpa using hb.symm

/-- which is then the one that is found. -/
theorem find_replaced_self {α : Type} (f : α → KeyAddress) {row : α} (rows : List α)
    (hrow : f row = a) :
    ((rows.filter fun old => f old != a) ++ [row]).find? (f · == a) = some row := by
  rw [List.find?_append, List.find?_eq_none.mpr, Option.none_or, List.find?_cons_of_pos]
  · simpa using hrow
  · intro old hold
    simpa using (List.mem_filter.mp hold).2

/-- **A saved key is loaded again**, with the private half as it decrypts. -/
theorem loadSenderKey_saved (hc : cipher.Correct)
    (hbase64 : ∀ bytes, qt.fromBase64 (qt.toBase64 bytes) = bytes)
    {r : Nat × Nat} {key : SenderKey} {rows' : List SenderKeyRow}
    (hchain : key.chainKey.length = 32) (hpublic : key.publicSigningKey.length = 32)
    (hsaved : saveSenderKey qt cipher r a.groupId a.senderUserId a.senderDeviceId a.keyId
      key.chainKey key.publicSigningKey key.privateSigningKey key.iteration d.senderKeys =
        some rows') :
    ∃ key', ({ d with senderKeys := rows' } : GroupDisk).loadSenderKey qt cipher a = some key' ∧
      key'.chainKey = key.chainKey ∧ key'.iteration = key.iteration ∧
      key'.publicSigningKey = key.publicSigningKey := by
  obtain ⟨row, haddress, hiteration, henc, hne, hpub, hrows⟩ := saveSenderKey_replaces hsaved
  have hrefused : ¬a.Refused := by
    intro hrefused
    unfold saveSenderKey at hsaved
    rw [if_pos] at hsaved
    · cases hsaved
    · rcases hrefused with h | h | h | h
      · exact .inl h
      · exact .inr (.inl h)
      · exact .inr (.inr (.inl h))
      · exact .inr (.inr (.inr (.inl h)))
  have htext : qt.toBase64 key.chainKey ≠ "" := by
    intro hempty
    rw [henc, hempty] at hne
    exact hne rfl
  have hplain : cipher.decryptText row.chainKeyEnc = qt.toBase64 key.chainKey := by
    rw [henc]
    exact hc.decryptText_encryptText
  have hfind : rows'.find? (·.address == a) = some row := by
    rw [hrows]
    exact find_replaced_self SenderKeyRow.address d.senderKeys haddress
  have hsame : ({ d with senderKeys := rows' } : GroupDisk).loadSenderKey qt cipher a =
      ({ senderKeys := [row] } : GroupDisk).loadSenderKey qt cipher a := by
    refine loadSenderKey_congr ?_
    show rows'.find? (·.address == a) = [row].find? (·.address == a)
    rw [hfind, List.find?_cons_of_pos (by simpa using haddress)]
  rw [hsame]
  have hkeys : row.groupId = a.groupId ∧ row.senderUserId = a.senderUserId ∧
      row.senderDeviceId = a.senderDeviceId ∧ row.keyId = a.keyId := by
    rw [← haddress]
    exact ⟨rfl, rfl, rfl, rfl⟩
  unfold KeyAddress.Refused at hrefused
  unfold GroupDisk.loadSenderKey Database.loadSenderKey
  rw [if_neg hrefused]
  dsimp only
  rw [List.find?_cons_of_pos (by simp [hkeys])]
  dsimp only
  rw [hplain, if_neg htext, hbase64, hpub, hbase64, if_pos ⟨hchain, hpublic⟩]
  exact ⟨_, rfl, rfl, hiteration, rfl⟩

/-! ## The sender_key_skipped table -/

/-- Skipped keys as they are written and read: positive 32-bit iterations, no empty key. -/
def Storable (keys : SkippedKeys) : Prop :=
  ∀ k key, keys.find k = some key → 0 < k ∧ k < 2 ^ 31 ∧ key ≠ []

theorem storable_empty : Storable .empty := by
  intro k key h
  cases h

theorem Storable.insert {keys : SkippedKeys} (h : Storable keys) {k : Int} {key : Bytes}
    (hpos : 0 < k) (hlt : k < 2 ^ 31) (hne : key ≠ []) : Storable (keys.insert k key) := by
  intro j key' hj
  by_cases hjk : j = k
  · subst hjk
    rw [IntMap.find_insert_self] at hj
    cases hj
    exact ⟨hpos, hlt, hne⟩
  · rw [IntMap.find_insert_of_ne hjk] at hj
    exact h j key' hj

/-- The text of the skipped keys reads back, its members in some order. -/
structure SkippedCodec (qt : Qt) : Prop where
  base64 : ∀ bytes, qt.fromBase64 (qt.toBase64 bytes) = bytes
  empty : qt.fromJson "" = none
  members : ∀ keys, ∃ members, qt.fromJson (qt.toJson (.obj (skippedMembers qt keys))) =
    some (.obj members) ∧ members.Perm (skippedMembers qt keys)

theorem digits?_eq {cs : List Char} (hne : cs ≠ []) (hdigits : ∀ c ∈ cs, c.isDigit = true) :
    digits? cs = some (Nat.ofDigitChars 10 cs 0) := by
  have hfold : ∀ (cs : List Char) (n : Nat), (∀ c ∈ cs, c.isDigit = true) →
      cs.foldl (fun acc c => acc.bind fun n =>
        if c.isDigit then some (10 * n + (c.toNat - '0'.toNat)) else none) (some n) =
      some (Nat.ofDigitChars 10 cs n) := by
    intro cs
    induction cs with
    | nil => exact fun n _ => rfl
    | cons c cs ih =>
        intro n hdigits
        obtain ⟨hc, hrest⟩ := List.forall_mem_cons.mp hdigits
        rw [List.foldl_cons, Nat.ofDigitChars_cons]
        dsimp only [Option.bind_some]
        rw [if_pos hc]
        exact ih _ hrest
  unfold digits?
  rw [if_neg (by simpa using hne)]
  exact hfold cs 0 hdigits

theorem isSpace_of_isDigit {c : Char} (h : c.isDigit = true) : isSpace c = false := by
  have hrange : 48 ≤ c.toNat ∧ c.toNat ≤ 57 := by
    simpa [Char.isDigit, Char.le_def, UInt32.le_iff_toNat_le] using h
  unfold isSpace
  simp only [Bool.or_eq_false_iff, Bool.and_eq_false_iff, decide_eq_false_iff_not,
    beq_eq_false_iff_ne]
  omega

theorem trimmed_of_digits {cs : List Char} (h : ∀ c ∈ cs, c.isDigit = true) :
    (trimmed (String.ofList cs)).toList = cs := by
  have hdrop : ∀ cs : List Char, (∀ c ∈ cs, c.isDigit = true) → cs.dropWhile isSpace = cs := by
    intro cs h
    cases cs with
    | nil => rfl
    | cons c cs => rw [List.dropWhile_cons, if_neg (by
        rw [isSpace_of_isDigit (h c List.mem_cons_self)]; decide)]
  unfold trimmed
  rw [String.toList_ofList, String.toList_ofList, hdrop cs h,
    hdrop cs.reverse fun c hc => h c (List.mem_reverse.mp hc), List.reverse_reverse]

/-- A 32-bit number reads back. -/
theorem stringToInt?_toString {k : Int} (hpos : 0 < k) (hlt : k < 2 ^ 31) :
    stringToInt? (toString k) = some k := by
  obtain ⟨n, rfl⟩ := Int.eq_ofNat_of_zero_le hpos.le
  have hdigits : ∀ c ∈ Nat.toDigits 10 n, c.isDigit = true :=
    fun c hc => Nat.isDigit_of_mem_toDigits (by omega) (by omega) hc
  have htext : toString (n : Int) = String.ofList (Nat.toDigits 10 n) :=
    Nat.toString_eq_ofList_toDigits
  have hvalue : digits? (Nat.toDigits 10 n) = some n := by
    rw [digits?_eq Nat.toDigits_ne_nil hdigits, Nat.ofDigitChars_ten_toDigits]
  have hin : inInt32 (n : Int) = true := by
    unfold inInt32
    simp only [Bool.and_eq_true, decide_eq_true_eq]
    omega
  unfold stringToInt?
  rw [htext, trimmed_of_digits hdigits]
  dsimp only
  split
  · rename_i cs heq
    have := hdigits '-' (by rw [heq]; exact List.mem_cons_self)
    cases this
  · rename_i cs heq
    have := hdigits '+' (by rw [heq]; exact List.mem_cons_self)
    cases this
  · rw [hvalue]
    show Option.filter inInt32 (some (n : Int)) = some (n : Int)
    rw [Option.filter_some_pos hin]

/-- The member of an entry of storable keys is read as the entry. -/
theorem readSkippedMember_entry (hbase64 : ∀ bytes, qt.fromBase64 (qt.toBase64 bytes) = bytes)
    {keys : SkippedKeys} (hkeys : Storable keys) {k : Int} {key : Bytes}
    (hentry : (k, key) ∈ keys.entries) (m : SkippedKeys) :
    readSkippedMember qt m (toString k, .str (qt.toBase64 key)) = m.insert k key := by
  obtain ⟨hpos, hlt, hne⟩ := hkeys k key (IntMap.find_eq_some.mpr hentry)
  unfold readSkippedMember
  dsimp only [Json.toStr]
  rw [stringToInt?_toString hpos hlt, hbase64]
  dsimp only
  rw [if_neg]
  rintro (h | h)
  · omega
  · exact hne h

/-- The members of storable keys, in any order, are read as the keys. -/
theorem find_readSkippedKeys (hbase64 : ∀ bytes, qt.fromBase64 (qt.toBase64 bytes) = bytes)
    {keys : SkippedKeys} (hkeys : Storable keys) {members : List (String × Json)}
    (hperm : members.Perm (skippedMembers qt keys)) (k : Int) :
    (readSkippedKeys qt (.obj members)).find k = keys.find k := by
  have hfold : ∀ (members : List (String × Json)) (m : SkippedKeys),
      (∀ x ∈ members, x ∈ skippedMembers qt keys) →
      (members.foldl (readSkippedMember qt) m).find k = keys.find k ∨
        (∀ key, (k, key) ∈ keys.entries → (toString k, Json.str (qt.toBase64 key)) ∉ members) ∧
          (members.foldl (readSkippedMember qt) m).find k = m.find k := by
    intro members
    induction members with
    | nil => exact fun m _ => .inr ⟨fun _ _ h => (nomatch h), rfl⟩
    | cons x members ih =>
        intro m hmembers
        obtain ⟨hx, hrest⟩ := List.forall_mem_cons.mp hmembers
        obtain ⟨⟨k', key'⟩, hentry, rfl⟩ := List.mem_map.mp hx
        rw [List.foldl_cons, readSkippedMember_entry hbase64 hkeys hentry]
        rcases ih (m.insert k' key') hrest with hfound | ⟨hnot, hsame⟩
        · exact .inl hfound
        · by_cases hk : k = k'
          · subst hk
            rw [hsame, IntMap.find_insert_self]
            exact .inl (IntMap.find_eq_some.mpr hentry).symm
          · rw [hsame, IntMap.find_insert_of_ne hk]
            refine .inr ⟨fun key hkey hmem => ?_, rfl⟩
            rcases List.mem_cons.mp hmem with heq | hmem
            · -- two iterations do not have one text
              have hsaid := congrArg (fun x => stringToInt? x.1) heq
              obtain ⟨hpos, hlt, -⟩ := hkeys k key (IntMap.find_eq_some.mpr hkey)
              obtain ⟨hpos', hlt', -⟩ := hkeys k' key' (IntMap.find_eq_some.mpr hentry)
              dsimp only at hsaid
              rw [stringToInt?_toString hpos hlt, stringToInt?_toString hpos' hlt'] at hsaid
              exact hk (Option.some.inj hsaid)
            · exact hnot key hkey hmem
  rcases hfold members .empty fun x hx => hperm.mem_iff.mp hx with hfound | ⟨hnot, hsame⟩
  · exact hfound
  · refine hsame.trans ?_
    cases hfind : keys.find k with
    | none => rfl
    | some key =>
        have hentry := IntMap.find_eq_some.mp hfind
        exact absurd (hperm.mem_iff.mpr (List.mem_map.mpr ⟨(k, key), hentry, rfl⟩)) (hnot key hentry)

/-- Whatever is read is storable. -/
theorem storable_readSkippedKeys (v : Json) : Storable (readSkippedKeys qt v) := by
  have hfold : ∀ (members : List (String × Json)) (m : SkippedKeys), Storable m →
      Storable (members.foldl (readSkippedMember qt) m) := by
    intro members
    induction members with
    | nil => exact fun m hm => hm
    | cons x members ih =>
        intro m hm
        refine ih _ ?_
        unfold readSkippedMember
        dsimp only
        cases hk : stringToInt? x.1 with
        | none => exact hm
        | some k =>
            dsimp only
            split
            · exact hm
            · rename_i hok
              have hin : inInt32 k = true := by
                unfold stringToInt? at hk
                exact (Option.filter_eq_some_iff.mp hk).2
              unfold inInt32 at hin
              simp only [Bool.and_eq_true, decide_eq_true_eq] at hin
              exact hm.insert (by omega) (by omega) fun hnil => hok (.inr hnil)
  cases v with
  | obj members => exact hfold members .empty storable_empty
  | null | bool | int | double | str | arr => exact storable_empty

theorem storable_loadSkipped (a : KeyAddress) (d : GroupDisk) :
    Storable (d.loadSkipped qt cipher a) := by
  unfold GroupDisk.loadSkipped loadSkippedMessageKeys
  split
  · exact storable_empty
  split
  · exact storable_empty
  dsimp only
  split
  · exact storable_empty
  · exact storable_readSkippedKeys _

/-- What is loaded is what the row of the address says. -/
theorem loadSkipped_congr
    (h : d'.skipped.find? (·.address == a) = d.skipped.find? (·.address == a)) :
    d'.loadSkipped qt cipher a = d.loadSkipped qt cipher a := by
  unfold GroupDisk.loadSkipped loadSkippedMessageKeys
  rw [h]

/-- The skipped keys of an address without a row, -/
theorem loadSkippedMessageKeys_none {rows : List SkippedRow}
    (hfind : rows.find? (·.address == a) = none) :
    loadSkippedMessageKeys qt cipher a rows = .empty := by
  unfold loadSkippedMessageKeys
  rw [hfind]
  split <;> rfl

/-- and those of an address with the row that was written for them. -/
theorem find_loadSkippedMessageKeys (hc : cipher.Correct)
    (hbase64 : ∀ bytes, qt.fromBase64 (qt.toBase64 bytes) = bytes) (hempty : qt.fromJson "" = none)
    {keys : SkippedKeys} (hkeys : Storable keys) (ha : ¬a.Refused)
    (hmembers : ∃ members, qt.fromJson (qt.toJson (.obj (skippedMembers qt keys))) =
      some (.obj members) ∧ members.Perm (skippedMembers qt keys))
    {rows : List SkippedRow} {row : SkippedRow} (hfind : rows.find? (·.address == a) = some row)
    {r : Nat} (henc : row.skippedKeysEnc =
      cipher.encryptText r (qt.toJson (.obj (skippedMembers qt keys)))) (k : Int) :
    (loadSkippedMessageKeys qt cipher a rows).find k = keys.find k := by
  obtain ⟨members, hjson, hperm⟩ := hmembers
  have htext : qt.toJson (.obj (skippedMembers qt keys)) ≠ "" := by
    intro hnone
    rw [hnone, hempty] at hjson
    cases hjson
  unfold loadSkippedMessageKeys
  rw [if_neg ha, hfind]
  dsimp only
  rw [henc, hc.decryptText_encryptText, if_neg htext, hjson]
  exact find_readSkippedKeys hbase64 hkeys hperm k

/-- **Saved skipped keys are loaded again**, and those of other addresses stay. -/
theorem loadSkipped_saved (hc : cipher.Correct) (hq : SkippedCodec qt) {r : Nat}
    {keys : SkippedKeys} (hkeys : Storable keys) (ha : ¬a.Refused) :
    ∃ rows', saveSkippedMessageKeys qt cipher r a keys d.skipped = some rows' ∧
      (∀ k, (({ d with skipped := rows' } : GroupDisk).loadSkipped qt cipher a).find k =
        keys.find k) ∧
      ∀ b, b ≠ a → ({ d with skipped := rows' } : GroupDisk).loadSkipped qt cipher b =
        d.loadSkipped qt cipher b := by
  unfold saveSkippedMessageKeys
  rw [if_neg ha]
  by_cases hnil : keys.entries = []
  · rw [if_pos hnil]
    refine ⟨_, rfl, fun k => ?_, fun b hb =>
      loadSkipped_congr (find_removed SkippedRow.address d.skipped hb)⟩
    have hgone : (d.skipped.filter (·.address != a)).find? (·.address == a) = none := by
      refine List.find?_eq_none.mpr fun old hold => ?_
      simpa using (List.mem_filter.mp hold).2
    have hnone : keys.find k = none := by
      unfold IntMap.find
      rw [hnil]
      rfl
    rw [hnone]
    exact congrArg (IntMap.find · k) (loadSkippedMessageKeys_none hgone)
  · rw [if_neg hnil]
    obtain ⟨members, hjson, hperm⟩ := hq.members keys
    have henc : cipher.encryptText r (qt.toJson (.obj (skippedMembers qt keys))) ≠ "" := by
      intro hnone
      rw [hc.encryptText_eq_nil.mp hnone, hq.empty] at hjson
      cases hjson
    dsimp only
    rw [if_neg henc]
    refine ⟨_, rfl, ?_, fun b hb =>
      loadSkipped_congr (find_replaced_of_ne SkippedRow.address d.skipped rfl hb)⟩
    exact find_loadSkippedMessageKeys hc hq.base64 hq.empty hkeys ha ⟨members, hjson, hperm⟩
      (find_replaced_self SkippedRow.address d.skipped rfl) rfl

end

end XYChat.Client
