import XYChat.Client.GroupReceive
import XYChat.Common.JsonReader
import XYChat.Common.RatchetCorrectness
import XYChat.Lib.Rowids

/-!
# The newest sender key

The tables of `LocalStore` for group keys, `sender_keys` with the rowids of its rows, and
what any sequence of saves and of removals of a group leaves to be read: the latest key
of a sender is the one saved last, whichever keys were saved before, replaced or removed.
What is saved and what is loaded is not the same: a key is saved with keys of any size,
and loading it fails unless both are of 32 bytes.
-/

namespace XYChat.Client

open Lib

/-! ## The tables -/

/-- What is filed under an address. -/
structure StoredSenderKey where
  chainKey : Bytes := []
  publicSigningKey : Bytes := []
  privateSigningKey : Bytes := []
  iteration : Int := 0
  deriving DecidableEq

/-- The tables that hold keys of groups. -/
structure GroupKeyTables where
  senderKeys : IntMap SenderKeyRow := .empty
  skipped : List SkippedRow := []

/-- The arguments of `saveSenderKey`, and the random ivs it draws. -/
structure SenderKeySave where
  address : KeyAddress
  key : StoredSenderKey
  ivs : Nat × Nat

section

variable (qt : Qt) (cipher : TextCipher) (newRowid : List Int → Int)

/-- The values that `saveSenderKey` binds. -/
def SenderKeySave.row (s : SenderKeySave) : SenderKeyRow where
  groupId := s.address.groupId
  senderUserId := s.address.senderUserId
  senderDeviceId := s.address.senderDeviceId
  keyId := s.address.keyId
  chainKeyEnc := cipher.encryptText s.ivs.1 (qt.toBase64 s.key.chainKey)
  publicSigningKey := qt.toBase64 s.key.publicSigningKey
  privateSigningKeyEnc :=
    if s.key.privateSigningKey = [] then ""
    else cipher.encryptText s.ivs.2 (qt.toBase64 s.key.privateSigningKey)
  iteration := s.key.iteration

namespace GroupKeyTables

/-- `LocalStore::saveSenderKey` on a usable store; none is `false`. -/
def saveSenderKey (s : SenderKeySave) (t : GroupKeyTables) : Option GroupKeyTables :=
  if s.address.Refused ∨ s.key.chainKey = [] ∨ s.key.publicSigningKey = [] then none
  else
    let row := s.row qt cipher
    if row.chainKeyEnc = "" then none
    else
      some { t with
        senderKeys := t.senderKeys.insertOrReplace newRowid (·.samePrimaryKey row) row }

/-- `LocalStore::removeSenderKeysForGroup` on a usable store. -/
def removeSenderKeysForGroup (groupId : Int) (t : GroupKeyTables) : Option GroupKeyTables :=
  if groupId ≤ 0 then none
  else
    some
      { senderKeys := t.senderKeys.deleteRows (·.groupId == groupId)
        skipped := t.skipped.filter (·.address.groupId != groupId) }

/-- `LocalStore::loadSenderKey` on an open store: what it leaves in the arguments that
are passed by reference, and what it returns. -/
def loadSenderKey (a : KeyAddress) (t : GroupKeyTables) : StoredSenderKey × Bool :=
  if a.Refused then ({}, false)
  else
    match t.senderKeys.rows.find? (·.address == a) with
    | none => ({}, false)
    | some row =>
        let chainB64 := cipher.decryptText row.chainKeyEnc
        if chainB64 = "" then ({}, false)
        else
          let privateB64 := cipher.decryptText row.privateSigningKeyEnc
          let key : StoredSenderKey :=
            { chainKey := qt.fromBase64 chainB64
              publicSigningKey := qt.fromBase64 row.publicSigningKey
              privateSigningKey := if privateB64 = "" then [] else qt.fromBase64 privateB64
              iteration := row.iteration }
          (key, key.chainKey.length == 32 && key.publicSigningKey.length == 32)

/-- `LocalStore::latestSenderKeyId` on an open store; empty where there is none. -/
def latestSenderKeyId (groupId senderUserId : Int) (senderDeviceId : String)
    (t : GroupKeyTables) : String :=
  if groupId ≤ 0 ∨ senderUserId ≤ 0 ∨ senderDeviceId = "" then ""
  else
    match t.senderKeys.newest fun row => row.groupId == groupId
      && row.senderUserId == senderUserId && row.senderDeviceId == senderDeviceId with
    | none => ""
    | some row => row.keyId

end GroupKeyTables

/-! ## Calls and what they leave -/

/-- A call that writes `sender_keys`. -/
inductive SenderKeyCall where
  | saveSenderKey (s : SenderKeySave)
  | removeSenderKeysForGroup (groupId : Int)

def SenderKeyCall.groupId : SenderKeyCall → Int
  | .saveSenderKey s => s.address.groupId
  | .removeSenderKeysForGroup groupId => groupId

/-- A successful call. -/
def GroupKeyTables.call (t : GroupKeyTables) : SenderKeyCall → Option GroupKeyTables
  | .saveSenderKey s => t.saveSenderKey qt cipher newRowid s
  | .removeSenderKeysForGroup groupId => t.removeSenderKeysForGroup groupId

/-- A sequence of successful calls. -/
def GroupKeyTables.calls (t : GroupKeyTables) (ops : List SenderKeyCall) :
    Option GroupKeyTables :=
  ops.foldlM (fun t op => t.call qt cipher newRowid op) t

/-- The saves since the last removal of their group, after one more call. -/
def SenderKeyCall.record (saves : List SenderKeySave) : SenderKeyCall → List SenderKeySave
  | .saveSenderKey s => saves ++ [s]
  | .removeSenderKeysForGroup groupId => saves.filter (·.address.groupId != groupId)

/-- The saves of a sequence of calls that were not followed by a removal of their group,
in the order of the calls. -/
def savesKept (ops : List SenderKeyCall) : List SenderKeySave :=
  ops.foldl SenderKeyCall.record []

/-- What `saveSenderKey` has found out of a save that it carries out. -/
structure SenderKeySave.Accepted (s : SenderKeySave) : Prop where
  address : ¬s.address.Refused
  chainKeyEnc : (s.row qt cipher).chainKeyEnc ≠ ""

/-- The table tells of the saves that were kept: of any kind of address, the newest row is
the row of the last save, and no address has two rows. -/
structure Reflects (saves : List SenderKeySave) (t : GroupKeyTables) : Prop where
  accepted : ∀ s ∈ saves, s.Accepted qt cipher
  newest : ∀ p : KeyAddress → Bool, (t.senderKeys.rows.filter fun row => p row.address).getLast? =
    ((saves.filter fun s => p s.address).getLast?).map (·.row qt cipher)
  unique : (t.senderKeys.rows.map (·.address)).Nodup

end

section

variable {qt : Qt} {cipher : TextCipher} {newRowid : List Int → Int} {t t' : GroupKeyTables}
  {s : SenderKeySave} {saves : List SenderKeySave}

@[simp] theorem address_row : (s.row qt cipher).address = s.address := rfl

/-! ## One call -/

/-- A save puts its row behind the rows of the other addresses, -/
theorem rows_of_saveSenderKey (hrowid : Increasing newRowid)
    (h : t.saveSenderKey qt cipher newRowid s = some t') :
    s.Accepted qt cipher ∧
      t'.senderKeys.rows = (t.senderKeys.rows.filter (·.address != s.address)) ++
        [s.row qt cipher] := by
  unfold GroupKeyTables.saveSenderKey at h
  split at h
  · cases h
  rename_i haccepted
  dsimp only at h
  split at h
  · cases h
  rename_i henc
  cases h
  refine ⟨⟨fun hrefused => haccepted (.inl hrefused), henc⟩, ?_⟩
  dsimp only
  rw [IntMap.rows_insertOrReplace hrowid]
  congr 1
  refine List.filter_congr fun old _ => ?_
  rw [Bool.eq_iff_iff, Bool.not_eq_true', bne_iff_ne, ← Bool.not_eq_true, samePrimaryKey_iff]
  rfl

/-- and a removal leaves the rows of the other groups. -/
theorem rows_of_removeSenderKeysForGroup {groupId : Int}
    (h : t.removeSenderKeysForGroup groupId = some t') :
    t'.senderKeys.rows = t.senderKeys.rows.filter (·.address.groupId != groupId) := by
  unfold GroupKeyTables.removeSenderKeysForGroup at h
  split at h
  · cases h
  cases h
  exact IntMap.rows_deleteRows

theorem reflects_nothing : Reflects qt cipher [] {} where
  accepted := List.forall_mem_nil _
  newest _ := rfl
  unique := List.nodup_nil

/-- A save is reflected where the earlier saves were. -/
theorem Reflects.saved (h : Reflects qt cipher saves t) (haccepted : s.Accepted qt cipher)
    (hrows : t'.senderKeys.rows = (t.senderKeys.rows.filter (·.address != s.address)) ++
      [s.row qt cipher]) :
    Reflects qt cipher (saves ++ [s]) t' where
  accepted s' hs' := by
    rcases List.mem_append.mp hs' with hs' | hs'
    · exact h.accepted s' hs'
    · rw [List.mem_singleton.mp hs']
      exact haccepted
  newest p := by
    rw [hrows, List.filter_append, List.filter_append]
    by_cases hp : p s.address = true
    · -- the new row is the last of its kind
      rw [List.filter_cons_of_pos (by simpa using hp), List.filter_cons_of_pos (by simpa using hp)]
      simp
    · -- the rows that went are not of this kind
      have hkept : (t.senderKeys.rows.filter (·.address != s.address)).filter
          (fun row => p row.address) = t.senderKeys.rows.filter fun row => p row.address := by
        rw [List.filter_filter]
        refine List.filter_congr fun row _ => ?_
        rw [Bool.eq_iff_iff, Bool.and_eq_true, bne_iff_ne]
        exact and_iff_left_of_imp fun hrow heq => hp (heq ▸ hrow)
      rw [List.filter_cons_of_neg (by simpa using hp), List.filter_cons_of_neg (by simpa using hp),
        List.filter_nil, List.filter_nil, List.append_nil, List.append_nil, hkept]
      exact h.newest p
  unique := by
    rw [hrows, List.map_append, List.nodup_append]
    refine ⟨(h.unique.sublist (List.filter_sublist.map _)), List.nodup_singleton _, ?_⟩
    rintro _ hold _ hnew rfl
    obtain ⟨row, hrow, heq⟩ := List.mem_map.mp hold
    have hne : row.address ≠ s.address := by simpa using (List.mem_filter.mp hrow).2
    exact hne (heq.trans (List.mem_singleton.mp hnew))

/-- A removal is reflected: it is a matter of the kind of address that is asked for. -/
theorem Reflects.removed (h : Reflects qt cipher saves t) {groupId : Int}
    (hrows : t'.senderKeys.rows = t.senderKeys.rows.filter (·.address.groupId != groupId)) :
    Reflects qt cipher (saves.filter (·.address.groupId != groupId)) t' where
  accepted s' hs' := h.accepted s' (List.mem_filter.mp hs').1
  newest p := by
    rw [hrows, List.filter_filter, List.filter_filter]
    exact h.newest fun a => p a && a.groupId != groupId
  unique := by
    rw [hrows]
    exact h.unique.sublist (List.filter_sublist.map _)

/-- **Step lemma.** -/
theorem Reflects.call (hrowid : Increasing newRowid) (h : Reflects qt cipher saves t)
    {op : SenderKeyCall} (hcall : t.call qt cipher newRowid op = some t') :
    Reflects qt cipher (op.record saves) t' := by
  cases op with
  | saveSenderKey s =>
      obtain ⟨haccepted, hrows⟩ := rows_of_saveSenderKey hrowid hcall
      exact h.saved haccepted hrows
  | removeSenderKeysForGroup groupId =>
      exact h.removed (rows_of_removeSenderKeysForGroup hcall)

/-- **Run lemma.** -/
theorem Reflects.calls (hrowid : Increasing newRowid) {ops : List SenderKeyCall}
    (h : Reflects qt cipher saves t) (hcalls : t.calls qt cipher newRowid ops = some t') :
    Reflects qt cipher (ops.foldl SenderKeyCall.record saves) t' := by
  induction ops generalizing saves t with
  | nil =>
      cases hcalls
      exact h
  | cons op ops ih =>
      unfold GroupKeyTables.calls at hcalls
      rw [List.foldlM_cons] at hcalls
      obtain ⟨next, hcall, hrest⟩ := Option.bind_eq_some_iff.mp hcalls
      exact ih (h.call hrowid hcall) hrest

/-! ## What is read -/

/-- Of rows with different addresses, the first one of an address is the newest. -/
theorem find_eq_getLast? {rows : List SenderKeyRow} (hunique : (rows.map (·.address)).Nodup)
    (a : KeyAddress) :
    rows.find? (·.address == a) = (rows.filter (·.address == a)).getLast? := by
  induction rows with
  | nil => rfl
  | cons row rows ih =>
      obtain ⟨hrow, hrest⟩ := List.nodup_cons.mp hunique
      by_cases ha : row.address = a
      · have hnone : rows.filter (·.address == a) = [] := by
          refine List.filter_eq_nil_iff.mpr fun other hother heq => hrow ?_
          show row.address ∈ rows.map (·.address)
          rw [ha, ← beq_iff_eq.mp heq]
          exact List.mem_map_of_mem hother
        rw [List.find?_cons_of_pos (by simpa using ha), List.filter_cons_of_pos (by simpa using ha),
          hnone]
        rfl
      · rw [List.find?_cons_of_neg (by simpa using ha), List.filter_cons_of_neg (by simpa using ha)]
        exact ih hrest

/-- The latest key is the one that was saved last. -/
theorem Reflects.latestSenderKeyId (h : Reflects qt cipher saves t) (groupId senderUserId : Int)
    (senderDeviceId : String) :
    t.latestSenderKeyId groupId senderUserId senderDeviceId =
      match (saves.filter fun s => s.address.groupId == groupId
        && s.address.senderUserId == senderUserId
        && s.address.senderDeviceId == senderDeviceId).getLast? with
      | none => ""
      | some s => s.address.keyId := by
  have hnewest := h.newest fun a => a.groupId == groupId && a.senderUserId == senderUserId
    && a.senderDeviceId == senderDeviceId
  unfold GroupKeyTables.latestSenderKeyId
  cases hlast : (saves.filter fun s => s.address.groupId == groupId
      && s.address.senderUserId == senderUserId
      && s.address.senderDeviceId == senderDeviceId).getLast? with
  | none =>
      rw [hlast] at hnewest
      split
      · rfl
      · rw [IntMap.newest_eq]
        exact congrArg (fun row => match row with | none => "" | some row => row.keyId) hnewest
  | some s =>
      rw [hlast] at hnewest
      obtain ⟨hmem, haddress⟩ := List.mem_filter.mp (List.mem_of_getLast? hlast)
      simp only [Bool.and_eq_true, beq_iff_eq] at haddress
      obtain ⟨⟨rfl, rfl⟩, rfl⟩ := haddress
      have husable := (h.accepted s hmem).address
      rw [if_neg fun hrefused => husable (by
        rcases hrefused with hgroup | huser | hdevice
        · exact .inl hgroup
        · exact .inr (.inl huser)
        · exact .inr (.inr (.inl hdevice))), IntMap.newest_eq]
      exact congrArg (fun row => match row with | none => "" | some row => row.keyId) hnewest

/-- The row of a save that was carried out is read as what was saved. -/
theorem loadSenderKey_row (hc : cipher.Correct)
    (hbase64 : ∀ bytes, qt.fromBase64 (qt.toBase64 bytes) = bytes)
    (hnothing : qt.fromBase64 "" = []) (haccepted : s.Accepted qt cipher)
    (hfind : t.senderKeys.rows.find? (·.address == s.address) = some (s.row qt cipher)) :
    t.loadSenderKey qt cipher s.address =
      (s.key, s.key.chainKey.length == 32 && s.key.publicSigningKey.length == 32) := by
  have hchain : cipher.decryptText (s.row qt cipher).chainKeyEnc = qt.toBase64 s.key.chainKey :=
    hc.decryptText_encryptText
  have hpublic : (s.row qt cipher).publicSigningKey = qt.toBase64 s.key.publicSigningKey := rfl
  have hprivate : cipher.decryptText (s.row qt cipher).privateSigningKeyEnc =
      if s.key.privateSigningKey = [] then "" else qt.toBase64 s.key.privateSigningKey := by
    unfold SenderKeySave.row
    dsimp only
    split
    · exact hc.empty
    · exact hc.decryptText_encryptText
  have hsome : qt.toBase64 s.key.chainKey ≠ "" := by
    intro hempty
    refine haccepted.chainKeyEnc ?_
    show cipher.encryptText s.ivs.1 (qt.toBase64 s.key.chainKey) = ""
    rw [hempty]
    rfl
  have hread : (if cipher.decryptText (s.row qt cipher).privateSigningKeyEnc = "" then []
      else qt.fromBase64 (cipher.decryptText (s.row qt cipher).privateSigningKeyEnc)) =
        s.key.privateSigningKey := by
    rw [hprivate]
    by_cases hnil : s.key.privateSigningKey = []
    · rw [if_pos hnil, if_pos rfl, hnil]
    · rw [if_neg hnil, hbase64, if_neg]
      intro hempty
      have hround := hbase64 s.key.privateSigningKey
      rw [hempty, hnothing] at hround
      exact hnil hround.symm
  unfold GroupKeyTables.loadSenderKey
  rw [if_neg haccepted.address, hfind]
  dsimp only
  rw [hread, hpublic, hchain, if_neg hsome, hbase64, hbase64]
  rfl

/-- What is loaded is what was saved last. -/
theorem Reflects.loadSenderKey (h : Reflects qt cipher saves t)
    (hcorrect : ∀ s : SenderKeySave, s.Accepted qt cipher → cipher.Correct)
    (hbase64 : ∀ s : SenderKeySave, s.Accepted qt cipher →
      ∀ bytes, qt.fromBase64 (qt.toBase64 bytes) = bytes)
    (hnothing : qt.fromBase64 "" = []) (a : KeyAddress) :
    t.loadSenderKey qt cipher a =
      match (saves.filter (·.address == a)).getLast? with
      | none => ({}, false)
      | some s => (s.key, s.key.chainKey.length == 32 && s.key.publicSigningKey.length == 32) := by
  have hnewest := h.newest (· == a)
  rw [← find_eq_getLast? h.unique a] at hnewest
  cases hlast : (saves.filter (·.address == a)).getLast? with
  | none =>
      rw [hlast] at hnewest
      unfold GroupKeyTables.loadSenderKey
      rw [hnewest]
      split <;> rfl
  | some s =>
      rw [hlast] at hnewest
      obtain ⟨hmem, haddress⟩ := List.mem_filter.mp (List.mem_of_getLast? hlast)
      have haccepted := h.accepted s hmem
      rw [← beq_iff_eq.mp haddress] at hnewest ⊢
      exact loadSenderKey_row (hcorrect s haccepted) (hbase64 s haccepted) hnothing haccepted hnewest

/-- A call for another group leaves the saves of an address as they are. -/
theorem getLast?_record (saves : List SenderKeySave) (op : SenderKeyCall) (p : KeyAddress → Bool)
    (hother : ∀ a, p a = true → a.groupId ≠ op.groupId) :
    ((op.record saves).filter fun s => p s.address).getLast? =
      (saves.filter fun s => p s.address).getLast? := by
  cases op with
  | saveSenderKey s =>
      have hs : ¬p s.address = true := fun hp => hother _ hp rfl
      show ((saves ++ [s]).filter _).getLast? = _
      rw [List.filter_append, List.filter_cons_of_neg (by simpa using hs), List.filter_nil,
        List.append_nil]
  | removeSenderKeysForGroup groupId =>
      show ((saves.filter (·.address.groupId != groupId)).filter _).getLast? = _
      rw [List.filter_filter]
      congr 1
      refine List.filter_congr fun s _ => ?_
      rw [Bool.eq_iff_iff, Bool.and_eq_true, bne_iff_ne]
      exact and_iff_left_of_imp fun hp => hother _ hp

/-! ## The rows without their rowids -/

/-- Leaving out the rowids, the table is the list of rows the other modules work on: its
calls are theirs. -/
theorem saveSenderKey_rows (hrowid : Increasing newRowid) :
    (t.saveSenderKey qt cipher newRowid s).map (·.senderKeys.rows) =
      saveSenderKey qt cipher s.ivs s.address.groupId s.address.senderUserId
        s.address.senderDeviceId s.address.keyId s.key.chainKey s.key.publicSigningKey
        s.key.privateSigningKey s.key.iteration t.senderKeys.rows := by
  unfold GroupKeyTables.saveSenderKey saveSenderKey KeyAddress.Refused
  simp only [or_assoc]
  split
  · rfl
  have hcolumn : (s.row qt cipher).chainKeyEnc =
      cipher.encryptText s.ivs.1 (qt.toBase64 s.key.chainKey) := rfl
  rw [← hcolumn]
  split
  · rfl
  · exact congrArg some (IntMap.rows_insertOrReplace hrowid)

theorem removeSenderKeysForGroup_rows (groupId : Int) :
    (t.removeSenderKeysForGroup groupId).map (·.senderKeys.rows) =
      (Database.removeSenderKeysForGroup groupId { senderKeys := t.senderKeys.rows }).map
        (·.senderKeys) := by
  unfold GroupKeyTables.removeSenderKeysForGroup Database.removeSenderKeysForGroup
  split
  · rfl
  · exact congrArg some IntMap.rows_deleteRows

theorem latestSenderKeyId_rows (groupId senderUserId : Int) (senderDeviceId : String) :
    t.latestSenderKeyId groupId senderUserId senderDeviceId =
      Database.latestSenderKeyId { senderKeys := t.senderKeys.rows } groupId senderUserId
        senderDeviceId := by
  unfold GroupKeyTables.latestSenderKeyId Database.latestSenderKeyId
  by_cases hrefused : groupId ≤ 0 ∨ senderUserId ≤ 0 ∨ senderDeviceId = ""
  · rw [if_pos hrefused, if_pos hrefused]
  · rw [if_neg hrefused, if_neg hrefused]
    exact congrArg (fun row : Option SenderKeyRow => match row with
      | none => ""
      | some row => row.keyId) IntMap.newest_eq

/-- The key of a load that succeeds. -/
def StoredSenderKey.loaded (keyId : String) (x : StoredSenderKey × Bool) :
    Option GroupE2eeCrypto.SenderKey :=
  if x.2 = true then
    some
      { keyId
        chainKey := x.1.chainKey
        publicSigningKey := x.1.publicSigningKey
        privateSigningKey := x.1.privateSigningKey
        iteration := x.1.iteration }
  else none

theorem loadSenderKey_rows (a : KeyAddress) :
    ({ senderKeys := t.senderKeys.rows } : GroupDisk).loadSenderKey qt cipher a =
      StoredSenderKey.loaded a.keyId (t.loadSenderKey qt cipher a) := by
  unfold GroupDisk.loadSenderKey Database.loadSenderKey GroupKeyTables.loadSenderKey
  rw [columns_eq_address]
  dsimp only
  by_cases hrefused : a.Refused
  · rw [if_pos hrefused]
    unfold KeyAddress.Refused at hrefused
    rw [if_pos hrefused]
    rfl
  rw [if_neg hrefused]
  unfold KeyAddress.Refused at hrefused
  rw [if_neg hrefused]
  cases t.senderKeys.rows.find? (·.address == a) with
  | none => rfl
  | some row =>
      dsimp only
      by_cases hchain : cipher.decryptText row.chainKeyEnc = ""
      · rw [if_pos hchain, if_pos hchain]
        rfl
      · rw [if_neg hchain, if_neg hchain]
        simp [StoredSenderKey.loaded]

end

/-! ## Under the storage key -/

section

variable {qt : Qt} {crypto : Crypto} {storageKey : Bytes} {iv : Nat → Bytes}

/-- Under a storage key of another size nothing is encrypted, -/
theorem encryptText_storageCipher (hsize : storageKey.length ≠ storageKeySize) {r : Nat}
    {plaintext : String} :
    (storageCipher qt crypto storageKey iv).encryptText r plaintext = "" := by
  unfold TextCipher.encryptText
  by_cases hempty : plaintext = ""
  · rw [if_pos hempty]
  · rw [if_neg hempty]
    exact if_pos hsize

/-- and nothing is saved. -/
theorem storageKey_of_accepted {s : SenderKeySave}
    (h : s.Accepted qt (storageCipher qt crypto storageKey iv)) :
    storageKey.length = storageKeySize := by
  by_contra hsize
  refine h.chainKeyEnc ?_
  exact encryptText_storageCipher hsize

/-- **The newest saved key is the one selected.** After any successful calls, the latest key
of a sender is the one saved last since its group was removed, a load yields what was saved
last under its address and succeeds exactly if both keys have 32 bytes, and a call for
another group changes neither. -/
theorem senderKeys_lastSaved {newRowid : List Int → Int} (hrowid : Increasing newRowid)
    (haead : storageKey.length = storageKeySize → StorageAead qt crypto storageKey iv)
    (hnothing : qt.fromBase64 "" = []) {ops : List SenderKeyCall} {t : GroupKeyTables}
    (hcalls : ({} : GroupKeyTables).calls qt (storageCipher qt crypto storageKey iv) newRowid ops =
      some t) :
    (∀ groupId senderUserId senderDeviceId,
      t.latestSenderKeyId groupId senderUserId senderDeviceId =
        match ((savesKept ops).filter fun s => s.address.groupId == groupId
          && s.address.senderUserId == senderUserId
          && s.address.senderDeviceId == senderDeviceId).getLast? with
        | none => ""
        | some s => s.address.keyId) ∧
    (∀ a, t.loadSenderKey qt (storageCipher qt crypto storageKey iv) a =
      match ((savesKept ops).filter (·.address == a)).getLast? with
      | none => ({}, false)
      | some s => (s.key, s.key.chainKey.length == 32 && s.key.publicSigningKey.length == 32)) ∧
    ∀ op t', t.call qt (storageCipher qt crypto storageKey iv) newRowid op = some t' →
      (∀ groupId senderUserId senderDeviceId, groupId ≠ op.groupId →
        t'.latestSenderKeyId groupId senderUserId senderDeviceId =
          t.latestSenderKeyId groupId senderUserId senderDeviceId) ∧
      ∀ a, a.groupId ≠ op.groupId →
        t'.loadSenderKey qt (storageCipher qt crypto storageKey iv) a =
          t.loadSenderKey qt (storageCipher qt crypto storageKey iv) a := by
  have hcorrect : ∀ s : SenderKeySave, s.Accepted qt (storageCipher qt crypto storageKey iv) →
      (storageCipher qt crypto storageKey iv).Correct :=
    fun s hs => storageCipher_correct (haead (storageKey_of_accepted hs))
  have hbase64 : ∀ s : SenderKeySave, s.Accepted qt (storageCipher qt crypto storageKey iv) →
      ∀ bytes, qt.fromBase64 (qt.toBase64 bytes) = bytes :=
    fun s hs => (haead (storageKey_of_accepted hs)).base64
  have hreflects : Reflects qt (storageCipher qt crypto storageKey iv) (savesKept ops) t :=
    reflects_nothing.calls hrowid hcalls
  refine ⟨hreflects.latestSenderKeyId, hreflects.loadSenderKey hcorrect hbase64 hnothing,
    fun op t' hcall => ⟨fun groupId senderUserId senderDeviceId hother => ?_, fun a hother => ?_⟩⟩
  · have hnext := hreflects.call hrowid hcall
    rw [hnext.latestSenderKeyId, hreflects.latestSenderKeyId]
    have hsame := getLast?_record (savesKept ops) op (fun a => a.groupId == groupId
        && a.senderUserId == senderUserId && a.senderDeviceId == senderDeviceId) fun a ha => by
      simp only [Bool.and_eq_true, beq_iff_eq] at ha
      rw [ha.1.1]
      exact hother
    rw [hsame]
  · have hnext := hreflects.call hrowid hcall
    rw [hnext.loadSenderKey hcorrect hbase64 hnothing,
      hreflects.loadSenderKey hcorrect hbase64 hnothing]
    have hsame := getLast?_record (savesKept ops) op (· == a) fun b hb => by
      rw [beq_iff_eq.mp hb]
      exact hother
    rw [hsame]

end

/-! ## Keys of a device -/

def zeroIv (_ : Nat) : Bytes := List.replicate 12 0

/-- Base64 and primitives to run are what the store relies on. -/
theorem storageAead_toyCrypto {qt : Qt} (hto : qt.toBase64 = Base64.encode)
    (hfrom : qt.fromBase64 = Base64.decode) :
    StorageAead qt GroupE2eeCrypto.toyCrypto (List.replicate 32 0) zeroIv where
  key := rfl
  iv _ := rfl
  base64 bytes := by
    rw [hto, hfrom]
    exact Base64.decode_encode bytes
  colon bytes := by
    rw [hto]
    exact Base64.colon_encode bytes
  tag iv plaintext := by
    show 16 ≤ (0 :: List.replicate 15 0 ++ plaintext).length
    simp
  opens iv plaintext := by simp [GroupE2eeCrypto.toyCrypto]

def base64Storage : TextCipher :=
  storageCipher Qt.compact GroupE2eeCrypto.toyCrypto (List.replicate 32 0) zeroIv

/-- A key of one device of a group, as it is saved. -/
def deviceKey (keyId : String) (chainKey : Bytes) (iteration : Int) : SenderKeySave where
  address := ⟨200, 8, "deviceB", keyId⟩
  key := { chainKey, publicSigningKey := List.replicate 32 5, privateSigningKey := [7], iteration }
  ivs := (0, 1)

/-- Two keys, and the first of them again. -/
def touchedAgain : List SenderKeyCall :=
  [ .saveSenderKey (deviceKey "key1" (List.replicate 32 1) 1)
  , .saveSenderKey (deviceKey "key2" (List.replicate 32 2) 2)
  , .saveSenderKey (deviceKey "key1" (List.replicate 32 1) 3) ]

theorem touchedAgain_isSome :
    (({} : GroupKeyTables).calls Qt.compact base64Storage nextRowid touchedAgain).isSome = true := by
  decide +kernel

/-- The key that was touched again is the latest one, and is loaded as it was touched. -/
theorem touchedAgain_latest :
    ((({} : GroupKeyTables).calls Qt.compact base64Storage nextRowid touchedAgain).get
        touchedAgain_isSome).latestSenderKeyId 200 8 "deviceB" = "key1" ∧
      ((({} : GroupKeyTables).calls Qt.compact base64Storage nextRowid touchedAgain).get
        touchedAgain_isSome).loadSenderKey Qt.compact base64Storage ⟨200, 8, "deviceB", "key1"⟩ =
          ((deviceKey "key1" (List.replicate 32 1) 3).key, true) := by
  obtain ⟨hlatest, hloaded, -⟩ := senderKeys_lastSaved increasing_nextRowid
    (fun _ => storageAead_toyCrypto rfl rfl) rfl (Option.some_get touchedAgain_isSome).symm
  exact ⟨(hlatest 200 8 "deviceB").trans (by decide +kernel),
    (hloaded ⟨200, 8, "deviceB", "key1"⟩).trans (by decide +kernel)⟩

/-- A chain key of one byte is saved, and loading it fails. -/
theorem shortKey_notLoaded :
    ((({} : GroupKeyTables).calls Qt.compact base64Storage nextRowid
        [.saveSenderKey (deviceKey "key1" [1] 1)]).map fun t =>
      t.loadSenderKey Qt.compact base64Storage ⟨200, 8, "deviceB", "key1"⟩) =
        some ((deviceKey "key1" [1] 1).key, false) := by
  decide +kernel

end XYChat.Client
