import XYChat.Client.SenderKeyRecency
import XYChat.Client.SkippedKeysKept

/-!
# Skipped keys at rest

What any sequence of `saveSkippedMessageKeys` leaves to be loaded: under each address the
map that was saved last, no iteration more and no iteration less. The map is an object of
texts on its way to the disk, and the object a text under the storage key; that objects
of texts read back is an assumption about Qt.
-/

namespace XYChat.Client

open Lib
open GroupE2eeCrypto (SkippedKeys)

/-- The empty text is no document, and an object of texts under different names reads
back, its members in some order. -/
structure TextObjects (qt : Qt) : Prop where
  empty : qt.fromJson "" = none
  readsBack : ∀ members : List (String × Json), (members.map (·.1)).Nodup →
    (∀ x ∈ members, ∃ s, x.2 = .str s) →
    ∃ members', qt.fromJson (qt.toJson (.obj members)) = some (.obj members') ∧
      members'.Perm members

/-- The arguments of `saveSkippedMessageKeys`, and the random iv it draws. -/
structure SkippedSave where
  address : KeyAddress
  keys : SkippedKeys
  iv : Nat

section

variable (qt : Qt) (cipher : TextCipher)

/-- A sequence of successful saves. -/
def saveSkippedInTurn (saves : List SkippedSave) (rows : List SkippedRow) :
    Option (List SkippedRow) :=
  saves.foldlM (fun rows s => saveSkippedMessageKeys qt cipher s.iv s.address s.keys rows) rows

end

section

variable {qt : Qt} {cipher : TextCipher} {a b : KeyAddress} {keys : SkippedKeys} {r : Nat}
  {rows rows' : List SkippedRow}

/-! ## One save -/

/-- The row of a save that has keys. -/
def skippedRow (qt : Qt) (cipher : TextCipher) (r : Nat) (a : KeyAddress) (keys : SkippedKeys) :
    SkippedRow where
  address := a
  skippedKeysEnc := cipher.encryptText r (qt.toJson (.obj (skippedMembers qt keys)))

/-- A save deletes the row of its address, and puts one there if it has keys. -/
theorem rows_of_saveSkippedMessageKeys
    (h : saveSkippedMessageKeys qt cipher r a keys rows = some rows') :
    ¬a.Refused ∧
      (keys.entries = [] ∧ rows' = rows.filter (·.address != a) ∨
        (skippedRow qt cipher r a keys).skippedKeysEnc ≠ "" ∧
          rows' = rows.filter (·.address != a) ++ [skippedRow qt cipher r a keys]) := by
  unfold saveSkippedMessageKeys at h
  split at h
  · cases h
  rename_i husable
  refine ⟨husable, ?_⟩
  split at h
  · rename_i hnil
    cases h
    exact .inl ⟨hnil, rfl⟩
  dsimp only at h
  split at h
  · cases h
  rename_i henc
  cases h
  exact .inr ⟨henc, rfl⟩

/-- The names of storable keys are different: each reads back as its iteration. -/
theorem nodup_skippedMembers (hkeys : Storable keys) :
    ((skippedMembers qt keys).map (·.1)).Nodup := by
  have hreads : ∀ e ∈ keys.entries, stringToInt? (toString e.1) = some e.1 := by
    intro e he
    obtain ⟨hpos, hlt, -⟩ := hkeys e.1 e.2 (IntMap.find_eq_some.mpr he)
    exact stringToInt?_toString hpos hlt
  unfold skippedMembers
  rw [List.map_map]
  refine List.pairwise_map.mpr (keys.sorted.imp_of_mem fun {x y} hx hy hlt hname => ?_)
  have hsame : stringToInt? (toString x.1) = stringToInt? (toString y.1) :=
    congrArg stringToInt? hname
  rw [hreads x hx, hreads y hy] at hsame
  exact absurd (Option.some.inj hsame) hlt.ne

/-- **Step lemma.** After a save its map is what is loaded, and other addresses are not
affected. -/
theorem loadSkippedMessageKeys_saved
    (hstore : ∀ r plaintext, cipher.encryptText r plaintext ≠ "" →
      cipher.Correct ∧ ∀ bytes, qt.fromBase64 (qt.toBase64 bytes) = bytes)
    (hq : TextObjects qt)
    (hkeys : Storable keys) (h : saveSkippedMessageKeys qt cipher r a keys rows = some rows') :
    loadSkippedMessageKeys qt cipher a rows' = keys ∧
      ∀ b, b ≠ a → loadSkippedMessageKeys qt cipher b rows' =
        loadSkippedMessageKeys qt cipher b rows := by
  have hframe : ∀ b, rows'.find? (·.address == b) = rows.find? (·.address == b) →
      loadSkippedMessageKeys qt cipher b rows' = loadSkippedMessageKeys qt cipher b rows := by
    intro b hfind
    unfold loadSkippedMessageKeys
    rw [hfind]
  obtain ⟨husable, ⟨hnil, rfl⟩ | ⟨henc, rfl⟩⟩ := rows_of_saveSkippedMessageKeys h
  · refine ⟨?_, fun b hb => hframe b (find_removed SkippedRow.address rows hb)⟩
    have hgone : (rows.filter (·.address != a)).find? (·.address == a) = none := by
      refine List.find?_eq_none.mpr fun old hold => ?_
      simpa using (List.mem_filter.mp hold).2
    rw [loadSkippedMessageKeys_none hgone]
    exact (IntMap.eq_empty_of_entries hnil).symm
  · refine ⟨IntMap.ext_find ?_, fun b hb =>
      hframe b (find_replaced_of_ne SkippedRow.address rows rfl hb)⟩
    obtain ⟨hcorrect, hbase64⟩ := hstore r _ henc
    have hmembers := hq.readsBack (skippedMembers qt keys) (nodup_skippedMembers hkeys) fun x hx => by
      obtain ⟨e, -, rfl⟩ := List.mem_map.mp hx
      exact ⟨_, rfl⟩
    exact find_loadSkippedMessageKeys hcorrect hbase64 hq.empty hkeys husable hmembers
      (find_replaced_self SkippedRow.address rows rfl) rfl

/-! ## Any sequence of saves -/

/-- **Run lemma.** -/
theorem loadSkippedMessageKeys_inTurn
    (hstore : ∀ r plaintext, cipher.encryptText r plaintext ≠ "" →
      cipher.Correct ∧ ∀ bytes, qt.fromBase64 (qt.toBase64 bytes) = bytes)
    (hq : TextObjects qt) {saves : List SkippedSave} (hkeys : ∀ s ∈ saves, Storable s.keys)
    (hsaved : saveSkippedInTurn qt cipher saves rows = some rows') (a : KeyAddress) :
    loadSkippedMessageKeys qt cipher a rows' =
      match (saves.filter (·.address == a)).getLast? with
      | some s => s.keys
      | none => loadSkippedMessageKeys qt cipher a rows := by
  induction saves generalizing rows with
  | nil =>
      cases hsaved
      rfl
  | cons s saves ih =>
      obtain ⟨hs, hlater⟩ := List.forall_mem_cons.mp hkeys
      unfold saveSkippedInTurn at hsaved
      rw [List.foldlM_cons] at hsaved
      obtain ⟨next, hsave, hrest⟩ := Option.bind_eq_some_iff.mp hsaved
      obtain ⟨hself, hother⟩ := loadSkippedMessageKeys_saved hstore hq hs hsave
      rw [ih hlater hrest]
      by_cases ha : s.address = a
      · subst ha
        rw [List.filter_cons_of_pos (by simp), List.getLast?_cons]
        cases (saves.filter (·.address == s.address)).getLast? with
        | none => exact hself
        | some s' => rfl
      · rw [List.filter_cons_of_neg (by simpa using ha), hother a (Ne.symm ha)]

end

section

variable {qt : Qt} {crypto : Crypto} {storageKey : Bytes} {iv : Nat → Bytes}

/-- **Skipped keys at rest.** After any successful saves of positive iterations and keys that
are not empty, an address has the map that was saved last for it, and where none was, what
it had before. -/
theorem skippedKeys_lastSaved
    (haead : storageKey.length = storageKeySize → StorageAead qt crypto storageKey iv)
    (hq : TextObjects qt) {saves : List SkippedSave} (hkeys : ∀ s ∈ saves, Storable s.keys)
    {rows rows' : List SkippedRow}
    (hsaved : saveSkippedInTurn qt (storageCipher qt crypto storageKey iv) saves rows = some rows')
    (a : KeyAddress) :
    loadSkippedMessageKeys qt (storageCipher qt crypto storageKey iv) a rows' =
      match (saves.filter (·.address == a)).getLast? with
      | some s => s.keys
      | none => loadSkippedMessageKeys qt (storageCipher qt crypto storageKey iv) a rows := by
  have hstore : ∀ r plaintext, (storageCipher qt crypto storageKey iv).encryptText r plaintext ≠ "" →
      (storageCipher qt crypto storageKey iv).Correct ∧
        ∀ bytes, qt.fromBase64 (qt.toBase64 bytes) = bytes := by
    intro r plaintext henc
    have hsize : storageKey.length = storageKeySize := by
      by_contra hsize
      exact henc (encryptText_storageCipher hsize)
    exact ⟨storageCipher_correct (haead hsize), (haead hsize).base64⟩
  exact loadSkippedMessageKeys_inTurn hstore hq hkeys hsaved a

end

/-! ## Two addresses -/

theorem compact_textObjects : TextObjects Qt.compact where
  empty := rfl
  readsBack members _ htexts := by
    refine ⟨members, Json.read_text (Json.arePlainMembers_iff.mpr fun x hx => ?_), .rfl⟩
    obtain ⟨s, hs⟩ := htexts x hx
    rw [hs]
    rfl

def compactStorage : TextCipher :=
  storageCipher Qt.compact GroupE2eeCrypto.toyCrypto (List.replicate 32 0) zeroIv

def keyOfSeven : SkippedKeys := IntMap.empty.insert 7 (List.replicate 32 0x22)

def keysOfThreeAndSeven : SkippedKeys := keyOfSeven.insert 3 (List.replicate 32 0x11)

/-- Of two keys one is dropped, and the only key of another address. -/
def droppedKeys : List SkippedSave :=
  [ { address := ⟨400, 11, "deviceD", "keyD"⟩, keys := keysOfThreeAndSeven, iv := 0 }
  , { address := ⟨400, 12, "deviceD", "keyD"⟩, keys := keyOfSeven, iv := 1 }
  , { address := ⟨400, 11, "deviceD", "keyD"⟩, keys := keyOfSeven, iv := 2 }
  , { address := ⟨400, 12, "deviceD", "keyD"⟩, keys := .empty, iv := 3 } ]

theorem droppedKeys_isSome :
    (saveSkippedInTurn Qt.compact compactStorage droppedKeys []).isSome = true := by
  decide +kernel

theorem droppedKeys_storable : ∀ s ∈ droppedKeys, Storable s.keys := by
  have hseven : Storable keyOfSeven := storable_empty.insert (by decide) (by decide) (by decide)
  have hboth : Storable keysOfThreeAndSeven := hseven.insert (by decide) (by decide) (by decide)
  simp only [droppedKeys, List.forall_mem_cons]
  exact ⟨hboth, hseven, hseven, storable_empty, List.forall_mem_nil _⟩

/-- The key of the third iteration is gone. -/
theorem droppedKeys_loaded :
    loadSkippedMessageKeys Qt.compact compactStorage ⟨400, 11, "deviceD", "keyD"⟩
        ((saveSkippedInTurn Qt.compact compactStorage droppedKeys []).get droppedKeys_isSome) =
          keyOfSeven ∧
      loadSkippedMessageKeys Qt.compact compactStorage ⟨400, 12, "deviceD", "keyD"⟩
        ((saveSkippedInTurn Qt.compact compactStorage droppedKeys []).get droppedKeys_isSome) =
          .empty := by
  have hloaded := skippedKeys_lastSaved (fun _ => storageAead_toyCrypto rfl rfl)
    compact_textObjects droppedKeys_storable (Option.some_get droppedKeys_isSome).symm
  exact ⟨hloaded ⟨400, 11, "deviceD", "keyD"⟩, hloaded ⟨400, 12, "deviceD", "keyD"⟩⟩

end XYChat.Client
