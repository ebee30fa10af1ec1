import XYChat.Client.Decryption
import XYChat.Client.MessageCache
import XYChat.Common.JsonText

/-!
# No decrypted message is lost

Decrypting a private message uses up the only key that opens it, so its plaintext has
to be cached by the same handler. It is, unless the process dies before that or the
cache file, the last resort, cannot be written or is written from a map that was
emptied or never loaded. The conditions below are on where the process may die, on
which calls may fail, and on the map before the message is put in.
-/

namespace XYChat.Client

open Lib
open E2eeCrypto (KeyPair EnvelopeEntry)

section

variable (qt : Qt) (crypto : Crypto) (localDeviceId : String) (cipher : TextCipher)

/-! ## What is kept -/

/-- The table has the entry. -/
def Device.inTable (d : Device) (entry : Int × String) : Bool :=
  (d.decryptCache.find entry.1).any fun enc => cipher.decryptText enc == entry.2

/-- The entries of the cache file. -/
def Device.fileEntries (d : Device) : List (Int × String) := (d.cacheFile.getD .empty).entries

namespace Opened

/-- The plaintext is in one of the two caches. -/
def cached (d : Device) (o : Opened) : Bool :=
  d.inTable cipher (o.messageId, o.plaintext)
    || (d.cacheFile.getD .empty).find o.messageId == some o.plaintext

/-- The content can be decrypted with the keys in the key file. -/
def decryptable (d : Device) (o : Opened) : Bool :=
  (openContent qt crypto localDeviceId
    (keyPairFromPrivateKey crypto (KeyStorage.loadIdentityPrivateKey d))
    (KeyStorage.loadPrekeys d) o.content).isSome

/-- The key file has the keys the content was opened with. -/
def keysIn (root : KeyFile) (o : Opened) : Bool :=
  (keyPairFromPrivateKey crypto root.identityPriv).valid
    && root.identityPriv == o.identityKey.privateKey
    && o.prekey.all fun prekey => (KeyStorage.usablePrekeys root).contains prekey

/-- The plaintext is in no cache, and a content that is no envelope is its own. -/
def Unsaved (d : Device) (o : Opened) : Prop :=
  o.cached cipher d = false ∧ E2eeCrypto.looksLikeEnvelope qt o.content = true

/-- The running handler has decrypted the message last. -/
def InHand (d : Device) (o : Opened) : Prop := d.hand.map (·.messageId) = some o.messageId

instance (d : Device) (o : Opened) : Decidable (o.Unsaved qt cipher d) := by
  unfold Unsaved
  infer_instance

instance (d : Device) (o : Opened) : Decidable (o.InHand d) := by
  unfold InHand
  infer_instance

end Opened

/-- **Nothing is lost**, at every moment between two events of the client:
what was decrypted when it was delivered can still be decrypted with the
persisted keys, or is in a persisted cache. A crash is an event. -/
def PlaintextsKept (p : ClientProcess) : Prop :=
  p.job = none → ∀ o ∈ p.medium.opened,
    o.decryptable qt crypto localDeviceId p.medium = true ∨ o.cached cipher p.medium = true

/-! ## What the client has to be spared -/

/-- While the message in hand waits to be cached, its keys are in the key file. -/
def HandSafe (d : Device) : Prop :=
  ∀ o ∈ d.opened, o.InHand d → o.Unsaved qt cipher d →
    o.keysIn crypto (d.keyFile.getD {}) = true

/-- The message in hand is cached already, or it used up no prekey. -/
def HandKeyed (d : Device) : Prop :=
  ∀ o ∈ d.opened, o.InHand d → o.Unsaved qt cipher d →
    o.prekey = none ∧ o.keysIn crypto (d.keyFile.getD {}) = true

/-- The map had room for the message in hand, and was loaded: it had what the cache
file has, unless the table has it. -/
def MapReady (d : Device) : Prop :=
  ∀ hand ∈ d.hand, hand.map.size < Memory.decryptCacheLimit ∧
    ∀ x ∈ d.fileEntries, hand.map.find x.1 = some x.2 ∨ d.inTable cipher x = true

/-- Which outcomes are considered. A message id stands for one plaintext, and no message
takes the prekey of another that waits to be opened again; a call of the fallback fails
only for a message that can do without it, and it works on a map that is ready; a new
cache file arrives, and a key file where messages wait; the old cache file is removed
when all its entries could be saved. -/
def shelteredOutcome (truth : Int → String) (d : Device) (w : DeviceWrite) (e : Outcome) : Prop :=
  match w with
  | .opened o _ =>
      (0 < o.messageId → o.plaintext = truth o.messageId) ∧
        ∀ o' ∈ d.opened, o'.Unsaved qt cipher d → o'.messageId ≠ o.messageId →
          ∀ prekey ∈ o'.prekey, o.prekey ≠ some prekey
  | .keyFile (.rename _ true) =>
      d.keyFile = none → e.works = false → ∀ o ∈ d.opened, o.Unsaved qt cipher d → o.InHand d
  | .cacheFile (.writeTmp _) =>
      (e.works = true → MapReady cipher d) ∧ (e.works = false → HandKeyed qt crypto cipher d)
  | .cacheFile (.rename _ true) => d.cacheFile = none → e.works = true
  | .cacheFile .remove | .cacheFile (.rename _ false) =>
      e.works = false → HandKeyed qt crypto cipher d
  | .removeDecryptCacheFile =>
      e.works = true → d.saveFailed = false ∧ ∀ x ∈ d.fileEntries, x.2 ≠ ""
  | _ => True

/-- Where the process may die: before a call that replaces a file or caches a plaintext
only while the message in hand has its keys, and not while the file is gone. -/
def shelteredLeave (d : Device) (pending : Option DeviceWrite) : Prop :=
  match pending with
  | some (.keyFile (.rename _ true)) =>
      HandSafe qt crypto cipher d ∧
        (d.keyFile = none → ∀ o ∈ d.opened, ¬o.Unsaved qt cipher d)
  | some (.cacheFile (.rename _ true)) => HandSafe qt crypto cipher d ∧ d.cacheFile ≠ none
  | some (.keyFile _) | some (.cacheFile _) | some (.saveDecryptedContent _ _) =>
      HandSafe qt crypto cipher d
  | _ => True

def sheltered (truth : Int → String) : Care Device DeviceWrite Outcome where
  outcome := shelteredOutcome qt crypto cipher truth
  leave := shelteredLeave qt crypto cipher

instance (d : Device) : Decidable (HandSafe qt crypto cipher d) := by
  unfold HandSafe
  infer_instance

instance (d : Device) : Decidable (HandKeyed qt crypto cipher d) := by
  unfold HandKeyed
  infer_instance

instance (d : Device) : Decidable (MapReady cipher d) := by
  unfold MapReady
  infer_instance

instance (truth : Int → String) (d : Device) (w : DeviceWrite) (e : Outcome) :
    Decidable ((sheltered qt crypto cipher truth).outcome d w e) := by
  show Decidable (shelteredOutcome qt crypto cipher truth d w e)
  unfold shelteredOutcome
  split <;> infer_instance

instance (truth : Int → String) (d : Device) (pending : Option DeviceWrite) :
    Decidable ((sheltered qt crypto cipher truth).leave d pending) := by
  show Decidable (shelteredLeave qt crypto cipher d pending)
  unfold shelteredLeave
  split <;> infer_instance

/-! ## The invariant -/

/-- What the caches hold is the plaintext of the message. -/
structure Truthful (truth : Int → String) (d : Device) : Prop where
  file : ∀ x ∈ d.fileEntries, x.2 = truth x.1
  table : ∀ messageId enc, d.decryptCache.find messageId = some enc →
    cipher.decryptText enc ≠ "" → cipher.decryptText enc = truth messageId

/-- The entry an envelope was opened by. -/
def OpenedBy (o : Opened) (entry : EnvelopeEntry) : Prop :=
  entry.deviceId = localDeviceId ∧
    match o.prekey with
    | none => entry.prekeyId = E2eeCrypto.selfCopyPrekeyId ∧
        openSelfCopy crypto o.identityKey entry ≠ []
    | some prekey => entry.prekeyId ≠ E2eeCrypto.selfCopyPrekeyId ∧
        openUnderPrekey crypto o.identityKey entry prekey ≠ []

/-- What the history says of a message is so. -/
structure Genuine (truth : Int → String) (o : Opened) : Prop where
  positive : 0 < o.messageId
  plaintext : o.plaintext = truth o.messageId
  opens : E2eeCrypto.looksLikeEnvelope qt o.content = true →
    ∃ entries, E2eeCrypto.decodeEnvelope qt o.content = some entries ∧
      ∃ entry ∈ entries, OpenedBy crypto localDeviceId o entry

/-- What the map in memory holds is the plaintext of the message. -/
def Remembers (truth : Int → String) (m : Memory) : Prop :=
  ∀ messageId x, m.decryptCache.find messageId = some x → x = truth messageId

/-- Each message that is in no cache has its keys, in the key file and, once they are
loaded, in memory. The one that is being opened, `busy`, may have lost its prekey. -/
structure Sheltered (truth : Int → String) (busy : Option Int) (m : Memory) (d : Device) :
    Prop where
  truthful : Truthful cipher truth d
  genuine : ∀ o ∈ d.opened, Genuine qt crypto localDeviceId truth o
  remembers : Remembers truth m
  keyless : m.identityKey.valid = false → m.localPrekeys = []
  hand : ∀ messageId ∈ busy, d.hand.map (·.messageId) = some messageId
  kept : ∀ o ∈ d.opened, o.Unsaved qt cipher d → busy ≠ some o.messageId →
    o.keysIn crypto (d.keyFile.getD {}) = true
  identity : ∀ o ∈ d.opened, o.Unsaved qt cipher d → m.identityKey.valid = true →
    o.identityKey.privateKey = m.identityKey.privateKey
  prekeys : ∀ o ∈ d.opened, o.Unsaved qt cipher d → busy ≠ some o.messageId →
    m.identityKey.valid = true → ∀ prekey ∈ o.prekey, prekey ∈ m.localPrekeys

end

/-! ## The keys that opened a content open it again -/

section

variable {qt : Qt} {crypto : Crypto} {localDeviceId : String} {cipher : TextCipher}
  {truth : Int → String} {d : Device} {o : Opened}

theorem keyPairFromPrivateKey_privateKey {privateKey : Bytes}
    (h : (keyPairFromPrivateKey crypto privateKey).valid = true) :
    (keyPairFromPrivateKey crypto privateKey).privateKey = privateKey := by
  unfold keyPairFromPrivateKey at h ⊢
  split at h
  · cases h
  · rename_i hlen
    rw [if_neg hlen]
    split at h
    · cases h
    · rfl

/-- Only the private half of the identity key is used to decrypt. -/
theorem openUnderPrekey_congr {k k' : KeyPair} (h : k.privateKey = k'.privateKey)
    (entry : EnvelopeEntry) (prekey : KeyPair) :
    openUnderPrekey crypto k entry prekey = openUnderPrekey crypto k' entry prekey := by
  unfold openUnderPrekey
  rw [h]

theorem openSelfCopy_congr {k k' : KeyPair} (h : k.privateKey = k'.privateKey)
    (entry : EnvelopeEntry) : openSelfCopy crypto k entry = openSelfCopy crypto k' entry := by
  unfold openSelfCopy
  rw [h]

/-- The loop finds a prekey where one of them opens the entry. -/
theorem tryPrekeys_isSome {identityKey : KeyPair} {entry : EnvelopeEntry} {prekey : KeyPair}
    (hopen : openUnderPrekey crypto identityKey entry prekey ≠ []) {prekeys : List KeyPair}
    (hmem : prekey ∈ prekeys) : (tryPrekeys crypto identityKey entry prekeys).isSome = true := by
  induction prekeys with
  | nil => cases hmem
  | cons first rest ih =>
      unfold tryPrekeys
      dsimp only
      split
      · rfl
      · rename_i hfirst
        rw [Option.isSome_map]
        rcases List.mem_cons.mp hmem with rfl | hmem
        · exact absurd hopen hfirst
        · exact ih hmem

/-- What the loop finds opens the entry, and is given with what it opens it to. -/
theorem tryPrekeys_eq_some {identityKey : KeyPair} {entry : EnvelopeEntry}
    {prekeys kept : List KeyPair} {plain : Bytes} {used : KeyPair}
    (h : tryPrekeys crypto identityKey entry prekeys = some (plain, used, kept)) :
    plain = openUnderPrekey crypto identityKey entry used ∧
      openUnderPrekey crypto identityKey entry used ≠ [] := by
  induction prekeys generalizing kept with
  | nil => cases h
  | cons first rest ih =>
      unfold tryPrekeys at h
      dsimp only at h
      split at h
      · rename_i hfirst
        obtain ⟨rfl, rfl, rfl⟩ := h
        exact ⟨rfl, hfirst⟩
      · obtain ⟨⟨plain', used', kept'⟩, hrest, heq⟩ := Option.map_eq_some_iff.mp h
        obtain ⟨rfl, rfl, rfl⟩ := heq
        exact ih hrest

/-- The prekeys that are left are all but the one that was used. -/
theorem tryPrekeys_kept {identityKey : KeyPair} {entry : EnvelopeEntry}
    {prekeys kept : List KeyPair} {plain : Bytes} {used : KeyPair}
    (h : tryPrekeys crypto identityKey entry prekeys = some (plain, used, kept)) :
    ∀ prekey ∈ prekeys, prekey ≠ used → prekey ∈ kept := by
  induction prekeys generalizing kept with
  | nil => cases h
  | cons first rest ih =>
      intro prekey hprekey hne
      unfold tryPrekeys at h
      dsimp only at h
      split at h
      · obtain ⟨rfl, rfl, rfl⟩ := h
        exact (List.mem_cons.mp hprekey).resolve_left hne
      · obtain ⟨⟨plain', used', kept'⟩, hrest, heq⟩ := Option.map_eq_some_iff.mp h
        obtain ⟨rfl, rfl, rfl⟩ := heq
        rcases List.mem_cons.mp hprekey with rfl | hprekey
        · exact List.mem_cons_self
        · exact List.mem_cons_of_mem _ (ih hrest prekey hprekey hne)

/-- **With the keys that opened it in the key file, a content can still be
decrypted.** -/
theorem Genuine.decryptable (h : Genuine qt crypto localDeviceId truth o)
    (hkeys : E2eeCrypto.looksLikeEnvelope qt o.content = true →
      o.keysIn crypto (d.keyFile.getD {}) = true) :
    o.decryptable qt crypto localDeviceId d = true := by
  unfold Opened.decryptable openContent
  cases henv : E2eeCrypto.looksLikeEnvelope qt o.content with
  | false => rfl
  | true =>
      obtain ⟨entries, hdecode, entry, hentry, hdevice, hopened⟩ := h.opens henv
      replace hkeys := hkeys henv
      unfold Opened.keysIn at hkeys
      simp only [Bool.and_eq_true, beq_iff_eq] at hkeys
      obtain ⟨⟨hvalid, hpriv⟩, hprekey⟩ := hkeys
      have hprivate : (keyPairFromPrivateKey crypto
          (KeyStorage.loadIdentityPrivateKey d)).privateKey = o.identityKey.privateKey :=
        (keyPairFromPrivateKey_privateKey hvalid).trans hpriv
      rw [if_neg (by simp), hdecode]
      dsimp only
      rw [Option.isSome_map, List.findSome?_isSome_iff]
      refine ⟨entry, hentry, ?_⟩
      unfold openEntry
      show Option.isSome (if entry.deviceId ≠ localDeviceId then none else
        if (keyPairFromPrivateKey crypto (d.keyFile.getD {}).identityPriv).valid = false then none
        else _) = true
      rw [if_neg (not_not.mpr hdevice), if_neg (by simp [hvalid])]
      cases ho : o.prekey with
      | none =>
          rw [ho] at hopened
          have hself := (openSelfCopy_congr hprivate entry).trans_ne hopened.2
          rw [if_pos hopened.1]
          dsimp only
          rw [if_pos hself]
          rfl
      | some prekey =>
          rw [ho] at hopened hprekey
          have hplain := (openUnderPrekey_congr hprivate entry prekey).trans_ne hopened.2
          rw [if_neg hopened.1, Option.isSome_map]
          exact tryPrekeys_isSome hplain (List.contains_iff_mem.mp hprekey)

/-- What `decryptMessageObject` notes of a content is so. -/
theorem openContent_genuine {m : Memory} {messageId : Int} {content plaintext : String}
    {used : Option (KeyPair × List KeyPair)}
    (h : openContent qt crypto localDeviceId m.identityKey m.localPrekeys content =
      some (plaintext, used)) (hpositive : 0 < messageId) (htruth : plaintext = truth messageId) :
    Genuine qt crypto localDeviceId truth
      { messageId, content, plaintext, identityKey := m.identityKey
        prekey := used.map (·.1) } where
  positive := hpositive
  plaintext := htruth
  opens henv := by
    change E2eeCrypto.looksLikeEnvelope qt content = true at henv
    unfold openContent at h
    rw [henv, if_neg (by simp)] at h
    cases hdecode : E2eeCrypto.decodeEnvelope qt content with
    | none => rw [hdecode] at h; cases h
    | some entries =>
        rw [hdecode] at h
        obtain ⟨⟨plain, used'⟩, hfound, heq⟩ := Option.map_eq_some_iff.mp h
        obtain ⟨rfl, rfl⟩ := heq
        obtain ⟨entry, hentry, hopen⟩ := List.exists_of_findSome?_eq_some hfound
        refine ⟨entries, rfl, entry, hentry, ?_⟩
        unfold openEntry at hopen
        split at hopen
        · cases hopen
        · rename_i hdevice
          refine ⟨not_not.mp hdevice, ?_⟩
          split at hopen
          · cases hopen
          · split at hopen
            · rename_i hself
              dsimp only at hopen
              split at hopen
              · rename_i hplain
                obtain ⟨rfl, rfl⟩ := hopen
                exact ⟨hself, hplain⟩
              · cases hopen
            · rename_i hself
              obtain ⟨⟨plain', prekey, kept⟩, htry, heq⟩ := Option.map_eq_some_iff.mp hopen
              obtain ⟨rfl, rfl⟩ := heq
              exact ⟨hself, (tryPrekeys_eq_some htry).2⟩

/-- A prekey is used up with a valid identity key, and the others are left. -/
theorem openContent_used {identityKey used : KeyPair} {localPrekeys kept : List KeyPair}
    {content plaintext : String}
    (h : openContent qt crypto localDeviceId identityKey localPrekeys content =
      some (plaintext, some (used, kept))) :
    identityKey.valid = true ∧ ∀ prekey ∈ localPrekeys, prekey ≠ used → prekey ∈ kept := by
  unfold openContent at h
  split at h
  · cases h
  · split at h
    · cases h
    · obtain ⟨⟨plain, used'⟩, hfound, heq⟩ := Option.map_eq_some_iff.mp h
      obtain ⟨rfl, rfl⟩ := heq
      obtain ⟨entry, -, hopen⟩ := List.exists_of_findSome?_eq_some hfound
      unfold openEntry at hopen
      split at hopen
      · cases hopen
      · split at hopen
        · cases hopen
        · rename_i hvalid
          refine ⟨(Bool.not_eq_false _).mp hvalid, ?_⟩
          split at hopen
          · dsimp only at hopen
            split at hopen <;> cases hopen
          · obtain ⟨⟨plain', prekey, kept'⟩, htry, heq⟩ := Option.map_eq_some_iff.mp hopen
            obtain ⟨rfl, rfl, rfl⟩ := heq
            exact tryPrekeys_kept htry

/-- A message that is in no cache needs an envelope opened, and so a valid key file. -/
theorem valid_of_keysIn {root : KeyFile} (h : o.keysIn crypto root = true) :
    (keyPairFromPrivateKey crypto root.identityPriv).valid = true := by
  unfold Opened.keysIn at h
  simp only [Bool.and_eq_true] at h
  exact h.1.1

theorem privateKey_of_keysIn {root : KeyFile} (h : o.keysIn crypto root = true) :
    root.identityPriv = o.identityKey.privateKey := by
  unfold Opened.keysIn at h
  simp only [Bool.and_eq_true, beq_iff_eq] at h
  exact h.1.2

theorem prekey_of_keysIn {root : KeyFile} (h : o.keysIn crypto root = true) {prekey : KeyPair}
    (hprekey : prekey ∈ o.prekey) : prekey ∈ KeyStorage.usablePrekeys root := by
  unfold Opened.keysIn at h
  simp only [Bool.and_eq_true] at h
  rw [Option.mem_def.mp hprekey] at h
  exact List.contains_iff_mem.mp h.2

/-- A key file with the same identity key that has the prekey has the keys too. -/
theorem keysIn_of_prekeys {root root' : KeyFile} (h : o.keysIn crypto root = true)
    (hpriv : root'.identityPriv = root.identityPriv)
    (hprekeys : ∀ prekey ∈ o.prekey, prekey ∈ root'.prekeys) : o.keysIn crypto root' = true := by
  unfold Opened.keysIn
  rw [hpriv, valid_of_keysIn h, privateKey_of_keysIn h, beq_self_eq_true, Bool.true_and,
    Bool.true_and]
  cases ho : o.prekey with
  | none => rfl
  | some prekey =>
      have husable := List.mem_filter.mp (prekey_of_keysIn h ho)
      exact List.contains_iff_mem.mpr (List.mem_filter.mpr ⟨hprekeys prekey ho, husable.2⟩)

/-! ## The invariant -/

theorem inTable_iff {messageId : Int} {plaintext : String} :
    d.inTable cipher (messageId, plaintext) = true ↔
      ∃ enc, d.decryptCache.find messageId = some enc ∧ cipher.decryptText enc = plaintext := by
  unfold Device.inTable
  cases d.decryptCache.find messageId <;> simp

theorem cached_iff :
    o.cached cipher d = true ↔ d.inTable cipher (o.messageId, o.plaintext) = true ∨
      (o.messageId, o.plaintext) ∈ d.fileEntries := by
  unfold Opened.cached Device.fileEntries
  rw [Bool.or_eq_true, beq_iff_eq, IntMap.find_eq_some]

/-- An entry of the table stays one when the plaintext of a message is put in. -/
theorem inTable_insert (hc : cipher.Correct) {messageId : Int} {plaintext : String} {r : Nat}
    (hplain : plaintext = truth messageId) {x : Int × String} (hx : x.2 = truth x.1)
    (h : d.inTable cipher x = true) :
    Device.inTable cipher
      ({ d with decryptCache :=
          d.decryptCache.insert messageId (cipher.encryptText r plaintext) }) x = true := by
  obtain ⟨id, text⟩ := x
  obtain ⟨enc, hfind, hopens⟩ := inTable_iff.mp h
  refine inTable_iff.mpr ?_
  by_cases hid : id = messageId
  · subst hid
    refine ⟨_, IntMap.find_insert_self, ?_⟩
    rw [hc.decryptText_encryptText, hplain]
    exact hx.symm
  · exact ⟨enc, (IntMap.find_insert_of_ne hid).trans hfind, hopens⟩

theorem not_unsaved_of_cached (h : o.cached cipher d = true) : ¬o.Unsaved qt cipher d := by
  rintro ⟨hcached, -⟩
  rw [h] at hcached
  cases hcached

/-- **With the invariant, nothing is lost.** -/
theorem Sheltered.plaintextKept {m : Memory}
    (h : Sheltered qt crypto localDeviceId cipher truth none m d) (ho : o ∈ d.opened) :
    o.decryptable qt crypto localDeviceId d = true ∨ o.cached cipher d = true := by
  cases hcached : o.cached cipher d with
  | true => exact .inr rfl
  | false =>
      refine .inl ((h.genuine o ho).decryptable fun henv => ?_)
      exact h.kept o ho ⟨hcached, henv⟩ (by simp)

/-- The process starts over: it has no keys in memory and an empty map. -/
theorem Sheltered.restart {m : Memory}
    (h : Sheltered qt crypto localDeviceId cipher truth none m d) :
    Sheltered qt crypto localDeviceId cipher truth none {} d where
  truthful := h.truthful
  genuine := h.genuine
  remembers _ _ hfind := by cases hfind
  keyless _ := rfl
  hand _ hbusy := by cases hbusy
  kept := h.kept
  identity _ _ _ hvalid := by cases hvalid
  prekeys _ _ _ _ hvalid := by cases hvalid

/-- The message is cached, or it used up no prekey: it is like the others. -/
theorem Sheltered.settle {m : Memory} {messageId : Int}
    (h : Sheltered qt crypto localDeviceId cipher truth (some messageId) m d)
    (hdone : ∀ o ∈ d.opened, o.messageId = messageId → o.Unsaved qt cipher d →
      o.prekey = none ∧ o.keysIn crypto (d.keyFile.getD {}) = true) :
    Sheltered qt crypto localDeviceId cipher truth none m d where
  truthful := h.truthful
  genuine := h.genuine
  remembers := h.remembers
  keyless := h.keyless
  hand _ hbusy := by cases hbusy
  kept o ho hunsaved _ := by
    by_cases hid : o.messageId = messageId
    · exact (hdone o ho hid hunsaved).2
    · exact h.kept o ho hunsaved fun hbusy => hid (Option.some.inj hbusy).symm
  identity := h.identity
  prekeys o ho hunsaved _ hvalid prekey hprekey := by
    by_cases hid : o.messageId = messageId
    · rw [(hdone o ho hid hunsaved).1] at hprekey
      cases hprekey
    · exact h.prekeys o ho hunsaved (fun hbusy => hid (Option.some.inj hbusy).symm) hvalid
        prekey hprekey

/-- The process may die while the message in hand has its keys. -/
theorem Sheltered.left {m : Memory} {busy : Option Int}
    (h : Sheltered qt crypto localDeviceId cipher truth busy m d)
    (hsafe : HandSafe qt crypto cipher d) :
    Sheltered qt crypto localDeviceId cipher truth none {} d where
  truthful := h.truthful
  genuine := h.genuine
  remembers _ _ hfind := by cases hfind
  keyless _ := rfl
  hand _ hbusy := by cases hbusy
  kept o ho hunsaved _ := by
    by_cases hbusy : busy = some o.messageId
    · exact hsafe o ho (h.hand _ hbusy) hunsaved
    · exact h.kept o ho hunsaved hbusy
  identity _ _ _ hvalid := by cases hvalid
  prekeys _ _ _ _ hvalid := by cases hvalid

/-- A write to the caches alone after which every plaintext is cached that was. -/
theorem Sheltered.of_cached {m : Memory} {busy : Option Int} {d' : Device}
    (h : Sheltered qt crypto localDeviceId cipher truth busy m d)
    (htruthful : Truthful cipher truth d')
    (hopened : d'.opened = d.opened) (hhand : d'.hand = d.hand) (hkeys : d'.keyFile = d.keyFile)
    (hcached : ∀ o ∈ d.opened, o.cached cipher d = true → o.cached cipher d' = true) :
    Sheltered qt crypto localDeviceId cipher truth busy m d' := by
  have hunsaved : ∀ o ∈ d.opened, o.Unsaved qt cipher d' → o.Unsaved qt cipher d := by
    rintro o ho ⟨hcached', henv⟩
    refine ⟨(Bool.not_eq_true _).mp fun hbefore => ?_, henv⟩
    rw [hcached o ho hbefore] at hcached'
    cases hcached'
  refine ⟨htruthful, hopened ▸ h.genuine, h.remembers, h.keyless, hhand ▸ h.hand, ?_, ?_, ?_⟩
  · intro o ho hun
    rw [hkeys]
    rw [hopened] at ho
    exact h.kept o ho (hunsaved o ho hun)
  · intro o ho hun
    rw [hopened] at ho
    exact h.identity o ho (hunsaved o ho hun)
  · intro o ho hun
    rw [hopened] at ho
    exact h.prekeys o ho (hunsaved o ho hun)

/-- The same keys in memory, and a map of plaintexts. -/
theorem Sheltered.setMemory {m m' : Memory} {busy : Option Int}
    (h : Sheltered qt crypto localDeviceId cipher truth busy m d)
    (hidentity : m'.identityKey = m.identityKey) (hprekeys : m'.localPrekeys = m.localPrekeys)
    (hremembers : Remembers truth m') :
    Sheltered qt crypto localDeviceId cipher truth busy m' d where
  truthful := h.truthful
  genuine := h.genuine
  remembers := hremembers
  keyless := by
    rw [hidentity, hprekeys]
    exact h.keyless
  hand := h.hand
  kept := h.kept
  identity := by
    rw [hidentity]
    exact h.identity
  prekeys := by
    rw [hidentity, hprekeys]
    exact h.prekeys

/-- A handler starts. -/
theorem Sheltered.enter {m : Memory}
    (h : Sheltered qt crypto localDeviceId cipher truth none m d) :
    Sheltered qt crypto localDeviceId cipher truth none m
      { d with hand := none, saveFailed := false } where
  truthful := ⟨h.truthful.file, h.truthful.table⟩
  genuine := h.genuine
  remembers := h.remembers
  keyless := h.keyless
  hand _ hbusy := by cases hbusy
  kept := h.kept
  identity := h.identity
  prekeys := h.prekeys

/-! ## What the writes keep -/

variable (qt crypto localDeviceId cipher truth) in
/-- With care, the process can start over wherever the job is left, and the job has `Q`
at its end. -/
abbrev Shelters {α : Type} (Q : α → Device → Prop) (j : DeviceJob α) (d : Device) : Prop :=
  j.Keeps (deviceMedium cipher) (sheltered qt crypto cipher truth)
    (Sheltered qt crypto localDeviceId cipher truth none {}) Q d

/-- The plaintext of the message goes into the table, and takes nothing from the others. -/
theorem Sheltered.insert (hc : cipher.Correct) {m : Memory} {busy : Option Int}
    (h : Sheltered qt crypto localDeviceId cipher truth busy m d) {messageId : Int}
    {plaintext : String} {r : Nat} (htruth : plaintext = truth messageId) :
    Sheltered qt crypto localDeviceId cipher truth busy m
      { d with decryptCache :=
          d.decryptCache.insert messageId (cipher.encryptText r plaintext) } := by
  have hopens : cipher.decryptText (cipher.encryptText r plaintext) = plaintext :=
    hc.decryptText_encryptText
  refine h.of_cached ⟨h.truthful.file, fun id enc hfind hopen => ?_⟩ rfl rfl rfl fun o ho hcached => ?_
  · by_cases hid : id = messageId
    · subst hid
      rw [IntMap.find_insert_self] at hfind
      rw [← Option.some.inj hfind, hopens, htruth]
    · rw [IntMap.find_insert_of_ne hid] at hfind
      exact h.truthful.table id enc hfind hopen
  · refine cached_iff.mpr ((cached_iff.mp hcached).imp_left fun htable => ?_)
    exact inTable_insert hc htruth (h.genuine o ho).plaintext htable

variable (qt crypto localDeviceId cipher truth) in
/-- What a save leaves: the invariant, the file and the message in hand as they were, and
the entry in the table, unless the save is on record as failed. -/
structure Saved (m : Memory) (busy : Option Int) (d : Device) (messageId : Int)
    (plaintext : String) (saved : Bool) (d' : Device) : Prop where
  sheltered : Sheltered qt crypto localDeviceId cipher truth busy m d'
  hand : d'.hand = d.hand
  cacheFile : d'.cacheFile = d.cacheFile
  entry : saved = true → d'.inTable cipher (messageId, plaintext) = true
  failed : d'.saveFailed = false → d.saveFailed = false ∧
    (m.storeOpen = true → 0 < messageId → plaintext ≠ "" → saved = true)
  table : ∀ x : Int × String, x.2 = truth x.1 → d.inTable cipher x = true →
    d'.inTable cipher x = true

theorem saveDecryptedContent_shelters (hc : cipher.Correct) {m : Memory} {busy : Option Int}
    (h : Sheltered qt crypto localDeviceId cipher truth busy m d) {messageId : Int}
    {plaintext : String} (htruth : 0 < messageId → plaintext = truth messageId) :
    Shelters qt crypto localDeviceId cipher truth
      (Saved qt crypto localDeviceId cipher truth m busy d messageId plaintext)
      (m.saveDecryptedContent messageId plaintext) d := by
  refine Job.keeps_ite (fun hskip => ?_) fun hsave => ?_
  · refine ⟨h, rfl, rfl, fun hsaved => absurd hsaved Bool.false_ne_true,
      fun hfailed => ⟨hfailed, ?_⟩, fun _ _ hx => hx⟩
    intro hopen hid hplain
    rcases hskip with hclosed | hid' | hempty
    · rw [hopen] at hclosed
      cases hclosed
    · omega
    · exact absurd hempty hplain
  · simp only [not_or] at hsave
    obtain ⟨-, hid, -⟩ := hsave
    refine Job.keeps_perform (fun hleave => h.left hleave) fun e _ => ?_
    by_cases hfails : cipher.encryptText e.iv plaintext = "" ∨ e.works = false
    · have hwrite : (deviceMedium cipher).write (.saveDecryptedContent messageId plaintext) e d =
          ({ d with saveFailed := true }, false) := if_pos hfails
      rw [hwrite]
      have hsame : Sheltered qt crypto localDeviceId cipher truth busy m
          { d with saveFailed := true } :=
        h.of_cached ⟨h.truthful.file, h.truthful.table⟩ rfl rfl rfl fun _ _ hcached => hcached
      exact ⟨hsame, rfl, rfl, fun hsaved => absurd hsaved Bool.false_ne_true,
        fun hfailed => absurd hfailed.symm Bool.false_ne_true, fun _ _ hx => hx⟩
    · have hwrite : (deviceMedium cipher).write (.saveDecryptedContent messageId plaintext) e d =
          ({ d with
              decryptCache :=
                d.decryptCache.insert messageId (cipher.encryptText e.iv plaintext) }, true) :=
        if_neg hfails
      rw [hwrite]
      have hplain := htruth (by omega)
      refine ⟨h.insert hc hplain, rfl, rfl, fun _ => inTable_iff.mpr ?_,
        fun hfailed => ⟨hfailed, fun _ _ _ => rfl⟩,
        fun x hx htable => inTable_insert hc hplain hx htable⟩
      exact ⟨_, IntMap.find_insert_self, hc.decryptText_encryptText⟩

/-- **Replacing a file.** Besides the state it starts from and the one with the new
file, `writeFileAtomic` can leave the one without the file. -/
theorem writeFileAtomic_shelters {α : Type} {file : FileWrite α → DeviceWrite}
    (get : Device → Option α) (set : Option α → Device → Device) {data : α} {Q : Device → Prop}
    (hwrite : ∀ w e d, d.write cipher e (file w) =
      (set (w.apply e.works (get d)).1 d, (w.apply e.works (get d)).2))
    (hset : set (get d) d = d) (hget : get (set none d) = none)
    (hsetset : ∀ new, set new (set none d) = set new d)
    (hleave : ∀ w, (sheltered qt crypto cipher truth).leave d (some (file w)) →
      Sheltered qt crypto localDeviceId cipher truth none {} d)
    (hgap : (sheltered qt crypto cipher truth).leave (set none d)
        (some (file (.rename data true))) →
      Sheltered qt crypto localDeviceId cipher truth none {} (set none d))
    (hnew : ∀ e, e.works = true →
      (sheltered qt crypto cipher truth).outcome d (file (.writeTmp data)) e →
        Q (set (some data) d))
    (hfail : ∀ w e, e.works = false → w = .writeTmp data ∨ w = .remove ∨ w = .rename data false →
      (sheltered qt crypto cipher truth).outcome d (file w) e → Q d)
    (hlost : ∀ e, e.works = false →
      (sheltered qt crypto cipher truth).outcome (set none d) (file (.rename data true)) e →
        Q (set none d)) :
    Shelters qt crypto localDeviceId cipher truth (fun _ d' => Q d')
      (KeyStorage.writeFileAtomic file (fun d => (get d).isSome) data) d := by
  have hmedium : ∀ w e d, (deviceMedium cipher).write (file w) e d =
      (set (w.apply e.works (get d)).1 d, (w.apply e.works (get d)).2) := fun w e d => hwrite w e d
  -- the temporary file is written first, and the target is as it was
  refine Job.Keeps.bind (Job.keeps_perform (hleave _) fun e he => ?_)
  rw [hmedium]
  show Shelters _ _ _ _ _ _ (if e.works = true then _ else _) (set (get d) d)
  rw [hset]
  refine Job.keeps_ite (fun hworks => ?_) fun hfails => ?_
  swap
  · exact hfail _ e ((Bool.not_eq_true _).mp hfails) (.inl rfl) he
  have hdone := hnew e hworks he
  refine Job.Keeps.bind (Job.keeps_query.mpr (Job.keeps_ite (fun hpresent => ?_) fun habsent => ?_))
  · refine Job.Keeps.bind (Job.keeps_perform (hleave _) fun e₁ he₁ => ?_)
    rw [hmedium]
    cases hremoved : e₁.works with
    | true =>
        -- between the removal and the renaming there is no file
        refine Job.keeps_perform hgap fun e₂ he₂ => ?_
        rw [hmedium]
        show Q (set (if e₂.works && (get (set none d)).isNone then
          (some data, true) else (get (set none d), false)).1 (set none d))
        rw [hsetset, hget]
        cases hrenamed : e₂.works with
        | true => exact hdone
        | false => exact hlost e₂ hrenamed he₂
    | false =>
        -- the file is still there, and nothing is renamed over it
        show Shelters _ _ _ _ _ _ (.perform (file (.rename data true))) (set (get d) d)
        rw [hset]
        refine Job.keeps_perform (hleave _) fun e₂ _ => ?_
        rw [hmedium]
        show Q (set (if e₂.works && (get d).isNone then (some data, true) else (get d, false)).1 d)
        rw [Option.isNone_eq_false_iff.mpr hpresent, Bool.and_false]
        exact hset.symm ▸ hfail _ e₁ hremoved (.inr (.inl rfl)) he₁
  · -- there is no file to remove
    refine Job.keeps_perform (hleave _) fun e₁ he₁ => ?_
    rw [hmedium]
    show Q (set (if e₁.works && (get d).isNone then (some data, true) else (get d, false)).1 d)
    cases hrenamed : e₁.works with
    | true =>
        rw [Option.isNone_iff_eq_none.mpr (Option.not_isSome_iff_eq_none.mp habsent)]
        exact hdone
    | false => exact hset.symm ▸ hfail _ e₁ hrenamed (.inr (.inr rfl)) he₁

/-- Where a call on the cache file is about to be made, the message in hand has its keys. -/
theorem handSafe_of_cacheFile {w : FileWrite (IntMap String)}
    (h : (sheltered qt crypto cipher truth).leave d (some (.cacheFile w))) :
    HandSafe qt crypto cipher d := by
  cases w with
  | writeTmp new => exact h
  | remove => exact h
  | rename new replaced =>
      cases replaced with
      | true => exact h.1
      | false => exact h

theorem handSafe_of_keyFile {w : FileWrite KeyFile}
    (h : (sheltered qt crypto cipher truth).leave d (some (.keyFile w))) :
    HandSafe qt crypto cipher d := by
  cases w with
  | writeTmp new => exact h
  | remove => exact h
  | rename new replaced =>
      cases replaced with
      | true => exact h.1
      | false => exact h

/-! ### The cache file -/

variable (qt crypto localDeviceId cipher truth) in
/-- The message is being opened: it is in hand, with the map as it is. -/
structure Opening (m : Memory) (d : Device) (messageId : Int) (plain : String) : Prop where
  sheltered : Sheltered qt crypto localDeviceId cipher truth (some messageId) m d
  hand : d.hand = some ⟨messageId, m.decryptCache⟩
  truth : 0 < messageId → plain = truth messageId

/-- The map that goes to the fallback: emptied when it has outgrown its limit. -/
def mapWith (m : Memory) (messageId : Int) (plain : String) : IntMap String :=
  if Memory.decryptCacheLimit < (m.decryptCache.insert messageId plain).size then .empty
  else m.decryptCache.insert messageId plain

theorem remembers_mapWith {m : Memory} {messageId : Int} {plain : String}
    (h : Remembers truth m) (htruth : plain = truth messageId) (id : Int) (x : String)
    (hfind : (mapWith m messageId plain).find id = some x) : x = truth id := by
  unfold mapWith at hfind
  split at hfind
  · cases hfind
  · by_cases hid : id = messageId
    · subst hid
      rw [IntMap.find_insert_self] at hfind
      rw [← Option.some.inj hfind, htruth]
    · rw [IntMap.find_insert_of_ne hid] at hfind
      exact h id x hfind

/-- Written from a map that was ready, the new file has all the old one had and the
message in hand. -/
theorem Opening.setCacheFile {m : Memory} {messageId : Int} {plain : String}
    (h : Opening qt crypto localDeviceId cipher truth m d messageId plain) (hid : 0 < messageId)
    (hready : MapReady cipher d) :
    Sheltered qt crypto localDeviceId cipher truth none m
      { d with cacheFile := some (mapWith m messageId plain) } := by
  obtain ⟨hroom, hloaded⟩ := hready _ h.hand
  dsimp only at hroom hloaded
  -- a map with room is not emptied
  have hmap : mapWith m messageId plain = m.decryptCache.insert messageId plain := by
    have hsize : (m.decryptCache.insert messageId plain).size ≤ m.decryptCache.size + 1 :=
      IntMap.size_insert_le
    exact if_neg (by omega)
  have htruth := h.truth hid
  have htold : ∀ x ∈ (mapWith m messageId plain).entries, x.2 = truth x.1 := fun x hx =>
    remembers_mapWith h.sheltered.remembers htruth x.1 x.2 (IntMap.find_eq_some.mpr hx)
  have hfile : ∀ o ∈ d.opened, o.messageId = messageId ∨
      m.decryptCache.find o.messageId = some o.plaintext →
        (o.messageId, o.plaintext) ∈ (mapWith m messageId plain).entries := by
    intro o ho hfind
    rw [hmap, ← IntMap.find_eq_some]
    by_cases hsame : o.messageId = messageId
    · rw [hsame, IntMap.find_insert_self, htruth, (h.sheltered.genuine o ho).plaintext, hsame]
    · rw [IntMap.find_insert_of_ne hsame]
      exact hfind.resolve_left hsame
  -- what the old file had is in the map, or in the table
  have hcached : Sheltered qt crypto localDeviceId cipher truth (some messageId) m
      { d with cacheFile := some (mapWith m messageId plain) } := by
    refine h.sheltered.of_cached ⟨htold, h.sheltered.truthful.table⟩ rfl rfl rfl
      fun o ho hcached => cached_iff.mpr ?_
    rcases cached_iff.mp hcached with htable | hold
    · exact .inl htable
    · rcases hloaded _ hold with hfind | htable
      · exact .inr (hfile o ho (.inr hfind))
      · exact .inl htable
  refine hcached.settle fun o ho hsame hunsaved => absurd hunsaved (not_unsaved_of_cached ?_)
  exact cached_iff.mpr (.inr (hfile o ho (.inl hsame)))

/-- The message in hand used up no prekey. -/
theorem Opening.settle {m : Memory} {messageId : Int} {plain : String}
    (h : Opening qt crypto localDeviceId cipher truth m d messageId plain)
    (hkeyed : HandKeyed qt crypto cipher d) :
    Sheltered qt crypto localDeviceId cipher truth none m d := by
  refine h.sheltered.settle fun o ho hsame => hkeyed o ho ?_
  unfold Opened.InHand
  rw [h.hand, hsame]
  rfl

theorem Opening.setMap {m : Memory} {messageId : Int} {plain : String} {d' : Device}
    (h : Opening qt crypto localDeviceId cipher truth m d messageId plain) (hid : 0 < messageId)
    (hd : Sheltered qt crypto localDeviceId cipher truth none m d') :
    Sheltered qt crypto localDeviceId cipher truth none
      { m with decryptCache := mapWith m messageId plain } d' :=
  hd.setMemory rfl rfl (remembers_mapWith h.sheltered.remembers (h.truth hid))

/-- **The fallback** keeps the message in hand, and what the file has. -/
theorem saveDecryptCache_shelters {m : Memory} {messageId : Int} {plain : String}
    (h : Opening qt crypto localDeviceId cipher truth m d messageId plain) (hid : 0 < messageId) :
    Shelters qt crypto localDeviceId cipher truth
      (fun _ d' => Sheltered qt crypto localDeviceId cipher truth none m d')
      (KeyStorage.saveDecryptCache (mapWith m messageId plain)) d := by
  refine writeFileAtomic_shelters (·.cacheFile) (fun file d => { d with cacheFile := file })
    (fun _ _ _ => rfl) rfl rfl (fun _ => rfl)
    (fun w hleave => h.sheltered.left (handSafe_of_cacheFile hleave))
    (fun hleave => absurd rfl hleave.2) (fun e hworks he => ?_) (fun w e hfails hw he => ?_)
    fun e hfails he => ?_
  · exact h.setCacheFile hid (he.1 hworks)
  · refine h.settle ?_
    rcases hw with rfl | rfl | rfl
    · exact he.2 hfails
    · exact he hfails
    · exact he hfails
  · exact absurd (hfails.symm.trans (he rfl)) Bool.false_ne_true

/-- **The plaintext is cached**: in the table, or else in the cache file. -/
theorem cachePlaintext_shelters (hc : cipher.Correct) {m : Memory} {messageId : Int}
    {plain : String} (h : Opening qt crypto localDeviceId cipher truth m d messageId plain) :
    Shelters qt crypto localDeviceId cipher truth
      (Sheltered qt crypto localDeviceId cipher truth none) (m.cachePlaintext messageId plain) d := by
  refine Job.keeps_ite (fun hid => ?_) fun hid => ?_
  · -- no message that was opened has such an id
    refine h.sheltered.settle fun o ho hsame => ?_
    have hpositive := (h.sheltered.genuine o ho).positive
    omega
  · have hpos : 0 < messageId := by omega
    have htruth := h.truth hpos
    have hmap : Sheltered qt crypto localDeviceId cipher truth (some messageId)
        { m with decryptCache := mapWith m messageId plain } d :=
      h.sheltered.setMemory rfl rfl (remembers_mapWith h.sheltered.remembers htruth)
    refine Job.Keeps.bind ((saveDecryptedContent_shelters hc hmap h.truth).mono
      fun saved d' hsaved => ?_)
    have h' : Opening qt crypto localDeviceId cipher truth m d' messageId plain :=
      ⟨hsaved.sheltered.setMemory rfl rfl h.sheltered.remembers, hsaved.hand.trans h.hand, h.truth⟩
    refine Job.keeps_ite (fun hdone => ?_) fun _ => ?_
    · -- the table has it: the map grows, and nothing is written
      refine h.setMap hpos (h'.sheltered.settle fun o ho hsame hunsaved =>
        absurd hunsaved (not_unsaved_of_cached (cached_iff.mpr (.inl ?_))))
      have hplain : o.plaintext = plain := by
        rw [(h'.sheltered.genuine o ho).plaintext, hsame, htruth]
      rw [hsame, hplain]
      exact hsaved.entry hdone
    · exact Job.Keeps.bind ((saveDecryptCache_shelters h' hpos).mono
        fun _ _ hd => h.setMap hpos hd)

/-! ### The key file -/

variable (qt cipher) in
/-- What is left of the key file when a new one was to be written. -/
inductive Rekeyed (root : KeyFile) (d : Device) : Device → Prop
  | same : Rekeyed root d d
  | new : Rekeyed root d { d with keyFile := some root }
  | lost (h : ∀ o ∈ d.opened, o.Unsaved qt cipher d → o.InHand d) :
      Rekeyed root d { d with keyFile := none }

/-- Where everything is cached, the keys do not matter. -/
theorem sheltered_of_saved {m : Memory} (htruthful : Truthful cipher truth d)
    (hgenuine : ∀ o ∈ d.opened, Genuine qt crypto localDeviceId truth o)
    (hremembers : Remembers truth m) (hkeyless : m.identityKey.valid = false → m.localPrekeys = [])
    (hsaved : ∀ o ∈ d.opened, ¬o.Unsaved qt cipher d) :
    Sheltered qt crypto localDeviceId cipher truth none m d where
  truthful := htruthful
  genuine := hgenuine
  remembers := hremembers
  keyless := hkeyless
  hand _ hbusy := by cases hbusy
  kept o ho hunsaved := absurd hunsaved (hsaved o ho)
  identity o ho hunsaved := absurd hunsaved (hsaved o ho)
  prekeys o ho hunsaved := absurd hunsaved (hsaved o ho)

theorem writeKeyFile_shelters {m : Memory} {busy : Option Int}
    (h : Sheltered qt crypto localDeviceId cipher truth busy m d) (root : KeyFile) :
    Shelters qt crypto localDeviceId cipher truth (fun _ d' => Rekeyed qt cipher root d d')
      (KeyStorage.writeFileAtomic .keyFile (·.keyFile.isSome) root) d := by
  refine writeFileAtomic_shelters (·.keyFile) (fun file d => { d with keyFile := file })
    (fun _ _ _ => rfl) rfl rfl (fun _ => rfl)
    (fun w hleave => h.left (handSafe_of_keyFile hleave)) (fun hleave => ?_)
    (fun _ _ _ => .new) (fun _ _ _ _ _ => .same) fun e hfails he => .lost (he rfl hfails)
  refine sheltered_of_saved ⟨h.truthful.file, h.truthful.table⟩ h.genuine
    (fun _ _ hfind => by cases hfind) (fun _ => rfl) fun o ho hunsaved => ?_
  exact hleave.2 rfl o ho hunsaved

/-- The keys of the messages that are in no cache are in the file and in memory. -/
theorem Sheltered.setKeys {m : Memory} {busy : Option Int}
    (h : Sheltered qt crypto localDeviceId cipher truth busy m d)
    (hvalid : m.identityKey.valid = true) {prekeys : List KeyPair}
    (hprekeys : ∀ o ∈ d.opened, o.Unsaved qt cipher d → busy ≠ some o.messageId →
      ∀ prekey ∈ o.prekey, prekey ∈ prekeys)
    {file : Option KeyFile}
    (hkept : ∀ o ∈ d.opened, o.Unsaved qt cipher d → busy ≠ some o.messageId →
      o.keysIn crypto (file.getD {}) = true) :
    Sheltered qt crypto localDeviceId cipher truth busy
      { m with localPrekeys := prekeys } { d with keyFile := file } where
  truthful := ⟨h.truthful.file, h.truthful.table⟩
  genuine := h.genuine
  remembers := h.remembers
  keyless hinvalid := absurd (hvalid.symm.trans hinvalid) (by simp)
  hand := h.hand
  kept := hkept
  identity := h.identity
  prekeys o ho hunsaved hbusy _ := hprekeys o ho hunsaved hbusy

/-- **A new key file** with the same identity key and the prekeys that messages wait
for. -/
theorem savePrekeys_shelters {m : Memory} {busy : Option Int}
    (h : Sheltered qt crypto localDeviceId cipher truth busy m d)
    (hhand : d.hand.map (·.messageId) = busy) (hvalid : m.identityKey.valid = true)
    {prekeys : List KeyPair}
    (hprekeys : ∀ o ∈ d.opened, o.Unsaved qt cipher d → busy ≠ some o.messageId →
      ∀ prekey ∈ o.prekey, prekey ∈ prekeys) :
    Shelters qt crypto localDeviceId cipher truth
      (fun _ d' => Sheltered qt crypto localDeviceId cipher truth busy
        { m with localPrekeys := prekeys } d' ∧ d'.hand = d.hand)
      (KeyStorage.savePrekeys prekeys) d := by
  refine Job.Keeps.bind (Job.keeps_query.mpr ((writeKeyFile_shelters h _).mono fun _ d' hd => ?_))
  have hset : ∀ file : Option KeyFile,
      (∀ o ∈ d.opened, o.Unsaved qt cipher d → busy ≠ some o.messageId →
        o.keysIn crypto (file.getD {}) = true) →
      Sheltered qt crypto localDeviceId cipher truth busy
        { m with localPrekeys := prekeys } { d with keyFile := file } :=
    fun _ hkept => h.setKeys hvalid hprekeys hkept
  cases hd with
  | same => exact ⟨hset d.keyFile h.kept, rfl⟩
  | new =>
      refine ⟨hset (some _) fun o ho hunsaved hbusy => ?_, rfl⟩
      exact keysIn_of_prekeys (h.kept o ho hunsaved hbusy) rfl (hprekeys o ho hunsaved hbusy)
  | lost hhanded =>
      -- without a key file only the message in hand may wait for a cache
      refine ⟨hset none fun o ho hunsaved hbusy => ?_, rfl⟩
      exact absurd (hhand.symm.trans (hhanded o ho hunsaved)) hbusy

/-! ## A message -/

/-- The message comes into hand. -/
theorem noteOpened_shelters {m : Memory} {messageId : Int} {content plain : String}
    {used : Option (KeyPair × List KeyPair)}
    (h : Sheltered qt crypto localDeviceId cipher truth none m d)
    (hopen : openContent qt crypto localDeviceId m.identityKey m.localPrekeys content =
      some (plain, used)) :
    Shelters qt crypto localDeviceId cipher truth
      (fun _ d' => Opening qt crypto localDeviceId cipher truth m d' messageId plain ∧
        ∀ o ∈ d'.opened, o.Unsaved qt cipher d' → o.messageId ≠ messageId →
          ∀ prekey ∈ o.prekey, used.map (·.1) ≠ some prekey)
      (m.noteOpened qt crypto localDeviceId messageId content) d := by
  unfold Memory.noteOpened
  rw [hopen]
  refine Job.keeps_perform (fun _ => h.restart) fun e he => ?_
  obtain ⟨htruth, hshared⟩ := he
  dsimp only at htruth hshared
  -- the messages opened are the old ones and this one, if it has an id
  have hin : ∀ o ∈ (if 0 < messageId then
      ({ messageId, content, plaintext := plain, identityKey := m.identityKey
         prekey := used.map (·.1) } : Opened) :: d.opened else d.opened),
      o ∈ d.opened ∨ (0 < messageId ∧ o.messageId = messageId ∧ o.identityKey = m.identityKey ∧
        Genuine qt crypto localDeviceId truth o) := by
    intro o ho
    split at ho
    · rename_i hpos
      rcases List.mem_cons.mp ho with rfl | ho
      · exact .inr ⟨hpos, rfl, rfl, openContent_genuine hopen hpos (htruth hpos)⟩
      · exact .inl ho
    · exact .inl ho
  refine ⟨⟨⟨⟨h.truthful.file, h.truthful.table⟩, ?_, h.remembers, h.keyless, ?_, ?_, ?_, ?_⟩, rfl,
    htruth⟩, ?_⟩
  · intro o ho
    exact (hin o ho).elim (h.genuine o) fun hnew => hnew.2.2.2
  · intro id hid
    exact hid ▸ rfl
  · intro o ho hunsaved hbusy
    rcases hin o ho with hold | hnew
    · exact h.kept o hold hunsaved (by simp)
    · exact absurd (congrArg some hnew.2.1.symm) hbusy
  · intro o ho hunsaved hvalid
    rcases hin o ho with hold | hnew
    · exact h.identity o hold hunsaved hvalid
    · rw [hnew.2.2.1]
  · intro o ho hunsaved hbusy
    rcases hin o ho with hold | hnew
    · exact h.prekeys o hold hunsaved (by simp)
    · exact absurd (congrArg some hnew.2.1.symm) hbusy
  · intro o ho hunsaved hne prekey hprekey
    rcases hin o ho with hold | hnew
    · exact hshared o hold hunsaved hne prekey hprekey
    · exact absurd hnew.2.1 hne

/-- **The prekey is used up**, and no message waits for it. -/
theorem decryptIncomingContent_shelters {m : Memory} {messageId : Int} {content plain : String}
    {used : Option (KeyPair × List KeyPair)}
    (h : Opening qt crypto localDeviceId cipher truth m d messageId plain)
    (hopen : openContent qt crypto localDeviceId m.identityKey m.localPrekeys content =
      some (plain, used))
    (hshared : ∀ o ∈ d.opened, o.Unsaved qt cipher d → o.messageId ≠ messageId →
      ∀ prekey ∈ o.prekey, used.map (·.1) ≠ some prekey) :
    Shelters qt crypto localDeviceId cipher truth
      (fun r d' => Opening qt crypto localDeviceId cipher truth r.1 d' messageId plain ∧
        r.2 = some plain)
      (m.decryptIncomingContent qt crypto localDeviceId content) d := by
  unfold Memory.decryptIncomingContent
  rw [hopen]
  cases used with
  | none => exact ⟨h, rfl⟩
  | some used =>
      obtain ⟨prekey, kept⟩ := used
      obtain ⟨hvalid, hkept⟩ := openContent_used hopen
      have hhand : d.hand.map (·.messageId) = some messageId := by
        rw [h.hand]
        rfl
      refine Job.Keeps.bind ((savePrekeys_shelters h.sheltered hhand hvalid
        fun o ho hunsaved hbusy k hk => ?_).mono fun _ d' hd => ?_)
      · -- a prekey that another message waits for is not the one that is used up
        have hne : o.messageId ≠ messageId := fun hsame => hbusy (congrArg some hsame.symm)
        refine hkept k (h.sheltered.prekeys o ho hunsaved hbusy hvalid k hk) ?_
        rintro rfl
        exact hshared o ho hunsaved hne k hk rfl
      · exact ⟨⟨hd.1, hd.2.trans h.hand, h.truth⟩, rfl⟩

variable (qt truth) in
/-- What the message says now is nothing, or its plaintext. -/
def Told (msg : Json) : Prop :=
  0 < (msg.value "messageId").toLongLong → readableContent qt msg = "" ∨
    readableContent qt msg = truth (msg.value "messageId").toLongLong

theorem Remembers.insert {m : Memory} (h : Remembers truth m) {messageId : Int} {x : String}
    (hx : x = truth messageId) :
    Remembers truth { m with decryptCache := m.decryptCache.insert messageId x } := by
  intro id y hfind
  change (m.decryptCache.insert messageId x).find id = some y at hfind
  by_cases hid : id = messageId
  · subst hid
    rw [IntMap.find_insert_self] at hfind
    rw [← Option.some.inj hfind, hx]
  · rw [IntMap.find_insert_of_ne hid] at hfind
    exact h id y hfind

theorem isObject_of_messageId {msg : Json} (h : 0 < (msg.value "messageId").toLongLong) :
    msg.isObject = true := by
  cases msg with
  | obj members => rfl
  | _ => cases h

/-- A message that is told its plaintext. -/
theorem told_setContent {msg : Json} {plain : String}
    (h : 0 < (msg.value "messageId").toLongLong →
      plain = truth (msg.value "messageId").toLongLong) :
    Told qt truth (msg.setMember "content" (.str plain)) := by
  intro hid
  rw [Json.value_setMember_of_ne (by decide)] at hid ⊢
  unfold readableContent
  split
  · exact .inl rfl
  · rw [Json.value_setMember_self (isObject_of_messageId hid)]
    exact .inr (h hid)

theorem told_undecryptable {msg : Json} :
    Told qt truth ((msg.setMember "content" (.str "")).setMember "undecryptable" (.bool true)) := by
  intro hid
  rw [Json.value_setMember_of_ne (by decide), Json.value_setMember_of_ne (by decide)] at hid
  unfold readableContent
  split
  · exact .inl rfl
  · rw [Json.value_setMember_of_ne (by decide),
      Json.value_setMember_self (isObject_of_messageId hid)]
    exact .inl rfl

/-- **`decryptMessageObject`** leaves no message that was opened without its keys or a
place in a cache, and tells the message its plaintext. -/
theorem decryptMessageObject_shelters (hc : cipher.Correct) {m : Memory} (msg : Json)
    (h : Sheltered qt crypto localDeviceId cipher truth none m d) :
    Shelters qt crypto localDeviceId cipher truth
      (fun r d' => Sheltered qt crypto localDeviceId cipher truth none r.1 d' ∧
        Told qt truth r.2)
      (m.decryptMessageObject qt crypto localDeviceId cipher msg) d := by
  unfold Memory.decryptMessageObject
  dsimp only
  generalize hmsgId : (msg.value "messageId").toLongLong = msgId
  generalize (msg.value "content").toStr "" = content
  cases hhit : (if 0 < msgId then m.decryptCache.find msgId else none) with
  | some cached =>
      refine ⟨h, told_setContent fun hid => ?_⟩
      rw [hmsgId] at hid ⊢
      rw [if_pos hid] at hhit
      exact h.remembers msgId cached hhit
  | none =>
      refine Job.Keeps.bind (Job.keeps_query.mpr (Job.keeps_ite (fun hstored => ?_) fun _ => ?_))
      · have htruth : m.loadDecryptedContent cipher msgId d = truth msgId := by
          unfold Memory.loadDecryptedContent at hstored ⊢
          split at hstored
          · exact absurd rfl hstored
          · rename_i hopen
            rw [if_neg hopen]
            cases hfind : d.decryptCache.find msgId with
            | none => rw [hfind] at hstored; exact absurd rfl hstored
            | some enc =>
                rw [hfind] at hstored
                exact h.truthful.table msgId enc hfind hstored
        exact ⟨h.setMemory rfl rfl (h.remembers.insert htruth),
          told_setContent fun _ => hmsgId ▸ htruth⟩
      · cases hopen : openContent qt crypto localDeviceId m.identityKey m.localPrekeys content with
        | none =>
            unfold Memory.noteOpened Memory.decryptIncomingContent
            rw [hopen]
            exact ⟨h, told_undecryptable⟩
        | some opened =>
            obtain ⟨plain, used⟩ := opened
            refine Job.Keeps.bind ((noteOpened_shelters h hopen).mono fun _ d₁ h₁ => ?_)
            refine Job.Keeps.bind ((decryptIncomingContent_shelters h₁.1 hopen h₁.2).mono
              fun r d₂ h₂ => ?_)
            obtain ⟨m', plain'⟩ := r
            obtain ⟨hopening, rfl⟩ : _ ∧ plain' = some plain := h₂
            refine Job.Keeps.bind ((cachePlaintext_shelters hc hopening).mono fun _ _ h₃ => ?_)
            exact ⟨h₃, told_setContent (hmsgId ▸ hopening.truth)⟩

theorem upsertMessage_shelters (hc : cipher.Correct) {m : Memory} {msg : Json}
    (h : Sheltered qt crypto localDeviceId cipher truth none m d) (htold : Told qt truth msg) :
    Shelters qt crypto localDeviceId cipher truth
      (fun _ d' => Sheltered qt crypto localDeviceId cipher truth none m d')
      (m.upsertMessage qt msg) d := by
  refine Job.keeps_ite (fun _ => h) fun hstore => ?_
  have hcontent : readableContent qt msg ≠ "" := fun heq =>
    hstore (.inr (.inr (.inr heq)))
  refine Job.Keeps.bind (Job.keeps_perform (fun _ => h.restart) fun e _ => ?_)
  refine Job.keeps_ite (fun _ => ?_) fun _ => h
  refine Job.Keeps.bind ((saveDecryptedContent_shelters hc h fun hid =>
    (htold hid).resolve_left hcontent).mono fun _ _ hsaved => ?_)
  exact hsaved.sheltered

theorem receive_shelters (hc : cipher.Correct) {m : Memory} (msgs : List Json)
    (h : Sheltered qt crypto localDeviceId cipher truth none m d) :
    Shelters qt crypto localDeviceId cipher truth
      (Sheltered qt crypto localDeviceId cipher truth none)
      (m.receive qt crypto localDeviceId cipher msgs) d := by
  induction msgs generalizing m d with
  | nil => exact h
  | cons msg rest ih =>
      refine Job.Keeps.bind ((decryptMessageObject_shelters hc msg h).mono fun r d₁ h₁ => ?_)
      exact Job.Keeps.bind ((upsertMessage_shelters hc h₁.1 h₁.2).mono fun _ d₂ h₂ => ih h₂)

theorem decryptAll_shelters (hc : cipher.Correct) {m : Memory} (msgs : List Json)
    (h : Sheltered qt crypto localDeviceId cipher truth none m d) :
    Shelters qt crypto localDeviceId cipher truth
      (fun r d' => Sheltered qt crypto localDeviceId cipher truth none r.1 d' ∧
        ∀ msg ∈ r.2, Told qt truth msg)
      (m.decryptAll qt crypto localDeviceId cipher msgs) d := by
  induction msgs generalizing m d with
  | nil => exact ⟨h, fun _ hmem => by cases hmem⟩
  | cons msg rest ih =>
      refine Job.Keeps.bind ((decryptMessageObject_shelters hc msg h).mono fun r d₁ h₁ => ?_)
      refine Job.Keeps.bind ((ih h₁.1).mono fun r₂ d₂ h₂ => ?_)
      exact ⟨h₂.1, List.forall_mem_cons.mpr ⟨h₁.2, h₂.2⟩⟩

theorem upsertAll_shelters (hc : cipher.Correct) {m : Memory} {msgs : List Json}
    (h : Sheltered qt crypto localDeviceId cipher truth none m d)
    (htold : ∀ msg ∈ msgs, Told qt truth msg) :
    Shelters qt crypto localDeviceId cipher truth
      (fun _ d' => Sheltered qt crypto localDeviceId cipher truth none m d')
      (m.upsertAll qt msgs) d := by
  induction msgs generalizing d with
  | nil => exact h
  | cons msg rest ih =>
      obtain ⟨hmsg, hrest⟩ := List.forall_mem_cons.mp htold
      exact Job.Keeps.bind ((upsertMessage_shelters hc h hmsg).mono fun _ _ h₁ => ih h₁ hrest)

/-! ## The other handlers -/

/-- A bootstrap loads the prekeys of the file where there are none in memory. -/
def withStored (m : Memory) (d : Device) : Memory :=
  if m.localPrekeys = [] then { m with localPrekeys := KeyStorage.loadPrekeys d } else m

/-- **The keys are loaded** for every message that is in no cache. -/
theorem Sheltered.withStored {m m' : Memory}
    (h : Sheltered qt crypto localDeviceId cipher truth none m d)
    (hvalid : m'.identityKey.valid = true) (hmap : m'.decryptCache = m.decryptCache)
    (hidentity : ∀ o ∈ d.opened, o.Unsaved qt cipher d →
      o.identityKey.privateKey = m'.identityKey.privateKey)
    (hprekeys : m'.localPrekeys = [] ∨ m' = m) :
    Sheltered qt crypto localDeviceId cipher truth none (withStored m' d) d := by
  have hremembers : Remembers truth m' := by
    unfold Remembers
    rw [hmap]
    exact h.remembers
  unfold Client.withStored
  split
  · exact
      { truthful := h.truthful
        genuine := h.genuine
        remembers := hremembers
        keyless := fun hinvalid => absurd (hvalid.symm.trans hinvalid) (by simp)
        hand := h.hand
        kept := h.kept
        identity := fun o ho hunsaved _ => hidentity o ho hunsaved
        prekeys := fun o ho hunsaved hbusy _ prekey hprekey =>
          prekey_of_keysIn (h.kept o ho hunsaved hbusy) hprekey }
  · rename_i hsome
    rw [hprekeys.resolve_left hsome]
    exact h

variable (qt crypto localDeviceId cipher truth) in
/-- The identity key is settled: with the prekeys of the file the keys are at hand. -/
structure Identified (m : Memory) (d : Device) : Prop where
  invalid : m.identityKey.valid = false → Sheltered qt crypto localDeviceId cipher truth none m d
  valid : m.identityKey.valid = true →
    Sheltered qt crypto localDeviceId cipher truth none (withStored m d) d
  hand : d.hand = none

/-- A new identity key is drawn where the key file has none, so no message waits for
the old one. -/
theorem regenerateIdentity_shelters {m : Memory} (draws : Memory.Draws)
    (h : Sheltered qt crypto localDeviceId cipher truth none m d) (hhand : d.hand = none)
    (hinvalid : m.identityKey.valid = false)
    (hfile : (keyPairFromPrivateKey crypto (KeyStorage.loadIdentityPrivateKey d)).valid = false) :
    Shelters qt crypto localDeviceId cipher truth
      (Identified qt crypto localDeviceId cipher truth) (m.regenerateIdentity draws) d := by
  have hsaved : ∀ o ∈ d.opened, ¬o.Unsaved qt cipher d := by
    intro o ho hunsaved
    have hvalid := valid_of_keysIn (h.kept o ho hunsaved (by simp))
    exact absurd (hvalid.symm.trans hfile) (by simp)
  refine Job.keeps_ite (fun hbad => ?_) fun hgood => ?_
  · have hall : Sheltered qt crypto localDeviceId cipher truth none
        { m with identityKey := draws.identityKey } d :=
      sheltered_of_saved h.truthful h.genuine h.remembers (fun _ => h.keyless hinvalid) hsaved
    exact ⟨fun _ => hall, fun hvalid => absurd (hvalid.symm.trans hbad) (by simp), hhand⟩
  · have hvalid : draws.identityKey.valid = true := (Bool.not_eq_false _).mp hgood
    refine Job.Keeps.bind (Job.Keeps.bind (Job.keeps_query.mpr
      ((writeKeyFile_shelters h _).mono fun _ d' hd => ?_)))
    have hall : ∀ file : Option KeyFile, Sheltered qt crypto localDeviceId cipher truth none
        (withStored { m with identityKey := draws.identityKey, localPrekeys := [] }
          { d with keyFile := file }) { d with keyFile := file } := fun file =>
      sheltered_of_saved ⟨h.truthful.file, h.truthful.table⟩ h.genuine h.remembers
        (fun hbad => absurd (hvalid.symm.trans hbad) (by simp)) hsaved
    have hnot : draws.identityKey.valid ≠ false := by rw [hvalid]; simp
    cases hd with
    | same => exact ⟨fun hbad => absurd hbad hnot, fun _ => hall d.keyFile, hhand⟩
    | new => exact ⟨fun hbad => absurd hbad hnot, fun _ => hall (some _), hhand⟩
    | lost => exact ⟨fun hbad => absurd hbad hnot, fun _ => hall none, hhand⟩

theorem bootstrapIdentity_shelters {m : Memory} (draws : Memory.Draws)
    (h : Sheltered qt crypto localDeviceId cipher truth none m d) (hhand : d.hand = none) :
    Shelters qt crypto localDeviceId cipher truth
      (Identified qt crypto localDeviceId cipher truth) (m.bootstrapIdentity crypto draws) d := by
  refine Job.keeps_ite (fun hvalid => ?_) fun hinvalid => Job.Keeps.bind (Job.keeps_query.mpr ?_)
  · exact ⟨fun _ => h, fun _ => h.withStored hvalid rfl
      (fun o ho hunsaved => h.identity o ho hunsaved hvalid) (.inr rfl), hhand⟩
  · refine Job.keeps_ite (fun hload => ?_) fun hnone => ?_
    · refine ⟨fun hbad => absurd (hload.2.symm.trans hbad) (by simp), fun _ => ?_, hhand⟩
      refine h.withStored hload.2 rfl (fun o ho hunsaved => ?_)
        (.inl (h.keyless ((Bool.not_eq_true _).mp hinvalid)))
      have hkeys := h.kept o ho hunsaved (by simp)
      rw [← privateKey_of_keysIn hkeys]
      exact (keyPairFromPrivateKey_privateKey hload.2).symm
    · refine regenerateIdentity_shelters draws h hhand ((Bool.not_eq_true _).mp hinvalid) ?_
      by_contra hvalid
      have hvalid' := (Bool.not_eq_false _).mp hvalid
      refine hnone ⟨fun hempty => ?_, hvalid'⟩
      rw [hempty] at hvalid'
      cases hvalid'

theorem sendRegisterKeysRequest_shelters {m : Memory} (draws : Memory.Draws)
    (h : Sheltered qt crypto localDeviceId cipher truth none m d)
    (hvalid : m.identityKey.valid = true) (hhand : d.hand = none) :
    Shelters qt crypto localDeviceId cipher truth
      (Sheltered qt crypto localDeviceId cipher truth none) (m.sendRegisterKeysRequest draws) d := by
  refine Job.keeps_ite (fun _ => ?_) fun _ => h
  refine Job.Keeps.bind ((savePrekeys_shelters h (by rw [hhand]; rfl) hvalid
    fun o ho hunsaved hbusy prekey hprekey => ?_).mono fun _ _ h' => h'.1)
  exact List.mem_append_left _ (h.prekeys o ho hunsaved hbusy hvalid prekey hprekey)

/-- The cache file is what `bootstrapE2ee` loads. -/
theorem Truthful.loadDecryptCache (h : Truthful cipher truth d) {messageId : Int} {x : String}
    (hfind : (KeyStorage.loadDecryptCache d).find messageId = some x) : x = truth messageId :=
  h.file _ (List.mem_filter.mp (IntMap.find_eq_some.mp hfind)).1

theorem bootstrapE2ee_shelters {m : Memory} (draws : Memory.Draws)
    (h : Sheltered qt crypto localDeviceId cipher truth none m d) (hhand : d.hand = none) :
    Shelters qt crypto localDeviceId cipher truth
      (Sheltered qt crypto localDeviceId cipher truth none) (m.bootstrapE2ee crypto draws) d := by
  refine Job.keeps_ite (fun _ => h) fun _ => ?_
  refine Job.Keeps.bind ((bootstrapIdentity_shelters draws h hhand).mono fun m₁ d₁ hidentified => ?_)
  refine Job.keeps_ite (fun hinvalid => hidentified.invalid hinvalid) fun hvalid => ?_
  · have hvalid₁ : m₁.identityKey.valid = true := (Bool.not_eq_false _).mp hvalid
    have h₁ := hidentified.valid hvalid₁
    refine Job.Keeps.bind (Job.keeps_query.mpr (Job.Keeps.bind (Job.keeps_query.mpr ?_)))
    have hidentity : (withStored m₁ d₁).identityKey.valid = true := by
      unfold withStored
      split <;> exact hvalid₁
    show Shelters _ _ _ _ _ _ (do
      let m ← Memory.sendRegisterKeysRequest draws (if (withStored m₁ d₁).decryptCacheLoaded = false ∧
        (withStored m₁ d₁).storeOpen = false then
          { withStored m₁ d₁ with decryptCache := KeyStorage.loadDecryptCache d₁ }
        else withStored m₁ d₁)
      pure { m with decryptCacheLoaded := true, e2eeBootstrapPending := true }) d₁
    generalize withStored m₁ d₁ = m₂ at h₁ hidentity
    have hloaded : Sheltered qt crypto localDeviceId cipher truth none
        (if m₂.decryptCacheLoaded = false ∧ m₂.storeOpen = false then
          { m₂ with decryptCache := KeyStorage.loadDecryptCache d₁ } else m₂) d₁ := by
      split
      · exact h₁.setMemory rfl rfl fun _ _ hfind => h₁.truthful.loadDecryptCache hfind
      · exact h₁
    refine Job.Keeps.bind ((sendRegisterKeysRequest_shelters draws hloaded ?_
      hidentified.hand).mono fun m₃ d₃ h₃ => ?_)
    · split <;> exact hidentity
    · exact h₃.setMemory rfl rfl h₃.remembers

/-- **The import** has each entry of the cache file in the table, unless a save is on
record as failed. -/
theorem importEntries_shelters (hc : cipher.Correct) {m : Memory} (hopen : m.storeOpen = true)
    {entries : List (Int × String)}
    (h : Sheltered qt crypto localDeviceId cipher truth none m d)
    (hentries : ∀ x ∈ entries, x.2 = truth x.1) :
    Shelters qt crypto localDeviceId cipher truth
      (fun _ d' => Sheltered qt crypto localDeviceId cipher truth none m d' ∧
        d'.cacheFile = d.cacheFile ∧
        (d'.saveFailed = false → d.saveFailed = false ∧
          ∀ x ∈ entries, 0 < x.1 → x.2 ≠ "" → d'.inTable cipher x = true) ∧
        ∀ x : Int × String, x.2 = truth x.1 → d.inTable cipher x = true →
          d'.inTable cipher x = true)
      (m.importEntries entries) d := by
  induction entries generalizing d with
  | nil => exact ⟨h, rfl, fun hfailed => ⟨hfailed, fun _ hx => by cases hx⟩, fun _ _ hx => hx⟩
  | cons entry rest ih =>
      obtain ⟨hentry, hrest⟩ := List.forall_mem_cons.mp hentries
      refine Job.Keeps.bind ((saveDecryptedContent_shelters hc h fun _ => hentry).mono
        fun saved d₁ h₁ => (ih h₁.sheltered hrest).mono fun _ d₂ h₂ => ?_)
      obtain ⟨hsheltered, hfile, hin, htable⟩ := h₂
      refine ⟨hsheltered, hfile.trans h₁.cacheFile, fun hfailed => ?_,
        fun x hx hbefore => htable x hx (h₁.table x hx hbefore)⟩
      obtain ⟨hfailed₁, hrests⟩ := hin hfailed
      obtain ⟨hfailed₀, hsaved⟩ := h₁.failed hfailed₁
      refine ⟨hfailed₀, List.forall_mem_cons.mpr ⟨fun hid hplain => ?_, hrests⟩⟩
      exact htable entry hentry (h₁.entry (hsaved hopen hid hplain))

/-- The cache file is given up for a table that has its entries. -/
theorem importLegacyDecryptCache_shelters (hc : cipher.Correct) {m : Memory}
    (order : Memory.HashOrder) (h : Sheltered qt crypto localDeviceId cipher truth none m d) :
    Shelters qt crypto localDeviceId cipher truth
      (fun _ d' => Sheltered qt crypto localDeviceId cipher truth none m d')
      (m.importLegacyDecryptCache order) d := by
  refine Job.Keeps.bind (Job.keeps_query.mpr (Job.keeps_ite (fun _ => h) fun hdo => ?_))
  have hopen : m.storeOpen = true := (Bool.not_eq_false _).mp fun hclosed => hdo (.inl hclosed)
  have hentries : ∀ x ∈ order.walk (KeyStorage.loadDecryptCache d).entries, x.2 = truth x.1 :=
    fun x hx => h.truthful.file x (List.mem_filter.mp ((order.perm _).mem_iff.mp hx)).1
  refine Job.Keeps.bind ((importEntries_shelters hc hopen h hentries).mono fun _ d₁ h₁ => ?_)
  obtain ⟨hsheltered, hfile, hin, -⟩ := h₁
  refine Job.Keeps.bind (Job.keeps_perform (fun _ => hsheltered.restart) fun e he => ?_)
  show Sheltered _ _ _ _ _ _ _ (if e.works = true then ({ d₁ with cacheFile := none }, true)
    else (d₁, false) : Device × Bool).1
  split
  · rename_i hworks
    obtain ⟨hfailed, hplain⟩ := he hworks
    have hempty : ∀ x ∈ ({ d₁ with cacheFile := none } : Device).fileEntries, x.2 = truth x.1 :=
      fun x hx => by cases hx
    refine hsheltered.of_cached ⟨hempty, hsheltered.truthful.table⟩ rfl rfl rfl
      fun o ho hcached => cached_iff.mpr (.inl ?_)
    refine (cached_iff.mp hcached).elim id fun hold => ?_
    have hpositive := (hsheltered.genuine o ho).positive
    refine (hin hfailed).2 _ ((order.perm _).mem_iff.mpr (List.mem_filter.mpr ⟨?_, ?_⟩)) hpositive
      (hplain _ hold)
    · unfold Device.fileEntries at hold
      rwa [hfile] at hold
    · exact decide_eq_true hpositive
  · exact hsheltered

theorem handle_shelters (hc : cipher.Correct) {m : Memory} (e : ClientEvent)
    (h : Sheltered qt crypto localDeviceId cipher truth none m d) (hhand : d.hand = none) :
    Shelters qt crypto localDeviceId cipher truth
      (Sheltered qt crypto localDeviceId cipher truth none)
      (e.handle qt crypto localDeviceId cipher m) d := by
  cases e with
  | loginResponse opens order =>
      have hopened : Sheltered qt crypto localDeviceId cipher truth none
          { m with storeOpen := m.storeOpen || opens } d := h.setMemory rfl rfl h.remembers
      exact Job.Keeps.bind ((importLegacyDecryptCache_shelters hc order hopened).mono
        fun _ _ h₁ => h₁)
  | bootstrapE2ee draws => exact bootstrapE2ee_shelters draws h hhand
  | registerKeysResponse remaining => exact h.setMemory rfl rfl h.remembers
  | newMessageNotification msg => exact receive_shelters hc _ h
  | syncMessagesResponse msgs => exact receive_shelters hc _ h
  | syncEventsResponse msgs =>
      refine Job.Keeps.bind ((decryptAll_shelters hc _ h).mono fun r d₁ h₁ => ?_)
      exact Job.Keeps.bind ((upsertAll_shelters hc h₁.1 h₁.2).mono fun _ _ h₂ => h₂)
  | storeLost => exact h.setMemory rfl rfl h.remembers
  | resetAuthState => exact h.restart

/-! ## Runs -/

/-- **No decrypted message is lost**, as long as the process does not die between the
loss of a prekey and the caching of what it opened, no call of the fallback fails or is
made with a map that is full or not loaded, and no file is lost on the way. -/
theorem plaintextsKept_of_sheltered (hc : cipher.Correct) {p : ClientProcess}
    {ops : List (Event ClientEvent Outcome)}
    (hp : (receivingMachine qt crypto localDeviceId cipher).init p)
    (htruth : Truthful cipher truth p.medium)
    (h : (receivingMachine qt crypto localDeviceId cipher).Along
      (Process.Meets (sheltered qt crypto cipher truth)) p ops) :
    (receivingMachine qt crypto localDeviceId cipher).Always
      (PlaintextsKept qt crypto localDeviceId cipher) p ops := by
  have hstart : Process.Holds (deviceMedium cipher) (sheltered qt crypto cipher truth)
      (Sheltered qt crypto localDeviceId cipher truth none {})
      (Sheltered qt crypto localDeviceId cipher truth none) p := by
    obtain ⟨hjob, hmemory, hopened⟩ := hp
    unfold Process.Holds
    rw [hjob, hmemory]
    have hnothing : ∀ o, o ∉ p.medium.opened := by
      rw [hopened]
      exact fun _ => List.not_mem_nil
    exact sheltered_of_saved htruth (fun o ho => absurd ho (hnothing o))
      (fun _ _ hfind => by cases hfind) (fun _ => rfl) fun o ho => absurd ho (hnothing o)
  have hstep : ∀ (p : ClientProcess) (op : Event ClientEvent Outcome),
      Process.Holds (deviceMedium cipher) (sheltered qt crypto cipher truth)
        (Sheltered qt crypto localDeviceId cipher truth none {})
        (Sheltered qt crypto localDeviceId cipher truth none) p →
      p.Meets (sheltered qt crypto cipher truth) op →
      Process.Holds (deviceMedium cipher) (sheltered qt crypto cipher truth)
        (Sheltered qt crypto localDeviceId cipher truth none {})
        (Sheltered qt crypto localDeviceId cipher truth none)
        ((receivingMachine qt crypto localDeviceId cipher).step p op) := by
    intro p op hholds hop
    refine hholds.step (fun _ _ h => h.restart) (fun _ h => h) (fun e m d hd => ?_) hop
    exact (handle_shelters hc e hd.enter rfl).mono fun _ _ h' _ => h'
  refine Machine.Always.mono (fun p hholds hidle o ho => ?_)
    (Machine.always_of_along hstep hstart h)
  exact (hholds.idle hidle).plaintextKept ho

end

/-! ## A message for bob -/

/-- Primitives in which the private and the public half of a key differ by the
base point, and a ciphertext names its key. -/
def additiveCrypto : Crypto where
  hkdf key _ _ := List.zipWith (fun a b => a + 3 * b) (key.take 32) (key.drop 32)
  gcmSeal key _ plaintext := key.take 16 ++ plaintext
  gcmOpen key _ ciphertext :=
    if ciphertext.take 16 = key.take 16 then some (ciphertext.drop 16) else none
  ed25519Sign _ _ := []
  ed25519Verify _ _ _ := false
  x25519 a b := some (List.zipWith (· + ·) a b)

def additiveKeyPair (n : UInt8) : KeyPair :=
  keyPairFromPrivateKey additiveCrypto (List.replicate 32 n)

/-- Bob's key file: his identity key and one prekey. -/
def bobsKeyFile : KeyFile where
  identityPriv := List.replicate 32 1
  prekeys := [additiveKeyPair 2]

/-- The message key of a message for that prekey. -/
def bobsMessageKey : Bytes :=
  E2eeCrypto.deriveMessageKey additiveCrypto
    (E2eeCrypto.ecdh additiveCrypto (additiveKeyPair 3).privateKey (additiveKeyPair 2).publicKey
      ++ E2eeCrypto.ecdh additiveCrypto (additiveKeyPair 3).privateKey (additiveKeyPair 1).publicKey)

/-- A message for bob that says hi. -/
def envelopeForBob : Json := .obj
  [ ("devices", .arr [.obj
      [ ("ct", .str (Lib.Base64.encode (bobsMessageKey.take 16 ++ toUtf8 "hi")))
      , ("deviceId", .str "b")
      , ("eph", .str (Lib.Base64.encode (additiveKeyPair 3).publicKey))
      , ("iv", .str (Lib.Base64.encode (List.replicate 12 0)))
      , ("prekeyId", .int 7) ]])
  , ("v", .int 1) ]

def bobsQt : Qt := Qt.ofDocuments [envelopeForBob]

def bobsProcess : ClientProcess where
  medium := { keyFile := some bobsKeyFile }
  memory := {}

def messageForBob : ClientEvent := .newMessageNotification (.obj
  [("messageId", .int 5), ("conversationId", .int 20), ("content", .str envelopeForBob.text)])

/-- The next write, and it works. -/
def written : Event ClientEvent Outcome := .next { works := true }

/-- Bob signs in with the store open or not, and loads his keys. -/
def bobSignsIn (opens : Bool) : List (Event ClientEvent Outcome) :=
  [ .start (.loginResponse opens ⟨id, fun _ => .rfl⟩), written
  , .start (.bootstrapE2ee {}), written, written, written, written ]

/-- The message arrives and its prekey leaves the key file. -/
def prekeyUsed : List (Event ClientEvent Outcome) :=
  [.start messageForBob, written, written, written, written]

def fallbackImported : List (Event ClientEvent Outcome) :=
  prekeyUsed ++ [written, written, .crash] ++
    [.start (.loginResponse true ⟨id, fun _ => .rfl⟩), written, written, .crash]

/-- There is one message, and it says hi. -/
theorem bobsProcess_truthful : Truthful plainCipher (fun _ => "hi") bobsProcess.medium where
  file _ hx := by cases hx
  table _ _ h := by cases h

/-- Without a store the plaintext goes to the cache file, and from there, after a
crash, into the table. -/
theorem plaintextsKept_imported :
    ((receivingMachine bobsQt additiveCrypto "b" plainCipher).run bobsProcess
        (bobSignsIn false ++ fallbackImported)).medium.decryptCache.size = 1 ∧
      (receivingMachine bobsQt additiveCrypto "b" plainCipher).Always
        (PlaintextsKept bobsQt additiveCrypto "b" plainCipher) bobsProcess
        (bobSignsIn false ++ fallbackImported) :=
  ⟨by decide +kernel, plaintextsKept_of_sheltered plainCipher_correct ⟨rfl, rfl, rfl⟩
    bobsProcess_truthful (by decide +kernel)⟩

/-- **The defect**: after a crash before the plaintext is written, nothing is left
of the message. -/
theorem crash_losesPlaintext :
    (receivingMachine bobsQt additiveCrypto "b" plainCipher).init bobsProcess ∧
      ¬(receivingMachine bobsQt additiveCrypto "b" plainCipher).Always
        (PlaintextsKept bobsQt additiveCrypto "b" plainCipher) bobsProcess
        (bobSignsIn true ++ prekeyUsed ++ [.crash]) := by
  refine ⟨⟨rfl, rfl, rfl⟩, fun h => ?_⟩
  have hlost := h.last
  revert hlost
  unfold PlaintextsKept
  decide +kernel

end XYChat.Client
