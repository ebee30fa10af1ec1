import XYChat.Client.PlaintextsKept
import XYChat.Client.WireFormats
import XYChat.Client.MessageStatus

/-!
# A private message from end to end

The sender encrypts a text for the devices of the recipient, one of them decrypts
it and stores it, and the sender stores its own copy. The wire, the caches and the
store tell ciphertext from plaintext by the shape of one field, and the store keeps
nothing that has the shape of a ciphertext: the text reads back on both sides
exactly when it has none of the three.
-/

namespace XYChat

open E2eeCrypto (KeyPair EnvelopeEntry)

/-! ## Correct primitives -/

namespace E2eeCrypto

/-- A key pair as `generateX25519KeyPair` and `keyPairFromPrivateKey` make it. -/
structure KeyPair.Proper (crypto : Crypto) (pair : KeyPair) : Prop where
  valid : pair.valid = true
  privateKey : pair.privateKey.length = x25519KeySize
  publicKey : pair.publicKey.length = x25519KeySize
  derived : crypto.x25519 pair.privateKey Client.x25519BasePoint = some pair.publicKey

end E2eeCrypto

/-- X25519 agrees between two key pairs, HKDF gives 32 bytes, and AES-GCM opens
what it sealed, under the key it was sealed with and no other. -/
structure Crypto.Correct (crypto : Crypto) : Prop where
  hkdf : ∀ key salt info, (crypto.hkdf key salt info).length = 32
  agrees : ∀ a b : KeyPair, a.Proper crypto → b.Proper crypto →
    ∃ shared, shared.length = 32 ∧ crypto.x25519 a.privateKey b.publicKey = some shared ∧
      crypto.x25519 b.privateKey a.publicKey = some shared
  tag : ∀ key iv plaintext, key.length = 32 →
    E2eeCrypto.gcmTagSize ≤ (crypto.gcmSeal key iv plaintext).length
  opens : ∀ key iv plaintext, key.length = 32 →
    crypto.gcmOpen key iv (crypto.gcmSeal key iv plaintext) = some plaintext
  rejects : ∀ key key' iv plaintext, key.length = 32 → key'.length = 32 → key' ≠ key →
    crypto.gcmOpen key' iv (crypto.gcmSeal key iv plaintext) = none

section

variable {crypto : Crypto} (hc : crypto.Correct)
include hc

theorem Crypto.Correct.ecdh {a b : KeyPair} (ha : a.Proper crypto) (hb : b.Proper crypto) :
    (E2eeCrypto.ecdh crypto a.privateKey b.publicKey).length = 32 ∧
      E2eeCrypto.ecdh crypto b.privateKey a.publicKey =
        E2eeCrypto.ecdh crypto a.privateKey b.publicKey := by
  obtain ⟨shared, hlength, hab, hba⟩ := hc.agrees a b ha hb
  unfold E2eeCrypto.ecdh
  rw [if_pos ⟨ha.privateKey, hb.publicKey⟩, if_pos ⟨hb.privateKey, ha.publicKey⟩, hab, hba]
  exact ⟨hlength, rfl⟩

theorem Crypto.Correct.deriveMessageKey {shared : Bytes} (h : shared ≠ []) :
    (E2eeCrypto.deriveMessageKey crypto shared).length = 32 := by
  unfold E2eeCrypto.deriveMessageKey
  rw [if_neg h]
  exact hc.hkdf _ _ _

/-- Under whatever key, a sealed text opens to itself or not at all. -/
theorem Crypto.Correct.decrypt_sealed {key key' iv plaintext : Bytes} (hkey : key.length = 32)
    (hiv : iv.length = E2eeCrypto.gcmIvSize) :
    E2eeCrypto.aesGcmDecrypt crypto key' iv (crypto.gcmSeal key iv plaintext) =
      if key' = key then plaintext else [] := by
  unfold E2eeCrypto.aesGcmDecrypt
  by_cases hsame : key' = key
  · rw [if_pos hsame, hsame, if_pos ⟨hkey, hiv, hc.tag _ _ _ hkey⟩, hc.opens _ _ _ hkey]
    rfl
  · rw [if_neg hsame]
    by_cases hkey' : key'.length = 32
    · rw [if_pos ⟨hkey', hiv, hc.tag _ _ _ hkey⟩, hc.rejects _ _ _ _ hkey hkey' hsame]
      rfl
    · rw [if_neg fun h => hkey' h.1]

end

namespace Client

open Lib

/-! ## An exchange -/

/-- The keys of one device of the recipient, of which the sender is told the
public halves. -/
structure KeyBundle where
  deviceId : String
  prekeyId : Int
  identityKey : KeyPair
  prekey : KeyPair

/-- The bundle as the server hands it out. -/
def KeyBundle.json (qt : Qt) (bundle : KeyBundle) : Json := .obj
  [ ("deviceId", .str bundle.deviceId)
  , ("identityPub", .str (qt.toBase64 bundle.identityKey.publicKey))
  , ("prekeyId", .int bundle.prekeyId)
  , ("prekeyPub", .str (qt.toBase64 bundle.prekey.publicKey)) ]

/-- A bundle of a registered device: real keys, and a prekey id that survives its
way through a double. -/
structure KeyBundle.Registered (crypto : Crypto) (bundle : KeyBundle) : Prop where
  deviceId : bundle.deviceId ≠ ""
  prekeyId : 0 < bundle.prekeyId ∧ bundle.prekeyId < 2 ^ 53
  identityKey : bundle.identityKey.Proper crypto
  prekey : bundle.prekey.Proper crypto

/-- A sending device with the bundles it encrypts for and what it draws, and a
receiving device. -/
structure Exchange where
  identityKey : KeyPair
  localDeviceId : String
  draw : Nat → Drawn
  bundles : List KeyBundle
  receiver : Memory
  receiverDeviceId : String

namespace Exchange

/-- The keys match: the receiver has the private halves of a bundle for its
device. The sender may have no identity key. -/
structure Matching (crypto : Crypto) (x : Exchange) : Prop where
  identityKey : x.identityKey.valid = true → x.identityKey.Proper crypto
  ephemeral : ∀ n, (x.draw n).ephemeral.Proper crypto
  iv : ∀ n, (x.draw n).iv.length = E2eeCrypto.gcmIvSize
  registered : ∀ bundle ∈ x.bundles, bundle.Registered crypto
  addressed : ∃ bundle ∈ x.bundles, bundle.deviceId = x.receiverDeviceId ∧
    bundle.identityKey = x.receiver.identityKey ∧ bundle.prekey ∈ x.receiver.localPrekeys

section

variable (qt : Qt) (crypto : Crypto)

/-- What the sender puts on the wire. -/
def entries (x : Exchange) (plaintext : String) : Option (List EnvelopeEntry) :=
  userEntries qt crypto x.identityKey x.localDeviceId x.draw (x.bundles.map (·.json qt))
    (toUtf8 plaintext)

def content (x : Exchange) (plaintext : String) : String :=
  encryptForUser qt crypto x.identityKey x.localDeviceId x.draw (x.bundles.map (·.json qt))
    plaintext

end

end Exchange

/-- The JSON codec gives back the envelope, which it prints as an object. -/
structure Conveys (qt : Qt) (entries : List EnvelopeEntry) : Prop where
  object : (qt.toJson (E2eeCrypto.encodeEnvelope qt entries)).front = '\x7b'
  json : qt.fromJson (qt.toJson (E2eeCrypto.encodeEnvelope qt entries)) =
    some (E2eeCrypto.encodeEnvelope qt entries)

/-! ## Entries -/

/-- The entry is in shape, and what it seals is this text. -/
structure Seals (crypto : Crypto) (plainBytes : Bytes) (entry : EnvelopeEntry) : Prop where
  wellSized : entry.wellSized = true
  exact : (Json.int entry.prekeyId).doubleAsInt64 = entry.prekeyId
  sealed : ∃ key : Bytes, key.length = 32 ∧
    entry.ciphertext = crypto.gcmSeal key entry.iv plainBytes

/-- The key of an entry for the device, as the device itself computes it. -/
def KeyBundle.messageKey (crypto : Crypto) (bundle : KeyBundle) (ephemeralPublicKey : Bytes) :
    Bytes :=
  E2eeCrypto.deriveMessageKey crypto
    (E2eeCrypto.ecdh crypto bundle.prekey.privateKey ephemeralPublicKey
      ++ E2eeCrypto.ecdh crypto bundle.identityKey.privateKey ephemeralPublicKey)

/-- The entry seals the text for this device. -/
structure SealsFor (crypto : Crypto) (plainBytes : Bytes) (bundle : KeyBundle)
    (entry : EnvelopeEntry) : Prop extends Seals crypto plainBytes entry where
  deviceId : entry.deviceId = bundle.deviceId
  prekeyId : entry.prekeyId ≠ E2eeCrypto.selfCopyPrekeyId
  messageKey : (bundle.messageKey crypto entry.ephemeralPublicKey).length = 32
  ciphertext : entry.ciphertext =
    crypto.gcmSeal (bundle.messageKey crypto entry.ephemeralPublicKey) entry.iv plainBytes

section

variable {qt : Qt} {crypto : Crypto} {plainBytes : Bytes}

theorem Seals.iv {entry : EnvelopeEntry} (h : Seals crypto plainBytes entry) :
    entry.iv.length = E2eeCrypto.gcmIvSize := by
  have hsized := h.wellSized
  unfold EnvelopeEntry.wellSized at hsized
  simp only [Bool.and_eq_true, beq_iff_eq] at hsized
  exact hsized.1.2

/-- **Sealing.** With keys as they should be an entry is made. -/
theorem sealEntry_seals (hc : crypto.Correct) {drawn : Drawn} {shared : Bytes} {deviceId : String}
    {prekeyId : Int} (hephemeral : drawn.ephemeral.Proper crypto)
    (hiv : drawn.iv.length = E2eeCrypto.gcmIvSize) (hshared : shared ≠ [])
    (hdevice : deviceId ≠ "") (hprekey : 0 ≤ prekeyId) (hlt : prekeyId < 2 ^ 53) :
    ∃ entry, sealEntry crypto drawn shared plainBytes deviceId prekeyId = some entry ∧
      Seals crypto plainBytes entry ∧ entry.deviceId = deviceId ∧ entry.prekeyId = prekeyId ∧
      entry.ephemeralPublicKey = drawn.ephemeral.publicKey ∧
      entry.ciphertext =
        crypto.gcmSeal (E2eeCrypto.deriveMessageKey crypto shared) entry.iv plainBytes := by
  have hkey := hc.deriveMessageKey hshared
  have hseal : E2eeCrypto.aesGcmEncrypt crypto (E2eeCrypto.deriveMessageKey crypto shared) drawn.iv
      plainBytes = some (drawn.iv, crypto.gcmSeal (E2eeCrypto.deriveMessageKey crypto shared)
        drawn.iv plainBytes) := if_pos hkey
  unfold sealEntry
  rw [hseal]
  refine ⟨_, rfl, ⟨?_, Json.doubleAsInt64_int hprekey (le_of_lt hlt), _, hkey, rfl⟩, rfl, rfl, rfl, rfl⟩
  have htag := hc.tag (E2eeCrypto.deriveMessageKey crypto shared) drawn.iv plainBytes hkey
  unfold EnvelopeEntry.wellSized
  simp [hdevice, hprekey, hiv, htag, hephemeral.publicKey]

/-- The entry for a registered device, under the secret it shares with it. -/
theorem encryptForBundle_seals (hc : crypto.Correct)
    (hbase64 : qt.Base64) {drawn : Drawn}
    {bundle : KeyBundle} (hephemeral : drawn.ephemeral.Proper crypto)
    (hiv : drawn.iv.length = E2eeCrypto.gcmIvSize) (hbundle : bundle.Registered crypto) :
    ∃ entry, encryptForBundle qt crypto drawn plainBytes (bundle.json qt) = some entry ∧
      SealsFor crypto plainBytes bundle entry := by
  obtain ⟨hpositive, hlt⟩ := hbundle.prekeyId
  obtain ⟨hprekey, hprekey'⟩ := hc.ecdh hephemeral hbundle.prekey
  obtain ⟨hidentity, hidentity'⟩ := hc.ecdh hephemeral hbundle.identityKey
  have hread : ((bundle.json qt).value "deviceId").toStr "" = bundle.deviceId ∧
      ((bundle.json qt).value "prekeyId").doubleAsInt64 = bundle.prekeyId ∧
      qt.fromBase64 (((bundle.json qt).value "identityPub").toStr "") =
        bundle.identityKey.publicKey ∧
      qt.fromBase64 (((bundle.json qt).value "prekeyPub").toStr "") =
        bundle.prekey.publicKey :=
    ⟨rfl, Json.doubleAsInt64_int (by omega) (le_of_lt hlt), hbase64 _, hbase64 _⟩
  obtain ⟨hdeviceId, hprekeyId, hidentityPub, hprekeyPub⟩ := hread
  unfold encryptForBundle
  dsimp only
  rw [hdeviceId, hprekeyId, hidentityPub, hprekeyPub,
    if_neg (not_or.mpr ⟨hbundle.deviceId, by omega⟩), if_neg (by rw [hephemeral.valid]; decide),
    if_neg (by rw [List.length_append, hprekey, hidentity]; decide)]
  have hshared : E2eeCrypto.ecdh crypto bundle.prekey.privateKey drawn.ephemeral.publicKey ++
      E2eeCrypto.ecdh crypto bundle.identityKey.privateKey drawn.ephemeral.publicKey ≠ [] := by
    rw [hprekey', hidentity']
    intro hnone
    rw [(List.append_eq_nil_iff.mp hnone).1] at hprekey
    cases hprekey
  rw [← hprekey', ← hidentity']
  obtain ⟨entry, hentry, hseals, hdevice, hid, hpublic, hciphertext⟩ :=
    @sealEntry_seals crypto plainBytes hc drawn _ _ bundle.prekeyId hephemeral hiv hshared
      hbundle.deviceId (by omega) hlt
  refine ⟨entry, hentry, hseals, hdevice, ?_, ?_, ?_⟩
  · rw [hid]
    show bundle.prekeyId ≠ 0
    omega
  · rw [hpublic]
    exact hc.deriveMessageKey hshared
  · rw [hpublic]
    exact hciphertext

/-- The copy for the own device, where one is made. -/
theorem selfEntry_seals (hc : crypto.Correct) {identityKey : KeyPair} {localDeviceId : String}
    {drawn : Drawn} (hidentity : identityKey.valid = true → identityKey.Proper crypto)
    (hephemeral : drawn.ephemeral.Proper crypto)
    (hiv : drawn.iv.length = E2eeCrypto.gcmIvSize) :
    ∀ entry ∈ selfEntry crypto identityKey localDeviceId drawn plainBytes,
      Seals crypto plainBytes entry := by
  intro entry hentry
  unfold selfEntry at hentry
  split at hentry
  · cases hentry
  · rename_i hmade
    simp only [not_or, Bool.not_eq_false] at hmade
    obtain ⟨hvalid, hdevice, -⟩ := hmade
    obtain ⟨hshared, -⟩ := hc.ecdh hephemeral (hidentity hvalid)
    dsimp only at hentry
    rw [if_neg (not_not.mpr hshared)] at hentry
    have htwice : E2eeCrypto.ecdh crypto drawn.ephemeral.privateKey identityKey.publicKey ++
        E2eeCrypto.ecdh crypto drawn.ephemeral.privateKey identityKey.publicKey ≠ [] := by
      intro hnone
      rw [(List.append_eq_nil_iff.mp hnone).1] at hshared
      cases hshared
    obtain ⟨made, hmade, hseals, -⟩ := @sealEntry_seals crypto plainBytes hc drawn _ _
      E2eeCrypto.selfCopyPrekeyId hephemeral hiv htwice hdevice (by decide) (by decide)
    rw [hmade] at hentry
    cases hentry
    exact hseals

/-- Where every element is mapped, so is the list. -/
private theorem mapM_of_forall {α β : Type} {f : α → Option β} {xs : List α}
    (h : ∀ x ∈ xs, ∃ y, f x = some y) :
    ∃ ys, xs.mapM f = some ys ∧ (∀ y ∈ ys, ∃ x ∈ xs, f x = some y) ∧
      ∀ x ∈ xs, ∃ y ∈ ys, f x = some y := by
  induction xs with
  | nil =>
      refine ⟨[], rfl, ?_, ?_⟩
      · intro _ hy
        cases hy
      · intro _ hx
        cases hx
  | cons x xs ih =>
      obtain ⟨y, hy⟩ := h x List.mem_cons_self
      obtain ⟨ys, hys, hfrom, hto⟩ := ih fun z hz => h z (List.mem_cons_of_mem _ hz)
      refine ⟨y :: ys, ?_, ?_, ?_⟩
      · rw [List.mapM_cons, hy, hys]
        rfl
      · intro z hz
        rcases List.mem_cons.mp hz with rfl | hz
        · exact ⟨x, List.mem_cons_self, hy⟩
        · obtain ⟨w, hw, hwz⟩ := hfrom z hz
          exact ⟨w, List.mem_cons_of_mem _ hw, hwz⟩
      · intro z hz
        rcases List.mem_cons.mp hz with rfl | hz
        · exact ⟨y, List.mem_cons_self, hy⟩
        · obtain ⟨w, hw, hzw⟩ := hto z hz
          exact ⟨w, List.mem_cons_of_mem _ hw, hzw⟩

/-- **An envelope for registered devices is made**: every entry of it seals the
text, and each device has one of its own. -/
theorem entries_seal (hc : crypto.Correct)
    (hbase64 : qt.Base64) {x : Exchange}
    (hx : x.Matching crypto) (plaintext : String) :
    ∃ entries, x.entries qt crypto plaintext = some entries ∧
      (∀ entry ∈ entries, Seals crypto (toUtf8 plaintext) entry) ∧
      ∀ bundle ∈ x.bundles, ∃ entry ∈ entries,
        SealsFor crypto (toUtf8 plaintext) bundle entry := by
  have hbundles : ∀ y ∈ (x.bundles.map (·.json qt)).zipIdx, ∃ bundle ∈ x.bundles,
      y.1 = bundle.json qt := by
    intro y hy
    obtain ⟨bundle, hbundle, heq⟩ := List.mem_map.mp (List.fst_mem_of_mem_zipIdx hy)
    exact ⟨bundle, hbundle, heq.symm⟩
  have hmade : ∀ bundle ∈ x.bundles, ∀ n, ∃ entry,
      encryptForBundle qt crypto (x.draw n) (toUtf8 plaintext) (bundle.json qt) = some entry ∧
        SealsFor crypto (toUtf8 plaintext) bundle entry := fun bundle hbundle n =>
    encryptForBundle_seals hc hbase64 (hx.ephemeral n) (hx.iv n) (hx.registered bundle hbundle)
  obtain ⟨made, hentries, hfrom, hto⟩ := @mapM_of_forall _ _ (fun y : Json × Nat =>
      encryptForBundle qt crypto (x.draw y.2) (toUtf8 plaintext) y.1)
    (x.bundles.map (·.json qt)).zipIdx (by
      intro y hy
      obtain ⟨bundle, hbundle, heq⟩ := hbundles y hy
      obtain ⟨entry, hentry, -⟩ := hmade bundle hbundle y.2
      exact ⟨entry, by rw [heq, hentry]⟩)
  refine ⟨_, by unfold Exchange.entries userEntries; rw [hentries]; rfl, ?_, ?_⟩
  · intro entry hentry
    rcases List.mem_append.mp hentry with hentry | hself
    · obtain ⟨y, hy, hyentry⟩ := hfrom entry hentry
      obtain ⟨bundle, hbundle, heq⟩ := hbundles y hy
      obtain ⟨entry', hentry', hseals⟩ := hmade bundle hbundle y.2
      rw [heq, hentry'] at hyentry
      cases hyentry
      exact hseals.toSeals
    · exact selfEntry_seals hc hx.identityKey (hx.ephemeral _) (hx.iv _) entry
        (Option.mem_toList.mp hself)
  · intro bundle hbundle
    obtain ⟨n, hn, heq⟩ := List.getElem_of_mem (List.mem_map_of_mem (f := (·.json qt)) hbundle)
    have hmem : (bundle.json qt, n) ∈ (x.bundles.map (·.json qt)).zipIdx := by
      rw [List.mk_mem_zipIdx_iff_getElem?, List.getElem?_eq_getElem hn, heq]
    obtain ⟨entry, hentry, hopens⟩ := hto _ hmem
    obtain ⟨entry', hentry', hseals⟩ := hmade bundle hbundle n
    rw [hentry'] at hopens
    cases hopens
    exact ⟨_, List.mem_append_left _ hentry, hseals⟩

/-! ## Decoding and opening -/

/-- **Encoding and decoding** an envelope of sealed entries gives them back. -/
theorem decodeEnvelope_sealed {entries : List EnvelopeEntry} (hbase64 : qt.Base64)
    (hq : Conveys qt entries) (hne : entries ≠ [])
    (h : ∀ entry ∈ entries, Seals crypto plainBytes entry) :
    E2eeCrypto.decodeEnvelope qt (qt.toJson (E2eeCrypto.encodeEnvelope qt entries)) =
      some entries :=
  E2eeCrypto.decodeEnvelope_encoded hbase64 ⟨hq.object, hq.json⟩ hne
    fun entry hentry => ⟨(h entry hentry).wellSized, (h entry hentry).exact⟩

/-- The envelope has the shape of an envelope, and of nothing else. -/
theorem encodeEnvelope_shape {entries : List EnvelopeEntry} (hq : Conveys qt entries) :
    let content := qt.toJson (E2eeCrypto.encodeEnvelope qt entries)
    E2eeCrypto.looksLikeEnvelope qt content = true ∧
      GroupE2eeCrypto.looksLikeDistribution qt content = false ∧
      GroupE2eeCrypto.looksLikeGroupMessage qt content = false := by
  dsimp only
  unfold E2eeCrypto.looksLikeEnvelope GroupE2eeCrypto.looksLikeDistribution
    GroupE2eeCrypto.looksLikeGroupMessage GroupE2eeCrypto.looksLike
  rw [hq.json, hq.object]
  exact ⟨rfl, rfl, rfl⟩

/-- Whatever opens a sealed entry gets the text. -/
theorem openEntry_sealed (hc : crypto.Correct) {localDeviceId : String} {identityKey : KeyPair}
    {localPrekeys : List KeyPair} {entry : EnvelopeEntry} (h : Seals crypto plainBytes entry)
    {opened : Bytes × Option (KeyPair × List KeyPair)}
    (hopen : openEntry crypto localDeviceId identityKey localPrekeys entry = some opened) :
    opened.1 = plainBytes := by
  obtain ⟨key, hkey, hciphertext⟩ := h.sealed
  have hdecrypt : ∀ key', E2eeCrypto.aesGcmDecrypt crypto key' entry.iv entry.ciphertext ≠ [] →
      E2eeCrypto.aesGcmDecrypt crypto key' entry.iv entry.ciphertext = plainBytes := by
    intro key' hne
    rw [hciphertext, hc.decrypt_sealed hkey h.iv] at hne ⊢
    by_cases hsame : key' = key
    · rw [if_pos hsame]
    · rw [if_neg hsame] at hne
      exact absurd rfl hne
  unfold openEntry at hopen
  split at hopen
  · cases hopen
  split at hopen
  · cases hopen
  split at hopen
  · dsimp only at hopen
    split at hopen
    · rename_i hplain
      cases hopen
      unfold openSelfCopy at hplain ⊢
      dsimp only at hplain ⊢
      split at hplain
      · exact absurd rfl hplain
      · rename_i hdh
        rw [if_neg hdh]
        exact hdecrypt _ hplain
    · cases hopen
  · obtain ⟨⟨plain, used, kept⟩, hfound, rfl⟩ := Option.map_eq_some_iff.mp hopen
    obtain ⟨rfl, hne⟩ := tryPrekeys_eq_some hfound
    exact hdecrypt _ hne

/-- The device an entry is sealed for opens it. -/
theorem openEntry_addressed (hc : crypto.Correct) {localDeviceId : String} {identityKey : KeyPair}
    {localPrekeys : List KeyPair} {entry : EnvelopeEntry} {bundle : KeyBundle}
    (h : SealsFor crypto plainBytes bundle entry) (hplain : plainBytes ≠ [])
    (hdevice : bundle.deviceId = localDeviceId) (hvalid : identityKey.valid = true)
    (hidentity : bundle.identityKey = identityKey) (hprekey : bundle.prekey ∈ localPrekeys) :
    (openEntry crypto localDeviceId identityKey localPrekeys entry).isSome = true := by
  have hopen : openUnderPrekey crypto identityKey entry bundle.prekey ≠ [] := by
    subst hidentity
    show E2eeCrypto.aesGcmDecrypt crypto (bundle.messageKey crypto entry.ephemeralPublicKey)
      entry.iv entry.ciphertext ≠ []
    rw [h.ciphertext, hc.decrypt_sealed h.messageKey h.iv, if_pos rfl]
    exact hplain
  unfold openEntry
  rw [if_neg (by rw [h.deviceId, hdevice]; exact fun hne => hne rfl),
    if_neg (by rw [hvalid]; decide), if_neg h.prekeyId, Option.isSome_map]
  exact tryPrekeys_isSome hopen hprekey

/-- Where some element is mapped and all that are agree, so does the first. -/
private theorem findSome?_of_agree {α β : Type} {f : α → Option β} {P : β → Prop} {xs : List α}
    (hall : ∀ x ∈ xs, ∀ y, f x = some y → P y) {x : α} (hx : x ∈ xs)
    (hsome : (f x).isSome = true) :
    ∃ y, xs.findSome? f = some y ∧ P y := by
  cases hfind : xs.findSome? f with
  | none =>
      rw [List.findSome?_eq_none_iff.mp hfind x hx] at hsome
      cases hsome
  | some y =>
      obtain ⟨z, hz, hzy⟩ := List.exists_of_findSome?_eq_some hfind
      exact ⟨y, rfl, hall z hz y hzy⟩

theorem toUtf8_ne_nil {s : String} (h : s ≠ "") : toUtf8 s ≠ [] := by
  intro hnil
  have hback := fromUtf8_toUtf8 s
  rw [hnil] at hback
  exact h (hback.symm.trans rfl)

/-- **The addressed device reads the text.** -/
theorem openContent_content (hc : crypto.Correct) (hbase64 : qt.Base64) {x : Exchange}
    (hx : x.Matching crypto) {plaintext : String} (hne : plaintext ≠ "")
    (hq : ∀ entries ∈ x.entries qt crypto plaintext, Conveys qt entries) :
    (∃ used, openContent qt crypto x.receiverDeviceId x.receiver.identityKey
      x.receiver.localPrekeys (x.content qt crypto plaintext) = some (plaintext, used)) ∧
      GroupE2eeCrypto.looksLikeDistribution qt (x.content qt crypto plaintext) = false ∧
      GroupE2eeCrypto.looksLikeGroupMessage qt (x.content qt crypto plaintext) = false := by
  obtain ⟨entries, hentries, hseals, haddressed⟩ := entries_seal hc hbase64 hx plaintext
  obtain ⟨bundle, hbundle, hdevice, hidentity, hprekey⟩ := hx.addressed
  obtain ⟨entry, hentry, hfor⟩ := haddressed bundle hbundle
  have hentriesne : entries ≠ [] := List.ne_nil_of_mem hentry
  have hqe := hq entries hentries
  obtain ⟨henvelope, hdistribution, hgroup⟩ := encodeEnvelope_shape hqe
  have hcontent : x.content qt crypto plaintext =
      qt.toJson (E2eeCrypto.encodeEnvelope qt entries) := by
    unfold Exchange.entries at hentries
    unfold Exchange.content encryptForUser
    rw [hentries]
    exact if_neg hentriesne
  have hopens : (openEntry crypto x.receiverDeviceId x.receiver.identityKey
      x.receiver.localPrekeys entry).isSome = true :=
    openEntry_addressed hc hfor (toUtf8_ne_nil hne) hdevice
      (hidentity ▸ (hx.registered bundle hbundle).identityKey.valid) hidentity hprekey
  obtain ⟨opened, hopened, hplain⟩ := findSome?_of_agree
    (fun e he _ hopen => openEntry_sealed hc (hseals e he) hopen) hentry hopens
  rw [hcontent]
  refine ⟨⟨opened.2, ?_⟩, hdistribution, hgroup⟩
  unfold openContent
  rw [if_neg (by rw [henvelope]; decide), decodeEnvelope_sealed hbase64 hqe hentriesne hseals]
  dsimp only
  rw [hopened, Option.map_some, hplain, fromUtf8_toUtf8]

end

/-! ## On the way to the store -/

/-- A message with this content as it arrives. -/
structure Delivers (msg : Json) (content : String) : Prop where
  messageId : 0 < (msg.value "messageId").toLongLong
  conversationId : 0 < (msg.value "conversationId").toLongLong
  content : msg.value "content" = .str content
  contentType : (msg.value "contentType").toStr "" ≠ "sender_key_distribution"
  unmarked : (msg.value "undecryptable").toBool = false

/-- The caches have nothing for the message, or this text. -/
structure CachesAgree (cipher : TextCipher) (m : Memory) (d : Device) (messageId : Int)
    (plaintext : String) : Prop where
  memory : ∀ x ∈ m.decryptCache.find messageId, x = plaintext
  table : m.loadDecryptedContent cipher messageId d = "" ∨
    m.loadDecryptedContent cipher messageId d = plaintext

/-- The store is open, and has neither a readable content for the message nor its
deletion. -/
structure Expects (cipher : TextCipher) (store : LocalStore) (messageId : Int) : Prop where
  opened : store.opened = true
  row : ∀ row ∈ store.messages.find messageId,
    row.deleted = 0 ∧ cipher.decryptText row.contentEnc = ""

/-- `loadMessages` shows the message with this content. -/
def ReadsBack (cipher : TextCipher) (store : LocalStore) (messageId : Int) (content : String) :
    Prop :=
  ∃ conversationId limit, ∃ msg ∈ store.loadMessages cipher conversationId limit,
    msg.value "messageId" = .int messageId ∧ msg.value "content" = .str content

/-- The text has the shape of one of the ciphertexts. -/
def looksLikeCiphertext (qt : Qt) (content : String) : Bool :=
  E2eeCrypto.looksLikeEnvelope qt content || GroupE2eeCrypto.looksLikeGroupMessage qt content
    || GroupE2eeCrypto.looksLikeDistribution qt content

section

variable (qt : Qt) (sqlite : Sqlite) (cipher : TextCipher)

/-- The object `handleSendMessageResponse` makes of a message the server has
taken; `sentContent` is the text in the outbox. -/
def sentMessage (userId : Int) (username : String) (messageId conversationId : Int)
    (sentContent ackedId : String) (now : Int) : Json := .obj
  [ ("messageId", .int messageId), ("conversationId", .int conversationId)
  , ("senderId", .int userId), ("senderUsername", .str username)
  , ("content", .str sentContent), ("contentType", .str "text"), ("status", .str "sent")
  , ("clientMessageId", .str ackedId), ("createdAt", .str (qt.isoDate now)) ]

/-- What `handleSendMessageResponse` does to the messages of the store. -/
def LocalStore.storeSent (r : Nat) (userId : Int) (username : String)
    (messageId conversationId : Int) (sentContent ackedId : String) (now : Int)
    (store : LocalStore) : LocalStore :=
  if 0 < messageId ∧ 0 < conversationId ∧ sentContent ≠ "" then
    (store.upsertMessage qt sqlite cipher r
      (sentMessage qt userId username messageId conversationId sentContent ackedId now)).2
  else store

/-- `handleNewMessageNotification` on a private message: decrypt it, whichever
writes fail, and store it. -/
def LocalStore.storeReceived (crypto : Crypto) (localDeviceId : String) (e : Nat → Outcome)
    (r : Nat) (m : Memory) (d : Device) (msg : Json) (store : LocalStore) : LocalStore :=
  (store.upsertMessage qt sqlite cipher r
    ((m.decryptMessageObject qt crypto localDeviceId cipher msg).run (deviceMedium cipher) e
      d).1.2).2

end

/-- Every write may work or fail. -/
def anyOutcome : Care Device DeviceWrite Outcome where
  outcome _ _ _ := True
  leave _ _ := False

section

variable {qt : Qt} {crypto : Crypto} {localDeviceId : String} {cipher : TextCipher}

theorem keeps_anything {α : Type} (j : DeviceJob α) (d : Device) :
    Job.Keeps (deviceMedium cipher) anyOutcome (fun _ => True) (fun _ _ => True) j d := by
  induction j generalizing d with
  | ret a => exact trivial
  | read next ih => exact ih d d
  | write w next ih => exact ⟨fun _ => trivial, fun e _ => ih _ _⟩

/-- **Decrypting a message** that opens to a text, or is cached as that text, puts
the text in its place, whichever writes fail. -/
theorem decryptMessageObject_reads {m : Memory} {d : Device} {msg : Json}
    {content plaintext : String} {used : Option (KeyPair × List KeyPair)}
    (hmsg : msg.value "content" = .str content)
    (hcaches : CachesAgree cipher m d (msg.value "messageId").toLongLong plaintext)
    (hopen : openContent qt crypto localDeviceId m.identityKey m.localPrekeys content =
      some (plaintext, used)) (e : Nat → Outcome) :
    ((m.decryptMessageObject qt crypto localDeviceId cipher msg).run (deviceMedium cipher) e d).1.2 =
      msg.setMember "content" (.str plaintext) := by
  have hincoming : ∀ d', Job.Keeps (deviceMedium cipher) anyOutcome (fun _ => True)
      (fun r _ => r.2 = some plaintext)
      (m.decryptIncomingContent qt crypto localDeviceId content) d' := by
    intro d'
    unfold Memory.decryptIncomingContent
    rw [hopen]
    cases used with
    | none => exact rfl
    | some used => exact Job.Keeps.bind ((keeps_anything _ _).mono fun _ _ _ => rfl)
  have hkeeps : Job.Keeps (deviceMedium cipher) anyOutcome (fun _ => True)
      (fun r _ => r.2 = msg.setMember "content" (.str plaintext))
      (m.decryptMessageObject qt crypto localDeviceId cipher msg) d := by
    unfold Memory.decryptMessageObject
    dsimp only
    generalize (msg.value "messageId").toLongLong = msgId at hcaches
    cases hhit : (if 0 < msgId then m.decryptCache.find msgId else none) with
    | some cached =>
        have hcached : cached = plaintext := by
          by_cases hid : 0 < msgId
          · rw [if_pos hid] at hhit
            exact hcaches.memory cached hhit
          · rw [if_neg hid] at hhit
            cases hhit
        rw [hcached]
        exact rfl
    | none =>
        refine Job.Keeps.bind (Job.keeps_query.mpr (Job.keeps_ite (fun hstored => ?_) fun _ => ?_))
        · exact congrArg (fun x => msg.setMember "content" (.str x))
            (hcaches.table.resolve_left hstored)
        · refine Job.Keeps.bind ((keeps_anything _ _).mono fun _ d₁ _ => ?_)
          rw [hmsg]
          refine Job.Keeps.bind ((hincoming d₁).mono fun r d₂ hr => ?_)
          obtain ⟨m', plain⟩ := r
          obtain rfl : plain = some plaintext := hr
          exact Job.Keeps.bind ((keeps_anything _ _).mono fun _ _ _ => rfl)
  exact hkeeps.run (fun _ _ _ => trivial) e

end

/-! ## In the store -/

section

variable {qt : Qt} {crypto : Crypto} {sqlite : Sqlite} {cipher : TextCipher}

theorem loadedMessage_content (messageId : Int) (row : CachedMessage) :
    (loadedMessage cipher messageId row).value "content" =
      .str (if row.deleted ≠ 0 then "" else cipher.decryptText row.contentEnc) := by
  unfold loadedMessage
  dsimp only
  by_cases hdeleted : row.deleted = 0
  · rw [if_neg (not_not.mpr hdeleted), if_neg (not_not.mpr hdeleted)]
    by_cases hempty : cipher.decryptText row.contentEnc = ""
    · rw [if_neg (not_not.mpr hempty), hempty]
      simp [Json.value, List.lookup_cons]
    · rw [if_pos hempty]
      simp [Json.value, List.lookup_cons]
  · rw [if_pos hdeleted, if_pos hdeleted]
    simp [Json.value, List.lookup_cons]

/-- What reads back is what the row decrypts to. -/
theorem readsBack_iff_row {store : LocalStore} {messageId : Int} {content : String} :
    ReadsBack cipher store messageId content ↔ store.opened = true ∧
      ∃ row, store.messages.find messageId = some row ∧ 0 < row.conversationId ∧
        (if row.deleted ≠ 0 then "" else cipher.decryptText row.contentEnc) = content := by
  unfold ReadsBack
  rw [loads_iff]
  simp only [loadedMessage_content, Json.str.injEq]

/-- **Storing a text**: it reads back exactly when it has not the shape of a
ciphertext. -/
theorem upsertMessage_readsBack_iff (hcipher : cipher.Correct) {store : LocalStore} {r : Nat}
    {msg : Json} {content : String} (hmsg : Delivers msg content) (hne : content ≠ "")
    (hstore : Expects cipher store (msg.value "messageId").toLongLong) :
    ReadsBack cipher (store.upsertMessage qt sqlite cipher r msg).2
        (msg.value "messageId").toLongLong content ↔ looksLikeCiphertext qt content = false := by
  have hcontent : (msg.value "content").toStr "" = content := by
    rw [hmsg.content]
    rfl
  have hmarked : markUndecryptable qt msg = looksLikeCiphertext qt content := by
    unfold markUndecryptable looksLikeCiphertext
    dsimp only
    rw [hcontent, hmsg.unmarked, Bool.false_or]
  obtain ⟨row, hfind, hconv, hdeleted, -, hdecrypt⟩ := @upsertMessage_row qt sqlite cipher hcipher
    store r msg hstore.opened hmsg.messageId hmsg.conversationId
  have hopened := (@upsertMessage_opened qt sqlite cipher r msg store).trans hstore.opened
  have hblank : ((store.messages.find (msg.value "messageId").toLongLong).map (·.deleted)).getD 0 =
        0 ∧
      storedText cipher (store.messages.find (msg.value "messageId").toLongLong) = "" := by
    cases hold : store.messages.find (msg.value "messageId").toLongLong with
    | none => exact ⟨rfl, rfl⟩
    | some old => exact hstore.row old hold
  rw [hblank.1] at hdeleted
  rw [hblank.2] at hdecrypt
  rw [readsBack_iff_row, hfind]
  cases hshape : looksLikeCiphertext qt content with
  | true =>
      -- nothing readable is left of it, and nothing readable was there
      have hreadable : readableContent qt msg = "" := if_pos (hmarked.trans hshape)
      rw [if_pos hreadable] at hdecrypt
      refine ⟨fun h => ?_, fun h => by cases h⟩
      obtain ⟨-, row', hrow', -, hshown⟩ := h
      obtain rfl := Option.some.inj hrow'
      rw [if_neg (not_not.mpr hdeleted), hdecrypt] at hshown
      exact absurd hshown.symm hne
  | false =>
      have hreadable : readableContent qt msg = content := by
        unfold readableContent
        rw [hmarked, hshape, hcontent]
        rfl
      rw [hreadable, if_neg hne] at hdecrypt
      refine ⟨fun _ => rfl, fun _ => ⟨hopened, row, rfl, ?_, ?_⟩⟩
      · rcases hconv with hconv | ⟨hnone, -⟩
        · rw [hconv]
          exact hmsg.conversationId
        · exact absurd (hreadable.symm.trans hnone) hne
      · rw [if_neg (not_not.mpr hdeleted)]
        exact hdecrypt

/-- Putting a text in place of the content. -/
theorem Delivers.setContent {msg : Json} {content : String} (h : Delivers msg content)
    (plaintext : String) : Delivers (msg.setMember "content" (.str plaintext)) plaintext where
  messageId := by
    rw [Json.value_setMember_of_ne (by decide)]
    exact h.messageId
  conversationId := by
    rw [Json.value_setMember_of_ne (by decide)]
    exact h.conversationId
  content := Json.value_setMember_self (isObject_of_messageId h.messageId)
  contentType := by
    rw [Json.value_setMember_of_ne (by decide)]
    exact h.contentType
  unmarked := by
    rw [Json.value_setMember_of_ne (by decide)]
    exact h.unmarked

/-- The envelope takes the way of a private message. -/
theorem content_isPrivate (hc : crypto.Correct) (hbase64 : qt.Base64) {x : Exchange}
    (hx : x.Matching crypto) {plaintext : String} (hne : plaintext ≠ "")
    (hq : ∀ entries ∈ x.entries qt crypto plaintext, Conveys qt entries) {msg : Json}
    (hmsg : Delivers msg (x.content qt crypto plaintext)) : isPrivate qt msg = true := by
  obtain ⟨-, hdistribution, hgroup⟩ := openContent_content hc hbase64 hx hne hq
  unfold isPrivate
  dsimp only
  rw [hmsg.content]
  show (_ && !GroupE2eeCrypto.looksLikeDistribution qt (x.content qt crypto plaintext)
    && !GroupE2eeCrypto.looksLikeGroupMessage qt (x.content qt crypto plaintext)) = true
  rw [hdistribution, hgroup]
  simpa using hmsg.contentType

/-- **The receiver's copy** reads back exactly when it has not the shape of a
ciphertext. -/
theorem storeReceived_readsBack_iff (hc : crypto.Correct) (hcipher : cipher.Correct)
    (hbase64 : qt.Base64) {x : Exchange} (hx : x.Matching crypto) {plaintext : String}
    (hne : plaintext ≠ "") (hq : ∀ entries ∈ x.entries qt crypto plaintext, Conveys qt entries)
    {d : Device} {store : LocalStore} {msg : Json}
    (hmsg : Delivers msg (x.content qt crypto plaintext))
    (hcaches : CachesAgree cipher x.receiver d (msg.value "messageId").toLongLong plaintext)
    (hstore : Expects cipher store (msg.value "messageId").toLongLong) (e : Nat → Outcome)
    (r : Nat) :
    ReadsBack cipher
        (store.storeReceived qt sqlite cipher crypto x.receiverDeviceId e r x.receiver d msg)
        (msg.value "messageId").toLongLong plaintext ↔
      looksLikeCiphertext qt plaintext = false := by
  obtain ⟨⟨used, hopen⟩, -⟩ := openContent_content hc hbase64 hx hne hq
  have hid : ((msg.setMember "content" (.str plaintext)).value "messageId").toLongLong =
      (msg.value "messageId").toLongLong := by
    rw [Json.value_setMember_of_ne (by decide)]
  unfold LocalStore.storeReceived
  rw [decryptMessageObject_reads hmsg.content hcaches hopen]
  rw [← hid] at hstore ⊢
  exact upsertMessage_readsBack_iff hcipher (hmsg.setContent plaintext) hne hstore

/-- **The sender's copy.** -/
theorem storeSent_readsBack_iff (hcipher : cipher.Correct) {store : LocalStore}
    {messageId conversationId : Int} {plaintext : String} (hid : 0 < messageId)
    (hconversation : 0 < conversationId) (hne : plaintext ≠ "")
    (hstore : Expects cipher store messageId) (r : Nat) (userId : Int)
    (username ackedId : String) (now : Int) :
    ReadsBack cipher
        (store.storeSent qt sqlite cipher r userId username messageId conversationId plaintext
          ackedId now) messageId plaintext ↔
      looksLikeCiphertext qt plaintext = false := by
  unfold LocalStore.storeSent
  rw [if_pos ⟨hid, hconversation, hne⟩]
  have hmsg : Delivers (sentMessage qt userId username messageId conversationId plaintext ackedId
      now) plaintext :=
    ⟨hid, hconversation, rfl, (by decide : "text" ≠ "sender_key_distribution"), rfl⟩
  exact upsertMessage_readsBack_iff hcipher hmsg hne hstore

/-- **End to end**, a text that is encrypted for a device is read there, and on the
sender's own, exactly when it has not the shape of a ciphertext. -/
theorem plaintext_readsBack_iff {senderCipher : TextCipher} (hc : crypto.Correct)
    (hcipher : cipher.Correct) (hsender : senderCipher.Correct) (hbase64 : qt.Base64)
    {x : Exchange} (hx : x.Matching crypto) {plaintext : String} (hne : plaintext ≠ "")
    (hq : ∀ entries ∈ x.entries qt crypto plaintext, Conveys qt entries)
    {d : Device} {store sent : LocalStore} {msg : Json} {messageId conversationId : Int}
    (hmsg : Delivers msg (x.content qt crypto plaintext))
    (hcaches : CachesAgree cipher x.receiver d (msg.value "messageId").toLongLong plaintext)
    (hstore : Expects cipher store (msg.value "messageId").toLongLong)
    (hid : 0 < messageId) (hconversation : 0 < conversationId)
    (hsent : Expects senderCipher sent messageId) (e : Nat → Outcome) (r r' : Nat) (userId : Int)
    (username ackedId : String) (now : Int) :
    isPrivate qt msg = true ∧
      (ReadsBack cipher
          (store.storeReceived qt sqlite cipher crypto x.receiverDeviceId e r x.receiver d msg)
          (msg.value "messageId").toLongLong plaintext ↔
        looksLikeCiphertext qt plaintext = false) ∧
      (ReadsBack senderCipher
          (sent.storeSent qt sqlite senderCipher r' userId username messageId conversationId
            plaintext ackedId now) messageId plaintext ↔
        looksLikeCiphertext qt plaintext = false) :=
  ⟨content_isPrivate hc hbase64 hx hne hq hmsg,
    storeReceived_readsBack_iff hc hcipher hbase64 hx hne hq hmsg hcaches hstore e r,
    storeSent_readsBack_iff hsender hid hconversation hne hsent r' userId username ackedId now⟩

end

/-! ## Alice writes to bob -/

/-- Primitives in which a sealed text carries its key. -/
def openCrypto : Crypto where
  hkdf key _ _ := (key ++ List.replicate 32 0).take 32
  gcmSeal key _ plaintext := key ++ plaintext
  gcmOpen key _ ciphertext :=
    if ciphertext.take 32 = key then some (ciphertext.drop 32) else none
  ed25519Sign _ _ := []
  ed25519Verify _ _ _ := false
  x25519 a b := some (List.zipWith (· + ·) a b)

theorem openCrypto_correct : openCrypto.Correct where
  hkdf key _ _ := by
    show ((key ++ List.replicate 32 0).take 32).length = 32
    rw [List.length_take, List.length_append, List.length_replicate]
    omega
  agrees a b ha hb := by
    -- both halves of a pair differ by the base point
    have hpublic : ∀ {pair : KeyPair}, pair.Proper openCrypto →
        pair.publicKey = List.zipWith (· + ·) pair.privateKey x25519BasePoint :=
      fun hpair => (Option.some.inj hpair.derived).symm
    refine ⟨List.zipWith (· + ·) a.privateKey b.publicKey, ?_, rfl, congrArg some ?_⟩
    · rw [List.length_zipWith, ha.privateKey, hb.publicKey]
      rfl
    · rw [hpublic ha, hpublic hb]
      apply List.ext_getElem
      · simp only [List.length_zipWith]
        omega
      · intro n _ _
        simp only [List.getElem_zipWith]
        ac_rfl
  tag key _ plaintext h := by
    show 16 ≤ (key ++ plaintext).length
    rw [List.length_append, h]
    omega
  opens key _ plaintext h := by
    show (if (key ++ plaintext).take 32 = key then some ((key ++ plaintext).drop 32) else none) = _
    rw [← h, List.take_left, List.drop_left, if_pos rfl]
  rejects key key' _ plaintext h _ hne := by
    show (if (key ++ plaintext).take 32 = key' then some ((key ++ plaintext).drop 32) else none) = _
    rw [← h, List.take_left, if_neg hne.symm]

def openKeyPair (n : UInt8) : KeyPair := keyPairFromPrivateKey openCrypto (List.replicate 32 n)

theorem openKeyPair_proper (n : UInt8) : (openKeyPair n).Proper openCrypto where
  valid := rfl
  privateKey := rfl
  publicKey := rfl
  derived := rfl

/-- Alice's text for bob's only device; both have an identity key. -/
def aliceToBob : Exchange where
  identityKey := openKeyPair 1
  localDeviceId := "a"
  draw _ := { ephemeral := openKeyPair 4, iv := List.replicate 12 0 }
  bundles :=
    [{ deviceId := "b", prekeyId := 7, identityKey := openKeyPair 2, prekey := openKeyPair 3 }]
  receiver := { identityKey := openKeyPair 2, localPrekeys := [openKeyPair 3] }
  receiverDeviceId := "b"

/-- A text of alice's that has the shape of an envelope. -/
def envelopeText : String := "\x7b\"v\":1,\"devices\":[]\x7d"

/-- The message as it reaches bob. -/
def messageToBob (plaintext : String) : Json := .obj
  [ ("messageId", .int 5), ("conversationId", .int 20)
  , ("content", .str (aliceToBob.content Qt.compact openCrypto plaintext))
  , ("contentType", .str "text") ]

theorem aliceToBob_matching : aliceToBob.Matching openCrypto where
  identityKey _ := openKeyPair_proper 1
  ephemeral _ := openKeyPair_proper 4
  iv _ := rfl
  registered bundle hbundle := by
    obtain rfl := List.mem_singleton.mp hbundle
    exact ⟨by decide, by decide, openKeyPair_proper 2, openKeyPair_proper 3⟩
  addressed := ⟨_, List.mem_singleton_self _, rfl, rfl, List.mem_singleton_self _⟩

theorem compact_conveys (entries : List EnvelopeEntry) : Conveys Qt.compact entries where
  object := (compact_carries_encode (.envelope entries)).object
  json := (compact_carries_encode (.envelope entries)).json

/-- A device that sees its first message. -/
theorem messageToBob_delivers (plaintext : String) : Delivers (messageToBob plaintext)
    (aliceToBob.content Qt.compact openCrypto plaintext) :=
  ⟨(by decide : (0 : Int) < 5), (by decide : (0 : Int) < 20), rfl,
    (by decide : "text" ≠ "sender_key_distribution"), rfl⟩

theorem freshDevice_agrees (plaintext : String) :
    CachesAgree plainCipher aliceToBob.receiver {} 5 plaintext :=
  { memory := fun _ h => by cases h
    table := .inl rfl }

theorem freshStore_expects (messageId : Int) :
    Expects plainCipher freshCache.store messageId :=
  ⟨rfl, fun _ hrow => by cases hrow⟩

/-- Alice's greeting reads back for both. -/
theorem greeting_readsBack :
    isPrivate Qt.compact (messageToBob "hi") = true ∧
      ReadsBack plainCipher (freshCache.store.storeReceived Qt.compact digitSqlite plainCipher
        openCrypto "b" (fun _ => ⟨true, 0⟩) 0 aliceToBob.receiver {} (messageToBob "hi")) 5 "hi" ∧
      ReadsBack plainCipher (freshCache.store.storeSent Qt.compact digitSqlite plainCipher 0 1
        "alice" 5 20 "hi" "m1" 0) 5 "hi" := by
  have hshape : looksLikeCiphertext Qt.compact "hi" = false := by decide +kernel
  obtain ⟨hprivate, hreceived, hsent⟩ :=
    @plaintext_readsBack_iff Qt.compact openCrypto digitSqlite plainCipher plainCipher
      openCrypto_correct plainCipher_correct plainCipher_correct compact_base64
      aliceToBob aliceToBob_matching "hi" (by decide) (fun entries _ => compact_conveys entries) {}
      freshCache.store freshCache.store (messageToBob "hi") 5 20 (messageToBob_delivers "hi")
      (freshDevice_agrees _) (freshStore_expects _) (by decide) (by decide) (freshStore_expects _)
      (fun _ => ⟨true, 0⟩) 0 0 1 "alice" "m1" 0
  exact ⟨hprivate, hreceived.mpr hshape, hsent.mpr hshape⟩

/-- A text in the shape of an envelope reads back for neither. -/
theorem envelopeText_unreadable :
    ¬ReadsBack plainCipher (freshCache.store.storeReceived Qt.compact digitSqlite
        plainCipher openCrypto "b" (fun _ => ⟨true, 0⟩) 0 aliceToBob.receiver {}
        (messageToBob envelopeText)) 5 envelopeText ∧
      ¬ReadsBack plainCipher (freshCache.store.storeSent Qt.compact digitSqlite
        plainCipher 0 1 "alice" 5 20 envelopeText "m1" 0) 5 envelopeText := by
  have hshape : looksLikeCiphertext Qt.compact envelopeText ≠ false := by
    decide +kernel
  refine ⟨fun h => hshape ?_, fun h => hshape ?_⟩
  · exact (storeReceived_readsBack_iff openCrypto_correct plainCipher_correct compact_base64
      aliceToBob_matching (by decide) (fun entries _ => compact_conveys entries)
      (messageToBob_delivers envelopeText) (freshDevice_agrees _) (freshStore_expects _) _ _).mp h
  · exact (storeSent_readsBack_iff plainCipher_correct (by decide) (by decide) (by decide)
      (freshStore_expects _) 0 1 "alice" "m1" 0).mp h

end Client

end XYChat
