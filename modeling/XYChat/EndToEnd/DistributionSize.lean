import XYChat.Common.JsonText
import XYChat.Client.NetworkManager
import XYChat.Client.WireFormats
import XYChat.Server.Groups
import XYChat.Server.Keys
import XYChat.Server.Messages

/-!
# Whether a distribution is accepted

A client puts an entry for each device of each member into one message, with a copy for
itself for each member, and the server limits the message to a fixed number of characters.
The size of the message is added up from the key bundles it is built from; whatever else
the server looks at is in order.
-/

namespace XYChat.EndToEnd

open XYChat.Lib XYChat.Server XYChat.Client
open E2eeCrypto (EnvelopeEntry)
open GroupE2eeCrypto (Distribution DistributionEntry SenderKey)

/-! ## What the layout takes -/

/-- The characters of one entry: its chain key sealed, in base64 as all bytes are, and the
rest as text. -/
def entrySize (deviceId : String) (prekeyId userId : Int) : Nat :=
  200 + qsize (Json.quote deviceId) + qsize (toString prekeyId) + qsize (toString userId)

/-- The characters around the entries, and between them. -/
def documentSize (groupId senderUserId : Int) (senderDeviceId keyId : String)
    (sizes : List Nat) : Nat :=
  173 + qsize (toString groupId) + qsize (toString senderUserId)
    + qsize (Json.quote senderDeviceId) + qsize (Json.quote keyId)
    + sizes.sum + (sizes.length - 1)

/-- Its byte arrays have the lengths of a sealed chain key. -/
structure SealedKey (entry : EnvelopeEntry) : Prop where
  ephemeralPublicKey : entry.ephemeralPublicKey.length = E2eeCrypto.x25519KeySize
  iv : entry.iv.length = E2eeCrypto.gcmIvSize
  ciphertext : entry.ciphertext.length = 60

section

variable {qt : Qt} {number : Rat → String}

theorem qsize_compact_entry (hencode : qt.toBase64 = Base64.encode) {entry : DistributionEntry}
    (h : SealedKey entry.envelope) :
    qsize (Json.compact number (.obj
      [ ("ct", .str (qt.toBase64 entry.envelope.ciphertext)), ("deviceId", .str entry.deviceId)
      , ("eph", .str (qt.toBase64 entry.envelope.ephemeralPublicKey))
      , ("iv", .str (qt.toBase64 entry.envelope.iv)), ("prekeyId", .int entry.envelope.prekeyId)
      , ("userId", .int entry.userId) ])) =
      entrySize entry.deviceId entry.envelope.prekeyId entry.userId := by
  have hct := h.ciphertext
  have heph := h.ephemeralPublicKey
  have hiv := h.iv
  unfold E2eeCrypto.x25519KeySize at heph
  unfold E2eeCrypto.gcmIvSize at hiv
  simp only [hencode, Json.compact, Json.compactMembers, qsize_append, Json.qsize_joined,
    List.map_cons, List.map_nil, List.sum_cons, List.sum_nil, List.length_cons, List.length_nil,
    Json.qsize_quote_base64, hct, heph, hiv]
  have hkeys : qsize "\x7b" = 1 ∧ qsize "\x7d" = 1 ∧ qsize ":" = 1 ∧
      qsize (Json.quote "ct") = 4 ∧ qsize (Json.quote "deviceId") = 10 ∧
      qsize (Json.quote "eph") = 5 ∧ qsize (Json.quote "iv") = 4 ∧
      qsize (Json.quote "prekeyId") = 10 ∧ qsize (Json.quote "userId") = 8 := by
    decide +kernel
  obtain ⟨h1, h2, h3, h4, h5, h6, h7, h8, h9⟩ := hkeys
  unfold entrySize
  omega

theorem qsize_compact_distribution (hencode : qt.toBase64 = Base64.encode) {dist : Distribution}
    (hpub : dist.key.publicSigningKey.length = GroupE2eeCrypto.ed25519KeySize)
    (hentries : ∀ entry ∈ dist.entries, SealedKey entry.envelope) :
    qsize (Json.compact number (GroupE2eeCrypto.encodeDistribution qt dist)) =
      documentSize dist.groupId dist.senderUserId dist.senderDeviceId dist.key.keyId
        (dist.entries.map fun entry =>
          entrySize entry.deviceId entry.envelope.prekeyId entry.userId) := by
  unfold GroupE2eeCrypto.ed25519KeySize at hpub
  unfold GroupE2eeCrypto.encodeDistribution
  generalize hdevices : (dist.entries.map fun entry => Json.obj _) = devices
  have hsizes : (Json.compactValues number devices).map qsize = dist.entries.map fun entry =>
      entrySize entry.deviceId entry.envelope.prekeyId entry.userId := by
    rw [← hdevices, Json.compactValues_map, List.map_map]
    exact List.map_congr_left fun entry hentry =>
      qsize_compact_entry hencode (hentries entry hentry)
  have hcount : (Json.compactValues number devices).length = dist.entries.length := by
    rw [← List.length_map qsize, hsizes, List.length_map]
  simp only [Json.compact, Json.compactMembers, qsize_append, Json.qsize_joined, hencode,
    List.map_cons, List.map_nil, List.sum_cons, List.sum_nil, List.length_cons, List.length_nil,
    Json.qsize_quote_base64, hpub, hsizes, hcount]
  have hkeys : qsize "\x7b" = 1 ∧ qsize "\x7d" = 1 ∧ qsize "[" = 1 ∧ qsize "]" = 1 ∧
      qsize ":" = 1 ∧ qsize (Json.quote "devices") = 9 ∧ qsize (Json.quote "groupId") = 9 ∧
      qsize (Json.quote "keyId") = 7 ∧ qsize (Json.quote "publicSigningKey") = 18 ∧
      qsize (Json.quote "senderDeviceId") = 16 ∧ qsize (Json.quote "senderUserId") = 14 ∧
      qsize (Json.quote "type") = 6 ∧ qsize (Json.quote "v") = 3 ∧
      qsize (Json.quote "sender_key_distribution") = 25 ∧
      qsize (toString GroupE2eeCrypto.distributionVersion) = 1 := by
    decide +kernel
  obtain ⟨h1, h2, h3, h4, h5, h6, h7, h8, h9, h10, h11, h12, h13, h14, h15⟩ := hkeys
  unfold documentSize
  simp only [List.length_map]
  omega

end

/-! ## Which bundles become entries -/

/-- The lengths OpenSSL promises. -/
structure KnownLengths (crypto : Crypto) : Prop where
  hkdf : ∀ key salt info, (crypto.hkdf key salt info).length = 32
  gcmSeal : ∀ key iv plaintext,
    (crypto.gcmSeal key iv plaintext).length = plaintext.length + E2eeCrypto.gcmTagSize

/-- What `generateX25519KeyPair` and the random generator draw for an entry. -/
structure Fresh (drawn : Drawn) : Prop where
  publicKey : drawn.ephemeral.valid = true →
    drawn.ephemeral.publicKey.length = E2eeCrypto.x25519KeySize
  iv : drawn.iv.length = E2eeCrypto.gcmIvSize

section

variable (qt : Qt) (crypto : Crypto)

/-- What `encryptForUser` asks of a bundle: a device, a prekey, and keys that OpenSSL
agrees on secrets with. -/
def usable (drawn : Drawn) (bundle : Json) : Bool :=
  (bundle.value "deviceId").toStr "" != "" && 0 < (bundle.value "prekeyId").doubleAsInt64
    && drawn.ephemeral.valid
    && (E2eeCrypto.ecdh crypto drawn.ephemeral.privateKey
          (qt.fromBase64 ((bundle.value "prekeyPub").toStr ""))
        ++ E2eeCrypto.ecdh crypto drawn.ephemeral.privateKey
          (qt.fromBase64 ((bundle.value "identityPub").toStr ""))).length == 64

/-- What it asks for before it adds the copy for the own device. -/
def copiesItself (identityKey : E2eeCrypto.KeyPair) (localDeviceId : String) (drawn : Drawn) :
    Bool :=
  identityKey.valid && localDeviceId != "" && drawn.ephemeral.valid
    && (E2eeCrypto.ecdh crypto drawn.ephemeral.privateKey identityKey.publicKey).length == 32

/-- The sizes of a member's entries: one for each bundle and one for the copy, where every
bundle can be used, and none otherwise. -/
def memberSizes (identityKey : E2eeCrypto.KeyPair) (localDeviceId : String) (draw : Nat → Drawn)
    (userId : Int) (bundles : List Json) : List Nat :=
  if bundles.isEmpty || !bundles.zipIdx.all (fun x => usable qt crypto (draw x.2) x.1) then []
  else
    (bundles.map fun bundle => entrySize ((bundle.value "deviceId").toStr "")
      (bundle.value "prekeyId").doubleAsInt64 userId)
    ++ if copiesItself crypto identityKey localDeviceId (draw bundles.length) then
        [entrySize localDeviceId E2eeCrypto.selfCopyPrekeyId userId]
      else []

def entrySizes (identityKey : E2eeCrypto.KeyPair) (localDeviceId : String)
    (draw : Int → Nat → Drawn) : Json → List Nat
  | .obj members => members.flatMap fun x =>
      if stringToLongLong x.1 ≤ 0 then []
      else memberSizes qt crypto identityKey localDeviceId (draw (stringToLongLong x.1))
        (stringToLongLong x.1) x.2.toArray
  | _ => []

end

section

variable {qt : Qt} {crypto : Crypto} {drawn : Drawn} {plainBytes : Bytes}

/-- An entry the decoders take, with the sealed chain key in it. -/
structure Sendable (entry : EnvelopeEntry) : Prop where
  sealedKey : SealedKey entry
  wellSized : entry.wellSized = true
  prekeyId : (Json.int entry.prekeyId).doubleAsInt64 = entry.prekeyId

/-- Under a shared secret the encryption works. -/
theorem sealEntry_sendable (hcrypto : KnownLengths crypto) (hdrawn : Fresh drawn)
    (hvalid : drawn.ephemeral.valid = true) (hplain : plainBytes.length = 44) {shared : Bytes}
    (hshared : shared ≠ []) {deviceId : String} {prekeyId : Int} (hdeviceId : deviceId ≠ "")
    (hprekeyId : 0 ≤ prekeyId) (hexact : (Json.int prekeyId).doubleAsInt64 = prekeyId) :
    ∃ entry, sealEntry crypto drawn shared plainBytes deviceId prekeyId = some entry ∧
      Sendable entry ∧ entry.deviceId = deviceId ∧ entry.prekeyId = prekeyId := by
  have hkey : (E2eeCrypto.deriveMessageKey crypto shared).length = 32 := by
    unfold E2eeCrypto.deriveMessageKey
    rw [if_neg hshared]
    exact hcrypto.hkdf _ _ _
  have hlength : (crypto.gcmSeal (E2eeCrypto.deriveMessageKey crypto shared) drawn.iv
      plainBytes).length = 60 := by
    rw [hcrypto.gcmSeal, hplain]
    rfl
  refine ⟨_, by unfold sealEntry E2eeCrypto.aesGcmEncrypt; rw [if_pos hkey]; rfl, ?_, rfl, rfl⟩
  refine ⟨⟨hdrawn.publicKey hvalid, hdrawn.iv, hlength⟩, ?_, hexact⟩
  simp only [EnvelopeEntry.wellSized, Bool.and_eq_true, bne_iff_ne, beq_iff_eq,
    decide_eq_true_iff]
  refine ⟨⟨⟨⟨hdeviceId, hprekeyId⟩, hdrawn.publicKey hvalid⟩, hdrawn.iv⟩, ?_⟩
  rw [hlength]
  decide

theorem encryptForBundle_of_usable (hcrypto : KnownLengths crypto) (hdrawn : Fresh drawn)
    (hplain : plainBytes.length = 44) {bundle : Json} {n : Int}
    (hint : bundle.value "prekeyId" = .int n) (h : usable qt crypto drawn bundle = true) :
    ∃ entry, encryptForBundle qt crypto drawn plainBytes bundle = some entry ∧
      Sendable entry ∧ entry.deviceId = (bundle.value "deviceId").toStr "" ∧
      entry.prekeyId = (bundle.value "prekeyId").doubleAsInt64 := by
  simp only [usable, Bool.and_eq_true, bne_iff_ne, beq_iff_eq, decide_eq_true_iff] at h
  obtain ⟨⟨⟨hdeviceId, hprekeyId⟩, hvalid⟩, hshared⟩ := h
  have hexact : (Json.int (bundle.value "prekeyId").doubleAsInt64).doubleAsInt64 =
      (bundle.value "prekeyId").doubleAsInt64 := by
    rw [hint] at hprekeyId ⊢
    exact Json.doubleAsInt64_idem hprekeyId
  have hne : E2eeCrypto.ecdh crypto drawn.ephemeral.privateKey
        (qt.fromBase64 ((bundle.value "prekeyPub").toStr ""))
      ++ E2eeCrypto.ecdh crypto drawn.ephemeral.privateKey
        (qt.fromBase64 ((bundle.value "identityPub").toStr "")) ≠ [] := by
    intro hnil
    rw [hnil] at hshared
    simp at hshared
  unfold encryptForBundle
  dsimp only
  rw [if_neg (not_or.mpr ⟨hdeviceId, by omega⟩), if_neg (by simp [hvalid]),
    if_neg (not_not.mpr hshared)]
  exact sealEntry_sendable hcrypto hdrawn hvalid hplain hne hdeviceId hprekeyId.le hexact

theorem encryptForBundle_of_not_usable {bundle : Json}
    (h : usable qt crypto drawn bundle = false) :
    encryptForBundle qt crypto drawn plainBytes bundle = none := by
  unfold encryptForBundle
  dsimp only
  split
  · rfl
  rename_i hnamed
  split
  · rfl
  rename_i hvalid
  refine if_pos fun hshared => ?_
  simp only [usable, Bool.and_eq_false_iff, bne_eq_false_iff_eq, beq_eq_false_iff_ne,
    decide_eq_false_iff_not] at h
  rw [not_or] at hnamed
  rcases h with ((h | h) | h) | h
  · exact hnamed.1 h
  · exact hnamed.2 (by omega)
  · exact hvalid h
  · exact h hshared

/-- The copy for the own device, where there is one. -/
theorem selfEntry_sendable (hcrypto : KnownLengths crypto) (hdrawn : Fresh drawn)
    (hplain : plainBytes.length = 44) {identityKey : E2eeCrypto.KeyPair}
    {localDeviceId : String} (h : copiesItself crypto identityKey localDeviceId drawn = true) :
    ∃ entry, selfEntry crypto identityKey localDeviceId drawn plainBytes = some entry ∧
      Sendable entry ∧ entry.deviceId = localDeviceId ∧
      entry.prekeyId = E2eeCrypto.selfCopyPrekeyId := by
  simp only [copiesItself, Bool.and_eq_true, bne_iff_ne, beq_iff_eq] at h
  obtain ⟨⟨⟨hidentity, hdevice⟩, hvalid⟩, hdh⟩ := h
  unfold selfEntry
  dsimp only
  rw [if_neg (by simp [hidentity, hdevice, hvalid]), if_neg (not_not.mpr hdh)]
  refine sealEntry_sendable hcrypto hdrawn hvalid hplain ?_ hdevice (by decide) (by decide)
  intro hnil
  rw [(List.append_eq_nil_iff.mp hnil).1] at hdh
  simp at hdh

theorem selfEntry_of_not {identityKey : E2eeCrypto.KeyPair} {localDeviceId : String}
    (h : copiesItself crypto identityKey localDeviceId drawn = false) :
    selfEntry crypto identityKey localDeviceId drawn plainBytes = none := by
  unfold selfEntry
  dsimp only
  split
  · rfl
  rename_i hready
  refine if_pos fun hdh => ?_
  simp only [copiesItself, Bool.and_eq_false_iff, bne_eq_false_iff_eq,
    beq_eq_false_iff_ne] at h
  rcases h with ((h | h) | h) | h
  · exact hready (.inl h)
  · exact hready (.inr (.inl h))
  · exact hready (.inr (.inr h))
  · exact h hdh

/-! ## The entries of a member -/

variable {draw : Nat → Drawn} {userId : Int}

/-- The bundles of the response name their prekeys by integers. -/
def IntegerIds (bundles : List Json) : Prop :=
  ∀ bundle ∈ bundles, ∃ n, bundle.value "prekeyId" = .int n

variable (userId) in
theorem encryptForBundles_of_usable (hcrypto : KnownLengths crypto) (hdraw : ∀ i, Fresh (draw i))
    (hplain : plainBytes.length = 44) {xs : List (Json × Nat)}
    (hints : IntegerIds (xs.map Prod.fst))
    (h : xs.all (fun x => usable qt crypto (draw x.2) x.1) = true) :
    ∃ entries,
      xs.mapM (fun x => encryptForBundle qt crypto (draw x.2) plainBytes x.1) = some entries ∧
      (∀ entry ∈ entries, Sendable entry) ∧
      (entries.map fun entry => entrySize entry.deviceId entry.prekeyId userId) =
        xs.map fun x => entrySize ((x.1.value "deviceId").toStr "")
          (x.1.value "prekeyId").doubleAsInt64 userId := by
  induction xs with
  | nil => exact ⟨[], rfl, by simp, rfl⟩
  | cons x xs ih =>
      rw [List.all_cons, Bool.and_eq_true] at h
      obtain ⟨⟨n, hn⟩, hrest⟩ := List.forall_mem_cons.mp hints
      obtain ⟨entry, hentry, hsendable, hdeviceId, hprekeyId⟩ :=
        encryptForBundle_of_usable hcrypto (hdraw x.2) hplain hn h.1
      obtain ⟨entries, hentries, hall, hsizes⟩ := ih hrest h.2
      refine ⟨entry :: entries, ?_, List.forall_mem_cons.mpr ⟨hsendable, hall⟩, ?_⟩
      · rw [List.mapM_cons, hentry, hentries]
        rfl
      · rw [List.map_cons, List.map_cons, hsizes, hdeviceId, hprekeyId]

theorem encryptForBundles_of_not_usable {xs : List (Json × Nat)}
    (h : xs.all (fun x => usable qt crypto (draw x.2) x.1) = false) :
    xs.mapM (fun x => encryptForBundle qt crypto (draw x.2) plainBytes x.1) = none := by
  induction xs with
  | nil => cases h
  | cons x xs ih =>
      rw [List.mapM_cons]
      cases hx : usable qt crypto (draw x.2) x.1 with
      | false =>
          rw [encryptForBundle_of_not_usable hx]
          rfl
      | true =>
          rw [List.all_cons, hx, Bool.true_and] at h
          rw [ih h]
          cases encryptForBundle qt crypto (draw x.2) plainBytes x.1 <;> rfl

variable {identityKey : E2eeCrypto.KeyPair} {localDeviceId : String}

theorem userEntries_of_not_usable {bundles : List Json}
    (h : bundles.zipIdx.all (fun x => usable qt crypto (draw x.2) x.1) = false) :
    userEntries qt crypto identityKey localDeviceId draw bundles plainBytes = none := by
  unfold userEntries
  rw [encryptForBundles_of_not_usable h]
  rfl

variable (userId identityKey localDeviceId) in
/-- The entries of an envelope for a member, where all bundles can be used. -/
theorem userEntries_of_usable (hcrypto : KnownLengths crypto) (hdraw : ∀ i, Fresh (draw i))
    (hplain : plainBytes.length = 44) {bundles : List Json} (hints : IntegerIds bundles)
    (h : bundles.zipIdx.all (fun x => usable qt crypto (draw x.2) x.1) = true) :
    ∃ entries,
      userEntries qt crypto identityKey localDeviceId draw bundles plainBytes = some entries ∧
      (∀ entry ∈ entries, Sendable entry) ∧
      (entries.map fun entry => entrySize entry.deviceId entry.prekeyId userId) =
        (bundles.map fun bundle => entrySize ((bundle.value "deviceId").toStr "")
          (bundle.value "prekeyId").doubleAsInt64 userId)
        ++ if copiesItself crypto identityKey localDeviceId (draw bundles.length) then
            [entrySize localDeviceId E2eeCrypto.selfCopyPrekeyId userId]
          else [] := by
  obtain ⟨entries, hentries, hall, hsizes⟩ := encryptForBundles_of_usable userId hcrypto
    hdraw hplain (by rw [List.zipIdx_map_fst]; exact hints) h
  have hbundles : (bundles.zipIdx.map fun x => entrySize ((x.1.value "deviceId").toStr "")
      (x.1.value "prekeyId").doubleAsInt64 userId) =
      bundles.map fun bundle => entrySize ((bundle.value "deviceId").toStr "")
        (bundle.value "prekeyId").doubleAsInt64 userId := by
    rw [← List.zipIdx_map_fst 0 bundles, List.map_map]
    simp [Function.comp_def]
  rw [hbundles] at hsizes
  unfold userEntries
  rw [hentries]
  cases hcopy : copiesItself crypto identityKey localDeviceId (draw bundles.length) with
  | false =>
      refine ⟨entries, ?_, hall, by simpa using hsizes⟩
      rw [selfEntry_of_not hcopy]
      simp
  | true =>
      obtain ⟨own, hown, hsendable, hdeviceId, hprekeyId⟩ :=
        selfEntry_sendable hcrypto (hdraw _) hplain hcopy
      refine ⟨entries ++ [own], by rw [hown]; rfl, ?_, ?_⟩
      · intro entry hentry
        rcases List.mem_append.mp hentry with hentry | hentry
        · exact hall entry hentry
        · rw [List.mem_singleton.mp hentry]
          exact hsendable
      · rw [List.map_append, hsizes, List.map_singleton, hdeviceId, hprekeyId, if_pos rfl]

/-- The entries for a member once they are in the distribution. -/
def wrappedEntries (qt : Qt) (crypto : Crypto) (identityKey : E2eeCrypto.KeyPair)
    (localDeviceId : String) (draw : Nat → Drawn) (plainBytes : Bytes) (userId : Int)
    (bundles : List Json) : List DistributionEntry :=
  if bundles.isEmpty then []
  else ((userEntries qt crypto identityKey localDeviceId draw bundles plainBytes).getD []).map
    fun entry => { userId, deviceId := entry.deviceId, envelope := entry }

/-- Building the envelope and taking it apart again changes nothing. -/
theorem memberEntries_eq (hbase64 : qt.Base64) (hcrypto : KnownLengths crypto)
    (hdraw : ∀ i, Fresh (draw i)) {chainKeyB64 : String}
    (hplain : (toUtf8 chainKeyB64).length = 44) {bundles : List Json}
    (hints : IntegerIds bundles)
    (hcarries : ∀ entries, userEntries qt crypto identityKey localDeviceId draw bundles
      (toUtf8 chainKeyB64) = some entries → qt.Carries (E2eeCrypto.encodeEnvelope qt entries)) :
    memberEntries qt crypto identityKey localDeviceId draw chainKeyB64 userId bundles =
      wrappedEntries qt crypto identityKey localDeviceId draw (toUtf8 chainKeyB64) userId
        bundles := by
  unfold memberEntries wrappedEntries
  by_cases hempty : bundles.isEmpty = true
  · rw [if_pos hempty, if_pos hempty]
  rw [if_neg hempty, if_neg hempty]
  dsimp only
  cases husable : bundles.zipIdx.all (fun x => usable qt crypto (draw x.2) x.1) with
  | false =>
      have hnone : userEntries qt crypto identityKey localDeviceId draw bundles
          (toUtf8 chainKeyB64) = none := userEntries_of_not_usable husable
      have henvelope : encryptForUser qt crypto identityKey localDeviceId draw bundles
          chainKeyB64 = "" := by
        unfold encryptForUser
        rw [hnone]
      rw [if_pos henvelope, hnone]
      rfl
  | true =>
      obtain ⟨entries, hentries, hall, hsizes⟩ := userEntries_of_usable userId identityKey
        localDeviceId hcrypto hdraw hplain hints husable
      have hjson := hcarries entries hentries
      have hne : entries ≠ [] := by
        intro hnil
        rw [hnil] at hsizes
        cases bundles with
        | nil => exact hempty rfl
        | cons bundle rest => cases hsizes
      have henvelope : encryptForUser qt crypto identityKey localDeviceId draw bundles
          chainKeyB64 = qt.toJson (E2eeCrypto.encodeEnvelope qt entries) := by
        unfold encryptForUser
        rw [hentries]
        exact if_neg hne
      have hdecode := E2eeCrypto.decodeEnvelope_encoded hbase64 hjson hne fun entry hentry =>
        ⟨(hall entry hentry).wellSized, (hall entry hentry).prekeyId⟩
      rw [henvelope, if_neg hjson.ne_empty, hdecode, hentries]
      rfl

/-- **A member's entries** have the sizes that its bundles say, and are in shape. -/
theorem wrappedEntries_sizes (hcrypto : KnownLengths crypto) (hdraw : ∀ i, Fresh (draw i))
    (hplain : plainBytes.length = 44) (huserId : 0 < userId) {bundles : List Json}
    (hints : IntegerIds bundles) :
    ((wrappedEntries qt crypto identityKey localDeviceId draw plainBytes userId bundles).map
        fun entry => entrySize entry.deviceId entry.envelope.prekeyId entry.userId) =
      memberSizes qt crypto identityKey localDeviceId draw userId bundles ∧
    ∀ entry ∈ wrappedEntries qt crypto identityKey localDeviceId draw plainBytes userId bundles,
      entry.Exact ∧ SealedKey entry.envelope := by
  unfold wrappedEntries memberSizes
  cases hempty : bundles.isEmpty with
  | true => exact ⟨rfl, by simp⟩
  | false =>
  rw [if_neg (by simp), Bool.false_or]
  cases husable : bundles.zipIdx.all (fun x => usable qt crypto (draw x.2) x.1) with
  | false =>
      rw [userEntries_of_not_usable husable]
      exact ⟨rfl, by simp⟩
  | true =>
      obtain ⟨entries, hentries, hall, hsizes⟩ := userEntries_of_usable userId identityKey
        localDeviceId hcrypto hdraw hplain hints husable
      rw [hentries, Option.getD_some]
      constructor
      · rw [List.map_map, Bool.not_true, if_neg Bool.false_ne_true]
        exact hsizes
      · intro entry hentry
        obtain ⟨entry, hmem, rfl⟩ := List.mem_map.mp hentry
        have hsendable := hall entry hmem
        exact ⟨⟨huserId, rfl, hsendable.wellSized, hsendable.prekeyId⟩, hsendable.sealedKey⟩

/-! ## All entries together -/

/-- What goes into the distribution for the members. -/
def groupEntries (qt : Qt) (crypto : Crypto) (identityKey : E2eeCrypto.KeyPair)
    (localDeviceId : String) (draw : Int → Nat → Drawn) (plainBytes : Bytes)
    (members : List (String × Json)) : List DistributionEntry :=
  members.flatMap fun x =>
    if stringToLongLong x.1 ≤ 0 then []
    else wrappedEntries qt crypto identityKey localDeviceId (draw (stringToLongLong x.1))
      plainBytes (stringToLongLong x.1) x.2.toArray

theorem distributionEntries_eq (hbase64 : qt.Base64) (hcrypto : KnownLengths crypto)
    {draw : Int → Nat → Drawn} (hdraw : ∀ userId i, Fresh (draw userId i)) {chainKeyB64 : String}
    (hplain : (toUtf8 chainKeyB64).length = 44) {members : List (String × Json)}
    (hints : ∀ x ∈ members, IntegerIds x.2.toArray)
    (hcarries : ∀ x ∈ members, ∀ entries,
      userEntries qt crypto identityKey localDeviceId (draw (stringToLongLong x.1)) x.2.toArray
        (toUtf8 chainKeyB64) = some entries → qt.Carries (E2eeCrypto.encodeEnvelope qt entries)) :
    distributionEntries qt crypto identityKey localDeviceId draw chainKeyB64 (.obj members) =
      groupEntries qt crypto identityKey localDeviceId draw (toUtf8 chainKeyB64) members := by
  refine List.flatMap_congr fun x hx => ?_
  dsimp only
  split
  · rfl
  · exact memberEntries_eq hbase64 hcrypto (hdraw _) hplain (hints x hx) (hcarries x hx)

variable (qt identityKey localDeviceId) in
theorem groupEntries_sizes (hcrypto : KnownLengths crypto) {draw : Int → Nat → Drawn}
    (hdraw : ∀ userId i, Fresh (draw userId i)) (hplain : plainBytes.length = 44)
    {members : List (String × Json)} (hints : ∀ x ∈ members, IntegerIds x.2.toArray) :
    ((groupEntries qt crypto identityKey localDeviceId draw plainBytes members).map fun entry =>
        entrySize entry.deviceId entry.envelope.prekeyId entry.userId) =
      entrySizes qt crypto identityKey localDeviceId draw (.obj members) ∧
    ∀ entry ∈ groupEntries qt crypto identityKey localDeviceId draw plainBytes members,
      entry.Exact ∧ SealedKey entry.envelope := by
  unfold groupEntries entrySizes
  dsimp only
  induction members with
  | nil => exact ⟨rfl, by simp⟩
  | cons x members ih =>
      obtain ⟨hx, hrest⟩ := List.forall_mem_cons.mp hints
      obtain ⟨hsizes, hall⟩ := ih hrest
      rw [List.flatMap_cons, List.flatMap_cons, List.map_append, hsizes]
      by_cases hid : stringToLongLong x.1 ≤ 0
      · rw [if_pos hid, if_pos hid]
        exact ⟨rfl, hall⟩
      · rw [if_neg hid, if_neg hid]
        obtain ⟨hmember, hentries⟩ := wrappedEntries_sizes hcrypto
          (hdraw (stringToLongLong x.1)) hplain (show 0 < stringToLongLong x.1 by omega) hx
        rw [hmember]
        refine ⟨rfl, fun entry hentry => ?_⟩
        rcases List.mem_append.mp hentry with hentry | hentry
        · exact hentries entry hentry
        · exact hall entry hentry

end

/-! ## What the server returns -/

section

variable {requestId : Nat} {conn : Connection} {request : Json}

theorem bundleOf_prekeyId {identityKeys : List IdentityKeyRow} {c : Db.ClaimedPrekey}
    {bundle : Json} (h : bundleOf identityKeys c = some bundle) :
    bundle.value "prekeyId" = .int c.prekeyId := by
  unfold bundleOf at h
  dsimp only at h
  split at h
  · cases h
  · rw [← Option.some.inj h]
    rfl

theorem collectBundles_integerIds {userIds : List Int} {members : List (String × Json)}
    (h : (collectBundles userIds).Returns members) : ∀ x ∈ members, IntegerIds x.2.toArray := by
  induction userIds generalizing members with
  | nil =>
      rw [show members = [] from Prog.returns_pure.mp h]
      simp
  | cons userId rest ih =>
      unfold collectBundles at h
      obtain ⟨claimed, -, h⟩ := Prog.returns_bind.mp h
      by_cases hclaimed : claimed.isEmpty = true
      · rw [if_pos hclaimed] at h
        exact ih h
      rw [if_neg hclaimed] at h
      obtain ⟨identityKeys, -, h⟩ := Prog.returns_bind.mp h
      obtain ⟨others, hothers, h⟩ := Prog.returns_bind.mp h
      rw [show members = _ from Prog.returns_pure.mp h]
      intro x hx
      split at hx
      · exact ih hothers x hx
      rcases List.mem_cons.mp hx with rfl | hx
      · intro bundle hbundle
        obtain ⟨c, -, hc⟩ := List.mem_filterMap.mp hbundle
        exact ⟨c.prekeyId, bundleOf_prekeyId hc⟩
      · exact ih hothers x hx

/-- The bundles of a response are what the loop over the members collected. -/
theorem processFetchGroupKeysRequest_bundles {outcome : Server.Outcome}
    (h : (processFetchGroupKeysRequest requestId conn request).Returns outcome)
    {members : List (String × Json)}
    (hbundles : outcome.response.data.value "bundles" = .obj members) :
    ∃ userIds, (collectBundles userIds).Returns members := by
  -- a rejection carries no bundles
  have hreject : ∀ (conn : Connection) code message,
      outcome ≠ conn.reply requestId .fetchGroupKeysResponse code message := by
    intro conn code message hreply
    rw [hreply] at hbundles
    cases hbundles
  unfold processFetchGroupKeysRequest at h
  dsimp only at h
  split at h
  · exact absurd (Prog.returns_pure.mp h) (hreject _ _ _)
  obtain ⟨found, -, h⟩ := Prog.returns_bind.mp h
  cases found with
  | none => exact absurd (Prog.returns_pure.mp h) (hreject _ _ _)
  | some conv =>
  dsimp only at h
  split at h
  · exact absurd (Prog.returns_pure.mp h) (hreject _ _ _)
  obtain ⟨isMember, -, h⟩ := Prog.returns_bind.mp h
  split at h
  · exact absurd (Prog.returns_pure.mp h) (hreject _ _ _)
  obtain ⟨now, -, h⟩ := Prog.returns_bind.mp h
  split at h
  · exact absurd (Prog.returns_pure.mp h) (hreject _ _ _)
  obtain ⟨memberIds, -, h⟩ := Prog.returns_bind.mp h
  obtain ⟨collected, hcollected, h⟩ := Prog.returns_bind.mp h
  rw [show outcome = _ from Prog.returns_pure.mp h] at hbundles
  have hmembers : collected = members := by
    cases hbundles
    rfl
  exact ⟨memberIds, hmembers ▸ hcollected⟩

end

/-! ## Accepted distributions -/

/-- What `processSendGroupMessage` asks of a distribution as a content for the
conversation. -/
structure Acceptable (qt : Qt) (conversationId : Int) (content : String) : Prop where
  nonempty : content ≠ ""
  length : qsize content ≤ maxGroupMessageLength
  checked : ∃ prekeyIds,
    checkGroupContent qt conversationId content "sender_key_distribution" = .ok prekeyIds

/-- What `generateSenderKey` makes sure of. -/
structure Generated (key : SenderKey) : Prop where
  keyId : key.keyId ≠ ""
  chainKey : key.chainKey.length = GroupE2eeCrypto.chainKeySize
  publicSigningKey : key.publicSigningKey.length = GroupE2eeCrypto.ed25519KeySize

theorem Generated.length_chainKeyB64 {qt : Qt} {number : Rat → String} {key : SenderKey}
    (h : Generated key) (hqt : qt.Writes number) :
    (toUtf8 (qt.toBase64 key.chainKey)).length = 44 := by
  rw [hqt.toBase64, length_toUtf8_base64, h.chainKey]
  rfl

/-- The characters of the distribution a client builds from the bundles of a group. -/
def distributionSize (qt : Qt) (crypto : Crypto) (s : NetworkManager) (o : Outside)
    (conversationId : Int) (bundlesByUser : Json) : Nat :=
  documentSize conversationId s.userId s.localDeviceId o.generatedKey.keyId
    (entrySizes qt crypto s.identityKey s.localDeviceId o.draw bundlesByUser)

section

variable {qt : Qt} {crypto : Crypto} {host : Host} {number : Rat → String}

variable (host) in
/-- **The distribution** that is built, whenever there is an entry for it. -/
theorem buildGroupSenderKeyDistribution_eq (conversationId : Int) (hqt : qt.Writes number)
    (hbase64 : qt.Base64) (hcrypto : KnownLengths crypto) {s : NetworkManager} {o : Outside}
    (hdraw : ∀ userId i, Fresh (o.draw userId i)) (hgenerated : Generated o.generatedKey)
    {members : List (String × Json)}
    (hints : ∀ x ∈ members, IntegerIds x.2.toArray)
    (hcarries : ∀ x ∈ members, ∀ entries,
      userEntries qt crypto s.identityKey s.localDeviceId (o.draw (stringToLongLong x.1))
        x.2.toArray (toUtf8 (qt.toBase64 o.generatedKey.chainKey)) = some entries →
      qt.Carries (E2eeCrypto.encodeEnvelope qt entries)) :
    (s.buildGroupSenderKeyDistribution qt crypto host o conversationId (.obj members)).2 =
      if conversationId ≤ 0 ∨ o.generatedKey.valid = false ∨
          groupEntries qt crypto s.identityKey s.localDeviceId o.draw
            (toUtf8 (qt.toBase64 o.generatedKey.chainKey)) members = [] then none
      else some
        { groupId := conversationId
          senderUserId := s.userId
          senderDeviceId := s.localDeviceId
          key := o.generatedKey
          entries := groupEntries qt crypto s.identityKey s.localDeviceId o.draw
            (toUtf8 (qt.toBase64 o.generatedKey.chainKey)) members } := by
  have hplain := hgenerated.length_chainKeyB64 hqt
  unfold NetworkManager.buildGroupSenderKeyDistribution
  dsimp only
  rw [distributionEntries_eq hbase64 hcrypto hdraw hplain hints hcarries]
  by_cases hready : conversationId ≤ 0 ∨ o.generatedKey.valid = false
  · rw [if_pos hready, if_pos (or_assoc.mp (.inl hready))]
  rw [if_neg hready]
  by_cases hempty : groupEntries qt crypto s.identityKey s.localDeviceId o.draw
      (toUtf8 (qt.toBase64 o.generatedKey.chainKey)) members = []
  · rw [if_pos (List.isEmpty_iff.mpr hempty), if_pos (.inr (.inr hempty))]
  · rw [if_neg (mt List.isEmpty_iff.mp hempty), if_neg]
    rw [← or_assoc]
    exact not_or.mpr ⟨hready, hempty⟩

/-- **Its size** is the one its bundles say, and it decodes to what was put in. -/
theorem buildGroupSenderKeyDistribution_spec (hqt : qt.Writes number) (hbase64 : qt.Base64)
    (hcrypto : KnownLengths crypto) {s s' : NetworkManager} {o : Outside}
    (hdraw : ∀ userId i, Fresh (o.draw userId i)) (hgenerated : Generated o.generatedKey)
    {conversationId : Int} {members : List (String × Json)}
    (hints : ∀ x ∈ members, IntegerIds x.2.toArray) {dist : Distribution}
    (hbuilt : s.buildGroupSenderKeyDistribution qt crypto host o conversationId (.obj members) =
      (s', some dist))
    (hcarries : ∀ x ∈ members, ∀ entries,
      userEntries qt crypto s.identityKey s.localDeviceId (o.draw (stringToLongLong x.1))
        x.2.toArray (toUtf8 (qt.toBase64 o.generatedKey.chainKey)) = some entries →
      qt.Carries (E2eeCrypto.encodeEnvelope qt entries)) :
    qsize (qt.toJson (GroupE2eeCrypto.encodeDistribution qt dist)) =
        distributionSize qt crypto s o conversationId (.obj members) ∧
      dist.groupId = conversationId ∧ dist.entries ≠ [] ∧ dist.key = o.generatedKey ∧
      ∀ entry ∈ dist.entries, entry.Exact := by
  obtain ⟨hsizes, hall⟩ := groupEntries_sizes qt s.identityKey s.localDeviceId hcrypto hdraw
    (hgenerated.length_chainKeyB64 hqt) hints
  have heq := buildGroupSenderKeyDistribution_eq host conversationId hqt hbase64 hcrypto hdraw
    hgenerated hints hcarries
  rw [hbuilt] at heq
  split at heq
  · cases heq
  rename_i hready
  rw [Option.some.inj heq]
  refine ⟨?_, rfl, fun hempty => hready (.inr (.inr hempty)), rfl,
    fun entry hentry => (hall entry hentry).1⟩
  rw [hqt.toJson, qsize_compact_distribution hqt.toBase64 hgenerated.publicSigningKey
    fun entry hentry => (hall entry hentry).2]
  dsimp only
  rw [hsizes]
  rfl

/-- **Which distributions the server takes.** One built from the bundles that the server
returned for a group passes every check of its content if and only if the bundles are not
too many: the size they add up to is within the limit. -/
theorem distribution_acceptable_iff (hqt : qt.Writes number) (hbase64 : qt.Base64)
    (hcrypto : KnownLengths crypto)
    {requestId : Nat} {conn : Connection} {request : Json} {outcome : Server.Outcome}
    (hresponse : (processFetchGroupKeysRequest requestId conn request).Returns outcome)
    {members : List (String × Json)}
    (hbundles : outcome.response.data.value "bundles" = .obj members)
    {s s' : NetworkManager} {o : Outside} (hdraw : ∀ userId i, Fresh (o.draw userId i))
    (hgenerated : Generated o.generatedKey) {conversationId : Int} {dist : Distribution}
    (hbuilt : s.buildGroupSenderKeyDistribution qt crypto host o conversationId (.obj members) =
      (s', some dist))
    (hcarries : ∀ x ∈ members, ∀ entries,
      userEntries qt crypto s.identityKey s.localDeviceId (o.draw (stringToLongLong x.1))
        x.2.toArray (toUtf8 (qt.toBase64 o.generatedKey.chainKey)) = some entries →
      qt.Carries (E2eeCrypto.encodeEnvelope qt entries))
    (hcarried : qt.Carries (GroupE2eeCrypto.encodeDistribution qt dist)) :
    Acceptable qt conversationId (qt.toJson (GroupE2eeCrypto.encodeDistribution qt dist)) ↔
      distributionSize qt crypto s o conversationId (.obj members) ≤ maxGroupMessageLength := by
  obtain ⟨userIds, hcollected⟩ := processFetchGroupKeysRequest_bundles hresponse hbundles
  obtain ⟨hsize, hgroup, hnonempty, hsame, hexact⟩ := buildGroupSenderKeyDistribution_spec
    hqt hbase64 hcrypto hdraw hgenerated (collectBundles_integerIds hcollected) hbuilt hcarries
  have hdecode := GroupE2eeCrypto.decodeDistribution_encoded hbase64
    (hsame ▸ hgenerated.keyId) (hsame ▸ hgenerated.publicSigningKey) hexact hcarried
  constructor
  · intro h
    rw [← hsize]
    exact h.length
  · intro hlimit
    refine ⟨?_, hsize ▸ hlimit, ?_⟩
    · exact hcarried.ne_empty
    · unfold checkGroupContent
      rw [if_neg (by decide), if_pos rfl, hdecode]
      dsimp only
      rw [if_neg]
      · exact ⟨_, rfl⟩
      · rintro (hempty | hother)
        · exact hnonempty (by simpa [GroupE2eeCrypto.Distribution.transmitted] using hempty)
        · exact hother hgroup

end

/-! ## Few devices and many -/

/-- The public key of the base point. -/
def basePoint : Bytes := 9 :: List.replicate 31 0

/-- Qt for the given documents. -/
def documentsQt (documents : List Json) : Qt where
  fromJson text := documents.find? fun d => Json.compact (fun _ => "0") d == text
  toJson := Json.compact fun _ => "0"
  -- the one key there is, without decoding it
  fromBase64 text := if text = Base64.encode basePoint then basePoint else Base64.decode text
  toBase64 := Base64.encode
  isoDate _ := ""

section

variable (documents : List Json)

/-- The documents play no part in what is written. -/
theorem documentsQt_encodeEnvelope (entries : List EnvelopeEntry) :
    E2eeCrypto.encodeEnvelope (documentsQt documents) entries =
      E2eeCrypto.encodeEnvelope (documentsQt []) entries := rfl

theorem documentsQt_userEntries (crypto : Crypto) (identityKey : E2eeCrypto.KeyPair)
    (localDeviceId : String) (draw : Nat → Drawn) (bundles : List Json) (plainBytes : Bytes) :
    userEntries (documentsQt documents) crypto identityKey localDeviceId draw bundles plainBytes =
      userEntries (documentsQt []) crypto identityKey localDeviceId draw bundles plainBytes := rfl

theorem documentsQt_groupEntries (crypto : Crypto) (identityKey : E2eeCrypto.KeyPair)
    (localDeviceId : String) (draw : Int → Nat → Drawn) (plainBytes : Bytes)
    (members : List (String × Json)) :
    groupEntries (documentsQt documents) crypto identityKey localDeviceId draw plainBytes members =
      groupEntries (documentsQt []) crypto identityKey localDeviceId draw plainBytes members := rfl

theorem documentsQt_distributionSize (crypto : Crypto) (s : NetworkManager) (o : Outside)
    (conversationId : Int) (bundlesByUser : Json) :
    distributionSize (documentsQt documents) crypto s o conversationId bundlesByUser =
      distributionSize (documentsQt []) crypto s o conversationId bundlesByUser := rfl

end

theorem documentsQt_base64 (documents : List Json) : (documentsQt documents).Base64 := by
  intro bytes
  show (if Base64.encode bytes = Base64.encode basePoint then basePoint
    else Base64.decode (Base64.encode bytes)) = bytes
  split
  · rename_i h
    rw [← Base64.decode_encode bytes, h, Base64.decode_encode]
  · exact Base64.decode_encode bytes

theorem documentsQt_carries {documents : List Json}
    (hnodup : (documents.map (Json.compact fun _ => "0")).Nodup) {members : List (String × Json)}
    (h : .obj members ∈ documents) : (documentsQt documents).Carries (.obj members) where
  object := by
    show (Json.compact (fun _ => "0") (.obj members)).front = '\x7b'
    unfold Json.compact
    rw [String.append_assoc, String.front_eq, String.front?_eq, String.toList_append]
    rfl
  json := by
    show (documents.find? fun d => Json.compact (fun _ => "0") d ==
      Json.compact (fun _ => "0") (.obj members)) = some (.obj members)
    induction documents with
    | nil => cases h
    | cons d documents ih =>
        rw [List.map_cons, List.nodup_cons] at hnodup
        rcases List.mem_cons.mp h with rfl | h
        · exact List.find?_cons_of_pos (by simp)
        · rw [List.find?_cons_of_neg]
          · exact ih hnodup.2 h
          · intro heq
            exact hnodup.1 (List.mem_map.mpr ⟨_, h, (beq_iff_eq.mp heq).symm⟩)

theorem documentsQt_writes (documents : List Json) :
    (documentsQt documents).Writes fun _ => "0" := ⟨rfl, rfl⟩

/-- OpenSSL, as far as the lengths go. -/
def lengthsCrypto : Crypto where
  hkdf _ _ _ := List.replicate 32 0
  gcmSeal _ _ plaintext := plaintext ++ List.replicate 16 0
  gcmOpen _ _ ciphertext := some ciphertext
  ed25519Sign _ _ := List.replicate 64 0
  ed25519Verify _ _ _ := true
  x25519 _ publicKey := some publicKey

theorem lengthsCrypto_known : KnownLengths lengthsCrypto where
  hkdf _ _ _ := rfl
  gcmSeal _ _ plaintext := by simp [lengthsCrypto, E2eeCrypto.gcmTagSize]

/-- Alice and Bob are in a group; Bob has some devices, each with an unused prekey. -/
def bobsDevices (count : Nat) : Db where
  users := .ofRows [{ id := 1, username := "alice" }, { id := 2, username := "bob" }]
  conversations := .ofRows [{ id := 1, type := .groupType, name := "g" }]
  conversationMembers := .ofRows
    [{ id := 1, conversationId := 1, userId := 1 }, { id := 2, conversationId := 1, userId := 2 }]
  deviceIdentityKeys := .ofRows ((List.range' 10 count).map fun n =>
    { id := n, userId := 2, deviceId := "d" ++ toString n, identityPub := Base64.encode basePoint })
  prekeys := .ofRows ((List.range' 10 count).map fun n =>
    { id := n, userId := 2, deviceId := "d" ++ toString n, pub := Base64.encode basePoint })

/-- Alice asks for the keys of the group. -/
def groupKeys (count : Nat) : Server.Outcome :=
  ((processFetchGroupKeysRequest 1 { authenticatedUserId := 1, currentDeviceId := "a" }
    (.obj [("conversationId", .int 1)])).exec (bobsDevices count)).2

theorem groupKeys_returned (count : Nat) :
    (processFetchGroupKeysRequest 1 { authenticatedUserId := 1, currentDeviceId := "a" }
      (.obj [("conversationId", .int 1)])).Returns (groupKeys count) := by
  unfold groupKeys
  exact Prog.returns_exec _ _

def groupBundles (count : Nat) : List (String × Json) :=
  match (groupKeys count).response.data.value "bundles" with
  | .obj members => members
  | _ => []

theorem groupKeys_bundles {count : Nat}
    (h : ((groupKeys count).response.data.value "bundles").isObject = true) :
    (groupKeys count).response.data.value "bundles" = .obj (groupBundles count) := by
  unfold groupBundles
  cases hbundles : (groupKeys count).response.data.value "bundles" with
  | obj members => rfl
  | _ =>
      rw [hbundles] at h
      cases h

def aliceSignedIn : NetworkManager where
  userId := 1
  localDeviceId := "a"
  identityKey := { publicKey := basePoint, privateKey := List.replicate 32 0, valid := true }

def freshKey : Outside where
  draw _ _ :=
    { ephemeral := { publicKey := basePoint, privateKey := List.replicate 32 0, valid := true }
      iv := List.replicate 12 0 }
  generatedKey :=
    { keyId := "00", chainKey := List.replicate 32 0, publicSigningKey := List.replicate 32 0
      privateSigningKey := List.replicate 32 0, valid := true }

theorem freshKey_fresh (userId : Int) (i : Nat) : Fresh (freshKey.draw userId i) :=
  ⟨fun _ => rfl, rfl⟩

theorem freshKey_generated : Generated freshKey.generatedKey := ⟨by decide, rfl, rfl⟩

/-- The envelopes for those that have devices. -/
def envelopesOf (count : Nat) : List Json :=
  (groupBundles count).filterMap fun x =>
    (userEntries (documentsQt []) lengthsCrypto aliceSignedIn.identityKey
      aliceSignedIn.localDeviceId (freshKey.draw (stringToLongLong x.1)) x.2.toArray
      (toUtf8 (Base64.encode freshKey.generatedKey.chainKey))).map
      (E2eeCrypto.encodeEnvelope (documentsQt []))

/-- The distribution to them. -/
def groupDistribution (count : Nat) : Distribution where
  groupId := 1
  senderUserId := 1
  senderDeviceId := "a"
  key := freshKey.generatedKey
  entries := groupEntries (documentsQt []) lengthsCrypto aliceSignedIn.identityKey
    aliceSignedIn.localDeviceId freshKey.draw
    (toUtf8 (Base64.encode freshKey.generatedKey.chainKey)) (groupBundles count)

theorem envelopesOf_carried {count : Nat} {documents : List Json}
    (hnodup : ((envelopesOf count ++ documents).map (Json.compact fun _ => "0")).Nodup) :
    ∀ x ∈ groupBundles count, ∀ entries,
      userEntries (documentsQt (envelopesOf count ++ documents)) lengthsCrypto
        aliceSignedIn.identityKey aliceSignedIn.localDeviceId
        (freshKey.draw (stringToLongLong x.1)) x.2.toArray
        (toUtf8 (Base64.encode freshKey.generatedKey.chainKey)) = some entries →
      (documentsQt (envelopesOf count ++ documents)).Carries
        (E2eeCrypto.encodeEnvelope (documentsQt (envelopesOf count ++ documents)) entries) := by
  intro x hx entries hentries
  rw [documentsQt_userEntries] at hentries
  rw [documentsQt_encodeEnvelope]
  refine documentsQt_carries hnodup (List.mem_append_left _ (List.mem_filterMap.mpr ⟨x, hx, ?_⟩))
  rw [hentries]
  rfl

theorem groupBundles_integerIds {count : Nat}
    (hbundles : ((groupKeys count).response.data.value "bundles").isObject = true) :
    ∀ x ∈ groupBundles count, IntegerIds x.2.toArray := by
  obtain ⟨userIds, hcollected⟩ := processFetchGroupKeysRequest_bundles (groupKeys_returned count)
    (groupKeys_bundles hbundles)
  exact collectBundles_integerIds hcollected

/-- What the client builds of the server's bundles. -/
theorem groupDistribution_built (host : Host) {count : Nat} {documents : List Json}
    (hbundles : ((groupKeys count).response.data.value "bundles").isObject = true)
    (hsizes : entrySizes (documentsQt []) lengthsCrypto aliceSignedIn.identityKey
      aliceSignedIn.localDeviceId freshKey.draw (.obj (groupBundles count)) ≠ [])
    (hnodup : ((envelopesOf count ++ documents).map (Json.compact fun _ => "0")).Nodup) :
    (aliceSignedIn.buildGroupSenderKeyDistribution (documentsQt (envelopesOf count ++ documents))
      lengthsCrypto host freshKey 1 (.obj (groupBundles count))).2 =
      some (groupDistribution count) := by
  have hints := groupBundles_integerIds hbundles
  have heq := buildGroupSenderKeyDistribution_eq host 1 (documentsQt_writes _)
    (documentsQt_base64 _) lengthsCrypto_known freshKey_fresh freshKey_generated hints
    (envelopesOf_carried hnodup)
  rw [heq, documentsQt_groupEntries]
  refine if_neg ?_
  rintro (h | h | h)
  · cases h
  · cases h
  · obtain ⟨hmap, -⟩ := groupEntries_sizes (documentsQt []) aliceSignedIn.identityKey
      aliceSignedIn.localDeviceId lengthsCrypto_known freshKey_fresh
      (freshKey_generated.length_chainKeyB64 (documentsQt_writes [])) hints
    rw [← hmap] at hsizes
    exact hsizes (congrArg (List.map _) h)

theorem manyDevices_sizes : ((groupKeys 80).response.data.value "bundles").isObject = true ∧
    (groupBundles 80).length = 1 ∧
    entrySizes (documentsQt []) lengthsCrypto aliceSignedIn.identityKey
      aliceSignedIn.localDeviceId freshKey.draw (.obj (groupBundles 80)) ≠ [] ∧
    maxGroupMessageLength < distributionSize (documentsQt []) lengthsCrypto aliceSignedIn freshKey 1
      (.obj (groupBundles 80)) := by
  decide +kernel

/-- **The defect**: with eighty devices in the group, the server refuses what the client
builds from the bundles it got. -/
theorem manyDevices_refused :
    ((bobsDevices 80).getConversationMemberIds 1).length ≤ maxGroupMembers ∧
      (processFetchGroupKeysRequest 1 { authenticatedUserId := 1, currentDeviceId := "a" }
        (.obj [("conversationId", .int 1)])).Returns (groupKeys 80) ∧
      (groupKeys 80).response.data.value "bundles" = .obj (groupBundles 80) ∧
      (aliceSignedIn.buildGroupSenderKeyDistribution (documentsQt (envelopesOf 80)) lengthsCrypto
        { machineUniqueId := "", cipher := fun _ => ⟨fun _ text => text, id⟩ } freshKey 1
        (.obj (groupBundles 80))).2 = some (groupDistribution 80) ∧
      ¬Acceptable (documentsQt (envelopesOf 80)) 1 ((documentsQt (envelopesOf 80)).toJson
        (GroupE2eeCrypto.encodeDistribution (documentsQt (envelopesOf 80))
          (groupDistribution 80))) := by
  obtain ⟨hbundles, hone, hsizes, hlimit⟩ := manyDevices_sizes
  have hnodup : ((envelopesOf 80 ++ []).map (Json.compact fun _ => "0")).Nodup := by
    have hcount : (envelopesOf 80).length ≤ 1 :=
      (List.length_filterMap_le _ _).trans hone.le
    rw [List.append_nil]
    generalize envelopesOf 80 = documents at hcount
    rcases documents with _ | ⟨document, _ | ⟨other, rest⟩⟩
    · exact List.nodup_nil
    · exact List.nodup_singleton _
    · simp at hcount
  have hbuilt := groupDistribution_built
    { machineUniqueId := "", cipher := fun _ => ⟨fun _ text => text, id⟩ } hbundles hsizes hnodup
  have hcarried := envelopesOf_carried hnodup
  rw [List.append_nil] at hbuilt hcarried
  refine ⟨by decide +kernel, groupKeys_returned 80, groupKeys_bundles hbundles, hbuilt,
    fun h => ?_⟩
  obtain ⟨hsize, -⟩ := buildGroupSenderKeyDistribution_spec (documentsQt_writes _)
    (documentsQt_base64 _) lengthsCrypto_known freshKey_fresh freshKey_generated
    (groupBundles_integerIds hbundles) (Prod.ext rfl hbuilt) hcarried
  have hle := h.length
  rw [hsize, documentsQt_distributionSize] at hle
  exact absurd hlimit (Nat.not_lt.mpr hle)

/-- Bob's one device, and Qt for the documents about it. -/
def phoneQt : Qt := documentsQt (envelopesOf 1 ++
  [GroupE2eeCrypto.encodeDistribution (documentsQt []) (groupDistribution 1)])

theorem phone_sizes : ((groupKeys 1).response.data.value "bundles").isObject = true ∧
    entrySizes (documentsQt []) lengthsCrypto aliceSignedIn.identityKey
      aliceSignedIn.localDeviceId freshKey.draw (.obj (groupBundles 1)) ≠ [] ∧
    distributionSize (documentsQt []) lengthsCrypto aliceSignedIn freshKey 1
      (.obj (groupBundles 1)) ≤ maxGroupMessageLength ∧
    ((envelopesOf 1 ++ [GroupE2eeCrypto.encodeDistribution (documentsQt [])
      (groupDistribution 1)]).map (Json.compact fun _ => "0")).Nodup := by
  decide +kernel

/-- With one device the distribution is accepted. -/
theorem phone_accepted : Acceptable phoneQt 1
    (phoneQt.toJson (GroupE2eeCrypto.encodeDistribution phoneQt (groupDistribution 1))) := by
  obtain ⟨hbundles, hsizes, hlimit, hnodup⟩ := phone_sizes
  have hbuilt := groupDistribution_built
    { machineUniqueId := "", cipher := fun _ => ⟨fun _ text => text, id⟩ } hbundles hsizes hnodup
  refine (distribution_acceptable_iff (documentsQt_writes _) (documentsQt_base64 _)
    lengthsCrypto_known (groupKeys_returned 1) (groupKeys_bundles hbundles)
    freshKey_fresh freshKey_generated (Prod.ext rfl hbuilt) (envelopesOf_carried hnodup) ?_).mpr ?_
  · exact documentsQt_carries hnodup (List.mem_append_right _ (List.mem_singleton.mpr rfl))
  · exact hlimit

end XYChat.EndToEnd
