import XYChat.Client.GroupDelivery
import XYChat.Client.NetworkManager
import XYChat.Client.Transparency

/-!
# A sender key and its distribution

A client makes a sender key for a group, seals its chain key for every device of the
members and then encrypts texts under it; a device of a member takes the key out of the
distribution and files it. The key that is filed is the one the texts are encrypted under.
-/

namespace XYChat.EndToEnd

open XYChat.Lib XYChat.Client
open E2eeCrypto (KeyPair EnvelopeEntry)
open GroupE2eeCrypto (Distribution DistributionEntry SenderKey EncryptedMessage)

/-! ## Opening a distribution -/

section

variable {qt : Qt} {crypto : Crypto} {plainBytes : Bytes}

/-- Both loops over the prekeys are one. -/
theorem openWithPrekeys_eq (identityKey : KeyPair) (entry : EnvelopeEntry)
    (prekeys : List KeyPair) :
    openWithPrekeys crypto identityKey entry prekeys =
      ((tryPrekeys crypto identityKey entry prekeys).map fun o => (o.1, o.2.2)).getD
        ([], prekeys) := by
  induction prekeys with
  | nil => rfl
  | cons prekey rest ih =>
      unfold openWithPrekeys tryPrekeys
      dsimp only
      show (if openUnderPrekey crypto identityKey entry prekey ≠ [] then _ else _) = _
      by_cases hopen : openUnderPrekey crypto identityKey entry prekey ≠ []
      · rw [if_pos hopen, if_pos hopen]
        rfl
      · rw [if_neg hopen, if_neg hopen, ih]
        cases tryPrekeys crypto identityKey entry rest <;> rfl

/-- An entry of a distribution is opened as an entry of a private message is. -/
theorem decryptEnvelopeEntry_eq (d : E2eeDevice) (entry : EnvelopeEntry) :
    decryptEnvelopeEntry crypto d entry =
      ((openEntry crypto d.localDeviceId d.identityKey d.localPrekeys entry).map fun o =>
        (o.1, (o.2.map (·.2)).getD d.localPrekeys)).getD ([], d.localPrekeys) := by
  unfold decryptEnvelopeEntry openEntry
  by_cases hdevice : entry.deviceId = d.localDeviceId
  swap
  · rw [if_pos (by simp [hdevice]), if_pos hdevice]
    rfl
  by_cases hvalid : d.identityKey.valid = false
  · rw [if_pos (by simp [hvalid]), if_neg (not_not.mpr hdevice), if_pos hvalid]
    rfl
  rw [if_neg (by simp [hdevice, hvalid]), if_neg (not_not.mpr hdevice), if_neg hvalid]
  by_cases hself : entry.prekeyId = E2eeCrypto.selfCopyPrekeyId
  · rw [if_pos hself, if_pos hself]
    unfold openSelfCopy
    dsimp only
    split
    · rfl
    · split
      · rfl
      · rename_i hopen
        rw [not_not.mp hopen]
        rfl
  · rw [if_neg hself, if_neg hself, openWithPrekeys_eq]
    cases tryPrekeys crypto d.identityKey entry d.localPrekeys <;> rfl

/-- **The device a copy is sealed for opens the distribution.** -/
theorem openDistribution_sealed (hc : crypto.Correct) (hplain : plainBytes ≠ [])
    {entries : List DistributionEntry}
    (hseals : ∀ entry ∈ entries, Seals crypto plainBytes entry.envelope)
    {d : E2eeDevice} {bundle : KeyBundle} {entry : DistributionEntry} (hentry : entry ∈ entries)
    (huser : entry.userId = d.userId) (hdevice : entry.deviceId = d.localDeviceId)
    (hfor : SealsFor crypto plainBytes bundle entry.envelope)
    (hbundle : bundle.deviceId = d.localDeviceId) (hvalid : d.identityKey.valid = true)
    (hidentity : bundle.identityKey = d.identityKey) (hprekey : bundle.prekey ∈ d.localPrekeys) :
    ∃ localPrekeys, openDistribution crypto d entries = (plainBytes, { d with localPrekeys }) := by
  have hopens := openEntry_addressed hc hfor hplain hbundle hvalid hidentity hprekey
  induction entries with
  | nil => cases hentry
  | cons first rest ih =>
      obtain ⟨hfirst, hrest⟩ := List.forall_mem_cons.mp hseals
      unfold openDistribution
      by_cases haddressed : first.userId = d.userId ∧ first.deviceId = d.localDeviceId
      · rw [if_pos haddressed, decryptEnvelopeEntry_eq]
        cases hopened : openEntry crypto d.localDeviceId d.identityKey d.localPrekeys
            first.envelope with
        | none =>
            -- another copy, which this device cannot open
            have hother : entry ∈ rest := by
              refine (List.mem_cons.mp hentry).resolve_left ?_
              rintro rfl
              rw [hopened] at hopens
              cases hopens
            exact ih hrest hother
        | some opened =>
            have hsame := openEntry_sealed hc hfirst hopened
            rw [Option.map_some, Option.getD_some, hsame]
            dsimp only
            rw [if_pos hplain]
            exact ⟨_, rfl⟩
      · rw [if_neg haddressed]
        refine ih hrest ((List.mem_cons.mp hentry).resolve_left ?_)
        rintro rfl
        exact haddressed ⟨huser, hdevice⟩

end

/-! ## Building one -/

/-- A client that is about to make a key for a group, what it draws for that and the key
bundles it is given, and a device of a member with its tables. -/
structure GroupExchange where
  sender : NetworkManager
  outside : Outside
  conversationId : Int
  members : List (String × List KeyBundle)
  receiver : E2eeDevice
  tables : GroupDisk

namespace GroupExchange

/-- The keys match: the receiver has the private halves of a bundle for its device. -/
structure Matching (crypto : Crypto) (x : GroupExchange) : Prop where
  conversationId : 0 < x.conversationId
  senderUserId : 0 < x.sender.userId
  senderDeviceId : x.sender.localDeviceId ≠ ""
  key : x.outside.generatedKey.Usable
  keyId : x.outside.generatedKey.keyId ≠ ""
  iteration : x.outside.generatedKey.iteration = 0
  identityKey : x.sender.identityKey.valid = true → x.sender.identityKey.Proper crypto
  ephemeral : ∀ userId n, (x.outside.draw userId n).ephemeral.Proper crypto
  iv : ∀ userId n, (x.outside.draw userId n).iv.length = E2eeCrypto.gcmIvSize
  registered : ∀ member ∈ x.members, ∀ bundle ∈ member.2, bundle.Registered crypto
  receiverUserId : 0 < x.receiver.userId
  storeOpen : x.receiver.storeOpen = true
  addressed : ∃ member ∈ x.members, stringToLongLong member.1 = x.receiver.userId ∧
    ∃ bundle ∈ member.2, bundle.deviceId = x.receiver.localDeviceId ∧
      bundle.identityKey = x.receiver.identityKey ∧ bundle.prekey ∈ x.receiver.localPrekeys

section

variable (qt : Qt) (crypto : Crypto)

/-- The chain key on its way to the members. -/
def chainKeyB64 (x : GroupExchange) : String := qt.toBase64 x.outside.generatedKey.chainKey

/-- The bundles as the server hands them out. -/
def bundlesByUser (x : GroupExchange) : Json :=
  .obj (x.members.map fun member => (member.1, .arr (member.2.map (·.json qt))))

/-- The exchange of the chain key with one member. -/
def withMember (x : GroupExchange) (member : String × List KeyBundle) (bundle : KeyBundle) :
    Exchange where
  identityKey := x.sender.identityKey
  localDeviceId := x.sender.localDeviceId
  draw := x.outside.draw (stringToLongLong member.1)
  bundles := member.2
  receiver := { identityKey := bundle.identityKey, localPrekeys := [bundle.prekey] }
  receiverDeviceId := bundle.deviceId

/-- The codec gives back each member's envelope. -/
def ConveysKeys (x : GroupExchange) : Prop :=
  ∀ member ∈ x.members, ∀ entries ∈ userEntries qt crypto x.sender.identityKey
    x.sender.localDeviceId (x.outside.draw (stringToLongLong member.1))
    (member.2.map (·.json qt)) (toUtf8 (x.chainKeyB64 qt)), Conveys qt entries

/-- What goes into the distribution. -/
def distributionOf (x : GroupExchange) : Distribution where
  groupId := x.conversationId
  senderUserId := x.sender.userId
  senderDeviceId := x.sender.localDeviceId
  key := x.outside.generatedKey
  entries := distributionEntries qt crypto x.sender.identityKey x.sender.localDeviceId
    x.outside.draw (x.chainKeyB64 qt) (x.bundlesByUser qt)

/-- An entry that decodes, and holds the chain key. -/
structure SealedCopy (x : GroupExchange) (entry : DistributionEntry) : Prop where
  exact : entry.Exact
  seals : Seals crypto (toUtf8 (x.chainKeyB64 qt)) entry.envelope

end

section

variable {qt : Qt} {crypto : Crypto} {x : GroupExchange}

theorem Matching.withMember (h : x.Matching crypto) {member : String × List KeyBundle}
    (hmember : member ∈ x.members) {bundle : KeyBundle} (hbundle : bundle ∈ member.2) :
    (x.withMember member bundle).Matching crypto where
  identityKey := h.identityKey
  ephemeral := h.ephemeral _
  iv := h.iv _
  registered := h.registered member hmember
  addressed := ⟨bundle, hbundle, rfl, rfl, List.mem_cons_self⟩

/-- **A member's entries**: each holds the chain key, and each device has one. -/
theorem memberEntries_seal (hc : crypto.Correct) (hbase64 : qt.Base64) (h : x.Matching crypto)
    (hq : x.ConveysKeys qt crypto) {member : String × List KeyBundle} (hmember : member ∈ x.members)
    {userId : Int} (huser : 0 < userId) :
    let entries := memberEntries qt crypto x.sender.identityKey x.sender.localDeviceId
      (x.outside.draw (stringToLongLong member.1)) (x.chainKeyB64 qt) userId
      (member.2.map (·.json qt))
    (∀ entry ∈ entries, x.SealedCopy qt crypto entry) ∧
      ∀ bundle ∈ member.2, ∃ entry ∈ entries, entry.userId = userId ∧
        entry.deviceId = bundle.deviceId ∧
        SealsFor crypto (toUtf8 (x.chainKeyB64 qt)) bundle entry.envelope := by
  dsimp only
  cases hbundles : member.2 with
  | nil =>
      refine ⟨fun entry hentry => ?_, fun bundle hbundle => by cases hbundle⟩
      unfold memberEntries at hentry
      cases hentry
  | cons first rest =>
      have hfirst : first ∈ member.2 := by
        rw [hbundles]
        exact List.mem_cons_self
      obtain ⟨entries, hentries, hseals, hfor⟩ :=
        entries_seal hc hbase64 (h.withMember hmember hfirst) (x.chainKeyB64 qt)
      have hmade : userEntries qt crypto x.sender.identityKey x.sender.localDeviceId
          (x.outside.draw (stringToLongLong member.1)) (member.2.map (·.json qt))
          (toUtf8 (x.chainKeyB64 qt)) = some entries := hentries
      have hconveys := hq member hmember entries hmade
      have hne : entries ≠ [] := by
        obtain ⟨entry, hentry, -⟩ := hfor first hfirst
        exact List.ne_nil_of_mem hentry
      rw [← hbundles]
      have heq : memberEntries qt crypto x.sender.identityKey x.sender.localDeviceId
          (x.outside.draw (stringToLongLong member.1)) (x.chainKeyB64 qt) userId
          (member.2.map (·.json qt)) = entries.map fun entry =>
            { userId, deviceId := entry.deviceId, envelope := entry } := by
        unfold memberEntries encryptForUser
        rw [hmade, hbundles]
        dsimp only
        rw [if_neg (by simp), if_neg hne,
          if_neg (Qt.Carries.ne_empty ⟨hconveys.object, hconveys.json⟩),
          decodeEnvelope_sealed hbase64 hconveys hne hseals]
      rw [heq]
      refine ⟨fun entry hentry => ?_, fun bundle hbundle => ?_⟩
      · obtain ⟨envelope, henvelope, rfl⟩ := List.mem_map.mp hentry
        have hsealed := hseals envelope henvelope
        exact ⟨⟨huser, rfl, hsealed.wellSized, hsealed.exact⟩, hsealed⟩
      · obtain ⟨envelope, henvelope, hsealed⟩ := hfor bundle hbundle
        exact ⟨_, List.mem_map_of_mem henvelope, rfl, hsealed.deviceId, hsealed⟩

/-- **The distribution**: each entry holds the chain key, and there is one for the
receiver. -/
theorem distributionOf_seals (hc : crypto.Correct) (hbase64 : qt.Base64) (h : x.Matching crypto)
    (hq : x.ConveysKeys qt crypto) :
    (∀ entry ∈ (x.distributionOf qt crypto).entries, x.SealedCopy qt crypto entry) ∧
      ∃ bundle, bundle.deviceId = x.receiver.localDeviceId ∧
        bundle.identityKey = x.receiver.identityKey ∧ bundle.prekey ∈ x.receiver.localPrekeys ∧
        bundle.Registered crypto ∧
        ∃ entry ∈ (x.distributionOf qt crypto).entries, entry.userId = x.receiver.userId ∧
          entry.deviceId = x.receiver.localDeviceId ∧
          SealsFor crypto (toUtf8 (x.chainKeyB64 qt)) bundle entry.envelope := by
  have hentries : (x.distributionOf qt crypto).entries = x.members.flatMap fun member =>
      if stringToLongLong member.1 ≤ 0 then []
      else memberEntries qt crypto x.sender.identityKey x.sender.localDeviceId
        (x.outside.draw (stringToLongLong member.1)) (x.chainKeyB64 qt)
        (stringToLongLong member.1) (member.2.map (·.json qt)) := by
    show List.flatMap _ (x.members.map _) = _
    rw [List.flatMap_map]
    rfl
  rw [hentries]
  constructor
  · intro entry hentry
    obtain ⟨member, hmember, hentry⟩ := List.mem_flatMap.mp hentry
    split at hentry
    · cases hentry
    · rename_i huser
      exact (memberEntries_seal hc hbase64 h hq hmember (by omega)).1 entry hentry
  · obtain ⟨member, hmember, huser, bundle, hbundle, hdevice, hidentity, hprekey⟩ := h.addressed
    have hpositive := h.receiverUserId
    obtain ⟨entry, hentry, huserId, hdeviceId, hfor⟩ :=
      (@memberEntries_seal qt crypto x hc hbase64 h hq member hmember (stringToLongLong member.1)
        (by omega)).2 bundle hbundle
    refine ⟨bundle, hdevice, hidentity, hprekey, h.registered member hmember bundle hbundle, entry,
      List.mem_flatMap.mpr ⟨member, hmember, ?_⟩, huserId.trans huser, hdeviceId.trans hdevice,
      hfor⟩
    rw [if_neg (by omega)]
    exact hentry

end

/-! ## Installing the key -/

/-- Where the key is filed. -/
def address (x : GroupExchange) : KeyAddress where
  groupId := x.conversationId
  senderUserId := x.sender.userId
  senderDeviceId := x.sender.localDeviceId
  keyId := x.outside.generatedKey.keyId

/-- The message of the distribution, as it reaches the device. -/
structure Distributes (qt : Qt) (crypto : Crypto) (x : GroupExchange) (msg : Json) : Prop where
  conversationId : (msg.value "conversationId").toLongLong = x.conversationId
  content : (msg.value "content").toStr "" =
    qt.toJson (GroupE2eeCrypto.encodeDistribution qt (x.distributionOf qt crypto))

/-- `processGroupSenderKeyDistribution` on the receiver: its tables, and what is returned. -/
def install (qt : Qt) (crypto : Crypto) (cipher : TextCipher) (r : Nat × Nat) (x : GroupExchange)
    (msg : Json) : GroupDisk × Bool :=
  let result := processGroupSenderKeyDistribution qt crypto cipher r
    { x.receiver with senderKeys := x.tables.senderKeys } msg
  ({ x.tables with senderKeys := result.1.senderKeys }, result.2)

section

variable {qt : Qt} {crypto : Crypto} {cipher : TextCipher} {x : GroupExchange}

theorem Matching.address_usable (h : x.Matching crypto) : ¬x.address.Refused := by
  have hconversation := h.conversationId
  have huser := h.senderUserId
  rintro (hnot | hnot | hnot | hnot)
  · exact absurd hnot (by show ¬x.conversationId ≤ 0; omega)
  · exact absurd hnot (by show ¬x.sender.userId ≤ 0; omega)
  · exact h.senderDeviceId hnot
  · exact h.keyId hnot

theorem Matching.chainKeyB64_ne (h : x.Matching crypto) (hqt : TableCodec qt) :
    x.chainKeyB64 qt ≠ "" := by
  intro hnone
  have hlength := h.key.chainKey
  rw [hqt.nonempty _ hnone] at hlength
  cases hlength

/-- The receiver opens the distribution. -/
theorem openDistribution_distributionOf (hc : crypto.Correct) (hqt : TableCodec qt)
    (h : x.Matching crypto) (hq : x.ConveysKeys qt crypto) (rows : List SenderKeyRow) :
    ∃ localPrekeys, openDistribution crypto { x.receiver with senderKeys := rows }
      (x.distributionOf qt crypto).entries =
        (toUtf8 (x.chainKeyB64 qt), { x.receiver with senderKeys := rows, localPrekeys }) := by
  obtain ⟨hcopies, bundle, hdevice, hidentity, hprekey, hregistered, entry, hentry, huserId,
    hdeviceId, hfor⟩ := distributionOf_seals hc hqt.base64 h hq
  exact openDistribution_sealed (d := { x.receiver with senderKeys := rows }) hc
    (toUtf8_ne_nil (h.chainKeyB64_ne hqt)) (fun e he => (hcopies e he).seals) hentry huserId
    hdeviceId hfor hdevice (hidentity ▸ hregistered.identityKey.valid) hidentity hprekey

/-- **The key is installed** as it was made. -/
theorem install_held (hc : crypto.Correct) (hcipher : cipher.Correct) (hqt : TableCodec qt)
    (h : x.Matching crypto) (hq : x.ConveysKeys qt crypto)
    (hcarried : qt.Carries (GroupE2eeCrypto.encodeDistribution qt (x.distributionOf qt crypto)))
    {msg : Json} (hmsg : x.Distributes qt crypto msg)
    (hfresh : (x.tables.loadSkipped qt cipher x.address).entries = []) (r : Nat × Nat) :
    (x.install qt crypto cipher r msg).2 = true ∧
      (x.install qt crypto cipher r msg).1.held qt cipher x.address =
        some (x.outside.generatedKey.publicSigningKey,
          (GroupE2eeCrypto.receiverOf x.outside.generatedKey.chainKey 0).receiver) := by
  have hcopies := (distributionOf_seals hc hqt.base64 h hq).1
  have hdecoded : GroupE2eeCrypto.decodeDistribution qt
      (qt.toJson (GroupE2eeCrypto.encodeDistribution qt (x.distributionOf qt crypto))) =
        some (x.distributionOf qt crypto).transmitted :=
    GroupE2eeCrypto.decodeDistribution_encoded hqt.base64 h.keyId h.key.publicSigningKey
      (fun e he => (hcopies e he).exact) hcarried
  obtain ⟨localPrekeys, hopened⟩ :=
    openDistribution_distributionOf hc hqt h hq x.tables.senderKeys
  obtain ⟨rows, hsaved, ⟨key, hloaded, hchain, hiteration, hpublic⟩, -⟩ :=
    @saveSenderKey_loads qt cipher x.tables x.address hcipher hqt h.address_usable
      { x.outside.generatedKey with privateSigningKey := [], iteration := 0 }
      h.key.chainKey h.key.publicSigningKey r
  have hprocessed : processGroupSenderKeyDistribution qt crypto cipher r
      { x.receiver with senderKeys := x.tables.senderKeys } msg =
        ({ x.receiver with senderKeys := rows, localPrekeys }, true) := by
    have hconversation := h.conversationId
    have huser := h.senderUserId
    unfold processGroupSenderKeyDistribution
    dsimp only
    rw [hmsg.conversationId, hmsg.content, hdecoded,
      if_neg (not_or.mpr ⟨by omega, hcarried.ne_empty⟩)]
    dsimp only [GroupE2eeCrypto.Distribution.transmitted]
    have hnames : ¬((x.distributionOf qt crypto).groupId ≠ x.conversationId ∨
        (x.distributionOf qt crypto).senderUserId ≤ 0 ∨
        (x.distributionOf qt crypto).senderDeviceId = "") := by
      rintro (hnot | hnot | hnot)
      · exact hnot rfl
      · exact absurd hnot (by show ¬x.sender.userId ≤ 0; omega)
      · exact h.senderDeviceId hnot
    have hbytes : qt.fromBase64 (fromUtf8 (toUtf8 (x.chainKeyB64 qt))) =
        x.outside.generatedKey.chainKey := by
      rw [fromUtf8_toUtf8]
      exact hqt.base64 _
    have hlength : x.outside.generatedKey.chainKey.length = 32 := h.key.chainKey
    rw [if_neg hnames, hopened]
    dsimp only
    rw [if_neg (toUtf8_ne_nil (h.chainKeyB64_ne hqt)), hbytes, if_neg (not_not.mpr hlength),
      if_pos h.storeOpen]
    have hrows : saveSenderKey qt cipher r x.conversationId
        (x.distributionOf qt crypto).senderUserId (x.distributionOf qt crypto).senderDeviceId
        (x.distributionOf qt crypto).key.keyId x.outside.generatedKey.chainKey
        (x.distributionOf qt crypto).key.publicSigningKey [] 0 x.tables.senderKeys = some rows :=
      hsaved
    rw [hrows]
    rfl
  unfold install
  rw [hprocessed]
  refine ⟨rfl, ?_⟩
  show GroupDisk.held qt cipher { x.tables with senderKeys := rows } x.address = _
  have hskipped : GroupDisk.loadSkipped qt cipher x.address { x.tables with senderKeys := rows } =
      IntMap.empty := IntMap.eq_empty_of_entries hfresh
  unfold GroupDisk.held GroupDisk.receiver
  rw [hloaded, Option.map_some, hskipped, hchain, hiteration, hpublic]
  rfl

end

end GroupExchange

/-! ## Sending -/

/-- A text for the group, and what the outside decides while it is encrypted. -/
structure GroupText where
  outside : Outside
  iv : Bytes
  text : String

/-- What is encrypted of it, with the iv that is drawn. -/
def GroupText.plain (t : GroupText) : Bytes × Bytes := (t.iv, toUtf8 t.text)

/-- A text, and an iv as they are drawn. -/
structure GroupText.Sendable (t : GroupText) : Prop where
  iv : t.iv.length = E2eeCrypto.gcmIvSize
  text : t.text ≠ ""

/-- `encryptGroupMessage` on one text after the other. -/
def encryptInTurn (qt : Qt) (crypto : Crypto) (host : Host) (conversationId : Int) :
    NetworkManager → List GroupText → List (Option (String × String))
  | _, [] => []
  | s, t :: ts =>
      let result := s.encryptGroupMessage qt crypto host t.outside conversationId t.iv t.text
      result.2 :: encryptInTurn qt crypto host conversationId result.1 ts

/-- The client has this key of the group in memory. -/
structure HasKey (s : NetworkManager) (conversationId userId : Int) (deviceId : String)
    (key : SenderKey) : Prop where
  userId : s.userId = userId
  deviceId : s.localDeviceId = deviceId
  key : s.senderKey? conversationId = some key

section

variable {qt : Qt} {crypto : Crypto} {host : Host} {o : Outside} {s : NetworkManager}
  {conversationId userId : Int} {deviceId : String} {key : SenderKey}

/-- Saving a key leaves the client who it is. -/
theorem hasKey_saved (huser : s.userId = userId) (hdevice : s.localDeviceId = deviceId) :
    HasKey ((s.saveOwnKey qt host o conversationId key).insertSenderKey conversationId key)
      conversationId userId deviceId key := by
  have hsame : (s.saveOwnKey qt host o conversationId key).userId = s.userId ∧
      (s.saveOwnKey qt host o conversationId key).localDeviceId = s.localDeviceId := by
    unfold NetworkManager.saveOwnKey NetworkManager.write
    split
    · exact ⟨rfl, rfl⟩
    · split
      · exact ⟨rfl, rfl⟩
      · exact ⟨rfl, rfl⟩
      · split <;> exact ⟨rfl, rfl⟩
  refine ⟨hsame.1.trans huser, hsame.2.trans hdevice, ?_⟩
  unfold NetworkManager.senderKey? NetworkManager.insertSenderKey
  rw [List.lookup_cons_self]

theorem HasKey.ensured (h : HasKey s conversationId userId deviceId key)
    (hconversation : 0 < conversationId) (huser : 0 < userId) (hdevice : deviceId ≠ "")
    (hvalid : key.valid = true) :
    s.ensureGroupSenderKey qt host o conversationId = (s, some key) := by
  have husable : ¬(conversationId ≤ 0 ∨ s.userId ≤ 0 ∨ s.localDeviceId = "") := by
    rw [h.userId, h.deviceId]
    rintro (hnot | hnot | hnot)
    · omega
    · omega
    · exact hdevice hnot
  unfold NetworkManager.ensureGroupSenderKey
  rw [if_neg husable, h.key, Option.filter_some_pos hvalid]

/-- **One text**: the message of the ratchet is returned, and the key is the next one. -/
theorem HasKey.encrypts (h : HasKey s conversationId userId deviceId key)
    (hs : GroupE2eeCrypto.Sized crypto) (husable : key.Usable) (hconversation : 0 < conversationId)
    (huser : 0 < userId) (hdevice : deviceId ≠ "") {t : GroupText} (ht : t.Sendable)
    {key' : SenderKey} {m : EncryptedMessage}
    (hsent : GroupE2eeCrypto.encryptMessage crypto t.iv key (toUtf8 t.text) = (key', m))
    (hcarried : qt.Carries (GroupE2eeCrypto.encodeGroupMessage qt m deviceId)) :
    ∃ s', s.encryptGroupMessage qt crypto host o conversationId t.iv t.text =
        (s', some (qt.toJson (GroupE2eeCrypto.encodeGroupMessage qt m deviceId), key'.keyId)) ∧
      HasKey s' conversationId userId deviceId key' := by
  obtain ⟨m', hsent', -, hseals⟩ :=
    GroupE2eeCrypto.encryptMessage_spec hs husable ht.iv (toUtf8_ne_nil ht.text)
  rw [hsent] at hsent'
  obtain ⟨-, rfl⟩ := Prod.mk.inj hsent'
  have hvalid : m.valid = true := hseals.wellSized.valid
  have hkeeps : HasKey
      ((s.saveOwnKey qt host o conversationId key').insertSenderKey conversationId key')
      conversationId userId deviceId key' := hasKey_saved h.userId h.deviceId
  unfold NetworkManager.encryptGroupMessage
  rw [h.ensured hconversation huser hdevice husable.valid]
  dsimp only
  rw [hsent]
  dsimp only
  rw [if_neg (by rw [hvalid]; decide), hkeeps.deviceId, if_neg hcarried.ne_empty]
  exact ⟨_, rfl, hkeeps⟩

/-- **All texts**, in turn, are the messages of the ratchet. -/
theorem HasKey.encryptInTurn (h : HasKey s conversationId userId deviceId key)
    (hs : GroupE2eeCrypto.Sized crypto) (husable : key.Usable) (hconversation : 0 < conversationId)
    (huser : 0 < userId) (hdevice : deviceId ≠ "") {ts : List GroupText}
    (hts : ∀ t ∈ ts, t.Sendable)
    (hcarried : ∀ y ∈ (GroupE2eeCrypto.encryptAll crypto key (ts.map (·.plain))).2,
      qt.Carries (GroupE2eeCrypto.encodeGroupMessage qt y.2 deviceId)) :
    encryptInTurn qt crypto host conversationId s ts =
      (GroupE2eeCrypto.encryptAll crypto key (ts.map (·.plain))).2.map fun y =>
        some (qt.toJson (GroupE2eeCrypto.encodeGroupMessage qt y.2 deviceId), key.keyId) := by
  induction ts generalizing s key with
  | nil => rfl
  | cons t ts ih =>
      obtain ⟨ht, hrest⟩ := List.forall_mem_cons.mp hts
      obtain ⟨m, hsent, -, -⟩ :=
        GroupE2eeCrypto.encryptMessage_spec hs husable ht.iv (toUtf8_ne_nil ht.text)
      have hrun : (GroupE2eeCrypto.encryptAll crypto key ((t :: ts).map (·.plain))).2 =
          (toUtf8 t.text, m) ::
            (GroupE2eeCrypto.encryptAll crypto (key.next crypto) (ts.map (·.plain))).2 := by
        show ((_, (GroupE2eeCrypto.encryptMessage crypto t.iv key (toUtf8 t.text)).2) :: _) = _
        rw [hsent]
      rw [hrun] at hcarried ⊢
      obtain ⟨hm, hlater⟩ := List.forall_mem_cons.mp hcarried
      obtain ⟨s', hencrypted, hnext⟩ :=
        @HasKey.encrypts qt crypto host t.outside s conversationId userId deviceId key h hs husable
          hconversation huser hdevice t ht _ m hsent hm
      show (s.encryptGroupMessage qt crypto host t.outside conversationId t.iv t.text).2 ::
        encryptInTurn qt crypto host conversationId
          (s.encryptGroupMessage qt crypto host t.outside conversationId t.iv t.text).1 ts = _
      rw [hencrypted, List.map_cons]
      exact congrArg (List.cons _) (ih hnext (husable.next hs) hrest hlater)

end

end XYChat.EndToEnd
