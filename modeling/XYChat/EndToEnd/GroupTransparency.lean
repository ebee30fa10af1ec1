import XYChat.Common.RatchetDelivery
import XYChat.EndToEnd.GroupExchange

/-!
# Group messages from end to end

A client makes a sender key for a group, distributes it and encrypts texts under it. A
device of a member installs the key and is then handed any messages at all. What it shows
as the client's are the client's texts, each once, and it shows each of them, unless the
message is too far ahead of those already shown or too far behind them.
-/

namespace XYChat.EndToEnd

open XYChat.Lib XYChat.Client
open E2eeCrypto (EnvelopeEntry)
open GroupE2eeCrypto (EncryptedMessage)

/-! ## From end to end -/

/-- The group messages among what arrives, whoever they are from. -/
def groupMessagesIn (qt : Qt) (xs : List Arrival) : List EncryptedMessage :=
  xs.filterMap fun x =>
    (GroupE2eeCrypto.decodeGroupMessage qt ((x.1.value "content").toStr "")).map (·.1)

/-- A message object of the group with this content, from this user. -/
structure Carrying (msg : Json) (conversationId userId : Int) (content : String) : Prop where
  conversationId : (msg.value "conversationId").toLongLong = conversationId
  senderId : (msg.value "senderId").toLongLong = userId
  content : (msg.value "content").toStr "" = content

section

variable {qt : Qt} {crypto : Crypto} {cipher : TextCipher} {x : GroupExchange}

theorem mem_groupMessagesIn {a : KeyAddress} {d : GroupDisk} {xs : List Arrival}
    {y : EncryptedMessage × Json × Bool} (h : y ∈ handledFor qt cipher crypto a d xs) :
    y.1 ∈ groupMessagesIn qt xs := by
  induction xs generalizing d with
  | nil => cases h
  | cons arrival xs ih =>
      have hrest : ∀ d', y ∈ handledFor qt cipher crypto a d' xs →
          y.1 ∈ groupMessagesIn qt (arrival :: xs) := by
        intro d' hy
        obtain ⟨later, hlater, hdecoded⟩ := List.mem_filterMap.mp (ih hy)
        exact List.mem_filterMap.mpr ⟨later, List.mem_cons_of_mem _ hlater, hdecoded⟩
      cases haddressed : d.addressed qt arrival.1 with
      | none =>
          rw [handledFor_unaddressed haddressed] at h
          exact hrest _ h
      | some z =>
          obtain ⟨b, encrypted⟩ := z
          rw [handledFor_cons haddressed] at h
          rcases List.mem_append.mp h with hhere | hlater
          · split at hhere
            · rw [List.mem_singleton.mp hhere]
              obtain ⟨⟨message, senderDeviceId⟩, hdecoded, heq⟩ :=
                Option.map_eq_some_iff.mp haddressed
              obtain ⟨-, rfl⟩ := Prod.mk.inj heq
              refine List.mem_filterMap.mpr ⟨arrival, List.mem_cons_self, ?_⟩
              rw [hdecoded]
              rfl
            · cases hhere
          · exact hrest _ hlater

/-- **The key is made**, and is the one in memory. -/
theorem buildGroupSenderKeyDistribution_built (host : Host) (hc : crypto.Correct)
    (hbase64 : qt.Base64) (h : x.Matching crypto) (hq : x.ConveysKeys qt crypto) :
    ∃ s, x.sender.buildGroupSenderKeyDistribution qt crypto host x.outside x.conversationId
        (x.bundlesByUser qt) = (s, some (x.distributionOf qt crypto)) ∧
      HasKey s x.conversationId x.sender.userId x.sender.localDeviceId x.outside.generatedKey := by
  obtain ⟨-, bundle, -, -, -, -, entry, hentry, -⟩ :=
    GroupExchange.distributionOf_seals hc hbase64 h hq
  have hconversation := h.conversationId
  have hready : ¬(x.conversationId ≤ 0 ∨ x.outside.generatedKey.valid = false) := by
    rw [h.key.valid]
    rintro (hnot | hnot)
    · omega
    · cases hnot
  have hentries : (distributionEntries qt crypto x.sender.identityKey x.sender.localDeviceId
      x.outside.draw (qt.toBase64 x.outside.generatedKey.chainKey)
      (x.bundlesByUser qt)).isEmpty = false := by
    rw [List.isEmpty_eq_false_iff]
    exact List.ne_nil_of_mem hentry
  unfold NetworkManager.buildGroupSenderKeyDistribution
  dsimp only
  rw [if_neg hready, if_neg (by rw [hentries]; decide)]
  exact ⟨_, rfl, hasKey_saved rfl rfl⟩

/-- A message of the sender has the address of its key. -/
theorem addressed_sent (h : x.Matching crypto) (hbase64 : qt.Base64) {m : EncryptedMessage}
    (hwell : m.WellSized) (hkeyId : m.keyId = x.outside.generatedKey.keyId)
    (hbound : m.iteration ≤ GroupE2eeCrypto.maxMessageIteration)
    (hcarried : qt.Carries (GroupE2eeCrypto.encodeGroupMessage qt m x.sender.localDeviceId))
    {msg : Json} (hmsg : Carrying msg x.conversationId x.sender.userId
      (qt.toJson (GroupE2eeCrypto.encodeGroupMessage qt m x.sender.localDeviceId)))
    (d : GroupDisk) : d.addressed qt msg = some (x.address, m) := by
  have hdecoded := (GroupE2eeCrypto.groupMessage_readsBack hbase64
    ⟨by rw [hkeyId]; exact h.keyId, ⟨hwell.iteration, hbound⟩, hwell.iv, hwell.ciphertext,
      hwell.signature⟩ hcarried).1
  have hvalid : { m with valid := true } = m := by
    rw [← hwell.valid]
  have huser := h.senderUserId
  unfold GroupDisk.addressed GroupExchange.address
  rw [hmsg.content, hdecoded, hvalid, Option.map_some]
  dsimp only
  rw [hmsg.conversationId, hmsg.senderId, if_neg (by omega), hkeyId]

theorem groupMessagesIn_addressed {d : GroupDisk} {y : Arrival} {a : KeyAddress}
    {m : EncryptedMessage} (h : d.addressed qt y.1 = some (a, m)) :
    groupMessagesIn qt [y] = [m] := by
  obtain ⟨decoded, hdecoded, heq⟩ := Option.map_eq_some_iff.mp h
  have hmessage : decoded.1 = m := (Prod.mk.inj heq).2
  unfold groupMessagesIn
  rw [List.filterMap_cons, hdecoded, Option.map_some, hmessage, List.filterMap_nil]

/-- What the sender sends under its key. -/
def GroupExchange.sent (crypto : Crypto) (x : GroupExchange) (ts : List GroupText) :
    List (Bytes × EncryptedMessage) :=
  (GroupE2eeCrypto.encryptAll crypto x.outside.generatedKey (ts.map (·.plain))).2

theorem drawn_plain {ts : List GroupText} (hts : ∀ t ∈ ts, t.Sendable) :
    ∀ y ∈ ts.map (·.plain), y.1.length = E2eeCrypto.gcmIvSize ∧ y.2 ≠ [] := by
  intro y hy
  obtain ⟨t, ht, rfl⟩ := List.mem_map.mp hy
  exact ⟨(hts t ht).iv, toUtf8_ne_nil (hts t ht).text⟩

/-- The tables hold a receiver of the sender's key, and what has been shown is what it has
returned. -/
theorem shown_deliveredOf (hcipher : cipher.Correct) (hqt : TableCodec qt) (h : x.Matching crypto)
    {ts : List GroupText} (hts : ∀ t ∈ ts, t.Sendable) {xs : List Arrival}
    (hworks : ∀ y ∈ xs, ∀ n, (y.2 n).works = true)
    (hideal : GroupE2eeCrypto.Ideal crypto x.outside.generatedKey (x.sent crypto ts)
      x.outside.generatedKey.chainKey 0 (groupMessagesIn qt xs)) {d : GroupDisk}
    (hheld : d.held qt cipher x.address = some (x.outside.generatedKey.publicSigningKey,
      (GroupE2eeCrypto.receiverOf x.outside.generatedKey.chainKey 0).receiver)) :
    ∃ s, GroupE2eeCrypto.DeliveredOf crypto x.outside.generatedKey (x.sent crypto ts) s ∧
      (d.handleAll qt cipher crypto xs).held qt cipher x.address =
        some (x.outside.generatedKey.publicSigningKey, s.receiver) ∧
      shownOf (handledFor qt cipher crypto x.address d xs) = s.outputs.map shownText := by
  have hiteration := h.iteration
  have hhandled : GroupE2eeCrypto.Ideal crypto x.outside.generatedKey (x.sent crypto ts)
      x.outside.generatedKey.chainKey x.outside.generatedKey.iteration
      ((handledFor qt cipher crypto x.address d xs).map (·.1)) := by
    rw [hiteration]
    refine hideal.mono fun m hm => ?_
    obtain ⟨y, hy, rfl⟩ := List.mem_map.mp hm
    exact mem_groupMessagesIn hy
  have hdelivered := GroupE2eeCrypto.deliveredOf_run h.key (drawn_plain hts) hhandled
  obtain ⟨hfinal, houtputs⟩ := @handledFor_run qt cipher crypto d x.address xs hcipher hqt
    hideal.toSized hworks x.outside.generatedKey.publicSigningKey
    x.outside.generatedKey.chainKey 0
    (GroupE2eeCrypto.receiverOf x.outside.generatedKey.chainKey 0) hheld
  rw [hiteration] at hdelivered
  exact ⟨_, hdelivered, hfinal, houtputs.symm⟩

/-- The text of a message, and its place among the texts. -/
theorem sent_getElem? (hs : GroupE2eeCrypto.Sized crypto) (h : x.Matching crypto)
    {ts : List GroupText} (hts : ∀ t ∈ ts, t.Sendable) {n : Nat} {t : GroupText}
    (ht : ts[n]? = some t) :
    ∃ m, (x.sent crypto ts)[n]? = some (toUtf8 t.text, m) ∧ m.iteration = n + 1 ∧
      m.keyId = x.outside.generatedKey.keyId := by
  have hplain : (ts.map (·.plain))[n]? = some t.plain := by
    rw [List.getElem?_map, ht]
    rfl
  obtain ⟨m, hm, hiteration, hkeyId⟩ :=
    GroupE2eeCrypto.encryptAll_getElem? hs h.key (drawn_plain hts) hplain
  refine ⟨m, hm, ?_, hkeyId⟩
  rw [hiteration, h.iteration, Int.zero_add]

/-- **Nothing else is shown.** -/
theorem shown_genuine (hs : GroupE2eeCrypto.Sized crypto) (h : x.Matching crypto)
    {ts : List GroupText} (hts : ∀ t ∈ ts, t.Sendable) {s : GroupE2eeCrypto.Delivered}
    (hs' : GroupE2eeCrypto.DeliveredOf crypto x.outside.generatedKey (x.sent crypto ts) s) :
    ∀ y ∈ s.outputs.map shownText, ∃ n : Nat, ∃ t, ts[n]? = some t ∧
      y = ((n : Int) + 1, .str t.text) := by
  intro y hy
  obtain ⟨out, hout, rfl⟩ := List.mem_map.mp hy
  obtain ⟨z, hz, hiteration, hplain⟩ := hs'.genuine out hout
  obtain ⟨n, hn⟩ := List.getElem?_of_mem hz
  have hlt : n < ts.length := by
    have hlength : (x.sent crypto ts).length = ts.length := by
      unfold GroupExchange.sent
      rw [GroupE2eeCrypto.encryptAll_length, List.length_map]
    rw [← hlength]
    exact (List.getElem?_eq_some_iff.mp hn).1
  obtain ⟨m, hm, hplace, -⟩ := sent_getElem? hs h hts (List.getElem?_eq_getElem hlt)
  rw [hn] at hm
  obtain rfl := Option.some.inj hm
  refine ⟨n, _, List.getElem?_eq_getElem hlt, ?_⟩
  unfold shownText
  rw [← hiteration, ← hplain, hplace, fromUtf8_toUtf8]

/-- **The next message** of the sender is shown. -/
theorem carried_shown (hcipher : cipher.Correct) (hqt : TableCodec qt) (h : x.Matching crypto)
    {ts : List GroupText} (hts : ∀ t ∈ ts, t.Sendable) {deliveries : List EncryptedMessage}
    (hideal : GroupE2eeCrypto.Ideal crypto x.outside.generatedKey (x.sent crypto ts)
      x.outside.generatedKey.chainKey 0 deliveries) {s : GroupE2eeCrypto.Delivered}
    (hs : GroupE2eeCrypto.DeliveredOf crypto x.outside.generatedKey (x.sent crypto ts) s)
    {d : GroupDisk}
    (hheld : d.held qt cipher x.address =
      some (x.outside.generatedKey.publicSigningKey, s.receiver)) {text : String}
    {m : EncryptedMessage} (hm : (toUtf8 text, m) ∈ x.sent crypto ts)
    (hkeyId : m.keyId = x.outside.generatedKey.keyId)
    (hbound : m.iteration ≤ GroupE2eeCrypto.maxMessageIteration)
    (hcarried : qt.Carries (GroupE2eeCrypto.encodeGroupMessage qt m x.sender.localDeviceId))
    {msg : Json} {e : Nat → Client.Outcome} (hmsg : Carrying msg x.conversationId x.sender.userId
      (qt.toJson (GroupE2eeCrypto.encodeGroupMessage qt m x.sender.localDeviceId)))
    (he : ∀ k, (e k).works = true) (hnew : m.iteration ∉ s.outputs.map (·.1))
    (hbehind : ∀ y ∈ s.outputs, y.1 ≤ m.iteration + GroupE2eeCrypto.maxSkippedMessageKeys)
    (hahead : m.iteration ≤ GroupE2eeCrypto.maxRatchetSteps ∨
      ∃ y ∈ s.outputs, m.iteration ≤ y.1 + GroupE2eeCrypto.maxRatchetSteps) :
    (d.handle qt cipher crypto (msg, e)).1.2 = true ∧
      (d.handle qt cipher crypto (msg, e)).1.1.value "content" = .str text := by
  have hiteration := h.iteration
  obtain ⟨-, -, -, hall, -, -⟩ :=
    GroupE2eeCrypto.encryptAll_spec hideal.toSized h.key (drawn_plain hts)
  have hseals := (hall _ hm).1
  have hhandled := @handle_handled qt cipher crypto d x.address (msg, e) hcipher hqt hideal.toSized
    m he (addressed_sent h hqt.base64 hseals.wellSized hkeyId hbound hcarried hmsg d)
  have hopened : (GroupE2eeCrypto.decryptMessage crypto x.outside.generatedKey.publicSigningKey
      s.receiver m).1 = toUtf8 text := by
    refine hs.decrypts h.key (drawn_plain hts) (hiteration ▸ hideal) hm hnew hbehind ?_
    rw [hiteration, Int.zero_add]
    exact hahead
  have hplain : openedBy crypto (d.held qt cipher x.address) m = toUtf8 text := by
    rw [hheld]
    exact hopened
  constructor
  · rw [hhandled.shown, hplain]
    exact bne_iff_ne.mpr hseals.plaintext
  · rw [hhandled.content, hplain, fromUtf8_toUtf8]

/-- **Group messages from end to end.** A client makes a key for a group, and the device of
a member installs it from the distribution. The client then sends texts, and the device is
handed any messages, its writes working. Each text is encrypted. What the device shows as
the client's are those texts, each once. And the next message with one of them is shown
with its text, if it has not been shown and is at most `maxSkippedMessageKeys` behind and
`maxRatchetSteps` ahead of what has. -/
theorem groupTexts_shown (host : Host) (hc : crypto.Correct) (hcipher : cipher.Correct)
    (hqt : TableCodec qt) (h : x.Matching crypto) (hq : x.ConveysKeys qt crypto)
    (hdistribution : qt.Carries
      (GroupE2eeCrypto.encodeDistribution qt (x.distributionOf qt crypto)))
    {distribution : Json} (hmsg : x.Distributes qt crypto distribution)
    (hfresh : (x.tables.loadSkipped qt cipher x.address).entries = []) (r : Nat × Nat)
    {ts : List GroupText} (hts : ∀ t ∈ ts, t.Sendable)
    (hcarried : ∀ y ∈ x.sent crypto ts,
      qt.Carries (GroupE2eeCrypto.encodeGroupMessage qt y.2 x.sender.localDeviceId))
    {xs : List Arrival} (hworks : ∀ y ∈ xs, ∀ n, (y.2 n).works = true)
    (hideal : GroupE2eeCrypto.Ideal crypto x.outside.generatedKey (x.sent crypto ts)
      x.outside.generatedKey.chainKey 0 (groupMessagesIn qt xs)) :
    let built := x.sender.buildGroupSenderKeyDistribution qt crypto host x.outside
      x.conversationId (x.bundlesByUser qt)
    let installed := x.install qt crypto cipher r distribution
    let shown := shownOf (handledFor qt cipher crypto x.address installed.1 xs)
    built.2 = some (x.distributionOf qt crypto) ∧ installed.2 = true ∧
      (∀ y ∈ shown, ∃ n : Nat, ∃ t, ts[n]? = some t ∧ y = ((n : Int) + 1, .str t.text)) ∧
      (shown.map (·.1)).Nodup ∧
      ∀ (n : Nat) t, ts[n]? = some t → ∃ envelope,
        (encryptInTurn qt crypto host x.conversationId built.1 ts)[n]? =
          some (some (envelope, x.outside.generatedKey.keyId)) ∧
        ∀ msg e, Carrying msg x.conversationId x.sender.userId envelope →
          (∀ k, (e k).works = true) → (n : Int) + 1 ≤ GroupE2eeCrypto.maxMessageIteration →
          (n : Int) + 1 ∉ shown.map (·.1) →
          (∀ y ∈ shown, y.1 ≤ (n : Int) + 1 + GroupE2eeCrypto.maxSkippedMessageKeys) →
          ((n : Int) + 1 ≤ GroupE2eeCrypto.maxRatchetSteps ∨
            ∃ y ∈ shown, (n : Int) + 1 ≤ y.1 + GroupE2eeCrypto.maxRatchetSteps) →
          let result := ((installed.1.handleAll qt cipher crypto xs).handle qt cipher crypto
            (msg, e)).1
          result.2 = true ∧ result.1.value "content" = .str t.text := by
  dsimp only
  obtain ⟨s, hbuilt, hkey⟩ := buildGroupSenderKeyDistribution_built host hc hqt.base64 h hq
  obtain ⟨hinstalled, hheld⟩ :=
    GroupExchange.install_held hc hcipher hqt h hq hdistribution hmsg hfresh r
  generalize (x.install qt crypto cipher r distribution).1 = d at hheld ⊢
  obtain ⟨delivered, hdelivered, hfinal, hshown⟩ :=
    shown_deliveredOf hcipher hqt h hts hworks hideal hheld
  have hiterations : (shownOf (handledFor qt cipher crypto x.address d xs)).map (·.1) =
      delivered.outputs.map (·.1) := by
    rw [hshown, List.map_map]
    rfl
  refine ⟨by rw [hbuilt], hinstalled, ?_, ?_, fun n t ht => ?_⟩
  · rw [hshown]
    exact shown_genuine hideal.toSized h hts hdelivered
  · rw [hiterations]
    exact hdelivered.reach.once
  · obtain ⟨m, hm, hplace, hkeyId⟩ := sent_getElem? hideal.toSized h hts ht
    have hsent := List.mem_of_getElem? hm
    refine ⟨qt.toJson (GroupE2eeCrypto.encodeGroupMessage qt m x.sender.localDeviceId), ?_,
      fun msg e hcarrying he hbound hnew hbehind hahead => ?_⟩
    · rw [hbuilt, hkey.encryptInTurn hideal.toSized h.key h.conversationId h.senderUserId
        h.senderDeviceId hts hcarried, List.getElem?_map]
      show Option.map _ (x.sent crypto ts)[n]? = _
      rw [hm]
      rfl
    · have hbetween : ∀ y ∈ delivered.outputs,
          shownText y ∈ shownOf (handledFor qt cipher crypto x.address d xs) := by
        intro y hy
        rw [hshown]
        exact List.mem_map_of_mem hy
      rw [hiterations] at hnew
      rw [← hplace] at hbound hnew hbehind hahead
      refine carried_shown hcipher hqt h hts hideal hdelivered hfinal hsent hkeyId hbound
        (hcarried _ hsent) hcarrying he hnew (fun y hy => hbehind _ (hbetween y hy)) ?_
      rcases hahead with hnear | ⟨y, hy, hnear⟩
      · exact .inl hnear
      · rw [hshown] at hy
        obtain ⟨out, hout, rfl⟩ := List.mem_map.mp hy
        exact .inr ⟨out, hout, hnear⟩

end

/-! ## Alice's texts for bob -/

/-- Primitives in which a sealed text carries its key, and a signature the sum of what is
signed. -/
def carryCrypto : Crypto where
  hkdf := GroupE2eeCrypto.toyCrypto.hkdf
  gcmSeal key _ plaintext := (key ++ List.replicate 32 0).take 32 ++ plaintext
  gcmOpen key _ ciphertext :=
    if ciphertext.take 32 = (key ++ List.replicate 32 0).take 32 then some (ciphertext.drop 32)
    else none
  ed25519Sign := GroupE2eeCrypto.toyCrypto.ed25519Sign
  ed25519Verify := GroupE2eeCrypto.toyCrypto.ed25519Verify
  x25519 := openCrypto.x25519

theorem length_carried (key : Bytes) :
    ((key ++ List.replicate 32 (0 : UInt8)).take 32).length = 32 := by
  rw [List.length_take, List.length_append, List.length_replicate]
  omega

theorem carried_of_length {key : Bytes} (h : key.length = 32) :
    (key ++ List.replicate 32 (0 : UInt8)).take 32 = key := by
  rw [← h, List.take_left]

theorem carryCrypto_opens (key iv plaintext : Bytes) :
    carryCrypto.gcmOpen key iv (carryCrypto.gcmSeal key iv plaintext) = some plaintext := by
  have hlength := length_carried key
  dsimp only [carryCrypto]
  generalize (key ++ List.replicate 32 (0 : UInt8)).take 32 = carried at hlength ⊢
  rw [← hlength, List.take_left, List.drop_left, if_pos rfl]

theorem carryCrypto_correct : carryCrypto.Correct where
  hkdf := toyCrypto_sized.hkdf
  agrees a b ha hb := openCrypto_correct.agrees a b
    ⟨ha.valid, ha.privateKey, ha.publicKey, ha.derived⟩
    ⟨hb.valid, hb.privateKey, hb.publicKey, hb.derived⟩
  tag key _ plaintext h := by
    show 16 ≤ ((key ++ List.replicate 32 0).take 32 ++ plaintext).length
    rw [List.length_append, length_carried]
    omega
  opens key iv plaintext _ := carryCrypto_opens key iv plaintext
  rejects key key' _ plaintext h h' hne := by
    dsimp only [carryCrypto]
    rw [carried_of_length h, carried_of_length h', ← h, List.take_left, if_neg hne.symm]

/-- Alice makes a key for a group, and bob has a phone in it. -/
def aliceGroup : GroupExchange where
  sender := { state := .authenticated, userId := 1, username := "alice", localDeviceId := "a" }
  outside :=
    { generatedKey := GroupE2eeCrypto.toyKey
      draw := fun _ _ => { ephemeral := openKeyPair 4, iv := List.replicate 12 0 } }
  conversationId := 7
  members :=
    [("2", [{ deviceId := "b", prekeyId := 7
              identityKey := openKeyPair 2, prekey := openKeyPair 3 }])]
  receiver :=
    { userId := 2, localDeviceId := "b", identityKey := openKeyPair 2
      localPrekeys := [openKeyPair 3], storeOpen := true }
  tables := {}

theorem openKeyPair_carried (n : UInt8) : (openKeyPair n).Proper carryCrypto where
  valid := rfl
  privateKey := rfl
  publicKey := rfl
  derived := rfl

theorem aliceGroup_matching : aliceGroup.Matching carryCrypto where
  conversationId := by decide
  senderUserId := by decide
  senderDeviceId := by decide
  key := ⟨rfl, rfl, rfl, rfl, by decide⟩
  keyId := by decide
  iteration := rfl
  identityKey h := by cases h
  ephemeral _ _ := openKeyPair_carried 4
  iv _ _ := rfl
  registered member hmember bundle hbundle := by
    obtain rfl := List.mem_singleton.mp hmember
    obtain rfl := List.mem_singleton.mp hbundle
    exact ⟨by decide, by decide, openKeyPair_carried 2, openKeyPair_carried 3⟩
  receiverUserId := by decide
  storeOpen := rfl
  addressed := ⟨_, List.mem_cons_self, by decide +kernel, _, List.mem_cons_self, rfl, rfl,
    List.mem_cons_self⟩

def aliceTexts : List GroupText := ["hi", "you"].map fun text =>
  { outside := {}, iv := List.replicate 12 0, text }

theorem aliceTexts_sendable : ∀ t ∈ aliceTexts, t.Sendable := by
  intro t ht
  obtain ⟨text, htext, rfl⟩ := List.mem_map.mp ht
  refine ⟨rfl, ?_⟩
  rintro rfl
  revert htext
  decide

/-- An object of the group that reaches bob. -/
def groupToBob (content : String) : Json := .obj
  [("conversationId", .int 7), ("senderId", .int 1), ("content", .str content)]

/-- The message with the second text. -/
def secondMessage : EncryptedMessage :=
  ((aliceGroup.sent carryCrypto aliceTexts)[1]?.map (·.2)).getD {}

/-- Bob is handed it first. -/
def secondToBob : Arrival :=
  (groupToBob (GroupE2eeCrypto.encodeGroupMessage Qt.compact secondMessage "a").text,
    fun _ => { works := true })

theorem secondMessage_wellSized : secondMessage.WellSized where
  iteration := by decide +kernel
  iv := by decide +kernel
  ciphertext := by decide +kernel
  signature := by decide +kernel
  valid := by decide +kernel

theorem secondToBob_addressed (d : GroupDisk) :
    d.addressed Qt.compact secondToBob.1 = some (aliceGroup.address, secondMessage) :=
  addressed_sent aliceGroup_matching compact_base64 secondMessage_wellSized rfl (by decide +kernel)
    (compact_carries_encode (.groupMessage secondMessage "a")) ⟨rfl, rfl, rfl⟩ d

theorem aliceGroup_ideal : GroupE2eeCrypto.Ideal carryCrypto aliceGroup.outside.generatedKey
    (aliceGroup.sent carryCrypto aliceTexts) aliceGroup.outside.generatedKey.chainKey 0
    (groupMessagesIn Qt.compact [secondToBob]) where
  hkdf := toyCrypto_sized.hkdf
  sealed key _ plaintext := by
    show 16 ≤ ((key ++ List.replicate 32 0).take 32 ++ plaintext).length
    rw [List.length_append, length_carried]
    omega
  signature := toyCrypto_sized.signature
  open_seal := carryCrypto_opens
  verify_sign := GroupE2eeCrypto.toyCrypto_ideal.verify_sign
  unforgeable := by
    rw [groupMessagesIn_addressed (secondToBob_addressed {})]
    decide +kernel
  otherStep := by
    rw [groupMessagesIn_addressed (secondToBob_addressed {})]
    decide +kernel

def aliceHost : Host where
  machineUniqueId := "pc"
  cipher _ := plainCipher

/-- The distribution as it reaches bob. -/
def distributionToBob : Json :=
  groupToBob (GroupE2eeCrypto.encodeDistribution Qt.compact
    (aliceGroup.distributionOf Qt.compact carryCrypto)).text

/-- The first message is shown though it comes after the second. -/
theorem groupTexts_shown_alice :
    ∃ envelope,
      (encryptInTurn Qt.compact carryCrypto aliceHost 7
        (aliceGroup.sender.buildGroupSenderKeyDistribution Qt.compact carryCrypto
          aliceHost aliceGroup.outside 7 (aliceGroup.bundlesByUser Qt.compact)).1
        aliceTexts)[0]? = some (some (envelope, "k")) ∧
      ((((aliceGroup.install Qt.compact carryCrypto plainCipher (0, 1)
        distributionToBob).1.handleAll Qt.compact plainCipher carryCrypto
          [secondToBob]).handle Qt.compact plainCipher carryCrypto
            (groupToBob envelope, fun _ => { works := true })).1.1.value "content" =
              .str "hi") := by
  have hworks : ∀ y ∈ [secondToBob], ∀ n, (y.2 n).works = true := by
    intro y hy n
    rw [List.mem_singleton.mp hy]
    rfl
  have hconveyed : aliceGroup.ConveysKeys Qt.compact carryCrypto :=
    fun _ _ entries _ => compact_conveys entries
  have hdistribution :=
    compact_carries_encode (.distribution (aliceGroup.distributionOf Qt.compact carryCrypto))
  have hdistributes : aliceGroup.Distributes Qt.compact carryCrypto distributionToBob := ⟨rfl, rfl⟩
  obtain ⟨-, -, -, -, hnext⟩ := groupTexts_shown aliceHost carryCrypto_correct plainCipher_correct
    compact_tables aliceGroup_matching hconveyed hdistribution hdistributes rfl
    (0, 1) aliceTexts_sendable
    (fun y _ => compact_carries_encode (.groupMessage y.2 "a")) hworks aliceGroup_ideal
  obtain ⟨envelope, henvelope, hshows⟩ := hnext 0 _ rfl
  have hshown : (shownOf (handledFor Qt.compact plainCipher carryCrypto
      aliceGroup.address (aliceGroup.install Qt.compact carryCrypto plainCipher
        (0, 1) distributionToBob).1 [secondToBob])).map (·.1) = [2] := by
    obtain ⟨-, hheld⟩ := GroupExchange.install_held carryCrypto_correct plainCipher_correct
      compact_tables aliceGroup_matching hconveyed hdistribution hdistributes rfl (0, 1)
    have hhandled : (handledFor Qt.compact plainCipher carryCrypto aliceGroup.address
        (aliceGroup.install Qt.compact carryCrypto plainCipher (0, 1) distributionToBob).1
        [secondToBob]).map (·.1) = [secondMessage] := by
      rw [handledFor_cons (secondToBob_addressed _), if_pos rfl]
      rfl
    have hrun := (@handledFor_run Qt.compact plainCipher carryCrypto _ aliceGroup.address
      [secondToBob] plainCipher_correct compact_tables aliceGroup_ideal.toSized hworks _
      aliceGroup.outside.generatedKey.chainKey 0 _ hheld).2
    have hnothing : (GroupE2eeCrypto.receiverOf aliceGroup.outside.generatedKey.chainKey 0).outputs =
        [] := rfl
    rw [hhandled, hnothing, List.map_nil, List.nil_append] at hrun
    rw [← hrun, List.map_map]
    decide +kernel
  refine ⟨envelope, henvelope, (hshows _ _ ⟨rfl, rfl, rfl⟩ (fun _ => rfl) (by decide) ?_ ?_ ?_).2⟩
  · rw [hshown]
    decide
  · intro y hy
    have hmem := List.mem_map_of_mem (f := (·.1)) hy
    rw [hshown] at hmem
    rw [List.mem_singleton.mp hmem]
    decide
  · exact .inl (by decide)

end XYChat.EndToEnd
