import XYChat.Client.Encryption
import XYChat.Common.JsonReader

/-!
# What goes over the wire

The three ciphertext contents are written by encoders and read by decoders that were
written apart, and told from plaintext by recognisers that look at a few fields only.
What an encoder writes of a content in shape its decoder reads back whole, and its
recogniser knows it.
-/

namespace XYChat

open E2eeCrypto (EnvelopeEntry)

/-! ## The codecs -/

/-- Every byte array survives base64. -/
def Qt.Base64 (qt : Qt) : Prop := ∀ bytes, qt.fromBase64 (qt.toBase64 bytes) = bytes

/-- The object survives JSON, whose text begins with its brace. -/
structure Qt.Carries (qt : Qt) (document : Json) : Prop where
  object : (qt.toJson document).front = '\x7b'
  json : qt.fromJson (qt.toJson document) = some document

theorem Qt.Carries.ne_empty {qt : Qt} {document : Json} (h : qt.Carries document) :
    qt.toJson document ≠ "" := by
  intro hempty
  have hfront := h.object
  rw [hempty] at hfront
  revert hfront
  decide

/-- What the unit of its last place divides is a double. -/
theorem roundToDouble_of_dvd {m : Nat} (h : 2 ^ (m.log2 + 1 - 53) ∣ m) :
    roundToDouble m = m := by
  have hrem : m % 2 ^ (m.log2 + 1 - 53) = 0 := Nat.mod_eq_zero_of_dvd h
  have hunit : 0 < 2 ^ (m.log2 + 1 - 53) := Nat.two_pow_pos _
  unfold roundToDouble
  dsimp only
  rw [Int.natAbs_natCast, if_neg (by omega), Nat.div_mul_cancel h]
  rcases Nat.eq_zero_or_pos m with rfl | hpos
  · rfl
  · rw [Int.sign_natCast_of_ne_zero (by omega), one_mul]

/-- So is a number of 53 bits with zeros behind. -/
theorem roundToDouble_mul_two_pow {q e : Nat} (hq : q ≤ 2 ^ 53) :
    roundToDouble ((q * 2 ^ e : Nat) : Int) = ((q * 2 ^ e : Nat) : Int) := by
  refine roundToDouble_of_dvd ?_
  by_cases hzero : q = 0
  · simp [hzero]
  have hne : q * 2 ^ e ≠ 0 := Nat.mul_ne_zero hzero (Nat.two_pow_pos e).ne'
  by_cases hlast : q = 2 ^ 53
  · rw [hlast, ← Nat.pow_add]
    rw [Nat.log2_two_pow]
    exact Nat.pow_dvd_pow 2 (by omega)
  · have hlog : (q * 2 ^ e).log2 < 53 + e := by
      rw [Nat.log2_lt hne, Nat.pow_add]
      exact Nat.mul_lt_mul_of_pos_right (by omega) (Nat.two_pow_pos e)
    exact (Nat.pow_dvd_pow 2 (by omega)).trans (Nat.dvd_mul_left _ q)

/-- **Rounding once is enough.** -/
theorem roundToDouble_idem {n : Int} (h : 0 ≤ n) :
    roundToDouble (roundToDouble n) = roundToDouble n := by
  obtain ⟨m, rfl⟩ := Int.eq_ofNat_of_zero_le h
  rcases Nat.eq_zero_or_pos m with rfl | hpos
  · rfl
  -- the mantissa has 53 bits, or is rounded up to the next power of two
  have hmantissa : m / 2 ^ (m.log2 + 1 - 53) < 2 ^ 53 := by
    rw [Nat.div_lt_iff_lt_mul (Nat.two_pow_pos _), ← Nat.pow_add]
    exact Nat.lt_of_lt_of_le Nat.lt_log2_self (Nat.pow_le_pow_right (by omega) (by omega))
  unfold roundToDouble
  dsimp only
  rw [Int.natAbs_natCast, Int.sign_natCast_of_ne_zero (by omega), one_mul]
  split
  · exact roundToDouble_mul_two_pow hmantissa
  · exact roundToDouble_mul_two_pow hmantissa.le

theorem castInt64_intCast (n : Int) : castInt64 (n : Rat) = if inInt64 n then n else -2 ^ 63 := by
  unfold castInt64
  simp only [Int.floor_intCast, Int.ceil_intCast, ite_self]

/-- A double holds every integer up to two to the 53rd. -/
theorem Json.doubleAsInt64_int {n : Int} (h : 0 ≤ n) (hle : n ≤ 2 ^ 53) :
    (Json.int n).doubleAsInt64 = n := by
  obtain ⟨m, rfl⟩ := Int.eq_ofNat_of_zero_le h
  have hround : roundToDouble m = m := by
    have hmul := roundToDouble_mul_two_pow (q := m) (e := 0) (by omega)
    rwa [Nat.pow_zero, Nat.mul_one] at hmul
  show castInt64 (roundToDouble m) = m
  rw [hround, castInt64_intCast, if_pos]
  simp only [inInt64, Bool.and_eq_true, decide_eq_true_iff]
  omega

/-- A positive number that was read from a double is read from it again. -/
theorem Json.doubleAsInt64_idem {n : Int} (h : 0 < (Json.int n).doubleAsInt64) :
    (Json.int (Json.int n).doubleAsInt64).doubleAsInt64 = (Json.int n).doubleAsInt64 := by
  have hcast : (Json.int n).doubleAsInt64 =
      if inInt64 (roundToDouble n) then roundToDouble n else -2 ^ 63 :=
    castInt64_intCast _
  rw [hcast] at h ⊢
  by_cases hrange : inInt64 (roundToDouble n) = true
  · rw [if_pos hrange] at h ⊢
    have hn : 0 ≤ n := by
      by_contra hneg
      have hsign : n.sign = -1 := Int.sign_eq_neg_one_of_neg (by omega)
      unfold roundToDouble at h
      dsimp only at h
      rw [hsign] at h
      omega
    show castInt64 (roundToDouble (roundToDouble n)) = roundToDouble n
    rw [roundToDouble_idem hn, castInt64_intCast, if_pos hrange]
  · rw [if_neg hrange] at h
    omega

/-! ## Contents in shape -/

/-- A double holds the prekey id, and the rest has the sizes the decoders ask for. -/
structure E2eeCrypto.EnvelopeEntry.InShape (entry : EnvelopeEntry) : Prop where
  wellSized : entry.wellSized = true
  prekeyId : entry.prekeyId ≤ 2 ^ 53

namespace GroupE2eeCrypto

structure DistributionEntry.InShape (entry : DistributionEntry) : Prop where
  userId : 0 < entry.userId ∧ inInt64 entry.userId = true
  deviceId : entry.envelope.deviceId = entry.deviceId
  envelope : entry.envelope.InShape

structure Distribution.InShape (dist : Distribution) : Prop where
  ids : inInt64 dist.groupId = true ∧ inInt64 dist.senderUserId = true
  keyId : dist.key.keyId ≠ ""
  publicSigningKey : dist.key.publicSigningKey.length = ed25519KeySize
  entries : ∀ entry ∈ dist.entries, entry.InShape

/-- What the decoder of group messages asks for beside a key id. -/
structure EncryptedMessage.Bounded (msg : EncryptedMessage) : Prop where
  iteration : 0 < msg.iteration ∧ msg.iteration ≤ maxMessageIteration
  iv : msg.iv.length = E2eeCrypto.gcmIvSize
  ciphertext : E2eeCrypto.gcmTagSize ≤ msg.ciphertext.length
  signature : msg.signature.length = ed25519SigSize

/-- The fields of a distribution that are sent: of the key, its id and its public half. -/
def Distribution.transmitted (dist : Distribution) : Distribution :=
  { dist with
    key := { keyId := dist.key.keyId, publicSigningKey := dist.key.publicSigningKey, valid := true } }

end GroupE2eeCrypto

open GroupE2eeCrypto (Distribution EncryptedMessage)

/-- A content with what its encoder is given. -/
inductive WireContent where
  | envelope (entries : List EnvelopeEntry)
  | distribution (dist : Distribution)
  | groupMessage (msg : EncryptedMessage) (senderDeviceId : String)

namespace WireContent

/-- The document its encoder makes of it. -/
def encode (qt : Qt) : WireContent → Json
  | .envelope entries => E2eeCrypto.encodeEnvelope qt entries
  | .distribution dist => GroupE2eeCrypto.encodeDistribution qt dist
  | .groupMessage msg senderDeviceId => GroupE2eeCrypto.encodeGroupMessage qt msg senderDeviceId

def InShape : WireContent → Prop
  | .envelope entries => entries ≠ [] ∧ ∀ entry ∈ entries, entry.InShape
  | .distribution dist => dist.InShape
  | .groupMessage msg _ => msg.keyId ≠ "" ∧ msg.Bounded

/-- The text is decoded to all that was transmitted, and recognised. -/
def ReadsBack (qt : Qt) (text : String) : WireContent → Prop
  | .envelope entries =>
      E2eeCrypto.decodeEnvelope qt text = some entries ∧
        E2eeCrypto.looksLikeEnvelope qt text = true
  | .distribution dist =>
      GroupE2eeCrypto.decodeDistribution qt text = some dist.transmitted ∧
        GroupE2eeCrypto.looksLikeDistribution qt text = true
  | .groupMessage msg senderDeviceId =>
      GroupE2eeCrypto.decodeGroupMessage qt text = some ({ msg with valid := true }, senderDeviceId) ∧
        GroupE2eeCrypto.looksLikeGroupMessage qt text = true

end WireContent

/-! ## Entries -/

section

variable {qt : Qt}

namespace E2eeCrypto

/-- An entry whose prekey id a double holds is read back, among whatever else the object
says. -/
theorem readEntry_encoded (hbase64 : qt.Base64) {entry : EnvelopeEntry}
    (hexact : (Json.int entry.prekeyId).doubleAsInt64 = entry.prekeyId)
    (others : List (String × Json)) :
    readEntry qt (.obj
      ([ ("ct", .str (qt.toBase64 entry.ciphertext)), ("deviceId", .str entry.deviceId)
       , ("eph", .str (qt.toBase64 entry.ephemeralPublicKey))
       , ("iv", .str (qt.toBase64 entry.iv)), ("prekeyId", .int entry.prekeyId) ] ++ others)) =
      entry := by
  show ({ deviceId := entry.deviceId
          prekeyId := (Json.int entry.prekeyId).doubleAsInt64
          ephemeralPublicKey := qt.fromBase64 (qt.toBase64 entry.ephemeralPublicKey)
          iv := qt.fromBase64 (qt.toBase64 entry.iv)
          ciphertext := qt.fromBase64 (qt.toBase64 entry.ciphertext) } : EnvelopeEntry) = entry
  rw [hexact, hbase64, hbase64, hbase64]

theorem decodeEntry_encoded (hbase64 : qt.Base64) {entry : EnvelopeEntry}
    (hexact : (Json.int entry.prekeyId).doubleAsInt64 = entry.prekeyId)
    (hsized : entry.wellSized = true) :
    decodeEntry qt (.obj
      [ ("ct", .str (qt.toBase64 entry.ciphertext)), ("deviceId", .str entry.deviceId)
      , ("eph", .str (qt.toBase64 entry.ephemeralPublicKey))
      , ("iv", .str (qt.toBase64 entry.iv)), ("prekeyId", .int entry.prekeyId) ]) =
      some entry := by
  have hread := readEntry_encoded hbase64 hexact []
  rw [List.append_nil] at hread
  unfold decodeEntry
  rw [hread, hsized]
  rfl

/-- **An envelope** of entries that are well sized decodes to them. -/
theorem decodeEnvelope_encoded (hbase64 : qt.Base64) {entries : List EnvelopeEntry}
    (hjson : qt.Carries (encodeEnvelope qt entries)) (hne : entries ≠ [])
    (h : ∀ entry ∈ entries, entry.wellSized = true ∧
      (Json.int entry.prekeyId).doubleAsInt64 = entry.prekeyId) :
    decodeEnvelope qt (qt.toJson (encodeEnvelope qt entries)) = some entries := by
  have hdevices : ∀ entries : List EnvelopeEntry,
      (∀ entry ∈ entries, entry.wellSized = true ∧
        (Json.int entry.prekeyId).doubleAsInt64 = entry.prekeyId) →
      (entries.map fun entry => Json.obj
        [ ("ct", .str (qt.toBase64 entry.ciphertext)), ("deviceId", .str entry.deviceId)
        , ("eph", .str (qt.toBase64 entry.ephemeralPublicKey))
        , ("iv", .str (qt.toBase64 entry.iv)), ("prekeyId", .int entry.prekeyId) ]).mapM
        (decodeEntry qt) = some entries := by
    intro entries h
    induction entries with
    | nil => rfl
    | cons entry entries ih =>
        obtain ⟨⟨hsized, hexact⟩, hrest⟩ := List.forall_mem_cons.mp h
        rw [List.map_cons, List.mapM_cons, decodeEntry_encoded hbase64 hexact hsized, ih hrest]
        rfl
  unfold decodeEnvelope
  rw [hjson.json]
  cases entries with
  | nil => exact absurd rfl hne
  | cons entry entries => exact hdevices _ h

end E2eeCrypto

namespace GroupE2eeCrypto

/-- An entry that its object gives back. -/
structure DistributionEntry.Exact (entry : DistributionEntry) : Prop where
  userId : 0 < entry.userId
  deviceId : entry.envelope.deviceId = entry.deviceId
  wellSized : entry.envelope.wellSized = true
  prekeyId : (Json.int entry.envelope.prekeyId).doubleAsInt64 = entry.envelope.prekeyId

theorem DistributionEntry.InShape.exact {entry : DistributionEntry} (h : entry.InShape) :
    entry.Exact where
  userId := h.userId.1
  deviceId := h.deviceId
  wellSized := h.envelope.wellSized
  prekeyId := by
    have hsized := h.envelope.wellSized
    simp only [EnvelopeEntry.wellSized, Bool.and_eq_true, decide_eq_true_iff] at hsized
    exact Json.doubleAsInt64_int hsized.1.1.1.2 h.envelope.prekeyId

/-- The object `encodeDistribution` writes for an entry. -/
theorem decodeDistributionEntry_encoded (hbase64 : qt.Base64) {entry : DistributionEntry}
    (h : entry.Exact) :
    decodeDistributionEntry qt (.obj
      [ ("ct", .str (qt.toBase64 entry.envelope.ciphertext)), ("deviceId", .str entry.deviceId)
      , ("eph", .str (qt.toBase64 entry.envelope.ephemeralPublicKey))
      , ("iv", .str (qt.toBase64 entry.envelope.iv)), ("prekeyId", .int entry.envelope.prekeyId)
      , ("userId", .int entry.userId) ]) = some entry := by
  have hread := E2eeCrypto.readEntry_encoded hbase64 h.prekeyId [("userId", .int entry.userId)]
  rw [h.deviceId] at hread
  simp only [List.cons_append, List.nil_append] at hread
  unfold decodeDistributionEntry
  dsimp only
  rw [hread, h.wellSized, Bool.and_true]
  exact if_pos (Bool.and_eq_true_iff.mpr ⟨rfl, decide_eq_true h.userId⟩)

/-- None of them is skipped. -/
theorem decodeDistributionEntries_encoded (hbase64 : qt.Base64) {entries : List DistributionEntry}
    (h : ∀ entry ∈ entries, entry.Exact) :
    (entries.map fun entry => Json.obj
      [ ("ct", .str (qt.toBase64 entry.envelope.ciphertext)), ("deviceId", .str entry.deviceId)
      , ("eph", .str (qt.toBase64 entry.envelope.ephemeralPublicKey))
      , ("iv", .str (qt.toBase64 entry.envelope.iv)), ("prekeyId", .int entry.envelope.prekeyId)
      , ("userId", .int entry.userId) ]).filterMap (decodeDistributionEntry qt) = entries := by
  induction entries with
  | nil => rfl
  | cons entry entries ih =>
      obtain ⟨hentry, hrest⟩ := List.forall_mem_cons.mp h
      rw [List.map_cons, List.filterMap_cons, decodeDistributionEntry_encoded hbase64 hentry,
        ih hrest]

/-- **A distribution** under a key with an id decodes to all that is sent of it. -/
theorem decodeDistribution_encoded (hbase64 : qt.Base64) {dist : Distribution}
    (hkeyId : dist.key.keyId ≠ "") (hpub : dist.key.publicSigningKey.length = ed25519KeySize)
    (hentries : ∀ entry ∈ dist.entries, entry.Exact)
    (hjson : qt.Carries (encodeDistribution qt dist)) :
    decodeDistribution qt (qt.toJson (encodeDistribution qt dist)) = some dist.transmitted := by
  have hvalid : (dist.key.keyId != "" && (qt.fromBase64 (qt.toBase64
      dist.key.publicSigningKey)).length == ed25519KeySize) = true := by
    rw [hbase64, hpub, Bool.and_eq_true, bne_iff_ne]
    exact ⟨hkeyId, rfl⟩
  unfold decodeDistribution
  rw [hjson.json]
  refine (if_pos hvalid).trans ?_
  show some (Distribution.mk dist.groupId dist.senderUserId dist.senderDeviceId
    { keyId := dist.key.keyId
      publicSigningKey := qt.fromBase64 (qt.toBase64 dist.key.publicSigningKey)
      valid := dist.key.keyId != ""
        && (qt.fromBase64 (qt.toBase64 dist.key.publicSigningKey)).length == ed25519KeySize }
    ((dist.entries.map _).filterMap (decodeDistributionEntry qt))) = _
  rw [hvalid, hbase64, decodeDistributionEntries_encoded hbase64 hentries]
  rfl

theorem distribution_readsBack (hbase64 : qt.Base64) {dist : Distribution} (h : dist.InShape)
    (hjson : qt.Carries (encodeDistribution qt dist)) :
    decodeDistribution qt (qt.toJson (encodeDistribution qt dist)) = some dist.transmitted ∧
      looksLikeDistribution qt (qt.toJson (encodeDistribution qt dist)) = true := by
  constructor
  · exact decodeDistribution_encoded hbase64 h.keyId h.publicSigningKey
      (fun entry hentry => (h.entries entry hentry).exact) hjson
  · unfold looksLikeDistribution looksLike
    rw [hjson.json, hjson.object]
    rfl

theorem groupMessage_readsBack (hbase64 : qt.Base64) {msg : EncryptedMessage}
    {senderDeviceId : String} (h : msg.keyId ≠ "" ∧ msg.Bounded)
    (hjson : qt.Carries (encodeGroupMessage qt msg senderDeviceId)) :
    decodeGroupMessage qt (qt.toJson (encodeGroupMessage qt msg senderDeviceId)) =
        some ({ msg with valid := true }, senderDeviceId) ∧
      looksLikeGroupMessage qt (qt.toJson (encodeGroupMessage qt msg senderDeviceId)) = true := by
  obtain ⟨hkeyId, hsized⟩ := h
  constructor
  · have hiteration : (Json.int msg.iteration).toInt 0 = msg.iteration := by
      refine if_pos ?_
      have hbounds := hsized.iteration
      unfold maxMessageIteration at hbounds
      simp only [inInt32, Bool.and_eq_true, decide_eq_true_iff]
      omega
    have hvalid : (msg.keyId != "" && decide (0 < msg.iteration)
        && decide (msg.iteration ≤ maxMessageIteration) && msg.iv.length == E2eeCrypto.gcmIvSize
        && decide (E2eeCrypto.gcmTagSize ≤ msg.ciphertext.length)
        && msg.signature.length == ed25519SigSize) = true := by
      simp only [Bool.and_eq_true, bne_iff_ne, beq_iff_eq, decide_eq_true_iff]
      exact ⟨⟨⟨⟨⟨hkeyId, hsized.iteration.1⟩, hsized.iteration.2⟩, hsized.iv⟩, hsized.ciphertext⟩,
        hsized.signature⟩
    -- what the decoder reads of each member
    have hkey : ((encodeGroupMessage qt msg senderDeviceId).value "keyId").toStr "" = msg.keyId := rfl
    have hstep : ((encodeGroupMessage qt msg senderDeviceId).value "iteration").toInt 0 =
        msg.iteration := hiteration
    have hiv : qt.fromBase64 (((encodeGroupMessage qt msg senderDeviceId).value "iv").toStr "") =
        msg.iv := hbase64 msg.iv
    have hct : qt.fromBase64 (((encodeGroupMessage qt msg senderDeviceId).value "ct").toStr "") =
        msg.ciphertext := hbase64 msg.ciphertext
    have hsig : qt.fromBase64 (((encodeGroupMessage qt msg senderDeviceId).value "sig").toStr "") =
        msg.signature := hbase64 msg.signature
    unfold decodeGroupMessage
    rw [hjson.json]
    dsimp only
    rw [hkey, hstep, hiv, hct, hsig, hvalid]
    rfl
  · unfold looksLikeGroupMessage looksLike
    rw [hjson.json, hjson.object]
    rfl

end GroupE2eeCrypto

/-! ## The three formats -/

/-- **Round trip.** What an encoder writes of a content in shape, its decoder reads back
whole, and its recogniser knows it. -/
theorem wireContent_readsBack (hbase64 : qt.Base64) (x : WireContent) (hshape : x.InShape)
    (hjson : qt.Carries (x.encode qt)) : x.ReadsBack qt (qt.toJson (x.encode qt)) := by
  cases x with
  | envelope entries =>
      obtain ⟨hne, hentries⟩ := hshape
      refine ⟨E2eeCrypto.decodeEnvelope_encoded hbase64 hjson hne fun entry hentry => ?_, ?_⟩
      · have hsized := (hentries entry hentry).wellSized
        refine ⟨hsized, Json.doubleAsInt64_int ?_ (hentries entry hentry).prekeyId⟩
        simp only [EnvelopeEntry.wellSized, Bool.and_eq_true, decide_eq_true_iff] at hsized
        exact hsized.1.1.1.2
      · unfold E2eeCrypto.looksLikeEnvelope
        rw [hjson.json, hjson.object]
        rfl
  | distribution dist => exact GroupE2eeCrypto.distribution_readsBack hbase64 hshape hjson
  | groupMessage msg senderDeviceId => exact GroupE2eeCrypto.groupMessage_readsBack hbase64 hshape hjson

end

/-! ## The compact codec -/

theorem compact_base64 : Qt.compact.Base64 := Lib.Base64.decode_encode

theorem compact_carries {members : List (String × Json)} (h : Json.isPlain (.obj members) = true) :
    Qt.compact.Carries (.obj members) where
  object := by
    show (Json.obj members).text.front = '\x7b'
    rw [String.front_eq, String.front?_eq, show (Json.obj members).text.toList = _ from
      Json.toList_obj members]
    rfl
  json := Json.read_text h

/-- It carries all that the encoders write. -/
theorem compact_carries_encode (x : WireContent) : Qt.compact.Carries (x.encode Qt.compact) := by
  cases x with
  | envelope entries =>
      refine compact_carries (Json.arePlainMembers_iff.mpr ?_)
      simp [Json.isPlain, Json.arePlainMembers]
  | distribution dist =>
      refine compact_carries (Json.arePlainMembers_iff.mpr ?_)
      simp [Json.isPlain, Json.arePlainMembers]
  | groupMessage msg senderDeviceId => exact compact_carries rfl

/-! ## Two contents -/

/-- A sender key for two devices. -/
def twoDevices : Distribution where
  groupId := 7
  senderUserId := 1
  senderDeviceId := "a"
  key := { keyId := "k", chainKey := List.replicate 32 1, publicSigningKey := List.replicate 32 2 }
  entries := [("b", 3), ("c", 2 ^ 53)].map fun (deviceId, prekeyId) =>
    { userId := 2, deviceId
      envelope :=
        { deviceId, prekeyId, ephemeralPublicKey := List.replicate 32 0
          iv := List.replicate 12 0, ciphertext := List.replicate 48 0 } }

/-- Both entries arrive. -/
theorem wireContent_readsBack_twoDevices :
    (WireContent.distribution twoDevices).ReadsBack Qt.compact
      (Qt.compact.toJson ((WireContent.distribution twoDevices).encode Qt.compact)) := by
  refine wireContent_readsBack compact_base64 (.distribution twoDevices) ?_
    (compact_carries_encode _)
  refine ⟨⟨rfl, rfl⟩, by decide, rfl, ?_⟩
  intro entry hentry
  simp only [twoDevices, List.map_cons, List.map_nil, List.mem_cons, List.not_mem_nil,
    or_false] at hentry
  rcases hentry with rfl | rfl <;>
    exact ⟨⟨by decide, by decide⟩, rfl, by decide +kernel, by decide⟩

/-- A group message of the right sizes under no key id is not decoded. -/
theorem groupMessage_unnamed : ¬∀ (qt : Qt) (msg : EncryptedMessage) (senderDeviceId : String),
    qt.Base64 → msg.Bounded →
    qt.Carries (GroupE2eeCrypto.encodeGroupMessage qt msg senderDeviceId) →
    (WireContent.groupMessage msg senderDeviceId).ReadsBack qt
      (qt.toJson (GroupE2eeCrypto.encodeGroupMessage qt msg senderDeviceId)) := by
  intro h
  let msg : EncryptedMessage :=
    { iteration := 1, iv := List.replicate 12 0, ciphertext := List.replicate 16 0
      signature := List.replicate 64 0 }
  have hread := h Qt.compact msg "a" compact_base64 ⟨by decide, rfl, by decide, rfl⟩
    (compact_carries_encode (.groupMessage msg "a"))
  have hnone : GroupE2eeCrypto.decodeGroupMessage Qt.compact
      (Qt.compact.toJson (GroupE2eeCrypto.encodeGroupMessage Qt.compact msg "a")) = none := by
    decide +kernel
  rw [hread.1] at hnone
  cases hnone

end XYChat
