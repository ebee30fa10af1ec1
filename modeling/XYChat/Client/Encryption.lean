import XYChat.Common.Crypto
import XYChat.Common.GroupRatchet

/-!
# Encrypting for devices

What the client puts into the contents it sends: an envelope with one entry for
each device of the recipient and one for the own device, and a sender key
distribution, which wraps such an envelope for each member of a group. The
ephemeral key pairs and ivs an encryption draws are parameters.
-/

namespace XYChat

/-! ## Encoding -/

namespace E2eeCrypto

/-- `E2eeCrypto::encodeEnvelope`. -/
def encodeEnvelope (qt : Qt) (entries : List EnvelopeEntry) : Json :=
  .obj
    [ ("devices", .arr (entries.map fun entry => .obj
        [ ("ct", .str (qt.toBase64 entry.ciphertext))
        , ("deviceId", .str entry.deviceId)
        , ("eph", .str (qt.toBase64 entry.ephemeralPublicKey))
        , ("iv", .str (qt.toBase64 entry.iv))
        , ("prekeyId", .int entry.prekeyId) ]))
    , ("v", .int envelopeVersion) ]

end E2eeCrypto

namespace GroupE2eeCrypto

/-- `GroupE2eeCrypto::encodeDistribution`. -/
def encodeDistribution (qt : Qt) (dist : Distribution) : Json :=
  .obj
    [ ("devices", .arr (dist.entries.map fun entry => .obj
        [ ("ct", .str (qt.toBase64 entry.envelope.ciphertext))
        , ("deviceId", .str entry.deviceId)
        , ("eph", .str (qt.toBase64 entry.envelope.ephemeralPublicKey))
        , ("iv", .str (qt.toBase64 entry.envelope.iv))
        , ("prekeyId", .int entry.envelope.prekeyId)
        , ("userId", .int entry.userId) ]))
    , ("groupId", .int dist.groupId)
    , ("keyId", .str dist.key.keyId)
    , ("publicSigningKey", .str (qt.toBase64 dist.key.publicSigningKey))
    , ("senderDeviceId", .str dist.senderDeviceId)
    , ("senderUserId", .int dist.senderUserId)
    , ("type", .str "sender_key_distribution")
    , ("v", .int distributionVersion) ]

/-- `GroupE2eeCrypto::encodeGroupMessage`. -/
def encodeGroupMessage (qt : Qt) (msg : EncryptedMessage) (senderDeviceId : String) : Json :=
  .obj
    [ ("ct", .str (qt.toBase64 msg.ciphertext))
    , ("iteration", .int msg.iteration)
    , ("iv", .str (qt.toBase64 msg.iv))
    , ("keyId", .str msg.keyId)
    , ("senderDeviceId", .str senderDeviceId)
    , ("sig", .str (qt.toBase64 msg.signature))
    , ("type", .str "group_e2ee")
    , ("v", .int groupMessageVersion) ]

end GroupE2eeCrypto

namespace Client

open E2eeCrypto (KeyPair EnvelopeEntry)

/-! ## Envelopes -/

/-- What one entry draws: a key pair, invalid where `generateX25519KeyPair`
fails, and an iv. -/
structure Drawn where
  ephemeral : KeyPair
  iv : Bytes

section

variable (qt : Qt) (crypto : Crypto)

/-- The entry for a device under the shared secret, where the encryption is
valid. -/
def sealEntry (drawn : Drawn) (shared plainBytes : Bytes) (deviceId : String) (prekeyId : Int) :
    Option EnvelopeEntry :=
  (E2eeCrypto.aesGcmEncrypt crypto (E2eeCrypto.deriveMessageKey crypto shared) drawn.iv
    plainBytes).map fun gcm =>
      { deviceId, prekeyId
        ephemeralPublicKey := drawn.ephemeral.publicKey
        iv := gcm.1
        ciphertext := gcm.2 }

/-- The entry for one key bundle: shared secret with its prekey and with its
identity key. -/
def encryptForBundle (drawn : Drawn) (plainBytes : Bytes) (bundle : Json) :
    Option EnvelopeEntry :=
  let deviceId := (bundle.value "deviceId").toStr ""
  let prekeyId := (bundle.value "prekeyId").doubleAsInt64
  let identityPub := qt.fromBase64 ((bundle.value "identityPub").toStr "")
  let prekeyPub := qt.fromBase64 ((bundle.value "prekeyPub").toStr "")
  if deviceId = "" ∨ prekeyId ≤ 0 then none
  else if drawn.ephemeral.valid = false then none
  else
    let shared := E2eeCrypto.ecdh crypto drawn.ephemeral.privateKey prekeyPub
      ++ E2eeCrypto.ecdh crypto drawn.ephemeral.privateKey identityPub
    if shared.length ≠ 64 then none
    else sealEntry crypto drawn shared plainBytes deviceId prekeyId

/-- The copy for the own device, under the own identity key alone. -/
def selfEntry (identityKey : KeyPair) (localDeviceId : String) (drawn : Drawn)
    (plainBytes : Bytes) : Option EnvelopeEntry :=
  if identityKey.valid = false ∨ localDeviceId = "" ∨ drawn.ephemeral.valid = false then none
  else
    let dh := E2eeCrypto.ecdh crypto drawn.ephemeral.privateKey identityKey.publicKey
    if dh.length ≠ 32 then none
    else sealEntry crypto drawn (dh ++ dh) plainBytes localDeviceId E2eeCrypto.selfCopyPrekeyId

/-- The entries of `encryptForUser`; one bad bundle is the failure of all. -/
def userEntries (identityKey : KeyPair) (localDeviceId : String) (draw : Nat → Drawn)
    (bundles : List Json) (plainBytes : Bytes) : Option (List EnvelopeEntry) :=
  (bundles.zipIdx.mapM fun x => encryptForBundle qt crypto (draw x.2) plainBytes x.1).map
    fun entries => entries ++
      (selfEntry crypto identityKey localDeviceId (draw bundles.length) plainBytes).toList

/-- `NetworkManager::encryptForUser`; empty on failure. -/
def encryptForUser (identityKey : KeyPair) (localDeviceId : String) (draw : Nat → Drawn)
    (bundles : List Json) (plaintext : String) : String :=
  match userEntries qt crypto identityKey localDeviceId draw bundles (toUtf8 plaintext) with
  | none => ""
  | some entries =>
      if entries = [] then "" else qt.toJson (E2eeCrypto.encodeEnvelope qt entries)

/-! ## Distributions -/

/-- The entries of one member: none where it has no bundle or one of them
cannot be used. The envelope is built and taken apart again. -/
def memberEntries (identityKey : KeyPair) (localDeviceId : String) (draw : Nat → Drawn)
    (chainKeyB64 : String) (userId : Int) (bundles : List Json) :
    List GroupE2eeCrypto.DistributionEntry :=
  if bundles.isEmpty then []
  else
    let envelope := encryptForUser qt crypto identityKey localDeviceId draw bundles chainKeyB64
    if envelope = "" then []
    else match E2eeCrypto.decodeEnvelope qt envelope with
      | none => []
      | some deviceEntries => deviceEntries.map fun entry =>
          { userId, deviceId := entry.deviceId, envelope := entry }

/-- The entries for the members of `bundlesByUser`. -/
def distributionEntries (identityKey : KeyPair) (localDeviceId : String) (draw : Int → Nat → Drawn)
    (chainKeyB64 : String) : Json → List GroupE2eeCrypto.DistributionEntry
  | .obj members => members.flatMap fun x =>
      let userId := stringToLongLong x.1
      if userId ≤ 0 then []
      else memberEntries qt crypto identityKey localDeviceId (draw userId) chainKeyB64 userId
        x.2.toArray
  | _ => []

end

end Client

end XYChat
