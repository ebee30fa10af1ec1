import XYChat.Common.Qt

/-!
# Ciphertext contents

The three shapes a message content may have on the wire and their decoders:
the private envelope of `E2eeCrypto`, and the sender key distribution and the
group message of `GroupE2eeCrypto`. A decoder answers `none` where the source
reports failure.
-/

namespace XYChat

/-! ## E2eeCrypto -/

namespace E2eeCrypto

def x25519KeySize : Nat := 32
def gcmIvSize : Nat := 12
def gcmTagSize : Nat := 16
def envelopeVersion : Int := 1

/-- The prekey id of the entry a sender encrypts for its own device. -/
def selfCopyPrekeyId : Int := 0

/-- One device's ciphertext in an envelope. -/
structure EnvelopeEntry where
  deviceId : String
  prekeyId : Int
  ephemeralPublicKey : Bytes
  iv : Bytes
  ciphertext : Bytes
  deriving DecidableEq, Repr

/-- The fields of an entry object as `decodeEnvelope` and `decodeDistribution`
read them. -/
def readEntry (qt : Qt) (obj : Json) : EnvelopeEntry where
  deviceId := (obj.value "deviceId").toStr ""
  prekeyId := (obj.value "prekeyId").doubleAsInt64
  ephemeralPublicKey := qt.fromBase64 ((obj.value "eph").toStr "")
  iv := qt.fromBase64 ((obj.value "iv").toStr "")
  ciphertext := qt.fromBase64 ((obj.value "ct").toStr "")

/-- The checks both decoders make on an entry. -/
def EnvelopeEntry.wellSized (entry : EnvelopeEntry) : Bool :=
  entry.deviceId != "" && 0 ≤ entry.prekeyId
    && entry.ephemeralPublicKey.length == x25519KeySize
    && entry.iv.length == gcmIvSize
    && gcmTagSize ≤ entry.ciphertext.length

/-- One element of `devices`: a bad element makes the whole envelope bad. -/
def decodeEntry (qt : Qt) (value : Json) : Option EnvelopeEntry :=
  if value.isObject && (readEntry qt value).wellSized then some (readEntry qt value) else none

/-- `E2eeCrypto::decodeEnvelope`; `none` is `*ok == false`. -/
def decodeEnvelope (qt : Qt) (content : String) : Option (List EnvelopeEntry) :=
  match qt.fromJson content with
  | none => none
  | some root =>
      if !root.isObject then none
      else if (root.value "v").toInt (-1) ≠ envelopeVersion
          ∨ (root.value "devices").isArray = false then none
      else if (root.value "devices").toArray.isEmpty then none
      else (root.value "devices").toArray.mapM (decodeEntry qt)

/-- `E2eeCrypto::looksLikeEnvelope`. -/
def looksLikeEnvelope (qt : Qt) (content : String) : Bool :=
  content.front == '\x7b' &&
    match qt.fromJson content with
    | none => false
    | some root =>
        root.isObject && (root.value "v").toInt (-1) == envelopeVersion && root.contains "devices"

end E2eeCrypto

/-! ## GroupE2eeCrypto -/

namespace GroupE2eeCrypto

open E2eeCrypto (EnvelopeEntry)

def ed25519KeySize : Nat := 32
def ed25519SigSize : Nat := 64
def chainKeySize : Nat := 32
def distributionVersion : Int := 1
def groupMessageVersion : Int := 1
def maxRatchetSteps : Nat := 2000
def maxMessageIteration : Int := 100000000
def maxSkippedMessageKeys : Nat := 1000

/-- `GroupE2eeCrypto::SenderKey`. -/
structure SenderKey where
  keyId : String := ""
  chainKey : Bytes := []
  publicSigningKey : Bytes := []
  privateSigningKey : Bytes := []
  iteration : Int := 0
  valid : Bool := false
  deriving DecidableEq, Repr

/-- `GroupE2eeCrypto::EncryptedMessage`. -/
structure EncryptedMessage where
  keyId : String := ""
  iteration : Int := 0
  iv : Bytes := []
  ciphertext : Bytes := []
  signature : Bytes := []
  valid : Bool := false
  deriving DecidableEq, Repr

/-- `GroupE2eeCrypto::DistributionEntry`: one device's copy of the chain key. -/
structure DistributionEntry where
  userId : Int
  deviceId : String
  envelope : EnvelopeEntry
  deriving DecidableEq, Repr

/-- What `decodeDistribution` fills in. -/
structure Distribution where
  groupId : Int
  senderUserId : Int
  senderDeviceId : String
  key : SenderKey
  entries : List DistributionEntry
  deriving DecidableEq, Repr

/-- One element of `devices`: a bad element is skipped. -/
def decodeDistributionEntry (qt : Qt) (value : Json) : Option DistributionEntry :=
  let entry : DistributionEntry :=
    { userId := (value.value "userId").toLongLong
      deviceId := (value.value "deviceId").toStr ""
      envelope := E2eeCrypto.readEntry qt value }
  if value.isObject && 0 < entry.userId && entry.envelope.wellSized then some entry else none

/-- `GroupE2eeCrypto::decodeDistribution`; `none` is `false`. -/
def decodeDistribution (qt : Qt) (content : String) : Option Distribution :=
  match qt.fromJson content with
  | none => none
  | some root =>
      if !root.isObject then none
      else if (root.value "v").toInt (-1) ≠ distributionVersion
          ∨ (root.value "type").toStr "" ≠ "sender_key_distribution" then none
      else
        let keyId := (root.value "keyId").toStr ""
        let publicSigningKey := qt.fromBase64 ((root.value "publicSigningKey").toStr "")
        let key : SenderKey :=
          { keyId := keyId
            publicSigningKey := publicSigningKey
            valid := keyId != "" && publicSigningKey.length == ed25519KeySize }
        if key.valid then
          some
            { groupId := (root.value "groupId").toLongLong
              senderUserId := (root.value "senderUserId").toLongLong
              senderDeviceId := (root.value "senderDeviceId").toStr ""
              key := key
              entries := (root.value "devices").toArray.filterMap (decodeDistributionEntry qt) }
        else none

/-- `GroupE2eeCrypto::decodeGroupMessage` with its `senderDeviceId`; `none` is
`false`. -/
def decodeGroupMessage (qt : Qt) (content : String) : Option (EncryptedMessage × String) :=
  match qt.fromJson content with
  | none => none
  | some root =>
      if !root.isObject then none
      else if (root.value "v").toInt (-1) ≠ groupMessageVersion
          ∨ (root.value "type").toStr "" ≠ "group_e2ee" then none
      else
        let keyId := (root.value "keyId").toStr ""
        let iteration := (root.value "iteration").toInt 0
        let iv := qt.fromBase64 ((root.value "iv").toStr "")
        let ciphertext := qt.fromBase64 ((root.value "ct").toStr "")
        let signature := qt.fromBase64 ((root.value "sig").toStr "")
        let valid := keyId != "" && 0 < iteration && iteration ≤ maxMessageIteration
          && iv.length == E2eeCrypto.gcmIvSize
          && E2eeCrypto.gcmTagSize ≤ ciphertext.length
          && signature.length == ed25519SigSize
        if valid then
          some ({ keyId, iteration, iv, ciphertext, signature, valid },
            (root.value "senderDeviceId").toStr "")
        else none

/-- A JSON object of this version with this `type`: what `looksLikeDistribution`
and `looksLikeGroupMessage` both look for. -/
def looksLike (qt : Qt) (version : Int) (type content : String) : Bool :=
  content.front == '\x7b' &&
    match qt.fromJson content with
    | none => false
    | some root =>
        root.isObject && (root.value "v").toInt (-1) == version
          && (root.value "type").toStr "" == type

/-- `GroupE2eeCrypto::looksLikeDistribution`. -/
def looksLikeDistribution (qt : Qt) : String → Bool :=
  looksLike qt distributionVersion "sender_key_distribution"

/-- `GroupE2eeCrypto::looksLikeGroupMessage`. -/
def looksLikeGroupMessage (qt : Qt) : String → Bool :=
  looksLike qt groupMessageVersion "group_e2ee"

end GroupE2eeCrypto

end XYChat
