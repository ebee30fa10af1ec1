import XYChat.Client.LocalStore

/-!
# Sender keys on the client

The `sender_keys` table of `LocalStore`, in rowid order, and the client's
handling of a sender key distribution. A key is filed under the user and the
device its content names; whom the message came from is not looked at.
-/

namespace XYChat.Client

open E2eeCrypto (KeyPair EnvelopeEntry)

/-! ## The sender_keys table -/

/-- A row of `sender_keys`. -/
structure SenderKeyRow where
  groupId : Int
  senderUserId : Int
  senderDeviceId : String
  keyId : String
  chainKeyEnc : String
  publicSigningKey : String
  privateSigningKeyEnc : String
  iteration : Int
  deriving DecidableEq, Repr

/-- The rows have one primary key. -/
def SenderKeyRow.samePrimaryKey (a b : SenderKeyRow) : Bool :=
  a.groupId == b.groupId && a.senderUserId == b.senderUserId
    && a.senderDeviceId == b.senderDeviceId && a.keyId == b.keyId

/-- `LocalStore::saveSenderKey` on an open store, under the random ivs `r`:
`INSERT OR REPLACE`, which gives the row the largest rowid. `none` is `false`. -/
def saveSenderKey (qt : Qt) (cipher : TextCipher) (r : Nat × Nat) (groupId senderUserId : Int)
    (senderDeviceId keyId : String) (chainKey publicSigningKey privateSigningKey : Bytes)
    (iteration : Int) (rows : List SenderKeyRow) : Option (List SenderKeyRow) :=
  if groupId ≤ 0 ∨ senderUserId ≤ 0 ∨ senderDeviceId = "" ∨ keyId = "" ∨ chainKey = []
      ∨ publicSigningKey = [] then none
  else
    let chainKeyEnc := cipher.encryptText r.1 (qt.toBase64 chainKey)
    let privateSigningKeyEnc :=
      if privateSigningKey = [] then "" else cipher.encryptText r.2 (qt.toBase64 privateSigningKey)
    if chainKeyEnc = "" then none
    else
      let row : SenderKeyRow :=
        { groupId, senderUserId, senderDeviceId, keyId, chainKeyEnc
          publicSigningKey := qt.toBase64 publicSigningKey
          privateSigningKeyEnc, iteration }
      some ((rows.filter fun old => !old.samePrimaryKey row) ++ [row])

/-! ## Distributions -/

/-- What a client needs to open a distribution: who it is, its keys, and its
`sender_keys` table. -/
structure E2eeDevice where
  userId : Int
  localDeviceId : String
  identityKey : KeyPair
  localPrekeys : List KeyPair
  storeOpen : Bool
  senderKeys : List SenderKeyRow := []

/-- Decrypt under the first local prekey that opens the ciphertext, and drop
that prekey. -/
def openWithPrekeys (crypto : Crypto) (identityKey : KeyPair) (entry : EnvelopeEntry) :
    List KeyPair → Bytes × List KeyPair
  | [] => ([], [])
  | prekey :: rest =>
      let shared := E2eeCrypto.ecdh crypto prekey.privateKey entry.ephemeralPublicKey
        ++ E2eeCrypto.ecdh crypto identityKey.privateKey entry.ephemeralPublicKey
      let plain := E2eeCrypto.aesGcmDecrypt crypto (E2eeCrypto.deriveMessageKey crypto shared)
        entry.iv entry.ciphertext
      if plain ≠ [] then (plain, rest)
      else
        let (plain, kept) := openWithPrekeys crypto identityKey entry rest
        (plain, prekey :: kept)

/-- `decryptEnvelopeEntry`: the plaintext, and the prekeys left. -/
def decryptEnvelopeEntry (crypto : Crypto) (d : E2eeDevice) (entry : EnvelopeEntry) :
    Bytes × List KeyPair :=
  if !d.identityKey.valid || entry.deviceId != d.localDeviceId then ([], d.localPrekeys)
  else if entry.prekeyId = E2eeCrypto.selfCopyPrekeyId then
    let dh := E2eeCrypto.ecdh crypto d.identityKey.privateKey entry.ephemeralPublicKey
    if dh.length ≠ 32 then ([], d.localPrekeys)
    else
      (E2eeCrypto.aesGcmDecrypt crypto (E2eeCrypto.deriveMessageKey crypto (dh ++ dh)) entry.iv
        entry.ciphertext, d.localPrekeys)
  else openWithPrekeys crypto d.identityKey entry d.localPrekeys

/-- The loop over the entries addressed to this device. -/
def openDistribution (crypto : Crypto) (d : E2eeDevice) :
    List GroupE2eeCrypto.DistributionEntry → Bytes × E2eeDevice
  | [] => ([], d)
  | entry :: rest =>
      if entry.userId = d.userId ∧ entry.deviceId = d.localDeviceId then
        let (plain, localPrekeys) := decryptEnvelopeEntry crypto d entry.envelope
        if plain ≠ [] then (plain, { d with localPrekeys })
        else openDistribution crypto { d with localPrekeys } rest
      else openDistribution crypto d rest

/-- Opening a distribution changes the prekeys only, -/
theorem openDistribution_senderKeys (crypto : Crypto) (d : E2eeDevice)
    (entries : List GroupE2eeCrypto.DistributionEntry) :
    (openDistribution crypto d entries).2.senderKeys = d.senderKeys := by
  induction entries generalizing d with
  | nil => rfl
  | cons entry rest ih =>
      unfold openDistribution
      split
      · dsimp only
        split
        · rfl
        · exact ih _
      · exact ih d

/-- and does not look at the stored keys. -/
theorem openDistribution_fst_congr (crypto : Crypto) (d : E2eeDevice) (rows : List SenderKeyRow)
    (entries : List GroupE2eeCrypto.DistributionEntry) :
    (openDistribution crypto { d with senderKeys := rows } entries).1 =
      (openDistribution crypto d entries).1 := by
  induction entries generalizing d with
  | nil => rfl
  | cons entry rest ih =>
      unfold openDistribution
      have hentry : decryptEnvelopeEntry crypto { d with senderKeys := rows } entry.envelope =
          decryptEnvelopeEntry crypto d entry.envelope := rfl
      rw [hentry]
      split
      · dsimp only
        split
        · rfl
        · exact ih { d with localPrekeys := (decryptEnvelopeEntry crypto d entry.envelope).2 }
      · exact ih d

/-- `NetworkManager::processGroupSenderKeyDistribution`. -/
def processGroupSenderKeyDistribution (qt : Qt) (crypto : Crypto) (cipher : TextCipher)
    (r : Nat × Nat) (d : E2eeDevice) (msg : Json) : E2eeDevice × Bool :=
  let convId := (msg.value "conversationId").toLongLong
  let content := (msg.value "content").toStr ""
  if convId ≤ 0 ∨ content = "" then (d, false)
  else
    match GroupE2eeCrypto.decodeDistribution qt content with
    | none => (d, false)
    | some dist =>
      if dist.groupId ≠ convId ∨ dist.senderUserId ≤ 0 ∨ dist.senderDeviceId = "" then (d, false)
      else
        let (decryptedChainKeyB64, d) := openDistribution crypto d dist.entries
        if decryptedChainKeyB64 = [] then (d, false)
        else
          let chainKey := qt.fromBase64 (fromUtf8 decryptedChainKeyB64)
          if chainKey.length ≠ 32 then (d, false)
          else if d.storeOpen then
            let saved := saveSenderKey qt cipher r convId dist.senderUserId dist.senderDeviceId
              dist.key.keyId chainKey dist.key.publicSigningKey [] dist.key.iteration d.senderKeys
            ({ d with senderKeys := saved.getD d.senderKeys }, true)
          else (d, true)

end XYChat.Client
