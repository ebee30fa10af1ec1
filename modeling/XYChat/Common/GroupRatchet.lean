import XYChat.Lib.IntMap
import XYChat.Common.Crypto

/-!
# The group ratchet

Encrypting under a sender key and decrypting under its distributed chain key.
Both sides ratchet the chain key once per message; the receiver keeps the
message keys of the iterations it passes over, so that messages may arrive in
another order than they were sent in.
-/

namespace XYChat.GroupE2eeCrypto

open XYChat.Lib

/-- `skippedKeys`: message keys by iteration. -/
abbrev SkippedKeys := IntMap Bytes

variable (crypto : Crypto)

/-! ## The sender -/

/-- `GroupE2eeCrypto::encryptMessage`, with the iv that is drawn: the key it
leaves and the message. -/
def encryptMessage (iv : Bytes) (key : SenderKey) (plaintext : Bytes) :
    SenderKey × EncryptedMessage :=
  if key.valid = false ∨ plaintext = [] then (key, {})
  else
    let newChainKey := ratchetChainKey crypto key.chainKey
    if newChainKey = [] then (key, {})
    else
      let key := { key with chainKey := newChainKey, iteration := key.iteration + 1 }
      let messageKey := deriveMessageKey crypto key.chainKey key.iteration
      if messageKey = [] then (key, {})
      else match E2eeCrypto.aesGcmEncrypt crypto messageKey iv plaintext with
        | none => (key, {})
        | some (iv, ciphertext) =>
            let signature := sign crypto key.privateSigningKey (iv ++ ciphertext)
            if signature = [] then (key, {})
            else
              (key,
                { keyId := key.keyId, iteration := key.iteration
                  iv, ciphertext, signature
                  valid := true })

/-! ## The receiver -/

/-- What `decryptMessage` reads and writes: the chain key, its iteration, and
the skipped keys where the caller passes a map. -/
structure Receiver where
  chainKey : Bytes
  iteration : Int
  skippedKeys : Option SkippedKeys

/-- The loop of `decryptMessage`: `steps` ratchet steps from `chainKey` at
`iteration`. The message keys passed over are put into `pending`, where the
caller keeps such keys; the last step's is not. -/
def ratchetTo (keep : Bool) : Nat → Bytes → Int → SkippedKeys → Option (Bytes × SkippedKeys)
  | 0, chainKey, _, pending => some (chainKey, pending)
  | steps + 1, chainKey, iteration, pending =>
      let next := ratchetChainKey crypto chainKey
      if next = [] then none
      else if steps ≠ 0 ∧ keep then
        let skippedKey := deriveMessageKey crypto next (iteration + 1)
        if skippedKey = [] then none
        else ratchetTo keep steps next (iteration + 1) (pending.insert (iteration + 1) skippedKey)
      else ratchetTo keep steps next (iteration + 1) pending

/-- Add the keys of `pending`, then drop the oldest beyond the limit. -/
def commitSkipped (pending skippedKeys : SkippedKeys) : SkippedKeys :=
  (pending.entries.foldl (fun m e => m.insert e.1 e.2) skippedKeys).shrink maxSkippedMessageKeys

/-- Decrypt and authenticate a message under its key; empty on failure. -/
def openMessage (publicSigningKey messageKey : Bytes) (msg : EncryptedMessage) : Bytes :=
  let plaintext := E2eeCrypto.aesGcmDecrypt crypto messageKey msg.iv msg.ciphertext
  if plaintext = [] then []
  else if !verify crypto publicSigningKey (msg.iv ++ msg.ciphertext) msg.signature then []
  else plaintext

/-- `decryptMessage` past the skipped keys: the receiver only goes forward, at
most `maxRatchetSteps` at once, and not before the message is authenticated. -/
def decryptAhead (publicSigningKey : Bytes) (r : Receiver) (msg : EncryptedMessage) :
    Bytes × Receiver :=
  if msg.iteration ≤ r.iteration then ([], r)
  else if (maxRatchetSteps : Int) < msg.iteration - r.iteration then ([], r)
  else match ratchetTo crypto r.skippedKeys.isSome (msg.iteration - r.iteration).toNat r.chainKey
      r.iteration .empty with
    | none => ([], r)
    | some (chainKey, pending) =>
        let messageKey := deriveMessageKey crypto chainKey msg.iteration
        if messageKey = [] then ([], r)
        else
          let plaintext := openMessage crypto publicSigningKey messageKey msg
          if plaintext = [] then ([], r)
          else
            (plaintext,
              { chainKey, iteration := msg.iteration
                skippedKeys := r.skippedKeys.map (commitSkipped pending) })

/-- `GroupE2eeCrypto::decryptMessage`: the plaintext, empty on failure, and the
receiver it leaves. -/
def decryptMessage (publicSigningKey : Bytes) (r : Receiver) (msg : EncryptedMessage) :
    Bytes × Receiver :=
  if msg.valid = false ∨ msg.iv.length ≠ E2eeCrypto.gcmIvSize
      ∨ msg.ciphertext.length < E2eeCrypto.gcmTagSize ∨ msg.signature.length ≠ ed25519SigSize
      ∨ msg.iteration ≤ 0 ∨ r.chainKey.length ≠ chainKeySize ∨ r.iteration < 0 then ([], r)
  else match r.skippedKeys.bind (·.find msg.iteration) with
    | some cachedKey =>
        -- a skipped key is used up only by a message that is authentic under it
        let plaintext := openMessage crypto publicSigningKey cachedKey msg
        if plaintext = [] then ([], r)
        else (plaintext, { r with skippedKeys := r.skippedKeys.map (·.erase msg.iteration) })
    | none => decryptAhead crypto publicSigningKey r msg

end XYChat.GroupE2eeCrypto
