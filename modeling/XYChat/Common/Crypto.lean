import XYChat.Common.Envelope

/-!
# Cryptographic operations

OpenSSL's primitives are parameters; the wrappers of `E2eeCrypto` and
`GroupE2eeCrypto` around them, with the size checks each one makes, are
definitions. An empty byte array is the wrappers' failure value.
-/

namespace XYChat

/-- The primitives the repository takes from OpenSSL. `hkdf key salt info` is
32 bytes of HKDF-SHA-256, `gcmSeal key iv plaintext` is ciphertext and tag, and
`gcmOpen key iv ciphertext` fails when the tag does not verify. -/
structure Crypto where
  hkdf : Bytes → Bytes → Bytes → Bytes
  gcmSeal : Bytes → Bytes → Bytes → Bytes
  gcmOpen : Bytes → Bytes → Bytes → Option Bytes
  ed25519Sign : Bytes → Bytes → Bytes
  ed25519Verify : Bytes → Bytes → Bytes → Bool
  x25519 : Bytes → Bytes → Option Bytes

/-- The bytes of an ASCII or UTF-8 text. -/
def toUtf8 (s : String) : Bytes := s.toUTF8.data.toList

/-- `QString::fromUtf8` of bytes the program itself wrote as text. -/
def fromUtf8 (bytes : Bytes) : String := (String.fromUTF8? ⟨⟨bytes⟩⟩).getD ""

@[simp] theorem fromUtf8_toUtf8 (s : String) : fromUtf8 (toUtf8 s) = s := by
  show (String.fromUTF8? s.toByteArray).getD "" = s
  unfold String.fromUTF8?
  rw [dif_pos s.isValidUTF8]
  rfl

namespace E2eeCrypto

variable (crypto : Crypto)

/-- `E2eeCrypto::KeyPair`. -/
structure KeyPair where
  publicKey : Bytes := []
  privateKey : Bytes := []
  valid : Bool := false
  deriving DecidableEq, Repr

/-- `E2eeCrypto::ecdh`. -/
def ecdh (privateKey peerPublicKey : Bytes) : Bytes :=
  if privateKey.length = x25519KeySize ∧ peerPublicKey.length = x25519KeySize then
    (crypto.x25519 privateKey peerPublicKey).getD []
  else []

/-- `E2eeCrypto::deriveMessageKey`. -/
def deriveMessageKey (sharedSecret : Bytes) : Bytes :=
  if sharedSecret = [] then [] else crypto.hkdf sharedSecret (toUtf8 "xychat-e2ee-v1") []

/-- `E2eeCrypto::aesGcmEncrypt` under the random iv it has drawn; `none` is an
invalid result. -/
def aesGcmEncrypt (key iv plaintext : Bytes) : Option (Bytes × Bytes) :=
  if key.length = 32 then some (iv, crypto.gcmSeal key iv plaintext) else none

/-- `E2eeCrypto::aesGcmDecrypt`. -/
def aesGcmDecrypt (key iv ciphertext : Bytes) : Bytes :=
  if key.length = 32 ∧ iv.length = gcmIvSize ∧ gcmTagSize ≤ ciphertext.length then
    (crypto.gcmOpen key iv ciphertext).getD []
  else []

end E2eeCrypto

namespace GroupE2eeCrypto

variable (crypto : Crypto)

/-- `GroupE2eeCrypto::ratchetChainKey`. -/
def ratchetChainKey (chainKey : Bytes) : Bytes :=
  if chainKey.length = chainKeySize then crypto.hkdf chainKey (toUtf8 "xychat-grp-chain") []
  else []

/-- `GroupE2eeCrypto::deriveMessageKey`. -/
def deriveMessageKey (chainKey : Bytes) (iteration : Int) : Bytes :=
  if chainKey.length = chainKeySize ∧ 0 ≤ iteration then
    crypto.hkdf chainKey (toUtf8 "xychat-grp-chain")
      (toUtf8 "xychat-grp-msg" ++ toUtf8 (toString iteration))
  else []

/-- `GroupE2eeCrypto::sign`. -/
def sign (privateSigningKey message : Bytes) : Bytes :=
  if privateSigningKey.length = ed25519KeySize ∧ message ≠ [] then
    crypto.ed25519Sign privateSigningKey message
  else []

/-- `GroupE2eeCrypto::verify`. -/
def verify (publicSigningKey message signature : Bytes) : Bool :=
  publicSigningKey.length == ed25519KeySize && signature.length == ed25519SigSize
    && message != [] && crypto.ed25519Verify publicSigningKey message signature

end GroupE2eeCrypto

end XYChat
