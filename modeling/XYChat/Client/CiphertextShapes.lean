import XYChat.Client.Transparency

/-!
# Which contents are told from plaintext

The server takes a content for a ciphertext when one of three decoders accepts it. The
client never asks the decoders: it tells the three kinds by recognisers, which look at the
first character and at a few members. The two agree exactly on contents that begin with
the brace; JSON that something stands before passes the server and is text to the client.
-/

namespace XYChat.Client

open Lib
open E2eeCrypto (KeyPair)

/-! ## Decoders and recognisers -/

/-- The kinds of ciphertext a message content may be. -/
inductive CiphertextKind where
  | envelope
  | distribution
  | groupMessage

namespace CiphertextKind

/-- The kind's decoder, which the server asks, accepts the content. -/
def accepts (qt : Qt) (content : String) : CiphertextKind → Bool
  | .envelope => (E2eeCrypto.decodeEnvelope qt content).isSome
  | .distribution => (GroupE2eeCrypto.decodeDistribution qt content).isSome
  | .groupMessage => (GroupE2eeCrypto.decodeGroupMessage qt content).isSome

/-- The kind's recogniser knows the content. -/
def looksLike (qt : Qt) (content : String) : CiphertextKind → Bool
  | .envelope => E2eeCrypto.looksLikeEnvelope qt content
  | .distribution => GroupE2eeCrypto.looksLikeDistribution qt content
  | .groupMessage => GroupE2eeCrypto.looksLikeGroupMessage qt content

end CiphertextKind

/-- What `decryptMessageObject` takes a content for that no cache has the text of. -/
inductive Reading where
  | distribution
  | groupMessage
  | envelope
  | plaintext
  deriving DecidableEq

/-- The tests of `decryptMessageObject`, and after them the one of
`decryptIncomingContent`, which hands on what is no envelope as the text it is. -/
def reading (qt : Qt) (content : String) : Reading :=
  if GroupE2eeCrypto.looksLikeDistribution qt content then .distribution
  else if GroupE2eeCrypto.looksLikeGroupMessage qt content then .groupMessage
  else if E2eeCrypto.looksLikeEnvelope qt content then .envelope
  else .plaintext

/-- The recogniser of its kind knows the content, it is not handed on as a text, and no
message with it is stored with it. -/
structure TreatedAsCiphertext (qt : Qt) (kind : CiphertextKind) (content : String) : Prop where
  recognised : kind.looksLike qt content = true
  unshown : reading qt content ≠ .plaintext
  unstored : ∀ msg : Json, (msg.value "content").toStr "" = content → readableContent qt msg = ""

section

variable {qt : Qt} {kind : CiphertextKind} {content : String}

/-! ## What is read as plaintext -/

theorem reading_plaintext_iff :
    reading qt content = .plaintext ↔ looksLikeCiphertext qt content = false := by
  unfold reading looksLikeCiphertext
  cases GroupE2eeCrypto.looksLikeDistribution qt content <;>
    cases GroupE2eeCrypto.looksLikeGroupMessage qt content <;>
      cases E2eeCrypto.looksLikeEnvelope qt content <;> decide

theorem looksLikeCiphertext_of_kind (h : kind.looksLike qt content = true) :
    looksLikeCiphertext qt content = true := by
  unfold looksLikeCiphertext
  cases kind with
  | envelope =>
      rw [show E2eeCrypto.looksLikeEnvelope qt content = true from h]
      rfl
  | distribution =>
      rw [show GroupE2eeCrypto.looksLikeDistribution qt content = true from h, Bool.or_true]
  | groupMessage =>
      rw [show GroupE2eeCrypto.looksLikeGroupMessage qt content = true from h, Bool.or_true,
        Bool.true_or]

/-! ## What a decoder has seen -/

theorem looksLikeEnvelope_of_decodes (h : (E2eeCrypto.decodeEnvelope qt content).isSome = true) :
    E2eeCrypto.looksLikeEnvelope qt content = (content.front == '\x7b') := by
  unfold E2eeCrypto.decodeEnvelope at h
  unfold E2eeCrypto.looksLikeEnvelope
  cases hroot : qt.fromJson content with
  | none =>
      rw [hroot] at h
      cases h
  | some root =>
      rw [hroot] at h
      dsimp only at h ⊢
      split at h
      · cases h
      rename_i hobject
      split at h
      · cases h
      rename_i hmembers
      rw [not_or, not_not] at hmembers
      -- an array of devices is a member of that name
      have hdevices : root.contains "devices" = true := by
        have harray := hmembers.2
        cases root with
        | obj members =>
            show (members.lookup "devices").isSome = true
            cases hlookup : members.lookup "devices" with
            | some v => rfl
            | none =>
                refine absurd ?_ harray
                show (((members.lookup "devices").getD .null).isArray) = false
                rw [hlookup]
                rfl
        | _ => exact absurd rfl harray
      have hobject' : root.isObject = true := by simpa using hobject
      rw [hobject', hmembers.1, hdevices, beq_self_eq_true, Bool.and_self, Bool.and_self,
        Bool.and_true]

/-- The members both group recognisers look at. -/
theorem looksLike_of_members {version : Int} {type : String} {root : Json}
    (hroot : qt.fromJson content = some root) (hobject : ¬(!root.isObject) = true)
    (hmembers : ¬((root.value "v").toInt (-1) ≠ version ∨ (root.value "type").toStr "" ≠ type)) :
    GroupE2eeCrypto.looksLike qt version type content = (content.front == '\x7b') := by
  rw [not_or, not_not, not_not] at hmembers
  have hobject' : root.isObject = true := by simpa using hobject
  unfold GroupE2eeCrypto.looksLike
  rw [hroot]
  dsimp only
  rw [hobject', hmembers.1, hmembers.2, beq_self_eq_true, beq_self_eq_true, Bool.and_self,
    Bool.and_self, Bool.and_true]

theorem looksLikeDistribution_of_decodes
    (h : (GroupE2eeCrypto.decodeDistribution qt content).isSome = true) :
    GroupE2eeCrypto.looksLikeDistribution qt content = (content.front == '\x7b') := by
  unfold GroupE2eeCrypto.decodeDistribution at h
  cases hroot : qt.fromJson content with
  | none =>
      rw [hroot] at h
      cases h
  | some root =>
      rw [hroot] at h
      dsimp only at h
      split at h
      · cases h
      rename_i hobject
      split at h
      · cases h
      rename_i hmembers
      exact looksLike_of_members hroot hobject hmembers

theorem looksLikeGroupMessage_of_decodes
    (h : (GroupE2eeCrypto.decodeGroupMessage qt content).isSome = true) :
    GroupE2eeCrypto.looksLikeGroupMessage qt content = (content.front == '\x7b') := by
  unfold GroupE2eeCrypto.decodeGroupMessage at h
  cases hroot : qt.fromJson content with
  | none =>
      rw [hroot] at h
      cases h
  | some root =>
      rw [hroot] at h
      dsimp only at h
      split at h
      · cases h
      rename_i hobject
      split at h
      · cases h
      rename_i hmembers
      exact looksLike_of_members hroot hobject hmembers

/-- **What a decoder accepts** its recogniser knows exactly by the first character. -/
theorem looksLike_of_accepts (h : kind.accepts qt content = true) :
    kind.looksLike qt content = (content.front == '\x7b') := by
  cases kind with
  | envelope => exact looksLikeEnvelope_of_decodes h
  | distribution => exact looksLikeDistribution_of_decodes h
  | groupMessage => exact looksLikeGroupMessage_of_decodes h

/-- **Ciphertexts are told from plaintext** exactly when they begin with the brace. -/
theorem ciphertext_treated_iff (h : kind.accepts qt content = true) :
    TreatedAsCiphertext qt kind content ↔ content.front = '\x7b' := by
  have hshape := looksLike_of_accepts h
  constructor
  · intro htreated
    rw [htreated.recognised] at hshape
    exact beq_iff_eq.mp hshape.symm
  · intro hfront
    rw [hfront, beq_self_eq_true] at hshape
    have hcipher := looksLikeCiphertext_of_kind hshape
    refine ⟨hshape, fun hplain => ?_, fun msg hmsg => ?_⟩
    · rw [reading_plaintext_iff, hcipher] at hplain
      cases hplain
    · have hmarked : markUndecryptable qt msg = true := by
        unfold markUndecryptable
        dsimp only
        rw [hmsg, Bool.or_assoc, Bool.or_assoc, ← Bool.or_assoc (E2eeCrypto.looksLikeEnvelope _ _)]
        exact Bool.or_eq_true_iff.mpr (.inr hcipher)
      exact if_pos hmarked

end

/-! ## An indented envelope -/

/-- An envelope for one device. -/
def oneDevice : Json := E2eeCrypto.encodeEnvelope Qt.compact
  [{ deviceId := "b", prekeyId := 7, ephemeralPublicKey := List.replicate 32 0
     iv := List.replicate 12 0, ciphertext := List.replicate 48 0 }]

theorem ciphertext_treated_oneDevice :
    TreatedAsCiphertext Qt.compact .envelope oneDevice.text :=
  (ciphertext_treated_iff (by decide +kernel)).mpr (by decide +kernel)

/-- After a blank the server accepts it, and the client shows it as a text. -/
theorem indented_envelope_shown : ¬∀ (kind : CiphertextKind) (content : String),
    kind.accepts Qt.compact content = true → TreatedAsCiphertext Qt.compact kind content := by
  intro h
  have hshown : reading Qt.compact (" " ++ oneDevice.text) = .plaintext := by decide +kernel
  exact (h .envelope (" " ++ oneDevice.text) (by decide +kernel)).unshown hshown

end XYChat.Client
