import XYChat.Client.SenderKeys
import XYChat.Common.JsonText
import XYChat.Server.Ciphertext

/-!
# Who a group envelope names

A stored group content names its sender twice: in the row, where the server puts
the session's user and device, and inside the content, where the client puts
what it likes. The server compares the two for an edit but not for a send, and
the receiving client files a distributed key under the name in the content. This
file gives the condition on the sends under which both names agree in every
state and no client files a key under a user who did not send it.
-/

namespace XYChat.EndToEnd

open XYChat.Lib XYChat.Server XYChat.Client

/-! ## Histories of group sends -/

/-- A `SendMessage` request of any connection, or the clock. -/
inductive GroupSend where
  | send (requestId : Nat) (conn : Connection) (request : Json)
  | tick (seconds : Nat)

/-- The conversation a send is for. -/
def groupOf (request : Json) : Int := (request.value "conversationId").toLongLong

/-- Handling one group send; a send that names no conversation is not one. -/
def groupStep (qt : Qt) (db : Db) : GroupSend → Db
  | .send requestId conn request =>
      if 0 < groupOf request then
        ((processSendMessageRequest qt requestId conn request).exec db).1
      else db
  | .tick seconds => { db with now := db.now + seconds }

def groupMachine (qt : Qt) : Machine Db GroupSend where
  init := fun _ => True
  step := groupStep qt

/-- The content names the session it was sent in: a distribution its user and
device, a group message its device. -/
structure NamesSession (qt : Qt) (m : MessageRow) : Prop where
  distribution : m.contentType = "sender_key_distribution" →
    ∃ dist, GroupE2eeCrypto.decodeDistribution qt m.content = some dist ∧
      dist.senderUserId = m.senderId ∧ Db.nullable dist.senderDeviceId = m.senderDeviceId
  groupMessage : m.contentType = "e2ee_group" →
    ∃ msg senderDeviceId,
      GroupE2eeCrypto.decodeGroupMessage qt m.content = some (msg, senderDeviceId) ∧
      Db.nullable senderDeviceId = m.senderDeviceId

/-- The message object a client gets for a stored row. -/
def messageObject (m : MessageRow) : Json :=
  .obj
    [ ("messageId", .int m.id)
    , ("conversationId", .int m.conversationId)
    , ("senderId", .int m.senderId)
    , ("content", .str m.content)
    , ("contentType", .str m.contentType) ]

/-- A client handles stored messages as distributions, one after the other, each
under the random ivs it comes with. -/
def receiveAll (qt : Qt) (crypto : Crypto) (cipher : TextCipher) (d : E2eeDevice)
    (msgs : List ((Nat × Nat) × MessageRow)) : E2eeDevice :=
  msgs.foldl (fun d x =>
    (processGroupSenderKeyDistribution qt crypto cipher x.1 d (messageObject x.2)).1) d

/-- Whatever its keys and whichever stored messages it handles, a client holds a
key under a user only if it held it before or that user sent one of them. -/
def KeysFromTheirSenders (qt : Qt) (floor : Int) (db : Db) : Prop :=
  ∀ (crypto : Crypto) (cipher : TextCipher) (d : E2eeDevice)
    (msgs : List ((Nat × Nat) × MessageRow)),
    (∀ x ∈ msgs, x.2 ∈ db.messages.rows ∧ floor < x.2.id) →
      ∀ row ∈ (receiveAll qt crypto cipher d msgs).senderKeys,
        row ∈ d.senderKeys ∨ ∃ x ∈ msgs, x.2.senderId = row.senderUserId

/-- Every message stored after the first `floor` ids names its session, and no
client takes a key of it for another user's. -/
structure SendersAuthentic (qt : Qt) (floor : Int) (db : Db) : Prop where
  names : ∀ m ∈ db.messages.rows, floor < m.id → NamesSession qt m
  keys : KeysFromTheirSenders qt floor db

/-- The send tells the truth about its session, which the server does not check:
a content sent as a distribution names the session's user and device, one sent as
a group message names its device, and a content sent under any other type that
reads as a distribution of the group names the session's user. -/
structure Honest (qt : Qt) (conn : Connection) (request : Json) : Prop where
  distribution : ∀ dist,
    (request.value "contentType").toStr "text" = "sender_key_distribution" →
    GroupE2eeCrypto.decodeDistribution qt ((request.value "content").toStr "") = some dist →
      dist.senderUserId = conn.authenticatedUserId ∧
        dist.senderDeviceId = conn.currentDeviceId
  groupMessage : ∀ msg senderDeviceId,
    (request.value "contentType").toStr "text" = "e2ee_group" →
    GroupE2eeCrypto.decodeGroupMessage qt ((request.value "content").toStr "")
        = some (msg, senderDeviceId) →
      senderDeviceId = conn.currentDeviceId
  disguised : ∀ dist,
    GroupE2eeCrypto.decodeDistribution qt ((request.value "content").toStr "") = some dist →
    dist.groupId = groupOf request → dist.senderUserId = conn.authenticatedUserId

/-- Each group send that passes the server's checks, and so is stored, is honest. -/
def SendHonest (qt : Qt) (db : Db) : GroupSend → Prop
  | .send _ conn request =>
      0 < groupOf request → GroupAccepted qt conn request db → Honest qt conn request
  | .tick _ => True

/-! ## What a client files -/

/-- A key that `saveSenderKey` leaves was there or is filed under the user it was
given. -/
private theorem saveSenderKey_rows {qt : Qt} {cipher : TextCipher} {r : Nat × Nat}
    {groupId senderUserId : Int} {senderDeviceId keyId : String}
    {chainKey publicSigningKey privateSigningKey : Bytes} {iteration : Int}
    {rows rows' : List SenderKeyRow}
    (h : saveSenderKey qt cipher r groupId senderUserId senderDeviceId keyId chainKey
      publicSigningKey privateSigningKey iteration rows = some rows') (row : SenderKeyRow)
    (hrow : row ∈ rows') : row ∈ rows ∨ row.senderUserId = senderUserId := by
  unfold saveSenderKey at h
  split at h
  · simp at h
  · dsimp only at h
    split at h
    · simp at h
    · simp only [Option.some.injEq] at h
      subst h
      rcases List.mem_append.mp hrow with hold | hnew
      · exact .inl (List.mem_filter.mp hold).1
      · rw [List.mem_singleton.mp hnew]
        exact .inr rfl

/-- **One distribution.** A key the client holds afterwards was there before, or
its user is the one the content names, and the content is then a distribution
of the message's conversation. -/
private theorem process_rows (qt : Qt) (crypto : Crypto) (cipher : TextCipher) (r : Nat × Nat)
    (d : E2eeDevice) (msg : Json) (row : SenderKeyRow)
    (hrow : row ∈ (processGroupSenderKeyDistribution qt crypto cipher r d msg).1.senderKeys) :
    row ∈ d.senderKeys ∨
      ∃ dist, GroupE2eeCrypto.decodeDistribution qt ((msg.value "content").toStr "") = some dist ∧
        dist.groupId = (msg.value "conversationId").toLongLong ∧
        dist.senderUserId = row.senderUserId := by
  unfold processGroupSenderKeyDistribution at hrow
  dsimp only at hrow
  split at hrow
  · exact .inl hrow
  split at hrow
  · exact .inl hrow
  rename_i dist hdecode
  split at hrow
  · exact .inl hrow
  rename_i hnamed
  have hopen := openDistribution_senderKeys crypto d dist.entries
  split at hrow
  · exact .inl (hopen ▸ hrow)
  split at hrow
  · exact .inl (hopen ▸ hrow)
  split at hrow
  · dsimp only at hrow
    cases hsave : saveSenderKey qt cipher r (msg.value "conversationId").toLongLong
        dist.senderUserId dist.senderDeviceId dist.key.keyId
        (qt.fromBase64 (fromUtf8 (openDistribution crypto d dist.entries).1))
        dist.key.publicSigningKey [] dist.key.iteration
        (openDistribution crypto d dist.entries).2.senderKeys with
    | none =>
        rw [hsave] at hrow
        exact .inl (hopen ▸ hrow)
    | some rows =>
        rw [hsave] at hrow
        rcases saveSenderKey_rows hsave row hrow with hold | hnew
        · exact .inl (hopen ▸ hold)
        · simp only [not_or, not_not] at hnamed
          exact .inr ⟨dist, hdecode, hnamed.1, hnew.symm⟩
  · exact .inl (hopen ▸ hrow)

/-- Where each stored content that reads as a distribution of its conversation
names its sender, clients file keys under their senders only. -/
private theorem keysFromTheirSenders_of {qt : Qt} {floor : Int} {db : Db}
    (h : ∀ m ∈ db.messages.rows, floor < m.id → ∀ dist,
      GroupE2eeCrypto.decodeDistribution qt m.content = some dist →
      dist.groupId = m.conversationId → dist.senderUserId = m.senderId) :
    KeysFromTheirSenders qt floor db := by
  intro crypto cipher d msgs
  induction msgs generalizing d with
  | nil => exact fun _ row hrow => .inl hrow
  | cons x msgs ih =>
      intro hstored row hrow
      have hx := hstored x (by simp)
      rcases ih _ (fun y hy => hstored y (by simp [hy])) row hrow with hold | ⟨y, hy, hsender⟩
      · rcases process_rows qt crypto cipher x.1 d (messageObject x.2) row hold with
          hbefore | ⟨dist, hdecode, hgroup, huser⟩
        · exact .inl hbefore
        · refine .inr ⟨x, by simp, ?_⟩
          rw [← huser]
          exact (h x.2 hx.1 hx.2 dist hdecode hgroup).symm
      · exact .inr ⟨y, by simp [hy], hsender⟩

/-! ## What the server stores -/

/-- What honest sends leave in a row. -/
private structure RowHonest (qt : Qt) (m : MessageRow) : Prop where
  names : NamesSession qt m
  disguised : ∀ dist, GroupE2eeCrypto.decodeDistribution qt m.content = some dist →
    dist.groupId = m.conversationId → dist.senderUserId = m.senderId

/-- An honest send that passes the checks stores an honest row. -/
private theorem groupMessage_honest {qt : Qt} {conn : Connection} {request : Json} {db : Db}
    (haccepted : GroupAccepted qt conn request db) (h : Honest qt conn request) :
    RowHonest qt
      (groupMessage conn request (groupOf request) (clientMessageIdOf request) db) := by
  obtain ⟨ids, hs⟩ := haccepted.sendable
  refine ⟨⟨fun htype => ?_, fun htype => ?_⟩, h.disguised⟩
  · have hdecode := (checkGroupContent_ok hs.checked).2 htype
    obtain ⟨dist, hdist⟩ := Option.isSome_iff_exists.mp hdecode
    obtain ⟨huser, hdevice⟩ := h.distribution dist htype hdist
    exact ⟨dist, hdist, huser, congrArg Db.nullable hdevice⟩
  · have hdecode := (checkGroupContent_ok hs.checked).1 htype
    obtain ⟨⟨msg, senderDeviceId⟩, hmsg⟩ := Option.isSome_iff_exists.mp hdecode
    exact ⟨msg, senderDeviceId, hmsg, congrArg Db.nullable (h.groupMessage msg _ htype hmsg)⟩

/-- **Step lemma.** An honest step keeps every stored row honest. -/
private theorem groupStep_honest {qt : Qt} {floor : Int} {db : Db} {op : GroupSend}
    (hrows : ∀ m ∈ db.messages.rows, floor < m.id → RowHonest qt m) (hop : SendHonest qt db op) :
    ∀ m ∈ (groupStep qt db op).messages.rows, floor < m.id → RowHonest qt m := by
  cases op with
  | tick seconds => exact hrows
  | send requestId conn request =>
      rw [groupStep]
      by_cases hgroup : 0 < groupOf request
      · rw [if_pos hgroup]
        have hspec := processSendMessageRequest_group qt requestId conn request db hgroup
        unfold Prog.wp at hspec
        intro m hm hid
        rcases hspec with ⟨haccepted, hnew⟩ | ⟨_, hsame⟩
        · rcases (hnew.mem m).mp hm with hold | rfl
          · exact hrows m hold hid
          · exact groupMessage_honest haccepted (hop hgroup haccepted)
        · exact hrows m (hsame ▸ hm) hid
      · rw [if_neg hgroup]
        exact hrows

/-- **Sender authenticity.** In every history of group sends each of which, when
it passes the server's checks, is honest about its session, every stored content
names the session it was sent in, and no client files a key under a user that
user did not send. -/
theorem sendersAuthentic_of_honest (qt : Qt) (db₀ : Db) (ops : List GroupSend)
    (hhonest : (groupMachine qt).Along (SendHonest qt) db₀ ops) :
    (groupMachine qt).Always (SendersAuthentic qt db₀.messages.lastId) db₀ ops := by
  have hrows := Machine.always_of_along
    (Q := fun db => ∀ m ∈ db.messages.rows, db₀.messages.lastId < m.id → RowHonest qt m)
    (fun _ _ => groupStep_honest)
    (fun m hm hid => absurd (db₀.messages.bounded m hm).2 (by simp only [key_messageRow]; omega))
    hhonest
  refine hrows.mono fun db h => ⟨fun m hm hid => (h m hm hid).names, ?_⟩
  exact keysFromTheirSenders_of fun m hm hid => (h m hm hid).disguised

/-! ## Two histories -/

/-- A distribution of group 1 that names alice and her device `A`. -/
def aliceDistribution : Json := .obj
  [ ("devices", .arr [.obj
      [ ("ct", .str "AAAAAAAAAAAAAAAAAAAAAA==")
      , ("deviceId", .str "M")
      , ("eph", .str "AAAAAAAAAAAAAAAAAAAAAAAAAAAAAAAAAAAAAAAAAAA=")
      , ("iv", .str "AAAAAAAAAAAAAAAA")
      , ("prekeyId", .int 1)
      , ("userId", .int 2) ]])
  , ("groupId", .int 1)
  , ("keyId", .str "k1")
  , ("publicSigningKey", .str "AAAAAAAAAAAAAAAAAAAAAAAAAAAAAAAAAAAAAAAAAAA=")
  , ("senderDeviceId", .str "A")
  , ("senderUserId", .int 1)
  , ("type", .str "sender_key_distribution")
  , ("v", .int 1) ]

def distributionQt : Qt := Qt.ofDocuments [aliceDistribution]

/-- Alice and mallory, both members of group 1. -/
def groupDb : Db where
  now := 1767225600
  users := .ofRows [{ id := 1, username := "alice" }, { id := 2, username := "mallory" }]
  conversations := .ofRows [{ id := 1, type := .groupType, name := "g" }]
  conversationMembers := .ofRows
    [ { id := 1, conversationId := 1, userId := 1, role := .owner }
    , { id := 2, conversationId := 1, userId := 2 } ]

def mallory : Connection :=
  { authenticatedUserId := 2, currentSessionId := 2, currentDeviceId := "M" }

/-- The requests that send alice's distribution to the group, under a name or none. -/
def distributionRequest (clientMessageId : String) : Json := .obj
  [ ("clientMessageId", .str clientMessageId), ("conversationId", .int 1)
  , ("contentType", .str "sender_key_distribution"), ("content", .str aliceDistribution.text) ]

/-- Mallory's attempt has no name, and the server refuses it; then alice sends hers. -/
def refusedThenSent : List GroupSend :=
  [.send 1 mallory (distributionRequest ""), .send 1 alice (distributionRequest "m1")]

theorem decode_aliceDistribution :
    ∀ d ∈ GroupE2eeCrypto.decodeDistribution distributionQt aliceDistribution.text,
      d.senderUserId = alice.authenticatedUserId ∧ d.senderDeviceId = alice.currentDeviceId := by
  decide +kernel

/-- Sent by alice, the distribution is stored and everything stays authentic. -/
theorem sendersAuthentic_aliceDistribution :
    ((groupMachine distributionQt).run groupDb refusedThenSent).messages.rows.length = 1 ∧
      (groupMachine distributionQt).Always (SendersAuthentic distributionQt 0) groupDb
        refusedThenSent := by
  refine ⟨by decide +kernel, sendersAuthentic_of_honest distributionQt groupDb _ ?_⟩
  refine ⟨fun _ haccepted => ?_, fun _ _ => ?_, trivial⟩
  · exact absurd haccepted.named (by decide +kernel)
  · refine ⟨fun dist _ hdist => ?_, fun _ _ htype => ?_, fun dist hdist _ => ?_⟩
    · exact decode_aliceDistribution dist hdist
    · exact absurd htype (by decide)
    · exact (decode_aliceDistribution dist hdist).1

/-- Sent by mallory, the same content is stored as it is: it names alice. -/
theorem malloryDistribution_names_alice :
    ¬(groupMachine distributionQt).Always (SendersAuthentic distributionQt 0) groupDb
      [.send 1 mallory (distributionRequest "m1")] := by
  intro h
  have hrow : ∃ m ∈ ((groupMachine distributionQt).run groupDb
      [.send 1 mallory (distributionRequest "m1")]).messages.rows,
      m.id = 1 ∧ m.senderId = 2 ∧ m.contentType = "sender_key_distribution" ∧
        m.content = aliceDistribution.text := by
    decide +kernel
  obtain ⟨m, hm, hid, hsender, htype, hcontent⟩ := hrow
  obtain ⟨dist, hdecode, huser, _⟩ := (h.last.names m hm (by omega)).distribution htype
  rw [hcontent] at hdecode
  have halice := (decode_aliceDistribution dist hdecode).1
  have : alice.authenticatedUserId = 1 := rfl
  omega

end XYChat.EndToEnd
