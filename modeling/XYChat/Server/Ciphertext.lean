import XYChat.Common.JsonReader
import XYChat.Server.MessageSpecs

/-!
# The server stores ciphertext only

Three paths write a message's content: the private send, the group send and the
edit. Both sends validate the content by the kind of message they store. The
edit validates by the stored content type, and a type it does not name is not
validated at all; the exact condition under which no edit gets past is the
theorem of this file.
-/

namespace XYChat.Server

open XYChat.Lib

/-- The requests that write message contents, and the clock. -/
inductive ContentRequest where
  | send (requestId : Nat) (conn : Connection) (request : Json)
  | edit (requestId : Nat) (conn : Connection) (request : Json)
  | delete (requestId : Nat) (conn : Connection) (request : Json)
  | tick (seconds : Nat)

/-- Handling one of these requests. -/
def contentStep (qt : Qt) (db : Db) : ContentRequest → Db
  | .send requestId conn request => ((processSendMessageRequest qt requestId conn request).exec db).1
  | .edit requestId conn request => ((processEditMessageRequest qt requestId conn request).exec db).1
  | .delete requestId conn request =>
      ((processDeleteMessageRequest qt requestId conn request).exec db).1
  | .tick seconds => { db with now := db.now + seconds }

/-- The server as far as message contents go: any connection sends, edits and
deletes in any order, each request handled whole. -/
def contentMachine (qt : Qt) : Machine Db ContentRequest where
  init := fun _ => True
  step := contentStep qt

/-- The content is a ciphertext of the kind its conversation and type ask for. -/
def Sealed (qt : Qt) (db : Db) (m : MessageRow) : Prop :=
  ∀ c, db.getConversation m.conversationId = some c →
    (c.type = .privateType → (E2eeCrypto.decodeEnvelope qt m.content).isSome) ∧
    (c.type = .groupType → m.contentType = "e2ee_group" →
      (GroupE2eeCrypto.decodeGroupMessage qt m.content).isSome) ∧
    (c.type = .groupType → m.contentType = "sender_key_distribution" →
      (GroupE2eeCrypto.decodeDistribution qt m.content).isSome)

/-- Every live message stored after the first `floor` ids is a ciphertext. -/
def CiphertextOnly (qt : Qt) (floor : Int) (db : Db) : Prop :=
  ∀ m ∈ db.messages.rows, floor < m.id → m.deleted = false → Sealed qt db m

/-- An edit that passes the handler's checks, of a private message whose type is
not `text` or of a stored distribution, brings a ciphertext of that kind. These
are the two kinds of message whose edited content the handler does not look at. -/
def EditSealed (qt : Qt) (floor : Int) (db : Db) : ContentRequest → Prop
  | .edit _ conn request =>
      ∀ m c, Editable qt conn request db m → floor < m.id →
        db.getConversation m.conversationId = some c →
        (c.type = .privateType → m.contentType ≠ "text" →
          (E2eeCrypto.decodeEnvelope qt ((request.value "content").toStr "")).isSome) ∧
        (c.type = .groupType → m.contentType = "sender_key_distribution" →
          (GroupE2eeCrypto.decodeDistribution qt ((request.value "content").toStr "")).isSome)
  | _ => True

/-- Messages stored after the first `floor` ids lie in existing conversations. -/
def Housed (floor : Int) (db : Db) : Prop :=
  ∀ m ∈ db.messages.rows, floor < m.id → (db.getConversation m.conversationId).isSome

/-- What one step does to both properties: the first is kept, and the second is
kept exactly when `ok` holds. -/
structure SealedStep (qt : Qt) (floor : Int) (db db' : Db) (ok : Prop) : Prop where
  housed : Housed floor db → Housed floor db'
  sealed_iff : Housed floor db → CiphertextOnly qt floor db →
    (CiphertextOnly qt floor db' ↔ ok)

/-! ## Frames -/

/-- A row that lies in an existing conversation is sealed in an extension of the
store exactly when it was before. -/
private theorem sealed_extends {qt : Qt} {db db' : Db} {m : MessageRow} (hext : db.Extends db')
    (hhoused : (db.getConversation m.conversationId).isSome) :
    Sealed qt db' m ↔ Sealed qt db m := by
  obtain ⟨c, hc⟩ := Option.isSome_iff_exists.mp hhoused
  obtain ⟨c', hc', htype⟩ := hext.conversations _ c hc
  constructor
  · intro h d hd
    obtain rfl : c = d := by simpa [hc] using hd
    rw [← htype]
    exact h c' hc'
  · intro h d hd
    obtain rfl : c' = d := by simpa [hc'] using hd
    rw [htype]
    exact h c hc

private theorem housed_extends {db db' : Db} {m : MessageRow} (hext : db.Extends db')
    (h : (db.getConversation m.conversationId).isSome) :
    (db'.getConversation m.conversationId).isSome := by
  obtain ⟨c, hc⟩ := Option.isSome_iff_exists.mp h
  obtain ⟨c', hc', _⟩ := hext.conversations _ c hc
  exact Option.isSome_iff_exists.mpr ⟨c', hc'⟩

/-- A store whose live rows were all there before keeps both properties. -/
private theorem step_of_rows {qt : Qt} {floor : Int} {db db' : Db} (hext : db.Extends db')
    (hrows : ∀ m ∈ db'.messages.rows, ∃ m₀ ∈ db.messages.rows,
      m₀.id = m.id ∧ m₀.conversationId = m.conversationId ∧ (m.deleted = true ∨ m₀ = m)) :
    SealedStep qt floor db db' True := by
  constructor
  · intro hhoused m hm hid
    obtain ⟨m₀, hm₀, hid₀, hconv, _⟩ := hrows m hm
    rw [← hconv]
    exact housed_extends hext (hhoused m₀ hm₀ (by omega))
  · refine fun hhoused hsealed => ⟨fun _ => trivial, fun _ m hm hid hlive => ?_⟩
    obtain ⟨m₀, hm₀, hid₀, hconv, hdel | rfl⟩ := hrows m hm
    · exact absurd hdel (by simp [hlive])
    · exact (sealed_extends hext (hhoused m₀ hm₀ hid)).mpr (hsealed m₀ hm₀ hid hlive)

private theorem step_of_same {qt : Qt} {floor : Int} {db db' : Db} (hext : db.Extends db')
    (hmsgs : db'.messages = db.messages) : SealedStep qt floor db db' True :=
  step_of_rows hext fun m hm => ⟨m, hmsgs ▸ hm, rfl, rfl, .inr rfl⟩

/-- A new row that is sealed keeps both properties. -/
private theorem step_of_new {qt : Qt} {floor : Int} {db db' : Db} {row : MessageRow}
    (hext : db.Extends db') (hnew : Appended db db' row) (hrow : Sealed qt db' row) :
    SealedStep qt floor db db' True := by
  constructor
  · intro hhoused m hm hid
    rcases (hnew.mem m).mp hm with hold | rfl
    · exact housed_extends hext (hhoused m hold hid)
    · exact hnew.conversation
  · refine fun hhoused hsealed => ⟨fun _ => trivial, fun _ m hm hid hlive => ?_⟩
    rcases (hnew.mem m).mp hm with hold | rfl
    · exact (sealed_extends hext (hhoused m hold hid)).mpr (hsealed m hold hid hlive)
    · exact hrow

/-! ## Steps -/

/-- What a send stores is a ciphertext of its kind. -/
private theorem send_step {qt : Qt} {conn : Connection} {db db' : Db} {floor : Int}
    (h : db.Extends db' ∧ Stored qt conn db db') : SealedStep qt floor db db' True := by
  obtain ⟨hext, hstored⟩ := h
  cases hstored with
  | nothing h => exact step_of_same hext h
  | privateRow row hnew hby hconv hcontent =>
      refine step_of_new hext hnew fun c hc => ?_
      obtain ⟨c', hc', htype⟩ := hconv
      obtain rfl : c' = c := by simpa [hc'] using hc
      exact ⟨fun _ => hcontent, fun h => by simp [htype] at h, fun h => by simp [htype] at h⟩
  | groupRow row hnew hby hconv hcontent =>
      refine step_of_new hext hnew fun c hc => ?_
      obtain ⟨c', hc', htype⟩ := hconv
      obtain rfl : c' = c := by simpa [hc'] using hc
      obtain ⟨ids, hok⟩ := hcontent
      have hdecode := checkGroupContent_ok hok
      exact ⟨fun h => by simp [htype] at h, fun _ => hdecode.1, fun _ => hdecode.2⟩

/-- An edit's content has been decoded where the handler decodes it. -/
private theorem checkEditContent_ok {qt : Qt} {conn : Connection} {content contentType : String}
    (h : checkEditContent qt conn content contentType = .ok ()) :
    (contentType = "text" → (E2eeCrypto.decodeEnvelope qt content).isSome) ∧
      (contentType = "e2ee_group" → (GroupE2eeCrypto.decodeGroupMessage qt content).isSome) := by
  unfold checkEditContent at h
  constructor
  · intro htype
    rw [if_neg (by rw [htype]; decide), if_pos htype] at h
    split at h
    · assumption
    · simp at h
  · intro htype
    rw [if_pos htype] at h
    split at h
    · rename_i hdecode
      simp [hdecode]
    · simp at h

/-- The row an edit leaves. -/
private def edited (db : Db) (request : Json) (m : MessageRow) : MessageRow :=
  { m with
    content := (request.value "content").toStr ""
    contentType := (request.value "contentType").toStr ""
    editedAt := some db.now }

/-- The rows after an edit: the edited row and the others. -/
private theorem edit_rows {qt : Qt} {conn : Connection} {request : Json} {db : Db} {m : MessageRow}
    (h : Editable qt conn request db m) (r : MessageRow) :
    r ∈ (db.editMessage (request.value "messageId").toLongLong
        ((request.value "content").toStr "")
        ((request.value "contentType").toStr "")).1.messages.rows ↔
      r = edited db request m ∨ (r ∈ db.messages.rows ∧ r ≠ m) := by
  have hget := Table.get_eq_some.mp (Option.filter_eq_some_iff.mp h.found).1
  have hguard : ¬((request.value "messageId").toLongLong ≤ 0 ∨
      (request.value "content").toStr "" = "" ∨ (request.value "contentType").toStr "" = "") := by
    have := h.messageId
    simp only [not_or]
    exact ⟨by omega, h.content, h.contentType⟩
  unfold Db.editMessage
  rw [if_neg hguard]
  -- the update's condition selects `m` alone
  have hsel {r₀ : MessageRow} (hr₀ : r₀ ∈ db.messages.rows) :
      (r₀.id == (request.value "messageId").toLongLong && !r₀.deleted) = true ↔ r₀ = m := by
    constructor
    · intro hp
      simp only [Bool.and_eq_true, beq_iff_eq] at hp
      exact Table.key_inj hr₀ hget.1 (hp.1.trans hget.2.symm)
    · rintro rfl
      simpa [h.live] using hget.2
  constructor
  · intro hr
    obtain ⟨r₀, hr₀, rfl⟩ := List.mem_map.mp hr
    by_cases hm : r₀ = m
    · rw [if_pos ((hsel hr₀).mpr hm), hm]
      exact .inl rfl
    · rw [if_neg fun hp => hm ((hsel hr₀).mp hp)]
      exact .inr ⟨hr₀, hm⟩
  · rintro (rfl | ⟨hr, hm⟩)
    · exact List.mem_map.mpr ⟨m, hget.1, if_pos ((hsel hget.1).mpr rfl)⟩
    · exact List.mem_map.mpr ⟨r, hr, if_neg fun hp => hm ((hsel hr).mp hp)⟩

/-- **One edit.** An edit that runs keeps the store sealed exactly when the two
unchecked kinds bring a ciphertext. -/
private theorem edit_sealed_iff {qt : Qt} {conn : Connection} {request : Json} {db db' : Db}
    {m : MessageRow} {floor : Int} (hedit : Editable qt conn request db m)
    (hext : db.Extends db')
    (hmsgs : db'.messages = (db.editMessage (request.value "messageId").toLongLong
      ((request.value "content").toStr "") ((request.value "contentType").toStr "")).1.messages)
    (hhoused : Housed floor db) (hsealed : CiphertextOnly qt floor db) (requestId : Nat) :
    CiphertextOnly qt floor db' ↔ EditSealed qt floor db (.edit requestId conn request) := by
  have hmem : m ∈ db.messages.rows :=
    (Table.get_eq_some.mp (Option.filter_eq_some_iff.mp hedit.found).1).1
  have hcheck := checkEditContent_ok hedit.checked
  constructor
  · intro h m' c hedit' hid hc
    obtain rfl : m = m' := by simpa [hedit.found] using hedit'.found
    have hrow : edited db request m ∈ db'.messages.rows := by
      rw [hmsgs]
      exact (edit_rows hedit _).mpr (.inl rfl)
    have hs : Sealed qt db (edited db request m) :=
      (sealed_extends (m := edited db request m) hext (hhoused m hmem hid)).mp
        (h _ hrow hid hedit.live)
    refine ⟨fun htype _ => (hs c hc).1 htype, fun htype hkind => (hs c hc).2.2 htype ?_⟩
    exact hedit.sameType.trans hkind
  · intro hcond r hr hid hlive
    rw [hmsgs] at hr
    rcases (edit_rows hedit r).mp hr with rfl | ⟨hold, _⟩
    · refine (sealed_extends (m := edited db request m) hext
        (hhoused m hmem hid)).mpr fun c hc => ?_
      have hc' := hcond m c hedit hid hc
      refine ⟨fun htype => ?_, fun _ hkind => hcheck.2 hkind, fun htype hkind => ?_⟩
      · by_cases htext : m.contentType = "text"
        · exact hcheck.1 (hedit.sameType.trans htext)
        · exact hc'.1 htype htext
      · exact hc'.2 htype (hedit.sameType.symm.trans hkind)
    · exact (sealed_extends hext (hhoused r hold hid)).mpr (hsealed r hold hid hlive)

/-- An edit keeps the rows' conversations. -/
private theorem edit_housed {qt : Qt} {conn : Connection} {request : Json} {db db' : Db}
    {m : MessageRow} {floor : Int} (hedit : Editable qt conn request db m)
    (hext : db.Extends db')
    (hmsgs : db'.messages = (db.editMessage (request.value "messageId").toLongLong
      ((request.value "content").toStr "") ((request.value "contentType").toStr "")).1.messages)
    (hhoused : Housed floor db) : Housed floor db' := by
  intro r hr hid
  have hmem : m ∈ db.messages.rows :=
    (Table.get_eq_some.mp (Option.filter_eq_some_iff.mp hedit.found).1).1
  rw [hmsgs] at hr
  rcases (edit_rows hedit r).mp hr with rfl | ⟨hold, _⟩
  · exact housed_extends hext (hhoused m hmem hid)
  · exact housed_extends hext (hhoused r hold hid)

private theorem edit_step {qt : Qt} {conn : Connection} {request : Json} {db db' : Db}
    {floor : Int} (requestId : Nat)
    (h : db.Extends db' ∧
      ((∃ m, Editable qt conn request db m ∧
          db'.messages = (db.editMessage (request.value "messageId").toLongLong
            ((request.value "content").toStr "")
            ((request.value "contentType").toStr "")).1.messages) ∨
        ((∀ m, ¬Editable qt conn request db m) ∧ db'.messages = db.messages))) :
    SealedStep qt floor db db' (EditSealed qt floor db (.edit requestId conn request)) := by
  obtain ⟨hext, ⟨m, hedit, hmsgs⟩ | ⟨hnone, hmsgs⟩⟩ := h
  · exact ⟨edit_housed hedit hext hmsgs, fun h₁ h₂ =>
      edit_sealed_iff hedit hext hmsgs h₁ h₂ requestId⟩
  · have hsame : SealedStep qt floor db db' True := step_of_same hext hmsgs
    refine ⟨hsame.housed, fun h₁ h₂ => ?_⟩
    exact ⟨fun _ m c hedit => absurd hedit (hnone m),
      fun _ => (hsame.sealed_iff h₁ h₂).mpr trivial⟩

/-- A deletion only adds a tombstone. -/
private theorem delete_step {qt : Qt} {floor : Int} {db db' : Db} {messageId : Int}
    (h : db.Extends db' ∧ (db'.messages = db.messages ∨
      db'.messages = (db.deleteMessage messageId).1.messages)) :
    SealedStep qt floor db db' True := by
  obtain ⟨hext, hsame | hdel⟩ := h
  · exact step_of_same hext hsame
  · refine step_of_rows hext fun m hm => ?_
    rw [hdel] at hm
    unfold Db.deleteMessage at hm
    split at hm
    · exact ⟨m, hm, rfl, rfl, .inr rfl⟩
    · obtain ⟨m₀, hm₀, rfl⟩ := List.mem_map.mp hm
      refine ⟨m₀, hm₀, ?_⟩
      split
      · exact ⟨rfl, rfl, .inl rfl⟩
      · exact ⟨rfl, rfl, .inr rfl⟩

/-- **Step lemma.** Every step keeps the rows' conversations, and keeps the
store sealed exactly when it is no unsealed edit. -/
private theorem step_sealed (qt : Qt) (floor : Int) (db : Db) (op : ContentRequest) :
    SealedStep qt floor db (contentStep qt db op) (EditSealed qt floor db op) := by
  cases op with
  | send requestId conn request =>
      have h := processSendMessageRequest_stored qt requestId conn request db
      rw [contentStep]
      exact send_step h
  | edit requestId conn request =>
      have h := processEditMessageRequest_spec qt requestId conn request db
      rw [contentStep]
      exact edit_step requestId h
  | delete requestId conn request =>
      have h := processDeleteMessageRequest_spec qt requestId conn request db
      rw [contentStep]
      exact delete_step h
  | tick seconds => exact step_of_same (.of_eq rfl rfl) rfl

/-- **Ciphertext only.** Over every run of sends, edits and deletions the stored
contents stay ciphertexts of their kind exactly when no edit that passes the
handler's checks brings anything else to a private message of a type other than
`text` or to a stored distribution. -/
theorem ciphertextOnly_iff (qt : Qt) (db₀ : Db) (ops : List ContentRequest) :
    (contentMachine qt).Always (CiphertextOnly qt db₀.messages.lastId) db₀ ops ↔
      (contentMachine qt).Along (EditSealed qt db₀.messages.lastId) db₀ ops := by
  have hold {m : MessageRow} (hm : m ∈ db₀.messages.rows) : m.id ≤ db₀.messages.lastId :=
    (db₀.messages.bounded m hm).2
  refine Machine.always_iff_along (W := Housed db₀.messages.lastId)
    (fun db op => (step_sealed qt _ db op).housed)
    (fun db op => (step_sealed qt _ db op).sealed_iff) ?_ ?_
  · exact fun m hm hid => absurd (hold hm) (by omega)
  · exact fun m hm hid => absurd (hold hm) (by omega)

/-! ## A type the edit does not look at -/

/-- An envelope for bob's device `B` under prekey 1. -/
def sampleEnvelope : Json := .obj
  [ ("devices", .arr [.obj
      [ ("ct", .str "AAAAAAAAAAAAAAAAAAAAAA==")
      , ("deviceId", .str "B")
      , ("eph", .str "AAAAAAAAAAAAAAAAAAAAAAAAAAAAAAAAAAAAAAAAAAA=")
      , ("iv", .str "AAAAAAAAAAAAAAAA")
      , ("prekeyId", .int 1) ]])
  , ("v", .int 1) ]

def sampleQt : Qt := { Qt.compact with isoDate := fun _ => "2026-01-01T00:00:00Z" }

/-- Alice, and bob with one claimed prekey. -/
def sampleDb : Db where
  now := 1767225600
  users := .ofRows [{ id := 1, username := "alice" }, { id := 2, username := "bob" }]
  prekeys := .ofRows [{ id := 1, userId := 2, deviceId := "B", pub := "cHVi", status := .claimed }]

def alice : Connection := { authenticatedUserId := 1, currentSessionId := 1, currentDeviceId := "A" }

/-- Alice sends bob an envelope under a content type of her own and edits it. -/
def noteEdit : List ContentRequest :=
  [ .send 1 alice (.obj
      [ ("clientMessageId", .str "m1"), ("toUserId", .int 2), ("contentType", .str "note")
      , ("content", .str sampleEnvelope.text) ])
  , .edit 2 alice (.obj
      [ ("messageId", .int 1), ("contentType", .str "note"), ("content", .str "hello") ]) ]

/-- The edit stores a plaintext: nothing looks at the content of a `note`. -/
theorem noteEdit_stores_plaintext :
    ¬(contentMachine sampleQt).Always (CiphertextOnly sampleQt 0) sampleDb noteEdit := by
  intro h
  have hrow : ∃ m ∈ ((contentMachine sampleQt).run sampleDb noteEdit).messages.rows,
      m.id = 1 ∧ m.content = "hello" ∧ m.deleted = false ∧ m.conversationId = 1 := by
    decide +kernel
  obtain ⟨m, hm, hid, hcontent, hlive, hconv⟩ := hrow
  have hprivate : (((contentMachine sampleQt).run sampleDb noteEdit).getConversation 1).map (·.type)
      = some .privateType := by decide +kernel
  obtain ⟨c, hc, htype⟩ := Option.map_eq_some_iff.mp hprivate
  have hsealed := (h.last m hm (by omega) hlive c (hconv ▸ hc)).1 htype
  rw [hcontent] at hsealed
  exact absurd hsealed (by decide +kernel)

end XYChat.Server
