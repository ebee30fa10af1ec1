import XYChat.Client.EventCursor
import XYChat.Client.PendingEdit

/-!
# Edits and their responses

A response under the id that the client waits for is taken for the answer to the text it
remembers, whatever edit was begun since. This file gives the condition on the calls
under which the text a message has on this device is that of the last edit the server
accepted.
-/

namespace XYChat.Client

open Lib
open NetworkManager (codeOf)

/-! ## Responses -/

/-- The client, the rows of its open local store, the table `decrypt_cache` of that
store, and the decrypted texts in memory. -/
structure EditingDevice where
  client : NetworkManager := {}
  messages : IntMap CachedMessage := .empty
  decryptedContents : IntMap String := .empty
  decryptCache : IntMap String := .empty

namespace EditingDevice

def store (d : EditingDevice) : LocalStore :=
  { opened := d.client.localStore.isSome, messages := d.messages }

variable (cipher : TextCipher)

/-- `LocalStore::clearDecryptedContent`. -/
def clearDecryptedContent (messageId : Int) (d : EditingDevice) : EditingDevice :=
  if !d.store.opened || messageId ≤ 0 then d
  else { d with decryptedContents := d.decryptedContents.erase messageId }

/-- `LocalStore::saveDecryptedContent`. -/
def saveDecryptedContent (r : Nat) (messageId : Int) (plaintext : String) (d : EditingDevice) :
    EditingDevice :=
  if !d.store.opened || messageId ≤ 0 || plaintext = "" then d
  else
    let enc := cipher.encryptText r plaintext
    if enc = "" then d
    else { d with decryptedContents := d.decryptedContents.insert messageId enc }

def updateMessageContent (r : Nat) (messageId : Int) (plaintext editedAt : String)
    (d : EditingDevice) : EditingDevice :=
  { d with messages := (d.store.updateMessageContent cipher r messageId plaintext editedAt).2.messages }

/-- The response to the request that is out. The text is the one remembered now. -/
def editAnswered (r : Nat) (d : EditingDevice) (response : Json) : EditingDevice :=
  let d := { d with client := { d.client with pendingEditMessageRequestId := 0 } }
  if codeOf response ErrorCode.ok.code ≠ ErrorCode.ok.code then
    { d with client := d.client.clearPendingEdit }
  else
    let data := response.value "data"
    let messageId := (data.value "messageId").toLongLong
    let editedAt := (data.value "editedAt").toStr ""
    let plaintext := d.client.pendingEditContent
    let d := { d with decryptCache := d.decryptCache.erase messageId }
    let d :=
      if d.store.opened then
        let d := d.clearDecryptedContent messageId
        if plaintext ≠ "" then
          (d.updateMessageContent cipher r messageId plaintext editedAt).saveDecryptedContent cipher
            (r + 1) messageId plaintext
        else d
      else d
    { d with client := d.client.clearPendingEdit }

/-- The edit of another member, or of another device of this user. -/
def editPushed (r : Nat) (decryptEditContent : Json → Option String) (d : EditingDevice)
    (data : Json) : EditingDevice :=
  let messageId := (data.value "messageId").toLongLong
  let editedAt := (data.value "editedAt").toStr ""
  if isOwn d.client.userId d.client.localDeviceId data then d
  else
    match decryptEditContent data with
    | some plaintext =>
        if d.store.opened then d.updateMessageContent cipher r messageId plaintext editedAt else d
    | none =>
        if d.store.loadMessageContent cipher messageId = "" then d
        else { d with messages := (d.store.markMessageEdited messageId editedAt).2.messages }

/-- `handleEditMessageResponse`: the response of this client's request, or a push. -/
def handleEditMessageResponse (r : Nat) (decryptEditContent : Json → Option String)
    (d : EditingDevice) (requestId : Nat) (response : Json) : EditingDevice :=
  if requestId ≠ 0 ∧ requestId ≠ d.client.pendingEditMessageRequestId then d
  else if requestId ≠ 0 then d.editAnswered cipher r response
  else d.editPushed cipher r decryptEditContent response

end EditingDevice

/-! ## The run -/

/-- What the server answers to an edit. -/
inductive EditAnswer where
  | accepted (members : List (String × Json))
  | refused (code : ErrorCode) (message : String) (hcode : code ≠ .ok)

namespace EditAnswer

def accepts : EditAnswer → Bool
  | .accepted _ => true
  | .refused .. => false

/-- The data of an edit that was accepted starts with the id of its message. -/
def response (messageId : Int) : EditAnswer → Json
  | .accepted members => .obj
      [ ("code", .int ErrorCode.ok.code), ("message", .str "OK")
      , ("data", .obj (("messageId", .int messageId) :: members)) ]
  | .refused code message _ => .obj [("code", .int code.code), ("message", .str message)]

end EditAnswer

/-- The device and the edits that are on their way: requests the server has not
answered, answers that have not arrived, requests whose connection is gone. The last two
members are history: what the server has accepted, and the texts at the start. -/
structure EditRun where
  device : EditingDevice := {}
  waiting : List EditRequest := []
  answered : List (EditRequest × EditAnswer) := []
  orphaned : List EditRequest := []
  accepted : List EditRequest := []
  original : Int → String

/-- A call into the client; the server answers the oldest request; the oldest answer
arrives; the server accepts a request whose connection is gone. -/
inductive EditOp where
  | call (o : Outside) (c : EditingCall)
  | answer (a : EditAnswer)
  | arrive (r : Nat)
  | acceptOrphan (i : Nat)

namespace EditRun

variable (qt : Qt) (crypto : Crypto) (host : Host) (cipher : TextCipher)

/-- The requests to which a response is still to come. -/
def unanswered (s : EditRun) : List EditRequest := s.answered.map (·.1) ++ s.waiting

/-- The text of a message on this device. -/
def localText (s : EditRun) (messageId : Int) : String :=
  LocalStore.loadMessageContent cipher { opened := true, messages := s.device.messages } messageId

/-- The text of the last edit that the server accepted, else the one from the start. -/
def due (s : EditRun) (messageId : Int) : String :=
  match s.accepted.reverse.find? (·.messageId == messageId) with
  | some x => x.plaintext
  | none => s.original messageId

def step (s : EditRun) : EditOp → EditRun
  | .call o c =>
      let client := (c.toCall s.device.client).apply qt crypto host o s.device.client
      let s' := { s with device := { s.device with client } }
      match c with
      | .disconnected =>
          { s' with waiting := [], answered := [], orphaned := s.orphaned ++ s.waiting }
      | _ => { s' with waiting := s.waiting ++ writtenEdits s.device.client client }
  | .answer a =>
      match s.waiting with
      | [] => s
      | x :: rest =>
          { s with
            waiting := rest
            answered := s.answered ++ [(x, a)]
            accepted := if a.accepts then s.accepted ++ [x] else s.accepted }
  | .arrive r =>
      match s.answered with
      | [] => s
      | (x, a) :: rest =>
          { s with
            answered := rest
            device := s.device.handleEditMessageResponse cipher r (fun _ => none) x.requestId
              (a.response x.messageId) }
  | .acceptOrphan i =>
      match s.orphaned[i]? with
      | none => s
      | some x => { s with orphaned := s.orphaned.eraseIdx i, accepted := s.accepted ++ [x] }

end EditRun

def editMachine (qt : Qt) (crypto : Crypto) (host : Host) (cipher : TextCipher) :
    Machine EditRun EditOp where
  init s :=
    s.unanswered = [] ∧ s.orphaned = [] ∧ s.accepted = [] ∧ 0 < s.device.client.nextRequestId ∧
      ∀ messageId, s.original messageId = s.localText cipher messageId
  step := EditRun.step qt crypto host cipher

/-- **Edits reach their messages**: the text of a message to which no response is still to
come is the one that is due. -/
def EditsReach (cipher : TextCipher) (s : EditRun) : Prop :=
  ∀ messageId, 0 < messageId → (s.device.messages.find messageId).isSome →
    (∀ x ∈ s.unanswered, x.messageId ≠ messageId) → s.localText cipher messageId = s.due messageId

/-! ## The condition -/

/-- An edit is begun, and gone on with, when no response to one is still to come; the
connection is not lost, nor the store closed, before the response to an edit that the
server accepts has arrived. -/
def EditRun.OneAtATime (s : EditRun) : EditOp → Prop
  | .call _ c =>
      (s.device.client.TouchesEdit c → s.unanswered = []) ∧
        (c = .disconnected → ∀ p ∈ s.answered, p.2.accepts = false)
  | .answer _ => True
  | .arrive _ =>
      ∀ p ∈ s.answered.head?, p.2.accepts = true → s.device.client.localStore.isSome
  | .acceptOrphan i => s.orphaned.length ≤ i

instance (s : EditRun) : ∀ op, Decidable (s.OneAtATime op)
  | .call _ c =>
      have : Decidable (c = .disconnected) := by
        cases c <;> first | exact isTrue rfl | exact isFalse (fun h => by cases h)
      inferInstanceAs (Decidable ((_ → _) ∧ (_ → _)))
  | .answer _ => isTrue trivial
  | .arrive _ => inferInstanceAs (Decidable (∀ p ∈ s.answered.head?, _))
  | .acceptOrphan i => inferInstanceAs (Decidable (s.orphaned.length ≤ i))

/-! ## What an answer does -/

section

variable {cipher : TextCipher} {d : EditingDevice} {x : EditRequest} {r : Nat}

theorem loadMessageContent_open {store : LocalStore} {messageId : Int}
    (hopen : store.opened = true) :
    LocalStore.loadMessageContent cipher { opened := true, messages := store.messages } messageId =
      store.loadMessageContent cipher messageId := by
  unfold LocalStore.loadMessageContent
  rw [hopen]

/-- The text of a row after a new one was written over the row of `messageId`. -/
theorem loadMessageContent_updated {store : LocalStore} {messageId id : Int}
    {plaintext editedAt : String} (hcipher : cipher.Correct) (hopen : store.opened = true)
    (hid : 0 < id) (hrow : (store.messages.find id).isSome) :
    LocalStore.loadMessageContent cipher
        (store.updateMessageContent cipher r messageId plaintext editedAt).2 id =
      if id = messageId then plaintext else store.loadMessageContent cipher id := by
  obtain ⟨row, hfind⟩ := Option.isSome_iff_exists.mp hrow
  have hwritten : ¬(cipher.encryptText r plaintext = "" ∧ plaintext ≠ "") := fun h =>
    h.2 (hcipher.encryptText_eq_nil.mp h.1)
  have hguard : ∀ k : Int, 0 < k → (!store.opened || decide (k ≤ 0)) = false := fun k hk => by
    rw [hopen, decide_eq_false (not_le.mpr hk)]
    rfl
  unfold LocalStore.updateMessageContent
  by_cases hpos : messageId ≤ 0
  · rw [if_pos (by simp [hpos]), if_neg (by omega)]
  rw [hguard messageId (not_le.mp hpos), if_neg Bool.false_ne_true, if_neg hwritten]
  unfold LocalStore.loadMessageContent
  dsimp only
  rw [hguard id hid, if_neg Bool.false_ne_true, if_neg Bool.false_ne_true, IntMap.find_update, hfind,
    Option.map_some]
  by_cases hsame : id = messageId
  · rw [if_pos hsame, if_pos (beq_iff_eq.mpr hsame)]
    have hreadable : ¬(Cell.integer 0).toInt ≠ 0 := by decide
    exact (if_neg hreadable).trans hcipher.decryptText_encryptText
  · rw [if_neg hsame, if_neg (by simpa using hsame)]

/-- The rows are those that were there. -/
theorem updateMessageContent_find {store : LocalStore} {messageId id : Int}
    {plaintext editedAt : String} :
    ((store.updateMessageContent cipher r messageId plaintext editedAt).2.messages.find id).isSome ↔
      (store.messages.find id).isSome := by
  unfold LocalStore.updateMessageContent
  dsimp only
  split
  · rfl
  split
  · rfl
  · dsimp only
    rw [IntMap.find_update, Option.isSome_map]

theorem clearDecryptedContent_same {messageId : Int} :
    (d.clearDecryptedContent messageId).client = d.client ∧
      (d.clearDecryptedContent messageId).store = d.store := by
  unfold EditingDevice.clearDecryptedContent
  split <;> exact ⟨rfl, rfl⟩

theorem saveDecryptedContent_same {messageId : Int} {plaintext : String} :
    (d.saveDecryptedContent cipher r messageId plaintext).client = d.client ∧
      (d.saveDecryptedContent cipher r messageId plaintext).messages = d.messages := by
  unfold EditingDevice.saveDecryptedContent
  dsimp only
  split_ifs <;> exact ⟨rfl, rfl⟩

theorem codeOf_response {messageId : Int} {a : EditAnswer} :
    codeOf (a.response messageId) ErrorCode.ok.code = ErrorCode.ok.code ↔ a.accepts = true := by
  cases a with
  | accepted members => exact ⟨fun _ => rfl, fun _ => rfl⟩
  | refused code message hcode =>
      have hread : codeOf (EditAnswer.response messageId (.refused code message hcode))
          ErrorCode.ok.code = code.code := by cases code <;> rfl
      have hother : code.code ≠ ErrorCode.ok.code := by
        cases code <;> first | exact absurd rfl hcode | decide
      exact ⟨fun h => absurd (hread.symm.trans h) hother, nofun⟩

/-- A refusal changes no text. -/
theorem handle_refused {a : EditAnswer} (hx : d.client.Awaits x) (ha : a.accepts = false) :
    d.handleEditMessageResponse cipher r (fun _ => none) x.requestId (a.response x.messageId) =
      { d with client :=
        ({ d.client with pendingEditMessageRequestId := 0 } : NetworkManager).clearPendingEdit } := by
  have hpos := hx.pos
  unfold EditingDevice.handleEditMessageResponse
  rw [if_neg (fun h => h.2 hx.requestId.symm), if_pos (by omega)]
  unfold EditingDevice.editAnswered
  dsimp only
  rw [if_pos (fun h => by rw [codeOf_response.mp h] at ha; cases ha)]

/-- The remembered text is written over the message that the response names. -/
theorem editAnswered_accepted {response : Json}
    (hcode : codeOf response ErrorCode.ok.code = ErrorCode.ok.code)
    (hopen : d.client.localStore.isSome) (htext : d.client.pendingEditContent ≠ "") :
    (d.editAnswered cipher r response).client.nextRequestId = d.client.nextRequestId ∧
      ∃ editedAt, (d.editAnswered cipher r response).messages =
        (d.store.updateMessageContent cipher r ((response.value "data").value "messageId").toLongLong
          d.client.pendingEditContent editedAt).2.messages := by
  unfold EditingDevice.editAnswered
  dsimp only
  rw [if_neg (not_not.mpr hcode)]
  generalize ((response.value "data").value "messageId").toLongLong = messageId
  generalize hanswered : ({ d with
    client := { d.client with pendingEditMessageRequestId := 0 }
    decryptCache := d.decryptCache.erase messageId } : EditingDevice) = d₁
  have hsame : d₁.client.pendingEditContent = d.client.pendingEditContent ∧
      d₁.client.nextRequestId = d.client.nextRequestId ∧ d₁.store = d.store := by
    rw [← hanswered]
    exact ⟨rfl, rfl, rfl⟩
  have hopened : d₁.store.opened = true := by
    rw [hsame.2.2]
    exact hopen
  rw [if_pos hopened, if_pos htext]
  refine ⟨?_, ((response.value "data").value "editedAt").toStr "", ?_⟩
  · show (EditingDevice.saveDecryptedContent _ _ _ _ _).client.nextRequestId = _
    rw [saveDecryptedContent_same.1]
    show (d₁.clearDecryptedContent messageId).client.nextRequestId = _
    rw [clearDecryptedContent_same.1, hsame.2.1]
  · show (EditingDevice.saveDecryptedContent _ _ _ _ _).messages = _
    rw [saveDecryptedContent_same.2]
    show ((d₁.clearDecryptedContent messageId).store.updateMessageContent _ _ _ _ _).2.messages = _
    rw [clearDecryptedContent_same.2, hsame.2.2]

/-- **An accepted edit** whose response is awaited becomes the text of its message. -/
theorem handle_accepted {a : EditAnswer} (hx : d.client.Awaits x) (ha : a.accepts = true)
    (hopen : d.client.localStore.isSome) :
    (d.handleEditMessageResponse cipher r (fun _ => none) x.requestId
        (a.response x.messageId)).client.nextRequestId = d.client.nextRequestId ∧
      ∃ editedAt, (d.handleEditMessageResponse cipher r (fun _ => none) x.requestId
          (a.response x.messageId)).messages =
        (d.store.updateMessageContent cipher r x.messageId x.plaintext editedAt).2.messages := by
  have hpos := hx.pos
  have htext : d.client.pendingEditContent ≠ "" := by
    rw [hx.text]
    exact hx.nonempty
  unfold EditingDevice.handleEditMessageResponse
  rw [if_neg (fun h => h.2 hx.requestId.symm), if_pos (by omega), ← hx.text]
  cases a with
  | refused => cases ha
  | accepted members => exact editAnswered_accepted rfl hopen htext

end

/-! ## The invariant -/

/-- At most one response is still to come, and the client waits for it; a text is as it is
due unless an answer that changes it is on its way. -/
structure EditsKept (cipher : TextCipher) (s : EditRun) : Prop where
  nextRequestId : 0 < s.device.client.nextRequestId
  single : s.unanswered.length ≤ 1
  awaited : ∀ x ∈ s.unanswered, s.device.client.Awaits x
  newest : ∀ p ∈ s.answered, p.2.accepts = true → s.due p.1.messageId = p.1.plaintext
  texts : ∀ messageId, 0 < messageId → (s.device.messages.find messageId).isSome →
    (∀ p ∈ s.answered, p.2.accepts = true → p.1.messageId ≠ messageId) →
      s.localText cipher messageId = s.due messageId

section

variable {qt : Qt} {crypto : Crypto} {host : Host} {cipher : TextCipher} {s s' : EditRun}

theorem EditsKept.reach (h : EditsKept cipher s) : EditsReach cipher s :=
  fun messageId hpos hrow hnone => h.texts messageId hpos hrow fun p hp _ =>
    hnone p.1 (List.mem_append_left _ (List.mem_map_of_mem hp))

/-- The edit that was accepted last is due. -/
theorem due_accepted {x : EditRequest} (haccepted : s'.accepted = s.accepted ++ [x])
    (horiginal : s'.original = s.original) (messageId : Int) :
    s'.due messageId = if x.messageId = messageId then x.plaintext else s.due messageId := by
  unfold EditRun.due
  rw [haccepted, horiginal, List.reverse_append, List.reverse_singleton, List.singleton_append,
    List.find?_cons]
  by_cases hsame : x.messageId = messageId
  · rw [if_pos hsame, beq_iff_eq.mpr hsame]
  · rw [if_neg hsame, beq_eq_false_iff_ne.mpr hsame]

/-- A call that keeps the connection. -/
theorem EditsKept.call {o : Outside} {client : NetworkManager} (h : EditsKept cipher s)
    (hwrites : WritesEdit qt crypto host o s.device.client client)
    (hleaves : LeavesEdit s.device.client client ∨ s.unanswered = []) :
    EditsKept cipher { s with
      device := { s.device with client }
      waiting := s.waiting ++ writtenEdits s.device.client client } where
  nextRequestId := h.nextRequestId.trans_le hwrites.nextRequestId
  single := by
    unfold EditRun.unanswered
    dsimp only
    rw [← List.append_assoc]
    show (s.unanswered ++ _).length ≤ 1
    rcases hleaves with hleaves | hnone
    · rw [hleaves.writtenEdits_eq, List.append_nil]
      exact h.single
    · rw [hnone, List.nil_append]
      exact hwrites.single
  awaited x hx := by
    unfold EditRun.unanswered at hx
    dsimp only at hx
    rw [← List.append_assoc] at hx
    rcases List.mem_append.mp hx with hold | hnew
    · rcases hleaves with hleaves | hnone
      · exact hleaves.awaits (h.awaited x hold)
      · have hold : x ∈ s.unanswered := hold
        rw [hnone] at hold
        cases hold
    · exact hwrites.awaited x hnew
  newest := h.newest
  texts := h.texts

/-- The connection is lost before no answer that changes a text. -/
theorem EditsKept.disconnect {client : NetworkManager} {orphaned : List EditRequest}
    (h : EditsKept cipher s) (hnext : s.device.client.nextRequestId ≤ client.nextRequestId)
    (hrefused : ∀ p ∈ s.answered, p.2.accepts = false) :
    EditsKept cipher { s with
      device := { s.device with client }
      waiting := [], answered := [], orphaned } where
  nextRequestId := h.nextRequestId.trans_le hnext
  single := Nat.zero_le _
  awaited x hx := by cases hx
  newest p hp := by cases hp
  texts messageId hpos hrow _ := h.texts messageId hpos hrow fun p hp haccepts => by
    rw [hrefused p hp] at haccepts
    cases haccepts

/-- The server answers the request that it has. -/
theorem EditsKept.answer {x : EditRequest} {rest : List EditRequest} (h : EditsKept cipher s)
    (hwaiting : s.waiting = x :: rest) (a : EditAnswer) :
    EditsKept cipher { s with
      waiting := rest
      answered := s.answered ++ [(x, a)]
      accepted := if a.accepts then s.accepted ++ [x] else s.accepted } := by
  have hsame : s.answered = [] ∧ rest = [] := by
    have hsingle := h.single
    unfold EditRun.unanswered at hsingle
    rw [hwaiting, List.length_append, List.length_map, List.length_cons] at hsingle
    exact ⟨List.length_eq_zero_iff.mp (by omega), List.length_eq_zero_iff.mp (by omega)⟩
  obtain ⟨hanswered, rfl⟩ := hsame
  have hunanswered : s.unanswered = [x] := by
    unfold EditRun.unanswered
    rw [hanswered, hwaiting]
    rfl
  have hdue : ∀ messageId, EditRun.due { s with
      waiting := [], answered := s.answered ++ [(x, a)]
      accepted := if a.accepts then s.accepted ++ [x] else s.accepted } messageId =
      if a.accepts = true ∧ x.messageId = messageId then x.plaintext else s.due messageId := by
    intro messageId
    by_cases haccepts : a.accepts = true
    · rw [if_congr (and_iff_right haccepts) rfl rfl]
      refine due_accepted ?_ ?_ messageId
      · exact if_pos haccepts
      · rfl
    · rw [if_neg fun hit : a.accepts = true ∧ x.messageId = messageId => haccepts hit.1]
      have hsame : (if a.accepts = true then s.accepted ++ [x] else s.accepted) = s.accepted :=
        if_neg haccepts
      unfold EditRun.due
      dsimp only
      rw [hsame]
  constructor
  · exact h.nextRequestId
  · unfold EditRun.unanswered
    rw [hanswered]
    exact Nat.le_refl _
  · intro y hy
    unfold EditRun.unanswered at hy
    rw [hanswered] at hy
    obtain rfl := List.mem_singleton.mp hy
    exact h.awaited y (by rw [hunanswered]; exact List.mem_singleton_self _)
  · intro p hp haccepts
    rw [hanswered] at hp
    obtain rfl := List.mem_singleton.mp hp
    rw [hdue, if_pos ⟨haccepts, rfl⟩]
  · intro messageId hpos hrow hothers
    have hother : ¬(a.accepts = true ∧ x.messageId = messageId) := fun hit =>
      hothers (x, a) (List.mem_append_right _ (List.mem_singleton_self _)) hit.1 hit.2
    rw [hdue, if_neg hother]
    exact h.texts messageId hpos hrow fun p hp => by
      rw [hanswered] at hp
      cases hp

/-- An answer arrives. -/
theorem EditsKept.arrive {x : EditRequest} {a : EditAnswer}
    {rest : List (EditRequest × EditAnswer)} (hcipher : cipher.Correct) (h : EditsKept cipher s)
    (hanswered : s.answered = (x, a) :: rest) (r : Nat)
    (hopen : a.accepts = true → s.device.client.localStore.isSome) :
    EditsKept cipher { s with
      answered := rest
      device := s.device.handleEditMessageResponse cipher r (fun _ => none) x.requestId
        (a.response x.messageId) } := by
  have hsame : rest = [] ∧ s.waiting = [] := by
    have hsingle := h.single
    unfold EditRun.unanswered at hsingle
    rw [hanswered, List.length_append, List.length_map, List.length_cons] at hsingle
    exact ⟨List.length_eq_zero_iff.mp (by omega), List.length_eq_zero_iff.mp (by omega)⟩
  obtain ⟨rfl, hwaiting⟩ := hsame
  have hawaits : s.device.client.Awaits x := by
    refine h.awaited x (List.mem_append_left _ ?_)
    rw [hanswered]
    exact List.mem_singleton_self _
  have hnone : ∀ d : EditingDevice, EditRun.unanswered { s with answered := [], device := d } = [] := by
    intro d
    unfold EditRun.unanswered
    dsimp only
    rw [hwaiting]
    rfl
  cases haccepts : a.accepts with
  | false =>
      rw [handle_refused hawaits haccepts]
      constructor
      · exact h.nextRequestId
      · rw [hnone]
        exact Nat.zero_le _
      · intro y hy
        rw [hnone] at hy
        cases hy
      · exact fun p hp => by cases hp
      · refine fun messageId hpos hrow _ => h.texts messageId hpos hrow fun p hp haccepted => ?_
        rw [hanswered] at hp
        obtain rfl := List.mem_singleton.mp hp
        rw [haccepts] at haccepted
        cases haccepted
  | true =>
      have hdue := h.newest (x, a) (by rw [hanswered]; exact List.mem_singleton_self _) haccepts
      have hopened := hopen haccepts
      obtain ⟨hnext, editedAt, hmessages⟩ := @handle_accepted cipher _ _ r _ hawaits haccepts hopened
      constructor
      · exact h.nextRequestId.trans_eq hnext.symm
      · rw [hnone]
        exact Nat.zero_le _
      · intro y hy
        rw [hnone] at hy
        cases hy
      · exact fun p hp => by cases hp
      · intro messageId hpos hrow _
        dsimp only at hrow
        have hrowed : (s.device.messages.find messageId).isSome := by
          rw [hmessages] at hrow
          exact updateMessageContent_find.mp hrow
        have hloaded := @loadMessageContent_updated cipher r s.device.store x.messageId messageId
          x.plaintext editedAt hcipher hopened hpos hrowed
        have htext : EditRun.localText cipher { s with
            answered := []
            device := s.device.handleEditMessageResponse cipher r (fun _ => none) x.requestId
              (a.response x.messageId) } messageId =
            if messageId = x.messageId then x.plaintext else s.localText cipher messageId := by
          unfold EditRun.localText
          dsimp only
          rw [hmessages, loadMessageContent_open (updateMessageContent_opened.trans hopened), hloaded]
          exact if_congr Iff.rfl rfl (@loadMessageContent_open _ s.device.store _ hopened).symm
        rw [htext]
        by_cases hsame : messageId = x.messageId
        · rw [if_pos hsame, hsame]
          exact hdue.symm
        · rw [if_neg hsame]
          refine h.texts messageId hpos hrowed fun p hp _ => ?_
          rw [hanswered] at hp
          obtain rfl := List.mem_singleton.mp hp
          exact fun hid => hsame hid.symm

/-- **Step.** -/
theorem EditsKept.step {op : EditOp} (hcipher : cipher.Correct) (h : EditsKept cipher s)
    (hop : s.OneAtATime op) : EditsKept cipher (s.step qt crypto host cipher op) := by
  cases op with
  | call o c =>
      have hwrites : WritesEdit qt crypto host o s.device.client
          ((c.toCall s.device.client).apply qt crypto host o s.device.client) :=
        apply_writesEdit h.nextRequestId
      have hleaves : LeavesEdit s.device.client
          ((c.toCall s.device.client).apply qt crypto host o s.device.client) ∨
          s.unanswered = [] := by
        by_cases htouches : s.device.client.TouchesEdit c
        · exact .inr (hop.1 htouches)
        · exact .inl (apply_leavesEdit htouches)
      by_cases hlost : c = .disconnected
      · subst hlost
        exact h.disconnect hwrites.nextRequestId (hop.2 rfl)
      · have hstep := h.call hwrites hleaves
        cases c with
        | disconnected => exact absurd rfl hlost
        | _ => exact hstep
  | answer a =>
      unfold EditRun.step
      dsimp only
      split
      · exact h
      · rename_i x rest hwaiting
        exact h.answer hwaiting a
  | arrive r =>
      unfold EditRun.step
      dsimp only
      split
      · exact h
      · rename_i x a rest hanswered
        refine h.arrive hcipher hanswered r (hop (x, a) ?_)
        rw [hanswered]
        rfl
  | acceptOrphan i =>
      have hnone : s.orphaned[i]? = none := List.getElem?_eq_none_iff.mpr hop
      unfold EditRun.step
      dsimp only
      rw [hnone]
      exact h

/-- **Edits reach their messages**, however edits, key fetches, sends, responses and lost
connections interleave, as long as edits are made one at a time. -/
theorem editsReach_of_oneAtATime {ops : List EditOp} (hcipher : cipher.Correct)
    (hs : (editMachine qt crypto host cipher).init s)
    (h : (editMachine qt crypto host cipher).Along EditRun.OneAtATime s ops) :
    (editMachine qt crypto host cipher).Always (EditsReach cipher) s ops := by
  obtain ⟨hunanswered, horphaned, haccepted, hpos, horiginal⟩ := hs
  have hstart : EditsKept cipher s :=
    { nextRequestId := hpos
      single := by rw [hunanswered]; exact Nat.zero_le _
      awaited := fun x hx => by rw [hunanswered] at hx; cases hx
      newest := fun p hp => by
        have hmem : p.1 ∈ s.unanswered := List.mem_append_left _ (List.mem_map_of_mem hp)
        rw [hunanswered] at hmem
        cases hmem
      texts := fun messageId _ _ _ => by
        unfold EditRun.due
        rw [haccepted]
        exact (horiginal messageId).symm }
  exact (Machine.always_of_along (fun _ _ h hop => h.step hcipher hop) hstart h).mono
    fun _ h => h.reach

end

/-! ## Two edits at a time -/

def sentText (text : String) : CachedMessage where
  conversationId := 7
  senderId := 1
  senderUsername := "alice"
  contentEnc := plainCipher.encryptText 0 text
  contentType := "text"
  status := "sent"
  statusRank := 1
  undecryptable := .integer 0
  clientMessageId := ""
  createdAt := ""

/-- Alice is signed in, and has sent bob two messages. -/
def aliceEditing : EditRun where
  device :=
    { client := sharedClient.run {} ([ .login "alice" "", .connected, loggedIn 1 "alice"
        , .packet .registerKeysResponse 3 (.obj [("code", .int 0)]) ].map ((calmOutside, ·)))
      messages := (IntMap.empty.insert 1 (sentText "one")).insert 2 (sentText "two") }
  original messageId := LocalStore.loadMessageContent plainCipher
    { opened := true
      messages := (IntMap.empty.insert 1 (sentText "one")).insert 2 (sentText "two") } messageId

def editOf (messageId : Int) (newContent : String) : EditOp :=
  .call calmOutside (.editMessage 7 3 messageId newContent)

/-- Bob's bundles. -/
def bundlesFor (requestId : Nat) : EditOp :=
  .call calmOutside (.keysFetched requestId (.obj
    [ ("code", .int 0)
    , ("data", .obj [("bundles", .arr [.obj [("deviceId", .str "d"), ("prekeyId", .int 1)]])]) ]))

def editsOf : Machine EditRun EditOp := editMachine offlineQt flatCrypto sharedHost plainCipher

/-- One edit is accepted, and after it another is refused. -/
def oneThenTwo : List EditOp :=
  [ editOf 1 "uno", bundlesFor 4, .answer (.accepted []), .arrive 0
  , editOf 2 "due", bundlesFor 6, .answer (.refused .rateLimited "" (by decide)), .arrive 0 ]

theorem editsReach_oneThenTwo : editsOf.Always (EditsReach plainCipher) aliceEditing oneThenTwo :=
  editsReach_of_oneAtATime plainCipher_correct
    ⟨rfl, rfl, rfl, by decide +kernel, fun _ => rfl⟩ (by decide +kernel)

/-- The second edit is begun before the response to the first arrives. -/
def twoAtATime : List EditOp :=
  [editOf 1 "uno", bundlesFor 4, editOf 2 "due", .answer (.accepted []), .arrive 0]

/-- Keys for a message to bob are refused before the response to the edit arrives. -/
def keysRefused : List EditOp :=
  [ editOf 1 "uno", bundlesFor 4, .call calmOutside (.sendMessage "c" 3 "hi")
  , .call calmOutside (.keysFetched 6 (.obj [("code", .int ErrorCode.rateLimited.code)]))
  , .answer (.accepted []), .arrive 0 ]

/-- The connection is lost before the response to the edit arrives. -/
def answerLost : List EditOp :=
  [ editOf 1 "uno", bundlesFor 4, .answer (.accepted []), .call calmOutside .disconnected ]

/-- **The defect**: the one text that is remembered is taken for the edit whose response
arrives. -/
theorem editsReach_twoAtATime :
    editsOf.init aliceEditing ∧
      ¬editsOf.Always (EditsReach plainCipher) aliceEditing twoAtATime ∧
      ¬editsOf.Always (EditsReach plainCipher) aliceEditing keysRefused ∧
      ¬editsOf.Always (EditsReach plainCipher) aliceEditing answerLost := by
  refine ⟨⟨rfl, rfl, rfl, by decide +kernel, fun _ => rfl⟩, fun h => ?_, fun h => ?_, fun h => ?_⟩
  · have hone := h.last 1 (by decide) (by decide +kernel) (by decide +kernel)
    revert hone
    decide +kernel
  · have hone := h.last 1 (by decide) (by decide +kernel) (by decide +kernel)
    revert hone
    decide +kernel
  · have hone := h.last 1 (by decide) (by decide +kernel) (by decide +kernel)
    revert hone
    decide +kernel

end XYChat.Client
