import XYChat.Client.OutboxIsolation

/-!
# The edit a client remembers

The client remembers one edit: its text, and the id of the request last sent for it. Most
calls leave both alone; an edit that is begun, and key bundles that are taken for it,
write at most one request, under the id that is then waited for.
-/

namespace XYChat.Client

open NetworkManager (codeOf)

/-! ## Edits and calls -/

/-- An edit request that was written, and the text that its content was made of. -/
structure EditRequest where
  requestId : Nat
  messageId : Int
  content : String
  plaintext : String
  deriving DecidableEq, Repr

/-- The edit request that was sent, by the text remembered for it. -/
def Sent.edit? (plaintext : String) (x : Sent) : Option EditRequest :=
  match x.request with
  | .editMessage messageId _ content _ => some ⟨x.requestId, messageId, content, plaintext⟩
  | _ => none

/-- The edit requests that a call has written. -/
def writtenEdits (s s' : NetworkManager) : List EditRequest :=
  (s'.sent.drop s.sent.length).filterMap (Sent.edit? s'.pendingEditContent)

/-- What happens at a client between edits: the user edits and sends, keys are fetched,
sends are answered, and the client loses its connection and signs in again as the same
user. -/
inductive EditingCall where
  | editMessage (conversationId peerUserId messageId : Int) (newContent : String)
  | sendMessage (clientMessageId : String) (toUserId : Int) (content : String)
  | sendGroupMessage (clientMessageId : String) (conversationId : Int) (content : String)
  | keysFetched (requestId : Nat) (response : Json)
  | groupKeysFetched (requestId : Nat) (response : Json)
  | sendAnswered (requestId : Nat) (response : Json)
  | flushTimer
  | disconnected
  | reconnectTimer
  | connected
  | loginAnswered (requestId : Nat) (code : Int) (token : String) (userId : Int)
  | keysRegistered (requestId : Nat) (response : Json)
  | bootstrapTimer

def EditingCall.toCall (s : NetworkManager) : EditingCall → ClientCall
  | .editMessage conversationId peerUserId messageId newContent =>
      .editMessage conversationId peerUserId messageId newContent
  | .sendMessage clientMessageId toUserId content => .sendMessage clientMessageId toUserId content
  | .sendGroupMessage clientMessageId conversationId content =>
      .sendGroupMessage clientMessageId conversationId content
  | .keysFetched requestId response => .packet .fetchKeysResponse requestId response
  | .groupKeysFetched requestId response => .packet .fetchGroupKeysResponse requestId response
  | .sendAnswered requestId response => .packet .sendMessageResponse requestId response
  | .flushTimer => .flushTimer
  | .disconnected => .disconnected
  | .reconnectTimer => .reconnectTimer
  | .connected => .connected
  | .loginAnswered requestId code token userId => .packet .loginResponse requestId (.obj
      [ ("code", .int code)
      , ("data", .obj [ ("username", .str s.pendingUsername), ("userId", .int userId)
                      , ("token", .str token) ]) ])
  | .keysRegistered requestId response => .packet .registerKeysResponse requestId response
  | .bootstrapTimer => .bootstrapTimer

/-- The key bundles, or their refusal, are taken for the edit that is pending. -/
def NetworkManager.FetchesForEdit (s : NetworkManager) (requestId : Nat) (response : Json) : Prop :=
  requestId = s.pendingFetchKeysRequestId ∧ s.pendingEditMessageId ≠ 0 ∧
    s.pendingEditPeerUserId = s.fetchKeysTargetUserId ∧
    (codeOf response 0 = ErrorCode.ok.code →
      ((response.value "data").value "bundles").toArray ≠ [])

/-- The call begins an edit, or goes on with the one that is pending. -/
def NetworkManager.TouchesEdit (s : NetworkManager) : EditingCall → Prop
  | .editMessage _ _ messageId newContent =>
      s.state = .authenticated ∧ 0 < messageId ∧ trimmed newContent ≠ ""
  | .keysFetched requestId response => s.FetchesForEdit requestId response
  | _ => False

instance (s : NetworkManager) (requestId : Nat) (response : Json) :
    Decidable (s.FetchesForEdit requestId response) :=
  inferInstanceAs (Decidable (_ ∧ _ ∧ _ ∧ (_ → _)))

instance (s : NetworkManager) : (c : EditingCall) → Decidable (s.TouchesEdit c)
  | .editMessage .. => inferInstanceAs (Decidable (_ ∧ _ ∧ _))
  | .keysFetched requestId response =>
      inferInstanceAs (Decidable (s.FetchesForEdit requestId response))
  | .sendMessage .. | .sendGroupMessage .. | .groupKeysFetched .. | .sendAnswered ..
  | .flushTimer | .disconnected | .reconnectTimer | .connected | .loginAnswered ..
  | .keysRegistered .. | .bootstrapTimer => isFalse id

/-! ## What a call leaves alone -/

/-- No edit is sent. -/
structure SendsNoEdit (s s' : NetworkManager) : Prop where
  nextRequestId : s.nextRequestId ≤ s'.nextRequestId
  sent : ∃ tail, s'.sent = s.sent ++ tail ∧
    ∀ x ∈ tail, x.request.messageType ≠ .editMessageRequest

/-- Neither is another text or request remembered. -/
structure LeavesEdit (s s' : NetworkManager) : Prop extends SendsNoEdit s s' where
  text : s'.pendingEditContent = s.pendingEditContent
  requestId : s'.pendingEditMessageRequestId = s.pendingEditMessageRequestId

theorem SendsNoEdit.trans {s s' s'' : NetworkManager} (h : SendsNoEdit s s')
    (h' : SendsNoEdit s' s'') : SendsNoEdit s s'' where
  nextRequestId := h.nextRequestId.trans h'.nextRequestId
  sent := by
    obtain ⟨tail, heq, htail⟩ := h.sent
    obtain ⟨tail', heq', htail'⟩ := h'.sent
    refine ⟨tail ++ tail', by rw [heq', heq, List.append_assoc], fun x hx => ?_⟩
    rcases List.mem_append.mp hx with hx | hx
    · exact htail x hx
    · exact htail' x hx

theorem SendsNoEdit.writtenEdits_eq {s s' : NetworkManager} (h : SendsNoEdit s s') :
    writtenEdits s s' = [] := by
  obtain ⟨tail, heq, htail⟩ := h.sent
  unfold writtenEdits
  rw [heq, List.drop_left]
  refine List.filterMap_eq_nil_iff.mpr fun x hx => ?_
  have hother := htail x hx
  unfold Sent.edit?
  split
  · rename_i hrequest
    rw [hrequest] at hother
    exact absurd rfl hother
  · rfl

namespace LeavesEdit

variable {s s' s'' : NetworkManager}

/-- Other members than these do not matter. -/
theorem of_same (htext : s'.pendingEditContent = s.pendingEditContent)
    (hrequest : s'.pendingEditMessageRequestId = s.pendingEditMessageRequestId)
    (hnext : s'.nextRequestId = s.nextRequestId) (hsent : s'.sent = s.sent) : LeavesEdit s s' where
  text := htext
  requestId := hrequest
  nextRequestId := hnext.ge
  sent := ⟨[], by rw [hsent, List.append_nil], fun _ h => by cases h⟩

theorem refl (s : NetworkManager) : LeavesEdit s s := .of_same rfl rfl rfl rfl

theorem trans (h : LeavesEdit s s') (h' : LeavesEdit s' s'') : LeavesEdit s s'' where
  toSendsNoEdit := h.toSendsNoEdit.trans h'.toSendsNoEdit
  text := h'.text.trans h.text
  requestId := h'.requestId.trans h.requestId

theorem foldl {α : Type} {f : NetworkManager → α → NetworkManager}
    (hf : ∀ s a, LeavesEdit s (f s a)) (l : List α) (s : NetworkManager) :
    LeavesEdit s (l.foldl f s) := by
  induction l generalizing s with
  | nil => exact .refl s
  | cons a l ih => exact (hf s a).trans (ih (f s a))

/-- One more packet, which is no edit. -/
theorem packet {qt : Qt} {o : Outside} {request : Request} (h : LeavesEdit s s')
    (hrequest : request.messageType ≠ .editMessageRequest) :
    LeavesEdit s (s'.sendPacket qt o request) := by
  refine h.trans ⟨⟨Nat.le_succ _, ?_⟩, rfl, rfl⟩
  unfold NetworkManager.sendPacket
  dsimp only
  split
  · exact ⟨[], (List.append_nil _).symm, fun _ hx => by cases hx⟩
  · refine ⟨_, rfl, fun x hx => ?_⟩
    obtain rfl := List.mem_singleton.mp hx
    exact hrequest

end LeavesEdit

section

variable {qt : Qt} {crypto : Crypto} {host : Host} {o : Outside} {s s' : NetworkManager}

theorem write_leavesEdit {call : DiskCall} {statement : TextCipher → Database → Option Database} :
    LeavesEdit s (s.write host o call statement) := by
  unfold NetworkManager.write
  split
  · exact .refl s
  · split
    · exact .of_same rfl rfl rfl rfl
    · exact .refl s
    · split
      · exact .refl s
      · exact .of_same rfl rfl rfl rfl

theorem openDatabase_leavesEdit {username deviceId : String} :
    LeavesEdit s (s.openDatabase o username deviceId) := by
  unfold NetworkManager.openDatabase
  split_ifs
  · exact .refl s
  · exact .refl s
  · exact .of_same rfl rfl rfl rfl
  · exact .refl s

/-! ### Sender keys -/

theorem insertSenderKey_leavesEdit {conversationId : Int} {key : GroupE2eeCrypto.SenderKey} :
    LeavesEdit s (s.insertSenderKey conversationId key) :=
  .of_same rfl rfl rfl rfl

theorem ensureGroupSenderKey_leavesEdit {conversationId : Int} :
    LeavesEdit s (s.ensureGroupSenderKey qt host o conversationId).1 := by
  unfold NetworkManager.ensureGroupSenderKey
  split
  · exact .refl s
  · split
    · exact .refl s
    · split
      · exact insertSenderKey_leavesEdit
      · exact .refl s

theorem encryptGroupMessage_leavesEdit {conversationId : Int} {iv : Bytes} {plaintext : String} :
    LeavesEdit s (s.encryptGroupMessage qt crypto host o conversationId iv plaintext).1 := by
  unfold NetworkManager.encryptGroupMessage
  have hensured : LeavesEdit s (s.ensureGroupSenderKey qt host o conversationId).1 :=
    ensureGroupSenderKey_leavesEdit
  generalize s.ensureGroupSenderKey qt host o conversationId = ensured at hensured ⊢
  obtain ⟨s₁, key⟩ := ensured
  cases key with
  | none => exact hensured
  | some key =>
      dsimp only
      split
      · exact hensured
      split
      · exact hensured.trans (write_leavesEdit.trans insertSenderKey_leavesEdit)
      · exact hensured.trans (write_leavesEdit.trans insertSenderKey_leavesEdit)

/-! ### Key fetches and flushes -/

theorem sendFetchKeysRequest_leavesEdit {toUserId : Int} :
    LeavesEdit s (s.sendFetchKeysRequest qt o toUserId) := by
  unfold NetworkManager.sendFetchKeysRequest
  refine LeavesEdit.packet ?_ nofun
  exact .of_same rfl rfl rfl rfl

theorem sendFetchGroupKeysRequest_leavesEdit {conversationId : Int} :
    LeavesEdit s (s.sendFetchGroupKeysRequest qt o conversationId) := by
  unfold NetworkManager.sendFetchGroupKeysRequest
  split
  · exact .refl s
  · refine LeavesEdit.packet ?_ nofun
    exact .of_same rfl rfl rfl rfl

theorem bootstrapE2ee_leavesEdit : LeavesEdit s (s.bootstrapE2ee qt o) := by
  unfold NetworkManager.bootstrapE2ee
  split
  · exact .refl s
  · dsimp only
    generalize (if s.identityKey.valid then s.identityKey else o.registration.identityKey) = key
    split
    · exact .refl s
    · refine LeavesEdit.packet ?_ nofun
      exact .of_same rfl rfl rfl rfl

theorem drainHealQueue_leavesEdit : LeavesEdit s (s.drainHealQueue qt o) := by
  unfold NetworkManager.drainHealQueue
  split
  · exact .refl s
  · split
    · exact .refl s
    · refine LeavesEdit.trans ?_ sendFetchGroupKeysRequest_leavesEdit
      exact .of_same rfl rfl rfl rfl

theorem flushGroupItems_leavesEdit {inFlight : List String} {items : List OutboxItem} :
    LeavesEdit s (NetworkManager.flushGroupItems qt crypto host o inFlight items s).1 := by
  induction items generalizing s with
  | nil => exact .refl s
  | cons item rest ih =>
      unfold NetworkManager.flushGroupItems
      split
      · exact ih
      · have hensured : LeavesEdit s (s.ensureGroupSenderKey qt host o item.conversationId).1 :=
          ensureGroupSenderKey_leavesEdit
        generalize s.ensureGroupSenderKey qt host o item.conversationId = ensured at hensured ⊢
        obtain ⟨s₁, key⟩ := ensured
        cases key with
        | none =>
            dsimp only at hensured ⊢
            split
            · exact hensured.trans sendFetchGroupKeysRequest_leavesEdit
            · exact hensured.trans ih
        | some key =>
            dsimp only at hensured ⊢
            have hencrypted : LeavesEdit s₁ (s₁.encryptGroupMessage qt crypto host o
                item.conversationId (o.groupIv item.clientMessageId) item.content).1 :=
              encryptGroupMessage_leavesEdit
            generalize s₁.encryptGroupMessage qt crypto host o item.conversationId
              (o.groupIv item.clientMessageId) item.content = encrypted at hencrypted ⊢
            obtain ⟨s₂, envelope⟩ := encrypted
            have h₂ := hensured.trans hencrypted
            cases envelope with
            | none => exact h₂.trans ih
            | some envelope =>
                refine LeavesEdit.trans (LeavesEdit.packet (h₂.trans ?_) ?_) ih
                · exact .of_same rfl rfl rfl rfl
                · rintro ⟨⟩

theorem flushTargets_leavesEdit {targets : List Int} :
    LeavesEdit s (NetworkManager.flushTargets qt o targets s) := by
  induction targets generalizing s with
  | nil => exact .refl s
  | cons target rest ih =>
      unfold NetworkManager.flushTargets
      split
      · exact .refl s
      · split
        · exact ih
        · exact sendFetchKeysRequest_leavesEdit.trans ih

theorem flushOutbox_leavesEdit : LeavesEdit s (s.flushOutbox qt crypto host o) := by
  unfold NetworkManager.flushOutbox
  split
  · exact .refl s
  · split
    · exact bootstrapE2ee_leavesEdit
    · dsimp only
      have hflushed : LeavesEdit s (NetworkManager.flushGroupItems qt crypto host o
          (s.pendingSendByRequestId.map (·.2)) s.outbox s).1 := flushGroupItems_leavesEdit
      generalize NetworkManager.flushGroupItems qt crypto host o
        (s.pendingSendByRequestId.map (·.2)) s.outbox s = flushed at hflushed ⊢
      obtain ⟨s₁, all⟩ := flushed
      cases all with
      | false => exact hflushed
      | true => exact hflushed.trans flushTargets_leavesEdit

theorem dropItem_leavesEdit {clientMessageId : String} :
    LeavesEdit s (s.dropItem host o clientMessageId) :=
  write_leavesEdit.trans (.of_same rfl rfl rfl rfl)

theorem enqueue_leavesEdit {item : OutboxItem} : LeavesEdit s (s.enqueue qt host o item) := by
  unfold NetworkManager.enqueue
  dsimp only
  have hstored : LeavesEdit s ((s.openForOutbox host o).addOutboxItem qt host o item) :=
    openDatabase_leavesEdit.trans write_leavesEdit
  exact hstored.trans (.of_same rfl rfl rfl rfl)

theorem sendMessage_leavesEdit {clientMessageId : String} {toUserId : Int} {content : String} :
    LeavesEdit s (s.sendMessage qt crypto host o clientMessageId toUserId content) := by
  unfold NetworkManager.sendMessage
  dsimp only
  split
  · exact enqueue_leavesEdit.trans flushOutbox_leavesEdit
  · exact enqueue_leavesEdit

theorem sendGroupMessage_leavesEdit {clientMessageId : String} {conversationId : Int}
    {content : String} :
    LeavesEdit s (s.sendGroupMessage qt crypto host o clientMessageId conversationId content) := by
  unfold NetworkManager.sendGroupMessage
  split
  · exact .refl s
  dsimp only
  split
  · exact enqueue_leavesEdit.trans flushOutbox_leavesEdit
  · exact enqueue_leavesEdit

/-! ### Responses -/

theorem sendUnder_leavesEdit {target : Int} {bundles : List Json} {inFlight : List String} :
    LeavesEdit s (s.sendUnder qt crypto host o target bundles inFlight) := by
  unfold NetworkManager.sendUnder
  split
  · exact .refl s
  · dsimp only
    split
    · exact dropItem_leavesEdit
    · refine LeavesEdit.packet ?_ nofun
      exact .of_same rfl rfl rfl rfl

/-- A refusal that is not taken for the pending edit. -/
theorem fetchKeysFailed_leavesEdit {target code : Int}
    (h : ¬(s.pendingEditMessageId ≠ 0 ∧ s.pendingEditPeerUserId = target)) :
    LeavesEdit s (s.fetchKeysFailed qt crypto host o target code) := by
  unfold NetworkManager.fetchKeysFailed
  rw [if_neg h]
  refine LeavesEdit.trans ?_ flushOutbox_leavesEdit
  split
  · have hremoved : LeavesEdit s ((s.outbox.filter (·.toUserId == target)).foldl
        (fun s item => s.removeOutboxItem host o item.clientMessageId) s) :=
      LeavesEdit.foldl (fun _ _ => write_leavesEdit) _ s
    exact hremoved.trans (.of_same rfl rfl rfl rfl)
  · exact .of_same rfl rfl rfl rfl

/-- Key bundles that are not taken for the pending edit. -/
theorem handleFetchKeysResponse_leavesEdit {requestId : Nat} {response : Json}
    (h : ¬s.FetchesForEdit requestId response) :
    LeavesEdit s (s.handleFetchKeysResponse qt crypto host o requestId response) := by
  unfold NetworkManager.handleFetchKeysResponse
  split
  · exact .refl s
  rename_i hpending
  have hrequest : requestId = s.pendingFetchKeysRequestId := not_not.mp hpending
  dsimp only
  split
  · rename_i hcode
    refine LeavesEdit.trans ?_ (fetchKeysFailed_leavesEdit fun hedit => ?_)
    · exact .of_same rfl rfl rfl rfl
    · exact h ⟨hrequest, hedit.1, hedit.2, fun hok => absurd hok hcode⟩
  refine LeavesEdit.trans (.of_same rfl rfl rfl rfl : LeavesEdit s { s with
    pendingFetchKeysRequestId := 0
    fetchKeysTargetUserId := 0
    fetchBackoffUntil := s.fetchBackoffUntil.filter (·.1 != s.fetchKeysTargetUserId) }) ?_
  split
  · exact flushOutbox_leavesEdit
  rename_i hbundles
  split
  · rename_i hedit
    refine absurd ⟨hrequest, hedit.1, hedit.2.1, fun _ hnone => hbundles ?_⟩ h
    rw [hnone]
    rfl
  · exact sendUnder_leavesEdit.trans flushOutbox_leavesEdit

theorem buildGroupSenderKeyDistribution_leavesEdit {conversationId : Int} {bundlesByUser : Json} :
    LeavesEdit s
      (s.buildGroupSenderKeyDistribution qt crypto host o conversationId bundlesByUser).1 := by
  unfold NetworkManager.buildGroupSenderKeyDistribution
  dsimp only
  split
  · exact .refl s
  · split
    · exact .refl s
    · exact write_leavesEdit.trans insertSenderKey_leavesEdit

theorem handleFetchGroupKeysResponse_leavesEdit {requestId : Nat} {response : Json} :
    LeavesEdit s (s.handleFetchGroupKeysResponse qt crypto host o requestId response) := by
  unfold NetworkManager.handleFetchGroupKeysResponse
  split
  · exact .refl s
  dsimp only
  have hcleared : LeavesEdit s
      { s with pendingFetchGroupKeysRequestId := 0, fetchGroupKeysTargetConvId := 0 } :=
    .of_same rfl rfl rfl rfl
  split
  · split
    · exact .of_same rfl rfl rfl rfl
    · exact hcleared.trans drainHealQueue_leavesEdit
  · generalize ({ s with pendingFetchGroupKeysRequestId := 0, fetchGroupKeysTargetConvId := 0 } :
      NetworkManager) = s₁ at hcleared ⊢
    have hbuilt : LeavesEdit s₁ (s₁.buildGroupSenderKeyDistribution qt crypto host o
        s.fetchGroupKeysTargetConvId ((response.value "data").value "bundles")).1 :=
      buildGroupSenderKeyDistribution_leavesEdit
    generalize s₁.buildGroupSenderKeyDistribution qt crypto host o s.fetchGroupKeysTargetConvId
      ((response.value "data").value "bundles") = built at hbuilt ⊢
    obtain ⟨s₂, dist⟩ := built
    have hbuilt := hcleared.trans hbuilt
    cases dist with
    | none => exact hbuilt.trans drainHealQueue_leavesEdit
    | some dist =>
        refine LeavesEdit.trans (LeavesEdit.packet (hbuilt.trans ?_) ?_) drainHealQueue_leavesEdit
        · exact .of_same rfl rfl rfl rfl
        · exact nofun

theorem handleSendMessageResponse_leavesEdit {requestId : Nat} {response : Json} :
    LeavesEdit s (s.handleSendMessageResponse qt crypto host o requestId response) := by
  unfold NetworkManager.handleSendMessageResponse
  split
  · exact .refl s
  · rename_i clientMessageId _
    dsimp only
    have hanswered : LeavesEdit s { s with
        pendingSendByRequestId := s.pendingSendByRequestId.filter (·.1 != requestId) } :=
      .of_same rfl rfl rfl rfl
    split
    · split
      · refine LeavesEdit.trans ?_ flushOutbox_leavesEdit
        have hacked : LeavesEdit s { s with
            pendingSendByRequestId := s.pendingSendByRequestId.filter (·.1 != requestId)
            pendingGroupDistributions := s.pendingGroupDistributions.filter
              (· != ((response.value "data").value "clientMessageId").toStr clientMessageId) } :=
          .of_same rfl rfl rfl rfl
        split
        · exact hacked.trans dropItem_leavesEdit
        · exact hacked
      · exact hanswered.trans dropItem_leavesEdit
    · split
      · split
        · exact hanswered
        · split
          · exact hanswered.trans dropItem_leavesEdit
          · exact hanswered
      · exact .of_same rfl rfl rfl rfl

theorem handleRegisterKeysResponse_leavesEdit {requestId : Nat} {response : Json} :
    LeavesEdit s (s.handleRegisterKeysResponse qt crypto host o requestId response) := by
  unfold NetworkManager.handleRegisterKeysResponse
  split
  · exact .refl s
  dsimp only
  split
  · refine LeavesEdit.trans (LeavesEdit.trans ?_ flushOutbox_leavesEdit) drainHealQueue_leavesEdit
    exact .of_same rfl rfl rfl rfl
  · exact .of_same rfl rfl rfl rfl

theorem retryBootstrap_leavesEdit : LeavesEdit s (s.retryBootstrap qt o) := by
  unfold NetworkManager.retryBootstrap
  split
  · exact bootstrapE2ee_leavesEdit
  · exact .refl s

/-! ### Signing in -/

theorem connectToServer_leavesEdit : LeavesEdit s (s.connectToServer host) := by
  unfold NetworkManager.connectToServer
  split
  · exact .refl s
  · split
    · exact .of_same rfl rfl rfl rfl
    · exact .of_same rfl rfl rfl rfl

theorem sendLoginRequest_leavesEdit : LeavesEdit s (s.sendLoginRequest qt host o) := by
  unfold NetworkManager.sendLoginRequest
  dsimp only
  have hsent : LeavesEdit s (NetworkManager.sendPacket qt o { s with
      localDeviceId := host.machineUniqueId, pendingLoginRequestId := s.nextRequestId }
      (.login s.pendingUsername s.pendingPassword host.machineUniqueId)) :=
    LeavesEdit.packet (.of_same rfl rfl rfl rfl) nofun
  exact hsent.trans (.of_same rfl rfl rfl rfl)

theorem sendRegisterRequest_leavesEdit : LeavesEdit s (s.sendRegisterRequest qt o) := by
  unfold NetworkManager.sendRegisterRequest
  have hsent : LeavesEdit s (NetworkManager.sendPacket qt o
      { s with pendingRegisterRequestId := s.nextRequestId }
      (.register s.pendingUsername s.pendingRegisterPassword s.pendingEmail s.pendingPhone)) :=
    LeavesEdit.packet (.of_same rfl rfl rfl rfl) nofun
  exact hsent.trans (.of_same rfl rfl rfl rfl)

theorem onConnected_leavesEdit : LeavesEdit s (s.onConnected qt host o) := by
  unfold NetworkManager.onConnected
  dsimp only
  have hconnected : LeavesEdit s { s with state := .connected, connection := s.connection + 1 } :=
    .of_same rfl rfl rfl rfl
  split
  · exact hconnected.trans sendLoginRequest_leavesEdit
  · split
    · exact hconnected.trans sendRegisterRequest_leavesEdit
    · exact hconnected

theorem syncEvents_leavesEdit {afterSeq : Int} : LeavesEdit s (s.syncEvents qt o afterSeq) := by
  unfold NetworkManager.syncEvents
  split
  · exact .refl s
  · refine LeavesEdit.packet ?_ nofun
    exact .of_same rfl rfl rfl rfl

theorem closeOther_leavesEdit : LeavesEdit s (s.closeOther host o) := by
  unfold NetworkManager.closeOther
  split
  · split
    · unfold NetworkManager.clearAndClose
      exact (write_leavesEdit.trans write_leavesEdit).trans (.of_same rfl rfl rfl rfl)
    · exact .refl s
  · exact .refl s

theorem restoreItem_leavesEdit {item : OutboxItem} : LeavesEdit s (s.restoreItem item) := by
  unfold NetworkManager.restoreItem
  split
  · exact .refl s
  · exact .of_same rfl rfl rfl rfl

theorem openLocalStore_leavesEdit : LeavesEdit s (s.openLocalStore qt host o) := by
  unfold NetworkManager.openLocalStore
  split
  · exact .refl s
  dsimp only
  have hclosed : LeavesEdit s (s.closeOther host o) := closeOther_leavesEdit
  generalize s.closeOther host o = s₁ at hclosed ⊢
  have hopened : LeavesEdit s (s₁.openDatabase o s₁.username s₁.localDeviceId) :=
    hclosed.trans openDatabase_leavesEdit
  generalize s₁.openDatabase o s₁.username s₁.localDeviceId = s₂ at hopened ⊢
  split
  · exact hopened
  · exact (hopened.trans (LeavesEdit.foldl (fun _ _ => restoreItem_leavesEdit) _ _)).trans
      syncEvents_leavesEdit

theorem handleLoginResponse_leavesEdit {requestId : Nat} {response : Json} :
    LeavesEdit s (s.handleLoginResponse qt crypto host o requestId response) := by
  unfold NetworkManager.handleLoginResponse
  split
  · exact .refl s
  dsimp only
  split
  · refine LeavesEdit.trans (LeavesEdit.trans ?_ openLocalStore_leavesEdit) flushOutbox_leavesEdit
    exact .of_same rfl rfl rfl rfl
  · exact .of_same rfl rfl rfl rfl

/-- **A call that does not touch the edit** leaves it alone. -/
theorem apply_leavesEdit {c : EditingCall} (h : ¬s.TouchesEdit c) :
    LeavesEdit s ((c.toCall s).apply qt crypto host o s) := by
  cases c with
  | editMessage conversationId peerUserId messageId newContent =>
      show LeavesEdit s (s.editMessage qt crypto host o conversationId peerUserId messageId newContent)
      unfold NetworkManager.editMessage
      split
      · exact .refl s
      rename_i hcalled
      split
      · exact .refl s
      rename_i htext
      exact absurd ⟨not_not.mp fun hstate => hcalled (.inl hstate),
        not_le.mp fun hid => hcalled (.inr hid), htext⟩ h
  | sendMessage => exact sendMessage_leavesEdit
  | sendGroupMessage => exact sendGroupMessage_leavesEdit
  | keysFetched => exact handleFetchKeysResponse_leavesEdit h
  | groupKeysFetched => exact handleFetchGroupKeysResponse_leavesEdit
  | sendAnswered => exact handleSendMessageResponse_leavesEdit
  | flushTimer =>
      have hfired : LeavesEdit s { s with outboxFlushScheduled := false } := .of_same rfl rfl rfl rfl
      exact hfired.trans flushOutbox_leavesEdit
  | disconnected => exact .of_same rfl rfl rfl rfl
  | reconnectTimer => exact connectToServer_leavesEdit
  | connected => exact onConnected_leavesEdit
  | loginAnswered => exact handleLoginResponse_leavesEdit
  | keysRegistered => exact handleRegisterKeysResponse_leavesEdit
  | bootstrapTimer => exact retryBootstrap_leavesEdit

/-! ## What writes an edit -/

/-- The client waits for the response to the request, and remembers its text. -/
structure NetworkManager.Awaits (s : NetworkManager) (x : EditRequest) : Prop where
  requestId : s.pendingEditMessageRequestId = x.requestId
  text : s.pendingEditContent = x.plaintext
  pos : 0 < x.requestId
  nonempty : x.plaintext ≠ ""

theorem LeavesEdit.awaits {x : EditRequest} (h : LeavesEdit s s') (hx : s.Awaits x) : s'.Awaits x where
  requestId := h.requestId.trans hx.requestId
  text := h.text.trans hx.text
  pos := hx.pos
  nonempty := hx.nonempty

/-- The content was made of the text, for the devices of a user or for a group. -/
def Enciphers (qt : Qt) (crypto : Crypto) (host : Host) (o : Outside) (s : NetworkManager)
    (x : EditRequest) : Prop :=
  (∃ target bundles, x.content = encryptForUser qt crypto s.identityKey s.localDeviceId
    (o.draw target) bundles x.plaintext) ∨
  ∃ conversationId keyId, (s.encryptGroupMessage qt crypto host o conversationId (o.groupIv "")
    x.plaintext).2 = some (x.content, keyId)

/-- At most one edit is written, whose response is then awaited. -/
structure WritesEdit (qt : Qt) (crypto : Crypto) (host : Host) (o : Outside)
    (s s' : NetworkManager) : Prop where
  nextRequestId : s.nextRequestId ≤ s'.nextRequestId
  single : (writtenEdits s s').length ≤ 1
  awaited : ∀ x ∈ writtenEdits s s', s'.Awaits x
  enciphered : ∀ x ∈ writtenEdits s s', Enciphers qt crypto host o s x

theorem SendsNoEdit.writesEdit (h : SendsNoEdit s s') : WritesEdit qt crypto host o s s' where
  nextRequestId := h.nextRequestId
  single := by
    rw [h.writtenEdits_eq]
    exact Nat.zero_le _
  awaited x hx := by
    rw [h.writtenEdits_eq] at hx
    cases hx
  enciphered x hx := by
    rw [h.writtenEdits_eq] at hx
    cases hx

/-- **The edit request** is the only one that is written, under the id that is then
waited for. A request that cannot be encoded is not written at all. -/
theorem sendEditMessageRequest_writesEdit {messageId conversationId : Int}
    {content contentType : String} (h : SendsNoEdit s s') (hpos : 0 < s.nextRequestId)
    (hnonempty : s'.pendingEditContent ≠ "")
    (henciphers : ∀ requestId,
      Enciphers qt crypto host o s ⟨requestId, messageId, content, s'.pendingEditContent⟩) :
    WritesEdit qt crypto host o s
      (s'.sendEditMessageRequest qt o messageId conversationId content contentType) := by
  obtain ⟨tail, heq, htail⟩ := h.sent
  generalize hs'' : s'.sendEditMessageRequest qt o messageId conversationId content contentType = s''
  have hnext : s''.nextRequestId = s'.nextRequestId + 1 := by rw [← hs'']; rfl
  have hid : s''.pendingEditMessageRequestId = s'.nextRequestId := by rw [← hs'']; rfl
  have htext : s''.pendingEditContent = s'.pendingEditContent := by rw [← hs'']; rfl
  have hsent : s''.sent = s'.sent ∨ ∃ connection account, s''.sent = s'.sent ++
      [⟨connection, s'.nextRequestId, account,
        .editMessage messageId conversationId content contentType⟩] := by
    rw [← hs'']
    unfold NetworkManager.sendEditMessageRequest NetworkManager.sendPacket
    dsimp only
    split
    · exact .inl rfl
    · exact .inr ⟨_, _, rfl⟩
  have hle := h.nextRequestId
  rcases hsent with hsent | ⟨connection, account, hsent⟩
  · exact SendsNoEdit.writesEdit ⟨by omega, tail, hsent.trans heq, htail⟩
  have hwritten : writtenEdits s s'' =
      [⟨s'.nextRequestId, messageId, content, s'.pendingEditContent⟩] := by
    have hnone : writtenEdits s { s' with pendingEditContent := s''.pendingEditContent } = [] :=
      SendsNoEdit.writtenEdits_eq ⟨h.nextRequestId, h.sent⟩
    unfold writtenEdits at hnone ⊢
    dsimp only at hnone
    rw [heq, List.drop_left] at hnone
    rw [hsent, heq, List.append_assoc, List.drop_left, List.filterMap_append, hnone, htext]
    rfl
  constructor
  · omega
  · rw [hwritten]
    exact Nat.le_refl _
  · intro x hx
    rw [hwritten] at hx
    obtain rfl := List.mem_singleton.mp hx
    exact ⟨hid, htext, by show 0 < s'.nextRequestId; omega, hnonempty⟩
  · intro x hx
    rw [hwritten] at hx
    obtain rfl := List.mem_singleton.mp hx
    exact henciphers _

theorem write_device {call : DiskCall} {statement : TextCipher → Database → Option Database} :
    (s.write host o call statement).localDeviceId = s.localDeviceId := by
  unfold NetworkManager.write
  split
  · rfl
  · split
    · rfl
    · rfl
    · split <;> rfl

/-- What is encrypted for a group, by the key that is found. -/
theorem encryptGroupMessage_eq {conversationId : Int} {iv : Bytes} {plaintext : String} :
    (s.encryptGroupMessage qt crypto host o conversationId iv plaintext).2 =
      (s.ensureGroupSenderKey qt host o conversationId).2.bind fun key =>
        let r := GroupE2eeCrypto.encryptMessage crypto iv key (toUtf8 plaintext)
        let envelope := qt.toJson (GroupE2eeCrypto.encodeGroupMessage qt r.2 s.localDeviceId)
        if r.2.valid = false ∨ envelope = "" then none else some (envelope, r.1.keyId) := by
  have hdevice : (s.ensureGroupSenderKey qt host o conversationId).1.localDeviceId =
      s.localDeviceId := by
    unfold NetworkManager.ensureGroupSenderKey
    split
    · rfl
    · split
      · rfl
      · split <;> rfl
  unfold NetworkManager.encryptGroupMessage
  generalize s.ensureGroupSenderKey qt host o conversationId = ensured at hdevice ⊢
  obtain ⟨s₁, key⟩ := ensured
  cases key with
  | none => rfl
  | some key =>
      dsimp only at hdevice ⊢
      have hsaved : ∀ key, ((s₁.saveOwnKey qt host o conversationId key).insertSenderKey
          conversationId key).localDeviceId = s.localDeviceId :=
        fun key => write_device.trans hdevice
      rw [hsaved, Option.bind_some]
      split
      · rename_i hinvalid
        rw [if_pos (.inl hinvalid)]
      · rename_i hvalid
        split
        · rename_i hempty
          rw [if_pos (.inr hempty)]
        · rename_i hsome
          rw [if_neg (not_or.mpr ⟨hvalid, hsome⟩)]

/-- It does not depend on the edit that is pending. -/
theorem encryptGroupMessage_edited {conversationId : Int} {iv : Bytes} {plaintext : String}
    {pendingEditMessageId pendingEditConversationId pendingEditPeerUserId : Int}
    {pendingEditContent : String} :
    (NetworkManager.encryptGroupMessage qt crypto host o { s with
      pendingEditMessageId, pendingEditConversationId, pendingEditPeerUserId, pendingEditContent }
      conversationId iv plaintext).2 =
      (s.encryptGroupMessage qt crypto host o conversationId iv plaintext).2 := by
  rw [encryptGroupMessage_eq, encryptGroupMessage_eq]
  refine congrArg (Option.bind · _) ?_
  unfold NetworkManager.ensureGroupSenderKey
  split
  · rfl
  · dsimp only [NetworkManager.senderKey?]
    split
    · rfl
    · have hstored : NetworkManager.loadOwnKey qt host o { s with
          pendingEditMessageId, pendingEditConversationId, pendingEditPeerUserId,
          pendingEditContent } conversationId = s.loadOwnKey qt host o conversationId := rfl
      rw [hstored]
      split <;> rfl

theorem editMessage_writesEdit {conversationId peerUserId messageId : Int} {newContent : String}
    (hpos : 0 < s.nextRequestId) :
    WritesEdit qt crypto host o s
      (s.editMessage qt crypto host o conversationId peerUserId messageId newContent) := by
  unfold NetworkManager.editMessage
  split
  · exact (LeavesEdit.refl s).writesEdit
  split
  · exact (LeavesEdit.refl s).writesEdit
  rename_i htrimmed
  have hnonempty : newContent ≠ "" := fun hempty => htrimmed (by rw [hempty]; rfl)
  dsimp only
  generalize hpending : ({ s with
    pendingEditMessageId := messageId
    pendingEditConversationId := conversationId
    pendingEditPeerUserId := peerUserId
    pendingEditContent := newContent } : NetworkManager) = s₁
  have hbegun : SendsNoEdit s s₁ := by
    rw [← hpending]
    exact ⟨Nat.le_refl _, [], (List.append_nil _).symm, fun _ h => by cases h⟩
  have htext : s₁.pendingEditContent = newContent := by rw [← hpending]
  have hsame : (s₁.encryptGroupMessage qt crypto host o conversationId (o.groupIv "") newContent).2 =
      (s.encryptGroupMessage qt crypto host o conversationId (o.groupIv "") newContent).2 := by
    rw [← hpending]
    exact encryptGroupMessage_edited
  split
  · have hencrypted : LeavesEdit s₁ (s₁.encryptGroupMessage qt crypto host o conversationId
        (o.groupIv "") newContent).1 := encryptGroupMessage_leavesEdit
    generalize s₁.encryptGroupMessage qt crypto host o conversationId (o.groupIv "") newContent
      = encrypted at hencrypted hsame ⊢
    obtain ⟨s₂, envelope⟩ := encrypted
    have hafter := hbegun.trans hencrypted.toSendsNoEdit
    cases envelope with
    | none => exact SendsNoEdit.writesEdit ⟨hafter.nextRequestId, hafter.sent⟩
    | some envelope =>
        have htext₂ : s₂.pendingEditContent = newContent := hencrypted.text.trans htext
        refine sendEditMessageRequest_writesEdit hafter hpos (by rwa [htext₂]) fun requestId => ?_
        rw [htext₂]
        exact .inr ⟨conversationId, envelope.2, hsame.symm⟩
  · split
    · exact (hbegun.trans sendFetchKeysRequest_leavesEdit.toSendsNoEdit).writesEdit
    · exact SendsNoEdit.writesEdit ⟨hbegun.nextRequestId, hbegun.sent⟩

theorem handleFetchKeysResponse_writesEdit {requestId : Nat} {response : Json}
    (hpos : 0 < s.nextRequestId) :
    WritesEdit qt crypto host o s
      (s.handleFetchKeysResponse qt crypto host o requestId response) := by
  by_cases h : s.FetchesForEdit requestId response
  · obtain ⟨hrequest, hid, htarget, hbundles⟩ := h
    unfold NetworkManager.handleFetchKeysResponse
    rw [if_neg (not_not.mpr hrequest)]
    dsimp only
    split
    · unfold NetworkManager.fetchKeysFailed
      rw [if_pos ⟨hid, htarget⟩]
      exact SendsNoEdit.writesEdit
        ⟨Nat.le_refl _, [], (List.append_nil _).symm, fun _ h => by cases h⟩
    rename_i hcode
    have hsome := hbundles (not_not.mp hcode)
    rw [if_neg (by simpa using hsome)]
    split
    · split
      · exact SendsNoEdit.writesEdit
          ⟨Nat.le_refl _, [], (List.append_nil _).symm, fun _ h => by cases h⟩
      · rename_i hedit _
        refine sendEditMessageRequest_writesEdit
          ⟨Nat.le_refl _, [], (List.append_nil _).symm, fun _ h => by cases h⟩ hpos hedit.2.2
          fun requestId => .inl ⟨_, _, rfl⟩
    · have hfetched : LeavesEdit s { s with
          pendingFetchKeysRequestId := 0
          fetchKeysTargetUserId := 0
          fetchBackoffUntil := s.fetchBackoffUntil.filter (·.1 != s.fetchKeysTargetUserId) } :=
        .of_same rfl rfl rfl rfl
      exact (hfetched.trans (sendUnder_leavesEdit.trans flushOutbox_leavesEdit)).writesEdit
  · exact (handleFetchKeysResponse_leavesEdit h).writesEdit

/-- **Any call** writes at most one edit. -/
theorem apply_writesEdit {c : EditingCall} (hpos : 0 < s.nextRequestId) :
    WritesEdit qt crypto host o s ((c.toCall s).apply qt crypto host o s) := by
  cases c with
  | editMessage => exact editMessage_writesEdit hpos
  | keysFetched => exact handleFetchKeysResponse_writesEdit hpos
  | _ => exact (apply_leavesEdit id).writesEdit

end

end XYChat.Client
