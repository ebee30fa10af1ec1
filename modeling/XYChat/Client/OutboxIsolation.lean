import XYChat.Client.MessageCache
import XYChat.Client.NetworkManager

/-!
# Whose unsent messages a client sends

The outbox of the client is in memory and in a database file for each user.
Logging out empties the file and forgets the user, but the list in memory
stays. This file gives the condition on the calls under which every message
sent as a user was enqueued for that user, and every stored one lies in that
user's file.
-/

namespace XYChat.Client

open Lib
open GroupE2eeCrypto (SenderKey)

/-! ## The property -/

/-- What the local database of a user holds was enqueued for that user. -/
def Persisted (host : Host) (s : NetworkManager) : Prop :=
  ∀ username, ∀ row ∈ (s.disk (dbFilePath username host.machineUniqueId)).outbox,
    (row.item (host.cipher username), username) ∈ s.enqueued

/-- The program has just started, over the files that earlier ones left. -/
structure Launched (host : Host) (s : NetworkManager) : Prop where
  fresh : ∃ disk enqueued, s = { disk, enqueued }
  persisted : Persisted host s

def clientMachine (qt : Qt) (crypto : Crypto) (host : Host) :
    Machine NetworkManager (Outside × ClientCall) where
  init := Launched host
  step s x := x.2.apply qt crypto host x.1 s

/-- A `send_message` request written as a user carries an item that was enqueued
for that user; only a key distribution carries none. -/
def Sent.Owned (enqueued : List (OutboxItem × String)) (x : Sent) : Prop :=
  ∀ user, x.account = some user → x.request.messageType = .sendMessageRequest →
    match x.request.item? with
    | some item => (item, user) ∈ enqueued
    | none => ∃ conversationId clientMessageId content dist,
        x.request = .sendDistribution conversationId clientMessageId content dist

/-- What is sent as a user, and what is stored for one, was enqueued for that
user. -/
structure OutboxIsolated (host : Host) (s : NetworkManager) : Prop where
  sent : ∀ x ∈ s.sent, x.Owned s.enqueued
  persisted : Persisted host s

/-- The item a call enqueues. -/
def ClientCall.item? : ClientCall → Option OutboxItem
  | .sendMessage clientMessageId toUserId content =>
      some { clientMessageId, toUserId, conversationId := 0, content }
  | .sendGroupMessage clientMessageId conversationId content =>
      if conversationId ≤ 0 ∨ trimmed content = "" then none
      else some { clientMessageId, toUserId := 0, conversationId, content }
  | _ => none

/-- The open store takes the item. -/
def NetworkManager.Takes (qt : Qt) (host : Host) (o : Outside) (s : NetworkManager)
    (handle : StoreHandle) (item : OutboxItem) : Prop :=
  s.localStore = some handle ∧ o.disk (.addOutboxItem item.clientMessageId) = .done ∧
    ((s.disk handle.path).addOutboxItem (host.cipher handle.username) o.storageIv
      (qt.isoDate o.now) item).isSome

/-- The call is the answer that signs the client in as this user. -/
def NetworkManager.SignsIn (s : NetworkManager) (user : String) : ClientCall → Prop
  | .packet .loginResponse requestId response =>
      requestId = s.pendingLoginRequestId ∧
        NetworkManager.codeOf response ErrorCode.internalError.code = ErrorCode.ok.code ∧
        ((response.value "data").value "username").toStr "" = user
  | _ => False

/-- A login that succeeds finds only items of its user in the outbox, and an
item that a store open already takes is for the user of that store. -/
structure KeepsAccounts (qt : Qt) (host : Host) (s : NetworkManager) (x : Outside × ClientCall) :
    Prop where
  login : ∀ user, s.SignsIn user x.2 → ∀ item ∈ s.outbox, (item, user) ∈ s.enqueued
  store : ∀ item ∈ x.2.item?, ∀ handle, s.Takes qt host x.1 handle item →
    handle.username = s.outboxUser

/-! ## What a call leaves alone -/

/-- Nothing was enqueued, stored or taken into the outbox, a store was at most
closed, and a request that carries an item was written as the user who was
signed in and carries an item of the outbox. -/
structure Quiet (host : Host) (s s' : NetworkManager) : Prop where
  device : s'.localDeviceId = s.localDeviceId ∨ s'.localDeviceId = host.machineUniqueId
  enqueued : s'.enqueued = s.enqueued
  outbox : ∀ item ∈ s'.outbox, item ∈ s.outbox
  handle : ∀ handle ∈ s'.localStore, handle ∈ s.localStore
  disk : ∀ path, ∀ row ∈ (s'.disk path).outbox, row ∈ (s.disk path).outbox
  sent : ∀ x ∈ s'.sent, x ∈ s.sent ∨
    ∀ item, x.request.item? = some item → x.account = s.account ∧ item ∈ s.outbox

/-- A quiet call by a client that stays signed in as it is. -/
structure Sends (host : Host) (s s' : NetworkManager) : Prop extends Quiet host s s' where
  state : s'.state = s.state
  username : s'.username = s.username

section

variable {qt : Qt} {crypto : Crypto} {host : Host} {o : Outside} {s s' s'' : NetworkManager}

theorem Sends.account (h : Sends host s s') : s'.account = s.account := by
  unfold NetworkManager.account
  rw [h.state, h.username]

/-- Other members than these do not matter. -/
theorem Sends.of_same (hstate : s'.state = s.state) (husername : s'.username = s.username)
    (hdevice : s'.localDeviceId = s.localDeviceId) (henqueued : s'.enqueued = s.enqueued)
    (houtbox : ∀ item ∈ s'.outbox, item ∈ s.outbox) (hstore : s'.localStore = s.localStore)
    (hdisk : s'.disk = s.disk) (hsent : s'.sent = s.sent) : Sends host s s' where
  state := hstate
  username := husername
  device := .inl hdevice
  enqueued := henqueued
  outbox := houtbox
  handle handle h := by rwa [hstore] at h
  disk path row h := by rwa [hdisk] at h
  sent x h := by
    rw [hsent] at h
    exact .inl h

theorem Sends.refl (s : NetworkManager) : Sends host s s :=
  .of_same rfl rfl rfl rfl (fun _ h => h) rfl rfl rfl

/-- A quiet call after one that stays signed in. -/
theorem Sends.quiet (h : Sends host s s') (h' : Quiet host s' s'') : Quiet host s s'' where
  device := by
    rcases h'.device with hdevice | hdevice
    · rw [hdevice]
      exact h.device
    · exact .inr hdevice
  enqueued := h'.enqueued.trans h.enqueued
  outbox item hitem := h.outbox item (h'.outbox item hitem)
  handle handle hhandle := h.handle handle (h'.handle handle hhandle)
  disk path row hrow := h.disk path row (h'.disk path row hrow)
  sent x hx := by
    rcases h'.sent x hx with hx | hcarries
    · exact h.sent x hx
    · refine .inr fun item hitem => ?_
      obtain ⟨haccount, hmem⟩ := hcarries item hitem
      exact ⟨haccount.trans h.account, h.outbox item hmem⟩

theorem Sends.trans (h : Sends host s s') (h' : Sends host s' s'') : Sends host s s'' where
  toQuiet := h.quiet h'.toQuiet
  state := h'.state.trans h.state
  username := h'.username.trans h.username

/-- A fold of such calls. -/
theorem Sends.foldl {α : Type} {f : NetworkManager → α → NetworkManager}
    (hf : ∀ s a, Sends host s (f s a)) (l : List α) (s : NetworkManager) :
    Sends host s (l.foldl f s) := by
  induction l generalizing s with
  | nil => exact .refl s
  | cons a l ih => exact (hf s a).trans (ih (f s a))

/-! ### Packets and the local store -/

/-- One more packet, which carries at most an item of the first outbox. -/
theorem Sends.packet (h : Sends host s s') {request : Request}
    (hitem : ∀ item, request.item? = some item → item ∈ s.outbox) :
    Sends host s (s'.sendPacket qt o request) where
  state := h.state
  username := h.username
  device := h.device
  enqueued := h.enqueued
  outbox := h.outbox
  handle := h.handle
  disk := h.disk
  sent x hx := by
    unfold NetworkManager.sendPacket at hx
    dsimp only at hx
    split at hx
    · exact h.sent x hx
    · rcases List.mem_append.mp hx with hx | hx
      · exact h.sent x hx
      · obtain rfl := List.mem_singleton.mp hx
        exact .inr fun item hsome => ⟨h.account, hitem item hsome⟩

/-- One more packet, without an item. -/
theorem Sends.plain (h : Sends host s s') {request : Request} (hitem : request.item? = none) :
    Sends host s (s'.sendPacket qt o request) :=
  h.packet fun item hsome => by
    rw [hitem] at hsome
    cases hsome

/-- A statement that adds no outbox row. -/
theorem write_sends {call : DiskCall} {statement : TextCipher → Database → Option Database}
    (hrows : ∀ cipher db db', statement cipher db = some db' →
      ∀ row ∈ db'.outbox, row ∈ db.outbox) :
    Sends host s (s.write host o call statement) := by
  unfold NetworkManager.write
  split
  · exact .refl s
  · rename_i handle hstore
    split
    · exact
        { state := rfl, username := rfl, device := .inl rfl, enqueued := rfl
          outbox := fun _ h => h
          handle := fun _ h => by cases h
          disk := fun _ _ h => h
          sent := fun _ h => .inl h }
    · exact .refl s
    · split
      · exact .refl s
      · rename_i db hdb
        refine
          { state := rfl, username := rfl, device := .inl rfl, enqueued := rfl
            outbox := fun _ h => h
            handle := fun _ h => h
            disk := fun path row h => ?_
            sent := fun _ h => .inl h }
        have h : row ∈ (Function.update s.disk handle.path db path).outbox := h
        by_cases hpath : path = handle.path
        · subst hpath
          rw [Function.update_self] at h
          exact hrows _ _ _ hdb row h
        · rwa [Function.update_of_ne hpath] at h

theorem removeOutboxItem_sends {clientMessageId : String} :
    Sends host s (s.removeOutboxItem host o clientMessageId) :=
  write_sends fun _ db db' h row hrow => by
    unfold Database.removeOutboxItem at h
    split at h
    · cases h
    · obtain rfl := Option.some.inj h
      exact (List.mem_filter.mp hrow).1

theorem clearAndClose_sends : Sends host s (s.clearAndClose host o) := by
  unfold NetworkManager.clearAndClose
  have houtbox : Sends host s (s.write host o (.clearTable .outbox)
      fun _ db => some (db.clearTable .outbox)) := by
    refine write_sends fun _ db db' h row hrow => ?_
    obtain rfl := Option.some.inj h
    cases hrow
  have hmeta : ∀ s, Sends host s (s.write host o (.clearTable .metaTable)
      fun _ db => some (db.clearTable .metaTable)) := fun s => by
    refine write_sends fun _ db db' h row hrow => ?_
    obtain rfl := Option.some.inj h
    exact hrow
  refine (houtbox.trans (hmeta _)).trans ?_
  exact
    { state := rfl, username := rfl, device := .inl rfl, enqueued := rfl
      outbox := fun _ h => h
      handle := fun _ h => by cases h
      disk := fun _ _ h => h
      sent := fun _ h => .inl h }

theorem advanceSyncCursor_sends {seq : Int} : Sends host s (s.advanceSyncCursor host o seq) := by
  unfold NetworkManager.advanceSyncCursor
  split
  · refine write_sends fun _ db db' h row hrow => ?_
    unfold Database.setSyncCursor at h
    split at h
    · cases h
    · obtain rfl := Option.some.inj h
      exact hrow
  · exact .refl s

/-! ### Sender keys -/

theorem saveOwnKey_sends {conversationId : Int} {key : SenderKey} :
    Sends host s (s.saveOwnKey qt host o conversationId key) :=
  write_sends fun _ db db' h row hrow => by
    obtain ⟨rows, _, rfl⟩ := Option.map_eq_some_iff.mp h
    exact hrow

theorem insertSenderKey_sends {conversationId : Int} {key : SenderKey} :
    Sends host s (s.insertSenderKey conversationId key) :=
  .of_same rfl rfl rfl rfl (fun _ h => h) rfl rfl rfl

theorem removeSenderKey_sends {conversationId : Int} :
    Sends host s (s.removeSenderKey conversationId) :=
  .of_same rfl rfl rfl rfl (fun _ h => h) rfl rfl rfl

theorem ensureGroupSenderKey_sends {conversationId : Int} :
    Sends host s (s.ensureGroupSenderKey qt host o conversationId).1 := by
  unfold NetworkManager.ensureGroupSenderKey
  split
  · exact .refl s
  · split
    · exact .refl s
    · split
      · exact insertSenderKey_sends
      · exact .refl s

theorem encryptGroupMessage_sends {conversationId : Int} {iv : Bytes} {plaintext : String} :
    Sends host s (s.encryptGroupMessage qt crypto host o conversationId iv plaintext).1 := by
  unfold NetworkManager.encryptGroupMessage
  have hensured : Sends host s (s.ensureGroupSenderKey qt host o conversationId).1 :=
    ensureGroupSenderKey_sends
  generalize s.ensureGroupSenderKey qt host o conversationId = ensured at hensured ⊢
  obtain ⟨s₁, key⟩ := ensured
  cases key with
  | none => exact hensured
  | some key =>
      dsimp only
      split
      · exact hensured
      · split
        · exact hensured.trans (saveOwnKey_sends.trans insertSenderKey_sends)
        · exact hensured.trans (saveOwnKey_sends.trans insertSenderKey_sends)

/-! ### Key fetches and flushes -/

theorem sendFetchKeysRequest_sends {toUserId : Int} :
    Sends host s (s.sendFetchKeysRequest qt o toUserId) := by
  unfold NetworkManager.sendFetchKeysRequest
  refine Sends.plain ?_ rfl
  exact .of_same rfl rfl rfl rfl (fun _ h => h) rfl rfl rfl

theorem sendFetchGroupKeysRequest_sends {conversationId : Int} :
    Sends host s (s.sendFetchGroupKeysRequest qt o conversationId) := by
  unfold NetworkManager.sendFetchGroupKeysRequest
  split
  · exact .refl s
  · refine Sends.plain ?_ rfl
    exact .of_same rfl rfl rfl rfl (fun _ h => h) rfl rfl rfl

theorem bootstrapE2ee_sends : Sends host s (s.bootstrapE2ee qt o) := by
  unfold NetworkManager.bootstrapE2ee
  split
  · exact .refl s
  · dsimp only
    generalize (if s.identityKey.valid then s.identityKey else o.registration.identityKey) = key
    split
    · exact .refl s
    · refine Sends.plain ?_ rfl
      exact .of_same rfl rfl rfl rfl (fun _ h => h) rfl rfl rfl

theorem drainHealQueue_sends : Sends host s (s.drainHealQueue qt o) := by
  unfold NetworkManager.drainHealQueue
  split
  · exact .refl s
  · split
    · exact .refl s
    · refine Sends.trans ?_ sendFetchGroupKeysRequest_sends
      exact .of_same rfl rfl rfl rfl (fun _ h => h) rfl rfl rfl

theorem healGroupSenderKey_sends {conversationId : Int} :
    Sends host s (s.healGroupSenderKey qt o conversationId) := by
  unfold NetworkManager.healGroupSenderKey
  split
  · exact .refl s
  · split
    · exact .refl s
    · split
      · exact .of_same rfl rfl rfl rfl (fun _ h => h) rfl rfl rfl
      · exact sendFetchGroupKeysRequest_sends

theorem noteSend_sends {clientMessageId : String} : Sends host s (s.noteSend clientMessageId) :=
  .of_same rfl rfl rfl rfl (fun _ h => h) rfl rfl rfl

theorem flushGroupItems_sends {inFlight : List String} {items : List OutboxItem}
    (hitems : ∀ item ∈ items, item ∈ s.outbox) (h : Sends host s s') :
    Sends host s (NetworkManager.flushGroupItems qt crypto host o inFlight items s').1 := by
  induction items generalizing s' with
  | nil => exact h
  | cons item rest ih =>
      have hrest : ∀ item ∈ rest, item ∈ s.outbox := fun i hi =>
        hitems i (List.mem_cons_of_mem _ hi)
      unfold NetworkManager.flushGroupItems
      split
      · exact ih hrest h
      · have hensured : Sends host s' (s'.ensureGroupSenderKey qt host o item.conversationId).1 :=
          ensureGroupSenderKey_sends
        generalize s'.ensureGroupSenderKey qt host o item.conversationId = ensured at hensured ⊢
        obtain ⟨s₁, key⟩ := ensured
        have h₁ := h.trans hensured
        cases key with
        | none =>
            dsimp only at h₁ ⊢
            split
            · exact h₁.trans sendFetchGroupKeysRequest_sends
            · exact ih hrest h₁
        | some key =>
            dsimp only at h₁ ⊢
            have hencrypted : Sends host s₁ (s₁.encryptGroupMessage qt crypto host o
                item.conversationId (o.groupIv item.clientMessageId) item.content).1 :=
              encryptGroupMessage_sends
            generalize s₁.encryptGroupMessage qt crypto host o item.conversationId
              (o.groupIv item.clientMessageId) item.content = encrypted at hencrypted ⊢
            obtain ⟨s₂, envelope⟩ := encrypted
            have h₂ := h₁.trans hencrypted
            cases envelope with
            | none => exact ih hrest h₂
            | some envelope =>
                refine ih hrest ((h₂.trans noteSend_sends).packet fun item' heq => ?_)
                obtain rfl := Option.some.inj heq
                exact hitems _ List.mem_cons_self

theorem flushTargets_sends {targets : List Int} :
    Sends host s (NetworkManager.flushTargets qt o targets s) := by
  induction targets generalizing s with
  | nil => exact .refl s
  | cons target rest ih =>
      unfold NetworkManager.flushTargets
      split
      · exact .refl s
      · split
        · exact ih
        · exact sendFetchKeysRequest_sends.trans ih

theorem flushOutbox_sends : Sends host s (s.flushOutbox qt crypto host o) := by
  unfold NetworkManager.flushOutbox
  split
  · exact .refl s
  · split
    · exact bootstrapE2ee_sends
    · dsimp only
      have hflushed : Sends host s (NetworkManager.flushGroupItems qt crypto host o
          (s.pendingSendByRequestId.map (·.2)) s.outbox s).1 :=
        flushGroupItems_sends (fun _ h => h) (.refl s)
      generalize NetworkManager.flushGroupItems qt crypto host o
        (s.pendingSendByRequestId.map (·.2)) s.outbox s = flushed at hflushed ⊢
      obtain ⟨s₁, all⟩ := flushed
      cases all with
      | false => exact hflushed
      | true => exact hflushed.trans flushTargets_sends

theorem dropItem_sends {clientMessageId : String} :
    Sends host s (s.dropItem host o clientMessageId) :=
  removeOutboxItem_sends.trans
    (.of_same rfl rfl rfl rfl (fun _ h => List.mem_of_mem_eraseP h) rfl rfl rfl)

/-! ### Responses that do not sign in or out -/

theorem clearPendingEdit_sends : Sends host s s.clearPendingEdit :=
  .of_same rfl rfl rfl rfl (fun _ h => h) rfl rfl rfl

theorem sendEditMessageRequest_sends {messageId conversationId : Int}
    {content contentType : String} :
    Sends host s (s.sendEditMessageRequest qt o messageId conversationId content contentType) := by
  unfold NetworkManager.sendEditMessageRequest
  refine Sends.plain ?_ rfl
  exact .of_same rfl rfl rfl rfl (fun _ h => h) rfl rfl rfl

theorem editMessage_sends {conversationId peerUserId messageId : Int} {newContent : String} :
    Sends host s (s.editMessage qt crypto host o conversationId peerUserId messageId newContent) := by
  unfold NetworkManager.editMessage
  split
  · exact .refl s
  split
  · exact .refl s
  dsimp only
  generalize hpending : ({ s with
    pendingEditMessageId := messageId
    pendingEditConversationId := conversationId
    pendingEditPeerUserId := peerUserId
    pendingEditContent := newContent } : NetworkManager) = s₁
  have h₁ : Sends host s s₁ := by
    rw [← hpending]
    exact .of_same rfl rfl rfl rfl (fun _ h => h) rfl rfl rfl
  split
  · have hencrypted : Sends host s₁ (s₁.encryptGroupMessage qt crypto host o conversationId
        (o.groupIv "") newContent).1 := encryptGroupMessage_sends
    generalize s₁.encryptGroupMessage qt crypto host o conversationId (o.groupIv "") newContent
      = encrypted at hencrypted ⊢
    obtain ⟨s₂, envelope⟩ := encrypted
    cases envelope with
    | none => exact h₁.trans (hencrypted.trans clearPendingEdit_sends)
    | some envelope => exact h₁.trans (hencrypted.trans sendEditMessageRequest_sends)
  · split
    · exact h₁.trans sendFetchKeysRequest_sends
    · exact h₁.trans clearPendingEdit_sends

theorem fetchKeysFailed_sends {target code : Int} :
    Sends host s (s.fetchKeysFailed qt crypto host o target code) := by
  unfold NetworkManager.fetchKeysFailed
  split
  · exact clearPendingEdit_sends
  · refine Sends.trans ?_ flushOutbox_sends
    split
    · have hremoved : Sends host s ((s.outbox.filter (·.toUserId == target)).foldl
          (fun s item => s.removeOutboxItem host o item.clientMessageId) s) :=
        Sends.foldl (fun _ _ => removeOutboxItem_sends) _ s
      refine hremoved.trans ?_
      exact .of_same rfl rfl rfl rfl (fun _ h => (List.mem_filter.mp h).1) rfl rfl rfl
    · exact .of_same rfl rfl rfl rfl (fun _ h => h) rfl rfl rfl

theorem sendUnder_sends {target : Int} {bundles : List Json} {inFlight : List String} :
    Sends host s (s.sendUnder qt crypto host o target bundles inFlight) := by
  unfold NetworkManager.sendUnder
  split
  · exact .refl s
  · rename_i item hfind
    dsimp only
    split
    · exact dropItem_sends
    · refine noteSend_sends.packet fun item' heq => ?_
      obtain rfl := Option.some.inj heq
      exact List.mem_of_find?_eq_some hfind

theorem handleFetchKeysResponse_sends {requestId : Nat} {response : Json} :
    Sends host s (s.handleFetchKeysResponse qt crypto host o requestId response) := by
  unfold NetworkManager.handleFetchKeysResponse
  split
  · exact .refl s
  dsimp only
  have hcleared : Sends host s { s with pendingFetchKeysRequestId := 0, fetchKeysTargetUserId := 0 } :=
    .of_same rfl rfl rfl rfl (fun _ h => h) rfl rfl rfl
  split
  · exact hcleared.trans fetchKeysFailed_sends
  have hfetched : Sends host s { s with
      pendingFetchKeysRequestId := 0
      fetchKeysTargetUserId := 0
      fetchBackoffUntil := s.fetchBackoffUntil.filter (·.1 != s.fetchKeysTargetUserId) } :=
    .of_same rfl rfl rfl rfl (fun _ h => h) rfl rfl rfl
  refine hfetched.trans ?_
  split
  · exact flushOutbox_sends
  · split
    · split
      · exact clearPendingEdit_sends
      · exact sendEditMessageRequest_sends
    · exact sendUnder_sends.trans flushOutbox_sends

theorem buildGroupSenderKeyDistribution_sends {conversationId : Int} {bundlesByUser : Json} :
    Sends host s
      (s.buildGroupSenderKeyDistribution qt crypto host o conversationId bundlesByUser).1 := by
  unfold NetworkManager.buildGroupSenderKeyDistribution
  dsimp only
  split
  · exact .refl s
  · split
    · exact .refl s
    · exact saveOwnKey_sends.trans insertSenderKey_sends

theorem handleFetchGroupKeysResponse_sends {requestId : Nat} {response : Json} :
    Sends host s (s.handleFetchGroupKeysResponse qt crypto host o requestId response) := by
  unfold NetworkManager.handleFetchGroupKeysResponse
  split
  · exact .refl s
  dsimp only
  have hcleared : Sends host s
      { s with pendingFetchGroupKeysRequestId := 0, fetchGroupKeysTargetConvId := 0 } :=
    .of_same rfl rfl rfl rfl (fun _ h => h) rfl rfl rfl
  split
  · split
    · exact .of_same rfl rfl rfl rfl (fun _ h => h) rfl rfl rfl
    · exact hcleared.trans drainHealQueue_sends
  · generalize ({ s with pendingFetchGroupKeysRequestId := 0, fetchGroupKeysTargetConvId := 0 } :
      NetworkManager) = s₁ at hcleared ⊢
    have hbuilt : Sends host s₁ (s₁.buildGroupSenderKeyDistribution qt crypto host o
        s.fetchGroupKeysTargetConvId ((response.value "data").value "bundles")).1 :=
      buildGroupSenderKeyDistribution_sends
    generalize s₁.buildGroupSenderKeyDistribution qt crypto host o s.fetchGroupKeysTargetConvId
      ((response.value "data").value "bundles") = built at hbuilt ⊢
    obtain ⟨s₂, dist⟩ := built
    have hbuilt := hcleared.trans hbuilt
    cases dist with
    | none => exact hbuilt.trans drainHealQueue_sends
    | some dist =>
        refine (Sends.plain (hbuilt.trans ?_) rfl).trans drainHealQueue_sends
        exact .of_same rfl rfl rfl rfl (fun _ h => h) rfl rfl rfl

theorem handleSendMessageResponse_sends {requestId : Nat} {response : Json} :
    Sends host s (s.handleSendMessageResponse qt crypto host o requestId response) := by
  unfold NetworkManager.handleSendMessageResponse
  split
  · exact .refl s
  · rename_i clientMessageId _
    dsimp only
    have hanswered : Sends host s { s with
        pendingSendByRequestId := s.pendingSendByRequestId.filter (·.1 != requestId) } :=
      .of_same rfl rfl rfl rfl (fun _ h => h) rfl rfl rfl
    split
    · split
      · refine Sends.trans ?_ flushOutbox_sends
        have hacked : Sends host s { s with
            pendingSendByRequestId := s.pendingSendByRequestId.filter (·.1 != requestId)
            pendingGroupDistributions := s.pendingGroupDistributions.filter
              (· != ((response.value "data").value "clientMessageId").toStr clientMessageId) } :=
          .of_same rfl rfl rfl rfl (fun _ h => h) rfl rfl rfl
        split
        · exact hacked.trans dropItem_sends
        · exact hacked
      · exact hanswered.trans dropItem_sends
    · split
      · split
        · exact hanswered
        · split
          · exact hanswered.trans dropItem_sends
          · exact hanswered
      · exact .of_same rfl rfl rfl rfl (fun _ h => h) rfl rfl rfl

theorem getConversations_sends : Sends host s (s.getConversations qt o) := by
  unfold NetworkManager.getConversations
  split
  · exact .refl s
  · exact Sends.plain (.refl s) rfl

theorem syncEvents_sends {afterSeq : Int} : Sends host s (s.syncEvents qt o afterSeq) := by
  unfold NetworkManager.syncEvents
  split
  · exact .refl s
  · refine Sends.plain ?_ rfl
    exact .of_same rfl rfl rfl rfl (fun _ h => h) rfl rfl rfl

theorem handleLeaveGroupResponse_sends {response : Json} :
    Sends host s (s.handleLeaveGroupResponse qt host o response) := by
  unfold NetworkManager.handleLeaveGroupResponse
  split
  · exact .refl s
  · refine (removeSenderKey_sends.trans (write_sends fun _ db db' h row hrow => ?_)).trans
      getConversations_sends
    unfold Database.removeSenderKeysForGroup at h
    split at h
    · cases h
    · obtain rfl := Option.some.inj h
      exact hrow

/-! ### Events -/

theorem processDistribution_sends {msg : Json} :
    Sends host s (s.processDistribution qt crypto host o msg) := by
  unfold NetworkManager.processDistribution
  dsimp only
  split
  · refine Sends.trans ?_ (write_sends fun _ db db' h row hrow => ?_)
    · exact .of_same rfl rfl rfl rfl (fun _ h => h) rfl rfl rfl
    · obtain rfl := Option.some.inj h
      exact hrow
  · exact .of_same rfl rfl rfl rfl (fun _ h => h) rfl rfl rfl

theorem handleGroupChangedNotification_sends {payload : Json} :
    Sends host s (s.handleGroupChangedNotification qt o payload) := by
  unfold NetworkManager.handleGroupChangedNotification
  dsimp only
  split
  · split
    · exact getConversations_sends.trans removeSenderKey_sends
    · exact getConversations_sends.trans healGroupSenderKey_sends
  · exact getConversations_sends

theorem ingestEvent_sends {healConvs : List Int} {event : Json} :
    Sends host s (NetworkManager.ingestEvent qt host o (s, healConvs) event).1 := by
  unfold NetworkManager.ingestEvent
  dsimp only
  split
  · split
    · exact .refl s
    · split
      · exact dropItem_sends
      · exact .refl s
  · split
    · split
      · split
        · exact removeSenderKey_sends
        · exact .refl s
      · exact .refl s
    · exact .refl s

theorem ingestEvents_sends {healConvs : List Int} {events : List Json} :
    Sends host s (events.foldl (NetworkManager.ingestEvent qt host o) (s, healConvs)).1 := by
  induction events generalizing s healConvs with
  | nil => exact .refl s
  | cons event rest ih => exact ingestEvent_sends.trans ih

theorem ingestSyncEvents_sends {events : List Json} {lastSeq : Int} {hasMore : Bool} :
    Sends host s (s.ingestSyncEvents qt host o events lastSeq hasMore) := by
  unfold NetworkManager.ingestSyncEvents
  split
  · exact .refl s
  have hingested : Sends host s (events.foldl (NetworkManager.ingestEvent qt host o) (s, [])).1 :=
    ingestEvents_sends
  generalize events.foldl (NetworkManager.ingestEvent qt host o) (s, []) = ingested at hingested ⊢
  obtain ⟨s₁, healConvs⟩ := ingested
  dsimp only at hingested ⊢
  have hhealed : Sends host s₁ ((healConvs.insertionSort fun a b => o.order a ≤ o.order b).foldl
      (fun s convId => s.healGroupSenderKey qt o convId) s₁) :=
    Sends.foldl (fun _ _ => healGroupSenderKey_sends) _ s₁
  generalize (healConvs.insertionSort fun a b => o.order a ≤ o.order b).foldl
    (fun s convId => s.healGroupSenderKey qt o convId) s₁ = s₂ at hhealed ⊢
  have hadvanced : Sends host s (s₂.advanceSyncCursor host o lastSeq) :=
    (hingested.trans hhealed).trans advanceSyncCursor_sends
  split
  · exact hadvanced.trans syncEvents_sends
  · exact hadvanced

theorem handleSyncEventsResponse_sends {requestId : Nat} {response : Json} :
    Sends host s (s.handleSyncEventsResponse qt crypto host o requestId response) := by
  unfold NetworkManager.handleSyncEventsResponse
  split
  · exact .refl s
  dsimp only
  have hcleared : Sends host s { s with pendingSyncEventsRequestId := 0 } :=
    .of_same rfl rfl rfl rfl (fun _ h => h) rfl rfl rfl
  split
  · exact hcleared
  · split
    · exact hcleared.trans (advanceSyncCursor_sends.trans getConversations_sends)
    · refine (hcleared.trans (Sends.foldl (fun _ _ => ?_) _ _)).trans ingestSyncEvents_sends
      exact processDistribution_sends

/-! ### Registration of keys and errors -/

theorem handleRegisterKeysResponse_sends {requestId : Nat} {response : Json} :
    Sends host s (s.handleRegisterKeysResponse qt crypto host o requestId response) := by
  unfold NetworkManager.handleRegisterKeysResponse
  split
  · exact .refl s
  dsimp only
  split
  · refine Sends.trans (Sends.trans ?_ flushOutbox_sends) drainHealQueue_sends
    exact .of_same rfl rfl rfl rfl (fun _ h => h) rfl rfl rfl
  · exact .of_same rfl rfl rfl rfl (fun _ h => h) rfl rfl rfl

theorem retryBootstrap_sends : Sends host s (s.retryBootstrap qt o) := by
  unfold NetworkManager.retryBootstrap
  split
  · exact bootstrapE2ee_sends
  · exact .refl s

/-! ### Signing out and reconnecting -/

/-- A quiet call that leaves the client not signed in. -/
structure Leaves (host : Host) (s s' : NetworkManager) : Prop extends Quiet host s s' where
  state : s'.state ≠ .authenticated

theorem Quiet.of_same (hdevice : s'.localDeviceId = s.localDeviceId)
    (henqueued : s'.enqueued = s.enqueued) (houtbox : s'.outbox = s.outbox)
    (hstore : s'.localStore = s.localStore) (hdisk : s'.disk = s.disk) (hsent : s'.sent = s.sent) :
    Quiet host s s' where
  device := .inl hdevice
  enqueued := henqueued
  outbox item h := by rwa [houtbox] at h
  handle handle h := by rwa [hstore] at h
  disk path row h := by rwa [hdisk] at h
  sent x h := by
    rw [hsent] at h
    exact .inl h

/-- A quiet call that sends nothing, after another. -/
theorem Quiet.silent (h : Quiet host s s') (h' : Quiet host s' s'') (hsent : s''.sent = s'.sent) :
    Quiet host s s'' where
  device := by
    rcases h'.device with hdevice | hdevice
    · rw [hdevice]
      exact h.device
    · exact .inr hdevice
  enqueued := h'.enqueued.trans h.enqueued
  outbox item hitem := h.outbox item (h'.outbox item hitem)
  handle handle hhandle := h.handle handle (h'.handle handle hhandle)
  disk path row hrow := h.disk path row (h'.disk path row hrow)
  sent x hx := by
    rw [hsent] at hx
    exact h.sent x hx

/-- A request without an item is quiet whoever is signed in. -/
theorem Quiet.plain (h : Quiet host s s') {request : Request} (hitem : request.item? = none) :
    Quiet host s (s'.sendPacket qt o request) where
  device := h.device
  enqueued := h.enqueued
  outbox := h.outbox
  handle := h.handle
  disk := h.disk
  sent x hx := by
    unfold NetworkManager.sendPacket at hx
    dsimp only at hx
    split at hx
    · exact h.sent x hx
    · rcases List.mem_append.mp hx with hx | hx
      · exact h.sent x hx
      · obtain rfl := List.mem_singleton.mp hx
        exact .inr fun item hsome => by rw [hitem] at hsome; cases hsome

theorem write_sent {call : DiskCall} {statement : TextCipher → Database → Option Database} :
    (s.write host o call statement).sent = s.sent := by
  unfold NetworkManager.write
  split
  · rfl
  · split
    · rfl
    · rfl
    · split <;> rfl

theorem resetAuthState_quiet : Quiet host s (s.resetAuthState host o) := by
  unfold NetworkManager.resetAuthState
  dsimp only
  split
  · refine Quiet.silent ?_ clearAndClose_sends.toQuiet ?_
    · exact .of_same rfl rfl rfl rfl rfl rfl
    · exact write_sent.trans write_sent
  · exact .of_same rfl rfl rfl rfl rfl rfl

theorem sendLoginRequest_leaves (h : Quiet host s s') :
    Leaves host s (s'.sendLoginRequest qt host o) where
  toQuiet := by
    unfold NetworkManager.sendLoginRequest
    have hdevice : Quiet host s
        { s' with localDeviceId := host.machineUniqueId, pendingLoginRequestId := s'.nextRequestId } :=
      { h with device := .inr rfl }
    exact { hdevice.plain rfl with }
  state := by
    show ConnectionState.loggingIn ≠ .authenticated
    decide

theorem sendRegisterRequest_leaves (h : Quiet host s s') :
    Leaves host s (s'.sendRegisterRequest qt o) where
  toQuiet := by
    unfold NetworkManager.sendRegisterRequest
    have hpending : Quiet host s { s' with pendingRegisterRequestId := s'.nextRequestId } :=
      { h with }
    exact { hpending.plain rfl with }
  state := by
    show ConnectionState.loggingIn ≠ .authenticated
    decide

theorem connectToServer_leaves (h : Quiet host s s') (hstate : s'.state ≠ .authenticated) :
    Leaves host s (s'.connectToServer host) := by
  unfold NetworkManager.connectToServer
  split
  · exact { h with state := hstate }
  · split
    · exact { h with state := by show ConnectionState.connecting ≠ .authenticated; decide }
    · exact { h with state := hstate }

theorem login_leaves {username password : String} :
    Leaves host s (s.login qt host o username password) := by
  unfold NetworkManager.login
  dsimp only
  have hpending : Quiet host s { s with
      pendingUsername := username
      pendingPassword := password
      loginQueued := true
      registerQueued := false
      reconnectEnabled := true } := .of_same rfl rfl rfl rfl rfl rfl
  split
  · exact sendLoginRequest_leaves hpending
  · rename_i hstate
    exact connectToServer_leaves hpending fun h => hstate (.inr h)

theorem registerAccount_leaves {username password email phone : String} :
    Leaves host s (s.registerAccount qt host o username password email phone) := by
  unfold NetworkManager.registerAccount
  dsimp only
  have hpending : Quiet host s { s with
      pendingUsername := username
      pendingRegisterPassword := password
      pendingEmail := email
      pendingPhone := phone
      registerQueued := true
      loginQueued := false
      reconnectEnabled := false } := .of_same rfl rfl rfl rfl rfl rfl
  split
  · exact sendRegisterRequest_leaves hpending
  · rename_i hstate
    exact connectToServer_leaves hpending fun h => hstate (.inr h)

theorem onConnected_leaves : Leaves host s (s.onConnected qt host o) := by
  unfold NetworkManager.onConnected
  dsimp only
  have hconnected : Quiet host s
      { s with state := .connected, connection := s.connection + 1 } :=
    .of_same rfl rfl rfl rfl rfl rfl
  split
  · exact sendLoginRequest_leaves hconnected
  · split
    · exact sendRegisterRequest_leaves hconnected
    · exact { hconnected with state := by show ConnectionState.connected ≠ .authenticated; decide }

theorem onDisconnected_leaves : Leaves host s s.onDisconnected where
  toQuiet := .of_same rfl rfl rfl rfl rfl rfl
  state := by
    show ConnectionState.disconnected ≠ .authenticated
    decide

theorem dropQueued_sends : Sends host s s.dropQueued := by
  unfold NetworkManager.dropQueued
  split <;> exact .of_same rfl rfl rfl rfl (fun _ h => h) rfl rfl rfl

theorem onSslErrors_leaves : Leaves host s s.onSslErrors where
  toQuiet := { (dropQueued_sends : Sends host s _).toQuiet with }
  state := by
    show ConnectionState.disconnected ≠ .authenticated
    decide

theorem handleLogoutResponse_leaves : Leaves host s (s.handleLogoutResponse host o) where
  toQuiet := { (resetAuthState_quiet : Quiet host s (s.resetAuthState host o)) with }
  state := by
    show ConnectionState.connected ≠ .authenticated
    decide

/-! ## The invariant -/

/-- Everything the client holds is for the user it holds it for. -/
structure AccountInvariant (host : Host) (s : NetworkManager) : Prop extends
    OutboxIsolated host s where
  device : s.localDeviceId = "" ∨ s.localDeviceId = host.machineUniqueId
  handle : ∀ handle ∈ s.localStore, handle.deviceId = host.machineUniqueId
  outbox : s.state = .authenticated → ∀ item ∈ s.outbox, (item, s.username) ∈ s.enqueued

/-- Only a distribution is sent without an item. -/
theorem Sent.owned_of_item {enqueued : List (OutboxItem × String)} {x : Sent}
    (h : ∀ item user, x.request.item? = some item → x.account = some user →
      (item, user) ∈ enqueued) : x.Owned enqueued := by
  intro user haccount htype
  obtain ⟨connection, requestId, account, request⟩ := x
  cases request with
  | sendPrivate item envelope => exact h item user rfl haccount
  | sendGroup item envelope keyId => exact h item user rfl haccount
  | sendDistribution conversationId clientMessageId content dist => exact ⟨_, _, _, _, rfl⟩
  | _ => cases htype

/-- What is signed in owns its outbox. -/
theorem AccountInvariant.owned (h : AccountInvariant host s) {item : OutboxItem} {user : String}
    (hitem : item ∈ s.outbox) (haccount : s.account = some user) : (item, user) ∈ s.enqueued := by
  unfold NetworkManager.account at haccount
  split at haccount
  · rename_i hstate
    obtain rfl := Option.some.inj haccount
    exact h.outbox hstate item hitem
  · cases haccount

theorem AccountInvariant.quiet (h : AccountInvariant host s) (hquiet : Quiet host s s')
    (houtbox : s'.state = .authenticated → ∀ item ∈ s'.outbox, (item, s'.username) ∈ s.enqueued) :
    AccountInvariant host s' where
  sent x hx := by
    rw [hquiet.enqueued]
    rcases hquiet.sent x hx with hx | hcarries
    · exact h.sent x hx
    · refine Sent.owned_of_item fun item user hitem haccount => ?_
      obtain ⟨hsame, hmem⟩ := hcarries item hitem
      exact h.owned hmem (by rw [← hsame, haccount])
  persisted username row hrow := by
    rw [hquiet.enqueued]
    exact h.persisted username row (hquiet.disk _ row hrow)
  device := by
    rcases hquiet.device with hdevice | hdevice
    · rw [hdevice]
      exact h.device
    · exact .inr hdevice
  handle handle hhandle := h.handle handle (hquiet.handle handle hhandle)
  outbox hstate item hitem := by
    rw [hquiet.enqueued]
    exact houtbox hstate item hitem

theorem AccountInvariant.sends (h : AccountInvariant host s) (hsends : Sends host s s') :
    AccountInvariant host s' :=
  h.quiet hsends.toQuiet fun hstate item hitem => by
    rw [hsends.username]
    exact h.outbox (by rw [← hsends.state, hstate]) item (hsends.outbox item hitem)

theorem AccountInvariant.leaves (h : AccountInvariant host s) (hleaves : Leaves host s s') :
    AccountInvariant host s' :=
  h.quiet hleaves.toQuiet fun hstate => absurd hstate hleaves.state

theorem Launched.invariant (h : Launched host s) : AccountInvariant host s := by
  obtain ⟨disk, enqueued, rfl⟩ := h.fresh
  exact
    { sent := fun x hx => by cases hx
      persisted := h.persisted
      device := .inl rfl
      handle := fun _ hhandle => by cases hhandle
      outbox := fun hstate => by cases hstate }

/-! ### Errors -/

theorem AccountInvariant.notifySessionExpired (h : AccountInvariant host s) :
    AccountInvariant host (s.notifySessionExpired host o) := by
  unfold NetworkManager.notifySessionExpired
  split
  · exact h
  · have hreset : Quiet host s ({ s with sessionExpiredNotified := true }.resetAuthState host o) :=
      { (resetAuthState_quiet : Quiet host _ _) with }
    exact h.leaves
      { hreset with state := by show ConnectionState.disconnected ≠ .authenticated; decide }

theorem AccountInvariant.handleTokenRenewResponse (h : AccountInvariant host s) {requestId : Nat}
    {response : Json} :
    AccountInvariant host (s.handleTokenRenewResponse host o requestId response) := by
  unfold NetworkManager.handleTokenRenewResponse
  split
  · exact h
  have hcleared : Sends host s { s with pendingTokenRenewRequestId := 0 } :=
    .of_same rfl rfl rfl rfl (fun _ h => h) rfl rfl rfl
  dsimp only
  split
  · exact h.sends (.of_same rfl rfl rfl rfl (fun _ h => h) rfl rfl rfl)
  · split
    · exact (h.sends hcleared).notifySessionExpired
    · exact h.sends hcleared

theorem AccountInvariant.handleErrorResponse (h : AccountInvariant host s) {requestId : Nat}
    {response : Json} :
    AccountInvariant host (s.handleErrorResponse qt host o requestId response) := by
  unfold NetworkManager.handleErrorResponse
  dsimp only
  split
  · exact h.notifySessionExpired
  generalize hgroup : (if requestId ≠ 0 ∧ requestId = s.pendingFetchGroupKeysRequestId then
    { s with pendingFetchGroupKeysRequestId := 0, fetchGroupKeysTargetConvId := 0 }.drainHealQueue
      qt o else s) = s₁
  have h₁ : AccountInvariant host s₁ := by
    rw [← hgroup]
    split
    · refine (h.sends ?_).sends drainHealQueue_sends
      exact .of_same rfl rfl rfl rfl (fun _ h => h) rfl rfl rfl
    · exact h
  generalize hfetch : (if requestId ≠ 0 ∧ requestId = s₁.pendingFetchKeysRequestId then
    { s₁ with pendingFetchKeysRequestId := 0, fetchKeysTargetUserId := 0 } else s₁) = s₂
  have h₂ : AccountInvariant host s₂ := by
    rw [← hfetch]
    split
    · exact h₁.sends (.of_same rfl rfl rfl rfl (fun _ h => h) rfl rfl rfl)
    · exact h₁
  split
  · exact h₂.sends (.of_same rfl rfl rfl rfl (fun _ h => h) rfl rfl rfl)
  · exact h₂

/-! ### Opening the store -/

/-- The store opened is the user's on this device. -/
theorem openDatabase_handle {username deviceId : String} {handle : StoreHandle}
    (h : (s.openDatabase o username deviceId).localStore = some handle) :
    s.localStore = some handle ∨ (handle.username = username ∧ handle.deviceId = deviceId ∧
      deviceId ≠ "") := by
  unfold NetworkManager.openDatabase at h
  split at h
  · exact .inl h
  · split at h
    · exact .inl h
    · rename_i hnames
      split at h
      · obtain rfl := Option.some.inj h
        exact .inr ⟨rfl, rfl, fun hempty => hnames (.inr hempty)⟩
      · exact .inl h

/-- Nothing but the handle changes. -/
theorem openDatabase_same (s : NetworkManager) (o : Outside) (username deviceId : String) :
    ∃ localStore, s.openDatabase o username deviceId = { s with localStore } := by
  unfold NetworkManager.openDatabase
  split
  · exact ⟨_, rfl⟩
  · split
    · exact ⟨_, rfl⟩
    · split
      · exact ⟨_, rfl⟩
      · exact ⟨_, rfl⟩

theorem AccountInvariant.openDatabase (h : AccountInvariant host s) {username deviceId : String}
    (hdevice : deviceId ≠ "" → deviceId = host.machineUniqueId) :
    AccountInvariant host (s.openDatabase o username deviceId) := by
  have hhandle : ∀ handle ∈ (s.openDatabase o username deviceId).localStore,
      handle.deviceId = host.machineUniqueId := by
    intro handle hopen
    rcases openDatabase_handle hopen with hopen | ⟨_, hsame, hempty⟩
    · exact h.handle handle hopen
    · rw [hsame, hdevice hempty]
  obtain ⟨localStore, hsame⟩ := openDatabase_same s o username deviceId
  rw [hsame] at hhandle ⊢
  exact
    { sent := h.sent, persisted := h.persisted, device := h.device
      handle := hhandle
      outbox := h.outbox }

/-- The device a store is opened for before a login is this one. -/
theorem AccountInvariant.openForOutbox (h : AccountInvariant host s) :
    AccountInvariant host (s.openForOutbox host o) := by
  refine h.openDatabase fun _ => ?_
  split
  · rfl
  · rename_i hdevice
    exact h.device.resolve_left hdevice

/-! ### Enqueuing -/

/-- What the databases hold after an item was added: what they held, and the
item for the user of the store that was open. -/
theorem addOutboxItem_rows (hcipher : ∀ user, (host.cipher user).Correct)
    (h : AccountInvariant host s) {item : OutboxItem} {username : String} {row : OutboxRow}
    (hrow : row ∈ ((s.addOutboxItem qt host o item).disk
      (dbFilePath username host.machineUniqueId)).outbox) :
    (row.item (host.cipher username), username) ∈ s.enqueued ∨
      (row.item (host.cipher username) = item ∧
        ∃ handle, s.Takes qt host o handle item ∧ handle.username = username) := by
  unfold NetworkManager.addOutboxItem NetworkManager.write at hrow
  split at hrow
  · exact .inl (h.persisted username row hrow)
  rename_i handle hopen
  split at hrow
  · exact .inl (h.persisted username row hrow)
  · exact .inl (h.persisted username row hrow)
  rename_i hdone
  split at hrow
  · exact .inl (h.persisted username row hrow)
  rename_i db hdb
  have hrow : row ∈ (Function.update s.disk handle.path db
    (dbFilePath username host.machineUniqueId)).outbox := hrow
  by_cases hpath : dbFilePath username host.machineUniqueId = handle.path
  · have huser : handle.username = username := by
      have hdevice := h.handle handle hopen
      unfold StoreHandle.path at hpath
      rw [hdevice] at hpath
      exact (dbFilePath_inj hpath).symm
    rw [hpath, Function.update_self] at hrow
    dsimp only at hdb
    rcases addOutboxItem_outbox hdb hrow with hold | ⟨henc, hid, hto, hconv⟩
    · rw [← hpath] at hold
      exact .inl (h.persisted username row hold)
    · refine .inr ⟨?_, handle, ⟨hopen, hdone, by rw [hdb]; rfl⟩, huser⟩
      unfold OutboxRow.item
      rw [henc, ← huser, (hcipher _).decryptText_encryptText, hid, hto, hconv]
  · rw [Function.update_of_ne hpath] at hrow
    exact .inl (h.persisted username row hrow)

theorem addOutboxItem_same (qt : Qt) (host : Host) (o : Outside) (s : NetworkManager)
    (item : OutboxItem) :
    ∃ localStore disk, s.addOutboxItem qt host o item = { s with localStore, disk } ∧
      ∀ handle ∈ localStore, handle ∈ s.localStore := by
  unfold NetworkManager.addOutboxItem NetworkManager.write
  split
  · exact ⟨_, _, rfl, fun _ h => h⟩
  · split
    · exact ⟨none, s.disk, rfl, fun _ h => by cases h⟩
    · exact ⟨_, _, rfl, fun _ h => h⟩
    · split
      · exact ⟨_, _, rfl, fun _ h => h⟩
      · exact ⟨s.localStore, _, rfl, fun _ h => h⟩

/-- **Enqueuing.** An item that goes to its user's own store keeps the
invariant. -/
theorem AccountInvariant.enqueue (hcipher : ∀ user, (host.cipher user).Correct)
    (h : AccountInvariant host s) {item : OutboxItem}
    (hstore : ∀ handle, s.Takes qt host o handle item → handle.username = s.outboxUser) :
    AccountInvariant host (s.enqueue qt host o item) := by
  unfold NetworkManager.enqueue
  dsimp only
  have h₁ : AccountInvariant host (s.openForOutbox host o) := h.openForOutbox
  have hrows : ∀ username row, row ∈ (((s.openForOutbox host o).addOutboxItem qt host o item).disk
      (dbFilePath username host.machineUniqueId)).outbox →
      (row.item (host.cipher username), username) ∈ s.enqueued ++ [(item, s.outboxUser)] := by
    intro username row hrow
    rcases addOutboxItem_rows hcipher h₁ hrow with hold | ⟨hitem, handle, htakes, huser⟩
    · refine List.mem_append_left _ ?_
      obtain ⟨localStore, hsame⟩ := openDatabase_same s o s.outboxUser
        (if s.localDeviceId = "" then host.machineUniqueId else s.localDeviceId)
      unfold NetworkManager.openForOutbox at hold
      rw [hsame] at hold
      exact hold
    · refine List.mem_append_right _ ?_
      have hown : handle.username = s.outboxUser := by
        obtain ⟨hopen, hdone, haccepts⟩ := htakes
        rcases openDatabase_handle hopen with hwas | ⟨huser, _⟩
        · obtain ⟨localStore, hsame⟩ := openDatabase_same s o s.outboxUser
            (if s.localDeviceId = "" then host.machineUniqueId else s.localDeviceId)
          unfold NetworkManager.openForOutbox at haccepts
          rw [hsame] at haccepts
          exact hstore handle ⟨hwas, hdone, haccepts⟩
        · exact huser
      rw [hitem, ← huser, hown]
      exact List.mem_singleton_self _
  obtain ⟨localStore, hopened⟩ := openDatabase_same s o s.outboxUser
    (if s.localDeviceId = "" then host.machineUniqueId else s.localDeviceId)
  have hopened : s.openForOutbox host o = { s with localStore } := hopened
  rw [hopened] at h₁ hrows ⊢
  obtain ⟨localStore', disk, hadded, hhandle⟩ :=
    addOutboxItem_same qt host o { s with localStore } item
  rw [hadded] at hrows ⊢
  exact
    { sent := fun x hx user haccount htype => by
        have howned := h.sent x hx user haccount htype
        split at howned
        · exact List.mem_append_left _ howned
        · exact howned
      persisted := hrows
      device := h.device
      handle := fun handle hmem => h₁.handle handle (hhandle handle hmem)
      outbox := fun hstate item' hitem => by
        rcases List.mem_append.mp hitem with hitem | hitem
        · exact List.mem_append_left _ (h.outbox hstate item' hitem)
        · obtain rfl := List.mem_singleton.mp hitem
          refine List.mem_append_right _ ?_
          have hstate : s.state = .authenticated := hstate
          unfold NetworkManager.outboxUser
          rw [if_pos hstate]
          exact List.mem_singleton_self _ }

/-! ### Signing in -/

theorem AccountInvariant.restoreItem (h : AccountInvariant host s) {item : OutboxItem}
    (hitem : (item, s.username) ∈ s.enqueued) : AccountInvariant host (s.restoreItem item) := by
  unfold NetworkManager.restoreItem
  split
  · exact h
  · refine { sent := h.sent, persisted := h.persisted, device := h.device, handle := h.handle
             outbox := fun hstate item' hmem => ?_ }
    rcases List.mem_append.mp hmem with hmem | hmem
    · exact h.outbox hstate item' hmem
    · obtain rfl := List.mem_singleton.mp hmem
      exact hitem

/-- Taking back items of the signed-in user. -/
theorem AccountInvariant.restoreItems {items : List OutboxItem} {s : NetworkManager}
    (h : AccountInvariant host s) (hitems : ∀ item ∈ items, (item, s.username) ∈ s.enqueued) :
    AccountInvariant host (items.foldl NetworkManager.restoreItem s) := by
  induction items generalizing s with
  | nil => exact h
  | cons item items ih =>
      refine ih (h.restoreItem (hitems item List.mem_cons_self)) fun item' hitem' => ?_
      have hsame : (s.restoreItem item).username = s.username ∧
          (s.restoreItem item).enqueued = s.enqueued := by
        unfold NetworkManager.restoreItem
        split <;> exact ⟨rfl, rfl⟩
      rw [hsame.1, hsame.2]
      exact hitems item' (List.mem_cons_of_mem _ hitem')

/-- What the store of the signed-in user holds was enqueued for that user. -/
theorem AccountInvariant.loadOutbox (h : AccountInvariant host s)
    (hopen : ∀ handle ∈ s.localStore, handle.username = s.username) {item : OutboxItem}
    (hitem : item ∈ s.loadOutbox host o) : (item, s.username) ∈ s.enqueued := by
  unfold NetworkManager.loadOutbox NetworkManager.readStore at hitem
  split at hitem
  · cases hitem
  · rename_i cipher db hread
    split at hread
    · cases hread
    · rename_i handle hstore
      split at hread
      · obtain ⟨rfl, rfl⟩ := Prod.mk.inj (Option.some.inj hread)
        obtain ⟨row, hrow, rfl⟩ := mem_loadOutbox hitem
        have huser := hopen handle hstore
        have hpath : handle.path = dbFilePath s.username host.machineUniqueId := by
          unfold StoreHandle.path
          rw [huser, h.handle handle hstore]
        rw [hpath] at hrow
        rw [huser]
        exact h.persisted s.username row hrow
      · cases hread

/-- A store that is still open then is the signed-in user's. -/
theorem closeOther_sends : Sends host s (s.closeOther host o) ∧
    ∀ handle ∈ (s.closeOther host o).localStore, handle.username = (s.closeOther host o).username := by
  unfold NetworkManager.closeOther
  split
  · rename_i handle hstore
    split
    · exact ⟨clearAndClose_sends, fun _ hnone => by cases hnone⟩
    · rename_i huser
      refine ⟨.refl s, fun handle' hstore' => ?_⟩
      rw [hstore] at hstore'
      obtain rfl := Option.some.inj hstore'
      exact not_not.mp huser
  · rename_i hnone
    exact ⟨.refl s, fun _ hsome => by rw [hnone] at hsome; cases hsome⟩

theorem AccountInvariant.openLocalStore (h : AccountInvariant host s) :
    AccountInvariant host (s.openLocalStore qt host o) := by
  unfold NetworkManager.openLocalStore
  split
  · exact h
  dsimp only
  obtain ⟨hsends, hown⟩ : Sends host s (s.closeOther host o) ∧ _ := closeOther_sends
  generalize s.closeOther host o = s₁ at hsends hown ⊢
  have h₁ := h.sends hsends
  generalize hopened : s₁.openDatabase o s₁.username s₁.localDeviceId = s₂
  have h₂ : AccountInvariant host s₂ := by
    rw [← hopened]
    exact h₁.openDatabase h₁.device.resolve_left
  have hown₂ : ∀ handle ∈ s₂.localStore, handle.username = s₂.username := by
    intro handle hhandle
    have husername : s₂.username = s₁.username := by
      obtain ⟨localStore, hsame⟩ := openDatabase_same s₁ o s₁.username s₁.localDeviceId
      rw [← hopened, hsame]
    rw [← hopened] at hhandle
    rw [husername]
    rcases openDatabase_handle hhandle with hwas | ⟨huser, _⟩
    · exact hown handle hwas
    · exact huser
  split
  · exact h₂
  · exact (h₂.restoreItems fun item hitem => h₂.loadOutbox hown₂ hitem).sends syncEvents_sends

/-- **Signing in** as the user of everything in the outbox. -/
theorem AccountInvariant.handleLoginResponse (h : AccountInvariant host s) {requestId : Nat}
    {response : Json}
    (hlogin : ∀ user, s.SignsIn user (.packet .loginResponse requestId response) →
      ∀ item ∈ s.outbox, (item, user) ∈ s.enqueued) :
    AccountInvariant host (s.handleLoginResponse qt crypto host o requestId response) := by
  unfold NetworkManager.handleLoginResponse
  split
  · exact h
  rename_i hpending
  dsimp only
  split
  · rename_i hcode
    refine (AccountInvariant.openLocalStore ?_).sends flushOutbox_sends
    exact
      { sent := h.sent, persisted := h.persisted, device := h.device, handle := h.handle
        outbox := fun _ => hlogin _ ⟨not_not.mp hpending, hcode, rfl⟩ }
  · refine h.leaves { (Quiet.of_same rfl rfl rfl rfl rfl rfl : Quiet host s _) with state := ?_ }
    show ConnectionState.connected ≠ .authenticated
    decide

/-! ## The run -/

/-- **Step lemma.** A call that keeps accounts apart keeps the invariant. -/
theorem AccountInvariant.step (hcipher : ∀ user, (host.cipher user).Correct)
    (h : AccountInvariant host s) {x : Outside × ClientCall} (hx : KeepsAccounts qt host s x) :
    AccountInvariant host ((clientMachine qt crypto host).step s x) := by
  obtain ⟨o, call⟩ := x
  show AccountInvariant host (call.apply qt crypto host o s)
  cases call with
  | login username password => exact h.leaves login_leaves
  | registerAccount username password email phone => exact h.leaves registerAccount_leaves
  | logout =>
      show AccountInvariant host (s.logout qt o)
      unfold NetworkManager.logout
      split
      · exact h
      · exact h.sends (Sends.plain (.refl s) rfl)
  | renewToken =>
      show AccountInvariant host (s.renewToken qt o)
      unfold NetworkManager.renewToken
      split
      · exact h
      · refine h.sends (Sends.plain ?_ rfl)
        exact .of_same rfl rfl rfl rfl (fun _ h => h) rfl rfl rfl
  | sendMessage clientMessageId toUserId content =>
      have henqueued := h.enqueue hcipher (hx.store _ rfl)
      show AccountInvariant host (s.sendMessage qt crypto host o clientMessageId toUserId content)
      unfold NetworkManager.sendMessage
      dsimp only
      split
      · exact henqueued.sends flushOutbox_sends
      · exact henqueued
  | sendGroupMessage clientMessageId conversationId content =>
      show AccountInvariant host
        (s.sendGroupMessage qt crypto host o clientMessageId conversationId content)
      unfold NetworkManager.sendGroupMessage
      split
      · exact h
      · rename_i hvalid
        have henqueued := h.enqueue hcipher (hx.store _ (if_neg hvalid))
        dsimp only
        split
        · exact henqueued.sends flushOutbox_sends
        · exact henqueued
  | editMessage conversationId peerUserId messageId newContent => exact h.sends editMessage_sends
  | getConversations => exact h.sends getConversations_sends
  | connected => exact h.leaves onConnected_leaves
  | disconnected => exact h.leaves onDisconnected_leaves
  | socketError =>
      show AccountInvariant host s.onSocketError
      unfold NetworkManager.onSocketError
      split
      · exact h.leaves onSslErrors_leaves
      · exact h
  | sslErrors => exact h.leaves onSslErrors_leaves
  | reconnectTimer =>
      show AccountInvariant host (s.connectToServer host)
      by_cases hstate : s.state = .disconnected
      · refine h.leaves (connectToServer_leaves (.of_same rfl rfl rfl rfl rfl rfl) ?_)
        rw [hstate]
        decide
      · unfold NetworkManager.connectToServer
        rw [if_pos hstate]
        exact h
  | flushTimer =>
      refine h.sends (Sends.trans ?_ flushOutbox_sends)
      exact .of_same rfl rfl rfl rfl (fun _ h => h) rfl rfl rfl
  | bootstrapTimer => exact h.sends retryBootstrap_sends
  | healTimer => exact h.sends drainHealQueue_sends
  | packet messageType requestId payload =>
      show AccountInvariant host
        (s.handlePacket qt crypto host o messageType requestId payload)
      cases messageType with
      | loginResponse => exact h.handleLoginResponse hx.login
      | registerResponse =>
          show AccountInvariant host (s.handleRegisterResponse requestId)
          unfold NetworkManager.handleRegisterResponse
          split
          · exact h
          · refine h.leaves
              { (Quiet.of_same rfl rfl rfl rfl rfl rfl : Quiet host s _) with state := ?_ }
            show ConnectionState.connected ≠ .authenticated
            decide
      | logoutResponse => exact h.leaves handleLogoutResponse_leaves
      | tokenRenewResponse => exact h.handleTokenRenewResponse
      | error => exact h.handleErrorResponse
      | sendMessageResponse => exact h.sends handleSendMessageResponse_sends
      | syncEventsResponse => exact h.sends handleSyncEventsResponse_sends
      | registerKeysResponse => exact h.sends handleRegisterKeysResponse_sends
      | fetchKeysResponse => exact h.sends handleFetchKeysResponse_sends
      | fetchGroupKeysResponse => exact h.sends handleFetchGroupKeysResponse_sends
      | leaveGroupResponse => exact h.sends handleLeaveGroupResponse_sends
      | groupChangedNotification => exact h.sends handleGroupChangedNotification_sends
      | _ => exact h
  | restart =>
      exact
        { sent := h.sent, persisted := h.persisted
          device := .inl rfl
          handle := fun _ hhandle => by cases hhandle
          outbox := fun hstate => by cases hstate }

/-- **Account isolation.** In every run of the client whose logins find only
items of their user in the outbox, and whose items go to the store of their
user, what is sent as a user and what is stored for one was enqueued for that
user. -/
theorem outboxIsolated_of_keepsAccounts (hcipher : ∀ user, (host.cipher user).Correct)
    {ops : List (Outside × ClientCall)} (hs : Launched host s)
    (hops : (clientMachine qt crypto host).Along (KeepsAccounts qt host) s ops) :
    (clientMachine qt crypto host).Always (OutboxIsolated host) s ops :=
  Machine.Always.mono (fun _ (h : AccountInvariant host _) => h.toOutboxIsolated)
    (Machine.always_of_along (fun _ _ h hx => h.step hcipher hx) hs.invariant hops)

end

/-! ## Two accounts on one machine -/

def offlineQt : Qt where
  fromJson _ := none
  toJson _ := "-"
  fromBase64 _ := List.replicate 32 0
  toBase64 _ := ""
  isoDate _ := ""

/-- Primitives of the right sizes. -/
def flatCrypto : Crypto where
  hkdf _ _ _ := List.replicate 32 0
  gcmSeal _ _ _ := List.replicate 16 0
  gcmOpen _ _ _ := none
  ed25519Sign _ _ := []
  ed25519Verify _ _ _ := false
  x25519 _ _ := some (List.replicate 32 0)

def sharedHost : Host where
  machineUniqueId := "m"
  cipher _ := plainCipher

/-- An outside in which nothing fails. -/
def calmOutside : Outside :=
  let keyPair : E2eeCrypto.KeyPair :=
    { publicKey := List.replicate 32 0, privateKey := List.replicate 32 0, valid := true }
  { registration := { identityKey := keyPair }
    draw := fun _ _ => ⟨keyPair, List.replicate 12 0⟩ }

def loggedIn (requestId : Nat) (username : String) : ClientCall :=
  .packet .loginResponse requestId (.obj
    [ ("code", .int 0)
    , ("data", .obj [("token", .str "t"), ("userId", .int 1), ("username", .str username)]) ])

def sharedClient : Machine NetworkManager (Outside × ClientCall) :=
  clientMachine offlineQt flatCrypto sharedHost

theorem sharedHost_launched : Launched sharedHost {} where
  fresh := ⟨_, _, rfl⟩
  persisted := fun _ _ h => by cases h

/-- Alice sends a message, loses the connection and signs in again. -/
def aliceAgain : List (Outside × ClientCall) :=
  [ .login "alice" "", .connected, loggedIn 1 "alice", .sendMessage "m1" 3 "hi", .disconnected
  , .connected, loggedIn 4 "alice" ].map ((calmOutside, ·))

theorem outboxIsolated_aliceAgain : sharedClient.Always (OutboxIsolated sharedHost) {} aliceAgain := by
  refine outboxIsolated_of_keepsAccounts (fun _ => plainCipher_correct) sharedHost_launched
    ⟨⟨fun _ h => h.elim, fun _ h => by cases h⟩, ⟨fun _ h => h.elim, fun _ h => by cases h⟩,
      ⟨?_, fun _ h => by cases h⟩, ⟨fun _ h => h.elim, ?_⟩,
      ⟨fun _ h => h.elim, fun _ h => by cases h⟩, ⟨fun _ h => h.elim, fun _ h => by cases h⟩,
      ⟨?_, fun _ h => by cases h⟩, trivial⟩
  · rintro _ ⟨_, _, rfl⟩
    decide +kernel
  · rintro item _ handle ⟨hopen, _⟩
    have hstore : (sharedClient.run {} (aliceAgain.take 3)).localStore = some ⟨"alice", "m"⟩ := by
      decide +kernel
    obtain rfl := Option.some.inj (hstore.symm.trans hopen)
    decide +kernel
  · rintro _ ⟨_, _, rfl⟩
    decide +kernel

/-- Alice's message waits while she logs out and bob logs in. -/
def bobAfterAlice : List (Outside × ClientCall) :=
  [ .login "alice" "", .connected, loggedIn 1 "alice", .sendMessage "m1" 3 "hi", .logout
  , .packet .logoutResponse 4 .null, .login "bob" "", loggedIn 5 "bob"
  , .packet .registerKeysResponse 7 (.obj [("code", .int 0)])
  , .packet .fetchKeysResponse 8 (.obj
      [ ("code", .int 0)
      , ("data", .obj [("bundles", .arr [.obj [("deviceId", .str "d"), ("prekeyId", .int 1)]])]) ])
  ].map ((calmOutside, ·))

/-- Then bob sends it. -/
theorem bobAfterAlice_sendsHers :
    Launched sharedHost {} ∧ ¬ sharedClient.Always (OutboxIsolated sharedHost) {} bobAfterAlice := by
  refine ⟨sharedHost_launched, fun h => ?_⟩
  have hlast := h.last
  have hsent : ∃ x ∈ (sharedClient.run {} bobAfterAlice).sent, x.account = some "bob" ∧
      x.request.messageType = .sendMessageRequest ∧ x.request.item? = some
        { clientMessageId := "m1", toUserId := 3, conversationId := 0, content := "hi" } := by
    decide +kernel
  obtain ⟨x, hx, haccount, htype, hitem⟩ := hsent
  have howned := hlast.sent x hx "bob" haccount htype
  rw [hitem] at howned
  have hnot : ((⟨"m1", 3, 0, "hi"⟩ : OutboxItem), "bob") ∉
      (sharedClient.run {} bobAfterAlice).enqueued := by
    decide +kernel
  exact hnot howned

end XYChat.Client
