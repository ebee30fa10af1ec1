import XYChat.Client.GroupReceive
import XYChat.Client.OutboxIsolation
import XYChat.Common.JsonReader

/-!
# A device's own sending keys

The keys a device sends under are rows of `sender_keys` like those it has received,
filed under its own user and device. Whatever comes in is filed under the user and
the device it names, without the private half, and a device can open its own
distributions.
-/

namespace XYChat.Client

open Lib
open GroupE2eeCrypto (SenderKey Receiver Distribution decryptMessage)

/-! ## The own rows -/

/-- The rows filed under a user and a device. -/
def ownRows (userId : Int) (deviceId : String) (rows : List SenderKeyRow) : List SenderKeyRow :=
  rows.filter fun row => row.senderUserId == userId && row.senderDeviceId == deviceId

section

variable {qt : Qt} {cipher : TextCipher} {userId : Int} {deviceId : String}

/-- Which key is the latest depends on the own rows, -/
theorem latestSenderKeyId_ownRows {db db' : Database}
    (h : ownRows userId deviceId db'.senderKeys = ownRows userId deviceId db.senderKeys)
    (groupId : Int) :
    db'.latestSenderKeyId groupId userId deviceId = db.latestSenderKeyId groupId userId deviceId := by
  have hfilter : ∀ rows : List SenderKeyRow, rows.filter (fun row => row.groupId == groupId
      && row.senderUserId == userId && row.senderDeviceId == deviceId) =
        (ownRows userId deviceId rows).filter (·.groupId == groupId) := by
    intro rows
    unfold ownRows
    rw [List.filter_filter]
    exact List.filter_congr fun row _ => Bool.and_assoc _ _ _
  unfold Database.latestSenderKeyId
  rw [hfilter, hfilter, h]

/-- and so does what is loaded of each of them. -/
theorem loadSenderKey_ownRows {db db' : Database}
    (h : ownRows userId deviceId db'.senderKeys = ownRows userId deviceId db.senderKeys)
    (groupId : Int) (keyId : String) :
    db'.loadSenderKey qt cipher groupId userId deviceId keyId =
      db.loadSenderKey qt cipher groupId userId deviceId keyId := by
  have hfind : ∀ rows : List SenderKeyRow, rows.find? (fun row => row.groupId == groupId
      && row.senderUserId == userId && row.senderDeviceId == deviceId && row.keyId == keyId) =
        (ownRows userId deviceId rows).find? fun row =>
          row.groupId == groupId && row.keyId == keyId := by
    intro rows
    unfold ownRows
    rw [List.find?_filter]
    congr 1
    funext row
    rw [Bool.eq_iff_iff]
    simp only [Bool.and_eq_true, beq_iff_eq, decide_eq_true_eq]
    tauto
  unfold Database.loadSenderKey
  rw [hfind, hfind, h]

/-- A key saved under another user or device is none of the own rows. -/
theorem ownRows_saveSenderKey {r : Nat × Nat} {a : KeyAddress} {key : SenderKey}
    {rows rows' : List SenderKeyRow} (hother : ¬(a.senderUserId = userId ∧ a.senderDeviceId = deviceId))
    (h : saveSenderKey qt cipher r a.groupId a.senderUserId a.senderDeviceId a.keyId key.chainKey
      key.publicSigningKey key.privateSigningKey key.iteration rows = some rows') :
    ownRows userId deviceId rows' = ownRows userId deviceId rows := by
  obtain ⟨row, haddress, -, -, -, -, hrows⟩ := saveSenderKey_replaces h
  subst haddress
  have hrow : (row.senderUserId == userId && row.senderDeviceId == deviceId) = false := by
    rw [← Bool.not_eq_true, Bool.and_eq_true, beq_iff_eq, beq_iff_eq]
    exact hother
  unfold ownRows
  rw [hrows, List.filter_append, List.filter_cons_of_neg (by rw [hrow]; decide), List.filter_nil,
    List.append_nil, List.filter_filter]
  refine List.filter_congr fun old _ => ?_
  by_cases hown : (old.senderUserId == userId && old.senderDeviceId == deviceId) = true
  · have hne : old.address ≠ row.address := by
      intro heq
      have huser : old.senderUserId = row.senderUserId := congrArg KeyAddress.senderUserId heq
      have hdevice : old.senderDeviceId = row.senderDeviceId :=
        congrArg KeyAddress.senderDeviceId heq
      rw [huser, hdevice, hrow] at hown
      cases hown
    rw [hown, Bool.true_and, bne_iff_ne]
    exact hne
  · rw [Bool.eq_false_iff.mpr hown, Bool.false_and]

end

/-! ## A group message -/

section

variable (qt : Qt) (cipher : TextCipher) (crypto : Crypto) (userId : Int) (deviceId : String)

/-- The group message is filed under the user and the device, and opens under the key
that is stored there. -/
def GroupDisk.opensAs (d : GroupDisk) (msg : Json) : Bool :=
  match GroupE2eeCrypto.decodeGroupMessage qt ((msg.value "content").toStr "") with
  | none => false
  | some (encrypted, senderDeviceId) =>
      let groupId := (msg.value "conversationId").toLongLong
      let named := (msg.value "senderId").toLongLong
      let senderUserId :=
        if named ≤ 0 then d.senderUserIdForKey groupId senderDeviceId encrypted.keyId else named
      let a : KeyAddress := { groupId, senderUserId, senderDeviceId, keyId := encrypted.keyId }
      decide (senderUserId = userId) && decide (senderDeviceId = deviceId) &&
        match d.loadSenderKey qt cipher a with
        | none => false
        | some key =>
            let r : Receiver :=
              { chainKey := key.chainKey, iteration := key.iteration
                skippedKeys := some (d.loadSkipped qt cipher a) }
            (decryptMessage crypto key.publicSigningKey r encrypted).1 != []

/-- All outcomes of writes are considered, and all places to be left at. -/
def anyCare : Care GroupDisk GroupWrite Outcome where
  outcome _ _ _ := True
  leave _ _ := True

variable {qt cipher crypto userId deviceId} {d : GroupDisk} {a : KeyAddress}

/-- Of the writes only that of a key changes the table of keys. -/
theorem ownRows_write {e : Outcome} {w : GroupWrite}
    (hw : ∀ a key, w = .senderKey a key → ¬(a.senderUserId = userId ∧ a.senderDeviceId = deviceId)) :
    ownRows userId deviceId (d.write qt cipher e w).1.senderKeys =
      ownRows userId deviceId d.senderKeys := by
  cases w with
  | opened a iteration evicted => rfl
  | plaintext => rfl
  | senderKey a key =>
      unfold GroupDisk.write
      dsimp only
      split
      · rfl
      · rename_i rows hsaved
        split
        · exact ownRows_saveSenderKey (hw a key rfl) hsaved
        · rfl
  | skippedKeys a keys =>
      unfold GroupDisk.write
      dsimp only
      split
      · rfl
      · split <;> rfl

/-- The job leaves the own rows as they are in `rows`. -/
abbrev LeavesOwn (qt : Qt) (cipher : TextCipher) (userId : Int) (deviceId : String)
    (rows : List SenderKeyRow) {α : Type} (j : GroupJob α) (d : GroupDisk) : Prop :=
  Job.Keeps (groupMedium qt cipher) anyCare (fun _ => True)
    (fun _ d' => ownRows userId deviceId d'.senderKeys = ownRows userId deviceId rows) j d

theorem leavesOwn_perform {rows : List SenderKeyRow} {w : GroupWrite}
    (hw : ∀ a key, w = .senderKey a key → ¬(a.senderUserId = userId ∧ a.senderDeviceId = deviceId))
    (h : ownRows userId deviceId d.senderKeys = ownRows userId deviceId rows) :
    LeavesOwn qt cipher userId deviceId rows (Job.perform w) d :=
  Job.keeps_perform (fun _ => trivial) fun _ _ => (ownRows_write hw).trans h

/-- A message that opens under another's key is another's business. -/
theorem keepOpened_leavesOwn (hother : ¬(a.senderUserId = userId ∧ a.senderDeviceId = deviceId))
    (key : SenderKey) (r : Receiver) (iteration : Int) (msg : Json) (plain : Bytes) (r' : Receiver) :
    LeavesOwn qt cipher userId deviceId d.senderKeys
      (keepOpened a key r iteration msg plain r') d := by
  have hkeys : ∀ (d' : GroupDisk), ownRows userId deviceId d'.senderKeys =
      ownRows userId deviceId d.senderKeys →
      LeavesOwn qt cipher userId deviceId d.senderKeys (do
        let _ ← Job.perform (.senderKey a { key with
          chainKey := r'.chainKey, iteration := r'.iteration, privateSigningKey := [] })
        if r'.keys.entries ≠ [] ∨ r.keys.entries ≠ [] then
          let _ ← Job.perform (.skippedKeys a r'.keys)
        return (msg.setMember "content" (.str (fromUtf8 plain)), true)) d' := by
    intro d' h'
    refine Job.Keeps.bind ((leavesOwn_perform ?_ h').mono fun _ d₁ h₁ => ?_)
    · rintro b written heq
      cases heq
      exact hother
    · dsimp only
      refine Job.keeps_ite (fun _ => ?_) fun _ => h₁
      refine Job.Keeps.bind ((leavesOwn_perform ?_ h₁).mono fun _ _ h₂ => h₂)
      rintro _ _ ⟨⟩
  have hstart : ownRows userId deviceId d.senderKeys = ownRows userId deviceId d.senderKeys := rfl
  unfold keepOpened
  refine Job.Keeps.bind ((leavesOwn_perform ?_ hstart).mono fun _ d₁ h₁ => ?_)
  · rintro _ _ ⟨⟩
  · dsimp only
    refine Job.keeps_ite (fun _ => ?_) fun _ => hkeys d₁ h₁
    refine Job.Keeps.bind ((leavesOwn_perform ?_ h₁).mono fun _ d₂ h₂ => hkeys d₂ h₂)
    rintro _ _ ⟨⟩

/-- **One group message.** Unless it opens as the device's own, the own rows stay. -/
theorem decryptGroupMessageObject_ownRows {storeOpen : Bool} {msg : Json}
    (h : d.opensAs qt cipher crypto userId deviceId msg = false) (e : Nat → Outcome) :
    ownRows userId deviceId ((decryptGroupMessageObject qt cipher crypto storeOpen msg).run
      (groupMedium qt cipher) e d).2.senderKeys = ownRows userId deviceId d.senderKeys := by
  have hleaves : LeavesOwn qt cipher userId deviceId d.senderKeys
      (decryptGroupMessageObject qt cipher crypto storeOpen msg) d := by
    unfold GroupDisk.opensAs at h
    unfold decryptGroupMessageObject
    split
    · exact rfl
    · rename_i encrypted senderDeviceId hdecoded
      rw [hdecoded] at h
      dsimp only at h
      refine Job.keeps_ite (fun _ => rfl) fun _ => Job.Keeps.bind (Job.keeps_query.mpr ?_)
      refine Job.Keeps.bind (Job.keeps_query.mpr ?_)
      split
      · exact rfl
      · rename_i key hkey
        rw [hkey] at h
        refine Job.Keeps.bind (Job.keeps_query.mpr (Job.keeps_ite (fun _ => rfl) fun hopen => ?_))
        refine keepOpened_leavesOwn ?_ _ _ _ _ _ _
        rintro ⟨huser, hdevice⟩
        rw [decide_eq_true huser, decide_eq_true hdevice, Bool.true_and, Bool.true_and] at h
        exact hopen (bne_eq_false_iff_eq.mp h)
  exact hleaves.run (fun _ _ _ => trivial) e

end

/-! ## A distribution -/

namespace NetworkManager

/-- The client as `processGroupSenderKeyDistribution` sees it. -/
def e2eeDevice (s : NetworkManager) : E2eeDevice where
  userId := s.userId
  localDeviceId := s.localDeviceId
  identityKey := s.identityKey
  localPrekeys := s.localPrekeys
  storeOpen := s.localStore.isSome

section

variable (qt : Qt) (crypto : Crypto) (host : Host) (o : Outside)

/-- The distribution names this client's user and device as the sender's, and opens on
this client. -/
def installsOwn (s : NetworkManager) (msg : Json) : Bool :=
  match GroupE2eeCrypto.decodeDistribution qt ((msg.value "content").toStr "") with
  | none => false
  | some dist =>
      let plain := (openDistribution crypto s.e2eeDevice dist.entries).1
      s.localStore.isSome && dist.groupId == (msg.value "conversationId").toLongLong
        && dist.senderUserId == s.userId && dist.senderDeviceId == s.localDeviceId
        && plain != [] && (qt.fromBase64 (fromUtf8 plain)).length == 32

/-- One of the distributions is installed as the client's own. -/
def installsAny : NetworkManager → List Json → Bool
  | _, [] => false
  | s, msg :: msgs =>
      s.installsOwn qt crypto msg || installsAny (s.processDistribution qt crypto host o msg) msgs

/-- `handleSyncEventsResponse` installs a distribution of the page as the client's own. -/
def installsPage (s : NetworkManager) (requestId : Nat) (response : Json) : Bool :=
  if requestId ≠ s.pendingSyncEventsRequestId then false
  else
    let s := { s with pendingSyncEventsRequestId := 0 }
    if codeOf response 0 ≠ ErrorCode.ok.code then false
    else
      let data := response.value "data"
      if (data.value "needsFullSync").toBool then false
      else
        s.installsAny qt crypto host o (((data.value "events").toArray.filter fun event =>
          (event.value "type").toStr "" == "message" && isDistribution qt (event.value "payload")).map
            (·.value "payload"))

end

end NetworkManager

/-- The own rows of the client are the same, in each of its databases. -/
structure SameOwn (s s' : NetworkManager) : Prop where
  userId : s'.userId = s.userId
  localDeviceId : s'.localDeviceId = s.localDeviceId
  rows : ∀ path, ownRows s.userId s.localDeviceId (s'.disk path).senderKeys =
    ownRows s.userId s.localDeviceId (s.disk path).senderKeys

section

variable {qt : Qt} {crypto : Crypto} {host : Host} {o : Outside} {s s' s'' : NetworkManager}

namespace SameOwn

theorem of_same (huser : s'.userId = s.userId) (hdevice : s'.localDeviceId = s.localDeviceId)
    (hdisk : s'.disk = s.disk) : SameOwn s s' :=
  ⟨huser, hdevice, fun _ => by rw [hdisk]⟩

theorem refl (s : NetworkManager) : SameOwn s s := .of_same rfl rfl rfl

theorem trans (h : SameOwn s s') (h' : SameOwn s' s'') : SameOwn s s'' where
  userId := h'.userId.trans h.userId
  localDeviceId := h'.localDeviceId.trans h.localDeviceId
  rows path := by
    have hrows := h'.rows path
    rw [h.userId, h.localDeviceId] at hrows
    exact hrows.trans (h.rows path)

theorem foldl {α : Type} {f : NetworkManager → α → NetworkManager} (hf : ∀ s x, SameOwn s (f s x))
    (xs : List α) (s : NetworkManager) : SameOwn s (xs.foldl f s) := by
  induction xs generalizing s with
  | nil => exact .refl s
  | cons x xs ih => exact (hf s x).trans (ih _)

end SameOwn

/-- A statement that leaves the own rows alone. -/
theorem write_sameOwn {call : DiskCall} {statement : TextCipher → Database → Option Database}
    (h : s.localStore.isSome = true → ∀ cipher db db', statement cipher db = some db' →
      ownRows s.userId s.localDeviceId db'.senderKeys =
        ownRows s.userId s.localDeviceId db.senderKeys) :
    SameOwn s (s.write host o call statement) := by
  unfold NetworkManager.write
  split
  · exact .refl s
  rename_i handle hstore
  split
  · exact .of_same rfl rfl rfl
  · exact .refl s
  · split
    · exact .refl s
    · rename_i db hdb
      refine ⟨rfl, rfl, fun path => ?_⟩
      show ownRows _ _ (Function.update s.disk handle.path db path).senderKeys = _
      by_cases hpath : path = handle.path
      · subst hpath
        rw [Function.update_self]
        exact h (by rw [hstore]; rfl) _ _ _ hdb
      · rw [Function.update_of_ne hpath]

/-- A distribution that is not installed as one's own leaves the own rows alone. -/
theorem process_ownRows {cipher : TextCipher} {r : Nat × Nat} {msg : Json}
    (rows : List SenderKeyRow) (h : s.installsOwn qt crypto msg = false)
    (hopen : s.localStore.isSome = true) :
    ownRows s.userId s.localDeviceId (processGroupSenderKeyDistribution qt crypto cipher r
      { s.e2eeDevice with senderKeys := rows } msg).1.senderKeys =
        ownRows s.userId s.localDeviceId rows := by
  unfold NetworkManager.installsOwn at h
  unfold processGroupSenderKeyDistribution
  dsimp only
  split
  · rfl
  cases hdecode : GroupE2eeCrypto.decodeDistribution qt ((msg.value "content").toStr "") with
  | none => rfl
  | some dist =>
      rw [hdecode] at h
      dsimp only at h ⊢
      split
      · rfl
      rename_i hnamed
      have hkeys := openDistribution_senderKeys crypto { s.e2eeDevice with senderKeys := rows }
        dist.entries
      have hplain := openDistribution_fst_congr crypto s.e2eeDevice rows dist.entries
      split
      · rw [hkeys]
      rename_i hne
      split
      · rw [hkeys]
      rename_i hlength
      split
      · dsimp only
        rw [hkeys]
        cases hsaved : saveSenderKey qt cipher r (msg.value "conversationId").toLongLong
            dist.senderUserId dist.senderDeviceId dist.key.keyId
            (qt.fromBase64 (fromUtf8 (openDistribution crypto
              { s.e2eeDevice with senderKeys := rows } dist.entries).1))
            dist.key.publicSigningKey [] dist.key.iteration rows with
        | none => rfl
        | some rows' =>
            -- it is installed, but under other names
            refine @ownRows_saveSenderKey qt cipher _ _ r
              ⟨_, dist.senderUserId, dist.senderDeviceId, dist.key.keyId⟩
              { dist.key with chainKey := _, privateSigningKey := [] } rows rows' ?_ hsaved
            rintro ⟨huser, hdevice⟩
            rw [hplain] at hne hlength
            simp only [not_or, not_not] at hnamed hlength
            have hforeign : dist.senderUserId = s.userId → ¬dist.senderDeviceId = s.localDeviceId := by
              simpa [hopen, hnamed.1, hne, hlength] using h
            exact hforeign huser hdevice
      · rw [hkeys]

theorem processDistribution_sameOwn {msg : Json} (h : s.installsOwn qt crypto msg = false) :
    SameOwn s (s.processDistribution qt crypto host o msg) := by
  have hopened : ∀ localPrekeys, SameOwn s { s with localPrekeys } := fun _ => .of_same rfl rfl rfl
  unfold NetworkManager.processDistribution
  dsimp only
  split
  · refine (hopened _).trans (write_sameOwn fun hopen cipher db db' hdb => ?_)
    obtain rfl := Option.some.inj hdb
    exact process_ownRows db.senderKeys h hopen
  · exact .of_same rfl rfl rfl

/-! ## A page of events -/

theorem removeOutboxItem_sameOwn {clientMessageId : String} :
    SameOwn s (s.removeOutboxItem host o clientMessageId) := by
  refine write_sameOwn fun _ _ db db' h => ?_
  unfold Database.removeOutboxItem at h
  split at h
  · cases h
  · cases h
    rfl

theorem dropItem_sameOwn {clientMessageId : String} :
    SameOwn s (s.dropItem host o clientMessageId) :=
  removeOutboxItem_sameOwn.trans (.of_same rfl rfl rfl)

theorem ingestEvent_sameOwn {healConvs : List Int} {event : Json} :
    SameOwn s (NetworkManager.ingestEvent qt host o (s, healConvs) event).1 := by
  unfold NetworkManager.ingestEvent
  dsimp only
  split
  · split
    · exact .refl s
    · split
      · exact dropItem_sameOwn
      · exact .refl s
  · split
    · split
      · split
        · exact .of_same rfl rfl rfl
        · exact .refl s
      · exact .refl s
    · exact .refl s

theorem ingestEvents_sameOwn (events : List Json) (x : NetworkManager × List Int) :
    SameOwn x.1 (events.foldl (NetworkManager.ingestEvent qt host o) x).1 := by
  induction events generalizing x with
  | nil => exact .refl x.1
  | cons event events ih => exact ingestEvent_sameOwn.trans (ih _)

theorem healGroupSenderKey_sameOwn {conversationId : Int} :
    SameOwn s (s.healGroupSenderKey qt o conversationId) := by
  unfold NetworkManager.healGroupSenderKey NetworkManager.sendFetchGroupKeysRequest
  split
  · exact .refl s
  split
  · exact .refl s
  split
  · exact .of_same rfl rfl rfl
  split
  · exact .refl s
  · exact .of_same rfl rfl rfl

theorem advanceSyncCursor_sameOwn {seq : Int} : SameOwn s (s.advanceSyncCursor host o seq) := by
  unfold NetworkManager.advanceSyncCursor
  split
  · refine write_sameOwn fun _ _ db db' h => ?_
    unfold Database.setSyncCursor at h
    split at h
    · cases h
    · cases h
      rfl
  · exact .refl s

theorem syncEvents_sameOwn {afterSeq : Int} : SameOwn s (s.syncEvents qt o afterSeq) := by
  unfold NetworkManager.syncEvents
  split
  · exact .refl s
  · exact .of_same rfl rfl rfl

theorem getConversations_sameOwn : SameOwn s (s.getConversations qt o) := by
  unfold NetworkManager.getConversations
  split
  · exact .refl s
  · exact .of_same rfl rfl rfl

theorem ingestSyncEvents_sameOwn {events : List Json} {lastSeq : Int} {hasMore : Bool} :
    SameOwn s (s.ingestSyncEvents qt host o events lastSeq hasMore) := by
  unfold NetworkManager.ingestSyncEvents
  split
  · exact .refl s
  dsimp only
  have hevents := @ingestEvents_sameOwn qt host o events (s, [])
  generalize events.foldl (NetworkManager.ingestEvent qt host o) (s, []) = x at hevents ⊢
  have hheal := SameOwn.foldl (fun s convId => @healGroupSenderKey_sameOwn qt o s convId)
    (x.2.insertionSort fun a b => o.order a ≤ o.order b) x.1
  have hcursor := (hevents.trans hheal).trans (@advanceSyncCursor_sameOwn host o _ lastSeq)
  split
  · exact hcursor.trans syncEvents_sameOwn
  · exact hcursor

theorem processDistributions_sameOwn {msgs : List Json}
    (h : s.installsAny qt crypto host o msgs = false) :
    SameOwn s (msgs.foldl (NetworkManager.processDistribution qt crypto host o) s) := by
  induction msgs generalizing s with
  | nil => exact .refl s
  | cons msg msgs ih =>
      unfold NetworkManager.installsAny at h
      rw [Bool.or_eq_false_iff] at h
      exact (processDistribution_sameOwn h.1).trans (ih h.2)

theorem handleSyncEventsResponse_sameOwn {requestId : Nat} {response : Json}
    (h : s.installsPage qt crypto host o requestId response = false) :
    SameOwn s (s.handleSyncEventsResponse qt crypto host o requestId response) := by
  have hanswered : SameOwn s { s with pendingSyncEventsRequestId := 0 } := .of_same rfl rfl rfl
  unfold NetworkManager.installsPage at h
  unfold NetworkManager.handleSyncEventsResponse
  split
  · exact .refl s
  rename_i hid
  rw [if_neg hid] at h
  dsimp only at h ⊢
  split
  · exact hanswered
  rename_i hcode
  rw [if_neg hcode] at h
  split
  · exact hanswered.trans (advanceSyncCursor_sameOwn.trans getConversations_sameOwn)
  · rename_i hfull
    rw [if_neg hfull] at h
    exact hanswered.trans ((processDistributions_sameOwn h).trans ingestSyncEvents_sameOwn)

end

/-! ## Runs -/

/-- A client with the table of skipped keys of each database, and what the databases
were after the client's own last operation. -/
structure OwnKeyClient where
  client : NetworkManager := {}
  skipped : String → List SkippedRow := fun _ => []
  left : String → Database := fun _ => {}

/-- What the client does by itself, with its answers and its pages of events; and what
comes in besides, in any order and any number of times. -/
inductive OwnKeyOp where
  | call (o : Outside) (call : ClientCall)
  | distribution (o : Outside) (msg : Json)
  | groupMessage (outcomes : Nat → Outcome) (msg : Json)

/-- The call takes a page of events. -/
def ClientCall.page? : ClientCall → Option (Nat × Json)
  | .packet .syncEventsResponse requestId response => some (requestId, response)
  | _ => none

namespace OwnKeyClient

section

variable (qt : Qt) (crypto : Crypto) (host : Host)

/-- The two tables of keys of a store. -/
def groupDisk (c : OwnKeyClient) (handle : StoreHandle) : GroupDisk where
  senderKeys := (c.client.disk handle.path).senderKeys
  skipped := c.skipped handle.path

/-- `decryptGroupMessageObject` on the open store, its writes coming out one after the
other. -/
def receiveGroupMessage (c : OwnKeyClient) (outcomes : Nat → Outcome) (msg : Json) :
    OwnKeyClient :=
  match c.client.localStore with
  | none => c
  | some handle =>
      let cipher := host.cipher handle.username
      let result := (decryptGroupMessageObject qt cipher crypto true msg).run (groupMedium qt cipher)
        outcomes (c.groupDisk handle)
      let db := { c.client.disk handle.path with senderKeys := result.2.senderKeys }
      { c with
        client := { c.client with disk := Function.update c.client.disk handle.path db }
        skipped := Function.update c.skipped handle.path result.2.skipped }

/-- The skipped keys go with the keys of a group that is left. -/
def forgetSkipped (c : OwnKeyClient) (o : Outside) : ClientCall → String → List SkippedRow
  | .packet .leaveGroupResponse _ response =>
      let conversationId := ((response.value "data").value "conversationId").toLongLong
      match c.client.localStore with
      | none => c.skipped
      | some handle =>
          if NetworkManager.codeOf response 0 = ErrorCode.ok.code ∧ 0 < conversationId
              ∧ o.disk (.removeSenderKeys conversationId) = .done then
            Function.update c.skipped handle.path
              ((c.skipped handle.path).filter (·.address.groupId != conversationId))
          else c.skipped
  | _ => c.skipped

def step (c : OwnKeyClient) : OwnKeyOp → OwnKeyClient
  | .call o call =>
      let client := call.apply qt crypto host o c.client
      { client
        skipped := c.forgetSkipped o call
        left := if call.page?.isSome then c.left else client.disk }
  | .distribution o msg => { c with client := c.client.processDistribution qt crypto host o msg }
  | .groupMessage outcomes msg => c.receiveGroupMessage qt crypto host outcomes msg

/-- The group message opens as one of the client's own. -/
def opensOwn (c : OwnKeyClient) (msg : Json) : Bool :=
  match c.client.localStore with
  | none => false
  | some handle =>
      (c.groupDisk handle).opensAs qt (host.cipher handle.username) crypto c.client.userId
        c.client.localDeviceId msg

/-- What comes in is filed as the client's own. -/
def filesOwn (c : OwnKeyClient) : OwnKeyOp → Bool
  | .call o call =>
      match call.page? with
      | none => false
      | some (requestId, response) => c.client.installsPage qt crypto host o requestId response
  | .distribution _ msg => c.client.installsOwn qt crypto msg
  | .groupMessage _ msg => c.opensOwn qt crypto host msg

end

end OwnKeyClient

section

variable (qt : Qt) (crypto : Crypto) (host : Host)

def ownKeyMachine : Machine OwnKeyClient OwnKeyOp where
  init c := c.left = c.client.disk
  step c op := c.step qt crypto host op

/-- **Own keys are safe**: whatever has come in since the client's own last operation,
that operation's keys are stored with the same chain key, an iteration that is not less
and the same private half, and the same key of each group is the latest. -/
structure OwnKeysSafe (c : OwnKeyClient) : Prop where
  kept : ∀ (handle : StoreHandle) groupId keyId key,
    (c.left handle.path).loadSenderKey qt (host.cipher handle.username) groupId c.client.userId
      c.client.localDeviceId keyId = some key →
    ∃ key', (c.client.disk handle.path).loadSenderKey qt (host.cipher handle.username) groupId
        c.client.userId c.client.localDeviceId keyId = some key' ∧
      key.iteration ≤ key'.iteration ∧ key'.chainKey = key.chainKey ∧
      key'.privateSigningKey = key.privateSigningKey
  latest : ∀ (handle : StoreHandle) groupId,
    (c.client.disk handle.path).latestSenderKeyId groupId c.client.userId c.client.localDeviceId =
      (c.left handle.path).latestSenderKeyId groupId c.client.userId c.client.localDeviceId

/-- The own rows are those that the client's own last operation left. -/
def OwnRowsLeft (c : OwnKeyClient) : Prop :=
  ∀ path, ownRows c.client.userId c.client.localDeviceId (c.client.disk path).senderKeys =
    ownRows c.client.userId c.client.localDeviceId (c.left path).senderKeys

variable {qt crypto host} {c : OwnKeyClient}

theorem OwnRowsLeft.safe (h : OwnRowsLeft c) : OwnKeysSafe qt host c where
  kept handle groupId keyId key hkey :=
    ⟨key, (loadSenderKey_ownRows (h handle.path) groupId keyId).trans hkey, Int.le_refl _, rfl, rfl⟩
  latest handle groupId := latestSenderKeyId_ownRows (h handle.path) groupId

/-- What changes none of the own rows changes nothing of what the own operations left. -/
theorem OwnRowsLeft.of_sameOwn {c' : OwnKeyClient} (h : OwnRowsLeft c)
    (hsame : SameOwn c.client c'.client) (hleft : c'.left = c.left) : OwnRowsLeft c' := by
  intro path
  rw [hsame.userId, hsame.localDeviceId, hsame.rows, hleft]
  exact h path

theorem receiveGroupMessage_sameOwn {outcomes : Nat → Outcome} {msg : Json}
    (h : c.opensOwn qt crypto host msg = false) :
    SameOwn c.client (c.receiveGroupMessage qt crypto host outcomes msg).client := by
  unfold OwnKeyClient.opensOwn at h
  unfold OwnKeyClient.receiveGroupMessage
  split
  · exact .refl _
  rename_i handle hstore
  rw [hstore] at h
  refine ⟨rfl, rfl, fun path => ?_⟩
  by_cases hpath : path = handle.path
  · subst hpath
    dsimp only
    rw [Function.update_self]
    exact decryptGroupMessageObject_ownRows h outcomes
  · dsimp only
    rw [Function.update_of_ne hpath]

/-- **Step.** -/
theorem OwnRowsLeft.step {op : OwnKeyOp} (h : OwnRowsLeft c)
    (hop : c.filesOwn qt crypto host op = false) : OwnRowsLeft (c.step qt crypto host op) := by
  cases op with
  | call o call =>
      cases hpage : call.page? with
      | none =>
          -- an operation of the client's own
          intro path
          unfold OwnKeyClient.step
          dsimp only
          rw [hpage]
          rfl
      | some page =>
          have hcall : call = .packet .syncEventsResponse page.1 page.2 := by
            unfold ClientCall.page? at hpage
            split at hpage
            · cases hpage
              rfl
            · cases hpage
          subst hcall
          exact h.of_sameOwn (handleSyncEventsResponse_sameOwn hop) rfl
  | distribution o msg => exact h.of_sameOwn (processDistribution_sameOwn hop) rfl
  | groupMessage outcomes msg =>
      refine h.of_sameOwn (receiveGroupMessage_sameOwn hop) ?_
      show (c.receiveGroupMessage qt crypto host outcomes msg).left = c.left
      unfold OwnKeyClient.receiveGroupMessage
      split <;> rfl

/-- **A device's own sending keys are safe** from whatever comes in, as long as nothing
that comes in is filed as its own. -/
theorem ownKeysSafe_of_filesNoOwn {ops : List OwnKeyOp}
    (hc : (ownKeyMachine qt crypto host).init c)
    (h : (ownKeyMachine qt crypto host).Along
      (fun c op => c.filesOwn qt crypto host op = false) c ops) :
    (ownKeyMachine qt crypto host).Always (OwnKeysSafe qt host) c ops := by
  have hstart : OwnRowsLeft c := fun path => by rw [show c.left = c.client.disk from hc]
  have hstep : ∀ (c : OwnKeyClient) (op : OwnKeyOp), OwnRowsLeft c →
      c.filesOwn qt crypto host op = false → OwnRowsLeft ((ownKeyMachine qt crypto host).step c op) :=
    fun _ _ h hop => h.step hop
  exact (Machine.always_of_along hstep hstart h).mono fun _ h => h.safe

end

/-! ## A distribution that comes back -/

/-- Primitives to run: all secrets are shared. -/
def echoCrypto : Crypto :=
  { GroupE2eeCrypto.toyCrypto with x25519 := fun _ _ => some (List.replicate 32 0) }

def echoKeyPair : E2eeCrypto.KeyPair where
  publicKey := List.replicate 32 0
  privateKey := List.replicate 32 0
  valid := true

def echoDraw (_ : Int) (_ : Nat) : Drawn := ⟨echoKeyPair, List.replicate 12 0⟩

/-- The bundle of alice's other device. -/
def otherDevice : Json := .obj
  [ ("deviceId", .str "other"), ("prekeyId", .int 1)
  , ("identityPub", .str (Base64.encode (List.replicate 32 0)))
  , ("prekeyPub", .str (Base64.encode (List.replicate 32 0))) ]

def echoEntries : List E2eeCrypto.EnvelopeEntry :=
  (userEntries Qt.compact echoCrypto echoKeyPair "m" (echoDraw 1) [otherDevice]
    (toUtf8 (Base64.encode GroupE2eeCrypto.toyKey.chainKey))).getD []

def echoDistribution : Distribution where
  groupId := 7
  senderUserId := 1
  senderDeviceId := "m"
  key := GroupE2eeCrypto.toyKey
  entries := echoEntries.map fun entry => { userId := 1, deviceId := entry.deviceId, envelope := entry }

def distributionText : String :=
  (GroupE2eeCrypto.encodeDistribution Qt.compact echoDistribution).text

def messageText : String :=
  (GroupE2eeCrypto.encodeGroupMessage Qt.compact (GroupE2eeCrypto.encryptMessage echoCrypto
    (List.replicate 12 0) GroupE2eeCrypto.toyKey (toUtf8 "hi")).2 "m").text

/-- An outside in which nothing fails. -/
def echoOutside : Outside where
  registration := { identityKey := echoKeyPair }
  draw := echoDraw
  groupIv _ := List.replicate 12 0
  generatedKey := GroupE2eeCrypto.toyKey
  uuid := "u"

/-- Alice signs in, has a message for the group, and makes a key for it. -/
def aliceMakesKey : List OwnKeyOp :=
  [ .login "alice" "", .connected, loggedIn 1 "alice"
  , .packet .registerKeysResponse 3 (.obj [("code", .int 0)])
  , .sendGroupMessage "c" 7 "hi"
  , .packet .fetchGroupKeysResponse 4 (.obj
      [ ("code", .int 0)
      , ("data", .obj [("bundles", .obj [("1", .arr [otherDevice])])]) ]) ].map
    (.call echoOutside)

/-- The distribution is accepted, and the message goes out under the key. -/
def aliceSends : List OwnKeyOp :=
  [.call echoOutside (.packet .sendMessageResponse 5 (.obj
    [("code", .int 0), ("data", .obj [("clientMessageId", .str "u")])]))]

def echoOf (content : String) : Json := .obj
  [ ("messageId", .int 1), ("conversationId", .int 7), ("senderId", .int 1)
  , ("content", .str content) ]

/-- Alice's own message comes back, twice. -/
theorem ownKeysSafe_echoedMessage :
    (ownKeyMachine Qt.compact echoCrypto sharedHost).Always (OwnKeysSafe Qt.compact sharedHost) {}
      (aliceMakesKey ++ aliceSends ++ List.replicate 2
        (.groupMessage (fun _ => { works := true }) (echoOf messageText))) :=
  ownKeysSafe_of_filesNoOwn rfl (by decide +kernel)

/-- **The defect**: alice's own distribution comes back, opens, and takes the private half
of her key. -/
theorem ownKeysSafe_echoedDistribution :
    (ownKeyMachine Qt.compact echoCrypto sharedHost).init {} ∧
      ¬(ownKeyMachine Qt.compact echoCrypto sharedHost).Always (OwnKeysSafe Qt.compact sharedHost) {}
        (aliceMakesKey ++ [.distribution echoOutside (echoOf distributionText)]) := by
  refine ⟨rfl, fun h => ?_⟩
  have hsafe := h.last
  generalize hc : (ownKeyMachine Qt.compact echoCrypto sharedHost).run {}
    (aliceMakesKey ++ [.distribution echoOutside (echoOf distributionText)]) = c at hsafe
  have hlengths : ((c.left "alice_m.db").loadSenderKey Qt.compact plainCipher 7 c.client.userId
        c.client.localDeviceId "k").map (·.privateSigningKey.length) = some 32 ∧
      ((c.client.disk "alice_m.db").loadSenderKey Qt.compact plainCipher 7 c.client.userId
        c.client.localDeviceId "k").map (·.privateSigningKey.length) = some 0 := by
    rw [← hc]
    decide +kernel
  obtain ⟨hmade, htaken⟩ := hlengths
  obtain ⟨key, hkey, hlength⟩ := Option.map_eq_some_iff.mp hmade
  obtain ⟨key', hkey', -, -, hprivate⟩ := hsafe.kept ⟨"alice", "m"⟩ 7 "k" key hkey
  have hloaded : (c.client.disk "alice_m.db").loadSenderKey Qt.compact plainCipher 7 c.client.userId
      c.client.localDeviceId "k" = some key' := hkey'
  rw [hloaded, Option.map_some, hprivate, hlength] at htaken
  cases htaken

end XYChat.Client
