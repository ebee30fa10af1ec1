import XYChat.Client.SkippedKeysKept

/-!
# The tables work like the ratchet

As long as its writes work, what the two tables hold of the key of an address goes the
way of a receiver in memory: it is handed the messages for the address, whatever else the
device handles in between, and what the device shows of them is what it returns.
-/

namespace XYChat.Client

open Lib
open GroupE2eeCrypto (SkippedKeys Receiver SenderKey EncryptedMessage Sized Delivered
  decryptMessage decryptAhead deliver deliveryMachine maxSkippedMessageKeys stepKey chainAt)

/-! ## A receiver that is stored -/

/-- A receiver as the tables hold one. -/
structure Stored (r : Receiver) : Prop where
  chainKey : r.chainKey.length = 32
  held : r.skippedKeys = some r.keys
  keys : Storable r.keys

section

variable {crypto : Crypto} {publicSigningKey : Bytes} {r : Receiver} {msg : EncryptedMessage}

/-- Going forward leaves keys that can be stored. -/
theorem Stored.advanced (hs : Sized crypto) (h : Stored r) (hpos : 0 ≤ r.iteration)
    (hsmall : msg.iteration < 2 ^ 31) {r' : Receiver}
    (hadvanced : r.Advanced crypto msg.iteration r') : Stored r' := by
  have hpassed := hadvanced.skippedKeys
  rw [h.held] at hpassed
  cases hheld : r'.skippedKeys with
  | none =>
      rw [hheld] at hpassed
      cases hpassed
  | some keys' =>
      rw [hheld] at hpassed
      have hkeys : r'.keys = keys' := by
        unfold Receiver.keys
        rw [hheld]
        rfl
      cases hpassed with
      | some hpassed =>
          obtain ⟨merged, hmerged, hentries⟩ := hpassed
          refine ⟨?_, by rw [hheld, hkeys], fun k key hk => ?_⟩
          · rw [hadvanced.chainKey]
            exact GroupE2eeCrypto.chainAt_length hs h.chainKey _
          · -- a key that is kept is among the merged ones
            rw [hkeys] at hk
            have hmem := IntMap.mem_of_find hk
            rw [hentries] at hmem
            have hfind := IntMap.find_eq_some.mpr (List.mem_of_mem_drop hmem)
            rw [hmerged k] at hfind
            split at hfind
            · rename_i hbetween
              obtain rfl := Option.some.inj hfind
              have hlength := GroupE2eeCrypto.stepKey_length (i := r.iteration) (k := k) hs
                h.chainKey (by omega)
              refine ⟨by omega, by omega, fun hnil => ?_⟩
              rw [hnil] at hlength
              cases hlength
            · exact h.keys k key hfind

/-- Whatever is decrypted, the receiver can be stored again. -/
theorem Stored.decryptMessage (hs : Sized crypto) (h : Stored r) (hsmall : msg.iteration < 2 ^ 31) :
    Stored (decryptMessage crypto publicSigningKey r msg).2 := by
  unfold GroupE2eeCrypto.decryptMessage
  split
  · exact h
  · rename_i hsizes
    have hpos : 0 ≤ r.iteration := by
      by_contra hneg
      exact hsizes (.inr (.inr (.inr (.inr (.inr (.inr (by omega)))))))
    split
    · dsimp only
      split
      · exact h
      · have hkeys : (r.keys.erase msg.iteration) =
            Receiver.keys { r with skippedKeys := r.skippedKeys.map (·.erase msg.iteration) } := by
          show _ = (r.skippedKeys.map _).getD IntMap.empty
          rw [h.held]
          rfl
        refine ⟨h.chainKey, ?_, fun k key hk => ?_⟩
        · rw [← hkeys]
          show r.skippedKeys.map _ = _
          rw [h.held]
          rfl
        · rw [← hkeys] at hk
          exact h.keys k key
            (IntMap.find_eq_some.mpr (IntMap.mem_erase.mp (IntMap.mem_of_find hk)).1)
    · rcases @GroupE2eeCrypto.decryptAhead_atomic crypto publicSigningKey r msg with
        hsame | ⟨-, hadvanced⟩
      · rw [hsame]
        exact h
      · exact h.advanced hs hpos hsmall hadvanced

end

/-! ## What the tables hold -/

section

variable (qt : Qt) (cipher : TextCipher)

/-- Of the key of an address: the half that verifies, and the receiver. -/
def GroupDisk.held (d : GroupDisk) (a : KeyAddress) : Option (Bytes × Receiver) :=
  (d.loadSenderKey qt cipher a).map fun key => (key.publicSigningKey, d.receiver qt cipher a key)

/-- The address of a message object, its sender looked up where it names none, and the
message. -/
def GroupDisk.addressed (d : GroupDisk) (msg : Json) : Option (KeyAddress × EncryptedMessage) :=
  (GroupE2eeCrypto.decodeGroupMessage qt ((msg.value "content").toStr "")).map fun x =>
    let groupId := (msg.value "conversationId").toLongLong
    let named := (msg.value "senderId").toLongLong
    let found := d.senderUserIdForKey groupId x.2 x.1.keyId
    ({ groupId
       senderUserId := if named ≤ 0 then found else named
       senderDeviceId := x.2
       keyId := x.1.keyId }, x.1)

/-- What a receiver makes of the message, nothing where there is none. -/
def openedBy (crypto : Crypto) (held : Option (Bytes × Receiver)) (encrypted : EncryptedMessage) :
    Bytes :=
  match held with
  | none => []
  | some (publicSigningKey, r) => (decryptMessage crypto publicSigningKey r encrypted).1

/-- The receiver that it leaves. -/
def leftBy (crypto : Crypto) (encrypted : EncryptedMessage) (held : Bytes × Receiver) :
    Bytes × Receiver :=
  (held.1, (decryptMessage crypto held.1 held.2 encrypted).2)

/-- A message for an address has been handled: what is shown of it, and what the tables
hold then. -/
structure Handled (crypto : Crypto) (d : GroupDisk) (a : KeyAddress)
    (encrypted : EncryptedMessage) (result : Json × Bool) (d' : GroupDisk) : Prop where
  shown : result.2 = (openedBy crypto (d.held qt cipher a) encrypted != [])
  content : result.1.value "content" =
    .str (fromUtf8 (openedBy crypto (d.held qt cipher a) encrypted))
  here : d'.held qt cipher a = (d.held qt cipher a).map (leftBy crypto encrypted)
  others : ∀ b, b ≠ a → d'.held qt cipher b = d.held qt cipher b

/-- The writes work, and the handler gets to its end. -/
def workingCare : Care GroupDisk GroupWrite Outcome where
  outcome _ _ e := e.works = true
  leave _ _ := False

end

/-- The codec of the tables: no bytes but none are written as an empty text. -/
structure TableCodec (qt : Qt) : Prop extends SkippedCodec qt where
  nonempty : ∀ bytes, qt.toBase64 bytes = "" → bytes = []

section

variable {qt : Qt} {cipher : TextCipher} {crypto : Crypto} {d d' : GroupDisk} {a : KeyAddress}

theorem held_congr (hkey : d'.loadSenderKey qt cipher a = d.loadSenderKey qt cipher a)
    (hskipped : d'.loadSkipped qt cipher a = d.loadSkipped qt cipher a) :
    d'.held qt cipher a = d.held qt cipher a := by
  unfold GroupDisk.held GroupDisk.receiver
  rw [hkey, hskipped]

/-- What is held is stored. -/
theorem held_stored {publicSigningKey : Bytes} {r : Receiver}
    (h : d.held qt cipher a = some (publicSigningKey, r)) : Stored r := by
  obtain ⟨key, hkey, heq⟩ := Option.map_eq_some_iff.mp h
  obtain ⟨rfl, rfl⟩ := Prod.mk.inj heq
  exact ⟨(loadSenderKey_some hkey).2.1, rfl, storable_loadSkipped a d⟩

/-! ## Two statements -/

/-- A key is saved, and loaded again. -/
theorem saveSenderKey_loads (hc : cipher.Correct) (hq : TableCodec qt) (ha : ¬a.Refused)
    {key : SenderKey} (hchain : key.chainKey.length = 32)
    (hpublic : key.publicSigningKey.length = 32) (r : Nat × Nat) :
    ∃ rows, saveSenderKey qt cipher r a.groupId a.senderUserId a.senderDeviceId a.keyId
        key.chainKey key.publicSigningKey key.privateSigningKey key.iteration d.senderKeys =
          some rows ∧
      (∃ key', ({ d with senderKeys := rows } : GroupDisk).loadSenderKey qt cipher a = some key' ∧
        key'.chainKey = key.chainKey ∧ key'.iteration = key.iteration ∧
        key'.publicSigningKey = key.publicSigningKey) ∧
      ∀ b, b ≠ a → ({ d with senderKeys := rows } : GroupDisk).loadSenderKey qt cipher b =
        d.loadSenderKey qt cipher b := by
  have hbytes : ∀ {bytes : Bytes}, bytes.length = 32 → bytes ≠ [] := by
    rintro bytes hlength rfl
    cases hlength
  have htext : cipher.encryptText r.1 (qt.toBase64 key.chainKey) ≠ "" := fun hnone =>
    hbytes hchain (hq.nonempty _ (hc.encryptText_eq_nil.mp hnone))
  have hsome : ∃ rows, saveSenderKey qt cipher r a.groupId a.senderUserId a.senderDeviceId a.keyId
      key.chainKey key.publicSigningKey key.privateSigningKey key.iteration d.senderKeys =
        some rows := by
    unfold saveSenderKey
    unfold KeyAddress.Refused at ha
    rw [if_neg]
    · dsimp only
      rw [if_neg htext]
      exact ⟨_, rfl⟩
    · rintro (h | h | h | h | h | h)
      · exact ha (.inl h)
      · exact ha (.inr (.inl h))
      · exact ha (.inr (.inr (.inl h)))
      · exact ha (.inr (.inr (.inr h)))
      · exact hbytes hchain h
      · exact hbytes hpublic h
  obtain ⟨rows, hsaved⟩ := hsome
  obtain ⟨row, haddress, -, -, -, -, hrows⟩ := saveSenderKey_replaces hsaved
  refine ⟨rows, hsaved, loadSenderKey_saved hc hq.base64 hchain hpublic hsaved,
    fun b hb => loadSenderKey_congr ?_⟩
  show rows.find? _ = _
  rw [hrows]
  exact find_replaced_of_ne SenderKeyRow.address d.senderKeys haddress hb

/-- The statement on the keys, where it works. -/
theorem write_senderKey (hc : cipher.Correct) (hq : TableCodec qt) (ha : ¬a.Refused)
    {key : SenderKey} (hchain : key.chainKey.length = 32)
    (hpublic : key.publicSigningKey.length = 32) {e : Outcome} (he : e.works = true) :
    ∃ key', (d.write qt cipher e (.senderKey a key)).1.loadSenderKey qt cipher a = some key' ∧
      key'.chainKey = key.chainKey ∧ key'.iteration = key.iteration ∧
      key'.publicSigningKey = key.publicSigningKey ∧
      (∀ b, b ≠ a → (d.write qt cipher e (.senderKey a key)).1.loadSenderKey qt cipher b =
        d.loadSenderKey qt cipher b) ∧
      (d.write qt cipher e (.senderKey a key)).1.skipped = d.skipped := by
  obtain ⟨rows, hsaved, ⟨key', hloaded, hchain', hiteration, hpublic'⟩, hothers⟩ :=
    saveSenderKey_loads (d := d) hc hq ha hchain hpublic (e.iv, e.iv + 1)
  have hwrite : (d.write qt cipher e (.senderKey a key)).1 = { d with senderKeys := rows } := by
    unfold GroupDisk.write
    dsimp only
    rw [hsaved]
    dsimp only
    rw [if_pos he]
  rw [hwrite]
  exact ⟨key', hloaded, hchain', hiteration, hpublic', hothers, rfl⟩

/-- The statement on the skipped keys, where it works. -/
theorem write_skipped (hc : cipher.Correct) (hq : TableCodec qt) (ha : ¬a.Refused)
    {keys : SkippedKeys} (hkeys : Storable keys) {e : Outcome} (he : e.works = true) :
    (d.write qt cipher e (.skippedKeys a keys)).1.loadSkipped qt cipher a = keys ∧
      (∀ b, b ≠ a → (d.write qt cipher e (.skippedKeys a keys)).1.loadSkipped qt cipher b =
        d.loadSkipped qt cipher b) ∧
      ∀ b, (d.write qt cipher e (.skippedKeys a keys)).1.loadSenderKey qt cipher b =
        d.loadSenderKey qt cipher b := by
  obtain ⟨rows', hsaved, hself, hothers⟩ :=
    loadSkipped_saved (d := d) (r := e.iv) hc hq.toSkippedCodec hkeys ha
  rw [write_skippedKeys hsaved, if_pos he]
  exact ⟨IntMap.ext_find hself, hothers, fun b => rfl⟩

/-! ## The handler -/

/-- A message that does not open changes nothing. -/
theorem Handled.refused {msg : Json} {encrypted : EncryptedMessage}
    (hobject : msg.isObject = true)
    (hnone : openedBy crypto (d.held qt cipher a) encrypted = [])
    (hsame : (d.held qt cipher a).map (leftBy crypto encrypted) = d.held qt cipher a) :
    Handled qt cipher crypto d a encrypted (undecryptable msg, false) d where
  shown := by rw [hnone]; rfl
  content := by
    rw [hnone]
    show ((msg.setMember "content" (.str "")).setMember "undecryptable" (.bool true)).value
      "content" = _
    rw [Json.value_setMember_of_ne (by decide), Json.value_setMember_self hobject]
    rfl
  here := hsame.symm
  others _ _ := rfl

/-- A receiver that yields nothing is left as it was. -/
theorem decryptMessage_refused {publicSigningKey : Bytes} {r : Receiver} {msg : EncryptedMessage}
    (h : (decryptMessage crypto publicSigningKey r msg).1 = []) :
    (decryptMessage crypto publicSigningKey r msg).2 = r := by
  revert h
  unfold GroupE2eeCrypto.decryptMessage
  split
  · exact fun _ => rfl
  · split
    · dsimp only
      split
      · exact fun _ => rfl
      · rename_i hopen
        exact fun h => absurd h hopen
    · intro h
      rcases @GroupE2eeCrypto.decryptAhead_atomic crypto publicSigningKey r msg with
        hsame | ⟨hopen, -⟩
      · rw [hsame]
      · exact absurd h hopen

/-- Maps without entries are the same. -/
theorem keys_eq_of_nil {keys keys' : SkippedKeys} (h : keys.entries = [])
    (h' : keys'.entries = []) : keys = keys' := by
  apply IntMap.ext_find
  intro k
  unfold IntMap.find
  rw [h, h']

/-- The two statements on the tables, with whatever is returned after them: they hold the
receiver, and of other addresses what they held. -/
theorem storeReceiver_holds (hc : cipher.Correct) (hq : TableCodec qt) {key : SenderKey}
    (hkey : d.loadSenderKey qt cipher a = some key) {r' : Receiver} (hr : Stored r') {p : Prop}
    [Decidable p] (hp : ¬p → r'.keys.entries = [] ∧ (d.loadSkipped qt cipher a).entries = [])
    {α : Type} (x : α) :
    Job.Keeps (groupMedium qt cipher) workingCare (fun _ => True)
      (fun y d' => y = x ∧ d'.held qt cipher a = some (key.publicSigningKey, r') ∧
        ∀ b, b ≠ a → d'.held qt cipher b = d.held qt cipher b)
      (do
        let _ ← Job.perform (.senderKey a { key with
          chainKey := r'.chainKey, iteration := r'.iteration, privateSigningKey := [] })
        if p then
          let _ ← Job.perform (.skippedKeys a r'.keys)
        return x) d := by
  obtain ⟨hrefused, -, hpublic⟩ := loadSenderKey_some hkey
  refine Job.Keeps.bind (Job.keeps_perform (fun _ => trivial) fun e he => ?_)
  obtain ⟨key', hloaded, hchain, hiteration, hpublic', hothers, hskipped⟩ :=
    @write_senderKey qt cipher d a hc hq hrefused { key with
      chainKey := r'.chainKey, iteration := r'.iteration, privateSigningKey := [] }
      hr.chainKey hpublic e he
  show Job.Keeps _ _ _ _ _ (d.write qt cipher e _).1
  generalize (d.write qt cipher e (.senderKey a { key with
    chainKey := r'.chainKey, iteration := r'.iteration, privateSigningKey := [] })).1 = d₁
    at hloaded hothers hskipped ⊢
  have hskip : ∀ b, d₁.loadSkipped qt cipher b = d.loadSkipped qt cipher b := fun b =>
    loadSkipped_congr (by rw [hskipped])
  -- with the skipped keys of the receiver the tables hold it
  have hfinal : ∀ d₂ : GroupDisk,
      (∀ b, d₂.loadSenderKey qt cipher b = d₁.loadSenderKey qt cipher b) →
      d₂.loadSkipped qt cipher a = r'.keys →
      (∀ b, b ≠ a → d₂.loadSkipped qt cipher b = d₁.loadSkipped qt cipher b) →
      d₂.held qt cipher a = some (key.publicSigningKey, r') ∧
        ∀ b, b ≠ a → d₂.held qt cipher b = d.held qt cipher b := by
    intro d₂ hload₂ hself₂ hothers₂
    constructor
    · unfold GroupDisk.held GroupDisk.receiver
      rw [hload₂ a, hloaded, Option.map_some, hself₂, hchain, hiteration, hpublic', ← hr.held]
    · intro b hb
      exact held_congr ((hload₂ b).trans (hothers b hb)) ((hothers₂ b hb).trans (hskip b))
  refine Job.keeps_ite (fun _ => ?_) fun hnone => ?_
  · refine Job.Keeps.bind (Job.keeps_perform (fun _ => trivial) fun e' he' => ⟨rfl, ?_⟩)
    obtain ⟨hself₂, hothers₂, hload₂⟩ :=
      write_skipped (d := d₁) (a := a) (e := e') hc hq hrefused hr.keys he'
    exact hfinal _ hload₂ hself₂ hothers₂
  · -- there were no skipped keys, and there are none
    refine ⟨rfl, hfinal d₁ (fun _ => rfl) ?_ fun _ _ => rfl⟩
    rw [hskip]
    exact keys_eq_of_nil (hp hnone).2 (hp hnone).1

/-- The message opens: it is shown, and the tables hold the receiver it leaves. -/
theorem keepOpened_handled (hc : cipher.Correct) (hq : TableCodec qt) (hs : Sized crypto)
    {key : SenderKey} (hkey : d.loadSenderKey qt cipher a = some key)
    {encrypted : EncryptedMessage} (hsmall : encrypted.iteration < 2 ^ 31) {msg : Json}
    (hobject : msg.isObject = true)
    (hopen : (decryptMessage crypto key.publicSigningKey (d.receiver qt cipher a key)
      encrypted).1 ≠ []) :
    Job.Keeps (groupMedium qt cipher) workingCare (fun _ => True)
      (Handled qt cipher crypto d a encrypted)
      (keepOpened a key (d.receiver qt cipher a key) encrypted.iteration msg
        (decryptMessage crypto key.publicSigningKey (d.receiver qt cipher a key) encrypted).1
        (decryptMessage crypto key.publicSigningKey (d.receiver qt cipher a key) encrypted).2)
      d := by
  have hheld : d.held qt cipher a = some (key.publicSigningKey, d.receiver qt cipher a key) := by
    unfold GroupDisk.held
    rw [hkey]
    rfl
  have hstored : Stored
      (decryptMessage crypto key.publicSigningKey (d.receiver qt cipher a key) encrypted).2 :=
    (held_stored hheld).decryptMessage hs hsmall
  generalize hresult : decryptMessage crypto key.publicSigningKey (d.receiver qt cipher a key)
    encrypted = result at hopen hstored ⊢
  obtain ⟨plain, r'⟩ := result
  dsimp only at hopen hstored ⊢
  have hplain : openedBy crypto (d.held qt cipher a) encrypted = plain := by
    rw [hheld]
    exact congrArg Prod.fst hresult
  have hleft : (d.held qt cipher a).map (leftBy crypto encrypted) =
      some (key.publicSigningKey, r') := by
    rw [hheld, Option.map_some]
    exact congrArg (fun x => some (key.publicSigningKey, x.2)) hresult
  -- the history and the plaintext are none of the tables' business
  have hrest : ∀ d₁ : GroupDisk, d₁.senderKeys = d.senderKeys → d₁.skipped = d.skipped →
      Job.Keeps (groupMedium qt cipher) workingCare (fun _ => True)
        (Handled qt cipher crypto d a encrypted) (do
          let _ ← Job.perform (.senderKey a { key with
            chainKey := r'.chainKey, iteration := r'.iteration, privateSigningKey := [] })
          if r'.keys.entries ≠ [] ∨ (d.receiver qt cipher a key).keys.entries ≠ [] then
            let _ ← Job.perform (.skippedKeys a r'.keys)
          return (msg.setMember "content" (.str (fromUtf8 plain)), true)) d₁ := by
    intro d₁ hkeys₁ hskipped₁
    have hload₁ : ∀ b, d₁.loadSenderKey qt cipher b = d.loadSenderKey qt cipher b := fun b =>
      loadSenderKey_congr (by rw [hkeys₁])
    have hskip₁ : ∀ b, d₁.loadSkipped qt cipher b = d.loadSkipped qt cipher b := fun b =>
      loadSkipped_congr (by rw [hskipped₁])
    refine (storeReceiver_holds hc hq ((hload₁ a).trans hkey) hstored (fun hnone => ?_) _).mono ?_
    · rw [not_or, not_not, not_not] at hnone
      rw [hskip₁]
      exact hnone
    · rintro shown d' ⟨rfl, hhere, hothers⟩
      refine ⟨?_, ?_, hhere.trans hleft.symm, fun b hb =>
        (hothers b hb).trans (held_congr (hload₁ b) (hskip₁ b))⟩
      · rw [hplain]
        exact (bne_iff_ne.mpr hopen).symm
      · rw [hplain, Json.value_setMember_self hobject]
  unfold keepOpened
  refine Job.Keeps.bind (Job.keeps_perform (fun _ => trivial) fun e _ => ?_)
  refine Job.keeps_ite (fun _ => ?_) fun _ => hrest _ rfl rfl
  exact Job.Keeps.bind (Job.keeps_perform (fun _ => trivial) fun e' _ => hrest _ rfl rfl)

/-- A message object that decodes is an object. -/
theorem isObject_of_decoded {msg : Json} {x : EncryptedMessage × String}
    (hempty : qt.fromJson "" = none)
    (h : GroupE2eeCrypto.decodeGroupMessage qt ((msg.value "content").toStr "") = some x) :
    msg.isObject = true := by
  by_contra hnot
  have hcontent : (msg.value "content").toStr "" = "" := by
    cases msg with
    | obj members => exact absurd rfl hnot
    | null | bool | int | double | str | arr => rfl
  unfold GroupE2eeCrypto.decodeGroupMessage at h
  rw [hcontent, hempty] at h
  cases h

/-- Naming the sender that was looked up leaves it an object. -/
theorem isObject_named {msg : Json} (h : msg.isObject = true) (p : Prop) [Decidable p] (v : Json) :
    (if p then msg.setMember "senderId" v else msg).isObject = true := by
  split
  · rw [Json.isObject_setMember]
    exact h
  · exact h

/-- **The handler** hands the message to the key of its address. -/
theorem decryptGroupMessageObject_handled (hc : cipher.Correct) (hq : TableCodec qt)
    (hs : Sized crypto) {msg : Json} {encrypted : EncryptedMessage}
    (h : d.addressed qt msg = some (a, encrypted)) :
    Job.Keeps (groupMedium qt cipher) workingCare (fun _ => True)
      (Handled qt cipher crypto d a encrypted)
      (decryptGroupMessageObject qt cipher crypto true msg) d := by
  obtain ⟨⟨message, senderDeviceId⟩, hdecoded, heq⟩ := Option.map_eq_some_iff.mp h
  have hobject := isObject_of_decoded hq.empty hdecoded
  unfold decryptGroupMessageObject
  rw [hdecoded]
  refine Job.keeps_ite (fun hclosed => absurd hclosed (by decide)) fun _ =>
    Job.Keeps.bind (Job.keeps_query.mpr ?_)
  obtain ⟨ha, rfl⟩ := Prod.mk.inj heq
  dsimp only at ha ⊢
  rw [ha]
  refine Job.Keeps.bind (Job.keeps_query.mpr ?_)
  split
  · rename_i hnone
    have hheld : d.held qt cipher a = none := by
      unfold GroupDisk.held
      rw [hnone]
      rfl
    refine Handled.refused (isObject_named hobject _ _) ?_ ?_
    · rw [hheld]
      rfl
    · rw [hheld]
      rfl
  · rename_i key hkey
    refine Job.Keeps.bind (Job.keeps_query.mpr ?_)
    have hheld : d.held qt cipher a = some (key.publicSigningKey, d.receiver qt cipher a key) := by
      unfold GroupDisk.held
      rw [hkey]
      rfl
    refine Job.keeps_ite (fun hrefused => ?_) fun hopen =>
      keepOpened_handled hc hq hs hkey (decodeGroupMessage_iteration hdecoded)
        (isObject_named hobject _ _) hopen
    refine Handled.refused (isObject_named hobject _ _) ?_ ?_
    · rw [hheld]
      exact hrefused
    · rw [hheld, Option.map_some]
      exact congrArg (fun r => some (key.publicSigningKey, r)) (decryptMessage_refused hrefused)

end

/-! ## Runs -/

/-- A message object, and how the writes come out that its handler makes. -/
abbrev Arrival := Json × (Nat → Outcome)

section

variable (qt : Qt) (cipher : TextCipher) (crypto : Crypto)

/-- The handler from its start to its end. -/
def GroupDisk.handle (d : GroupDisk) (x : Arrival) : (Json × Bool) × GroupDisk :=
  (decryptGroupMessageObject qt cipher crypto true x.1).run (groupMedium qt cipher) x.2 d

/-- One message after the other. -/
def GroupDisk.handleAll (d : GroupDisk) (xs : List Arrival) : GroupDisk :=
  xs.foldl (fun d x => (d.handle qt cipher crypto x).2) d

/-- Those of the messages that are for an address, each with what is made of it. -/
def handledFor (a : KeyAddress) : GroupDisk → List Arrival → List (EncryptedMessage × Json × Bool)
  | _, [] => []
  | d, x :: xs =>
      let result := d.handle qt cipher crypto x
      let rest := handledFor a result.2 xs
      match d.addressed qt x.1 with
      | none => rest
      | some (b, encrypted) => if b = a then (encrypted, result.1) :: rest else rest

end

/-- What is shown of them, by iteration. -/
def shownOf (handled : List (EncryptedMessage × Json × Bool)) : List (Int × Json) :=
  (handled.filter (·.2.2)).map fun x => (x.1.iteration, x.2.1.value "content")

/-- A plaintext as it is shown. -/
def shownText (x : Int × Bytes) : Int × Json := (x.1, .str (fromUtf8 x.2))

section

variable {qt : Qt} {cipher : TextCipher} {crypto : Crypto} {d : GroupDisk} {a : KeyAddress}
  {x : Arrival} {xs : List Arrival}

theorem shownOf_append (xs ys : List (EncryptedMessage × Json × Bool)) :
    shownOf (xs ++ ys) = shownOf xs ++ shownOf ys := by
  unfold shownOf
  rw [List.filter_append, List.map_append]

/-- A message without an address is left alone, -/
theorem handle_unaddressed (h : d.addressed qt x.1 = none) :
    (d.handle qt cipher crypto x).2 = d := by
  have hdecoded := Option.map_eq_none_iff.mp h
  unfold GroupDisk.handle decryptGroupMessageObject
  rw [hdecoded]
  rfl

/-- and one with an address is handled. -/
theorem handle_handled (hc : cipher.Correct) (hq : TableCodec qt) (hs : Sized crypto)
    {encrypted : EncryptedMessage} (hworks : ∀ n, (x.2 n).works = true)
    (h : d.addressed qt x.1 = some (a, encrypted)) :
    Handled qt cipher crypto d a encrypted (d.handle qt cipher crypto x).1
      (d.handle qt cipher crypto x).2 :=
  (decryptGroupMessageObject_handled hc hq hs h).run_of fun n _ _ => hworks n

theorem handledFor_unaddressed (h : d.addressed qt x.1 = none) :
    handledFor qt cipher crypto a d (x :: xs) = handledFor qt cipher crypto a d xs := by
  show (match d.addressed qt x.1 with
    | none => _
    | some (_, _) => _) = _
  rw [h]
  dsimp only
  rw [handle_unaddressed h]

theorem handledFor_cons {b : KeyAddress} {encrypted : EncryptedMessage}
    (h : d.addressed qt x.1 = some (b, encrypted)) :
    handledFor qt cipher crypto a d (x :: xs) =
      (if b = a then [(encrypted, (d.handle qt cipher crypto x).1)] else []) ++
        handledFor qt cipher crypto a (d.handle qt cipher crypto x).2 xs := by
  show (match d.addressed qt x.1 with
    | none => _
    | some (_, _) => _) = _
  rw [h]
  dsimp only
  split <;> rfl

/-- **Step lemma.** What the receiver in memory returns of the message is shown of it. -/
theorem Handled.outputs {publicSigningKey : Bytes} {s : Delivered} {encrypted : EncryptedMessage}
    {result : Json × Bool} {d' : GroupDisk} (h : Handled qt cipher crypto d a encrypted result d')
    (hheld : d.held qt cipher a = some (publicSigningKey, s.receiver)) :
    (deliver crypto publicSigningKey s encrypted).outputs.map shownText =
      s.outputs.map shownText ++ shownOf [(encrypted, result)] := by
  have hshown := h.shown
  have hcontent := h.content
  rw [hheld] at hshown hcontent
  unfold deliver shownOf
  dsimp only [openedBy] at hshown hcontent ⊢
  by_cases hopen : (decryptMessage crypto publicSigningKey s.receiver encrypted).1 = []
  · rw [if_pos hopen, List.filter_cons_of_neg, List.filter_nil, List.map_nil, List.append_nil]
    rw [hshown, hopen]
    decide
  · rw [if_neg hopen, List.filter_cons_of_pos (by rw [hshown]; simpa using hopen), List.filter_nil,
      List.map_append, List.map_singleton, List.map_singleton, hcontent]
    rfl

/-- **Run lemma.** The tables hold the receiver in memory, and what has been shown is what
it has returned. -/
theorem handledFor_run (hc : cipher.Correct) (hq : TableCodec qt) (hs : Sized crypto)
    (hworks : ∀ x ∈ xs, ∀ n, (x.2 n).works = true) {publicSigningKey chainKey : Bytes} {i : Int}
    {s : Delivered} (hheld : d.held qt cipher a = some (publicSigningKey, s.receiver)) :
    let handled := handledFor qt cipher crypto a d xs
    let s' := (deliveryMachine crypto publicSigningKey chainKey i).run s (handled.map (·.1))
    (d.handleAll qt cipher crypto xs).held qt cipher a = some (publicSigningKey, s'.receiver) ∧
      s'.outputs.map shownText = s.outputs.map shownText ++ shownOf handled := by
  induction xs generalizing d s with
  | nil => exact ⟨hheld, (List.append_nil _).symm⟩
  | cons x xs ih =>
      obtain ⟨hx, hrest⟩ := List.forall_mem_cons.mp hworks
      dsimp only
      show ((d.handle qt cipher crypto x).2.handleAll qt cipher crypto xs).held qt cipher a = _ ∧ _
      cases haddressed : d.addressed qt x.1 with
      | none =>
          rw [handle_unaddressed haddressed, handledFor_unaddressed haddressed]
          exact ih hrest hheld
      | some y =>
          obtain ⟨b, encrypted⟩ := y
          have hhandled := handle_handled hc hq hs hx haddressed
          rw [handledFor_cons haddressed]
          by_cases hb : b = a
          · -- the receiver is handed the message
            subst hb
            have hnext : (d.handle qt cipher crypto x).2.held qt cipher b = some
                (publicSigningKey, (deliver crypto publicSigningKey s encrypted).receiver) := by
              rw [hhandled.here, hheld]
              rfl
            obtain ⟨hfinal, houtputs⟩ := ih hrest hnext
            rw [if_pos rfl]
            refine ⟨hfinal, houtputs.trans ?_⟩
            rw [hhandled.outputs hheld, List.append_assoc, shownOf_append]
          · rw [if_neg hb]
            exact ih hrest ((hhandled.others a (Ne.symm hb)).trans hheld)

/-- Where there is no key of the address, none comes of its messages. -/
theorem handledFor_none (hc : cipher.Correct) (hq : TableCodec qt) (hs : Sized crypto)
    (hworks : ∀ x ∈ xs, ∀ n, (x.2 n).works = true) (hheld : d.held qt cipher a = none) :
    (d.handleAll qt cipher crypto xs).held qt cipher a = none ∧
      shownOf (handledFor qt cipher crypto a d xs) = [] := by
  induction xs generalizing d with
  | nil => exact ⟨hheld, rfl⟩
  | cons x xs ih =>
      obtain ⟨hx, hrest⟩ := List.forall_mem_cons.mp hworks
      show ((d.handle qt cipher crypto x).2.handleAll qt cipher crypto xs).held qt cipher a = _ ∧ _
      cases haddressed : d.addressed qt x.1 with
      | none =>
          rw [handle_unaddressed haddressed, handledFor_unaddressed haddressed]
          exact ih hrest hheld
      | some y =>
          obtain ⟨b, encrypted⟩ := y
          have hhandled := handle_handled hc hq hs hx haddressed
          rw [handledFor_cons haddressed]
          by_cases hb : b = a
          · subst hb
            have hnext : (d.handle qt cipher crypto x).2.held qt cipher b = none := by
              rw [hhandled.here, hheld]
              rfl
            have hshown := hhandled.shown
            rw [hheld] at hshown
            obtain ⟨hfinal, hnothing⟩ := ih hrest hnext
            refine ⟨hfinal, ?_⟩
            rw [if_pos rfl, shownOf_append, hnothing, List.append_nil]
            unfold shownOf
            rw [List.filter_cons_of_neg]
            · rfl
            · rw [hshown]
              exact Bool.false_ne_true
          · rw [if_neg hb]
            exact ih hrest ((hhandled.others a (Ne.symm hb)).trans hheld)

/-- **The tables work like the ratchet.** As long as the writes work, whatever the device
handles: of a stored key the tables hold the receiver that has been handed the messages for
its address and no others, and what the device has shown of these is what that receiver has
returned. Without a stored key nothing is shown. -/
theorem tables_likeRatchet (hc : cipher.Correct) (hq : TableCodec qt) (hs : Sized crypto)
    (d : GroupDisk) (xs : List Arrival) (hworks : ∀ x ∈ xs, ∀ n, (x.2 n).works = true)
    (a : KeyAddress) :
    let handled := handledFor qt cipher crypto a d xs
    let held := (d.handleAll qt cipher crypto xs).held qt cipher a
    (d.held qt cipher a = none → held = none ∧ shownOf handled = []) ∧
      ∀ publicSigningKey r, d.held qt cipher a = some (publicSigningKey, r) →
        let s := (deliveryMachine crypto publicSigningKey r.chainKey r.iteration).run
          { receiver := r } (handled.map (·.1))
        held = some (publicSigningKey, s.receiver) ∧ shownOf handled = s.outputs.map shownText := by
  refine ⟨handledFor_none hc hq hs hworks, fun publicSigningKey r hheld => ?_⟩
  have hrun := @handledFor_run qt cipher crypto d a xs hc hq hs hworks publicSigningKey
    r.chainKey r.iteration { receiver := r } hheld
  exact ⟨hrun.1, hrun.2.symm⟩

end

/-! ## The second message, and again -/

theorem compact_tables : TableCodec Qt.compact where
  toSkippedCodec := compact_skipped
  nonempty bytes h := by
    have hback := Base64.decode_encode bytes
    rw [show Base64.encode bytes = "" from h] at hback
    exact hback.symm

def toyArrival : Arrival :=
  (.obj
    [ ("messageId", .int 5), ("conversationId", .int 7), ("senderId", .int 1)
    , ("content", .str toySecondText) ],
    fun _ => { works := true })

/-- The disk holds the key as it was distributed. -/
theorem toyDisk_held : toyDisk.held Qt.compact plainCipher toyAddress =
    some (List.replicate 32 0, (GroupE2eeCrypto.receiverOf (List.replicate 32 0) 0).receiver) := by
  have hloaded : (toyDisk.loadSenderKey Qt.compact plainCipher toyAddress).map
      (fun key => (key.chainKey, key.iteration, key.publicSigningKey)) =
        some (List.replicate 32 0, 0, List.replicate 32 0) := by
    decide +kernel
  obtain ⟨key, hkey, hfields⟩ := Option.map_eq_some_iff.mp hloaded
  obtain ⟨hchain, hiteration, hpublic⟩ :
      key.chainKey = List.replicate 32 0 ∧ key.iteration = 0 ∧
        key.publicSigningKey = List.replicate 32 0 := by
    simpa only [Prod.mk.injEq] using hfields
  unfold GroupDisk.held GroupDisk.receiver
  rw [hkey, Option.map_some, hchain, hiteration, hpublic]
  rfl

/-- It is shown once. -/
theorem tables_likeRatchet_toy :
    shownOf (handledFor Qt.compact plainCipher GroupE2eeCrypto.toyCrypto toyAddress toyDisk
      [toyArrival, toyArrival]) = [(2, .str (fromUtf8 [2]))] := by
  have hrun := (tables_likeRatchet plainCipher_correct compact_tables toyCrypto_sized toyDisk
    [toyArrival, toyArrival] (fun x hx n => by
      rw [List.eq_of_mem_replicate (show x ∈ List.replicate 2 toyArrival from hx)]
      rfl) toyAddress).2 _ _ toyDisk_held
  rw [hrun.2]
  generalize hreturned : ((GroupE2eeCrypto.deliveryMachine _ _ _ _).run _ _).outputs = outputs
  have houtputs : outputs = [(2, [2])] := by
    rw [← hreturned]
    decide +kernel
  rw [houtputs]
  rfl

end XYChat.Client
