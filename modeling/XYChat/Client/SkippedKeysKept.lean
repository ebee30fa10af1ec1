import XYChat.Client.GroupReceive
import XYChat.Client.MessageCache
import XYChat.Common.JsonReader

/-!
# The kept keys keep up with the chain

A group message beyond the stored iteration takes the chain key forward, which cannot
be undone, and leaves the message keys it passed over behind. The chain key is written
before the skipped keys, so between the two statements the disk may be without the keys
of messages that are still to come.
-/

namespace XYChat.Client

open Lib
open GroupE2eeCrypto (SkippedKeys Receiver SenderKey EncryptedMessage between
  maxSkippedMessageKeys chainAt stepKey ratchetChainKey decryptMessage Sized)

/-! ## What a message leaves of the keys -/

section

variable {crypto : Crypto} {chainKey : Bytes} {i : Int}

theorem chainAt_chainAt (m n : Nat) :
    chainAt crypto (chainAt crypto chainKey m) n = chainAt crypto chainKey (m + n) := by
  unfold chainAt
  rw [Nat.add_comm, Function.iterate_add_apply]

/-- A message key can be had from any chain key on the way. -/
theorem stepKey_chainAt {lo k : Int} (hlo : i ≤ lo) (hk : lo ≤ k) :
    stepKey crypto (chainAt crypto chainKey (lo - i).toNat) lo k = stepKey crypto chainKey i k := by
  unfold stepKey
  rw [chainAt_chainAt]
  congr 2
  omega

/-- A receiver of the key distributed at iteration `i`: it is some steps on, and the
keys it keeps are message keys. -/
structure Underway (crypto : Crypto) (chainKey : Bytes) (i : Int) (r : Receiver) : Prop where
  ahead : i ≤ r.iteration
  chain : r.chainKey = chainAt crypto chainKey (r.iteration - i).toNat
  values : ∀ k key, r.keys.find k = some key → i < k ∧ key = stepKey crypto chainKey i k

theorem isSome_find_inserted (ks : List Int) (m : SkippedKeys) (k : Int) :
    ((ks.foldl (fun m k => m.insert k []) m).find k).isSome =
      (decide (k ∈ ks) || (m.find k).isSome) := by
  induction ks generalizing m with
  | nil => simp
  | cons j ks ih =>
      rw [List.foldl_cons, ih]
      by_cases hk : k = j
      · subst hk
        rw [IntMap.find_insert_self]
        simp
      · rw [IntMap.find_insert_of_ne hk]
        simp [hk]

/-- The keys that go are the smallest of those held and passed over. -/
theorem evictedKeys_eq {r r' : Receiver} {merged : SkippedKeys}
    (hforward : r.iteration < r'.iteration)
    (hmerged : ∀ k, merged.find k =
      if r.iteration < k ∧ k < r'.iteration then
        some (stepKey crypto r.chainKey r.iteration k)
      else r.keys.find k) :
    evictedKeys r r' = merged.removedKeys maxSkippedMessageKeys := by
  have hkeys : ((between r.iteration r'.iteration).foldl (fun m k => m.insert k []) r.keys).keys =
      merged.keys := by
    refine IntMap.keys_congr fun k => ?_
    rw [isSome_find_inserted, hmerged]
    by_cases hk : r.iteration < k ∧ k < r'.iteration
    · rw [if_pos hk, decide_eq_true (GroupE2eeCrypto.mem_between.mpr hk)]
      rfl
    · rw [if_neg hk, decide_eq_false (fun hmem => hk (GroupE2eeCrypto.mem_between.mp hmem)),
        Bool.false_or]
  have hsize : ∀ m : SkippedKeys, m.size = m.keys.length := fun m => (List.length_map _).symm
  unfold evictedKeys IntMap.removedKeys
  rw [if_pos hforward, hsize, hsize, hkeys]

/-- **What a message leaves.** Its receiver is underway as before, and of the keys held
and passed over it has all but the message's own and those that were evicted. -/
theorem Underway.decryptMessage {r : Receiver} {msg : EncryptedMessage} {publicSigningKey : Bytes}
    {held : SkippedKeys} (h : Underway crypto chainKey i r) (hheld : r.skippedKeys = some held)
    (hopen : (decryptMessage crypto publicSigningKey r msg).1 ≠ []) :
    let r' := (decryptMessage crypto publicSigningKey r msg).2
    Underway crypto chainKey i r' ∧ r.iteration ≤ r'.iteration ∧
      (∀ k, (r'.keys.find k).isSome → (r.keys.find k).isSome ∨ k < msg.iteration) ∧
      ∀ k, k ≠ msg.iteration → k ∉ evictedKeys r r' →
        (r.keys.find k).isSome ∨ (r.iteration < k ∧ k ≤ r'.iteration) →
          r'.keys.find k = some (stepKey crypto chainKey i k) := by
  dsimp only
  obtain ⟨-, hahead, hcached⟩ :=
    GroupE2eeCrypto.decryptMessage_atomic crypto publicSigningKey r msg
  generalize (GroupE2eeCrypto.decryptMessage crypto publicSigningKey r msg).2 = r'
    at hahead hcached ⊢
  have hkeys : r.keys = held := by
    unfold Receiver.keys
    rw [hheld]
    rfl
  by_cases hc : r.skippedKeys.bind (·.find msg.iteration) = none
  · obtain ⟨hforward, hiteration, hchain, hskipped⟩ := hahead hopen hc
    -- the receiver has gone forward to the message
    obtain ⟨held', hheld', merged, hmerged, hentries⟩ :
        ∃ held', r'.skippedKeys = some held' ∧ r.Passed crypto msg.iteration held held' := by
      rw [hheld] at hskipped
      cases hr' : r'.skippedKeys with
      | none =>
          rw [hr'] at hskipped
          cases hskipped
      | some held' =>
          rw [hr'] at hskipped
          cases hskipped with
          | some hpassed => exact ⟨held', rfl, hpassed⟩
    have hkeys' : r'.keys = held' := by
      unfold Receiver.keys
      rw [hheld']
      rfl
    have hvalue : ∀ k, r.iteration < k →
        stepKey crypto r.chainKey r.iteration k = stepKey crypto chainKey i k := by
      intro k hk
      rw [h.chain]
      exact stepKey_chainAt h.ahead hk.le
    have hfind : ∀ k key, merged.find k = some key →
        i < k ∧ key = stepKey crypto chainKey i k := by
      intro k key hk
      rw [hmerged] at hk
      split at hk
      · rename_i hbetween
        cases hk
        exact ⟨lt_of_le_of_lt h.ahead hbetween.1, hvalue k hbetween.1⟩
      · exact h.values k key (by rw [hkeys]; exact hk)
    have hmergedOf : ∀ k key, held'.find k = some key → merged.find k = some key := by
      intro k key hk
      have hmem := IntMap.find_eq_some.mp hk
      rw [hentries] at hmem
      exact IntMap.find_eq_some.mpr (List.mem_of_mem_drop hmem)
    refine ⟨⟨by have := h.ahead; omega, ?_, fun k key hk => ?_⟩, by omega, fun k hk => ?_,
      fun k hne hstays hhad => ?_⟩
    · rw [hchain, h.chain, chainAt_chainAt, hiteration]
      congr 1
      have := h.ahead
      omega
    · rw [hkeys'] at hk
      exact hfind k key (hmergedOf k key hk)
    · obtain ⟨key, hkey⟩ := Option.isSome_iff_exists.mp hk
      rw [hkeys'] at hkey
      have hthis := hmergedOf k key hkey
      rw [hmerged] at hthis
      split at hthis
      · rename_i hbetween
        exact .inr hbetween.2
      · left
        rw [hkeys, hthis]
        rfl
    · have hsome : merged.find k = some (stepKey crypto chainKey i k) := by
        rw [hmerged]
        split
        · rename_i hbetween
          rw [hvalue k hbetween.1]
        · rename_i hnot
          rcases hhad with hhad | ⟨hlo, hhi⟩
          · obtain ⟨key, hkey⟩ := Option.isSome_iff_exists.mp hhad
            rw [hkeys] at hkey
            rw [hkey, (h.values k key (by rw [hkeys]; exact hkey)).2]
          · exact absurd ⟨hlo, by omega⟩ hnot
      have hevicted := @evictedKeys_eq crypto r r' merged (by omega) (by
        intro k
        rw [hmerged, hiteration, hkeys])
      rw [hkeys', IntMap.find_eq_some, hentries]
      rcases IntMap.mem_drop_or_removed (IntMap.find_eq_some.mp hsome) with hmem | hremoved
      · exact hmem
      · rw [hevicted] at hstays
        exact absurd hremoved hstays
  · obtain ⟨hchain, hiteration, held₀, held', hheld₀, hheld', hgone, hothers⟩ :=
      hcached hopen hc
    -- a skipped key is used up
    rw [hheld] at hheld₀
    cases hheld₀
    have hkeys' : r'.keys = held' := by
      unfold Receiver.keys
      rw [hheld']
      rfl
    have hback : ∀ k key, held'.find k = some key → held.find k = some key := by
      intro k key hk
      by_cases hk' : k = msg.iteration
      · rw [hk', hgone] at hk
        cases hk
      · rwa [hothers k hk'] at hk
    refine ⟨⟨by rw [hiteration]; exact h.ahead, ?_, fun k key hk => ?_⟩, hiteration.ge,
      fun k hk => ?_, fun k hne _ hhad => ?_⟩
    · rw [hchain, hiteration]
      exact h.chain
    · rw [hkeys'] at hk
      exact h.values k key (by rw [hkeys]; exact hback k key hk)
    · obtain ⟨key, hkey⟩ := Option.isSome_iff_exists.mp hk
      left
      rw [hkeys, hback k key (by rw [← hkeys']; exact hkey)]
      rfl
    · rcases hhad with hhad | ⟨hlo, hhi⟩
      · obtain ⟨key, hkey⟩ := Option.isSome_iff_exists.mp hhad
        have hvalue := (h.values k key hkey).2
        rw [hkeys] at hkey
        rw [hkeys', hothers k hne, hkey, hvalue]
      · omega

end

/-! ## What the disk holds -/

/-- A chain key as it was distributed. -/
structure DistributedKey where
  chainKey : Bytes
  iteration : Int
  sized : chainKey.length = 32
  nonneg : 0 ≤ iteration

section

variable (qt : Qt) (crypto : Crypto) (cipher : TextCipher) (origin : KeyAddress → DistributedKey)

/-- The message key of an iteration of the key of an address. -/
def messageKeyAt (a : KeyAddress) (k : Int) : Bytes :=
  stepKey crypto (origin a).chainKey (origin a).iteration k

/-- The message of the iteration is after the distributed one, has not been decrypted,
and its key was not evicted. -/
def GroupDisk.Outstanding (d : GroupDisk) (a : KeyAddress) (k : Int) : Prop :=
  (origin a).iteration < k ∧ (a, k) ∉ d.decrypted ∧ (a, k) ∉ d.evicted

/-- **Keys at hand**: for each outstanding message of a stored key, the message
key is among the persisted ones, or the persisted chain key leads to it. -/
def KeysAtHand (d : GroupDisk) : Prop :=
  ∀ a key, d.loadSenderKey qt cipher a = some key → ∀ k, d.Outstanding origin a k →
    (k ≤ key.iteration →
      (d.loadSkipped qt cipher a).find k = some (messageKeyAt crypto origin a k)) ∧
      (key.iteration < k → stepKey crypto key.chainKey key.iteration k =
        messageKeyAt crypto origin a k)

/-- The receiver of a stored key. -/
def GroupDisk.receiver (d : GroupDisk) (a : KeyAddress) (key : SenderKey) : Receiver where
  chainKey := key.chainKey
  iteration := key.iteration
  skippedKeys := some (d.loadSkipped qt cipher a)

/-- The stored receivers are underway from the distributed keys. -/
def KeysUnderway (d : GroupDisk) : Prop :=
  ∀ a key, d.loadSenderKey qt cipher a = some key →
    Underway crypto (origin a).chainKey (origin a).iteration (d.receiver qt cipher a key)

/-- What the skipped keys to be written have, the disk has, or its chain is not there
yet. -/
def AddsNothing (d : GroupDisk) (a : KeyAddress) (keys : SkippedKeys) : Prop :=
  ∀ k, (keys.find k).isSome → ((d.loadSkipped qt cipher a).find k).isSome ∨
    ∀ key, d.loadSenderKey qt cipher a = some key → key.iteration < k

/-- The skipped keys are written, unless that adds nothing; and the handler is not left
before it. -/
def keepingCare : Care GroupDisk GroupWrite Outcome where
  outcome d w e :=
    match w with
    | .skippedKeys a keys => e.works = true ∨ AddsNothing qt cipher d a keys
    | _ => True
  leave d pending :=
    match pending with
    | some (.skippedKeys a keys) => AddsNothing qt cipher d a keys
    | _ => True

/-- The handler of a message, from whatever page or event it comes. -/
inductive GroupEvent where
  | groupMessage (storeOpen : Bool) (msg : Json)

def GroupEvent.handle : GroupEvent → Unit → GroupJob Unit
  | .groupMessage storeOpen msg, _ =>
      (fun _ => ()) <$> decryptGroupMessageObject qt cipher crypto storeOpen msg

abbrev GroupProcess := Process GroupDisk GroupWrite Unit

/-- The client of one account, which starts from distributed keys. -/
def groupMachine : Machine GroupProcess (Event GroupEvent Outcome) where
  init p := p.job = none ∧ KeysUnderway qt crypto cipher origin p.medium ∧
    KeysAtHand qt crypto cipher origin p.medium
  step := Process.step (groupMedium qt cipher) (fun e m => e.handle qt crypto cipher m) ()

/-! ## Between the two statements -/

/-- The skipped keys are about to be written: what is outstanding is among them. -/
structure AboutToWrite (d : GroupDisk) (a : KeyAddress) (keys : SkippedKeys) : Prop where
  underway : KeysUnderway qt crypto cipher origin d
  others : ∀ b key, b ≠ a → d.loadSenderKey qt cipher b = some key → ∀ k,
    d.Outstanding origin b k → k ≤ key.iteration →
      (d.loadSkipped qt cipher b).find k = some (messageKeyAt crypto origin b k)
  owed : ∀ key, d.loadSenderKey qt cipher a = some key → ∀ k, d.Outstanding origin a k →
    k ≤ key.iteration → keys.find k = some (messageKeyAt crypto origin a k)
  values : ∀ k key, keys.find k = some key →
    (origin a).iteration < k ∧ key = messageKeyAt crypto origin a k
  storable : Storable keys
  usable : ¬a.Refused

variable {qt crypto cipher origin} {d : GroupDisk} {a : KeyAddress} {keys : SkippedKeys}

/-- Where the kept keys are there, so is all that is claimed. -/
theorem KeysUnderway.atHand (h : KeysUnderway qt crypto cipher origin d)
    (hkept : ∀ a key, d.loadSenderKey qt cipher a = some key → ∀ k, d.Outstanding origin a k →
      k ≤ key.iteration →
        (d.loadSkipped qt cipher a).find k = some (messageKeyAt crypto origin a k)) :
    KeysAtHand qt crypto cipher origin d := by
  intro a key hkey k hk
  refine ⟨hkept a key hkey k hk, fun hbeyond => ?_⟩
  have hunder := h a key hkey
  have hchain : key.chainKey = chainAt crypto (origin a).chainKey
      (key.iteration - (origin a).iteration).toNat := hunder.chain
  rw [hchain]
  exact stepKey_chainAt hunder.ahead hbeyond.le

theorem AboutToWrite.atHand (h : AboutToWrite qt crypto cipher origin d a keys)
    (hnothing : AddsNothing qt cipher d a keys) : KeysAtHand qt crypto cipher origin d := by
  refine h.underway.atHand fun b key hkey k hk hle => ?_
  by_cases hb : b = a
  · subst hb
    have howed := h.owed key hkey k hk hle
    rcases hnothing k (by rw [howed]; rfl) with hsome | hbeyond
    · obtain ⟨v, hv⟩ := Option.isSome_iff_exists.mp hsome
      rw [hv, ((h.underway b key hkey).values k v hv).2]
      rfl
    · have := hbeyond key hkey
      omega
  · exact h.others b key hb hkey k hk hle

/-- What a handler finds on the disk, and leaves there. -/
structure KeysSound (qt : Qt) (crypto : Crypto) (cipher : TextCipher)
    (origin : KeyAddress → DistributedKey) (d : GroupDisk) : Prop where
  underway : KeysUnderway qt crypto cipher origin d
  atHand : KeysAtHand qt crypto cipher origin d

theorem AboutToWrite.sound (h : AboutToWrite qt crypto cipher origin d a keys)
    (hnothing : AddsNothing qt cipher d a keys) : KeysSound qt crypto cipher origin d :=
  ⟨h.underway, h.atHand hnothing⟩

theorem write_skippedKeys {e : Outcome} {rows' : List SkippedRow}
    (hsaved : saveSkippedMessageKeys qt cipher e.iv a keys d.skipped = some rows') :
    (d.write qt cipher e (.skippedKeys a keys)).1 =
      if e.works = true then { d with skipped := rows' } else d := by
  unfold GroupDisk.write
  dsimp only
  rw [hsaved]
  dsimp only
  split <;> rfl

/-- With the second statement the disk is complete. -/
theorem AboutToWrite.written (hc : cipher.Correct) (hq : SkippedCodec qt)
    (h : AboutToWrite qt crypto cipher origin d a keys) {e : Outcome} (he : e.works = true) :
    KeysSound qt crypto cipher origin (d.write qt cipher e (.skippedKeys a keys)).1 := by
  obtain ⟨rows', hsaved, hself, hothers⟩ :=
    loadSkipped_saved (d := d) (r := e.iv) hc hq h.storable h.usable
  rw [write_skippedKeys hsaved, if_pos he]
  have hunderway : KeysUnderway qt crypto cipher origin { d with skipped := rows' } := by
    intro b key hkey
    have hunder := h.underway b key hkey
    refine ⟨hunder.ahead, hunder.chain, fun k v hv => ?_⟩
    by_cases hb : b = a
    · subst hb
      exact h.values k v ((hself k).symm.trans hv)
    · have hsame : (d.loadSkipped qt cipher b).find k = some v := (hothers b hb) ▸ hv
      exact hunder.values k v hsame
  refine ⟨hunderway, hunderway.atHand fun b key hkey k hk hle => ?_⟩
  by_cases hb : b = a
  · subst hb
    rw [hself]
    exact h.owed key hkey k hk hle
  · rw [hothers b hb]
    exact h.others b key hb hkey k hk hle

/-! ## A message that opens -/

/-- A message of the key of an address was opened, and the receiver that this leaves is
to be written. -/
structure Advancing (qt : Qt) (crypto : Crypto) (cipher : TextCipher)
    (origin : KeyAddress → DistributedKey) (d : GroupDisk) (a : KeyAddress) (key : SenderKey)
    (r' : Receiver) : Prop where
  sound : KeysSound qt crypto cipher origin d
  loaded : d.loadSenderKey qt cipher a = some key
  underway : Underway crypto (origin a).chainKey (origin a).iteration r'
  forward : key.iteration ≤ r'.iteration
  kept : ∀ k, d.Outstanding origin a k → k ≤ r'.iteration →
    r'.keys.find k = some (messageKeyAt crypto origin a k)
  storable : Storable r'.keys

/-- The history has grown, the tables are what they were. -/
theorem KeysSound.opened (h : KeysSound qt crypto cipher origin d) (iteration : Int)
    (evicted : List Int)
    (e : Outcome) :
    KeysSound qt crypto cipher origin (d.write qt cipher e (.opened a iteration evicted)).1 where
  underway := h.underway
  atHand b key hkey k hk :=
    h.atHand b key hkey k ⟨hk.1, fun hmem => hk.2.1 (List.mem_cons_of_mem _ hmem),
      fun hmem => hk.2.2 (List.mem_append_right _ hmem)⟩

theorem messageKeyAt_ne_nil (hs : Sized crypto) {k : Int} (hk : (origin a).iteration < k) :
    messageKeyAt crypto origin a k ≠ [] := by
  intro hnil
  have hlength := GroupE2eeCrypto.stepKey_length (i := (origin a).iteration) (k := k) hs
    (origin a).sized (by have := (origin a).nonneg; omega)
  unfold messageKeyAt at hnil
  rw [hnil] at hlength
  cases hlength

/-- Once the message has been noted as opened, what is outstanding is among the keys of
the receiver it leaves. -/
theorem KeysSound.advancing (hs : Sized crypto) (h : KeysSound qt crypto cipher origin d)
    {key : SenderKey}
    (hkey : d.loadSenderKey qt cipher a = some key) {msg : EncryptedMessage}
    (hsmall : msg.iteration < 2 ^ 31)
    (hopen : (decryptMessage crypto key.publicSigningKey (d.receiver qt cipher a key) msg).1 ≠ [])
    (e : Outcome) :
    let r' := (decryptMessage crypto key.publicSigningKey (d.receiver qt cipher a key) msg).2
    Advancing qt crypto cipher origin (d.write qt cipher e
      (.opened a msg.iteration (evictedKeys (d.receiver qt cipher a key) r'))).1 a key r' := by
  dsimp only
  have hleft := (h.underway a key hkey).decryptMessage rfl hopen
  dsimp only at hleft
  generalize (decryptMessage crypto key.publicSigningKey (d.receiver qt cipher a key) msg).2 = r'
    at hleft ⊢
  obtain ⟨hunder, hforward, hnew, hkept⟩ := hleft
  refine ⟨h.opened _ _ e, hkey, hunder, hforward, fun k hk hle => ?_, fun k v hv => ?_⟩
  · -- neither this message's iteration nor one of the evicted
    have hne : k ≠ msg.iteration := by
      rintro rfl
      exact hk.2.1 List.mem_cons_self
    have hstays : k ∉ evictedKeys (d.receiver qt cipher a key) r' := fun hmem =>
      hk.2.2 (List.mem_append_left _ (List.mem_map.mpr ⟨k, hmem, rfl⟩))
    have hbefore : d.Outstanding origin a k :=
      ⟨hk.1, fun hmem => hk.2.1 (List.mem_cons_of_mem _ hmem),
        fun hmem => hk.2.2 (List.mem_append_right _ hmem)⟩
    refine hkept k hne hstays ?_
    by_cases hpassed : k ≤ key.iteration
    · left
      have hheld : (d.receiver qt cipher a key).keys.find k =
          some (messageKeyAt crypto origin a k) :=
        (h.atHand a key hkey k hbefore).1 hpassed
      rw [hheld]
      rfl
    · exact .inr ⟨not_le.mp hpassed, hle⟩
  · obtain ⟨hafter, hvalue⟩ := hunder.values k v hv
    have hpos := (origin a).nonneg
    refine ⟨by omega, ?_, ?_⟩
    · rcases hnew k (by rw [hv]; rfl) with hheld | hpassed
      · obtain ⟨w, hw⟩ := Option.isSome_iff_exists.mp hheld
        exact (storable_loadSkipped a d k w hw).2.1
      · omega
    · rw [hvalue]
      exact messageKeyAt_ne_nil hs hafter

/-- After the first statement, whether it worked or not, the second one is due. -/
theorem Advancing.aboutToWrite (hc : cipher.Correct)
    (hbase64 : ∀ bytes, qt.fromBase64 (qt.toBase64 bytes) = bytes) (hs : Sized crypto)
    {key : SenderKey} {r' : Receiver} (h : Advancing qt crypto cipher origin d a key r')
    (e : Outcome) :
    AboutToWrite qt crypto cipher origin (d.write qt cipher e (.senderKey a { key with
      chainKey := r'.chainKey, iteration := r'.iteration, privateSigningKey := [] })).1 a r'.keys := by
  obtain ⟨hrefused, -, hpublic⟩ := loadSenderKey_some h.loaded
  have hunwritten : AboutToWrite qt crypto cipher origin d a r'.keys := by
    refine ⟨h.sound.underway, fun b key' _ hkey' k hk hle =>
      (h.sound.atHand b key' hkey' k hk).1 hle, fun key' hkey' k hk hle => ?_, h.underway.values,
      h.storable, hrefused⟩
    rw [h.loaded] at hkey'
    cases hkey'
    exact h.kept k hk (hle.trans h.forward)
  unfold GroupDisk.write
  dsimp only
  split
  · exact hunwritten
  rename_i rows hsaved
  by_cases he : e.works = true
  · rw [if_pos he]
    have hchain : r'.chainKey.length = 32 := by
      rw [h.underway.chain]
      exact GroupE2eeCrypto.chainAt_length hs (origin a).sized _
    have hreads := @loadSenderKey_saved qt cipher a d hc hbase64 (e.iv, e.iv + 1) { key with
      chainKey := r'.chainKey, iteration := r'.iteration, privateSigningKey := [] } rows
    obtain ⟨key', hloaded, hchainKey, hiteration, -⟩ := hreads hchain hpublic hsaved
    have hreplaces := @saveSenderKey_replaces qt cipher a (e.iv, e.iv + 1) { key with
      chainKey := r'.chainKey, iteration := r'.iteration, privateSigningKey := [] } d.senderKeys rows
    obtain ⟨row, haddress, -, -, -, -, hrows⟩ := hreplaces hsaved
    have hothers : ∀ b, b ≠ a →
        ({ d with senderKeys := rows } : GroupDisk).loadSenderKey qt cipher b =
          d.loadSenderKey qt cipher b := by
      intro b hb
      refine loadSenderKey_congr ?_
      show rows.find? _ = _
      rw [hrows]
      exact find_replaced_of_ne SenderKeyRow.address d.senderKeys haddress hb
    refine ⟨fun b key₂ hkey₂ => ?_, fun b key₂ hb hkey₂ => ?_, fun key₂ hkey₂ k hk hle => ?_,
      h.underway.values, h.storable, hrefused⟩
    · by_cases hb : b = a
      · subst hb
        rw [hloaded] at hkey₂
        cases hkey₂
        refine ⟨?_, ?_, fun k v hv => ?_⟩
        · show (origin b).iteration ≤ key'.iteration
          rw [hiteration]
          exact h.underway.ahead
        · show key'.chainKey = chainAt _ _ (key'.iteration - _).toNat
          rw [hchainKey, hiteration]
          exact h.underway.chain
        · exact (h.sound.underway b key h.loaded).values k v hv
      · rw [hothers b hb] at hkey₂
        exact h.sound.underway b key₂ hkey₂
    · rw [hothers b hb] at hkey₂
      exact hunwritten.others b key₂ hb hkey₂
    · rw [hloaded] at hkey₂
      cases hkey₂
      exact h.kept k hk (hle.trans_eq hiteration)
  · rw [if_neg he]
    exact hunwritten

/-! ## The handler -/

/-- Wherever the job is left with care, the disk is sound. -/
abbrev KeepsSound (qt : Qt) (crypto : Crypto) (cipher : TextCipher)
    (origin : KeyAddress → DistributedKey) {α : Type} (j : GroupJob α) (d : GroupDisk) : Prop :=
  Job.Keeps (groupMedium qt cipher) (keepingCare qt cipher) (KeysSound qt crypto cipher origin)
    (fun _ d' => KeysSound qt crypto cipher origin d') j d

theorem AddsNothing.of_nil (h : keys.entries = []) : AddsNothing qt cipher d a keys := by
  intro k hk
  have hnone : keys.find k = none := by
    unfold IntMap.find
    rw [h]
    rfl
  rw [hnone] at hk
  cases hk

/-- The second statement, or what stands in for it. -/
theorem keepsSound_skippedKeys (hc : cipher.Correct) (hq : SkippedCodec qt)
    (h : AboutToWrite qt crypto cipher origin d a keys) {p : Prop} [Decidable p]
    (hp : ¬p → keys.entries = []) {α : Type} (x : α) :
    KeepsSound qt crypto cipher origin (do
      if p then let _ ← Job.perform (.skippedKeys a keys)
      return x) d := by
  dsimp only
  refine Job.keeps_ite (fun _ => ?_) fun hnot => ?_
  · refine Job.Keeps.bind (Job.keeps_perform h.sound fun e he => ?_)
    by_cases hworks : e.works = true
    · exact h.written hc hq hworks
    · -- the statement fails where there is nothing to add
      have hnothing : AddsNothing qt cipher d a keys := he.resolve_left hworks
      obtain ⟨rows', hsaved, -⟩ := loadSkipped_saved (d := d) (r := e.iv) hc hq h.storable h.usable
      show KeysSound _ _ _ _ (d.write qt cipher e (.skippedKeys a keys)).1
      rw [write_skippedKeys hsaved, if_neg hworks]
      exact h.sound hnothing
  · exact h.sound (AddsNothing.of_nil (hp hnot))

theorem keepOpened_keeps (hc : cipher.Correct) (hq : SkippedCodec qt) (hs : Sized crypto)
    (h : KeysSound qt crypto cipher origin d) {key : SenderKey}
    (hkey : d.loadSenderKey qt cipher a = some key) {encrypted : EncryptedMessage}
    (hsmall : encrypted.iteration < 2 ^ 31) (msg : Json) (plain : Bytes)
    (hopen : (decryptMessage crypto key.publicSigningKey (d.receiver qt cipher a key) encrypted).1 ≠
      []) :
    KeepsSound qt crypto cipher origin (keepOpened a key (d.receiver qt cipher a key)
      encrypted.iteration msg plain
      (decryptMessage crypto key.publicSigningKey (d.receiver qt cipher a key) encrypted).2) d := by
  unfold keepOpened
  refine Job.Keeps.bind (Job.keeps_perform (fun _ => h) fun e _ => ?_)
  have hadvancing := h.advancing hs hkey hsmall hopen e
  dsimp only at hadvancing
  generalize (decryptMessage crypto key.publicSigningKey (d.receiver qt cipher a key) encrypted).2 = r'
    at hadvancing ⊢
  -- the plaintext is none of the two tables' business
  have hrest : ∀ d' : GroupDisk, Advancing qt crypto cipher origin d' a key r' →
      KeepsSound qt crypto cipher origin (do
        let _ ← Job.perform (.senderKey a { key with
          chainKey := r'.chainKey, iteration := r'.iteration, privateSigningKey := [] })
        if r'.keys.entries ≠ [] ∨ (d.receiver qt cipher a key).keys.entries ≠ [] then
          let _ ← Job.perform (.skippedKeys a r'.keys)
        return (msg.setMember "content" (.str (fromUtf8 plain)), true)) d' := by
    intro d' h'
    refine Job.Keeps.bind (Job.keeps_perform (fun _ => h'.sound) fun e' _ => ?_)
    refine keepsSound_skippedKeys hc hq (h'.aboutToWrite hc hq.base64 hs e') (fun hnot => ?_) _
    exact not_not.mp fun hne => hnot (.inl hne)
  dsimp only
  refine Job.keeps_ite (fun _ => ?_) fun _ => hrest _ hadvancing
  exact Job.Keeps.bind (Job.keeps_perform (fun _ => hadvancing.sound) fun _ _ => hrest _ hadvancing)

/-- A decoded message has an iteration that is stored as a number of 32 bits. -/
theorem decodeGroupMessage_iteration {content senderDeviceId : String} {msg : EncryptedMessage}
    (h : GroupE2eeCrypto.decodeGroupMessage qt content = some (msg, senderDeviceId)) :
    msg.iteration < 2 ^ 31 := by
  unfold GroupE2eeCrypto.decodeGroupMessage at h
  split at h
  · cases h
  split at h
  · cases h
  split at h
  · cases h
  dsimp only at h
  split at h
  · rename_i hvalid
    cases h
    simp only [Bool.and_eq_true, decide_eq_true_eq] at hvalid
    have hmax : GroupE2eeCrypto.maxMessageIteration < 2 ^ 31 := by decide
    exact lt_of_le_of_lt hvalid.1.1.1.2 hmax
  · cases h

theorem openStored_keeps (hc : cipher.Correct) (hq : SkippedCodec qt) (hs : Sized crypto)
    (h : KeysSound qt crypto cipher origin d) {key : SenderKey}
    (hkey : d.loadSenderKey qt cipher a = some key) {encrypted : EncryptedMessage}
    (hsmall : encrypted.iteration < 2 ^ 31) (msg : Json) :
    KeepsSound qt crypto cipher origin
      (openStored crypto a msg encrypted key (d.loadSkipped qt cipher a)) d :=
  Job.keeps_ite (fun _ => h) fun hopen => keepOpened_keeps hc hq hs h hkey hsmall msg _ hopen

theorem decryptGroupMessageObject_keeps (hc : cipher.Correct) (hq : SkippedCodec qt)
    (hs : Sized crypto) (h : KeysSound qt crypto cipher origin d) (storeOpen : Bool) (msg : Json) :
    KeepsSound qt crypto cipher origin
      (decryptGroupMessageObject qt cipher crypto storeOpen msg) d := by
  unfold decryptGroupMessageObject
  cases hdecoded : GroupE2eeCrypto.decodeGroupMessage qt ((msg.value "content").toStr "") with
  | none => exact h
  | some decoded =>
      obtain ⟨encrypted, senderDeviceId⟩ := decoded
      refine Job.keeps_ite (fun _ => h) fun _ => Job.Keeps.bind (Job.keeps_query.mpr ?_)
      refine Job.Keeps.bind (Job.keeps_query.mpr ?_)
      split
      · exact h
      · rename_i key hkey
        refine Job.Keeps.bind (Job.keeps_query.mpr ?_)
        exact openStored_keeps hc hq hs h hkey (decodeGroupMessage_iteration hdecoded) _

/-! ## Runs -/

/-- **The kept keys keep up with the chain** through every crash and every failure of a
write, as long as the skipped keys are written whenever they add to those on the disk. -/
theorem keysAtHand_of_written (hc : cipher.Correct) (hq : SkippedCodec qt) (hs : Sized crypto)
    {p : GroupProcess} {ops : List (Event GroupEvent Outcome)}
    (hp : (groupMachine qt crypto cipher origin).init p)
    (h : (groupMachine qt crypto cipher origin).Along
      (Process.Meets (keepingCare qt cipher)) p ops) :
    (groupMachine qt crypto cipher origin).Always
      (fun p => p.job = none → KeysAtHand qt crypto cipher origin p.medium) p ops := by
  have hstart : Process.Holds (groupMedium qt cipher) (keepingCare qt cipher)
      (KeysSound qt crypto cipher origin) (fun _ => KeysSound qt crypto cipher origin) p := by
    unfold Process.Holds
    rw [hp.1]
    exact ⟨hp.2.1, hp.2.2⟩
  have hstep : ∀ (p : GroupProcess) (op : Event GroupEvent Outcome),
      Process.Holds (groupMedium qt cipher) (keepingCare qt cipher)
        (KeysSound qt crypto cipher origin) (fun _ => KeysSound qt crypto cipher origin) p →
      p.Meets (keepingCare qt cipher) op →
      Process.Holds (groupMedium qt cipher) (keepingCare qt cipher)
        (KeysSound qt crypto cipher origin) (fun _ => KeysSound qt crypto cipher origin)
        ((groupMachine qt crypto cipher origin).step p op) := by
    intro p op hholds hop
    refine Process.Holds.step (R := fun _ => KeysSound qt crypto cipher origin)
      (fun _ _ h => h) (fun _ h => h) (fun e _ d hd => ?_) hholds hop
    obtain ⟨storeOpen, msg⟩ := e
    refine Job.Keeps.bind ((decryptGroupMessageObject_keeps hc hq hs hd storeOpen msg).mono ?_)
    exact fun _ _ h' _ => h'
  have hholds := Machine.always_of_along hstep hstart h
  exact hholds.mono fun p hp hidle => (Process.Holds.idle hp hidle).atHand

end

/-! ## A message that passes one over -/

/-- The second message of a sender whose first one has not come. -/
def toySecond : EncryptedMessage :=
  ((GroupE2eeCrypto.encryptAll GroupE2eeCrypto.toyCrypto GroupE2eeCrypto.toyKey
    [(List.replicate 12 0, [1]), (List.replicate 12 0, [2])]).2.map (·.2)).getD 1 {}

/-- Its text. -/
def toySecondText : String := (GroupE2eeCrypto.encodeGroupMessage Qt.compact toySecond "a").text

theorem compact_skipped : SkippedCodec Qt.compact where
  base64 := Base64.decode_encode
  empty := rfl
  members keys := by
    refine ⟨skippedMembers Qt.compact keys, Json.read_text ?_, .rfl⟩
    refine Json.arePlainMembers_iff.mpr fun x hx => ?_
    obtain ⟨e, -, rfl⟩ := List.mem_map.mp hx
    rfl

theorem toyCrypto_sized : Sized GroupE2eeCrypto.toyCrypto :=
  GroupE2eeCrypto.toyCrypto_ideal.toSized

def toyAddress : KeyAddress := ⟨7, 1, "a", "k"⟩

def toyOrigin (_ : KeyAddress) : DistributedKey where
  chainKey := List.replicate 32 0
  iteration := 0
  sized := rfl
  nonneg := Int.natCast_nonneg 0

/-- The key of the sender has come, and no message yet. -/
def toyDisk : GroupDisk where
  senderKeys := [{
    groupId := 7, senderUserId := 1, senderDeviceId := "a", keyId := "k"
    chainKeyEnc := plainCipher.encryptText 0 (Base64.encode (List.replicate 32 0))
    publicSigningKey := Base64.encode (List.replicate 32 0)
    privateSigningKeyEnc := "", iteration := 0 }]

/-- The message comes, and the writes work that it gets to. -/
def toyArrives (writes : Nat) : List (Event GroupEvent Outcome) :=
  .start (.groupMessage true (.obj
    [ ("messageId", .int 5), ("conversationId", .int 7), ("senderId", .int 1)
    , ("content", .str toySecondText) ])) :: List.replicate writes (.next { works := true })

/-- A disk with the keys as they were distributed. -/
theorem sound_distributed {qt : Qt} {crypto : Crypto} {cipher : TextCipher}
    {origin : KeyAddress → DistributedKey} {d : GroupDisk} (hskipped : d.skipped = [])
    (hkeys : ∀ a key, d.loadSenderKey qt cipher a = some key →
      key.chainKey = (origin a).chainKey ∧ key.iteration = (origin a).iteration) :
    KeysSound qt crypto cipher origin d := by
  have hnone : ∀ a k, (d.loadSkipped qt cipher a).find k = none := by
    intro a k
    unfold GroupDisk.loadSkipped loadSkippedMessageKeys
    rw [hskipped]
    split <;> rfl
  have hunderway : KeysUnderway qt crypto cipher origin d := by
    intro a key hkey
    obtain ⟨hchain, hiteration⟩ := hkeys a key hkey
    refine ⟨hiteration.ge, ?_, fun k v hv => ?_⟩
    · show key.chainKey = chainAt _ _ (key.iteration - _).toNat
      rw [hchain, hiteration, Int.sub_self]
      rfl
    · have hv' : (d.loadSkipped qt cipher a).find k = some v := hv
      rw [hnone] at hv'
      cases hv'
  refine ⟨hunderway, hunderway.atHand fun a key hkey k hk hle => ?_⟩
  have hafter := hk.1
  have hiteration := (hkeys a key hkey).2
  omega

theorem toyDisk_sound :
    KeysSound Qt.compact GroupE2eeCrypto.toyCrypto plainCipher toyOrigin toyDisk := by
  refine sound_distributed rfl fun a key hkey => ?_
  have hrow : a = toyAddress := by
    by_contra hne
    have hnothing : toyDisk.loadSenderKey Qt.compact plainCipher a =
        ({} : GroupDisk).loadSenderKey Qt.compact plainCipher a := by
      refine loadSenderKey_congr (List.find?_cons_of_neg ?_)
      exact fun h => hne (beq_iff_eq.mp h).symm
    rw [hnothing] at hkey
    unfold GroupDisk.loadSenderKey Database.loadSenderKey at hkey
    split at hkey <;> cases hkey
  subst hrow
  have hloaded : (toyDisk.loadSenderKey Qt.compact plainCipher toyAddress).map
      (fun key => (key.chainKey, key.iteration)) = some (List.replicate 32 0, 0) := by
    decide +kernel
  rw [hkey, Option.map_some, Option.some.injEq, Prod.mk.injEq] at hloaded
  exact hloaded

/-- With all writes working, the first message keeps its key. -/
theorem keysAtHand_written :
    (groupMachine Qt.compact GroupE2eeCrypto.toyCrypto plainCipher toyOrigin).Always
      (fun p => p.job = none →
        KeysAtHand Qt.compact GroupE2eeCrypto.toyCrypto plainCipher toyOrigin p.medium)
      { medium := toyDisk, memory := () } (toyArrives 5) := by
  refine keysAtHand_of_written plainCipher_correct compact_skipped toyCrypto_sized
    ⟨rfl, toyDisk_sound.underway, toyDisk_sound.atHand⟩
    (Machine.along_of_forall fun op hop p => ?_)
  rcases List.mem_cons.mp hop with rfl | hnext
  · trivial
  · rw [List.eq_of_mem_replicate hnext]
    show Process.MeetsNext _ _ _ p.pending
    cases p.pending with
    | none => trivial
    | some pending =>
        cases pending with
        | none => trivial
        | some w =>
            cases w with
            | skippedKeys a keys => exact .inl rfl
            | opened | plaintext | senderKey => trivial

/-- **The defect**: after a crash between the two statements the chain is past the first
message and its key is nowhere. -/
theorem keysAtHand_crash :
    (groupMachine Qt.compact GroupE2eeCrypto.toyCrypto plainCipher toyOrigin).init
        { medium := toyDisk, memory := () } ∧
      ¬(groupMachine Qt.compact GroupE2eeCrypto.toyCrypto plainCipher toyOrigin).Always
        (fun p => p.job = none →
          KeysAtHand Qt.compact GroupE2eeCrypto.toyCrypto plainCipher toyOrigin p.medium)
        { medium := toyDisk, memory := () } (toyArrives 3 ++ [.crash]) := by
  refine ⟨⟨rfl, toyDisk_sound.underway, toyDisk_sound.atHand⟩, fun h => ?_⟩
  have hlost := h.last
  generalize hp : (groupMachine Qt.compact GroupE2eeCrypto.toyCrypto plainCipher toyOrigin).run
    { medium := toyDisk, memory := () } (toyArrives 3 ++ [.crash]) = p at hlost
  have hjob : p.job = none := by
    rw [← hp]
    rfl
  have hkey : (p.medium.loadSenderKey Qt.compact plainCipher toyAddress).map (·.iteration) =
      some 2 := by
    rw [← hp]
    decide +kernel
  have hhistory : p.medium.decrypted = [(toyAddress, 2)] ∧ p.medium.evicted = [] := by
    rw [← hp]
    decide +kernel
  have hskipped : (p.medium.loadSkipped Qt.compact plainCipher toyAddress).find 1 = none := by
    rw [← hp]
    decide +kernel
  obtain ⟨key, hloaded, hiteration⟩ := Option.map_eq_some_iff.mp hkey
  have hfirst : p.medium.Outstanding toyOrigin toyAddress 1 := by
    unfold GroupDisk.Outstanding
    rw [hhistory.1, hhistory.2]
    decide
  have hheld := (hlost hjob toyAddress key hloaded 1 hfirst).1 (by omega)
  rw [hskipped] at hheld
  cases hheld

end XYChat.Client
