import Mathlib.Data.UInt
import Mathlib.Logic.Function.Iterate
import XYChat.Lib.Machine
import XYChat.Common.GroupRatchet

/-!
# The group ratchet under any delivery

A receiver takes the messages of one sender key in whatever order the network
gives them, with forgeries in between. Its state is always the distributed chain
key some steps on, with the message keys of iterations it has passed over; what
it returns is what the sender encrypted, once each.
-/

namespace XYChat.GroupE2eeCrypto

open XYChat.Lib

/-! ## Keys of the chain -/

variable (crypto : Crypto)

/-- The chain key `n` ratchet steps on. -/
def chainAt (chainKey : Bytes) (n : Nat) : Bytes := (ratchetChainKey crypto)^[n] chainKey

/-- The message key of iteration `k` of a chain key distributed at iteration
`i`. -/
def stepKey (chainKey : Bytes) (i k : Int) : Bytes :=
  deriveMessageKey crypto (chainAt crypto chainKey (k - i).toNat) k

/-- The sizes of what OpenSSL returns. -/
structure Sized : Prop where
  hkdf : ∀ key salt info, (crypto.hkdf key salt info).length = 32
  sealed : ∀ key iv plaintext, E2eeCrypto.gcmTagSize ≤ (crypto.gcmSeal key iv plaintext).length
  signature : ∀ key message, (crypto.ed25519Sign key message).length = ed25519SigSize

variable {crypto} {chainKey : Bytes} {i : Int}

theorem ratchetChainKey_length (hs : Sized crypto) (h : chainKey.length = chainKeySize) :
    (ratchetChainKey crypto chainKey).length = chainKeySize := by
  rw [ratchetChainKey, if_pos h]
  exact hs.hkdf _ _ _

theorem chainAt_length (hs : Sized crypto) (h : chainKey.length = chainKeySize) (n : Nat) :
    (chainAt crypto chainKey n).length = chainKeySize := by
  induction n with
  | zero => exact h
  | succ n ih =>
      unfold chainAt at ih ⊢
      rw [Function.iterate_succ_apply']
      exact ratchetChainKey_length hs ih

/-- One more step. -/
theorem ratchet_chainAt {lo : Int} (hlo : i ≤ lo) :
    ratchetChainKey crypto (chainAt crypto chainKey (lo - i).toNat) =
      chainAt crypto chainKey (lo + 1 - i).toNat := by
  have hsucc : (lo + 1 - i).toNat = (lo - i).toNat + 1 := by omega
  rw [hsucc]
  exact (Function.iterate_succ_apply' _ _ _).symm

theorem stepKey_length (hs : Sized crypto) (h : chainKey.length = chainKeySize) {k : Int}
    (hk : 0 ≤ k) : (stepKey crypto chainKey i k).length = 32 := by
  unfold stepKey deriveMessageKey
  rw [if_pos ⟨chainAt_length hs h _, hk⟩]
  exact hs.hkdf _ _ _

private theorem ne_nil_of_length {bytes : Bytes} (h : bytes.length = 32) : bytes ≠ [] := by
  rintro rfl
  cases h

/-- The iterations strictly between two. -/
def between (lo hi : Int) : List Int :=
  (List.range (hi - lo - 1).toNat).map fun j : Nat => lo + 1 + (j : Int)

theorem mem_between {lo hi k : Int} : k ∈ between lo hi ↔ lo < k ∧ k < hi := by
  unfold between
  simp only [List.mem_map, List.mem_range]
  constructor
  · rintro ⟨j, hj, rfl⟩
    omega
  · intro h
    exact ⟨(k - lo - 1).toNat, by omega, by omega⟩

theorem between_succ {lo hi : Int} (h : lo + 1 < hi) :
    between lo hi = (lo + 1) :: between (lo + 1) hi := by
  unfold between
  have hlength : (hi - lo - 1).toNat = (hi - (lo + 1) - 1).toNat + 1 := by omega
  rw [hlength, List.range_succ_eq_map, List.map_cons, List.map_map]
  refine congrArg₂ _ (by simp) (List.map_congr_left fun j _ => ?_)
  simp only [Function.comp_apply, Nat.succ_eq_add_one, Nat.cast_add, Nat.cast_one]
  omega

theorem between_eq_nil {lo hi : Int} (h : hi ≤ lo + 1) : between lo hi = [] := by
  unfold between
  have hzero : (hi - lo - 1).toNat = 0 := by omega
  rw [hzero]
  rfl

/-- **The loop.** From iteration `lo` it reaches the chain key of `lo + steps`,
and puts the keys of the iterations in between behind those of `pending`. -/
theorem ratchetTo_keep (hs : Sized crypto) (hkey : chainKey.length = chainKeySize) (hi : 0 ≤ i)
    (steps : Nat) {lo : Int} (hlo : i ≤ lo) {pending : SkippedKeys}
    (hpending : ∀ e ∈ pending.entries, e.1 ≤ lo) :
    ∃ pending', ratchetTo crypto true steps (chainAt crypto chainKey (lo - i).toNat) lo pending =
        some (chainAt crypto chainKey (lo + steps - i).toNat, pending') ∧
      pending'.entries = pending.entries ++
        (between lo (lo + steps)).map fun k => (k, stepKey crypto chainKey i k) := by
  induction steps generalizing lo pending with
  | zero =>
      refine ⟨pending, ?_, ?_⟩
      · rw [ratchetTo, Nat.cast_zero, Int.add_zero]
      · rw [between_eq_nil (by omega), List.map_nil, List.append_nil]
  | succ steps ih =>
      have hend : lo + ((steps + 1 : Nat) : Int) = lo + 1 + steps := by
        rw [Nat.cast_add, Nat.cast_one]
        omega
      have hnext : ratchetChainKey crypto (chainAt crypto chainKey (lo - i).toNat) ≠ [] :=
        ne_nil_of_length (ratchetChainKey_length hs (chainAt_length hs hkey _))
      have hskipped : stepKey crypto chainKey i (lo + 1) ≠ [] :=
        ne_nil_of_length (stepKey_length hs hkey (by omega))
      rw [hend]
      unfold ratchetTo
      dsimp only
      rw [if_neg hnext, ratchet_chainAt hlo]
      by_cases hlast : steps = 0
      · subst hlast
        rw [if_neg (by simp)]
        obtain ⟨pending', hrun, hentries⟩ := @ih (lo + 1) (by omega) pending
          (fun e he => (hpending e he).trans (by omega))
        refine ⟨pending', hrun, ?_⟩
        rw [hentries, between_eq_nil (by simp), between_eq_nil (by simp)]
      · rw [if_pos ⟨hlast, rfl⟩]
        have hderive : deriveMessageKey crypto (chainAt crypto chainKey (lo + 1 - i).toNat) (lo + 1)
            = stepKey crypto chainKey i (lo + 1) := rfl
        rw [hderive, if_neg hskipped]
        have hinsert := IntMap.entries_insert_of_lt (m := pending) (k := lo + 1)
          (v := stepKey crypto chainKey i (lo + 1)) (fun e he => by have := hpending e he; omega)
        obtain ⟨pending', hrun, hentries⟩ := @ih (lo + 1) (by omega)
          (pending.insert (lo + 1) (stepKey crypto chainKey i (lo + 1)))
          (fun e he => by
            rw [hinsert] at he
            rcases List.mem_append.mp he with hold | hnew
            · have := hpending e hold
              omega
            · rw [List.mem_singleton.mp hnew])
        refine ⟨pending', hrun, ?_⟩
        have hlonger : lo + 1 < lo + 1 + steps := by omega
        rw [hentries, hinsert, between_succ hlonger, List.map_cons, List.append_assoc]
        rfl

/-! ## Deliveries -/

/-- The skipped keys a receiver holds. -/
def Receiver.keys (r : Receiver) : SkippedKeys := r.skippedKeys.getD .empty

/-- A receiver and its history: the plaintexts it has returned, by iteration, and
the iterations whose keys were evicted. -/
structure Delivered where
  receiver : Receiver
  outputs : List (Int × Bytes) := []
  evicted : List Int := []

/-- The keys held before and those passed over, less the youngest
`maxSkippedMessageKeys`. -/
def evictedBy (r r' : Receiver) : List Int :=
  let held := r.keys.keys ++ between r.iteration r'.iteration
  held.take (held.length - maxSkippedMessageKeys)

/-- Hand the receiver a message. -/
def deliver (crypto : Crypto) (publicSigningKey : Bytes) (s : Delivered) (msg : EncryptedMessage) :
    Delivered :=
  let result := decryptMessage crypto publicSigningKey s.receiver msg
  { receiver := result.2
    outputs := if result.1 = [] then s.outputs else s.outputs ++ [(msg.iteration, result.1)]
    evicted := s.evicted ++ evictedBy s.receiver result.2 }

/-- A receiver that starts from a distributed chain key with no skipped keys. -/
def receiverOf (chainKey : Bytes) (i : Int) : Delivered where
  receiver := { chainKey, iteration := i, skippedKeys := some .empty }

def deliveryMachine (crypto : Crypto) (publicSigningKey chainKey : Bytes) (i : Int) :
    Machine Delivered EncryptedMessage where
  init := fun s => s = receiverOf chainKey i
  step := deliver crypto publicSigningKey

/-- The state of a receiver of the chain key distributed at iteration `i`. -/
structure RatchetInvariant (crypto : Crypto) (chainKey : Bytes) (i : Int) (s : Delivered) :
    Prop where
  held : s.receiver.skippedKeys = some s.receiver.keys
  ahead : i ≤ s.receiver.iteration
  chain : s.receiver.chainKey = chainAt crypto chainKey (s.receiver.iteration - i).toNat
  skipped : ∀ k key, (k, key) ∈ s.receiver.keys.entries →
    i < k ∧ k < s.receiver.iteration ∧ key = stepKey crypto chainKey i k
  once : ∀ k plaintext, (k, plaintext) ∈ s.outputs → k ∉ s.receiver.keys.keys
  capacity : s.receiver.keys.size ≤ maxSkippedMessageKeys
  -- the two that carry the induction
  returned : ∀ k plaintext, (k, plaintext) ∈ s.outputs → i < k ∧ k ≤ s.receiver.iteration
  kept : ∀ k, i < k → k ≤ s.receiver.iteration →
    (∃ plaintext, (k, plaintext) ∈ s.outputs) ∨ k ∈ s.evicted ∨ k ∈ s.receiver.keys.keys

/-- What a message that `decryptMessage` does not refuse at once looks like. -/
structure EncryptedMessage.WellSized (msg : EncryptedMessage) : Prop where
  valid : msg.valid = true
  iv : msg.iv.length = E2eeCrypto.gcmIvSize
  ciphertext : E2eeCrypto.gcmTagSize ≤ msg.ciphertext.length
  signature : msg.signature.length = ed25519SigSize
  iteration : 0 < msg.iteration

section step

variable {publicSigningKey : Bytes} {s : Delivered} {msg : EncryptedMessage}

theorem RatchetInvariant.start : RatchetInvariant crypto chainKey i (receiverOf chainKey i) where
  held := rfl
  ahead := Int.le_refl i
  chain := by simp [receiverOf, chainAt]
  skipped := by simp [receiverOf, Receiver.keys, IntMap.empty]
  once := by simp [receiverOf]
  capacity := Nat.zero_le _
  returned := by simp [receiverOf]
  kept := by
    intro k hlo hhi
    exact absurd hhi (by simpa [receiverOf] using hlo)

/-- The receiver after a message of iteration `k` beyond its own. -/
def Receiver.after (crypto : Crypto) (chainKey : Bytes) (i : Int) (r : Receiver) (k : Int)
    (pending : SkippedKeys) : Receiver where
  chainKey := chainAt crypto chainKey (k - i).toNat
  iteration := k
  skippedKeys := some (commitSkipped pending r.keys)

/-- Beyond its own iteration the receiver reaches the key of the message's. -/
private theorem decryptAhead_eq (publicSigningKey : Bytes) (hs : Sized crypto)
    (hkey : chainKey.length = chainKeySize) (hi : 0 ≤ i) (h : RatchetInvariant crypto chainKey i s)
    (hahead : s.receiver.iteration < msg.iteration)
    (hnear : msg.iteration - s.receiver.iteration ≤ maxRatchetSteps) :
    ∃ pending : SkippedKeys,
      pending.entries = (between s.receiver.iteration msg.iteration).map
        (fun k => (k, stepKey crypto chainKey i k)) ∧
      decryptAhead crypto publicSigningKey s.receiver msg =
        if openMessage crypto publicSigningKey (stepKey crypto chainKey i msg.iteration) msg = []
        then ([], s.receiver)
        else (openMessage crypto publicSigningKey (stepKey crypto chainKey i msg.iteration) msg,
          s.receiver.after crypto chainKey i msg.iteration pending) := by
  have hempty : ∀ e ∈ (IntMap.empty : SkippedKeys).entries, e.1 ≤ s.receiver.iteration := by
    simp [IntMap.empty]
  obtain ⟨pending, hrun, hentries⟩ := ratchetTo_keep hs hkey hi
    (msg.iteration - s.receiver.iteration).toNat h.ahead hempty
  have hend : s.receiver.iteration + ((msg.iteration - s.receiver.iteration).toNat : Int)
      = msg.iteration := by
    omega
  have hmessageKey : stepKey crypto chainKey i msg.iteration ≠ [] :=
    ne_nil_of_length (stepKey_length hs hkey (by have := h.ahead; omega))
  rw [hend] at hrun hentries
  refine ⟨pending, hentries, ?_⟩
  unfold decryptAhead
  rw [if_neg (by omega), if_neg (by omega), h.chain, h.held]
  rw [Option.isSome_some, hrun]
  dsimp only
  have hderive : deriveMessageKey crypto (chainAt crypto chainKey (msg.iteration - i).toNat)
      msg.iteration = stepKey crypto chainKey i msg.iteration := rfl
  rw [hderive, if_neg hmessageKey]
  rfl

/-- **Inversion.** A delivery is refused without a trace, or the message opens
under the skipped key of its iteration, or it is ahead and opens under the key of
its iteration. -/
theorem decryptMessage_cases (publicSigningKey : Bytes) (msg : EncryptedMessage)
    (hs : Sized crypto) (hkey : chainKey.length = chainKeySize) (hi : 0 ≤ i)
    (h : RatchetInvariant crypto chainKey i s) :
    let plaintext := openMessage crypto publicSigningKey (stepKey crypto chainKey i msg.iteration) msg
    decryptMessage crypto publicSigningKey s.receiver msg = ([], s.receiver) ∨
      (plaintext ≠ [] ∧ msg.WellSized ∧ msg.iteration ∈ s.receiver.keys.keys ∧
        decryptMessage crypto publicSigningKey s.receiver msg =
          (plaintext, { s.receiver with
            skippedKeys := some (s.receiver.keys.erase msg.iteration) })) ∨
      (plaintext ≠ [] ∧ msg.WellSized ∧ s.receiver.iteration < msg.iteration ∧
        ∃ pending : SkippedKeys,
          pending.entries = (between s.receiver.iteration msg.iteration).map
            (fun k => (k, stepKey crypto chainKey i k)) ∧
          decryptMessage crypto publicSigningKey s.receiver msg =
            (plaintext, s.receiver.after crypto chainKey i msg.iteration pending)) := by
  dsimp only
  unfold decryptMessage
  split
  · exact .inl rfl
  rename_i hsized
  simp only [not_or, not_lt, Bool.not_eq_false, not_not, not_le] at hsized
  obtain ⟨hvalid, hiv, hct, hsig, hiteration, _, _⟩ := hsized
  have hwell : msg.WellSized := ⟨hvalid, hiv, hct, hsig, hiteration⟩
  rw [h.held, Option.bind_some]
  cases hfind : s.receiver.keys.find msg.iteration with
  | some cachedKey =>
      have hmem := IntMap.mem_of_find hfind
      have hcached := (h.skipped _ _ hmem).2.2
      subst hcached
      dsimp only
      by_cases hopen :
          openMessage crypto publicSigningKey (stepKey crypto chainKey i msg.iteration) msg = []
      · rw [if_pos hopen]
        exact .inl rfl
      · rw [if_neg hopen]
        exact .inr (.inl ⟨hopen, hwell, List.mem_map_of_mem hmem, rfl⟩)
  | none =>
      dsimp only
      by_cases hahead : s.receiver.iteration < msg.iteration
      · by_cases hnear : msg.iteration - s.receiver.iteration ≤ maxRatchetSteps
        · obtain ⟨pending, hentries, hrun⟩ :=
            decryptAhead_eq publicSigningKey hs hkey hi h hahead hnear
          rw [hrun]
          by_cases hopen :
              openMessage crypto publicSigningKey (stepKey crypto chainKey i msg.iteration) msg = []
          · rw [if_pos hopen]
            exact .inl rfl
          · rw [if_neg hopen]
            exact .inr (.inr ⟨hopen, hwell, hahead, pending, hentries, rfl⟩)
        · left
          unfold decryptAhead
          rw [if_neg (by omega), if_pos (by omega)]
      · left
        unfold decryptAhead
        rw [if_pos (by omega)]

/-- The skipped keys after a message ahead, before the oldest are dropped. -/
private theorem entries_commit {pending held : SkippedKeys}
    (habove : ∀ e ∈ pending.entries, ∀ e' ∈ held.entries, e'.1 < e.1) :
    (pending.entries.foldl (fun m e => m.insert e.1 e.2) held).entries =
      held.entries ++ pending.entries := by
  have hsorted := pending.sorted
  generalize pending.entries = l at habove hsorted
  induction l generalizing held with
  | nil => simp
  | cons e l ih =>
      obtain ⟨hhead, htail⟩ := List.pairwise_cons.mp hsorted
      have hinsert := IntMap.entries_insert_of_lt (v := e.2) (habove e List.mem_cons_self)
      rw [List.foldl_cons, ih ?_ htail, hinsert, List.append_assoc]
      · rfl
      · intro e' he' e'' he''
        rw [hinsert] at he''
        rcases List.mem_append.mp he'' with hold | hnew
        · exact habove e' (List.mem_cons_of_mem _ he') e'' hold
        · rw [List.mem_singleton.mp hnew]
          exact hhead e' he'

/-- A call that does not advance evicts nothing. -/
theorem evictedBy_same {r : Receiver} (q : Receiver)
    (h : r.keys.size ≤ maxSkippedMessageKeys) (hsame : q.iteration = r.iteration) :
    evictedBy r q = [] := by
  unfold evictedBy
  rw [hsame, between_eq_nil (by omega), List.append_nil]
  have hzero : r.keys.keys.length - maxSkippedMessageKeys = 0 := by
    have hlength : r.keys.keys.length = r.keys.size := List.length_map _
    omega
  dsimp only
  rw [hzero, List.take_zero]

/-- A refused delivery. -/
theorem RatchetInvariant.refused (h : RatchetInvariant crypto chainKey i s)
    (hrun : decryptMessage crypto publicSigningKey s.receiver msg = ([], s.receiver)) :
    deliver crypto publicSigningKey s msg = s := by
  unfold deliver
  rw [hrun]
  dsimp only
  rw [if_pos rfl, evictedBy_same _ h.capacity rfl, List.append_nil]

/-- A message opened under a skipped key. -/
private theorem RatchetInvariant.cached {plaintext : Bytes}
    (h : RatchetInvariant crypto chainKey i s) (hplaintext : plaintext ≠ [])
    (hmem : msg.iteration ∈ s.receiver.keys.keys)
    (hrun : decryptMessage crypto publicSigningKey s.receiver msg =
      (plaintext, { s.receiver with skippedKeys := some (s.receiver.keys.erase msg.iteration) })) :
    RatchetInvariant crypto chainKey i (deliver crypto publicSigningKey s msg) := by
  unfold deliver
  rw [hrun]
  dsimp only
  rw [if_neg hplaintext, evictedBy_same _ h.capacity (by rfl), List.append_nil]
  obtain ⟨e, he, heq⟩ := List.mem_map.mp hmem
  have hrange := h.skipped e.1 e.2 he
  rw [heq] at hrange
  refine ⟨rfl, h.ahead, h.chain, ?_, ?_, ?_, ?_, ?_⟩
  · intro k key hk
    exact h.skipped k key (IntMap.mem_erase.mp hk).1
  · intro k out hout hk
    obtain ⟨hold, hne⟩ := IntMap.mem_keys_erase.mp hk
    rcases List.mem_append.mp hout with hout | hout
    · exact h.once k out hout hold
    · rw [List.mem_singleton, Prod.mk.injEq] at hout
      exact hne hout.1
  · exact (IntMap.size_erase_le).trans h.capacity
  · intro k out hout
    rcases List.mem_append.mp hout with hout | hout
    · exact h.returned k out hout
    · rw [List.mem_singleton, Prod.mk.injEq] at hout
      rw [hout.1]
      exact ⟨hrange.1, hrange.2.1.le⟩
  · intro k hlo hhi
    by_cases hk : k = msg.iteration
    · exact .inl ⟨plaintext, List.mem_append.mpr (.inr (by rw [hk]; exact List.mem_cons_self))⟩
    · rcases h.kept k hlo hhi with ⟨out, hout⟩ | hevicted | hheld
      · exact .inl ⟨out, List.mem_append.mpr (.inl hout)⟩
      · exact .inr (.inl hevicted)
      · exact .inr (.inr (IntMap.mem_keys_erase.mpr ⟨hheld, hk⟩))

/-- A message opened beyond the receiver's iteration. -/
private theorem RatchetInvariant.opened {plaintext : Bytes} {pending : SkippedKeys}
    (h : RatchetInvariant crypto chainKey i s) (hplaintext : plaintext ≠ [])
    (hahead : s.receiver.iteration < msg.iteration)
    (hentries : pending.entries = (between s.receiver.iteration msg.iteration).map
      (fun k => (k, stepKey crypto chainKey i k)))
    (hrun : decryptMessage crypto publicSigningKey s.receiver msg =
      (plaintext, s.receiver.after crypto chainKey i msg.iteration pending)) :
    RatchetInvariant crypto chainKey i (deliver crypto publicSigningKey s msg) := by
  have hi := h.ahead
  -- the keys before the oldest are dropped
  have hmerged : (pending.entries.foldl (fun m e => m.insert e.1 e.2) s.receiver.keys).entries
      = s.receiver.keys.entries ++ pending.entries := by
    refine entries_commit fun e he e' he' => ?_
    rw [hentries] at he
    obtain ⟨k, hk, rfl⟩ := List.mem_map.mp he
    have hbelow := (h.skipped e'.1 e'.2 he').2.1
    have habove := (mem_between.mp hk).1
    dsimp only
    omega
  have hmergedKeys : (pending.entries.foldl (fun m e => m.insert e.1 e.2) s.receiver.keys).keys
      = s.receiver.keys.keys ++ between s.receiver.iteration msg.iteration := by
    show List.map _ _ = _
    rw [hmerged, List.map_append, hentries, List.map_map]
    refine congrArg₂ _ rfl ?_
    rw [show ((fun e : Int × Bytes => e.1) ∘ fun k => (k, stepKey crypto chainKey i k)) = id from rfl,
      List.map_id]
  have hevicted : evictedBy s.receiver (s.receiver.after crypto chainKey i msg.iteration pending)
      = (pending.entries.foldl (fun m e => m.insert e.1 e.2) s.receiver.keys).removedKeys
          maxSkippedMessageKeys := by
    unfold evictedBy IntMap.removedKeys IntMap.size
    rw [hmergedKeys, hmerged, hentries]
    simp [Receiver.after, IntMap.keys]
  have hentry : ∀ k key, (k, key) ∈ (commitSkipped pending s.receiver.keys).entries →
      i < k ∧ k < msg.iteration ∧ key = stepKey crypto chainKey i k := by
    intro k key hk
    have hk := IntMap.mem_of_mem_shrink hk
    rw [hmerged, hentries] at hk
    rcases List.mem_append.mp hk with hold | hnew
    · obtain ⟨hlo, hhi, hkey⟩ := h.skipped k key hold
      exact ⟨hlo, by omega, hkey⟩
    · obtain ⟨k', hk', heq⟩ := List.mem_map.mp hnew
      rw [Prod.mk.injEq] at heq
      obtain ⟨rfl, rfl⟩ := heq
      have hrange := mem_between.mp hk'
      exact ⟨by omega, hrange.2, rfl⟩
  have hheld : ∀ k, k ∈ (commitSkipped pending s.receiver.keys).keys →
      k ∈ s.receiver.keys.keys ∨ s.receiver.iteration < k := by
    intro k hk
    obtain ⟨e, he, rfl⟩ := List.mem_map.mp hk
    have he := IntMap.mem_of_mem_shrink he
    rw [hmerged] at he
    rcases List.mem_append.mp he with hold | hnew
    · exact .inl (List.mem_map_of_mem hold)
    · rw [hentries] at hnew
      obtain ⟨k', hk', rfl⟩ := List.mem_map.mp hnew
      exact .inr (mem_between.mp hk').1
  unfold deliver
  rw [hrun]
  dsimp only
  rw [if_neg hplaintext, hevicted]
  refine ⟨rfl, by show i ≤ msg.iteration; omega, rfl, hentry, ?_, IntMap.size_shrink_le _, ?_, ?_⟩
  · intro k out hout hk
    rcases List.mem_append.mp hout with hout | hout
    · rcases hheld k hk with hold | habove
      · exact h.once k out hout hold
      · have := (h.returned k out hout).2
        omega
    · rw [List.mem_singleton, Prod.mk.injEq] at hout
      obtain ⟨e, he, hek⟩ := List.mem_map.mp hk
      have := (hentry e.1 e.2 he).2.1
      omega
  · intro k out hout
    show i < k ∧ k ≤ msg.iteration
    rcases List.mem_append.mp hout with hout | hout
    · have := h.returned k out hout
      omega
    · rw [List.mem_singleton, Prod.mk.injEq] at hout
      omega
  · intro k hlo hhi
    have hhi : k ≤ msg.iteration := hhi
    by_cases hk : k = msg.iteration
    · exact .inl ⟨plaintext, List.mem_append.mpr (.inr (by rw [hk]; exact List.mem_cons_self))⟩
    -- an older iteration is accounted for, a passed one is among the keys
    have hcases : (∃ out, (k, out) ∈ s.outputs) ∨ k ∈ s.evicted ∨
        k ∈ (pending.entries.foldl (fun m e => m.insert e.1 e.2) s.receiver.keys).keys := by
      rw [hmergedKeys]
      by_cases hold : k ≤ s.receiver.iteration
      · rcases h.kept k hlo hold with hout | hevicted | hkeys
        · exact .inl hout
        · exact .inr (.inl hevicted)
        · exact .inr (.inr (List.mem_append.mpr (.inl hkeys)))
      · exact .inr (.inr (List.mem_append.mpr (.inr (mem_between.mpr (by omega)))))
    rcases hcases with ⟨out, hout⟩ | hevicted | hkeys
    · exact .inl ⟨out, List.mem_append.mpr (.inl hout)⟩
    · exact .inr (.inl (List.mem_append.mpr (.inl hevicted)))
    · rcases IntMap.mem_keys_shrink maxSkippedMessageKeys hkeys with hremoved | hstays
      · exact .inr (.inl (List.mem_append.mpr (.inr hremoved)))
      · exact .inr (.inr hstays)

/-- **Step lemma.** Whatever is delivered, the invariant stays. -/
theorem deliver_invariant (hs : Sized crypto) (hkey : chainKey.length = chainKeySize) (hi : 0 ≤ i)
    (h : RatchetInvariant crypto chainKey i s) :
    RatchetInvariant crypto chainKey i (deliver crypto publicSigningKey s msg) := by
  rcases decryptMessage_cases publicSigningKey msg hs hkey hi h with
    hrefused | ⟨hopen, _, hmem, hrun⟩ | ⟨hopen, _, hahead, pending, hentries, hrun⟩
  · rw [h.refused hrefused]
    exact h
  · exact h.cached hopen hmem hrun
  · exact h.opened hopen hahead hentries hrun

end step

/-! ## What the sender sends -/

/-- Encrypt plaintexts one after the other, each under the iv drawn for it: the
key left, and each plaintext with its message. -/
def encryptAll (crypto : Crypto) : SenderKey → List (Bytes × Bytes) →
    SenderKey × List (Bytes × EncryptedMessage)
  | key, [] => (key, [])
  | key, (iv, plaintext) :: rest =>
      let sent := encryptMessage crypto iv key plaintext
      let more := encryptAll crypto sent.1 rest
      (more.1, (plaintext, sent.2) :: more.2)

theorem encryptAll_append (key : SenderKey) (xs ys : List (Bytes × Bytes)) :
    (encryptAll crypto key (xs ++ ys)).2 =
      (encryptAll crypto key xs).2 ++ (encryptAll crypto (encryptAll crypto key xs).1 ys).2 := by
  induction xs generalizing key with
  | nil => rfl
  | cons x xs ih =>
      exact congrArg (List.cons _) (ih _)

/-- A sender key as `generateSenderKey` makes them. -/
structure SenderKey.Usable (key : SenderKey) : Prop where
  valid : key.valid = true
  chainKey : key.chainKey.length = chainKeySize
  publicSigningKey : key.publicSigningKey.length = ed25519KeySize
  privateSigningKey : key.privateSigningKey.length = ed25519KeySize
  iteration : 0 ≤ key.iteration

/-- The message is the encryption of the plaintext at an iteration after the
key's. -/
structure Seals (crypto : Crypto) (key : SenderKey) (x : Bytes × EncryptedMessage) : Prop where
  plaintext : x.1 ≠ []
  wellSized : x.2.WellSized
  later : key.iteration < x.2.iteration
  ciphertext : x.2.ciphertext =
    crypto.gcmSeal (stepKey crypto key.chainKey key.iteration x.2.iteration) x.2.iv x.1
  signature : x.2.signature =
    crypto.ed25519Sign key.privateSigningKey (x.2.iv ++ x.2.ciphertext)

/-- The key after one message. -/
def SenderKey.next (crypto : Crypto) (key : SenderKey) : SenderKey :=
  { key with
    chainKey := ratchetChainKey crypto key.chainKey
    iteration := key.iteration + 1 }

theorem SenderKey.Usable.next {key : SenderKey} (hs : Sized crypto) (h : key.Usable) :
    (key.next crypto).Usable :=
  ⟨h.valid, ratchetChainKey_length hs h.chainKey, h.publicSigningKey, h.privateSigningKey, by
    have := h.iteration
    show 0 ≤ key.iteration + 1
    omega⟩

theorem encryptMessage_spec {key : SenderKey} {iv plaintext : Bytes} (hs : Sized crypto)
    (h : key.Usable) (hiv : iv.length = E2eeCrypto.gcmIvSize) (hplaintext : plaintext ≠ []) :
    ∃ m, encryptMessage crypto iv key plaintext = (key.next crypto, m) ∧
      m.iteration = key.iteration + 1 ∧ Seals crypto key (plaintext, m) := by
  have hiteration := h.iteration
  have hstep : deriveMessageKey crypto (ratchetChainKey crypto key.chainKey) (key.iteration + 1)
      = stepKey crypto key.chainKey key.iteration (key.iteration + 1) := by
    unfold stepKey
    rw [show (key.iteration + 1 - key.iteration).toNat = 1 by omega]
    rfl
  have hlength := stepKey_length (i := key.iteration) (k := key.iteration + 1) hs h.chainKey
    (by omega)
  obtain ⟨messageKey, hmessageKey⟩ :
      ∃ messageKey, stepKey crypto key.chainKey key.iteration (key.iteration + 1) = messageKey :=
    ⟨_, rfl⟩
  rw [hmessageKey] at hstep hlength
  obtain ⟨ciphertext, hciphertext⟩ :
      ∃ ciphertext, crypto.gcmSeal messageKey iv plaintext = ciphertext := ⟨_, rfl⟩
  have hsealed := hs.sealed messageKey iv plaintext
  rw [hciphertext] at hsealed
  have hnonempty : iv ++ ciphertext ≠ [] := by
    intro hnil
    rw [(List.append_eq_nil_iff.mp hnil).1] at hiv
    cases hiv
  have hsignature : sign crypto key.privateSigningKey (iv ++ ciphertext) =
      crypto.ed25519Sign key.privateSigningKey (iv ++ ciphertext) := by
    rw [sign, if_pos ⟨h.privateSigningKey, hnonempty⟩]
  have hsize := hs.signature key.privateSigningKey (iv ++ ciphertext)
  have hsigned : crypto.ed25519Sign key.privateSigningKey (iv ++ ciphertext) ≠ [] := by
    intro hnil
    rw [hnil] at hsize
    cases hsize
  refine ⟨{ keyId := key.keyId, iteration := key.iteration + 1, iv, ciphertext,
            signature := crypto.ed25519Sign key.privateSigningKey (iv ++ ciphertext),
            valid := true }, ?_, rfl, hplaintext, ⟨rfl, hiv, hsealed, hsize, ?_⟩, ?_, ?_, rfl⟩
  · unfold encryptMessage
    rw [if_neg (by simp [h.valid, hplaintext])]
    dsimp only
    rw [if_neg (ne_nil_of_length (ratchetChainKey_length hs h.chainKey)), hstep,
      if_neg (ne_nil_of_length hlength), E2eeCrypto.aesGcmEncrypt, if_pos hlength, hciphertext]
    dsimp only
    rw [hsignature, if_neg hsigned]
    rfl
  · show 0 < key.iteration + 1
    omega
  · show key.iteration < key.iteration + 1
    omega
  · show ciphertext = crypto.gcmSeal (stepKey crypto key.chainKey key.iteration (key.iteration + 1))
      iv plaintext
    rw [hmessageKey, hciphertext]

/-- A message of the next key is one of the key. -/
theorem Seals.of_next {key : SenderKey} {x : Bytes × EncryptedMessage}
    (h : Seals crypto (key.next crypto) x) : Seals crypto key x := by
  have hlater : key.iteration + 1 < x.2.iteration := h.later
  refine ⟨h.plaintext, h.wellSized, by omega, ?_, h.signature⟩
  rw [h.ciphertext]
  unfold stepKey chainAt SenderKey.next
  have hsteps : (x.2.iteration - key.iteration).toNat
      = (x.2.iteration - (key.iteration + 1)).toNat + 1 := by
    omega
  rw [hsteps, Function.iterate_succ_apply]

/-- What a sender run leaves, and what it sends, in ascending iterations. -/
theorem encryptAll_spec {key : SenderKey} {xs : List (Bytes × Bytes)} (hs : Sized crypto)
    (h : key.Usable) (hxs : ∀ x ∈ xs, x.1.length = E2eeCrypto.gcmIvSize ∧ x.2 ≠ []) :
    (encryptAll crypto key xs).1.Usable ∧
      (encryptAll crypto key xs).1.publicSigningKey = key.publicSigningKey ∧
      (encryptAll crypto key xs).1.privateSigningKey = key.privateSigningKey ∧
      (∀ x ∈ (encryptAll crypto key xs).2, Seals crypto key x ∧
        x.2.iteration ≤ (encryptAll crypto key xs).1.iteration) ∧
      (encryptAll crypto key xs).2.Pairwise (fun a b => a.2.iteration < b.2.iteration) ∧
      key.iteration ≤ (encryptAll crypto key xs).1.iteration := by
  induction xs generalizing key with
  | nil => exact ⟨h, rfl, rfl, by simp [encryptAll], List.Pairwise.nil, Int.le_refl _⟩
  | cons x xs ih =>
      obtain ⟨iv, plaintext⟩ := x
      obtain ⟨hiv, hplaintext⟩ := hxs (iv, plaintext) List.mem_cons_self
      obtain ⟨m, hsent, hm, hseals⟩ := encryptMessage_spec hs h hiv hplaintext
      obtain ⟨husable, hpublic, hprivate, hrest, hsorted, hle⟩ :=
        ih (h.next hs) fun x hx => hxs x (List.mem_cons_of_mem _ hx)
      have hrun : encryptAll crypto key ((iv, plaintext) :: xs) =
          ((encryptAll crypto (key.next crypto) xs).1,
            (plaintext, m) :: (encryptAll crypto (key.next crypto) xs).2) := by
        rw [encryptAll, hsent]
      have hle : key.iteration + 1 ≤ (encryptAll crypto (key.next crypto) xs).1.iteration := hle
      rw [hrun]
      refine ⟨husable, hpublic, hprivate, ?_, List.pairwise_cons.mpr ⟨?_, hsorted⟩,
        (show key.iteration ≤ key.iteration + 1 by omega).trans hle⟩
      · intro x hx
        rcases List.mem_cons.mp hx with rfl | hx
        · exact ⟨hseals, by dsimp only; omega⟩
        · exact ⟨(hrest x hx).1.of_next, (hrest x hx).2⟩
      · intro x hx
        have hlater : key.iteration + 1 < x.2.iteration := (hrest x hx).1.later
        show m.iteration < x.2.iteration
        omega

/-! ## The two together -/

/-- What the primitives promise for a sender's messages and the deliveries to one
receiver of the chain key distributed at iteration `i`: sizes, the round trips of
AES-GCM and Ed25519, that no delivered signature verifies but for an iv and
ciphertext the sender signed, and that a ciphertext of the sender does not
authenticate under the key of the other iteration it is delivered with. -/
structure Ideal (crypto : Crypto) (key : SenderKey) (sent : List (Bytes × EncryptedMessage))
    (chainKey : Bytes) (i : Int) (deliveries : List EncryptedMessage) : Prop extends
    Sized crypto where
  open_seal : ∀ messageKey iv plaintext,
    crypto.gcmOpen messageKey iv (crypto.gcmSeal messageKey iv plaintext) = some plaintext
  verify_sign : ∀ message, crypto.ed25519Verify key.publicSigningKey message
    (crypto.ed25519Sign key.privateSigningKey message) = true
  unforgeable : ∀ d ∈ deliveries,
    crypto.ed25519Verify key.publicSigningKey (d.iv ++ d.ciphertext) d.signature = true →
      ∃ x ∈ sent, x.2.iv ++ x.2.ciphertext = d.iv ++ d.ciphertext
  otherStep : ∀ d ∈ deliveries, ∀ x ∈ sent, d.iteration ≠ x.2.iteration →
    crypto.gcmOpen (stepKey crypto chainKey i d.iteration) x.2.iv x.2.ciphertext = none

/-- What opens is authentic and of the plaintext's ciphertext. -/
private theorem openMessage_ne_nil {publicSigningKey messageKey : Bytes} {msg : EncryptedMessage}
    (h : openMessage crypto publicSigningKey messageKey msg ≠ []) :
    crypto.ed25519Verify publicSigningKey (msg.iv ++ msg.ciphertext) msg.signature = true ∧
      crypto.gcmOpen messageKey msg.iv msg.ciphertext =
        some (openMessage crypto publicSigningKey messageKey msg) := by
  unfold openMessage at h ⊢
  dsimp only at h ⊢
  split at h
  · exact absurd rfl h
  rename_i hdecrypt
  split at h
  · exact absurd rfl h
  rename_i hverify
  rw [if_neg hdecrypt, if_neg hverify]
  refine ⟨?_, ?_⟩
  · simp only [verify, Bool.not_eq_true', Bool.not_eq_false, Bool.and_eq_true] at hverify
    exact hverify.2
  · unfold E2eeCrypto.aesGcmDecrypt at hdecrypt ⊢
    split at hdecrypt
    · rename_i hsizes
      rw [if_pos hsizes]
      cases hopen : crypto.gcmOpen messageKey msg.iv msg.ciphertext with
      | none =>
          rw [hopen] at hdecrypt
          exact absurd rfl hdecrypt
      | some plaintext => rfl
    · exact absurd rfl hdecrypt

/-- **Authenticity.** What opens under the key of the iteration it is delivered
with is the plaintext the sender encrypted at that iteration. -/
theorem openMessage_authentic {key : SenderKey}
    {earlier later : List (Bytes × EncryptedMessage)} {deliveries : List EncryptedMessage}
    {msg : EncryptedMessage} {senderKey : SenderKey}
    (hideal : Ideal crypto senderKey (earlier ++ later) key.chainKey key.iteration deliveries)
    (hearlier : ∀ x ∈ earlier, x.2.WellSized ∧ x.2.iteration ≤ key.iteration)
    (hlater : ∀ x ∈ later, Seals crypto key x) (hmsg : msg ∈ deliveries) (hsized : msg.WellSized)
    (hiteration : key.iteration < msg.iteration)
    (hopen : openMessage crypto senderKey.publicSigningKey
      (stepKey crypto key.chainKey key.iteration msg.iteration) msg ≠ []) :
    ∃ x ∈ later, x.2.iteration = msg.iteration ∧
      x.1 = openMessage crypto senderKey.publicSigningKey
        (stepKey crypto key.chainKey key.iteration msg.iteration) msg := by
  obtain ⟨hverify, hgcm⟩ := openMessage_ne_nil hopen
  obtain ⟨x, hx, hsigned⟩ := hideal.unforgeable msg hmsg hverify
  have hxsized : x.2.WellSized := by
    rcases List.mem_append.mp hx with hx | hx
    · exact (hearlier x hx).1
    · exact (hlater x hx).wellSized
  obtain ⟨hiv, hct⟩ := List.append_inj hsigned (by rw [hxsized.iv, hsized.iv])
  rw [← hiv, ← hct] at hgcm
  have hsame : msg.iteration = x.2.iteration := by
    by_contra hne
    rw [hideal.otherStep msg hmsg x hx hne] at hgcm
    cases hgcm
  rcases List.mem_append.mp hx with hx | hx
  · have := (hearlier x hx).2
    omega
  · refine ⟨x, hx, hsame.symm, ?_⟩
    rw [(hlater x hx).ciphertext, ← hsame, hideal.open_seal, Option.some.injEq] at hgcm
    exact hgcm

/-- A message of the sender opens under the key of its iteration. -/
theorem openMessage_genuine {senderKey key : SenderKey} {sent : List (Bytes × EncryptedMessage)}
    {deliveries : List EncryptedMessage} {x : Bytes × EncryptedMessage}
    (hideal : Ideal crypto senderKey sent key.chainKey key.iteration deliveries)
    (husable : key.Usable) (hpublic : key.publicSigningKey = senderKey.publicSigningKey)
    (hprivate : key.privateSigningKey = senderKey.privateSigningKey) (hx : Seals crypto key x) :
    openMessage crypto senderKey.publicSigningKey
      (stepKey crypto key.chainKey key.iteration x.2.iteration) x.2 = x.1 := by
  have hiteration := husable.iteration
  have hlength := stepKey_length (i := key.iteration) (k := x.2.iteration) hideal.toSized
    husable.chainKey (by have := hx.later; omega)
  have hnonempty : x.2.iv ++ x.2.ciphertext ≠ [] := by
    intro hnil
    have hiv := hx.wellSized.iv
    rw [(List.append_eq_nil_iff.mp hnil).1] at hiv
    cases hiv
  have hdecrypt : E2eeCrypto.aesGcmDecrypt crypto
      (stepKey crypto key.chainKey key.iteration x.2.iteration) x.2.iv x.2.ciphertext = x.1 := by
    unfold E2eeCrypto.aesGcmDecrypt
    rw [if_pos ⟨hlength, hx.wellSized.iv, hx.wellSized.ciphertext⟩, hx.ciphertext, hideal.open_seal]
    rfl
  have hverify : verify crypto senderKey.publicSigningKey (x.2.iv ++ x.2.ciphertext) x.2.signature
      = true := by
    have hsize := husable.publicSigningKey
    rw [hpublic] at hsize
    unfold verify
    rw [hx.signature, hprivate, hideal.verify_sign, hsize, hideal.signature]
    simp [hnonempty]
  unfold openMessage
  dsimp only
  rw [hdecrypt, if_neg hx.plaintext, hverify]
  rfl

/-- **Progress.** A message of the sender that was not decrypted before is, when
it is not too far ahead or its key was not evicted. -/
theorem decryptMessage_genuine {publicSigningKey : Bytes} {s : Delivered} {key : SenderKey}
    {x : Bytes × EncryptedMessage} (hs : Sized crypto) (husable : key.Usable)
    (h : RatchetInvariant crypto key.chainKey key.iteration s) (hx : Seals crypto key x)
    (hopen : openMessage crypto publicSigningKey
      (stepKey crypto key.chainKey key.iteration x.2.iteration) x.2 = x.1)
    (hnew : ∀ plaintext, (x.2.iteration, plaintext) ∉ s.outputs)
    (hreach : 0 < x.2.iteration - s.receiver.iteration ∧
        x.2.iteration - s.receiver.iteration ≤ maxRatchetSteps ∨
      x.2.iteration ≤ s.receiver.iteration ∧ x.2.iteration ∉ s.evicted) :
    (decryptMessage crypto publicSigningKey s.receiver x.2).1 = x.1 := by
  have hlength : s.receiver.chainKey.length = chainKeySize := by
    rw [h.chain]
    exact chainAt_length hs husable.chainKey _
  have hiteration := husable.iteration
  have hahead := h.ahead
  have hsized := hx.wellSized
  unfold decryptMessage
  rw [if_neg (by
    simp only [not_or, not_lt, Bool.not_eq_false, not_not, not_le]
    exact ⟨hsized.valid, hsized.iv, hsized.ciphertext, hsized.signature, hsized.iteration, hlength,
      by omega⟩)]
  rw [h.held, Option.bind_some]
  cases hfind : s.receiver.keys.find x.2.iteration with
  | some cachedKey =>
      have hcached := (h.skipped _ _ (IntMap.mem_of_find hfind)).2.2
      subst hcached
      dsimp only
      rw [hopen, if_neg hx.plaintext]
  | none =>
      dsimp only
      rcases hreach with ⟨hpos, hnear⟩ | ⟨hbehind, hstays⟩
      · obtain ⟨pending, _, hrun⟩ := decryptAhead_eq publicSigningKey hs
          husable.chainKey hiteration h (show s.receiver.iteration < x.2.iteration by omega) hnear
        rw [hrun, hopen, if_neg hx.plaintext]
      · rcases h.kept _ hx.later hbehind with ⟨plaintext, hout⟩ | hevicted | hheld
        · exact absurd hout (hnew plaintext)
        · exact absurd hevicted hstays
        · exact absurd hheld (IntMap.find_eq_none.mp hfind)

/-- **Once.** An iteration whose message was decrypted yields nothing again. -/
theorem decryptMessage_again {publicSigningKey : Bytes} {s : Delivered}
    {msg : EncryptedMessage} {plaintext : Bytes} (h : RatchetInvariant crypto chainKey i s)
    (hout : (msg.iteration, plaintext) ∈ s.outputs) :
    (decryptMessage crypto publicSigningKey s.receiver msg).1 = [] := by
  unfold decryptMessage
  split
  · rfl
  · rw [h.held, Option.bind_some, IntMap.find_eq_none.mpr (h.once _ _ hout)]
    dsimp only
    unfold decryptAhead
    rw [if_pos (h.returned _ _ hout).2]

/-- The plaintexts returned are the sender's, each for its iteration. -/
def Genuine (sent : List (Bytes × EncryptedMessage)) (s : Delivered) : Prop :=
  ∀ out ∈ s.outputs, ∃ x ∈ sent, x.2.iteration = out.1 ∧ x.1 = out.2

/-- **Step lemma.** A delivery returns nothing or what the sender encrypted. -/
theorem deliver_genuine {key senderKey : SenderKey}
    {earlier later : List (Bytes × EncryptedMessage)} {deliveries : List EncryptedMessage}
    {msg : EncryptedMessage} {s : Delivered}
    (hideal : Ideal crypto senderKey (earlier ++ later) key.chainKey key.iteration deliveries)
    (husable : key.Usable)
    (hearlier : ∀ x ∈ earlier, x.2.WellSized ∧ x.2.iteration ≤ key.iteration)
    (hlater : ∀ x ∈ later, Seals crypto key x) (hmsg : msg ∈ deliveries)
    (h : RatchetInvariant crypto key.chainKey key.iteration s) (hgenuine : Genuine later s) :
    Genuine later (deliver crypto senderKey.publicSigningKey s msg) := by
  -- the outputs grow by what opens under the key of the message's iteration
  have hgrow : ∀ r, decryptMessage crypto senderKey.publicSigningKey s.receiver msg =
        (openMessage crypto senderKey.publicSigningKey
          (stepKey crypto key.chainKey key.iteration msg.iteration) msg, r) →
      openMessage crypto senderKey.publicSigningKey
        (stepKey crypto key.chainKey key.iteration msg.iteration) msg ≠ [] →
      msg.WellSized → key.iteration < msg.iteration →
      Genuine later (deliver crypto senderKey.publicSigningKey s msg) := by
    intro r hrun hopen hsized hiteration out hout
    unfold deliver at hout
    rw [hrun] at hout
    dsimp only at hout
    rw [if_neg hopen] at hout
    rcases List.mem_append.mp hout with hold | hnew
    · exact hgenuine out hold
    · rw [List.mem_singleton.mp hnew]
      exact openMessage_authentic hideal hearlier hlater hmsg hsized hiteration hopen
  rcases decryptMessage_cases senderKey.publicSigningKey msg
    hideal.toSized husable.chainKey husable.iteration h with
    hrefused | ⟨hopen, hsized, hmem, hrun⟩ | ⟨hopen, hsized, hahead, pending, _, hrun⟩
  · rw [h.refused hrefused]
    exact hgenuine
  · obtain ⟨e, he, heq⟩ := List.mem_map.mp hmem
    exact hgrow _ hrun hopen hsized (heq ▸ (h.skipped e.1 e.2 he).1)
  · have := h.ahead
    exact hgrow _ hrun hopen hsized (by omega)

/-- **The group ratchet under any delivery.** A sender encrypts `earlier`,
distributes its chain key, and encrypts `later`. Whatever is delivered to a
receiver of that key, in any order: its state satisfies the invariant, a message
of the sender is decrypted at its first delivery unless it is too far ahead or
its key was evicted, an iteration yields at most one plaintext, and that is the
sender's. -/
theorem decryptMessage_anyOrder (crypto : Crypto) (senderKey : SenderKey)
    (earlier later : List (Bytes × Bytes)) (deliveries : List EncryptedMessage)
    (husable : senderKey.Usable)
    (hdrawn : ∀ x ∈ earlier ++ later, x.1.length = E2eeCrypto.gcmIvSize ∧ x.2 ≠ [])
    (hideal : Ideal crypto senderKey (encryptAll crypto senderKey (earlier ++ later)).2
      (encryptAll crypto senderKey earlier).1.chainKey
      (encryptAll crypto senderKey earlier).1.iteration deliveries) :
    let key := (encryptAll crypto senderKey earlier).1
    let sent := (encryptAll crypto key later).2
    let s := (deliveryMachine crypto key.publicSigningKey key.chainKey key.iteration).run
      (receiverOf key.chainKey key.iteration) deliveries
    RatchetInvariant crypto key.chainKey key.iteration s ∧
      (∀ x ∈ sent, (x.2.iteration, x.1) ∉ s.outputs →
        (0 < x.2.iteration - s.receiver.iteration ∧
            x.2.iteration - s.receiver.iteration ≤ maxRatchetSteps ∨
          x.2.iteration ≤ s.receiver.iteration ∧ x.2.iteration ∉ s.evicted) →
        (decryptMessage crypto key.publicSigningKey s.receiver x.2).1 = x.1) ∧
      (∀ msg plaintext, (msg.iteration, plaintext) ∈ s.outputs →
        (decryptMessage crypto key.publicSigningKey s.receiver msg).1 = []) ∧
      Genuine sent s := by
  dsimp only
  obtain ⟨hkey, hpublic, hprivate, hbefore, _, _⟩ := encryptAll_spec hideal.toSized husable
    fun x hx => hdrawn x (List.mem_append.mpr (.inl hx))
  have hideal := hideal
  rw [encryptAll_append] at hideal
  generalize hkeyEq : (encryptAll crypto senderKey earlier).1 = key at *
  obtain ⟨_, _, _, hafter, hsorted, _⟩ := encryptAll_spec hideal.toSized hkey
    fun x hx => hdrawn x (List.mem_append.mpr (.inr hx))
  rw [hpublic]
  have hrun := Machine.always_of_along
    (M := deliveryMachine crypto senderKey.publicSigningKey key.chainKey key.iteration)
    (P := fun _ msg => msg ∈ deliveries)
    (Q := fun s => RatchetInvariant crypto key.chainKey key.iteration s ∧
      Genuine (encryptAll crypto key later).2 s)
    (fun s msg h hmsg => ⟨deliver_invariant hideal.toSized hkey.chainKey hkey.iteration h.1,
      deliver_genuine hideal hkey (fun x hx => ⟨(hbefore x hx).1.wellSized, (hbefore x hx).2⟩)
        (fun x hx => (hafter x hx).1) hmsg h.1 h.2⟩)
    ⟨RatchetInvariant.start, fun out hout => by cases hout⟩
    (Machine.along_of_forall fun msg hmsg _ => hmsg)
  obtain ⟨hinv, hgenuine⟩ := hrun.last
  refine ⟨hinv, fun x hx hnew hreach => ?_, fun msg plaintext => decryptMessage_again hinv, hgenuine⟩
  refine decryptMessage_genuine hideal.toSized hkey hinv (hafter x hx).1
    (openMessage_genuine hideal hkey hpublic hprivate (hafter x hx).1) (fun plaintext hout => ?_) hreach
  -- what was returned for the iteration is the message's plaintext: iterations are distinct
  obtain ⟨y, hy, hiteration, rfl⟩ := hgenuine _ hout
  have hdistinct : ((encryptAll crypto key later).2.map (·.2.iteration)).Nodup :=
    List.pairwise_map.mpr (hsorted.imp fun hlt => hlt.ne)
  have hsame : y = x := List.inj_on_of_nodup_map hdistinct hy hx hiteration
  exact hnew (hsame ▸ hout)

/-! ## A reordered run -/

/-- Primitives small enough to run: the chain key counts its steps, a ciphertext
names its key, a signature its message. -/
def toyCrypto : Crypto where
  hkdf key _ info :=
    if info = [] then (key.headD 0 + 1) :: List.replicate 31 0
    else key.headD 0 :: List.replicate 31 1
  gcmSeal key _ plaintext := key.headD 0 :: List.replicate 15 0 ++ plaintext
  gcmOpen key _ ciphertext :=
    if ciphertext.take 16 = key.headD 0 :: List.replicate 15 0 then some (ciphertext.drop 16) else none
  ed25519Sign _ message := message.sum :: List.replicate 63 0
  ed25519Verify _ message signature := signature == message.sum :: List.replicate 63 0
  x25519 _ _ := none

def toyKey : SenderKey where
  keyId := "k"
  chainKey := List.replicate 32 0
  publicSigningKey := List.replicate 32 0
  privateSigningKey := List.replicate 32 0
  valid := true

/-- One message before the distribution, three after it. -/
def toyEarlier : List (Bytes × Bytes) := [(List.replicate 12 0, [1])]
def toyLater : List (Bytes × Bytes) := [2, 3, 4].map fun b => (List.replicate 12 0, [b])

def toySent : List EncryptedMessage :=
  (encryptAll toyCrypto (encryptAll toyCrypto toyKey toyEarlier).1 toyLater).2.map (·.2)

/-- The last message, a forgery (the last message as the one before it), the
first message, and the first again. -/
def toyDeliveries : List EncryptedMessage :=
  [toySent.getD 2 {}, { toySent.getD 2 {} with iteration := 3 }, toySent.getD 0 {}, toySent.getD 0 {}]

theorem toyCrypto_ideal : Ideal toyCrypto toyKey
    (encryptAll toyCrypto toyKey (toyEarlier ++ toyLater)).2
    (encryptAll toyCrypto toyKey toyEarlier).1.chainKey
    (encryptAll toyCrypto toyKey toyEarlier).1.iteration toyDeliveries where
  hkdf key salt info := by
    show (if info = [] then _ else _ : Bytes).length = 32
    split <;> rfl
  sealed key iv plaintext := by
    show 16 ≤ (key.headD 0 :: List.replicate 15 0 ++ plaintext).length
    simp
  signature key message := by simp [toyCrypto, ed25519SigSize]
  open_seal messageKey iv plaintext := by simp [toyCrypto]
  verify_sign message := by simp [toyCrypto]
  unforgeable := by decide +kernel
  otherStep := by decide +kernel

/-- The middle message is decrypted though it comes last. -/
theorem decryptMessage_anyOrder_toy :
    (decryptMessage toyCrypto toyKey.publicSigningKey
      ((deliveryMachine toyCrypto toyKey.publicSigningKey
        (encryptAll toyCrypto toyKey toyEarlier).1.chainKey 1).run
        (receiverOf (encryptAll toyCrypto toyKey toyEarlier).1.chainKey 1) toyDeliveries).receiver
      (toySent.getD 1 {})).1 = [3] := by
  have hrun := decryptMessage_anyOrder toyCrypto toyKey toyEarlier toyLater toyDeliveries
    ⟨rfl, rfl, rfl, rfl, by decide⟩ (by decide +kernel) toyCrypto_ideal
  exact hrun.2.1 ([3], toySent.getD 1 {}) (by decide +kernel) (by decide +kernel) (by decide +kernel)

end XYChat.GroupE2eeCrypto
