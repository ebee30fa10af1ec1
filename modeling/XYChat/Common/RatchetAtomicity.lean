import XYChat.Common.RatchetCorrectness

/-!
# Decrypting a group message is atomic

`decryptMessage` ratchets, collects keys and authenticates in that order, on
whatever state and message it is given and whichever primitive fails. It answers
with nothing and leaves the receiver as it was, or it has used up one skipped key,
or it has gone forward to the message and kept the keys it passed over.
-/

namespace XYChat.GroupE2eeCrypto

open XYChat.Lib

variable (crypto : Crypto)

/-! ## What a success leaves -/

/-- The skipped key of iteration `k` is gone and nothing else has changed. -/
structure Receiver.Consumed (r : Receiver) (k : Int) (r' : Receiver) : Prop where
  chainKey : r'.chainKey = r.chainKey
  iteration : r'.iteration = r.iteration
  skippedKeys : ∃ held held' : SkippedKeys,
    r.skippedKeys = some held ∧ r'.skippedKeys = some held' ∧
      held'.find k = none ∧ ∀ j, j ≠ k → held'.find j = held.find j

/-- The keys `held` with those of the iterations strictly between the receiver's and
`k`, less the smallest beyond the limit. -/
def Receiver.Passed (r : Receiver) (k : Int) (held held' : SkippedKeys) : Prop :=
  ∃ merged : SkippedKeys,
    (∀ j, merged.find j =
      if r.iteration < j ∧ j < k then some (stepKey crypto r.chainKey r.iteration j)
      else held.find j) ∧
    held'.entries = merged.entries.drop (merged.size - maxSkippedMessageKeys)

/-- The receiver has gone forward to iteration `k`. -/
structure Receiver.Advanced (r : Receiver) (k : Int) (r' : Receiver) : Prop where
  forward : r.iteration < k
  iteration : r'.iteration = k
  chainKey : r'.chainKey = chainAt crypto r.chainKey (k - r.iteration).toNat
  skippedKeys : Option.Rel (r.Passed crypto k) r.skippedKeys r'.skippedKeys

/-! ## The loop -/

section

variable {crypto} {keep : Bool} {chainKey chainKey' : Bytes} {pending pending' : SkippedKeys}

/-- The chain key after one step and `k` more. -/
theorem chainAt_succ (k : Nat) :
    chainAt crypto (ratchetChainKey crypto chainKey) k = chainAt crypto chainKey (k + 1) := rfl

/-- A key of the rest of the chain is a key of the chain. -/
theorem stepKey_succ {lo j : Int} (h : lo + 1 ≤ j) :
    stepKey crypto (ratchetChainKey crypto chainKey) (lo + 1) j = stepKey crypto chainKey lo j := by
  unfold stepKey
  rw [chainAt_succ]
  have hsteps : (j - (lo + 1)).toNat + 1 = (j - lo).toNat := by omega
  rw [hsteps]

/-- **The loop.** Where it gets through, it reaches the chain key that many steps on;
kept are the keys of the iterations it has passed over. -/
theorem ratchetTo_eq_some {steps : Nat} {lo : Int}
    (h : ratchetTo crypto keep steps chainKey lo pending = some (chainKey', pending')) :
    chainKey' = chainAt crypto chainKey steps ∧
      ∀ j, pending'.find j =
        if keep = true ∧ lo < j ∧ j < lo + steps then some (stepKey crypto chainKey lo j)
        else pending.find j := by
  induction steps generalizing chainKey lo pending with
  | zero =>
      cases h
      refine ⟨rfl, fun j => ?_⟩
      rw [if_neg (by omega)]
  | succ steps ih =>
      unfold ratchetTo at h
      dsimp only at h
      by_cases hnext : ratchetChainKey crypto chainKey = []
      · rw [if_pos hnext] at h
        cases h
      rw [if_neg hnext] at h
      by_cases hkeep : steps ≠ 0 ∧ keep = true
      · rw [if_pos hkeep] at h
        by_cases hskipped :
            deriveMessageKey crypto (ratchetChainKey crypto chainKey) (lo + 1) = []
        · rw [if_pos hskipped] at h
          cases h
        rw [if_neg hskipped] at h
        obtain ⟨hchain, hfind⟩ := ih h
        refine ⟨hchain, fun j => (hfind j).trans ?_⟩
        have hfirst : stepKey crypto chainKey lo (lo + 1) =
            deriveMessageKey crypto (ratchetChainKey crypto chainKey) (lo + 1) := by
          unfold stepKey
          have hone : (lo + 1 - lo).toNat = 1 := by omega
          rw [hone]
          rfl
        by_cases hj : j = lo + 1
        · subst hj
          rw [if_neg (by omega), if_pos ⟨hkeep.2, by omega, by omega⟩, IntMap.find_insert_self,
            hfirst]
        · rw [IntMap.find_insert_of_ne hj]
          by_cases hrest : lo + 1 < j ∧ j < lo + 1 + steps
          · rw [if_pos ⟨hkeep.2, hrest⟩, if_pos ⟨hkeep.2, by omega, by omega⟩,
              stepKey_succ hrest.1.le]
          · rw [if_neg fun hin => hrest hin.2, if_neg fun hin => hrest ⟨by omega, by omega⟩]
      · rw [if_neg hkeep] at h
        obtain ⟨hchain, hfind⟩ := ih h
        refine ⟨hchain, fun j => (hfind j).trans ?_⟩
        -- the last step, or no keys are kept: nothing lies in between
        have hnone : ∀ n : Nat, n ≤ steps + 1 → ∀ lo' : Int, lo ≤ lo' → lo' + n ≤ lo + steps + 1 →
            ¬(keep = true ∧ lo' < j ∧ j < lo' + n) := by
          intro n hn lo' hlo hend hin
          have hzero : steps = 0 := by
            by_contra hne
            exact hkeep ⟨hne, hin.1⟩
          omega
        rw [if_neg (hnone steps (by omega) (lo + 1) (by omega) (by omega)),
          if_neg (hnone (steps + 1) (by omega) lo (by omega) (by push_cast; omega))]

/-- What is committed is the keys passed over and those held, less the smallest. -/
theorem commitSkipped_passed {r : Receiver} {k : Int} (held : SkippedKeys)
    (hpending : ∀ j, pending.find j =
      if r.iteration < j ∧ j < k then some (stepKey crypto r.chainKey r.iteration j) else none) :
    r.Passed crypto k held (commitSkipped pending held) := by
  refine ⟨_, fun j => ?_, IntMap.shrinkEntries_eq_drop _ _⟩
  rw [IntMap.find_foldl_insert, hpending j]
  by_cases hin : r.iteration < j ∧ j < k
  · rw [if_pos hin, if_pos hin]
    rfl
  · rw [if_neg hin, if_neg hin]
    rfl

end

/-! ## Decryption -/

section

variable {crypto} {publicSigningKey : Bytes} {r : Receiver} {msg : EncryptedMessage}

/-- Past the skipped keys. -/
theorem decryptAhead_atomic :
    decryptAhead crypto publicSigningKey r msg = ([], r) ∨
      (decryptAhead crypto publicSigningKey r msg).1 ≠ [] ∧
        r.Advanced crypto msg.iteration (decryptAhead crypto publicSigningKey r msg).2 := by
  unfold decryptAhead
  by_cases hbehind : msg.iteration ≤ r.iteration
  · rw [if_pos hbehind]
    exact .inl rfl
  by_cases hfar : (maxRatchetSteps : Int) < msg.iteration - r.iteration
  · rw [if_neg hbehind, if_pos hfar]
    exact .inl rfl
  rw [if_neg hbehind, if_neg hfar]
  cases hloop : ratchetTo crypto r.skippedKeys.isSome (msg.iteration - r.iteration).toNat r.chainKey
      r.iteration .empty with
  | none => exact .inl rfl
  | some reached =>
      obtain ⟨chainKey, pending⟩ := reached
      dsimp only
      by_cases hkey : deriveMessageKey crypto chainKey msg.iteration = []
      · rw [if_pos hkey]
        exact .inl rfl
      by_cases hopen : openMessage crypto publicSigningKey
          (deriveMessageKey crypto chainKey msg.iteration) msg = []
      · rw [if_neg hkey, if_pos hopen]
        exact .inl rfl
      rw [if_neg hkey, if_neg hopen]
      obtain ⟨hchain, hfind⟩ := ratchetTo_eq_some hloop
      refine .inr ⟨hopen, by omega, rfl, hchain, ?_⟩
      show Option.Rel _ r.skippedKeys (r.skippedKeys.map (commitSkipped pending))
      cases hheld : r.skippedKeys with
      | none => exact .none
      | some held =>
          refine .some (commitSkipped_passed held fun j => (hfind j).trans ?_)
          have hend : r.iteration + ((msg.iteration - r.iteration).toNat : Int) = msg.iteration := by
            omega
          rw [hheld, hend]
          simp only [Option.isSome_some, true_and, IntMap.find_empty]

/-- **Decryption is atomic.** An empty result leaves the receiver as it was. A message
without a skipped key that decrypts takes the receiver to its iteration, and one with a
skipped key uses up that key alone. -/
theorem decryptMessage_atomic (crypto : Crypto) (publicSigningKey : Bytes) (r : Receiver)
    (msg : EncryptedMessage) :
    let plaintext := (decryptMessage crypto publicSigningKey r msg).1
    let r' := (decryptMessage crypto publicSigningKey r msg).2
    let cached := r.skippedKeys.bind (·.find msg.iteration)
    (plaintext = [] → r' = r) ∧
      (plaintext ≠ [] → cached = none → r.Advanced crypto msg.iteration r') ∧
      (plaintext ≠ [] → cached ≠ none → r.Consumed msg.iteration r') := by
  dsimp only
  have hrefused : ∀ {p : Prop}, (([] : Bytes), r).1 ≠ [] → p := fun h => absurd rfl h
  unfold decryptMessage
  split
  · exact ⟨fun _ => rfl, hrefused, hrefused⟩
  cases hcached : r.skippedKeys.bind (·.find msg.iteration) with
  | some cachedKey =>
      dsimp only
      by_cases hopen : openMessage crypto publicSigningKey cachedKey msg = []
      · rw [if_pos hopen]
        exact ⟨fun _ => rfl, hrefused, hrefused⟩
      rw [if_neg hopen]
      refine ⟨fun h => absurd h hopen, fun _ h => (nomatch h), fun _ _ => ⟨rfl, rfl, ?_⟩⟩
      obtain ⟨held, hheld, -⟩ := Option.bind_eq_some_iff.mp hcached
      refine ⟨held, held.erase msg.iteration, hheld, ?_, IntMap.find_erase_self, fun j hj =>
        IntMap.find_erase_of_ne hj⟩
      show r.skippedKeys.map _ = _
      rw [hheld]
      rfl
  | none =>
      dsimp only
      rcases @decryptAhead_atomic crypto publicSigningKey r msg with hrun | ⟨hopen, hadvanced⟩
      · rw [hrun]
        exact ⟨fun _ => rfl, hrefused, hrefused⟩
      · exact ⟨fun h => absurd h hopen, fun _ _ => hadvanced, fun _ h => absurd rfl h⟩

end

end XYChat.GroupE2eeCrypto
