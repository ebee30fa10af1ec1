import XYChat.Common.RatchetCorrectness

/-!
# What becomes of a sender's messages

What a receiver has returned says where it is: at the furthest iteration of them, and
only keys far behind it have been evicted. So which message can still be decrypted is
told from the messages that were, without looking at the receiver.
-/

namespace XYChat.GroupE2eeCrypto

open XYChat.Lib

/-! ## How far behind the evicted keys are -/

/-- Ascending integers take their room. -/
theorem add_length_lt {x b : Int} {l : List Int} (h : (x :: l).Pairwise (· < ·))
    (hb : ∀ y ∈ x :: l, y < b) : x + l.length < b := by
  induction l generalizing x with
  | nil =>
      have hx := hb x List.mem_cons_self
      rw [List.length_nil]
      omega
  | cons y l ih =>
      obtain ⟨hx, hrest⟩ := List.pairwise_cons.mp h
      have hlt := ih hrest fun z hz => hb z (List.mem_cons_of_mem _ hz)
      have hxy := hx y List.mem_cons_self
      rw [List.length_cons, Nat.cast_add, Nat.cast_one]
      omega

/-- What goes of ascending integers when the last `n` stay is more than `n` below. -/
theorem add_lt_of_mem_take {b k : Int} {l : List Int} {n : Nat} (h : l.Pairwise (· < ·))
    (hb : ∀ y ∈ l, y < b) (hk : k ∈ l.take (l.length - n)) : k + n < b := by
  induction l with
  | nil =>
      rw [List.take_nil] at hk
      cases hk
  | cons x l ih =>
      obtain ⟨hx, hrest⟩ := List.pairwise_cons.mp h
      by_cases hn : n ≤ l.length
      · have hlength : (x :: l).length - n = (l.length - n) + 1 := by
          rw [List.length_cons]
          omega
        rw [hlength, List.take_succ_cons] at hk
        rcases List.mem_cons.mp hk with rfl | hk
        · have hlt := add_length_lt h hb
          omega
        · exact ih hrest (fun y hy => hb y (List.mem_cons_of_mem _ hy)) hk
      · have hnone : (x :: l).length - n = 0 := by
          rw [List.length_cons]
          omega
        rw [hnone] at hk
        cases hk

theorem pairwise_between (lo hi : Int) : (between lo hi).Pairwise (· < ·) := by
  unfold between
  rw [List.pairwise_map]
  refine List.pairwise_lt_range.imp fun {j k} hlt => ?_
  have : (j : Int) < k := Int.ofNat_lt.mpr hlt
  omega

/-- The receiver and its history, as far as the reach of a message depends on them. -/
structure ReachInvariant (i : Int) (s : Delivered) : Prop where
  behind : ∀ k ∈ s.evicted, k + maxSkippedMessageKeys < s.receiver.iteration
  furthest : s.receiver.iteration = i ∨ ∃ plaintext, (s.receiver.iteration, plaintext) ∈ s.outputs
  once : (s.outputs.map (·.1)).Nodup

section

variable {crypto : Crypto} {chainKey publicSigningKey : Bytes} {i : Int} {s : Delivered}
  {msg : EncryptedMessage}

theorem ReachInvariant.start : ReachInvariant i (receiverOf chainKey i) where
  behind := by simp [receiverOf]
  furthest := .inl rfl
  once := by simp [receiverOf]

/-- A skipped key is used up. -/
theorem ReachInvariant.cached {plaintext : Bytes} {skippedKeys : SkippedKeys}
    (h : ReachInvariant i s) (hinv : RatchetInvariant crypto chainKey i s)
    (hmem : msg.iteration ∈ s.receiver.keys.keys) :
    ReachInvariant i
      { receiver := { s.receiver with skippedKeys := some skippedKeys }
        outputs := s.outputs ++ [(msg.iteration, plaintext)]
        evicted := s.evicted } where
  behind := h.behind
  furthest := by
    rcases h.furthest with hstart | ⟨text, hout⟩
    · exact .inl hstart
    · exact .inr ⟨text, List.mem_append_left _ hout⟩
  once := by
    rw [List.map_append, List.map_singleton, List.nodup_append]
    refine ⟨h.once, List.nodup_singleton _, fun k hk k' hk' => ?_⟩
    rw [List.mem_singleton.mp hk']
    rintro rfl
    obtain ⟨⟨k, text⟩, hout, heq⟩ := List.mem_map.mp hk
    obtain rfl : k = msg.iteration := heq
    exact hinv.once _ text hout hmem

/-- The receiver goes forward. -/
theorem ReachInvariant.opened {plaintext : Bytes} {r' : Receiver} (h : ReachInvariant i s)
    (hinv : RatchetInvariant crypto chainKey i s) (hahead : s.receiver.iteration < msg.iteration)
    (hr' : r'.iteration = msg.iteration) :
    ReachInvariant i
      { receiver := r'
        outputs := s.outputs ++ [(msg.iteration, plaintext)]
        evicted := s.evicted ++ evictedBy s.receiver r' } where
  behind := by
    intro k hk
    show k + _ < r'.iteration
    rcases List.mem_append.mp hk with hold | hnew
    · have hbehind := h.behind k hold
      omega
    · -- the keys held and passed over are ascending, and below the new iteration
      have hheld : ∀ k ∈ s.receiver.keys.keys, k < s.receiver.iteration := by
        intro k hk
        obtain ⟨⟨k, key⟩, hmem, rfl⟩ := List.mem_map.mp hk
        exact (hinv.skipped k key hmem).2.1
      refine add_lt_of_mem_take (l := s.receiver.keys.keys ++
        between s.receiver.iteration r'.iteration) ?_ (fun y hy => ?_) hnew
      · refine List.pairwise_append.mpr ⟨?_, pairwise_between _ _, fun x hx y hy => ?_⟩
        · exact List.pairwise_map.mpr s.receiver.keys.sorted
        · have hx' := hheld x hx
          have hy' := (mem_between.mp hy).1
          omega
      · rcases List.mem_append.mp hy with hy | hy
        · have hy' := hheld y hy
          omega
        · exact (mem_between.mp hy).2
  furthest := .inr ⟨plaintext, by rw [hr']; exact List.mem_append_right _ List.mem_cons_self⟩
  once := by
    rw [List.map_append, List.map_singleton, List.nodup_append]
    refine ⟨h.once, List.nodup_singleton _, fun k hk k' hk' => ?_⟩
    rw [List.mem_singleton.mp hk']
    obtain ⟨⟨k, text⟩, hout, rfl⟩ := List.mem_map.mp hk
    have hreturned := (hinv.returned k text hout).2
    dsimp only
    omega

/-- **Step lemma.** -/
theorem deliver_reach (hs : Sized crypto) (hkey : chainKey.length = chainKeySize) (hi : 0 ≤ i)
    (hinv : RatchetInvariant crypto chainKey i s) (h : ReachInvariant i s) :
    ReachInvariant i (deliver crypto publicSigningKey s msg) := by
  rcases decryptMessage_cases publicSigningKey msg hs hkey hi hinv with
    hrefused | ⟨hopen, -, hmem, hrun⟩ | ⟨hopen, -, hahead, pending, -, hrun⟩
  · rw [hinv.refused hrefused]
    exact h
  · unfold deliver
    rw [hrun]
    dsimp only
    rw [if_neg hopen, evictedBy_same _ hinv.capacity (by rfl), List.append_nil]
    exact h.cached hinv hmem
  · unfold deliver
    rw [hrun]
    dsimp only
    rw [if_neg hopen]
    exact h.opened hinv hahead rfl

end

/-! ## What is sent, message by message -/

section

variable {crypto : Crypto}

theorem encryptMessage_keyId {iv plaintext : Bytes} {key : SenderKey}
    (h : (encryptMessage crypto iv key plaintext).2.valid = true) :
    (encryptMessage crypto iv key plaintext).2.keyId = key.keyId := by
  unfold encryptMessage at h ⊢
  split at h
  · cases h
  rename_i hready
  rw [if_neg hready]
  dsimp only at h ⊢
  split at h
  · cases h
  rename_i hchain
  rw [if_neg hchain]
  split at h
  · cases h
  rename_i hderived
  rw [if_neg hderived]
  cases hsealed : E2eeCrypto.aesGcmEncrypt crypto _ iv plaintext with
  | none =>
      rw [hsealed] at h
      cases h
  | some gcm =>
      rw [hsealed] at h
      dsimp only at h ⊢
      split at h
      · cases h
      · rename_i hsigned
        rw [if_neg hsigned]

theorem encryptAll_length (key : SenderKey) (xs : List (Bytes × Bytes)) :
    (encryptAll crypto key xs).2.length = xs.length := by
  induction xs generalizing key with
  | nil => rfl
  | cons x xs ih => exact congrArg (· + 1) (ih _)

/-- The `n`th message is the encryption of the `n`th plaintext, `n` iterations on. -/
theorem encryptAll_getElem? (hs : Sized crypto) {key : SenderKey} {xs : List (Bytes × Bytes)}
    (h : key.Usable) (hxs : ∀ x ∈ xs, x.1.length = E2eeCrypto.gcmIvSize ∧ x.2 ≠ []) {n : Nat}
    {x : Bytes × Bytes} (hn : xs[n]? = some x) :
    ∃ m, (encryptAll crypto key xs).2[n]? = some (x.2, m) ∧ m.iteration = key.iteration + n + 1 ∧
      m.keyId = key.keyId := by
  induction xs generalizing key n with
  | nil => cases hn
  | cons y ys ih =>
      obtain ⟨⟨hiv, hplaintext⟩, hrest⟩ := List.forall_mem_cons.mp hxs
      obtain ⟨m, hsent, hiteration, hseals⟩ := encryptMessage_spec hs h hiv hplaintext
      have hkeyId : m.keyId = key.keyId := by
        have hvalid := hseals.wellSized.valid
        have hsame := @encryptMessage_keyId crypto y.1 y.2 key
        rw [hsent] at hsame
        exact hsame hvalid
      have hrun : (encryptAll crypto key (y :: ys)).2 =
          (y.2, m) :: (encryptAll crypto (key.next crypto) ys).2 := by
        show (_ :: _) = _
        rw [hsent]
      rw [hrun]
      cases n with
      | zero =>
          obtain rfl := Option.some.inj hn
          exact ⟨m, rfl, by rw [hiteration, Nat.cast_zero, Int.add_zero], hkeyId⟩
      | succ n =>
          obtain ⟨m', hm', hiteration', hkeyId'⟩ := ih (h.next hs) hrest hn
          refine ⟨m', hm', ?_, hkeyId'⟩
          rw [hiteration']
          show key.iteration + 1 + (n : Int) + 1 = key.iteration + ((n + 1 : Nat) : Int) + 1
          rw [Nat.cast_add, Nat.cast_one]
          omega

end

/-! ## One sender's messages at one receiver -/

section

variable {crypto : Crypto} {key : SenderKey} {xs : List (Bytes × Bytes)}
  {deliveries : List EncryptedMessage}

/-- Fewer deliveries ask less of the primitives. -/
theorem Ideal.mono {sent : List (Bytes × EncryptedMessage)} {chainKey : Bytes} {i : Int}
    {deliveries' : List EncryptedMessage} (h : Ideal crypto key sent chainKey i deliveries)
    (hsub : ∀ d ∈ deliveries', d ∈ deliveries) : Ideal crypto key sent chainKey i deliveries' where
  toSized := h.toSized
  open_seal := h.open_seal
  verify_sign := h.verify_sign
  unforgeable d hd := h.unforgeable d (hsub d hd)
  otherStep d hd := h.otherStep d (hsub d hd)

/-- A receiver of the key, whatever has been delivered to it. -/
structure DeliveredOf (crypto : Crypto) (key : SenderKey) (sent : List (Bytes × EncryptedMessage))
    (s : Delivered) : Prop where
  ratchet : RatchetInvariant crypto key.chainKey key.iteration s
  reach : ReachInvariant key.iteration s
  genuine : Genuine sent s

/-- **Run lemma.** -/
theorem deliveredOf_run (husable : key.Usable)
    (hdrawn : ∀ x ∈ xs, x.1.length = E2eeCrypto.gcmIvSize ∧ x.2 ≠ [])
    (hideal : Ideal crypto key (encryptAll crypto key xs).2 key.chainKey key.iteration deliveries) :
    DeliveredOf crypto key (encryptAll crypto key xs).2
      ((deliveryMachine crypto key.publicSigningKey key.chainKey key.iteration).run
        (receiverOf key.chainKey key.iteration) deliveries) := by
  obtain ⟨-, -, -, hseals, -, -⟩ := encryptAll_spec hideal.toSized husable hdrawn
  have hrun := Machine.always_of_along
    (M := deliveryMachine crypto key.publicSigningKey key.chainKey key.iteration)
    (P := fun _ msg => msg ∈ deliveries)
    (Q := DeliveredOf crypto key (encryptAll crypto key xs).2)
    (fun s msg h hmsg =>
      { ratchet := deliver_invariant hideal.toSized husable.chainKey husable.iteration h.ratchet
        reach := deliver_reach hideal.toSized husable.chainKey husable.iteration h.ratchet h.reach
        genuine := @deliver_genuine crypto key key [] (encryptAll crypto key xs).2 deliveries msg s
          hideal husable (fun _ hx => by cases hx) (fun x hx => (hseals x hx).1) hmsg h.ratchet
          h.genuine })
    ⟨RatchetInvariant.start, ReachInvariant.start, fun out hout => by cases hout⟩
    (Machine.along_of_forall fun msg hmsg _ => hmsg)
  exact hrun.last

/-- **The next message.** One that has not been returned is decrypted, unless it is too far
ahead of the furthest that has, or too far behind it. -/
theorem DeliveredOf.decrypts (husable : key.Usable)
    (hdrawn : ∀ x ∈ xs, x.1.length = E2eeCrypto.gcmIvSize ∧ x.2 ≠ [])
    (hideal : Ideal crypto key (encryptAll crypto key xs).2 key.chainKey key.iteration deliveries)
    {s : Delivered} (h : DeliveredOf crypto key (encryptAll crypto key xs).2 s)
    {x : Bytes × EncryptedMessage} (hx : x ∈ (encryptAll crypto key xs).2)
    (hnew : x.2.iteration ∉ s.outputs.map (·.1))
    (hbehind : ∀ y ∈ s.outputs, y.1 ≤ x.2.iteration + maxSkippedMessageKeys)
    (hahead : x.2.iteration ≤ key.iteration + maxRatchetSteps ∨
      ∃ y ∈ s.outputs, x.2.iteration ≤ y.1 + maxRatchetSteps) :
    (decryptMessage crypto key.publicSigningKey s.receiver x.2).1 = x.1 := by
  obtain ⟨-, -, -, hall, -, -⟩ := encryptAll_spec hideal.toSized husable hdrawn
  have hseals := (hall x hx).1
  refine decryptMessage_genuine hideal.toSized husable h.ratchet hseals
    (openMessage_genuine hideal husable rfl rfl hseals)
    (fun plaintext hout => hnew (List.mem_map_of_mem hout)) ?_
  have hstart := h.ratchet.ahead
  by_cases hbeyond : s.receiver.iteration < x.2.iteration
  · left
    rcases hahead with hnear | ⟨⟨k, text⟩, hout, hnear⟩
    · omega
    · have hreturned := (h.ratchet.returned k text hout).2
      dsimp only at hnear
      omega
  · right
    refine ⟨by omega, fun hevicted => ?_⟩
    have hfar := h.reach.behind _ hevicted
    have hlater := hseals.later
    rcases h.reach.furthest with hsame | ⟨text, hout⟩
    · omega
    · have hfurthest := hbehind _ hout
      dsimp only at hfurthest
      omega

end

end XYChat.GroupE2eeCrypto
