import XYChat.Lib.Pool
import XYChat.Server.MemberSpecs

/-!
# One private conversation for two users

Any number of connections call `getOrCreatePrivateConversation`, statement by
statement and in any interleaving. The lookup sees a conversation only when both its
member rows are there, and nothing keeps a second one out, so two users share one
conversation as long as no call creates theirs while it exists or is being created.
-/

namespace XYChat.Server

open XYChat.Lib

/-! ## Conversations of two -/

/-- The users of a conversation's member rows. -/
def Db.memberUsers (db : Db) (id : Int) : List Int :=
  (db.conversationMembers.rows.filter (·.conversationId == id)).map (·.userId)

/-- A private conversation with exactly two member rows, for these users. -/
def Db.PrivateOf (db : Db) (id a b : Int) : Prop :=
  db.conversationType id = some .privateType ∧
    (db.memberUsers id = [a, b] ∨ db.memberUsers id = [b, a])

/-- A private conversation that both are members of. -/
def Db.PrivateWith (db : Db) (id a b : Int) : Prop :=
  db.conversationType id = some .privateType ∧ a ∈ db.memberUsers id ∧ b ∈ db.memberUsers id

/-- The two pairs are the same two users. -/
def SamePair (a b a' b' : Int) : Prop := a = a' ∧ b = b' ∨ a = b' ∧ b = a'

/-- Member rows are of conversations that exist, private conversations are of two
users, and no two users have two. -/
structure Db.PairsInOrder (db : Db) : Prop where
  formed : ∀ r ∈ db.conversationMembers.rows, (db.conversationType r.conversationId).isSome
  paired : ∀ id, db.conversationType id = some .privateType → ∃ a b, a ≠ b ∧ db.PrivateOf id a b
  unique : ∀ id id' a b, db.PrivateOf id a b → db.PrivateOf id' a b → id = id'

/-! ## Concurrent calls -/

/-- What a call has returned. -/
structure Returned where
  userId1 : Int
  userId2 : Int
  conversationId : Option Int
  deriving DecidableEq

/-- How far a call has come: what its next statement is. -/
inductive CallPhase where
  | idle
  | lookup (a b : Int)
  | create (a b : Int)
  | addFirst (a b id : Int)
  | addSecond (a b id : Int)
  | returning (a b : Int) (result : Option Int)
  deriving DecidableEq

/-- The phase after the next statement. -/
def CallPhase.next (db : Db) : CallPhase → CallPhase
  | .idle => .idle
  | .lookup a b =>
      match db.findPrivateConversation a b with
      | some id => .returning a b (some id)
      | none => .create a b
  | .create a b => .addFirst a b (db.conversations.lastId + 1)
  | .addFirst a b id => .addSecond a b id
  | .addSecond a b id => .returning a b (some id)
  | .returning _ _ _ => .idle

/-- The connections, each with what its calls have returned, and the phases of the
calls that are under way. -/
structure PairCalls where
  pool : Pool Db (List Returned)
  phase : Nat → CallPhase := fun _ => .idle

/-- A connection calls for two users, or executes its next statement. -/
inductive PairOp where
  | call (c : Nat) (a b : Int)
  | statement (c : Nat)

/-- A call and what is done with its result. -/
def callProgram (log : List Returned) (a b : Int) : Prog Db (List Returned) :=
  (fun r => log ++ [⟨a, b, r⟩]) <$> getOrCreatePrivateConversation a b

/-- An idle connection may call for users that exist. -/
def PairCalls.step (s : PairCalls) : PairOp → PairCalls
  | .call c a b =>
      if (s.pool.workers c).running.isSome ∨ (s.pool.store.users.get a).isNone
          ∨ (s.pool.store.users.get b).isNone then s
      else
        { pool := s.pool.start c (callProgram (s.pool.workers c).here a b)
          phase := Function.update s.phase c (if a = b then .returning a b none else .lookup a b) }
  | .statement c =>
      { pool := s.pool.advance c
        phase := Function.update s.phase c ((s.phase c).next s.pool.store) }

def pairMachine : Machine PairCalls PairOp where
  init := fun s => s.pool.store.PairsInOrder ∧
    ∀ c, s.phase c = .idle ∧ s.pool.workers c = { here := [] }
  step := PairCalls.step

/-- The conversation a call is adding members to. -/
def CallPhase.making : CallPhase → Option (Int × Int × Int)
  | .addFirst a b id => some (a, b, id)
  | .addSecond a b id => some (a, b, id)
  | _ => none

/-- A call that creates a conversation does so when its users have none and no other
call is adding them to one. -/
def CreatesAlone (s : PairCalls) : PairOp → Prop
  | .call _ _ _ => True
  | .statement c => ∀ a b, s.phase c = .create a b →
      s.pool.store.findPrivateConversation a b = none ∧
        ∀ c' a' b' id, (s.phase c').making = some (a', b', id) → ¬SamePair a b a' b'

/-- The calls for two users agree, two users are members of at most one private
conversation, and what a call returned has a row for each of them and no other. -/
structure OneEach (s : PairCalls) : Prop where
  agree : ∀ c c' r r', r ∈ (s.pool.workers c).here → r' ∈ (s.pool.workers c').here →
    SamePair r.userId1 r.userId2 r'.userId1 r'.userId2 → r.conversationId = r'.conversationId
  atMostOne : ∀ a b id id', a ≠ b → s.pool.store.PrivateWith id a b →
    s.pool.store.PrivateWith id' a b → id = id'
  exact : ∀ c, ∀ r ∈ (s.pool.workers c).here, r.userId1 ≠ r.userId2 →
    ∃ id, r.conversationId = some id ∧ s.pool.store.PrivateOf id r.userId1 r.userId2

/-! ## The statements -/

namespace Db

variable {db db' : Db} {id a b : Int}

theorem mem_memberUsers {u : Int} : u ∈ db.memberUsers id ↔ db.isConversationMember id u = true := by
  unfold memberUsers
  rw [isConversationMember_iff]
  simp [and_assoc]

theorem memberUsers_append {r : MemberRow}
    (h : db'.conversationMembers.rows = db.conversationMembers.rows ++ [r]) (i : Int) :
    db'.memberUsers i = db.memberUsers i ++ if r.conversationId = i then [r.userId] else [] := by
  unfold memberUsers
  rw [h, List.filter_append, List.map_append]
  by_cases hr : r.conversationId = i <;> simp [hr]

theorem PrivateOf.symm (h : db.PrivateOf id a b) : db.PrivateOf id b a := ⟨h.1, h.2.symm⟩

theorem PrivateOf.pair {a' b' : Int} (h : db.PrivateOf id a b) (h' : db.PrivateOf id a' b') :
    SamePair a b a' b' := by
  rcases h.2 with hab | hba <;> rcases h'.2 with hab' | hba'
  · rw [hab] at hab'
    cases hab'
    exact .inl ⟨rfl, rfl⟩
  · rw [hab] at hba'
    cases hba'
    exact .inr ⟨rfl, rfl⟩
  · rw [hba] at hab'
    cases hab'
    exact .inr ⟨rfl, rfl⟩
  · rw [hba] at hba'
    cases hba'
    exact .inl ⟨rfl, rfl⟩

theorem PrivateOf.of_samePair {a' b' : Int} (h : db.PrivateOf id a b)
    (hpair : SamePair a b a' b') : db.PrivateOf id a' b' := by
  rcases hpair with ⟨rfl, rfl⟩ | ⟨rfl, rfl⟩
  · exact h
  · exact h.symm

/-- What matters of a conversation is its type and its member rows. -/
theorem privateOf_congr (htype : db'.conversationType id = db.conversationType id)
    (husers : db'.memberUsers id = db.memberUsers id) :
    db'.PrivateOf id a b ↔ db.PrivateOf id a b := by
  unfold PrivateOf
  rw [htype, husers]

/-- The lookup finds a private conversation that both are members of. -/
theorem findPrivateConversation_some (h : db.findPrivateConversation a b = some id) :
    db.PrivateWith id a b := by
  obtain ⟨row, hrow, rfl⟩ := Option.map_eq_some_iff.mp h
  have hfound := List.find?_some hrow
  simp only [Bool.and_eq_true, beq_iff_eq] at hfound
  refine ⟨hfound.2, mem_memberUsers.mpr ?_, mem_memberUsers.mpr hfound.1.2⟩
  exact (isConversationMember_iff _ _).mpr
    ⟨row, List.mem_of_find?_eq_some hrow, rfl, hfound.1.1⟩

theorem findPrivateConversation_none (h : db.findPrivateConversation a b = none) :
    ¬db.PrivateWith id a b := by
  rintro ⟨htype, ha, hb⟩
  obtain ⟨row, hrow, hconv, huser⟩ := (isConversationMember_iff _ _).mp (mem_memberUsers.mp ha)
  have hall := List.find?_eq_none.mp (Option.map_eq_none_iff.mp h) row hrow
  refine hall ?_
  simp only [Bool.and_eq_true, beq_iff_eq]
  exact ⟨⟨huser, by rw [hconv]; exact mem_memberUsers.mp hb⟩, by rw [hconv]; exact htype⟩

/-- An insertion for a user that exists and is no member yet. -/
theorem insertMember_added {u : Int} (hconv : (db.conversationType id).isSome)
    (huser : (db.users.get u).isSome) (hnew : u ∉ db.memberUsers id) :
    (∀ i, (db.insertMember id u .member).1.conversationType i = db.conversationType i) ∧
      (db.insertMember id u .member).1.users = db.users ∧
      (∀ i, (db.insertMember id u .member).1.memberUsers i =
        db.memberUsers i ++ if id = i then [u] else []) ∧
      ∀ r ∈ (db.insertMember id u .member).1.conversationMembers.rows,
        r ∈ db.conversationMembers.rows ∨ r.conversationId = id := by
  have hmember : db.isConversationMember id u = false := by
    by_contra h
    exact hnew (mem_memberUsers.mpr (by simpa using h))
  have hexists : (db.getConversation id).isSome = true := by
    unfold conversationType at hconv
    rwa [Option.isSome_map] at hconv
  have hguard : ((db.getConversation id).isSome && (db.users.get u).isSome
      && !db.isConversationMember id u) = true := by
    rw [hexists, huser, hmember]
    rfl
  unfold insertMember
  rw [if_pos hguard]
  refine ⟨fun _ => rfl, rfl, fun i => @memberUsers_append _ _
    { id := db.conversationMembers.lastId + 1, conversationId := id, userId := u
      joinedAt := db.now } rfl i, fun r hr => ?_⟩
  rcases Table.mem_insert.mp hr with hold | rfl
  · exact .inl hold
  · exact .inr rfl

/-- A conversation is created under a new id. -/
theorem insertConversation_type (i : Int) :
    (db.insertConversation .privateType).1.conversationType i =
      if i = db.conversations.lastId + 1 then some .privateType else db.conversationType i := by
  unfold insertConversation conversationType getConversation
  rw [Table.get_insert]
  split <;> rfl

theorem conversationType_lastId : db.conversationType (db.conversations.lastId + 1) = none := by
  unfold conversationType getConversation
  rw [Option.map_eq_none_iff, Table.get_eq_none]
  intro r hr heq
  have := (db.conversations.bounded r hr).2
  omega

theorem PrivateOf.both (h : db.PrivateOf id a b) : db.PrivateWith id a b := by
  refine ⟨h.1, ?_⟩
  rcases h.2 with husers | husers <;> rw [husers] <;> simp

end Db

/-! ## What is left of a call -/

/-- The rest of a call in each phase. -/
def CallPhase.rest (log : List Returned) : CallPhase → Option (Prog Db (List Returned))
  | .idle => none
  | .lookup a b => some (callProgram log a b)
  | .create a b => some (.stmt (fun db => (db.insertConversation .privateType).1) fun db =>
      addMembers a b (db.conversations.lastId + 1))
  | .addFirst a b id => some (addMembers a b id)
  | .addSecond a b id => some (addSecond a b id)
  | .returning a b result => some (.ret (log ++ [⟨a, b, result⟩]))
where
  addSecond (a b id : Int) : Prog Db (List Returned) :=
    .stmt (fun db => (db.insertMember id b .member).1) fun _ => .ret (log ++ [⟨a, b, some id⟩])
  addMembers (a b id : Int) : Prog Db (List Returned) :=
    .stmt (fun db => (db.insertMember id a .member).1) fun _ => addSecond a b id

/-- What a call's next statement does to the database. -/
def CallPhase.effect (db : Db) : CallPhase → Db
  | .create _ _ => (db.insertConversation .privateType).1
  | .addFirst a _ id => (db.insertMember id a .member).1
  | .addSecond _ b id => (db.insertMember id b .member).1
  | _ => db

/-- **The statements of a call.** Each has its effect and leads to the next phase. -/
theorem CallPhase.rest_stmt (log : List Returned) (phase : CallPhase)
    (hne : ∀ a b, phase = .lookup a b → a ≠ b) :
    phase = .idle ∨ (∃ a b result, phase = .returning a b result) ∨
      ∃ upd next, phase.rest log = some (.stmt upd next) ∧
        (∀ db, upd db = phase.effect db) ∧ ∀ db, some (next db) = (phase.next db).rest log := by
  cases phase with
  | idle => exact .inl rfl
  | lookup a b =>
      refine .inr (.inr ⟨id, fun db => match db.findPrivateConversation a b with
        | some id => .ret (log ++ [⟨a, b, some id⟩])
        | none => .stmt (fun db => (db.insertConversation .privateType).1) fun db =>
            CallPhase.rest.addMembers log a b (db.conversations.lastId + 1), ?_, fun _ => rfl,
        fun db => ?_⟩)
      · show some (callProgram log a b) = _
        unfold callProgram getOrCreatePrivateConversation
        rw [if_neg (hne a b rfl)]
        refine congrArg some (congrArg (Prog.stmt id) (funext fun db => ?_))
        dsimp only
        cases db.findPrivateConversation a b <;> rfl
      · unfold CallPhase.next
        dsimp only
        cases db.findPrivateConversation a b <;> rfl
  | create a b => exact .inr (.inr ⟨_, _, rfl, fun _ => rfl, fun _ => rfl⟩)
  | addFirst a b id => exact .inr (.inr ⟨_, _, rfl, fun _ => rfl, fun _ => rfl⟩)
  | addSecond a b id => exact .inr (.inr ⟨_, _, rfl, fun _ => rfl, fun _ => rfl⟩)
  | returning a b result => exact .inr (.inl ⟨a, b, result, rfl⟩)

/-! ## Who has what -/

/-- The users of a call whose result is not known yet. -/
def CallPhase.users : CallPhase → Option (Int × Int)
  | .lookup a b | .create a b | .addFirst a b _ | .addSecond a b _ => some (a, b)
  | .idle | .returning _ _ _ => none

/-- A result that a call for two users may have. -/
def Db.Answered (db : Db) (a b : Int) (result : Option Int) : Prop :=
  a = b ∧ result = none ∨ a ≠ b ∧ ∃ id, result = some id ∧ db.PrivateOf id a b

/-- Every private conversation is of two users or being made by a call, a call makes
one only for users that have none, and no two calls make one for the same users. -/
structure PairsAccounted (db : Db) (phase : Nat → CallPhase) : Prop where
  users : ∀ c a b, (phase c).users = some (a, b) →
    a ≠ b ∧ (db.users.get a).isSome ∧ (db.users.get b).isSome
  answered : ∀ c a b result, phase c = .returning a b result → db.Answered a b result
  first : ∀ c a b id, phase c = .addFirst a b id →
    db.conversationType id = some .privateType ∧ db.memberUsers id = []
  second : ∀ c a b id, phase c = .addSecond a b id →
    db.conversationType id = some .privateType ∧ db.memberUsers id = [a]
  apart : ∀ c c' a b id a' b' id', c ≠ c' → (phase c).making = some (a, b, id) →
    (phase c').making = some (a', b', id') → id ≠ id' ∧ ¬SamePair a b a' b'
  alone : ∀ c a b id, (phase c).making = some (a, b, id) → ∀ id', ¬db.PrivateOf id' a b
  settled : ∀ id, db.conversationType id = some .privateType →
    (∃ c a b, (phase c).making = some (a, b, id)) ∨ ∃ a b, a ≠ b ∧ db.PrivateOf id a b
  formed : ∀ r ∈ db.conversationMembers.rows, (db.conversationType r.conversationId).isSome
  unique : ∀ id id' a b, db.PrivateOf id a b → db.PrivateOf id' a b → id = id'

theorem SamePair.symm {a b a' b' : Int} (h : SamePair a b a' b') : SamePair a' b' a b := by
  unfold SamePair at *
  omega

/-- A call that makes a conversation is for two users. -/
theorem CallPhase.users_of_making {phase : CallPhase} {a b id : Int}
    (h : phase.making = some (a, b, id)) : phase.users = some (a, b) := by
  cases phase <;> cases h <;> rfl

namespace PairsAccounted

variable {db : Db} {phase : Nat → CallPhase} {c : Nat} {a b id : Int}

/-- A conversation that is being made has at most one member. -/
theorem members_of_making (h : PairsAccounted db phase) (hmaking : (phase c).making = some (a, b, id)) :
    db.conversationType id = some .privateType ∧
      (db.memberUsers id = [] ∨ db.memberUsers id = [a]) := by
  cases hphase : phase c with
  | idle | lookup | create | returning =>
      rw [hphase] at hmaking
      cases hmaking
  | addFirst a' b' id' =>
      rw [hphase] at hmaking
      cases hmaking
      obtain ⟨htype, husers⟩ := h.first c a b id hphase
      exact ⟨htype, .inl husers⟩
  | addSecond a' b' id' =>
      rw [hphase] at hmaking
      cases hmaking
      obtain ⟨htype, husers⟩ := h.second c a b id hphase
      exact ⟨htype, .inr husers⟩

/-- A private conversation with both has exactly them. -/
theorem privateOf (h : PairsAccounted db phase) (hne : a ≠ b) (hwith : db.PrivateWith id a b) :
    db.PrivateOf id a b := by
  obtain ⟨htype, ha, hb⟩ := hwith
  rcases h.settled id htype with ⟨c, a', b', hmaking⟩ | ⟨a', b', _, hpair⟩
  · rcases (h.members_of_making hmaking).2 with hnil | hone
    · rw [hnil] at ha
      cases ha
    · rw [hone, List.mem_singleton] at ha hb
      exact absurd (ha.trans hb.symm) hne
  · refine hpair.of_samePair ?_
    unfold SamePair
    rcases hpair.2 with husers | husers <;> rw [husers] at ha hb <;>
      simp only [List.mem_cons, List.not_mem_nil, or_false] at ha hb <;> omega

/-- A call that moves on without the database and without making a conversation. -/
theorem quiet {phase' : CallPhase} (h : PairsAccounted db phase) (hwas : (phase c).making = none)
    (his : phase'.making = none)
    (husers : ∀ a b, phase'.users = some (a, b) →
      a ≠ b ∧ (db.users.get a).isSome ∧ (db.users.get b).isSome)
    (hanswered : ∀ a b result, phase' = .returning a b result → db.Answered a b result) :
    PairsAccounted db (Function.update phase c phase') := by
  have hmaking : ∀ c', ((Function.update phase c phase') c').making = (phase c').making := by
    intro c'
    by_cases hc : c' = c
    · subst hc
      rw [Function.update_self, hwas, his]
    · rw [Function.update_of_ne hc]
  have hsame : ∀ c' q, (Function.update phase c phase') c' = q → q.making.isSome → phase c' = q := by
    intro c' q hq hsome
    by_cases hc : c' = c
    · subst hc
      rw [Function.update_self] at hq
      rw [← hq, his] at hsome
      cases hsome
    · rwa [Function.update_of_ne hc] at hq
  refine ⟨fun c' a b hc' => ?_, fun c' a b result hc' => ?_,
    fun c' a b id hc' => h.first c' a b id (hsame c' _ hc' rfl),
    fun c' a b id hc' => h.second c' a b id (hsame c' _ hc' rfl), ?_, ?_, ?_, h.formed, h.unique⟩
  · by_cases hc : c' = c
    · subst hc
      rw [Function.update_self] at hc'
      exact husers a b hc'
    · rw [Function.update_of_ne hc] at hc'
      exact h.users c' a b hc'
  · by_cases hc : c' = c
    · subst hc
      rw [Function.update_self] at hc'
      exact hanswered a b result hc'
    · rw [Function.update_of_ne hc] at hc'
      exact h.answered c' a b result hc'
  · intro c₁ c₂ a b id a' b' id' hne h₁ h₂
    rw [hmaking] at h₁ h₂
    exact h.apart c₁ c₂ a b id a' b' id' hne h₁ h₂
  · intro c' a b id hc'
    rw [hmaking] at hc'
    exact h.alone c' a b id hc'
  · intro id htype
    rcases h.settled id htype with ⟨c', a, b, hc'⟩ | hpair
    · exact .inl ⟨c', a, b, by rw [hmaking]; exact hc'⟩
    · exact .inr hpair

end PairsAccounted

/-- What changes is one conversation only. -/
structure Db.AgreeOff (id : Int) (db db' : Db) : Prop where
  users : db'.users = db.users
  types : ∀ i, i ≠ id → db'.conversationType i = db.conversationType i
  members : ∀ i, i ≠ id → db'.memberUsers i = db.memberUsers i

theorem Db.AgreeOff.privateOf {db db' : Db} {id i a b : Int} (h : db.AgreeOff id db')
    (hi : i ≠ id) : db'.PrivateOf i a b ↔ db.PrivateOf i a b :=
  Db.privateOf_congr (h.types i hi) (h.members i hi)

/-- How far the conversation of a call is when the call goes on from a phase. -/
inductive Db.Made (db : Db) (a b id : Int) : CallPhase → Prop
  | created : db.conversationType id = some .privateType → db.memberUsers id = [] →
      db.Made a b id (.addFirst a b id)
  | half : db.conversationType id = some .privateType → db.memberUsers id = [a] →
      db.Made a b id (.addSecond a b id)
  | complete : db.PrivateOf id a b → db.Made a b id (.returning a b (some id))

namespace Db.Made

variable {db : Db} {a b id : Int} {phase : CallPhase}

theorem making (h : db.Made a b id phase) :
    phase.making = some (a, b, id) ∧ (∀ a' b', ¬db.PrivateOf id a' b') ∨
      phase.making = none ∧ db.PrivateOf id a b := by
  cases h with
  | created _ husers =>
      refine .inl ⟨rfl, fun a' b' hpair => ?_⟩
      rcases hpair.2 with h | h <;> rw [husers] at h <;> cases h
  | half _ husers =>
      refine .inl ⟨rfl, fun a' b' hpair => ?_⟩
      rcases hpair.2 with h | h <;> rw [husers] at h <;> cases h
  | complete hpair => exact .inr ⟨rfl, hpair⟩

/-- Where two users have the conversation, they are the call's. -/
theorem pair {a' b' : Int} (h : db.Made a b id phase) (hpair : db.PrivateOf id a' b') :
    phase.making = none ∧ SamePair a b a' b' := by
  rcases h.making with ⟨_, hnot⟩ | ⟨hnone, hab⟩
  · exact absurd hpair (hnot a' b')
  · exact ⟨hnone, hab.pair hpair⟩

end Db.Made

/-- **A call goes on making its conversation.** Its users have none yet, and no other
call makes this one or one for them. -/
theorem PairsAccounted.goOn {db db' : Db} {phase : Nat → CallPhase} {phase' : CallPhase} {c : Nat}
    {a b id : Int} (h : PairsAccounted db phase) (hagree : db.AgreeOff id db')
    (hformed : ∀ r ∈ db'.conversationMembers.rows, (db'.conversationType r.conversationId).isSome)
    (husers : a ≠ b ∧ (db.users.get a).isSome ∧ (db.users.get b).isSome)
    (hself : ∀ a' b' id', (phase c).making = some (a', b', id') → id' = id)
    (hothers : ∀ c' a' b' id', c' ≠ c → (phase c').making = some (a', b', id') →
      id ≠ id' ∧ ¬SamePair a b a' b')
    (hnone : ∀ i, ¬db.PrivateOf i a b) (hnot : ∀ a' b', ¬db.PrivateOf id a' b')
    (hmade : db'.Made a b id phase') : PairsAccounted db' (Function.update phase c phase') := by
  -- a conversation that was complete is another one, and stays
  have hkeep : ∀ i a' b', db.PrivateOf i a' b' → db'.PrivateOf i a' b' := by
    intro i a' b' hpair
    refine (hagree.privateOf fun hi => ?_).mpr hpair
    rw [hi] at hpair
    exact hnot a' b' hpair
  have hback : ∀ i a' b', db'.PrivateOf i a' b' → i = id ∨ db.PrivateOf i a' b' := by
    intro i a' b' hpair
    by_cases hi : i = id
    · exact .inl hi
    · exact .inr ((hagree.privateOf hi).mp hpair)
  constructor
  case users =>
    intro c' a' b' hc'
    rw [hagree.users]
    by_cases hc : c' = c
    · subst hc
      rw [Function.update_self] at hc'
      cases hmade <;> cases hc' <;> exact husers
    · rw [Function.update_of_ne hc] at hc'
      exact h.users c' a' b' hc'
  case answered =>
    intro c' a' b' result hc'
    by_cases hc : c' = c
    · subst hc
      rw [Function.update_self] at hc'
      subst hc'
      cases hmade with
      | complete hpair => exact .inr ⟨husers.1, id, rfl, hpair⟩
    · rw [Function.update_of_ne hc] at hc'
      rcases h.answered c' a' b' result hc' with hsame | ⟨hne, i, hi, hpair⟩
      · exact .inl hsame
      · exact .inr ⟨hne, i, hi, hkeep i a' b' hpair⟩
  case first =>
    intro c' a' b' id' hc'
    by_cases hc : c' = c
    · subst hc
      rw [Function.update_self] at hc'
      subst hc'
      cases hmade with
      | created htype hmembers => exact ⟨htype, hmembers⟩
    · rw [Function.update_of_ne hc] at hc'
      have hid := (hothers c' a' b' id' hc (by rw [hc']; rfl)).1
      rw [hagree.types id' hid.symm, hagree.members id' hid.symm]
      exact h.first c' a' b' id' hc'
  case second =>
    intro c' a' b' id' hc'
    by_cases hc : c' = c
    · subst hc
      rw [Function.update_self] at hc'
      subst hc'
      cases hmade with
      | half htype hmembers => exact ⟨htype, hmembers⟩
    · rw [Function.update_of_ne hc] at hc'
      have hid := (hothers c' a' b' id' hc (by rw [hc']; rfl)).1
      rw [hagree.types id' hid.symm, hagree.members id' hid.symm]
      exact h.second c' a' b' id' hc'
  case apart =>
    intro c₁ c₂ a₁ b₁ id₁ a₂ b₂ id₂ hne h₁ h₂
    have hmine : ∀ a' b' id', phase'.making = some (a', b', id') → a' = a ∧ b' = b ∧ id' = id := by
      intro a' b' id' hmaking
      rcases hmade.making with ⟨hthis, _⟩ | ⟨hthis, _⟩
      · rw [hthis] at hmaking
        cases hmaking
        exact ⟨rfl, rfl, rfl⟩
      · rw [hthis] at hmaking
        cases hmaking
    by_cases hc₁ : c₁ = c
    · subst hc₁
      rw [Function.update_self] at h₁
      rw [Function.update_of_ne hne.symm] at h₂
      obtain ⟨rfl, rfl, rfl⟩ := hmine _ _ _ h₁
      exact hothers c₂ a₂ b₂ id₂ hne.symm h₂
    · rw [Function.update_of_ne hc₁] at h₁
      by_cases hc₂ : c₂ = c
      · subst hc₂
        rw [Function.update_self] at h₂
        obtain ⟨rfl, rfl, rfl⟩ := hmine _ _ _ h₂
        obtain ⟨hid, hpair⟩ := hothers c₁ a₁ b₁ id₁ hc₁ h₁
        exact ⟨hid.symm, fun hsame => hpair hsame.symm⟩
      · rw [Function.update_of_ne hc₂] at h₂
        exact h.apart c₁ c₂ a₁ b₁ id₁ a₂ b₂ id₂ hne h₁ h₂
  case alone =>
    intro c' a' b' id' hc' i hpair
    by_cases hc : c' = c
    · subst hc
      rw [Function.update_self] at hc'
      rcases hmade.making with ⟨hthis, hnotYet⟩ | ⟨hthis, _⟩
      · rw [hthis] at hc'
        cases hc'
        rcases hback i a b hpair with rfl | hold
        · exact hnotYet a b hpair
        · exact hnone i hold
      · rw [hthis] at hc'
        cases hc'
    · rw [Function.update_of_ne hc] at hc'
      rcases hback i a' b' hpair with rfl | hold
      · exact (hothers c' a' b' id' hc hc').2 (hmade.pair hpair).2
      · exact h.alone c' a' b' id' hc' i hold
  case settled =>
    intro i htype
    by_cases hi : i = id
    · subst hi
      rcases hmade.making with ⟨hthis, _⟩ | ⟨_, hpair⟩
      · exact .inl ⟨c, a, b, by rw [Function.update_self, hthis]⟩
      · exact .inr ⟨a, b, husers.1, hpair⟩
    · rw [hagree.types i hi] at htype
      rcases h.settled i htype with ⟨c', a', b', hc'⟩ | ⟨a', b', hne, hpair⟩
      · by_cases hc : c' = c
        · subst hc
          exact absurd (hself a' b' i hc') hi
        · exact .inl ⟨c', a', b', by rw [Function.update_of_ne hc]; exact hc'⟩
      · exact .inr ⟨a', b', hne, hkeep i a' b' hpair⟩
  case formed => exact hformed
  case unique =>
    intro i i' a' b' hi hi'
    rcases hback i a' b' hi with rfl | hold <;> rcases hback i' a' b' hi' with rfl | hold'
    · rfl
    · exact absurd (hold'.of_samePair (hmade.pair hi).2.symm) (hnone i')
    · exact absurd (hold.of_samePair (hmade.pair hi').2.symm) (hnone i)
    · exact h.unique i i' a' b' hold hold'

namespace PairsAccounted

variable {db : Db} {phase : Nat → CallPhase} {c : Nat} {a b id : Int}

/-- A member row is added to the conversation a call makes. -/
theorem insertMember {u : Int} {phase' : CallPhase} (h : PairsAccounted db phase)
    (hmaking : (phase c).making = some (a, b, id)) (hu : (db.users.get u).isSome)
    (hnew : u ∉ db.memberUsers id)
    (hmade : ∀ db' : Db, db'.conversationType id = some .privateType →
      db'.memberUsers id = db.memberUsers id ++ [u] → db'.Made a b id phase') :
    PairsAccounted (db.insertMember id u .member).1 (Function.update phase c phase') := by
  obtain ⟨htype, hmembers⟩ := h.members_of_making hmaking
  obtain ⟨htypes, husers, hall, hrows⟩ :=
    Db.insertMember_added (by rw [htype]; rfl) hu hnew
  have hthis := hmade (db.insertMember id u .member).1 (by rw [htypes]; exact htype)
    (by rw [hall, if_pos rfl])
  refine h.goOn ⟨husers, fun i _ => htypes i, fun i hi => ?_⟩ ?_
    (h.users c a b (CallPhase.users_of_making hmaking)) ?_ ?_ (h.alone c a b id hmaking) ?_ hthis
  · rw [hall, if_neg (Ne.symm hi), List.append_nil]
  · intro r hr
    rw [htypes]
    rcases hrows r hr with hold | hthis
    · exact h.formed r hold
    · rw [hthis, htype]
      rfl
  · intro a' b' id' hsame
    rw [hmaking] at hsame
    cases hsame
    rfl
  · intro c' a' b' id' hc hother
    exact h.apart c c' a b id a' b' id' (Ne.symm hc) hmaking hother
  · intro a' b' hpair
    rcases hpair.2 with hp | hp <;> rcases hmembers with hm | hm <;> rw [hm] at hp <;> cases hp

/-- A conversation is created by a call that does so alone. -/
theorem insertConversation (h : PairsAccounted db phase) (hphase : phase c = .create a b)
    (hnone : db.findPrivateConversation a b = none)
    (halone : ∀ c' a' b' id, (phase c').making = some (a', b', id) → ¬SamePair a b a' b') :
    PairsAccounted (db.insertConversation .privateType).1
      (Function.update phase c (.addFirst a b (db.conversations.lastId + 1))) := by
  have hfresh : db.memberUsers (db.conversations.lastId + 1) = [] := by
    unfold Db.memberUsers
    rw [List.filter_eq_nil_iff.mpr, List.map_nil]
    intro r hr heq
    have htype := h.formed r hr
    rw [beq_iff_eq.mp heq, Db.conversationType_lastId] at htype
    cases htype
  have hgone : ∀ a' b', ¬db.PrivateOf (db.conversations.lastId + 1) a' b' := by
    intro a' b' hpair
    have htype := hpair.1
    rw [Db.conversationType_lastId] at htype
    cases htype
  refine h.goOn ⟨rfl, fun i hi => ?_, fun _ _ => rfl⟩ (fun r hr => ?_)
    (h.users c a b (by rw [hphase]; rfl)) ?_ ?_
    (fun i hpair => Db.findPrivateConversation_none hnone hpair.both) hgone
    (.created (by rw [Db.insertConversation_type, if_pos rfl]) hfresh)
  · rw [Db.insertConversation_type, if_neg hi]
  · rw [Db.insertConversation_type]
    split
    · rfl
    · exact h.formed r hr
  · intro a' b' id' hmaking
    rw [hphase] at hmaking
    cases hmaking
  · intro c' a' b' id' _ hmaking
    refine ⟨fun heq => ?_, halone c' a' b' id' hmaking⟩
    have htype := (h.members_of_making hmaking).1
    rw [← heq, Db.conversationType_lastId] at htype
    cases htype

/-- **One statement.** It keeps the account when a creation is alone. -/
theorem statement (h : PairsAccounted db phase)
    (halone : ∀ a b, phase c = .create a b → db.findPrivateConversation a b = none ∧
      ∀ c' a' b' id, (phase c').making = some (a', b', id) → ¬SamePair a b a' b') :
    PairsAccounted ((phase c).effect db) (Function.update phase c ((phase c).next db)) := by
  cases hphase : phase c with
  | idle =>
      exact h.quiet (by rw [hphase]; rfl) rfl (fun _ _ hu => by cases hu) fun _ _ _ hr => by cases hr
  | returning a b result =>
      exact h.quiet (by rw [hphase]; rfl) rfl (fun _ _ hu => by cases hu) fun _ _ _ hr => by cases hr
  | lookup a b =>
      have husers := h.users c a b (by rw [hphase]; rfl)
      unfold CallPhase.next
      dsimp only [CallPhase.effect]
      cases hfind : db.findPrivateConversation a b with
      | none =>
          refine h.quiet (by rw [hphase]; rfl) rfl (fun a' b' hu => ?_) fun _ _ _ hr => by cases hr
          cases hu
          exact husers
      | some id =>
          refine h.quiet (by rw [hphase]; rfl) rfl (fun _ _ hu => by cases hu) fun a' b' r hr => ?_
          cases hr
          exact .inr ⟨husers.1, id, rfl,
            h.privateOf husers.1 (Db.findPrivateConversation_some hfind)⟩
  | create a b =>
      obtain ⟨hnone, hothers⟩ := halone a b hphase
      exact h.insertConversation hphase hnone hothers
  | addFirst a b id =>
      have hmaking : (phase c).making = some (a, b, id) := by rw [hphase]; rfl
      have hnil := (h.first c a b id hphase).2
      have husers := h.users c a b (CallPhase.users_of_making hmaking)
      refine h.insertMember hmaking husers.2.1 (by rw [hnil]; simp) fun db' htype hmembers => ?_
      rw [hnil] at hmembers
      exact .half htype hmembers
  | addSecond a b id =>
      have hmaking : (phase c).making = some (a, b, id) := by rw [hphase]; rfl
      have hone := (h.second c a b id hphase).2
      have husers := h.users c a b (CallPhase.users_of_making hmaking)
      refine h.insertMember hmaking husers.2.2 ?_ fun db' htype hmembers => ?_
      · rw [hone, List.mem_singleton]
        exact husers.1.symm
      · rw [hone] at hmembers
        exact .complete ⟨htype, .inl hmembers⟩

/-- No statement touches a conversation that is complete. -/
theorem statement_privateOf (h : PairsAccounted db phase) {i u v : Int} (hpair : db.PrivateOf i u v) :
    ((phase c).effect db).PrivateOf i u v := by
  have hadd : ∀ a b id w, (phase c).making = some (a, b, id) → (db.users.get w).isSome →
      w ∉ db.memberUsers id → (db.insertMember id w .member).1.PrivateOf i u v := by
    intro a b id w hmaking hw hnew
    obtain ⟨htype, hmembers⟩ := h.members_of_making hmaking
    obtain ⟨htypes, -, hall, -⟩ := Db.insertMember_added (by rw [htype]; rfl) hw hnew
    have hi : id ≠ i := by
      rintro rfl
      rcases hpair.2 with hp | hp <;> rcases hmembers with hm | hm <;> rw [hm] at hp <;> cases hp
    refine (Db.privateOf_congr (htypes i) ?_).mpr hpair
    rw [hall, if_neg hi, List.append_nil]
  cases hphase : phase c with
  | idle | returning | lookup => exact hpair
  | create a b =>
      show (db.insertConversation .privateType).1.PrivateOf i u v
      have hmembers : (db.insertConversation .privateType).1.memberUsers i = db.memberUsers i := rfl
      refine (Db.privateOf_congr ?_ hmembers).mpr hpair
      rw [Db.insertConversation_type, if_neg]
      rintro rfl
      have htype := hpair.1
      rw [Db.conversationType_lastId] at htype
      cases htype
  | addFirst a b id =>
      have husers := h.users c a b (by rw [hphase]; rfl)
      refine hadd a b id a (by rw [hphase]; rfl) husers.2.1 ?_
      rw [(h.first c a b id hphase).2]
      simp
  | addSecond a b id =>
      have husers := h.users c a b (by rw [hphase]; rfl)
      refine hadd a b id b (by rw [hphase]; rfl) husers.2.2 ?_
      rw [(h.second c a b id hphase).2, List.mem_singleton]
      exact husers.1.symm

end PairsAccounted

/-! ## Runs -/

/-- The calls stand as their phases say, and what they returned is accounted for. -/
structure PairCalls.InOrder (s : PairCalls) : Prop where
  account : PairsAccounted s.pool.store s.phase
  rest : ∀ c, (s.pool.workers c).running = (s.phase c).rest (s.pool.workers c).here
  returned : ∀ c, ∀ r ∈ (s.pool.workers c).here,
    s.pool.store.Answered r.userId1 r.userId2 r.conversationId

theorem CallPhase.rest_eq_none {log : List Returned} {phase : CallPhase}
    (h : phase.rest log = none) : phase = .idle := by
  cases phase <;> first | rfl | cases h

namespace PairCalls.InOrder

variable {s : PairCalls}

theorem of_init (h : pairMachine.init s) : s.InOrder := by
  obtain ⟨horder, hidle⟩ := h
  refine ⟨⟨?_, ?_, ?_, ?_, ?_, ?_, fun id htype => .inr (horder.paired id htype), horder.formed,
    horder.unique⟩, fun c => ?_, fun c r hr => ?_⟩
  · intro c a b hc
    rw [(hidle c).1] at hc
    cases hc
  · intro c a b result hc
    rw [(hidle c).1] at hc
    cases hc
  · intro c a b id hc
    rw [(hidle c).1] at hc
    cases hc
  · intro c a b id hc
    rw [(hidle c).1] at hc
    cases hc
  · intro c c' a b id a' b' id' _ hc
    rw [(hidle c).1] at hc
    cases hc
  · intro c a b id hc
    rw [(hidle c).1] at hc
    cases hc
  · rw [(hidle c).1, (hidle c).2]
    rfl
  · rw [(hidle c).2] at hr
    cases hr

theorem call (h : s.InOrder) (c : Nat) (a b : Int) : (s.step (.call c a b)).InOrder := by
  unfold PairCalls.step
  dsimp only
  split
  · exact h
  · rename_i hfree
    simp only [not_or, Option.not_isSome_iff_eq_none, Option.isNone_iff_eq_none] at hfree
    obtain ⟨hrunning, ha, hb⟩ := hfree
    have hidle : s.phase c = .idle := CallPhase.rest_eq_none ((h.rest c).symm.trans hrunning)
    have hhere : ∀ c', ((s.pool.start c (callProgram (s.pool.workers c).here a b)).workers c').here
        = (s.pool.workers c').here := by
      intro c'
      by_cases hc : c' = c
      · subst hc
        simp [Pool.start]
      · simp [Pool.start, Function.update_of_ne hc]
    refine ⟨?_, fun c' => ?_, fun c' r hr => ?_⟩
    · refine h.account.quiet (by rw [hidle]; rfl) ?_ ?_ ?_
      · split <;> rfl
      · intro a' b' hu
        split at hu
        · cases hu
        · rename_i hne
          cases hu
          exact ⟨hne, Option.isSome_iff_ne_none.mpr ha, Option.isSome_iff_ne_none.mpr hb⟩
      · intro a' b' result hr
        split at hr
        · rename_i heq
          cases hr
          exact .inl ⟨heq, rfl⟩
        · cases hr
    · rw [hhere c']
      by_cases hc : c' = c
      · subst hc
        simp only [Pool.start, Pool.workers_setWorker, Function.update_self]
        split
        · rename_i heq
          unfold callProgram getOrCreatePrivateConversation
          rw [if_pos heq]
          rfl
        · rfl
      · simp only [Pool.start, Pool.workers_setWorker, Function.update_of_ne hc]
        exact h.rest c'
    · rw [hhere c'] at hr
      exact h.returned c' r hr

theorem statement (h : s.InOrder) (c : Nat) (halone : CreatesAlone s (.statement c)) :
    (s.step (.statement c)).InOrder := by
  have haccount := h.account.statement halone
  have hkeep : ∀ a b result, s.pool.store.Answered a b result →
      ((s.phase c).effect s.pool.store).Answered a b result := by
    rintro a b result (hsame | ⟨hne, id, hid, hpair⟩)
    · exact .inl hsame
    · exact .inr ⟨hne, id, hid, h.account.statement_privateOf hpair⟩
  unfold PairCalls.step
  dsimp only
  rcases CallPhase.rest_stmt (s.pool.workers c).here (s.phase c)
    (fun a b hphase => (h.account.users c a b (by rw [hphase]; rfl)).1) with
    hidle | ⟨a, b, result, hreturning⟩ | ⟨upd, next, hrest, hupd, hnext⟩
  · have hrunning : (s.pool.workers c).running = none := by
      rw [h.rest c, hidle]
      rfl
    have hsame : s.pool.advance c = s.pool := by
      unfold Pool.advance
      rw [hrunning]
    rw [hidle] at haccount ⊢
    rw [hsame]
    refine ⟨haccount, fun c' => ?_, h.returned⟩
    dsimp only
    by_cases hc : c' = c
    · subst hc
      rw [Function.update_self]
      exact hrunning
    · rw [Function.update_of_ne hc]
      exact h.rest c'
  · have hrunning := h.rest c
    rw [hreturning] at hrunning haccount ⊢
    have hmoved : s.pool.advance c = s.pool.setWorker c
        { here := (s.pool.workers c).here ++ [⟨a, b, result⟩] } := by
      unfold Pool.advance
      rw [hrunning]
      rfl
    rw [hmoved]
    refine ⟨haccount, fun c' => ?_, fun c' r hr => ?_⟩
    · by_cases hc : c' = c
      · subst hc
        simp only [Pool.workers_setWorker, Function.update_self]
        rfl
      · simp only [Pool.workers_setWorker, Function.update_of_ne hc]
        exact h.rest c'
    · by_cases hc : c' = c
      · subst hc
        simp only [Pool.workers_setWorker, Function.update_self, List.mem_append,
          List.mem_singleton] at hr
        rcases hr with hold | rfl
        · exact h.returned c' r hold
        · exact h.account.answered c' a b result hreturning
      · simp only [Pool.workers_setWorker, Function.update_of_ne hc] at hr
        exact h.returned c' r hr
  · have hmoved : s.pool.advance c =
        { s.pool.setWorker c { s.pool.workers c with running := some (next s.pool.store) } with
          store := upd s.pool.store } := by
      unfold Pool.advance
      rw [h.rest c, hrest]
    rw [hmoved, hupd]
    refine ⟨haccount, fun c' => ?_, fun c' r hr => ?_⟩
    · by_cases hc : c' = c
      · subst hc
        simp only [Pool.workers_setWorker, Function.update_self]
        exact hnext s.pool.store
      · simp only [Pool.workers_setWorker, Function.update_of_ne hc]
        exact h.rest c'
    · refine hkeep _ _ _ ?_
      by_cases hc : c' = c
      · subst hc
        simp only [Pool.workers_setWorker, Function.update_self] at hr
        exact h.returned c' r hr
      · simp only [Pool.workers_setWorker, Function.update_of_ne hc] at hr
        exact h.returned c' r hr

theorem step (h : s.InOrder) (op : PairOp) (halone : CreatesAlone s op) : (s.step op).InOrder := by
  cases op with
  | call c a b => exact h.call c a b
  | statement c => exact h.statement c halone

theorem oneEach (h : s.InOrder) : OneEach s := by
  refine ⟨fun c c' r r' hr hr' hpair => ?_, fun a b id id' hne hid hid' => ?_, fun c r hr hne => ?_⟩
  · rcases h.returned c r hr with ⟨heq, hnone⟩ | ⟨hne, id, hid, hof⟩ <;>
      rcases h.returned c' r' hr' with ⟨heq', hnone'⟩ | ⟨hne', id', hid', hof'⟩
    · rw [hnone, hnone']
    · unfold SamePair at hpair
      omega
    · unfold SamePair at hpair
      omega
    · rw [hid, hid', h.account.unique id id' _ _ (hof.of_samePair hpair) hof']
  · exact h.account.unique id id' a b (h.account.privateOf hne hid) (h.account.privateOf hne hid')
  · rcases h.returned c r hr with ⟨heq, _⟩ | ⟨_, hanswer⟩
    · exact absurd heq hne
    · exact hanswer

end PairCalls.InOrder

/-- **One private conversation for two users.** In every run of calls that create
conversations only for users who have none and whose conversation no other call is
making, the calls for two users return the same one, at most one private conversation
has both, and it has exactly their two rows. -/
theorem privateConversation_unique (s : PairCalls) (ops : List PairOp) (hinit : pairMachine.init s)
    (halone : pairMachine.Along CreatesAlone s ops) : pairMachine.Always OneEach s ops :=
  (Machine.always_of_along (fun _ op h ha => h.step op ha)
    (PairCalls.InOrder.of_init hinit) halone).mono fun _ h => h.oneEach

theorem PairCalls.phase_call_of_ne {s : PairCalls} {c c' : Nat} {a b : Int} (hc : c' ≠ c) :
    (s.step (.call c a b)).phase c' = s.phase c' := by
  dsimp only [PairCalls.step]
  split
  · rfl
  · exact Function.update_of_ne hc _ _

theorem PairCalls.phase_statement_of_ne {s : PairCalls} {c c' : Nat} (hc : c' ≠ c) :
    (s.step (.statement c)).phase c' = s.phase c' :=
  Function.update_of_ne hc _ _

/-- Two users, and no conversation. -/
def twoUsers : Db where
  users := .ofRows [{ id := 1, username := "alice" }, { id := 2, username := "bob" }]

theorem twoUsers_pairsInOrder : twoUsers.PairsInOrder := by
  have hnone : ∀ id, twoUsers.conversationType id = none := fun id => rfl
  refine ⟨fun r hr => ?_, fun id htype => ?_, fun id id' a b hid _ => ?_⟩
  · cases hr
  · rw [hnone] at htype
    cases htype
  · have htype := hid.1
    rw [hnone] at htype
    cases htype

def twoUsersCalls : PairCalls where
  pool := { store := twoUsers, workers := fun _ => { here := [] } }

/-- A first message each way, one after the other. -/
theorem privateConversation_unique_twoUsers : pairMachine.Always OneEach twoUsersCalls
    [.call 0 1 2, .statement 0, .statement 0, .statement 0, .statement 0, .statement 0,
      .call 1 2 1, .statement 1, .statement 1] := by
  refine privateConversation_unique twoUsersCalls _ ⟨twoUsers_pairsInOrder, fun _ => ⟨rfl, rfl⟩⟩
    ⟨trivial, ?_, ?_, ?_, ?_, ?_, trivial, ?_, ?_, trivial⟩
  case refine_2 =>
    rintro a b hphase
    cases hphase
    refine ⟨by decide +kernel, fun c' a' b' id hmaking => ?_⟩
    by_cases hc : c' = 0
    · subst hc
      cases hmaking
    · have hother : (((twoUsersCalls.step (.call 0 1 2)).step (.statement 0)).phase c') = .idle := by
        rw [PairCalls.phase_statement_of_ne hc, PairCalls.phase_call_of_ne hc]
        rfl
      have hmaking' := (congrArg CallPhase.making hother).symm.trans hmaking
      cases hmaking'
  all_goals
    rintro a b hphase
    cases hphase

/-- **The defect**: both look before either has created the conversation. -/
theorem privateConversation_unique_overlap : ¬pairMachine.Always OneEach twoUsersCalls
    [.call 0 1 2, .call 1 2 1, .statement 0, .statement 1, .statement 0, .statement 0, .statement 0,
      .statement 0, .statement 1, .statement 1, .statement 1, .statement 1] := by
  intro h
  have hagree := h.last.agree 0 1 ⟨1, 2, some 1⟩ ⟨2, 1, some 2⟩ (by decide +kernel)
    (by decide +kernel) (.inr ⟨rfl, rfl⟩)
  cases hagree

end XYChat.Server
