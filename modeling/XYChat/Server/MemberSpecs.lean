import XYChat.Server.Groups
import XYChat.Server.MessageSpecs

/-!
# What the group functions do to the member rows

The statements that add members, change their roles or remove them, one lemma
each, so that no later proof opens them again.
-/

namespace XYChat.Server

open XYChat.Lib
open XYChat.Lib.Prog

variable {db db' : Db}

/-! ## Members -/

theorem isConversationMember_of_eq (h : db'.conversationMembers = db.conversationMembers)
    (id u : Int) : db'.isConversationMember id u = db.isConversationMember id u := by
  unfold Db.isConversationMember
  rw [h]

theorem isConversationMember_append {r : MemberRow}
    (h : db'.conversationMembers.rows = db.conversationMembers.rows ++ [r]) (id u : Int) :
    db'.isConversationMember id u = true ↔
      db.isConversationMember id u = true ∨ (r.conversationId = id ∧ r.userId = u) := by
  unfold Db.isConversationMember
  rw [h, List.any_append]
  simp

theorem isConversationMember_iff (id u : Int) : db.isConversationMember id u = true ↔
    ∃ r ∈ db.conversationMembers.rows, r.conversationId = id ∧ r.userId = u := by
  unfold Db.isConversationMember
  simp

/-! ## Statements on the member rows -/

/-- One row more, of a user who was no member of that conversation. -/
structure MemberAdded (db db' : Db) (r : MemberRow) : Prop where
  rows : db'.conversationMembers.rows = db.conversationMembers.rows ++ [r]
  types : ∀ id, db'.conversationType id = db.conversationType id
  exist : (db.conversationType r.conversationId).isSome
  new : db.isConversationMember r.conversationId r.userId = false

/-- An insertion adds the row or leaves the database as it is. -/
theorem insertMember_cases (conversationId userId : Int) (role : MemberRole) (db : Db) :
    db.insertMember conversationId userId role = (db, false) ∨
      ∃ r : MemberRow, r.conversationId = conversationId ∧ r.userId = userId ∧ r.role = role ∧
        (db.insertMember conversationId userId role).2 = true ∧
        MemberAdded db (db.insertMember conversationId userId role).1 r := by
  unfold Db.insertMember
  split
  · rename_i h
    simp only [Bool.and_eq_true, Bool.not_eq_true'] at h
    obtain ⟨⟨hconv, _⟩, hnew⟩ := h
    refine .inr ⟨_, rfl, rfl, rfl, rfl, ⟨rfl, fun _ => rfl, ?_, hnew⟩⟩
    show ((db.getConversation conversationId).map (·.type)).isSome = true
    rw [Option.isSome_map]
    exact hconv
  · exact .inl rfl

/-- The members that `createGroup` adds after the owner are listed, are no
members yet, and fit in. -/
theorem insertInitialMembers_spec {conversationId : Int} {memberIds added : List Int}
    (h : Db.insertInitialMembers conversationId memberIds added db = some db')
    (hadded : added.length ≤ maxGroupMembers) :
    ∃ rows, db'.conversationMembers.rows = db.conversationMembers.rows ++ rows ∧
      (∀ id, db'.conversationType id = db.conversationType id) ∧
      (∀ r ∈ rows, r.conversationId = conversationId ∧ r.role = .member ∧
        r.userId ∈ memberIds ∧ r.userId ∉ added) ∧
      (rows.map (·.userId)).Nodup ∧ rows.length + added.length ≤ maxGroupMembers := by
  -- the users added so far only grow; that the new ones differ from them carries the induction
  induction memberIds generalizing added db with
  | nil =>
      rw [← Option.some.inj h]
      exact ⟨[], by simp, fun _ => rfl, by simp, List.nodup_nil, by simpa using hadded⟩
  | cons memberId rest ih =>
      unfold Db.insertInitialMembers at h
      by_cases hfull : maxGroupMembers ≤ added.length
      · rw [if_pos hfull] at h
        rw [← Option.some.inj h]
        exact ⟨[], by simp, fun _ => rfl, by simp, List.nodup_nil, by simpa using hadded⟩
      rw [if_neg hfull] at h
      by_cases hskip : memberId ≤ 0 ∨ memberId ∈ added
      · rw [if_pos hskip] at h
        obtain ⟨rows, hrows, htypes, hnew, hnodup, hlength⟩ := ih h hadded
        exact ⟨rows, hrows, htypes,
          fun r hr => ⟨(hnew r hr).1, (hnew r hr).2.1, List.mem_cons_of_mem _ (hnew r hr).2.2.1,
            (hnew r hr).2.2.2⟩, hnodup, hlength⟩
      rw [if_neg hskip] at h
      rcases insertMember_cases conversationId memberId .member db with
        hsame | ⟨r, hconv, huser, hrole, hok, hadds⟩
      · rw [hsame] at h
        exact nomatch h
      · have hpair : db.insertMember conversationId memberId .member =
            ((db.insertMember conversationId memberId .member).1, true) := by rw [← hok]
        rw [hpair] at h
        obtain ⟨rows, hrows, htypes, hnew, hnodup, hlength⟩ :=
          ih h (by rw [List.length_cons]; omega)
        refine ⟨r :: rows, ?_, fun id => (htypes id).trans (hadds.types id), ?_, ?_, ?_⟩
        · rw [hrows, hadds.rows, List.append_assoc, List.singleton_append]
        · intro r' hr'
          rcases List.mem_cons.mp hr' with rfl | hr'
          · exact ⟨hconv, hrole, by simp [huser], fun hin => hskip (.inr (huser ▸ hin))⟩
          · obtain ⟨hconv', hrole', hin, hout⟩ := hnew r' hr'
            exact ⟨hconv', hrole', List.mem_cons_of_mem _ hin,
              fun h' => hout (List.mem_cons_of_mem _ h')⟩
        · rw [List.map_cons, List.nodup_cons, huser]
          refine ⟨fun hin => ?_, hnodup⟩
          obtain ⟨r', hr', heq⟩ := List.mem_map.mp hin
          exact (hnew r' hr').2.2.2 (by rw [heq]; exact List.mem_cons_self)
        · rw [List.length_cons] at hlength ⊢
          omega

/-- A group that was not there: its owner, then its other members. -/
structure GroupCreated (db db' : Db) (id ownerId : Int) (memberIds : List Int)
    (o : MemberRow) (rs : List MemberRow) : Prop where
  new : db.conversationType id = none
  types : ∀ i, db'.conversationType i = if i = id then some .groupType else db.conversationType i
  rows : db'.conversationMembers.rows = db.conversationMembers.rows ++ o :: rs
  owner : o.conversationId = id ∧ o.userId = ownerId ∧ o.role = .owner
  others : ∀ r ∈ rs, r.conversationId = id ∧ r.role = .member ∧ r.userId ∈ memberIds
  nodup : (ownerId :: rs.map (·.userId)).Nodup
  length : rs.length + 1 ≤ maxGroupMembers

/-- The transaction creates the group or leaves the database as it is. -/
theorem createGroup_cases (ownerId : Int) (name : String) (memberIds : List Int) (db : Db) :
    db.createGroup ownerId name memberIds = (db, none) ∨
      ∃ owner others, (db.createGroup ownerId name memberIds).2 = some (db.conversations.lastId + 1) ∧
        GroupCreated db (db.createGroup ownerId name memberIds).1 (db.conversations.lastId + 1)
          ownerId memberIds owner others := by
  unfold Db.createGroup
  split
  · exact .inl rfl
  · dsimp only
    generalize hcreated : ({ db with
      conversations := db.conversations.insert fun id =>
        ({ id, type := .groupType, name := trimmed name, updatedAt := db.now } :
          ConversationRow) } : Db) = created
    have hmembers : created.conversationMembers = db.conversationMembers := by rw [← hcreated]
    have htypes : ∀ i, created.conversationType i =
        if i = db.conversations.lastId + 1 then some .groupType else db.conversationType i := by
      intro i
      rw [← hcreated]
      unfold Db.conversationType Db.getConversation
      rw [Table.get_insert]
      split <;> rfl
    rcases insertMember_cases (db.conversations.lastId + 1) ownerId .owner created with
      hsame | ⟨owner, hconv, huser, hrole, hok, hadds⟩
    · rw [hsame]
      exact .inl rfl
    · have hpair : created.insertMember (db.conversations.lastId + 1) ownerId .owner =
          ((created.insertMember (db.conversations.lastId + 1) ownerId .owner).1, true) := by
        rw [← hok]
      rw [hpair]
      dsimp only
      cases hmore : Db.insertInitialMembers (db.conversations.lastId + 1) memberIds [ownerId]
          (created.insertMember (db.conversations.lastId + 1) ownerId .owner).1 with
      | none => exact .inl rfl
      | some db' =>
          obtain ⟨others, hrows, hsame, hnew, hnodup, hlength⟩ :=
            insertInitialMembers_spec hmore (show 1 ≤ maxGroupMembers by decide)
          refine .inr ⟨owner, others, rfl, ⟨?_, ?_, ?_, ⟨hconv, huser, hrole⟩, ?_, ?_, hlength⟩⟩
          · -- the next key is nobody's
            unfold Db.conversationType Db.getConversation
            rw [Option.map_eq_none_iff, Table.get_eq_none]
            intro c hc heq
            have := (db.conversations.bounded c hc).2
            omega
          · exact fun i => (hsame i).trans ((hadds.types i).trans (htypes i))
          · rw [hrows, hadds.rows, hmembers, List.append_assoc, List.singleton_append]
          · exact fun r hr => ⟨(hnew r hr).1, (hnew r hr).2.1, (hnew r hr).2.2.1⟩
          · refine List.nodup_cons.mpr ⟨fun hin => ?_, hnodup⟩
            obtain ⟨r, hr, heq⟩ := List.mem_map.mp hin
            exact (hnew r hr).2.2.2 (by rw [heq]; exact List.mem_singleton_self _)

/-- The member rows of `u` in `g` get the role. -/
structure RoleGiven (db db' : Db) (g u : Int) (role : MemberRole) : Prop where
  rows : db'.conversationMembers.rows = db.conversationMembers.rows.map fun r =>
    if r.conversationId == g && r.userId == u then { r with role := role } else r
  types : ∀ id, db'.conversationType id = db.conversationType id

theorem updateMemberRole_given (g u : Int) (role : MemberRole) (db : Db) :
    RoleGiven db (db.updateMemberRole g u role).1 g u role :=
  ⟨rfl, fun _ => rfl⟩

/-- The member rows of `u` in `g` are gone. -/
structure MemberRemoved (db db' : Db) (g u : Int) : Prop where
  rows : db'.conversationMembers.rows = db.conversationMembers.rows.filter fun r =>
    !(r.conversationId == g && r.userId == u)
  types : ∀ id, db'.conversationType id = db.conversationType id

theorem removeGroupMember_removed (g u : Int) (db : Db) :
    MemberRemoved db (db.removeGroupMember g u).1 g u :=
  ⟨rfl, fun _ => rfl⟩

theorem MemberRemoved.mem {g u : Int} (h : MemberRemoved db db' g u) {r : MemberRow} :
    r ∈ db'.conversationMembers.rows ↔
      r ∈ db.conversationMembers.rows ∧ ¬(r.conversationId = g ∧ r.userId = u) := by
  rw [h.rows, List.mem_filter]
  simp only [Bool.not_eq_true', Bool.and_eq_false_iff, beq_eq_false_iff_ne, not_and_or, ne_eq]

end XYChat.Server
