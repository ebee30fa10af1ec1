import XYChat.Server.Contacts
import XYChat.Server.MemberSpecs

/-!
# Writes of several rows

`addContact`, `createGroup`, `addGroupMembers` and `getOrCreatePrivateConversation`,
where each statement may fail. Only `createGroup` runs in a transaction. The others are
all or nothing under the patterns of failures that let no row in before the statement
whose failure ends the call.
-/

namespace XYChat.Server

open XYChat.Lib

/-! ## The writes -/

/-- The statements of the four writes; none of them is run twice in one call. -/
inductive WriteStatement where
  | beginTransaction
  | commitTransaction
  | selectPrivateConversation
  | insertConversation
  | insertContact (userId contactUserId : Int)
  | selectMember (userId : Int)
  | countMembers (userId : Int)
  | insertMember (userId : Int)
  deriving DecidableEq

/-- `INSERT INTO conversations` of a group. -/
def Db.insertGroup (groupName : String) (db : Db) : Db × Int :=
  ({ db with
      conversations := db.conversations.insert fun id =>
        { id, type := .groupType, name := groupName, updatedAt := db.now } },
    db.conversations.lastId + 1)

section

variable (fails : WriteStatement → Bool)

/-- `DatabaseManager::addContact` where statements may fail. -/
def addContactUnder (userId contactUserId : Int) : Prog Db Bool := do
  if userId = contactUserId then return false
  else if !(← Prog.attempt (fails (.insertContact userId contactUserId)) false
      (Db.insertContact userId contactUserId)) then return false
  else
    Prog.attempt (fails (.insertContact contactUserId userId)) false
      (Db.insertContact contactUserId userId)

/-- `DatabaseManager::insertMember` where it may fail. -/
def insertMemberUnder (conversationId userId : Int) (role : MemberRole) : Prog Db Bool :=
  Prog.attempt (fails (.insertMember userId)) false (Db.insertMember conversationId userId role)

/-- `DatabaseManager::getOrCreatePrivateConversation` where statements may fail; what
the insertions of the members return nobody looks at. -/
def getOrCreatePrivateConversationUnder (userId1 userId2 : Int) : Prog Db (Option Int) := do
  if userId1 = userId2 then return none
  else
    match ← Prog.attempt (fails .selectPrivateConversation) none
        (fun db => (db, db.findPrivateConversation userId1 userId2)) with
    | some convId => return some convId
    | none =>
        match ← Prog.attempt (fails .insertConversation) none
            (fun db => (db.insertConversation .privateType).map id some) with
        | none => return none
        | some convId => do
            let _ ← insertMemberUnder fails convId userId1 .member
            let _ ← insertMemberUnder fails convId userId2 .member
            return some convId

/-- The loop of `createGroup`; false is a rollback. -/
def insertInitialMembersUnder (conversationId : Int) : List Int → List Int → Prog Db Bool
  | [], _ => pure true
  | memberId :: rest, added =>
      if maxGroupMembers ≤ added.length then pure true
      else if memberId ≤ 0 ∨ memberId ∈ added then
        insertInitialMembersUnder conversationId rest added
      else do
        if ← insertMemberUnder fails conversationId memberId .member then
          insertInitialMembersUnder conversationId rest (memberId :: added)
        else return false

/-- What `createGroup` does between `BEGIN` and `COMMIT`; `none` is a rollback. -/
def insertGroupRows (ownerId : Int) (groupName : String) (memberIds : List Int) :
    Prog Db (Option Int) := do
  match ← Prog.attempt (fails .insertConversation) none
      (fun db => (db.insertGroup groupName).map id some) with
  | none => return none
  | some convId => do
      if ← insertMemberUnder fails convId ownerId .owner then
        if ← insertInitialMembersUnder fails convId memberIds [ownerId] then return some convId
        else return none
      else return none

/-- `DatabaseManager::createGroup` where statements may fail. `ROLLBACK` fails only
where the transaction is rolled back already. -/
def createGroupUnder (ownerId : Int) (name : String) (memberIds : List Int) :
    Prog Db (Option Int) :=
  if ownerId ≤ 0 ∨ trimmed name = "" then pure none
  else
    Prog.transaction (fails .beginTransaction) (fails .commitTransaction)
      (insertGroupRows fails ownerId (trimmed name) memberIds)

/-- `DatabaseManager::addGroupMembers` where statements may fail: a lookup that does
finds nobody, and a count that does ends the call. -/
def addGroupMembersUnder (conversationId : Int) : List Int → List Int → Prog Db Bool
  | [], _ => pure true
  | userId :: rest, seen =>
      if userId ≤ 0 ∨ userId ∈ seen then addGroupMembersUnder conversationId rest seen
      else do
        if ← Prog.attempt (fails (.selectMember userId)) false
            (fun db => (db, db.isConversationMember conversationId userId)) then
          addGroupMembersUnder conversationId rest (userId :: seen)
        else
          match ← Prog.attempt (fails (.countMembers userId)) none
              (fun db => (db, some (db.memberCount conversationId))) with
          | none => return false
          | some count =>
              -- the limit is reached: those already added stay
              if maxGroupMembers ≤ count then return true
              else if ← insertMemberUnder fails conversationId userId .member then
                addGroupMembersUnder conversationId rest (userId :: seen)
              else return false

end

/-! ## Where no statement fails -/

section

variable (db : Db)

theorem exec_addContactUnder (userId contactUserId : Int) :
    (addContactUnder (fun _ => false) userId contactUserId).exec db =
      (addContact userId contactUserId).exec db := rfl

theorem exec_getOrCreatePrivateConversationUnder (userId1 userId2 : Int) :
    (getOrCreatePrivateConversationUnder (fun _ => false) userId1 userId2).exec db =
      (getOrCreatePrivateConversation userId1 userId2).exec db := by
  unfold getOrCreatePrivateConversationUnder getOrCreatePrivateConversation
  dsimp only
  split
  · rfl
  · rw [Prog.exec_bind, Prog.exec_bind, Prog.exec_attempt, if_neg Bool.false_ne_true,
      Prog.exec_query]
    cases db.findPrivateConversation userId1 userId2 with
    | some convId => rfl
    | none => rfl

theorem exec_insertInitialMembersUnder (conversationId : Int) (memberIds added : List Int) :
    Db.insertInitialMembers conversationId memberIds added db =
      let r := (insertInitialMembersUnder (fun _ => false) conversationId memberIds added).exec db
      if r.2 then some r.1 else none := by
  induction memberIds generalizing added db with
  | nil => rfl
  | cons memberId rest ih =>
      unfold Db.insertInitialMembers insertInitialMembersUnder
      split
      · rfl
      split
      · exact ih db added
      dsimp only
      rw [Prog.exec_bind]
      unfold insertMemberUnder
      rw [Prog.exec_attempt, if_neg Bool.false_ne_true]
      obtain ⟨db', inserted⟩ := db.insertMember conversationId memberId .member
      cases inserted with
      | false => rfl
      | true => exact ih db' (memberId :: added)

theorem exec_createGroupUnder (ownerId : Int) (name : String) (memberIds : List Int) :
    (createGroupUnder (fun _ => false) ownerId name memberIds).exec db =
      db.createGroup ownerId name memberIds := by
  unfold createGroupUnder Db.createGroup
  split
  · rfl
  unfold Prog.transaction
  rw [Prog.exec_call, if_neg Bool.false_ne_true]
  dsimp only
  unfold insertGroupRows
  rw [Prog.exec_bind, Prog.exec_attempt, if_neg Bool.false_ne_true]
  dsimp only [Prod.map, Db.insertGroup, id]
  rw [Prog.exec_bind]
  unfold insertMemberUnder
  rw [Prog.exec_attempt, if_neg Bool.false_ne_true]
  obtain ⟨owned, inserted⟩ := Db.insertMember (db.conversations.lastId + 1) ownerId .owner
    { db with
      conversations := db.conversations.insert fun id =>
        { id, type := .groupType, name := trimmed name, updatedAt := db.now } }
  cases inserted with
  | false => rfl
  | true =>
      dsimp only
      rw [if_pos rfl, Prog.exec_bind, exec_insertInitialMembersUnder]
      generalize Prog.exec _ owned = loop
      obtain ⟨db', complete⟩ := loop
      cases complete with
      | false => rfl
      | true => rfl

theorem exec_addGroupMembersUnder (conversationId : Int) (userIds seen : List Int) :
    (addGroupMembersUnder (fun _ => false) conversationId userIds seen).exec db =
      (addGroupMembers conversationId userIds seen).exec db := by
  induction userIds generalizing seen db with
  | nil => rfl
  | cons userId rest ih =>
      unfold addGroupMembersUnder addGroupMembers
      split
      · exact ih db seen
      rw [Prog.exec_bind, Prog.exec_bind, Prog.exec_attempt, if_neg Bool.false_ne_true,
        Prog.exec_query]
      dsimp only
      cases db.isConversationMember conversationId userId with
      | true => exact ih db (userId :: seen)
      | false =>
          rw [if_neg Bool.false_ne_true, if_neg Bool.false_ne_true, Prog.exec_bind, Prog.exec_bind,
            Prog.exec_attempt, if_neg Bool.false_ne_true, Prog.exec_query]
          dsimp only
          split
          · rfl
          unfold insertMemberUnder
          rw [Prog.exec_bind, Prog.exec_bind, Prog.exec_attempt, if_neg Bool.false_ne_true,
            Prog.exec_call]
          obtain ⟨db', inserted⟩ := db.insertMember conversationId userId .member
          cases inserted with
          | true => exact ih db' (userId :: seen)
          | false => rfl

end

/-! ## The property -/

/-- The users a list names, each once: ids are positive, and those of `seen` are left
out. -/
def listedUsers (userIds seen : List Int) : List Int :=
  (userIds.filter fun u => 0 < u ∧ u ∉ seen).eraseDups

/-- The three tables are as they were. -/
structure Db.RowsKept (db db' : Db) : Prop where
  contacts : db'.contacts = db.contacts
  conversations : db'.conversations = db.conversations
  members : db'.conversationMembers = db.conversationMembers

def Db.HasContact (db : Db) (userId contactUserId : Int) : Prop :=
  ∃ c ∈ db.contacts.rows, c.userId = userId ∧ c.contactUserId = contactUserId

def Db.HasMember (db : Db) (conversationId userId : Int) (role : MemberRole) : Prop :=
  ∃ m ∈ db.conversationMembers.rows, m.conversationId = conversationId ∧ m.userId = userId ∧
    m.role = role

/-- The group with its owner, and with those listed until the limit is reached. -/
structure Db.HasGroup (db : Db) (ownerId : Int) (name : String) (memberIds : List Int)
    (convId : Int) : Prop where
  group : ∃ c ∈ db.conversations.rows, c.id = convId ∧ c.type = .groupType ∧ c.name = trimmed name
  owner : db.HasMember convId ownerId .owner
  members : ∀ u ∈ (listedUsers memberIds [ownerId]).take (maxGroupMembers - 1),
    db.HasMember convId u .member

/-- The private conversation with both members. -/
structure Db.HasPrivate (db : Db) (userId1 userId2 convId : Int) : Prop where
  conversation : ∃ c ∈ db.conversations.rows, c.id = convId ∧ c.type = .privateType
  member1 : db.isConversationMember convId userId1 = true
  member2 : db.isConversationMember convId userId2 = true

/-- A call of one of the four functions. -/
inductive MultiRowWrite where
  | addContact (userId contactUserId : Int)
  | createGroup (ownerId : Int) (name : String) (memberIds : List Int)
  | addGroupMembers (conversationId : Int) (userIds : List Int)
  | getOrCreatePrivateConversation (userId1 userId2 : Int)

namespace MultiRowWrite

/-- A call that reports failure has left the tables as they were, and after one that
reports success all rows it is for are there. -/
def AllOrNothing (fails : WriteStatement → Bool) (db : Db) : MultiRowWrite → Prop
  | .addContact u v =>
      let r := (addContactUnder fails u v).exec db
      (r.2 = false → db.RowsKept r.1) ∧ (r.2 = true → r.1.HasContact u v ∧ r.1.HasContact v u)
  | .createGroup ownerId name memberIds =>
      let r := (createGroupUnder fails ownerId name memberIds).exec db
      (r.2 = none → db.RowsKept r.1) ∧
        ∀ convId, r.2 = some convId → r.1.HasGroup ownerId name memberIds convId
  | .addGroupMembers conversationId userIds =>
      let r := (addGroupMembersUnder fails conversationId userIds []).exec db
      (r.2 = false → db.RowsKept r.1) ∧
        (r.2 = true → ∀ u ∈ userIds, 0 < u → r.1.isConversationMember conversationId u = true ∨
          maxGroupMembers ≤ r.1.memberCount conversationId)
  | .getOrCreatePrivateConversation u v =>
      let r := (getOrCreatePrivateConversationUnder fails u v).exec db
      (r.2 = none → db.RowsKept r.1) ∧ ∀ convId, r.2 = some convId → r.1.HasPrivate u v convId

end MultiRowWrite

/-! ## The conditions -/

section

variable (fails : WriteStatement → Bool) (db : Db)

/-- The statement works, and its foreign keys hold. -/
def ContactInserts (userId contactUserId : Int) : Prop :=
  fails (.insertContact userId contactUserId) = false ∧
    (db.users.get userId).isSome = true ∧ (db.users.get contactUserId).isSome = true

/-- The user can become a member: the conversation and the user exist. -/
def Db.admitsMember (conversationId userId : Int) : Bool :=
  (db.getConversation conversationId).isSome && (db.users.get userId).isSome
    && !db.isConversationMember conversationId userId

/-- `addGroupMembers` finds the user among the members. -/
def skipsMember (conversationId userId : Int) : Bool :=
  !fails (.selectMember userId) && db.isConversationMember conversationId userId

/-- `addGroupMembers` adds the user, unless the limit is reached. -/
def joinsMember (conversationId userId : Int) : Bool :=
  !fails (.countMembers userId) && !fails (.insertMember userId)
    && db.admitsMember conversationId userId

/-- `addGroupMembers` gets by the listed users of `before`, and then no further: `userId`
is neither found nor added, with room for another member or no count of them. -/
structure StopsAt (conversationId : Int) (before : List Int) (userId : Int) : Prop where
  passed : ∀ u ∈ before, skipsMember fails db conversationId u = true ∨
    joinsMember fails db conversationId u = true
  stopped : skipsMember fails db conversationId userId = false ∧
    joinsMember fails db conversationId userId = false
  fit : before.countP (joinsMember fails db conversationId) = 0 ∨
    db.memberCount conversationId + before.countP (joinsMember fails db conversationId) ≤
      maxGroupMembers
  room : fails (.countMembers userId) = true ∨
    db.memberCount conversationId + before.countP (joinsMember fails db conversationId) <
      maxGroupMembers

end

namespace MultiRowWrite

/-- No row goes in before the statement whose failure ends the call; the conversation's
members, whose failing ends nothing, both go in. -/
def Whole (fails : WriteStatement → Bool) (db : Db) : MultiRowWrite → Prop
  | .addContact u v =>
      u = v ∨ ¬ContactInserts fails db u v ∨ fails (.insertContact v u) = false ∨
        db.HasContact u v
  | .createGroup .. => True
  | .addGroupMembers conversationId userIds =>
      ∀ before userId after, listedUsers userIds [] = before ++ userId :: after →
        StopsAt fails db conversationId before userId →
          ∀ u ∈ before, joinsMember fails db conversationId u = false
  | .getOrCreatePrivateConversation u v =>
      u = v ∨
        (fails .selectPrivateConversation = false ∧ (db.findPrivateConversation u v).isSome = true) ∨
        fails .insertConversation = true ∨
        ∀ w ∈ [u, v], (fails (.insertMember w) = false ∧ (db.users.get w).isSome = true) ∨
          db.isConversationMember (db.conversations.lastId + 1) w = true

end MultiRowWrite

section

variable {fails : WriteStatement → Bool} {db : Db}

theorem Db.RowsKept.refl (db : Db) : db.RowsKept db := ⟨rfl, rfl, rfl⟩

/-! ## Contacts -/

theorem insertContact_refused {u v : Int}
    (h : ¬((db.users.get u).isSome = true ∧ (db.users.get v).isSome = true)) :
    db.insertContact u v = (db, false) := by
  unfold Db.insertContact
  refine if_pos ?_
  rw [not_and_or] at h
  simpa only [Option.isNone_iff_eq_none, Option.not_isSome_iff_eq_none] using h

/-- The row is there afterwards; it is the only one that may be new. -/
structure ContactAdded (db db' : Db) (u v : Int) : Prop where
  users : db'.users = db.users
  added : db'.HasContact u v
  others : ∀ a b, db.HasContact a b → db'.HasContact a b
  kept : db.HasContact u v → db' = db

theorem insertContact_added {u v : Int} (hu : (db.users.get u).isSome = true)
    (hv : (db.users.get v).isSome = true) :
    (db.insertContact u v).2 = true ∧ ContactAdded db (db.insertContact u v).1 u v := by
  have hexist : ¬((db.users.get u).isNone = true ∨ (db.users.get v).isNone = true) := by
    simp [Option.isSome_iff_ne_none.mp hu, Option.isSome_iff_ne_none.mp hv]
  unfold Db.insertContact
  rw [if_neg hexist]
  split
  · rename_i hthere
    obtain ⟨c, hc, hpair⟩ := List.any_eq_true.mp hthere
    rw [Bool.and_eq_true, beq_iff_eq, beq_iff_eq] at hpair
    exact ⟨rfl, rfl, ⟨c, hc, hpair⟩, fun _ _ h => h, fun _ => rfl⟩
  · rename_i hnew
    refine ⟨rfl, rfl, ⟨_, Table.mem_insert.mpr (.inr rfl), rfl, rfl⟩, ?_, ?_⟩
    · rintro a b ⟨c, hc, hpair⟩
      exact ⟨c, Table.mem_insert.mpr (.inl hc), hpair⟩
    · rintro ⟨c, hc, hcu, hcv⟩
      refine absurd (List.any_eq_true.mpr ⟨c, hc, ?_⟩) hnew
      rw [hcu, hcv, beq_self_eq_true, beq_self_eq_true, Bool.and_self]

/-- Nothing has changed exactly when the row was there before. -/
theorem ContactAdded.rowsKept_iff {db' : Db} {u v : Int} (h : ContactAdded db db' u v) :
    db.RowsKept db' ↔ db.HasContact u v := by
  constructor
  · intro hkept
    obtain ⟨c, hc, hpair⟩ := h.added
    exact ⟨c, hkept.contacts ▸ hc, hpair⟩
  · intro hthere
    rw [h.kept hthere]
    exact .refl db

theorem addContact_allOrNothing_iff (u v : Int) :
    (MultiRowWrite.addContact u v).AllOrNothing fails db ↔
      (MultiRowWrite.addContact u v).Whole fails db := by
  unfold MultiRowWrite.AllOrNothing MultiRowWrite.Whole addContactUnder
  dsimp only
  by_cases hself : u = v
  · rw [if_pos hself]
    exact iff_of_true ⟨fun _ => .refl db, nofun⟩ (.inl hself)
  rw [if_neg hself, Prog.exec_bind, Prog.exec_attempt]
  by_cases hfirst : ContactInserts fails db u v
  · obtain ⟨hworks, hu, hv⟩ := hfirst
    obtain ⟨hok, hadded⟩ := insertContact_added hu hv
    rw [hworks, if_neg Bool.false_ne_true, hok]
    rw [Bool.not_true, if_neg Bool.false_ne_true, Prog.exec_attempt]
    cases hsecond : fails (.insertContact v u) with
    | true =>
        -- the row of the first statement stays
        rw [if_pos rfl]
        refine ⟨fun h => .inr (.inr (.inr (hadded.rowsKept_iff.mp (h.1 rfl)))), ?_⟩
        rintro (h | h | h | h)
        · exact absurd h hself
        · exact absurd ⟨hworks, hu, hv⟩ h
        · exact nomatch h
        · exact ⟨fun _ => hadded.rowsKept_iff.mpr h, nofun⟩
    | false =>
        rw [if_neg Bool.false_ne_true]
        rw [← hadded.users] at hu hv
        obtain ⟨hok', hadded'⟩ := insertContact_added hv hu
        rw [hok']
        exact iff_of_true ⟨nofun, fun _ => ⟨hadded'.others u v hadded.added, hadded'.added⟩⟩
          (.inr (.inr (.inl rfl)))
  · have hrefused : (if fails (.insertContact u v) = true then (db, false)
        else db.insertContact u v) = (db, false) := by
      split
      · rfl
      · rename_i hworks
        exact insertContact_refused fun hexist => hfirst ⟨by simpa using hworks, hexist⟩
    rw [hrefused]
    exact iff_of_true ⟨fun _ => .refl db, nofun⟩ (.inr (.inl hfirst))

/-! ## Members -/

/-- A row more. -/
def Db.withMember (db : Db) (conversationId userId : Int) (role : MemberRole) : Db :=
  { db with
    conversationMembers := db.conversationMembers.insert fun id =>
      { id, conversationId, userId, role, joinedAt := db.now } }

section

variable {conversationId userId u c : Int} {role role' : MemberRole}

theorem insertMember_eq : db.insertMember conversationId userId role =
    if db.admitsMember conversationId userId then (db.withMember conversationId userId role, true)
    else (db, false) := rfl

theorem isConversationMember_withMember :
    (db.withMember conversationId userId role).isConversationMember c u =
      (db.isConversationMember c u || (conversationId == c && userId == u)) := by
  unfold Db.isConversationMember Db.withMember Table.insert
  rw [List.any_append]
  simp

theorem memberCount_withMember :
    (db.withMember conversationId userId role).memberCount conversationId =
      db.memberCount conversationId + 1 := by
  unfold Db.memberCount Db.withMember Table.insert
  rw [List.countP_append]
  simp

theorem hasMember_withMember :
    (db.withMember conversationId userId role).HasMember conversationId userId role :=
  ⟨_, Table.mem_insert.mpr (.inr rfl), rfl, rfl, rfl⟩

theorem Db.HasMember.withMember (h : db.HasMember c u role) :
    (db.withMember conversationId userId role').HasMember c u role := by
  obtain ⟨m, hm, hrow⟩ := h
  exact ⟨m, Table.mem_insert.mpr (.inl hm), hrow⟩

/-- An insertion that may fail adds the row or changes nothing. -/
theorem exec_insertMemberUnder : (insertMemberUnder fails conversationId userId role).exec db =
    if fails (.insertMember userId) = false ∧ db.admitsMember conversationId userId = true then
      (db.withMember conversationId userId role, true)
    else (db, false) := by
  unfold insertMemberUnder
  rw [Prog.exec_attempt, insertMember_eq]
  cases fails (.insertMember userId) <;> cases db.admitsMember conversationId userId <;> rfl

end

/-! ## Private conversations -/

/-- After its insertion a user is a member if the statement works and the user exists, or
was one already. -/
theorem exec_insertMemberUnder_member {conversationId userId : Int} {role : MemberRole}
    (hconv : (db.getConversation conversationId).isSome = true) :
    let db' := ((insertMemberUnder fails conversationId userId role).exec db).1
    db'.conversations = db.conversations ∧ db'.users = db.users ∧
      ∀ u, db'.isConversationMember conversationId u = true ↔
        db.isConversationMember conversationId u = true ∨
          u = userId ∧ fails (.insertMember userId) = false ∧ (db.users.get userId).isSome = true := by
  dsimp only
  rw [exec_insertMemberUnder]
  split
  · rename_i h
    obtain ⟨hworks, hadmits⟩ := h
    have huser : (db.users.get userId).isSome = true := by
      simp only [Db.admitsMember, Bool.and_eq_true] at hadmits
      exact hadmits.1.2
    refine ⟨rfl, rfl, fun u => ?_⟩
    rw [isConversationMember_withMember, Bool.or_eq_true, Bool.and_eq_true, beq_iff_eq, beq_iff_eq]
    exact or_congr_right ⟨fun h => ⟨h.2.symm, hworks, huser⟩, fun h => ⟨rfl, h.1.symm⟩⟩
  · rename_i h
    refine ⟨rfl, rfl, fun u => ⟨.inl, ?_⟩⟩
    rintro (hmember | ⟨rfl, hworks, huser⟩)
    · exact hmember
    · -- nothing but a row of this member can have been in the way
      by_contra hnone
      refine h ⟨hworks, ?_⟩
      rw [Db.admitsMember, hconv, huser, Bool.not_eq_true _ |>.mp hnone]
      rfl

theorem getConversation_some {id : Int} {conv : ConversationRow}
    (h : db.getConversation id = some conv) : conv ∈ db.conversations.rows ∧ conv.id = id :=
  Table.get_eq_some.mp h

theorem findPrivateConversation_hasPrivate {u v id : Int}
    (h : db.findPrivateConversation u v = some id) : db.HasPrivate u v id := by
  obtain ⟨row, hrow, rfl⟩ := Option.map_eq_some_iff.mp h
  have hfound := List.find?_some hrow
  simp only [Bool.and_eq_true, beq_iff_eq] at hfound
  obtain ⟨⟨huser, hmember⟩, htype⟩ := hfound
  obtain ⟨conv, hconv, hprivate⟩ := Option.map_eq_some_iff.mp htype
  obtain ⟨hmem, hid⟩ := getConversation_some hconv
  refine ⟨⟨conv, hmem, hid, hprivate⟩, ?_, hmember⟩
  exact (isConversationMember_iff _ _).mpr ⟨row, List.mem_of_find?_eq_some hrow, rfl, huser⟩

/-- A new private conversation has both members exactly when both insertions leave them
there. -/
theorem insertPrivate_hasPrivate_iff {u v : Int} :
    let convId := db.conversations.lastId + 1
    let db₁ := (db.insertConversation .privateType).1
    let db₂ := ((insertMemberUnder fails convId u .member).exec db₁).1
    (((insertMemberUnder fails convId v .member).exec db₂).1).HasPrivate u v convId ↔
      ∀ w ∈ [u, v], (fails (.insertMember w) = false ∧ (db.users.get w).isSome = true) ∨
        db.isConversationMember convId w = true := by
  dsimp only
  have hnew : ((db.insertConversation .privateType).1.getConversation
      (db.conversations.lastId + 1)).isSome = true := by
    unfold Db.insertConversation Db.getConversation
    rw [Table.get_insert, if_pos rfl]
    rfl
  obtain ⟨hconvs, husers, hfirst⟩ := @exec_insertMemberUnder_member fails _ _ u .member hnew
  have hnew' := hnew
  unfold Db.getConversation at hnew'
  rw [← hconvs] at hnew'
  obtain ⟨hconvs', _, hsecond⟩ := @exec_insertMemberUnder_member fails _ _ v .member hnew'
  rw [husers] at hsecond
  have hmember : ∀ w, (db.insertConversation .privateType).1.isConversationMember
      (db.conversations.lastId + 1) w = db.isConversationMember (db.conversations.lastId + 1) w :=
    fun _ => rfl
  have huser : ∀ w, (db.insertConversation .privateType).1.users.get w = db.users.get w :=
    fun _ => rfl
  rw [List.forall_mem_cons, List.forall_mem_singleton]
  constructor
  · intro h
    have hu := h.member1
    have hv := h.member2
    rw [hsecond, hfirst, hmember, huser, huser] at hu hv
    constructor
    · rcases hu with (hu | ⟨_, hu⟩) | ⟨rfl, hu⟩
      · exact .inr hu
      · exact .inl hu
      · exact .inl hu
    · rcases hv with (hv | ⟨rfl, hv⟩) | ⟨_, hv⟩
      · exact .inr hv
      · exact .inl hv
      · exact .inl hv
  · rintro ⟨hu, hv⟩
    refine ⟨?_, ?_, ?_⟩
    · rw [hconvs', hconvs]
      exact ⟨_, Table.mem_insert.mpr (.inr rfl), rfl, rfl⟩
    · rw [hsecond, hfirst, hmember, huser]
      rcases hu with hu | hu
      · exact .inl (.inr ⟨rfl, hu⟩)
      · exact .inl (.inl hu)
    · rw [hsecond, hfirst, hmember, huser, huser]
      rcases hv with hv | hv
      · exact .inr ⟨rfl, hv⟩
      · exact .inl (.inl hv)

theorem getOrCreatePrivateConversation_allOrNothing_iff (u v : Int) :
    (MultiRowWrite.getOrCreatePrivateConversation u v).AllOrNothing fails db ↔
      (MultiRowWrite.getOrCreatePrivateConversation u v).Whole fails db := by
  unfold MultiRowWrite.AllOrNothing MultiRowWrite.Whole getOrCreatePrivateConversationUnder
  dsimp only
  by_cases hself : u = v
  · rw [if_pos hself]
    exact iff_of_true ⟨fun _ => .refl db, nofun⟩ (.inl hself)
  rw [if_neg hself, Prog.exec_bind, Prog.exec_attempt]
  by_cases hfound : fails .selectPrivateConversation = false ∧
      (db.findPrivateConversation u v).isSome = true
  · obtain ⟨hworks, hsome⟩ := hfound
    obtain ⟨id, hid⟩ := Option.isSome_iff_exists.mp hsome
    rw [hworks, if_neg Bool.false_ne_true, hid]
    refine iff_of_true ⟨nofun, ?_⟩ (.inr (.inl ⟨rfl, rfl⟩))
    rintro _ ⟨⟩
    exact findPrivateConversation_hasPrivate hid
  have hnone : (if fails .selectPrivateConversation = true then (db, none)
      else (db, db.findPrivateConversation u v)) = (db, none) := by
    split
    · rfl
    · rename_i hworks
      rw [Option.not_isSome_iff_eq_none.mp fun hsome => hfound ⟨by simpa using hworks, hsome⟩]
  rw [hnone]
  dsimp only
  rw [Prog.exec_bind, Prog.exec_attempt]
  cases hinsert : fails .insertConversation with
  | true =>
      rw [if_pos rfl]
      exact iff_of_true ⟨fun _ => .refl db, nofun⟩ (.inr (.inr (.inl rfl)))
  | false =>
      rw [if_neg Bool.false_ne_true]
      have hpair := @insertPrivate_hasPrivate_iff fails db u v
      dsimp only at hpair
      constructor
      · rintro ⟨-, h⟩
        exact .inr (.inr (.inr (hpair.mp (h _ rfl))))
      · rintro (h | h | h | h)
        · exact absurd h hself
        · exact absurd h hfound
        · exact nomatch h
        · refine ⟨nofun, ?_⟩
          rintro _ ⟨⟩
          exact hpair.mpr h

/-! ## Lists of users -/

section

variable {userIds seen : List Int} {u : Int}

theorem mem_listedUsers : u ∈ listedUsers userIds seen ↔ u ∈ userIds ∧ 0 < u ∧ u ∉ seen := by
  unfold listedUsers
  rw [List.mem_eraseDups, List.mem_filter, decide_eq_true_iff]

theorem listedUsers_cons : listedUsers (u :: userIds) seen =
    if u ≤ 0 ∨ u ∈ seen then listedUsers userIds seen else u :: listedUsers userIds (u :: seen) := by
  unfold listedUsers
  split
  · rename_i hskip
    rw [List.filter_cons_of_neg]
    rw [decide_eq_true_iff]
    rintro ⟨hpos, hunseen⟩
    rcases hskip with hle | hseen
    · omega
    · exact hunseen hseen
  · rename_i hlisted
    rw [not_or, not_le] at hlisted
    rw [List.filter_cons_of_pos (by rw [decide_eq_true_iff]; exact hlisted), List.eraseDups_cons,
      List.filter_filter]
    congr 2
    -- what comes after is neither of `seen` nor `u` again
    apply List.filter_congr
    intro w _
    by_cases hw : w = u <;> simp [hw]

/-- The users listed after another are others. -/
theorem ne_of_listed {listed : List Int} (h : listedUsers userIds (u :: seen) = listed) :
    ∀ w ∈ listed, u ≠ w := by
  intro w hw huw
  rw [← h, mem_listedUsers] at hw
  exact hw.2.2 (huw ▸ List.mem_cons_self)

end

/-! ## Groups -/

/-- The conversations are the same, and no member is lost. -/
structure MembersGrow (db db' : Db) : Prop where
  conversations : db'.conversations = db.conversations
  members : ∀ c u role, db.HasMember c u role → db'.HasMember c u role

theorem exec_insertMemberUnder_grow {conversationId userId : Int} {role : MemberRole}
    (hok : ((insertMemberUnder fails conversationId userId role).exec db).2 = true) :
    MembersGrow db ((insertMemberUnder fails conversationId userId role).exec db).1 ∧
      ((insertMemberUnder fails conversationId userId role).exec db).1.HasMember conversationId
        userId role := by
  rw [exec_insertMemberUnder] at hok ⊢
  split at hok
  · rename_i hinserts
    rw [if_pos hinserts]
    exact ⟨⟨rfl, fun _ _ _ h => h.withMember⟩, hasMember_withMember⟩
  · exact nomatch hok

/-- If no insertion is refused, the listed users are in the group up to the limit. -/
theorem insertInitialMembersUnder_complete {conversationId : Int} {memberIds added : List Int}
    (hok : ((insertInitialMembersUnder fails conversationId memberIds added).exec db).2 = true) :
    let db' := ((insertInitialMembersUnder fails conversationId memberIds added).exec db).1
    MembersGrow db db' ∧
      ∀ u ∈ (listedUsers memberIds added).take (maxGroupMembers - added.length),
        db'.HasMember conversationId u .member := by
  induction memberIds generalizing added db with
  | nil => exact ⟨⟨rfl, fun _ _ _ h => h⟩, fun u hu => by simp [listedUsers] at hu⟩
  | cons memberId rest ih =>
      dsimp only
      unfold insertInitialMembersUnder at hok ⊢
      rw [listedUsers_cons]
      by_cases hfull : maxGroupMembers ≤ added.length
      · rw [if_pos hfull, Nat.sub_eq_zero_of_le hfull, List.take_zero]
        exact ⟨⟨rfl, fun _ _ _ h => h⟩, nofun⟩
      rw [if_neg hfull] at hok ⊢
      by_cases hskip : memberId ≤ 0 ∨ memberId ∈ added
      · rw [if_pos hskip] at hok
        rw [if_pos hskip, if_pos hskip]
        exact ih hok
      rw [if_neg hskip, Prog.exec_bind] at hok
      rw [if_neg hskip, if_neg hskip, Prog.exec_bind]
      have hroom : maxGroupMembers - added.length =
          (maxGroupMembers - (memberId :: added).length) + 1 := by
        rw [List.length_cons]
        omega
      cases hinserted : ((insertMemberUnder fails conversationId memberId .member).exec db).2 with
      | false =>
          rw [hinserted, if_neg Bool.false_ne_true] at hok
          exact nomatch hok
      | true =>
          rw [hinserted, if_pos rfl] at hok
          rw [if_pos rfl, hroom, List.take_succ_cons]
          obtain ⟨hgrow, hmember⟩ := exec_insertMemberUnder_grow hinserted
          obtain ⟨hgrow', hothers⟩ := ih hok
          refine ⟨⟨hgrow'.conversations.trans hgrow.conversations,
            fun c u role h => hgrow'.members c u role (hgrow.members c u role h)⟩, ?_⟩
          intro u hu
          rcases List.mem_cons.mp hu with rfl | hu
          · exact hgrow'.members _ _ _ hmember
          · exact hothers u hu

/-- What is committed is a whole group. -/
theorem insertGroupRows_hasGroup {ownerId convId : Int} {name : String} {memberIds : List Int}
    {db' : Db} (h : (insertGroupRows fails ownerId (trimmed name) memberIds).exec db =
      (db', some convId)) : db'.HasGroup ownerId name memberIds convId := by
  unfold insertGroupRows at h
  rw [Prog.exec_bind, Prog.exec_attempt] at h
  cases hinsert : fails .insertConversation with
  | true =>
      rw [hinsert, if_pos rfl] at h
      exact nomatch h
  | false =>
      rw [hinsert, if_neg Bool.false_ne_true] at h
      dsimp only [Prod.map, id] at h
      rw [Prog.exec_bind] at h
      cases howner : ((insertMemberUnder fails (db.insertGroup (trimmed name)).2 ownerId .owner).exec
          (db.insertGroup (trimmed name)).1).2 with
      | false =>
          rw [howner, if_neg Bool.false_ne_true] at h
          exact nomatch h
      | true =>
          rw [howner, if_pos rfl, Prog.exec_bind] at h
          obtain ⟨hgrow, howns⟩ := exec_insertMemberUnder_grow howner
          cases hloop : ((insertInitialMembersUnder fails (db.insertGroup (trimmed name)).2 memberIds
              [ownerId]).exec ((insertMemberUnder fails (db.insertGroup (trimmed name)).2 ownerId
                .owner).exec (db.insertGroup (trimmed name)).1).1).2 with
          | false =>
              rw [hloop, if_neg Bool.false_ne_true] at h
              exact nomatch h
          | true =>
              rw [hloop, if_pos rfl, Prog.exec_pure] at h
              obtain ⟨hgrow', hmembers⟩ := insertInitialMembersUnder_complete hloop
              obtain ⟨rfl, hid⟩ := Prod.mk.inj h
              obtain rfl := Option.some.inj hid
              refine ⟨?_, hgrow'.members _ _ _ howns, hmembers⟩
              rw [hgrow'.conversations, hgrow.conversations]
              exact ⟨_, Table.mem_insert.mpr (.inr rfl), rfl, rfl, rfl⟩

theorem createGroup_allOrNothing (ownerId : Int) (name : String) (memberIds : List Int) :
    (MultiRowWrite.createGroup ownerId name memberIds).AllOrNothing fails db := by
  unfold MultiRowWrite.AllOrNothing createGroupUnder
  dsimp only
  split
  · exact ⟨fun _ => .refl db, nofun⟩
  rcases Prog.exec_transaction (fails .beginTransaction) (fails .commitTransaction)
      (insertGroupRows fails ownerId (trimmed name) memberIds) db with hundone | ⟨id, hdone, hresult⟩
  · rw [hundone]
    exact ⟨fun _ => .refl db, nofun⟩
  · rw [hresult]
    refine ⟨nofun, ?_⟩
    rintro _ ⟨⟩
    exact insertGroupRows_hasGroup hdone

/-! ## Adding members -/

section

variable {conversationId u : Int} {rest seen before : List Int}

/-- A listed user is passed over, or counted before and then inserted. -/
theorem exec_addGroupMembersUnder_cons (hlisted : ¬(u ≤ 0 ∨ u ∈ seen)) :
    (addGroupMembersUnder fails conversationId (u :: rest) seen).exec db =
      if skipsMember fails db conversationId u = true then
        (addGroupMembersUnder fails conversationId rest (u :: seen)).exec db
      else if fails (.countMembers u) = true then (db, false)
      else if maxGroupMembers ≤ db.memberCount conversationId then (db, true)
      else if joinsMember fails db conversationId u = true then
        (addGroupMembersUnder fails conversationId rest (u :: seen)).exec
          (db.withMember conversationId u .member)
      else (db, false) := by
  have hlookup : (if fails (.selectMember u) = true then (db, false)
      else (db, db.isConversationMember conversationId u)) =
        (db, skipsMember fails db conversationId u) := by
    unfold skipsMember
    cases fails (.selectMember u) <;> rfl
  rw [addGroupMembersUnder, if_neg hlisted, Prog.exec_bind, Prog.exec_attempt, hlookup]
  dsimp only
  split
  · rfl
  rw [Prog.exec_bind, Prog.exec_attempt]
  cases hcount : fails (.countMembers u) with
  | true => rfl
  | false =>
      rw [if_neg Bool.false_ne_true, if_neg Bool.false_ne_true]
      dsimp only
      split
      · rfl
      rw [Prog.exec_bind, exec_insertMemberUnder]
      have hjoins : joinsMember fails db conversationId u =
          (!fails (.insertMember u) && db.admitsMember conversationId u) := by
        unfold joinsMember
        rw [hcount, Bool.not_false, Bool.true_and]
      rw [hjoins]
      cases fails (.insertMember u) <;> cases db.admitsMember conversationId u <;> rfl

/-- Who is in already does not join. -/
theorem joinsMember_of_skips (h : skipsMember fails db conversationId u = true) :
    joinsMember fails db conversationId u = false := by
  unfold skipsMember at h
  rw [Bool.and_eq_true] at h
  unfold joinsMember Db.admitsMember
  rw [h.2]
  simp

/-- One member more changes nothing for the others. -/
theorem skipsMember_withMember {w : Int} (hw : w ≠ u) :
    skipsMember fails (db.withMember conversationId u .member) conversationId w =
      skipsMember fails db conversationId w := by
  have hne : (u == w) = false := by simpa using hw.symm
  unfold skipsMember
  rw [isConversationMember_withMember, hne, Bool.and_false, Bool.or_false]

theorem joinsMember_withMember {w : Int} (hw : w ≠ u) :
    joinsMember fails (db.withMember conversationId u .member) conversationId w =
      joinsMember fails db conversationId w := by
  have hne : (u == w) = false := by simpa using hw.symm
  unfold joinsMember Db.admitsMember
  rw [isConversationMember_withMember, hne, Bool.and_false, Bool.or_false]
  rfl

theorem countP_joins_withMember {w : Int} (hw : w ∉ before) :
    before.countP (joinsMember fails (db.withMember conversationId w .member) conversationId) =
      before.countP (joinsMember fails db conversationId) := by
  refine List.countP_congr fun x hx => ?_
  have hne : x ≠ w := fun h => hw (h ▸ hx)
  rw [joinsMember_withMember hne]

/-- Past a user who is in already. -/
theorem stopsAt_skip {w : Int} (hskip : skipsMember fails db conversationId w = true) :
    StopsAt fails db conversationId (w :: before) u ↔ StopsAt fails db conversationId before u := by
  have hcount : (w :: before).countP (joinsMember fails db conversationId) =
      before.countP (joinsMember fails db conversationId) :=
    List.countP_cons_of_neg (by rw [joinsMember_of_skips hskip]; exact Bool.false_ne_true)
  constructor
  · intro h
    refine ⟨fun x hx => h.passed x (List.mem_cons_of_mem _ hx), h.stopped, ?_, ?_⟩
    · rw [← hcount]
      exact h.fit
    · rw [← hcount]
      exact h.room
  · intro h
    refine ⟨List.forall_mem_cons.mpr ⟨.inl hskip, h.passed⟩, h.stopped, ?_, ?_⟩
    · rw [hcount]
      exact h.fit
    · rw [hcount]
      exact h.room

/-- Past a user who is added. -/
theorem stopsAt_join {w : Int} (hjoin : joinsMember fails db conversationId w = true)
    (hroom : db.memberCount conversationId < maxGroupMembers) (hbefore : w ∉ before) (hu : w ≠ u) :
    StopsAt fails db conversationId (w :: before) u ↔
      StopsAt fails (db.withMember conversationId w .member) conversationId before u := by
  have hcount : (w :: before).countP (joinsMember fails db conversationId) =
      before.countP (joinsMember fails (db.withMember conversationId w .member) conversationId)
        + 1 := by
    rw [List.countP_cons_of_pos hjoin, countP_joins_withMember hbefore]
  have hpassed : ∀ x ∈ before,
      (skipsMember fails (db.withMember conversationId w .member) conversationId x = true ∨
        joinsMember fails (db.withMember conversationId w .member) conversationId x = true) ↔
      (skipsMember fails db conversationId x = true ∨
        joinsMember fails db conversationId x = true) := by
    intro x hx
    have hxw : x ≠ w := fun hxw => hbefore (hxw ▸ hx)
    rw [skipsMember_withMember hxw, joinsMember_withMember hxw]
  constructor
  · rintro ⟨hpass, hstop, hfit, hmore⟩
    rw [hcount] at hfit hmore
    refine ⟨fun x hx => (hpassed x hx).mpr (hpass x (List.mem_cons_of_mem _ hx)), ?_, ?_, ?_⟩
    · rw [skipsMember_withMember hu.symm, joinsMember_withMember hu.symm]
      exact hstop
    · rw [memberCount_withMember]
      omega
    · rw [memberCount_withMember]
      exact hmore.imp_right fun h => by omega
  · rintro ⟨hpass, hstop, hfit, hmore⟩
    rw [memberCount_withMember] at hfit hmore
    rw [skipsMember_withMember hu.symm, joinsMember_withMember hu.symm] at hstop
    refine ⟨?_, hstop, ?_, ?_⟩
    · exact List.forall_mem_cons.mpr ⟨.inr hjoin, fun x hx => (hpassed x hx).mp (hpass x hx)⟩
    · rw [hcount]
      omega
    · rw [hcount]
      exact hmore.imp_right fun h => by omega

/-- Where the call stops it reports failure, with those before it added. -/
theorem addGroupMembersUnder_stops {userIds after : List Int}
    (hlist : listedUsers userIds seen = before ++ u :: after)
    (hstops : StopsAt fails db conversationId before u) :
    let r := (addGroupMembersUnder fails conversationId userIds seen).exec db
    r.2 = false ∧ r.1.memberCount conversationId = db.memberCount conversationId +
      before.countP (joinsMember fails db conversationId) ∧
      ((∀ w ∈ before, joinsMember fails db conversationId w = false) → r.1 = db) := by
  dsimp only
  induction userIds generalizing seen before db with
  | nil => simp [listedUsers] at hlist
  | cons w rest ih =>
      rw [listedUsers_cons] at hlist
      by_cases hlisted : w ≤ 0 ∨ w ∈ seen
      · rw [if_pos hlisted] at hlist
        rw [addGroupMembersUnder, if_pos hlisted]
        exact ih hlist hstops
      rw [if_neg hlisted] at hlist
      rw [exec_addGroupMembersUnder_cons hlisted]
      cases before with
      | nil =>
          obtain ⟨rfl, -⟩ := List.cons.inj hlist
          rw [if_neg (by simp [hstops.stopped.1])]
          split
          · exact ⟨rfl, rfl, fun _ => rfl⟩
          rename_i hcounted
          have hroom : ¬maxGroupMembers ≤ db.memberCount conversationId := by
            have := hstops.room.resolve_left hcounted
            rw [List.countP_nil] at this
            omega
          rw [if_neg hroom, if_neg (by simp [hstops.stopped.2])]
          exact ⟨rfl, rfl, fun _ => rfl⟩
      | cons x before =>
          rw [List.cons_append] at hlist
          obtain ⟨rfl, hrest⟩ := List.cons.inj hlist
          have hothers := ne_of_listed hrest
          rcases hstops.passed w List.mem_cons_self with hskip | hjoin
          · have hnot := joinsMember_of_skips hskip
            rw [if_pos hskip, List.countP_cons_of_neg (by rw [hnot]; exact Bool.false_ne_true)]
            obtain ⟨hfalse, hcount, hsame⟩ := ih hrest ((stopsAt_skip hskip).mp hstops)
            exact ⟨hfalse, hcount, fun h => hsame (List.forall_mem_cons.mp h).2⟩
          · have hskip : ¬skipsMember fails db conversationId w = true := fun h => by
              rw [joinsMember_of_skips h] at hjoin
              exact nomatch hjoin
            have hcounts : ¬fails (.countMembers w) = true := by
              unfold joinsMember at hjoin
              rw [Bool.and_eq_true, Bool.and_eq_true, Bool.not_eq_true'] at hjoin
              rw [hjoin.1.1]
              exact Bool.false_ne_true
            have hroom : db.memberCount conversationId < maxGroupMembers := by
              have := hstops.fit
              rw [List.countP_cons_of_pos hjoin] at this
              omega
            rw [if_neg hskip, if_neg hcounts, if_neg (by omega), if_pos hjoin]
            have hbefore : w ∉ before := fun h => hothers w (List.mem_append_left _ h) rfl
            have hu : w ≠ u := hothers u (List.mem_append_right _ List.mem_cons_self)
            obtain ⟨hfalse, hcount, -⟩ := ih hrest ((stopsAt_join hjoin hroom hbefore hu).mp hstops)
            refine ⟨hfalse, ?_, fun h => ?_⟩
            · rw [hcount, memberCount_withMember, List.countP_cons_of_pos hjoin,
                countP_joins_withMember hbefore]
              omega
            · have := h w List.mem_cons_self
              rw [hjoin] at this
              exact nomatch this

/-- Where the call stops nowhere it reports success: every listed user is a member, or
the limit is reached. -/
theorem addGroupMembersUnder_succeeds {userIds : List Int}
    (hnever : ∀ before u after, listedUsers userIds seen = before ++ u :: after →
      ¬StopsAt fails db conversationId before u) :
    let r := (addGroupMembersUnder fails conversationId userIds seen).exec db
    r.2 = true ∧ (∀ w, db.isConversationMember conversationId w = true →
        r.1.isConversationMember conversationId w = true) ∧
      ∀ w ∈ listedUsers userIds seen, r.1.isConversationMember conversationId w = true ∨
        maxGroupMembers ≤ r.1.memberCount conversationId := by
  dsimp only
  induction userIds generalizing seen db with
  | nil => exact ⟨rfl, fun _ h => h, nofun⟩
  | cons u rest ih =>
      rw [listedUsers_cons] at hnever ⊢
      by_cases hlisted : u ≤ 0 ∨ u ∈ seen
      · rw [if_pos hlisted] at hnever ⊢
        rw [addGroupMembersUnder, if_pos hlisted]
        exact ih hnever
      rw [if_neg hlisted] at hnever ⊢
      rw [exec_addGroupMembersUnder_cons hlisted, List.forall_mem_cons]
      have hhere := hnever [] u _ rfl
      by_cases hskip : skipsMember fails db conversationId u = true
      · rw [if_pos hskip]
        obtain ⟨hok, hkeeps, hmembers⟩ := @ih db (u :: seen) fun before x after hlist hstops =>
          hnever (u :: before) x after (by rw [hlist]; rfl) ((stopsAt_skip hskip).mpr hstops)
        refine ⟨hok, hkeeps, .inl (hkeeps u ?_), hmembers⟩
        unfold skipsMember at hskip
        exact (Bool.and_eq_true _ _ |>.mp hskip).2
      rw [if_neg hskip]
      -- not found: counted, and inserted if there is room
      have hcounts : ¬fails (.countMembers u) = true := fun hfails =>
        hhere ⟨nofun, ⟨Bool.not_eq_true _ |>.mp hskip, by simp [joinsMember, hfails]⟩, .inl rfl,
          .inl hfails⟩
      rw [if_neg hcounts]
      by_cases hfull : maxGroupMembers ≤ db.memberCount conversationId
      · rw [if_pos hfull]
        exact ⟨rfl, fun _ h => h, .inr hfull, fun _ _ => .inr hfull⟩
      have hjoin : joinsMember fails db conversationId u = true := by
        by_contra hnot
        refine hhere ⟨nofun, ⟨Bool.not_eq_true _ |>.mp hskip, Bool.not_eq_true _ |>.mp hnot⟩,
          .inl rfl, .inr ?_⟩
        rw [List.countP_nil]
        omega
      rw [if_neg hfull, if_pos hjoin]
      obtain ⟨hok, hkeeps, hmembers⟩ := @ih (db.withMember conversationId u .member) (u :: seen)
        fun before x after hlist hstops => by
          have hothers := ne_of_listed hlist
          exact hnever (u :: before) x after (by rw [hlist]; rfl)
            ((stopsAt_join hjoin (by omega) (fun h => hothers u (List.mem_append_left _ h) rfl)
              (hothers x (List.mem_append_right _ List.mem_cons_self))).mpr hstops)
      refine ⟨hok, fun w hw => hkeeps w ?_, .inl (hkeeps u ?_), hmembers⟩
      · rw [isConversationMember_withMember, hw, Bool.true_or]
      · rw [isConversationMember_withMember, beq_self_eq_true, beq_self_eq_true, Bool.and_self,
          Bool.or_true]

theorem addGroupMembers_allOrNothing_iff (userIds : List Int) :
    (MultiRowWrite.addGroupMembers conversationId userIds).AllOrNothing fails db ↔
      (MultiRowWrite.addGroupMembers conversationId userIds).Whole fails db := by
  unfold MultiRowWrite.AllOrNothing MultiRowWrite.Whole
  dsimp only
  by_cases hstops : ∃ before u after, listedUsers userIds [] = before ++ u :: after ∧
      StopsAt fails db conversationId before u
  · constructor
    · rintro ⟨hkept, -⟩ before u after hlist hstops w hw
      obtain ⟨hfalse, hcount, -⟩ := addGroupMembersUnder_stops hlist hstops
      have hsame : db.memberCount conversationId = ((addGroupMembersUnder fails conversationId
          userIds []).exec db).1.memberCount conversationId := by
        unfold Db.memberCount
        rw [(hkept hfalse).members]
      have hnone : before.countP (joinsMember fails db conversationId) = 0 := by omega
      exact Bool.not_eq_true _ |>.mp (List.countP_eq_zero.mp hnone w hw)
    · intro hwhole
      obtain ⟨before, u, after, hlist, hstops⟩ := hstops
      obtain ⟨hfalse, -, hsame⟩ := addGroupMembersUnder_stops hlist hstops
      rw [hfalse, hsame (hwhole before u after hlist hstops)]
      exact ⟨fun _ => .refl db, nofun⟩
  · have hnever : ∀ before u after, listedUsers userIds [] = before ++ u :: after →
        ¬StopsAt fails db conversationId before u :=
      fun before u after hlist h => hstops ⟨before, u, after, hlist, h⟩
    obtain ⟨hok, -, hmembers⟩ := addGroupMembersUnder_succeeds hnever
    refine iff_of_true ⟨fun hfalse => ?_, fun _ w hw hpos => ?_⟩
      fun before u after hlist h => absurd h (hnever before u after hlist)
    · rw [hok] at hfalse
      exact nomatch hfalse
    · exact hmembers w (mem_listedUsers.mpr ⟨hw, hpos, nofun⟩)

end

/-- **All or nothing.** In every state and under every pattern of failing statements, each
of the four writes leaves all of its rows with success and none with failure exactly when
it is whole. -/
theorem multiRowWrite_allOrNothing_iff (fails : WriteStatement → Bool) (db : Db)
    (op : MultiRowWrite) : op.AllOrNothing fails db ↔ op.Whole fails db := by
  cases op with
  | addContact u v => exact addContact_allOrNothing_iff u v
  | createGroup ownerId name memberIds =>
      exact iff_of_true (createGroup_allOrNothing ownerId name memberIds) trivial
  | addGroupMembers conversationId userIds => exact addGroupMembers_allOrNothing_iff userIds
  | getOrCreatePrivateConversation u v => exact getOrCreatePrivateConversation_allOrNothing_iff u v

end

/-! ## One direction only -/

/-- Alice and bob, who are no contacts. -/
def aliceAndBob : Db where
  users := .ofRows [{ id := 1, username := "alice" }, { id := 2, username := "bob" }]

/-- The second insertion fails: bob is alice's contact and she is not his, and the call
reports failure. -/
theorem addContact_leaves_half : ¬(MultiRowWrite.addContact 1 2).AllOrNothing
    (fun statement => statement == .insertContact 2 1) aliceAndBob := by
  intro h
  have hkept := h.1 (by decide +kernel)
  have hnone : ((addContactUnder (fun statement => statement == .insertContact 2 1) 1 2).exec
      aliceAndBob).1.contacts.rows = [] := by
    rw [hkept.contacts]
    rfl
  exact absurd hnone (by decide +kernel)

end XYChat.Server
