import XYChat.Server.Frames

/-!
# Who may change the members of a group

Requests of all types are handled one at a time. What a request does to the
members of a group follows from its type: four handlers change member rows, each
under its own check, and the others leave every user and role as it is.
-/

namespace XYChat.Server

open XYChat.Lib
open XYChat.Lib.Prog

/-! ## What a request may do -/

/-- The users of a conversation with their roles, row by row. -/
def Db.memberRoles (db : Db) (g : Int) : List (Int × MemberRole) :=
  (db.conversationMembers.rows.filter (·.conversationId == g)).map fun r => (r.userId, r.role)

/-- Where a role stands. -/
def MemberRole.rank : MemberRole → Nat
  | .owner => 2
  | .admin => 1
  | .member => 0

/-- The handlers that change member rows of groups. -/
def Handler.changesMembers : Handler → Bool
  | .createGroup | .inviteGroupMembers | .leaveGroup | .kickGroupMember => true
  | _ => false

section

variable (conn : Connection) (request : Json) (db db' : Db) (g u : Int)

/-- Somebody becomes a member: as creator or listed member of a new group, or
invited by a member. -/
def MayJoin : Handler → Prop
  | .createGroup => db.conversationType g = none ∧ (u = conn.authenticatedUserId ∨
      ∃ v ∈ (request.value "memberIds").toArray, v.toLongLong = u)
  | .inviteGroupMembers => (request.value "conversationId").toLongLong = g ∧
      db.isConversationMember g conn.authenticatedUserId = true ∧
      ∃ v ∈ (request.value "userIds").toArray, v.toLongLong = u
  | _ => False

/-- Somebody stops being a member: leaves, or is removed by one of higher rank. -/
def MayLeave : Handler → Prop
  | .leaveGroup =>
      (request.value "conversationId").toLongLong = g ∧ u = conn.authenticatedUserId
  | .kickGroupMember => (request.value "conversationId").toLongLong = g ∧
      (request.value "userId").toLongLong = u ∧
      ∃ mine theirs, db.groupRole g conn.authenticatedUserId = some mine ∧
        db.groupRole g u = some theirs ∧ theirs.rank < mine.rank
  | _ => False

/-- Somebody's role changes: the owner hands the group over and leaves. -/
def MayBecome (role : MemberRole) : Handler → Prop
  | .leaveGroup => (request.value "conversationId").toLongLong = g ∧
      u ≠ conn.authenticatedUserId ∧ role = .owner ∧
      db.groupRole g conn.authenticatedUserId = some .owner ∧
      db'.groupRole g conn.authenticatedUserId = none
  | _ => False

/-- What the request changes of the members of `g` its handler has the authority
for. -/
structure Authorized (handler : Handler) : Prop where
  joins : ∀ u, db.groupRole g u = none → db'.groupRole g u ≠ none →
    MayJoin conn request db g u handler
  leaves : ∀ u, db.groupRole g u ≠ none → db'.groupRole g u = none →
    MayLeave conn request db g u handler
  roles : ∀ u role role', db.groupRole g u = some role → db'.groupRole g u = some role' →
    role ≠ role' → MayBecome conn request db db' g u role' handler
  others : handler.changesMembers = false → db'.memberRoles g = db.memberRoles g

/-- No group is lost, and the handler has authority for what it changes of the
members of any of them. -/
structure AuthorizedHandler (handler : Handler) : Prop where
  groups : ∀ g, db.conversationType g = some .groupType → db'.conversationType g = some .groupType
  members : ∀ g, db'.conversationType g = some .groupType →
    Authorized conn request db db' g handler

end

section

variable (qt : Qt) (hashes : Hashes)

/-- A packet changes the members of groups with authority, and everything else
leaves them as they are. -/
def StepAuthorized (s : SequentialServer) : SequentialOp → Prop
  | .packet c packet random wait =>
      match (s.admits qt hashes c packet wait).2 with
      | .handle handler request => AuthorizedHandler (s.conns c) request s.db.toDb
          (s.process qt hashes c packet random wait).1.toDb handler
      | .pong | .reject .. | .unknown _ =>
          (s.process qt hashes c packet random wait).1.conversationMembers = s.db.conversationMembers
  | .connect c peerAddress =>
      (s.step qt hashes (.connect c peerAddress)).db.conversationMembers = s.db.conversationMembers
  | .tick seconds =>
      (s.step qt hashes (.tick seconds)).db.conversationMembers = s.db.conversationMembers

end

/-! ## Roles under the statements on member rows -/

section roles

variable {db db' : Db} {g u : Int}

theorem groupRole_eq (db : Db) (g u : Int) :
    db.groupRole g u = ((db.memberRoles g).find? (·.1 == u)).map (·.2) := by
  unfold Db.groupRole Db.memberRoles
  rw [List.find?_map, List.find?_filter, Option.map_map]
  simp only [Function.comp_def, Bool.decide_and, Bool.decide_eq_true]

theorem groupRole_of_roles (h : db'.memberRoles g = db.memberRoles g) (u : Int) :
    db'.groupRole g u = db.groupRole g u := by
  rw [groupRole_eq, groupRole_eq, h]

/-- Rows that are added count after those there are. -/
theorem groupRole_appended {rs : List MemberRow}
    (h : db'.conversationMembers.rows = db.conversationMembers.rows ++ rs) :
    db'.groupRole g u = (db.groupRole g u).or
      ((rs.find? fun m => m.conversationId == g && m.userId == u).map (·.role)) := by
  unfold Db.groupRole
  rw [h, List.find?_append]
  cases List.find? _ db.conversationMembers.rows <;> rfl

theorem groupRole_removed {g' u' : Int} (h : MemberRemoved db db' g' u') :
    db'.groupRole g u = if g = g' ∧ u = u' then none else db.groupRole g u := by
  unfold Db.groupRole
  rw [h.rows, List.find?_filter]
  split
  · rename_i heq
    rw [heq.1, heq.2, Option.map_eq_none_iff, List.find?_eq_none]
    intro m _
    cases (m.conversationId == g' && m.userId == u') <;> simp
  · rename_i hne
    congr 2
    funext m
    by_cases hm : m.conversationId = g ∧ m.userId = u
    · have : ¬(m.conversationId = g' ∧ m.userId = u') := by rw [hm.1, hm.2]; exact hne
      simp [hm.1, hm.2] at this ⊢
      tauto
    · have : (m.conversationId == g && m.userId == u) = false := by simpa using hm
      simp [this]

theorem groupRole_given {g' u' : Int} {role : MemberRole} (h : RoleGiven db db' g' u' role) :
    db'.groupRole g u =
      if g = g' ∧ u = u' then (db.groupRole g u).map fun _ => role else db.groupRole g u := by
  unfold Db.groupRole
  rw [h.rows, List.find?_map]
  have hsame : ((fun m : MemberRow => m.conversationId == g && m.userId == u) ∘ fun r =>
      if r.conversationId == g' && r.userId == u' then { r with role := role } else r) =
        fun m => m.conversationId == g && m.userId == u := by
    funext r
    simp only [Function.comp_apply]
    split <;> rfl
  rw [hsame]
  cases hfind : db.conversationMembers.rows.find? fun m =>
      m.conversationId == g && m.userId == u with
  | none => split <;> rfl
  | some r =>
      have hr := List.find?_some hfind
      simp only [Bool.and_eq_true, beq_iff_eq] at hr
      simp only [Option.map_some, hr.1, hr.2, Bool.and_eq_true, beq_iff_eq]
      split <;> rfl

end roles

/-! ## What keeps the roles -/

/-- A group stays as it is, and none appears. -/
structure Db.KeepsRoles (db db' : Db) : Prop where
  groups : ∀ g, db'.conversationType g = some .groupType ↔ db.conversationType g = some .groupType
  roles : ∀ g, db'.conversationType g = some .groupType → db'.memberRoles g = db.memberRoles g

namespace Db.KeepsRoles

variable {db db' : Db}

theorem refl (db : Db) : db.KeepsRoles db := ⟨fun _ => Iff.rfl, fun _ _ => rfl⟩

theorem trans {db'' : Db} (h : db.KeepsRoles db') (h' : db'.KeepsRoles db'') :
    db.KeepsRoles db'' :=
  ⟨fun g => (h'.groups g).trans (h.groups g),
    fun g hg => (h'.roles g hg).trans (h.roles g ((h'.groups g).mp hg))⟩

theorem of_keeps (h : db.Keeps db') : db.KeepsRoles db' := by
  refine ⟨fun g => by rw [h.types], fun g _ => ?_⟩
  unfold Db.memberRoles
  rw [h.members]

/-- An `UPDATE` of other columns. -/
theorem update {p : MemberRow → Bool} {f : MemberRow → MemberRow}
    (h : ∀ m, (f m).conversationId = m.conversationId ∧ (f m).userId = m.userId ∧
      (f m).role = m.role)
    (hrows : db'.conversationMembers.rows =
      db.conversationMembers.rows.map fun m => if p m then f m else m)
    (hc : db'.conversations = db.conversations) : db.KeepsRoles db' := by
  have hkept : ∀ m, (if p m then f m else m).conversationId = m.conversationId ∧
      (if p m then f m else m).userId = m.userId ∧ (if p m then f m else m).role = m.role := by
    intro m
    split
    · exact h m
    · exact ⟨rfl, rfl, rfl⟩
  refine ⟨fun g => ?_, fun g _ => ?_⟩
  · unfold Db.conversationType Db.getConversation
    rw [hc]
  · unfold Db.memberRoles
    rw [hrows, List.filter_map, List.map_map]
    have hfilter : ((fun m : MemberRow => m.conversationId == g) ∘ fun m => if p m then f m else m) =
        fun m => m.conversationId == g := by
      funext m
      simp only [Function.comp_apply, (hkept m).1]
    rw [hfilter]
    refine List.map_congr_left fun m _ => ?_
    simp only [Function.comp_apply, (hkept m).2.1, (hkept m).2.2]

/-- A row more in a conversation that is no group. -/
theorem added {r : MemberRow} (h : MemberAdded db db' r)
    (hr : db.conversationType r.conversationId ≠ some .groupType) : db.KeepsRoles db' := by
  refine ⟨fun g => by rw [h.types], fun g hg => ?_⟩
  rw [h.types] at hg
  have hnone : [r].filter (·.conversationId == g) = [] := by
    refine List.filter_eq_nil_iff.mpr fun x hx heq => ?_
    rw [List.mem_singleton.mp hx, beq_iff_eq] at heq
    exact hr (heq ▸ hg)
  unfold Db.memberRoles
  rw [h.rows, List.filter_append, hnone, List.append_nil]

end Db.KeepsRoles

/-- Adding a member to a conversation that is no group. -/
theorem insertMember_keepsRoles {conversationId userId : Int} {role : MemberRole} {db : Db}
    (h : db.conversationType conversationId ≠ some .groupType) :
    db.KeepsRoles (db.insertMember conversationId userId role).1 ∧
      ∀ id, (db.insertMember conversationId userId role).1.conversationType id =
        db.conversationType id := by
  rcases insertMember_cases conversationId userId role db with hsame | ⟨r, hconv, _, _, _, hadded⟩
  · rw [hsame]
    exact ⟨.refl db, fun _ => rfl⟩
  · exact ⟨.added hadded (hconv ▸ h), hadded.types⟩

/-- The members of a new private conversation are in no group. -/
theorem getOrCreatePrivateConversation_keepsRoles (userId1 userId2 : Int) (db : Db) :
    (getOrCreatePrivateConversation userId1 userId2).wp (fun _ db' => db.KeepsRoles db') db := by
  refine wp_ite (fun _ => .refl db) fun _ => ?_
  simp only [wp_bind, wp_query]
  cases db.findPrivateConversation userId1 userId2 with
  | some convId => exact .refl db
  | none =>
      have htypes : ∀ id, (db.insertConversation .privateType).1.conversationType id =
          if id = db.conversations.lastId + 1 then some .privateType else db.conversationType id := by
        intro id
        unfold Db.conversationType Db.getConversation Db.insertConversation
        rw [Table.get_insert]
        split <;> rfl
      have hnew : db.conversationType (db.conversations.lastId + 1) = none := by
        unfold Db.conversationType Db.getConversation
        rw [Option.map_eq_none_iff, Table.get_eq_none]
        intro c hc heq
        have := (db.conversations.bounded c hc).2
        omega
      have hcreated : db.KeepsRoles (db.insertConversation .privateType).1 := by
        refine ⟨fun g => ?_, fun g _ => rfl⟩
        rw [htypes]
        split
        · rename_i heq
          rw [heq, hnew]
          exact ⟨fun h => absurd h (by decide), fun h => absurd h (by decide)⟩
        · exact Iff.rfl
      have hprivate : (db.insertConversation .privateType).1.conversationType
          (db.conversations.lastId + 1) ≠ some .groupType := by
        rw [htypes, if_pos rfl]
        decide
      obtain ⟨hfirst, hsame⟩ := @insertMember_keepsRoles (db.conversations.lastId + 1) userId1 .member
        (db.insertConversation .privateType).1 hprivate
      obtain ⟨hsecond, _⟩ := @insertMember_keepsRoles (db.conversations.lastId + 1) userId2 .member
        ((db.insertConversation .privateType).1.insertMember (db.conversations.lastId + 1) userId1
          .member).1 (by rw [hsame]; exact hprivate)
      exact (hcreated.trans hfirst).trans hsecond

section

variable {qt : Qt} {requestId : Nat} {conn : Connection} {request : Json} {db : Db}

theorem processSendMessageRequest_keepsRoles :
    (processSendMessageRequest qt requestId conn request).wp (fun _ db' => db.KeepsRoles db') db := by
  unfold processSendMessageRequest
  dsimp only
  generalize trimmed ((request.value "clientMessageId").toStr "") = clientMessageId
  refine wp_ite (fun _ => .refl db) fun _ => ?_
  simp only [wp_bind, wp_query]
  refine wp_ite (fun _ => .refl db) fun _ => wp_ite (fun _ => ?_) fun _ => ?_
  · exact .of_keeps ((processSendGroupMessage_keeps _ _).exec .refl .trans db)
  unfold processSendPrivateMessage
  dsimp only
  refine wp_ite (fun _ => .refl db) fun _ => wp_ite (fun _ => .refl db) fun _ => ?_
  simp only [wp_bind, wp_query]
  cases db.getMessageByClientKey _ _ clientMessageId with
  | some m => exact .refl db
  | none =>
      cases E2eeCrypto.decodeEnvelope qt ((request.value "content").toStr "") with
      | none => exact .refl db
      | some entries =>
          -- the conversation is found or created; the rest keeps the members
          have hkept {α : Type} {p : Prog Db α} (hp : p.Within Db.Keeps) (db₁ : Db)
              (h : db.KeepsRoles db₁) : p.wp (fun _ db' => db.KeepsRoles db') db₁ :=
            h.trans (.of_keeps (hp.exec .refl .trans db₁))
          rw [wp_bind]
          refine wp_mono (hkept (checkEntries_keeps _ _ _ _ _ _) db (.refl db)) fun checked db₁ h₁ => ?_
          rcases checked with message | (_ | ⟨prekeyId, prekeyIds⟩)
          · exact h₁
          · exact h₁
          · rw [wp_bind]
            refine wp_mono (getOrCreatePrivateConversation_keepsRoles _ _ db₁) fun convId db₂ h₂ => ?_
            cases convId with
            | none => exact h₁.trans h₂
            | some convId =>
                rw [wp_bind]
                refine wp_mono (hkept (storePrivateMessage_keeps _ _ _ _ _ _ _) db₂ (h₁.trans h₂))
                  fun stored db₃ h₃ => ?_
                cases stored with
                | none => exact h₃
                | some msgId => exact hkept (fanOutPrivateMessage_keeps _ _ _ _ _ _ _ _ _) db₃ h₃

theorem updateMemberReadCursor_keepsRoles (conversationId userId messageId : Int) (db : Db) :
    db.KeepsRoles (db.updateMemberReadCursor conversationId userId messageId) := by
  refine .update ?_ rfl rfl
  exact fun _ => ⟨rfl, rfl, rfl⟩

theorem setConversationPrefs_keepsRoles (conversationId userId : Int) (pinned muted : Bool)
    (db : Db) : db.KeepsRoles (db.setConversationPrefs conversationId userId pinned muted).1 := by
  unfold Db.setConversationPrefs
  split
  · exact .refl db
  · refine .update ?_ rfl rfl
    exact fun _ => ⟨rfl, rfl, rfl⟩

/-- The tables of receipts and messages are not the members'. -/
theorem keepsRoles_of_eq {db db' : Db} (hm : db'.conversationMembers = db.conversationMembers)
    (hc : db'.conversations = db.conversations) : db.KeepsRoles db' := by
  refine ⟨fun g => ?_, fun g _ => ?_⟩
  · unfold Db.conversationType Db.getConversation
    rw [hc]
  · unfold Db.memberRoles
    rw [hm]

theorem recordMessageReceipt_keepsRoles (messageId userId : Int) (deviceId : String)
    (receipt : Receipt) (db : Db) :
    db.KeepsRoles (db.recordMessageReceipt messageId userId deviceId receipt) := by
  unfold Db.recordMessageReceipt
  split
  · exact .refl db
  · dsimp only
    split <;> exact keepsRoles_of_eq rfl rfl

theorem updateMessageStatus_keepsRoles (messageId : Int) (status : MessageStatus) (db : Db) :
    db.KeepsRoles (db.updateMessageStatus messageId status) :=
  keepsRoles_of_eq rfl rfl

theorem appendSyncEvent_keepsRoles (userId : Int) (eventType : String) (payload : Json) (db : Db) :
    db.KeepsRoles (db.appendSyncEvent userId eventType payload) :=
  .of_keeps (.appendSyncEvent userId eventType payload db)

theorem syncReadCursor_keepsRoles (msg : MessageRow) (receipt : Receipt) :
    (syncReadCursor conn msg receipt).Within Db.KeepsRoles := by
  cases receipt with
  | delivered => exact within_pure _
  | read =>
      refine (within_update (updateMemberReadCursor_keepsRoles _ _ _)).bind fun _ => ?_
      exact (within_update (appendSyncEvent_keepsRoles _ _ _)).bind fun _ => within_pure _

theorem aggregateReceipts_keepsRoles (msg : MessageRow) :
    (aggregateReceipts conn msg).Within Db.KeepsRoles := by
  unfold aggregateReceipts
  refine (within_query .refl).bind fun expected => (within_query .refl).bind fun reads =>
    (within_query .refl).bind fun delivereds => ?_
  cases aggregatedStatus expected reads delivereds with
  | none => exact within_pure _
  | some status =>
      refine within_ite (fun _ => within_pure _) fun _ => ?_
      unfold syncStatus
      refine (within_update (updateMessageStatus_keepsRoles _ _)).bind fun _ => ?_
      exact (within_update (appendSyncEvent_keepsRoles _ _ _)).bind fun _ => within_pure _

theorem processAckMessageRequest_keepsRoles :
    (processAckMessageRequest requestId conn request).Within Db.KeepsRoles := by
  unfold processAckMessageRequest
  dsimp only
  refine within_ite (fun _ => within_pure _) fun _ => ?_
  cases Receipt.ofText ((request.value "status").toStr "delivered") with
  | none => exact within_pure _
  | some receipt =>
      refine (within_query .refl).bind fun found => ?_
      cases found with
      | none => exact within_pure _
      | some msg =>
          refine (within_query .refl).bind fun _ => within_ite (fun _ => within_pure _) fun _ => ?_
          refine (within_update (recordMessageReceipt_keepsRoles _ _ _ _)).bind fun _ => ?_
          exact (syncReadCursor_keepsRoles _ _).bind fun _ =>
            (aggregateReceipts_keepsRoles _).bind fun _ => within_pure _

theorem processSyncMessagesRequest_keepsRoles :
    (processSyncMessagesRequest qt requestId conn request).Within Db.KeepsRoles := by
  unfold processSyncMessagesRequest
  dsimp only
  refine within_ite (fun _ => within_pure _) fun _ => (within_query .refl).bind fun _ => ?_
  refine within_ite (fun _ => within_pure _) fun _ => (within_query .refl).bind fun messages => ?_
  cases messages.getLast? with
  | none => exact within_pure _
  | some last =>
      exact (within_update (updateMemberReadCursor_keepsRoles _ _ _)).bind fun _ => within_pure _

theorem processSetConversationPrefsRequest_keepsRoles :
    (processSetConversationPrefsRequest requestId conn request).Within Db.KeepsRoles := by
  unfold processSetConversationPrefsRequest
  dsimp only
  refine within_ite (fun _ => within_pure _) fun _ => within_ite (fun _ => within_pure _) fun _ => ?_
  refine (within_query .refl).bind fun _ => within_ite (fun _ => within_pure _) fun _ => ?_
  refine (within_call (setConversationPrefs_keepsRoles _ _ _ _)).bind fun _ => ?_
  refine within_ite (fun _ => within_pure _) fun _ => ?_
  exact (within_update (appendSyncEvent_keepsRoles _ _ _)).bind fun _ => within_pure _

end

/-! ## The four handlers -/

section authority

variable {conn : Connection} {request : Json} {db db' : Db} {handler : Handler}

/-- What changes no group needs no authority. -/
theorem authorized_of_keepsRoles (h : db.KeepsRoles db') :
    AuthorizedHandler conn request db db' handler := by
  refine ⟨fun g => (h.groups g).mpr, fun g hg => ?_⟩
  have hsame := groupRole_of_roles (h.roles g hg)
  refine ⟨fun u hnone hsome => ?_, fun u hsome hnone => ?_, fun u role role' hrole hrole' hne => ?_,
    fun _ => h.roles g hg⟩
  · rw [hsame] at hsome
    exact absurd hnone hsome
  · rw [hsame] at hnone
    exact absurd hnone hsome
  · rw [hsame, hrole] at hrole'
    exact absurd (Option.some.inj hrole') hne

/-- A change with authority stays one if more happens before and after it. -/
theorem AuthorizedHandler.between {db₁ db₂ : Db} (h₁ : db.Keeps db₁)
    (h : AuthorizedHandler conn request db₁ db₂ handler) (h₂ : db₂.KeepsRoles db') :
    AuthorizedHandler conn request db db' handler := by
  refine ⟨fun g hg => (h₂.groups g).mpr (h.groups g ((h₁.types g).trans hg)), fun g hg => ?_⟩
  have hroles₂ := h₂.roles g hg
  have hroles₁ : ∀ g, db₁.memberRoles g = db.memberRoles g := fun g => by
    unfold Db.memberRoles
    rw [h₁.members]
  have hbefore : ∀ g u, db₁.groupRole g u = db.groupRole g u :=
    fun g u => groupRole_of_roles (hroles₁ g) u
  have hafter : ∀ u, db'.groupRole g u = db₂.groupRole g u := groupRole_of_roles hroles₂
  have hmember : ∀ g u, db₁.isConversationMember g u = db.isConversationMember g u :=
    isConversationMember_of_eq h₁.members
  have hauth := h.members g ((h₂.groups g).mp hg)
  refine ⟨fun u hnone hsome => ?_, fun u hsome hnone => ?_, fun u role role' hrole hrole' hne => ?_,
    fun hothers => hroles₂.trans ((hauth.others hothers).trans (hroles₁ g))⟩
  · have hjoin := hauth.joins u (by rw [hbefore]; exact hnone) (by rw [← hafter]; exact hsome)
    cases handler <;> simp only [MayJoin, h₁.types, hmember] at hjoin ⊢ <;> exact hjoin
  · have hleave := hauth.leaves u (by rw [hbefore]; exact hsome) (by rw [← hafter]; exact hnone)
    cases handler <;> simp only [MayLeave, hbefore] at hleave ⊢ <;> exact hleave
  · have hbecome := hauth.roles u role role' (by rw [hbefore]; exact hrole)
      (by rw [← hafter]; exact hrole') hne
    cases handler <;> simp only [MayBecome, hbefore, hafter] at hbecome ⊢
    exact hbecome

/-- Members that are added need to be let in, and nobody else is concerned. -/
theorem authorized_of_appended {rs : List MemberRow}
    (hrows : db'.conversationMembers.rows = db.conversationMembers.rows ++ rs)
    (hgroups : ∀ g, db.conversationType g = some .groupType →
      db'.conversationType g = some .groupType)
    (hjoin : ∀ r ∈ rs, MayJoin conn request db r.conversationId r.userId handler)
    (hchanges : handler.changesMembers = true) :
    AuthorizedHandler conn request db db' handler := by
  refine ⟨hgroups, fun g _ => ?_⟩
  refine ⟨fun u hnone hsome => ?_, fun u hsome hnone => ?_, fun u role role' hrole hrole' hne => ?_,
    fun hothers => absurd (hchanges.symm.trans hothers) (by decide)⟩
  · rw [groupRole_appended hrows, hnone, Option.none_or, Ne, Option.map_eq_none_iff] at hsome
    obtain ⟨r, hfind⟩ := Option.ne_none_iff_exists'.mp hsome
    have hr := List.find?_some hfind
    simp only [Bool.and_eq_true, beq_iff_eq] at hr
    rw [← hr.1, ← hr.2]
    exact hjoin r (List.mem_of_find?_eq_some hfind)
  · obtain ⟨role, hrole⟩ := Option.ne_none_iff_exists'.mp hsome
    rw [groupRole_appended hrows, hrole, Option.some_or] at hnone
    exact nomatch hnone
  · rw [groupRole_appended hrows, hrole, Option.some_or] at hrole'
    exact absurd (Option.some.inj hrole') hne

/-- Somebody is removed who may leave. -/
theorem authorized_of_removed {g₀ u₀ : Int} (h : MemberRemoved db db' g₀ u₀)
    (hleave : db.groupRole g₀ u₀ ≠ none → MayLeave conn request db g₀ u₀ handler)
    (hchanges : handler.changesMembers = true) :
    AuthorizedHandler conn request db db' handler := by
  refine ⟨fun g hg => (h.types g).trans hg, fun g _ => ?_⟩
  refine ⟨fun u hnone hsome => ?_, fun u hsome hnone => ?_, fun u role role' hrole hrole' hne => ?_,
    fun hothers => absurd (hchanges.symm.trans hothers) (by decide)⟩
  · rw [groupRole_removed h] at hsome
    split at hsome
    · exact absurd rfl hsome
    · exact absurd hnone hsome
  · rw [groupRole_removed h] at hnone
    split at hnone
    · rename_i heq
      obtain ⟨rfl, rfl⟩ := heq
      exact hleave hsome
    · exact absurd hnone hsome
  · rw [groupRole_removed h] at hrole'
    split at hrole'
    · exact nomatch hrole'
    · rw [hrole] at hrole'
      exact absurd (Option.some.inj hrole') hne

/-- The owner `me` makes another member owner and leaves. -/
theorem authorized_of_handover {db₁ db₂ : Db} {g₀ newOwner : Int}
    (hg₀ : (request.value "conversationId").toLongLong = g₀)
    (hme : db.groupRole g₀ conn.authenticatedUserId = some .owner)
    (hother : newOwner ≠ conn.authenticatedUserId) (hgiven : RoleGiven db db₁ g₀ newOwner .owner)
    (hkept : db₁.Keeps db₂) (hremoved : MemberRemoved db₂ db' g₀ conn.authenticatedUserId) :
    AuthorizedHandler conn request db db' .leaveGroup := by
  have hroles : ∀ g u, db'.groupRole g u = if g = g₀ ∧ u = conn.authenticatedUserId then none
      else if g = g₀ ∧ u = newOwner then (db.groupRole g u).map fun _ => .owner
      else db.groupRole g u := fun g u => by
    have hsame : db₂.groupRole g u = db₁.groupRole g u :=
      groupRole_of_roles (by unfold Db.memberRoles; rw [hkept.members]) u
    rw [groupRole_removed hremoved, hsame, groupRole_given hgiven]
  refine ⟨fun g hg => ?_, fun g _ => ?_⟩
  · rw [hremoved.types, hkept.types, hgiven.types]
    exact hg
  refine ⟨fun u hnone hsome => ?_, fun u hsome hnone => ?_, fun u role role' hrole hrole' hne => ?_,
    fun hothers => absurd hothers (by decide)⟩
  · rw [hroles, hnone] at hsome
    simp at hsome
  · rw [hroles] at hnone
    split at hnone
    · rename_i heq
      exact ⟨hg₀.trans heq.1.symm, heq.2⟩
    split at hnone
    · exact absurd (Option.map_eq_none_iff.mp hnone) hsome
    · exact absurd hnone hsome
  · rw [hroles] at hrole'
    split at hrole'
    · exact nomatch hrole'
    split at hrole'
    · rename_i heq
      obtain ⟨rfl, rfl⟩ := heq
      rw [hrole] at hrole'
      refine ⟨hg₀, hother, (Option.some.inj hrole').symm, hme, ?_⟩
      rw [hroles, if_pos ⟨rfl, rfl⟩]
    · rw [hrole] at hrole'
      exact absurd (Option.some.inj hrole') hne

theorem mem_cleanUserIds {me u : Int} {values : List Json} {seen : List Int}
    (h : u ∈ cleanUserIds me values seen) : ∃ v ∈ values, v.toLongLong = u := by
  induction values generalizing seen with
  | nil => exact nomatch h
  | cons v rest ih =>
      unfold cleanUserIds at h
      dsimp only at h
      split at h
      · obtain ⟨v', hv', heq⟩ := ih h
        exact ⟨v', List.mem_cons_of_mem _ hv', heq⟩
      · rcases List.mem_cons.mp h with heq | h
        · exact ⟨v, List.mem_cons_self, heq.symm⟩
        · obtain ⟨v', hv', heq⟩ := ih h
          exact ⟨v', List.mem_cons_of_mem _ hv', heq⟩

/-- The users that pass the checks of an invitation are listed in it. -/
theorem checkInvitees_listed (me conversationId : Int) (currentCount : Nat) (users : List Json)
    (seen toAdd : List Int) (db : Db) :
    (checkInvitees me conversationId currentCount users seen toAdd).wp
      (fun r _ => ∀ ids, r = .ok ids → ∀ u ∈ ids, u ∈ toAdd ∨ ∃ v ∈ users, v.toLongLong = u) db := by
  induction users generalizing seen toAdd with
  | nil =>
      intro ids hids u hu
      cases hids
      exact .inl hu
  | cons v rest ih =>
      have hmore : ∀ toAdd' : List Int, (∀ u ∈ toAdd', u ∈ toAdd ∨ v.toLongLong = u) →
          ∀ u, (u ∈ toAdd' ∨ ∃ v' ∈ rest, v'.toLongLong = u) →
            u ∈ toAdd ∨ ∃ v' ∈ v :: rest, v'.toLongLong = u := by
        rintro toAdd' hadd u (hu | ⟨v', hv', heq⟩)
        · rcases hadd u hu with hu | heq
          · exact .inl hu
          · exact .inr ⟨v, List.mem_cons_self, heq⟩
        · exact .inr ⟨v', List.mem_cons_of_mem _ hv', heq⟩
      have hrefused : ∀ refusal,
          (pure (.error refusal) : Prog Db (Except (ErrorCode × String) (List Int))).wp
          (fun r _ => ∀ ids, r = .ok ids → ∀ u ∈ ids, u ∈ toAdd ∨ ∃ v' ∈ v :: rest, v'.toLongLong = u)
          db := by
        intro refusal ids hids
        cases hids
      unfold checkInvitees
      dsimp only
      refine wp_ite (fun _ => ?_) fun _ => ?_
      · exact wp_mono (ih seen toAdd) fun r _ h ids hids u hu =>
          hmore toAdd (fun _ => .inl) u (h ids hids u hu)
      simp only [wp_bind, wp_query]
      refine wp_ite (fun _ => hrefused _) fun _ => ?_
      simp only [wp_bind, wp_query]
      refine wp_ite (fun _ => hrefused _) fun _ => wp_ite (fun _ => hrefused _) fun _ => ?_
      refine wp_mono (ih _ _) fun r _ h ids hids u hu => hmore _ (fun x hx => ?_) u (h ids hids u hu)
      rcases List.mem_append.mp hx with hx | hx
      · exact .inl hx
      · exact .inr (List.mem_singleton.mp hx).symm

/-- The rows that an invitation adds are of users it lists. -/
theorem addGroupMembers_appends (conversationId : Int) (ids seen : List Int) (db : Db) :
    (addGroupMembers conversationId ids seen).wp
      (fun _ db' => (∀ g, db'.conversationType g = db.conversationType g) ∧
        ∃ rs, db'.conversationMembers.rows = db.conversationMembers.rows ++ rs ∧
          ∀ r ∈ rs, r.conversationId = conversationId ∧ r.userId ∈ ids) db := by
  induction ids generalizing seen db with
  | nil => exact ⟨fun _ => rfl, [], (List.append_nil _).symm, by simp⟩
  | cons userId rest ih =>
      have hskip : ∀ seen', (addGroupMembers conversationId rest seen').wp
          (fun _ db' => (∀ g, db'.conversationType g = db.conversationType g) ∧
            ∃ rs, db'.conversationMembers.rows = db.conversationMembers.rows ++ rs ∧
              ∀ r ∈ rs, r.conversationId = conversationId ∧ r.userId ∈ userId :: rest) db := by
        intro seen'
        refine wp_mono (ih seen' db) ?_
        rintro _ db' ⟨htypes, rs, hrows, hrs⟩
        refine ⟨htypes, rs, hrows, fun r hr => ?_⟩
        exact ⟨(hrs r hr).1, List.mem_cons_of_mem _ (hrs r hr).2⟩
      unfold addGroupMembers
      refine wp_ite (fun _ => hskip seen) fun _ => ?_
      simp only [wp_bind, wp_query]
      refine wp_ite (fun _ => hskip _) fun _ => ?_
      simp only [wp_bind, wp_query]
      refine wp_ite (fun _ => ⟨fun _ => rfl, [], by simp, by simp⟩) fun _ => ?_
      simp only [wp_bind, wp_call]
      rcases insertMember_cases conversationId userId .member db with
        hsame | ⟨r, hconv, huser, _, hok, hadded⟩
      · rw [hsame]
        exact ⟨fun _ => rfl, [], by simp, by simp⟩
      · rw [hok, if_pos rfl]
        refine wp_mono (ih _ _) ?_
        rintro _ db' ⟨htypes, rs, hrows, hrs⟩
        refine ⟨fun g => (htypes g).trans (hadded.types g), r :: rs, ?_, ?_⟩
        · rw [hrows, hadded.rows, List.append_assoc, List.singleton_append]
        · intro x hx
          rcases List.mem_cons.mp hx with rfl | hx
          · exact ⟨hconv, by simp [huser]⟩
          · exact ⟨(hrs x hx).1, List.mem_cons_of_mem _ (hrs x hx).2⟩

section handlers

variable {qt : Qt} {requestId : Nat}

/-- Program after program that keeps everything. -/
private theorem wp_kept {α : Type} {p : Prog Db α} {Q : Db → Prop} (hp : p.Within Db.Keeps)
    {db : Db} (h : ∀ db', db.Keeps db' → Q db') : p.wp (fun _ db' => Q db') db :=
  h _ (hp.exec .refl .trans db)

theorem processCreateGroupRequest_authorized :
    (processCreateGroupRequest qt requestId conn request).wp
      (fun _ db' => AuthorizedHandler conn request db db' .createGroup) db := by
  have hrefused : AuthorizedHandler conn request db db .createGroup :=
    authorized_of_keepsRoles (.refl db)
  unfold processCreateGroupRequest
  dsimp only
  generalize trimmed ((request.value "name").toStr "") = name
  refine wp_ite (fun _ => hrefused) fun _ => wp_ite (fun _ => hrefused) fun _ => ?_
  refine wp_ite (fun _ => hrefused) fun _ => ?_
  rw [wp_bind]
  refine wp_mono (wp_kept (findUnknownUser_keeps _) fun db₁ h₁ => h₁) fun unknown db₁ h₁ => ?_
  cases unknown with
  | some id => exact authorized_of_keepsRoles (.of_keeps h₁)
  | none =>
      simp only [wp_bind, wp_call]
      rcases createGroup_cases conn.authenticatedUserId name
          (cleanUserIds conn.authenticatedUserId (request.value "memberIds").toArray []) db₁ with
        hsame | ⟨o, rs, hid, hcreated⟩
      · rw [hsame]
        exact authorized_of_keepsRoles (.of_keeps h₁)
      · rw [hid]
        have hauth : AuthorizedHandler conn request db₁ (Db.createGroup conn.authenticatedUserId name
            (cleanUserIds conn.authenticatedUserId (request.value "memberIds").toArray []) db₁).1
            .createGroup := by
          refine authorized_of_appended hcreated.rows (fun g hg => ?_) (fun r hr => ?_) rfl
          · rw [hcreated.types]
            split
            · rfl
            · exact hg
          rcases List.mem_cons.mp hr with rfl | hr
          · exact ⟨by rw [hcreated.owner.1]; exact hcreated.new, .inl hcreated.owner.2.1⟩
          · obtain ⟨hconv, _, hlisted⟩ := hcreated.others r hr
            exact ⟨by rw [hconv]; exact hcreated.new, .inr (mem_cleanUserIds hlisted)⟩
        simp only [wp_bind]
        exact wp_kept (announce_keeps _ _ _ _ _ _) fun db₃ h₃ => hauth.between h₁ (.of_keeps h₃)

theorem processInviteGroupMembersRequest_authorized :
    (processInviteGroupMembersRequest qt requestId conn request).wp
      (fun _ db' => AuthorizedHandler conn request db db' .inviteGroupMembers) db := by
  have hrefused : AuthorizedHandler conn request db db .inviteGroupMembers :=
    authorized_of_keepsRoles (.refl db)
  unfold processInviteGroupMembersRequest
  dsimp only
  refine wp_ite (fun _ => hrefused) fun _ => ?_
  simp only [wp_bind, wp_query]
  refine wp_ite (fun _ => hrefused) fun _ => ?_
  simp only [wp_bind, wp_query]
  refine wp_ite (fun _ => hrefused) fun hmember => ?_
  refine wp_ite (fun _ => hrefused) fun _ => wp_ite (fun _ => hrefused) fun _ => ?_
  simp only [wp_bind, wp_query]
  generalize (db.getConversationMemberIds _).length = currentCount
  have hlisted := checkInvitees_listed conn.authenticatedUserId
    (request.value "conversationId").toLongLong currentCount (request.value "userIds").toArray [] [] db
  have hkept := (checkInvitees_keeps conn.authenticatedUserId
    (request.value "conversationId").toLongLong currentCount (request.value "userIds").toArray
    [] []).exec .refl .trans db
  refine wp_mono (show Prog.wp _ (fun r db₁ => db.Keeps db₁ ∧ ∀ ids, r = .ok ids → ∀ u ∈ ids,
      u ∈ ([] : List Int) ∨ ∃ v ∈ (request.value "userIds").toArray, v.toLongLong = u) db from
    ⟨hkept, hlisted⟩) ?_
  rintro checked db₁ ⟨h₁, hids⟩
  rcases checked with ⟨code, message⟩ | (_ | ⟨first, rest⟩)
  · exact authorized_of_keepsRoles (.of_keeps h₁)
  · exact authorized_of_keepsRoles (.of_keeps h₁)
  · rw [wp_bind]
    refine wp_mono (addGroupMembers_appends _ (first :: rest) [] db₁) ?_
    rintro added db₂ ⟨htypes, rs, hrows, hrs⟩
    have hauth : AuthorizedHandler conn request db₁ db₂ .inviteGroupMembers := by
      refine authorized_of_appended hrows (fun g hg => (htypes g).trans hg) (fun r hr => ?_) rfl
      obtain ⟨hconv, hid⟩ := hrs r hr
      refine ⟨hconv.symm, ?_, (hids _ rfl _ hid).resolve_left (by simp)⟩
      rw [hconv, isConversationMember_of_eq h₁.members]
      simpa using hmember
    refine wp_ite (fun _ => hauth.between h₁ (.refl db₂)) fun _ => ?_
    simp only [wp_bind]
    exact wp_kept (announce_keeps _ _ _ _ _ _) fun db₃ h₃ => hauth.between h₁ (.of_keeps h₃)

theorem successor_ne {me newOwner : Int} {members : List MemberRow}
    (h : successor me members = some newOwner) : newOwner ≠ me := by
  unfold successor at h
  obtain ⟨hmap, _⟩ := Option.filter_eq_some_iff.mp h
  obtain ⟨m, hfind, rfl⟩ := Option.map_eq_some_iff.mp hmap
  simpa using List.find?_some hfind

/-- What a handover changes: nothing, or the role of one other member. -/
theorem handOver_given (g me : Int) (role : MemberRole) (db : Db) :
    (handOver qt g me role).wp (fun _ db' => db.Keeps db' ∨ ∃ newOwner db₁, role = .owner ∧
      newOwner ≠ me ∧ RoleGiven db db₁ g newOwner .owner ∧ db₁.Keeps db') db := by
  unfold handOver
  refine wp_ite (fun _ => .inl (.refl db)) fun hrole => ?_
  simp only [wp_bind, wp_query]
  cases hsuccessor : successor me (db.getGroupMembers g) with
  | none => exact .inl (.refl db)
  | some newOwner =>
      simp only [wp_bind, wp_call]
      refine wp_mono (wp_kept (postGroupSystemMessage_keeps _ _ _ _) fun db₂ h₂ => h₂)
        fun posted db₂ h₂ => ?_
      rw [wp_bind]
      refine wp_kept (notifyGroupChanged_keeps _ _ _ _) fun db₃ h₃ => ?_
      exact .inr ⟨newOwner, _, not_not.mp hrole, successor_ne hsuccessor,
        updateMemberRole_given g newOwner .owner db, h₂.trans h₃⟩

theorem processLeaveGroupRequest_authorized :
    (processLeaveGroupRequest qt requestId conn request).wp
      (fun _ db' => AuthorizedHandler conn request db db' .leaveGroup) db := by
  have hrefused : AuthorizedHandler conn request db db .leaveGroup :=
    authorized_of_keepsRoles (.refl db)
  unfold processLeaveGroupRequest
  dsimp only
  refine wp_ite (fun _ => hrefused) fun _ => ?_
  simp only [wp_bind, wp_query]
  refine wp_ite (fun _ => hrefused) fun _ => ?_
  simp only [wp_bind, wp_query]
  cases hrole : db.groupRole (request.value "conversationId").toLongLong
      conn.authenticatedUserId with
  | none => exact hrefused
  | some role =>
      rw [wp_bind]
      refine wp_mono (handOver_given _ _ role db) fun transferred db₁ h₁ => ?_
      have hremoved := removeGroupMember_removed (request.value "conversationId").toLongLong
        conn.authenticatedUserId db₁
      have hauth : AuthorizedHandler conn request db (db₁.removeGroupMember
          (request.value "conversationId").toLongLong conn.authenticatedUserId).1 .leaveGroup := by
        rcases h₁ with h₁ | ⟨newOwner, db₀, rfl, hother, hgiven, h₁⟩
        · have hleave : AuthorizedHandler conn request db₁ (db₁.removeGroupMember
              (request.value "conversationId").toLongLong conn.authenticatedUserId).1 .leaveGroup :=
            authorized_of_removed hremoved (fun _ => ⟨rfl, rfl⟩) rfl
          exact hleave.between h₁ (.refl _)
        · exact authorized_of_handover rfl hrole hother hgiven h₁ hremoved
      simp only [wp_bind, wp_call]
      refine wp_ite (fun _ => hauth) fun _ => ?_
      simp only [wp_bind]
      exact wp_kept (announce_keeps _ _ _ _ _ _) fun db₃ h₃ => hauth.between (.refl db) (.of_keeps h₃)

/-- Whom one may remove has the lower rank. -/
theorem rank_of_mayRemove {mine : Option MemberRole} {theirs : MemberRole}
    (h : mayRemove mine theirs = true) : ∃ role, mine = some role ∧ theirs.rank < role.rank := by
  cases mine with
  | none => exact nomatch h
  | some role =>
      refine ⟨role, rfl, ?_⟩
      cases role <;> cases theirs <;> simp [mayRemove, MemberRole.rank] at h ⊢

theorem processKickGroupMemberRequest_authorized :
    (processKickGroupMemberRequest qt requestId conn request).wp
      (fun _ db' => AuthorizedHandler conn request db db' .kickGroupMember) db := by
  have hrefused : AuthorizedHandler conn request db db .kickGroupMember :=
    authorized_of_keepsRoles (.refl db)
  unfold processKickGroupMemberRequest
  dsimp only
  refine wp_ite (fun _ => hrefused) fun _ => ?_
  simp only [wp_bind, wp_query]
  refine wp_ite (fun _ => hrefused) fun _ => wp_ite (fun _ => hrefused) fun _ => ?_
  simp only [wp_bind, wp_query]
  cases htarget : db.groupRole (request.value "conversationId").toLongLong
      (request.value "userId").toLongLong with
  | none => exact hrefused
  | some targetRole =>
      dsimp only
      refine wp_ite (fun _ => hrefused) fun hmay => ?_
      obtain ⟨mine, hmine, hrank⟩ := rank_of_mayRemove (by simpa using hmay)
      have hauth : AuthorizedHandler conn request db (db.removeGroupMember
          (request.value "conversationId").toLongLong (request.value "userId").toLongLong).1
          .kickGroupMember :=
        authorized_of_removed (removeGroupMember_removed _ _ db)
          (fun _ => ⟨rfl, rfl, mine, targetRole, hmine, htarget, hrank⟩) rfl
      simp only [wp_bind, wp_call]
      refine wp_ite (fun _ => hauth) fun _ => ?_
      simp only [wp_bind]
      exact wp_kept (announce_keeps _ _ _ _ _ _) fun db₃ h₃ => hauth.between (.refl db) (.of_keeps h₃)

end handlers

end authority

/-! ## Runs -/

section runs

variable {qt : Qt} {hashes : Hashes} {requestId : Nat} {conn : Connection} {request : Json}
  {handler : Handler} {p : Prog Db Outcome}

/-- **Handler lemma.** What a handler changes of the members of groups it has the
authority for. -/
theorem program_authorized (hp : handler.program qt requestId conn request = some p) (db : Db) :
    AuthorizedHandler conn request db (p.exec db).1 handler := by
  have hkeeps : p.Within Db.Keeps → AuthorizedHandler conn request db (p.exec db).1 handler :=
    fun h => authorized_of_keepsRoles (.of_keeps (h.exec .refl .trans db))
  have hroles : p.Within Db.KeepsRoles → AuthorizedHandler conn request db (p.exec db).1 handler :=
    fun h => authorized_of_keepsRoles (h.exec .refl .trans db)
  cases handler <;>
    simp only [Handler.program, otherHandlers, reduceCtorEq, Option.some.injEq] at hp <;>
    subst hp
  case sendMessage => exact authorized_of_keepsRoles processSendMessageRequest_keepsRoles
  case editMessage => exact hkeeps processEditMessageRequest_keeps
  case deleteMessage => exact hkeeps processDeleteMessageRequest_keeps
  case registerKeys => exact hkeeps processRegisterKeysRequest_keeps
  case fetchKeys => exact hkeeps processFetchKeysRequest_keeps
  case fetchGroupKeys => exact hkeeps processFetchGroupKeysRequest_keeps
  case searchUsers => exact hkeeps processSearchUsersRequest_keeps
  case addContact => exact hkeeps processAddContactRequest_keeps
  case getContacts => exact hkeeps processGetContactsRequest_keeps
  case getConversations => exact hkeeps processGetConversationsRequest_keeps
  case ackMessage => exact hroles processAckMessageRequest_keepsRoles
  case syncMessages => exact hroles processSyncMessagesRequest_keepsRoles
  case syncEvents => exact hkeeps processSyncEventsRequest_keeps
  case getGroupInfo => exact hkeeps processGetGroupInfoRequest_keeps
  case setConversationPrefs => exact hroles processSetConversationPrefsRequest_keepsRoles
  case createGroup => exact processCreateGroupRequest_authorized
  case inviteGroupMembers => exact processInviteGroupMembersRequest_authorized
  case leaveGroup => exact processLeaveGroupRequest_authorized
  case kickGroupMember => exact processKickGroupMemberRequest_authorized

/-- **Step lemma.** -/
theorem stepAuthorized (s : SequentialServer) (op : SequentialOp) :
    StepAuthorized qt hashes s op := by
  cases op with
  | connect c peerAddress => exact rfl
  | tick seconds => exact rfl
  | packet c packet random wait =>
      dsimp only [StepAuthorized]
      have hnone : (∀ handler request, (s.admits qt hashes c packet wait).2 = .handle handler request →
          handler.program qt packet.requestId (s.conns c) request = none) →
          s.db.toDb.Keeps (s.process qt hashes c packet random wait).1.toDb := fun h => process_keeps h
      split
      · rename_i handler request hadmits
        cases hp : handler.program qt packet.requestId (s.conns c) request with
        | none =>
            refine authorized_of_keepsRoles (.of_keeps (hnone fun handler' request' h => ?_))
            obtain ⟨rfl, rfl⟩ := Admission.handle.inj (hadmits.symm.trans h)
            exact hp
        | some p =>
            rw [(@process_program qt hashes random request handler p s c packet wait hadmits hp).1]
            exact program_authorized hp s.db.toDb
      all_goals
        rename_i hadmits
        exact (hnone fun handler' request' h => nomatch hadmits.symm.trans h).members

/-- **Members change with authority.** In every run of requests of all types,
handled one at a time, each step changes the members of groups with authority
only. -/
theorem membersChange_authorized (qt : Qt) (hashes : Hashes) (s : SequentialServer)
    (ops : List SequentialOp) :
    (sequentialMachine qt hashes).Along (StepAuthorized qt hashes) s ops :=
  Machine.along_of_forall fun op _ s => stepAuthorized s op

end runs

end XYChat.Server
