import XYChat.Lib.Pool
import XYChat.Server.Frames

/-!
# The owner and the size of a group

The server's connections handle `CreateGroup`, `InviteGroupMembers`, `LeaveGroup`
and `KickGroupMember` statement by statement, in any interleaving. An owner who
leaves first makes a successor owner and then removes himself, each by a
statement of its own, and an invitation counts the members before it inserts; so
a group keeps one owner and its limit as long as what a handler has read is
still so when it writes.
-/

namespace XYChat.Server

open XYChat.Lib
open XYChat.Lib.Prog

/-! ## Groups in order -/

/-- How many members of the conversation are owners. -/
def Db.ownerCount (db : Db) (g : Int) : Nat :=
  db.conversationMembers.rows.countP fun r => r.conversationId == g && r.role == .owner

/-- Each group that has members has one owner, and no more members than the
limit. -/
def GroupsInOrder (db : Db) : Prop :=
  ∀ g, db.conversationType g = some .groupType → 0 < db.memberCount g →
    db.ownerCount g = 1 ∧ db.memberCount g ≤ maxGroupMembers

/-- The foreign key and the unique pair of `conversation_members`. -/
structure MembersFormed (db : Db) : Prop where
  conversation : ∀ r ∈ db.conversationMembers.rows, (db.conversationType r.conversationId).isSome
  unique : db.MembersUnique

/-! ## The server -/

inductive GroupRequest where
  | createGroup
  | inviteGroupMembers
  | leaveGroup
  | kickGroupMember
  deriving DecidableEq, Repr

/-- The handler of a request. -/
def GroupRequest.handler (qt : Qt) (requestId : Nat) (conn : Connection) (request : Json) :
    GroupRequest → Prog Db Outcome
  | .createGroup => processCreateGroupRequest qt requestId conn request
  | .inviteGroupMembers => processInviteGroupMembersRequest qt requestId conn request
  | .leaveGroup => processLeaveGroupRequest qt requestId conn request
  | .kickGroupMember => processKickGroupMemberRequest qt requestId conn request

/-- An idle slot is given to a connection, an idle connection takes up a request,
a busy one executes a statement, time passes. -/
inductive GroupOp where
  | connect (c : Nat) (conn : Connection)
  | request (c : Nat) (kind : GroupRequest) (requestId : Nat) (request : Json)
  | statement (c : Nat)
  | tick (seconds : Nat)

/-- No handler is midway. -/
def NobodyMidway (s : Pool Db Connection) : Prop := ∀ c, (s.workers c).running = none

section

variable (qt : Qt)

def groupStep (s : Pool Db Connection) : GroupOp → Pool Db Connection
  | .connect c conn =>
      if (s.workers c).running.isSome then s else s.setWorker c { here := conn }
  | .request c kind requestId request =>
      if (s.workers c).running.isSome then s
      else s.start c ((·.conn) <$> kind.handler qt requestId (s.workers c).here request)
  | .statement c => s.advance c
  | .tick seconds => { s with store := { s.store with now := s.store.now + seconds } }

/-- The connections over a database whose groups are in order. -/
structure GroupsStart (s : Pool Db Connection) : Prop where
  nobody : NobodyMidway s
  formed : MembersFormed s.store
  groups : GroupsInOrder s.store

def groupMachine : Machine (Pool Db Connection) GroupOp where
  init := GroupsStart
  step := groupStep qt

end

/-- A statement that adds a member to a group that exists finds an owner and room
there. -/
def FindsRoom (db db' : Db) : Prop :=
  ∀ r ∈ db'.conversationMembers.rows, db.conversationType r.conversationId = some .groupType →
    db.isConversationMember r.conversationId r.userId = false →
    db.memberCount r.conversationId < maxGroupMembers ∧
      ∃ o ∈ db.conversationMembers.rows, o.conversationId = r.conversationId ∧ o.role = .owner

/-- A statement of user `me`'s handler that makes a member owner finds no owner
but `me`. -/
def FindsNoOther (me : Int) (db db' : Db) : Prop :=
  ∀ r' ∈ db'.conversationMembers.rows, ∀ r ∈ db.conversationMembers.rows,
    r.id = r'.id → r'.role = .owner → r.role ≠ .owner →
    ∀ o ∈ db.conversationMembers.rows, o.conversationId = r.conversationId → o.role = .owner →
      o.userId = me

/-- A statement that removes an owner finds another one, or nobody else. -/
def FindsAnother (db db' : Db) : Prop :=
  ∀ o ∈ db.conversationMembers.rows, o.role = .owner →
    db'.isConversationMember o.conversationId o.userId = false →
    (∃ o' ∈ db.conversationMembers.rows, o'.conversationId = o.conversationId ∧
      o'.role = .owner ∧ o'.userId ≠ o.userId) ∨
    ∀ r ∈ db.conversationMembers.rows, r.conversationId = o.conversationId → r.userId = o.userId

/-- The statement finds the members as its handler has read them. -/
structure FindsAsRead (me : Int) (db db' : Db) : Prop where
  added : FindsRoom db db'
  promoted : FindsNoOther me db db'
  removed : FindsAnother db db'

/-- The condition on a step. -/
def StepFindsAsRead (s : Pool Db Connection) : GroupOp → Prop
  | .statement c =>
      FindsAsRead (s.workers c).here.authenticatedUserId s.store (s.advance c).store
  | _ => True

/-! ## What the handlers do -/

/-- How far a handler has come: whose it is, and the group it has handed over and
not yet left. -/
structure GroupGhost where
  me : Int
  leaving : Option Int := none

/-- What one statement of a group handler does. -/
inductive GroupStatement (t : GroupGhost) (db db' : Db) : GroupGhost → Prop
  | quiet (h : db.Keeps db') : GroupStatement t db db' t
  | create (id ownerId : Int) (memberIds : List Int) (o : MemberRow) (rs : List MemberRow)
      (h : GroupCreated db db' id ownerId memberIds o rs) : GroupStatement t db db' t
  | add (r : MemberRow) (role : r.role = .member) (h : MemberAdded db db' r) :
      GroupStatement t db db' t
  | promote (g u : Int) (ht : t.leaving = none) (h : RoleGiven db db' g u .owner) :
      GroupStatement t db db' { t with leaving := some g }
  | remove (g u : Int) (own : ∀ g' ∈ t.leaving, g' = g ∧ u = t.me)
      (h : MemberRemoved db db' g u) : GroupStatement t db db' { t with leaving := none }

def groupProtocol : Protocol Db GroupGhost where
  holds _ _ := True
  step t db db' t' := GroupStatement t db db' t'

/-- A handler has left what it has handed over. -/
def handedOver {α : Type} (t : GroupGhost) (_ : α) : Prop := t.leaving = none

section follows

variable {α : Type} {Q : GroupGhost → α → Prop} {t : GroupGhost}

private theorem follows_keeping {p : Prog Db α} (h : p.Within Db.Keeps) (hQ : ∀ a, Q t a) :
    Follows groupProtocol Q t p :=
  h.follows (fun _ _ _ hsame => .quiet hsame) hQ

private theorem follows_reading {f : Db → α} (h : ∀ db, Q t (f db)) :
    Follows groupProtocol Q t (query f) :=
  follows_query fun db _ => ⟨t, .quiet (.refl db), h db⟩

private theorem follows_ending {a : α} (h : Q t a) : Follows groupProtocol Q t (pure a) :=
  follows_pure.mpr h

variable {qt : Qt} {requestId : Nat} {conn : Connection} {request : Json}

theorem processCreateGroupRequest_follows (ht : t.leaving = none) :
    Follows groupProtocol handedOver t (processCreateGroupRequest qt requestId conn request) := by
  unfold processCreateGroupRequest
  dsimp only
  refine follows_ite (fun _ => follows_ending ht) fun _ => ?_
  refine follows_ite (fun _ => follows_ending ht) fun _ => ?_
  refine follows_ite (fun _ => follows_ending ht) fun _ => ?_
  refine Follows.bind (follows_keeping (findUnknownUser_keeps _) fun unknown => ?_)
  cases unknown with
  | some id => exact follows_ending ht
  | none =>
      refine Follows.bind (follows_call fun db _ => ⟨t, ?_, ?_⟩)
      · rcases createGroup_cases conn.authenticatedUserId _ _ db with
          hsame | ⟨o, rs, _, hcreated⟩
        · rw [hsame]
          exact .quiet (.refl db)
        · exact .create _ _ _ _ _ hcreated
      · generalize (Db.createGroup _ _ _ db).2 = created
        cases created with
        | none => exact follows_ending ht
        | some convId =>
            refine Follows.bind (follows_keeping (announce_keeps _ _ _ _ _ _) fun _ => ?_)
            exact Follows.bind (follows_reading fun _ => follows_ending ht)

theorem addGroupMembers_follows {Q : GroupGhost → Bool → Prop} {conversationId : Int}
    {ids seen : List Int} (hQ : ∀ added, Q t added) :
    Follows groupProtocol Q t (addGroupMembers conversationId ids seen) := by
  induction ids generalizing seen with
  | nil => exact follows_ending (hQ true)
  | cons userId rest ih =>
      refine follows_ite (fun _ => ih) fun _ => ?_
      refine Follows.bind (follows_reading fun db => follows_ite (fun _ => ih) fun _ => ?_)
      refine Follows.bind (follows_reading fun db => ?_)
      refine follows_ite (fun _ => follows_ending (hQ true)) fun _ => ?_
      refine Follows.bind (follows_call fun db _ => ⟨t, ?_, ?_⟩)
      · rcases insertMember_cases conversationId userId .member db with
          hsame | ⟨r, _, _, hrole, _, hadded⟩
        · rw [hsame]
          exact .quiet (.refl db)
        · exact .add r hrole hadded
      · exact follows_ite (fun _ => ih) fun _ => follows_ending (hQ false)

theorem processInviteGroupMembersRequest_follows (ht : t.leaving = none) :
    Follows groupProtocol handedOver t
      (processInviteGroupMembersRequest qt requestId conn request) := by
  unfold processInviteGroupMembersRequest
  dsimp only
  refine follows_ite (fun _ => follows_ending ht) fun _ => ?_
  refine Follows.bind (follows_reading fun _ => follows_ite (fun _ => follows_ending ht) fun _ => ?_)
  refine Follows.bind (follows_reading fun _ => follows_ite (fun _ => follows_ending ht) fun _ => ?_)
  refine follows_ite (fun _ => follows_ending ht) fun _ => ?_
  refine follows_ite (fun _ => follows_ending ht) fun _ => ?_
  refine Follows.bind (follows_reading fun _ => ?_)
  refine Follows.bind (follows_keeping (checkInvitees_keeps _ _ _ _ _ _) fun checked => ?_)
  match checked with
  | .error (code, message) => exact follows_ending ht
  | .ok [] => exact follows_ending ht
  | .ok (first :: rest) =>
      refine Follows.bind (addGroupMembers_follows fun added => ?_)
      refine follows_ite (fun _ => follows_ending ht) fun _ => ?_
      refine Follows.bind (follows_keeping (announce_keeps _ _ _ _ _ _) fun _ => ?_)
      exact Follows.bind (follows_reading fun _ => follows_ending ht)

/-- Before an owner is removed the handler may have made another member owner. -/
theorem handOver_follows {Q : GroupGhost → List Push → Prop} {g me : Int} {role : MemberRole}
    (ht : t.leaving = none) (hme : t.me = me)
    (hQ : ∀ t' pushes, t'.me = me → (∀ g' ∈ t'.leaving, g' = g) → Q t' pushes) :
    Follows groupProtocol Q t (handOver qt g me role) := by
  have hkept : ∀ pushes, Q t pushes := fun pushes => hQ t pushes hme (by simp [ht])
  unfold handOver
  refine follows_ite (fun _ => follows_ending (hkept _)) fun _ => ?_
  refine Follows.bind (follows_reading fun db => ?_)
  cases successor me (db.getGroupMembers g) with
  | none => exact follows_ending (hkept _)
  | some newOwner =>
      refine Follows.bind (follows_call fun db _ => ⟨{ t with leaving := some g },
        .promote g newOwner ht (updateMemberRole_given g newOwner .owner db), ?_⟩)
      refine Follows.bind (follows_keeping (postGroupSystemMessage_keeps _ _ _ _) fun _ => ?_)
      refine Follows.bind (follows_keeping (notifyGroupChanged_keeps _ _ _ _) fun _ => ?_)
      exact follows_ending (hQ _ _ hme (by simp))

theorem processLeaveGroupRequest_follows (ht : t.leaving = none)
    (hme : t.me = conn.authenticatedUserId) :
    Follows groupProtocol handedOver t (processLeaveGroupRequest qt requestId conn request) := by
  unfold processLeaveGroupRequest
  dsimp only
  refine follows_ite (fun _ => follows_ending ht) fun _ => ?_
  refine Follows.bind (follows_reading fun _ => follows_ite (fun _ => follows_ending ht) fun _ => ?_)
  refine Follows.bind (follows_reading fun db => ?_)
  cases db.groupRole (request.value "conversationId").toLongLong conn.authenticatedUserId with
  | none => exact follows_ending ht
  | some role =>
      refine Follows.bind (handOver_follows ht hme fun t' transferred hme' hleaving => ?_)
      refine Follows.bind (follows_call fun db _ => ⟨{ t' with leaving := none },
        .remove _ _ (fun g' hg' => ⟨hleaving g' hg', hme'.symm⟩)
          (removeGroupMember_removed _ _ db), ?_⟩)
      refine follows_ite (fun _ => follows_ending rfl) fun _ => ?_
      exact Follows.bind (follows_keeping (announce_keeps _ _ _ _ _ _) fun _ => follows_ending rfl)

theorem processKickGroupMemberRequest_follows (ht : t.leaving = none) :
    Follows groupProtocol handedOver t
      (processKickGroupMemberRequest qt requestId conn request) := by
  unfold processKickGroupMemberRequest
  dsimp only
  refine follows_ite (fun _ => follows_ending ht) fun _ => ?_
  refine Follows.bind (follows_reading fun _ => follows_ite (fun _ => follows_ending ht) fun _ => ?_)
  refine follows_ite (fun _ => follows_ending ht) fun _ => ?_
  refine Follows.bind (follows_reading fun myRole => ?_)
  refine Follows.bind (follows_reading fun db => ?_)
  cases db.groupRole (request.value "conversationId").toLongLong
      (request.value "userId").toLongLong with
  | none => exact follows_ending ht
  | some targetRole =>
      refine follows_ite (fun _ => follows_ending ht) fun _ => ?_
      refine Follows.bind (follows_call fun db _ => ⟨{ t with leaving := none },
        .remove _ _ (by simp [ht]) (removeGroupMember_removed _ _ db), ?_⟩)
      refine follows_ite (fun _ => follows_ending rfl) fun _ => ?_
      exact Follows.bind (follows_keeping (announce_keeps _ _ _ _ _ _) fun _ => follows_ending rfl)

/-- Every handler follows the protocol. -/
theorem groupHandler_follows (kind : GroupRequest) :
    Follows groupProtocol handedOver { me := conn.authenticatedUserId }
      ((·.conn) <$> kind.handler qt requestId conn request) := by
  refine Follows.map ?_
  cases kind <;> dsimp only [GroupRequest.handler]
  case createGroup => exact processCreateGroupRequest_follows rfl
  case inviteGroupMembers => exact processInviteGroupMembersRequest_follows rfl
  case leaveGroup => exact processLeaveGroupRequest_follows rfl rfl
  case kickGroupMember => exact processKickGroupMemberRequest_follows rfl

end follows

/-! ## What a statement keeps -/

/-- The row is an owner's of the group. -/
structure IsOwner (db : Db) (g : Int) (o : MemberRow) : Prop where
  mem : o ∈ db.conversationMembers.rows
  group : o.conversationId = g
  role : o.role = .owner

/-- A group has room and an owner, and of two owners one is leaving; `leaving g u`
says that a handler of `u` has handed `g` over and not yet left it. -/
structure GroupsKept (leaving : Int → Int → Prop) (db : Db) : Prop where
  formed : MembersFormed db
  room : ∀ g, db.conversationType g = some .groupType → db.memberCount g ≤ maxGroupMembers
  owned : ∀ r ∈ db.conversationMembers.rows,
    db.conversationType r.conversationId = some .groupType → ∃ o, IsOwner db r.conversationId o
  single : ∀ g, db.conversationType g = some .groupType → ∀ o o', IsOwner db g o → IsOwner db g o' →
    o ≠ o' → ∃ u, leaving g u ∧ (o.userId = u ∨ o'.userId = u)

section kept

variable {leaving leaving' : Int → Int → Prop} {db db' : Db} {t t' : GroupGhost}

theorem GroupsKept.of_same (h : GroupsKept leaving db) (hsame : db.Keeps db')
    (hl : ∀ g u, leaving g u → leaving' g u) : GroupsKept leaving' db' := by
  have howner : ∀ {g o}, IsOwner db' g o ↔ IsOwner db g o := fun {g o} =>
    ⟨fun ho => ⟨hsame.members ▸ ho.mem, ho.group, ho.role⟩,
      fun ho => ⟨hsame.members.symm ▸ ho.mem, ho.group, ho.role⟩⟩
  refine ⟨⟨?_, ?_⟩, ?_, ?_, ?_⟩
  · intro r hr
    rw [hsame.types]
    exact h.formed.conversation r (hsame.members ▸ hr)
  · exact (Db.KeepsRows.of_keeps hsame).unique h.formed.unique
  · intro g hg
    unfold Db.memberCount
    rw [hsame.members]
    exact h.room g (hsame.types g ▸ hg)
  · intro r hr hg
    obtain ⟨o, ho⟩ := h.owned r (hsame.members ▸ hr) (hsame.types _ ▸ hg)
    exact ⟨o, howner.mpr ho⟩
  · intro g hg o o' ho ho' hne
    obtain ⟨u, hu, hor⟩ := h.single g (hsame.types g ▸ hg) o o' (howner.mp ho) (howner.mp ho') hne
    exact ⟨u, hl g u hu, hor⟩

/-- A new group starts with one owner and within the limit. -/
theorem GroupsKept.create {id ownerId : Int} {memberIds : List Int} {o : MemberRow}
    {rs : List MemberRow} (h : GroupsKept leaving db)
    (hc : GroupCreated db db' id ownerId memberIds o rs)
    (hl : ∀ g u, leaving g u → leaving' g u) : GroupsKept leaving' db' := by
  have hnone : ∀ r ∈ db.conversationMembers.rows, r.conversationId ≠ id := fun r hr heq => by
    have hsome := h.formed.conversation r hr
    rw [heq, hc.new] at hsome
    exact nomatch hsome
  have hrow : ∀ r ∈ o :: rs, r.conversationId = id := fun r hr => by
    rcases List.mem_cons.mp hr with rfl | hr
    · exact hc.owner.1
    · exact (hc.others r hr).1
  have hmem : ∀ r, r ∈ db'.conversationMembers.rows ↔
      r ∈ db.conversationMembers.rows ∨ r ∈ o :: rs := fun r => by
    rw [hc.rows, List.mem_append]
  -- the rows of `id` are the new ones, those of the others are the old ones
  have hold : ∀ r ∈ db'.conversationMembers.rows, r.conversationId ≠ id →
      r ∈ db.conversationMembers.rows := fun r hr hne =>
    ((hmem r).mp hr).resolve_right fun hin => hne (hrow r hin)
  have hnew : ∀ r ∈ db'.conversationMembers.rows, r.conversationId = id → r ∈ o :: rs :=
    fun r hr heq => ((hmem r).mp hr).resolve_left fun hin => hnone r hin heq
  have htype : ∀ g, g ≠ id → db'.conversationType g = db.conversationType g := fun g hne => by
    rw [hc.types, if_neg hne]
  refine ⟨⟨?_, ?_⟩, ?_, ?_, ?_⟩
  · intro r hr
    by_cases hr' : r.conversationId = id
    · rw [hr', hc.types, if_pos rfl]
      rfl
    · rw [htype _ hr']
      exact h.formed.conversation r (hold r hr hr')
  · intro r hr r' hr' hconv huser
    by_cases hin : r.conversationId = id
    · -- the users of the new rows are all different
      have hnodup : ((o :: rs).map (·.userId)).Nodup := by
        rw [List.map_cons, hc.owner.2.1]
        exact hc.nodup
      exact List.inj_on_of_nodup_map hnodup (hnew r hr hin) (hnew r' hr' (hconv ▸ hin)) huser
    · exact h.formed.unique r (hold r hr hin) r' (hold r' hr' (hconv ▸ hin)) hconv huser
  · intro g hg
    unfold Db.memberCount
    rw [hc.rows, List.countP_append]
    by_cases hin : g = id
    · have hzero : db.conversationMembers.rows.countP (·.conversationId == g) = 0 :=
        List.countP_eq_zero.mpr fun r hr => by simpa [hin] using hnone r hr
      have hle := List.countP_le_length (p := (·.conversationId == g)) (l := o :: rs)
      have := hc.length
      rw [List.length_cons] at hle
      omega
    · have hzero : (o :: rs).countP (·.conversationId == g) = 0 :=
        List.countP_eq_zero.mpr fun r hr => by
          rw [hrow r hr]
          simpa using Ne.symm hin
      have := h.room g (htype g hin ▸ hg)
      unfold Db.memberCount at this
      omega
  · intro r hr hg
    by_cases hin : r.conversationId = id
    · rw [hin]
      exact ⟨o, (hmem o).mpr (.inr List.mem_cons_self), hc.owner.1, hc.owner.2.2⟩
    · obtain ⟨o', ho'⟩ := h.owned r (hold r hr hin) (htype _ hin ▸ hg)
      exact ⟨o', (hmem o').mpr (.inl ho'.mem), ho'.group, ho'.role⟩
  · intro g hg o₁ o₂ ho₁ ho₂ hne
    by_cases hin : g = id
    · -- only the first of the new rows is an owner's
      have honly : ∀ r, IsOwner db' g r → r = o := fun r hr => by
        rcases List.mem_cons.mp (hnew r hr.mem (hr.group.trans hin)) with heq | hrest
        · exact heq
        · exact absurd ((hc.others r hrest).2.1.symm.trans hr.role) (by decide)
      exact absurd ((honly o₁ ho₁).trans (honly o₂ ho₂).symm) hne
    · have hold' : ∀ r, IsOwner db' g r → IsOwner db g r := fun r hr =>
        ⟨hold r hr.mem (hr.group ▸ hin), hr.group, hr.role⟩
      obtain ⟨u, hu, hor⟩ := h.single g (htype g hin ▸ hg) o₁ o₂ (hold' o₁ ho₁) (hold' o₂ ho₂) hne
      exact ⟨u, hl g u hu, hor⟩

/-- A member more, where the statement finds an owner and room. -/
theorem GroupsKept.add {r : MemberRow} (h : GroupsKept leaving db) (hrole : r.role = .member)
    (ha : MemberAdded db db' r) (hfinds : FindsAsRead t.me db db')
    (hl : ∀ g u, leaving g u → leaving' g u) : GroupsKept leaving' db' := by
  have hmem : ∀ x, x ∈ db'.conversationMembers.rows ↔ x ∈ db.conversationMembers.rows ∨ x = r :=
    fun x => by rw [ha.rows, List.mem_append, List.mem_singleton]
  have howner : ∀ {g o}, IsOwner db' g o → IsOwner db g o := fun {g o} ho => by
    rcases (hmem o).mp ho.mem with hin | rfl
    · exact ⟨hin, ho.group, ho.role⟩
    · exact absurd (hrole.symm.trans ho.role) (by decide)
  have hothers : ∀ x ∈ db.conversationMembers.rows, x.conversationId = r.conversationId →
      x.userId ≠ r.userId := fun x hx hconv huser => by
    have hin := (isConversationMember_iff r.conversationId r.userId).mpr ⟨x, hx, hconv, huser⟩
    rw [ha.new] at hin
    exact nomatch hin
  refine ⟨⟨?_, ?_⟩, ?_, ?_, ?_⟩
  · intro x hx
    rw [ha.types]
    rcases (hmem x).mp hx with hin | rfl
    · exact h.formed.conversation x hin
    · exact ha.exist
  · intro x hx x' hx' hconv huser
    rcases (hmem x).mp hx with hin | rfl <;> rcases (hmem x').mp hx' with hin' | rfl
    · exact h.formed.unique x hin x' hin' hconv huser
    · exact absurd huser (hothers x hin hconv)
    · exact absurd huser.symm (hothers x' hin' hconv.symm)
    · rfl
  · intro g hg
    rw [ha.types] at hg
    have hroom := h.room g hg
    unfold Db.memberCount at hroom ⊢
    rw [ha.rows, List.countP_append, List.countP_singleton]
    split
    · rename_i heq
      have hconv : r.conversationId = g := by simpa using heq
      have hlt := (hfinds.added r ((hmem r).mpr (.inr rfl)) (hconv ▸ hg) ha.new).1
      unfold Db.memberCount at hlt
      rw [hconv] at hlt
      omega
    · exact hroom
  · intro x hx hg
    rw [ha.types] at hg
    have hold : ∃ o, IsOwner db x.conversationId o := by
      rcases (hmem x).mp hx with hin | rfl
      · exact h.owned x hin hg
      · obtain ⟨o, ho, hconv, hown⟩ := (hfinds.added x hx hg ha.new).2
        exact ⟨o, ho, hconv, hown⟩
    obtain ⟨o, ho⟩ := hold
    exact ⟨o, (hmem o).mpr (.inl ho.mem), ho.group, ho.role⟩
  · intro g hg o o' ho ho' hne
    rw [ha.types] at hg
    obtain ⟨u, hu, hor⟩ := h.single g hg o o' (howner ho) (howner ho') hne
    exact ⟨u, hl g u hu, hor⟩

private theorem with_role {r : MemberRow} {role : MemberRole} (h : r.role = role) :
    { r with role := role } = r := by
  subst h
  rfl

/-- A successor becomes owner beside the owner who is leaving. -/
theorem GroupsKept.promote {g u : Int} (h : GroupsKept leaving db)
    (hp : RoleGiven db db' g u .owner) (hfinds : FindsAsRead t.me db db')
    (hl : ∀ g u, leaving g u → leaving' g u) (hown : leaving' g t.me) :
    GroupsKept leaving' db' := by
  have hmem : ∀ x, x ∈ db'.conversationMembers.rows ↔ ∃ r ∈ db.conversationMembers.rows,
      (if r.conversationId == g && r.userId == u then { r with role := .owner } else r) = x :=
    fun x => by rw [hp.rows, List.mem_map]
  -- every row of `db'` is one of `db` but for its role
  have hsame : ∀ x ∈ db'.conversationMembers.rows, ∃ r ∈ db.conversationMembers.rows,
      r.id = x.id ∧ r.conversationId = x.conversationId ∧ r.userId = x.userId ∧
        (r.role ≠ x.role → x.conversationId = g ∧ x.userId = u ∧ x.role = .owner) ∧
        (r.role = x.role → r = x) := by
    intro x hx
    obtain ⟨r, hr, rfl⟩ := (hmem x).mp hx
    refine ⟨r, hr, ?_⟩
    split
    · rename_i heq
      simp only [Bool.and_eq_true, beq_iff_eq] at heq
      exact ⟨rfl, rfl, rfl, fun _ => ⟨heq.1, heq.2, rfl⟩, fun hrole => (with_role hrole).symm⟩
    · exact ⟨rfl, rfl, rfl, fun hne => absurd rfl hne, fun _ => rfl⟩
  have hkept : ∀ {g' o}, IsOwner db g' o → IsOwner db' g' o := fun {g' o} ho => by
    refine ⟨(hmem o).mpr ⟨o, ho.mem, ?_⟩, ho.group, ho.role⟩
    split
    · exact with_role ho.role
    · rfl
  refine ⟨⟨?_, ?_⟩, ?_, ?_, ?_⟩
  · intro x hx
    obtain ⟨r, hr, _, hconv, _⟩ := hsame x hx
    rw [hp.types, ← hconv]
    exact h.formed.conversation r hr
  · intro x hx x' hx' hconv huser
    obtain ⟨r, hr, hid, hconv₁, huser₁, _⟩ := hsame x hx
    obtain ⟨r', hr', hid', hconv₂, huser₂, _⟩ := hsame x' hx'
    have heq := h.formed.unique r hr r' hr' (by rw [hconv₁, hconv₂, hconv])
      (by rw [huser₁, huser₂, huser])
    exact Table.key_inj hx hx' (hid.symm.trans ((congrArg _ heq).trans hid'))
  · intro g' hg
    rw [hp.types] at hg
    have hroom := h.room g' hg
    unfold Db.memberCount at hroom ⊢
    rw [hp.rows, List.countP_map]
    refine (le_of_eq (List.countP_congr fun r _ => ?_)).trans hroom
    show ((if _ then _ else r : MemberRow).conversationId == g') = true ↔ _
    split <;> rfl
  · intro x hx hg
    rw [hp.types] at hg
    obtain ⟨r, hr, _, hconv, _⟩ := hsame x hx
    rw [← hconv] at hg ⊢
    obtain ⟨o, ho⟩ := h.owned r hr hg
    exact ⟨o, hkept ho⟩
  · intro g' hg o o' ho ho' hne
    rw [hp.types] at hg
    obtain ⟨r, hr, hid, hconv, huser, hnew, hrest⟩ := hsame o ho.mem
    obtain ⟨r', hr', hid', hconv', huser', hnew', hrest'⟩ := hsame o' ho'.mem
    by_cases hrole : r.role = o.role <;> by_cases hrole' : r'.role = o'.role
    · -- both were owners before
      rw [hrest hrole] at hr
      rw [hrest' hrole'] at hr'
      obtain ⟨w, hw, hor⟩ := h.single g' hg o o' ⟨hr, ho.group, ho.role⟩
        ⟨hr', ho'.group, ho'.role⟩ hne
      exact ⟨w, hl g' w hw, hor⟩
    · obtain ⟨hg', _, _⟩ := hnew' hrole'
      have hme := hfinds.promoted o' ho'.mem r' hr' hid' ho'.role (ho'.role ▸ hrole') r hr
        (by rw [hconv, hconv', ho.group, ho'.group]) (hrole.trans ho.role)
      refine ⟨t.me, ?_, .inl (huser ▸ hme)⟩
      rw [← ho'.group, hg']
      exact hown
    · obtain ⟨hg', _, _⟩ := hnew hrole
      have hme := hfinds.promoted o ho.mem r hr hid ho.role (ho.role ▸ hrole) r' hr'
        (by rw [hconv, hconv', ho.group, ho'.group]) (hrole'.trans ho'.role)
      refine ⟨t.me, ?_, .inr (huser' ▸ hme)⟩
      rw [← ho.group, hg']
      exact hown
    · -- a user has one row
      obtain ⟨_, hu, _⟩ := hnew hrole
      obtain ⟨_, hu', _⟩ := hnew' hrole'
      have heq := h.formed.unique r hr r' hr' (by rw [hconv, hconv', ho.group, ho'.group])
        (by rw [huser, huser', hu, hu'])
      exact absurd (Table.key_inj ho.mem ho'.mem
        (hid.symm.trans ((congrArg _ heq).trans hid'))) hne

/-- A member less, which leaves another owner or nobody if it was an owner. -/
theorem GroupsKept.remove {g u : Int} (h : GroupsKept leaving db)
    (hr : MemberRemoved db db' g u) (hfinds : FindsAsRead t.me db db')
    (hl : ∀ g' u', leaving g' u' → leaving' g' u' ∨ (g' = g ∧ u' = u)) :
    GroupsKept leaving' db' := by
  have hold : ∀ x ∈ db'.conversationMembers.rows, x ∈ db.conversationMembers.rows :=
    fun x hx => (hr.mem.mp hx).1
  have howner : ∀ {g' o}, IsOwner db' g' o → IsOwner db g' o := fun ho =>
    ⟨hold _ ho.mem, ho.group, ho.role⟩
  refine ⟨⟨?_, ?_⟩, ?_, ?_, ?_⟩
  · intro x hx
    rw [hr.types]
    exact h.formed.conversation x (hold x hx)
  · intro x hx x' hx'
    exact h.formed.unique x (hold x hx) x' (hold x' hx')
  · intro g' hg
    rw [hr.types] at hg
    have hroom := h.room g' hg
    unfold Db.memberCount at hroom ⊢
    rw [hr.rows]
    exact (List.Sublist.countP_le List.filter_sublist).trans hroom
  · intro x hx hg
    rw [hr.types] at hg
    obtain ⟨o, ho⟩ := h.owned x (hold x hx) hg
    by_cases hgone : o.conversationId = g ∧ o.userId = u
    · -- the owner was removed
      have hout : db'.isConversationMember o.conversationId o.userId = false := by
        rw [Bool.eq_false_iff]
        intro hin
        obtain ⟨y, hy, hconv, huser⟩ := (isConversationMember_iff _ _).mp hin
        exact (hr.mem.mp hy).2 ⟨hconv.trans hgone.1, huser.trans hgone.2⟩
      rcases hfinds.removed o ho.mem ho.role hout with ⟨o', ho', hconv, hrole, hne⟩ | hnobody
      · exact ⟨o', hr.mem.mpr ⟨ho', fun heq => hne (heq.2.trans hgone.2.symm)⟩,
          hconv.trans ho.group, hrole⟩
      · have huser := hnobody x (hold x hx) ho.group.symm
        exact absurd ⟨ho.group.symm.trans hgone.1, huser.trans hgone.2⟩ (hr.mem.mp hx).2
    · exact ⟨o, hr.mem.mpr ⟨ho.mem, hgone⟩, ho.group, ho.role⟩
  · intro g' hg o o' ho ho' hne
    rw [hr.types] at hg
    obtain ⟨w, hw, hor⟩ := h.single g' hg o o' (howner ho) (howner ho') hne
    rcases hl g' w hw with hstill | ⟨rfl, rfl⟩
    · exact ⟨w, hstill, hor⟩
    · -- the one who was leaving has left
      rcases hor with hu | hu
      · exact absurd ⟨ho.group, hu⟩ (hr.mem.mp ho.mem).2
      · exact absurd ⟨ho'.group, hu⟩ (hr.mem.mp ho'.mem).2

/-- **Statement lemma.** The groups stay in order where the statement finds what
its handler has read. -/
theorem GroupStatement.kept (h : GroupStatement t db db' t') (hkept : GroupsKept leaving db)
    (hfinds : FindsAsRead t.me db db')
    (hothers : ∀ g u, leaving g u → leaving' g u ∨ (t.leaving = some g ∧ t.me = u))
    (hown : ∀ g, t'.leaving = some g → leaving' g t.me) : GroupsKept leaving' db' := by
  have hl (ht : t'.leaving = t.leaving) : ∀ g u, leaving g u → leaving' g u := fun g u hg => by
    rcases hothers g u hg with hstill | ⟨hg', rfl⟩
    · exact hstill
    · exact hown g (ht.trans hg')
  cases h with
  | quiet hsame => exact hkept.of_same hsame (hl rfl)
  | create id ownerId memberIds o rs hc => exact hkept.create hc (hl rfl)
  | add r hrole ha => exact hkept.add hrole ha hfinds (hl rfl)
  | promote g u ht hp =>
      refine hkept.promote hp hfinds (fun g' u' hg => ?_) (hown g rfl)
      rcases hothers g' u' hg with hstill | ⟨hg', _⟩
      · exact hstill
      · rw [ht] at hg'
        exact nomatch hg'
  | remove g u hgone hr =>
      refine hkept.remove hr hfinds fun g' u' hg => ?_
      rcases hothers g' u' hg with hstill | ⟨hg', rfl⟩
      · exact .inl hstill
      · obtain ⟨rfl, rfl⟩ := hgone g' hg'
        exact .inr ⟨rfl, rfl⟩

end kept

/-! ## Runs -/

section runs

variable {g : Nat → GroupGhost} {s : Pool Db Connection} {qt : Qt}

theorem memberCount_pos {db : Db} {id : Int} :
    0 < db.memberCount id ↔ ∃ r ∈ db.conversationMembers.rows, r.conversationId = id := by
  unfold Db.memberCount
  rw [List.countP_pos_iff]
  simp only [beq_iff_eq]

/-- There is one owner exactly when some row is the only one of an owner. -/
theorem ownerCount_eq_one {db : Db} {id : Int} :
    db.ownerCount id = 1 ↔ ∃ o, ∀ x, IsOwner db id x ↔ x = o := by
  have hmem : ∀ x, x ∈ db.conversationMembers.rows.filter (fun r =>
      r.conversationId == id && r.role == .owner) ↔ IsOwner db id x := fun x => by
    rw [List.mem_filter, Bool.and_eq_true, beq_iff_eq, beq_iff_eq]
    exact ⟨fun h => ⟨h.1, h.2.1, h.2.2⟩, fun h => ⟨h.mem, h.group, h.role⟩⟩
  unfold Db.ownerCount
  rw [List.countP_eq_length_filter]
  constructor
  · intro h
    obtain ⟨o, ho⟩ := List.length_eq_one_iff.mp h
    exact ⟨o, fun x => by rw [← hmem, ho, List.mem_singleton]⟩
  · rintro ⟨o, ho⟩
    have hnodup := (List.Nodup.of_map key (@Table.keys_nodup _ _ db.conversationMembers)).filter
      fun r => r.conversationId == id && r.role == .owner
    have hperm := (List.perm_ext_iff_of_nodup hnodup (List.nodup_singleton o)).mpr fun x => by
      rw [hmem, ho, List.mem_singleton]
    exact hperm.length_eq

/-- A handler of `u` is midway between handing the group over and leaving it. -/
def Leaving (g : Nat → GroupGhost) (s : Pool Db Connection) (id u : Int) : Prop :=
  ∃ c, (s.workers c).running ≠ none ∧ (g c).leaving = some id ∧ (g c).me = u

structure GroupInvariant (g : Nat → GroupGhost) (s : Pool Db Connection) : Prop where
  guarded : Pool.Guarded groupProtocol handedOver g s
  me : ∀ c, (s.workers c).running ≠ none →
    (g c).me = (s.workers c).here.authenticatedUserId
  kept : GroupsKept (Leaving g s) s.store

/-- In order at the start. -/
theorem GroupsStart.invariant (h : GroupsStart s) : GroupInvariant g s := by
  refine ⟨fun c prog hprog => ?_, fun c hbusy => absurd (h.nobody c) hbusy,
    h.formed, fun id hid => ?_, fun r hr hid => ?_, fun id hid o o' ho ho' hne => ?_⟩
  · rw [h.nobody c] at hprog
    exact nomatch hprog
  · rcases Nat.eq_zero_or_pos (s.store.memberCount id) with hzero | hpos
    · rw [hzero]
      exact Nat.zero_le _
    · exact (h.groups id hid hpos).2
  · obtain ⟨o, ho⟩ := ownerCount_eq_one.mp
      (h.groups _ hid (memberCount_pos.mpr ⟨r, hr, rfl⟩)).1
    exact ⟨o, (ho o).mpr rfl⟩
  · obtain ⟨x, hx⟩ := ownerCount_eq_one.mp
      (h.groups id hid (memberCount_pos.mpr ⟨o, ho.mem, ho.group⟩)).1
    exact absurd (((hx o).mp ho).trans ((hx o').mp ho').symm) hne

/-- In order whenever nobody is midway. -/
theorem GroupInvariant.inOrder (h : GroupInvariant g s) (hnobody : NobodyMidway s) :
    GroupsInOrder s.store := by
  intro id hid hpos
  refine ⟨ownerCount_eq_one.mpr ?_, h.kept.room id hid⟩
  obtain ⟨r, hr, rfl⟩ := memberCount_pos.mp hpos
  obtain ⟨o, ho⟩ := h.kept.owned r hr hid
  refine ⟨o, fun x => ⟨fun hx => ?_, fun hx => hx ▸ ho⟩⟩
  by_contra hne
  obtain ⟨_, ⟨c, hbusy, _⟩, _⟩ := h.kept.single _ hid x o hx ho hne
  exact hbusy (hnobody c)

/-- An idle worker may be replaced by another idle one. -/
theorem GroupInvariant.connect {c : Nat} {conn : Connection} (h : GroupInvariant g s)
    (hidle : (s.workers c).running = none) : GroupInvariant g (s.setWorker c { here := conn }) := by
  have hother : ∀ c', ((s.setWorker c { here := conn }).workers c').running ≠ none →
      c' ≠ c ∧ (s.setWorker c { here := conn }).workers c' = s.workers c' := fun c' hbusy => by
    by_cases hc : c' = c
    · subst hc
      simp at hbusy
    · exact ⟨hc, Function.update_of_ne hc _ _⟩
  refine ⟨h.guarded.setWorker, fun c' hbusy => ?_, h.kept.of_same (.refl _) ?_⟩
  · have hsame := (hother c' hbusy).2
    rw [hsame] at hbusy ⊢
    exact h.me c' hbusy
  · rintro id u ⟨c', hbusy, hleaving⟩
    have hc : c' ≠ c := fun heq => hbusy (heq ▸ hidle)
    refine ⟨c', ?_, hleaving⟩
    show (Function.update s.workers c _ c').running ≠ none
    rw [Function.update_of_ne hc]
    exact hbusy

/-- An idle worker starts a handler of its user. -/
theorem GroupInvariant.request {c : Nat} {kind : GroupRequest} {requestId : Nat} {request : Json}
    (h : GroupInvariant g s) (hidle : (s.workers c).running = none) :
    GroupInvariant (Function.update g c { me := (s.workers c).here.authenticatedUserId })
      (s.start c ((·.conn) <$> kind.handler qt requestId (s.workers c).here request)) := by
  refine ⟨h.guarded.start trivial (groupHandler_follows kind), fun c' hbusy => ?_,
    h.kept.of_same (.refl _) ?_⟩
  · by_cases hc : c' = c
    · subst hc
      simp [Pool.start]
    · simp only [Pool.start, Pool.workers_setWorker, Function.update_of_ne hc] at hbusy ⊢
      exact h.me c' hbusy
  · rintro id u ⟨c', hbusy, hleaving⟩
    have hc : c' ≠ c := fun heq => hbusy (heq ▸ hidle)
    refine ⟨c', ?_, ?_⟩
    · simpa only [Pool.start, Pool.workers_setWorker, Function.update_of_ne hc] using hbusy
    · rw [Function.update_of_ne hc]
      exact hleaving

/-- A handler executes a statement, or ends. -/
theorem GroupInvariant.statement {c : Nat} (h : GroupInvariant g s)
    (hfinds : FindsAsRead (s.workers c).here.authenticatedUserId s.store (s.advance c).store) :
    ∃ g', GroupInvariant g' (s.advance c) := by
  cases hrunning : (s.workers c).running with
  | none =>
      have hsame : s.advance c = s := by
        unfold Pool.advance
        rw [hrunning]
      rw [hsame]
      exact ⟨g, h⟩
  | some prog =>
      obtain ⟨_, hfollows⟩ := h.guarded c prog hrunning
      cases prog with
      | ret conn =>
          have hdone : s.advance c = s.setWorker c { here := conn } := by
            unfold Pool.advance
            rw [hrunning]
          rw [hdone]
          refine ⟨g, h.guarded.setWorker, fun c' hbusy => ?_, h.kept.of_same (.refl _) ?_⟩
          · by_cases hc : c' = c
            · subst hc
              simp at hbusy
            · simp only [Pool.workers_setWorker, Function.update_of_ne hc] at hbusy ⊢
              exact h.me c' hbusy
          · rintro id u ⟨c', hbusy, hleaving, hu⟩
            -- the handler that ends is not leaving
            have hended : handedOver (g c) conn := follows_pure.mp hfollows
            have hc : c' ≠ c := fun heq => by
              rw [heq, show (g c).leaving = none from hended] at hleaving
              exact nomatch hleaving
            refine ⟨c', ?_, hleaving, hu⟩
            simpa only [Pool.workers_setWorker, Function.update_of_ne hc] using hbusy
      | stmt upd next =>
          obtain ⟨t', hstatement, hnext⟩ := follows_stmt.mp hfollows s.store trivial
          have hme : t'.me = (g c).me := by cases hstatement <;> rfl
          have hstep : s.advance c =
              { s.setWorker c { s.workers c with running := some (next s.store) } with
                store := upd s.store } := by
            unfold Pool.advance
            rw [hrunning]
          have hbusyc : (s.workers c).running ≠ none := by rw [hrunning]; simp
          rw [hstep] at hfinds ⊢
          refine ⟨Function.update g c t', h.guarded.step (fun _ _ _ => trivial) trivial hnext,
            fun c' hbusy => ?_, ?_⟩
          · by_cases hc : c' = c
            · subst hc
              rw [Function.update_self, hme, h.me c' hbusyc]
              simp
            · simp only [Pool.workers_setWorker, Function.update_of_ne hc] at hbusy ⊢
              exact h.me c' hbusy
          · refine GroupStatement.kept hstatement h.kept (by rw [h.me c hbusyc]; exact hfinds)
              ?_ fun id hid => ?_
            · rintro id u ⟨c', hbusy, hleaving, hu⟩
              by_cases hc : c' = c
              · subst hc
                exact .inr ⟨hleaving, hu⟩
              · refine .inl ⟨c', ?_, ?_, ?_⟩
                · simpa only [Pool.workers_setWorker, Function.update_of_ne hc] using hbusy
                · rw [Function.update_of_ne hc]
                  exact hleaving
                · rw [Function.update_of_ne hc]
                  exact hu
            · refine ⟨c, by simp, ?_, ?_⟩
              · rw [Function.update_self]
                exact hid
              · rw [Function.update_self]
                exact hme

/-- **Step lemma.** -/
theorem groupStep_invariant {op : GroupOp} (h : GroupInvariant g s)
    (hop : StepFindsAsRead s op) : ∃ g', GroupInvariant g' (groupStep qt s op) := by
  cases op with
  | connect c conn =>
      show ∃ g', GroupInvariant g' (if (s.workers c).running.isSome then s else _)
      split
      · exact ⟨g, h⟩
      · rename_i hidle
        exact ⟨g, h.connect (by simpa using hidle)⟩
  | request c kind requestId request =>
      show ∃ g', GroupInvariant g' (if (s.workers c).running.isSome then s else _)
      split
      · exact ⟨g, h⟩
      · rename_i hidle
        exact ⟨_, h.request (by simpa using hidle)⟩
  | statement c => exact h.statement hop
  | tick seconds =>
      exact ⟨g, h.guarded.setStore fun _ _ => trivial, h.me,
        h.kept.of_same (.of_eq rfl rfl rfl rfl) fun _ _ hl => hl⟩

/-- **Groups in order.** In every run whose statements find what their handlers
have read, whenever no handler is midway each group that has members has one
owner, and no more members than the limit. -/
theorem groupsInOrder_of_findsAsRead (qt : Qt) (s₀ : Pool Db Connection) (h₀ : GroupsStart s₀)
    (ops : List GroupOp) (hops : (groupMachine qt).Along StepFindsAsRead s₀ ops) :
    (groupMachine qt).Always (fun s => NobodyMidway s → GroupsInOrder s.store) s₀ ops := by
  have hinv : (groupMachine qt).Always (fun s => ∃ g, GroupInvariant g s) s₀ ops :=
    Machine.always_of_along (fun s op ⟨g, h⟩ hop => groupStep_invariant h hop)
      ⟨fun _ => { me := 0 }, h₀.invariant⟩ hops
  exact hinv.mono fun s ⟨g, h⟩ => h.inOrder

end runs

/-! ## A handover, and one that fails -/

instance (db db' : Db) : Decidable (FindsRoom db db') :=
  inferInstanceAs (Decidable (∀ r ∈ db'.conversationMembers.rows,
    db.conversationType r.conversationId = some .groupType →
    db.isConversationMember r.conversationId r.userId = false →
    db.memberCount r.conversationId < maxGroupMembers ∧
      ∃ o ∈ db.conversationMembers.rows, o.conversationId = r.conversationId ∧ o.role = .owner))

instance (me : Int) (db db' : Db) : Decidable (FindsNoOther me db db') :=
  inferInstanceAs (Decidable (∀ r' ∈ db'.conversationMembers.rows,
    ∀ r ∈ db.conversationMembers.rows, r.id = r'.id → r'.role = .owner → r.role ≠ .owner →
      ∀ o ∈ db.conversationMembers.rows, o.conversationId = r.conversationId → o.role = .owner →
        o.userId = me))

instance (db db' : Db) : Decidable (FindsAnother db db') :=
  inferInstanceAs (Decidable (∀ o ∈ db.conversationMembers.rows, o.role = .owner →
    db'.isConversationMember o.conversationId o.userId = false →
    (∃ o' ∈ db.conversationMembers.rows, o'.conversationId = o.conversationId ∧
      o'.role = .owner ∧ o'.userId ≠ o.userId) ∨
    ∀ r ∈ db.conversationMembers.rows, r.conversationId = o.conversationId → r.userId = o.userId))

instance (me : Int) (db db' : Db) : Decidable (FindsAsRead me db db') :=
  decidable_of_iff (FindsRoom db db' ∧ FindsNoOther me db db' ∧ FindsAnother db db')
    ⟨fun ⟨h, h', h''⟩ => ⟨h, h', h''⟩, fun h => ⟨h.added, h.promoted, h.removed⟩⟩

instance (s : Pool Db Connection) : ∀ op, Decidable (StepFindsAsRead s op)
  | .statement c => inferInstanceAs (Decidable
      (FindsAsRead (s.workers c).here.authenticatedUserId s.store (s.advance c).store))
  | .connect .. => isTrue trivial
  | .request .. => isTrue trivial
  | .tick _ => isTrue trivial

/-- Nothing is parsed, and everything is rendered as nothing. -/
def emptyQt : Qt where
  fromJson _ := none
  toJson _ := ""
  fromBase64 _ := []
  toBase64 _ := ""
  isoDate _ := ""

/-- Alice owns a group with bob and carol in it; each has a connection, alice the
first. -/
def groupOfThree : Pool Db Connection where
  store :=
    { now := 1
      users := .ofRows
        [ { id := 1, username := "alice" }, { id := 2, username := "bob" }
        , { id := 3, username := "carol" } ]
      conversations := .ofRows [{ id := 1, type := .groupType, name := "g" }]
      conversationMembers := .ofRows
        [ { id := 1, conversationId := 1, userId := 1, role := .owner }
        , { id := 2, conversationId := 1, userId := 2 }
        , { id := 3, conversationId := 1, userId := 3 } ] }
  workers c := { here := { authenticatedUserId := c + 1 } }

theorem groupOfThree_starts : GroupsStart groupOfThree := by
  have hrows : ∀ r ∈ groupOfThree.store.conversationMembers.rows,
      groupOfThree.store.ownerCount r.conversationId = 1 ∧
        groupOfThree.store.memberCount r.conversationId ≤ maxGroupMembers := by decide
  refine ⟨fun _ => rfl, ⟨by decide, by decide⟩, fun g _ hpos => ?_⟩
  obtain ⟨r, hr, rfl⟩ := memberCount_pos.mp hpos
  exact hrows r hr

/-- The user of connection `c` asks to leave the group. -/
def leaveRequest (c : Nat) : GroupOp :=
  .request c .leaveGroup 1 (.obj [("conversationId", .int 1)])

/-- Alice leaves, and nobody else does anything meanwhile. -/
def handingOver : List GroupOp := leaveRequest 0 :: List.replicate 40 (.statement 0)

/-- The group is handed over to bob. -/
theorem groupsInOrder_handingOver :
    (groupMachine emptyQt).Always (fun s => NobodyMidway s → GroupsInOrder s.store)
      groupOfThree handingOver :=
  groupsInOrder_of_findsAsRead emptyQt groupOfThree groupOfThree_starts handingOver
    (by decide +kernel)

/-- After alice's handler has chosen bob as her successor, bob leaves. -/
def leavingTogether : List GroupOp :=
  leaveRequest 0 :: List.replicate 3 (.statement 0) ++
    leaveRequest 1 :: List.replicate 30 (.statement 1) ++ List.replicate 40 (.statement 0)

/-- The connection an operation is about. -/
def GroupOp.slot : GroupOp → Nat
  | .connect c _ => c
  | .request c .. => c
  | .statement c => c
  | .tick _ => 0

theorem workers_groupStep {qt : Qt} {s : Pool Db Connection} {op : GroupOp} {c : Nat}
    (h : op.slot ≠ c) : (groupStep qt s op).workers c = s.workers c := by
  have hupdate : ∀ (s : Pool Db Connection) (w : Worker Db Connection) (c' : Nat), c' ≠ c →
      (s.setWorker c' w).workers c = s.workers c :=
    fun s w c' hne => by rw [Pool.workers_setWorker, Function.update_of_ne (Ne.symm hne)]
  cases op with
  | connect c' conn =>
      show (if (s.workers c').running.isSome then s else s.setWorker c' _).workers c = _
      split
      · rfl
      · exact hupdate s _ c' h
  | request c' kind requestId request =>
      show (if (s.workers c').running.isSome then s else s.start c' _).workers c = _
      split
      · rfl
      · exact hupdate s _ c' h
  | statement c' =>
      show (s.advance c').workers c = _
      unfold Pool.advance
      split
      · rfl
      · exact hupdate s _ c' h
      · exact hupdate s _ c' h
  | tick seconds => rfl

/-- An operation about another connection leaves this one as it is. -/
theorem workers_groupRun {qt : Qt} {s : Pool Db Connection} {ops : List GroupOp} {c : Nat}
    (h : ∀ op ∈ ops, op.slot ≠ c) : ((groupMachine qt).run s ops).workers c = s.workers c := by
  induction ops generalizing s with
  | nil => rfl
  | cons op ops ih =>
      rw [Machine.run_cons, ih fun op' hop' => h op' (List.mem_cons_of_mem _ hop')]
      exact workers_groupStep (h op List.mem_cons_self)

/-- Bob is gone when alice's handler makes him owner: carol is left in a group
without an owner. -/
theorem leavingTogether_ownerless :
    ¬(groupMachine emptyQt).Always (fun s => NobodyMidway s → GroupsInOrder s.store)
      groupOfThree leavingTogether := by
  intro h
  have hslots : ∀ op ∈ leavingTogether, op.slot = 0 ∨ op.slot = 1 := by decide
  have hnobody : NobodyMidway ((groupMachine emptyQt).run groupOfThree leavingTogether) := by
    intro c
    by_cases h0 : c = 0
    · subst h0
      exact Option.isNone_iff_eq_none.mp (by decide +kernel)
    by_cases h1 : c = 1
    · subst h1
      exact Option.isNone_iff_eq_none.mp (by decide +kernel)
    · rw [workers_groupRun fun op hop => by have := hslots op hop; omega]
      rfl
  have horder := h.last hnobody 1 (by decide +kernel) (by decide +kernel)
  exact absurd horder.1 (by decide +kernel)

end XYChat.Server
