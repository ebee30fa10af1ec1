import Mathlib.Logic.Function.Iterate
import XYChat.Server.Conversations

/-!
# Reading a conversation page by page

A client reads a conversation's history by asking for the messages after the last one
it has, for as long as the reply says that there is more. The limit it asks with is
handed to the database as it is.
-/

namespace XYChat.Server

open XYChat.Lib

/-! ## The loop -/

/-- A `sync_messages` request. -/
def syncMessagesRequest (conversationId afterId limit : Int) : Json := .obj
  [ ("type", .str "sync_messages"), ("conversationId", .int conversationId)
  , ("afterId", .int afterId), ("limit", .int limit) ]

/-- Where the loop is: the pages so far, and whether there is more. -/
structure Paging where
  db : Db
  afterId : Int
  pages : List (List Json) := []
  hasMore : Bool := true

section

variable (qt : Qt) (conn : Connection) (conversationId limit : Int)

/-- Ask for the page after the last message, where there is more. -/
def Paging.next (s : Paging) : Paging :=
  if s.hasMore = false then s
  else
    let (db, out) := (processSyncMessagesRequest qt 0 conn
      (syncMessagesRequest conversationId s.afterId limit)).exec s.db
    let page := (out.response.data.value "messages").toArray
    { db
      afterId := match page.getLast? with
        | none => s.afterId
        | some last => (last.value "messageId").toLongLong
      pages := s.pages ++ [page]
      hasMore := (out.response.data.value "hasMore").toBool }

/-- The messages of a conversation after an id. -/
def Db.history (db : Db) (afterId : Int) : List MessageRow :=
  db.messages.rows.filter fun m => m.conversationId == conversationId && afterId < m.id

/-- The loop ends, and its pages are the messages after `afterId`, each once and in
order. -/
def PagesComplete (db : Db) (afterId : Int) : Prop :=
  ∃ n, let s := (Paging.next qt conn conversationId limit)^[n] { db, afterId }
    s.hasMore = false ∧ s.pages.flatten =
      (db.history conversationId afterId).map fun m => messageJson qt m (db.usernameById m.senderId)

end

/-! ## One page -/

section

variable {qt : Qt} {conn : Connection} {conversationId limit : Int} {db : Db}

/-- What the database joins is the history, where every sender is a user. -/
theorem syncMessages_eq (hsenders : ∀ m ∈ db.messages.rows, (db.users.get m.senderId).isSome)
    (afterId limit : Int) :
    db.syncMessages conversationId afterId limit =
      let found := (db.history conversationId afterId).map fun m => (m, db.usernameById m.senderId)
      if limit < 0 then found else found.take limit.toNat := by
  have hjoin : ∀ rows : List MessageRow,
      (∀ m ∈ rows, (db.users.get m.senderId).isSome) →
      (rows.filterMap fun m =>
        if m.conversationId = conversationId ∧ afterId < m.id then
          (db.users.get m.senderId).map fun u => (m, u.username)
        else none) =
      (rows.filter fun m => m.conversationId == conversationId && afterId < m.id).map
        fun m => (m, db.usernameById m.senderId) := by
    intro rows hrows
    induction rows with
    | nil => rfl
    | cons m rows ih =>
        obtain ⟨hm, hrest⟩ := List.forall_mem_cons.mp hrows
        obtain ⟨user, huser⟩ := Option.isSome_iff_exists.mp hm
        by_cases hin : m.conversationId = conversationId ∧ afterId < m.id
        · rw [List.filterMap_cons, if_pos hin, huser, List.filter_cons_of_pos (by simpa using hin),
            List.map_cons, ← ih hrest]
          unfold Db.usernameById
          rw [huser]
          rfl
        · rw [List.filterMap_cons, if_neg hin, List.filter_cons_of_neg (by simpa using hin),
            ← ih hrest]
  unfold Db.syncMessages
  dsimp only
  rw [hjoin _ hsenders]
  rfl

/-- What the loop needs to stay the same: the messages, the users, and that the asking
user is a member. -/
structure Readable (conn : Connection) (conversationId : Int) (db db' : Db) : Prop where
  messages : db'.messages = db.messages
  users : db'.users = db.users
  member : db'.isConversationMember conversationId conn.authenticatedUserId = true

theorem Readable.history {db' : Db} (h : Readable conn conversationId db db') (afterId : Int) :
    db'.history conversationId afterId = db.history conversationId afterId := by
  unfold Db.history
  rw [h.messages]

theorem isConversationMember_updateMemberReadCursor (userId messageId : Int)
    (h : db.isConversationMember conversationId conn.authenticatedUserId = true) :
    (db.updateMemberReadCursor conversationId userId messageId).isConversationMember
      conversationId conn.authenticatedUserId = true := by
  unfold Db.isConversationMember at h ⊢
  obtain ⟨m, hm, hmember⟩ := List.any_eq_true.mp h
  refine List.any_eq_true.mpr ⟨_, List.mem_map_of_mem hm, ?_⟩
  split <;> exact hmember

/-- The reply to a member's request. -/
theorem processSyncMessagesRequest_page (qt : Qt) {request : Json} {db' : Db}
    (hconv : 0 < (request.value "conversationId").toLongLong)
    (hread : Readable conn (request.value "conversationId").toLongLong db db') :
    let conversationId := (request.value "conversationId").toLongLong
    let limit := (request.value "limit").toInt 100
    let messages := db'.syncMessages conversationId (request.value "afterId").toLongLong limit
    let result := (processSyncMessagesRequest qt 0 conn request).exec db'
    Readable conn conversationId db result.1 ∧
      result.2.response.data = .obj
        [ ("conversationId", .int conversationId)
        , ("messages", .arr (messages.map fun m => messageJson qt m.1 m.2))
        , ("hasMore", .bool (limit ≤ messages.length)) ] := by
  dsimp only
  unfold processSyncMessagesRequest
  rw [if_neg (by omega)]
  simp only [Prog.exec_bind, Prog.exec_query, hread.member, Bool.not_true, Bool.false_eq_true,
    if_false]
  cases (db'.syncMessages (request.value "conversationId").toLongLong
      (request.value "afterId").toLongLong ((request.value "limit").toInt 100)).getLast? with
  | none => exact ⟨hread, rfl⟩
  | some last =>
      exact ⟨⟨hread.messages, hread.users,
        isConversationMember_updateMemberReadCursor _ _ hread.member⟩, rfl⟩

/-- **One request.** The page is the joined messages, and the client goes on from the
last of them. -/
theorem Paging.next_eq (qt : Qt) (hconv : 0 < conversationId) {s : Paging}
    (hread : Readable conn conversationId db s.db) (hmore : s.hasMore = true) :
    let messages := s.db.syncMessages conversationId s.afterId ((Json.int limit).toInt 100)
    ∃ db', Readable conn conversationId db db' ∧
      s.next qt conn conversationId limit =
        { db := db'
          afterId := (messages.getLast?.map (·.1.id)).getD s.afterId
          pages := s.pages ++ [messages.map fun m => messageJson qt m.1 m.2]
          hasMore := decide ((Json.int limit).toInt 100 ≤ messages.length) } := by
  dsimp only
  obtain ⟨hread', hdata⟩ := @processSyncMessagesRequest_page conn db qt
    (syncMessagesRequest conversationId s.afterId limit) s.db hconv hread
  refine ⟨_, hread', ?_⟩
  unfold Paging.next
  rw [if_neg (by rw [hmore]; decide)]
  dsimp only
  rw [hdata]
  have hlast : ∀ pairs : List (MessageRow × String),
      (match (pairs.map fun m => messageJson qt m.1 m.2).getLast? with
        | none => s.afterId
        | some last => (last.value "messageId").toLongLong) =
      (pairs.getLast?.map (·.1.id)).getD s.afterId := by
    intro pairs
    rw [List.getLast?_map]
    cases pairs.getLast? with
    | none => rfl
    | some last => rfl
  exact congrArg (fun afterId => ({ afterId, db := _, pages := _, hasMore := _ } : Paging)) (hlast _)

/-! ## The loop with a limit of one or more -/

/-- What is left of the history after the first `k` messages. -/
theorem history_drop {afterId : Int} {k : Nat} {last : MessageRow}
    (hlast : ((db.history conversationId afterId).take k).getLast? = some last) :
    db.history conversationId last.id = (db.history conversationId afterId).drop k := by
  have hmem : last ∈ db.history conversationId afterId :=
    List.mem_of_mem_take (List.mem_of_getLast? hlast)
  have hafter : afterId < last.id := by
    have := (List.mem_filter.mp hmem).2
    simp only [Bool.and_eq_true, decide_eq_true_eq] at this
    exact this.2
  have hsorted : (db.history conversationId afterId).Pairwise fun a b => a.id < b.id :=
    db.messages.sorted.filter _
  have hagain : db.history conversationId last.id =
      (db.history conversationId afterId).filter fun m => last.id < m.id := by
    unfold Db.history
    rw [List.filter_filter]
    refine List.filter_congr fun m _ => ?_
    by_cases hlater : last.id < m.id
    · simp [hlater, hafter.trans hlater]
    · simp [hlater]
  rw [hagain]
  -- the first `k` end with `last`, the others come after it
  obtain ⟨init, hinit⟩ := List.getLast?_eq_some_iff.mp hlast
  have hsplit := List.take_append_drop k (db.history conversationId afterId)
  rw [← hsplit] at hsorted
  obtain ⟨hfirst, -, hcross⟩ := List.pairwise_append.mp hsorted
  conv_lhs => rw [← hsplit, List.filter_append]
  have hnone : ((db.history conversationId afterId).take k).filter (fun m => last.id < m.id) = [] := by
    refine List.filter_eq_nil_iff.mpr fun m hm => ?_
    rw [hinit] at hm hfirst
    rcases List.mem_append.mp hm with hbefore | hsame
    · have := (List.pairwise_append.mp hfirst).2.2 m hbefore last (List.mem_singleton_self _)
      simpa using this.le
    · rw [List.mem_singleton.mp hsame]
      simp
  have hall : ((db.history conversationId afterId).drop k).filter (fun m => last.id < m.id) =
      (db.history conversationId afterId).drop k :=
    List.filter_eq_self.mpr fun m hm => by
      simpa using hcross last (List.mem_of_getLast? hlast) m hm
  rw [hnone, hall, List.nil_append]

/-- **The loop.** With a positive limit each page takes messages off the history until
a short one ends it. -/
theorem paging_ends (qt : Qt) (hconv : 0 < conversationId)
    (hsenders : ∀ m ∈ db.messages.rows, (db.users.get m.senderId).isSome)
    (hlimit : 0 < (Json.int limit).toInt 100) {s : Paging}
    (hread : Readable conn conversationId db s.db) (hmore : s.hasMore = true) :
    ∃ n, ((Paging.next qt conn conversationId limit)^[n] s).hasMore = false ∧
      ((Paging.next qt conn conversationId limit)^[n] s).pages.flatten =
        s.pages.flatten ++ (db.history conversationId s.afterId).map
          fun m => messageJson qt m (db.usernameById m.senderId) := by
  obtain ⟨k, hk⟩ : ∃ k : Nat, (Json.int limit).toInt 100 = k :=
    ⟨_, (Int.toNat_of_nonneg hlimit.le).symm⟩
  generalize hsize : (db.history conversationId s.afterId).length = size
  induction size using Nat.strong_induction_on generalizing s with
  | _ size ih =>
      obtain ⟨db', hread', hnext⟩ := @Paging.next_eq conn conversationId limit db qt hconv s hread hmore
      have hsenders' : ∀ m ∈ s.db.messages.rows, (s.db.users.get m.senderId).isSome := by
        rw [hread.messages, hread.users]
        exact hsenders
      have hnames : s.db.usernameById = db.usernameById := by
        funext userId
        unfold Db.usernameById
        rw [hread.users]
      rw [syncMessages_eq hsenders', hk, hread.history, hnames] at hnext
      dsimp only at hnext
      rw [if_neg (by omega), Int.toNat_natCast, ← List.map_take, List.getLast?_map, List.map_map,
        List.length_map] at hnext
      by_cases hshort : size < k
      · -- the whole rest is the page, and it is shorter than the limit
        refine ⟨1, ?_⟩
        rw [Function.iterate_one, hnext, List.take_of_length_le (by omega)]
        refine ⟨decide_eq_false (by omega), ?_⟩
        rw [List.flatten_append]
        exact congrArg _ (List.append_nil _)
      · have hlength : ((db.history conversationId s.afterId).take k).length = k := by
          rw [List.length_take]
          omega
        obtain ⟨last, hlast⟩ : ∃ last,
            ((db.history conversationId s.afterId).take k).getLast? = some last := by
          cases hget : ((db.history conversationId s.afterId).take k).getLast? with
          | some last => exact ⟨last, rfl⟩
          | none =>
              rw [List.getLast?_eq_none_iff.mp hget, List.length_nil] at hlength
              omega
        rw [hlast, hlength] at hnext
        have hdrop := history_drop hlast
        obtain ⟨n, hends, hpages⟩ := ih (size - k) (by omega)
          (s := s.next qt conn conversationId limit) (by rw [hnext]; exact hread')
          (by rw [hnext]; exact decide_eq_true (Int.le_refl _))
          (by rw [hnext]; exact (congrArg List.length hdrop).trans (by rw [List.length_drop, hsize]))
        refine ⟨n + 1, hends, hpages.trans ?_⟩
        rw [hnext]
        show (s.pages ++ [_]).flatten ++ List.map _ (db.history conversationId last.id) = _
        rw [hdrop, List.flatten_append, List.append_assoc]
        refine congrArg _ ?_
        rw [List.flatten_singleton]
        exact (List.map_append ..).symm.trans (congrArg _ (List.take_append_drop _ _))

/-! ## The loop with any other limit -/

/-- Every page has at least so many messages, so every reply says that there is more. -/
theorem paging_goesOn (qt : Qt) (hconv : 0 < conversationId)
    (hlimit : (Json.int limit).toInt 100 ≤ 0) {s : Paging}
    (hread : Readable conn conversationId db s.db) (hmore : s.hasMore = true) (n : Nat) :
    ((Paging.next qt conn conversationId limit)^[n] s).hasMore = true := by
  induction n generalizing s with
  | zero => exact hmore
  | succ n ih =>
      obtain ⟨db', hread', hnext⟩ :=
        @Paging.next_eq conn conversationId limit db qt hconv s hread hmore
      rw [Function.iterate_succ_apply]
      refine ih (s := s.next qt conn conversationId limit) (by rw [hnext]; exact hread') ?_
      rw [hnext]
      exact decide_eq_true (by omega)

/-- **Paging.** A member's loop ends with the whole history exactly when the limit is
read as a positive one. -/
theorem pagesComplete_iff (qt : Qt) (hconv : 0 < conversationId)
    (hmember : db.isConversationMember conversationId conn.authenticatedUserId = true)
    (hsenders : ∀ m ∈ db.messages.rows, (db.users.get m.senderId).isSome) (afterId limit : Int) :
    PagesComplete qt conn conversationId limit db afterId ↔ 0 < (Json.int limit).toInt 100 := by
  have hread : Readable conn conversationId db db := ⟨rfl, rfl, hmember⟩
  constructor
  · rintro ⟨n, hends, -⟩
    by_contra hlimit
    rw [paging_goesOn qt hconv (by omega) (s := { db, afterId }) hread rfl n] at hends
    cases hends
  · intro hlimit
    exact paging_ends qt hconv hsenders hlimit (s := { db, afterId }) hread rfl

end

/-! ## Three messages -/

/-- A conversation of alice's with three of her messages. -/
def threeMessages : Db where
  users := .ofRows [{ id := 1, username := "alice" }]
  conversations := .ofRows [{ id := 1, type := .groupType }]
  conversationMembers := .ofRows [{ id := 1, conversationId := 1, userId := 1 }]
  messages := .ofRows <| [(1, "a"), (2, "b"), (3, "c")].map fun (id, content) =>
    { id, conversationId := 1, senderId := 1, content, contentType := "text" }

def plainQt : Qt where
  fromJson _ := none
  toJson _ := ""
  fromBase64 _ := []
  toBase64 _ := ""
  isoDate _ := ""

/-- Two pages. -/
theorem threeMessages_complete :
    PagesComplete plainQt { authenticatedUserId := 1 } 1 2 threeMessages 0 :=
  (pagesComplete_iff plainQt (by decide) (by decide +kernel) (by decide +kernel) 0 2).mpr (by decide)

/-- **The defect**: with the limit 0 the pages are empty and there is always more. -/
theorem threeMessages_limitZero :
    ¬PagesComplete plainQt { authenticatedUserId := 1 } 1 0 threeMessages 0 := by
  rintro ⟨n, hends, -⟩
  rw [paging_goesOn plainQt (by decide) (by decide) (s := { db := threeMessages, afterId := 0 })
    ⟨rfl, rfl, by decide +kernel⟩ rfl n] at hends
  cases hends

end XYChat.Server
