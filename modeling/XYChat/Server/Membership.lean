import XYChat.Common.JsonReader
import XYChat.Server.MessageSpecs
import XYChat.Server.Sequential

/-!
# Members only

Which of the requests on an existing conversation succeed for its members only.
Each handler authorizes for itself: five ask whether the requester is a member,
`EditMessage` and `DeleteMessage` whether he is the author.
-/

namespace XYChat.Server

open XYChat.Lib

/-- The existing conversation that a request of the handler reads or changes. -/
def conversationOf (db : Db) (request : Json) : Handler → Option Int
  | .sendMessage =>
      -- without a conversation id the message is private
      if 0 < (request.value "conversationId").toLongLong then
        some (request.value "conversationId").toLongLong
      else none
  | .syncMessages | .setConversationPrefs | .fetchGroupKeys =>
      some (request.value "conversationId").toLongLong
  | .ackMessage | .editMessage | .deleteMessage =>
      (db.getMessage (request.value "messageId").toLongLong).map (·.conversationId)
  | _ => none

/-- The requester is a member of that conversation. -/
def IsMember (db : Db) (conn : Connection) (request : Json) (handler : Handler) : Prop :=
  ∀ conversationId ∈ conversationOf db request handler,
    db.isConversationMember conversationId conn.authenticatedUserId = true

/-- The checks a deletion of the stored row `m` has to pass. -/
structure Deletable (conn : Connection) (request : Json) (db : Db) (m : MessageRow) : Prop where
  messageId : 0 < (request.value "messageId").toLongLong
  found : db.getMessage (request.value "messageId").toLongLong = some m
  sender : m.senderId = conn.authenticatedUserId
  notSystem : m.contentType ≠ "system"

section

variable (qt : Qt) (hashes : Hashes)

/-- A packet that is handled with success is of a member. -/
def RequiresMembership (s : SequentialServer) : SequentialOp → Prop
  | .packet c packet random wait =>
      (s.admits qt hashes c packet wait).2.Meets fun handler request =>
        (s.process qt hashes c packet random wait).2.ok = true →
          IsMember s.db.toDb (s.conns c) request handler
  | _ => True

/-- The author whose edit or deletion passes the other checks is a member. -/
def AuthorIsMember (db : Db) (conn : Connection) (request : Json) : Handler → Prop
  | .editMessage => ∀ m, Editable qt conn request db m →
      db.isConversationMember m.conversationId conn.authenticatedUserId = true
  | .deleteMessage => ∀ m, Deletable conn request db m →
      db.isConversationMember m.conversationId conn.authenticatedUserId = true
  | _ => True

/-- The condition on a step. -/
def StepAuthorIsMember (s : SequentialServer) : SequentialOp → Prop
  | .packet c packet _ wait =>
      (s.admits qt hashes c packet wait).2.Meets fun handler request =>
        AuthorIsMember qt s.db.toDb (s.conns c) request handler
  | _ => True

end

/-! ## One handler at a time -/

section handlers

variable {qt : Qt} {requestId : Nat} {conn : Connection} {request : Json} {db : Db}

private theorem rejected {P : Prop} {messageType : MessageType} {code : ErrorCode}
    {message : String} (hcode : code ≠ .ok)
    (h : (conn.reply requestId messageType code message).ok = true) : P :=
  absurd (by simpa [Outcome.ok, Connection.reply] using h) hcode

theorem processAckMessageRequest_member :
    (processAckMessageRequest requestId conn request).wp
      (fun o _ => o.ok = true → IsMember db conn request .ackMessage) db := by
  unfold processAckMessageRequest
  dsimp only
  refine Prog.wp_ite (fun _ => rejected (by decide)) fun _ => ?_
  split
  · exact rejected (by decide)
  simp only [Prog.wp_bind, Prog.wp_query]
  cases hmsg : db.getMessage (request.value "messageId").toLongLong with
  | none => exact rejected (by decide)
  | some msg =>
      simp only [Prog.wp_bind, Prog.wp_query]
      refine Prog.wp_ite (fun _ => rejected (by decide)) fun hmember => ?_
      intro _ conversationId hconv
      unfold conversationOf at hconv
      rw [hmsg] at hconv
      cases hconv
      simpa using hmember

theorem processSyncMessagesRequest_member :
    (processSyncMessagesRequest qt requestId conn request).wp
      (fun o _ => o.ok = true → IsMember db conn request .syncMessages) db := by
  unfold processSyncMessagesRequest
  dsimp only
  refine Prog.wp_ite (fun _ => rejected (by decide)) fun _ => ?_
  simp only [Prog.wp_bind, Prog.wp_query]
  refine Prog.wp_ite (fun _ => rejected (by decide)) fun hmember => ?_
  intro _ conversationId hconv
  cases hconv
  simpa using hmember

theorem processSetConversationPrefsRequest_member :
    (processSetConversationPrefsRequest requestId conn request).wp
      (fun o _ => o.ok = true → IsMember db conn request .setConversationPrefs) db := by
  unfold processSetConversationPrefsRequest
  dsimp only
  refine Prog.wp_ite (fun _ => rejected (by decide)) fun _ => ?_
  refine Prog.wp_ite (fun _ => rejected (by decide)) fun _ => ?_
  simp only [Prog.wp_bind, Prog.wp_query]
  refine Prog.wp_ite (fun _ => rejected (by decide)) fun hmember => ?_
  intro _ conversationId hconv
  cases hconv
  simpa using hmember

theorem processFetchGroupKeysRequest_member :
    (processFetchGroupKeysRequest requestId conn request).wp
      (fun o _ => o.ok = true → IsMember db conn request .fetchGroupKeys) db := by
  unfold processFetchGroupKeysRequest
  dsimp only
  refine Prog.wp_ite (fun _ => rejected (by decide)) fun _ => ?_
  simp only [Prog.wp_bind, Prog.wp_query]
  split
  · exact rejected (by decide)
  refine Prog.wp_ite (fun _ => rejected (by decide)) fun _ => ?_
  simp only [Prog.wp_bind, Prog.wp_query]
  refine Prog.wp_ite (fun _ => rejected (by decide)) fun hmember => ?_
  intro _ conversationId hconv
  cases hconv
  simpa using hmember

theorem processSendGroupMessage_member (conversationId : Int) (clientMessageId : String) :
    (processSendGroupMessage qt requestId conn request conversationId clientMessageId).wp
      (fun o _ => o.ok = true →
        db.isConversationMember conversationId conn.authenticatedUserId = true) db := by
  unfold processSendGroupMessage
  dsimp only
  simp only [Prog.wp_bind, Prog.wp_query]
  split
  · exact rejected (by decide)
  refine Prog.wp_ite (fun _ => rejected (by decide)) fun _ => ?_
  simp only [Prog.wp_bind, Prog.wp_query]
  refine Prog.wp_ite (fun _ => rejected (by decide)) fun hmember => ?_
  exact fun _ => by simpa using hmember

theorem processSendMessageRequest_member :
    (processSendMessageRequest qt requestId conn request).wp
      (fun o _ => o.ok = true → IsMember db conn request .sendMessage) db := by
  unfold processSendMessageRequest
  dsimp only
  refine Prog.wp_ite (fun _ => rejected (by decide)) fun _ => ?_
  simp only [Prog.wp_bind, Prog.wp_query]
  refine Prog.wp_ite (fun _ => rejected (by decide)) fun _ => ?_
  refine Prog.wp_ite (fun hgroup => ?_) fun hprivate => ?_
  · refine Prog.wp_mono (processSendGroupMessage_member _ _) fun o _ hmember hok => ?_
    intro conversationId hconv
    unfold conversationOf at hconv
    rw [if_pos hgroup] at hconv
    cases hconv
    exact hmember hok
  · intro _ conversationId hconv
    unfold conversationOf at hconv
    rw [if_neg hprivate] at hconv
    cases hconv

/-- A message that was read and is live is there to be edited. -/
theorem editMessage_succeeds {messageId : Int} {content contentType : String} {m : MessageRow}
    (hm : db.getMessage messageId = some m) (hlive : m.deleted = false) (hid : 0 < messageId)
    (hcontent : content ≠ "") (htype : contentType ≠ "") :
    (db.editMessage messageId content contentType).2 = true := by
  obtain ⟨hget, _⟩ := Option.filter_eq_some_iff.mp hm
  unfold Db.editMessage
  rw [if_neg (by simp only [not_or]; exact ⟨by omega, hcontent, htype⟩), hget]
  simp [hlive]

/-- **Edits** succeed exactly when they pass their checks. -/
theorem processEditMessageRequest_ok :
    (processEditMessageRequest qt requestId conn request).wp
      (fun o _ => o.ok = true ↔ ∃ m, Editable qt conn request db m) db := by
  have hfail {messageType : MessageType} {code : ErrorCode} {message : String}
      (hcode : code ≠ .ok) (hno : ∀ m, ¬Editable qt conn request db m) :
      (conn.reply requestId messageType code message).ok = true ↔
        ∃ m, Editable qt conn request db m :=
    ⟨rejected hcode, fun ⟨m, hm⟩ => absurd hm (hno m)⟩
  unfold processEditMessageRequest
  dsimp only
  refine Prog.wp_ite (fun h => hfail (by decide) fun m he => ?_) fun hid => ?_
  · exact absurd he.messageId (by omega)
  refine Prog.wp_ite (fun h => hfail (by decide) fun m he => ?_) fun hempty => ?_
  · exact h.elim he.content he.contentType
  simp only [Prog.wp_bind, Prog.wp_query]
  cases hget : db.getMessage (request.value "messageId").toLongLong with
  | none => exact hfail (by decide) fun m he => by simp [he.found] at hget
  | some m =>
      have huniq {m' : MessageRow} (he : Editable qt conn request db m') : m' = m := by
        simpa using he.found.symm.trans hget
      dsimp only
      refine Prog.wp_ite (fun h => hfail (by decide) fun m' he => ?_) fun hsender => ?_
      · exact h (huniq he ▸ he.sender)
      refine Prog.wp_ite (fun h => hfail (by decide) fun m' he => ?_) fun hlive => ?_
      · exact absurd h (by simp [← huniq he, he.live])
      refine Prog.wp_ite (fun h => hfail (by decide) fun m' he => ?_) fun hsystem => ?_
      · exact (huniq he ▸ he.notSystem) h
      refine Prog.wp_ite (fun h => hfail (by decide) fun m' he => ?_) fun hlength => ?_
      · exact absurd he.length (by omega)
      refine Prog.wp_ite (fun h => hfail (by decide) fun m' he => ?_) fun htype => ?_
      · exact h (huniq he ▸ he.sameType)
      cases hcheck : checkEditContent qt conn ((request.value "content").toStr "")
          ((request.value "contentType").toStr "") with
      | error message => exact hfail (by decide) fun m' he => by simp [he.checked] at hcheck
      | ok _ =>
          simp only [Prog.wp_bind, Prog.wp_call]
          have hupdated := editMessage_succeeds hget (by simpa using hlive) (by omega)
            (fun h => hempty (.inl h)) (fun h => hempty (.inr h))
          rw [hupdated]
          refine Prog.wp_ite (fun h => by cases h) fun _ => ?_
          simp only [Prog.wp_bind, Prog.wp_query]
          refine ⟨fun _ => ⟨m, ?_⟩, fun _ => rfl⟩
          exact
            { messageId := by omega
              content := fun h => hempty (.inl h)
              contentType := fun h => hempty (.inr h)
              found := hget
              sender := not_not.mp hsender
              live := by simpa using hlive
              notSystem := hsystem
              length := by omega
              sameType := not_not.mp htype
              checked := hcheck }

/-- **Deletions** succeed exactly when they pass their checks. -/
theorem processDeleteMessageRequest_ok :
    (processDeleteMessageRequest qt requestId conn request).wp
      (fun o _ => o.ok = true ↔ ∃ m, Deletable conn request db m) db := by
  have hfail {messageType : MessageType} {code : ErrorCode} {message : String}
      (hcode : code ≠ .ok) (hno : ∀ m, ¬Deletable conn request db m) :
      (conn.reply requestId messageType code message).ok = true ↔
        ∃ m, Deletable conn request db m :=
    ⟨rejected hcode, fun ⟨m, hm⟩ => absurd hm (hno m)⟩
  unfold processDeleteMessageRequest
  dsimp only
  refine Prog.wp_ite (fun h => hfail (by decide) fun m hd => ?_) fun hid => ?_
  · exact absurd hd.messageId (by omega)
  simp only [Prog.wp_bind, Prog.wp_query]
  cases hget : db.getMessage (request.value "messageId").toLongLong with
  | none => exact hfail (by decide) fun m hd => by simp [hd.found] at hget
  | some m =>
      have huniq {m' : MessageRow} (hd : Deletable conn request db m') : m' = m := by
        simpa using hd.found.symm.trans hget
      dsimp only
      refine Prog.wp_ite (fun h => hfail (by decide) fun m' hd => ?_) fun hsender => ?_
      · exact h (huniq hd ▸ hd.sender)
      refine Prog.wp_ite (fun h => hfail (by decide) fun m' hd => ?_) fun hsystem => ?_
      · exact (huniq hd ▸ hd.notSystem) h
      have hdone : (db.deleteMessage (request.value "messageId").toLongLong).2 = true := by
        unfold Db.deleteMessage
        rw [if_neg (by omega)]
      simp only [Prog.wp_bind, Prog.wp_call]
      rw [hdone]
      refine Prog.wp_ite (fun h => by cases h) fun _ => ?_
      simp only [Prog.wp_bind, Prog.wp_query]
      exact ⟨fun _ => ⟨m, by omega, hget, not_not.mp hsender, hsystem⟩, fun _ => rfl⟩

end handlers

/-! ## Runs -/

section runs

variable {qt : Qt} {hashes : Hashes}

/-- For a request about a stored message, it is that message's conversation. -/
theorem isMember_iff_of_message {conn : Connection} {request : Json} {db : Db} {handler : Handler}
    {m : MessageRow}
    (hconv : conversationOf db request handler =
      (db.getMessage (request.value "messageId").toLongLong).map (·.conversationId))
    (hm : db.getMessage (request.value "messageId").toLongLong = some m) :
    IsMember db conn request handler ↔
      db.isConversationMember m.conversationId conn.authenticatedUserId = true := by
  unfold IsMember
  rw [hconv, hm]
  simp

/-- A handler that runs alone succeeds for members only, exactly when the author
it lets edit or delete is one. -/
theorem program_member_iff {requestId : Nat} {conn : Connection} {request : Json} {db : Db}
    {handler : Handler} {p : Prog Db Outcome}
    (hp : handler.program qt requestId conn request = some p) :
    ((p.exec db).2.ok = true → IsMember db conn request handler) ↔
      AuthorIsMember qt db conn request handler := by
  cases handler with
  | register => exact nomatch hp
  | login => exact nomatch hp
  | logout => exact nomatch hp
  | tokenRenew => exact nomatch hp
  | terminateSession => exact nomatch hp
  | sendMessage =>
      rw [← Option.some.inj hp]
      exact ⟨fun _ => trivial, fun _ => processSendMessageRequest_member⟩
  | ackMessage =>
      rw [← Option.some.inj hp]
      exact ⟨fun _ => trivial, fun _ => processAckMessageRequest_member⟩
  | syncMessages =>
      rw [← Option.some.inj hp]
      exact ⟨fun _ => trivial, fun _ => processSyncMessagesRequest_member⟩
  | fetchGroupKeys =>
      rw [← Option.some.inj hp]
      exact ⟨fun _ => trivial, fun _ => processFetchGroupKeysRequest_member⟩
  | setConversationPrefs =>
      rw [← Option.some.inj hp]
      exact ⟨fun _ => trivial, fun _ => processSetConversationPrefsRequest_member⟩
  | editMessage =>
      rw [← Option.some.inj hp]
      have hok : ((processEditMessageRequest qt requestId conn request).exec db).2.ok = true ↔
          ∃ m, Editable qt conn request db m := processEditMessageRequest_ok
      rw [hok]
      refine ⟨fun h m hm => ?_, fun h ⟨m, hm⟩ => ?_⟩
      · exact (isMember_iff_of_message rfl hm.found).mp (h ⟨m, hm⟩)
      · exact (isMember_iff_of_message rfl hm.found).mpr (h m hm)
  | deleteMessage =>
      rw [← Option.some.inj hp]
      have hok : ((processDeleteMessageRequest qt requestId conn request).exec db).2.ok = true ↔
          ∃ m, Deletable conn request db m := processDeleteMessageRequest_ok
      rw [hok]
      refine ⟨fun h m hm => ?_, fun h ⟨m, hm⟩ => ?_⟩
      · exact (isMember_iff_of_message rfl hm.found).mp (h ⟨m, hm⟩)
      · exact (isMember_iff_of_message rfl hm.found).mpr (h m hm)
  | _ => exact ⟨fun _ => trivial, fun _ _ _ hconv => nomatch hconv⟩

/-- The handlers without a program of their own are not about conversations. -/
theorem program_none {requestId : Nat} {conn : Connection} {request : Json} {handler : Handler}
    (hp : handler.program qt requestId conn request = none) (db : Db) :
    IsMember db conn request handler ∧ AuthorIsMember qt db conn request handler := by
  cases handler with
  | register => exact ⟨(fun _ hconv => nomatch hconv), trivial⟩
  | login => exact ⟨(fun _ hconv => nomatch hconv), trivial⟩
  | logout => exact ⟨(fun _ hconv => nomatch hconv), trivial⟩
  | tokenRenew => exact ⟨(fun _ hconv => nomatch hconv), trivial⟩
  | terminateSession => exact ⟨(fun _ hconv => nomatch hconv), trivial⟩
  | _ => exact nomatch hp

/-- **Step lemma.** -/
theorem requiresMembership_iff (s : SequentialServer) (op : SequentialOp) :
    RequiresMembership qt hashes s op ↔ StepAuthorIsMember qt hashes s op := by
  cases op with
  | connect c peerAddress => exact Iff.rfl
  | tick seconds => exact Iff.rfl
  | packet c packet random wait =>
      refine Admission.meets_congr fun handler request hadmits => ?_
      cases hp : handler.program qt packet.requestId (s.conns c) request with
      | none =>
          obtain ⟨hmember, hauthor⟩ := program_none hp s.db.toDb
          exact ⟨fun _ => hauthor, fun _ _ => hmember⟩
      | some p =>
          have hresponse :=
            (@process_program qt hashes random request handler p s c packet wait hadmits hp).2
          have hok : (s.process qt hashes c packet random wait).2.ok = (p.exec s.db.toDb).2.ok :=
            congrArg (fun r : Response => r.code == .ok) hresponse
          rw [hok]
          exact program_member_iff hp

/-- **Members only.** Over every run of requests of all types, the requests on a
conversation succeed for its members only exactly when nobody who has left edits
or deletes a message of his own. -/
theorem membersOnly_iff (qt : Qt) (hashes : Hashes) (s : SequentialServer)
    (ops : List SequentialOp) :
    (sequentialMachine qt hashes).Along (RequiresMembership qt hashes) s ops ↔
      (sequentialMachine qt hashes).Along (StepAuthorIsMember qt hashes) s ops :=
  Machine.along_congr requiresMembership_iff

end runs

/-! ## A run of somebody who leaves -/

/-- The token and the password are their own hashes. -/
def plainHashes : Hashes where
  hashToken token := token
  hashPasswordWithSalt _ password := password
  verifyPassword password passwordHash := password == passwordHash

/-- Bob's group of two, with alice signed in. -/
def groupOfTwo : SequentialServer where
  db :=
    { now := 1
      users := .ofRows [{ id := 1, username := "alice" }, { id := 2, username := "bob" }]
      conversations := .ofRows [{ id := 1, type := .groupType, name := "g" }]
      conversationMembers := .ofRows
        [ { id := 1, conversationId := 1, userId := 2, role := .owner }
        , { id := 2, conversationId := 1, userId := 1 } ]
      sessions := .ofRows
        [{ id := 1, userId := 1, deviceId := "A", tokenHash := "t", loginIp := "", createdAt := 1
           lastActiveAt := 1, expiresAt := some 1000 }] }
  conns _ := { authenticatedUserId := 1, currentSessionId := 1, currentDeviceId := "A" }

/-- The text of a request with the token. -/
def signed (nonce : String) (members : List (String × Json)) : String :=
  (Json.obj (members ++ [("nonce", .str nonce), ("timestamp", .int 1), ("token", .str "t")])).text

instance (db : Db) (conn : Connection) (request : Json) (handler : Handler) :
    Decidable (IsMember db conn request handler) :=
  inferInstanceAs (Decidable (∀ conversationId ∈ conversationOf db request handler,
    db.isConversationMember conversationId conn.authenticatedUserId = true))

instance (qt : Qt) (hashes : Hashes) (s : SequentialServer) :
    ∀ op, Decidable (RequiresMembership qt hashes s op)
  | .packet c packet random wait =>
      inferInstanceAs (Decidable ((s.admits qt hashes c packet wait).2.Meets fun handler request =>
        (s.process qt hashes c packet random wait).2.ok = true →
          IsMember s.db.toDb (s.conns c) request handler))
  | .connect .. => isTrue trivial
  | .tick _ => isTrue trivial

/-- Alice sends a message to the group, leaves it, and deletes the message. -/
def deleteAfterLeaving : List SequentialOp :=
  [ .packet 0 ⟨32, 1, signed "1"
      [ ("clientMessageId", .str "m"), ("conversationId", .int 1), ("content", .str "hello")
      , ("contentType", .str "text") ]⟩ ⟨"", ""⟩
  , .packet 0 ⟨64, 2, signed "2" [("conversationId", .int 1)]⟩ ⟨"", ""⟩
  , .packet 0 ⟨86, 3, signed "3" [("messageId", .int 1)]⟩ ⟨"", ""⟩ ]

/-- The deletion succeeds. -/
theorem deleteAfterLeaving_succeeds :
    ¬(sequentialMachine Qt.compact plainHashes).Along (RequiresMembership Qt.compact plainHashes)
      groupOfTwo deleteAfterLeaving := by
  decide +kernel

end XYChat.Server
