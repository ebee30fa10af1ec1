import XYChat.Server.Messages

/-!
# Groups

The statements on the members of groups, and the handlers that create a group,
invite into it, leave it, remove somebody from it and describe it.
-/

namespace XYChat.Server

open XYChat.Lib

/-- `MaxGroupMembers`. -/
def maxGroupMembers : Nat := 200

/-- `MaxInviteBatch`. -/
def maxInviteBatch : Nat := 100

/-- `MaxGroupNameLength`. -/
def maxGroupNameLength : Nat := 64

def MemberRole.text : MemberRole → String
  | .owner => "owner"
  | .admin => "admin"
  | .member => "member"

/-! ## Statements -/

namespace Db

/-- `SELECT COUNT(*)` of a conversation's members. -/
def memberCount (db : Db) (conversationId : Int) : Nat :=
  db.conversationMembers.rows.countP (·.conversationId == conversationId)

/-- `groupRole`; `none` is the empty text. -/
def groupRole (db : Db) (conversationId userId : Int) : Option MemberRole :=
  (db.conversationMembers.rows.find? fun m =>
    m.conversationId == conversationId && m.userId == userId).map (·.role)

/-- `getGroupMembers`: the rows joined with their users, in order of joining. -/
def getGroupMembers (db : Db) (conversationId : Int) : List MemberRow :=
  ((db.conversationMembers.rows.filter fun m =>
    m.conversationId == conversationId && (db.users.get m.userId).isSome).insertionSort
      fun a b => a.joinedBefore b)

/-- `updateMemberRole`: true when there was such a row. -/
def updateMemberRole (conversationId userId : Int) (role : MemberRole) (db : Db) : Db × Bool :=
  ({ db with
      conversationMembers := db.conversationMembers.update
        (fun m => m.conversationId == conversationId && m.userId == userId)
        fun m => { m with role := role } },
    db.isConversationMember conversationId userId)

/-- `removeGroupMember`: true when there was such a row. -/
def removeGroupMember (conversationId userId : Int) (db : Db) : Db × Bool :=
  ({ db with
      conversationMembers := db.conversationMembers.delete fun m =>
        m.conversationId == conversationId && m.userId == userId },
    db.isConversationMember conversationId userId)

/-- The insertions of `createGroup` after the owner's, up to the limit; `none` is
a rollback. -/
def insertInitialMembers (conversationId : Int) : List Int → List Int → Db → Option Db
  | [], _, db => some db
  | memberId :: rest, added, db =>
      if maxGroupMembers ≤ added.length then some db
      else if memberId ≤ 0 ∨ memberId ∈ added then insertInitialMembers conversationId rest added db
      else match insertMember conversationId memberId .member db with
        | (_, false) => none
        | (db, true) => insertInitialMembers conversationId rest (memberId :: added) db

/-- `createGroup`, one transaction; `none` is -1. -/
def createGroup (ownerId : Int) (name : String) (memberIds : List Int) (db : Db) :
    Db × Option Int :=
  if ownerId ≤ 0 ∨ trimmed name = "" then (db, none)
  else
    let convId := db.conversations.lastId + 1
    let created :=
      { db with conversations := db.conversations.insert fun id =>
          { id, type := .groupType, name := trimmed name, updatedAt := db.now } }
    match insertMember convId ownerId .owner created with
    | (_, false) => (db, none)
    | (owned, true) =>
        match insertInitialMembers convId memberIds [ownerId] owned with
        | none => (db, none)
        | some db' => (db', some convId)

end Db

/-- The loop of `DatabaseManager::addGroupMembers`: each member is looked up,
counted and inserted by statements of their own. -/
def addGroupMembers (conversationId : Int) : List Int → List Int → Prog Db Bool
  | [], _ => pure true
  | userId :: rest, seen =>
      if userId ≤ 0 ∨ userId ∈ seen then addGroupMembers conversationId rest seen
      else do
        if ← Prog.query (·.isConversationMember conversationId userId) then
          addGroupMembers conversationId rest (userId :: seen)
        else if maxGroupMembers ≤ (← Prog.query (·.memberCount conversationId)) then
          -- the limit is reached: those already added stay
          return true
        else if ← Prog.call (Db.insertMember conversationId userId .member) then
          addGroupMembers conversationId rest (userId :: seen)
        else return false

/-! ## Telling the members -/

section

variable (qt : Qt)

/-- `RequestHandler::postGroupSystemMessage`; the result is what it pushes. -/
def postGroupSystemMessage (conversationId operatorId : Int) (payload : Json) :
    Prog Db (List Push) := do
  let content := qt.toJson payload
  match ← sendMessage conversationId operatorId content "system" "" "" with
  | none => return []
  | some msgId =>
      let createdAt ← Prog.query (·.now)
      let senderUsername ← Prog.query (·.usernameById operatorId)
      let ev := Json.obj
        [ ("messageId", .int msgId)
        , ("conversationId", .int conversationId)
        , ("senderId", .int operatorId)
        , ("content", .str content)
        , ("contentType", .str "system")
        , ("createdAt", .str (qt.isoDate createdAt)) ]
      let members ← Prog.query (·.getConversationMemberIds conversationId)
      appendSyncEvents "message" ev members
      let notify := ev.setMember "senderUsername" (.str senderUsername)
      return (members.filter (· ≠ operatorId)).map fun m => ⟨m, .newMessageNotification, notify⟩

/-- `RequestHandler::notifyGroupChanged`; the result is what it pushes. -/
def notifyGroupChanged (conversationId : Int) (changeType : String)
    (operatorId targetUserId : Int) : Prog Db (List Push) := do
  let memberCount := (← Prog.query (·.getConversationMemberIds conversationId)).length
  let payload := Json.obj
    ([ ("conversationId", .int conversationId)
     , ("changeType", .str changeType)
     , ("operatorId", .int operatorId) ]
      ++ (if 0 < targetUserId then [("targetUserId", .int targetUserId)] else [])
      ++ [("memberCount", .int memberCount)])
  let members ← Prog.query (·.getConversationMemberIds conversationId)
  appendSyncEvents "group_changed" payload members
  return members.map fun m => ⟨m, .groupChangedNotification, payload⟩

/-- A system message, and the notice of the change it is about. -/
def announce (conversationId operatorId : Int) (event : String) (details : List (String × Json))
    (targetUserId : Int) : Prog Db (List Push) := do
  let posted ← postGroupSystemMessage qt conversationId operatorId
    (.obj ([("event", .str event), ("operatorId", .int operatorId)] ++ details))
  let notified ← notifyGroupChanged conversationId event operatorId targetUserId
  return posted ++ notified

end

/-! ## Handlers -/

/-- The users of a list that are worth looking up: without the requester, those
that are no ids, and repetitions. -/
def cleanUserIds (me : Int) : List Json → List Int → List Int
  | [], _ => []
  | v :: rest, seen =>
      let id := v.toLongLong
      if id ≤ 0 ∨ id = me ∨ id ∈ seen then cleanUserIds me rest seen
      else id :: cleanUserIds me rest (id :: seen)

/-- The first of the users that does not exist. -/
def findUnknownUser : List Int → Prog Db (Option Int)
  | [] => pure none
  | id :: rest => do
      if (← Prog.query (·.usernameById id)) = "" then return some id
      else findUnknownUser rest

def noSuchUser (id : Int) : String := "User " ++ toString id ++ " does not exist"

def membersLimited : String := "Group members limited to " ++ toString maxGroupMembers

section

variable (qt : Qt) (requestId : Nat) (conn : Connection) (request : Json)

/-- The answer of a group handler with this data. -/
def groupReply (messageType : MessageType) (message : String) (pushes : List Push)
    (data : List (String × Json)) : Outcome where
  conn := conn
  pushes := pushes
  response := { requestId, messageType, code := .ok, message, data := .obj data }

/-- `RequestHandler::processCreateGroupRequest`. -/
def processCreateGroupRequest : Prog Db Outcome := do
  let reject := conn.reply requestId .createGroupResponse
  let me := conn.authenticatedUserId
  let name := trimmed ((request.value "name").toStr "")
  let memberArray := (request.value "memberIds").toArray
  if name = "" ∨ maxGroupNameLength < qsize name then
    return reject .invalidRequest
      ("Group name must be 1-" ++ toString maxGroupNameLength ++ " characters")
  else if maxInviteBatch < memberArray.length then
    return reject .groupLimitExceeded
      ("At most " ++ toString maxInviteBatch ++ " members per invite")
  else
    let memberIds := cleanUserIds me memberArray []
    if maxGroupMembers < memberIds.length + 1 then
      return reject .groupLimitExceeded membersLimited
    else
      match ← findUnknownUser memberIds with
      | some id => return reject .accountNotFound (noSuchUser id)
      | none =>
        match ← Prog.call (Db.createGroup me name memberIds) with
        | none => return reject .internalError "Failed to create group"
        | some convId =>
            let pushes ← announce qt convId me "group_created" [("name", .str name)] 0
            let members ← Prog.query (·.getConversationMemberIds convId)
            return groupReply requestId conn .createGroupResponse "Group created" pushes
              [ ("conversationId", .int convId), ("name", .str name)
              , ("memberCount", .int members.length) ]

/-- The loop of `processInviteGroupMembersRequest`: the users to add, or the
rejection. -/
def checkInvitees (me conversationId : Int) (currentCount : Nat) :
    List Json → List Int → List Int → Prog Db (Except (ErrorCode × String) (List Int))
  | [], _, toAdd => pure (.ok toAdd)
  | v :: rest, seen, toAdd =>
      let id := v.toLongLong
      if id ≤ 0 ∨ id = me ∨ id ∈ seen then
        checkInvitees me conversationId currentCount rest seen toAdd
      else do
        if (← Prog.query (·.usernameById id)) = "" then
          return .error (.accountNotFound, noSuchUser id)
        else if ← Prog.query (·.isConversationMember conversationId id) then
          return .error (.memberAlreadyExists,
            "User " ++ toString id ++ " is already in the group")
        else if maxGroupMembers < currentCount + toAdd.length + 1 then
          return .error (.groupLimitExceeded, membersLimited)
        else
          checkInvitees me conversationId currentCount rest (id :: seen) (toAdd ++ [id])

/-- `RequestHandler::processInviteGroupMembersRequest`. -/
def processInviteGroupMembersRequest : Prog Db Outcome := do
  let reject := conn.reply requestId .inviteGroupMembersResponse
  let me := conn.authenticatedUserId
  let convId := (request.value "conversationId").toLongLong
  if convId ≤ 0 then return reject .invalidRequest "Invalid conversationId"
  else if ((← Prog.query (·.getConversation convId)).map (·.type)) ≠ some .groupType then
    return reject .conversationNotFound "Group not found"
  else if !(← Prog.query (·.isConversationMember convId me)) then
    return reject .permissionDenied "Not a member of this group"
  else
    let userArray := (request.value "userIds").toArray
    if userArray.isEmpty then return reject .invalidRequest "userIds is required"
    else if maxInviteBatch < userArray.length then
      return reject .groupLimitExceeded
        ("At most " ++ toString maxInviteBatch ++ " members per invite")
    else
      let currentCount := (← Prog.query (·.getConversationMemberIds convId)).length
      match ← checkInvitees me convId currentCount userArray [] [] with
      | .error (code, message) => return reject code message
      | .ok [] => return reject .invalidRequest "No valid users to invite"
      | .ok (first :: rest) =>
        if !(← addGroupMembers convId (first :: rest) []) then
          return reject .internalError "Failed to add members"
        else
          let added := Json.arr ((first :: rest).map .int)
          let pushes ← announce qt convId me "member_added" [("targetUserIds", added)] first
          let members ← Prog.query (·.getConversationMemberIds convId)
          return groupReply requestId conn .inviteGroupMembersResponse "Members invited" pushes
            [ ("conversationId", .int convId), ("added", added)
            , ("memberCount", .int members.length) ]

/-- The member an owner who leaves hands the group to: the first other one. -/
def successor (me : Int) (members : List MemberRow) : Option Int :=
  ((members.find? (·.userId != me)).map (·.userId)).filter (0 < ·)

/-- Before an owner leaves: the group is handed over if there is anybody else. -/
def handOver (conversationId me : Int) (role : MemberRole) : Prog Db (List Push) := do
  if role ≠ .owner then return []
  else
    match successor me (← Prog.query (·.getGroupMembers conversationId)) with
    | none => return []
    | some newOwner => do
        let _ ← Prog.call (Db.updateMemberRole conversationId newOwner .owner)
        let posted ← postGroupSystemMessage qt conversationId me
          (.obj [("event", .str "owner_transferred"), ("operatorId", .int me)
            , ("newOwnerId", .int newOwner)])
        let notified ← notifyGroupChanged conversationId "owner_transferred" me newOwner
        return posted ++ notified

/-- `RequestHandler::processLeaveGroupRequest`. -/
def processLeaveGroupRequest : Prog Db Outcome := do
  let reject := conn.reply requestId .leaveGroupResponse
  let me := conn.authenticatedUserId
  let convId := (request.value "conversationId").toLongLong
  if convId ≤ 0 then return reject .invalidRequest "Invalid conversationId"
  else if ((← Prog.query (·.getConversation convId)).map (·.type)) ≠ some .groupType then
    return reject .conversationNotFound "Group not found"
  else
    match ← Prog.query (·.groupRole convId me) with
    | none => return reject .memberNotFound "Not a member of this group"
    | some role =>
        let transferred ← handOver qt convId me role
        if !(← Prog.call (Db.removeGroupMember convId me)) then
          return { reject .internalError "Failed to leave group" with pushes := transferred }
        else
          let pushes ← announce qt convId me "member_left" [] me
          return groupReply requestId conn .leaveGroupResponse "Left group" (transferred ++ pushes)
            [("conversationId", .int convId)]

/-- An owner may remove anybody but an owner, an admin only a member. -/
def mayRemove : Option MemberRole → MemberRole → Bool
  | some .owner, target => target != .owner
  | some .admin, target => target == .member
  | _, _ => false

/-- `RequestHandler::processKickGroupMemberRequest`. -/
def processKickGroupMemberRequest : Prog Db Outcome := do
  let reject := conn.reply requestId .kickGroupMemberResponse
  let me := conn.authenticatedUserId
  let convId := (request.value "conversationId").toLongLong
  let targetUserId := (request.value "userId").toLongLong
  if convId ≤ 0 ∨ targetUserId ≤ 0 then
    return reject .invalidRequest "Invalid conversationId or userId"
  else if ((← Prog.query (·.getConversation convId)).map (·.type)) ≠ some .groupType then
    return reject .conversationNotFound "Group not found"
  else if targetUserId = me then
    return reject .invalidRequest "Cannot kick yourself, use leave_group"
  else
    let myRole ← Prog.query (·.groupRole convId me)
    match ← Prog.query (·.groupRole convId targetUserId) with
    | none => return reject .memberNotFound "Target is not a member of this group"
    | some targetRole =>
      if !mayRemove myRole targetRole then
        return reject .notGroupOwner "Insufficient role to remove this member"
      else if !(← Prog.call (Db.removeGroupMember convId targetUserId)) then
        return reject .internalError "Failed to remove member"
      else
        let pushes ← announce qt convId me "member_removed"
          [("targetUserId", .int targetUserId)] targetUserId
        return groupReply requestId conn .kickGroupMemberResponse "Member removed" pushes
          [("conversationId", .int convId), ("removedUserId", .int targetUserId)]

/-- A member as `getGroupMembers` shows it. -/
def memberJson (db : Db) (m : MemberRow) : Json := .obj
  [ ("userId", .int m.userId), ("username", .str (db.usernameById m.userId))
  , ("role", .str m.role.text), ("joinedAt", .str (qt.sqlDate m.joinedAt)) ]

/-- `RequestHandler::processGetGroupInfoRequest`. -/
def processGetGroupInfoRequest : Prog Db Outcome := do
  let reject := conn.reply requestId .getGroupInfoResponse
  let convId := (request.value "conversationId").toLongLong
  if convId ≤ 0 then return reject .invalidRequest "Invalid conversationId"
  else
    match (← Prog.query (·.getConversation convId)).filter (·.type = .groupType) with
    | none => return reject .conversationNotFound "Group not found"
    | some conv =>
      match ← Prog.query (·.groupRole convId conn.authenticatedUserId) with
      | none => return reject .permissionDenied "Not a member of this group"
      | some myRole =>
          let members ← Prog.query fun db => (db.getGroupMembers convId).map (memberJson qt db)
          return groupReply requestId conn .getGroupInfoResponse "OK" []
            [ ("conversationId", .int convId), ("name", .str conv.name)
            , ("memberCount", .int members.length), ("myRole", .str myRole.text)
            , ("members", .arr members) ]

end

end XYChat.Server
