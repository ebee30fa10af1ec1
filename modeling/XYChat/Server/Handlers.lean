import XYChat.Server.Contacts
import XYChat.Server.Conversations
import XYChat.Server.Dispatch
import XYChat.Server.SyncEvents

/-!
# The handlers behind the routes

Which handler of the repository each route that works on the tables of `Db` alone
leads to.
-/

namespace XYChat.Server

open XYChat.Lib

/-- The handlers that `handle` does not run itself. The routes it does run have
no entry of their own here. -/
def otherHandlers (qt : Qt) : OtherHandlers := fun handler requestId conn request =>
  match handler with
  | .searchUsers => processSearchUsersRequest requestId conn request
  | .addContact => processAddContactRequest requestId conn request
  | .getContacts => processGetContactsRequest qt requestId conn
  | .getConversations => processGetConversationsRequest qt requestId conn
  | .ackMessage => processAckMessageRequest requestId conn request
  | .syncMessages => processSyncMessagesRequest qt requestId conn request
  | .syncEvents => processSyncEventsRequest qt requestId conn request
  | .createGroup => processCreateGroupRequest qt requestId conn request
  | .inviteGroupMembers => processInviteGroupMembersRequest qt requestId conn request
  | .leaveGroup => processLeaveGroupRequest qt requestId conn request
  | .kickGroupMember => processKickGroupMemberRequest qt requestId conn request
  | .getGroupInfo => processGetGroupInfoRequest qt requestId conn request
  | .setConversationPrefs => processSetConversationPrefsRequest requestId conn request
  | _ => pure (conn.reply requestId .error .invalidRequest "")

end XYChat.Server
