/-!
# Packets

The header message types and the error codes of the protocol, with their
numbers on the wire.
-/

namespace XYChat

/-- `enum class MessageType`. -/
inductive MessageType where
  | loginRequest
  | loginResponse
  | ping
  | pong
  | error
  | registerRequest
  | registerResponse
  | logoutRequest
  | logoutResponse
  | tokenRenewRequest
  | tokenRenewResponse
  | forceLogoutRequest
  | forceLogoutResponse
  | searchUsersRequest
  | searchUsersResponse
  | addContactRequest
  | addContactResponse
  | getContactsRequest
  | getContactsResponse
  | getConversationsRequest
  | getConversationsResponse
  | sendMessageRequest
  | sendMessageResponse
  | newMessageNotification
  | ackMessageRequest
  | ackMessageResponse
  | syncMessagesRequest
  | syncMessagesResponse
  | messageStatusUpdate
  | syncEventsRequest
  | syncEventsResponse
  | registerKeysRequest
  | registerKeysResponse
  | fetchKeysRequest
  | fetchKeysResponse
  | createGroupRequest
  | createGroupResponse
  | inviteGroupMembersRequest
  | inviteGroupMembersResponse
  | leaveGroupRequest
  | leaveGroupResponse
  | kickGroupMemberRequest
  | kickGroupMemberResponse
  | getGroupInfoRequest
  | getGroupInfoResponse
  | groupChangedNotification
  | fetchGroupKeysRequest
  | fetchGroupKeysResponse
  | readCursorNotification
  | setConversationPrefsRequest
  | setConversationPrefsResponse
  | conversationPrefsNotification
  | editMessageRequest
  | editMessageResponse
  | deleteMessageRequest
  | deleteMessageResponse
  deriving DecidableEq, Repr

/-- The header value of a message type. -/
def MessageType.code : MessageType → Nat
  | .loginRequest => 1
  | .loginResponse => 2
  | .ping => 3
  | .pong => 4
  | .error => 5
  | .registerRequest => 10
  | .registerResponse => 11
  | .logoutRequest => 12
  | .logoutResponse => 13
  | .tokenRenewRequest => 14
  | .tokenRenewResponse => 15
  | .forceLogoutRequest => 16
  | .forceLogoutResponse => 17
  | .searchUsersRequest => 20
  | .searchUsersResponse => 21
  | .addContactRequest => 22
  | .addContactResponse => 23
  | .getContactsRequest => 24
  | .getContactsResponse => 25
  | .getConversationsRequest => 30
  | .getConversationsResponse => 31
  | .sendMessageRequest => 32
  | .sendMessageResponse => 33
  | .newMessageNotification => 34
  | .ackMessageRequest => 35
  | .ackMessageResponse => 36
  | .syncMessagesRequest => 37
  | .syncMessagesResponse => 38
  | .messageStatusUpdate => 39
  | .syncEventsRequest => 40
  | .syncEventsResponse => 41
  | .registerKeysRequest => 50
  | .registerKeysResponse => 51
  | .fetchKeysRequest => 52
  | .fetchKeysResponse => 53
  | .createGroupRequest => 60
  | .createGroupResponse => 61
  | .inviteGroupMembersRequest => 62
  | .inviteGroupMembersResponse => 63
  | .leaveGroupRequest => 64
  | .leaveGroupResponse => 65
  | .kickGroupMemberRequest => 66
  | .kickGroupMemberResponse => 67
  | .getGroupInfoRequest => 68
  | .getGroupInfoResponse => 69
  | .groupChangedNotification => 70
  | .fetchGroupKeysRequest => 71
  | .fetchGroupKeysResponse => 72
  | .readCursorNotification => 80
  | .setConversationPrefsRequest => 81
  | .setConversationPrefsResponse => 82
  | .conversationPrefsNotification => 83
  | .editMessageRequest => 84
  | .editMessageResponse => 85
  | .deleteMessageRequest => 86
  | .deleteMessageResponse => 87

/-- `enum class ErrorCode`. -/
inductive ErrorCode where
  | ok
  | invalidRequest
  | unsupportedVersion
  | replayRejected
  | rateLimited
  | authenticationFailed
  | accountAlreadyExists
  | accountNotFound
  | sessionExpired
  | sessionInvalid
  | loginRateLimited
  | tooManyDevices
  | contactAlreadyExists
  | contactNotFound
  | conversationNotFound
  | messageNotFound
  | cannotSendToSelf
  | permissionDenied
  | keyBundleUnavailable
  | e2eeInvalidEnvelope
  | groupLimitExceeded
  | memberAlreadyExists
  | memberNotFound
  | notGroupOwner
  | timeout
  | internalError
  deriving DecidableEq, Repr

/-- The value of a response's `code` member. -/
def ErrorCode.code : ErrorCode → Int
  | .ok => 0
  | .invalidRequest => 1000
  | .unsupportedVersion => 1001
  | .replayRejected => 1002
  | .rateLimited => 1003
  | .authenticationFailed => 2001
  | .accountAlreadyExists => 2002
  | .accountNotFound => 2003
  | .sessionExpired => 2004
  | .sessionInvalid => 2005
  | .loginRateLimited => 2006
  | .tooManyDevices => 2007
  | .contactAlreadyExists => 3001
  | .contactNotFound => 3002
  | .conversationNotFound => 3003
  | .messageNotFound => 3004
  | .cannotSendToSelf => 3005
  | .permissionDenied => 3006
  | .keyBundleUnavailable => 3007
  | .e2eeInvalidEnvelope => 3008
  | .groupLimitExceeded => 3009
  | .memberAlreadyExists => 3010
  | .memberNotFound => 3011
  | .notGroupOwner => 3012
  | .timeout => 9001
  | .internalError => 9002

end XYChat
