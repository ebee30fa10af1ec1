import XYChat.Server.Connection
import XYChat.Server.Db

/-!
# Registering and handing out keys

The handlers of `RegisterKeys`, `FetchKeys` and `FetchGroupKeys`.
-/

namespace XYChat.Server

open XYChat.Lib

def maxPrekeysPerBatch : Nat := 100

def maxPrekeysPerDevice : Nat := 500

/-- `DatabaseManager::upsertIdentityKey`: with a new identity key the device's
prekeys that were not used go. -/
def upsertIdentityKey (userId : Int) (deviceId identityPub : String) : Prog Db Bool := do
  if deviceId = "" ∨ identityPub = "" then return false
  else
    match ← Prog.query (·.identityPub userId deviceId) with
    | none => Prog.call (Db.setIdentityKey userId deviceId identityPub)
    | some oldPub =>
        if oldPub ≠ identityPub then
          Prog.update (Db.purgePrekeys userId deviceId)
          Prog.call (Db.setIdentityKey userId deviceId identityPub)
        else Prog.call (Db.setIdentityKey userId deviceId identityPub)

/-- `DatabaseManager::removeDeviceKeys`. -/
def removeDeviceKeys (userId : Int) (deviceId : String) : Prog Db Bool := do
  Prog.update fun db =>
    { db with
      deviceIdentityKeys := db.deviceIdentityKeys.delete fun k =>
        k.userId == userId && k.deviceId == deviceId }
  Prog.update fun db =>
    { db with
      prekeys := db.prekeys.delete fun p => p.userId == userId && p.deviceId == deviceId }
  return true

/-- The text decodes to an X25519 public key. -/
def isPublicKey (qt : Qt) (pub : String) : Bool := (qt.fromBase64 pub).length == 32

/-- `RequestHandler::processRegisterKeysRequest`. -/
def processRegisterKeysRequest (qt : Qt) (requestId : Nat) (conn : Connection) (request : Json) :
    Prog Db Outcome := do
  let me := conn.authenticatedUserId
  let identityPub := trimmed ((request.value "identityPub").toStr "")
  let reject := conn.reply requestId .registerKeysResponse
  if identityPub = "" ∨ isPublicKey qt identityPub = false then
    return reject .invalidRequest "identityPub must be a 32-byte Base64 X25519 public key"
  else if !(← upsertIdentityKey me conn.currentDeviceId identityPub) then
    return reject .internalError "Failed to store identity key"
  else
    let prekeyArray := (request.value "prekeys").toArray
    let accept (uploaded : Nat) : Prog Db Outcome := do
      let remaining ← Prog.query (·.prekeyCount me conn.currentDeviceId)
      return {
        conn
        response :=
          { requestId, messageType := .registerKeysResponse, code := .ok
            message := "Keys registered"
            data := .obj
              [ ("deviceId", .str conn.currentDeviceId)
              , ("uploadedPrekeys", .int uploaded)
              , ("remainingPrekeys", .int remaining) ] } }
    if prekeyArray = [] then accept 0
    else if maxPrekeysPerBatch < prekeyArray.length then
      return reject .invalidRequest "At most 100 prekeys per batch"
    else
      let remaining ← Prog.query (·.prekeyCount me conn.currentDeviceId)
      if maxPrekeysPerDevice < remaining + prekeyArray.length then
        return reject .invalidRequest "Prekey quota exceeded (500 unused allowed)"
      else
        let pubs := prekeyArray.map fun value => trimmed (value.toStr "")
        if !pubs.all (isPublicKey qt) then
          return reject .invalidRequest "Each prekey must be a 32-byte Base64 X25519 public key"
        else
          match ← Prog.call (Db.uploadPrekeys me conn.currentDeviceId pubs) with
          | none => return reject .internalError "Failed to store prekeys"
          | some uploaded => accept uploaded

/-- The bundle of a claimed prekey; a device without an identity key has none. -/
def bundleOf (identityKeys : List IdentityKeyRow) (c : Db.ClaimedPrekey) : Option Json :=
  let identityPub :=
    ((identityKeys.find? (·.deviceId == c.deviceId)).map (·.identityPub)).getD ""
  if identityPub = "" then none
  else some (.obj
    [ ("deviceId", .str c.deviceId)
    , ("identityPub", .str identityPub)
    , ("prekeyId", .int c.prekeyId)
    , ("prekeyPub", .str c.prekeyPub) ])

/-- `RequestHandler::processFetchKeysRequest`. -/
def processFetchKeysRequest (requestId : Nat) (conn : Connection) (request : Json) :
    Prog Db Outcome := do
  let targetUserId := (request.value "userId").toLongLong
  if targetUserId ≤ 0 ∨ targetUserId = conn.authenticatedUserId then
    return conn.reply requestId .fetchKeysResponse .cannotSendToSelf "Invalid target user"
  else
    let now ← Prog.query (·.now)
    let (fetchKeysWindow, allowed) := conn.fetchKeysWindow.allow now
    let conn := { conn with fetchKeysWindow }
    let reject := conn.reply requestId .fetchKeysResponse
    if !allowed then
      return reject .rateLimited "Too many key bundle requests, please slow down"
    else if (← Prog.query (·.getDevicesByUserId targetUserId)).isEmpty then
      return reject .accountNotFound "Target user has no registered devices"
    else
      let claimed ← Prog.call (Db.claimPrekeys targetUserId)
      if claimed.isEmpty then
        return reject .keyBundleUnavailable "Target user has no available prekeys"
      else
        let identityKeys ← Prog.query (·.getIdentityKeysByUser targetUserId)
        let bundles := claimed.filterMap (bundleOf identityKeys)
        if bundles.isEmpty then
          return reject .keyBundleUnavailable "Target user devices have no identity keys"
        else
          return {
            conn
            response :=
              { requestId, messageType := .fetchKeysResponse, code := .ok, message := "OK"
                data := .obj [("userId", .int targetUserId), ("bundles", .arr bundles)] } }

/-- The loop of `processFetchGroupKeysRequest` over the members: the bundles of
each member that has any. -/
def collectBundles : List Int → Prog Db (List (String × Json))
  | [] => pure []
  | userId :: rest => do
      let claimed ← Prog.call (Db.claimPrekeys userId)
      if claimed.isEmpty then collectBundles rest
      else
        let identityKeys ← Prog.query (·.getIdentityKeysByUser userId)
        let bundles := claimed.filterMap (bundleOf identityKeys)
        let others ← collectBundles rest
        return if bundles.isEmpty then others else (toString userId, .arr bundles) :: others

/-- `RequestHandler::processFetchGroupKeysRequest`. -/
def processFetchGroupKeysRequest (requestId : Nat) (conn : Connection) (request : Json) :
    Prog Db Outcome := do
  let convId := (request.value "conversationId").toLongLong
  let reject := conn.reply requestId .fetchGroupKeysResponse
  if convId ≤ 0 then
    return reject .invalidRequest "Invalid conversationId"
  else
    match ← Prog.query (·.getConversation convId) with
    | none => return reject .conversationNotFound "Group not found"
    | some conv =>
      if conv.type ≠ .groupType then
        return reject .conversationNotFound "Group not found"
      else if !(← Prog.query (·.isConversationMember convId conn.authenticatedUserId)) then
        return reject .permissionDenied "Not a member of this group"
      else
        let now ← Prog.query (·.now)
        let (fetchKeysWindow, allowed) := conn.fetchKeysWindow.allow now
        let conn := { conn with fetchKeysWindow }
        if !allowed then
          return conn.reply requestId .fetchGroupKeysResponse .rateLimited
            "Too many key bundle requests, please slow down"
        else
          let memberIds ← Prog.query (·.getConversationMemberIds convId)
          let bundlesByUser ← collectBundles memberIds
          return {
            conn
            response :=
              { requestId, messageType := .fetchGroupKeysResponse, code := .ok, message := "OK"
                data := .obj
                  [ ("conversationId", .int convId), ("bundles", .obj bundlesByUser) ] } }

end XYChat.Server
