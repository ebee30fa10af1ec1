import XYChat.Server.Messages

/-!
# Users and contacts

The handlers that search for users, and add and list contacts.
-/

namespace XYChat.Server

open XYChat.Lib

/-! ## Statements -/

/-- Letters compare without case in `LIKE`, the ASCII ones only. -/
def foldCase (c : Char) : Char :=
  if 'A' ≤ c ∧ c ≤ 'Z' then Char.ofNat (c.toNat + 32) else c

/-- SQL's `LIKE`: a percent sign matches anything, an underscore one character. -/
def sqlLike : List Char → List Char → Bool
  | [], text => text.isEmpty
  | '%' :: pattern, [] => sqlLike pattern []
  | '%' :: pattern, c :: text => sqlLike pattern (c :: text) || sqlLike ('%' :: pattern) text
  | _ :: _, [] => false
  | p :: pattern, c :: text =>
      (p == '_' || foldCase p == foldCase c) && sqlLike pattern text
termination_by pattern text => pattern.length + text.length

namespace Db

/-- `searchUsers` with its default limit. -/
def searchUsers (db : Db) (query : String) : List UserRow :=
  (db.users.rows.filter fun u => sqlLike (query.toList ++ ['%']) u.username.toList).take 20

/-- `INSERT OR IGNORE INTO contacts`; a foreign key that fails is an error. -/
def insertContact (userId contactUserId : Int) (db : Db) : Db × Bool :=
  if (db.users.get userId).isNone ∨ (db.users.get contactUserId).isNone then (db, false)
  else if db.contacts.rows.any fun c => c.userId == userId && c.contactUserId == contactUserId then
    (db, true)
  else
    ({ db with
        contacts := db.contacts.insert fun id =>
          { id, userId, contactUserId, createdAt := db.now } }, true)

/-- `getContacts`: the rows joined with the contacts' names, newest first. -/
def getContacts (db : Db) (userId : Int) : List (ContactRow × String) :=
  (db.contacts.rows.filterMap fun c =>
    if c.userId = userId then (db.users.get c.contactUserId).map fun u => (c, u.username)
    else none).insertionSort fun a b => b.1.createdAt ≤ a.1.createdAt

end Db

/-- `DatabaseManager::addContact`: both directions, in two statements. -/
def addContact (userId contactUserId : Int) : Prog Db Bool := do
  if userId = contactUserId then return false
  else if !(← Prog.call (Db.insertContact userId contactUserId)) then return false
  else Prog.call (Db.insertContact contactUserId userId)

/-! ## Handlers -/

section

variable (qt : Qt) (requestId : Nat) (conn : Connection) (request : Json)

/-- `RequestHandler::processSearchUsersRequest`. -/
def processSearchUsersRequest : Prog Db Outcome := do
  let query := trimmed ((request.value "query").toStr "")
  if query = "" then
    return conn.reply requestId .searchUsersResponse .invalidRequest "Query is required"
  else
    let now ← Prog.query (·.now)
    let (searchWindow, allowed) := conn.searchWindow.allow now
    let conn := { conn with searchWindow }
    if !allowed then
      return conn.reply requestId .searchUsersResponse .rateLimited
        "Too many search requests, please slow down"
    else
      let users ← Prog.query (·.searchUsers query)
      let found := (users.filter (·.id != conn.authenticatedUserId)).map fun u =>
        Json.obj [("userId", .int u.id), ("username", .str u.username)]
      return {
        conn
        response :=
          { requestId, messageType := .searchUsersResponse, code := .ok, message := "OK"
            data := .obj [("users", .arr found)] } }

/-- `RequestHandler::processAddContactRequest`. -/
def processAddContactRequest : Prog Db Outcome := do
  let reject := conn.reply requestId .addContactResponse
  let me := conn.authenticatedUserId
  let contactUserId := (request.value "userId").toLongLong
  if contactUserId ≤ 0 ∨ contactUserId = me then
    return reject .cannotSendToSelf "Invalid contact"
  else
    let contacts ← Prog.query (·.getContacts me)
    if contacts.any (·.1.contactUserId == contactUserId) then
      return reject .contactAlreadyExists "Contact already exists"
    else if !(← addContact me contactUserId) then
      return reject .internalError "Failed to add contact"
    else
      Prog.update (Db.appendSyncEvent me "contact_added"
        (.obj [("contactUserId", .int contactUserId)]))
      Prog.update (Db.appendSyncEvent contactUserId "contact_added"
        (.obj [("contactUserId", .int me)]))
      return {
        conn
        response :=
          { requestId, messageType := .addContactResponse, code := .ok, message := "Contact added"
            data := .obj [("contactUserId", .int contactUserId)] } }

/-- `RequestHandler::processGetContactsRequest`. -/
def processGetContactsRequest : Prog Db Outcome := do
  let contacts ← Prog.query (·.getContacts conn.authenticatedUserId)
  return {
    conn
    response :=
      { requestId, messageType := .getContactsResponse, code := .ok, message := "OK"
        data := .obj
          [("contacts", .arr (contacts.map fun c => .obj
            [ ("userId", .int c.1.contactUserId), ("username", .str c.2)
            , ("addedAt", .str (qt.sqlDate c.1.createdAt)) ]))] } }

end

end XYChat.Server
