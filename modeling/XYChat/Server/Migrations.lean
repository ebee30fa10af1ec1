import Mathlib.Logic.Function.Basic
import XYChat.Lib.Resume

/-!
# Schema migrations

`DatabaseManager::runMigrations` and the nine migrations, as lists of commands on the
schema. A command is one or more SQL statements with what the source does about their
results; every statement outside a transaction commits at once, so a run may end between
any two of them.
-/

namespace XYChat.Server.Migration

/-! ## The database as migrations see it -/

inductive Value where
  | null
  | int (n : Int)
  | text (s : String)
  deriving DecidableEq, Repr

/-- A column as it is declared, and what rows that are already there get for it;
constraints over several columns are left out. -/
structure Column where
  name : String
  type : String
  value : Value := .null
  deriving DecidableEq, Repr

def column (name type : String) : Column := { name, type }

abbrev Row := List (String × Value)

/-- A column of a row; NULL where the row has none. -/
def Row.value (row : Row) (column : String) : Value := (row.lookup column).getD .null

structure TableData where
  columns : List Column
  rows : List Row
  deriving DecidableEq, Repr

def TableData.has (t : TableData) (column : String) : Bool := t.columns.any (·.name == column)

/-- The rows of `schema_version`, where there is that table, and the other tables. -/
@[ext] structure Schema where
  versions : Option (List Nat) := none
  tables : String → Option TableData := fun _ => none

namespace Schema

/-- `SELECT MAX(version) FROM schema_version`, NULL read as 0. -/
def currentVersion (db : Schema) : Nat := (db.versions.getD []).foldr max 0

def set (db : Schema) (name : String) (t : Option TableData) : Schema :=
  { db with tables := Function.update db.tables name t }

/-- What `PRAGMA table_info` shows of a column. -/
def hasColumn (db : Schema) (table column : String) : Bool :=
  (db.tables table).any (·.has column)

end Schema

/-! ## Statements -/

inductive Statement where
  | createVersions
  | createTable (name : String) (columns : List Column)
  | createIndex (table : String) (columns : List String)
  | addColumn (table : String) (column : Column)
  | renameTable (table name : String)
  | dropTable (name : String)
  | copyOldUsers
  | insertSyncMeta
  | recordVersion (version : Nat)
  deriving DecidableEq, Repr

/-- `'v0:0::' || password`. -/
def legacyHash : Value → Value
  | .null => .null
  | .int n => .text ("v0:0::" ++ toString n)
  | .text s => .text ("v0:0::" ++ s)

/-- What a TEXT column stores. -/
def storedText : Value → Value
  | .int n => .text (toString n)
  | value => value

def maxId (rows : List Row) : Int :=
  rows.foldr (fun row n => match row.value "id" with
    | .int id => max id n
    | _ => n) 0

/-- `INSERT OR IGNORE` passes over a row that lacks a name or a password, and one whose
name is taken. -/
def ignored (users : List Row) (old : Row) : Bool :=
  storedText (old.value "username") == .null || old.value "password" == .null ||
    users.any (fun row => row.value "username" == storedText (old.value "username"))

/-- The row of `users` for a row of `old_users`. -/
def migratedUser (now : String) (users : List Row) (old : Row) : Row :=
  [ ("id", .int (maxId users + 1)), ("username", storedText (old.value "username"))
  , ("email", .null), ("phone", .null), ("password_hash", legacyHash (old.value "password"))
  , ("created_at", .text now), ("updated_at", .text now) ]

def insertOrIgnore (now : String) (users : List Row) (old : Row) : List Row :=
  if ignored users old then users else users ++ [migratedUser now users old]

/-- The columns that the copy reads and writes are there. -/
def canCopy (users old : TableData) : Bool :=
  users.has "username" && users.has "password_hash" && old.has "username" && old.has "password"

def copiedUsers (now : String) (users old : TableData) : TableData :=
  { users with rows := old.rows.foldl (insertOrIgnore now) users.rows }

def addedColumn (column : Column) (t : TableData) : TableData where
  columns := t.columns ++ [column]
  rows := t.rows.map (· ++ [(column.name, column.value)])

/-- A statement that succeeds, at the time `now`; tables and indexes are created
`IF NOT EXISTS`, rows of the migrations inserted `OR IGNORE`. -/
def Statement.exec (now : String) (db : Schema) : Statement → Option Schema
  | .createVersions => some { db with versions := some (db.versions.getD []) }
  | .createTable name columns =>
      if (db.tables name).isSome then some db else some (db.set name (some ⟨columns, []⟩))
  | .createIndex table columns =>
      if columns.all (db.hasColumn table) then some db else none
  | .addColumn table column =>
      match db.tables table with
      | none => none
      | some t =>
          if t.has column.name then none else some (db.set table (some (addedColumn column t)))
  | .renameTable table name =>
      match db.tables table with
      | none => none
      | some t =>
          if (db.tables name).isSome then none else some ((db.set table none).set name (some t))
  | .dropTable name => if (db.tables name).isSome then some (db.set name none) else none
  | .copyOldUsers =>
      match db.tables "users", db.tables "old_users" with
      | some users, some old =>
          if canCopy users old then some (db.set "users" (some (copiedUsers now users old)))
          else none
      | _, _ => none
  | .insertSyncMeta =>
      match db.tables "sync_meta" with
      | none => none
      | some t =>
          if t.rows.any (fun row => row.value "id" == .int 1) then some db
          else some (db.set "sync_meta" (some
            { t with rows := t.rows ++ [[("id", .int 1), ("pruned_below_seq", .int 0)]] }))
  | .recordVersion version =>
      match db.versions with
      | none => none
      | some versions =>
          if version ∈ versions then none
          else some { db with versions := some (versions ++ [version]) }

/-! ## Commands -/

/-- What can happen at a statement: the process dies before it, or it fails. -/
inductive Fault where
  | dies
  | fails
  deriving DecidableEq, Repr

/-- How a run goes on after a command, or how it ended. -/
inductive Result where
  | ok (db : Schema)
  | stopped (db : Schema)
  | died (db : Schema)

namespace Result

/-- What the run leaves. -/
def left : Result → Schema
  | .ok db => db
  | .stopped db => db
  | .died db => db

def bind : Result → (Schema → Result) → Result
  | .ok db, next => next db
  | .stopped db, _ => .stopped db
  | .died db, _ => .died db

def toOption : Result → Option Schema
  | .ok db => some db
  | _ => none

end Result

/-- The fault at one of the statements of a command. -/
abbrev FaultAt := Option (Nat × Fault)

def FaultAt.hits (x : FaultAt) (statement : Nat) : Option Fault :=
  match x with
  | some (i, fault) => if i = statement then some fault else none
  | none => none

/-- `if (!q.exec(..)) return false;` -/
def must (now : String) (x : Option Fault) (s : Statement) (db : Schema) : Result :=
  match x with
  | some .dies => .died db
  | some .fails => .stopped db
  | none =>
      match s.exec now db with
      | some db => .ok db
      | none => .stopped db

/-- `q.exec(..);` with the result not looked at. -/
def attempt (now : String) (x : Option Fault) (s : Statement) (db : Schema) : Result :=
  match x with
  | some .dies => .died db
  | some .fails => .ok db
  | none => .ok ((s.exec now db).getD db)

/-- A query; one that fails has found nothing. -/
def look (x : Option Fault) (found : Bool) (db : Schema) (next : Bool → Result) : Result :=
  match x with
  | some .dies => .died db
  | some .fails => next false
  | none => next found

inductive Command where
  | must (s : Statement)
  | attempt (s : Statement)
  /-- `PRAGMA table_info`, and `ALTER TABLE` where the column was not seen. -/
  | unlessColumn (table : String) (column : Column)
  | renameLegacyUsers
  | moveOldUsers
  deriving DecidableEq, Repr

/-- The old `users` table has three columns. -/
def isLegacy (db : Schema) : Bool := (db.tables "users").any (·.columns.length == 3)

def Command.exec (now : String) (x : FaultAt) (db : Schema) : Command → Result
  | .must s => Migration.must now (x.hits 0) s db
  | .attempt s => Migration.attempt now (x.hits 0) s db
  | .unlessColumn table column =>
      look (x.hits 0) (db.hasColumn table column.name) db fun found =>
        if found then .ok db else Migration.must now (x.hits 1) (.addColumn table column) db
  | .renameLegacyUsers =>
      look (x.hits 0) (db.tables "users").isSome db fun found =>
        if found then
          look (x.hits 1) (isLegacy db) db fun legacy =>
            if legacy then Migration.must now (x.hits 2) (.renameTable "users" "old_users") db
            else .ok db
        else .ok db
  | .moveOldUsers =>
      look (x.hits 0) (db.tables "old_users").isSome db fun found =>
        if found then
          (Migration.attempt now (x.hits 1) .copyOldUsers db).bind fun db =>
            Migration.attempt now (x.hits 2) (.dropTable "old_users") db
        else .ok db

/-- The commands one after the other, with the faults at them. -/
def runCommands (now : String) : (Nat → FaultAt) → List Command → Schema → Result
  | _, [], db => .ok db
  | faults, c :: cs, db =>
      (c.exec now (faults 0) db).bind (runCommands now (fun i => faults (i + 1)) cs)

/-! ## The migrations -/

def idColumn : Column := column "id" "INTEGER PRIMARY KEY AUTOINCREMENT"

def userIdColumn : Column := column "user_id" "INTEGER NOT NULL"

def createdAtColumn : Column := column "created_at" "TEXT NOT NULL DEFAULT (datetime('now'))"

def updatedAtColumn : Column := column "updated_at" "TEXT NOT NULL DEFAULT (datetime('now'))"

def usersColumns : List Column :=
  [ idColumn, column "username" "TEXT UNIQUE NOT NULL", column "email" "TEXT"
  , column "phone" "TEXT", column "password_hash" "TEXT NOT NULL", createdAtColumn
  , updatedAtColumn ]

/-- `DatabaseManager::migrateToV1`. -/
def migrateToV1 : List Command :=
  [ .renameLegacyUsers
  , .must (.createTable "users" usersColumns)
  , .moveOldUsers
  , .must (.recordVersion 1) ]

/-- `DatabaseManager::migrateToV2`. -/
def migrateToV2 : List Command :=
  [ .must (.createTable "devices"
      [ idColumn, userIdColumn, column "device_id" "TEXT NOT NULL", column "device_name" "TEXT"
      , column "platform" "TEXT", column "public_key" "TEXT", createdAtColumn
      , column "last_seen_at" "TEXT NOT NULL DEFAULT (datetime('now'))" ])
  , .must (.createTable "sessions"
      [ idColumn, userIdColumn, column "device_id" "TEXT"
      , column "token_hash" "TEXT NOT NULL UNIQUE", column "login_ip" "TEXT", createdAtColumn
      , column "last_active_at" "TEXT NOT NULL DEFAULT (datetime('now'))"
      , column "expires_at" "TEXT NOT NULL" ])
  , .must (.createTable "login_audit"
      [ idColumn, column "user_id" "INTEGER", column "ip_address" "TEXT"
      , column "success" "INTEGER NOT NULL", column "failure_reason" "TEXT", createdAtColumn ])
  , .must (.recordVersion 2) ]

/-- `DatabaseManager::migrateToV3`. -/
def migrateToV3 : List Command :=
  [ .must (.createTable "contacts"
      [idColumn, userIdColumn, column "contact_user_id" "INTEGER NOT NULL", createdAtColumn])
  , .must (.createTable "conversations"
      [idColumn, column "type" "TEXT NOT NULL DEFAULT 'private'", createdAtColumn, updatedAtColumn])
  , .must (.createTable "conversation_members"
      [ idColumn, column "conversation_id" "INTEGER NOT NULL", userIdColumn
      , column "joined_at" "TEXT NOT NULL DEFAULT (datetime('now'))"
      , column "last_read_message_id" "INTEGER DEFAULT 0" ])
  , .must (.createTable "messages"
      [ idColumn, column "conversation_id" "INTEGER NOT NULL", column "sender_id" "INTEGER NOT NULL"
      , column "content" "TEXT NOT NULL"
      , column "content_type" "TEXT NOT NULL DEFAULT 'text'"
      , column "status" "TEXT NOT NULL DEFAULT 'sent'", createdAtColumn ])
  , .attempt (.createIndex "messages" ["conversation_id", "id"])
  , .attempt (.createIndex "messages" ["sender_id"])
  , .attempt (.createIndex "conversation_members" ["user_id"])
  , .must (.recordVersion 3) ]

/-- `DatabaseManager::migrateToV4`. The rows of `messages` have no client key yet, so
the unique index finds no duplicates. -/
def migrateToV4 : List Command :=
  [ .must (.addColumn "messages" (column "client_message_id" "TEXT"))
  , .must (.addColumn "messages" (column "sender_device_id" "TEXT"))
  , .must (.createIndex "messages" ["sender_id", "sender_device_id", "client_message_id"])
  , .must (.createTable "message_receipts"
      [ idColumn, column "message_id" "INTEGER NOT NULL", userIdColumn, column "device_id" "TEXT"
      , column "delivered_at" "TEXT", column "read_at" "TEXT" ])
  , .attempt (.createIndex "message_receipts" ["message_id"])
  , .must (.createTable "sync_events"
      [ column "seq" "INTEGER PRIMARY KEY AUTOINCREMENT", userIdColumn
      , column "event_type" "TEXT NOT NULL"
      , column "payload" "TEXT NOT NULL DEFAULT '\x7b\x7d'", createdAtColumn ])
  , .attempt (.createIndex "sync_events" ["user_id", "seq"])
  , .must (.recordVersion 4) ]

/-- `DatabaseManager::migrateToV5`. -/
def migrateToV5 : List Command :=
  [ .must (.createTable "device_identity_keys"
      [ idColumn, userIdColumn, column "device_id" "TEXT NOT NULL"
      , column "identity_pub" "TEXT NOT NULL", createdAtColumn, updatedAtColumn ])
  , .must (.createTable "prekeys"
      [ idColumn, userIdColumn, column "device_id" "TEXT NOT NULL", column "pub" "TEXT NOT NULL"
      , column "status" "TEXT NOT NULL DEFAULT 'unused'", column "claimed_at" "TEXT"
      , createdAtColumn ])
  , .attempt (.createIndex "prekeys" ["user_id", "device_id", "status"])
  , .attempt (.createIndex "prekeys" ["claimed_at"])
  , .must (.recordVersion 5) ]

/-- `DatabaseManager::migrateToV6`. -/
def migrateToV6 : List Command :=
  [ .unlessColumn "prekeys" (column "claimed_at" "TEXT")
  , .attempt (.createIndex "prekeys" ["claimed_at"])
  , .must (.recordVersion 6) ]

/-- `DatabaseManager::migrateToV7`. -/
def migrateToV7 : List Command :=
  [ .unlessColumn "conversations" (column "name" "TEXT")
  , .unlessColumn "conversation_members"
      { column "role" "TEXT NOT NULL DEFAULT 'member'" with value := .text "member" }
  , .must (.recordVersion 7) ]

/-- `DatabaseManager::migrateToV8`. -/
def migrateToV8 : List Command :=
  [ .must (.createTable "sync_meta"
      [ column "id" "INTEGER PRIMARY KEY CHECK (id = 1)"
      , column "pruned_below_seq" "INTEGER NOT NULL DEFAULT 0" ])
  , .attempt .insertSyncMeta
  , .must (.recordVersion 8) ]

/-- `DatabaseManager::migrateToV9`. -/
def migrateToV9 : List Command :=
  [ .unlessColumn "conversation_members"
      { column "pinned" "INTEGER NOT NULL DEFAULT 0" with value := .int 0 }
  , .unlessColumn "conversation_members"
      { column "muted" "INTEGER NOT NULL DEFAULT 0" with value := .int 0 }
  , .unlessColumn "messages" (column "edited_at" "TEXT")
  , .unlessColumn "messages" { column "deleted" "INTEGER NOT NULL DEFAULT 0" with value := .int 0 }
  , .must (.recordVersion 9) ]

def migrations : List (Nat × List Command) :=
  [ (1, migrateToV1), (2, migrateToV2), (3, migrateToV3), (4, migrateToV4), (5, migrateToV5)
  , (6, migrateToV6), (7, migrateToV7), (8, migrateToV8), (9, migrateToV9) ]

/-! ## The run -/

/-- Where a run is interrupted: the migration, the command of it and the statement of
that, counted from 0. Migration 0 is what comes before the first. -/
structure Interruption where
  migration : Nat
  command : Nat
  statement : Nat
  fault : Fault
  deriving DecidableEq, Repr

/-- The faults an interruption means for the commands of a migration. -/
def faultsAt (x : Option Interruption) (migration command : Nat) : FaultAt :=
  match x with
  | none => none
  | some i =>
      if i.migration = migration ∧ i.command = command then some (i.statement, i.fault) else none

/-- The migrations above the version that was read. -/
def runVersions (now : String) (x : Option Interruption) (version : Nat) :
    List (Nat × List Command) → Schema → Result
  | [], db => .ok db
  | (k, cs) :: rest, db =>
      if version < k then
        (runCommands now (faultsAt x k) cs db).bind (runVersions now x version rest)
      else runVersions now x version rest db

/-- `DatabaseManager::runMigrations`; where the version cannot be read it is 0. -/
def runMigrations (now : String) (x : Option Interruption) (db : Schema) : Result :=
  (must now ((faultsAt x 0 0).hits 0) .createVersions db).bind fun db =>
    match (faultsAt x 0 1).hits 0 with
    | some .dies => .died db
    | some .fails => runVersions now x 0 migrations db
    | none => runVersions now x db.currentVersion migrations db

end XYChat.Server.Migration
