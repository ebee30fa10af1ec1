import XYChat.Server.Db

/-!
# Maintenance

The server prunes the event stream on its own thread, when it starts and then every
hour, over a database connection of its own: the statements of the pruning run
between those of the handlers.
-/

namespace XYChat.Server

open XYChat.Lib
open XYChat.Lib.Prog

/-- How many days an event is kept. -/
def syncEventRetentionDays : Int := 30

/-- What a statement of `pruneSyncEvents` makes of the tables. -/
inductive Db.Prunes (retentionDays : Int) : Db → Db → Prop
  | read (db : Db) : Prunes retentionDays db db
  | deleteExpired (db : Db) : Prunes retentionDays db (db.deleteExpired retentionDays).1
  | raisePruned (cutoffSeq : Int) (db : Db) : Prunes retentionDays db (db.raisePruned cutoffSeq)

theorem pruneSyncEvents_prunes (retentionDays : Int) :
    (pruneSyncEvents retentionDays).Within (Db.Prunes retentionDays) := by
  unfold pruneSyncEvents
  refine within_ite (fun _ => within_pure _) fun _ => ?_
  refine (within_query .read).bind fun cutoffSeq => ?_
  refine within_ite (fun _ => within_pure _) fun _ => ?_
  refine (within_call .deleteExpired).bind fun removed => ?_
  exact (within_update (.raisePruned cutoffSeq)).bind fun _ => within_pure _

/-- A pruning that runs: what is left of it. -/
structure Pruning where
  rest : Prog Db Nat
  prunes : rest.Within (Db.Prunes syncEventRetentionDays)

namespace Pruning

/-- What the timer starts. -/
def start : Pruning where
  rest := pruneSyncEvents syncEventRetentionDays
  prunes := pruneSyncEvents_prunes syncEventRetentionDays

/-- Execute the next statement, if there is one. -/
def advance (db : Db) : Pruning → Db × Option Pruning
  | ⟨.ret _, _⟩ => (db, none)
  | ⟨.stmt upd next, prunes⟩ => (upd db, some ⟨next db, (within_stmt.mp prunes db).2⟩)

theorem advance_prunes (db : Db) (p : Pruning) :
    db.Prunes syncEventRetentionDays (p.advance db).1 := by
  obtain ⟨rest, prunes⟩ := p
  cases rest with
  | ret removed => exact .read db
  | stmt upd next => exact (within_stmt.mp prunes db).1

end Pruning

/-- Pruning has to do with the events and their watermark only. -/
theorem Db.Prunes.users {retentionDays : Int} {db db' : Db} (h : db.Prunes retentionDays db') :
    db'.users = db.users := by
  cases h <;> rfl

theorem Db.Prunes.now {retentionDays : Int} {db db' : Db} (h : db.Prunes retentionDays db') :
    db'.now = db.now := by
  cases h <;> rfl

end XYChat.Server
