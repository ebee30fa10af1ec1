import XYChat.Server.MigrationRuns

/-!
# The users of before

The first migration renames a `users` table of three columns, makes the new one and moves
the users over; the copy passes over names that are taken, so that it may be repeated.
Of what it asks before, and of copying and dropping, it does not look at the failure.
-/

namespace XYChat.Server.Migration

open XYChat.Lib XYChat.Lib.Resume

variable {now : String}

/-! ## Copied users -/

section

variable {users rows : List Row} {old row : Row}

theorem insertOrIgnore_eq_self :
    insertOrIgnore now users old = users ↔ ignored users old = true := by
  unfold insertOrIgnore
  split
  · rename_i h
    exact ⟨fun _ => h, fun _ => rfl⟩
  · rename_i h
    exact ⟨fun hsame => by simp at hsame, fun hignored => absurd hignored h⟩

theorem ignored_insertOrIgnore : ignored (insertOrIgnore now users old) old = true := by
  unfold insertOrIgnore
  split
  · assumption
  · have hname : (migratedUser now users old).value "username" =
        storedText (old.value "username") := rfl
    simp [ignored, hname]

theorem ignored_of_ignored (h : ignored users old = true) :
    ignored (insertOrIgnore now users row) old = true := by
  unfold insertOrIgnore
  split
  · exact h
  · simp only [ignored, List.any_append, Bool.or_eq_true] at h ⊢
    rcases h with h | h
    · exact .inl h
    · exact .inr (.inl h)

/-- Copying a row, as a command on the rows of `users`. -/
def copyRow (now : String) (old : Row) (users : List Row) : Option (List Row) :=
  some (insertOrIgnore now users old)

theorem settled_copyRow : Settled (copyRow now) old users ↔ ignored users old = true := by
  unfold Settled copyRow
  rw [Option.some.injEq, insertOrIgnore_eq_self]

theorem runAll_copyRow :
    runAll (copyRow now) rows users = some (rows.foldl (insertOrIgnore now) users) := by
  induction rows generalizing users with
  | nil => rfl
  | cons row rows ih => exact ih

theorem lasting_copyRow : Lasting (copyRow now) rows where
  done old _ users users' h := by
    rw [settled_copyRow, ← Option.some.inj h]
    exact ignored_insertOrIgnore
  kept := List.pairwise_of_forall fun old row users users' hold h => by
    rw [settled_copyRow] at hold ⊢
    rw [← Option.some.inj h]
    exact ignored_of_ignored hold

/-- Copied once more, the rows are all ignored. -/
theorem copyRows_ignored :
    ∀ old ∈ rows, ignored (rows.foldl (insertOrIgnore now) users) old = true :=
  fun old hold => settled_copyRow.mp (lasting_copyRow.settled runAll_copyRow old hold)

theorem copyRows_eq_self :
    rows.foldl (insertOrIgnore now) users = users ↔ ∀ old ∈ rows, ignored users old = true := by
  constructor
  · intro hsame old hold
    rw [← hsame]
    exact copyRows_ignored old hold
  · intro h
    have hrun : runAll (copyRow now) rows users = some users :=
      runAll_of_settled fun old hold => settled_copyRow.mpr (h old hold)
    rw [runAll_copyRow] at hrun
    exact Option.some.inj hrun

end

/-- What the copy leaves, whether or not it succeeds. -/
def copied (now : String) (db : Schema) : Schema :=
  (Statement.copyOldUsers.exec now db).getD db

/-- The copy changes the rows of `users` at most. -/
theorem copied_cases (now : String) (db : Schema) : copied now db = db ∨
    ∃ users old, db.tables "users" = some users ∧ db.tables "old_users" = some old ∧
      canCopy users old = true ∧
        copied now db = db.set "users" (some (copiedUsers now users old)) := by
  unfold copied
  simp only [Statement.exec]
  split
  · rename_i users old husers hold
    by_cases hcan : canCopy users old = true
    · refine .inr ⟨users, old, husers, hold, hcan, ?_⟩
      rw [if_pos hcan]
      rfl
    · refine .inl ?_
      rw [if_neg hcan]
      rfl
  · exact .inl rfl

theorem copied_eq {db : Schema} {users old : TableData} (husers : db.tables "users" = some users)
    (hold : db.tables "old_users" = some old) :
    copied now db =
      if canCopy users old then db.set "users" (some (copiedUsers now users old)) else db := by
  unfold copied
  simp only [Statement.exec, husers, hold]
  by_cases hcan : canCopy users old = true
  · rw [if_pos hcan, if_pos hcan]
    rfl
  · rw [if_neg hcan, if_neg hcan]
    rfl

section

variable {db : Schema}

theorem copied_versions : (copied now db).versions = db.versions := by
  rcases copied_cases now db with h | ⟨users, old, -, -, -, h⟩
  · rw [h]
  · rw [h, Schema.set_versions]

theorem copied_old : (copied now db).tables "old_users" = db.tables "old_users" := by
  rcases copied_cases now db with h | ⟨users, old, -, -, -, h⟩
  · rw [h]
  · rw [h, Schema.set_tables_of_ne (by decide)]

/-- The columns of `users` stay. -/
theorem copied_users (now : String) (db : Schema) : ((copied now db).tables "users").map (·.columns) =
    (db.tables "users").map (·.columns) := by
  rcases copied_cases now db with h | ⟨users, old, husers, -, -, h⟩
  · rw [h]
  · rw [h, Schema.set_tables_self, husers]
    rfl

theorem isLegacy_eq (db : Schema) :
    isLegacy db = ((db.tables "users").map (·.columns)).any (·.length == 3) := by
  unfold isLegacy
  cases db.tables "users" <;> rfl

theorem copied_legacy : isLegacy (copied now db) = isLegacy db := by
  rw [isLegacy_eq, isLegacy_eq, copied_users]

theorem copied_users_isSome :
    ((copied now db).tables "users").isSome = (db.tables "users").isSome := by
  have h := congrArg Option.isSome (copied_users now db)
  rwa [Option.isSome_map, Option.isSome_map] at h

/-- Copying again changes nothing. -/
theorem copied_again : copied now (copied now db) = copied now db := by
  rcases copied_cases now db with h | ⟨users, old, husers, hold, hcan, h⟩
  · rw [h, h]
  · have husers' : (copied now db).tables "users" = some (copiedUsers now users old) := by
      rw [h, Schema.set_tables_self]
    have hagain : copiedUsers now (copiedUsers now users old) old = copiedUsers now users old := by
      unfold copiedUsers
      rw [show old.rows.foldl (insertOrIgnore now) (old.rows.foldl (insertOrIgnore now) users.rows) =
        old.rows.foldl (insertOrIgnore now) users.rows from copyRows_eq_self.mpr copyRows_ignored]
    rw [copied_eq husers' (copied_old.trans hold),
      if_pos (show canCopy (copiedUsers now users old) old = true from hcan), hagain, ← husers']
    exact Schema.ext rfl (Function.update_eq_self ..)

/-- `old_users` is gone, and what could be copied is. -/
def moved (now : String) (db : Schema) : Schema :=
  if (db.tables "old_users").isSome then (copied now db).set "old_users" none else db

theorem dropTable_copied (h : (db.tables "old_users").isSome = true) :
    ((Statement.dropTable "old_users").exec now (copied now db)).getD (copied now db) =
      moved now db := by
  have hexec : (Statement.dropTable "old_users").exec now (copied now db) =
      some ((copied now db).set "old_users" none) := by
    simp only [Statement.exec, copied_old, h, if_true]
  rw [hexec, moved, if_pos h]
  rfl

theorem moveOldUsers_none : Command.moveOldUsers.exec now none db = .ok (moved now db) := by
  simp only [Command.exec, FaultAt.hits_none, look, attempt, Result.bind]
  by_cases h : (db.tables "old_users").isSome = true
  · rw [if_pos h]
    exact congrArg Result.ok (dropTable_copied h)
  · rw [if_neg h, moved, if_neg h]

theorem moved_old : (moved now db).tables "old_users" = none := by
  unfold moved
  split
  · exact Schema.set_tables_self ..
  · rename_i h
    simpa using h

theorem moved_versions : (moved now db).versions = db.versions := by
  unfold moved
  split
  · rw [Schema.set_versions, copied_versions]
  · rfl

theorem moved_users (now : String) (db : Schema) : ((moved now db).tables "users").map (·.columns) =
    (db.tables "users").map (·.columns) := by
  unfold moved
  split
  · rw [Schema.set_tables_of_ne (by decide), copied_users]
  · rfl

theorem renameLegacyUsers_none : Command.renameLegacyUsers.exec now none db =
    if isLegacy db then must now none (.renameTable "users" "old_users") db else .ok db := by
  simp only [Command.exec, FaultAt.hits_none, look]
  unfold isLegacy
  cases db.tables "users" <;> rfl

theorem settled_moveOldUsers (h : db.tables "old_users" = none) :
    Settled (Command.done now) .moveOldUsers db := by
  simp [Settled, Command.done, moveOldUsers_none, moved, h, Result.toOption]

end

/-! ## The first migration -/

/-- The users that the first migration moves. -/
def oldUsers (db : Schema) : Option TableData :=
  if isLegacy db then db.tables "users" else db.tables "old_users"

/-- The table it moves them into. -/
def newUsers (db : Schema) : TableData :=
  if isLegacy db then ⟨usersColumns, []⟩ else (db.tables "users").getD ⟨usersColumns, []⟩

section

variable {db db' : Schema}

theorem newUsers_columns (db : Schema) : (newUsers db).columns.length ≠ 3 := by
  have hcolumns : usersColumns.length ≠ 3 := by decide
  unfold newUsers
  cases hlegacy : isLegacy db with
  | true => exact hcolumns
  | false =>
      unfold isLegacy at hlegacy
      cases husers : db.tables "users" with
      | none => exact hcolumns
      | some t => simpa [husers] using hlegacy

theorem isLegacy_of_users {t : TableData} (husers : db.tables "users" = some t)
    (ht : t.columns.length ≠ 3) : isLegacy db = false := by
  simp [isLegacy, husers, ht]

/-- Renamed, the old table is `old_users`, and there is no `users`. -/
theorem renameTable_tables
    (h : (Statement.renameTable "users" "old_users").exec now db = some db') :
    db'.tables "users" = none ∧ db'.tables "old_users" = db.tables "users" ∧
      db.tables "old_users" = none ∧ db'.versions = db.versions := by
  simp only [Statement.exec] at h
  split at h
  · cases h
  · rename_i t ht
    split at h
    · cases h
    · rename_i hold
      rw [← Option.some.inj h]
      refine ⟨?_, ?_, by simpa using hold, rfl⟩
      · rw [Schema.set_tables_of_ne (by decide), Schema.set_tables_self]
      · rw [Schema.set_tables_self, ht]

theorem renameLegacyUsers_done (h : Command.renameLegacyUsers.exec now none db = .ok db') :
    isLegacy db' = false ∧ db'.tables "old_users" = oldUsers db ∧
      (db'.tables "users").getD ⟨usersColumns, []⟩ = newUsers db ∧ db'.versions = db.versions := by
  rw [renameLegacyUsers_none] at h
  unfold oldUsers newUsers
  cases hlegacy : isLegacy db with
  | true =>
      rw [hlegacy, if_pos rfl] at h
      obtain ⟨husers, hold, -, hversions⟩ := renameTable_tables (must_eq_ok.mp h)
      refine ⟨?_, hold, ?_, hversions⟩
      · simp [isLegacy, husers]
      · rw [husers]
        rfl
  | false =>
      rw [hlegacy] at h
      rw [← Result.ok.inj h]
      exact ⟨hlegacy, rfl, rfl, rfl⟩

theorem first_created (h : runCommands now (fun _ => none) (migrateToV1.take 2) db = .ok db') :
    db'.tables "users" = some (newUsers db) ∧ db'.tables "old_users" = oldUsers db ∧
      db'.versions = db.versions := by
  obtain ⟨db₁, hrename, hrest⟩ := Result.bind_eq_ok.mp h
  obtain ⟨db₂, hcreate, hend⟩ := Result.bind_eq_ok.mp hrest
  obtain ⟨-, hold, hnew, hversions⟩ := renameLegacyUsers_done hrename
  have hexec := must_eq_ok.mp hcreate
  obtain ⟨husers, hversions'⟩ := createTable_tables hexec
  rw [← Result.ok.inj hend]
  refine ⟨?_, ?_, hversions'.trans hversions⟩
  · rw [husers, hnew]
  · rw [Statement.exec_tables hexec (by simp [Statement.writes]), hold]

theorem settled_renameLegacyUsers :
    Settled (Command.done now) .renameLegacyUsers db ↔ isLegacy db = false := by
  constructor
  · intro h
    exact (renameLegacyUsers_done (Result.toOption_eq_some.mp h)).1
  · intro h
    simp [Settled, Command.done, renameLegacyUsers_none, h, Result.toOption]

theorem moveOldUsers_done (h : Command.moveOldUsers.done now db = some db') :
    db' = moved now db := by
  have hok := Result.toOption_eq_some.mp h
  rw [moveOldUsers_none] at hok
  exact (Result.ok.inj hok).symm

theorem lasting_first : Lasting (Command.done now) (migrateToV1.take 3) where
  done := by
    refine List.forall_mem_cons.mpr ⟨fun db db' hdone => ?_, ?_⟩
    · exact settled_renameLegacyUsers.mpr
        (renameLegacyUsers_done (Result.toOption_eq_some.mp hdone)).1
    refine List.forall_mem_cons.mpr ⟨fun db db' => Command.additive_done rfl, ?_⟩
    refine List.forall_mem_cons.mpr ⟨fun db db' hdone => settled_moveOldUsers ?_, by simp⟩
    rw [moveOldUsers_done hdone]
    exact moved_old
  kept := by
    refine List.pairwise_cons.mpr ⟨?_, List.pairwise_pair.mpr ?_⟩
    · refine List.forall_mem_cons.mpr ⟨fun db db' hsettled hdone => ?_, ?_⟩
      · have hlegacy := settled_renameLegacyUsers.mp hsettled
        obtain ⟨husers, -⟩ := createTable_tables (must_eq_ok.mp (Result.toOption_eq_some.mp hdone))
        refine settled_renameLegacyUsers.mpr (isLegacy_of_users husers ?_)
        have hnew := newUsers_columns db
        rwa [newUsers, hlegacy, if_neg Bool.false_ne_true] at hnew
      · refine List.forall_mem_cons.mpr ⟨fun db db' hsettled hdone => ?_, by simp⟩
        have hlegacy := settled_renameLegacyUsers.mp hsettled
        refine settled_renameLegacyUsers.mpr ?_
        rw [moveOldUsers_done hdone, isLegacy_eq, moved_users, ← isLegacy_eq]
        exact hlegacy
    · intro db db' hsettled hdone
      refine settled_createTable.mpr ?_
      have husers := congrArg Option.isSome (moved_users now db)
      rw [Option.isSome_map, Option.isSome_map] at husers
      rw [moveOldUsers_done hdone, husers]
      exact settled_createTable.mp hsettled

/-- What a fault in the renaming can do, unless an old table goes unseen. -/
theorem renameLegacyUsers_faulted {statement : Nat} {fault : Fault}
    (h : fault = .fails → statement ≤ 1 → isLegacy db = false) :
    Command.renameLegacyUsers.exec now (some (statement, fault)) db =
        Command.renameLegacyUsers.exec now none db ∨
      Command.renameLegacyUsers.exec now (some (statement, fault)) db = .died db ∨
      Command.renameLegacyUsers.exec now (some (statement, fault)) db = .stopped db := by
  rw [renameLegacyUsers_none]
  match statement, fault with
  | 0, .dies => exact .inr (.inl rfl)
  | 0, .fails =>
      rw [h rfl (by decide)]
      exact .inl rfl
  | 1, fault =>
      simp only [Command.exec, look, FaultAt.hits]
      cases husers : db.tables "users" with
      | none => simp [isLegacy, husers]
      | some t =>
          cases fault with
          | dies => simp
          | fails => simp [h rfl (by decide)]
  | 2, fault =>
      simp only [Command.exec, look, FaultAt.hits]
      cases husers : db.tables "users" with
      | none => simp [isLegacy, husers]
      | some t =>
          cases isLegacy db with
          | false => simp
          | true => cases fault <;> simp [must]
  | n + 3, fault =>
      left
      rw [← renameLegacyUsers_none]
      simp [Command.exec, look, FaultAt.hits]

/-- The commands of the first migration up to the move, the move and the record. -/
theorem first_states (hcs : runCommands now (fun _ => none) migrateToV1 db = .ok db') :
    ∃ created, runCommands now (fun _ => none) (migrateToV1.take 2) db = .ok created ∧
      (Statement.recordVersion 1).exec now (moved now created) = some db' := by
  obtain ⟨created, hcreated, hrest⟩ := before_of_ok
    (show runCommands now (fun _ => none) (migrateToV1.take 2 ++ migrateToV1.drop 2) db = .ok db'
      from hcs)
  obtain ⟨db₁, hmove, hlast⟩ := Result.bind_eq_ok.mp hrest
  obtain ⟨db₂, hrecord, hend⟩ := Result.bind_eq_ok.mp hlast
  have hmoved : moved now created = db₁ := by
    have h : Command.moveOldUsers.exec now none created = .ok db₁ := hmove
    rw [moveOldUsers_none] at h
    exact Result.ok.inj h
  refine ⟨created, hcreated, ?_⟩
  rw [hmoved, ← Result.ok.inj hend]
  exact must_eq_ok.mp hrecord

/-- An old table that is not seen is not replaced. -/
theorem first_unseen {statement : Nat} (hlegacy : isLegacy db = true) (hstatement : statement ≤ 1)
    (hcs : runCommands now (fun _ => none) migrateToV1 db = .ok db') :
    ∃ other, runCommands now (singleFault 0 (some (statement, .fails))) migrateToV1 db = .ok other ∧
      1 ≤ other.currentVersion ∧ other.tables "users" ≠ db'.tables "users" := by
  obtain ⟨created, hcreated, hrecord⟩ := first_states hcs
  obtain ⟨husers, -, hversions⟩ := first_created hcreated
  obtain ⟨t, ht, hcolumns⟩ : ∃ t, db.tables "users" = some t ∧ t.columns.length = 3 := by
    simpa [isLegacy, Option.any_eq_true] using hlegacy
  have hold : db.tables "old_users" = none := by
    obtain ⟨db₁, hrename, -⟩ := Result.bind_eq_ok.mp hcreated
    have h : Command.renameLegacyUsers.exec now none db = .ok db₁ := hrename
    rw [renameLegacyUsers_none, hlegacy, if_pos rfl] at h
    exact (renameTable_tables (must_eq_ok.mp h)).2.2.1
  obtain ⟨other, hother, hcurrent, htables⟩ :=
    record_elsewhere hrecord (hversions.symm.trans moved_versions.symm)
  refine ⟨other, ?_, hcurrent, ?_⟩
  · have hunseen : Command.renameLegacyUsers.exec now (some (statement, .fails)) db = .ok db := by
      match statement, hstatement with
      | 0, _ => rfl
      | 1, _ => simp [Command.exec, look, FaultAt.hits, ht]
    have hcreate : (Command.must (.createTable "users" usersColumns)).exec now none db = .ok db :=
      Result.toOption_eq_some.mp (settled_createTable.mpr (by simp [ht]))
    have hmove : Command.moveOldUsers.exec now none db = .ok db :=
      Result.toOption_eq_some.mp (settled_moveOldUsers hold)
    refine (runCommands_singleFault [] (migrateToV1.drop 1) .renameLegacyUsers _ db).trans ?_
    refine Result.bind_eq_ok.mpr ⟨db, rfl, Result.bind_eq_ok.mpr ⟨db, hunseen, ?_⟩⟩
    exact Result.bind_eq_ok.mpr ⟨db, hcreate, Result.bind_eq_ok.mpr ⟨db, hmove, hother⟩⟩
  · intro hsame
    rw [htables, record_tables hrecord, ht] at hsame
    have hcolumns' := moved_users now created
    rw [← hsame, husers] at hcolumns'
    have hnew : t.columns = (newUsers db).columns := Option.some.inj hcolumns'
    exact newUsers_columns db (hnew ▸ hcolumns)

/-- Where the move goes on with another table than it should. -/
theorem first_moved_other {x : FaultAt} {name : String}
    (hcs : runCommands now (fun _ => none) migrateToV1 db = .ok db')
    (hother : ∀ created, runCommands now (fun _ => none) (migrateToV1.take 2) db = .ok created →
      ∃ left, Command.moveOldUsers.exec now x created = .ok left ∧
        left.versions = created.versions ∧ left.tables name ≠ (moved now created).tables name) :
    ∃ other, runCommands now (singleFault 2 x) migrateToV1 db = .ok other ∧
      1 ≤ other.currentVersion ∧ other.tables name ≠ db'.tables name := by
  obtain ⟨created, hcreated, hrecord⟩ := first_states hcs
  obtain ⟨left, hmove, hversions, hne⟩ := hother created hcreated
  obtain ⟨other, hlast, hcurrent, htables⟩ :=
    record_elsewhere hrecord (hversions.trans moved_versions.symm)
  refine ⟨other, ?_, hcurrent, ?_⟩
  · refine (runCommands_singleFault (migrateToV1.take 2) [.must (.recordVersion 1)] .moveOldUsers x
      db).trans ?_
    exact Result.bind_eq_ok.mpr ⟨created, hcreated, Result.bind_eq_ok.mpr ⟨left, hmove, hlast⟩⟩
  · rw [htables, record_tables hrecord]
    exact hne

/-- The rows of the old table are all ignored, or none of them can be copied. -/
def CopiesNothing (users old : TableData) : Prop :=
  canCopy users old = true → ∀ row ∈ old.rows, ignored users.rows row = true

theorem copied_eq_self {users old : TableData} (husers : db.tables "users" = some users)
    (hold : db.tables "old_users" = some old) :
    (copied now db).tables "users" = db.tables "users" ↔ CopiesNothing users old := by
  rw [copied_eq husers hold]
  by_cases hcan : canCopy users old = true
  · rw [if_pos hcan, Schema.set_tables_self, husers, Option.some.injEq]
    unfold CopiesNothing copiedUsers
    constructor
    · intro h _
      exact copyRows_eq_self.mp (congrArg TableData.rows h)
    · intro h
      rw [copyRows_eq_self.mpr (h hcan)]
  · rw [if_neg hcan]
    exact ⟨fun _ h => absurd h hcan, fun _ => rfl⟩

/-- Where the first migration can be interrupted: by a death anywhere, and by a failure
unless an old table goes unseen, or the users in it are not copied, or it is not dropped. -/
structure FirstSpared (db : Schema) (x : Interruption) : Prop where
  seen : x.fault = .fails → x.command = 0 → x.statement ≤ 1 → isLegacy db = false
  dropped : x.fault = .fails → x.command = 2 → x.statement = 0 ∨ x.statement = 2 →
    oldUsers db = none
  copied : x.fault = .fails → x.command = 2 → x.statement = 1 →
    ∀ old, oldUsers db = some old → CopiesNothing (newUsers db) old

/-- Every failure that is not spared leaves another table. -/
theorem first_other {x : Interruption} (hspared : ¬FirstSpared db x)
    (hcs : runCommands now (fun _ => none) migrateToV1 db = .ok db') :
    ∃ name ∈ ["users", "old_users"], ∃ other,
      runCommands now (singleFault x.command (some (x.statement, x.fault))) migrateToV1 db =
        .ok other ∧ 1 ≤ other.currentVersion ∧ other.tables name ≠ db'.tables name := by
  obtain ⟨migration, command, statement, fault⟩ := x
  dsimp only
  by_cases hseen : fault = .fails → command = 0 → statement ≤ 1 → isLegacy db = false
  · by_cases hdropped : fault = .fails → command = 2 → statement = 0 ∨ statement = 2 →
        oldUsers db = none
    · have hcopied : ¬(fault = .fails → command = 2 → statement = 1 →
          ∀ old, oldUsers db = some old → CopiesNothing (newUsers db) old) :=
        fun h => hspared ⟨hseen, hdropped, h⟩
      push Not at hcopied
      obtain ⟨rfl, rfl, rfl, old, hold, hcopies⟩ := hcopied
      refine ⟨"users", by simp, first_moved_other hcs fun created hcreated => ?_⟩
      obtain ⟨husers, hcreatedOld, -⟩ := first_created hcreated
      have hsome : (created.tables "old_users").isSome = true := by rw [hcreatedOld, hold]; rfl
      refine ⟨created.set "old_users" none, ?_, rfl, ?_⟩
      · simp [Command.exec, look, attempt, FaultAt.hits, Result.bind, hsome, Statement.exec]
      · rw [moved, if_pos hsome, Schema.set_tables_of_ne (by decide),
          Schema.set_tables_of_ne (by decide)]
        exact fun h => hcopies ((copied_eq_self husers (hcreatedOld.trans hold)).mp h.symm)
    · push Not at hdropped
      obtain ⟨rfl, rfl, hstatement, hold⟩ := hdropped
      refine ⟨"old_users", by simp, first_moved_other hcs fun created hcreated => ?_⟩
      obtain ⟨-, hcreatedOld, -⟩ := first_created hcreated
      have hsome : (created.tables "old_users").isSome = true := by
        rw [hcreatedOld]
        exact Option.isSome_iff_ne_none.mpr hold
      rw [moved_old]
      rcases hstatement with rfl | rfl
      · refine ⟨created, rfl, rfl, ?_⟩
        rwa [hcreatedOld]
      · refine ⟨copied now created, ?_, copied_versions, ?_⟩
        · simp [Command.exec, look, attempt, FaultAt.hits, Result.bind, hsome, Migration.copied]
        · rwa [copied_old, hcreatedOld]
  · push Not at hseen
    obtain ⟨rfl, rfl, hstatement, hlegacy⟩ := hseen
    refine ⟨"users", by simp, first_unseen (by simpa using hlegacy) hstatement hcs⟩

theorem copied_of_users (h : (copied now db).tables "users" = db.tables "users") :
    copied now db = db := by
  rcases copied_cases now db with hsame | ⟨users, old, -, -, -, hset⟩
  · exact hsame
  · rw [hset, Schema.set_tables_self] at h
    rw [hset, h]
    exact Schema.ext rfl (Function.update_eq_self ..)

/-- What a fault that is spared can do in the move. -/
theorem moveOldUsers_faulted (now : String) {x : Interruption} (hspared : FirstSpared db x)
    (hx : x.command = 2)
    (husers : db'.tables "users" = some (newUsers db)) (hold : db'.tables "old_users" = oldUsers db) :
    Command.moveOldUsers.exec now (some (x.statement, x.fault)) db' =
        Command.moveOldUsers.exec now none db' ∨
      Command.moveOldUsers.exec now (some (x.statement, x.fault)) db' = .died db' ∨
      ((db'.tables "old_users").isSome = true ∧
        Command.moveOldUsers.exec now (some (x.statement, x.fault)) db' =
          .died (copied now db')) := by
  obtain ⟨migration, command, statement, fault⟩ := x
  dsimp only at hx ⊢
  rw [moveOldUsers_none]
  match statement, fault with
  | 0, .dies => exact .inr (.inl rfl)
  | 0, .fails =>
      have hnone : db'.tables "old_users" = none := hold.trans (hspared.dropped rfl hx (.inl rfl))
      refine .inl ?_
      rw [moved, hnone]
      rfl
  | 1, fault =>
      cases hpresent : db'.tables "old_users" with
      | none =>
          refine .inl ?_
          simp [Command.exec, look, FaultAt.hits, moved, hpresent]
      | some old =>
          cases fault with
          | dies =>
              refine .inr (.inl ?_)
              simp [Command.exec, look, attempt, FaultAt.hits, Result.bind, hpresent]
          | fails =>
              refine .inl ?_
              have hnothing := hspared.copied rfl hx rfl old (hold.symm.trans hpresent)
              have hcopied : Migration.copied now db' = db' :=
                copied_of_users ((copied_eq_self husers hpresent).mpr hnothing)
              simp [Command.exec, look, attempt, FaultAt.hits, Result.bind, hpresent, moved,
                hcopied, Statement.exec]
  | 2, fault =>
      cases hpresent : db'.tables "old_users" with
      | none =>
          refine .inl ?_
          simp [Command.exec, look, FaultAt.hits, moved, hpresent]
      | some old =>
          cases fault with
          | dies =>
              refine .inr (.inr ⟨rfl, ?_⟩)
              simp [Command.exec, look, attempt, FaultAt.hits, Result.bind, hpresent,
                Migration.copied]
          | fails =>
              have hnone := hold.trans (hspared.dropped rfl hx (.inr rfl))
              rw [hpresent] at hnone
              cases hnone
  | n + 3, fault =>
      left
      rw [← moveOldUsers_none]
      simp [Command.exec, look, FaultAt.hits]

/-- What is left between copying and dropping is copied and dropped again. -/
theorem first_again {created : Schema}
    (hcreated : runCommands now (fun _ => none) (migrateToV1.take 2) db = .ok created)
    (hold : (created.tables "old_users").isSome = true) :
    runCommands now (fun _ => none) migrateToV1 (copied now created) =
      runCommands now (fun _ => none) migrateToV1 db := by
  obtain ⟨husers, -, -⟩ := first_created hcreated
  have hagain : runCommands now (fun _ => none) (migrateToV1.take 2) (copied now created) =
      .ok (copied now created) := by
    have hlegacy : isLegacy (copied now created) = false := by
      rw [copied_legacy]
      exact isLegacy_of_users husers (newUsers_columns db)
    have hsome : ((copied now created).tables "users").isSome = true := by
      rw [copied_users_isSome, husers]
      rfl
    refine Result.toOption_eq_some.mp ?_
    rw [runCommands_toOption]
    refine runAll_of_settled (List.forall_mem_cons.mpr ⟨settled_renameLegacyUsers.mpr hlegacy, ?_⟩)
    exact List.forall_mem_cons.mpr ⟨settled_createTable.mpr hsome, by simp⟩
  have hmoved : moved now (copied now created) = moved now created := by
    unfold moved
    rw [copied_old, copied_again]
    simp only [hold, if_true]
  have hmove : ∀ db, runCommands now (fun _ => none) (migrateToV1.drop 2) db =
      runCommands now (fun _ => none) [.must (.recordVersion 1)] (moved now db) := by
    intro db
    show (Command.moveOldUsers.exec now none db).bind _ = _
    rw [moveOldUsers_none]
    rfl
  calc runCommands now (fun _ => none) (migrateToV1.take 2 ++ migrateToV1.drop 2)
        (copied now created)
      = runCommands now (fun _ => none) (migrateToV1.drop 2) (copied now created) := by
        rw [runCommands_append, hagain]
        rfl
    _ = runCommands now (fun _ => none) (migrateToV1.drop 2) created := by
        rw [hmove, hmove, hmoved]
    _ = runCommands now (fun _ => none) (migrateToV1.take 2 ++ migrateToV1.drop 2) db := by
        rw [runCommands_append, hcreated]
        rfl

theorem first_redoable {x : Interruption} (hspared : FirstSpared db x)
    (hcs : runCommands now (fun _ => none) migrateToV1 db = .ok db') :
    Redoable now migrateToV1 (singleFault x.command (some (x.statement, x.fault))) db := by
  rcases hcommand : x.command with _ | _ | _ | _ | n
  · exact redoable_first
      (renameLegacyUsers_faulted fun hfault => hspared.seen hfault hcommand) hcs
  · exact redoable_of_plain (migrateToV1.take 1) rfl (lasting_first.take 1) (by decide) hcs
  · obtain ⟨created, hcreated, -⟩ := first_states hcs
    obtain ⟨husers, hold, hversions⟩ := first_created hcreated
    have hcut : runCommands now (singleFault 2 (some (x.statement, x.fault))) migrateToV1 db =
        (Command.moveOldUsers.exec now (some (x.statement, x.fault)) created).bind
          (runCommands now (fun _ => none) (migrateToV1.drop 3)) := by
      refine (runCommands_singleFault (migrateToV1.take 2) (migrateToV1.drop 3) .moveOldUsers _
        db).trans ?_
      rw [hcreated]
      rfl
    have hsame : ∀ db₁, runCommands now (fun _ => none) (migrateToV1.take 2) db = .ok db₁ →
        db₁ = created := fun db₁ h => Result.ok.inj (h.symm.trans hcreated)
    rcases moveOldUsers_faulted now hspared hcommand husers hold with h | h | ⟨hsome, h⟩
    · exact redoable_of_same (migrateToV1.take 2) hcs fun db₁ hdb₁ => hsame db₁ hdb₁ ▸ h
    · exact redoable_of_left (lasting_first.take 2) (by decide) hcs fun db₁ hdb₁ =>
        .inl (hsame db₁ hdb₁ ▸ h)
    · rw [h] at hcut
      refine .inr ⟨fun db' hok => ?_, ?_, ?_⟩
      · rw [hcut] at hok
        cases hok
      · rw [hcut]
        exact first_again hcreated hsome
      · rw [hcut]
        exact copied_versions.trans hversions
  · exact redoable_of_plain (migrateToV1.take 3) rfl lasting_first (by decide) hcs
  · exact .inl (runCommands_beyond (by simp [migrateToV1]) _ db)

theorem firstSpared_opened {x : Interruption} : FirstSpared db.opened x ↔ FirstSpared db x :=
  ⟨fun h => ⟨h.seen, h.dropped, h.copied⟩, fun h => ⟨h.seen, h.dropped, h.copied⟩⟩

theorem users_untouched : ∀ name ∈ ["users", "old_users"], ∀ m ∈ migrations, 1 < m.1 →
    Untouched name m.2 := by decide

theorem first_resumes_iff {x : Interruption} {final : Schema} (hversion : db.currentVersion = 0)
    (hx : x.migration = 1) (hrun : runMigrations now none db = .ok final) :
    Resumes now db x ↔ FirstSpared db x := by
  have hstage := stage_of_mem (show (1, migrateToV1) ∈ migrations by simp [migrations])
  have hlt : db.currentVersion < 1 := by omega
  have hopened : ∀ db₁, runVersions now none db.currentVersion [] db.opened = .ok db₁ →
      db₁ = db.opened := fun db₁ h => (Result.ok.inj h).symm
  constructor
  · intro hresumes
    by_contra hspared
    obtain ⟨db₁, db₂, hbefore, hcs, -⟩ := hstage.of_ok hlt hrun
    rw [hopened db₁ hbefore] at hcs
    have hopenedSpared : ¬FirstSpared db.opened x := fun h => hspared (firstSpared_opened.mp h)
    obtain ⟨name, hname, hother⟩ := first_other hopenedSpared hcs
    refine hstage.not_resumes hlt hx (users_untouched name hname)
      (fun db₃ db₄ hbefore' hcs' => ?_) hresumes
    rw [hopened db₃ hbefore'] at hcs' ⊢
    rw [Result.ok.inj (hcs'.symm.trans hcs)]
    exact hother
  · intro hspared
    refine hstage.resumes hlt hx hrun fun db₁ db₂ hbefore hcs => ?_
    rw [hopened db₁ hbefore] at hcs ⊢
    exact first_redoable (firstSpared_opened.mpr hspared) hcs

end

end XYChat.Server.Migration
