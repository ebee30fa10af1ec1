import XYChat.Server.OldUsers

/-!
# The time of a run

When the migrations run shows in one place: the users that are moved over are made and
changed at that moment. With what these times say blotted out, a run is the same whenever
it happens, and so is the run after an interrupted one.
-/

namespace XYChat.Server.Migration

variable {now later : String}

/-! ## Blotting out -/

def timeColumns : List String := ["created_at", "updated_at"]

/-- A row with nothing in its times. -/
def Row.timeless (row : Row) : Row :=
  row.map fun entry => if entry.1 ∈ timeColumns then (entry.1, .text "") else entry

def TableData.timeless (t : TableData) : TableData := { t with rows := t.rows.map Row.timeless }

/-- The tables that users are in. -/
def userTables : List String := ["users", "old_users"]

/-- All but the times of the users. -/
def Schema.timeless (db : Schema) : Schema :=
  { db with tables := fun name =>
      if name ∈ userTables then (db.tables name).map TableData.timeless else db.tables name }

def Result.timeless : Result → Result
  | .ok db => .ok db.timeless
  | .stopped db => .stopped db.timeless
  | .died db => .died db.timeless

/-! ## Rows -/

section

variable {users rows : List Row} {old row : Row} {column : String}

theorem value_timeless (h : column ∉ timeColumns) : row.timeless.value column = row.value column := by
  unfold Row.value Row.timeless
  induction row with
  | nil => rfl
  | cons entry row ih =>
      obtain ⟨name, value⟩ := entry
      rw [List.map_cons, List.lookup_cons]
      by_cases htime : name ∈ timeColumns
      · have hne : (column == name) = false := beq_false_of_ne fun heq => h (heq ▸ htime)
        rw [if_pos htime, List.lookup_cons, hne]
        exact ih
      · rw [if_neg htime, List.lookup_cons]
        cases column == name with
        | true => rfl
        | false => exact ih

theorem maxId_timeless : maxId (rows.map Row.timeless) = maxId rows := by
  unfold maxId
  rw [List.foldr_map]
  simp only [value_timeless (show "id" ∉ timeColumns by decide)]

theorem ignored_timeless : ignored (users.map Row.timeless) old.timeless = ignored users old := by
  unfold ignored
  rw [List.any_map]
  simp only [Function.comp_def, value_timeless (show "username" ∉ timeColumns by decide),
    value_timeless (show "password" ∉ timeColumns by decide)]

/-- The copy of a row differs in its times. -/
theorem migratedUser_timeless : (migratedUser now users old).timeless =
    migratedUser "" (users.map Row.timeless) old.timeless := by
  unfold migratedUser
  rw [maxId_timeless, value_timeless (show "username" ∉ timeColumns by decide),
    value_timeless (show "password" ∉ timeColumns by decide)]
  rfl

theorem insertOrIgnore_timeless : (insertOrIgnore now users old).map Row.timeless =
    insertOrIgnore "" (users.map Row.timeless) old.timeless := by
  unfold insertOrIgnore
  rw [ignored_timeless]
  split
  · rfl
  · rw [List.map_append, List.map_singleton, migratedUser_timeless]

theorem copyRows_timeless : (rows.foldl (insertOrIgnore now) users).map Row.timeless =
    (rows.map Row.timeless).foldl (insertOrIgnore "") (users.map Row.timeless) := by
  induction rows generalizing users with
  | nil => rfl
  | cons row rows ih =>
      rw [List.foldl_cons, ih, insertOrIgnore_timeless]
      rfl

end

/-! ## Statements -/

section

variable {db : Schema} {name : String} {t : Option TableData}

theorem tables_timeless_of_mem (h : name ∈ userTables) :
    db.timeless.tables name = (db.tables name).map TableData.timeless := if_pos h

theorem tables_timeless_of_notMem (h : name ∉ userTables) :
    db.timeless.tables name = db.tables name := if_neg h

theorem columns_timeless (db : Schema) (name : String) :
    (db.timeless.tables name).map (·.columns) = (db.tables name).map (·.columns) := by
  by_cases h : name ∈ userTables
  · rw [tables_timeless_of_mem h, Option.map_map]
    rfl
  · rw [tables_timeless_of_notMem h]

theorem isSome_timeless (db : Schema) (name : String) :
    (db.timeless.tables name).isSome = (db.tables name).isSome := by
  have h := congrArg Option.isSome (columns_timeless db name)
  rwa [Option.isSome_map, Option.isSome_map] at h

theorem hasColumn_timeless (db : Schema) (table column : String) :
    db.timeless.hasColumn table column = db.hasColumn table column := by
  have hcolumns : ∀ db : Schema, db.hasColumn table column =
      ((db.tables table).map (·.columns)).any fun columns => columns.any (·.name == column) := by
    intro db
    unfold Schema.hasColumn
    cases db.tables table <;> rfl
  rw [hcolumns, hcolumns, columns_timeless]

theorem isLegacy_timeless (db : Schema) : isLegacy db.timeless = isLegacy db := by
  rw [isLegacy_eq, isLegacy_eq, columns_timeless]

theorem set_timeless_of_mem (h : name ∈ userTables) :
    (db.set name t).timeless = db.timeless.set name (t.map TableData.timeless) := by
  refine Schema.ext rfl (funext fun other => ?_)
  show (if other ∈ userTables then (Function.update db.tables name t other).map _ else
    Function.update db.tables name t other) =
      Function.update db.timeless.tables name (t.map TableData.timeless) other
  by_cases hname : other = name
  · subst hname
    rw [Function.update_self, Function.update_self, if_pos h]
  · rw [Function.update_of_ne hname, Function.update_of_ne hname]
    rfl

theorem set_timeless_of_notMem (h : name ∉ userTables) :
    (db.set name t).timeless = db.timeless.set name t := by
  refine Schema.ext rfl (funext fun other => ?_)
  show (if other ∈ userTables then (Function.update db.tables name t other).map _ else
    Function.update db.tables name t other) = Function.update db.timeless.tables name t other
  by_cases hname : other = name
  · subst hname
    rw [Function.update_self, Function.update_self, if_neg h]
  · rw [Function.update_of_ne hname, Function.update_of_ne hname]
    rfl

/-- A table made empty, or dropped, has no times. -/
theorem set_timeless_of_map (h : t.map TableData.timeless = t) :
    (db.set name t).timeless = db.timeless.set name t := by
  by_cases hname : name ∈ userTables
  · rw [set_timeless_of_mem hname, h]
  · exact set_timeless_of_notMem hname

end

/-- No statement puts a time anywhere but the copy of the users. -/
def Statement.timely : Statement → Bool
  | .addColumn table _ => decide (table ∉ userTables)
  | .renameTable table name => decide (table ∈ userTables ∧ name ∈ userTables)
  | _ => true

theorem Statement.exec_timeless {s : Statement} (hs : s.timely = true) (db : Schema) :
    (s.exec now db).map Schema.timeless = s.exec "" db.timeless := by
  cases s with
  | createVersions => rfl
  | createTable name columns =>
      simp only [Statement.exec, isSome_timeless]
      split
      · rfl
      · exact congrArg some (set_timeless_of_map rfl)
  | createIndex table columns =>
      have hcolumns : columns.all (db.timeless.hasColumn table) =
          columns.all (db.hasColumn table) :=
        congrArg columns.all (funext (hasColumn_timeless db table))
      simp only [Statement.exec, hcolumns]
      split <;> rfl
  | addColumn table column =>
      have hother : table ∉ userTables := of_decide_eq_true hs
      simp only [Statement.exec, tables_timeless_of_notMem hother]
      cases db.tables table with
      | none => rfl
      | some t =>
          dsimp only
          split
          · rfl
          · exact congrArg some (set_timeless_of_notMem hother)
  | renameTable table name =>
      -- both names are among the tables whose times are left out
      obtain ⟨htable, hname⟩ : table ∈ userTables ∧ name ∈ userTables := of_decide_eq_true hs
      simp only [Statement.exec, isSome_timeless, tables_timeless_of_mem htable]
      cases db.tables table with
      | none => rfl
      | some t =>
          dsimp only [Option.map_some]
          split
          · rfl
          · refine congrArg some ((set_timeless_of_mem hname).trans ?_)
            rw [set_timeless_of_map rfl]
            rfl
  | dropTable name =>
      simp only [Statement.exec, isSome_timeless]
      split
      · exact congrArg some (set_timeless_of_map rfl)
      · rfl
  | copyOldUsers =>
      -- the statement that gives the rows it copies the time of the run
      have husers : "users" ∈ userTables := by decide
      have hold : "old_users" ∈ userTables := by decide
      simp only [Statement.exec, tables_timeless_of_mem husers, tables_timeless_of_mem hold]
      cases db.tables "users" with
      | none => rfl
      | some users =>
          cases db.tables "old_users" with
          | none => rfl
          | some old =>
              show Option.map _ (if canCopy users old = true then _ else _) =
                if canCopy users old = true then _ else _
              split
              · refine congrArg some ((set_timeless_of_mem husers).trans ?_)
                refine congrArg (fun t => db.timeless.set "users" (some t)) ?_
                exact congrArg (TableData.mk users.columns) copyRows_timeless
              · rfl
  | insertSyncMeta =>
      have hother : "sync_meta" ∉ userTables := by decide
      simp only [Statement.exec, tables_timeless_of_notMem hother]
      cases db.tables "sync_meta" with
      | none => rfl
      | some t =>
          dsimp only
          split
          · rfl
          · exact congrArg some (set_timeless_of_notMem hother)
  | recordVersion version =>
      have hversions : db.timeless.versions = db.versions := rfl
      simp only [Statement.exec, hversions]
      cases db.versions with
      | none => rfl
      | some versions =>
          dsimp only
          split <;> rfl

/-! ## Runs -/

section

variable {db : Schema}

theorem must_timeless {s : Statement} (hs : s.timely = true) (x : Option Fault) (db : Schema) :
    (must now x s db).timeless = must "" x s db.timeless := by
  cases x with
  | some fault => cases fault <;> rfl
  | none =>
      simp only [must, ← @Statement.exec_timeless now s hs]
      cases s.exec now db <;> rfl

theorem attempt_timeless {s : Statement} (hs : s.timely = true) (x : Option Fault) (db : Schema) :
    (attempt now x s db).timeless = attempt "" x s db.timeless := by
  cases x with
  | some fault => cases fault <;> rfl
  | none =>
      simp only [attempt, ← @Statement.exec_timeless now s hs]
      cases s.exec now db <;> rfl

theorem look_timeless {next next' : Bool → Result} (x : Option Fault) (found : Bool) (db : Schema)
    (h : ∀ b, (next b).timeless = next' b) :
    (look x found db next).timeless = look x found db.timeless next' := by
  cases x with
  | none => exact h found
  | some fault =>
      cases fault with
      | dies => rfl
      | fails => exact h false

theorem bind_timeless {r : Result} {next next' : Schema → Result}
    (h : ∀ db, (next db).timeless = next' db.timeless) :
    (r.bind next).timeless = r.timeless.bind next' := by
  cases r with
  | ok db => exact h db
  | stopped db => rfl
  | died db => rfl

theorem Command.exec_timeless {c : Command} (hc : ∀ s ∈ c.statements, s.timely = true)
    (x : FaultAt) (db : Schema) : (c.exec now x db).timeless = c.exec "" x db.timeless := by
  cases c with
  | must s => exact must_timeless (hc s List.mem_cons_self) _ db
  | attempt s => exact attempt_timeless (hc s List.mem_cons_self) _ db
  | unlessColumn table column =>
      simp only [Command.exec, hasColumn_timeless]
      refine look_timeless _ _ db fun found => ?_
      cases found with
      | true => rfl
      | false => exact must_timeless (hc _ List.mem_cons_self) _ db
  | renameLegacyUsers =>
      simp only [Command.exec, isSome_timeless, isLegacy_timeless]
      refine look_timeless _ _ db fun found => ?_
      cases found with
      | false => rfl
      | true =>
          rw [if_pos rfl, if_pos rfl]
          refine look_timeless _ _ db fun legacy => ?_
          cases legacy with
          | false => rfl
          | true => exact must_timeless (hc _ List.mem_cons_self) _ db
  | moveOldUsers =>
      simp only [Command.exec, isSome_timeless]
      refine look_timeless _ _ db fun found => ?_
      cases found with
      | false => rfl
      | true =>
          refine (bind_timeless fun db => ?_).trans (congrArg (Result.bind · _) ?_)
          · exact attempt_timeless (hc _ (List.mem_cons_of_mem _ List.mem_cons_self)) _ db
          · exact attempt_timeless (hc _ List.mem_cons_self) _ db

theorem runCommands_timeless {cs : List Command}
    (hcs : ∀ c ∈ cs, ∀ s ∈ c.statements, s.timely = true) (faults : Nat → FaultAt) (db : Schema) :
    (runCommands now faults cs db).timeless = runCommands "" faults cs db.timeless := by
  induction cs generalizing faults db with
  | nil => rfl
  | cons c cs ih =>
      obtain ⟨hc, hrest⟩ := List.forall_mem_cons.mp hcs
      rw [runCommands_cons, runCommands_cons, ← @Command.exec_timeless now c hc]
      exact bind_timeless fun db => ih hrest _ db

theorem runVersions_timeless {ms : List (Nat × List Command)}
    (hms : ∀ m ∈ ms, ∀ c ∈ m.2, ∀ s ∈ c.statements, s.timely = true) (x : Option Interruption)
    (version : Nat) (db : Schema) :
    (runVersions now x version ms db).timeless = runVersions "" x version ms db.timeless := by
  induction ms generalizing db with
  | nil => rfl
  | cons m ms ih =>
      obtain ⟨hm, hrest⟩ := List.forall_mem_cons.mp hms
      rw [runVersions_cons, runVersions_cons]
      split
      · rw [← @runCommands_timeless now m.2 hm]
        exact bind_timeless fun db => ih hrest db
      · exact ih hrest db

theorem migrations_timely :
    ∀ m ∈ migrations, ∀ c ∈ m.2, ∀ s ∈ c.statements, s.timely = true := by decide

/-- **The run** is the same at any time, but for the times of the users. -/
theorem runMigrations_timeless (x : Option Interruption) (db : Schema) :
    (runMigrations now x db).timeless = runMigrations "" x db.timeless := by
  unfold runMigrations
  rw [← @must_timeless now _ rfl]
  refine bind_timeless fun db => ?_
  split
  · rfl
  · exact runVersions_timeless migrations_timely x 0 db
  · exact runVersions_timeless migrations_timely x db.currentVersion db

theorem left_timeless (r : Result) : r.timeless.left = r.left.timeless := by
  cases r <;> rfl

theorem timeless_eq_ok {r : Result} {final : Schema} :
    r.timeless = .ok final ↔ ∃ db, r = .ok db ∧ db.timeless = final := by
  cases r with
  | ok db =>
      refine ⟨fun h => ⟨db, rfl, Result.ok.inj h⟩, ?_⟩
      rintro ⟨other, hother, rfl⟩
      rw [Result.ok.inj hother]
      rfl
  | stopped db =>
      constructor
      · intro h
        cases h
      · rintro ⟨other, hother, -⟩
        cases hother
  | died db =>
      constructor
      · intro h
        cases h
      · rintro ⟨other, hother, -⟩
        cases hother

/-! ## What the first migration finds -/

theorem oldUsers_timeless (db : Schema) :
    oldUsers db.timeless = (oldUsers db).map TableData.timeless := by
  unfold oldUsers
  rw [isLegacy_timeless]
  split <;> exact tables_timeless_of_mem (by decide)

theorem newUsers_timeless (db : Schema) : newUsers db.timeless = (newUsers db).timeless := by
  unfold newUsers
  rw [isLegacy_timeless, tables_timeless_of_mem (by decide)]
  split
  · rfl
  · cases db.tables "users" <;> rfl

theorem copiesNothing_timeless {users old : TableData} :
    CopiesNothing users.timeless old.timeless ↔ CopiesNothing users old := by
  refine imp_congr_right fun _ => ?_
  show (∀ row ∈ old.rows.map Row.timeless, ignored (users.rows.map Row.timeless) row = true) ↔ _
  simp only [List.forall_mem_map, ignored_timeless]

theorem firstSpared_timeless {x : Interruption} : FirstSpared db.timeless x ↔ FirstSpared db x := by
  have hcopied : (∀ old, oldUsers db.timeless = some old → CopiesNothing (newUsers db.timeless) old) ↔
      ∀ old, oldUsers db = some old → CopiesNothing (newUsers db) old := by
    rw [oldUsers_timeless, newUsers_timeless]
    cases oldUsers db with
    | none => simp
    | some old =>
        simp only [Option.map_some, Option.some.injEq, forall_eq']
        exact copiesNothing_timeless
  have hdropped : oldUsers db.timeless = none ↔ oldUsers db = none := by
    rw [oldUsers_timeless, Option.map_eq_none_iff]
  constructor
  · intro h
    exact
      { seen := fun hfault hcommand hstatement =>
          isLegacy_timeless db ▸ h.seen hfault hcommand hstatement
        dropped := fun hfault hcommand hstatement =>
          hdropped.mp (h.dropped hfault hcommand hstatement)
        copied := fun hfault hcommand hstatement =>
          hcopied.mp (h.copied hfault hcommand hstatement) }
  · intro h
    exact
      { seen := fun hfault hcommand hstatement =>
          (isLegacy_timeless db).trans (h.seen hfault hcommand hstatement)
        dropped := fun hfault hcommand hstatement =>
          hdropped.mpr (h.dropped hfault hcommand hstatement)
        copied := fun hfault hcommand hstatement =>
          hcopied.mpr (h.copied hfault hcommand hstatement) }

/-! ## Another run, later -/

/-- Another run, at another time, ends as a run without the interruption, but for the times
of the users. -/
def ResumesLater (now later : String) (db : Schema) (x : Interruption) : Prop :=
  ∃ final final', runMigrations now none db = .ok final ∧
    runMigrations later none (runMigrations now (some x) db).left = .ok final' ∧
    final'.timeless = final.timeless

theorem resumesLater_iff {x : Interruption} :
    ResumesLater now later db x ↔ Resumes "" db.timeless x := by
  have hfinal := @runMigrations_timeless now none db
  have hleft : (runMigrations "" (some x) db.timeless).left =
      (runMigrations now (some x) db).left.timeless := by
    rw [← @runMigrations_timeless now, left_timeless]
  have hagain := @runMigrations_timeless later none (runMigrations now (some x) db).left
  unfold Resumes
  rw [hleft, ← hfinal, ← hagain]
  simp only [timeless_eq_ok]
  constructor
  · rintro ⟨final, final', hrun, hrun', hsame⟩
    exact ⟨final.timeless, ⟨final, hrun, rfl⟩, final', hrun', hsame⟩
  · rintro ⟨_, ⟨final, hrun, rfl⟩, final', hrun', hsame⟩
    exact ⟨final, final', hrun, hrun', hsame⟩

end

end XYChat.Server.Migration
