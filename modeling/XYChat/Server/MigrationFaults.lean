import XYChat.Server.Migrations

/-!
# Interrupted migrations

A run of the migrations that dies between two statements, or in which a statement fails,
is followed by another run. Most commands look first whether they are needed, so what was
done is passed over. The exceptions are the columns of the fourth migration, which are
added unasked, and the statements whose failure nobody looks at.
-/

namespace XYChat.Server.Migration

open XYChat.Lib XYChat.Lib.Resume

variable {now : String}

/-! ## Runs without a fault -/

/-- What a command does where nothing is at fault. -/
def Command.done (now : String) (c : Command) (db : Schema) : Option Schema :=
  (c.exec now none db).toOption

@[simp] theorem Result.toOption_bind (r : Result) (next : Schema → Result) :
    (r.bind next).toOption = r.toOption.bind fun db => (next db).toOption := by
  cases r <;> rfl

theorem Result.toOption_eq_some {r : Result} {db : Schema} : r.toOption = some db ↔ r = .ok db := by
  cases r <;> simp [Result.toOption]

theorem runCommands_toOption (cs : List Command) (db : Schema) :
    (runCommands now (fun _ => none) cs db).toOption = runAll (Command.done now) cs db := by
  induction cs generalizing db with
  | nil => rfl
  | cons c cs ih =>
      show ((c.exec now none db).bind _).toOption = _
      rw [Result.toOption_bind, runAll_cons]
      exact congrArg (Option.bind (Command.done now c db)) (funext ih)

theorem runCommands_append (before after : List Command) (db : Schema) :
    runCommands now (fun _ => none) (before ++ after) db =
      (runCommands now (fun _ => none) before db).bind
        (runCommands now (fun _ => none) after) := by
  induction before generalizing db with
  | nil => rfl
  | cons c before ih =>
      show (c.exec now none db).bind _ = ((c.exec now none db).bind _).bind _
      cases c.exec now none db with
      | ok db' => exact ih db'
      | stopped db' => rfl
      | died db' => rfl

/-! ## One fault -/

/-- The faults of an interruption in the migration, at its command. -/
def singleFault (command : Nat) (x : FaultAt) : Nat → FaultAt :=
  fun i => if i = command then x else none

@[simp] theorem singleFault_zero (x : FaultAt) : singleFault 0 x 0 = x := rfl

@[simp] theorem singleFault_succ_zero (n : Nat) (x : FaultAt) : singleFault (n + 1) x 0 = none := by
  simp [singleFault]

theorem singleFault_later (x : FaultAt) :
    (fun i => singleFault 0 x (i + 1)) = fun _ => none := by
  funext i
  simp [singleFault]

theorem singleFault_succ_later (n : Nat) (x : FaultAt) :
    (fun i => singleFault (n + 1) x (i + 1)) = singleFault n x := by
  funext i
  simp [singleFault]

theorem runCommands_cons (faults : Nat → FaultAt) (c : Command) (cs : List Command) (db : Schema) :
    runCommands now faults (c :: cs) db =
      (c.exec now (faults 0) db).bind (runCommands now (fun i => faults (i + 1)) cs) := rfl

theorem runCommands_singleFault (before after : List Command) (c : Command) (x : FaultAt)
    (db : Schema) :
    runCommands now (singleFault before.length x) (before ++ c :: after) db =
      (runCommands now (fun _ => none) before db).bind fun db =>
        (c.exec now x db).bind (runCommands now (fun _ => none) after) := by
  induction before generalizing db with
  | nil =>
      rw [List.nil_append, List.length_nil, runCommands_cons, singleFault_zero,
        singleFault_later]
      rfl
  | cons d before ih =>
      rw [List.cons_append, List.length_cons, runCommands_cons, runCommands_cons,
        singleFault_succ_zero, singleFault_succ_later]
      cases d.exec now none db with
      | ok db' => exact ih db'
      | stopped db' => rfl
      | died db' => rfl

/-- A fault beyond the last command is none. -/
theorem runCommands_beyond {command : Nat} {cs : List Command} (h : cs.length ≤ command)
    (x : FaultAt) (db : Schema) :
    runCommands now (singleFault command x) cs db = runCommands now (fun _ => none) cs db := by
  induction cs generalizing db command with
  | nil => rfl
  | cons c cs ih =>
      cases command with
      | zero => simp at h
      | succ n =>
          rw [runCommands_cons, runCommands_cons, singleFault_succ_zero, singleFault_succ_later]
          cases c.exec now none db with
          | ok db' => exact ih (by simpa using h) db'
          | stopped db' => rfl
          | died db' => rfl

/-! ## What a command can change -/

/-- The statements a command may execute that change something. -/
def Command.statements : Command → List Statement
  | .must s => [s]
  | .attempt s => [s]
  | .unlessColumn table column => [.addColumn table column]
  | .renameLegacyUsers => [.renameTable "users" "old_users"]
  | .moveOldUsers => [.copyOldUsers, .dropTable "old_users"]

section

variable {R : Schema → Schema → Prop}

theorem must_left {s : Statement} {x : Option Fault} {db : Schema} (hrefl : ∀ db, R db db)
    (hs : ∀ db db', s.exec now db = some db' → R db db') : R db (must now x s db).left := by
  unfold must
  cases x with
  | none =>
      cases hexec : s.exec now db with
      | none => exact hrefl db
      | some db' => exact hs db db' hexec
  | some fault => cases fault <;> exact hrefl db

theorem attempt_left {s : Statement} {x : Option Fault} {db : Schema} (hrefl : ∀ db, R db db)
    (hs : ∀ db db', s.exec now db = some db' → R db db') : R db (attempt now x s db).left := by
  unfold attempt
  cases x with
  | none =>
      cases hexec : s.exec now db with
      | none => exact hrefl db
      | some db' => exact hs db db' hexec
  | some fault => cases fault <;> exact hrefl db

theorem look_left {found : Bool} {x : Option Fault} {db : Schema} {next : Bool → Result}
    (hrefl : ∀ db, R db db) (hnext : ∀ b, R db (next b).left) : R db (look x found db next).left := by
  unfold look
  cases x with
  | none => exact hnext found
  | some fault =>
      cases fault with
      | dies => exact hrefl db
      | fails => exact hnext false

theorem bind_left {r : Result} {db : Schema} {next : Schema → Result}
    (htrans : ∀ {db db' db''}, R db db' → R db' db'' → R db db'') (hr : R db r.left)
    (hnext : ∀ db, R db (next db).left) : R db (r.bind next).left := by
  cases r with
  | ok db' => exact htrans hr (hnext db')
  | stopped db' => exact hr
  | died db' => exact hr

/-- Whatever is at fault, a command leaves what its statements lead to. -/
theorem Command.exec_left {c : Command} {x : FaultAt} {db : Schema} (hrefl : ∀ db, R db db)
    (htrans : ∀ {db db' db''}, R db db' → R db' db'' → R db db'')
    (h : ∀ s ∈ c.statements, ∀ db db', s.exec now db = some db' → R db db') :
    R db (c.exec now x db).left := by
  cases c with
  | must s => exact must_left hrefl (h s List.mem_cons_self)
  | attempt s => exact attempt_left hrefl (h s List.mem_cons_self)
  | unlessColumn table column =>
      simp only [Command.exec]
      refine look_left hrefl fun found => ?_
      cases found with
      | true => exact hrefl db
      | false => exact must_left hrefl (h _ List.mem_cons_self)
  | renameLegacyUsers =>
      simp only [Command.exec]
      refine look_left hrefl fun found => ?_
      cases found with
      | false => exact hrefl db
      | true =>
          rw [if_pos rfl]
          refine look_left hrefl fun legacy => ?_
          cases legacy with
          | false => exact hrefl db
          | true => exact must_left hrefl (h _ List.mem_cons_self)
  | moveOldUsers =>
      simp only [Command.exec]
      refine look_left hrefl fun found => ?_
      cases found with
      | false => exact hrefl db
      | true =>
          rw [if_pos rfl]
          refine bind_left htrans (attempt_left hrefl (h _ List.mem_cons_self)) fun db => ?_
          exact attempt_left hrefl (h _ (List.mem_cons_of_mem _ List.mem_cons_self))

theorem runCommands_left {faults : Nat → FaultAt} {cs : List Command} {db : Schema}
    (hrefl : ∀ db, R db db) (htrans : ∀ {db db' db''}, R db db' → R db' db'' → R db db'')
    (h : ∀ c ∈ cs, ∀ s ∈ c.statements, ∀ db db', s.exec now db = some db' → R db db') :
    R db (runCommands now faults cs db).left := by
  induction cs generalizing faults db with
  | nil => exact hrefl db
  | cons c cs ih =>
      obtain ⟨hc, hcs⟩ := List.forall_mem_cons.mp h
      exact bind_left htrans (Command.exec_left hrefl htrans hc) fun db => ih hcs

theorem runVersions_left {x : Option Interruption} {version : Nat} {ms : List (Nat × List Command)}
    {db : Schema} (hrefl : ∀ db, R db db)
    (htrans : ∀ {db db' db''}, R db db' → R db' db'' → R db db'')
    (h : ∀ m ∈ ms, version < m.1 → ∀ c ∈ m.2, ∀ s ∈ c.statements, ∀ db db',
      s.exec now db = some db' → R db db') :
    R db (runVersions now x version ms db).left := by
  induction ms generalizing db with
  | nil => exact hrefl db
  | cons m ms ih =>
      obtain ⟨k, cs⟩ := m
      obtain ⟨hm, hms⟩ := List.forall_mem_cons.mp h
      show R db (if version < k then _ else runVersions now x version ms db).left
      by_cases hk : version < k
      · rw [if_pos hk]
        exact bind_left htrans (runCommands_left hrefl htrans (hm hk)) fun db => ih hms
      · rw [if_neg hk]
        exact ih hms

end

/-! ### Tables and versions -/

section

variable {db db' : Schema} {s : Statement}

@[simp] theorem Schema.set_versions (db : Schema) (name : String) (t : Option TableData) :
    (db.set name t).versions = db.versions := rfl

@[simp] theorem Schema.set_tables_self (db : Schema) (name : String) (t : Option TableData) :
    (db.set name t).tables name = t := Function.update_self ..

theorem Schema.set_tables_of_ne {name other : String} (h : other ≠ name) (db : Schema)
    (t : Option TableData) : (db.set name t).tables other = db.tables other :=
  Function.update_of_ne h ..

/-- The tables a statement writes. -/
def Statement.writes : Statement → List String
  | .createTable name _ => [name]
  | .addColumn table _ => [table]
  | .renameTable table name => [table, name]
  | .dropTable name => [name]
  | .copyOldUsers => ["users"]
  | .insertSyncMeta => ["sync_meta"]
  | _ => []

theorem Statement.exec_tables {name : String} (h : s.exec now db = some db') (hn : name ∉ s.writes) :
    db'.tables name = db.tables name := by
  have hset : ∀ {db : Schema} {other : String} {t : Option TableData}, name ≠ other →
      (db.set other t).tables name = db.tables name := fun hne => Schema.set_tables_of_ne hne ..
  cases s with
  | createVersions =>
      rw [← Option.some.inj h]
  | createTable other columns =>
      have hne : name ≠ other := by simpa [Statement.writes] using hn
      simp only [Statement.exec] at h
      split at h
      · rw [← Option.some.inj h]
      · rw [← Option.some.inj h, hset hne]
  | createIndex table columns =>
      simp only [Statement.exec, Option.ite_none_right_eq_some] at h
      rw [← Option.some.inj h.2]
  | addColumn table column =>
      have hne : name ≠ table := by simpa [Statement.writes] using hn
      simp only [Statement.exec] at h
      split at h
      · cases h
      · split at h
        · cases h
        · rw [← Option.some.inj h, hset hne]
  | renameTable table other =>
      have hne : name ≠ table ∧ name ≠ other := by simpa [Statement.writes] using hn
      simp only [Statement.exec] at h
      split at h
      · cases h
      · split at h
        · cases h
        · rw [← Option.some.inj h, hset hne.2, hset hne.1]
  | dropTable other =>
      have hne : name ≠ other := by simpa [Statement.writes] using hn
      simp only [Statement.exec, Option.ite_none_right_eq_some] at h
      rw [← Option.some.inj h.2, hset hne]
  | copyOldUsers =>
      have hne : name ≠ "users" := by simpa [Statement.writes] using hn
      simp only [Statement.exec] at h
      split at h
      · rw [Option.ite_none_right_eq_some] at h
        rw [← Option.some.inj h.2, hset hne]
      · cases h
  | insertSyncMeta =>
      have hne : name ≠ "sync_meta" := by simpa [Statement.writes] using hn
      simp only [Statement.exec] at h
      split at h
      · cases h
      · split at h
        · rw [← Option.some.inj h]
        · rw [← Option.some.inj h, hset hne]
  | recordVersion version =>
      simp only [Statement.exec] at h
      split at h
      · cases h
      · split at h
        · cases h
        · rw [← Option.some.inj h]

/-- The statement that adds to `schema_version`. -/
def Statement.records : Statement → Bool
  | .createVersions => true
  | .recordVersion _ => true
  | _ => false

theorem Statement.exec_versions (h : s.exec now db = some db') (hs : s.records = false) :
    db'.versions = db.versions := by
  cases s with
  | createVersions => cases hs
  | recordVersion version => cases hs
  | createTable other columns =>
      simp only [Statement.exec] at h
      split at h <;> rw [← Option.some.inj h]
      rfl
  | createIndex table columns =>
      simp only [Statement.exec, Option.ite_none_right_eq_some] at h
      rw [← Option.some.inj h.2]
  | addColumn table column =>
      simp only [Statement.exec] at h
      split at h
      · cases h
      · split at h
        · cases h
        · rw [← Option.some.inj h, Schema.set_versions]
  | renameTable table other =>
      simp only [Statement.exec] at h
      split at h
      · cases h
      · split at h
        · cases h
        · rw [← Option.some.inj h, Schema.set_versions, Schema.set_versions]
  | dropTable other =>
      simp only [Statement.exec, Option.ite_none_right_eq_some] at h
      rw [← Option.some.inj h.2, Schema.set_versions]
  | copyOldUsers =>
      simp only [Statement.exec] at h
      split at h
      · rw [Option.ite_none_right_eq_some] at h
        rw [← Option.some.inj h.2, Schema.set_versions]
      · cases h
  | insertSyncMeta =>
      simp only [Statement.exec] at h
      split at h
      · cases h
      · split at h
        · rw [← Option.some.inj h]
        · rw [← Option.some.inj h, Schema.set_versions]

theorem foldr_max_append (versions : List Nat) (version : Nat) :
    (versions ++ [version]).foldr max 0 = max (versions.foldr max 0) version := by
  induction versions with
  | nil => simp
  | cons n versions ih =>
      rw [List.cons_append, List.foldr_cons, List.foldr_cons, ih, Nat.max_assoc]

theorem Statement.exec_currentVersion (h : s.exec now db = some db') :
    db.currentVersion ≤ db'.currentVersion := by
  by_cases hs : s.records = false
  · have hversions : db'.versions = db.versions := exec_versions h hs
    exact Nat.le_of_eq (congrArg (fun versions => (Option.getD versions []).foldr max 0)
      hversions.symm)
  · cases s with
    | createVersions =>
        rw [← Option.some.inj h]
        exact Nat.le_refl _
    | recordVersion version =>
        simp only [Statement.exec] at h
        split at h
        · cases h
        · rename_i versions hversions
          split at h
          · cases h
          · rw [← Option.some.inj h]
            unfold Schema.currentVersion
            rw [hversions]
            show versions.foldr max 0 ≤ (versions ++ [version]).foldr max 0
            rw [foldr_max_append]
            exact Nat.le_max_left ..
    | _ => exact absurd rfl hs

end

/-! ## What stays done -/

/-- Tables and columns that are there stay there. -/
structure Schema.Within (db db' : Schema) : Prop where
  table : ∀ name, (db.tables name).isSome = true → (db'.tables name).isSome = true
  column : ∀ table name, db.hasColumn table name = true → db'.hasColumn table name = true

theorem Schema.Within.refl (db : Schema) : db.Within db := ⟨fun _ h => h, fun _ _ h => h⟩

theorem Schema.Within.trans {db db' db'' : Schema} (h : db.Within db') (h' : db'.Within db'') :
    db.Within db'' :=
  ⟨fun name hname => h'.table name (h.table name hname),
    fun table name hname => h'.column table name (h.column table name hname)⟩

/-- Writing a table with all its columns keeps what is there. -/
theorem Schema.within_set {db : Schema} {name : String} {t : TableData}
    (h : ∀ old, db.tables name = some old → ∀ c, old.has c = true → t.has c = true) :
    db.Within (db.set name (some t)) where
  table other hother := by
    by_cases hne : other = name
    · rw [hne, Schema.set_tables_self]
      rfl
    · rwa [Schema.set_tables_of_ne hne]
  column other c hc := by
    unfold Schema.hasColumn at hc ⊢
    by_cases hne : other = name
    · rw [hne] at hc ⊢
      rw [Schema.set_tables_self]
      cases hold : db.tables name with
      | none =>
          rw [hold] at hc
          cases hc
      | some old =>
          rw [hold] at hc
          exact h old hold c hc
    · rwa [Schema.set_tables_of_ne hne]

/-- Only renaming and dropping takes a table away. -/
def Statement.grows : Statement → Bool
  | .renameTable _ _ => false
  | .dropTable _ => false
  | _ => true

theorem TableData.has_addedColumn (t : TableData) (column : Column) (c : String) :
    (addedColumn column t).has c = (t.has c || column.name == c) := by
  simp [addedColumn, TableData.has]

theorem Statement.exec_within {s : Statement} {db db' : Schema} (h : s.exec now db = some db')
    (hs : s.grows = true) : db.Within db' := by
  cases s with
  | renameTable table name => cases hs
  | dropTable name => cases hs
  | createVersions =>
      rw [← Option.some.inj h]
      exact ⟨fun _ h => h, fun _ _ h => h⟩
  | recordVersion version =>
      simp only [Statement.exec] at h
      split at h
      · cases h
      · split at h
        · cases h
        · rw [← Option.some.inj h]
          exact ⟨fun _ h => h, fun _ _ h => h⟩
  | createTable name columns =>
      simp only [Statement.exec] at h
      split at h
      · rw [← Option.some.inj h]
        exact .refl db
      · rename_i hnone
        rw [← Option.some.inj h]
        refine Schema.within_set fun old hold => ?_
        rw [hold] at hnone
        exact absurd rfl hnone
  | createIndex table columns =>
      simp only [Statement.exec, Option.ite_none_right_eq_some] at h
      rw [← Option.some.inj h.2]
      exact .refl db
  | addColumn table column =>
      simp only [Statement.exec] at h
      split at h
      · cases h
      · rename_i t ht
        split at h
        · cases h
        · rw [← Option.some.inj h]
          refine Schema.within_set fun old hold c hc => ?_
          rw [ht] at hold
          rw [TableData.has_addedColumn, Option.some.inj hold, hc]
          rfl
  | copyOldUsers =>
      simp only [Statement.exec] at h
      split at h
      · rename_i users old husers hold
        rw [Option.ite_none_right_eq_some] at h
        rw [← Option.some.inj h.2]
        refine Schema.within_set fun t ht c hc => ?_
        rw [husers] at ht
        rw [← Option.some.inj ht] at hc
        exact hc
      · cases h
  | insertSyncMeta =>
      simp only [Statement.exec] at h
      split at h
      · cases h
      · rename_i t ht
        split at h
        · rw [← Option.some.inj h]
          exact .refl db
        · rw [← Option.some.inj h]
          refine Schema.within_set fun old hold c hc => ?_
          rw [ht] at hold
          rw [← Option.some.inj hold] at hc
          exact hc

/-- What a command does is what it leaves. -/
theorem Command.left_of_done {c : Command} {db db' : Schema} (h : c.done now db = some db') :
    c.exec now none db = .ok db' ∧ (c.exec now none db).left = db' := by
  have hok := Result.toOption_eq_some.mp h
  exact ⟨hok, by rw [hok]; rfl⟩

theorem Command.done_within {c : Command} {db db' : Schema} (h : c.done now db = some db')
    (hgrows : ∀ s ∈ c.statements, s.grows = true) : db.Within db' := by
  obtain ⟨-, hleft⟩ := Command.left_of_done h
  rw [← hleft]
  exact Command.exec_left Schema.Within.refl Schema.Within.trans fun s hs db db' hexec =>
    Statement.exec_within hexec (hgrows s hs)

/-! ### Commands that look whether they are needed -/

section

variable {db db' : Schema} {name table : String} {columns : List Column} {column : Column}

theorem settled_createTable :
    Settled (Command.done now) (.must (.createTable name columns)) db ↔
      (db.tables name).isSome = true := by
  have hdone : (Command.must (.createTable name columns)).done now db =
      (Statement.createTable name columns).exec now db := by
    simp only [Command.done, Command.exec, Migration.must, FaultAt.hits]
    cases (Statement.createTable name columns).exec now db <;> rfl
  unfold Settled
  rw [hdone]
  simp only [Statement.exec]
  cases ht : db.tables name with
  | some t => simp
  | none =>
      simp only [Option.isSome_none, Bool.false_eq_true, if_false, iff_false]
      intro h
      have htables := congrArg (fun db => db.tables name) (Option.some.inj h)
      simp only [Schema.set_tables_self, ht] at htables
      cases htables

theorem settled_createIndex {names : List String} :
    Settled (Command.done now) (.attempt (.createIndex table names)) db := by
  simp only [Settled, Command.done, Command.exec, Migration.attempt, FaultAt.hits, Statement.exec]
  split <;> rfl

theorem settled_unlessColumn :
    Settled (Command.done now) (.unlessColumn table column) db ↔
      db.hasColumn table column.name = true := by
  cases hhas : db.hasColumn table column.name with
  | true => simp [Settled, Command.done, Command.exec, look, FaultAt.hits, hhas, Result.toOption]
  | false =>
      simp only [Settled, Command.done, Command.exec, look, FaultAt.hits, hhas, Migration.must,
        Bool.false_eq_true, if_false, iff_false]
      intro h
      cases hexec : (Statement.addColumn table column).exec now db with
      | none =>
          rw [hexec] at h
          cases h
      | some db' =>
          rw [hexec] at h
          have hsame : db' = db := Option.some.inj h
          rw [hsame] at hexec
          simp only [Statement.exec] at hexec
          split at hexec
          · cases hexec
          · rename_i t ht
            split at hexec
            · cases hexec
            · have htables := congrArg (fun db => db.tables table) (Option.some.inj hexec)
              simp only [Schema.set_tables_self, ht, Option.some.injEq] at htables
              have hlength := congrArg (fun t => t.columns.length) htables
              simp [addedColumn] at hlength

end

/-- `CREATE TABLE`, `CREATE INDEX` and the columns that are looked for. -/
def Command.additive : Command → Bool
  | .must (.createTable _ _) => true
  | .attempt (.createIndex _ _) => true
  | .unlessColumn _ _ => true
  | _ => false

theorem Command.additive_grows {c : Command} (h : c.additive = true) :
    ∀ s ∈ c.statements, s.grows = true := by
  cases c with
  | must s => cases s <;> simp_all [Command.additive, Command.statements, Statement.grows]
  | attempt s => cases s <;> simp_all [Command.additive, Command.statements, Statement.grows]
  | unlessColumn table column => simp [Command.statements, Statement.grows]
  | renameLegacyUsers => cases h
  | moveOldUsers => cases h

/-- Such a command stays settled as long as nothing is taken away. -/
theorem Settled.of_within {c : Command} {db db' : Schema} (h : Settled (Command.done now) c db)
    (hc : c.additive = true) (hwithin : db.Within db') : Settled (Command.done now) c db' := by
  cases c with
  | must s =>
      cases s with
      | createTable name columns =>
          exact settled_createTable.mpr (hwithin.table name (settled_createTable.mp h))
      | _ => cases hc
  | attempt s =>
      cases s with
      | createIndex table names => exact settled_createIndex
      | _ => cases hc
  | unlessColumn table column =>
      exact settled_unlessColumn.mpr (hwithin.column table column.name (settled_unlessColumn.mp h))
  | renameLegacyUsers => cases hc
  | moveOldUsers => cases hc

theorem Command.additive_done {c : Command} (hc : c.additive = true) {db db' : Schema}
    (h : c.done now db = some db') : Settled (Command.done now) c db' := by
  cases c with
  | must s =>
      cases s with
      | createTable name columns =>
          refine settled_createTable.mpr ?_
          simp only [Command.done, Command.exec, Migration.must, FaultAt.hits, Statement.exec] at h
          split at h
          · rename_i db'' hexec
            have hsame : db'' = db' := Option.some.inj h
            rw [hsame] at hexec
            split at hexec
            · rename_i hsome
              rwa [← Option.some.inj hexec]
            · rw [← Option.some.inj hexec, Schema.set_tables_self]
              rfl
          · cases h
      | _ => cases hc
  | attempt s =>
      cases s with
      | createIndex table names => exact settled_createIndex
      | _ => cases hc
  | unlessColumn table column =>
      refine settled_unlessColumn.mpr ?_
      cases hhas : db.hasColumn table column.name with
      | true =>
          have hsettled : Settled (Command.done now) (.unlessColumn table column) db :=
            settled_unlessColumn.mpr hhas
          rw [show db' = db from Option.some.inj (h.symm.trans hsettled)]
          exact hhas
      | false =>
          simp only [Command.done, Command.exec, look, FaultAt.hits, hhas, Migration.must,
            Bool.false_eq_true, if_false, Statement.exec] at h
          split at h
          · rename_i db'' hexec
            have hsame : db'' = db' := Option.some.inj h
            rw [hsame] at hexec
            split at hexec
            · cases hexec
            · split at hexec
              · cases hexec
              · rw [← Option.some.inj hexec]
                simp [Schema.hasColumn, TableData.has_addedColumn]
          · cases h
  | renameLegacyUsers => cases hc
  | moveOldUsers => cases hc

theorem lasting_of_additive {cs : List Command} (h : ∀ c ∈ cs, c.additive = true) :
    Lasting (Command.done now) cs where
  done c hc db db' hdone := Command.additive_done (h c hc) hdone
  kept := by
    refine List.Pairwise.imp_of_mem (fun {c d} hc hd _ => ?_)
      (List.pairwise_of_forall fun _ _ => trivial)
    exact fun db db' hsettled hdone =>
      Settled.of_within hsettled (h c hc) (Command.done_within hdone (Command.additive_grows (h d hd)))

/-! ## A migration with a fault in it -/

/-- With the fault the migration ends as without, or it does not end, and another run of
it from what is left ends so. -/
def Redoable (now : String) (cs : List Command) (faults : Nat → FaultAt) (db : Schema) : Prop :=
  runCommands now faults cs db = runCommands now (fun _ => none) cs db ∨
    ((∀ db', runCommands now faults cs db ≠ .ok db') ∧
      runCommands now (fun _ => none) cs (runCommands now faults cs db).left =
        runCommands now (fun _ => none) cs db ∧
      (runCommands now faults cs db).left.versions = db.versions)

/-- The commands write no version. -/
def NoRecord (cs : List Command) : Prop := ∀ c ∈ cs, ∀ s ∈ c.statements, s.records = false

instance : DecidablePred NoRecord := fun cs =>
  inferInstanceAs (Decidable (∀ c ∈ cs, ∀ s ∈ c.statements, s.records = false))

theorem NoRecord.versions {cs : List Command} (h : NoRecord cs) {faults : Nat → FaultAt}
    {db : Schema} : (runCommands now faults cs db).left.versions = db.versions :=
  runCommands_left (R := fun db db' => db'.versions = db.versions) (fun _ => rfl)
    (fun h h' => h'.trans h) fun c hc s hs _ _ hexec => Statement.exec_versions hexec (h c hc s hs)

section

variable {before after : List Command} {c : Command} {x : FaultAt} {db db' : Schema}

/-- The state in which a command of a migration that ends is run. -/
theorem before_of_ok (hrun : runCommands now (fun _ => none) (before ++ after) db = .ok db') :
    ∃ db₁, runCommands now (fun _ => none) before db = .ok db₁ ∧
      runCommands now (fun _ => none) after db₁ = .ok db' := by
  rw [runCommands_append] at hrun
  cases hbefore : runCommands now (fun _ => none) before db with
  | ok db₁ =>
      rw [hbefore] at hrun
      exact ⟨db₁, rfl, hrun⟩
  | stopped db₁ =>
      rw [hbefore] at hrun
      cases hrun
  | died db₁ =>
      rw [hbefore] at hrun
      cases hrun

/-- Started over after commands that last, the migration ends the same. -/
theorem startOver (hlasting : Lasting (Command.done now) before) {db₁ : Schema}
    (hbefore : runCommands now (fun _ => none) before db = .ok db₁)
    (hrun : runCommands now (fun _ => none) (before ++ after) db = .ok db') :
    runCommands now (fun _ => none) (before ++ after) db₁ = .ok db' := by
  have hcut : runAll (Command.done now) before db = some db₁ := by
    rw [← runCommands_toOption, hbefore]
    rfl
  refine Result.toOption_eq_some.mp ?_
  rw [runCommands_toOption, hlasting.startOver hcut, ← runCommands_toOption, hrun]
  rfl

theorem redoable_of_same (before : List Command)
    (hrun : runCommands now (fun _ => none) (before ++ c :: after) db = .ok db')
    (hc : ∀ db₁, runCommands now (fun _ => none) before db = .ok db₁ →
      c.exec now x db₁ = c.exec now none db₁) :
    Redoable now (before ++ c :: after) (singleFault before.length x) db := by
  obtain ⟨db₁, hbefore, -⟩ := before_of_ok hrun
  refine .inl ?_
  rw [runCommands_singleFault, runCommands_append, hbefore]
  exact congrArg (fun r => r.bind (runCommands now (fun _ => none) after)) (hc db₁ hbefore)

theorem redoable_of_left (hlasting : Lasting (Command.done now) before) (hrecord : NoRecord before)
    (hrun : runCommands now (fun _ => none) (before ++ c :: after) db = .ok db')
    (hc : ∀ db₁, runCommands now (fun _ => none) before db = .ok db₁ →
      c.exec now x db₁ = .died db₁ ∨ c.exec now x db₁ = .stopped db₁) :
    Redoable now (before ++ c :: after) (singleFault before.length x) db := by
  obtain ⟨db₁, hbefore, -⟩ := before_of_ok hrun
  have hversions : db₁.versions = db.versions := by
    have h : (runCommands now (fun _ => none) before db).left.versions = db.versions :=
      hrecord.versions
    rwa [hbefore] at h
  have hredo := startOver hlasting hbefore hrun
  refine .inr ?_
  rw [runCommands_singleFault, hbefore, hrun]
  rcases hc db₁ hbefore with h | h
  · simp only [Result.bind, h]
    exact ⟨fun _ => Result.noConfusion, hredo, hversions⟩
  · simp only [Result.bind, h]
    exact ⟨fun _ => Result.noConfusion, hredo, hversions⟩

end

/-- A command whose failure stops the run, or means nothing. -/
def Command.plain : Command → Bool
  | .must _ => true
  | .attempt (.createIndex _ _) => true
  | .unlessColumn _ _ => true
  | _ => false

@[simp] theorem FaultAt.hits_none (statement : Nat) : FaultAt.hits none statement = none := rfl

theorem must_cases (now : String) (x : Option Fault) (s : Statement) (db : Schema) :
    must now x s db = must now none s db ∨ must now x s db = .died db ∨
      must now x s db = .stopped db := by
  cases x with
  | none => exact .inl rfl
  | some fault =>
      cases fault with
      | dies => exact .inr (.inl rfl)
      | fails => exact .inr (.inr rfl)

theorem Command.exec_plain (now : String) {c : Command} (hc : c.plain = true) (x : FaultAt)
    (db : Schema) :
    c.exec now x db = c.exec now none db ∨ c.exec now x db = .died db ∨
      c.exec now x db = .stopped db := by
  cases c with
  | must s => exact must_cases now (x.hits 0) s db
  | attempt s =>
      cases s with
      | createIndex table names =>
          have hnone : (Command.attempt (.createIndex table names)).exec now none db = .ok db :=
            Result.toOption_eq_some.mp settled_createIndex
          rw [hnone]
          simp only [Command.exec, Migration.attempt]
          cases hx : x.hits 0 with
          | none => exact .inl hnone
          | some fault => cases fault <;> simp
      | _ => cases hc
  | unlessColumn table column =>
      simp only [Command.exec, look, FaultAt.hits_none]
      cases hhas : db.hasColumn table column.name with
      | true =>
          -- where the query fails the column is added again, and that stops the run
          have hadd : Migration.must now none (.addColumn table column) db = .stopped db := by
            simp only [Schema.hasColumn, Option.any_eq_true] at hhas
            obtain ⟨t, ht, hcolumn⟩ := hhas
            simp only [Migration.must, Statement.exec, ht, hcolumn, if_true]
          cases x.hits 0 with
          | none => exact .inl rfl
          | some fault =>
              cases fault with
              | dies => exact .inr (.inl rfl)
              | fails =>
                  have hcases := must_cases now (x.hits 1) (.addColumn table column) db
                  rw [hadd] at hcases
                  rcases hcases with h | h | h
                  · exact .inr (.inr h)
                  · exact .inr (.inl h)
                  · exact .inr (.inr h)
      | false =>
          have hcases := must_cases now (x.hits 1) (.addColumn table column) db
          cases x.hits 0 with
          | none => exact hcases
          | some fault =>
              cases fault with
              | dies => exact .inr (.inl rfl)
              | fails => exact hcases
  | renameLegacyUsers => cases hc
  | moveOldUsers => cases hc

theorem redoable_of_plain (before : List Command) {after : List Command} {c : Command} {x : FaultAt}
    {db db' : Schema} (hc : c.plain = true) (hlasting : Lasting (Command.done now) before)
    (hrecord : NoRecord before)
    (hrun : runCommands now (fun _ => none) (before ++ c :: after) db = .ok db') :
    Redoable now (before ++ c :: after) (singleFault before.length x) db := by
  obtain ⟨db₁, hbefore, -⟩ := before_of_ok hrun
  have hsame : ∀ db₂, runCommands now (fun _ => none) before db = .ok db₂ → db₂ = db₁ := by
    intro db₂ h
    exact Result.ok.inj (h.symm.trans hbefore)
  rcases Command.exec_plain now hc x db₁ with h | h
  · exact redoable_of_same before hrun fun db₂ hdb₂ => hsame db₂ hdb₂ ▸ h
  · exact redoable_of_left hlasting hrecord hrun fun db₂ hdb₂ => hsame db₂ hdb₂ ▸ h

/-- Where the fault is. -/
theorem exists_split {cs : List Command} {i : Nat} (h : i < cs.length) :
    ∃ c, cs = cs.take i ++ c :: cs.drop (i + 1) ∧ (cs.take i).length = i ∧ cs[i]? = some c := by
  refine ⟨cs[i], ?_, by simp; omega, List.getElem?_eq_getElem h⟩
  rw [List.getElem_cons_drop, List.take_append_drop]

/-- A fault that changes nothing for its command changes nothing. -/
theorem runCommands_harmless {cs : List Command} {i : Nat} {x : FaultAt}
    (h : ∀ c, cs[i]? = some c → ∀ db, c.exec now x db = c.exec now none db) (db : Schema) :
    runCommands now (singleFault i x) cs db = runCommands now (fun _ => none) cs db := by
  rcases Nat.lt_or_ge i cs.length with hi | hi
  · obtain ⟨c, hsplit, hlength, hc⟩ := exists_split hi
    have hrest : ∀ db, (c.exec now x db).bind (runCommands now (fun _ => none) (cs.drop (i + 1))) =
        runCommands now (fun _ => none) (c :: cs.drop (i + 1)) db := fun db => by
      rw [h c hc]
      rfl
    calc runCommands now (singleFault i x) cs db
        = runCommands now (singleFault (cs.take i).length x)
            (cs.take i ++ c :: cs.drop (i + 1)) db := by rw [← hsplit, hlength]
      _ = runCommands now (fun _ => none) (cs.take i ++ c :: cs.drop (i + 1)) db := by
          rw [runCommands_singleFault, runCommands_append]
          exact congrArg _ (funext hrest)
      _ = runCommands now (fun _ => none) cs db := by rw [← hsplit]
  · exact runCommands_beyond hi x db

theorem Command.additive_records {c : Command} (h : c.additive = true) :
    ∀ s ∈ c.statements, s.records = false := by
  cases c with
  | must s => cases s <;> simp_all [Command.additive, Command.statements, Statement.records]
  | attempt s => cases s <;> simp_all [Command.additive, Command.statements, Statement.records]
  | unlessColumn table column => simp [Command.statements, Statement.records]
  | renameLegacyUsers => cases h
  | moveOldUsers => cases h

theorem Command.additive_plain {c : Command} (h : c.additive = true) : c.plain = true := by
  cases c with
  | must s => rfl
  | attempt s => cases s <;> simp_all [Command.additive, Command.plain]
  | unlessColumn table column => rfl
  | renameLegacyUsers => cases h
  | moveOldUsers => cases h

/-- **A migration that looks** before each of its commands can be interrupted anywhere. -/
theorem redoable_of_additive {cs : List Command} {k : Nat} (hcs : ∀ c ∈ cs, c.additive = true)
    {db db' : Schema}
    (hrun : runCommands now (fun _ => none) (cs ++ [.must (.recordVersion k)]) db = .ok db')
    (i : Nat) (x : FaultAt) :
    Redoable now (cs ++ [.must (.recordVersion k)]) (singleFault i x) db := by
  rcases Nat.lt_or_ge i (cs ++ [Command.must (.recordVersion k)]).length with hi | hi
  · obtain ⟨c, hsplit, hlength, hc⟩ := exists_split hi
    have hstarts : (cs ++ [Command.must (.recordVersion k)]).take i = cs.take i := by
      refine List.take_append_of_le_length ?_
      simp at hi
      omega
    have hbefore : ∀ d ∈ cs.take i, d.additive = true := fun d hd => hcs d (List.mem_of_mem_take hd)
    have hplain : c.plain = true := by
      rcases List.mem_append.mp (List.mem_of_getElem? hc) with hc | hc
      · exact Command.additive_plain (hcs c hc)
      · rw [List.mem_singleton.mp hc]
        rfl
    rw [hstarts] at hsplit hlength
    rw [hsplit] at hrun ⊢
    have hredo := redoable_of_plain (x := x) (cs.take i) hplain (lasting_of_additive hbefore)
      (fun d hd => Command.additive_records (hbefore d hd)) hrun
    rwa [hlength] at hredo
  · exact .inl (runCommands_beyond hi x db)

end XYChat.Server.Migration
