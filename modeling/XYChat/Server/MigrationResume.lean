import XYChat.Server.MigrationTimes

/-!
# Resumed migrations

What an interruption of each of the nine migrations means for the run that follows. Most
look for what they add and can be cut anywhere. The fourth adds columns unasked, so it
cannot be repeated once the first is there; the first and the eighth go on after a failure
of statements whose results nobody looks at.
-/

namespace XYChat.Server.Migration

open XYChat.Lib XYChat.Lib.Resume

variable {now : String}

/-! ## The fourth migration -/

theorem addColumn_hasColumn {table : String} {column : Column} {db db' : Schema}
    (h : (Statement.addColumn table column).exec now db = some db') :
    db'.hasColumn table column.name = true := by
  simp only [Statement.exec] at h
  split at h
  · cases h
  · split at h
    · cases h
    · rw [← Option.some.inj h]
      simp [Schema.hasColumn, TableData.has_addedColumn]

/-- Cut after a column that is added unasked, a migration ends no more. -/
theorem stuck_after_addColumn (table : String) (column : Column) (rest : List Command)
    (c : Command) (after : List Command) {x : FaultAt} {db db' : Schema}
    (hgrows : ∀ d ∈ rest, ∀ s ∈ d.statements, s.grows = true) (hrecord : NoRecord rest)
    (hstop : ∀ db, c.exec now x db = .died db ∨ c.exec now x db = .stopped db)
    (hrun : runCommands now (fun _ => none)
      (.must (.addColumn table column) :: rest ++ c :: after) db = .ok db') :
    ∃ left, (runCommands now (singleFault (rest.length + 1) x)
        (.must (.addColumn table column) :: rest ++ c :: after) db = .died left ∨
      runCommands now (singleFault (rest.length + 1) x)
        (.must (.addColumn table column) :: rest ++ c :: after) db = .stopped left) ∧
      left.versions = db.versions ∧
      runCommands now (fun _ => none)
        (.must (.addColumn table column) :: rest ++ c :: after) left = .stopped left := by
  obtain ⟨left, hbefore, -⟩ := before_of_ok hrun
  obtain ⟨db₁, hadd, hrest⟩ := Result.bind_eq_ok.mp hbefore
  have hcolumn : left.hasColumn table column.name = true := by
    have hwithin : db₁.Within (runCommands now (fun _ => none) rest db₁).left :=
      runCommands_left Schema.Within.refl Schema.Within.trans fun d hd s hs _ _ hexec =>
        Statement.exec_within hexec (hgrows d hd s hs)
    rw [show runCommands now (fun _ => none) rest db₁ = .ok left from hrest] at hwithin
    exact hwithin.column table column.name (addColumn_hasColumn (must_eq_ok.mp hadd))
  refine ⟨left, ?_, ?_, ?_⟩
  · rw [show rest.length + 1 = (Command.must (.addColumn table column) :: rest).length from rfl,
      runCommands_singleFault, hbefore]
    rcases hstop left with h | h
    · exact .inl (by simp only [Result.bind, h])
    · exact .inr (by simp only [Result.bind, h])
  · have hversions : NoRecord (Command.must (.addColumn table column) :: rest) :=
      List.forall_mem_cons.mpr ⟨by simp [Command.statements, Statement.records], hrecord⟩
    have h : (runCommands now (fun _ => none) (.must (.addColumn table column) :: rest)
        db).left.versions = db.versions := hversions.versions
    rwa [hbefore] at h
  · have hagain : must now none (.addColumn table column) left = .stopped left := by
      simp only [Schema.hasColumn, Option.any_eq_true] at hcolumn
      obtain ⟨t, ht, hhas⟩ := hcolumn
      simp only [must, Statement.exec, ht, hhas, if_true]
    rw [List.cons_append, runCommands_cons]
    show (must now none (.addColumn table column) left).bind _ = _
    rw [hagain]
    rfl

section

variable {k : Nat} {cs : List Command} {before after : List (Nat × List Command)}
  {x : Interruption} {db : Schema}

theorem Stage.not_resumes_of_stuck (h : Stage k cs before after)
    (hversion : db.currentVersion < k) (hx : x.migration = k)
    (hstuck : ∀ db₁ db₂, runCommands now (fun _ => none) cs db₁ = .ok db₂ →
      ∃ left, (runCommands now (singleFault x.command (some (x.statement, x.fault))) cs db₁
          = .died left ∨
        runCommands now (singleFault x.command (some (x.statement, x.fault))) cs db₁
          = .stopped left) ∧
        left.versions = db₁.versions ∧ runCommands now (fun _ => none) cs left = .stopped left) :
    ¬Resumes now db x := by
  rintro ⟨final, hrun, hagain⟩
  obtain ⟨db₁, db₂, hbefore, hcs, -⟩ := h.of_ok hversion hrun
  obtain ⟨left, hcut, hversions, hstopped⟩ := hstuck db₁ db₂ hcs
  obtain ⟨hsome, hbelow, hlt⟩ := h.before_versions hversion hbefore
  have hleft : (runMigrations now (some x) db).left = left := by
    rw [runMigrations_of_ne (by omega), h.run hversion hx, hbefore]
    rcases hcut with hcut | hcut
    · simp only [Result.bind, hcut, Result.left]
    · simp only [Result.bind, hcut, Result.left]
  have hcurrent : left.currentVersion = db₁.currentVersion := by
    unfold Schema.currentVersion
    rw [hversions]
  rw [hleft, h.rerun (by rwa [hversions]) (by rwa [hcurrent]) (by rwa [hcurrent]), hstopped] at hagain
  cases hagain

end

/-- Where the fourth migration can be interrupted: before its first column, or where an
index is not made whose failure nobody looks at. -/
def FourthSpared (x : Interruption) : Prop :=
  x.statement = 0 → x.command = 0 ∨ 8 ≤ x.command ∨
    (x.fault = .fails ∧ (x.command = 4 ∨ x.command = 6))

theorem fourth_resumes_iff {x : Interruption} {db final : Schema} (hversion : db.currentVersion < 4)
    (hx : x.migration = 4) (hrun : runMigrations now none db = .ok final) :
    Resumes now db x ↔ FourthSpared x := by
  have hstage := stage_of_mem (show (4, migrateToV4) ∈ migrations by simp [migrations])
  obtain ⟨migration, command, statement, fault⟩ := x
  constructor
  · intro hresumes hstatement
    dsimp only at hstatement ⊢
    by_contra hbad
    refine hstage.not_resumes_of_stuck hversion hx (fun db₁ db₂ hcs => ?_) hresumes
    dsimp only
    rw [hstatement]
    have hstop : ∀ s, ∀ db, (Command.must s).exec now (some (0, fault)) db = .died db ∨
        (Command.must s).exec now (some (0, fault)) db = .stopped db := fun s => must_faulted s fault
    have hindex : command = 4 ∨ command = 6 → ∀ s db,
        (Command.attempt s).exec now (some (0, fault)) db = .died db ∨
          (Command.attempt s).exec now (some (0, fault)) db = .stopped db := by
      intro hcommand s db
      cases fault with
      | dies => exact .inl rfl
      | fails => exact absurd (.inr (.inr ⟨rfl, hcommand⟩)) hbad
    have hcommand : command = 1 ∨ command = 2 ∨ command = 3 ∨ command = 4 ∨ command = 5 ∨
        command = 6 ∨ command = 7 := by omega
    rcases hcommand with rfl | rfl | rfl | rfl | rfl | rfl | rfl
    · exact stuck_after_addColumn _ _ [] _ _ (by decide) (by decide) (hstop _) hcs
    · exact stuck_after_addColumn _ _ ((migrateToV4.drop 1).take 1) _ _ (by decide) (by decide)
        (hstop _) hcs
    · exact stuck_after_addColumn _ _ ((migrateToV4.drop 1).take 2) _ _ (by decide) (by decide)
        (hstop _) hcs
    · exact stuck_after_addColumn _ _ ((migrateToV4.drop 1).take 3) _ _ (by decide) (by decide)
        (hindex (.inl rfl) _) hcs
    · exact stuck_after_addColumn _ _ ((migrateToV4.drop 1).take 4) _ _ (by decide) (by decide)
        (hstop _) hcs
    · exact stuck_after_addColumn _ _ ((migrateToV4.drop 1).take 5) _ _ (by decide) (by decide)
        (hindex (.inr rfl) _) hcs
    · exact stuck_after_addColumn _ _ ((migrateToV4.drop 1).take 6) _ _ (by decide) (by decide)
        (hstop _) hcs
  · intro hspared
    refine hstage.resumes hversion hx hrun fun db₁ db₂ _ hcs => ?_
    dsimp only
    by_cases hstatement : statement = 0
    · rw [hstatement]
      rcases hspared hstatement with hcommand | hcommand | ⟨hfault, hcommand⟩
      · rw [show command = 0 from hcommand]
        exact redoable_first (Command.exec_plain now rfl _ db₁) hcs
      · exact .inl (runCommands_beyond hcommand _ db₁)
      · refine .inl (runCommands_harmless (fun c hc db => ?_) db₁)
        have hindex : ∃ table names, c = .attempt (.createIndex table names) := by
          rcases hcommand with h | h
          · rw [show command = 4 from h] at hc
            exact ⟨_, _, (Option.some.inj hc).symm⟩
          · rw [show command = 6 from h] at hc
            exact ⟨_, _, (Option.some.inj hc).symm⟩
        obtain ⟨table, names, rfl⟩ := hindex
        rw [show fault = .fails from hfault]
        exact (Result.toOption_eq_some.mp settled_createIndex).symm
    · have hsingle : ∀ c ∈ migrateToV4, c.single = true := by decide
      exact .inl (runCommands_harmless (fun c hc db =>
        Command.exec_single (hsingle c (List.mem_of_getElem? hc)) hstatement fault db) db₁)

/-! ## The migrations that look first -/

theorem additive_resumes {x : Interruption} {db final : Schema}
    (hversion : db.currentVersion < x.migration) (hx : x.migration ∈ [2, 3, 5, 6, 7, 9])
    (hrun : runMigrations now none db = .ok final) : Resumes now db x := by
  have hbody : ∃ body, (x.migration, body ++ [.must (.recordVersion x.migration)]) ∈ migrations ∧
      ∀ c ∈ body, c.additive = true := by
    simp only [List.mem_cons, List.not_mem_nil, or_false] at hx
    rcases hx with h | h | h | h | h | h <;> rw [h]
    · exact ⟨migrateToV2.take 3, .tail _ (.head _), by decide⟩
    · exact ⟨migrateToV3.take 7, .tail _ (.tail _ (.head _)), by decide⟩
    · exact ⟨migrateToV5.take 4, .tail _ (.tail _ (.tail _ (.tail _ (.head _)))), by decide⟩
    · exact ⟨migrateToV6.take 2, .tail _ (.tail _ (.tail _ (.tail _ (.tail _ (.head _))))),
        by decide⟩
    · exact ⟨migrateToV7.take 2,
        .tail _ (.tail _ (.tail _ (.tail _ (.tail _ (.tail _ (.head _)))))), by decide⟩
    · exact ⟨migrateToV9.take 4, .tail _ (.tail _ (.tail _ (.tail _ (.tail _ (.tail _
        (.tail _ (.tail _ (.head _)))))))), by decide⟩
  obtain ⟨body, hmem, hadditive⟩ := hbody
  exact (stage_of_mem hmem).resumes hversion rfl hrun fun db₁ db₂ _ hcs =>
    redoable_of_additive hadditive hcs x.command _

/-! ## The eighth migration -/

def firstMeta (t : TableData) : Bool := t.rows.any (fun row => row.value "id" == .int 1)

/-- The row of `sync_meta` is there. -/
def HasSyncMeta (db : Schema) : Prop := (db.tables "sync_meta").any firstMeta = true

theorem insertSyncMeta_of_some {db : Schema} {t : TableData} (ht : db.tables "sync_meta" = some t) :
    Statement.insertSyncMeta.exec now db =
      if firstMeta t then some db
      else some (db.set "sync_meta" (some
        { t with rows := t.rows ++ [[("id", .int 1), ("pruned_below_seq", .int 0)]] })) := by
  simp only [Statement.exec, ht]
  rfl

theorem settled_insertSyncMeta {db : Schema} (h : HasSyncMeta db) :
    Settled (Command.done now) (.attempt .insertSyncMeta) db := by
  unfold HasSyncMeta at h
  cases ht : db.tables "sync_meta" with
  | none => simp [ht] at h
  | some t =>
      rw [ht] at h
      have hexec : Statement.insertSyncMeta.exec now db = some db := by
        rw [insertSyncMeta_of_some ht]
        exact if_pos h
      simp [Settled, Command.done, Command.exec, attempt, hexec, Result.toOption]

theorem lasting_insertSyncMeta (columns : List Column) :
    Lasting (Command.done now)
      [.must (.createTable "sync_meta" columns), .attempt .insertSyncMeta] where
  done := by
    refine List.forall_mem_cons.mpr ⟨fun db db' => Command.additive_done rfl, ?_⟩
    refine List.forall_mem_cons.mpr ⟨fun db db' hdone => ?_, by simp⟩
    have hdb' : (Statement.insertSyncMeta.exec now db).getD db = db' := Option.some.inj hdone
    cases ht : db.tables "sync_meta" with
    | none =>
        have hexec : Statement.insertSyncMeta.exec now db = none := by simp [Statement.exec, ht]
        rw [← hdb', hexec]
        simp [Settled, Command.done, Command.exec, attempt, hexec, Result.toOption]
    | some t =>
        refine settled_insertSyncMeta ?_
        rw [← hdb', insertSyncMeta_of_some ht]
        by_cases hfirst : firstMeta t = true
        · rw [if_pos hfirst]
          simp [HasSyncMeta, ht, hfirst]
        · rw [if_neg hfirst]
          simp [HasSyncMeta, firstMeta, Row.value]
  kept := by
    refine List.pairwise_pair.mpr fun db db' hsettled hdone => ?_
    refine Settled.of_within hsettled rfl (Command.done_within hdone ?_)
    simp [Command.statements, Statement.grows]

/-- Where the eighth migration can be interrupted: not where its row is not inserted. -/
def EighthSpared (db : Schema) (x : Interruption) : Prop :=
  x.command = 1 → x.statement = 0 → x.fault = .fails → HasSyncMeta db

theorem syncMeta_untouched : ∀ m ∈ migrations, m.1 ≠ 8 → Untouched "sync_meta" m.2 := by decide

/-- The commands of the eighth migration, one by one. -/
theorem eighth_states {columns : List Column} {db₁ db₂ : Schema}
    (hcs : runCommands now (fun _ => none)
      [.must (.createTable "sync_meta" columns), .attempt .insertSyncMeta, .must (.recordVersion 8)]
      db₁ = .ok db₂) :
    ∃ db', (Statement.createTable "sync_meta" columns).exec now db₁ = some db' ∧
      (Statement.recordVersion 8).exec now ((Statement.insertSyncMeta.exec now db').getD db') =
        some db₂ := by
  obtain ⟨db', hcreate, hrest⟩ := Result.bind_eq_ok.mp hcs
  obtain ⟨db'', hinsert, hlast⟩ := Result.bind_eq_ok.mp hrest
  obtain ⟨db₃, hrecord, hend⟩ := Result.bind_eq_ok.mp hlast
  refine ⟨db', must_eq_ok.mp hcreate, ?_⟩
  rw [show (Statement.insertSyncMeta.exec now db').getD db' = db'' from Result.ok.inj hinsert,
    ← Result.ok.inj hend]
  exact must_eq_ok.mp hrecord

theorem eighth_other {columns : List Column} {db₁ db₂ : Schema} (hmeta : ¬HasSyncMeta db₁)
    (hcs : runCommands now (fun _ => none)
      [.must (.createTable "sync_meta" columns), .attempt .insertSyncMeta, .must (.recordVersion 8)]
      db₁ = .ok db₂) :
    ∃ db₃, runCommands now (singleFault 1 (some (0, .fails)))
        [.must (.createTable "sync_meta" columns), .attempt .insertSyncMeta,
          .must (.recordVersion 8)] db₁ = .ok db₃ ∧
      8 ≤ db₃.currentVersion ∧ db₃.tables "sync_meta" ≠ db₂.tables "sync_meta" := by
  obtain ⟨db', hcreate, hrecord⟩ := eighth_states hcs
  obtain ⟨ht, -⟩ := createTable_tables hcreate
  have hfirst : firstMeta ((db₁.tables "sync_meta").getD ⟨columns, []⟩) = false := by
    unfold HasSyncMeta at hmeta
    cases hold : db₁.tables "sync_meta" with
    | none => simp [firstMeta]
    | some t => simpa [hold] using hmeta
  rw [insertSyncMeta_of_some ht, hfirst] at hrecord
  obtain ⟨other, hlast, hcurrent, htables⟩ :=
    record_elsewhere hrecord (show db'.versions = _ from rfl)
  refine ⟨other, ?_, hcurrent, ?_⟩
  · have hcreated : runCommands now (fun _ => none) [.must (.createTable "sync_meta" columns)] db₁ =
        .ok db' := by
      refine Result.bind_eq_ok.mpr ⟨db', must_eq_ok.mpr hcreate, rfl⟩
    refine (runCommands_singleFault [.must (.createTable "sync_meta" columns)]
      [.must (.recordVersion 8)] (.attempt .insertSyncMeta) _ db₁).trans ?_
    rw [hcreated]
    exact hlast
  · rw [htables, record_tables hrecord, ht]
    intro h
    have hlength := congrArg (fun t => t.map fun t => t.rows.length) h
    simp at hlength

theorem eighth_resumes_iff {x : Interruption} {db final : Schema} (hversion : db.currentVersion < 8)
    (hx : x.migration = 8) (hrun : runMigrations now none db = .ok final) :
    Resumes now db x ↔ EighthSpared db x := by
  have hstage := stage_of_mem (show (8, migrateToV8) ∈ migrations by simp [migrations])
  obtain ⟨migration, command, statement, fault⟩ := x
  -- nothing before the eighth migration writes its table
  have hsame : ∀ db₁, runVersions now none db.currentVersion (migrations.take 7) db.opened = .ok db₁ →
      (HasSyncMeta db₁ ↔ HasSyncMeta db) := by
    intro db₁ hbefore
    have htables : (runVersions now none db.currentVersion (migrations.take 7)
        db.opened).left.tables "sync_meta" = db.opened.tables "sync_meta" :=
      runVersions_tables fun m hm _ =>
        syncMeta_untouched m (hstage.mem.1 m hm) (Nat.ne_of_lt (hstage.below m hm))
    rw [hbefore] at htables
    unfold HasSyncMeta
    rw [show db₁.tables "sync_meta" = db.tables "sync_meta" from htables]
  constructor
  · intro hresumes hcommand hstatement hfault
    by_contra hmeta
    refine hstage.not_resumes hversion hx
      (fun m hm hlt => syncMeta_untouched m hm (Nat.ne_of_gt hlt)) (fun db₁ db₂ hbefore hcs => ?_)
      hresumes
    dsimp only at hcommand hstatement hfault ⊢
    rw [hcommand, hstatement, hfault]
    exact eighth_other (fun h => hmeta ((hsame db₁ hbefore).mp h)) hcs
  · intro hspared
    refine hstage.resumes hversion hx hrun fun db₁ db₂ hbefore hcs => ?_
    dsimp only
    by_cases hstatement : statement = 0
    · rcases command with _ | _ | _ | n
      · exact redoable_first (Command.exec_plain now rfl _ db₁) hcs
      · have hlasting : Lasting (Command.done now) (migrateToV8.take 1) :=
          lasting_of_additive (by decide)
        have hrecord : NoRecord (migrateToV8.take 1) := by decide
        rw [hstatement]
        cases fault with
        | dies => exact redoable_of_left hlasting hrecord hcs fun db' _ => .inl rfl
        | fails =>
            refine redoable_of_same (migrateToV8.take 1) hcs fun db' hcreated => ?_
            have hmeta : HasSyncMeta db₁ := (hsame db₁ hbefore).mpr (hspared rfl hstatement rfl)
            obtain ⟨db₃, hcreate, hend⟩ := Result.bind_eq_ok.mp hcreated
            have hdb' : db' = db₃ := (Result.ok.inj hend).symm
            have hkept : db'.tables "sync_meta" = db₁.tables "sync_meta" := by
              rw [hdb', (createTable_tables (must_eq_ok.mp hcreate)).1]
              unfold HasSyncMeta at hmeta
              cases hold : db₁.tables "sync_meta" with
              | none => simp [hold] at hmeta
              | some t => rfl
            have hmeta' : HasSyncMeta db' := by
              unfold HasSyncMeta
              rwa [hkept]
            exact (Result.toOption_eq_some.mp (settled_insertSyncMeta hmeta')).symm
      · exact redoable_of_plain (migrateToV8.take 2) rfl (lasting_insertSyncMeta _)
          (by decide) hcs
      · exact .inl (runCommands_beyond (by simp [migrateToV8]) _ db₁)
    · have hsingle : ∀ c ∈ migrateToV8, c.single = true := by decide
      exact .inl (runCommands_harmless (fun c hc db =>
        Command.exec_single (hsingle c (List.mem_of_getElem? hc)) hstatement fault db) db₁)

/-! ## Every interruption -/

/-- A database the migrations can be run on: they end, and where a version is recorded
the first of them is done. -/
structure Start (now : String) (db : Schema) : Prop where
  ends : ∃ final, runMigrations now none db = .ok final
  recorded : 0 < db.currentVersion → 1 ∈ db.versions.getD []
  users : 0 < db.currentVersion → (db.tables "users").isSome = true ∧ isLegacy db = false
  moved : 0 < db.currentVersion → db.tables "old_users" = none

/-- The interruptions after which another run makes up for the one that was cut. -/
structure Spared (db : Schema) (x : Interruption) : Prop where
  first : x.migration = 1 → db.currentVersion = 0 → FirstSpared db x
  fourth : x.migration = 4 → db.currentVersion < 4 → FourthSpared x
  eighth : x.migration = 8 → db.currentVersion < 8 → EighthSpared db x

section

variable {db : Schema}

/-- Run on a database that has a version, the first migration cannot record its own. -/
theorem first_stopped (h : Start now db) (hversion : 0 < db.currentVersion) :
    runCommands now (fun _ => none) migrateToV1 db.opened = .stopped db.opened := by
  have hrename : Command.renameLegacyUsers.exec now none db.opened = .ok db.opened :=
    Result.toOption_eq_some.mp (settled_renameLegacyUsers.mpr (h.users hversion).2)
  have hcreate : (Command.must (.createTable "users" usersColumns)).exec now none db.opened =
      .ok db.opened :=
    Result.toOption_eq_some.mp (settled_createTable.mpr (h.users hversion).1)
  have hmove : Command.moveOldUsers.exec now none db.opened = .ok db.opened :=
    Result.toOption_eq_some.mp (settled_moveOldUsers (h.moved hversion))
  have hrecord : must now none (.recordVersion 1) db.opened = .stopped db.opened := by
    have hmem : 1 ∈ db.versions.getD [] := h.recorded hversion
    simp [must, Statement.exec, Schema.opened, hmem]
  rw [migrateToV1, runCommands_cons, hrename]
  show (Command.exec now none db.opened (.must (.createTable "users" usersColumns))).bind _ = _
  rw [hcreate]
  show (Command.exec now none db.opened .moveOldUsers).bind _ = _
  rw [hmove]
  show (must now none (.recordVersion 1) db.opened).bind _ = _
  rw [hrecord]
  rfl

/-- Before the first migration nothing is lost, not even where the version is misread. -/
theorem prologue_resumes {x : Interruption} (h : Start now db) (hx : x.migration = 0) :
    Resumes now db x := by
  obtain ⟨final, hrun⟩ := h.ends
  obtain ⟨migration, command, statement, fault⟩ := x
  obtain rfl : migration = 0 := hx
  have helsewhere : ∀ version, runVersions now (some ⟨0, command, statement, fault⟩) version
      migrations db.opened = runVersions now none version migrations db.opened := fun version => by
    refine runVersions_elsewhere fun m hm _ => ?_
    have hpositive : ∀ m ∈ migrations, m.1 ≠ 0 := by simp [migrations]
    exact hpositive m hm
  have hagain : runMigrations now none db.opened = .ok final := hrun
  rcases command with _ | _ | n
  · rcases statement with _ | n
    · cases fault with
      | dies => exact ⟨final, hrun, hrun⟩
      | fails => exact ⟨final, hrun, hrun⟩
    · refine resumes_of_same hrun (Eq.trans ?_ (helsewhere db.currentVersion))
      exact runMigrations_unhit (by simp [faultsAt, FaultAt.hits]) (by simp [faultsAt]) db
  · rcases statement with _ | n
    · cases fault with
      | dies => exact ⟨final, hrun, hagain⟩
      | fails =>
          have hcut : runMigrations now (some ⟨0, 1, 0, .fails⟩) db =
              runVersions now none 0 migrations db.opened := helsewhere 0
          rcases Nat.eq_zero_or_pos db.currentVersion with hversion | hversion
          · refine resumes_of_same hrun ?_
            show runMigrations now (some ⟨0, 1, 0, .fails⟩) db = _
            rw [hcut, runMigrations_none, hversion]
          · have hstopped : runVersions now none 0 migrations db.opened = .stopped db.opened := by
              rw [migrations, runVersions_cons, if_pos Nat.one_pos]
              show (runCommands now (fun _ => none) migrateToV1 db.opened).bind _ = _
              rw [first_stopped h hversion]
              rfl
            refine ⟨final, hrun, ?_⟩
            show runMigrations now none (runMigrations now (some ⟨0, 1, 0, .fails⟩) db).left = _
            rw [hcut, hstopped]
            exact hagain
    · refine resumes_of_same hrun (Eq.trans ?_ (helsewhere db.currentVersion))
      exact runMigrations_unhit (by simp [faultsAt]) (by simp [faultsAt, FaultAt.hits]) db
  · refine resumes_of_same hrun (Eq.trans ?_ (helsewhere db.currentVersion))
    exact runMigrations_unhit (by simp [faultsAt]) (by simp [faultsAt]) db

end

theorem resumes_iff {db : Schema} (h : Start now db) (x : Interruption) :
    Resumes now db x ↔ Spared db x := by
  obtain ⟨final, hrun⟩ := h.ends
  rcases Nat.eq_zero_or_pos x.migration with hx | hx
  · refine ⟨fun _ => ⟨?_, ?_, ?_⟩, fun _ => prologue_resumes h hx⟩ <;> omega
  by_cases hversion : x.migration ≤ db.currentVersion ∨ 9 < x.migration
  · refine ⟨fun _ => ⟨?_, ?_, ?_⟩, fun _ => resumes_elsewhere hrun (by omega) hversion⟩ <;> omega
  have hlt : db.currentVersion < x.migration := by omega
  by_cases hfirst : x.migration = 1
  · have hzero : db.currentVersion = 0 := by omega
    rw [first_resumes_iff hzero hfirst hrun]
    exact ⟨fun h => ⟨fun _ _ => h, by omega, by omega⟩, fun h => h.first hfirst hzero⟩
  by_cases hfourth : x.migration = 4
  · have hfour : db.currentVersion < 4 := by omega
    rw [fourth_resumes_iff hfour hfourth hrun]
    exact ⟨fun h => ⟨by omega, fun _ _ => h, by omega⟩, fun h => h.fourth hfourth hfour⟩
  by_cases heighth : x.migration = 8
  · have height : db.currentVersion < 8 := by omega
    rw [eighth_resumes_iff height heighth hrun]
    exact ⟨fun h => ⟨by omega, by omega, fun _ _ => h⟩, fun h => h.eighth heighth height⟩
  · have hadditive : x.migration ∈ [2, 3, 5, 6, 7, 9] := by
      simp only [List.mem_cons, List.not_mem_nil, or_false]
      omega
    exact ⟨fun _ => ⟨by omega, by omega, by omega⟩, fun _ => additive_resumes hlt hadditive hrun⟩

/-! ## At another time -/

section

variable {db : Schema}

theorem Start.timeless (h : Start now db) : Start "" db.timeless where
  ends := by
    obtain ⟨final, hrun⟩ := h.ends
    refine ⟨final.timeless, ?_⟩
    rw [← @runMigrations_timeless now, hrun]
    rfl
  recorded := h.recorded
  users hversion := by
    obtain ⟨husers, hlegacy⟩ := h.users hversion
    rw [isSome_timeless, isLegacy_timeless]
    exact ⟨husers, hlegacy⟩
  moved hversion := by
    rw [tables_timeless_of_mem (by decide), h.moved hversion]
    rfl

theorem spared_timeless {x : Interruption} : Spared db.timeless x ↔ Spared db x :=
  ⟨fun h => ⟨fun hx hversion => firstSpared_timeless.mp (h.first hx hversion), h.fourth, h.eighth⟩,
    fun h => ⟨fun hx hversion => firstSpared_timeless.mpr (h.first hx hversion), h.fourth,
      h.eighth⟩⟩

end

/-- **Another run** after an interrupted one ends as an uninterrupted one would have if
and only if the interruption is spared. Where it is made at another time, this goes for all
but the times of the users that are moved over. -/
theorem resumes_iff_spared {db : Schema} (h : Start now db) (x : Interruption) :
    (Resumes now db x ↔ Spared db x) ∧
      ∀ later, ResumesLater now later db x ↔ Spared db x := by
  refine ⟨resumes_iff h x, fun later => ?_⟩
  calc ResumesLater now later db x
      ↔ Resumes "" db.timeless x := resumesLater_iff
    _ ↔ Spared db.timeless x := resumes_iff h.timeless x
    _ ↔ Spared db x := spared_timeless

def noon : String := "2026-01-01 12:00:00"

def midnight : String := "2026-01-02 00:00:00"

/-- What a run leaves that dies before the fourth migration. -/
def versionThree : Schema := (runMigrations noon (some ⟨4, 0, 0, .dies⟩) {}).left

/-- Cut between the two new columns of `messages`, it stays where it is. -/
example : ¬Resumes noon versionThree ⟨4, 1, 0, .dies⟩ := by
  intro hresumes
  obtain ⟨final, hrun, -⟩ := id hresumes
  have hspared := (fourth_resumes_iff (by decide) rfl hrun).mp hresumes rfl
  simp at hspared

/-- A `users` table from before there were versions. -/
def legacyUsers : Schema where
  tables name := if name = "users" then some
    ⟨ [idColumn, column "username" "TEXT", column "password" "TEXT"]
    , [[("id", .int 3), ("username", .text "alice"), ("password", .text "5e88")]] ⟩ else none

/-- It dies between copying the user and dropping the old table, and is run again at
midnight. -/
theorem legacyUsers_resumes :
    Start noon legacyUsers ∧ Resumes noon legacyUsers ⟨1, 2, 2, .dies⟩ ∧
      ResumesLater noon midnight legacyUsers ⟨1, 2, 2, .dies⟩ := by
  have hstart : Start noon legacyUsers :=
    { ends := ⟨_, rfl⟩, recorded := by decide, users := by decide, moved := by decide }
  have hdies : Fault.dies ≠ .fails := by decide
  have hfirst : FirstSpared legacyUsers ⟨1, 2, 2, .dies⟩ :=
    ⟨fun h => absurd h hdies, fun h => absurd h hdies, fun h => absurd h hdies⟩
  have hspared : Spared legacyUsers ⟨1, 2, 2, .dies⟩ :=
    ⟨fun _ _ => hfirst, fun h => absurd h (by decide), fun h => absurd h (by decide)⟩
  obtain ⟨hsame, hlater⟩ := resumes_iff_spared hstart ⟨1, 2, 2, .dies⟩
  exact ⟨hstart, hsame.mpr hspared, (hlater midnight).mpr hspared⟩

end XYChat.Server.Migration
