import XYChat.Server.MigrationFaults

/-!
# Runs around a migration

Another run after an interrupted one reads the version that was recorded last, so it
starts with the migration that was cut. It ends as a run without interruption would have
where that migration does; where the migration went on with another table than it should
have, it is not repeated, and nothing later makes up for it.
-/

namespace XYChat.Server.Migration

open XYChat.Lib XYChat.Lib.Resume

variable {now : String}

/-! ## Runs around one migration -/

/-- The schema once `schema_version` is there. -/
def Schema.opened (db : Schema) : Schema := { db with versions := some (db.versions.getD []) }

theorem Schema.opened_of_isSome {db : Schema} (h : db.versions.isSome = true) : db.opened = db := by
  unfold Schema.opened
  cases hversions : db.versions with
  | none => simp [hversions] at h
  | some versions =>
      rw [Option.getD_some, ← hversions]

@[simp] theorem Schema.opened_tables (db : Schema) : db.opened.tables = db.tables := rfl

@[simp] theorem Schema.opened_currentVersion (db : Schema) :
    db.opened.currentVersion = db.currentVersion := rfl

theorem runMigrations_none (db : Schema) :
    runMigrations now none db = runVersions now none db.currentVersion migrations db.opened := rfl

theorem runMigrations_unhit {x : Option Interruption} (hcreate : (faultsAt x 0 0).hits 0 = none)
    (hread : (faultsAt x 0 1).hits 0 = none) (db : Schema) :
    runMigrations now x db = runVersions now x db.currentVersion migrations db.opened := by
  unfold runMigrations
  rw [hcreate]
  simp only [hread]
  rfl

theorem runMigrations_of_ne {x : Interruption} (h : x.migration ≠ 0) (db : Schema) :
    runMigrations now (some x) db =
      runVersions now (some x) db.currentVersion migrations db.opened :=
  runMigrations_unhit (by simp [faultsAt, h]) (by simp [faultsAt, h]) db

section

variable {x : Option Interruption} {i : Interruption} {ms before after : List (Nat × List Command)}
  {version version' : Nat} {db : Schema}

theorem runVersions_cons (m : Nat × List Command) :
    runVersions now x version (m :: ms) db =
      if version < m.1 then
        (runCommands now (faultsAt x m.1) m.2 db).bind (runVersions now x version ms)
      else runVersions now x version ms db := rfl

theorem runVersions_append :
    runVersions now x version (before ++ after) db =
      (runVersions now x version before db).bind (runVersions now x version after) := by
  induction before generalizing db with
  | nil => rfl
  | cons m before ih =>
      rw [List.cons_append, runVersions_cons, runVersions_cons]
      by_cases hm : version < m.1
      · rw [if_pos hm, if_pos hm]
        cases runCommands now (faultsAt x m.1) m.2 db with
        | ok db' => exact ih
        | stopped db' => rfl
        | died db' => rfl
      · rw [if_neg hm, if_neg hm]
        exact ih

theorem runVersions_skip (h : ∀ m ∈ ms, m.1 ≤ version) :
    runVersions now x version ms db = .ok db := by
  induction ms with
  | nil => rfl
  | cons m ms ih =>
      obtain ⟨hm, hms⟩ := List.forall_mem_cons.mp h
      rw [runVersions_cons, if_neg (Nat.not_lt.mpr hm)]
      exact ih hms

/-- The version that was read only matters for which migrations are run. -/
theorem runVersions_congr (h : ∀ m ∈ ms, version < m.1 ↔ version' < m.1) :
    runVersions now x version ms db = runVersions now x version' ms db := by
  induction ms generalizing db with
  | nil => rfl
  | cons m ms ih =>
      obtain ⟨hm, hms⟩ := List.forall_mem_cons.mp h
      have hrest : runVersions now x version ms = runVersions now x version' ms :=
        funext fun db => ih hms
      rw [runVersions_cons, runVersions_cons, hrest]
      simp only [hm]

/-- An interruption in a migration that is not run is none. -/
theorem runVersions_elsewhere (h : ∀ m ∈ ms, version < m.1 → m.1 ≠ i.migration) :
    runVersions now (some i) version ms db = runVersions now none version ms db := by
  induction ms generalizing db with
  | nil => rfl
  | cons m ms ih =>
      obtain ⟨hm, hms⟩ := List.forall_mem_cons.mp h
      have hrest : runVersions now (some i) version ms = runVersions now none version ms :=
        funext fun db => ih hms
      rw [runVersions_cons, runVersions_cons, hrest]
      by_cases hrun : version < m.1
      · have hfaults : faultsAt (some i) m.1 = faultsAt none m.1 := by
          funext c
          simp [faultsAt, Ne.symm (hm hrun)]
        rw [hfaults]
      · rw [if_neg hrun, if_neg hrun]

end

/-- A migration among the others. -/
structure Stage (k : Nat) (cs : List Command) (before after : List (Nat × List Command)) : Prop where
  split : migrations = before ++ (k, cs) :: after
  below : ∀ m ∈ before, m.1 < k
  above : ∀ m ∈ after, k < m.1

theorem stage_of_mem {k : Nat} {cs : List Command} (h : (k, cs) ∈ migrations) :
    Stage k cs (migrations.take (k - 1)) (migrations.drop k) := by
  simp only [migrations, List.mem_cons, Prod.mk.injEq, List.not_mem_nil, or_false] at h
  rcases h with ⟨rfl, rfl⟩ | ⟨rfl, rfl⟩ | ⟨rfl, rfl⟩ | ⟨rfl, rfl⟩ | ⟨rfl, rfl⟩ | ⟨rfl, rfl⟩ |
    ⟨rfl, rfl⟩ | ⟨rfl, rfl⟩ | ⟨rfl, rfl⟩ <;>
  exact ⟨rfl, by simp [migrations], by simp [migrations]⟩

theorem Stage.mem {k : Nat} {cs : List Command} {before after : List (Nat × List Command)}
    (h : Stage k cs before after) :
    (∀ m ∈ before, m ∈ migrations) ∧ (k, cs) ∈ migrations ∧ ∀ m ∈ after, m ∈ migrations := by
  rw [h.split]
  exact ⟨fun m hm => by simp [hm], by simp, fun m hm => by simp [hm]⟩

section

variable {k : Nat} {cs : List Command} {before after : List (Nat × List Command)} {version : Nat}
  {x : Interruption} {db : Schema}

theorem Stage.run_none (h : Stage k cs before after) (hversion : version < k) :
    runVersions now none version migrations db =
      (runVersions now none version before db).bind fun db =>
        (runCommands now (fun _ => none) cs db).bind (runVersions now none version after) := by
  rw [h.split, runVersions_append]
  refine congrArg _ (funext fun db => ?_)
  rw [runVersions_cons, if_pos hversion]
  rfl

theorem Stage.run (h : Stage k cs before after) (hversion : version < k) (hx : x.migration = k) :
    runVersions now (some x) version migrations db =
      (runVersions now none version before db).bind fun db =>
        (runCommands now (singleFault x.command (some (x.statement, x.fault))) cs db).bind
          (runVersions now none version after) := by
  have hbefore : ∀ db, runVersions now (some x) version before db =
      runVersions now none version before db := fun db => by
    refine runVersions_elsewhere fun m hm _ => ?_
    have := h.below m hm
    omega
  have hafter : runVersions now (some x) version after = runVersions now none version after := by
    funext db
    refine runVersions_elsewhere fun m hm _ => ?_
    have := h.above m hm
    omega
  have hfaults : faultsAt (some x) k = singleFault x.command (some (x.statement, x.fault)) := by
    funext i
    by_cases hi : i = x.command
    · simp [faultsAt, singleFault, hx, hi]
    · simp [faultsAt, singleFault, hi, Ne.symm hi]
  rw [h.split, runVersions_append, hbefore]
  refine congrArg _ (funext fun db => ?_)
  rw [runVersions_cons, if_pos hversion, hfaults, hafter]

end

/-! ## The version of a run -/

/-- A migration ends with the record of its version, and records no other. -/
theorem ends_with_record {m : Nat × List Command} (h : m ∈ migrations) :
    ∃ body, m.2 = body ++ [.must (.recordVersion m.1)] ∧ NoRecord body := by
  simp only [migrations, List.mem_cons, List.not_mem_nil, or_false] at h
  rcases h with rfl | rfl | rfl | rfl | rfl | rfl | rfl | rfl | rfl
  · exact ⟨migrateToV1.take 3, rfl, by decide⟩
  · exact ⟨migrateToV2.take 3, rfl, by decide⟩
  · exact ⟨migrateToV3.take 7, rfl, by decide⟩
  · exact ⟨migrateToV4.take 7, rfl, by decide⟩
  · exact ⟨migrateToV5.take 4, rfl, by decide⟩
  · exact ⟨migrateToV6.take 2, rfl, by decide⟩
  · exact ⟨migrateToV7.take 2, rfl, by decide⟩
  · exact ⟨migrateToV8.take 2, rfl, by decide⟩
  · exact ⟨migrateToV9.take 4, rfl, by decide⟩

theorem Result.bind_eq_ok {r : Result} {next : Schema → Result} {db' : Schema} :
    r.bind next = .ok db' ↔ ∃ db, r = .ok db ∧ next db = .ok db' := by
  cases r <;> simp [Result.bind]

theorem must_eq_ok {s : Statement} {db db' : Schema} :
    must now none s db = .ok db' ↔ s.exec now db = some db' := by
  unfold must
  cases s.exec now db <;> simp

theorem exec_recordVersion {version : Nat} {db db' : Schema} :
    (Statement.recordVersion version).exec now db = some db' ↔
      ∃ versions, db.versions = some versions ∧ version ∉ versions ∧
        db' = { db with versions := some (versions ++ [version]) } := by
  simp only [Statement.exec]
  cases db.versions with
  | none => simp
  | some versions =>
      by_cases hmem : version ∈ versions
      · simp [hmem]
      · simp [hmem, eq_comm]

theorem currentVersion_of_record {version : Nat} {db db' : Schema}
    (h : (Statement.recordVersion version).exec now db = some db') :
    db'.currentVersion = max db.currentVersion version := by
  obtain ⟨versions, hversions, -, rfl⟩ := exec_recordVersion.mp h
  unfold Schema.currentVersion
  rw [hversions]
  exact foldr_max_append versions version

/-- The version a migration records is the highest from then on, or was not needed. -/
theorem currentVersion_of_ok {m : Nat × List Command} (hm : m ∈ migrations) {db db' : Schema}
    (hrun : runCommands now (fun _ => none) m.2 db = .ok db') :
    db'.currentVersion = max db.currentVersion m.1 := by
  obtain ⟨body, hbody, hrecord⟩ := ends_with_record hm
  rw [hbody] at hrun
  obtain ⟨db₁, hbefore, hlast⟩ := before_of_ok hrun
  have hversions : db₁.versions = db.versions := by
    have h : (runCommands now (fun _ => none) body db).left.versions = db.versions :=
      hrecord.versions
    rwa [hbefore] at h
  have hexec : (Statement.recordVersion m.1).exec now db₁ = some db' := by
    obtain ⟨db₂, hmust, hend⟩ := Result.bind_eq_ok.mp hlast
    rw [← Result.ok.inj hend]
    exact must_eq_ok.mp hmust
  rw [currentVersion_of_record hexec]
  unfold Schema.currentVersion
  rw [hversions]

/-- The migrations that were run reach their versions, and go no further. -/
theorem runVersions_currentVersion {ms : List (Nat × List Command)} (hms : ∀ m ∈ ms, m ∈ migrations)
    {version k : Nat} {db db' : Schema} (hbelow : ∀ m ∈ ms, m.1 < k)
    (hversion : version ≤ db.currentVersion)
    (hrun : runVersions now none version ms db = .ok db') :
    (∀ m ∈ ms, m.1 ≤ db'.currentVersion) ∧ db.currentVersion ≤ db'.currentVersion ∧
      (db.currentVersion < k → db'.currentVersion < k) := by
  induction ms generalizing db with
  | nil =>
      rw [← Result.ok.inj hrun]
      exact ⟨by simp, Nat.le_refl _, id⟩
  | cons m ms ih =>
      obtain ⟨hm, hms⟩ := List.forall_mem_cons.mp hms
      obtain ⟨hmk, hbelow⟩ := List.forall_mem_cons.mp hbelow
      rw [runVersions_cons] at hrun
      by_cases hneeded : version < m.1
      · rw [if_pos hneeded] at hrun
        cases hcommands : runCommands now (faultsAt none m.1) m.2 db with
        | ok db₁ =>
            rw [hcommands] at hrun
            have hdb₁ := currentVersion_of_ok hm hcommands
            obtain ⟨hall, hle, hlt⟩ := ih hms hbelow (by omega) hrun
            exact ⟨List.forall_mem_cons.mpr ⟨by omega, hall⟩, by omega, fun h => hlt (by omega)⟩
        | stopped db₁ =>
            rw [hcommands] at hrun
            cases hrun
        | died db₁ =>
            rw [hcommands] at hrun
            cases hrun
      · rw [if_neg hneeded] at hrun
        obtain ⟨hall, hle, hlt⟩ := ih hms hbelow hversion hrun
        exact ⟨List.forall_mem_cons.mpr ⟨by omega, hall⟩, hle, hlt⟩

theorem Statement.exec_isSome {s : Statement} {db db' : Schema} (h : s.exec now db = some db')
    (hsome : db.versions.isSome = true) : db'.versions.isSome = true := by
  by_cases hs : s.records = false
  · rwa [exec_versions h hs]
  · cases s with
    | createVersions =>
        rw [← Option.some.inj h]
        rfl
    | recordVersion version =>
        simp only [Statement.exec] at h
        split at h
        · cases h
        · split at h
          · cases h
          · rw [← Option.some.inj h]
            rfl
    | _ => exact absurd rfl hs

/-- Whatever is at fault, `schema_version` stays. -/
theorem runVersions_isSome {x : Option Interruption} {version : Nat}
    {ms : List (Nat × List Command)} {db : Schema} (h : db.versions.isSome = true) :
    (runVersions now x version ms db).left.versions.isSome = true :=
  runVersions_left (R := fun db db' => db.versions.isSome = true → db'.versions.isSome = true)
    (fun _ => id) (fun h h' hsome => h' (h hsome))
    (fun _ _ _ _ _ _ _ _ _ hexec => Statement.exec_isSome hexec) h

theorem runVersions_currentVersion_le {x : Option Interruption} {version : Nat}
    {ms : List (Nat × List Command)} {db : Schema} :
    db.currentVersion ≤ (runVersions now x version ms db).left.currentVersion :=
  runVersions_left (R := fun db db' => db.currentVersion ≤ db'.currentVersion)
    (fun _ => Nat.le_refl _) Nat.le_trans
    (fun _ _ _ _ _ _ _ _ _ hexec => Statement.exec_currentVersion hexec)

/-- A run that ended has nothing left to do. -/
theorem runMigrations_again {db final : Schema} (hrun : runMigrations now none db = .ok final) :
    runMigrations now none final = .ok final := by
  rw [runMigrations_none] at hrun
  have hall : ∀ m ∈ migrations, m.1 < 10 := by simp [migrations]
  obtain ⟨hdone, -, -⟩ := runVersions_currentVersion (fun m hm => hm) hall
    (Nat.le_of_eq (Schema.opened_currentVersion db).symm) hrun
  have hsome : final.versions.isSome = true := by
    have h : (runVersions now none db.currentVersion migrations
        db.opened).left.versions.isSome = true := runVersions_isSome rfl
    rwa [hrun] at h
  rw [runMigrations_none, Schema.opened_of_isSome hsome]
  exact runVersions_skip hdone

/-! ## Resuming a migration -/

/-- Another run after the interrupted one ends, as a run without the interruption. -/
def Resumes (now : String) (db : Schema) (x : Interruption) : Prop :=
  ∃ final, runMigrations now none db = .ok final ∧
    runMigrations now none (runMigrations now (some x) db).left = .ok final

theorem resumes_of_same {db final : Schema} {x : Interruption}
    (hrun : runMigrations now none db = .ok final)
    (hsame : runMigrations now (some x) db = runMigrations now none db) : Resumes now db x := by
  refine ⟨final, hrun, ?_⟩
  rw [hsame, hrun]
  exact runMigrations_again hrun

section

variable {k : Nat} {cs : List Command} {before after : List (Nat × List Command)}
  {x : Interruption} {db final : Schema}

/-- The states of a run around a migration. -/
theorem Stage.of_ok (h : Stage k cs before after) (hversion : db.currentVersion < k)
    (hrun : runMigrations now none db = .ok final) :
    ∃ db₁ db₂, runVersions now none db.currentVersion before db.opened = .ok db₁ ∧
      runCommands now (fun _ => none) cs db₁ = .ok db₂ ∧
      runVersions now none db.currentVersion after db₂ = .ok final := by
  rw [runMigrations_none, h.run_none hversion] at hrun
  obtain ⟨db₁, hbefore, hrest⟩ := Result.bind_eq_ok.mp hrun
  obtain ⟨db₂, hcs, hafter⟩ := Result.bind_eq_ok.mp hrest
  exact ⟨db₁, db₂, hbefore, hcs, hafter⟩

/-- A run on what such a run left before the migration, or in it, starts with it. -/
theorem Stage.rerun (h : Stage k cs before after) {db' : Schema}
    (hsome : db'.versions.isSome = true) (hbelow : ∀ m ∈ before, m.1 ≤ db'.currentVersion)
    (hversion : db'.currentVersion < k) :
    runMigrations now none db' =
      (runCommands now (fun _ => none) cs db').bind
        (runVersions now none db'.currentVersion after) := by
  rw [runMigrations_none, Schema.opened_of_isSome hsome, h.run_none hversion,
    runVersions_skip hbelow]
  rfl

theorem Stage.before_versions (h : Stage k cs before after) (hversion : db.currentVersion < k)
    {db₁ : Schema} (hbefore : runVersions now none db.currentVersion before db.opened = .ok db₁) :
    db₁.versions.isSome = true ∧ (∀ m ∈ before, m.1 ≤ db₁.currentVersion) ∧
      db₁.currentVersion < k := by
  obtain ⟨hall, -, hlt⟩ := runVersions_currentVersion h.mem.1 h.below
    (Nat.le_of_eq (Schema.opened_currentVersion db).symm) hbefore
  have hsome : db₁.versions.isSome = true := by
    have h : (runVersions now none db.currentVersion before
        db.opened).left.versions.isSome = true := runVersions_isSome rfl
    rwa [hbefore] at h
  exact ⟨hsome, hall, hlt hversion⟩

theorem Stage.resumes (h : Stage k cs before after) (hversion : db.currentVersion < k)
    (hx : x.migration = k) (hrun : runMigrations now none db = .ok final)
    (hredo : ∀ db₁ db₂, runVersions now none db.currentVersion before db.opened = .ok db₁ →
      runCommands now (fun _ => none) cs db₁ = .ok db₂ →
      Redoable now cs (singleFault x.command (some (x.statement, x.fault))) db₁) :
    Resumes now db x := by
  obtain ⟨db₁, db₂, hbefore, hcs, hafter⟩ := h.of_ok hversion hrun
  have hcut : runMigrations now (some x) db =
      (runCommands now (singleFault x.command (some (x.statement, x.fault))) cs db₁).bind
        (runVersions now none db.currentVersion after) := by
    rw [runMigrations_of_ne (by omega), h.run hversion hx, hbefore]
    rfl
  rcases hredo db₁ db₂ hbefore hcs with hsame | ⟨hcutoff, hagain, hversions⟩
  · refine resumes_of_same hrun ?_
    rw [hcut, hsame, hcs, hrun]
    exact hafter
  · obtain ⟨hsome, hbelow, hlt⟩ := h.before_versions hversion hbefore
    refine ⟨final, hrun, ?_⟩
    have hleft : (runMigrations now (some x) db).left =
        (runCommands now (singleFault x.command (some (x.statement, x.fault))) cs db₁).left := by
      rw [hcut]
      cases hresult : runCommands now (singleFault x.command (some (x.statement, x.fault))) cs db₁ with
      | ok db' => exact absurd hresult (hcutoff db')
      | stopped db' => rfl
      | died db' => rfl
    rw [hleft]
    have hcurrent : (runCommands now (singleFault x.command (some (x.statement, x.fault)))
        cs db₁).left.currentVersion = db₁.currentVersion := by
      unfold Schema.currentVersion
      rw [hversions]
    rw [h.rerun (by rwa [hversions]) (by rwa [hcurrent]) (by rwa [hcurrent]), hagain, hcs, hcurrent]
    show runVersions now none db₁.currentVersion after db₂ = .ok final
    rw [← hafter]
    refine runVersions_congr fun m hm => ?_
    have := h.above m hm
    omega

/-- The tables that a migration's commands may write. -/
def Untouched (name : String) (cs : List Command) : Prop :=
  ∀ c ∈ cs, ∀ s ∈ c.statements, name ∉ s.writes

instance (name : String) : DecidablePred (Untouched name) := fun cs =>
  inferInstanceAs (Decidable (∀ c ∈ cs, ∀ s ∈ c.statements, name ∉ s.writes))

theorem runVersions_tables {name : String} {i : Option Interruption} {version : Nat}
    {ms : List (Nat × List Command)} {db : Schema}
    (h : ∀ m ∈ ms, version < m.1 → Untouched name m.2) :
    (runVersions now i version ms db).left.tables name = db.tables name :=
  runVersions_left (R := fun db db' => db'.tables name = db.tables name) (fun _ => rfl)
    (fun h h' => h'.trans h)
    (fun m hm hversion c hc s hs _ _ hexec => Statement.exec_tables hexec (h m hm hversion c hc s hs))

theorem runMigrations_tables {name : String} {k : Nat} (hversion : k ≤ db.currentVersion)
    (h : ∀ m ∈ migrations, k < m.1 → Untouched name m.2)
    (hrun : runMigrations now none db = .ok final) : final.tables name = db.tables name := by
  have hkept : (runVersions now none db.currentVersion migrations db.opened).left.tables name =
      db.opened.tables name :=
    runVersions_tables fun m hm hlt => h m hm (by omega)
  rw [← runMigrations_none, hrun] at hkept
  exact hkept

/-- A migration that goes on with another table than it should is not repeated. -/
theorem Stage.not_resumes (h : Stage k cs before after) (hversion : db.currentVersion < k)
    (hx : x.migration = k) {name : String}
    (huntouched : ∀ m ∈ migrations, k < m.1 → Untouched name m.2)
    (hother : ∀ db₁ db₂, runVersions now none db.currentVersion before db.opened = .ok db₁ →
      runCommands now (fun _ => none) cs db₁ = .ok db₂ →
      ∃ db₃, runCommands now (singleFault x.command (some (x.statement, x.fault))) cs db₁ = .ok db₃ ∧
        k ≤ db₃.currentVersion ∧ db₃.tables name ≠ db₂.tables name) :
    ¬Resumes now db x := by
  rintro ⟨final, hrun, hagain⟩
  obtain ⟨db₁, db₂, hbefore, hcs, hafter⟩ := h.of_ok hversion hrun
  obtain ⟨db₃, hfaulted, hcurrent, hne⟩ := hother db₁ db₂ hbefore hcs
  have hcut : runMigrations now (some x) db = runVersions now none db.currentVersion after db₃ := by
    rw [runMigrations_of_ne (by omega), h.run hversion hx, hbefore]
    show (runCommands now (singleFault x.command (some (x.statement, x.fault))) cs db₁).bind _ = _
    rw [hfaulted]
    rfl
  rw [hcut] at hagain
  have hafter_untouched : ∀ m ∈ after, db.currentVersion < m.1 → Untouched name m.2 := fun m hm _ =>
    huntouched m (h.mem.2.2 m hm) (h.above m hm)
  have hkept : final.tables name = db₂.tables name := by
    have htables : (runVersions now none db.currentVersion after db₂).left.tables name =
        db₂.tables name := runVersions_tables hafter_untouched
    rwa [hafter] at htables
  refine hne ?_
  calc db₃.tables name
      = (runVersions now none db.currentVersion after db₃).left.tables name :=
        (runVersions_tables hafter_untouched).symm
    _ = final.tables name :=
        (runMigrations_tables (Nat.le_trans hcurrent runVersions_currentVersion_le) huntouched
          hagain).symm
    _ = db₂.tables name := hkept

/-- An interruption in a migration that is not run, or beyond the last, is none. -/
theorem resumes_elsewhere (hrun : runMigrations now none db = .ok final) (hx : x.migration ≠ 0)
    (h : x.migration ≤ db.currentVersion ∨ 9 < x.migration) : Resumes now db x := by
  refine resumes_of_same hrun ?_
  rw [runMigrations_of_ne hx, runMigrations_none]
  refine runVersions_elsewhere fun m hm hlt => ?_
  have hnine : ∀ m ∈ migrations, m.1 ≤ 9 := by simp [migrations]
  have := hnine m hm
  omega

end

/-! ## One statement at a time -/

/-- A command of one statement. -/
def Command.single : Command → Bool
  | .must _ => true
  | .attempt _ => true
  | _ => false

theorem Command.exec_single {c : Command} (hc : c.single = true) {statement : Nat}
    (h : statement ≠ 0) (fault : Fault) (db : Schema) :
    c.exec now (some (statement, fault)) db = c.exec now none db := by
  have hhits : FaultAt.hits (some (statement, fault)) 0 = none := by simp [FaultAt.hits, h]
  cases c with
  | must s => simp only [Command.exec, hhits, FaultAt.hits_none]
  | attempt s => simp only [Command.exec, hhits, FaultAt.hits_none]
  | unlessColumn table column => cases hc
  | renameLegacyUsers => cases hc
  | moveOldUsers => cases hc

theorem must_faulted (s : Statement) (fault : Fault) (db : Schema) :
    (Command.must s).exec now (some (0, fault)) db = .died db ∨
      (Command.must s).exec now (some (0, fault)) db = .stopped db := by
  cases fault with
  | dies => exact .inl rfl
  | fails => exact .inr rfl

/-- The first command has nothing to repeat. -/
theorem redoable_first {c : Command} {cs : List Command} {x : FaultAt} {db db' : Schema}
    (hc : c.exec now x db = c.exec now none db ∨ c.exec now x db = .died db ∨
      c.exec now x db = .stopped db)
    (hrun : runCommands now (fun _ => none) (c :: cs) db = .ok db') :
    Redoable now (c :: cs) (singleFault 0 x) db := by
  have hsame : ∀ db₁, runCommands now (fun _ => none) [] db = .ok db₁ → db₁ = db :=
    fun db₁ h => (Result.ok.inj h).symm
  have hlasting : Lasting (Command.done now) [] := ⟨by simp, .nil⟩
  rcases hc with h | h
  · exact redoable_of_same [] hrun fun db₁ hdb₁ => hsame db₁ hdb₁ ▸ h
  · exact redoable_of_left hlasting (by simp [NoRecord]) hrun fun db₁ hdb₁ => hsame db₁ hdb₁ ▸ h

/-- `CREATE TABLE IF NOT EXISTS` leaves the table that was there, or an empty one. -/
theorem createTable_tables {name : String} {columns : List Column} {db db' : Schema}
    (h : (Statement.createTable name columns).exec now db = some db') :
    db'.tables name = some ((db.tables name).getD ⟨columns, []⟩) ∧ db'.versions = db.versions := by
  simp only [Statement.exec] at h
  cases ht : db.tables name with
  | some t =>
      rw [ht] at h
      rw [← Option.some.inj h]
      exact ⟨ht, rfl⟩
  | none =>
      rw [ht] at h
      rw [← Option.some.inj h]
      exact ⟨Schema.set_tables_self db name _, rfl⟩

/-- A version is recorded wherever the same versions are. -/
theorem record_elsewhere {version : Nat} {db db' other : Schema}
    (h : (Statement.recordVersion version).exec now db = some db')
    (hversions : other.versions = db.versions) :
    ∃ recorded, runCommands now (fun _ => none) [.must (.recordVersion version)] other = .ok recorded ∧
      version ≤ recorded.currentVersion ∧ recorded.tables = other.tables := by
  obtain ⟨versions, hold, hnew, -⟩ := exec_recordVersion.mp h
  have hexec : (Statement.recordVersion version).exec now other =
      some { other with versions := some (versions ++ [version]) } :=
    exec_recordVersion.mpr ⟨versions, hversions.trans hold, hnew, rfl⟩
  refine ⟨_, Result.bind_eq_ok.mpr ⟨_, must_eq_ok.mpr hexec, rfl⟩, ?_, rfl⟩
  rw [currentVersion_of_record hexec]
  exact Nat.le_max_right ..

theorem record_tables {version : Nat} {db db' : Schema}
    (h : (Statement.recordVersion version).exec now db = some db') :
    db'.tables = db.tables := by
  obtain ⟨versions, -, -, rfl⟩ := exec_recordVersion.mp h
  rfl

end XYChat.Server.Migration
