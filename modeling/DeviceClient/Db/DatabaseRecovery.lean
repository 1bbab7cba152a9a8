import DeviceClient.Db.SchemaCompleteness

/-!
# The recovery of a damaged database

`Open` checks a file that it finds. Where the check fails, `Recover` first vacuums, then drops the
event table, and at last moves the file away and calls `Open` again, which may have to recover in
its turn. Behind it each `Open` that has not returned yet upgrades and creates what is open by
then.

A statement that finds the file corrupt removes it and ends the process. The statements of the
upgrade are all executed, as in `DatabaseUpgrade.openDatabase`.

* `openDatabase_idem`: the starts that follow the innermost change nothing more.
* `saved_open`: what has become of the database when `Open` returns.
* `open_ends_iff`: whether it returns, throws or ends the process.
-/

namespace DeviceClient

namespace DatabaseRecovery

open DatabaseUpgrade Lib

/-! ## The source -/

/-- How `SqliteExec` comes back; behind `SQLITE_CORRUPT` and `SQLITE_CANTOPEN` it does not. -/
inductive ExecResult where
  | ok
  | error
  | corrupt
deriving DecidableEq

/-- The answer of `CheckIntegrity`. -/
inductive Integrity where
  | passed
  | failed
  | corrupt
deriving DecidableEq

/-- What one call of `Open`, with its `Recover`, gets from outside: `sqlite3_open`, the check of
the file, the vacuum with the check behind it, `DROP TABLE` with the check behind it, and the
results of `Move` and of `Remove`. -/
structure Attempt where
  opened : Bool
  found : Integrity
  vacuum : ExecResult
  vacuumed : Integrity
  drop : ExecResult
  dropped : Integrity
  moved : Bool
  removed : Bool

/-- The database file, and `m_strDBPath` with `.bk`. -/
structure Disk where
  file : Option Database
  backup : Option Database

/-- How `Recover` goes on: the open database is good, it is given up, or the process ends. -/
inductive Recovery where
  | recovered (d : Database)
  | given (d : Database)
  | corrupt (d : Database)

/-- `CreateEventStoreTable`. -/
def createEvents (d : Database) : Database :=
  d.set .eventStore (some ⟨createColumns .eventStore, []⟩)

/-- `DROP TABLE EVENT_STORE` and what follows. A table that is not there is created by
`CheckAndCreateTable`, and the statement has failed. -/
def dropEvents (a : Attempt) (d : Database) : Recovery :=
  match a.drop with
  | .corrupt => .corrupt d
  | .error => .given (if (d.tables .eventStore).isNone then createEvents d else d)
  | .ok =>
    if (d.tables .eventStore).isNone then .given (createEvents d)
    else
      match a.dropped with
      | .passed => .recovered (d.set .eventStore none)
      | .failed => .given (d.set .eventStore none)
      | .corrupt => .corrupt (d.set .eventStore none)

/-- `Recover`, up to `Backup`. -/
def recover (a : Attempt) (d : Database) : Recovery :=
  match a.vacuum with
  | .corrupt => .corrupt d
  | .error => dropEvents a d
  | .ok =>
    match a.vacuumed with
    | .passed => .recovered d
    | .failed => dropEvents a d
    | .corrupt => .corrupt d

/-- `CheckIntegrity`, and `Recover` where it fails. -/
def checkAndRecover (a : Attempt) (d : Database) : Recovery :=
  match a.found with
  | .passed => .recovered d
  | .failed => recover a d
  | .corrupt => .corrupt d

/-- `Backup` of the database that was given up. -/
def Disk.moveAway (s : Disk) (bMoved : Bool) (d : Database) : Disk :=
  if bMoved then ⟨none, some d⟩ else ⟨some d, s.backup⟩

/-- `Remove` of the database that is open. -/
def Disk.remove (s : Disk) (bRemoved : Bool) (d : Database) : Disk :=
  if bRemoved then ⟨none, s.backup⟩ else ⟨some d, s.backup⟩

/-- How a call of `Open` ends. -/
inductive Outcome where
  | returned (s : Disk)
  | thrown (s : Disk)
  | exited (s : Disk)

variable (env : UpgradeEnv)

/-- `CheckVersion` and `OnCreate` on the file that is open; without a file, on a new one. -/
def Disk.start (s : Disk) : Disk := ⟨some (openDatabase env s.file), s.backup⟩

/-- What is behind a call of `Recover` that has called `Open`. -/
def Outcome.andStart : Outcome → Outcome
  | .returned s => .returned (s.start env)
  | .thrown s => .thrown s
  | .exited s => .exited s

/-- `Open`, with so many calls of it inside at most; `n` have been made around it. -/
def openFile (attempts : ℕ → Attempt) : ℕ → ℕ → Disk → Option Outcome
  | 0, _, _ => none
  | fuel + 1, n, s =>
    if (attempts n).opened then
      match s.file with
      | none => some (.returned (s.start env))
      | some d =>
        match checkAndRecover (attempts n) d with
        | .corrupt d' => some (.exited (s.remove (attempts n).removed d'))
        | .recovered d' => some (.returned (Disk.start env ⟨some d', s.backup⟩))
        | .given d' =>
          (openFile attempts fuel (n + 1) (s.moveAway (attempts n).moved d')).map
            (Outcome.andStart env)
    else some (.thrown s)

/-! ## The start of a database that is up to date -/

variable {env}

theorem eq_of_tables {d d' : Database} (htables : ∀ t, d.tables t = d'.tables t)
    (hversion : d.version = d'.version) : d = d' := by
  cases d
  cases d'
  rw [Database.mk.injEq]
  exact ⟨funext htables, hversion⟩

/-- A table that is there, or as it is created. -/
def created (d : Database) (t : TableName) : SqlTable := (d.tables t).getD ⟨createColumns t, []⟩

theorem createTable_tables (t t' : TableName) (s : Logged Database) :
    (createTable t Faulty.never s).2.state.tables t' =
      if t' = t then some (created s.state t) else s.state.tables t' := by
  show (if (s.state.tables t).isNone then s.state.set t (some ⟨createColumns t, []⟩)
    else s.state).tables t' = _
  unfold created
  by_cases ht : t' = t
  · rw [if_pos ht, ht]
    cases htable : s.state.tables t with
    | none => exact Function.update_self _ _ _
    | some table => exact htable
  · rw [if_neg ht]
    split_ifs
    · exact Function.update_of_ne ht _ _
    · rfl

theorem createTables_tables (ts : List TableName) (s : Logged Database) (t : TableName) :
    (createTables ts Faulty.never s).2.state.tables t =
      if t ∈ ts then some (created s.state t) else s.state.tables t := by
  induction ts generalizing s with
  | nil => exact (if_neg List.not_mem_nil).symm
  | cons t' ts ih =>
    refine (ih (createTable t' Faulty.never s).2).trans ?_
    unfold created
    rw [createTable_tables]
    by_cases ht : t = t'
    · rw [if_pos ht, if_pos (List.mem_cons.2 (Or.inl ht)), Option.getD_some, ht]
      exact ite_self _
    · rw [if_neg ht]
      simp only [List.mem_cons, ht, false_or]

theorem createInTransaction_tables (s : Logged Database) (t : TableName) :
    (createInTransaction env Faulty.never s).2.state.tables t =
      if t ∈ usedTables env then some (created s.state t) else s.state.tables t := by
  have hend : createInTransaction env Faulty.never s = ((), (onCreate env Faulty.never s).2) := by
    show endTransaction s.state (onCreate env Faulty.never s).1 Faulty.never _ = _
    unfold onCreate
    rw [(createTables_spec (usedTables env) s).1]
    rfl
  rw [hend]
  exact createTables_tables (usedTables env) s t

/-- From the current version on, a start creates what is missing and does nothing else. -/
theorem openDatabase_of_current {d : Database} (h : DB_VERSION ≤ d.version) :
    (openDatabase env (some d)).version = d.version ∧
      ∀ t, (openDatabase env (some d)).tables t =
        if t ∈ usedTables env then some (created d t) else d.tables t := by
  have hcheck : (checkVersion env true Faulty.never ⟨d, []⟩).2.state = d := checkVersion_of_le env h
  constructor
  · refine (createInTransaction_spec env (checkVersion env true Faulty.never ⟨d, []⟩).2).1.trans ?_
    rw [hcheck]
  · intro t
    refine (createInTransaction_tables (checkVersion env true Faulty.never ⟨d, []⟩).2 t).trans ?_
    rw [hcheck]

theorem le_version_openDatabase (d : Option Database) :
    DB_VERSION ≤ (openDatabase env d).version := by
  cases d with
  | none => exact le_refl _
  | some d =>
    rcases le_total d.version DB_VERSION with hle | hle
    · rw [openDatabase_version env fun x hx => Option.some.inj hx ▸ hle]
    · rwa [(openDatabase_of_current hle).1]

theorem isSome_openDatabase (d : Option Database) {t : TableName} (ht : t ∈ usedTables env) :
    ((openDatabase env d).tables t).isSome = true := by
  have hcolumns : ∃ columns, (openDatabase env d).columns t = some columns := by
    cases d with
    | none =>
      rcases complete_new env t ht with ⟨columns, hcolumns, _⟩
      exact ⟨columns, hcolumns⟩
    | some d => exact ⟨_, openExisting_columns env d t ht⟩
  rcases hcolumns with ⟨columns, hcolumns⟩
  rcases Option.map_eq_some_iff.1 hcolumns with ⟨table, htable, _⟩
  rw [htable]
  rfl

/-- A second start changes nothing. -/
theorem openDatabase_idem (d : Option Database) :
    openDatabase env (some (openDatabase env d)) = openDatabase env d := by
  rcases @openDatabase_of_current env _ (le_version_openDatabase d) with ⟨hversion, htables⟩
  refine eq_of_tables (fun t => ?_) hversion
  rw [htables t]
  by_cases ht : t ∈ usedTables env
  · rcases Option.isSome_iff_exists.1 (isSome_openDatabase d ht) with ⟨table, htable⟩
    rw [if_pos ht, created, htable]
    rfl
  · rw [if_neg ht]

/-! ## What is left of a database -/

/-- As it was, or without the events: their table is gone or empty. -/
def LessEvents (d d' : Database) : Prop :=
  d' = d ∨ ∃ table, (table = none ∨ table = some ⟨createColumns .eventStore, []⟩) ∧
    d' = d.set .eventStore table

theorem lessEvents_trans {d d' d'' : Database} (h : LessEvents d d') (h' : LessEvents d' d'') :
    LessEvents d d'' := by
  rcases h' with rfl | ⟨table, htable, rfl⟩
  · exact h
  rcases h with rfl | ⟨table', _, rfl⟩
  · exact Or.inr ⟨table, htable, rfl⟩
  · right
    refine ⟨table, htable, ?_⟩
    unfold Database.set
    rw [Function.update_idem]

/-- The database that `Recover` goes on with. -/
def Recovery.database : Recovery → Database
  | .recovered d | .given d | .corrupt d => d

theorem lessEvents_dropEvents (a : Attempt) (d : Database) :
    LessEvents d (dropEvents a d).database := by
  have hcreate : LessEvents d (createEvents d) := Or.inr ⟨_, Or.inr rfl, rfl⟩
  have hdrop : LessEvents d (d.set .eventStore none) := Or.inr ⟨_, Or.inl rfl, rfl⟩
  unfold dropEvents
  cases a.drop with
  | corrupt => exact Or.inl rfl
  | error =>
    show LessEvents d (if (d.tables .eventStore).isNone then createEvents d else d)
    split_ifs
    · exact hcreate
    · exact Or.inl rfl
  | ok =>
    dsimp only
    split_ifs
    · exact hcreate
    · cases a.dropped with
      | passed => exact hdrop
      | failed => exact hdrop
      | corrupt => exact hdrop

theorem lessEvents_checkAndRecover (a : Attempt) (d : Database) :
    LessEvents d (checkAndRecover a d).database := by
  unfold checkAndRecover
  cases a.found with
  | passed => exact Or.inl rfl
  | corrupt => exact Or.inl rfl
  | failed =>
    dsimp only
    unfold recover
    cases a.vacuum with
    | corrupt => exact Or.inl rfl
    | error => exact lessEvents_dropEvents a d
    | ok =>
      cases a.vacuumed with
      | passed => exact Or.inl rfl
      | corrupt => exact Or.inl rfl
      | failed => exact lessEvents_dropEvents a d

variable (env) in
/-- What a call of `Open` leaves of a database and of the file with `.bk`. -/
def Outcome.Keeps (found : Database) (backup : Option Database) : Outcome → Prop
  | .returned s => ∃ d, LessEvents found d ∧
      (s = ⟨some (openDatabase env (some d)), backup⟩ ∨ s = ⟨some (openDatabase env none), some d⟩)
  | .thrown s => ∃ d, LessEvents found d ∧ (s = ⟨some d, backup⟩ ∨ s = ⟨none, some d⟩)
  | .exited s => ∃ d, LessEvents found d ∧ (s = ⟨some d, backup⟩ ∨ s = ⟨none, backup⟩)

/-- The outer calls add nothing to it. -/
theorem keeps_andStart {found d : Database} {backup : Option Database} {o : Outcome}
    (hless : LessEvents found d) (h : o.Keeps env d backup) :
    (o.andStart env).Keeps env found backup := by
  cases o with
  | returned s =>
    rcases h with ⟨d', hless', rfl | rfl⟩
    · refine ⟨d', lessEvents_trans hless hless', Or.inl ?_⟩
      show (⟨some (openDatabase env (some (openDatabase env (some d')))), backup⟩ : Disk) = _
      rw [openDatabase_idem]
    · refine ⟨d', lessEvents_trans hless hless', Or.inr ?_⟩
      show (⟨some (openDatabase env (some (openDatabase env none))), some d'⟩ : Disk) = _
      rw [openDatabase_idem]
  | thrown s =>
    rcases h with ⟨d', hless', hs⟩
    exact ⟨d', lessEvents_trans hless hless', hs⟩
  | exited s =>
    rcases h with ⟨d', hless', hs⟩
    exact ⟨d', lessEvents_trans hless hless', hs⟩

variable {attempts : ℕ → Attempt}

/-- `Open` where the file has just been moved away. -/
theorem openFile_moved {fuel n : ℕ} {d : Database} {o : Outcome}
    (h : openFile env attempts fuel n ⟨none, some d⟩ = some o) :
    o = .returned ⟨some (openDatabase env none), some d⟩ ∨ o = .thrown ⟨none, some d⟩ := by
  cases fuel with
  | zero => cases h
  | succ fuel =>
    unfold openFile at h
    by_cases hopened : (attempts n).opened = true
    · rw [if_pos hopened] at h
      cases h
      exact Or.inl rfl
    · rw [if_neg hopened] at h
      cases h
      exact Or.inr rfl

theorem keeps_openFile {fuel n : ℕ} {found : Database} {backup : Option Database} {o : Outcome}
    (h : openFile env attempts fuel n ⟨some found, backup⟩ = some o) :
    o.Keeps env found backup := by
  induction fuel generalizing n found o with
  | zero => cases h
  | succ fuel ih =>
    have hless := lessEvents_checkAndRecover (attempts n) found
    unfold openFile at h
    by_cases hopened : (attempts n).opened = true
    swap
    · rw [if_neg hopened] at h
      cases h
      exact ⟨found, Or.inl rfl, Or.inl rfl⟩
    rw [if_pos hopened] at h
    dsimp only at h
    cases hrecover : checkAndRecover (attempts n) found with
    | recovered d =>
      rw [hrecover] at h hless
      cases h
      exact ⟨d, hless, Or.inl rfl⟩
    | corrupt d =>
      rw [hrecover] at h hless
      cases h
      refine ⟨d, hless, ?_⟩
      unfold Disk.remove
      split_ifs
      · exact Or.inr rfl
      · exact Or.inl rfl
    | given d =>
      rw [hrecover] at h hless
      rcases Option.map_eq_some_iff.1 h with ⟨o', hinner, rfl⟩
      refine keeps_andStart hless ?_
      unfold Disk.moveAway at hinner
      by_cases hmoved : (attempts n).moved = true
      · -- the inner call finds no file
        rw [if_pos hmoved] at hinner
        rcases openFile_moved hinner with rfl | rfl
        · exact ⟨d, Or.inl rfl, Or.inr rfl⟩
        · exact ⟨d, Or.inl rfl, Or.inr rfl⟩
      · -- the inner call finds what is left of the database
        rw [if_neg hmoved] at hinner
        exact ih hinner

/-! ## Calls that come to an end -/

/-- The recovery fails in every way, and the file cannot be moved. -/
structure Stuck (a : Attempt) (d : Database) : Prop where
  opened : a.opened = true
  found : a.found = .failed
  vacuum : a.vacuum = .error ∨ (a.vacuum = .ok ∧ a.vacuumed = .failed)
  drop : a.drop = .error ∨
    (a.drop = .ok ∧ ((d.tables .eventStore).isNone = true ∨ a.dropped = .failed))
  moved : a.moved = false

theorem dropEvents_given_iff (a : Attempt) (d : Database) :
    (∃ d', dropEvents a d = .given d') ↔ a.drop = .error ∨
      (a.drop = .ok ∧ ((d.tables .eventStore).isNone = true ∨ a.dropped = .failed)) := by
  unfold dropEvents
  cases a.drop with
  | corrupt => simp
  | error => simp
  | ok =>
    by_cases hnone : (d.tables .eventStore).isNone = true
    · simp [hnone]
    · cases a.dropped with
      | passed => simp [hnone]
      | failed => simp [hnone]
      | corrupt => simp [hnone]

theorem checkAndRecover_given_iff (a : Attempt) (d : Database) :
    (∃ d', checkAndRecover a d = .given d') ↔ a.found = .failed ∧
      (a.vacuum = .error ∨ (a.vacuum = .ok ∧ a.vacuumed = .failed)) ∧
      (a.drop = .error ∨
        (a.drop = .ok ∧ ((d.tables .eventStore).isNone = true ∨ a.dropped = .failed))) := by
  rw [← dropEvents_given_iff]
  unfold checkAndRecover recover
  cases a.found with
  | passed => simp
  | corrupt => simp
  | failed =>
    cases a.vacuum with
    | corrupt => simp
    | error => simp
    | ok =>
      cases a.vacuumed with
      | passed => simp
      | failed => simp
      | corrupt => simp

/-- A call that is stuck calls `Open` on what it has left of the database. -/
theorem openFile_stuck {n : ℕ} {d : Database} (h : Stuck (attempts n) d) (fuel : ℕ)
    (backup : Option Database) :
    openFile env attempts (fuel + 1) n ⟨some d, backup⟩ =
      (openFile env attempts fuel (n + 1)
        ⟨some (checkAndRecover (attempts n) d).database, backup⟩).map (Outcome.andStart env) := by
  rcases (checkAndRecover_given_iff (attempts n) d).2 ⟨h.found, h.vacuum, h.drop⟩ with
    ⟨d', hgiven⟩
  rw [openFile, if_pos h.opened]
  dsimp only
  rw [hgiven]
  dsimp only [Recovery.database]
  rw [Disk.moveAway, h.moved]
  rfl

/-- Any other call ends, at the latest with the `Open` that finds no file. -/
theorem openFile_of_not_stuck {n : ℕ} {d : Database} (h : ¬ Stuck (attempts n) d)
    (backup : Option Database) :
    ∃ o, openFile env attempts 2 n ⟨some d, backup⟩ = some o := by
  rw [openFile]
  by_cases hopened : (attempts n).opened = true
  swap
  · rw [if_neg hopened]
    exact ⟨_, rfl⟩
  rw [if_pos hopened]
  dsimp only
  cases hrecover : checkAndRecover (attempts n) d with
  | recovered d' => exact ⟨_, rfl⟩
  | corrupt d' => exact ⟨_, rfl⟩
  | given d' =>
    rcases (checkAndRecover_given_iff (attempts n) d).1 ⟨d', hrecover⟩ with
      ⟨hfound, hvacuum, hdrop⟩
    have hmoved : (attempts n).moved = true := by
      rw [← Bool.not_eq_false]
      exact fun hmoved => h ⟨hopened, hfound, hvacuum, hdrop, hmoved⟩
    -- the file has been moved away, so the call inside finds none
    dsimp only
    rw [Disk.moveAway, hmoved, openFile]
    by_cases hnext : (attempts (n + 1)).opened = true
    · rw [if_pos hnext]
      exact ⟨_, rfl⟩
    · rw [if_neg hnext]
      exact ⟨_, rfl⟩

/-- What the `n`-th call inside finds, as long as no move succeeds. -/
def foundBy (attempts : ℕ → Attempt) (found : Database) : ℕ → Database
  | 0 => found
  | n + 1 => (checkAndRecover (attempts n) (foundBy attempts found n)).database

theorem openFile_of_all_stuck {found : Database} {backup : Option Database}
    (h : ∀ n, Stuck (attempts n) (foundBy attempts found n)) (fuel n : ℕ) :
    openFile env attempts fuel n ⟨some (foundBy attempts found n), backup⟩ = none := by
  induction fuel generalizing n with
  | zero => rfl
  | succ fuel ih =>
    rw [openFile_stuck (h n)]
    exact congrArg _ (ih (n + 1))

theorem openFile_ends {found : Database} {backup : Option Database} (k n : ℕ)
    (h : ¬ Stuck (attempts (n + k)) (foundBy attempts found (n + k))) :
    ∃ fuel o, openFile env attempts fuel n ⟨some (foundBy attempts found n), backup⟩ = some o := by
  induction k generalizing n with
  | zero => exact ⟨2, openFile_of_not_stuck h backup⟩
  | succ k ih =>
    by_cases hstuck : Stuck (attempts n) (foundBy attempts found n)
    · rw [Nat.add_comm k 1, ← Nat.add_assoc] at h
      rcases ih (n + 1) h with ⟨fuel, o, hinner⟩
      refine ⟨fuel + 1, o.andStart env, ?_⟩
      rw [openFile_stuck hstuck]
      exact congrArg _ hinner
    · exact ⟨2, openFile_of_not_stuck hstuck backup⟩

/-! ## A start on a damaged file -/

theorem tables_of_lessEvents {d d' : Database} (h : LessEvents d d') {t : TableName}
    (ht : t ≠ .eventStore) : d'.tables t = d.tables t := by
  rcases h with rfl | ⟨table, _, rfl⟩
  · rfl
  · exact Function.update_of_ne ht _ _

theorem version_of_lessEvents {d d' : Database} (h : LessEvents d d') :
    d'.version = d.version := by
  rcases h with rfl | ⟨table, _, rfl⟩
  · rfl
  · rfl

/-- Without the events there is not more to repair. -/
theorem repairs_of_lessEvents {d d' : Database} (hless : LessEvents d d')
    (h : Repairs ⟨some d, none⟩ env) : Repairs ⟨some d', none⟩ env := by
  rintro _ ⟨⟩ t ht columns hcolumns
  by_cases hevents : t = .eventStore
  · rcases hless with rfl | ⟨table, htable, rfl⟩
    · exact h _ rfl t ht columns hcolumns
    · rw [hevents, Database.columns, Database.set] at hcolumns
      rcases htable with rfl | rfl
      · simp at hcolumns
      · have hcreated : createColumns .eventStore = columns := by simpa using hcolumns
        rw [hevents, ← hcreated]
        exact (TableEffect.result_createColumns ((onUpgrade_effect env d.version).fits _)).ge
  · have hsame : d.columns t = some columns := by
      rw [← hcolumns, Database.columns, Database.columns, tables_of_lessEvents hless hevents]
    rw [version_of_lessEvents hless]
    exact h d rfl t ht columns hsame

/-- However `Open` ends, no table but that of the events is lost: what was found is in the file,
in the one with `.bk`, or, where the file was corrupt, removed. Where `Open` returns, the tables
in use are complete if an undamaged start would have completed them, and the rows of the current
version are there or in the file with `.bk`. -/
theorem open_keeps {fuel : ℕ} {found : Database} {backup : Option Database} {o : Outcome}
    (h : openFile env attempts fuel 0 ⟨some found, backup⟩ = some o) :
    o.Keeps env found backup ∧
    ∀ s, o = .returned s → ∃ d, s.file = some d ∧
      (Repairs ⟨some found, none⟩ env → Complete env d) ∧
      (found.version = DB_VERSION →
        (∀ t table, t ≠ .eventStore → found.tables t = some table → d.tables t = some table) ∨
        ∃ kept, s.backup = some kept ∧ ∀ t, t ≠ .eventStore → kept.tables t = found.tables t) := by
  have hkeeps := keeps_openFile h
  refine ⟨hkeeps, ?_⟩
  rintro s rfl
  rcases hkeeps with ⟨d, hless, rfl | rfl⟩
  · refine ⟨_, rfl, ?_, ?_⟩
    · intro hrepairs
      exact (complete_existing_iff env d).2 (repairs_of_lessEvents hless hrepairs)
    · intro hversion
      left
      intro t table ht htable
      have hcurrent : DB_VERSION ≤ d.version := by
        rw [version_of_lessEvents hless, hversion]
      rw [← tables_of_lessEvents hless ht] at htable
      rw [(openDatabase_of_current hcurrent).2 t, created, htable]
      exact ite_self _
  · refine ⟨_, rfl, fun _ => complete_new env, fun _ => Or.inr ⟨d, rfl, fun t ht => ?_⟩⟩
    exact tables_of_lessEvents hless ht

/-- A file on which all repairs fail, and which can be moved away. -/
def beyondRepair (_ : ℕ) : Attempt where
  opened := true
  found := .failed
  vacuum := .error
  vacuumed := .failed
  drop := .error
  dropped := .failed
  moved := true
  removed := true

theorem open_keeps_beyondRepair : ∃ o,
    openFile batchOnly beyondRepair 2 0 ⟨some version8, none⟩ = some o ∧
      o.Keeps batchOnly version8 none := by
  have hopen : ∃ o, openFile batchOnly beyondRepair 2 0 ⟨some version8, none⟩ = some o :=
    openFile_of_not_stuck (fun h => absurd h.moved (by decide)) none
  rcases hopen with ⟨o, hopen⟩
  exact ⟨o, hopen, (open_keeps hopen).1⟩

/-- `Open` comes to an end iff one of the calls inside it gets a database that passes, or moves
the file away, or is stopped. Else they call each other without end. -/
theorem open_ends_iff (found : Database) (backup : Option Database) :
    (∃ fuel o, openFile env attempts fuel 0 ⟨some found, backup⟩ = some o) ↔
      ∃ n, ¬ Stuck (attempts n) (foundBy attempts found n) := by
  constructor
  · rintro ⟨fuel, o, hopen⟩
    by_contra hnone
    have hstuck : ∀ n, Stuck (attempts n) (foundBy attempts found n) := by
      intro n
      by_contra hn
      exact hnone ⟨n, hn⟩
    have hnever : openFile env attempts fuel 0 ⟨some found, backup⟩ = none :=
      openFile_of_all_stuck hstuck fuel 0
    rw [hnever] at hopen
    cases hopen
  · rintro ⟨n, hn⟩
    rw [← Nat.zero_add n] at hn
    exact openFile_ends n 0 hn

end DatabaseRecovery

end DeviceClient
