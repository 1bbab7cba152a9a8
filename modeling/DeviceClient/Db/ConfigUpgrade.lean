import DeviceClient.Config.ConfigUpdate
import DeviceClient.Db.LocalConfig

/-!
# Configuration updates in an upgrade

Before version 17 the parameters of configuration updates were one text of the local
configuration: an array of objects. `UpgradeVersionFrom16To17` writes a row of the settings
table for every member of every element, and deletes the text when the last row was inserted.

* `upgrade_cloudRows`: the upgrade leaves the rows that are read later.
* `Preserved`: the parameters are read later, and the text is deleted only when all are stored.
* `preserved_iff`: when that holds.
-/

namespace DeviceClient

open JsonText SettingsStore IgniteConfig

namespace ConfigUpgrade

/-! ## Model -/

/-- The two tables; the statements of both are counted together. -/
structure UpgradeDb where
  localConfig : LocalConfigTable
  settings : SettingsDb
  nextId : ℕ

/-- `KEY_DB_CONFIG`. -/
def keyDbConfig : String := "configUpdate"

variable (dbl : DoubleText) (sqlite : Sqlite)

/-- `CDatabase::Insert` into the settings table. -/
def insert (data : ColumnTexts) (s : UpgradeDb) : ℤ × UpgradeDb :=
  let r := s.settings.exec sqlite (.insert data)
  if r.1 then (s.nextId, ⟨s.localConfig, r.2, s.nextId + 1⟩)
  else (-1, ⟨s.localConfig, r.2, s.nextId⟩)

/-- The row of one member: the text of it is the whole element. -/
def parameterTexts (rjsonParameter : JsonValue) (strPath : String) : ColumnTexts :=
  settingTexts keyDbConfig strPath (write dbl rjsonParameter)

/-- The inserts with `nStatus`; an id is cut to 32 bits. -/
def insertNext (st : ℤ × UpgradeDb) (data : ColumnTexts) : ℤ × UpgradeDb :=
  let r := insert sqlite data st.2
  (Lib.toInt32 r.1, r.2)

def processSettingStoreConfigValue (rjsonConfigValue : List JsonValue) (s : UpgradeDb) :
    ℤ × UpgradeDb :=
  -- each insert overwrites the status of the one before
  rjsonConfigValue.foldl
    (fun st rjsonParameter => (iteratorPairs rjsonParameter).foldl
      (fun st itr => insertNext sqlite st (parameterTexts dbl rjsonParameter itr.1)) st)
    (0, s)

/-- A statement on the local configuration was run. -/
def ran (s : UpgradeDb) : UpgradeDb :=
  { s with settings := ⟨s.settings.rows, s.settings.statements + 1⟩ }

/-- `DELETE FROM LocalConfig WHERE key ='configUpdate'`. -/
def deleteEntry (s : UpgradeDb) : UpgradeDb :=
  if sqlite.fails s.settings.statements then ran s
  else { ran s with localConfig := (s.localConfig.remove keyDbConfig fun r => r.key = keyDbConfig).2 }

/-- `UpgradeVersionFrom16To17`; `none` is an exception of the reader. -/
def upgradeVersionFrom16To17 (s : UpgradeDb) : Option UpgradeDb :=
  let pCursor := if sqlite.fails s.settings.statements then none
    else s.localConfig.query keyDbConfig fun r => r.key = keyDbConfig
  match pCursor with
  | some (r :: _) =>
    match parse dbl r.value with
    | .error .stackLimit => none
    -- a text that does not parse is kept, and skipped for good
    | .error .syntaxError => some (ran s)
    | .ok (.array elements) =>
      let st := processSettingStoreConfigValue dbl sqlite elements (ran s)
      some (if 0 < st.1 then deleteEntry sqlite st.2 else st.2)
    | .ok _ => some (ran s)
  | _ => some (ran s)

/-! ## What it is for -/

/-- The parameters with their values; a later element overrides an earlier one. -/
def storedPairs (elements : List JsonValue) : List (String × JsonValue) :=
  (elements.flatMap iteratorPairs).foldl (fun m p => Lib.setKey p.1 p.2 m) []

/-- The rows to insert, one for every parameter. -/
def parameterRows (elements : List JsonValue) : List ColumnTexts :=
  elements.flatMap fun rjsonParameter =>
    (iteratorPairs rjsonParameter).map fun itr => parameterTexts dbl rjsonParameter itr.1

/-- What the inserts return, in turn. -/
def outcomes : List ColumnTexts → UpgradeDb → List ℤ
  | [], _ => []
  | data :: rest, s =>
    let r := insert sqlite data s
    r.1 :: outcomes rest r.2

/-- The parameters are what `GetAllConfigUpdateSettings` returns whenever its query does not
fail, and the text is gone only if no insert failed. -/
structure Preserved (elements : List JsonValue) (s s' : UpgradeDb) : Prop where
  readBack : ∀ reading : Sqlite, reading.fails s'.settings.statements = false →
    ∃ bAvailable, (getAllConfigUpdateSettings dbl reading s'.settings).1 =
      some (bAvailable, storedPairs elements)
  deleted : s'.localConfig.toMap keyDbConfig = none →
    ∀ nId ∈ outcomes sqlite (parameterRows dbl elements) (ran s), nId ≠ -1

/-- The rows that are read later: those of the updates from the cloud. -/
def cloudRows (rows : List SettingRow) : List SettingRow :=
  serviceRows (getConfigUpdateSourceInString .cloudConfigUpdate) rows

/-- An insert whose texts have quotes may store another text, or be rejected; it leaves the
rows of the updates from the cloud. -/
def Quiet (sqlite : Sqlite) : Prop :=
  ∀ data rows, ¬ PlainTexts data →
    cloudRows (sqlite.brokenExec (.insert data) rows).2 = cloudRows rows

/-- The rows that are there already give the parameters, and the text is not deleted behind an
insert that failed. -/
structure Condition (elements : List JsonValue) (s : UpgradeDb) : Prop where
  alreadyThere : configSettings dbl (cloudRows s.settings.rows) = some (storedPairs elements)
  noneLost : sqlite.fails s.settings.statements = true ∨
    (∀ nId ∈ outcomes sqlite (parameterRows dbl elements) (ran s), nId ≠ -1) ∨
    ¬ 0 < Lib.toInt32 ((outcomes sqlite (parameterRows dbl elements) (ran s)).getLastD 0) ∨
    sqlite.fails (s.settings.statements + 1 + (parameterRows dbl elements).length) = true

/-! ## The inserts -/

variable {dbl} {sqlite} {s : UpgradeDb}

theorem insert_statements (data : ColumnTexts) :
    (insert sqlite data s).2.settings.statements = s.settings.statements + 1 := by
  unfold insert
  dsimp only
  split <;> exact SettingsDb.exec_statements _

theorem insert_localConfig (data : ColumnTexts) :
    (insert sqlite data s).2.localConfig = s.localConfig := by
  unfold insert
  dsimp only
  split <;> rfl

theorem insert_rows (data : ColumnTexts) :
    (insert sqlite data s).2.settings.rows = (s.settings.exec sqlite (.insert data)).2.rows := by
  unfold insert
  dsimp only
  split <;> rfl

/-- The rows of the upgrade are of another service. -/
theorem cloudRows_exec (hquiet : Quiet sqlite) {data : ColumnTexts}
    (hid : data.lookup .settingId = some keyDbConfig) (db : SettingsDb) :
    cloudRows (db.exec sqlite (.insert data)).2.rows = cloudRows db.rows := by
  cases hfails : sqlite.fails db.statements with
  | true => rw [SettingsDb.exec_of_fails hfails]
  | false =>
    by_cases hplain : PlainTexts data
    · rw [@SettingsDb.exec_of_plain sqlite db (.insert data) hplain hfails]
      have hrow : SqlStatement.assign data SqlStatement.defaultRow .settingId = keyDbConfig := by
        unfold SqlStatement.assign
        rw [hid]
        rfl
      show serviceRows _ (db.rows ++ [SqlStatement.assign data SqlStatement.defaultRow]) = _
      unfold serviceRows
      rw [List.filter_append, List.filter_cons_of_neg, List.filter_nil, List.append_nil]
      · rfl
      · rw [decide_eq_true_iff, selects_singleton, hrow]
        decide
    · rw [@SettingsDb.exec_of_broken sqlite db (.insert data) hplain hfails]
      exact hquiet data db.rows hplain

/-- The inserts in turn. -/
def insertAll (rows : List ColumnTexts) (st : ℤ × UpgradeDb) : ℤ × UpgradeDb :=
  rows.foldl (insertNext sqlite) st

theorem processSettingStoreConfigValue_eq (elements : List JsonValue) :
    processSettingStoreConfigValue dbl sqlite elements s =
      @insertAll sqlite (parameterRows dbl elements) (0, s) := by
  unfold processSettingStoreConfigValue insertAll parameterRows
  rw [List.foldl_flatMap]
  congr 1
  funext st rjsonParameter
  rw [List.foldl_map]

theorem insertAll_status (rows : List ColumnTexts) (n : ℤ) :
    (@insertAll sqlite rows (Lib.toInt32 n, s)).1 =
      Lib.toInt32 ((outcomes sqlite rows s).getLastD n) := by
  induction rows generalizing n s with
  | nil => rfl
  | cons data rows ih =>
    unfold outcomes
    -- the status of the first insert is overwritten by the rest
    rw [List.getLastD_cons]
    exact ih (insert sqlite data s).1

/-- What the inserts leave: the local configuration, and the rows from the cloud. -/
theorem insertAll_frame (hquiet : Quiet sqlite) {rows : List ColumnTexts}
    (hid : ∀ data ∈ rows, data.lookup SettingColumn.settingId = some keyDbConfig)
    (st : ℤ × UpgradeDb) :
    (@insertAll sqlite rows st).2.localConfig = st.2.localConfig ∧
      (@insertAll sqlite rows st).2.settings.statements =
        st.2.settings.statements + rows.length ∧
      cloudRows (@insertAll sqlite rows st).2.settings.rows = cloudRows st.2.settings.rows := by
  induction rows generalizing st with
  | nil => exact ⟨rfl, rfl, rfl⟩
  | cons data rows ih =>
    rcases ih (fun d hd => hid d (List.mem_cons_of_mem _ hd)) (insertNext sqlite st data) with
      ⟨hconfig, hstatements, hrows⟩
    refine ⟨?_, ?_, ?_⟩
    · exact hconfig.trans (insert_localConfig data)
    · refine hstatements.trans ?_
      show (insert sqlite data st.2).2.settings.statements + _ = _
      rw [insert_statements, List.length_cons]
      omega
    · refine hrows.trans ?_
      show cloudRows (insert sqlite data st.2).2.settings.rows = _
      rw [insert_rows, cloudRows_exec hquiet (hid data List.mem_cons_self)]

theorem settingId_parameterRows (elements : List JsonValue) :
    ∀ data ∈ parameterRows dbl elements,
      data.lookup SettingColumn.settingId = some keyDbConfig := by
  intro data hdata
  rcases List.mem_flatMap.1 hdata with ⟨rjsonParameter, -, hmap⟩
  rcases List.mem_map.1 hmap with ⟨itr, -, rfl⟩
  rfl

/-! ## The upgrade -/

theorem nulFree_keyDbConfig : NulFree keyDbConfig := by decide

/-- The upgrade with an array that is found and read. -/
theorem upgrade_of_array {strValue : String} {elements : List JsonValue}
    (hstored : s.localConfig.toMap keyDbConfig = some strValue)
    (hparse : parse dbl strValue = .ok (.array elements))
    (hquery : sqlite.fails s.settings.statements = false) :
    upgradeVersionFrom16To17 dbl sqlite s =
      some (if 0 < (processSettingStoreConfigValue dbl sqlite elements (ran s)).1
        then deleteEntry sqlite (processSettingStoreConfigValue dbl sqlite elements (ran s)).2
        else (processSettingStoreConfigValue dbl sqlite elements (ran s)).2) := by
  unfold LocalConfigTable.toMap at hstored
  rw [← List.head?_filter] at hstored
  unfold upgradeVersionFrom16To17 LocalConfigTable.query
  rw [if_neg (by simp [hquery]), if_pos nulFree_keyDbConfig]
  cases hrows : s.localConfig.table.rows.filter fun r => decide (r.key = keyDbConfig) with
  | nil =>
    rw [hrows] at hstored
    cases hstored
  | cons r rest =>
    rw [hrows, List.head?_cons, Option.map_some] at hstored
    cases hstored
    dsimp only
    rw [hparse]

theorem upgrade_of_failed_query (hquery : sqlite.fails s.settings.statements = true) :
    upgradeVersionFrom16To17 dbl sqlite s = some (ran s) := by
  unfold upgradeVersionFrom16To17
  rw [if_pos hquery]

theorem deleteEntry_settings : (deleteEntry sqlite s).settings.rows = s.settings.rows := by
  unfold deleteEntry
  split <;> rfl

/-- The entry is gone after the deletion iff the statement does not fail. -/
theorem deleteEntry_toMap {strValue : String}
    (hstored : s.localConfig.toMap keyDbConfig = some strValue) :
    (deleteEntry sqlite s).localConfig.toMap keyDbConfig = none ↔
      sqlite.fails s.settings.statements = false := by
  unfold deleteEntry
  cases hfails : sqlite.fails s.settings.statements with
  | true =>
    rw [if_pos rfl]
    refine iff_of_false ?_ Bool.true_eq_false.mp
    show s.localConfig.toMap keyDbConfig ≠ none
    rw [hstored]
    exact Option.some_ne_none strValue
  | false =>
    rw [if_neg Bool.false_ne_true]
    refine iff_of_true ?_ rfl
    have hremoved := LocalConfigTable.remove_key_toMap s.localConfig ⟨keyDbConfig, by decide⟩
    show (s.localConfig.remove keyDbConfig _).2.toMap keyDbConfig = none
    rw [hremoved, Function.update_self]

/-- No upgrade touches the rows that are read later. -/
theorem upgrade_cloudRows (hquiet : Quiet sqlite) {s' : UpgradeDb}
    (h : upgradeVersionFrom16To17 dbl sqlite s = some s') :
    cloudRows s'.settings.rows = cloudRows s.settings.rows := by
  have hframe : ∀ elements,
      cloudRows (processSettingStoreConfigValue dbl sqlite elements (ran s)).2.settings.rows =
        cloudRows s.settings.rows := by
    intro elements
    rw [processSettingStoreConfigValue_eq]
    exact (insertAll_frame hquiet (settingId_parameterRows elements) (0, ran s)).2.2
  unfold upgradeVersionFrom16To17 at h
  dsimp only at h
  split at h
  · split at h
    · cases h
    · cases h
      rfl
    · rename_i elements _
      cases h
      split
      · rw [deleteEntry_settings]
        exact hframe elements
      · exact hframe elements
    · cases h
      rfl
  · cases h
    rfl

/-- What is read later is what was there before. -/
theorem readBack_iff {rows : List SettingRow} {n : ℕ} {pairs : List (String × JsonValue)} :
    (∀ reading : Sqlite, reading.fails n = false →
      ∃ bAvailable, (getAllConfigUpdateSettings dbl reading ⟨rows, n⟩).1 =
        some (bAvailable, pairs)) ↔ configSettings dbl (cloudRows rows) = some pairs := by
  have hread : ∀ reading : Sqlite, reading.fails n = false →
      (getAllConfigUpdateSettings dbl reading ⟨rows, n⟩).1 =
        (configSettings dbl (cloudRows rows)).map fun m => (!(cloudRows rows).isEmpty, m) := by
    intro reading hfails
    have hquery := @SettingsDb.query_of_plain reading ⟨rows, n⟩
      [(.settingId, getConfigUpdateSourceInString .cloudConfigUpdate)]
      (List.forall_mem_singleton.2 plain_cloudConfigUpdate) hfails
    unfold getAllConfigUpdateSettings getConfigUpdateSettings
    dsimp only
    rw [hquery]
    rfl
  constructor
  · intro h
    rcases h ⟨fun _ => false, fun _ rows => (false, rows), fun _ _ => none⟩ rfl with
      ⟨bAvailable, hget⟩
    rw [hread _ rfl, Option.map_eq_some_iff] at hget
    rcases hget with ⟨m, hm, heq⟩
    rw [hm]
    exact congrArg some (Prod.mk.inj heq).2
  · intro h reading hfails
    refine ⟨!(cloudRows rows).isEmpty, ?_⟩
    rw [hread reading hfails, h]
    rfl

/-- The text is gone iff it was found, the last insert returned a positive number, and the
deletion did not fail. -/
theorem deleted_iff (hquiet : Quiet sqlite) {strValue : String} {elements : List JsonValue}
    (hstored : s.localConfig.toMap keyDbConfig = some strValue)
    (hparse : parse dbl strValue = .ok (.array elements)) {s' : UpgradeDb}
    (h : upgradeVersionFrom16To17 dbl sqlite s = some s') :
    s'.localConfig.toMap keyDbConfig = none ↔
      sqlite.fails s.settings.statements = false ∧
        0 < Lib.toInt32 ((outcomes sqlite (parameterRows dbl elements) (ran s)).getLastD 0) ∧
        sqlite.fails (s.settings.statements + 1 + (parameterRows dbl elements).length) = false := by
  cases hquery : sqlite.fails s.settings.statements with
  | true =>
    rw [upgrade_of_failed_query hquery] at h
    cases h
    -- without the text of the update nothing is stored or deleted
    refine iff_of_false ?_ (fun hall => Bool.false_ne_true hall.1.symm)
    show s.localConfig.toMap keyDbConfig ≠ none
    rw [hstored]
    exact Option.some_ne_none strValue
  | false =>
    rw [upgrade_of_array hstored hparse hquery] at h
    rcases insertAll_frame hquiet (settingId_parameterRows elements) (0, ran s) with
      ⟨hconfig, hstatements, -⟩
    have hstatus := @insertAll_status sqlite (ran s) (parameterRows dbl elements) 0
    rw [show Lib.toInt32 0 = 0 from rfl] at hstatus
    rw [processSettingStoreConfigValue_eq, hstatus] at h
    cases h
    -- the text is still there when the deletion is reached
    have hthere : (@insertAll sqlite (parameterRows dbl elements) (0, ran s)).2.localConfig.toMap
        keyDbConfig = some strValue := by
      rw [hconfig]
      exact hstored
    split
    · rename_i hpos
      rw [deleteEntry_toMap hthere, hstatements]
      exact ⟨fun hfails => ⟨rfl, hpos, hfails⟩, fun hall => hall.2.2⟩
    · rename_i hpos
      rw [hthere]
      exact iff_of_false (Option.some_ne_none strValue) fun hall => hpos hall.2.1

/-- The upgrade of a stored array gets through, and preserves the parameters iff the rows from
the cloud give them already and the text is not deleted behind a failed insert. -/
theorem preserved_iff (hquiet : Quiet sqlite) {strValue : String} {elements : List JsonValue}
    (hstored : s.localConfig.toMap keyDbConfig = some strValue)
    (hparse : parse dbl strValue = .ok (.array elements)) :
    ∃ s', upgradeVersionFrom16To17 dbl sqlite s = some s' ∧
      (Preserved dbl sqlite elements s s' ↔ Condition dbl sqlite elements s) := by
  obtain ⟨s', hrun⟩ : ∃ s', upgradeVersionFrom16To17 dbl sqlite s = some s' := by
    cases hquery : sqlite.fails s.settings.statements with
    | true => exact ⟨_, upgrade_of_failed_query hquery⟩
    | false => exact ⟨_, upgrade_of_array hstored hparse hquery⟩
  have hread := @readBack_iff dbl s'.settings.rows s'.settings.statements (storedPairs elements)
  -- the rows that are read later come from the cloud only, and the upgrade adds none of them
  rw [upgrade_cloudRows hquiet hrun] at hread
  have hdeleted := deleted_iff hquiet hstored hparse hrun
  refine ⟨s', hrun, ?_⟩
  constructor
  · intro h
    refine ⟨hread.1 h.readBack, ?_⟩
    by_cases hgone : s'.localConfig.toMap keyDbConfig = none
    · exact Or.inr (Or.inl (h.deleted hgone))
    · rw [hdeleted] at hgone
      by_contra hlost
      simp only [not_or, not_not, Bool.not_eq_true] at hlost
      exact hgone ⟨hlost.1, hlost.2.2.1, hlost.2.2.2⟩
  · intro h
    refine ⟨hread.2 h.alreadyThere, fun hgone => ?_⟩
    rcases hdeleted.1 hgone with ⟨hquery, hpos, hfails⟩
    rcases h.noneLost with hfailed | hall | hnot | hfailed
    · rw [hquery] at hfailed
      cases hfailed
    · exact hall
    · exact absurd hpos hnot
    · rw [hfails] at hfailed
      cases hfailed

/-- An update of one parameter. -/
def oneParameter : JsonValue := .object [("enabled", .boolean true)]

/-- The texts of real numbers, which play no part here. -/
def halves : DoubleText := ⟨fun _ => "0.5", fun _ => none⟩

/-- A database with the update, and no settings. -/
def oneUpdate : UpgradeDb where
  localConfig := (LocalConfigTable.empty.insert keyDbConfig
    (write halves (.array [oneParameter]))).2
  settings := ⟨[], 0⟩
  nextId := 1

/-- No statement fails, and one that is broken is rejected. -/
def sound : Sqlite := ⟨fun _ => false, fun _ rows => (false, rows), fun _ _ => none⟩

theorem parse_oneUpdate :
    parse halves (write halves (.array [oneParameter])) = .ok (.array [oneParameter]) := by
  have hobject : Representable halves (stackLimit - 2 + 1) oneParameter :=
    ⟨List.pairwise_singleton _ _, List.forall_mem_singleton.2 trivial⟩
  have harray : Representable halves (stackLimit - 1 + 1) (.array [oneParameter]) :=
    List.forall_mem_singleton.2 hobject
  exact parse_write halves harray

theorem toMap_oneUpdate :
    oneUpdate.localConfig.toMap keyDbConfig = some (write halves (.array [oneParameter])) := by
  have hwhole : NulFree (write halves (.array [oneParameter])) := by decide +kernel
  have hinsert := (@LocalConfigTable.insert_of_fits LocalConfigTable.empty keyDbConfig _
    nulFree_keyDbConfig hwhole (by simp [LocalConfigTable.empty])).2
  show (LocalConfigTable.empty.insert keyDbConfig _).2.toMap keyDbConfig = _
  rw [hinsert, Function.update_self]

theorem preserved_iff_oneUpdate : Quiet sound ∧
    ∃ s', upgradeVersionFrom16To17 halves sound oneUpdate = some s' ∧
      (Preserved halves sound [oneParameter] oneUpdate s' ↔
        Condition halves sound [oneParameter] oneUpdate) :=
  ⟨fun _ _ _ => rfl, preserved_iff (fun _ _ _ => rfl) toMap_oneUpdate parse_oneUpdate⟩

/-- The row is stored under another service than the one that is read, and the text is
deleted. -/
theorem not_preserved_oneUpdate : ∃ s', upgradeVersionFrom16To17 halves sound oneUpdate = some s' ∧
    s'.localConfig.toMap keyDbConfig = none ∧
    ¬ Preserved halves sound [oneParameter] oneUpdate s' := by
  have hquiet : Quiet sound := fun _ _ _ => rfl
  obtain ⟨s', hrun⟩ : ∃ s', upgradeVersionFrom16To17 halves sound oneUpdate = some s' :=
    ⟨_, upgrade_of_array toMap_oneUpdate parse_oneUpdate rfl⟩
  refine ⟨s', hrun, ?_, fun h => ?_⟩
  · rw [deleted_iff hquiet toMap_oneUpdate parse_oneUpdate hrun]
    decide +kernel
  · have hread := readBack_iff.1 h.readBack
    rw [upgrade_cloudRows hquiet hrun] at hread
    have hpairs : some [] = some (storedPairs [oneParameter]) := hread
    exact absurd (Option.some.inj hpairs) (by decide +kernel)

end ConfigUpgrade

end DeviceClient
