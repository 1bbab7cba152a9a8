import DeviceClient.Config.IgniteConfig
import DeviceClient.Db.ServiceSettingsStore

/-!
# Configuration updates

`UpdateConfig` keeps the parameters of an update in the settings table, so that a
restart applies them again. It deletes the settings of the source, loads the
configuration file, stores the pairs one by one and applies them; if the last of
them was not stored it deletes the settings of the source again.

* `updateLaws`: what a returned value says about the table.
-/

namespace DeviceClient

open JsonText SettingsStore

namespace IgniteConfig

/-! ## Model -/

/-- A source of updates; `other` is a value outside the enumeration. -/
inductive EconfigUpdateSource where
  | cloudConfigUpdate
  | other
deriving DecidableEq, Repr

def getConfigUpdateSourceInString : EconfigUpdateSource → String
  | .cloudConfigUpdate => "cloudConfigUpdate"
  | .other => ""

/-- The parameters of an update with their values. -/
structure ConfigUpdateMap where
  pairs : List (String × JsonValue)
  ascending : Lib.Ascending pairs

/-- The settings table, and the configuration in memory. -/
structure ConfigState where
  db : SettingsDb
  m_jsonRoot : JsonValue

variable (dbl : DoubleText) (sqlite : Sqlite)

def getAllConfigUpdateSettings (db : SettingsDb) :
    Option (Bool × List (String × JsonValue)) × SettingsDb :=
  getConfigUpdateSettings dbl sqlite (getConfigUpdateSourceInString .cloudConfigUpdate) db

/-- The stored settings applied to the configuration; `none` is an exception. -/
def applyStoredSettings (s : ConfigState) : Option ConfigState :=
  match getAllConfigUpdateSettings dbl sqlite s.db with
  | (none, _) => none
  | (some (bAvailable, mapConfigUpdateMap), db) =>
    if bAvailable = true ∧ mapConfigUpdateMap ≠ [] then
      (copyDBConfig mapConfigUpdateMap s.m_jsonRoot).map fun r => ⟨db, r.2⟩
    else some ⟨db, s.m_jsonRoot⟩

def reloadConfigFromDB (s : ConfigState) : Option ConfigState := applyStoredSettings dbl sqlite s

def resetConfigSettings (s : ConfigState) : Option ConfigState := applyStoredSettings dbl sqlite s

/-- The loop of `StoreSettingsToDb`, with `bStatus`. -/
def storePairs (strSource : String) (pairs : List (String × JsonValue)) (s : Bool × SettingsDb) :
    Bool × SettingsDb :=
  -- each store overwrites the status of the one before
  pairs.foldl
    (fun s pair => storeSettings dbl sqlite strSource pair.1 (.object [pair]) s.2) s

def storeSettingsToDb (rmapConfigUpdateMap : ConfigUpdateMap) (strSource : String)
    (mParameterCount : ℤ) (db : SettingsDb) : Bool × SettingsDb :=
  if rmapConfigUpdateMap.pairs ≠ [] ∧ 0 < mParameterCount then
    storePairs dbl sqlite strSource rmapConfigUpdateMap.pairs (false, db)
  else (false, db)

/-- `UpdateConfig`; `none` is an exception, or the exit at a configuration file that
cannot be loaded. -/
def updateConfig (file : Option JsonValue) (rmapConfigUpdateMap : ConfigUpdateMap)
    (eSource : EconfigUpdateSource) (mParameterCount : ℤ) (s : ConfigState) :
    Option (Bool × ConfigState) :=
  let strSource := getConfigUpdateSourceInString eSource
  if strSource = "" then some (false, s)
  else
    let cleared := clearSettings sqlite strSource s.db
    file.bind fun m_jsonRoot =>
      if 0 < mParameterCount ∧ rmapConfigUpdateMap.pairs ≠ [] then
        let stored :=
          storeSettingsToDb dbl sqlite rmapConfigUpdateMap strSource mParameterCount cleared.2
        if stored.1 then
          (copyDBConfig rmapConfigUpdateMap.pairs m_jsonRoot).map fun r =>
            (true, ⟨stored.2, r.2⟩)
        else
          -- half baked settings are cleared, with the result dropped
          some (false, ⟨(clearSettings sqlite strSource stored.2).2, m_jsonRoot⟩)
      else
        (resetConfigSettings dbl sqlite ⟨cleared.2, m_jsonRoot⟩).map fun s => (cleared.1, s)

/-- The configuration after a start: the file, and the stored settings on it. -/
def restart (file : Option JsonValue) (db : SettingsDb) : Option JsonValue :=
  file.bind fun m_jsonRoot =>
    (reloadConfigFromDB dbl sqlite ⟨db, m_jsonRoot⟩).map ConfigState.m_jsonRoot

/-! ## The loop -/

/-- A pair whose texts are literals and whose value is read back. -/
structure Persistable (pair : String × JsonValue) : Prop where
  name : PlainText pair.1
  text : PlainText (write dbl (.object [pair]))
  readsBack : parse dbl (write dbl (.object [pair])) = .ok (.object [pair])

/-- What the stores of the pairs do when none of them fails. -/
structure WroteAll (strSource : String) (pairs : List (String × JsonValue))
    (rows rows' : List SettingRow) : Prop where
  settled : ∀ pair ∈ pairs, Settled strSource pair.1 (write dbl (.object [pair])) rows'
  others : ∀ name, name ∉ pairs.map Prod.fst → settingRows name rows' = settingRows name rows
  origin : ∀ row ∈ rows', row ∈ rows ∨ ∃ pair ∈ pairs, row .settingId = strSource ∧
    row .settingEnum = pair.1 ∧ row .value = write dbl (.object [pair])

variable {dbl} {sqlite}

theorem WroteAll.nil {strSource : String} (rows : List SettingRow) :
    WroteAll dbl strSource [] rows rows where
  settled _ hpair := absurd hpair List.not_mem_nil
  others _ _ := rfl
  origin _ hrow := Or.inl hrow

theorem WroteAll.cons {strSource : String} {pair : String × JsonValue}
    {pairs : List (String × JsonValue)} {rows rows' rows'' : List SettingRow}
    (hfirst : Wrote strSource pair.1 (write dbl (.object [pair])) rows rows')
    (hrest : WroteAll dbl strSource pairs rows' rows'') (hnew : pair.1 ∉ pairs.map Prod.fst) :
    WroteAll dbl strSource (pair :: pairs) rows rows'' where
  settled pair' hpair' := by
    rcases List.mem_cons.1 hpair' with rfl | hpair'
    · -- the later stores are of other settings
      unfold Settled
      rw [hrest.others _ hnew]
      exact hfirst.settled
    · exact hrest.settled pair' hpair'
  others name hname := by
    rw [List.map_cons, List.mem_cons, not_or] at hname
    rw [hrest.others name hname.2, hfirst.others name hname.1]
  origin row hrow := by
    rcases hrest.origin row hrow with hold | ⟨pair', hpair', hnew⟩
    · rcases hfirst.origin row hold with hold | hnew
      · exact Or.inl hold
      · exact Or.inr ⟨pair, List.mem_cons_self, hnew⟩
    · exact Or.inr ⟨pair', List.mem_cons_of_mem _ hpair', hnew⟩

/-- Rows of the table are well formed if those of them that were there before are. -/
theorem WroteAll.wellFormed {strSource : String} {pairs : List (String × JsonValue)}
    {rows rows' rows'' : List SettingRow} (h : WroteAll dbl strSource pairs rows rows')
    (hpairs : ∀ pair ∈ pairs, Persistable dbl pair) (hsub : ∀ row ∈ rows'', row ∈ rows')
    (hold : WellFormed dbl rows ∨ ∀ row ∈ rows'', row ∉ rows) : WellFormed dbl rows'' := by
  intro row hrow
  rcases h.origin row (hsub row hrow) with hmem | ⟨pair, hpair, _, henum, hvalue⟩
  · rcases hold with hwf | hnew
    · exact hwf row hmem
    · exact absurd hmem (hnew row hrow)
  · rw [henum, hvalue]
    exact ⟨pair.2, (hpairs pair hpair).readsBack⟩

@[simp] theorem storePairs_statements (strSource : String) (pairs : List (String × JsonValue))
    (s : Bool × SettingsDb) :
    (storePairs dbl sqlite strSource pairs s).2.statements =
      s.2.statements + 2 * pairs.length := by
  induction pairs generalizing s with
  | nil => rfl
  | cons pair pairs ih =>
    unfold storePairs at ih ⊢
    rw [List.foldl_cons, ih, storeSettings_statements, List.length_cons]
    omega

theorem storePairs_cons {strSource : String} {pair : String × JsonValue}
    {pairs : List (String × JsonValue)} {s s' : Bool × SettingsDb}
    (hstore : storeSettings dbl sqlite strSource pair.1 (.object [pair]) s.2 = s') :
    storePairs dbl sqlite strSource (pair :: pairs) s =
      storePairs dbl sqlite strSource pairs s' := by
  unfold storePairs
  rw [List.foldl_cons, hstore]

/-- The stores in turn: the write of the pair at `i` is the statement at `2 * i + 1`. -/
theorem storePairs_of_persistable {strSource : String} (hsource : PlainText strSource)
    {pairs : List (String × JsonValue)} (hnodup : (pairs.map Prod.fst).Nodup)
    (hpairs : ∀ pair ∈ pairs, Persistable dbl pair) {s : Bool × SettingsDb}
    (hok : ∀ i < pairs.length, sqlite.fails (s.2.statements + 2 * i + 1) = false) :
    WroteAll dbl strSource pairs s.2.rows (storePairs dbl sqlite strSource pairs s).2.rows ∧
      (s.1 = true ∨ pairs ≠ [] → (storePairs dbl sqlite strSource pairs s).1 = true) := by
  induction pairs generalizing s with
  | nil =>
    constructor
    · exact WroteAll.nil s.2.rows
    · rintro (hs | hne)
      · exact hs
      · exact absurd rfl hne
  | cons pair pairs ih =>
    rw [List.map_cons, List.nodup_cons] at hnodup
    have hpair := hpairs pair List.mem_cons_self
    have hfirst : sqlite.fails (s.2.statements + 1) = false :=
      hok 0 (List.length_pos_of_mem List.mem_cons_self)
    obtain ⟨rows', hstore, hwrote⟩ :=
      storeSettings_of_plain s.2 hsource hpair.name hpair.text hfirst
    -- a store takes two statements, so that the rest begins two later
    have hrest := ih hnodup.2 (fun p hp => hpairs p (List.mem_cons_of_mem _ hp))
      (s := (true, ⟨rows', s.2.statements + 2⟩)) fun i hi => by
        have hnext := hok (i + 1) (by rw [List.length_cons]; omega)
        rwa [show s.2.statements + 2 * (i + 1) + 1 = s.2.statements + 2 + 2 * i + 1 by omega]
          at hnext
    rw [storePairs_cons hstore]
    constructor
    · exact WroteAll.cons hwrote hrest.1 hnodup.1
    · intro _
      exact hrest.2 (Or.inl rfl)

/-! ## One update -/

theorem plain_cloudConfigUpdate : PlainText (getConfigUpdateSourceInString .cloudConfigUpdate) := by
  decide

/-- An update of a known source that has pairs to store. -/
theorem updateConfig_of_pairs (m_jsonRoot : JsonValue) {rmapConfigUpdateMap : ConfigUpdateMap}
    {mParameterCount : ℤ} (hcount : 0 < mParameterCount) (hpairs : rmapConfigUpdateMap.pairs ≠ [])
    {s : ConfigState} {strSource : String}
    (hsource : strSource = getConfigUpdateSourceInString .cloudConfigUpdate)
    {stored : Bool × SettingsDb}
    (hstored : stored = storePairs dbl sqlite strSource rmapConfigUpdateMap.pairs
      (false, (clearSettings sqlite strSource s.db).2)) :
    updateConfig dbl sqlite (some m_jsonRoot) rmapConfigUpdateMap .cloudConfigUpdate
        mParameterCount s =
      if stored.1 then
        (copyDBConfig rmapConfigUpdateMap.pairs m_jsonRoot).map fun r => (true, ⟨stored.2, r.2⟩)
      else some (false, ⟨(clearSettings sqlite strSource stored.2).2, m_jsonRoot⟩) := by
  have hknown : getConfigUpdateSourceInString .cloudConfigUpdate ≠ "" := by decide
  have hloop : storeSettingsToDb dbl sqlite rmapConfigUpdateMap
      (getConfigUpdateSourceInString .cloudConfigUpdate) mParameterCount
      (clearSettings sqlite (getConfigUpdateSourceInString .cloudConfigUpdate) s.db).2 = stored := by
    rw [hstored, hsource]
    exact if_pos ⟨hpairs, hcount⟩
  unfold updateConfig
  dsimp only
  rw [if_neg hknown, Option.bind_some, if_pos (And.intro hcount hpairs), hloop, hsource]

/-- An update of a known source that has none. -/
theorem updateConfig_of_no_pairs (m_jsonRoot : JsonValue) {rmapConfigUpdateMap : ConfigUpdateMap}
    {mParameterCount : ℤ} (h : ¬ (0 < mParameterCount ∧ rmapConfigUpdateMap.pairs ≠ []))
    {s : ConfigState} {cleared : Bool × SettingsDb}
    (hcleared : cleared =
      clearSettings sqlite (getConfigUpdateSourceInString .cloudConfigUpdate) s.db) :
    updateConfig dbl sqlite (some m_jsonRoot) rmapConfigUpdateMap .cloudConfigUpdate
        mParameterCount s =
      (resetConfigSettings dbl sqlite ⟨cleared.2, m_jsonRoot⟩).map fun s => (cleared.1, s) := by
  have hknown : getConfigUpdateSourceInString .cloudConfigUpdate ≠ "" := by decide
  unfold updateConfig
  dsimp only
  rw [if_neg hknown, Option.bind_some, if_neg h, hcleared]

/-- Reading the settings does not write the table. -/
theorem applyStoredSettings_rows {s s' : ConfigState}
    (h : applyStoredSettings dbl sqlite s = some s') : s'.db.rows = s.db.rows := by
  have hquery : (getAllConfigUpdateSettings dbl sqlite s.db).2.rows = s.db.rows := by
    unfold getAllConfigUpdateSettings getConfigUpdateSettings
    dsimp only
    split <;> rw [SettingsDb.query_snd]
  unfold applyStoredSettings at h
  split at h
  · cases h
  · rename_i bAvailable m db hread
    rw [hread] at hquery
    split at h
    · obtain ⟨r, _, hr⟩ := Option.map_eq_some_iff.1 h
      rw [← hr]
      exact hquery
    · rw [← Option.some.inj h]
      exact hquery

/-! ## What an update says about the table -/

/-- The table has a row of the source with the pair's name and text. -/
def StoredPair (dbl : DoubleText) (strSource : String) (rows : List SettingRow)
    (pair : String × JsonValue) : Prop :=
  ∃ row ∈ rows, row .settingId = strSource ∧ row .settingEnum = pair.1 ∧
    row .value = write dbl (.object [pair])

/-- The pair is in the map that is read from the rows of the source. -/
def ReadablePair (dbl : DoubleText) (strSource : String) (rows : List SettingRow)
    (pair : String × JsonValue) : Prop :=
  ∃ m, configSettings dbl (serviceRows strSource rows) = some m ∧ m.lookup pair.1 = some pair.2

/-- Stored if it returns true, unchanged if it returns false. -/
def AllOrNothing (dbl : DoubleText) (sqlite : Sqlite) (file : Option JsonValue)
    (rmapConfigUpdateMap : ConfigUpdateMap) (eSource : EconfigUpdateSource) (mParameterCount : ℤ)
    (s : ConfigState) : Prop :=
  ∀ b s', updateConfig dbl sqlite file rmapConfigUpdateMap eSource mParameterCount s =
      some (b, s') →
    (b = true → ∀ pair ∈ rmapConfigUpdateMap.pairs,
      StoredPair dbl (getConfigUpdateSourceInString eSource) s'.db.rows pair ∧
        ReadablePair dbl (getConfigUpdateSourceInString eSource) s'.db.rows pair) ∧
    (b = false → serviceRows (getConfigUpdateSourceInString eSource) s'.db.rows =
      serviceRows (getConfigUpdateSourceInString eSource) s.db.rows)

/-- The table has `a` from an earlier update, and the insert of `b` fails: the update
returns false and `a` is gone. -/
theorem not_allOrNothing_failedInsert :
    ¬ AllOrNothing ⟨fun _ => "0.5", fun _ => none⟩
      ⟨fun statement => statement = 2, fun _ rows => (false, rows), fun _ _ => none⟩
      (some (.object [])) ⟨[("b", .boolean true)], List.pairwise_singleton _ _⟩
      .cloudConfigUpdate 1
      ⟨⟨[SqlStatement.assign (settingTexts "cloudConfigUpdate" "a" "\x7b\"a\":true\x7d\n")
        SqlStatement.defaultRow], 0⟩, .object []⟩ := by
  intro h
  have hrows := (h false ⟨⟨[], 4⟩, .object []⟩ rfl).2 rfl
  have hlength := congrArg List.length hrows
  revert hlength
  decide

/-- What a settled pair is to a reader. -/
theorem stored_and_readable {strSource : String} {rows : List SettingRow}
    {pair : String × JsonValue} (hpair : Persistable dbl pair) (hwf : WellFormed dbl rows)
    (h : Settled strSource pair.1 (write dbl (.object [pair])) rows) :
    StoredPair dbl strSource rows pair ∧ ReadablePair dbl strSource rows pair := by
  constructor
  · obtain ⟨row, hlast, hid, hvalue⟩ := h
    have hrow := mem_settingRows.1 (List.mem_of_getLast? hlast)
    exact ⟨row, hrow.1, hid, hrow.2, hvalue⟩
  · have hwf' : WellFormed dbl (serviceRows strSource rows) :=
      hwf.mono fun row hrow => (mem_serviceRows.1 hrow).1
    obtain ⟨m, hm, _, hlast, _⟩ := configSettings_spec hwf'
    obtain ⟨row, hrow, hvalue⟩ := h.serviceRows
    refine ⟨m, hm, hlast pair.1 row pair.2 hrow ?_⟩
    rw [hvalue]
    exact hpair.readsBack

/-- The stores of an update: the write of the pair at `i` is the statement at
`2 * i + 2`, behind the clearing one. -/
theorem storePairs_of_update {strSource : String} (hsource : PlainText strSource)
    {rmapConfigUpdateMap : ConfigUpdateMap}
    (hpairs : ∀ pair ∈ rmapConfigUpdateMap.pairs, Persistable dbl pair) (db : SettingsDb)
    (hok : ∀ i < rmapConfigUpdateMap.pairs.length,
      sqlite.fails (db.statements + 2 * i + 2) = false) :
    WroteAll dbl strSource rmapConfigUpdateMap.pairs (clearSettings sqlite strSource db).2.rows
        (storePairs dbl sqlite strSource rmapConfigUpdateMap.pairs
          (false, (clearSettings sqlite strSource db).2)).2.rows ∧
      (rmapConfigUpdateMap.pairs ≠ [] →
        (storePairs dbl sqlite strSource rmapConfigUpdateMap.pairs
          (false, (clearSettings sqlite strSource db).2)).1 = true) := by
  have hstored := storePairs_of_persistable hsource rmapConfigUpdateMap.ascending.nodup hpairs
    (s := (false, (clearSettings sqlite strSource db).2)) fun i hi => by
      rw [clearSettings_statements,
        show db.statements + 1 + 2 * i + 1 = db.statements + 2 * i + 2 by omega]
      exact hok i hi
  exact ⟨hstored.1, fun hne => hstored.2 (Or.inr hne)⟩

/-- There is something to store. -/
def Stores (rmapConfigUpdateMap : ConfigUpdateMap) (eSource : EconfigUpdateSource)
    (mParameterCount : ℤ) : Prop :=
  eSource = .cloudConfigUpdate ∧ 0 < mParameterCount ∧ rmapConfigUpdateMap.pairs ≠ []

/-- What an update says about the settings of its source. With something to store: if it
returns true and no store failed, the pairs are stored and readable; if it returns
false, the settings are gone once the closing statement succeeds. With nothing to
store: they are gone if it returns true, and as they were if it returns false. -/
def UpdateLaws (dbl : DoubleText) (sqlite : Sqlite) (file : Option JsonValue)
    (rmapConfigUpdateMap : ConfigUpdateMap) (eSource : EconfigUpdateSource) (mParameterCount : ℤ)
    (s : ConfigState) : Prop :=
  ∀ b s', updateConfig dbl sqlite file rmapConfigUpdateMap eSource mParameterCount s =
      some (b, s') →
    (Stores rmapConfigUpdateMap eSource mParameterCount →
      (b = true → WellFormed dbl s.db.rows →
        (∀ pair ∈ rmapConfigUpdateMap.pairs, Persistable dbl pair) →
        (∀ i < rmapConfigUpdateMap.pairs.length,
          sqlite.fails (s.db.statements + 2 * i + 2) = false) →
        ∀ pair ∈ rmapConfigUpdateMap.pairs,
          StoredPair dbl (getConfigUpdateSourceInString eSource) s'.db.rows pair ∧
            ReadablePair dbl (getConfigUpdateSourceInString eSource) s'.db.rows pair) ∧
      (b = false →
        sqlite.fails (s.db.statements + 2 * rmapConfigUpdateMap.pairs.length + 1) = false →
        serviceRows (getConfigUpdateSourceInString eSource) s'.db.rows = [])) ∧
    (¬ Stores rmapConfigUpdateMap eSource mParameterCount →
      (b = true → serviceRows (getConfigUpdateSourceInString eSource) s'.db.rows = []) ∧
      (b = false → serviceRows (getConfigUpdateSourceInString eSource) s'.db.rows =
        serviceRows (getConfigUpdateSourceInString eSource) s.db.rows))

/-- With something to store. -/
theorem updateConfig_stores {m_jsonRoot : JsonValue} {rmapConfigUpdateMap : ConfigUpdateMap}
    {mParameterCount : ℤ} (hcount : 0 < mParameterCount) (hpairs : rmapConfigUpdateMap.pairs ≠ [])
    {s s' : ConfigState} {b : Bool}
    (h : updateConfig dbl sqlite (some m_jsonRoot) rmapConfigUpdateMap .cloudConfigUpdate
      mParameterCount s = some (b, s')) :
    let strSource := getConfigUpdateSourceInString .cloudConfigUpdate
    let stored := storePairs dbl sqlite strSource rmapConfigUpdateMap.pairs
      (false, (clearSettings sqlite strSource s.db).2)
    (b = true ∧ s'.db = stored.2 ∧
      ∃ bAvailable, copyDBConfig rmapConfigUpdateMap.pairs m_jsonRoot =
        some (bAvailable, s'.m_jsonRoot)) ∨
    (b = false ∧ s'.db = (clearSettings sqlite strSource stored.2).2) := by
  intro strSource stored
  rw [updateConfig_of_pairs m_jsonRoot hcount hpairs (show strSource = _ from rfl)
    (show stored = _ from rfl)] at h
  by_cases hstored : stored.1 = true
  · rw [if_pos hstored] at h
    obtain ⟨r, hcopy, hr⟩ := Option.map_eq_some_iff.1 h
    cases hr
    exact Or.inl ⟨rfl, rfl, r.1, hcopy⟩
  · rw [if_neg hstored] at h
    cases h
    exact Or.inr ⟨rfl, rfl⟩

/-- The stores that follow a clear find a table as it should be. -/
theorem wellFormed_clearSettings {strSource : String} (hsource : PlainText strSource)
    {db : SettingsDb} (hwf : WellFormed dbl db.rows) :
    WellFormed dbl (clearSettings sqlite strSource db).2.rows := by
  refine hwf.mono fun row hrow => ?_
  rcases clearSettings_cases sqlite db hsource with ⟨_, hrows⟩ | ⟨_, hrows⟩
  · rw [hrows] at hrow
    exact hrow
  · rw [hrows] at hrow
    exact (List.mem_filter.1 hrow).1

theorem serviceRows_clearSettings {strSource : String} (hsource : PlainText strSource)
    {db : SettingsDb} (h : (clearSettings sqlite strSource db).1 = true) :
    serviceRows strSource (clearSettings sqlite strSource db).2.rows = [] := by
  rcases clearSettings_cases sqlite db hsource with ⟨hfalse, _⟩ | ⟨_, hrows⟩
  · rw [hfalse] at h
    cases h
  · rw [hrows]
    exact serviceRows_filter_ne strSource db.rows

/-- For every pattern of failing statements, every table and every list of pairs. -/
theorem updateLaws (dbl : DoubleText) (sqlite : Sqlite) (file : Option JsonValue)
    (rmapConfigUpdateMap : ConfigUpdateMap) (eSource : EconfigUpdateSource) (mParameterCount : ℤ)
    (s : ConfigState) :
    UpdateLaws dbl sqlite file rmapConfigUpdateMap eSource mParameterCount s := by
  intro b s' h
  cases eSource with
  | other =>
    -- no statement is run
    have hs' : some (false, s) = some (b, s') := h
    cases hs'
    exact ⟨fun hstores => absurd hstores.1 (by decide), fun _ => ⟨fun hb => absurd hb (by decide),
      fun _ => rfl⟩⟩
  | cloudConfigUpdate =>
    have hsource := plain_cloudConfigUpdate
    cases file with
    | none => cases h
    | some m_jsonRoot =>
      constructor
      · rintro ⟨_, hcount, hpairs⟩
        rcases updateConfig_stores hcount hpairs h with ⟨hb, hdb, _⟩ | ⟨hb, hdb⟩
        · refine ⟨fun _ hwf hpersistable hok pair hpair => ?_, fun hfalse => ?_⟩
          · have hwrote := (storePairs_of_update hsource hpersistable s.db hok).1
            rw [hdb]
            exact stored_and_readable (hpersistable pair hpair)
              (hwrote.wellFormed hpersistable (fun row hrow => hrow)
                (Or.inl (wellFormed_clearSettings hsource hwf)))
              (hwrote.settled pair hpair)
          · exact absurd (hb.symm.trans hfalse) (by decide)
        · refine ⟨fun htrue => absurd (hb.symm.trans htrue) (by decide), fun _ hok => ?_⟩
          rw [hdb]
          refine serviceRows_clearSettings hsource ?_
          rw [clearSettings_of_plain hsource]
          rw [storePairs_statements, clearSettings_statements, ← hok]
          congr 1
          omega
      · intro hnone
        have hreset : ¬ (0 < mParameterCount ∧ rmapConfigUpdateMap.pairs ≠ []) :=
          fun hstores => hnone ⟨rfl, hstores⟩
        rw [updateConfig_of_no_pairs m_jsonRoot hreset rfl] at h
        obtain ⟨s₁, happly, hs₁⟩ := Option.map_eq_some_iff.1 h
        have hrows : s₁.db.rows = _ := applyStoredSettings_rows happly
        cases hs₁
        rw [hrows]
        refine ⟨serviceRows_clearSettings hsource, fun hb => ?_⟩
        rcases clearSettings_cases sqlite s.db hsource with ⟨_, hsame⟩ | ⟨ht, _⟩
        · rw [hsame]
        · exact absurd (ht.symm.trans hb) (by decide)

end IgniteConfig

end DeviceClient
