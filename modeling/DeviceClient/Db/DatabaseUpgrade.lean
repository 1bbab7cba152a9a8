import DeviceClient.Db.ModeUpgrade
import DeviceClient.Lib.Faulty
import Mathlib.Data.Finset.Basic
import Mathlib.Data.Finset.Insert

/-!
# The upgrade of the database

`CheckVersion` brings a database of an older version up to date: a switch without breaks runs
the steps from the stored version on, in a transaction, and the version is set. The tables that
the configuration needs are created behind it.

A table is its columns and rows. Updates, inserts and table creations may fail from outside;
they also fail for a missing table or column. A statement on a missing table makes `SqliteExec`
create the table.

* `onUpgrade`: the steps.
* `checkVersion`, `openExisting`, `openNew`: what a start does.
-/

namespace DeviceClient

/-! ## Tables -/

inductive TableName where
  | eventStore
  | alertStore
  | localConfig
  | uploadFile
  | messageSenderStore
  | invalidEventStore
  | igniteServiceSettings
deriving DecidableEq

/-- The columns, under the names of `CDataBaseConst`. -/
inductive Column where
  | id
  | eventId
  | timestamp
  | timezone
  | size
  | hasAttach
  | priority
  | events
  | appId
  | topic
  | mid
  | streamSupport
  | batchSupport
  | granularity
  | type
  | keyVal
  | value
  | filePath
  | splitCount
  | isFileFinalChunk
  | fileSize
  | settingId
  | settingEnum
  | settingValue
  | settingResponseStatus
  | settingCorrId
  | settingSrcIsDevice
deriving DecidableEq

/-- The text of each column; `none` is `NULL`. -/
abbrev SqlRow := Column → Option String

structure SqlTable where
  columns : Finset Column
  rows : List SqlRow

structure Database where
  tables : TableName → Option SqlTable
  version : ℤ

/-- `DB_VERSION`. -/
def DB_VERSION : ℤ := 17

/-- The columns of `CreateEventStoreTable` and of the other `Create` functions. -/
def createColumns : TableName → Finset Column
  | .eventStore => {.id, .eventId, .timestamp, .timezone, .size, .hasAttach, .priority, .events,
      .appId, .topic, .mid, .streamSupport, .batchSupport, .granularity}
  | .alertStore => {.id, .eventId, .timestamp, .timezone, .size, .hasAttach, .priority, .events,
      .appId, .topic, .mid}
  | .localConfig => {.id, .keyVal, .value}
  | .uploadFile => {.id, .filePath, .splitCount, .isFileFinalChunk, .fileSize}
  | .messageSenderStore => {.id, .appId, .type, .timestamp, .events}
  | .invalidEventStore => {.id, .timestamp, .events}
  | .igniteServiceSettings => {.settingId, .settingEnum, .settingValue, .settingResponseStatus,
      .settingCorrId, .settingSrcIsDevice}

namespace Database

def set (t : TableName) (table : Option SqlTable) (d : Database) : Database :=
  { d with tables := Function.update d.tables t table }

def setVersion (nVersion : ℤ) (d : Database) : Database := { d with version := nVersion }

/-- The columns of a table; none where it does not exist. -/
def columns (t : TableName) (d : Database) : Option (Finset Column) :=
  (d.tables t).map SqlTable.columns

/-- The table exists, with these columns. -/
def hasColumns (t : TableName) (used : Finset Column) (d : Database) : Bool :=
  match d.tables t with
  | some table => decide (used ⊆ table.columns)
  | none => false

/-- The rows of a table are rewritten. -/
def mapRows (t : TableName) (f : List SqlRow → List SqlRow) (d : Database) : Database :=
  match d.tables t with
  | some table => d.set t (some ⟨table.columns, f table.rows⟩)
  | none => d

end Database

/-! ## Statements -/

namespace DatabaseUpgrade

open Lib

/-- A program on the connection. -/
abbrev Sql := Faulty Database

/-- `CREATE TABLE IF NOT EXISTS`. -/
def createTable (t : TableName) : Sql Bool :=
  Faulty.attempt (fun _ => true) fun d =>
    if (d.tables t).isNone then d.set t (some ⟨createColumns t, []⟩) else d

/-- `DROP TABLE IF EXISTS`. -/
def dropTable (t : TableName) : Sql Unit := Faulty.modify (Database.set t none)

/-- `CheckAndCreateTable`, behind a statement on a table that does not exist. -/
def checkAndCreateTable (t : TableName) : Sql Unit :=
  if t = .messageSenderStore then pure () else do
    let _ ← createTable t

/-- `ALTER TABLE ADD COLUMN`, with the default of the column. -/
def alterTable (t : TableName) (c : Column) (strDefault : Option String) : Sql Bool := do
  match ← Faulty.read (Database.columns t) with
  | none =>
    checkAndCreateTable t
    pure false
  | some columns =>
    if c ∈ columns then pure false
    else
      Faulty.modify fun d =>
        d.set t (some ⟨insert c columns, ((d.tables t).elim [] SqlTable.rows).map
          fun row => Function.update row c strDefault⟩)
      pure true

/-- A statement that changes rows, over the columns that it names. -/
def changeRows (t : TableName) (used : Finset Column) (f : List SqlRow → List SqlRow) :
    Sql Bool := do
  let bMissing ← Faulty.read fun d => (d.tables t).isNone
  let bSuccess ← Faulty.attempt (Database.hasColumns t used) (Database.mapRows t f)
  -- the table is there for the next statement; this one has failed
  if bMissing then checkAndCreateTable t
  pure bSuccess

/-- `CDatabase::Update` of one column. -/
def update (t : TableName) (c : Column) (strValue : String) (used : Finset Column)
    (selection : SqlRow → Bool) : Sql Bool :=
  changeRows t (insert c used) fun rows =>
    rows.map fun row => if selection row then Function.update row c (some strValue) else row

/-- The defaults of the columns of the settings; SQLite keeps `false` as 0. -/
def settingDefault : SqlRow
  | .settingResponseStatus => some "0"
  | .settingSrcIsDevice => some "0"
  | _ => none

/-- `CDatabase::Insert` into the settings. -/
def insertSetting (data : List (Column × String)) : Sql Bool :=
  changeRows .igniteServiceSettings (data.map Prod.fst).toFinset fun rows =>
    rows ++ [fun c => (data.lookup c).or (settingDefault c)]

/-- `CDatabase::Query`; `none` is the null cursor. -/
def query (t : TableName) (used : Finset Column) (selection : SqlRow → Bool) :
    Sql (Option (List SqlRow)) :=
  Faulty.read fun d =>
    if d.hasColumns t used then (d.tables t).map fun table => table.rows.filter selection else none

/-! ## The steps -/

/-- The upload mode, and what the steps compute from other sources: the offset of the time zone,
the text behind a stored one, whether an event has attachments, and the rows that
`ProcessSettingStoreConfigValue` makes of the stored updates. -/
structure UpgradeEnv where
  m_pUploadMode : UploadMode
  setStreamEventList : List String
  setBatchEventlist : List String
  strTimeZone : String
  decryptEventData : String → String
  hasAttachments : String → Bool
  configRows : String → List (List (Column × String))

variable (env : UpgradeEnv)

def recreateTable (t : TableName) : Sql Unit := do
  dropTable t
  let _ ← createTable t

/-- The alert table is made anew. -/
def recreateAlertStore : Sql Unit :=
  if env.m_pUploadMode.isStreamModeSupported then recreateTable .alertStore else pure ()

/-- A column that is filled from the text of each event, once it is added. -/
def fillColumn (c : Column) (strValue : String → String) : Sql Unit := do
  let bAdded ← alterTable .eventStore c none
  -- rows of a column that was there already are not filled again
  if bAdded then
    match ← query .eventStore {.id, .events} fun _ => true with
    | some rows =>
      Faulty.forEach rows fun row => do
        let strEventData := env.decryptEventData ((row .events).getD "")
        let _ ← update .eventStore c (strValue strEventData) {.id} fun r => r .id = row .id
    | none => pure ()

def upgradeVersionFrom1To2 : Sql Unit := do
  recreateTable .eventStore
  recreateAlertStore env
  recreateTable .messageSenderStore

def upgradeVersionFrom2To3 : Sql Unit := do
  let bAdded ← alterTable .eventStore .timezone none
  if bAdded then
    let _ ← update .eventStore .timezone env.strTimeZone ∅ fun _ => true
  recreateAlertStore env

def upgradeVersionFrom3To4 : Sql Unit := do
  fillColumn env .size fun strEventData => toString strEventData.utf8ByteSize
  recreateAlertStore env

def upgradeVersionFrom4To5 : Sql Unit := do
  fillColumn env .hasAttach fun strEventData => if env.hasAttachments strEventData then "1" else "0"
  recreateAlertStore env

def upgradeVersionFrom5To6 : Sql Unit := recreateAlertStore env

/-- A column of the alert table, under the stream mode. -/
def alterAlertStore (c : Column) (strDefault : Option String) : Sql Unit := do
  if env.m_pUploadMode.isStreamModeSupported then
    let _ ← alterTable .alertStore c strDefault

def upgradeVersionFrom6To7 : Sql Unit := do
  let _ ← alterTable .eventStore .appId (some "")
  alterAlertStore env .appId (some "")

/-- A column of both tables, under the stream mode. -/
def alterBothStores (c : Column) (strDefault : Option String) : Sql Unit := do
  if env.m_pUploadMode.isStreamModeSupported then
    let _ ← alterTable .eventStore c strDefault
    alterAlertStore env c strDefault

def upgradeVersionFrom7To8 : Sql Unit := alterBothStores env .topic none

def upgradeVersionFrom8To9 : Sql Unit := alterBothStores env .mid (some "0")

def upgradeVersionFrom9To10 : Sql Unit := do
  let _ ← createTable .invalidEventStore

/-- The id of the row is in a list of ids. -/
def inList (ids : List String) (row : SqlRow) : Bool :=
  (row .eventId).any fun eventId => decide (eventId ∈ ids)

/-- No list names the id of the row; without lists there is no such condition. -/
def isDefaultEvent (row : SqlRow) : Bool :=
  !inList (env.setStreamEventList ++ env.setBatchEventlist) row

/-- `TOPIC IS NOT NULL OR CLIENT_APP_ID != ''`. -/
def isTopicedOrApp (row : SqlRow) : Bool := (row .topic).isSome || (row .appId).any fun a => a ≠ ""

/-- `TOPIC IS NULL AND CLIENT_APP_ID == ''`. -/
def isPlainEvent (row : SqlRow) : Bool := (row .topic).isNone && row .appId = some ""

/-- The columns of the condition on the default mode. -/
def defaultColumns : Finset Column :=
  if (env.setStreamEventList ++ env.setBatchEventlist).isEmpty then ∅ else {.eventId}

def updateEventsDefaultMode : Sql Unit := do
  if env.m_pUploadMode.isStreamModeSupportedAsDefault then
    let _ ← update .eventStore .streamSupport "1" (defaultColumns env) (isDefaultEvent env)
  if env.m_pUploadMode.isBatchModeSupportedAsDefault then
    let _ ← update .eventStore .batchSupport "1" (defaultColumns env ∪ {.topic, .appId}) fun row =>
      isDefaultEvent env row &&
        if env.m_pUploadMode.isStreamModeSupported then isPlainEvent row else isTopicedOrApp row

def upgradeVersionFrom10To11 : Sql Unit := do
  let _ ← alterTable .eventStore .streamSupport (some "0")
  let _ ← alterTable .eventStore .batchSupport (some "0")
  updateEventsDefaultMode env
  if env.m_pUploadMode.isStreamModeSupported then
    let used : Finset Column :=
      if env.setStreamEventList.isEmpty then {.topic, .appId} else {.topic, .appId, .eventId}
    let _ ← update .eventStore .streamSupport "1" used fun row =>
      isTopicedOrApp row || inList env.setStreamEventList row
  if !env.setBatchEventlist.isEmpty then
    let _ ← update .eventStore .batchSupport "1" {.eventId} (inList env.setBatchEventlist)

/-- `UploadService` copies the attachments; the database stays. -/
def upgradeVersionFrom11To12 : Sql Unit := pure ()

def upgradeVersionFrom12To13 : Sql Unit := do
  let _ ← createTable .igniteServiceSettings

def upgradeVersionFrom13To14 : Sql Unit := do
  if env.m_pUploadMode.isBatchModeSupported then
    let _ ← alterTable .uploadFile .fileSize (some "0")

def upgradeVersionFrom14To15 : Sql Unit := do
  let _ ← alterTable .igniteServiceSettings .settingSrcIsDevice (some "0")

def upgradeVersionFrom15To16 : Sql Unit := do
  let _ ← alterTable .igniteServiceSettings .settingSrcIsDevice (some "0")
  let _ ← alterTable .eventStore .granularity (some "0")

/-- `ProcessSettingStoreConfigValue`: whether the last insert succeeded. -/
def insertSettings : Bool → List (List (Column × String)) → Sql Bool
  | bStatus, [] => pure bStatus
  | _, data :: rest => do
    let bInserted ← insertSetting data
    insertSettings bInserted rest

/-- The row of `configUpdate`. -/
def isConfigUpdate (row : SqlRow) : Bool := row .keyVal = some "configUpdate"

/-- A deletion of the stored updates. -/
def removeConfigUpdate : Sql Unit :=
  Faulty.modify (Database.mapRows .localConfig fun rows =>
    rows.filter fun row => !isConfigUpdate row)

def upgradeVersionFrom16To17 : Sql Unit := do
  match ← query .localConfig {.keyVal, .value} isConfigUpdate with
  | some (row :: _) =>
    let bStatus ← insertSettings false (env.configRows ((row .value).getD ""))
    if bStatus then removeConfigUpdate
  | _ => pure ()

/-- The cases of the switch in `OnUpgrade`, from version 1 on. -/
def upgradeSteps : List (UpgradeEnv → Sql Unit) :=
  [upgradeVersionFrom1To2, upgradeVersionFrom2To3, upgradeVersionFrom3To4, upgradeVersionFrom4To5,
    upgradeVersionFrom5To6, upgradeVersionFrom6To7, upgradeVersionFrom7To8, upgradeVersionFrom8To9,
    fun _ => upgradeVersionFrom9To10, upgradeVersionFrom10To11, fun _ => upgradeVersionFrom11To12,
    fun _ => upgradeVersionFrom12To13, upgradeVersionFrom13To14, fun _ => upgradeVersionFrom14To15,
    fun _ => upgradeVersionFrom15To16, upgradeVersionFrom16To17]

/-- `OnUpgrade`: every case falls through to the next. -/
def onUpgrade (nOldVer : ℤ) : Sql Bool := do
  if 1 ≤ nOldVer ∧ nOldVer ≤ 16 then
    Faulty.forEach (upgradeSteps.drop (nOldVer.toNat - 1)) fun step => step env
  -- no result of a step is looked at
  pure true

/-- `OnDowngrade`. -/
def onDowngrade : Sql Bool := pure false

/-! ## A start -/

/-- `EndTransaction`: a rollback takes the database of the beginning. -/
def endTransaction (before : Database) (bSuccess : Bool) : Sql Unit :=
  if bSuccess then pure () else Faulty.modify fun _ => before

/-- The tables that the configuration uses. -/
def usedTables : List TableName :=
  [.eventStore, .localConfig, .messageSenderStore, .invalidEventStore, .igniteServiceSettings] ++
    (if env.m_pUploadMode.isStreamModeSupported then [.alertStore] else []) ++
    if env.m_pUploadMode.isBatchModeSupported then [.uploadFile] else []

/-- The creations in turn; behind one that fails there is none. -/
def createTables : List TableName → Sql Bool
  | [] => pure true
  | t :: ts => do
    let bCreated ← createTable t
    if bCreated then createTables ts else pure false

def onCreate : Sql Bool := createTables (usedTables env)

def upgradeOrDowngrade (nCurrVer : ℤ) : Sql Bool :=
  if nCurrVer < DB_VERSION then onUpgrade env nCurrVer else onDowngrade

/-- The part of `CheckVersion` between the ends of the transaction. -/
def changeVersion (nCurrVer : ℤ) : Sql Bool :=
  if nCurrVer ≠ DB_VERSION then do
    let bSuccess ← upgradeOrDowngrade env nCurrVer
    -- the version is raised before the result of the steps counts
    Faulty.modify (Database.setVersion DB_VERSION)
    pure bSuccess
  else pure false

/-- `CheckVersion`, with the result of `BEGIN`. -/
def checkVersion (bTransactionInProgress : Bool) : Sql Unit := do
  let before ← Faulty.read fun d => d
  let bSuccess ← changeVersion env before.version
  if bTransactionInProgress then endTransaction before bSuccess

/-- `OnCreate` in a transaction. -/
def createInTransaction : Sql Unit := do
  let before ← Faulty.read fun d => d
  let bCreated ← onCreate env
  endTransaction before bCreated

/-- `Open` with a database file. -/
def openExisting : Sql Unit := do
  checkVersion env true
  createInTransaction env

/-- `Open` without one. -/
def openNew : Sql Unit := do
  createInTransaction env
  Faulty.modify (Database.setVersion DB_VERSION)

/-! ## The end of an upgrade -/

variable {env}

theorem onUpgrade_returns (fails : ℕ → Bool) (nOldVer : ℤ) (s : Logged Database) :
    (onUpgrade env nOldVer fails s).1 = true := by
  unfold onUpgrade
  split <;> rfl

theorem changeVersion_of_older {s : Logged Database} (h : s.state.version < DB_VERSION)
    (fails : ℕ → Bool) :
    changeVersion env s.state.version fails s = (true,
      ⟨(onUpgrade env s.state.version fails s).2.state.setVersion DB_VERSION,
        (onUpgrade env s.state.version fails s).2.results⟩) := by
  unfold changeVersion upgradeOrDowngrade
  rw [if_pos (Int.ne_of_lt h), if_pos h, Faulty.bind_apply, onUpgrade_returns]
  rfl

/-- The transaction of an upgrade is always ended, never rolled back. -/
theorem checkVersion_of_older {s : Logged Database} (h : s.state.version < DB_VERSION)
    (fails : ℕ → Bool) (bTransactionInProgress : Bool) :
    (checkVersion env bTransactionInProgress fails s).2 =
      ⟨(onUpgrade env s.state.version fails s).2.state.setVersion DB_VERSION,
        (onUpgrade env s.state.version fails s).2.results⟩ := by
  show ((if bTransactionInProgress then
    endTransaction s.state (changeVersion env s.state.version fails s).1 else pure ()) fails
      (changeVersion env s.state.version fails s).2).2 = _
  rw [changeVersion_of_older h]
  cases bTransactionInProgress <;> rfl

end DatabaseUpgrade

end DeviceClient
