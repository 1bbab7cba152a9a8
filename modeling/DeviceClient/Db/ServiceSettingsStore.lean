import DeviceClient.Db.SettingsTable
import DeviceClient.Util.JsonRoundTrip
import Mathlib.Data.List.Induction

/-!
# The settings store

`CServiceSettingsStore`: a setting of a service is a row with the setting's text,
one JSON object `{setting: value}`. A store of one setting looks a row up by the
setting alone and then updates all rows of that setting, whatever service they are
of; a number in the looked-up column that is -1 counts as no row.

* `storeSettings_of_plain`: what one store does to the table.
* `Settled`: the last row of a setting is the service's and has the text.
* `configSettings_spec`: what the reading of the rows returns.
-/

namespace DeviceClient

open JsonText

namespace SettingsStore

/-! ## Model -/

def isSpaceChar (c : Char) : Bool :=
  c = ' ' || c = '\t' || c = '\n' || c = '\x0b' || c = '\x0c' || c = '\r'

/-- `StringToNumber<long long>`: zero where there is no number or it does not fit. -/
def stringToNumber (rstrText : String) : ℤ :=
  let chars := rstrText.toList.dropWhile isSpaceChar
  let digits := if chars.head? = some '-' ∨ chars.head? = some '+' then chars.tail else chars
  let value : ℤ := decimalValue 0 (digits.takeWhile Char.isDigit)
  let number := if chars.head? = some '-' then -value else value
  if -2 ^ 63 ≤ number ∧ number < 2 ^ 63 then number else 0

/-- `SETTING_NOT_APPLICABLE`. -/
def settingNotApplicable : String := "NA"

variable (dbl : DoubleText) (sqlite : Sqlite)

/-- The content values of one setting. -/
def settingTexts (strServiceId strSettingEnum strSettingsJson : String) : ColumnTexts :=
  [(.settingId, strServiceId), (.settingEnum, strSettingEnum), (.value, strSettingsJson),
    (.corrId, settingNotApplicable)]

/-- `lId`, from the cursor. -/
def storedId (cursor : Option (List SettingRow)) : ℤ :=
  match cursor with
  | some (row :: _) => stringToNumber (row .settingEnum)
  | _ => -1

/-- `StoreSettings` of one setting. -/
def storeSettings (strServiceId strSettingEnum : String) (rjsonSettings : JsonValue)
    (db : SettingsDb) : Bool × SettingsDb :=
  let contentValues := settingTexts strServiceId strSettingEnum (write dbl rjsonSettings)
  -- the service is not part of the selection
  let strSelection := [(.settingEnum, strSettingEnum)]
  let r := db.query sqlite strSelection
  if storedId r.1 = -1 then r.2.exec sqlite (.insert contentValues)
  else r.2.exec sqlite (.update contentValues strSelection)

/-- `ClearSettings` of a service. -/
def clearSettings (strServiceId : String) (db : SettingsDb) : Bool × SettingsDb :=
  db.exec sqlite (.remove [(.settingId, strServiceId)])

/-- The pairs that an iterator over a value visits: the members, or the elements under
their indices. -/
def iteratorPairs : JsonValue → List (String × JsonValue)
  | .object members => members
  | .array values => values.mapIdx fun index value => (toString index, value)
  | _ => []

/-- One row of the cursor; `none` is an exception of the reader. -/
def addSetting (mapConfigUpdateMap : List (String × JsonValue)) (row : SettingRow) :
    Option (List (String × JsonValue)) :=
  match parse dbl (row .value) with
  | .error .stackLimit => none
  -- a text that does not parse is passed over
  | .error .syntaxError => some mapConfigUpdateMap
  | .ok jsonSettingValue =>
    some ((iteratorPairs jsonSettingValue).foldl (fun m p => Lib.setKey p.1 p.2 m)
      mapConfigUpdateMap)

/-- The loop of `GetConfigUpdateSettings`. -/
def configSettings (rows : List SettingRow) : Option (List (String × JsonValue)) :=
  rows.foldlM (addSetting dbl) []

/-- `GetConfigUpdateSettings`. -/
def getConfigUpdateSettings (strServiceId : String) (db : SettingsDb) :
    Option (Bool × List (String × JsonValue)) × SettingsDb :=
  let r := db.query sqlite [(.settingId, strServiceId)]
  match r.1 with
  | none => (some (false, []), r.2)
  | some rows => ((configSettings dbl rows).map fun m => (!rows.isEmpty, m), r.2)

/-! ## Rows -/

/-- The rows of a service. -/
def serviceRows (strServiceId : String) (rows : List SettingRow) : List SettingRow :=
  rows.filter fun row => Selects [(.settingId, strServiceId)] row

/-- The rows of a setting. -/
def settingRows (strSettingEnum : String) (rows : List SettingRow) : List SettingRow :=
  rows.filter fun row => Selects [(.settingEnum, strSettingEnum)] row

@[simp] theorem selects_singleton (column : SettingColumn) (text : String) (row : SettingRow) :
    Selects [(column, text)] row ↔ row column = text := by
  unfold Selects
  rw [List.forall_mem_singleton]

theorem mem_serviceRows {strServiceId : String} {rows : List SettingRow} {row : SettingRow} :
    row ∈ serviceRows strServiceId rows ↔ row ∈ rows ∧ row .settingId = strServiceId := by
  unfold serviceRows
  rw [List.mem_filter, decide_eq_true_iff, selects_singleton]

theorem mem_settingRows {strSettingEnum : String} {rows : List SettingRow} {row : SettingRow} :
    row ∈ settingRows strSettingEnum rows ↔ row ∈ rows ∧ row .settingEnum = strSettingEnum := by
  unfold settingRows
  rw [List.mem_filter, decide_eq_true_iff, selects_singleton]

/-- A row after a store: the four columns that are written. -/
theorem assign_settingTexts (strServiceId strSettingEnum strSettingsJson : String)
    (row : SettingRow) :
    SqlStatement.assign (settingTexts strServiceId strSettingEnum strSettingsJson) row =
      fun
        | .settingId => strServiceId
        | .settingEnum => strSettingEnum
        | .value => strSettingsJson
        | .corrId => settingNotApplicable
        | .responseStatus => row .responseStatus
        | .srcIsDevice => row .srcIsDevice := by
  funext column
  cases column <;> rfl

/-! ## One store -/

/-- The last row of the setting is the service's and has the text. A reader takes the
rows in turn, so that it is the one that counts. -/
def Settled (strServiceId strSettingEnum strSettingsJson : String) (rows : List SettingRow) :
    Prop :=
  ∃ row, (settingRows strSettingEnum rows).getLast? = some row ∧
    row .settingId = strServiceId ∧ row .value = strSettingsJson

/-- What a store that succeeds does: the setting is settled, the rows of other settings
stay, and what is new in the table is a row of the setting. -/
structure Wrote (strServiceId strSettingEnum strSettingsJson : String)
    (rows rows' : List SettingRow) : Prop where
  settled : Settled strServiceId strSettingEnum strSettingsJson rows'
  others : ∀ name, name ≠ strSettingEnum → settingRows name rows' = settingRows name rows
  origin : ∀ row ∈ rows', row ∈ rows ∨ (row .settingId = strServiceId ∧
    row .settingEnum = strSettingEnum ∧ row .value = strSettingsJson)

theorem settingRows_append (name : String) (rows : List SettingRow) (row : SettingRow) :
    settingRows name (rows ++ [row]) =
      settingRows name rows ++ if row .settingEnum = name then [row] else [] := by
  unfold settingRows
  rw [List.filter_append]
  by_cases hname : row .settingEnum = name
  · rw [if_pos hname, List.filter_cons_of_pos (by simpa using hname), List.filter_nil]
  · rw [if_neg hname, List.filter_cons_of_neg (by simpa using hname), List.filter_nil]

/-- A row at the end settles its setting. -/
theorem wrote_append (row : SettingRow) (rows : List SettingRow) :
    Wrote (row .settingId) (row .settingEnum) (row .value) rows (rows ++ [row]) where
  settled := by
    refine ⟨row, ?_, rfl, rfl⟩
    rw [settingRows_append, if_pos rfl, List.getLast?_concat]
  others name hname := by rw [settingRows_append, if_neg hname.symm, List.append_nil]
  origin row' hrow' := by
    rcases List.mem_append.1 hrow' with h | h
    · exact Or.inl h
    · rw [List.mem_singleton.1 h]
      exact Or.inr ⟨rfl, rfl, rfl⟩

/-- What an update makes of a row. -/
def overwrite (strServiceId strSettingEnum strSettingsJson : String) (row : SettingRow) :
    SettingRow :=
  if row .settingEnum = strSettingEnum then
    SqlStatement.assign (settingTexts strServiceId strSettingEnum strSettingsJson) row
  else row

theorem apply_update (strServiceId strSettingEnum strSettingsJson : String)
    (rows : List SettingRow) :
    (SqlStatement.update (settingTexts strServiceId strSettingEnum strSettingsJson)
        [(.settingEnum, strSettingEnum)]).apply rows =
      rows.map (overwrite strServiceId strSettingEnum strSettingsJson) := by
  unfold SqlStatement.apply overwrite
  simp only [selects_singleton]

theorem overwrite_settingEnum (strServiceId strSettingEnum strSettingsJson : String)
    (row : SettingRow) :
    overwrite strServiceId strSettingEnum strSettingsJson row .settingEnum =
      row .settingEnum := by
  unfold overwrite
  by_cases hrow : row .settingEnum = strSettingEnum
  · rw [if_pos hrow, assign_settingTexts, hrow]
  · rw [if_neg hrow]

theorem settingRows_overwrite (strServiceId strSettingEnum strSettingsJson name : String)
    (rows : List SettingRow) :
    settingRows name (rows.map (overwrite strServiceId strSettingEnum strSettingsJson)) =
      (settingRows name rows).map (overwrite strServiceId strSettingEnum strSettingsJson) := by
  unfold settingRows
  rw [List.filter_map]
  congr 1
  apply List.filter_congr
  intro row _
  simp only [Function.comp_apply, selects_singleton, overwrite_settingEnum]

/-- Rows of a setting that are all overwritten settle it, if there are any. -/
theorem wrote_overwrite (strServiceId strSettingEnum strSettingsJson : String)
    {rows : List SettingRow} (hne : settingRows strSettingEnum rows ≠ []) :
    Wrote strServiceId strSettingEnum strSettingsJson rows
      (rows.map (overwrite strServiceId strSettingEnum strSettingsJson)) where
  settled := by
    obtain ⟨row, hrow⟩ := Option.isSome_iff_exists.1 (List.getLast?_isSome.2 hne)
    have hname := (mem_settingRows.1 (List.mem_of_getLast? hrow)).2
    refine ⟨overwrite strServiceId strSettingEnum strSettingsJson row, ?_, ?_, ?_⟩
    · rw [settingRows_overwrite, List.getLast?_map, hrow, Option.map_some]
    · unfold overwrite
      rw [if_pos hname, assign_settingTexts]
    · unfold overwrite
      rw [if_pos hname, assign_settingTexts]
  others name hname := by
    rw [settingRows_overwrite]
    conv_rhs => rw [← List.map_id (settingRows name rows)]
    apply List.map_congr_left
    intro row hrow
    unfold overwrite
    rw [if_neg fun heq => hname ((mem_settingRows.1 hrow).2.symm.trans heq), id_eq]
  origin row' hrow' := by
    obtain ⟨row, hrow, rfl⟩ := List.mem_map.1 hrow'
    unfold overwrite
    by_cases hname : row .settingEnum = strSettingEnum
    · rw [if_pos hname, assign_settingTexts]
      exact Or.inr ⟨rfl, rfl, rfl⟩
    · rw [if_neg hname]
      exact Or.inl hrow

variable {dbl} {sqlite} {strServiceId strSettingEnum : String} {rjsonSettings : JsonValue}
  {db : SettingsDb}

@[simp] theorem storeSettings_statements :
    (storeSettings dbl sqlite strServiceId strSettingEnum rjsonSettings db).2.statements =
      db.statements + 2 := by
  unfold storeSettings
  dsimp only
  split <;> simp

/-- A store of plain texts that does not fail. -/
theorem storeSettings_of_plain {sqlite : Sqlite} (db : SettingsDb)
    (hid : PlainText strServiceId) (henum : PlainText strSettingEnum)
    (htext : PlainText (write dbl rjsonSettings))
    (h : sqlite.fails (db.statements + 1) = false) :
    ∃ rows', storeSettings dbl sqlite strServiceId strSettingEnum rjsonSettings db =
        (true, ⟨rows', db.statements + 2⟩) ∧
      Wrote strServiceId strSettingEnum (write dbl rjsonSettings) db.rows rows' := by
  have hselection : PlainTexts [(SettingColumn.settingEnum, strSettingEnum)] :=
    List.forall_mem_singleton.2 henum
  have hdata : PlainTexts (settingTexts strServiceId strSettingEnum (write dbl rjsonSettings)) := by
    intro p hp
    simp only [settingTexts, List.mem_cons, List.not_mem_nil, or_false] at hp
    rcases hp with rfl | rfl | rfl | rfl
    · exact hid
    · exact henum
    · exact htext
    · exact (by decide : PlainText settingNotApplicable)
  unfold storeSettings
  dsimp only
  rw [SettingsDb.query_snd]
  split
  · refine ⟨_, SettingsDb.exec_of_plain hdata h, ?_⟩
    exact wrote_append (SqlStatement.assign (settingTexts strServiceId strSettingEnum
      (write dbl rjsonSettings)) SqlStatement.defaultRow) db.rows
  · rename_i hsome
    refine ⟨_, SettingsDb.exec_of_plain ⟨hdata, hselection⟩ h, ?_⟩
    -- a row was found, so the update meets one
    rw [apply_update]
    refine wrote_overwrite strServiceId strSettingEnum (write dbl rjsonSettings) fun hnil =>
      hsome ?_
    cases hquery : (db.query sqlite [(.settingEnum, strSettingEnum)]).1 with
    | none => rfl
    | some rows =>
      have hrows := SettingsDb.eq_of_query_eq_some hselection hquery
      rw [hrows]
      unfold settingRows at hnil
      rw [hnil]
      rfl

/-! ## Clearing -/

theorem clearSettings_of_fails (h : sqlite.fails db.statements = true) :
    clearSettings sqlite strServiceId db = (false, ⟨db.rows, db.statements + 1⟩) :=
  SettingsDb.exec_of_fails h

/-- A clear that does not fail leaves the rows of the other services. -/
theorem clearSettings_of_plain (hid : PlainText strServiceId)
    (h : sqlite.fails db.statements = false) :
    clearSettings sqlite strServiceId db =
      (true, ⟨db.rows.filter fun row => row .settingId ≠ strServiceId, db.statements + 1⟩) := by
  have hplain : (SqlStatement.remove [(.settingId, strServiceId)]).Plain :=
    List.forall_mem_singleton.2 hid
  unfold clearSettings
  rw [SettingsDb.exec_of_plain hplain h]
  unfold SqlStatement.apply
  simp only [selects_singleton]

theorem serviceRows_filter_ne (strServiceId : String) (rows : List SettingRow) :
    serviceRows strServiceId (rows.filter fun row => row .settingId ≠ strServiceId) = [] := by
  rw [List.eq_nil_iff_forall_not_mem]
  intro row hrow
  obtain ⟨hmem, hid⟩ := mem_serviceRows.1 hrow
  exact of_decide_eq_true (List.mem_filter.1 hmem).2 hid

/-- A clear succeeds or leaves the table as it was. -/
theorem clearSettings_cases (sqlite : Sqlite) (db : SettingsDb) (hid : PlainText strServiceId) :
    ((clearSettings sqlite strServiceId db).1 = false ∧
      (clearSettings sqlite strServiceId db).2.rows = db.rows) ∨
    ((clearSettings sqlite strServiceId db).1 = true ∧
      (clearSettings sqlite strServiceId db).2.rows =
        db.rows.filter fun row => row .settingId ≠ strServiceId) := by
  cases hfails : sqlite.fails db.statements with
  | true =>
    rw [clearSettings_of_fails hfails]
    exact Or.inl ⟨rfl, rfl⟩
  | false =>
    rw [clearSettings_of_plain hid hfails]
    exact Or.inr ⟨rfl, rfl⟩

@[simp] theorem clearSettings_statements :
    (clearSettings sqlite strServiceId db).2.statements = db.statements + 1 :=
  SettingsDb.exec_statements _

/-! ## Reading -/

/-- Every row has the text of an object with its setting as the only member. -/
def WellFormed (dbl : DoubleText) (rows : List SettingRow) : Prop :=
  ∀ row ∈ rows, ∃ value, parse dbl (row .value) = .ok (.object [(row .settingEnum, value)])

/-- A store of an object with the setting as the only member keeps the table so. -/
theorem Wrote.wellFormed {strSettingsJson : String} {rows rows' : List SettingRow}
    (h : Wrote strServiceId strSettingEnum strSettingsJson rows rows')
    (hwf : WellFormed dbl rows) {value : JsonValue}
    (htext : parse dbl strSettingsJson = .ok (.object [(strSettingEnum, value)])) :
    WellFormed dbl rows' := by
  intro row hrow
  rcases h.origin row hrow with hold | ⟨_, henum, hvalue⟩
  · exact hwf row hold
  · rw [henum, hvalue]
    exact ⟨value, htext⟩

theorem WellFormed.mono {rows rows' : List SettingRow} (h : WellFormed dbl rows)
    (hsub : ∀ row ∈ rows', row ∈ rows) : WellFormed dbl rows' :=
  fun row hrow => h row (hsub row hrow)

theorem addSetting_of_parse {m : List (String × JsonValue)} {row : SettingRow} {name : String}
    {value : JsonValue} (h : parse dbl (row .value) = .ok (.object [(name, value)])) :
    addSetting dbl m row = some (Lib.setKey name value m) := by
  unfold addSetting
  rw [h]
  rfl

/-- Each setting is read from its last row, and nothing else is. -/
theorem configSettings_spec {rows : List SettingRow} (hwf : WellFormed dbl rows) :
    ∃ m, configSettings dbl rows = some m ∧ Lib.Ascending m ∧
      (∀ name row value, (settingRows name rows).getLast? = some row →
        parse dbl (row .value) = .ok (.object [(name, value)]) → m.lookup name = some value) ∧
      ∀ name, settingRows name rows = [] → m.lookup name = none := by
  induction rows using List.reverseRecOn with
  | nil =>
    refine ⟨[], rfl, Lib.ascending_nil, fun name row value hrow _ => ?_, fun _ _ => rfl⟩
    cases hrow
  | append_singleton rows row ih =>
    obtain ⟨m, hm, hascending, hlast, hnone⟩ :=
      ih (hwf.mono fun r hr => List.mem_append_left [row] hr)
    obtain ⟨w, hw⟩ := hwf row (List.mem_append_right rows (List.mem_singleton_self row))
    refine ⟨Lib.setKey (row .settingEnum) w m, ?_, Lib.ascending_setKey _ w hascending, ?_, ?_⟩
    · unfold configSettings at hm ⊢
      rw [List.foldlM_append, hm]
      simp only [List.foldlM_cons, List.foldlM_nil, Option.bind_eq_bind, Option.bind_some,
        addSetting_of_parse hw]
      rfl
    · intro name row' value hrow' hvalue
      rw [settingRows_append] at hrow'
      rw [Lib.lookup_setKey]
      by_cases hname : row .settingEnum = name
      · -- the new row is the last of its setting
        rw [if_pos hname, List.getLast?_concat] at hrow'
        rw [← Option.some.inj hrow', hw] at hvalue
        cases hvalue
        rw [if_pos rfl]
      · rw [if_neg hname, List.append_nil] at hrow'
        rw [if_neg fun heq => hname heq.symm]
        exact hlast name row' value hrow' hvalue
    · intro name hname
      rw [settingRows_append] at hname
      obtain ⟨hrows, hnew⟩ := List.append_eq_nil_iff.1 hname
      have hne : name ≠ row .settingEnum := by
        intro heq
        rw [if_pos heq.symm] at hnew
        cases hnew
      rw [Lib.lookup_setKey, if_neg hne]
      exact hnone name hrows

/-- A settled setting is read from the rows of its service. -/
theorem Settled.serviceRows {strSettingsJson : String} {rows : List SettingRow}
    (h : Settled strServiceId strSettingEnum strSettingsJson rows) :
    ∃ row, (settingRows strSettingEnum (serviceRows strServiceId rows)).getLast? = some row ∧
      row .value = strSettingsJson := by
  obtain ⟨row, hlast, hid, hvalue⟩ := h
  refine ⟨row, ?_, hvalue⟩
  obtain ⟨before, hbefore⟩ := List.getLast?_eq_some_iff.1 hlast
  have hcomm : settingRows strSettingEnum (SettingsStore.serviceRows strServiceId rows) =
      SettingsStore.serviceRows strServiceId (settingRows strSettingEnum rows) :=
    List.filter_comm _ _ _
  have hlast' : SettingsStore.serviceRows strServiceId [row] = [row] := by
    unfold SettingsStore.serviceRows
    rw [List.filter_cons_of_pos (by simpa using hid), List.filter_nil]
  rw [hcomm, hbefore]
  unfold SettingsStore.serviceRows at hlast' ⊢
  rw [List.filter_append, hlast', List.getLast?_concat]

end SettingsStore

end DeviceClient
