import DeviceClient.Db.ServiceSettingsStore
import DeviceClient.Lib.Run
import Mathlib.Data.List.Nodup

/-!
# Calls of the settings store

The calls that change the settings table: the store of an array of settings that
came from the cloud or from the device, the store of one setting, and the clearing
of one setting or of all settings of a service. The first looks a row up by service,
setting and source, the second by the setting alone.

`StoredSettings` is what the calls have stored, a map from service, setting and
source to the last text. It is history beside the table.

* `step`: one call.
* `CallKept`: the calls that keep the table in order, from the state before them.
* `Kept`: the rows are the graph of that map; with what becomes of it when a row is
  appended, rewritten or deleted.
-/

namespace DeviceClient

open JsonText

namespace SettingsStore

/-! ## Model -/

/-- The source of a setting. A store of one setting leaves the column at its default. -/
inductive SettingSource where
  | cloud
  | device
  | unmarked
deriving DecidableEq, Repr

def SettingSource.text : SettingSource → String
  | .cloud => "false"
  | .device => "true"
  | .unmarked => "0"

def sourceOf (bIsFromDevice : Bool) : SettingSource := if bIsFromDevice then .device else .cloud

/-- The selection by service, setting and source. -/
def sourceSelection (strServiceId strSettingEnum : String) (bIsFromDevice : Bool) : ColumnTexts :=
  [(.settingId, strServiceId), (.settingEnum, strSettingEnum),
    (.srcIsDevice, (sourceOf bIsFromDevice).text)]

/-- The content values of one element. -/
def elementTexts (strServiceId strObjSettingEnum strObjValStr strMsgId : String)
    (bIsFromDevice : Bool) : ColumnTexts :=
  [(.settingId, strServiceId), (.settingEnum, strObjSettingEnum), (.value, strObjValStr),
    (.corrId, strMsgId), (.responseStatus, "false"),
    (.srcIsDevice, (sourceOf bIsFromDevice).text)]

variable (dbl : DoubleText) (sqlite : Sqlite)

/-- The setting of an element and the text of its value; `none` where reading throws. -/
def settingOfElement : JsonValue → Option (String × String)
  | .object members =>
    let jsonSettingEnum := (members.lookup "settingEnum").getD .null
    let jsonValue := (members.lookup "value").getD .null
    (jsonSettingEnum.asString dbl.valueToString).bind fun strObjSettingEnum =>
      -- the text of the value is not used, but an array or an object has none
      (jsonValue.asString dbl.valueToString).map fun _ =>
        (strObjSettingEnum, write dbl (.object [(strObjSettingEnum, jsonValue)]))
  | .null => some ("", write dbl (.object [("", .null)]))
  | _ => none

/-- The body of the loop of `StoreSettings` of an array. -/
def storeElement (strServiceId strObjSettingEnum strObjValStr strMsgId : String)
    (bIsFromDevice : Bool) (db : SettingsDb) : Bool × SettingsDb :=
  let contentValues :=
    elementTexts strServiceId strObjSettingEnum strObjValStr strMsgId bIsFromDevice
  let strSelection := sourceSelection strServiceId strObjSettingEnum bIsFromDevice
  let r := db.query sqlite strSelection
  if storedId r.1 = -1 then r.2.exec sqlite (.insert contentValues)
  else r.2.exec sqlite (.update contentValues strSelection)

/-- `ClearSettings`. -/
def clearSetting (strServiceId strSettingEnum : String) (db : SettingsDb) : Bool × SettingsDb :=
  db.exec sqlite (.remove
    (if strSettingEnum = "" then [(.settingId, strServiceId)]
    else [(.settingId, strServiceId), (.settingEnum, strSettingEnum)]))

/-- `GetValueForSettings`: the settings of the cloud only. -/
def getValueForSettings (strServiceId strSettingEnum : String) (db : SettingsDb) :
    String × SettingsDb :=
  let r := db.query sqlite (sourceSelection strServiceId strSettingEnum false)
  (((r.1.bind List.head?).map fun row => row .value).getD "", r.2)

/-! ## What has been stored -/

/-- The last text stored for a setting of a service, by source. -/
abbrev StoredSettings := String → String → SettingSource → Option String

namespace StoredSettings

def put (strServiceId strSettingEnum : String) (source : SettingSource) (text : String)
    (stored : StoredSettings) : StoredSettings :=
  fun service setting src =>
    if service = strServiceId ∧ setting = strSettingEnum ∧ src = source then some text
    else stored service setting src

/-- The setting is there, from any source. -/
def Present (stored : StoredSettings) (strServiceId strSettingEnum : String) : Prop :=
  stored strServiceId strSettingEnum .cloud ≠ none ∨
    stored strServiceId strSettingEnum .device ≠ none ∨
    stored strServiceId strSettingEnum .unmarked ≠ none

instance (stored : StoredSettings) (strServiceId strSettingEnum : String) :
    Decidable (stored.Present strServiceId strSettingEnum) := inferInstanceAs (Decidable (_ ∨ _))

/-- A store that names no source: a setting that is there is overridden, a new one is
unmarked. -/
def override (strServiceId strSettingEnum text : String) (stored : StoredSettings) :
    StoredSettings :=
  if stored.Present strServiceId strSettingEnum then
    fun service setting src =>
      if service = strServiceId ∧ setting = strSettingEnum then
        (stored service setting src).map fun _ => text
      else stored service setting src
  else stored.put strServiceId strSettingEnum .unmarked text

/-- Without a setting all of them are cleared. -/
def clear (strServiceId strSettingEnum : String) (stored : StoredSettings) : StoredSettings :=
  fun service setting src =>
    if service = strServiceId ∧ (strSettingEnum = "" ∨ setting = strSettingEnum) then none
    else stored service setting src

theorem put_of_service_ne {strServiceId strSettingEnum text service : String}
    {source : SettingSource} (stored : StoredSettings) (hne : service ≠ strServiceId) :
    stored.put strServiceId strSettingEnum source text service = stored service := by
  funext setting src
  exact if_neg fun h => hne h.1

theorem override_of_service_ne {strServiceId strSettingEnum text service : String}
    (stored : StoredSettings) (hne : service ≠ strServiceId) :
    stored.override strServiceId strSettingEnum text service = stored service := by
  unfold override
  by_cases hpresent : stored.Present strServiceId strSettingEnum
  · rw [if_pos hpresent]
    funext setting src
    exact if_neg fun h => hne h.1
  · rw [if_neg hpresent]
    exact put_of_service_ne stored hne

theorem clear_of_service_ne {strServiceId strSettingEnum service : String}
    (stored : StoredSettings) (hne : service ≠ strServiceId) :
    stored.clear strServiceId strSettingEnum service = stored service := by
  funext setting src
  exact if_neg fun h => hne h.1

end StoredSettings

/-! ## Runs -/

/-- The table, and what has been stored. -/
structure SettingsRun where
  db : SettingsDb
  stored : StoredSettings

/-- An empty table. -/
def SettingsRun.init : SettingsRun := ⟨⟨[], 0⟩, fun _ _ _ => none⟩

inductive SettingsCall where
  | storeSettings (strServiceId strSettingEnum : String) (rjsonSettings : JsonValue)
  | storeSettingsArray (strServiceId : String) (rjsonSettings : JsonValue) (strMsgId : String)
      (bIsFromDevice : Bool)
  | clearSettings (strServiceId strSettingEnum : String)

/-- The service that a call is on. -/
def SettingsCall.service : SettingsCall → String
  | .storeSettings strServiceId _ _ => strServiceId
  | .storeSettingsArray strServiceId _ _ _ => strServiceId
  | .clearSettings strServiceId _ => strServiceId

/-- What an operation did, on record if it succeeded. -/
def SettingsRun.record (st : SettingsRun) (r : Bool × SettingsDb)
    (change : StoredSettings → StoredSettings) : SettingsRun :=
  ⟨r.2, if r.1 then change st.stored else st.stored⟩

/-- The loop of `StoreSettings` of an array, up to an element that fails or throws;
`none` is the exception. -/
def storeElements (strServiceId strMsgId : String) (bIsFromDevice : Bool) :
    List JsonValue → SettingsRun → Option Bool × SettingsRun
  | [], st => (some true, st)
  | jsonSettingObj :: rest, st =>
    match settingOfElement dbl jsonSettingObj with
    | none => (none, st)
    | some (strObjSettingEnum, strObjValStr) =>
      let r := storeElement sqlite strServiceId strObjSettingEnum strObjValStr strMsgId
        bIsFromDevice st.db
      let st' := st.record r
        (StoredSettings.put strServiceId strObjSettingEnum (sourceOf bIsFromDevice) strObjValStr)
      if r.1 then storeElements strServiceId strMsgId bIsFromDevice rest st' else (some false, st')

/-- `StoreSettings` of an array. -/
def storeSettingsArray (strServiceId : String) (rjsonSettings : JsonValue) (strMsgId : String)
    (bIsFromDevice : Bool) (st : SettingsRun) : Option Bool × SettingsRun :=
  match rjsonSettings with
  | .array values => storeElements dbl sqlite strServiceId strMsgId bIsFromDevice values st
  -- the index into an object throws
  | .object members => if members.isEmpty then (some true, st) else (none, st)
  | _ => (some true, st)

def step (st : SettingsRun) : SettingsCall → SettingsRun
  | .storeSettings strServiceId strSettingEnum rjsonSettings =>
    st.record (storeSettings dbl sqlite strServiceId strSettingEnum rjsonSettings st.db)
      (StoredSettings.override strServiceId strSettingEnum (write dbl rjsonSettings))
  | .storeSettingsArray strServiceId rjsonSettings strMsgId bIsFromDevice =>
    (storeSettingsArray dbl sqlite strServiceId rjsonSettings strMsgId bIsFromDevice st).2
  | .clearSettings strServiceId strSettingEnum =>
    st.record (clearSetting sqlite strServiceId strSettingEnum st.db)
      (StoredSettings.clear strServiceId strSettingEnum)

def next (st : SettingsRun) (call : SettingsCall) : Option SettingsRun :=
  some (step dbl sqlite st call)

/-! ## The condition -/

/-- The lookup takes a row for one. -/
def Found (strSelection : ColumnTexts) (strSettingEnum : String) (db : SettingsDb) : Prop :=
  sqlite.fails db.statements = false ∧ stringToNumber strSettingEnum ≠ -1 ∧
    ∃ row ∈ db.rows, Selects strSelection row

/-- The statement behind the lookup fails. -/
def WriteFails (db : SettingsDb) : Prop := sqlite.fails (db.statements + 1) = true

/-- All texts are literals, and a row that is there is found. -/
def ElementKept (strServiceId strObjSettingEnum strObjValStr strMsgId : String)
    (bIsFromDevice : Bool) (db : SettingsDb) : Prop :=
  WriteFails sqlite db ∨
    PlainTexts (elementTexts strServiceId strObjSettingEnum strObjValStr strMsgId bIsFromDevice) ∧
    (¬ Found sqlite (sourceSelection strServiceId strObjSettingEnum bIsFromDevice)
        strObjSettingEnum db →
      ∀ row ∈ db.rows, ¬ Selects (sourceSelection strServiceId strObjSettingEnum bIsFromDevice) row)

/-- Along the loop over an array. -/
def ElementsKept (strServiceId strMsgId : String) (bIsFromDevice : Bool) :
    List JsonValue → SettingsRun → Prop
  | [], _ => True
  | jsonSettingObj :: rest, st =>
    match settingOfElement dbl jsonSettingObj with
    | none => True
    | some (strObjSettingEnum, strObjValStr) =>
      let r := storeElement sqlite strServiceId strObjSettingEnum strObjValStr strMsgId
        bIsFromDevice st.db
      ElementKept sqlite strServiceId strObjSettingEnum strObjValStr strMsgId bIsFromDevice st.db ∧
        (r.1 = true → ElementsKept strServiceId strMsgId bIsFromDevice rest (st.record r
          (StoredSettings.put strServiceId strObjSettingEnum (sourceOf bIsFromDevice) strObjValStr)))

/-- All texts are literals, a row of the service is found, and what is found is the
service's. -/
def SettingKept (strServiceId strSettingEnum strSettingsJson : String) (db : SettingsDb) : Prop :=
  WriteFails sqlite db ∨
    PlainTexts (settingTexts strServiceId strSettingEnum strSettingsJson) ∧
    (Found sqlite [(.settingEnum, strSettingEnum)] strSettingEnum db →
      ∀ row ∈ db.rows, row .settingEnum = strSettingEnum → row .settingId = strServiceId) ∧
    (¬ Found sqlite [(.settingEnum, strSettingEnum)] strSettingEnum db →
      ∀ row ∈ db.rows, row .settingEnum = strSettingEnum → row .settingId ≠ strServiceId)

/-- The calls that keep the table in order, from the state before them. -/
def CallKept (st : SettingsRun) : SettingsCall → Prop
  | .storeSettings strServiceId strSettingEnum rjsonSettings =>
    SettingKept sqlite strServiceId strSettingEnum (write dbl rjsonSettings) st.db
  | .storeSettingsArray strServiceId rjsonSettings strMsgId bIsFromDevice =>
    ∀ values, rjsonSettings = .array values →
      ElementsKept dbl sqlite strServiceId strMsgId bIsFromDevice values st
  | .clearSettings strServiceId strSettingEnum =>
    sqlite.fails st.db.statements = true ∨ PlainText strServiceId ∧ PlainText strSettingEnum

/-! ## Keys -/

/-- Service, setting and source of a row. -/
def rowKey (row : SettingRow) : String × String × String :=
  (row .settingId, row .settingEnum, row .srcIsDevice)

/-- The value in the first row of the key. -/
def storedValue (rows : List SettingRow) : StoredSettings := fun service setting src =>
  (rows.find? fun row => rowKey row = (service, setting, src.text)).map fun row => row .value

/-- The rows are the graph of what has been stored. -/
structure Kept (rows : List SettingRow) (stored : StoredSettings) : Prop where
  unique : (rows.map rowKey).Nodup
  source : ∀ row ∈ rows, ∃ src : SettingSource, row .srcIsDevice = src.text
  value : ∀ service setting src text, stored service setting src = some text ↔
    ∃ row ∈ rows, rowKey row = (service, setting, src.text) ∧ row .value = text

theorem SettingSource.text_injective {src src' : SettingSource} (h : src.text = src'.text) :
    src = src' := by
  cases src <;> cases src' <;> first | rfl | (exact absurd h (by decide))

theorem rowKey_eq_iff {row : SettingRow} {service setting text : String} :
    rowKey row = (service, setting, text) ↔
      row .settingId = service ∧ row .settingEnum = setting ∧ row .srcIsDevice = text := by
  unfold rowKey
  rw [Prod.mk.injEq, Prod.mk.injEq]

theorem selects_sourceSelection {strServiceId strSettingEnum : String} {bIsFromDevice : Bool}
    {row : SettingRow} :
    Selects (sourceSelection strServiceId strSettingEnum bIsFromDevice) row ↔
      rowKey row = (strServiceId, strSettingEnum, (sourceOf bIsFromDevice).text) := by
  rw [rowKey_eq_iff]
  unfold Selects sourceSelection
  simp only [List.forall_mem_cons, List.not_mem_nil, false_implies, implies_true, and_true]

namespace Kept

variable {rows : List SettingRow} {stored stored' : StoredSettings}

/-- The first row of a key is the only one. -/
theorem storedValue_eq (h : Kept rows stored) (service setting : String) (src : SettingSource) :
    storedValue rows service setting src = stored service setting src := by
  unfold storedValue
  ext text
  rw [h.value, Option.map_eq_some_iff]
  constructor
  · rintro ⟨row, hfind, hvalue⟩
    have hkey := List.find?_some hfind
    exact ⟨row, List.mem_of_find?_eq_some hfind, of_decide_eq_true hkey, hvalue⟩
  · rintro ⟨row, hrow, hkey, hvalue⟩
    have hsome : (rows.find? fun row => rowKey row = (service, setting, src.text)).isSome := by
      rw [List.find?_isSome]
      exact ⟨row, hrow, decide_eq_true hkey⟩
    obtain ⟨first, hfirst⟩ := Option.isSome_iff_exists.1 hsome
    have hkey' := List.find?_some hfirst
    have heq : first = row := List.inj_on_of_nodup_map h.unique
      (List.mem_of_find?_eq_some hfirst) hrow ((of_decide_eq_true hkey').trans hkey.symm)
    exact ⟨first, hfirst, by rw [heq]; exact hvalue⟩

/-- What a row holds is stored. -/
theorem stored_of_mem (h : Kept rows stored) {row : SettingRow} (hrow : row ∈ rows)
    {src : SettingSource} (hsrc : row .srcIsDevice = src.text) :
    stored (row .settingId) (row .settingEnum) src = some (row .value) :=
  (h.value _ _ _ _).2 ⟨row, hrow, rowKey_eq_iff.2 ⟨rfl, rfl, hsrc⟩, rfl⟩

/-- A new row under a key of its own. -/
theorem append (h : Kept rows stored) (row : SettingRow) (src : SettingSource)
    (hsrc : row .srcIsDevice = src.text) (hnew : ∀ row' ∈ rows, rowKey row' ≠ rowKey row) :
    Kept (rows ++ [row]) (stored.put (row .settingId) (row .settingEnum) src (row .value)) where
  unique := by
    rw [List.map_append, List.map_singleton, ← List.concat_eq_append]
    refine List.Nodup.concat (fun hmem => ?_) h.unique
    obtain ⟨row', hrow', heq⟩ := List.mem_map.1 hmem
    exact hnew row' hrow' heq
  source := by
    intro row' hrow'
    rcases List.mem_append.1 hrow' with hmem | hmem
    · exact h.source row' hmem
    · rw [List.mem_singleton.1 hmem]
      exact ⟨src, hsrc⟩
  value := by
    intro service setting src' text
    have hrowKey : rowKey row = (row .settingId, row .settingEnum, src.text) := by
      rw [← hsrc]
      rfl
    unfold StoredSettings.put
    -- the value asked for is the new one, or one of before
    by_cases hkey : service = row .settingId ∧ setting = row .settingEnum ∧ src' = src
    · obtain ⟨rfl, rfl, rfl⟩ := hkey
      rw [if_pos ⟨rfl, rfl, rfl⟩, Option.some.injEq]
      constructor
      · intro htext
        exact ⟨row, List.mem_append_right rows (List.mem_singleton_self row), hrowKey, htext⟩
      · rintro ⟨row', hrow', heq, htext⟩
        rcases List.mem_append.1 hrow' with hmem | hmem
        · exact absurd (heq.trans hrowKey.symm) (hnew row' hmem)
        · rw [List.mem_singleton.1 hmem] at htext
          exact htext
    · rw [if_neg hkey, h.value]
      constructor
      · rintro ⟨row', hrow', heq, htext⟩
        exact ⟨row', List.mem_append_left [row] hrow', heq, htext⟩
      · rintro ⟨row', hrow', heq, htext⟩
        rcases List.mem_append.1 hrow' with hmem | hmem
        · exact ⟨row', hmem, heq, htext⟩
        · rw [List.mem_singleton.1 hmem, hrowKey, Prod.mk.injEq, Prod.mk.injEq] at heq
          exact absurd ⟨heq.1.symm, heq.2.1.symm,
            (SettingSource.text_injective heq.2.2).symm⟩ hkey

/-- Rows that are rewritten under their keys. -/
theorem map (h : Kept rows stored) {f : SettingRow → SettingRow}
    (hkey : ∀ row ∈ rows, rowKey (f row) = rowKey row)
    (hvalue : ∀ row ∈ rows, ∀ src : SettingSource, row .srcIsDevice = src.text →
      stored' (row .settingId) (row .settingEnum) src = some (f row .value))
    (hother : ∀ service setting src, stored service setting src = none →
      stored' service setting src = none) :
    Kept (rows.map f) stored' where
  unique := by
    rw [List.map_map]
    have hcongr : rows.map (rowKey ∘ f) = rows.map rowKey := List.map_congr_left hkey
    rw [hcongr]
    exact h.unique
  source := by
    intro row' hrow'
    obtain ⟨row, hrow, rfl⟩ := List.mem_map.1 hrow'
    have hsource : f row .srcIsDevice = row .srcIsDevice :=
      (Prod.mk.inj (Prod.mk.inj (hkey row hrow)).2).2
    rw [hsource]
    exact h.source row hrow
  value := by
    intro service setting src text
    constructor
    · intro hstored
      -- there is a row for the key, and what it is rewritten to is the new text
      obtain ⟨old, hold⟩ := Option.ne_none_iff_exists'.1
        fun hnone => Option.some_ne_none text (hstored.symm.trans (hother service setting src hnone))
      obtain ⟨row, hrow, heq, -⟩ := (h.value service setting src old).1 hold
      refine ⟨f row, List.mem_map_of_mem hrow, (hkey row hrow).trans heq, ?_⟩
      obtain ⟨rfl, rfl, hsrc⟩ := rowKey_eq_iff.1 heq
      exact Option.some.inj ((hvalue row hrow src hsrc).symm.trans hstored)
    · rintro ⟨row', hrow', heq, htext⟩
      obtain ⟨row, hrow, rfl⟩ := List.mem_map.1 hrow'
      obtain ⟨rfl, rfl, hsrc⟩ := rowKey_eq_iff.1 ((hkey row hrow).symm.trans heq)
      rw [hvalue row hrow src hsrc, htext]

/-- Rows that are deleted, by service and setting. -/
theorem filter (h : Kept rows stored) {p : SettingRow → Bool} (gone : String → String → Prop)
    [DecidableRel gone] (hp : ∀ row, p row = true ↔ ¬ gone (row .settingId) (row .settingEnum)) :
    Kept (rows.filter p) fun service setting src =>
      if gone service setting then none else stored service setting src where
  unique := h.unique.sublist (List.filter_sublist.map rowKey)
  source := fun row hrow => h.source row (List.mem_of_mem_filter hrow)
  value := by
    intro service setting src text
    by_cases hgone : gone service setting
    · rw [if_pos hgone]
      refine ⟨fun h => (Option.some_ne_none text h.symm).elim, ?_⟩
      rintro ⟨row, hrow, heq, -⟩
      obtain ⟨rfl, rfl, -⟩ := rowKey_eq_iff.1 heq
      exact absurd hgone ((hp row).1 (List.mem_filter.1 hrow).2)
    · rw [if_neg hgone, h.value]
      constructor
      · rintro ⟨row, hrow, heq, htext⟩
        obtain ⟨rfl, rfl, hsrc⟩ := rowKey_eq_iff.1 heq
        exact ⟨row, List.mem_filter.2 ⟨hrow, (hp row).2 hgone⟩, heq, htext⟩
      · rintro ⟨row, hrow, heq, htext⟩
        exact ⟨row, List.mem_of_mem_filter hrow, heq, htext⟩

end Kept

end SettingsStore

end DeviceClient
