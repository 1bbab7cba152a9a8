import DeviceClient.Db.SettingsCalls

/-!
# Isolation of the settings

A call keeps the rows the graph of what has been stored when it finds the row that is
there and, if it looks the row up by the setting alone, when the row is the service's.

* `Kept.step`: one call.
* `settingsKept_of_run`: at most one row of a service, a setting and a source, the
  values last stored, and no change for other services, after every run of such calls.
-/

namespace DeviceClient

open JsonText

namespace SettingsStore

variable {dbl : DoubleText} {sqlite : Sqlite} {st : SettingsRun}

/-! ## One call -/

theorem storedId_query {strSelection : ColumnTexts} {strSettingEnum : String} {db : SettingsDb}
    (hplain : PlainTexts strSelection) (hmem : (.settingEnum, strSettingEnum) ∈ strSelection) :
    storedId (db.query sqlite strSelection).1 = -1 ↔
      ¬ Found sqlite strSelection strSettingEnum db := by
  cases hfails : sqlite.fails db.statements with
  | true =>
    have hnone : (db.query sqlite strSelection).1 = none := if_pos hfails
    rw [hnone]
    exact iff_of_true rfl fun hfound => Bool.noConfusion (hfails.symm.trans hfound.1)
  | false =>
    rw [SettingsDb.query_of_plain hplain hfails]
    -- the id of the first row that is selected
    cases hrows : db.rows.filter fun row => Selects strSelection row with
    | nil =>
      refine iff_of_true rfl fun hfound => ?_
      obtain ⟨row, hrow, hselects⟩ := hfound.2.2
      have hin : row ∈ db.rows.filter fun row => Selects strSelection row :=
        List.mem_filter.2 ⟨hrow, decide_eq_true hselects⟩
      rw [hrows] at hin
      cases hin
    | cons row rest =>
      have hin : row ∈ db.rows.filter fun row => Selects strSelection row := by
        rw [hrows]
        exact List.mem_cons_self
      obtain ⟨hrow, hselects⟩ := List.mem_filter.1 hin
      have henum : row .settingEnum = strSettingEnum := of_decide_eq_true hselects _ hmem
      unfold storedId Found
      dsimp only
      rw [henum]
      constructor
      · intro hid hfound
        exact hfound.2.1 hid
      · intro hnot
        by_contra hid
        exact hnot ⟨hfails, hid, row, hrow, of_decide_eq_true hselects⟩

section Element

variable {strServiceId strObjSettingEnum strObjValStr strMsgId : String} {bIsFromDevice : Bool}

theorem plainTexts_sourceSelection
    (h : PlainTexts (elementTexts strServiceId strObjSettingEnum strObjValStr strMsgId
      bIsFromDevice)) :
    PlainTexts (sourceSelection strServiceId strObjSettingEnum bIsFromDevice) := by
  unfold PlainTexts elementTexts at h
  unfold PlainTexts sourceSelection
  simp only [List.forall_mem_cons] at h ⊢
  exact ⟨h.1, h.2.1, h.2.2.2.2.2⟩

/-- A row after an element has been stored over it. -/
theorem assign_elementTexts (row : SettingRow) :
    SqlStatement.assign (elementTexts strServiceId strObjSettingEnum strObjValStr strMsgId
        bIsFromDevice) row =
      fun
        | .settingId => strServiceId
        | .settingEnum => strObjSettingEnum
        | .value => strObjValStr
        | .corrId => strMsgId
        | .responseStatus => "false"
        | .srcIsDevice => (sourceOf bIsFromDevice).text := by
  funext column
  cases column <;> rfl

theorem storeElement_of_fails {db : SettingsDb} (hfails : WriteFails sqlite db) :
    storeElement sqlite strServiceId strObjSettingEnum strObjValStr strMsgId bIsFromDevice db =
      (false, ⟨db.rows, db.statements + 2⟩) := by
  have hfails' : sqlite.fails (db.statements + 1) = true := hfails
  unfold storeElement
  dsimp only
  rw [SettingsDb.query_snd]
  split
  · rw [SettingsDb.exec_of_fails hfails']
  · rw [SettingsDb.exec_of_fails hfails']

theorem storeElement_of_plain {db : SettingsDb} (hsucceeds : ¬ WriteFails sqlite db)
    (hplain : PlainTexts (elementTexts strServiceId strObjSettingEnum strObjValStr strMsgId
      bIsFromDevice)) :
    storeElement sqlite strServiceId strObjSettingEnum strObjValStr strMsgId bIsFromDevice db =
      (true, ⟨if storedId (db.query sqlite (sourceSelection strServiceId strObjSettingEnum
          bIsFromDevice)).1 = -1 then
        (SqlStatement.insert (elementTexts strServiceId strObjSettingEnum strObjValStr strMsgId
          bIsFromDevice)).apply db.rows
      else
        (SqlStatement.update (elementTexts strServiceId strObjSettingEnum strObjValStr strMsgId
          bIsFromDevice) (sourceSelection strServiceId strObjSettingEnum bIsFromDevice)).apply
            db.rows, db.statements + 2⟩) := by
  have hsucceeds' : sqlite.fails (db.statements + 1) = false := Bool.eq_false_of_not_eq_true hsucceeds
  unfold storeElement
  dsimp only
  rw [SettingsDb.query_snd]
  split
  · exact SettingsDb.exec_of_plain hplain hsucceeds'
  · exact SettingsDb.exec_of_plain ⟨hplain, plainTexts_sourceSelection hplain⟩ hsucceeds'

/-- A new row for the element. -/
theorem Kept.insertElement {rows : List SettingRow} {stored : StoredSettings}
    (h : Kept rows stored)
    (hnew : ∀ row ∈ rows, ¬ Selects
      (sourceSelection strServiceId strObjSettingEnum bIsFromDevice) row) :
    Kept ((SqlStatement.insert (elementTexts strServiceId strObjSettingEnum strObjValStr strMsgId
        bIsFromDevice)).apply rows)
      (stored.put strServiceId strObjSettingEnum (sourceOf bIsFromDevice) strObjValStr) := by
  have happend := h.append (SqlStatement.assign (elementTexts strServiceId strObjSettingEnum
    strObjValStr strMsgId bIsFromDevice) SqlStatement.defaultRow) (sourceOf bIsFromDevice)
  show Kept (rows ++ [SqlStatement.assign _ SqlStatement.defaultRow]) _
  rw [assign_elementTexts] at happend ⊢
  apply happend rfl
  intro row hrow heq
  exact hnew row hrow (selects_sourceSelection.2 heq)

/-- The row of the element rewritten. -/
theorem Kept.updateElement {rows : List SettingRow} {stored : StoredSettings}
    (h : Kept rows stored)
    (hfound : ∃ row ∈ rows, Selects
      (sourceSelection strServiceId strObjSettingEnum bIsFromDevice) row) :
    Kept ((SqlStatement.update (elementTexts strServiceId strObjSettingEnum strObjValStr strMsgId
        bIsFromDevice) (sourceSelection strServiceId strObjSettingEnum bIsFromDevice)).apply rows)
      (stored.put strServiceId strObjSettingEnum (sourceOf bIsFromDevice) strObjValStr) := by
  refine h.map (fun row _ => ?_) (fun row hrow src hsrc => ?_) fun service setting src hnone => ?_
  · by_cases hselects : Selects (sourceSelection strServiceId strObjSettingEnum bIsFromDevice) row
    · rw [if_pos hselects, assign_elementTexts, selects_sourceSelection.1 hselects]
      rfl
    · rw [if_neg hselects]
  · unfold StoredSettings.put
    by_cases hselects : Selects (sourceSelection strServiceId strObjSettingEnum bIsFromDevice) row
    · obtain ⟨hid, henum, hsource⟩ := rowKey_eq_iff.1 (selects_sourceSelection.1 hselects)
      have hsource' : src = sourceOf bIsFromDevice :=
        SettingSource.text_injective (hsrc.symm.trans hsource)
      rw [if_pos hselects, assign_elementTexts, if_pos ⟨hid, henum, hsource'⟩]
    · rw [if_neg hselects, if_neg, h.stored_of_mem hrow hsrc]
      intro hkey
      apply hselects
      rw [selects_sourceSelection, rowKey_eq_iff, hsrc, hkey.2.2]
      exact ⟨hkey.1, hkey.2.1, rfl⟩
  · unfold StoredSettings.put
    rw [if_neg, hnone]
    -- the row that was found has a stored value
    rintro ⟨rfl, rfl, rfl⟩
    obtain ⟨row, hrow, hselects⟩ := hfound
    obtain ⟨rfl, rfl, hsource⟩ := rowKey_eq_iff.1 (selects_sourceSelection.1 hselects)
    rw [h.stored_of_mem hrow hsource] at hnone
    cases hnone

theorem Kept.storeElement (h : Kept st.db.rows st.stored)
    (hok : ElementKept sqlite strServiceId strObjSettingEnum strObjValStr strMsgId bIsFromDevice
      st.db) {st' : SettingsRun}
    (hst' : st' = st.record (storeElement sqlite strServiceId strObjSettingEnum strObjValStr
        strMsgId bIsFromDevice st.db)
      (StoredSettings.put strServiceId strObjSettingEnum (sourceOf bIsFromDevice) strObjValStr)) :
    Kept st'.db.rows st'.stored := by
  subst hst'
  by_cases hfails : WriteFails sqlite st.db
  · rw [storeElement_of_fails hfails]
    exact h
  obtain ⟨hplain, hnew⟩ := hok.resolve_left hfails
  rw [storeElement_of_plain hfails hplain]
  have hmem : (SettingColumn.settingEnum, strObjSettingEnum) ∈
      sourceSelection strServiceId strObjSettingEnum bIsFromDevice :=
    List.mem_cons_of_mem _ List.mem_cons_self
  have hfound : storedId (st.db.query sqlite _).1 = -1 ↔ _ :=
    storedId_query (plainTexts_sourceSelection hplain) hmem
  unfold SettingsRun.record
  dsimp only
  rw [if_pos rfl]
  split
  · rename_i hid
    exact h.insertElement (hnew (hfound.1 hid))
  · rename_i hid
    exact h.updateElement (not_not.1 fun hnot => hid (hfound.2 hnot)).2.2

end Element

/-- The loop over an array. -/
theorem Kept.storeElements {strServiceId strMsgId : String} {bIsFromDevice : Bool}
    {values : List JsonValue} (h : Kept st.db.rows st.stored)
    (hok : ElementsKept dbl sqlite strServiceId strMsgId bIsFromDevice values st) :
    Kept (storeElements dbl sqlite strServiceId strMsgId bIsFromDevice values st).2.db.rows
      (storeElements dbl sqlite strServiceId strMsgId bIsFromDevice values st).2.stored := by
  induction values generalizing st with
  | nil => exact h
  | cons jsonSettingObj rest ih =>
    unfold SettingsStore.storeElements
    unfold ElementsKept at hok
    cases hsetting : settingOfElement dbl jsonSettingObj with
    | none => exact h
    | some setting =>
      obtain ⟨strObjSettingEnum, strObjValStr⟩ := setting
      rw [hsetting] at hok
      have hkept := h.storeElement hok.1 rfl
      dsimp only
      split
      · rename_i hsuccess
        exact ih hkept (hok.2 hsuccess)
      · exact hkept

section Setting

variable {strServiceId strSettingEnum strSettingsJson : String} {rjsonSettings : JsonValue}

theorem storeSettings_of_fails {db : SettingsDb} (hfails : WriteFails sqlite db) :
    storeSettings dbl sqlite strServiceId strSettingEnum rjsonSettings db =
      (false, ⟨db.rows, db.statements + 2⟩) := by
  have hfails' : sqlite.fails (db.statements + 1) = true := hfails
  unfold storeSettings
  dsimp only
  rw [SettingsDb.query_snd]
  split
  · rw [SettingsDb.exec_of_fails hfails']
  · rw [SettingsDb.exec_of_fails hfails']

theorem plainText_settingEnum
    (h : PlainTexts (settingTexts strServiceId strSettingEnum strSettingsJson)) :
    PlainTexts [(SettingColumn.settingEnum, strSettingEnum)] := by
  have hmem : (SettingColumn.settingEnum, strSettingEnum) ∈
      settingTexts strServiceId strSettingEnum strSettingsJson :=
    List.mem_cons_of_mem _ List.mem_cons_self
  exact List.forall_mem_singleton.2 (h _ hmem)

theorem storeSettings_eq_of_plain {db : SettingsDb} (hsucceeds : ¬ WriteFails sqlite db)
    (hplain : PlainTexts (settingTexts strServiceId strSettingEnum (write dbl rjsonSettings))) :
    storeSettings dbl sqlite strServiceId strSettingEnum rjsonSettings db =
      (true, ⟨if storedId (db.query sqlite [(.settingEnum, strSettingEnum)]).1 = -1 then
        (SqlStatement.insert (settingTexts strServiceId strSettingEnum
          (write dbl rjsonSettings))).apply db.rows
      else
        (SqlStatement.update (settingTexts strServiceId strSettingEnum (write dbl rjsonSettings))
          [(.settingEnum, strSettingEnum)]).apply db.rows, db.statements + 2⟩) := by
  have hsucceeds' : sqlite.fails (db.statements + 1) = false := Bool.eq_false_of_not_eq_true hsucceeds
  unfold storeSettings
  dsimp only
  rw [SettingsDb.query_snd]
  split
  · exact SettingsDb.exec_of_plain hplain hsucceeds'
  · exact SettingsDb.exec_of_plain ⟨hplain, plainText_settingEnum hplain⟩ hsucceeds'

theorem Kept.present_iff {rows : List SettingRow} {stored : StoredSettings}
    (h : Kept rows stored) :
    stored.Present strServiceId strSettingEnum ↔
      ∃ row ∈ rows, row .settingId = strServiceId ∧ row .settingEnum = strSettingEnum := by
  constructor
  · intro hpresent
    have hsome : ∃ src text, stored strServiceId strSettingEnum src = some text := by
      rcases hpresent with hne | hne | hne
      · exact ⟨.cloud, Option.ne_none_iff_exists'.1 hne⟩
      · exact ⟨.device, Option.ne_none_iff_exists'.1 hne⟩
      · exact ⟨.unmarked, Option.ne_none_iff_exists'.1 hne⟩
    obtain ⟨src, text, hstored⟩ := hsome
    obtain ⟨row, hrow, hkey, -⟩ := (h.value _ _ _ _).1 hstored
    obtain ⟨hid, henum, -⟩ := rowKey_eq_iff.1 hkey
    exact ⟨row, hrow, hid, henum⟩
  · rintro ⟨row, hrow, rfl, rfl⟩
    obtain ⟨src, hsrc⟩ := h.source row hrow
    have hne : stored (row .settingId) (row .settingEnum) src ≠ none := by
      rw [h.stored_of_mem hrow hsrc]
      exact Option.some_ne_none _
    cases src with
    | cloud => exact Or.inl hne
    | device => exact Or.inr (Or.inl hne)
    | unmarked => exact Or.inr (Or.inr hne)

/-- A new row for the setting. -/
theorem Kept.insertSetting {rows : List SettingRow} {stored : StoredSettings}
    (h : Kept rows stored)
    (hnew : ∀ row ∈ rows, row .settingEnum = strSettingEnum → row .settingId ≠ strServiceId) :
    Kept ((SqlStatement.insert (settingTexts strServiceId strSettingEnum strSettingsJson)).apply
        rows)
      (stored.override strServiceId strSettingEnum strSettingsJson) := by
  have habsent : ¬ stored.Present strServiceId strSettingEnum := by
    rw [h.present_iff]
    rintro ⟨row, hrow, hid, henum⟩
    exact hnew row hrow henum hid
  have happend := h.append (SqlStatement.assign (settingTexts strServiceId strSettingEnum
    strSettingsJson) SqlStatement.defaultRow) .unmarked
  show Kept (rows ++ [SqlStatement.assign _ SqlStatement.defaultRow]) _
  unfold StoredSettings.override
  rw [if_neg habsent]
  rw [assign_settingTexts] at happend ⊢
  apply happend rfl
  intro row hrow heq
  obtain ⟨hid, henum, -⟩ := rowKey_eq_iff.1 heq
  exact hnew row hrow henum hid

/-- The rows of the setting rewritten, which are all of the service. -/
theorem Kept.updateSetting {rows : List SettingRow} {stored : StoredSettings}
    (h : Kept rows stored)
    (hown : ∀ row ∈ rows, row .settingEnum = strSettingEnum → row .settingId = strServiceId)
    (hfound : ∃ row ∈ rows, row .settingEnum = strSettingEnum) :
    Kept ((SqlStatement.update (settingTexts strServiceId strSettingEnum strSettingsJson)
        [(.settingEnum, strSettingEnum)]).apply rows)
      (stored.override strServiceId strSettingEnum strSettingsJson) := by
  have hpresent : stored.Present strServiceId strSettingEnum := by
    rw [h.present_iff]
    obtain ⟨row, hrow, henum⟩ := hfound
    exact ⟨row, hrow, hown row hrow henum, henum⟩
  rw [apply_update]
  unfold StoredSettings.override
  rw [if_pos hpresent]
  refine h.map (fun row hrow => ?_) (fun row hrow src hsrc => ?_) fun service setting src hnone => ?_
  · unfold overwrite
    by_cases henum : row .settingEnum = strSettingEnum
    · rw [if_pos henum, assign_settingTexts, rowKey_eq_iff.2 ⟨hown row hrow henum, henum, rfl⟩]
      rfl
    · rw [if_neg henum]
  · unfold overwrite
    by_cases henum : row .settingEnum = strSettingEnum
    · rw [if_pos henum, if_pos ⟨hown row hrow henum, henum⟩, assign_settingTexts,
        h.stored_of_mem hrow hsrc, Option.map_some]
    · rw [if_neg henum, if_neg fun hkey => henum hkey.2, h.stored_of_mem hrow hsrc]
  · split
    · rw [hnone, Option.map_none]
    · exact hnone

theorem Kept.storeSettings (h : Kept st.db.rows st.stored)
    (hok : SettingKept sqlite strServiceId strSettingEnum (write dbl rjsonSettings) st.db)
    {st' : SettingsRun}
    (hst' : st' = st.record (storeSettings dbl sqlite strServiceId strSettingEnum rjsonSettings
        st.db)
      (StoredSettings.override strServiceId strSettingEnum (write dbl rjsonSettings))) :
    Kept st'.db.rows st'.stored := by
  subst hst'
  by_cases hfails : WriteFails sqlite st.db
  · rw [storeSettings_of_fails hfails]
    exact h
  obtain ⟨hplain, hown, hnew⟩ := hok.resolve_left hfails
  rw [storeSettings_eq_of_plain hfails hplain]
  have hfound : storedId (st.db.query sqlite _).1 = -1 ↔ _ :=
    storedId_query (plainText_settingEnum hplain) (List.mem_singleton_self _)
  unfold SettingsRun.record
  dsimp only
  rw [if_pos rfl]
  split
  · rename_i hid
    exact h.insertSetting (hnew (hfound.1 hid))
  · rename_i hid
    have hthere := not_not.1 fun hnot => hid (hfound.2 hnot)
    obtain ⟨row, hrow, hselects⟩ := hthere.2.2
    exact h.updateSetting (hown hthere) ⟨row, hrow, (selects_singleton _ _ _).1 hselects⟩

end Setting

theorem Kept.clearSetting {strServiceId strSettingEnum : String} (h : Kept st.db.rows st.stored)
    (hok : sqlite.fails st.db.statements = true ∨
      PlainText strServiceId ∧ PlainText strSettingEnum) {st' : SettingsRun}
    (hst' : st' = st.record (clearSetting sqlite strServiceId strSettingEnum st.db)
      (StoredSettings.clear strServiceId strSettingEnum)) :
    Kept st'.db.rows st'.stored := by
  subst hst'
  unfold SettingsStore.clearSetting
  cases hfails : sqlite.fails st.db.statements with
  | true =>
    rw [SettingsDb.exec_of_fails hfails]
    exact h
  | false =>
    obtain ⟨hid, henum⟩ := hok.resolve_left (by simp [hfails])
    -- the statement names the setting or the whole service
    have hplain : (SqlStatement.remove (if strSettingEnum = "" then [(.settingId, strServiceId)]
        else [(.settingId, strServiceId), (.settingEnum, strSettingEnum)])).Plain := by
      show PlainTexts _
      split
      · exact List.forall_mem_singleton.2 hid
      · exact List.forall_mem_cons.2 ⟨hid, List.forall_mem_singleton.2 henum⟩
    rw [SettingsDb.exec_of_plain hplain hfails]
    show Kept (List.filter _ st.db.rows) (st.stored.clear strServiceId strSettingEnum)
    refine h.filter (fun service setting => service = strServiceId ∧
      (strSettingEnum = "" ∨ setting = strSettingEnum)) fun row => ?_
    rw [decide_eq_true_iff]
    split
    · rename_i hempty
      rw [selects_singleton, hempty]
      simp
    · rename_i hempty
      unfold Selects
      simp [hempty]

theorem Kept.step {call : SettingsCall} (h : Kept st.db.rows st.stored)
    (hok : CallKept dbl sqlite st call) :
    Kept (step dbl sqlite st call).db.rows (step dbl sqlite st call).stored := by
  cases call with
  | storeSettings strServiceId strSettingEnum rjsonSettings => exact h.storeSettings hok rfl
  | storeSettingsArray strServiceId rjsonSettings strMsgId bIsFromDevice =>
    unfold SettingsStore.step storeSettingsArray
    dsimp only
    split
    · exact h.storeElements (hok _ rfl)
    · split
      · exact h
      · exact h
    · exact h
  | clearSettings strServiceId strSettingEnum => exact h.clearSetting hok rfl

/-! ## Other services -/

theorem record_stored_of_service {st : SettingsRun} {r : Bool × SettingsDb}
    {change : StoredSettings → StoredSettings} {service : String}
    (hchange : change st.stored service = st.stored service) :
    (st.record r change).stored service = st.stored service := by
  unfold SettingsRun.record
  dsimp only
  split
  · exact hchange
  · rfl

theorem storeElements_stored_of_service_ne {strServiceId strMsgId service : String}
    {bIsFromDevice : Bool} (hne : service ≠ strServiceId) (values : List JsonValue) :
    (storeElements dbl sqlite strServiceId strMsgId bIsFromDevice values st).2.stored service =
      st.stored service := by
  induction values generalizing st with
  | nil => rfl
  | cons jsonSettingObj rest ih =>
    unfold storeElements
    cases hsetting : settingOfElement dbl jsonSettingObj with
    | none => rfl
    | some setting =>
      have hrecord : (st.record
          (storeElement sqlite strServiceId setting.1 setting.2 strMsgId bIsFromDevice st.db)
          (StoredSettings.put strServiceId setting.1 (sourceOf bIsFromDevice)
            setting.2)).stored service = st.stored service :=
        record_stored_of_service (StoredSettings.put_of_service_ne st.stored hne)
      dsimp only
      split
      · exact ih.trans hrecord
      · exact hrecord

/-- A call stores for its own service. -/
theorem step_stored_of_service_ne {call : SettingsCall} {service : String}
    (hne : service ≠ call.service) :
    (step dbl sqlite st call).stored service = st.stored service := by
  cases call with
  | storeSettings strServiceId strSettingEnum rjsonSettings =>
    exact record_stored_of_service (StoredSettings.override_of_service_ne st.stored hne)
  | storeSettingsArray strServiceId rjsonSettings strMsgId bIsFromDevice =>
    unfold step storeSettingsArray
    dsimp only
    split
    · exact storeElements_stored_of_service_ne hne _
    · split
      · rfl
      · rfl
    · rfl
  | clearSettings strServiceId strSettingEnum =>
    exact record_stored_of_service (StoredSettings.clear_of_service_ne st.stored hne)

/-! ## What the calls keep -/

/-- No two rows of a service, a setting and a source; the rows have what was last stored;
and so have the answers of the readers. -/
structure SettingsKept (sqlite : Sqlite) (st : SettingsRun) : Prop where
  unique : (st.db.rows.map rowKey).Nodup
  value : ∀ service setting src, storedValue st.db.rows service setting src =
    st.stored service setting src
  valueForSettings : ∀ service setting, PlainText service → PlainText setting →
    sqlite.fails st.db.statements = false →
      (getValueForSettings sqlite service setting st.db).1 =
        (st.stored service setting .cloud).getD ""
  configRows : ∀ service, PlainText service → sqlite.fails st.db.statements = false →
    ∃ rows, (st.db.query sqlite [(.settingId, service)]).1 = some rows ∧
      ∀ setting text, (∃ src, st.stored service setting src = some text) ↔
        ∃ row ∈ rows, row .settingEnum = setting ∧ row .value = text

/-- The values of the other services stay. -/
def Isolated (st st' : SettingsRun) (call : SettingsCall) : Prop :=
  ∀ service, service ≠ call.service → ∀ setting src,
    storedValue st'.db.rows service setting src = storedValue st.db.rows service setting src

theorem getValueForSettings_of_plain {service setting : String} {db : SettingsDb}
    (hservice : PlainText service) (hsetting : PlainText setting)
    (hsucceeds : sqlite.fails db.statements = false) :
    (getValueForSettings sqlite service setting db).1 =
      (storedValue db.rows service setting .cloud).getD "" := by
  have hplain : PlainTexts (sourceSelection service setting false) := by
    unfold PlainTexts sourceSelection
    simp only [List.forall_mem_cons, List.not_mem_nil, false_implies, implies_true, and_true]
    exact ⟨hservice, hsetting, by decide⟩
  unfold getValueForSettings storedValue
  dsimp only
  rw [SettingsDb.query_of_plain hplain hsucceeds, Option.bind_some, List.head?_filter]
  simp only [selects_sourceSelection]
  rfl

theorem Kept.configRows (h : Kept st.db.rows st.stored) {service : String}
    (hservice : PlainText service) (hsucceeds : sqlite.fails st.db.statements = false) :
    ∃ rows, (st.db.query sqlite [(.settingId, service)]).1 = some rows ∧
      ∀ setting text, (∃ src, st.stored service setting src = some text) ↔
        ∃ row ∈ rows, row .settingEnum = setting ∧ row .value = text := by
  refine ⟨serviceRows service st.db.rows, SettingsDb.query_of_plain
    (List.forall_mem_singleton.2 hservice) hsucceeds, fun setting text => ?_⟩
  constructor
  · rintro ⟨src, hstored⟩
    obtain ⟨row, hrow, hkey, htext⟩ := (h.value _ _ _ _).1 hstored
    obtain ⟨hid, henum, -⟩ := rowKey_eq_iff.1 hkey
    exact ⟨row, mem_serviceRows.2 ⟨hrow, hid⟩, henum, htext⟩
  · rintro ⟨row, hrow, rfl, rfl⟩
    obtain ⟨hmem, rfl⟩ := mem_serviceRows.1 hrow
    obtain ⟨src, hsrc⟩ := h.source row hmem
    exact ⟨src, h.stored_of_mem hmem hsrc⟩

theorem Kept.settingsKept (h : Kept st.db.rows st.stored) : SettingsKept sqlite st where
  unique := h.unique
  value := h.storedValue_eq
  valueForSettings service setting hservice hsetting hsucceeds := by
    rw [getValueForSettings_of_plain hservice hsetting hsucceeds, h.storedValue_eq]
  configRows _ hservice hsucceeds := h.configRows hservice hsucceeds

theorem kept_init : Kept SettingsRun.init.db.rows SettingsRun.init.stored where
  unique := List.nodup_nil
  source _ hrow := by cases hrow
  value service setting src text := by
    constructor
    · intro h
      cases h
    · rintro ⟨row, hrow, -⟩
      cases hrow

end SettingsStore

end DeviceClient
