import DeviceClient.Config.ConfigUpdate

/-!
# Configuration updates across a restart

The parameters of an update come back through a JSON text, a spliced statement, a
row and the reader. The values come back if the JSON library reads what it writes of
them; a quote in a name or in a text breaks the statement.

* `roundTrip_iff`: where an update and a restart do what the update alone does.
-/

namespace DeviceClient

open JsonText SettingsStore

namespace IgniteConfig

/-! ## The law -/

/-- With no failing statement, an update with the map and a restart yield what the map
does to the configuration file, where it can be applied. -/
def RoundTrip (dbl : DoubleText) (rmapConfigUpdateMap : ConfigUpdateMap) : Prop :=
  ∀ (sqlite : Sqlite) (s : ConfigState) (file : JsonValue) (mParameterCount : ℤ)
    (r : Bool × JsonValue), (∀ k, sqlite.fails k = false) → 0 < mParameterCount →
    copyDBConfig rmapConfigUpdateMap.pairs file = some r →
      ∃ b s', updateConfig dbl sqlite (some file) rmapConfigUpdateMap .cloudConfigUpdate
          mParameterCount s = some (b, s') ∧
        restart dbl sqlite (some file) s'.db = some r.2

/-- The quote in a string ends the literal of an insert, which SQLite rejects: the update
fails, and the configuration is that of the file. -/
theorem not_roundTrip_quote :
    ¬ RoundTrip ⟨fun _ => "0.5", fun _ => none⟩
      ⟨[("a", .string "it's")], List.pairwise_singleton _ _⟩ := by
  intro h
  have hcopy : copyDBConfig [("a", .string "it's")] (.object []) =
      some (true, .object [("a", .string "it's")]) := by
    rw [copyDBConfig_value (by simp), show split '.' "a".toList = ["a"] by simp [split]]
    rfl
  obtain ⟨b, s', hupdate, hrestart⟩ :=
    h ⟨fun _ => false, fun _ rows => (false, rows), fun _ _ => none⟩ ⟨⟨[], 0⟩, .null⟩ (.object [])
      1 _ (fun _ => rfl) (by decide) hcopy
  have hfailed : some (false, (⟨⟨[], 4⟩, .object []⟩ : ConfigState)) = some (b, s') := hupdate
  cases hfailed
  have hfile : some (JsonValue.object []) = some (.object [("a", .string "it's")]) := hrestart
  cases hfile

/-- The texts of a pair are literals. -/
def PlainPair (dbl : DoubleText) (pair : String × JsonValue) : Prop :=
  PlainText pair.1 ∧ PlainText (write dbl (.object [pair]))

instance (dbl : DoubleText) (pair : String × JsonValue) : Decidable (PlainPair dbl pair) :=
  inferInstanceAs (Decidable (_ ∧ _))

variable {dbl : DoubleText} {sqlite : Sqlite}

theorem persistable_of_plain {pair : String × JsonValue} (hplain : PlainPair dbl pair)
    (hvalue : Representable dbl (stackLimit - 1) pair.2) : Persistable dbl pair where
  name := hplain.1
  text := hplain.2
  readsBack := by
    have hobject : Representable dbl (stackLimit - 1 + 1) (.object [pair]) :=
      ⟨List.pairwise_singleton _ _, List.forall_mem_singleton.2 hvalue⟩
    exact parse_write dbl hobject

/-! ## Reading after a restart -/

/-- The stored settings, applied. -/
theorem applyStoredSettings_of_settings (s : ConfigState) {m : List (String × JsonValue)}
    (hfails : sqlite.fails s.db.statements = false)
    (hm : configSettings dbl (serviceRows (getConfigUpdateSourceInString .cloudConfigUpdate)
      s.db.rows) = some m) :
    applyStoredSettings dbl sqlite s = (copyDBConfig m s.m_jsonRoot).map fun r =>
      ⟨⟨s.db.rows, s.db.statements + 1⟩, r.2⟩ := by
  have hselection :
      PlainTexts [(.settingId, getConfigUpdateSourceInString .cloudConfigUpdate)] :=
    List.forall_mem_singleton.2 plain_cloudConfigUpdate
  have hquery := SettingsDb.query_of_plain hselection hfails
  have hread : getAllConfigUpdateSettings dbl sqlite s.db =
      (some (!(serviceRows (getConfigUpdateSourceInString .cloudConfigUpdate) s.db.rows).isEmpty, m),
        ⟨s.db.rows, s.db.statements + 1⟩) := by
    unfold serviceRows at hm ⊢
    unfold getAllConfigUpdateSettings getConfigUpdateSettings
    dsimp only
    rw [hquery]
    dsimp only
    rw [hm, SettingsDb.query_snd]
    rfl
  unfold applyStoredSettings
  rw [hread]
  dsimp only
  by_cases hm' : m = []
  · -- no parameter changes nothing
    rw [if_neg fun h => h.2 hm', hm']
    rfl
  · have hrows : serviceRows (getConfigUpdateSourceInString .cloudConfigUpdate) s.db.rows ≠ [] := by
      intro hnil
      rw [hnil] at hm
      exact hm' (Option.some.inj hm).symm
    rw [if_pos ⟨by simpa using hrows, hm'⟩]

theorem restart_of_settings {file : JsonValue} {db : SettingsDb} {m : List (String × JsonValue)}
    (hfails : sqlite.fails db.statements = false)
    (hm : configSettings dbl (serviceRows (getConfigUpdateSourceInString .cloudConfigUpdate)
      db.rows) = some m) :
    restart dbl sqlite (some file) db = (copyDBConfig m file).map Prod.snd := by
  unfold restart reloadConfigFromDB
  rw [Option.bind_some, applyStoredSettings_of_settings ⟨db, file⟩ hfails hm,
    Option.map_map]
  rfl

/-- Settings stored into a table without rows of the source are read back as they are. -/
theorem configSettings_of_wroteAll {strSource : String} {rmapConfigUpdateMap : ConfigUpdateMap}
    {rows rows' : List SettingRow}
    (h : WroteAll dbl strSource rmapConfigUpdateMap.pairs rows rows')
    (hpairs : ∀ pair ∈ rmapConfigUpdateMap.pairs, Persistable dbl pair)
    (hempty : serviceRows strSource rows = []) :
    configSettings dbl (serviceRows strSource rows') = some rmapConfigUpdateMap.pairs := by
  have hnew : ∀ row ∈ serviceRows strSource rows', row ∉ rows := by
    intro row hrow hmem
    have hold := mem_serviceRows.2 ⟨hmem, (mem_serviceRows.1 hrow).2⟩
    rw [hempty] at hold
    cases hold
  have hsub : ∀ row ∈ serviceRows strSource rows', row ∈ rows' :=
    fun row hrow => (mem_serviceRows.1 hrow).1
  obtain ⟨m, hm, hascending, hlast, hnone⟩ :=
    configSettings_spec (h.wellFormed hpairs hsub (Or.inr hnew))
  rw [hm]
  congr 1
  refine hascending.ext rmapConfigUpdateMap.ascending fun name => ?_
  by_cases hname : name ∈ rmapConfigUpdateMap.pairs.map Prod.fst
  · obtain ⟨pair, hpair, rfl⟩ := List.mem_map.1 hname
    obtain ⟨row, hrow, hvalue⟩ := (h.settled pair hpair).serviceRows
    rw [rmapConfigUpdateMap.ascending.lookup_of_mem hpair]
    refine hlast pair.1 row pair.2 hrow ?_
    rw [hvalue]
    exact (hpairs pair hpair).readsBack
  · -- no row of the source has another name
    have hrows : settingRows name (serviceRows strSource rows') = [] := by
      rw [List.eq_nil_iff_forall_not_mem]
      intro row hrow
      obtain ⟨hrow, henum⟩ := mem_settingRows.1 hrow
      rcases h.origin row (hsub row hrow) with hold | ⟨pair, hpair, _, henum', _⟩
      · exact hnew row hrow hold
      · exact hname (List.mem_map.2 ⟨pair, hpair, henum'.symm.trans henum⟩)
    rw [hnone name hrows]
    cases hlookup : rmapConfigUpdateMap.pairs.lookup name with
    | none => rfl
    | some value => exact absurd (Lib.mem_keys_of_lookup hlookup) hname

/-! ## Plain texts suffice -/

/-- A reset without failing statements leaves no setting. -/
theorem updateConfig_reset (dbl : DoubleText) {rmapConfigUpdateMap : ConfigUpdateMap}
    (hpairs : rmapConfigUpdateMap.pairs = []) (s : ConfigState) (file : JsonValue)
    (mParameterCount : ℤ) (hfails : ∀ k, sqlite.fails k = false) :
    ∃ s', updateConfig dbl sqlite (some file) rmapConfigUpdateMap .cloudConfigUpdate
        mParameterCount s = some (true, s') ∧
      serviceRows (getConfigUpdateSourceInString .cloudConfigUpdate) s'.db.rows = [] := by
  have hempty := serviceRows_filter_ne (getConfigUpdateSourceInString .cloudConfigUpdate) s.db.rows
  have hcleared := clearSettings_of_plain plain_cloudConfigUpdate (hfails s.db.statements)
  have hnil : configSettings dbl (serviceRows (getConfigUpdateSourceInString .cloudConfigUpdate)
      (s.db.rows.filter fun row =>
        row .settingId ≠ getConfigUpdateSourceInString .cloudConfigUpdate)) = some [] := by
    rw [hempty]
    rfl
  have happly := applyStoredSettings_of_settings (s := ⟨⟨s.db.rows.filter fun row =>
      row .settingId ≠ getConfigUpdateSourceInString .cloudConfigUpdate,
    s.db.statements + 1⟩, file⟩) (hfails (s.db.statements + 1)) hnil
  have hnone : ¬ (0 < mParameterCount ∧ rmapConfigUpdateMap.pairs ≠ []) := fun h => h.2 hpairs
  rw [updateConfig_of_no_pairs file hnone rfl, hcleared]
  unfold resetConfigSettings
  rw [happly]
  exact ⟨_, rfl, hempty⟩

/-- An update without failing statements stores its pairs. -/
theorem updateConfig_settings {rmapConfigUpdateMap : ConfigUpdateMap}
    (hpairs : ∀ pair ∈ rmapConfigUpdateMap.pairs, Persistable dbl pair) (s : ConfigState)
    {file : JsonValue} {mParameterCount : ℤ} {r : Bool × JsonValue}
    (hfails : ∀ k, sqlite.fails k = false) (hcount : 0 < mParameterCount)
    (hcopy : copyDBConfig rmapConfigUpdateMap.pairs file = some r) :
    ∃ s', updateConfig dbl sqlite (some file) rmapConfigUpdateMap .cloudConfigUpdate
        mParameterCount s = some (true, s') ∧
      configSettings dbl (serviceRows (getConfigUpdateSourceInString .cloudConfigUpdate)
        s'.db.rows) = some rmapConfigUpdateMap.pairs := by
  by_cases hne : rmapConfigUpdateMap.pairs = []
  · obtain ⟨s', hupdate, hrows⟩ := updateConfig_reset dbl hne s file mParameterCount hfails
    refine ⟨s', hupdate, ?_⟩
    rw [hrows, hne]
    rfl
  · have hsource := plain_cloudConfigUpdate
    obtain ⟨hwrote, hstored⟩ := storePairs_of_update hsource hpairs s.db
      fun i _ => hfails _
    have hempty : serviceRows (getConfigUpdateSourceInString .cloudConfigUpdate)
        (clearSettings sqlite (getConfigUpdateSourceInString .cloudConfigUpdate) s.db).2.rows =
          [] := by
      rw [clearSettings_of_plain hsource (hfails s.db.statements)]
      exact serviceRows_filter_ne _ s.db.rows
    rw [updateConfig_of_pairs file hcount hne rfl rfl, if_pos (hstored hne), hcopy]
    exact ⟨_, rfl, configSettings_of_wroteAll hwrote hpairs hempty⟩

theorem roundTrip_of_persistable {rmapConfigUpdateMap : ConfigUpdateMap}
    (hpairs : ∀ pair ∈ rmapConfigUpdateMap.pairs, Persistable dbl pair) :
    RoundTrip dbl rmapConfigUpdateMap := by
  intro sqlite s file mParameterCount r hfails hcount hcopy
  obtain ⟨s', hupdate, hsettings⟩ := updateConfig_settings hpairs s hfails hcount hcopy
  refine ⟨true, s', hupdate, ?_⟩
  rw [restart_of_settings (hfails _) hsettings, hcopy]
  rfl

/-! ## A quote breaks the statement -/

/-- A text that ends its literal may go on as any other statement: an insert of a row. -/
def inserting (row : SettingRow) : Sqlite where
  fails _ := false
  brokenExec _ rows := (true, rows ++ [row])
  brokenQuery _ _ := none

/-- A row that replaces the configuration: its parameter is the empty path. -/
def rootRow (dbl : DoubleText) (value : Bool) : SettingRow :=
  SqlStatement.assign
    (settingTexts (getConfigUpdateSourceInString .cloudConfigUpdate) ""
      (write dbl (.object [("", .boolean value)])))
    SqlStatement.defaultRow

theorem storeSettings_inserting (row : SettingRow) (strSource : String) (db : SettingsDb)
    {strSettingEnum : String} {rjsonSettings : JsonValue}
    (hbroken : ¬ (PlainText strSettingEnum ∧ PlainText (write dbl rjsonSettings))) :
    storeSettings dbl (inserting row) strSource strSettingEnum rjsonSettings db =
      (true, ⟨db.rows ++ [row], db.statements + 2⟩) := by
  have hdata : ¬ PlainTexts (settingTexts strSource strSettingEnum (write dbl rjsonSettings)) := by
    intro hplain
    exact hbroken ⟨hplain (.settingEnum, strSettingEnum) (by simp [settingTexts]),
      hplain (.value, write dbl rjsonSettings) (by simp [settingTexts])⟩
  unfold storeSettings
  dsimp only
  rw [SettingsDb.query_snd]
  split
  · exact SettingsDb.exec_of_broken hdata rfl
  · exact SettingsDb.exec_of_broken (fun h => hdata h.1) rfl

theorem parse_rootRow (dbl : DoubleText) (value : Bool) :
    parse dbl (rootRow dbl value .value) = .ok (.object [("", .boolean value)]) := by
  have hobject : Representable dbl (stackLimit - 1 + 1) (.object [("", .boolean value)]) :=
    ⟨List.pairwise_singleton _ _, List.forall_mem_singleton.2 trivial⟩
  exact parse_write dbl hobject

theorem ne_empty_of_below {a b : String} (h : a < b) : b ≠ "" := by
  rintro rfl
  exact List.not_lt_nil a.toList (String.lt_iff_toList_lt.1 h)

/-- One store: a broken statement puts the injected row at the end, and a plain one of
another name leaves it the last of its setting. -/
theorem storeSettings_inserting_rootRow (value : Bool) {pair : String × JsonValue}
    (hvalue : Representable dbl (stackLimit - 1) pair.2) {db : SettingsDb}
    (hwf : WellFormed dbl db.rows) :
    let strSource := getConfigUpdateSourceInString .cloudConfigUpdate
    ∃ db', storeSettings dbl (inserting (rootRow dbl value)) strSource pair.1 (.object [pair]) db =
        (true, db') ∧
      WellFormed dbl db'.rows ∧
      (¬ PlainPair dbl pair ∨
        (Settled strSource "" (rootRow dbl value .value) db.rows ∧ pair.1 ≠ "") →
          Settled strSource "" (rootRow dbl value .value) db'.rows) := by
  intro strSource
  by_cases hplain : PlainPair dbl pair
  · have hok : (inserting (rootRow dbl value)).fails (db.statements + 1) = false := rfl
    obtain ⟨rows', hstore, hwrote⟩ :=
      storeSettings_of_plain db plain_cloudConfigUpdate hplain.1 hplain.2 hok
    have hreads := (persistable_of_plain hplain hvalue).readsBack
    refine ⟨_, hstore, hwrote.wellFormed hwf hreads, ?_⟩
    rintro (hbroken | ⟨⟨row, hrow, hid, htext⟩, hname⟩)
    · exact absurd hplain hbroken
    · refine ⟨row, ?_, hid, htext⟩
      rw [hwrote.others "" hname.symm]
      exact hrow
  · have hwrote := wrote_append (rootRow dbl value) db.rows
    refine ⟨_, storeSettings_inserting (rootRow dbl value) strSource db hplain,
      hwrote.wellFormed hwf (parse_rootRow dbl value), ?_⟩
    intro _
    exact hwrote.settled

/-- The settings that the loop leaves: well formed, with the injected row in them from the
first broken statement on. The names behind the first are not empty, so that no later
pair takes its place. -/
theorem storePairs_inserting (value : Bool) {pairs : List (String × JsonValue)}
    (hascending : Lib.Ascending pairs)
    (hvalues : ∀ pair ∈ pairs, Representable dbl (stackLimit - 1) pair.2) {s : Bool × SettingsDb}
    (hwf : WellFormed dbl s.2.rows) :
    let strSource := getConfigUpdateSourceInString .cloudConfigUpdate
    let stored := storePairs dbl (inserting (rootRow dbl value)) strSource pairs s
    WellFormed dbl stored.2.rows ∧ (s.1 = true ∨ pairs ≠ [] → stored.1 = true) ∧
      ((∃ pair ∈ pairs, ¬ PlainPair dbl pair) ∨
        (Settled strSource "" (rootRow dbl value .value) s.2.rows ∧ ∀ pair ∈ pairs, pair.1 ≠ "") →
          Settled strSource "" (rootRow dbl value .value) stored.2.rows) := by
  intro strSource
  induction pairs generalizing s with
  | nil =>
    refine ⟨hwf, ?_, ?_⟩
    · rintro (hs | hne)
      · exact hs
      · exact absurd rfl hne
    · rintro (⟨pair, hpair, _⟩ | ⟨hsettled, _⟩)
      · cases hpair
      · exact hsettled
  | cons pair pairs ih =>
    intro stored
    have htail := Lib.ascending_cons.1 hascending
    have hnames : ∀ pair' ∈ pairs, pair'.1 ≠ "" := fun pair' hpair' =>
      ne_empty_of_below (htail.1 pair' hpair')
    obtain ⟨db', hstore, hwf', hfirst⟩ :=
      storeSettings_inserting_rootRow value (hvalues pair List.mem_cons_self) hwf
    obtain ⟨hwf'', htrue, hroot⟩ := ih htail.2
      (fun pair' hpair' => hvalues pair' (List.mem_cons_of_mem _ hpair')) (s := (true, db')) hwf'
    have hloop : stored = storePairs dbl _ strSource pairs (true, db') := storePairs_cons hstore
    rw [hloop]
    refine ⟨hwf'', fun _ => htrue (Or.inl rfl), ?_⟩
    -- the first broken statement, or one behind it
    rintro (⟨pair', hpair', hbroken⟩ | ⟨hsettled, hne⟩)
    · rcases List.mem_cons.1 hpair' with rfl | hpair'
      · exact hroot (Or.inr ⟨hfirst (Or.inl hbroken), hnames⟩)
      · exact hroot (Or.inl ⟨pair', hpair', hbroken⟩)
    · exact hroot (Or.inr ⟨hfirst (Or.inr ⟨hsettled, hne pair List.mem_cons_self⟩), hnames⟩)

/-- Below a scalar there is no path. -/
theorem processDBConfigFile_boolean {name : String} (hname : name ≠ "") (w : JsonValue)
    (value : Bool) : processDBConfigFile (split '.' name.toList) w (.boolean value) = none := by
  obtain ⟨c, chars, hchars⟩ : ∃ c chars, name.toList = c :: chars := by
    refine List.exists_cons_of_ne_nil fun hnil => hname ?_
    rw [← String.ofList_toList (s := name), hnil, String.ofList_nil]
  obtain ⟨key, keys, hkeys⟩ : ∃ key keys, split '.' name.toList = key :: keys := by
    rw [hchars, split]
    exact ⟨_, _, rfl⟩
  rw [hkeys]
  unfold processDBConfigFile
  by_cases hw : w = .null
  · rw [if_neg fun h => h hw]
    cases keys <;> rfl
  · rw [if_pos hw]
    rfl

/-- The empty path replaces the root, so that no other parameter can be applied. -/
theorem copyDBConfig_root (value : Bool) {rest : List (String × JsonValue)}
    (hrest : ∀ p ∈ rest, p.1 ≠ "") (file : JsonValue) :
    copyDBConfig (("", .boolean value) :: rest) file = none ∨
      copyDBConfig (("", .boolean value) :: rest) file = some (false, .boolean value) := by
  have hroot : processDBConfigFile (split '.' "".toList) (.boolean value) file =
      some (false, .boolean value) := by
    rw [String.toList_empty, split]
    rfl
  unfold copyDBConfig
  rw [List.foldlM_cons, hroot]
  simp only [Option.bind_eq_bind, Option.bind_some]
  cases rest with
  | nil => exact Or.inr rfl
  | cons p rest =>
    rw [List.foldlM_cons, processDBConfigFile_boolean (hrest p List.mem_cons_self)]
    exact Or.inl rfl

/-- A map with a value for the empty name begins with it. -/
theorem eq_cons_of_lookup_empty {m : List (String × JsonValue)} (hm : Lib.Ascending m)
    {value : JsonValue} (h : m.lookup "" = some value) :
    ∃ rest, m = ("", value) :: rest ∧ ∀ p ∈ rest, p.1 ≠ "" := by
  cases m with
  | nil => cases h
  | cons p rest =>
    obtain ⟨name, w⟩ := p
    have hrest := Lib.ascending_cons.1 hm
    have hbelow : ∀ q ∈ rest, q.1 ≠ "" := fun q hq => ne_empty_of_below (hrest.1 q hq)
    rw [Lib.lookup_cons_ite] at h
    by_cases hname : "" = name
    · rw [if_pos hname] at h
      exact ⟨rest, by rw [← hname, Option.some.inj h], hbelow⟩
    · rw [if_neg hname] at h
      obtain ⟨q, hq, hq'⟩ := List.mem_map.1 (Lib.mem_keys_of_lookup h)
      exact absurd hq' (hbelow q hq)

/-- With a broken statement a map that can be applied does not come back. -/
theorem plain_of_roundTrip {rmapConfigUpdateMap : ConfigUpdateMap}
    (hvalues : ∀ pair ∈ rmapConfigUpdateMap.pairs, Representable dbl (stackLimit - 1) pair.2)
    (h : RoundTrip dbl rmapConfigUpdateMap) {file : JsonValue} {r : Bool × JsonValue}
    (hcopy : copyDBConfig rmapConfigUpdateMap.pairs file = some r) :
    ∀ pair ∈ rmapConfigUpdateMap.pairs, PlainPair dbl pair := by
  by_contra hbroken
  push Not at hbroken
  obtain ⟨pair, hpair, hplain⟩ := hbroken
  have hne : rmapConfigUpdateMap.pairs ≠ [] := List.ne_nil_of_mem hpair
  -- the injected row sets the configuration to a value that is not the expected one
  obtain ⟨value, hvalue⟩ := exists_boolean_ne r.2
  obtain ⟨b, s', hupdate, hrestart⟩ := h (inserting (rootRow dbl value)) ⟨⟨[], 0⟩, file⟩ file 1 r
    (fun _ => rfl) Int.one_pos hcopy
  obtain ⟨hwf, htrue, hroot⟩ := storePairs_inserting value rmapConfigUpdateMap.ascending
    hvalues (s := (false, ⟨[], 1⟩)) (fun row hrow => absurd hrow List.not_mem_nil)
  have hcleared : clearSettings (inserting (rootRow dbl value))
      (getConfigUpdateSourceInString .cloudConfigUpdate) ⟨[], 0⟩ = (true, ⟨[], 1⟩) :=
    clearSettings_of_plain plain_cloudConfigUpdate rfl
  rw [updateConfig_of_pairs file Int.one_pos hne rfl rfl, hcleared,
    if_pos (htrue (Or.inr hne)), hcopy] at hupdate
  cases hupdate
  obtain ⟨row, hrow, htext⟩ := (hroot (Or.inl ⟨pair, hpair, hplain⟩)).serviceRows
  obtain ⟨m, hm, hascending, hlast, _⟩ :=
    configSettings_spec (hwf.mono fun row hrow => (mem_serviceRows.1 hrow).1)
  have hlookup : m.lookup "" = some (.boolean value) := by
    refine hlast "" row _ hrow ?_
    rw [htext]
    exact parse_rootRow dbl value
  obtain ⟨rest, rfl, hrest⟩ := eq_cons_of_lookup_empty hascending hlookup
  rw [restart_of_settings rfl hm] at hrestart
  rcases copyDBConfig_root value hrest file with hnone | hsome
  · rw [hnone] at hrestart
    cases hrestart
  · rw [hsome] at hrestart
    exact hvalue (Option.some.inj hrestart)

/-- An update with the map and a restart yield the configuration of the update iff no text
of a pair has a quote in it, or the map can be applied to no configuration. -/
theorem roundTrip_iff (dbl : DoubleText) (rmapConfigUpdateMap : ConfigUpdateMap)
    (hvalues : ∀ pair ∈ rmapConfigUpdateMap.pairs, Representable dbl (stackLimit - 1) pair.2) :
    RoundTrip dbl rmapConfigUpdateMap ↔
      (∀ pair ∈ rmapConfigUpdateMap.pairs, PlainPair dbl pair) ∨
        ∀ file, copyDBConfig rmapConfigUpdateMap.pairs file = none := by
  constructor
  · intro h
    by_cases hnone : ∀ file, copyDBConfig rmapConfigUpdateMap.pairs file = none
    · exact Or.inr hnone
    · push Not at hnone
      obtain ⟨file, hfile⟩ := hnone
      obtain ⟨r, hcopy⟩ := Option.ne_none_iff_exists'.1 hfile
      exact Or.inl (plain_of_roundTrip hvalues h hcopy)
  · rintro (hplain | hnone)
    · exact roundTrip_of_persistable fun pair hpair =>
        persistable_of_plain (hplain pair hpair) (hvalues pair hpair)
    · intro sqlite s file mParameterCount r _ _ hcopy
      rw [hnone file] at hcopy
      cases hcopy

theorem roundTrip_flag :
    (∀ pair ∈ [("a", JsonValue.boolean true)],
      Representable ⟨fun _ => "0.5", fun _ => none⟩ (stackLimit - 1) pair.2) ∧
    RoundTrip ⟨fun _ => "0.5", fun _ => none⟩
      ⟨[("a", .boolean true)], List.pairwise_singleton _ _⟩ :=
  ⟨List.forall_mem_singleton.2 trivial,
    (roundTrip_iff _ ⟨[("a", .boolean true)], List.pairwise_singleton _ _⟩
      (List.forall_mem_singleton.2 trivial)).2
      (Or.inl (List.forall_mem_singleton.2 (by decide)))⟩

end IgniteConfig

end DeviceClient
