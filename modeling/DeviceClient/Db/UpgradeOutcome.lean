import DeviceClient.Db.DatabaseUpgrade

/-!
# What becomes of an upgrade that fails

`CheckVersion` ends its transaction by what `OnUpgrade` returns, and that is always true: an
update, insert or table creation that fails in a step is lost, and the version is raised.

* `steady_onUpgrade`: how the statements of an upgrade depend on the failures.
* `all_or_nothing_iff`: when all of it takes effect or nothing.
-/

namespace DeviceClient

namespace DatabaseUpgrade

open Lib

variable {env : UpgradeEnv}

/-! ## The statements -/

theorem steady_createTable (t : TableName) : Steady (createTable t) := Steady.attempt _ _

theorem steady_checkAndCreateTable (t : TableName) : Steady (checkAndCreateTable t) :=
  Steady.ite (Steady.pure ()) ((steady_createTable t).bind fun _ => Steady.pure ())

theorem steady_recreateTable (t : TableName) : Steady (recreateTable t) :=
  (Steady.modify _).bind fun _ => (steady_createTable t).bind fun _ => Steady.pure ()

theorem steady_alterTable (t : TableName) (c : Column) (strDefault : Option String) :
    Steady (alterTable t c strDefault) := by
  refine (Steady.read _).bind fun columns => ?_
  cases columns with
  | none => exact (steady_checkAndCreateTable t).bind fun _ => Steady.pure false
  | some columns =>
    exact Steady.ite (Steady.pure false) ((Steady.modify _).bind fun _ => Steady.pure true)

theorem steady_changeRows (t : TableName) (used : Finset Column)
    (f : List SqlRow → List SqlRow) : Steady (changeRows t used f) := by
  refine (Steady.read _).bind fun bMissing => (Steady.attempt _ _).bind fun bSuccess => ?_
  exact Steady.ite ((steady_checkAndCreateTable t).bind fun _ => Steady.pure bSuccess)
    (Steady.pure bSuccess)

theorem steady_update (t : TableName) (c : Column) (strValue : String) (used : Finset Column)
    (selection : SqlRow → Bool) : Steady (update t c strValue used selection) :=
  steady_changeRows t _ _

/-! ## The steps -/

theorem steady_recreateAlertStore : Steady (recreateAlertStore env) :=
  Steady.ite (steady_recreateTable .alertStore) (Steady.pure ())

theorem steady_fillColumn (c : Column) (strValue : String → String) :
    Steady (fillColumn env c strValue) := by
  refine (steady_alterTable _ c none).bind fun bAdded => Steady.ite ?_ (Steady.pure ())
  refine (Steady.read _).bind fun pCursor => ?_
  cases pCursor with
  | none => exact Steady.pure ()
  | some rows =>
    exact Steady.forEach (fun row => (steady_update _ _ _ _ _).bind fun _ => Steady.pure ()) rows

theorem steady_alterAlertStore (c : Column) (strDefault : Option String) :
    Steady (alterAlertStore env c strDefault) :=
  Steady.ite ((steady_alterTable _ c strDefault).bind fun _ => Steady.pure ()) (Steady.pure ())

theorem steady_alterBothStores (c : Column) (strDefault : Option String) :
    Steady (alterBothStores env c strDefault) :=
  Steady.ite ((steady_alterTable _ c strDefault).bind fun _ => steady_alterAlertStore c strDefault)
    (Steady.pure ())

theorem steady_updateEventsDefaultMode : Steady (updateEventsDefaultMode env) := by
  have hbatch : Steady (if env.m_pUploadMode.isBatchModeSupportedAsDefault = true then do
      let _ ← update .eventStore .batchSupport "1" (defaultColumns env ∪ {.topic, .appId})
        fun row => isDefaultEvent env row &&
          if env.m_pUploadMode.isStreamModeSupported then isPlainEvent row else isTopicedOrApp row
      else pure ()) :=
    Steady.ite ((steady_update _ _ _ _ _).bind fun _ => Steady.pure ()) (Steady.pure ())
  -- both branches of the first condition go on with the second
  exact Steady.ite ((steady_update _ _ _ _ _).bind fun _ => hbatch) hbatch

theorem steady_insertSettings (bStatus : Bool) (rows : List (List (Column × String))) :
    Steady (insertSettings bStatus rows) := by
  induction rows generalizing bStatus with
  | nil => exact Steady.pure bStatus
  | cons data rest ih => exact (steady_changeRows _ _ _).bind fun bInserted => ih bInserted

/-- A statement whose result is dropped. -/
theorem steady_drop {f : Sql Bool} (hf : Steady f) : Steady (f >>= fun _ => pure ()) :=
  hf.bind fun _ => Steady.pure ()

theorem steady_upgradeVersionFrom2To3 : Steady (upgradeVersionFrom2To3 env) := by
  refine (steady_alterTable _ _ _).bind fun bAdded => Steady.ite ?_ steady_recreateAlertStore
  exact (steady_update _ _ _ _ _).bind fun _ => steady_recreateAlertStore

theorem steady_upgradeVersionFrom10To11 : Steady (upgradeVersionFrom10To11 env) := by
  have hbatch : Steady (if (!env.setBatchEventlist.isEmpty) = true then do
      let _ ← update .eventStore .batchSupport "1" {.eventId} (inList env.setBatchEventlist)
      else pure ()) := Steady.ite (steady_drop (steady_update _ _ _ _ _)) (Steady.pure ())
  refine (steady_alterTable _ _ _).bind fun _ => (steady_alterTable _ _ _).bind fun _ => ?_
  refine steady_updateEventsDefaultMode.bind fun _ => ?_
  exact Steady.ite ((steady_update _ _ _ _ _).bind fun _ => hbatch) hbatch

theorem steady_upgradeVersionFrom16To17 : Steady (upgradeVersionFrom16To17 env) := by
  refine (Steady.read _).bind fun pCursor => ?_
  split
  · refine (steady_insertSettings _ _).bind fun bStatus => ?_
    exact Steady.ite (Steady.modify _) (Steady.pure ())
  · exact Steady.pure ()

/-- Every case of the switch. -/
theorem steady_upgradeSteps : ∀ step ∈ upgradeSteps, Steady (step env) := by
  intro step hstep
  simp only [upgradeSteps, List.mem_cons, List.not_mem_nil, or_false] at hstep
  -- one case for each step, in the order of the switch
  rcases hstep with rfl | rfl | rfl | rfl | rfl | rfl | rfl | rfl | rfl | rfl | rfl | rfl | rfl |
    rfl | rfl | rfl
  · exact (steady_recreateTable _).bind fun _ => steady_recreateAlertStore.bind fun _ =>
      steady_recreateTable _
  · exact steady_upgradeVersionFrom2To3
  · exact (steady_fillColumn _ _).bind fun _ => steady_recreateAlertStore
  · exact (steady_fillColumn _ _).bind fun _ => steady_recreateAlertStore
  · exact steady_recreateAlertStore
  · exact (steady_alterTable _ _ _).bind fun _ => steady_alterAlertStore _ _
  · exact steady_alterBothStores _ _
  · exact steady_alterBothStores _ _
  · exact steady_drop (steady_createTable _)
  · exact steady_upgradeVersionFrom10To11
  · exact Steady.pure ()
  · exact steady_drop (steady_createTable _)
  · exact Steady.ite (steady_drop (steady_alterTable _ _ _)) (Steady.pure ())
  · exact steady_drop (steady_alterTable _ _ _)
  · exact (steady_alterTable _ _ _).bind fun _ => steady_drop (steady_alterTable _ _ _)
  · exact steady_upgradeVersionFrom16To17

theorem steady_onUpgrade (nOldVer : ℤ) : Steady (onUpgrade env nOldVer) := by
  have hsteps : ∀ steps : List (UpgradeEnv → Sql Unit), (∀ step ∈ steps, Steady (step env)) →
      Steady (Faulty.forEach steps fun step => step env) := by
    intro steps hsteps
    induction steps with
    | nil => exact Steady.pure ()
    | cons step steps ih =>
      refine (hsteps step List.mem_cons_self).bind fun _ => ?_
      exact ih fun step' hstep' => hsteps step' (List.mem_cons_of_mem _ hstep')
  refine Steady.ite ?_ (Steady.pure true)
  refine (hsteps _ fun step hstep => ?_).bind fun _ => Steady.pure true
  exact steady_upgradeSteps step (List.mem_of_mem_drop hstep)

/-! ## `CheckVersion` -/

/-- Either all updates, inserts and table creations of the upgrade took effect and the version is
the current one, or tables and version are what they were. -/
def AllOrNothing (env : UpgradeEnv) (fails : ℕ → Bool) (bTransactionInProgress : Bool)
    (d : Database) : Prop :=
  let s := (checkVersion env bTransactionInProgress fails ⟨d, []⟩).2
  ((∀ bSuccess ∈ s.results, bSuccess = true) ∧ s.state.version = DB_VERSION) ∨ s.state = d

/-- The statements of the upgrade when none of them fails from outside. -/
def upgradeResults (env : UpgradeEnv) (d : Database) : List Bool :=
  ((onUpgrade env d.version).run d).2.results

/-- The upgrade of an older version is all or nothing iff SQLite accepts each of its updates,
inserts and table creations, and none of them fails. -/
theorem all_or_nothing_iff {d : Database} (hversion : d.version < DB_VERSION) (fails : ℕ → Bool)
    (bTransactionInProgress : Bool) :
    AllOrNothing env fails bTransactionInProgress d ↔
      (∀ bSuccess ∈ upgradeResults env d, bSuccess = true) ∧
        ∀ i < (upgradeResults env d).length, fails i = false := by
  have hkept := @checkVersion_of_older env ⟨d, []⟩ hversion fails bTransactionInProgress
  unfold AllOrNothing
  rw [hkept]
  refine Iff.trans ?_ ((steady_onUpgrade d.version).all_true_iff fails d)
  constructor
  · rintro (⟨hall, -⟩ | hsame)
    · exact hall
    · -- the version was raised
      have hraised : DB_VERSION = d.version := congrArg Database.version hsame
      omega
  · intro hall
    exact Or.inl ⟨hall, rfl⟩

/-- A configuration of both modes. -/
def bothModes : UpgradeEnv where
  m_pUploadMode := ⟨⟨true, true⟩, ⟨true, true⟩, fun _ => none⟩
  setStreamEventList := []
  setBatchEventlist := []
  strTimeZone := "0"
  decryptEventData strEventData := strEventData
  hasAttachments _ := false
  configRows _ := []

/-- A database of version 12 with one event. -/
def version12 : Database where
  tables
    | .eventStore => some ⟨createColumns .eventStore \ {.granularity},
        [fun c => if c = .id then some "1" else none]⟩
    | .igniteServiceSettings => none
    | t => some ⟨createColumns t, []⟩
  version := 12

theorem all_or_nothing_iff_version12 : version12.version < DB_VERSION ∧
    (AllOrNothing bothModes (fun i => i = 0) true version12 ↔
      (∀ bSuccess ∈ upgradeResults bothModes version12, bSuccess = true) ∧
        ∀ i < (upgradeResults bothModes version12).length, decide (i = 0) = false) :=
  ⟨by decide, all_or_nothing_iff (by decide) _ true⟩

/-- The creation of the settings table fails, and the version is raised. -/
theorem not_allOrNothing_version12 :
    ¬ AllOrNothing bothModes (fun i => i = 0) true version12 := by
  rintro (⟨hall, -⟩ | hsame)
  · -- the failed creation is among the results
    exact absurd (hall false (by decide +kernel)) (by decide)
  · have hraised : (17 : ℤ) = 12 := congrArg Database.version hsame
    exact absurd hraised (by decide)

end DatabaseUpgrade

end DeviceClient
