import DeviceClient.Db.DatabaseUpgrade
import DeviceClient.Lib.Run
import Mathlib.Data.Finset.Lattice.Lemmas
import Mathlib.Data.Finset.SDiff

/-!
# The columns of the tables after an upgrade

Some steps of the upgrade add a column under the upload mode of the moment, and the version is
raised all the same. A table that misses the column then keeps missing it.

Every statement is executed here: none fails from outside.

* `TableEffect`: what a program does to the columns of a table that exists.
* `onUpgrade_effect`: the effect of an upgrade.
* `Complete`: the tables in use have all their columns.
* `complete_runs_iff`: the starts, from any old database, after which they do.
-/

namespace DeviceClient

namespace DatabaseUpgrade

open Lib

/-! ## Effects on columns -/

/-- What becomes of the columns of a table that exists. -/
inductive TableEffect where
  | adds (added : Finset Column)
  | recreates
deriving DecidableEq

namespace TableEffect

/-- One effect and then another. -/
def andThen : TableEffect → TableEffect → TableEffect
  | _, .recreates => .recreates
  | .recreates, .adds _ => .recreates
  | .adds a, .adds b => .adds (a ∪ b)

/-- The columns that are there afterwards. -/
def result (t : TableName) (columns : Finset Column) : TableEffect → Finset Column
  | .adds a => columns ∪ a
  | .recreates => createColumns t

/-- Only columns of the table are added. -/
def Fits (t : TableName) : TableEffect → Prop
  | .adds a => a ⊆ createColumns t
  | .recreates => True

instance (t : TableName) : DecidablePred (Fits t)
  | .adds a => inferInstanceAs (Decidable (a ⊆ createColumns t))
  | .recreates => inferInstanceAs (Decidable True)

/-- A table that exists changes so; one that does not stays away or is there as it is created. -/
def Meets (t : TableName) (e : TableEffect) (d d' : Database) : Prop :=
  match d.columns t with
  | some columns => d'.columns t = some (e.result t columns)
  | none => d'.columns t = none ∨ d'.columns t = some (createColumns t)

theorem fits_andThen {t : TableName} {e e' : TableEffect} (h : e.Fits t) (h' : e'.Fits t) :
    (e.andThen e').Fits t := by
  cases e with
  | recreates => cases e' <;> trivial
  | adds a =>
    cases e' with
    | recreates => trivial
    | adds b => exact Finset.union_subset h h'

/-- A table with all its columns keeps them. -/
theorem result_createColumns {t : TableName} {e : TableEffect} (h : e.Fits t) :
    e.result t (createColumns t) = createColumns t := by
  cases e with
  | adds a => exact Finset.union_eq_left.2 h
  | recreates => rfl

theorem result_andThen {t : TableName} {e e' : TableEffect} (h' : e'.Fits t)
    (columns : Finset Column) :
    (e.andThen e').result t columns = e'.result t (e.result t columns) := by
  cases e' with
  | recreates => cases e <;> rfl
  | adds b =>
    cases e with
    | recreates => exact (result_createColumns h').symm
    | adds a => exact (Finset.union_assoc columns a b).symm

theorem meets_of_some {t : TableName} {e : TableEffect} {d d' : Database} {columns : Finset Column}
    (h : d.columns t = some columns) :
    e.Meets t d d' ↔ d'.columns t = some (e.result t columns) := by
  unfold Meets
  rw [h]

theorem meets_of_none {t : TableName} {e : TableEffect} {d d' : Database}
    (h : d.columns t = none) :
    e.Meets t d d' ↔ d'.columns t = none ∨ d'.columns t = some (createColumns t) := by
  unfold Meets
  rw [h]

theorem meets_andThen {t : TableName} {e e' : TableEffect} {d d' d'' : Database} (h : e.Meets t d d')
    (h' : e'.Meets t d' d'') (hfits : e'.Fits t) : (e.andThen e').Meets t d d'' := by
  cases hd : d.columns t with
  | some columns =>
    rw [meets_of_some hd] at h ⊢
    rw [meets_of_some h] at h'
    rw [h', result_andThen hfits]
  | none =>
    rw [meets_of_none hd] at h ⊢
    rcases h with hnone | hsome
    · exact (meets_of_none hnone).1 h'
    · rw [meets_of_some hsome, result_createColumns hfits] at h'
      exact Or.inr h'

/-- No change. -/
theorem meets_of_eq {t : TableName} {d d' : Database} (h : d'.columns t = d.columns t) :
    (adds ∅).Meets t d d' := by
  cases hd : d.columns t with
  | some columns =>
    rw [meets_of_some hd, h, hd]
    exact congrArg some (Finset.union_empty columns).symm
  | none =>
    rw [meets_of_none hd, h]
    exact Or.inl hd

end TableEffect

open TableEffect

/-- The effects of a program on the tables, when no statement fails from outside. -/
structure Effects {β : Type} (f : Sql β) (e : TableName → TableEffect) : Prop where
  fits : ∀ t, (e t).Fits t
  meets : ∀ (s : Logged Database) t, (e t).Meets t s.state (f Faulty.never s).2.state

/-- No effect on any table. -/
def keeps : TableName → TableEffect := fun _ => .adds ∅

/-- An effect on one table. -/
def only (t : TableName) (e : TableEffect) : TableName → TableEffect :=
  Function.update keeps t e

/-- One effect on the tables and then another. -/
def seq (e e' : TableName → TableEffect) : TableName → TableEffect := fun t => (e t).andThen (e' t)

theorem keeps_seq (e : TableName → TableEffect) : seq keeps e = e := by
  funext t
  unfold seq
  cases he : e t with
  | adds a =>
    show TableEffect.adds (∅ ∪ a) = .adds a
    rw [Finset.empty_union]
  | recreates => rfl

theorem seq_keeps (e : TableName → TableEffect) : seq e keeps = e := by
  funext t
  unfold seq
  cases he : e t with
  | adds a =>
    show TableEffect.adds (a ∪ ∅) = .adds a
    rw [Finset.union_empty]
  | recreates => rfl

namespace Effects

variable {β γ : Type} {e e' : TableName → TableEffect}

theorem of_columns {f : Sql β}
    (h : ∀ (s : Logged Database) t, (f Faulty.never s).2.state.columns t = s.state.columns t) :
    Effects f keeps where
  fits t := Finset.empty_subset (createColumns t)
  meets s t := meets_of_eq (h s t)

theorem pure (b : β) : Effects (Pure.pure b : Sql β) keeps := of_columns fun _ _ => rfl

theorem read (f : Database → β) : Effects (Faulty.read f) keeps := of_columns fun _ _ => rfl

theorem bind {f : Sql β} {g : β → Sql γ} (hf : Effects f e) (hg : ∀ b, Effects (g b) e') :
    Effects (f >>= g) (seq e e') where
  fits t := fits_andThen (hf.fits t) ((hg (f Faulty.never ⟨⟨fun _ => none, 0⟩, []⟩).1).fits t)
  meets s t := meets_andThen (hf.meets s t) ((hg _).meets _ t) ((hg (f Faulty.never s).1).fits t)

/-- Behind a program without effects. -/
theorem bind_keeps {f : Sql β} {g : β → Sql γ} (hf : Effects f keeps) (hg : ∀ b, Effects (g b) e) :
    Effects (f >>= g) e := keeps_seq e ▸ hf.bind hg

/-- Before a program without effects. -/
theorem keeps_bind {f : Sql β} {g : β → Sql γ} (hf : Effects f e) (hg : ∀ b, Effects (g b) keeps) :
    Effects (f >>= g) e := seq_keeps e ▸ hf.bind hg

theorem ite {c : Prop} [Decidable c] {f g : Sql β} (hf : Effects f e) (hg : Effects g e) :
    Effects (if c then f else g) e := by
  split_ifs
  · exact hf
  · exact hg

theorem forEach {α : Type} {f : α → Sql Unit} (hf : ∀ a, Effects (f a) keeps) (l : List α) :
    Effects (Faulty.forEach l f) keeps := by
  induction l with
  | nil => exact Effects.pure ()
  | cons a l ih => exact (hf a).bind_keeps fun _ => ih

end Effects

/-! ## The statements -/

theorem columns_set_self (t : TableName) (table : Option SqlTable) (d : Database) :
    (d.set t table).columns t = table.map SqlTable.columns := by
  show (Function.update d.tables t table t).map SqlTable.columns = _
  rw [Function.update_self]

theorem columns_set_of_ne {t t' : TableName} (h : t' ≠ t) (table : Option SqlTable)
    (d : Database) : (d.set t table).columns t' = d.columns t' := by
  show (Function.update d.tables t table t').map SqlTable.columns = _
  rw [Function.update_of_ne h]
  rfl

theorem columns_mapRows (t t' : TableName) (f : List SqlRow → List SqlRow) (d : Database) :
    (d.mapRows t f).columns t' = d.columns t' := by
  unfold Database.mapRows
  cases htable : d.tables t with
  | none => rfl
  | some table =>
    by_cases ht : t' = t
    · subst ht
      show (d.set t' _).columns t' = _
      rw [columns_set_self]
      unfold Database.columns
      rw [htable]
      rfl
    · exact columns_set_of_ne ht _ d

theorem isNone_tables (t : TableName) (d : Database) :
    (d.tables t).isNone = (d.columns t).isNone := by
  unfold Database.columns
  cases d.tables t <;> rfl

/-- A creation leaves the tables, and the table is there. -/
theorem createTable_columns (t t' : TableName) (s : Logged Database) :
    (createTable t Faulty.never s).2.state.columns t' =
      if t' = t then some ((s.state.columns t).getD (createColumns t)) else s.state.columns t' := by
  show (if (s.state.tables t).isNone = true then s.state.set t _ else s.state).columns t' = _
  rw [isNone_tables]
  by_cases ht : t' = t
  · rw [ht, if_pos rfl]
    cases hcolumns : s.state.columns t with
    | none => exact columns_set_self t _ s.state
    | some columns => exact hcolumns
  · rw [if_neg ht]
    split_ifs
    · exact columns_set_of_ne ht _ s.state
    · rfl

theorem createTable_effect (t : TableName) : Effects (createTable t) keeps where
  fits t' := Finset.empty_subset (createColumns t')
  meets s t' := by
    by_cases ht : t' = t
    · subst ht
      cases hcolumns : s.state.columns t' with
      | none =>
        refine (meets_of_none hcolumns).2 (Or.inr ?_)
        rw [createTable_columns, if_pos rfl, hcolumns]
        rfl
      | some columns =>
        refine meets_of_eq ?_
        rw [createTable_columns, if_pos rfl, hcolumns]
        rfl
    · refine meets_of_eq ?_
      rw [createTable_columns, if_neg ht]

theorem only_self (t : TableName) (e : TableEffect) : only t e t = e := by
  unfold only
  rw [Function.update_self]

theorem only_of_ne {t t' : TableName} (h : t' ≠ t) (e : TableEffect) : only t e t' = .adds ∅ := by
  unfold only
  rw [Function.update_of_ne h]
  rfl

theorem recreateTable_effect (t : TableName) : Effects (recreateTable t) (only t .recreates) where
  fits t' := by
    by_cases ht : t' = t
    · rw [ht, only_self]
      trivial
    · rw [only_of_ne ht]
      exact Finset.empty_subset (createColumns t')
  meets s t' := by
    show Meets t' _ s.state (createTable t Faulty.never ⟨s.state.set t none, s.results⟩).2.state
    by_cases ht : t' = t
    · have hcreated : (createTable t Faulty.never ⟨s.state.set t none, s.results⟩).2.state.columns t'
          = some (createColumns t') := by
        rw [createTable_columns, if_pos ht, ht]
        exact congrArg (fun columns => some (columns.getD (createColumns t)))
          (columns_set_self t none s.state)
      rw [ht, only_self]
      rw [ht] at hcreated
      cases hcolumns : s.state.columns t with
      | none => exact (meets_of_none hcolumns).2 (Or.inr hcreated)
      | some columns => exact (meets_of_some hcolumns).2 hcreated
    · rw [only_of_ne ht]
      refine meets_of_eq ?_
      rw [createTable_columns, if_neg ht]
      exact columns_set_of_ne ht none s.state

theorem checkAndCreateTable_effect (t : TableName) : Effects (checkAndCreateTable t) keeps :=
  Effects.ite (Effects.pure ()) ((createTable_effect t).bind_keeps fun _ => Effects.pure ())

theorem changeRows_effect (t : TableName) (used : Finset Column) (f : List SqlRow → List SqlRow) :
    Effects (changeRows t used f) keeps := by
  have hattempt : Effects (Faulty.attempt (Database.hasColumns t used) (Database.mapRows t f))
      keeps := by
    refine Effects.of_columns fun s t' => ?_
    show (if _ then s.state.mapRows t f else s.state).columns t' = _
    split_ifs
    · exact columns_mapRows t t' f s.state
    · rfl
  refine (Effects.read _).bind_keeps fun bMissing => hattempt.bind_keeps fun bSuccess => ?_
  exact Effects.ite ((checkAndCreateTable_effect t).bind_keeps fun _ => Effects.pure bSuccess)
    (Effects.pure bSuccess)

theorem read_columns {t : TableName} {columns : Option (Finset Column)} {s : Logged Database}
    (h : s.state.columns t = columns) :
    Faulty.read (Database.columns t) Faulty.never s = (columns, s) := Prod.ext h rfl

/-- The table is created with the column. -/
theorem alterTable_of_none {t : TableName} {s : Logged Database} (h : s.state.columns t = none)
    (c : Column) (strDefault : Option String) :
    (alterTable t c strDefault Faulty.never s).2 =
      (checkAndCreateTable t Faulty.never s).2 := by
  unfold alterTable
  rw [Faulty.bind_apply, read_columns h]
  rfl

/-- The column is there already, or it is added. -/
theorem alterTable_of_some {t : TableName} {s : Logged Database} {columns : Finset Column}
    (h : s.state.columns t = some columns) (c : Column) (strDefault : Option String) :
    (alterTable t c strDefault Faulty.never s).2.state =
      if c ∈ columns then s.state
      else s.state.set t (some ⟨insert c columns, ((s.state.tables t).elim [] SqlTable.rows).map
        fun row => Function.update row c strDefault⟩) := by
  unfold alterTable
  rw [Faulty.bind_apply, read_columns h]
  split_ifs with hmem
  · show ((if c ∈ columns then pure false else _ : Sql Bool) Faulty.never s).2.state = _
    rw [if_pos hmem]
    rfl
  · show ((if c ∈ columns then pure false else _ : Sql Bool) Faulty.never s).2.state = _
    rw [if_neg hmem]
    rfl

theorem alterTable_effect {t : TableName} {c : Column} (hc : c ∈ createColumns t)
    (strDefault : Option String) :
    Effects (alterTable t c strDefault) (only t (.adds {c})) where
  fits t' := by
    by_cases ht : t' = t
    · rw [ht, only_self]
      exact Finset.singleton_subset_iff.2 hc
    · rw [only_of_ne ht]
      exact Finset.empty_subset (createColumns t')
  meets s t' := by
    cases hcolumns : s.state.columns t with
    | none =>
      have hcreate := (checkAndCreateTable_effect t).meets s t'
      rw [alterTable_of_none hcolumns]
      by_cases ht : t' = t
      · rw [ht] at hcreate ⊢
        exact (meets_of_none hcolumns).2 ((meets_of_none hcolumns).1 hcreate)
      · rw [only_of_ne ht]
        exact hcreate
    | some columns =>
      rw [alterTable_of_some hcolumns]
      by_cases ht : t' = t
      · rw [ht, only_self]
        refine (meets_of_some hcolumns).2 ?_
        split_ifs with hmem
        · rw [hcolumns]
          exact congrArg some (Finset.union_eq_left.2 (Finset.singleton_subset_iff.2 hmem)).symm
        · refine (columns_set_self t _ s.state).trans ?_
          show some (insert c columns) = some (columns ∪ {c})
          rw [Finset.union_comm, Finset.insert_eq]
      · rw [only_of_ne ht]
        split_ifs with hmem
        · exact meets_of_eq rfl
        · exact meets_of_eq (columns_set_of_ne ht _ s.state)

/-! ## The steps -/

/-- An effect under a mode. -/
def under (b : Bool) (e : TableName → TableEffect) : TableName → TableEffect :=
  if b = true then e else keeps

theorem under_effect {b : Bool} {f : Sql Unit} {e : TableName → TableEffect} (hf : Effects f e) :
    Effects (if b = true then f else pure ()) (under b e) := by
  unfold under
  split_ifs
  · exact hf
  · exact Effects.pure ()

/-- A statement whose result is dropped. -/
theorem drop_effect {f : Sql Bool} {e : TableName → TableEffect} (hf : Effects f e) :
    Effects (f >>= fun _ => pure ()) e := hf.keeps_bind fun _ => Effects.pure ()

/-- A column of the event table, or of the alert table under the stream mode. -/
def eventColumn (c : Column) : TableName → TableEffect := only .eventStore (.adds {c})

def alertColumn (bStream : Bool) (c : Column) : TableName → TableEffect :=
  under bStream (only .alertStore (.adds {c}))

def newAlerts (bStream : Bool) : TableName → TableEffect :=
  under bStream (only .alertStore .recreates)

def settingsColumn : TableName → TableEffect :=
  only .igniteServiceSettings (.adds {.settingSrcIsDevice})

/-- The effects of the steps, from version 1 on. -/
def stepEffects (bStream bBatch : Bool) : List (TableName → TableEffect) :=
  [seq (only .eventStore .recreates)
      (seq (newAlerts bStream) (only .messageSenderStore .recreates)),
    seq (eventColumn .timezone) (newAlerts bStream),
    seq (eventColumn .size) (newAlerts bStream),
    seq (eventColumn .hasAttach) (newAlerts bStream),
    newAlerts bStream,
    seq (eventColumn .appId) (alertColumn bStream .appId),
    under bStream (seq (eventColumn .topic) (alertColumn bStream .topic)),
    under bStream (seq (eventColumn .mid) (alertColumn bStream .mid)),
    keeps,
    seq (eventColumn .streamSupport) (eventColumn .batchSupport),
    keeps,
    keeps,
    under bBatch (only .uploadFile (.adds {.fileSize})),
    settingsColumn,
    seq settingsColumn (eventColumn .granularity),
    keeps]

variable (env : UpgradeEnv)

theorem update_effect (t : TableName) (c : Column) (strValue : String) (used : Finset Column)
    (selection : SqlRow → Bool) : Effects (update t c strValue used selection) keeps :=
  changeRows_effect t _ _

theorem recreateAlertStore_effect :
    Effects (recreateAlertStore env) (newAlerts env.m_pUploadMode.isStreamModeSupported) :=
  under_effect (recreateTable_effect .alertStore)

theorem fillColumn_effect {c : Column} (hc : c ∈ createColumns .eventStore)
    (strValue : String → String) : Effects (fillColumn env c strValue) (eventColumn c) := by
  refine (alterTable_effect hc none).keeps_bind fun bAdded => Effects.ite ?_ (Effects.pure ())
  refine (Effects.read _).bind_keeps fun pCursor => ?_
  cases pCursor with
  | none => exact Effects.pure ()
  | some rows => exact Effects.forEach (fun row => drop_effect (update_effect _ _ _ _ _)) rows

theorem alterAlertStore_effect {c : Column} (hc : c ∈ createColumns .alertStore)
    (strDefault : Option String) :
    Effects (alterAlertStore env c strDefault)
      (alertColumn env.m_pUploadMode.isStreamModeSupported c) :=
  under_effect (drop_effect (alterTable_effect hc strDefault))

theorem alterBothStores_effect {c : Column} (hevent : c ∈ createColumns .eventStore)
    (halert : c ∈ createColumns .alertStore) (strDefault : Option String) :
    Effects (alterBothStores env c strDefault)
      (under env.m_pUploadMode.isStreamModeSupported
        (seq (eventColumn c) (alertColumn env.m_pUploadMode.isStreamModeSupported c))) :=
  under_effect ((alterTable_effect hevent strDefault).bind fun _ =>
    alterAlertStore_effect env halert strDefault)

/-- The updates under a condition have no effect. -/
theorem conditional_update_effect {c : Prop} [Decidable c] {f : Sql Bool} (hf : Effects f keeps) :
    Effects (if c then f >>= fun _ => pure () else pure ()) keeps :=
  Effects.ite (drop_effect hf) (Effects.pure ())

theorem updateEventsDefaultMode_effect : Effects (updateEventsDefaultMode env) keeps := by
  have hbatch : Effects (if env.m_pUploadMode.isBatchModeSupportedAsDefault = true then do
      let _ ← update .eventStore .batchSupport "1" (defaultColumns env ∪ {.topic, .appId})
        fun row => isDefaultEvent env row &&
          if env.m_pUploadMode.isStreamModeSupported then isPlainEvent row else isTopicedOrApp row
      else pure ()) keeps := conditional_update_effect (update_effect _ _ _ _ _)
  exact Effects.ite ((update_effect _ _ _ _ _).bind_keeps fun _ => hbatch) hbatch

theorem upgradeVersionFrom2To3_effect : Effects (upgradeVersionFrom2To3 env)
    (seq (eventColumn .timezone) (newAlerts env.m_pUploadMode.isStreamModeSupported)) := by
  refine (alterTable_effect (by decide) none).bind fun bAdded => ?_
  exact Effects.ite ((update_effect _ _ _ _ _).bind_keeps fun _ => recreateAlertStore_effect env)
    (recreateAlertStore_effect env)

theorem upgradeVersionFrom10To11_effect : Effects (upgradeVersionFrom10To11 env)
    (seq (eventColumn .streamSupport) (eventColumn .batchSupport)) := by
  have hbatch : Effects (if (!env.setBatchEventlist.isEmpty) = true then do
      let _ ← update .eventStore .batchSupport "1" {.eventId} (inList env.setBatchEventlist)
      else pure ()) keeps := conditional_update_effect (update_effect _ _ _ _ _)
  refine (alterTable_effect (by decide) _).bind fun _ =>
    (alterTable_effect (by decide) _).keeps_bind fun _ => ?_
  refine (updateEventsDefaultMode_effect env).bind_keeps fun _ => ?_
  exact Effects.ite ((update_effect _ _ _ _ _).bind_keeps fun _ => hbatch) hbatch

theorem insertSettings_effect (bStatus : Bool) (rows : List (List (Column × String))) :
    Effects (insertSettings bStatus rows) keeps := by
  induction rows generalizing bStatus with
  | nil => exact Effects.pure bStatus
  | cons data rest ih => exact (changeRows_effect _ _ _).bind_keeps fun bInserted => ih bInserted

theorem upgradeVersionFrom16To17_effect : Effects (upgradeVersionFrom16To17 env) keeps := by
  refine (Effects.read _).bind_keeps fun pCursor => ?_
  split
  · refine (insertSettings_effect _ _).bind_keeps fun bStatus => ?_
    refine Effects.ite (Effects.of_columns fun s t => ?_) (Effects.pure ())
    exact columns_mapRows .localConfig t _ s.state
  · exact Effects.pure ()

/-- Each case of the switch has its effect. -/
theorem upgradeSteps_effects : List.Forall₂ (fun step e => Effects (step env) e) upgradeSteps
    (stepEffects env.m_pUploadMode.isStreamModeSupported
      env.m_pUploadMode.isBatchModeSupported) := by
  -- one goal for each case of the switch, from version 1 on
  refine .cons ?_ <| .cons ?_ <| .cons ?_ <| .cons ?_ <| .cons ?_ <| .cons ?_ <| .cons ?_ <|
    .cons ?_ <| .cons ?_ <| .cons ?_ <| .cons ?_ <| .cons ?_ <| .cons ?_ <| .cons ?_ <|
    .cons ?_ <| .cons ?_ .nil
  · exact (recreateTable_effect _).bind fun _ =>
      (recreateAlertStore_effect env).bind fun _ => recreateTable_effect _
  · exact upgradeVersionFrom2To3_effect env
  · exact (fillColumn_effect env (by decide) _).bind fun _ => recreateAlertStore_effect env
  · exact (fillColumn_effect env (by decide) _).bind fun _ => recreateAlertStore_effect env
  · exact recreateAlertStore_effect env
  · exact (alterTable_effect (by decide) _).bind fun _ => alterAlertStore_effect env (by decide) _
  · exact alterBothStores_effect env (by decide) (by decide) _
  · exact alterBothStores_effect env (by decide) (by decide) _
  · exact drop_effect (createTable_effect _)
  · exact upgradeVersionFrom10To11_effect env
  · exact Effects.pure ()
  · exact drop_effect (createTable_effect _)
  · exact under_effect (drop_effect (alterTable_effect (by decide) _))
  · exact drop_effect (alterTable_effect (by decide) _)
  · exact (alterTable_effect (by decide) _).bind fun _ =>
      drop_effect (alterTable_effect (by decide) _)
  · exact upgradeVersionFrom16To17_effect env

/-- The effect of the steps from a version on. -/
def upgradeEffect (bStream bBatch : Bool) (n : ℕ) : TableName → TableEffect :=
  ((stepEffects bStream bBatch).drop (n - 1)).foldr seq keeps

/-- The effect of an upgrade; a version that is no case of the switch has none. -/
def versionEffect (nOldVer : ℤ) : TableName → TableEffect :=
  if 1 ≤ nOldVer ∧ nOldVer ≤ 16 then
    upgradeEffect env.m_pUploadMode.isStreamModeSupported env.m_pUploadMode.isBatchModeSupported
      nOldVer.toNat
  else keeps

theorem onUpgrade_effect (nOldVer : ℤ) :
    Effects (onUpgrade env nOldVer) (versionEffect env nOldVer) := by
  have hsteps : ∀ (steps : List (UpgradeEnv → Sql Unit)) (effects : List (TableName → TableEffect)),
      List.Forall₂ (fun step e => Effects (step env) e) steps effects →
      Effects (Faulty.forEach steps fun step => step env) (effects.foldr seq keeps) := by
    intro steps effects h
    -- the cases fall through: each step runs on what the one before it left
    induction h with
    | nil => exact Effects.pure ()
    | cons hstep _ ih => exact hstep.bind fun _ => ih
  unfold onUpgrade versionEffect
  dsimp only
  split_ifs
  · refine (hsteps _ _ ?_).keeps_bind fun _ => Effects.pure true
    exact List.forall₂_drop _ (upgradeSteps_effects env)
  · exact Effects.pure true

/-! ## A start -/

theorem versionEffect_of_current {n : ℤ} (h : 17 ≤ n) : versionEffect env n = keeps :=
  if_neg fun hn => by omega

/-- Any other version is left: nothing is done, or it is rolled back. -/
theorem checkVersion_of_le {s : Logged Database} (h : DB_VERSION ≤ s.state.version) :
    (checkVersion env true Faulty.never s).2.state = s.state := by
  have hfalse : (changeVersion env s.state.version Faulty.never s).1 = false := by
    unfold changeVersion upgradeOrDowngrade
    by_cases hne : s.state.version ≠ DB_VERSION
    · rw [if_pos hne, if_neg (Int.not_lt.2 h)]
      rfl
    · rw [if_neg hne]
      rfl
  show (endTransaction s.state (changeVersion env s.state.version Faulty.never s).1 Faulty.never
    (changeVersion env s.state.version Faulty.never s).2).2.state = _
  rw [hfalse]
  rfl

theorem checkVersion_version (s : Logged Database) (h : s.state.version ≤ DB_VERSION) :
    (checkVersion env true Faulty.never s).2.state.version = DB_VERSION := by
  by_cases hlt : s.state.version < DB_VERSION
  · rw [checkVersion_of_older hlt]
    rfl
  · rw [checkVersion_of_le env (Int.not_lt.1 hlt)]
    exact Int.le_antisymm h (Int.not_lt.1 hlt)

theorem checkVersion_meets (s : Logged Database) (t : TableName) :
    (versionEffect env s.state.version t).Meets t s.state
      (checkVersion env true Faulty.never s).2.state := by
  by_cases hlt : s.state.version < DB_VERSION
  · rw [checkVersion_of_older hlt]
    exact (onUpgrade_effect env s.state.version).meets s t
  · rw [checkVersion_of_le env (Int.not_lt.1 hlt),
      versionEffect_of_current env (Int.not_lt.1 hlt)]
    exact meets_of_eq rfl

/-- The creations in turn: the tables that exist stay, the others are created. -/
theorem createTables_spec (ts : List TableName) (s : Logged Database) :
    (createTables ts Faulty.never s).1 = true ∧
      (createTables ts Faulty.never s).2.state.version = s.state.version ∧
      ∀ t, (createTables ts Faulty.never s).2.state.columns t =
        if t ∈ ts then some ((s.state.columns t).getD (createColumns t))
        else s.state.columns t := by
  induction ts generalizing s with
  | nil => exact ⟨rfl, rfl, fun t => (if_neg List.not_mem_nil).symm⟩
  | cons t' ts ih =>
    have hcreated : (createTable t' Faulty.never s).1 = true := rfl
    have hversion : (createTable t' Faulty.never s).2.state.version = s.state.version := by
      show (if _ then s.state.set t' _ else s.state).version = _
      split_ifs <;> rfl
    have hnext : createTables (t' :: ts) Faulty.never s =
        createTables ts Faulty.never (createTable t' Faulty.never s).2 := by
      show (if (createTable t' Faulty.never s).1 = true then createTables ts else pure false)
        Faulty.never _ = _
      rw [hcreated, if_pos rfl]
    rcases ih (createTable t' Faulty.never s).2 with ⟨htrue, hrest, hcolumns⟩
    rw [hnext]
    refine ⟨htrue, hrest.trans hversion, fun t => ?_⟩
    rw [hcolumns t, createTable_columns]
    by_cases ht : t = t'
    · rw [ht, if_pos rfl, if_pos List.mem_cons_self]
      split_ifs <;> rfl
    · rw [if_neg ht]
      simp only [List.mem_cons, ht, false_or]

/-- The columns after the tables in use were created. -/
theorem createInTransaction_spec (s : Logged Database) :
    (createInTransaction env Faulty.never s).2.state.version = s.state.version ∧
      ∀ t, (createInTransaction env Faulty.never s).2.state.columns t =
        if t ∈ usedTables env then some ((s.state.columns t).getD (createColumns t))
        else s.state.columns t := by
  rcases createTables_spec (usedTables env) s with ⟨htrue, hversion, hcolumns⟩
  have hend : createInTransaction env Faulty.never s = ((), (onCreate env Faulty.never s).2) := by
    show endTransaction s.state (onCreate env Faulty.never s).1 Faulty.never _ = _
    unfold onCreate
    rw [htrue]
    rfl
  rw [hend]
  exact ⟨hversion, hcolumns⟩

/-! ## Starts -/

/-- The database file, and the configuration of the last start. -/
structure Starts where
  database : Option Database
  lastEnv : Option UpgradeEnv

/-- The database of a new file. -/
def noTables : Database := ⟨fun _ => none, 0⟩

/-- `Open`. -/
def openDatabase : Option Database → Database
  | some d => ((openExisting env).run d).2.state
  | none => ((openNew env).run noTables).2.state

def start (s : Starts) (env : UpgradeEnv) : Option Starts :=
  some ⟨some (openDatabase env s.database), some env⟩

/-- The tables that the configuration uses exist, with the columns that they are created with. -/
def Complete (d : Database) : Prop :=
  ∀ t ∈ usedTables env, ∃ columns, d.columns t = some columns ∧ createColumns t ⊆ columns

/-- After the last start. -/
def Starts.Sound (s : Starts) : Prop :=
  ∀ env, s.lastEnv = some env → ∃ d, s.database = some d ∧ Complete env d

/-- What a start needs of the stored database: a table in use that exists gets its missing
columns from the upgrade. -/
def Repairs (s : Starts) (env : UpgradeEnv) : Prop :=
  ∀ d, s.database = some d → ∀ t ∈ usedTables env, ∀ columns, d.columns t = some columns →
    createColumns t ⊆ (versionEffect env d.version t).result t columns

theorem openExisting_columns (d : Database) (t : TableName) (ht : t ∈ usedTables env) :
    (openDatabase env (some d)).columns t =
      some ((d.columns t).elim (createColumns t) ((versionEffect env d.version t).result t)) := by
  have hmeets := checkVersion_meets env ⟨d, []⟩ t
  have hcreated := (createInTransaction_spec env (checkVersion env true Faulty.never ⟨d, []⟩).2).2 t
  rw [if_pos ht] at hcreated
  refine hcreated.trans (congrArg some ?_)
  cases hcolumns : d.columns t with
  | some columns =>
    rw [(meets_of_some hcolumns).1 hmeets]
    rfl
  | none =>
    rcases (meets_of_none hcolumns).1 hmeets with h | h <;> rw [h] <;> rfl

theorem complete_existing_iff (d : Database) :
    Complete env (openDatabase env (some d)) ↔ Repairs ⟨some d, none⟩ env := by
  constructor
  · rintro hcomplete _ ⟨⟩ t ht columns hcolumns
    rcases hcomplete t ht with ⟨columns', hopened, hall⟩
    rw [openExisting_columns env d t ht, hcolumns] at hopened
    cases hopened
    exact hall
  · intro hrepairs t ht
    refine ⟨_, openExisting_columns env d t ht, ?_⟩
    cases hcolumns : d.columns t with
    | some columns => exact hrepairs d rfl t ht columns hcolumns
    | none => exact Finset.Subset.refl (createColumns t)

theorem complete_new : Complete env (openDatabase env none) := by
  intro t ht
  have hcreated := (createInTransaction_spec env ⟨noTables, []⟩).2 t
  rw [if_pos ht] at hcreated
  exact ⟨createColumns t, hcreated, Finset.Subset.refl (createColumns t)⟩

/-- The step lemma. -/
theorem sound_start_iff {s s' : Starts} {env : UpgradeEnv} (h : start s env = some s') :
    s'.Sound ↔ Repairs s env := by
  cases h
  have hsound : Starts.Sound ⟨some (openDatabase env s.database), some env⟩ ↔
      Complete env (openDatabase env s.database) := by
    constructor
    · intro h
      rcases h env rfl with ⟨d, hd, hcomplete⟩
      cases hd
      exact hcomplete
    · rintro h _ ⟨⟩
      exact ⟨_, rfl, h⟩
  rw [hsound]
  rcases s with ⟨database, lastEnv⟩
  cases database with
  | none => exact iff_of_true (complete_new env) nofun
  | some d => exact complete_existing_iff env d

/-! ## After the first start -/

theorem openDatabase_version {d : Option Database} (h : ∀ x, d = some x → x.version ≤ DB_VERSION) :
    (openDatabase env d).version = DB_VERSION := by
  cases d with
  | none => rfl
  | some x =>
    have hcreated := (createInTransaction_spec env
      (checkVersion env true Faulty.never ⟨x, []⟩).2).1
    exact hcreated.trans (checkVersion_version env ⟨x, []⟩ (h x rfl))

/-- What a start makes of any table. -/
theorem openDatabase_columns (d : Database) (t : TableName) :
    (∀ columns, d.columns t = some columns → (openDatabase env (some d)).columns t =
      some ((versionEffect env d.version t).result t columns)) ∧
    (d.columns t = none → (openDatabase env (some d)).columns t = none ∨
      (openDatabase env (some d)).columns t = some (createColumns t)) := by
  have hmeets := checkVersion_meets env ⟨d, []⟩ t
  have hcreated := (createInTransaction_spec env (checkVersion env true Faulty.never ⟨d, []⟩).2).2 t
  have hopened : (openDatabase env (some d)).columns t = _ := hcreated
  rw [hopened]
  constructor
  · intro columns hcolumns
    rw [(meets_of_some hcolumns).1 hmeets]
    split_ifs <;> rfl
  · intro hcolumns
    rcases (meets_of_none hcolumns).1 hmeets with h | h
    · rw [h]
      split_ifs
      · exact Or.inr rfl
      · exact Or.inl rfl
    · rw [h]
      split_ifs <;> exact Or.inr rfl

/-- The tables of a configuration that exist have all their columns. -/
def Sufficient (d : Database) (env : UpgradeEnv) : Prop :=
  ∀ t ∈ usedTables env, ∀ columns, d.columns t = some columns → createColumns t ⊆ columns

/-- Whether it is so after a start shows before it. -/
theorem sufficient_openDatabase_iff (d : Database) (env' : UpgradeEnv) :
    Sufficient (openDatabase env (some d)) env' ↔
      ∀ t ∈ usedTables env', ∀ columns, d.columns t = some columns →
        createColumns t ⊆ (versionEffect env d.version t).result t columns := by
  refine forall₂_congr fun t _ => ?_
  rcases openDatabase_columns env d t with ⟨hsome, hnone⟩
  constructor
  · intro h columns hcolumns
    exact h _ (hsome columns hcolumns)
  · intro h columns' hopened
    cases hcolumns : d.columns t with
    | some columns =>
      rw [hsome columns hcolumns] at hopened
      cases hopened
      exact h columns hcolumns
    | none =>
      rcases hnone hcolumns with h' | h'
      · rw [h'] at hopened
        cases hopened
      · rw [h'] at hopened
        cases hopened
        exact Finset.Subset.refl (createColumns t)

theorem result_keeps (t : TableName) (columns : Finset Column) :
    (keeps t).result t columns = columns := Finset.union_empty columns

/-- From the current version on, a start repairs nothing and spoils nothing. -/
theorem along_current_iff (later : List UpgradeEnv) {d : Database} (hversion : d.version = DB_VERSION)
    (e : Option UpgradeEnv) :
    Lib.Along start Repairs ⟨some d, e⟩ later ↔ ∀ env ∈ later, Sufficient d env := by
  have heffect : ∀ env t, versionEffect env d.version t = keeps t := fun env t => by
    rw [versionEffect_of_current env (Int.le_of_eq hversion.symm)]
  induction later generalizing d e with
  | nil => exact iff_of_true trivial fun _ h => absurd h List.not_mem_nil
  | cons env later ih =>
    have hnext := @openDatabase_version env (some d) fun x hx => by
      cases hx
      exact Int.le_of_eq hversion
    have hrest := ih hnext (some env) fun env' t => by
      rw [versionEffect_of_current env' (Int.le_of_eq hnext.symm)]
    have hsame : ∀ env', Sufficient (openDatabase env (some d)) env' ↔ Sufficient d env' := by
      intro env'
      rw [sufficient_openDatabase_iff]
      unfold Sufficient
      simp only [heffect, result_keeps]
    have hrepairs : Repairs ⟨some d, e⟩ env ↔ Sufficient d env := by
      unfold Sufficient
      constructor
      · intro h t ht columns hcolumns
        have hall := h d rfl t ht columns hcolumns
        rwa [heffect, result_keeps] at hall
      · rintro h _ ⟨⟩ t ht columns hcolumns
        rw [heffect, result_keeps]
        exact h t ht columns hcolumns
    rw [List.forall_mem_cons, ← hrepairs]
    simp only [hsame] at hrest
    constructor
    · intro h
      exact ⟨h.1, hrest.1 (h.2 _ rfl)⟩
    · rintro ⟨hfirst, hlater⟩
      exact Lib.along_cons rfl hfirst (hrest.2 hlater)

/-! ## Old databases -/

/-- The columns that a step adds, by the version before it; the steps that make the alert table
anew add to it what they add to the event table. -/
def addedColumns : ℕ → TableName → Finset Column
  | 2, .eventStore | 2, .alertStore => {.timezone}
  | 3, .eventStore | 3, .alertStore => {.size}
  | 4, .eventStore | 4, .alertStore => {.hasAttach}
  | 6, .eventStore | 6, .alertStore => {.appId}
  | 7, .eventStore | 7, .alertStore => {.topic}
  | 8, .eventStore | 8, .alertStore => {.mid}
  | 10, .eventStore => {.streamSupport, .batchSupport}
  | 13, .uploadFile => {.fileSize}
  | 14, .igniteServiceSettings | 15, .igniteServiceSettings => {.settingSrcIsDevice}
  | 15, .eventStore => {.granularity}
  | _, _ => ∅

/-- The columns that the steps from a version on add. -/
def laterColumns (n : ℕ) (t : TableName) : Finset Column :=
  (List.range' n (17 - n)).foldr (fun n columns => addedColumns n t ∪ columns) ∅

/-- A database of an older version: each of its tables lacks exactly the columns that later steps
add. -/
structure Old (d : Database) : Prop where
  low : 1 ≤ d.version
  high : d.version ≤ 16
  columns : ∀ t columns, d.columns t = some columns →
    columns = createColumns t \ laterColumns d.version.toNat t

/-- The upgrade completes a table of an older version. -/
def Completes (bStream bBatch : Bool) (n : ℕ) (t : TableName) : Prop :=
  createColumns t ⊆
    (upgradeEffect bStream bBatch n t).result t (createColumns t \ laterColumns n t)

instance (bStream bBatch : Bool) (n : ℕ) (t : TableName) :
    Decidable (Completes bStream bBatch n t) :=
  inferInstanceAs (Decidable (createColumns t ⊆
    (upgradeEffect bStream bBatch n t).result t (createColumns t \ laterColumns n t)))

/-- Three tables depend on the mode. -/
def CompletesWhen (bStream bBatch : Bool) (n : ℕ) : TableName → Prop
  | .eventStore => n = 1 ∨ 9 ≤ n ∨ bStream = true
  | .alertStore => 9 ≤ n ∨ bStream = true
  | .uploadFile => 14 ≤ n ∨ bBatch = true
  | _ => True

instance (bStream bBatch : Bool) (n : ℕ) : DecidablePred (CompletesWhen bStream bBatch n)
  | .eventStore => inferInstanceAs (Decidable (n = 1 ∨ 9 ≤ n ∨ bStream = true))
  | .alertStore => inferInstanceAs (Decidable (9 ≤ n ∨ bStream = true))
  | .uploadFile => inferInstanceAs (Decidable (14 ≤ n ∨ bBatch = true))
  | .localConfig | .messageSenderStore | .invalidEventStore | .igniteServiceSettings =>
    inferInstanceAs (Decidable True)

/-- By the sixteen versions. -/
theorem completes_iff (bStream bBatch : Bool) {n : ℕ} (hlow : 1 ≤ n) (hhigh : n ≤ 16)
    (t : TableName) : Completes bStream bBatch n t ↔ CompletesWhen bStream bBatch n t := by
  have hall : ∀ k < 16, Completes bStream bBatch (k + 1) t ↔
      CompletesWhen bStream bBatch (k + 1) t := by
    cases t <;> cases bStream <;> cases bBatch <;> decide +kernel
  have hn := hall (n - 1) (by omega)
  rwa [Nat.sub_add_cancel hlow] at hn

/-- The modes of the first start do not leave a table incomplete that it or a later one uses. -/
structure NothingMissed (d : Database) (first : UpgradeEnv) (later : List UpgradeEnv) : Prop where
  event : (d.columns .eventStore).isSome = true → d.version = 1 ∨ 9 ≤ d.version ∨
    first.m_pUploadMode.isStreamModeSupported = true
  alert : (d.columns .alertStore).isSome = true → 9 ≤ d.version ∨
    first.m_pUploadMode.isStreamModeSupported = true ∨
      ∀ env ∈ later, env.m_pUploadMode.isStreamModeSupported = false
  uploadFile : (d.columns .uploadFile).isSome = true → 14 ≤ d.version ∨
    first.m_pUploadMode.isBatchModeSupported = true ∨
      ∀ env ∈ later, env.m_pUploadMode.isBatchModeSupported = false

theorem mem_usedTables (t : TableName) : t ∈ usedTables env ↔
    (t = .alertStore → env.m_pUploadMode.isStreamModeSupported = true) ∧
      (t = .uploadFile → env.m_pUploadMode.isBatchModeSupported = true) := by
  unfold usedTables
  cases env.m_pUploadMode.isStreamModeSupported <;>
    cases env.m_pUploadMode.isBatchModeSupported <;> cases t <;> decide

/-- The tables in use of an old database that exist are completed by the first start. -/
theorem sufficient_old_iff {d : Database} (hold : Old d) (first env : UpgradeEnv) :
    (∀ t ∈ usedTables env, ∀ columns, d.columns t = some columns →
        createColumns t ⊆ (versionEffect first d.version t).result t columns) ↔
      ∀ t ∈ usedTables env, (d.columns t).isSome = true →
        CompletesWhen first.m_pUploadMode.isStreamModeSupported
          first.m_pUploadMode.isBatchModeSupported d.version.toNat t := by
  have hlow := hold.low
  have hhigh := hold.high
  refine forall₂_congr fun t _ => ?_
  rw [← completes_iff _ _ (by omega) (by omega) t]
  have heffect : versionEffect first d.version t =
      upgradeEffect first.m_pUploadMode.isStreamModeSupported
        first.m_pUploadMode.isBatchModeSupported d.version.toNat t := by
    unfold versionEffect
    rw [if_pos ⟨hold.low, hold.high⟩]
  rw [heffect]
  constructor
  · intro h hsome
    rcases Option.isSome_iff_exists.1 hsome with ⟨columns, hcolumns⟩
    have hall := h columns hcolumns
    rw [hold.columns t columns hcolumns] at hall
    exact hall
  · intro h columns hcolumns
    rw [hold.columns t columns hcolumns]
    exact h (by rw [hcolumns]; rfl)

/-- The starts with an old database: the tables of each are completed by the first. -/
theorem along_old_iff {d : Database} (hold : Old d) (first : UpgradeEnv)
    (later : List UpgradeEnv) :
    Lib.Along start Repairs ⟨some d, none⟩ (first :: later) ↔
      ∀ env ∈ first :: later, ∀ t ∈ usedTables env, (d.columns t).isSome = true →
        CompletesWhen first.m_pUploadMode.isStreamModeSupported
          first.m_pUploadMode.isBatchModeSupported d.version.toNat t := by
  have hnext := @openDatabase_version first (some d) fun x hx => by
    cases hx
    have := hold.high
    show d.version ≤ 17
    omega
  have hlater := along_current_iff later hnext (some first)
  simp only [sufficient_openDatabase_iff, sufficient_old_iff hold] at hlater
  have hfirst : Repairs ⟨some d, none⟩ first ↔ ∀ t ∈ usedTables first,
      (d.columns t).isSome = true →
        CompletesWhen first.m_pUploadMode.isStreamModeSupported
          first.m_pUploadMode.isBatchModeSupported d.version.toNat t := by
    rw [← sufficient_old_iff hold]
    constructor
    · intro h
      exact h d rfl
    · rintro h _ ⟨⟩
      exact h
  rw [List.forall_mem_cons, ← hfirst, ← hlater]
  constructor
  · intro h
    exact ⟨h.1, h.2 _ rfl⟩
  · rintro ⟨hrepairs, hrest⟩
    exact Lib.along_cons rfl hrepairs hrest

/-- In terms of the three tables. -/
theorem completed_iff_nothingMissed {d : Database} (hold : Old d) (first : UpgradeEnv)
    (later : List UpgradeEnv) :
    (∀ env ∈ first :: later, ∀ t ∈ usedTables env, (d.columns t).isSome = true →
        CompletesWhen first.m_pUploadMode.isStreamModeSupported
          first.m_pUploadMode.isBatchModeSupported d.version.toNat t) ↔
      NothingMissed d first later := by
  have hlow := hold.low
  have hhigh := hold.high
  constructor
  · intro h
    refine ⟨fun hsome => ?_, fun hsome => ?_, fun hsome => ?_⟩
    · have hevent := h first List.mem_cons_self .eventStore
        ((mem_usedTables first _).2 ⟨nofun, nofun⟩) hsome
      rcases hevent with h1 | h9 | hstream
      · exact Or.inl (by omega)
      · exact Or.inr (Or.inl (by omega))
      · exact Or.inr (Or.inr hstream)
    · by_contra hnot
      simp only [not_or, not_forall, Bool.not_eq_false] at hnot
      rcases hnot with ⟨hversion, hstream, env, henv, hused⟩
      -- a later start uses the alert table
      have halert := h env (List.mem_cons_of_mem first henv) .alertStore
        ((mem_usedTables env _).2 ⟨fun _ => hused, nofun⟩) hsome
      rcases halert with h9 | hstream'
      · omega
      · exact hstream hstream'
    · by_contra hnot
      simp only [not_or, not_forall, Bool.not_eq_false] at hnot
      rcases hnot with ⟨hversion, hbatch, env, henv, hused⟩
      have hupload := h env (List.mem_cons_of_mem first henv) .uploadFile
        ((mem_usedTables env _).2 ⟨nofun, fun _ => hused⟩) hsome
      rcases hupload with h14 | hbatch'
      · omega
      · exact hbatch hbatch'
  · intro h env henv t ht hsome
    have hused := (mem_usedTables env t).1 ht
    cases t with
    | eventStore =>
      rcases h.event hsome with h1 | h9 | hstream
      · exact Or.inl (by omega)
      · exact Or.inr (Or.inl (by omega))
      · exact Or.inr (Or.inr hstream)
    | alertStore =>
      have hstream := hused.1 rfl
      rcases h.alert hsome with h9 | hfirst | hnone
      · exact Or.inl (by omega)
      · exact Or.inr hfirst
      · rcases List.mem_cons.1 henv with rfl | hlater
        · exact Or.inr hstream
        · rw [hnone env hlater] at hstream
          cases hstream
    | uploadFile =>
      have hbatch := hused.2 rfl
      rcases h.uploadFile hsome with h14 | hfirst | hnone
      · exact Or.inl (by omega)
      · exact Or.inr hfirst
      · rcases List.mem_cons.1 henv with rfl | hlater
        · exact Or.inr hbatch
        · rw [hnone env hlater] at hbatch
          cases hbatch
    | localConfig => trivial
    | messageSenderStore => trivial
    | invalidEventStore => trivial
    | igniteServiceSettings => trivial

/-- The starts with a new database. -/
theorem along_new (first : UpgradeEnv) (later : List UpgradeEnv) :
    Lib.Along start Repairs ⟨none, none⟩ (first :: later) := by
  refine Lib.along_cons rfl nofun ?_
  refine (along_current_iff later rfl (some first)).2 fun env _ t _ columns hcolumns => ?_
  have hcreated : (openDatabase first none).columns t = _ :=
    (createInTransaction_spec first ⟨noTables, []⟩).2 t
  rw [hcolumns] at hcreated
  split_ifs at hcreated
  · cases hcreated
    exact Finset.Subset.refl (createColumns t)
  · cases hcreated

/-- All starts get through, and after each of them the tables in use are complete iff the modes
of the first one leave none incomplete. -/
theorem complete_runs_iff {d : Option Database} (hold : ∀ x, d = some x → Old x)
    (first : UpgradeEnv) (later : List UpgradeEnv) :
    (∃ s, Lib.exec start ⟨d, none⟩ (first :: later) = some s) ∧
      ((∀ pre, pre <+: first :: later → ∀ s, Lib.exec start ⟨d, none⟩ pre = some s → s.Sound) ↔
        ∀ x, d = some x → NothingMissed x first later) := by
  have henabled : ∀ (s : Starts) (env : UpgradeEnv), (start s env).isSome = true ↔ True :=
    fun _ _ => iff_of_true rfl trivial
  have htotal := (@Lib.exec_isSome_iff _ _ start (fun _ => True) henabled ⟨d, none⟩
    (first :: later)).2 fun _ _ => trivial
  rcases Option.isSome_iff_exists.1 htotal with ⟨s, hrun⟩
  refine ⟨⟨s, hrun⟩, ?_⟩
  have hsound : Starts.Sound ⟨d, none⟩ := nofun
  rw [← Lib.along_iff (fun s env s' _ => sound_start_iff) (first :: later) ⟨d, none⟩ s hsound hrun]
  cases d with
  | none => exact iff_of_true (along_new first later) nofun
  | some x =>
    rw [along_old_iff (hold x rfl), completed_iff_nothingMissed (hold x rfl)]
    constructor
    · rintro h _ ⟨⟩
      exact h
    · intro h
      exact h x rfl

/-- A configuration of the batch mode alone. -/
def batchOnly : UpgradeEnv where
  m_pUploadMode := ⟨⟨false, true⟩, ⟨false, true⟩, fun _ => none⟩
  setStreamEventList := []
  setBatchEventlist := []
  strTimeZone := "0"
  decryptEventData strEventData := strEventData
  hasAttachments _ := false
  configRows _ := []

/-- A database of version 8, without the alert table. -/
def version8 : Database where
  tables
    | .alertStore => none
    | t => some ⟨createColumns t \ laterColumns 8 t, []⟩
  version := 8

theorem old_version8 : Old version8 where
  low := by decide
  high := by decide
  columns t columns h := by
    cases t <;> cases h <;> rfl

theorem complete_runs_iff_version8 :
    (∃ s, Lib.exec start ⟨some version8, none⟩ [batchOnly] = some s) ∧
      ((∀ pre, pre <+: [batchOnly] → ∀ s, Lib.exec start ⟨some version8, none⟩ pre = some s →
        s.Sound) ↔ ∀ x, some version8 = some x → NothingMissed x batchOnly []) :=
  complete_runs_iff (fun _ hx => Option.some.inj hx ▸ old_version8) batchOnly []

/-- Without the stream mode the event table does not get the column `MID`, and the version is
raised. -/
theorem not_sound_version8 : ∃ s, Lib.exec start ⟨some version8, none⟩ [batchOnly] = some s ∧
    s.lastEnv = some batchOnly ∧ ¬ s.Sound := by
  refine ⟨_, rfl, rfl, fun h => ?_⟩
  rcases h batchOnly rfl with ⟨d, hd, hcomplete⟩
  cases hd
  rcases hcomplete .eventStore (by decide) with ⟨columns, hcolumns, hall⟩
  rw [openExisting_columns batchOnly version8 .eventStore (by decide)] at hcolumns
  have hmid : Column.mid ∈ columns := hall (by decide)
  cases hcolumns
  exact absurd hmid (by decide +kernel)

end DatabaseUpgrade

end DeviceClient
