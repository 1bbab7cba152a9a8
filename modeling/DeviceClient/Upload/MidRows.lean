import DeviceClient.Db.EventStore

/-!
# The mid column

The statements that the uploader and the mid handler run on the column `MID`:
`update_mid` tags the rows of a publish, `delete_events_from_db` removes or
marks the rows of an acknowledged one, and `InitMid` untags every row.
-/

namespace DeviceClient

namespace Db

/-- The update of `update_mid`. -/
def tagRows (db : Db) (rstrTable : StoreTable) (rvecRowIDs : List ℕ) (nMid : ℤ) : Db :=
  db.updateMid rstrTable (fun r => decide (r.id ∈ rvecRowIDs)) nMid

/-- The rows that `delete_events_from_db` removes. -/
def deletes (bBatchMode : Bool) (strTable : StoreTable) (nMid : ℤ) (r : EventRow) : Bool :=
  if strTable = .eventStore ∧ bBatchMode = true then
    decide (r.mid = nMid) && decide (r.batchSupport = 0)
  else decide (r.mid = nMid)

/-- The delete of `delete_events_from_db`. -/
def deleteEvents (db : Db) (bBatchMode : Bool) (strTable : StoreTable) (nMid : ℤ) : Db :=
  db.remove strTable (deletes bBatchMode strTable nMid)

/-- The update of `delete_events_from_db`: rows left for the batch upload are
marked as uploaded. -/
def markUploaded (db : Db) (strTable : StoreTable) (nMid : ℤ) : Db :=
  db.updateStreamSupport strTable (fun r => decide (r.mid = nMid)) 0

/-- `delete_events_from_db`. -/
def deleteEventsFromDb (db : Db) (bBatchMode : Bool) (strTable : StoreTable) (nMid : ℤ) : Db :=
  if strTable = .eventStore ∧ bBatchMode = true then
    (db.deleteEvents bBatchMode strTable nMid).markUploaded strTable nMid
  else db.deleteEvents bBatchMode strTable nMid

/-- One of the two updates at the end of `InitMid`. -/
def resetMid (db : Db) (t : StoreTable) : Db := db.updateMid t (fun r => decide (r.mid ≠ 0)) 0

/-- The insert of a new row; the column `MID` takes its default. -/
def insertRow (db : Db) (t : StoreTable) (r : EventRow) : Db := db.insert t (r.setMid 0)

/-- The ids of the rows of a table that meet `p`. -/
def idsWhere (db : Db) (t : StoreTable) (p : EventRow → Bool) : List ℕ :=
  ((db t).rows.filter p).map EventRow.id

/-! ## Who carries a mid -/

/-- Row `id` of table `t` carries the mid `m`. -/
def Tagged (db : Db) (t : StoreTable) (m : ℤ) (id : ℕ) : Prop :=
  ∃ r ∈ (db t).rows, r.mid = m ∧ r.id = id

theorem deletes_mid {b : Bool} {t : StoreTable} {m : ℤ} {r : EventRow}
    (h : deletes b t m r = true) : r.mid = m := by
  unfold deletes at h
  split at h
  · rw [Bool.and_eq_true] at h
    exact of_decide_eq_true h.1
  · exact of_decide_eq_true h

theorem tagged_of_mem_idsWhere {db : Db} {t : StoreTable} {m : ℤ} {p : EventRow → Bool} {id : ℕ}
    (hp : ∀ r, p r = true → r.mid = m) (h : id ∈ db.idsWhere t p) : db.Tagged t m id := by
  rcases List.mem_map.1 h with ⟨r, hr, rfl⟩
  exact ⟨r, List.mem_of_mem_filter hr, hp r (List.mem_filter.1 hr).2, rfl⟩

theorem tagged_remove {db : Db} {t t' : StoreTable} {p : EventRow → Bool} {m : ℤ} {id : ℕ}
    (h : (db.remove t p).Tagged t' m id) : db.Tagged t' m id := by
  unfold remove at h
  rcases h with ⟨r, hr, hm, hid⟩
  by_cases ht : t' = t
  · subst ht
    rw [Function.update_self, Lib.Table.mem_remove] at hr
    exact ⟨r, hr.1, hm, hid⟩
  · rw [Function.update_of_ne ht] at hr
    exact ⟨r, hr, hm, hid⟩

theorem tagged_updateStreamSupport {db : Db} {t t' : StoreTable} {p : EventRow → Bool} {n m : ℤ}
    {id : ℕ} (h : (db.updateStreamSupport t p n).Tagged t' m id) : db.Tagged t' m id := by
  unfold updateStreamSupport at h
  rcases h with ⟨r, hr, hm, hid⟩
  by_cases ht : t' = t
  · subst ht
    rw [Function.update_self, Lib.Table.mem_update] at hr
    rcases hr with ⟨r₀, h₀, rfl⟩
    refine ⟨r₀, h₀, ?_, ?_⟩
    · rw [← hm]
      split <;> rfl
    · rw [← hid]
      split <;> rfl
  · rw [Function.update_of_ne ht] at hr
    exact ⟨r, hr, hm, hid⟩

/-- Rows tagged after an update of `MID` were tagged before or meet its selection. -/
theorem tagged_updateMid {db : Db} {t t' : StoreTable} {p : EventRow → Bool} {n m : ℤ} {id : ℕ}
    (h : (db.updateMid t p n).Tagged t' m id) :
    db.Tagged t' m id ∨ (t' = t ∧ m = n ∧ ∃ r ∈ (db t).rows, p r = true ∧ r.id = id) := by
  unfold updateMid at h
  rcases h with ⟨r, hr, hm, hid⟩
  by_cases ht : t' = t
  · subst ht
    rw [Function.update_self, Lib.Table.mem_update] at hr
    rcases hr with ⟨r₀, h₀, rfl⟩
    by_cases hp : p r₀ = true
    · rw [if_pos hp] at hm hid
      exact Or.inr ⟨rfl, hm.symm, r₀, h₀, hp, hid⟩
    · rw [if_neg hp] at hm hid
      exact Or.inl ⟨r₀, h₀, hm, hid⟩
  · rw [Function.update_of_ne ht] at hr
    exact Or.inl ⟨r, hr, hm, hid⟩

theorem tagged_resetMid {db : Db} {t t' : StoreTable} {m : ℤ} {id : ℕ} (hm : m ≠ 0)
    (h : (db.resetMid t).Tagged t' m id) : db.Tagged t' m id := by
  rcases tagged_updateMid h with h | ⟨_, hm', _⟩
  · exact h
  · exact absurd hm' hm

theorem tagged_insertRow {db : Db} {t t' : StoreTable} {r : EventRow} {m : ℤ} {id : ℕ}
    (hm : m ≠ 0) (h : (db.insertRow t r).Tagged t' m id) : db.Tagged t' m id := by
  rcases h with ⟨r', hr, hmid, hid⟩
  rcases mem_insert hr with hr | ⟨_, rfl⟩
  · exact ⟨r', hr, hmid, hid⟩
  · exact absurd hmid.symm hm

end Db

end DeviceClient
