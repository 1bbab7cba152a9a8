import DeviceClient.Db.EventStore
import DeviceClient.Lib.SortedSet
import DeviceClient.Util.ConcurrentQueue

/-!
# The mid handler

`CMidHandler` pairs the table of an upload with the acknowledgement of its
message id. Either may come first: a mid registered before its acknowledgement
waits in `m_mapMidDBTableMap`, one acknowledged before its registration waits
in `m_setPublishedMidSet`, and the second call moves the mid to the queue of
the deletion worker.

The names of the tables play no role in the pairing; their type `τ` is open.

* `setMidTable_of_mem`, `setMidTable_of_not_mem`, `processPublishedMid_of_some`
  and `processPublishedMid_of_none`: the four ways a call can go.
-/

namespace DeviceClient

/-- An entry of the deletion queue. -/
structure MidTable (τ : Type) where
  nMid : ℤ
  strTable : τ
deriving DecidableEq, Repr

/-- The containers of `CMidHandler`. -/
structure MidHandler (τ : Type) where
  setPublishedMidSet : Lib.SortedSet ℤ
  mapMidDBTableMap : ℤ → Option τ
  queMidTobeDeleted : ConcurrentQueue (MidTable τ)

namespace MidHandler

variable {τ : Type}

/-- The handler as constructed. -/
def init : MidHandler τ := ⟨Lib.SortedSet.empty, fun _ => none, ConcurrentQueue.empty⟩

/-- `sizeof(pMt)`, the size every entry is put with. -/
def MID_TABLE_SIZE : ℕ := 8

/-- `ClearMid`. The result of `Put` is not looked at. -/
def clearMid (h : MidHandler τ) (nMid : ℤ) (strTable : τ) (nFails : ℕ) : Bool × MidHandler τ :=
  let que := (h.queMidTobeDeleted.put ⟨nMid, strTable⟩ MID_TABLE_SIZE nFails).2
  (true, { h with queMidTobeDeleted := que })

/-- `SetMidTable`. -/
def setMidTable (h : MidHandler τ) (nMid : ℤ) (rstrTable : τ) (nFails : ℕ) :
    Bool × MidHandler τ :=
  if nMid ∈ h.setPublishedMidSet then
    clearMid { h with setPublishedMidSet := h.setPublishedMidSet.erase nMid } nMid rstrTable nFails
  else
    (true, { h with mapMidDBTableMap := Function.update h.mapMidDBTableMap nMid (some rstrTable) })

/-- `ProcessPublishedMid`. -/
def processPublishedMid (h : MidHandler τ) (nMid : ℤ) (nFails : ℕ) : Bool × MidHandler τ :=
  match h.mapMidDBTableMap nMid with
  | some strTable =>
    let r := clearMid h nMid strTable nFails
    (r.1, { r.2 with mapMidDBTableMap := Function.update r.2.mapMidDBTableMap nMid none })
  | none =>
    (decide (nMid ∉ h.setPublishedMidSet),
      { h with setPublishedMidSet := h.setPublishedMidSet.insert nMid })

/-- The loop of `InitMid` over the published mids that are registered as well. -/
def clearPublished (nFails : ℤ → ℕ) (h : MidHandler τ) : List ℤ → MidHandler τ
  | [] => h
  | nMid :: rest =>
    match h.mapMidDBTableMap nMid with
    | some strTable => clearPublished nFails (h.clearMid nMid strTable (nFails nMid)).2 rest
    | none => clearPublished nFails h rest

/-- `InitMid` on the containers: the queue of the worker is left as it is. -/
def initMid (h : MidHandler τ) (nFails : ℤ → ℕ) : MidHandler τ :=
  { clearPublished nFails h h.setPublishedMidSet.elems with
    setPublishedMidSet := Lib.SortedSet.empty
    mapMidDBTableMap := fun _ => none }

/-- The entries waiting for the worker. -/
def queued (h : MidHandler τ) : List (MidTable τ) := h.queMidTobeDeleted.values

/-- What `ClearMid` adds to the queue. -/
def cleared (nMid : ℤ) (strTable : τ) (nFails : ℕ) : List (MidTable τ) :=
  if nFails < MAX_LOCK_RETRIES then [⟨nMid, strTable⟩] else []

theorem eq_of_mem_cleared {m : ℤ} {t : τ} {n : ℕ} {e : MidTable τ} (h : e ∈ cleared m t n) :
    e = ⟨m, t⟩ := by
  unfold cleared at h
  split at h
  · exact List.mem_singleton.1 h
  · cases h

@[simp] theorem clearMid_set (h : MidHandler τ) (m : ℤ) (t : τ) (n : ℕ) :
    (h.clearMid m t n).2.setPublishedMidSet = h.setPublishedMidSet := rfl

@[simp] theorem clearMid_map (h : MidHandler τ) (m : ℤ) (t : τ) (n : ℕ) :
    (h.clearMid m t n).2.mapMidDBTableMap = h.mapMidDBTableMap := rfl

theorem clearMid_queued (h : MidHandler τ) (m : ℤ) (t : τ) (n : ℕ) :
    (h.clearMid m t n).2.queued = h.queued ++ cleared m t n := by
  show (h.queMidTobeDeleted.put ⟨m, t⟩ MID_TABLE_SIZE n).2.values = h.queued ++ cleared m t n
  rw [ConcurrentQueue.put_values]
  unfold cleared queued
  split
  · rfl
  · rw [List.append_nil]

/-! ## The calls on the containers

One lemma for each way a call can go; nothing below unfolds a call. -/

theorem setMidTable_of_mem {h : MidHandler τ} {m : ℤ} (hm : m ∈ h.setPublishedMidSet)
    (t : τ) (n : ℕ) :
    (h.setMidTable m t n).2.setPublishedMidSet = h.setPublishedMidSet.erase m ∧
      (h.setMidTable m t n).2.mapMidDBTableMap = h.mapMidDBTableMap ∧
      (h.setMidTable m t n).2.queued = h.queued ++ cleared m t n := by
  unfold setMidTable
  rw [if_pos hm]
  exact ⟨rfl, rfl, clearMid_queued _ m t n⟩

theorem setMidTable_of_not_mem {h : MidHandler τ} {m : ℤ} (hm : m ∉ h.setPublishedMidSet)
    (t : τ) (n : ℕ) :
    (h.setMidTable m t n).2.setPublishedMidSet = h.setPublishedMidSet ∧
      (h.setMidTable m t n).2.mapMidDBTableMap =
        Function.update h.mapMidDBTableMap m (some t) ∧
      (h.setMidTable m t n).2.queued = h.queued := by
  unfold setMidTable
  rw [if_neg hm]
  exact ⟨rfl, rfl, rfl⟩

theorem processPublishedMid_of_some {h : MidHandler τ} {m : ℤ} {t : τ}
    (hm : h.mapMidDBTableMap m = some t) (n : ℕ) :
    (h.processPublishedMid m n).2.setPublishedMidSet = h.setPublishedMidSet ∧
      (h.processPublishedMid m n).2.mapMidDBTableMap =
        Function.update h.mapMidDBTableMap m none ∧
      (h.processPublishedMid m n).2.queued = h.queued ++ cleared m t n := by
  unfold processPublishedMid
  rw [hm]
  exact ⟨rfl, rfl, clearMid_queued h m t n⟩

theorem processPublishedMid_of_none {h : MidHandler τ} {m : ℤ}
    (hm : h.mapMidDBTableMap m = none) (n : ℕ) :
    (h.processPublishedMid m n).2.setPublishedMidSet = h.setPublishedMidSet.insert m ∧
      (h.processPublishedMid m n).2.mapMidDBTableMap = h.mapMidDBTableMap ∧
      (h.processPublishedMid m n).2.queued = h.queued := by
  unfold processPublishedMid
  rw [hm]
  exact ⟨rfl, rfl, rfl⟩

/-! ## What a call can add to the containers -/

theorem mem_set_of_setMidTable {h : MidHandler τ} {m m' : ℤ} {t : τ} {n : ℕ}
    (hm : m' ∈ (h.setMidTable m t n).2.setPublishedMidSet) : m' ∈ h.setPublishedMidSet := by
  by_cases hmem : m ∈ h.setPublishedMidSet
  · rw [(setMidTable_of_mem hmem t n).1, Lib.SortedSet.mem_erase] at hm
    exact hm.1
  · rwa [(setMidTable_of_not_mem hmem t n).1] at hm

/-- `SetMidTable` enqueues its own mid, and only one found acknowledged. -/
theorem mem_queued_of_setMidTable {h : MidHandler τ} {m : ℤ} {t : τ} {n : ℕ} {e : MidTable τ}
    (he : e ∈ (h.setMidTable m t n).2.queued) :
    e ∈ h.queued ∨ (e = ⟨m, t⟩ ∧ m ∈ h.setPublishedMidSet) := by
  by_cases hmem : m ∈ h.setPublishedMidSet
  · rw [(setMidTable_of_mem hmem t n).2.2, List.mem_append] at he
    rcases he with he | he
    · exact Or.inl he
    · exact Or.inr ⟨eq_of_mem_cleared he, hmem⟩
  · rw [(setMidTable_of_not_mem hmem t n).2.2] at he
    exact Or.inl he

theorem mem_set_of_processPublishedMid {h : MidHandler τ} {m m' : ℤ} {n : ℕ}
    (hm : m' ∈ (h.processPublishedMid m n).2.setPublishedMidSet) :
    m' ∈ h.setPublishedMidSet ∨ m' = m := by
  cases hmap : h.mapMidDBTableMap m with
  | some t =>
    rw [(processPublishedMid_of_some hmap n).1] at hm
    exact Or.inl hm
  | none =>
    rw [(processPublishedMid_of_none hmap n).1, Lib.SortedSet.mem_insert] at hm
    exact hm.symm

/-- `ProcessPublishedMid` enqueues its own mid only. -/
theorem mem_queued_of_processPublishedMid {h : MidHandler τ} {m : ℤ} {n : ℕ} {e : MidTable τ}
    (he : e ∈ (h.processPublishedMid m n).2.queued) : e ∈ h.queued ∨ e.nMid = m := by
  cases hmap : h.mapMidDBTableMap m with
  | some t =>
    rw [(processPublishedMid_of_some hmap n).2.2, List.mem_append] at he
    rcases he with he | he
    · exact Or.inl he
    · rw [eq_of_mem_cleared he]
      exact Or.inr rfl
  | none =>
    rw [(processPublishedMid_of_none hmap n).2.2] at he
    exact Or.inl he

theorem mem_queued_of_clearPublished {nFails : ℤ → ℕ} {e : MidTable τ} (mids : List ℤ) :
    ∀ {h : MidHandler τ}, e ∈ (clearPublished nFails h mids).queued →
      e ∈ h.queued ∨ e.nMid ∈ mids := by
  induction mids with
  | nil => exact fun he => Or.inl he
  | cons m mids ih =>
    intro h he
    unfold clearPublished at he
    split at he
    · rename_i t hmap
      rcases ih he with he | he
      · rw [clearMid_queued, List.mem_append] at he
        rcases he with he | he
        · exact Or.inl he
        · rw [eq_of_mem_cleared he]
          exact Or.inr List.mem_cons_self
      · exact Or.inr (List.mem_cons_of_mem m he)
    · rcases ih he with he | he
      · exact Or.inl he
      · exact Or.inr (List.mem_cons_of_mem m he)

/-- `InitMid` keeps the queue and enqueues published mids only. -/
theorem mem_queued_of_initMid {h : MidHandler τ} {nFails : ℤ → ℕ} {e : MidTable τ}
    (he : e ∈ (h.initMid nFails).queued) : e ∈ h.queued ∨ e.nMid ∈ h.setPublishedMidSet :=
  mem_queued_of_clearPublished h.setPublishedMidSet.elems he

@[simp] theorem initMid_set (h : MidHandler τ) (nFails : ℤ → ℕ) :
    (h.initMid nFails).setPublishedMidSet = Lib.SortedSet.empty := rfl

@[simp] theorem initMid_map (h : MidHandler τ) (nFails : ℤ → ℕ) (m : ℤ) :
    (h.initMid nFails).mapMidDBTableMap m = none := rfl

end MidHandler

end DeviceClient
