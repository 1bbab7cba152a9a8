import DeviceClient.Db.GranularityReduction
import DeviceClient.Lib.Int32
import DeviceClient.Lib.Oldest

/-!
# The default purge

When no policy has gained enough, `DefaultPolicyHandler` purges the oldest
events. It counts the rows, takes a percentage of the count as the number of
rows to delete, reads as many timestamps in their order, and removes every row
between the first and the last of them.

* `defaultPolicyHandler`: the purge and its `DBOverLimit` event.
* `PurgesOldest`: the purge removes and reports as many rows as it counted.
* `purgesOldest_iff`: it does iff there are as many timestamps and the last one
  taken is not shared by a row behind.
-/

namespace DeviceClient

namespace GranularityReduction

/-! ## The handler -/

def defPolicyFifoPercent : ℤ := 20

/-- `DefaultGRPolicy`; the percentage is checked when it is read. -/
structure DefaultGRPolicy where
  nFifoEventsRemovePercent : ℤ
  positive : 0 < nFifoEventsRemovePercent
  atMostAll : nFifoEventsRemovePercent ≤ 100

/-- The percentage in `ReadDefaultGRPolicy`; out of bounds or absent it is the
default. -/
def readDefaultGRPolicy : Option ℤ → DefaultGRPolicy
  | none => ⟨defPolicyFifoPercent, by decide, by decide⟩
  | some nPercent =>
    if hbounds : 0 < nPercent ∧ nPercent ≤ 100 then ⟨nPercent, hbounds.1, hbounds.2⟩
    else ⟨defPolicyFifoPercent, by decide, by decide⟩

/-- `GetEventRowCount`. -/
def getEventRowCount (t : GranularTable) : ℤ := Lib.toInt32 t.rows.length

/-- The number of rows to delete, in the arithmetic of `int`. -/
def rowsToDelete (p : DefaultGRPolicy) (t : GranularTable) : ℤ :=
  (Lib.toInt32 (getEventRowCount t * p.nFifoEventsRemovePercent)).tdiv 100 - 1

/-- The rows with a timestamp, by timestamp. -/
def oldestFirst (t : GranularTable) : List GranularRow :=
  Lib.orderBy (fun r => r.timestamp.getD 0) (t.rows.filter fun r => r.timestamp.isSome)

/-- The first and the last of the timestamps that the query returns. -/
def purgeRange (nRowCount : ℤ) (t : GranularTable) : ℤ × ℤ :=
  match Lib.limit nRowCount.toNat (oldestFirst t) with
  | [] => (0, 0)
  | first :: rest => (first.timestamp.getD 0, (rest.getLastD first).timestamp.getD 0)

/-- `strSelection`: the rows between the two timestamps. -/
def purgeSelection (nRowCount : ℤ) (t : GranularTable) : GranularRow → Bool :=
  inClosedTimeRange (purgeRange nRowCount t).1 (purgeRange nRowCount t).2

/-- What the handler knows about the size of the database. -/
structure DBSizes where
  unDbSizeLimit : ℕ
  unDBSize : ℕ
  unNewSize : ℕ
deriving DecidableEq, Repr

/-- The fields of the event `DBOverLimit`. -/
structure DBOverLimit where
  strAction : String
  llDBThresholdLimit : ℕ
  llDBSizeBeforeAction : ℕ
  llDBSizeAfterAction : ℕ
  nEventsDeleted : ℤ
  llEventsDeletedFrom : ℤ
  llEventsDeletedTo : ℤ
deriving DecidableEq, Repr

/-- `DefaultPolicyHandler`: the store, and the event unless no row is to go. -/
def defaultPolicyHandler (h : GRHandler) (stDefPolicy : DefaultGRPolicy) (sizes : DBSizes)
    (s : GRStore) : GRStore × Option DBOverLimit :=
  let nRowCount := rowsToDelete stDefPolicy s.table
  if nRowCount ≤ 0 then (s, none)
  else
    let strSelection := purgeSelection nRowCount s.table
    let setFileList := (s.table.rows.filter fun r =>
      strSelection r && decide (r.hasAttach = 1)).flatMap fun r => attachmentsToDelete h r.events
    ({ table := s.table.remove strSelection
       removedFiles := s.removedFiles ++ setFileList },
      some
        { strAction := "Purge"
          llDBThresholdLimit := sizes.unDbSizeLimit
          llDBSizeBeforeAction := sizes.unDBSize
          llDBSizeAfterAction := sizes.unNewSize
          nEventsDeleted := nRowCount
          llEventsDeletedFrom := (purgeRange nRowCount s.table).1
          llEventsDeletedTo := (purgeRange nRowCount s.table).2 })

/-! ## The purge as it is meant -/

/-- The rows of one table that another does not have. -/
def removedRows (t t' : GranularTable) : List GranularRow :=
  t.rows.filter fun r => decide (r ∉ t'.rows)

/-- A purge of the `n` oldest rows: `n` rows with a timestamp go, none of them is
later than a row that stays, the files are those of rows that go, and the event
tells the number of rows gone. -/
structure PurgesOldest (h : GRHandler) (s : GRStore) (n : ℤ) (res : GRStore × Option DBOverLimit) :
    Prop where
  count : ((removedRows s.table res.1.table).length : ℤ) = n
  dated : ∀ r ∈ removedRows s.table res.1.table, r.timestamp.isSome = true
  oldest : ∀ r ∈ removedRows s.table res.1.table, ∀ r' ∈ res.1.table.rows,
    r'.timestamp.isSome = true → r.timestamp.getD 0 ≤ r'.timestamp.getD 0
  rest : ∀ r ∈ res.1.table.rows, r ∈ s.table.rows
  files : ∀ f ∈ res.1.removedFiles, f ∈ s.removedFiles ∨
    ∃ r ∈ removedRows s.table res.1.table, f ∈ attachmentsToDelete h r.events
  report : res.2.map DBOverLimit.nEventsDeleted =
    some ((removedRows s.table res.1.table).length : ℤ)

section Purge

variable {h : GRHandler} {stDefPolicy : DefaultGRPolicy} {sizes : DBSizes} {s : GRStore}

theorem sorted_oldestFirst (t : GranularTable) :
    (oldestFirst t).Pairwise fun r r' => r.timestamp.getD 0 ≤ r'.timestamp.getD 0 :=
  Lib.sorted_orderBy (fun r : GranularRow => r.timestamp.getD 0) _

theorem mem_oldestFirst {t : GranularTable} {r : GranularRow} :
    r ∈ oldestFirst t ↔ r ∈ t.rows ∧ r.timestamp.isSome = true := by
  unfold oldestFirst
  rw [Lib.mem_orderBy, List.mem_filter]

theorem inClosedTimeRange_iff {llStartTime llEndTime : ℤ} {r : GranularRow} :
    inClosedTimeRange llStartTime llEndTime r = true ↔
      r.timestamp.isSome = true ∧ llStartTime ≤ r.timestamp.getD 0 ∧
        r.timestamp.getD 0 ≤ llEndTime := by
  unfold inClosedTimeRange
  cases r.timestamp <;> simp

/-- Removing what a selection picks removes the rows it picks. -/
theorem removedRows_remove (t : GranularTable) (p : GranularRow → Bool) :
    removedRows t (t.remove p) = t.rows.filter p := by
  unfold removedRows
  refine List.filter_congr fun r hr => ?_
  rw [Bool.eq_iff_iff, decide_eq_true_eq, Lib.Table.mem_remove]
  cases hp : p r <;> simp [hr]

/-- With a positive number the first timestamp taken is the oldest of all: the
purge is of all rows up to the last one. -/
theorem purgeSelection_of_take {t : GranularTable} {n : ℤ} {first : GranularRow}
    {rest : List GranularRow} (hn : 0 < n) (htake : (oldestFirst t).take n.toNat = first :: rest)
    {r : GranularRow} (hr : r ∈ t.rows) :
    purgeSelection n t r =
      (r.timestamp.isSome &&
        decide (r.timestamp.getD 0 ≤ (rest.getLastD first).timestamp.getD 0)) := by
  have hlimit : Lib.limit n.toNat (oldestFirst t) = first :: rest := by
    unfold Lib.limit
    rw [if_neg (by omega), htake]
  have hrange : purgeRange n t =
      (first.timestamp.getD 0, (rest.getLastD first).timestamp.getD 0) := by
    unfold purgeRange
    rw [hlimit]
  unfold purgeSelection
  rw [hrange, Bool.eq_iff_iff, inClosedTimeRange_iff, Bool.and_eq_true, decide_eq_true_eq]
  refine and_congr_right fun hdated => and_iff_right ?_
  have hsort := sorted_oldestFirst t
  rw [← List.take_append_drop n.toNat (oldestFirst t), htake] at hsort
  have hmem : r ∈ first :: rest ++ (oldestFirst t).drop n.toNat := by
    rw [← htake, List.take_append_drop]
    exact mem_oldestFirst.2 ⟨hr, hdated⟩
  rcases List.mem_cons.1 hmem with rfl | hmem
  · exact le_rfl
  · exact (List.pairwise_cons.1 hsort).1 r hmem

/-- How many rows go. -/
theorem length_purged {t : GranularTable} {n : ℤ} {first : GranularRow}
    {rest : List GranularRow} (hn : 0 < n) (htake : (oldestFirst t).take n.toNat = first :: rest) :
    (t.rows.filter (purgeSelection n t)).length =
      ((oldestFirst t).filter fun r =>
        decide (r.timestamp.getD 0 ≤ (rest.getLastD first).timestamp.getD 0)).length := by
  have hperm : (oldestFirst t).Perm (t.rows.filter fun r => r.timestamp.isSome) :=
    Lib.perm_orderBy _ _
  rw [(hperm.filter _).length_eq, List.filter_filter]
  congr 1
  refine List.filter_congr fun r hr => ?_
  rw [purgeSelection_of_take hn htake hr, Bool.and_comm]

theorem defaultPolicyHandler_of_pos (hN : 0 < rowsToDelete stDefPolicy s.table) :
    (defaultPolicyHandler h stDefPolicy sizes s).1.table =
        s.table.remove (purgeSelection (rowsToDelete stDefPolicy s.table) s.table) ∧
      (defaultPolicyHandler h stDefPolicy sizes s).2.map DBOverLimit.nEventsDeleted =
        some (rowsToDelete stDefPolicy s.table) := by
  simp only [defaultPolicyHandler, if_neg (not_le.2 hN), Option.map_some, and_self]

/-- Nothing is taken only if no row has a timestamp. -/
theorem oldestFirst_eq_nil_of_take {t : GranularTable} {n : ℤ} (hn : 0 < n)
    (htake : (oldestFirst t).take n.toNat = []) : oldestFirst t = [] := by
  rcases List.take_eq_nil_iff.1 htake with hzero | hnil
  · omega
  · exact hnil

/-- A row that the purge picks is not later than one that stays: this one would lie in
the range too. -/
theorem timestamp_le_of_purged {t : GranularTable} {n : ℤ} (hn : 0 < n) {r r' : GranularRow}
    (hr : r ∈ t.rows) (hpick : purgeSelection n t r = true) (hr' : r' ∈ t.rows)
    (hstay : purgeSelection n t r' = false) (hdated : r'.timestamp.isSome = true) :
    r.timestamp.getD 0 ≤ r'.timestamp.getD 0 := by
  cases htake : (oldestFirst t).take n.toNat with
  | nil =>
    have hmem := mem_oldestFirst.2 ⟨hr', hdated⟩
    rw [oldestFirst_eq_nil_of_take hn htake] at hmem
    exact absurd hmem List.not_mem_nil
  | cons first rest =>
    rw [purgeSelection_of_take hn htake hr', hdated, Bool.true_and,
      decide_eq_false_iff_not] at hstay
    rw [purgeSelection_of_take hn htake hr, Bool.and_eq_true, decide_eq_true_eq] at hpick
    omega

/-- The purge is of the oldest rows in every respect but their number. -/
theorem purgesOldest_of_count (hN : 0 < rowsToDelete stDefPolicy s.table)
    (hcount :
      (s.table.rows.filter (purgeSelection (rowsToDelete stDefPolicy s.table) s.table)).length =
      (rowsToDelete stDefPolicy s.table).toNat) :
    PurgesOldest h s (rowsToDelete stDefPolicy s.table)
      (defaultPolicyHandler h stDefPolicy sizes s) := by
  rcases @defaultPolicyHandler_of_pos h stDefPolicy sizes s hN with ⟨htable, hreport⟩
  have hremoved : removedRows s.table (defaultPolicyHandler h stDefPolicy sizes s).1.table =
      s.table.rows.filter (purgeSelection (rowsToDelete stDefPolicy s.table) s.table) := by
    rw [htable, removedRows_remove]
  have hlen : ((removedRows s.table
      (defaultPolicyHandler h stDefPolicy sizes s).1.table).length : ℤ) =
        rowsToDelete stDefPolicy s.table := by
    rw [hremoved, hcount]
    omega
  refine ⟨hlen, ?_, ?_, ?_, ?_, ?_⟩
  · intro r hr
    rw [hremoved] at hr
    exact (inClosedTimeRange_iff.1 (List.mem_filter.1 hr).2).1
  · intro r hr r' hr' hdated
    rw [hremoved] at hr
    rw [htable, Lib.Table.mem_remove] at hr'
    rcases List.mem_filter.1 hr with ⟨hrow, hpick⟩
    exact timestamp_le_of_purged hN hrow hpick hr'.1 hr'.2 hdated
  · intro r hr
    rw [htable, Lib.Table.mem_remove] at hr
    exact hr.1
  · intro f hf
    rw [hremoved]
    simp only [defaultPolicyHandler, if_neg (not_le.2 hN), List.mem_append, List.mem_flatMap,
      List.mem_filter, Bool.and_eq_true] at hf ⊢
    rcases hf with hf | ⟨r, ⟨hr, hsel, _⟩, hfile⟩
    · exact Or.inl hf
    · exact Or.inr ⟨r, ⟨hr, hsel⟩, hfile⟩
  · rw [hreport, hlen]

/-- Among rows with a timestamp the key of the order is the timestamp. -/
theorem timestamp_eq_iff_of_mem {t : GranularTable} {r r' : GranularRow} (hr : r ∈ oldestFirst t)
    (hr' : r' ∈ oldestFirst t) :
    r.timestamp.getD 0 = r'.timestamp.getD 0 ↔ r.timestamp = r'.timestamp := by
  rcases Option.isSome_iff_exists.1 (mem_oldestFirst.1 hr).2 with ⟨a, ha⟩
  rcases Option.isSome_iff_exists.1 (mem_oldestFirst.1 hr').2 with ⟨b, hb⟩
  rw [ha, hb]
  simp

/-- The number of rows is all that may be wrong. -/
theorem purgesOldest_iff_count (hN : 0 < rowsToDelete stDefPolicy s.table) :
    PurgesOldest h s (rowsToDelete stDefPolicy s.table)
        (defaultPolicyHandler h stDefPolicy sizes s) ↔
      (s.table.rows.filter (purgeSelection (rowsToDelete stDefPolicy s.table) s.table)).length =
        (rowsToDelete stDefPolicy s.table).toNat := by
  refine ⟨fun hpurge => ?_, purgesOldest_of_count hN⟩
  have hlen := hpurge.count
  rw [(defaultPolicyHandler_of_pos hN).1, removedRows_remove] at hlen
  omega

/-- Without as many timestamps, or with the last one taken shared by a row
behind, the purge is not of the number of rows counted. -/
theorem purgesOldest_iff (hN : 0 < rowsToDelete stDefPolicy s.table) :
    PurgesOldest h s (rowsToDelete stDefPolicy s.table)
        (defaultPolicyHandler h stDefPolicy sizes s) ↔
      (rowsToDelete stDefPolicy s.table).toNat ≤ (oldestFirst s.table).length ∧
        ∀ r ∈ (oldestFirst s.table).take (rowsToDelete stDefPolicy s.table).toNat,
          ∀ r' ∈ (oldestFirst s.table).drop (rowsToDelete stDefPolicy s.table).toNat,
            r.timestamp ≠ r'.timestamp := by
  have hkeys : (∀ r ∈ (oldestFirst s.table).take (rowsToDelete stDefPolicy s.table).toNat,
      ∀ r' ∈ (oldestFirst s.table).drop (rowsToDelete stDefPolicy s.table).toNat,
        r.timestamp.getD 0 ≠ r'.timestamp.getD 0) ↔
      ∀ r ∈ (oldestFirst s.table).take (rowsToDelete stDefPolicy s.table).toNat,
        ∀ r' ∈ (oldestFirst s.table).drop (rowsToDelete stDefPolicy s.table).toNat,
          r.timestamp ≠ r'.timestamp :=
    forall₂_congr fun r hr => forall₂_congr fun r' hr' => not_congr
      (timestamp_eq_iff_of_mem (List.mem_of_mem_take hr) (List.mem_of_mem_drop hr'))
  rw [purgesOldest_iff_count hN, ← hkeys]
  cases htake : (oldestFirst s.table).take (rowsToDelete stDefPolicy s.table).toNat with
  | nil =>
    have hnil := oldestFirst_eq_nil_of_take hN htake
    have hnone :
        s.table.rows.filter (purgeSelection (rowsToDelete stDefPolicy s.table) s.table) = [] := by
      rw [List.filter_eq_nil_iff]
      intro r hr hin
      have hmem := mem_oldestFirst.2 ⟨hr, (inClosedTimeRange_iff.1 hin).1⟩
      rw [hnil] at hmem
      exact absurd hmem List.not_mem_nil
    rw [hnone, hnil, List.length_nil]
    omega
  | cons first rest =>
    rw [length_purged hN htake, ← htake]
    exact Lib.length_filter_le_eq_iff (sorted_oldestFirst s.table) htake

end Purge

/-- A table with one row for each timestamp. -/
def datedTable (timestamps : List ℤ) : GranularTable :=
  timestamps.foldl
    (fun t ts => t.insert (fun id =>
      { sampleRow id "Speed" 0 with timestamp := some ts }) fun _ => rfl)
    Lib.Table.empty

/-- Ten events, all at different times: the oldest one goes. -/
theorem purgesOldest_ten :
    PurgesOldest (sampleHandler [] []) ⟨datedTable [1, 2, 3, 4, 5, 6, 7, 8, 9, 10], []⟩
      (rowsToDelete (readDefaultGRPolicy none) (datedTable [1, 2, 3, 4, 5, 6, 7, 8, 9, 10]))
      (defaultPolicyHandler (sampleHandler [] []) (readDefaultGRPolicy none) ⟨0, 0, 0⟩
        ⟨datedTable [1, 2, 3, 4, 5, 6, 7, 8, 9, 10], []⟩) :=
  (purgesOldest_iff (s := ⟨datedTable [1, 2, 3, 4, 5, 6, 7, 8, 9, 10], []⟩)
    (by decide)).2 (by decide)

/-- Ten events, the two oldest at one time: one is to go, two do. -/
theorem not_purgesOldest_of_tie :
    rowsToDelete (readDefaultGRPolicy none) (datedTable [1, 1, 3, 4, 5, 6, 7, 8, 9, 10]) = 1 ∧
      ¬ PurgesOldest (sampleHandler [] []) ⟨datedTable [1, 1, 3, 4, 5, 6, 7, 8, 9, 10], []⟩ 1
        (defaultPolicyHandler (sampleHandler [] []) (readDefaultGRPolicy none) ⟨0, 0, 0⟩
          ⟨datedTable [1, 1, 3, 4, 5, 6, 7, 8, 9, 10], []⟩) :=
  ⟨by decide, fun hpurge => absurd hpurge.count (by decide)⟩

end GranularityReduction

end DeviceClient
