import DeviceClient.Db.GranularityReduction
import DeviceClient.Upload.MidRows

/-!
# The deletion of uploaded events

`delete_events_from_db` and `DeleteEventsFromDB` run two statements in a transaction: a delete of
the rows that no other upload mode needs, and an update that marks the rows that are kept. Every
statement may fail. The transaction is ended in the same way whatever the statements did.

* `UploadConnection`: what is committed, and what the connection sees.
* `transaction_stored`: what of the statements between the two calls is committed.
* `deletion_atomic_iff`: when all of a function's changes are committed or none is.
-/

namespace DeviceClient

/-- The database with its open transaction, if there is one. -/
structure UploadConnection where
  stored : Db
  seen : Db
  bInTransaction : Bool
  agrees : bInTransaction = false → seen = stored

/-- Which statements succeed. -/
structure DeletionResults where
  startTransaction : Bool
  remove : Bool
  update : Bool
  endTransaction : Bool
deriving DecidableEq

namespace UploadConnection

/-- `BEGIN` fails inside a transaction. -/
def startTransaction (c : UploadConnection) (bOk : Bool) : Bool × UploadConnection :=
  if bOk = true ∧ c.bInTransaction = false then
    (true, { c with bInTransaction := true, agrees := nofun })
  else (false, c)

/-- `Remove` and `Update`. -/
def exec (c : UploadConnection) (bOk : Bool) (statement : Db → Db) : Bool × UploadConnection :=
  if bOk then
    (true, {
      stored := if c.bInTransaction then c.stored else statement c.stored
      seen := statement c.seen
      bInTransaction := c.bInTransaction
      agrees := fun hout => by rw [hout, c.agrees hout]; rfl })
  else (false, c)

/-- `EndTransaction(true)`. -/
def endTransaction (c : UploadConnection) (bOk : Bool) : UploadConnection :=
  if bOk then ⟨c.seen, c.seen, false, fun _ => rfl⟩ else c

end UploadConnection

/-- A delete, and an update of what is selected. -/
structure UploadStatements where
  strTable : StoreTable
  deletes : EventRow → Bool
  selects : EventRow → Bool
  marks : EventRow → EventRow
  deletes_selects : ∀ r, deletes r = true → selects r = true
  marks_id : ∀ r, (marks r).id = r.id

namespace UploadStatements

variable (w : UploadStatements)

def delete (db : Db) : Db := db.remove w.strTable w.deletes

def mark (db : Db) : Db :=
  Function.update db w.strTable ((db w.strTable).update w.selects w.marks w.marks_id)

/-- Both statements, one after the other. -/
def both (db : Db) : Db := w.mark (w.delete db)

end UploadStatements

namespace UploadConnection

/-! ## The two functions -/

/-- The delete of `delete_events_from_db` with the update of it. -/
def midStatements (strTable : StoreTable) (nMid : ℤ) : UploadStatements where
  strTable := strTable
  deletes r := Db.deletes true strTable nMid r
  selects r := decide (r.mid = nMid)
  marks r := r.setStreamSupport 0
  deletes_selects _ h := decide_eq_true (Db.deletes_mid h)
  marks_id r := r.setStreamSupport_id 0

/-- `delete_events_from_db`. -/
def deleteEventsFromDb (c : UploadConnection) (results : DeletionResults) (bBatchMode : Bool)
    (strTable : StoreTable) (nMid : ℤ) : Bool × UploadConnection :=
  if strTable = .eventStore ∧ bBatchMode = true then
    let started := c.startTransaction results.startTransaction
    let removed := started.2.exec results.remove (midStatements strTable nMid).delete
    let updated :=
      -- `bResult && pDb->Update`
      if removed.1 then removed.2.exec results.update (midStatements strTable nMid).mark
      else removed
    (updated.1, if started.1 then updated.2.endTransaction results.endTransaction else updated.2)
  else c.exec results.remove fun db => db.deleteEvents bBatchMode strTable nMid

/-- `UpdateDeleteSelectionAsPerMode`. -/
def deletesAsPerMode (rDataMode : UploadDataMode) (r : EventRow) : Bool :=
  match rDataMode with
  | .eBatch => decide (r.streamSupport = 0)
  | .eStream => decide (r.batchSupport = 0)
  | .eBatchAndStream => true

/-- `MarkEventsAsUploaded`, of a row. -/
def marksAsUploaded (rDataMode : UploadDataMode) (r : EventRow) : EventRow :=
  match rDataMode with
  | .eBatch => r.setBatchSupport 0
  | .eStream => r.setStreamSupport 0
  | .eBatchAndStream => (r.setBatchSupport 0).setStreamSupport 0

/-- The delete of `DeleteEventsFromDB` with the update of it. -/
def idStatements (rsetIds : List ℤ) (dataMode : UploadDataMode) : UploadStatements where
  strTable := .eventStore
  deletes r := decide ((r.id : ℤ) ∈ rsetIds) && deletesAsPerMode dataMode r
  selects r := decide ((r.id : ℤ) ∈ rsetIds)
  marks := marksAsUploaded dataMode
  deletes_selects _ h := (Bool.and_eq_true_iff.1 h).1
  marks_id r := by cases dataMode <;> rfl

/-- `DeleteEventsFromDB`; there is no table of another name. -/
def deleteEventsFromDB (c : UploadConnection) (results : DeletionResults)
    (bStreamMode bAnonymousUploadActive : Bool) (rstrTable : Option StoreTable)
    (rsetIds : List ℤ) (dataMode : UploadDataMode) : UploadConnection :=
  if rsetIds = [] then c
  else match rstrTable with
    | some .alertStore =>
      (c.exec results.remove fun db => db.remove .alertStore fun r => decide ((r.id : ℤ) ∈ rsetIds)).2
    | some .eventStore =>
      if bStreamMode = true ∧ bAnonymousUploadActive = false then
        let started := c.startTransaction results.startTransaction
        let removed := started.2.exec results.remove (idStatements rsetIds dataMode).delete
        let updated := removed.2.exec results.update (idStatements rsetIds dataMode).mark
        if started.1 then updated.2.endTransaction results.endTransaction else updated.2
      else
        (c.exec results.remove fun db =>
          db.remove .eventStore fun r => decide ((r.id : ℤ) ∈ rsetIds)).2
    | none => c

/-- What `DeleteEventsFromDB` is to do, where all its statements succeed. -/
def allOfIds (bStreamMode bAnonymousUploadActive : Bool) (rstrTable : Option StoreTable)
    (rsetIds : List ℤ) (dataMode : UploadDataMode) (db : Db) : Db :=
  if rsetIds = [] then db
  else match rstrTable with
    | some .alertStore => db.remove .alertStore fun r => decide ((r.id : ℤ) ∈ rsetIds)
    | some .eventStore =>
      if bStreamMode = true ∧ bAnonymousUploadActive = false then
        (idStatements rsetIds dataMode).both db
      else db.remove .eventStore fun r => decide ((r.id : ℤ) ∈ rsetIds)
    | none => db

end UploadConnection

/-! ## One statement without the other -/

namespace UploadStatements

variable (w : UploadStatements)

/-- No row is deleted. -/
def NothingDeleted (db : Db) : Prop := ∀ r ∈ (db w.strTable).rows, w.deletes r = false

/-- The rows that are kept have their flags already. -/
def NothingMarked (db : Db) : Prop :=
  ∀ r ∈ (db w.strTable).rows, w.selects r = true → w.deletes r = false → w.marks r = r

/-- All selected rows have. -/
def AllMarked (db : Db) : Prop :=
  ∀ r ∈ (db w.strTable).rows, w.selects r = true → w.marks r = r

variable {w} {db : Db}

theorem delete_eq_self_iff : w.delete db = db ↔ w.NothingDeleted db := by
  unfold delete Db.remove
  rw [Function.update_eq_self_iff]
  exact Lib.Table.remove_eq_self_iff

theorem mark_eq_self_iff : w.mark db = db ↔ w.AllMarked db := by
  unfold mark
  rw [Function.update_eq_self_iff]
  exact Lib.Table.update_eq_self_iff

/-- The delete alone is both statements. -/
theorem both_eq_delete_iff : w.both db = w.delete db ↔ w.NothingMarked db := by
  unfold both
  rw [mark_eq_self_iff]
  unfold AllMarked NothingMarked delete Db.remove
  rw [Function.update_self]
  constructor
  · exact fun h r hr hsel hdel => h r (Lib.Table.mem_remove.2 ⟨hr, hdel⟩) hsel
  · intro h r hr hsel
    rcases Lib.Table.mem_remove.1 hr with ⟨hmem, hdel⟩
    exact h r hmem hsel hdel

/-- The update alone is both statements: the update keeps the number of rows. -/
theorem both_eq_mark_iff : w.both db = w.mark db ↔ w.NothingDeleted db := by
  constructor
  · intro h
    have hrows := congrArg (fun db : Db => (db w.strTable).rows.length) h
    unfold both mark delete Db.remove at hrows
    simp only [Function.update_self] at hrows
    have hlength : ((db w.strTable).rows.filter fun r => !w.deletes r).length =
        (db w.strTable).rows.length := by
      -- an update keeps the number of rows
      simpa [Lib.Table.update] using hrows
    intro r hr
    rw [List.length_filter_eq_length_iff] at hlength
    simpa using hlength r hr
  · intro h
    unfold both
    rw [delete_eq_self_iff.2 h]

end UploadStatements

namespace UploadConnection

variable (c : UploadConnection) (results : DeletionResults)

/-- What succeeds is committed: there is no open transaction before, and one that is begun is
ended. -/
def Commits : Prop :=
  c.bInTransaction = false ∧
    (results.startTransaction = true → results.endTransaction = true)

instance : Decidable (Commits c results) := inferInstanceAs (Decidable (_ ∧ _))

/-- All is committed, or nothing. -/
def Atomic (all : Db → Db) (c' : UploadConnection) : Prop :=
  c'.stored = c.stored ∨ c'.stored = all c.stored

variable {c results}

@[simp] theorem exec_result (c : UploadConnection) (bOk : Bool) (statement : Db → Db) :
    (c.exec bOk statement).1 = bOk := by
  cases bOk <;> rfl

@[simp] theorem exec_inTransaction (c : UploadConnection) (bOk : Bool) (statement : Db → Db) :
    (c.exec bOk statement).2.bInTransaction = c.bInTransaction := by
  cases bOk <;> rfl

@[simp] theorem exec_seen (c : UploadConnection) (bOk : Bool) (statement : Db → Db) :
    (c.exec bOk statement).2.seen = if bOk then statement c.seen else c.seen := by
  cases bOk <;> rfl

theorem exec_stored (c : UploadConnection) (bOk : Bool) (statement : Db → Db)
    (hin : c.bInTransaction = true) : (c.exec bOk statement).2.stored = c.stored := by
  cases bOk with
  | false => rfl
  | true =>
    show (if c.bInTransaction then c.stored else statement c.stored) = c.stored
    rw [if_pos hin]

/-- Outside a transaction a statement is committed at once. -/
theorem exec_stored_of_out (c : UploadConnection) (bOk : Bool) (statement : Db → Db)
    (hout : c.bInTransaction = false) :
    (c.exec bOk statement).2.stored = if bOk then statement c.stored else c.stored := by
  have hagrees := (c.exec bOk statement).2.agrees (by rw [exec_inTransaction]; exact hout)
  rw [← hagrees, exec_seen, c.agrees hout]

/-- Statements that keep what is committed inside a transaction, and what they make of the
database. -/
structure Runs (statements : UploadConnection → UploadConnection) (f : Db → Db) : Prop where
  inTransaction : ∀ c, (statements c).bInTransaction = c.bInTransaction
  seen : ∀ c, (statements c).seen = f c.seen
  stored : ∀ c, c.bInTransaction = true → (statements c).stored = c.stored

/-- A transaction around some statements. -/
def transaction (c : UploadConnection) (results : DeletionResults)
    (statements : UploadConnection → UploadConnection) : UploadConnection :=
  let started := c.startTransaction results.startTransaction
  if started.1 then (statements started.2).endTransaction results.endTransaction
  else statements started.2

theorem startTransaction_eq_false {bOk : Bool} (h : bOk = false ∨ c.bInTransaction = true) :
    c.startTransaction bOk = (false, c) := by
  unfold startTransaction
  refine if_neg fun hboth => ?_
  rcases h with h | h
  · rw [h] at hboth
    exact absurd hboth.1 nofun
  · rw [h] at hboth
    exact absurd hboth.2 nofun

theorem startTransaction_eq_true (hout : c.bInTransaction = false) :
    c.startTransaction true = (true, ⟨c.stored, c.seen, true, nofun⟩) := by
  unfold startTransaction
  exact if_pos ⟨rfl, hout⟩

theorem transaction_stored {statements : UploadConnection → UploadConnection} {f : Db → Db}
    (hruns : Runs statements f) :
    (c.transaction results statements).stored =
      if Commits c results then f c.stored else c.stored := by
  unfold transaction
  cases hin : c.bInTransaction with
  | true =>
    -- nobody ends the transaction that is open
    have hcommits : ¬ Commits c results := fun h => by
      rw [h.1] at hin
      cases hin
    rw [if_neg hcommits, startTransaction_eq_false (Or.inr hin)]
    exact hruns.stored c hin
  | false =>
    cases hstart : results.startTransaction with
    | false =>
      have hcommits : Commits c results := ⟨hin, fun h => by rw [hstart] at h; cases h⟩
      have hagrees := (statements c).agrees ((hruns.inTransaction c).trans hin)
      -- without `BEGIN` each statement is committed at once
      rw [if_pos hcommits, startTransaction_eq_false (Or.inl rfl)]
      show (statements c).stored = f c.stored
      rw [← hagrees, hruns.seen, c.agrees hin]
    | true =>
      rw [startTransaction_eq_true hin]
      cases hend : results.endTransaction with
      | true =>
        have hcommits : Commits c results := ⟨hin, fun _ => hend⟩
        rw [if_pos hcommits]
        show (statements _).seen = f c.stored
        rw [hruns.seen]
        show f c.seen = f c.stored
        rw [c.agrees hin]
      | false =>
        have hcommits : ¬ Commits c results := fun h => by
          have h' := h.2 hstart
          rw [hend] at h'
          cases h'
        rw [if_neg hcommits]
        -- the transaction stays open, and what it changed is never stored
        exact hruns.stored _ rfl

/-! ## Atomicity -/

/-- The two statements of `delete_events_from_db`: the update is run behind a delete that succeeds
only. -/
theorem runs_mid (w : UploadStatements) (bRemove bUpdate : Bool) :
    Runs (fun c =>
      (if (c.exec bRemove w.delete).1 then (c.exec bRemove w.delete).2.exec bUpdate w.mark
      else c.exec bRemove w.delete).2)
      (fun db => if bRemove then if bUpdate then w.both db else w.delete db else db) where
  inTransaction c := by
    cases bRemove with
    | false => rfl
    | true => exact exec_inTransaction _ bUpdate w.mark
  seen c := by
    cases bRemove with
    | false => rfl
    | true => exact exec_seen _ bUpdate w.mark
  stored c hin := by
    cases bRemove with
    | false => rfl
    | true =>
      have hin' : (c.exec true w.delete).2.bInTransaction = true :=
        (exec_inTransaction c true w.delete).trans hin
      exact (exec_stored _ bUpdate w.mark hin').trans (exec_stored c true w.delete hin)

/-- Those of `DeleteEventsFromDB`. -/
theorem runs_ids (w : UploadStatements) (bRemove bUpdate : Bool) :
    Runs (fun c => ((c.exec bRemove w.delete).2.exec bUpdate w.mark).2)
      (fun db => if bUpdate then w.mark (if bRemove then w.delete db else db)
        else if bRemove then w.delete db else db) where
  inTransaction c := by rw [exec_inTransaction, exec_inTransaction]
  seen c := by rw [exec_seen, exec_seen]
  stored c hin := by
    rw [exec_stored _ bUpdate w.mark (by rw [exec_inTransaction]; exact hin),
      exec_stored c bRemove w.delete hin]

/-- The delete without the update. -/
theorem atomic_delete_iff (w : UploadStatements) (db : Db) :
    w.delete db = db ∨ w.delete db = w.both db ↔ w.NothingDeleted db ∨ w.NothingMarked db := by
  rw [UploadStatements.delete_eq_self_iff, eq_comm (b := w.both db),
    UploadStatements.both_eq_delete_iff]

/-- The update without the delete. -/
theorem atomic_mark_iff (w : UploadStatements) (db : Db) :
    w.mark db = db ∨ w.mark db = w.both db ↔ w.AllMarked db ∨ w.NothingDeleted db := by
  rw [UploadStatements.mark_eq_self_iff, eq_comm (b := w.both db),
    UploadStatements.both_eq_mark_iff]

/-- What the update that fails behind a delete leaves undone, is nothing. -/
def DeleteHarmless (w : UploadStatements) (c : UploadConnection) (results : DeletionResults) :
    Prop :=
  Commits c results → results.remove = true → results.update = false →
    w.NothingDeleted c.stored ∨ w.NothingMarked c.stored

/-- What the delete that fails before an update leaves undone, is nothing. -/
def MarkHarmless (w : UploadStatements) (c : UploadConnection) (results : DeletionResults) : Prop :=
  Commits c results → results.remove = false → results.update = true →
    w.AllMarked c.stored ∨ w.NothingDeleted c.stored

/-- One statement by itself. -/
theorem atomic_exec (c : UploadConnection) (bOk : Bool) (statement : Db → Db) :
    Atomic c statement (c.exec bOk statement).2 := by
  cases hin : c.bInTransaction with
  | true => exact Or.inl (exec_stored c bOk statement hin)
  | false =>
    unfold Atomic
    rw [exec_stored_of_out c bOk statement hin]
    cases bOk with
    | true => exact Or.inr rfl
    | false => exact Or.inl rfl

variable (c results)

theorem atomic_mid_iff (bBatchMode : Bool) (strTable : StoreTable) (nMid : ℤ) :
    Atomic c (fun db => db.deleteEventsFromDb bBatchMode strTable nMid)
        (c.deleteEventsFromDb results bBatchMode strTable nMid).2 ↔
      (strTable = .eventStore → bBatchMode = true →
        DeleteHarmless (midStatements strTable nMid) c results) := by
  by_cases htwo : strTable = .eventStore ∧ bBatchMode = true
  · rcases htwo with ⟨rfl, rfl⟩
    let w : UploadStatements := midStatements .eventStore nMid
    have hafter : (c.deleteEventsFromDb results true .eventStore nMid).2 =
        c.transaction results fun c =>
          (if (c.exec results.remove w.delete).1 then
            (c.exec results.remove w.delete).2.exec results.update w.mark
          else c.exec results.remove w.delete).2 := rfl
    have hall : c.stored.deleteEventsFromDb true .eventStore nMid = w.both c.stored := rfl
    unfold Atomic DeleteHarmless
    dsimp only
    rw [hafter, hall, transaction_stored (runs_mid w results.remove results.update)]
    by_cases hcommits : Commits c results
    · rw [if_pos hcommits]
      cases results.remove with
      | false => simp
      | true =>
        cases results.update with
        | true => simp
        -- the delete is committed by itself
        | false => simpa [hcommits] using atomic_delete_iff w c.stored
    · simp [hcommits]
  · have hafter : (c.deleteEventsFromDb results bBatchMode strTable nMid).2 =
        (c.exec results.remove fun db => db.deleteEvents bBatchMode strTable nMid).2 := by
      unfold UploadConnection.deleteEventsFromDb
      rw [if_neg htwo]
    have hall : (fun db : Db => db.deleteEventsFromDb bBatchMode strTable nMid) =
        fun db => db.deleteEvents bBatchMode strTable nMid := by
      funext db
      exact if_neg htwo
    rw [hafter, hall]
    exact iff_of_true (atomic_exec c results.remove _) fun ht hb => absurd ⟨ht, hb⟩ htwo

theorem atomic_ids_iff (bStreamMode bAnonymousUploadActive : Bool) (rstrTable : Option StoreTable)
    (rsetIds : List ℤ) (dataMode : UploadDataMode) :
    Atomic c (allOfIds bStreamMode bAnonymousUploadActive rstrTable rsetIds dataMode)
        (c.deleteEventsFromDB results bStreamMode bAnonymousUploadActive rstrTable rsetIds
          dataMode) ↔
      (rsetIds ≠ [] → rstrTable = some .eventStore → bStreamMode = true →
        bAnonymousUploadActive = false →
        DeleteHarmless (idStatements rsetIds dataMode) c results ∧
          MarkHarmless (idStatements rsetIds dataMode) c results) := by
  unfold Atomic deleteEventsFromDB allOfIds
  by_cases hempty : rsetIds = []
  · simp [hempty]
  rw [if_neg hempty, if_neg hempty]
  match rstrTable with
  | none => simp
  | some .alertStore =>
    refine iff_of_true ?_ fun _ h => nomatch h
    exact atomic_exec c results.remove _
  | some .eventStore =>
    dsimp only
    by_cases htwo : bStreamMode = true ∧ bAnonymousUploadActive = false
    · rw [if_pos htwo, if_pos htwo]
      let w : UploadStatements := idStatements rsetIds dataMode
      show (c.transaction results fun c =>
          ((c.exec results.remove w.delete).2.exec results.update w.mark).2).stored = c.stored ∨
        (c.transaction results fun c =>
          ((c.exec results.remove w.delete).2.exec results.update w.mark).2).stored =
            w.both c.stored ↔ _
      rw [transaction_stored (runs_ids w results.remove results.update)]
      unfold DeleteHarmless MarkHarmless
      by_cases hcommits : Commits c results
      · rw [if_pos hcommits]
        have hpair : ∀ P : Prop, (rsetIds ≠ [] → some StoreTable.eventStore = some .eventStore →
            bStreamMode = true → bAnonymousUploadActive = false → P) ↔ P :=
          fun P => ⟨fun h => h hempty rfl htwo.1 htwo.2, fun h _ _ _ _ => h⟩
        rw [hpair]
        cases results.remove with
        | false =>
          cases results.update with
          | false => simp
          -- the update is committed by itself
          | true => simpa [hcommits] using atomic_mark_iff w c.stored
        | true =>
          cases results.update with
          | true => simp [UploadStatements.both]
          | false => simpa [hcommits] using atomic_delete_iff w c.stored
      · simp [hcommits]
    · rw [if_neg htwo, if_neg htwo]
      refine iff_of_true ?_ fun _ _ hs ha => absurd ⟨hs, ha⟩ htwo
      exact atomic_exec c results.remove _

/-- Of both functions, for any mid and any ids, whatever succeeds and fails. -/
theorem deletion_atomic_iff (bBatchMode : Bool) (strTable : StoreTable) (nMid : ℤ)
    (bStreamMode bAnonymousUploadActive : Bool) (rstrTable : Option StoreTable)
    (rsetIds : List ℤ) (dataMode : UploadDataMode) :
    (Atomic c (fun db => db.deleteEventsFromDb bBatchMode strTable nMid)
        (c.deleteEventsFromDb results bBatchMode strTable nMid).2 ↔
      (strTable = .eventStore → bBatchMode = true →
        DeleteHarmless (midStatements strTable nMid) c results)) ∧
    (Atomic c (allOfIds bStreamMode bAnonymousUploadActive rstrTable rsetIds dataMode)
        (c.deleteEventsFromDB results bStreamMode bAnonymousUploadActive rstrTable rsetIds
          dataMode) ↔
      (rsetIds ≠ [] → rstrTable = some .eventStore → bStreamMode = true →
        bAnonymousUploadActive = false →
        DeleteHarmless (idStatements rsetIds dataMode) c results ∧
          MarkHarmless (idStatements rsetIds dataMode) c results)) :=
  ⟨atomic_mid_iff c results bBatchMode strTable nMid,
    atomic_ids_iff c results bStreamMode bAnonymousUploadActive rstrTable rsetIds dataMode⟩

/-- An event published under the mid 5. -/
def publishedEvent (streamSupport batchSupport : ℤ) : EventRow :=
  ⟨0, "Speed", some 1, 0, 20, 0, "\x7b\x7d", none, 5, streamSupport, batchSupport⟩

/-- One event for the stream only, and one that waits for the batch. -/
def twoPublished : Db :=
  (Db.insert (fun _ => Lib.Table.empty) .eventStore (publishedEvent 1 0)).insert .eventStore
    (publishedEvent 1 1)

/-- The update fails behind the delete: the event for the stream is gone, the other one is not
marked. -/
theorem not_atomic_failedUpdate :
    ¬ Atomic ⟨twoPublished, twoPublished, false, fun _ => rfl⟩
      (fun db => db.deleteEventsFromDb true .eventStore 5)
      (deleteEventsFromDb ⟨twoPublished, twoPublished, false, fun _ => rfl⟩
        ⟨true, true, false, true⟩ true .eventStore 5).2 := by
  rintro (hnone | hall)
  · have hrows := congrArg (fun db : Db => (db .eventStore).rows) hnone
    revert hrows
    decide +kernel
  · have hrows := congrArg (fun db : Db => (db .eventStore).rows) hall
    revert hrows
    decide +kernel

end UploadConnection

end DeviceClient
