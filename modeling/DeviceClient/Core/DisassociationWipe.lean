import DeviceClient.Lib.Run
import Mathlib.Data.List.TakeWhile
import Mathlib.Logic.Function.Basic

/-!
# The wipe of a disassociated device

A disassociation sets a row of `LocalConfig`. A later start that finds it clears the tables, in a
transaction where one can be begun, and removes the attachments. Any statement may fail, and the
process may stop at any point. Rows and files have a mark that says whether they were there when
the device was disassociated.

* `wipe`: what a start leaves, of its statements' outcomes.
* `Clears`, `CleansUp`, `Corrupt`: what the outcomes come to.
* `outcome_wipe`: what is left, in these terms.
* `safe_wipe_iff`: the starts that keep the flag or leave nothing.
* `safe_runs_iff`: the runs whose starts all do.
-/

namespace DeviceClient

/-- A row or a file, and whether it was there when the device was disassociated. -/
structure Owned (α : Type) where
  value : α
  bPreviousOwner : Bool
deriving DecidableEq

/-- The columns of a row with their values. -/
abbrev Columns := List (String × String)

/-- The database file, with its tables in the order of `sqlite_master`, and the directory of the
attachments. -/
structure ClientStorage where
  tables : List String
  rows : String → List (Owned Columns)
  attachments : List (Owned String)

/-- How a statement ends. -/
inductive StatementEnd where
  | ok
  | error
  /-- `SQLITE_CANTOPEN` or `SQLITE_CORRUPT`. -/
  | corrupt
  /-- The process stops before it. -/
  | crash
deriving DecidableEq

/-- `SqliteExec` does not return. -/
def StatementEnd.Ends (r : StatementEnd) : Prop := r = .corrupt ∨ r = .crash

instance : DecidablePred StatementEnd.Ends := fun _ => inferInstanceAs (Decidable (_ ∨ _))

/-- What happens at a start to the statements of the wipe. -/
structure WipeAttempt where
  /-- A transaction of `Open` was not ended. -/
  bInTransaction : Bool
  startTransaction : StatementEnd
  remove : String → StatementEnd
  endTransaction : StatementEnd
  vacuum : StatementEnd
  /-- The files that are removed with the directory, before the process stops. -/
  removed : Owned String → Bool

/-- The wipe in progress: what is stored, and what the connection sees. -/
structure Wipe where
  storage : ClientStorage
  rows : String → List (Owned Columns)
  bInTransaction : Bool
  bTransactionStarted : Bool
  bRetVal : Bool
  /-- The process has stopped. -/
  bEnded : Bool

namespace ClientStorage

/-- `CLocalConfig::Get`. -/
def get (s : ClientStorage) (strKey : String) : String :=
  match (s.rows "LocalConfig").find? (fun row => row.value.lookup "key" = some strKey) with
  | some row => (row.value.lookup "value").getD ""
  | none => ""

/-- The flag of the disassociation. -/
def Disassociated (s : ClientStorage) : Prop := s.get "deviceDisassociated" = "true"

instance (s : ClientStorage) : Decidable s.Disassociated := inferInstanceAs (Decidable (_ = _))

/-- The file of the database is removed. -/
def removeDatabase (s : ClientStorage) : ClientStorage :=
  { s with tables := [], rows := fun _ => [] }

end ClientStorage

namespace Wipe

/-- `SqliteExec`, with what the caller makes of its result. -/
def sqliteExec (w : Wipe) (r : StatementEnd) (onOk onError : Wipe → Wipe) : Wipe :=
  if w.bEnded then w
  else match r with
    | .ok => onOk w
    | .error => onError w
    -- the handler of a corrupt database removes its file and exits
    | .corrupt => { w with storage := w.storage.removeDatabase, bEnded := true }
    | .crash => { w with bEnded := true }

/-- `BEGIN` fails inside a transaction. -/
def startTransaction (w : Wipe) (r : StatementEnd) : Wipe :=
  w.sqliteExec r
    (fun w => if w.bInTransaction then w
      else { w with bInTransaction := true, bTransactionStarted := true })
    id

/-- `Remove`, whose result the loop keeps. -/
def remove (w : Wipe) (strTableName : String) (r : StatementEnd) : Wipe :=
  w.sqliteExec r
    (fun w => { w with
      rows := Function.update w.rows strTableName []
      storage :=
        if w.bInTransaction then w.storage
        else { w.storage with rows := Function.update w.storage.rows strTableName [] }
      bRetVal := true })
    (fun w => { w with bRetVal := false })

/-- `EndTransaction`, whose result code is taken for a truth value. -/
def endTransaction (w : Wipe) (r : StatementEnd) : Wipe :=
  w.sqliteExec r
    (fun w => { w with
      storage := { w.storage with rows := w.rows }
      bInTransaction := false
      bRetVal := false })
    (fun w => { w with bRetVal := true })

def vacuum (w : Wipe) (r : StatementEnd) : Wipe :=
  w.sqliteExec r id (fun w => { w with bRetVal := false })

/-- `ClearTables`. -/
def clearTables (w : Wipe) (a : WipeAttempt) : Wipe :=
  let started := w.startTransaction a.startTransaction
  let cleared := started.storage.tables.foldl (fun w t => w.remove t (a.remove t)) started
  let ended :=
    if cleared.bTransactionStarted then cleared.endTransaction a.endTransaction else cleared
  ended.vacuum a.vacuum

/-- `CleanupAttachments`. -/
def cleanupAttachments (w : Wipe) (a : WipeAttempt) : Wipe :=
  if w.bEnded then w
  else
    let attachments := w.storage.attachments.filter fun file => !a.removed file
    { w with storage := { w.storage with attachments } }

end Wipe

namespace ClientStorage

/-- The beginning of the wipe. -/
def opened (s : ClientStorage) (a : WipeAttempt) : Wipe :=
  ⟨s, s.rows, a.bInTransaction, false, false, false⟩

/-- What the wipe of `InitClient` leaves stored; an open transaction is rolled back. -/
def wipe (s : ClientStorage) (a : WipeAttempt) : ClientStorage :=
  (((s.opened a).clearTables a).cleanupAttachments a).storage

end ClientStorage

namespace ClientStorage

/-- Some row or file of the previous owner is left. -/
def OldRow (s : ClientStorage) (strTableName : String) : Prop :=
  ∃ row ∈ s.rows strTableName, row.bPreviousOwner = true

def OldFile (s : ClientStorage) (file : Owned String) : Prop :=
  file ∈ s.attachments ∧ file.bPreviousOwner = true

def Remains (s : ClientStorage) : Prop := (∃ t, s.OldRow t) ∨ ∃ file, s.OldFile file

/-- As long as something is left, the next start wipes. -/
def Safe (s : ClientStorage) : Prop := s.Remains → s.Disassociated

end ClientStorage

/-- What the running client does to its storage: it neither sets the flag nor takes it away, and
stores nothing of the previous owner once all of it is gone. -/
structure ClientWork where
  work : ClientStorage → ClientStorage
  flag : ∀ s, (work s).Disassociated ↔ s.Disassociated
  remains : ∀ s, (work s).Remains → s.Remains

inductive WipeStep where
  | start (a : WipeAttempt)
  | work (w : ClientWork)

namespace ClientStorage

/-- `InitClient`, or the client at work. -/
def next (s : ClientStorage) : WipeStep → Option ClientStorage
  | .start a => some (if s.Disassociated then s.wipe a else s)
  | .work w => some (w.work s)

/-! ## The outcomes of a start -/

/-- `BEGIN` succeeds, which it does outside a transaction only. -/
def StartsTransaction (a : WipeAttempt) : Prop :=
  a.bInTransaction = false ∧ a.startTransaction = .ok

instance (a : WipeAttempt) : Decidable (StartsTransaction a) := inferInstanceAs (Decidable (_ ∧ _))

/-- The statements up to the end of the loop. -/
def loopEnds (s : ClientStorage) (a : WipeAttempt) : List StatementEnd :=
  a.startTransaction :: s.tables.map a.remove

/-- The outcomes of the statements in order; `END` is run in the wipe's own transaction only. -/
def statementEnds (s : ClientStorage) (a : WipeAttempt) : List StatementEnd :=
  s.loopEnds a ++ (if StartsTransaction a then [a.endTransaction] else []) ++ [a.vacuum]

/-- A statement that is run reports that the database is corrupt. -/
def Corrupt (s : ClientStorage) (a : WipeAttempt) : Prop :=
  (s.statementEnds a).find? (fun r => r.Ends) = some .corrupt

/-- All statements are run. -/
def CleansUp (s : ClientStorage) (a : WipeAttempt) : Prop := ∀ r ∈ s.statementEnds a, ¬ r.Ends

/-- The `DELETE` of the table takes effect: in the wipe's transaction when that is committed,
without a transaction when it is run. -/
def Clears (s : ClientStorage) (a : WipeAttempt) (strTableName : String) : Prop :=
  a.remove strTableName = .ok ∧
    if StartsTransaction a then
      strTableName ∈ s.tables ∧ (∀ r ∈ s.loopEnds a, ¬ r.Ends) ∧ a.endTransaction = .ok
    else
      a.bInTransaction = false ∧ ¬ a.startTransaction.Ends ∧
        strTableName ∈ s.tables.takeWhile fun t => ¬ (a.remove t).Ends

/-- Where the database is lost there are no files of the previous owner; else, where the row of
the flag goes, so do all rows and files of the previous owner. -/
structure Sound (s : ClientStorage) (a : WipeAttempt) : Prop where
  corrupt : s.Corrupt a → ∀ file, ¬ s.OldFile file
  row : ¬ s.Corrupt a → s.Clears a "LocalConfig" → ∀ t, s.OldRow t → s.Clears a t
  file : ¬ s.Corrupt a → s.Clears a "LocalConfig" →
    ∀ file, s.OldFile file → s.CleansUp a ∧ a.removed file = true

end ClientStorage

/-! ## The loop over the tables -/

namespace Wipe

theorem sqliteExec_ended {w : Wipe} (hended : w.bEnded = true) (r : StatementEnd)
    (onOk onError : Wipe → Wipe) : w.sqliteExec r onOk onError = w := by
  unfold sqliteExec
  rw [if_pos hended]

theorem sqliteExec_of_not_ended {w : Wipe} (hrun : w.bEnded = false) (r : StatementEnd)
    (onOk onError : Wipe → Wipe) :
    w.sqliteExec r onOk onError = match r with
      | .ok => onOk w
      | .error => onError w
      | .corrupt => { w with storage := w.storage.removeDatabase, bEnded := true }
      | .crash => { w with bEnded := true } := by
  unfold sqliteExec
  rw [hrun]
  rfl

/-- A statement that does not return. -/
theorem sqliteExec_ends {w : Wipe} (hrun : w.bEnded = false) {r : StatementEnd} (hends : r.Ends)
    (onOk onError : Wipe → Wipe) :
    w.sqliteExec r onOk onError = { w with
      storage := if r = .corrupt then w.storage.removeDatabase else w.storage
      bEnded := true } := by
  rw [sqliteExec_of_not_ended hrun]
  rcases hends with rfl | rfl
  · rfl
  · rfl

/-- The loop of `ClearTables`. -/
def removeAll (w : Wipe) (a : WipeAttempt) (ts : List String) : Wipe :=
  ts.foldl (fun w t => w.remove t (a.remove t)) w

/-- The rows behind the deletes of some tables. -/
def clearedRows (a : WipeAttempt) (ts : List String) (rows : String → List (Owned Columns)) :
    String → List (Owned Columns) :=
  fun t => if t ∈ ts ∧ a.remove t = .ok then [] else rows t

theorem removeAll_ended {w : Wipe} (hended : w.bEnded = true) (a : WipeAttempt)
    (ts : List String) : w.removeAll a ts = w := by
  induction ts with
  | nil => rfl
  | cons t ts ih =>
    show (w.remove t (a.remove t)).removeAll a ts = w
    unfold remove
    rw [sqliteExec_ended hended]
    exact ih

theorem clearedRows_cons (a : WipeAttempt) (t : String) (ts : List String)
    (rows : String → List (Owned Columns)) :
    clearedRows a ts (if a.remove t = .ok then Function.update rows t [] else rows) =
      clearedRows a (t :: ts) rows := by
  funext u
  unfold clearedRows
  -- a later delete of the same table changes nothing
  by_cases hut : u = t
  · subst hut
    by_cases hok : a.remove u = .ok
    · simp [hok]
    · simp [hok]
  · by_cases hok : a.remove t = .ok
    · simp [hok, hut]
    · simp [hok, hut]

/-- The storage behind the deletes: inside a transaction it stays. -/
def clearedStorage (w : Wipe) (a : WipeAttempt) (ts : List String) : ClientStorage :=
  if w.bInTransaction then w.storage
  else { w.storage with rows := clearedRows a ts w.storage.rows }

/-- One delete that returns. -/
theorem remove_eq {w : Wipe} (hrun : w.bEnded = false) (t : String) {r : StatementEnd}
    (hreturn : ¬ r.Ends) :
    ∃ bRetVal, w.remove t r = { w with
      rows := if r = .ok then Function.update w.rows t [] else w.rows
      storage :=
        if w.bInTransaction then w.storage
        else { w.storage with
          rows := if r = .ok then Function.update w.storage.rows t [] else w.storage.rows }
      bRetVal } := by
  unfold remove
  rw [sqliteExec_of_not_ended hrun]
  cases r with
  | ok => exact ⟨true, rfl⟩
  | error => exact ⟨false, by simp⟩
  | corrupt => exact absurd (Or.inl rfl) hreturn
  | crash => exact absurd (Or.inr rfl) hreturn

/-- Deletes that all return. -/
theorem removeAll_eq {w : Wipe} (hrun : w.bEnded = false) {a : WipeAttempt} {ts : List String}
    (hreturn : ∀ t ∈ ts, ¬ (a.remove t).Ends) :
    ∃ bRetVal, w.removeAll a ts = { w with
      rows := clearedRows a ts w.rows
      storage := w.clearedStorage a ts
      bRetVal } := by
  induction ts generalizing w with
  | nil =>
    refine ⟨w.bRetVal, ?_⟩
    unfold clearedStorage clearedRows removeAll
    simp
  | cons t ts ih =>
    rw [List.forall_mem_cons] at hreturn
    rcases remove_eq hrun t hreturn.1 with ⟨b, hb⟩
    show ∃ bRetVal, (w.remove t (a.remove t)).removeAll a ts = _
    rw [hb]
    rcases ih (w := { w with
      rows := _
      storage := _
      bRetVal := b }) hrun hreturn.2 with ⟨bRetVal, hrest⟩
    refine ⟨bRetVal, hrest.trans ?_⟩
    unfold clearedStorage
    simp only [clearedRows_cons]
    cases w.bInTransaction with
    | true => rfl
    | false => simp only [Bool.false_eq_true, if_false, clearedRows_cons]

theorem removeDatabase_clearedStorage (w : Wipe) (a : WipeAttempt) (ts : List String) :
    (w.clearedStorage a ts).removeDatabase = w.storage.removeDatabase := by
  unfold clearedStorage
  cases w.bInTransaction with
  | true => rfl
  | false => rfl

/-- A delete that does not return, behind some that do. -/
theorem removeAll_ends {w : Wipe} (hrun : w.bEnded = false) {a : WipeAttempt} {ts : List String}
    (hreturn : ∀ t ∈ ts, ¬ (a.remove t).Ends) {t : String} (hends : (a.remove t).Ends)
    (rest : List String) :
    (w.removeAll a (ts ++ t :: rest)).bEnded = true ∧
      (w.removeAll a (ts ++ t :: rest)).storage =
        if a.remove t = .corrupt then w.storage.removeDatabase else w.clearedStorage a ts := by
  have hsplit : w.removeAll a (ts ++ t :: rest) =
      ((w.removeAll a ts).remove t (a.remove t)).removeAll a rest := List.foldl_append
  rcases removeAll_eq hrun hreturn with ⟨bRetVal, hts⟩
  have hrun' : (w.removeAll a ts).bEnded = false := by
    rw [hts]
    exact hrun
  have hlast : (w.removeAll a ts).remove t (a.remove t) = _ := sqliteExec_ends hrun' hends _ _
  rw [hsplit, hlast, removeAll_ended rfl, hts]
  refine ⟨rfl, ?_⟩
  dsimp only
  rw [removeDatabase_clearedStorage]

/-! ## Behind the loop -/

/-- The rest of the wipe. -/
def finish (w : Wipe) (a : WipeAttempt) : ClientStorage :=
  let ended := if w.bTransactionStarted then w.endTransaction a.endTransaction else w
  ((ended.vacuum a.vacuum).cleanupAttachments a).storage

/-- The storage without the files that are removed. -/
def cleaned (s : ClientStorage) (a : WipeAttempt) : ClientStorage :=
  { s with attachments := s.attachments.filter fun file => !a.removed file }

theorem cleanupAttachments_ended {w : Wipe} (hended : w.bEnded = true) (a : WipeAttempt) :
    (w.cleanupAttachments a).storage = w.storage := by
  unfold cleanupAttachments
  rw [if_pos hended]

theorem cleanupAttachments_eq {w : Wipe} (hrun : w.bEnded = false) (a : WipeAttempt) :
    (w.cleanupAttachments a).storage = cleaned w.storage a := by
  unfold cleanupAttachments
  rw [if_neg (Bool.eq_false_iff.1 hrun)]
  rfl

theorem vacuum_cleanup_ended {w : Wipe} (hended : w.bEnded = true) (a : WipeAttempt) :
    ((w.vacuum a.vacuum).cleanupAttachments a).storage = w.storage := by
  have hvacuum : w.vacuum a.vacuum = w := sqliteExec_ended hended _ _ _
  rw [hvacuum, cleanupAttachments_ended hended]

/-- The vacuum, and the files where it returns. -/
theorem vacuum_cleanup {w : Wipe} (hrun : w.bEnded = false) (a : WipeAttempt) :
    ((w.vacuum a.vacuum).cleanupAttachments a).storage =
      if a.vacuum = .corrupt then w.storage.removeDatabase
      else if a.vacuum = .crash then w.storage
      else cleaned w.storage a := by
  have hvacuum : w.vacuum a.vacuum = _ := sqliteExec_of_not_ended hrun _ _ _
  rw [hvacuum]
  cases a.vacuum with
  | ok => exact cleanupAttachments_eq hrun a
  | error => exact cleanupAttachments_eq (w := { w with bRetVal := false }) hrun a
  | corrupt => exact cleanupAttachments_ended rfl a
  | crash => exact cleanupAttachments_ended rfl a

theorem finish_ended {w : Wipe} (hended : w.bEnded = true) (a : WipeAttempt) :
    w.finish a = w.storage := by
  unfold finish
  have hw : w.endTransaction a.endTransaction = w := sqliteExec_ended hended _ _ _
  rw [hw, ite_self]
  exact vacuum_cleanup_ended hended a

/-- Without a transaction of the wipe. -/
theorem finish_not_started {w : Wipe} (hrun : w.bEnded = false)
    (hstarted : w.bTransactionStarted = false) (a : WipeAttempt) :
    w.finish a =
      if a.vacuum = .corrupt then w.storage.removeDatabase
      else if a.vacuum = .crash then w.storage
      else cleaned w.storage a := by
  unfold finish
  rw [hstarted]
  exact vacuum_cleanup hrun a

/-- In the transaction of the wipe: its end, and the rest. -/
theorem finish_started {w : Wipe} (hrun : w.bEnded = false)
    (hstarted : w.bTransactionStarted = true) (a : WipeAttempt) :
    w.finish a = match a.endTransaction with
      | .ok =>
        if a.vacuum = .corrupt then w.storage.removeDatabase
        else if a.vacuum = .crash then { w.storage with rows := w.rows }
        else cleaned { w.storage with rows := w.rows } a
      | .error =>
        if a.vacuum = .corrupt then w.storage.removeDatabase
        else if a.vacuum = .crash then w.storage
        else cleaned w.storage a
      | .corrupt => w.storage.removeDatabase
      | .crash => w.storage := by
  unfold finish
  have hend : w.endTransaction a.endTransaction = _ := sqliteExec_of_not_ended hrun _ _ _
  rw [if_pos hstarted, hend]
  cases a.endTransaction with
  | ok =>
    exact vacuum_cleanup (w := { w with
      storage := { w.storage with rows := w.rows }
      bInTransaction := false
      bRetVal := false }) hrun a
  | error => exact vacuum_cleanup (w := { w with bRetVal := true }) hrun a
  | corrupt => exact vacuum_cleanup_ended rfl a
  | crash => exact vacuum_cleanup_ended rfl a

end Wipe

/-! ## The outcome of a start -/

namespace ClientStorage

open Wipe

/-- What is stored after a wipe that ends with `s'`. -/
structure Outcome (s : ClientStorage) (a : WipeAttempt) (s' : ClientStorage) : Prop where
  corrupt : s.Corrupt a → s' = s.removeDatabase
  cleared : ¬ s.Corrupt a → ∀ t, s.Clears a t → s'.rows t = []
  kept : ¬ s.Corrupt a → ∀ t, ¬ s.Clears a t → s'.rows t = s.rows t
  removed : ¬ s.Corrupt a → s.CleansUp a →
    s'.attachments = s.attachments.filter fun file => !a.removed file
  left : ¬ s.Corrupt a → ¬ s.CleansUp a → s'.attachments = s.attachments

theorem wipe_eq (s : ClientStorage) (a : WipeAttempt) :
    s.wipe a = (((s.opened a).startTransaction a.startTransaction).removeAll a
      ((s.opened a).startTransaction a.startTransaction).storage.tables).finish a := rfl

/-- The database is lost. -/
theorem outcome_of_corrupt {s : ClientStorage} {a : WipeAttempt} (hlost : s.Corrupt a) :
    Outcome s a s.removeDatabase :=
  ⟨fun _ => rfl, fun h => absurd hlost h, fun h => absurd hlost h, fun h => absurd hlost h,
    fun h => absurd hlost h⟩

/-- The process stops with nothing committed. -/
theorem outcome_of_crash {s : ClientStorage} {a : WipeAttempt} (hkeeps : ¬ s.Corrupt a)
    (hclears : ∀ t, ¬ s.Clears a t) (hcleans : ¬ s.CleansUp a) : Outcome s a s :=
  ⟨fun h => absurd h hkeeps, fun _ t ht => absurd ht (hclears t), fun _ _ _ => rfl,
    fun _ h => absurd h hcleans, fun _ _ => rfl⟩

/-- The process stops at `BEGIN`. -/
theorem outcome_of_start {s : ClientStorage} {a : WipeAttempt} (hends : a.startTransaction.Ends) :
    Outcome s a (s.wipe a) := by
  have hcorrupt : s.Corrupt a ↔ a.startTransaction = .corrupt := by
    unfold Corrupt statementEnds loopEnds
    simp [hends]
  have hstarts : ¬ StartsTransaction a := by
    rintro ⟨_, hok⟩
    rw [hok] at hends
    exact absurd hends (by decide)
  have hclears : ∀ t, ¬ s.Clears a t := by
    intro t hclears
    have hmode := hclears.2
    rw [if_neg hstarts] at hmode
    exact hmode.2.1 hends
  have hcleans : ¬ s.CleansUp a := by
    intro hall
    exact hall a.startTransaction (by simp [statementEnds, loopEnds]) hends
  have hwipe : s.wipe a = if a.startTransaction = .corrupt then s.removeDatabase else s := by
    have hstart : (s.opened a).startTransaction a.startTransaction = _ :=
      sqliteExec_ends rfl hends _ _
    rw [wipe_eq, hstart, removeAll_ended rfl]
    exact finish_ended rfl a
  rw [hwipe]
  by_cases hc : a.startTransaction = .corrupt
  · rw [if_pos hc]
    exact outcome_of_corrupt (hcorrupt.2 hc)
  · rw [if_neg hc]
    exact outcome_of_crash (fun h => hc (hcorrupt.1 h)) hclears hcleans

/-- Behind `BEGIN`, where it returns. -/
theorem startTransaction_eq {s : ClientStorage} {a : WipeAttempt}
    (hreturn : ¬ a.startTransaction.Ends) :
    (s.opened a).startTransaction a.startTransaction =
      ⟨s, s.rows, a.bInTransaction || decide (StartsTransaction a), decide (StartsTransaction a),
        false, false⟩ := by
  rcases a with ⟨bInTransaction, startTransaction, remove, endTransaction, vacuum, removed⟩
  cases startTransaction with
  | ok =>
    cases bInTransaction with
    | true => rfl
    | false => rfl
  | error =>
    cases bInTransaction with
    | true => rfl
    | false => rfl
  | corrupt => exact absurd (Or.inl rfl) hreturn
  | crash => exact absurd (Or.inr rfl) hreturn

/-- The process stops at the delete of a table. -/
theorem outcome_of_remove {s : ClientStorage} {a : WipeAttempt}
    (hreturn : ¬ a.startTransaction.Ends) {ts rest : List String} {t : String}
    (htables : s.tables = ts ++ t :: rest) (hts : ∀ u ∈ ts, ¬ (a.remove u).Ends)
    (hends : (a.remove t).Ends) : Outcome s a (s.wipe a) := by
  have hcorrupt : s.Corrupt a ↔ a.remove t = .corrupt := by
    have hfind : (ts.map a.remove).find? (fun r => decide r.Ends) = none := by
      rw [List.find?_eq_none]
      intro r hr
      rcases List.mem_map.1 hr with ⟨u, hu, rfl⟩
      simpa using hts u hu
    unfold Corrupt statementEnds loopEnds
    rw [htables]
    simp [hreturn, hfind, hends]
  have hreached : s.tables.takeWhile (fun u => decide (¬ (a.remove u).Ends)) = ts := by
    rw [htables, List.takeWhile_append_of_pos (by simpa using hts)]
    simp [hends]
  have hstop : a.remove t ∈ s.loopEnds a := by
    unfold loopEnds
    rw [htables]
    simp
  have hclears : ∀ u, s.Clears a u ↔ a.remove u = .ok ∧ ¬ StartsTransaction a ∧
      a.bInTransaction = false ∧ u ∈ ts := by
    intro u
    unfold Clears
    rw [hreached]
    split_ifs with hstarts
    · exact ⟨fun h => absurd hends (h.2.2.1 _ hstop), fun h => absurd hstarts h.2.1⟩
    · exact ⟨fun h => ⟨h.1, hstarts, h.2.1, h.2.2.2⟩,
        fun h => ⟨h.1, h.2.2.1, hreturn, h.2.2.2⟩⟩
  have hcleans : ¬ s.CleansUp a := by
    intro hall
    refine hall (a.remove t) ?_ hends
    unfold statementEnds
    simp [hstop]
  have hwipe : s.wipe a = if a.remove t = .corrupt then s.removeDatabase
      else if a.bInTransaction || decide (StartsTransaction a) then s
      else { s with rows := clearedRows a ts s.rows } := by
    have hloop := removeAll_ends
      (w := ⟨s, s.rows, a.bInTransaction || decide (StartsTransaction a),
        decide (StartsTransaction a), false, false⟩) rfl hts hends rest
    rw [wipe_eq, startTransaction_eq hreturn]
    rw [← htables] at hloop
    dsimp only
    rw [finish_ended hloop.1]
    exact hloop.2
  refine ⟨fun h => ?_, fun h u hu => ?_, fun h u hu => ?_, fun _ h => absurd h hcleans,
    fun h _ => ?_⟩
  · rw [hwipe, if_pos (hcorrupt.1 h)]
  · rcases (hclears u).1 hu with ⟨hok, hstarts, hin, hmem⟩
    rw [hwipe, if_neg fun hc => h (hcorrupt.2 hc), if_neg (by simp [hin, hstarts])]
    exact if_pos ⟨hmem, hok⟩
  · rw [hwipe, if_neg fun hc => h (hcorrupt.2 hc)]
    split_ifs with hopen
    · rfl
    · rw [Bool.or_eq_true, decide_eq_true_iff, not_or] at hopen
      refine if_neg fun hdone => hu ((hclears u).2 ⟨hdone.2, hopen.2, ?_, hdone.1⟩)
      exact Bool.eq_false_iff.2 hopen.1
  · rw [hwipe, if_neg fun hc => h (hcorrupt.2 hc)]
    split_ifs with hopen
    · rfl
    · rfl

/-- Statements that return come before the one that ends the process. -/
theorem find_ends_append {rs : List StatementEnd} (hrs : ∀ r ∈ rs, ¬ r.Ends)
    (rest : List StatementEnd) :
    (rs ++ rest).find? (fun r => decide r.Ends) = rest.find? (fun r => decide r.Ends) := by
  have hnone : rs.find? (fun r => decide r.Ends) = none := by
    rw [List.find?_eq_none]
    simpa using hrs
  rw [List.find?_append, hnone, Option.none_or]

theorem find_ends_singleton (r : StatementEnd) :
    [r].find? (fun r => decide r.Ends) = some .corrupt ↔ r = .corrupt := by
  cases r with
  | ok | error | corrupt | crash => decide

/-- The process comes to the vacuum, with the rows `rows`. -/
theorem outcome_of_vacuum {s : ClientStorage} {a : WipeAttempt}
    (rows : String → List (Owned Columns))
    (hcorrupt : s.Corrupt a ↔ a.vacuum = .corrupt) (hcleans : s.CleansUp a ↔ ¬ a.vacuum.Ends)
    (hcleared : ∀ t, s.Clears a t → rows t = []) (hkept : ∀ t, ¬ s.Clears a t → rows t = s.rows t) :
    Outcome s a
      (if a.vacuum = .corrupt then s.removeDatabase
      else if a.vacuum = .crash then { s with rows }
      else cleaned { s with rows } a) := by
  by_cases hc : a.vacuum = .corrupt
  · rw [if_pos hc]
    exact outcome_of_corrupt (hcorrupt.2 hc)
  · rw [if_neg hc]
    have hkeeps : ¬ s.Corrupt a := fun h => hc (hcorrupt.1 h)
    by_cases hcrash : a.vacuum = .crash
    · rw [if_pos hcrash]
      exact ⟨fun h => absurd h hkeeps, fun _ => hcleared, fun _ => hkept,
        fun _ h => absurd (Or.inr hcrash) (hcleans.1 h), fun _ _ => rfl⟩
    · rw [if_neg hcrash]
      have hall : s.CleansUp a := hcleans.2 fun h => h.elim hc hcrash
      exact ⟨fun h => absurd h hkeeps, fun _ => hcleared, fun _ => hkept, fun _ _ => rfl,
        fun _ h => absurd hall h⟩

/-- All statements up to the vacuum return. -/
theorem corrupt_iff_vacuum {s : ClientStorage} {a : WipeAttempt} {before : List StatementEnd}
    (hends : s.statementEnds a = before ++ [a.vacuum]) (hbefore : ∀ r ∈ before, ¬ r.Ends) :
    s.Corrupt a ↔ a.vacuum = .corrupt := by
  unfold Corrupt
  rw [hends, find_ends_append hbefore, find_ends_singleton]

theorem cleansUp_iff_vacuum {s : ClientStorage} {a : WipeAttempt} {before : List StatementEnd}
    (hends : s.statementEnds a = before ++ [a.vacuum]) (hbefore : ∀ r ∈ before, ¬ r.Ends) :
    s.CleansUp a ↔ ¬ a.vacuum.Ends := by
  unfold CleansUp
  rw [hends, List.forall_mem_append, List.forall_mem_singleton]
  exact ⟨fun h => h.2, fun h => ⟨hbefore, h⟩⟩

theorem loopEnds_return {s : ClientStorage} {a : WipeAttempt} (hreturn : ¬ a.startTransaction.Ends)
    (htables : ∀ u ∈ s.tables, ¬ (a.remove u).Ends) : ∀ r ∈ s.loopEnds a, ¬ r.Ends := by
  unfold loopEnds
  rw [List.forall_mem_cons]
  exact ⟨hreturn, by simpa using htables⟩

section Started

variable {s : ClientStorage} {a : WipeAttempt} (hstarts : StartsTransaction a)
  (htables : ∀ u ∈ s.tables, ¬ (a.remove u).Ends)

include hstarts

theorem startTransaction_return : ¬ a.startTransaction.Ends := by
  rw [hstarts.2]
  decide

theorem statementEnds_started :
    s.statementEnds a = s.loopEnds a ++ [a.endTransaction] ++ [a.vacuum] := by
  unfold statementEnds
  rw [if_pos hstarts]

include htables

/-- A transaction that is committed takes all its deletes with it. -/
theorem clears_started_iff {t : String} :
    s.Clears a t ↔ a.endTransaction = .ok ∧ t ∈ s.tables ∧ a.remove t = .ok := by
  have hloop := loopEnds_return (startTransaction_return hstarts) htables
  unfold Clears
  rw [if_pos hstarts]
  exact ⟨fun h => ⟨h.2.2.2, h.2.1, h.1⟩, fun h => ⟨h.2.2, h.2.1, hloop, h.1⟩⟩

theorem wipe_started : ∃ bRetVal, s.wipe a =
    (⟨s, clearedRows a s.tables s.rows, true, true, bRetVal, false⟩ : Wipe).finish a := by
  have hstart := startTransaction_eq (s := s) (startTransaction_return hstarts)
  rw [hstarts.1, decide_eq_true hstarts] at hstart
  rcases removeAll_eq (w := ⟨s, s.rows, true, true, false, false⟩) rfl htables with
    ⟨bRetVal, hloop⟩
  refine ⟨bRetVal, ?_⟩
  rw [wipe_eq, hstart]
  exact congrArg (Wipe.finish · a) hloop

/-- The process stops at `END`. -/
theorem outcome_of_end (hend : a.endTransaction.Ends) : Outcome s a (s.wipe a) := by
  have hends := statementEnds_started (s := s) hstarts
  have hcleans : ¬ s.CleansUp a := fun hall => hall a.endTransaction (by simp [hends]) hend
  have hcorrupt : s.Corrupt a ↔ a.endTransaction = .corrupt := by
    unfold Corrupt
    rw [hends, List.append_assoc,
      find_ends_append (loopEnds_return (startTransaction_return hstarts) htables)]
    simp [hend]
  rcases wipe_started hstarts htables with ⟨bRetVal, hwipe⟩
  rw [hwipe, finish_started rfl rfl]
  rcases hend with hend | hend
  · rw [hend]
    exact outcome_of_corrupt (hcorrupt.2 hend)
  · -- the transaction is rolled back when the file is opened again
    rw [hend]
    have hkeeps : ¬ s.Corrupt a := by
      rw [hcorrupt, hend]
      decide
    have hclears : ∀ t, ¬ s.Clears a t := by
      intro t ht
      rw [((clears_started_iff hstarts htables).1 ht).1] at hend
      cases hend
    exact outcome_of_crash hkeeps hclears hcleans

/-- The loop gets through, in the wipe's transaction. -/
theorem outcome_of_started : Outcome s a (s.wipe a) := by
  by_cases hend : a.endTransaction.Ends
  · exact outcome_of_end hstarts htables hend
  have hends := statementEnds_started (s := s) hstarts
  have hbefore : ∀ r ∈ s.loopEnds a ++ [a.endTransaction], ¬ r.Ends := by
    rw [List.forall_mem_append, List.forall_mem_singleton]
    exact ⟨loopEnds_return (startTransaction_return hstarts) htables, hend⟩
  have hcorrupt := corrupt_iff_vacuum hends hbefore
  have hcleans := cleansUp_iff_vacuum hends hbefore
  rcases wipe_started hstarts htables with ⟨bRetVal, hwipe⟩
  rw [hwipe, finish_started rfl rfl]
  cases hok : a.endTransaction with
  | ok =>
    refine outcome_of_vacuum (clearedRows a s.tables s.rows) hcorrupt hcleans ?_ ?_
    · exact fun t ht => if_pos ((clears_started_iff hstarts htables).1 ht).2
    · exact fun t ht => if_neg fun hdone =>
        ht ((clears_started_iff hstarts htables).2 ⟨hok, hdone⟩)
  | error =>
    -- the transaction stays open, and nothing of it is ever stored
    refine outcome_of_vacuum s.rows hcorrupt hcleans ?_ fun t _ => rfl
    intro t ht
    rw [((clears_started_iff hstarts htables).1 ht).1] at hok
    cases hok
  | corrupt => exact absurd (Or.inl hok) hend
  | crash => exact absurd (Or.inr hok) hend

end Started

/-- The loop gets through, in no transaction or in one that is not the wipe's. -/
theorem outcome_of_not_started {s : ClientStorage} {a : WipeAttempt}
    (hstarts : ¬ StartsTransaction a) (hreturn : ¬ a.startTransaction.Ends)
    (htables : ∀ u ∈ s.tables, ¬ (a.remove u).Ends) : Outcome s a (s.wipe a) := by
  have hreached : s.tables.takeWhile (fun u => decide (¬ (a.remove u).Ends)) = s.tables := by
    rw [List.takeWhile_eq_self_iff]
    simpa using htables
  have hclears : ∀ u, s.Clears a u ↔
      a.bInTransaction = false ∧ u ∈ s.tables ∧ a.remove u = .ok := by
    intro u
    unfold Clears
    rw [if_neg hstarts, hreached]
    exact ⟨fun h => ⟨h.2.1, h.2.2.2, h.1⟩, fun h => ⟨h.2.2, h.1, hreturn, h.2.1⟩⟩
  have hends : s.statementEnds a = s.loopEnds a ++ [a.vacuum] := by
    unfold statementEnds
    rw [if_neg hstarts, List.append_nil]
  have hcorrupt := corrupt_iff_vacuum hends (loopEnds_return hreturn htables)
  have hcleans := cleansUp_iff_vacuum hends (loopEnds_return hreturn htables)
  have hstart := startTransaction_eq (s := s) hreturn
  rw [decide_eq_false hstarts, Bool.or_false] at hstart
  rcases removeAll_eq (w := ⟨s, s.rows, a.bInTransaction, false, false, false⟩) rfl htables with
    ⟨bRetVal, hloop⟩
  have hwipe : s.wipe a = (⟨if a.bInTransaction then s
      else { s with rows := clearedRows a s.tables s.rows }, clearedRows a s.tables s.rows,
      a.bInTransaction, false, bRetVal, false⟩ : Wipe).finish a := by
    rw [wipe_eq, hstart]
    exact congrArg (Wipe.finish · a) hloop
  rw [hwipe, finish_not_started rfl rfl]
  dsimp only
  cases hin : a.bInTransaction with
  | true =>
    -- the deletes belong to a transaction that nobody ends
    refine outcome_of_vacuum s.rows hcorrupt hcleans ?_ fun t _ => rfl
    intro t ht
    rw [((hclears t).1 ht).1] at hin
    cases hin
  | false =>
    refine outcome_of_vacuum (clearedRows a s.tables s.rows) hcorrupt hcleans ?_ ?_
    · exact fun t ht => if_pos ((hclears t).1 ht).2
    · exact fun t ht => if_neg fun hdone => ht ((hclears t).2 ⟨hin, hdone⟩)

theorem outcome_wipe (s : ClientStorage) (a : WipeAttempt) : Outcome s a (s.wipe a) := by
  by_cases hstart : a.startTransaction.Ends
  · exact outcome_of_start hstart
  cases hfind : s.tables.find? (fun u => decide (a.remove u).Ends) with
  | none =>
    rw [List.find?_eq_none] at hfind
    have hloop : ∀ u ∈ s.tables, ¬ (a.remove u).Ends := by simpa using hfind
    by_cases hstarts : StartsTransaction a
    · exact outcome_of_started hstarts hloop
    · exact outcome_of_not_started hstarts hstart hloop
  | some t =>
    -- the first delete that does not return
    rw [List.find?_eq_some_iff_append] at hfind
    rcases hfind with ⟨hends, ts, rest, htables, hts⟩
    exact outcome_of_remove hstart htables (by simpa using hts) (by simpa using hends)

/-! ## What is left -/

theorem not_disassociated_of_empty {s : ClientStorage} (hrows : s.rows "LocalConfig" = []) :
    ¬ s.Disassociated := by
  unfold Disassociated get
  rw [hrows]
  decide

theorem disassociated_congr {s s' : ClientStorage}
    (hrows : s'.rows "LocalConfig" = s.rows "LocalConfig") :
    s'.Disassociated ↔ s.Disassociated := by
  unfold Disassociated get
  rw [hrows]

variable {s : ClientStorage} {a : WipeAttempt}

theorem oldRow_wipe_iff (h : ¬ s.Corrupt a) (t : String) :
    (s.wipe a).OldRow t ↔ s.OldRow t ∧ ¬ s.Clears a t := by
  unfold OldRow
  by_cases ht : s.Clears a t
  · rw [(outcome_wipe s a).cleared h t ht]
    exact iff_of_false (fun ⟨_, hrow, _⟩ => absurd hrow List.not_mem_nil) fun hboth => hboth.2 ht
  · rw [(outcome_wipe s a).kept h t ht]
    exact ⟨fun hrow => ⟨hrow, ht⟩, fun hboth => hboth.1⟩

theorem oldFile_wipe_iff (h : ¬ s.Corrupt a) (file : Owned String) :
    (s.wipe a).OldFile file ↔ s.OldFile file ∧ ¬ (s.CleansUp a ∧ a.removed file = true) := by
  unfold OldFile
  by_cases hall : s.CleansUp a
  · rw [(outcome_wipe s a).removed h hall, List.mem_filter]
    constructor
    · rintro ⟨⟨hfile, hkept⟩, hold⟩
      refine ⟨⟨hfile, hold⟩, fun hgone => ?_⟩
      rw [hgone.2] at hkept
      cases hkept
    · rintro ⟨⟨hfile, hold⟩, hkept⟩
      have hleft : a.removed file = false := Bool.eq_false_iff.2 fun hgone => hkept ⟨hall, hgone⟩
      exact ⟨⟨hfile, by rw [hleft]; rfl⟩, hold⟩
  · rw [(outcome_wipe s a).left h hall]
    exact ⟨fun hold => ⟨hold, fun hgone => hall hgone.1⟩, fun hboth => hboth.1⟩

/-- A start that finds the flag. -/
theorem safe_wipe_iff (hflag : s.Disassociated) : (s.wipe a).Safe ↔ Sound s a := by
  by_cases hcorrupt : s.Corrupt a
  · have hwipe : s.wipe a = s.removeDatabase := (outcome_wipe s a).corrupt hcorrupt
    have hgone : ¬ (s.wipe a).Disassociated := by
      rw [hwipe]
      exact not_disassociated_of_empty rfl
    constructor
    · refine fun hsafe => ⟨fun _ file hold => hgone (hsafe (Or.inr ⟨file, ?_⟩)),
        fun h => absurd hcorrupt h, fun h => absurd hcorrupt h⟩
      rw [hwipe]
      exact hold
    · rintro hsound (⟨t, row, hrow, _⟩ | ⟨file, hold⟩)
      · rw [hwipe] at hrow
        exact absurd hrow List.not_mem_nil
      · rw [hwipe] at hold
        exact absurd hold (hsound.corrupt hcorrupt file)
  by_cases hlocal : s.Clears a "LocalConfig"
  · have hgone : ¬ (s.wipe a).Disassociated :=
      not_disassociated_of_empty ((outcome_wipe s a).cleared hcorrupt _ hlocal)
    constructor
    · intro hsafe
      refine ⟨fun h => absurd h hcorrupt, fun _ _ t hold => ?_, fun _ _ file hold => ?_⟩
      · by_contra hleft
        exact hgone (hsafe (Or.inl ⟨t, (oldRow_wipe_iff hcorrupt t).2 ⟨hold, hleft⟩⟩))
      · by_contra hleft
        exact hgone (hsafe (Or.inr ⟨file, (oldFile_wipe_iff hcorrupt file).2 ⟨hold, hleft⟩⟩))
    · rintro hsound (⟨t, hrow⟩ | ⟨file, hfile⟩)
      · rcases (oldRow_wipe_iff hcorrupt t).1 hrow with ⟨hold, hleft⟩
        exact absurd (hsound.row hcorrupt hlocal t hold) hleft
      · rcases (oldFile_wipe_iff hcorrupt file).1 hfile with ⟨hold, hleft⟩
        exact absurd (hsound.file hcorrupt hlocal file hold) hleft
  · -- the flag stays
    have hkept : (s.wipe a).Disassociated :=
      (disassociated_congr ((outcome_wipe s a).kept hcorrupt _ hlocal)).2 hflag
    exact iff_of_true (fun _ => hkept)
      ⟨fun h => absurd h hcorrupt, fun _ h => absurd h hlocal, fun _ h => absurd h hlocal⟩

/-- A wipe whose statements all succeed, in its own transaction, and that removes every file. -/
theorem sound_of_ok (hlisted : ∀ t, s.OldRow t → t ∈ s.tables) (hstarts : StartsTransaction a)
    (hok : ∀ r ∈ s.statementEnds a, r = .ok) (hremoved : ∀ file, a.removed file = true) :
    Sound s a := by
  have hreturn : ∀ r ∈ s.statementEnds a, ¬ r.Ends := by
    intro r hr
    rw [hok r hr]
    decide
  have hloop : s.loopEnds a ⊆ s.statementEnds a := by
    unfold statementEnds
    rw [List.append_assoc]
    exact List.subset_append_left _ _
  have hend : a.endTransaction = .ok := by
    refine hok _ ?_
    unfold statementEnds
    rw [if_pos hstarts]
    simp
  have hclears : ∀ t, s.OldRow t → s.Clears a t := by
    intro t hold
    have hmem : t ∈ s.tables := hlisted t hold
    refine ⟨hok _ (hloop ?_), ?_⟩
    · exact List.mem_cons_of_mem _ (List.mem_map_of_mem hmem)
    · rw [if_pos hstarts]
      exact ⟨hmem, fun r hr => hreturn r (hloop hr), hend⟩
  refine ⟨fun hcorrupt => ?_, fun _ _ => hclears, fun _ _ file _ => ⟨hreturn, hremoved file⟩⟩
  exact absurd (hok _ (List.mem_of_find?_eq_some hcorrupt)) nofun

/-! ## Runs -/

/-- The start finds no flag, or its statements come out well. -/
def StartOk (s : ClientStorage) : WipeStep → Prop
  | .start a => s.Disassociated → Sound s a
  | .work _ => True

theorem safe_next_iff {s s' : ClientStorage} {step : WipeStep} (hs : s.Safe)
    (hnext : s.next step = some s') : s'.Safe ↔ s.StartOk step := by
  cases step with
  | start a =>
    cases hnext
    by_cases hflag : s.Disassociated
    · rw [if_pos hflag, safe_wipe_iff hflag]
      exact ⟨fun h _ => h, fun h => h hflag⟩
    · rw [if_neg hflag]
      exact iff_of_true hs fun h => absurd h hflag
  | work w =>
    cases hnext
    exact iff_of_true (fun hleft => (w.flag s).2 (hs (w.remains s hleft))) trivial

/-- From a disassociation on, whatever is stored: the flag stays as long as something of the
previous owner does iff at each start that finds it the statements come out well. -/
theorem safe_runs_iff {s s' : ClientStorage} {run : List WipeStep} (hflag : s.Disassociated)
    (hrun : Lib.exec next s run = some s') :
    (∀ pre, pre <+: run → ∀ t, Lib.exec next s pre = some t → t.Safe) ↔
      Lib.Along next StartOk s run :=
  (Lib.along_iff (fun _ _ _ => safe_next_iff) run s s' (fun _ => hflag) hrun).symm

/-- A device with an event and an attachment. -/
def disassociatedDevice : ClientStorage where
  tables := ["EVENT_STORE", "LocalConfig"]
  rows := fun t =>
    if t = "LocalConfig" then [⟨[("key", "deviceDisassociated"), ("value", "true")], true⟩]
    else if t = "EVENT_STORE" then [⟨[("EVENTID", "Speed")], true⟩]
    else []
  attachments := [⟨"trace.zip", true⟩]

/-- Every statement succeeds, and all files are removed. -/
def goodAttempt : WipeAttempt := ⟨false, .ok, fun _ => .ok, .ok, .ok, fun _ => true⟩

/-- The first start stops at the vacuum, with the transaction not committed; the second one gets
through. -/
def twoStarts : List WipeStep :=
  [.start { goodAttempt with endTransaction := .error, vacuum := .crash }, .start goodAttempt]

theorem safe_runs_iff_twoStarts :
    ∃ s, Lib.exec next disassociatedDevice twoStarts = some s ∧
      ∀ pre, pre <+: twoStarts → ∀ t, Lib.exec next disassociatedDevice pre = some t → t.Safe := by
  have hflag : disassociatedDevice.Disassociated := by decide +kernel
  obtain ⟨s, hrun⟩ : ∃ s, Lib.exec next disassociatedDevice twoStarts = some s := ⟨_, rfl⟩
  refine ⟨s, hrun, (safe_runs_iff hflag hrun).2 (Lib.along_cons (t := disassociatedDevice) rfl ?_
    (Lib.along_cons rfl ?_ trivial))⟩
  · intro _
    have hkept : ¬ disassociatedDevice.Clears
        { goodAttempt with endTransaction := .error, vacuum := .crash } "LocalConfig" :=
      fun hclears => nomatch hclears.2.2.2
    have hkeeps : ¬ disassociatedDevice.Corrupt
        { goodAttempt with endTransaction := .error, vacuum := .crash } := by
      unfold Corrupt
      decide +kernel
    exact ⟨fun h => absurd h hkeeps, fun _ h => absurd h hkept, fun _ h => absurd h hkept⟩
  · intro _
    refine sound_of_ok ?_ ⟨rfl, rfl⟩ (by decide +kernel) fun _ => rfl
    rintro t ⟨row, hrow, _⟩
    show t ∈ ["EVENT_STORE", "LocalConfig"]
    by_contra hother
    rw [List.mem_cons, List.mem_singleton, not_or] at hother
    simp [disassociatedDevice, hother] at hrow

/-- The delete of the events fails, and the loop goes on: the row of the flag is deleted, and the
transaction is committed. -/
theorem not_safe_failedDelete :
    ∃ t, Lib.exec next disassociatedDevice [.start { goodAttempt with
        remove := fun t => if t = "EVENT_STORE" then .error else .ok }] = some t ∧
      ¬ t.Disassociated ∧ t.OldRow "EVENT_STORE" ∧ ¬ t.Safe := by
  have hgone : ¬ (disassociatedDevice.wipe { goodAttempt with
      remove := fun t => if t = "EVENT_STORE" then .error else .ok }).Disassociated := by
    decide +kernel
  have hrow : (disassociatedDevice.wipe { goodAttempt with
      remove := fun t => if t = "EVENT_STORE" then .error else .ok }).OldRow "EVENT_STORE" :=
    ⟨⟨[("EVENTID", "Speed")], true⟩, by decide +kernel, rfl⟩
  refine ⟨_, rfl, hgone, hrow, fun hsafe => hgone (hsafe (Or.inl ⟨_, hrow⟩))⟩

end ClientStorage

end DeviceClient
