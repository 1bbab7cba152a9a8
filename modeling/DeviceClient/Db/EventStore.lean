import DeviceClient.Lib.Table
import Mathlib.Logic.Function.Basic

/-!
# The event and the alert table

The rows of `EVENT_STORE` and `ALERT_STORE` and the statements that the client
runs on them. The alert table has no stream and no batch column; its rows keep
their defaults here and no statement on it reads them.

Every statement is taken to succeed. A query without an order clause returns
its rows in row id order, one with an order clause sorts that list stably.
-/

namespace DeviceClient

/-- The tables whose rows are uploaded and carry a mid. -/
inductive StoreTable where
  | eventStore
  | alertStore
deriving DecidableEq, Repr

/-- A row; flags and counters hold the column's integer. -/
structure EventRow where
  id : ℕ
  eventId : String
  timestamp : Option ℤ
  timezone : ℤ
  size : ℤ
  hasAttach : ℤ
  events : String
  topic : Option String
  mid : ℤ
  streamSupport : ℤ
  batchSupport : ℤ
deriving DecidableEq, Repr

namespace EventRow

def setMid (r : EventRow) (nMid : ℤ) : EventRow := { r with mid := nMid }

def setStreamSupport (r : EventRow) (n : ℤ) : EventRow := { r with streamSupport := n }

def setBatchSupport (r : EventRow) (n : ℤ) : EventRow := { r with batchSupport := n }

@[simp] theorem setMid_id (r : EventRow) (n : ℤ) : (r.setMid n).id = r.id := rfl
@[simp] theorem setMid_mid (r : EventRow) (n : ℤ) : (r.setMid n).mid = n := rfl
@[simp] theorem setMid_streamSupport (r : EventRow) (n : ℤ) :
    (r.setMid n).streamSupport = r.streamSupport := rfl
@[simp] theorem setMid_batchSupport (r : EventRow) (n : ℤ) :
    (r.setMid n).batchSupport = r.batchSupport := rfl
@[simp] theorem setMid_topic (r : EventRow) (n : ℤ) : (r.setMid n).topic = r.topic := rfl
@[simp] theorem setStreamSupport_id (r : EventRow) (n : ℤ) :
    (r.setStreamSupport n).id = r.id := rfl
@[simp] theorem setStreamSupport_mid (r : EventRow) (n : ℤ) :
    (r.setStreamSupport n).mid = r.mid := rfl
@[simp] theorem setStreamSupport_streamSupport (r : EventRow) (n : ℤ) :
    (r.setStreamSupport n).streamSupport = n := rfl
@[simp] theorem setStreamSupport_batchSupport (r : EventRow) (n : ℤ) :
    (r.setStreamSupport n).batchSupport = r.batchSupport := rfl
@[simp] theorem setStreamSupport_topic (r : EventRow) (n : ℤ) :
    (r.setStreamSupport n).topic = r.topic := rfl
@[simp] theorem setBatchSupport_id (r : EventRow) (n : ℤ) :
    (r.setBatchSupport n).id = r.id := rfl
@[simp] theorem setBatchSupport_streamSupport (r : EventRow) (n : ℤ) :
    (r.setBatchSupport n).streamSupport = r.streamSupport := rfl
@[simp] theorem setBatchSupport_topic (r : EventRow) (n : ℤ) :
    (r.setBatchSupport n).topic = r.topic := rfl

/-- The column `TIMESTAMP` as SQLite orders it: `NULL` comes first. -/
def timestampKey (r : EventRow) : WithBot ℤ := r.timestamp

end EventRow

/-- One table. -/
abbrev EventTable := Lib.Table EventRow.id

/-- The two tables. -/
abbrev Db := StoreTable → EventTable

namespace Db

/-- `INSERT INTO t`; the id is the next one. -/
def insert (db : Db) (t : StoreTable) (data : EventRow) : Db :=
  Function.update db t ((db t).insert (fun n => { data with id := n }) fun _ => rfl)

/-- `DELETE FROM t WHERE p`. -/
def remove (db : Db) (t : StoreTable) (p : EventRow → Bool) : Db :=
  Function.update db t ((db t).remove p)

/-- `UPDATE t SET MID = n WHERE p`. -/
def updateMid (db : Db) (t : StoreTable) (p : EventRow → Bool) (n : ℤ) : Db :=
  Function.update db t ((db t).update p (fun r => r.setMid n) fun r => r.setMid_id n)

/-- `UPDATE t SET STREAM = n WHERE p`. -/
def updateStreamSupport (db : Db) (t : StoreTable) (p : EventRow → Bool) (n : ℤ) : Db :=
  Function.update db t ((db t).update p (fun r => r.setStreamSupport n) fun r => r.setStreamSupport_id n)

/-- An insert into one table adds a row there and leaves the other table alone. -/
theorem mem_insert {db : Db} {t t' : StoreTable} {data r : EventRow}
    (h : r ∈ (db.insert t data t').rows) :
    r ∈ (db t').rows ∨ (t' = t ∧ r = { data with id := (db t).nextKey }) := by
  unfold insert at h
  by_cases ht : t' = t
  · subst ht
    rw [Function.update_self, Lib.Table.mem_insert] at h
    rcases h with h | h
    · exact Or.inl h
    · exact Or.inr ⟨rfl, h⟩
  · rw [Function.update_of_ne ht] at h
    exact Or.inl h

end Db

end DeviceClient
