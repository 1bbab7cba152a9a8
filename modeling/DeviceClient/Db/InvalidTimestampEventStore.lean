import DeviceClient.Lib.Table
import Mathlib.Algebra.Order.Ring.Unbundled.Rat

/-!
# The store of events with an invalid timestamp

`CInvalidTimestampEventStore`: events wait in the table `INVALID_EVENT_STORE`
until their timestamps can be fixed. A row holds an event as its encrypted JSON
text, which stands here for the event written; reading it back by `JsonToEvent`
drops the fraction of the timestamp and throws on a negative one. The
constructor of the instance empties the table.

* `insertEvents_of_readable` and `insertEvents_of_neg`: storing a list of events.
* `inOrder_deleteEvents`: what is left after a page has been read and deleted.
-/

namespace DeviceClient

/-- An event as the timestamp validation reads and changes it. -/
structure TsEvent where
  strEventId : String
  dblTimestamp : ℚ
  originalTimestamp : Option ℚ
  strData : String
deriving DecidableEq

/-- `JsonToEvent` of the text that `EventToJson` has written: `asUInt64` throws on
what is not in its range. -/
def TsEvent.jsonToEvent (event : TsEvent) : Option TsEvent :=
  if event.dblTimestamp < 0 ∨ 2 ^ 64 - 1 < event.dblTimestamp then none
  else some { event with dblTimestamp := (event.dblTimestamp.floor : ℚ) }

structure InvalidEventRow where
  id : ℕ
  timestamp : ℤ
  events : TsEvent

abbrev InvalidEventTable := Lib.Table InvalidEventRow.id

namespace InvalidTimestampEventStore

/-- `InsertIntoDb`; `none` if `JsonToEvent` throws. -/
def insertIntoDb (table : InvalidEventTable) (event : TsEvent) : Option InvalidEventTable :=
  event.jsonToEvent.map fun parsed =>
    table.insert (fun n => ⟨n, parsed.dblTimestamp.floor, event⟩) fun _ => rfl

/-- The loop of `InsertEvents`. -/
def insertAll : List TsEvent → InvalidEventTable → Option InvalidEventTable
  | [], table => some table
  | event :: rest, table => (insertIntoDb table event).bind (insertAll rest)

/-- The rows read by `RetriveEvents`. -/
def retriveEvents (nNumRowsRequested : ℕ) (table : InvalidEventTable) : List InvalidEventRow :=
  Lib.limit nNumRowsRequested (Lib.orderBy InvalidEventRow.timestamp table.rows)

/-- `DeleteEvents`. -/
def deleteEvents (rlistRowIds : List ℕ) (table : InvalidEventTable) : InvalidEventTable :=
  if rlistRowIds = [] then table else table.remove fun r => decide (r.id ∈ rlistRowIds)

/-- `PurgeInvalidEvents`: the oldest rows go. -/
def purgeInvalidEvents (nEvSize : ℕ) (table : InvalidEventTable) : InvalidEventTable :=
  deleteEvents ((retriveEvents nEvSize table).map InvalidEventRow.id) table

/-- `InsertEvents`; `bDbOverLimit` tells whether the database is over its limit. -/
def insertEvents (rlistEvents : List TsEvent) (bDbOverLimit : Bool) (table : InvalidEventTable) :
    Option InvalidEventTable :=
  if rlistEvents = [] then some table
  else insertAll rlistEvents
    (if bDbOverLimit then purgeInvalidEvents rlistEvents.length table else table)

/-! ## Storing -/

/-- A timestamp that can be read back. -/
def Readable (event : TsEvent) : Prop := 0 ≤ event.dblTimestamp ∧ event.dblTimestamp ≤ 2 ^ 64 - 1

theorem jsonToEvent_of_readable {event : TsEvent} (h : Readable event) :
    event.jsonToEvent = some { event with dblTimestamp := (event.dblTimestamp.floor : ℚ) } := by
  unfold TsEvent.jsonToEvent
  rw [if_neg]
  rintro (hneg | hbig)
  · exact absurd hneg (not_lt.2 h.1)
  · exact absurd hbig (not_lt.2 h.2)

/-- The rows of `table` hold `stored` in this order, each with its timestamp. -/
structure Holds (table : InvalidEventTable) (stored : List TsEvent) : Prop where
  events : table.rows.map InvalidEventRow.events = stored
  timestamps : ∀ r ∈ table.rows, r.timestamp = r.events.dblTimestamp.floor
  readable : ∀ event ∈ stored, Readable event

theorem holds_empty : Holds Lib.Table.empty [] where
  events := rfl
  timestamps := by
    intro r hr
    cases hr
  readable := by
    intro event hevent
    cases hevent

theorem insertIntoDb_of_readable {table : InvalidEventTable} {stored : List TsEvent}
    (h : Holds table stored) {event : TsEvent} (hevent : Readable event) :
    ∃ table', insertIntoDb table event = some table' ∧ Holds table' (stored ++ [event]) := by
  unfold insertIntoDb
  rw [jsonToEvent_of_readable hevent]
  refine ⟨_, rfl, ?_, ?_, ?_⟩
  · show (table.rows ++ [_]).map InvalidEventRow.events = _
    rw [List.map_append, h.events]
    rfl
  · intro r hr
    rcases Lib.Table.mem_insert.1 hr with hold | rfl
    · exact h.timestamps r hold
    · exact Rat.floor_intCast _
  · intro e he
    rcases List.mem_append.1 he with hold | hnew
    · exact h.readable e hold
    · rw [List.mem_singleton.1 hnew]
      exact hevent

theorem insertAll_of_readable {events : List TsEvent} :
    ∀ {table : InvalidEventTable} {stored : List TsEvent}, Holds table stored →
      (∀ event ∈ events, Readable event) →
      ∃ table', insertAll events table = some table' ∧ Holds table' (stored ++ events) := by
  induction events with
  | nil =>
    intro table stored h _
    exact ⟨table, rfl, by rwa [List.append_nil]⟩
  | cons event rest ih =>
    intro table stored h hall
    rcases insertIntoDb_of_readable h (hall event List.mem_cons_self) with ⟨t, ht, hholds⟩
    rcases ih hholds (fun e he => hall e (List.mem_cons_of_mem event he)) with ⟨t', ht', hholds'⟩
    refine ⟨t', ?_, ?_⟩
    · unfold insertAll
      rw [ht]
      exact ht'
    · rwa [List.append_assoc] at hholds'

/-- A negative timestamp makes the loop throw. -/
theorem insertAll_of_neg {events : List TsEvent} :
    ∀ table : InvalidEventTable, (∃ event ∈ events, event.dblTimestamp < 0) →
      insertAll events table = none := by
  induction events with
  | nil =>
    rintro table ⟨event, hevent, _⟩
    cases hevent
  | cons event rest ih =>
    rintro table ⟨e, he, hneg⟩
    unfold insertAll
    rcases List.mem_cons.1 he with rfl | hrest
    · have hthrow : e.jsonToEvent = none := if_pos (Or.inl hneg)
      unfold insertIntoDb
      rw [hthrow]
      rfl
    · cases hins : insertIntoDb table event with
      | none => rfl
      | some t => exact ih t ⟨e, hrest, hneg⟩

theorem insertEvents_of_readable {table : InvalidEventTable} {stored events : List TsEvent}
    (h : Holds table stored) (hall : ∀ event ∈ events, Readable event) :
    ∃ table', insertEvents events false table = some table' ∧ Holds table' (stored ++ events) := by
  unfold insertEvents
  split
  · rename_i hnil
    exact ⟨table, rfl, by rwa [hnil, List.append_nil]⟩
  · exact insertAll_of_readable h hall

theorem insertEvents_of_neg (table : InvalidEventTable) {events : List TsEvent}
    (hneg : ∃ event ∈ events, event.dblTimestamp < 0) : insertEvents events false table = none := by
  unfold insertEvents
  rw [if_neg]
  · exact insertAll_of_neg table hneg
  · rintro rfl
    rcases hneg with ⟨event, hevent, _⟩
    cases hevent

/-! ## Reading -/

/-- The rows in the order in which they are read. -/
def inOrder (table : InvalidEventTable) : List InvalidEventRow :=
  Lib.orderBy InvalidEventRow.timestamp table.rows

theorem mem_of_mem_deleteEvents {ids : List ℕ} {table : InvalidEventTable} {r : InvalidEventRow}
    (h : r ∈ (deleteEvents ids table).rows) : r ∈ table.rows := by
  unfold deleteEvents at h
  split at h
  · exact h
  · exact (Lib.Table.mem_remove.1 h).1

/-- A page is read and deleted: the rest is read as if it had not been there. -/
theorem inOrder_deleteEvents (table : InvalidEventTable) {n : ℕ} (hn : 0 < n) :
    inOrder (deleteEvents ((retriveEvents n table).map InvalidEventRow.id) table) =
      (inOrder table).drop n := by
  unfold deleteEvents
  split
  · rename_i hnil
    have hpage : retriveEvents n table = [] := List.map_eq_nil_iff.1 hnil
    have hrows : inOrder table = [] := Lib.limit_eq_nil.1 hpage
    rw [hrows, List.drop_nil]
  · exact Lib.orderBy_remove_limit table InvalidEventRow.timestamp hn

end InvalidTimestampEventStore

end DeviceClient
