import DeviceClient.Db.EventStore
import DeviceClient.Lib.SortedSet

/-!
# Corrupted events between two queries

The stream upload queries a page of rows, puts aside those whose payload does
not decrypt to parsable JSON, and queries again when nothing is left of the
page. Rows put aside are excluded from the next query by id and deleted in
groups of `NO_OF_CORRUPTED_EVENTS_TO_DELETE_IN_SINGLE_QUERY`.

What the next query can see is the same whether a row is excluded or deleted
already, and no other row is lost on the way.

* `visible_validateCorruptedEventIds`: deleting the group changes nothing the
  next query sees.
* `visible_add`: putting a page's corrupted rows aside takes them out of sight.
* `visible_good`: the rows worth uploading stay the same throughout.
-/

namespace DeviceClient

/-- Decryption and the JSON reader, as far as the upload looks at them. -/
structure PayloadReader where
  decryptEventData : String → String
  parse : String → Bool

/-- The payload is empty after decryption or does not parse. -/
def PayloadReader.corrupted (rd : PayloadReader) (r : EventRow) : Bool :=
  (rd.decryptEventData r.events).isEmpty || !rd.parse (rd.decryptEventData r.events)

theorem filter_corrupted_eq_nil {rd : PayloadReader} {page : List EventRow}
    (hgood : ∀ r ∈ page, rd.corrupted r = false) : page.filter rd.corrupted = [] := by
  rw [List.filter_eq_nil_iff]
  intro r hr hc
  rw [hgood r hr] at hc
  cases hc

theorem filter_not_corrupted_eq_self {rd : PayloadReader} {page : List EventRow}
    (hgood : ∀ r ∈ page, rd.corrupted r = false) :
    page.filter (fun r => !rd.corrupted r) = page := by
  refine List.filter_eq_self.2 fun r hr => ?_
  rw [hgood r hr]
  rfl

def NO_OF_CORRUPTED_EVENTS_TO_DELETE_IN_SINGLE_QUERY : ℕ := 100

/-- The ids put aside, as the text of the next query and as the set to delete. -/
structure CorruptedEvents where
  strTotalCorruptedEvIds : List ℕ
  setCorruptedEvIds : Lib.SortedSet ℕ
  same : ∀ id, id ∈ setCorruptedEvIds ↔ id ∈ strTotalCorruptedEvIds

namespace CorruptedEvents

def empty : CorruptedEvents := ⟨[], Lib.SortedSet.empty, fun id => by simp⟩

/-- `AddCorruptedEventToList` and the insertion that goes with it. -/
def add (c : CorruptedEvents) (llId : ℕ) : CorruptedEvents where
  strTotalCorruptedEvIds := c.strTotalCorruptedEvIds ++ [llId]
  setCorruptedEvIds := c.setCorruptedEvIds.insert llId
  same := by
    intro id
    rw [Lib.SortedSet.mem_insert, c.same, List.mem_append, List.mem_singleton, or_comm]

instance : Membership ℕ CorruptedEvents := ⟨fun c id => id ∈ c.strTotalCorruptedEvIds⟩

instance (id : ℕ) (c : CorruptedEvents) : Decidable (id ∈ c) :=
  inferInstanceAs (Decidable (id ∈ c.strTotalCorruptedEvIds))

@[simp] theorem not_mem_empty {id : ℕ} : ¬ id ∈ empty := List.not_mem_nil

theorem mem_def {c : CorruptedEvents} {id : ℕ} : id ∈ c ↔ id ∈ c.strTotalCorruptedEvIds := Iff.rfl

theorem mem_add {c : CorruptedEvents} {llId id : ℕ} : id ∈ c.add llId ↔ id ∈ c ∨ id = llId := by
  rw [mem_def, mem_def]
  simp [add]

theorem mem_foldl_add (ids : List ℕ) {c : CorruptedEvents} {id : ℕ} :
    id ∈ ids.foldl add c ↔ id ∈ c ∨ id ∈ ids := by
  induction ids generalizing c with
  | nil => simp
  | cons a ids ih =>
    rw [List.foldl_cons, ih, mem_add, List.mem_cons, or_assoc]

end CorruptedEvents

/-- `DeleteCorruptedEvents`. -/
def deleteCorruptedEvents (table : EventTable) (rsetIds : Lib.SortedSet ℕ) : EventTable :=
  if rsetIds.elems = [] then table else table.remove fun r => decide (r.id ∈ rsetIds)

/-- `DeleteCorruptedEventsIfPresent`. -/
def deleteCorruptedEventsIfPresent (table : EventTable) (rsetIds : Lib.SortedSet ℕ) : EventTable :=
  if 0 < rsetIds.elems.length then deleteCorruptedEvents table rsetIds else table

/-- `ValidateCorruptedEventIds`: delete a group that has grown to the limit. -/
def validateCorruptedEventIds (table : EventTable) (c : CorruptedEvents) :
    EventTable × CorruptedEvents :=
  if NO_OF_CORRUPTED_EVENTS_TO_DELETE_IN_SINGLE_QUERY ≤ c.setCorruptedEvIds.elems.length then
    (deleteCorruptedEvents table c.setCorruptedEvIds, CorruptedEvents.empty)
  else (table, c)

/-- `Query` with the corrupted ids excluded, oldest rows first. An empty list
of ids excludes nothing, a limit that is not positive is none. -/
def queryPage (table : EventTable) (c : CorruptedEvents) (selection : EventRow → Bool)
    (nNumRowsRequested : ℤ) : List EventRow :=
  Lib.limit nNumRowsRequested.toNat
    (Lib.orderBy EventRow.timestampKey
      (table.rows.filter fun r => selection r && decide (r.id ∉ c)))

/-- The rows that the next query selects, without its limit. -/
def visible (table : EventTable) (c : CorruptedEvents) (selection : EventRow → Bool) :
    List EventRow :=
  Lib.orderBy EventRow.timestampKey
    (table.rows.filter fun r => selection r && decide (r.id ∉ c))

/-- The rows of a table that the upload may send, oldest first. -/
def good (rd : PayloadReader) (table : EventTable) (selection : EventRow → Bool) :
    List EventRow :=
  Lib.orderBy EventRow.timestampKey
    (table.rows.filter fun r => selection r && !rd.corrupted r)

theorem queryPage_eq (table : EventTable) (c : CorruptedEvents) (selection : EventRow → Bool)
    (n : ℤ) : queryPage table c selection n = Lib.limit n.toNat (visible table c selection) := rfl

theorem mem_visible {table : EventTable} {c : CorruptedEvents} {selection : EventRow → Bool}
    {r : EventRow} :
    r ∈ visible table c selection ↔ r ∈ table.rows ∧ selection r = true ∧ r.id ∉ c := by
  unfold visible
  rw [Lib.mem_orderBy, List.mem_filter, Bool.and_eq_true, decide_eq_true_eq]

theorem mem_good {rd : PayloadReader} {table : EventTable} {selection : EventRow → Bool}
    {r : EventRow} :
    r ∈ good rd table selection ↔
      r ∈ table.rows ∧ selection r = true ∧ rd.corrupted r = false := by
  unfold good
  rw [Lib.mem_orderBy, List.mem_filter, Bool.and_eq_true, Bool.not_eq_true']

/-! ## Putting rows aside -/

theorem visible_add (table : EventTable) (c : CorruptedEvents) (selection : EventRow → Bool)
    (ids : List ℕ) :
    visible table (ids.foldl CorruptedEvents.add c) selection =
      (visible table c selection).filter fun r => decide (r.id ∉ ids) := by
  unfold visible
  rw [← Lib.orderBy_filter, List.filter_filter]
  congr 1
  refine List.filter_congr fun r _ => ?_
  have hmem : r.id ∉ ids.foldl CorruptedEvents.add c ↔ r.id ∉ ids ∧ r.id ∉ c := by
    rw [CorruptedEvents.mem_foldl_add]
    tauto
  rw [decide_eq_decide.2 hmem, Bool.decide_and, Bool.and_left_comm]

/-- A page with a corrupted row leaves the next query less to see. -/
theorem length_visible_add_lt {table : EventTable} {c : CorruptedEvents}
    {selection : EventRow → Bool} {ids : List ℕ} {r : EventRow}
    (hr : r ∈ visible table c selection) (hid : r.id ∈ ids) :
    (visible table (ids.foldl CorruptedEvents.add c) selection).length <
      (visible table c selection).length := by
  rw [visible_add]
  refine List.length_filter_lt_length_iff_exists.2 ⟨r, hr, ?_⟩
  simpa using hid

/-! ## Deleting a group -/

theorem rows_deleteCorruptedEvents (table : EventTable) (c : CorruptedEvents) :
    (deleteCorruptedEvents table c.setCorruptedEvIds).rows =
      table.rows.filter fun r => decide (r.id ∉ c) := by
  have hmem : ∀ r : EventRow, decide (r.id ∉ c) = !decide (r.id ∈ c.setCorruptedEvIds) := by
    intro r
    rw [decide_not]
    exact congrArg not (decide_eq_decide.2 (c.same r.id).symm)
  unfold deleteCorruptedEvents
  split
  · rename_i hnil
    refine (List.filter_eq_self.2 fun r _ => ?_).symm
    rw [hmem, Bool.not_eq_true', decide_eq_false_iff_not, Lib.SortedSet.mem_def, hnil]
    exact List.not_mem_nil
  · rw [Lib.Table.rows_remove]
    exact List.filter_congr fun r _ => (hmem r).symm

theorem rows_deleteCorruptedEventsIfPresent (table : EventTable) (c : CorruptedEvents) :
    (deleteCorruptedEventsIfPresent table c.setCorruptedEvIds).rows =
      table.rows.filter fun r => decide (r.id ∉ c) := by
  rw [← rows_deleteCorruptedEvents]
  unfold deleteCorruptedEventsIfPresent
  split
  · rfl
  · rename_i hlen
    have hnil : c.setCorruptedEvIds.elems = [] := List.eq_nil_of_length_eq_zero (by omega)
    unfold deleteCorruptedEvents
    rw [if_pos hnil]

/-- Deleting a full group changes nothing the next query sees. -/
theorem visible_validateCorruptedEventIds (table : EventTable) (c : CorruptedEvents)
    (selection : EventRow → Bool) :
    visible (validateCorruptedEventIds table c).1 (validateCorruptedEventIds table c).2 selection =
      visible table c selection := by
  unfold validateCorruptedEventIds
  split
  · unfold visible
    rw [rows_deleteCorruptedEvents, List.filter_filter]
    congr 1
    refine List.filter_congr fun r _ => ?_
    simp
  · rfl

/-! ## What is lost on the way

Seen from the table `table₀` that the upload started from, only corrupted rows
have been deleted or put aside. -/

structure LoadInv (rd : PayloadReader) (table₀ table : EventTable) (c : CorruptedEvents) :
    Prop where
  sub : table.rows.Sublist table₀.rows
  kept : ∀ r ∈ table₀.rows, rd.corrupted r = false → r ∈ table.rows ∧ r.id ∉ c

namespace LoadInv

variable {rd : PayloadReader} {table₀ table : EventTable} {c : CorruptedEvents}

theorem init (rd : PayloadReader) (table₀ : EventTable) :
    LoadInv rd table₀ table₀ CorruptedEvents.empty :=
  ⟨List.Sublist.refl _, fun _ hr _ => ⟨hr, CorruptedEvents.not_mem_empty⟩⟩

/-- Put corrupted rows of the table aside. -/
theorem add (h : LoadInv rd table₀ table c) {page : List EventRow}
    (hpage : ∀ r ∈ page, r ∈ table.rows) :
    LoadInv rd table₀ table
      (((page.filter rd.corrupted).map EventRow.id).foldl CorruptedEvents.add c) := by
  refine ⟨h.sub, fun r hr hgood => ⟨(h.kept r hr hgood).1, fun hmem => ?_⟩⟩
  rcases (CorruptedEvents.mem_foldl_add _).1 hmem with hold | hnew
  · exact (h.kept r hr hgood).2 hold
  · -- equal ids are equal rows, and this one is not corrupted
    rcases List.mem_map.1 hnew with ⟨r', hr', hid⟩
    have hbad := List.mem_filter.1 hr'
    have heq : r' = r := table₀.eq_of_key_eq (h.sub.subset (hpage r' hbad.1)) hr hid
    rw [← heq, hbad.2] at hgood
    cases hgood

theorem validate (h : LoadInv rd table₀ table c) :
    LoadInv rd table₀ (validateCorruptedEventIds table c).1
      (validateCorruptedEventIds table c).2 := by
  unfold validateCorruptedEventIds
  split
  · constructor
    · rw [rows_deleteCorruptedEvents]
      exact List.filter_sublist.trans h.sub
    · intro r hr hgood
      refine ⟨?_, CorruptedEvents.not_mem_empty⟩
      rw [rows_deleteCorruptedEvents]
      exact List.mem_filter.2 ⟨(h.kept r hr hgood).1, decide_eq_true (h.kept r hr hgood).2⟩
  · exact h

/-- The rows worth uploading are the same throughout. -/
theorem visible_good (h : LoadInv rd table₀ table c) (selection : EventRow → Bool) :
    (visible table c selection).filter (fun r => !rd.corrupted r) = good rd table₀ selection := by
  unfold visible good
  rw [← Lib.orderBy_filter, List.filter_filter]
  congr 1
  have hsame : table.rows.filter (fun r => !rd.corrupted r && (selection r && decide (r.id ∉ c))) =
      table.rows.filter fun r => selection r && !rd.corrupted r := by
    refine List.filter_congr fun r hr => ?_
    by_cases hgood : rd.corrupted r = false
    · have hnot := (h.kept r (h.sub.subset hr) hgood).2
      simp [hgood, hnot]
    · simp [hgood]
  rw [hsame]
  -- a sublist with all the selected rows of the list it comes from
  refine (h.sub.filter _).eq_of_length_le ?_
  refine (List.subperm_of_subset (table₀.nodup_rows.filter _) fun r hr => ?_).length_le
  have hr' := List.mem_filter.1 hr
  have hgood : rd.corrupted r = false := by
    have := (Bool.and_eq_true _ _).mp hr'.2
    exact (Bool.not_eq_true' _).mp this.2
  exact List.mem_filter.2 ⟨(h.kept r hr'.1 hgood).1, hr'.2⟩

end LoadInv

end DeviceClient
