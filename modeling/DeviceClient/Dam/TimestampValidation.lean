import DeviceClient.Db.InvalidTimestampEventStore
import DeviceClient.Lib.Run

/-!
# The validation of timestamps

`CEventTimestampValidationHandler`: until an event with a valid timestamp comes,
events are held back, in memory and in the store of `InvalidTimestampEventStore`.
Then they are released, each with its timestamp moved next to the valid one.

`TsValidation.forwarded` is history: the events that the next handler has got.

* `TsValidation.handleEvent`: one event; `none` if an exception leaves it.
-/

namespace DeviceClient

open InvalidTimestampEventStore

/-! ## Data -/

def m_dblTimestampCutoff : ℚ := 1704067200000

def m_nInitialEventQueueLimit : ℕ := 100

/-- The configuration, and the conversion of a `double` to `int`, whose result
outside the range of `int` the language leaves open. -/
structure TsConfig where
  m_setExceptionEvents : List String
  bStoreInvalidEvents : Bool
  doubleToInt : ℚ → ℤ

/-- An event that reaches the handler; no timestamp if it is not a number.
`bDbOverLimit` tells whether the database is over its limit at that moment. -/
structure TsCall where
  strEventId : String
  timestamp : Option ℚ
  strData : String
  bDbOverLimit : Bool
deriving DecidableEq

structure TsValidation where
  m_dblLastInvalidTimestamp : ℚ
  m_dblFrstValidTimestamp : ℚ
  m_listInitialEvents : List TsEvent
  m_bInvalidEventsAvailableInDb : Bool
  store : InvalidEventTable
  forwarded : List TsEvent

/-- The event as received. -/
def TsCall.event (call : TsCall) (dblTimestamp : ℚ) : TsEvent :=
  ⟨call.strEventId, dblTimestamp, none, call.strData⟩

namespace TsValidation

/-- The constructor. -/
def init : TsValidation where
  m_dblLastInvalidTimestamp := 0
  m_dblFrstValidTimestamp := 0
  m_listInitialEvents := []
  m_bInvalidEventsAvailableInDb := false
  store := Lib.Table.empty
  forwarded := []

/-! ## The handler -/

section

variable (cfg : TsConfig)

/-- `m_pNextHandler->HandleEvent`. -/
def send (s : TsValidation) (event : TsEvent) : TsValidation :=
  { s with forwarded := s.forwarded ++ [event] }

/-- `ValidateAndSendEvent`. -/
def validateAndSendEvent (s : TsValidation) (event : TsEvent) : TsValidation :=
  if event.strEventId = "" then s else s.send event

/-- The timestamp moved as far before the first valid one as it was before the
last invalid one. -/
def fixTimestamp (s : TsValidation) (event : TsEvent) : TsEvent :=
  let nDelta := cfg.doubleToInt (s.m_dblLastInvalidTimestamp - event.dblTimestamp)
  { event with
    originalTimestamp := some event.dblTimestamp
    dblTimestamp := s.m_dblFrstValidTimestamp - nDelta }

/-- `FixAndSend`. -/
def fixAndSend (s : TsValidation) (event : TsEvent) : TsValidation :=
  if event.dblTimestamp < m_dblTimestampCutoff then
    if s.m_dblLastInvalidTimestamp ≠ 0 then
      s.validateAndSendEvent (s.fixTimestamp cfg event)
    else s
  else s.validateAndSendEvent event

/-- The loop over a page of stored events. -/
def fixAndSendStored : List InvalidEventRow → TsValidation → Option TsValidation
  | [], s => some s
  | r :: rest, s =>
    match r.events.jsonToEvent with
    | none => none
    | some event => fixAndSendStored rest (s.fixAndSend cfg event)

/-- A page is read, sent and deleted. -/
def releasePage (nRowsToprocess : ℕ) (s : TsValidation) : Option TsValidation :=
  let page := retriveEvents nRowsToprocess s.store
  (fixAndSendStored cfg page s).map fun s =>
    { s with store := deleteEvents (page.map InvalidEventRow.id) s.store }

/-- The loop over the pages. -/
def releaseStored (nTotalRows : ℕ) (s : TsValidation) : Option TsValidation :=
  if nTotalRows = 0 then some s
  else
    match releasePage cfg 100 s with
    | none => none
    | some s => releaseStored (nTotalRows - 100) s
termination_by nTotalRows

/-- The loop over the events in memory. -/
def releaseMemory (s : TsValidation) : TsValidation :=
  { s.m_listInitialEvents.foldl (fixAndSend cfg) s with m_listInitialEvents := [] }

/-- `HandleFirstValidTs`. -/
def handleFirstValidTs (s : TsValidation) : Option TsValidation :=
  if s.m_listInitialEvents ≠ [] ∨ s.m_bInvalidEventsAvailableInDb then
    (if s.m_bInvalidEventsAvailableInDb then releaseStored cfg s.store.rows.length s
      else some s).map fun s =>
        { s.releaseMemory cfg with m_bInvalidEventsAvailableInDb := false }
  else some s

/-- `HandleInvalidEventTS`. -/
def handleInvalidEventTS (bDbOverLimit : Bool) (s : TsValidation) : Option TsValidation :=
  if m_nInitialEventQueueLimit < s.m_listInitialEvents.length then
    if cfg.bStoreInvalidEvents then
      (insertEvents s.m_listInitialEvents bDbOverLimit s.store).map fun store =>
        { s with
          m_bInvalidEventsAvailableInDb := true
          m_listInitialEvents := []
          store := store }
    else
      some { s.m_listInitialEvents.foldl validateAndSendEvent s with m_listInitialEvents := [] }
  else some s

/-- The event joins the ones held back. -/
def hold (s : TsValidation) (event : TsEvent) : TsValidation :=
  { s with
    m_dblLastInvalidTimestamp :=
      if s.m_dblLastInvalidTimestamp < event.dblTimestamp then event.dblTimestamp
      else s.m_dblLastInvalidTimestamp
    m_listInitialEvents := s.m_listInitialEvents ++ [event] }

/-- `ValidateEventTSBasedOnCutOff`. -/
def validateEventTSBasedOnCutOff (bDbOverLimit : Bool) (s : TsValidation) (event : TsEvent) :
    Option TsValidation :=
  if event.dblTimestamp < m_dblTimestampCutoff then
    handleInvalidEventTS cfg bDbOverLimit (s.hold event)
  else
    (handleFirstValidTs cfg { s with m_dblFrstValidTimestamp := event.dblTimestamp }).map
      fun s => s.validateAndSendEvent event

/-- `ValidateTsOfEvent`. -/
def validateTsOfEvent (bDbOverLimit : Bool) (s : TsValidation) (event : TsEvent) :
    Option TsValidation :=
  if s.m_dblFrstValidTimestamp = 0 then
    if event.strEventId ∈ cfg.m_setExceptionEvents then some (s.send event)
    else validateEventTSBasedOnCutOff cfg bDbOverLimit s event
  else some (s.fixAndSend cfg event)

/-- `HandleEvent`. -/
def handleEvent (s : TsValidation) (call : TsCall) : Option TsValidation :=
  match call.timestamp with
  | none => some s
  | some dblTimestamp => validateTsOfEvent cfg call.bDbOverLimit s (call.event dblTimestamp)

/-! ## What is sent -/

/-- What `FixAndSend` makes of an event: nothing if no invalid timestamp counts. -/
def sentEvent (s : TsValidation) (event : TsEvent) : List TsEvent :=
  if event.dblTimestamp < m_dblTimestampCutoff then
    if s.m_dblLastInvalidTimestamp ≠ 0 then [s.fixTimestamp cfg event] else []
  else [event]

/-- The same behind `ValidateAndSendEvent`, which ignores an event without an id. -/
def sentNamed (s : TsValidation) (event : TsEvent) : List TsEvent :=
  if event.strEventId = "" then [] else s.sentEvent cfg event

variable {cfg}

theorem validateAndSendEvent_of_id (s : TsValidation) {event : TsEvent}
    (hid : event.strEventId ≠ "") : s.validateAndSendEvent event = s.send event :=
  if_neg hid

theorem fixAndSend_eq (s : TsValidation) {event : TsEvent} (hid : event.strEventId ≠ "") :
    s.fixAndSend cfg event = { s with forwarded := s.forwarded ++ s.sentEvent cfg event } := by
  unfold fixAndSend sentEvent
  by_cases hcut : event.dblTimestamp < m_dblTimestampCutoff
  · rw [if_pos hcut, if_pos hcut]
    by_cases hlast : s.m_dblLastInvalidTimestamp ≠ 0
    · have hid' : (s.fixTimestamp cfg event).strEventId ≠ "" := hid
      rw [if_pos hlast, if_pos hlast, validateAndSendEvent_of_id _ hid']
      rfl
    · rw [if_neg hlast, if_neg hlast, List.append_nil]
  · rw [if_neg hcut, if_neg hcut, validateAndSendEvent_of_id _ hid]
    rfl

theorem fixAndSend_eq_sentNamed (s : TsValidation) (event : TsEvent) :
    s.fixAndSend cfg event = { s with forwarded := s.forwarded ++ s.sentNamed cfg event } := by
  unfold sentNamed
  by_cases hid : event.strEventId = ""
  · rw [if_pos hid, List.append_nil]
    have hid' : (s.fixTimestamp cfg event).strEventId = "" := hid
    unfold fixAndSend validateAndSendEvent
    rw [if_pos hid, if_pos hid', ite_self, ite_self]
  · rw [if_neg hid]
    exact fixAndSend_eq s hid

theorem foldl_fixAndSend_eq (events : List TsEvent) :
    ∀ s : TsValidation, events.foldl (fixAndSend cfg) s =
      { s with forwarded := s.forwarded ++ events.flatMap (s.sentNamed cfg) } := by
  induction events with
  | nil =>
    intro s
    show s = { s with forwarded := s.forwarded ++ [] }
    rw [List.append_nil]
  | cons event rest ih =>
    intro s
    rw [List.foldl_cons, fixAndSend_eq_sentNamed s event, ih, List.flatMap_cons]
    -- what is sent does not depend on what has been sent
    show { s with forwarded := (s.forwarded ++ s.sentNamed cfg event) ++ _ } = _
    rw [List.append_assoc]
    rfl

/-- The event as it comes back from the store. -/
def reread (event : TsEvent) : TsEvent :=
  { event with dblTimestamp := (event.dblTimestamp.floor : ℚ) }

/-- What is sent of a stored event. -/
def sentRow (cfg : TsConfig) (s : TsValidation) (r : InvalidEventRow) : List TsEvent :=
  s.sentEvent cfg (reread r.events)

/-- The same behind `ValidateAndSendEvent`. -/
def sentNamedRow (cfg : TsConfig) (s : TsValidation) (r : InvalidEventRow) : List TsEvent :=
  s.sentNamed cfg (reread r.events)

theorem fixAndSendStored_eq (rows : List InvalidEventRow) :
    ∀ s : TsValidation, (∀ r ∈ rows, Readable r.events) →
      fixAndSendStored cfg rows s = some { s with
        forwarded := s.forwarded ++ rows.flatMap (s.sentNamedRow cfg) } := by
  induction rows with
  | nil =>
    intro s _
    show some s = some { s with forwarded := s.forwarded ++ [] }
    rw [List.append_nil]
  | cons r rest ih =>
    intro s hrows
    unfold fixAndSendStored
    rw [jsonToEvent_of_readable (hrows r List.mem_cons_self)]
    show fixAndSendStored cfg rest (s.fixAndSend cfg (reread r.events)) = _
    rw [fixAndSend_eq_sentNamed s, ih _ fun r' h' => hrows r' (List.mem_cons_of_mem r h'),
      List.flatMap_cons, ← List.append_assoc]
    rfl

/-- The rows can be read back and have event ids. -/
def StoreReadable (s : TsValidation) : Prop :=
  ∀ r ∈ s.store.rows, Readable r.events ∧ r.events.strEventId ≠ ""

variable (cfg) in
theorem releasePage_eq {s : TsValidation} (h : ∀ r ∈ s.store.rows, Readable r.events) {n : ℕ}
    (hn : 0 < n) :
    ∃ store, inOrder store = (inOrder s.store).drop n ∧
      (∀ r ∈ store.rows, r ∈ s.store.rows) ∧
      releasePage cfg n s = some { s with
        store := store
        forwarded := s.forwarded ++
          ((inOrder s.store).take n).flatMap (s.sentNamedRow cfg) } := by
  have hpage : retriveEvents n s.store = (inOrder s.store).take n := if_neg (by omega)
  have hrows : ∀ r ∈ retriveEvents n s.store, Readable r.events := by
    intro r hr
    exact h r (Lib.mem_orderBy.1 (Lib.mem_of_mem_limit hr))
  refine ⟨_, inOrder_deleteEvents s.store hn, ?_, ?_⟩
  · intro r hr
    exact mem_of_mem_deleteEvents hr
  · show (fixAndSendStored cfg (retriveEvents n s.store) s).map _ = _
    rw [fixAndSendStored_eq _ s hrows, ← hpage]
    rfl

variable (cfg) in
/-- The whole store is sent, in its order. -/
theorem releaseStored_eq (n : ℕ) :
    ∀ s : TsValidation, s.store.rows.length = n → (∀ r ∈ s.store.rows, Readable r.events) →
      ∃ store, releaseStored cfg n s = some { s with
        store := store
        forwarded := s.forwarded ++ (inOrder s.store).flatMap (s.sentNamedRow cfg) } := by
  induction n using Nat.strongRecOn with
  | ind n ih =>
    intro s hlen hread
    have hlength : (inOrder s.store).length = n :=
      ((Lib.perm_orderBy _ _).length_eq).trans hlen
    unfold releaseStored
    by_cases hn : n = 0
    · refine ⟨s.store, ?_⟩
      have hnil : inOrder s.store = [] := List.length_eq_zero_iff.1 (hlength.trans hn)
      rw [if_pos hn, hnil, List.flatMap_nil, List.append_nil]
    · rcases releasePage_eq cfg hread (show 0 < 100 by omega) with
        ⟨store, horder, hsub, hpage⟩
      rw [if_neg hn, hpage]
      -- the rest of the store, by induction
      have hlen' : store.rows.length = n - 100 := by
        rw [← (Lib.perm_orderBy InvalidEventRow.timestamp store.rows).length_eq]
        show (inOrder store).length = n - 100
        rw [horder, List.length_drop, hlength]
      rcases ih (n - 100) (by omega)
        { s with
          store := store
          forwarded := s.forwarded ++ ((inOrder s.store).take 100).flatMap (s.sentNamedRow cfg) }
        hlen' (fun r hr => hread r (hsub r hr)) with ⟨store', hrest⟩
      refine ⟨store', hrest.trans ?_⟩
      show some { s with
        store := store'
        forwarded := (s.forwarded ++
          ((inOrder s.store).take 100).flatMap (s.sentNamedRow cfg)) ++
            (inOrder store).flatMap (s.sentNamedRow cfg) } = _
      rw [horder, List.append_assoc, ← List.flatMap_append, List.take_append_drop]

variable (cfg) in
/-- What the first valid timestamp releases: the store, then the memory. -/
theorem handleFirstValidTs_eq_sentNamed {s : TsValidation}
    (hread : ∀ r ∈ s.store.rows, Readable r.events)
    (hflag : s.m_bInvalidEventsAvailableInDb = false → s.store.rows = []) :
    ∃ store, handleFirstValidTs cfg s = some { s with
      m_listInitialEvents := []
      m_bInvalidEventsAvailableInDb := false
      store := store
      forwarded := s.forwarded ++
        (inOrder s.store).flatMap (s.sentNamedRow cfg) ++
        s.m_listInitialEvents.flatMap (s.sentNamed cfg) } := by
  unfold handleFirstValidTs
  cases hf : s.m_bInvalidEventsAvailableInDb with
  | false =>
    have hnil : inOrder s.store = [] := by
      unfold inOrder
      rw [hflag hf]
      rfl
    rw [hnil, List.flatMap_nil, List.append_nil]
    refine ⟨s.store, ?_⟩
    by_cases hlist : s.m_listInitialEvents = []
    · -- nothing is held: the call changes nothing
      rw [if_neg (by simp [hlist]), hlist, List.flatMap_nil, List.append_nil, ← hlist, ← hf]
    · rw [if_pos (Or.inl hlist)]
      show some { s.releaseMemory cfg with m_bInvalidEventsAvailableInDb := false } = _
      unfold releaseMemory
      rw [foldl_fixAndSend_eq _ s]
  | true =>
    rcases releaseStored_eq cfg _ s rfl hread with ⟨store, hrel⟩
    refine ⟨store, ?_⟩
    rw [if_pos (Or.inr rfl), if_pos rfl, hrel]
    show some { releaseMemory cfg _ with m_bInvalidEventsAvailableInDb := false } = _
    unfold releaseMemory
    rw [foldl_fixAndSend_eq]
    rfl

variable (cfg) in
/-- The same where every event held has an id. -/
theorem handleFirstValidTs_eq {s : TsValidation} (hread : s.StoreReadable)
    (hmem : ∀ event ∈ s.m_listInitialEvents, event.strEventId ≠ "")
    (hflag : s.m_bInvalidEventsAvailableInDb = false → s.store.rows = []) :
    ∃ store, handleFirstValidTs cfg s = some { s with
      m_listInitialEvents := []
      m_bInvalidEventsAvailableInDb := false
      store := store
      forwarded := s.forwarded ++
        (inOrder s.store).flatMap (s.sentRow cfg) ++
        s.m_listInitialEvents.flatMap (s.sentEvent cfg) } := by
  have hrows : (inOrder s.store).flatMap (s.sentNamedRow cfg) =
      (inOrder s.store).flatMap (s.sentRow cfg) := by
    refine List.flatMap_congr fun r hr => ?_
    exact if_neg (hread r (Lib.mem_orderBy.1 hr)).2
  have hevents : s.m_listInitialEvents.flatMap (s.sentNamed cfg) =
      s.m_listInitialEvents.flatMap (s.sentEvent cfg) :=
    List.flatMap_congr fun event hevent => if_neg (hmem event hevent)
  rcases handleFirstValidTs_eq_sentNamed cfg (fun r hr => (hread r hr).1) hflag with ⟨store, hrel⟩
  rw [hrows, hevents] at hrel
  exact ⟨store, hrel⟩

end

end TsValidation

end DeviceClient
