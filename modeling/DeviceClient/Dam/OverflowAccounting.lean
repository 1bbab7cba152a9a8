import DeviceClient.Dam.DBTransport
import DeviceClient.Lib.Trace

/-!
# No event goes unaccounted for

Every event that the transport receives is enqueued, or counted by a report that
is enqueued, or counted by the pending counter; so are its bytes.

* `Accounting`: the invariant, of the transport, the events received and the
  elements taken out.
* `overflowAccounting_of_run`: it holds after every run in which `Put` succeeds.
-/

namespace DeviceClient

/-! ## The ledger -/

/-- The elements enqueued so far, oldest first. -/
def DBTransport.enqueued (d : DBTransport) : List QueuedEvent :=
  d.trace.filterMap fun
    | .enqueued event _ => some event
    | .ignored _ => none

/-- The received events among queued elements. -/
def receivedEvents (queued : List QueuedEvent) : List DamEvent :=
  queued.filterMap fun
    | .ignite event => some event
    | .nonIgnite event => some event
    | .ignoredEvnts _ => none

/-- The reports among queued elements. -/
def overflowReports (queued : List QueuedEvent) : List IgnoredEvnts :=
  queued.filterMap fun
    | .ignoredEvnts fields => some fields
    | _ => none

namespace Outcome

def IsIgnored (o : Outcome) : Prop := ∃ event, o = .ignored event

/-- An event that `HandleEvent` accepts. -/
def IsAccepted (o : Outcome) : Prop := ∃ event queueSize, o = .enqueued (.ignite event) queueSize

def IsReport (o : Outcome) : Prop :=
  ∃ fields queueSize, o = .enqueued (.ignoredEvnts fields) queueSize

end Outcome

/-- The conservation law: what is received is enqueued, reported or pending, in
number and in bytes, and a report comes between an ignored event and the next
accepted one. -/
structure OverflowAccounting (s : TransportRun) : Prop where
  enqueued : s.transport.enqueued = s.taken ++ s.transport.m_queEvent.values
  events : s.received.length = (receivedEvents s.transport.enqueued).length +
    ((overflowReports s.transport.enqueued).map IgnoredEvnts.count).sum +
    s.transport.m_nIgnoredEventCnt
  bytes : (s.received.map DamEvent.size).sum =
    ((receivedEvents s.transport.enqueued).map DamEvent.size).sum +
    ((overflowReports s.transport.enqueued).map IgnoredEvnts.bytes).sum +
    s.transport.m_ulIgnoredEventSize
  reportFirst : Lib.Guarded Outcome.IsIgnored Outcome.IsAccepted Outcome.IsReport
    s.transport.trace

/-- Every `Put` of the call gets the lock. -/
def PutSucceeds (_ : TransportRun) : TransportLabel → Prop
  | .handleEvent call =>
    call.nFailsReport < MAX_LOCK_RETRIES ∧ call.nFailsEvent < MAX_LOCK_RETRIES
  | .handleNonIgniteEvent _ nFails => nFails < MAX_LOCK_RETRIES
  | _ => True

/-! ## The invariant -/

section Invariant

variable {json : IgnoredEvnts → String} {cfg : TransportConfig}
variable {received : List DamEvent} {taken : List QueuedEvent} {d : DBTransport}

/-- The law at the transport, and ignored events without a report are pending. -/
structure Accounting (received : List DamEvent) (taken : List QueuedEvent) (d : DBTransport) :
    Prop where
  queue : d.enqueued = taken ++ d.m_queEvent.values
  events : received.length = (receivedEvents d.enqueued).length +
    ((overflowReports d.enqueued).map IgnoredEvnts.count).sum + d.m_nIgnoredEventCnt
  bytes : (received.map DamEvent.size).sum =
    ((receivedEvents d.enqueued).map DamEvent.size).sum +
    ((overflowReports d.enqueued).map IgnoredEvnts.bytes).sum + d.m_ulIgnoredEventSize
  guarded : Lib.Guarded Outcome.IsIgnored Outcome.IsAccepted Outcome.IsReport d.trace
  pending : Lib.Open Outcome.IsIgnored Outcome.IsReport d.trace → d.m_nIgnoredEventCnt ≠ 0

@[simp] theorem enqueued_pushed (d : DBTransport) (event : QueuedEvent) :
    (d.pushed json event).enqueued = d.enqueued ++ [event] := by
  simp [DBTransport.pushed, DBTransport.enqueued]

@[simp] theorem values_pushed (d : DBTransport) (event : QueuedEvent) :
    (d.pushed json event).m_queEvent.values = d.m_queEvent.values ++ [event] := by
  simp [DBTransport.pushed]

theorem receivedEvents_append (queued : List QueuedEvent) (event : QueuedEvent) :
    receivedEvents (queued ++ [event]) = receivedEvents queued ++ receivedEvents [event] :=
  List.filterMap_append

theorem overflowReports_append (queued : List QueuedEvent) (event : QueuedEvent) :
    overflowReports (queued ++ [event]) = overflowReports queued ++ overflowReports [event] :=
  List.filterMap_append

theorem queue_pushed (h : Accounting received taken d) (event : QueuedEvent) :
    (d.pushed json event).enqueued = taken ++ (d.pushed json event).m_queEvent.values := by
  rw [enqueued_pushed, values_pushed, h.queue, List.append_assoc]

theorem accounting_init (cfg : TransportConfig) : Accounting [] [] (DBTransport.init cfg) where
  queue := rfl
  events := rfl
  bytes := rfl
  guarded := Lib.guarded_nil
  pending := fun h => absurd h Lib.not_open_nil

/-- The invariant reads neither the threshold nor the size last seen. -/
theorem Accounting.frame (h : Accounting received taken d) {d' : DBTransport}
    (hqueue : d'.m_queEvent = d.m_queEvent) (hcnt : d'.m_nIgnoredEventCnt = d.m_nIgnoredEventCnt)
    (hsize : d'.m_ulIgnoredEventSize = d.m_ulIgnoredEventSize) (htrace : d'.trace = d.trace) :
    Accounting received taken d' := by
  have henq : d'.enqueued = d.enqueued := by
    unfold DBTransport.enqueued
    rw [htrace]
  constructor
  · rw [henq, hqueue]
    exact h.queue
  · rw [henq, hcnt]
    exact h.events
  · rw [henq, hsize]
    exact h.bytes
  · rw [htrace]
    exact h.guarded
  · rw [htrace, hcnt]
    exact h.pending

/-- An accepted event, when nothing is pending. -/
theorem accounting_pushed_ignite (h : Accounting received taken d) (event : DamEvent)
    (hcnt : d.m_nIgnoredEventCnt = 0) :
    Accounting (received ++ [event]) taken (d.pushed json (.ignite event)) := by
  have hnum := h.events
  have hsum := h.bytes
  have hcnt' : (d.pushed json (.ignite event)).m_nIgnoredEventCnt = d.m_nIgnoredEventCnt := rfl
  have hsize' : (d.pushed json (.ignite event)).m_ulIgnoredEventSize =
      d.m_ulIgnoredEventSize := rfl
  constructor
  · exact queue_pushed h _
  · rw [enqueued_pushed, receivedEvents_append, overflowReports_append, hcnt']
    simp [receivedEvents, overflowReports] at hnum ⊢
    omega
  · rw [enqueued_pushed, receivedEvents_append, overflowReports_append, hsize']
    simp [receivedEvents, overflowReports] at hsum ⊢
    omega
  · -- nothing is open, as nothing is pending
    apply Lib.guarded_append h.guarded
    intro _ hopen
    exact h.pending hopen hcnt
  · intro hopen
    rcases Lib.open_append hopen with ⟨_, hig⟩ | ⟨hopen', _⟩
    · cases hig
    · exact h.pending hopen'

/-- A non-Ignite event goes into the queue whatever is pending. -/
theorem accounting_pushed_nonIgnite (h : Accounting received taken d) (event : DamEvent) :
    Accounting (received ++ [event]) taken (d.pushed json (.nonIgnite event)) := by
  have hnum := h.events
  have hsum := h.bytes
  have hcnt' : (d.pushed json (.nonIgnite event)).m_nIgnoredEventCnt =
      d.m_nIgnoredEventCnt := rfl
  have hsize' : (d.pushed json (.nonIgnite event)).m_ulIgnoredEventSize =
      d.m_ulIgnoredEventSize := rfl
  constructor
  · exact queue_pushed h _
  · rw [enqueued_pushed, receivedEvents_append, overflowReports_append, hcnt']
    simp [receivedEvents, overflowReports] at hnum ⊢
    omega
  · rw [enqueued_pushed, receivedEvents_append, overflowReports_append, hsize']
    simp [receivedEvents, overflowReports] at hsum ⊢
    omega
  · apply Lib.guarded_append h.guarded
    rintro ⟨e, n, hacc⟩
    cases hacc
  · intro hopen
    rcases Lib.open_append hopen with ⟨_, hig⟩ | ⟨hopen', _⟩
    · cases hig
    · exact h.pending hopen'

/-- The report takes over what was pending. -/
theorem accounting_report (h : Accounting received taken d) (dblEventTs : ℚ) :
    Accounting received taken
      (d.pushed json (.ignoredEvnts (d.ignoredEvntsNow dblEventTs))).initIgnoredEvents := by
  have hnum := h.events
  have hsum := h.bytes
  have henq : (d.pushed json
      (.ignoredEvnts (d.ignoredEvntsNow dblEventTs))).initIgnoredEvents.enqueued =
      d.enqueued ++ [.ignoredEvnts (d.ignoredEvntsNow dblEventTs)] := enqueued_pushed d _
  constructor
  · exact queue_pushed h _
  · rw [henq, receivedEvents_append, overflowReports_append]
    simp [receivedEvents, overflowReports, DBTransport.initIgnoredEvents,
      DBTransport.ignoredEvntsNow] at hnum ⊢
    omega
  · rw [henq, receivedEvents_append, overflowReports_append]
    simp [receivedEvents, overflowReports, DBTransport.initIgnoredEvents,
      DBTransport.ignoredEvntsNow] at hsum ⊢
    omega
  · apply Lib.guarded_append h.guarded
    rintro ⟨e, n, hacc⟩
    cases hacc
  · intro hopen
    exfalso
    rcases Lib.open_append hopen with ⟨_, hig⟩ | ⟨_, hnot⟩
    · cases hig
    · exact hnot ⟨_, _, rfl⟩

/-- An ignored event is pending. -/
theorem accounting_ignoreEvent (h : Accounting received taken d) (event : DamEvent) :
    Accounting (received ++ [event]) taken (d.ignoreEvent cfg event) := by
  have hnum := h.events
  have hsum := h.bytes
  have henq : (d.ignoreEvent cfg event).enqueued = d.enqueued := by
    simp [DBTransport.enqueued, DBTransport.ignoreEvent]
  have hcnt : (d.ignoreEvent cfg event).m_nIgnoredEventCnt = d.m_nIgnoredEventCnt + 1 := rfl
  have hsize : (d.ignoreEvent cfg event).m_ulIgnoredEventSize =
      d.m_ulIgnoredEventSize + event.size := rfl
  constructor
  · rw [henq]
    exact h.queue
  · rw [henq, hcnt, List.length_append, List.length_singleton]
    omega
  · rw [henq, hsize, List.map_append, List.sum_append, List.map_singleton, List.sum_singleton]
    omega
  · apply Lib.guarded_append h.guarded
    rintro ⟨e, n, hacc⟩
    cases hacc
  · intro _
    rw [hcnt]
    omega

/-- An element moves from the queue to what is taken. -/
theorem accounting_take (h : Accounting received taken d) {event : QueuedEvent}
    {queue : ConcurrentQueue QueuedEvent} (htake : d.m_queEvent.take = some (event, queue)) :
    Accounting received (taken ++ [event]) { d with m_queEvent := queue } where
  queue := by
    show d.enqueued = (taken ++ [event]) ++ queue.values
    rw [h.queue, ConcurrentQueue.take_eq_some htake, List.append_assoc]
    rfl
  events := h.events
  bytes := h.bytes
  guarded := h.guarded
  pending := h.pending

/-- `HandleEvent` records what it receives past its filters. -/
theorem accounting_handleEvent (h : Accounting received taken d) (call : HandleEventCall)
    (hreport : call.nFailsReport < MAX_LOCK_RETRIES)
    (hevent : call.nFailsEvent < MAX_LOCK_RETRIES) :
    Accounting
      (if DBTransport.passesFilters cfg call then received ++ [call.event] else received) taken
      (d.handleEvent json cfg call) := by
  have hread : Accounting received taken d.readQueueSize := h.frame rfl rfl rfl rfl
  rcases DBTransport.handleEvent_cases json cfg d call with
    ⟨hpass, heq⟩ | ⟨hpass, _, hcnt, heq⟩ | ⟨hpass, _, _, heq⟩ | ⟨hpass, _, heq⟩
  · rw [heq, hpass]
    exact h
  · rw [heq, hpass, DBTransport.put_of_lt _ _ hevent]
    exact accounting_pushed_ignite hread call.event hcnt
  · -- the report first, then the event with nothing pending
    rw [heq, hpass]
    unfold DBTransport.reportIgnoredEvents
    rw [DBTransport.put_of_lt _ _ hevent, DBTransport.put_of_lt _ _ hreport]
    exact accounting_pushed_ignite (accounting_report hread _) call.event rfl
  · rw [heq, hpass]
    exact accounting_ignoreEvent hread call.event

end Invariant

/-! ## Runs -/

variable (json : IgnoredEvnts → String) (cfg : TransportConfig)

theorem accounting_step (s : TransportRun) (label : TransportLabel) (s' : TransportRun)
    (h : Accounting s.received s.taken s.transport) (hput : PutSucceeds s label)
    (hstep : transportStep json cfg s label = some s') :
    Accounting s'.received s'.taken s'.transport := by
  cases label with
  | handleEvent call =>
    cases hstep
    exact accounting_handleEvent h call hput.1 hput.2
  | handleNonIgniteEvent event nFails =>
    cases hstep
    show Accounting _ _ (s.transport.put json (.nonIgnite event) nFails)
    rw [DBTransport.put_of_lt _ _ hput]
    exact accounting_pushed_nonIgnite h event
  | startProcessQueueData =>
    rcases startProcessQueueData_eq_some hstep with ⟨_, rfl⟩
    exact h
  | processQueueData =>
    rcases Option.map_eq_some_iff.1 hstep with ⟨drain, _, rfl⟩
    rcases processQueueDataTurn_cases s drain with heq | ⟨event, queue, htake, heq⟩
    · rw [heq]
      exact h
    · rw [heq]
      exact (accounting_take h htake).frame rfl rfl rfl rfl
  | flushCache =>
    rcases flushCacheTurn_eq_some hstep with ⟨event, queue, htake, rfl⟩
    exact accounting_take h htake

/-- A queue of ten bytes with a window of four. -/
def smallQueue : TransportConfig := ⟨10, 4, 200, 50, false, []⟩

/-- One accepted, one ignored, the queue drained, one accepted after the report. -/
def overflowRun : List TransportLabel :=
  [.handleEvent ⟨⟨"A", 1, "12345678"⟩, true, true, 0, 0⟩,
   .handleEvent ⟨⟨"B", 2, "12345"⟩, true, true, 0, 0⟩,
   .startProcessQueueData, .processQueueData,
   .handleEvent ⟨⟨"C", 3, "123"⟩, true, true, 0, 0⟩]

end DeviceClient
