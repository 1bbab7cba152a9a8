import DeviceClient.Util.ConcurrentQueue
import DeviceClient.Lib.Run
import Mathlib.Algebra.Order.Ring.Rat
import Mathlib.Data.Rat.Init

/-!
# The queue of the database transport

`CDBTransport` between the handlers, which put events into `m_queEvent`, and the
database thread, which takes them out. `HandleEvent` ignores an event that would
bring the queue to its threshold; the ignored ones are counted and reported by
an `EventCacheOverflow` event in front of the next one accepted. The threshold
goes down by a window with the first ignored event and up again in
`ProcessQueueData`.

`DBTransport.trace` is history: no function of the source reads it. A queued
event stands for its JSON text; the counters of ignored events are unbounded.

* `handleEvent_cases`: the four things that `HandleEvent` can do.
* `transportStep`: the calls of the handlers, one after the other, between the
  turns of the database thread's loops.
-/

namespace DeviceClient

/-! ## Data -/

/-- What the transport reads of an event, and its JSON text. -/
structure DamEvent where
  strEventId : String
  dblEventTs : ℚ
  strSerializedEvnt : String
deriving DecidableEq

/-- The fields of an `EventCacheOverflow` event. -/
structure IgnoredEvnts where
  count : ℕ
  bytes : ℕ
  startTs : ℚ
  endTs : ℚ
deriving DecidableEq

/-- What stands in the queue: an event from `HandleEvent`, one from
`HandleNonIgniteEvent`, or a report. -/
inductive QueuedEvent
  | ignite (event : DamEvent)
  | nonIgnite (event : DamEvent)
  | ignoredEvnts (fields : IgnoredEvnts)
deriving DecidableEq

/-- `strSerializedEvnt.size()`. -/
def DamEvent.size (event : DamEvent) : ℕ := event.strSerializedEvnt.utf8ByteSize

/-- What has happened at the queue, with the size of the queue just before. -/
inductive Outcome
  | ignored (event : DamEvent)
  | enqueued (event : QueuedEvent) (queueSize : ℕ)
deriving DecidableEq

structure TransportConfig where
  m_ulEventQueueMaxSize : ℕ
  m_ulEventInsertWindowSize : ℕ
  m_nDbEventStoreRecordAvgSize : ℕ
  m_nMaxEventInsertInOneTxn : ℕ
  m_bUploadAfterActivation : Bool
  m_SetActivationExceptionEvents : List String
deriving DecidableEq

def DEF_EVENTSTORE_SIZE : ℕ := 200
def MAX_EVENTSTORE_SIZE : ℕ := 500

/-- What the constructor makes of the configured values: an `int` becomes an
`unsigned long` or a `uint16_t`, and a zero gets the default. -/
def TransportConfig.ofIgniteConfig
    (eventQueueMaxSize eventInsertWindowSize eventStoreRecordSize maxInsertEventInOneTxn : ℤ)
    (bUploadAfterActivation : Bool) (activationValidatorExceptions : List String) :
    TransportConfig where
  m_ulEventQueueMaxSize :=
    let ulSize := (eventQueueMaxSize % 2 ^ 64).toNat
    if ulSize ≤ 0 then 1048576 else ulSize
  m_ulEventInsertWindowSize :=
    let ulSize := (eventInsertWindowSize % 2 ^ 64).toNat
    if ulSize ≤ 0 then 104858 else ulSize
  m_nDbEventStoreRecordAvgSize :=
    let unSize := (eventStoreRecordSize % 2 ^ 16).toNat
    if unSize < DEF_EVENTSTORE_SIZE ∨ MAX_EVENTSTORE_SIZE < unSize then DEF_EVENTSTORE_SIZE
    else unSize
  m_nMaxEventInsertInOneTxn := (maxInsertEventInOneTxn % 2 ^ 16).toNat
  m_bUploadAfterActivation := bUploadAfterActivation
  m_SetActivationExceptionEvents := activationValidatorExceptions

/-- Subtraction of `unsigned long` values. -/
def ulSub (a b : ℕ) : ℕ := (a + 2 ^ 64 - b % 2 ^ 64) % 2 ^ 64

/-- `m_ulEventQueueMaxSize - m_ulEventInsertWindowSize`. -/
def TransportConfig.lowThreshold (cfg : TransportConfig) : ℕ :=
  ulSub cfg.m_ulEventQueueMaxSize cfg.m_ulEventInsertWindowSize

structure DBTransport where
  m_queEvent : ConcurrentQueue QueuedEvent
  m_nIgnoredEventCnt : ℕ
  m_ulIgnoredEventSize : ℕ
  m_ulEventSizeInQueue : ℕ
  m_dblEventIgnoreStartTs : ℚ
  m_ulEventInsertThresholdSize : ℕ
  trace : List Outcome

/-- The constructor. -/
def DBTransport.init (cfg : TransportConfig) : DBTransport where
  m_queEvent := ConcurrentQueue.empty
  m_nIgnoredEventCnt := 0
  m_ulIgnoredEventSize := 0
  m_ulEventSizeInQueue := 0
  m_dblEventIgnoreStartTs := 0
  m_ulEventInsertThresholdSize := cfg.m_ulEventQueueMaxSize
  trace := []

/-- One call of `HandleEvent`: the event, the answers of the interval validator
and of the token manager, and how often each `Put` misses the lock. -/
structure HandleEventCall where
  event : DamEvent
  bValidInterval : Bool
  bActivated : Bool
  nFailsReport : ℕ
  nFailsEvent : ℕ

/-! ## The handlers -/

section Handlers

variable (json : IgnoredEvnts → String) (cfg : TransportConfig)

/-- The size of a queued event's JSON text; `json` is the text of a report. -/
def QueuedEvent.size : QueuedEvent → ℕ
  | .ignite event => event.size
  | .nonIgnite event => event.size
  | .ignoredEvnts fields => (json fields).utf8ByteSize

namespace DBTransport

/-- The total size of the events in the queue. -/
def queueSize (d : DBTransport) : ℕ := (d.m_queEvent.values.map (QueuedEvent.size json)).sum

/-- An element enqueued. -/
def pushed (d : DBTransport) (event : QueuedEvent) : DBTransport :=
  { d with
    m_queEvent := d.m_queEvent.push event (event.size json)
    trace := d.trace ++ [.enqueued event (d.queueSize json)] }

/-- `m_queEvent.Put`, whose answer no caller reads. -/
def put (d : DBTransport) (event : QueuedEvent) (nFails : ℕ) : DBTransport :=
  if (d.m_queEvent.put event (event.size json) nFails).1 then d.pushed json event else d

/-- `InitIgnoredEvents`. -/
def initIgnoredEvents (d : DBTransport) : DBTransport :=
  { d with
    m_nIgnoredEventCnt := 0
    m_ulIgnoredEventSize := 0
    m_ulEventSizeInQueue := 0
    m_dblEventIgnoreStartTs := 0 }

/-- `WaitForActivation`. -/
def waitForActivation (bActivated : Bool) (strEventId : String) : Bool :=
  if bActivated then false
  else if cfg.m_bUploadAfterActivation then
    !decide (strEventId ∈ cfg.m_SetActivationExceptionEvents)
  else false

/-- The event gets past both filters of `HandleEvent`. -/
def passesFilters (call : HandleEventCall) : Bool :=
  call.bValidInterval && !waitForActivation cfg call.bActivated call.event.strEventId

/-- `m_ulEventSizeInQueue = unQueSize`. -/
def readQueueSize (d : DBTransport) : DBTransport :=
  { d with m_ulEventSizeInQueue := d.m_queEvent.size }

/-- The report of the events ignored so far. -/
def ignoredEvntsNow (d : DBTransport) (dblEventTs : ℚ) : IgnoredEvnts where
  count := d.m_nIgnoredEventCnt
  bytes := d.m_ulIgnoredEventSize
  startTs := d.m_dblEventIgnoreStartTs
  endTs := dblEventTs

/-- The report is put in front of the accepted event. -/
def reportIgnoredEvents (d : DBTransport) (dblEventTs : ℚ) (nFails : ℕ) : DBTransport :=
  (d.put json (.ignoredEvnts (d.ignoredEvntsNow dblEventTs)) nFails).initIgnoredEvents

/-- The branch that ignores the event; the first one ignored lowers the threshold. -/
def ignoreEvent (d : DBTransport) (event : DamEvent) : DBTransport :=
  { d with
    m_nIgnoredEventCnt := d.m_nIgnoredEventCnt + 1
    m_ulIgnoredEventSize := d.m_ulIgnoredEventSize + event.size
    m_dblEventIgnoreStartTs :=
      if d.m_dblEventIgnoreStartTs = 0 then event.dblEventTs else d.m_dblEventIgnoreStartTs
    m_ulEventInsertThresholdSize :=
      if d.m_dblEventIgnoreStartTs = 0 then cfg.lowThreshold else d.m_ulEventInsertThresholdSize
    trace := d.trace ++ [.ignored event] }

/-- The size check. -/
def accepts (d : DBTransport) (event : DamEvent) : Bool :=
  decide (d.m_ulEventSizeInQueue + event.size < d.m_ulEventInsertThresholdSize)

/-- `HandleEvent`. -/
def handleEvent (d : DBTransport) (call : HandleEventCall) : DBTransport :=
  if !call.bValidInterval then d
  else if waitForActivation cfg call.bActivated call.event.strEventId then d
  else
    let d := d.readQueueSize
    if d.accepts call.event then
      let d := if d.m_nIgnoredEventCnt ≠ 0 then
          d.reportIgnoredEvents json call.event.dblEventTs call.nFailsReport
        else d
      d.put json (.ignite call.event) call.nFailsEvent
    else d.ignoreEvent cfg call.event

/-- `HandleNonIgniteEvent`. -/
def handleNonIgniteEvent (d : DBTransport) (event : DamEvent) (nFails : ℕ) : DBTransport :=
  d.put json (.nonIgnite event) nFails

/-! ## The database thread -/

/-- `GetMaxEventToInsertInOneTxn`. -/
def getMaxEventToInsertInOneTxn (unQueSize : ℕ) : ℕ :=
  let unCurrRecordsInQueue := unQueSize / cfg.m_nDbEventStoreRecordAvgSize
  let unCurrRecordsInQueue := if unCurrRecordsInQueue = 0 then 1 else unCurrRecordsInQueue
  if unCurrRecordsInQueue ≤ cfg.m_nMaxEventInsertInOneTxn then unCurrRecordsInQueue
  else cfg.m_nMaxEventInsertInOneTxn

/-- The threshold goes back to the maximum once the queue is below the window. -/
def revisedThreshold (ulEventInsertThresholdSize ulEventSizeInQueue : ℕ) : ℕ :=
  if ulEventInsertThresholdSize ≠ cfg.m_ulEventQueueMaxSize ∧
      ulEventSizeInQueue < cfg.lowThreshold then cfg.m_ulEventQueueMaxSize
  else ulEventInsertThresholdSize

/-- The end of a turn of `ProcessQueueData`, after `event` has been taken:
`runQueSize` is the size read before the loop. -/
def reviseThreshold (d : DBTransport) (runQueSize : ℕ) (event : QueuedEvent) : DBTransport :=
  { d with
    m_ulEventSizeInQueue := ulSub runQueSize (event.size json)
    m_ulEventInsertThresholdSize :=
      revisedThreshold cfg d.m_ulEventInsertThresholdSize (ulSub runQueSize (event.size json)) }

end DBTransport

/-- The local variables of `ProcessQueueData`. -/
structure QueueDrain where
  runQueSize : ℕ
  unMaxLimit : ℕ
  unInsertCntr : ℕ
deriving DecidableEq

/-- The transport and its database thread, with the events received past the
filters and the elements taken out of the queue so far. -/
structure TransportRun where
  transport : DBTransport
  drain : Option QueueDrain
  received : List DamEvent
  taken : List QueuedEvent

def TransportRun.init : TransportRun := ⟨DBTransport.init cfg, none, [], []⟩

inductive TransportLabel
  | handleEvent (call : HandleEventCall)
  | handleNonIgniteEvent (event : DamEvent) (nFails : ℕ)
  | startProcessQueueData
  | processQueueData
  | flushCache

/-- One turn of `ProcessQueueData`. -/
def processQueueDataTurn (s : TransportRun) (drain : QueueDrain) : TransportRun :=
  if drain.unInsertCntr ≤ drain.unMaxLimit then
    match s.transport.m_queEvent.take with
    | none => { s with drain := none }
    | some (event, queue) =>
      { s with
        transport :=
          { s.transport with m_queEvent := queue }.reviseThreshold json cfg drain.runQueSize event
        drain := some { drain with unInsertCntr := (drain.unInsertCntr + 1) % 2 ^ 16 }
        taken := s.taken ++ [event] }
  else { s with drain := none }

/-- `Run` calls `ProcessQueueData` with the size it has read, unless it is zero. -/
def startProcessQueueData (s : TransportRun) : Option TransportRun :=
  if s.drain.isSome ∨ s.transport.m_queEvent.size = 0 then none
  else
    some { s with
      drain := some ⟨s.transport.m_queEvent.size,
        DBTransport.getMaxEventToInsertInOneTxn cfg s.transport.m_queEvent.size, 1⟩ }

/-- One turn of the loop of `FlushCache`. -/
def flushCacheTurn (s : TransportRun) : Option TransportRun :=
  match s.transport.m_queEvent.take with
  | none => none
  | some (event, queue) =>
    some { s with
      transport := { s.transport with m_queEvent := queue }
      taken := s.taken ++ [event] }

/-- A handler's call, the start of `ProcessQueueData`, one turn of its loop, or
one turn of the loop of `FlushCache`. -/
def transportStep (s : TransportRun) : TransportLabel → Option TransportRun
  | .handleEvent call =>
    some { s with
      transport := s.transport.handleEvent json cfg call
      received := if DBTransport.passesFilters cfg call then s.received ++ [call.event]
        else s.received }
  | .handleNonIgniteEvent event nFails =>
    some { s with
      transport := s.transport.handleNonIgniteEvent json event nFails
      received := s.received ++ [event] }
  | .startProcessQueueData => startProcessQueueData cfg s
  | .processQueueData => s.drain.map (processQueueDataTurn json cfg s)
  | .flushCache => flushCacheTurn s

end Handlers

/-! ## Single calls -/

namespace DBTransport

variable {json : IgnoredEvnts → String} {cfg : TransportConfig}

theorem put_of_lt (d : DBTransport) (event : QueuedEvent) {nFails : ℕ}
    (h : nFails < MAX_LOCK_RETRIES) : d.put json event nFails = d.pushed json event := by
  have hlock : lockRetry 0 nFails = true :=
    (lockRetry_iff 0 nFails (by decide)).2 (by omega)
  unfold put ConcurrentQueue.put
  rw [if_pos hlock]
  rfl

/-- After too many attempts at the lock the element is dropped. -/
theorem put_of_not_lt (d : DBTransport) (event : QueuedEvent) {nFails : ℕ}
    (h : ¬ nFails < MAX_LOCK_RETRIES) : d.put json event nFails = d := by
  have hlock : lockRetry 0 nFails ≠ true := fun hl =>
    h (by simpa using (lockRetry_iff 0 nFails (by decide)).1 hl)
  unfold put ConcurrentQueue.put
  rw [if_neg hlock]
  rfl

@[simp] theorem reviseThreshold_m_queEvent (d : DBTransport) (runQueSize : ℕ)
    (event : QueuedEvent) :
    (d.reviseThreshold json cfg runQueSize event).m_queEvent = d.m_queEvent := by
  unfold reviseThreshold
  with_reducible rfl

@[simp] theorem reviseThreshold_trace (d : DBTransport) (runQueSize : ℕ) (event : QueuedEvent) :
    (d.reviseThreshold json cfg runQueSize event).trace = d.trace := by
  unfold reviseThreshold
  with_reducible rfl

@[simp] theorem reviseThreshold_threshold (d : DBTransport) (runQueSize : ℕ)
    (event : QueuedEvent) :
    (d.reviseThreshold json cfg runQueSize event).m_ulEventInsertThresholdSize =
      revisedThreshold cfg d.m_ulEventInsertThresholdSize (ulSub runQueSize (event.size json)) := by
  unfold reviseThreshold
  with_reducible rfl

variable (json cfg) in
/-- A call that fails a filter changes nothing; one that passes both is accepted
without or with a report in front, or ignored. -/
theorem handleEvent_cases (d : DBTransport) (call : HandleEventCall) :
    (passesFilters cfg call = false ∧ d.handleEvent json cfg call = d) ∨
    (passesFilters cfg call = true ∧ d.readQueueSize.accepts call.event = true ∧
      d.m_nIgnoredEventCnt = 0 ∧
      d.handleEvent json cfg call =
        d.readQueueSize.put json (.ignite call.event) call.nFailsEvent) ∨
    (passesFilters cfg call = true ∧ d.readQueueSize.accepts call.event = true ∧
      d.m_nIgnoredEventCnt ≠ 0 ∧
      d.handleEvent json cfg call =
        (d.readQueueSize.reportIgnoredEvents json call.event.dblEventTs call.nFailsReport).put json
          (.ignite call.event) call.nFailsEvent) ∨
    (passesFilters cfg call = true ∧ d.readQueueSize.accepts call.event = false ∧
      d.handleEvent json cfg call = d.readQueueSize.ignoreEvent cfg call.event) := by
  unfold handleEvent passesFilters
  -- first the two filters, then the room in the queue
  by_cases hv : call.bValidInterval = true
  · by_cases hw : waitForActivation cfg call.bActivated call.event.strEventId = true
    · left
      simp [hv, hw]
    · right
      have hpass : (call.bValidInterval &&
          !waitForActivation cfg call.bActivated call.event.strEventId) = true := by
        simp [hv, hw]
      rw [if_neg (by simp [hv]), if_neg hw]
      by_cases hacc : d.readQueueSize.accepts call.event = true
      · by_cases hcnt : d.m_nIgnoredEventCnt = 0
        · left
          refine ⟨hpass, hacc, hcnt, ?_⟩
          rw [if_pos hacc, if_neg (by simpa [readQueueSize] using hcnt)]
        · right
          left
          refine ⟨hpass, hacc, hcnt, ?_⟩
          rw [if_pos hacc, if_pos (by simpa [readQueueSize] using hcnt)]
      · right
        right
        refine ⟨hpass, by simpa using hacc, ?_⟩
        rw [if_neg hacc]
  · left
    simp [hv]

end DBTransport

/-! ## The steps of the database thread -/

variable {json : IgnoredEvnts → String} {cfg : TransportConfig} {s s' : TransportRun}

theorem startProcessQueueData_eq_some (h : startProcessQueueData cfg s = some s') :
    s.transport.m_queEvent.size ≠ 0 ∧ s' = { s with
      drain := some ⟨s.transport.m_queEvent.size,
        DBTransport.getMaxEventToInsertInOneTxn cfg s.transport.m_queEvent.size, 1⟩ } := by
  unfold startProcessQueueData at h
  by_cases hbusy : s.drain.isSome ∨ s.transport.m_queEvent.size = 0
  · rw [if_pos hbusy] at h
    cases h
  · rw [if_neg hbusy] at h
    cases h
    exact ⟨fun hsize => hbusy (Or.inr hsize), rfl⟩

theorem flushCacheTurn_eq_some (h : flushCacheTurn s = some s') :
    ∃ event queue, s.transport.m_queEvent.take = some (event, queue) ∧
      s' = { s with
        transport := { s.transport with m_queEvent := queue }
        taken := s.taken ++ [event] } := by
  unfold flushCacheTurn at h
  split at h
  · cases h
  · rename_i event queue htake
    cases h
    exact ⟨event, queue, htake, rfl⟩

/-- The loop of `ProcessQueueData` ends, or takes one element. -/
theorem processQueueDataTurn_cases (s : TransportRun) (drain : QueueDrain) :
    processQueueDataTurn json cfg s drain = { s with drain := none } ∨
    ∃ event queue, s.transport.m_queEvent.take = some (event, queue) ∧
      processQueueDataTurn json cfg s drain =
        { s with
          transport := { s.transport with m_queEvent := queue }.reviseThreshold json cfg
            drain.runQueSize event
          drain := some { drain with unInsertCntr := (drain.unInsertCntr + 1) % 2 ^ 16 }
          taken := s.taken ++ [event] } := by
  unfold processQueueDataTurn
  split
  · split
    · exact Or.inl rfl
    · rename_i event queue htake
      exact Or.inr ⟨event, queue, htake, rfl⟩
  · exact Or.inl rfl

end DeviceClient
