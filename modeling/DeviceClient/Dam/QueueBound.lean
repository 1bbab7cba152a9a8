import DeviceClient.Dam.DBTransport
import DeviceClient.Lib.Trace

/-!
# The bound of the transport's queue

The total size of the queue stays within the configured maximum, and after an
ignored event nothing is put until the queue has fallen below the low threshold:
in every run whose calls and turns meet `BoundedStep`. It asks of a non-Ignite
event what `HandleEvent` asks of the others, leaves room for the report, and
keeps the size that `ProcessQueueData` reckons with from being out of date.

* `BoundInv`: the invariant.
* `queueBound_of_run`: the bound over runs.
* `not_queueBound_report`: a report that does not fit.
-/

namespace DeviceClient

/-! ## The property -/

namespace Outcome

/-- An event that `HandleEvent` ignores. -/
def IsDropped (o : Outcome) : Prop := ∃ event, o = .ignored event

def IsPut (o : Outcome) : Prop := ∃ event queueSize, o = .enqueued event queueSize

/-- Something put while the queue was not below the threshold. -/
def IsPutFrom (threshold : ℕ) (o : Outcome) : Prop :=
  ∃ event queueSize, o = .enqueued event queueSize ∧ threshold ≤ queueSize

end Outcome

section

variable (json : IgnoredEvnts → String) (cfg : TransportConfig)

/-- The queue is within its maximum, and the first element put after an ignored
event found the queue below maximum minus window. -/
structure QueueBound (d : DBTransport) : Prop where
  bounded : d.queueSize json ≤ cfg.m_ulEventQueueMaxSize
  hysteresis : Lib.Guarded Outcome.IsDropped
    (Outcome.IsPutFrom (cfg.m_ulEventQueueMaxSize - cfg.m_ulEventInsertWindowSize))
    Outcome.IsPut d.trace

/-- An event has been ignored and nothing has been put since. -/
def DBTransport.Waiting (d : DBTransport) : Prop :=
  Lib.Open Outcome.IsDropped Outcome.IsPut d.trace

/-- The queue has fallen below maximum minus window. -/
def DBTransport.BelowWindow (d : DBTransport) : Prop :=
  d.queueSize json < cfg.m_ulEventQueueMaxSize - cfg.m_ulEventInsertWindowSize

/-- The configured maximum fits in the queue's counter and exceeds the window. -/
structure TransportConfig.Sane : Prop where
  max_lt : cfg.m_ulEventQueueMaxSize < 2 ^ 32
  window_lt : cfg.m_ulEventInsertWindowSize < cfg.m_ulEventQueueMaxSize

/-- The condition on a call or turn.
* An accepted event fits together with the report in front of it.
* When a further event is ignored, the threshold is low or the queue is.
* A non-Ignite event fits, and none comes while an ignored event waits for the
  queue to fall.
* When a turn of `ProcessQueueData` that takes `event` makes out that the queue
  is below the window, it is. -/
def BoundedStep (s : TransportRun) : TransportLabel → Prop
  | .handleEvent call =>
    DBTransport.passesFilters cfg call = true →
    (s.transport.readQueueSize.accepts call.event = true → s.transport.m_nIgnoredEventCnt ≠ 0 →
      call.nFailsReport < MAX_LOCK_RETRIES →
      s.transport.queueSize json +
        (json (s.transport.ignoredEvntsNow call.event.dblEventTs)).utf8ByteSize +
        (if call.nFailsEvent < MAX_LOCK_RETRIES then call.event.size else 0) ≤
        cfg.m_ulEventQueueMaxSize) ∧
    (s.transport.readQueueSize.accepts call.event = false →
      s.transport.m_dblEventIgnoreStartTs = 0 ∨
      s.transport.m_ulEventInsertThresholdSize =
        cfg.m_ulEventQueueMaxSize - cfg.m_ulEventInsertWindowSize ∨
      s.transport.BelowWindow json cfg)
  | .handleNonIgniteEvent event nFails =>
    nFails < MAX_LOCK_RETRIES →
      s.transport.queueSize json + event.size ≤ cfg.m_ulEventQueueMaxSize ∧
      (s.transport.Waiting → s.transport.BelowWindow json cfg)
  | .processQueueData =>
    ∀ drain event queue, s.drain = some drain →
      s.transport.m_queEvent.take = some (event, queue) → s.transport.Waiting →
      ulSub drain.runQueSize (event.size json) <
        cfg.m_ulEventQueueMaxSize - cfg.m_ulEventInsertWindowSize →
      { s.transport with m_queEvent := queue }.BelowWindow json cfg
  | _ => True

/-! ## The invariant -/

/-- The bound, and what `HandleEvent` and `ProcessQueueData` keep it with: while
an ignored event waits, the threshold is low or the queue is. -/
structure BoundInv (d : DBTransport) : Prop where
  bound : QueueBound json cfg d
  sized : d.m_queEvent.Sized (QueuedEvent.size json)
  threshold : d.m_ulEventInsertThresholdSize ≤ cfg.m_ulEventQueueMaxSize
  waiting : d.Waiting → d.m_ulEventInsertThresholdSize =
      cfg.m_ulEventQueueMaxSize - cfg.m_ulEventInsertWindowSize ∨ d.BelowWindow json cfg

end

section

variable {json : IgnoredEvnts → String} {cfg : TransportConfig} {d : DBTransport}

theorem lowThreshold_eq (h : cfg.Sane) :
    cfg.lowThreshold = cfg.m_ulEventQueueMaxSize - cfg.m_ulEventInsertWindowSize := by
  have hmax := h.max_lt
  have hwin := h.window_lt
  unfold TransportConfig.lowThreshold ulSub
  omega

variable (json) in
@[simp] theorem queueSize_pushed (d : DBTransport) (event : QueuedEvent) :
    (d.pushed json event).queueSize json = d.queueSize json + event.size json := by
  simp [DBTransport.queueSize, DBTransport.pushed]

variable (json) in
theorem queueSize_take {event : QueuedEvent} {queue : ConcurrentQueue QueuedEvent}
    (htake : d.m_queEvent.take = some (event, queue)) :
    d.queueSize json =
      event.size json + { d with m_queEvent := queue }.queueSize json := by
  unfold DBTransport.queueSize
  rw [ConcurrentQueue.take_eq_some htake, List.map_cons, List.sum_cons]

theorem boundInv_init (json : IgnoredEvnts → String) (cfg : TransportConfig) :
    BoundInv json cfg (DBTransport.init cfg) where
  bound := ⟨Nat.zero_le _, Lib.guarded_nil⟩
  sized := ConcurrentQueue.sized_empty _
  threshold := Nat.le_refl _
  waiting := fun h => absurd h Lib.not_open_nil

/-- A waiting transport that accepts an event has its queue below the window. -/
theorem belowWindow_of_accepts (hcfg : cfg.Sane) (h : BoundInv json cfg d) {event : DamEvent}
    (hacc : d.readQueueSize.accepts event = true) (hwait : d.Waiting) :
    d.BelowWindow json cfg := by
  rcases h.waiting hwait with hlow | hbelow
  · have hmax := hcfg.max_lt
    have hbound := h.bound.bounded
    have hsize : d.m_queEvent.size = d.queueSize json := h.sized.size_eq (by
      show d.queueSize json < 2 ^ 32
      omega)
    have hlt : d.m_queEvent.size + event.size < d.m_ulEventInsertThresholdSize :=
      of_decide_eq_true hacc
    unfold DBTransport.BelowWindow
    omega
  · exact hbelow

/-- An accepted event fits. -/
theorem fits_of_accepts (hcfg : cfg.Sane) (h : BoundInv json cfg d) {event : DamEvent}
    (hacc : d.readQueueSize.accepts event = true) :
    d.queueSize json + event.size ≤ cfg.m_ulEventQueueMaxSize := by
  have hmax := hcfg.max_lt
  have hbound := h.bound.bounded
  have hthr := h.threshold
  have hsize : d.m_queEvent.size = d.queueSize json := h.sized.size_eq (by
    show d.queueSize json < 2 ^ 32
    omega)
  have hlt : d.m_queEvent.size + event.size < d.m_ulEventInsertThresholdSize :=
    of_decide_eq_true hacc
  omega

/-- Once something is put, nothing waits. -/
theorem not_waiting_pushed (d : DBTransport) (event : QueuedEvent) :
    ¬ (d.pushed json event).Waiting := by
  intro hopen
  rcases Lib.open_append hopen with ⟨_, hig⟩ | ⟨_, hnot⟩
  · cases hig
  · exact hnot ⟨_, _, rfl⟩

theorem boundInv_pushed (h : BoundInv json cfg d) (event : QueuedEvent)
    (hfits : d.queueSize json + event.size json ≤ cfg.m_ulEventQueueMaxSize)
    (hbelow : d.Waiting → d.BelowWindow json cfg) : BoundInv json cfg (d.pushed json event) where
  bound := by
    constructor
    · rw [queueSize_pushed]
      exact hfits
    · apply Lib.guarded_append h.bound.hysteresis
      rintro ⟨e, n, heq, hle⟩ hopen
      cases heq
      have hlt := hbelow hopen
      unfold DBTransport.BelowWindow at hlt
      omega
  sized := h.sized.push event
  threshold := h.threshold
  waiting := fun hwait => absurd hwait (not_waiting_pushed d event)

theorem boundInv_put (h : BoundInv json cfg d) (event : QueuedEvent) (nFails : ℕ)
    (hfits : nFails < MAX_LOCK_RETRIES →
      d.queueSize json + event.size json ≤ cfg.m_ulEventQueueMaxSize)
    (hbelow : nFails < MAX_LOCK_RETRIES → d.Waiting → d.BelowWindow json cfg) :
    BoundInv json cfg (d.put json event nFails) := by
  by_cases hlock : nFails < MAX_LOCK_RETRIES
  · rw [DBTransport.put_of_lt d event hlock]
    exact boundInv_pushed h event (hfits hlock) (hbelow hlock)
  · rw [DBTransport.put_of_not_lt d event hlock]
    exact h

/-- The invariant reads the queue, the trace and the threshold. -/
theorem BoundInv.frame (h : BoundInv json cfg d) {d' : DBTransport}
    (hqueue : d'.m_queEvent = d.m_queEvent) (htrace : d'.trace = d.trace)
    (hthr : d'.m_ulEventInsertThresholdSize ≤ cfg.m_ulEventQueueMaxSize)
    (hlow : d.Waiting → d'.m_ulEventInsertThresholdSize =
      cfg.m_ulEventQueueMaxSize - cfg.m_ulEventInsertWindowSize ∨ d.BelowWindow json cfg) :
    BoundInv json cfg d' := by
  have hsize : d'.queueSize json = d.queueSize json := by
    unfold DBTransport.queueSize
    rw [hqueue]
  constructor
  · constructor
    · rw [hsize]
      exact h.bound.bounded
    · rw [htrace]
      exact h.bound.hysteresis
  · rw [hqueue]
    exact h.sized
  · exact hthr
  · intro hwait
    unfold DBTransport.Waiting at hwait
    unfold DBTransport.BelowWindow
    rw [htrace] at hwait
    rw [hsize]
    exact hlow hwait

theorem boundInv_readQueueSize (h : BoundInv json cfg d) : BoundInv json cfg d.readQueueSize :=
  h.frame rfl rfl h.threshold h.waiting

theorem boundInv_initIgnoredEvents (h : BoundInv json cfg d) :
    BoundInv json cfg d.initIgnoredEvents :=
  h.frame rfl rfl h.threshold h.waiting

theorem boundInv_ignoreEvent (hcfg : cfg.Sane) (h : BoundInv json cfg d) (event : DamEvent)
    (hlow : d.m_dblEventIgnoreStartTs = 0 ∨ d.m_ulEventInsertThresholdSize =
      cfg.m_ulEventQueueMaxSize - cfg.m_ulEventInsertWindowSize ∨ d.BelowWindow json cfg) :
    BoundInv json cfg (d.ignoreEvent cfg event) := by
  have hthr : (d.ignoreEvent cfg event).m_ulEventInsertThresholdSize =
      if d.m_dblEventIgnoreStartTs = 0 then cfg.lowThreshold
      else d.m_ulEventInsertThresholdSize := rfl
  have hle := h.threshold
  constructor
  · constructor
    · exact h.bound.bounded
    · apply Lib.guarded_append h.bound.hysteresis
      rintro ⟨e, n, heq, _⟩
      cases heq
  · exact h.sized
  · rw [hthr, lowThreshold_eq hcfg]
    split
    · omega
    · exact hle
  · intro _
    rw [hthr, lowThreshold_eq hcfg]
    by_cases hzero : d.m_dblEventIgnoreStartTs = 0
    · rw [if_pos hzero]
      exact Or.inl rfl
    · rw [if_neg hzero]
      exact hlow.resolve_left hzero

theorem boundInv_take (h : BoundInv json cfg d) {event : QueuedEvent}
    {queue : ConcurrentQueue QueuedEvent} (htake : d.m_queEvent.take = some (event, queue)) :
    BoundInv json cfg { d with m_queEvent := queue } := by
  have hsize := queueSize_take json htake
  have hbound := h.bound.bounded
  constructor
  · constructor
    · omega
    · exact h.bound.hysteresis
  · exact h.sized.take htake
  · exact h.threshold
  · intro hwait
    rcases h.waiting hwait with hlow | hbelow
    · exact Or.inl hlow
    · right
      unfold DBTransport.BelowWindow at hbelow ⊢
      omega

/-- The threshold goes up only when the queue is below the window. -/
theorem boundInv_reviseThreshold (hcfg : cfg.Sane) (h : BoundInv json cfg d) (runQueSize : ℕ)
    (event : QueuedEvent)
    (hbelow : d.Waiting → ulSub runQueSize (event.size json) <
      cfg.m_ulEventQueueMaxSize - cfg.m_ulEventInsertWindowSize → d.BelowWindow json cfg) :
    BoundInv json cfg (d.reviseThreshold json cfg runQueSize event) := by
  refine h.frame (DBTransport.reviseThreshold_m_queEvent _ _ _)
    (DBTransport.reviseThreshold_trace _ _ _) ?_ fun hwait => ?_
  · rw [DBTransport.reviseThreshold_threshold]
    unfold DBTransport.revisedThreshold
    split
    · exact Nat.le_refl _
    · exact h.threshold
  · rw [DBTransport.reviseThreshold_threshold]
    unfold DBTransport.revisedThreshold
    split
    · rename_i hup
      rw [lowThreshold_eq hcfg] at hup
      exact Or.inr (hbelow hwait hup.2)
    · exact h.waiting hwait

/-- The report and the event behind it. -/
theorem boundInv_reported (hcfg : cfg.Sane) (h : BoundInv json cfg d) {event : DamEvent}
    {nFailsReport nFailsEvent : ℕ} (hacc : d.readQueueSize.accepts event = true)
    (hroom : nFailsReport < MAX_LOCK_RETRIES →
      d.queueSize json + (json (d.ignoredEvntsNow event.dblEventTs)).utf8ByteSize +
        (if nFailsEvent < MAX_LOCK_RETRIES then event.size else 0) ≤
        cfg.m_ulEventQueueMaxSize) :
    BoundInv json cfg ((d.readQueueSize.reportIgnoredEvents json event.dblEventTs
      nFailsReport).put json (.ignite event) nFailsEvent) := by
  have hfits := fits_of_accepts hcfg h hacc
  have hbelow := belowWindow_of_accepts hcfg h hacc
  have hread := boundInv_readQueueSize h
  unfold DBTransport.reportIgnoredEvents
  by_cases hlock : nFailsReport < MAX_LOCK_RETRIES
  · -- the report is put; the event comes next, and nothing waits any more
    have hboth := hroom hlock
    have hfirst : d.queueSize json + (json (d.ignoredEvntsNow event.dblEventTs)).utf8ByteSize ≤
        cfg.m_ulEventQueueMaxSize := Nat.le_trans (Nat.le_add_right _ _) hboth
    rw [DBTransport.put_of_lt _ _ hlock]
    have hreport := boundInv_pushed hread
      (.ignoredEvnts (d.readQueueSize.ignoredEvntsNow event.dblEventTs)) hfirst hbelow
    apply boundInv_put (boundInv_initIgnoredEvents hreport)
    · intro hevent
      rw [if_pos hevent] at hboth
      have hsize := queueSize_pushed json d.readQueueSize
        (.ignoredEvnts (d.readQueueSize.ignoredEvntsNow event.dblEventTs))
      show (d.readQueueSize.pushed json _).queueSize json + event.size ≤ _
      rw [hsize]
      exact hboth
    · exact fun _ hwait => absurd hwait (not_waiting_pushed _ _)
  · rw [DBTransport.put_of_not_lt _ _ hlock]
    exact boundInv_put (boundInv_initIgnoredEvents hread) _ _ (fun _ => hfits) fun _ => hbelow

/-! ## Runs -/

theorem boundInv_handleEvent (hcfg : cfg.Sane) {s : TransportRun}
    (h : BoundInv json cfg s.transport) (call : HandleEventCall)
    (hok : BoundedStep json cfg s (.handleEvent call)) :
    BoundInv json cfg (s.transport.handleEvent json cfg call) := by
  have hread := boundInv_readQueueSize h
  rcases DBTransport.handleEvent_cases json cfg s.transport call with
    ⟨_, heq⟩ | ⟨_, hacc, _, heq⟩ | ⟨hpass, hacc, hcnt, heq⟩ | ⟨hpass, hacc, heq⟩
  · rw [heq]
    exact h
  · have hfits := fits_of_accepts hcfg h hacc
    have hbelow := belowWindow_of_accepts hcfg h hacc
    rw [heq]
    exact boundInv_put hread _ _ (fun _ => hfits) fun _ => hbelow
  · rw [heq]
    exact boundInv_reported hcfg h hacc ((hok hpass).1 hacc hcnt)
  · rw [heq]
    exact boundInv_ignoreEvent hcfg hread call.event ((hok hpass).2 hacc)

theorem boundInv_step (hcfg : cfg.Sane) (s : TransportRun) (label : TransportLabel)
    (s' : TransportRun) (h : BoundInv json cfg s.transport) (hok : BoundedStep json cfg s label)
    (hstep : transportStep json cfg s label = some s') : BoundInv json cfg s'.transport := by
  cases label with
  | handleEvent call =>
    cases hstep
    exact boundInv_handleEvent hcfg h call hok
  | handleNonIgniteEvent event nFails =>
    cases hstep
    exact boundInv_put h _ nFails (fun hlock => (hok hlock).1) fun hlock => (hok hlock).2
  | startProcessQueueData =>
    rcases startProcessQueueData_eq_some hstep with ⟨_, rfl⟩
    exact h
  | processQueueData =>
    rcases Option.map_eq_some_iff.1 hstep with ⟨drain, hdrain, rfl⟩
    rcases processQueueDataTurn_cases s drain with heq | ⟨event, queue, htake, heq⟩
    · rw [heq]
      exact h
    · rw [heq]
      apply boundInv_reviseThreshold hcfg (boundInv_take h htake)
      exact fun hwait => hok drain event queue hdrain htake hwait
  | flushCache =>
    rcases flushCacheTurn_eq_some hstep with ⟨event, queue, htake, rfl⟩
    exact boundInv_take h htake

end

/-- In every run whose calls and turns meet the condition, the queue is bounded
and nothing is put too early. -/
theorem queueBound_of_run (json : IgnoredEvnts → String) (cfg : TransportConfig) (hcfg : cfg.Sane)
    (labels : List TransportLabel) (s : TransportRun)
    (hok : Lib.Along (transportStep json cfg) (BoundedStep json cfg) (TransportRun.init cfg) labels)
    (hrun : Lib.exec (transportStep json cfg) (TransportRun.init cfg) labels = some s) :
    QueueBound json cfg s.transport :=
  (Lib.exec_inv (P := fun s => BoundInv json cfg s.transport) (boundInv_step hcfg) labels _ s
    (boundInv_init json cfg) hok hrun).bound

/-! ## A run within the bound, and one beyond it -/

/-- Two hundred bytes with a window of twenty. -/
def twoHundredBytes : TransportConfig := ⟨200, 20, 200, 50, false, []⟩

/-- A speed event of 93 bytes, past the filters. -/
def speedCall (dblEventTs : ℚ) : HandleEventCall :=
  let strSerializedEvnt :=
    "\x7b\"Data\":\x7b\"value\":1\x7d,\"EventID\":\"Speed\",\"Timestamp\":1704067200001," ++
      "\"Timezone\":0,\"Version\":\"1.0\"\x7d"
  ⟨⟨"Speed", dblEventTs, strSerializedEvnt⟩, true, true, 0, 0⟩

/-- The report of one such event has 169 bytes. -/
def speedReport (_ : IgnoredEvnts) : String :=
  "\x7b\"Data\":\x7b\"bytes\":\"93\",\"count\":1,\"endTs\":1704067200004.0," ++
    "\"startTs\":1704067200003.0\x7d,\"EventID\":\"EventCacheOverflow\"," ++
    "\"Timestamp\":1704067200004,\"Timezone\":0,\"Version\":\"x.x\"\x7d"

/-- Two events are accepted and a third is ignored; two are taken, and the next one
fits together with the report. -/
def boundedRun : List TransportLabel :=
  [.handleEvent (speedCall 1), .handleEvent (speedCall 2), .handleEvent (speedCall 3),
   .startProcessQueueData, .processQueueData, .flushCache, .handleEvent (speedCall 4)]

set_option maxRecDepth 20000 in
theorem queueBound_boundedRun :
    ∃ s, Lib.exec (transportStep speedReport ⟨270, 20, 200, 50, false, []⟩)
        (TransportRun.init ⟨270, 20, 200, 50, false, []⟩) boundedRun = some s ∧
      QueueBound speedReport ⟨270, 20, 200, 50, false, []⟩ s.transport := by
  refine ⟨_, rfl, queueBound_of_run _ _ ⟨by decide, by decide⟩ boundedRun _ ?_ rfl⟩
  refine Lib.along_cons rfl (fun _ => ⟨fun _ hcnt => absurd rfl hcnt, fun _ => Or.inl rfl⟩) ?_
  refine Lib.along_cons rfl (fun _ => ⟨fun _ hcnt => absurd rfl hcnt, fun _ => Or.inl rfl⟩) ?_
  refine Lib.along_cons rfl (fun _ => ⟨fun _ hcnt => absurd rfl hcnt, fun _ => Or.inl rfl⟩) ?_
  refine Lib.along_cons rfl trivial (Lib.along_cons rfl ?_ (Lib.along_cons rfl trivial ?_))
  · intro drain event queue hdrain htake _ _
    cases htake
    show 93 < 250
    omega
  · refine Lib.along_cons rfl (fun _ => ⟨fun _ _ _ => ?_, fun hacc => absurd hacc ?_⟩) trivial
    · show 0 + 169 + 93 ≤ 270
      omega
    · decide

/-- Two events fill the queue, the third is ignored, one is taken, and the fourth
is accepted with the report in front of it. -/
def reportRun : List TransportLabel :=
  [.handleEvent (speedCall 1704067200001), .handleEvent (speedCall 1704067200002),
   .handleEvent (speedCall 1704067200003), .startProcessQueueData, .processQueueData,
   .handleEvent (speedCall 1704067200004)]

set_option maxRecDepth 20000 in
/-- The check of `HandleEvent` leaves no room for the report. -/
theorem not_queueBound_report :
    ∃ s, Lib.exec (transportStep speedReport twoHundredBytes) (TransportRun.init twoHundredBytes)
        reportRun = some s ∧ ¬ QueueBound speedReport twoHundredBytes s.transport := by
  refine ⟨_, rfl, fun h => ?_⟩
  have hsize : 93 + 169 + 93 ≤ 200 := h.bounded
  omega

end DeviceClient
