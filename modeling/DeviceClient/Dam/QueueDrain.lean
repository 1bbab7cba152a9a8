import DeviceClient.Dam.DBTransport
import DeviceClient.Lib.Loop
import Mathlib.Data.List.Induction

/-!
# One run of `ProcessQueueData`

The database thread hands `ProcessQueueData` the size of the queue; the run takes
a batch of events and after each one records the size it was handed, less the
size of that event.

* `processQueueData`: the whole run, no handler being called meanwhile.
* `processQueueData_spec`: it takes the first `batchSize` events and records the
  size less that of the last one taken.
* `DrainAccounted`: at least one event and at most the limit, and the size
  recorded is that of the events left.
* `drainAccounted_iff`: the queues and limits for which this is so.
-/

namespace DeviceClient

section

variable (json : IgnoredEvnts → String) (cfg : TransportConfig)

/-- A queue into which these events were put. -/
def queueOf (events : List QueuedEvent) : ConcurrentQueue QueuedEvent :=
  events.foldl (fun q event => q.push event (event.size json)) ConcurrentQueue.empty

/-- One turn of the loop of `ProcessQueueData`; it leaves once the run is over. -/
def drainBody (s : TransportRun) : TransportRun ⊕ TransportRun :=
  match s.drain with
  | none => .inr s
  | some drain => .inl (processQueueDataTurn json cfg s drain)

/-- `ProcessQueueData` before its loop; `Run` hands it the size of the queue. -/
def drainStart (d : DBTransport) : TransportRun where
  transport := d
  drain := some ⟨d.m_queEvent.size,
    DBTransport.getMaxEventToInsertInOneTxn cfg d.m_queEvent.size, 1⟩
  received := []
  taken := []

/-- `ProcessQueueData`. -/
def processQueueData (d : DBTransport) : TransportRun :=
  (Lib.loop (drainBody json cfg) (d.m_queEvent.values.length + 2) (drainStart cfg d)).getD
    (drainStart cfg d)

/-- What is claimed of a run that was handed `runQueSize`, for the configured limit. -/
structure DrainAccounted (maxInsertEventInOneTxn : ℤ) (runQueSize : ℕ) (s : TransportRun) :
    Prop where
  atLeastOne : 1 ≤ s.taken.length
  atMost : (s.taken.length : ℤ) ≤ maxInsertEventInOneTxn
  recorded : s.transport.m_ulEventSizeInQueue = s.transport.queueSize json
  noUnderflow : ∀ event ∈ s.taken,
    (ulSub runQueSize (event.size json) : ℤ) = (runQueSize : ℤ) - event.size json

end

/-- How many of `m` events the loop takes from the given counter on. The counter
is a `uint16_t`: it never gets above the largest limit. -/
def turnsLeft (unMaxLimit unInsertCntr m : ℕ) : ℕ :=
  if unMaxLimit = 2 ^ 16 - 1 then m else min (unMaxLimit + 1 - unInsertCntr) m

/-- How many of `m` events a run takes. -/
def batchSize (unMaxLimit m : ℕ) : ℕ := turnsLeft unMaxLimit 1 m

/-! ## The queue -/

section Queue

variable {json : IgnoredEvnts → String}

theorem values_queueOf (events : List QueuedEvent) : (queueOf json events).values = events := by
  unfold queueOf
  induction events using List.reverseRecOn with
  | nil => rfl
  | append_singleton events event ih =>
    rw [List.foldl_append, List.foldl_cons, List.foldl_nil, ConcurrentQueue.values_push, ih]

/-- The counter of the queue is an `unsigned int`. -/
theorem size_queueOf (events : List QueuedEvent) :
    (queueOf json events).size = (events.map (QueuedEvent.size json)).sum % 2 ^ 32 := by
  unfold queueOf
  induction events using List.reverseRecOn with
  | nil => exact (Nat.zero_mod _).symm
  | append_singleton events event ih =>
    rw [List.foldl_append, List.foldl_cons, List.foldl_nil, List.map_append, List.sum_append,
      List.map_singleton, List.sum_singleton, Nat.add_mod, ← ih]
    rfl

theorem take_of_values_cons {q : ConcurrentQueue QueuedEvent} {event : QueuedEvent}
    {rest : List QueuedEvent} (hq : q.values = event :: rest) :
    ∃ q', q.take = some (event, q') ∧ q'.values = rest := by
  cases htake : q.take with
  | none =>
    rw [ConcurrentQueue.take_eq_none htake] at hq
    exact absurd hq (List.cons_ne_nil _ _).symm
  | some taken =>
    have hvalues := ConcurrentQueue.take_eq_some htake
    rw [hq, List.cons.injEq] at hvalues
    exact ⟨taken.2, by rw [hvalues.1], hvalues.2.symm⟩

theorem take_of_values_nil {q : ConcurrentQueue QueuedEvent} (hq : q.values = []) :
    q.take = none := by
  cases htake : q.take with
  | none => rfl
  | some taken =>
    rw [ConcurrentQueue.take_eq_some htake] at hq
    exact absurd hq (List.cons_ne_nil _ _)

end Queue

/-! ## The loop -/

section Loop

variable {json : IgnoredEvnts → String} {cfg : TransportConfig}

theorem turnsLeft_zero {unMaxLimit unInsertCntr : ℕ} (hcntr : unInsertCntr < 2 ^ 16)
    (hstop : ¬ unInsertCntr ≤ unMaxLimit) (m : ℕ) : turnsLeft unMaxLimit unInsertCntr m = 0 := by
  unfold turnsLeft
  rw [if_neg (by omega)]
  omega

theorem turnsLeft_succ {unMaxLimit unInsertCntr : ℕ} (hcntr : unInsertCntr ≤ unMaxLimit)
    (hlimit : unMaxLimit < 2 ^ 16) (m : ℕ) :
    turnsLeft unMaxLimit unInsertCntr (m + 1) =
      turnsLeft unMaxLimit ((unInsertCntr + 1) % 2 ^ 16) m + 1 := by
  unfold turnsLeft
  split
  · rfl
  · have hmod : (unInsertCntr + 1) % 2 ^ 16 = unInsertCntr + 1 := Nat.mod_eq_of_lt (by omega)
    rw [hmod]
    omega

theorem getD_map_some_getD {α β : Type} (f : α → β) (o : Option α) (a : α) (b : β) :
    ((some (o.getD a)).map f).getD b = (o.map f).getD (f a) := by
  cases o <;> rfl

theorem reviseThreshold_m_ulEventSizeInQueue (d : DBTransport) (runQueSize : ℕ)
    (event : QueuedEvent) :
    (d.reviseThreshold json cfg runQueSize event).m_ulEventSizeInQueue =
      ulSub runQueSize (event.size json) := by
  unfold DBTransport.reviseThreshold
  with_reducible rfl

/-- The turn at which the run ends: the counter is above the limit, or no event is left. -/
theorem drainBody_over {s : TransportRun} {drain : QueueDrain} (hdrain : s.drain = some drain)
    (hover : drain.unInsertCntr ≤ drain.unMaxLimit → s.transport.m_queEvent.take = none) :
    drainBody json cfg s = .inl { s with drain := none } := by
  have hturn : processQueueDataTurn json cfg s drain = { s with drain := none } := by
    unfold processQueueDataTurn
    split
    · rename_i hle
      rw [hover hle]
    · rfl
  unfold drainBody
  rw [hdrain]
  exact congrArg Sum.inl hturn

/-- The loop from a turn on: what it takes, leaves and records. -/
theorem drain_result {runQueSize unMaxLimit : ℕ} (hlimit : unMaxLimit < 2 ^ 16)
    (events : List QueuedEvent) :
    ∀ (s : TransportRun) (unInsertCntr : ℕ), unInsertCntr < 2 ^ 16 →
      s.drain = some ⟨runQueSize, unMaxLimit, unInsertCntr⟩ →
      s.transport.m_queEvent.values = events →
      ∃ t, Lib.loop (drainBody json cfg) (events.length + 2) s = some t ∧
        t.taken = s.taken ++ events.take (turnsLeft unMaxLimit unInsertCntr events.length) ∧
        t.transport.m_queEvent.values =
          events.drop (turnsLeft unMaxLimit unInsertCntr events.length) ∧
        t.transport.m_ulEventSizeInQueue =
          ((events.take (turnsLeft unMaxLimit unInsertCntr events.length)).getLast?.map fun event =>
            ulSub runQueSize (event.size json)).getD s.transport.m_ulEventSizeInQueue := by
  induction events with
  | nil =>
    intro s unInsertCntr hcntr hdrain hvalues
    have hturn := @drainBody_over json cfg s _ hdrain fun _ => take_of_values_nil hvalues
    refine ⟨{ s with drain := none }, (Lib.loop_inl hturn 1).trans rfl, ?_, ?_, ?_⟩
    · simp
    · simpa using hvalues
    · simp
  | cons event rest ih =>
    intro s unInsertCntr hcntr hdrain hvalues
    by_cases hle : unInsertCntr ≤ unMaxLimit
    · rcases take_of_values_cons hvalues with ⟨queue, htake, hrest⟩
      let s' : TransportRun :=
        { s with
          transport :=
            { s.transport with m_queEvent := queue }.reviseThreshold json cfg runQueSize event
          drain := some ⟨runQueSize, unMaxLimit, (unInsertCntr + 1) % 2 ^ 16⟩
          taken := s.taken ++ [event] }
      have hone : processQueueDataTurn json cfg s ⟨runQueSize, unMaxLimit, unInsertCntr⟩ = s' := by
        unfold processQueueDataTurn
        rw [if_pos hle, htake]
      have hturn : drainBody json cfg s = .inl s' := by
        unfold drainBody
        rw [hdrain]
        exact congrArg Sum.inl hone
      rcases ih s' ((unInsertCntr + 1) % 2 ^ 16) (Nat.mod_lt _ (by decide)) rfl
        ((congrArg ConcurrentQueue.values
          (DBTransport.reviseThreshold_m_queEvent _ runQueSize event)).trans hrest) with
        ⟨t, hloop, htaken, hleft, hrecorded⟩
      rw [List.length_cons, turnsLeft_succ hle hlimit, List.take_succ_cons, List.drop_succ_cons]
      refine ⟨t, (Lib.loop_inl hturn _).trans hloop, ?_, hleft, ?_⟩
      · rw [htaken]
        exact List.append_assoc _ _ _
      · -- the last event taken is this one if no further one is taken
        rw [hrecorded, List.getLast?_cons, getD_map_some_getD]
        exact congrArg _ (reviseThreshold_m_ulEventSizeInQueue _ runQueSize event)
    · have hturn := @drainBody_over json cfg s _ hdrain fun hin => absurd hin hle
      rw [turnsLeft_zero hcntr hle, List.take_zero, List.drop_zero]
      exact ⟨{ s with drain := none }, (Lib.loop_inl hturn _).trans rfl,
        (List.append_nil _).symm, hvalues, rfl⟩

theorem getMaxEventToInsertInOneTxn_le (unQueSize : ℕ) :
    DBTransport.getMaxEventToInsertInOneTxn cfg unQueSize ≤ cfg.m_nMaxEventInsertInOneTxn := by
  unfold DBTransport.getMaxEventToInsertInOneTxn
  simp only
  split
  · split <;> omega
  · split
    · assumption
    · exact le_rfl

/-- A run takes the first events of the queue and records the size that it was
handed, less that of the last one taken. -/
theorem processQueueData_spec (hmax : cfg.m_nMaxEventInsertInOneTxn < 2 ^ 16) {d : DBTransport}
    {events : List QueuedEvent} (hd : d.m_queEvent.values = events) {k : ℕ}
    (hk : k = batchSize (DBTransport.getMaxEventToInsertInOneTxn cfg d.m_queEvent.size)
      events.length) :
    (processQueueData json cfg d).taken = events.take k ∧
      (processQueueData json cfg d).transport.m_queEvent.values = events.drop k ∧
      (processQueueData json cfg d).transport.m_ulEventSizeInQueue =
        ((events.take k).getLast?.map fun event =>
          ulSub d.m_queEvent.size (event.size json)).getD d.m_ulEventSizeInQueue := by
  have hlimit : DBTransport.getMaxEventToInsertInOneTxn cfg d.m_queEvent.size < 2 ^ 16 :=
    lt_of_le_of_lt (getMaxEventToInsertInOneTxn_le _) hmax
  rcases @drain_result json cfg d.m_queEvent.size _ hlimit events (drainStart cfg d) 1 (by decide)
    rfl hd with ⟨t, hloop, htaken, hleft, hrecorded⟩
  have hrun : processQueueData json cfg d = t := by
    unfold processQueueData
    rw [hd, hloop]
    rfl
  rw [hrun, hk]
  exact ⟨htaken, hleft, hrecorded⟩

end Loop

/-! ## The accounting -/

section Accounting

variable {json : IgnoredEvnts → String}

/-- The limit is positive as a `uint16_t` too, the batch keeps to it, and of the
batch the events before the last one make up what the counter of the queue has
wrapped: nothing as long as the total is below `2 ^ 32`. -/
structure BatchCounted (json : IgnoredEvnts → String)
    (maxInsertEventInOneTxn : ℤ) (events : List QueuedEvent) (k : ℕ) : Prop where
  positive : 0 < maxInsertEventInOneTxn
  fits : maxInsertEventInOneTxn % 2 ^ 16 ≠ 0
  bounded : (k : ℤ) ≤ maxInsertEventInOneTxn
  before : ((events.take (k - 1)).map (QueuedEvent.size json)).sum =
    2 ^ 32 * ((events.map (QueuedEvent.size json)).sum / 2 ^ 32)
  small : ∀ event ∈ events.take k,
    event.size json ≤ (events.map (QueuedEvent.size json)).sum % 2 ^ 32

theorem batchSize_pos {cfg : TransportConfig} {unQueSize m : ℕ} (hm : 0 < m) :
    0 < batchSize (DBTransport.getMaxEventToInsertInOneTxn cfg unQueSize) m ↔
      cfg.m_nMaxEventInsertInOneTxn ≠ 0 := by
  have hmax : 0 < DBTransport.getMaxEventToInsertInOneTxn cfg unQueSize ↔
      cfg.m_nMaxEventInsertInOneTxn ≠ 0 := by
    unfold DBTransport.getMaxEventToInsertInOneTxn
    simp only
    generalize unQueSize / cfg.m_nDbEventStoreRecordAvgSize = unCurrRecordsInQueue
    split
    · split <;> omega
    · split <;> omega
  rw [← hmax]
  unfold batchSize turnsLeft
  split <;> omega

theorem batchSize_le (unMaxLimit m : ℕ) : batchSize unMaxLimit m ≤ m := by
  unfold batchSize turnsLeft
  split <;> omega

/-- The difference of a 32-bit size and the size of an event. -/
theorem ulSub_eq_iff {a b : ℕ} (ha : a < 2 ^ 32) :
    (ulSub a b : ℤ) = (a : ℤ) - b ↔ b ≤ a := by
  unfold ulSub
  constructor
  · intro heq
    have hnonneg : (0 : ℤ) ≤ (a : ℤ) - b := by
      rw [← heq]
      exact Int.natCast_nonneg _
    omega
  · intro hle
    omega

theorem take_eq_concat {α : Type} {l : List α} {k : ℕ} (hpos : 0 < k) (hk : k ≤ l.length) :
    ∃ last, l.take k = l.take (k - 1) ++ [last] := by
  obtain ⟨j, rfl⟩ : ∃ j, k = j + 1 := ⟨k - 1, by omega⟩
  refine ⟨l[j], ?_⟩
  rw [Nat.add_sub_cancel, List.take_add_one, List.getElem?_eq_getElem (by omega)]
  rfl

/-- The size of the first events of a queue and that of the others. -/
theorem sum_take_add_drop (events : List QueuedEvent) (k : ℕ) :
    ((events.take k).map (QueuedEvent.size json)).sum +
        ((events.drop k).map (QueuedEvent.size json)).sum =
      (events.map (QueuedEvent.size json)).sum := by
  rw [← List.sum_append, ← List.map_append, List.take_append_drop]

/-- The size recorded for the last event taken is that of the events left iff those
before it make up what the counter has wrapped. -/
theorem recorded_eq_iff {events : List QueuedEvent} {runQueSize k : ℕ}
    (hsize : runQueSize = (events.map (QueuedEvent.size json)).sum % 2 ^ 32) (hk : 0 < k)
    (hle : k ≤ events.length) (hfit : ∀ event ∈ events.take k, event.size json ≤ runQueSize)
    (ulOld : ℕ) :
    ((events.take k).getLast?.map fun event =>
        ulSub runQueSize (event.size json)).getD ulOld =
          ((events.drop k).map (QueuedEvent.size json)).sum ↔
      ((events.take (k - 1)).map (QueuedEvent.size json)).sum =
        2 ^ 32 * ((events.map (QueuedEvent.size json)).sum / 2 ^ 32) := by
  rcases take_eq_concat hk hle with ⟨last, hlast⟩
  have hbound : last.size json ≤ runQueSize := by
    refine hfit last ?_
    rw [hlast]
    exact List.mem_append_right _ (List.mem_singleton_self last)
  have hdiff := (ulSub_eq_iff (by omega)).2 hbound
  have hsum := @sum_take_add_drop json events k
  rw [hlast, List.map_append, List.sum_append, List.map_singleton, List.sum_singleton] at hsum
  rw [hlast, List.getLast?_concat, Option.map_some, Option.getD_some]
  omega

/-- From what a run takes, leaves and records. -/
theorem accounted_of_spec {maxInsertEventInOneTxn : ℤ} {events : List QueuedEvent}
    {runQueSize k ulOld : ℕ} {s : TransportRun}
    (hsize : runQueSize = (events.map (QueuedEvent.size json)).sum % 2 ^ 32)
    (hpos : 0 < k ↔ maxInsertEventInOneTxn % 2 ^ 16 ≠ 0) (hle : k ≤ events.length)
    (hspec : s.taken = events.take k ∧ s.transport.m_queEvent.values = events.drop k ∧
      s.transport.m_ulEventSizeInQueue =
        ((events.take k).getLast?.map fun event =>
          ulSub runQueSize (event.size json)).getD ulOld) :
    DrainAccounted json maxInsertEventInOneTxn runQueSize s ↔
      BatchCounted json maxInsertEventInOneTxn events k := by
  rcases hspec with ⟨htaken, hleft, hrecorded⟩
  have hlength : s.taken.length = k := by
    rw [htaken, List.length_take]
    omega
  have hsmall : (∀ event ∈ s.taken,
      (ulSub runQueSize (event.size json) : ℤ) = (runQueSize : ℤ) - event.size json) ↔
      ∀ event ∈ events.take k, event.size json ≤ runQueSize := by
    rw [htaken]
    exact forall₂_congr fun event _ => ulSub_eq_iff (by omega)
  have hqueue : s.transport.queueSize json =
      ((events.drop k).map (QueuedEvent.size json)).sum := by
    unfold DBTransport.queueSize
    rw [hleft]
  have hcount := fun hk hfit => @recorded_eq_iff json events runQueSize k hsize hk hle hfit ulOld
  rw [← hrecorded, ← hqueue] at hcount
  constructor
  · rintro ⟨hone, hmost, hrec, hunder⟩
    rw [hlength] at hone hmost
    have hfit := hsmall.1 hunder
    exact ⟨by omega, hpos.1 hone, hmost, (hcount hone hfit).1 hrec, hsize ▸ hfit⟩
  · rintro ⟨_, hfits, hbounded, hbefore, hfit⟩
    have hone := hpos.2 hfits
    rw [← hsize] at hfit
    refine ⟨?_, ?_, (hcount hone hfit).2 hbefore, hsmall.2 hfit⟩
    · rw [hlength]
      exact hone
    · rw [hlength]
      exact hbounded

end Accounting

/-- For every queue that is not empty, every configured limit and the other
settings: a run accounts for the queue iff its batch is counted. -/
theorem drainAccounted_iff (json : IgnoredEvnts → String)
    (eventQueueMaxSize eventInsertWindowSize eventStoreRecordSize maxInsertEventInOneTxn : ℤ)
    (bUploadAfterActivation : Bool) (activationValidatorExceptions : List String)
    (d : DBTransport) (first : QueuedEvent) (rest : List QueuedEvent) :
    DrainAccounted json maxInsertEventInOneTxn (queueOf json (first :: rest)).size
        (processQueueData json (TransportConfig.ofIgniteConfig eventQueueMaxSize
          eventInsertWindowSize eventStoreRecordSize maxInsertEventInOneTxn bUploadAfterActivation
          activationValidatorExceptions) { d with m_queEvent := queueOf json (first :: rest) }) ↔
      BatchCounted json maxInsertEventInOneTxn (first :: rest)
        (batchSize (DBTransport.getMaxEventToInsertInOneTxn
          (TransportConfig.ofIgniteConfig eventQueueMaxSize eventInsertWindowSize
            eventStoreRecordSize maxInsertEventInOneTxn bUploadAfterActivation
            activationValidatorExceptions)
          (queueOf json (first :: rest)).size) (first :: rest).length) := by
  generalize hcfg : TransportConfig.ofIgniteConfig eventQueueMaxSize eventInsertWindowSize
    eventStoreRecordSize maxInsertEventInOneTxn bUploadAfterActivation
    activationValidatorExceptions = cfg
  have hcount : cfg.m_nMaxEventInsertInOneTxn = (maxInsertEventInOneTxn % 2 ^ 16).toNat := by
    rw [← hcfg]
    rfl
  have hmax : cfg.m_nMaxEventInsertInOneTxn < 2 ^ 16 := by omega
  have hlen : 0 < (first :: rest).length := Nat.succ_pos _
  generalize first :: rest = events at hlen ⊢
  have hsize := @size_queueOf json events
  have hpos := @batchSize_pos cfg (queueOf json events).size _ hlen
  have hle := batchSize_le
    (DBTransport.getMaxEventToInsertInOneTxn cfg (queueOf json events).size) events.length
  have hspec := @processQueueData_spec json cfg hmax
    { d with m_queEvent := queueOf json events } events (values_queueOf events) _ rfl
  dsimp only at hspec
  generalize batchSize (DBTransport.getMaxEventToInsertInOneTxn cfg (queueOf json events).size)
    events.length = k at hpos hle hspec ⊢
  generalize processQueueData json cfg { d with m_queEvent := queueOf json events } = s at hspec ⊢
  exact accounted_of_spec hsize (by omega) hle hspec

/-- The settings with a limit for the batch, the others at their defaults. -/
def limitConfig (maxInsertEventInOneTxn : ℤ) : TransportConfig :=
  .ofIgniteConfig 1048576 104858 200 maxInsertEventInOneTxn false []

/-- An event with a text of 200 characters. -/
def longEvent : QueuedEvent := .ignite ⟨"Speed", 0, String.ofList (List.replicate 200 'x')⟩

/-- A run takes both events of a queue and records the size of one as remaining. -/
theorem not_drainAccounted_of_two :
    ¬ DrainAccounted (fun _ => "") 10 (queueOf (fun _ => "") [longEvent, longEvent]).size
      (processQueueData (fun _ => "") (limitConfig 10)
        { DBTransport.init (limitConfig 10) with
          m_queEvent := queueOf (fun _ => "") [longEvent, longEvent] }) := by
  intro hdrain
  exact absurd hdrain.recorded (by decide +kernel)

end DeviceClient
