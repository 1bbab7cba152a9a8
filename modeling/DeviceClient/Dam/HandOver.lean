import DeviceClient.Util.LockedQueue
import DeviceClient.Dam.DBTransport
import DeviceClient.Upload.MidHandler

/-!
# Handing elements over to the queue workers

The functions that put elements into a `CConcurrentQueue` for another thread:
`CCacheTransport::Send`, the handlers of `CDBTransport` and
`CMidHandler::ClearMid`. Each decides, calls `Put` and goes on; none of them
looks at the answer of `Put`, so what it returns is known before the first call.

Any number of threads run such a function against `lockedStep` while others
take, and other code writes the function's fields at any time.

* `Caller`: what a call puts and returns, from the fields, its argument and
  `Size()`; `sendCaller`, `transportCaller` and `clearMidCaller` are the three.
* `handOverStep`: a call, its next `Put`, its return, or a step in the queue.
* `handleEvent_eq_putAll`: `transportCaller` is the `HandleEvent` of the model
  whose operations are atomic.
* `nothingLost_callers`: no element is lost in a run in which no `Put` gives up.
-/

namespace DeviceClient

/-! ## The callers -/

/-- What a call does: its fields afterwards, the elements it puts with their
sizes, in order, and what it returns. -/
structure Enqueue (σ α : Type) where
  fields : σ
  puts : List (α × ℕ)
  result : Bool

/-- A function that puts elements: from its fields, its argument and the size
it reads. -/
def Caller (σ ρ α : Type) : Type := σ → ρ → ℕ → Enqueue σ α

/-- `MAX_QUEUE_SIZE` of `CCacheTransport`. -/
def MAX_QUEUE_SIZE : ℕ := 2000000

/-- `CCacheTransport::Send`; its field is `m_bIsShutdownInitiated`. -/
def sendCaller : Caller Bool String String := fun m_bIsShutdownInitiated rstrSerialized unSize =>
  if m_bIsShutdownInitiated then ⟨m_bIsShutdownInitiated, [], false⟩
  else if unSize < MAX_QUEUE_SIZE then
    ⟨m_bIsShutdownInitiated, [(rstrSerialized, rstrSerialized.utf8ByteSize)], true⟩
  else ⟨m_bIsShutdownInitiated, [], false⟩

/-- `CMidHandler::ClearMid`. -/
def clearMidCaller (τ : Type) : Caller Unit (MidTable τ) (MidTable τ) := fun _ pMt _ =>
  ⟨(), [(pMt, MidHandler.MID_TABLE_SIZE)], true⟩

/-- A call of a handler of `CDBTransport`. -/
inductive TransportCall
  | handleEvent (call : HandleEventCall)
  | handleNonIgniteEvent (event : DamEvent)

section Transport

variable (json : IgnoredEvnts → String) (cfg : TransportConfig)

/-- An element with its size. -/
def QueuedEvent.sized (event : QueuedEvent) : QueuedEvent × ℕ := (event, event.size json)

/-- `m_ulEventSizeInQueue = unQueSize`, for the size read. -/
def DBTransport.withQueueSize (d : DBTransport) (unQueSize : ℕ) : DBTransport :=
  { d with m_ulEventSizeInQueue := unQueSize }

/-- The handlers of `CDBTransport`, `HandleEvent` and `HandleNonIgniteEvent`,
which return nothing: for their callers every event has been dealt with. The
queue in the fields is not used. -/
def transportCaller : Caller DBTransport TransportCall QueuedEvent
  | d, .handleEvent call, unSize =>
    -- an event that is refused here is not accepted
    if !call.bValidInterval then ⟨d, [], true⟩
    else if DBTransport.waitForActivation cfg call.bActivated call.event.strEventId then
      ⟨d, [], true⟩
    else
      let d := d.withQueueSize unSize
      -- the report goes in front of the event
      if d.accepts call.event then
        if d.m_nIgnoredEventCnt ≠ 0 then
          ⟨d.initIgnoredEvents,
            [(QueuedEvent.ignoredEvnts (d.ignoredEvntsNow call.event.dblEventTs)).sized json,
              (QueuedEvent.ignite call.event).sized json], true⟩
        else ⟨d, [(QueuedEvent.ignite call.event).sized json], true⟩
      else ⟨d.ignoreEvent cfg call.event, [], true⟩
  | d, .handleNonIgniteEvent event, _ => ⟨d, [(QueuedEvent.nonIgnite event).sized json], true⟩

/-- Atomic puts, one after the other. -/
def DBTransport.putAll (d : DBTransport) : List (QueuedEvent × ℕ) → DBTransport
  | [] => d
  | (event, nFails) :: rest => (d.put json event nFails).putAll rest

/-- How often each `Put` of a call misses the lock: the event's is the last one. -/
def HandleEventCall.fails (call : HandleEventCall) (puts : List (QueuedEvent × ℕ)) :
    List (QueuedEvent × ℕ) :=
  match puts with
  | [report, event] => [(report.1, call.nFailsReport), (event.1, call.nFailsEvent)]
  | puts => puts.map fun event => (event.1, call.nFailsEvent)

theorem DBTransport.put_initIgnoredEvents (d : DBTransport) (event : QueuedEvent) (nFails : ℕ) :
    (d.put json event nFails).initIgnoredEvents = d.initIgnoredEvents.put json event nFails := by
  by_cases hn : nFails < MAX_LOCK_RETRIES
  · rw [put_of_lt d event hn, put_of_lt d.initIgnoredEvents event hn]
    rfl
  · rw [put_of_not_lt d event hn, put_of_not_lt d.initIgnoredEvents event hn]

/-- Without other threads the caller is `HandleEvent`. -/
theorem handleEvent_eq_putAll (d : DBTransport) (call : HandleEventCall) :
    d.handleEvent json cfg call =
      let enq := transportCaller json cfg d (.handleEvent call) d.m_queEvent.size
      enq.fields.putAll json (call.fails enq.puts) := by
  have hread : d.readQueueSize = d.withQueueSize d.m_queEvent.size := rfl
  unfold DBTransport.handleEvent transportCaller
  rw [hread]
  by_cases hvalid : call.bValidInterval = true
  · by_cases hwait : DBTransport.waitForActivation cfg call.bActivated call.event.strEventId = true
    · simp only [hvalid, hwait, Bool.not_true, Bool.false_eq_true, if_false, if_true]
      rfl
    · simp only [hvalid, hwait, Bool.not_true, Bool.false_eq_true, if_false]
      generalize d.withQueueSize d.m_queEvent.size = d₁
      by_cases hacc : d₁.accepts call.event = true
      · by_cases hcnt : d₁.m_nIgnoredEventCnt ≠ 0
        · rw [if_pos hacc, if_pos hcnt, if_pos hacc, if_pos hcnt]
          -- the counters are reset after the report's `Put`, which does not read them
          unfold DBTransport.reportIgnoredEvents
          rw [DBTransport.put_initIgnoredEvents]
          rfl
        · rw [if_pos hacc, if_neg hcnt, if_pos hacc, if_neg hcnt]
          rfl
      · rw [if_neg hacc, if_neg hacc]
        rfl
  · simp only [hvalid, Bool.not_false, if_true]
    rfl

end Transport

/-! ## The threads -/

/-- A thread in a call: the elements of the call, those still to be put, the
entries handed to `Put` so far, and what the call will return. -/
structure Frame (α : Type) where
  puts : List (α × ℕ)
  toPut : List (α × ℕ)
  handed : List (Entry α)
  result : Bool

/-- The queue, the fields of the caller and the threads; `returned` is history:
each call that has returned, as it was then. -/
structure HandOver (ι σ α : Type) where
  queue : LockedQueue ι α
  fields : σ
  frame : ι → Option (Frame α)
  returned : List (Frame α)

/-- A step of the threads. In `setFields` other code writes the fields. -/
inductive HandOverAct (ι σ ρ : Type) where
  | call (i : ι) (arg : ρ)
  | next (i : ι)
  | setFields (fields : σ)
  | callTake (i : ι)
  | step (i : ι)

namespace HandOver

variable {ι σ ρ α : Type} [DecidableEq ι]

def init (fields : σ) : HandOver ι σ α := ⟨LockedQueue.init, fields, fun _ => none, []⟩

def setFrame (s : HandOver ι σ α) (i : ι) (f : Option (Frame α)) : HandOver ι σ α :=
  { s with frame := Function.update s.frame i f }

def setQueue (s : HandOver ι σ α) (queue : LockedQueue ι α) : HandOver ι σ α :=
  { s with queue }

@[simp] theorem setFrame_self (s : HandOver ι σ α) (i : ι) (f : Option (Frame α)) :
    (s.setFrame i f).frame i = f := by
  simp [setFrame]

theorem setFrame_of_ne (s : HandOver ι σ α) {i j : ι} (h : j ≠ i) (f : Option (Frame α)) :
    (s.setFrame i f).frame j = s.frame j := by
  simp [setFrame, h]

/-- The thread is in no operation of the queue. -/
def idle (s : HandOver ι σ α) (i : ι) : Bool :=
  match s.queue.pc i with
  | .outside => true
  | _ => false

/-- The call of thread `i` starts. -/
def enter (c : Caller σ ρ α) (s : HandOver ι σ α) (i : ι) (arg : ρ) : HandOver ι σ α :=
  let enq := c s.fields arg s.queue.unSize
  { s.setFrame i (some ⟨enq.puts, enq.puts, [], enq.result⟩) with fields := enq.fields }

/-- The entry that the next call of `Put` makes. -/
def nextEntry (s : HandOver ι σ α) (data : α) (n : ℕ) : Entry α :=
  ⟨s.queue.nCalls, ⟨data, n % 2 ^ 32⟩⟩

/-- The call of thread `i`, which is in no operation of the queue, goes on: it
calls `Put` for its next element, or returns. The answer of the `Put` before is
not looked at. -/
def proceed (s : HandOver ι σ α) (i : ι) (f : Frame α) : Option (HandOver ι σ α) :=
  match f.toPut with
  | [] => some { s.setFrame i none with returned := s.returned ++ [f] }
  | (data, n) :: rest =>
    (lockedStep s.queue (.callPut i data n)).map fun queue =>
      (s.setFrame i (some { f with
        toPut := rest, handed := f.handed ++ [s.nextEntry data n] })).setQueue queue

end HandOver

/-- One step of one thread. -/
def handOverStep {ι σ ρ α : Type} [DecidableEq ι] (c : Caller σ ρ α) (s : HandOver ι σ α) :
    HandOverAct ι σ ρ → Option (HandOver ι σ α)
  | .call i arg =>
    match s.frame i with
    | none => if s.idle i then some (s.enter c i arg) else none
    | some _ => none
  | .next i =>
    match s.frame i with
    | none => none
    | some f => if s.idle i then s.proceed i f else none
  | .setFields fields => some { s with fields }
  | .callTake i =>
    match s.frame i with
    | none => (lockedStep s.queue (.callTake i)).map s.setQueue
    | some _ => none
  | .step i => (lockedStep s.queue (.step i)).map s.setQueue

namespace HandOver

variable {ι σ ρ α : Type} [DecidableEq ι]

/-- What one step can do. -/
inductive Move (c : Caller σ ρ α) (s : HandOver ι σ α) : HandOverAct ι σ ρ → HandOver ι σ α → Prop
  where
  | enter (i : ι) (arg : ρ) (hout : s.frame i = none) (hidle : s.idle i = true) :
      Move c s (.call i arg) (s.enter c i arg)
  | ret (i : ι) (f : Frame α) (hin : s.frame i = some f) (hidle : s.idle i = true)
      (hdone : f.toPut = []) :
      Move c s (.next i) { s.setFrame i none with returned := s.returned ++ [f] }
  | put (i : ι) (f : Frame α) (data : α) (n : ℕ) (rest : List (α × ℕ)) (queue : LockedQueue ι α)
      (hin : s.frame i = some f) (hput : f.toPut = (data, n) :: rest)
      (hqueue : lockedStep s.queue (.callPut i data n) = some queue) :
      Move c s (.next i) ((s.setFrame i (some { f with
        toPut := rest, handed := f.handed ++ [s.nextEntry data n] })).setQueue queue)
  | setFields (fields : σ) : Move c s (.setFields fields) { s with fields }
  | take (i : ι) (queue : LockedQueue ι α) (hout : s.frame i = none)
      (hqueue : lockedStep s.queue (.callTake i) = some queue) :
      Move c s (.callTake i) (s.setQueue queue)
  | step (i : ι) (queue : LockedQueue ι α) (hqueue : lockedStep s.queue (.step i) = some queue) :
      Move c s (.step i) (s.setQueue queue)

theorem move_of_handOverStep {c : Caller σ ρ α} {s s' : HandOver ι σ α} {a : HandOverAct ι σ ρ}
    (h : handOverStep c s a = some s') : Move c s a s' := by
  -- one constructor of `Move` for each way an action is enabled
  cases a with
  | call i arg =>
    simp only [handOverStep] at h
    split at h
    · rename_i hout
      split at h
      · rename_i hidle
        cases h
        exact .enter i arg hout hidle
      · cases h
    · cases h
  | next i =>
    simp only [handOverStep] at h
    split at h
    · cases h
    · rename_i f hin
      split at h
      · rename_i hidle
        unfold proceed at h
        split at h
        · rename_i hdone
          cases h
          exact .ret i f hin hidle hdone
        · rename_i data n rest hput
          obtain ⟨queue, hqueue, rfl⟩ := Option.map_eq_some_iff.1 h
          exact .put i f data n rest queue hin hput hqueue
      · cases h
  | setFields fields =>
    cases h
    exact .setFields fields
  | callTake i =>
    simp only [handOverStep] at h
    split at h
    · rename_i hout
      obtain ⟨queue, hqueue, rfl⟩ := Option.map_eq_some_iff.1 h
      exact .take i queue hout hqueue
    · cases h
  | step i =>
    obtain ⟨queue, hqueue, rfl⟩ := Option.map_eq_some_iff.1 h
    exact .step i queue hqueue

/-! ## Nothing is lost -/

/-- The queue's node for an element with its size. -/
def toNode (x : α × ℕ) : Node α := ⟨x.1, x.2 % 2 ^ 32⟩

/-- Every element of a call that has reported success, or has returned to a
caller that goes on, was put and is in the queue or taken. -/
def NothingLost (s : HandOver ι σ α) : Prop :=
  ∀ f ∈ s.returned, f.result = true →
    f.handed.map Entry.node = f.puts.map toNode ∧ ∀ e ∈ f.handed, s.queue.Present e

/-- The step is the last attempt of a `Put`, and the lock is held. -/
def GivesUp (s : HandOver ι σ α) : HandOverAct ι σ ρ → Prop
  | .step i => s.queue.GivesUp i
  | _ => False

/-- The call of thread `i` has handed over its elements up to those still to be
put, and what it handed over is on its way or there. -/
structure FrameOk (queue : LockedQueue ι α) (i : ι) (f : Frame α) : Prop where
  nodes : f.handed.map Entry.node ++ f.toPut.map toNode = f.puts.map toNode
  handed : ∀ e ∈ f.handed, queue.InHand i e ∨ queue.Present e

structure Inv (s : HandOver ι σ α) : Prop where
  frames : ∀ i f, s.frame i = some f → FrameOk s.queue i f
  returned : ∀ f ∈ s.returned,
    f.handed.map Entry.node = f.puts.map toNode ∧ ∀ e ∈ f.handed, s.queue.Present e

omit [DecidableEq ι] in
theorem inv_init (fields : σ) : (init fields : HandOver ι σ α).Inv where
  frames := by
    intro i f hf
    cases hf
  returned := by
    intro f hf
    cases hf

omit [DecidableEq ι] in
/-- A thread in no operation of the queue has nothing in hand. -/
theorem not_inHand_of_idle {s : HandOver ι σ α} {i : ι} {e : Entry α} (hidle : s.idle i = true) :
    ¬ s.queue.InHand i e := by
  rintro (⟨k, hpc⟩ | hpc) <;>
  · unfold idle at hidle
    rw [hpc] at hidle
    cases hidle

/-- The frames and the calls that have returned, through a step in the queue. -/
theorem Inv.queueStep {s : HandOver ι σ α} {queue : LockedQueue ι α} {i : ι} (hs : s.Inv)
    (hc : LockedQueue.Change s.queue i queue) (hup : ¬ s.queue.GivesUp i) :
    (s.setQueue queue).Inv where
  frames := by
    intro j f hf
    obtain ⟨hnodes, hhanded⟩ := hs.frames j f hf
    refine ⟨hnodes, fun e he => ?_⟩
    rcases hhanded e he with hhand | hthere
    · by_cases hji : j = i
      · rw [hji] at hhand ⊢
        exact hhand.change hc hup
      · -- another thread's step: `j` is where it was
        left
        unfold LockedQueue.InHand at hhand ⊢
        show (∃ k, queue.pc j = _) ∨ queue.pc j = _
        rw [hc.pc_of_ne hji]
        exact hhand
    · exact Or.inr (hthere.change hc)
  returned := by
    intro f hf
    obtain ⟨hnodes, hthere⟩ := hs.returned f hf
    exact ⟨hnodes, fun e he => (hthere e he).change hc⟩

omit [DecidableEq ι] in
/-- An idle thread is not in the loop around the lock. -/
theorem not_givesUp_of_idle {s : HandOver ι σ α} {i : ι} (hidle : s.idle i = true) :
    ¬ s.queue.GivesUp i := by
  rintro ⟨e, k, hpc, _⟩
  exact not_inHand_of_idle hidle (Or.inl ⟨k, hpc⟩)

/-- The frames after thread `i` has got the frame `g`. -/
theorem Inv.setFrame {s : HandOver ι σ α} (hs : s.Inv) {i : ι} {g : Option (Frame α)}
    (hg : ∀ f, g = some f → FrameOk s.queue i f) : (s.setFrame i g).Inv where
  frames := by
    intro j f hf
    by_cases hji : j = i
    · rw [hji] at hf ⊢
      rw [setFrame_self] at hf
      exact hg f hf
    · rw [setFrame_of_ne s hji] at hf
      exact hs.frames j f hf
  returned := hs.returned

/-- A call of `Put` by an idle thread. -/
theorem callPut_eq_some {q q' : LockedQueue ι α} {i : ι} {data : α} {n : ℕ}
    (h : lockedStep q (.callPut i data n) = some q') :
    q.pc i = .outside ∧ q'.pc i = .putTry ⟨q.nCalls, ⟨data, n % 2 ^ 32⟩⟩ 0 := by
  simp only [lockedStep] at h
  split at h
  · rename_i hpc
    cases h
    exact ⟨hpc, LockedQueue.goto_pc_self q i _⟩
  · cases h

/-- The invariant through a step in which no `Put` gives up. -/
theorem inv_step {c : Caller σ ρ α} {s s' : HandOver ι σ α} {a : HandOverAct ι σ ρ} (hs : s.Inv)
    (hup : ¬ GivesUp s a) (hstep : handOverStep c s a = some s') : s'.Inv := by
  cases move_of_handOverStep hstep with
  | enter i arg hout hidle =>
    have hframe : FrameOk s.queue i ⟨(c s.fields arg s.queue.unSize).puts,
        (c s.fields arg s.queue.unSize).puts, [], (c s.fields arg s.queue.unSize).result⟩ := by
      constructor
      · rfl
      · intro e he
        cases he
    have hset := hs.setFrame (g := some _) fun f hf => by
      rw [← Option.some.inj hf]
      exact hframe
    exact ⟨hset.frames, hset.returned⟩
  | ret i f hin hidle hdone =>
    obtain ⟨hnodes, hhanded⟩ := hs.frames i f hin
    have hset := hs.setFrame (i := i) (g := none) (fun f hf => by cases hf)
    refine ⟨hset.frames, fun f' hf' => ?_⟩
    rcases List.mem_append.1 hf' with hold | hnew
    · exact hs.returned f' hold
    · rw [List.mem_singleton.1 hnew]
      rw [hdone, List.map_nil, List.append_nil] at hnodes
      refine ⟨hnodes, fun e he => ?_⟩
      exact (hhanded e he).resolve_left (not_inHand_of_idle hidle)
  | put i f data n rest queue hin hput hqueue =>
    obtain ⟨hout, hat⟩ := callPut_eq_some hqueue
    have hidle : s.idle i = true := by
      unfold idle
      rw [hout]
    obtain ⟨hnodes, hhanded⟩ := hs.frames i f hin
    have hstepped := hs.queueStep (LockedQueue.change_of_lockedStep hqueue)
      (not_givesUp_of_idle hidle)
    refine hstepped.setFrame (g := some _) fun f' hf' => ?_
    cases hf'
    constructor
    · rw [hput, List.map_cons] at hnodes
      rw [List.map_append, List.append_assoc]
      exact hnodes
    · intro e he
      rcases List.mem_append.1 he with hold | hnew
      · exact (hstepped.frames i f hin).handed e hold
      · rw [List.mem_singleton.1 hnew]
        exact Or.inl (Or.inl ⟨0, hat⟩)
  | setFields fields => exact ⟨hs.frames, hs.returned⟩
  | take i queue hout hqueue =>
    refine hs.queueStep (LockedQueue.change_of_lockedStep hqueue) ?_
    -- a thread that calls `Take` is outside
    rintro ⟨e, k, hpc, _⟩
    simp only [lockedStep] at hqueue
    change s.queue.pc i = _ at hpc
    rw [hpc] at hqueue
    cases hqueue
  | step i queue hqueue => exact hs.queueStep (LockedQueue.change_of_lockedStep hqueue) hup

/-- In a run in which no `Put` gives up every state has lost nothing. -/
theorem nothingLost_of_run {c : Caller σ ρ α} {fields : σ} {s : HandOver ι σ α}
    {as : List (HandOverAct ι σ ρ)}
    (hup : Lib.Along (handOverStep c) (fun s a => ¬ GivesUp s a) (init fields) as)
    (hrun : Lib.exec (handOverStep c) (init fields) as = some s) : s.NothingLost := by
  have hinv : s.Inv := Lib.exec_inv (P := Inv)
    (fun _ _ _ hs hok hstep => inv_step hs hok hstep) as _ _ (inv_init fields) hup hrun
  exact fun f hf _ => hinv.returned f hf

/-! ## Two runs -/

/-- A thread calls, and its `Put` finds the lock free. -/
def smooth (arg : ρ) : List (HandOverAct Bool σ ρ) :=
  [.call false arg, .next false, .step false, .step false, .step false, .step false, .next false]

/-- The worker takes the lock, and a thread's `Put` does not get it. -/
def starved (arg : ρ) : List (HandOverAct Bool σ ρ) :=
  [.callTake true, .step true, .call false arg, .next false] ++
    List.replicate MAX_LOCK_RETRIES (.step false) ++ [.next false]

/-- A call of an idle thread that puts one element. -/
theorem call_single {c : Caller σ ρ α} {s : HandOver ι σ α} {i : ι} {arg : ρ} {fields : σ}
    {x : α × ℕ} (hcall : c s.fields arg s.queue.unSize = ⟨fields, [x], true⟩)
    (hout : s.frame i = none) (hidle : s.idle i = true) :
    handOverStep c s (.call i arg) =
      some { s.setFrame i (some ⟨[x], [x], [], true⟩) with fields } := by
  have henter : handOverStep c s (.call i arg) = some (s.enter c i arg) := by
    simp only [handOverStep, hout, hidle, if_true]
  rw [henter]
  unfold enter
  rw [hcall]

omit [DecidableEq ι] in
theorem not_givesUp_of_free {s : HandOver ι σ α} {i : ι} (hfree : s.queue.holder = none) :
    ¬ GivesUp s (.step i : HandOverAct ι σ ρ) := by
  rintro ⟨_, _, _, hheld, _⟩
  exact hheld hfree

omit [DecidableEq ι] in
theorem not_givesUp_of_inside {s : HandOver ι σ α} {i : ι} (hin : (s.queue.pc i).inside = true) :
    ¬ GivesUp s (.step i : HandOverAct ι σ ρ) := by
  rintro ⟨_, _, hpc, _⟩
  rw [hpc] at hin
  cases hin

/-- In the first run no `Put` gives up, and the call returns. -/
theorem along_smooth {c : Caller σ ρ α} {fields fields' : σ} {arg : ρ} {x : α × ℕ}
    (hcall : c fields arg 0 = ⟨fields', [x], true⟩) :
    Lib.Along (handOverStep c) (fun s a => ¬ GivesUp s a) (init fields : HandOver Bool σ α)
        (smooth arg) ∧
      ∃ s, Lib.exec (handOverStep c) (init fields : HandOver Bool σ α) (smooth arg) = some s ∧
        s.returned.map Frame.puts = [[x]] := by
  have hfirst := call_single (c := c) (s := (init fields : HandOver Bool σ α)) (i := false) hcall
    rfl rfl
  constructor
  · refine Lib.along_cons hfirst (fun h => h) ?_
    refine Lib.along_cons rfl (fun h => h) ?_
    refine Lib.along_cons rfl (not_givesUp_of_free rfl) ?_
    refine Lib.along_cons rfl (not_givesUp_of_inside rfl) ?_
    refine Lib.along_cons rfl (not_givesUp_of_inside rfl) ?_
    refine Lib.along_cons rfl (not_givesUp_of_inside rfl) ?_
    exact Lib.along_cons rfl (fun h => h) (Lib.along_nil _ _ _)
  · unfold smooth
    rw [Lib.exec_cons, hfirst]
    exact ⟨_, rfl, rfl⟩

/-- In the second run the element is lost: the call has returned and the element
is nowhere. -/
theorem lost_of_starved {c : Caller σ ρ α} {fields fields' : σ} {arg : ρ} {x : α × ℕ}
    (hcall : c fields arg 0 = ⟨fields', [x], true⟩) :
    ∃ s, Lib.exec (handOverStep c) (init fields : HandOver Bool σ α) (starved arg) = some s ∧
      ¬ s.NothingLost := by
  obtain ⟨held, hheld, hat⟩ : ∃ held, Lib.exec (handOverStep c) (init fields : HandOver Bool σ α)
      [.callTake true, .step true] = some held ∧ held =
        { init fields with queue := { (LockedQueue.init : LockedQueue Bool α) with
            holder := some true
            pc := Function.update (Function.update (fun _ => .outside) true .takeLock) true
              .takeFront } } := ⟨_, rfl, rfl⟩
  have hcalled := call_single (c := c) (s := held) (i := false) (by rw [hat]; exact hcall)
    (by rw [hat]; rfl) (by rw [hat]; rfl)
  have hrun : Lib.exec (handOverStep c) (init fields : HandOver Bool σ α) (starved arg) =
      Lib.exec (handOverStep c) { held.setFrame false (some ⟨[x], [x], [], true⟩) with
        fields := fields' } (.next false :: (List.replicate MAX_LOCK_RETRIES (.step false) ++
          [.next false])) := by
    show Lib.exec (handOverStep c) _ ([.callTake true, .step true] ++ (.call false arg :: _)) = _
    rw [Lib.exec_append, hheld, Option.bind_some, Lib.exec_cons, hcalled]
    rfl
  rw [hrun, hat]
  refine ⟨_, rfl, fun hlost => ?_⟩
  have hpresent := (hlost _ (List.mem_singleton.2 rfl) rfl).2 _ (List.mem_singleton.2 rfl)
  rcases hpresent with hin | htook | ⟨i, hpc⟩
  · cases hin
  · cases htook
  · cases i <;> cases hpc

def sampleCfg : TransportConfig := ⟨1000, 100, 200, 50, false, []⟩

def sampleCall : TransportCall := .handleEvent ⟨⟨"SpeedChange", 1, "x"⟩, true, true, 0, 0⟩

theorem sendCaller_sample : sendCaller false "x" 0 = ⟨false, [("x", 1)], true⟩ := rfl

theorem transportCaller_sample :
    transportCaller (fun _ => "") sampleCfg (DBTransport.init sampleCfg) sampleCall 0 =
      ⟨DBTransport.init sampleCfg, [(.ignite ⟨"SpeedChange", 1, "x"⟩, 1)], true⟩ := rfl

theorem clearMidCaller_sample :
    clearMidCaller String () ⟨1, "t"⟩ 0 = ⟨(), [(⟨1, "t"⟩, 8)], true⟩ := rfl

/-- `Send`, the handlers of `CDBTransport` and `ClearMid` lose nothing as long as
no `Put` gives up. -/
theorem nothingLost_callers (json : IgnoredEvnts → String) (cfg : TransportConfig) (τ : Type) :
    (∀ (fields : Bool) (as : List (HandOverAct ι Bool String)) (s : HandOver ι Bool String),
      Lib.Along (handOverStep sendCaller) (fun s a => ¬ GivesUp s a) (init fields) as →
      Lib.exec (handOverStep sendCaller) (init fields) as = some s → s.NothingLost) ∧
    (∀ (fields : DBTransport) (as : List (HandOverAct ι DBTransport TransportCall))
      (s : HandOver ι DBTransport QueuedEvent),
      Lib.Along (handOverStep (transportCaller json cfg)) (fun s a => ¬ GivesUp s a)
        (init fields) as →
      Lib.exec (handOverStep (transportCaller json cfg)) (init fields) as = some s →
      s.NothingLost) ∧
    (∀ (as : List (HandOverAct ι Unit (MidTable τ))) (s : HandOver ι Unit (MidTable τ)),
      Lib.Along (handOverStep (clearMidCaller τ)) (fun s a => ¬ GivesUp s a) (init ()) as →
      Lib.exec (handOverStep (clearMidCaller τ)) (init ()) as = some s → s.NothingLost) :=
  ⟨fun _ _ _ => nothingLost_of_run, fun _ _ _ => nothingLost_of_run, fun _ _ => nothingLost_of_run⟩

theorem nothingLost_smooth :
    (∃ s : HandOver Bool Bool String,
      Lib.exec (handOverStep sendCaller) (init false) (smooth "x") = some s ∧
        s.returned.map Frame.puts = [[("x", 1)]] ∧ s.NothingLost) ∧
    (∃ s : HandOver Bool DBTransport QueuedEvent,
      Lib.exec (handOverStep (transportCaller (fun _ => "") sampleCfg))
        (init (DBTransport.init sampleCfg)) (smooth sampleCall) = some s ∧
        s.returned.map Frame.puts = [[(.ignite ⟨"SpeedChange", 1, "x"⟩, 1)]] ∧ s.NothingLost) ∧
    (∃ s : HandOver Bool Unit (MidTable String),
      Lib.exec (handOverStep (clearMidCaller String)) (init ()) (smooth ⟨1, "t"⟩) = some s ∧
        s.returned.map Frame.puts = [[(⟨1, "t"⟩, 8)]] ∧ s.NothingLost) := by
  obtain ⟨hsend, s₁, hs₁, hputs₁⟩ := along_smooth sendCaller_sample
  obtain ⟨htransport, s₂, hs₂, hputs₂⟩ := along_smooth transportCaller_sample
  obtain ⟨hclear, s₃, hs₃, hputs₃⟩ := along_smooth clearMidCaller_sample
  have hlost := nothingLost_callers (ι := Bool) (fun _ => "") sampleCfg String
  refine ⟨⟨s₁, hs₁, hputs₁, ?_⟩, ⟨s₂, hs₂, hputs₂, ?_⟩, ⟨s₃, hs₃, hputs₃, ?_⟩⟩
  · exact hlost.1 _ _ _ hsend hs₁
  · exact hlost.2.1 _ _ _ htransport hs₂
  · exact hlost.2.2 _ _ hclear hs₃

/-- While the worker holds the lock for ten attempts each of them loses the element. -/
theorem not_nothingLost_starved :
    (∃ s : HandOver Bool Bool String,
      Lib.exec (handOverStep sendCaller) (init false) (starved "x") = some s ∧
        ¬ s.NothingLost) ∧
    (∃ s : HandOver Bool DBTransport QueuedEvent,
      Lib.exec (handOverStep (transportCaller (fun _ => "") sampleCfg))
        (init (DBTransport.init sampleCfg)) (starved sampleCall) = some s ∧ ¬ s.NothingLost) ∧
    (∃ s : HandOver Bool Unit (MidTable String),
      Lib.exec (handOverStep (clearMidCaller String)) (init ()) (starved ⟨1, "t"⟩) = some s ∧
        ¬ s.NothingLost) :=
  ⟨lost_of_starved sendCaller_sample, lost_of_starved transportCaller_sample,
    lost_of_starved clearMidCaller_sample⟩

end HandOver

end DeviceClient
