import DeviceClient.Util.ConcurrentQueue
import DeviceClient.Util.ThreadCondition

/-!
# The message controller

`CMessageController::Run` beside the calls of `HandleEvent` and `NotifyShutdown`, statement
by statement. `Wait` only tries its mutex, and `Notify` unlocks it without a lock.

The queue counts bytes, far fewer than its counter can hold.

* `next`: a step of the worker or of a call.
* `inv_next`: each step keeps `Lib.WakeUp.View.Inv`, if broadcasts are heard.
-/

namespace DeviceClient

namespace MessageWorker

open Lib.WakeUp (View)
open WorkerWait

variable {κ : Type}

/-- What `EventToJson` writes of an event, at least its braces. -/
structure SerializedEvent where
  text : String
  size_pos : 0 < text.utf8ByteSize

/-- `MAX_QUEUE_SIZE` of `CMessageController`. -/
def MAX_MESSAGE_QUEUE_SIZE : ℕ := 1000000

/-- Where a thread is in `HandleEvent` or `NotifyShutdown`. -/
inductive CallPc where
  | outside
  | checkSize (event : SerializedEvent)
  | put (event : SerializedEvent)
  | setShutdown
  | broadcast
  | unlock

/-- Where the worker is in `Run`. -/
inductive RunPc where
  | head
  | checkSize
  | tryLock
  | wait
  | waiting
  | checkShutdown
  | take
  | finished
deriving DecidableEq

structure State (κ : Type) where
  m_queMqttEvents : List SerializedEvent
  m_bIsShutdownInitiated : Bool
  /-- `m_mqttEvWaitMutex` and `m_mqttEvWaitCondition`. -/
  m_mqttEvWaitCondition : ThreadCondition
  run : RunPc
  call : κ → CallPc

inductive Act (κ : Type) where
  | handleEvent (t : κ) (event : SerializedEvent)
  | notifyShutdown (t : κ)
  /-- The next statement of the call of a thread; `Put` misses its lock so often. -/
  | call (t : κ) (nFails : ℕ)
  | run
  /-- The wait ends without a broadcast. -/
  | wake

def init : State κ := ⟨[], false, .init, .head, fun _ => .outside⟩

/-- `Size` of the queue. -/
def State.size (s : State κ) : ℕ := (s.m_queMqttEvents.map fun e => e.text.utf8ByteSize).sum

variable [DecidableEq κ]

def State.goto (s : State κ) (t : κ) (pc : CallPc) : State κ :=
  { s with call := Function.update s.call t pc }

/-- `HandleEvent`, as far as the queue goes, and `NotifyShutdown`. -/
def stepCall (s : State κ) (t : κ) (nFails : ℕ) : Option (State κ) :=
  match s.call t with
  | .outside => none
  | .checkSize event =>
    some (s.goto t (if s.size < MAX_MESSAGE_QUEUE_SIZE then .put event else .outside))
  | .put event =>
    some { s.goto t .broadcast with
      m_queMqttEvents :=
        if lockRetry 0 nFails then s.m_queMqttEvents ++ [event] else s.m_queMqttEvents }
  | .setShutdown => some { s.goto t .broadcast with m_bIsShutdownInitiated := true }
  | .broadcast =>
    some { s.goto t .unlock with m_mqttEvWaitCondition := s.m_mqttEvWaitCondition.broadcast }
  | .unlock =>
    some { s.goto t .outside with m_mqttEvWaitCondition := s.m_mqttEvWaitCondition.unlock }

/-- `Run`. The event that is taken goes to the handlers in the same step. -/
def stepRun (s : State κ) : Option (State κ) :=
  match s.run with
  | .head =>
    some { s with run := if s.m_bIsShutdownInitiated then .finished else .checkSize }
  | .checkSize => some { s with run := if s.size = 0 then .tryLock else .take }
  | .tryLock =>
    some { s with m_mqttEvWaitCondition := s.m_mqttEvWaitCondition.tryLock, run := .wait }
  | .wait =>
    some { s with m_mqttEvWaitCondition := s.m_mqttEvWaitCondition.wait, run := .waiting }
  | .waiting =>
    s.m_mqttEvWaitCondition.resume.map fun cond =>
      { s with m_mqttEvWaitCondition := cond, run := .checkShutdown }
  | .checkShutdown =>
    some { s with run := if s.m_bIsShutdownInitiated then .finished else .take }
  | .take => some { s with m_queMqttEvents := s.m_queMqttEvents.tail, run := .head }
  | .finished => none

def next (s : State κ) : Act κ → Option (State κ)
  | .handleEvent t event =>
    match s.call t with
    | .outside => some (s.goto t (.checkSize event))
    | _ => none
  | .notifyShutdown t =>
    match s.call t with
    | .outside => some (s.goto t .setShutdown)
    | _ => none
  | .call t nFails => stepCall s t nFails
  | .run => stepRun s
  | .wake => some { s with m_mqttEvWaitCondition := s.m_mqttEvWaitCondition.broadcast }

/-! ## What matters of a state -/

/-- The broadcast of the call is before it. -/
def CallPc.toCome : CallPc → Bool
  | .put _ | .setShutdown | .broadcast => true
  | .outside | .checkSize _ | .unlock => false

/-- The worker looks at the shutdown flag first. -/
def RunPc.position : RunPc → WorkerPosition
  | .checkSize => .looking fun i => decide (i = .shutdown)
  | .tryLock | .wait => .looking fun _ => true
  | .waiting => .waiting
  | .head | .checkShutdown | .take | .finished => .looking fun _ => false

def State.pending (s : State κ) : WaitSource → Bool
  | .work => !s.m_queMqttEvents.isEmpty
  | .shutdown => s.m_bIsShutdownInitiated

def State.view (s : State κ) : View κ WaitSource :=
  workerView s.pending s.run.position s.m_mqttEvWaitCondition fun t => (s.call t).toCome

/-- A broadcast is heard. -/
def Heard (s : State κ) : Act κ → Prop
  | .call t _ => s.call t matches .broadcast → s.view.Heard t
  | _ => True

instance [Fintype κ] (s : State κ) (a : Act κ) : Decidable (Heard s a) := by
  cases a <;> unfold Heard <;> infer_instance

/-! ## The steps -/

variable {s s' : State κ}

omit [DecidableEq κ] in
theorem size_eq_zero (h : s.size = 0) : s.m_queMqttEvents = [] := by
  cases hque : s.m_queMqttEvents with
  | nil => rfl
  | cons event rest =>
    unfold State.size at h
    rw [hque, List.map_cons, List.sum_cons] at h
    have := event.size_pos
    omega

theorem inv_stepCall (h : s.view.Inv) {t : κ} {nFails : ℕ}
    (hheard : s.call t matches .broadcast → s.view.Heard t)
    (hnext : stepCall s t nFails = some s') : s'.view.Inv := by
  unfold stepCall at hnext
  split at hnext
  · exact nomatch hnext
  · rename_i hpc
    cases hnext
    refine inv_goto h rfl ?_
    rw [hpc]
    exact nofun
  · cases hnext
    exact inv_goto_toCome h rfl rfl
  · cases hnext
    exact inv_goto_toCome h rfl rfl
  · rename_i hpc
    cases hnext
    exact inv_goto_broadcast (hheard (by rw [hpc]))
  · rename_i hpc
    cases hnext
    refine inv_goto h rfl ?_
    rw [hpc]
    exact nofun

omit [DecidableEq κ] in
theorem inv_stepRun (h : s.view.Inv) (hnext : stepRun s = some s') : s'.view.Inv := by
  unfold stepRun at hnext
  unfold State.view at h
  split at hnext
  · rename_i hrun
    cases hnext
    rw [hrun] at h
    by_cases hflag : s.m_bIsShutdownInitiated = true
    · rw [if_pos hflag]
      exact inv_awake
    · -- the shutdown flag is found clear
      rw [if_neg hflag]
      refine inv_look h fun i hi => Or.inr ?_
      rw [of_decide_eq_true hi]
      exact Bool.eq_false_iff.2 hflag
  · rename_i hrun
    cases hnext
    rw [hrun] at h
    by_cases hsize : s.size = 0
    · -- the queue is found empty
      rw [if_pos hsize]
      refine inv_look h fun i _ => ?_
      cases i with
      | work =>
        right
        show (!s.m_queMqttEvents.isEmpty) = false
        rw [size_eq_zero hsize]
        rfl
      | shutdown => exact Or.inl rfl
    · rw [if_neg hsize]
      exact inv_awake
  · rename_i hrun
    cases hnext
    rw [hrun] at h
    exact inv_look h fun _ _ => Or.inl rfl
  · rename_i hrun
    cases hnext
    rw [hrun] at h
    exact inv_wait h
  · rcases Option.map_eq_some_iff.1 hnext with ⟨cond, -, rfl⟩
    exact inv_awake
  · cases hnext
    by_cases hflag : s.m_bIsShutdownInitiated = true
    · rw [if_pos hflag]
      exact inv_awake
    · rw [if_neg hflag]
      exact inv_awake
  · cases hnext
    exact inv_awake
  · exact nomatch hnext

/-- What waking up needs is kept, as long as broadcasts are heard. -/
theorem inv_next (h : s.view.Inv) {a : Act κ} (hheard : Heard s a) (hnext : next s a = some s') :
    s'.view.Inv := by
  cases a with
  | handleEvent t event =>
    unfold next at hnext
    dsimp only at hnext
    split at hnext
    · rename_i hpc
      cases hnext
      refine inv_goto h rfl ?_
      rw [hpc]
      exact nofun
    · exact nomatch hnext
  | notifyShutdown t =>
    unfold next at hnext
    dsimp only at hnext
    split at hnext
    · rename_i hpc
      cases hnext
      refine inv_goto h rfl ?_
      rw [hpc]
      exact nofun
    · exact nomatch hnext
  | call t nFails => exact inv_stepCall h hheard hnext
  | run => exact inv_stepRun h hnext
  | wake =>
    cases hnext
    exact inv_wake h

omit [DecidableEq κ] in
theorem inv_init : (init : State κ).view.Inv := inv_awake

end MessageWorker

end DeviceClient
