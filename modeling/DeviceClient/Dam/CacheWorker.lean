import DeviceClient.Dam.HandOver
import DeviceClient.Util.ThreadCondition

/-!
# The event receiver

`CCacheTransport::Run` beside the calls of `Send` and `NotifyShutdown`, statement by
statement. The first `Send` that accepts an event starts the worker; it does so in one step.
The events that are taken go on to the handlers.

* `next`: a step of the worker or of a call.
* `inv_next`: each step keeps `Inv`, if broadcasts are heard.
-/

namespace DeviceClient

namespace CacheWorker

open Lib.WakeUp (View)
open WorkerWait

variable {κ : Type}

/-- Where a thread is in `Send` or `NotifyShutdown`. -/
inductive CallPc where
  | outside
  | checkShutdown (rstrSerialized : String)
  | checkSize (rstrSerialized : String)
  | put (rstrSerialized : String)
  | checkStarted
  | setShutdown
  | lock
  | broadcast
  | unlock
deriving DecidableEq

/-- Where the worker is in `Run`. -/
inductive RunPc where
  | notStarted
  | head
  | take
  | checkShutdown
  | lock
  | wait
  | waiting
  | unlock
  | finished
deriving DecidableEq

structure State (κ : Type) where
  m_eventQueue : ConcurrentQueue String
  m_bIsShutdownInitiated : Bool
  m_bHasStarted : Bool
  /-- `m_handleQueueMutex` and `m_queueHandler`. -/
  m_queueHandler : ThreadCondition
  run : RunPc
  call : κ → CallPc

inductive Act (κ : Type) where
  | send (t : κ) (rstrSerialized : String)
  | notifyShutdown (t : κ)
  /-- The next statement of the call of a thread; `Put` misses its lock so often. -/
  | call (t : κ) (nFails : ℕ)
  | run
  /-- The wait ends without a broadcast. -/
  | wake

def init : State κ := ⟨.empty, false, false, .init, .notStarted, fun _ => .outside⟩

variable [DecidableEq κ]

def State.goto (s : State κ) (t : κ) (pc : CallPc) : State κ :=
  { s with call := Function.update s.call t pc }

/-- `Send` and `NotifyShutdown`. -/
def stepCall (s : State κ) (t : κ) (nFails : ℕ) : Option (State κ) :=
  match s.call t with
  | .outside => none
  -- the event is ignored, `Send` returns false
  | .checkShutdown rstrSerialized =>
    some (s.goto t (if s.m_bIsShutdownInitiated then .outside else .checkSize rstrSerialized))
  -- the event is discarded, `Send` returns false
  | .checkSize rstrSerialized =>
    some (s.goto t (if s.m_eventQueue.size < MAX_QUEUE_SIZE then .put rstrSerialized
      else .outside))
  | .put rstrSerialized =>
    some { s.goto t .checkStarted with
      m_eventQueue :=
        (s.m_eventQueue.put rstrSerialized rstrSerialized.utf8ByteSize nFails).2 }
  | .checkStarted =>
    if s.m_bHasStarted then some (s.goto t .lock)
    else some { s.goto t .outside with m_bHasStarted := true, run := .head }
  | .setShutdown => some { s.goto t .lock with m_bIsShutdownInitiated := true }
  | .lock =>
    s.m_queueHandler.lock.map fun cond => { s.goto t .broadcast with m_queueHandler := cond }
  | .broadcast => some { s.goto t .unlock with m_queueHandler := s.m_queueHandler.broadcast }
  | .unlock => some { s.goto t .outside with m_queueHandler := s.m_queueHandler.unlock }

/-- `Run`. -/
def stepRun (s : State κ) : Option (State κ) :=
  match s.run with
  | .notStarted => none
  | .head => some { s with run := if s.m_bIsShutdownInitiated then .finished else .take }
  | .take =>
    match s.m_eventQueue.take with
    | some (_, queue) => some { s with m_eventQueue := queue }
    | none => some { s with run := .checkShutdown }
  | .checkShutdown =>
    some { s with run := if s.m_bIsShutdownInitiated then .head else .lock }
  | .lock =>
    s.m_queueHandler.lock.map fun cond => { s with m_queueHandler := cond, run := .wait }
  | .wait => some { s with m_queueHandler := s.m_queueHandler.wait, run := .waiting }
  | .waiting =>
    s.m_queueHandler.resume.map fun cond => { s with m_queueHandler := cond, run := .unlock }
  | .unlock => some { s with m_queueHandler := s.m_queueHandler.unlock, run := .head }
  | .finished => none

def next (s : State κ) : Act κ → Option (State κ)
  | .send t rstrSerialized =>
    match s.call t with
    | .outside => some (s.goto t (.checkShutdown rstrSerialized))
    | _ => none
  | .notifyShutdown t =>
    match s.call t with
    | .outside => some (s.goto t .setShutdown)
    | _ => none
  | .call t nFails => stepCall s t nFails
  | .run => stepRun s
  | .wake => some { s with m_queueHandler := s.m_queueHandler.broadcast }

/-! ## What matters of a state -/

/-- The broadcast of the call is before it; the first event starts the worker instead. -/
def CallPc.toCome (bHasStarted : Bool) : CallPc → Bool
  | .put _ | .checkStarted => bHasStarted
  | .setShutdown | .lock | .broadcast => true
  | .outside | .checkShutdown _ | .checkSize _ | .unlock => false

/-- The worker looks at the queue first. -/
def RunPc.position : RunPc → WorkerPosition
  | .checkShutdown => .looking fun i => decide (i = .work)
  | .lock | .wait => .looking fun _ => true
  | .waiting => .waiting
  | .notStarted | .head | .take | .unlock | .finished => .looking fun _ => false

def State.pending (s : State κ) : WaitSource → Bool
  | .work => !s.m_eventQueue.values.isEmpty
  | .shutdown => s.m_bIsShutdownInitiated

def State.view (s : State κ) : View κ WaitSource :=
  workerView s.pending s.run.position s.m_queueHandler fun t =>
    (s.call t).toCome s.m_bHasStarted

/-- A broadcast is heard. -/
def Heard (s : State κ) : Act κ → Prop
  | .call t _ => s.call t = .broadcast → s.view.Heard t
  | _ => True

instance [Fintype κ] (s : State κ) (a : Act κ) : Decidable (Heard s a) := by
  cases a <;> unfold Heard <;> infer_instance

structure Inv (s : State κ) : Prop where
  started : s.m_bHasStarted = false → s.run = .notStarted
  view : s.view.Inv

/-! ## The steps -/

variable {s s' : State κ}

theorem inv_stepCall (h : Inv s) {t : κ} {nFails : ℕ}
    (hheard : s.call t = .broadcast → s.view.Heard t) (hnext : stepCall s t nFails = some s') :
    Inv s' := by
  unfold stepCall at hnext
  split at hnext
  · exact nomatch hnext
  · rename_i hpc
    cases hnext
    refine ⟨h.started, inv_goto h.view rfl ?_⟩
    rw [hpc]
    exact nofun
  · rename_i hpc
    cases hnext
    refine ⟨h.started, inv_goto h.view rfl ?_⟩
    rw [hpc]
    exact nofun
  · cases hnext
    refine ⟨h.started, ?_⟩
    cases hstarted : s.m_bHasStarted with
    | true => exact inv_goto_toCome h.view rfl hstarted
    | false =>
      -- no broadcast is needed: the worker starts with a look at the queue
      have hrun := h.started hstarted
      unfold State.view
      dsimp only [State.goto]
      rw [hrun]
      exact inv_awake
  · split at hnext
    · cases hnext
      exact ⟨h.started, inv_goto_toCome h.view rfl rfl⟩
    · cases hnext
      exact ⟨nofun, inv_awake⟩
  · cases hnext
    exact ⟨h.started, inv_goto_toCome h.view rfl rfl⟩
  · rcases Option.map_eq_some_iff.1 hnext with ⟨cond, hlock, rfl⟩
    exact ⟨h.started, inv_goto_toCome h.view (ThreadCondition.waiting_lock hlock) rfl⟩
  · rename_i hpc
    cases hnext
    exact ⟨h.started, inv_goto_broadcast (hheard hpc)⟩
  · rename_i hpc
    cases hnext
    refine ⟨h.started, inv_goto h.view rfl ?_⟩
    rw [hpc]
    exact nofun

omit [DecidableEq κ] in
/-- The worker only runs once it has been started. -/
theorem started_stepRun (h : s.m_bHasStarted = false → s.run = .notStarted)
    (hnext : stepRun s = some s') : s'.m_bHasStarted = false → s'.run = .notStarted := by
  intro hstarted
  have hsame : s'.m_bHasStarted = s.m_bHasStarted := by
    unfold stepRun at hnext
    split at hnext
    · exact nomatch hnext
    · cases hnext
      rfl
    · split at hnext <;> cases hnext <;> rfl
    · cases hnext
      rfl
    · rcases Option.map_eq_some_iff.1 hnext with ⟨cond, -, rfl⟩
      rfl
    · cases hnext
      rfl
    · rcases Option.map_eq_some_iff.1 hnext with ⟨cond, -, rfl⟩
      rfl
    · cases hnext
      rfl
    · exact nomatch hnext
  have hrun := h (hsame.symm.trans hstarted)
  unfold stepRun at hnext
  rw [hrun] at hnext
  exact nomatch hnext

omit [DecidableEq κ] in
theorem view_stepRun (h : s.view.Inv) (hnext : stepRun s = some s') : s'.view.Inv := by
  unfold stepRun at hnext
  unfold State.view at h
  split at hnext
  · exact nomatch hnext
  · cases hnext
    by_cases hflag : s.m_bIsShutdownInitiated = true
    · rw [if_pos hflag]
      exact inv_awake
    · rw [if_neg hflag]
      exact inv_awake
  · rename_i hrun
    split at hnext
    · cases hnext
      unfold State.view
      rw [hrun]
      exact inv_awake
    · -- the queue is found empty
      rename_i htake
      cases hnext
      rw [hrun] at h
      refine inv_look h fun i hi => Or.inr ?_
      rw [of_decide_eq_true hi]
      show (!s.m_eventQueue.values.isEmpty) = false
      rw [ConcurrentQueue.take_eq_none htake]
      rfl
  · rename_i hrun
    cases hnext
    rw [hrun] at h
    by_cases hflag : s.m_bIsShutdownInitiated = true
    · rw [if_pos hflag]
      exact inv_awake
    · -- the shutdown flag is found clear
      rw [if_neg hflag]
      refine inv_look h fun i _ => ?_
      cases i with
      | work => exact Or.inl rfl
      | shutdown => exact Or.inr (Bool.eq_false_iff.2 hflag)
  · rename_i hrun
    rcases Option.map_eq_some_iff.1 hnext with ⟨cond, -, rfl⟩
    rw [hrun] at h
    exact inv_look h fun _ _ => Or.inl rfl
  · rename_i hrun
    cases hnext
    rw [hrun] at h
    exact inv_wait h
  · rcases Option.map_eq_some_iff.1 hnext with ⟨cond, -, rfl⟩
    exact inv_awake
  · cases hnext
    exact inv_awake
  · exact nomatch hnext

/-- What waking up needs is kept, as long as broadcasts are heard. -/
theorem inv_next (h : Inv s) {a : Act κ} (hheard : Heard s a) (hnext : next s a = some s') :
    Inv s' := by
  cases a with
  | send t rstrSerialized =>
    unfold next at hnext
    dsimp only at hnext
    split at hnext
    · rename_i hpc
      cases hnext
      refine ⟨h.started, inv_goto h.view rfl ?_⟩
      rw [hpc]
      exact nofun
    · exact nomatch hnext
  | notifyShutdown t =>
    unfold next at hnext
    dsimp only at hnext
    split at hnext
    · rename_i hpc
      cases hnext
      refine ⟨h.started, inv_goto h.view rfl ?_⟩
      rw [hpc]
      exact nofun
    · exact nomatch hnext
  | call t nFails => exact inv_stepCall h hheard hnext
  | run => exact ⟨started_stepRun h.started hnext, view_stepRun h.view hnext⟩
  | wake =>
    cases hnext
    exact ⟨h.started, inv_wake h.view⟩

omit [DecidableEq κ] in
theorem inv_init : Inv (init : State κ) := ⟨fun _ => rfl, inv_awake⟩

end CacheWorker

end DeviceClient
