import DeviceClient.Upload.MidHandler
import DeviceClient.Util.ThreadCondition

/-!
# The deletion worker

`CMidHandler::Run` beside the calls of `ClearMid` and `NotifyShutdown`, statement by
statement. The worker takes what is queued, looks at the shutdown flag and waits; the mutex
is held around the wait and around the broadcast, not around what precedes them.

* `next`: a step of the worker or of a call.
* `inv_next`: each step keeps `Lib.WakeUp.View.Inv`, if broadcasts are heard.
-/

namespace DeviceClient

namespace MidWorker

open Lib.WakeUp (View)
open WorkerWait

variable {κ τ : Type}

/-- Where a thread is in `ClearMid` or `NotifyShutdown`. -/
inductive CallPc (τ : Type) where
  | outside
  | put (pMt : MidTable τ)
  | setShutdown
  | lock
  | broadcast
  | unlock
deriving DecidableEq

/-- Where the worker is in `Run`. -/
inductive RunPc where
  | take
  | checkShutdown
  | lock
  | wait
  | waiting
  | unlock
  | finished
deriving DecidableEq

structure State (κ τ : Type) where
  m_queMidTobeDeleted : ConcurrentQueue (MidTable τ)
  m_bShutdownInitiated : Bool
  /-- `m_QueueMutex` and `m_condQueueHandler`. -/
  m_condQueueHandler : ThreadCondition
  run : RunPc
  call : κ → CallPc τ

inductive Act (κ τ : Type) where
  | clearMid (t : κ) (nMid : ℤ) (strTable : τ)
  | notifyShutdown (t : κ)
  /-- The next statement of the call of a thread; `Put` misses its lock so often. -/
  | call (t : κ) (nFails : ℕ)
  | run
  /-- The wait ends without a broadcast. -/
  | wake

def init : State κ τ := ⟨.empty, false, .init, .take, fun _ => .outside⟩

variable [DecidableEq κ]

def State.goto (s : State κ τ) (t : κ) (pc : CallPc τ) : State κ τ :=
  { s with call := Function.update s.call t pc }

/-- `ClearMid` and `NotifyShutdown`. -/
def stepCall (s : State κ τ) (t : κ) (nFails : ℕ) : Option (State κ τ) :=
  match s.call t with
  | .outside => none
  | .put pMt =>
    some { s.goto t .lock with
      m_queMidTobeDeleted :=
        (s.m_queMidTobeDeleted.put pMt MidHandler.MID_TABLE_SIZE nFails).2 }
  | .setShutdown => some { s.goto t .lock with m_bShutdownInitiated := true }
  | .lock =>
    s.m_condQueueHandler.lock.map fun cond =>
      { s.goto t .broadcast with m_condQueueHandler := cond }
  | .broadcast =>
    some { s.goto t .unlock with m_condQueueHandler := s.m_condQueueHandler.broadcast }
  | .unlock => some { s.goto t .outside with m_condQueueHandler := s.m_condQueueHandler.unlock }

/-- `Run`. The entry that is taken is deleted from the database in the same step. -/
def stepRun (s : State κ τ) : Option (State κ τ) :=
  match s.run with
  | .take =>
    match s.m_queMidTobeDeleted.take with
    | some (_, que) => some { s with m_queMidTobeDeleted := que }
    | none => some { s with run := .checkShutdown }
  | .checkShutdown =>
    some { s with run := if s.m_bShutdownInitiated then .finished else .lock }
  | .lock =>
    s.m_condQueueHandler.lock.map fun cond =>
      { s with m_condQueueHandler := cond, run := .wait }
  | .wait =>
    some { s with m_condQueueHandler := s.m_condQueueHandler.wait, run := .waiting }
  | .waiting =>
    s.m_condQueueHandler.resume.map fun cond =>
      { s with m_condQueueHandler := cond, run := .unlock }
  | .unlock => some { s with m_condQueueHandler := s.m_condQueueHandler.unlock, run := .take }
  | .finished => none

def next (s : State κ τ) : Act κ τ → Option (State κ τ)
  | .clearMid t nMid strTable =>
    match s.call t with
    | .outside => some (s.goto t (.put ⟨nMid, strTable⟩))
    | _ => none
  | .notifyShutdown t =>
    match s.call t with
    | .outside => some (s.goto t .setShutdown)
    | _ => none
  | .call t nFails => stepCall s t nFails
  | .run => stepRun s
  | .wake => some { s with m_condQueueHandler := s.m_condQueueHandler.broadcast }

/-! ## What matters of a state -/

/-- The broadcast of the call is before it. -/
def CallPc.toCome : CallPc τ → Bool
  | .put _ | .setShutdown | .lock | .broadcast => true
  | .outside | .unlock => false

/-- The worker looks at the queue first. -/
def RunPc.position : RunPc → WorkerPosition
  | .checkShutdown => .looking fun i => decide (i = .work)
  | .lock | .wait => .looking fun _ => true
  | .waiting => .waiting
  | .take | .unlock | .finished => .looking fun _ => false

def State.pending (s : State κ τ) : WaitSource → Bool
  | .work => !s.m_queMidTobeDeleted.values.isEmpty
  | .shutdown => s.m_bShutdownInitiated

def State.view (s : State κ τ) : View κ WaitSource :=
  workerView s.pending s.run.position s.m_condQueueHandler fun t => (s.call t).toCome

/-- A broadcast is heard. -/
def Heard (s : State κ τ) : Act κ τ → Prop
  | .call t _ => s.call t = .broadcast → s.view.Heard t
  | _ => True

instance [Fintype κ] [DecidableEq τ] (s : State κ τ) (a : Act κ τ) : Decidable (Heard s a) := by
  cases a <;> unfold Heard <;> infer_instance

/-! ## The steps -/

variable {s s' : State κ τ}

theorem inv_stepCall (h : View.Inv s.view) {t : κ} {nFails : ℕ}
    (hheard : s.call t = .broadcast → s.view.Heard t)
    (hnext : stepCall s t nFails = some s') : View.Inv s'.view := by
  unfold stepCall at hnext
  split at hnext
  · exact nomatch hnext
  · cases hnext
    exact inv_goto_toCome h rfl rfl
  · cases hnext
    exact inv_goto_toCome h rfl rfl
  · rcases Option.map_eq_some_iff.1 hnext with ⟨cond, hlock, rfl⟩
    exact inv_goto_toCome h (ThreadCondition.waiting_lock hlock) rfl
  · rename_i hpc
    cases hnext
    exact inv_goto_broadcast (hheard hpc)
  · -- the broadcast has been made
    rename_i hpc
    cases hnext
    refine inv_goto h rfl ?_
    rw [hpc]
    exact nofun

omit [DecidableEq κ] in
theorem inv_stepRun (h : View.Inv s.view) (hnext : stepRun s = some s') :
    View.Inv s'.view := by
  unfold stepRun at hnext
  unfold State.view at h
  split at hnext
  · rename_i hrun
    split at hnext
    · cases hnext
      unfold State.view
      rw [hrun]
      exact inv_awake
    · -- the queue is found empty
      rename_i htake
      cases hnext
      rw [hrun] at h
      refine inv_look h fun i hi => Or.inr ?_
      rw [of_decide_eq_true hi]
      show (!s.m_queMidTobeDeleted.values.isEmpty) = false
      rw [ConcurrentQueue.take_eq_none htake]
      rfl
  · rename_i hrun
    cases hnext
    rw [hrun] at h
    by_cases hflag : s.m_bShutdownInitiated = true
    · rw [if_pos hflag]
      exact inv_awake
    · -- the shutdown flag is found clear
      rw [if_neg hflag]
      refine inv_look h fun i _ => ?_
      cases i with
      | work => exact Or.inl rfl
      | shutdown => exact Or.inr (Bool.eq_false_iff.2 hflag)
  · rename_i hrun
    rcases Option.map_eq_some_iff.1 hnext with ⟨cond, -, rfl⟩
    rw [hrun] at h
    exact inv_look h fun _ _ => Or.inl rfl
  · rename_i hrun
    cases hnext
    rw [hrun] at h
    exact inv_wait h
  · rcases Option.map_eq_some_iff.1 hnext with ⟨cond, -, rfl⟩
    exact inv_awake
  · cases hnext
    exact inv_awake
  · exact nomatch hnext

/-- What waking up needs is kept, as long as broadcasts are heard. -/
theorem inv_next (h : View.Inv s.view) {a : Act κ τ} (hheard : Heard s a)
    (hnext : next s a = some s') : View.Inv s'.view := by
  cases a with
  | clearMid t nMid strTable =>
    unfold next at hnext
    dsimp only at hnext
    split at hnext
    · cases hnext
      exact inv_goto_toCome h rfl rfl
    · exact nomatch hnext
  | notifyShutdown t =>
    unfold next at hnext
    dsimp only at hnext
    split at hnext
    · cases hnext
      exact inv_goto_toCome h rfl rfl
    · exact nomatch hnext
  | call t nFails => exact inv_stepCall h hheard hnext
  | run => exact inv_stepRun h hnext
  | wake =>
    cases hnext
    exact inv_wake h

omit [DecidableEq κ] in
theorem inv_init : View.Inv (init : State κ τ).view := inv_awake

end MidWorker

end DeviceClient
