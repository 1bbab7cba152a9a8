import DeviceClient.Util.ThreadCondition

/-!
# The alert uploader

`CMQTTUploader::RequestAlertsUpload` beside the calls of `AlertUpload` with no alert, of
`ForceUpload` and of `NotifyShutdown`, statement by statement. What they do to the condition
of the events is left out.

* `next`: a step of the worker or of a call.
* `inv_next`: each step keeps `Lib.WakeUp.View.Inv`, if broadcasts are heard.
-/

namespace DeviceClient

namespace AlertWorker

open Lib.WakeUp (View)
open WorkerWait

variable {κ : Type}

/-- Where a thread is in `AlertUpload`, `ForceUpload` or `NotifyShutdown`. -/
inductive CallPc where
  | outside
  | setAvailable
  | setShutdown
  | broadcast
  | unlock
deriving DecidableEq

/-- Where the worker is in `RequestAlertsUpload`. -/
inductive RunPc where
  | head
  | checkAvailable
  | tryLock
  | wait
  | waiting
  | checkSuspended
  | checkConnected
  | clearAvailable
  | process
  | finished
deriving DecidableEq

structure State (κ : Type) where
  m_bAlertsAvailable : Bool
  m_bShutdownRequested : Bool
  /-- `m_AlertWaitMutex` and `m_AlertWaitCondition`. -/
  m_AlertWaitCondition : ThreadCondition
  run : RunPc
  call : κ → CallPc

inductive Act (κ : Type) where
  | alertUpload (t : κ)
  | forceUpload (t : κ) (bExitWhenDone : Bool)
  | notifyShutdown (t : κ)
  /-- The next statement of the call of a thread. -/
  | call (t : κ)
  /-- The next statement of the worker, with what it reads of the client. -/
  | run (bUploadSuspended bIsConnected : Bool)
  /-- The wait ends without a broadcast. -/
  | wake

/-- As constructed: alerts may be in the database. -/
def init : State κ := ⟨true, false, .init, .head, fun _ => .outside⟩

variable [DecidableEq κ]

def State.goto (s : State κ) (t : κ) (pc : CallPc) : State κ :=
  { s with call := Function.update s.call t pc }

def stepCall (s : State κ) (t : κ) : Option (State κ) :=
  match s.call t with
  | .outside => none
  | .setAvailable => some { s.goto t .broadcast with m_bAlertsAvailable := true }
  | .setShutdown => some { s.goto t .broadcast with m_bShutdownRequested := true }
  | .broadcast =>
    some { s.goto t .unlock with m_AlertWaitCondition := s.m_AlertWaitCondition.broadcast }
  | .unlock =>
    some { s.goto t .outside with m_AlertWaitCondition := s.m_AlertWaitCondition.unlock }

/-- `RequestAlertsUpload`. While uploads are suspended or there is no connection, it sleeps
and begins again. -/
def stepRun (s : State κ) (bUploadSuspended bIsConnected : Bool) : Option (State κ) :=
  match s.run with
  | .head =>
    some { s with run := if s.m_bShutdownRequested then .finished else .checkAvailable }
  | .checkAvailable =>
    some { s with run := if s.m_bAlertsAvailable then .checkSuspended else .tryLock }
  | .tryLock =>
    some { s with m_AlertWaitCondition := s.m_AlertWaitCondition.tryLock, run := .wait }
  | .wait =>
    some { s with m_AlertWaitCondition := s.m_AlertWaitCondition.wait, run := .waiting }
  | .waiting =>
    s.m_AlertWaitCondition.resume.map fun cond =>
      { s with m_AlertWaitCondition := cond, run := .checkSuspended }
  | .checkSuspended =>
    some { s with
      run := if bUploadSuspended && !s.m_bShutdownRequested then .head else .checkConnected }
  | .checkConnected =>
    some { s with run := if bIsConnected then .clearAvailable else .head }
  | .clearAvailable => some { s with m_bAlertsAvailable := false, run := .process }
  | .process => some { s with run := if s.m_bShutdownRequested then .finished else .head }
  | .finished => none

def next (s : State κ) : Act κ → Option (State κ)
  | .alertUpload t =>
    match s.call t with
    | .outside => some (s.goto t .setAvailable)
    | _ => none
  | .forceUpload t bExitWhenDone =>
    match s.call t with
    | .outside => some (s.goto t (if bExitWhenDone then .setShutdown else .broadcast))
    | _ => none
  | .notifyShutdown t =>
    match s.call t with
    | .outside => some (s.goto t .setShutdown)
    | _ => none
  | .call t => stepCall s t
  | .run bUploadSuspended bIsConnected => stepRun s bUploadSuspended bIsConnected
  | .wake => some { s with m_AlertWaitCondition := s.m_AlertWaitCondition.broadcast }

/-! ## What matters of a state -/

/-- The broadcast of the call is before it. -/
def CallPc.toCome : CallPc → Bool
  | .setAvailable | .setShutdown | .broadcast => true
  | .outside | .unlock => false

/-- The worker looks at the shutdown flag first. -/
def RunPc.position : RunPc → WorkerPosition
  | .checkAvailable => .looking fun i => decide (i = .shutdown)
  | .tryLock | .wait => .looking fun _ => true
  | .waiting => .waiting
  | .head | .checkSuspended | .checkConnected | .clearAvailable | .process | .finished =>
    .looking fun _ => false

def State.pending (s : State κ) : WaitSource → Bool
  | .work => s.m_bAlertsAvailable
  | .shutdown => s.m_bShutdownRequested

def State.view (s : State κ) : View κ WaitSource :=
  workerView s.pending s.run.position s.m_AlertWaitCondition fun t => (s.call t).toCome

/-- A broadcast is heard. -/
def Heard (s : State κ) : Act κ → Prop
  | .call t => s.call t = .broadcast → s.view.Heard t
  | _ => True

instance [Fintype κ] (s : State κ) (a : Act κ) : Decidable (Heard s a) := by
  cases a <;> unfold Heard <;> infer_instance

/-! ## The steps -/

variable {s s' : State κ}

theorem inv_stepCall (h : s.view.Inv) {t : κ} (hheard : s.call t = .broadcast → s.view.Heard t)
    (hnext : stepCall s t = some s') : s'.view.Inv := by
  unfold stepCall at hnext
  split at hnext
  · exact nomatch hnext
  · cases hnext
    exact inv_goto_toCome h rfl rfl
  · cases hnext
    exact inv_goto_toCome h rfl rfl
  · rename_i hpc
    cases hnext
    exact inv_goto_broadcast (hheard hpc)
  · -- the broadcast has been made
    rename_i hpc
    cases hnext
    refine inv_goto h rfl ?_
    rw [hpc]
    exact nofun

omit [DecidableEq κ] in
theorem inv_stepRun (h : s.view.Inv) {bUploadSuspended bIsConnected : Bool}
    (hnext : stepRun s bUploadSuspended bIsConnected = some s') : s'.view.Inv := by
  unfold stepRun at hnext
  unfold State.view at h
  split at hnext
  · rename_i hrun
    cases hnext
    rw [hrun] at h
    by_cases hflag : s.m_bShutdownRequested = true
    · rw [if_pos hflag]
      exact inv_awake
    · -- the shutdown flag is found clear
      rw [if_neg hflag]
      refine inv_look h fun i hi => Or.inr ?_
      rw [of_decide_eq_true hi]
      exact Bool.eq_false_iff.2 hflag
  · rename_i hrun
    cases hnext
    rw [hrun] at h
    by_cases hflag : s.m_bAlertsAvailable = true
    · rw [if_pos hflag]
      exact inv_awake
    · -- no alerts are found
      rw [if_neg hflag]
      refine inv_look h fun i _ => ?_
      cases i with
      | work => exact Or.inr (Bool.eq_false_iff.2 hflag)
      | shutdown => exact Or.inl rfl
  · rename_i hrun
    cases hnext
    rw [hrun] at h
    exact inv_look h fun _ _ => Or.inl rfl
  · rename_i hrun
    cases hnext
    rw [hrun] at h
    exact inv_wait h
  · rcases Option.map_eq_some_iff.1 hnext with ⟨cond, -, rfl⟩
    exact inv_awake
  · cases hnext
    unfold State.view
    dsimp only
    split_ifs <;> exact inv_awake
  · cases hnext
    unfold State.view
    dsimp only
    split_ifs <;> exact inv_awake
  · cases hnext
    exact inv_awake
  · cases hnext
    unfold State.view
    dsimp only
    split_ifs <;> exact inv_awake
  · exact nomatch hnext

/-- What waking up needs is kept, as long as broadcasts are heard. -/
theorem inv_next (h : s.view.Inv) {a : Act κ} (hheard : Heard s a) (hnext : next s a = some s') :
    s'.view.Inv := by
  cases a with
  | alertUpload t =>
    unfold next at hnext
    dsimp only at hnext
    split at hnext
    · cases hnext
      exact inv_goto_toCome h rfl rfl
    · exact nomatch hnext
  | forceUpload t bExitWhenDone =>
    unfold next at hnext
    dsimp only at hnext
    split at hnext
    · cases hnext
      refine inv_goto_toCome h rfl ?_
      cases bExitWhenDone <;> rfl
    · exact nomatch hnext
  | notifyShutdown t =>
    unfold next at hnext
    dsimp only at hnext
    split at hnext
    · cases hnext
      exact inv_goto_toCome h rfl rfl
    · exact nomatch hnext
  | call t => exact inv_stepCall h hheard hnext
  | run bUploadSuspended bIsConnected => exact inv_stepRun h hnext
  | wake =>
    cases hnext
    exact inv_wake h

omit [DecidableEq κ] in
theorem inv_init : (init : State κ).view.Inv := inv_awake

end AlertWorker

end DeviceClient
