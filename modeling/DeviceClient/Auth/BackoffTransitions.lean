import DeviceClient.Auth.ActivationBackoff
import DeviceClient.Lib.Run
import Mathlib.Data.Int.Order.Basic
import Mathlib.Tactic.SplitIfs

/-!
# The transitions of the backoff

The calls of `CActivationBackoff` in any order, with what happened before: the failures of
the present state object, and the ignitions since the start or the last `Reset`.

* `along_transitionKept`: the states follow their chains and the count is the stored one, as
  long as the count stays an `int`.
-/

namespace DeviceClient

inductive BackoffCall where
  | proceed (llCurrMTime ullNow : ℕ)
  | calculateNextRetry (eErrCode : HttpErrorCode) (rand : ℤ)
  | reset (ullNow : ℕ)
  | processEvent (bIsActivated : Bool) (rEvent : BackoffEvent) (ullNow : ℕ)
  | checkCurrentState (ullNow : ℕ)

/-- The backoff, the failures that the present state object has counted, and the ignitions
since the count was `base`. -/
structure BackoffHistory where
  backoff : ActivationBackoff
  failures : ℕ
  base : ℤ
  ignitions : ℕ

namespace BackoffHistory

open ActivationBackoff Lib

variable (cfg : BackoffConfig)

def init (storedIgnitionCount : ℤ) (ullNow : ℕ) : BackoffHistory :=
  ⟨.new cfg storedIgnitionCount ullNow, 0, storedIgnitionCount, 0⟩

/-! ## Calls -/

/-- An event that the backoff takes for an ignition or a new device. -/
def isIgnitionRun (rEvent : BackoffEvent) : Bool :=
  rEvent.strEventId = "IgnStatus" && rEvent.strState = "run"

def isDeviceAttach (rEvent : BackoffEvent) : Bool :=
  rEvent.strEventId = "DeviceRemoval" && rEvent.strStatus = "attached"

/-- `ProcessEvent` before it checks the state. -/
def noteEvent (rEvent : BackoffEvent) (s : ActivationBackoff) : ActivationBackoff :=
  (s.ignStatus rEvent).deviceRemoval rEvent

/-- What `CheckCurrentState` finds in a call, if the call comes to it. -/
def checked (s : ActivationBackoff) : BackoffCall → Option ActivationBackoff
  | .proceed llCurrMTime _ =>
    if cfg.enable && s.countIgnition.backOffState.checkIfProceed llCurrMTime then
      some s.countIgnition
    else none
  | .processEvent bIsActivated rEvent _ =>
    if cfg.enable && !bIsActivated then some (noteEvent rEvent s) else none
  | .checkCurrentState _ => some s
  | _ => none

def perform (s : ActivationBackoff) : BackoffCall → ActivationBackoff
  | .proceed llCurrMTime ullNow => (s.proceed cfg llCurrMTime ullNow).2
  | .calculateNextRetry eErrCode rand => s.calculateNextRetry cfg eErrCode rand
  | .reset ullNow => s.reset cfg ullNow
  | .processEvent bIsActivated rEvent ullNow => s.processEvent cfg bIsActivated rEvent ullNow
  | .checkCurrentState ullNow => s.checkCurrentState cfg ullNow

/-- The failures of the object that is there behind a check. -/
def failuresBehind (u : ActivationBackoff) (failures : ℕ) : ℕ :=
  if (u.backOffState.tryStateChange cfg u.lIgnitionCount).isSome then 0 else failures

def failuresAfter (h : BackoffHistory) (call : BackoffCall) : ℕ :=
  match call with
  | .calculateNextRetry eErrCode _ =>
    if cfg.enable && !isNetworkError eErrCode then h.failures + 1 else h.failures
  | .reset _ => 0
  | _ =>
    match checked cfg h.backoff call with
    | none => h.failures
    | some u => failuresBehind cfg u h.failures

/-- One call, with the history behind it. The check of the state belongs to a backoff that
is enabled. -/
def next (h : BackoffHistory) (call : BackoffCall) : Option BackoffHistory :=
  let h' : BackoffHistory := { h with
    backoff := perform cfg h.backoff call, failures := failuresAfter cfg h call }
  match call with
  | .reset _ => some { h' with base := 0, ignitions := 0 }
  | .processEvent _ rEvent _ =>
    some { h' with ignitions := if isIgnitionRun rEvent then h.ignitions + 1 else h.ignitions }
  | .checkCurrentState _ => if cfg.enable then some h' else none
  | _ => some h'

/-! ## What a call keeps -/

def state (h : BackoffHistory) : BackoffState := h.backoff.backOffState.eCurrBackoffState

/-- The states that have a limit of attempts before them. -/
def behindLimit : List BackoffState :=
  [.eHIGH_FREQ, .eNORMAL_FREQ, .eLOW_FREQ, .eOVER_IGN_THRESHOLD_LOW_FREQ]

/-- An ignition or a new device that is still to be seen, or that the call brings. -/
def pending (h : BackoffHistory) : BackoffCall → Prop
  | .processEvent false rEvent _ =>
    h.backoff.backOffState.changed = true ∨ isIgnitionRun rEvent = true ∨
      isDeviceAttach rEvent = true
  | _ => h.backoff.backOffState.changed = true

/-- The count is the stored one, and no higher than the ignitions allow. -/
structure CountKept (h : BackoffHistory) : Prop where
  stored : h.backoff.lIgnitionCount = h.backoff.storedIgnitionCount
  bounded : h.backoff.lIgnitionCount ≤ h.base + h.ignitions

/-- What holds between a call and the history behind it. -/
structure TransitionKept (h : BackoffHistory) (call : BackoffCall) (h' : BackoffHistory) :
    Prop where
  overThreshold : h.state.overThreshold = true → (∀ ullNow, call ≠ .reset ullNow) →
    h'.state.overThreshold = true
  entered : ∀ eState ∈ behindLimit, h'.state = eState → h.state ≠ eState →
    h.state.successor = some eState ∧ h.state.maxAttempts cfg ≤ h.failures ∧ ¬ pending h call
  count : CountKept h'

/-- Every call leads to a history that keeps it. -/
def Kept (h : BackoffHistory) (call : BackoffCall) : Prop :=
  ∀ h', next cfg h call = some h' → TransitionKept cfg h call h'

/-- The count stays an `int` where an ignition is counted. -/
def CountFits (h : BackoffHistory) : BackoffCall → Prop
  | .proceed _ _ => cfg.enable = true → h.backoff.bIncrementIgnitionCount = true →
      isNetworkError h.backoff.eLastErrorState = false →
      h.backoff.lIgnitionCount < 2 ^ 31 - 1
  | _ => True

variable {cfg}

/-! ## The state object -/

/-- The object counts its failures, and has the limit of its state. -/
structure ObjectInv (cfg : BackoffConfig) (b : BackOffStates) (failures : ℕ) : Prop where
  attempts : b.nAttempts = toInt32 failures
  maxAttempts : b.nMaxAttempts = b.eCurrBackoffState.maxAttempts cfg

theorem objectInv_new (eState : BackoffState) (ullNow : ℕ) :
    ObjectInv cfg (.new cfg eState ullNow) 0 := ⟨rfl, rfl⟩

theorem ObjectInv.activationFailed {b : BackOffStates} {failures : ℕ}
    (h : ObjectInv cfg b failures) (rand : ℤ) :
    ObjectInv cfg (b.activationFailed rand) (failures + 1) := by
  have hattempts : toInt32 (b.nAttempts + 1) = toInt32 ((failures + 1 : ℕ) : ℤ) := by
    rw [h.attempts, toInt32_add_one, Int.natCast_succ]
  unfold BackOffStates.activationFailed BackOffStates.getNextRetryTime
  split_ifs
  · exact ⟨hattempts, h.maxAttempts⟩
  · exact ⟨hattempts, h.maxAttempts⟩

/-- The limit of an object that is through with its attempts is reached by the failures. -/
theorem ObjectInv.maxAttempts_le {b : BackOffStates} {failures : ℕ} (h : ObjectInv cfg b failures)
    (hexhausted : b.exhausted) : b.eCurrBackoffState.maxAttempts cfg ≤ failures := by
  have hle : toInt32 failures ≤ failures := toInt32_le (Int.natCast_nonneg failures)
  unfold BackOffStates.exhausted at hexhausted
  rw [h.attempts, h.maxAttempts] at hexhausted
  omega

/-! ## The check of the state -/

section Check

variable (u : ActivationBackoff) (ullNow : ℕ)

@[simp] theorem check_lIgnitionCount :
    (u.checkCurrentState cfg ullNow).lIgnitionCount = u.lIgnitionCount := by
  unfold checkCurrentState
  split <;> rfl

@[simp] theorem check_storedIgnitionCount :
    (u.checkCurrentState cfg ullNow).storedIgnitionCount = u.storedIgnitionCount := by
  unfold checkCurrentState
  split <;> rfl

@[simp] theorem check_bIncrementIgnitionCount :
    (u.checkCurrentState cfg ullNow).bIncrementIgnitionCount = u.bIncrementIgnitionCount := by
  unfold checkCurrentState
  split <;> rfl

theorem check_state : (u.checkCurrentState cfg ullNow).backOffState.eCurrBackoffState =
    (u.backOffState.tryStateChange cfg u.lIgnitionCount).getD
      u.backOffState.eCurrBackoffState := by
  unfold checkCurrentState
  cases u.backOffState.tryStateChange cfg u.lIgnitionCount with
  | none => rfl
  | some eState => rfl

/-- Behind a check nothing is pending. -/
theorem check_changed : (u.checkCurrentState cfg ullNow).backOffState.changed = false := by
  unfold checkCurrentState
  cases htry : u.backOffState.tryStateChange cfg u.lIgnitionCount with
  | some eState => rfl
  | none =>
    by_contra hchanged
    rw [Bool.not_eq_false] at hchanged
    unfold BackOffStates.tryStateChange at htry
    rw [if_pos hchanged] at htry
    cases htry

theorem objectInv_check {u : ActivationBackoff} {failures : ℕ}
    (h : ObjectInv cfg u.backOffState failures) :
    ObjectInv cfg (u.checkCurrentState cfg ullNow).backOffState (failuresBehind cfg u failures) := by
  unfold checkCurrentState failuresBehind
  cases u.backOffState.tryStateChange cfg u.lIgnitionCount with
  | none => exact h
  | some eState => exact objectInv_new eState ullNow

end Check

/-- From a state over the threshold only such states are reached. -/
theorem overThreshold_tryStateChange {b : BackOffStates} {lIgnitionCount : ℤ}
    {eState : BackoffState} (h : b.tryStateChange cfg lIgnitionCount = some eState)
    (hover : b.eCurrBackoffState.overThreshold = true) : eState.overThreshold = true := by
  unfold BackOffStates.tryStateChange at h
  split_ifs at h
  · cases h
    revert hover
    cases b.eCurrBackoffState <;> decide
  · cases h
    rfl
  · revert h hover
    cases b.eCurrBackoffState <;> cases eState <;> decide

theorem first_not_mem_behindLimit : ∀ eState : BackoffState, eState.first ∉ behindLimit := by
  intro eState
  cases eState <;> decide

/-- The states with a limit before them are reached behind it, and with nothing pending. -/
theorem entered_tryStateChange {b : BackOffStates} {lIgnitionCount : ℤ} {eState : BackoffState}
    (h : b.tryStateChange cfg lIgnitionCount = some eState)
    (hmem : eState ∈ behindLimit) :
    b.eCurrBackoffState.successor = some eState ∧ b.exhausted ∧ b.changed = false := by
  unfold BackOffStates.tryStateChange at h
  split_ifs at h with hchanged hover hexhausted
  · -- an ignition or a device leads to the first state of a chain
    cases h
    exact absurd hmem (first_not_mem_behindLimit _)
  · cases h
    exact absurd hmem (by decide)
  · exact ⟨h, hexhausted, Bool.not_eq_true _ ▸ hchanged⟩

/-! ## What a check finds -/

/-- The check in a call sees the state object as it was, but for what the event of the call
changes. -/
theorem checked_object {s u : ActivationBackoff} {call : BackoffCall} {failures : ℕ}
    (h : checked cfg s call = some u) (hs : ObjectInv cfg s.backOffState failures) :
    u.backOffState.eCurrBackoffState = s.backOffState.eCurrBackoffState ∧
      ObjectInv cfg u.backOffState failures := by
  cases call with
  | proceed llCurrMTime ullNow =>
    unfold checked at h
    dsimp only at h
    split_ifs at h
    cases h
    unfold countIgnition incrementIgnitionCount
    split_ifs <;> exact ⟨rfl, hs⟩
  | processEvent bIsActivated rEvent ullNow =>
    unfold checked at h
    dsimp only at h
    split_ifs at h
    cases h
    unfold noteEvent ignStatus deviceRemoval
    split_ifs <;> exact ⟨rfl, hs.attempts, hs.maxAttempts⟩
  | checkCurrentState ullNow =>
    cases h
    exact ⟨rfl, hs⟩
  | calculateNextRetry eErrCode rand => cases h
  | reset ullNow => cases h

/-- What is pending in a call is what its check finds. -/
theorem changed_of_pending {h : BackoffHistory} {call : BackoffCall} {u : ActivationBackoff}
    (hchecked : checked cfg h.backoff call = some u)
    (hold : h.backoff.backOffState.changed = false) (hpending : pending h call) :
    u.backOffState.changed = true := by
  cases call with
  | processEvent bIsActivated rEvent ullNow =>
    unfold checked at hchecked
    dsimp only at hchecked
    split_ifs at hchecked with hgoes
    cases hchecked
    rw [Bool.and_eq_true, Bool.not_eq_true'] at hgoes
    rw [hgoes.2] at hpending
    rcases hpending with hpending | hrun | hattach
    · exact absurd (hold.symm.trans hpending) Bool.false_ne_true
    · simp only [isIgnitionRun, Bool.and_eq_true, decide_eq_true_eq] at hrun
      simp [noteEvent, ignStatus, deviceRemoval, hrun, BackOffStates.changed,
        BackOffStates.ignitionStateChange]
    · simp only [isDeviceAttach, Bool.and_eq_true, decide_eq_true_eq] at hattach
      simp [noteEvent, ignStatus, deviceRemoval, hattach, BackOffStates.changed,
        BackOffStates.deviceStateChange]
  | proceed llCurrMTime ullNow => exact absurd (hold.symm.trans hpending) Bool.false_ne_true
  | calculateNextRetry eErrCode rand => cases hchecked
  | reset ullNow => cases hchecked
  | checkCurrentState ullNow => exact absurd (hold.symm.trans hpending) Bool.false_ne_true

/-- A call ends with its check. -/
theorem perform_of_checked {s u : ActivationBackoff} {call : BackoffCall}
    (h : checked cfg s call = some u) :
    ∃ ullNow, perform cfg s call = u.checkCurrentState cfg ullNow := by
  -- the clock of the check is the last input of the call
  cases call with
  | proceed llCurrMTime ullNow =>
    unfold checked at h
    dsimp only at h
    split_ifs at h with hgoes
    cases h
    rw [Bool.and_eq_true] at hgoes
    refine ⟨ullNow, ?_⟩
    unfold perform proceed
    dsimp only
    rw [if_pos hgoes.1, if_pos hgoes.2]
  | processEvent bIsActivated rEvent ullNow =>
    unfold checked at h
    dsimp only at h
    split_ifs at h with hgoes
    cases h
    rw [Bool.and_eq_true, Bool.not_eq_true'] at hgoes
    refine ⟨ullNow, ?_⟩
    unfold perform processEvent
    dsimp only
    rw [hgoes.1, hgoes.2]
    rfl
  | checkCurrentState ullNow =>
    cases h
    exact ⟨ullNow, rfl⟩
  | calculateNextRetry eErrCode rand => cases h
  | reset ullNow => cases h

/-- A call without a check, and not a `Reset`, keeps the state object but for a failure. -/
theorem object_of_not_checked {h : BackoffHistory} {call : BackoffCall}
    (hnone : checked cfg h.backoff call = none) (hreset : ∀ ullNow, call ≠ .reset ullNow)
    (hs : ObjectInv cfg h.backoff.backOffState h.failures) :
    (perform cfg h.backoff call).backOffState.eCurrBackoffState = h.state ∧
      (perform cfg h.backoff call).backOffState.changed = h.backoff.backOffState.changed ∧
      ObjectInv cfg (perform cfg h.backoff call).backOffState (failuresAfter cfg h call) := by
  -- only a failure that counts changes the object
  cases call with
  | proceed llCurrMTime ullNow =>
    have hfailures : failuresAfter cfg h (.proceed llCurrMTime ullNow) = h.failures := by
      unfold failuresAfter
      dsimp only
      rw [hnone]
    rw [hfailures]
    unfold checked at hnone
    dsimp only at hnone
    split_ifs at hnone with hgoes
    have hsame : (perform cfg h.backoff (.proceed llCurrMTime ullNow)).backOffState =
        h.backoff.backOffState := by
      unfold perform proceed
      dsimp only
      rw [Bool.and_eq_true] at hgoes
      by_cases henable : cfg.enable = true
      · rw [if_pos henable, if_neg fun hproceed => hgoes ⟨henable, hproceed⟩]
        unfold countIgnition incrementIgnitionCount
        split_ifs <;> rfl
      · rw [if_neg henable]
    rw [hsame]
    exact ⟨rfl, rfl, hs⟩
  | calculateNextRetry eErrCode rand =>
    unfold perform failuresAfter calculateNextRetry
    dsimp only
    by_cases henable : cfg.enable = true
    · by_cases hnetwork : isNetworkError eErrCode = true
      · -- a network error is left out of the count
        rw [if_pos henable, if_pos hnetwork, hnetwork, Bool.not_true, Bool.and_false]
        exact ⟨rfl, rfl, hs⟩
      · have hcounts : (cfg.enable && !isNetworkError eErrCode) = true := by
          rw [henable, Bool.eq_false_iff.2 hnetwork]
          decide
        rw [if_pos henable, if_neg hnetwork, if_pos hcounts]
        refine ⟨?_, ?_, hs.activationFailed rand⟩
        · show (BackOffStates.getNextRetryTime rand _).eCurrBackoffState = _
          unfold BackOffStates.getNextRetryTime
          split_ifs <;> rfl
        · show (BackOffStates.getNextRetryTime rand _).changed = _
          unfold BackOffStates.getNextRetryTime
          split_ifs <;> rfl
    · rw [if_neg henable, Bool.eq_false_iff.2 henable, Bool.false_and]
      exact ⟨rfl, rfl, hs⟩
  | reset ullNow => exact absurd rfl (hreset ullNow)
  | processEvent bIsActivated rEvent ullNow =>
    have hfailures : failuresAfter cfg h (.processEvent bIsActivated rEvent ullNow) =
        h.failures := by
      unfold failuresAfter
      dsimp only
      rw [hnone]
    rw [hfailures]
    unfold checked at hnone
    dsimp only at hnone
    split_ifs at hnone with hgoes
    have hignored : (!cfg.enable || bIsActivated) = true := by
      revert hgoes
      cases cfg.enable <;> cases bIsActivated <;> decide
    unfold perform processEvent
    dsimp only
    rw [if_pos hignored]
    exact ⟨rfl, rfl, hs⟩
  | checkCurrentState ullNow => cases hnone

/-! ## The count -/

/-- The count is the stored one and an `int` from below, and with the ignition that is
still to be counted no higher than a bound. -/
structure CountInv (s : ActivationBackoff) (bound : ℤ) : Prop where
  stored : s.lIgnitionCount = s.storedIgnitionCount
  low : -2 ^ 31 ≤ s.lIgnitionCount
  bounded : s.lIgnitionCount + (if s.bIncrementIgnitionCount then 1 else 0) ≤ bound

/-- The count reads three fields only. -/
theorem CountInv.congr {s t : ActivationBackoff} {bound : ℤ} (h : CountInv s bound)
    (hcount : t.lIgnitionCount = s.lIgnitionCount)
    (hstored : t.storedIgnitionCount = s.storedIgnitionCount)
    (hincrement : t.bIncrementIgnitionCount = s.bIncrementIgnitionCount) : CountInv t bound := by
  refine ⟨?_, ?_, ?_⟩
  · rw [hcount, hstored]
    exact h.stored
  · rw [hcount]
    exact h.low
  · rw [hcount, hincrement]
    exact h.bounded

theorem CountInv.check {u : ActivationBackoff} {bound : ℤ} (h : CountInv u bound) (ullNow : ℕ) :
    CountInv (u.checkCurrentState cfg ullNow) bound :=
  h.congr (check_lIgnitionCount u ullNow) (check_storedIgnitionCount u ullNow)
    (check_bIncrementIgnitionCount u ullNow)

/-- The ignition that was still to be counted is the one that the count goes up by. -/
theorem CountInv.countIgnition {s : ActivationBackoff} {bound : ℤ} (h : CountInv s bound)
    (hfits : s.bIncrementIgnitionCount = true → isNetworkError s.eLastErrorState = false →
      s.lIgnitionCount < 2 ^ 31 - 1) : CountInv s.countIgnition bound := by
  unfold ActivationBackoff.countIgnition incrementIgnitionCount
  split_ifs with hnetwork hincrement
  · exact h
  · have hlow := h.low
    have hhigh := hfits hincrement (Bool.not_eq_true _ ▸ hnetwork)
    have hbounded := h.bounded
    rw [if_pos hincrement] at hbounded
    have hint : toInt32 (s.lIgnitionCount + 1) = s.lIgnitionCount + 1 :=
      toInt32_of_fits (by omega) (by omega)
    refine ⟨hint.symm, ?_, ?_⟩
    · show -2 ^ 31 ≤ s.lIgnitionCount + 1
      omega
    · show s.lIgnitionCount + 1 + 0 ≤ bound
      omega
  · exact h

theorem CountInv.deviceRemoval {s : ActivationBackoff} {bound : ℤ} (h : CountInv s bound)
    (rEvent : BackoffEvent) : CountInv (s.deviceRemoval rEvent) bound := by
  unfold ActivationBackoff.deviceRemoval
  split_ifs
  · exact h.congr rfl rfl rfl
  · exact h

/-- An event asks for at most one more ignition, and only an ignition run does. -/
theorem CountInv.noteEvent {s : ActivationBackoff} {bound : ℤ} (h : CountInv s bound)
    (rEvent : BackoffEvent) :
    CountInv (noteEvent rEvent s) (if isIgnitionRun rEvent then bound + 1 else bound) := by
  have hbounded := h.bounded
  have hle : s.lIgnitionCount ≤ bound := by
    split_ifs at hbounded <;> omega
  apply CountInv.deviceRemoval
  by_cases hrun : isIgnitionRun rEvent = true
  · rw [if_pos hrun]
    simp only [isIgnitionRun, Bool.and_eq_true, decide_eq_true_eq] at hrun
    unfold ignStatus
    rw [if_pos hrun.1, if_pos hrun.2]
    refine ⟨h.stored, h.low, ?_⟩
    show s.lIgnitionCount + 1 ≤ bound + 1
    omega
  · rw [if_neg hrun]
    simp only [isIgnitionRun, Bool.and_eq_true, decide_eq_true_eq] at hrun
    unfold ignStatus
    split_ifs with hign hstate
    · exact absurd ⟨hign, hstate⟩ hrun
    · exact h.congr rfl rfl rfl
    · exact h

/-! ## Every run -/

/-- What every history keeps, as long as the count fits. -/
structure Inv (cfg : BackoffConfig) (h : BackoffHistory) : Prop where
  object : ObjectInv cfg h.backoff.backOffState h.failures
  unchanged : h.backoff.backOffState.changed = false
  count : CountInv h.backoff (h.base + h.ignitions)

theorem Inv.countKept {h : BackoffHistory} (hs : Inv cfg h) : CountKept h := by
  have hbounded := hs.count.bounded
  refine ⟨hs.count.stored, ?_⟩
  split_ifs at hbounded <;> omega

/-- A count that fits is kept by the calls, up to the ignition that an event brings. -/
theorem countInv_perform {h : BackoffHistory} {call : BackoffCall} (hs : Inv cfg h)
    (hfits : CountFits cfg h call) (hreset : ∀ ullNow, call ≠ .reset ullNow) :
    CountInv (perform cfg h.backoff call) (match call with
      | .processEvent _ rEvent _ =>
        if isIgnitionRun rEvent then h.base + h.ignitions + 1 else h.base + h.ignitions
      | _ => h.base + h.ignitions) := by
  cases call with
  | proceed llCurrMTime ullNow =>
    dsimp only
    unfold perform proceed
    dsimp only
    by_cases henable : cfg.enable = true
    · rw [if_pos henable]
      have hcounted := hs.count.countIgnition (hfits henable)
      split_ifs
      · exact hcounted.check ullNow
      · exact hcounted
    · rw [if_neg henable]
      exact hs.count
  | calculateNextRetry eErrCode rand =>
    dsimp only
    unfold perform calculateNextRetry
    dsimp only
    split_ifs <;> exact hs.count.congr rfl rfl rfl
  | reset ullNow => exact absurd rfl (hreset ullNow)
  | processEvent bIsActivated rEvent ullNow =>
    dsimp only
    unfold perform processEvent
    dsimp only
    by_cases hignored : (!cfg.enable || bIsActivated) = true
    · rw [if_pos hignored]
      -- the ignition is not counted, but its event has come
      refine ⟨hs.count.stored, hs.count.low, ?_⟩
      have hbounded := hs.count.bounded
      by_cases hrun : isIgnitionRun rEvent = true
      · rw [if_pos hrun]
        omega
      · rw [if_neg hrun]
        exact hbounded
    · rw [if_neg hignored]
      exact (hs.count.noteEvent rEvent).check ullNow
  | checkCurrentState ullNow => exact hs.count.check ullNow

/-- The state object behind a call, and what the call may have done to it. -/
theorem object_perform {h : BackoffHistory} {call : BackoffCall} (hs : Inv cfg h)
    (hreset : ∀ ullNow, call ≠ .reset ullNow) :
    ObjectInv cfg (perform cfg h.backoff call).backOffState (failuresAfter cfg h call) ∧
      (perform cfg h.backoff call).backOffState.changed = false := by
  cases hchecked : checked cfg h.backoff call with
  | none =>
    rcases object_of_not_checked hchecked hreset hs.object with ⟨-, hchanged, hobject⟩
    exact ⟨hobject, hchanged.trans hs.unchanged⟩
  | some u =>
    rcases perform_of_checked hchecked with ⟨ullNow, hperform⟩
    have hfailures : failuresAfter cfg h call = failuresBehind cfg u h.failures := by
      cases call with
      | calculateNextRetry eErrCode rand => cases hchecked
      | reset ullNow => cases hchecked
      | _ =>
        unfold failuresAfter
        dsimp only
        rw [hchecked]
    rw [hperform, hfailures]
    have hobject := (checked_object hchecked hs.object).2
    exact ⟨objectInv_check ullNow hobject, check_changed u ullNow⟩

/-- The states follow their chains in every call but `Reset`. -/
theorem state_perform {h : BackoffHistory} {call : BackoffCall} (hs : Inv cfg h)
    (hreset : ∀ ullNow, call ≠ .reset ullNow) :
    (h.state.overThreshold = true →
      (perform cfg h.backoff call).backOffState.eCurrBackoffState.overThreshold = true) ∧
    ∀ eState ∈ behindLimit, (perform cfg h.backoff call).backOffState.eCurrBackoffState = eState →
      h.state ≠ eState → h.state.successor = some eState ∧
        h.state.maxAttempts cfg ≤ h.failures ∧ ¬ pending h call := by
  cases hchecked : checked cfg h.backoff call with
  | none =>
    rcases object_of_not_checked hchecked hreset hs.object with ⟨hstate, -, -⟩
    rw [hstate]
    exact ⟨id, fun eState _ hsame hne => absurd hsame hne⟩
  | some u =>
    rcases perform_of_checked hchecked with ⟨ullNow, hperform⟩
    rcases checked_object hchecked hs.object with ⟨hstate, hobject⟩
    rw [hperform, check_state]
    cases htry : u.backOffState.tryStateChange cfg u.lIgnitionCount with
    | none =>
      rw [Option.getD_none, hstate]
      exact ⟨id, fun eState _ hsame hne => absurd hsame hne⟩
    | some eNew =>
      rw [Option.getD_some]
      -- the new state is entered when the attempts of the old one are used up
      refine ⟨fun hover => overThreshold_tryStateChange htry (hstate ▸ hover), ?_⟩
      rintro eState hmem rfl -
      rcases entered_tryStateChange htry hmem with ⟨hsuccessor, hexhausted, hchanged⟩
      have hlimit := hobject.maxAttempts_le hexhausted
      rw [hstate] at hsuccessor hlimit
      refine ⟨hsuccessor, hlimit, fun hpending => ?_⟩
      have hseen := changed_of_pending hchecked hs.unchanged hpending
      exact absurd (hchanged.symm.trans hseen) Bool.false_ne_true

theorem inv_init {storedIgnitionCount : ℤ} (hstored : cfg.enable = true ∨ storedIgnitionCount = 0)
    (hint : -2 ^ 31 ≤ storedIgnitionCount) (ullNow : ℕ) :
    Inv cfg (init cfg storedIgnitionCount ullNow) := by
  have hcount : (init cfg storedIgnitionCount ullNow).backoff.lIgnitionCount =
      storedIgnitionCount := by
    rcases hstored with henable | hzero
    · exact if_pos henable
    · rw [hzero]
      exact ite_self 0
  refine ⟨objectInv_new .eINITIAL ullNow, rfl, hcount, ?_, ?_⟩
  · rw [hcount]
    exact hint
  · rw [hcount]
    exact le_of_eq rfl

/-- `Reset` starts with the initial state and a count of zero. -/
theorem inv_reset (h : BackoffHistory) (ullNow : ℕ) :
    Inv cfg ⟨h.backoff.reset cfg ullNow, 0, 0, 0⟩ :=
  ⟨objectInv_new .eINITIAL ullNow, rfl, rfl, show (-2 ^ 31 : ℤ) ≤ 0 by decide, le_refl 0⟩

/-- One call that the count fits. -/
theorem next_kept {h h' : BackoffHistory} {call : BackoffCall} (hs : Inv cfg h)
    (hfits : CountFits cfg h call) (hnext : next cfg h call = some h') :
    Inv cfg h' ∧ TransitionKept cfg h call h' := by
  by_cases hreset : ∃ ullNow, call = .reset ullNow
  · rcases hreset with ⟨ullNow, rfl⟩
    cases hnext
    refine ⟨inv_reset h ullNow, fun _ hne => absurd rfl (hne ullNow), ?_,
      (inv_reset h ullNow).countKept⟩
    intro eState hmem hstate
    have hinitial : BackoffState.eINITIAL = eState := hstate
    rw [← hinitial] at hmem
    exact absurd hmem (by decide)
  · have hother : ∀ ullNow, call ≠ .reset ullNow := fun ullNow hcall => hreset ⟨ullNow, hcall⟩
    rcases object_perform hs hother with ⟨hobject, hchanged⟩
    rcases state_perform hs hother with ⟨hover, hentered⟩
    have hcount := countInv_perform hs hfits hother
    have hinv : Inv cfg h' ∧ h'.backoff = perform cfg h.backoff call := by
      cases call with
      | reset ullNow => exact absurd rfl (hother ullNow)
      | processEvent bIsActivated rEvent ullNow =>
        cases hnext
        refine ⟨⟨hobject, hchanged, ?_⟩, rfl⟩
        -- the ignition that the event may have brought is in the history
        by_cases hrun : isIgnitionRun rEvent = true
        · dsimp only at hcount ⊢
          rw [if_pos hrun] at hcount ⊢
          rw [Int.natCast_succ, ← Int.add_assoc]
          exact hcount
        · dsimp only at hcount ⊢
          rw [if_neg hrun] at hcount ⊢
          exact hcount
      | checkCurrentState ullNow =>
        unfold next at hnext
        dsimp only at hnext
        split_ifs at hnext
        cases hnext
        exact ⟨⟨hobject, hchanged, hcount⟩, rfl⟩
      | _ =>
        cases hnext
        exact ⟨⟨hobject, hchanged, hcount⟩, rfl⟩
    refine ⟨hinv.1, fun hstate _ => ?_, ?_, hinv.1.countKept⟩
    · unfold state
      rw [hinv.2]
      exact hover hstate
    · unfold state
      rw [hinv.2]
      exact hentered

/-- Whatever calls come in whatever order: behind the start and behind each of them the
count is the stored one and bounded by the ignitions, and each of them keeps to the chains
of the states, as long as every ignition that is counted leaves an `int`. -/
theorem along_transitionKept (storedIgnitionCount : ℤ) (ullNow : ℕ)
    (hstored : cfg.enable = true ∨ storedIgnitionCount = 0)
    (hint : -2 ^ 31 ≤ storedIgnitionCount) (calls : List BackoffCall)
    (hfits : Lib.Along (next cfg) (CountFits cfg) (init cfg storedIgnitionCount ullNow) calls) :
    CountKept (init cfg storedIgnitionCount ullNow) ∧
      Lib.Along (next cfg) (Kept cfg) (init cfg storedIgnitionCount ullNow) calls := by
  have hinit := inv_init hstored hint ullNow
  refine ⟨hinit.countKept, ?_⟩
  refine Lib.Along.imp_inv (fun h call h' hs hok hnext => (next_kept hs hok hnext).1) ?_ hinit hfits
  intro h call hs hok h' hnext
  exact (next_kept hs hok hnext).2

/-! ## Runs -/

instance (h : BackoffHistory) : ∀ call, Decidable (CountFits cfg h call)
  | .proceed _ _ => inferInstanceAs (Decidable (cfg.enable = true →
      h.backoff.bIncrementIgnitionCount = true →
      isNetworkError h.backoff.eLastErrorState = false → h.backoff.lIgnitionCount < 2 ^ 31 - 1))
  | .calculateNextRetry _ _ => .isTrue trivial
  | .reset _ => .isTrue trivial
  | .processEvent _ _ _ => .isTrue trivial
  | .checkCurrentState _ => .isTrue trivial

/-- A configuration with one attempt in the states that have a limit. -/
def shortConfig : BackoffConfig :=
  .read (fun _ => some true) fun strKey =>
    if strKey ∈ ["initialAttempts", "highFreqAttempts", "normalFreqAttempts",
      "ignitionThreshold", "highFreqAttemptAfterIgnitionThreshold"] then some 1 else none

def ignitionRun : BackoffEvent := ⟨"IgnStatus", "run", ""⟩

/-- To the low frequency, back with an ignition, over the threshold with the next one, and
back with a `Reset`. -/
def wholeRound : List BackoffCall :=
  [.calculateNextRetry .eERR_SERVER 7, .proceed 10000 10000,
    .calculateNextRetry .eERR_SERVER 7, .proceed 100000 100000,
    .calculateNextRetry .eERR_SERVER 7, .proceed 1000000 1000000,
    .processEvent false ignitionRun 1000001, .proceed 1000002 1000002,
    .processEvent false ignitionRun 1000003, .proceed 1000004 1000004,
    .calculateNextRetry .eERR_SERVER 7, .proceed 2000000 2000000, .reset 2000001]

theorem along_transitionKept_round :
    Lib.Along (next shortConfig) (Kept shortConfig) (init shortConfig 0 0) wholeRound :=
  (along_transitionKept 0 0 (Or.inl rfl) (by decide) wholeRound (by decide +kernel)).2

/-- The count of the last `int` goes on as a `long`, and is stored as a negative number. -/
theorem not_along_transitionKept :
    ¬ Lib.Along (next shortConfig) (Kept shortConfig) (init shortConfig (2 ^ 31 - 1) 0)
      [.calculateNextRetry .eERR_SERVER 7, .processEvent false ignitionRun 1,
        .proceed 2 2] := by
  intro halong
  have hthird := ((halong.2 _ rfl).2 _ rfl).1
  have hcount := (hthird _ rfl).count.stored
  exact absurd hcount (by decide +kernel)

end BackoffHistory

end DeviceClient
