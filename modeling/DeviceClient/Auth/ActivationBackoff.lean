import DeviceClient.Lib.Int32
import DeviceClient.Net.HttpResponse
import Mathlib.Algebra.Order.Ring.Int
import Mathlib.Data.Int.Notation
import Mathlib.Data.Nat.Notation

/-!
# The backoff of activations

`CActivationBackoff`: the states with their limits and frequencies, the attempts that
failed in a state, and the count of ignitions, which is also stored.

Times are milliseconds of the monotonic clock. A backoff that is not enabled never looks
at its state object.
-/

namespace DeviceClient

open Lib (toInt32)

/-- `HCPAuth.ActivationBackOffConf`. -/
structure BackoffConfig where
  enable : Bool
  ignitionThreshold : ℤ
  initialAttempts : ℤ
  initialFreq : ℤ
  highFreqAttempts : ℤ
  highFreqDuration : ℤ
  normalFreqAttempts : ℤ
  normalFreqDuration : ℤ
  lowFreqDuration : ℤ
  highFreqAfterIgnitionThreshold : ℤ
  highFreqAttemptAfterIgnitionThreshold : ℤ
  lowFreqAfterIgnitionThreshold : ℤ

/-- The configuration by the names of its values; `none` is a value that is not there. -/
def BackoffConfig.read (getBool : String → Option Bool) (getInt : String → Option ℤ) :
    BackoffConfig where
  enable := (getBool "enable").getD false
  ignitionThreshold := (getInt "ignitionThreshold").getD 50
  initialAttempts := (getInt "initialAttempts").getD 24
  initialFreq := (getInt "initialFreq").getD 5000
  highFreqAttempts := (getInt "highFreqAttempts").getD 10
  highFreqDuration := (getInt "highFreqDuration").getD 60000
  normalFreqAttempts := (getInt "normalFreqAttempts").getD 15
  normalFreqDuration := (getInt "normalFreqDuration").getD 240000
  lowFreqDuration := (getInt "lowFreqDuration").getD 720000
  highFreqAfterIgnitionThreshold := (getInt "highFreqAfterIgnitionThreshold").getD 12000
  highFreqAttemptAfterIgnitionThreshold :=
    (getInt "highFreqAttemptAfterIgnitionThreshold").getD 10
  lowFreqAfterIgnitionThreshold := (getInt "lowFreqAfterIgnitionThreshold").getD 900000

inductive BackoffState where
  | eINITIAL
  | eHIGH_FREQ
  | eNORMAL_FREQ
  | eLOW_FREQ
  | eOVER_IGN_THRESHOLD_HIGH_FREQ
  | eOVER_IGN_THRESHOLD_LOW_FREQ
deriving DecidableEq, Repr

namespace BackoffState

/-- Whether the state has a fixed time between two attempts: those with their own
`GetNextRetryTime`. -/
def fixed : BackoffState → Bool
  | .eINITIAL => true
  | .eOVER_IGN_THRESHOLD_HIGH_FREQ => true
  | _ => false

def overThreshold : BackoffState → Bool
  | .eOVER_IGN_THRESHOLD_HIGH_FREQ => true
  | .eOVER_IGN_THRESHOLD_LOW_FREQ => true
  | _ => false

/-- `m_lnFreq` of a new object. -/
def freq (cfg : BackoffConfig) : BackoffState → ℤ
  | .eINITIAL => cfg.initialFreq
  | .eHIGH_FREQ => cfg.highFreqDuration
  | .eNORMAL_FREQ => cfg.normalFreqDuration
  | .eLOW_FREQ => cfg.lowFreqDuration
  | .eOVER_IGN_THRESHOLD_HIGH_FREQ => cfg.highFreqAfterIgnitionThreshold
  | .eOVER_IGN_THRESHOLD_LOW_FREQ => cfg.lowFreqAfterIgnitionThreshold

/-- `m_nMaxAttempts` of a new object. -/
def maxAttempts (cfg : BackoffConfig) : BackoffState → ℤ
  | .eINITIAL => cfg.initialAttempts
  | .eHIGH_FREQ => cfg.highFreqAttempts
  | .eNORMAL_FREQ => cfg.normalFreqAttempts
  | .eLOW_FREQ => 0
  | .eOVER_IGN_THRESHOLD_HIGH_FREQ => cfg.highFreqAttemptAfterIgnitionThreshold
  | .eOVER_IGN_THRESHOLD_LOW_FREQ => 0

/-- `m_nRetrySlotMax` of a new object: `MIN_VALID_TIME` in the state of high frequency. -/
def slotStart : BackoffState → ℤ
  | .eHIGH_FREQ => 5000
  | _ => 0

/-- The state behind the attempts of a state. -/
def successor : BackoffState → Option BackoffState
  | .eINITIAL => some .eHIGH_FREQ
  | .eHIGH_FREQ => some .eNORMAL_FREQ
  | .eNORMAL_FREQ => some .eLOW_FREQ
  | .eLOW_FREQ => none
  | .eOVER_IGN_THRESHOLD_HIGH_FREQ => some .eOVER_IGN_THRESHOLD_LOW_FREQ
  | .eOVER_IGN_THRESHOLD_LOW_FREQ => none

/-- The state that an ignition or a device brings back. -/
def first : BackoffState → BackoffState
  | .eOVER_IGN_THRESHOLD_HIGH_FREQ => .eOVER_IGN_THRESHOLD_HIGH_FREQ
  | .eOVER_IGN_THRESHOLD_LOW_FREQ => .eOVER_IGN_THRESHOLD_HIGH_FREQ
  | _ => .eINITIAL

end BackoffState

/-- `CRNG::Get`, of what `rand` returns. A range without numbers, of which C++ says
nothing, is left as `Int.tmod` has it. -/
def rngGet (rand nMin nMax : ℤ) : ℤ :=
  toInt32 (nMin + rand.tmod (toInt32 (toInt32 (nMax - nMin) + 1)))

/-- `CBackOffStates`. -/
structure BackOffStates where
  eCurrBackoffState : BackoffState
  llStartTime : ℕ
  llNextTime : ℕ
  bIsIgnStateChanged : Bool
  bIsDeviceStateChanged : Bool
  lnFreq : ℤ
  nMaxAttempts : ℤ
  nAttempts : ℤ
  nRetrySlotMin : ℤ
  nRetrySlotMax : ℤ
deriving DecidableEq

namespace BackOffStates

/-- The constructors. -/
def new (cfg : BackoffConfig) (eState : BackoffState) (ullNow : ℕ) : BackOffStates where
  eCurrBackoffState := eState
  llStartTime := ullNow
  llNextTime := ullNow
  bIsIgnStateChanged := false
  bIsDeviceStateChanged := false
  lnFreq := eState.freq cfg
  nMaxAttempts := eState.maxAttempts cfg
  nAttempts := 0
  nRetrySlotMin := 0
  nRetrySlotMax := eState.slotStart

/-- `GetNextRetryTime`, of what `rand` returns. -/
def getNextRetryTime (rand : ℤ) (b : BackOffStates) : BackOffStates :=
  if b.eCurrBackoffState.fixed then
    { b with llNextTime := ((b.llNextTime + b.lnFreq) % 2 ^ 64).toNat }
  else
    let nRetrySlotMin := b.nRetrySlotMax
    let nRetrySlotMax := toInt32 (b.nRetrySlotMax + b.lnFreq)
    let nRand := rngGet rand nRetrySlotMin nRetrySlotMax
    { b with
      nRetrySlotMin := nRetrySlotMin
      nRetrySlotMax := nRetrySlotMax
      llNextTime := ((b.llStartTime + nRand) % 2 ^ 64).toNat }

/-- `ActivationFailed`. -/
def activationFailed (rand : ℤ) (b : BackOffStates) : BackOffStates :=
  { b with nAttempts := toInt32 (b.nAttempts + 1) }.getNextRetryTime rand

/-- `CheckIfProceed`. -/
def checkIfProceed (llCurrMTime : ℕ) (b : BackOffStates) : Bool := b.llNextTime < llCurrMTime

def ignitionStateChange (bIsOn : Bool) (b : BackOffStates) : BackOffStates :=
  { b with bIsIgnStateChanged := bIsOn }

def deviceStateChange (bIsConnected : Bool) (b : BackOffStates) : BackOffStates :=
  { b with bIsDeviceStateChanged := bIsConnected }

/-- An ignition or a device that no check has seen yet. -/
def changed (b : BackOffStates) : Bool := b.bIsIgnStateChanged || b.bIsDeviceStateChanged

/-- All attempts of the state have failed. -/
def exhausted (b : BackOffStates) : Prop := b.nMaxAttempts - 1 < b.nAttempts

instance (b : BackOffStates) : Decidable b.exhausted :=
  inferInstanceAs (Decidable (b.nMaxAttempts - 1 < b.nAttempts))

/-- `TryStateChange`: the state of the new object, if there is one. -/
def tryStateChange (cfg : BackoffConfig) (lIgnitionCount : ℤ) (b : BackOffStates) :
    Option BackoffState :=
  if b.changed then some b.eCurrBackoffState.first
  -- the threshold counts in the initial state only
  else if b.eCurrBackoffState = .eINITIAL ∧ cfg.ignitionThreshold < lIgnitionCount then
    some .eOVER_IGN_THRESHOLD_HIGH_FREQ
  else if b.exhausted then b.eCurrBackoffState.successor
  else none

end BackOffStates

/-- `CActivationBackoff`, with the number that is stored as `IGNITION_COUNT`. -/
structure ActivationBackoff where
  lIgnitionCount : ℤ
  bIncrementIgnitionCount : Bool
  eLastErrorState : HttpErrorCode
  backOffState : BackOffStates
  storedIgnitionCount : ℤ
deriving DecidableEq

/-- An event, with the two fields that are looked at. -/
structure BackoffEvent where
  strEventId : String
  strState : String
  strStatus : String
deriving DecidableEq

namespace ActivationBackoff

variable (cfg : BackoffConfig)

/-- `ResetState`. -/
def resetState (ullNow : ℕ) (s : ActivationBackoff) : ActivationBackoff :=
  { s with backOffState := .new cfg .eINITIAL ullNow }

/-- `Init`. -/
def initState (ullNow : ℕ) (s : ActivationBackoff) : ActivationBackoff :=
  resetState cfg ullNow { s with bIncrementIgnitionCount := false }

/-- The constructor, of the stored number. Without the backoff the count stays zero. -/
def new (storedIgnitionCount : ℤ) (ullNow : ℕ) : ActivationBackoff where
  lIgnitionCount := if cfg.enable then storedIgnitionCount else 0
  bIncrementIgnitionCount := false
  eLastErrorState := if cfg.enable then .eERR_NETWORK else .eERR_OK
  backOffState := .new cfg .eINITIAL ullNow
  storedIgnitionCount := storedIgnitionCount

/-- `IncrementIgnitionCount`. What is stored is the `int` of the `long`. -/
def incrementIgnitionCount (s : ActivationBackoff) : ActivationBackoff :=
  if s.bIncrementIgnitionCount then
    { s with
      lIgnitionCount := s.lIgnitionCount + 1
      storedIgnitionCount := toInt32 (s.lIgnitionCount + 1)
      bIncrementIgnitionCount := false }
  else s

/-- `CheckCurrentState`. -/
def checkCurrentState (ullNow : ℕ) (s : ActivationBackoff) : ActivationBackoff :=
  match s.backOffState.tryStateChange cfg s.lIgnitionCount with
  | none => s
  | some eState => { s with backOffState := .new cfg eState ullNow }

/-- The errors that are no failed activation. -/
def isNetworkError (eErrCode : HttpErrorCode) : Bool :=
  eErrCode = .eERR_NETWORK || eErrCode = .eERR_TIMEOUT

/-- The part of `Proceed` before the time is checked. -/
def countIgnition (s : ActivationBackoff) : ActivationBackoff :=
  if isNetworkError s.eLastErrorState then s else s.incrementIgnitionCount

/-- `Proceed`, with the clock at the check and in a new state. -/
def proceed (llCurrMTime ullNow : ℕ) (s : ActivationBackoff) : Bool × ActivationBackoff :=
  if cfg.enable then
    let s := s.countIgnition
    if s.backOffState.checkIfProceed llCurrMTime then (true, s.checkCurrentState cfg ullNow)
    else (false, s)
  else (true, s)

/-- `CalculateNextRetry`. -/
def calculateNextRetry (eErrCode : HttpErrorCode) (rand : ℤ) (s : ActivationBackoff) :
    ActivationBackoff :=
  if cfg.enable then
    let s := { s with eLastErrorState := eErrCode }
    if isNetworkError eErrCode then s
    else { s with backOffState := s.backOffState.activationFailed rand }
  else s

/-- `Reset`. -/
def reset (ullNow : ℕ) (s : ActivationBackoff) : ActivationBackoff :=
  { s.initState cfg ullNow with lIgnitionCount := 0, storedIgnitionCount := 0 }

/-- The part of `ProcessEvent` about `IgnStatus`. -/
def ignStatus (rEvent : BackoffEvent) (s : ActivationBackoff) : ActivationBackoff :=
  if rEvent.strEventId = "IgnStatus" then
    if rEvent.strState = "run" then
      { s with
        bIncrementIgnitionCount := true
        backOffState := s.backOffState.ignitionStateChange true }
    else { s with backOffState := s.backOffState.ignitionStateChange false }
  else s

/-- The part of `ProcessEvent` about `DeviceRemoval`. -/
def deviceRemoval (rEvent : BackoffEvent) (s : ActivationBackoff) : ActivationBackoff :=
  if rEvent.strEventId = "DeviceRemoval" then
    { s with backOffState := s.backOffState.deviceStateChange (rEvent.strStatus = "attached") }
  else s

/-- `ProcessEvent`. -/
def processEvent (bIsActivated : Bool) (rEvent : BackoffEvent) (ullNow : ℕ)
    (s : ActivationBackoff) : ActivationBackoff :=
  if !cfg.enable || bIsActivated then s
  else ((s.ignStatus rEvent).deviceRemoval rEvent).checkCurrentState cfg ullNow

end ActivationBackoff

end DeviceClient
