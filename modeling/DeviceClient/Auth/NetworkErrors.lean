import DeviceClient.Auth.ActivationBackoff
import DeviceClient.Auth.TokenManager
import DeviceClient.Lib.Run
import DeviceClient.Net.ActivationAPI
import DeviceClient.Net.CurlHttpSession
import Mathlib.Data.Int.Order.Basic

/-!
# Network errors and the backoff

`CTokenManager::Activate` between the backoff and the request. The backoff leaves network
errors out of its count, but `Activate` hands it another error in their place.

* `along_networkErrorKept_iff`: network errors stay uncounted in a run if and only if it
  has none.
-/

namespace DeviceClient

/-- What a call of `Activate` meets. -/
structure ActivateCall where
  llCurrMTime : ℕ
  ullStateTime : ℕ
  strQualifierID : String
  bUseDeviceType : Bool
  reply : AuthTokenAPI.ServerReply
  rand : ℤ
  ullResetTime : ℕ

inductive BackoffStep where
  | activate (call : ActivateCall)
  | processEvent (bIsActivated : Bool) (rEvent : BackoffEvent) (ullNow : ℕ)

namespace ActivationBackoff

open ActivationAPI

variable (env : TokenEnv) (cfg : BackoffConfig)

/-- `Activate`: what it returns, and the backoff behind it. -/
def activate (call : ActivateCall) (s : ActivationBackoff) :
    Except CallFailure HttpErrorCode × ActivationBackoff :=
  let (bProceed, s) := s.proceed cfg call.llCurrMTime call.ullStateTime
  if !bProceed then (.ok .eERR_BACKOFF, s)
  else if call.strQualifierID = "NOT_AVAILABLE" ∨ call.strQualifierID = "" then
    (.ok .eERR_BACKOFF, s)
  else
    match activateDevice env call.bUseDeviceType call.reply with
    -- an exception leaves the backoff as it is
    | .error e => (.error e, s)
    | .ok actResp =>
      if actResp.eHttpSessionErrCode = .eERR_OK then
        if actResp.lHttpRespCode = 200 then (.ok .eERR_OK, s.reset cfg call.ullResetTime)
        else (.ok .eERR_OK, s.calculateNextRetry cfg .eERR_OK call.rand)
      -- whatever the error of the session was
      else (.ok .eERR_RESPONSE_DATA, s.calculateNextRetry cfg .eERR_RESPONSE_DATA call.rand)

def next (s : ActivationBackoff) : BackoffStep → Option ActivationBackoff
  | .activate call => some (activate env cfg call s).2
  | .processEvent bIsActivated rEvent ullNow =>
    some (s.processEvent cfg bIsActivated rEvent ullNow)

/-- `Activate` as the token manager sees it. -/
def attemptOf (call : ActivateCall) (s : ActivationBackoff) (actResp : ActivationResponse)
    (ullMonotonicTimeMs : ℕ) : ActivationAttempt where
  proceed := (s.proceed cfg call.llCurrMTime call.ullStateTime).1
  strQualifierID := call.strQualifierID
  eHttpSessionErrCode := actResp.eHttpSessionErrCode
  lHttpRespCode := actResp.lHttpRespCode
  strDeviceID := actResp.strDeviceID
  strPassCode := actResp.strPassCode
  ullMonotonicTimeMs := ullMonotonicTimeMs

/-- The activation request is sent. -/
def goesOut (call : ActivateCall) (s : ActivationBackoff) : Bool :=
  (s.proceed cfg call.llCurrMTime call.ullStateTime).1 &&
    call.strQualifierID ≠ "NOT_AVAILABLE" && call.strQualifierID ≠ ""

/-- An attempt that fails in the network. -/
def failsInNetwork (call : ActivateCall) (s : ActivationBackoff) : Bool :=
  goesOut cfg call s && isNetworkError call.reply.eErrCode

/-- A failure in the network leaves the state, its attempts and the next time as `Proceed`
left them, and the next `Proceed` counts no ignition. -/
def NetworkErrorKept (s : ActivationBackoff) : BackoffStep → Prop
  | .activate call => failsInNetwork cfg call s = true →
    let before := (s.proceed cfg call.llCurrMTime call.ullStateTime).2
    let after := (activate env cfg call s).2
    after.backOffState.eCurrBackoffState = before.backOffState.eCurrBackoffState ∧
      after.backOffState.nAttempts = before.backOffState.nAttempts ∧
      after.backOffState.llNextTime = before.backOffState.llNextTime ∧
      ∀ llCurrMTime ullNow,
        (after.proceed cfg llCurrMTime ullNow).2.lIgnitionCount = after.lIgnitionCount
  | .processEvent _ _ _ => True

/-- No attempt fails in the network. -/
def NoNetworkError (s : ActivationBackoff) : BackoffStep → Prop
  | .activate call => failsInNetwork cfg call s = false
  | .processEvent _ _ _ => True

variable {env cfg}

/-- The errors of the session that are network errors. -/
theorem isNetworkError_errorOf (x : Exchange) :
    isNetworkError (CurlHttpSession.errorOf x) = true ↔
      x.curlError ∈ [CurlCode.CURLE_COULDNT_RESOLVE_HOST, .CURLE_COULDNT_RESOLVE_PROXY,
        .CURLE_COULDNT_CONNECT, .CURLE_OPERATION_TIMEDOUT] := by
  unfold CurlHttpSession.errorOf CurlHttpSession.processCurlResponse
  cases hx : x.curlError with
  | CURLE_OK =>
    rw [if_pos rfl]
    split_ifs <;> decide
  | _ =>
    rw [if_neg (by decide)]
    decide

/-- Neither kind of retry time touches the state and its attempts. -/
@[simp] theorem getNextRetryTime_nAttempts (rand : ℤ) (b : BackOffStates) :
    (b.getNextRetryTime rand).nAttempts = b.nAttempts := by
  unfold BackOffStates.getNextRetryTime
  split_ifs <;> rfl

/-- Every attempt that goes out and fails is one of the response data. -/
theorem activate_of_failsInNetwork {call : ActivateCall} {s : ActivationBackoff}
    (h : failsInNetwork cfg call s = true) :
    activate env cfg call s = (.ok .eERR_RESPONSE_DATA,
      (s.proceed cfg call.llCurrMTime call.ullStateTime).2.calculateNextRetry cfg
        .eERR_RESPONSE_DATA call.rand) := by
  simp only [failsInNetwork, goesOut, Bool.and_eq_true, decide_eq_true_eq] at h
  rcases h with ⟨⟨⟨hproceed, havailable⟩, hqualifier⟩, hnetwork⟩
  have herror : call.reply.eErrCode ≠ .eERR_OK := by
    intro hok
    rw [hok] at hnetwork
    exact absurd hnetwork (by decide)
  rcases @activateDevice_of_error env call.bUseDeviceType call.reply herror with
    ⟨actResp, hresp, hcode⟩
  unfold activate
  dsimp only
  rw [hproceed, if_neg (by decide), if_neg (not_or.2 ⟨havailable, hqualifier⟩), hresp]
  dsimp only
  rw [if_neg (hcode ▸ herror)]

/-- What `Activate` returns is what the token manager sees of it. -/
theorem activate_eq_tokenManager (tmEnv : TokenManagerEnv) {call : ActivateCall}
    {s : ActivationBackoff} {actResp : ActivationResponse} (ullMonotonicTimeMs : ℕ)
    (h : activateDevice env call.bUseDeviceType call.reply = .ok actResp) (t : TokenManager) :
    (activate env cfg call s).1 =
      .ok (TokenManager.activate tmEnv (attemptOf cfg call s actResp ullMonotonicTimeMs) t).1 := by
  unfold activate TokenManager.activate attemptOf
  dsimp only
  rw [h]
  dsimp only
  split_ifs <;> rfl

/-! ## Every run -/

/-- A failure in the network always counts: the attempts go up by one. -/
theorem networkErrorKept_iff (henable : cfg.enable = true) (s : ActivationBackoff)
    (step : BackoffStep) : NetworkErrorKept env cfg s step ↔ NoNetworkError cfg s step := by
  cases step with
  | processEvent bIsActivated rEvent ullNow => exact Iff.rfl
  | activate call =>
    refine ⟨fun hkept => ?_, fun hnone hfails => absurd hfails (by rw [hnone]; decide)⟩
    by_contra hfails
    rw [NoNetworkError, Bool.not_eq_false] at hfails
    have hattempts := (hkept hfails).2.1
    rw [activate_of_failsInNetwork hfails] at hattempts
    unfold calculateNextRetry at hattempts
    rw [if_pos henable] at hattempts
    dsimp only at hattempts
    rw [if_neg (by decide)] at hattempts
    dsimp only [BackOffStates.activationFailed] at hattempts
    rw [getNextRetryTime_nAttempts] at hattempts
    exact Lib.toInt32_succ_ne _ hattempts

/-- A run keeps network errors out of the backoff if and only if it has none. -/
theorem along_networkErrorKept_iff (henable : cfg.enable = true) (storedIgnitionCount : ℤ)
    (ullNow : ℕ) (steps : List BackoffStep) :
    Lib.Along (next env cfg) (NetworkErrorKept env cfg) (new cfg storedIgnitionCount ullNow)
      steps ↔
      Lib.Along (next env cfg) (NoNetworkError cfg) (new cfg storedIgnitionCount ullNow) steps :=
  ⟨Lib.Along.imp fun s step => (networkErrorKept_iff henable s step).1,
    Lib.Along.imp fun s step => (networkErrorKept_iff henable s step).2⟩

/-- The backoff as it is configured without any value but `enable`. -/
def enabledConfig : BackoffConfig := .read (fun _ => some true) fun _ => none

/-- A process whose JSON texts have no doubles. -/
def plainTokenEnv : TokenEnv where
  dbl := ⟨fun _ => "", fun _ => none⟩
  zone := ⟨fun _ => 0, ZoneRule.utc_bounded⟩
  logsCritical := false

/-- An attempt of an activation whose request ends with an error. -/
def failedAttempt (llCurrMTime : ℕ) (eErrCode : HttpErrorCode) : BackoffStep :=
  .activate
    { llCurrMTime := llCurrMTime, ullStateTime := llCurrMTime, strQualifierID := "VIN",
      bUseDeviceType := false, reply := ⟨eErrCode, .reset, llCurrMTime⟩, rand := 0,
      ullResetTime := llCurrMTime }

/-- A device that fails to activate twice at the server, with an ignition in between. -/
def serverErrorRun : List BackoffStep :=
  [failedAttempt 1 .eERR_SERVER, .processEvent false ⟨"IgnStatus", "run", ""⟩ 2,
    failedAttempt 6000 .eERR_SERVER]

instance (s : ActivationBackoff) : ∀ step, Decidable (NoNetworkError cfg s step)
  | .activate call => inferInstanceAs (Decidable (failsInNetwork cfg call s = false))
  | .processEvent _ _ _ => .isTrue trivial

theorem along_networkErrorKept_server :
    Lib.Along (next plainTokenEnv enabledConfig) (NetworkErrorKept plainTokenEnv enabledConfig)
      (new enabledConfig 0 0) serverErrorRun :=
  (along_networkErrorKept_iff rfl 0 0 serverErrorRun).2 (by decide +kernel)

/-- The server cannot be reached: the attempt counts as a failed one of the state. -/
theorem not_along_networkErrorKept :
    ¬ Lib.Along (next plainTokenEnv enabledConfig) (NetworkErrorKept plainTokenEnv enabledConfig)
      (new enabledConfig 0 0) [failedAttempt 1 .eERR_NETWORK] := by
  intro halong
  have hkept := (halong.1 (by decide +kernel)).2.1
  exact absurd hkept (by decide +kernel)

end ActivationBackoff

end DeviceClient
