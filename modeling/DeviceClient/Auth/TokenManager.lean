import DeviceClient.Net.AuthTokenAPI
import Mathlib.Logic.Function.Basic

/-!
# The token manager

`CTokenManager::GetToken`: the cached token while it is valid, else a new one, for which
the device is activated before the login or, if the server refuses the login, behind it.

The activation and its backoff are seen through what they answer; events that are sent,
and the database that a new device id empties, are left out.
-/

namespace DeviceClient

inductive LoginError where
  | eLE_SUCCESS
  | eLE_INVALID_CREDENTIAL
  | eLE_INVALID_SCOPE
  | eLE_UNKNOWN
deriving DecidableEq, Repr

inductive ActivationFailureError where
  | eNO_ERROR
  | eSTATE_RESET
  | eNETWORK_ERROR
  | ePAYLOAD_ERROR
  | eDEVICE_NOT_ASSOCIATED_ERROR
  | eBACKOFF_ERROR
deriving DecidableEq, Repr

/-- `CActivationState`. -/
structure ActivationState where
  bActivationState : Bool
  eNotActivationReason : ActivationFailureError
  strToken : String
deriving DecidableEq, Repr

/-- `CTokenManager`, with the values of `CLocalConfig` by their keys. -/
structure TokenManager where
  strToken : String
  ullTokenIssuedOn : ℕ
  ullActivationTime : ℕ
  ullTokenTTL : ℕ
  lTokenIssueTime : ℤ
  localConfig : String → String
  activation : ActivationState

/-- What `CTokenManager` is configured with, and what it calls: the encryption of a
passcode for a device id, and `mktime` of a text of a local time. -/
structure TokenManagerEnv extends TokenEnv where
  nMarginPercent : ℤ
  encryptPasscode : String → String → String
  mktime : List Char → Option ℤ

/-- What the backoff, the product and the server answer to an activation. -/
structure ActivationAttempt where
  proceed : Bool
  strQualifierID : String
  eHttpSessionErrCode : HttpErrorCode
  lHttpRespCode : ℤ
  strDeviceID : String
  strPassCode : String
  ullMonotonicTimeMs : ℕ

namespace TokenManager

open AuthTokenAPI

/-! ## The stored values -/

def set (s : TokenManager) (key value : String) : TokenManager :=
  { s with localConfig := Function.update s.localConfig key value }

def setActivationState (s : TokenManager) (bState : Bool) (eReason : ActivationFailureError) :
    TokenManager :=
  { s with activation :=
    { s.activation with bActivationState := bState, eNotActivationReason := eReason } }

/-- `CActivationState::SetToken`. -/
def shareToken (s : TokenManager) (strToken : String) : TokenManager :=
  { s with activation := { s.activation with strToken := strToken } }

/-- `IsActivated`. -/
def isActivated (s : TokenManager) : Bool :=
  s.localConfig "login" ≠ "" && s.localConfig "passcode" ≠ ""

/-- `InvalidateToken`. -/
def invalidateToken (s : TokenManager) : TokenManager := { s with strToken := "" }

/-- `InvalidatePassCode`. -/
def invalidatePassCode (s : TokenManager) : TokenManager := (s.set "login" "").set "passcode" ""

variable (env : TokenManagerEnv)

/-! ## Activation -/

/-- `ProcessActivationResponse`. -/
def processActivationResponse (a : ActivationAttempt) (s : TokenManager) :
    HttpErrorCode × TokenManager :=
  if a.lHttpRespCode = 200 then
    let s := { s with ullActivationTime := a.ullMonotonicTimeMs }
    let s := (s.set "activationTS" "").set "login" a.strDeviceID
    let s := if s.localConfig "lastDeviceId" = a.strDeviceID then s
      else s.set "lastDeviceId" a.strDeviceID
    let s := s.set "passcode" (env.encryptPasscode a.strDeviceID a.strPassCode)
    (.eERR_OK, s.setActivationState true .eNO_ERROR)
  else (.eERR_RESPONSE_DATA, s.setActivationState false .eDEVICE_NOT_ASSOCIATED_ERROR)

/-- `Activate`. -/
def activate (a : ActivationAttempt) (s : TokenManager) : HttpErrorCode × TokenManager :=
  if !a.proceed then (.eERR_BACKOFF, s.setActivationState false .eBACKOFF_ERROR)
  else if a.strQualifierID = "NOT_AVAILABLE" ∨ a.strQualifierID = "" then (.eERR_BACKOFF, s)
  else if a.eHttpSessionErrCode = .eERR_OK then
    -- the code of the response is dropped
    (.eERR_OK, (processActivationResponse env a s).2)
  else (.eERR_RESPONSE_DATA, s.setActivationState false .eDEVICE_NOT_ASSOCIATED_ERROR)

/-! ## Login -/

/-- `SetTokenIssueTime` of a text. -/
def setTokenIssueTime (strTime : List Char) (s : TokenManager) : TokenManager :=
  match env.mktime strTime with
  | none => s
  | some lTime => { s with lTokenIssueTime := lTime }

/-- `m_llTokenTTL` without the margin. -/
def withoutMargin (ullTokenTTL : ℕ) : ℕ :=
  if 0 < env.nMarginPercent ∧ env.nMarginPercent < 100 then
    subtract ullTokenTTL (ullTokenTTL * env.nMarginPercent.toNat % 2 ^ 64 / 100)
  else ullTokenTTL

/-- The times of the token, if it has one. -/
def storeTokenTime (resp : AuthResponse) (s : TokenManager) : TokenManager :=
  if resp.strTokenTime = [] then s
  else ((setTokenIssueTime env resp.strTokenTime s).set "expirationTime"
    (String.ofList resp.strExpTime)).set "issueTime" (String.ofList resp.strTokenTime)

/-- The time of the activation in the server's time, set once. -/
def storeActivationTime (s : TokenManager) : TokenManager :=
  if s.localConfig "activationTS" = "" then
    s.set "activationTS" (toString ((s.lTokenIssueTime * 1000 -
      (s.ullTokenIssuedOn - s.ullActivationTime)) % 2 ^ 64).toNat)
  else s

/-- The case 200 of `GetAuthToken`. -/
def storeToken (resp : AuthResponse) (s : TokenManager) : TokenManager :=
  let s := storeTokenTime env resp (({ s with strToken := resp.strToken }).shareToken resp.strToken)
  let s := storeActivationTime { s with ullTokenIssuedOn := resp.ullTokenIssuedOn }
  ({ s with ullTokenTTL := withoutMargin env resp.ullTokenTTL }).setActivationState true .eNO_ERROR

/-- `GetAuthToken`. -/
def getAuthToken (reply : ServerReply) (s : TokenManager) :
    Except CallFailure (LoginError × HttpErrorCode × TokenManager) :=
  match fetchAuthToken env.toTokenEnv reply with
  | .error e => .error e
  | .ok resp =>
    if resp.eHttpSessionErrCode = .eERR_OK then
      if resp.lHttpRespCode = 200 then .ok (.eLE_SUCCESS, .eERR_OK, storeToken env resp s)
      else if resp.lHttpRespCode = 401 then .ok (.eLE_INVALID_CREDENTIAL, .eERR_OK, s)
      else if resp.lHttpRespCode = 400 then .ok (.eLE_INVALID_SCOPE, .eERR_OK, s)
      else .ok (.eLE_UNKNOWN, .eERR_OK, s)
    else .ok (.eLE_UNKNOWN, resp.eHttpSessionErrCode, s.setActivationState false .eNETWORK_ERROR)

/-! ## `GetToken` -/

/-- What a call of `GetToken` meets: the clock at the test of the cached token, and the
answers to an activation and a login, each before and behind a refused login. -/
structure TokenCall where
  ullCurrMonoTimeMs : ℕ
  activation : ActivationAttempt
  login : ServerReply
  reactivation : ActivationAttempt
  relogin : ServerReply

/-- The time from which on the token is not valid any more. -/
def expiry (s : TokenManager) : ℕ := (s.ullTokenIssuedOn + s.ullTokenTTL) % 2 ^ 64

/-- The part behind the first activation. -/
def loginAndRetry (call : TokenCall) (s : TokenManager) :
    Except CallFailure (String × HttpErrorCode × TokenManager) :=
  match getAuthToken env call.login s with
  | .error e => .error e
  | .ok (loginErr, reSessionErr, s) =>
    if loginErr = .eLE_INVALID_CREDENTIAL ∨ loginErr = .eLE_INVALID_SCOPE then
      let (reSessionErr, s) := activate env call.reactivation s.invalidateToken.invalidatePassCode
      if reSessionErr = .eERR_OK then
        match getAuthToken env call.relogin s with
        | .error e => .error e
        | .ok (_, reSessionErr, s) => .ok (s.strToken, reSessionErr, s)
      else .ok (s.strToken, reSessionErr, s)
    else .ok (s.strToken, reSessionErr, s)

/-- `GetToken`: the token, the error, and the state behind the call. -/
def getToken (call : TokenCall) (s : TokenManager) :
    Except CallFailure (String × HttpErrorCode × TokenManager) :=
  if s.strToken = "" then
    if s.isActivated then loginAndRetry env call s
    else
      let (reSessionErr, s) := activate env call.activation s
      if reSessionErr = .eERR_OK then loginAndRetry env call s
      else
        let s := if reSessionErr = .eERR_NETWORK then s.setActivationState false .eNETWORK_ERROR
          else s
        .ok ("", reSessionErr, s.shareToken "")
  else if call.ullCurrMonoTimeMs < s.expiry then
    .ok (s.strToken, .eERR_OK, s.shareToken s.strToken)
  else loginAndRetry env call s

/-! ## The connect loop -/

/-- The condition of the loop of `GetTokenAsPassword`. -/
def asksAgain (eErrorCode : HttpErrorCode) (bIsShutDownInitiated bStopClientReq : Bool) : Bool :=
  eErrorCode ≠ .eERR_OK && !bIsShutDownInitiated && !bStopClientReq

end TokenManager

end DeviceClient
