import DeviceClient.Net.AuthTokenAPI

/-!
# The request for an activation

`CIgniteActivationAPI::ActivateDevice`, behind the request. The error of the session goes
into the response as it is, unless the body is no activation.
-/

namespace DeviceClient

/-- `CActivationResponse`. -/
structure ActivationResponse where
  eHttpSessionErrCode : HttpErrorCode
  lHttpRespCode : ℤ
  strRespString : List Char
  strDeviceID : String
  strPassCode : String
deriving DecidableEq

def ActivationResponse.fresh : ActivationResponse := ⟨.eERR_UNKNOWN, 0, [], "", ""⟩

namespace ActivationAPI

open AuthTokenAPI

variable (env : TokenEnv)

/-- `UpdateDeviceIdAndPasscode`. -/
def updateDeviceIdAndPasscode (jsonData : JsonValue) (rResp : ActivationResponse) :
    Except CallFailure ActivationResponse :=
  match jsonData.objectMembers with
  | none => .error .exception
  | some members => do
    let strDeviceId := if (members.lookup "deviceID").isSome then "deviceID" else "deviceId"
    match ← memberText env jsonData strDeviceId with
    | none => .ok rResp
    | some strDeviceID =>
      match ← memberText env jsonData "passcode" with
      | none => .ok rResp
      | some strPassCode =>
        .ok { rResp with strDeviceID := strDeviceID, strPassCode := strPassCode }

/-- `ProcessV4APIResponse`; `none` is no valid response. -/
def processV4APIResponse (jsonRoot : JsonValue) : Except CallFailure (Option JsonValue) :=
  match jsonRoot.objectMembers with
  | none => .error .exception
  | some members =>
    match members.lookup "message" with
    | some (.string strMessage) =>
      .ok (if strMessage = "Success" then members.lookup "data" else none)
    | _ => .ok none

/-- What `ActivateDevice` reads of a body that parses. -/
def processActivation (bUseDeviceType : Bool) (jsonRoot : JsonValue)
    (rResp : ActivationResponse) : Except CallFailure ActivationResponse := do
  match ← if bUseDeviceType then processV4APIResponse jsonRoot else .ok (some jsonRoot) with
  | none => .ok { rResp with eHttpSessionErrCode := .eERR_RESPONSE_DATA }
  | some jsonData => updateDeviceIdAndPasscode env jsonData rResp

/-- `ActivateDevice`. -/
def activateDevice (bUseDeviceType : Bool) (reply : ServerReply) :
    Except CallFailure ActivationResponse :=
  let rResp := { ActivationResponse.fresh with
    eHttpSessionErrCode := reply.eErrCode
    lHttpRespCode := reply.resp.lHttpCode
    strRespString := reply.resp.strHttpRespdata }
  if reply.eErrCode = .eERR_OK then
    match JsonText.parse env.dbl (String.ofList reply.resp.strHttpRespdata) with
    | .error .stackLimit => .error .exception
    | .error .syntaxError => .ok { rResp with eHttpSessionErrCode := .eERR_RESPONSE_FORMAT }
    | .ok jsonRoot => processActivation env bUseDeviceType jsonRoot rResp
  else .ok rResp

variable {env}

/-- An error of the session comes out as it is. -/
theorem activateDevice_of_error {bUseDeviceType : Bool} {reply : ServerReply}
    (h : reply.eErrCode ≠ .eERR_OK) :
    ∃ resp, activateDevice env bUseDeviceType reply = .ok resp ∧
      resp.eHttpSessionErrCode = reply.eErrCode := by
  unfold activateDevice
  rw [if_neg h]
  exact ⟨_, rfl, rfl⟩

end ActivationAPI

end DeviceClient
