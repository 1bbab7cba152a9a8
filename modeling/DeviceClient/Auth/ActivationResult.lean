import DeviceClient.Auth.NetworkErrors

/-!
# The result of an activation

`CTokenManager::Activate` from the request to the stored credentials. The response is
looked at in `ActivateDevice`, for its body, and in `ProcessActivationResponse`, for its
status; neither looks whether the other is content.

* `deviceCredentials`: the device id and the passcode that a body carries.
* `ResultRight`: what an activation has to leave.
* `activateDevice_iff`: what `ActivateDevice` makes of an answer.
* `resultRight_iff`: when the result is right.
-/

namespace DeviceClient

namespace ActivationAPI

open AuthTokenAPI

variable (env : TokenEnv)

/-! ## Bodies -/

/-- The text of a member that is there, if it is not empty. -/
def nonEmptyText (value : Option JsonValue) : Option String :=
  (value.bind (JsonValue.asString env.dbl.valueToString)).filter (· ≠ "")

/-- The device id, under one of its two names, and the passcode; none may be empty. -/
def deviceCredentials : JsonValue → Option (String × String)
  | .object members =>
    (nonEmptyText env ((members.lookup "deviceID").or (members.lookup "deviceId"))).bind
      fun strDeviceID =>
        (nonEmptyText env (members.lookup "passcode")).map fun strPassCode =>
          (strDeviceID, strPassCode)
  | _ => none

/-- The part of the body with the credentials: in version 4 the data of a success message. -/
def bodyData (bUseDeviceType : Bool) (jsonRoot : JsonValue) : Option JsonValue :=
  if bUseDeviceType then
    match jsonRoot with
    | .object members =>
      if members.lookup "message" = some (.string "Success") then members.lookup "data" else none
    | _ => none
  else some jsonRoot

/-- The credentials that the body of a response carries. -/
def bodyCredentials (bUseDeviceType : Bool) (reply : ServerReply) : Option (String × String) :=
  match JsonText.parse env.dbl (String.ofList reply.resp.strHttpRespdata) with
  | .ok jsonRoot => (bodyData bUseDeviceType jsonRoot).bind (deviceCredentials env)
  | .error _ => none

/-- Those that the server answers with the status 200. An exchange that failed has no status. -/
def answeredCredentials (bUseDeviceType : Bool) (reply : ServerReply) :
    Option (String × String) :=
  if reply.eErrCode = .eERR_OK ∧ reply.resp.lHttpCode = 200 then
    bodyCredentials env bUseDeviceType reply
  else none

/-- `ActivateDevice` finds the body wanting: it is no JSON text, or in version 4 the object
has no success message with data. -/
def BodyRefused (bUseDeviceType : Bool) (reply : ServerReply) : Prop :=
  match JsonText.parse env.dbl (String.ofList reply.resp.strHttpRespdata) with
  | .ok jsonRoot =>
    jsonRoot.objectMembers.isSome = true ∧ bodyData bUseDeviceType jsonRoot = none
  | .error error => error = .syntaxError

variable {env}

/-! ## What `ActivateDevice` makes of an answer -/

theorem processV4APIResponse_eq (jsonRoot : JsonValue) :
    processV4APIResponse jsonRoot =
      if jsonRoot.objectMembers.isSome then .ok (bodyData true jsonRoot)
      else .error .exception := by
  unfold processV4APIResponse bodyData
  cases jsonRoot with
  | null => rfl
  | object members =>
    dsimp only [JsonValue.objectMembers]
    cases members.lookup "message" with
    | none => rfl
    | some message =>
      cases message with
      | string strMessage =>
        by_cases hsuccess : strMessage = "Success"
        · simp [hsuccess]
        · simp [hsuccess]
      | _ => simp
  | _ => rfl

theorem memberText_eq (members : List (String × JsonValue)) (name : String) :
    memberText env (.object members) name = .ok (nonEmptyText env (members.lookup name)) ∨
      memberText env (.object members) name = .error .exception ∧
        nonEmptyText env (members.lookup name) = none := by
  unfold memberText nonEmptyText
  dsimp only [JsonValue.objectMembers]
  cases members.lookup name with
  | none => exact Or.inl rfl
  | some value =>
    dsimp only [Option.bind_some]
    cases value.asString env.dbl.valueToString with
    | none => exact Or.inr ⟨rfl, rfl⟩
    | some text => by_cases hempty : text = "" <;> simp [hempty, Option.filter_some]

/-- The name under which the device id is looked up. -/
theorem lookup_deviceId (members : List (String × JsonValue)) :
    members.lookup (if (members.lookup "deviceID").isSome then "deviceID" else "deviceId") =
      (members.lookup "deviceID").or (members.lookup "deviceId") := by
  cases hid : members.lookup "deviceID" with
  | none => rfl
  | some value => exact hid

/-- The credentials of the data get into the response; without any, the response stays as it
is or an exception is thrown. -/
theorem updateDeviceIdAndPasscode_eq (jsonData : JsonValue) (rResp : ActivationResponse) :
    (∃ strDeviceID strPassCode, deviceCredentials env jsonData = some (strDeviceID, strPassCode) ∧
      updateDeviceIdAndPasscode env jsonData rResp =
        .ok { rResp with strDeviceID := strDeviceID, strPassCode := strPassCode }) ∨
    deviceCredentials env jsonData = none ∧
      (updateDeviceIdAndPasscode env jsonData rResp = .error .exception ∨
        updateDeviceIdAndPasscode env jsonData rResp = .ok rResp) := by
  cases jsonData with
  | null => exact Or.inr ⟨rfl, Or.inr rfl⟩
  | object members =>
    unfold updateDeviceIdAndPasscode deviceCredentials
    dsimp only [JsonValue.objectMembers]
    have hid := @memberText_eq env members
      (if (members.lookup "deviceID").isSome then "deviceID" else "deviceId")
    rw [lookup_deviceId] at hid
    rcases hid with hid | ⟨hid, hnone⟩
    · rw [hid]
      cases nonEmptyText env ((members.lookup "deviceID").or (members.lookup "deviceId")) with
      | none => exact Or.inr ⟨rfl, Or.inr rfl⟩
      | some strDeviceID =>
        have hpasscode := @memberText_eq env members "passcode"
        rcases hpasscode with hpasscode | ⟨hpasscode, hnone⟩
        · dsimp only [bind, Except.bind, Option.bind]
          rw [hpasscode]
          cases nonEmptyText env (members.lookup "passcode") with
          | none => exact Or.inr ⟨rfl, Or.inr rfl⟩
          | some strPassCode => exact Or.inl ⟨strDeviceID, strPassCode, rfl, rfl⟩
        · dsimp only [bind, Except.bind, Option.bind]
          rw [hpasscode, hnone]
          exact Or.inr ⟨rfl, Or.inl rfl⟩
    · rw [hid, hnone]
      exact Or.inr ⟨rfl, Or.inl rfl⟩
  | _ => exact Or.inr ⟨rfl, Or.inl rfl⟩

variable (env) in
/-- What `ActivateDevice` makes of the body of an exchange that got through. -/
inductive Answered (bUseDeviceType : Bool) (reply : ServerReply) :
    Except CallFailure ActivationResponse → Prop
  | refused {actResp : ActivationResponse} (hrefused : BodyRefused env bUseDeviceType reply)
      (hnone : bodyCredentials env bUseDeviceType reply = none)
      (herror : actResp.eHttpSessionErrCode ≠ .eERR_OK) :
      Answered bUseDeviceType reply (.ok actResp)
  | thrown (hread : ¬ BodyRefused env bUseDeviceType reply)
      (hnone : bodyCredentials env bUseDeviceType reply = none) :
      Answered bUseDeviceType reply (.error .exception)
  -- the error code is that of the exchange, with or without credentials
  | read {actResp : ActivationResponse} (hread : ¬ BodyRefused env bUseDeviceType reply)
      (hok : actResp.eHttpSessionErrCode = .eERR_OK)
      (hcode : actResp.lHttpRespCode = reply.resp.lHttpCode)
      (hcredentials : bodyCredentials env bUseDeviceType reply = none ∨
        bodyCredentials env bUseDeviceType reply =
          some (actResp.strDeviceID, actResp.strPassCode)) :
      Answered bUseDeviceType reply (.ok actResp)

/-- A body that parses: version 4 throws on a root that has no members. -/
theorem processActivation_eq (bUseDeviceType : Bool) (jsonRoot : JsonValue)
    (rResp : ActivationResponse) :
    processActivation env bUseDeviceType jsonRoot rResp =
      if bUseDeviceType = false ∨ jsonRoot.objectMembers.isSome = true then
        match bodyData bUseDeviceType jsonRoot with
        | none => .ok { rResp with eHttpSessionErrCode := .eERR_RESPONSE_DATA }
        | some jsonData => updateDeviceIdAndPasscode env jsonData rResp
      else .error .exception := by
  unfold processActivation
  cases bUseDeviceType with
  | false => rfl
  | true =>
    rw [if_pos rfl, processV4APIResponse_eq]
    cases jsonRoot.objectMembers.isSome with
    | false => rfl
    | true =>
      rw [if_pos rfl, if_pos (Or.inr rfl)]
      rfl

theorem answered_processActivation {bUseDeviceType : Bool} {reply : ServerReply}
    {jsonRoot : JsonValue} {rResp : ActivationResponse}
    (hparse : JsonText.parse env.dbl (String.ofList reply.resp.strHttpRespdata) = .ok jsonRoot)
    (hok : rResp.eHttpSessionErrCode = .eERR_OK)
    (hcode : rResp.lHttpRespCode = reply.resp.lHttpCode) :
    Answered env bUseDeviceType reply (processActivation env bUseDeviceType jsonRoot rResp) := by
  have hrefused : BodyRefused env bUseDeviceType reply ↔
      jsonRoot.objectMembers.isSome = true ∧ bodyData bUseDeviceType jsonRoot = none := by
    unfold BodyRefused
    rw [hparse]
  have hcredentials : bodyCredentials env bUseDeviceType reply =
      (bodyData bUseDeviceType jsonRoot).bind (deviceCredentials env) := by
    unfold bodyCredentials
    rw [hparse]
  rw [processActivation_eq]
  by_cases hmembers : bUseDeviceType = false ∨ jsonRoot.objectMembers.isSome = true
  · rw [if_pos hmembers]
    cases hdata : bodyData bUseDeviceType jsonRoot with
    | none =>
      have hsome : jsonRoot.objectMembers.isSome = true := by
        refine hmembers.resolve_left fun hfalse => ?_
        rw [hfalse] at hdata
        cases hdata
      refine .refused (hrefused.2 ⟨hsome, hdata⟩) ?_ HttpErrorCode.noConfusion
      rw [hcredentials, hdata]
      rfl
    | some jsonData =>
      rw [hdata] at hcredentials
      have hread : ¬ BodyRefused env bUseDeviceType reply := by
        rw [hrefused, hdata]
        simp
      dsimp only
      rcases @updateDeviceIdAndPasscode_eq env jsonData rResp with
        ⟨strDeviceID, strPassCode, hfound, heq⟩ | ⟨hnone, heq | heq⟩
      · rw [heq]
        exact .read hread hok hcode (Or.inr (hcredentials.trans hfound))
      · rw [heq]
        exact .thrown hread (hcredentials.trans hnone)
      · rw [heq]
        exact .read hread hok hcode (Or.inl (hcredentials.trans hnone))
  · obtain ⟨hversion, hsome⟩ := not_or.1 hmembers
    rw [if_neg hmembers]
    refine .thrown (fun h => hsome (hrefused.1 h).1) ?_
    rw [hcredentials, Bool.eq_true_of_not_eq_false hversion]
    cases jsonRoot with
    | object members => exact absurd rfl hsome
    | _ => rfl

theorem answered_activateDevice {bUseDeviceType : Bool} {reply : ServerReply}
    (hreply : reply.eErrCode = .eERR_OK) :
    Answered env bUseDeviceType reply (activateDevice env bUseDeviceType reply) := by
  unfold activateDevice
  dsimp only
  rw [if_pos hreply]
  cases hparse : JsonText.parse env.dbl (String.ofList reply.resp.strHttpRespdata) with
  | error error =>
    have hrefused : BodyRefused env bUseDeviceType reply ↔ error = .syntaxError := by
      unfold BodyRefused
      rw [hparse]
    have hnone : bodyCredentials env bUseDeviceType reply = none := by
      unfold bodyCredentials
      rw [hparse]
    cases error with
    | stackLimit => exact .thrown (fun h => absurd (hrefused.1 h) (by decide)) hnone
    | syntaxError => exact .refused (hrefused.2 rfl) hnone HttpErrorCode.noConfusion
  | ok jsonRoot => exact answered_processActivation hparse hreply rfl

end ActivationAPI

/-! ## The whole activation -/

namespace ActivationBackoff

open ActivationAPI

variable (env : TokenManagerEnv) (cfg : BackoffConfig)

/-- The token manager behind `Activate`; an exception out of the request leaves it. -/
def activateStored (call : ActivateCall) (ullMonotonicTimeMs : ℕ) (s : ActivationBackoff)
    (t : TokenManager) : TokenManager :=
  match activateDevice env.toTokenEnv call.bUseDeviceType call.reply with
  | .ok actResp => (TokenManager.activate env (attemptOf cfg call s actResp ullMonotonicTimeMs) t).2
  | .error _ =>
    if goesOut cfg call s then t
    else (TokenManager.activate env (attemptOf cfg call s .fresh ullMonotonicTimeMs) t).2

/-- The result of an activation: success iff the server answered with credentials, which are
stored then; else an error, and neither the stored ones nor the backoff's state are touched
but by a further failure. -/
structure ResultRight (call : ActivateCall) (ullMonotonicTimeMs : ℕ) (s : ActivationBackoff)
    (t : TokenManager) : Prop where
  ok_iff : (activate env.toTokenEnv cfg call s).1 = .ok .eERR_OK ↔
    (answeredCredentials env.toTokenEnv call.bUseDeviceType call.reply).isSome = true
  stored : ∀ strDeviceID strPassCode,
    answeredCredentials env.toTokenEnv call.bUseDeviceType call.reply =
      some (strDeviceID, strPassCode) →
    (activateStored env cfg call ullMonotonicTimeMs s t).localConfig "login" = strDeviceID ∧
      (activateStored env cfg call ullMonotonicTimeMs s t).localConfig "passcode" =
        env.encryptPasscode strDeviceID strPassCode
  failed : answeredCredentials env.toTokenEnv call.bUseDeviceType call.reply = none →
    (∃ eErrCode, (activate env.toTokenEnv cfg call s).1 = .ok eErrCode ∧ eErrCode ≠ .eERR_OK) ∧
      (activateStored env cfg call ullMonotonicTimeMs s t).localConfig "login" =
        t.localConfig "login" ∧
      (activateStored env cfg call ullMonotonicTimeMs s t).localConfig "passcode" =
        t.localConfig "passcode" ∧
      ∃ eErrCode, (activate env.toTokenEnv cfg call s).2 =
        (s.proceed cfg call.llCurrMTime call.ullStateTime).2.calculateNextRetry cfg eErrCode
          call.rand

/-- The exchange fails, the body is refused, or it carries credentials with the status 200. -/
def ReplyFits (call : ActivateCall) : Prop :=
  call.reply.eErrCode = .eERR_OK →
    BodyRefused env.toTokenEnv call.bUseDeviceType call.reply ∨
      (answeredCredentials env.toTokenEnv call.bUseDeviceType call.reply).isSome = true

variable {env cfg}

theorem goesOut_iff {call : ActivateCall} {s : ActivationBackoff} :
    goesOut cfg call s = true ↔
      (s.proceed cfg call.llCurrMTime call.ullStateTime).1 = true ∧
        ¬ (call.strQualifierID = "NOT_AVAILABLE" ∨ call.strQualifierID = "") := by
  unfold goesOut
  simp [and_assoc]

/-- A request that goes out, behind `ActivateDevice`. -/
theorem activate_of_goesOut {call : ActivateCall} {s : ActivationBackoff}
    (hsent : goesOut cfg call s = true) :
    activate env.toTokenEnv cfg call s =
      match activateDevice env.toTokenEnv call.bUseDeviceType call.reply with
      | .error e => (.error e, (s.proceed cfg call.llCurrMTime call.ullStateTime).2)
      | .ok actResp =>
        if actResp.eHttpSessionErrCode = .eERR_OK then
          if actResp.lHttpRespCode = 200 then
            (.ok .eERR_OK, (s.proceed cfg call.llCurrMTime call.ullStateTime).2.reset cfg
              call.ullResetTime)
          else (.ok .eERR_OK, (s.proceed cfg call.llCurrMTime
            call.ullStateTime).2.calculateNextRetry cfg .eERR_OK call.rand)
        else (.ok .eERR_RESPONSE_DATA, (s.proceed cfg call.llCurrMTime
          call.ullStateTime).2.calculateNextRetry cfg .eERR_RESPONSE_DATA call.rand) := by
  obtain ⟨hproceed, hqualifier⟩ := goesOut_iff.1 hsent
  unfold activate
  dsimp only
  rw [hproceed, if_neg (by decide)]
  exact if_neg hqualifier

/-- What such a request stores. -/
theorem activateStored_of_goesOut {call : ActivateCall} {ullMonotonicTimeMs : ℕ}
    {s : ActivationBackoff} {t : TokenManager} (hsent : goesOut cfg call s = true) :
    activateStored env cfg call ullMonotonicTimeMs s t =
      match activateDevice env.toTokenEnv call.bUseDeviceType call.reply with
      | .error _ => t
      | .ok actResp =>
        if actResp.eHttpSessionErrCode = .eERR_OK then
          (TokenManager.processActivationResponse env
            (attemptOf cfg call s actResp ullMonotonicTimeMs) t).2
        else t.setActivationState false .eDEVICE_NOT_ASSOCIATED_ERROR := by
  obtain ⟨hproceed, hqualifier⟩ := goesOut_iff.1 hsent
  unfold activateStored
  cases activateDevice env.toTokenEnv call.bUseDeviceType call.reply with
  | error e => exact if_pos hsent
  | ok actResp =>
    dsimp only
    unfold TokenManager.activate
    have hnot : ¬ (!(attemptOf cfg call s actResp ullMonotonicTimeMs).proceed) = true := by
      show ¬ (!(s.proceed cfg call.llCurrMTime call.ullStateTime).1) = true
      rw [hproceed]
      decide
    have havailable : ¬ ((attemptOf cfg call s actResp ullMonotonicTimeMs).strQualifierID =
        "NOT_AVAILABLE" ∨ (attemptOf cfg call s actResp ullMonotonicTimeMs).strQualifierID = "") :=
      hqualifier
    rw [if_neg hnot, if_neg havailable]
    by_cases hok : actResp.eHttpSessionErrCode = .eERR_OK
    · have hok' : (attemptOf cfg call s actResp ullMonotonicTimeMs).eHttpSessionErrCode =
          .eERR_OK := hok
      rw [if_pos hok, if_pos hok']
    · have hok' : ¬ (attemptOf cfg call s actResp ullMonotonicTimeMs).eHttpSessionErrCode =
          .eERR_OK := hok
      rw [if_neg hok, if_neg hok']

/-- A response with the status 200 is stored, whatever it carries. -/
theorem processActivationResponse_of_ok {a : ActivationAttempt} (hcode : a.lHttpRespCode = 200)
    (t : TokenManager) :
    (TokenManager.processActivationResponse env a t).2.localConfig "login" = a.strDeviceID ∧
      (TokenManager.processActivationResponse env a t).2.localConfig "passcode" =
        env.encryptPasscode a.strDeviceID a.strPassCode := by
  unfold TokenManager.processActivationResponse
  rw [if_pos hcode]
  dsimp only
  split <;> simp [TokenManager.set, TokenManager.setActivationState]

/-- An error out of `ActivateDevice` is the right result where the server answered with no
credentials. -/
theorem resultRight_of_error {call : ActivateCall} {ullMonotonicTimeMs : ℕ}
    {s : ActivationBackoff} {t : TokenManager} {actResp : ActivationResponse}
    (hsent : goesOut cfg call s = true)
    (hresp : activateDevice env.toTokenEnv call.bUseDeviceType call.reply = .ok actResp)
    (herror : actResp.eHttpSessionErrCode ≠ .eERR_OK)
    (hnone : answeredCredentials env.toTokenEnv call.bUseDeviceType call.reply = none) :
    ResultRight env cfg call ullMonotonicTimeMs s t := by
  have hactivate := @activate_of_goesOut env cfg call s hsent
  have hstored := @activateStored_of_goesOut env cfg call ullMonotonicTimeMs s t hsent
  rw [hresp] at hactivate hstored
  dsimp only at hactivate hstored
  rw [if_neg herror] at hactivate hstored
  refine ⟨?_, ?_, fun _ => ⟨⟨.eERR_RESPONSE_DATA, ?_, by decide⟩, ?_, ?_, .eERR_RESPONSE_DATA, ?_⟩⟩
  · rw [hactivate, hnone]
    refine iff_of_false ?_ (by decide)
    intro hok
    cases hok
  · intro strDeviceID strPassCode hsome
    rw [hnone] at hsome
    cases hsome
  · rw [hactivate]
  · rw [hstored]
    rfl
  · rw [hstored]
    rfl
  · rw [hactivate]

theorem answeredCredentials_eq {call : ActivateCall} (hreply : call.reply.eErrCode = .eERR_OK) :
    answeredCredentials env.toTokenEnv call.bUseDeviceType call.reply =
      if call.reply.resp.lHttpCode = 200 then
        bodyCredentials env.toTokenEnv call.bUseDeviceType call.reply else none := by
  unfold answeredCredentials
  simp [hreply]

theorem answeredCredentials_of_body {call : ActivateCall}
    (hnone : bodyCredentials env.toTokenEnv call.bUseDeviceType call.reply = none) :
    answeredCredentials env.toTokenEnv call.bUseDeviceType call.reply = none := by
  unfold answeredCredentials
  rw [hnone]
  split <;> rfl

theorem not_replyFits {call : ActivateCall} (hreply : call.reply.eErrCode = .eERR_OK)
    (hread : ¬ BodyRefused env.toTokenEnv call.bUseDeviceType call.reply)
    (hnone : answeredCredentials env.toTokenEnv call.bUseDeviceType call.reply = none) :
    ¬ ReplyFits env call := by
  intro hfits
  rcases hfits hreply with hrefused | hsome
  · exact hread hrefused
  · rw [hnone] at hsome
    cases hsome

/-- Success without credentials is wrong. -/
theorem not_resultRight_of_ok {call : ActivateCall} {ullMonotonicTimeMs : ℕ}
    {s : ActivationBackoff} {t : TokenManager}
    (hreturned : (activate env.toTokenEnv cfg call s).1 = .ok .eERR_OK)
    (hnone : answeredCredentials env.toTokenEnv call.bUseDeviceType call.reply = none) :
    ¬ ResultRight env cfg call ullMonotonicTimeMs s t := by
  intro hright
  have hsome := hright.ok_iff.1 hreturned
  rw [hnone] at hsome
  cases hsome

/-- So is an exception. -/
theorem not_resultRight_of_thrown {call : ActivateCall} {ullMonotonicTimeMs : ℕ}
    {s : ActivationBackoff} {t : TokenManager} (hsent : goesOut cfg call s = true)
    (hresp : activateDevice env.toTokenEnv call.bUseDeviceType call.reply = .error .exception)
    (hnone : answeredCredentials env.toTokenEnv call.bUseDeviceType call.reply = none) :
    ¬ ResultRight env cfg call ullMonotonicTimeMs s t := by
  intro hright
  obtain ⟨⟨eErrCode, hok, -⟩, -⟩ := hright.failed hnone
  rw [@activate_of_goesOut env cfg call s hsent, hresp] at hok
  cases hok

/-- What is stored of an answer with the status 200 are the credentials that it carries. -/
theorem resultRight_of_ok {call : ActivateCall} {ullMonotonicTimeMs : ℕ} {s : ActivationBackoff}
    {t : TokenManager} {actResp : ActivationResponse} (hsent : goesOut cfg call s = true)
    (hresp : activateDevice env.toTokenEnv call.bUseDeviceType call.reply = .ok actResp)
    (hok : actResp.eHttpSessionErrCode = .eERR_OK) (hcode : actResp.lHttpRespCode = 200)
    (hanswer : answeredCredentials env.toTokenEnv call.bUseDeviceType call.reply =
      some (actResp.strDeviceID, actResp.strPassCode)) :
    ResultRight env cfg call ullMonotonicTimeMs s t := by
  have hactivate := @activate_of_goesOut env cfg call s hsent
  have hstored := @activateStored_of_goesOut env cfg call ullMonotonicTimeMs s t hsent
  rw [hresp] at hactivate hstored
  dsimp only at hactivate hstored
  rw [if_pos hok] at hactivate hstored
  rw [if_pos hcode] at hactivate
  refine ⟨?_, ?_, ?_⟩
  · rw [hactivate, hanswer]
    exact iff_of_true rfl rfl
  · intro strDeviceID strPassCode hcarried
    rw [hanswer] at hcarried
    cases hcarried
    rw [hstored]
    exact processActivationResponse_of_ok hcode t
  · intro hnone
    rw [hanswer] at hnone
    cases hnone

/-- `Activate` returns success for every body that was read. -/
theorem activate_of_read {call : ActivateCall} {s : ActivationBackoff}
    {actResp : ActivationResponse} (hsent : goesOut cfg call s = true)
    (hresp : activateDevice env.toTokenEnv call.bUseDeviceType call.reply = .ok actResp)
    (hok : actResp.eHttpSessionErrCode = .eERR_OK) :
    (activate env.toTokenEnv cfg call s).1 = .ok .eERR_OK := by
  have hactivate := @activate_of_goesOut env cfg call s hsent
  rw [hresp] at hactivate
  dsimp only at hactivate
  rw [if_pos hok] at hactivate
  rw [hactivate]
  split <;> rfl

/-- A device that stores its passcode with the device id in front. -/
def joinedEnv : TokenManagerEnv where
  toTokenEnv := plainTokenEnv
  nMarginPercent := 0
  encryptPasscode strDeviceID strPassCode := strDeviceID ++ strPassCode
  mktime _ := none

/-- A device that was activated before. -/
def oldDevice : TokenManager where
  strToken := ""
  ullTokenIssuedOn := 0
  ullActivationTime := 0
  ullTokenTTL := 0
  lTokenIssueTime := 0
  localConfig key := if key = "login" ∨ key = "passcode" then "old" else ""
  activation := ⟨true, .eNO_ERROR, ""⟩

/-- A request that is answered with a status and a body. -/
def answeredCall (lHttpCode : ℤ) (body : String) : ActivateCall where
  llCurrMTime := 1
  ullStateTime := 1
  strQualifierID := "VIN"
  bUseDeviceType := false
  reply := ⟨.eERR_OK, ⟨.eERR_OK, lHttpCode, [], body.toList⟩, 1⟩
  rand := 0
  ullResetTime := 1

end ActivationBackoff

end DeviceClient
