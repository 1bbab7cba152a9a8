import DeviceClient.Auth.ActivationResult
import DeviceClient.Auth.TokenContract

/-!
# Responses that make a call throw

`FetchAuthToken` and `ActivateDevice` look into the body of a response, the header and the
token without asking for the types of all that they read. The JSON library and `std::string`
throw at what is not there; nothing catches it.

* `returns_bind_iff`: a binding throws in its first part or in its second.
* `TokenBodyOk`, `returns_fetchAuthToken_iff`: the responses to a login.
* `ActivationBodyOk`, `returns_activateDevice_iff`: the responses to an activation.
* `server_responses_iff`: both.
-/

namespace DeviceClient

namespace ServerResponses

open AuthTokenAPI ActivationAPI FileUtils

variable (env : TokenEnv)

/-- No exception leaves the call. A time to live out of fields that were never written is some
number. -/
def Returns {α : Type} (x : Except CallFailure α) : Prop := x ≠ .error .exception

theorem returns_ok {α : Type} (a : α) : Returns (.ok a) := by
  intro h
  cases h

theorem returns_undefined {α : Type} : Returns (.error .undefined : Except CallFailure α) := by
  intro h
  cases h

theorem not_returns_exception {α : Type} :
    ¬Returns (.error .exception : Except CallFailure α) := fun h => h rfl

instance {α : Type} : DecidablePred (Returns (α := α))
  | .ok a => isTrue (returns_ok a)
  | .error .undefined => isTrue returns_undefined
  | .error .exception => isFalse not_returns_exception

/-! ## What can be read -/

/-- `asString` takes the member, if it is there. -/
def TextMember (members : List (String × JsonValue)) (name : String) : Prop :=
  ∀ value ∈ members.lookup name, (value.asString env.dbl.valueToString).isSome = true

/-- `asInt64` takes the member; one that is not there is null. -/
def SecondsMember (members : List (String × JsonValue)) (name : String) : Prop :=
  ((members.lookup name).getD .null).asInt64.isSome = true

/-- The parser does not give up, and what it reads meets a condition. -/
def ParsesTo (text : List Char) (ok : JsonValue → Prop) : Prop :=
  match JsonText.parse env.dbl (String.ofList text) with
  | .ok jsonRoot => ok jsonRoot
  | .error error => error ≠ .stackLimit

/-- The value is an object or null, whose members meet a condition. -/
def WithMembers (jsonRoot : JsonValue) (ok : List (String × JsonValue) → Prop) : Prop :=
  ∃ members, jsonRoot.objectMembers = some members ∧ ok members

/-- A payload of which the seconds of a member can be read. -/
def PayloadOk (strPayloadData : List Char) (strT_time : String) : Prop :=
  base64Decode strPayloadData ≠ [] →
    ParsesTo env (base64Decode strPayloadData) fun jsonRoot =>
      WithMembers jsonRoot fun members => SecondsMember members strT_time

/-- The time of issue: of the payload, or else of the header. -/
def issueTime (strPayloadData rstrHeaderResp : List Char) : List Char :=
  match getTimeFromPayload env strPayloadData "iat" with
  | .ok strTokenTime =>
    if strTokenTime = [] then tokenTimeOfHeader rstrHeaderResp else strTokenTime
  | .error _ => []

/-- A token that can be shown, and whose times can be read: the expiry time is read if there is a
time of issue. -/
def TokenOk (rstrHeaderResp : List Char) (strToken : String) : Prop :=
  (env.logsCritical = true → 5 ≤ strToken.length) ∧
    PayloadOk env (getPayloadDataFromToken strToken.toList) "iat" ∧
    (issueTime env (getPayloadDataFromToken strToken.toList) rstrHeaderResp ≠ [] →
      PayloadOk env (getPayloadDataFromToken strToken.toList) "exp")

/-- A body without a token, or with one that can be read. -/
def TokenBodyOk (resp : HttpResponse) : Prop :=
  ParsesTo env resp.strHttpRespdata fun jsonRoot =>
    WithMembers jsonRoot fun members =>
      TextMember env members "access_token" ∧
        ∀ strToken ∈ nonEmptyText env (members.lookup "access_token"),
          TokenOk env resp.strHttpResponseHeader strToken

/-- Data whose device id is a text, and whose passcode is one if there is a device id. -/
def CredentialsOk (jsonData : JsonValue) : Prop :=
  WithMembers jsonData fun members =>
    (∀ value ∈ (members.lookup "deviceID").or (members.lookup "deviceId"),
      (value.asString env.dbl.valueToString).isSome = true) ∧
      (nonEmptyText env ((members.lookup "deviceID").or (members.lookup "deviceId")) ≠ none →
        TextMember env members "passcode")

/-- A body whose credentials can be read: in version 4 those of a success message. -/
def ActivationBodyOk (bUseDeviceType : Bool) (resp : HttpResponse) : Prop :=
  ParsesTo env resp.strHttpRespdata fun jsonRoot =>
    (bUseDeviceType = true → jsonRoot.objectMembers.isSome = true) ∧
      ∀ jsonData ∈ bodyData bUseDeviceType jsonRoot, CredentialsOk env jsonData

/-! ## Bindings -/

variable {env}

theorem forall_ok_iff {α : Type} {a : α} {p : α → Prop} :
    (∀ b, (.ok a : Except CallFailure α) = .ok b → p b) ↔ p a := by
  refine ⟨fun h => h a rfl, fun h b hb => ?_⟩
  cases hb
  exact h

/-- A binding throws in its first part, or in its second on what the first returns. -/
theorem returns_bind_iff {α β : Type} (x : Except CallFailure α) (f : α → Except CallFailure β) :
    Returns (x >>= f) ↔ Returns x ∧ ∀ a, x = .ok a → Returns (f a) := by
  cases x with
  | ok a =>
    rw [forall_ok_iff, and_iff_right (returns_ok a)]
    rfl
  | error failure =>
    cases failure with
    | exception =>
      exact iff_of_false not_returns_exception fun h => not_returns_exception h.1
    | undefined =>
      refine iff_of_true returns_undefined ⟨returns_undefined, fun a ha => ?_⟩
      cases ha

theorem returns_map_iff {α β : Type} (f : α → β) (x : Except CallFailure α) :
    Returns (x.map f) ↔ Returns x := by
  cases x with
  | ok a => exact iff_of_true (returns_ok (f a)) (returns_ok a)
  | error failure =>
    cases failure with
    | exception => exact iff_of_false not_returns_exception not_returns_exception
    | undefined => exact iff_of_true returns_undefined returns_undefined

/-! ## The times of a token -/

theorem returns_memberSeconds_iff (jsonRoot : JsonValue) (strT_time : String) :
    Returns (memberSeconds jsonRoot strT_time) ↔
      WithMembers jsonRoot fun members => SecondsMember members strT_time := by
  unfold memberSeconds WithMembers
  cases jsonRoot.objectMembers with
  | none =>
    refine iff_of_false not_returns_exception ?_
    rintro ⟨members, hmembers, _⟩
    cases hmembers
  | some members =>
    cases hseconds : ((members.lookup strT_time).getD .null).asInt64 with
    | none =>
      refine iff_of_false (by simpa [hseconds] using not_returns_exception) ?_
      rintro ⟨members', hmembers, hsome⟩
      cases hmembers
      unfold SecondsMember at hsome
      rw [hseconds] at hsome
      cases hsome
    | some seconds =>
      have hmember : SecondsMember members strT_time := by
        unfold SecondsMember
        rw [hseconds]
        rfl
      exact iff_of_true (by simpa [hseconds] using returns_ok seconds) ⟨members, rfl, hmember⟩

theorem returns_getTimeFromPayload_iff (strPayloadData : List Char) (strT_time : String) :
    Returns (getTimeFromPayload env strPayloadData strT_time) ↔
      PayloadOk env strPayloadData strT_time := by
  unfold getTimeFromPayload PayloadOk ParsesTo
  by_cases hempty : base64Decode strPayloadData = []
  · simp only [hempty, if_true]
    exact iff_of_true (returns_ok _) fun h => absurd rfl h
  · simp only [hempty, if_false, ne_eq, not_false_eq_true, true_imp_iff]
    cases JsonText.parse env.dbl (String.ofList (base64Decode strPayloadData)) with
    | ok jsonRoot =>
      dsimp only
      rw [returns_map_iff, returns_memberSeconds_iff]
    | error error =>
      cases error with
      | stackLimit => exact iff_of_false not_returns_exception fun h => h rfl
      | syntaxError => exact iff_of_true (returns_ok _) fun h => by cases h

theorem returns_calcTtl (rstrIssueTime rstrExpiryTime : List Char) :
    Returns (calcTtl rstrIssueTime rstrExpiryTime) := by
  unfold calcTtl
  split
  · exact returns_ok _
  · exact returns_undefined

/-- Without a time from before, the time is the one in the payload, also in an empty one. -/
theorem tokenTimeOfPayload_fresh {rstrEncodedPayLoad : List Char} {rResp : AuthResponse}
    (hfresh : rResp.strTokenTime = []) :
    tokenTimeOfPayload env rstrEncodedPayLoad rResp =
      getTimeFromPayload env rstrEncodedPayLoad "iat" := by
  unfold tokenTimeOfPayload
  by_cases hempty : rstrEncodedPayLoad = []
  · rw [if_pos hempty, hfresh, hempty]
    rfl
  · exact if_neg hempty

/-- The times are read: those of the payload, the second if there is a time of issue. -/
theorem returns_updateTokenTime_iff {rstrEncodedPayLoad : List Char} {rResp : AuthResponse}
    (hfresh : rResp.strTokenTime = []) :
    Returns (updateTokenTime env rstrEncodedPayLoad rResp) ↔
      PayloadOk env rstrEncodedPayLoad "iat" ∧
        (issueTime env rstrEncodedPayLoad rResp.strHttpRespHeader ≠ [] →
          PayloadOk env rstrEncodedPayLoad "exp") := by
  unfold updateTokenTime issueTime
  rw [tokenTimeOfPayload_fresh hfresh, returns_bind_iff, returns_getTimeFromPayload_iff]
  refine and_congr_right fun _ => ?_
  cases getTimeFromPayload env rstrEncodedPayLoad "iat" with
  | error failure =>
    refine iff_of_true (fun a ha => ?_) fun hne => absurd rfl hne
    cases ha
  | ok strTokenTime =>
    rw [forall_ok_iff]
    dsimp only
    generalize (if strTokenTime = [] then tokenTimeOfHeader rResp.strHttpRespHeader
      else strTokenTime) = time
    by_cases hempty : time = []
    · rw [if_pos hempty]
      exact iff_of_true (returns_ok _) fun hne => absurd hempty hne
    · rw [if_neg hempty, returns_bind_iff, returns_getTimeFromPayload_iff]
      constructor
      · exact fun h _ => h.1
      · refine fun h => ⟨h hempty, fun strExpTime _ => ?_⟩
        rw [returns_bind_iff]
        exact ⟨returns_calcTtl time strExpTime, fun _ _ => returns_ok _⟩

/-! ## The body of a login -/

theorem withMembers_iff {jsonRoot : JsonValue} {members : List (String × JsonValue)}
    (hmembers : jsonRoot.objectMembers = some members) (ok : List (String × JsonValue) → Prop) :
    WithMembers jsonRoot ok ↔ ok members := by
  unfold WithMembers
  rw [hmembers]
  refine ⟨?_, fun h => ⟨members, rfl, h⟩⟩
  rintro ⟨members', hsome, h⟩
  cases hsome
  exact h

theorem not_withMembers {jsonRoot : JsonValue} (hmembers : jsonRoot.objectMembers = none)
    (ok : List (String × JsonValue) → Prop) : ¬WithMembers jsonRoot ok := by
  rintro ⟨members, hsome, _⟩
  rw [hmembers] at hsome
  cases hsome

theorem memberText_of_none {jsonRoot : JsonValue} (hmembers : jsonRoot.objectMembers = none)
    (name : String) : memberText env jsonRoot name = .error .exception := by
  unfold memberText
  rw [hmembers]

/-- A member is read as a text, or the library throws. -/
theorem memberText_of_members {jsonRoot : JsonValue} {members : List (String × JsonValue)}
    (hmembers : jsonRoot.objectMembers = some members) (name : String) :
    (TextMember env members name ∧
      memberText env jsonRoot name = .ok (nonEmptyText env (members.lookup name))) ∨
    (¬TextMember env members name ∧ memberText env jsonRoot name = .error .exception) := by
  unfold memberText TextMember nonEmptyText
  rw [hmembers]
  dsimp only
  cases members.lookup name with
  | none => exact Or.inl ⟨fun _ hvalue => (by cases hvalue), rfl⟩
  | some value =>
    cases htext : value.asString env.dbl.valueToString with
    | none =>
      refine Or.inr ⟨fun h => ?_, by simp [htext]⟩
      have hsome := h value rfl
      rw [htext] at hsome
      cases hsome
    | some text =>
      refine Or.inl ⟨fun value' hvalue => ?_, ?_⟩
      · cases hvalue
        rw [htext]
        rfl
      · by_cases hempty : text = "" <;> simp [htext, hempty, Option.filter_some]

/-- The token is shown, and its times are read. -/
theorem returns_token_iff (ullMonotonicTimeMs : ℕ) {rResp : AuthResponse}
    (hfresh : rResp.strTokenTime = []) (strToken : String) :
    Returns (if env.logsCritical ∧ strToken.length < 5 then .error .exception
      else updateTokenTime env (getPayloadDataFromToken strToken.toList)
        { rResp with strToken := strToken } >>= fun rResp =>
          .ok { rResp with ullTokenIssuedOn := ullMonotonicTimeMs }) ↔
      TokenOk env rResp.strHttpRespHeader strToken := by
  unfold TokenOk
  rw [← @returns_updateTokenTime_iff env _ { rResp with strToken := strToken } hfresh]
  by_cases hshort : env.logsCritical = true ∧ strToken.length < 5
  · rw [if_pos hshort]
    refine iff_of_false not_returns_exception fun h => ?_
    have hlength := h.1 hshort.1
    omega
  · rw [if_neg hshort, returns_bind_iff]
    have hlength : env.logsCritical = true → 5 ≤ strToken.length :=
      fun hlogs => Nat.le_of_not_lt fun hlt => hshort ⟨hlogs, hlt⟩
    exact ⟨fun h => ⟨hlength, h.1⟩, fun h => ⟨h.2, fun _ _ => returns_ok _⟩⟩

theorem returns_parseAPIResponse_iff (ullMonotonicTimeMs : ℕ) {rResp : AuthResponse}
    (hfresh : rResp.strTokenTime = []) :
    Returns (parseAPIResponse env ullMonotonicTimeMs rResp) ↔
      ParsesTo env rResp.strHttpRespData fun jsonRoot =>
        WithMembers jsonRoot fun members =>
          TextMember env members "access_token" ∧
            ∀ strToken ∈ nonEmptyText env (members.lookup "access_token"),
              TokenOk env rResp.strHttpRespHeader strToken := by
  unfold parseAPIResponse ParsesTo
  cases JsonText.parse env.dbl (String.ofList rResp.strHttpRespData) with
  | error error =>
    cases error with
    | stackLimit => exact iff_of_false not_returns_exception fun h => h rfl
    | syntaxError => exact iff_of_true (returns_ok _) fun h => by cases h
  | ok jsonRoot =>
    dsimp only
    cases hmembers : jsonRoot.objectMembers with
    | none =>
      rw [memberText_of_none hmembers]
      exact iff_of_false not_returns_exception (not_withMembers hmembers _)
    | some members =>
      rw [withMembers_iff hmembers]
      rcases memberText_of_members hmembers "access_token" with ⟨htext, heq⟩ | ⟨htext, heq⟩
      · rw [heq, and_iff_right htext]
        cases nonEmptyText env (members.lookup "access_token") with
        | none => exact iff_of_true (returns_ok _) fun _ hmem => (by cases hmem)
        | some strToken =>
          simp only [Option.mem_some_iff, forall_eq']
          exact returns_token_iff ullMonotonicTimeMs hfresh strToken
      · rw [heq]
        exact iff_of_false not_returns_exception fun h => htext h.1

/-- A login that the server answers with 200 throws iff the body is no such one. -/
theorem returns_fetchAuthToken_iff {reply : ServerReply} (hok : reply.eErrCode = .eERR_OK)
    (hcode : reply.resp.lHttpCode = 200) :
    Returns (fetchAuthToken env reply) ↔ TokenBodyOk env reply.resp := by
  unfold fetchAuthToken
  rw [if_pos hok]
  dsimp only
  rw [if_pos hcode]
  exact returns_parseAPIResponse_iff reply.ullMonotonicTimeMs rfl

/-! ## The body of an activation -/

theorem returns_updateDeviceIdAndPasscode_iff (jsonData : JsonValue)
    (rResp : ActivationResponse) :
    Returns (updateDeviceIdAndPasscode env jsonData rResp) ↔ CredentialsOk env jsonData := by
  unfold updateDeviceIdAndPasscode CredentialsOk
  cases hmembers : jsonData.objectMembers with
  | none => exact iff_of_false not_returns_exception (not_withMembers hmembers _)
  | some members =>
    rw [withMembers_iff hmembers, ← lookup_deviceId]
    dsimp only
    generalize (if (members.lookup "deviceID").isSome then "deviceID" else "deviceId") = name
    change Returns (memberText env jsonData name >>= _) ↔ TextMember env members name ∧ _
    rcases memberText_of_members hmembers name with ⟨htext, heq⟩ | ⟨htext, heq⟩
    · rw [heq, and_iff_right htext]
      cases nonEmptyText env (members.lookup name) with
      | none => exact iff_of_true (returns_ok _) fun hne => absurd rfl hne
      | some strDeviceID =>
        change Returns (memberText env jsonData "passcode" >>= _) ↔ _
        rcases memberText_of_members hmembers "passcode" with ⟨hpasscode, heq'⟩ | ⟨hpasscode, heq'⟩
        · rw [heq']
          refine iff_of_true ?_ fun _ => hpasscode
          cases nonEmptyText env (members.lookup "passcode") <;> exact returns_ok _
        · rw [heq']
          exact iff_of_false not_returns_exception fun h => hpasscode (h (by simp))
    · rw [heq]
      exact iff_of_false not_returns_exception fun h => htext h.1

theorem returns_processActivation_iff (bUseDeviceType : Bool) (jsonRoot : JsonValue)
    (rResp : ActivationResponse) :
    Returns (processActivation env bUseDeviceType jsonRoot rResp) ↔
      (bUseDeviceType = true → jsonRoot.objectMembers.isSome = true) ∧
        ∀ jsonData ∈ bodyData bUseDeviceType jsonRoot, CredentialsOk env jsonData := by
  unfold processActivation
  cases bUseDeviceType with
  | false =>
    change Returns (updateDeviceIdAndPasscode env jsonRoot rResp) ↔
      _ ∧ ∀ jsonData ∈ some jsonRoot, CredentialsOk env jsonData
    rw [returns_updateDeviceIdAndPasscode_iff]
    simp
  | true =>
    rw [if_pos rfl, processV4APIResponse_eq]
    by_cases hmembers : jsonRoot.objectMembers.isSome = true
    · rw [if_pos hmembers, and_iff_right fun _ => hmembers]
      cases bodyData true jsonRoot with
      | none => exact iff_of_true (returns_ok _) fun _ hmem => (by cases hmem)
      | some jsonData =>
        change Returns (updateDeviceIdAndPasscode env jsonData rResp) ↔ _
        rw [returns_updateDeviceIdAndPasscode_iff]
        simp
    · rw [if_neg hmembers]
      exact iff_of_false not_returns_exception fun h => hmembers (h.1 rfl)

/-- An activation that the server answers throws iff the body is no such one. -/
theorem returns_activateDevice_iff {reply : ServerReply} (hok : reply.eErrCode = .eERR_OK)
    (bUseDeviceType : Bool) :
    Returns (activateDevice env bUseDeviceType reply) ↔
      ActivationBodyOk env bUseDeviceType reply.resp := by
  unfold activateDevice ActivationBodyOk ParsesTo
  rw [if_pos hok]
  dsimp only
  cases JsonText.parse env.dbl (String.ofList reply.resp.strHttpRespdata) with
  | error error =>
    cases error with
    | stackLimit => exact iff_of_false not_returns_exception fun h => h rfl
    | syntaxError => exact iff_of_true (returns_ok _) fun h => by cases h
  | ok jsonRoot => exact returns_processActivation_iff bUseDeviceType jsonRoot _

/-! ## Both requests -/

/-- A body with the status 200. -/
def answer (body : String) : ServerReply := ⟨.eERR_OK, ⟨.eERR_OK, 200, [], body.toList⟩, 100⟩

end ServerResponses

end DeviceClient
