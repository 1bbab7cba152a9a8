import DeviceClient.Net.HttpResponse
import DeviceClient.Util.Base64Decode
import DeviceClient.Util.DateTime
import DeviceClient.Util.JsonNumbers
import DeviceClient.Util.JsonPath

/-!
# The request for a token

`CIgniteAuthTokenAPI::FetchAuthToken`: from the response of the server to a token, the
time at which it was issued, and its time to live.

The lifetime comes out of texts: the payload of the token, or the header of the response,
is brought into the form of a local time, and two such texts are read as UTC.
-/

namespace DeviceClient

/-- Why a call has no result: an exception of the JSON library or of `std::string`, or a
field that is read and was never written. -/
inductive CallFailure where
  | exception
  | undefined
deriving DecidableEq, Repr

/-- `CAuthResponse`. -/
structure AuthResponse where
  eHttpSessionErrCode : HttpErrorCode
  lHttpRespCode : ℤ
  strHttpRespHeader : List Char
  strHttpRespData : List Char
  strToken : String
  strTokenTime : List Char
  strExpTime : List Char
  ullTokenIssuedOn : ℕ
  ullTokenTTL : ℕ
deriving DecidableEq

def AuthResponse.fresh : AuthResponse := ⟨.eERR_UNKNOWN, 0, [], [], "", [], [], 0, 0⟩

/-- The process around the request: the doubles of JSON texts, the time zone, and whether
critical messages are logged. -/
structure TokenEnv where
  dbl : DoubleText
  zone : ZoneRule
  logsCritical : Bool

namespace AuthTokenAPI

open DateTime FileUtils

variable (env : TokenEnv)

/-! ## Texts of times -/

/-- `get_time_format_as_login`. -/
def getTimeFormatAsLogin (strTime : List Char) : List Char :=
  match strptimeHeader strTime with
  | none => []
  | some issueTime => strftime issueTime

/-- `jsonRoot[strT_time].asInt64()`. -/
def memberSeconds (jsonRoot : JsonValue) (strT_time : String) : Except CallFailure ℤ :=
  match jsonRoot.objectMembers with
  | none => .error .exception
  | some members =>
    match ((members.lookup strT_time).getD .null).asInt64 with
    | none => .error .exception
    | some seconds => .ok seconds

/-- The text of seconds in local time; seconds that are no time have none. -/
def timeText (seconds : ℤ) : List Char :=
  match strptimeSeconds env.zone (decimal seconds) with
  | none => []
  | some myTm => strftime myTm

/-- `get_time_from_payload`. -/
def getTimeFromPayload (strPayloadData : List Char) (strT_time : String) :
    Except CallFailure (List Char) :=
  let jsonPayload := base64Decode strPayloadData
  if jsonPayload = [] then .ok []
  else
    match JsonText.parse env.dbl (String.ofList jsonPayload) with
    | .error .stackLimit => .error .exception
    | .error .syntaxError => .ok []
    | .ok jsonRoot => (memberSeconds jsonRoot strT_time).map (timeText env)

/-- The text behind the first place of a pattern. -/
def findAfter (pattern : List Char) : List Char → Option (List Char)
  | [] => none
  | c :: rest =>
    if pattern.isPrefixOf (c :: rest) then some ((c :: rest).drop pattern.length)
    else findAfter pattern rest

/-- `get_date_from_header`. -/
def getDateFromHeader (rstrHeaderResp : List Char) : List Char :=
  match (findAfter "Date: ".toList rstrHeaderResp).or
      (findAfter "date: ".toList rstrHeaderResp) with
  | none => []
  | some strNewstr =>
    let separator1 := strNewstr.idxOf '\n'
    -- without the end of the line, or too close to it, the difference is past the text
    if '\n' ∈ strNewstr ∧ 4 ≤ separator1 then strNewstr.take (separator1 - 4) else strNewstr

/-- `get_payload_data_from_token`. -/
def getPayloadDataFromToken (strToken : List Char) : List Char :=
  match strToken.dropWhile (· ≠ '.') with
  | [] => []
  | _ :: payloadToken =>
    if '.' ∈ payloadToken then payloadToken.takeWhile (· ≠ '.') else []

/-! ## The time to live -/

/-- The replacements of `calc_ttl`. -/
def slashed (text : List Char) : List Char :=
  (text.map fun c => if c = 'T' then ' ' else c).map fun c => if c = '-' then '/' else c

/-- The difference of two `unsigned long long`. -/
def subtract (a b : ℕ) : ℕ := (a + 2 ^ 64 - b) % 2 ^ 64

/-- `calc_ttl`. -/
def calcTtl (rstrIssueTime rstrExpiryTime : List Char) : Except CallFailure ℕ :=
  match convertToNumber (slashed rstrExpiryTime), convertToNumber (slashed rstrIssueTime) with
  | some expiry, some issue => .ok (subtract expiry issue)
  | _, _ => .error .undefined

/-- The time at which the token says that it was issued. -/
def tokenTimeOfPayload (rstrEncodedPayLoad : List Char) (rResp : AuthResponse) :
    Except CallFailure (List Char) :=
  if rstrEncodedPayLoad = [] then .ok rResp.strTokenTime
  else getTimeFromPayload env rstrEncodedPayLoad "iat"

/-- The time at which the server responded. -/
def tokenTimeOfHeader (rstrHeaderResp : List Char) : List Char :=
  let strDate := getDateFromHeader rstrHeaderResp
  if strDate = [] then [] else getTimeFormatAsLogin strDate

/-- `UpdateTokenTime`. -/
def updateTokenTime (rstrEncodedPayLoad : List Char) (rResp : AuthResponse) :
    Except CallFailure AuthResponse := do
  let strTokenTime ← tokenTimeOfPayload env rstrEncodedPayLoad rResp
  let strTokenTime :=
    if strTokenTime = [] then tokenTimeOfHeader rResp.strHttpRespHeader else strTokenTime
  if strTokenTime = [] then .ok { rResp with strTokenTime := strTokenTime }
  else do
    let strExpTime ← getTimeFromPayload env rstrEncodedPayLoad "exp"
    let ullTokenTTL ← calcTtl strTokenTime strExpTime
    .ok { rResp with
      strTokenTime := strTokenTime, strExpTime := strExpTime, ullTokenTTL := ullTokenTTL }

/-! ## The response -/

/-- `isMember(name) && !(*this)[name].asString().empty()`, and the text. -/
def memberText (jsonRoot : JsonValue) (name : String) : Except CallFailure (Option String) :=
  match jsonRoot.objectMembers with
  | none => .error .exception
  | some members =>
    match members.lookup name with
    | none => .ok none
    | some value =>
      match value.asString env.dbl.valueToString with
      | none => .error .exception
      | some text => .ok (if text = "" then none else some text)

/-- `ParseAPIResponse`. -/
def parseAPIResponse (ullMonotonicTimeMs : ℕ) (rResp : AuthResponse) :
    Except CallFailure AuthResponse :=
  match JsonText.parse env.dbl (String.ofList rResp.strHttpRespData) with
  | .error .stackLimit => .error .exception
  | .error .syntaxError =>
    .ok { rResp with
      eHttpSessionErrCode := .eERR_RESPONSE_DATA, strHttpRespData := "Parsing Failed".toList }
  | .ok jsonRoot => do
    match ← memberText env jsonRoot "access_token" with
    | none =>
      .ok { rResp with
        eHttpSessionErrCode := .eERR_RESPONSE_FORMAT
        strHttpRespData := "Token Parameters Invalid".toList }
    | some strToken =>
      -- the message shows the last five characters
      if env.logsCritical ∧ strToken.length < 5 then .error .exception
      else do
        let rResp ← updateTokenTime env (getPayloadDataFromToken strToken.toList)
          { rResp with strToken := strToken }
        .ok { rResp with ullTokenIssuedOn := ullMonotonicTimeMs }

/-- What the session makes of the request. -/
structure ServerReply where
  eErrCode : HttpErrorCode
  resp : HttpResponse
  ullMonotonicTimeMs : ℕ

/-- `FetchAuthToken`. -/
def fetchAuthToken (reply : ServerReply) : Except CallFailure AuthResponse :=
  let rResp := { AuthResponse.fresh with eHttpSessionErrCode := reply.eErrCode }
  if reply.eErrCode = .eERR_OK then
    let rResp := { rResp with
      lHttpRespCode := reply.resp.lHttpCode
      strHttpRespHeader := reply.resp.strHttpResponseHeader
      strHttpRespData := reply.resp.strHttpRespdata }
    if rResp.lHttpRespCode = 200 then parseAPIResponse env reply.ullMonotonicTimeMs rResp
    else if rResp.lHttpRespCode = 401 then
      .ok { rResp with strHttpRespData := "Invalid Credential".toList }
    else if rResp.lHttpRespCode = 400 then
      .ok { rResp with strHttpRespData := "Invalid Scope".toList }
    else .ok rResp
  else .ok { rResp with strHttpRespData := "Network Error".toList }

/-! ## What is left of the response -/

/-- A binding that returns. -/
theorem bind_eq_ok {α β : Type} {x : Except CallFailure α} {f : α → Except CallFailure β} {b : β}
    (h : x >>= f = .ok b) : ∃ a, x = .ok a ∧ f a = .ok b := by
  cases x with
  | error e => cases h
  | ok a => exact ⟨a, rfl, h⟩

variable {env}

/-- The times of a token are set, and nothing else. -/
theorem updateTokenTime_eq {rstrEncodedPayLoad : List Char} {rResp resp : AuthResponse}
    (h : updateTokenTime env rstrEncodedPayLoad rResp = .ok resp) :
    ∃ strTokenTime strExpTime ullTokenTTL, resp = { rResp with
      strTokenTime := strTokenTime, strExpTime := strExpTime, ullTokenTTL := ullTokenTTL } := by
  unfold updateTokenTime at h
  obtain ⟨strTokenTime, _, h⟩ := bind_eq_ok h
  dsimp only at h
  generalize (if strTokenTime = [] then tokenTimeOfHeader rResp.strHttpRespHeader
    else strTokenTime) = time at h
  by_cases htime : time = []
  · rw [if_pos htime] at h
    cases h
    exact ⟨time, rResp.strExpTime, rResp.ullTokenTTL, rfl⟩
  · rw [if_neg htime] at h
    obtain ⟨strExpTime, _, h⟩ := bind_eq_ok h
    obtain ⟨ullTokenTTL, _, h⟩ := bind_eq_ok h
    cases h
    exact ⟨time, strExpTime, ullTokenTTL, rfl⟩

theorem memberText_ne_empty {jsonRoot : JsonValue} {name text : String}
    (h : memberText env jsonRoot name = .ok (some text)) : text ≠ "" := by
  unfold memberText at h
  split at h
  · cases h
  · split at h
    · cases h
    · split at h
      · cases h
      · split at h
        · cases h
        · rename_i hne
          cases h
          exact hne

/-- What `ParseAPIResponse` returns: no token and an error, or a token of some length. -/
theorem parseAPIResponse_cases {ullMonotonicTimeMs : ℕ} {rResp resp : AuthResponse}
    (h : parseAPIResponse env ullMonotonicTimeMs rResp = .ok resp) :
    resp.lHttpRespCode = rResp.lHttpRespCode ∧
      (resp.eHttpSessionErrCode ≠ .eERR_OK ∨
        (resp.strToken ≠ "" ∧ resp.ullTokenIssuedOn = ullMonotonicTimeMs)) := by
  unfold parseAPIResponse at h
  split at h
  · cases h
  · cases h
    exact ⟨rfl, Or.inl nofun⟩
  · obtain ⟨token, htoken, h⟩ := bind_eq_ok h
    cases token with
    | none =>
      cases h
      exact ⟨rfl, Or.inl nofun⟩
    | some strToken =>
      dsimp only at h
      split at h
      · cases h
      · obtain ⟨rResp', hupdate, h⟩ := bind_eq_ok h
        cases h
        obtain ⟨_, _, _, rfl⟩ := updateTokenTime_eq hupdate
        exact ⟨rfl, Or.inr ⟨memberText_ne_empty htoken, rfl⟩⟩

end AuthTokenAPI

end DeviceClient
