import DeviceClient.Auth.TokenContract
import Mathlib.Tactic.Linarith
import Mathlib.Tactic.Ring

/-!
# How long a token lasts

A token lasts from its issue to its expiry, less the margin. The two times go through the
decoder, the texts of local times and back to numbers, and are subtracted there.

* `fetchAuthToken_of_times`: what the response becomes, from the times that are read.
* `lifetimeKept_iff`: when the lifetime is that of the payload.
-/

namespace DeviceClient

namespace TokenManager

open AuthTokenAPI DateTime FileUtils

/-! ## The promise -/

/-- A member that is an integer. -/
def integerMember (members : List (String × JsonValue)) (name : String) : Option ℤ :=
  match members.lookup name with
  | some (.int value) => some value
  | some (.uint value) => some value
  | some (.real value) => if value.den = 1 then some value.num else none
  | _ => none

/-- A response with a token of three parts, the second of which is the text of an object. -/
structure CarriesObject (env : TokenEnv) (reply : ServerReply) (text : List Char)
    (members : List (String × JsonValue)) : Prop where
  noError : reply.eErrCode = .eERR_OK
  status : reply.resp.lHttpCode = 200
  bytes : ∀ c ∈ text, c.toNat < 256
  object : JsonText.parse env.dbl (String.ofList text) = .ok (.object members)
  token : ∃ jsonRoot strToken header signature,
    JsonText.parse env.dbl (String.ofList reply.resp.strHttpRespdata) = .ok jsonRoot ∧
    memberText env jsonRoot "access_token" = .ok (some strToken) ∧ '.' ∉ header ∧
    strToken.toList = header ++ '.' :: (urlEncode text ++ '.' :: signature)

/-- The token is issued and expires behind it. -/
def Lasts (members : List (String × JsonValue)) (iat exp : ℤ) : Prop :=
  integerMember members "iat" = some iat ∧ integerMember members "exp" = some exp ∧
    0 ≤ iat ∧ iat < exp

/-- A time is missing, or the token has expired when it is issued. -/
def NeverLasts (members : List (String × JsonValue)) : Prop :=
  members.lookup "iat" = none ∨ members.lookup "exp" = none ∨
    ∃ iat exp, integerMember members "iat" = some iat ∧ integerMember members "exp" = some exp ∧
      exp ≤ iat

/-- The lifetime of the token that a login brings. -/
structure LifetimeKept (env : TokenManagerEnv) (reply : ServerReply)
    (members : List (String × JsonValue)) (s : TokenManager) : Prop where
  lasts : ∀ iat exp, Lasts members iat exp → ∃ loginErr reSessionErr s',
    getAuthToken env reply s = .ok (loginErr, reSessionErr, s') ∧
    ∀ call, usesCache call s' = true ↔ (call.ullCurrMonoTimeMs : ℤ) < reply.ullMonotonicTimeMs +
      ((exp - iat) * 1000 - (exp - iat) * 1000 * env.nMarginPercent / 100)
  neverLasts : NeverLasts members → ∀ loginErr reSessionErr s',
    getAuthToken env reply s = .ok (loginErr, reSessionErr, s') →
    ∀ call, reply.ullMonotonicTimeMs ≤ call.ullCurrMonoTimeMs → usesCache call s' = false
  defined : fetchAuthToken env.toTokenEnv reply ≠ .error .undefined
  noWrap : ∀ resp, fetchAuthToken env.toTokenEnv reply = .ok resp → resp.strTokenTime ≠ [] →
    ∃ issue expiry, convertToNumber (slashed resp.strTokenTime) = some issue ∧
      convertToNumber (slashed resp.strExpTime) = some expiry ∧ issue ≤ expiry
  noWrapMargin : ∀ resp, fetchAuthToken env.toTokenEnv reply = .ok resp →
    resp.ullTokenTTL * env.nMarginPercent.toNat % 2 ^ 64 / 100 ≤ resp.ullTokenTTL

/-! ## The times that are read -/

/-- The seconds in the part of the payload that the decoder reads. -/
def decodedSeconds (env : TokenEnv) (text : List Char) (name : String) :
    Except CallFailure (Option ℤ) :=
  if text.take (readable text) = [] then .ok none
  else
    match JsonText.parse env.dbl (String.ofList (text.take (readable text))) with
    | .error .stackLimit => .error .exception
    | .error .syntaxError => .ok none
    | .ok jsonRoot => (memberSeconds jsonRoot name).map some

/-- Their local time, if they are not before 1970. -/
def payloadTime (zone : ZoneRule) (seconds : Option ℤ) : Option Tm :=
  seconds.bind fun n => if 0 ≤ n then localtime zone n else none

/-- The date of the response. -/
def headerTime (rstrHeaderResp : List Char) : Option Tm :=
  if getDateFromHeader rstrHeaderResp = [] then none
  else strptimeHeader (getDateFromHeader rstrHeaderResp)

/-- The time of the issue, if there is one, and of the expiry behind it. -/
def readTimes (env : TokenEnv) (rstrHeaderResp text : List Char) :
    Except CallFailure (Option (Tm × Option Tm)) :=
  match decodedSeconds env text "iat" with
  | .error e => .error e
  | .ok iat =>
    match (payloadTime env.zone iat).or (headerTime rstrHeaderResp) with
    | none => .ok none
    | some issue =>
      match decodedSeconds env text "exp" with
      | .error e => .error e
      | .ok exp => .ok (some (issue, payloadTime env.zone exp))

/-- The lifetime of two times in seconds, without the margin. Where only the expiry is
before 1970, it is taken as a time far ahead. -/
def lifetime (nMarginPercent issue expiry : ℤ) : ℤ :=
  if 0 ≤ issue ∧ expiry < 0 then
    2 ^ 64 - 2 ^ 64 / 100 - 10 * ((100 - nMarginPercent) * (issue - expiry))
  else 10 * ((100 - nMarginPercent) * (expiry - issue))

/-- The order of the numbers that times before and behind 1970 have. -/
def InOrder (issue expiry : ℤ) : Prop :=
  if 0 ≤ issue then issue ≤ expiry ∨ expiry < 0 else issue ≤ expiry ∧ expiry < 0

instance (issue expiry : ℤ) : Decidable (InOrder issue expiry) :=
  inferInstanceAs (Decidable (if 0 ≤ issue then _ else _))

/-- Two times with the lifetime of the payload. -/
structure TimesKept (env : TokenManagerEnv) (reply : ServerReply)
    (members : List (String × JsonValue)) (issue expiry : Tm) : Prop where
  fourDigits : 1900 + issue.tmYear ≤ 9999 ∧ 1900 + expiry.tmYear ≤ 9999
  inOrder : InOrder (timegm issue) (timegm expiry)
  lasts : ∀ iat exp, Lasts members iat exp →
    lifetime env.nMarginPercent (timegm issue) (timegm expiry) =
      10 * ((100 - env.nMarginPercent) * (exp - iat)) ∧
    reply.ullMonotonicTimeMs + 10 * ((100 - env.nMarginPercent) * (exp - iat)) < 2 ^ 64
  neverLasts : NeverLasts members →
    lifetime env.nMarginPercent (timegm issue) (timegm expiry) = 0 ∨
    2 ^ 64 ≤ reply.ullMonotonicTimeMs +
      lifetime env.nMarginPercent (timegm issue) (timegm expiry)

/-- The response has no time, and the payload none that lasts, or both its times are kept. -/
def ReadsLifetime (env : TokenManagerEnv) (reply : ServerReply) (text : List Char)
    (members : List (String × JsonValue)) : Prop :=
  match readTimes env.toTokenEnv reply.resp.strHttpResponseHeader text with
  | .ok (some (issue, expiry)) =>
    ∃ expiry', expiry = some expiry' ∧ TimesKept env reply members issue expiry'
  | _ => ∀ iat exp, ¬Lasts members iat exp

/-! ## From the token to the times -/

/-- The text of a time, if there is one. -/
def timeChars (time : Option Tm) : List Char := time.elim [] strftime

theorem timeChars_or (time time' : Option Tm) :
    (if timeChars time = [] then timeChars time' else timeChars time) =
      timeChars (time.or time') := by
  cases time with
  | none =>
    rw [Option.none_or]
    exact if_pos rfl
  | some tm =>
    rw [Option.some_or]
    exact if_neg (strftime_ne_nil tm)

variable {env : TokenEnv}

theorem getTimeFromPayload_urlEncode {text : List Char} (h : ∀ c ∈ text, c.toNat < 256)
    (name : String) : getTimeFromPayload env (urlEncode text) name =
      (decodedSeconds env text name).map fun seconds => timeChars (payloadTime env.zone seconds) := by
  unfold getTimeFromPayload decodedSeconds
  rw [base64Decode_urlEncode h]
  dsimp only
  by_cases hempty : text.take (readable text) = []
  · rw [if_pos hempty, if_pos hempty]
    rfl
  · rw [if_neg hempty, if_neg hempty]
    cases JsonText.parse env.dbl (String.ofList (text.take (readable text))) with
    | error e =>
      cases e with
      | stackLimit => rfl
      | syntaxError => rfl
    | ok jsonRoot =>
      dsimp only
      cases memberSeconds jsonRoot name with
      | error e => rfl
      | ok n =>
        show Except.ok (timeText env n) = Except.ok (timeChars (payloadTime env.zone (some n)))
        unfold timeText payloadTime
        rw [strptimeSeconds_decimal, Option.bind_some]
        cases (if 0 ≤ n then localtime env.zone n else none) with
        | none => rfl
        | some tm => rfl

theorem tokenTimeOfHeader_eq (rstrHeaderResp : List Char) :
    tokenTimeOfHeader rstrHeaderResp = timeChars (headerTime rstrHeaderResp) := by
  unfold tokenTimeOfHeader headerTime
  dsimp only
  split
  · rfl
  · unfold getTimeFormatAsLogin
    cases strptimeHeader (getDateFromHeader rstrHeaderResp) with
    | none => rfl
    | some tm => rfl

/-- The part of the token between its dots. -/
theorem getPayloadDataFromToken_eq {header payload signature : List Char} (hheader : '.' ∉ header)
    (hpayload : '.' ∉ payload) :
    getPayloadDataFromToken (header ++ '.' :: (payload ++ '.' :: signature)) = payload := by
  have hskip : ∀ part : List Char, '.' ∉ part → ∀ c ∈ part, decide (c ≠ '.') = true := by
    intro part hpart c hc
    apply decide_eq_true
    rintro rfl
    exact hpart hc
  unfold getPayloadDataFromToken
  rw [List.dropWhile_append_of_pos (hskip header hheader)]
  show (if '.' ∈ payload ++ '.' :: signature then
    (payload ++ '.' :: signature).takeWhile (fun c => decide (c ≠ '.')) else []) = payload
  rw [if_pos (List.mem_append_right _ List.mem_cons_self),
    List.takeWhile_append_of_pos (hskip payload hpayload)]
  exact List.append_nil payload

/-- The times of a response, from those that are read. -/
theorem updateTokenTime_of_times {text : List Char} {rResp : AuthResponse}
    (hbytes : ∀ c ∈ text, c.toNat < 256) (hne : text ≠ []) :
    updateTokenTime env (urlEncode text) rResp =
      match readTimes env rResp.strHttpRespHeader text with
      | .error e => .error e
      | .ok none => .ok { rResp with strTokenTime := [] }
      | .ok (some (issue, expiry)) =>
        (calcTtl (strftime issue) (timeChars expiry)).map fun ullTokenTTL => { rResp with
          strTokenTime := strftime issue
          strExpTime := timeChars expiry
          ullTokenTTL := ullTokenTTL } := by
  have hencoded : urlEncode text ≠ [] := by
    intro hnil
    have hlength := length_urlEncode text
    rw [hnil, List.length_nil] at hlength
    exact hne (List.eq_nil_of_length_eq_zero (by omega))
  unfold updateTokenTime tokenTimeOfPayload readTimes
  rw [if_neg hencoded, getTimeFromPayload_urlEncode hbytes, getTimeFromPayload_urlEncode hbytes]
  cases decodedSeconds env text "iat" with
  | error e => rfl
  | ok iat =>
    -- the payload comes first, the header of the response where it has no time
    show (if (if timeChars (payloadTime env.zone iat) = [] then
      tokenTimeOfHeader rResp.strHttpRespHeader else timeChars (payloadTime env.zone iat)) = []
      then _ else _) = _
    dsimp only
    rw [tokenTimeOfHeader_eq, timeChars_or]
    cases (payloadTime env.zone iat).or (headerTime rResp.strHttpRespHeader) with
    | none => rfl
    | some issue =>
      have hissue : timeChars (some issue) ≠ [] := strftime_ne_nil issue
      dsimp only
      rw [if_neg hissue]
      cases decodedSeconds env text "exp" with
      | error e => rfl
      | ok exp =>
        show (do let ullTokenTTL ← calcTtl (strftime issue) (timeChars (payloadTime env.zone exp))
                 _) = _
        dsimp only
        cases calcTtl (strftime issue) (timeChars (payloadTime env.zone exp)) with
        | error e => rfl
        | ok ullTokenTTL => rfl

/-- A token that the server has just returned. -/
structure IssuedBy (reply : ServerReply) (resp : AuthResponse) : Prop where
  noError : resp.eHttpSessionErrCode = .eERR_OK
  status : resp.lHttpRespCode = 200
  token : resp.strToken ≠ ""
  issuedOn : resp.ullTokenIssuedOn = reply.ullMonotonicTimeMs

/-- The token is long enough to be shown in part. -/
theorem length_of_parts {text header signature : List Char} {strToken : String}
    (h : strToken.toList = header ++ '.' :: (urlEncode text ++ '.' :: signature))
    (hlength : 2 ≤ text.length) : 5 ≤ strToken.length := by
  have hencoded := length_urlEncode text
  rw [← String.length_toList, h]
  simp only [List.length_append, List.length_cons]
  omega

theorem fetchAuthToken_of_times {reply : ServerReply} {text : List Char}
    {members : List (String × JsonValue)} (h : CarriesObject env reply text members) :
    ∃ resp, IssuedBy reply resp ∧ resp.ullTokenTTL = 0 ∧ fetchAuthToken env reply =
      match readTimes env reply.resp.strHttpResponseHeader text with
      | .error e => .error e
      | .ok none => .ok { resp with strTokenTime := [] }
      | .ok (some (issue, expiry)) =>
        (calcTtl (strftime issue) (timeChars expiry)).map fun ullTokenTTL => { resp with
          strTokenTime := strftime issue
          strExpTime := timeChars expiry
          ullTokenTTL := ullTokenTTL } := by
  obtain ⟨noError, status, bytes, object, jsonRoot, strToken, header, signature, hparse, hmember,
    hheader, htoken⟩ := h
  have hlength := JsonText.length_of_parse_object env.dbl object
  rw [String.toList_ofList] at hlength
  have hne : text ≠ [] := by
    rintro rfl
    simp at hlength
  have hpayload := dot_not_mem_urlEncode bytes
  -- the log shows the ends of the token, which is long enough
  have hshown : ¬(env.logsCritical = true ∧ strToken.length < 5) := by
    have hfive := length_of_parts htoken hlength
    omega
  refine ⟨{ AuthResponse.fresh with
    eHttpSessionErrCode := reply.eErrCode
    lHttpRespCode := reply.resp.lHttpCode
    strHttpRespHeader := reply.resp.strHttpResponseHeader
    strHttpRespData := reply.resp.strHttpRespdata
    strToken := strToken
    ullTokenIssuedOn := reply.ullMonotonicTimeMs },
    ⟨noError, status, memberText_ne_empty hmember, rfl⟩, rfl, ?_⟩
  unfold fetchAuthToken
  dsimp only
  rw [if_pos noError, if_pos status]
  unfold parseAPIResponse
  dsimp only
  rw [hparse]
  dsimp only
  rw [hmember]
  show (if env.logsCritical = true ∧ strToken.length < 5 then _ else _) = _
  rw [if_neg hshown, htoken, getPayloadDataFromToken_eq hheader hpayload,
    updateTokenTime_of_times bytes hne]
  dsimp only
  cases readTimes env reply.resp.strHttpResponseHeader text with
  | error e => rfl
  | ok times =>
    match times with
    | none => rfl
    | some (issue, expiry) =>
      dsimp only
      cases calcTtl (strftime issue) (timeChars expiry) with
      | error e => rfl
      | ok ullTokenTTL => rfl

/-! ## From the times to the lifetime -/

/-- The number of a time, as an `unsigned long long`. -/
def milliseconds (tm : Tm) : ℕ := (timegm tm * 1000 % 2 ^ 64).toNat

theorem slashed_eq (text : List Char) :
    slashed text = text.map ((fun c => if c = '-' then '/' else c) ∘
      fun c => if c = 'T' then ' ' else c) := by
  unfold slashed
  rw [List.map_map]

theorem slashed_isDigit (c : Char) (h : c.isDigit = true) :
    ((fun c => if c = '-' then '/' else c) ∘ fun c => if c = 'T' then ' ' else c) c = c := by
  have hT : c ≠ 'T' := by
    rintro rfl
    revert h
    decide
  have hdash : c ≠ '-' := (not_isSpace_of_isDigit h).2.1
  show (if (if c = 'T' then ' ' else c) = '-' then '/' else if c = 'T' then ' ' else c) = c
  rw [if_neg hT, if_neg hdash]

theorem convertToNumber_strftime {tm : Tm} (h : Tm.Ordinary tm) :
    convertToNumber (slashed (strftime tm)) = some (milliseconds tm) := by
  rw [slashed_eq, map_strftime h slashed_isDigit (by decide) (by decide) (by decide)]
  exact convertToNumber_dateText h

/-- A time whose year has more digits, and the text of no time, are not numbers. -/
theorem convertToNumber_of_not_ordinary {time : Option Tm}
    (h : ∀ tm, time = some tm → 10000 ≤ 1900 + tm.tmYear) :
    convertToNumber (slashed (timeChars time)) = none := by
  cases time with
  | none => rfl
  | some tm =>
    rw [slashed_eq]
    exact convertToNumber_of_long_year (h tm rfl) slashed_isDigit

theorem ordinary_payloadTime {zone : ZoneRule} {seconds : Option ℤ} {tm : Tm}
    (h : payloadTime zone seconds = some tm) (hyear : 1900 + tm.tmYear ≤ 9999) :
    Tm.Ordinary tm := by
  obtain ⟨n, rfl, hlocal⟩ := Option.bind_eq_some_iff.1 h
  by_cases hn : 0 ≤ n
  · rw [if_pos hn] at hlocal
    obtain ⟨rfl, hlow⟩ := localtime_eq hn hlocal
    exact ordinary_gmtime hlow hyear
  · rw [if_neg hn] at hlocal
    cases hlocal

theorem ordinary_headerTime {rstrHeaderResp : List Char} {tm : Tm}
    (h : headerTime rstrHeaderResp = some tm) : Tm.Ordinary tm := by
  unfold headerTime at h
  split at h
  · cases h
  · exact ordinary_strptimeHeader h

/-- A time that is read is one of four digits, or its year has more. -/
theorem ordinary_readTimes {rstrHeaderResp text : List Char} {issue : Tm} {expiry : Option Tm}
    (h : readTimes env rstrHeaderResp text = .ok (some (issue, expiry))) :
    (1900 + issue.tmYear ≤ 9999 → Tm.Ordinary issue) ∧
      ∀ tm, expiry = some tm → 1900 + tm.tmYear ≤ 9999 → Tm.Ordinary tm := by
  unfold readTimes at h
  split at h
  · cases h
  · rename_i iat _
    split at h
    · cases h
    · rename_i time htime
      split at h
      · cases h
      · cases h
        constructor
        · intro hyear
          rcases Option.or_eq_some_iff.1 htime with hpayload | ⟨_, hheader⟩
          · exact ordinary_payloadTime hpayload hyear
          · exact ordinary_headerTime hheader
        · intro tm htm hyear
          exact ordinary_payloadTime htm hyear

/-- A time from 1970 on is its milliseconds, and an earlier one is counted back from `2 ^ 64`. -/
theorem milliseconds_eq {tm : Tm} (h : Tm.Ordinary tm) :
    (milliseconds tm : ℤ) = 1000 * timegm tm + if 0 ≤ timegm tm then 0 else 2 ^ 64 := by
  obtain ⟨hlow, hhigh⟩ := timegm_bounds h
  unfold milliseconds
  generalize timegm tm = t at hlow hhigh
  have hnonneg : 0 ≤ t * 1000 % 2 ^ 64 := Int.emod_nonneg _ (by decide)
  rw [Int.toNat_of_nonneg hnonneg]
  by_cases ht : 0 ≤ t
  · rw [if_pos ht]
    omega
  · rw [if_neg ht]
    omega

/-- The order of the numbers is that of the times, taken apart at 1970. -/
theorem milliseconds_le_iff {issue expiry : Tm} (hissue : Tm.Ordinary issue)
    (hexpiry : Tm.Ordinary expiry) :
    milliseconds issue ≤ milliseconds expiry ↔ InOrder (timegm issue) (timegm expiry) := by
  obtain ⟨hi, hi'⟩ := timegm_bounds hissue
  obtain ⟨he, he'⟩ := timegm_bounds hexpiry
  rw [← Int.ofNat_le, milliseconds_eq hissue, milliseconds_eq hexpiry]
  unfold InOrder
  generalize timegm issue = i at hi hi'
  generalize timegm expiry = e at he he'
  by_cases hbehind : 0 ≤ i
  · rw [if_pos hbehind, if_pos hbehind]
    by_cases hexp : 0 ≤ e
    · rw [if_pos hexp]
      omega
    · rw [if_neg hexp]
      omega
  · rw [if_neg hbehind, if_neg hbehind]
    by_cases hexp : 0 ≤ e
    · rw [if_pos hexp]
      omega
    · rw [if_neg hexp]
      omega

variable (env : TokenManagerEnv)

/-- The part of a number that the margin takes away. -/
theorem margin_le (ullTokenTTL : ℕ) (hhigh : env.nMarginPercent < 100) :
    ullTokenTTL * env.nMarginPercent.toNat % 2 ^ 64 / 100 ≤ ullTokenTTL := by
  have hmargin : env.nMarginPercent.toNat ≤ 100 := by omega
  have hmul := Nat.mul_le_mul_left ullTokenTTL hmargin
  have hmod := Nat.mod_le (ullTokenTTL * env.nMarginPercent.toNat) (2 ^ 64)
  omega

theorem subtract_of_le {a b : ℕ} (hle : b ≤ a) (hlt : a < 2 ^ 64) : subtract a b = a - b := by
  unfold subtract
  omega

theorem withoutMargin_eq {ullTokenTTL : ℕ} (hlow : 0 < env.nMarginPercent)
    (hhigh : env.nMarginPercent < 100) (hTTL : ullTokenTTL < 2 ^ 64) :
    withoutMargin env ullTokenTTL =
      ullTokenTTL - ullTokenTTL * env.nMarginPercent.toNat % 2 ^ 64 / 100 := by
  unfold withoutMargin
  rw [if_pos ⟨hlow, hhigh⟩, subtract_of_le (margin_le env ullTokenTTL hhigh) hTTL]

/-- Times apart by seconds: the margin is exact. -/
theorem withoutMargin_seconds {seconds : ℕ} (hlow : 0 < env.nMarginPercent)
    (hhigh : env.nMarginPercent < 100) (hseconds : seconds < 2 ^ 41) :
    (withoutMargin env (1000 * seconds) : ℤ) = 10 * ((100 - env.nMarginPercent) * seconds) := by
  obtain ⟨m, hm⟩ := Int.eq_ofNat_of_zero_le (Int.le_of_lt hlow)
  have hmul : m * seconds ≤ 99 * seconds := Nat.mul_le_mul_right seconds (by omega)
  rw [withoutMargin_eq env hlow hhigh (by omega), hm]
  have hmargin : 1000 * seconds * (m : ℤ).toNat % 2 ^ 64 / 100 = 10 * (m * seconds) := by
    rw [Int.toNat_natCast, show 1000 * seconds * m = 1000 * (m * seconds) by ring,
      Nat.mod_eq_of_lt (by omega)]
    omega
  have hsplit : (100 - (m : ℤ)) * seconds = 100 * seconds - ((m * seconds : ℕ) : ℤ) := by
    push_cast
    ring
  rw [hmargin, hsplit]
  omega

/-- Times apart by seconds, and `2 ^ 64` between them. -/
theorem withoutMargin_far {seconds : ℕ} (hlow : 0 < env.nMarginPercent)
    (hhigh : env.nMarginPercent < 100) (hpos : 0 < seconds) (hseconds : seconds < 2 ^ 41) :
    (withoutMargin env (2 ^ 64 - 1000 * seconds) : ℤ) =
      2 ^ 64 - 2 ^ 64 / 100 - 10 * ((100 - env.nMarginPercent) * seconds) := by
  obtain ⟨m, hm⟩ := Int.eq_ofNat_of_zero_le (Int.le_of_lt hlow)
  have hmul : m * seconds ≤ 99 * seconds := Nat.mul_le_mul_right seconds (by omega)
  have hmulpos : 0 < m * seconds := Nat.mul_pos (by omega) hpos
  rw [withoutMargin_eq env hlow hhigh (by omega), hm]
  have hmargin : (2 ^ 64 - 1000 * seconds) * (m : ℤ).toNat % 2 ^ 64 =
      2 ^ 64 - 1000 * (m * seconds) := by
    have hmultiple : (2 ^ 64 - 1000 * seconds) * m =
        2 ^ 64 - 1000 * (m * seconds) + 2 ^ 64 * (m - 1) := by
      obtain ⟨k, rfl⟩ : ∃ k, m = k + 1 := ⟨m - 1, by omega⟩
      rw [Nat.sub_mul]
      have hcomm : 1000 * seconds * (k + 1) = 1000 * ((k + 1) * seconds) := by ring
      rw [hcomm]
      omega
    rw [Int.toNat_natCast, hmultiple, Nat.add_mul_mod_self_left, Nat.mod_eq_of_lt (by omega)]
  have hsplit : (100 - (m : ℤ)) * seconds = 100 * seconds - ((m * seconds : ℕ) : ℤ) := by
    push_cast
    ring
  rw [hmargin, hsplit]
  omega

/-- The lifetime of two numbers in order. -/
theorem withoutMargin_milliseconds {issue expiry : Tm} (hissue : Tm.Ordinary issue)
    (hexpiry : Tm.Ordinary expiry) (hlow : 0 < env.nMarginPercent)
    (hhigh : env.nMarginPercent < 100) (horder : InOrder (timegm issue) (timegm expiry)) :
    (withoutMargin env (subtract (milliseconds expiry) (milliseconds issue)) : ℤ) =
      lifetime env.nMarginPercent (timegm issue) (timegm expiry) := by
  have hle := (milliseconds_le_iff hissue hexpiry).2 horder
  have hissued := milliseconds_eq hissue
  have hexpires := milliseconds_eq hexpiry
  obtain ⟨hi, hi'⟩ := timegm_bounds hissue
  obtain ⟨he, he'⟩ := timegm_bounds hexpiry
  unfold InOrder at horder
  unfold lifetime
  generalize milliseconds issue = a at hle hissued
  generalize milliseconds expiry = b at hle hexpires
  generalize timegm issue = i at hissued hi hi' horder
  generalize timegm expiry = e at hexpires he he' horder
  by_cases hfar : 0 ≤ i ∧ e < 0
  · -- only the expiry is before 1970
    rw [if_pos hfar.1] at hissued
    rw [if_neg (by omega)] at hexpires
    obtain ⟨seconds, hseconds⟩ := Int.eq_ofNat_of_zero_le (a := i - e) (by omega)
    have hdifference : subtract b a = 2 ^ 64 - 1000 * seconds := by
      rw [subtract_of_le hle (by omega)]
      omega
    rw [if_pos hfar, hdifference, withoutMargin_far env hlow hhigh (by omega) (by omega), hseconds]
  · obtain ⟨seconds, hseconds⟩ := Int.eq_ofNat_of_zero_le (a := e - i) (by
      split at horder <;> omega)
    have hdifference : subtract b a = 1000 * seconds := by
      have hlt : b < 2 ^ 64 := by
        split at hexpires <;> omega
      rw [subtract_of_le hle hlt]
      by_cases hbehind : 0 ≤ i
      · rw [if_pos hbehind] at hissued
        rw [if_pos (by omega)] at hexpires
        omega
      · rw [if_neg hbehind] at hissued horder
        rw [if_neg (by omega)] at hexpires
        omega
    rw [if_neg hfar, hdifference, withoutMargin_seconds env hlow hhigh (by omega), hseconds]

theorem subtract_lt (a b : ℕ) : subtract a b < 2 ^ 64 := Nat.mod_lt _ (by decide)

theorem withoutMargin_lt {ullTokenTTL : ℕ} (hlow : 0 < env.nMarginPercent)
    (hhigh : env.nMarginPercent < 100) : withoutMargin env ullTokenTTL < 2 ^ 64 := by
  unfold withoutMargin
  rw [if_pos ⟨hlow, hhigh⟩]
  exact subtract_lt _ _

/-- The lifetime of the payload, less its margin. -/
theorem lifetime_of_payload (seconds nMarginPercent : ℤ) :
    seconds * 1000 - seconds * 1000 * nMarginPercent / 100 =
      10 * ((100 - nMarginPercent) * seconds) := by
  have hmargin : seconds * 1000 * nMarginPercent = 100 * (10 * (seconds * nMarginPercent)) := by
    ring
  rw [hmargin, Int.mul_ediv_cancel_left _ (by decide)]
  ring

/-! ## The token behind the login -/

variable {env}

theorem usesCache_iff {call : TokenCall} {s : TokenManager} (h : s.strToken ≠ "") :
    usesCache call s = true ↔ call.ullCurrMonoTimeMs < s.expiry := by
  unfold usesCache
  simp [h]

/-- A call at any time. -/
def callAt (ullCurrMonoTimeMs : ℕ) : TokenCall :=
  { callWith ⟨.eERR_NETWORK, .reset, ullCurrMonoTimeMs⟩ with ullCurrMonoTimeMs := ullCurrMonoTimeMs }

theorem getAuthToken_of_issued {reply : ServerReply} {resp : AuthResponse} (s : TokenManager)
    (hissued : IssuedBy reply resp) (hfetch : fetchAuthToken env.toTokenEnv reply = .ok resp) :
    ∃ s', getAuthToken env reply s = .ok (.eLE_SUCCESS, .eERR_OK, s') ∧ s'.strToken ≠ "" ∧
      s'.expiry = (reply.ullMonotonicTimeMs + withoutMargin env resp.ullTokenTTL) % 2 ^ 64 := by
  obtain ⟨hstored, hexpiry⟩ := @storeToken_fields env resp s
  refine ⟨_, getAuthToken_of_token s hfetch hissued.noError hissued.status, ?_, ?_⟩
  · rw [hstored]
    exact hissued.token
  · rw [hexpiry, hissued.issuedOn]

/-- The token is valid up to a time, if its expiry is that time. -/
theorem validUntil_iff {reply : ServerReply} {resp : AuthResponse} (s : TokenManager)
    (hissued : IssuedBy reply resp) (hfetch : fetchAuthToken env.toTokenEnv reply = .ok resp)
    {lasts : ℤ} (hpos : 0 < lasts) (hlow : 0 < env.nMarginPercent)
    (hhigh : env.nMarginPercent < 100) :
    (∃ loginErr reSessionErr s', getAuthToken env reply s = .ok (loginErr, reSessionErr, s') ∧
      ∀ call, usesCache call s' = true ↔
        (call.ullCurrMonoTimeMs : ℤ) < reply.ullMonotonicTimeMs + lasts) ↔
    (withoutMargin env resp.ullTokenTTL : ℤ) = lasts ∧
      reply.ullMonotonicTimeMs + lasts < 2 ^ 64 := by
  obtain ⟨s', hlogin, htoken, hexpiry⟩ := getAuthToken_of_issued s hissued hfetch
  have hlt := @withoutMargin_lt env resp.ullTokenTTL hlow hhigh
  constructor
  · rintro ⟨_, _, s'', hlogin', hvalid⟩
    rw [hlogin] at hlogin'
    cases hlogin'
    -- the two bounds are one, tried at either of them
    have hbound := hvalid (callAt s'.expiry)
    have hbound' := hvalid (callAt (reply.ullMonotonicTimeMs + lasts).toNat)
    rw [usesCache_iff htoken] at hbound hbound'
    have hclock : ∀ n, (callAt n).ullCurrMonoTimeMs = n := fun _ => rfl
    rw [hclock] at hbound hbound'
    omega
  · rintro ⟨hlasts, hfits⟩
    refine ⟨_, _, s', hlogin, fun call => ?_⟩
    rw [usesCache_iff htoken, hexpiry]
    omega

/-- The token is never valid, if its expiry is no time behind its issue. -/
theorem neverValid_iff {reply : ServerReply} {resp : AuthResponse} (s : TokenManager)
    (hissued : IssuedBy reply resp) (hfetch : fetchAuthToken env.toTokenEnv reply = .ok resp)
    (hlow : 0 < env.nMarginPercent) (hhigh : env.nMarginPercent < 100) :
    (∀ loginErr reSessionErr s', getAuthToken env reply s = .ok (loginErr, reSessionErr, s') →
      ∀ call, reply.ullMonotonicTimeMs ≤ call.ullCurrMonoTimeMs → usesCache call s' = false) ↔
    withoutMargin env resp.ullTokenTTL = 0 ∨
      2 ^ 64 ≤ reply.ullMonotonicTimeMs + withoutMargin env resp.ullTokenTTL := by
  obtain ⟨s', hlogin, htoken, hexpiry⟩ := getAuthToken_of_issued s hissued hfetch
  have hlt := @withoutMargin_lt env resp.ullTokenTTL hlow hhigh
  constructor
  · intro hnever
    have hnow := hnever _ _ s' hlogin (callAt reply.ullMonotonicTimeMs) (Nat.le_refl _)
    have hinvalid : ¬reply.ullMonotonicTimeMs < s'.expiry := by
      intro hvalid
      rw [(usesCache_iff htoken).2 hvalid] at hnow
      cases hnow
    omega
  · intro hzero loginErr reSessionErr s'' hlogin' call hcall
    rw [hlogin] at hlogin'
    cases hlogin'
    apply Bool.eq_false_iff.2
    intro hvalid
    have hbefore := (usesCache_iff htoken).1 hvalid
    omega

/-! ## The lifetime -/

theorem decodedSeconds_error {env : TokenEnv} {text : List Char} {name : String} {e : CallFailure}
    (h : decodedSeconds env text name = .error e) : e = .exception := by
  unfold decodedSeconds memberSeconds at h
  split at h
  · cases h
  · split at h
    · cases h
      rfl
    · cases h
    · split at h
      · cases h
        rfl
      · split at h
        · cases h
          rfl
        · cases h

theorem readTimes_error {env : TokenEnv} {rstrHeaderResp text : List Char} {e : CallFailure}
    (h : readTimes env rstrHeaderResp text = .error e) : e = .exception := by
  unfold readTimes at h
  split at h
  · rename_i hiat
    cases h
    exact decodedSeconds_error hiat
  · split at h
    · cases h
    · split at h
      · rename_i hexp
        cases h
        exact decodedSeconds_error hexp
      · cases h

/-- An exception brings no token. -/
theorem lifetimeKept_of_exception {reply : ServerReply} {members : List (String × JsonValue)}
    (s : TokenManager) (hfetch : fetchAuthToken env.toTokenEnv reply = .error .exception) :
    LifetimeKept env reply members s ↔ ∀ iat exp, ¬Lasts members iat exp := by
  have hlogin : getAuthToken env reply s = .error .exception := by
    unfold getAuthToken
    rw [hfetch]
  constructor
  · intro hkept iat exp hlasts
    obtain ⟨_, _, _, hlogin', _⟩ := hkept.lasts iat exp hlasts
    rw [hlogin] at hlogin'
    cases hlogin'
  · intro hnone
    constructor
    · intro iat exp hlasts
      exact absurd hlasts (hnone iat exp)
    · intro _ _ _ _ hlogin'
      rw [hlogin] at hlogin'
      cases hlogin'
    · rw [hfetch]
      nofun
    · intro resp hresp
      rw [hfetch] at hresp
      cases hresp
    · intro resp hresp
      rw [hfetch] at hresp
      cases hresp

/-- A token without times is never valid. -/
theorem lifetimeKept_of_no_time {reply : ServerReply} {resp : AuthResponse}
    {members : List (String × JsonValue)} (s : TokenManager) (hissued : IssuedBy reply resp)
    (hTTL : resp.ullTokenTTL = 0) (htime : resp.strTokenTime = [])
    (hfetch : fetchAuthToken env.toTokenEnv reply = .ok resp) (hlow : 0 < env.nMarginPercent)
    (hhigh : env.nMarginPercent < 100) :
    LifetimeKept env reply members s ↔ ∀ iat exp, ¬Lasts members iat exp := by
  have hzero : withoutMargin env resp.ullTokenTTL = 0 := by
    rw [hTTL, withoutMargin_eq env hlow hhigh (by decide), Nat.zero_sub]
  constructor
  · intro hkept iat exp hlasts
    have hvalid := hkept.lasts iat exp hlasts
    -- the payload gives a positive lifetime, the token has none
    have hpos : 0 < (100 - env.nMarginPercent) * (exp - iat) :=
      Int.mul_pos (by omega) (by have := hlasts.2.2.2; omega)
    rw [lifetime_of_payload] at hvalid
    have hlifetime := (validUntil_iff s hissued hfetch (by omega) hlow hhigh).1 hvalid
    omega
  · intro hnone
    constructor
    · intro iat exp hlasts
      exact absurd hlasts (hnone iat exp)
    · intro _
      exact (neverValid_iff s hissued hfetch hlow hhigh).2 (Or.inl hzero)
    · rw [hfetch]
      nofun
    · intro resp' hresp hne
      rw [hfetch] at hresp
      cases hresp
      exact absurd htime hne
    · intro resp' _
      exact margin_le env resp'.ullTokenTTL hhigh

/-- A token with two times is valid for the time between them. -/
theorem lifetimeKept_of_times {reply : ServerReply} {resp : AuthResponse}
    {members : List (String × JsonValue)} {issue expiry : Tm} (s : TokenManager)
    (hissued : IssuedBy reply resp) (hfetch : fetchAuthToken env.toTokenEnv reply = .ok resp)
    (hissue : Tm.Ordinary issue) (hexpiry : Tm.Ordinary expiry)
    (hTTL : resp.ullTokenTTL = subtract (milliseconds expiry) (milliseconds issue))
    (htime : resp.strTokenTime = strftime issue) (hexp : resp.strExpTime = strftime expiry)
    (hlow : 0 < env.nMarginPercent) (hhigh : env.nMarginPercent < 100) :
    LifetimeKept env reply members s ↔ TimesKept env reply members issue expiry := by
  have hpositive : ∀ iat exp, Lasts members iat exp →
      0 < 10 * ((100 - env.nMarginPercent) * (exp - iat)) := by
    intro iat exp hlasts
    have hpos : 0 < (100 - env.nMarginPercent) * (exp - iat) :=
      Int.mul_pos (by omega) (by have := hlasts.2.2.2; omega)
    omega
  constructor
  · intro hkept
    -- the difference of the two times has not wrapped
    have horder : InOrder (timegm issue) (timegm expiry) := by
      obtain ⟨i, e, hi, he, hle⟩ := hkept.noWrap resp hfetch (htime ▸ strftime_ne_nil issue)
      rw [htime, convertToNumber_strftime hissue] at hi
      rw [hexp, convertToNumber_strftime hexpiry] at he
      cases hi
      cases he
      exact (milliseconds_le_iff hissue hexpiry).1 hle
    have hlifetime := withoutMargin_milliseconds env hissue hexpiry hlow hhigh horder
    rw [← hTTL] at hlifetime
    refine ⟨⟨hissue.year.2, hexpiry.year.2⟩, horder, ?_, ?_⟩
    · intro iat exp hlasts
      have hvalid := hkept.lasts iat exp hlasts
      rw [lifetime_of_payload] at hvalid
      rw [← hlifetime]
      exact (validUntil_iff s hissued hfetch (hpositive iat exp hlasts) hlow hhigh).1 hvalid
    · intro hnever
      rw [← hlifetime]
      have hzero := (neverValid_iff s hissued hfetch hlow hhigh).1 (hkept.neverLasts hnever)
      omega
  · rintro ⟨_, horder, hlasts, hnever⟩
    have hlifetime := withoutMargin_milliseconds env hissue hexpiry hlow hhigh horder
    -- the lifetime that the two conditions speak of
    rw [← hTTL] at hlifetime
    rw [← hlifetime] at hlasts hnever
    constructor
    · intro iat exp hboth
      rw [lifetime_of_payload]
      exact (validUntil_iff s hissued hfetch (hpositive iat exp hboth) hlow hhigh).2
        (hlasts iat exp hboth)
    · intro hmissing
      apply (neverValid_iff s hissued hfetch hlow hhigh).2
      have hzero := hnever hmissing
      omega
    · rw [hfetch]
      nofun
    · intro resp' hresp _
      rw [hfetch] at hresp
      cases hresp
      rw [htime, hexp, convertToNumber_strftime hissue, convertToNumber_strftime hexpiry]
      exact ⟨_, _, rfl, rfl, (milliseconds_le_iff hissue hexpiry).2 horder⟩
    · intro resp' _
      exact margin_le env resp'.ullTokenTTL hhigh

theorem calcTtl_undefined {issue : Tm} {expiry : Option Tm}
    (h : 10000 ≤ 1900 + issue.tmYear ∨ ∀ tm, expiry = some tm → 10000 ≤ 1900 + tm.tmYear) :
    calcTtl (strftime issue) (timeChars expiry) = .error .undefined := by
  unfold calcTtl
  rcases h with hissue | hexpiry
  · have hnone : convertToNumber (slashed (strftime issue)) = none :=
      @convertToNumber_of_not_ordinary (some issue) (by rintro tm ⟨⟩; exact hissue)
    rw [hnone]
    split
    · rename_i hnone'
      cases hnone'
    · rfl
  · rw [convertToNumber_of_not_ordinary hexpiry]

theorem calcTtl_ordinary {issue expiry : Tm} (hissue : Tm.Ordinary issue)
    (hexpiry : Tm.Ordinary expiry) : calcTtl (strftime issue) (strftime expiry) =
      .ok (subtract (milliseconds expiry) (milliseconds issue)) := by
  unfold calcTtl
  rw [convertToNumber_strftime hissue, convertToNumber_strftime hexpiry]

/-- What the response becomes, by whether both times are read and have four digits. -/
theorem lifetimeKept_of_calcTtl {reply : ServerReply} {resp : AuthResponse}
    {members : List (String × JsonValue)} {issue : Tm} {expiry : Option Tm} (s : TokenManager)
    (hissued : IssuedBy reply resp) (hissue : 1900 + issue.tmYear ≤ 9999 → Tm.Ordinary issue)
    (hexpiry : ∀ tm, expiry = some tm → 1900 + tm.tmYear ≤ 9999 → Tm.Ordinary tm)
    (hfetch : fetchAuthToken env.toTokenEnv reply =
      (calcTtl (strftime issue) (timeChars expiry)).map fun ullTokenTTL => { resp with
        strTokenTime := strftime issue
        strExpTime := timeChars expiry
        ullTokenTTL := ullTokenTTL })
    (hlow : 0 < env.nMarginPercent) (hhigh : env.nMarginPercent < 100) :
    LifetimeKept env reply members s ↔
      ∃ expiry', expiry = some expiry' ∧ TimesKept env reply members issue expiry' := by
  -- an undefined time to live breaks the promise
  have hundefined : (10000 ≤ 1900 + issue.tmYear ∨
      ∀ tm, expiry = some tm → 10000 ≤ 1900 + tm.tmYear) → ¬LifetimeKept env reply members s := by
    intro hlong hkept
    rw [calcTtl_undefined hlong] at hfetch
    exact hkept.defined hfetch
  by_cases hfour : 1900 + issue.tmYear ≤ 9999 ∧ ∃ tm, expiry = some tm ∧ 1900 + tm.tmYear ≤ 9999
  · obtain ⟨hyear, tm, rfl, hyear'⟩ := hfour
    have hordinary := hexpiry tm rfl hyear'
    rw [show timeChars (some tm) = strftime tm from rfl,
      calcTtl_ordinary (hissue hyear) hordinary] at hfetch
    have hnow : IssuedBy reply { resp with
        strTokenTime := strftime issue
        strExpTime := strftime tm
        ullTokenTTL := subtract (milliseconds tm) (milliseconds issue) } :=
      ⟨hissued.noError, hissued.status, hissued.token, hissued.issuedOn⟩
    rw [lifetimeKept_of_times s hnow hfetch (hissue hyear) hordinary rfl rfl rfl hlow hhigh]
    constructor
    · intro hkept
      exact ⟨tm, rfl, hkept⟩
    · rintro ⟨_, ⟨⟩, hkept⟩
      exact hkept
  · constructor
    · intro hkept
      apply absurd hkept (hundefined _)
      by_cases hyear : 1900 + issue.tmYear ≤ 9999
      · right
        rintro tm rfl
        have hlong : ¬1900 + tm.tmYear ≤ 9999 := fun hyear' => hfour ⟨hyear, tm, rfl, hyear'⟩
        omega
      · left
        omega
    · rintro ⟨tm, htm, hkept⟩
      exact absurd ⟨hkept.fourDigits.1, tm, htm, hkept.fourDigits.2⟩ hfour

/-- The lifetime is that of the payload if and only if the times that are read have it. -/
theorem lifetimeKept_iff {reply : ServerReply} {text : List Char}
    {members : List (String × JsonValue)} (s : TokenManager)
    (h : CarriesObject env.toTokenEnv reply text members) (hlow : 0 < env.nMarginPercent)
    (hhigh : env.nMarginPercent < 100) :
    LifetimeKept env reply members s ↔ ReadsLifetime env reply text members := by
  obtain ⟨resp, hissued, hTTL, hfetch⟩ := fetchAuthToken_of_times h
  unfold ReadsLifetime
  cases htimes : readTimes env.toTokenEnv reply.resp.strHttpResponseHeader text with
  | error e =>
    rw [htimes] at hfetch
    cases readTimes_error htimes
    exact lifetimeKept_of_exception s hfetch
  | ok times =>
    rw [htimes] at hfetch
    match times, htimes, hfetch with
    | none, _, hfetch =>
      have hnow : IssuedBy reply { resp with strTokenTime := [] } :=
        ⟨hissued.noError, hissued.status, hissued.token, hissued.issuedOn⟩
      exact lifetimeKept_of_no_time s hnow hTTL rfl hfetch hlow hhigh
    | some (issue, expiry), htimes, hfetch =>
      obtain ⟨hissue, hexpiry⟩ := ordinary_readTimes htimes
      exact lifetimeKept_of_calcTtl s hissued hissue hexpiry hfetch hlow hhigh

/-- A response with a payload, 100 milliseconds after the start of the clock. -/
def replyWith (payload : String) : ServerReply :=
  ⟨.eERR_OK, ⟨.eERR_OK, 200, [],
    ("\x7b\"access_token\":\"h." ++ payload ++ ".s\"\x7d").toList⟩, 100⟩

theorem carriesObject_both :
    CarriesObject deviceEnv.toTokenEnv (replyWith "eyJpYXQiOjAsImV4cCI6OX0")
      "\x7b\"iat\":0,\"exp\":9\x7d".toList [("exp", .int 9), ("iat", .int 0)] := by
  refine ⟨rfl, rfl, List.all_iff_forall_prop.1 (by decide), ?_,
    .object [("access_token", .string "h.eyJpYXQiOjAsImV4cCI6OX0.s")],
    "h.eyJpYXQiOjAsImV4cCI6OX0.s", ['h'], ['s'], ?_, ?_, by decide, by decide +kernel⟩
  · decide +kernel
  · decide +kernel
  · decide +kernel

/-- A token for nine seconds, in UTC. -/
theorem lifetimeKept_both : LifetimeKept deviceEnv (replyWith "eyJpYXQiOjAsImV4cCI6OX0")
    [("exp", .int 9), ("iat", .int 0)] activatedDevice := by
  rw [lifetimeKept_iff activatedDevice carriesObject_both (by decide) (by decide)]
  unfold ReadsLifetime
  have htimes : readTimes deviceEnv.toTokenEnv
      (replyWith "eyJpYXQiOjAsImV4cCI6OX0").resp.strHttpResponseHeader
      "\x7b\"iat\":0,\"exp\":9\x7d".toList =
      .ok (some (⟨70, 0, 1, 0, 0, 0⟩, some ⟨70, 0, 1, 0, 0, 9⟩)) := by decide +kernel
  have hissue : timegm ⟨70, 0, 1, 0, 0, 0⟩ = 0 := by decide
  have hexpiry : timegm ⟨70, 0, 1, 0, 0, 9⟩ = 9 := by decide
  rw [htimes]
  refine ⟨_, rfl, ⟨by decide, by decide⟩, ?_, ?_, ?_⟩
  · rw [hissue, hexpiry]
    decide
  · rintro iat exp ⟨hiat, hexp, _⟩
    cases hiat
    cases hexp
    rw [hissue, hexpiry]
    constructor
    · decide
    · show (100 : ℤ) + 10 * ((100 - 10) * (9 - 0)) < 2 ^ 64
      omega
  · rintro (hmissing | hmissing | ⟨iat, exp, hiat, hexp, hle⟩)
    · cases hmissing
    · cases hmissing
    · cases hiat
      cases hexp
      exact absurd hle (by decide)

theorem carriesObject_no_issue :
    CarriesObject deviceEnv.toTokenEnv (replyWith "eyJleHAiOjl9") "\x7b\"exp\":9\x7d".toList
      [("exp", .int 9)] := by
  refine ⟨rfl, rfl, List.all_iff_forall_prop.1 (by decide), ?_,
    .object [("access_token", .string "h.eyJleHAiOjl9.s")],
    "h.eyJleHAiOjl9.s", ['h'], ['s'], ?_, ?_, by decide, by decide +kernel⟩
  · decide +kernel
  · decide +kernel
  · decide +kernel

/-- A token that does not say when it was issued counts from 1970. -/
theorem not_lifetimeKept_no_issue : ¬∀ (env : TokenManagerEnv) (reply : ServerReply)
    (text : List Char) (members : List (String × JsonValue)) (s : TokenManager),
    CarriesObject env.toTokenEnv reply text members → 0 < env.nMarginPercent →
    env.nMarginPercent < 100 → LifetimeKept env reply members s := by
  intro hall
  have hkept := hall deviceEnv _ _ _ activatedDevice carriesObject_no_issue (by decide) (by decide)
  obtain ⟨resp, htoken, _, hfetch⟩ := fetchAuthToken_of_times carriesObject_no_issue
  have htimes : readTimes deviceEnv.toTokenEnv (replyWith "eyJleHAiOjl9").resp.strHttpResponseHeader
      "\x7b\"exp\":9\x7d".toList =
      .ok (some (⟨70, 0, 1, 0, 0, 0⟩, some ⟨70, 0, 1, 0, 0, 9⟩)) := by decide +kernel
  rw [htimes] at hfetch
  obtain ⟨hissue, hexpiry⟩ := ordinary_readTimes htimes
  obtain ⟨_, ⟨⟩, htimesKept⟩ := (lifetimeKept_of_calcTtl activatedDevice htoken hissue hexpiry
    hfetch (by decide) (by decide)).1 hkept
  have hissued : timegm ⟨70, 0, 1, 0, 0, 0⟩ = 0 := by decide
  have hexpires : timegm ⟨70, 0, 1, 0, 0, 9⟩ = 9 := by decide
  have hlifetime : lifetime deviceEnv.nMarginPercent 0 9 = 8100 := by decide
  have hnever := htimesKept.neverLasts (Or.inl rfl)
  rw [hissued, hexpires, hlifetime] at hnever
  rcases hnever with hzero | hwraps
  · omega
  · have hfits : ¬(2 : ℤ) ^ 64 ≤ 100 + 8100 := by omega
    exact hfits hwraps

end TokenManager

end DeviceClient
