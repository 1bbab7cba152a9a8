import DeviceClient.Auth.TokenManager
import DeviceClient.Lib.Run

/-!
# What `GetToken` promises

A call without an error returns a token of the server that is not expired; the loop that
connects asks again behind any other call.

* `contract_iff`: the calls that keep the promise, in a state with a token of the server.
* `along_contract`: so do all calls of a run whose calls are such.
-/

namespace DeviceClient

namespace TokenManager

open AuthTokenAPI

variable (env : TokenManagerEnv)

/-! ## The requests of a call -/

/-- What `Activate` returns, whatever the state. -/
def activationError (a : ActivationAttempt) : HttpErrorCode :=
  if !a.proceed then .eERR_BACKOFF
  else if a.strQualifierID = "NOT_AVAILABLE" ∨ a.strQualifierID = "" then .eERR_BACKOFF
  else if a.eHttpSessionErrCode = .eERR_OK then .eERR_OK
  else .eERR_RESPONSE_DATA

theorem activate_fst (a : ActivationAttempt) (s : TokenManager) :
    (activate env a s).1 = activationError a := by
  unfold activate activationError
  split
  · rfl
  · split
    · rfl
    · split <;> rfl

/-- An activation sets no token. -/
theorem activate_strToken (a : ActivationAttempt) (s : TokenManager) :
    (activate env a s).2.strToken = s.strToken := by
  unfold activate
  split
  · rfl
  · split
    · rfl
    · split
      · unfold processActivationResponse
        split
        · dsimp only
          split <;> rfl
        · rfl
      · rfl

/-- The server refuses the login. -/
def refused (reply : ServerReply) : Bool :=
  reply.eErrCode = .eERR_OK && (reply.resp.lHttpCode = 401 || reply.resp.lHttpCode = 400)

/-- The cached token is returned. -/
def usesCache (call : TokenCall) (s : TokenManager) : Bool :=
  s.strToken ≠ "" && call.ullCurrMonoTimeMs < s.expiry

/-- The device is not activated, and stays so. -/
def failsToActivate (call : TokenCall) (s : TokenManager) : Bool :=
  s.strToken = "" && !s.isActivated && activationError call.activation ≠ .eERR_OK

/-- The login that ends a call, if one does: the first, or the one behind a refused one. A
refused login has no token. -/
def finalLogin (call : TokenCall) (s : TokenManager) : Option ServerReply :=
  if usesCache call s || failsToActivate call s then none
  else if refused call.login then
    if activationError call.reactivation = .eERR_OK then some call.relogin else none
  else some call.login

/-- The token that the server returned to a login. -/
def tokensOf (reply : ServerReply) : List String :=
  match fetchAuthToken env.toTokenEnv reply with
  | .error _ => []
  | .ok resp =>
    if resp.eHttpSessionErrCode = .eERR_OK ∧ resp.lHttpRespCode = 200 then [resp.strToken] else []

/-- The last reading of the clock in the call: a token is taken with one. -/
def reading (call : TokenCall) (s : TokenManager) : ℕ :=
  match finalLogin call s with
  | none => call.ullCurrMonoTimeMs
  | some reply =>
    if tokensOf env reply = [] then call.ullCurrMonoTimeMs else reply.ullMonotonicTimeMs

/-! ## Runs -/

/-- The manager, and the tokens that the server has returned to it. -/
structure TokenHistory where
  manager : TokenManager
  returned : List String

inductive TokenAction where
  | getToken (call : TokenCall)
  | invalidateToken

/-- The tokens behind a call. -/
def TokenHistory.returnedBy (h : TokenHistory) (call : TokenCall) : List String :=
  match finalLogin call h.manager with
  | none => h.returned
  | some reply => h.returned ++ tokensOf env reply

/-- A call that fails ends the run. -/
def next (h : TokenHistory) : TokenAction → Option TokenHistory
  | .getToken call =>
    match TokenManager.getToken env call h.manager with
    | .error _ => none
    | .ok (_, _, s) => some ⟨s, h.returnedBy env call⟩
  | .invalidateToken => some { h with manager := h.manager.invalidateToken }

/-- The promise of a call. -/
structure Contract (h : TokenHistory) (call : TokenCall) (strToken : String)
    (reSessionErr : HttpErrorCode) (s : TokenManager) : Prop where
  valid : reSessionErr = .eERR_OK →
    strToken ≠ "" ∧ strToken ∈ h.returnedBy env call ∧ reading env call h.manager < s.expiry
  asksAgain : reSessionErr ≠ .eERR_OK → asksAgain reSessionErr false false = true

/-- The call returns and keeps its promise. -/
def KeepsContract (h : TokenHistory) : TokenAction → Prop
  | .getToken call => ∃ strToken reSessionErr s,
      TokenManager.getToken env call h.manager = .ok (strToken, reSessionErr, s) ∧
      Contract env h call strToken reSessionErr s
  | .invalidateToken => True

/-- A login with an error of the session, or with the status 200 and a body that is no
token, or a token with a time to live. -/
def AnsweredBy (reply : ServerReply) : Prop :=
  reply.eErrCode ≠ .eERR_OK ∨ (reply.resp.lHttpCode = 200 ∧
    ∃ resp, fetchAuthToken env.toTokenEnv reply = .ok resp ∧
      (resp.eHttpSessionErrCode = .eERR_OK → resp.ullTokenIssuedOn <
        (resp.ullTokenIssuedOn + withoutMargin env resp.ullTokenTTL) % 2 ^ 64))

instance (reply : ServerReply) : Decidable (AnsweredBy env reply) :=
  match hfetch : fetchAuthToken env.toTokenEnv reply with
  | .error _ => decidable_of_iff (reply.eErrCode ≠ .eERR_OK) <| by
      simp [AnsweredBy, hfetch]
  | .ok resp => decidable_of_iff (reply.eErrCode ≠ .eERR_OK ∨ (reply.resp.lHttpCode = 200 ∧
      (resp.eHttpSessionErrCode = .eERR_OK → resp.ullTokenIssuedOn <
        (resp.ullTokenIssuedOn + withoutMargin env resp.ullTokenTTL) % 2 ^ 64))) <| by
      simp [AnsweredBy, hfetch]

/-- No login ends the call, or one that is answered so. -/
def Answered (h : TokenHistory) : TokenAction → Prop
  | .getToken call => ∀ reply, finalLogin call h.manager = some reply → AnsweredBy env reply
  | .invalidateToken => True

/-- The token is one of the server. -/
def FromServer (h : TokenHistory) : Prop :=
  h.manager.strToken = "" ∨ h.manager.strToken ∈ h.returned

/-! ## One login -/

theorem fetchAuthToken_of_error {env : TokenEnv} {reply : ServerReply}
    (h : reply.eErrCode ≠ .eERR_OK) :
    ∃ resp, fetchAuthToken env reply = .ok resp ∧ resp.eHttpSessionErrCode = reply.eErrCode := by
  unfold fetchAuthToken
  dsimp only
  rw [if_neg h]
  exact ⟨_, rfl, rfl⟩

theorem fetchAuthToken_of_status {env : TokenEnv} {reply : ServerReply}
    (h : reply.eErrCode = .eERR_OK) (hcode : reply.resp.lHttpCode ≠ 200) :
    ∃ resp, fetchAuthToken env reply = .ok resp ∧ resp.eHttpSessionErrCode = .eERR_OK ∧
      resp.lHttpRespCode = reply.resp.lHttpCode := by
  unfold fetchAuthToken
  dsimp only
  rw [if_pos h, if_neg hcode]
  split
  · exact ⟨_, rfl, h, rfl⟩
  · split
    · exact ⟨_, rfl, h, rfl⟩
    · exact ⟨_, rfl, h, rfl⟩

/-- What a body with a token becomes. -/
theorem fetchAuthToken_of_token {env : TokenEnv} {reply : ServerReply} {resp : AuthResponse}
    (h : reply.eErrCode = .eERR_OK) (hcode : reply.resp.lHttpCode = 200)
    (hfetch : fetchAuthToken env reply = .ok resp) :
    resp.lHttpRespCode = 200 ∧ (resp.eHttpSessionErrCode = .eERR_OK →
      resp.strToken ≠ "" ∧ resp.ullTokenIssuedOn = reply.ullMonotonicTimeMs) := by
  unfold fetchAuthToken at hfetch
  dsimp only at hfetch
  rw [if_pos h, if_pos hcode] at hfetch
  obtain ⟨hkept, herror | htoken⟩ := parseAPIResponse_cases hfetch
  · exact ⟨hkept.trans hcode, fun hok => absurd hok herror⟩
  · exact ⟨hkept.trans hcode, fun _ => htoken⟩

variable {env}

theorem getAuthToken_of_error {reply : ServerReply} (s : TokenManager)
    (h : reply.eErrCode ≠ .eERR_OK) :
    getAuthToken env reply s =
      .ok (.eLE_UNKNOWN, reply.eErrCode, s.setActivationState false .eNETWORK_ERROR) := by
  obtain ⟨resp, hfetch, herr⟩ := @fetchAuthToken_of_error env.toTokenEnv reply h
  unfold getAuthToken
  rw [hfetch]
  dsimp only
  rw [if_neg (herr ▸ h), herr]

theorem getAuthToken_of_status {reply : ServerReply} (s : TokenManager)
    (h : reply.eErrCode = .eERR_OK) (hcode : reply.resp.lHttpCode ≠ 200) :
    getAuthToken env reply s = .ok (if reply.resp.lHttpCode = 401 then .eLE_INVALID_CREDENTIAL
      else if reply.resp.lHttpCode = 400 then .eLE_INVALID_SCOPE else .eLE_UNKNOWN,
      .eERR_OK, s) := by
  obtain ⟨resp, hfetch, herr, hkept⟩ := @fetchAuthToken_of_status env.toTokenEnv reply h hcode
  unfold getAuthToken
  rw [hfetch]
  dsimp only
  rw [if_pos herr, hkept, if_neg hcode]
  split
  · rfl
  · split <;> rfl

theorem getAuthToken_of_rejected {reply : ServerReply} {resp : AuthResponse} (s : TokenManager)
    (hfetch : fetchAuthToken env.toTokenEnv reply = .ok resp)
    (herr : resp.eHttpSessionErrCode ≠ .eERR_OK) :
    getAuthToken env reply s = .ok (.eLE_UNKNOWN, resp.eHttpSessionErrCode,
      s.setActivationState false .eNETWORK_ERROR) := by
  unfold getAuthToken
  rw [hfetch]
  dsimp only
  rw [if_neg herr]

theorem getAuthToken_of_token {reply : ServerReply} {resp : AuthResponse} (s : TokenManager)
    (hfetch : fetchAuthToken env.toTokenEnv reply = .ok resp)
    (herr : resp.eHttpSessionErrCode = .eERR_OK) (hcode : resp.lHttpRespCode = 200) :
    getAuthToken env reply s = .ok (.eLE_SUCCESS, .eERR_OK, storeToken env resp s) := by
  unfold getAuthToken
  rw [hfetch]
  dsimp only
  rw [if_pos herr, if_pos hcode]

/-- Only a refused login is tried again. -/
theorem getAuthToken_refused {reply : ServerReply} {s s' : TokenManager} {loginErr : LoginError}
    {reSessionErr : HttpErrorCode}
    (h : getAuthToken env reply s = .ok (loginErr, reSessionErr, s')) :
    (loginErr = .eLE_INVALID_CREDENTIAL ∨ loginErr = .eLE_INVALID_SCOPE) ↔
      refused reply = true := by
  unfold refused
  by_cases herr : reply.eErrCode = .eERR_OK
  · by_cases hcode : reply.resp.lHttpCode = 200
    · -- the status 200 is none of a refusal, and gives neither error
      have hnot : ¬(loginErr = .eLE_INVALID_CREDENTIAL ∨ loginErr = .eLE_INVALID_SCOPE) := by
        cases hfetch : fetchAuthToken env.toTokenEnv reply with
        | error e =>
          unfold getAuthToken at h
          rw [hfetch] at h
          cases h
        | ok resp =>
          have hkept := (fetchAuthToken_of_token herr hcode hfetch).1
          by_cases hok : resp.eHttpSessionErrCode = .eERR_OK
          · rw [getAuthToken_of_token s hfetch hok hkept] at h
            cases h
            simp
          · rw [getAuthToken_of_rejected s hfetch hok] at h
            cases h
            simp
      simp [hnot, hcode]
    · rw [getAuthToken_of_status s herr hcode] at h
      cases h
      by_cases h401 : reply.resp.lHttpCode = 401
      · simp [herr, h401]
      · by_cases h400 : reply.resp.lHttpCode = 400 <;> simp [herr, h401, h400]
  · rw [getAuthToken_of_error s herr] at h
    cases h
    simp [herr]

/-! ## One call -/

variable (env)

/-- The end of a call with a login. -/
def finish (reply : ServerReply) (s : TokenManager) :
    Except CallFailure (String × HttpErrorCode × TokenManager) :=
  match getAuthToken env reply s with
  | .error e => .error e
  | .ok (_, reSessionErr, s) => .ok (s.strToken, reSessionErr, s)

/-- The state behind the reactivation. -/
def reactivated (call : TokenCall) (s : TokenManager) : TokenManager :=
  (activate env call.reactivation s.invalidateToken.invalidatePassCode).2

variable {env}

theorem reactivated_strToken (call : TokenCall) (s : TokenManager) :
    (reactivated env call s).strToken = "" := by
  unfold reactivated
  rw [activate_strToken]
  rfl

/-- A refused login has no failure. -/
theorem getAuthToken_of_refused {reply : ServerReply} (s : TokenManager)
    (h : refused reply = true) :
    ∃ loginErr, getAuthToken env reply s = .ok (loginErr, .eERR_OK, s) := by
  unfold refused at h
  simp only [Bool.and_eq_true, Bool.or_eq_true, decide_eq_true_eq] at h
  obtain ⟨herr, hcode⟩ := h
  exact ⟨_, getAuthToken_of_status s herr (by rcases hcode with h | h <;> omega)⟩

theorem loginAndRetry_of_refused {call : TokenCall} (s : TokenManager)
    (h : refused call.login = true) :
    loginAndRetry env call s = if activationError call.reactivation = .eERR_OK then
      finish env call.relogin (reactivated env call s)
      else .ok ("", activationError call.reactivation, reactivated env call s) := by
  obtain ⟨loginErr, hlogin⟩ := @getAuthToken_of_refused env call.login s h
  have htry := (getAuthToken_refused hlogin).2 h
  have hactivate : activate env call.reactivation s.invalidateToken.invalidatePassCode =
      (activationError call.reactivation, reactivated env call s) := by
    rw [← activate_fst env call.reactivation s.invalidateToken.invalidatePassCode]
    rfl
  unfold loginAndRetry
  rw [hlogin]
  dsimp only
  rw [if_pos htry, hactivate]
  dsimp only
  rw [reactivated_strToken]
  rfl

theorem loginAndRetry_of_not_refused {call : TokenCall} (s : TokenManager)
    (h : refused call.login = false) : loginAndRetry env call s = finish env call.login s := by
  unfold loginAndRetry finish
  cases hlogin : getAuthToken env call.login s with
  | error e => rfl
  | ok r =>
    obtain ⟨loginErr, reSessionErr, s'⟩ := r
    have hnot : ¬(loginErr = .eLE_INVALID_CREDENTIAL ∨ loginErr = .eLE_INVALID_SCOPE) := by
      rw [getAuthToken_refused hlogin, h]
      exact Bool.false_ne_true
    dsimp only
    rw [if_neg hnot]

/-- The state in which the first login is made. -/
def activated (env : TokenManagerEnv) (call : TokenCall) (s : TokenManager) : TokenManager :=
  if s.strToken = "" ∧ s.isActivated = false then (activate env call.activation s).2 else s

theorem activated_strToken (call : TokenCall) (s : TokenManager) :
    (activated env call s).strToken = s.strToken := by
  unfold activated
  split
  · exact activate_strToken env call.activation s
  · rfl

theorem getToken_of_usesCache {call : TokenCall} {s : TokenManager}
    (h : usesCache call s = true) :
    TokenManager.getToken env call s = .ok (s.strToken, .eERR_OK, s.shareToken s.strToken) := by
  unfold usesCache at h
  simp only [Bool.and_eq_true, decide_eq_true_eq] at h
  unfold TokenManager.getToken
  rw [if_neg h.1, if_pos h.2]

theorem getToken_of_failsToActivate {call : TokenCall} {s : TokenManager}
    (h : failsToActivate call s = true) :
    ∃ s', TokenManager.getToken env call s = .ok ("", activationError call.activation, s') ∧
      activationError call.activation ≠ .eERR_OK ∧ s'.strToken = "" := by
  unfold failsToActivate at h
  simp only [Bool.and_eq_true, decide_eq_true_eq, Bool.not_eq_true'] at h
  obtain ⟨⟨htoken, hactivated⟩, herr⟩ := h
  unfold TokenManager.getToken
  dsimp only
  rw [if_pos htoken, hactivated, if_neg Bool.false_ne_true, activate_fst, if_neg herr]
  refine ⟨_, rfl, herr, ?_⟩
  have hkept := activate_strToken env call.activation s
  split
  · exact hkept.trans htoken
  · exact hkept.trans htoken

theorem getToken_of_login {call : TokenCall} {s : TokenManager} (hcache : usesCache call s = false)
    (hactivate : failsToActivate call s = false) :
    TokenManager.getToken env call s = loginAndRetry env call (activated env call s) := by
  unfold TokenManager.getToken activated
  by_cases htoken : s.strToken = ""
  · rw [if_pos htoken]
    cases hactivated : s.isActivated with
    | true =>
      rw [if_pos rfl, if_neg (by simp)]
    | false =>
      have herr : activationError call.activation = .eERR_OK := by
        simpa [failsToActivate, htoken, hactivated] using hactivate
      dsimp only
      rw [if_neg Bool.false_ne_true, activate_fst, if_pos herr, if_pos ⟨htoken, rfl⟩]
  · have hexpired : ¬call.ullCurrMonoTimeMs < s.expiry := by
      simpa [usesCache, htoken] using hcache
    rw [if_neg htoken, if_neg hexpired, if_neg fun h => htoken h.1]

/-! ## The promise at the end of a login -/

theorem storeTokenTime_strToken (resp : AuthResponse) (s : TokenManager) :
    (storeTokenTime env resp s).strToken = s.strToken := by
  unfold storeTokenTime setTokenIssueTime
  split
  · rfl
  · split <;> rfl

theorem storeActivationTime_fields (s : TokenManager) :
    (storeActivationTime s).strToken = s.strToken ∧
      (storeActivationTime s).ullTokenIssuedOn = s.ullTokenIssuedOn := by
  unfold storeActivationTime
  split
  · exact ⟨rfl, rfl⟩
  · exact ⟨rfl, rfl⟩

theorem storeToken_fields (resp : AuthResponse) (s : TokenManager) :
    (storeToken env resp s).strToken = resp.strToken ∧
      (storeToken env resp s).expiry =
        (resp.ullTokenIssuedOn + withoutMargin env resp.ullTokenTTL) % 2 ^ 64 := by
  unfold storeToken expiry setActivationState
  dsimp only
  rw [(storeActivationTime_fields _).1, (storeActivationTime_fields _).2]
  exact ⟨storeTokenTime_strToken resp _, rfl⟩

theorem asksAgain_of_error {reSessionErr : HttpErrorCode} (h : reSessionErr ≠ .eERR_OK) :
    asksAgain reSessionErr false false = true := by
  simp [asksAgain, h]

/-- An error is all that the promise asks for. -/
theorem contract_of_error {h : TokenHistory} {call : TokenCall} (strToken : String)
    {reSessionErr : HttpErrorCode} (s : TokenManager) (herr : reSessionErr ≠ .eERR_OK) :
    Contract env h call strToken reSessionErr s :=
  ⟨fun hok => absurd hok herr, asksAgain_of_error⟩

theorem tokensOf_of_status {reply : ServerReply} (h : reply.eErrCode = .eERR_OK)
    (hcode : reply.resp.lHttpCode ≠ 200) : tokensOf env reply = [] := by
  obtain ⟨resp, hfetch, _, hkept⟩ := @fetchAuthToken_of_status env.toTokenEnv reply h hcode
  unfold tokensOf
  rw [hfetch]
  dsimp only
  rw [if_neg fun hboth => hcode (hkept ▸ hboth.2)]

theorem tokensOf_of_token {reply : ServerReply} {resp : AuthResponse}
    (hfetch : fetchAuthToken env.toTokenEnv reply = .ok resp)
    (herr : resp.eHttpSessionErrCode = .eERR_OK) (hcode : resp.lHttpRespCode = 200) :
    tokensOf env reply = [resp.strToken] := by
  unfold tokensOf
  rw [hfetch]
  dsimp only
  rw [if_pos ⟨herr, hcode⟩]

theorem finish_contract_iff {h : TokenHistory} {call : TokenCall} {reply : ServerReply}
    {s : TokenManager} (hfinal : finalLogin call h.manager = some reply)
    (hs : s.strToken = "" ∨ s.expiry ≤ call.ullCurrMonoTimeMs) :
    (∃ strToken reSessionErr s', finish env reply s = .ok (strToken, reSessionErr, s') ∧
      Contract env h call strToken reSessionErr s') ↔ AnsweredBy env reply := by
  unfold AnsweredBy finish
  by_cases herr : reply.eErrCode = .eERR_OK
  · by_cases hcode : reply.resp.lHttpCode = 200
    · cases hfetch : fetchAuthToken env.toTokenEnv reply with
      | error e =>
        have hfail : getAuthToken env reply s = .error e := by
          unfold getAuthToken
          rw [hfetch]
        rw [hfail]
        simp [herr]
      | ok resp =>
        obtain ⟨hkept, htoken⟩ := fetchAuthToken_of_token herr hcode hfetch
        by_cases hok : resp.eHttpSessionErrCode = .eERR_OK
        · obtain ⟨hne, hissued⟩ := htoken hok
          obtain ⟨hstored, hexpiry⟩ := @storeToken_fields env resp s
          have htokens := tokensOf_of_token hfetch hok hkept
          have hreading : reading env call h.manager = resp.ullTokenIssuedOn := by
            unfold reading
            rw [hfinal]
            dsimp only
            rw [htokens, if_neg (List.cons_ne_nil _ _), hissued]
          have hreturned : resp.strToken ∈ h.returnedBy env call := by
            unfold TokenHistory.returnedBy
            rw [hfinal]
            dsimp only
            rw [htokens]
            exact List.mem_append_right _ List.mem_cons_self
          rw [getAuthToken_of_token s hfetch hok hkept]
          constructor
          · rintro ⟨strToken, reSessionErr, s', hresult, hcontract⟩
            cases hresult
            have hlt := (hcontract.valid rfl).2.2
            rw [hreading, hexpiry] at hlt
            exact Or.inr ⟨hcode, resp, rfl, fun _ => hlt⟩
          · rintro (herror | ⟨_, resp', hresp, hlt⟩)
            · exact absurd herr herror
            · cases hresp
              refine ⟨_, _, _, rfl, ⟨fun _ => ⟨?_, ?_, ?_⟩, fun hne => absurd rfl hne⟩⟩
              · rw [hstored]
                exact hne
              · rw [hstored]
                exact hreturned
              · rw [hreading, hexpiry]
                exact hlt hok
        · rw [getAuthToken_of_rejected s hfetch hok]
          constructor
          · intro _
            exact Or.inr ⟨hcode, resp, rfl, fun h => absurd h hok⟩
          · intro _
            exact ⟨_, _, _, rfl, contract_of_error _ _ hok⟩
    · -- the status is no error, and there is no new token
      rw [getAuthToken_of_status s herr hcode]
      constructor
      · rintro ⟨strToken, reSessionErr, s', hresult, hcontract⟩
        cases hresult
        obtain ⟨hne, _, hlt⟩ := hcontract.valid rfl
        unfold reading at hlt
        rw [hfinal] at hlt
        dsimp only at hlt
        rw [tokensOf_of_status herr hcode, if_pos rfl] at hlt
        rcases hs with hempty | hexpired
        · exact absurd hempty hne
        · exact absurd hlt (Nat.not_lt.2 hexpired)
      · rintro (herror | ⟨hstatus, _⟩)
        · exact absurd herr herror
        · exact absurd hstatus hcode
  · rw [getAuthToken_of_error s herr]
    constructor
    · intro _
      exact Or.inl herr
    · intro _
      exact ⟨_, _, _, rfl, contract_of_error _ _ herr⟩

/-! ## Every call -/

theorem finalLogin_eq_none {call : TokenCall} {s : TokenManager}
    (h : (usesCache call s || failsToActivate call s) = true) : finalLogin call s = none := by
  unfold finalLogin
  rw [h, if_pos rfl]

theorem finalLogin_of_login {call : TokenCall} {s : TokenManager}
    (hcache : usesCache call s = false) (hactivate : failsToActivate call s = false) :
    finalLogin call s = if refused call.login then
      if activationError call.reactivation = .eERR_OK then some call.relogin else none
      else some call.login := by
  unfold finalLogin
  rw [hcache, hactivate, Bool.false_or, if_neg Bool.false_ne_true]

/-- The token that is not returned is empty or expired. -/
theorem activated_expired {call : TokenCall} {s : TokenManager}
    (hcache : usesCache call s = false) :
    (activated env call s).strToken = "" ∨
      (activated env call s).expiry ≤ call.ullCurrMonoTimeMs := by
  by_cases htoken : s.strToken = ""
  · left
    rw [activated_strToken, htoken]
  · right
    have hsame : activated env call s = s := by
      unfold activated
      rw [if_neg fun h => htoken h.1]
    rw [hsame]
    simpa [usesCache, htoken] using hcache

theorem contract_iff {h : TokenHistory} (call : TokenCall) (hserver : FromServer h) :
    KeepsContract env h (.getToken call) ↔ Answered env h (.getToken call) := by
  unfold KeepsContract Answered
  dsimp only
  cases hcache : usesCache call h.manager with
  | true =>
    have hnone := @finalLogin_eq_none call h.manager (by rw [hcache, Bool.true_or])
    rw [getToken_of_usesCache hcache]
    constructor
    · intro _ reply hreply
      rw [hnone] at hreply
      cases hreply
    · intro _
      simp only [usesCache, Bool.and_eq_true, decide_eq_true_eq] at hcache
      refine ⟨_, _, _, rfl, ⟨fun _ => ⟨hcache.1, ?_, ?_⟩, fun hne => absurd rfl hne⟩⟩
      · unfold TokenHistory.returnedBy
        rw [hnone]
        exact hserver.resolve_left hcache.1
      · unfold reading
        rw [hnone]
        exact hcache.2
  | false =>
    cases hactivate : failsToActivate call h.manager with
    | true =>
      have hnone := @finalLogin_eq_none call h.manager (by rw [hactivate, Bool.or_true])
      obtain ⟨s', hresult, herr, _⟩ := @getToken_of_failsToActivate env call h.manager hactivate
      rw [hresult]
      constructor
      · intro _ reply hreply
        rw [hnone] at hreply
        cases hreply
      · intro _
        exact ⟨_, _, _, rfl, contract_of_error _ _ herr⟩
    | false =>
      have hfinal := finalLogin_of_login hcache hactivate
      rw [getToken_of_login hcache hactivate]
      cases hrefused : refused call.login with
      | true =>
        rw [hrefused, if_pos rfl] at hfinal
        rw [loginAndRetry_of_refused _ hrefused]
        by_cases herr : activationError call.reactivation = .eERR_OK
        · -- the login behind the reactivation ends the call
          rw [if_pos herr] at hfinal
          have hiff := @finish_contract_iff env h call call.relogin
            (reactivated env call (activated env call h.manager)) hfinal
            (Or.inl (reactivated_strToken call _))
          rw [if_pos herr, hiff, hfinal]
          constructor
          · intro hanswered reply hreply
            cases hreply
            exact hanswered
          · intro hall
            exact hall call.relogin rfl
        · rw [if_neg herr] at hfinal
          rw [if_neg herr, hfinal]
          constructor
          · intro _ reply hreply
            cases hreply
          · intro _
            exact ⟨_, _, _, rfl, contract_of_error _ _ herr⟩
      | false =>
        rw [hrefused, if_neg Bool.false_ne_true] at hfinal
        have hiff := @finish_contract_iff env h call call.login
          (activated env call h.manager) hfinal (activated_expired hcache)
        rw [loginAndRetry_of_not_refused _ hrefused, hiff, hfinal]
        constructor
        · intro hanswered reply hreply
          cases hreply
          exact hanswered
        · intro hall
          exact hall call.login rfl

/-! ## Every run -/

/-- The end of a call leaves the token, or takes the one of the server. -/
theorem finish_strToken {reply : ServerReply} {s s' : TokenManager} {strToken : String}
    {reSessionErr : HttpErrorCode}
    (h : finish env reply s = .ok (strToken, reSessionErr, s')) :
    s'.strToken = s.strToken ∨ s'.strToken ∈ tokensOf env reply := by
  unfold finish at h
  -- a token is taken from a response without an error only
  by_cases herr : reply.eErrCode = .eERR_OK
  · by_cases hcode : reply.resp.lHttpCode = 200
    · cases hfetch : fetchAuthToken env.toTokenEnv reply with
      | error e =>
        have hfail : getAuthToken env reply s = .error e := by
          unfold getAuthToken
          rw [hfetch]
        rw [hfail] at h
        cases h
      | ok resp =>
        have hkept := (fetchAuthToken_of_token herr hcode hfetch).1
        by_cases hok : resp.eHttpSessionErrCode = .eERR_OK
        · rw [getAuthToken_of_token s hfetch hok hkept] at h
          cases h
          right
          rw [(storeToken_fields resp s).1, tokensOf_of_token hfetch hok hkept]
          exact List.mem_cons_self
        · rw [getAuthToken_of_rejected s hfetch hok] at h
          cases h
          exact Or.inl rfl
    · rw [getAuthToken_of_status s herr hcode] at h
      cases h
      exact Or.inl rfl
  · rw [getAuthToken_of_error s herr] at h
    cases h
    exact Or.inl rfl

theorem fromServer_getToken {h : TokenHistory} {call : TokenCall} {strToken : String}
    {reSessionErr : HttpErrorCode} {s : TokenManager} (hserver : FromServer h)
    (hresult : TokenManager.getToken env call h.manager = .ok (strToken, reSessionErr, s)) :
    FromServer ⟨s, h.returnedBy env call⟩ := by
  unfold FromServer TokenHistory.returnedBy at *
  dsimp only
  -- the cached token, a failed activation, and the login with its second try
  cases hcache : usesCache call h.manager with
  | true =>
    rw [finalLogin_eq_none (by rw [hcache, Bool.true_or])]
    rw [getToken_of_usesCache hcache] at hresult
    cases hresult
    exact hserver
  | false =>
    cases hactivate : failsToActivate call h.manager with
    | true =>
      rw [finalLogin_eq_none (by rw [hactivate, Bool.or_true])]
      obtain ⟨s', hfails, _, hempty⟩ := @getToken_of_failsToActivate env call h.manager hactivate
      rw [hfails] at hresult
      cases hresult
      exact Or.inl hempty
    | false =>
      have hfinal := finalLogin_of_login hcache hactivate
      rw [getToken_of_login hcache hactivate] at hresult
      cases hrefused : refused call.login with
      | true =>
        rw [hrefused, if_pos rfl] at hfinal
        rw [loginAndRetry_of_refused _ hrefused] at hresult
        -- the device is activated again behind a refused login
        by_cases herr : activationError call.reactivation = .eERR_OK
        · rw [if_pos herr] at hfinal hresult
          rw [hfinal]
          rcases finish_strToken hresult with hkept | htaken
          · exact Or.inl (hkept.trans (reactivated_strToken call _))
          · exact Or.inr (List.mem_append_right _ htaken)
        · rw [if_neg herr] at hresult
          cases hresult
          exact Or.inl (reactivated_strToken call _)
      | false =>
        rw [hrefused, if_neg Bool.false_ne_true] at hfinal
        rw [loginAndRetry_of_not_refused _ hrefused] at hresult
        rw [hfinal]
        rcases finish_strToken hresult with hkept | htaken
        · rw [hkept, activated_strToken]
          rcases hserver with hempty | hreturned
          · exact Or.inl hempty
          · exact Or.inr (List.mem_append_left _ hreturned)
        · exact Or.inr (List.mem_append_right _ htaken)

/-- A step keeps the token one of the server. -/
theorem fromServer_next {h h' : TokenHistory} {a : TokenAction} (hserver : FromServer h)
    (hnext : next env h a = some h') : FromServer h' := by
  cases a with
  | getToken call =>
    unfold next at hnext
    dsimp only at hnext
    cases hresult : TokenManager.getToken env call h.manager with
    | error e =>
      rw [hresult] at hnext
      cases hnext
    | ok r =>
      rw [hresult] at hnext
      cases hnext
      exact fromServer_getToken hserver hresult
  | invalidateToken =>
    cases hnext
    exact Or.inl rfl

/-- Where every call of a run is answered so, every call keeps the promise. The run begins
without a token. -/
theorem along_contract {s : TokenManager} (actions : List TokenAction) (hs : s.strToken = "")
    (h : Lib.Along (next env) (Answered env) ⟨s, []⟩ actions) :
    Lib.Along (next env) (KeepsContract env) ⟨s, []⟩ actions := by
  refine Lib.Along.imp_inv (fun h a h' hserver _ hnext => fromServer_next hserver hnext) ?_
    (Or.inl hs) h
  intro h a hserver hanswered
  cases a with
  | getToken call => exact (contract_iff call hserver).2 hanswered
  | invalidateToken => trivial

/-- A device in UTC, with a margin of ten percent. -/
def deviceEnv : TokenManagerEnv where
  dbl := ⟨fun _ => "", fun _ => none⟩
  zone := ⟨fun _ => 0, fun _ => by omega⟩
  logsCritical := true
  nMarginPercent := 10
  encryptPasscode _ strPassCode := strPassCode
  mktime _ := none

/-- An activated device, before its first login. -/
def activatedDevice : TokenManager where
  strToken := ""
  ullTokenIssuedOn := 0
  ullActivationTime := 0
  ullTokenTTL := 0
  lTokenIssueTime := 0
  localConfig key := if key = "login" ∨ key = "passcode" then "device" else ""
  activation := ⟨true, .eNO_ERROR, ""⟩

/-- A call in which every login is answered alike, and no activation is made. -/
def callWith (reply : ServerReply) : TokenCall :=
  let noAttempt : ActivationAttempt := ⟨false, "", .eERR_OK, 0, "", "", 0⟩
  ⟨reply.ullMonotonicTimeMs, noAttempt, reply, noAttempt, reply⟩

/-- The whole call is answered so if each of its logins is. -/
theorem answered_callWith {reply : ServerReply} (hreply : AnsweredBy env reply)
    (h : TokenHistory) : Answered env h (.getToken (callWith reply)) := by
  intro reply' hfinal
  unfold finalLogin at hfinal
  split at hfinal
  · cases hfinal
  · split at hfinal
    · split at hfinal
      · cases hfinal
        exact hreply
      · cases hfinal
    · cases hfinal
      exact hreply

theorem along_contract_example :
    let reply : ServerReply := ⟨.eERR_OK, ⟨.eERR_OK, 200, [],
      "\x7b\"access_token\":\"h.eyJpYXQiOjAsImV4cCI6OX0.s\"\x7d".toList⟩, 100⟩
    let noNetwork : ServerReply := ⟨.eERR_NETWORK, .reset, 9000⟩
    Lib.Along (next deviceEnv) (KeepsContract deviceEnv) ⟨activatedDevice, []⟩
      [.getToken (callWith reply), .getToken (callWith reply), .getToken (callWith noNetwork),
        .invalidateToken, .getToken (callWith reply)] := by
  intro reply noNetwork
  have hreply : AnsweredBy deviceEnv reply := by decide +kernel
  have hnone : AnsweredBy deviceEnv noNetwork := Or.inl nofun
  apply along_contract
  · rfl
  · apply Lib.along_of_forall_mem
    intro a ha h
    simp only [List.mem_cons, List.not_mem_nil, or_false] at ha
    rcases ha with rfl | rfl | rfl | rfl | rfl
    · exact answered_callWith hreply h
    · exact answered_callWith hreply h
    · exact answered_callWith hnone h
    · trivial
    · exact answered_callWith hreply h

/-- A login with a status that is no error to the session: the call returns the empty token,
and no error. -/
theorem not_along_contract_forbidden : ¬∀ (env : TokenManagerEnv) (s : TokenManager)
    (actions : List TokenAction), s.strToken = "" →
    Lib.Along (next env) (KeepsContract env) ⟨s, []⟩ actions := by
  intro hall
  have hkeeps := (hall deviceEnv activatedDevice
    [.getToken (callWith ⟨.eERR_OK, ⟨.eERR_OK, 403, [], []⟩, 0⟩)] rfl).1
  obtain ⟨strToken, reSessionErr, s, hresult, hcontract⟩ := hkeeps
  have hreturned : TokenManager.getToken deviceEnv
      (callWith ⟨.eERR_OK, ⟨.eERR_OK, 403, [], []⟩, 0⟩) activatedDevice =
      .ok ("", .eERR_OK, activatedDevice) := rfl
  rw [hreturned] at hresult
  cases hresult
  exact (hcontract.valid rfl).1 rfl

end TokenManager

end DeviceClient
