import DeviceClient.Auth.TokenManager
import DeviceClient.Lib.Decimal

/-!
# The time of the activation

The server tells its time with a token only, so the time of an activation is reckoned at
the login behind it: the time of the token less the time that a monotonic clock has gone
on since. The clock's reading at the activation is a member and does not outlast the
process; that the time is still to be reckoned does, as an empty stored value.

* `marked_foldl`: the members between the activation and the login.
* `activationTS_foldl`: the stored time stays until the next activation.
* `activationTime_iff`: when it is the right one.
-/

namespace DeviceClient

/-- What happens to the token manager. The constructor may be followed by an activation. -/
inductive ManagerStep
  | activate (a : ActivationAttempt)
  | login (reply : AuthTokenAPI.ServerReply)
  | invalidate
  | restart

namespace TokenManager

open AuthTokenAPI

/-- The process starts again: the constructor, with the stored values as they are. -/
def restart (s : TokenManager) : TokenManager where
  strToken := ""
  ullTokenIssuedOn := 0
  ullActivationTime := 0
  ullTokenTTL := 0
  lTokenIssueTime := 0
  localConfig := s.localConfig
  activation := ⟨false, .eNO_ERROR, ""⟩

variable (env : TokenManagerEnv)

def step (s : TokenManager) : ManagerStep → TokenManager
  | .activate a => (activate env a s).2
  | .login reply =>
    match getAuthToken env reply s with
    | .ok (_, _, s) => s
    | .error _ => s
  | .invalidate => s.invalidateToken.invalidatePassCode
  | .restart => s.restart

/-- An activation that goes out and is answered with the status 200. -/
def Activates (a : ActivationAttempt) : Prop :=
  a.proceed = true ∧ ¬ (a.strQualifierID = "NOT_AVAILABLE" ∨ a.strQualifierID = "") ∧
    a.eHttpSessionErrCode = .eERR_OK ∧ a.lHttpRespCode = 200

/-- A login that brings a token. -/
def LogsIn (reply : ServerReply) (resp : AuthResponse) : Prop :=
  fetchAuthToken env.toTokenEnv reply = .ok resp ∧ resp.eHttpSessionErrCode = .eERR_OK ∧
    resp.lHttpRespCode = 200

/-- A step that is no successful activation. -/
def NoActivation (step : ManagerStep) : Prop := ∀ a, step = .activate a → ¬ Activates a

/-- A step that is no successful activation or login. -/
def Waits (step : ManagerStep) : Prop :=
  NoActivation step ∧ ∀ reply resp, step = .login reply → ¬ LogsIn env reply resp

variable {env}

/-! ## Single steps -/

theorem activate_of_activates {a : ActivationAttempt} (h : Activates a) (s : TokenManager) :
    (activate env a s).2 = (processActivationResponse env a s).2 := by
  obtain ⟨hproceed, hqualifier, hok, -⟩ := h
  unfold activate
  rw [if_neg (by simp [hproceed]), if_neg hqualifier, if_pos hok]

/-- An activation empties the stored time and reads the clock. -/
theorem activates_spec {a : ActivationAttempt} (h : Activates a) (s : TokenManager) :
    (s.step env (.activate a)).localConfig "activationTS" = "" ∧
      (s.step env (.activate a)).ullActivationTime = a.ullMonotonicTimeMs := by
  show (activate env a s).2.localConfig "activationTS" = "" ∧
    (activate env a s).2.ullActivationTime = a.ullMonotonicTimeMs
  rw [activate_of_activates h]
  unfold processActivationResponse
  rw [if_pos h.2.2.2]
  dsimp only
  split <;> simp [set, setActivationState]

/-- An activation that fails leaves both. -/
theorem activate_of_not_activates {a : ActivationAttempt} (h : ¬ Activates a) (s : TokenManager) :
    (activate env a s).2.localConfig = s.localConfig ∧
      (activate env a s).2.ullActivationTime = s.ullActivationTime := by
  unfold activate
  split
  · exact ⟨rfl, rfl⟩
  · next hproceed =>
    split
    · exact ⟨rfl, rfl⟩
    · next hqualifier =>
      split
      · next hok =>
        have hstatus : a.lHttpRespCode ≠ 200 := by
          intro hstatus
          exact h ⟨by simpa using hproceed, hqualifier, hok, hstatus⟩
        unfold processActivationResponse
        rw [if_neg hstatus]
        exact ⟨rfl, rfl⟩
      · exact ⟨rfl, rfl⟩

/-- A login leaves the stored values unless it brings a token. -/
theorem getAuthToken_of_not_logsIn {reply : ServerReply} (h : ∀ resp, ¬ LogsIn env reply resp)
    (s : TokenManager) :
    (s.step env (.login reply)).localConfig = s.localConfig ∧
      (s.step env (.login reply)).ullActivationTime = s.ullActivationTime := by
  unfold step getAuthToken
  dsimp only
  cases hresp : fetchAuthToken env.toTokenEnv reply with
  | error e => exact ⟨rfl, rfl⟩
  | ok resp =>
    dsimp only
    by_cases hok : resp.eHttpSessionErrCode = .eERR_OK
    · have hstatus : resp.lHttpRespCode ≠ 200 := fun hstatus => h resp ⟨hresp, hok, hstatus⟩
      rw [if_pos hok, if_neg hstatus]
      split
      · next heq =>
        split at heq
        · cases heq
          exact ⟨rfl, rfl⟩
        · split at heq <;>
          · cases heq
            exact ⟨rfl, rfl⟩
      · exact ⟨rfl, rfl⟩
    · rw [if_neg hok]
      exact ⟨rfl, rfl⟩

/-- A login that brings a token stores it. -/
theorem step_of_logsIn {reply : ServerReply} {resp : AuthResponse} (h : LogsIn env reply resp)
    (s : TokenManager) : s.step env (.login reply) = storeToken env resp s := by
  obtain ⟨hresp, hok, hstatus⟩ := h
  unfold step getAuthToken
  dsimp only
  rw [hresp]
  dsimp only
  rw [if_pos hok, if_pos hstatus]

/-! ## Between the activation and the login -/

theorem step_of_waits {st : ManagerStep} (h : Waits env st) (s : TokenManager) :
    (s.step env st).localConfig "activationTS" = s.localConfig "activationTS" ∧
      (s.step env st).ullActivationTime =
        match st with
        | .restart => 0
        | _ => s.ullActivationTime := by
  obtain ⟨hactivation, hlogin⟩ := h
  cases st with
  | activate a =>
    obtain ⟨hconfig, htime⟩ := @activate_of_not_activates env a (hactivation a rfl) s
    exact ⟨congrFun hconfig _, htime⟩
  | login reply =>
    obtain ⟨hconfig, htime⟩ := getAuthToken_of_not_logsIn (fun resp => hlogin reply resp rfl) s
    exact ⟨congrFun hconfig _, htime⟩
  | invalidate =>
    refine ⟨?_, rfl⟩
    show (s.invalidateToken.invalidatePassCode).localConfig "activationTS" = _
    unfold invalidatePassCode invalidateToken set
    simp
  | restart => exact ⟨rfl, rfl⟩

/-- The stored time stays empty; the clock's reading stays unless the process restarts. -/
theorem marked_foldl {waiting : List ManagerStep} (hwaiting : ∀ st ∈ waiting, Waits env st)
    (s : TokenManager) :
    (waiting.foldl (step env) s).localConfig "activationTS" = s.localConfig "activationTS" ∧
      ((waiting.foldl (step env) s).ullActivationTime = s.ullActivationTime ∧
          ManagerStep.restart ∉ waiting ∨
        (waiting.foldl (step env) s).ullActivationTime = 0 ∧ ManagerStep.restart ∈ waiting) := by
  induction waiting generalizing s with
  | nil => exact ⟨rfl, Or.inl ⟨rfl, List.not_mem_nil⟩⟩
  | cons st rest ih =>
    obtain ⟨hst, hrest⟩ := List.forall_mem_cons.1 hwaiting
    obtain ⟨hstored, htime⟩ := step_of_waits hst s
    obtain ⟨hstored', hreading⟩ := ih hrest (s.step env st)
    refine ⟨hstored'.trans hstored, ?_⟩
    rw [List.foldl_cons]
    rcases hreading with ⟨hsame, hnone⟩ | ⟨hzero, hmem⟩
    · cases st with
      | restart => exact Or.inr ⟨hsame.trans htime, List.mem_cons_self⟩
      | _ => exact Or.inl ⟨hsame.trans htime, by simpa using hnone⟩
    · exact Or.inr ⟨hzero, List.mem_cons_of_mem _ hmem⟩

/-! ## At the login -/

theorem tokenIssuedOn_of_logsIn {reply : ServerReply} {resp : AuthResponse}
    (h : LogsIn env reply resp) : resp.ullTokenIssuedOn = reply.ullMonotonicTimeMs := by
  obtain ⟨hresp, hok, hstatus⟩ := h
  unfold fetchAuthToken at hresp
  dsimp only at hresp
  split at hresp
  · split at hresp
    · exact ((parseAPIResponse_cases hresp).2.resolve_left fun hne => hne hok).2
    · next hcode =>
      split at hresp
      · cases hresp
        exact absurd hstatus hcode
      · split at hresp <;>
        · cases hresp
          exact absurd hstatus hcode
  · next hreply =>
    cases hresp
    exact absurd hok hreply

/-- The first token behind an activation sets the time: the difference, in 64 bits. -/
theorem storeToken_activationTS {resp : AuthResponse} {lTime : ℤ}
    (htext : resp.strTokenTime ≠ []) (htime : env.mktime resp.strTokenTime = some lTime)
    {s : TokenManager} (hempty : s.localConfig "activationTS" = "") :
    (storeToken env resp s).localConfig "activationTS" =
      toString ((lTime * 1000 - (resp.ullTokenIssuedOn - s.ullActivationTime)) % 2 ^ 64).toNat := by
  unfold storeToken storeTokenTime
  rw [if_neg htext]
  unfold setTokenIssueTime
  rw [htime]
  dsimp only [shareToken, set, setActivationState]
  unfold storeActivationTime
  rw [if_pos (by simp [hempty])]
  simp [set]

/-- A token leaves a time that is set. -/
theorem storeToken_of_set (resp : AuthResponse) {s : TokenManager}
    (hset : s.localConfig "activationTS" ≠ "") :
    (storeToken env resp s).localConfig "activationTS" = s.localConfig "activationTS" := by
  have htimes : ∀ s : TokenManager, (storeTokenTime env resp s).localConfig "activationTS" =
      s.localConfig "activationTS" := by
    intro s
    unfold storeTokenTime setTokenIssueTime
    split
    · rfl
    · split <;> simp [set]
  have hkept := htimes (({ s with strToken := resp.strToken }).shareToken resp.strToken)
  unfold storeToken storeActivationTime
  dsimp only [setActivationState]
  rw [if_neg (by
    intro hempty
    exact hset (hkept.symm.trans hempty))]
  exact hkept

/-! ## Behind the login -/

/-- A time that is set stays until the next activation. -/
theorem activationTS_foldl {later : List ManagerStep} (hlater : ∀ st ∈ later, NoActivation st)
    {s : TokenManager} (hset : s.localConfig "activationTS" ≠ "") :
    (later.foldl (step env) s).localConfig "activationTS" = s.localConfig "activationTS" := by
  induction later generalizing s with
  | nil => rfl
  | cons st rest ih =>
    obtain ⟨hst, hrest⟩ := List.forall_mem_cons.1 hlater
    have hkept : (s.step env st).localConfig "activationTS" = s.localConfig "activationTS" := by
      by_cases hwaits : Waits env st
      · exact (step_of_waits hwaits s).1
      · -- no activation, so a login that brings a token
        unfold Waits at hwaits
        push Not at hwaits
        obtain ⟨reply, resp, rfl, hlogin⟩ := hwaits hst
        rw [step_of_logsIn hlogin]
        exact storeToken_of_set resp hset
    rw [List.foldl_cons, ih hrest (by rw [hkept]; exact hset), hkept]

/-- The stored time is `time`, from the login on through every later step. -/
def Stored (env : TokenManagerEnv) (s : TokenManager) (later : List ManagerStep) (time : ℤ) :
    Prop :=
  ∃ n : ℕ, (n : ℤ) = time ∧ ∀ seen, seen <+: later →
    (seen.foldl (step env) s).localConfig "activationTS" = toString n

/-- The first login behind an activation stores the server's time less what the clock has gone
on since, and it stays until the next activation, iff the process has not restarted in between
and the server's time is not behind the clock. -/
theorem activationTime_iff {a : ActivationAttempt} (hactivates : Activates a)
    (hreading : a.ullMonotonicTimeMs < 2 ^ 64) {waiting : List ManagerStep}
    (hwaiting : ∀ st ∈ waiting, Waits env st) {reply : ServerReply} {resp : AuthResponse}
    (hlogin : LogsIn env reply resp) {lTime : ℤ} (htext : resp.strTokenTime ≠ [])
    (htime : env.mktime resp.strTokenTime = some lTime) {later : List ManagerStep}
    (hlater : ∀ st ∈ later, NoActivation st) (s : TokenManager) :
    Stored env ((ManagerStep.activate a :: waiting ++ [ManagerStep.login reply]).foldl (step env) s)
        later
        (lTime * 1000 - (reply.ullMonotonicTimeMs - a.ullMonotonicTimeMs)) ↔
      (ManagerStep.restart ∉ waiting ∨ a.ullMonotonicTimeMs = 0) ∧
        0 ≤ lTime * 1000 - (reply.ullMonotonicTimeMs - a.ullMonotonicTimeMs) ∧
        lTime * 1000 - (reply.ullMonotonicTimeMs - a.ullMonotonicTimeMs) < 2 ^ 64 := by
  obtain ⟨hempty, hclock⟩ := @activates_spec env a hactivates s
  obtain ⟨hkept, hmember⟩ := marked_foldl hwaiting (s.step env (.activate a))
  generalize hbefore : waiting.foldl (step env) (s.step env (.activate a)) = before at hkept hmember
  have hrun : (ManagerStep.activate a :: waiting ++ [ManagerStep.login reply]).foldl (step env) s =
      storeToken env resp before := by
    rw [List.cons_append, List.foldl_cons, List.foldl_append, hbefore]
    exact step_of_logsIn hlogin before
  have hstored := storeToken_activationTS htext htime (hkept.trans hempty)
  rw [tokenIssuedOn_of_logsIn hlogin] at hstored
  rw [hrun]
  generalize hn : ((lTime * 1000 - (reply.ullMonotonicTimeMs - before.ullActivationTime)) %
    2 ^ 64 : ℤ).toNat = n at hstored
  have hset : (storeToken env resp before).localConfig "activationTS" ≠ "" := by
    rw [hstored]
    exact Lib.toString_ne_empty n
  have hall : ∀ seen, seen <+: later →
      (seen.foldl (step env) (storeToken env resp before)).localConfig "activationTS" =
        toString n := by
    intro seen hseen
    rw [activationTS_foldl (fun st hst => hlater st (hseen.subset hst)) hset, hstored]
  rw [hclock] at hmember
  constructor
  · rintro ⟨time, htarget, hsame⟩
    have heq : time = n :=
      Lib.toString_injective ((hsame [] List.nil_prefix).symm.trans (hall [] List.nil_prefix))
    rcases hmember with ⟨hsame, hnone⟩ | ⟨hzero, -⟩
    · exact ⟨Or.inl hnone, by omega⟩
    · exact ⟨Or.inr (by omega), by omega⟩
  · rintro ⟨hrestart, hlow, hhigh⟩
    refine ⟨n, ?_, hall⟩
    have hmember' : before.ullActivationTime = a.ullMonotonicTimeMs := by
      rcases hmember with ⟨hsame, -⟩ | ⟨hzero, hmem⟩
      · exact hsame
      · exact hzero.trans (hrestart.resolve_left fun hnone => hnone hmem).symm
    rw [hmember'] at hn
    omega

/-- A device in UTC, where the text of the token's time is that of 1700000000. -/
def clockEnv : TokenManagerEnv where
  dbl := ⟨fun _ => "", fun _ => none⟩
  zone := ⟨fun _ => 0, ZoneRule.utc_bounded⟩
  logsCritical := false
  nMarginPercent := 0
  encryptPasscode _ strPassCode := strPassCode
  mktime text := if text = "2023-11-14T22:13:20".toList then some 1700000000 else none

def emptyManager : TokenManager := ⟨"", 0, 0, 0, 0, fun _ => "", ⟨false, .eNO_ERROR, ""⟩⟩

/-- An activation at 1000 ms. -/
def firstActivation : ActivationAttempt := ⟨true, "VIN", .eERR_OK, 200, "device", "pass", 1000⟩

/-- A login at 61000 ms, with a token of 1700000000. -/
def firstLogin : ServerReply :=
  ⟨.eERR_OK, ⟨.eERR_OK, 200, [],
    "\x7b\"access_token\":\"h.eyJpYXQiOjE3MDAwMDAwMDAsImV4cCI6MTcwMDAwMzYwMH0.s\"\x7d".toList⟩, 61000⟩

def firstResponse : AuthResponse :=
  match fetchAuthToken clockEnv.toTokenEnv firstLogin with
  | .ok resp => resp
  | .error _ => .fresh

theorem logsIn_firstLogin : LogsIn clockEnv firstLogin firstResponse ∧
    firstResponse.strTokenTime = "2023-11-14T22:13:20".toList := by
  unfold LogsIn
  decide +kernel

theorem activationTime_iff_firstLogin :
    Stored clockEnv ((ManagerStep.activate firstActivation :: [ManagerStep.invalidate] ++
      [ManagerStep.login firstLogin]).foldl (step clockEnv) emptyManager) [.restart]
      (1700000000 * 1000 - (firstLogin.ullMonotonicTimeMs - firstActivation.ullMonotonicTimeMs)) := by
  obtain ⟨hlogin, htext⟩ := logsIn_firstLogin
  refine (@activationTime_iff clockEnv firstActivation ?_ ?_ [.invalidate] ?_ firstLogin
    firstResponse hlogin 1700000000 ?_ ?_ [.restart] ?_ emptyManager).2 ⟨?_, ?_, ?_⟩
  · unfold Activates
    decide
  · decide +kernel
  · intro st hst
    rw [List.mem_singleton] at hst
    rw [hst]
    exact ⟨fun a ha => ManagerStep.noConfusion ha, fun reply resp h => ManagerStep.noConfusion h⟩
  · rw [htext]
    decide
  · rw [htext]
    decide
  · intro st hst
    rw [List.mem_singleton] at hst
    rw [hst]
    exact fun a ha => ManagerStep.noConfusion ha
  · exact Or.inl (by simp)
  · decide +kernel
  · decide +kernel

/-- With a restart before the login the whole reading of the clock is taken off. -/
theorem not_activationTime_restart :
    ([ManagerStep.activate firstActivation, .restart,
      .login firstLogin].foldl (step clockEnv) emptyManager).localConfig "activationTS" =
        "1699999939000" ∧
      ¬ Stored clockEnv ([ManagerStep.activate firstActivation, .restart,
        .login firstLogin].foldl (step clockEnv) emptyManager) [] 1699999940000 := by
  have hstored : ([ManagerStep.activate firstActivation, .restart,
      .login firstLogin].foldl (step clockEnv) emptyManager).localConfig "activationTS" =
        "1699999939000" := by decide +kernel
  refine ⟨hstored, ?_⟩
  generalize [ManagerStep.activate firstActivation, .restart,
    .login firstLogin].foldl (step clockEnv) emptyManager = s at hstored
  rintro ⟨n, hn, hsame⟩
  have htext : toString n = "1699999939000" := (hsame [] List.nil_prefix).symm.trans hstored
  have hn' : n = 1699999940000 := by omega
  rw [hn'] at htext
  exact absurd htext (by decide +kernel)

end TokenManager

end DeviceClient
