import DeviceClient.Auth.TokenManager
import DeviceClient.Util.JsonWriter
import DeviceClient.Lib.Run
import Mathlib.Logic.Function.Basic

/-!
# Login and passcode across restarts

The writes of `CLocalConfig` that an activation and `InvalidatePassCode` make, one at a
time: the process can stop between any two of them, and a new one starts with what is
stored.

* `safe_activationWrites_iff`: what the writes of an activation need to be sound.
* `exec_consistent`: a run keeps login and passcode of one response if no activation meets
  the passcode of another one.
-/

namespace DeviceClient

/-- A write of `CLocalConfig`, `ClearTables`, or the end of the process. -/
inductive ConfigWrite where
  | set (strKey strValue : String)
  | remove (strKey : String)
  | clearTables
  | quickExit
deriving DecidableEq

/-- What is stored, the writes that are left of the call, the response that is processed,
and the one that the stored login comes from. -/
structure Credentials where
  localConfig : String → String
  pending : List ConfigWrite
  response : Option ActivationAttempt
  loginOf : Option ActivationAttempt

structure CredentialsEnv where
  /-- The passcode key of a device id, and the encryption under it. -/
  encryptPasscode : String → String → String
  dbl : DoubleText

inductive CredentialsStep where
  /-- `Activate`. -/
  | activate (a : ActivationAttempt)
  /-- `InvalidatePassCode`, behind a refused login. -/
  | invalidatePassCode
  /-- The next write of the call. -/
  | write
  /-- The process stops and starts again. -/
  | restart

namespace Credentials

/-- Nothing is stored. -/
def init : Credentials := ⟨fun _ => "", [], none, none⟩

/-- `IsActivated`. -/
def isActivated (s : Credentials) : Bool :=
  s.localConfig "login" ≠ "" && s.localConfig "passcode" ≠ ""

variable (env : CredentialsEnv)

/-! ## The writes of a call -/

/-- `Activate` goes on with the response of the server. -/
def accepted (a : ActivationAttempt) : Bool :=
  a.proceed && a.strQualifierID ≠ "NOT_AVAILABLE" && a.strQualifierID ≠ "" &&
    a.eHttpSessionErrCode = .eERR_OK && a.lHttpRespCode = 200

/-- The text of `PersistActivationStatus`. -/
def activationDetails (a : ActivationAttempt) : String :=
  JsonText.write env.dbl (.object [("deviceId", .string a.strDeviceID), ("status", .int 1),
    ("vin", .string a.strQualifierID)])

/-- `CDisassociationRequestHandler::Handle`, with `RestartAnalytics`. -/
def handle : List ConfigWrite :=
  [.remove "ICP.ActivationStatus", .set "deviceDisassociated" "true",
    .set "ICP.ICRunningStatus" (JsonText.write env.dbl (.object [("state", .int 1)])), .quickExit]

/-- The part of `ProcessActivationResponse` behind the device id. -/
def passcodeWrites (a : ActivationAttempt) : List ConfigWrite :=
  [.set "passcode" (env.encryptPasscode a.strDeviceID a.strPassCode),
    .set "ICP.ActivationStatus" (activationDetails env a)]

/-- The part about the last device id. -/
def lastDeviceWrites (a : ActivationAttempt) (strLastDeviceId : String) : List ConfigWrite :=
  if strLastDeviceId = a.strDeviceID then []
  else .set "lastDeviceId" a.strDeviceID :: if strLastDeviceId = "" then [] else handle env

/-- `ProcessActivationResponse`, of a response with status 200. -/
def activationWrites (a : ActivationAttempt) (localConfig : String → String) :
    List ConfigWrite :=
  .remove "activationTS" :: .set "login" a.strDeviceID ::
    (lastDeviceWrites env a (localConfig "lastDeviceId") ++ passcodeWrites env a)

/-- The start of the process, which clears the tables of a device that was disassociated. -/
def startWrites (localConfig : String → String) : List ConfigWrite :=
  if localConfig "deviceDisassociated" = "true" then [.clearTables] else []

/-! ## Steps -/

/-- What is stored behind a write. -/
def store : ConfigWrite → (String → String) → String → String
  | .set strKey strValue, localConfig => Function.update localConfig strKey strValue
  | .remove strKey, localConfig => Function.update localConfig strKey ""
  | .clearTables, _ => fun _ => ""
  | .quickExit, localConfig => localConfig

/-- The response that the login comes from behind a write. -/
def loginSource (s : Credentials) : ConfigWrite → Option ActivationAttempt
  | .set strKey _ => if strKey = "login" then s.response else s.loginOf
  | .remove strKey => if strKey = "login" then none else s.loginOf
  | .clearTables => none
  | .quickExit => s.loginOf

def perform (w : ConfigWrite) (s : Credentials) : Credentials :=
  { s with localConfig := store w s.localConfig, loginOf := s.loginSource w }

def restart (s : Credentials) : Credentials := { s with pending := startWrites s.localConfig }

def next (s : Credentials) : CredentialsStep → Option Credentials
  | .activate a =>
    if s.pending = [] ∧ s.isActivated = false then
      some { s with
        pending := if accepted a then activationWrites env a s.localConfig else []
        response := some a }
    else none
  | .invalidatePassCode =>
    if s.pending = [] then some { s with pending := [.remove "login", .remove "passcode"] }
    else none
  | .write =>
    match s.pending with
    | [] => none
    | .quickExit :: _ => some s.restart
    | w :: ws => some { s.perform w with pending := ws }
  | .restart => some s.restart

/-! ## Login and passcode of one response -/

/-- Where the device counts as activated, the passcode is that of the response that the
login comes from. -/
def Consistent (s : Credentials) : Prop :=
  s.isActivated = true → ∃ a, s.loginOf = some a ∧ s.localConfig "login" = a.strDeviceID ∧
    s.localConfig "passcode" = env.encryptPasscode a.strDeviceID a.strPassCode

/-- An accepted response without a device id, or one that meets no passcode, or no other
than its own. -/
def NoOtherPasscode (s : Credentials) : CredentialsStep → Prop
  | .activate a => accepted a = true → a.strDeviceID = "" ∨ s.localConfig "passcode" = "" ∨
      s.localConfig "passcode" = env.encryptPasscode a.strDeviceID a.strPassCode
  | _ => True

/-- Every state on the way through the writes is consistent. -/
def Safe : List ConfigWrite → Credentials → Prop
  | [], s => Consistent env s
  | w :: ws, s => Consistent env s ∧ Safe ws (s.perform w)

/-- A write of another key than the two. -/
def other : ConfigWrite → Bool
  | .set strKey _ => strKey ≠ "login" && strKey ≠ "passcode"
  | .remove strKey => strKey ≠ "login" && strKey ≠ "passcode"
  | .clearTables => false
  | .quickExit => true

variable {env}

theorem consistent_of_not_isActivated {s : Credentials} (h : s.isActivated = false) :
    Consistent env s := by
  intro hactivated
  rw [h] at hactivated
  exact absurd hactivated Bool.false_ne_true

theorem isActivated_eq_false {s : Credentials} :
    s.isActivated = false ↔ s.localConfig "login" = "" ∨ s.localConfig "passcode" = "" := by
  simp only [isActivated, Bool.and_eq_false_iff, decide_eq_false_iff_not, not_not]

theorem isActivated_eq_true {s : Credentials} :
    s.isActivated = true ↔ s.localConfig "login" ≠ "" ∧ s.localConfig "passcode" ≠ "" := by
  simp only [isActivated, Bool.and_eq_true, decide_eq_true_eq]

/-- Consistency reads the two values and the source of the login only. -/
theorem consistent_congr {s t : Credentials} (hlogin : s.localConfig "login" = t.localConfig "login")
    (hpasscode : s.localConfig "passcode" = t.localConfig "passcode")
    (hloginOf : s.loginOf = t.loginOf) : Consistent env s ↔ Consistent env t := by
  simp only [Consistent, isActivated, hlogin, hpasscode, hloginOf]

theorem set_self (strKey strValue : String) (s : Credentials) :
    (s.perform (.set strKey strValue)).localConfig strKey = strValue := by
  show Function.update s.localConfig strKey strValue strKey = strValue
  exact Function.update_self strKey strValue s.localConfig

theorem set_of_ne {strKey key : String} (h : key ≠ strKey) (strValue : String) (s : Credentials) :
    (s.perform (.set strKey strValue)).localConfig key = s.localConfig key := by
  show Function.update s.localConfig strKey strValue key = s.localConfig key
  exact Function.update_of_ne h strValue s.localConfig

/-! ## Writes of other keys -/

section Other

variable {w : ConfigWrite} {s : Credentials} (h : other w = true)
include h

theorem perform_login : (s.perform w).localConfig "login" = s.localConfig "login" := by
  cases w with
  | set k v =>
    simp only [other, Bool.and_eq_true, decide_eq_true_eq] at h
    exact Function.update_of_ne (Ne.symm h.1) v s.localConfig
  | remove k =>
    simp only [other, Bool.and_eq_true, decide_eq_true_eq] at h
    exact Function.update_of_ne (Ne.symm h.1) "" s.localConfig
  | clearTables => exact absurd h Bool.false_ne_true
  | quickExit => rfl

theorem perform_passcode : (s.perform w).localConfig "passcode" = s.localConfig "passcode" := by
  cases w with
  | set k v =>
    simp only [other, Bool.and_eq_true, decide_eq_true_eq] at h
    exact Function.update_of_ne (Ne.symm h.2) v s.localConfig
  | remove k =>
    simp only [other, Bool.and_eq_true, decide_eq_true_eq] at h
    exact Function.update_of_ne (Ne.symm h.2) "" s.localConfig
  | clearTables => exact absurd h Bool.false_ne_true
  | quickExit => rfl

theorem perform_loginOf : (s.perform w).loginOf = s.loginOf := by
  cases w with
  | set k v =>
    simp only [other, Bool.and_eq_true, decide_eq_true_eq] at h
    exact if_neg h.1
  | remove k =>
    simp only [other, Bool.and_eq_true, decide_eq_true_eq] at h
    exact if_neg h.1
  | clearTables => exact absurd h Bool.false_ne_true
  | quickExit => rfl

theorem consistent_perform : Consistent env (s.perform w) ↔ Consistent env s :=
  consistent_congr (perform_login h) (perform_passcode h) (perform_loginOf h)

end Other

theorem consistent_of_safe {ws : List ConfigWrite} {s : Credentials} (h : Safe env ws s) :
    Consistent env s := by
  cases ws with
  | nil => exact h
  | cons w ws => exact h.1

/-- Writes of other keys in front: what is behind them starts with the same two values. -/
theorem safe_other_append {ws vs : List ConfigWrite} (h : ∀ w ∈ ws, other w = true) :
    ∀ s : Credentials, ∃ t : Credentials, t.localConfig "login" = s.localConfig "login" ∧
      t.localConfig "passcode" = s.localConfig "passcode" ∧ t.loginOf = s.loginOf ∧
      (Safe env (ws ++ vs) s ↔ Consistent env s ∧ Safe env vs t) := by
  induction ws with
  | nil =>
    intro s
    refine ⟨s, rfl, rfl, rfl, ?_⟩
    exact ⟨fun hsafe => ⟨consistent_of_safe hsafe, hsafe⟩, fun hsafe => hsafe.2⟩
  | cons w ws ih =>
    intro s
    have hw : other w = true := h w List.mem_cons_self
    rcases ih (fun v hv => h v (List.mem_cons_of_mem w hv)) (s.perform w) with
      ⟨t, hlogin, hpasscode, hloginOf, hsafe⟩
    refine ⟨t, hlogin.trans (perform_login hw), hpasscode.trans (perform_passcode hw),
      hloginOf.trans (perform_loginOf hw), ?_⟩
    rw [List.cons_append, Safe, hsafe, consistent_perform hw]
    exact ⟨fun hboth => hboth.2, fun hboth => ⟨hboth.1, hboth⟩⟩

/-! ## The writes of an activation -/

theorem other_of_mem_lastDeviceWrites {a : ActivationAttempt} {strLastDeviceId : String}
    {w : ConfigWrite} (h : w ∈ lastDeviceWrites env a strLastDeviceId) : other w = true := by
  have hall : ∀ v ∈ ConfigWrite.set "lastDeviceId" a.strDeviceID :: handle env,
      other v = true := by
    intro v hv
    simp only [handle, List.mem_cons, List.not_mem_nil, or_false] at hv
    rcases hv with rfl | rfl | rfl | rfl | rfl <;> rfl
  unfold lastDeviceWrites at h
  split_ifs at h with hsame hnone
  · exact absurd h List.not_mem_nil
  · rw [List.mem_singleton] at h
    exact hall w (h ▸ List.mem_cons_self)
  · exact hall w h

/-- The passcode comes last, behind the login of the same response. -/
theorem safe_passcodeWrites {a : ActivationAttempt} {s : Credentials}
    (hlogin : s.localConfig "login" = a.strDeviceID) (hloginOf : s.loginOf = some a) :
    Safe env (passcodeWrites env a) s ↔ Consistent env s := by
  have hstored : Consistent env
      (s.perform (.set "passcode" (env.encryptPasscode a.strDeviceID a.strPassCode))) := by
    intro _
    refine ⟨a, hloginOf, ?_, set_self "passcode" _ s⟩
    rw [set_of_ne (by decide)]
    exact hlogin
  refine ⟨fun hsafe => hsafe.1, fun hs => ⟨hs, hstored, ?_⟩⟩
  exact (consistent_perform rfl).2 hstored

/-- A state with the login of a response, and any passcode. -/
theorem consistent_iff_of_loginOf {a : ActivationAttempt} {s : Credentials}
    (hlogin : s.localConfig "login" = a.strDeviceID) (hloginOf : s.loginOf = some a) :
    Consistent env s ↔ a.strDeviceID = "" ∨ s.localConfig "passcode" = "" ∨
      s.localConfig "passcode" = env.encryptPasscode a.strDeviceID a.strPassCode := by
  constructor
  · intro hs
    by_cases hid : a.strDeviceID = ""
    · exact Or.inl hid
    by_cases hpasscode : s.localConfig "passcode" = ""
    · exact Or.inr (Or.inl hpasscode)
    rcases hs (isActivated_eq_true.2 ⟨hlogin ▸ hid, hpasscode⟩) with ⟨b, hb, -, hstored⟩
    rw [hloginOf] at hb
    cases hb
    exact Or.inr (Or.inr hstored)
  · rintro (hid | hpasscode | hstored)
    · exact consistent_of_not_isActivated (isActivated_eq_false.2 (Or.inl (hlogin.trans hid)))
    · exact consistent_of_not_isActivated (isActivated_eq_false.2 (Or.inr hpasscode))
    · exact fun _ => ⟨a, hloginOf, hlogin, hstored⟩

/-- Between the login and the passcode of a response the old passcode counts: the writes
are sound if and only if there is none, or the same one. -/
theorem safe_activationWrites_iff {a : ActivationAttempt} {s : Credentials}
    (hs : s.isActivated = false) (hresponse : s.response = some a) :
    Safe env (activationWrites env a s.localConfig) s ↔
      a.strDeviceID = "" ∨ s.localConfig "passcode" = "" ∨
        s.localConfig "passcode" = env.encryptPasscode a.strDeviceID a.strPassCode := by
  let u : Credentials := (s.perform (.remove "activationTS")).perform (.set "login" a.strDeviceID)
  have hlogin : u.localConfig "login" = a.strDeviceID := set_self "login" a.strDeviceID _
  have hloginOf : u.loginOf = some a := hresponse
  have hpasscode : u.localConfig "passcode" = s.localConfig "passcode" := by
    have hfirst : "passcode" ≠ "login" := by decide
    exact (set_of_ne hfirst a.strDeviceID _).trans (perform_passcode rfl)
  have hfirst : Consistent env s := consistent_of_not_isActivated hs
  have hsecond : Consistent env (s.perform (.remove "activationTS")) :=
    (consistent_perform rfl).2 hfirst
  have hothers : ∀ w ∈ lastDeviceWrites env a (s.localConfig "lastDeviceId"), other w = true :=
    fun w hw => other_of_mem_lastDeviceWrites hw
  rcases safe_other_append hothers u with
    ⟨t, htlogin, htpasscode, htloginOf, hsafe⟩
  have hrest : Safe env (activationWrites env a s.localConfig) s ↔
      Safe env (lastDeviceWrites env a (s.localConfig "lastDeviceId") ++ passcodeWrites env a) u :=
    ⟨fun h => h.2.2, fun h => ⟨hfirst, hsecond, h⟩⟩
  have ht : Safe env (passcodeWrites env a) t ↔ Consistent env u := by
    rw [safe_passcodeWrites (htlogin.trans hlogin) (htloginOf.trans hloginOf)]
    exact consistent_congr htlogin htpasscode htloginOf
  rw [hrest, hsafe, ht, and_self, consistent_iff_of_loginOf hlogin hloginOf, hpasscode]

/-- Without a restart, the writes come to what `ProcessActivationResponse` stores. -/
theorem store_activationWrites (tmEnv : TokenManagerEnv) (a : ActivationAttempt)
    (s : TokenManager) {strKey : String}
    (hencrypt : tmEnv.encryptPasscode = env.encryptPasscode) (hcode : a.lHttpRespCode = 200)
    (hlast : s.localConfig "lastDeviceId" = "" ∨ s.localConfig "lastDeviceId" = a.strDeviceID)
    (hkey : strKey ≠ "ICP.ActivationStatus") :
    (activationWrites env a s.localConfig).foldl (fun localConfig w => store w localConfig)
      s.localConfig strKey =
      (TokenManager.processActivationResponse tmEnv a s).2.localConfig strKey := by
  have hlogin : "lastDeviceId" ≠ "login" := by decide
  have htime : "lastDeviceId" ≠ "activationTS" := by decide
  unfold TokenManager.processActivationResponse
  rw [if_pos hcode]
  by_cases hsame : s.localConfig "lastDeviceId" = a.strDeviceID
  · simp [activationWrites, lastDeviceWrites, passcodeWrites, store, TokenManager.set,
      TokenManager.setActivationState, hsame, hencrypt, hkey, hlogin, htime]
  · have hnone : s.localConfig "lastDeviceId" = "" := hlast.resolve_right hsame
    have hid : a.strDeviceID ≠ "" := fun hid => hsame (hnone.trans hid.symm)
    simp [activationWrites, lastDeviceWrites, passcodeWrites, store, TokenManager.set,
      TokenManager.setActivationState, hencrypt, hkey, hlogin, htime, hnone, Ne.symm hid]

/-! ## Every run -/

/-- Every state on the way through the writes that are left is consistent. -/
def Inv (env : CredentialsEnv) (s : Credentials) : Prop := Safe env s.pending s

/-- The writes that are left play no part in what the others bring about. -/
theorem safe_withPending (ws vs : List ConfigWrite) :
    ∀ s : Credentials, Safe env ws { s with pending := vs } ↔ Safe env ws s := by
  induction ws with
  | nil =>
    intro s
    exact consistent_congr rfl rfl rfl
  | cons w ws ih =>
    intro s
    exact and_congr (consistent_congr rfl rfl rfl) (ih (s.perform w))

theorem inv_init : Inv env init := by
  have hnone : init.isActivated = false := rfl
  exact consistent_of_not_isActivated hnone

theorem inv_restart {s : Credentials} (h : Consistent env s) : Inv env s.restart := by
  unfold Inv restart startWrites
  refine (safe_withPending _ _ s).2 ?_
  dsimp only
  split_ifs
  · exact ⟨h, consistent_of_not_isActivated (isActivated_eq_false.2 (Or.inl rfl))⟩
  · exact h

theorem inv_activate {a : ActivationAttempt} {s : Credentials} (hs : s.isActivated = false)
    (hok : NoOtherPasscode env s (.activate a)) :
    Inv env { s with
      pending := if accepted a then activationWrites env a s.localConfig else []
      response := some a } := by
  refine (safe_withPending _ _ { s with response := some a }).2 ?_
  dsimp only
  split_ifs with haccepted
  · exact (safe_activationWrites_iff (s := { s with response := some a }) hs rfl).2
      (hok haccepted)
  · exact consistent_of_not_isActivated hs

/-- The login goes first: behind it the device does not count as activated. -/
theorem inv_invalidatePassCode {s : Credentials} (h : Consistent env s) :
    Inv env { s with pending := [.remove "login", .remove "passcode"] } := by
  refine (safe_withPending _ _ s).2 ⟨h, ?_, ?_⟩
  · exact consistent_of_not_isActivated (isActivated_eq_false.2 (Or.inl rfl))
  · exact consistent_of_not_isActivated (isActivated_eq_false.2 (Or.inl rfl))

theorem inv_write {w : ConfigWrite} {ws : List ConfigWrite} {s : Credentials}
    (hpending : s.pending = w :: ws) (h : Inv env s) :
    Inv env { s.perform w with pending := ws } := by
  unfold Inv at h
  rw [hpending] at h
  exact (safe_withPending ws ws (s.perform w)).2 h.2

theorem inv_next {s s' : Credentials} {step : CredentialsStep} (hs : Inv env s)
    (hok : NoOtherPasscode env s step) (h : next env s step = some s') : Inv env s' := by
  have hnow : Consistent env s := consistent_of_safe hs
  cases step with
  | activate a =>
    unfold next at h
    dsimp only at h
    by_cases hidle : s.pending = [] ∧ s.isActivated = false
    · rw [if_pos hidle] at h
      cases h
      exact inv_activate hidle.2 hok
    · rw [if_neg hidle] at h
      cases h
  | invalidatePassCode =>
    unfold next at h
    dsimp only at h
    split_ifs at h with hidle
    cases h
    exact inv_invalidatePassCode hnow
  | write =>
    unfold next at h
    dsimp only at h
    split at h
    · cases h
    · cases h
      exact inv_restart hnow
    · cases h
      -- a write of the call that is left
      exact inv_write ‹_› hs
  | restart =>
    cases h
    exact inv_restart hnow

/-- Whatever activations, re-activations and restarts come, also between two writes: where
the device counts as activated, login and passcode are those of one response, if no
response met the passcode of another one. -/
theorem exec_consistent (steps : List CredentialsStep) (s : Credentials)
    (hok : Lib.Along (next env) (NoOtherPasscode env) init steps)
    (hrun : Lib.exec (next env) init steps = some s) : Consistent env s :=
  consistent_of_safe (Lib.exec_inv (fun _ _ _ => inv_next) steps init s inv_init hok hrun)

/-! ## An old passcode -/

instance (env : CredentialsEnv) (s : Credentials) :
    ∀ step, Decidable (NoOtherPasscode env s step)
  | .activate a => inferInstanceAs (Decidable (accepted a = true → a.strDeviceID = "" ∨
      s.localConfig "passcode" = "" ∨
      s.localConfig "passcode" = env.encryptPasscode a.strDeviceID a.strPassCode))
  | .invalidatePassCode => .isTrue trivial
  | .write => .isTrue trivial
  | .restart => .isTrue trivial

/-- A cipher that writes the device id in front of the passcode. -/
def plainEnv : CredentialsEnv where
  encryptPasscode strDeviceID strPassCode := strDeviceID ++ ":" ++ strPassCode
  dbl := ⟨fun _ => "", fun _ => none⟩

/-- The response of the server with a device id and a passcode. -/
def answered (strDeviceID strPassCode : String) : ActivationAttempt where
  proceed := true
  strQualifierID := "VIN"
  eHttpSessionErrCode := .eERR_OK
  lHttpRespCode := 200
  strDeviceID := strDeviceID
  strPassCode := strPassCode
  ullMonotonicTimeMs := 0

/-- A first activation, and a second one behind a refused login, each with a restart on the
way. -/
def carefulRun : List CredentialsStep :=
  [.activate (answered "D1" "p"), .write, .write, .restart,
    .activate (answered "D1" "q"), .write, .write, .write, .write, .write,
    .invalidatePassCode, .write, .write, .restart,
    .activate (answered "D1" "r"), .write, .write, .write, .write]

theorem exec_consistent_careful : ∃ s, Lib.exec (next plainEnv) init carefulRun = some s ∧
    s.isActivated = true ∧ Consistent plainEnv s := by
  have hok : Lib.Along (next plainEnv) (NoOtherPasscode plainEnv) init carefulRun := by
    decide +kernel
  have hend : ((Lib.exec (next plainEnv) init carefulRun).map isActivated) = some true := by
    decide +kernel
  rcases Option.map_eq_some_iff.1 hend with ⟨s, hrun, hactivated⟩
  exact ⟨s, hrun, hactivated, exec_consistent carefulRun s hok hrun⟩

/-- The process stops between the two removals of `InvalidatePassCode`: the login of the
next response stands before the old passcode. -/
def interruptedRun : List CredentialsStep :=
  [.activate (answered "D1" "p"), .write, .write, .write, .write, .write,
    .invalidatePassCode, .write, .restart,
    .activate (answered "D2" "q"), .write, .write]

theorem not_consistent_interrupted :
    ∃ s, Lib.exec (next plainEnv) init interruptedRun = some s ∧ ¬ Consistent plainEnv s := by
  have hend : ((Lib.exec (next plainEnv) init interruptedRun).map fun s =>
      (s.localConfig "login", s.localConfig "passcode", s.loginOf.map fun a =>
        (a.strDeviceID, a.strPassCode))) = some ("D2", "D1:p", some ("D2", "q")) := by
    decide +kernel
  rcases Option.map_eq_some_iff.1 hend with ⟨s, hrun, hs⟩
  rw [Prod.mk.injEq, Prod.mk.injEq] at hs
  rcases hs with ⟨hlogin, hpasscode, hloginOf⟩
  refine ⟨s, hrun, fun hconsistent => ?_⟩
  have hactivated : s.isActivated = true := by
    rw [isActivated_eq_true, hlogin, hpasscode]
    decide
  rcases hconsistent hactivated with ⟨a, ha, -, hstored⟩
  rw [ha, Option.map_some, Option.some.injEq, Prod.mk.injEq] at hloginOf
  rw [hpasscode, hloginOf.1, hloginOf.2] at hstored
  exact absurd hstored (by decide)

end Credentials

end DeviceClient
