import DeviceClient.Dam.CacheTransport
import DeviceClient.Lib.Run
import Mathlib.Data.List.Chain

/-!
# The session filter

`CSessionStatusHandler` follows the ignition and the session in the stream of
events. It drops a status that repeats the one before, and outside a session
every event that is neither an alert nor on the list of exceptions. With the
start-up type "self" an ignition status starts or ends the session, by a
`SessionStatus` event that comes back later as any other.

`passed` is history: each event with its fate, true for the next handler and
false for deletion. `raised` holds the events the handler sends itself, without
their timestamps and descriptive fields.

* `handled_of_handleEvent`: what the handler does with one event.
* `sessionFiltered_of_run`: the events forwarded in a run.
* `filters_iff`: all of that holds iff no field that the handler reads throws.
-/

namespace DeviceClient

/-! ## Data -/

section Fields

variable (valueToString : ℚ → String)

/-- `GetString`. -/
def WrappedEvent.getString (event : WrappedEvent) (rstrKey strDefaultValue : String) :
    Option String :=
  match event.jsonValue with
  | .null => some strDefaultValue
  | .object members =>
    match members.lookup rstrKey with
    -- the type of the member is not looked at: an array or an object throws
    | some value => value.asString valueToString
    | none => some strDefaultValue
  -- `isMember` throws on data of another type
  | _ => none

/-- `GetInt`. -/
def WrappedEvent.getInt (event : WrappedEvent) (rstrKey : String) (nDefaultValue : ℤ) : Option ℤ :=
  match event.jsonValue with
  | .null => some nDefaultValue
  | .object members =>
    match members.lookup rstrKey with
    -- a member that is no int counts as missing
    | some value => some (value.asIntOfInt.getD nDefaultValue)
    | none => some nDefaultValue
  | _ => none

end Fields

inductive IgnitionState
  | eIGNITION_OFF
  | eIGNITION_ON
  | eIGNITION_UNKNOWN
deriving DecidableEq

/-- The events that the handler sends. -/
inductive RaisedEvent
  | ignStatus (state : String)
  | firmwareVersion
  | sessionStatus (status : String)
deriving DecidableEq

structure SessionConfig where
  strStartupType : String
  m_pSetExceptionEvents : Option (Finset String)
  m_bGenIgnON : Bool
  m_bGenIgnOFF : Bool
  bStreamModeSupported : Bool
  isAlertId : String → Bool

structure SessionStatusHandler where
  m_bSessionInProgress : Bool
  m_eIgnState : IgnitionState
  m_eLastIgnStatus : IgnitionState
  passed : List (WrappedEvent × Bool)
  raised : List RaisedEvent

def IGNITION_EV_ID : String := "IgnStatus"
def SESSION_EV_ID : String := "SessionStatus"
def ERPM_EV_ID : String := "EngineRPM"
def RPM_EV_ID : String := "RPM"
def FIELD_STATE : String := "state"
def STATE_RUN : String := "run"
def STATE_OFF : String := "off"
def IGNITECLIENTLAUNCHED_EV_ID : String := "IgniteClientLaunched"
def STATE_STARTING : String := "starting"
def STATE_SHUTTINGDOWN : String := "shuttingdown"
def STARTUP_EXTERNAL : String := "external"
def STARTUP_SELF : String := "self"

namespace SessionStatusHandler

/-! ## The handler -/

/-- The constructor. -/
def init : SessionStatusHandler where
  m_bSessionInProgress := false
  m_eIgnState := .eIGNITION_UNKNOWN
  m_eLastIgnStatus := .eIGNITION_UNKNOWN
  passed := []
  raised := []

def raise (h : SessionStatusHandler) (event : RaisedEvent) : SessionStatusHandler :=
  { h with raised := h.raised ++ [event] }

/-- `m_pNextHandler->HandleEvent`. -/
def forward (h : SessionStatusHandler) (event : WrappedEvent) : SessionStatusHandler :=
  { h with passed := h.passed ++ [(event, true)] }

/-- `delete pEvent`. -/
def delete (h : SessionStatusHandler) (event : WrappedEvent) : SessionStatusHandler :=
  { h with passed := h.passed ++ [(event, false)] }

/-- `StartSession`. -/
def startSession (h : SessionStatusHandler) : SessionStatusHandler :=
  h.raise (.sessionStatus "startup")

/-- `EndSession`. -/
def endSession (h : SessionStatusHandler) : SessionStatusHandler :=
  h.raise (.sessionStatus "shutdown")

/-- The state that an ignition status names. -/
def ignitionState (strState : String) : IgnitionState :=
  if strState = STATE_RUN then .eIGNITION_ON else .eIGNITION_OFF

/-- `IsRepeatedIgnStatusEvnt`. -/
def isRepeatedIgnStatusEvnt (h : SessionStatusHandler) (rstrState : String) : Bool :=
  !rstrState.isEmpty && decide (h.m_eLastIgnStatus = ignitionState rstrState)

/-- `HandleIgnStatusEvent`. -/
def handleIgnStatusEvent (h : SessionStatusHandler) (rstrState : String) : SessionStatusHandler :=
  if rstrState.isEmpty then h
  else
    let h := { h with m_eLastIgnStatus := ignitionState rstrState }
    if rstrState = STATE_RUN then (h.raise .firmwareVersion).startSession else h.endSession

/-- `HandleIgniteClientLaunchedEvent`. -/
def handleIgniteClientLaunchedEvent (h : SessionStatusHandler) (rstrState : String) :
    SessionStatusHandler :=
  if rstrState = STATE_STARTING then h.startSession
  else if rstrState = STATE_SHUTTINGDOWN then h.endSession
  else h

/-- `IsRepeatedSessionStatusEvnt`. -/
def isRepeatedSessionStatusEvnt (h : SessionStatusHandler) (rbInProgress : Bool) : Bool :=
  decide (rbInProgress = h.m_bSessionInProgress)

section

variable (valueToString : ℚ → String) (cfg : SessionConfig)

/-- `SendIgnStatusEvent`. -/
def sendIgnStatusEvent (h : SessionStatusHandler) (rstrState : String) : SessionStatusHandler :=
  if (cfg.m_bGenIgnON && decide (rstrState = STATE_RUN)) ||
      (cfg.m_bGenIgnOFF && decide (rstrState = STATE_OFF)) then
    h.raise (.ignStatus rstrState)
  else h

/-- `GetRpmValue`. -/
def getRpmValue (event : WrappedEvent) : Option ℤ :=
  if event.strEventId = RPM_EV_ID then event.getInt "value" 0 else some 0

/-- `HandleRPMEvent`, for the value read. -/
def handleRpmValue (h : SessionStatusHandler) (nRpmValue : ℤ) : SessionStatusHandler :=
  if 0 < nRpmValue then
    if h.m_eIgnState ≠ .eIGNITION_ON then
      { h with m_eIgnState := .eIGNITION_ON }.sendIgnStatusEvent cfg STATE_RUN
    else h
  else if h.m_eIgnState ≠ .eIGNITION_OFF then
    { h with m_eIgnState := .eIGNITION_OFF }.sendIgnStatusEvent cfg STATE_OFF
  else h

/-- `IsRpmUsedForIgnStatus`. -/
def isRpmUsedForIgnStatus : Bool := cfg.m_bGenIgnON || cfg.m_bGenIgnOFF

/-- `IsRpmEvent`. -/
def isRpmEvent (rstrEventID : String) : Bool :=
  decide (cfg.strStartupType = STARTUP_SELF) &&
    (decide (rstrEventID = ERPM_EV_ID) || decide (rstrEventID = RPM_EV_ID))

/-- `IsIgniteClientLaunchedEvent`. -/
def isIgniteClientLaunchedEvent (rstrEventID : String) : Bool :=
  decide (cfg.strStartupType = STARTUP_EXTERNAL) &&
    decide (rstrEventID = IGNITECLIENTLAUNCHED_EV_ID)

/-- `IsIgnStatusEvent`. -/
def isIgnStatusEvent (rstrEventID : String) : Bool :=
  decide (cfg.strStartupType = STARTUP_SELF) && decide (rstrEventID = IGNITION_EV_ID)

/-- `IsAlert`. -/
def isAlert (rstrEventID : String) : Bool := cfg.bStreamModeSupported && cfg.isAlertId rstrEventID

/-- `IsExceptionEvent`: without a list every event is one. -/
def isExceptionEvent (rstrEventID : String) : Bool :=
  match cfg.m_pSetExceptionEvents with
  | some setExceptionEvents => decide (rstrEventID ∈ setExceptionEvents)
  | none => true

/-- The first block of `HandleEvent`. -/
def handleRpm (h : SessionStatusHandler) (event : WrappedEvent) : Option SessionStatusHandler :=
  if isRpmEvent cfg event.strEventId && isRpmUsedForIgnStatus cfg then
    (getRpmValue event).map (h.handleRpmValue cfg)
  else some h

/-- The branches of `HandleEvent`. -/
def handleStatus (h : SessionStatusHandler) (event : WrappedEvent) : Option SessionStatusHandler :=
  if isIgniteClientLaunchedEvent cfg event.strEventId then
    (event.getString valueToString FIELD_STATE "").map fun strState =>
      (h.handleIgniteClientLaunchedEvent strState).forward event
  else if isIgnStatusEvent cfg event.strEventId then
    (event.getString valueToString FIELD_STATE "").map fun strState =>
      if h.isRepeatedIgnStatusEvnt strState then h.delete event
      else (h.handleIgnStatusEvent strState).forward event
  else if event.strEventId = SESSION_EV_ID then
    (event.getString valueToString "status" "").map fun strStatus =>
      -- any other text ends the session
      let bInProgress := decide (strStatus = "startup")
      if h.isRepeatedSessionStatusEvnt bInProgress then h.delete event
      else { h with m_bSessionInProgress := bInProgress }.forward event
  -- between a session's end and the next startup
  else if !h.m_bSessionInProgress && !isAlert cfg event.strEventId &&
      !isExceptionEvent cfg event.strEventId then
    some (h.delete event)
  else some (h.forward event)

/-- `HandleEvent`; `none` if an exception leaves it. -/
def handleEvent (h : SessionStatusHandler) (event : WrappedEvent) : Option SessionStatusHandler :=
  (h.handleRpm cfg event).bind fun h => h.handleStatus valueToString cfg event

end

/-! ## What is forwarded -/

section

variable (valueToString : ℚ → String) (cfg : SessionConfig)

/-- The status of a forwarded `SessionStatus` event: whether it is a startup. -/
def sessionStart (p : WrappedEvent × Bool) : Option Bool :=
  if p.2 = true ∧ p.1.strEventId = SESSION_EV_ID then
    (p.1.getString valueToString "status" "").map fun strStatus => decide (strStatus = "startup")
  else none

/-- The state of a forwarded ignition status that has one. -/
def ignState (p : WrappedEvent × Bool) : Option IgnitionState :=
  if p.2 = true ∧ p.1.strEventId = IGNITION_EV_ID then
    (p.1.getString valueToString FIELD_STATE "").bind fun strState =>
      if strState.isEmpty then none else some (ignitionState strState)
  else none

/-- The last session status forwarded is a startup. -/
def inSession (passed : List (WrappedEvent × Bool)) : Bool :=
  (passed.filterMap (sessionStart valueToString)).getLast?.getD false

/-- Session statuses alternate from a startup on, ignition states alternate, and
outside a session nothing else is forwarded but alerts and exceptions. -/
structure SessionFiltered (passed : List (WrappedEvent × Bool)) : Prop where
  sessions : (passed.filterMap (sessionStart valueToString)).IsChain (· ≠ ·)
  first : ∀ b ∈ (passed.filterMap (sessionStart valueToString)).head?, b = true
  ignitions : (passed.filterMap (ignState valueToString)).IsChain (· ≠ ·)
  outside : ∀ before event bForwarded after, passed = before ++ (event, bForwarded) :: after →
    event.strEventId ≠ IGNITION_EV_ID → event.strEventId ≠ SESSION_EV_ID →
    (bForwarded = true ↔ inSession valueToString before = true ∨
      isAlert cfg event.strEventId = true ∨ isExceptionEvent cfg event.strEventId = true)

/-- The handler passes every event on exactly once, to the next handler or to
deletion, and filters the stream. -/
def Filters (events : List WrappedEvent) : Prop :=
  ∃ h, Lib.exec (handleEvent valueToString cfg) init events = some h ∧
    h.passed.map Prod.fst = events ∧ SessionFiltered valueToString cfg h.passed

/-- None of the fields that the handler reads of the event throws. -/
structure Readable (event : WrappedEvent) : Prop where
  rpm : event.strEventId = RPM_EV_ID → isRpmUsedForIgnStatus cfg = true →
    (event.getInt "value" 0).isSome = true
  state : event.strEventId = IGNITION_EV_ID →
    (event.getString valueToString FIELD_STATE "").isSome = true
  status : event.strEventId = SESSION_EV_ID →
    (event.getString valueToString "status" "").isSome = true

/-- What the handler does with one event in self start-up mode. -/
inductive Handled (h : SessionStatusHandler) (event : WrappedEvent) (h' : SessionStatusHandler) :
    Prop where
  | ignition (strState : String) (hid : event.strEventId = IGNITION_EV_ID)
      (hstate : event.getString valueToString FIELD_STATE "" = some strState)
      (hnew : strState.isEmpty = true ∨ h.m_eLastIgnStatus ≠ ignitionState strState)
      (hpassed : h'.passed = h.passed ++ [(event, true)])
      (hlast : h'.m_eLastIgnStatus =
        if strState.isEmpty then h.m_eLastIgnStatus else ignitionState strState)
      (hsession : h'.m_bSessionInProgress = h.m_bSessionInProgress)
  | session (strStatus : String) (hid : event.strEventId = SESSION_EV_ID)
      (hstatus : event.getString valueToString "status" "" = some strStatus)
      (hnew : decide (strStatus = "startup") ≠ h.m_bSessionInProgress)
      (hpassed : h'.passed = h.passed ++ [(event, true)])
      (hlast : h'.m_eLastIgnStatus = h.m_eLastIgnStatus)
      (hsession : h'.m_bSessionInProgress = decide (strStatus = "startup"))
  | repeated (hid : event.strEventId = IGNITION_EV_ID ∨ event.strEventId = SESSION_EV_ID)
      (hpassed : h'.passed = h.passed ++ [(event, false)])
      (hlast : h'.m_eLastIgnStatus = h.m_eLastIgnStatus)
      (hsession : h'.m_bSessionInProgress = h.m_bSessionInProgress)
  | ordinary (bForwarded : Bool) (hign : event.strEventId ≠ IGNITION_EV_ID)
      (hses : event.strEventId ≠ SESSION_EV_ID)
      (hforwarded : bForwarded = true ↔ h.m_bSessionInProgress = true ∨
        isAlert cfg event.strEventId = true ∨ isExceptionEvent cfg event.strEventId = true)
      (hpassed : h'.passed = h.passed ++ [(event, bForwarded)])
      (hlast : h'.m_eLastIgnStatus = h.m_eLastIgnStatus)
      (hsession : h'.m_bSessionInProgress = h.m_bSessionInProgress)

end

variable {valueToString : ℚ → String} {cfg : SessionConfig}

/-- The fields that decide about an event. -/
structure SameFilter (h h' : SessionStatusHandler) : Prop where
  session : h'.m_bSessionInProgress = h.m_bSessionInProgress
  last : h'.m_eLastIgnStatus = h.m_eLastIgnStatus
  passed : h'.passed = h.passed

theorem sameFilter_handleRpmValue (h : SessionStatusHandler) (nRpmValue : ℤ) :
    SameFilter h (h.handleRpmValue cfg nRpmValue) := by
  have hsend : ∀ (h₁ : SessionStatusHandler) strState, SameFilter h h₁ →
      SameFilter h (h₁.sendIgnStatusEvent cfg strState) := by
    intro h₁ strState hsame
    unfold sendIgnStatusEvent
    split
    · exact ⟨hsame.session, hsame.last, hsame.passed⟩
    · exact hsame
  unfold handleRpmValue
  split
  · split
    · exact hsend _ _ ⟨rfl, rfl, rfl⟩
    · exact ⟨rfl, rfl, rfl⟩
  · split
    · exact hsend _ _ ⟨rfl, rfl, rfl⟩
    · exact ⟨rfl, rfl, rfl⟩

/-- The block about the engine's speed touches nothing that decides. -/
theorem sameFilter_handleRpm {h h' : SessionStatusHandler} {event : WrappedEvent}
    (hrpm : h.handleRpm cfg event = some h') : SameFilter h h' := by
  unfold handleRpm at hrpm
  split at hrpm
  · obtain ⟨nRpmValue, _, rfl⟩ := Option.map_eq_some_iff.1 hrpm
    exact sameFilter_handleRpmValue h nRpmValue
  · cases hrpm
    exact ⟨rfl, rfl, rfl⟩

theorem handleIgnStatusEvent_spec (h : SessionStatusHandler) (rstrState : String) :
    (h.handleIgnStatusEvent rstrState).passed = h.passed ∧
      (h.handleIgnStatusEvent rstrState).m_eLastIgnStatus =
        (if rstrState.isEmpty then h.m_eLastIgnStatus else ignitionState rstrState) ∧
      (h.handleIgnStatusEvent rstrState).m_bSessionInProgress = h.m_bSessionInProgress := by
  unfold handleIgnStatusEvent
  by_cases hempty : rstrState.isEmpty = true
  · rw [if_pos hempty, if_pos hempty]
    exact ⟨rfl, rfl, rfl⟩
  · rw [if_neg hempty, if_neg hempty]
    dsimp only
    split
    · exact ⟨rfl, rfl, rfl⟩
    · exact ⟨rfl, rfl, rfl⟩

/-- In self start-up mode every event is handled in one of these ways. -/
theorem handled_of_handleStatus (hself : cfg.strStartupType = STARTUP_SELF)
    {h h' : SessionStatusHandler} {event : WrappedEvent}
    (hstep : h.handleStatus valueToString cfg event = some h') :
    Handled valueToString cfg h event h' := by
  have hlaunched : isIgniteClientLaunchedEvent cfg event.strEventId = false := by
    unfold isIgniteClientLaunchedEvent
    rw [hself]
    simp [STARTUP_SELF, STARTUP_EXTERNAL]
  have hign : isIgnStatusEvent cfg event.strEventId = decide (event.strEventId = IGNITION_EV_ID) := by
    unfold isIgnStatusEvent
    rw [hself]
    simp
  unfold handleStatus at hstep
  rw [if_neg (by simp [hlaunched]), hign] at hstep
  by_cases hid : event.strEventId = IGNITION_EV_ID
  · -- an ignition status: repeated or not
    rw [if_pos (by simpa using hid)] at hstep
    obtain ⟨strState, hstate, hh'⟩ := Option.map_eq_some_iff.1 hstep
    split at hh'
    · rw [← hh']
      exact .repeated (Or.inl hid) rfl rfl rfl
    · rename_i hnot
      obtain ⟨hpassed, hlast, hsession⟩ := handleIgnStatusEvent_spec h strState
      rw [← hh']
      refine .ignition strState hid hstate ?_ (congrArg (· ++ [(event, true)]) hpassed) hlast
        hsession
      by_cases hempty : strState.isEmpty = true
      · exact Or.inl hempty
      · right
        intro heq
        exact hnot (by unfold isRepeatedIgnStatusEvnt; simp [hempty, heq])
  · rw [if_neg (by simpa using hid)] at hstep
    by_cases hses : event.strEventId = SESSION_EV_ID
    · rw [if_pos hses] at hstep
      obtain ⟨strStatus, hstatus, hh'⟩ := Option.map_eq_some_iff.1 hstep
      dsimp only at hh'
      split at hh'
      · rw [← hh']
        exact .repeated (Or.inr hses) rfl rfl rfl
      · rename_i hnot
        rw [← hh']
        refine .session strStatus hses hstatus ?_ rfl rfl rfl
        intro heq
        exact hnot (by unfold isRepeatedSessionStatusEvnt; exact decide_eq_true heq)
    · rw [if_neg hses] at hstep
      split at hstep
      · rename_i hdrop
        cases hstep
        refine .ordinary false hid hses ?_ rfl rfl rfl
        simp only [Bool.and_eq_true, Bool.not_eq_true'] at hdrop
        simp [hdrop.1.1, hdrop.1.2, hdrop.2]
      · rename_i hkeep
        cases hstep
        refine .ordinary true hid hses ?_ rfl rfl rfl
        refine ⟨fun _ => ?_, fun _ => rfl⟩
        by_contra hnone
        simp only [not_or, Bool.not_eq_true] at hnone
        exact hkeep (by simp [hnone.1, hnone.2.1, hnone.2.2])

/-- The same for the whole of `HandleEvent`. -/
theorem handled_of_handleEvent (hself : cfg.strStartupType = STARTUP_SELF)
    {h h' : SessionStatusHandler} {event : WrappedEvent}
    (hstep : handleEvent valueToString cfg h event = some h') :
    Handled valueToString cfg h event h' := by
  obtain ⟨h₁, hrpm, hstatus⟩ := Option.bind_eq_some_iff.1 hstep
  have hsame := sameFilter_handleRpm hrpm
  cases handled_of_handleStatus hself hstatus with
  | ignition strState hid hstate hnew hpassed hlast hsession =>
    rw [hsame.last] at hnew hlast
    exact .ignition strState hid hstate hnew (hsame.passed ▸ hpassed) hlast
      (hsession.trans hsame.session)
  | session strStatus hid hstatus hnew hpassed hlast hsession =>
    rw [hsame.session] at hnew
    exact .session strStatus hid hstatus hnew (hsame.passed ▸ hpassed) (hlast.trans hsame.last)
      hsession
  | repeated hid hpassed hlast hsession =>
    exact .repeated hid (hsame.passed ▸ hpassed) (hlast.trans hsame.last)
      (hsession.trans hsame.session)
  | ordinary bForwarded hign hses hforwarded hpassed hlast hsession =>
    rw [hsame.session] at hforwarded
    exact .ordinary bForwarded hign hses hforwarded (hsame.passed ▸ hpassed)
      (hlast.trans hsame.last) (hsession.trans hsame.session)

/-! ## The invariant -/

/-- The flag and the last state are those of the events forwarded. -/
structure Inv (valueToString : ℚ → String) (cfg : SessionConfig) (h : SessionStatusHandler) :
    Prop where
  filtered : SessionFiltered valueToString cfg h.passed
  session : h.m_bSessionInProgress = inSession valueToString h.passed
  last : h.m_eLastIgnStatus =
    (h.passed.filterMap (ignState valueToString)).getLast?.getD .eIGNITION_UNKNOWN

theorem inv_init : (init : SessionStatusHandler).Inv valueToString cfg where
  filtered := by
    refine ⟨List.isChain_nil, ?_, List.isChain_nil, ?_⟩
    · intro b hb
      cases hb
    · intro before event bForwarded after hpassed
      exact absurd hpassed (by simp [init])
  session := rfl
  last := rfl

theorem filterMap_push {α β : Type} (f : α → Option β) (l : List α) (x : α) :
    (l ++ [x]).filterMap f = l.filterMap f ++ (f x).toList := by
  rw [List.filterMap_append]
  cases hx : f x <;> simp [hx]

/-- The condition on the events outside a session, for one more event. -/
theorem outside_push {passed : List (WrappedEvent × Bool)} {event : WrappedEvent}
    {bForwarded : Bool} (h : SessionFiltered valueToString cfg passed)
    (hnew : event.strEventId ≠ IGNITION_EV_ID → event.strEventId ≠ SESSION_EV_ID →
      (bForwarded = true ↔ inSession valueToString passed = true ∨
        isAlert cfg event.strEventId = true ∨ isExceptionEvent cfg event.strEventId = true)) :
    ∀ before e b after, passed ++ [(event, bForwarded)] = before ++ (e, b) :: after →
      e.strEventId ≠ IGNITION_EV_ID → e.strEventId ≠ SESSION_EV_ID →
      (b = true ↔ inSession valueToString before = true ∨
        isAlert cfg e.strEventId = true ∨ isExceptionEvent cfg e.strEventId = true) := by
  intro before e b after heq hign hses
  rcases List.eq_nil_or_concat after with rfl | ⟨after', x, rfl⟩
  · -- the event is the last one
    obtain ⟨hbefore, hlast⟩ := List.append_inj' heq rfl
    have hpair := List.singleton_inj.1 hlast
    obtain ⟨rfl, rfl⟩ := Prod.mk.inj hpair
    rw [← hbefore]
    exact hnew hign hses
  · rw [List.concat_eq_append, ← List.cons_append, ← List.append_assoc] at heq
    have hpassed := (List.append_inj' heq rfl).1
    exact h.outside before e b after' hpassed hign hses

/-- A deleted event shows in no status. -/
theorem statuses_of_deleted (event : WrappedEvent) :
    sessionStart valueToString (event, false) = none ∧
      ignState valueToString (event, false) = none := by
  unfold sessionStart ignState
  rw [if_neg (by simp), if_neg (by simp)]
  exact ⟨rfl, rfl⟩

/-- An event that is no status shows in none. -/
theorem statuses_of_ordinary {event : WrappedEvent} (bForwarded : Bool)
    (hign : event.strEventId ≠ IGNITION_EV_ID) (hses : event.strEventId ≠ SESSION_EV_ID) :
    sessionStart valueToString (event, bForwarded) = none ∧
      ignState valueToString (event, bForwarded) = none := by
  unfold sessionStart ignState
  rw [if_neg fun h => hses h.2, if_neg fun h => hign h.2]
  exact ⟨rfl, rfl⟩

/-- The invariant where the last event shows in no status. -/
theorem Inv.push {h h' : SessionStatusHandler} {event : WrappedEvent} {bForwarded : Bool}
    (hinv : h.Inv valueToString cfg) (hpassed : h'.passed = h.passed ++ [(event, bForwarded)])
    (hlast : h'.m_eLastIgnStatus = h.m_eLastIgnStatus)
    (hsession : h'.m_bSessionInProgress = h.m_bSessionInProgress)
    (hstatuses : sessionStart valueToString (event, bForwarded) = none ∧
      ignState valueToString (event, bForwarded) = none)
    (hnew : event.strEventId ≠ IGNITION_EV_ID → event.strEventId ≠ SESSION_EV_ID →
      (bForwarded = true ↔ inSession valueToString h.passed = true ∨
        isAlert cfg event.strEventId = true ∨ isExceptionEvent cfg event.strEventId = true)) :
    h'.Inv valueToString cfg := by
  have hses : h'.passed.filterMap (sessionStart valueToString) =
      h.passed.filterMap (sessionStart valueToString) := by
    rw [hpassed, filterMap_push, hstatuses.1, Option.toList_none, List.append_nil]
  have hign : h'.passed.filterMap (ignState valueToString) =
      h.passed.filterMap (ignState valueToString) := by
    rw [hpassed, filterMap_push, hstatuses.2, Option.toList_none, List.append_nil]
  refine ⟨⟨?_, ?_, ?_, ?_⟩, ?_, ?_⟩
  · rw [hses]
    exact hinv.filtered.sessions
  · rw [hses]
    exact hinv.filtered.first
  · rw [hign]
    exact hinv.filtered.ignitions
  · rw [hpassed]
    exact outside_push hinv.filtered hnew
  · unfold inSession
    rw [hses]
    exact hsession.trans hinv.session
  · rw [hign]
    exact hlast.trans hinv.last

/-- The invariant through a forwarded session status: it differs from the flag. -/
theorem Inv.session_push {h h' : SessionStatusHandler} {event : WrappedEvent} {strStatus : String}
    (hinv : h.Inv valueToString cfg) (hid : event.strEventId = SESSION_EV_ID)
    (hstatus : event.getString valueToString "status" "" = some strStatus)
    (hnew : decide (strStatus = "startup") ≠ h.m_bSessionInProgress)
    (hpassed : h'.passed = h.passed ++ [(event, true)])
    (hlast : h'.m_eLastIgnStatus = h.m_eLastIgnStatus)
    (hsession : h'.m_bSessionInProgress = decide (strStatus = "startup")) :
    h'.Inv valueToString cfg := by
  have hstart : sessionStart valueToString (event, true) =
      some (decide (strStatus = "startup")) := by
    unfold sessionStart
    rw [if_pos ⟨rfl, hid⟩, hstatus, Option.map_some]
  have hnone : ignState valueToString (event, true) = none := by
    unfold ignState
    rw [if_neg]
    rintro ⟨_, hign⟩
    rw [hid] at hign
    exact absurd hign (by decide)
  have hses : h'.passed.filterMap (sessionStart valueToString) =
      h.passed.filterMap (sessionStart valueToString) ++ [decide (strStatus = "startup")] := by
    rw [hpassed, filterMap_push, hstart, Option.toList_some]
  have hign : h'.passed.filterMap (ignState valueToString) =
      h.passed.filterMap (ignState valueToString) := by
    rw [hpassed, filterMap_push, hnone, Option.toList_none, List.append_nil]
  have hflag := hinv.session
  unfold inSession at hflag
  refine ⟨⟨?_, ?_, ?_, ?_⟩, ?_, ?_⟩
  · rw [hses]
    refine hinv.filtered.sessions.append (List.isChain_singleton _) ?_
    intro a ha b hb heq
    cases hb
    rw [Option.mem_def.1 ha, Option.getD_some] at hflag
    exact hnew (heq.symm.trans hflag.symm)
  · -- the first status of all is a startup, since the flag is not set before
    intro b hb
    rw [hses] at hb
    cases hl : h.passed.filterMap (sessionStart valueToString) with
    | nil =>
      rw [hl] at hb hflag
      have hb' : decide (strStatus = "startup") = b := Option.some.inj hb
      rw [hflag] at hnew
      rw [← hb']
      exact Bool.eq_true_of_not_eq_false hnew
    | cons a l =>
      rw [hl] at hb
      exact hinv.filtered.first b (by rw [hl]; exact hb)
  · rw [hign]
    exact hinv.filtered.ignitions
  · rw [hpassed]
    exact outside_push hinv.filtered fun _ hne => absurd hid hne
  · unfold inSession
    rw [hses, List.getLast?_concat, Option.getD_some]
    exact hsession
  · rw [hign]
    exact hlast.trans hinv.last

/-- The invariant through a forwarded ignition status. -/
theorem Inv.ignition_push {h h' : SessionStatusHandler} {event : WrappedEvent} {strState : String}
    (hinv : h.Inv valueToString cfg) (hid : event.strEventId = IGNITION_EV_ID)
    (hstate : event.getString valueToString FIELD_STATE "" = some strState)
    (hnew : strState.isEmpty = true ∨ h.m_eLastIgnStatus ≠ ignitionState strState)
    (hpassed : h'.passed = h.passed ++ [(event, true)])
    (hlast : h'.m_eLastIgnStatus =
      if strState.isEmpty then h.m_eLastIgnStatus else ignitionState strState)
    (hsession : h'.m_bSessionInProgress = h.m_bSessionInProgress) :
    h'.Inv valueToString cfg := by
  -- an ignition status starts no session
  have hnone : sessionStart valueToString (event, true) = none := by
    unfold sessionStart
    rw [if_neg]
    rintro ⟨_, hses⟩
    rw [hid] at hses
    exact absurd hses (by decide)
  have houtside := @outside_push valueToString cfg h.passed event true hinv.filtered
    fun hne _ => absurd hid hne
  have hses : h'.passed.filterMap (sessionStart valueToString) =
      h.passed.filterMap (sessionStart valueToString) := by
    rw [hpassed, filterMap_push, hnone, Option.toList_none, List.append_nil]
  -- an event without a state is passed on and leaves the last one
  by_cases hempty : strState.isEmpty = true
  · have hign : ignState valueToString (event, true) = none := by
      unfold ignState
      rw [if_pos ⟨rfl, hid⟩, hstate, Option.bind_some, if_pos hempty]
    rw [if_pos hempty] at hlast
    exact hinv.push hpassed hlast hsession ⟨hnone, hign⟩ fun hne _ => absurd hid hne
  · have hstate' : ignState valueToString (event, true) = some (ignitionState strState) := by
      unfold ignState
      rw [if_pos ⟨rfl, hid⟩, hstate, Option.bind_some, if_neg hempty]
    have hign : h'.passed.filterMap (ignState valueToString) =
        h.passed.filterMap (ignState valueToString) ++ [ignitionState strState] := by
      rw [hpassed, filterMap_push, hstate', Option.toList_some]
    rw [if_neg hempty] at hlast
    refine ⟨⟨?_, ?_, ?_, ?_⟩, ?_, ?_⟩
    · rw [hses]
      exact hinv.filtered.sessions
    · rw [hses]
      exact hinv.filtered.first
    · rw [hign]
      refine hinv.filtered.ignitions.append (List.isChain_singleton _) ?_
      intro a ha b hb heq
      cases hb
      have hflag := hinv.last
      rw [Option.mem_def.1 ha, Option.getD_some] at hflag
      exact (hnew.resolve_left hempty) (hflag.trans heq)
    · rw [hpassed]
      exact houtside
    · unfold inSession
      rw [hses]
      exact hsession.trans hinv.session
    · rw [hign, List.getLast?_concat, Option.getD_some]
      exact hlast

/-- The invariant through one event. -/
theorem inv_step (hself : cfg.strStartupType = STARTUP_SELF) {h h' : SessionStatusHandler}
    {event : WrappedEvent} (hinv : h.Inv valueToString cfg)
    (hstep : handleEvent valueToString cfg h event = some h') : h'.Inv valueToString cfg := by
  cases handled_of_handleEvent hself hstep with
  | ignition strState hid hstate hnew hpassed hlast hsession =>
    exact hinv.ignition_push hid hstate hnew hpassed hlast hsession
  | session strStatus hid hstatus hnew hpassed hlast hsession =>
    exact hinv.session_push hid hstatus hnew hpassed hlast hsession
  | repeated hid hpassed hlast hsession =>
    refine hinv.push hpassed hlast hsession (statuses_of_deleted event) ?_
    intro hign hses
    exact absurd hid (not_or.2 ⟨hign, hses⟩)
  | ordinary bForwarded hign hses hforwarded hpassed hlast hsession =>
    refine hinv.push hpassed hlast hsession (statuses_of_ordinary bForwarded hign hses) ?_
    intro _ _
    rw [← hinv.session]
    exact hforwarded

/-! ## A run -/

/-- Every event is passed on once. -/
theorem passed_of_handled {h h' : SessionStatusHandler} {event : WrappedEvent}
    (hhandled : Handled valueToString cfg h event h') :
    h'.passed.map Prod.fst = h.passed.map Prod.fst ++ [event] := by
  cases hhandled with
  | ignition _ _ _ _ hpassed | session _ _ _ _ hpassed | repeated _ hpassed
  | ordinary _ _ _ _ hpassed =>
    rw [hpassed, List.map_append]
    rfl

/-- After a run the events passed on are those received, and they are filtered. -/
theorem sessionFiltered_of_run (hself : cfg.strStartupType = STARTUP_SELF)
    {events : List WrappedEvent} {h h' : SessionStatusHandler} (hinv : h.Inv valueToString cfg)
    (hrun : Lib.exec (handleEvent valueToString cfg) h events = some h') :
    h'.passed.map Prod.fst = h.passed.map Prod.fst ++ events ∧ h'.Inv valueToString cfg := by
  induction events generalizing h with
  | nil =>
    cases hrun
    exact ⟨(List.append_nil _).symm, hinv⟩
  | cons event events ih =>
    rw [Lib.exec_cons, Option.bind_eq_some_iff] at hrun
    obtain ⟨h₁, hstep, hrest⟩ := hrun
    obtain ⟨hpassed, hinv'⟩ := ih (inv_step hself hinv hstep) hrest
    refine ⟨?_, hinv'⟩
    rw [hpassed, passed_of_handled (handled_of_handleEvent hself hstep), List.append_assoc]
    rfl

/-- Reading the engine's speed throws or not. -/
theorem handleRpm_isSome (hself : cfg.strStartupType = STARTUP_SELF) (h : SessionStatusHandler)
    (event : WrappedEvent) :
    (h.handleRpm cfg event).isSome = true ↔
      (event.strEventId = RPM_EV_ID → isRpmUsedForIgnStatus cfg = true →
        (event.getInt "value" 0).isSome = true) := by
  unfold handleRpm isRpmEvent getRpmValue
  rw [hself]
  by_cases hrpm : event.strEventId = RPM_EV_ID
  · by_cases hused : isRpmUsedForIgnStatus cfg = true
    · rw [if_pos (by simp [hrpm, hused]), if_pos hrpm, Option.isSome_map]
      exact ⟨fun hsome _ _ => hsome, fun hsome => hsome hrpm hused⟩
    · rw [if_neg (by simp [hused])]
      exact ⟨fun _ _ hu => absurd hu hused, fun _ => rfl⟩
  · rw [if_neg hrpm]
    refine ⟨fun _ hid => absurd hid hrpm, fun _ => ?_⟩
    split
    · rfl
    · rfl

variable (valueToString) in
/-- Reading the status throws or not. -/
theorem handleStatus_isSome (hself : cfg.strStartupType = STARTUP_SELF) (h : SessionStatusHandler)
    (event : WrappedEvent) :
    (h.handleStatus valueToString cfg event).isSome = true ↔
      (event.strEventId = IGNITION_EV_ID →
        (event.getString valueToString FIELD_STATE "").isSome = true) ∧
      (event.strEventId = SESSION_EV_ID →
        (event.getString valueToString "status" "").isSome = true) := by
  -- the client starts itself, so the launch event is no ignition
  have hlaunched : isIgniteClientLaunchedEvent cfg event.strEventId = false := by
    unfold isIgniteClientLaunchedEvent
    rw [hself]
    simp [STARTUP_SELF, STARTUP_EXTERNAL]
  have hign : isIgnStatusEvent cfg event.strEventId = decide (event.strEventId = IGNITION_EV_ID) := by
    unfold isIgnStatusEvent
    rw [hself]
    simp
  unfold handleStatus
  rw [if_neg (by simp [hlaunched]), hign]
  by_cases hid : event.strEventId = IGNITION_EV_ID
  · have hne : event.strEventId ≠ SESSION_EV_ID := by
      rw [hid]
      decide
    rw [if_pos (by simpa using hid), Option.isSome_map]
    exact ⟨fun hsome => ⟨fun _ => hsome, fun hses => absurd hses hne⟩, fun hsome => hsome.1 hid⟩
  · rw [if_neg (by simpa using hid)]
    by_cases hses : event.strEventId = SESSION_EV_ID
    · rw [if_pos hses, Option.isSome_map]
      exact ⟨fun hsome => ⟨fun hi => absurd hi hid, fun _ => hsome⟩, fun hsome => hsome.2 hses⟩
    · rw [if_neg hses]
      refine ⟨fun _ => ⟨fun hi => absurd hi hid, fun hs => absurd hs hses⟩, fun _ => ?_⟩
      split
      · rfl
      · rfl

variable (valueToString) in
/-- The handler throws iff one of the fields it reads does. -/
theorem handleEvent_isSome (hself : cfg.strStartupType = STARTUP_SELF) (h : SessionStatusHandler)
    (event : WrappedEvent) :
    (handleEvent valueToString cfg h event).isSome = true ↔ Readable valueToString cfg event := by
  unfold handleEvent
  constructor
  · intro hsome
    obtain ⟨h', hstep⟩ := Option.isSome_iff_exists.1 hsome
    obtain ⟨h₁, hrpm, hstatus⟩ := Option.bind_eq_some_iff.1 hstep
    have hspeed := (handleRpm_isSome hself h event).1 (by rw [hrpm]; rfl)
    have hfields := (handleStatus_isSome valueToString hself h₁ event).1
      (by rw [hstatus]; rfl)
    exact ⟨hspeed, hfields.1, hfields.2⟩
  · rintro ⟨hspeed, hstate, hstatus⟩
    obtain ⟨h₁, hrpm⟩ := Option.isSome_iff_exists.1 ((handleRpm_isSome hself h event).2 hspeed)
    rw [hrpm, Option.bind_some]
    exact (handleStatus_isSome valueToString hself h₁ event).2 ⟨hstate, hstatus⟩

/-- In self start-up mode the handler passes every event on exactly once and
filters the stream iff no field that it reads throws. -/
theorem filters_iff {cfg : SessionConfig} (hself : cfg.strStartupType = STARTUP_SELF)
    (valueToString : ℚ → String) (events : List WrappedEvent) :
    Filters valueToString cfg events ↔ ∀ event ∈ events, Readable valueToString cfg event := by
  have hsome := Lib.exec_isSome_iff
    (fun h event => handleEvent_isSome valueToString hself h event) init events
  rw [← hsome]
  constructor
  · rintro ⟨h, hrun, _⟩
    rw [hrun]
    rfl
  · intro hrun
    obtain ⟨h, hh⟩ := Option.isSome_iff_exists.1 hrun
    obtain ⟨hpassed, hinv⟩ := sessionFiltered_of_run hself inv_init hh
    exact ⟨h, hh, hpassed, hinv.filtered⟩

def selfConfig : SessionConfig := ⟨STARTUP_SELF, some {"Location"}, true, true, true, fun _ => false⟩

/-- A status event. -/
def statusEvent (strEventId : String) (field : String) (value : JsonValue) : WrappedEvent :=
  ⟨strEventId, 1704067200001, .object [(field, value)]⟩

/-- A session with a repeated startup, and an event before it. -/
def sampleStream : List WrappedEvent :=
  [⟨"Speed", 1704067200001, .null⟩, statusEvent IGNITION_EV_ID FIELD_STATE (.string "run"),
    statusEvent SESSION_EV_ID "status" (.string "startup"),
    statusEvent SESSION_EV_ID "status" (.string "startup"), ⟨"Speed", 1704067200002, .null⟩]

theorem filters_sampleStream : Filters (fun _ => "") selfConfig sampleStream := by
  refine (filters_iff rfl (fun _ => "") sampleStream).2 ?_
  intro event hevent
  simp only [sampleStream, List.mem_cons, List.not_mem_nil, or_false] at hevent
  rcases hevent with rfl | rfl | rfl | rfl | rfl <;>
    exact ⟨fun _ _ => rfl, fun _ => rfl, fun _ => rfl⟩

/-- A session status whose status is no text throws, and is passed on nowhere. -/
theorem not_filters_emptyArray :
    ¬ Filters (fun _ => "") selfConfig [statusEvent SESSION_EV_ID "status" (.array [])] := by
  rintro ⟨h, hrun, _⟩
  cases hrun

end SessionStatusHandler

end DeviceClient
