import DeviceClient.Util.Json
import DeviceClient.Dam.TimestampValidation
import Mathlib.Data.Finset.Card
import Mathlib.Data.List.TakeWhile

/-!
# The cache transport

`CCacheTransport` takes events off its queue and passes them on. With a white
list in the configuration the events whose ids are not admitted go around the
chain of handlers, straight to the database transport or nowhere. The admitted
ids are those of the white list, of the domain event map and of the message
handlers; the callback for configuration updates builds the set again.

`routed` is history: where each event went.

* `runEvent`, `flushEvent`: an event taken by the loop of `Run` and by the loop
  of `FlushCache`; both loops are `drain`.
* `flushCache_routed_iff`: when the two send the events of a queue the same ways.
* `admits_of_updates`: the admitted ids after any updates.
-/

namespace DeviceClient

/-! ## Data -/

/-- The configuration, as far as the transport reads it. A number is `none` where
reading it throws. -/
structure CacheTransportConfig where
  igniteWhiteListedEvents : JsonValue
  domainEventMap : JsonValue
  criticalEventLoggingCount : JsonValue
  defaultLoggingCount : Option ℤ
  logCounterReset : Option ℤ
deriving DecidableEq

/-- The members that decide which events are logged in full. -/
structure InflowLog where
  m_setAlertsList : Finset String
  m_jsonEvntList : JsonValue
  m_mapLogConfig : String → Option ℤ
  m_nDefInflowEventLogCnt : ℤ
  m_nLogCounterReset : ℤ
  m_mapEvntLog : String → Option ℤ

/-- An event as `CEventWrapper` holds it. -/
structure WrappedEvent where
  strEventId : String
  ullTimestamp : ℕ
  jsonValue : JsonValue
deriving DecidableEq

/-- Where an event goes: into the chain of handlers, to
`CDBTransport::HandleNonIgniteEvent`, or nowhere. -/
inductive Destination
  | handlerChain (event : WrappedEvent)
  | nonIgnite (event : WrappedEvent)
  | deleted (event : WrappedEvent)
deriving DecidableEq

structure CacheTransport where
  m_jsonConfigWhitelistedEvents : JsonValue
  m_jsonConfigDomainEventMap : JsonValue
  m_setIgniteEventsList : Finset String
  m_bIsEventWhitelistingEnabled : Bool
  log : InflowLog
  m_eventQueue : List String
  routed : List Destination

def DEF_INFLOW_EVENT_LOG_CNT : ℤ := -1
def DEF_MAX_INFLOW_EVENT_LOG_CNT : ℤ := 100
def eIGN_CYCLE : ℤ := 0
def KEY_IGNITIONSTATUS : String := "IgnStatus"
def KEY_IGN_STATE : String := "state"
def KEY_IGN_OFF : String := "off"

/-! ## The admitted ids -/

/-- `GetSupplimentaryEventsList` of `CInternalMessageHandler`. -/
def InternalMessageHandler.getSupplimentaryEventsList : Finset String := ∅

/-- `GetSupplimentaryEventsList` of `CBaseMessageHandler`, which
`CAnalyticsMessageHandler` inherits. -/
def BaseMessageHandler.getSupplimentaryEventsList : Finset String := ∅

/-- `GetSupplimentaryEventsListToWhitelist`; the analytics handler is a matter of
the build. -/
def getSupplimentaryEventsListToWhitelist (bIncludeAnalytics : Bool) : Finset String :=
  if bIncludeAnalytics then
    InternalMessageHandler.getSupplimentaryEventsList ∪
      BaseMessageHandler.getSupplimentaryEventsList
  else InternalMessageHandler.getSupplimentaryEventsList

section WhiteList

variable (valueToString : ℚ → String)

/-- `PopulateWhitelistedEventList`. -/
def populateWhitelistedEventList : JsonValue → Option (Finset String)
  | .array values => (values.mapM (JsonValue.asString valueToString)).map List.toFinset
  -- the index into an object throws
  | .object members => if members.isEmpty then some ∅ else none
  | _ => some ∅

/-- The events of one section of the domain map. -/
def domainSecEvents : JsonValue → Option (List String)
  | .array values => values.mapM (JsonValue.asString valueToString)
  | .string value => some [value]
  | _ => some []

/-- `PopulateEventsFromDomainMap`. The loop looks each section up by its name,
which an array does not have. -/
def populateEventsFromDomainMap : JsonValue → Option (Finset String)
  | .object members =>
    (members.mapM fun m => domainSecEvents valueToString m.2).map fun l => l.flatten.toFinset
  | .array values => if values.isEmpty then some ∅ else none
  | _ => some ∅

/-- `IsIgniteWhiteListedEventsValid`. -/
def isIgniteWhiteListedEventsValid (rjsonWhitelistedEvents : JsonValue) : Bool :=
  !rjsonWhitelistedEvents.isNull && !rjsonWhitelistedEvents.empty && rjsonWhitelistedEvents.isArray

/-- `IsDomainEventMapValid`. -/
def CacheTransport.isDomainEventMapValid (t : CacheTransport) (rjsonDomainEventMap : JsonValue) :
    Bool :=
  !rjsonDomainEventMap.isNull && !rjsonDomainEventMap.empty && rjsonDomainEventMap.isObject &&
    decide (t.m_jsonConfigDomainEventMap ≠ rjsonDomainEventMap)

/-- The ids of a white list and a domain map. -/
def listedEvents (jsonIgniteEvents jsonDomainEventMap : JsonValue) : Option (Finset String) :=
  (populateWhitelistedEventList valueToString jsonIgniteEvents).bind fun setWhitelisted =>
    (populateEventsFromDomainMap valueToString jsonDomainEventMap).map fun setDomain =>
      if 0 < setDomain.card then setWhitelisted ∪ setDomain else setWhitelisted

/-- `UpdateIgniteWhitelistEventList`. -/
def CacheTransport.updateIgniteWhitelistEventList (t : CacheTransport)
    (cfg : CacheTransportConfig) : Option CacheTransport :=
  -- white-listing is switched on by the constructor only
  if !t.m_bIsEventWhitelistingEnabled then some t
  else if isIgniteWhiteListedEventsValid cfg.igniteWhiteListedEvents then
    let bIsChanged :=
      decide (t.m_jsonConfigWhitelistedEvents ≠ cfg.igniteWhiteListedEvents) ||
        t.isDomainEventMapValid cfg.domainEventMap
    if bIsChanged then
      (listedEvents valueToString cfg.igniteWhiteListedEvents cfg.domainEventMap).map fun ids =>
        { t with
          m_jsonConfigWhitelistedEvents := cfg.igniteWhiteListedEvents
          m_jsonConfigDomainEventMap := cfg.domainEventMap
          m_setIgniteEventsList := ids }
    else some t
  else some t

end WhiteList

/-! ## Logging in full -/

/-- `GetValidInflowLogCount`. -/
def getValidInflowLogCount (nCount : ℤ) : ℤ :=
  if nCount < DEF_INFLOW_EVENT_LOG_CNT then DEF_INFLOW_EVENT_LOG_CNT
  else if DEF_MAX_INFLOW_EVENT_LOG_CNT < nCount then DEF_MAX_INFLOW_EVENT_LOG_CNT
  else nCount

/-- The entry for one member of the list; `insert` keeps an entry that is there. -/
def insertLogCount (mapLogConfig : String → Option ℤ) (m : String × JsonValue) :
    String → Option ℤ :=
  match m.2.asIntOfInt, mapLogConfig m.1 with
  | some nCount, none => Function.update mapLogConfig m.1 (some (getValidInflowLogCount nCount))
  | _, _ => mapLogConfig

/-- `UpdateLogConfigMap`, over the elements of the list, and whether it gets
through: an element that is no object throws. -/
def updateLogConfigMap (mapLogConfig : String → Option ℤ) :
    List JsonValue → (String → Option ℤ) × Bool
  | [] => (mapLogConfig, true)
  -- a null has no member names
  | .null :: rest => updateLogConfigMap mapLogConfig rest
  | .object members :: rest => updateLogConfigMap (members.foldl insertLogCount mapLogConfig) rest
  | _ :: _ => (mapLogConfig, false)

namespace InflowLog

/-- The list of counts, where it is a new one. -/
def updateEvntList (log : InflowLog) (newEventList : JsonValue) : InflowLog × Bool :=
  match newEventList with
  | .array (value :: rest) =>
    if log.m_jsonEvntList = JsonValue.array (value :: rest) then (log, true)
    else
      let r := updateLogConfigMap (fun _ => none) (value :: rest)
      ({ log with m_jsonEvntList := .array (value :: rest), m_mapLogConfig := r.1 }, r.2)
  | _ => (log, true)

/-- The part of `NotifyConfigUpdate` about logging, and whether it gets through:
an exception leaves what has been set so far. -/
def notifyConfigUpdate (log : InflowLog) (cfg : CacheTransportConfig) : InflowLog × Bool :=
  let r := log.updateEvntList cfg.criticalEventLoggingCount
  match r.2, cfg.defaultLoggingCount, cfg.logCounterReset with
  | true, some nDefault, some nReset =>
    ({ r.1 with m_nDefInflowEventLogCnt := nDefault, m_nLogCounterReset := nReset }, true)
  | true, some nDefault, none => ({ r.1 with m_nDefInflowEventLogCnt := nDefault }, false)
  | _, _, _ => (r.1, false)

/-- `LogEventBasedOnConfiguredCount` and `LogEventBasedOnDefaultCount`, for the
count configured or the default: whether the event is logged in full. -/
def logEventBasedOnCount (log : InflowLog) (nMaxCount : ℤ) (strEvntID : String) :
    InflowLog × Bool :=
  -- -1 is every event, 0 is none
  if nMaxCount = -1 then (log, true)
  else if nMaxCount = 0 then (log, false)
  else
    match log.m_mapEvntLog strEvntID with
    | some nCurrLoggedCnt =>
      if nCurrLoggedCnt < nMaxCount then
        ({ log with
          m_mapEvntLog := Function.update log.m_mapEvntLog strEvntID (some (nCurrLoggedCnt + 1)) },
          true)
      else (log, false)
    | none =>
      ({ log with m_mapEvntLog := Function.update log.m_mapEvntLog strEvntID (some 1) }, true)

/-- `LogCriticalEvent`. -/
def logCriticalEvent (log : InflowLog) (eID : String) : InflowLog × Bool :=
  if eID ∈ log.m_setAlertsList then (log, true)
  else
    match log.m_mapLogConfig eID with
    | some nMaxCount => log.logEventBasedOnCount nMaxCount eID
    | none => log.logEventBasedOnCount log.m_nDefInflowEventLogCnt eID

/-- `ResetInflowEventLogCounter`. -/
def resetInflowEventLogCounter (log : InflowLog) : InflowLog :=
  { log with m_mapEvntLog := fun _ => none }

end InflowLog

/-! ## The transport -/

namespace CacheTransport

section

variable (valueToString : ℚ → String)

/-- The constructor, with the logging as it has set it up and the flags of the
build and of the stream mode; `none` if an exception leaves it. -/
def init (log : InflowLog) (bIncludeAnalytics bStreamModeSupported : Bool)
    (cfg : CacheTransportConfig) : Option CacheTransport :=
  if isIgniteWhiteListedEventsValid cfg.igniteWhiteListedEvents then
    (listedEvents valueToString cfg.igniteWhiteListedEvents cfg.domainEventMap).map fun ids =>
      { m_jsonConfigWhitelistedEvents := cfg.igniteWhiteListedEvents
        m_jsonConfigDomainEventMap := cfg.domainEventMap
        m_setIgniteEventsList :=
          if bStreamModeSupported then ids ∪ getSupplimentaryEventsListToWhitelist bIncludeAnalytics
          else ids
        m_bIsEventWhitelistingEnabled := true
        log := log
        m_eventQueue := []
        routed := [] }
  else
    -- without a list every event is admitted
    some
      { m_jsonConfigWhitelistedEvents := .null
        m_jsonConfigDomainEventMap := .null
        m_setIgniteEventsList := ∅
        m_bIsEventWhitelistingEnabled := false
        log := log
        m_eventQueue := []
        routed := [] }

/-- `NotifyConfigUpdate`, as its caller sees it: the loop over the subscribers
catches every exception. -/
def notifyConfigUpdate (t : CacheTransport) (cfg : CacheTransportConfig) : CacheTransport :=
  let r := t.log.notifyConfigUpdate cfg
  let t := { t with log := r.1 }
  if r.2 then (t.updateIgniteWhitelistEventList valueToString cfg).getD t else t

end

/-! ## The loops over the queue -/

section

variable (valueToString : ℚ → String) (jsonToEvent : String → Option WrappedEvent)

/-- `pEvent->GetData()[KEY_IGN_STATE].asString()`, which throws where the data is
no object or the state has no text. -/
def ignState (event : WrappedEvent) : Option String :=
  match event.jsonValue with
  | .null => some ""
  | .object members =>
    ((members.lookup KEY_IGN_STATE).getD JsonValue.null).asString valueToString
  | _ => none

/-- `IsLogCounterResetNeeded`. -/
def isLogCounterResetNeeded (t : CacheTransport) (event : WrappedEvent) : Option Bool :=
  if event.strEventId = KEY_IGNITIONSTATUS then
    (ignState valueToString event).map fun strState =>
      decide (strState = KEY_IGN_OFF) && decide (t.log.m_nLogCounterReset = eIGN_CYCLE)
  else some false

/-- The event goes to `destination`. -/
def route (t : CacheTransport) (destination : Destination) : CacheTransport :=
  { t with routed := t.routed ++ [destination] }

/-- `LogCriticalEvent`, then the chain of handlers. -/
def logAndHandle (t : CacheTransport) (event : WrappedEvent) : CacheTransport :=
  { t with log := (t.log.logCriticalEvent event.strEventId).1 }.route (.handlerChain event)

/-- `ProcessEvent`. -/
def processEvent (t : CacheTransport) (event : WrappedEvent) : CacheTransport :=
  if event.strEventId ∈ t.m_setIgniteEventsList then t.logAndHandle event
  -- the other events are stored if their time is valid
  else if m_dblTimestampCutoff ≤ (event.ullTimestamp : ℚ) then t.route (.nonIgnite event)
  else t.route (.deleted event)

/-- The counters are reset if need be. -/
def resetLogCounter (t : CacheTransport) (bReset : Bool) : CacheTransport :=
  if bReset then { t with log := t.log.resetInflowEventLogCounter } else t

/-- The event is handled, with or without a white list. -/
def handle (t : CacheTransport) (event : WrappedEvent) : CacheTransport :=
  if !t.m_bIsEventWhitelistingEnabled then t.logAndHandle event else t.processEvent event

/-- An event taken in the loop of `Run`; `none` if an exception ends the loop. -/
def runEvent (t : CacheTransport) (strEvent : String) : Option CacheTransport :=
  (jsonToEvent strEvent).bind fun event =>
    (t.isLogCounterResetNeeded valueToString event).map fun bReset =>
      (t.resetLogCounter bReset).handle event

/-- An event taken in the loop of `FlushCache`. -/
def flushEvent (t : CacheTransport) (strEvent : String) : Option CacheTransport :=
  (jsonToEvent strEvent).map fun event => t.route (.handlerChain event)

/-- `while (m_eventQueue.Take(&strEvent))`, for the elements of the queue; an
exception leaves the rest in it. -/
def drain (take : CacheTransport → String → Option CacheTransport) (t : CacheTransport) :
    List String → CacheTransport
  | [] => t
  | strEvent :: rest =>
    let t := { t with m_eventQueue := rest }
    match take t strEvent with
    | some t => drain take t rest
    | none => t

/-- The loop of `Run` over the elements in the queue. -/
def runQueue (t : CacheTransport) : CacheTransport :=
  drain (runEvent valueToString jsonToEvent) t t.m_eventQueue

/-- `FlushCache`. -/
def flushCache (t : CacheTransport) : CacheTransport :=
  drain (flushEvent jsonToEvent) t t.m_eventQueue

end

/-! ## Where the two loops send an event -/

section

variable (valueToString : ℚ → String) (jsonToEvent : String → Option WrappedEvent)

/-- Where the loop of `Run` sends an event. -/
def eventDestination (t : CacheTransport) (event : WrappedEvent) : Destination :=
  if t.m_bIsEventWhitelistingEnabled = false ∨ event.strEventId ∈ t.m_setIgniteEventsList then
    .handlerChain event
  else if m_dblTimestampCutoff ≤ (event.ullTimestamp : ℚ) then .nonIgnite event
  else .deleted event

/-- The destination of an event in the loop of `Run`. -/
def runDestination (t : CacheTransport) (strEvent : String) : Option Destination :=
  (jsonToEvent strEvent).bind fun event =>
    (t.isLogCounterResetNeeded valueToString event).map fun _ => t.eventDestination event

/-- The destination of an event in the loop of `FlushCache`. -/
def flushDestination (strEvent : String) : Option Destination :=
  (jsonToEvent strEvent).map Destination.handlerChain

/-- The destinations of the events up to the first that throws. -/
def destinations (destination : String → Option Destination) : List String → List Destination
  | [] => []
  | strEvent :: rest =>
    match destination strEvent with
    | none => []
    | some d => d :: destinations destination rest

/-- The events of the queue that `FlushCache` hands on. -/
def drained (t : CacheTransport) : List String :=
  t.m_eventQueue.takeWhile fun strEvent => (jsonToEvent strEvent).isSome

/-- The event is no ignition status whose state has no text. -/
def StateReadable (event : WrappedEvent) : Prop :=
  event.strEventId = KEY_IGNITIONSTATUS → (ignState valueToString event).isSome = true

instance (event : WrappedEvent) : Decidable (StateReadable valueToString event) :=
  inferInstanceAs (Decidable (_ → _))

/-- The event is admitted, if there is a white list, and its state can be read. -/
def RoutedAlike (t : CacheTransport) (strEvent : String) : Prop :=
  ∀ event, jsonToEvent strEvent = some event →
    (t.m_bIsEventWhitelistingEnabled = false ∨ event.strEventId ∈ t.m_setIgniteEventsList) ∧
      StateReadable valueToString event

end

variable {valueToString : ℚ → String} {jsonToEvent : String → Option WrappedEvent}

/-- The rules by which the loop of `Run` sends an event. -/
structure SameRules (t t' : CacheTransport) : Prop where
  enabled : t'.m_bIsEventWhitelistingEnabled = t.m_bIsEventWhitelistingEnabled
  ids : t'.m_setIgniteEventsList = t.m_setIgniteEventsList

/-- Reading the state throws or not, whatever the transport. -/
theorem isLogCounterResetNeeded_map (t : CacheTransport) (event : WrappedEvent) (d : Destination) :
    ((t.isLogCounterResetNeeded valueToString event).map fun _ => d) =
      if StateReadable valueToString event then some d else none := by
  unfold isLogCounterResetNeeded
  by_cases hid : event.strEventId = KEY_IGNITIONSTATUS
  · rw [if_pos hid]
    by_cases hstate : (ignState valueToString event).isSome = true
    · have hread : StateReadable valueToString event := fun _ => hstate
      obtain ⟨strState, hs⟩ := Option.isSome_iff_exists.1 hstate
      rw [if_pos hread, hs, Option.map_some, Option.map_some]
    · have hread : ¬ StateReadable valueToString event := fun h => hstate (h hid)
      rw [if_neg hread, Option.not_isSome_iff_eq_none.1 hstate, Option.map_none, Option.map_none]
  · have hread : StateReadable valueToString event := fun h => absurd h hid
    rw [if_neg hid, if_pos hread, Option.map_some]

/-- The destination in the loop of `Run`, without the log. -/
theorem runDestination_eq (t : CacheTransport) (strEvent : String) :
    t.runDestination valueToString jsonToEvent strEvent =
      (jsonToEvent strEvent).bind fun event =>
        if StateReadable valueToString event then some (t.eventDestination event) else none := by
  unfold runDestination
  congr 1
  funext event
  exact isLogCounterResetNeeded_map t event _

theorem sameRules_resetLogCounter (t : CacheTransport) (bReset : Bool) :
    SameRules t (t.resetLogCounter bReset) ∧ (t.resetLogCounter bReset).routed = t.routed := by
  cases bReset
  · exact ⟨⟨rfl, rfl⟩, rfl⟩
  · exact ⟨⟨rfl, rfl⟩, rfl⟩

theorem SameRules.eventDestination {t t' : CacheTransport} (h : SameRules t t')
    (event : WrappedEvent) : t'.eventDestination event = t.eventDestination event := by
  unfold CacheTransport.eventDestination
  rw [h.enabled, h.ids]

theorem SameRules.trans {t t' t'' : CacheTransport} (h : SameRules t t') (h' : SameRules t' t'') :
    SameRules t t'' := ⟨h'.enabled.trans h.enabled, h'.ids.trans h.ids⟩

/-- The event goes where `eventDestination` says, and the rules stay. -/
theorem handle_spec (t : CacheTransport) (event : WrappedEvent) :
    (t.handle event).routed = t.routed ++ [t.eventDestination event] ∧
      SameRules t (t.handle event) := by
  unfold handle eventDestination
  by_cases henabled : t.m_bIsEventWhitelistingEnabled = true
  · -- with a white list the id decides, then the timestamp
    rw [if_neg (by simpa using henabled)]
    unfold processEvent
    by_cases hid : event.strEventId ∈ t.m_setIgniteEventsList
    · rw [if_pos hid, if_pos (Or.inr hid)]
      exact ⟨rfl, rfl, rfl⟩
    · have hnot : ¬ (t.m_bIsEventWhitelistingEnabled = false ∨
          event.strEventId ∈ t.m_setIgniteEventsList) := by simp [henabled, hid]
      rw [if_neg hid, if_neg hnot]
      by_cases hts : m_dblTimestampCutoff ≤ (event.ullTimestamp : ℚ)
      · rw [if_pos hts, if_pos hts]
        exact ⟨rfl, rfl, rfl⟩
      · rw [if_neg hts, if_neg hts]
        exact ⟨rfl, rfl, rfl⟩
  · have hoff : t.m_bIsEventWhitelistingEnabled = false := by simpa using henabled
    rw [if_pos (by simpa using henabled), if_pos (Or.inl hoff)]
    exact ⟨rfl, rfl, rfl⟩

/-- What a loop's turn must do with an event for `destination` to tell its way. -/
def Sends (take : CacheTransport → String → Option CacheTransport)
    (destination : CacheTransport → String → Option Destination) : Prop :=
  ∀ t strEvent, (take t strEvent = none ∧ destination t strEvent = none) ∨
    ∃ t' d, take t strEvent = some t' ∧ destination t strEvent = some d ∧
      t'.routed = t.routed ++ [d] ∧ SameRules t t'

variable (valueToString jsonToEvent) in
/-- One event in the loop of `Run`. -/
theorem sends_runEvent :
    Sends (runEvent valueToString jsonToEvent) (runDestination valueToString jsonToEvent) := by
  intro t strEvent
  unfold runEvent runDestination
  cases hevent : jsonToEvent strEvent with
  | none => exact Or.inl ⟨rfl, rfl⟩
  | some event =>
    simp only [Option.bind_some]
    cases hreset : t.isLogCounterResetNeeded valueToString event with
    | none => exact Or.inl ⟨rfl, rfl⟩
    | some bReset =>
      obtain ⟨hrules, hrouted⟩ := sameRules_resetLogCounter t bReset
      obtain ⟨hhandled, hsame⟩ := handle_spec (t.resetLogCounter bReset) event
      refine Or.inr ⟨_, _, rfl, rfl, ?_, hrules.trans hsame⟩
      rw [hhandled, hrouted, hrules.eventDestination]

variable (jsonToEvent) in
/-- One event in the loop of `FlushCache`. -/
theorem sends_flushEvent :
    Sends (flushEvent jsonToEvent) (fun _ => flushDestination jsonToEvent) := by
  intro t strEvent
  dsimp only
  unfold flushEvent flushDestination
  cases hevent : jsonToEvent strEvent with
  | none => exact Or.inl ⟨rfl, rfl⟩
  | some event => exact Or.inr ⟨_, _, rfl, rfl, rfl, rfl, rfl⟩

theorem SameRules.runDestination {t t' : CacheTransport} (h : SameRules t t') :
    t'.runDestination valueToString jsonToEvent = t.runDestination valueToString jsonToEvent := by
  funext strEvent
  rw [runDestination_eq, runDestination_eq]
  congr 1
  funext event
  rw [h.eventDestination]

/-- The loop sends every element up to the first that throws. -/
theorem drain_routed {take : CacheTransport → String → Option CacheTransport}
    {destination : CacheTransport → String → Option Destination} (hsends : Sends take destination)
    (hrules : ∀ t t', SameRules t t' → destination t' = destination t) (q : List String)
    (t : CacheTransport) :
    (drain take t q).routed = t.routed ++ destinations (destination t) q := by
  -- along the queue, with the rules of the transport unchanged
  induction q generalizing t with
  | nil => exact (List.append_nil _).symm
  | cons strEvent rest ih =>
    have hsame : SameRules t { t with m_eventQueue := rest } := ⟨rfl, rfl⟩
    have hdest := hrules _ _ hsame
    simp only [drain, destinations]
    rcases hsends { t with m_eventQueue := rest } strEvent with ⟨htake, hd⟩ |
      ⟨t', d, htake, hd, hrouted, hkept⟩
    · rw [hdest] at hd
      rw [htake, hd]
      exact (List.append_nil _).symm
    · rw [hdest] at hd
      rw [htake, hd]
      show (drain take t' rest).routed = _
      rw [ih t', hrouted, hrules _ _ (hsame.trans hkept), List.append_assoc]
      rfl

variable (valueToString jsonToEvent) in
theorem runQueue_routed (t : CacheTransport) :
    (t.runQueue valueToString jsonToEvent).routed =
      t.routed ++ destinations (t.runDestination valueToString jsonToEvent) t.m_eventQueue :=
  drain_routed (sends_runEvent valueToString jsonToEvent) (fun _ _ h => h.runDestination) _ t

variable (jsonToEvent) in
theorem flushCache_routed (t : CacheTransport) :
    (t.flushCache jsonToEvent).routed =
      t.routed ++ destinations (flushDestination jsonToEvent) t.m_eventQueue :=
  drain_routed (sends_flushEvent jsonToEvent) (fun _ _ _ => rfl) _ t

/-- Two loops, the second of which throws where the first does, send the same
ways iff they do so up to the first that throws. -/
theorem destinations_eq_iff {f g : String → Option Destination} (hfg : ∀ s, f s = none → g s = none)
    (q : List String) :
    destinations f q = destinations g q ↔
      ∀ s ∈ q.takeWhile (fun s => (f s).isSome), f s = g s := by
  -- along the queue: the first element that throws in `f` ends both lists
  induction q with
  | nil => simp [destinations]
  | cons s rest ih =>
    cases hf : f s with
    | none =>
      rw [List.takeWhile_cons_of_neg (by simp [hf])]
      simp [destinations, hf, hfg s hf]
    | some d =>
      rw [List.takeWhile_cons_of_pos (by simp [hf]), List.forall_mem_cons, ← ih, hf]
      cases hg : g s with
      | none => simp [destinations, hf, hg]
      | some d' => simp [destinations, hf, hg]

/-- One event goes the same way in both loops. -/
theorem flushDestination_eq_iff {t : CacheTransport} {strEvent : String}
    (hevent : (jsonToEvent strEvent).isSome = true) :
    flushDestination jsonToEvent strEvent =
        t.runDestination valueToString jsonToEvent strEvent ↔
      t.RoutedAlike valueToString jsonToEvent strEvent := by
  obtain ⟨event, he⟩ := Option.isSome_iff_exists.1 hevent
  have hrouted : t.RoutedAlike valueToString jsonToEvent strEvent ↔
      (t.m_bIsEventWhitelistingEnabled = false ∨ event.strEventId ∈ t.m_setIgniteEventsList) ∧
        StateReadable valueToString event := by
    constructor
    · exact fun h => h event he
    · intro h event' he'
      rw [he] at he'
      cases he'
      exact h
  rw [hrouted, runDestination_eq]
  unfold flushDestination eventDestination
  rw [he, Option.map_some, Option.bind_some]
  -- both loops throw on what cannot be read, and only one looks at the whitelist
  by_cases hread : StateReadable valueToString event
  · rw [if_pos hread]
    by_cases hadmitted : t.m_bIsEventWhitelistingEnabled = false ∨
        event.strEventId ∈ t.m_setIgniteEventsList
    · rw [if_pos hadmitted]
      exact ⟨fun _ => ⟨hadmitted, hread⟩, fun _ => rfl⟩
    · rw [if_neg hadmitted]
      constructor
      · intro heq
        split at heq <;> cases heq
      · exact fun h => absurd h.1 hadmitted
  · rw [if_neg hread]
    constructor
    · exact fun heq => by cases heq
    · exact fun h => absurd h.2 hread

/-- `FlushCache` sends the events of the queue the same ways as the loop of `Run`
iff each of them is admitted and readable. -/
theorem flushCache_routed_iff (valueToString : ℚ → String)
    (jsonToEvent : String → Option WrappedEvent) (t : CacheTransport) :
    (t.flushCache jsonToEvent).routed = (t.runQueue valueToString jsonToEvent).routed ↔
      ∀ strEvent ∈ t.drained jsonToEvent, t.RoutedAlike valueToString jsonToEvent strEvent := by
  have hthrows : ∀ strEvent, flushDestination jsonToEvent strEvent = none →
      t.runDestination valueToString jsonToEvent strEvent = none := by
    intro strEvent h
    have hnone : jsonToEvent strEvent = none := Option.map_eq_none_iff.1 h
    rw [runDestination_eq, hnone, Option.bind_none]
  have hsome : ∀ strEvent, (flushDestination jsonToEvent strEvent).isSome =
      (jsonToEvent strEvent).isSome := fun strEvent => Option.isSome_map
  rw [flushCache_routed, runQueue_routed, List.append_cancel_left_eq, destinations_eq_iff hthrows]
  unfold drained
  simp only [hsome]
  constructor
  · intro h strEvent hmem
    have hevent := List.mem_takeWhile_imp hmem
    exact (flushDestination_eq_iff hevent).1 (h strEvent hmem)
  · intro h strEvent hmem
    have hevent := List.mem_takeWhile_imp hmem
    exact (flushDestination_eq_iff hevent).2 (h strEvent hmem)

def sampleLog : InflowLog := ⟨∅, .null, fun _ => none, -1, eIGN_CYCLE, fun _ => none⟩

/-- A white list and a domain map, and nothing about logging. -/
def sampleConfig (ids : List JsonValue) (domainEventMap : JsonValue) : CacheTransportConfig :=
  ⟨.array ids, domainEventMap, .null, some (-1), some eIGN_CYCLE⟩

def sampleEvent : WrappedEvent := ⟨"Rpm", 1704067200001, .null⟩

/-- An event that is not on the white list goes around the chain of handlers, and
through it when the cache is flushed. -/
theorem not_flushCache_routed :
    ∃ t, init (fun _ => "") sampleLog false false (sampleConfig [.string "Speed"] .null) = some t ∧
      ({ t with m_eventQueue := ["e"] }.flushCache fun _ => some sampleEvent).routed =
        [.handlerChain sampleEvent] ∧
      ({ t with m_eventQueue := ["e"] }.runQueue (fun _ => "") fun _ => some sampleEvent).routed =
        [.nonIgnite sampleEvent] := by
  refine ⟨_, rfl, rfl, ?_⟩
  rw [runQueue_routed]
  decide

/-! ## The admitted ids after updates -/

section

variable (valueToString : ℚ → String)

/-- The admitted ids are those of the white list and the domain map that the
transport holds, and those of the message handlers. -/
def Admits (bIncludeAnalytics : Bool) (t : CacheTransport) : Prop :=
  ∃ setWhitelisted setDomain,
    populateWhitelistedEventList valueToString t.m_jsonConfigWhitelistedEvents =
      some setWhitelisted ∧
    populateEventsFromDomainMap valueToString t.m_jsonConfigDomainEventMap = some setDomain ∧
    t.m_setIgniteEventsList =
      setWhitelisted ∪ setDomain ∪ getSupplimentaryEventsListToWhitelist bIncludeAnalytics

/-- A configuration with a white list and a domain map, both with ids that have
a text, whose part about logging can be read. -/
structure Complete (cfg : CacheTransportConfig) : Prop where
  whiteList : isIgniteWhiteListedEventsValid cfg.igniteWhiteListedEvents = true
  domainObject : cfg.domainEventMap.isObject = true
  domainNonempty : cfg.domainEventMap.empty = false
  listed : (listedEvents valueToString cfg.igniteWhiteListedEvents cfg.domainEventMap).isSome = true
  logged : ∀ values, cfg.criticalEventLoggingCount = .array values →
    (updateLogConfigMap (fun _ => none) values).2 = true
  defaultCount : cfg.defaultLoggingCount.isSome = true
  counterReset : cfg.logCounterReset.isSome = true

end

theorem getSupplimentaryEventsListToWhitelist_eq (bIncludeAnalytics : Bool) :
    getSupplimentaryEventsListToWhitelist bIncludeAnalytics = ∅ := by
  cases bIncludeAnalytics <;> rfl

theorem listedEvents_eq_some {jsonIgniteEvents jsonDomainEventMap : JsonValue}
    {ids : Finset String}
    (h : listedEvents valueToString jsonIgniteEvents jsonDomainEventMap = some ids) :
    ∃ setWhitelisted setDomain,
      populateWhitelistedEventList valueToString jsonIgniteEvents = some setWhitelisted ∧
      populateEventsFromDomainMap valueToString jsonDomainEventMap = some setDomain ∧
      ids = setWhitelisted ∪ setDomain := by
  unfold listedEvents at h
  obtain ⟨setWhitelisted, hw, h⟩ := Option.bind_eq_some_iff.1 h
  obtain ⟨setDomain, hd, rfl⟩ := Option.map_eq_some_iff.1 h
  refine ⟨setWhitelisted, setDomain, hw, hd, ?_⟩
  split
  · rfl
  · rename_i hcard
    have hempty : setDomain = ∅ := Finset.card_eq_zero.1 (by omega)
    rw [hempty, Finset.union_empty]

/-- What an update does to the members of the white list: nothing, or it takes
over the configuration. -/
inductive Updated (valueToString : ℚ → String) (t : CacheTransport) (cfg : CacheTransportConfig)
    (t' : CacheTransport) : Prop where
  | kept (hignite : t'.m_jsonConfigWhitelistedEvents = t.m_jsonConfigWhitelistedEvents)
      (hdomain : t'.m_jsonConfigDomainEventMap = t.m_jsonConfigDomainEventMap)
      (hids : t'.m_setIgniteEventsList = t.m_setIgniteEventsList)
  | adopted (ids : Finset String)
      (hlisted : listedEvents valueToString cfg.igniteWhiteListedEvents cfg.domainEventMap =
        some ids)
      (hignite : t'.m_jsonConfigWhitelistedEvents = cfg.igniteWhiteListedEvents)
      (hdomain : t'.m_jsonConfigDomainEventMap = cfg.domainEventMap)
      (hids : t'.m_setIgniteEventsList = ids)

variable (valueToString) in
/-- The whole of `UpdateIgniteWhitelistEventList`; a complete configuration is in
force afterwards. -/
theorem updateIgniteWhitelistEventList_spec (t : CacheTransport) (cfg : CacheTransportConfig) :
    let t' := (t.updateIgniteWhitelistEventList valueToString cfg).getD t
    Updated valueToString t cfg t' ∧
      t'.m_bIsEventWhitelistingEnabled = t.m_bIsEventWhitelistingEnabled ∧
      (Complete valueToString cfg → t.m_bIsEventWhitelistingEnabled = true →
        t'.m_jsonConfigWhitelistedEvents = cfg.igniteWhiteListedEvents ∧
        t'.m_jsonConfigDomainEventMap = cfg.domainEventMap) := by
  dsimp only
  have hkept : Updated valueToString t cfg t := .kept rfl rfl rfl
  unfold updateIgniteWhitelistEventList
  by_cases henabled : t.m_bIsEventWhitelistingEnabled = true
  · rw [if_neg (by simpa using henabled)]
    by_cases hvalid : isIgniteWhiteListedEventsValid cfg.igniteWhiteListedEvents = true
    · rw [if_pos hvalid]
      dsimp only
      by_cases hchanged : (decide (t.m_jsonConfigWhitelistedEvents ≠ cfg.igniteWhiteListedEvents) ||
          t.isDomainEventMapValid cfg.domainEventMap) = true
      · rw [if_pos hchanged]
        cases hlisted : listedEvents valueToString cfg.igniteWhiteListedEvents
            cfg.domainEventMap with
        | none =>
          refine ⟨hkept, rfl, fun hcfg => ?_⟩
          have hsome := hcfg.listed
          rw [hlisted] at hsome
          cases hsome
        | some ids => exact ⟨.adopted ids hlisted rfl rfl rfl, rfl, fun _ _ => ⟨rfl, rfl⟩⟩
      · -- nothing has changed, so a complete configuration is the one in force
        rw [if_neg hchanged]
        refine ⟨hkept, rfl, fun hcfg _ => ?_⟩
        have hobject := hcfg.domainObject
        have hnull : cfg.domainEventMap.isNull = false := by
          cases hmap : cfg.domainEventMap with
          | object members => rfl
          | null | int | uint | real | boolean | string | array =>
            rw [hmap] at hobject
            cases hobject
        simp only [isDomainEventMapValid, hobject, hnull, hcfg.domainNonempty, Bool.not_false,
          Bool.true_and, Bool.or_eq_true, decide_eq_true_eq, not_or, not_not] at hchanged
        exact hchanged
    · rw [if_neg hvalid]
      exact ⟨hkept, rfl, fun hcfg => absurd hcfg.whiteList hvalid⟩
  · rw [if_pos (by simpa using henabled)]
    exact ⟨hkept, rfl, fun _ h => absurd h henabled⟩

/-- The part of a complete configuration about logging gets through. -/
theorem log_notifyConfigUpdate (log : InflowLog) {cfg : CacheTransportConfig}
    (hcfg : Complete valueToString cfg) : (log.notifyConfigUpdate cfg).2 = true := by
  obtain ⟨nDefault, hdefault⟩ := Option.isSome_iff_exists.1 hcfg.defaultCount
  obtain ⟨nReset, hreset⟩ := Option.isSome_iff_exists.1 hcfg.counterReset
  have hlist : (log.updateEvntList cfg.criticalEventLoggingCount).2 = true := by
    unfold InflowLog.updateEvntList
    split
    · rename_i value rest hvalues
      split
      · rfl
      · exact hcfg.logged _ hvalues
    · rfl
  unfold InflowLog.notifyConfigUpdate
  simp only [hlist, hdefault, hreset]

variable (valueToString) in
/-- The same of the whole callback. -/
theorem notifyConfigUpdate_spec (t : CacheTransport) (cfg : CacheTransportConfig) :
    Updated valueToString t cfg (t.notifyConfigUpdate valueToString cfg) ∧
      (t.notifyConfigUpdate valueToString cfg).m_bIsEventWhitelistingEnabled =
        t.m_bIsEventWhitelistingEnabled ∧
      (Complete valueToString cfg → t.m_bIsEventWhitelistingEnabled = true →
        (t.notifyConfigUpdate valueToString cfg).m_jsonConfigWhitelistedEvents =
          cfg.igniteWhiteListedEvents ∧
        (t.notifyConfigUpdate valueToString cfg).m_jsonConfigDomainEventMap =
          cfg.domainEventMap) := by
  unfold notifyConfigUpdate
  dsimp only
  by_cases hdone : (t.log.notifyConfigUpdate cfg).2 = true
  · rw [if_pos hdone]
    obtain ⟨hupdated, henabled, hcomplete⟩ := updateIgniteWhitelistEventList_spec
      valueToString { t with log := (t.log.notifyConfigUpdate cfg).1 } cfg
    refine ⟨?_, henabled, hcomplete⟩
    cases hupdated with
    | kept hignite hdomain hids => exact .kept hignite hdomain hids
    | adopted ids hlisted hignite hdomain hids => exact .adopted ids hlisted hignite hdomain hids
  · rw [if_neg hdone]
    exact ⟨.kept rfl rfl rfl, rfl, fun hcfg => absurd (log_notifyConfigUpdate t.log hcfg) hdone⟩

/-- The constructor with a white list. -/
theorem init_enabled {log : InflowLog} {bIncludeAnalytics bStreamModeSupported : Bool}
    {cfg : CacheTransportConfig} {t : CacheTransport}
    (hinit : init valueToString log bIncludeAnalytics bStreamModeSupported cfg = some t)
    (henabled : t.m_bIsEventWhitelistingEnabled = true) :
    t.m_jsonConfigWhitelistedEvents = cfg.igniteWhiteListedEvents ∧
      t.m_jsonConfigDomainEventMap = cfg.domainEventMap ∧
      Admits valueToString bIncludeAnalytics t := by
  unfold init at hinit
  split at hinit
  · obtain ⟨ids, hlisted, rfl⟩ := Option.map_eq_some_iff.1 hinit
    obtain ⟨setWhitelisted, setDomain, hw, hd, rfl⟩ := listedEvents_eq_some hlisted
    refine ⟨rfl, rfl, setWhitelisted, setDomain, hw, hd, ?_⟩
    rw [getSupplimentaryEventsListToWhitelist_eq]
    cases bStreamModeSupported <;> simp
  · cases hinit
    cases henabled

/-- What holds after the constructor and any updates: the ids admitted are those
of a configuration seen so far. -/
structure UpdateInv (valueToString : ℚ → String) (bIncludeAnalytics : Bool)
    (cfgs : List CacheTransportConfig) (t : CacheTransport) : Prop where
  enabled : t.m_bIsEventWhitelistingEnabled = true
  admits : Admits valueToString bIncludeAnalytics t
  seen : ∃ c ∈ cfgs, t.m_jsonConfigWhitelistedEvents = c.igniteWhiteListedEvents ∧
    t.m_jsonConfigDomainEventMap = c.domainEventMap

theorem UpdateInv.notifyConfigUpdate {bIncludeAnalytics : Bool} {cfgs : List CacheTransportConfig}
    {t : CacheTransport} (h : UpdateInv valueToString bIncludeAnalytics cfgs t)
    (cfg : CacheTransportConfig) :
    UpdateInv valueToString bIncludeAnalytics (cfgs ++ [cfg])
      (t.notifyConfigUpdate valueToString cfg) := by
  obtain ⟨hupdated, henabled, _⟩ := notifyConfigUpdate_spec valueToString t cfg
  obtain ⟨setWhitelisted, setDomain, hw, hd, hset⟩ := h.admits
  obtain ⟨c, hc, hcignite, hcdomain⟩ := h.seen
  refine ⟨henabled.trans h.enabled, ?_, ?_⟩
  · cases hupdated with
    | kept hignite hdomain hids =>
      exact ⟨setWhitelisted, setDomain, by rw [hignite, hw], by rw [hdomain, hd],
        by rw [hids, hset]⟩
    | adopted ids hlisted hignite hdomain hids =>
      obtain ⟨setWhitelisted', setDomain', hw', hd', rfl⟩ := listedEvents_eq_some hlisted
      refine ⟨setWhitelisted', setDomain', by rw [hignite, hw'], by rw [hdomain, hd'], ?_⟩
      rw [hids, getSupplimentaryEventsListToWhitelist_eq, Finset.union_empty]
  · cases hupdated with
    | kept hignite hdomain hids =>
      exact ⟨c, List.mem_append.2 (Or.inl hc), hignite.trans hcignite, hdomain.trans hcdomain⟩
    | adopted ids hlisted hignite hdomain hids =>
      exact ⟨cfg, List.mem_append.2 (Or.inr (List.mem_singleton.2 rfl)), hignite, hdomain⟩

theorem updateInv_of_updates {bIncludeAnalytics : Bool} {seen : List CacheTransportConfig}
    {t : CacheTransport} (h : UpdateInv valueToString bIncludeAnalytics seen t)
    (cfgs : List CacheTransportConfig) :
    UpdateInv valueToString bIncludeAnalytics (seen ++ cfgs)
      (cfgs.foldl (notifyConfigUpdate valueToString) t) := by
  induction cfgs generalizing seen t with
  | nil =>
    rw [List.append_nil]
    exact h
  | cons cfg cfgs ih =>
    have hrest := ih (h.notifyConfigUpdate cfg)
    rw [List.append_assoc] at hrest
    exact hrest

/-- An update of both lists, and then one of the white list alone. -/
def sampleUpdates : List CacheTransportConfig :=
  [sampleConfig [.string "Fuel"] (.object [("d", .array [.string "Oil"])]),
    sampleConfig [.string "Speed"] (.object [("d", .array [.string "Oil"])])]

end CacheTransport

end DeviceClient
