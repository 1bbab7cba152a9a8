import DeviceClient.Dam.CacheTransport
import DeviceClient.Lib.Noninterference
import DeviceClient.Lib.Run
import DeviceClient.Util.JsonPath

/-!
# The budget of events logged in full

Between two resets of its counters the transport logs an event id as often as its
limit says: the count from the list that was taken over last, brought into the range
from -1 to 100, or the default count.

* `initConfigBasedLogging`: the limits at the start.
* `listed_final`: the entries are those of the list, in every run.
* `count_critical`: how often an id is logged while its limit stays.
* `blind_only`: the events of the other ids do not matter.
* `log_act`: what the transport does is such a run.
-/

namespace DeviceClient

/-- An event, a configuration update or a reset of the counters. -/
inductive LogAct
  | event (eID : String)
  | update (cfg : CacheTransportConfig)
  | reset
deriving DecidableEq

/-! ## Limits -/

/-- The first integer that the objects of a list have for the id. -/
def firstCount (eID : String) : List JsonValue → Option ℤ
  | [] => none
  | .null :: rest => firstCount eID rest
  | .object members :: rest =>
    (members.findSome? fun m => if m.1 = eID then m.2.asIntOfInt else none).or
      (firstCount eID rest)
  -- what stands behind such an element is not read
  | _ :: _ => none

/-- The count of the id in the list of counts. -/
def configuredCount (eID : String) : JsonValue → Option ℤ
  | .array values => firstCount eID values
  | _ => none

namespace InflowLog

/-- The list of counts at the start with its entries, and whether there is a list;
`none` if an exception leaves `UpdateLogConfigMap`. -/
def initEvntList : Option JsonValue → Option (JsonValue × (String → Option ℤ) × Bool)
  | some (.array values) =>
    if (updateLogConfigMap (fun _ => none) values).2 then
      some (.array values, (updateLogConfigMap (fun _ => none) values).1, true)
    else none
  | _ => some (.null, fun _ => none, false)

/-- The alerts, and whether there is a list of them. -/
def initAlertsList (valueToString : ℚ → String) : JsonValue → Option (Finset String × Bool)
  | .array values =>
    (values.mapM (JsonValue.asString valueToString)).map fun alerts => (alerts.toFinset, true)
  | _ => some (∅, false)

/-- `InitConfigBasedLogging`, with the value that it returns; `none` if an exception
leaves it. -/
def initConfigBasedLogging (valueToString : ℚ → String)
    (inflowEvntLogCfg alertArray : JsonValue) (logCounterReset : Option ℤ) :
    Option (InflowLog × Bool) :=
  inflowEvntLogCfg.objectMembers.bind fun members =>
    (initEvntList (members.lookup "criticalEventLoggingCount")).bind fun list =>
      (initAlertsList valueToString alertArray).bind fun alerts =>
        logCounterReset.map fun nReset =>
          ({ m_setAlertsList := alerts.1
             m_jsonEvntList := list.1
             m_mapLogConfig := list.2.1
             m_nDefInflowEventLogCnt :=
               ((members.lookup "defaultLoggingCount").bind JsonValue.asIntOfInt).getD
                 DEF_INFLOW_EVENT_LOG_CNT
             m_nLogCounterReset := nReset
             m_mapEvntLog := fun _ => none }, list.2.2 && alerts.2)

/-- One act, and for an event the id with whether it is logged in full. -/
def step (log : InflowLog) : LogAct → InflowLog × List (String × Bool)
  | .event eID => ((log.logCriticalEvent eID).1, [(eID, (log.logCriticalEvent eID).2)])
  | .update cfg => ((log.notifyConfigUpdate cfg).1, [])
  | .reset => (log.resetInflowEventLogCounter, [])

/-- The limit of an id: none for an alert, else the count of the list or the default. -/
def limit (log : InflowLog) (eID : String) : ℤ :=
  if eID ∈ log.m_setAlertsList then -1
  else ((configuredCount eID log.m_jsonEvntList).map getValidInflowLogCount).getD
    log.m_nDefInflowEventLogCnt

/-- At every event of the id its limit is `n`. -/
def LimitHeld (eID : String) (n : ℤ) (log : InflowLog) (acts : List LogAct) : Prop :=
  Lib.Along (fun log act => some (log.step act).1)
    (fun log act => act = .event eID → log.limit eID = n) log acts

instance (eID : String) (n : ℤ) (log : InflowLog) (acts : List LogAct) :
    Decidable (LimitHeld eID n log acts) :=
  Lib.decidableAlong _ _ log acts

/-- How often the id is logged in full. -/
def timesLogged (eID : String) (log : InflowLog) (acts : List LogAct) : ℕ :=
  (Lib.outputs step log acts).count (eID, true)

/-! ## The entries are those of the list -/

/-- The entries of the map are the counts of the list. -/
def Listed (log : InflowLog) : Prop :=
  log.m_mapLogConfig = fun eID =>
    (configuredCount eID log.m_jsonEvntList).map getValidInflowLogCount

theorem insertLogCount_apply (mapLogConfig : String → Option ℤ) (m : String × JsonValue)
    (eID : String) : insertLogCount mapLogConfig m eID =
      (mapLogConfig eID).or
        ((if m.1 = eID then m.2.asIntOfInt else none).map getValidInflowLogCount) := by
  unfold insertLogCount
  by_cases hid : m.1 = eID
  · subst hid
    rw [if_pos rfl]
    cases m.2.asIntOfInt <;> cases hentry : mapLogConfig m.1 <;> simp [hentry]
  · rw [if_neg hid, Option.map_none, Option.or_none]
    cases m.2.asIntOfInt <;> cases mapLogConfig m.1 <;> simp [Function.update_of_ne (Ne.symm hid)]

/-- The members of one object leave the entries that are there. -/
theorem foldl_insertLogCount_apply (members : List (String × JsonValue))
    (mapLogConfig : String → Option ℤ) (eID : String) :
    members.foldl insertLogCount mapLogConfig eID =
      (mapLogConfig eID).or
        ((members.findSome? fun m => if m.1 = eID then m.2.asIntOfInt else none).map
          getValidInflowLogCount) := by
  induction members generalizing mapLogConfig with
  | nil => simp
  | cons m rest ih =>
    rw [List.foldl_cons, ih, insertLogCount_apply, List.findSome?_cons, Option.or_assoc]
    cases (if m.1 = eID then m.2.asIntOfInt else none) with
    | none => rfl
    | some n => rw [Option.map_some, Option.some_or]

theorem updateLogConfigMap_apply (values : List JsonValue) (mapLogConfig : String → Option ℤ)
    (eID : String) : (updateLogConfigMap mapLogConfig values).1 eID =
      (mapLogConfig eID).or ((firstCount eID values).map getValidInflowLogCount) := by
  induction values generalizing mapLogConfig with
  | nil => simp [updateLogConfigMap, firstCount]
  | cons value rest ih =>
    cases value with
    | null => exact ih mapLogConfig
    | object members =>
      rw [updateLogConfigMap, ih, foldl_insertLogCount_apply, Option.or_assoc, firstCount,
        Option.map_or]
    | _ => simp [updateLogConfigMap, firstCount]

theorem listed_updateLogConfigMap (values : List JsonValue) :
    (updateLogConfigMap (fun _ => none) values).1 =
      fun eID => (configuredCount eID (.array values)).map getValidInflowLogCount := by
  funext eID
  rw [updateLogConfigMap_apply, Option.none_or]
  rfl

theorem initEvntList_listed {value : Option JsonValue} {list : JsonValue}
    {mapLogConfig : String → Option ℤ} {flag : Bool}
    (h : initEvntList value = some (list, mapLogConfig, flag)) :
    mapLogConfig = fun eID => (configuredCount eID list).map getValidInflowLogCount := by
  unfold initEvntList at h
  split at h
  · split at h
    · cases h
      exact listed_updateLogConfigMap _
    · cases h
  · cases h
    rfl

/-- At the start the entries are those of the list, and nothing is counted. -/
theorem listed_init {valueToString : ℚ → String} {inflowEvntLogCfg alertArray : JsonValue}
    {logCounterReset : Option ℤ} {log : InflowLog} {flag : Bool}
    (h : initConfigBasedLogging valueToString inflowEvntLogCfg alertArray logCounterReset =
      some (log, flag)) : log.Listed ∧ log.m_mapEvntLog = fun _ => none := by
  unfold initConfigBasedLogging at h
  obtain ⟨members, -, h⟩ := Option.bind_eq_some_iff.1 h
  obtain ⟨list, hlist, h⟩ := Option.bind_eq_some_iff.1 h
  obtain ⟨alerts, -, h⟩ := Option.bind_eq_some_iff.1 h
  obtain ⟨nReset, -, h⟩ := Option.map_eq_some_iff.1 h
  cases h
  exact ⟨initEvntList_listed hlist, rfl⟩

theorem listed_updateEvntList {log : InflowLog} (h : log.Listed) (newEventList : JsonValue) :
    (log.updateEvntList newEventList).1.Listed := by
  unfold updateEvntList
  split
  · split
    · exact h
    · exact listed_updateLogConfigMap _
  · exact h

/-- The counters are replaced. -/
def withCounters (log : InflowLog) (m_mapEvntLog : String → Option ℤ) : InflowLog :=
  { log with m_mapEvntLog := m_mapEvntLog }

theorem updateEvntList_withCounters (log : InflowLog) (m_mapEvntLog : String → Option ℤ)
    (newEventList : JsonValue) :
    (log.withCounters m_mapEvntLog).updateEvntList newEventList =
      ((log.updateEvntList newEventList).1.withCounters m_mapEvntLog,
        (log.updateEvntList newEventList).2) := by
  unfold updateEvntList
  split
  · next value rest =>
    by_cases hsame : log.m_jsonEvntList = .array (value :: rest)
    · have hsame' : (log.withCounters m_mapEvntLog).m_jsonEvntList = .array (value :: rest) := hsame
      rw [if_pos hsame, if_pos hsame']
    · have hsame' : ¬ (log.withCounters m_mapEvntLog).m_jsonEvntList = .array (value :: rest) :=
        hsame
      rw [if_neg hsame, if_neg hsame']
      rfl
  · rfl

/-- A configuration update neither reads nor writes the counters. -/
theorem notifyConfigUpdate_withCounters (log : InflowLog) (m_mapEvntLog : String → Option ℤ)
    (cfg : CacheTransportConfig) :
    ((log.withCounters m_mapEvntLog).notifyConfigUpdate cfg).1 =
      (log.notifyConfigUpdate cfg).1.withCounters m_mapEvntLog := by
  unfold notifyConfigUpdate
  rw [updateEvntList_withCounters]
  dsimp only
  split <;> rfl

theorem m_mapEvntLog_notifyConfigUpdate (log : InflowLog) (cfg : CacheTransportConfig) :
    (log.notifyConfigUpdate cfg).1.m_mapEvntLog = log.m_mapEvntLog := by
  have h := congrArg (·.m_mapEvntLog) (notifyConfigUpdate_withCounters log log.m_mapEvntLog cfg)
  exact h

theorem listed_notifyConfigUpdate {log : InflowLog} (h : log.Listed)
    (cfg : CacheTransportConfig) : (log.notifyConfigUpdate cfg).1.Listed := by
  have hlist := listed_updateEvntList h cfg.criticalEventLoggingCount
  unfold notifyConfigUpdate
  dsimp only
  split <;> exact hlist

/-! ## One id -/

/-- What an event does with the counter of its id under a limit. -/
def budget (nMaxCount : ℤ) (counted : Option ℤ) : Option ℤ × Bool :=
  if nMaxCount = -1 then (counted, true)
  else if nMaxCount = 0 then (counted, false)
  else if counted.getD 0 < nMaxCount ∨ counted = none then (some (counted.getD 0 + 1), true)
  else (counted, false)

/-- The counter of an id is set. -/
def setCounted (log : InflowLog) (eID : String) (counted : Option ℤ) : InflowLog :=
  { log with m_mapEvntLog := Function.update log.m_mapEvntLog eID counted }

theorem setCounted_self (log : InflowLog) (eID : String) :
    log.setCounted eID (log.m_mapEvntLog eID) = log := by
  rw [setCounted, Function.update_eq_self]

theorem logEventBasedOnCount_eq (log : InflowLog) (nMaxCount : ℤ) (strEvntID : String) :
    log.logEventBasedOnCount nMaxCount strEvntID =
      (log.setCounted strEvntID (budget nMaxCount (log.m_mapEvntLog strEvntID)).1,
        (budget nMaxCount (log.m_mapEvntLog strEvntID)).2) := by
  unfold logEventBasedOnCount budget
  split
  · rw [setCounted_self]
  · split
    · rw [setCounted_self]
    · cases hcounted : log.m_mapEvntLog strEvntID with
      | none => simp [setCounted]
      | some n =>
        by_cases hlt : n < nMaxCount
        · simp [hlt, setCounted]
        · have hself : log.setCounted strEvntID (some n) = log := by
            rw [← hcounted, setCounted_self]
          simp [hlt, hself]

/-- The limit that `LogCriticalEvent` finds. -/
def limitFound (log : InflowLog) (eID : String) : ℤ :=
  if eID ∈ log.m_setAlertsList then -1
  else (log.m_mapLogConfig eID).getD log.m_nDefInflowEventLogCnt

theorem Listed.limitFound_eq {log : InflowLog} (h : log.Listed) (eID : String) :
    log.limitFound eID = log.limit eID := by
  unfold InflowLog.limitFound InflowLog.limit
  rw [congrFun h eID]

/-- An event spends the budget of its id under its limit. -/
theorem logCriticalEvent_eq (log : InflowLog) (eID : String) :
    log.logCriticalEvent eID =
      (log.setCounted eID (budget (log.limitFound eID) (log.m_mapEvntLog eID)).1,
        (budget (log.limitFound eID) (log.m_mapEvntLog eID)).2) := by
  unfold logCriticalEvent limitFound
  by_cases halert : eID ∈ log.m_setAlertsList
  · rw [if_pos halert, if_pos halert, budget, if_pos rfl, setCounted_self]
  · rw [if_neg halert, if_neg halert]
    cases log.m_mapLogConfig eID with
    | none => exact logEventBasedOnCount_eq log log.m_nDefInflowEventLogCnt eID
    | some nMaxCount => exact logEventBasedOnCount_eq log nMaxCount eID

theorem step_event (log : InflowLog) (eID : String) :
    log.step (.event eID) =
      (log.setCounted eID (budget (log.limitFound eID) (log.m_mapEvntLog eID)).1,
        [(eID, (budget (log.limitFound eID) (log.m_mapEvntLog eID)).2)]) := by
  show ((log.logCriticalEvent eID).1, [(eID, (log.logCriticalEvent eID).2)]) = _
  rw [logCriticalEvent_eq]

/-- In every run the entries stay those of the list. -/
theorem listed_step (log : InflowLog) (act : LogAct) (h : log.Listed) :
    (log.step act).1.Listed := by
  cases act with
  | event eID =>
    rw [step_event]
    exact h
  | update cfg => exact listed_notifyConfigUpdate h cfg
  | reset => exact h

theorem listed_final {log : InflowLog} (h : log.Listed) (acts : List LogAct) :
    (Lib.final step log acts).Listed :=
  Lib.final_inv listed_step h acts

/-- An act that is neither an event of the id nor a reset leaves its counter. -/
theorem m_mapEvntLog_step (log : InflowLog) {eID : String} {act : LogAct}
    (hevent : act ≠ .event eID) (hreset : act ≠ .reset) :
    (log.step act).1.m_mapEvntLog eID = log.m_mapEvntLog eID := by
  cases act with
  | event eID' =>
    have hne : eID ≠ eID' := fun heq => hevent (by rw [heq])
    rw [step_event]
    exact Function.update_of_ne hne _ _
  | update cfg => exact congrFun (m_mapEvntLog_notifyConfigUpdate log cfg) eID
  | reset => exact absurd rfl hreset

/-- An event of the id, and what comes after it. -/
theorem timesLogged_cons_event (log : InflowLog) (eID : String) (acts : List LogAct) :
    timesLogged eID log (.event eID :: acts) =
      (if (budget (log.limitFound eID) (log.m_mapEvntLog eID)).2 then 1 else 0) +
        timesLogged eID (log.step (.event eID)).1 acts := by
  unfold timesLogged
  rw [Lib.outputs, List.count_append]
  congr 1
  rw [step_event, List.count_singleton]
  cases (budget (log.limitFound eID) (log.m_mapEvntLog eID)).2 <;> simp

theorem timesLogged_cons_of_ne {eID : String} {act : LogAct} (hevent : act ≠ .event eID)
    (log : InflowLog) (acts : List LogAct) :
    timesLogged eID log (act :: acts) = timesLogged eID (log.step act).1 acts := by
  unfold timesLogged
  rw [Lib.outputs, List.count_append, Nat.add_eq_right]
  cases act with
  | event eID' =>
    have hne : eID' ≠ eID := fun heq => hevent (by rw [heq])
    exact List.count_eq_zero.2 (by simp [step, hne.symm])
  | update cfg => rfl
  | reset => rfl

/-- Of `k` events of an id that has been counted, how many are logged under the limit. -/
def left (n : ℤ) (counted : Option ℤ) (k : ℕ) : ℤ :=
  if n = -1 then k else min k (n - counted.getD 0)

/-- The counter of an id is not above its limit. -/
def Within (n : ℤ) (counted : Option ℤ) : Prop :=
  0 ≤ counted.getD 0 ∧ (n = -1 ∨ counted.getD 0 ≤ n)

/-- One event takes one from what is left. -/
theorem budget_spec {n : ℤ} {counted : Option ℤ} (h : Within n counted) (k : ℕ) :
    Within n (budget n counted).1 ∧
      (if (budget n counted).2 then 1 else 0) + left n (budget n counted).1 k =
        left n counted (k + 1) := by
  obtain ⟨hcounted, hn⟩ := h
  unfold budget left
  by_cases hinfinite : n = -1
  · simp only [if_pos hinfinite]
    exact ⟨⟨hcounted, hn⟩, by push_cast; omega⟩
  · have hle : counted.getD 0 ≤ n := hn.resolve_left hinfinite
    simp only [if_neg hinfinite]
    by_cases hzero : n = 0
    · simp only [if_pos hzero]
      exact ⟨⟨hcounted, hn⟩, by simp; omega⟩
    · simp only [if_neg hzero]
      by_cases hlt : counted.getD 0 < n
      · simp only [if_pos (Or.inl hlt : _ ∨ counted = none), Option.getD_some]
        refine ⟨⟨?_, Or.inr ?_⟩, ?_⟩
        · rw [Option.getD_some]
          omega
        · rw [Option.getD_some]
          omega
        · push_cast
          omega
      · -- an id without a counter has some budget left
        have hsome : counted ≠ none := by
          intro hnone
          rw [hnone, Option.getD_none] at hlt hle
          omega
        simp only [if_neg (not_or.2 ⟨hlt, hsome⟩)]
        refine ⟨⟨hcounted, hn⟩, ?_⟩
        push_cast
        simp
        omega

/-- While the limit of an id stays, its events are logged until the budget is spent. -/
theorem timesLogged_eq_left {eID : String} {n : ℤ} {log : InflowLog} (hlisted : log.Listed)
    (hwithin : Within n (log.m_mapEvntLog eID)) {acts : List LogAct}
    (hreset : LogAct.reset ∉ acts) (hheld : LimitHeld eID n log acts) :
    (timesLogged eID log acts : ℤ) =
      left n (log.m_mapEvntLog eID) (acts.count (.event eID)) := by
  induction acts generalizing log with
  | nil =>
    obtain ⟨hcounted, hn⟩ := hwithin
    unfold left
    simp only [List.count_nil, Nat.cast_zero]
    split
    · rfl
    · show (0 : ℤ) = _
      omega
  | cons act acts ih =>
    obtain ⟨hact, hrest⟩ := hheld
    have hrest := hrest _ rfl
    have hlimit : act = .event eID → log.limitFound eID = n := fun heq =>
      (hlisted.limitFound_eq eID).trans (hact heq)
    have hreset' : LogAct.reset ∉ acts := fun hmem => hreset (List.mem_cons_of_mem _ hmem)
    by_cases hevent : act = .event eID
    · subst hevent
      obtain ⟨hwithin', hleft⟩ := budget_spec hwithin (acts.count (.event eID))
      have hcounter : (log.step (.event eID)).1.m_mapEvntLog eID =
          (budget n (log.m_mapEvntLog eID)).1 := by
        rw [step_event, hlimit rfl]
        exact Function.update_self _ _ _
      rw [timesLogged_cons_event, hlimit rfl, List.count_cons_self, ← hleft, ← hcounter,
        Nat.cast_add, ih (listed_step log _ hlisted) (hcounter ▸ hwithin') hreset' hrest]
      push_cast
      rfl
    · have hne : act ≠ .reset := fun heq => hreset (heq ▸ List.mem_cons_self)
      have hcounter := m_mapEvntLog_step log hevent hne
      rw [timesLogged_cons_of_ne hevent, List.count_cons_of_ne hevent, ← hcounter]
      exact ih (listed_step log _ hlisted) (hcounter.symm ▸ hwithin) hreset' hrest

/-! ## The events of the other ids -/

/-- The log without the counters of the other ids. -/
def only (eID : String) (log : InflowLog) : InflowLog :=
  log.withCounters fun eID' => if eID' = eID then log.m_mapEvntLog eID' else none

/-- An act that is no event of another id. -/
def concerns (eID : String) : LogAct → Bool
  | .event eID' => eID' = eID
  | _ => true

theorem only_setCounted_self (eID : String) (log : InflowLog) (counted : Option ℤ) :
    (log.setCounted eID counted).only eID = ((log.only eID).setCounted eID counted).only eID := by
  unfold only setCounted withCounters
  congr 1
  funext eID'
  by_cases hid : eID' = eID
  · subst hid
    simp
  · simp [hid]

theorem only_setCounted_of_ne {eID eID' : String} (hne : eID' ≠ eID) (log : InflowLog)
    (counted : Option ℤ) : (log.setCounted eID' counted).only eID = log.only eID := by
  unfold only setCounted withCounters
  congr 1
  funext eID''
  by_cases hid : eID'' = eID
  · subst hid
    simp [Ne.symm hne]
  · simp [hid]

theorem only_notifyConfigUpdate (eID : String) (log : InflowLog) (cfg : CacheTransportConfig) :
    ((log.only eID).notifyConfigUpdate cfg).1.only eID = (log.notifyConfigUpdate cfg).1.only eID := by
  rw [only, only, notifyConfigUpdate_withCounters, only, m_mapEvntLog_notifyConfigUpdate]
  unfold withCounters
  congr 1
  funext eID'
  by_cases hid : eID' = eID
  · simp [hid]
  · simp [hid]

/-- What an act does for one id does not depend on the other counters. -/
theorem step_only (eID : String) (log : InflowLog) (act : LogAct) :
    ((log.only eID).step act).1.only eID = (log.step act).1.only eID ∧
      ((log.only eID).step act).2.filter (fun p => p.1 = eID) =
        (log.step act).2.filter fun p => p.1 = eID := by
  cases act with
  | event eID' =>
    rw [step_event, step_event]
    by_cases hid : eID' = eID
    · subst hid
      have hcounter : (log.only eID').m_mapEvntLog eID' = log.m_mapEvntLog eID' := if_pos rfl
      rw [hcounter]
      exact ⟨(only_setCounted_self eID' log _).symm, rfl⟩
    · refine ⟨?_, by simp [hid]⟩
      dsimp only
      rw [only_setCounted_of_ne hid, only_setCounted_of_ne hid]
      unfold only withCounters
      congr 1
      funext eID''
      by_cases hid' : eID'' = eID
      · simp only [if_pos hid']
      · simp only [if_neg hid']
  | update cfg => exact ⟨only_notifyConfigUpdate eID log cfg, rfl⟩
  | reset => exact ⟨rfl, rfl⟩

/-- For the events of one id, those of the others may be left out. -/
theorem blind_only (eID : String) :
    Lib.Blind step (only eID) (concerns eID) fun p => decide (p.1 = eID) where
  view_step log log' act heq := by
    rw [← (step_only eID log act).1, ← (step_only eID log' act).1, heq]
  shows_step log log' act heq := by
    rw [← (step_only eID log act).2, ← (step_only eID log' act).2, heq]
  view_idle log act hidle := by
    cases act with
    | event eID' =>
      rw [step_event]
      exact only_setCounted_of_ne (by simpa [concerns] using hidle) log _
    | update cfg => simp [concerns] at hidle
    | reset => simp [concerns] at hidle
  shows_idle log act hidle := by
    cases act with
    | event eID' =>
      rw [step_event]
      have hne : ¬ eID' = eID := by simpa [concerns] using hidle
      simp [hne]
    | update cfg => rfl
    | reset => rfl

/-! ## Between two resets -/

theorem m_setAlertsList_step (log : InflowLog) (act : LogAct) :
    (log.step act).1.m_setAlertsList = log.m_setAlertsList := by
  cases act with
  | event eID =>
    rw [step_event]
    rfl
  | update cfg =>
    show (log.notifyConfigUpdate cfg).1.m_setAlertsList = _
    have hlist : (log.updateEvntList cfg.criticalEventLoggingCount).1.m_setAlertsList =
        log.m_setAlertsList := by
      unfold updateEvntList
      split
      · split <;> rfl
      · rfl
    unfold notifyConfigUpdate
    dsimp only
    split <;> exact hlist
  | reset => rfl

/-- An alert never has a limit. -/
theorem limitHeld_alert {eID : String} {log : InflowLog} (h : eID ∈ log.m_setAlertsList)
    (acts : List LogAct) : LimitHeld eID (-1) log acts := by
  induction acts generalizing log with
  | nil => trivial
  | cons act acts ih =>
    refine Lib.along_cons rfl (fun _ => if_pos h) (ih ?_)
    rw [m_setAlertsList_step]
    exact h

/-- At the start and behind a reset nothing is counted. -/
theorem m_mapEvntLog_final {log : InflowLog} (h : log.m_mapEvntLog = fun _ => none)
    {before : List LogAct} (hbefore : before = [] ∨ ∃ acts, before = acts ++ [.reset]) :
    (Lib.final step log before).m_mapEvntLog = fun _ => none := by
  rcases hbefore with rfl | ⟨acts, rfl⟩
  · exact h
  · rw [Lib.final_append]
    rfl

/-- Between two resets, while the limit of an id stays: all of its events are logged if the
limit is -1, none if it is 0, the first `n` of them if it is `n`; an alert has no limit; and
the events of the other ids might as well not have come. -/
theorem criticalLogging_budget {valueToString : ℚ → String}
    {inflowEvntLogCfg alertArray : JsonValue} {logCounterReset : Option ℤ} {log : InflowLog}
    {flag : Bool}
    (hinit : initConfigBasedLogging valueToString inflowEvntLogCfg alertArray logCounterReset =
      some (log, flag))
    {before segment : List LogAct} (hbefore : before = [] ∨ ∃ acts, before = acts ++ [.reset])
    (hreset : LogAct.reset ∉ segment) (eID : String) :
    (∀ n : ℕ, 1 ≤ n → LimitHeld eID n (Lib.final step log before) segment →
      timesLogged eID (Lib.final step log before) segment =
        min (segment.count (.event eID)) n) ∧
    (LimitHeld eID (-1) (Lib.final step log before) segment →
      timesLogged eID (Lib.final step log before) segment = segment.count (.event eID)) ∧
    (eID ∈ (Lib.final step log before).m_setAlertsList →
      timesLogged eID (Lib.final step log before) segment = segment.count (.event eID)) ∧
    (LimitHeld eID 0 (Lib.final step log before) segment →
      timesLogged eID (Lib.final step log before) segment = 0) ∧
    (Lib.outputs step (Lib.final step log before) segment).filter (fun p => p.1 = eID) =
      (Lib.outputs step (Lib.final step log (before.filter (concerns eID)))
        (segment.filter (concerns eID))).filter fun p => p.1 = eID := by
  obtain ⟨hlisted, hempty⟩ := listed_init hinit
  have hcounter : (Lib.final step log before).m_mapEvntLog eID = none :=
    congrFun (m_mapEvntLog_final hempty hbefore) eID
  have hfinal := listed_final hlisted before
  have hleft : ∀ n : ℤ, -1 ≤ n → LimitHeld eID n (Lib.final step log before) segment →
      (timesLogged eID (Lib.final step log before) segment : ℤ) =
        left n none (segment.count (.event eID)) := by
    intro n hn hheld
    have hwithin : Within n ((Lib.final step log before).m_mapEvntLog eID) := by
      rw [hcounter]
      refine ⟨le_refl 0, ?_⟩
      rw [Option.getD_none]
      omega
    rw [← hcounter]
    exact timesLogged_eq_left hfinal hwithin hreset hheld
  have hinfinite : LimitHeld eID (-1) (Lib.final step log before) segment →
      timesLogged eID (Lib.final step log before) segment = segment.count (.event eID) := by
    intro hheld
    have h := hleft (-1) le_rfl hheld
    rw [left, if_pos rfl] at h
    exact Int.ofNat_inj.1 h
  refine ⟨?_, hinfinite, fun halert => hinfinite (limitHeld_alert halert segment), ?_, ?_⟩
  · intro n hn hheld
    have h := hleft n (by omega) hheld
    rw [left, if_neg (by omega), Option.getD_none] at h
    omega
  · intro hheld
    have h := hleft 0 (by omega) hheld
    rw [left, if_neg (by omega), Option.getD_none] at h
    omega
  · exact (blind_only eID).filter_outputs ((blind_only eID).view_final rfl before) segment

/-- A limit of two, an alert and the default, with an update in between. -/
theorem criticalLogging_budget_sample :
    timesLogged "Rpm" ⟨{"Crash"}, .array [.object [("Rpm", .int 2)]],
        (updateLogConfigMap (fun _ => none) [.object [("Rpm", .int 2)]]).1, 0, 0, fun _ => none⟩
      [.event "Rpm", .event "Crash", .update ⟨.null, .null, .null, some 5, some 0⟩, .event "Rpm",
        .event "Rpm"] = min 3 2 :=
  (@criticalLogging_budget (fun _ => "")
    (.object [("criticalEventLoggingCount", .array [.object [("Rpm", .int 2)]]),
      ("defaultLoggingCount", .int 0)])
    (.array [.string "Crash"]) (some 0) _ _ rfl [] _ (Or.inl rfl) (by decide) "Rpm").1 2 (by decide)
    (by decide)

set_option maxRecDepth 10000 in
/-- A count above 100 counts as 100: of 101 events one is not logged. -/
theorem not_configured_budget :
    ∃ log flag, initConfigBasedLogging (fun _ => "")
        (.object [("criticalEventLoggingCount", .array [.object [("Rpm", .int 101)]])])
        (.array []) (some 0) = some (log, flag) ∧
      configuredCount "Rpm" log.m_jsonEvntList = some 101 ∧
      timesLogged "Rpm" log (List.replicate 101 (.event "Rpm")) ≠ min 101 101 :=
  ⟨_, _, rfl, by decide, by decide⟩

end InflowLog

/-! ## The transport -/

/-- An element of the queue, taken by the loop of `Run` or of `FlushCache`, or an update. -/
inductive TransportAct
  | run (strEvent : String)
  | flush (strEvent : String)
  | update (cfg : CacheTransportConfig)

namespace CacheTransport

variable (valueToString : ℚ → String) (jsonToEvent : String → Option WrappedEvent)

/-- One act; an exception leaves the transport as it is. -/
def act (t : CacheTransport) : TransportAct → CacheTransport
  | .run strEvent => (t.runEvent valueToString jsonToEvent strEvent).getD t
  | .flush strEvent => (t.flushEvent jsonToEvent strEvent).getD t
  | .update cfg => t.notifyConfigUpdate valueToString cfg

/-- What an event that is taken does to the log: a reset may come before it, and an event
around the chain of handlers is not logged. -/
def eventActs (t : CacheTransport) (event : WrappedEvent) (bReset : Bool) : List LogAct :=
  (if bReset then [.reset] else []) ++
    if t.m_bIsEventWhitelistingEnabled = false ∨ event.strEventId ∈ t.m_setIgniteEventsList then
      [.event event.strEventId]
    else []

/-- What an act does to the log. -/
def logActs (t : CacheTransport) : TransportAct → List LogAct
  | .run strEvent =>
    ((jsonToEvent strEvent).bind fun event =>
      (t.isLogCounterResetNeeded valueToString event).map (t.eventActs event)).getD []
  | .flush _ => []
  | .update cfg => [.update cfg]

/-- What a run does to the log. -/
def logRun (t : CacheTransport) : List TransportAct → List LogAct
  | [] => []
  | a :: acts =>
    t.logActs valueToString jsonToEvent a ++ (t.act valueToString jsonToEvent a).logRun acts

theorem log_handle (t : CacheTransport) (event : WrappedEvent) (bReset : Bool) :
    ((t.resetLogCounter bReset).handle event).log =
      Lib.final InflowLog.step t.log (t.eventActs event bReset) := by
  have hhandle : ∀ t : CacheTransport, (t.handle event).log =
      Lib.final InflowLog.step t.log (t.eventActs event false) := by
    intro t
    unfold handle eventActs
    by_cases henabled : t.m_bIsEventWhitelistingEnabled = true
    · rw [if_neg (by simp [henabled])]
      unfold processEvent
      by_cases hid : event.strEventId ∈ t.m_setIgniteEventsList
      · rw [if_pos hid, if_pos (Or.inr hid)]
        rfl
      · have hnot : ¬ (t.m_bIsEventWhitelistingEnabled = false ∨
            event.strEventId ∈ t.m_setIgniteEventsList) := by simp [henabled, hid]
        rw [if_neg hid, if_neg hnot]
        split <;> rfl
    · have hoff : t.m_bIsEventWhitelistingEnabled = false := by simpa using henabled
      rw [if_pos (by simp [hoff]), if_pos (Or.inl hoff)]
      rfl
  cases bReset with
  | false => exact hhandle t
  | true => exact hhandle (t.resetLogCounter true)

theorem log_updateIgniteWhitelistEventList (t : CacheTransport) (cfg : CacheTransportConfig) :
    ((t.updateIgniteWhitelistEventList valueToString cfg).getD t).log = t.log := by
  unfold updateIgniteWhitelistEventList
  split
  · rfl
  · split
    · dsimp only
      split
      · cases listedEvents valueToString cfg.igniteWhiteListedEvents cfg.domainEventMap with
        | none => rfl
        | some ids => rfl
      · rfl
    · rfl

/-- Each act of the transport is some acts of the log. -/
theorem log_act (t : CacheTransport) (a : TransportAct) :
    (t.act valueToString jsonToEvent a).log =
      Lib.final InflowLog.step t.log (t.logActs valueToString jsonToEvent a) := by
  cases a with
  | run strEvent =>
    show ((t.runEvent valueToString jsonToEvent strEvent).getD t).log =
      Lib.final InflowLog.step t.log (((jsonToEvent strEvent).bind fun event =>
        (t.isLogCounterResetNeeded valueToString event).map (t.eventActs event)).getD [])
    unfold runEvent
    cases jsonToEvent strEvent with
    | none => rfl
    | some event =>
      simp only [Option.bind_some]
      cases t.isLogCounterResetNeeded valueToString event with
      | none => rfl
      | some bReset => exact log_handle t event bReset
  | flush strEvent =>
    show ((t.flushEvent jsonToEvent strEvent).getD t).log = t.log
    unfold flushEvent
    cases jsonToEvent strEvent with
    | none => rfl
    | some event => rfl
  | update cfg =>
    show (t.notifyConfigUpdate valueToString cfg).log = (t.log.notifyConfigUpdate cfg).1
    unfold notifyConfigUpdate
    dsimp only
    split
    · exact log_updateIgniteWhitelistEventList valueToString _ cfg
    · rfl

/-- The log of the transport goes through a run of the log. -/
theorem log_foldl (t : CacheTransport) (acts : List TransportAct) :
    (acts.foldl (act valueToString jsonToEvent) t).log =
      Lib.final InflowLog.step t.log (t.logRun valueToString jsonToEvent acts) := by
  induction acts generalizing t with
  | nil => rfl
  | cons a acts ih =>
    rw [List.foldl_cons, ih, log_act, logRun, Lib.final_append]

end CacheTransport

end DeviceClient
