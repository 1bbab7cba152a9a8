import DeviceClient.Analytics.DomainMapUpdates

/-!
# The processors of an event

`CInternalMessageHandler::Init` builds the map from events to domains out of the configuration and
of two events of its own, finds the processors of the domains, and takes the domains without one
out of the map. An event goes to the processor of each domain in its entry.

Updates of the configuration, which come later, are in `EventUpdates`.

* `domainsAt_createReverse`: the domains of an event, as often as they list it.
* `domainsAt_refresh`: only those with a processor stay.
* `count_init`: how often a processor gets an event.
-/

namespace DeviceClient

namespace EventDelivery

open EventDomainMap Lib

/-! ## The source -/

/-- `AddDomainToMap`. -/
def addDomainToMap (rstrEventID rstrDomain : String) (map : DomainEventMap) : DomainEventMap :=
  match map.lookup rstrDomain with
  | none => setKey rstrDomain (.event rstrEventID) map
  | some (.event strEventId) => setKey rstrDomain (.events [strEventId, rstrEventID]) map
  | some (.events strEventIds) => setKey rstrDomain (.events (strEventIds ++ [rstrEventID])) map

/-- `UpdateEventProcessorMapForEventHandler` of a handler that knows the processors
`processorFor`. -/
def updateEventProcessorMapForEventHandler {π : Type} (processorFor : String → Option π)
    (rstrDomain : String) (m_mapEventProcessors : List (String × π)) : List (String × π) :=
  match processorFor rstrDomain with
  | some processor => setKey rstrDomain processor m_mapEventProcessors
  | none => m_mapEventProcessors

/-- `UpdateEventProcessorMap`, as far as events go. -/
def updateEventProcessorMap {π : Type} (processorFor : String → Option π)
    (m_jsonDomainEventMap : DomainEventMap) : List (String × π) :=
  m_jsonDomainEventMap.foldl (fun processors sec =>
    updateEventProcessorMapForEventHandler processorFor sec.1 processors) []

/-- `RefreshEventDomainListBasedOnEventProcessorsMap`. -/
def refreshEventDomainList (hasProcessor : String → Bool) (rstrEName : String)
    (strDomains : List String) (rjsonEventDomainMap : EventDomainMap) : EventDomainMap :=
  let strLeft := strDomains.filter hasProcessor
  let map : EventDomainMap := setKey rstrEName (.ofList strLeft) rjsonEventDomainMap
  if strLeft.isEmpty then map.removeMember rstrEName else map

/-- The body of the loop of `RefreshEventDomainMap`. -/
def refreshEvent (hasProcessor : String → Bool) (m_jsonEventDomainMap : EventDomainMap)
    (jsonTmpEventDomainMap : EventDomainMap) (strEvName : String) : EventDomainMap :=
  match m_jsonEventDomainMap.lookup strEvName with
  | some (.domains strDomains) =>
    refreshEventDomainList hasProcessor strEvName strDomains jsonTmpEventDomainMap
  | entry =>
    if hasProcessor (entry.getD .null).asString then jsonTmpEventDomainMap
    else jsonTmpEventDomainMap.removeMember strEvName

/-- `RefreshEventDomainMap`. -/
def refreshEventDomainMap (hasProcessor : String → Bool) (m_jsonEventDomainMap : EventDomainMap) :
    EventDomainMap :=
  (m_jsonEventDomainMap.map Prod.fst).foldl (refreshEvent hasProcessor m_jsonEventDomainMap)
    m_jsonEventDomainMap

/-- What a handler keeps for events, with the processors of domains. -/
structure Handler (π : Type) extends MessageHandler where
  m_mapEventProcessors : List (String × π)

/-- `CBaseMessageHandler::Init`, as far as events go. -/
def baseInit {π : Type} (processorFor : String → Option π)
    (m_jsonConfigDomainEventMap m_jsonDomainEventMap : DomainEventMap) : Handler π :=
  let processors := updateEventProcessorMap processorFor m_jsonDomainEventMap
  { m_jsonEventDomainMap := refreshEventDomainMap (fun d => (processors.lookup d).isSome)
      (createReverseOfDomainEventMap m_jsonDomainEventMap [])
    m_jsonConfigDomainEventMap := m_jsonConfigDomainEventMap
    m_mapEventProcessors := processors }

/-- The processors of `CInternalMessageHandler`. -/
inductive InternalProcessor where
  | activationBackoff
  | deviceActivationHandler
  | vinHandler
deriving DecidableEq

def DOMAIN_ACTIVATION_BACKOFF : String := "activationBackOff"

def DOMAIN_ACTIVATION_HANDLER : String := "DeviceActivationHandler"

def DOMAIN_VIN_HANDLER : String := "vinHandler"

/-- `UpdateEventProcessorMapForEventHandler` of `CInternalMessageHandler`. -/
def internalProcessor (rstrDomain : String) : Option InternalProcessor :=
  if rstrDomain = DOMAIN_ACTIVATION_BACKOFF then some .activationBackoff
  else if rstrDomain = DOMAIN_ACTIVATION_HANDLER then some .deviceActivationHandler
  else if rstrDomain = DOMAIN_VIN_HANDLER then some .vinHandler
  else none

/-- `CInternalMessageHandler::Init`. -/
def init (config : DomainEventMap) : Handler InternalProcessor :=
  baseInit internalProcessor config
    (addDomainToMap "DeviceRemoval" DOMAIN_ACTIVATION_BACKOFF
      (addDomainToMap "IgnStatus" DOMAIN_ACTIVATION_BACKOFF config))

/-- The domains that `ProcessEventTypeMessage` hands to `DispatchEvent`. -/
def dispatched : DomainEntry → List String
  | .domains strDomains => strDomains
  | entry => [entry.asString]

/-- The processors whose `ProcessEvent` is called: `NotifyMessage` of a handler that is subscribed
for the event. -/
def Handler.notifyMessage {π : Type} (handler : Handler π) (strEventID : String) : List π :=
  match handler.m_jsonEventDomainMap.lookup strEventID with
  | some entry =>
    (dispatched entry).filterMap fun strDomain => handler.m_mapEventProcessors.lookup strDomain
  | none => []

/-! ## The map that is built -/

theorem domainsAt_addEvents (domain : String) (events : List String) {map : EventDomainMap}
    (hinh : map.Inhabited) (e : String) :
    (events.foldl (fun map event => updateEventDomainMap event domain map) map).domainsAt e =
        map.domainsAt e ++ List.replicate (events.count e) domain ∧
      (events.foldl (fun map event => updateEventDomainMap event domain map) map).Inhabited := by
  induction events generalizing map with
  | nil => exact ⟨(List.append_nil _).symm, hinh⟩
  | cons event events ih =>
    rcases ih (inhabited_add hinh domain event) with ⟨hdomains, hinh'⟩
    refine ⟨?_, hinh'⟩
    refine hdomains.trans ?_
    rw [domainsAt_add hinh, List.count_cons]
    by_cases he : e = event
    · rw [if_pos he, ← he, List.append_assoc, Nat.add_comm, beq_self_eq_true, if_pos rfl,
        List.replicate_add]
      rfl
    · have hbeq : (event == e) = false := beq_false_of_ne (Ne.symm he)
      rw [if_neg he, hbeq, if_neg Bool.false_ne_true, Nat.add_zero]

/-- Each domain of the configuration, as often as it lists the event. -/
def listing (sections : DomainEventMap) (e : String) : List String :=
  sections.flatMap fun sec => List.replicate (sec.2.eventIds.count e) sec.1

theorem domainsAt_createReverse (domains : DomainEventMap) {map : EventDomainMap}
    (hinh : map.Inhabited) (e : String) :
    (createReverseOfDomainEventMap domains map).domainsAt e =
        map.domainsAt e ++ listing domains e ∧
      (createReverseOfDomainEventMap domains map).Inhabited := by
  induction domains generalizing map with
  | nil => exact ⟨(List.append_nil _).symm, hinh⟩
  | cons sec domains ih =>
    rcases domainsAt_addEvents sec.1 sec.2.eventIds hinh e with ⟨hevents, hinh'⟩
    rcases ih hinh' with ⟨hdomains, hinh''⟩
    refine ⟨hdomains.trans ?_, hinh''⟩
    rw [hevents, List.append_assoc]
    rfl

theorem inhabited_nil : Inhabited [] := by
  intro event entry hentry
  cases hentry

/-! ## The domains with a processor -/

/-- What becomes of an entry. -/
def refreshed (hasProcessor : String → Bool) : Option DomainEntry → Option DomainEntry
  | some (.domains strDomains) =>
    if (strDomains.filter hasProcessor).isEmpty then none
    else some (.ofList (strDomains.filter hasProcessor))
  | some entry => if hasProcessor entry.asString then some entry else none
  | none => none

variable {hasProcessor : String → Bool}

theorem lookup_removeMember (map : EventDomainMap) {k : String} (hnul : '\x00' ∉ k.toList)
    (e : String) :
    (map.removeMember k).lookup e = if e = k then none else map.lookup e := by
  unfold removeMember
  rw [cString_eq hnul, lookup_eraseKey]

theorem lookup_refreshEventDomainList (map : EventDomainMap) {k : String}
    (hnul : '\x00' ∉ k.toList) (strDomains : List String) (e : String) :
    (refreshEventDomainList hasProcessor k strDomains map).lookup e =
      if e = k then refreshed hasProcessor (some (.domains strDomains)) else map.lookup e := by
  unfold refreshEventDomainList refreshed
  dsimp only
  by_cases hnone : (strDomains.filter hasProcessor).isEmpty = true
  · rw [if_pos hnone, if_pos hnone, lookup_removeMember _ hnul, lookup_setKey]
    split_ifs
    · rfl
    · rfl
  · rw [if_neg hnone, if_neg hnone, lookup_setKey]

/-- An entry that is no array stays as it is or goes. -/
theorem lookup_refreshScalar {tmp : EventDomainMap} {k : String} (hnul : '\x00' ∉ k.toList)
    {entry : Option DomainEntry}
    (hentry : refreshed hasProcessor entry =
      if hasProcessor (entry.getD .null).asString then entry else none)
    (hk : tmp.lookup k = entry ∨ tmp.lookup k = refreshed hasProcessor entry) (e : String) :
    (if hasProcessor (entry.getD .null).asString then tmp else tmp.removeMember k).lookup e =
      if e = k then refreshed hasProcessor entry else tmp.lookup e := by
  rw [hentry] at hk ⊢
  by_cases hhas : hasProcessor (entry.getD .null).asString = true
  · rw [if_pos hhas, or_self] at hk
    rw [if_pos hhas, if_pos hhas]
    by_cases he : e = k
    · rw [if_pos he, he, hk]
    · rw [if_neg he]
  · rw [if_neg hhas, if_neg hhas, lookup_removeMember _ hnul]

/-- One turn, on an entry that has been left alone or has had its turn before. -/
theorem lookup_refreshEvent {map tmp : EventDomainMap} {k : String} (hnul : '\x00' ∉ k.toList)
    (hk : tmp.lookup k = map.lookup k ∨ tmp.lookup k = refreshed hasProcessor (map.lookup k))
    (e : String) :
    (refreshEvent hasProcessor map tmp k).lookup e =
      if e = k then refreshed hasProcessor (map.lookup k) else tmp.lookup e := by
  unfold refreshEvent
  cases hentry : map.lookup k with
  | none =>
    rw [hentry] at hk
    exact lookup_refreshScalar hnul (ite_self _).symm hk e
  | some entry =>
    rw [hentry] at hk
    cases entry with
    | null => exact lookup_refreshScalar hnul rfl hk e
    | domain strDomain => exact lookup_refreshScalar hnul rfl hk e
    | domains strDomains => exact lookup_refreshEventDomainList tmp hnul strDomains e

theorem lookup_refreshLoop {map : EventDomainMap} (names : List String)
    (hnul : ∀ k ∈ names, '\x00' ∉ k.toList) {tmp : EventDomainMap}
    (htmp : ∀ e, tmp.lookup e = map.lookup e ∨
      tmp.lookup e = refreshed hasProcessor (map.lookup e)) (e : String) :
    (names.foldl (refreshEvent hasProcessor map) tmp).lookup e =
      if e ∈ names then refreshed hasProcessor (map.lookup e) else tmp.lookup e := by
  induction names generalizing tmp with
  | nil => exact (if_neg List.not_mem_nil).symm
  | cons k names ih =>
    rcases List.forall_mem_cons.1 hnul with ⟨hk, hrest⟩
    have hturn := lookup_refreshEvent hk (htmp k)
    refine (ih hrest fun e => ?_).trans ?_
    · -- a name that comes twice finds its entry as the first turn has left it
      rw [hturn e]
      by_cases he : e = k
      · rw [if_pos he, he]
        exact Or.inr rfl
      · rw [if_neg he]
        exact htmp e
    · rw [hturn e]
      by_cases he : e = k
      · rw [if_pos he, ← he, if_pos List.mem_cons_self]
        exact ite_self _
      · rw [if_neg he]
        simp only [List.mem_cons, he, false_or]

theorem lookup_refresh {map : EventDomainMap}
    (hnul : ∀ k ∈ map.map Prod.fst, '\x00' ∉ k.toList) (e : String) :
    (refreshEventDomainMap hasProcessor map).lookup e =
      refreshed hasProcessor (map.lookup e) := by
  refine (lookup_refreshLoop _ hnul (fun _ => Or.inl rfl) e).trans ?_
  by_cases he : e ∈ map.map Prod.fst
  · exact if_pos he
  · rw [if_neg he]
    cases hentry : map.lookup e with
    | none => rfl
    | some entry => exact absurd (mem_keys_of_lookup hentry) he

/-- Each entry keeps the domains with a processor, in their order, and none is left without. -/
theorem domainsAt_refresh {map : EventDomainMap}
    (hnul : ∀ k ∈ map.map Prod.fst, '\x00' ∉ k.toList) (hinh : map.Inhabited) (e : String) :
    (refreshEventDomainMap hasProcessor map).domainsAt e =
      (map.domainsAt e).filter hasProcessor := by
  unfold domainsAt
  rw [lookup_refresh hnul]
  cases hentry : map.lookup e with
  | none => rfl
  | some entry =>
    cases entry with
    | null => exact absurd rfl (hinh e .null hentry)
    | domain strDomain =>
      by_cases hhas : hasProcessor strDomain = true
      · simp [refreshed, DomainEntry.asString, DomainEntry.strDomains, hhas]
      · simp [refreshed, DomainEntry.asString, DomainEntry.strDomains, hhas]
    | domains strDomains =>
      unfold refreshed
      dsimp only
      by_cases hnone : (strDomains.filter hasProcessor).isEmpty = true
      · rw [if_pos hnone]
        exact (List.isEmpty_iff.1 hnone).symm
      · rw [if_neg hnone]
        exact strDomains_ofList _

theorem inhabited_refresh {map : EventDomainMap}
    (hnul : ∀ k ∈ map.map Prod.fst, '\x00' ∉ k.toList) (hinh : map.Inhabited) :
    (refreshEventDomainMap hasProcessor map).Inhabited := by
  intro e entry hentry
  rw [lookup_refresh hnul] at hentry
  cases hold : map.lookup e with
  | none =>
    rw [hold] at hentry
    cases hentry
  | some old =>
    rw [hold] at hentry
    cases old with
    | null => exact absurd rfl (hinh e .null hold)
    | domain strDomain =>
      unfold refreshed at hentry
      dsimp only at hentry
      split_ifs at hentry
      cases hentry
      exact List.cons_ne_nil _ _
    | domains strDomains =>
      unfold refreshed at hentry
      dsimp only at hentry
      split_ifs at hentry with hnone
      cases hentry
      rw [strDomains_ofList]
      exact fun hnil => hnone (List.isEmpty_iff.2 hnil)

/-! ## The processors of a handler -/

section

variable {π : Type} (processorFor : String → Option π)

theorem lookup_updateForEventHandler (domain : String) (processors : List (String × π))
    (d : String) :
    (updateEventProcessorMapForEventHandler processorFor domain processors).lookup d =
      (if d = domain then processorFor d else none).or (processors.lookup d) := by
  unfold updateEventProcessorMapForEventHandler
  by_cases hd : d = domain
  · rw [if_pos hd, hd]
    cases processorFor domain with
    | none => rfl
    | some processor => exact (lookup_setKey _ _ _ _).trans (if_pos rfl)
  · rw [if_neg hd]
    cases processorFor domain with
    | none => rfl
    | some processor => exact (lookup_setKey _ _ _ _).trans (if_neg hd)

theorem lookup_updateProcessors (sections : DomainEventMap) (processors : List (String × π))
    (d : String) :
    (sections.foldl (fun processors sec =>
        updateEventProcessorMapForEventHandler processorFor sec.1 processors) processors).lookup d =
      (if d ∈ sections.map Prod.fst then processorFor d else none).or (processors.lookup d) := by
  induction sections generalizing processors with
  | nil => rfl
  | cons sec sections ih =>
    rw [List.foldl_cons, ih, List.map_cons, lookup_updateForEventHandler, ← Option.or_assoc]
    congr 1
    by_cases hd : d = sec.1
    · rw [if_pos hd, if_pos (List.mem_cons.2 (Or.inl hd))]
      split_ifs
      · exact Option.or_self
      · rfl
    · rw [if_neg hd, Option.or_none]
      simp only [List.mem_cons, hd, false_or]

/-- The processors are those that the handler knows for the domains of the configuration. -/
theorem lookup_updateEventProcessorMap (sections : DomainEventMap) (d : String) :
    (updateEventProcessorMap processorFor sections).lookup d =
      if d ∈ sections.map Prod.fst then processorFor d else none := by
  unfold updateEventProcessorMap
  rw [lookup_updateProcessors]
  exact Option.or_none

variable {processorFor}

/-- A subscribed handler dispatches to the domains of the entry. -/
theorem notifyMessage_eq {handler : Handler π} (hinh : handler.m_jsonEventDomainMap.Inhabited)
    (e : String) :
    handler.notifyMessage e =
      (handler.m_jsonEventDomainMap.domainsAt e).filterMap
        fun d => handler.m_mapEventProcessors.lookup d := by
  unfold Handler.notifyMessage domainsAt
  cases hentry : handler.m_jsonEventDomainMap.lookup e with
  | none => rfl
  | some entry =>
    cases entry with
    | null => exact absurd rfl (hinh e .null hentry)
    | domain strDomain => rfl
    | domains strDomains => rfl

theorem mem_listing {sections : DomainEventMap} {e d : String} (h : d ∈ listing sections e) :
    d ∈ sections.map Prod.fst ∧ sections.Lists e d := by
  rcases List.mem_flatMap.1 h with ⟨sec, hsec, hd⟩
  rcases List.mem_replicate.1 hd with ⟨hcount, rfl⟩
  have hevent : e ∈ sec.2.eventIds := List.count_pos_iff.1 (Nat.pos_of_ne_zero hcount)
  exact ⟨List.mem_map_of_mem hsec, sec.2, hsec, hevent⟩

/-- The names of the events that are listed are C strings. -/
def Named (sections : DomainEventMap) : Prop :=
  ∀ e d, sections.Lists e d → '\x00' ∉ e.toList

theorem named_reverse {sections : DomainEventMap} (h : Named sections) :
    ∀ e ∈ (createReverseOfDomainEventMap sections []).map Prod.fst, '\x00' ∉ e.toList := by
  intro e he
  rcases domainsAt_createReverse sections inhabited_nil e with ⟨hdomains, hinh⟩
  rcases List.mem_map.1 he with ⟨pair, hpair, rfl⟩
  have hentry : ((createReverseOfDomainEventMap sections []).lookup pair.1).isSome := by
    rw [List.lookup_isSome_iff]
    exact ⟨pair, hpair, beq_self_eq_true _⟩
  rcases Option.isSome_iff_exists.1 hentry with ⟨entry, hentry⟩
  rcases List.exists_mem_of_ne_nil _ (hinh _ _ hentry) with ⟨d, hd⟩
  have hmem : d ∈ listing sections pair.1 := by
    unfold domainsAt at hdomains
    rw [hentry] at hdomains
    exact hdomains.subst hd
  exact h _ _ (mem_listing hmem).2

/-- What the handler dispatches after `Init`: the domains that list the event and have a
processor. -/
theorem domainsAt_baseInit {config sections : DomainEventMap} (h : Named sections) (e : String) :
    (baseInit processorFor config sections).m_jsonEventDomainMap.domainsAt e =
      (listing sections e).filter fun d =>
        ((updateEventProcessorMap processorFor sections).lookup d).isSome := by
  rcases domainsAt_createReverse sections inhabited_nil e with ⟨hdomains, hinh⟩
  exact (domainsAt_refresh (named_reverse h) hinh e).trans (congrArg _ hdomains)

theorem inhabited_baseInit {config sections : DomainEventMap} (h : Named sections) :
    (baseInit processorFor config sections).m_jsonEventDomainMap.Inhabited :=
  inhabited_refresh (named_reverse h) (domainsAt_createReverse sections inhabited_nil "").2

/-- The processors of the domains that list the event. -/
theorem notifyMessage_baseInit {config sections : DomainEventMap} (h : Named sections)
    (e : String) :
    (baseInit processorFor config sections).notifyMessage e =
      (listing sections e).filterMap processorFor := by
  rw [notifyMessage_eq (inhabited_baseInit h), domainsAt_baseInit h, List.filterMap_filter]
  refine List.filterMap_congr fun d hd => ?_
  have hlookup : (updateEventProcessorMap processorFor sections).lookup d = processorFor d := by
    rw [lookup_updateEventProcessorMap, if_pos (mem_listing hd).1]
  show (if ((updateEventProcessorMap processorFor sections).lookup d).isSome then
    (updateEventProcessorMap processorFor sections).lookup d else none) = processorFor d
  rw [hlookup]
  cases processorFor d <;> rfl

/-- The handler is subscribed for the events that some processor gets. -/
theorem subscribed_baseInit {config sections : DomainEventMap} (h : Named sections) (e : String) :
    (baseInit processorFor config sections).m_jsonEventDomainMap.isHandlerSubscribedForEvent e =
        true ↔
      (baseInit processorFor config sections).notifyMessage e ≠ [] := by
  unfold isHandlerSubscribedForEvent
  constructor
  · intro hsome
    rcases Option.isSome_iff_exists.1 hsome with ⟨entry, hentry⟩
    rcases List.exists_mem_of_ne_nil _ (inhabited_baseInit h e entry hentry) with ⟨d, hd⟩
    have hmem : d ∈ (baseInit processorFor config sections).m_jsonEventDomainMap.domainsAt e := by
      unfold domainsAt
      rw [hentry]
      exact hd
    -- no domain without a processor has stayed
    have hstays := hmem
    rw [domainsAt_baseInit h] at hstays
    rcases Option.isSome_iff_exists.1 (List.mem_filter.1 hstays).2 with ⟨processor, hprocessor⟩
    rw [notifyMessage_eq (inhabited_baseInit h)]
    exact List.ne_nil_of_mem (List.mem_filterMap.2 ⟨d, hmem, hprocessor⟩)
  · intro hne
    unfold Handler.notifyMessage at hne
    cases hentry : (baseInit processorFor config sections).m_jsonEventDomainMap.lookup e with
    | none =>
      rw [hentry] at hne
      exact absurd rfl hne
    | some entry => rfl

end

/-! ## The internal handler -/

/-- How often the configuration lists an event for a domain. -/
def listed (config : DomainEventMap) (d e : String) : ℕ :=
  ((config.lookup d).map fun sec => sec.eventIds.count e).getD 0

theorem count_listing {sections : DomainEventMap} (h : Ascending sections) (d e : String) :
    (listing sections e).count d = listed sections d e := by
  induction sections with
  | nil => rfl
  | cons sec sections ih =>
    rcases ascending_cons.1 h with ⟨habove, hrest⟩
    have hhead : (listing (sec :: sections) e).count d =
        (List.replicate (sec.2.eventIds.count e) sec.1).count d + listed sections d e := by
      rw [← ih hrest, ← List.count_append]
      rfl
    rw [hhead, List.count_replicate]
    unfold listed
    rw [show (sec :: sections).lookup d = _ from lookup_cons_ite d sec.1 sec.2 sections]
    by_cases hd : d = sec.1
    · -- the keys ascend, so the domain has one section
      have hnone : sections.lookup d = none := by
        rw [hd]
        exact lookup_eq_none_of_below habove
      rw [if_pos hd, hnone, hd, if_pos (beq_self_eq_true _)]
      rfl
    · rw [if_neg hd, if_neg (by simpa using Ne.symm hd), Nat.zero_add]

theorem count_one (event e : String) : [event].count e = if e = event then 1 else 0 := by
  rw [List.count_singleton]
  by_cases he : e = event
  · rw [if_pos he, he, beq_self_eq_true, if_pos rfl]
  · rw [if_neg he, beq_false_of_ne (Ne.symm he), if_neg Bool.false_ne_true]

/-- The section of the domain is a new one, with the event behind the others. -/
theorem addDomainToMap_eq (event domain : String) (map : DomainEventMap) :
    ∃ sec : DomainSection, addDomainToMap event domain map = setKey domain sec map ∧
      sec.eventIds = ((map.lookup domain).map DomainSection.eventIds).getD [] ++ [event] := by
  unfold addDomainToMap
  cases map.lookup domain with
  | none => exact ⟨_, rfl, rfl⟩
  | some sec =>
    cases sec with
    | event strEventId => exact ⟨_, rfl, rfl⟩
    | events strEventIds => exact ⟨_, rfl, rfl⟩

theorem listed_addDomainToMap (event domain : String) (map : DomainEventMap) (d e : String) :
    listed (addDomainToMap event domain map) d e =
      listed map d e + if d = domain ∧ e = event then 1 else 0 := by
  rcases addDomainToMap_eq event domain map with ⟨sec, hmap, hevents⟩
  unfold listed
  rw [hmap, lookup_setKey]
  by_cases hd : d = domain
  · rw [if_pos hd, Option.map_some, Option.getD_some, hevents, List.count_append, count_one, hd]
    congr 1
    · cases map.lookup domain <;> rfl
    · exact (if_congr (and_iff_right rfl) rfl rfl).symm
  · rw [if_neg hd, if_neg fun h => hd h.1, Nat.add_zero]

theorem ascending_addDomainToMap (event domain : String) {map : DomainEventMap}
    (h : Ascending map) : Ascending (addDomainToMap event domain map) := by
  rcases addDomainToMap_eq event domain map with ⟨sec, hmap, -⟩
  rw [hmap]
  exact ascending_setKey domain sec h

theorem named_addDomainToMap {event : String} (hevent : '\x00' ∉ event.toList)
    (domain : String) {map : DomainEventMap} (h : Named map) :
    Named (addDomainToMap event domain map) := by
  rcases addDomainToMap_eq event domain map with ⟨sec, hmap, hevents⟩
  rintro e d ⟨sec', hmem, he⟩
  rw [hmap] at hmem
  rcases mem_setKey hmem with heq | hmem
  · cases heq
    rw [hevents] at he
    rcases List.mem_append.1 he with he | he
    · -- an event of the section that was there
      cases hold : map.lookup domain with
      | none =>
        rw [hold] at he
        cases he
      | some old =>
        rw [hold] at he
        exact h e domain ⟨old, mem_of_lookup hold, he⟩
    · rw [List.mem_singleton.1 he]
      exact hevent
  · exact h e d ⟨sec', hmem, he⟩

/-- The domain of a processor. -/
def InternalProcessor.domain : InternalProcessor → String
  | .activationBackoff => DOMAIN_ACTIVATION_BACKOFF
  | .deviceActivationHandler => DOMAIN_ACTIVATION_HANDLER
  | .vinHandler => DOMAIN_VIN_HANDLER

theorem internalProcessor_eq_some (p : InternalProcessor) (d : String) :
    internalProcessor d = some p ↔ d = p.domain := by
  unfold internalProcessor
  split_ifs with hbackoff hactivation hvin
  · subst hbackoff
    cases p <;> decide
  · subst hactivation
    cases p <;> decide
  · subst hvin
    cases p <;> decide
  · cases p <;> simpa [InternalProcessor.domain]

/-- The events that `Init` adds for the domain of a processor. -/
def InternalProcessor.added : InternalProcessor → List String
  | .activationBackoff => ["IgnStatus", "DeviceRemoval"]
  | .deviceActivationHandler => []
  | .vinHandler => []

theorem named_init {config : DomainEventMap} (hnamed : Named config) :
    Named (addDomainToMap "DeviceRemoval" DOMAIN_ACTIVATION_BACKOFF
      (addDomainToMap "IgnStatus" DOMAIN_ACTIVATION_BACKOFF config)) := by
  have hignition : '\x00' ∉ "IgnStatus".toList := by decide
  have hremoval : '\x00' ∉ "DeviceRemoval".toList := by decide
  exact named_addDomainToMap hremoval DOMAIN_ACTIVATION_BACKOFF
    (named_addDomainToMap hignition DOMAIN_ACTIVATION_BACKOFF hnamed)

theorem count_notifyMessage_init {config : DomainEventMap} (hconfig : Ascending config)
    (hnamed : Named config) (e : String) (p : InternalProcessor) :
    ((init config).notifyMessage e).count p = listed config p.domain e + p.added.count e := by
  have hascending := ascending_addDomainToMap "DeviceRemoval" DOMAIN_ACTIVATION_BACKOFF
    (ascending_addDomainToMap "IgnStatus" DOMAIN_ACTIVATION_BACKOFF hconfig)
  have hcount : ((init config).notifyMessage e).count p =
      (listing (addDomainToMap "DeviceRemoval" DOMAIN_ACTIVATION_BACKOFF
        (addDomainToMap "IgnStatus" DOMAIN_ACTIVATION_BACKOFF config)) e).count p.domain := by
    unfold init
    rw [notifyMessage_baseInit (named_init hnamed), List.count_filterMap]
    refine List.countP_congr fun d _ => ?_
    rw [beq_iff_eq, beq_iff_eq]
    exact internalProcessor_eq_some p d
  rw [hcount, count_listing hascending, listed_addDomainToMap, listed_addDomainToMap, Nat.add_assoc]
  congr 1
  cases p with
  | activationBackoff =>
    have hadded : (["IgnStatus"] ++ ["DeviceRemoval"]).count e =
        ["IgnStatus"].count e + ["DeviceRemoval"].count e := List.count_append
    rw [count_one, count_one] at hadded
    refine Eq.trans ?_ hadded.symm
    congr 1
    · exact if_congr (and_iff_right rfl) rfl rfl
    · exact if_congr (and_iff_right rfl) rfl rfl
  | deviceActivationHandler =>
    rw [if_neg fun h => absurd h.1 (by decide), if_neg fun h => absurd h.1 (by decide)]
    rfl
  | vinHandler =>
    rw [if_neg fun h => absurd h.1 (by decide), if_neg fun h => absurd h.1 (by decide)]
    rfl

/-- A processor gets an event as often as its domain lists it in the configuration, and once more
where `Init` adds it for the domain, whether it is listed there or not. The handler is subscribed
for no other event. -/
theorem count_init {config : DomainEventMap} (hconfig : Ascending config) (hnamed : Named config)
    (e : String) :
    (∀ p : InternalProcessor, ((init config).notifyMessage e).count p =
      listed config p.domain e + p.added.count e) ∧
    ((init config).m_jsonEventDomainMap.isHandlerSubscribedForEvent e = true ↔
      (init config).notifyMessage e ≠ []) := by
  constructor
  · exact count_notifyMessage_init hconfig hnamed e
  · exact subscribed_baseInit (named_init hnamed) e

/-- A configuration that lists the ignition for the activation too: the processor gets it twice. -/
theorem count_init_listed :
    ((init [("DeviceActivationHandler", .event "VIN"),
        ("activationBackOff", .events ["IgnStatus", "Speed"]),
        ("analytics", .event "Speed")]).notifyMessage "IgnStatus").count .activationBackoff = 2 ∧
      ((init [("DeviceActivationHandler", .event "VIN"),
        ("activationBackOff", .events ["IgnStatus", "Speed"]),
        ("analytics", .event "Speed")]).notifyMessage "IgnStatus") ≠ [] := by
  have hconfig : Ascending [("DeviceActivationHandler", DomainSection.event "VIN"),
      ("activationBackOff", .events ["IgnStatus", "Speed"]), ("analytics", .event "Speed")] := by
    show List.Pairwise (· < ·) ["DeviceActivationHandler", "activationBackOff", "analytics"]
    decide
  have hnamed : Named [("DeviceActivationHandler", DomainSection.event "VIN"),
      ("activationBackOff", .events ["IgnStatus", "Speed"]), ("analytics", .event "Speed")] := by
    rintro e d ⟨sec, hmem, he⟩
    simp only [List.mem_cons, List.not_mem_nil, or_false, Prod.mk.injEq] at hmem
    rcases hmem with ⟨-, rfl⟩ | ⟨-, rfl⟩ | ⟨-, rfl⟩
    · cases List.mem_singleton.1 he
      decide
    · rcases List.mem_cons.1 he with rfl | he
      · decide
      · cases List.mem_singleton.1 he
        decide
    · cases List.mem_singleton.1 he
      decide
  have hinit := count_init hconfig hnamed "IgnStatus"
  exact ⟨(hinit.1 .activationBackoff).trans (by decide), hinit.2.1 (by decide)⟩

end EventDelivery

end DeviceClient
