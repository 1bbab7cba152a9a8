import DeviceClient.Analytics.EventDelivery
import Mathlib.Data.List.Induction

/-!
# The processors after updates

`NotifyConfigUpdate` changes the map from events to domains and leaves the processors alone. What
a processor gets is followed through any number of updates, whether or not they leave an entry
without a domain: the domain without a name that comes of it has no processor.

The handler's own events are not in the copy of the configuration that an update goes by. Once a
configuration lists one of them, the next that does not takes it away.

* `mem_domainsAt_updateDomains`: what the loop over the domains does to a domain with a name.
* `mem_notifyMessage_updates`: what a processor gets after the updates.
-/

namespace DeviceClient

namespace EventDelivery

open EventDomainMap DomainEventMap Lib

/-! ## The source -/

/-- `NotifyConfigUpdate` of `CInternalMessageHandler`. -/
def notifyConfigUpdate {π : Type} (handler : Handler π) (jsonNewDomainEventMap : DomainEventMap) :
    Handler π :=
  if handler.m_jsonConfigDomainEventMap = jsonNewDomainEventMap then handler
  else
    { handler with
      toMessageHandler :=
        handler.toMessageHandler.updateCurrentEventDomainMap jsonNewDomainEventMap }

/-! ## A domain with a name -/

section

variable {d : String} {e : String} {map : EventDomainMap}

theorem mem_domainsAt_add (hname : d ≠ "") (domain event : String) :
    d ∈ (map.addReference domain event).domainsAt e ↔
      d ∈ map.domainsAt e ∨ d = domain ∧ e = event := by
  unfold domainsAt
  rw [lookup_addReference]
  by_cases he : e = event
  · rw [if_pos he, he]
    cases hentry : map.lookup event with
    | none => simp [DomainEntry.strDomains]
    | some entry =>
      -- an entry of null becomes a domain without a name
      cases entry with
      | null => simp [DomainEntry.strDomains, DomainEntry.asString, hname]
      | domain strDomain => simp [DomainEntry.strDomains, DomainEntry.asString]
      | domains strDomains => simp [DomainEntry.strDomains]
  · rw [if_neg he]
    simp [he]

theorem mem_domainsAt_remove (domain : String) {event : String} (hnul : '\x00' ∉ event.toList) :
    d ∈ (map.removeEventDomainReferenceFromMap domain event).domainsAt e ↔
      d ∈ map.domainsAt e ∧ ¬ (d = domain ∧ e = event) := by
  rw [domainsAt_remove domain hnul]
  by_cases he : e = event
  · rw [if_pos he, he, List.mem_filter]
    simp
  · rw [if_neg he]
    simp [he]

theorem mem_domainsAt_addAll (hname : d ≠ "") (domain : String) (events : List String) :
    d ∈ (map.addAll domain events).domainsAt e ↔
      d ∈ map.domainsAt e ∨ d = domain ∧ e ∈ events := by
  induction events generalizing map with
  | nil => simp [addAll]
  | cons event events ih =>
    have hstep : d ∈ (map.addAll domain (event :: events)).domainsAt e ↔
        d ∈ (map.addReference domain event).domainsAt e ∨ d = domain ∧ e ∈ events := ih
    rw [hstep, mem_domainsAt_add hname, List.mem_cons]
    tauto

theorem mem_domainsAt_removeAll (domain : String) {events : List String}
    (hnul : ∀ event ∈ events, '\x00' ∉ event.toList) :
    d ∈ (map.removeAll domain events).domainsAt e ↔
      d ∈ map.domainsAt e ∧ ¬ (d = domain ∧ e ∈ events) := by
  induction events generalizing map with
  | nil => simp [removeAll]
  | cons event events ih =>
    rcases List.forall_mem_cons.1 hnul with ⟨hevent, hrest⟩
    have hstep : d ∈ (map.removeAll domain (event :: events)).domainsAt e ↔
        d ∈ (map.removeEventDomainReferenceFromMap domain event).domainsAt e ∧
          ¬ (d = domain ∧ e ∈ events) := ih hrest
    rw [hstep, mem_domainsAt_remove domain hevent, List.mem_cons]
    tauto

/-- What an update makes of the subscription of a domain for an event, by the sections of the
domain before and after. -/
def afterUpdate (old new : Option DomainSection) (e : String) (subscribed : Prop) : Prop :=
  match old, new with
  | some old, some new =>
    if old = new then subscribed else subscribed ∧ e ∉ old.eventIds ∨ e ∈ new.eventIds
  | _, _ => subscribed

theorem afterUpdate_none (new : Option DomainSection) (e : String) (subscribed : Prop) :
    afterUpdate none new e subscribed = subscribed := rfl

/-- One turn of the loop. -/
theorem mem_domainsAt_updateDomain (hname : d ≠ "") (newMap : DomainEventMap) (domain : String)
    {old : DomainSection} (hnul : ∀ event ∈ old.eventIds, '\x00' ∉ event.toList) :
    d ∈ (updateDomain newMap map domain old).domainsAt e ↔
      if d = domain then
        afterUpdate (some old) (newMap.lookup domain) e (d ∈ map.domainsAt e)
      else d ∈ map.domainsAt e := by
  cases hnew : newMap.lookup domain with
  | none =>
    have hsame : updateDomain newMap map domain old = map := by
      unfold updateDomain
      rw [hnew]
    rw [hsame]
    exact (iff_of_eq (ite_self _)).symm
  | some new =>
    rw [MessageHandler.updateDomain_eq hnew]
    by_cases hsame : old = new
    · rw [if_pos hsame]
      unfold afterUpdate
      dsimp only
      rw [if_pos hsame]
      exact (iff_of_eq (ite_self _)).symm
    · rw [if_neg hsame, mem_domainsAt_addAll hname, mem_domainsAt_removeAll domain hnul]
      unfold afterUpdate
      dsimp only
      rw [if_neg hsame]
      by_cases hd : d = domain
      · rw [if_pos hd]
        simp [hd]
      · rw [if_neg hd]
        simp [hd]

/-- The loop: the section of the domain decides, and nothing else. -/
theorem mem_domainsAt_updateDomains (hname : d ≠ "") (newMap : DomainEventMap)
    {sections : DomainEventMap} (hasc : Ascending sections) (hnamed : Named sections) :
    d ∈ (updateDomains newMap map sections).domainsAt e ↔
      afterUpdate (sections.lookup d) (newMap.lookup d) e (d ∈ map.domainsAt e) := by
  induction sections generalizing map with
  | nil => exact Iff.rfl
  | cons sec sections ih =>
    rcases ascending_cons.1 hasc with ⟨habove, hrest⟩
    have hnul : ∀ event ∈ sec.2.eventIds, '\x00' ∉ event.toList :=
      fun event hevent => hnamed event sec.1 ⟨sec.2, List.mem_cons_self, hevent⟩
    have hnamedRest : Named sections := fun e d hlists =>
      hnamed e d ((MessageHandler.lists_cons sec.1 sec.2 sections e d).2 (Or.inr hlists))
    have hstep : d ∈ (updateDomains newMap map (sec :: sections)).domainsAt e ↔
        afterUpdate (sections.lookup d) (newMap.lookup d) e
          (d ∈ (updateDomain newMap map sec.1 sec.2).domainsAt e) := ih hrest hnamedRest
    rw [hstep, show (sec :: sections).lookup d = _ from lookup_cons_ite d sec.1 sec.2 sections]
    have hturn : d ∈ (updateDomain newMap map sec.1 sec.2).domainsAt e ↔
        if d = sec.1 then
          afterUpdate (some sec.2) (newMap.lookup sec.1) e (d ∈ map.domainsAt e)
        else d ∈ map.domainsAt e := mem_domainsAt_updateDomain hname newMap sec.1 hnul
    by_cases hd : d = sec.1
    · -- the keys ascend, so the turns behind this one are of other domains
      have hnone : sections.lookup d = none := by
        rw [hd]
        exact lookup_eq_none_of_below habove
      rw [if_pos hd] at hturn
      rw [if_pos hd, hnone, afterUpdate_none, hturn, hd]
    · -- the turn of another domain
      rw [if_neg hd] at hturn
      rw [if_neg hd, propext hturn]

theorem afterUpdate_self (sec : Option DomainSection) (e : String) (subscribed : Prop) :
    afterUpdate sec sec e subscribed = subscribed := by
  cases sec with
  | none => rfl
  | some sec => exact if_pos rfl

theorem mem_domainsAt_notifyConfigUpdate {π : Type} (hname : d ≠ "") {handler : Handler π}
    (hasc : Ascending handler.m_jsonConfigDomainEventMap)
    (hnamed : Named handler.m_jsonConfigDomainEventMap) (newMap : DomainEventMap) :
    d ∈ (notifyConfigUpdate handler newMap).m_jsonEventDomainMap.domainsAt e ↔
      afterUpdate (handler.m_jsonConfigDomainEventMap.lookup d) (newMap.lookup d) e
        (d ∈ handler.m_jsonEventDomainMap.domainsAt e) := by
  unfold notifyConfigUpdate
  by_cases hsame : handler.m_jsonConfigDomainEventMap = newMap
  · rw [if_pos hsame, hsame, afterUpdate_self]
  · rw [if_neg hsame]
    exact mem_domainsAt_updateDomains hname newMap hasc hnamed

/-! ## What a section lists -/

theorem lists_of_lookup {sections : DomainEventMap} (hasc : Ascending sections)
    {sec : DomainSection} (hsec : sections.lookup d = some sec) :
    sections.Lists e d ↔ e ∈ sec.eventIds := by
  constructor
  · rintro ⟨sec', hmem, he⟩
    have hlookup : sections.lookup d = some sec' := hasc.lookup_of_mem hmem
    rw [hsec, Option.some.injEq] at hlookup
    rwa [hlookup]
  · intro he
    exact ⟨sec, mem_of_lookup hsec, he⟩

theorem not_lists_of_lookup {sections : DomainEventMap} (hasc : Ascending sections)
    (hsec : sections.lookup d = none) : ¬ sections.Lists e d := by
  rintro ⟨sec, hmem, -⟩
  have hlookup : sections.lookup d = some sec := hasc.lookup_of_mem hmem
  rw [hsec] at hlookup
  cases hlookup

/-- An update that keeps the domain: what the configuration lists is followed, and what it never
listed stays. -/
theorem afterUpdate_iff {old new : DomainEventMap} (hold : Ascending old) (hnew : Ascending new)
    (hkeeps : (new.lookup d).isSome = (old.lookup d).isSome) {subscribed unlisted : Prop}
    (hsubscribed : subscribed ↔ old.Lists e d ∨ unlisted)
    (hunlisted : unlisted → ¬ old.Lists e d) :
    afterUpdate (old.lookup d) (new.lookup d) e subscribed ↔
      new.Lists e d ∨ unlisted ∧ ¬ new.Lists e d := by
  cases hsec : old.lookup d with
  | none =>
    rw [hsec] at hkeeps
    have hsec' : new.lookup d = none := Option.not_isSome_iff_eq_none.1 (by rw [hkeeps]; simp)
    have hlists := not_lists_of_lookup hold hsec (e := e)
    have hlists' := not_lists_of_lookup hnew hsec' (e := e)
    rw [afterUpdate_none]
    tauto
  | some sec =>
    rw [hsec] at hkeeps
    rcases Option.isSome_iff_exists.1 hkeeps with ⟨sec', hsec'⟩
    rw [lists_of_lookup hold hsec] at hsubscribed hunlisted
    rw [hsec', lists_of_lookup hnew hsec']
    unfold afterUpdate
    dsimp only
    by_cases hsame : sec = sec'
    · rw [if_pos hsame, ← hsame]
      tauto
    · rw [if_neg hsame]
      tauto

end

/-! ## The internal handler -/

theorem domain_ne_empty (p : InternalProcessor) : p.domain ≠ "" := by
  cases p <;> decide

/-- A domain without a name, which a null entry stands for, has no processor. -/
theorem mem_notifyMessage {handler : Handler InternalProcessor}
    (hprocessors : ∀ d p, handler.m_mapEventProcessors.lookup d = some p → d = p.domain)
    (p : InternalProcessor) (e : String) :
    p ∈ handler.notifyMessage e ↔
      p.domain ∈ handler.m_jsonEventDomainMap.domainsAt e ∧
        handler.m_mapEventProcessors.lookup p.domain = some p := by
  have hiff : ∀ strDomains : List String,
      p ∈ (strDomains.filterMap fun d => handler.m_mapEventProcessors.lookup d) ↔
        p.domain ∈ strDomains ∧ handler.m_mapEventProcessors.lookup p.domain = some p := by
    intro strDomains
    rw [List.mem_filterMap]
    constructor
    · rintro ⟨d, hd, hlookup⟩
      cases hprocessors d p hlookup
      exact ⟨hd, hlookup⟩
    · rintro ⟨hd, hlookup⟩
      exact ⟨p.domain, hd, hlookup⟩
  unfold Handler.notifyMessage domainsAt
  cases handler.m_jsonEventDomainMap.lookup e with
  | none => simp
  | some entry =>
    refine (hiff (dispatched entry)).trans (and_congr_left fun _ => ?_)
    cases entry with
    | null => simp [dispatched, DomainEntry.asString, DomainEntry.strDomains, domain_ne_empty]
    | domain strDomain => exact Iff.rfl
    | domains strDomains => exact Iff.rfl

theorem lookup_addDomainToMap_isSome (event domain : String) {map : DomainEventMap} {d : String}
    (h : (map.lookup d).isSome) : ((addDomainToMap event domain map).lookup d).isSome := by
  rcases addDomainToMap_eq event domain map with ⟨sec, hmap, -⟩
  rw [hmap, lookup_setKey]
  split_ifs
  · rfl
  · exact h

theorem processors_init {config : DomainEventMap} {d : String} {p : InternalProcessor}
    (h : (init config).m_mapEventProcessors.lookup d = some p) : d = p.domain := by
  have hlookup := (lookup_updateEventProcessorMap internalProcessor _ d).symm.trans h
  split_ifs at hlookup
  exact (internalProcessor_eq_some p d).1 hlookup

/-- The processor of a domain of the configuration is there. -/
theorem processor_of_domain {config : DomainEventMap} (p : InternalProcessor)
    (h : (config.lookup p.domain).isSome) :
    (init config).m_mapEventProcessors.lookup p.domain = some p := by
  have hdomain := lookup_addDomainToMap_isSome "DeviceRemoval" DOMAIN_ACTIVATION_BACKOFF
    (lookup_addDomainToMap_isSome "IgnStatus" DOMAIN_ACTIVATION_BACKOFF h)
  rcases Option.isSome_iff_exists.1 hdomain with ⟨sec, hsec⟩
  refine (lookup_updateEventProcessorMap internalProcessor _ p.domain).trans ?_
  rw [if_pos (mem_keys_of_lookup hsec)]
  exact (internalProcessor_eq_some p p.domain).2 rfl

theorem mem_notifyMessage_init {config : DomainEventMap} (hconfig : Ascending config)
    (hnamed : Named config) (e : String) (p : InternalProcessor) :
    p ∈ (init config).notifyMessage e ↔ config.Lists e p.domain ∨ e ∈ p.added := by
  rw [← List.count_pos_iff, count_notifyMessage_init hconfig hnamed, Nat.add_pos_iff_pos_or_pos,
    List.count_pos_iff]
  refine or_congr_left' fun _ => ?_
  unfold listed
  cases hsec : config.lookup p.domain with
  | none => simpa using not_lists_of_lookup hconfig hsec
  | some sec => simp [lists_of_lookup hconfig hsec, List.count_pos_iff]

/-- An update from a configuration keeps the domain, and its names are C strings. -/
structure UpdateKeeps (config : DomainEventMap) (domain : String) (newMap : DomainEventMap) :
    Prop where
  ascending : Ascending newMap
  named : Named newMap
  keeps : (newMap.lookup domain).isSome = (config.lookup domain).isSome

theorem config_updates {π : Type} (handler : Handler π) (updates : List DomainEventMap) :
    (updates.foldl notifyConfigUpdate handler).m_jsonConfigDomainEventMap =
      updates.getLastD handler.m_jsonConfigDomainEventMap := by
  induction updates using List.reverseRecOn with
  | nil => rfl
  | append_singleton updates new _ =>
    rw [List.foldl_append, List.getLastD_concat]
    show (notifyConfigUpdate (updates.foldl notifyConfigUpdate handler)
      new).m_jsonConfigDomainEventMap = new
    unfold notifyConfigUpdate
    split_ifs with hsame
    · exact hsame
    · rfl

theorem processors_updates {π : Type} (handler : Handler π) (updates : List DomainEventMap) :
    (updates.foldl notifyConfigUpdate handler).m_mapEventProcessors =
      handler.m_mapEventProcessors := by
  induction updates generalizing handler with
  | nil => rfl
  | cons new updates ih =>
    refine (ih _).trans ?_
    unfold notifyConfigUpdate
    split_ifs <;> rfl

theorem mem_notifyMessage_run (config : DomainEventMap) (updates : List DomainEventMap)
    (p : InternalProcessor) (e : String) :
    p ∈ (updates.foldl notifyConfigUpdate (init config)).notifyMessage e ↔
      p.domain ∈
          (updates.foldl notifyConfigUpdate (init config)).m_jsonEventDomainMap.domainsAt e ∧
        (init config).m_mapEventProcessors.lookup p.domain = some p := by
  have hprocessors := processors_updates (init config) updates
  rw [← hprocessors]
  refine mem_notifyMessage (fun d p hlookup => ?_) p e
  rw [hprocessors] at hlookup
  exact processors_init hlookup

/-- One more update. -/
theorem mem_domainsAt_concat {config : DomainEventMap} {updates : List DomainEventMap}
    {p : InternalProcessor} (hold : UpdateKeeps config p.domain (updates.getLastD config))
    {newMap : DomainEventMap} {e : String} :
    p.domain ∈ ((updates ++ [newMap]).foldl notifyConfigUpdate
        (init config)).m_jsonEventDomainMap.domainsAt e ↔
      afterUpdate ((updates.getLastD config).lookup p.domain) (newMap.lookup p.domain) e
        (p.domain ∈ (updates.foldl notifyConfigUpdate
          (init config)).m_jsonEventDomainMap.domainsAt e) := by
  have hconfigured : (updates.foldl notifyConfigUpdate
      (init config)).m_jsonConfigDomainEventMap = updates.getLastD config :=
    config_updates (init config) updates
  rw [List.foldl_append, ← hconfigured]
  apply mem_domainsAt_notifyConfigUpdate (domain_ne_empty p)
  · rw [hconfigured]
    exact hold.ascending
  · rw [hconfigured]
    exact hold.named

/-- A processor gets what the present configuration lists for its domain, and what `Init` has added
as long as no configuration has listed it. By induction on the updates; where the domain is in no
configuration, neither side changes. -/
theorem mem_notifyMessage_updates {config : DomainEventMap} (hconfig : Ascending config)
    (hnamed : Named config) (p : InternalProcessor) {updates : List DomainEventMap}
    (hupdates : ∀ newMap ∈ updates, UpdateKeeps config p.domain newMap) (e : String) :
    p ∈ (updates.foldl notifyConfigUpdate (init config)).notifyMessage e ↔
      Lists (updates.getLastD config) e p.domain ∨
        e ∈ p.added ∧ ∀ c ∈ config :: updates, ¬ Lists c e p.domain := by
  induction updates using List.reverseRecOn with
  | nil =>
    refine (mem_notifyMessage_init hconfig hnamed e p).trans ?_
    show _ ↔ config.Lists e p.domain ∨ _
    rw [List.forall_mem_singleton]
    tauto
  | append_singleton updates newMap ih =>
    have hfront : ∀ c ∈ updates, UpdateKeeps config p.domain c :=
      fun c hc => hupdates c (List.mem_append_left _ hc)
    have hlast : UpdateKeeps config p.domain newMap :=
      hupdates newMap (List.mem_append_right _ (List.mem_singleton.2 rfl))
    have hmem : updates.getLastD config ∈ config :: updates := List.getLastD_mem_cons
    have hold : UpdateKeeps config p.domain (updates.getLastD config) := by
      rcases List.mem_cons.1 hmem with heq | hmem
      · rw [heq]
        exact ⟨hconfig, hnamed, rfl⟩
      · exact hfront _ hmem
    have hall : (∀ c ∈ config :: (updates ++ [newMap]), ¬ Lists c e p.domain) ↔
        (∀ c ∈ config :: updates, ¬ Lists c e p.domain) ∧ ¬ Lists newMap e p.domain := by
      rw [← List.cons_append, List.forall_mem_append, List.forall_mem_singleton]
    specialize ih hfront
    rw [mem_notifyMessage_run] at ih ⊢
    rw [mem_domainsAt_concat hold, List.getLastD_concat, hall]
    by_cases hdomain : (config.lookup p.domain).isSome = true
    · have hprocessor := processor_of_domain p hdomain
      -- what is unlisted so far is what `Init` has added and no configuration has listed
      rw [and_iff_left hprocessor] at ih ⊢
      rw [afterUpdate_iff hold.ascending hlast.ascending (hlast.keeps.trans hold.keeps.symm) ih
        fun hunlisted => hunlisted.2 _ hmem, and_assoc]
    · -- the domain is in no configuration
      have hnone : ∀ {c : DomainEventMap}, UpdateKeeps config p.domain c →
          c.lookup p.domain = none := by
        intro c hc
        rw [← Option.not_isSome_iff_eq_none, hc.keeps]
        exact hdomain
      have hlists := not_lists_of_lookup hold.ascending (hnone hold) (e := e)
      have hlists' := not_lists_of_lookup hlast.ascending (hnone hlast) (e := e)
      rw [hnone hold, afterUpdate_none, ih]
      tauto

/-- The ignition, which the handler has added for the activation, is listed for it and then no
more. -/
theorem mem_notifyMessage_unlisted :
    .activationBackoff ∉ ([[("activationBackOff", DomainSection.event "IgnStatus")],
        [("activationBackOff", .event "Speed")]].foldl notifyConfigUpdate
          (init [("activationBackOff", .event "Speed")])).notifyMessage "IgnStatus" := by
  have hascending : ∀ sec : DomainSection, Ascending [("activationBackOff", sec)] :=
    fun _ => List.pairwise_singleton _ _
  have hnamed : ∀ event : String, '\x00' ∉ event.toList →
      Named [("activationBackOff", .event event)] := by
    rintro event hevent e d ⟨sec, hmem, he⟩
    cases List.mem_singleton.1 hmem
    cases List.mem_singleton.1 he
    exact hevent
  have hignition : '\x00' ∉ "IgnStatus".toList := by decide
  have hspeed : '\x00' ∉ "Speed".toList := by decide
  have hupdates : ∀ newMap ∈ [[("activationBackOff", DomainSection.event "IgnStatus")],
      [("activationBackOff", .event "Speed")]],
      UpdateKeeps [("activationBackOff", .event "Speed")]
        InternalProcessor.activationBackoff.domain newMap :=
    List.forall_mem_cons.2 ⟨⟨hascending _, hnamed _ hignition, rfl⟩,
      List.forall_mem_singleton.2 ⟨hascending _, hnamed _ hspeed, rfl⟩⟩
  rw [mem_notifyMessage_updates (hascending (.event "Speed")) (hnamed "Speed" hspeed)
    .activationBackoff hupdates "IgnStatus"]
  rintro (⟨sec, hmem, he⟩ | ⟨-, hnever⟩)
  · cases List.mem_singleton.1 hmem
    revert he
    decide
  · exact hnever _ (List.mem_cons_of_mem _ List.mem_cons_self)
      ⟨_, List.mem_cons_self, List.mem_cons_self⟩

end EventDelivery

end DeviceClient
