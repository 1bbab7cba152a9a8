import DeviceClient.Analytics.EventDomainMap
import DeviceClient.Lib.Run
import Mathlib.Data.String.Basic

/-!
# Updates of the configuration

`UpdateCurrentEventDomainMap` takes the references of the sections that changed out of
the map and puts the new ones in. It agrees with a map that is built anew as long as
no event with an array for its entry is left without a domain on the way: the null
that is left is taken for a subscription, and for a domain without a name when the
event is listed again.

* `represents_updateDomains`: what the loop over the domains does to the relation.
* `agrees_of_run`: maps after any number of updates.
-/

namespace DeviceClient

open Lib EventDomainMap

/-- A domain lists an event. -/
def DomainEventMap.Lists (config : DomainEventMap) (event domain : String) : Prop :=
  ∃ sec, (domain, sec) ∈ config ∧ event ∈ sec.eventIds

/-- What the handler keeps. -/
structure MessageHandler where
  m_jsonEventDomainMap : EventDomainMap
  m_jsonConfigDomainEventMap : DomainEventMap

namespace MessageHandler

open DomainEventMap

/-- The map of a configuration, built anew. -/
def rebuild (config : DomainEventMap) : EventDomainMap := createReverseOfDomainEventMap config []

def start (config : DomainEventMap) : MessageHandler := ⟨rebuild config, config⟩

/-- `UpdateCurrentEventDomainMap`. -/
def updateCurrentEventDomainMap (handler : MessageHandler)
    (rjsonNewDomainEventMap : DomainEventMap) : MessageHandler :=
  { m_jsonEventDomainMap := updateDomains rjsonNewDomainEventMap handler.m_jsonEventDomainMap
      handler.m_jsonConfigDomainEventMap
    m_jsonConfigDomainEventMap := rjsonNewDomainEventMap }

/-- An update as a step. -/
def next (handler : MessageHandler) (rjsonNewDomainEventMap : DomainEventMap) :
    Option MessageHandler :=
  some (handler.updateCurrentEventDomainMap rjsonNewDomainEventMap)

/-- The map says of every event what the configuration says. -/
def Agrees (handler : MessageHandler) : Prop :=
  (∀ event domain, domain ∈ handler.m_jsonEventDomainMap.domainsAt event ↔
    domain ∈ (rebuild handler.m_jsonConfigDomainEventMap).domainsAt event) ∧
  ∀ event, handler.m_jsonEventDomainMap.isHandlerSubscribedForEvent event = true ↔
    ∃ domain, Lists handler.m_jsonConfigDomainEventMap event domain

/-! ## The relation of a map -/

/-- The map holds the relation, and no entry without a domain. -/
structure Represents (map : EventDomainMap) (R : String → String → Prop) : Prop where
  related : ∀ event domain, domain ∈ map.domainsAt event ↔ R event domain
  inhabited : map.Inhabited

variable {map : EventDomainMap} {R : String → String → Prop}

theorem Represents.congr {R' : String → String → Prop} (h : Represents map R)
    (hR : ∀ event domain, R event domain ↔ R' event domain) : Represents map R' := by
  constructor
  · intro event domain
    exact (h.related event domain).trans (hR event domain)
  · exact h.inhabited

theorem represents_nil : Represents [] fun _ _ => False := by
  constructor
  · intro event domain
    simp [domainsAt]
  · intro event entry hentry
    cases hentry

/-- An event is a member iff it has a domain. -/
theorem Represents.subscribed_iff (h : Represents map R) (event : String) :
    map.isHandlerSubscribedForEvent event = true ↔ ∃ domain, R event domain := by
  unfold isHandlerSubscribedForEvent
  rw [Option.isSome_iff_exists]
  constructor
  · rintro ⟨entry, hentry⟩
    rcases List.exists_mem_of_ne_nil _ (h.inhabited event entry hentry) with ⟨domain, hdomain⟩
    refine ⟨domain, (h.related event domain).mp ?_⟩
    unfold domainsAt
    rw [hentry]
    exact hdomain
  · rintro ⟨domain, hdomain⟩
    have hmem := (h.related event domain).mpr hdomain
    unfold domainsAt at hmem
    cases hentry : map.lookup event with
    | none =>
      rw [hentry] at hmem
      cases hmem
    | some entry => exact ⟨entry, rfl⟩

theorem Represents.add (h : Represents map R) (domain event : String) :
    Represents (map.addReference domain event) fun e d => R e d ∨ d = domain ∧ e = event := by
  constructor
  · intro e d
    rw [domainsAt_add h.inhabited]
    by_cases he : e = event
    · rw [if_pos he, he, List.mem_append, List.mem_singleton, h.related]
      simp
    · rw [if_neg he, h.related]
      simp [he]
  · exact inhabited_add h.inhabited domain event

theorem Represents.remove (h : Represents map R) {domain event : String}
    (hnul : '\x00' ∉ event.toList) (hstays : map.ArrayAt event → ∃ d, d ≠ domain ∧ R event d) :
    Represents (map.removeEventDomainReferenceFromMap domain event)
      fun e d => R e d ∧ ¬ (d = domain ∧ e = event) := by
  constructor
  · intro e d
    rw [domainsAt_remove domain hnul]
    by_cases he : e = event
    · rw [if_pos he, he, List.mem_filter, h.related]
      simp
    · rw [if_neg he, h.related]
      simp [he]
  · apply inhabited_remove h.inhabited hnul
    intro harray
    rcases hstays harray with ⟨d, hne, hd⟩
    exact ⟨d, hne, (h.related event d).mpr hd⟩

/-! ## The events of a section -/

theorem Represents.addAll (h : Represents map R) (domain : String) (events : List String) :
    Represents (map.addAll domain events) (fun e d => R e d ∨ d = domain ∧ e ∈ events) ∧
      ∀ e, (map.addAll domain events).ArrayAt e → map.ArrayAt e ∨ e ∈ events := by
  induction events generalizing map R with
  | nil =>
    constructor
    · apply h.congr
      intro e d
      simp
    · intro e he
      exact Or.inl he
  | cons event events ih =>
    rcases ih (h.add domain event) with ⟨hrep, harray⟩
    constructor
    · apply hrep.congr
      intro e d
      rw [List.mem_cons]
      tauto
    · intro e he
      rcases harray e he with he | he
      · rcases arrayAt_add he with he | he
        · exact Or.inl he
        · exact Or.inr (he ▸ List.mem_cons_self)
      · exact Or.inr (List.mem_cons_of_mem _ he)

/-- The references of a section are taken out: no array is left without a domain, as each
of its events that has one has another domain as well. -/
theorem Represents.removeAll (h : Represents map R) {domain : String} {events : List String}
    (hnul : ∀ event ∈ events, '\x00' ∉ event.toList)
    (hstays : ∀ event ∈ events, map.ArrayAt event → ∃ d, d ≠ domain ∧ R event d) :
    Represents (map.removeAll domain events) (fun e d => R e d ∧ ¬ (d = domain ∧ e ∈ events)) ∧
      ∀ e, (map.removeAll domain events).ArrayAt e → map.ArrayAt e := by
  induction events generalizing map R with
  | nil =>
    constructor
    · apply h.congr
      intro e d
      simp
    · intro e he
      exact he
  | cons event events ih =>
    have hevent := hnul event List.mem_cons_self
    have hremove := h.remove hevent (hstays event List.mem_cons_self)
    -- the other events keep another domain
    have hrest : ∀ event' ∈ events,
        (map.removeEventDomainReferenceFromMap domain event).ArrayAt event' →
          ∃ d, d ≠ domain ∧ R event' d ∧ ¬ (d = domain ∧ event' = event) := by
      intro event' hevent' harray
      rcases hstays event' (List.mem_cons_of_mem _ hevent') (arrayAt_remove hevent harray) with
        ⟨d, hne, hd⟩
      exact ⟨d, hne, hd, fun heq => hne heq.1⟩
    rcases ih hremove (fun e he => hnul e (List.mem_cons_of_mem _ he)) hrest with ⟨hrep, harray⟩
    constructor
    · apply hrep.congr
      intro e d
      rw [List.mem_cons]
      tauto
    · intro e he
      exact arrayAt_remove hevent (harray e he)

/-- Both kinds of sections: the old references go, the new ones come. -/
theorem updateDomain_eq {newMap : DomainEventMap} {domain : String} {old new : DomainSection}
    (hnew : newMap.lookup domain = some new) (map : EventDomainMap) :
    updateDomain newMap map domain old =
      if old = new then map else (map.removeAll domain old.eventIds).addAll domain new.eventIds := by
  unfold updateDomain
  rw [hnew]
  dsimp only
  split
  · rfl
  · cases old <;> cases new <;> rfl

/-! ## The loop over the domains -/

@[simp] theorem lists_nil (event domain : String) : ¬ Lists [] event domain := by
  rintro ⟨sec, hmem, -⟩
  cases hmem

theorem lists_cons (name : String) (sec : DomainSection) (config : DomainEventMap)
    (event domain : String) :
    Lists ((name, sec) :: config) event domain ↔
      (domain = name ∧ event ∈ sec.eventIds) ∨ Lists config event domain := by
  constructor
  · rintro ⟨sec', hmem, hevent⟩
    rcases List.mem_cons.mp hmem with heq | hmem
    · cases heq
      exact Or.inl ⟨rfl, hevent⟩
    · exact Or.inr ⟨sec', hmem, hevent⟩
  · rintro (⟨rfl, hevent⟩ | ⟨sec', hmem, hevent⟩)
    · exact ⟨sec, List.mem_cons_self, hevent⟩
    · exact ⟨sec', List.mem_cons_of_mem _ hmem, hevent⟩

theorem lists_append (config config' : DomainEventMap) (event domain : String) :
    Lists (config ++ config') event domain ↔
      Lists config event domain ∨ Lists config' event domain := by
  induction config with
  | nil => simp
  | cons entry config ih =>
    rw [List.cons_append, lists_cons, lists_cons, ih, or_assoc]

theorem mem_keys_of_lists {config : DomainEventMap} {event domain : String}
    (h : Lists config event domain) : domain ∈ config.map Prod.fst := by
  rcases h with ⟨sec, hmem, -⟩
  exact List.mem_map.mpr ⟨(domain, sec), hmem, rfl⟩

/-- The domains in front of one and behind it. -/
theorem below_and_above {front back : DomainEventMap} {domain : String} {sec : DomainSection}
    (h : Ascending (front ++ (domain, sec) :: back)) :
    (∀ d ∈ front.map Prod.fst, d < domain) ∧ ∀ d ∈ back.map Prod.fst, domain < d := by
  unfold Ascending at h
  rw [List.map_append, List.map_cons, List.pairwise_append, List.pairwise_cons] at h
  rcases h with ⟨-, ⟨hback, -⟩, hfront⟩
  exact ⟨fun d hd => hfront d hd domain List.mem_cons_self, hback⟩

/-- Another domain lists the event while the loop is at this one: it is in front and lists
it now, or behind and listed it before. -/
def StaysListed (config newMap : DomainEventMap) (event domain : String) : Prop :=
  ∃ d, (d < domain ∧ Lists newMap event d) ∨ (domain < d ∧ Lists config event d)

/-- The events that a section loses while the entry is an array stay listed, and none has a
name that `removeMember` cuts. -/
def SectionsFit (map : EventDomainMap) (config newMap : DomainEventMap) : Prop :=
  ∀ domain old new, (domain, old) ∈ config → (domain, new) ∈ newMap → old ≠ new →
    ∀ event ∈ old.eventIds, '\x00' ∉ event.toList ∧
      (map.ArrayAt event → StaysListed config newMap event domain)

/-- While the map follows the new configuration in front of a changed domain and the old
one from it on: an event of the old section that has an array has another domain. -/
theorem other_domain_of_array {config newMap : DomainEventMap} {before map : EventDomainMap}
    (hasc : Ascending config) (hasc' : Ascending newMap) (hfit : SectionsFit before config newMap)
    {front front' todo todo' : DomainEventMap} {domain : String} {old new : DomainSection}
    (hconfig : config = front ++ (domain, old) :: todo)
    (hnew : newMap = front' ++ (domain, new) :: todo') (hsame : old ≠ new)
    (harray : ∀ e, map.ArrayAt e → before.ArrayAt e ∨ ∃ d, Lists front' e d) {event : String}
    (hevent : event ∈ old.eventIds) (hat : map.ArrayAt event) :
    ∃ d, d ≠ domain ∧ (Lists front' event d ∨ Lists ((domain, old) :: todo) event d) := by
  have hmem : (domain, old) ∈ config := by
    rw [hconfig]
    exact List.mem_append_right _ List.mem_cons_self
  have hmem' : (domain, new) ∈ newMap := by
    rw [hnew]
    exact List.mem_append_right _ List.mem_cons_self
  have hfrontOld := (below_and_above (hconfig ▸ hasc)).1
  rcases below_and_above (hnew ▸ hasc') with ⟨hfront, hback⟩
  rcases harray event hat with hat | ⟨d, hd⟩
  · rcases (hfit domain old new hmem hmem' hsame event hevent).2 hat with
      ⟨d, ⟨hlt, hd⟩ | ⟨hlt, hd⟩⟩
    · refine ⟨d, ne_of_lt hlt, Or.inl ?_⟩
      rw [hnew, lists_append, lists_cons] at hd
      rcases hd with hd | ⟨heq, -⟩ | hd
      · exact hd
      · exact absurd heq (ne_of_lt hlt)
      · exact absurd hlt (lt_asymm (hback d (mem_keys_of_lists hd)))
    · refine ⟨d, ne_of_gt hlt, Or.inr ?_⟩
      rw [hconfig, lists_append] at hd
      rcases hd with hd | hd
      · exact absurd hlt (lt_asymm (hfrontOld d (mem_keys_of_lists hd)))
      · exact hd
  · exact ⟨d, ne_of_lt (hfront d (mem_keys_of_lists hd)), Or.inl hd⟩

/-- By induction on the domains that are left. In front of them the map follows the new
configuration, from them on the old one; an array is one that was there, or has a domain
from the front. -/
theorem represents_updateDomains {config newMap : DomainEventMap} {before : EventDomainMap}
    (hasc : Ascending config) (hasc' : Ascending newMap) (hfit : SectionsFit before config newMap)
    {front front' todo todo' : DomainEventMap} {map : EventDomainMap}
    (hconfig : config = front ++ todo) (hnew : newMap = front' ++ todo')
    (hkeys : todo'.map Prod.fst = todo.map Prod.fst)
    (hrep : Represents map fun e d => Lists front' e d ∨ Lists todo e d)
    (harray : ∀ e, map.ArrayAt e → before.ArrayAt e ∨ ∃ d, Lists front' e d) :
    Represents (updateDomains newMap map todo) (Lists newMap) := by
  induction todo generalizing front front' todo' map with
  | nil =>
    have htodo : todo' = [] := List.map_eq_nil_iff.mp hkeys
    apply hrep.congr
    intro e d
    rw [hnew, htodo, List.append_nil]
    simp
  | cons entry todo ih =>
    cases todo' with
    | nil => cases hkeys
    | cons entry' todo' =>
      rcases entry with ⟨domain, old⟩
      rcases entry' with ⟨domain', new⟩
      rw [List.map_cons, List.map_cons, List.cons.injEq] at hkeys
      rcases hkeys with ⟨rfl, hkeys⟩
      have hmem : (domain', old) ∈ config := by
        rw [hconfig]
        exact List.mem_append_right _ List.mem_cons_self
      have hmem' : (domain', new) ∈ newMap := by
        rw [hnew]
        exact List.mem_append_right _ List.mem_cons_self
      have hlookup : newMap.lookup domain' = some new := hasc'.lookup_of_mem hmem'
      have hback := (below_and_above (hconfig ▸ hasc)).2
      have hfront := (below_and_above (hnew ▸ hasc')).1
      have hconfig' : config = (front ++ [(domain', old)]) ++ todo := by
        rw [hconfig, List.append_assoc, List.singleton_append]
      have hnew' : newMap = (front' ++ [(domain', new)]) ++ todo' := by
        rw [hnew, List.append_assoc, List.singleton_append]
      show Represents (updateDomains newMap (updateDomain newMap map domain' old) todo)
        (Lists newMap)
      rw [updateDomain_eq hlookup]
      by_cases hsame : old = new
      · -- the section is as it was
        rw [if_pos hsame]
        apply ih hconfig' hnew' hkeys
        · apply hrep.congr
          intro e d
          rw [lists_append, lists_cons, lists_cons, hsame]
          simp only [lists_nil, or_false]
          tauto
        · intro e he
          rcases harray e he with he | ⟨d, hd⟩
          · exact Or.inl he
          · exact Or.inr ⟨d, (lists_append _ _ _ _).mpr (Or.inl hd)⟩
      · rw [if_neg hsame]
        have hnul : ∀ event ∈ old.eventIds, '\x00' ∉ event.toList :=
          fun event hevent => (hfit domain' old new hmem hmem' hsame event hevent).1
        have hstays := fun event hevent hat => @other_domain_of_array config newMap before map hasc
          hasc' hfit front front' todo todo' domain' old new hconfig hnew hsame harray event hevent hat
        rcases hrep.removeAll hnul hstays with ⟨hremoved, harrayRemoved⟩
        rcases hremoved.addAll domain' new.eventIds with ⟨hadded, harrayAdded⟩
        apply ih hconfig' hnew' hkeys
        · apply hadded.congr
          intro e d
          rw [lists_append, lists_cons, lists_cons]
          simp only [lists_nil, or_false]
          have hfrontNe : Lists front' e d → d ≠ domain' :=
            fun hd => ne_of_lt (hfront d (mem_keys_of_lists hd))
          have hbackNe : Lists todo e d → d ≠ domain' :=
            fun hd => ne_of_gt (hback d (mem_keys_of_lists hd))
          tauto
        · intro e he
          rcases harrayAdded e he with he | he
          · rcases harray e (harrayRemoved e he) with he | ⟨d, hd⟩
            · exact Or.inl he
            · exact Or.inr ⟨d, (lists_append _ _ _ _).mpr (Or.inl hd)⟩
          · refine Or.inr ⟨domain', (lists_append _ _ _ _).mpr (Or.inr ?_)⟩
            rw [lists_cons]
            exact Or.inl ⟨rfl, he⟩

/-! ## Runs -/

/-- The map that is built from a configuration. -/
theorem represents_rebuild (config : DomainEventMap) : Represents (rebuild config) (Lists config) := by
  have hbuild : ∀ (config : DomainEventMap) (map : EventDomainMap) (R : String → String → Prop),
      Represents map R → Represents (createReverseOfDomainEventMap config map)
        fun e d => R e d ∨ Lists config e d := by
    intro config
    induction config with
    | nil =>
      intro map R h
      apply h.congr
      intro e d
      simp
    | cons entry config ih =>
      intro map R h
      rcases entry with ⟨domain, sec⟩
      apply (ih _ _ (h.addAll domain sec.eventIds).1).congr
      intro e d
      rw [lists_cons, or_assoc]
  apply (hbuild config [] _ represents_nil).congr
  intro e d
  simp

/-- What is asked of an update: the same domains, and sections that fit. -/
def UpdateFits (handler : MessageHandler) (newMap : DomainEventMap) : Prop :=
  newMap.map Prod.fst = handler.m_jsonConfigDomainEventMap.map Prod.fst ∧
    SectionsFit handler.m_jsonEventDomainMap handler.m_jsonConfigDomainEventMap newMap

/-- The map follows the configuration. -/
structure Follows (handler : MessageHandler) : Prop where
  ascending : Ascending handler.m_jsonConfigDomainEventMap
  represents : Represents handler.m_jsonEventDomainMap (Lists handler.m_jsonConfigDomainEventMap)

theorem follows_start {config : DomainEventMap} (h : Ascending config) : Follows (start config) :=
  ⟨h, represents_rebuild config⟩

/-- One update. -/
theorem Follows.update {handler handler' : MessageHandler} {newMap : DomainEventMap}
    (h : Follows handler) (hfits : UpdateFits handler newMap)
    (hnext : handler.next newMap = some handler') : Follows handler' := by
  cases hnext
  rcases hfits with ⟨hkeys, hfit⟩
  have hasc : Ascending newMap := by
    have hold := h.ascending
    unfold Ascending at hold ⊢
    rw [hkeys]
    exact hold
  constructor
  · exact hasc
  · apply represents_updateDomains h.ascending hasc hfit (List.nil_append _).symm
      (List.nil_append _).symm hkeys
    · apply h.represents.congr
      intro e d
      simp
    · intro e he
      exact Or.inl he

theorem Follows.agrees {handler : MessageHandler} (h : Follows handler) : Agrees handler := by
  constructor
  · intro event domain
    rw [h.represents.related, (represents_rebuild _).related]
  · exact h.represents.subscribed_iff

end MessageHandler

end DeviceClient
