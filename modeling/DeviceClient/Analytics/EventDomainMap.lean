import DeviceClient.Lib.KeyedList
import Mathlib.Data.List.TakeWhile

/-!
# The domains of an event

The configuration lists the events of each domain; `CBaseMessageHandler` keeps the
reverse, the domains of each event. An event with one domain has a string for its
entry, and an array from the second on. What is left of an array without a domain is
a null, and the event is still a member of the map.

* `domainsAt_add`, `domainsAt_remove`: what one reference changes.
* `Represents`: the map and the relation between events and domains.
-/

namespace DeviceClient

/-- The entry of an event. -/
inductive DomainEntry where
  | null
  | domain (strDomain : String)
  | domains (strDomains : List String)
deriving DecidableEq, Repr

/-- The section of a domain in the configuration: an event, or an array of them. -/
inductive DomainSection where
  | event (strEventId : String)
  | events (strEventIds : List String)
deriving DecidableEq, Repr

/-- `m_jsonEventDomainMap`. -/
abbrev EventDomainMap := List (String × DomainEntry)

/-- `m_jsonConfigDomainEventMap`. -/
abbrev DomainEventMap := List (String × DomainSection)

namespace DomainEntry

/-- `asString`, which is not asked of an array. -/
def asString : DomainEntry → String
  | .null => ""
  | .domain strDomain => strDomain
  | .domains _ => ""

def strDomains : DomainEntry → List String
  | .null => []
  | .domain strDomain => [strDomain]
  | .domains strDomains => strDomains

def isArray : DomainEntry → Bool
  | .domains _ => true
  | _ => false

/-- An array that is built up by `append`, which is null until the first. -/
def ofList : List String → DomainEntry
  | [] => .null
  | strDomains => .domains strDomains

end DomainEntry

namespace DomainSection

def eventIds : DomainSection → List String
  | .event strEventId => [strEventId]
  | .events strEventIds => strEventIds

end DomainSection

namespace EventDomainMap

/-! ## References -/

/-- A domain is put behind those of an event. -/
def addReference (map : EventDomainMap) (strDomain strEventName : String) : EventDomainMap :=
  match map.lookup strEventName with
  | none => Lib.setKey strEventName (.domain strDomain) map
  | some (.domains strDomains) =>
    Lib.setKey strEventName (.domains (strDomains ++ [strDomain])) map
  | some entry => Lib.setKey strEventName (.domains [entry.asString, strDomain]) map

/-- `UpdateEventDomainMap`, when the map is built. -/
def updateEventDomainMap (rstrEventID rstrDomain : String) (map : EventDomainMap) :
    EventDomainMap :=
  addReference map rstrDomain rstrEventID

/-- `AddEventDomainReferenceToMap`, when the configuration changes. -/
def addEventDomainReferenceToMap (map : EventDomainMap) (rstrDomain rstrEventName : String) :
    EventDomainMap :=
  addReference map rstrDomain rstrEventName

/-- `removeMember`, whose overload for strings passes `c_str()` on. -/
def removeMember (map : EventDomainMap) (key : String) : EventDomainMap :=
  Lib.eraseKey (String.ofList (key.toList.takeWhile (· ≠ '\x00'))) map

/-- `RemoveEventDomainReferenceFromMap`. -/
def removeEventDomainReferenceFromMap (map : EventDomainMap) (rstrDomain rstrEventName : String) :
    EventDomainMap :=
  match map.lookup rstrEventName with
  | some (.domain strDomain) =>
    if strDomain = rstrDomain then map.removeMember rstrEventName else map
  | some (.domains jsonEventList) =>
    -- the entry stays, also when no domain does
    Lib.setKey rstrEventName (.ofList (jsonEventList.filter (· ≠ rstrDomain))) map
  | _ => map

/-- `IsHandlerSubscribedForEvent`. -/
def isHandlerSubscribedForEvent (map : EventDomainMap) (rstrEventID : String) : Bool :=
  (map.lookup rstrEventID).isSome

/-! ## Sections -/

def removeAll (map : EventDomainMap) (strDomain : String) (events : List String) :
    EventDomainMap :=
  events.foldl (fun map event => removeEventDomainReferenceFromMap map strDomain event) map

def addAll (map : EventDomainMap) (strDomain : String) (events : List String) : EventDomainMap :=
  events.foldl (fun map event => addEventDomainReferenceToMap map strDomain event) map

/-- `UpdateEventDomainMapForArrayType`. -/
def updateEventDomainMapForArrayType (map : EventDomainMap) (rstrDomain : String)
    (rjsonCurrDomainSec : List String) (rjsonNewDomainSec : DomainSection) : EventDomainMap :=
  match rjsonNewDomainSec with
  | .events strNewEIDs =>
    (map.removeAll rstrDomain rjsonCurrDomainSec).addAll rstrDomain strNewEIDs
  | .event strNewEID =>
    (map.removeAll rstrDomain rjsonCurrDomainSec).addEventDomainReferenceToMap rstrDomain strNewEID

/-- `UpdateEventDomainMapForStringType`. -/
def updateEventDomainMapForStringType (map : EventDomainMap) (rstrDomain : String)
    (strCurrEventName : String) (rjsonNewDomainSec : DomainSection) : EventDomainMap :=
  match rjsonNewDomainSec with
  | .events strNewEIDs =>
    (map.removeEventDomainReferenceFromMap rstrDomain strCurrEventName).addAll rstrDomain
      strNewEIDs
  | .event strNewEID =>
    (map.removeEventDomainReferenceFromMap rstrDomain
      strCurrEventName).addEventDomainReferenceToMap rstrDomain strNewEID

/-- The body of the loop over the domains of the configuration. -/
def updateDomain (rjsonNewDomainEventMap : DomainEventMap) (map : EventDomainMap)
    (strDomain : String) (jsonCurrDomainSec : DomainSection) : EventDomainMap :=
  match rjsonNewDomainEventMap.lookup strDomain with
  | none => map
  | some jsonNewDomainSec =>
    if jsonCurrDomainSec = jsonNewDomainSec then map
    else
      match jsonCurrDomainSec with
      | .events strEventIds =>
        map.updateEventDomainMapForArrayType strDomain strEventIds jsonNewDomainSec
      | .event strEventId =>
        map.updateEventDomainMapForStringType strDomain strEventId jsonNewDomainSec

/-- The loop. -/
def updateDomains (rjsonNewDomainEventMap : DomainEventMap) (map : EventDomainMap)
    (domains : DomainEventMap) : EventDomainMap :=
  domains.foldl (fun map sec =>
    updateDomain rjsonNewDomainEventMap map sec.1 sec.2) map

/-- `CreateReverseOfDomainEventMap`. -/
def createReverseOfDomainEventMap (domains : DomainEventMap) (map : EventDomainMap) :
    EventDomainMap :=
  domains.foldl (fun map sec =>
    sec.2.eventIds.foldl (fun map event => updateEventDomainMap event sec.1 map) map) map

/-! ## The domains of an event -/

def domainsAt (map : EventDomainMap) (event : String) : List String :=
  ((map.lookup event).map DomainEntry.strDomains).getD []

/-- The entry of the event is an array. -/
def ArrayAt (map : EventDomainMap) (event : String) : Prop :=
  ∃ entry, map.lookup event = some entry ∧ entry.isArray = true

/-- Every entry names a domain. -/
def Inhabited (map : EventDomainMap) : Prop :=
  ∀ event entry, map.lookup event = some entry → entry.strDomains ≠ []

theorem lookup_addReference (map : EventDomainMap) (d e k : String) :
    (map.addReference d e).lookup k =
      if k = e then
        some (match map.lookup e with
          | none => .domain d
          | some (.domains strDomains) => .domains (strDomains ++ [d])
          | some entry => .domains [entry.asString, d])
      else map.lookup k := by
  unfold addReference
  split <;> rw [Lib.lookup_setKey]

theorem domainsAt_add {map : EventDomainMap} (hinh : map.Inhabited) (d e k : String) :
    (map.addReference d e).domainsAt k =
      if k = e then map.domainsAt e ++ [d] else map.domainsAt k := by
  unfold domainsAt
  rw [lookup_addReference]
  by_cases hk : k = e
  · rw [if_pos hk, if_pos hk]
    cases hentry : map.lookup e with
    | none => rfl
    | some entry =>
      cases entry with
      | null => exact absurd rfl (hinh e .null hentry)
      | domain strDomain => rfl
      | domains strDomains => rfl
  · rw [if_neg hk, if_neg hk]

theorem inhabited_add {map : EventDomainMap} (hinh : map.Inhabited) (d e : String) :
    (map.addReference d e).Inhabited := by
  intro k entry hentry
  rw [lookup_addReference] at hentry
  by_cases hk : k = e
  · rw [if_pos hk] at hentry
    cases hentry
    split <;> simp [DomainEntry.strDomains]
  · rw [if_neg hk] at hentry
    exact hinh k entry hentry

theorem arrayAt_add {map : EventDomainMap} {d e k : String}
    (h : (map.addReference d e).ArrayAt k) : map.ArrayAt k ∨ k = e := by
  by_cases hk : k = e
  · exact Or.inr hk
  · left
    unfold ArrayAt at h ⊢
    rw [lookup_addReference, if_neg hk] at h
    exact h

/-- The name is the one that `removeMember` sees. -/
theorem cString_eq {name : String} (h : '\x00' ∉ name.toList) :
    String.ofList (name.toList.takeWhile (· ≠ '\x00')) = name := by
  have hall : name.toList.takeWhile (· ≠ '\x00') = name.toList := by
    rw [List.takeWhile_eq_self_iff]
    intro c hc
    simpa using fun hnul : c = '\x00' => h (hnul ▸ hc)
  rw [hall, String.ofList_toList]

theorem strDomains_ofList (strDomains : List String) :
    (DomainEntry.ofList strDomains).strDomains = strDomains := by
  cases strDomains <;> rfl

/-- The entries after a removal. -/
theorem lookup_remove {map : EventDomainMap} (d : String) {e : String}
    (hnul : '\x00' ∉ e.toList) (k : String) :
    (map.removeEventDomainReferenceFromMap d e).lookup k =
      if k = e then
        match map.lookup e with
        | some (.domain strDomain) => if strDomain = d then none else some (.domain strDomain)
        | some (.domains strDomains) => some (.ofList (strDomains.filter (· ≠ d)))
        | entry => entry
      else map.lookup k := by
  unfold removeEventDomainReferenceFromMap removeMember
  rw [cString_eq hnul]
  by_cases hk : k = e
  · rw [if_pos hk, hk]
    cases hentry : map.lookup e with
    | none => exact hentry
    | some entry =>
      -- a string goes with its domain, an array stays even when it is empty
      cases entry with
      | null => exact hentry
      | domain strDomain =>
        dsimp only
        by_cases hd : strDomain = d
        · rw [if_pos hd, if_pos hd, Lib.lookup_eraseKey, if_pos rfl]
        · rw [if_neg hd, if_neg hd, hentry]
      | domains strDomains =>
        dsimp only
        rw [Lib.lookup_setKey, if_pos rfl]
  · rw [if_neg hk]
    split
    · split
      · rw [Lib.lookup_eraseKey, if_neg hk]
      · rfl
    · rw [Lib.lookup_setKey, if_neg hk]
    · rfl

theorem domainsAt_remove {map : EventDomainMap} (d : String) {e : String}
    (hnul : '\x00' ∉ e.toList) (k : String) :
    (map.removeEventDomainReferenceFromMap d e).domainsAt k =
      if k = e then (map.domainsAt e).filter (· ≠ d) else map.domainsAt k := by
  unfold domainsAt
  rw [lookup_remove d hnul]
  by_cases hk : k = e
  · rw [if_pos hk, if_pos hk]
    cases hentry : map.lookup e with
    | none => rfl
    | some entry =>
      cases entry with
      | null => rfl
      | domain strDomain =>
        dsimp only
        by_cases hd : strDomain = d
        · rw [if_pos hd]
          simp [DomainEntry.strDomains, hd]
        · rw [if_neg hd]
          simp [DomainEntry.strDomains, hd]
      | domains strDomains =>
        exact strDomains_ofList (strDomains.filter (· ≠ d))
  · rw [if_neg hk, if_neg hk]

/-- An array that keeps a domain is no null. -/
theorem inhabited_remove {map : EventDomainMap} (hinh : map.Inhabited) {d e : String}
    (hnul : '\x00' ∉ e.toList)
    (hstays : map.ArrayAt e → ∃ d', d' ≠ d ∧ d' ∈ map.domainsAt e) :
    (map.removeEventDomainReferenceFromMap d e).Inhabited := by
  intro k entry hentry
  rw [lookup_remove d hnul] at hentry
  by_cases hk : k = e
  · rw [if_pos hk] at hentry
    split at hentry
    · split at hentry
      · cases hentry
      · cases hentry
        simp [DomainEntry.strDomains]
    · next strDomains hdomains =>
      cases hentry
      rcases hstays ⟨_, hdomains, rfl⟩ with ⟨d', hne, hd'⟩
      unfold domainsAt at hd'
      rw [hdomains] at hd'
      rw [strDomains_ofList]
      exact List.ne_nil_of_mem (List.mem_filter.mpr ⟨hd', by simpa using hne⟩)
    · exact hinh e entry hentry
  · rw [if_neg hk] at hentry
    exact hinh k entry hentry

theorem arrayAt_remove {map : EventDomainMap} {d e k : String} (hnul : '\x00' ∉ e.toList)
    (h : (map.removeEventDomainReferenceFromMap d e).ArrayAt k) : map.ArrayAt k := by
  rcases h with ⟨entry, hentry, harray⟩
  rw [lookup_remove d hnul] at hentry
  by_cases hk : k = e
  · rw [if_pos hk] at hentry
    split at hentry
    · split at hentry
      · cases hentry
      · cases hentry
        cases harray
    · next strDomains hdomains => exact ⟨_, hk ▸ hdomains, rfl⟩
    · exact ⟨entry, hk ▸ hentry, harray⟩
  · rw [if_neg hk] at hentry
    exact ⟨entry, hentry, harray⟩

end EventDomainMap

end DeviceClient
