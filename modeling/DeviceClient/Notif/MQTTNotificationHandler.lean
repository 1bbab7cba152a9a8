import DeviceClient.Lib.Run
import DeviceClient.Net.IgniteMQTTClient
import DeviceClient.Util.JsonRoundTrip
import Mathlib.Data.List.Infix
import Mathlib.Data.List.Nodup

/-!
# From the topic of a message to the service

`CMQTTNotificationHandler` finds the domain of a message that does not name one by the topic the
message came on. Its map has the part of each configured topic behind `2d`, and one key for all
topics with `/ro`; of a topic that comes in it takes what is behind the first `2d`.

* `getDomainFromTopic`, `handle`: the code.
* `lookup_of_new`: the map of a configuration.
* `hits_iff`: when the domain is the one of the service.
* `routesRight_of_clean`: so it is where the prefix and the device id have neither marker.
* `handle_iff`: the service that a message is handed to, after any others.
-/

namespace DeviceClient

/-- `m_jsonTopicDomainMap`. -/
abbrev TopicDomainMap := List (String × String)

namespace MQTTNotificationHandler

/-! ## Topics -/

/-- `TOPIC_RO`. -/
def topicRo : String := "/ro"

/-- `rstrTopic.find(TOPIC_RO) != npos`. -/
def HasRo (rstrTopic : String) : Prop := topicRo.toList <:+: rstrTopic.toList

instance : DecidablePred HasRo := fun _ => inferInstanceAs (Decidable (_ <:+: _))

/-- `find`, assigned to an `int`. -/
def find (str pattern : String) : ℤ :=
  match str.toList.tails.findIdx? fun rest => pattern.toList.isPrefixOf rest with
  | some nPos => nPos
  | none => -1

/-- `substr`; it throws behind the end. -/
def substr (str : String) (pos : ℕ) : Option String :=
  if pos ≤ str.toList.length then some (String.ofList (str.toList.drop pos)) else none

/-- `UpdateTopicDomainMap`, of the member `sub` if there is one. -/
def updateTopicDomainMap (map : TopicDomainMap) (sub : Option String) (rstrServiceName : String) :
    Option TopicDomainMap :=
  match sub with
  | none => some map
  | some strSub =>
    if HasRo strSub then some (Lib.setKey topicRo rstrServiceName map)
    else if strSub ≠ "" then
      (substr strSub 2).map fun strSubTopic =>
        if strSubTopic ≠ "" then Lib.setKey strSubTopic rstrServiceName map else map
    else some map

/-- The constructor, of `MQTT.servicesTopic`. -/
def new (jsonTopicArray : List ServiceTopic) : Option TopicDomainMap :=
  jsonTopicArray.foldlM
    (fun map service => updateTopicDomainMap map (some service.sub) service.serviceName) []

/-- What `GetDomainFromTopic` looks for where there is no `/ro`. -/
def subTopic (rstrTopic : String) : Option String :=
  substr rstrTopic (find rstrTopic "2d" + 2).toNat

/-- `GetDomainFromTopic`, with the map afterwards: the non-constant `operator[]` makes the member
that is not there, with the text of null. -/
def getDomainFromTopic (map : TopicDomainMap) (rstrTopic : String) :
    Option (String × TopicDomainMap) :=
  if HasRo rstrTopic then some ((map.lookup topicRo).getD "", Lib.insertKey topicRo "" map)
  else (subTopic rstrTopic).map fun strSubTopic => ((map.lookup strSubTopic).getD "", map)

/-! ## Messages -/

variable (dbl : DoubleText)

/-- `isMember` with the member; it throws on a value that is neither an object nor null. -/
def member (key : String) : JsonValue → Option (Option JsonValue)
  | .null => some none
  | .object members => some (members.lookup key)
  | _ => none

/-- The part behind the validation: the domain, and what `HandleNotification` gets. -/
def dispatch (map : TopicDomainMap) (jsonReq jsonMqReq : JsonValue) :
    Option (TopicDomainMap × Option (String × JsonValue)) :=
  (member "domain" jsonMqReq).bind fun domain =>
    ((domain.getD .null).asString dbl.valueToString).bind fun strDomain =>
      if strDomain ≠ "" then some (map, some (strDomain, jsonMqReq))
      else (member "topic" jsonReq).bind fun topic =>
        match topic with
        | none => some (map, none)
        | some topic =>
          (topic.asString dbl.valueToString).bind fun strTopic =>
            (getDomainFromTopic map strTopic).map fun (strDomain, map) =>
              (map, if strDomain = "" then none else some (strDomain, jsonMqReq))

/-- `Handle`. -/
def handle (map : TopicDomainMap) (cstrRequestJson : String) :
    Option (TopicDomainMap × Option (String × JsonValue)) :=
  match JsonText.parse dbl cstrRequestJson with
  | .error _ => some (map, none)
  | .ok jsonReq =>
    (member "message" jsonReq).bind fun message =>
      match message with
      | none => some (map, none)
      | some message =>
        (message.asString dbl.valueToString).bind fun strMessage =>
          match JsonText.parse dbl strMessage with
          | .error _ => some (map, none)
          | .ok jsonMqReq =>
            if !jsonMqReq.isObject && !jsonMqReq.isArray then some (map, none)
            else dispatch dbl map jsonReq jsonMqReq

/-- A message is handled. -/
def next (map : TopicDomainMap) (cstrRequestJson : String) : Option TopicDomainMap :=
  (handle dbl map cstrRequestJson).map Prod.fst

/-! ## The map of a configuration -/

/-- All configured topics start with `2d`. -/
def Marked (services : List ServiceTopic) : Prop :=
  ∀ service ∈ services, ∃ k, service.sub = "2d" ++ k

/-- The key of a configured topic. -/
def routeKey (strSub : String) : Option String :=
  if HasRo strSub then some topicRo
  else if String.ofList (strSub.toList.drop 2) ≠ "" then some (String.ofList (strSub.toList.drop 2))
  else none

theorem hasRo_append (k : String) : HasRo ("2d" ++ k) ↔ HasRo k := by
  unfold HasRo
  rw [String.toList_append]
  show ['/', 'r', 'o'] <:+: '2' :: 'd' :: k.toList ↔ ['/', 'r', 'o'] <:+: k.toList
  rw [List.infix_cons_iff, List.infix_cons_iff]
  simp

theorem routeKey_append (k : String) :
    routeKey ("2d" ++ k) = if HasRo k then some topicRo else if k ≠ "" then some k else none := by
  have hdrop : String.ofList (("2d" ++ k).toList.drop 2) = k := by
    rw [String.toList_append]
    exact String.ofList_toList
  unfold routeKey
  rw [hdrop]
  simp only [hasRo_append]

theorem updateTopicDomainMap_eq (map : TopicDomainMap) (k rstrServiceName : String) :
    updateTopicDomainMap map (some ("2d" ++ k)) rstrServiceName =
      some (match routeKey ("2d" ++ k) with
        | some key => Lib.setKey key rstrServiceName map
        | none => map) := by
  have hne : "2d" ++ k ≠ "" := by
    intro h
    have hlist := congrArg String.toList h
    rw [String.toList_append] at hlist
    cases hlist
  have hsubstr : substr ("2d" ++ k) 2 = some k := by
    unfold substr
    rw [String.toList_append]
    show (if 2 ≤ k.toList.length + 1 + 1 then some (String.ofList k.toList) else none) = some k
    rw [if_pos (by omega), String.ofList_toList]
  rw [routeKey_append]
  unfold updateTopicDomainMap
  dsimp only
  rw [hsubstr, if_pos hne]
  simp only [hasRo_append]
  by_cases hro : HasRo k
  · rw [if_pos hro, if_pos hro]
  · rw [if_neg hro, if_neg hro]
    by_cases hk : k = ""
    · simp [hk]
    · simp [hk]

/-- The last service of a key. -/
def lastOf (services : List ServiceTopic) (key : String) : Option ServiceTopic :=
  (services.filter fun service => routeKey service.sub = some key).getLast?

theorem lastOf_cons (service : ServiceTopic) (rest : List ServiceTopic) (key : String) :
    lastOf (service :: rest) key =
      (lastOf rest key).or (if routeKey service.sub = some key then some service else none) := by
  unfold lastOf
  rw [List.filter_cons]
  by_cases hkey : routeKey service.sub = some key
  · rw [if_pos (by simpa using hkey), if_pos hkey, List.getLast?_cons]
    cases (rest.filter fun service => routeKey service.sub = some key).getLast? with
    | none => rfl
    | some last => rfl
  · rw [if_neg (by simpa using hkey), if_neg hkey, Option.or_none]

/-- The services are entered in order, the later over the earlier. -/
theorem foldlM_update {services : List ServiceTopic} (hmarked : Marked services)
    (map : TopicDomainMap) :
    ∃ map', services.foldlM (fun map service =>
        updateTopicDomainMap map (some service.sub) service.serviceName) map = some map' ∧
      ∀ key, map'.lookup key = ((lastOf services key).map ServiceTopic.serviceName).or
        (map.lookup key) := by
  induction services generalizing map with
  | nil => exact ⟨map, rfl, fun key => rfl⟩
  | cons service rest ih =>
    rcases hmarked service List.mem_cons_self with ⟨k, hsub⟩
    have hrest : Marked rest := fun other hother => hmarked other (List.mem_cons_of_mem _ hother)
    rw [List.foldlM_cons, hsub, updateTopicDomainMap_eq]
    rcases ih hrest _ with ⟨map', hfold, hlookup⟩
    refine ⟨map', hfold, fun key => ?_⟩
    rw [hlookup key, lastOf_cons, hsub]
    -- a later service of the same key has written over this one
    cases lastOf rest key with
    | some last => rfl
    | none =>
      cases hkey : routeKey ("2d" ++ k) with
      | none => simp
      | some other =>
        rw [Lib.lookup_setKey]
        by_cases heq : key = other
        · simp [heq]
        · have hne : ¬ other = key := fun h => heq h.symm
          simp [heq, hne]

theorem lookup_of_new {services : List ServiceTopic} (hmarked : Marked services) :
    ∃ map, new services = some map ∧
      ∀ key, map.lookup key = (lastOf services key).map ServiceTopic.serviceName := by
  rcases foldlM_update hmarked [] with ⟨map, hnew, hlookup⟩
  refine ⟨map, hnew, fun key => (hlookup key).trans ?_⟩
  rw [List.lookup_nil, Option.or_none]

/-- The last service with `/ro` in its topic. -/
def lastRo (services : List ServiceTopic) : Option ServiceTopic :=
  (services.filter fun service => HasRo service.sub).getLast?

theorem routeKey_ro (k : String) : routeKey ("2d" ++ k) = some topicRo ↔ HasRo ("2d" ++ k) := by
  rw [routeKey_append, hasRo_append]
  constructor
  · intro hkey
    by_contra hro
    rw [if_neg hro] at hkey
    split_ifs at hkey
    rw [Option.some.inj hkey] at hro
    exact hro (List.infix_refl _)
  · exact fun hro => if_pos hro

theorem lastOf_ro {services : List ServiceTopic} (hmarked : Marked services) :
    lastOf services topicRo = lastRo services := by
  unfold lastOf lastRo
  congr 1
  refine List.filter_congr fun service hservice => ?_
  rcases hmarked service hservice with ⟨k, hsub⟩
  rw [hsub, decide_eq_decide]
  exact routeKey_ro k

theorem routeKey_eq_some_iff {k : String} (hro : ¬ HasRo k) (j : String) :
    routeKey ("2d" ++ j) = some k ↔ j = k ∧ k ≠ "" := by
  rw [routeKey_append]
  constructor
  · intro hkey
    split_ifs at hkey with hj hne
    · rw [← Option.some.inj hkey] at hro
      exact absurd (List.infix_refl _) hro
    · have heq : j = k := Option.some.inj hkey
      exact ⟨heq, heq ▸ hne⟩
  · rintro ⟨rfl, hne⟩
    rw [if_neg hro, if_pos hne]

/-- Without `/ro` the key has one service at most. -/
theorem lastOf_eq_some_iff {services : List ServiceTopic} (hmarked : Marked services)
    (hnodup : (services.map ServiceTopic.sub).Nodup) {k : String} (hro : ¬ HasRo k)
    {service : ServiceTopic} :
    lastOf services k = some service ↔ service ∈ services ∧ service.sub = "2d" ++ k ∧ k ≠ "" := by
  have hmem : ∀ other, other ∈ services.filter (fun service => routeKey service.sub = some k) ↔
      other ∈ services ∧ other.sub = "2d" ++ k ∧ k ≠ "" := by
    intro other
    rw [List.mem_filter, decide_eq_true_iff]
    constructor
    · rintro ⟨hother, hkey⟩
      rcases hmarked other hother with ⟨j, hsub⟩
      rw [hsub, routeKey_eq_some_iff hro] at hkey
      exact ⟨hother, hkey.1 ▸ hsub, hkey.2⟩
    · rintro ⟨hother, hsub, hne⟩
      rw [hsub]
      exact ⟨hother, (routeKey_eq_some_iff hro k).2 ⟨rfl, hne⟩⟩
  constructor
  · exact fun hlast => (hmem service).1 (List.mem_of_getLast? hlast)
  · intro hservice
    have hin := (hmem service).2 hservice
    unfold lastOf
    cases hlast : (services.filter fun service => routeKey service.sub = some k).getLast? with
    | none =>
      rw [List.getLast?_eq_none_iff] at hlast
      rw [hlast] at hin
      cases hin
    | some last =>
      have hother := (hmem last).1 (List.mem_of_getLast? hlast)
      have heq : last = service :=
        List.inj_on_of_nodup_map hnodup hother.1 hservice.1 (hother.2.1.trans hservice.2.1.symm)
      rw [heq]

/-! ## The domain of a topic -/

theorem hasRo_of_subTopic {rstrTopic k : String} (hk : subTopic rstrTopic = some k)
    (hro : HasRo k) : HasRo rstrTopic := by
  unfold subTopic substr at hk
  split_ifs at hk
  cases hk
  unfold HasRo at hro
  rw [String.toList_ofList] at hro
  exact hro.trans (List.drop_suffix _ _).isInfix

theorem subTopic_isSome {rstrTopic : String} (hne : rstrTopic.toList ≠ []) :
    ∃ k, subTopic rstrTopic = some k := by
  unfold subTopic substr
  refine ⟨_, if_pos ?_⟩
  unfold find
  cases hfind : rstrTopic.toList.tails.findIdx? fun rest => "2d".toList.isPrefixOf rest with
  | none =>
    have hlength := List.length_pos_iff.2 hne
    -- there is no marker: `npos + 2` wraps to 1, and that needs one character
    show (-1 + 2 : ℤ).toNat ≤ _
    exact hlength
  | some n =>
    rw [List.findIdx?_eq_some_iff_getElem] at hfind
    rcases hfind with ⟨hn, hpre, _⟩
    rw [List.getElem_tails, List.isPrefixOf_iff_prefix] at hpre
    have hlength : 2 ≤ _ := hpre.length_le
    rw [List.length_drop] at hlength
    show ((n : ℤ) + 2).toNat ≤ _
    omega

/-- The domain that the services give a topic. -/
def domainOf (services : List ServiceTopic) (rstrTopic : String) : String :=
  if HasRo rstrTopic then ((lastRo services).map ServiceTopic.serviceName).getD ""
  else (((subTopic rstrTopic).bind (lastOf services)).map ServiceTopic.serviceName).getD ""

/-- Two maps that nobody can tell apart. -/
def Same (map map' : TopicDomainMap) : Prop :=
  ∀ key, (map.lookup key).getD "" = (map'.lookup key).getD ""

theorem same_insert (map : TopicDomainMap) : Same (Lib.insertKey topicRo "" map) map := by
  intro key
  rw [Lib.lookup_insertKey]
  by_cases hkey : key = topicRo
  · rw [if_pos hkey, hkey]
    rfl
  · rw [if_neg hkey]

theorem getDomainFromTopic_eq {services : List ServiceTopic} (hmarked : Marked services)
    {map map' : TopicDomainMap} (hnew : new services = some map') (hsame : Same map map')
    {rstrTopic : String} (hne : rstrTopic.toList ≠ []) :
    ∃ after, getDomainFromTopic map rstrTopic = some (domainOf services rstrTopic, after) ∧
      Same after map' := by
  rcases lookup_of_new hmarked with ⟨_, hnew', hlookup⟩
  cases hnew.symm.trans hnew'
  unfold getDomainFromTopic domainOf
  by_cases hro : HasRo rstrTopic
  · rw [if_pos hro, if_pos hro]
    refine ⟨Lib.insertKey topicRo "" map, ?_, fun key => (same_insert map key).trans (hsame key)⟩
    rw [hsame, hlookup, lastOf_ro hmarked]
  · rw [if_neg hro, if_neg hro]
    rcases subTopic_isSome hne with ⟨k, hk⟩
    refine ⟨map, ?_, hsame⟩
    rw [hk, Option.map_some, hsame, hlookup]
    rfl

/-! ## The right service -/

/-- What a message on the prefix, the device id, a slash and `rest` is to be handed to. -/
def intended (services : List ServiceTopic) (rest : String) : Option ServiceTopic :=
  services.find? fun service => service.sub = rest

/-- The topic leads to the service of `rest`, and to none if there is no such service. -/
structure RoutesRight (services : List ServiceTopic) (rstrTopic rest : String) : Prop where
  /-- The service has a name; with `/ro` in the topic the last service with `/ro` has that name,
  without it a service with what is behind the first `2d` has. -/
  configured : ∀ service ∈ services, service.sub = rest → service.serviceName ≠ "" ∧
    if HasRo rstrTopic then
      ∃ last, lastRo services = some last ∧ last.serviceName = service.serviceName
    else ∃ other ∈ services, other.serviceName = service.serviceName ∧
      ∃ k, subTopic rstrTopic = some k ∧ k ≠ "" ∧ other.sub = "2d" ++ k
  /-- With `/ro` in the topic no service with a name has it, without it no service with a name has
  what is behind the first `2d`. -/
  other : (∀ service ∈ services, service.sub ≠ rest) →
    if HasRo rstrTopic then ∀ last, lastRo services = some last → last.serviceName = ""
    else ∀ other ∈ services, ∀ k, subTopic rstrTopic = some k → k ≠ "" →
      other.sub = "2d" ++ k → other.serviceName = ""

/-- The domain is the name of the service, where there is one, and empty where there is none. -/
def Hits (intended : Option ServiceTopic) (strDomain : String) : Prop :=
  match intended with
  | some service => strDomain = service.serviceName ∧ service.serviceName ≠ ""
  | none => strDomain = ""

theorem getD_eq_iff {o : Option ServiceTopic} {name : String} (hname : name ≠ "") :
    (o.map ServiceTopic.serviceName).getD "" = name ↔
      ∃ service, o = some service ∧ service.serviceName = name := by
  cases o with
  | none => simp [hname.symm]
  | some service => simp

theorem getD_eq_empty_iff {o : Option ServiceTopic} :
    (o.map ServiceTopic.serviceName).getD "" = "" ↔
      ∀ service, o = some service → service.serviceName = "" := by
  cases o with
  | none => simp
  | some service => simp

/-- The domain is a given name. -/
theorem domainOf_eq_iff {services : List ServiceTopic} (hmarked : Marked services)
    (hnodup : (services.map ServiceTopic.sub).Nodup) {rstrTopic name : String} (hname : name ≠ "") :
    domainOf services rstrTopic = name ↔
      if HasRo rstrTopic then ∃ last, lastRo services = some last ∧ last.serviceName = name
      else ∃ other ∈ services, other.serviceName = name ∧
        ∃ k, subTopic rstrTopic = some k ∧ k ≠ "" ∧ other.sub = "2d" ++ k := by
  unfold domainOf
  split_ifs with hro
  · exact getD_eq_iff hname
  · rw [getD_eq_iff hname]
    constructor
    · rintro ⟨other, hlast, hother⟩
      rw [Option.bind_eq_some_iff] at hlast
      rcases hlast with ⟨k, hk, hlast⟩
      have hkro : ¬ HasRo k := fun h => hro (hasRo_of_subTopic hk h)
      rcases (lastOf_eq_some_iff hmarked hnodup hkro).1 hlast with ⟨hmem, hsub, hne⟩
      exact ⟨other, hmem, hother, k, hk, hne, hsub⟩
    · rintro ⟨other, hmem, hother, k, hk, hne, hsub⟩
      have hkro : ¬ HasRo k := fun h => hro (hasRo_of_subTopic hk h)
      refine ⟨other, ?_, hother⟩
      rw [hk]
      exact (lastOf_eq_some_iff hmarked hnodup hkro).2 ⟨hmem, hsub, hne⟩

/-- The domain is empty. -/
theorem domainOf_eq_empty_iff {services : List ServiceTopic} (hmarked : Marked services)
    (hnodup : (services.map ServiceTopic.sub).Nodup) {rstrTopic : String} :
    domainOf services rstrTopic = "" ↔
      if HasRo rstrTopic then ∀ last, lastRo services = some last → last.serviceName = ""
      else ∀ other ∈ services, ∀ k, subTopic rstrTopic = some k → k ≠ "" →
        other.sub = "2d" ++ k → other.serviceName = "" := by
  unfold domainOf
  split_ifs with hro
  · exact getD_eq_empty_iff
  · rw [getD_eq_empty_iff]
    constructor
    · intro hall other hmem k hk hne hsub
      have hkro : ¬ HasRo k := fun h => hro (hasRo_of_subTopic hk h)
      refine hall other ?_
      rw [hk]
      exact (lastOf_eq_some_iff hmarked hnodup hkro).2 ⟨hmem, hsub, hne⟩
    · intro hall other hlast
      rw [Option.bind_eq_some_iff] at hlast
      rcases hlast with ⟨k, hk, hlast⟩
      have hkro : ¬ HasRo k := fun h => hro (hasRo_of_subTopic hk h)
      rcases (lastOf_eq_some_iff hmarked hnodup hkro).1 hlast with ⟨hmem, hsub, hne⟩
      exact hall other hmem k hk hne hsub

theorem hits_iff {services : List ServiceTopic} (hmarked : Marked services)
    (hnodup : (services.map ServiceTopic.sub).Nodup) (rstrTopic rest : String) :
    Hits (intended services rest) (domainOf services rstrTopic) ↔
      RoutesRight services rstrTopic rest := by
  cases hfind : intended services rest with
  | some service =>
    have hmem : service ∈ services := List.mem_of_find?_eq_some hfind
    have hsub : service.sub = rest := by simpa using List.find?_some hfind
    show domainOf services rstrTopic = service.serviceName ∧ service.serviceName ≠ "" ↔ _
    constructor
    · rintro ⟨hdomain, hname⟩
      refine ⟨fun other hother hrest => ?_, fun hnone => absurd hsub (hnone service hmem)⟩
      have heq : other = service :=
        List.inj_on_of_nodup_map hnodup hother hmem (hrest.trans hsub.symm)
      subst heq
      exact ⟨hname, (domainOf_eq_iff hmarked hnodup hname).1 hdomain⟩
    · intro hright
      rcases hright.configured service hmem hsub with ⟨hname, hroute⟩
      exact ⟨(domainOf_eq_iff hmarked hnodup hname).2 hroute, hname⟩
  | none =>
    have hnone : ∀ service ∈ services, service.sub ≠ rest := by
      simpa [intended, List.find?_eq_none] using hfind
    show domainOf services rstrTopic = "" ↔ _
    rw [domainOf_eq_empty_iff hmarked hnodup]
    exact ⟨fun hall => ⟨fun service hmem hsub => absurd hsub (hnone service hmem), fun _ => hall⟩,
      fun hright => hright.other hnone⟩

/-! ## Where no marker comes before the configured topic -/

theorem toList_append_marker (before k : String) :
    (before ++ ("2d" ++ k)).toList = before.toList ++ '2' :: 'd' :: k.toList := by
  rw [String.toList_append, String.toList_append]
  rfl

/-- A text with a slash at its end and without `2d`, before the marker. -/
theorem find_append {before : String} (hslash : before.toList.getLast? = some '/')
    (hclean : ¬ "2d".toList <:+: before.toList) (k : String) :
    find (before ++ ("2d" ++ k)) "2d" = before.toList.length := by
  have hfirst : (before ++ ("2d" ++ k)).toList.tails.findIdx?
      (fun rest => "2d".toList.isPrefixOf rest) = some before.toList.length := by
    rw [toList_append_marker, List.findIdx?_eq_some_iff_getElem]
    refine ⟨by simp; omega, ?_, fun j hj => ?_⟩
    · rw [List.getElem_tails, List.drop_left, List.isPrefixOf_iff_prefix]
      exact ⟨k.toList, rfl⟩
    · rw [List.getElem_tails, List.isPrefixOf_iff_prefix,
        List.drop_append_of_le_length (Nat.le_of_lt hj)]
      show ¬ ['2', 'd'] <+: before.toList.drop j ++ '2' :: 'd' :: k.toList
      -- the rest of the text in front has the slash, or two characters
      cases hdrop : before.toList.drop j with
      | nil =>
        have hlength := congrArg List.length hdrop
        rw [List.length_drop, List.length_nil] at hlength
        omega
      | cons c rest =>
        have hlast : (c :: rest).getLast? = some '/' := by
          rw [← hdrop, List.getLast?_drop, if_neg (by omega), hslash]
        cases rest with
        | nil =>
          have hc : c = '/' := by simpa using hlast
          rw [hc]
          intro hpre
          exact absurd (List.cons_prefix_cons.1 hpre).1 (by decide)
        | cons d rest =>
          intro hpre
          rw [List.cons_append, List.cons_append, List.cons_prefix_cons,
            List.cons_prefix_cons] at hpre
          rcases hpre with ⟨rfl, rfl, _⟩
          refine hclean ?_
          have hsuffix : '2' :: 'd' :: rest <:+ before.toList := hdrop ▸ List.drop_suffix j _
          exact List.IsInfix.trans ⟨[], rest, rfl⟩ hsuffix.isInfix
  unfold find
  rw [hfirst]

theorem subTopic_append {before : String} (hslash : before.toList.getLast? = some '/')
    (hclean : ¬ "2d".toList <:+: before.toList) (k : String) :
    subTopic (before ++ ("2d" ++ k)) = some k := by
  unfold subTopic substr
  have hpos : (find (before ++ ("2d" ++ k)) "2d" + 2).toNat = before.toList.length + 2 := by
    rw [find_append hslash hclean]
    rfl
  rw [hpos, toList_append_marker, if_pos (by simp)]
  have hdrop : (before.toList ++ '2' :: 'd' :: k.toList).drop (before.toList.length + 2) =
      k.toList := by
    rw [← List.drop_drop, List.drop_left]
    rfl
  rw [hdrop, String.ofList_toList]

theorem hasRo_append_iff {before : String} (k : String) :
    HasRo (before ++ ("2d" ++ k)) ↔ HasRo before ∨ HasRo k := by
  rw [← hasRo_append k]
  unfold HasRo
  rw [String.toList_append (s := before), List.infix_append_iff]
  constructor
  · rintro (hbefore | hk | ⟨front, back, hsplit, hfront, hback⟩)
    · exact Or.inl hbefore
    · exact Or.inr hk
    · -- what stands behind the marker's first character has none of `/ro`
      cases back with
      | nil =>
        rw [List.append_nil] at hsplit
        exact Or.inl (hsplit ▸ hfront.isInfix)
      | cons c back =>
        have hc : c = '2' := by
          rw [String.toList_append] at hback
          exact (List.cons_prefix_cons.1 hback).1
        have hmem : c ∈ topicRo.toList := by
          rw [hsplit]
          simp
        rw [hc] at hmem
        exact absurd hmem (by decide)
  · rintro (hbefore | hk)
    · exact Or.inl hbefore
    · exact Or.inr (Or.inl hk)

/-- With neither marker in the prefix and the device id, a topic with more than `2d` and without
`/ro` leads to its service. -/
theorem routesRight_of_clean {services : List ServiceTopic}
    (hnodup : (services.map ServiceTopic.sub).Nodup) {before : String}
    (hslash : before.toList.getLast? = some '/') (hro : ¬ HasRo before)
    (hclean : ¬ "2d".toList <:+: before.toList) (service : ServiceTopic)
    (hmem : service ∈ services) {k : String} (hsub : service.sub = "2d" ++ k) (hk : k ≠ "")
    (hkro : ¬ HasRo k) (hname : service.serviceName ≠ "") :
    RoutesRight services (before ++ service.sub) service.sub := by
  refine ⟨fun other hother heq => ?_, fun hnone => absurd rfl (hnone service hmem)⟩
  have hsame : other = service := List.inj_on_of_nodup_map hnodup hother hmem heq
  subst hsame
  have hplain : ¬ HasRo (before ++ other.sub) := by
    rw [hsub, hasRo_append_iff]
    exact fun h => h.elim hro hkro
  rw [if_neg hplain]
  refine ⟨hname, other, hmem, rfl, k, ?_, hk, hsub⟩
  rw [hsub]
  exact subTopic_append hslash hclean k

/-! ## Messages -/

theorem same_of_getDomainFromTopic {map after : TopicDomainMap} {rstrTopic strDomain : String}
    (hget : getDomainFromTopic map rstrTopic = some (strDomain, after)) : Same after map := by
  unfold getDomainFromTopic at hget
  split_ifs at hget
  · cases hget
    exact same_insert map
  · rw [Option.map_eq_some_iff] at hget
    rcases hget with ⟨k, _, hk⟩
    cases hk
    exact fun _ => rfl

theorem same_of_dispatch {map after : TopicDomainMap} {jsonReq jsonMqReq : JsonValue}
    {handed : Option (String × JsonValue)}
    (hdispatch : dispatch dbl map jsonReq jsonMqReq = some (after, handed)) : Same after map := by
  unfold dispatch at hdispatch
  rw [Option.bind_eq_some_iff] at hdispatch
  rcases hdispatch with ⟨domain, _, hdispatch⟩
  rw [Option.bind_eq_some_iff] at hdispatch
  rcases hdispatch with ⟨strDomain, _, hdispatch⟩
  split_ifs at hdispatch
  · cases hdispatch
    exact fun _ => rfl
  · rw [Option.bind_eq_some_iff] at hdispatch
    rcases hdispatch with ⟨topic, _, hdispatch⟩
    cases topic with
    | none =>
      cases hdispatch
      exact fun _ => rfl
    | some topic =>
      dsimp only at hdispatch
      rw [Option.bind_eq_some_iff] at hdispatch
      rcases hdispatch with ⟨strTopic, _, hdispatch⟩
      rw [Option.map_eq_some_iff] at hdispatch
      rcases hdispatch with ⟨⟨found, map'⟩, hget, hpair⟩
      cases hpair
      exact same_of_getDomainFromTopic hget

/-- A message changes nothing that the handler looks up. -/
theorem same_of_next {map after : TopicDomainMap} {cstrRequestJson : String}
    (hnext : next dbl map cstrRequestJson = some after) : Same after map := by
  unfold next at hnext
  rw [Option.map_eq_some_iff] at hnext
  rcases hnext with ⟨⟨_, handed⟩, hhandle, rfl⟩
  unfold handle at hhandle
  split at hhandle
  · cases hhandle
    exact fun _ => rfl
  · rw [Option.bind_eq_some_iff] at hhandle
    rcases hhandle with ⟨message, _, hhandle⟩
    cases message with
    | none =>
      cases hhandle
      exact fun _ => rfl
    | some message =>
      dsimp only at hhandle
      rw [Option.bind_eq_some_iff] at hhandle
      rcases hhandle with ⟨strMessage, _, hhandle⟩
      split at hhandle
      · cases hhandle
        exact fun _ => rfl
      · split_ifs at hhandle
        · cases hhandle
          exact fun _ => rfl
        · exact same_of_dispatch dbl hhandle

theorem same_of_exec {map after : TopicDomainMap} {earlier : List String}
    (hrun : Lib.exec (next dbl) map earlier = some after) : Same after map := by
  refine Lib.exec_inv_all (P := fun m => Same m map) ?_ (fun _ => rfl) hrun
  exact fun m _ m' hm hnext key => (same_of_next dbl hnext key).trans (hm key)

/-- What is handed on, of a domain. -/
def handed (strDomain : String) (jsonMqReq : JsonValue) : Option (String × JsonValue) :=
  if strDomain = "" then none else some (strDomain, jsonMqReq)

/-- A message without a domain, after any others. -/
theorem handle_eq {services : List ServiceTopic} (hmarked : Marked services)
    {map : TopicDomainMap} {earlier : List String}
    (hrun : ((new services).bind fun map => Lib.exec (next dbl) map earlier) = some map)
    {rstrTopic cstrRequestJson strMessage : String} (hne : rstrTopic.toList ≠ [])
    {members payload : List (String × JsonValue)}
    (hrequest : JsonText.parse dbl cstrRequestJson = .ok (.object members))
    (htopic : members.lookup "topic" = some (.string rstrTopic))
    (hmessage : members.lookup "message" = some (.string strMessage))
    (hpayload : JsonText.parse dbl strMessage = .ok (.object payload))
    (hdomain : payload.lookup "domain" = none) :
    (handle dbl map cstrRequestJson).map Prod.snd =
      some (handed (domainOf services rstrTopic) (.object payload)) := by
  rw [Option.bind_eq_some_iff] at hrun
  rcases hrun with ⟨map', hnew, hrun⟩
  rcases getDomainFromTopic_eq hmarked hnew (same_of_exec dbl hrun) hne with ⟨after, hget, _⟩
  unfold handle
  rw [hrequest]
  dsimp only [member]
  rw [Option.bind_some, hmessage]
  dsimp only [JsonValue.asString]
  rw [Option.bind_some, hpayload]
  show (dispatch dbl map _ _).map Prod.snd = _
  unfold dispatch
  dsimp only [member]
  rw [hdomain, Option.bind_some, htopic]
  show ((getDomainFromTopic map _).map _).map Prod.snd = _
  rw [hget]
  rfl

theorem handed_eq_iff (intended : Option ServiceTopic) (strDomain : String)
    (jsonMqReq : JsonValue) :
    handed strDomain jsonMqReq =
        intended.map (fun service => (service.serviceName, jsonMqReq)) ↔
      Hits intended strDomain := by
  unfold handed
  cases intended with
  | none =>
    show _ ↔ strDomain = ""
    simp
  | some service =>
    show _ ↔ strDomain = service.serviceName ∧ service.serviceName ≠ ""
    by_cases hempty : strDomain = ""
    · rw [if_pos hempty, hempty]
      exact iff_of_false nofun fun h => h.2 h.1.symm
    · rw [if_neg hempty]
      constructor
      · intro h
        have hname : strDomain = service.serviceName := congrArg Prod.fst (Option.some.inj h)
        exact ⟨hname, fun hzero => hempty (hname.trans hzero)⟩
      · intro h
        rw [h.1]
        rfl

theorem topic_ne_nil (strTopicPrefix strDeviceId rest : String) :
    (strTopicPrefix ++ strDeviceId ++ "/" ++ rest).toList ≠ [] := by
  simp [String.toList_append]

/-! ## The texts of a message -/

/-- The request that `OnMessageReceived` writes. -/
def notification (rstrTopic rstrPayload : String) : JsonValue :=
  .object [("message", .string rstrPayload), ("topic", .string rstrTopic),
    ("type", .string "MQTT_CONFIG_REQUEST")]

theorem parse_notification (rstrTopic rstrPayload : String) :
    JsonText.parse dbl (JsonText.write dbl (notification rstrTopic rstrPayload)) =
      .ok (notification rstrTopic rstrPayload) := by
  apply JsonText.parse_write dbl
  refine ⟨?_, ?_⟩
  · show (["message", "topic", "type"] : List String).Pairwise (· < ·)
    decide
  · intro m hm
    simp only [List.mem_cons, List.not_mem_nil, or_false] at hm
    rcases hm with rfl | rfl | rfl
    · trivial
    · trivial
    · trivial

/-- A message with a version only. -/
def versionOnly : JsonValue := .object [("version", .string "1.0")]

theorem parse_versionOnly :
    JsonText.parse dbl (JsonText.write dbl versionOnly) = .ok versionOnly := by
  have hobject : JsonText.Representable dbl (JsonText.stackLimit - 1 + 1) versionOnly :=
    ⟨List.pairwise_singleton _ _, List.forall_mem_singleton.2 trivial⟩
  exact JsonText.parse_write dbl hobject

/-- Remote operations and one more service. -/
def twoServices : List ServiceTopic :=
  [⟨"RemoteOperation", "2c/ro", "2d/ro", 1⟩, ⟨"VehicleHealth", "2c/health", "2d/health", 1⟩]

theorem marked_twoServices : Marked twoServices := by
  intro service hservice
  simp only [twoServices, List.mem_cons, List.not_mem_nil, or_false] at hservice
  rcases hservice with rfl | rfl
  · exact ⟨"/ro", rfl⟩
  · exact ⟨"/health", rfl⟩

/-- The texts of numbers, which play no part here. -/
def anyDoubles : DoubleText := ⟨fun _ => "0.5", fun _ => none⟩

/-! ## The service of a message -/

/-- After any messages, one without a domain, on a topic under the prefix and the device id, is
handed to exactly the configured service iff the topic leads to it. -/
theorem handle_iff {services : List ServiceTopic} (hmarked : Marked services)
    (hnodup : (services.map ServiceTopic.sub).Nodup) {map : TopicDomainMap}
    {earlier : List String}
    (hrun : ((new services).bind fun map => Lib.exec (next dbl) map earlier) = some map)
    {strTopicPrefix strDeviceId rest cstrRequestJson strMessage : String}
    {members payload : List (String × JsonValue)}
    (hrequest : JsonText.parse dbl cstrRequestJson = .ok (.object members))
    (htopic : members.lookup "topic" =
      some (.string (strTopicPrefix ++ strDeviceId ++ "/" ++ rest)))
    (hmessage : members.lookup "message" = some (.string strMessage))
    (hpayload : JsonText.parse dbl strMessage = .ok (.object payload))
    (hdomain : payload.lookup "domain" = none) :
    (handle dbl map cstrRequestJson).map Prod.snd =
        some ((intended services rest).map fun service =>
          (service.serviceName, .object payload)) ↔
      RoutesRight services (strTopicPrefix ++ strDeviceId ++ "/" ++ rest) rest := by
  rw [handle_eq dbl hmarked hrun (topic_ne_nil strTopicPrefix strDeviceId rest) hrequest htopic
    hmessage hpayload hdomain, Option.some.injEq, handed_eq_iff, hits_iff hmarked hnodup]

theorem handle_iff_twoServices : ∃ map, new twoServices = some map ∧
    (handle anyDoubles map (JsonText.write anyDoubles (notification ("haa/" ++ "HU17" ++ "/" ++
      "2d/health") (JsonText.write anyDoubles versionOnly)))).map Prod.snd =
      some (some ("VehicleHealth", versionOnly)) := by
  obtain ⟨map, hnew⟩ : ∃ map, new twoServices = some map := ⟨_, rfl⟩
  refine ⟨map, hnew, ?_⟩
  have hright : RoutesRight twoServices ("haa/" ++ "HU17" ++ "/" ++ "2d/health") "2d/health" :=
    routesRight_of_clean (k := "/health") (by decide) (by decide) (by decide) (by decide)
      ⟨"VehicleHealth", "2c/health", "2d/health", 1⟩ (by decide) (by decide) (by decide)
      (by decide) (by decide)
  have hrun : ((new twoServices).bind fun map => Lib.exec (next anyDoubles) map []) = some map := by
    rw [hnew]
    rfl
  exact (handle_iff anyDoubles marked_twoServices (by decide) hrun
    (parse_notification anyDoubles _ _) rfl rfl (parse_versionOnly anyDoubles) rfl).2 hright

/-- A device id with `2d` in it: the message of a configured topic is handed to nobody. -/
theorem not_handed_markedDevice : ∃ map, new twoServices = some map ∧
    intended twoServices "2d/health" =
      some ⟨"VehicleHealth", "2c/health", "2d/health", 1⟩ ∧
    (handle anyDoubles map (JsonText.write anyDoubles (notification ("haa/" ++ "HU2d17" ++ "/" ++
      "2d/health") (JsonText.write anyDoubles versionOnly)))).map Prod.snd = some none := by
  obtain ⟨map, hnew⟩ : ∃ map, new twoServices = some map := ⟨_, rfl⟩
  refine ⟨map, hnew, by decide, ?_⟩
  have hrun : ((new twoServices).bind fun map => Lib.exec (next anyDoubles) map []) = some map := by
    rw [hnew]
    rfl
  rw [handle_eq anyDoubles marked_twoServices hrun (topic_ne_nil _ _ _)
    (parse_notification anyDoubles _ _) rfl rfl (parse_versionOnly anyDoubles) rfl]
  decide +kernel

end MQTTNotificationHandler

end DeviceClient
