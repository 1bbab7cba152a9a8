import DeviceClient.Notif.NotificationListener

/-!
# From the broker to the processors

A message from the broker makes a request for the notification listener, in the thread of the MQTT
client. The listener's thread hands the request to `CMQTTNotificationHandler`, which finds the
domain, and `CMessageController` and the handlers behind it find the processors of the domain.

* `onMessageReceived`, `handleNotification`, `processNotificationTypeMessage`: the code on the way.
* `handleNotification_eq`: who is told, of an object that is read back.
* `delivered_run`: each message reaches the processors of its domain once, in order.
-/

namespace DeviceClient

namespace MessageDelivery

open MQTTNotificationHandler NotificationListener

variable (dbl : DoubleText) {π : Type}

/-! ## The code on the way -/

/-- `OnMessageReceived`: the request for the listener, where the payload is JSON. -/
def onMessageReceived (rstrTopic rstrPayload : String) : Option (Option String) :=
  match JsonText.parse dbl rstrPayload with
  | .ok _ => some (some (JsonText.write dbl (notification rstrTopic rstrPayload)))
  | .error .syntaxError => some none
  | .error .stackLimit => none

/-- The payload of `HandleNotification`. -/
def controllerPayload (rstrdomain : String) (rjsonNotif : JsonValue) : JsonValue :=
  .object [("domain", .string rstrdomain), ("notif", rjsonNotif)]

/-- `ProcessNotificationTypeMessage`: the processor whose `ApplyConfig` is called, and with what. -/
def processNotificationTypeMessage (m_mapNotifProcessors : List (String × π))
    (strPayloadJson : String) : Option (Option (π × JsonValue)) :=
  match JsonText.parse dbl strPayloadJson with
  | .error .syntaxError => some none
  | .error .stackLimit => none
  | .ok jsonPayload =>
    (member "domain" jsonPayload).bind fun domain =>
      match domain with
      | some (.string strDomain) =>
        (member "notif" jsonPayload).map fun notif =>
          match notif with
          | some (.object members) =>
            (m_mapNotifProcessors.lookup strDomain).map fun processor =>
              (processor, .object members)
          | _ => none
      | _ => some none

/-- The body of the loop of `HandleNotification`. -/
def notifyHandler (rstrdomain : String) (rjsonNotif : JsonValue) (applied : List (π × JsonValue))
    (m_mapNotifProcessors : List (String × π)) : Option (List (π × JsonValue)) :=
  -- `IsHandlerSubscribedForNotification`
  if (m_mapNotifProcessors.lookup rstrdomain).isSome then
    (processNotificationTypeMessage dbl m_mapNotifProcessors
      (JsonText.write dbl (controllerPayload rstrdomain rjsonNotif))).map fun call =>
        applied ++ call.toList
  else some applied

/-- `HandleNotification`, over the processors of each handler. -/
def handleNotification (m_vecHndlrList : List (List (String × π))) (rstrdomain : String)
    (rjsonNotif : JsonValue) : Option (List (π × JsonValue)) :=
  m_vecHndlrList.foldlM (notifyHandler dbl rstrdomain rjsonNotif) []

/-- What the handler keeps: its map; and the calls of `ApplyConfig` so far. -/
abbrev Handled (π : Type) := TopicDomainMap × List (π × JsonValue)

/-- `Handle`, with all that it calls. -/
def handleRequest (m_vecHndlrList : List (List (String × π))) (_ : Unit)
    (cstrRequestJson : String) (kept : Handled π) : Option (Handled π) :=
  (MQTTNotificationHandler.handle dbl kept.1 cstrRequestJson).bind fun r =>
    match r.2 with
    | none => some (r.1, kept.2)
    | some (strDomain, jsonMqReq) =>
      (handleNotification dbl m_vecHndlrList strDomain jsonMqReq).map fun applied =>
        (r.1, kept.2 ++ applied)

/-! ## The threads -/

/-- A message from the broker, a turn of the listener, or what may happen to it meanwhile. -/
inductive ClientAct where
  | onMessage (topic payload : String)
  | turn
  | spurious
  | setShutdown
  | signalShutdown
deriving DecidableEq, Repr

abbrev ClientState (π : Type) := NotificationListener.State Unit (Handled π)

/-- A step. A message that throws ends the process and is no step. -/
def clientNext (m_vecHndlrList : List (List (String × π))) (s : ClientState π) :
    ClientAct → Option (ClientState π)
  | .onMessage topic payload =>
    if s.pc.isAborted then none
    else
      (onMessageReceived dbl (cstr topic) (cstr payload)).bind fun request =>
        match request with
        | none => some s
        | some strData =>
          NotificationListener.next dbl (handleRequest dbl m_vecHndlrList) s
            (.pushNotification strData)
  | .turn => NotificationListener.next dbl (handleRequest dbl m_vecHndlrList) s .turn
  | .spurious => NotificationListener.next dbl (handleRequest dbl m_vecHndlrList) s .spurious
  | .setShutdown => NotificationListener.next dbl (handleRequest dbl m_vecHndlrList) s .setShutdown
  | .signalShutdown =>
    NotificationListener.next dbl (handleRequest dbl m_vecHndlrList) s .signalShutdown

/-! ## What is to come of a message -/

/-- A message whose payload is JSON. -/
structure Message where
  topic : String
  payload : String
  value : JsonValue

/-- The message, if its payload is JSON. -/
def messageOf (topic payload : String) : Option Message :=
  match JsonText.parse dbl payload with
  | .ok value => some ⟨topic, payload, value⟩
  | .error _ => none

def ClientAct.message : ClientAct → Option Message
  | .onMessage topic payload => messageOf dbl (cstr topic) (cstr payload)
  | .turn | .spurious | .setShutdown | .signalShutdown => none

/-- The messages that the client takes. -/
def messages (as : List ClientAct) : List Message := as.filterMap (ClientAct.message dbl)

/-- The domain of a message and what its processors get; the outer `none` is an exception. -/
def addressee (map : TopicDomainMap) (m : Message) : Option (Option (String × JsonValue)) :=
  if !m.value.isObject && !m.value.isArray then some none
  else (dispatch dbl map (notification m.topic m.payload) m.value).map Prod.snd

/-- The processors of a domain, over all handlers. -/
def processorsOf (m_vecHndlrList : List (List (String × π))) (strDomain : String) : List π :=
  m_vecHndlrList.filterMap fun m_mapNotifProcessors => m_mapNotifProcessors.lookup strDomain

/-- The calls of `ApplyConfig` for a message. -/
def calls (m_vecHndlrList : List (List (String × π))) (map : TopicDomainMap) (m : Message) :
    List (π × JsonValue) :=
  match addressee dbl map m with
  | some (some (strDomain, jsonMqReq)) =>
    (processorsOf m_vecHndlrList strDomain).map fun processor => (processor, jsonMqReq)
  | some none | none => []

section

variable {dbl}

/-! ## The processors of a domain -/

theorem processNotificationTypeMessage_eq (m_mapNotifProcessors : List (String × π))
    (strDomain : String) {members : List (String × JsonValue)}
    (hrep : JsonText.Representable dbl (JsonText.stackLimit - 1) (.object members)) :
    processNotificationTypeMessage dbl m_mapNotifProcessors
        (JsonText.write dbl (controllerPayload strDomain (.object members))) =
      some ((m_mapNotifProcessors.lookup strDomain).map fun processor =>
        (processor, .object members)) := by
  have hparse : JsonText.parse dbl
      (JsonText.write dbl (controllerPayload strDomain (.object members))) =
        .ok (controllerPayload strDomain (.object members)) := by
    apply JsonText.parse_write dbl
    refine ⟨?_, ?_⟩
    · show (["domain", "notif"] : List String).Pairwise (· < ·)
      decide
    · intro m hm
      simp only [List.mem_cons, List.not_mem_nil, or_false] at hm
      rcases hm with rfl | rfl
      · trivial
      · exact hrep
  unfold processNotificationTypeMessage
  rw [hparse]
  rfl

theorem foldlM_notifyHandler {m_vecHndlrList : List (List (String × π))} (strDomain : String)
    {members : List (String × JsonValue)}
    (hrep : JsonText.Representable dbl (JsonText.stackLimit - 1) (.object members))
    (applied : List (π × JsonValue)) :
    m_vecHndlrList.foldlM (notifyHandler dbl strDomain (.object members)) applied =
      some (applied ++ (processorsOf m_vecHndlrList strDomain).map fun processor =>
        (processor, .object members)) := by
  induction m_vecHndlrList generalizing applied with
  | nil => exact congrArg some (List.append_nil applied).symm
  | cons m_mapNotifProcessors rest ih =>
    rw [List.foldlM_cons, notifyHandler, processNotificationTypeMessage_eq _ _ hrep, processorsOf]
    cases hlookup : m_mapNotifProcessors.lookup strDomain with
    | none =>
      rw [List.filterMap_cons_none hlookup]
      exact ih applied
    | some processor =>
      rw [List.filterMap_cons_some hlookup]
      refine (ih (applied ++ [(processor, .object members)])).trans ?_
      rw [List.append_assoc]
      rfl

/-- An object that is read back reaches the processors of the domain, one for each handler. -/
theorem handleNotification_eq (m_vecHndlrList : List (List (String × π))) (strDomain : String)
    {members : List (String × JsonValue)}
    (hrep : JsonText.Representable dbl (JsonText.stackLimit - 1) (.object members)) :
    handleNotification dbl m_vecHndlrList strDomain (.object members) =
      some ((processorsOf m_vecHndlrList strDomain).map fun processor =>
        (processor, .object members)) :=
  foldlM_notifyHandler strDomain hrep []

/-! ## The domain of a message -/

theorem getDomainFromTopic_same {map map' : TopicDomainMap} (hsame : Same map map')
    (rstrTopic : String) :
    (getDomainFromTopic map rstrTopic).map Prod.fst =
      (getDomainFromTopic map' rstrTopic).map Prod.fst := by
  unfold getDomainFromTopic
  by_cases hro : HasRo rstrTopic
  · rw [if_pos hro, if_pos hro, Option.map_some, Option.map_some, hsame topicRo]
  · rw [if_neg hro, if_neg hro, Option.map_map, Option.map_map]
    congr 1
    funext k
    exact hsame k

/-- What the map knows decides. -/
theorem addressee_same {map map' : TopicDomainMap} (hsame : Same map map') (m : Message) :
    addressee dbl map m = addressee dbl map' m := by
  unfold addressee
  by_cases hscalar : (!m.value.isObject && !m.value.isArray) = true
  · rw [if_pos hscalar, if_pos hscalar]
  rw [if_neg hscalar, if_neg hscalar]
  unfold dispatch
  rw [Option.map_bind, Option.map_bind]
  congr 1
  funext domain
  dsimp only [Function.comp]
  rw [Option.map_bind, Option.map_bind]
  congr 1
  funext strDomain
  dsimp only [Function.comp]
  by_cases hdomain : strDomain = ""
  · have hpass : ∀ found : Option (String × TopicDomainMap),
        (found.map fun topic =>
          (topic.2, if topic.1 = "" then none else some (topic.1, m.value))).map Prod.snd =
        (found.map Prod.fst).map fun strDomain =>
          if strDomain = "" then none else some (strDomain, m.value) := by
      intro found
      cases found with
      | none => rfl
      | some found => rfl
    have htopic := getDomainFromTopic_same hsame m.topic
    rw [if_neg (not_not.2 hdomain), if_neg (not_not.2 hdomain)]
    exact (hpass _).trans ((congrArg _ htopic).trans (hpass _).symm)
  · rw [if_pos hdomain, if_pos hdomain]
    rfl

/-- Only an object is passed on. -/
theorem object_of_addressee {map : TopicDomainMap} {m : Message} {strDomain : String}
    {jsonMqReq : JsonValue} (h : addressee dbl map m = some (some (strDomain, jsonMqReq))) :
    jsonMqReq = m.value ∧ ∃ members, m.value = .object members := by
  unfold addressee at h
  by_cases hscalar : (!m.value.isObject && !m.value.isArray) = true
  · rw [if_pos hscalar] at h
    cases h
  rw [if_neg hscalar, dispatch, Option.map_bind, Option.bind_eq_some_iff] at h
  rcases h with ⟨domain, hmember, h⟩
  constructor
  · dsimp only [Function.comp] at h
    rw [Option.map_bind, Option.bind_eq_some_iff] at h
    rcases h with ⟨text, _, h⟩
    dsimp only [Function.comp] at h
    by_cases hdomain : text = ""
    · rw [if_neg (not_not.2 hdomain)] at h
      have hfound : ((getDomainFromTopic map m.topic).map fun topic =>
          (topic.2, if topic.1 = "" then none else some (topic.1, m.value))).map Prod.snd =
            some (some (strDomain, jsonMqReq)) := h
      rw [Option.map_map, Option.map_eq_some_iff] at hfound
      rcases hfound with ⟨⟨found, after⟩, _, hfound⟩
      dsimp only [Function.comp] at hfound
      split_ifs at hfound
      cases hfound
      rfl
    · rw [if_pos hdomain] at h
      cases h
      rfl
  · cases hvalue : m.value with
    | object members => exact ⟨members, rfl⟩
    | array values =>
      rw [hvalue] at hmember
      cases hmember
    | null | boolean _ | int _ | uint _ | real _ | string _ =>
      rw [hvalue] at hscalar
      exact absurd rfl hscalar

/-! ## A request -/

/-- What the handler does with the request of a message. -/
theorem handle_notification {m : Message} (hparse : JsonText.parse dbl m.payload = .ok m.value)
    (map : TopicDomainMap) :
    (MQTTNotificationHandler.handle dbl map
      (JsonText.write dbl (notification m.topic m.payload))).map Prod.snd =
        addressee dbl map m := by
  unfold MQTTNotificationHandler.handle addressee
  have hmessage : member "message" (notification m.topic m.payload) =
      some (some (.string m.payload)) := rfl
  rw [parse_notification]
  dsimp only
  rw [hmessage, Option.bind_some]
  dsimp only
  rw [JsonValue.asString, Option.bind_some, hparse]
  dsimp only
  split_ifs
  · rfl
  · rfl

/-- The whole of it: the calls of the message, and a map that is as good. -/
theorem handleRequest_eq (m_vecHndlrList : List (List (String × π))) {m : Message}
    (hparse : JsonText.parse dbl m.payload = .ok m.value)
    (hrep : JsonText.Representable dbl (JsonText.stackLimit - 1) m.value)
    {map : TopicDomainMap} {kept : Handled π} (hsame : Same kept.1 map) :
    (addressee dbl map m = none ∧
      handleRequest dbl m_vecHndlrList ()
        (JsonText.write dbl (notification m.topic m.payload)) kept = none) ∨
    ((addressee dbl map m).isSome = true ∧ ∃ map', Same map' map ∧
      handleRequest dbl m_vecHndlrList ()
        (JsonText.write dbl (notification m.topic m.payload)) kept =
          some (map', kept.2 ++ calls dbl m_vecHndlrList map m)) := by
  have hhandle := handle_notification hparse kept.1
  rw [addressee_same hsame] at hhandle
  unfold handleRequest calls
  cases hresult : MQTTNotificationHandler.handle dbl kept.1
      (JsonText.write dbl (notification m.topic m.payload)) with
  | none =>
    rw [hresult] at hhandle
    exact Or.inl ⟨hhandle.symm, rfl⟩
  | some result =>
    rcases result with ⟨map', passed⟩
    rw [hresult] at hhandle
    have haddressee : addressee dbl map m = some passed := hhandle.symm
    have hsame' : Same map' map := by
      have hnext : MQTTNotificationHandler.next dbl kept.1
          (JsonText.write dbl (notification m.topic m.payload)) = some map' := by
        rw [MQTTNotificationHandler.next, hresult]
        rfl
      exact fun key => (same_of_next dbl hnext key).trans (hsame key)
    rw [haddressee]
    refine Or.inr ⟨rfl, map', hsame', ?_⟩
    cases passed with
    | none => exact congrArg some (congrArg _ (List.append_nil kept.2).symm)
    | some passed =>
      rcases passed with ⟨strDomain, jsonMqReq⟩
      rcases object_of_addressee haddressee with ⟨rfl, members, hobject⟩
      rw [hobject] at hrep ⊢
      rw [Option.bind_some]
      dsimp only
      rw [handleNotification_eq _ _ hrep]
      rfl

/-! ## The client as a listener -/

/-- The request of a message. -/
def request (dbl : DoubleText) (m : Message) : String :=
  JsonText.write dbl (notification m.topic m.payload)

theorem cstr_request (m : Message) : cstr (request dbl m) = request dbl m :=
  cstr_notification dbl m.topic m.payload

theorem messageOf_ok {topic payload : String} {value : JsonValue}
    (hparse : JsonText.parse dbl payload = .ok value) :
    messageOf dbl topic payload = some ⟨topic, payload, value⟩ := by
  unfold messageOf
  rw [hparse]

theorem messageOf_error {topic payload : String} {e : ReadError}
    (hparse : JsonText.parse dbl payload = .error e) : messageOf dbl topic payload = none := by
  unfold messageOf
  rw [hparse]

theorem parse_of_message {a : ClientAct} {m : Message} (hm : a.message dbl = some m) :
    JsonText.parse dbl m.payload = .ok m.value := by
  cases a with
  | onMessage topic payload =>
    have hm' : messageOf dbl (cstr topic) (cstr payload) = some m := hm
    cases hparse : JsonText.parse dbl (cstr payload) with
    | ok value =>
      rw [messageOf_ok hparse] at hm'
      cases hm'
      exact hparse
    | error e =>
      rw [messageOf_error hparse] at hm'
      cases hm'
  | turn | spurious | setShutdown | signalShutdown => cases hm

/-- A step of the client is one of the listener and those around it, or nothing to them. -/
theorem acts_of_clientNext {m_vecHndlrList : List (List (String × π))} {s s' : ClientState π}
    {a : ClientAct} (hnext : clientNext dbl m_vecHndlrList s a = some s') :
    ∃ acts, Lib.exec (NotificationListener.next dbl (handleRequest dbl m_vecHndlrList)) s acts =
        some s' ∧
      requests acts = (a.message dbl).toList.map (request dbl) := by
  have hsingle : ∀ act : Act Unit,
      NotificationListener.next dbl (handleRequest dbl m_vecHndlrList) s act = some s' →
      Lib.exec (NotificationListener.next dbl (handleRequest dbl m_vecHndlrList)) s [act] =
        some s' := by
    intro act hact
    rw [Lib.exec_cons, hact]
    rfl
  cases a with
  | onMessage topic payload =>
    unfold clientNext at hnext
    split_ifs at hnext
    rw [Option.bind_eq_some_iff] at hnext
    rcases hnext with ⟨found, hfound, hnext⟩
    unfold onMessageReceived at hfound
    rw [ClientAct.message]
    split at hfound
    · rename_i value hparse
      cases hfound
      rw [messageOf_ok hparse]
      exact ⟨_, hsingle _ hnext, rfl⟩
    · rename_i hparse
      cases hfound
      cases hnext
      rw [messageOf_error hparse]
      exact ⟨[], rfl, rfl⟩
    · cases hfound
  | turn => exact ⟨_, hsingle _ hnext, rfl⟩
  | spurious => exact ⟨_, hsingle _ hnext, rfl⟩
  | setShutdown => exact ⟨_, hsingle _ hnext, rfl⟩
  | signalShutdown => exact ⟨_, hsingle _ hnext, rfl⟩

theorem acts_of_exec {m_vecHndlrList : List (List (String × π))} {s s' : ClientState π}
    {as : List ClientAct} (hrun : Lib.exec (clientNext dbl m_vecHndlrList) s as = some s') :
    ∃ acts, Lib.exec (NotificationListener.next dbl (handleRequest dbl m_vecHndlrList)) s acts =
        some s' ∧
      requests acts = (messages dbl as).map (request dbl) := by
  induction as generalizing s with
  | nil => exact ⟨[], hrun, rfl⟩
  | cons a as ih =>
    rw [Lib.exec_cons, Option.bind_eq_some_iff] at hrun
    rcases hrun with ⟨t, hnext, hrest⟩
    rcases acts_of_clientNext hnext with ⟨first, hfirst, hrequest⟩
    rcases ih hrest with ⟨acts, hacts, hrequests⟩
    refine ⟨first ++ acts, ?_, ?_⟩
    · rw [Lib.exec_append, hfirst]
      exact hacts
    · have hsplit : messages dbl (a :: as) = (a.message dbl).toList ++ messages dbl as := by
        unfold messages
        cases hm : a.message dbl with
        | none => rw [List.filterMap_cons_none hm, Option.toList_none, List.nil_append]
        | some m => rw [List.filterMap_cons_some hm, Option.toList_some, List.singleton_append]
      rw [hsplit, List.map_append, ← hrequest, ← hrequests]
      exact List.filterMap_append

/-! ## The calls of a run -/

/-- What the handlers keep after the requests of some messages. -/
theorem handled_messages {m_vecHndlrList : List (List (String × π))} {map : TopicDomainMap}
    {done : List Message} {kept kept' : Handled π}
    (hparse : ∀ m ∈ done, JsonText.parse dbl m.payload = .ok m.value)
    (hrep : ∀ m ∈ done, JsonText.Representable dbl (JsonText.stackLimit - 1) m.value)
    (hsame : Same kept.1 map)
    (hrun : Lib.exec (handled (handleRequest dbl m_vecHndlrList)) kept
      (done.map fun m => (request dbl m, .handle ())) = some kept') :
    Same kept'.1 map ∧ kept'.2 = kept.2 ++ done.flatMap (calls dbl m_vecHndlrList map) ∧
      ∀ m ∈ done, (addressee dbl map m).isSome = true := by
  induction done generalizing kept with
  | nil =>
    cases hrun
    exact ⟨hsame, (List.append_nil _).symm, fun m hm => absurd hm List.not_mem_nil⟩
  | cons m done ih =>
    rw [List.forall_mem_cons] at hparse hrep
    rw [List.map_cons, Lib.exec_cons, Option.bind_eq_some_iff] at hrun
    rcases hrun with ⟨middle, hhandled, hrest⟩
    have hhandled' : handleRequest dbl m_vecHndlrList () (request dbl m) kept = some middle := by
      rw [← cstr_request m]
      exact hhandled
    rcases handleRequest_eq m_vecHndlrList hparse.1 hrep.1 hsame with ⟨_, hnone⟩ |
      ⟨hsome, map', hsame', hkept⟩
    · cases hhandled'.symm.trans hnone
    · cases hhandled'.symm.trans hkept
      rcases ih hparse.2 hrep.2 hsame' hrest with ⟨hlast, hcalls, hsomes⟩
      refine ⟨hlast, ?_, List.forall_mem_cons.2 ⟨hsome, hsomes⟩⟩
      rw [hcalls, List.flatMap_cons, List.append_assoc]

/-- The handler of messages is the one that is found for each of them. -/
theorem found_of_request {m_mapNotifHandlers : List (String × Unit)} {m : Message}
    {found : Sent Unit} (hlookup : m_mapNotifHandlers.lookup "MQTT_CONFIG_REQUEST" = some ())
    (hfound : sendNotification dbl m_mapNotifHandlers (some (cstr (request dbl m))) =
      some found) : found = .handle () := by
  have hsend : sendNotification dbl m_mapNotifHandlers (some (request dbl m)) =
      some (findHandler m_mapNotifHandlers "MQTT_CONFIG_REQUEST") :=
    sendNotification_notification dbl m_mapNotifHandlers m.topic m.payload
  rw [cstr_request, hsend, findHandler, hlookup] at hfound
  exact (Option.some.inj hfound).symm

/-- Before the handler is registered the listener only waits. -/
theorem quiet_before {m_vecHndlrList : List (List (String × π))} {map : TopicDomainMap}
    {before : List (Act Unit)} {s : ClientState π}
    (hstart : Lib.exec (NotificationListener.next dbl (handleRequest dbl m_vecHndlrList))
      (start (map, [])) (before ++ [.registerRequest () "MQTT_CONFIG_REQUEST"]) = some s)
    (hbefore : ∀ a ∈ before, a = .turn ∨ a = .spurious) :
    s.sent = [] ∧ s.m_mapNotifHandlers.lookup "MQTT_CONFIG_REQUEST" = some () ∧
      requests (before ++ [.registerRequest () "MQTT_CONFIG_REQUEST"]) = [] := by
  have hrequests : requests (before ++ [.registerRequest () "MQTT_CONFIG_REQUEST"]) = [] := by
    unfold requests
    rw [List.filterMap_eq_nil_iff]
    intro a ha
    rcases List.mem_append.1 ha with ha | ha
    · rcases hbefore a ha with rfl | rfl
      · rfl
      · rfl
    · rw [List.mem_singleton.1 ha]
      rfl
  have hfirst : firstHandler "MQTT_CONFIG_REQUEST"
      (before ++ [.registerRequest () "MQTT_CONFIG_REQUEST"]) = some () := by
    have hnone : before.findSome? (Act.handlerFor "MQTT_CONFIG_REQUEST") = none := by
      rw [List.findSome?_eq_none_iff]
      intro a ha
      rcases hbefore a ha with rfl | rfl
      · rfl
      · rfl
    unfold firstHandler
    rw [List.findSome?_append, hnone]
    rfl
  have htexts := texts_exec hstart
  rw [hrequests] at htexts
  have hsent : s.sent.map Prod.fst = [] := (List.append_eq_nil_iff.1 htexts).1
  refine ⟨List.map_eq_nil_iff.1 hsent, ?_, hrequests⟩
  rw [registered_exec hstart, hfirst]
  rfl

/-- Each message whose payload is JSON reaches the processors of its domain once, in the order of
arrival, whatever wakes the listener up. It stops at a message whose domain is no text, which ends
the process. -/
theorem delivered_run {m_vecHndlrList : List (List (String × π))} {map : TopicDomainMap}
    {before : List (Act Unit)} {as : List ClientAct} {s s' : ClientState π}
    (hstart : Lib.exec (NotificationListener.next dbl (handleRequest dbl m_vecHndlrList))
      (start (map, [])) (before ++ [.registerRequest () "MQTT_CONFIG_REQUEST"]) = some s)
    (hbefore : ∀ a ∈ before, a = .turn ∨ a = .spurious)
    (hrun : Lib.exec (clientNext dbl m_vecHndlrList) s as = some s')
    (hrep : ∀ m ∈ messages dbl as,
      JsonText.Representable dbl (JsonText.stackLimit - 1) m.value) :
    ∃ done rest, messages dbl as = done ++ rest ∧
      s'.handlers.2 = done.flatMap (calls dbl m_vecHndlrList map) ∧
      (∀ m ∈ done, (addressee dbl map m).isSome = true) ∧
      (s'.pc = .waiting → rest = []) ∧
      (s'.pc.isAborted = true → ∃ m later, rest = m :: later ∧ addressee dbl map m = none) := by
  rcases quiet_before hstart hbefore with ⟨hsent, hlookup, hnone⟩
  rcases acts_of_exec hrun with ⟨acts, hacts, hrequests⟩
  have hfull : Lib.exec (NotificationListener.next dbl (handleRequest dbl m_vecHndlrList))
      (start (map, [])) (before ++ [.registerRequest () "MQTT_CONFIG_REQUEST"] ++ acts) =
        some s' := by
    rw [Lib.exec_append, hstart]
    exact hacts
  have hall : requests (before ++ [.registerRequest () "MQTT_CONFIG_REQUEST"] ++ acts) =
      (messages dbl as).map (request dbl) := by
    rw [← hrequests]
    refine (List.filterMap_append).trans ?_
    exact (congrArg (· ++ requests acts) hnone).trans (List.nil_append _)
  have hparse : ∀ m ∈ messages dbl as, JsonText.parse dbl m.payload = .ok m.value := by
    intro m hm
    rcases List.mem_filterMap.1 hm with ⟨a, _, ha⟩
    exact parse_of_message ha
  -- none of the requests is empty
  have hfilter : (requests (before ++ [.registerRequest () "MQTT_CONFIG_REQUEST"] ++ acts)).filter
      (· ≠ "") = (messages dbl as).map (request dbl) := by
    rw [hall, List.filter_eq_self]
    intro text htext
    rcases List.mem_map.1 htext with ⟨m, _, rfl⟩
    exact decide_eq_true (notification_ne_empty dbl m.topic m.payload)
  have htexts : s'.texts = _ := texts_exec hfull
  have hhandled := handled_exec hfull
  have hwaiting := sent_of_waiting hfull
  rw [hfilter] at htexts hwaiting
  rcases List.map_eq_append_iff.1 htexts.symm with ⟨done, rest, hmessages, hdone, hrest⟩
  have hdoneMem : ∀ m ∈ done, m ∈ messages dbl as := fun m hm =>
    hmessages ▸ List.mem_append_left rest hm
  have hkept : ∀ pre t, Lib.exec (NotificationListener.next dbl (handleRequest dbl m_vecHndlrList))
      s pre = some t → t.m_mapNotifHandlers.lookup "MQTT_CONFIG_REQUEST" = some () := by
    intro pre t ht
    rw [registered_exec ht, hlookup]
    rfl
  -- each has gone to the handler of messages
  have hsentEq : s'.sent = done.map fun m => (request dbl m, .handle ()) := by
    have hfound : ∀ e ∈ s'.sent, e.2 = .handle () := by
      intro e he
      have hfst : e.1 ∈ done.map (request dbl) := by
        rw [hdone]
        exact List.mem_map_of_mem he
      rcases List.mem_map.1 hfst with ⟨m, _, hm⟩
      rcases found_exec hacts he with hold | ⟨pre, t, _, ht, hfound⟩
      · rw [hsent] at hold
        exact absurd hold List.not_mem_nil
      · rw [← hm] at hfound
        exact found_of_request (hkept pre t ht) hfound
    calc s'.sent = s'.sent.map fun e => (e.1, .handle ()) := by
          refine (List.map_id' s'.sent).symm.trans (List.map_congr_left fun e he => ?_)
          rw [← hfound e he]
      _ = (s'.sent.map Prod.fst).map fun text => (text, .handle ()) := by
          rw [List.map_map]
          rfl
      _ = done.map fun m => (request dbl m, .handle ()) := by
          rw [← hdone, List.map_map]
          rfl
  rw [hsentEq] at hhandled
  rcases handled_messages (fun m hm => hparse m (hdoneMem m hm))
    (fun m hm => hrep m (hdoneMem m hm)) (fun _ => rfl) hhandled with ⟨hsame, hcalls, hsome⟩
  refine ⟨done, rest, hmessages, hcalls, hsome, ?_, ?_⟩
  · intro hpc
    have hlength := congrArg List.length (hdone.trans (hwaiting hpc))
    rw [List.length_map, List.length_map, hmessages, List.length_append] at hlength
    exact List.length_eq_zero_iff.1 (by omega)
  · intro habort
    cases hpc : s'.pc with
    | aborted text =>
      rcases throws_exec hfull hpc with ⟨hne, hthrows⟩
      rw [hpc, inHand_aborted, List.singleton_append, List.filter_cons_of_pos (by simpa using hne)]
        at hrest
      rcases List.map_eq_cons_iff.1 hrest with ⟨m, later, hm, htext, _⟩
      refine ⟨m, later, hm, ?_⟩
      have hmem : m ∈ messages dbl as := by
        rw [hmessages, hm]
        exact List.mem_append_right done List.mem_cons_self
      rw [← htext] at hthrows
      rcases hthrows with hnothing | ⟨_, _, hhandle⟩
      · rw [cstr_request] at hnothing
        have hsend := sendNotification_notification dbl s'.m_mapNotifHandlers m.topic m.payload
        cases hnothing.symm.trans hsend
      · rw [cstr_request] at hhandle
        rcases handleRequest_eq m_vecHndlrList (hparse m hmem) (hrep m hmem) hsame with
          ⟨hthrow, _⟩ | ⟨_, map', _, hdone'⟩
        · exact hthrow
        · cases hhandle.symm.trans hdone'
    | test | pop | waiting | woken | send _ | finished =>
      rw [hpc] at habort
      cases habort

end

/-- A message that names its domain. -/
def domainOnly : JsonValue := .object [("domain", .string "RemoteOperation")]

def domainText : String := JsonText.write anyDoubles domainOnly

theorem representable_domainOnly (level : ℕ) :
    JsonText.Representable anyDoubles (level + 2) domainOnly :=
  ⟨List.pairwise_singleton _ _, List.forall_mem_singleton.2 trivial⟩

theorem parse_domainText : JsonText.parse anyDoubles domainText = .ok domainOnly :=
  JsonText.parse_write anyDoubles (representable_domainOnly (JsonText.stackLimit - 2))

theorem cstr_domainText : cstr domainText = domainText := by
  apply cstr_eq_self
  have hname := nul_not_mem_quoted "domain"
  have hvalue := nul_not_mem_quoted "RemoteOperation"
  unfold domainText JsonText.write domainOnly
  rw [String.toList_ofList]
  simp [JsonText.writeValue, JsonText.writeMembers, hname, hvalue]

/-- Two handlers, one with a processor for remote operations. -/
def someHandlers : List (List (String × Unit)) :=
  [[("RemoteOperation", ())], [("VehicleHealth", ())]]

def someMessage : Message := ⟨"2d/ro", domainText, domainOnly⟩

/-- One message, and the turns of the listener up to the wait. -/
def someRun : List ClientAct :=
  [.onMessage "2d/ro" domainText, .turn, .turn, .turn, .turn, .turn]

theorem messages_someRun : messages anyDoubles someRun = [someMessage] := by
  have htopic : cstr "2d/ro" = "2d/ro" := by decide
  simp [messages, someRun, ClientAct.message, htopic, cstr_domainText,
    messageOf_ok parse_domainText, someMessage]

theorem exec_someRun : ∃ s s' : ClientState Unit,
    Lib.exec (NotificationListener.next anyDoubles (handleRequest anyDoubles someHandlers))
        (start ([], [])) ([] ++ [.registerRequest () "MQTT_CONFIG_REQUEST"]) = some s ∧
      Lib.exec (clientNext anyDoubles someHandlers) s someRun = some s' ∧ s'.pc = .waiting := by
  have hreceived : onMessageReceived anyDoubles (cstr "2d/ro") (cstr domainText) =
      some (some (request anyDoubles someMessage)) := by
    have htopic : cstr "2d/ro" = "2d/ro" := by decide
    rw [htopic, cstr_domainText, onMessageReceived, parse_domainText]
    rfl
  have hne : request anyDoubles someMessage ≠ "" := notification_ne_empty _ _ _
  have hsame : Same (([], []) : Handled Unit).1 [] := fun _ => rfl
  rcases handleRequest_eq someHandlers (m := someMessage) parse_domainText
    (representable_domainOnly (JsonText.stackLimit - 3)) hsame with ⟨hnone, _⟩ |
      ⟨_, map', _, hhandle⟩
  · cases hnone
  have hcalls : handleRequest anyDoubles someHandlers () (request anyDoubles someMessage)
      ([], []) = some (map', calls anyDoubles someHandlers [] someMessage) := hhandle
  have hfound : sendNotification anyDoubles [("MQTT_CONFIG_REQUEST", ())]
      (some (request anyDoubles someMessage)) = some (.handle ()) :=
    sendNotification_notification _ _ _ _
  refine ⟨⟨[], [("MQTT_CONFIG_REQUEST", ())], false, .test, ([], []), []⟩,
    ⟨[], [("MQTT_CONFIG_REQUEST", ())], false, .waiting,
      (map', calls anyDoubles someHandlers [] someMessage),
      [(request anyDoubles someMessage, .handle ())]⟩, rfl, ?_, rfl⟩
  simp [someRun, Lib.exec, clientNext, hreceived, NotificationListener.next, act, turn,
    ListenerPc.isAborted, State.signal, ListenerPc.wake, State.popFront, State.send, hne,
    cstr_request, hfound, hcalls]

/-- The processor is told. -/
theorem delivered_run_domainOnly : ∃ s s' : ClientState Unit,
    Lib.exec (NotificationListener.next anyDoubles (handleRequest anyDoubles someHandlers))
        (start ([], [])) ([] ++ [.registerRequest () "MQTT_CONFIG_REQUEST"]) = some s ∧
      Lib.exec (clientNext anyDoubles someHandlers) s someRun = some s' ∧
      s'.handlers.2 = [((), domainOnly)] := by
  rcases exec_someRun with ⟨s, s', hstart, hrun, hpc⟩
  refine ⟨s, s', hstart, hrun, ?_⟩
  have hrep : ∀ m ∈ messages anyDoubles someRun,
      JsonText.Representable anyDoubles (JsonText.stackLimit - 1) m.value := by
    rw [messages_someRun]
    exact List.forall_mem_singleton.2 (representable_domainOnly (JsonText.stackLimit - 3))
  rcases delivered_run hstart (fun a ha => absurd ha List.not_mem_nil) hrun hrep with
    ⟨done, rest, hmessages, hcalls, _, hwaiting, _⟩
  rw [hwaiting hpc, List.append_nil, messages_someRun] at hmessages
  rw [hcalls, ← hmessages]
  rfl

end MessageDelivery

end DeviceClient
