import DeviceClient.Lib.Int32
import DeviceClient.Lib.KeyedList
import DeviceClient.Lib.Run
import Mathlib.Data.List.Chain

/-!
# The status of the MQTT connection

`CIgniteMQTTClient`: the callbacks of the library, the topics that are subscribed behind a
connect, the count of their acknowledgements, and the status that the dispatcher gets.

* `exec_statusesKept`: no status comes twice in a row, and the connection is complete only
  behind as many acknowledgements as topics.
-/

namespace DeviceClient

/-- `MQTT_CONNECTION_STATE`. -/
inductive MqttConnectionState where
  | eSTATE_NOT_CONNECTED
  | eSTATE_CONNECTION_COMPLETE
  | eSTATE_CONNECTED_BUT_TOPICS_SUBS_PENDING
  | eSTATE_CONNECTION_TEARING_DOWN
deriving DecidableEq, Repr

/-- `MQTT_CONNECTION_STEPS`. -/
inductive MqttConnectionStep where
  | eSTEP_DISCONNECTED
  | eSTEP_CONNECTED_BUT_SUBS_PENDING
  | eSTEP_CONNECTED_AND_SUBS_ACK_RCVD
  | eSTEP_CONNECTION_TEARING_DOWN
deriving DecidableEq, Repr

structure TopicInfo where
  strPublishTopic : String
  strSubscribeTopic : String
  nQos : ℤ
deriving DecidableEq

/-- An element of `MQTT.servicesTopic`. -/
structure ServiceTopic where
  serviceName : String
  pub : String
  sub : String
  QOS : ℤ
deriving DecidableEq

/-- A status that the dispatcher gets, with the topics that were subscribed since the last
successful connect and the acknowledgements that came since then. -/
structure StatusBroadcast where
  status : MqttConnectionState
  topics : ℕ
  acks : ℕ
deriving DecidableEq

/-- `CIgniteMQTTClient`, with what was subscribed and acknowledged since the last successful
connect and what the dispatcher got, the last first. -/
structure IgniteMQTTClient where
  strTopicprefix : String
  strDeviceID : String
  strConftopic : String
  mapFeaturesTopicMap : List (String × TopicInfo)
  bConnected : Bool
  bStopClientReq : Bool
  nNoOfTopicsToSubscribe : ℤ
  nNoOfTopicSubAckRcvd : ℤ
  eLastBroadcasted : MqttConnectionState
  subscribed : List String
  acks : ℕ
  delivered : List StatusBroadcast
deriving DecidableEq

inductive MqttCallback where
  /-- `ReloadTopics`, of the login and the configured services. -/
  | reloadTopics (strDeviceID : String) (servicesTopic : List ServiceTopic)
  | on_connect (nRc : ℤ)
  | on_disconnect (nRc : ℤ)
  | on_subscribe (nMid : ℤ)
  | stopClient

namespace IgniteMQTTClient

open Lib (toInt32)

/-- The constructor, of the configured prefix. -/
def new ( strTopicprefix : String) : IgniteMQTTClient :=
  ⟨ strTopicprefix, "", "", [], false, false, 0, 0, .eSTATE_NOT_CONNECTED, [], 0, []⟩

/-! ## Topics -/

/-- One pass of the loop of `PopulateServicesTopic`. -/
def addService (strTopicPrefix strDeviceId : String) (map : List (String × TopicInfo))
    (service : ServiceTopic) : List (String × TopicInfo) :=
  if service.serviceName ≠ "RemoteOperation" then map
  else Lib.setKey service.serviceName
    ⟨strTopicPrefix ++ strDeviceId ++ "/" ++ service.pub,
      strTopicPrefix ++ strDeviceId ++ "/" ++ service.sub, service.QOS⟩ map

/-- `ReloadTopics`, as far as it is about what is subscribed. -/
def reloadTopics (strDeviceID : String) (servicesTopic : List ServiceTopic)
    (s : IgniteMQTTClient) : IgniteMQTTClient :=
  { s with
    strDeviceID := strDeviceID
    strConftopic := s.strTopicprefix ++ strDeviceID ++ "/2d/config"
    mapFeaturesTopicMap := servicesTopic.foldl (addService s.strTopicprefix strDeviceID) [] }

/-- `Subscribe`. Whether the library takes it is not looked at. -/
def subscribe (s : IgniteMQTTClient) (strTopic : String) : IgniteMQTTClient :=
  { s with subscribed := s.subscribed ++ [strTopic] }

/-! ## The status -/

/-- `DeliverMQTTConnectionStatusToDevice`, of the last status. -/
def deliver (s : IgniteMQTTClient) : IgniteMQTTClient :=
  { s with delivered := ⟨s.eLastBroadcasted, s.subscribed.length, s.acks⟩ :: s.delivered }

/-- The part that all `Broadcast` methods have. -/
def broadcast (eState : MqttConnectionState) (bForced : Bool) (s : IgniteMQTTClient) :
    IgniteMQTTClient :=
  if eState ≠ s.eLastBroadcasted ∨ bForced = true then
    { s with eLastBroadcasted := eState }.deliver
  else s

def broadcastDisconnectStatus (bForced : Bool) (s : IgniteMQTTClient) : IgniteMQTTClient :=
  s.broadcast .eSTATE_NOT_CONNECTED bForced

def broadcastConnSubsPendingStatus (bForced : Bool) (s : IgniteMQTTClient) : IgniteMQTTClient :=
  s.broadcast .eSTATE_CONNECTED_BUT_TOPICS_SUBS_PENDING bForced

def broadcastConnTearingDownStatus (bForced : Bool) (s : IgniteMQTTClient) : IgniteMQTTClient :=
  s.broadcast .eSTATE_CONNECTION_TEARING_DOWN bForced

/-- The one that looks at the counts. -/
def broadcastConnSubsAckRcvdStatus (bForced : Bool) (s : IgniteMQTTClient) : IgniteMQTTClient :=
  if 0 ≠ s.nNoOfTopicsToSubscribe ∧ 0 ≠ s.nNoOfTopicSubAckRcvd ∧
      s.nNoOfTopicsToSubscribe = s.nNoOfTopicSubAckRcvd then
    s.broadcast .eSTATE_CONNECTION_COMPLETE bForced
  else s

/-- `BroadcastConnStatus`. -/
def broadcastConnStatus (eConnState : MqttConnectionStep) (bForced : Bool)
    (s : IgniteMQTTClient) : IgniteMQTTClient :=
  match eConnState with
  | .eSTEP_DISCONNECTED => s.broadcastDisconnectStatus bForced
  | .eSTEP_CONNECTED_BUT_SUBS_PENDING => s.broadcastConnSubsPendingStatus bForced
  | .eSTEP_CONNECTED_AND_SUBS_ACK_RCVD => s.broadcastConnSubsAckRcvdStatus bForced
  | .eSTEP_CONNECTION_TEARING_DOWN => s.broadcastConnTearingDownStatus bForced

/-! ## Callbacks -/

/-- The counts of a new connection. -/
def resetCounts (s : IgniteMQTTClient) : IgniteMQTTClient :=
  { s with
    bConnected := true
    nNoOfTopicsToSubscribe := 0
    nNoOfTopicSubAckRcvd := 0
    subscribed := []
    acks := 0 }

/-- `on_connect`. A refused connection changes no count. -/
def onConnect (nRc : ℤ) (s : IgniteMQTTClient) : IgniteMQTTClient :=
  if nRc = 0 then
    let s := s.resetCounts.broadcastConnStatus .eSTEP_CONNECTED_BUT_SUBS_PENDING false
    let s := { s with nNoOfTopicsToSubscribe := toInt32 (s.nNoOfTopicsToSubscribe + 1) }
    let s := s.subscribe s.strConftopic
    let s := { s with
      nNoOfTopicsToSubscribe :=
        toInt32 (s.nNoOfTopicsToSubscribe + s.mapFeaturesTopicMap.length) }
    s.mapFeaturesTopicMap.foldl (fun s p => s.subscribe p.2.strSubscribeTopic) s
  else { s with bConnected := false }

/-- `on_disconnect`. -/
def onDisconnect (s : IgniteMQTTClient) : IgniteMQTTClient :=
  let s := { s with
    bConnected := false
    nNoOfTopicsToSubscribe := 0
    nNoOfTopicSubAckRcvd := 0 }
  s.broadcastConnStatus .eSTEP_DISCONNECTED false

/-- `on_subscribe`, whichever subscription the acknowledgement is for. -/
def onSubscribe (s : IgniteMQTTClient) : IgniteMQTTClient :=
  let s := { s with
    nNoOfTopicSubAckRcvd := toInt32 (s.nNoOfTopicSubAckRcvd + 1)
    acks := s.acks + 1 }
  s.broadcastConnStatus .eSTEP_CONNECTED_AND_SUBS_ACK_RCVD false

/-- `StopClient`. -/
def stopClient (s : IgniteMQTTClient) : IgniteMQTTClient :=
  { s.broadcastConnStatus .eSTEP_CONNECTION_TEARING_DOWN false with bStopClientReq := true }

def next (s : IgniteMQTTClient) : MqttCallback → Option IgniteMQTTClient
  | .reloadTopics strDeviceID servicesTopic => some (s.reloadTopics strDeviceID servicesTopic)
  | .on_connect nRc => some (s.onConnect nRc)
  | .on_disconnect _ => some s.onDisconnect
  | .on_subscribe _ => some s.onSubscribe
  | .stopClient => some s.stopClient

/-! ## What the dispatcher gets -/

/-- No status twice in a row, and `eSTATE_CONNECTION_COMPLETE` not before there were as many
acknowledgements as topics. -/
structure StatusesKept (delivered : List StatusBroadcast) : Prop where
  noRepeat : delivered.IsChain fun b b' => b.status ≠ b'.status
  complete : ∀ b ∈ delivered, b.status = .eSTATE_CONNECTION_COMPLETE → b.topics ≤ b.acks

/-- The only service that has topics. -/
def Services (map : List (String × TopicInfo)) : Prop :=
  map = [] ∨ ∃ topic, map = [("RemoteOperation", topic)]

/-- The counts of a connection that was not lost are those of its topics and
acknowledgements. -/
structure Inv (s : IgniteMQTTClient) : Prop where
  kept : StatusesKept s.delivered
  last : (s.delivered.head?.map StatusBroadcast.status).getD .eSTATE_NOT_CONNECTED =
    s.eLastBroadcasted
  services : Services s.mapFeaturesTopicMap
  counts : s.nNoOfTopicsToSubscribe = 0 ∨
    (s.nNoOfTopicsToSubscribe = s.subscribed.length ∧ s.nNoOfTopicSubAckRcvd = toInt32 s.acks)

theorem inv_new ( strTopicprefix : String) : Inv (new strTopicprefix) :=
  ⟨⟨List.isChain_nil, fun _ hb => absurd hb List.not_mem_nil⟩, rfl, Or.inl rfl, Or.inl rfl⟩

/-- The services of a configuration leave at most one topic. -/
theorem services_foldl (strTopicPrefix strDeviceId : String) (servicesTopic : List ServiceTopic) :
    ∀ map, Services map →
      Services (servicesTopic.foldl (addService strTopicPrefix strDeviceId) map) := by
  induction servicesTopic with
  | nil => exact fun _ hmap => hmap
  | cons service servicesTopic ih =>
    intro map hmap
    apply ih
    unfold addService
    split_ifs with hname
    · exact hmap
    · rw [not_not] at hname
      right
      rcases hmap with rfl | ⟨topic, rfl⟩
      · rw [hname]
        exact ⟨_, rfl⟩
      · rw [hname]
        exact ⟨_, rfl⟩

theorem Services.length_le {map : List (String × TopicInfo)} (h : Services map) :
    map.length ≤ 1 := by
  rcases h with rfl | ⟨topic, rfl⟩
  · exact Nat.zero_le 1
  · exact Nat.le_refl 1

/-- The subscriptions of the services, one behind the other. -/
theorem foldl_subscribe (map : List (String × TopicInfo)) : ∀ s : IgniteMQTTClient,
    map.foldl (fun s p => s.subscribe p.2.strSubscribeTopic) s =
      { s with subscribed := s.subscribed ++ map.map fun p => p.2.strSubscribeTopic } := by
  induction map with
  | nil =>
    intro s
    rw [List.map_nil, List.append_nil]
    rfl
  | cons p map ih =>
    intro s
    rw [List.foldl_cons, ih]
    simp only [subscribe, List.map_cons, List.append_assoc, List.singleton_append]

/-! ## Every run -/

/-- An unforced status is another one than the last, and the connection is complete where
the counts allow it. -/
theorem inv_broadcast {s : IgniteMQTTClient} {eState : MqttConnectionState} (hs : Inv s)
    (hcomplete : eState = .eSTATE_CONNECTION_COMPLETE → s.subscribed.length ≤ s.acks) :
    Inv (s.broadcast eState false) := by
  unfold broadcast
  by_cases hne : eState ≠ s.eLastBroadcasted
  · rw [if_pos (Or.inl hne)]
    refine ⟨⟨?_, ?_⟩, rfl, hs.services, hs.counts⟩
    · -- the status in front is the last one
      have hlast := hs.last
      have hchain := hs.kept.noRepeat
      show (StatusBroadcast.mk eState s.subscribed.length s.acks :: s.delivered).IsChain _
      cases hdelivered : s.delivered with
      | nil => exact List.isChain_singleton _
      | cons b rest =>
        rw [hdelivered] at hlast hchain
        have hb : b.status = s.eLastBroadcasted := hlast
        exact List.isChain_cons_cons.2 ⟨hb ▸ hne, hchain⟩
    · intro b hb hstatus
      rcases List.mem_cons.1 hb with rfl | hold
      · exact hcomplete hstatus
      · exact hs.kept.complete b hold hstatus
  · rw [if_neg fun hsend => hsend.elim hne Bool.false_ne_true]
    exact hs

theorem inv_reloadTopics {s : IgniteMQTTClient} (hs : Inv s) (strDeviceID : String)
    (servicesTopic : List ServiceTopic) : Inv (s.reloadTopics strDeviceID servicesTopic) :=
  ⟨hs.kept, hs.last, services_foldl _ _ servicesTopic [] (Or.inl rfl), hs.counts⟩

/-- A status changes nothing but the last one and what was delivered. -/
theorem broadcast_eq (eState : MqttConnectionState) (bForced : Bool) (s : IgniteMQTTClient) :
    ∃ eLastBroadcasted delivered, s.broadcast eState bForced =
      { s with eLastBroadcasted := eLastBroadcasted, delivered := delivered } := by
  unfold broadcast
  split_ifs
  · exact ⟨_, _, rfl⟩
  · exact ⟨_, _, rfl⟩

/-- A connect subscribes its topics, and counts them. -/
theorem inv_onConnect {s : IgniteMQTTClient} (hs : Inv s) (nRc : ℤ) : Inv (s.onConnect nRc) := by
  unfold onConnect
  by_cases hRc : nRc = 0
  · rw [if_pos hRc]
    dsimp only
    rw [foldl_subscribe]
    have hinv : Inv (s.resetCounts.broadcast .eSTATE_CONNECTED_BUT_TOPICS_SUBS_PENDING false) :=
      inv_broadcast ⟨hs.kept, hs.last, hs.services, Or.inl rfl⟩ nofun
    rcases broadcast_eq .eSTATE_CONNECTED_BUT_TOPICS_SUBS_PENDING false s.resetCounts with
      ⟨eLast, delivered, hsent⟩
    have hlength := hs.services.length_le
    have hone : toInt32 (0 + 1) = 1 := by decide
    have hnone : toInt32 ((0 : ℕ) : ℤ) = 0 := by decide
    have hcount : toInt32 (1 + s.mapFeaturesTopicMap.length) =
        1 + s.mapFeaturesTopicMap.length := Lib.toInt32_of_fits (by omega) (by omega)
    unfold broadcastConnStatus broadcastConnSubsPendingStatus
    dsimp only
    rw [hsent] at hinv ⊢
    refine ⟨hinv.kept, hinv.last, hinv.services, Or.inr ⟨?_, hnone.symm⟩⟩
    dsimp only [resetCounts, subscribe]
    rw [hone, hcount, List.nil_append, List.singleton_append, List.length_cons, List.length_map,
      Int.natCast_succ, Int.add_comm]
  · rw [if_neg hRc]
    exact ⟨hs.kept, hs.last, hs.services, hs.counts⟩

theorem inv_onDisconnect {s : IgniteMQTTClient} (hs : Inv s) : Inv s.onDisconnect := by
  have hlost : Inv { s with
      bConnected := false
      nNoOfTopicsToSubscribe := 0
      nNoOfTopicSubAckRcvd := 0 } := ⟨hs.kept, hs.last, hs.services, Or.inl rfl⟩
  exact inv_broadcast hlost nofun

/-- An acknowledgement that makes the counts equal is the last that was missing. -/
theorem inv_onSubscribe {s : IgniteMQTTClient} (hs : Inv s) : Inv s.onSubscribe := by
  have hack : Inv { s with
      nNoOfTopicSubAckRcvd := toInt32 (s.nNoOfTopicSubAckRcvd + 1)
      acks := s.acks + 1 } := by
    refine ⟨hs.kept, hs.last, hs.services, hs.counts.imp_right fun hcounts => ⟨hcounts.1, ?_⟩⟩
    show toInt32 (s.nNoOfTopicSubAckRcvd + 1) = toInt32 ((s.acks + 1 : ℕ) : ℤ)
    rw [hcounts.2, Lib.toInt32_add_one, Int.natCast_succ]
  unfold onSubscribe broadcastConnStatus broadcastConnSubsAckRcvdStatus
  dsimp only
  split_ifs with hequal
  · refine inv_broadcast hack fun _ => ?_
    rcases hs.counts with hzero | ⟨htopics, hacks⟩
    · exact absurd hzero.symm hequal.1
    · have hle : toInt32 ((s.acks + 1 : ℕ) : ℤ) ≤ ((s.acks + 1 : ℕ) : ℤ) :=
        Lib.toInt32_le (Int.natCast_nonneg _)
      have hsame := hequal.2.2
      rw [htopics, hacks, Lib.toInt32_add_one] at hsame
      rw [Int.natCast_succ] at hle
      show s.subscribed.length ≤ s.acks + 1
      omega
  · exact hack

theorem inv_stopClient {s : IgniteMQTTClient} (hs : Inv s) : Inv s.stopClient := by
  have hsent : Inv (s.broadcast .eSTATE_CONNECTION_TEARING_DOWN false) := inv_broadcast hs nofun
  exact ⟨hsent.kept, hsent.last, hsent.services, hsent.counts⟩

theorem inv_next {s s' : IgniteMQTTClient} {callback : MqttCallback} (hs : Inv s)
    (h : next s callback = some s') : Inv s' := by
  cases callback with
  | reloadTopics strDeviceID servicesTopic =>
    cases h
    exact inv_reloadTopics hs strDeviceID servicesTopic
  | on_connect nRc =>
    cases h
    exact inv_onConnect hs nRc
  | on_disconnect nRc =>
    cases h
    exact inv_onDisconnect hs
  | on_subscribe nMid =>
    cases h
    exact inv_onSubscribe hs
  | stopClient =>
    cases h
    exact inv_stopClient hs

/-- Whatever callbacks come in whatever order, also acknowledgements of a connection that
was lost: the dispatcher gets no status twice in a row, and `eSTATE_CONNECTION_COMPLETE`
only behind as many acknowledgements, since the last successful connect, as topics that
were subscribed since then. -/
theorem exec_statusesKept ( strTopicprefix : String) (callbacks : List MqttCallback)
    (s : IgniteMQTTClient) (hrun : Lib.exec next (new strTopicprefix) callbacks = some s) :
    StatusesKept s.delivered := by
  have hinv : Inv s := Lib.exec_inv_all (fun _ _ _ => inv_next) (inv_new strTopicprefix) hrun
  exact hinv.kept

/-- A connection with two topics that is lost between their acknowledgements, comes back,
gets a late one, and is stopped. -/
def flakyRun : List MqttCallback :=
  [.reloadTopics "D1" [⟨"RemoteOperation", "ro/pub", "ro/sub", 1⟩, ⟨"Other", "", "", 0⟩],
    .on_connect 0, .on_subscribe 1, .on_disconnect 7, .on_disconnect 7, .on_connect 5,
    .on_subscribe 2, .on_connect 0, .on_subscribe 3, .on_subscribe 4, .on_subscribe 5, .stopClient]

theorem exec_statusesKept_flaky : ∃ s, Lib.exec next (new "haa/") flakyRun = some s ∧
    s.delivered.map StatusBroadcast.status =
      [.eSTATE_CONNECTION_TEARING_DOWN, .eSTATE_CONNECTION_COMPLETE,
        .eSTATE_CONNECTED_BUT_TOPICS_SUBS_PENDING, .eSTATE_NOT_CONNECTED,
        .eSTATE_CONNECTED_BUT_TOPICS_SUBS_PENDING] ∧ StatusesKept s.delivered := by
  have hend : ((Lib.exec next (new "haa/") flakyRun).map fun s =>
      s.delivered.map StatusBroadcast.status) = some
      [.eSTATE_CONNECTION_TEARING_DOWN, .eSTATE_CONNECTION_COMPLETE,
        .eSTATE_CONNECTED_BUT_TOPICS_SUBS_PENDING, .eSTATE_NOT_CONNECTED,
        .eSTATE_CONNECTED_BUT_TOPICS_SUBS_PENDING] := by decide +kernel
  rcases Option.map_eq_some_iff.1 hend with ⟨s, hrun, hstatuses⟩
  exact ⟨s, hrun, hstatuses, exec_statusesKept "haa/" flakyRun s hrun⟩

end IgniteMQTTClient

end DeviceClient
