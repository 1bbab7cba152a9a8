import DeviceClient.Db.LocalConfig

/-!
# The VIN under the device id

`CTokenManager` stores a new device id and sends an `ActivationEvent`; the thread of
`CVinHandler` reads a VIN or an activation from its queue, reads what the other one is
known as, sends the VIN with a topic and stores it. The settings are rows of
`LocalConfig`. The two threads take their steps in any order.

* `next`: one step of one of them.
* `Pending`, `Inv`: what is still to be handled, and what then will have been sent.
* `inv_next`: a step with plain texts keeps it.
* `topiced_of_run`: so in every run the last VIN is sent under the last device id.
-/

namespace DeviceClient

/-- A text that a statement can hold between quotes. -/
def StorableText (text : String) : Prop := '\x27' ∉ text.toList ∧ NulFree text

instance (text : String) : Decidable (StorableText text) := inferInstanceAs (Decidable (_ ∧ _))

/-- A `VIN` event, with an empty topic if it comes from the device. -/
structure VinEvent where
  value : String
  topic : String
  dummy : Bool
deriving DecidableEq

/-- The events of the handler's queue. -/
inductive HandlerEvent
  | vin (event : VinEvent)
  | activation (id : String)
deriving DecidableEq

/-- Where `ProcessActivationResponse` stands. -/
inductive IdChangeStep
  | idle
  /-- before `Set("lastDeviceId", strNewDeviceId)` -/
  | setId (strNewDeviceId : String)
  /-- before the `ActivationEvent` is sent -/
  | sendEvent (strNewDeviceId : String)
deriving DecidableEq

/-- Where the handler's thread stands. -/
inductive HandlerStep
  | idle
  /-- `HandleVinEvent` before `Get("lastDeviceId")` -/
  | readId (strNewVin : String)
  /-- before `SendTopicedVinEvent` -/
  | sendVin (strNewVin strDeviceId : String)
  /-- before `Set("VIN", strNewVin)` -/
  | storeVin (strNewVin : String)
  /-- `HandleActivationEvent` before `Get("VIN")` -/
  | readVin (strDeviceId : String)
  /-- before `SendTopicedVinEvent` -/
  | sendId (strVin strDeviceId : String)
deriving DecidableEq

/-- The settings, the queue and the two threads; with the `VIN` events that were sent with a
topic, the last VIN and the last device id, empty if there is none. -/
structure VinDelivery where
  config : LocalConfigTable
  queue : List HandlerEvent
  manager : IdChangeStep
  handler : HandlerStep
  sent : List VinEvent
  lastVin : String
  lastId : String

inductive VinLabel
  /-- the device sends a `VIN` event -/
  | vin (strVin : String)
  /-- an activation response -/
  | activate (strNewDeviceId : String)
  | manager
  | handler
deriving DecidableEq

/-- The texts of a step are plain. -/
def VinLabel.Plain : VinLabel → Prop
  | .vin strVin => StorableText strVin
  | .activate strNewDeviceId => StorableText strNewDeviceId
  | .manager => True
  | .handler => True

instance : DecidablePred VinLabel.Plain
  | .vin strVin => inferInstanceAs (Decidable (StorableText strVin))
  | .activate strNewDeviceId => inferInstanceAs (Decidable (StorableText strNewDeviceId))
  | .manager => inferInstanceAs (Decidable True)
  | .handler => inferInstanceAs (Decidable True)

namespace VinDelivery

def DUMMY_VIN : String := "NA"

/-! ## The settings -/

theorem vin_unquoted : '\x27' ∉ "VIN".toList := by decide

theorem lastDeviceId_unquoted : '\x27' ∉ "lastDeviceId".toList := by decide

def keyVin : Unquoted := ⟨"VIN", vin_unquoted⟩

def keyLastDeviceId : Unquoted := ⟨"lastDeviceId", lastDeviceId_unquoted⟩

/-- `CLocalConfig::Set`; `broken` is what SQLite makes of a statement with a quote in a text. -/
def setConfig (broken : Unquoted → String → LocalConfigTable → LocalConfigTable)
    (strKey : Unquoted) (strValue : String) (t : LocalConfigTable) : LocalConfigTable :=
  if h : '\x27' ∉ strValue.toList then (t.set strKey ⟨strValue, h⟩).2 else broken strKey strValue t

/-! ## The steps -/

variable (broken : Unquoted → String → LocalConfigTable → LocalConfigTable)
  ( strTopicprefix : String)

/-- The VIN that the handler takes for the value of an event. -/
def newVin (value : String) : String := if value = "" then DUMMY_VIN else value

/-- The event of `SendTopicedVinEvent`. -/
def topicedVinEvent (rstrVIN rstrDeviceId : String) : VinEvent where
  value := rstrVIN
  topic := strTopicprefix ++ rstrDeviceId ++ "/2c/dvp"
  dummy := DUMMY_VIN = rstrVIN

/-- `SendTopicedVinEvent`: the event comes back to the handler's queue. -/
def sendTopicedVinEvent (rstrVIN rstrDeviceId : String) (s : VinDelivery) : VinDelivery :=
  { s with
    queue := s.queue ++ [.vin (topicedVinEvent strTopicprefix rstrVIN rstrDeviceId)]
    sent := s.sent ++ [topicedVinEvent strTopicprefix rstrVIN rstrDeviceId] }

/-- `ProcessActivationResponse`, as far as `lastDeviceId` goes: a known id changes nothing. -/
def processActivationResponse (strNewDeviceId : String) (s : VinDelivery) : VinDelivery :=
  if s.config.get keyLastDeviceId ≠ strNewDeviceId then
    { s with manager := .setId strNewDeviceId, lastId := strNewDeviceId }
  else { s with lastId := strNewDeviceId }

/-- The next step of the token manager in an activation. -/
def managerStep (s : VinDelivery) : Option VinDelivery :=
  match s.manager with
  | .idle => none
  | .setId strNewDeviceId =>
    some { s with
      config := setConfig broken keyLastDeviceId strNewDeviceId s.config
      manager := .sendEvent strNewDeviceId }
  | .sendEvent strNewDeviceId =>
    some { s with queue := s.queue ++ [.activation strNewDeviceId], manager := .idle }

/-- `ProcessEvent` with the event at the head of the queue. -/
def processEvent (s : VinDelivery) : Option VinDelivery :=
  match s.queue with
  | [] => none
  | .vin event :: queue =>
    if event.topic ≠ "" then some { s with queue := queue }
    else some { s with queue := queue, handler := .readId (newVin event.value) }
  | .activation id :: queue => some { s with queue := queue, handler := .readVin id }

/-- The next step of the handler. -/
def handlerStep (s : VinDelivery) : Option VinDelivery :=
  match s.handler with
  | .idle => s.processEvent
  | .readId strNewVin =>
    if s.config.get keyLastDeviceId ≠ "" then
      some { s with handler := .sendVin strNewVin (s.config.get keyLastDeviceId) }
    else some { s with handler := .storeVin strNewVin }
  | .sendVin strNewVin strDeviceId =>
    some { s.sendTopicedVinEvent strTopicprefix strNewVin strDeviceId with
      handler := .storeVin strNewVin }
  | .storeVin strNewVin =>
    some { s with config := setConfig broken keyVin strNewVin s.config, handler := .idle }
  | .readVin strDeviceId =>
    if s.config.get keyVin ≠ "" then
      some { s with handler := .sendId (s.config.get keyVin) strDeviceId }
    else some { s with handler := .idle }
  | .sendId strVin strDeviceId =>
    some { s.sendTopicedVinEvent strTopicprefix strVin strDeviceId with handler := .idle }

/-- One step; an activation begins where the one before has ended. -/
def next (s : VinDelivery) : VinLabel → Option VinDelivery
  | .vin strVin =>
    some { s with queue := s.queue ++ [.vin ⟨strVin, "", false⟩], lastVin := newVin strVin }
  | .activate strNewDeviceId =>
    if s.manager = .idle then some (s.processActivationResponse strNewDeviceId) else none
  | .manager => s.managerStep broken
  | .handler => s.handlerStep broken strTopicprefix

/-- Nothing is under way. -/
def start (t : LocalConfigTable) : VinDelivery :=
  ⟨t, [], .idle, .idle, [], t.get keyVin, t.get keyLastDeviceId⟩

/-- All events have been handled. -/
def Quiet (s : VinDelivery) : Prop := s.queue = [] ∧ s.manager = .idle ∧ s.handler = .idle

/-- The last VIN, if there is one, has been sent last under the last device id, and a `VIN` event
with a topic is handled without anything being sent or stored. -/
structure Delivered (s : VinDelivery) : Prop where
  last : s.Quiet → s.lastVin ≠ "" → s.lastId ≠ "" →
    s.sent.getLast? = some (topicedVinEvent strTopicprefix s.lastVin s.lastId)
  silent : ∀ event queue, s.handler = .idle → s.queue = .vin event :: queue → event.topic ≠ "" →
    s.next broken strTopicprefix .handler = some { s with queue := queue }

/-- The step brings a VIN, or a device id that is not the stored one. -/
def News (t : LocalConfigTable) : VinLabel → Prop
  | .vin _ => True
  | .activate strNewDeviceId => t.get keyLastDeviceId ≠ strNewDeviceId
  | .manager => False
  | .handler => False

/-! ## What is still to be handled -/

/-- An event that the handler does something for. -/
def counts : HandlerEvent → Bool
  | .vin event => event.topic = ""
  | .activation _ => true

/-- The event that the token manager is about to send. -/
def managerPending : IdChangeStep → List HandlerEvent
  | .idle => []
  | .setId strNewDeviceId => [.activation strNewDeviceId]
  | .sendEvent strNewDeviceId => [.activation strNewDeviceId]

/-- The events that are still to be handled. -/
def pending (s : VinDelivery) : List HandlerEvent :=
  s.queue.filter counts ++ managerPending s.manager

/-- The VIN that is known behind an event. -/
def vinAfter (strVin : String) : HandlerEvent → String
  | .vin event => newVin event.value
  | .activation _ => strVin

/-- The VIN that is stored, or about to be stored. -/
def vinAt (strStored : String) : HandlerStep → String
  | .readId strNewVin => strNewVin
  | .sendVin strNewVin _ => strNewVin
  | .storeVin strNewVin => strNewVin
  | _ => strStored

/-- The VIN that the handler knows behind the event that it is at. -/
def handlerVin (s : VinDelivery) : String := vinAt (s.config.get keyVin) s.handler

/-- The device id is the stored one, or the one that is about to be stored. -/
def IdKnown (s : VinDelivery) : Prop :=
  match s.manager with
  | .idle => s.config.get keyLastDeviceId = s.lastId
  | .setId strNewDeviceId => strNewDeviceId = s.lastId
  | .sendEvent strNewDeviceId =>
    strNewDeviceId = s.lastId ∧ s.config.get keyLastDeviceId = s.lastId

/-- With no other event to handle: what is or will be sent is the last VIN under the last id. -/
def AtEnd (s : VinDelivery) : Prop :=
  match s.handler with
  | .idle => s.lastVin ≠ "" → s.lastId ≠ "" →
      s.sent.getLast? = some (topicedVinEvent strTopicprefix s.lastVin s.lastId)
  | .readId _ => True
  | .sendVin _ strDeviceId => strDeviceId = s.lastId
  | .storeVin strNewVin => s.lastId ≠ "" →
      s.sent.getLast? = some (topicedVinEvent strTopicprefix strNewVin s.lastId)
  | .readVin strDeviceId => strDeviceId = s.lastId
  | .sendId _ strDeviceId => strDeviceId = s.lastId

/-- The texts that are still to be stored are plain. -/
structure StorableTexts (s : VinDelivery) : Prop where
  queue : ∀ event, .vin event ∈ s.queue → event.topic = "" → StorableText event.value
  manager : ∀ strNewDeviceId, s.manager = .setId strNewDeviceId → StorableText strNewDeviceId
  handler : ∀ strNewVin, s.handler = .readId strNewVin ∨ s.handler = .storeVin strNewVin ∨
    (∃ strDeviceId, s.handler = .sendVin strNewVin strDeviceId) → StorableText strNewVin

structure Inv (s : VinDelivery) : Prop where
  id : s.IdKnown
  vin : s.pending.foldl vinAfter s.handlerVin = s.lastVin
  event : ∀ strDeviceId, s.pending.getLast? = some (.activation strDeviceId) →
    strDeviceId = s.lastId
  read : ∀ strVin strDeviceId, s.handler = .sendId strVin strDeviceId →
    strVin = s.config.get keyVin
  atEnd : s.pending = [] → s.AtEnd strTopicprefix
  plain : s.StorableTexts

/-! ## Texts -/

theorem storableText_newVin {value : String} (h : StorableText value) : StorableText (newVin value) := by
  unfold newVin
  split
  · decide
  · exact h

theorem storableText_empty : StorableText "" := by decide

/-- A VIN that is to be stored is the one that the handler is at. -/
theorem storableText_of_vinAt {handler : HandlerStep} (h : StorableText (vinAt "" handler)) :
    ∀ strNewVin, handler = .readId strNewVin ∨ handler = .storeVin strNewVin ∨
      (∃ strDeviceId, handler = .sendVin strNewVin strDeviceId) → StorableText strNewVin := by
  rintro strNewVin (rfl | rfl | ⟨_, rfl⟩)
  · exact h
  · exact h
  · exact h

theorem topic_ne_empty (rstrVIN rstrDeviceId : String) :
    (topicedVinEvent strTopicprefix rstrVIN rstrDeviceId).topic ≠ "" := by
  intro h
  have hlen := congrArg String.length h
  unfold topicedVinEvent at hlen
  simp only [String.length_append] at hlen
  have hdvp : "/2c/dvp".length = 7 := by decide
  have hempty : "".length = 0 := by decide
  omega

/-- A plain text is read back, the other setting is as before. -/
theorem get_setConfig {strKey : Unquoted} (hkey : NulFree strKey) {strValue : String}
    (hvalue : StorableText strValue) (t : LocalConfigTable) (key : Unquoted) :
    (setConfig broken strKey strValue t).get key =
      if key = strKey then strValue else t.get key := by
  unfold setConfig
  rw [dif_pos hvalue.1, LocalConfigTable.get_eq,
    (LocalConfigTable.set_of_fits hkey hvalue.2).2]
  by_cases hk : key = strKey
  · rw [if_pos hk, hk, Function.update_self]
    rfl
  · rw [if_neg hk, Function.update_of_ne fun h => hk (Subtype.ext h), LocalConfigTable.get_eq]

/-! ## The pending events -/

theorem counts_topiced (rstrVIN rstrDeviceId : String) :
    counts (.vin (topicedVinEvent strTopicprefix rstrVIN rstrDeviceId)) = false :=
  decide_eq_false (topic_ne_empty strTopicprefix rstrVIN rstrDeviceId)

/-- What is sent with a topic is not pending. -/
theorem pending_sendTopicedVinEvent (rstrVIN rstrDeviceId : String) (s : VinDelivery) :
    (s.sendTopicedVinEvent strTopicprefix rstrVIN rstrDeviceId).pending = s.pending := by
  unfold pending sendTopicedVinEvent
  rw [List.filter_append, List.filter_cons_of_neg (by simp [counts_topiced]), List.filter_nil,
    List.append_nil]

/-- An activation leaves the VIN. -/
theorem foldl_managerPending (strVin : String) (step : IdChangeStep) :
    (managerPending step).foldl vinAfter strVin = strVin := by
  cases step <;> rfl

theorem managerPending_eq_nil {step : IdChangeStep} : managerPending step = [] ↔ step = .idle := by
  cases step <;> simp [managerPending]

variable { strTopicprefix} in
/-- With nothing pending the stored device id is the last one. -/
theorem Inv.get_lastDeviceId {s : VinDelivery} (h : s.Inv strTopicprefix) (hnil : s.pending = []) :
    s.config.get keyLastDeviceId = s.lastId := by
  have hidle := managerPending_eq_nil.1 (List.append_eq_nil_iff.1 hnil).2
  have hid := h.id
  unfold IdKnown at hid
  rw [hidle] at hid
  exact hid

variable { strTopicprefix} in
/-- And the VIN that the handler knows is the last one. -/
theorem Inv.handlerVin_eq {s : VinDelivery} (h : s.Inv strTopicprefix) (hnil : s.pending = []) :
    s.handlerVin = s.lastVin := by
  have hvin := h.vin
  rw [hnil] at hvin
  exact hvin

/-! ## The steps of the device and the token manager -/

variable { strTopicprefix} {s : VinDelivery}

theorem inv_vin (h : s.Inv strTopicprefix) {strVin : String} (hplain : StorableText strVin) :
    Inv strTopicprefix
      { s with queue := s.queue ++ [.vin ⟨strVin, "", false⟩], lastVin := newVin strVin } := by
  have hpending : pending
      { s with queue := s.queue ++ [.vin ⟨strVin, "", false⟩], lastVin := newVin strVin } =
      s.queue.filter counts ++ [.vin ⟨strVin, "", false⟩] ++ managerPending s.manager := by
    unfold pending
    rw [List.filter_append]
    rfl
  refine ⟨h.id, ?_, fun strDeviceId hlast => ?_, h.read, fun hnil => ?_, ?_⟩
  · rw [hpending, List.foldl_append, List.foldl_append]
    exact foldl_managerPending _ _
  · rw [hpending] at hlast
    have hid := h.id
    unfold IdKnown at hid
    cases hm : s.manager with
    | idle =>
      rw [hm, managerPending, List.append_nil, List.getLast?_concat] at hlast
      cases hlast
    | setId strNewDeviceId =>
      rw [hm, managerPending, List.getLast?_concat] at hlast
      rw [hm] at hid
      cases hlast
      exact hid
    | sendEvent strNewDeviceId =>
      rw [hm, managerPending, List.getLast?_concat] at hlast
      rw [hm] at hid
      cases hlast
      exact hid.1
  · rw [hpending] at hnil
    simp at hnil
  · refine ⟨fun event hmem htopic => ?_, h.plain.manager, h.plain.handler⟩
    rcases List.mem_append.1 hmem with hold | hnew
    · exact h.plain.queue event hold htopic
    · cases List.mem_singleton.1 hnew
      exact hplain

theorem inv_activate (h : s.Inv strTopicprefix) (hidle : s.manager = .idle)
    {strNewDeviceId : String} (hplain : StorableText strNewDeviceId) :
    Inv strTopicprefix (s.processActivationResponse strNewDeviceId) := by
  have hid := h.id
  unfold IdKnown at hid
  rw [hidle] at hid
  unfold processActivationResponse
  by_cases hsame : s.config.get keyLastDeviceId = strNewDeviceId
  · -- the id is known already
    rw [if_neg (not_not.2 hsame)]
    have hs : { s with lastId := strNewDeviceId } = s := by rw [← hsame, hid]
    rw [hs]
    exact h
  · rw [if_pos hsame]
    have hpending : pending
        { s with manager := .setId strNewDeviceId, lastId := strNewDeviceId } =
        s.pending ++ [.activation strNewDeviceId] := by
      unfold pending
      rw [hidle]
      simp [managerPending]
    refine ⟨rfl, ?_, fun strDeviceId hlast => ?_, h.read, fun hnil => ?_,
      h.plain.queue, fun _ hset => ?_, h.plain.handler⟩
    · rw [hpending, List.foldl_append]
      exact h.vin
    · rw [hpending, List.getLast?_concat] at hlast
      cases hlast
      rfl
    · rw [hpending] at hnil
      simp at hnil
    · cases hset
      exact hplain

theorem keyVin_ne : keyVin ≠ keyLastDeviceId := by decide

/-- What the handler knows depends on the stored VIN only. -/
theorem handlerVin_congr {s' : VinDelivery} (hhandler : s'.handler = s.handler)
    (hvin : s'.config.get keyVin = s.config.get keyVin) : s'.handlerVin = s.handlerVin := by
  unfold handlerVin
  rw [hhandler, hvin]

/-- The new device id is stored. -/
theorem inv_setId (h : s.Inv strTopicprefix) {strNewDeviceId : String}
    (hm : s.manager = .setId strNewDeviceId) :
    Inv strTopicprefix { s with
      config := setConfig broken keyLastDeviceId strNewDeviceId s.config
      manager := .sendEvent strNewDeviceId } := by
  have hid := h.id
  unfold IdKnown at hid
  rw [hm] at hid
  have hplain := h.plain.manager strNewDeviceId hm
  have hget := @get_setConfig broken keyLastDeviceId (by decide) _ hplain s.config
  have hvin : (setConfig broken keyLastDeviceId strNewDeviceId s.config).get keyVin =
      s.config.get keyVin := (hget keyVin).trans (if_neg keyVin_ne)
  have hpending : pending { s with
      config := setConfig broken keyLastDeviceId strNewDeviceId s.config
      manager := .sendEvent strNewDeviceId } = s.pending := by
    unfold pending
    rw [hm]
    rfl
  have hknown : handlerVin { s with
      config := setConfig broken keyLastDeviceId strNewDeviceId s.config
      manager := .sendEvent strNewDeviceId } = s.handlerVin := handlerVin_congr rfl hvin
  refine ⟨⟨hid, ((hget keyLastDeviceId).trans (if_pos rfl)).trans hid⟩, ?_, ?_, ?_, ?_,
    h.plain.queue, fun _ hset => (by cases hset), h.plain.handler⟩
  · rw [hpending, hknown]
    exact h.vin
  · rw [hpending]
    exact h.event
  · exact fun strVin strDeviceId hsend => (h.read strVin strDeviceId hsend).trans hvin.symm
  · intro hnil
    exact absurd (managerPending_eq_nil.1 (List.append_eq_nil_iff.1 hnil).2) (by simp)

/-- The activation comes to the queue. -/
theorem inv_sendEvent (h : s.Inv strTopicprefix) {strNewDeviceId : String}
    (hm : s.manager = .sendEvent strNewDeviceId) :
    Inv strTopicprefix
      { s with queue := s.queue ++ [.activation strNewDeviceId], manager := .idle } := by
  have hid := h.id
  unfold IdKnown at hid
  rw [hm] at hid
  have hpending : pending { s with
      queue := s.queue ++ [.activation strNewDeviceId], manager := .idle } = s.pending := by
    unfold pending
    rw [hm, List.filter_append]
    simp [counts, managerPending]
  refine ⟨hid.2, ?_, ?_, h.read, fun hnil => ?_, fun event hmem htopic => ?_,
    fun _ hset => (by cases hset), h.plain.handler⟩
  · rw [hpending]
    exact h.vin
  · rw [hpending]
    exact h.event
  · rw [hpending] at hnil
    exact h.atEnd hnil
  · rcases List.mem_append.1 hmem with hold | hnew
    · exact h.plain.queue event hold htopic
    · cases List.mem_singleton.1 hnew

theorem inv_managerStep (h : s.Inv strTopicprefix) {s' : VinDelivery}
    (hstep : s.managerStep broken = some s') : s'.Inv strTopicprefix := by
  unfold managerStep at hstep
  cases hm : s.manager with
  | idle =>
    rw [hm] at hstep
    cases hstep
  | setId strNewDeviceId =>
    rw [hm] at hstep
    cases hstep
    exact inv_setId broken h hm
  | sendEvent strNewDeviceId =>
    rw [hm] at hstep
    cases hstep
    exact inv_sendEvent h hm

/-! ## The steps of the handler -/

/-- The events behind the head of the queue are plain. -/
theorem Inv.plain_tail (h : s.Inv strTopicprefix) {event : HandlerEvent} {queue : List HandlerEvent}
    (hq : s.queue = event :: queue) :
    ∀ event', .vin event' ∈ queue → event'.topic = "" → StorableText event'.value := by
  intro event' hmem
  refine h.plain.queue event' ?_
  rw [hq]
  exact List.mem_cons_of_mem _ hmem

/-- An event of the device: it is the handler's now. -/
theorem inv_ownEvent (h : s.Inv strTopicprefix) (hidle : s.handler = .idle) {event : VinEvent}
    {queue : List HandlerEvent} (hq : s.queue = .vin event :: queue) (htopic : event.topic = "") :
    Inv strTopicprefix { s with queue := queue, handler := .readId (newVin event.value) } := by
  have hpending : s.pending = .vin event :: pending
      { s with queue := queue, handler := .readId (newVin event.value) } := by
    unfold pending
    rw [hq, List.filter_cons_of_pos (by simp [counts, htopic])]
    rfl
  have hvin := h.vin
  unfold handlerVin at hvin
  rw [hidle, hpending] at hvin
  have hhead : .vin event ∈ s.queue := by
    rw [hq]
    exact List.mem_cons_self
  refine ⟨h.id, hvin, fun strDeviceId hlast => h.event strDeviceId ?_,
    fun _ _ hsend => (by cases hsend), fun _ => trivial, h.plain_tail hq, h.plain.manager, ?_⟩
  · rw [hpending, List.getLast?_cons, hlast]
    rfl
  · exact storableText_of_vinAt (storableText_newVin (h.plain.queue event hhead htopic))

/-- An event with a topic: it is dropped. -/
theorem inv_topicedEvent (h : s.Inv strTopicprefix) {event : VinEvent} {queue : List HandlerEvent}
    (hq : s.queue = .vin event :: queue) (htopic : event.topic ≠ "") :
    Inv strTopicprefix { s with queue := queue } := by
  have hpending : pending { s with queue := queue } = s.pending := by
    unfold pending
    rw [hq, List.filter_cons_of_neg (by simp [counts, htopic])]
  refine ⟨h.id, ?_, ?_, h.read, fun hnil => ?_, h.plain_tail hq, h.plain.manager, h.plain.handler⟩
  · rw [hpending]
    exact h.vin
  · rw [hpending]
    exact h.event
  · rw [hpending] at hnil
    exact h.atEnd hnil

/-- An activation: it is the handler's now. -/
theorem inv_activation (h : s.Inv strTopicprefix) (hidle : s.handler = .idle) {id : String}
    {queue : List HandlerEvent} (hq : s.queue = .activation id :: queue) :
    Inv strTopicprefix { s with queue := queue, handler := .readVin id } := by
  have hpending : s.pending = .activation id :: pending
      { s with queue := queue, handler := .readVin id } := by
    unfold pending
    rw [hq]
    rfl
  have hvin := h.vin
  unfold handlerVin at hvin
  rw [hidle, hpending] at hvin
  refine ⟨h.id, hvin, fun strDeviceId hlast => h.event strDeviceId ?_,
    fun _ _ hsend => (by cases hsend), fun hnil => h.event id ?_, h.plain_tail hq,
    h.plain.manager, storableText_of_vinAt storableText_empty⟩
  · rw [hpending, List.getLast?_cons, hlast]
    rfl
  · rw [hpending, hnil]
    rfl

theorem inv_processEvent (h : s.Inv strTopicprefix) (hidle : s.handler = .idle)
    {s' : VinDelivery} (hstep : s.processEvent = some s') : s'.Inv strTopicprefix := by
  unfold processEvent at hstep
  cases hq : s.queue with
  | nil =>
    rw [hq] at hstep
    cases hstep
  | cons event queue =>
    rw [hq] at hstep
    cases event with
    | vin event =>
      by_cases htopic : event.topic = ""
      · simp only [ne_eq, htopic, not_true_eq_false, if_false] at hstep
        cases hstep
        exact inv_ownEvent h hidle hq htopic
      · simp only [ne_eq, htopic, not_false_eq_true, if_true] at hstep
        cases hstep
        exact inv_topicedEvent h hq htopic
    | activation id =>
      cases hstep
      exact inv_activation h hidle hq

/-- The handler comes to its next step with the VIN that it knows; nothing is stored. -/
theorem inv_handler (h : s.Inv strTopicprefix) {handler : HandlerStep}
    (hknown : handlerVin { s with handler := handler } = s.handlerVin)
    (hread : ∀ strVin strDeviceId, handler = .sendId strVin strDeviceId →
      strVin = s.config.get keyVin)
    (hend : s.pending = [] → AtEnd strTopicprefix { s with handler := handler })
    (hplain : StorableText (vinAt "" handler)) :
    Inv strTopicprefix { s with handler := handler } := by
  refine ⟨h.id, ?_, h.event, hread, hend, h.plain.queue, h.plain.manager,
    storableText_of_vinAt hplain⟩
  rw [hknown]
  exact h.vin

/-- The same, where the handler sends the VIN with a topic. -/
theorem inv_sent (h : s.Inv strTopicprefix) (rstrVIN rstrDeviceId : String)
    {handler : HandlerStep}
    (hknown : handlerVin { s with handler := handler } = s.handlerVin)
    (hread : ∀ strVin strDeviceId, handler ≠ .sendId strVin strDeviceId)
    (hend : s.pending = [] → AtEnd strTopicprefix
      { s.sendTopicedVinEvent strTopicprefix rstrVIN rstrDeviceId with handler := handler })
    (hplain : StorableText (vinAt "" handler)) :
    Inv strTopicprefix
      { s.sendTopicedVinEvent strTopicprefix rstrVIN rstrDeviceId with handler := handler } := by
  have hpending : pending
      { s.sendTopicedVinEvent strTopicprefix rstrVIN rstrDeviceId with handler := handler } =
      s.pending := pending_sendTopicedVinEvent strTopicprefix rstrVIN rstrDeviceId s
  refine ⟨h.id, ?_, ?_, fun strVin strDeviceId hs => absurd hs (hread strVin strDeviceId),
    fun hnil => hend (hpending ▸ hnil), fun event hmem htopic => ?_, h.plain.manager,
    storableText_of_vinAt hplain⟩
  · rw [hpending]
    have hvin := h.vin
    rw [← hknown] at hvin
    exact hvin
  · rw [hpending]
    exact h.event
  · rcases List.mem_append.1 hmem with hold | hnew
    · exact h.plain.queue event hold htopic
    · cases List.mem_singleton.1 hnew
      exact absurd htopic (topic_ne_empty strTopicprefix rstrVIN rstrDeviceId)

theorem inv_storeVin (h : s.Inv strTopicprefix) {strNewVin : String}
    (hh : s.handler = .storeVin strNewVin) :
    Inv strTopicprefix
      { s with config := setConfig broken keyVin strNewVin s.config, handler := .idle } := by
  have hplain := h.plain.handler strNewVin (Or.inr (Or.inl hh))
  have hget := @get_setConfig broken keyVin (by decide) _ hplain s.config
  have hid : (setConfig broken keyVin strNewVin s.config).get keyLastDeviceId =
      s.config.get keyLastDeviceId := (hget keyLastDeviceId).trans (if_neg keyVin_ne.symm)
  have hknown : handlerVin
      { s with config := setConfig broken keyVin strNewVin s.config, handler := .idle } =
      s.handlerVin := by
    unfold handlerVin
    rw [hh]
    exact (hget keyVin).trans (if_pos rfl)
  refine ⟨?_, ?_, h.event, fun _ _ hsend => (by cases hsend), fun hnil => ?_, h.plain.queue,
    h.plain.manager, ?_⟩
  · have hids := h.id
    unfold IdKnown at hids ⊢
    rw [hid]
    exact hids
  · rw [hknown]
    exact h.vin
  · have hlast := h.handlerVin_eq hnil
    have hend := h.atEnd hnil
    unfold AtEnd at hend
    unfold handlerVin at hlast
    rw [hh] at hend hlast
    intro _ hne
    rw [← show strNewVin = s.lastVin from hlast]
    exact hend hne
  · exact storableText_of_vinAt storableText_empty

theorem inv_handlerStep (h : s.Inv strTopicprefix) {s' : VinDelivery}
    (hstep : s.handlerStep broken strTopicprefix = some s') : s'.Inv strTopicprefix := by
  have hend := h.atEnd
  unfold AtEnd at hend
  have hknown : s.handlerVin = vinAt (s.config.get keyVin) s.handler := rfl
  unfold handlerStep at hstep
  cases hh : s.handler with
  | idle =>
    rw [hh] at hstep
    exact inv_processEvent h hh hstep
  | readId strNewVin =>
    rw [hh] at hstep hknown
    have hplain := h.plain.handler strNewVin (Or.inl hh)
    by_cases hid : s.config.get keyLastDeviceId = ""
    · simp only [ne_eq, hid, not_true_eq_false, if_false] at hstep
      cases hstep
      refine inv_handler h hknown.symm (fun _ _ hsend => by cases hsend) (fun hnil hne => ?_) hplain
      exact absurd ((h.get_lastDeviceId hnil).symm.trans hid) hne
    · simp only [ne_eq, hid, not_false_eq_true, if_true] at hstep
      cases hstep
      exact inv_handler h hknown.symm (fun _ _ hsend => by cases hsend)
        (fun hnil => h.get_lastDeviceId hnil) hplain
  | sendVin strNewVin strDeviceId =>
    rw [hh] at hstep hknown hend
    have hplain := h.plain.handler strNewVin (Or.inr (Or.inr ⟨strDeviceId, hh⟩))
    cases hstep
    refine inv_sent h strNewVin strDeviceId hknown.symm (fun _ _ hsend => by cases hsend)
      (fun hnil _ => ?_) hplain
    exact List.getLast?_concat.trans
      (congrArg (fun id => some (topicedVinEvent strTopicprefix strNewVin id)) (hend hnil))
  | storeVin strNewVin =>
    rw [hh] at hstep
    cases hstep
    exact inv_storeVin broken h hh
  | readVin strDeviceId =>
    rw [hh] at hstep hknown hend
    by_cases hvin : s.config.get keyVin = ""
    · simp only [ne_eq, hvin, not_true_eq_false, if_false] at hstep
      cases hstep
      refine inv_handler h hknown.symm (fun _ _ hsend => by cases hsend) (fun hnil hne => ?_)
        storableText_empty
      -- no VIN is known
      exact absurd ((h.handlerVin_eq hnil).symm.trans (hknown.trans hvin)) hne
    · simp only [ne_eq, hvin, not_false_eq_true, if_true] at hstep
      cases hstep
      exact inv_handler h hknown.symm (fun _ _ hsend => by cases hsend; rfl) hend storableText_empty
  | sendId strVin strDeviceId =>
    rw [hh] at hstep hknown hend
    cases hstep
    refine inv_sent h strVin strDeviceId hknown.symm (fun _ _ hsend => by cases hsend)
      (fun hnil _ _ => ?_) storableText_empty
    have hlast : strVin = s.lastVin :=
      (h.read strVin strDeviceId hh).trans (hknown.symm.trans (h.handlerVin_eq hnil))
    rw [show strDeviceId = s.lastId from hend hnil, hlast]
    exact List.getLast?_concat

/-! ## Runs -/

/-- A step with plain texts keeps the invariant. -/
theorem inv_next {label : VinLabel} (hplain : label.Plain) (h : s.Inv strTopicprefix)
    {s' : VinDelivery} (hnext : s.next broken strTopicprefix label = some s') :
    s'.Inv strTopicprefix := by
  cases label with
  | vin strVin =>
    cases hnext
    exact inv_vin h hplain
  | activate strNewDeviceId =>
    obtain ⟨hidle, hsome⟩ := Option.ite_none_right_eq_some.1 hnext
    cases hsome
    exact inv_activate h hidle hplain
  | manager => exact inv_managerStep broken h hnext
  | handler => exact inv_handlerStep broken h hnext

/-- In fresh settings at most one of the two is known, and nothing is to be sent. -/
theorem inv_start {t : LocalConfigTable} (h : t.get keyVin = "" ∨ t.get keyLastDeviceId = "") :
    (start t).Inv strTopicprefix := by
  refine ⟨rfl, rfl, fun _ hlast => (by cases hlast), fun _ _ hsend => (by cases hsend),
    fun _ hvin hid => ?_, ?_⟩
  · exact absurd h (not_or.2 ⟨hvin, hid⟩)
  · exact ⟨fun _ hmem => absurd hmem List.not_mem_nil, fun _ hset => (by cases hset),
      storableText_of_vinAt storableText_empty⟩

/-- A new device id is to be stored. -/
theorem processActivationResponse_of_ne {strNewDeviceId : String}
    (h : s.config.get keyLastDeviceId ≠ strNewDeviceId) :
    s.processActivationResponse strNewDeviceId =
      { s with manager := .setId strNewDeviceId, lastId := strNewDeviceId } :=
  if_pos h

/-- What has been sent matters once everything has been handled. -/
theorem Inv.withSent (h : s.Inv strTopicprefix) (hne : s.pending ≠ []) (sent : List VinEvent) :
    Inv strTopicprefix { s with sent := sent } :=
  ⟨h.id, h.vin, h.event, h.read, fun hnil => absurd hnil hne,
    ⟨h.plain.queue, h.plain.manager, h.plain.handler⟩⟩

/-- Where both are known, the invariant holds of the settings had the VIN been sent before. -/
theorem inv_start_sent (t : LocalConfigTable) :
    Inv strTopicprefix { start t with
      sent := [topicedVinEvent strTopicprefix (t.get keyVin) (t.get keyLastDeviceId)] } := by
  refine ⟨rfl, rfl, fun _ hlast => (by cases hlast), fun _ _ hsend => (by cases hsend),
    fun _ _ _ => rfl, ?_⟩
  exact ⟨fun _ hmem => absurd hmem List.not_mem_nil, fun _ hset => (by cases hset),
    storableText_of_vinAt storableText_empty⟩

/-- The first step with news gives the handler something to do, whatever has been sent. -/
theorem inv_next_start {t : LocalConfigTable} {label : VinLabel} (hnews : News t label)
    (hplain : label.Plain) {s' : VinDelivery}
    (hnext : (start t).next broken strTopicprefix label = some s') : s'.Inv strTopicprefix := by
  cases label with
  | vin strVin =>
    cases hnext
    exact (inv_vin (inv_start_sent t) hplain).withSent (List.cons_ne_nil _ _) []
  | activate strNewDeviceId =>
    have hne : t.get keyLastDeviceId ≠ strNewDeviceId := hnews
    have hsent : Inv strTopicprefix _ := inv_start_sent t
    have hinv := inv_activate hsent rfl hplain
    change Inv strTopicprefix (processActivationResponse strNewDeviceId _) at hinv
    rw [processActivationResponse_of_ne hne] at hinv
    change some ((start t).processActivationResponse strNewDeviceId) = some s' at hnext
    rw [processActivationResponse_of_ne hne] at hnext
    cases hnext
    exact hinv.withSent (List.cons_ne_nil _ _) []
  | manager => exact hnews.elim
  | handler => exact hnews.elim

/-- A step without news changes nothing while there is nothing to do. -/
theorem next_start {t : LocalConfigTable} {label : VinLabel} (hnews : ¬ News t label)
    {s' : VinDelivery} (hnext : (start t).next broken strTopicprefix label = some s') :
    s' = start t := by
  cases label with
  | vin strVin => exact absurd trivial hnews
  | activate strNewDeviceId =>
    have hsame : (start t).config.get keyLastDeviceId = strNewDeviceId := not_not.1 hnews
    change some ((start t).processActivationResponse strNewDeviceId) = some s' at hnext
    unfold processActivationResponse at hnext
    rw [if_neg (not_not.2 hsame)] at hnext
    cases hnext
    rw [← hsame]
    rfl
  | manager => cases hnext
  | handler => cases hnext

/-- A run that brings something new keeps the invariant from its first news on. -/
theorem inv_run {t : LocalConfigTable} {labels : List VinLabel}
    (hnews : ∃ label ∈ labels, News t label) (hplain : ∀ label ∈ labels, label.Plain)
    (hrun : Lib.exec (next broken strTopicprefix) (start t) labels = some s) :
    s.Inv strTopicprefix := by
  induction labels with
  | nil =>
    obtain ⟨_, hmem, _⟩ := hnews
    exact absurd hmem List.not_mem_nil
  | cons label labels ih =>
    have hrest := fun l hl => hplain l (List.mem_cons_of_mem label hl)
    rw [Lib.exec_cons, Option.bind_eq_some_iff] at hrun
    obtain ⟨s', hnext, hrun⟩ := hrun
    by_cases hfirst : News t label
    · have hinv := inv_next_start broken hfirst (hplain label List.mem_cons_self) hnext
      exact Lib.exec_inv (fun _ _ _ hs hlabel hnext => inv_next broken hlabel hs hnext) labels s' s
        hinv (Lib.along_of_forall_mem (fun l hl _ => hrest l hl) _) hrun
    · rw [next_start broken hfirst hnext] at hrun
      obtain ⟨l, hmem, hl⟩ := hnews
      rcases List.mem_cons.1 hmem with rfl | hmem
      · exact absurd hl hfirst
      · exact ih ⟨l, hmem, hl⟩ hrest hrun

/-- A `VIN` event with a topic is dropped. -/
theorem next_of_topic {event : VinEvent} {queue : List HandlerEvent} (hidle : s.handler = .idle)
    (hqueue : s.queue = .vin event :: queue) (htopic : event.topic ≠ "") :
    s.next broken strTopicprefix .handler = some { s with queue := queue } := by
  change s.handlerStep broken strTopicprefix = _
  unfold handlerStep processEvent
  rw [hidle, hqueue]
  exact if_pos htopic

variable ( strTopicprefix) in
/-- In every run with plain texts that brings a VIN or a new device id, or starts where one of the
two is not known, the last VIN is sent last under the last device id once all events have been
handled. -/
theorem topiced_of_run {t : LocalConfigTable} {labels : List VinLabel}
    (hstart : t.get keyVin = "" ∨ t.get keyLastDeviceId = "" ∨ ∃ label ∈ labels, News t label)
    (hplain : ∀ label ∈ labels, label.Plain)
    (hrun : Lib.exec (next broken strTopicprefix) (start t) labels = some s) :
    s.Delivered broken strTopicprefix := by
  have hinv : s.Inv strTopicprefix := by
    rcases or_assoc.2 hstart with hfresh | hnews
    · exact Lib.exec_inv (fun _ _ _ hs hlabel hnext => inv_next broken hlabel hs hnext) labels
        (start t) s (inv_start hfresh) (Lib.along_of_forall_mem (fun l hl _ => hplain l hl) _) hrun
    · exact inv_run broken hnews hplain hrun
  refine ⟨fun ⟨hqueue, hmanager, hhandler⟩ hvin hid => ?_, fun event queue => next_of_topic broken⟩
  have hnil : s.pending = [] := by
    unfold pending
    rw [hqueue, hmanager]
    rfl
  have hend := hinv.atEnd hnil
  unfold AtEnd at hend
  rw [hhandler] at hend
  exact hend hvin hid

/-- The device id is stored while the handler is at the VIN: the activation sends it. -/
def lateActivation (strVin : String) : List VinLabel :=
  [.vin strVin, .handler, .activate "HU7", .handler, .manager, .handler, .manager, .handler,
    .handler, .handler, .handler]

theorem topiced_of_run_late :
    ∃ s, Lib.exec (next (fun _ _ t => t) "ic/") (start LocalConfigTable.empty)
        (lateActivation "1G1") = some s ∧
      s.Quiet ∧ s.sent = [⟨"1G1", "ic/HU7/2c/dvp", false⟩] ∧
      s.Delivered (fun _ _ t => t) "ic/" := by
  have hend : (Lib.exec (next (fun _ _ t => t) "ic/") (start LocalConfigTable.empty)
      (lateActivation "1G1")).map (fun s => (s.queue, s.manager, s.handler, s.sent)) =
      some ([], .idle, .idle, [⟨"1G1", "ic/HU7/2c/dvp", false⟩]) := by decide +kernel
  obtain ⟨s, hrun, hs⟩ := Option.map_eq_some_iff.1 hend
  obtain ⟨hqueue, hrest⟩ := Prod.mk.inj hs
  obtain ⟨hmanager, hrest⟩ := Prod.mk.inj hrest
  obtain ⟨hhandler, hsent⟩ := Prod.mk.inj hrest
  refine ⟨s, hrun, ⟨hqueue, hmanager, hhandler⟩, hsent, ?_⟩
  exact topiced_of_run (fun _ _ t => t) "ic/" (Or.inl (by decide)) (by decide) hrun

/-- A VIN with a quote is not stored, so that the activation finds none. -/
theorem not_topiced_quote :
    ∃ s, Lib.exec (next (fun _ _ t => t) "ic/") (start LocalConfigTable.empty)
        [.vin "1'G", .handler, .handler, .handler, .activate "HU7", .manager, .manager, .handler,
          .handler] = some s ∧
      s.Quiet ∧ s.lastVin = "1'G" ∧ s.lastId = "HU7" ∧ s.sent = [] ∧
      ¬ s.Delivered (fun _ _ t => t) "ic/" := by
  have hend : (Lib.exec (next (fun _ _ t => t) "ic/") (start LocalConfigTable.empty)
      [.vin "1'G", .handler, .handler, .handler, .activate "HU7", .manager, .manager, .handler,
        .handler]).map
      (fun s => ((s.queue, s.manager, s.handler), (s.lastVin, s.lastId, s.sent))) =
      some (([], .idle, .idle), ("1'G", "HU7", [])) := by decide +kernel
  obtain ⟨s, hrun, hs⟩ := Option.map_eq_some_iff.1 hend
  obtain ⟨hquiet, hrest⟩ := Prod.mk.inj hs
  obtain ⟨hqueue, hthreads⟩ := Prod.mk.inj hquiet
  obtain ⟨hmanager, hhandler⟩ := Prod.mk.inj hthreads
  obtain ⟨hvin, hrest⟩ := Prod.mk.inj hrest
  obtain ⟨hid, hsent⟩ := Prod.mk.inj hrest
  refine ⟨s, hrun, ⟨hqueue, hmanager, hhandler⟩, hvin, hid, hsent, fun hdelivered => ?_⟩
  have hlast := hdelivered.last ⟨hqueue, hmanager, hhandler⟩ (by rw [hvin]; decide)
    (by rw [hid]; decide)
  rw [hsent] at hlast
  cases hlast

end VinDelivery

end DeviceClient
