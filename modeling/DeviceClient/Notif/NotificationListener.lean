import DeviceClient.Lib.Run
import DeviceClient.Lib.KeyedList
import DeviceClient.Notif.MQTTNotificationHandler

/-!
# The notification listener

`CNotificationListener::Run` takes one request after another from its queue and hands each to the
handler of its type. Other threads push requests, register handlers and shut the listener down.
`PopNotification` waits once, behind an `if`: a wake-up without a request gives the empty text, and
`Run` skips it.

The mutex is held from the test for emptiness to the wait, and for all of a push, so each of these
is one step. `NotifyShutdown` sets its flag before it takes the mutex, so it is two.

* `sendNotification`, `turn`, `next`: the code.
* `sent_run`: each request pushed is sent once, in order, to the handler of its time.
* `drained_turns`: a listener that is let run gets to the last of them.
* `shutdown_iff`: the one moment at which the call of `NotifyShutdown` is missed.
-/

namespace DeviceClient

namespace NotificationListener

variable (dbl : DoubleText) {η σ : Type}

/-! ## A request -/

/-- What `c_str()` passes on. -/
def cstr (str : String) : String := String.ofList (str.toList.takeWhile (· ≠ '\x00'))

/-- What `SendNotification` finds for a request: a handler, or the `Error` of the event
`NotificationFailure`. -/
inductive Sent (η : Type) where
  | handle (pReqHndlr : η)
  | failure (strError : String)
deriving DecidableEq, Repr

/-- `jsonReq["type"].asString()`; it throws where the request has no members, and where the type is
no text and has none. -/
def requestType (jsonReq : JsonValue) : Option String :=
  (MQTTNotificationHandler.member "type" jsonReq).bind fun type =>
    (type.getD .null).asString dbl.valueToString

/-- `m_mapNotifHandlers.find`. -/
def findHandler (m_mapNotifHandlers : List (String × η)) (strType : String) : Sent η :=
  match m_mapNotifHandlers.lookup strType with
  | some pReqHndlr => .handle pReqHndlr
  | none => .failure ("Request Type not found :" ++ strType)

/-- `SendNotification` up to the call of the handler; `none` is an exception. -/
def sendNotification (m_mapNotifHandlers : List (String × η)) :
    Option String → Option (Sent η)
  | none => some (.failure "Received Empty Notification")
  | some cstrRequestJson =>
    match JsonText.parse dbl cstrRequestJson with
    | .error .syntaxError => some (.failure "Received Invalid JSON for Request")
    | .error .stackLimit => none
    | .ok jsonReq =>
      (requestType dbl jsonReq).map (findHandler m_mapNotifHandlers)

/-! ## The threads -/

/-- Where the listener is in `Run`. -/
inductive ListenerPc where
  /-- before the test of the flag -/
  | test
  /-- behind it, before the lock in `PopNotification` -/
  | pop
  | waiting
  /-- woken up, before it has the lock again -/
  | woken
  | send (strNotification : String)
  | finished
  /-- a request has thrown what nothing catches, which ends the process -/
  | aborted (strNotification : String)
deriving DecidableEq, Repr

/-- The request that is no longer in the queue and has not been sent. -/
def ListenerPc.inHand : ListenerPc → List String
  | .send strNotification | .aborted strNotification => [strNotification]
  | .test | .pop | .waiting | .woken | .finished => []

@[simp] theorem inHand_send (strNotification : String) :
    (ListenerPc.send strNotification).inHand = [strNotification] := rfl

@[simp] theorem inHand_aborted (strNotification : String) :
    (ListenerPc.aborted strNotification).inHand = [strNotification] := rfl

def ListenerPc.isAborted : ListenerPc → Bool
  | .aborted _ => true
  | .test | .pop | .waiting | .woken | .send _ | .finished => false

structure State (η σ : Type) where
  m_queNotifications : List String
  m_mapNotifHandlers : List (String × η)
  m_bIsShutDownInitiated : Bool
  pc : ListenerPc
  /-- what the handlers keep -/
  handlers : σ
  /-- the requests sent, and what was found for each -/
  sent : List (String × Sent η)

/-- A step of the listener, or of the other threads. -/
inductive Act (η : Type) where
  | turn
  | pushNotification (strData : String)
  | registerRequest (pReqHndlr : η) (strReqType : String)
  /-- the two statements of `NotifyShutdown` -/
  | setShutdown
  | signalShutdown
  /-- the wait returns without a signal -/
  | spurious
deriving DecidableEq, Repr

/-- As constructed, at the head of `Run`. -/
def start (handlers : σ) : State η σ := ⟨[], [], false, .test, handlers, []⟩

/-- What a signal does to the listener, the only one that waits. -/
def ListenerPc.wake : ListenerPc → ListenerPc
  | .waiting => .woken
  | pc => pc

/-- `pthread_cond_signal`. -/
def State.signal (s : State η σ) : State η σ := { s with pc := s.pc.wake }

/-- The rest of `PopNotification`, behind the wait; the text is empty where the queue is. -/
def State.popFront (s : State η σ) : State η σ :=
  { s with
    m_queNotifications := s.m_queNotifications.tail
    pc := .send (s.m_queNotifications.head?.getD "") }

variable (handle : η → String → σ → Option σ)

/-- `SendNotification` of a request that is not empty. -/
def State.send (s : State η σ) (strNotification : String) : State η σ :=
  match sendNotification dbl s.m_mapNotifHandlers (some (cstr strNotification)) with
  | none => { s with pc := .aborted strNotification }
  | some (.failure strError) =>
    { s with pc := .test, sent := s.sent ++ [(strNotification, .failure strError)] }
  | some (.handle pReqHndlr) =>
    match handle pReqHndlr (cstr strNotification) s.handlers with
    | none => { s with pc := .aborted strNotification }
    | some handlers =>
      { s with
        pc := .test
        handlers := handlers
        sent := s.sent ++ [(strNotification, .handle pReqHndlr)] }

/-- A turn of `Run`. -/
def turn (s : State η σ) : Option (State η σ) :=
  match s.pc with
  | .test => some { s with pc := if s.m_bIsShutDownInitiated then .finished else .pop }
  | .pop => some (if s.m_queNotifications = [] then { s with pc := .waiting } else s.popFront)
  | .woken => some s.popFront
  | .send strNotification =>
    some (if strNotification = "" then { s with pc := .test } else s.send dbl handle strNotification)
  | .waiting | .finished | .aborted _ => none

/-- A step of a process that has not ended. -/
def act (s : State η σ) : Act η → Option (State η σ)
  | .turn => turn dbl handle s
  | .pushNotification strData =>
    some { s with m_queNotifications := s.m_queNotifications ++ [strData] }.signal
  -- `insert`: the first handler of a type stays
  | .registerRequest pReqHndlr strReqType =>
    some { s with
      m_mapNotifHandlers := Lib.insertKey strReqType pReqHndlr s.m_mapNotifHandlers }
  | .setShutdown => some { s with m_bIsShutDownInitiated := true }
  | .signalShutdown => some s.signal
  | .spurious => if s.pc = .waiting then some { s with pc := .woken } else none

/-- A step. -/
def next (s : State η σ) (a : Act η) : Option (State η σ) :=
  if s.pc.isAborted then none else act dbl handle s a

/-! ## What has been asked for -/

def Act.request : Act η → Option String
  | .pushNotification strData => some strData
  | .turn | .registerRequest _ _ | .setShutdown | .signalShutdown | .spurious => none

def Act.handlerFor (strType : String) : Act η → Option η
  | .registerRequest pReqHndlr strReqType => if strReqType = strType then some pReqHndlr else none
  | .turn | .pushNotification _ | .setShutdown | .signalShutdown | .spurious => none

/-- The requests that the other threads push. -/
def requests (as : List (Act η)) : List String := as.filterMap Act.request

/-- The handler that they register first for a type. -/
def firstHandler (strType : String) (as : List (Act η)) : Option η :=
  as.findSome? (Act.handlerFor strType)

/-- What a request that has been sent does to what the handlers keep. -/
def handled (handlers : σ) (e : String × Sent η) : Option σ :=
  match e.2 with
  | .handle pReqHndlr => handle pReqHndlr (cstr e.1) handlers
  | .failure _ => some handlers

/-- The request cannot be sent. -/
def State.Throws (s : State η σ) (strNotification : String) : Prop :=
  sendNotification dbl s.m_mapNotifHandlers (some (cstr strNotification)) = none ∨
    ∃ pReqHndlr,
      sendNotification dbl s.m_mapNotifHandlers (some (cstr strNotification)) =
        some (.handle pReqHndlr) ∧
      handle pReqHndlr (cstr strNotification) s.handlers = none

/-- The requests that have been pushed, in the order in which they leave the queue, without the
empty ones. -/
def State.texts (s : State η σ) : List String :=
  s.sent.map Prod.fst ++ (s.pc.inHand ++ s.m_queNotifications).filter (· ≠ "")

/-! ## The request of a message -/

theorem nul_not_mem_quotedChar (c : Char) : '\x00' ∉ JsonText.quotedChar c := by
  have hdigit : ∀ d < 16, '\x00' ≠ JsonText.hexDigit d := by decide
  unfold JsonText.quotedChar
  split_ifs with _ _ _ _ _ _ _ hcontrol
  · decide
  · decide
  · decide
  · decide
  · decide
  · decide
  · decide
  · have hhigh := hdigit (c.toNat / 16) (by omega)
    have hlow := hdigit (c.toNat % 16) (by omega)
    simp [hhigh, hlow]
  · intro hmem
    rw [List.mem_singleton] at hmem
    rw [← hmem] at hcontrol
    exact hcontrol (by decide)

theorem nul_not_mem_quoted (value : String) :
    '\x00' ∉ JsonText.valueToQuotedString value := by
  unfold JsonText.valueToQuotedString
  intro hmem
  rcases List.mem_cons.1 hmem with hquote | hmem
  · exact absurd hquote (by decide)
  · rcases List.mem_append.1 hmem with hchars | hquote
    · rcases List.mem_flatMap.1 hchars with ⟨c, _, hc⟩
      exact nul_not_mem_quotedChar c hc
    · exact absurd (List.mem_singleton.1 hquote) (by decide)

theorem cstr_eq_self {str : String} (hnul : '\x00' ∉ str.toList) : cstr str = str := by
  unfold cstr
  rw [List.takeWhile_eq_self_iff.2, String.ofList_toList]
  intro c hc
  rw [decide_eq_true_eq]
  exact ne_of_mem_of_not_mem hc hnul

/-- The request of `OnMessageReceived` goes through `c_str()` whole. -/
theorem cstr_notification (rstrTopic rstrPayload : String) :
    cstr (JsonText.write dbl (MQTTNotificationHandler.notification rstrTopic rstrPayload)) =
      JsonText.write dbl (MQTTNotificationHandler.notification rstrTopic rstrPayload) := by
  apply cstr_eq_self
  have hmessage := nul_not_mem_quoted "message"
  have hpayload := nul_not_mem_quoted rstrPayload
  have htopic := nul_not_mem_quoted "topic"
  have hrstrTopic := nul_not_mem_quoted rstrTopic
  have htype := nul_not_mem_quoted "type"
  have hrequest := nul_not_mem_quoted "MQTT_CONFIG_REQUEST"
  unfold JsonText.write MQTTNotificationHandler.notification
  rw [String.toList_ofList]
  simp [JsonText.writeValue, JsonText.writeMembers, hmessage, hpayload, htopic, hrstrTopic, htype,
    hrequest]

theorem notification_ne_empty (rstrTopic rstrPayload : String) :
    JsonText.write dbl (MQTTNotificationHandler.notification rstrTopic rstrPayload) ≠ "" := by
  intro hempty
  have hnil := congrArg String.toList hempty
  rw [JsonText.write, String.toList_ofList] at hnil
  exact List.append_ne_nil_of_right_ne_nil _ (List.cons_ne_nil _ _) hnil

/-- It is a request for the handler of its type. -/
theorem sendNotification_notification {η : Type} (m_mapNotifHandlers : List (String × η))
    (rstrTopic rstrPayload : String) :
    sendNotification dbl m_mapNotifHandlers
        (some (JsonText.write dbl (MQTTNotificationHandler.notification rstrTopic rstrPayload))) =
      some (findHandler m_mapNotifHandlers "MQTT_CONFIG_REQUEST") := by
  unfold sendNotification
  dsimp only
  rw [MQTTNotificationHandler.parse_notification]
  rfl

section

variable {dbl} {handle}

/-! ## What a turn can do -/

theorem send_cases (s : State η σ) (strNotification : String) :
    (s.Throws dbl handle strNotification ∧
      s.send dbl handle strNotification = { s with pc := .aborted strNotification }) ∨
      ∃ found handlers,
        sendNotification dbl s.m_mapNotifHandlers (some (cstr strNotification)) = some found ∧
        handled handle s.handlers (strNotification, found) = some handlers ∧
        s.send dbl handle strNotification =
          { s with
            pc := .test
            handlers := handlers
            sent := s.sent ++ [(strNotification, found)] } := by
  unfold State.send
  cases hfound : sendNotification dbl s.m_mapNotifHandlers (some (cstr strNotification)) with
  | none => exact Or.inl ⟨Or.inl hfound, rfl⟩
  | some found =>
    cases found with
    | failure strError => exact Or.inr ⟨_, s.handlers, rfl, rfl, rfl⟩
    | handle pReqHndlr =>
      dsimp only
      cases hhandle : handle pReqHndlr (cstr strNotification) s.handlers with
      | none => exact Or.inl ⟨Or.inr ⟨pReqHndlr, hfound, hhandle⟩, rfl⟩
      | some handlers => exact Or.inr ⟨_, handlers, rfl, hhandle, rfl⟩

theorem turn_cases {s s' : State η σ} (hturn : turn dbl handle s = some s') :
    (s.pc = .test ∧ s' = { s with pc := if s.m_bIsShutDownInitiated then .finished else .pop }) ∨
    (s.pc = .pop ∧ s.m_queNotifications = [] ∧ s' = { s with pc := .waiting }) ∨
    (s.pc = .pop ∧ s.m_queNotifications ≠ [] ∧ s' = s.popFront) ∨
    (s.pc = .woken ∧ s' = s.popFront) ∨
    (s.pc = .send "" ∧ s' = { s with pc := .test }) ∨
    ∃ strNotification, s.pc = .send strNotification ∧ strNotification ≠ "" ∧
      s' = s.send dbl handle strNotification := by
  unfold turn at hturn
  cases hpc : s.pc with
  | test =>
    rw [hpc] at hturn
    exact Or.inl ⟨rfl, (Option.some.inj hturn).symm⟩
  | pop =>
    rw [hpc] at hturn
    have hs' := Option.some.inj hturn
    by_cases hempty : s.m_queNotifications = []
    · rw [if_pos hempty] at hs'
      exact Or.inr (Or.inl ⟨rfl, hempty, hs'.symm⟩)
    · rw [if_neg hempty] at hs'
      exact Or.inr (Or.inr (Or.inl ⟨rfl, hempty, hs'.symm⟩))
  | woken =>
    rw [hpc] at hturn
    exact Or.inr (Or.inr (Or.inr (Or.inl ⟨rfl, (Option.some.inj hturn).symm⟩)))
  | send strNotification =>
    rw [hpc] at hturn
    have hs' := Option.some.inj hturn
    by_cases hempty : strNotification = ""
    · rw [if_pos hempty] at hs'
      exact Or.inr (Or.inr (Or.inr (Or.inr (Or.inl ⟨by rw [hempty], hs'.symm⟩))))
    · rw [if_neg hempty] at hs'
      exact Or.inr (Or.inr (Or.inr (Or.inr (Or.inr ⟨_, rfl, hempty, hs'.symm⟩))))
  | waiting | finished | aborted _ =>
    rw [hpc] at hturn
    cases hturn

theorem act_of_next {s s' : State η σ} {a : Act η} (hnext : next dbl handle s a = some s') :
    s.pc.isAborted = false ∧ act dbl handle s a = some s' := by
  unfold next at hnext
  by_cases habort : s.pc.isAborted = true
  · rw [if_pos habort] at hnext
    cases hnext
  · rw [if_neg habort] at hnext
    exact ⟨Bool.eq_false_iff.2 habort, hnext⟩

theorem act_spurious {s s' : State η σ} (hact : act dbl handle s .spurious = some s') :
    s.pc = .waiting ∧ s' = s.signal := by
  unfold act at hact
  by_cases hpc : s.pc = .waiting
  · rw [if_pos hpc] at hact
    refine ⟨hpc, ?_⟩
    unfold State.signal
    rw [hpc]
    exact (Option.some.inj hact).symm
  · rw [if_neg hpc] at hact
    cases hact

/-! ## The signal -/

theorem wake_ne (pc : ListenerPc) : pc.wake ≠ .waiting := by
  cases pc with
  | waiting => exact ListenerPc.noConfusion
  | test | pop | woken | send _ | finished | aborted _ => exact ListenerPc.noConfusion

theorem wake_of_ne {pc : ListenerPc} (hpc : pc ≠ .waiting) : pc.wake = pc := by
  cases pc with
  | waiting => exact absurd rfl hpc
  | test | pop | woken | send _ | finished | aborted _ => rfl

theorem inHand_wake (pc : ListenerPc) : pc.wake.inHand = pc.inHand := by
  cases pc with
  | waiting => rfl
  | test | pop | woken | send _ | finished | aborted _ => rfl

/-! ## The requests -/

theorem texts_signal (s : State η σ) : s.signal.texts = s.texts := by
  unfold State.texts State.signal
  rw [inHand_wake]

theorem texts_popFront {s : State η σ} (hpc : s.pc.inHand = []) : s.popFront.texts = s.texts := by
  unfold State.popFront State.texts
  cases hque : s.m_queNotifications with
  | nil => simp [hpc]
  | cons strTemp rest => simp [hpc]

theorem texts_turn {s s' : State η σ} (hturn : turn dbl handle s = some s') :
    s'.texts = s.texts := by
  rcases turn_cases hturn with ⟨hpc, rfl⟩ | ⟨hpc, _, rfl⟩ | ⟨hpc, _, rfl⟩ | ⟨hpc, rfl⟩ |
    ⟨hpc, rfl⟩ | ⟨text, hpc, hne, rfl⟩
  · unfold State.texts
    rw [hpc]
    split_ifs
    · rfl
    · rfl
  · unfold State.texts
    rw [hpc]
    rfl
  · exact texts_popFront (by rw [hpc]; rfl)
  · exact texts_popFront (by rw [hpc]; rfl)
  · simp [State.texts, hpc, ListenerPc.inHand]
  · rcases send_cases s text with ⟨_, hsend⟩ | ⟨found, handlers, _, _, hsend⟩
    · rw [hsend]
      simp [State.texts, hpc]
    · rw [hsend]
      simp [State.texts, hpc, ListenerPc.inHand, hne]

/-- A step adds what it pushes, and nothing gets lost. -/
theorem texts_next {s s' : State η σ} {a : Act η} (hnext : next dbl handle s a = some s') :
    s'.texts = s.texts ++ a.request.toList.filter (· ≠ "") := by
  have hact := (act_of_next hnext).2
  cases a with
  | turn =>
    rw [texts_turn hact]
    exact (List.append_nil _).symm
  | pushNotification strData =>
    cases hact
    rw [texts_signal]
    simp [State.texts, Act.request]
  | registerRequest pReqHndlr strReqType =>
    cases hact
    exact (List.append_nil _).symm
  | setShutdown =>
    cases hact
    exact (List.append_nil _).symm
  | signalShutdown =>
    cases hact
    rw [texts_signal]
    exact (List.append_nil _).symm
  | spurious =>
    rcases act_spurious hact with ⟨_, rfl⟩
    rw [texts_signal]
    exact (List.append_nil _).symm

theorem requests_cons (a : Act η) (as : List (Act η)) :
    requests (a :: as) = a.request.toList ++ requests as := by
  unfold requests
  cases ha : a.request with
  | none => rw [List.filterMap_cons_none ha, Option.toList_none, List.nil_append]
  | some strData =>
    rw [List.filterMap_cons_some ha, Option.toList_some, List.singleton_append]

theorem texts_exec {as : List (Act η)} {s s' : State η σ}
    (hrun : Lib.exec (next dbl handle) s as = some s') :
    s'.texts = s.texts ++ (requests as).filter (· ≠ "") := by
  induction as generalizing s with
  | nil =>
    cases hrun
    exact (List.append_nil _).symm
  | cons a as ih =>
    rw [Lib.exec_cons, Option.bind_eq_some_iff] at hrun
    rcases hrun with ⟨t, hnext, hrest⟩
    rw [ih hrest, texts_next hnext, requests_cons, List.filter_append, List.append_assoc]

/-! ## The handlers -/

theorem registered_next {s s' : State η σ} {a : Act η} (hnext : next dbl handle s a = some s')
    (strType : String) : s'.m_mapNotifHandlers.lookup strType =
      (s.m_mapNotifHandlers.lookup strType).or (a.handlerFor strType) := by
  have hact := (act_of_next hnext).2
  cases a with
  | turn =>
    have hsame : s'.m_mapNotifHandlers = s.m_mapNotifHandlers := by
      rcases turn_cases hact with ⟨_, rfl⟩ | ⟨_, _, rfl⟩ | ⟨_, _, rfl⟩ | ⟨_, rfl⟩ | ⟨_, rfl⟩ |
        ⟨text, _, _, rfl⟩
      · rfl
      · rfl
      · rfl
      · rfl
      · rfl
      · rcases send_cases s text with ⟨_, hsend⟩ | ⟨_, _, _, _, hsend⟩
        · rw [hsend]
        · rw [hsend]
    rw [hsame]
    exact Option.or_none.symm
  | pushNotification strData =>
    cases hact
    exact Option.or_none.symm
  | registerRequest pReqHndlr strReqType =>
    cases hact
    rw [Lib.lookup_insertKey, Act.handlerFor]
    by_cases htype : strType = strReqType
    · rw [if_pos htype, if_pos htype.symm, htype]
      cases s.m_mapNotifHandlers.lookup strReqType with
      | none => rfl
      | some _ => rfl
    · rw [if_neg htype, if_neg (Ne.symm htype), Option.or_none]
  | setShutdown =>
    cases hact
    exact Option.or_none.symm
  | signalShutdown =>
    cases hact
    exact Option.or_none.symm
  | spurious =>
    rcases act_spurious hact with ⟨_, rfl⟩
    exact Option.or_none.symm

/-- A step sends nothing, or one request, to the handler that is registered then. -/
theorem sent_next {s s' : State η σ} {a : Act η} (hnext : next dbl handle s a = some s') :
    (s'.sent = s.sent ∧ s'.handlers = s.handlers) ∨
      ∃ e, sendNotification dbl s.m_mapNotifHandlers (some (cstr e.1)) = some e.2 ∧
        handled handle s.handlers e = some s'.handlers ∧ s'.sent = s.sent ++ [e] := by
  have hact := (act_of_next hnext).2
  cases a with
  | turn =>
    rcases turn_cases hact with ⟨_, rfl⟩ | ⟨_, _, rfl⟩ | ⟨_, _, rfl⟩ | ⟨_, rfl⟩ | ⟨_, rfl⟩ |
      ⟨text, _, _, rfl⟩
    · exact Or.inl ⟨rfl, rfl⟩
    · exact Or.inl ⟨rfl, rfl⟩
    · exact Or.inl ⟨rfl, rfl⟩
    · exact Or.inl ⟨rfl, rfl⟩
    · exact Or.inl ⟨rfl, rfl⟩
    · rcases send_cases s text with ⟨_, hsend⟩ | ⟨found, handlers, hfound, hhandled, hsend⟩
      · rw [hsend]
        exact Or.inl ⟨rfl, rfl⟩
      · rw [hsend]
        exact Or.inr ⟨(text, found), hfound, hhandled, rfl⟩
  | pushNotification strData =>
    cases hact
    exact Or.inl ⟨rfl, rfl⟩
  | registerRequest pReqHndlr strReqType =>
    cases hact
    exact Or.inl ⟨rfl, rfl⟩
  | setShutdown =>
    cases hact
    exact Or.inl ⟨rfl, rfl⟩
  | signalShutdown =>
    cases hact
    exact Or.inl ⟨rfl, rfl⟩
  | spurious =>
    rcases act_spurious hact with ⟨_, rfl⟩
    exact Or.inl ⟨rfl, rfl⟩

theorem registered_exec {as : List (Act η)} {s s' : State η σ}
    (hrun : Lib.exec (next dbl handle) s as = some s') (strType : String) :
    s'.m_mapNotifHandlers.lookup strType =
      (s.m_mapNotifHandlers.lookup strType).or (firstHandler strType as) := by
  induction as generalizing s with
  | nil =>
    cases hrun
    exact (Option.or_none).symm
  | cons a as ih =>
    rw [Lib.exec_cons, Option.bind_eq_some_iff] at hrun
    rcases hrun with ⟨t, hnext, hrest⟩
    have hsplit : firstHandler strType (a :: as) =
        (a.handlerFor strType).or (firstHandler strType as) := by
      unfold firstHandler
      rw [List.findSome?_cons]
      cases a.handlerFor strType with
      | none => rfl
      | some pReqHndlr => rfl
    rw [ih hrest, registered_next hnext, hsplit, Option.or_assoc]

/-- What has been found for each request that a run has sent. -/
theorem found_exec {as : List (Act η)} {s s' : State η σ}
    (hrun : Lib.exec (next dbl handle) s as = some s') {e : String × Sent η} (he : e ∈ s'.sent) :
    e ∈ s.sent ∨ ∃ pre t, pre <+: as ∧ Lib.exec (next dbl handle) s pre = some t ∧
      sendNotification dbl t.m_mapNotifHandlers (some (cstr e.1)) = some e.2 := by
  induction as generalizing s with
  | nil =>
    cases hrun
    exact Or.inl he
  | cons a as ih =>
    rw [Lib.exec_cons, Option.bind_eq_some_iff] at hrun
    rcases hrun with ⟨t, hnext, hrest⟩
    rcases ih hrest with ht | ⟨pre, u, hpre, hu, hfound⟩
    · rcases sent_next hnext with ⟨hsent, _⟩ | ⟨e', hfound, _, hsent⟩
      · exact Or.inl (hsent ▸ ht)
      · rw [hsent, List.mem_append, List.mem_singleton] at ht
        rcases ht with hold | rfl
        · exact Or.inl hold
        · exact Or.inr ⟨[], s, List.nil_prefix, rfl, hfound⟩
    · refine Or.inr ⟨a :: pre, u, List.cons_prefix_cons.2 ⟨rfl, hpre⟩, ?_, hfound⟩
      rw [Lib.exec_cons, hnext]
      exact hu

/-- The handlers have seen what was sent, in order. -/
theorem handled_exec {as : List (Act η)} {handlers : σ} {s : State η σ}
    (hrun : Lib.exec (next dbl handle) (start handlers) as = some s) :
    Lib.exec (handled handle) handlers s.sent = some s.handlers := by
  refine Lib.exec_inv_all
    (P := fun s => Lib.exec (handled handle) handlers s.sent = some s.handlers) ?_ rfl hrun
  intro s a s' hs hnext
  rcases sent_next hnext with ⟨hsent, hhandlers⟩ | ⟨e, _, hhandled, hsent⟩
  · rw [hsent, hhandlers]
    exact hs
  · rw [hsent, Lib.exec_append, hs, Option.bind_some, Lib.exec_cons, hhandled]
    rfl

/-- The process ends at a request that throws. -/
theorem throws_next {s s' : State η σ} {a : Act η} (hnext : next dbl handle s a = some s')
    {strNotification : String} (hpc : s'.pc = .aborted strNotification) :
    strNotification ≠ "" ∧ s'.Throws dbl handle strNotification := by
  rcases act_of_next hnext with ⟨habort, hact⟩
  have hwake : s.pc.wake ≠ .aborted strNotification := by
    intro hwake
    by_cases hwait : s.pc = .waiting
    · rw [hwait] at hwake
      cases hwake
    · rw [wake_of_ne hwait] at hwake
      rw [hwake] at habort
      cases habort
  have hsame : s.pc ≠ .aborted strNotification := by
    intro hsame
    rw [hsame] at habort
    cases habort
  cases a with
  | turn =>
    rcases turn_cases hact with ⟨_, rfl⟩ | ⟨_, _, rfl⟩ | ⟨_, _, rfl⟩ | ⟨_, rfl⟩ | ⟨_, rfl⟩ |
      ⟨text, _, hne, rfl⟩
    · dsimp only at hpc
      split_ifs at hpc
    · cases hpc
    · cases hpc
    · cases hpc
    · cases hpc
    · rcases send_cases s text with ⟨hthrows, hsend⟩ | ⟨_, _, _, _, hsend⟩
      · rw [hsend] at hpc ⊢
        cases hpc
        exact ⟨hne, hthrows⟩
      · rw [hsend] at hpc
        cases hpc
  | pushNotification strData =>
    cases hact
    exact absurd hpc hwake
  | registerRequest pReqHndlr strReqType =>
    cases hact
    exact absurd hpc hsame
  | setShutdown =>
    cases hact
    exact absurd hpc hsame
  | signalShutdown =>
    cases hact
    exact absurd hpc hwake
  | spurious =>
    rcases act_spurious hact with ⟨_, rfl⟩
    exact absurd hpc hwake

theorem throws_exec {as : List (Act η)} {handlers : σ} {s : State η σ}
    (hrun : Lib.exec (next dbl handle) (start handlers) as = some s) {strNotification : String}
    (hpc : s.pc = .aborted strNotification) :
    strNotification ≠ "" ∧ s.Throws dbl handle strNotification := by
  refine Lib.exec_inv_all (P := fun u => ∀ text, u.pc = .aborted text →
    text ≠ "" ∧ u.Throws dbl handle text) ?_ ?_ hrun strNotification hpc
  · exact fun u a u' _ hnext text htext => throws_next hnext htext
  · intro text hstart
    cases hstart

/-! ## The wait -/

/-- Who waits has seen the queue empty, and a push wakes it up. -/
theorem waiting_next {s s' : State η σ} {a : Act η}
    (hs : s.pc = .waiting → s.m_queNotifications = []) (hnext : next dbl handle s a = some s')
    (hpc : s'.pc = .waiting) : s'.m_queNotifications = [] := by
  have hact := (act_of_next hnext).2
  cases a with
  | turn =>
    rcases turn_cases hact with ⟨_, rfl⟩ | ⟨_, hempty, rfl⟩ | ⟨_, _, rfl⟩ | ⟨_, rfl⟩ | ⟨_, rfl⟩ |
      ⟨text, _, _, rfl⟩
    · dsimp only at hpc
      split_ifs at hpc
    · exact hempty
    · cases hpc
    · cases hpc
    · cases hpc
    · rcases send_cases s text with ⟨_, hsend⟩ | ⟨_, _, _, _, hsend⟩
      · rw [hsend] at hpc
        cases hpc
      · rw [hsend] at hpc
        cases hpc
  | pushNotification strData =>
    cases hact
    exact absurd hpc (wake_ne s.pc)
  | registerRequest pReqHndlr strReqType =>
    cases hact
    exact hs hpc
  | setShutdown =>
    cases hact
    exact hs hpc
  | signalShutdown =>
    cases hact
    exact absurd hpc (wake_ne s.pc)
  | spurious =>
    rcases act_spurious hact with ⟨_, rfl⟩
    exact absurd hpc (wake_ne s.pc)

/-! ## The listener by itself -/

/-- The listener has no turn. -/
def ListenerPc.Settled (pc : ListenerPc) : Prop :=
  pc = .waiting ∨ pc = .finished ∨ pc.isAborted = true

/-- More turns than the listener can have before it settles. -/
def State.rank (s : State η σ) : ℕ :=
  match s.pc with
  | .test => 3 * s.m_queNotifications.length + 2
  | .pop => 3 * s.m_queNotifications.length + 1
  | .woken => 3 * s.m_queNotifications.length + 4
  | .send _ => 3 * s.m_queNotifications.length + 3
  | .waiting | .finished | .aborted _ => 0

theorem rank_popFront (s : State η σ) (hque : s.m_queNotifications ≠ []) :
    s.popFront.rank < 3 * s.m_queNotifications.length + 1 := by
  have hpos := List.length_pos_iff.2 hque
  show 3 * s.m_queNotifications.tail.length + 3 < 3 * s.m_queNotifications.length + 1
  rw [List.length_tail]
  omega

/-- A listener that has not settled has a turn, and each brings it nearer. -/
theorem rank_turn {s : State η σ} (hpc : ¬ s.pc.Settled) :
    ∃ t, next dbl handle s .turn = some t ∧ t.rank < s.rank := by
  have habort : s.pc.isAborted = false := by
    rw [← Bool.not_eq_true]
    exact fun h => hpc (Or.inr (Or.inr h))
  have hnext : next dbl handle s .turn = turn dbl handle s := by
    unfold next
    rw [habort]
    rfl
  rw [hnext]
  cases hs : s.pc with
  | test =>
    refine ⟨_, by unfold turn; rw [hs], ?_⟩
    by_cases hflag : s.m_bIsShutDownInitiated = true
    · simp [State.rank, hs, hflag]
    · simp [State.rank, hs, hflag]
  | pop =>
    refine ⟨_, by unfold turn; rw [hs], ?_⟩
    by_cases hque : s.m_queNotifications = []
    · rw [if_pos hque]
      simp [State.rank, hs]
    · rw [if_neg hque]
      have hrank := rank_popFront s hque
      simpa [State.rank, hs] using hrank
  | woken =>
    refine ⟨_, by unfold turn; rw [hs], ?_⟩
    by_cases hque : s.m_queNotifications = []
    · simp [State.popFront, hque, State.rank, hs]
    · have hrank := rank_popFront s hque
      have hs' : s.rank = 3 * s.m_queNotifications.length + 4 := by
        unfold State.rank
        rw [hs]
      omega
  | send strNotification =>
    refine ⟨_, by unfold turn; rw [hs], ?_⟩
    by_cases hempty : strNotification = ""
    · rw [if_pos hempty]
      simp [State.rank, hs]
    · rw [if_neg hempty]
      rcases send_cases s strNotification with ⟨_, hsend⟩ | ⟨found, handlers, _, _, hsend⟩
      · rw [hsend]
        simp [State.rank, hs]
      · rw [hsend]
        simp [State.rank, hs]
  | waiting => exact absurd (Or.inl hs) hpc
  | finished => exact absurd (Or.inr (Or.inl hs)) hpc
  | aborted strNotification =>
    rw [hs] at habort
    cases habort

theorem rank_le (s : State η σ) : s.rank ≤ 3 * s.m_queNotifications.length + 4 := by
  unfold State.rank
  split
  all_goals omega

/-- Let run, the listener settles. -/
theorem settled_turns (dbl : DoubleText) (handle : η → String → σ → Option σ) (s : State η σ) :
    ∃ n t, n ≤ s.rank ∧ Lib.exec (next dbl handle) s (List.replicate n .turn) = some t ∧
      t.pc.Settled := by
  induction hrank : s.rank using Nat.strong_induction_on generalizing s with
  | _ k ih =>
    by_cases hpc : s.pc.Settled
    · exact ⟨0, s, Nat.zero_le _, rfl, hpc⟩
    · have hturn : ∃ t, next dbl handle s .turn = some t ∧ t.rank < s.rank := rank_turn hpc
      rcases hturn with ⟨t, hnext, hlt⟩
      rcases ih t.rank (hrank ▸ hlt) t rfl with ⟨n, u, hn, hrun, hsettled⟩
      refine ⟨n + 1, u, by omega, ?_, hsettled⟩
      rw [List.replicate_succ, Lib.exec_cons, hnext]
      exact hrun

theorem requests_replicate (n : ℕ) : requests (List.replicate n (.turn : Act η)) = [] := by
  induction n with
  | zero => rfl
  | succ n ih =>
    rw [List.replicate_succ, requests_cons, ih]
    rfl

/-! ## The end -/

theorem flag_turn {s s' : State η σ} (hturn : turn dbl handle s = some s') :
    s'.m_bIsShutDownInitiated = s.m_bIsShutDownInitiated := by
  rcases turn_cases hturn with ⟨_, rfl⟩ | ⟨_, _, rfl⟩ | ⟨_, _, rfl⟩ | ⟨_, rfl⟩ | ⟨_, rfl⟩ |
    ⟨text, _, _, rfl⟩
  · rfl
  · rfl
  · rfl
  · rfl
  · rfl
  · rcases send_cases s text with ⟨_, hsend⟩ | ⟨_, _, _, _, hsend⟩
    · rw [hsend]
    · rw [hsend]

theorem flag_next {s s' : State η σ} {a : Act η} (hnext : next dbl handle s a = some s')
    (hflag : s.m_bIsShutDownInitiated = true) : s'.m_bIsShutDownInitiated = true := by
  have hact := (act_of_next hnext).2
  cases a with
  | turn => rw [flag_turn hact, hflag]
  | pushNotification strData =>
    cases hact
    exact hflag
  | registerRequest pReqHndlr strReqType =>
    cases hact
    exact hflag
  | setShutdown =>
    cases hact
    rfl
  | signalShutdown =>
    cases hact
    exact hflag
  | spurious =>
    rcases act_spurious hact with ⟨_, rfl⟩
    exact hflag

/-- A turn comes to the end only where the flag is set. -/
theorem finished_turn {s s' : State η σ} (hturn : turn dbl handle s = some s')
    (hpc : s'.pc = .finished) : s.m_bIsShutDownInitiated = true := by
  rcases turn_cases hturn with ⟨_, rfl⟩ | ⟨_, _, rfl⟩ | ⟨_, _, rfl⟩ | ⟨_, rfl⟩ | ⟨_, rfl⟩ |
    ⟨text, _, _, rfl⟩
  · by_contra hflag
    rw [if_neg hflag] at hpc
    cases hpc
  · cases hpc
  · cases hpc
  · cases hpc
  · cases hpc
  · rcases send_cases s text with ⟨_, hsend⟩ | ⟨_, _, _, _, hsend⟩
    · rw [hsend] at hpc
      cases hpc
    · rw [hsend] at hpc
      cases hpc

theorem finished_next {s s' : State η σ} {a : Act η}
    (hs : s.pc = .finished → s.m_bIsShutDownInitiated = true)
    (hnext : next dbl handle s a = some s') (hpc : s'.pc = .finished) :
    s'.m_bIsShutDownInitiated = true := by
  have hact := (act_of_next hnext).2
  have hsignal : s.pc.wake = .finished → s.pc = .finished := by
    intro hwake
    by_cases hwait : s.pc = .waiting
    · rw [hwait] at hwake
      cases hwake
    · rwa [wake_of_ne hwait] at hwake
  cases a with
  | turn =>
    rw [flag_turn hact]
    exact finished_turn hact hpc
  | pushNotification strData =>
    cases hact
    exact hs (hsignal hpc)
  | registerRequest pReqHndlr strReqType =>
    cases hact
    exact hs hpc
  | setShutdown =>
    cases hact
    rfl
  | signalShutdown =>
    cases hact
    exact hs (hsignal hpc)
  | spurious =>
    rcases act_spurious hact with ⟨_, rfl⟩
    exact hs (hsignal hpc)

/-- The requests that can still be sent once the flag is set. -/
def State.lastOnes (s : State η σ) : ℕ :=
  match s.pc with
  | .pop | .waiting | .woken | .send _ => 1
  | .test | .finished | .aborted _ => 0

theorem lastOnes_le (s : State η σ) : s.lastOnes ≤ 1 := by
  unfold State.lastOnes
  split
  all_goals omega

theorem lastOnes_signal (s : State η σ) : s.signal.lastOnes = s.lastOnes := by
  unfold State.lastOnes State.signal
  cases s.pc with
  | waiting => rfl
  | test | pop | woken | send _ | finished | aborted _ => rfl

/-- With the flag set, what is sent has been on its way. -/
theorem length_sent_next {s s' : State η σ} {a : Act η} (hnext : next dbl handle s a = some s')
    (hflag : s.m_bIsShutDownInitiated = true) :
    s'.sent.length + s'.lastOnes ≤ s.sent.length + s.lastOnes := by
  have hact := (act_of_next hnext).2
  cases a with
  | turn =>
    rcases turn_cases hact with ⟨hpc, rfl⟩ | ⟨hpc, _, rfl⟩ | ⟨hpc, _, rfl⟩ | ⟨hpc, rfl⟩ |
      ⟨hpc, rfl⟩ | ⟨text, hpc, _, rfl⟩
    · simp [State.lastOnes, hpc, hflag]
    · simp [State.lastOnes, hpc]
    · simp [State.lastOnes, State.popFront, hpc]
    · simp [State.lastOnes, State.popFront, hpc]
    · simp [State.lastOnes, hpc]
    · rcases send_cases s text with ⟨_, hsend⟩ | ⟨_, _, _, _, hsend⟩
      · rw [hsend]
        simp [State.lastOnes, hpc]
      · rw [hsend]
        simp [State.lastOnes, hpc]
  | pushNotification strData =>
    cases hact
    exact Nat.add_le_add_left (le_of_eq (lastOnes_signal s)) s.sent.length
  | registerRequest pReqHndlr strReqType =>
    cases hact
    exact le_refl _
  | setShutdown =>
    cases hact
    exact le_refl _
  | signalShutdown =>
    cases hact
    exact Nat.add_le_add_left (le_of_eq (lastOnes_signal s)) s.sent.length
  | spurious =>
    rcases act_spurious hact with ⟨_, rfl⟩
    exact Nat.add_le_add_left (le_of_eq (lastOnes_signal s)) s.sent.length

theorem length_sent_exec {as : List (Act η)} {s s' : State η σ}
    (hrun : Lib.exec (next dbl handle) s as = some s') (hflag : s.m_bIsShutDownInitiated = true) :
    s'.sent.length ≤ s.sent.length + 1 := by
  have hkeep : s'.m_bIsShutDownInitiated = true ∧
      s'.sent.length + s'.lastOnes ≤ s.sent.length + s.lastOnes := by
    refine Lib.exec_inv_all (P := fun u => u.m_bIsShutDownInitiated = true ∧
      u.sent.length + u.lastOnes ≤ s.sent.length + s.lastOnes) ?_ ⟨hflag, le_refl _⟩ hrun
    intro u a u' hu hnext
    exact ⟨flag_next hnext hu.1, (length_sent_next hnext hu.1).trans hu.2⟩
  have hlast := lastOnes_le s
  omega

/-- The listener waits, or is about to, and nothing will wake it up. -/
def State.Missed (s : State η σ) : Prop :=
  s.pc = .waiting ∨ (s.pc = .pop ∧ s.m_queNotifications = [])

theorem missed_signal (s : State η σ) :
    s.signal.Missed ↔ s.pc = .pop ∧ s.m_queNotifications = [] := by
  unfold State.Missed
  constructor
  · rintro (hwait | ⟨hpop, hque⟩)
    · exact absurd hwait (wake_ne s.pc)
    · refine ⟨?_, hque⟩
      by_cases hpc : s.pc = .waiting
      · rw [State.signal, hpc] at hpop
        cases hpop
      · rwa [State.signal, wake_of_ne hpc] at hpop
  · rintro ⟨hpop, hque⟩
    refine Or.inr ⟨?_, hque⟩
    rw [State.signal, hpop]
    rfl

/-- Neither a signal nor a wake-up without one. -/
def Act.Quiet : Act η → Prop
  | .turn | .registerRequest _ _ => True
  | .pushNotification _ | .setShutdown | .signalShutdown | .spurious => False

/-- Of its own the listener neither gets there nor gets away from there. -/
theorem missed_next {s s' : State η σ} {a : Act η} (hnext : next dbl handle s a = some s')
    (hflag : s.m_bIsShutDownInitiated = true) (hquiet : a.Quiet) : s'.Missed ↔ s.Missed := by
  have hact := (act_of_next hnext).2
  unfold State.Missed
  cases a with
  | turn =>
    rcases turn_cases hact with ⟨hpc, rfl⟩ | ⟨hpc, hque, rfl⟩ | ⟨hpc, hque, rfl⟩ | ⟨hpc, rfl⟩ |
      ⟨hpc, rfl⟩ | ⟨text, hpc, _, rfl⟩
    · simp [hpc, hflag]
    · simp [hpc, hque]
    · simp [State.popFront, hpc, hque]
    · simp [State.popFront, hpc]
    · simp [hpc]
    · rcases send_cases s text with ⟨_, hsend⟩ | ⟨_, _, _, _, hsend⟩
      · rw [hsend]
        simp [hpc]
      · rw [hsend]
        simp [hpc]
  | registerRequest pReqHndlr strReqType =>
    cases hact
    exact Iff.rfl
  | pushNotification _ | setShutdown | signalShutdown | spurious => exact absurd hquiet id

theorem missed_exec {as : List (Act η)} {s s' : State η σ}
    (hrun : Lib.exec (next dbl handle) s as = some s') (hflag : s.m_bIsShutDownInitiated = true)
    (hquiet : ∀ a ∈ as, a.Quiet) : s'.Missed ↔ s.Missed := by
  induction as generalizing s with
  | nil =>
    cases hrun
    exact Iff.rfl
  | cons a as ih =>
    rw [Lib.exec_cons, Option.bind_eq_some_iff] at hrun
    rcases hrun with ⟨t, hnext, hrest⟩
    rcases List.forall_mem_cons.1 hquiet with ⟨ha, hrestQuiet⟩
    rw [ih hrest (flag_next hnext hflag) hrestQuiet, missed_next hnext hflag ha]

/-- A listener that waits has sent all. -/
theorem sent_of_waiting {handlers : σ} {as : List (Act η)} {s : State η σ}
    (hrun : Lib.exec (next dbl handle) (start handlers) as = some s) (hpc : s.pc = .waiting) :
    s.sent.map Prod.fst = (requests as).filter (· ≠ "") := by
  have hque : s.m_queNotifications = [] := by
    refine Lib.exec_inv_all
      (P := fun u => u.pc = .waiting → u.m_queNotifications = []) ?_ (fun _ => rfl) hrun hpc
    exact fun u a u' hu hnext => waiting_next hu hnext
  have htexts : s.texts = (requests as).filter (· ≠ "") := texts_exec hrun
  rw [← htexts, State.texts, hpc, hque]
  exact (List.append_nil _).symm

/-! ## The runs -/

/-- A handler that keeps what it gets. -/
def keepText (_ : Unit) (cstrRequestJson : String) (texts : List String) : Option (List String) :=
  some (texts ++ [cstrRequestJson])

/-- The request of a message. -/
def someRequest : String :=
  JsonText.write MQTTNotificationHandler.anyDoubles
    (MQTTNotificationHandler.notification "2d/ro" "1")

theorem cstr_someRequest : cstr someRequest = someRequest := cstr_notification _ _ _

theorem someRequest_ne_empty : someRequest ≠ "" := notification_ne_empty _ _ _

theorem sendNotification_someRequest :
    sendNotification MQTTNotificationHandler.anyDoubles [("MQTT_CONFIG_REQUEST", ())]
      (some someRequest) = some (.handle ()) :=
  sendNotification_notification _ _ _ _

/-- A handler is registered, the listener waits, is woken up for nothing, and gets a request. -/
def someActs : List (Act Unit) :=
  [.registerRequest () "MQTT_CONFIG_REQUEST", .turn, .turn, .spurious, .turn, .turn,
    .pushNotification someRequest, .turn, .turn, .turn, .turn, .turn]

theorem exec_someActs :
    Lib.exec (next MQTTNotificationHandler.anyDoubles keepText) (start []) someActs =
      some ⟨[], [("MQTT_CONFIG_REQUEST", ())], false, .waiting, [someRequest],
        [(someRequest, .handle ())]⟩ := by
  simp [someActs, Lib.exec, next, act, turn, start, ListenerPc.isAborted, State.popFront,
    State.signal, ListenerPc.wake, State.send, Lib.insertKey, Lib.setKey, someRequest_ne_empty,
    cstr_someRequest, sendNotification_someRequest, keepText]

/-- As long as nobody shuts it down, a listener that is let run sends all that has been pushed,
unless a request throws. -/
theorem drained_turns {handlers : σ} {as : List (Act η)} {s : State η σ}
    (hrun : Lib.exec (next dbl handle) (start handlers) as = some s)
    (hflag : s.m_bIsShutDownInitiated = false) :
    ∃ n t, n ≤ 3 * s.m_queNotifications.length + 4 ∧
      Lib.exec (next dbl handle) s (List.replicate n .turn) = some t ∧
      (t.sent.map Prod.fst = (requests as).filter (· ≠ "") ∨ t.pc.isAborted = true) := by
  rcases settled_turns dbl handle s with ⟨n, t, hn, hturns, hsettled⟩
  refine ⟨n, t, hn.trans (rank_le s), hturns, ?_⟩
  have hboth : Lib.exec (next dbl handle) (start handlers) (as ++ List.replicate n .turn) =
      some t := by
    rw [Lib.exec_append, hrun]
    exact hturns
  rcases hsettled with hwait | hfinished | habort
  · left
    have htexts := sent_of_waiting hboth hwait
    have hreqs : requests (as ++ List.replicate n (.turn : Act η)) = requests as := by
      unfold requests
      rw [List.filterMap_append]
      exact (congrArg _ (requests_replicate n)).trans (List.append_nil _)
    rwa [hreqs] at htexts
  · -- the flag would be set, and the turns leave it as it is
    exfalso
    have hset : t.pc = .finished → t.m_bIsShutDownInitiated = true := by
      refine Lib.exec_inv_all
        (P := fun u => u.pc = .finished → u.m_bIsShutDownInitiated = true) ?_ ?_ hboth
      · exact fun u a u' hu hnext => finished_next hu hnext
      · intro hstart
        cases hstart
    have hsame : t.m_bIsShutDownInitiated = false := by
      have hstep : ∀ (u : State η σ) (a : Act η) (u' : State η σ),
          u.m_bIsShutDownInitiated = false → a = .turn → next dbl handle u a = some u' →
            u'.m_bIsShutDownInitiated = false := by
        rintro u a u' hu rfl hnext
        rw [flag_turn (act_of_next hnext).2, hu]
      exact Lib.exec_inv hstep _ s t hflag
        (Lib.along_of_forall_mem (fun a ha _ => List.eq_of_mem_replicate ha) s) hturns
    rw [hset hfinished] at hsame
    cases hsame
  · exact Or.inr habort

theorem drained_turns_pushed : ∃ s : State Unit (List String),
    Lib.exec (next MQTTNotificationHandler.anyDoubles keepText) (start [])
        [.turn, .pushNotification someRequest] = some s ∧
      ∃ n t, n ≤ 3 * s.m_queNotifications.length + 4 ∧
        Lib.exec (next MQTTNotificationHandler.anyDoubles keepText) s
          (List.replicate n .turn) = some t ∧
        (t.sent.map Prod.fst = (requests [(.turn : Act Unit),
          .pushNotification someRequest]).filter (· ≠ "") ∨ t.pc.isAborted = true) := by
  have hrun : ∃ s : State Unit (List String),
      Lib.exec (next MQTTNotificationHandler.anyDoubles keepText) (start [])
        [.turn, .pushNotification someRequest] = some s ∧ s.m_bIsShutDownInitiated = false :=
    ⟨_, rfl, rfl⟩
  rcases hrun with ⟨s, hrun, hflag⟩
  exact ⟨s, hrun, drained_turns hrun hflag⟩

/-- Once the flag is set, at most one more request is sent. After the signal the listener comes to
its end by itself, unless it had tested the flag before and found no request after: then the signal
is missed, and only a later push or a wake-up without a signal ends the wait. -/
theorem shutdown_iff {s t : State η σ} (hflag : s.m_bIsShutDownInitiated = true)
    (hsignal : next dbl handle s .signalShutdown = some t) :
    (∀ as u, Lib.exec (next dbl handle) s as = some u → u.sent.length ≤ s.sent.length + 1) ∧
    ((∃ as u, (∀ a ∈ as, a.Quiet) ∧ Lib.exec (next dbl handle) t as = some u ∧
        (u.pc = .finished ∨ u.pc.isAborted = true)) ↔
      ¬ (s.pc = .pop ∧ s.m_queNotifications = [])) := by
  refine ⟨fun as u hrun => length_sent_exec hrun hflag, ?_⟩
  have ht : t = s.signal := (Option.some.inj (act_of_next hsignal).2).symm
  have hflag' : t.m_bIsShutDownInitiated = true := flag_next hsignal hflag
  have hmissed : t.Missed ↔ s.pc = .pop ∧ s.m_queNotifications = [] := by
    rw [ht]
    exact missed_signal s
  rw [← hmissed]
  constructor
  · rintro ⟨as, u, hquiet, hrun, hend⟩ hmiss
    rcases (missed_exec hrun hflag' hquiet).2 hmiss with hwait | ⟨hpop, _⟩
    · rw [hwait] at hend
      rcases hend with hend | hend
      · cases hend
      · cases hend
    · rw [hpop] at hend
      rcases hend with hend | hend
      · cases hend
      · cases hend
  · intro hmiss
    rcases settled_turns dbl handle t with ⟨n, u, _, hturns, hsettled⟩
    have hquiet : ∀ a ∈ List.replicate n (.turn : Act η), a.Quiet := by
      intro a ha
      rw [List.eq_of_mem_replicate ha]
      trivial
    refine ⟨_, u, hquiet, hturns, ?_⟩
    rcases hsettled with hwait | hend
    · exact absurd ((missed_exec hturns hflag' hquiet).1 (Or.inl hwait)) hmiss
    · exact hend

/-- The flag is set between the test and the wait. -/
theorem shutdown_iff_missed : ∃ s t : State Unit (List String),
    Lib.exec (next MQTTNotificationHandler.anyDoubles keepText) (start []) [.turn, .setShutdown] =
        some s ∧
      next MQTTNotificationHandler.anyDoubles keepText s .signalShutdown = some t ∧
      ¬ ∃ as u, (∀ a ∈ as, a.Quiet) ∧
        Lib.exec (next MQTTNotificationHandler.anyDoubles keepText) t as = some u ∧
        (u.pc = .finished ∨ u.pc.isAborted = true) := by
  have hrun : ∃ s t : State Unit (List String),
      Lib.exec (next MQTTNotificationHandler.anyDoubles keepText) (start []) [.turn, .setShutdown] =
          some s ∧
        s.m_bIsShutDownInitiated = true ∧ s.pc = .pop ∧ s.m_queNotifications = [] ∧
        next MQTTNotificationHandler.anyDoubles keepText s .signalShutdown = some t :=
    ⟨_, _, rfl, rfl, rfl, rfl, rfl⟩
  rcases hrun with ⟨s, t, hrun, hflag, hpc, hque, hsignal⟩
  refine ⟨s, t, hrun, hsignal, fun hend => ?_⟩
  exact (shutdown_iff hflag hsignal).2.1 hend ⟨hpc, hque⟩

end

end NotificationListener

end DeviceClient
