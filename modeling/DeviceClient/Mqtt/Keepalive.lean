import DeviceClient.Lib.Run
import DeviceClient.Mqtt.Messages

/-!
# Watching the connection

`mosquitto__check_keepalive` runs once in each turn of the network loop. When nothing was
written or nothing was read for `keepalive` seconds it sends a PINGREQ; when that is due again
before the PINGRESP, it closes the socket.

* `dropped_unanswered`: it closes a connection that the client wants to keep only after a
  CONNECT or a PINGREQ has waited at least `keepalive` seconds for its answer.
* `heard_run`: with checks at most `D` seconds apart, a peer that falls silent is found out
  after at most `2 * keepalive + 2 * D` seconds, whatever the client goes on writing.
-/

namespace DeviceClient

namespace Mqtt

/-! ## State -/

/-- `enum mosquitto_client_state`, the values that the client comes by. -/
inductive ClientState where
  | new
  | connected
  | disconnecting
  | active
  | connectPending
  | disconnected
deriving DecidableEq, Repr

/-- What `struct mosquitto` holds to watch a connection; `time_t` in seconds. The last field
observes the calls of `on_disconnect`. -/
structure Mosquitto where
  keepalive : ℕ
  /-- `sock` is valid. -/
  sock : Bool
  state : ClientState
  last_msg_in : ℤ
  next_msg_out : ℤ
  ping_t : ℤ
  disconnects : List MosqErr
deriving DecidableEq, Repr

/-- `mosquitto_reinitialise` -/
def Mosquitto.init (keepalive : ℕ) (now : ℤ) : Mosquitto :=
  ⟨keepalive, false, .new, now, now + keepalive, 0, []⟩

/-- `mosquitto__reconnect`; `connectRc` is what `net__socket_connect` returns, `sendRc` what
`send__connect` does. -/
def Mosquitto.reconnect (s : Mosquitto) (now : ℤ) (connectRc sendRc : MosqErr) : Mosquitto :=
  let s1 := { s with
    last_msg_in := now
    next_msg_out := now + s.keepalive
    ping_t := 0
    sock := false }
  if connectRc ≠ .success then { s1 with state := .connectPending }
  else if sendRc ≠ .success then { s1 with state := .new }
  else { s1 with sock := true, state := .connected }

/-- The intervals that `mosquitto__connect_init` takes. -/
def intervalOk (keepalive : ℕ) : Bool :=
  !(decide (keepalive ≠ 0) && (decide (keepalive < 5) || decide (65535 < keepalive)))

/-- `mosquitto_connect` -/
def Mosquitto.connect (s : Mosquitto) (now : ℤ) (keepalive : ℕ) (connectRc sendRc : MosqErr) :
    Mosquitto × MosqErr :=
  if intervalOk keepalive = false then (s, .inval)
  else
    let s1 := { s with keepalive := keepalive, state := .new }
    (s1.reconnect now connectRc sendRc, if connectRc ≠ .success then connectRc else sendRc)

/-- `mosquitto_disconnect`: the DISCONNECT is only queued. -/
def Mosquitto.disconnect (s : Mosquitto) : Mosquitto := { s with state := .disconnected }

/-- `mosquitto__loop_rc_handle` -/
def Mosquitto.loopRcHandle (s : Mosquitto) (rc : MosqErr) : Mosquitto :=
  if rc = .success then s
  else
    let rc' := if s.state = .disconnecting ∨ s.state = .disconnected then .success else rc
    { s with sock := false, disconnects := s.disconnects ++ [rc'] }

/-- The end of `packet__write`, after the last byte of a packet: a DISCONNECT goes through
`do_client_disconnect`. -/
def Mosquitto.wrote (s : Mosquitto) (now : ℤ) (p : Packet) : Mosquitto :=
  let s1 := { s with next_msg_out := now + s.keepalive }
  if p.command &&& 0xF0 = CMD_DISCONNECT then
    { s1 with state := .disconnected, sock := false, disconnects := s.disconnects ++ [.success] }
  else s1

/-- `handle__pingresp` -/
def Mosquitto.handlePingresp (s : Mosquitto) : Mosquitto × MosqErr :=
  if s.state ≠ .active then (s, .protocol) else ({ s with ping_t := 0 }, .success)

/-- `handle__connack` -/
def Mosquitto.handleConnack (s : Mosquitto) (p : Packet) : Mosquitto × MosqErr :=
  if p.command ≠ CMD_CONNACK then (s, .malformedPacket)
  else
    match p.body with
    | _ :: reason_code :: _ =>
      if reason_code ≠ 0 then (s, refusedRc reason_code)
      else if s.state ≠ .disconnecting then ({ s with state := .active }, .success)
      else (s, .success)
    | _ => (s, .malformedPacket)

/-- `handle__packet`; `rc` is what the handlers of the other packets return, none of which
touches these fields. -/
def Mosquitto.handle (s : Mosquitto) (p : Packet) (rc : MosqErr) : Mosquitto × MosqErr :=
  if p.command &&& 0xF0 = CMD_PINGREQ then (s, .protocol)
  else if p.command &&& 0xF0 = CMD_PINGRESP then s.handlePingresp
  else if p.command &&& 0xF0 = CMD_CONNACK then s.handleConnack p
  else (s, rc)

/-- The end of `packet__read` for a whole packet, and `mosquitto_loop_read` behind it. -/
def Mosquitto.arrived (s : Mosquitto) (now : ℤ) (p : Packet) (rc : MosqErr) : Mosquitto :=
  let r := s.handle p rc
  { r.1 with last_msg_in := now }.loopRcHandle r.2

/-- The condition of `mosquitto__check_keepalive`. -/
def Mosquitto.due (s : Mosquitto) (now : ℤ) : Bool :=
  decide (s.keepalive ≠ 0) && s.sock &&
    (decide (s.next_msg_out ≤ now) || decide ((s.keepalive : ℤ) ≤ now - s.last_msg_in))

/-- `mosquitto__check_keepalive`; `ping` is the time that `send__pingreq` notes, `none` where
it fails. -/
def Mosquitto.checkKeepalive (s : Mosquitto) (now : ℤ) (ping : Option ℤ) : Mosquitto × MosqErr :=
  if s.due now = false then (s, .success)
  else if s.state = .active ∧ s.ping_t = 0 then
    -- the result of send__pingreq is not looked at
    ({ s with
        ping_t := ping.getD 0
        last_msg_in := now
        next_msg_out := now + s.keepalive }, .success)
  else
    let rc := if s.state = .disconnecting then MosqErr.success else .keepalive
    ({ s with sock := false, disconnects := s.disconnects ++ [rc] }, rc)

/-! ## Steps -/

/-- What the loop and the threads of the client do, with the times that they read. -/
inductive KeepLabel where
  /-- `mosquitto_connect`, from its start to its end. -/
  | connect (now stop : ℤ) (keepalive : ℕ) (connectRc sendRc : MosqErr)
  /-- `mosquitto_reconnect`, from its start to its end. -/
  | reconnect (now stop : ℤ) (connectRc sendRc : MosqErr)
  | disconnect (now : ℤ)
  /-- The last byte of a packet is written. -/
  | wrote (now : ℤ) (p : Packet)
  /-- More than 1000 bytes of a packet are still to be read. -/
  | partly (now : ℤ)
  | arrived (now : ℤ) (p : Packet) (rc : MosqErr)
  /-- `packet__read` or `packet__write` returned an error. -/
  | failed (now : ℤ) (rc : MosqErr)
  | check (now : ℤ) (ping : Option ℤ)
deriving DecidableEq, Repr

/-- When a step begins. -/
def KeepLabel.start : KeepLabel → ℤ
  | .connect now _ _ _ _ | .reconnect now _ _ _ | .disconnect now | .wrote now _ | .partly now
  | .arrived now _ _ | .failed now _ | .check now _ => now

/-- When a step ends. -/
def KeepLabel.stop : KeepLabel → ℤ
  | .connect _ stop _ _ _ | .reconnect _ stop _ _ => stop
  | .check now ping => ping.getD now
  | .disconnect now | .wrote now _ | .partly now | .arrived now _ _ | .failed now _ => now

def Mosquitto.step (s : Mosquitto) : KeepLabel → Option Mosquitto
  | .connect now _ keepalive connectRc sendRc =>
    some (s.connect now keepalive connectRc sendRc).1
  | .reconnect now _ connectRc sendRc => some (s.reconnect now connectRc sendRc)
  | .disconnect _ => some s.disconnect
  | .wrote now p => if s.sock then some (s.wrote now p) else none
  | .partly now => if s.sock then some { s with last_msg_in := now } else none
  | .arrived now p rc => if s.sock then some (s.arrived now p rc) else none
  | .failed _ rc => if s.sock then some (s.loopRcHandle rc) else none
  | .check now ping => if s.sock then some (s.checkKeepalive now ping).1 else none

/-- The client with a clock. `heard` is the last time that something came from the peer or that
a connection began, `checked` that of the last check, `waiting` that of the CONNECT or PINGREQ
that has no answer yet. -/
structure Watch where
  mosq : Mosquitto
  clock : ℤ
  heard : ℤ
  checked : ℤ
  waiting : Option ℤ
deriving DecidableEq, Repr

def Watch.init (keepalive : ℕ) (now : ℤ) : Watch :=
  ⟨Mosquitto.init keepalive now, now, now, now, none⟩

/-- The step begins a connection. -/
def KeepLabel.begins : KeepLabel → Bool
  | .connect _ _ keepalive _ _ => intervalOk keepalive
  | .reconnect _ _ _ _ => true
  | _ => false

/-- Something comes from the peer. -/
def KeepLabel.hears : KeepLabel → Bool
  | .partly _ | .arrived _ _ _ => true
  | _ => false

def KeepLabel.checks : KeepLabel → Bool
  | .check _ _ => true
  | _ => false

/-- `heard` after a step. -/
def heardAfter (l : KeepLabel) (old : ℤ) : ℤ :=
  if l.begins then l.stop else if l.hears then l.start else old

/-- `checked` after a step. -/
def checkedAfter (l : KeepLabel) (old : ℤ) : ℤ :=
  if l.begins then l.stop else if l.checks then l.start else old

/-- `waiting` after a step from `s` to `s'`. -/
def waitingAfter (l : KeepLabel) (s s' : Mosquitto) (old : Option ℤ) : Option ℤ :=
  if l.begins then some l.start
  else if s.ping_t = 0 ∧ s'.ping_t ≠ 0 then some l.start
  else if s.ping_t ≠ 0 ∧ s'.ping_t = 0 then none
  else if s.state = .connected ∧ s'.state = .active then none
  else old

/-- The clock never runs backwards. -/
def watchNext (w : Watch) (l : KeepLabel) : Option Watch :=
  if w.clock ≤ l.start ∧ l.start ≤ l.stop then
    (w.mosq.step l).map fun s =>
      ⟨s, l.stop, heardAfter l w.heard, checkedAfter l w.checked,
        waitingAfter l w.mosq s w.waiting⟩
  else none

/-- While the socket is open, the checks are at most `D` seconds apart and last no longer. -/
def Timely (D : ℤ) (w : Watch) (l : KeepLabel) : Prop :=
  w.mosq.sock = true → l.start ≤ w.checked + D ∧ l.stop ≤ checkedAfter l w.checked + D

/-- No PINGREQ of the step fails. -/
def KeepLabel.Sends : KeepLabel → Prop
  | .check _ ping => ping ≠ none
  | _ => True

/-! ## What a step can do -/

/-- A connection has begun; whether the socket is open says its end. -/
structure Begun (now : ℤ) (s' : Mosquitto) : Prop where
  last_msg_in : s'.last_msg_in = now
  next_msg_out : s'.next_msg_out = now + s'.keepalive
  ping_t : s'.ping_t = 0
  state : s'.sock = true → s'.state = .connected

/-- A step that leaves the connection as it is, apart from what the peer sent and what was
written. -/
structure Stays (l : KeepLabel) (s s' : Mosquitto) : Prop where
  begins : l.begins = false
  keepalive : s'.keepalive = s.keepalive
  sock : s'.sock = s.sock
  last_msg_in : s'.last_msg_in = if l.hears then l.start else s.last_msg_in
  next_msg_out : s'.next_msg_out = s.next_msg_out ∨ s'.next_msg_out = l.start + s.keepalive
  ping_t : s'.ping_t = s.ping_t ∨ (l.hears = true ∧ s'.ping_t = 0)
  state : s'.state = s.state ∨ s'.state = .disconnected ∨ s'.state = .active
  idle : l.checks = true → s.due l.start = false

/-- `mosquitto__check_keepalive` sends a PINGREQ. -/
structure Pings (l : KeepLabel) (s s' : Mosquitto) : Prop where
  check : ∃ ping, l = .check l.start ping ∧ s'.ping_t = ping.getD 0
  due : s.due l.start = true
  active : s.state = .active
  quiet : s.ping_t = 0
  keepalive : s'.keepalive = s.keepalive
  sock : s'.sock = s.sock
  state : s'.state = .active
  last_msg_in : s'.last_msg_in = l.start
  next_msg_out : s'.next_msg_out = l.start + s.keepalive

theorem begun_reconnect (s : Mosquitto) (now : ℤ) (connectRc sendRc : MosqErr) :
    Begun now (s.reconnect now connectRc sendRc) := by
  unfold Mosquitto.reconnect
  split_ifs
  all_goals constructor
  all_goals simp

theorem stays_refl {l : KeepLabel} {s : Mosquitto} (hbegins : l.begins = false)
    (hhears : l.hears = false) (hchecks : l.checks = true → s.due l.start = false) :
    Stays l s s where
  begins := hbegins
  keepalive := rfl
  sock := rfl
  last_msg_in := by simp [hhears]
  next_msg_out := Or.inl rfl
  ping_t := Or.inl rfl
  state := Or.inl rfl
  idle := hchecks

@[simp] theorem loopRcHandle_success (s : Mosquitto) : s.loopRcHandle .success = s := rfl

theorem loopRcHandle_sock (s : Mosquitto) {rc : MosqErr} (hrc : rc ≠ .success) :
    (s.loopRcHandle rc).sock = false := by
  unfold Mosquitto.loopRcHandle
  rw [if_neg hrc]

/-- What the handlers of the packets can change. -/
structure Handled (s s' : Mosquitto) : Prop where
  keepalive : s'.keepalive = s.keepalive
  sock : s'.sock = s.sock
  next_msg_out : s'.next_msg_out = s.next_msg_out
  ping_t : s'.ping_t = s.ping_t ∨ s'.ping_t = 0
  state : s'.state = s.state ∨ s'.state = .active

theorem Handled.refl {s : Mosquitto} : Handled s s :=
  ⟨rfl, rfl, rfl, Or.inl rfl, Or.inl rfl⟩

theorem handled_pingresp (s : Mosquitto) : Handled s s.handlePingresp.1 := by
  unfold Mosquitto.handlePingresp
  split_ifs
  · exact Handled.refl
  · exact ⟨rfl, rfl, rfl, Or.inr rfl, Or.inl rfl⟩

theorem handled_connack (s : Mosquitto) (p : Packet) : Handled s (s.handleConnack p).1 := by
  unfold Mosquitto.handleConnack
  by_cases hcommand : p.command ≠ CMD_CONNACK
  · rw [if_pos hcommand]
    exact Handled.refl
  · rw [if_neg hcommand]
    split
    · split_ifs
      · exact Handled.refl
      · exact ⟨rfl, rfl, rfl, Or.inl rfl, Or.inr rfl⟩
      · exact Handled.refl
    · exact Handled.refl

theorem handled_handle (s : Mosquitto) (p : Packet) (rc : MosqErr) :
    Handled s (s.handle p rc).1 := by
  unfold Mosquitto.handle
  split_ifs
  · exact Handled.refl
  · exact handled_pingresp s
  · exact handled_connack s p
  · exact Handled.refl

theorem cases_arrived (s : Mosquitto) (now : ℤ) (p : Packet) (rc : MosqErr) :
    (s.arrived now p rc).sock = false ∨ Stays (.arrived now p rc) s (s.arrived now p rc) := by
  have h := handled_handle s p rc
  unfold Mosquitto.arrived
  by_cases hrc : (s.handle p rc).2 = .success
  · right
    simp only [hrc, loopRcHandle_success]
    constructor
    · rfl
    · exact h.keepalive
    · exact h.sock
    · rfl
    · exact Or.inl h.next_msg_out
    · exact h.ping_t.imp_right fun hzero => ⟨rfl, hzero⟩
    · exact h.state.imp_right Or.inr
    · intro hchecks
      cases hchecks
  · exact Or.inl (loopRcHandle_sock _ hrc)

theorem cases_wrote (s : Mosquitto) (now : ℤ) (p : Packet) :
    (s.wrote now p).sock = false ∨ Stays (.wrote now p) s (s.wrote now p) := by
  unfold Mosquitto.wrote
  split_ifs
  · exact Or.inl rfl
  · right
    constructor
    · rfl
    · rfl
    · rfl
    · rfl
    · exact Or.inr rfl
    · exact Or.inl rfl
    · exact Or.inl rfl
    · intro hchecks
      cases hchecks

theorem cases_check (s : Mosquitto) (now : ℤ) (ping : Option ℤ) :
    (s.checkKeepalive now ping).1.sock = false ∨
      Pings (.check now ping) s (s.checkKeepalive now ping).1 ∨
      Stays (.check now ping) s (s.checkKeepalive now ping).1 := by
  unfold Mosquitto.checkKeepalive
  by_cases hdue : s.due now = false
  · rw [if_pos hdue]
    exact Or.inr (Or.inr (stays_refl rfl rfl fun _ => hdue))
  · rw [if_neg hdue]
    by_cases hactive : s.state = .active ∧ s.ping_t = 0
    · rw [if_pos hactive]
      right
      left
      constructor
      · exact ⟨ping, rfl, rfl⟩
      · exact Bool.eq_true_of_not_eq_false hdue
      · exact hactive.1
      · exact hactive.2
      · rfl
      · rfl
      · exact hactive.1
      · rfl
      · rfl
    · rw [if_neg hactive]
      exact Or.inl rfl

/-- All that a step can do. -/
theorem step_cases {s s' : Mosquitto} {l : KeepLabel} (h : s.step l = some s') :
    (l.begins = true ∧ Begun l.start s') ∨ s'.sock = false ∨ Pings l s s' ∨ Stays l s s' := by
  cases l with
  | connect now stop keepalive connectRc sendRc =>
    cases h
    unfold Mosquitto.connect
    by_cases hok : intervalOk keepalive = false
    · rw [if_pos hok]
      exact Or.inr (Or.inr (Or.inr (stays_refl hok rfl (by simp [KeepLabel.checks]))))
    · rw [if_neg hok]
      exact Or.inl ⟨Bool.eq_true_of_not_eq_false hok, begun_reconnect _ now connectRc sendRc⟩
  | reconnect now stop connectRc sendRc =>
    cases h
    exact Or.inl ⟨rfl, begun_reconnect s now connectRc sendRc⟩
  | disconnect now =>
    cases h
    right; right; right
    exact { stays_refl rfl rfl (by simp [KeepLabel.checks]) with state := Or.inr (Or.inl rfl) }
  | wrote now p =>
    simp only [Mosquitto.step] at h
    split_ifs at h
    cases h
    rcases cases_wrote s now p with hclosed | hstays
    · exact Or.inr (Or.inl hclosed)
    · exact Or.inr (Or.inr (Or.inr hstays))
  | partly now =>
    simp only [Mosquitto.step] at h
    split_ifs at h
    cases h
    right; right; right
    exact ⟨rfl, rfl, rfl, rfl, Or.inl rfl, Or.inl rfl, Or.inl rfl, by simp [KeepLabel.checks]⟩
  | arrived now p rc =>
    simp only [Mosquitto.step] at h
    split_ifs at h
    cases h
    rcases cases_arrived s now p rc with hclosed | hstays
    · exact Or.inr (Or.inl hclosed)
    · exact Or.inr (Or.inr (Or.inr hstays))
  | failed now rc =>
    simp only [Mosquitto.step] at h
    split_ifs at h
    cases h
    by_cases hrc : rc = .success
    · rw [hrc, loopRcHandle_success]
      exact Or.inr (Or.inr (Or.inr (stays_refl rfl rfl (by simp [KeepLabel.checks]))))
    · exact Or.inr (Or.inl (loopRcHandle_sock s hrc))
  | check now ping =>
    simp only [Mosquitto.step] at h
    split_ifs at h
    cases h
    exact Or.inr (cases_check s now ping)

theorem watchNext_some {w w' : Watch} {l : KeepLabel} (h : watchNext w l = some w') :
    w.clock ≤ l.start ∧ l.start ≤ l.stop ∧ w.mosq.step l = some w'.mosq ∧ w'.clock = l.stop ∧
      w'.heard = heardAfter l w.heard ∧ w'.checked = checkedAfter l w.checked ∧
      w'.waiting = waitingAfter l w.mosq w'.mosq w.waiting := by
  unfold watchNext at h
  split_ifs at h with htime
  rcases Option.map_eq_some_iff.1 h with ⟨s, hs, rfl⟩
  exact ⟨htime.1, htime.2, hs, rfl, rfl, rfl, rfl⟩

/-! ## What a dropped connection was waiting for -/

/-- `t` is at least `keepalive` seconds before the next step that is due. -/
structure Before (t : ℤ) (s : Mosquitto) : Prop where
  last_msg_in : t ≤ s.last_msg_in
  next_msg_out : t + s.keepalive ≤ s.next_msg_out

/-- While the socket is open, a CONNECT or PINGREQ without an answer is `waiting`. -/
structure Asked (w : Watch) : Prop where
  state : w.mosq.sock = true →
    w.mosq.state = .connected ∨ w.mosq.state = .active ∨ w.mosq.state = .disconnected
  fresh : w.mosq.sock = true → w.mosq.state = .connected → w.mosq.ping_t = 0
  waiting : w.mosq.sock = true → w.mosq.ping_t ≠ 0 ∨ w.mosq.state = .connected →
    ∃ t, w.waiting = some t ∧ t ≤ w.clock ∧ Before t w.mosq

theorem asked_init (keepalive : ℕ) (now : ℤ) : Asked (Watch.init keepalive now) := by
  constructor
  · intro hopen
    cases hopen
  · intro hopen
    cases hopen
  · intro hopen
    cases hopen

theorem asked_of_closed {w : Watch} (hclosed : w.mosq.sock = false) : Asked w := by
  constructor
  all_goals
    intro hopen
    rw [hclosed] at hopen
    cases hopen

/-- Neither an arrival nor a write brings the next due check nearer. -/
theorem before_stays {l : KeepLabel} {s s' : Mosquitto} {t : ℤ} (h : Before t s)
    (hstays : Stays l s s') (ht : t ≤ l.start) : Before t s' := by
  constructor
  · rw [hstays.last_msg_in]
    split_ifs
    · exact ht
    · exact h.last_msg_in
  · rw [hstays.keepalive]
    have hnext := h.next_msg_out
    rcases hstays.next_msg_out with heq | heq
    · rwa [heq]
    · omega

theorem asked_stays {w w' : Watch} {l : KeepLabel} (h : Asked w) (hnext : watchNext w l = some w')
    (hstays : Stays l w.mosq w'.mosq) : Asked w' := by
  rcases watchNext_some hnext with ⟨hstart, hstop, _, hclock, _, _, hwaiting⟩
  have hopen : w'.mosq.sock = true → w.mosq.sock = true := fun hopen => hstays.sock ▸ hopen
  have hconnected : w'.mosq.state = .connected → w.mosq.state = .connected := by
    intro hstate
    rcases hstays.state with heq | heq | heq
    · rwa [heq] at hstate
    · rw [heq] at hstate
      cases hstate
    · rw [heq] at hstate
      cases hstate
  constructor
  · intro hsock
    rcases hstays.state with heq | heq | heq
    · rw [heq]
      exact h.state (hopen hsock)
    · exact Or.inr (Or.inr heq)
    · exact Or.inr (Or.inl heq)
  · intro hsock hstate
    have hzero := h.fresh (hopen hsock) (hconnected hstate)
    rcases hstays.ping_t with heq | heq
    · rw [heq, hzero]
    · exact heq.2
  · intro hsock hwaits
    have hwaits' : w.mosq.ping_t ≠ 0 ∨ w.mosq.state = .connected := by
      rcases hwaits with hping | hstate
      · left
        rcases hstays.ping_t with heq | heq
        · rwa [heq] at hping
        · exact absurd heq.2 hping
      · exact Or.inr (hconnected hstate)
    rcases h.waiting (hopen hsock) hwaits' with ⟨t, ht, htclock, hbefore⟩
    refine ⟨t, ?_, by omega, before_stays hbefore hstays (by omega)⟩
    rw [hwaiting]
    unfold waitingAfter
    rw [if_neg (by simp [hstays.begins])]
    rcases hwaits with hping | hstate
    · -- the PINGREQ was sent before
      have hping' : w.mosq.ping_t ≠ 0 := by
        rcases hstays.ping_t with heq | heq
        · rwa [heq] at hping
        · exact absurd heq.2 hping
      have hold := h.fresh (hopen hsock)
      rw [if_neg (fun hboth => hping' hboth.1), if_neg (fun hboth => hping hboth.2),
        if_neg (fun hboth => hping' (hold hboth.1)), ht]
    · have hzero := h.fresh (hopen hsock) (hconnected hstate)
      have hzero' : w'.mosq.ping_t = 0 := by
        rcases hstays.ping_t with heq | heq
        · rw [heq, hzero]
        · exact heq.2
      rw [if_neg (fun hboth => hboth.2 hzero'), if_neg (fun hboth => hboth.1 hzero),
        if_neg (fun hboth => by simp [hstate] at hboth), ht]

theorem asked_step {w w' : Watch} {l : KeepLabel} (h : Asked w)
    (hnext : watchNext w l = some w') : Asked w' := by
  rcases watchNext_some hnext with ⟨hstart, hstop, hstep, hclock, _, _, hwaiting⟩
  rcases step_cases hstep with ⟨hbegins, hbegun⟩ | hclosed | hpings | hstays
  · constructor
    · exact fun hsock => Or.inl (hbegun.state hsock)
    · exact fun _ _ => hbegun.ping_t
    · intro _ _
      refine ⟨l.start, ?_, by omega, ?_, ?_⟩
      · rw [hwaiting]
        unfold waitingAfter
        rw [if_pos hbegins]
      · exact hbegun.last_msg_in.ge
      · exact hbegun.next_msg_out.ge
  · exact asked_of_closed hclosed
  · constructor
    · exact fun _ => Or.inr (Or.inl hpings.state)
    · intro _ hstate
      rw [hpings.state] at hstate
      cases hstate
    · intro _ hwaits
      have hping : w'.mosq.ping_t ≠ 0 := by
        rcases hwaits with hping | hstate
        · exact hping
        · rw [hpings.state] at hstate
          cases hstate
      have hbegins : l.begins = false := by
        rcases hpings.check with ⟨ping, hl, _⟩
        rw [hl]
        rfl
      refine ⟨l.start, ?_, by omega, ?_, ?_⟩
      · rw [hwaiting]
        unfold waitingAfter
        rw [if_neg (by simp [hbegins]), if_pos ⟨hpings.quiet, hping⟩]
      · exact hpings.last_msg_in.ge
      · rw [hpings.keepalive]
        exact hpings.next_msg_out.ge
  · exact asked_stays h hnext hstays

theorem asked_run {keepalive : ℕ} {t0 : ℤ} {ls : List KeepLabel} {w : Watch}
    (hrun : Lib.exec watchNext (Watch.init keepalive t0) ls = some w) : Asked w :=
  Lib.exec_inv_all (P := Asked) (fun _ _ _ h hnext => asked_step h hnext)
    (asked_init keepalive t0) hrun

theorem due_iff {s : Mosquitto} {now : ℤ} :
    s.due now = true ↔ (s.keepalive ≠ 0 ∧ s.sock = true) ∧
      (s.next_msg_out ≤ now ∨ (s.keepalive : ℤ) ≤ now - s.last_msg_in) := by
  simp [Mosquitto.due]

/-- The check closes the socket only when it is due. -/
theorem due_of_closed {s : Mosquitto} {now : ℤ} {ping : Option ℤ} (hopen : s.sock = true)
    (hclosed : (s.checkKeepalive now ping).1.sock = false) :
    s.due now = true ∧ ¬(s.state = .active ∧ s.ping_t = 0) := by
  unfold Mosquitto.checkKeepalive at hclosed
  by_cases hdue : s.due now = false
  · rw [if_pos hdue, hopen] at hclosed
    cases hclosed
  · rw [if_neg hdue] at hclosed
    refine ⟨Bool.eq_true_of_not_eq_false hdue, fun hactive => ?_⟩
    rw [if_pos hactive] at hclosed
    exact Bool.false_ne_true (hclosed.symm.trans hopen)

theorem Before.le_of_due {s : Mosquitto} {t now : ℤ} (h : Before t s) (hdue : s.due now = true) :
    t + s.keepalive ≤ now := by
  have hlast := h.last_msg_in
  have hnext := h.next_msg_out
  rcases (due_iff.1 hdue).2 with hout | hin
  · omega
  · omega

/-- How far the clock can be ahead of what came last; the second field is what a check that
was not due leaves. -/
structure Found (D : ℤ) (w : Watch) : Prop where
  last_msg_in : w.mosq.last_msg_in ≤ w.heard + w.mosq.keepalive + D
  checked : w.checked ≤ w.heard ∨ w.checked < w.mosq.last_msg_in + w.mosq.keepalive
  quiet : w.mosq.ping_t = 0 → w.mosq.last_msg_in ≤ w.heard
  clock : w.clock ≤ w.checked + D

/-- `Found` of an open connection that is watched. -/
structure Heard (D : ℤ) (w : Watch) : Prop where
  pos : 0 < w.clock
  checked : w.checked ≤ w.clock
  found : w.mosq.sock = true → w.mosq.keepalive ≠ 0 → Found D w

theorem checked_le {w w' : Watch} {l : KeepLabel} (h : w.checked ≤ w.clock)
    (hnext : watchNext w l = some w') : w'.checked ≤ w'.clock := by
  rcases watchNext_some hnext with ⟨hstart, hstop, _, hclock, _, hchecked, _⟩
  rw [hchecked, hclock]
  unfold checkedAfter
  split_ifs
  · exact le_refl l.stop
  · exact hstop
  · omega

theorem found_begun {D : ℤ} {w w' : Watch} {l : KeepLabel} (hD : 0 ≤ D)
    (hnext : watchNext w l = some w') (hbegins : l.begins = true) (h : Begun l.start w'.mosq) :
    Found D w' := by
  rcases watchNext_some hnext with ⟨hstart, hstop, _, hclock, hheard, hchecked, _⟩
  have hheard' : w'.heard = l.stop := by simp [hheard, heardAfter, hbegins]
  have hchecked' : w'.checked = l.stop := by simp [hchecked, checkedAfter, hbegins]
  have hlast := h.last_msg_in
  constructor
  · omega
  · left
    omega
  · intro _
    omega
  · omega

/-- The PINGREQ goes out before the peer has been silent for `keepalive + D` seconds. -/
theorem found_pings {D : ℤ} {w w' : Watch} {l : KeepLabel} (h : Found D w)
    (hpos : 0 < w.clock) (hnext : watchNext w l = some w') (hopen : w.mosq.sock = true)
    (htimely : Timely D w l) (hsends : l.Sends) (hpings : Pings l w.mosq w'.mosq) :
    Found D w' := by
  rcases watchNext_some hnext with ⟨hstart, hstop, _, hclock, hheard, hchecked, _⟩
  rcases hpings.check with ⟨ping, hl, hping⟩
  have hbegins : l.begins = false := by rw [hl]; rfl
  have hhears : l.hears = false := by rw [hl]; rfl
  have hchecks : l.checks = true := by rw [hl]; rfl
  have hheard' : w'.heard = w.heard := by simp [hheard, heardAfter, hbegins, hhears]
  have hafter : checkedAfter l w.checked = l.start := by simp [checkedAfter, hbegins, hchecks]
  rcases htimely hopen with ⟨hsoon, hlasts⟩
  have hdue := (due_iff.1 hpings.due).1.1
  have hlast := hpings.last_msg_in
  have hkeep := hpings.keepalive
  have hquiet := h.quiet hpings.quiet
  have hgap := h.checked
  constructor
  · omega
  · right
    omega
  · intro hzero
    -- the time of a PINGREQ is not 0
    exfalso
    cases ping with
    | none =>
      rw [hl] at hsends
      exact hsends rfl
    | some sent =>
      have hsent : l.stop = sent := by rw [hl]; rfl
      rw [hzero, Option.getD_some] at hping
      omega
  · omega

theorem found_stays {D : ℤ} {w w' : Watch} {l : KeepLabel} (h : Found D w)
    (hcheckedle : w.checked ≤ w.clock) (hnext : watchNext w l = some w')
    (hopen : w.mosq.sock = true) (hkeepalive : w.mosq.keepalive ≠ 0) (htimely : Timely D w l)
    (hstays : Stays l w.mosq w'.mosq) : Found D w' := by
  rcases watchNext_some hnext with ⟨hstart, hstop, _, hclock, hheard, hchecked, _⟩
  have hkeep := hstays.keepalive
  have hlast := hstays.last_msg_in
  rcases htimely hopen with ⟨hsoon, hlasts⟩
  have hclock' : w'.clock ≤ w'.checked + D := by omega
  by_cases hhears : l.hears = true
  · have hheard' : w'.heard = l.start := by simp [hheard, heardAfter, hstays.begins, hhears]
    have hchecked' : w'.checked = w.checked := by
      have hchecks : l.checks = false := by
        cases l <;> first | rfl | cases hhears
      simp [hchecked, checkedAfter, hstays.begins, hchecks]
    rw [if_pos hhears] at hlast
    constructor
    · have hgap := h.clock
      omega
    · left
      omega
    · intro _
      omega
    · exact hclock'
  · rw [if_neg hhears] at hlast
    have hheard' : w'.heard = w.heard := by simp [hheard, heardAfter, hstays.begins, hhears]
    constructor
    · rw [hlast, hheard', hkeep]
      exact h.last_msg_in
    · rw [hheard', hlast, hkeep]
      by_cases hchecks : l.checks = true
      · -- a check that was not due
        have hchecked' : w'.checked = l.start := by
          simp [hchecked, checkedAfter, hstays.begins, hchecks]
        have hidle := hstays.idle hchecks
        right
        by_contra hlate
        have hdue : w.mosq.due l.start = true :=
          due_iff.2 ⟨⟨hkeepalive, hopen⟩, Or.inr (by omega)⟩
        rw [hidle] at hdue
        cases hdue
      · have hchecked' : w'.checked = w.checked := by
          simp [hchecked, checkedAfter, hstays.begins, hchecks]
        rw [hchecked']
        exact h.checked
    · intro hzero
      rcases hstays.ping_t with heq | heq
      · rw [hlast, hheard']
        exact h.quiet (heq.symm.trans hzero)
      · exact absurd heq.1 hhears
    · exact hclock'

theorem heard_step {D : ℤ} {w w' : Watch} {l : KeepLabel} (hD : 0 ≤ D) (h : Heard D w)
    (htimely : Timely D w l) (hsends : l.Sends) (hnext : watchNext w l = some w') :
    Heard D w' := by
  rcases watchNext_some hnext with ⟨hstart, hstop, hstep, hclock, _, _, _⟩
  have hpos := h.pos
  refine ⟨by omega, checked_le h.checked hnext, fun hopen' hkeepalive' => ?_⟩
  rcases step_cases hstep with ⟨hbegins, hbegun⟩ | hclosed | hpings | hstays
  · exact found_begun hD hnext hbegins hbegun
  · rw [hclosed] at hopen'
    cases hopen'
  · rw [hpings.sock] at hopen'
    rw [hpings.keepalive] at hkeepalive'
    exact found_pings (h.found hopen' hkeepalive') hpos hnext hopen' htimely hsends hpings
  · rw [hstays.sock] at hopen'
    rw [hstays.keepalive] at hkeepalive'
    exact found_stays (h.found hopen' hkeepalive') h.checked hnext hopen' hkeepalive' htimely
      hstays

/-- At any time of a run in which the keepalive check comes at least every `D` seconds and no
PINGREQ fails, something has come from the peer of an open connection, or the connection began,
within the last `2 * keepalive + 2 * D` seconds. -/
theorem heard_run {keepalive : ℕ} {t0 D : ℤ} {ls : List KeepLabel} {w : Watch} (ht0 : 0 < t0)
    (hD : 0 ≤ D) (hrun : Lib.exec watchNext (Watch.init keepalive t0) ls = some w)
    (htimely : Lib.Along watchNext (Timely D) (Watch.init keepalive t0) ls)
    (hsends : ∀ l ∈ ls, l.Sends) (hopen : w.mosq.sock = true) (hkeepalive : w.mosq.keepalive ≠ 0) :
    w.clock ≤ w.heard + 2 * w.mosq.keepalive + 2 * D := by
  have hinit : Heard D (Watch.init keepalive t0) :=
    ⟨ht0, le_refl t0, fun hsock => absurd hsock Bool.false_ne_true⟩
  have hok : Lib.Along watchNext (fun w l => Timely D w l ∧ l.Sends) (Watch.init keepalive t0) ls :=
    htimely.and (Lib.along_of_forall_mem (fun l hl _ => hsends l hl) _)
  have hheard : Heard D w :=
    Lib.exec_inv (P := Heard D) (fun _ _ _ h hstep hnext => heard_step hD h hstep.1 hstep.2 hnext)
      ls _ w hinit hok hrun
  have hfound := hheard.found hopen hkeepalive
  have hlast := hfound.last_msg_in
  have hclock := hfound.clock
  rcases hfound.checked with hearly | hidle
  · omega
  · omega

instance (D : ℤ) (w : Watch) (l : KeepLabel) : Decidable (Timely D w l) :=
  inferInstanceAs (Decidable (_ → _))

instance (l : KeepLabel) : Decidable l.Sends :=
  match l with
  | .check _ ping => inferInstanceAs (Decidable (ping ≠ none))
  | .connect _ _ _ _ _ | .reconnect _ _ _ _ | .disconnect _ | .wrote _ _ | .partly _
  | .arrived _ _ _ | .failed _ _ => .isTrue trivial

/-- The client goes on writing while the peer is silent from the CONNACK on. -/
theorem heard_run_silent :
    ∃ w, Lib.exec watchNext (Watch.init 5 100)
        [.connect 100 101 5 .success .success, .arrived 102 ⟨CMD_CONNACK, [0, 0]⟩ .success,
          .check 104 (some 104), .wrote 106 ⟨CMD_PUBLISH, [0, 1, 97]⟩, .check 107 (some 107),
          .wrote 108 ⟨CMD_PINGREQ, []⟩, .check 110 (some 110)] = some w ∧
      w.clock ≤ w.heard + 2 * w.mosq.keepalive + 2 * 3 := by
  have hrun : ∃ w, Lib.exec watchNext (Watch.init 5 100)
        [.connect 100 101 5 .success .success, .arrived 102 ⟨CMD_CONNACK, [0, 0]⟩ .success,
          .check 104 (some 104), .wrote 106 ⟨CMD_PUBLISH, [0, 1, 97]⟩, .check 107 (some 107),
          .wrote 108 ⟨CMD_PINGREQ, []⟩, .check 110 (some 110)] = some w ∧
      w.mosq.sock = true ∧ w.mosq.keepalive = 5 := ⟨_, rfl, rfl, rfl⟩
  rcases hrun with ⟨w, hrun, hopen, hkeepalive⟩
  refine ⟨w, hrun, heard_run (D := 3) (by decide) (by decide) hrun ?_ (by decide) hopen ?_⟩
  · decide
  · rw [hkeepalive]
    decide

end Mqtt

end DeviceClient
