import Mathlib.Data.List.Perm.Basic
import DeviceClient.Lib.Run
import DeviceClient.Mqtt.Utf8

/-!
# Outgoing messages

`mosquitto_publish` gives a message a mid and, where it wants an answer, appends it to
`msgs_out`. As many messages as the quota allows are on their way; the others wait in the
state `invalid`. An answer removes the message and calls `on_publish`; a new connection
starts the messages over.

* `kept_run`: every accepted message is in the queue until its answer, and `on_publish` is
  called for it once.
* `underway_le_run`: how many messages are on their way.
* `nodup_mids_run`: no two messages in the queue have one mid, as long as the oldest was
  accepted fewer than 65535 mids ago.
-/

namespace DeviceClient

namespace Mqtt

/-! ## State -/

/-- `mosq_ms_…`, as far as the library gives them to a message. -/
inductive MsgState where
  | invalid
  | publishQos1
  | waitForPuback
  | publishQos2
  | waitForPubrec
  | resendPubrel
  | waitForPubrel
  | waitForPubcomp
deriving DecidableEq, Repr

/-- `struct mosquitto_message_all`. `serial` only observes: the number of the call of
`mosquitto__mid_generate` that made the mid, or of the PUBLISH that brought the message. -/
structure MessageAll where
  mid : ℕ
  topic : List UInt8
  payload : List UInt8
  qos : ℕ
  retain : Bool
  dup : Bool
  state : MsgState
  serial : ℕ
deriving DecidableEq, Repr

/-- The sender's part of `struct mosquitto`. The last five only observe: the mids generated,
the messages that were queued and those that were answered (by serial and mid), what
`packet__queue` got in this connection, and the events since the quota was last counted that
gave it away for nothing. -/
structure MsgsOut where
  last_mid : ℕ
  inflight : List MessageAll
  inflight_quota : ℕ
  inflight_maximum : ℕ
  /-- `sock` is valid. -/
  connected : Bool
  /-- The state is `mosq_cs_active`. -/
  active : Bool
  generated : ℕ
  accepted : List (ℕ × ℕ)
  completed : List (ℕ × ℕ)
  outbox : List Packet
  slack : ℕ
deriving DecidableEq, Repr

/-- `mosquitto_reinitialise`, then the maximum is set, then `mosquitto__connect_init`. -/
def MsgsOut.init (inflight_maximum : ℕ) : MsgsOut where
  last_mid := 0
  inflight := []
  inflight_quota := inflight_maximum
  inflight_maximum := inflight_maximum
  connected := false
  active := false
  generated := 0
  accepted := []
  completed := []
  outbox := []
  slack := 0

def MessageAll.key (m : MessageAll) : ℕ × ℕ := (m.serial, m.mid)

/-! ## Packets -/

/-- `packet__write_uint16` -/
def uint16 (word : ℕ) : List UInt8 := [UInt8.ofNat (word / 256), UInt8.ofNat (word % 256)]

/-- `packet__read_uint16`, on what is left of the body. -/
def readUint16 : List UInt8 → Option (ℕ × List UInt8)
  | msb :: lsb :: rest => some (msb.toNat * 256 + lsb.toNat, rest)
  | _ => none

/-- The packet of `send__real_publish`. -/
def publishPacket (m : MessageAll) : Packet where
  command := CMD_PUBLISH ||| (if m.dup then 8 else 0) ||| UInt8.ofNat (2 * m.qos) |||
    (if m.retain then 1 else 0)
  body := uint16 m.topic.length ++ m.topic ++ (if m.qos > 0 then uint16 m.mid else []) ++ m.payload

/-- `send__command_with_mid` -/
def commandWithMid (command : UInt8) (mid : ℕ) : Packet := ⟨command, uint16 mid⟩

/-- A `send__…` function: no socket, or a packet that cannot be built, is an error. -/
def sendRc (connected : Bool) (p : Packet) : MosqErr :=
  if connected = false then .noConn
  else
    match packetAlloc p.command p.body.length with
    | .error rc => rc
    | .ok _ => .success

def MsgsOut.send (s : MsgsOut) (p : Packet) : MosqErr := sendRc s.connected p

/-! ## Mids and the quota -/

/-- `mosquitto__mid_generate`: 16 bits, never 0. -/
def MsgsOut.midGenerate (s : MsgsOut) : MsgsOut :=
  let next := (s.last_mid + 1) % 65536
  { s with last_mid := if next = 0 then 1 else next, generated := s.generated + 1 }

/-- `util__increment_send_quota` -/
def MsgsOut.incrementQuota (s : MsgsOut) : MsgsOut :=
  if s.inflight_quota < s.inflight_maximum then { s with inflight_quota := s.inflight_quota + 1 }
  else s

/-- An event that gives quota away. -/
def MsgsOut.slacken (s : MsgsOut) : MsgsOut := { s with slack := s.slack + 1 }

/-! ## The queue -/

/-- The state of a message that is sent for the first time. -/
def MessageAll.sending (m : MessageAll) : MessageAll :=
  if m.qos = 1 then { m with state := .waitForPuback }
  else if m.qos = 2 then { m with state := .waitForPubrec }
  else m

/-- What a walk over the queue leaves: the queue, the quota, the packets sent, and the return
code. -/
structure Walk where
  queue : List MessageAll
  quota : ℕ
  sent : List Packet
  rc : MosqErr

/-- The loop of `message__release_to_inflight`. -/
def releaseLoop (send : Packet → MosqErr) : ℕ → List MessageAll → Walk
  | quota, [] => ⟨[], quota, [], .success⟩
  | 0, m :: ms => ⟨m :: ms, 0, [], .success⟩
  | quota + 1, m :: ms =>
    if m.qos > 0 ∧ m.state = .invalid then
      let packet := publishPacket m.sending
      match send packet with
      | .success =>
        let rest := releaseLoop send quota ms
        ⟨m.sending :: rest.queue, rest.quota, packet :: rest.sent, rest.rc⟩
      | rc => ⟨m.sending :: ms, quota + 1, [], rc⟩
    else
      let rest := releaseLoop send (quota + 1) ms
      ⟨m :: rest.queue, rest.quota, rest.sent, rest.rc⟩

/-- `message__release_to_inflight`; a message that could not be sent stays on its way. -/
def MsgsOut.release (s : MsgsOut) : MsgsOut × MosqErr :=
  let walk := releaseLoop s.send s.inflight_quota s.inflight
  ({ s with
      inflight := walk.queue
      inflight_quota := walk.quota
      outbox := s.outbox ++ walk.sent
      slack := if walk.rc = .success then s.slack else s.slack + 1 }, walk.rc)

/-- `message__remove`: the first message with the mid, if its QoS is the expected one. -/
def remove (mid qos : ℕ) : List MessageAll → Except MosqErr (MessageAll × List MessageAll)
  | [] => .error .notFound
  | m :: ms =>
    if m.mid = mid then
      if m.qos ≠ qos then .error .protocol else .ok (m, ms)
    else
      match remove mid qos ms with
      | .error rc => .error rc
      | .ok (found, rest) => .ok (found, m :: rest)

/-- `message__out_update` on a PUBREC: the message as it was, and the queue after it. -/
def outUpdate (mid : ℕ) : List MessageAll → Except MosqErr (MessageAll × List MessageAll)
  | [] => .error .notFound
  | m :: ms =>
    if m.mid = mid then
      if m.qos ≠ 2 then .error .protocol else .ok (m, { m with state := .waitForPubcomp } :: ms)
    else
      match outUpdate mid ms with
      | .error rc => .error rc
      | .ok (found, rest) => .ok (found, m :: rest)

/-- A message that a new connection starts over. -/
def MessageAll.restart (m : MessageAll) : MessageAll :=
  if m.qos = 1 then { m with state := .publishQos1 }
  else if m.qos = 2 then
    if m.state = .waitForPubrec then { m with state := .publishQos2 }
    else if m.state = .waitForPubcomp then { m with state := .resendPubrel }
    else m
  else m

/-- The loop of `message__reconnect_reset` over the outgoing messages. -/
def resetLoop (update_quota_only : Bool) : ℕ → List MessageAll → List MessageAll × ℕ
  | quota, [] => ([], quota)
  | 0, m :: ms =>
    let (ms', quota') := resetLoop update_quota_only 0 ms
    ({ m with state := .invalid } :: ms', quota')
  | quota + 1, m :: ms =>
    let (ms', quota') := resetLoop update_quota_only quota ms
    ((if update_quota_only then m else m.restart) :: ms', quota')

/-- `message__reconnect_reset` -/
def MsgsOut.reconnectReset (s : MsgsOut) (update_quota_only : Bool) : MsgsOut :=
  let (queue, quota) := resetLoop update_quota_only s.inflight_maximum s.inflight
  { s with inflight := queue, inflight_quota := quota, slack := 0 }

/-- `message__retry_check`: what it sends for a message, and the message after it. -/
def MessageAll.retry (m : MessageAll) : MessageAll × Option Packet :=
  let again := { m with dup := true }
  match m.state with
  | .publishQos1 | .publishQos2 => (again, some (publishPacket again))
  | .resendPubrel | .waitForPubcomp => (again, some (commandWithMid (CMD_PUBREL ||| 2) m.mid))
  | _ => (m, none)

def MsgsOut.retryCheck (s : MsgsOut) : MsgsOut :=
  { s with
    inflight := s.inflight.map fun m => m.retry.1
    outbox := s.outbox ++ (s.inflight.filterMap fun m => m.retry.2).filter fun p =>
      s.send p = .success }

/-! ## Calls and answers -/

/-- `mosquitto_pub_topic_check`: no wildcards, and not too long. -/
def pubTopicCheck (str : List UInt8) : MosqErr :=
  if str.any (fun c => c = 0x2B ∨ c = 0x23) then .inval
  else if str.length > 65535 then .inval
  else .success

/-- The checks of `mosquitto_publish` before it takes a mid. -/
def publishCheck (topic payload : List UInt8) (qos : ℕ) : MosqErr :=
  if qos > 2 then .inval
  else if topic = [] then .inval
  else if validateUtf8 topic ≠ .success then .malformedUtf8
  else if payload.length > maxLength then .payloadSize
  else if pubTopicCheck topic ≠ .success then .inval
  else .success

/-- `message__queue` -/
def MsgsOut.queueMessage (s : MsgsOut) (m : MessageAll) : MsgsOut × MosqErr :=
  MsgsOut.release { s with inflight := s.inflight ++ [m], accepted := s.accepted ++ [m.key] }

/-- `mosquitto_publish`; the mid is `last_mid` after it. -/
def MsgsOut.publish (s : MsgsOut) (topic payload : List UInt8) (qos : ℕ) (retain : Bool) :
    MsgsOut × MosqErr :=
  match publishCheck topic payload qos with
  | .success =>
    let s1 := s.midGenerate
    let m : MessageAll := ⟨s1.last_mid, topic, payload, qos, retain, false, .invalid, s1.generated⟩
    if qos = 0 then
      let packet := publishPacket m
      match s1.send packet with
      | .success => ({ s1 with outbox := s1.outbox ++ [packet] }, .success)
      | rc => (s1, rc)
    else s1.queueMessage m
  | rc => (s, rc)

/-- An answer that removes no message on its way gives quota away. -/
def MsgsOut.complete (s : MsgsOut) (m : MessageAll) (rest : List MessageAll) : MsgsOut :=
  { s with
    inflight := rest
    completed := s.completed ++ [m.key]
    slack := if m.state = .invalid then s.slack + 1 else s.slack }

/-- `handle__pubackcomp`, on a PUBACK (`qos` 1) or a PUBCOMP (`qos` 2). -/
def MsgsOut.handlePubackcomp (s : MsgsOut) (qos : ℕ) (p : Packet) : MsgsOut × MosqErr :=
  if s.active = false then (s, .protocol)
  else if p.command &&& 0x0F ≠ 0 then (s, .malformedPacket)
  else
    -- the quota goes up before anything is known about the mid
    let s1 := s.incrementQuota
    match readUint16 p.body with
    | none => (s1.slacken, .malformedPacket)
    | some (mid, rest) =>
      if mid = 0 then (s1.slacken, .protocol)
      else if rest ≠ [] then (s1.slacken, .malformedPacket)
      else
        match remove mid qos s1.inflight with
        | .ok (m, queue) => ((s1.complete m queue).release.1, .success)
        | .error .notFound => (s1.slacken.release.1, .success)
        | .error rc => (s1.slacken, rc)

/-- `handle__pubrec`: the message, if there is one, waits for the PUBCOMP. -/
def MsgsOut.handlePubrec (s : MsgsOut) (p : Packet) : MsgsOut × MosqErr :=
  if s.active = false then (s, .protocol)
  else if p.command ≠ CMD_PUBREC then (s, .malformedPacket)
  else
    match readUint16 p.body with
    | none => (s, .malformedPacket)
    | some (mid, rest) =>
      if mid = 0 then (s, .protocol)
      else if rest ≠ [] then (s, .malformedPacket)
      else
        let pubrel := commandWithMid (CMD_PUBREL ||| 2) mid
        match outUpdate mid s.inflight with
        | .error .protocol => (s, .protocol)
        | .error _ => ({ s with outbox := s.outbox ++ [pubrel] }, s.send pubrel)
        | .ok (m, queue) =>
          ({ s with
              inflight := queue
              outbox := s.outbox ++ [pubrel]
              slack := if m.state = .invalid then s.slack + 1 else s.slack }, s.send pubrel)

/-- What a CONNACK that is no acceptance returns. -/
def refusedRc (reason_code : UInt8) : MosqErr :=
  if reason_code ≤ 5 then .connRefused else .protocol

/-- `handle__connack`: the quota is counted anew, then an accepted connection is active and
resends what is on its way. -/
def MsgsOut.handleConnack (s : MsgsOut) (p : Packet) : MsgsOut × MosqErr :=
  if p.command ≠ CMD_CONNACK then (s, .malformedPacket)
  else
    match p.body with
    | _ :: reason_code :: _ =>
      let s1 := s.reconnectReset true
      if reason_code = 0 then (MsgsOut.retryCheck { s1 with active := true }, .success)
      else (s1, refusedRc reason_code)
    | _ => (s, .malformedPacket)

/-- `handle__packet`, as far as it concerns outgoing messages. -/
def MsgsOut.handle (s : MsgsOut) (p : Packet) : MsgsOut × MosqErr :=
  if p.command &&& 0xF0 = CMD_PUBACK then s.handlePubackcomp 1 p
  else if p.command &&& 0xF0 = CMD_PUBCOMP then s.handlePubackcomp 2 p
  else if p.command &&& 0xF0 = CMD_PUBREC then s.handlePubrec p
  else if p.command &&& 0xF0 = CMD_CONNACK then s.handleConnack p
  else (s, .success)

/-! ## Runs -/

inductive MsgLabel where
  | publish (topic payload : List UInt8) (qos : ℕ) (retain : Bool)
  /-- A SUBSCRIBE or an UNSUBSCRIBE takes a mid. -/
  | otherMid
  /-- A packet that the peer sent; an error closes the socket. -/
  | packet (p : Packet)
  | lost
  /-- The beginning of `mosquitto__reconnect`. -/
  | reconnectReset
  /-- `net__socket_connect` -/
  | socketConnect (connected : Bool)

def msgNext (s : MsgsOut) : MsgLabel → Option MsgsOut
  | .publish topic payload qos retain => some (s.publish topic payload qos retain).1
  | .otherMid => some s.midGenerate
  | .packet p =>
    if s.connected = true then
      let (s', rc) := s.handle p
      some (if rc = .success then s' else { s' with connected := false })
    else none
  | .lost => some { s with connected := false }
  | .reconnectReset => some { s.reconnectReset false with outbox := [], connected := false }
  | .socketConnect connected =>
    if s.connected = false then some { s with connected := connected, active := false } else none

/-! ## What the walks leave -/

theorem key_sending (m : MessageAll) : m.sending.key = m.key := by
  unfold MessageAll.sending
  split_ifs <;> rfl

theorem key_restart (m : MessageAll) : m.restart.key = m.key := by
  unfold MessageAll.restart
  split_ifs <;> rfl

theorem key_retry (m : MessageAll) : m.retry.1.key = m.key := by
  unfold MessageAll.retry
  dsimp only
  split <;> rfl

theorem releaseLoop_sent {send : Packet → MosqErr} {m : MessageAll}
    (hwaits : m.qos > 0 ∧ m.state = .invalid) (hsend : send (publishPacket m.sending) = .success)
    (quota : ℕ) (ms : List MessageAll) :
    releaseLoop send (quota + 1) (m :: ms) =
      ⟨m.sending :: (releaseLoop send quota ms).queue, (releaseLoop send quota ms).quota,
        publishPacket m.sending :: (releaseLoop send quota ms).sent,
        (releaseLoop send quota ms).rc⟩ := by
  rw [releaseLoop, if_pos hwaits]
  dsimp only
  rw [hsend]

theorem releaseLoop_failed {send : Packet → MosqErr} {m : MessageAll}
    (hwaits : m.qos > 0 ∧ m.state = .invalid) (hsend : send (publishPacket m.sending) ≠ .success)
    (quota : ℕ) (ms : List MessageAll) :
    releaseLoop send (quota + 1) (m :: ms) =
      ⟨m.sending :: ms, quota + 1, [], send (publishPacket m.sending)⟩ := by
  rw [releaseLoop, if_pos hwaits]
  dsimp only
  split
  · contradiction
  · rfl

theorem releaseLoop_skip (send : Packet → MosqErr) {m : MessageAll}
    (hwaits : ¬(m.qos > 0 ∧ m.state = .invalid)) (quota : ℕ) (ms : List MessageAll) :
    releaseLoop send (quota + 1) (m :: ms) =
      ⟨m :: (releaseLoop send (quota + 1) ms).queue, (releaseLoop send (quota + 1) ms).quota,
        (releaseLoop send (quota + 1) ms).sent, (releaseLoop send (quota + 1) ms).rc⟩ := by
  rw [releaseLoop, if_neg hwaits]

theorem keys_releaseLoop (send : Packet → MosqErr) (quota : ℕ) (ms : List MessageAll) :
    (releaseLoop send quota ms).queue.map MessageAll.key = ms.map MessageAll.key := by
  induction ms generalizing quota with
  | nil => cases quota <;> rfl
  | cons m ms ih =>
    cases quota with
    | zero => rfl
    | succ quota =>
      by_cases hwaits : m.qos > 0 ∧ m.state = .invalid
      · by_cases hsend : send (publishPacket m.sending) = .success
        · rw [releaseLoop_sent hwaits hsend, List.map_cons, List.map_cons, key_sending, ih]
        · rw [releaseLoop_failed hwaits hsend, List.map_cons, List.map_cons, key_sending]
      · rw [releaseLoop_skip send hwaits, List.map_cons, List.map_cons, ih]

theorem keys_resetLoop (update_quota_only : Bool) (quota : ℕ) (ms : List MessageAll) :
    (resetLoop update_quota_only quota ms).1.map MessageAll.key = ms.map MessageAll.key := by
  induction ms generalizing quota with
  | nil => cases quota <;> rfl
  | cons m ms ih =>
    cases quota with
    | zero =>
      unfold resetLoop
      dsimp only
      rw [List.map_cons, ih]
      rfl
    | succ quota =>
      unfold resetLoop
      dsimp only
      rw [List.map_cons, ih, List.map_cons]
      split_ifs
      · rfl
      · rw [key_restart]

theorem keys_outUpdate {mid : ℕ} {ms queue : List MessageAll} {m : MessageAll}
    (h : outUpdate mid ms = .ok (m, queue)) :
    queue.map MessageAll.key = ms.map MessageAll.key := by
  induction ms generalizing queue with
  | nil => cases h
  | cons m' ms ih =>
    unfold outUpdate at h
    split_ifs at h with hmid hqos
    · cases h
      rfl
    · split at h
      · cases h
      case h_2 found rest hrest =>
        cases h
        rw [List.map_cons, List.map_cons, ih hrest]

/-- The message that is removed was in the queue, with the mid and the QoS of the answer. -/
theorem remove_ok {mid qos : ℕ} {ms rest : List MessageAll} {m : MessageAll}
    (h : remove mid qos ms = .ok (m, rest)) :
    m.mid = mid ∧ m.qos = qos ∧
      ∃ before after, ms = before ++ m :: after ∧ rest = before ++ after := by
  induction ms generalizing rest with
  | nil => cases h
  | cons m' ms ih =>
    unfold remove at h
    split_ifs at h with hmid hqos
    · cases h
      exact ⟨hmid, not_not.1 hqos, [], ms, rfl, rfl⟩
    · split at h
      · cases h
      case h_2 found rest' hrest =>
        cases h
        obtain ⟨hm, hq, before, after, rfl, rfl⟩ := ih hrest
        exact ⟨hm, hq, m' :: before, after, rfl, rfl⟩

/-! ## Every message is kept -/

/-- The accepted messages are those that were answered and those in the queue, which are in
the order of their acceptance. -/
structure Kept (s : MsgsOut) : Prop where
  perm : (s.completed ++ s.inflight.map MessageAll.key).Perm s.accepted
  order : (s.inflight.map MessageAll.key).Sublist s.accepted
  increasing : s.accepted.Pairwise fun a b => a.1 < b.1
  generated : ∀ k ∈ s.accepted, k.1 ≤ s.generated

theorem kept_init (inflight_maximum : ℕ) : Kept (MsgsOut.init inflight_maximum) :=
  ⟨List.Perm.refl _, List.Sublist.refl _, List.Pairwise.nil, fun _ h => absurd h List.not_mem_nil⟩

/-- A step that changes neither the messages nor what was accepted or answered. -/
structure SameKeys (s s' : MsgsOut) : Prop where
  keys : s'.inflight.map MessageAll.key = s.inflight.map MessageAll.key
  accepted : s'.accepted = s.accepted
  completed : s'.completed = s.completed
  generated : s.generated ≤ s'.generated

theorem SameKeys.refl (s : MsgsOut) : SameKeys s s := ⟨rfl, rfl, rfl, Nat.le_refl _⟩

theorem SameKeys.trans {s1 s2 s3 : MsgsOut} (h : SameKeys s1 s2) (h' : SameKeys s2 s3) :
    SameKeys s1 s3 :=
  ⟨h'.keys.trans h.keys, h'.accepted.trans h.accepted, h'.completed.trans h.completed,
    h.generated.trans h'.generated⟩

theorem Kept.same {s s' : MsgsOut} (h : Kept s) (hsame : SameKeys s s') : Kept s' := by
  constructor
  · rw [hsame.keys, hsame.accepted, hsame.completed]
    exact h.perm
  · rw [hsame.keys, hsame.accepted]
    exact h.order
  · rw [hsame.accepted]
    exact h.increasing
  · rw [hsame.accepted]
    exact fun k hk => (h.generated k hk).trans hsame.generated

theorem same_release (s : MsgsOut) : SameKeys s s.release.1 :=
  ⟨keys_releaseLoop _ _ _, rfl, rfl, Nat.le_refl _⟩

theorem same_reconnectReset (s : MsgsOut) (b : Bool) : SameKeys s (s.reconnectReset b) :=
  ⟨keys_resetLoop b _ _, rfl, rfl, Nat.le_refl _⟩

theorem same_retryCheck (s : MsgsOut) : SameKeys s s.retryCheck := by
  refine ⟨?_, rfl, rfl, Nat.le_refl _⟩
  unfold MsgsOut.retryCheck
  rw [List.map_map]
  exact List.map_congr_left fun m _ => key_retry m

theorem same_midGenerate (s : MsgsOut) : SameKeys s s.midGenerate :=
  ⟨rfl, rfl, rfl, Nat.le_succ _⟩

theorem same_incrementQuota (s : MsgsOut) : SameKeys s s.incrementQuota := by
  unfold MsgsOut.incrementQuota
  split_ifs
  · exact ⟨rfl, rfl, rfl, Nat.le_refl _⟩
  · exact SameKeys.refl s

theorem same_slacken (s : MsgsOut) : SameKeys s s.slacken := ⟨rfl, rfl, rfl, Nat.le_refl _⟩

theorem kept_append {s : MsgsOut} (h : Kept s) {m : MessageAll}
    (hnew : ∀ k ∈ s.accepted, k.1 < m.serial) (hserial : m.serial ≤ s.generated) :
    Kept { s with inflight := s.inflight ++ [m], accepted := s.accepted ++ [m.key] } := by
  constructor
  · dsimp only
    rw [List.map_append, ← List.append_assoc]
    exact h.perm.append_right _
  · dsimp only
    rw [List.map_append]
    exact h.order.append (List.Sublist.refl _)
  · dsimp only
    rw [List.pairwise_append]
    refine ⟨h.increasing, List.pairwise_singleton _ _, fun k hk k' hk' => ?_⟩
    rw [List.mem_singleton.1 hk']
    exact hnew k hk
  · intro k hk
    rcases List.mem_append.1 hk with hk | hk
    · exact h.generated k hk
    · rw [List.mem_singleton.1 hk]
      exact hserial

theorem kept_publish {s : MsgsOut} (h : Kept s) (topic payload : List UInt8) (qos : ℕ)
    (retain : Bool) : Kept (s.publish topic payload qos retain).1 := by
  have hmid := h.same (same_midGenerate s)
  unfold MsgsOut.publish
  split
  · dsimp only
    split_ifs
    · split
      · exact hmid.same ⟨rfl, rfl, rfl, Nat.le_refl _⟩
      · exact hmid
    · unfold MsgsOut.queueMessage
      refine Kept.same (kept_append hmid ?_ (Nat.le_refl _)) (same_release _)
      exact fun k hk => Nat.lt_succ_of_le (h.generated k hk)
  · exact h

theorem kept_complete {s : MsgsOut} (h : Kept s) {mid qos : ℕ} {m : MessageAll}
    {queue : List MessageAll} (hremove : remove mid qos s.inflight = .ok (m, queue)) :
    Kept (s.complete m queue) := by
  obtain ⟨-, -, before, after, hsplit, rfl⟩ := remove_ok hremove
  have hperm := h.perm
  have horder := h.order
  rw [hsplit, List.map_append, List.map_cons] at hperm horder
  constructor
  · unfold MsgsOut.complete
    dsimp only
    rw [List.map_append, List.append_assoc, List.singleton_append]
    refine List.Perm.trans ?_ hperm
    exact List.perm_middle.symm.append_left _
  · unfold MsgsOut.complete
    dsimp only
    rw [List.map_append]
    refine List.Sublist.trans ?_ horder
    exact (List.Sublist.refl _).append (List.sublist_cons_self _ _)
  · exact h.increasing
  · exact h.generated

theorem kept_handlePubackcomp {s : MsgsOut} (h : Kept s) (qos : ℕ) (p : Packet) :
    Kept (s.handlePubackcomp qos p).1 := by
  have hmore := h.same (same_incrementQuota s)
  have hless := hmore.same (same_slacken _)
  unfold MsgsOut.handlePubackcomp
  split_ifs
  · exact h
  · exact h
  · dsimp only
    split
    · exact hless
    · split_ifs
      · exact hless
      · exact hless
      · split
        case h_1 m queue hremove => exact (kept_complete hmore hremove).same (same_release _)
        case h_2 => exact hless.same (same_release _)
        case h_3 => exact hless

theorem kept_handlePubrec {s : MsgsOut} (h : Kept s) (p : Packet) : Kept (s.handlePubrec p).1 := by
  unfold MsgsOut.handlePubrec
  split_ifs
  · exact h
  · exact h
  · split
    · exact h
    · split_ifs
      · exact h
      · exact h
      · dsimp only
        split
        · exact h
        · exact h.same ⟨rfl, rfl, rfl, Nat.le_refl _⟩
        case h_3 m queue hupdate => exact h.same ⟨keys_outUpdate hupdate, rfl, rfl, Nat.le_refl _⟩

theorem kept_handleConnack {s : MsgsOut} (h : Kept s) (p : Packet) :
    Kept (s.handleConnack p).1 := by
  have hreset := h.same (same_reconnectReset s true)
  unfold MsgsOut.handleConnack
  split_ifs
  · exact h
  · split
    · dsimp only
      split_ifs
      · refine Kept.same ?_ (same_retryCheck _)
        exact hreset.same ⟨rfl, rfl, rfl, Nat.le_refl _⟩
      · exact hreset
    · exact h

theorem kept_handle {s : MsgsOut} (h : Kept s) (p : Packet) : Kept (s.handle p).1 := by
  unfold MsgsOut.handle
  split_ifs
  · exact kept_handlePubackcomp h 1 p
  · exact kept_handlePubackcomp h 2 p
  · exact kept_handlePubrec h p
  · exact kept_handleConnack h p
  · exact h

theorem kept_step {s s' : MsgsOut} (h : Kept s) (l : MsgLabel) (hstep : msgNext s l = some s') :
    Kept s' := by
  cases l with
  | publish topic payload qos retain =>
    cases hstep
    exact kept_publish h topic payload qos retain
  | otherMid =>
    cases hstep
    exact h.same (same_midGenerate s)
  | packet p =>
    have hhandle := kept_handle h p
    unfold msgNext at hstep
    dsimp only at hstep
    split_ifs at hstep <;> cases hstep
    · exact hhandle
    · exact hhandle.same ⟨rfl, rfl, rfl, Nat.le_refl _⟩
  | lost =>
    cases hstep
    exact h.same ⟨rfl, rfl, rfl, Nat.le_refl _⟩
  | reconnectReset =>
    cases hstep
    exact (h.same (same_reconnectReset s false)).same ⟨rfl, rfl, rfl, Nat.le_refl _⟩
  | socketConnect connected =>
    unfold msgNext at hstep
    dsimp only at hstep
    split_ifs at hstep
    cases hstep
    exact h.same ⟨rfl, rfl, rfl, Nat.le_refl _⟩

theorem kept_exec {inflight_maximum : ℕ} {ls : List MsgLabel} {s : MsgsOut}
    (hrun : Lib.exec msgNext (MsgsOut.init inflight_maximum) ls = some s) : Kept s := by
  refine Lib.exec_inv_all ?_ (kept_init inflight_maximum) hrun
  exact fun s l s' h hstep => kept_step h l hstep

/-- Whatever the peer answers and however often the connection is lost: every accepted
message is either in the queue, in the order of acceptance, or was answered, and `on_publish`
was called for the latter, once. -/
theorem kept_run {inflight_maximum : ℕ} {ls : List MsgLabel} {s : MsgsOut}
    (hrun : Lib.exec msgNext (MsgsOut.init inflight_maximum) ls = some s) :
    (s.completed ++ s.inflight.map MessageAll.key).Perm s.accepted ∧
      (s.inflight.map MessageAll.key).Sublist s.accepted ∧
      (s.completed ++ s.inflight.map MessageAll.key).Nodup := by
  have h := kept_exec hrun
  refine ⟨h.perm, h.order, h.perm.nodup_iff.2 ?_⟩
  exact h.increasing.imp fun hlt heq => by
    rw [heq] at hlt
    exact Nat.lt_irrefl _ hlt

/-- Two messages with a maximum of one: the first is answered, the connection is lost, and
the second is sent in the next one. -/
theorem kept_run_reconnect :
    ([(1, 1)] ++ [(2, 2)] : List (ℕ × ℕ)).Perm [(1, 1), (2, 2)] ∧
      [(2, 2)].Sublist [((1 : ℕ), (1 : ℕ)), (2, 2)] ∧ ([(1, 1)] ++ [(2, 2)] : List (ℕ × ℕ)).Nodup :=
  @kept_run 1
    [.reconnectReset, .socketConnect true, .packet ⟨CMD_CONNACK, [0, 0]⟩, .publish [97] [1] 1 false,
      .publish [97] [2] 1 false, .packet ⟨CMD_PUBACK, [0, 1]⟩, .lost, .reconnectReset,
      .socketConnect true, .packet ⟨CMD_CONNACK, [0, 0]⟩]
    ⟨2, [⟨2, [97], [2], 1, false, true, .publishQos1, 2⟩], 0, 1, true, true, 2, [(1, 1), (2, 2)],
      [(1, 1)], [⟨0x3A, [0, 1, 97, 0, 2, 2]⟩], 0⟩ rfl

/-! ## The quota -/

/-- The messages that are on their way: they do not wait for quota. -/
def onTheWay (ms : List MessageAll) : ℕ := ms.countP fun m => m.state ≠ .invalid

theorem onTheWay_cons (m : MessageAll) (ms : List MessageAll) :
    onTheWay (m :: ms) = onTheWay ms + if m.state ≠ .invalid then 1 else 0 := by
  unfold onTheWay
  rw [List.countP_cons]
  simp only [decide_eq_true_eq]

theorem onTheWay_append (ms ms' : List MessageAll) :
    onTheWay (ms ++ ms') = onTheWay ms + onTheWay ms' := List.countP_append

theorem onTheWay_releaseLoop (send : Packet → MosqErr) (quota : ℕ) (ms : List MessageAll) :
    onTheWay (releaseLoop send quota ms).queue + (releaseLoop send quota ms).quota ≤
      onTheWay ms + quota + if (releaseLoop send quota ms).rc = .success then 0 else 1 := by
  induction ms generalizing quota with
  | nil => cases quota <;> exact Nat.le_refl _
  | cons m ms ih =>
    cases quota with
    | zero => exact Nat.le_refl _
    | succ quota =>
      have hone : (if m.sending.state ≠ .invalid then 1 else 0) ≤ 1 := by split_ifs <;> omega
      by_cases hwaits : m.qos > 0 ∧ m.state = .invalid
      · have hm : (if m.state ≠ .invalid then 1 else 0) = 0 := if_neg (not_not.2 hwaits.2)
        by_cases hsend : send (publishPacket m.sending) = .success
        · have hrest := ih quota
          rw [releaseLoop_sent hwaits hsend, onTheWay_cons, onTheWay_cons, hm]
          dsimp only
          omega
        · rw [releaseLoop_failed hwaits hsend, onTheWay_cons, onTheWay_cons, hm, if_neg hsend]
          dsimp only
          omega
      · have hrest := ih (quota + 1)
        rw [releaseLoop_skip send hwaits, onTheWay_cons, onTheWay_cons]
        dsimp only
        omega

theorem onTheWay_resetLoop (update_quota_only : Bool) (quota : ℕ) (ms : List MessageAll) :
    onTheWay (resetLoop update_quota_only quota ms).1 + (resetLoop update_quota_only quota ms).2 ≤
      quota := by
  induction ms generalizing quota with
  | nil => cases quota <;> exact Nat.le_of_eq (Nat.zero_add _)
  | cons m ms ih =>
    cases quota with
    | zero =>
      have hrest := ih 0
      unfold resetLoop
      dsimp only
      rw [onTheWay_cons]
      exact hrest
    | succ quota =>
      have hrest := ih quota
      unfold resetLoop
      dsimp only
      rw [onTheWay_cons]
      split_ifs <;> omega

theorem onTheWay_retry (ms : List MessageAll) :
    onTheWay (ms.map fun m => m.retry.1) = onTheWay ms := by
  unfold onTheWay
  rw [List.countP_map]
  refine List.countP_congr fun m _ => ?_
  have hstate : m.retry.1.state = m.state := by
    unfold MessageAll.retry
    dsimp only
    split <;> rfl
  dsimp only [Function.comp_apply]
  rw [hstate]

theorem onTheWay_outUpdate {mid : ℕ} {ms queue : List MessageAll} {m : MessageAll}
    (h : outUpdate mid ms = .ok (m, queue)) :
    onTheWay queue = onTheWay ms + if m.state = .invalid then 1 else 0 := by
  induction ms generalizing queue with
  | nil => cases h
  | cons m' ms ih =>
    unfold outUpdate at h
    split_ifs at h with hmid hqos
    · cases h
      rw [onTheWay_cons, onTheWay_cons]
      dsimp only
      split_ifs <;> simp_all
    · split at h
      · cases h
      case h_2 found rest hrest =>
        cases h
        rw [onTheWay_cons, onTheWay_cons, ih hrest]
        omega

/-- The messages on their way and the quota that is left, against the maximum. -/
def Flow (s : MsgsOut) : Prop :=
  onTheWay s.inflight + s.inflight_quota ≤ s.inflight_maximum + s.slack

theorem flow_release {s : MsgsOut} (h : Flow s) : Flow s.release.1 := by
  have hloop := onTheWay_releaseLoop s.send s.inflight_quota s.inflight
  unfold Flow at h ⊢
  unfold MsgsOut.release
  dsimp only
  split_ifs at hloop ⊢ <;> omega

theorem flow_reconnectReset (s : MsgsOut) (b : Bool) : Flow (s.reconnectReset b) :=
  onTheWay_resetLoop b _ _

theorem flow_publish {s : MsgsOut} (h : Flow s) (topic payload : List UInt8) (qos : ℕ)
    (retain : Bool) : Flow (s.publish topic payload qos retain).1 := by
  unfold MsgsOut.publish
  split
  · dsimp only
    split_ifs
    · split <;> exact h
    · unfold MsgsOut.queueMessage
      refine flow_release ?_
      unfold Flow at h ⊢
      dsimp only
      rw [onTheWay_append]
      exact h
  · exact h

/-- One more free place, which a message that was removed or an event that is counted makes up
for. -/
theorem flow_incrementQuota {s : MsgsOut} (h : Flow s) :
    onTheWay s.incrementQuota.inflight + s.incrementQuota.inflight_quota ≤
      s.incrementQuota.inflight_maximum + s.incrementQuota.slack + 1 := by
  unfold Flow at h
  unfold MsgsOut.incrementQuota
  split_ifs
  · dsimp only
    omega
  · omega

theorem flow_complete {s : MsgsOut} (h : Flow s) {mid qos : ℕ} {m : MessageAll}
    {queue : List MessageAll}
    (hremove : remove mid qos s.incrementQuota.inflight = .ok (m, queue)) :
    Flow (s.incrementQuota.complete m queue) := by
  have hmore := flow_incrementQuota h
  obtain ⟨-, -, before, after, hsplit, rfl⟩ := remove_ok hremove
  rw [hsplit, onTheWay_append, onTheWay_cons] at hmore
  unfold Flow MsgsOut.complete
  dsimp only
  rw [onTheWay_append]
  split_ifs at hmore ⊢ <;> omega

theorem flow_handlePubackcomp {s : MsgsOut} (h : Flow s) (qos : ℕ) (p : Packet) :
    Flow (s.handlePubackcomp qos p).1 := by
  have hless : Flow s.incrementQuota.slacken := flow_incrementQuota h
  unfold MsgsOut.handlePubackcomp
  split_ifs
  · exact h
  · exact h
  · dsimp only
    split
    · exact hless
    · split_ifs
      · exact hless
      · exact hless
      · split
        case h_1 m queue hremove => exact flow_release (flow_complete h hremove)
        case h_2 => exact flow_release hless
        case h_3 => exact hless

theorem flow_handlePubrec {s : MsgsOut} (h : Flow s) (p : Packet) : Flow (s.handlePubrec p).1 := by
  unfold MsgsOut.handlePubrec
  split_ifs
  · exact h
  · exact h
  · split
    · exact h
    · split_ifs
      · exact h
      · exact h
      · dsimp only
        split
        · exact h
        · exact h
        case h_3 m queue hupdate =>
          unfold Flow at h ⊢
          dsimp only
          rw [onTheWay_outUpdate hupdate]
          split_ifs <;> omega

theorem flow_handle {s : MsgsOut} (h : Flow s) (p : Packet) : Flow (s.handle p).1 := by
  unfold MsgsOut.handle
  split_ifs
  · exact flow_handlePubackcomp h 1 p
  · exact flow_handlePubackcomp h 2 p
  · exact flow_handlePubrec h p
  · unfold MsgsOut.handleConnack
    split_ifs
    · exact h
    · split
      · dsimp only
        split_ifs
        · have hreset := flow_reconnectReset s true
          unfold Flow at hreset ⊢
          unfold MsgsOut.retryCheck
          dsimp only
          rw [onTheWay_retry]
          exact hreset
        · exact flow_reconnectReset s true
      · exact h
  · exact h

theorem flow_step {s s' : MsgsOut} (h : Flow s) (l : MsgLabel) (hstep : msgNext s l = some s') :
    Flow s' := by
  cases l with
  | publish topic payload qos retain =>
    cases hstep
    exact flow_publish h topic payload qos retain
  | otherMid =>
    cases hstep
    exact h
  | packet p =>
    have hhandle := flow_handle h p
    unfold msgNext at hstep
    dsimp only at hstep
    split_ifs at hstep <;> cases hstep <;> exact hhandle
  | lost =>
    cases hstep
    exact h
  | reconnectReset =>
    cases hstep
    exact flow_reconnectReset s false
  | socketConnect connected =>
    unfold msgNext at hstep
    dsimp only at hstep
    split_ifs at hstep
    cases hstep
    exact h

/-- A step that takes no mid: it may remove messages. -/
structure Quiet (s s' : MsgsOut) : Prop where
  maximum : s'.inflight_maximum = s.inflight_maximum
  last_mid : s'.last_mid = s.last_mid
  generated : s'.generated = s.generated
  keys : (s'.inflight.map MessageAll.key).Sublist (s.inflight.map MessageAll.key)

theorem Quiet.refl (s : MsgsOut) : Quiet s s := ⟨rfl, rfl, rfl, List.Sublist.refl _⟩

theorem Quiet.trans {s1 s2 s3 : MsgsOut} (h : Quiet s1 s2) (h' : Quiet s2 s3) : Quiet s1 s3 :=
  ⟨h'.maximum.trans h.maximum, h'.last_mid.trans h.last_mid, h'.generated.trans h.generated,
    h'.keys.trans h.keys⟩

theorem quiet_release (s : MsgsOut) : Quiet s s.release.1 :=
  ⟨rfl, rfl, rfl, by rw [(same_release s).keys]⟩

theorem quiet_reconnectReset (s : MsgsOut) (b : Bool) : Quiet s (s.reconnectReset b) :=
  ⟨rfl, rfl, rfl, by rw [(same_reconnectReset s b).keys]⟩

theorem quiet_incrementQuota (s : MsgsOut) : Quiet s s.incrementQuota := by
  unfold MsgsOut.incrementQuota
  split_ifs
  · exact ⟨rfl, rfl, rfl, List.Sublist.refl _⟩
  · exact Quiet.refl s

theorem quiet_complete {s : MsgsOut} {mid qos : ℕ} {m : MessageAll} {queue : List MessageAll}
    (hremove : remove mid qos s.inflight = .ok (m, queue)) : Quiet s (s.complete m queue) := by
  obtain ⟨-, -, before, after, hsplit, rfl⟩ := remove_ok hremove
  refine ⟨rfl, rfl, rfl, ?_⟩
  rw [hsplit]
  exact ((List.Sublist.refl _).append (List.sublist_cons_self _ _)).map _

theorem quiet_handlePubackcomp (s : MsgsOut) (qos : ℕ) (p : Packet) :
    Quiet s (s.handlePubackcomp qos p).1 := by
  have hmore := quiet_incrementQuota s
  have hless : Quiet s s.incrementQuota.slacken := hmore.trans ⟨rfl, rfl, rfl, List.Sublist.refl _⟩
  unfold MsgsOut.handlePubackcomp
  split_ifs
  · exact Quiet.refl s
  · exact Quiet.refl s
  · dsimp only
    split
    · exact hless
    · split_ifs
      · exact hless
      · exact hless
      · split
        case h_1 m queue hremove =>
          exact (hmore.trans (quiet_complete hremove)).trans (quiet_release _)
        case h_2 => exact hless.trans (quiet_release _)
        case h_3 => exact hless

theorem quiet_handlePubrec (s : MsgsOut) (p : Packet) : Quiet s (s.handlePubrec p).1 := by
  unfold MsgsOut.handlePubrec
  split_ifs
  · exact Quiet.refl s
  · exact Quiet.refl s
  · split
    · exact Quiet.refl s
    · split_ifs
      · exact Quiet.refl s
      · exact Quiet.refl s
      · dsimp only
        split
        · exact Quiet.refl s
        · exact ⟨rfl, rfl, rfl, List.Sublist.refl _⟩
        case h_3 m queue hupdate => exact ⟨rfl, rfl, rfl, by rw [keys_outUpdate hupdate]⟩

theorem quiet_handleConnack (s : MsgsOut) (p : Packet) : Quiet s (s.handleConnack p).1 := by
  have hreset := quiet_reconnectReset s true
  unfold MsgsOut.handleConnack
  split_ifs
  · exact Quiet.refl s
  · split
    · dsimp only
      split_ifs
      · refine hreset.trans ⟨rfl, rfl, rfl, ?_⟩
        rw [(same_retryCheck _).keys]
      · exact hreset
    · exact Quiet.refl s

theorem quiet_handle (s : MsgsOut) (p : Packet) : Quiet s (s.handle p).1 := by
  unfold MsgsOut.handle
  split_ifs
  · exact quiet_handlePubackcomp s 1 p
  · exact quiet_handlePubackcomp s 2 p
  · exact quiet_handlePubrec s p
  · exact quiet_handleConnack s p
  · exact Quiet.refl s

/-- What does not take a mid is quiet. -/
theorem quiet_step {s s' : MsgsOut} (l : MsgLabel) (hstep : msgNext s l = some s') :
    Quiet s s' ∨ (l = .otherMid ∧ s' = s.midGenerate) ∨
      ∃ topic payload qos retain, l = .publish topic payload qos retain ∧
        s' = (s.publish topic payload qos retain).1 := by
  cases l with
  | publish topic payload qos retain =>
    cases hstep
    exact Or.inr (Or.inr ⟨topic, payload, qos, retain, rfl, rfl⟩)
  | otherMid =>
    cases hstep
    exact Or.inr (Or.inl ⟨rfl, rfl⟩)
  | packet p =>
    have hhandle := quiet_handle s p
    unfold msgNext at hstep
    dsimp only at hstep
    split_ifs at hstep <;> cases hstep
    · exact Or.inl hhandle
    · exact Or.inl (hhandle.trans ⟨rfl, rfl, rfl, List.Sublist.refl _⟩)
  | lost =>
    cases hstep
    exact Or.inl ⟨rfl, rfl, rfl, List.Sublist.refl _⟩
  | reconnectReset =>
    cases hstep
    exact Or.inl ((quiet_reconnectReset s false).trans ⟨rfl, rfl, rfl, List.Sublist.refl _⟩)
  | socketConnect connected =>
    unfold msgNext at hstep
    dsimp only at hstep
    split_ifs at hstep
    cases hstep
    exact Or.inl ⟨rfl, rfl, rfl, List.Sublist.refl _⟩

/-- A publish that is not refused takes one mid, and at most one message more is queued. -/
theorem publish_cases (s : MsgsOut) (topic payload : List UInt8) (qos : ℕ) (retain : Bool) :
    (s.publish topic payload qos retain).1 = s ∨
      Quiet s.midGenerate (s.publish topic payload qos retain).1 ∨
      ∃ m : MessageAll, m.key = (s.generated + 1, s.midGenerate.last_mid) ∧
        Quiet { s.midGenerate with inflight := s.inflight ++ [m] }
          (s.publish topic payload qos retain).1 := by
  unfold MsgsOut.publish
  split
  · dsimp only
    split_ifs
    · right; left
      split
      · exact ⟨rfl, rfl, rfl, List.Sublist.refl _⟩
      · exact Quiet.refl _
    · right; right
      refine ⟨⟨_, topic, payload, qos, retain, false, .invalid, _⟩, rfl, ?_⟩
      unfold MsgsOut.queueMessage
      refine Quiet.trans ?_ (quiet_release _)
      exact ⟨rfl, rfl, rfl, List.Sublist.refl _⟩
  · exact Or.inl rfl

/-- A publish that is accepted has taken a mid. -/
theorem publish_generated {s : MsgsOut} {topic payload : List UInt8} {qos : ℕ} {retain : Bool}
    (hrc : (s.publish topic payload qos retain).2 = .success) :
    (s.publish topic payload qos retain).1.generated = s.generated + 1 := by
  unfold MsgsOut.publish at hrc ⊢
  split at hrc
  · dsimp only at hrc ⊢
    split_ifs
    · split <;> rfl
    · exact (quiet_release _).generated
  case h_2 hcheck => exact absurd hrc hcheck

theorem generated_publish_le (s : MsgsOut) (topic payload : List UInt8) (qos : ℕ)
    (retain : Bool) : (s.publish topic payload qos retain).1.generated ≤ s.generated + 1 := by
  rcases publish_cases s topic payload qos retain with hsame | hquiet | ⟨m, -, hquiet⟩
  · rw [hsame]
    exact Nat.le_succ _
  · exact Nat.le_of_eq hquiet.generated
  · exact Nat.le_of_eq hquiet.generated

/-- An answer accepts nothing and takes back no answer before it. -/
structure Answers (s s' : MsgsOut) : Prop where
  accepted : s'.accepted = s.accepted
  completed : s.completed <+: s'.completed

theorem Answers.of_same {s s' : MsgsOut} (h : SameKeys s s') : Answers s s' :=
  ⟨h.accepted, h.completed ▸ List.prefix_rfl⟩

theorem answers_handlePubackcomp (s : MsgsOut) (qos : ℕ) (p : Packet) :
    Answers s (s.handlePubackcomp qos p).1 := by
  have hmore := same_incrementQuota s
  have hless := Answers.of_same (hmore.trans (same_slacken _))
  unfold MsgsOut.handlePubackcomp
  split_ifs
  · exact Answers.of_same (SameKeys.refl s)
  · exact Answers.of_same (SameKeys.refl s)
  · dsimp only
    split
    · exact hless
    · split_ifs
      · exact hless
      · exact hless
      · split
        case h_1 m queue hremove =>
          refine ⟨hmore.accepted, ?_⟩
          rw [(same_release _).completed]
          exact ⟨[m.key], by rw [MsgsOut.complete, hmore.completed]⟩
        case h_2 =>
          exact Answers.of_same ((hmore.trans (same_slacken _)).trans (same_release _))
        case h_3 => exact hless

theorem answers_handle (s : MsgsOut) (p : Packet) : Answers s (s.handle p).1 := by
  have hsame := Answers.of_same (SameKeys.refl s)
  unfold MsgsOut.handle
  split_ifs
  · exact answers_handlePubackcomp s 1 p
  · exact answers_handlePubackcomp s 2 p
  · unfold MsgsOut.handlePubrec
    split_ifs
    · exact hsame
    · exact hsame
    · split
      · exact hsame
      · split_ifs
        · exact hsame
        · exact hsame
        · dsimp only
          split
          · exact hsame
          · exact ⟨rfl, List.prefix_rfl⟩
          · exact ⟨rfl, List.prefix_rfl⟩
  · unfold MsgsOut.handleConnack
    split_ifs
    · exact hsame
    · split
      · dsimp only
        split_ifs
        · exact ⟨rfl, List.prefix_rfl⟩
        · exact ⟨rfl, List.prefix_rfl⟩
      · exact hsame
  · exact hsame

theorem answers_packet {s s' : MsgsOut} {p : Packet} (hstep : msgNext s (.packet p) = some s') :
    Answers s s' := by
  have hanswers := answers_handle s p
  simp only [msgNext] at hstep
  split_ifs at hstep <;> cases hstep
  · exact hanswers
  · exact ⟨hanswers.accepted, hanswers.completed⟩

/-! ## Without a connection -/

theorem releaseLoop_fails {send : Packet → MosqErr} (hsend : ∀ p, send p ≠ .success) {quota : ℕ}
    (hquota : 0 < quota) {ms : List MessageAll} (hwaits : ∃ m ∈ ms, m.qos > 0 ∧ m.state = .invalid) :
    (releaseLoop send quota ms).rc ≠ .success ∧ (releaseLoop send quota ms).quota = quota := by
  obtain ⟨quota, rfl⟩ := Nat.exists_eq_succ_of_ne_zero (Nat.pos_iff_ne_zero.1 hquota)
  induction ms with
  | nil =>
    obtain ⟨m, hm, -⟩ := hwaits
    exact absurd hm List.not_mem_nil
  | cons m ms ih =>
    by_cases hfirst : m.qos > 0 ∧ m.state = .invalid
    · rw [releaseLoop_failed hfirst (hsend _)]
      exact ⟨hsend _, rfl⟩
    · rw [releaseLoop_skip send hfirst]
      obtain ⟨m', hm', hwaits'⟩ := hwaits
      rcases List.mem_cons.1 hm' with rfl | hm'
      · exact absurd hwaits' hfirst
      · exact ih ⟨m', hm', hwaits'⟩

theorem send_down {s : MsgsOut} (hdown : s.connected = false) (p : Packet) :
    s.send p = .noConn := by
  unfold MsgsOut.send sendRc
  rw [if_pos hdown]

theorem release_down {s : MsgsOut} (hdown : s.connected = false) (hquota : 0 < s.inflight_quota)
    (hwaits : ∃ m ∈ s.inflight, m.qos > 0 ∧ m.state = .invalid) :
    s.release.2 ≠ .success ∧ s.release.1.connected = false ∧
      s.release.1.inflight_quota = s.inflight_quota := by
  have hsend : ∀ p, s.send p ≠ .success := by
    intro p hp
    rw [send_down hdown] at hp
    cases hp
  have hfails := releaseLoop_fails hsend hquota hwaits
  exact ⟨hfails.1, hdown, hfails.2⟩

/-- While the quota lasts, a publish without a connection says so; the message may be queued
all the same. -/
theorem publish_down {s : MsgsOut} (hdown : s.connected = false) (hquota : 0 < s.inflight_quota)
    (topic payload : List UInt8) (qos : ℕ) (retain : Bool) :
    (s.publish topic payload qos retain).2 ≠ .success ∧
      (s.publish topic payload qos retain).1.connected = false ∧
      (s.publish topic payload qos retain).1.inflight_quota = s.inflight_quota := by
  unfold MsgsOut.publish
  split
  · dsimp only
    split_ifs with hqos
    · split
      case h_1 hsend =>
        rw [send_down (show s.midGenerate.connected = false from hdown)] at hsend
        cases hsend
      case h_2 hsend => exact ⟨hsend, hdown, rfl⟩
    · -- the message itself is one that waits
      refine release_down hdown hquota ⟨_, List.mem_append_right _ List.mem_cons_self, ?_, rfl⟩
      exact Nat.pos_of_ne_zero hqos
  case h_2 hcheck => exact ⟨hcheck, hdown, rfl⟩

theorem maximum_step {s s' : MsgsOut} (l : MsgLabel) (hstep : msgNext s l = some s') :
    s'.inflight_maximum = s.inflight_maximum := by
  rcases quiet_step l hstep with hquiet | ⟨-, rfl⟩ | ⟨topic, payload, qos, retain, -, rfl⟩
  · exact hquiet.maximum
  · rfl
  · rcases publish_cases s topic payload qos retain with hsame | hquiet | ⟨m, -, hquiet⟩
    · rw [hsame]
    · exact hquiet.maximum
    · exact hquiet.maximum

/-- Whatever the peer answers: no more messages are on their way than the maximum, and one
for each event since the quota was last counted that gave it away (an answer that named no
message on its way, a PUBLISH that could not be sent). -/
theorem underway_le_run {inflight_maximum : ℕ} {ls : List MsgLabel} {s : MsgsOut}
    (hrun : Lib.exec msgNext (MsgsOut.init inflight_maximum) ls = some s) :
    onTheWay s.inflight + s.inflight_quota ≤ inflight_maximum + s.slack := by
  have hinv : Flow s ∧ s.inflight_maximum = inflight_maximum := by
    refine Lib.exec_inv_all (P := fun s => Flow s ∧ s.inflight_maximum = inflight_maximum) ?_
      ⟨?_, rfl⟩ hrun
    · rintro s l s' ⟨hflow, hmax⟩ hstep
      exact ⟨flow_step hflow l hstep, (maximum_step l hstep).trans hmax⟩
    · exact Nat.le_of_eq (Nat.zero_add _)
  exact hinv.2 ▸ hinv.1

/-- A PUBACK for a mid that is not in the queue makes room for one message too many. -/
theorem underway_le_run_unknown : onTheWay
    [⟨1, [97], [1], 1, false, false, .waitForPuback, 1⟩,
      ⟨2, [97], [2], 1, false, false, .waitForPuback, 2⟩] + 0 ≤ 1 + 1 :=
  @underway_le_run 1
    [.reconnectReset, .socketConnect true, .packet ⟨CMD_CONNACK, [0, 0]⟩, .publish [97] [1] 1 false,
      .publish [97] [2] 1 false, .packet ⟨CMD_PUBACK, [0, 9]⟩]
    ⟨2, [⟨1, [97], [1], 1, false, false, .waitForPuback, 1⟩,
        ⟨2, [97], [2], 1, false, false, .waitForPuback, 2⟩],
      0, 1, true, true, 2, [(1, 1), (2, 2)], [], [⟨0x32, [0, 1, 97, 0, 1, 1]⟩, ⟨0x32, [0, 1, 97, 0, 2, 2]⟩], 1⟩ rfl

/-! ## Mids -/

/-- The mid of the `n`-th call of `mosquitto__mid_generate`. -/
def midOf (n : ℕ) : ℕ := if n = 0 then 0 else (n - 1) % 65535 + 1

/-- In the first round a mid is the number of its call. -/
theorem midOf_of_le {n : ℕ} (h : n ≤ 65535) : midOf n = n := by
  unfold midOf
  split_ifs
  · omega
  · rw [Nat.mod_eq_of_lt (by omega)]
    omega

theorem midOf_succ (n : ℕ) :
    (if (midOf n + 1) % 65536 = 0 then 1 else (midOf n + 1) % 65536) = midOf (n + 1) := by
  have hlt : (n - 1) % 65535 < 65535 := Nat.mod_lt _ (by omega)
  unfold midOf
  rw [if_neg (Nat.succ_ne_zero n), Nat.add_sub_cancel]
  split_ifs with hzero hwrap hwrap <;> omega

/-- Two calls less than a whole round apart make different mids. -/
theorem midOf_ne {m n : ℕ} (hm : 0 < m) (hlt : m < n) (hround : n < m + 65535) :
    midOf m ≠ midOf n := by
  unfold midOf
  rw [if_neg (by omega), if_neg (by omega)]
  omega

/-- The mids are those of the calls, and the oldest message in the queue is less than a whole
round old. -/
structure Mids (s : MsgsOut) : Prop where
  last_mid : s.last_mid = midOf s.generated
  key_eq : ∀ k ∈ s.inflight.map MessageAll.key, k.2 = midOf k.1 ∧ 0 < k.1
  recent : ∀ k ∈ s.inflight.map MessageAll.key, s.generated < k.1 + 65535

/-- The condition on a step: it takes a mid only while the oldest message in the queue is
less than a whole round old. -/
def Recent (s : MsgsOut) : MsgLabel → Prop
  | .publish _ _ _ _ | .otherMid => ∀ m ∈ s.inflight, s.generated + 1 < m.serial + 65535
  | _ => True

theorem Mids.quiet {s s' : MsgsOut} (h : Mids s) (hquiet : Quiet s s') : Mids s' := by
  refine ⟨?_, fun k hk => h.key_eq k (hquiet.keys.subset hk), fun k hk => ?_⟩
  · rw [hquiet.last_mid, hquiet.generated]
    exact h.last_mid
  · rw [hquiet.generated]
    exact h.recent k (hquiet.keys.subset hk)

theorem mids_midGenerate {s : MsgsOut} (h : Mids s)
    (hrecent : ∀ m ∈ s.inflight, s.generated + 1 < m.serial + 65535) : Mids s.midGenerate := by
  refine ⟨?_, h.key_eq, fun k hk => ?_⟩
  · have hnext := midOf_succ s.generated
    rw [← h.last_mid] at hnext
    exact hnext
  · obtain ⟨m, hm, rfl⟩ := List.mem_map.1 hk
    exact hrecent m hm

theorem mids_append {s : MsgsOut} (h : Mids s) {m : MessageAll}
    (hkey : m.key = (s.generated, s.last_mid)) (hpos : 0 < s.generated) :
    Mids { s with inflight := s.inflight ++ [m] } := by
  refine ⟨h.last_mid, fun k hk => ?_, fun k hk => ?_⟩ <;> dsimp only at hk ⊢ <;>
    rw [List.map_append, List.mem_append] at hk <;> rcases hk with hk | hk
  · exact h.key_eq k hk
  · rw [List.mem_singleton.1 hk, hkey]
    exact ⟨h.last_mid, hpos⟩
  · exact h.recent k hk
  · rw [List.mem_singleton.1 hk, hkey]
    omega

theorem mids_step {s s' : MsgsOut} (h : Mids s) (l : MsgLabel) (hrecent : Recent s l)
    (hstep : msgNext s l = some s') : Mids s' := by
  rcases quiet_step l hstep with hquiet | ⟨rfl, rfl⟩ | ⟨topic, payload, qos, retain, rfl, rfl⟩
  · exact h.quiet hquiet
  · exact mids_midGenerate h hrecent
  · have hmid := mids_midGenerate h hrecent
    rcases publish_cases s topic payload qos retain with hsame | hquiet | ⟨m, hkey, hquiet⟩
    · exact hsame.symm ▸ h
    · exact hmid.quiet hquiet
    · exact (mids_append hmid hkey (Nat.succ_pos _)).quiet hquiet

/-- No two messages have one mid, so an answer names the message that was published with its
mid: as long as no mid is taken while the oldest message in the queue is a whole round old. -/
theorem nodup_mids_run {inflight_maximum : ℕ} {ls : List MsgLabel} {s : MsgsOut}
    (hrecent : Lib.Along msgNext Recent (MsgsOut.init inflight_maximum) ls)
    (hrun : Lib.exec msgNext (MsgsOut.init inflight_maximum) ls = some s) :
    (s.inflight.map MessageAll.mid).Nodup := by
  have hkept := kept_exec hrun
  have hmids : Mids s := by
    refine Lib.exec_inv (fun s l s' h hl hstep => mids_step h l hl hstep) ls _ s ?_ hrecent hrun
    exact ⟨rfl, fun k hk => absurd hk List.not_mem_nil, fun k hk => absurd hk List.not_mem_nil⟩
  have hincreasing := hkept.increasing.sublist hkept.order
  have hmid : s.inflight.map MessageAll.mid = (s.inflight.map MessageAll.key).map Prod.snd := by
    rw [List.map_map]
    rfl
  rw [hmid, List.Nodup, List.pairwise_map]
  refine (List.Pairwise.and_mem.1 hincreasing).imp fun {a b} h => ?_
  obtain ⟨ha, hb, hlt⟩ := h
  rw [(hmids.key_eq a ha).1, (hmids.key_eq b hb).1]
  have hbound := hkept.generated b (hkept.order.subset hb)
  have hold := hmids.recent a ha
  exact midOf_ne (hmids.key_eq a ha).2 hlt (by omega)

theorem nodup_mids_run_two :
    (([⟨1, [97], [1], 1, false, false, .waitForPuback, 1⟩,
        ⟨2, [97], [2], 1, false, false, .waitForPuback, 2⟩] : List MessageAll).map
      MessageAll.mid).Nodup :=
  @nodup_mids_run 20 [.publish [97] [1] 1 false, .publish [97] [2] 1 false]
    ⟨2, [⟨1, [97], [1], 1, false, false, .waitForPuback, 1⟩,
        ⟨2, [97], [2], 1, false, false, .waitForPuback, 2⟩], 20, 20, false, false, 2,
      [(1, 1), (2, 2)], [], [], 2⟩
    (by
      refine Lib.along_cons rfl (fun m hm => absurd hm List.not_mem_nil)
        (Lib.along_cons rfl (fun m hm => ?_) trivial)
      rw [List.mem_singleton.1 hm]
      decide) rfl

end Mqtt

end DeviceClient
