import DeviceClient.Mqtt.Messages
import DeviceClient.Mqtt.PacketWrite

/-!
# Incoming messages

`handle__publish` reads a message. With QoS 0 and 1 it goes to `on_message` at once; with QoS 2
it is queued in `msgs_in` until its PUBREL, so that the peer can repeat the PUBREL but not the
message.

* `received_run`: what arrives with one mid is handed over in the order of arrival, each
  message once.
* `pending_run`: as long as the peer repeats no PUBLISH before its PUBREL, at most the last
  message with a mid is still to be handed over.
* `published_arrive`: the packets that one client queues for its messages are read by another
  one as these messages.
-/

namespace DeviceClient

namespace Mqtt

/-! ## The body of a PUBLISH -/

/-- `packet__read_string`, on what is left of the body. -/
def readString (body : List UInt8) : Except MosqErr (List UInt8 × List UInt8) :=
  match readUint16 body with
  | none => .error .malformedPacket
  | some (slen, rest) =>
    if slen = 0 then .ok ([], rest)
    else if rest.length < slen then .error .malformedPacket
    else if validateUtf8 (rest.take slen) ≠ .success then .error .malformedUtf8
    else .ok (rest.take slen, rest.drop slen)

/-- The part of `handle__publish` that reads the message. -/
def parsePublish (p : Packet) : Except MosqErr MessageAll :=
  let dup := decide (p.command &&& 0x08 ≠ 0)
  let qos := ((p.command &&& 0x06) >>> 1).toNat
  let retain := decide (p.command &&& 0x01 ≠ 0)
  match readString p.body with
  | .error rc => .error rc
  | .ok (topic, rest) =>
    if topic = [] then .error .protocol
    else if qos = 0 then .ok ⟨0, topic, rest, 0, retain, dup, .invalid, 0⟩
    else
      match readUint16 rest with
      | none => .error .malformedPacket
      | some (mid, payload) =>
        if mid = 0 then .error .protocol
        -- the default of the switch
        else if qos = 3 then .error .protocol
        else .ok ⟨mid, topic, payload, qos, retain, dup, .invalid, 0⟩

/-! ## State -/

/-- The receiver's part of `struct mosquitto`. The last four only observe: how many messages
came, those with QoS 2, the calls of `on_message`, and what `packet__queue` got. -/
structure MsgsIn where
  inflight : List MessageAll
  /-- `sock` is valid. -/
  connected : Bool
  /-- The state is `mosq_cs_active`. -/
  active : Bool
  received : ℕ
  arrived : List MessageAll
  delivered : List MessageAll
  outbox : List Packet
deriving DecidableEq, Repr

def MsgsIn.init : MsgsIn := ⟨[], false, false, 0, [], [], []⟩

def MsgsIn.send (s : MsgsIn) (p : Packet) : MosqErr := sendRc s.connected p

/-- What `handle__publish` does with a message. -/
def MsgsIn.accept (s : MsgsIn) (m : MessageAll) : MsgsIn × MosqErr :=
  if m.qos = 0 then ({ s with delivered := s.delivered ++ [m] }, .success)
  else if m.qos = 1 then
    let puback := commandWithMid CMD_PUBACK m.mid
    ({ s with outbox := s.outbox ++ [puback], delivered := s.delivered ++ [m] }, s.send puback)
  else
    -- whether the mid is in the queue already is not looked at
    let pubrec := commandWithMid CMD_PUBREC m.mid
    let queued := { m with state := .waitForPubrel }
    ({ s with
        outbox := s.outbox ++ [pubrec]
        inflight := s.inflight ++ [queued]
        arrived := s.arrived ++ [queued] }, s.send pubrec)

/-- `handle__publish` -/
def MsgsIn.handlePublish (s : MsgsIn) (p : Packet) : MsgsIn × MosqErr :=
  if s.active = false then (s, .protocol)
  else
    match parsePublish p with
    | .error rc => (s, rc)
    | .ok m =>
      MsgsIn.accept { s with received := s.received + 1 } { m with serial := s.received + 1 }

/-- `handle__pubrel`: the PUBCOMP first, then the first message with the mid. -/
def MsgsIn.handlePubrel (s : MsgsIn) (p : Packet) : MsgsIn × MosqErr :=
  if s.active = false then (s, .protocol)
  else if p.command ≠ CMD_PUBREL ||| 2 then (s, .malformedPacket)
  else
    match readUint16 p.body with
    | none => (s, .malformedPacket)
    | some (mid, rest) =>
      if mid = 0 then (s, .protocol)
      else if rest ≠ [] then (s, .malformedPacket)
      else
        let pubcomp := commandWithMid CMD_PUBCOMP mid
        match s.send pubcomp, remove mid 2 s.inflight with
        | .success, .ok (m, queue) =>
          ({ s with
              outbox := s.outbox ++ [pubcomp]
              inflight := queue
              delivered := s.delivered ++ [m] }, .success)
        | .success, .error .notFound => ({ s with outbox := s.outbox ++ [pubcomp] }, .success)
        | .success, .error rc => ({ s with outbox := s.outbox ++ [pubcomp] }, rc)
        | rc, .ok (_, queue) => ({ s with inflight := queue }, rc)
        | rc, .error _ => (s, rc)

/-- The loop of `message__reconnect_reset` over the incoming messages. -/
def MsgsIn.reconnectReset (s : MsgsIn) : MsgsIn :=
  { s with inflight := s.inflight.filter fun m => m.qos = 2 }

/-- `handle__connack` -/
def MsgsIn.handleConnack (s : MsgsIn) (p : Packet) : MsgsIn × MosqErr :=
  if p.command ≠ CMD_CONNACK then (s, .malformedPacket)
  else
    match p.body with
    | _ :: reason_code :: _ =>
      let s1 := s.reconnectReset
      if reason_code = 0 then ({ s1 with active := true }, .success)
      else (s1, refusedRc reason_code)
    | _ => (s, .malformedPacket)

/-- `handle__packet`, as far as it concerns incoming messages. -/
def MsgsIn.handle (s : MsgsIn) (p : Packet) : MsgsIn × MosqErr :=
  if p.command &&& 0xF0 = CMD_PUBLISH then s.handlePublish p
  else if p.command &&& 0xF0 = CMD_PUBREL then s.handlePubrel p
  else if p.command &&& 0xF0 = CMD_CONNACK then s.handleConnack p
  else (s, .success)

/-! ## Runs -/

inductive InLabel where
  /-- A packet that the peer sent; an error closes the socket. -/
  | packet (p : Packet)
  | lost
  /-- The beginning of `mosquitto__reconnect`. -/
  | reconnectReset
  /-- `net__socket_connect` -/
  | socketConnect (connected : Bool)

def inNext (s : MsgsIn) : InLabel → Option MsgsIn
  | .packet p =>
    if s.connected = true then
      let (s', rc) := s.handle p
      some (if rc = .success then s' else { s' with connected := false })
    else none
  | .lost => some { s with connected := false }
  | .reconnectReset => some { s.reconnectReset with outbox := [], connected := false }
  | .socketConnect connected =>
    if s.connected = false then some { s with connected := connected, active := false } else none

/-! ## One step -/

def hasMid (mid : ℕ) (m : MessageAll) : Bool := decide (m.mid = mid)

/-- The message that is removed is the first one with the mid. -/
theorem filter_remove {mid qos : ℕ} {ms rest : List MessageAll} {m : MessageAll}
    (h : remove mid qos ms = .ok (m, rest)) (mid' : ℕ) :
    ms.filter (hasMid mid') =
      (if mid' = mid then [m] else []) ++ rest.filter (hasMid mid') := by
  induction ms generalizing rest with
  | nil => cases h
  | cons m' ms ih =>
    unfold remove at h
    split_ifs at h with hmid hqos
    · cases h
      by_cases hsame : mid' = mid
      · have hfirst : hasMid mid' m = true := decide_eq_true (hmid.trans hsame.symm)
        rw [if_pos hsame, List.filter_cons_of_pos hfirst]
        rfl
      · have hfirst : ¬hasMid mid' m = true :=
          fun heq => hsame ((of_decide_eq_true heq).symm.trans hmid)
        rw [if_neg hsame, List.filter_cons_of_neg hfirst]
        rfl
    · split at h
      · cases h
      case h_2 found rest' hrest =>
        cases h
        by_cases hother : hasMid mid' m' = true
        · -- what stands before the message has another mid
          have hdiff : mid' ≠ mid := fun heq => hmid ((of_decide_eq_true hother).trans heq)
          rw [List.filter_cons_of_pos hother, List.filter_cons_of_pos hother, ih hrest,
            if_neg hdiff]
          rfl
        · rw [List.filter_cons_of_neg hother, List.filter_cons_of_neg hother, ih hrest]

theorem parsePublish_qos {p : Packet} {m : MessageAll} (h : parsePublish p = .ok m) :
    m.qos ≤ 2 := by
  have hbits : ((p.command &&& 0x06) >>> 1).toNat ≤ 3 :=
    forall_byte (P := fun b => ((b &&& 0x06) >>> 1).toNat ≤ 3) (by decide +kernel) p.command
  unfold parsePublish at h
  dsimp only at h
  split at h
  · cases h
  · split_ifs at h with htopic hzero hthree
    · cases h
      exact Nat.zero_le _
    · split at h
      · cases h
      · split_ifs at h
    · split at h
      · cases h
      · split_ifs at h
        cases h
        dsimp only
        omega

theorem send_mid {s : MsgsIn} (hconnected : s.connected = true) (command : UInt8) (mid : ℕ) :
    s.send (commandWithMid command mid) = .success := by
  have halloc : packetAlloc (commandWithMid command mid).command
      (commandWithMid command mid).body.length = .ok (command :: remainingBytes 2) :=
    if_neg (show (remainingBytes 2).length ≠ 5 by decide)
  unfold MsgsIn.send sendRc
  rw [if_neg (by rw [hconnected]; decide), halloc]

/-- A step that leaves the messages alone. -/
structure SameMessages (s s' : MsgsIn) : Prop where
  inflight : s'.inflight = s.inflight
  received : s'.received = s.received
  arrived : s'.arrived = s.arrived
  delivered : s'.delivered = s.delivered

theorem SameMessages.refl (s : MsgsIn) : SameMessages s s := ⟨rfl, rfl, rfl, rfl⟩

/-- A PUBREL hands over one message, or none. -/
theorem handlePubrel_cases {s : MsgsIn} (hconnected : s.connected = true) (p : Packet) :
    SameMessages s (s.handlePubrel p).1 ∨
      ∃ mid m queue, remove mid 2 s.inflight = .ok (m, queue) ∧
        SameMessages { s with inflight := queue, delivered := s.delivered ++ [m] }
          (s.handlePubrel p).1 := by
  have hsame := SameMessages.refl s
  unfold MsgsIn.handlePubrel
  split_ifs
  · exact Or.inl hsame
  · exact Or.inl hsame
  · split
    · exact Or.inl hsame
    · rename_i mid rest hread
      split_ifs
      · exact Or.inl hsame
      · exact Or.inl hsame
      · dsimp only
        rw [send_mid hconnected]
        split
        case h_1 m queue hsend hremove => exact Or.inr ⟨mid, m, queue, hremove, rfl, rfl, rfl, rfl⟩
        case h_2 => exact Or.inl ⟨rfl, rfl, rfl, rfl⟩
        case h_3 => exact Or.inl ⟨rfl, rfl, rfl, rfl⟩
        case h_4 => contradiction
        case h_5 => exact Or.inl hsame

/-! ## What arrives is handed over -/

/-- With QoS 2 and a given mid. -/
def isQos2 (mid : ℕ) (m : MessageAll) : Bool := decide (m.qos = 2) && hasMid mid m

structure Received (s : MsgsIn) : Prop where
  qos : ∀ m ∈ s.inflight, m.qos = 2
  order : ∀ mid, s.delivered.filter (isQos2 mid) ++ s.inflight.filter (hasMid mid) =
    s.arrived.filter (hasMid mid)
  increasing : s.arrived.Pairwise fun a b => a.serial < b.serial
  serial_le : ∀ m ∈ s.arrived, m.serial ≤ s.received

theorem Received.same {s s' : MsgsIn} (h : Received s) (hsame : SameMessages s s') :
    Received s' := by
  constructor
  · rw [hsame.inflight]
    exact h.qos
  · rw [hsame.inflight, hsame.arrived, hsame.delivered]
    exact h.order
  · rw [hsame.arrived]
    exact h.increasing
  · rw [hsame.arrived, hsame.received]
    exact h.serial_le

/-- A message that is handed over at once. -/
theorem received_immediate {s : MsgsIn} (h : Received s) {m : MessageAll} (hqos : m.qos ≠ 2)
    {outbox : List Packet} :
    Received { s with
      received := s.received + 1, delivered := s.delivered ++ [m], outbox := outbox } := by
  refine ⟨h.qos, fun mid => ?_, h.increasing, fun m hm => (h.serial_le m hm).trans (Nat.le_succ _)⟩
  have hskip : [m].filter (isQos2 mid) = [] :=
    List.filter_eq_nil_iff.2 fun m' hm' => by
      rw [List.mem_singleton.1 hm']
      unfold isQos2
      simp [hqos]
  change (s.delivered ++ [m]).filter (isQos2 mid) ++ _ = _
  rw [List.filter_append, hskip, List.append_nil]
  exact h.order mid

/-- A message that waits for its PUBREL. -/
theorem received_queued {s : MsgsIn} (h : Received s) {m : MessageAll} (hqos : m.qos = 2)
    (hserial : m.serial = s.received + 1) {outbox : List Packet} :
    Received { s with
      received := s.received + 1
      inflight := s.inflight ++ [m]
      arrived := s.arrived ++ [m]
      outbox := outbox } := by
  constructor
  · intro m' hm'
    rcases List.mem_append.1 hm' with hold | hnew
    · exact h.qos m' hold
    · exact List.mem_singleton.1 hnew ▸ hqos
  · intro mid
    change s.delivered.filter _ ++ (s.inflight ++ [m]).filter _ = (s.arrived ++ [m]).filter _
    rw [List.filter_append, List.filter_append, ← List.append_assoc, h.order mid]
  · refine List.pairwise_append.2 ⟨h.increasing, List.pairwise_singleton _ _, ?_⟩
    intro a ha b hb
    rw [List.mem_singleton.1 hb, hserial]
    exact Nat.lt_succ_of_le (h.serial_le a ha)
  · intro m' hm'
    rcases List.mem_append.1 hm' with hold | hnew
    · exact (h.serial_le m' hold).trans (Nat.le_succ _)
    · exact List.mem_singleton.1 hnew ▸ hserial.le

theorem received_handlePublish {s : MsgsIn} (h : Received s) (p : Packet) :
    Received (s.handlePublish p).1 := by
  unfold MsgsIn.handlePublish
  split_ifs
  · exact h
  · split
    · exact h
    case h_2 m hparse =>
      have hqos := parsePublish_qos hparse
      unfold MsgsIn.accept
      dsimp only
      split_ifs with hzero hone
      · exact received_immediate h (by dsimp only; omega)
      · exact received_immediate h (by dsimp only; omega)
      · exact received_queued h (by dsimp only; omega) rfl

theorem received_pubrel {s : MsgsIn} (h : Received s) {mid : ℕ} {m : MessageAll}
    {queue : List MessageAll} (hremove : remove mid 2 s.inflight = .ok (m, queue)) :
    Received { s with inflight := queue, delivered := s.delivered ++ [m] } := by
  obtain ⟨hmid, hqos, before, after, hbefore, hafter⟩ := remove_ok hremove
  refine ⟨?_, fun mid' => ?_, h.increasing, h.serial_le⟩
  · intro m' hm'
    refine h.qos m' (hbefore ▸ ?_)
    rw [hafter] at hm'
    rcases List.mem_append.1 hm' with hin | hin
    · exact List.mem_append_left _ hin
    · exact List.mem_append_right _ (List.mem_cons_of_mem _ hin)
  · -- the first message with its mid goes from the one list to the other
    change (s.delivered ++ [m]).filter (isQos2 mid') ++ queue.filter _ = _
    have hmoved : [m].filter (isQos2 mid') = if mid' = mid then [m] else [] := by
      by_cases hsame : mid' = mid
      · have hfound : isQos2 mid' m = true := by
          unfold isQos2 hasMid
          rw [Bool.and_eq_true]
          exact ⟨decide_eq_true hqos, decide_eq_true (hmid.trans hsame.symm)⟩
        rw [if_pos hsame, List.filter_cons_of_pos hfound]
        rfl
      · have hfound : ¬isQos2 mid' m = true := by
          unfold isQos2 hasMid
          rw [Bool.and_eq_true]
          exact fun hboth => hsame ((of_decide_eq_true hboth.2).symm.trans hmid)
        rw [if_neg hsame, List.filter_cons_of_neg hfound]
        rfl
    rw [List.filter_append, hmoved, List.append_assoc, ← filter_remove hremove]
    exact h.order mid'

theorem received_handle {s : MsgsIn} (h : Received s) (hconnected : s.connected = true)
    (p : Packet) : Received (s.handle p).1 := by
  have hreset : Received s.reconnectReset := by
    have hall : s.inflight.filter (fun m => decide (m.qos = 2)) = s.inflight :=
      List.filter_eq_self.2 fun m hm => decide_eq_true (h.qos m hm)
    exact h.same ⟨hall, rfl, rfl, rfl⟩
  unfold MsgsIn.handle
  split_ifs
  · exact received_handlePublish h p
  · rcases handlePubrel_cases hconnected p with hsame | ⟨mid, m, queue, hremove, hsame⟩
    · exact h.same hsame
    · exact (received_pubrel h hremove).same hsame
  · unfold MsgsIn.handleConnack
    split_ifs
    · exact h
    · split
      · dsimp only
        split_ifs
        · exact hreset.same ⟨rfl, rfl, rfl, rfl⟩
        · exact hreset
      · exact h
  · exact h

theorem received_step {s s' : MsgsIn} (h : Received s) (l : InLabel)
    (hstep : inNext s l = some s') : Received s' := by
  cases l with
  | packet p =>
    simp only [inNext] at hstep
    split_ifs at hstep with hconnected hrc <;> cases hstep
    · exact received_handle h hconnected p
    · exact (received_handle h hconnected p).same ⟨rfl, rfl, rfl, rfl⟩
  | lost =>
    cases hstep
    exact h.same ⟨rfl, rfl, rfl, rfl⟩
  | reconnectReset =>
    cases hstep
    have hall : s.inflight.filter (fun m => decide (m.qos = 2)) = s.inflight :=
      List.filter_eq_self.2 fun m hm => decide_eq_true (h.qos m hm)
    exact h.same ⟨hall, rfl, rfl, rfl⟩
  | socketConnect connected =>
    simp only [inNext] at hstep
    split_ifs at hstep
    cases hstep
    exact h.same ⟨rfl, rfl, rfl, rfl⟩

theorem received_exec {ls : List InLabel} {s : MsgsIn}
    (hrun : Lib.exec inNext MsgsIn.init ls = some s) : Received s := by
  refine Lib.exec_inv_all (fun s l s' h hstep => received_step h l hstep) ?_ hrun
  exact ⟨fun m hm => absurd hm List.not_mem_nil, fun _ => rfl, List.Pairwise.nil,
    fun m hm => absurd hm List.not_mem_nil⟩

/-- Whatever a peer sends, over any number of connections: with each mid, the messages with
QoS 2 that were handed over and those in the queue are the ones that arrived, in that order
and each once. -/
theorem received_run {ls : List InLabel} {s : MsgsIn}
    (hrun : Lib.exec inNext MsgsIn.init ls = some s) :
    (∀ mid, s.delivered.filter (isQos2 mid) ++ s.inflight.filter (hasMid mid) =
      s.arrived.filter (hasMid mid)) ∧ (s.arrived.map MessageAll.serial).Nodup := by
  have h := received_exec hrun
  refine ⟨h.order, List.pairwise_map.2 ?_⟩
  exact h.increasing.imp fun hlt => Nat.ne_of_lt hlt

/-- A PUBREC that is lost: the message comes again in the next connection and is handed over
twice, for two of the three PUBRELs. -/
theorem received_run_repeated :
    ∃ s, Lib.exec inNext MsgsIn.init
        [.socketConnect true, .packet ⟨0x20, [0, 0]⟩, .packet ⟨0x34, [0, 1, 97, 0, 1, 5]⟩, .lost,
          .reconnectReset, .socketConnect true, .packet ⟨0x20, [0, 0]⟩,
          .packet ⟨0x3C, [0, 1, 97, 0, 1, 5]⟩, .packet ⟨0x62, [0, 1]⟩, .packet ⟨0x62, [0, 1]⟩,
          .packet ⟨0x62, [0, 1]⟩] = some s ∧
      s.delivered.map MessageAll.serial = [1, 2] ∧
      (∀ mid, s.delivered.filter (isQos2 mid) ++ s.inflight.filter (hasMid mid) =
        s.arrived.filter (hasMid mid)) ∧ (s.arrived.map MessageAll.serial).Nodup := by
  have hrun : ∃ s, Lib.exec inNext MsgsIn.init
        [.socketConnect true, .packet ⟨0x20, [0, 0]⟩, .packet ⟨0x34, [0, 1, 97, 0, 1, 5]⟩, .lost,
          .reconnectReset, .socketConnect true, .packet ⟨0x20, [0, 0]⟩,
          .packet ⟨0x3C, [0, 1, 97, 0, 1, 5]⟩, .packet ⟨0x62, [0, 1]⟩, .packet ⟨0x62, [0, 1]⟩,
          .packet ⟨0x62, [0, 1]⟩] = some s ∧
      s.delivered.map MessageAll.serial = [1, 2] := ⟨_, rfl, rfl⟩
  obtain ⟨s, hrun, hdelivered⟩ := hrun
  exact ⟨s, hrun, hdelivered, received_run hrun⟩

/-! ## No more than one message is pending -/

/-- The condition on a step: no PUBLISH comes with QoS 2 and a mid that is in the queue. -/
def Unrepeated (s : MsgsIn) : InLabel → Prop
  | .packet p => p.command &&& 0xF0 = CMD_PUBLISH → ∀ m, parsePublish p = .ok m → m.qos = 2 →
      s.inflight.filter (hasMid m.mid) = []
  | _ => True

def AtMostOne (s : MsgsIn) : Prop := ∀ mid, (s.inflight.filter (hasMid mid)).length ≤ 1

theorem AtMostOne.of_eq {s s' : MsgsIn} (h : AtMostOne s) (hsame : s'.inflight = s.inflight) :
    AtMostOne s' := by
  intro mid
  rw [hsame]
  exact h mid

theorem AtMostOne.reset {s : MsgsIn} (h : AtMostOne s) : AtMostOne s.reconnectReset := by
  intro mid
  refine le_trans (List.Sublist.length_le ?_) (h mid)
  exact List.Sublist.filter _ List.filter_sublist

theorem atMostOne_handlePublish {s : MsgsIn} (h : AtMostOne s) {p : Packet}
    (hcommand : p.command &&& 0xF0 = CMD_PUBLISH) (hnew : Unrepeated s (.packet p)) :
    AtMostOne (s.handlePublish p).1 := by
  unfold MsgsIn.handlePublish
  split_ifs
  · exact h
  · split
    · exact h
    case h_2 m hparse =>
      have hqos := parsePublish_qos hparse
      unfold MsgsIn.accept
      dsimp only
      split_ifs with hzero hone
      · exact h
      · exact h
      · -- the queue has no message with the mid of the new one
        intro mid
        have hnone := hnew hcommand m hparse (by omega)
        change ((s.inflight ++ [_]).filter (hasMid mid)).length ≤ 1
        rw [List.filter_append, List.length_append]
        by_cases hsame : mid = m.mid
        · rw [hsame, hnone, List.length_nil, Nat.zero_add]
          exact List.length_filter_le _ _
        · have hother : ¬hasMid mid { m with serial := s.received + 1, state := .waitForPubrel } =
              true := fun heq => hsame (of_decide_eq_true heq).symm
          rw [List.filter_cons_of_neg hother]
          exact h mid

theorem atMostOne_handle {s : MsgsIn} (h : AtMostOne s) (hconnected : s.connected = true)
    {p : Packet} (hnew : Unrepeated s (.packet p)) : AtMostOne (s.handle p).1 := by
  unfold MsgsIn.handle
  split_ifs with hcommand
  · exact atMostOne_handlePublish h hcommand hnew
  · rcases handlePubrel_cases hconnected p with hsame | ⟨mid, m, queue, hremove, hsame⟩
    · exact h.of_eq hsame.inflight
    · intro mid'
      have hmid := h mid'
      rw [filter_remove hremove, List.length_append] at hmid
      rw [hsame.inflight]
      exact (Nat.le_add_left _ _).trans hmid
  · unfold MsgsIn.handleConnack
    split_ifs
    · exact h
    · split
      · dsimp only
        split_ifs
        · exact h.reset
        · exact h.reset
      · exact h
  · exact h

theorem atMostOne_step (s : MsgsIn) (l : InLabel) (s' : MsgsIn) (h : AtMostOne s)
    (hnew : Unrepeated s l) (hstep : inNext s l = some s') : AtMostOne s' := by
  cases l with
  | packet p =>
    simp only [inNext] at hstep
    split_ifs at hstep with hconnected hrc <;> cases hstep
    · exact atMostOne_handle h hconnected hnew
    · exact (atMostOne_handle h hconnected hnew).of_eq rfl
  | lost =>
    cases hstep
    exact h
  | reconnectReset =>
    cases hstep
    exact h.reset
  | socketConnect connected =>
    simp only [inNext] at hstep
    split_ifs at hstep
    cases hstep
    exact h

/-- As long as no PUBLISH is repeated before its PUBREL: with each mid, all that arrived with
QoS 2 was handed over, in order and once each, but for the last message at most. -/
theorem pending_run {ls : List InLabel} {s : MsgsIn}
    (hnew : Lib.Along inNext Unrepeated MsgsIn.init ls)
    (hrun : Lib.exec inNext MsgsIn.init ls = some s) (mid : ℕ) :
    s.arrived.filter (hasMid mid) = s.delivered.filter (isQos2 mid) ∨
      ∃ m ∈ s.inflight, s.arrived.filter (hasMid mid) = s.delivered.filter (isQos2 mid) ++ [m] := by
  have horder := (received_exec hrun).order mid
  have hone : AtMostOne s :=
    Lib.exec_inv atMostOne_step ls _ s (fun _ => Nat.zero_le _) hnew hrun
  rcases hfilter : s.inflight.filter (hasMid mid) with - | ⟨m, rest⟩
  · left
    rw [← horder, hfilter, List.append_nil]
  · right
    have hlength := hone mid
    rw [hfilter, List.length_cons] at hlength
    have hrest : rest = [] := List.length_eq_zero_iff.1 (by omega)
    have hmem : m ∈ s.inflight.filter (hasMid mid) := hfilter ▸ List.mem_cons_self
    refine ⟨m, List.mem_of_mem_filter hmem, ?_⟩
    rw [← horder, hfilter, hrest]

/-- The mid is free again after its PUBREL. -/
theorem pending_run_reused :
    ∃ s, Lib.exec inNext MsgsIn.init
        [.socketConnect true, .packet ⟨0x20, [0, 0]⟩, .packet ⟨0x34, [0, 1, 97, 0, 1, 5]⟩,
          .packet ⟨0x62, [0, 1]⟩, .packet ⟨0x34, [0, 1, 97, 0, 1, 6]⟩] = some s ∧
      s.arrived.length = 2 ∧
      (s.arrived.filter (hasMid 1) = s.delivered.filter (isQos2 1) ∨
        ∃ m ∈ s.inflight, s.arrived.filter (hasMid 1) = s.delivered.filter (isQos2 1) ++ [m]) := by
  have hrun : ∃ s, Lib.exec inNext MsgsIn.init
        [.socketConnect true, .packet ⟨0x20, [0, 0]⟩, .packet ⟨0x34, [0, 1, 97, 0, 1, 5]⟩,
          .packet ⟨0x62, [0, 1]⟩, .packet ⟨0x34, [0, 1, 97, 0, 1, 6]⟩] = some s ∧
      s.arrived.length = 2 := ⟨_, rfl, rfl⟩
  obtain ⟨s, hrun, hlength⟩ := hrun
  refine ⟨s, hrun, hlength, pending_run ?_ hrun 1⟩
  refine Lib.along_cons rfl trivial ?_
  refine Lib.along_cons rfl (fun hcommand => absurd hcommand (by decide)) ?_
  refine Lib.along_cons rfl (fun _ _ _ _ => rfl) ?_
  refine Lib.along_cons rfl (fun hcommand => absurd hcommand (by decide)) ?_
  exact Lib.along_cons rfl (fun _ _ _ _ => rfl) (Lib.along_nil _ _ _)

/-! ## From client to client -/

/-- What the library sends a message as: a topic that passes its checks, a mid where the QoS
asks for one, and a packet that can be built. -/
structure MessageAll.Publishable (m : MessageAll) : Prop where
  topic_ne : m.topic ≠ []
  topic_le : m.topic.length ≤ 65535
  topic_valid : validateUtf8 m.topic = .success
  qos_le : m.qos ≤ 2
  mid_pos : m.qos ≠ 0 → 0 < m.mid
  mid_le : m.mid ≤ 65535
  length_le : (publishPacket m).body.length ≤ maxLength

/-- The message as the receiver has it. -/
def MessageAll.asRead (m : MessageAll) : MessageAll :=
  { m with mid := if m.qos = 0 then 0 else m.mid, state := .invalid, serial := 0 }

theorem readUint16_uint16 {word : ℕ} (h : word ≤ 65535) (rest : List UInt8) :
    readUint16 (uint16 word ++ rest) = some (word, rest) := by
  have hmsb : word / 256 < 256 := by omega
  have hlsb : word % 256 < 256 := by omega
  have hword : (UInt8.ofNat (word / 256)).toNat * 256 + (UInt8.ofNat (word % 256)).toNat =
      word := by
    rw [UInt8.toNat_ofNat_of_lt' hmsb, UInt8.toNat_ofNat_of_lt' hlsb]
    omega
  unfold uint16
  rw [List.cons_append, List.cons_append, List.nil_append, readUint16, hword]

theorem readString_append {topic : List UInt8} (hle : topic.length ≤ 65535)
    (hvalid : validateUtf8 topic = .success) (rest : List UInt8) :
    readString (uint16 topic.length ++ (topic ++ rest)) = .ok (topic, rest) := by
  unfold readString
  rw [readUint16_uint16 hle]
  dsimp only
  split_ifs with hzero hshort hinvalid
  · have hempty : topic = [] := List.length_eq_zero_iff.1 hzero
    rw [hempty, List.nil_append]
  · rw [List.length_append] at hshort
    omega
  · rw [List.take_left] at hinvalid
    exact absurd hvalid hinvalid
  · rw [List.take_left, List.drop_left]

/-- The flags of the command byte. -/
theorem publish_flags (dup retain : Bool) {qos : ℕ} (hqos : qos ≤ 2) :
    let command := CMD_PUBLISH ||| (if dup then 8 else 0) ||| UInt8.ofNat (2 * qos) |||
      (if retain then 1 else 0)
    decide (command &&& 0x08 ≠ 0) = dup ∧ ((command &&& 0x06) >>> 1).toNat = qos ∧
      decide (command &&& 0x01 ≠ 0) = retain ∧ command ≠ 0 := by
  have hcases : qos = 0 ∨ qos = 1 ∨ qos = 2 := by omega
  rcases hcases with rfl | rfl | rfl <;> cases dup <;> cases retain <;> decide

theorem publishPacket_sendable {m : MessageAll} (h : m.Publishable) :
    (publishPacket m).Sendable :=
  ⟨(publish_flags m.dup m.retain h.qos_le).2.2.2, h.length_le⟩

theorem parsePublish_publishPacket {m : MessageAll} (h : m.Publishable) :
    parsePublish (publishPacket m) = .ok m.asRead := by
  obtain ⟨hdup, hqos, hretain, -⟩ := publish_flags m.dup m.retain h.qos_le
  have hcommand : (publishPacket m).command = CMD_PUBLISH ||| (if m.dup then 8 else 0) |||
    UInt8.ofNat (2 * m.qos) ||| (if m.retain then 1 else 0) := rfl
  have hbody : (publishPacket m).body = uint16 m.topic.length ++ (m.topic ++
      ((if m.qos > 0 then uint16 m.mid else []) ++ m.payload)) := by
    unfold publishPacket
    dsimp only
    rw [List.append_assoc, List.append_assoc]
  unfold parsePublish
  dsimp only
  rw [hbody, readString_append h.topic_le h.topic_valid, hcommand, hdup, hqos, hretain]
  dsimp only
  rw [if_neg h.topic_ne]
  unfold MessageAll.asRead
  by_cases hzero : m.qos = 0
  · rw [if_pos hzero, if_neg (by omega), if_pos hzero, List.nil_append, hzero]
  · rw [if_neg hzero, if_pos (Nat.pos_of_ne_zero hzero), readUint16_uint16 h.mid_le]
    dsimp only
    have hpos := h.mid_pos hzero
    have hle := h.qos_le
    rw [if_neg (by omega), if_neg (by omega), if_neg hzero]

/-- One client queues packets for messages, another one reads what of them arrives, in
whatever pieces and with whatever failures: it gets these messages, in order and unchanged,
and all of them where all the bytes arrive. -/
theorem published_arrive {s : Out} {connected pending : Bool} {ls : List OutLabel}
    (hrun : Lib.exec outNext (Out.connect connected pending) ls = some s) {ms : List MessageAll}
    (hms : ∀ m ∈ ms, m.Publishable) (hqueued : s.packets = ms.map publishPacket)
    {sock : List Recv} (harrived : unread sock <+: s.sent) (handle : Packet → MosqErr) (n : ℕ) :
    let handled := (reads handle n ⟨.cleanup, []⟩ sock).conn.handled
    handled.map parsePublish <+: ms.map (fun m => .ok m.asRead) ∧
      (unread sock = ms.flatMap (fun m => (publishPacket m).wire) → Calm sock →
        (∀ p, handle p = .success) → weight sock ≤ n →
          handled.map parsePublish = ms.map fun m => .ok m.asRead) := by
  have hsendable : ∀ p ∈ s.packets, p.Sendable := by
    intro p hp
    rw [hqueued] at hp
    obtain ⟨m, hm, rfl⟩ := List.mem_map.1 hp
    exact publishPacket_sendable (hms m hm)
  have hparsed : (ms.map publishPacket).map parsePublish = ms.map fun m => .ok m.asRead := by
    rw [List.map_map]
    exact List.map_congr_left fun m hm => parsePublish_publishPacket (hms m hm)
  have hbegins := (outInv_exec hrun).sent_begins.1
  obtain ⟨hsome, hall⟩ := handled_of_unread hsendable (harrived.trans hbegins) handle n
  rw [hqueued] at hsome hall
  refine ⟨hparsed ▸ hsome.map parsePublish, fun hunread hcalm hhandle hn => ?_⟩
  rw [← hparsed, hall (by rw [hunread, List.flatMap_map]) hcalm hhandle hn]

/-- A message with QoS 1, in two pieces. -/
theorem published_arrive_two :
    ((reads (fun _ => .success) 20 ⟨.cleanup, []⟩
      [.data 0x32 [6, 0, 1], .failure .again, .data 97 [0, 7, 5]]).conn.handled.map
        parsePublish) = [.ok ⟨7, [97], [5], 1, false, false, .invalid, 0⟩] := by
  have hone : MessageAll.Publishable ⟨7, [97], [5], 1, false, false, .waitForPuback, 1⟩ :=
    ⟨by decide, by decide, by decide, by decide, fun _ => by decide, by decide, by decide⟩
  have hrun : ∃ s, Lib.exec outNext (Out.connect true false)
      [.queue 7 ⟨0x32, [0, 1, 97, 0, 7, 5]⟩, .write [.wrote 9]] = some s ∧
      s.packets = [publishPacket ⟨7, [97], [5], 1, false, false, .waitForPuback, 1⟩] ∧
      s.sent = [0x32, 6, 0, 1, 97, 0, 7, 5] := ⟨_, rfl, rfl, rfl⟩
  obtain ⟨s, hrun, hqueued, hsent⟩ := hrun
  refine (@published_arrive s true false _ hrun [_] (fun m hm => List.mem_singleton.1 hm ▸ hone)
    hqueued _ (by rw [hsent]; decide) (fun _ => .success) 20).2 rfl ?_ (fun _ => rfl) (by decide)
  unfold Calm
  simp

end Mqtt

end DeviceClient
