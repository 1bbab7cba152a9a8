import DeviceClient.Mqtt.PacketRead

/-!
# The packet writer

`packet__queue` appends a packet to `out_packet`, `packet__write` hands bytes to the socket
for as long as it takes them. The packet that is being written is `current_out_packet`.

* `published_on_wire`: the callbacks of the packets without an answer, at any time of any run,
  against the bytes on the wire.
* `handled_of_sent`: two clients back to back: the reader hands over the packets that were
  queued, in order, and all of them where nothing is left to write.
-/

namespace DeviceClient

namespace Mqtt

/-! ## Packets to send -/

/-- A packet of `out_packet`, with what is written of it. -/
structure OutPacket where
  packet : Packet
  mid : ℕ
  pos : ℕ
  to_process : ℕ
deriving DecidableEq, Repr

/-- The buffer: what `packet__alloc` wrote, and the rest behind it. -/
def OutPacket.payload (packet : OutPacket) : List UInt8 := packet.packet.wire

/-- What `net__write` does: it takes `n + 1` bytes at most, or fails. -/
inductive Send where
  | wrote (n : ℕ)
  | again
  | intr
  | reset
  | errno
deriving DecidableEq, Repr

/-- The writer's part of `struct mosquitto`. The last four only observe this connection: the
bytes that the socket took, the calls of `on_publish` by `packet__write`, the packets that
are written, and all that were queued. -/
structure Out where
  /-- `sock` is valid. -/
  connected : Bool
  /-- The state is `mosq_cs_connect_pending`. -/
  pending : Bool
  current_out_packet : Option OutPacket
  out_packet : List OutPacket
  sent : List UInt8
  published : List ℕ
  finished : List OutPacket
  queued : List OutPacket
deriving DecidableEq, Repr

/-- A new connection, with nothing queued. -/
def Out.connect (connected pending : Bool) : Out where
  connected := connected
  pending := pending
  current_out_packet := none
  out_packet := []
  sent := []
  published := []
  finished := []
  queued := []

/-! ## The functions -/

/-- A packet of which nothing is written. -/
def OutPacket.fresh (packet : OutPacket) : OutPacket :=
  { packet with pos := 0, to_process := packet.payload.length }

/-- `packet__queue`, in the threaded mode that the client sets. -/
def Out.queue (s : Out) (packet : OutPacket) : Out :=
  { s with
    out_packet := s.out_packet ++ [packet.fresh]
    queued := s.queued ++ [packet.fresh] }

/-- Take the next packet, if none is being written. -/
def Out.take (s : Out) : Out :=
  match s.current_out_packet, s.out_packet with
  | none, packet :: rest => { s with current_out_packet := some packet, out_packet := rest }
  | _, _ => s

/-- `net__write` takes `k` bytes. -/
def OutPacket.advance (packet : OutPacket) (k : ℕ) : OutPacket :=
  { packet with pos := packet.pos + k, to_process := packet.to_process - k }

/-- The return code of `packet__write` where `net__write` fails. -/
def writeRc : Send → MosqErr
  | .wrote _ | .again | .intr => .success
  | .reset => .connLost
  | .errno => .errno

/-- The inner loop of `packet__write`, on the results of `net__write`: the packet, the bytes
that the socket took, and the return code if it is not through. -/
def writePacket : OutPacket → List Send → OutPacket × List UInt8 × List Send × Option MosqErr
  | packet, [] =>
    if packet.to_process = 0 then (packet, [], [], none) else (packet, [], [], some .success)
  | packet, result :: script =>
    if packet.to_process = 0 then (packet, [], result :: script, none)
    else
      match result with
      | .wrote n =>
        let k := min (n + 1) packet.to_process
        let (packet', bytes, rest, rc) := writePacket (packet.advance k) script
        (packet', (packet.payload.drop packet.pos).take k ++ bytes, rest, rc)
      | failure => (packet, [], script, some (writeRc failure))

/-- The callback for a packet that is not answered: `(command & 0xF6) == CMD_PUBLISH`. -/
def OutPacket.isQos0 (packet : OutPacket) : Bool := packet.packet.command &&& 0xF6 == CMD_PUBLISH

def OutPacket.isDisconnect (packet : OutPacket) : Bool :=
  packet.packet.command &&& 0xF0 == CMD_DISCONNECT

/-- What follows the last byte of a packet, up to the next packet. -/
def Out.finish (s : Out) (packet : OutPacket) : Out :=
  { s with
    finished := s.finished ++ [packet]
    published := if packet.isQos0 then s.published ++ [packet.mid] else s.published
    current_out_packet := s.out_packet.head?
    out_packet := s.out_packet.tail }

/-- `do_client_disconnect` closes the socket. -/
def Out.close (s : Out) : Out := { s with connected := false, pending := false }

/-- The outer loop of `packet__write`, on the packet that is being written and the ones
behind it. -/
def writeLoop : OutPacket → List OutPacket → Out → List Send → Out × MosqErr
  | packet, queue, s, script =>
    match writePacket packet script with
    | (packet', bytes, _, some rc) =>
      ({ s with current_out_packet := some packet', sent := s.sent ++ bytes }, rc)
    | (packet', bytes, rest, none) =>
      let done := Out.finish { s with sent := s.sent ++ bytes } packet'
      if packet'.isDisconnect then (done.close, .success)
      else
        match queue with
        | [] => (done, .success)
        | next :: queue => writeLoop next queue done rest

/-- `packet__write` -/
def packetWrite (s : Out) (script : List Send) : Out × MosqErr :=
  if s.connected = false then (s, .noConn)
  else if s.pending = true then (s.take, .success)
  else
    match s.take.current_out_packet with
    | none => (s.take, .success)
    | some packet => writeLoop packet s.take.out_packet s.take script

/-! ## Runs -/

inductive OutLabel where
  /-- A `send__…` function builds a packet with `packet__alloc` and queues it. -/
  | queue (mid : ℕ) (p : Packet)
  | write (script : List Send)
  /-- The connection stands, or is lost. -/
  | established
  | lost
  /-- `mosquitto__reconnect`, after `packet__cleanup_all`. -/
  | reconnect (connected pending : Bool)

def outNext (s : Out) : OutLabel → Option Out
  | .queue mid p =>
    match packetAlloc p.command p.body.length with
    | .error _ => some s
    | .ok _ => some (s.queue ⟨p, mid, 0, 0⟩)
  | .write script => some (packetWrite s script).1
  | .established => some { s with pending := false }
  | .lost => some { s with connected := false }
  | .reconnect connected pending => some (Out.connect connected pending)

/-! ## What is on the wire -/

/-- The packets in the order in which they were queued: written, being written, waiting. The
wire has the bytes of the first and what is written of the second. -/
structure OutInv (s : Out) : Prop where
  queued_eq : s.queued =
    s.finished.map OutPacket.fresh ++
      (s.current_out_packet.toList.map OutPacket.fresh ++ s.out_packet)
  fresh_eq : ∀ packet ∈ s.out_packet, packet.fresh = packet
  length_eq : ∀ packet ∈ s.current_out_packet,
    packet.pos + packet.to_process = packet.payload.length
  sent_eq : s.sent = s.finished.flatMap OutPacket.payload ++
    s.current_out_packet.toList.flatMap fun packet => packet.payload.take packet.pos
  published_eq : s.published = (s.finished.filter OutPacket.isQos0).map OutPacket.mid

theorem outInv_connect (connected pending : Bool) : OutInv (Out.connect connected pending) :=
  ⟨rfl, fun _ h => absurd h List.not_mem_nil, fun _ h => absurd h (Option.not_mem_none _), rfl,
    rfl⟩

theorem fresh_fresh (packet : OutPacket) : packet.fresh.fresh = packet.fresh := rfl

theorem outInv_queue {s : Out} (h : OutInv s) (packet : OutPacket) : OutInv (s.queue packet) := by
  refine ⟨?_, ?_, h.length_eq, h.sent_eq, h.published_eq⟩
  · unfold Out.queue
    dsimp only
    rw [h.queued_eq, List.append_assoc, List.append_assoc]
  · intro other hother
    rcases List.mem_append.1 hother with hother | hother
    · exact h.fresh_eq other hother
    · rw [List.mem_singleton.1 hother]
      rfl

theorem outInv_take {s : Out} (h : OutInv s) : OutInv s.take := by
  unfold Out.take
  split
  case h_1 packet rest hcurrent hout =>
    have hfresh : packet.fresh = packet :=
      h.fresh_eq packet (by rw [hout]; exact List.mem_cons_self)
    have hpos : packet.pos = 0 := by rw [← hfresh]; rfl
    refine ⟨?_, ?_, ?_, ?_, h.published_eq⟩
    · dsimp only
      rw [h.queued_eq, hcurrent, hout, Option.toList_some, List.map_singleton, hfresh]
      rfl
    · intro other hother
      exact h.fresh_eq other (by rw [hout]; exact List.mem_cons_of_mem packet hother)
    · intro other hother
      cases hother
      rw [← hfresh]
      exact Nat.zero_add _
    · dsimp only
      rw [h.sent_eq, hcurrent, Option.toList_some, List.flatMap_singleton, hpos, List.take_zero]
      rfl
  case h_2 => exact h

/-- What `writePacket` leaves of a packet. -/
structure Written (packet packet' : OutPacket) (bytes : List UInt8) : Prop where
  fresh_eq : packet'.fresh = packet.fresh
  length_eq : packet'.pos + packet'.to_process = packet'.payload.length
  bytes_eq : packet'.payload.take packet'.pos = packet.payload.take packet.pos ++ bytes

theorem Written.refl {packet : OutPacket}
    (h : packet.pos + packet.to_process = packet.payload.length) : Written packet packet [] :=
  ⟨rfl, h, (List.append_nil _).symm⟩

theorem written_advance {packet : OutPacket} {k : ℕ} (hk : k ≤ packet.to_process)
    (h : packet.pos + packet.to_process = packet.payload.length) :
    Written packet (packet.advance k) ((packet.payload.drop packet.pos).take k) := by
  refine ⟨rfl, ?_, ?_⟩
  · change packet.pos + k + (packet.to_process - k) = packet.payload.length
    omega
  · change packet.payload.take (packet.pos + k) = _
    rw [List.take_add]

theorem Written.trans {packet packet1 packet2 : OutPacket} {bytes1 bytes2 : List UInt8}
    (h1 : Written packet packet1 bytes1) (h2 : Written packet1 packet2 bytes2) :
    Written packet packet2 (bytes1 ++ bytes2) :=
  ⟨h2.fresh_eq.trans h1.fresh_eq, h2.length_eq, by
    rw [h2.bytes_eq, h1.bytes_eq, List.append_assoc]⟩

theorem written_writePacket {packet packet' : OutPacket} {script rest : List Send}
    {bytes : List UInt8} {rc : Option MosqErr}
    (h : packet.pos + packet.to_process = packet.payload.length)
    (hwrite : writePacket packet script = (packet', bytes, rest, rc)) :
    Written packet packet' bytes ∧ (rc = none → packet'.to_process = 0) := by
  induction script generalizing packet bytes with
  | nil =>
    unfold writePacket at hwrite
    split_ifs at hwrite with hzero <;> cases hwrite
    · exact ⟨Written.refl h, fun _ => hzero⟩
    · exact ⟨Written.refl h, fun hnone => by cases hnone⟩
  | cons result script ih =>
    unfold writePacket at hwrite
    split_ifs at hwrite with hzero
    · cases hwrite
      exact ⟨Written.refl h, fun _ => hzero⟩
    · rcases result with n | - | - | - | - <;> dsimp only at hwrite
      case wrote =>
        have hstep := written_advance (k := min (n + 1) packet.to_process) (Nat.min_le_right _ _) h
        cases hrec : writePacket (packet.advance (min (n + 1) packet.to_process)) script with
        | mk packet2 tail =>
          obtain ⟨bytes2, rest2, rc2⟩ := tail
          rw [hrec] at hwrite
          cases hwrite
          obtain ⟨hwritten, hdone⟩ := ih hstep.length_eq hrec
          exact ⟨hstep.trans hwritten, hdone⟩
      all_goals
        cases hwrite
        exact ⟨Written.refl h, fun hnone => by cases hnone⟩

/-- More of the current packet on the wire. -/
theorem outInv_written {s : Out} (h : OutInv s) {packet packet' : OutPacket} {bytes : List UInt8}
    (hcurrent : s.current_out_packet = some packet) (hwritten : Written packet packet' bytes) :
    OutInv { s with current_out_packet := some packet', sent := s.sent ++ bytes } := by
  refine ⟨?_, h.fresh_eq, ?_, ?_, h.published_eq⟩
  · dsimp only
    rw [h.queued_eq, hcurrent, Option.toList_some, Option.toList_some, List.map_singleton,
      List.map_singleton, hwritten.fresh_eq]
  · intro other hother
    cases hother
    exact hwritten.length_eq
  · dsimp only
    rw [h.sent_eq, hcurrent, Option.toList_some, Option.toList_some, List.flatMap_singleton,
      List.flatMap_singleton, hwritten.bytes_eq, List.append_assoc]

/-- The current packet is written: the next one takes its place. -/
theorem outInv_finish {s : Out} (h : OutInv s) {packet : OutPacket}
    (hcurrent : s.current_out_packet = some packet) (hdone : packet.to_process = 0) :
    OutInv (s.finish packet) := by
  have hlength := h.length_eq packet hcurrent
  have hsent : s.sent = (s.finished ++ [packet]).flatMap OutPacket.payload := by
    rw [h.sent_eq, hcurrent, Option.toList_some, List.flatMap_singleton, List.flatMap_append,
      List.flatMap_singleton, List.take_of_length_le (by omega)]
  have hpublished : (s.finish packet).published =
      ((s.finished ++ [packet]).filter OutPacket.isQos0).map OutPacket.mid := by
    unfold Out.finish
    dsimp only
    rw [List.filter_append, List.map_append, ← h.published_eq]
    cases hqos : packet.isQos0 with
    | false => rw [List.filter_cons_of_neg (by rw [hqos]; decide)]; simp
    | true => rw [List.filter_cons_of_pos hqos]; rfl
  cases hout : s.out_packet with
  | nil =>
    refine ⟨?_, ?_, ?_, ?_, hpublished⟩ <;> unfold Out.finish <;> dsimp only <;> rw [hout]
    · rw [h.queued_eq, hcurrent, hout, List.map_append]
      simp
    · exact fun _ hmem => absurd hmem List.not_mem_nil
    · exact fun _ hmem => absurd hmem (Option.not_mem_none _)
    · rw [hsent]
      simp
  | cons next rest =>
    have hfresh : next.fresh = next := h.fresh_eq next (by rw [hout]; exact List.mem_cons_self)
    have hpos : next.pos = 0 := by rw [← hfresh]; rfl
    refine ⟨?_, ?_, ?_, ?_, hpublished⟩ <;> unfold Out.finish <;> dsimp only <;> rw [hout]
    · rw [h.queued_eq, hcurrent, hout, List.map_append]
      simp [hfresh]
    · exact fun other hmem => h.fresh_eq other (by rw [hout]; exact List.mem_cons_of_mem next hmem)
    · intro other hother
      cases hother
      rw [← hfresh]
      exact Nat.zero_add _
    · rw [hsent]
      simp [hpos]

theorem outInv_close {s : Out} (h : OutInv s) : OutInv s.close :=
  ⟨h.queued_eq, h.fresh_eq, h.length_eq, h.sent_eq, h.published_eq⟩

theorem outInv_writePacket {s : Out} (h : OutInv s) {packet packet' : OutPacket}
    (hcurrent : s.current_out_packet = some packet) {script rest : List Send} {bytes : List UInt8}
    {rc : Option MosqErr} (hwrite : writePacket packet script = (packet', bytes, rest, rc)) :
    OutInv { s with current_out_packet := some packet', sent := s.sent ++ bytes } ∧
      (rc = none → OutInv (Out.finish { s with sent := s.sent ++ bytes } packet')) := by
  obtain ⟨hwritten, hdone⟩ := written_writePacket (h.length_eq packet hcurrent) hwrite
  have hinv := outInv_written h hcurrent hwritten
  exact ⟨hinv, fun hnone => outInv_finish hinv rfl (hdone hnone)⟩

theorem outInv_writeLoop (queue : List OutPacket) {packet : OutPacket} {s : Out}
    (h : OutInv s) (hcurrent : s.current_out_packet = some packet) (hout : s.out_packet = queue)
    (script : List Send) : OutInv (writeLoop packet queue s script).1 := by
  induction queue generalizing packet s script with
  | nil =>
    obtain ⟨⟨packet', bytes, rest, rc⟩, hwrite⟩ : ∃ r, writePacket packet script = r := ⟨_, rfl⟩
    obtain ⟨hinv, hfinish⟩ := outInv_writePacket h hcurrent hwrite
    unfold writeLoop
    rw [hwrite]
    rcases rc with - | rc <;> dsimp only
    · split_ifs
      · exact outInv_close (hfinish rfl)
      · exact hfinish rfl
    · exact hinv
  | cons next queue ih =>
    obtain ⟨⟨packet', bytes, rest, rc⟩, hwrite⟩ : ∃ r, writePacket packet script = r := ⟨_, rfl⟩
    obtain ⟨hinv, hfinish⟩ := outInv_writePacket h hcurrent hwrite
    unfold writeLoop
    rw [hwrite]
    rcases rc with - | rc <;> dsimp only
    · split_ifs
      · exact outInv_close (hfinish rfl)
      · refine ih (hfinish rfl) ?_ ?_ rest <;> unfold Out.finish <;> dsimp only <;> rw [hout]
        · rfl
        · rfl
    · exact hinv

theorem outInv_packetWrite {s : Out} (h : OutInv s) (script : List Send) :
    OutInv (packetWrite s script).1 := by
  have htake := outInv_take h
  unfold packetWrite
  split_ifs
  · exact h
  · exact htake
  · split
    · exact htake
    case h_2 packet hcurrent => exact outInv_writeLoop _ htake hcurrent rfl script

theorem outInv_step {s s' : Out} (h : OutInv s) (l : OutLabel) (hstep : outNext s l = some s') :
    OutInv s' := by
  cases l with
  | queue mid p =>
    unfold outNext at hstep
    dsimp only at hstep
    split at hstep <;> cases hstep
    · exact h
    · exact outInv_queue h _
  | write script =>
    cases hstep
    exact outInv_packetWrite h script
  | established =>
    cases hstep
    exact ⟨h.queued_eq, h.fresh_eq, h.length_eq, h.sent_eq, h.published_eq⟩
  | lost =>
    cases hstep
    exact ⟨h.queued_eq, h.fresh_eq, h.length_eq, h.sent_eq, h.published_eq⟩
  | reconnect connected pending =>
    cases hstep
    exact outInv_connect connected pending

theorem outInv_exec {s : Out} {connected pending : Bool} {ls : List OutLabel}
    (hrun : Lib.exec outNext (Out.connect connected pending) ls = some s) : OutInv s := by
  refine Lib.exec_inv_all ?_ (outInv_connect connected pending) hrun
  exact fun s l s' h hstep => outInv_step h l hstep

@[simp] theorem queued_take (s : Out) : s.take.queued = s.queued := by
  unfold Out.take
  split <;> rfl

theorem queued_writeLoop (queue : List OutPacket) (packet : OutPacket) (s : Out)
    (script : List Send) : (writeLoop packet queue s script).1.queued = s.queued := by
  induction queue generalizing packet s script with
  | nil =>
    unfold writeLoop
    split
    · rfl
    · dsimp only
      split_ifs <;> rfl
  | cons next queue ih =>
    unfold writeLoop
    split
    · rfl
    · dsimp only
      split_ifs
      · rfl
      · exact ih _ _ _

theorem queued_packetWrite (s : Out) (script : List Send) :
    (packetWrite s script).1.queued = s.queued := by
  unfold packetWrite
  split_ifs
  · rfl
  · exact queued_take s
  · split
    · exact queued_take s
    · rw [queued_writeLoop, queued_take]

/-- The packets that were queued in this connection. -/
def Out.packets (s : Out) : List Packet := s.queued.map OutPacket.packet

/-- The library has no command 0. -/
def OutLabel.Named : OutLabel → Prop
  | .queue _ p => p.command ≠ 0
  | _ => True

theorem sendable_step {s s' : Out} (h : ∀ p ∈ s.packets, p.Sendable) (l : OutLabel)
    (hnamed : l.Named) (hstep : outNext s l = some s') : ∀ p ∈ s'.packets, p.Sendable := by
  cases l with
  | queue mid p =>
    have hlength := packetAlloc_isOk_iff p.command p.body.length
    unfold outNext at hstep
    dsimp only at hstep
    split at hstep
    case h_1 => exact Option.some.inj hstep ▸ h
    case h_2 header halloc =>
      rw [halloc] at hlength
      cases hstep
      intro q hq
      unfold Out.packets Out.queue at hq
      rw [List.map_append, List.mem_append] at hq
      rcases hq with hq | hq
      · exact h q hq
      · rw [List.mem_singleton.1 hq]
        exact ⟨hnamed, hlength.1 rfl⟩
  | write script =>
    cases hstep
    unfold Out.packets
    rwa [queued_packetWrite]
  | established =>
    cases hstep
    exact h
  | lost =>
    cases hstep
    exact h
  | reconnect connected pending =>
    cases hstep
    exact fun p hp => absurd hp List.not_mem_nil

theorem sendable_run {s : Out} {connected pending : Bool} {ls : List OutLabel}
    (hnamed : ∀ l ∈ ls, l.Named)
    (hrun : Lib.exec outNext (Out.connect connected pending) ls = some s) :
    ∀ p ∈ s.packets, p.Sendable :=
  Lib.exec_inv (fun s l _ h hname hstep => @sendable_step s _ h l hname hstep) ls _ s
    (fun _ hp => absurd hp List.not_mem_nil)
    (Lib.along_of_forall_mem (fun l hl _ => hnamed l hl) _) hrun

/-- The wire has a beginning of the queued packets, all of them where nothing is left. -/
theorem OutInv.sent_begins {s : Out} (h : OutInv s) :
    s.sent <+: s.packets.flatMap Packet.wire ∧
      (s.current_out_packet = none → s.out_packet = [] →
        s.sent = s.packets.flatMap Packet.wire) := by
  have hwire : ∀ l : List OutPacket,
      (l.map OutPacket.fresh).flatMap OutPacket.payload = l.flatMap OutPacket.payload := by
    intro l
    rw [List.flatMap_map]
    rfl
  have hpackets : s.packets.flatMap Packet.wire = s.finished.flatMap OutPacket.payload ++
      (s.current_out_packet.toList.flatMap OutPacket.payload ++
        s.out_packet.flatMap OutPacket.payload) := by
    unfold Out.packets
    rw [List.flatMap_map, h.queued_eq]
    change (_ ++ (_ ++ _) : List OutPacket).flatMap OutPacket.payload = _
    rw [List.flatMap_append, List.flatMap_append, hwire, hwire]
  constructor
  · rw [h.sent_eq, hpackets]
    refine List.prefix_append_right_inj _ |>.2 ?_
    cases s.current_out_packet with
    | none => exact List.nil_prefix
    | some packet =>
      rw [Option.toList_some, List.flatMap_singleton, List.flatMap_singleton]
      exact ( List.take_prefix _ _).trans ( List.prefix_append _ _)
  · intro hcurrent hout
    rw [h.sent_eq, hpackets, hcurrent, hout]
    rfl

/-- What a reader hands over of a beginning of a stream of packets. -/
theorem handled_of_unread {ps : List Packet} (hps : ∀ p ∈ ps, p.Sendable) {sock : List Recv}
    (harrived : unread sock <+: ps.flatMap Packet.wire) (handle : Packet → MosqErr) (n : ℕ) :
    (reads handle n ⟨.cleanup, []⟩ sock).conn.handled <+: ps ∧
      (unread sock = ps.flatMap Packet.wire → Calm sock → (∀ p, handle p = .success) →
        weight sock ≤ n → (reads handle n ⟨.cleanup, []⟩ sock).conn = ⟨.cleanup, ps⟩) := by
  have hstart : (⟨.cleanup, []⟩ : Conn).settle = ⟨.cleanup, []⟩ := settle_of_ok ok_init
  have hreadable : Readable ⟨.cleanup, []⟩ sock := by
    obtain ⟨c, hexec, -⟩ := handled_of_begins hps harrived
    unfold Readable
    rw [hstart, hexec]
    rfl
  constructor
  · obtain ⟨l, hunread, hexec⟩ := fed_reads handle n ok_init hreadable
    have hl : l <+: ps.flatMap Packet.wire := (hunread ▸ List.prefix_append l _).trans harrived
    obtain ⟨c, hc, hhandled⟩ := handled_of_begins hps hl
    rw [hstart, hc] at hexec
    refine List.IsPrefix.trans ?_ (Option.some.inj hexec ▸ hhandled)
    unfold Conn.settle Conn.deliver
    split_ifs
    · exact List.prefix_append _ _
    · exact List.prefix_rfl
  · intro hunread hcalm hhandle hn
    have hall := conn_reads_all hhandle ok_init hcalm hreadable hn
    rw [hunread, exec_feedByte_wires hps []] at hall
    exact (Option.some.inj hall).symm

/-- Two clients back to back: whatever the socket takes and however the bytes arrive, the
reader hands over the packets that were queued, in order and no others, and all of them where
nothing is left to write or to arrive. -/
theorem handled_of_sent {s : Out} {connected pending : Bool} {ls : List OutLabel}
    (hnamed : ∀ l ∈ ls, l.Named)
    (hrun : Lib.exec outNext (Out.connect connected pending) ls = some s) {sock : List Recv}
    (harrived : unread sock <+: s.sent) (handle : Packet → MosqErr) (n : ℕ) :
    (reads handle n ⟨.cleanup, []⟩ sock).conn.handled <+: s.packets ∧
      (s.current_out_packet = none → s.out_packet = [] → unread sock = s.sent → Calm sock →
        (∀ p, handle p = .success) → weight sock ≤ n →
        (reads handle n ⟨.cleanup, []⟩ sock).conn.handled = s.packets) := by
  have hinv := outInv_exec hrun
  obtain ⟨hbegins, hall⟩ := hinv.sent_begins
  obtain ⟨hsome, hevery⟩ :=
    handled_of_unread (sendable_run hnamed hrun) (harrived.trans hbegins) handle n
  refine ⟨hsome, fun hcurrent hout hunread hcalm hhandle hn => ?_⟩
  rw [hevery (hunread.trans (hall hcurrent hout)) hcalm hhandle hn]

/-- Two packets on a socket that takes two bytes and fails once, read in three pieces. -/
theorem handled_of_sent_two :
    (reads (fun _ => .success) 10 ⟨.cleanup, []⟩
      [.data CMD_PINGREQ [], .failure .again, .data 0 [CMD_PUBACK], .data 2 [0, 9]]).conn.handled =
      [⟨CMD_PINGREQ, []⟩, ⟨CMD_PUBACK, [0, 9]⟩] :=
  (@handled_of_sent
    ⟨true, false, none, [], [CMD_PINGREQ, 0, CMD_PUBACK, 2, 0, 9], [],
      [⟨⟨CMD_PINGREQ, []⟩, 0, 2, 0⟩, ⟨⟨CMD_PUBACK, [0, 9]⟩, 9, 4, 0⟩],
      [⟨⟨CMD_PINGREQ, []⟩, 0, 0, 2⟩, ⟨⟨CMD_PUBACK, [0, 9]⟩, 9, 0, 4⟩]⟩
    true false
    [.queue 0 ⟨CMD_PINGREQ, []⟩, .write [.wrote 0, .again], .queue 9 ⟨CMD_PUBACK, [0, 9]⟩,
      .write [.wrote 0, .intr], .write [.wrote 9]]
    (by simp [OutLabel.Named, CMD_PINGREQ, CMD_PUBACK]) rfl
    [.data CMD_PINGREQ [], .failure .again, .data 0 [CMD_PUBACK], .data 2 [0, 9]]
    (by decide) (fun _ => .success) 10).2 rfl rfl rfl
    (by unfold Calm; simp) (fun _ => rfl) (by decide)

end Mqtt

end DeviceClient
