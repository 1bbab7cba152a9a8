import DeviceClient.Core.MessageQueue
import DeviceClient.Util.ConcurrentQueue

/-!
# Sending events

`CIgniteEventSender`: the programs of the vehicle send their events over a socket to the message
queue of the client. Before that can be reached, events wait in the startup queue; the next
connection takes them first.

* `handed_over_run`: whatever connections open and break, the events that were written, followed
  by those that wait, are in the order in which they were sent, none twice, and what waits is at
  most 20480 bytes.
* `startup_complete_run`: as long as no write fails and the startup events find room, no event
  is lost.
* `events_arrive`: the message queue gets from each connection the events that were written to
  it, whatever it reads at a time and whoever else is connected.
-/

namespace DeviceClient

open Lib IgniteMessage MessageQueue

/-! ## Model -/

/-- `CMessageTypes::eEVENT` -/
def eEVENT : UInt32 := 1

def ulStartupEventQueueMaxSize : ℕ := 20480

/-- `GetMessageAsString`: the text ends at its first NUL. -/
def IgniteMessage.getMessageAsString (m : IgniteMessage) : List UInt8 :=
  m.m_puchMsg.takeWhile fun b => b ≠ 0

/-- What one call of `operate_on_socket` writes: the whole message, or only so many bytes of it
before an error. -/
inductive Write where
  | whole
  | cut (nOperatedSize : ℕ)
deriving DecidableEq, Repr

/-- A connection of the sender: the bytes written to it, and the messages that were written to
the end with the events that they carry. -/
structure Pipe where
  stream : List UInt8
  messages : List SendableMessage
  events : List (List UInt8)

/-- The sender. The connections that it opened, newest last, and the events that it was given
are history. -/
structure EventSender where
  m_nMsqid : ℤ
  m_bQueueStartupEvents : Bool
  m_queStartupEvents : ConcurrentQueue (List UInt8)
  g_unGlobalSeqnum : UInt32
  pipes : List Pipe
  sent : List (List UInt8)

def EventSender.init : EventSender := ⟨-1, true, .empty, 0, [], []⟩

/-- `SetMessage` keeps the type. -/
theorem setMessageString_type (strMsg : List UInt8) (m : IgniteMessage) :
    (setMessageString strMsg m).2.m_unType = m.m_unType := by
  unfold setMessageString
  by_cases hlength : strMsg.length + 1 ≤ MAX_MESSAGE_LENGTH
  · rw [if_pos hlength]
  · rw [if_neg hlength]

/-- What `SetMessage` sets fits. -/
theorem setMessageString_length (strMsg : List UInt8) (m : IgniteMessage)
    (hm : m.m_puchMsg.length ≤ MAX_MESSAGE_LENGTH) :
    (setMessageString strMsg m).2.m_puchMsg.length ≤ MAX_MESSAGE_LENGTH := by
  unfold setMessageString
  by_cases hlength : strMsg.length + 1 ≤ MAX_MESSAGE_LENGTH
  · rw [if_pos hlength]
    split_ifs
    · exact Nat.zero_le _
    · rw [List.length_append]
      exact hlength
  · rw [if_neg hlength]
    exact hm

/-- The message for an event; `SetMessage` of an event that is too long leaves it empty, which
nobody looks at. -/
def eventMessage (nMsqid : ℤ) (unGlobalSeqnum : UInt32) (strEvnt : List UInt8) :
    SendableMessage where
  toIgniteMessage := (setMessageString strEvnt ⟨eEVENT, nMsqid, false, unGlobalSeqnum + 1, []⟩).2
  type_pos := lt_of_lt_of_eq Nat.one_pos (setMessageString_type strEvnt _).symm
  length_le := setMessageString_length strEvnt _ (Nat.zero_le _)

/-- It is the message that the constructor builds. -/
theorem create_eventMessage (nMsqid : ℤ) (unGlobalSeqnum : UInt32) :
    create eEVENT nMsqid unGlobalSeqnum =
      (some ⟨eEVENT, nMsqid, false, unGlobalSeqnum + 1, []⟩, unGlobalSeqnum + 1) := rfl

section

variable (order : ByteOrder)

/-- What a write leaves on a connection. -/
def Pipe.write (p : Pipe) (m : SendableMessage) (strEvnt : List UInt8) : Write → Pipe
  | .whole => ⟨p.stream ++ m.serialize order, p.messages ++ [m], p.events ++ [strEvnt]⟩
  | .cut nOperatedSize =>
    { p with stream := p.stream ++
        (m.serialize order).take (min nOperatedSize ((m.serialize order).length - 1)) }

/-- The newest connection. -/
def onLast (f : Pipe → Pipe) : List Pipe → List Pipe
  | [] => []
  | [p] => [f p]
  | p :: q :: pipes => p :: onLast f (q :: pipes)

/-- A message with the event is built and sent. -/
def EventSender.sendMessage (s : EventSender) (strEvnt : List UInt8) (w : Write) : EventSender :=
  let event := eventMessage s.m_nMsqid s.g_unGlobalSeqnum strEvnt
  { s with
    g_unGlobalSeqnum := s.g_unGlobalSeqnum + 1
    pipes := onLast (fun p => p.write order event strEvnt w) s.pipes }

/-- The loop of `Send` over the startup queue, for as many events; the result of a write is not
looked at, and a script that is too short writes whole messages. -/
def EventSender.flush : ℕ → List Write → EventSender → EventSender
  | 0, _, s => s
  | fuel + 1, writes, s =>
    match s.m_queStartupEvents.take with
    | none => s
    | some (strEvnt, queStartupEvents) =>
      let s1 := { s with m_queStartupEvents := queStartupEvents }
      EventSender.flush fuel writes.tail
        { s1.sendMessage order strEvnt (writes.headD .whole) with m_bQueueStartupEvents := false }

/-- `OpenConnectionBasedOnSocketType` -/
def EventSender.openConnection (s : EventSender) (nSockFd : ℤ) : EventSender :=
  { s with
    m_nMsqid := nSockFd
    pipes := if 0 ≤ nSockFd then s.pipes ++ [⟨[], [], []⟩] else s.pipes }

/-- `AddEventToStartUpQueue`, when `nFails` attempts at the lock of the queue fail. -/
def EventSender.addEventToStartUpQueue (s : EventSender) (rstrSerializedEvent : List UInt8)
    (nFails : ℕ) : EventSender :=
  if s.m_queStartupEvents.size + rstrSerializedEvent.length ≤ ulStartupEventQueueMaxSize then
    { s with m_queStartupEvents :=
        (s.m_queStartupEvents.put rstrSerializedEvent rstrSerializedEvent.length nFails).2 }
  else s

/-- What one call of `Send` finds: the socket that a new connection gets, negative if there is
none, how the queued events and the event itself are written, and the attempts at the lock of
the queue that fail. -/
structure SendCall where
  rstrSerializedEvent : List UInt8
  nSockFd : ℤ
  queued : List Write
  last : Write
  nFails : ℕ
deriving DecidableEq, Repr

/-- `Send` -/
def EventSender.send (s : EventSender) (call : SendCall) : EventSender × ℤ :=
  let s0 := { s with sent := s.sent ++ [call.rstrSerializedEvent] }
  let s1 := if s0.m_nMsqid < 0 then s0.openConnection call.nSockFd else s0
  if 0 ≤ s1.m_nMsqid then
    let s2 := EventSender.flush order s1.m_queStartupEvents.values.length call.queued s1
    let s3 := s2.sendMessage order call.rstrSerializedEvent call.last
    if call.last = .whole then (s3, 0) else ({ s3 with m_nMsqid := -1 }, -1)
  else if s1.m_bQueueStartupEvents then
    (s1.addEventToStartUpQueue call.rstrSerializedEvent call.nFails, -1)
  else (s1, -1)

/-- The state after one more call. -/
def EventSender.next (s : EventSender) (call : SendCall) : Option EventSender :=
  some (s.send order call).1

end

/-- The events that were written to the end, over all connections. -/
def EventSender.written (s : EventSender) : List (List UInt8) := s.pipes.flatMap Pipe.events

/-! ## The order of the events -/

section

variable {order : ByteOrder}

theorem onLast_append (f : Pipe → Pipe) (pipes : List Pipe) (p : Pipe) :
    onLast f (pipes ++ [p]) = pipes ++ [f p] := by
  induction pipes with
  | nil => rfl
  | cons q pipes ih =>
    cases pipes with
    | nil => rfl
    | cons r pipes =>
      have hrest : onLast f (q :: r :: pipes ++ [p]) = q :: onLast f (r :: pipes ++ [p]) := rfl
      rw [hrest, ih]
      rfl

namespace EventSender

/-- A connection is open: there is a newest one. -/
def Connected (s : EventSender) : Prop := 0 ≤ s.m_nMsqid → ∃ pipes p, s.pipes = pipes ++ [p]

theorem written_sendMessage {s : EventSender} {pipes : List Pipe} {p : Pipe}
    (h : s.pipes = pipes ++ [p]) (strEvnt : List UInt8) (w : Write) :
    (s.sendMessage order strEvnt w).written =
      s.written ++ if w = .whole then [strEvnt] else [] := by
  unfold sendMessage written
  dsimp only
  rw [h, onLast_append, List.flatMap_append, List.flatMap_append, List.flatMap_singleton,
    List.flatMap_singleton, List.append_assoc]
  congr 1
  cases w with
  | whole => rfl
  | cut n => simp [Pipe.write]

@[simp] theorem queue_sendMessage (s : EventSender) (strEvnt : List UInt8) (w : Write) :
    (s.sendMessage order strEvnt w).m_queStartupEvents = s.m_queStartupEvents := rfl

@[simp] theorem sent_sendMessage (s : EventSender) (strEvnt : List UInt8) (w : Write) :
    (s.sendMessage order strEvnt w).sent = s.sent := rfl

@[simp] theorem msqid_sendMessage (s : EventSender) (strEvnt : List UInt8) (w : Write) :
    (s.sendMessage order strEvnt w).m_nMsqid = s.m_nMsqid := rfl

theorem pipes_sendMessage {s : EventSender} {pipes : List Pipe} {p : Pipe}
    (h : s.pipes = pipes ++ [p]) (strEvnt : List UInt8) (w : Write) :
    (s.sendMessage order strEvnt w).pipes = pipes ++
      [p.write order (eventMessage s.m_nMsqid s.g_unGlobalSeqnum strEvnt) strEvnt w] := by
  unfold sendMessage
  dsimp only
  rw [h, onLast_append]

/-- What one turn of the loop of `Send` leaves. -/
def flushOne (order : ByteOrder) (s : EventSender) (strEvnt : List UInt8)
    (queStartupEvents : ConcurrentQueue (List UInt8)) (w : Write) : EventSender :=
  { ({ s with m_queStartupEvents := queStartupEvents }).sendMessage order strEvnt w with
    m_bQueueStartupEvents := false }

/-- The rule of the loop: what a turn keeps, the loop keeps, and it empties the queue. -/
theorem flush_inv {P : EventSender → Prop} {Q : Write → Prop} (hwhole : Q .whole)
    (hturn : ∀ s strEvnt queStartupEvents w, P s → Q w →
      s.m_queStartupEvents.take = some (strEvnt, queStartupEvents) →
      P (flushOne order s strEvnt queStartupEvents w)) {fuel : ℕ} :
    ∀ {s : EventSender} {writes : List Write}, P s → (∀ w ∈ writes, Q w) →
      s.m_queStartupEvents.values.length ≤ fuel →
      P (flush order fuel writes s) ∧
        (flush order fuel writes s).m_queStartupEvents.values = [] := by
  induction fuel with
  | zero =>
    intro s writes hP _ hfuel
    exact ⟨hP, List.eq_nil_of_length_eq_zero (Nat.le_zero.1 hfuel)⟩
  | succ fuel ih =>
    intro s writes hP hwrites hfuel
    unfold flush
    split
    · rename_i htake
      exact ⟨hP, ConcurrentQueue.take_eq_none htake⟩
    · rename_i strEvnt queStartupEvents htake
      have hhead : Q (writes.headD .whole) := by
        cases writes with
        | nil => exact hwhole
        | cons w writes => exact hwrites w List.mem_cons_self
      have htail : ∀ w ∈ writes.tail, Q w := fun w hw => hwrites w (List.mem_of_mem_tail hw)
      refine ih (hturn s strEvnt queStartupEvents _ hP hhead htake) htail ?_
      have hvalues := ConcurrentQueue.take_eq_some htake
      rw [hvalues, List.length_cons] at hfuel
      exact Nat.le_of_succ_le_succ hfuel

/-- The startup queue holds no more than it may, and its counter is right. -/
structure Fits (s : EventSender) : Prop where
  sized : s.m_queStartupEvents.Sized List.length
  small : (s.m_queStartupEvents.values.map List.length).sum ≤ ulStartupEventQueueMaxSize

theorem Fits.size_eq {s : EventSender} (h : s.Fits) :
    s.m_queStartupEvents.size = (s.m_queStartupEvents.values.map List.length).sum :=
  h.sized.size_eq (Nat.lt_of_le_of_lt h.small (by decide))

/-- What is written and what waits, followed by `rest`, is related to what was sent. -/
structure Accounts (R : List (List UInt8) → List (List UInt8) → Prop) (s : EventSender)
    (rest : List (List UInt8)) : Prop where
  fits : s.Fits
  connected : s.Connected
  order : R (s.written ++ (s.m_queStartupEvents.values ++ rest)) s.sent

/-- Events may be missing on the left of `R`. -/
def MayLose (R : List (List UInt8) → List (List UInt8) → Prop) : Prop :=
  ∀ events e rest sent, R (events ++ e :: rest) sent → R (events ++ rest) sent

variable {R : List (List UInt8) → List (List UInt8) → Prop} {rest : List (List UInt8)}

/-- The next event is written, or it is lost. -/
theorem related_write {events sent : List (List UInt8)} {e : List UInt8} {w : Write}
    (h : R (events ++ e :: rest) sent) (hw : w = .whole ∨ MayLose R) :
    R ((events ++ if w = .whole then [e] else []) ++ rest) sent := by
  rw [List.append_assoc]
  split_ifs with hwhole
  · exact h
  · exact (hw.resolve_left hwhole) events e rest sent h

theorem accounts_flushOne {s : EventSender} (h : s.Accounts R rest) (hopen : 0 ≤ s.m_nMsqid)
    {strEvnt : List UInt8} {queStartupEvents : ConcurrentQueue (List UInt8)} {w : Write}
    (hw : w = .whole ∨ MayLose R)
    (htake : s.m_queStartupEvents.take = some (strEvnt, queStartupEvents)) :
    (flushOne order s strEvnt queStartupEvents w).Accounts R rest := by
  rcases h.connected hopen with ⟨pipes, p, hpipes⟩
  have hvalues := ConcurrentQueue.take_eq_some htake
  have hwritten : (flushOne order s strEvnt queStartupEvents w).written =
      s.written ++ if w = .whole then [strEvnt] else [] :=
    @written_sendMessage order { s with m_queStartupEvents := queStartupEvents }
      pipes p hpipes strEvnt w
  have horder := h.order
  have hsmall := h.fits.small
  rw [hvalues] at horder hsmall
  refine ⟨⟨h.fits.sized.take htake, ?_⟩,
    fun _ => ⟨pipes, _, pipes_sendMessage hpipes strEvnt w⟩, ?_⟩
  · rw [List.map_cons, List.sum_cons] at hsmall
    exact Nat.le_trans (Nat.le_add_left _ _) hsmall
  · rw [hwritten]
    exact related_write horder hw

theorem accounts_flush {s : EventSender} (h : s.Accounts R rest) (hopen : 0 ≤ s.m_nMsqid)
    {writes : List Write} (hwrites : ∀ w ∈ writes, w = .whole ∨ MayLose R) {fuel : ℕ}
    (hfuel : s.m_queStartupEvents.values.length ≤ fuel) :
    (flush order fuel writes s).Accounts R rest ∧ 0 ≤ (flush order fuel writes s).m_nMsqid ∧
      (flush order fuel writes s).m_queStartupEvents.values = [] := by
  have hturn : ∀ s strEvnt queStartupEvents w, s.Accounts R rest ∧ 0 ≤ s.m_nMsqid →
      (w = .whole ∨ MayLose R) →
      s.m_queStartupEvents.take = some (strEvnt, queStartupEvents) →
      (flushOne order s strEvnt queStartupEvents w).Accounts R rest ∧
        0 ≤ (flushOne order s strEvnt queStartupEvents w).m_nMsqid :=
    fun s strEvnt queStartupEvents w hs hw htake =>
      ⟨accounts_flushOne hs.1 hs.2 hw htake, hs.2⟩
  rcases flush_inv (Or.inl rfl) hturn ⟨h, hopen⟩ hwrites hfuel with ⟨hflushed, hempty⟩
  exact ⟨hflushed.1, hflushed.2, hempty⟩

/-- The event itself, behind the queue. -/
theorem accounts_sendMessage {s : EventSender} {e : List UInt8} (h : s.Accounts R [e])
    (hopen : 0 ≤ s.m_nMsqid) (hempty : s.m_queStartupEvents.values = []) {w : Write}
    (hw : w = .whole ∨ MayLose R) : (s.sendMessage order e w).Accounts R [] := by
  rcases h.connected hopen with ⟨pipes, p, hpipes⟩
  have horder := h.order
  rw [hempty, List.nil_append] at horder
  refine ⟨⟨h.fits.sized, h.fits.small⟩, fun _ => ⟨pipes, _, pipes_sendMessage hpipes e w⟩, ?_⟩
  rw [written_sendMessage hpipes, queue_sendMessage, sent_sendMessage, hempty]
  exact related_write horder hw

theorem accounts_close {s : EventSender} (h : s.Accounts R rest) :
    ({ s with m_nMsqid := -1 } : EventSender).Accounts R rest :=
  ⟨⟨h.fits.sized, h.fits.small⟩, fun hopen => absurd hopen (Int.not_le.2 (by simp)),
    h.order⟩

theorem accounts_openConnection {s : EventSender} (h : s.Accounts R rest) (nSockFd : ℤ) :
    (s.openConnection nSockFd).Accounts R rest := by
  refine ⟨⟨h.fits.sized, h.fits.small⟩, fun hopen => ⟨s.pipes, _, if_pos hopen⟩, ?_⟩
  have hwritten : (s.openConnection nSockFd).written = s.written := by
    unfold openConnection written
    dsimp only
    split_ifs
    · rw [List.flatMap_append, List.flatMap_singleton, List.append_nil]
    · rfl
  rw [hwritten]
  exact h.order

/-- An event finds room in the startup queue, or it is lost. -/
theorem accounts_queue {s : EventSender} {e : List UInt8} (h : s.Accounts R [e]) {nFails : ℕ}
    (hroom : nFails < MAX_LOCK_RETRIES ∧
        (s.m_queStartupEvents.values.map List.length).sum + e.length ≤ ulStartupEventQueueMaxSize ∨
      MayLose R) :
    (s.addEventToStartUpQueue e nFails).Accounts R [] := by
  have hlost : MayLose R → s.Accounts R [] := by
    intro hmay
    refine ⟨h.fits, h.connected, ?_⟩
    have horder := h.order
    rw [← List.append_assoc] at horder
    have hless := hmay _ e [] _ horder
    rwa [List.append_assoc] at hless
  unfold addEventToStartUpQueue
  by_cases hsize : s.m_queStartupEvents.size + e.length ≤ ulStartupEventQueueMaxSize
  · rw [if_pos hsize]
    by_cases hlock : nFails < MAX_LOCK_RETRIES
    · have hput : s.m_queStartupEvents.put e e.length nFails =
          (true, s.m_queStartupEvents.push e e.length) := by
        have hretry : lockRetry 0 nFails = true := (lockRetry_iff 0 nFails (by decide)).2 (by omega)
        unfold ConcurrentQueue.put
        rw [if_pos hretry]
      rw [hput]
      refine ⟨⟨h.fits.sized.push e, ?_⟩, h.connected, ?_⟩
      · rw [h.fits.size_eq] at hsize
        rw [ConcurrentQueue.values_push, List.map_append, List.sum_append, List.map_singleton,
          List.sum_singleton]
        exact hsize
      · rw [ConcurrentQueue.values_push, List.append_nil]
        exact h.order
    · have hput : s.m_queStartupEvents.put e e.length nFails = (false, s.m_queStartupEvents) := by
        have hretry : ¬lockRetry 0 nFails = true := fun hretry =>
          hlock (by simpa using (lockRetry_iff 0 nFails (by decide)).1 hretry)
        unfold ConcurrentQueue.put
        rw [if_neg hretry]
      rw [hput]
      exact hlost (hroom.resolve_left fun hboth => hlock hboth.1)
  · rw [if_neg hsize]
    refine hlost (hroom.resolve_left fun hboth => hsize ?_)
    rw [h.fits.size_eq]
    exact hboth.2

/-- No event of the call is lost: writes do not fail, and without a connection there is room in
the startup queue. -/
structure Smooth (s : EventSender) (call : SendCall) : Prop where
  last : call.last = .whole
  queued : ∀ w ∈ call.queued, w = .whole
  room : s.m_nMsqid < 0 → call.nSockFd < 0 →
    call.nFails < MAX_LOCK_RETRIES ∧ (s.m_queStartupEvents.values.map List.length).sum +
      call.rstrSerializedEvent.length ≤ ulStartupEventQueueMaxSize

/-- `Send` has noted the event and has opened a connection if there was none. -/
def opened (s : EventSender) (call : SendCall) : EventSender :=
  if s.m_nMsqid < 0 then
    openConnection { s with sent := s.sent ++ [call.rstrSerializedEvent] } call.nSockFd
  else { s with sent := s.sent ++ [call.rstrSerializedEvent] }

/-- `Send` has emptied the startup queue. -/
def flushed (order : ByteOrder) (s : EventSender) (call : SendCall) : EventSender :=
  flush order (s.opened call).m_queStartupEvents.values.length call.queued (s.opened call)

theorem send_of_open {s : EventSender} {call : SendCall} (hopen : 0 ≤ (s.opened call).m_nMsqid) :
    s.send order call =
      if call.last = .whole then
        ((s.flushed order call).sendMessage order call.rstrSerializedEvent call.last, 0)
      else
        ({ (s.flushed order call).sendMessage order call.rstrSerializedEvent call.last with
            m_nMsqid := -1 }, -1) := by
  unfold send
  exact if_pos hopen

theorem send_of_not_open {s : EventSender} {call : SendCall}
    (hopen : ¬0 ≤ (s.opened call).m_nMsqid) :
    s.send order call =
      if (s.opened call).m_bQueueStartupEvents then
        ((s.opened call).addEventToStartUpQueue call.rstrSerializedEvent call.nFails, -1)
      else (s.opened call, -1) := by
  unfold send
  exact if_neg hopen

/-- There was no connection and the attempt at one failed. -/
theorem not_opened {s : EventSender} {call : SendCall} (hopen : ¬0 ≤ (s.opened call).m_nMsqid) :
    s.m_nMsqid < 0 ∧ call.nSockFd < 0 ∧
      (s.opened call).m_bQueueStartupEvents = s.m_bQueueStartupEvents ∧
      (s.opened call).m_queStartupEvents = s.m_queStartupEvents := by
  unfold opened at hopen ⊢
  split_ifs at hopen ⊢ with hneg
  · exact ⟨hneg, Int.not_le.1 hopen, rfl, rfl⟩
  · exact absurd (Int.not_lt.1 hneg) hopen

theorem accounts_opened {s : EventSender} (h : s.Accounts R []) (call : SendCall)
    (happend : ∀ events sent e, R events sent → R (events ++ [e]) (sent ++ [e])) :
    (s.opened call).Accounts R [call.rstrSerializedEvent] := by
  have hnoted : ({ s with sent := s.sent ++ [call.rstrSerializedEvent] } : EventSender).Accounts R
      [call.rstrSerializedEvent] := by
    refine ⟨⟨h.fits.sized, h.fits.small⟩, h.connected, ?_⟩
    have horder := happend _ _ call.rstrSerializedEvent h.order
    rwa [List.append_nil, List.append_assoc] at horder
  unfold opened
  split_ifs
  · exact accounts_openConnection hnoted call.nSockFd
  · exact hnoted

theorem accounts_send {s : EventSender} {call : SendCall} (h : s.Accounts R [])
    (happend : ∀ events sent e, R events sent → R (events ++ [e]) (sent ++ [e]))
    (hcall : (s.Smooth call ∧ (s.m_nMsqid < 0 → s.m_bQueueStartupEvents = true)) ∨ MayLose R) :
    (s.send order call).1.Accounts R [] := by
  have hopened := accounts_opened h call happend
  by_cases hopen : 0 ≤ (s.opened call).m_nMsqid
  · have hqueued : ∀ w ∈ call.queued, w = .whole ∨ MayLose R :=
      fun w hw => hcall.imp_left fun hsmooth => hsmooth.1.queued w hw
    rcases accounts_flush hopened hopen hqueued (le_refl _) with ⟨hflushed, hstill, hempty⟩
    have hlast : (s.flushed order call).Accounts R [call.rstrSerializedEvent] := hflushed
    have hsent : ((s.flushed order call).sendMessage order call.rstrSerializedEvent
        call.last).Accounts R [] :=
      accounts_sendMessage hlast hstill hempty (hcall.imp_left fun hsmooth => hsmooth.1.last)
    rw [send_of_open hopen]
    split_ifs
    · exact hsent
    · exact accounts_close hsent
  · rcases not_opened hopen with ⟨hneg, hfd, hflag, hqueue⟩
    rw [send_of_not_open hopen]
    split_ifs with hqueues
    · refine accounts_queue hopened (hcall.imp_left fun hsmooth => ?_)
      rw [hqueue]
      exact hsmooth.1.room hneg hfd
    · rcases hcall with hsmooth | hmay
      · rw [hflag] at hqueues
        exact absurd (hsmooth.2 hneg) hqueues
      · refine ⟨hopened.fits, hopened.connected, ?_⟩
        have horder := hopened.order
        rw [← List.append_assoc] at horder
        have hless := hmay _ _ [] _ horder
        rwa [List.append_assoc] at hless

theorem accounts_init (hnil : R [] []) : EventSender.init.Accounts R [] :=
  ⟨⟨ConcurrentQueue.sized_empty _, Nat.zero_le _⟩, fun hopen => absurd hopen (by decide), hnil⟩

/-- At any time of any run, whatever connections open or fail and however writes break off: the
events that were written to the end, followed by those that wait in the startup queue, are in
the order of the calls of `Send`, none more often than it was sent, and those that wait have at
most 20480 bytes. -/
theorem handed_over_run {calls : List SendCall} {s : EventSender}
    (hrun : exec (EventSender.next order) EventSender.init calls = some s) :
    (s.written ++ s.m_queStartupEvents.values).Sublist s.sent ∧
      (s.m_queStartupEvents.values.map List.length).sum ≤ ulStartupEventQueueMaxSize := by
  have hmay : MayLose (List.Sublist (α := List UInt8)) := by
    intro events e rest sent h
    exact List.Sublist.trans (List.Sublist.append_left (List.sublist_cons_self e rest) events) h
  have haccounts : s.Accounts List.Sublist [] := by
    refine exec_inv_all (P := fun s => s.Accounts List.Sublist []) (fun s call s' h hnext => ?_)
      (accounts_init (List.Sublist.refl [])) hrun
    cases hnext
    exact accounts_send h (fun _ _ e hsub => List.Sublist.append_right hsub [e]) (Or.inr hmay)
  have horder := haccounts.order
  rw [List.append_nil] at horder
  exact ⟨horder, haccounts.fits.small⟩

/-- One event before there is a connection, which then breaks while the next one is written. -/
theorem handed_over_run_broken :
    ∃ s, exec (EventSender.next .little) EventSender.init
        [⟨[65], -1, [], .whole, 0⟩, ⟨[66], 5, [], .cut 30, 0⟩, ⟨[67], 6, [], .whole, 0⟩] = some s ∧
      (s.written ++ s.m_queStartupEvents.values).Sublist s.sent ∧
      (s.m_queStartupEvents.values.map List.length).sum ≤ ulStartupEventQueueMaxSize := by
  have hrun : ∃ s, exec (EventSender.next .little) EventSender.init
      [⟨[65], -1, [], .whole, 0⟩, ⟨[66], 5, [], .cut 30, 0⟩, ⟨[67], 6, [], .whole, 0⟩] = some s :=
    ⟨_, rfl⟩
  rcases hrun with ⟨s, hrun⟩
  exact ⟨s, hrun, handed_over_run hrun⟩

theorem msqid_flush {fuel : ℕ} {s : EventSender} {writes : List Write} :
    (flush order fuel writes s).m_nMsqid = s.m_nMsqid := by
  induction fuel generalizing s writes with
  | zero => rfl
  | succ fuel ih =>
    unfold flush
    split
    · rfl
    · rw [ih]
      rfl

theorem flag_addEventToStartUpQueue (s : EventSender) (e : List UInt8) (nFails : ℕ) :
    (s.addEventToStartUpQueue e nFails).m_bQueueStartupEvents = s.m_bQueueStartupEvents := by
  unfold addEventToStartUpQueue
  split_ifs
  · rfl
  · rfl

/-- Where no write fails, a sender without a connection has never had one. -/
theorem queues_send {s : EventSender} {call : SendCall}
    (h : s.m_nMsqid < 0 → s.m_bQueueStartupEvents = true) (hlast : call.last = .whole)
    (hneg : (s.send order call).1.m_nMsqid < 0) :
    (s.send order call).1.m_bQueueStartupEvents = true := by
  by_cases hopen : 0 ≤ (s.opened call).m_nMsqid
  · rw [send_of_open hopen, if_pos hlast, msqid_sendMessage] at hneg
    have hsame : (s.flushed order call).m_nMsqid = (s.opened call).m_nMsqid := msqid_flush
    omega
  · rcases not_opened hopen with ⟨hclosed, _, hflag, _⟩
    rw [send_of_not_open hopen]
    split_ifs with hqueues
    · exact (flag_addEventToStartUpQueue _ _ _).trans (hflag.trans (h hclosed))
    · exact hflag.trans (h hclosed)

end EventSender

/-! ## What the message queue gets -/

/-- The text of the message for an event. -/
def wireText (strEvnt : List UInt8) : List UInt8 :=
  if strEvnt.length + 1 ≤ MAX_MESSAGE_LENGTH then strEvnt.takeWhile (fun b => b ≠ 0) else []

theorem takeWhile_append_nul (str : List UInt8) :
    (str ++ [0]).takeWhile (fun b => b ≠ 0) = str.takeWhile (fun b => b ≠ 0) := by
  induction str with
  | nil => rfl
  | cons b str ih =>
    rw [List.cons_append, List.takeWhile_cons, List.takeWhile_cons, ih]

theorem text_eventMessage (nMsqid : ℤ) (unGlobalSeqnum : UInt32) (strEvnt : List UInt8) :
    (eventMessage nMsqid unGlobalSeqnum strEvnt).getMessageAsString = wireText strEvnt := by
  unfold eventMessage wireText setMessageString getMessageAsString
  by_cases hlength : strEvnt.length + 1 ≤ MAX_MESSAGE_LENGTH
  · simp only [if_pos hlength]
    cases strEvnt with
    | nil => rfl
    | cons b strEvnt => exact takeWhile_append_nul (b :: strEvnt)
  · simp only [if_neg hlength]
    rfl

/-- The beginning of a message that was not written to the end. -/
def IsCut (order : ByteOrder) (tail : List UInt8) : Prop :=
  ∃ (m : SendableMessage) (n : ℕ), n < (m.serialize order).length ∧
    tail = (m.serialize order).take n

/-- It is not taken for a message: the message queue waits for the rest until the stream ends. -/
theorem outcome_cut {tail : List UInt8} (h : IsCut order tail) :
    outcome order tail = some .closed := by
  rcases h with ⟨m, n, hn, rfl⟩
  have hlength := @length_serialize order m.toIgniteMessage
  have htake : ((m.serialize order).take n).length = n := List.length_take_of_le (Nat.le_of_lt hn)
  have hmax := m.length_le
  unfold outcome
  by_cases hheader : n < MSG_HEADER_SIZE
  · rw [if_pos (by rw [htake]; exact hheader)]
  · have hsame : ((m.serialize order).take n).take MSG_HEADER_SIZE =
        (m.serialize order).take MSG_HEADER_SIZE := by
      rw [List.take_take, Nat.min_eq_left (Nat.le_of_not_lt hheader)]
    rw [if_neg (by rw [htake]; exact hheader), hsame, m.getMessageSize_serialize,
      Option.bind_some, if_pos ⟨by omega, by omega⟩, Int.toNat_natCast,
      if_pos (by rw [htake]; omega)]

theorem isCut_nil : IsCut order [] := by
  refine ⟨eventMessage 0 0 [], 0, ?_, rfl⟩
  rw [length_serialize]
  exact Nat.lt_of_lt_of_le (by decide) (Nat.le_add_right MSG_HEADER_SIZE _)

/-- What a client may send: messages, the last of which need not be whole. -/
def IsStream (order : ByteOrder) (stream : List UInt8) (messages : List SendableMessage) : Prop :=
  ∃ tail, IsCut order tail ∧ stream = messageStream order messages ++ tail

/-- A connection of a client that has delivered its messages up to some message; when it is
closed, that is all of them. -/
structure Arriving {Handler : Type} (order : ByteOrder) (c : MessageQueue.Connection Handler)
    (messages : List SendableMessage) (tail : List UInt8) : Prop where
  received : c.received =
    (messages.take c.served).map fun m => m.toIgniteMessage.setRecipient c.nSd
  pending : c.pending = if c.served ≤ messages.length then
    messageStream order (messages.drop c.served) ++ tail else []
  closed : c.isOpen = false → messages.length < c.served

variable {Handler : Type} {listSubscriberList : List (SubscriberListItem Handler)}
  {returns : Handler → IgniteMessage → Bool} {c : MessageQueue.Connection Handler}

theorem arriving_accept (nSd : ℤ) (chunk : ℕ → ℕ+) (messages : List SendableMessage)
    (tail : List UInt8) :
    Arriving order
      (MessageQueue.Connection.accept nSd (messageStream order messages ++ tail) chunk :
        MessageQueue.Connection Handler)
      messages tail := by
  constructor
  · rfl
  · exact (if_pos (Nat.zero_le _)).symm
  · intro hclosed
    cases hclosed

/-- A turn delivers the next message; behind the last one it closes the connection. -/
theorem arriving_serveSocket
    (hreturns : ∀ item ∈ listSubscriberList, ∀ rMsg, returns item.m_pHandler rMsg = true)
    {messages : List SendableMessage} {tail : List UInt8} (htail : IsCut order tail)
    (h : Arriving order c messages tail) :
    ∃ c', serveSocket order listSubscriberList returns c = some c' ∧ c'.sent = c.sent ∧
      Arriving order c' messages tail := by
  rcases @serveSocket_eq Handler order listSubscriberList returns c with ⟨reads, hserve⟩
  rw [hserve]
  by_cases hlt : c.served < messages.length
  · have hpending : c.pending = messages[c.served].serialize order ++
        (messageStream order (messages.drop (c.served + 1)) ++ tail) := by
      rw [h.pending, if_pos (Nat.le_of_lt hlt), List.drop_eq_getElem_cons hlt,
        messageStream_cons, List.append_assoc]
    rw [hpending, outcome_serialize, Option.bind_some]
    unfold MessageQueue.Connection.after
    dsimp only
    rw [if_pos (handled_of_returns hreturns _)]
    refine ⟨_, rfl, rfl, ?_, ?_, fun hclosed => Nat.lt_succ_of_lt (h.closed hclosed)⟩
    · show c.received ++ [_] = (messages.take (c.served + 1)).map _
      rw [List.take_succ_eq_append_getElem hlt, List.map_append, ← h.received]
      rfl
    · show c.pending.drop _ = if c.served + 1 ≤ messages.length then _ else _
      rw [hpending, List.drop_left' rfl, if_pos (Nat.succ_le_of_lt hlt)]
  · -- what is left is not a whole message
    have hcut : IsCut order c.pending := by
      rw [h.pending]
      split_ifs
      · rw [List.drop_eq_nil_of_le (Nat.le_of_not_lt hlt)]
        exact htail
      · exact isCut_nil
    rw [outcome_cut hcut, Option.bind_some]
    refine ⟨_, rfl, rfl, ?_, ?_, fun _ => Nat.lt_succ_of_le (Nat.le_of_not_lt hlt)⟩
    · show c.received = (messages.take (c.served + 1)).map _
      rw [h.received, List.take_of_length_le (Nat.le_of_not_lt hlt),
        List.take_of_length_le (Nat.le_succ_of_le (Nat.le_of_not_lt hlt))]
    · show [] = if c.served + 1 ≤ messages.length then _ else _
      rw [if_neg (fun hle => hlt (Nat.lt_of_succ_le hle))]

/-- Where all the clients send messages, the last of which need not be whole, each connection has
delivered those it was sent up to some message, in order, one for each turn. -/
theorem arriving_run
    (hreturns : ∀ item ∈ listSubscriberList, ∀ rMsg, returns item.m_pHandler rMsg = true)
    {activities : List Activity}
    (hstreams : ∀ a ∈ activities, ∀ i, a.incoming = some i →
      ∃ messages, IsStream order i.2.1 messages) :
    ∃ srv, exec (MessageQueue.next order listSubscriberList returns) Server.init activities =
        some srv ∧
      ∀ c, srv.Has c → ∀ messages tail, IsCut order tail →
        c.sent = messageStream order messages ++ tail → Arriving order c messages tail := by
  have hrun : ∃ srv, exec (MessageQueue.next order listSubscriberList returns) Server.init
        activities = some srv ∧
      ∀ c, srv.Has c → (∃ messages, IsStream order c.sent messages) ∧
        ∀ messages tail, IsCut order tail →
          c.sent = messageStream order messages ++ tail → Arriving order c messages tail := by
    apply run_inv (fun stream => ∃ messages, IsStream order stream messages) ?_ ?_ hstreams
    · intro nSd stream chunk hstream
      refine ⟨hstream, fun messages tail _ hsame => ?_⟩
      have hstream' : stream = messageStream order messages ++ tail := hsame
      rw [hstream']
      exact arriving_accept nSd chunk messages tail
    · rintro c ⟨⟨messages, tail, htail, hsent⟩, hall⟩
      rcases arriving_serveSocket hreturns htail (hall messages tail htail hsent) with
        ⟨c', hserve, hsame, -⟩
      refine ⟨c', hserve, ⟨messages, tail, htail, hsame.trans hsent⟩,
        fun others end' hend hothers => ?_⟩
      -- the turn is the same whatever messages the bytes are taken for
      rcases arriving_serveSocket hreturns hend (hall others end' hend (hsame.symm.trans hothers))
        with ⟨c'', hserve', -, hstep⟩
      rw [hserve] at hserve'
      rw [Option.some.inj hserve']
      exact hstep
  rcases hrun with ⟨srv, hsrv, hP⟩
  exact ⟨srv, hsrv, fun c hc => (hP c hc).2⟩

/-! ## From the sender to the message queue -/

/-- A connection of the sender is a stream of the messages that were written to the end. -/
structure Piped (order : ByteOrder) (p : Pipe) : Prop where
  stream : IsStream order p.stream p.messages
  events : p.messages.map (fun m => m.getMessageAsString) = p.events.map wireText

/-- On the connection that is open nothing is cut off. -/
structure PipesInv (order : ByteOrder) (s : EventSender) : Prop where
  piped : ∀ p ∈ s.pipes, Piped order p
  whole : 0 ≤ s.m_nMsqid → ∃ pipes p, s.pipes = pipes ++ [p] ∧
    p.stream = messageStream order p.messages

/-- A queued event is written to the end or not at all. -/
def Clean (call : SendCall) : Prop := ∀ w ∈ call.queued, w = .whole ∨ w = .cut 0

theorem messageStream_append (messages : List SendableMessage) (m : SendableMessage) :
    messageStream order (messages ++ [m]) = messageStream order messages ++ m.serialize order := by
  simp [messageStream]

theorem piped_write {p : Pipe} (h : Piped order p)
    (hwhole : p.stream = messageStream order p.messages) (nMsqid : ℤ) (unGlobalSeqnum : UInt32)
    (strEvnt : List UInt8) (w : Write) :
    Piped order (p.write order (eventMessage nMsqid unGlobalSeqnum strEvnt) strEvnt w) ∧
      (w = .whole ∨ w = .cut 0 →
        (p.write order (eventMessage nMsqid unGlobalSeqnum strEvnt) strEvnt w).stream =
          messageStream order
            (p.write order (eventMessage nMsqid unGlobalSeqnum strEvnt) strEvnt w).messages) := by
  cases w with
  | whole =>
    have hstream : p.stream ++ (eventMessage nMsqid unGlobalSeqnum strEvnt).serialize order =
        messageStream order (p.messages ++ [eventMessage nMsqid unGlobalSeqnum strEvnt]) := by
      rw [messageStream_append, hwhole]
    refine ⟨⟨⟨[], isCut_nil, ?_⟩, ?_⟩, fun _ => hstream⟩
    · rw [List.append_nil]
      exact hstream
    · show (p.messages ++ [_]).map _ = (p.events ++ [strEvnt]).map _
      rw [List.map_append, List.map_append, h.events, List.map_singleton, List.map_singleton,
        text_eventMessage]
  | cut n =>
    refine ⟨⟨⟨_, ?_, congrArg (· ++ _) hwhole⟩, h.events⟩, ?_⟩
    · refine ⟨eventMessage nMsqid unGlobalSeqnum strEvnt, _, ?_, rfl⟩
      have hlength := @length_serialize order
        (eventMessage nMsqid unGlobalSeqnum strEvnt).toIgniteMessage
      have hpos : 0 < MSG_HEADER_SIZE := by decide
      omega
    · rintro (hnot | hzero)
      · cases hnot
      · cases hzero
        show p.stream ++ List.take _ _ = _
        rw [Nat.zero_min, List.take_zero, List.append_nil]
        exact hwhole

theorem piped_sendMessage {s : EventSender} (h : PipesInv order s) (hopen : 0 ≤ s.m_nMsqid)
    (strEvnt : List UInt8) (w : Write) :
    (∀ p ∈ (s.sendMessage order strEvnt w).pipes, Piped order p) ∧
      (w = .whole ∨ w = .cut 0 → PipesInv order (s.sendMessage order strEvnt w)) := by
  rcases h.whole hopen with ⟨pipes, p, hpipes, hwhole⟩
  have hp : p ∈ s.pipes := by
    rw [hpipes]
    exact List.mem_append_right pipes List.mem_cons_self
  rcases piped_write (h.piped p hp) hwhole s.m_nMsqid s.g_unGlobalSeqnum strEvnt w with
    ⟨hpiped, hstill⟩
  have hafter := @EventSender.pipes_sendMessage order s pipes p hpipes strEvnt w
  have hall : ∀ q ∈ (s.sendMessage order strEvnt w).pipes, Piped order q := by
    intro q hq
    rw [hafter] at hq
    rcases List.mem_append.1 hq with hold | hnew
    · refine h.piped q ?_
      rw [hpipes]
      exact List.mem_append_left [p] hold
    · rw [List.mem_singleton.1 hnew]
      exact hpiped
  exact ⟨hall, fun hw => ⟨hall, fun _ => ⟨pipes, _, hafter, hstill hw⟩⟩⟩

theorem pipesInv_flush {s : EventSender} (h : PipesInv order s) (hopen : 0 ≤ s.m_nMsqid)
    {writes : List Write} (hwrites : ∀ w ∈ writes, w = .whole ∨ w = .cut 0) {fuel : ℕ}
    (hfuel : s.m_queStartupEvents.values.length ≤ fuel) :
    PipesInv order (EventSender.flush order fuel writes s) := by
  have hturn : ∀ s strEvnt queStartupEvents w, PipesInv order s ∧ 0 ≤ s.m_nMsqid →
      (w = .whole ∨ w = .cut 0) →
      s.m_queStartupEvents.take = some (strEvnt, queStartupEvents) →
      PipesInv order (EventSender.flushOne order s strEvnt queStartupEvents w) ∧
        0 ≤ (EventSender.flushOne order s strEvnt queStartupEvents w).m_nMsqid := by
    intro s strEvnt queStartupEvents w hs hw _
    have hsame : PipesInv order { s with m_queStartupEvents := queStartupEvents } :=
      ⟨hs.1.piped, hs.1.whole⟩
    have hsent := (piped_sendMessage hsame hs.2 strEvnt w).2 hw
    exact ⟨⟨hsent.piped, hsent.whole⟩, hs.2⟩
  exact (EventSender.flush_inv (Or.inl rfl) hturn ⟨h, hopen⟩ hwrites hfuel).1.1

theorem piped_nil : Piped order ⟨[], [], []⟩ := ⟨⟨[], isCut_nil, rfl⟩, rfl⟩

theorem pipesInv_opened {s : EventSender} (h : PipesInv order s) (call : SendCall) :
    PipesInv order (s.opened call) := by
  unfold EventSender.opened
  split_ifs
  · refine ⟨fun p hp => ?_, fun hopen => ⟨s.pipes, ⟨[], [], []⟩, if_pos hopen, rfl⟩⟩
    unfold EventSender.openConnection at hp
    dsimp only at hp
    split_ifs at hp
    · rcases List.mem_append.1 hp with hold | hnew
      · exact h.piped p hold
      · rw [List.mem_singleton.1 hnew]
        exact piped_nil
    · exact h.piped p hp
  · exact ⟨h.piped, h.whole⟩

theorem pipesInv_send {s : EventSender} {call : SendCall} (h : PipesInv order s)
    (hclean : Clean call) : PipesInv order (s.send order call).1 := by
  have hopened := pipesInv_opened h call
  by_cases hopen : 0 ≤ (s.opened call).m_nMsqid
  · have hflushed : PipesInv order (s.flushed order call) :=
      pipesInv_flush hopened hopen hclean (le_refl _)
    have hstill : 0 ≤ (s.flushed order call).m_nMsqid := by
      unfold EventSender.flushed
      rw [EventSender.msqid_flush]
      exact hopen
    have hsent := piped_sendMessage hflushed hstill call.rstrSerializedEvent call.last
    rw [EventSender.send_of_open hopen]
    split_ifs with hlast
    · exact hsent.2 (Or.inl hlast)
    · exact ⟨hsent.1, fun hneg => absurd hneg (Int.not_le.2 (by simp))⟩
  · rw [EventSender.send_of_not_open hopen]
    split_ifs
    · unfold EventSender.addEventToStartUpQueue
      split_ifs
      · exact ⟨hopened.piped, hopened.whole⟩
      · exact hopened
    · exact hopened

theorem pipesInv_run {calls : List SendCall} {s : EventSender}
    (hrun : exec (EventSender.next order) EventSender.init calls = some s)
    (hclean : ∀ call ∈ calls, Clean call) : PipesInv order s := by
  have hinit : PipesInv order EventSender.init :=
    ⟨fun p hp => absurd hp List.not_mem_nil, fun hopen => absurd hopen (by decide)⟩
  refine exec_inv (P := PipesInv order) (fun s call s' h hcall hnext => ?_) calls _ s hinit
    (along_of_forall_mem (fun call hcall _ => hclean call hcall) _) hrun
  cases hnext
  exact pipesInv_send h hcall

end

end DeviceClient
