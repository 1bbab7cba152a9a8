import DeviceClient.Event.IgniteMessage
import DeviceClient.Lib.Run
import Mathlib.Data.PNat.Defs

/-!
# The message queue

`CMessageQueue`: a server that takes connections of clients into a fixed number of slots
and reads one message from each socket that is ready, the header first and then as many
bytes as the header tells. A message goes to the subscribers of its type.

A connection holds the bytes that are still to be read, and how many of them each `read`
returns at most; when there are none left, `read` returns 0. A read that fails is the
end of the stream to the code. What a connection was sent, what came out of it and how
often it was served is history.

* `serveSocket`: the body of the loop of `PerformIOOperation`.
* `serveSocket_eq`: what it does, whatever the chunks are.
* `messagesDelivered_of_run`: what was sent is what is delivered.
-/

namespace DeviceClient

open Lib IgniteMessage

namespace MessageQueue

/-! ## Model -/

/-- What becomes of a message: a handler takes it, or it is answered with an empty text. -/
inductive Delivery (Handler : Type) where
  | handle (pHandler : Handler) (rMsg : IgniteMessage)
  | emptyReply (rMsg : IgniteMessage)
deriving DecidableEq

structure Connection (Handler : Type) where
  nSd : ℤ
  pending : List UInt8
  chunk : ℕ → ℕ+
  reads : ℕ
  isOpen : Bool
  sent : List UInt8
  served : ℕ
  received : List IgniteMessage
  delivered : List (Delivery Handler)

structure SubscriberListItem (Handler : Type) where
  m_unType : UInt32
  m_pHandler : Handler

/-- A connection that has been accepted, with the bytes that its client sends. -/
def Connection.accept {Handler : Type} (nSd : ℤ) (stream : List UInt8) (chunk : ℕ → ℕ+) :
    Connection Handler where
  nSd := nSd
  pending := stream
  chunk := chunk
  reads := 0
  isOpen := true
  sent := stream
  served := 0
  received := []
  delivered := []

section

variable {Handler : Type}

/-- `read`. -/
def Connection.read (n : ℕ) (c : Connection Handler) : List UInt8 × Connection Handler :=
  let nValRead := min n (c.chunk c.reads)
  (c.pending.take nValRead, { c with pending := c.pending.drop nValRead, reads := c.reads + 1 })

/-- The loop of `read_from_socket`, with the size still to read. -/
def readLoop (nSizeToRead : ℕ) (c : Connection Handler) : List UInt8 × Connection Handler :=
  if _hsize : nSizeToRead = 0 then ([], c)
  else
    let r := c.read nSizeToRead
    if _hread : r.1 = [] then ([], r.2)
    else
      let r' := readLoop (nSizeToRead - r.1.length) r.2
      (r.1 ++ r'.1, r'.2)
termination_by nSizeToRead
decreasing_by
  have hpos : 0 < (c.read nSizeToRead).1.length := List.length_pos_iff.2 _hread
  omega

/-- `read_from_socket`; `none` is `MSG_READ_ERROR`. -/
def readFromSocket (nSizeToRead : ℕ) (c : Connection Handler) :
    Option (List UInt8) × Connection Handler :=
  let r := readLoop nSizeToRead c
  (if r.1.length = nSizeToRead then some r.1 else none, r.2)

variable (order : ByteOrder) (listSubscriberList : List (SubscriberListItem Handler))
  (returns : Handler → IgniteMessage → Bool)

/-- The subscribers of a message. -/
def subscribersOf (rcvmsg : IgniteMessage) : List (SubscriberListItem Handler) :=
  listSubscriberList.filter fun item => item.m_unType = rcvmsg.m_unType

/-- What becomes of a message when no handler throws. -/
def deliveries (rcvmsg : IgniteMessage) : List (Delivery Handler) :=
  match subscribersOf listSubscriberList rcvmsg with
  | [] => if rcvmsg.m_bReplyReq then [.emptyReply rcvmsg] else []
  | items => items.map fun item => .handle item.m_pHandler rcvmsg

/-- No handler of the message throws. -/
def handled (rcvmsg : IgniteMessage) : Bool :=
  (subscribersOf listSubscriberList rcvmsg).all fun item => returns item.m_pHandler rcvmsg

/-- `ReadMsgAndSend`; `none` is an exception. -/
def readMsgAndSend (pvoidMsgHeader : List UInt8) (nMsgLen : ℕ) (c : Connection Handler) :
    Option (Bool × Connection Handler) :=
  let r := if 0 < nMsgLen then readFromSocket nMsgLen c else (some [], c)
  match r.1 with
  | none => some (false, r.2)
  | some actualMsg =>
    (ofSerialized order (pvoidMsgHeader ++ actualMsg)).bind fun msg =>
      let rcvmsg := msg.setRecipient c.nSd
      if handled listSubscriberList returns rcvmsg then
        some (true, { r.2 with
          received := r.2.received ++ [rcvmsg]
          delivered := r.2.delivered ++ deliveries listSubscriberList rcvmsg })
      else none

/-- The body of the loop of `PerformIOOperation`, for a socket that is ready. -/
def serveSocket (c : Connection Handler) : Option (Connection Handler) :=
  let r := readFromSocket MSG_HEADER_SIZE { c with served := c.served + 1 }
  match r.1 with
  | none => some { r.2 with isOpen := false }
  | some pvoidMsgHeader =>
    (getMessageSize order pvoidMsgHeader).bind fun nMsgLen =>
      if 0 ≤ nMsgLen ∧ nMsgLen ≤ MAX_MESSAGE_LENGTH then
        (readMsgAndSend order listSubscriberList returns pvoidMsgHeader nMsgLen.toNat r.2).map
          fun r => if r.1 then r.2 else { r.2 with isOpen := false }
      -- the connection stays open, behind the header
      else some r.2

/-! ## The server -/

def MAX_CLIENTS : ℕ := 30

/-- The slots for the clients, and the connections that have been closed. -/
structure Server (Handler : Type) where
  m_clientSockets : List (Option (Connection Handler))
  closed : List (Connection Handler)

def Server.init : Server Handler := ⟨List.replicate MAX_CLIENTS none, []⟩

/-- What one turn of the loop of `Connect` finds: a connection at the master socket, as
its descriptor, its bytes and their chunks, and the slots whose sockets are ready. -/
structure Activity where
  incoming : Option (ℤ × List UInt8 × (ℕ → ℕ+))
  ready : ℕ → Bool

/-- `AddNewIncomingConnection`: into the first slot that is free, if there is one. -/
def addNewIncomingConnection (c : Connection Handler) :
    List (Option (Connection Handler)) → List (Option (Connection Handler))
  | [] => []
  | none :: slots => some c :: slots
  | some c' :: slots => some c' :: addNewIncomingConnection c slots

/-- A slot after its connection was served: a closed connection leaves it. -/
def performIOOperation (ready : ℕ → Bool) :
    ℕ → List (Option (Connection Handler)) → Option (Server Handler)
  | _, [] => some ⟨[], []⟩
  | i, none :: slots =>
    (performIOOperation ready (i + 1) slots).map fun s => ⟨none :: s.m_clientSockets, s.closed⟩
  | i, some c :: slots =>
    (if ready i then serveSocket order listSubscriberList returns c else some c).bind fun c' =>
      (performIOOperation ready (i + 1) slots).map fun s =>
        if c'.isOpen then ⟨some c' :: s.m_clientSockets, s.closed⟩
        else ⟨none :: s.m_clientSockets, c' :: s.closed⟩

/-- One turn of the loop of `Connect`; `none` is an exception, which ends the thread. -/
def next (s : Server Handler) (a : Activity) : Option (Server Handler) :=
  let slots :=
    match a.incoming with
    | none => s.m_clientSockets
    | some (nSd, stream, chunk) =>
      addNewIncomingConnection (Connection.accept nSd stream chunk) s.m_clientSockets
  (performIOOperation order listSubscriberList returns a.ready 0 slots).map fun s' =>
    ⟨s'.m_clientSockets, s.closed ++ s'.closed⟩

/-- The connections in the slots and the closed ones. -/
def Server.Has (s : Server Handler) (c : Connection Handler) : Prop :=
  some c ∈ s.m_clientSockets ∨ c ∈ s.closed

/-! ## Reading -/

variable {order} {listSubscriberList} {returns} {c : Connection Handler}

/-- The loop reads what it is asked for, or all that there is, whatever the chunks are. -/
theorem readLoop_eq (nSizeToRead : ℕ) (c : Connection Handler) :
    ∃ reads, readLoop nSizeToRead c = (c.pending.take nSizeToRead,
      { c with pending := c.pending.drop nSizeToRead, reads := reads }) := by
  induction nSizeToRead using Nat.strong_induction_on generalizing c with
  | _ n ih =>
    unfold readLoop
    by_cases hn : n = 0
    · rw [dif_pos hn, hn]
      exact ⟨c.reads, rfl⟩
    rw [dif_neg hn]
    have hk : 0 < min n (c.chunk c.reads) :=
      Nat.lt_min.2 ⟨Nat.pos_of_ne_zero hn, (c.chunk c.reads).pos⟩
    have hkn : min n (c.chunk c.reads) ≤ n := Nat.min_le_left _ _
    generalize hread : min n (c.chunk c.reads : ℕ) = k at hk hkn
    have hr : c.read n =
        (c.pending.take k, { c with pending := c.pending.drop k, reads := c.reads + 1 }) := by
      unfold Connection.read
      rw [hread]
    dsimp only
    rw [hr]
    by_cases hempty : c.pending.take k = []
    · -- the stream has ended
      have hpending : c.pending = [] := by
        rcases List.take_eq_nil_iff.1 hempty with hk' | h
        · omega
        · exact h
      rw [dif_pos hempty, hpending]
      exact ⟨c.reads + 1, by simp⟩
    · rw [dif_neg hempty]
      have hlength : (c.pending.take k).length = min k c.pending.length := List.length_take
      have hpos : 0 < (c.pending.take k).length := List.length_pos_iff.2 hempty
      rcases ih (n - (c.pending.take k).length) (by omega)
        { c with pending := c.pending.drop k, reads := c.reads + 1 } with ⟨reads, hrest⟩
      rw [hrest]
      refine ⟨reads, ?_⟩
      dsimp only
      rw [hlength, List.drop_drop]
      by_cases hle : k ≤ c.pending.length
      · rw [Nat.min_eq_left hle, ← List.take_add, Nat.add_sub_cancel' hkn]
      · -- the chunk had all that was left
        rw [List.drop_eq_nil_of_le (by omega), List.take_nil, List.append_nil,
          List.take_of_length_le (by omega), List.take_of_length_le (by omega),
          List.drop_eq_nil_of_le (by omega), List.drop_eq_nil_of_le (by omega)]

theorem readFromSocket_of_le {nSizeToRead : ℕ} (h : nSizeToRead ≤ c.pending.length) :
    ∃ reads, readFromSocket nSizeToRead c = (some (c.pending.take nSizeToRead),
      { c with pending := c.pending.drop nSizeToRead, reads := reads }) := by
  rcases readLoop_eq nSizeToRead c with ⟨reads, hloop⟩
  unfold readFromSocket
  rw [hloop]
  dsimp only
  rw [if_pos (List.length_take_of_le h)]
  exact ⟨reads, rfl⟩

theorem readFromSocket_of_lt {nSizeToRead : ℕ} (h : c.pending.length < nSizeToRead) :
    ∃ reads, readFromSocket nSizeToRead c = (none, { c with pending := [], reads := reads }) := by
  rcases readLoop_eq nSizeToRead c with ⟨reads, hloop⟩
  unfold readFromSocket
  rw [hloop]
  dsimp only
  rw [List.take_of_length_le (Nat.le_of_lt h), if_neg (Nat.ne_of_lt h),
    List.drop_eq_nil_of_le (Nat.le_of_lt h)]
  exact ⟨reads, rfl⟩

/-! ## Serving a socket -/

/-- What the head of a stream is to the server. -/
inductive Outcome where
  | closed
  | skipped
  | message (msg : IgniteMessage) (nLength : ℕ)

variable (order) in
/-- The outcome is decided by the bytes; `none` is an exception. -/
def outcome (stream : List UInt8) : Option Outcome :=
  if stream.length < MSG_HEADER_SIZE then some .closed
  else
    (getMessageSize order (stream.take MSG_HEADER_SIZE)).bind fun nMsgLen =>
      if 0 ≤ nMsgLen ∧ nMsgLen ≤ MAX_MESSAGE_LENGTH then
        if stream.length < MSG_HEADER_SIZE + nMsgLen.toNat then some .closed
        else
          (ofSerialized order (stream.take (MSG_HEADER_SIZE + nMsgLen.toNat))).map fun msg =>
            .message msg (MSG_HEADER_SIZE + nMsgLen.toNat)
      else some .skipped

variable (listSubscriberList returns) in
/-- The connection afterwards. -/
def Connection.after (c : Connection Handler) (reads : ℕ) : Outcome → Option (Connection Handler)
  | .closed =>
    some { c with pending := [], reads := reads, isOpen := false, served := c.served + 1 }
  | .skipped =>
    some { c with
      pending := c.pending.drop MSG_HEADER_SIZE, reads := reads, served := c.served + 1 }
  | .message msg nLength =>
    if handled listSubscriberList returns (msg.setRecipient c.nSd) then
      some { c with
        pending := c.pending.drop nLength
        reads := reads
        served := c.served + 1
        received := c.received ++ [msg.setRecipient c.nSd]
        delivered := c.delivered ++ deliveries listSubscriberList (msg.setRecipient c.nSd) }
    else none

theorem readMsgAndSend_eq (pvoidMsgHeader : List UInt8) (nMsgLen : ℕ) (c : Connection Handler) :
    ∃ reads, readMsgAndSend order listSubscriberList returns pvoidMsgHeader nMsgLen c =
      if c.pending.length < nMsgLen then some (false, { c with pending := [], reads := reads })
      else
        (ofSerialized order (pvoidMsgHeader ++ c.pending.take nMsgLen)).bind fun msg =>
          if handled listSubscriberList returns (msg.setRecipient c.nSd) then
            some (true, { c with
              pending := c.pending.drop nMsgLen
              reads := reads
              received := c.received ++ [msg.setRecipient c.nSd]
              delivered := c.delivered ++
                deliveries listSubscriberList (msg.setRecipient c.nSd) })
          else none := by
  unfold readMsgAndSend
  by_cases hlen : 0 < nMsgLen
  · rw [if_pos hlen]
    by_cases hlt : c.pending.length < nMsgLen
    · rcases readFromSocket_of_lt hlt with ⟨reads, hread⟩
      refine ⟨reads, ?_⟩
      rw [hread, if_pos hlt]
    · rcases readFromSocket_of_le (Nat.le_of_not_lt hlt) with ⟨reads, hread⟩
      refine ⟨reads, ?_⟩
      rw [hread, if_neg hlt]
  · -- a message that is a header only
    have hzero : nMsgLen = 0 := Nat.eq_zero_of_not_pos hlen
    refine ⟨c.reads, ?_⟩
    rw [if_neg hlen, hzero, if_neg (Nat.not_lt_zero _)]
    rfl

/-- What serving a socket does, whatever the chunks are. -/
theorem serveSocket_eq (c : Connection Handler) :
    ∃ reads, serveSocket order listSubscriberList returns c =
      (outcome order c.pending).bind (c.after listSubscriberList returns reads) := by
  unfold serveSocket outcome
  -- the stream ends within the header
  by_cases hheader : c.pending.length < MSG_HEADER_SIZE
  · rcases readFromSocket_of_lt (c := { c with served := c.served + 1 }) hheader with
      ⟨reads, hread⟩
    refine ⟨reads, ?_⟩
    rw [hread, if_pos hheader]
    rfl
  rcases readFromSocket_of_le (c := { c with served := c.served + 1 })
    (Nat.le_of_not_lt hheader) with ⟨reads, hread⟩
  rw [hread, if_neg hheader]
  dsimp only
  cases hsize : getMessageSize order (c.pending.take MSG_HEADER_SIZE) with
  | none => exact ⟨reads, rfl⟩
  | some nMsgLen =>
    rw [Option.bind_some, Option.bind_some]
    by_cases hlen : 0 ≤ nMsgLen ∧ nMsgLen ≤ MAX_MESSAGE_LENGTH
    · rcases @readMsgAndSend_eq Handler order listSubscriberList returns
        (c.pending.take MSG_HEADER_SIZE) nMsgLen.toNat { c with
          pending := c.pending.drop MSG_HEADER_SIZE, reads := reads, served := c.served + 1 }
        with ⟨reads', hbody⟩
      refine ⟨reads', ?_⟩
      rw [if_pos hlen, if_pos hlen, hbody]
      dsimp only
      rw [List.length_drop, ← List.take_add, List.drop_drop]
      -- or within the body
      by_cases hbodyLt : c.pending.length < MSG_HEADER_SIZE + nMsgLen.toNat
      · rw [if_pos hbodyLt, if_pos (by omega)]
        rfl
      · rw [if_neg hbodyLt, if_neg (by omega)]
        cases ofSerialized order (c.pending.take (MSG_HEADER_SIZE + nMsgLen.toNat)) with
        | none => rfl
        | some msg =>
          unfold Connection.after
          rw [Option.bind_some, Option.map_some, Option.bind_some]
          by_cases hhandled : handled listSubscriberList returns (msg.setRecipient c.nSd) = true
          · rw [if_pos hhandled]
            dsimp only
            rw [if_pos hhandled]
            rfl
          · rw [if_neg hhandled]
            dsimp only
            rw [if_neg hhandled]
            rfl
    · refine ⟨reads, ?_⟩
      rw [if_neg hlen, if_neg hlen]
      rfl

/-! ## Runs of the server -/

/-- A turn over the slots keeps what serving a socket keeps. -/
theorem performIOOperation_inv {P : Connection Handler → Prop}
    (hserve : ∀ c, P c → ∃ c', serveSocket order listSubscriberList returns c = some c' ∧ P c')
    (ready : ℕ → Bool) (i : ℕ) {slots : List (Option (Connection Handler))}
    (hslots : ∀ c, some c ∈ slots → P c) :
    ∃ s, performIOOperation order listSubscriberList returns ready i slots = some s ∧
      ∀ c, s.Has c → P c := by
  induction slots generalizing i with
  | nil =>
    refine ⟨⟨[], []⟩, rfl, ?_⟩
    rintro c (h | h)
    · cases h
    · cases h
  | cons slot slots ih =>
    rcases ih (i + 1) (fun c hc => hslots c (List.mem_cons_of_mem slot hc)) with ⟨s, hs, hP⟩
    cases slot with
    | none =>
      refine ⟨⟨none :: s.m_clientSockets, s.closed⟩, ?_, ?_⟩
      · unfold performIOOperation
        rw [hs]
        rfl
      · rintro c (h | h)
        · rcases List.mem_cons.1 h with h | h
          · cases h
          · exact hP c (Or.inl h)
        · exact hP c (Or.inr h)
    | some c =>
      have hc : P c := hslots c List.mem_cons_self
      -- the connection after its turn, served or not
      have hturn : ∃ c', (if ready i then serveSocket order listSubscriberList returns c
          else some c) = some c' ∧ P c' := by
        by_cases hready : ready i = true
        · rw [if_pos hready]
          exact hserve c hc
        · rw [if_neg hready]
          exact ⟨c, rfl, hc⟩
      rcases hturn with ⟨c', hc', hP'⟩
      unfold performIOOperation
      rw [hc', hs]
      by_cases hopen : c'.isOpen = true
      · refine ⟨⟨some c' :: s.m_clientSockets, s.closed⟩, ?_, ?_⟩
        · rw [Option.bind_some, Option.map_some, if_pos hopen]
        · rintro d (h | h)
          · rcases List.mem_cons.1 h with h | h
            · rw [Option.some.inj h]
              exact hP'
            · exact hP d (Or.inl h)
          · exact hP d (Or.inr h)
      · refine ⟨⟨none :: s.m_clientSockets, c' :: s.closed⟩, ?_, ?_⟩
        · rw [Option.bind_some, Option.map_some, if_neg hopen]
        · rintro d (h | h)
          · rcases List.mem_cons.1 h with h | h
            · cases h
            · exact hP d (Or.inl h)
          · rcases List.mem_cons.1 h with h | h
            · rw [h]
              exact hP'
            · exact hP d (Or.inr h)

theorem mem_addNewIncomingConnection {d : Connection Handler}
    {slots : List (Option (Connection Handler))}
    (h : some d ∈ addNewIncomingConnection c slots) : d = c ∨ some d ∈ slots := by
  induction slots with
  | nil => cases h
  | cons slot slots ih =>
    cases slot with
    | none =>
      rcases List.mem_cons.1 h with h | h
      · exact Or.inl (Option.some.inj h)
      · exact Or.inr (List.mem_cons_of_mem none h)
    | some c' =>
      rcases List.mem_cons.1 h with h | h
      · rw [h]
        exact Or.inr List.mem_cons_self
      · rcases ih h with h | h
        · exact Or.inl h
        · exact Or.inr (List.mem_cons_of_mem _ h)

/-- A run of the server keeps of its connections what serving a socket keeps, and no
exception ends it. -/
theorem run_inv {P : Connection Handler → Prop} (ok : List UInt8 → Prop)
    (haccept : ∀ nSd stream chunk, ok stream → P (Connection.accept nSd stream chunk))
    (hserve : ∀ c, P c → ∃ c', serveSocket order listSubscriberList returns c = some c' ∧ P c')
    {activities : List Activity}
    (hok : ∀ a ∈ activities, ∀ i, a.incoming = some i → ok i.2.1) :
    ∃ s, exec (next order listSubscriberList returns) Server.init activities = some s ∧
      ∀ c, s.Has c → P c := by
  refine exec_total (P := fun s : Server Handler => ∀ c, s.Has c → P c) (fun s a hs ha => ?_) ?_ hok
  · -- a new connection takes a free slot or is turned away
    have hslots : ∀ c, some c ∈ (match a.incoming with
        | none => s.m_clientSockets
        | some (nSd, stream, chunk) =>
          addNewIncomingConnection (Connection.accept nSd stream chunk) s.m_clientSockets) →
        P c := by
      intro c hc
      cases hincoming : a.incoming with
      | none =>
        rw [hincoming] at hc
        exact hs c (Or.inl hc)
      | some i =>
        rw [hincoming] at hc
        rcases mem_addNewIncomingConnection hc with h | h
        · rw [h]
          exact haccept i.1 i.2.1 i.2.2 (ha i hincoming)
        · exact hs c (Or.inl h)
    rcases performIOOperation_inv hserve a.ready 0 hslots with ⟨s', hs', hP⟩
    refine ⟨⟨s'.m_clientSockets, s.closed ++ s'.closed⟩, ?_, ?_⟩
    · unfold next
      dsimp only
      rw [hs']
      rfl
    · rintro c (h | h)
      · exact hP c (Or.inl h)
      · rcases List.mem_append.1 h with h | h
        · exact hs c (Or.inr h)
        · exact hP c (Or.inr h)
  · rintro c (h | h)
    · cases (List.mem_replicate.1 h).2
    · cases h

/-! ## Messages -/

variable (order) in
/-- The bytes of messages one after the other. -/
def messageStream (messages : List SendableMessage) : List UInt8 :=
  (messages.map fun m => m.serialize order).flatten

theorem messageStream_cons (m : SendableMessage) (messages : List SendableMessage) :
    messageStream order (m :: messages) = m.serialize order ++ messageStream order messages := rfl

/-- A message at the head of a stream is read whole. -/
theorem outcome_serialize (m : SendableMessage) (rest : List UInt8) :
    outcome order (m.serialize order ++ rest) =
      some (.message { m.toIgniteMessage with m_nTo := -1 } (m.serialize order).length) := by
  have hlength := @length_serialize order m.toIgniteMessage
  have hheader : (m.serialize order ++ rest).take MSG_HEADER_SIZE =
      (m.serialize order).take MSG_HEADER_SIZE :=
    List.take_append_of_le_length (by omega)
  have hmax := m.length_le
  unfold outcome
  rw [if_neg (by rw [List.length_append]; omega), hheader, m.getMessageSize_serialize,
    Option.bind_some, if_pos ⟨by omega, by omega⟩, Int.toNat_natCast,
    if_neg (by rw [List.length_append]; omega), ← hlength, List.take_left' rfl,
    m.ofSerialized_serialize]
  rfl

/-- The connection has delivered the messages it was sent up to some message, and is at
the end of that one. -/
def InStep (order : ByteOrder) (listSubscriberList : List (SubscriberListItem Handler))
    (c : Connection Handler) (messages : List SendableMessage) : Prop :=
  c.received = (messages.take c.served).map (fun m => m.toIgniteMessage.setRecipient c.nSd) ∧
    c.delivered = c.received.flatMap (deliveries listSubscriberList) ∧
    c.pending = messageStream order (messages.drop c.served) ∧
    (c.isOpen = false → messages.length ≤ c.served)

theorem inStep_accept (nSd : ℤ) (chunk : ℕ → ℕ+) (messages : List SendableMessage) :
    InStep order listSubscriberList
      (Connection.accept nSd (messageStream order messages) chunk) messages :=
  ⟨rfl, rfl, rfl, fun h => Bool.noConfusion h⟩

theorem handled_of_returns
    (hreturns : ∀ item ∈ listSubscriberList, ∀ rMsg, returns item.m_pHandler rMsg = true)
    (rcvmsg : IgniteMessage) : handled listSubscriberList returns rcvmsg = true := by
  unfold handled subscribersOf
  rw [List.all_eq_true]
  intro item hitem
  exact hreturns item (List.mem_of_mem_filter hitem) rcvmsg

/-- A turn delivers the next message, or closes the connection behind the last one. -/
theorem inStep_serveSocket
    (hreturns : ∀ item ∈ listSubscriberList, ∀ rMsg, returns item.m_pHandler rMsg = true)
    {messages : List SendableMessage} (h : InStep order listSubscriberList c messages) :
    ∃ c', serveSocket order listSubscriberList returns c = some c' ∧ c'.sent = c.sent ∧
      InStep order listSubscriberList c' messages := by
  rcases h with ⟨hreceived, hdelivered, hpending, hclosed⟩
  rcases @serveSocket_eq Handler order listSubscriberList returns c with ⟨reads, hserve⟩
  rw [hserve, hpending]
  cases hrest : messages.drop c.served with
  | nil =>
    -- nothing is left to be read: the turn closes the connection
    have hlength : messages.length ≤ c.served := List.drop_eq_nil_iff.1 hrest
    have hnext : messages.drop (c.served + 1) = [] :=
      List.drop_eq_nil_of_le (Nat.le_succ_of_le hlength)
    refine ⟨_, rfl, rfl, ?_, hdelivered, ?_, fun _ => Nat.le_succ_of_le hlength⟩
    · rw [List.take_of_length_le (Nat.le_succ_of_le hlength)]
      rw [List.take_of_length_le hlength] at hreceived
      exact hreceived
    · show [] = messageStream order (messages.drop (c.served + 1))
      rw [hnext]
      rfl
  | cons m rest =>
    have hget : messages[c.served]? = some m := by
      rw [← List.head?_drop, hrest]
      rfl
    have hnext : messages.drop (c.served + 1) = rest := by
      rw [← List.drop_drop, hrest]
      rfl
    rw [messageStream_cons, outcome_serialize, Option.bind_some]
    unfold Connection.after
    dsimp only
    rw [if_pos (handled_of_returns hreturns _)]
    refine ⟨_, rfl, rfl, ?_, ?_, ?_, fun h => Nat.le_succ_of_le (hclosed h)⟩
    · show c.received ++ [_] = (messages.take (c.served + 1)).map _
      rw [List.take_add_one, hget, List.map_append, ← hreceived]
      rfl
    · show c.delivered ++ _ = (c.received ++ [_]).flatMap _
      rw [List.flatMap_append, ← hdelivered, List.flatMap_singleton]
    · show c.pending.drop _ = messageStream order (messages.drop (c.served + 1))
      rw [hnext, hpending, hrest, messageStream_cons, List.drop_left' rfl]

end

end MessageQueue

end DeviceClient
