import DeviceClient.Lib.Run
import DeviceClient.Mqtt.Packet

/-!
# The packet reader

`packet__read` is called whenever the socket is readable. It may stop after any byte and
goes on from `in_packet` at the next call. A packet that is complete goes to
`handle__packet`, then `in_packet` is cleaned up.

* `ok_reads`: what `in_packet` holds between two calls, whatever the peer sends.
* `reads_feed`: the calls hand over what a reader of single bytes would, however the bytes
  come in pieces.
* `handled_reads_wire`: so the packets of a peer are handed over one by one, in order.
-/

namespace DeviceClient

namespace Mqtt

/-! ## The socket -/

/-- Why `net__read` returns no bytes. -/
inductive RecvFailure where
  | again
  | intr
  | eof
  | reset
  | errno
deriving DecidableEq, Repr

/-- What the next calls of `net__read` find: some bytes, or none. -/
inductive Recv where
  | data (b : UInt8) (bs : List UInt8)
  | failure (f : RecvFailure)
deriving DecidableEq, Repr

/-- A piece of which some bytes are taken. -/
def pushBack : List UInt8 → List Recv → List Recv
  | [], sock => sock
  | b :: bs, sock => .data b bs :: sock

/-- `net__read`: at most `count` bytes. Nothing more to come is `EAGAIN`. -/
def netRead (count : ℕ) : List Recv → Except RecvFailure (List UInt8) × List Recv
  | [] => (.error .again, [])
  | .failure f :: sock => (.error f, sock)
  | .data b bs :: sock => (.ok ((b :: bs).take count), pushBack ((b :: bs).drop count) sock)

/-- All the bytes that the peer has sent and that are not read. -/
def unread : List Recv → List UInt8
  | [] => []
  | .failure _ :: sock => unread sock
  | .data b bs :: sock => b :: bs ++ unread sock

/-! ## The reader -/

/-- `in_packet`; `pos` is the length of `payload`, the bytes read so far. -/
structure InPacket where
  command : UInt8
  remaining_count : ℤ
  remaining_mult : ℕ
  remaining_length : ℕ
  to_process : ℕ
  payload : List UInt8
deriving DecidableEq, Repr

/-- `packet__cleanup` -/
def InPacket.cleanup : InPacket := ⟨0, 0, 1, 0, 0, []⟩

/-- A connection, with the packets that `handle__packet` was called with. -/
structure Conn where
  in_packet : InPacket
  handled : List Packet
deriving DecidableEq, Repr

/-- How a call goes on: it returns, or goes to its next part. -/
structure Part where
  conn : Conn
  sock : List Recv
  returned : Option MosqErr

/-- The return code where `net__read` fails in the header. -/
def headerRc : RecvFailure → MosqErr
  | .again | .intr => .success
  | .eof | .reset => .connLost
  | .errno => .errno

/-- The return code where it fails in the payload: the end of the stream leaves `errno` 0,
which is none of the cases. -/
def payloadRc : RecvFailure → MosqErr
  | .again | .intr => .success
  | .reset => .connLost
  | .eof | .errno => .errno

def readCommand (c : Conn) (sock : List Recv) : Part :=
  if c.in_packet.command ≠ 0 then ⟨c, sock, none⟩
  else
    match netRead 1 sock with
    | (.ok bytes, sock') =>
      ⟨{ c with in_packet := { c.in_packet with command := bytes.headD 0 } }, sock', none⟩
    | (.error f, sock') => ⟨c, sock', some (headerRc f)⟩

/-- One more byte of `remaining_length`. -/
def InPacket.pushLength (p : InPacket) (byte : UInt8) : InPacket :=
  { p with
    remaining_count := p.remaining_count - 1
    remaining_length := p.remaining_length + (byte &&& 127).toNat * p.remaining_mult
    remaining_mult := p.remaining_mult * 128 }

/-- The end of `remaining_length`: its count turns positive, the payload is allocated. -/
def InPacket.finishLength (p : InPacket) : InPacket :=
  { p with
    remaining_count := p.remaining_count * -1
    to_process := if 0 < p.remaining_length then p.remaining_length else p.to_process }

/-- The `do … while` over `remaining_length`; the fifth byte makes it return. -/
def lengthLoop : ℕ → Conn → List Recv → Part
  | 0, c, sock => ⟨c, sock, some .malformedPacket⟩
  | fuel + 1, c, sock =>
    match netRead 1 sock with
    | (.error f, sock') => ⟨c, sock', some (headerRc f)⟩
    | (.ok bytes, sock') =>
      let byte := bytes.headD 0
      if c.in_packet.remaining_count - 1 < -4 then
        let counted := { c.in_packet with remaining_count := c.in_packet.remaining_count - 1 }
        ⟨{ c with in_packet := counted }, sock', some .malformedPacket⟩
      else if byte &&& 128 ≠ 0 then
        lengthLoop fuel { c with in_packet := c.in_packet.pushLength byte } sock'
      else
        ⟨{ c with in_packet := (c.in_packet.pushLength byte).finishLength }, sock', none⟩

def readLength (c : Conn) (sock : List Recv) : Part :=
  if c.in_packet.remaining_count ≤ 0 then lengthLoop 5 c sock else ⟨c, sock, none⟩

/-- More bytes of the payload. -/
def InPacket.pushPayload (p : InPacket) (bytes : List UInt8) : InPacket :=
  { p with payload := p.payload ++ bytes, to_process := p.to_process - bytes.length }

/-- The `while` over the payload: each turn reads a byte or returns. -/
def payloadLoop : ℕ → Conn → List Recv → Part
  | 0, c, sock => ⟨c, sock, none⟩
  | fuel + 1, c, sock =>
    if c.in_packet.to_process = 0 then ⟨c, sock, none⟩
    else
      match netRead c.in_packet.to_process sock with
      | (.error f, sock') => ⟨c, sock', some (payloadRc f)⟩
      | (.ok bytes, sock') =>
        payloadLoop fuel { c with in_packet := c.in_packet.pushPayload bytes } sock'

def readPayload (c : Conn) (sock : List Recv) : Part :=
  payloadLoop c.in_packet.to_process c sock

/-- `handle__packet` and `packet__cleanup`. -/
def Conn.deliver (c : Conn) : Conn :=
  ⟨.cleanup, c.handled ++ [⟨c.in_packet.command, c.in_packet.payload⟩]⟩

/-- The next part, unless the call has returned. -/
def Part.andThen (p : Part) (f : Conn → List Recv → Part) : Part :=
  match p.returned with
  | some _ => p
  | none => f p.conn p.sock

/-- The part of `packet__read` that reads. -/
def receive (c : Conn) (sock : List Recv) : Part :=
  ((readCommand c sock).andThen readLength).andThen readPayload

/-- `packet__read`; `handle` stands for what `handle__packet` returns. -/
def packetRead (handle : Packet → MosqErr) (c : Conn) (sock : List Recv) : Part :=
  (receive c sock).andThen fun c sock =>
    ⟨c.deliver, sock, some (handle ⟨c.in_packet.command, c.in_packet.payload⟩)⟩

/-- `n` calls, up to the first that fails. -/
def reads (handle : Packet → MosqErr) : ℕ → Conn → List Recv → Part
  | 0, c, sock => ⟨c, sock, some .success⟩
  | n + 1, c, sock =>
    let part := packetRead handle c sock
    if part.returned = some .success then reads handle n part.conn part.sock else part

/-! ## Byte by byte -/

/-- A packet of which nothing is missing is delivered. -/
def Conn.settle (c : Conn) : Conn :=
  if 0 < c.in_packet.remaining_count ∧ c.in_packet.to_process = 0 then c.deliver else c

/-- A reader of single bytes. It refuses a command 0, which in `in_packet` means that there
is none, and a fifth byte of the length. -/
def feedByte (c : Conn) (b : UInt8) : Option Conn :=
  let p := c.in_packet
  if p.command = 0 then
    if b = 0 then none else some { c with in_packet := { p with command := b } }
  else if p.remaining_count ≤ 0 then
    if p.remaining_count - 1 < -4 then none
    else if b &&& 128 ≠ 0 then some { c with in_packet := p.pushLength b }
    else some (Conn.settle { c with in_packet := (p.pushLength b).finishLength })
  else some (Conn.settle { c with in_packet := p.pushPayload [b] })

/-! ## What `in_packet` holds -/

/-- In the length: four bytes at most, and no payload yet. -/
structure InPacket.InLength (p : InPacket) : Prop where
  nonpos : p.remaining_count ≤ 0
  ge : -4 ≤ p.remaining_count
  mult_eq : p.remaining_mult = 128 ^ p.remaining_count.natAbs
  length_lt : p.remaining_length < p.remaining_mult
  to_process_eq : p.to_process = 0
  payload_eq : p.payload = []

/-- In the payload, or at its end. -/
structure InPacket.InPayload (p : InPacket) : Prop where
  pos : 0 < p.remaining_count
  length_eq : p.payload.length + p.to_process = p.remaining_length
  length_le : p.remaining_length ≤ maxLength

/-- Between two calls: in the length, or in a payload that is not complete. -/
def InPacket.Ok (p : InPacket) : Prop := p.InLength ∨ p.InPayload ∧ 0 < p.to_process

theorem InPacket.InLength.setCommand {p : InPacket} (h : p.InLength) (command : UInt8) :
    InPacket.InLength { p with command := command } :=
  ⟨h.nonpos, h.ge, h.mult_eq, h.length_lt, h.to_process_eq, h.payload_eq⟩

theorem InPacket.inLength_cleanup : InPacket.cleanup.InLength :=
  ⟨by decide, by decide, by decide, by decide, rfl, rfl⟩

/-! ## The socket -/

theorem unread_pushBack (l : List UInt8) (sock : List Recv) :
    unread (pushBack l sock) = l ++ unread sock := by
  cases l <;> rfl

/-- What `net__read` returns is taken off the stream. -/
theorem unread_netRead_ok {count : ℕ} {sock sock' : List Recv} {bytes : List UInt8}
    (h : netRead count sock = (.ok bytes, sock')) :
    unread sock = bytes ++ unread sock' ∧ bytes.length ≤ count ∧ (0 < count → bytes ≠ []) := by
  rcases sock with - | ⟨b, bs⟩ | f
  · cases h
  · cases h
    refine ⟨?_, ?_, ?_⟩
    · rw [unread_pushBack, ← List.append_assoc, List.take_append_drop]
      rfl
    · rw [List.length_take]
      exact Nat.min_le_left _ _
    · intro hcount
      obtain ⟨n, rfl⟩ := Nat.exists_eq_succ_of_ne_zero (Nat.pos_iff_ne_zero.1 hcount)
      exact List.cons_ne_nil _ _
  · cases h

theorem unread_netRead_error {count : ℕ} {sock sock' : List Recv} {f : RecvFailure}
    (h : netRead count sock = (.error f, sock')) : unread sock' = unread sock := by
  rcases sock with - | ⟨b, bs⟩ | g
  · cases h
    rfl
  · cases h
  · cases h
    rfl

/-- A call for one byte gets one. -/
theorem netRead_one {sock sock' : List Recv} {bytes : List UInt8}
    (h : netRead 1 sock = (.ok bytes, sock')) :
    ∃ b, bytes = [b] ∧ unread sock = b :: unread sock' := by
  obtain ⟨hunread, hlength, hne⟩ := unread_netRead_ok h
  rcases bytes with - | ⟨b, - | ⟨b', bytes⟩⟩
  · exact absurd rfl (hne Nat.one_pos)
  · exact ⟨b, rfl, hunread⟩
  · rw [List.length_cons, List.length_cons] at hlength
    omega

/-! ## The invariant -/

theorem InPacket.InLength.pushLength {p : InPacket} (h : p.InLength)
    (hcount : ¬p.remaining_count - 1 < -4) (b : UInt8) :
    (p.pushLength b).InLength ∧ (p.pushLength b).remaining_count < 0 := by
  have hnonpos := h.nonpos
  have habs : (p.remaining_count - 1).natAbs = p.remaining_count.natAbs + 1 := by omega
  refine ⟨⟨?_, ?_, ?_, ?_, h.to_process_eq, h.payload_eq⟩, ?_⟩ <;> unfold InPacket.pushLength <;>
    dsimp only
  · omega
  · omega
  · rw [habs, pow_succ, h.mult_eq]
  · exact @Lib.VarInt.value_foldl_push_lt ⟨p.remaining_length, p.remaining_mult⟩ h.length_lt [b]
  · omega

theorem InPacket.InLength.finishLength {p : InPacket} (h : p.InLength)
    (hcount : p.remaining_count < 0) : p.finishLength.InPayload := by
  have hle : p.remaining_mult ≤ 128 ^ 4 := by
    have hge := h.ge
    rw [h.mult_eq]
    exact Nat.pow_le_pow_right (by omega) (by omega)
  have hlt := h.length_lt
  have hto := h.to_process_eq
  refine ⟨?_, ?_, ?_⟩ <;> unfold InPacket.finishLength <;> dsimp only
  · omega
  · rw [h.payload_eq, List.length_nil]
    split_ifs <;> omega
  · unfold maxLength
    omega

theorem InPacket.InPayload.pushPayload {p : InPacket} (h : p.InPayload) {bytes : List UInt8}
    (hlength : bytes.length ≤ p.to_process) : (p.pushPayload bytes).InPayload := by
  have heq := h.length_eq
  refine ⟨h.pos, ?_, h.length_le⟩
  unfold InPacket.pushPayload
  dsimp only
  rw [List.length_append]
  omega

/-- What a part of the call leaves: the next part's start, or what the next call finds. -/
def Part.Good (part : Part) (done : InPacket → Prop) : Prop :=
  match part.returned with
  | none => done part.conn.in_packet
  | some rc => rc = .malformedPacket ∨ part.conn.in_packet.Ok

theorem Part.Good.andThen {part : Part} {done done' : InPacket → Prop} {f : Conn → List Recv → Part}
    (h : part.Good done) (hf : ∀ c sock, done c.in_packet → (f c sock).Good done') :
    (part.andThen f).Good done' := by
  unfold Good at h
  unfold Part.andThen
  cases hreturned : part.returned with
  | none =>
    rw [hreturned] at h
    exact hf _ _ h
  | some rc =>
    rw [hreturned] at h
    unfold Good
    dsimp only
    rw [hreturned]
    exact h

theorem Part.Good.done {part : Part} {done : InPacket → Prop} (h : part.Good done)
    (hnone : part.returned = none) : done part.conn.in_packet := by
  unfold Good at h
  rwa [hnone] at h

theorem good_readCommand {c : Conn} (hok : c.in_packet.Ok) (sock : List Recv) :
    (readCommand c sock).Good InPacket.Ok := by
  unfold readCommand
  split
  · exact hok
  · split
    · rcases hok with h | ⟨h, hpos⟩
      · exact Or.inl (h.setCommand _)
      · exact Or.inr ⟨⟨h.1, h.2, h.3⟩, hpos⟩
    · exact Or.inr hok

theorem good_lengthLoop (fuel : ℕ) {c : Conn} (hlength : c.in_packet.InLength) (sock : List Recv) :
    (lengthLoop fuel c sock).Good InPacket.InPayload := by
  induction fuel generalizing c sock with
  | zero => exact Or.inl rfl
  | succ fuel ih =>
    unfold lengthLoop
    split
    · exact Or.inr (Or.inl hlength)
    · dsimp only
      split_ifs with hcount hmore
      · exact Or.inl rfl
      · exact ih (hlength.pushLength hcount _).1 _
      · have hpush := hlength.pushLength hcount
        exact (hpush _).1.finishLength (hpush _).2

theorem good_readLength {c : Conn} (hok : c.in_packet.Ok) (sock : List Recv) :
    (readLength c sock).Good InPacket.InPayload := by
  unfold readLength
  split_ifs with hcount
  · rcases hok with hlength | ⟨hpayload, -⟩
    · exact good_lengthLoop 5 hlength sock
    · exact absurd hcount (not_le.2 hpayload.pos)
  · rcases hok with hlength | ⟨hpayload, -⟩
    · exact absurd hlength.nonpos hcount
    · exact hpayload

theorem good_payloadLoop (fuel : ℕ) {c : Conn} (hpayload : c.in_packet.InPayload)
    (hfuel : c.in_packet.to_process ≤ fuel) (sock : List Recv) :
    (payloadLoop fuel c sock).Good fun p => p.InPayload ∧ p.to_process = 0 := by
  induction fuel generalizing c sock with
  | zero => exact ⟨hpayload, Nat.le_zero.1 hfuel⟩
  | succ fuel ih =>
    unfold payloadLoop
    split_ifs with hzero
    · exact ⟨hpayload, hzero⟩
    · split
      · exact Or.inr (Or.inr ⟨hpayload, Nat.pos_of_ne_zero hzero⟩)
      case h_2 bytes sock' hread =>
        obtain ⟨-, hlength, hne⟩ := unread_netRead_ok hread
        have hbytes := List.length_pos_of_ne_nil (hne (Nat.pos_of_ne_zero hzero))
        refine ih (hpayload.pushPayload hlength) ?_ sock'
        unfold InPacket.pushPayload
        dsimp only
        omega

theorem good_receive {c : Conn} (hok : c.in_packet.Ok) (sock : List Recv) :
    (receive c sock).Good fun p => p.InPayload ∧ p.to_process = 0 :=
  ((good_readCommand hok sock).andThen fun _ sock h => good_readLength h sock).andThen
    fun _ sock h => good_payloadLoop _ h (Nat.le_refl _) sock

theorem good_packetRead (handle : Packet → MosqErr) {c : Conn} (hok : c.in_packet.Ok)
    (sock : List Recv) : (packetRead handle c sock).Good fun _ => False :=
  (good_receive hok sock).andThen fun _ _ _ => Or.inr (Or.inl InPacket.inLength_cleanup)

/-- Whatever the peer sends and in whatever pieces: until a length is refused, `in_packet`
holds at most four bytes of a length, or a payload within the length that was announced. -/
theorem ok_reads (handle : Packet → MosqErr) (n : ℕ) {c : Conn} (hok : c.in_packet.Ok)
    (sock : List Recv) (hrc : (reads handle n c sock).returned ≠ some .malformedPacket) :
    (reads handle n c sock).conn.in_packet.Ok := by
  induction n generalizing c sock with
  | zero => exact hok
  | succ n ih =>
    have hgood := good_packetRead handle hok sock
    unfold Part.Good at hgood
    unfold reads at hrc ⊢
    dsimp only at hrc ⊢
    split_ifs at hrc ⊢ with hsuccess
    · rw [hsuccess] at hgood
      exact ih (hgood.resolve_left (by decide)) _ hrc
    · cases hreturned : (packetRead handle c sock).returned with
      | none =>
        rw [hreturned] at hgood
        exact hgood.elim
      | some rc =>
        rw [hreturned] at hgood hrc
        exact hgood.resolve_left fun h => hrc (congrArg some h)

/-! ## Pieces do not matter -/

/-- The part has read what the byte reader reads, and both are at the same place. -/
def Fed (c : Conn) (sock : List Recv) (part : Part) : Prop :=
  ∃ l, unread sock = l ++ unread part.sock ∧ Lib.exec feedByte c.settle l = some part.conn.settle

/-- The byte reader gets through all that is to come. -/
def Readable (c : Conn) (sock : List Recv) : Prop :=
  (Lib.exec feedByte c.settle (unread sock)).isSome = true

theorem Fed.refl {c : Conn} {sock : List Recv} {part : Part}
    (hsock : unread part.sock = unread sock) (hconn : part.conn.settle = c.settle) : Fed c sock part :=
  ⟨[], hsock.symm, congrArg some hconn.symm⟩

theorem Fed.trans {c : Conn} {sock : List Recv} {part part' : Part} (h : Fed c sock part)
    (h' : Fed part.conn part.sock part') : Fed c sock part' := by
  obtain ⟨l, hunread, hexec⟩ := h
  obtain ⟨l', hunread', hexec'⟩ := h'
  refine ⟨l ++ l', ?_, ?_⟩
  · rw [hunread, hunread', List.append_assoc]
  · rw [Lib.exec_append, hexec]
    exact hexec'

theorem Fed.readable {c : Conn} {sock : List Recv} {part : Part} (h : Fed c sock part)
    (hreadable : Readable c sock) : Readable part.conn part.sock := by
  obtain ⟨l, hunread, hexec⟩ := h
  unfold Readable at hreadable
  rw [hunread, Lib.exec_append, hexec] at hreadable
  exact hreadable

theorem Fed.andThen {c : Conn} {sock : List Recv} {part : Part} {f : Conn → List Recv → Part}
    (h : Fed c sock part)
    (hf : part.returned = none → Fed part.conn part.sock (f part.conn part.sock)) :
    Fed c sock (part.andThen f) := by
  unfold Part.andThen
  split
  · exact h
  case h_2 hnone => exact h.trans (hf hnone)

/-- No length was refused. -/
def Unrefused (part : Part) : Prop := part.returned ≠ some .malformedPacket

theorem headerRc_ne (f : RecvFailure) : some (headerRc f) ≠ some .malformedPacket := by
  cases f <;> decide

theorem payloadRc_ne (f : RecvFailure) : some (payloadRc f) ≠ some .malformedPacket := by
  cases f <;> decide

theorem Unrefused.andThen {part : Part} {f : Conn → List Recv → Part} (h : Unrefused part)
    (hf : part.returned = none → Unrefused (f part.conn part.sock)) :
    Unrefused (part.andThen f) := by
  unfold Part.andThen
  split
  · exact h
  case h_2 hnone => exact hf hnone

/-- The first byte of a stream that the byte reader gets through. -/
theorem Readable.cons {c : Conn} {sock sock' : List Recv} {b : UInt8} (h : Readable c sock)
    (hunread : unread sock = b :: unread sock') : ∃ c', feedByte c.settle b = some c' := by
  unfold Readable at h
  rw [hunread, Lib.exec_cons] at h
  cases hfeed : feedByte c.settle b with
  | none =>
    rw [hfeed] at h
    cases h
  | some c' => exact ⟨c', rfl⟩

theorem fed_single {c : Conn} {sock : List Recv} {part : Part} {b : UInt8}
    (hunread : unread sock = b :: unread part.sock)
    (hfeed : feedByte c.settle b = some part.conn.settle) : Fed c sock part := by
  refine ⟨[b], hunread, ?_⟩
  rw [Lib.exec_cons, hfeed]
  rfl

theorem settle_of_inLength {c : Conn} (h : c.in_packet.InLength) : c.settle = c := by
  unfold Conn.settle
  exact if_neg fun hdone => absurd hdone.1 (not_lt.2 h.nonpos)

theorem settle_of_pos {c : Conn} (h : 0 < c.in_packet.to_process) : c.settle = c := by
  unfold Conn.settle
  exact if_neg fun hdone => absurd hdone.2 (Nat.pos_iff_ne_zero.1 h)

theorem settle_of_ok {c : Conn} (h : c.in_packet.Ok) : c.settle = c :=
  h.elim settle_of_inLength fun h => settle_of_pos h.2

theorem settle_of_inPayload {c : Conn} (h : c.in_packet.InPayload)
    (hzero : c.in_packet.to_process = 0) : c.settle = c.deliver := by
  unfold Conn.settle
  exact if_pos ⟨h.pos, hzero⟩

theorem settle_deliver (c : Conn) : c.deliver.settle = c.deliver :=
  settle_of_inLength InPacket.inLength_cleanup

theorem fed_readCommand {c : Conn} {sock : List Recv} (hok : c.in_packet.Ok)
    (hreadable : Readable c sock) :
    Fed c sock (readCommand c sock) ∧
      ((readCommand c sock).returned = none → (readCommand c sock).conn.in_packet.command ≠ 0) := by
  have hgood := good_readCommand hok sock
  have hsettle := settle_of_ok hok
  unfold readCommand at hgood ⊢
  by_cases hcommand : c.in_packet.command = 0
  · rw [if_neg (not_not.2 hcommand)] at hgood ⊢
    split
    case h_1 bytes sock' hread =>
      rw [hread] at hgood
      obtain ⟨b, rfl, hunread⟩ := netRead_one hread
      obtain ⟨c', hfeed⟩ := hreadable.cons hunread
      rw [hsettle] at hfeed
      unfold feedByte at hfeed
      dsimp only at hfeed
      rw [if_pos hcommand] at hfeed
      have hb : b ≠ 0 := by
        rintro rfl
        rw [if_pos rfl] at hfeed
        cases hfeed
      refine ⟨fed_single hunread ?_, fun _ => hb⟩
      rw [hsettle, settle_of_ok hgood]
      unfold feedByte
      dsimp only
      rw [if_pos hcommand, if_neg hb]
      rfl
    case h_2 f sock' hread =>
      refine ⟨Fed.refl (unread_netRead_error hread) rfl, fun hreturned => ?_⟩
      cases hreturned
  · rw [if_pos hcommand]
    exact ⟨Fed.refl rfl rfl, fun _ => hcommand⟩

theorem feedByte_inLength {c : Conn} (hcommand : c.in_packet.command ≠ 0)
    (hlength : c.in_packet.InLength) (b : UInt8) :
    feedByte c b =
      if c.in_packet.remaining_count - 1 < -4 then none
      else if b &&& 128 ≠ 0 then some { c with in_packet := c.in_packet.pushLength b }
      else some (Conn.settle { c with in_packet := (c.in_packet.pushLength b).finishLength }) := by
  unfold feedByte
  dsimp only
  rw [if_neg hcommand, if_pos hlength.nonpos]

theorem fed_lengthLoop (fuel : ℕ) {c : Conn} {sock : List Recv}
    (hcommand : c.in_packet.command ≠ 0) (hlength : c.in_packet.InLength)
    (hfuel : 5 + c.in_packet.remaining_count ≤ fuel) (hreadable : Readable c sock) :
    Fed c sock (lengthLoop fuel c sock) ∧ Unrefused (lengthLoop fuel c sock) := by
  induction fuel generalizing c sock with
  | zero =>
    have hge := hlength.ge
    omega
  | succ fuel ih =>
    have hsettle := settle_of_inLength hlength
    unfold lengthLoop
    split
    case h_1 f sock' hread =>
      exact ⟨Fed.refl (unread_netRead_error hread) rfl, headerRc_ne f⟩
    case h_2 bytes sock' hread =>
      obtain ⟨b, rfl, hunread⟩ := netRead_one hread
      obtain ⟨c', hfeed⟩ := hreadable.cons hunread
      rw [hsettle, feedByte_inLength hcommand hlength] at hfeed
      dsimp only [List.headD]
      split_ifs at hfeed ⊢ with hcount hmore
      · -- the byte goes to the length, and another one follows
        have hpush := hlength.pushLength hcount b
        let c1 : Conn := { c with in_packet := c.in_packet.pushLength b }
        have hstep : Fed c sock ⟨c1, sock', none⟩ := by
          refine fed_single hunread ?_
          rw [hsettle, feedByte_inLength hcommand hlength, if_neg hcount, if_pos hmore,
            settle_of_inLength hpush.1]
        have hrest : 5 + (c.in_packet.remaining_count - 1) ≤ (fuel : ℤ) := by omega
        obtain ⟨hfed, hunrefused⟩ :=
          @ih c1 sock' hcommand hpush.1 hrest (hstep.readable hreadable)
        exact ⟨hstep.trans hfed, hunrefused⟩
      · refine ⟨fed_single hunread ?_, fun h => by cases h⟩
        rw [hsettle, feedByte_inLength hcommand hlength, if_neg hcount, if_neg hmore]

theorem command_lengthLoop (fuel : ℕ) (c : Conn) (sock : List Recv) :
    (lengthLoop fuel c sock).conn.in_packet.command = c.in_packet.command := by
  induction fuel generalizing c sock with
  | zero => rfl
  | succ fuel ih =>
    unfold lengthLoop
    split
    · rfl
    · dsimp only
      split_ifs
      · rfl
      · exact ih _ _
      · rfl

theorem fed_readLength {c : Conn} {sock : List Recv} (hcommand : c.in_packet.command ≠ 0)
    (hok : c.in_packet.Ok) (hreadable : Readable c sock) :
    Fed c sock (readLength c sock) ∧ Unrefused (readLength c sock) := by
  unfold readLength
  split_ifs with hcount
  · rcases hok with hlength | ⟨hpayload, -⟩
    · refine fed_lengthLoop 5 hcommand hlength ?_ hreadable
      omega
    · exact absurd hcount (not_le.2 hpayload.pos)
  · exact ⟨Fed.refl rfl rfl, fun h => by cases h⟩

theorem command_readLength (c : Conn) (sock : List Recv) :
    (readLength c sock).conn.in_packet.command = c.in_packet.command := by
  unfold readLength
  split_ifs
  · exact command_lengthLoop 5 c sock
  · rfl

theorem pushPayload_cons (p : InPacket) (b : UInt8) (bytes : List UInt8) :
    p.pushPayload (b :: bytes) = (p.pushPayload [b]).pushPayload bytes := by
  unfold InPacket.pushPayload
  dsimp only [List.length_cons, List.length_nil]
  rw [List.append_assoc, List.singleton_append]
  congr 1
  omega

/-- The byte reader on bytes of one payload. -/
theorem exec_feedByte_payload {c : Conn} (hcommand : c.in_packet.command ≠ 0)
    (hpayload : c.in_packet.InPayload) {bytes : List UInt8} (hne : bytes ≠ [])
    (hlength : bytes.length ≤ c.in_packet.to_process) :
    Lib.exec feedByte c bytes =
      some (Conn.settle { c with in_packet := c.in_packet.pushPayload bytes }) := by
  induction bytes generalizing c with
  | nil => exact absurd rfl hne
  | cons b bytes ih =>
    rw [List.length_cons] at hlength
    have hfeed : feedByte c b =
        some (Conn.settle { c with in_packet := c.in_packet.pushPayload [b] }) := by
      unfold feedByte
      dsimp only
      rw [if_neg hcommand, if_neg (not_le.2 hpayload.pos)]
    rw [Lib.exec_cons, hfeed, Option.bind_some, pushPayload_cons c.in_packet b bytes]
    rcases eq_or_ne bytes [] with rfl | hrest
    · rw [Lib.exec_nil]
      congr 1
      unfold InPacket.pushPayload
      dsimp only [List.length_nil]
      rw [List.append_nil, Nat.sub_zero]
    · have hpos := List.length_pos_of_ne_nil hrest
      have hone : [b].length ≤ c.in_packet.to_process := by
        rw [List.length_singleton]
        omega
      rw [settle_of_pos (c := { c with in_packet := c.in_packet.pushPayload [b] })
        (by dsimp only [InPacket.pushPayload, List.length_singleton]; omega)]
      refine ih hcommand (hpayload.pushPayload hone) hrest ?_
      dsimp only [InPacket.pushPayload, List.length_singleton]
      omega

theorem fed_payloadLoop (fuel : ℕ) {c : Conn} {sock : List Recv}
    (hcommand : c.in_packet.command ≠ 0) (hpayload : c.in_packet.InPayload) :
    Fed c sock (payloadLoop fuel c sock) ∧ Unrefused (payloadLoop fuel c sock) := by
  induction fuel generalizing c sock with
  | zero => exact ⟨Fed.refl rfl rfl, fun h => by cases h⟩
  | succ fuel ih =>
    unfold payloadLoop
    split_ifs with hzero
    · exact ⟨Fed.refl rfl rfl, fun h => by cases h⟩
    · have hpos := Nat.pos_of_ne_zero hzero
      split
      case h_1 f sock' hread =>
        exact ⟨Fed.refl (unread_netRead_error hread) rfl, payloadRc_ne f⟩
      case h_2 bytes sock' hread =>
        obtain ⟨hunread, hlength, hne⟩ := unread_netRead_ok hread
        let c1 : Conn := { c with in_packet := c.in_packet.pushPayload bytes }
        have hstep : Fed c sock ⟨c1, sock', none⟩ := by
          refine ⟨bytes, hunread, ?_⟩
          rw [settle_of_pos hpos]
          exact exec_feedByte_payload hcommand hpayload (hne hpos) hlength
        obtain ⟨hfed, hunrefused⟩ := @ih c1 sock' hcommand (hpayload.pushPayload hlength)
        exact ⟨hstep.trans hfed, hunrefused⟩

theorem Part.andThen_andThen (part : Part) (f g : Conn → List Recv → Part) :
    (part.andThen f).andThen g = part.andThen fun c sock => (f c sock).andThen g := by
  unfold Part.andThen
  cases hreturned : part.returned with
  | none => rfl
  | some rc =>
    dsimp only
    rw [hreturned]

theorem fed_receive {c : Conn} {sock : List Recv} (hok : c.in_packet.Ok)
    (hreadable : Readable c sock) : Fed c sock (receive c sock) ∧ Unrefused (receive c sock) := by
  obtain ⟨hfirst, hcommand⟩ := fed_readCommand hok hreadable
  have hunrefused : Unrefused (readCommand c sock) := by
    unfold readCommand
    split_ifs
    · exact fun h => by cases h
    · split
      · exact fun h => by cases h
      case h_2 f _ _ => exact headerRc_ne f
  have hlength : (readCommand c sock).returned = none →
      Fed (readCommand c sock).conn (readCommand c sock).sock
          (readLength (readCommand c sock).conn (readCommand c sock).sock) ∧
        Unrefused (readLength (readCommand c sock).conn (readCommand c sock).sock) := fun hnone =>
    fed_readLength (hcommand hnone) ((good_readCommand hok sock).done hnone)
      (hfirst.readable hreadable)
  have hpayload : (readCommand c sock).returned = none → ∀ part,
      part = readLength (readCommand c sock).conn (readCommand c sock).sock →
      part.returned = none →
      Fed part.conn part.sock (readPayload part.conn part.sock) ∧
        Unrefused (readPayload part.conn part.sock) := by
    rintro hnone part rfl hnone2
    refine fed_payloadLoop _ ?_ ?_
    · rw [command_readLength]
      exact hcommand hnone
    · exact (good_readLength ((good_readCommand hok sock).done hnone) _).done hnone2
  unfold receive
  rw [Part.andThen_andThen]
  constructor
  · refine hfirst.andThen fun hnone => (hlength hnone).1.andThen fun hnone2 => ?_
    exact (hpayload hnone _ rfl hnone2).1
  · refine hunrefused.andThen fun hnone => (hlength hnone).2.andThen fun hnone2 => ?_
    exact (hpayload hnone _ rfl hnone2).2

/-- One call reads what the byte reader reads. -/
theorem fed_packetRead (handle : Packet → MosqErr) {c : Conn} {sock : List Recv}
    (hok : c.in_packet.Ok) (hreadable : Readable c sock) :
    Fed c sock (packetRead handle c sock) := by
  refine (fed_receive hok hreadable).1.andThen fun hnone => Fed.refl rfl ?_
  have hend := (good_receive hok sock).done hnone
  exact (settle_deliver _).trans (settle_of_inPayload hend.1 hend.2).symm

/-- The calls read what a reader of single bytes reads, however the bytes come in pieces and
whatever the handlers return. -/
theorem fed_reads (handle : Packet → MosqErr) (n : ℕ) {c : Conn} {sock : List Recv}
    (hok : c.in_packet.Ok) (hreadable : Readable c sock) : Fed c sock (reads handle n c sock) := by
  induction n generalizing c sock with
  | zero => exact Fed.refl rfl rfl
  | succ n ih =>
    have hstep := fed_packetRead handle hok hreadable
    unfold reads
    dsimp only
    split_ifs with hsuccess
    · have hgood := good_packetRead handle hok sock
      unfold Part.Good at hgood
      rw [hsuccess] at hgood
      exact hstep.trans (ih (hgood.resolve_left (by decide)) (hstep.readable hreadable))
    · exact hstep

/-! ## Packets -/

theorem handled_feedByte {c c' : Conn} {b : UInt8} (h : feedByte c b = some c') :
    c.handled <+: c'.handled := by
  have hsettle : ∀ c1 : Conn, c1.handled = c.handled → c.handled <+: c1.settle.handled := by
    intro c1 hc1
    unfold Conn.settle Conn.deliver
    split_ifs
    · exact ⟨_, by rw [hc1]⟩
    · exact ⟨[], by rw [hc1, List.append_nil]⟩
  unfold feedByte at h
  dsimp only at h
  split_ifs at h <;> cases h
  · exact List.prefix_rfl
  · exact List.prefix_rfl
  · exact hsettle _ rfl
  · exact hsettle _ rfl

theorem handled_exec {c c' : Conn} {l : List UInt8} (h : Lib.exec feedByte c l = some c') :
    c.handled <+: c'.handled := by
  refine Lib.exec_inv_all (P := fun s => c.handled <+: s.handled) ?_ List.prefix_rfl h
  exact fun s b s' hs hfeed => hs.trans (handled_feedByte hfeed)

/-- The groups of a length, all but the last. -/
theorem exec_feedByte_more {c : Conn} (hcommand : c.in_packet.command ≠ 0)
    (hlength : c.in_packet.InLength) {more : List UInt8} (hmore : ∀ b ∈ more, b &&& 128 ≠ 0)
    (hfour : more.length ≤ 4 + c.in_packet.remaining_count) :
    Lib.exec feedByte c more =
        some { c with in_packet := more.foldl InPacket.pushLength c.in_packet } ∧
      (more.foldl InPacket.pushLength c.in_packet).InLength := by
  induction more generalizing c with
  | nil => exact ⟨rfl, hlength⟩
  | cons b more ih =>
    rw [List.length_cons] at hfour
    have hcount : ¬c.in_packet.remaining_count - 1 < -4 := by omega
    rw [Lib.exec_cons, feedByte_inLength hcommand hlength, if_neg hcount,
      if_pos (hmore b List.mem_cons_self), Option.bind_some]
    have hpush : 4 + (c.in_packet.pushLength b).remaining_count =
        4 + (c.in_packet.remaining_count - 1) := rfl
    exact @ih { c with in_packet := c.in_packet.pushLength b } hcommand
      (hlength.pushLength hcount b).1 (fun b hb => hmore b (List.mem_cons_of_mem _ hb))
      (by rw [hpush]; omega)

/-- What the groups of a length add up to. -/
theorem foldl_pushLength (p : InPacket) (l : List UInt8) :
    l.foldl InPacket.pushLength p =
      { p with
        remaining_count := p.remaining_count - l.length
        remaining_length :=
          (l.foldl Lib.VarInt.push ⟨p.remaining_length, p.remaining_mult⟩).value
        remaining_mult :=
          (l.foldl Lib.VarInt.push ⟨p.remaining_length, p.remaining_mult⟩).mult } := by
  induction l generalizing p with
  | nil =>
    rw [List.length_nil, Nat.cast_zero, Int.sub_zero]
    rfl
  | cons b l ih =>
    rw [List.foldl_cons, ih, List.foldl_cons, List.length_cons]
    unfold InPacket.pushLength Lib.VarInt.push
    dsimp only
    congr 1
    push_cast
    omega

/-- After the length of a packet, the payload is missing. -/
theorem exec_feedByte_length {command : UInt8} (hcommand : command ≠ 0) {n : ℕ}
    (hn : n ≤ maxLength) (handled : List Packet) :
    ∃ p : InPacket,
      Lib.exec feedByte ⟨{ InPacket.cleanup with command := command }, handled⟩ (remainingBytes n) =
        some (Conn.settle ⟨p, handled⟩) ∧
      p.InPayload ∧ p.command = command ∧ p.payload = [] ∧ p.to_process = n := by
  unfold maxLength at hn
  have hfits : n < 128 ^ 5 := by omega
  obtain ⟨more, last, hbytes, hmore, hlast⟩ := Lib.varInt_more hfits (by omega)
  have hfour : (Lib.varInt 5 n).length ≤ 4 :=
    (@length_remainingBytes_le_iff n 4 (by omega) (Nat.le_refl 4)).2 (by omega)
  have hvalue := Lib.VarInt.value_foldl_push_varInt hfits ⟨0, 1⟩
  rw [hbytes, List.length_append, List.length_singleton] at hfour
  let start : Conn := ⟨{ InPacket.cleanup with command := command }, handled⟩
  have hstart : start.in_packet.InLength := InPacket.inLength_cleanup.setCommand command
  have hcount : start.in_packet.remaining_count = 0 := rfl
  obtain ⟨hexec, hlength⟩ := @exec_feedByte_more start hcommand hstart more hmore (by omega)
  have hfold := foldl_pushLength start.in_packet (more ++ [last])
  rw [List.foldl_append, List.foldl_cons, List.foldl_nil, ← hbytes] at hfold
  have hdown : (more.foldl InPacket.pushLength start.in_packet).remaining_count =
      0 - (more.length : ℤ) := by
    rw [foldl_pushLength]
    rfl
  have hpush := hlength.pushLength (by omega) last
  refine ⟨((more.foldl InPacket.pushLength start.in_packet).pushLength last).finishLength, ?_,
    hpush.1.finishLength hpush.2, ?_, ?_, ?_⟩
  · have hname : (more.foldl InPacket.pushLength start.in_packet).command ≠ 0 := by
      rw [foldl_pushLength]
      exact hcommand
    unfold remainingBytes
    rw [hbytes, Lib.exec_append, hexec, Option.bind_some, Lib.exec_cons,
      @feedByte_inLength ⟨_, handled⟩ hname hlength]
    dsimp only
    rw [if_neg (by omega), if_neg (not_not.2 hlast)]
    rfl
  · rw [hfold]
    rfl
  · rw [hfold]
    rfl
  · rw [hfold]
    unfold InPacket.finishLength
    dsimp only
    have hzero : (0 : ℕ) + n * 1 = n := by omega
    change (if 0 < (List.foldl Lib.VarInt.push ⟨0, 1⟩ (Lib.varInt 5 n)).value then
      (List.foldl Lib.VarInt.push ⟨0, 1⟩ (Lib.varInt 5 n)).value else 0) = n
    rw [hvalue, hzero]
    split_ifs <;> omega

/-- The bytes of a packet that the library sends make the packet. -/
theorem exec_feedByte_wire {p : Packet} (h : p.Sendable) (handled : List Packet) :
    Lib.exec feedByte ⟨.cleanup, handled⟩ p.wire = some ⟨.cleanup, handled ++ [p]⟩ := by
  obtain ⟨q, hexec, hpayload, hcommand, hempty, hmissing⟩ :=
    exec_feedByte_length h.command_ne h.length_le handled
  have hfeed : feedByte ⟨.cleanup, handled⟩ p.command =
      some ⟨{ InPacket.cleanup with command := p.command }, handled⟩ := by
    have hidle : InPacket.cleanup.command = 0 := rfl
    unfold feedByte
    dsimp only
    rw [if_pos hidle, if_neg h.command_ne]
  unfold Packet.wire
  rw [List.cons_append, Lib.exec_cons, hfeed, Option.bind_some, Lib.exec_append, hexec,
    Option.bind_some]
  rcases eq_or_ne p.body [] with hbody | hbody
  · rw [hbody, Lib.exec_nil]
    rw [hbody, List.length_nil] at hmissing
    rw [settle_of_inPayload (c := ⟨q, handled⟩) hpayload hmissing]
    unfold Conn.deliver
    dsimp only
    rw [hcommand, hempty, ← hbody]
  · have hpos := List.length_pos_of_ne_nil hbody
    rw [settle_of_pos (c := ⟨q, handled⟩) (by rw [hmissing]; exact hpos),
      @exec_feedByte_payload ⟨q, handled⟩ (by rw [hcommand]; exact h.command_ne) hpayload p.body
        hbody (Nat.le_of_eq hmissing.symm)]
    have hdone : (q.pushPayload p.body).to_process = 0 := by
      unfold InPacket.pushPayload
      dsimp only
      omega
    rw [settle_of_inPayload (c := ⟨q.pushPayload p.body, handled⟩)
      (hpayload.pushPayload (Nat.le_of_eq hmissing.symm)) hdone]
    unfold Conn.deliver InPacket.pushPayload
    dsimp only
    rw [hcommand, hempty, List.nil_append]

theorem exec_feedByte_wires {ps : List Packet} (h : ∀ p ∈ ps, p.Sendable) (handled : List Packet) :
    Lib.exec feedByte ⟨.cleanup, handled⟩ (ps.flatMap Packet.wire) =
      some ⟨.cleanup, handled ++ ps⟩ := by
  induction ps generalizing handled with
  | nil => simp
  | cons p ps ih =>
    rw [List.flatMap_cons, Lib.exec_append, exec_feedByte_wire (h p List.mem_cons_self),
      Option.bind_some, ih fun q hq => h q (List.mem_cons_of_mem p hq), List.append_assoc]
    rfl

/-! ## Enough calls read everything -/

/-- How much a socket still has: its pieces and failures, and the bytes in them. -/
def weight (sock : List Recv) : ℕ := sock.length + (unread sock).length

/-- `net__read` fails only for now. -/
def Calm (sock : List Recv) : Prop :=
  ∀ f, Recv.failure f ∈ sock → f = .again ∨ f = .intr

theorem calm_pushBack {l : List UInt8} {sock : List Recv} (h : Calm sock) :
    Calm (pushBack l sock) := by
  cases l with
  | nil => exact h
  | cons b bs =>
    intro f hf
    rcases List.mem_cons.1 hf with hf | hf
    · cases hf
    · exact h f hf

/-- What a call of `net__read` leaves: no more than before, and less if there was anything. -/
theorem netRead_after {count : ℕ} (hcount : 0 < count) (sock : List Recv) :
    weight (netRead count sock).2 ≤ weight sock ∧
      (sock ≠ [] → weight (netRead count sock).2 < weight sock) ∧
      (Calm sock → Calm (netRead count sock).2) := by
  rcases sock with - | ⟨⟨b, bs⟩ | f, sock⟩
  · exact ⟨Nat.le_refl _, fun h => absurd rfl h, id⟩
  · have hlength : (pushBack ((b :: bs).drop count) sock).length ≤ sock.length + 1 := by
      cases (b :: bs).drop count with
      | nil => exact Nat.le_succ _
      | cons c cs => exact Nat.le_refl _
    have hlt : weight (pushBack ((b :: bs).drop count) sock) < weight (.data b bs :: sock) := by
      unfold weight
      rw [unread_pushBack, unread, List.length_append, List.length_append, List.length_drop,
        List.length_cons, List.length_cons]
      omega
    refine ⟨Nat.le_of_lt hlt, fun _ => hlt, fun hcalm => calm_pushBack fun f hf => ?_⟩
    exact hcalm f (List.mem_cons_of_mem _ hf)
  · have hlt : weight sock < weight (.failure f :: sock) := by
      unfold weight
      rw [unread, List.length_cons]
      omega
    refine ⟨Nat.le_of_lt hlt, fun _ => hlt, fun hcalm g hg => ?_⟩
    exact hcalm g (List.mem_cons_of_mem _ hg)

/-- A part that has read on, and returned only where `net__read` failed for now. -/
structure ReadOn (sock : List Recv) (part : Part) : Prop where
  weight_le : weight part.sock ≤ weight sock
  calm : Calm sock → Calm part.sock
  returned : Calm sock → ∀ rc, part.returned = some rc → rc = .success ∨ rc = .malformedPacket

theorem ReadOn.refl {c : Conn} (sock : List Recv) : ReadOn sock ⟨c, sock, none⟩ :=
  ⟨Nat.le_refl _, id, fun _ rc hrc => by cases hrc⟩

theorem ReadOn.trans {sock : List Recv} {part part' : Part} (h : ReadOn sock part)
    (h' : ReadOn part.sock part') : ReadOn sock part' :=
  ⟨h'.weight_le.trans h.weight_le, fun hcalm => h'.calm (h.calm hcalm),
    fun hcalm => h'.returned (h.calm hcalm)⟩

theorem ReadOn.andThen {sock : List Recv} {part : Part} {f : Conn → List Recv → Part}
    (h : ReadOn sock part) (hf : ∀ c sock, ReadOn sock (f c sock)) :
    ReadOn sock (part.andThen f) := by
  unfold Part.andThen
  split
  · exact h
  · exact h.trans (hf _ _)

theorem headerRc_calm {f : RecvFailure} (h : f = .again ∨ f = .intr) : headerRc f = .success := by
  rcases h with rfl | rfl <;> rfl

theorem payloadRc_calm {f : RecvFailure} (h : f = .again ∨ f = .intr) : payloadRc f = .success := by
  rcases h with rfl | rfl <;> rfl

/-- A failure that `net__read` reports was at the head of the socket, or there was nothing. -/
theorem netRead_error_calm {count : ℕ} {sock sock' : List Recv} {f : RecvFailure}
    (hcalm : Calm sock) (h : netRead count sock = (.error f, sock')) : f = .again ∨ f = .intr := by
  rcases sock with - | ⟨⟨b, bs⟩ | g, sock⟩
  · cases h
    exact Or.inl rfl
  · cases h
  · cases h
    exact hcalm f List.mem_cons_self

theorem readOn_readCommand (c : Conn) (sock : List Recv) : ReadOn sock (readCommand c sock) := by
  have hafter := netRead_after Nat.one_pos sock
  unfold readCommand
  split_ifs
  · exact ReadOn.refl sock
  · split <;> rename_i hread <;> rw [hread] at hafter
    · exact ⟨hafter.1, hafter.2.2, fun _ rc hrc => by cases hrc⟩
    · refine ⟨hafter.1, hafter.2.2, fun hcalm rc hrc => ?_⟩
      cases hrc
      exact Or.inl (headerRc_calm (netRead_error_calm hcalm hread))

theorem readOn_lengthLoop (fuel : ℕ) (c : Conn) (sock : List Recv) :
    ReadOn sock (lengthLoop fuel c sock) := by
  induction fuel generalizing c sock with
  | zero => exact ⟨Nat.le_refl _, id, fun _ rc hrc => by cases hrc; exact Or.inr rfl⟩
  | succ fuel ih =>
    have hafter := netRead_after Nat.one_pos sock
    unfold lengthLoop
    split <;> rename_i hread <;> rw [hread] at hafter
    · refine ⟨hafter.1, hafter.2.2, fun hcalm rc hrc => ?_⟩
      cases hrc
      exact Or.inl (headerRc_calm (netRead_error_calm hcalm hread))
    · dsimp only
      split_ifs
      · exact ⟨hafter.1, hafter.2.2, fun _ rc hrc => by cases hrc; exact Or.inr rfl⟩
      · refine @ReadOn.trans _ ⟨c, _, none⟩ _ ⟨hafter.1, hafter.2.2, ?_⟩ (ih _ _)
        exact fun _ rc hrc => by cases hrc
      · exact ⟨hafter.1, hafter.2.2, fun _ rc hrc => by cases hrc⟩

theorem readOn_readLength (c : Conn) (sock : List Recv) : ReadOn sock (readLength c sock) := by
  unfold readLength
  split_ifs
  · exact readOn_lengthLoop 5 c sock
  · exact ReadOn.refl sock

theorem readOn_payloadLoop (fuel : ℕ) (c : Conn) (sock : List Recv) :
    ReadOn sock (payloadLoop fuel c sock) := by
  induction fuel generalizing c sock with
  | zero => exact ReadOn.refl sock
  | succ fuel ih =>
    unfold payloadLoop
    split_ifs with hzero
    · exact ReadOn.refl sock
    · have hafter := netRead_after (Nat.pos_of_ne_zero hzero) sock
      split <;> rename_i hread <;> rw [hread] at hafter
      · refine ⟨hafter.1, hafter.2.2, fun hcalm rc hrc => ?_⟩
        cases hrc
        exact Or.inl (payloadRc_calm (netRead_error_calm hcalm hread))
      · refine @ReadOn.trans _ ⟨c, _, none⟩ _ ⟨hafter.1, hafter.2.2, ?_⟩ (ih _ _)
        exact fun _ rc hrc => by cases hrc

theorem weight_andThen_lt {part : Part} {f : Conn → List Recv → Part} {sock : List Recv}
    (hlt : weight part.sock < weight sock) (hf : ∀ c sock, ReadOn sock (f c sock)) :
    weight (part.andThen f).sock < weight sock := by
  unfold Part.andThen
  split
  · exact hlt
  · exact Nat.lt_of_le_of_lt (hf _ _).weight_le hlt

theorem weight_readCommand_lt {c : Conn} (hcommand : c.in_packet.command = 0) {sock : List Recv}
    (hne : sock ≠ []) : weight (readCommand c sock).sock < weight sock := by
  have hafter := (netRead_after Nat.one_pos sock).2.1 hne
  unfold readCommand
  rw [if_neg (not_not.2 hcommand)]
  split <;> rename_i hread <;> rw [hread] at hafter <;> exact hafter

theorem weight_lengthLoop_lt (fuel : ℕ) (c : Conn) {sock : List Recv} (hne : sock ≠ []) :
    weight (lengthLoop (fuel + 1) c sock).sock < weight sock := by
  have hafter := (netRead_after Nat.one_pos sock).2.1 hne
  unfold lengthLoop
  split <;> rename_i hread <;> rw [hread] at hafter
  · exact hafter
  · dsimp only
    split_ifs
    · exact hafter
    · exact Nat.lt_of_le_of_lt (readOn_lengthLoop fuel _ _).weight_le hafter
    · exact hafter

theorem weight_readPayload_lt {c : Conn} (hpos : 0 < c.in_packet.to_process) {sock : List Recv}
    (hne : sock ≠ []) : weight (readPayload c sock).sock < weight sock := by
  have hafter := (netRead_after hpos sock).2.1 hne
  unfold readPayload
  obtain ⟨fuel, hfuel⟩ := Nat.exists_eq_succ_of_ne_zero (Nat.pos_iff_ne_zero.1 hpos)
  rw [hfuel]
  unfold payloadLoop
  rw [if_neg (Nat.pos_iff_ne_zero.1 hpos)]
  split <;> rename_i hread <;> rw [hread] at hafter
  · exact hafter
  · exact Nat.lt_of_le_of_lt (readOn_payloadLoop fuel _ _).weight_le hafter

/-- Every call takes something off a socket that has anything. -/
theorem weight_packetRead_lt (handle : Packet → MosqErr) {c : Conn} (hok : c.in_packet.Ok)
    {sock : List Recv} (hne : sock ≠ []) :
    weight (packetRead handle c sock).sock < weight sock := by
  unfold packetRead receive
  have hpayload : ∀ c sock, ReadOn sock (readPayload c sock) :=
    fun c sock => readOn_payloadLoop _ c sock
  have hlast : ∀ part : Part, weight (part.andThen fun c sock =>
      ⟨c.deliver, sock, some (handle ⟨c.in_packet.command, c.in_packet.payload⟩)⟩).sock =
      weight part.sock := by
    intro part
    unfold Part.andThen
    split <;> rfl
  rw [hlast]
  by_cases hcommand : c.in_packet.command = 0
  · have hlt := weight_readCommand_lt hcommand hne
    exact weight_andThen_lt (weight_andThen_lt hlt readOn_readLength) hpayload
  · have hfirst : readCommand c sock = ⟨c, sock, none⟩ := by
      unfold readCommand
      exact if_pos hcommand
    rw [hfirst]
    unfold readLength
    by_cases hcount : c.in_packet.remaining_count ≤ 0
    · have hlt : weight ((⟨c, sock, none⟩ : Part).andThen readLength).sock < weight sock := by
        change weight (readLength c sock).sock < weight sock
        unfold readLength
        rw [if_pos hcount]
        exact weight_lengthLoop_lt 4 c hne
      exact weight_andThen_lt hlt hpayload
    · have hpos : 0 < c.in_packet.to_process :=
        hok.elim (fun h => absurd h.nonpos hcount) fun h => h.2
      change weight ((if c.in_packet.remaining_count ≤ 0 then lengthLoop 5 c sock
        else ⟨c, sock, none⟩ : Part).andThen readPayload).sock < weight sock
      rw [if_neg hcount]
      exact weight_readPayload_lt hpos hne

/-- A stream that the byte reader gets through makes no call fail, as long as the handlers
and the network do not. -/
theorem returned_packetRead {handle : Packet → MosqErr} (hhandle : ∀ p, handle p = .success)
    {c : Conn} (hok : c.in_packet.Ok) {sock : List Recv} (hcalm : Calm sock)
    (hreadable : Readable c sock) : (packetRead handle c sock).returned = some .success := by
  have hread : ReadOn sock (receive c sock) :=
    ((readOn_readCommand c sock).andThen readOn_readLength).andThen
      fun c sock => readOn_payloadLoop _ c sock
  have hunrefused := (fed_receive hok hreadable).2
  unfold packetRead Part.andThen
  split
  case h_1 rc hreturned =>
    rcases hread.returned hcalm rc hreturned with rfl | rfl
    · exact hreturned
    · exact absurd hreturned hunrefused
  case h_2 => exact congrArg some (hhandle _)

theorem after_packetRead (handle : Packet → MosqErr) (c : Conn) (sock : List Recv) :
    (packetRead handle c sock).sock = (receive c sock).sock := by
  unfold packetRead Part.andThen
  split <;> rfl

/-- As many calls as the socket has pieces, failures and bytes read all of it. -/
theorem reads_all {handle : Packet → MosqErr} (hhandle : ∀ p, handle p = .success) {n : ℕ}
    {c : Conn} (hok : c.in_packet.Ok) {sock : List Recv} (hcalm : Calm sock)
    (hreadable : Readable c sock) (hn : weight sock ≤ n) :
    (reads handle n c sock).sock = [] ∧ (reads handle n c sock).returned = some .success := by
  induction n generalizing c sock with
  | zero =>
    have hnil : sock.length = 0 := by
      unfold weight at hn
      omega
    exact ⟨List.eq_nil_of_length_eq_zero hnil, rfl⟩
  | succ n ih =>
    have hread : ReadOn sock (receive c sock) :=
      ((readOn_readCommand c sock).andThen readOn_readLength).andThen
        fun c sock => readOn_payloadLoop _ c sock
    have hsuccess := returned_packetRead hhandle hok hcalm hreadable
    have hgood := good_packetRead handle hok sock
    unfold Part.Good at hgood
    rw [hsuccess] at hgood
    have hweight : weight (packetRead handle c sock).sock ≤ n := by
      rcases eq_or_ne sock [] with rfl | hne
      · rw [after_packetRead]
        exact hread.weight_le.trans (Nat.zero_le n)
      · have hlt := weight_packetRead_lt handle hok hne
        omega
    have hcalm' : Calm (packetRead handle c sock).sock := by
      rw [after_packetRead]
      exact hread.calm hcalm
    unfold reads
    dsimp only
    rw [if_pos hsuccess]
    exact ih (hgood.resolve_left (by decide)) hcalm'
      ((fed_packetRead handle hok hreadable).readable hreadable) hweight

/-- Where they have, `in_packet` and the packets handed over are what a reader of single
bytes makes of the stream. -/
theorem conn_reads_all {handle : Packet → MosqErr} (hhandle : ∀ p, handle p = .success) {n : ℕ}
    {c : Conn} (hok : c.in_packet.Ok) {sock : List Recv} (hcalm : Calm sock)
    (hreadable : Readable c sock) (hn : weight sock ≤ n) :
    Lib.exec feedByte c (unread sock) = some (reads handle n c sock).conn := by
  obtain ⟨hempty, hsuccess⟩ := reads_all hhandle hok hcalm hreadable hn
  obtain ⟨l, hunread, hexec⟩ := fed_reads handle n hok hreadable
  have hok' := ok_reads handle n hok sock (by rw [hsuccess]; decide)
  rw [hempty, unread, List.append_nil] at hunread
  rw [settle_of_ok hok, settle_of_ok hok'] at hexec
  rw [hunread, hexec]

/-- Whatever a peer sends, in whatever pieces and with whatever failures between them, and
whatever the handlers return: until a length is refused, at most four bytes of it were read,
and the payload stays within the length that was announced, which four groups can tell. -/
theorem reads_bounded (handle : Packet → MosqErr) (n : ℕ) (sock : List Recv)
    (hrc : (reads handle n ⟨.cleanup, []⟩ sock).returned ≠ some .malformedPacket) :
    let p := (reads handle n ⟨.cleanup, []⟩ sock).conn.in_packet
    (-4 ≤ p.remaining_count) ∧ p.payload.length + p.to_process ≤ 268435455 ∧
      (0 < p.remaining_count → p.payload.length + p.to_process = p.remaining_length) := by
  rcases ok_reads handle n (Or.inl InPacket.inLength_cleanup) sock hrc with h | ⟨h, -⟩
  · refine ⟨h.ge, ?_, fun hpos => absurd hpos (not_lt.2 h.nonpos)⟩
    rw [h.payload_eq, h.to_process_eq]
    decide
  · refine ⟨?_, ?_, fun _ => h.length_eq⟩
    · have hpos := h.pos
      omega
    · rw [h.length_eq]
      exact h.length_le

/-- A PUBLISH that announces 300 bytes, of which three have come. -/
theorem reads_bounded_publish :
    let p := (reads (fun _ => .success) 2 ⟨.cleanup, []⟩
      [.data CMD_PUBLISH [0xAC, 2, 1, 2], .failure .again, .data 3 []]).conn.in_packet
    (-4 ≤ p.remaining_count) ∧ p.payload.length + p.to_process ≤ 268435455 ∧
      (0 < p.remaining_count → p.payload.length + p.to_process = p.remaining_length) :=
  reads_bounded (fun _ => .success) 2
    [.data CMD_PUBLISH [0xAC, 2, 1, 2], .failure .again, .data 3 []] (by decide)

theorem ok_init : (⟨.cleanup, []⟩ : Conn).in_packet.Ok := Or.inl InPacket.inLength_cleanup

/-- The beginning of a stream of packets makes the beginning of their list. -/
theorem handled_of_begins {ps : List Packet} (h : ∀ p ∈ ps, p.Sendable) {l : List UInt8}
    (hl : l <+: ps.flatMap Packet.wire) :
    ∃ c, Lib.exec feedByte ⟨.cleanup, []⟩ l = some c ∧ c.handled <+: ps := by
  obtain ⟨rest, hrest⟩ := hl
  have hall := exec_feedByte_wires h []
  rw [← hrest, Lib.exec_append, List.nil_append] at hall
  cases hexec : Lib.exec feedByte ⟨.cleanup, []⟩ l with
  | none =>
    rw [hexec] at hall
    cases hall
  | some c =>
    rw [hexec] at hall
    exact ⟨c, rfl, handled_exec hall⟩

end Mqtt

end DeviceClient
