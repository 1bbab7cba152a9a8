import DeviceClient.Lib.Framing

/-!
# Messages and their bytes

`CIgniteMessage`: the message, its serialised form and the reading of that form.

The serialised form is a C structure with the data as a trailing array of one byte, so
that its size counts that byte and three of padding: the data begins at byte 24 and the
header takes 28. Four zero bytes are behind the data.

The numbers are in the byte order of the machine.
-/

namespace DeviceClient

open Lib

/-- The members of a message; `m_unLen` is the length of `m_puchMsg`. -/
structure IgniteMessage where
  m_unType : UInt32
  m_nTo : ℤ
  m_bReplyReq : Bool
  m_unSeqnum : UInt32
  m_puchMsg : List UInt8
deriving DecidableEq, Repr

namespace IgniteMessage

def MAX_MESSAGE_LENGTH : ℕ := 2097152

def SYNC_BYTES : List UInt8 := [0xFF, 0x61, 0x63, 0x70, 0x6d, 0x73, 0x67, 0xFE]

def FLAGS_REPLY_REQUIRED_BITPOS : UInt32 := 0x00000001

/-- `sizeof(SerializedMessage)`: 8 bytes, four numbers, one byte, and three of padding. -/
def MSG_HEADER_SIZE : ℕ := 28

/-! ## Building a message -/

/-- `CIgniteMessage(unType, nTo)` on the last sequence number, with the new one; `none`
is the exception. -/
def create (unType : UInt32) (nTo : ℤ) (unGlobalSeqnum : UInt32) :
    Option IgniteMessage × UInt32 :=
  if 0 < unType then (some ⟨unType, nTo, false, unGlobalSeqnum + 1, []⟩, unGlobalSeqnum + 1)
  else (none, unGlobalSeqnum)

/-- `SetMessage` of bytes; a message that is too long leaves the old one. -/
def setMessage (puchMsg : List UInt8) (m : IgniteMessage) : ℤ × IgniteMessage :=
  if puchMsg.length ≤ MAX_MESSAGE_LENGTH then (0, { m with m_puchMsg := puchMsg }) else (-1, m)

/-- `SetMessage` of a string, which is sent with its NUL unless it is empty. -/
def setMessageString (strMsg : List UInt8) (m : IgniteMessage) : ℤ × IgniteMessage :=
  if strMsg.length + 1 ≤ MAX_MESSAGE_LENGTH then
    (0, { m with m_puchMsg := if strMsg.isEmpty then [] else strMsg ++ [0] })
  else (-1, m)

/-- `SetRecipient`. -/
def setRecipient (nTo : ℤ) (m : IgniteMessage) : IgniteMessage := { m with m_nTo := nTo }

/-! ## Its bytes -/

section

variable (order : ByteOrder)

def unFlags (m : IgniteMessage) : UInt32 :=
  if m.m_bReplyReq then 0 ||| FLAGS_REPLY_REQUIRED_BITPOS else 0

/-- The members of the structure up to the data. -/
def serializedFields (m : IgniteMessage) : List UInt8 :=
  SYNC_BYTES ++ order.bytes 4 m.m_unType.toNat ++ order.bytes 4 m.unFlags.toNat ++
    order.bytes 4 m.m_unSeqnum.toNat ++ order.bytes 4 m.m_puchMsg.length

/-- `Serialize`: the fields and the data are copied over zeros. -/
def serialize (m : IgniteMessage) : List UInt8 :=
  let rnLen := MSG_HEADER_SIZE + m.m_puchMsg.length
  let written := m.serializedFields order ++ m.m_puchMsg
  written ++ List.replicate (rnLen - written.length) 0

/-- A number of the structure. -/
def field (pvoidSerializedMsg : List UInt8) (offset : ℕ) : ℕ :=
  order.number ((pvoidSerializedMsg.drop offset).take 4)

/-- `CIgniteMessage(pvoidSerializedMessage)`; `none` is the exception. -/
def ofSerialized (pvoidSerializedMessage : List UInt8) : Option IgniteMessage :=
  if 0 < field order pvoidSerializedMessage 8 then
    some {
      m_unType := UInt32.ofNat (field order pvoidSerializedMessage 8)
      m_nTo := -1
      m_bReplyReq := UInt32.ofNat (field order pvoidSerializedMessage 12) &&&
        FLAGS_REPLY_REQUIRED_BITPOS = FLAGS_REPLY_REQUIRED_BITPOS
      m_unSeqnum := UInt32.ofNat (field order pvoidSerializedMessage 16)
      m_puchMsg := (pvoidSerializedMessage.drop 24).take (field order pvoidSerializedMessage 20) }
  else none

/-- `GetMessageSize`: -1 without the sync bytes, else the length as an `int`; `none` is
the exception. -/
def getMessageSize (pvoidSerializedMsg : List UInt8) : Option ℤ :=
  if field order pvoidSerializedMsg 8 ≤ 0 then none
  else if pvoidSerializedMsg.take 8 ≠ SYNC_BYTES then some (-1)
  else some (Int.bmod (field order pvoidSerializedMsg 20) (2 ^ 32))

/-- What a stream of messages is made of, whatever the messages are. -/
def framing : Framing UInt8 where
  headerSize := MSG_HEADER_SIZE
  bodyLength := fun header => field order header 20
  headerSize_pos := by decide

end

/-! ## Reading what was written -/

variable {order : ByteOrder}

theorem field_append (pre suf : List UInt8) {offset n : ℕ} (hpre : pre.length = offset)
    (h : n < 2 ^ 32) : field order (pre ++ (order.bytes 4 n ++ suf)) offset = n := by
  unfold field
  rw [List.drop_left' hpre, List.take_left' (order.length_bytes 4 n)]
  exact order.number_bytes h

/-- The fields are in the header. -/
theorem field_take {offset : ℕ} (h : offset + 4 ≤ MSG_HEADER_SIZE) (l : List UInt8) :
    field order (l.take MSG_HEADER_SIZE) offset = field order l offset := by
  unfold field
  rw [List.drop_take, List.take_take, Nat.min_eq_left (by omega)]

theorem length_serializedFields (m : IgniteMessage) : (m.serializedFields order).length = 24 := by
  unfold serializedFields
  simp only [List.length_append, ByteOrder.length_bytes]
  rfl

theorem serialize_eq (m : IgniteMessage) :
    m.serialize order = m.serializedFields order ++ (m.m_puchMsg ++ [0, 0, 0, 0]) := by
  unfold serialize
  dsimp only
  have hpad : MSG_HEADER_SIZE + m.m_puchMsg.length -
      (m.serializedFields order ++ m.m_puchMsg).length = 4 := by
    rw [List.length_append, length_serializedFields]
    unfold MSG_HEADER_SIZE
    omega
  rw [hpad, List.append_assoc]
  rfl

theorem length_serialize (m : IgniteMessage) :
    (m.serialize order).length = MSG_HEADER_SIZE + m.m_puchMsg.length := by
  rw [serialize_eq, List.length_append, List.length_append, length_serializedFields]
  unfold MSG_HEADER_SIZE
  simp only [List.length_cons, List.length_nil]
  omega

theorem take_serialize (m : IgniteMessage) : (m.serialize order).take 8 = SYNC_BYTES := by
  rw [serialize_eq]
  unfold serializedFields
  simp only [List.append_assoc]
  exact List.take_left' rfl

/-- The fields of the serialised form. -/
theorem field_serialize (m : IgniteMessage) (hlength : m.m_puchMsg.length < 2 ^ 32) :
    field order (m.serialize order) 8 = m.m_unType.toNat ∧
      field order (m.serialize order) 12 = m.unFlags.toNat ∧
      field order (m.serialize order) 16 = m.m_unSeqnum.toNat ∧
      field order (m.serialize order) 20 = m.m_puchMsg.length := by
  rw [serialize_eq]
  unfold serializedFields
  refine ⟨?_, ?_, ?_, ?_⟩
  · rw [List.append_assoc, List.append_assoc, List.append_assoc, List.append_assoc]
    exact field_append SYNC_BYTES _ rfl m.m_unType.toNat_lt
  · rw [List.append_assoc, List.append_assoc, List.append_assoc]
    exact field_append _ _ (by simp [SYNC_BYTES]) m.unFlags.toNat_lt
  · rw [List.append_assoc, List.append_assoc]
    exact field_append _ _ (by simp [SYNC_BYTES]) m.m_unSeqnum.toNat_lt
  · rw [List.append_assoc]
    exact field_append _ _ (by simp [SYNC_BYTES]) hlength

theorem data_serialize (m : IgniteMessage) :
    ((m.serialize order).drop 24).take m.m_puchMsg.length = m.m_puchMsg := by
  rw [serialize_eq, List.drop_left' (length_serializedFields m)]
  exact List.take_left' rfl

theorem replyRequired_unFlags (m : IgniteMessage) :
    (m.unFlags &&& FLAGS_REPLY_REQUIRED_BITPOS = FLAGS_REPLY_REQUIRED_BITPOS) ↔
      m.m_bReplyReq = true := by
  unfold unFlags
  cases m.m_bReplyReq with
  | true => decide
  | false => decide

theorem isFrame_serialize (m : IgniteMessage) (hlength : m.m_puchMsg.length < 2 ^ 32) :
    (framing order).IsFrame (m.serialize order) := by
  show (m.serialize order).length = MSG_HEADER_SIZE +
    field order ((m.serialize order).take MSG_HEADER_SIZE) 20
  rw [field_take (by decide), (field_serialize m hlength).2.2.2, length_serialize]

end IgniteMessage

/-- A message as the constructors and `SetMessage` build it. -/
structure SendableMessage extends IgniteMessage where
  type_pos : 0 < m_unType
  length_le : m_puchMsg.length ≤ IgniteMessage.MAX_MESSAGE_LENGTH

namespace SendableMessage

open IgniteMessage

variable {order : ByteOrder}

theorem length_lt (m : SendableMessage) : m.m_puchMsg.length < 2 ^ 32 :=
  Nat.lt_of_le_of_lt m.length_le (by decide)

/-- A message is built from its own bytes as it was, for no recipient. -/
theorem ofSerialized_serialize (m : SendableMessage) :
    ofSerialized order (m.serialize order) = some { m.toIgniteMessage with m_nTo := -1 } := by
  rcases @field_serialize order m.toIgniteMessage m.length_lt with
    ⟨htype, hflags, hseqnum, hlength⟩
  have hpos : 0 < m.m_unType.toNat := UInt32.lt_iff_toNat_lt.1 m.type_pos
  unfold ofSerialized
  rw [htype, hflags, hseqnum, hlength, data_serialize, if_pos hpos]
  simp only [UInt32.ofNat_toNat, replyRequired_unFlags, Bool.decide_eq_true]

/-- Its header tells the length. -/
theorem getMessageSize_serialize (m : SendableMessage) :
    getMessageSize order ((m.serialize order).take MSG_HEADER_SIZE) =
      some (m.m_puchMsg.length : ℤ) := by
  rcases @field_serialize order m.toIgniteMessage m.length_lt with ⟨htype, -, -, hlength⟩
  have htake : ((m.serialize order).take MSG_HEADER_SIZE).take 8 = SYNC_BYTES := by
    rw [List.take_take]
    exact take_serialize m.toIgniteMessage
  have hpos : 0 < m.m_unType.toNat := UInt32.lt_iff_toNat_lt.1 m.type_pos
  unfold getMessageSize
  rw [field_take (by decide), field_take (by decide), htype, hlength, if_neg (by omega), if_neg
    (not_not.2 htake)]
  have hsmall : m.m_puchMsg.length < 2 ^ 31 := Nat.lt_of_le_of_lt m.length_le (by decide)
  rw [Int.bmod_eq_of_le (by omega) (by omega)]

end SendableMessage

end DeviceClient
