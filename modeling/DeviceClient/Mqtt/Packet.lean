import DeviceClient.Lib.VarInt

/-!
# MQTT packets

A packet is a command byte, the length of what follows in groups of seven bits
(`remaining_length`), and that many bytes. `packet__alloc` writes the first two parts.

* `packetAlloc_isOk_iff`: a packet can be built iff its length fits four groups.
* `varintBytes_eq_length`: `packet__varint_bytes` counts the groups that `packet__alloc`
  writes.
-/

namespace DeviceClient

/-- The return codes of the MQTT library that the modelled functions use. -/
inductive MosqErr where
  | success
  | nomem
  | protocol
  | inval
  | noConn
  | connRefused
  | notFound
  | connLost
  | payloadSize
  | errno
  | malformedUtf8
  | keepalive
  | malformedPacket
deriving DecidableEq, Repr

namespace Mqtt

/-! ## Message types -/

def CMD_CONNECT : UInt8 := 0x10
def CMD_CONNACK : UInt8 := 0x20
def CMD_PUBLISH : UInt8 := 0x30
def CMD_PUBACK : UInt8 := 0x40
def CMD_PUBREC : UInt8 := 0x50
def CMD_PUBREL : UInt8 := 0x60
def CMD_PUBCOMP : UInt8 := 0x70
def CMD_SUBSCRIBE : UInt8 := 0x80
def CMD_SUBACK : UInt8 := 0x90
def CMD_PINGREQ : UInt8 := 0xC0
def CMD_PINGRESP : UInt8 := 0xD0
def CMD_DISCONNECT : UInt8 := 0xE0

/-! ## The fixed header -/

/-- The loop of `packet__alloc`: `remaining_bytes`, five of them at most. -/
def remainingBytes (remaining_length : ℕ) : List UInt8 := Lib.varInt 5 remaining_length

/-- `packet__alloc`: the command and the length. The caller writes the rest. -/
def packetAlloc (command : UInt8) (remaining_length : ℕ) : Except MosqErr (List UInt8) :=
  if (remainingBytes remaining_length).length = 5 then .error .payloadSize
  else .ok (command :: remainingBytes remaining_length)

/-- `packet__varint_bytes` -/
def varintBytes (word : ℕ) : ℕ :=
  if word < 128 then 1
  else if word < 16384 then 2
  else if word < 2097152 then 3
  else if word < 268435456 then 4
  else 5

/-- The longest `remaining_length` of a packet. -/
def maxLength : ℕ := 268435455

theorem length_remainingBytes_le_iff {n k : ℕ} (hk : 0 < k) (hfour : k ≤ 4) :
    (remainingBytes n).length ≤ k ↔ n < 128 ^ k :=
  Lib.length_varInt_le_iff hk (by omega)

/-- A packet can be built iff its length fits four groups. -/
theorem packetAlloc_isOk_iff (command : UInt8) (n : ℕ) :
    (packetAlloc command n).isOk = true ↔ n ≤ maxLength := by
  have hfour := @length_remainingBytes_le_iff n 4 (by omega) (by omega)
  have hfive : (remainingBytes n).length ≤ 5 := Lib.length_varInt_le 5 n
  unfold packetAlloc maxLength
  split <;> simp [Except.isOk, Except.toBool] <;> omega

theorem varintBytes_eq_length (n : ℕ) : varintBytes n = (remainingBytes n).length := by
  have hone := @length_remainingBytes_le_iff n 1 (by omega) (by omega)
  have htwo := @length_remainingBytes_le_iff n 2 (by omega) (by omega)
  have hthree := @length_remainingBytes_le_iff n 3 (by omega) (by omega)
  have hfour := @length_remainingBytes_le_iff n 4 (by omega) (by omega)
  have hfive : (remainingBytes n).length ≤ 5 := Lib.length_varInt_le 5 n
  have hpos : 0 < (remainingBytes n).length := List.length_pos_of_ne_nil (Lib.varInt_ne_nil 4 n)
  unfold varintBytes
  split_ifs <;> omega

/-! ## Packets -/

/-- A packet as its parts: the command byte and what follows the length. -/
structure Packet where
  command : UInt8
  body : List UInt8
deriving DecidableEq, Repr

/-- The packets that the library sends: it never sends command 0, and `packet__alloc`
refuses longer ones. -/
structure Packet.Sendable (p : Packet) : Prop where
  command_ne : p.command ≠ 0
  length_le : p.body.length ≤ maxLength

instance (p : Packet) : Decidable p.Sendable :=
  decidable_of_iff (p.command ≠ 0 ∧ p.body.length ≤ maxLength)
    ⟨fun h => ⟨h.1, h.2⟩, fun h => ⟨h.command_ne, h.length_le⟩⟩

/-- The bytes of a packet. -/
def Packet.wire (p : Packet) : List UInt8 :=
  p.command :: remainingBytes p.body.length ++ p.body

theorem packetAlloc_of_sendable {p : Packet} (h : p.Sendable) :
    packetAlloc p.command p.body.length =
      .ok (p.command :: remainingBytes p.body.length) := by
  have hok := (packetAlloc_isOk_iff p.command p.body.length).2 h.length_le
  unfold packetAlloc at hok ⊢
  split_ifs at hok ⊢
  · cases hok
  · rfl

end Mqtt

end DeviceClient
