import Ashacky.Support.Bytes

/-!
# Hid — the CTAPHID wire format

`guest/auth/fido2.py` cuts a message into 64-byte reports: an initialization packet (channel,
command, 16-bit length, the first 57 bytes) and continuation packets (channel, sequence number,
the next 59 bytes), each padded with zeros.  `packets` is that function; it raises when the
payload exceeds `maxMessage`.

The rest of the module reads the fields of a received report back (`channelOf`, `commandOf`,
`lengthOf`) and says what they are on the packets of `packets`: `init_fields` and
`continuation_fields`.
-/

namespace Ashacky.Hid
open Ashacky.Support

/-- `MAX_MESSAGE`. -/
def maxMessage : Nat := 1024

/-- `BROADCAST`. -/
def broadcast : UInt32 := 0xffffffff

-- `PING, INIT, CBOR, CANCEL, KEEPALIVE, ERROR`
namespace Cmd
def ping : UInt8 := 0x81
def init : UInt8 := 0x86
def cbor : UInt8 := 0x90
def cancel : UInt8 := 0x91
def keepalive : UInt8 := 0xbb
def error : UInt8 := 0xbf
end Cmd

/-- `struct.pack('>IB', channel, command)`. -/
def packChannel (channel : UInt32) (command : UInt8) : Data :=
  beBytes 4 channel.toNat ++ [command]

/-- The initialization packet of a message. -/
def initPacket (channel : UInt32) (command : UInt8) (payload : Data) : Data :=
  padRight 64 (packChannel channel command ++ beBytes 2 payload.length ++ payload.take 57)

/-- The continuation packet `sequence` of a message: `payload[offset:offset + 59]` at
`offset = 57 + 59 * sequence`. -/
def continuationPacket (channel : UInt32) (payload : Data) (sequence : Nat) : Data :=
  padRight 64 (packChannel channel (UInt8.ofNat sequence) ++
    (payload.drop (57 + 59 * sequence)).take 59)

/-- `len(range(57, n, 59))`. -/
def continuations (n : Nat) : Nat := (n - 57 + 58) / 59

/-- The reports of a message that `packets` accepts. -/
def reports (channel : UInt32) (command : UInt8) (payload : Data) : List Data :=
  initPacket channel command payload ::
    (List.range (continuations payload.length)).map (continuationPacket channel payload)

/-- How a call can end other than by returning: a `ValueError`, or not yet (the allocation loop
is still drawing channel numbers). -/
inductive Fault where
  | valueError (message : String)
  | drawing
  deriving DecidableEq, Repr

/-- `packets(channel, command, payload)`. -/
def packets (channel : UInt32) (command : UInt8) (payload : Data) : Except Fault (List Data) :=
  if payload.length > maxMessage then
    .error (.valueError "CTAPHID payload exceeds transport limit")
  else .ok (reports channel command payload)

theorem packets_ok {channel : UInt32} {command : UInt8} {payload : Data}
    (h : payload.length ≤ maxMessage) :
    packets channel command payload = .ok (reports channel command payload) :=
  if_neg (by omega)

/-! ### The fields of a report -/

/-- `struct.unpack('>I', packet[:4])`. -/
def channelOf (packet : Data) : UInt32 := UInt32.ofNat (beNat (slice packet 0 4))

/-- The fifth byte: a command, or the sequence number of a continuation. -/
def commandOf (packet : Data) : UInt8 := packet.getD 4 0

/-- `struct.unpack('>H', packet[5:7])`. -/
def lengthOf (packet : Data) : Nat := beNat (slice packet 5 7)

@[simp] theorem length_packChannel (channel : UInt32) (command : UInt8) :
    (packChannel channel command).length = 5 := by
  simp [packChannel]

/-- The channel and the fifth byte of anything that starts with `packChannel`. -/
theorem channelOf_packChannel (channel : UInt32) (command : UInt8) (rest : Data) :
    channelOf (packChannel channel command ++ rest) = channel := by
  have h : channel.toNat < 256 ^ 4 := channel.toNat_lt
  rw [channelOf, packChannel, List.append_assoc, slice_append_left _ (by simp), slice]
  simp only [Nat.sub_zero, List.drop_zero]
  rw [List.take_of_length_le (by simp), beNat_beBytes h, UInt32.ofNat_toNat]

theorem commandOf_packChannel (channel : UInt32) (command : UInt8) (rest : Data) :
    commandOf (packChannel channel command ++ rest) = command := by
  simp [commandOf, packChannel, List.getD]

theorem length_initPacket (channel : UInt32) (command : UInt8) (payload : Data) :
    (initPacket channel command payload).length = 64 :=
  length_padRight (by simp; omega)

theorem length_continuationPacket (channel : UInt32) (payload : Data) (sequence : Nat) :
    (continuationPacket channel payload sequence).length = 64 :=
  length_padRight (by simp; omega)

/-- **What the receiver reads from an initialization packet.** -/
theorem init_fields (channel : UInt32) (command : UInt8) {payload : Data}
    (h : payload.length ≤ maxMessage) :
    channelOf (initPacket channel command payload) = channel ∧
      commandOf (initPacket channel command payload) = command ∧
      lengthOf (initPacket channel command payload) = payload.length ∧
      slice (initPacket channel command payload) 7 (7 + min payload.length 57) =
        payload.take 57 := by
  have hlen : payload.length < 256 ^ 2 := by
    have : maxMessage = 1024 := rfl
    omega
  refine ⟨?_, ?_, ?_, ?_⟩
  · rw [initPacket, padRight, List.append_assoc, List.append_assoc, channelOf_packChannel]
  · rw [initPacket, padRight, List.append_assoc, List.append_assoc, commandOf_packChannel]
  · rw [lengthOf, initPacket, slice_padRight (by simp; omega), slice_append_left _ (by simp),
      slice_append_right _ (by simp), length_packChannel]
    rw [slice, List.take_of_length_le (by simp), Nat.sub_self, List.drop_zero, beNat_beBytes hlen]
  · rw [initPacket, slice_padRight (by simp; omega), slice_append_right _ (by simp)]
    simp [slice, Nat.min_comm]

/-- **What the receiver reads from a continuation packet**: its channel, its sequence number,
and, when `n` bytes of the message are collected, the bytes that follow them. -/
theorem continuation_fields (channel : UInt32) (payload : Data) (sequence : Nat) :
    channelOf (continuationPacket channel payload sequence) = channel ∧
      commandOf (continuationPacket channel payload sequence) = UInt8.ofNat sequence ∧
      slice (continuationPacket channel payload sequence) 5
          (5 + min 59 (payload.length - (57 + 59 * sequence))) =
        (payload.drop (57 + 59 * sequence)).take 59 := by
  refine ⟨?_, ?_, ?_⟩
  · rw [continuationPacket, padRight, List.append_assoc, channelOf_packChannel]
  · rw [continuationPacket, padRight, List.append_assoc, commandOf_packChannel]
  · rw [continuationPacket, slice_padRight (by simp), slice_append_right _ (by simp)]
    simp only [length_packChannel, Nat.sub_self, Nat.add_sub_cancel_left, slice, List.drop_zero,
      Nat.sub_zero]
    rw [List.take_of_length_le (by simp)]

end Ashacky.Hid
