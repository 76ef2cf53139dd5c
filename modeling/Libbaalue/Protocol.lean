import Libbaalue.Platform

/-!
# Protocol types and message sizes

The one-byte protocol types of `libbaalue.h` that open every datagram, and the buffers the servers
receive into.

A server clears its buffer in front of every `recvfrom` and does not look at the number of bytes
that came, so what it reads of a datagram that is shorter than a message is a zero, and what is
longer is cut. `MsgBuf` is a buffer of the right length for good, so that no store of the model can
leave it, and `MsgBuf.receive` is what a `recvfrom` does to it; that a byte that was not sent is
zero is the one fact about it that is used (`MsgBuf.getD_receive_zero`).

The values of the types are those of the header. One of them matters as a value and not just as a
name: `PTYPE_SCHED_PROPS` is 0, what a zeroed buffer holds, so that a datagram without a byte is
taken for a request.
-/

namespace Libbaalue

/-- `BAA_MAX_LEN_MSG`: the size of the message buffers. -/
def baaMaxLenMsg : ℕ := 100

/-- A message buffer, which always has `BAA_MAX_LEN_MSG` bytes. -/
structure MsgBuf where
  bytes : List Byte
  length_bytes : bytes.length = baaMaxLenMsg
  deriving DecidableEq

/-- A zeroed message buffer. -/
def MsgBuf.zero : MsgBuf := ⟨List.replicate baaMaxLenMsg 0, List.length_replicate⟩

/-- The buffer after the `recvfrom` of a payload: what does not fit is lost, what is not
written stays. -/
def MsgBuf.receive (buf : MsgBuf) (payload : List Byte) : MsgBuf :=
  ⟨Block.overlay buf.bytes payload, (Block.length_overlay _ _).trans buf.length_bytes⟩

/-- A byte of a zeroed buffer after a receive: a byte that was not sent is zero, so that a short
datagram reads as one with zeros behind it. -/
theorem MsgBuf.getD_receive_zero (payload : List Byte) {i : ℕ} (hi : i < baaMaxLenMsg) :
    (MsgBuf.zero.receive payload).bytes.getD i 0 = payload.getD i 0 := by
  rw [List.getD_eq_getElem?_getD, List.getD_eq_getElem?_getD, receive, Block.getElem?_overlay,
    zero, List.length_replicate, if_pos hi]
  split_ifs with hlt
  · rfl
  · rw [List.getElem?_replicate_of_lt hi, List.getElem?_eq_none (Nat.le_of_not_lt hlt)]
    rfl

/-! ### Protocol types -/

/-- `PTYPE_SCHED_PROPS`: set the scheduling properties of one fiber element. -/
def ptypeSchedProps : Byte := 0x00

/-- `PTYPE_DEVICE_MGMT`. -/
def ptypeDeviceMgmt : Byte := 0x01

/-- `PTYPE_DEVICE_MGMT_HALT`. -/
def ptypeDeviceMgmtHalt : Byte := 0x02

/-- `PTYPE_DEVICE_MGMT_REBOOT`. -/
def ptypeDeviceMgmtReboot : Byte := 0x03

/-- `PTYPE_DEVICE_MGMT_PING`. -/
def ptypeDeviceMgmtPing : Byte := 0x04

/-- `PTYPE_RESET`: continue with the next one or leave. -/
def ptypeReset : Byte := 0xEE

/-- `PTYPE_ERROR`: an unspecified error. -/
def ptypeError : Byte := 0xEF

/-- `PTYPE_CMD_ACK`: the command was triggered. -/
def ptypeCmdAck : Byte := 0xFD

/-- `PTYPE_RCV_ACK`: the message was received. -/
def ptypeRcvAck : Byte := 0xFF

end Libbaalue
