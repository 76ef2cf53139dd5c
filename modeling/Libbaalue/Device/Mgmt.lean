import Libbaalue.Foundations.CallMachine
import Libbaalue.Net.Datagram
import Libbaalue.Protocol

/-!
# Device management

`device_mgmt.c`: the client side, `simple_device_cmd` on a connected socket and its three
commands, and the server side, `baa_device_mgmt_th`, as the machines of their calls. The server
acknowledges a command before it executes it, with the same byte for every command.

Client and server are machines over calls of their own, as they are threads of different processes;
what lies between them is `Session`. An address is its bytes here, without the buffer it stands in,
which `Thread` justifies. The server has no state from one datagram to the next, and the order of
its two steps, acknowledge and then execute, is what makes an acknowledgement say that a command was
received and nothing more.

A call of the client ends at the first datagram on its socket, or when `recv` fails. What it makes
of the datagram is one byte: the acknowledgement is a 0, and everything else, `PTYPE_ERROR` too, a
-1.
-/

namespace Libbaalue

/-! ### The client -/

/-- The calls of `simple_device_cmd`. -/
inductive DeviceClientPc
  | send
  | recv
  | returned (ret : CInt)
  deriving DecidableEq, Repr

/-- The variables of `simple_device_cmd`. -/
structure DeviceClient where
  pc : DeviceClientPc
  cmd : Byte
  deriving DecidableEq, Repr

/-- A call of the client with its arguments. -/
inductive DeviceClientCall
  | send (payload : List Byte)
  | recv
  | returned (ret : CInt)
  deriving DecidableEq, Repr

/-- What the calls come to: the bytes sent, the payload received (`none` is -1). -/
structure DeviceClientAnswer where
  sent : ℤ
  received : Option (List Byte)
  deriving DecidableEq, Repr

/-- The `switch` on the reply. Only the acknowledgement is a success. -/
def deviceReplyRet (ptypeRcv : Byte) : CInt :=
  if ptypeRcv = ptypeError ∨ ptypeRcv = ptypeReset then -1
  else if ptypeRcv = ptypeRcvAck then 0
  else -1

/-- `simple_device_cmd`: one byte is sent, and the first datagram that comes is taken for the reply.
An empty one leaves the byte that was there before, which is 0. -/
def simpleDeviceCmd : CallMachine DeviceClient DeviceClientCall DeviceClientAnswer where
  call s :=
    match s.pc with
    | .send => .send [s.cmd]
    | .recv => .recv
    | .returned ret => .returned ret
  resume s a :=
    match s.pc with
    | .send => if a.sent ≠ 1 then { s with pc := .returned (-1) } else { s with pc := .recv }
    | .recv =>
      match a.received with
      | none => { s with pc := .returned (-1) }
      | some payload => { s with pc := .returned (deviceReplyRet (payload.headD 0x00)) }
    | .returned _ => s

/-- `baa_reboot_device`. -/
def baaRebootDevice : DeviceClient := ⟨.send, ptypeDeviceMgmtReboot⟩

/-- `baa_halt_device`. -/
def baaHaltDevice : DeviceClient := ⟨.send, ptypeDeviceMgmtHalt⟩

/-- `baa_ping_device`. -/
def baaPingDevice : DeviceClient := ⟨.send, ptypeDeviceMgmtPing⟩

/-! ### The server -/

/-- The calls of the server thread. -/
inductive DeviceServerPc
  | recvfrom
  | rcvAck
  | halt
  | reboot
  deriving DecidableEq, Repr

/-- The variables of the server thread; an address is its bytes, none for the zeroed one. -/
structure DeviceServer where
  pc : DeviceServerPc
  buf : MsgBuf
  numRead : ℤ
  numSend : ℤ
  addr : List Byte
  deriving DecidableEq

/-- A call of the server thread with its arguments. -/
inductive DeviceServerCall
  | recvfrom
  | sendto (ptype : Byte) (addr : List Byte)
  | halt
  | reboot
  deriving DecidableEq, Repr

/-- What the calls come to: the datagram received (`none` is -1), the bytes sent. -/
structure DeviceServerAnswer where
  received : Option Datagram
  sent : ℤ
  deriving DecidableEq, Repr

/-- The head of the loop: `CLEAN_DEVICE_MGMT_PROPS`. Nothing is left of the turn before. -/
def DeviceServer.loop : DeviceServer := ⟨.recvfrom, .zero, 0, 0, []⟩

/-- The first byte of the buffer. -/
def DeviceServer.ptype (s : DeviceServer) : Byte := s.buf.bytes.getD 0 0

/-- The `switch` on the first byte, up to the acknowledgement. -/
def DeviceServer.dispatch (s : DeviceServer) : DeviceServer :=
  if s.ptype = ptypeDeviceMgmt then { s with pc := .rcvAck }
  else if s.ptype = ptypeDeviceMgmtHalt then { s with pc := .rcvAck }
  else if s.ptype = ptypeDeviceMgmtReboot then { s with pc := .rcvAck }
  else if s.ptype = ptypeDeviceMgmtPing then { s with pc := .rcvAck }
  else .loop

/-- What follows the `recvfrom`. -/
def DeviceServer.afterRecv (s : DeviceServer) : Option Datagram → DeviceServer
  | none => .loop
  | some d => DeviceServer.dispatch
      { s with
        buf := s.buf.receive d.payload
        numRead := (min d.payload.length baaMaxLenMsg : ℕ)
        addr := d.sender }

/-- What follows the acknowledgement: the command. Whether the acknowledgement was sent makes no
difference. -/
def DeviceServer.afterAck (s : DeviceServer) (sent : ℤ) : DeviceServer :=
  if s.ptype = ptypeDeviceMgmtHalt then { s with numSend := sent, pc := .halt }
  else if s.ptype = ptypeDeviceMgmtReboot then { s with numSend := sent, pc := .reboot }
  else .loop

/-- `baa_device_mgmt_th`: it receives, acknowledges and performs, and does not end. -/
def baaDeviceMgmtTh : CallMachine DeviceServer DeviceServerCall DeviceServerAnswer where
  call s :=
    match s.pc with
    | .recvfrom => .recvfrom
    | .rcvAck => .sendto ptypeRcvAck s.addr
    | .halt => .halt
    | .reboot => .reboot
  resume s a :=
    match s.pc with
    | .recvfrom => s.afterRecv a.received
    | .rcvAck => s.afterAck a.sent
    | .halt => .loop
    | .reboot => .loop

/-! ### What the server acknowledges -/

/-- The types of the commands. -/
def deviceCommands : List Byte :=
  [ptypeDeviceMgmt, ptypeDeviceMgmtHalt, ptypeDeviceMgmtReboot, ptypeDeviceMgmtPing]

/-- The first byte of the buffer is the first byte received. -/
private theorem ptype_receive (d : Datagram) :
    DeviceServer.ptype ⟨.recvfrom, MsgBuf.zero.receive d.payload,
      (min d.payload.length baaMaxLenMsg : ℕ), 0, d.sender⟩ = d.payload.getD 0 0 :=
  MsgBuf.getD_receive_zero _ (by decide)

/-- A command is acknowledged to its sender, whichever it is. -/
theorem afterRecv_command {d : Datagram} (h : d.payload.getD 0 0 ∈ deviceCommands) :
    (DeviceServer.loop.afterRecv (some d)).pc = .rcvAck ∧
      (DeviceServer.loop.afterRecv (some d)).addr = d.sender := by
  simp only [deviceCommands, List.mem_cons, List.not_mem_nil, or_false] at h
  simp only [DeviceServer.afterRecv, DeviceServer.loop, DeviceServer.dispatch, ptype_receive]
  split_ifs with hmgmt hhalt hreboot hping
  case neg => exact absurd h (not_or.mpr ⟨hmgmt, not_or.mpr ⟨hhalt, not_or.mpr ⟨hreboot, hping⟩⟩⟩)
  all_goals exact ⟨rfl, rfl⟩

/-- Anything else is ignored. -/
theorem afterRecv_unknown {d : Datagram} (h : d.payload.getD 0 0 ∉ deviceCommands) :
    DeviceServer.loop.afterRecv (some d) = .loop := by
  simp only [deviceCommands, List.mem_cons, List.not_mem_nil, or_false, not_or] at h
  simp only [DeviceServer.afterRecv, DeviceServer.loop, DeviceServer.dispatch, ptype_receive]
  rw [if_neg h.1, if_neg h.2.1, if_neg h.2.2.1, if_neg h.2.2.2]

end Libbaalue
