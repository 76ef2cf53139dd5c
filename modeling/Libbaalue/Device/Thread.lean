import Libbaalue.Device.Mgmt
import Libbaalue.Foundations.Memoryless

/-!
# The variables of `baa_device_mgmt_th`

The device management server with the bytes of its buffers: `buf` and the `struct
sockaddr_storage` are cleared by `memset` at the head of the loop, and `recvfrom` writes the
front of each. A cleared buffer holds nothing of what was received before
(`DeviceThread.clean_eq`), so that the thread does what `baaDeviceMgmtTh` does, where an address
is only its bytes (`trace_baaDeviceMgmtTh`).

Between two datagrams the thread calls nothing that could write to its variables, so all that is to
be shown is that the two `memset`s at the head of the loop cover them. `FullLen` and `SenderFits`
say when the address is received whole. That the thread makes the same calls as `baaDeviceMgmtTh` is
a simulation of one machine by another, against the same answers.
-/

namespace Libbaalue

open Block

/-- `memset(m, 0, n)`. -/
def memzero (m : List Byte) (n : ℕ) : List Byte := overlay m (List.replicate n 0)

/-- Clearing a block in its full length leaves nothing of it. -/
private theorem memzero_length (m : List Byte) :
    memzero m m.length = List.replicate m.length 0 := by
  rw [memzero, overlay, List.drop_eq_nil_of_le (by simp), List.append_nil,
    List.take_of_length_le (by simp)]

/-- `sizeof(struct sockaddr_storage)`. -/
def sizeofSockaddrStorage : ℕ := 128

/-- A `struct sockaddr_storage`, by its bytes, of which there are always as many. -/
structure SockaddrStorage where
  bytes : List Byte
  length_bytes : bytes.length = sizeofSockaddrStorage
  deriving DecidableEq

/-- `memset` over the first `n` bytes of an address. -/
def SockaddrStorage.memset (addr : SockaddrStorage) (n : ℕ) : SockaddrStorage :=
  ⟨memzero addr.bytes n, (length_overlay _ _).trans addr.length_bytes⟩

/-- What `recvfrom` makes of an address, in the first `len` bytes. -/
def SockaddrStorage.receive (addr : SockaddrStorage) (len : ℕ) (sender : List Byte) :
    SockaddrStorage :=
  ⟨overlay addr.bytes (sender.take len), (length_overlay _ _).trans addr.length_bytes⟩

/-- `memset(buf, 0, BAA_MAX_LEN_MSG)`. -/
def MsgBuf.memset (buf : MsgBuf) : MsgBuf :=
  ⟨memzero buf.bytes baaMaxLenMsg, (length_overlay _ _).trans buf.length_bytes⟩

/-- The variables of the server thread, with the bytes that are left in its buffers from one turn to
the next. -/
structure DeviceThread where
  pc : DeviceServerPc
  buf : MsgBuf
  numRead : ℤ
  numSend : ℤ
  addr : SockaddrStorage
  len : ℕ
  deriving DecidableEq

/-- A call of the thread with its arguments; `halt` is `system("init 0")`, `reboot`
`system("init 6")`. -/
inductive DeviceThreadCall
  | recvfrom
  | sendto (ptype : Byte) (addr : SockaddrStorage) (len : ℕ)
  | halt
  | reboot
  deriving DecidableEq

/-- The head of the loop: `CLEAN_DEVICE_MGMT_PROPS`. The two `memset`s are over all bytes of what
they clear. -/
def DeviceThread.clean (s : DeviceThread) : DeviceThread :=
  { s with
    pc := .recvfrom, numRead := 0, numSend := 0, len := sizeofSockaddrStorage
    addr := s.addr.memset sizeofSockaddrStorage, buf := s.buf.memset }

/-- The first byte of the buffer. -/
def DeviceThread.ptype (s : DeviceThread) : Byte := s.buf.bytes.getD 0 0

/-- The `switch` on the first byte, up to the acknowledgement. -/
def DeviceThread.dispatch (s : DeviceThread) : DeviceThread :=
  if s.ptype = ptypeDeviceMgmt then { s with pc := .rcvAck }
  else if s.ptype = ptypeDeviceMgmtHalt then { s with pc := .rcvAck }
  else if s.ptype = ptypeDeviceMgmtReboot then { s with pc := .rcvAck }
  else if s.ptype = ptypeDeviceMgmtPing then { s with pc := .rcvAck }
  else s.clean

/-- What follows the `recvfrom`; the sender of a datagram is the bytes of its address. -/
def DeviceThread.afterRecv (s : DeviceThread) : Option Datagram → DeviceThread
  | none => s.clean
  | some d => DeviceThread.dispatch
      { s with
        buf := s.buf.receive d.payload
        numRead := (min d.payload.length baaMaxLenMsg : ℕ)
        addr := s.addr.receive s.len d.sender
        len := d.sender.length }

/-- What follows the acknowledgement: the command. -/
def DeviceThread.afterAck (s : DeviceThread) (sent : ℤ) : DeviceThread :=
  if s.ptype = ptypeDeviceMgmtHalt then { s with numSend := sent, pc := .halt }
  else if s.ptype = ptypeDeviceMgmtReboot then { s with numSend := sent, pc := .reboot }
  else DeviceThread.clean { s with numSend := sent }

/-- `baa_device_mgmt_th`, with the bytes of its variables. -/
def baaDeviceMgmtThread : CallMachine DeviceThread DeviceThreadCall DeviceServerAnswer where
  call s :=
    match s.pc with
    | .recvfrom => .recvfrom
    | .rcvAck => .sendto ptypeRcvAck s.addr s.len
    | .halt => .halt
    | .reboot => .reboot
  resume s a :=
    match s.pc with
    | .recvfrom => s.afterRecv a.received
    | .rcvAck => s.afterAck a.sent
    | .halt => s.clean
    | .reboot => s.clean

/-! ### The head of the loop -/

/-- A cleared address. -/
def SockaddrStorage.zero : SockaddrStorage :=
  ⟨List.replicate sizeofSockaddrStorage 0, List.length_replicate⟩

/-- The variables at the head of the loop. -/
def DeviceThread.fresh : DeviceThread :=
  ⟨.recvfrom, .zero, 0, 0, .zero, sizeofSockaddrStorage⟩

private theorem MsgBuf.memset_eq (buf : MsgBuf) : buf.memset = .zero := by
  obtain ⟨bytes, hbytes⟩ := buf
  simp only [MsgBuf.memset, MsgBuf.zero, MsgBuf.mk.injEq, ← hbytes]
  exact memzero_length bytes

private theorem SockaddrStorage.memset_eq (addr : SockaddrStorage) :
    addr.memset sizeofSockaddrStorage = .zero := by
  obtain ⟨bytes, hbytes⟩ := addr
  simp only [SockaddrStorage.memset, SockaddrStorage.zero, SockaddrStorage.mk.injEq, ← hbytes]
  exact memzero_length bytes

/-- **Nothing is left at the head of the loop**, whatever the variables held: they are the same each
time. -/
theorem DeviceThread.clean_eq (s : DeviceThread) : s.clean = .fresh := by
  rw [DeviceThread.clean, s.buf.memset_eq, s.addr.memset_eq]
  rfl

/-- Every way back to the `recvfrom` leads through the head of the loop. -/
theorem DeviceThread.resume_eq_fresh {s : DeviceThread} {a : DeviceServerAnswer}
    (h : (baaDeviceMgmtThread.resume s a).pc = .recvfrom) :
    baaDeviceMgmtThread.resume s a = .fresh := by
  have hdispatch : ∀ s : DeviceThread, s.dispatch.pc = .recvfrom → s.dispatch = .fresh := by
    intro s hpc
    rw [dispatch] at hpc ⊢
    split_ifs at hpc ⊢
    exact s.clean_eq
  have hafter : ∀ (s : DeviceThread) (sent : ℤ), (s.afterAck sent).pc = .recvfrom →
      s.afterAck sent = .fresh := by
    intro s sent hpc
    rw [afterAck] at hpc ⊢
    split_ifs at hpc ⊢
    exact clean_eq _
  rcases hpc : s.pc with _ | _ | _ | _ <;> simp only [baaDeviceMgmtThread, hpc] at h ⊢
  · rcases hrecv : a.received with _ | d <;> rw [hrecv] at h
    · exact s.clean_eq
    · exact hdispatch _ h
  · exact hafter s a.sent h
  · exact s.clean_eq
  · exact s.clean_eq

/-- The thread forgets all it has received. -/
theorem forgets_baaDeviceMgmtThread :
    baaDeviceMgmtThread.Forgets id (fun s => s.pc = .recvfrom) .fresh where
  call_eq h := congrArg _ h
  resume_eq h a := congrArg (baaDeviceMgmtThread.resume · a) h
  fresh_of_home h := DeviceThread.resume_eq_fresh h

/-! ### The address as its bytes -/

/-- The thread, its address the bytes that were received. -/
def DeviceThread.toServer (s : DeviceThread) : DeviceServer :=
  { pc := s.pc, buf := s.buf, numRead := s.numRead, numSend := s.numSend
    addr := if s.pc = .recvfrom then [] else s.addr.bytes.take s.len }

@[inherit_doc DeviceThread.toServer]
def DeviceThreadCall.toServer : DeviceThreadCall → DeviceServerCall
  | recvfrom => .recvfrom
  | sendto ptype addr len => .sendto ptype (addr.bytes.take len)
  | halt => .halt
  | reboot => .reboot

/-- The length is the full one in front of a `recvfrom`, so that an address is not cut. -/
def DeviceThread.FullLen (s : DeviceThread) : Prop :=
  s.pc = .recvfrom → s.len = sizeofSockaddrStorage

/-- A sender's address fits into a `struct sockaddr_storage`. -/
def SenderFits (a : DeviceServerAnswer) : Prop :=
  ∀ d, a.received = some d → d.sender.length ≤ sizeofSockaddrStorage

private theorem toServer_clean (s : DeviceThread) : s.clean.toServer = .loop := by
  rw [s.clean_eq]
  rfl

/-- A received address is the bytes of its sender. -/
private theorem SockaddrStorage.take_receive (addr : SockaddrStorage) {sender : List Byte}
    (h : sender.length ≤ sizeofSockaddrStorage) :
    (addr.receive sizeofSockaddrStorage sender).bytes.take sender.length = sender := by
  have hfits : sender.length ≤ addr.bytes.length := h.trans_eq addr.length_bytes.symm
  change (overlay addr.bytes (sender.take sizeofSockaddrStorage)).take sender.length = sender
  rw [List.take_of_length_le h, overlay_of_le hfits, List.take_left]

/-- The `switch` looks at the buffer only. -/
private theorem toServer_dispatch (s : DeviceThread) :
    DeviceServer.dispatch ⟨s.pc, s.buf, s.numRead, s.numSend, s.addr.bytes.take s.len⟩ =
      s.dispatch.toServer := by
  have hptype : DeviceServer.ptype ⟨s.pc, s.buf, s.numRead, s.numSend, s.addr.bytes.take s.len⟩ =
      s.ptype := rfl
  rw [DeviceServer.dispatch, DeviceThread.dispatch, hptype]
  split_ifs
  case neg => exact (toServer_clean s).symm
  all_goals rfl

private theorem toServer_afterRecv {s : DeviceThread} (hpc : s.pc = .recvfrom) (hlen : s.FullLen)
    {received : Option Datagram}
    (h : ∀ d, received = some d → d.sender.length ≤ sizeofSockaddrStorage) :
    s.toServer.afterRecv received = (s.afterRecv received).toServer := by
  rcases received with _ | d
  · exact (toServer_clean s).symm
  · rw [DeviceThread.afterRecv, ← toServer_dispatch]
    simp only [hlen hpc, s.addr.take_receive (h d rfl)]
    rfl

private theorem toServer_afterAck {s : DeviceThread} (hpc : s.pc = .rcvAck) (sent : ℤ) :
    s.toServer.afterAck sent = (s.afterAck sent).toServer := by
  have hptype : s.toServer.ptype = s.ptype := rfl
  rw [DeviceServer.afterAck, DeviceThread.afterAck, hptype]
  split_ifs
  · simp [DeviceThread.toServer, hpc]
  · simp [DeviceThread.toServer, hpc]
  · exact (toServer_clean _).symm

/-- **The thread does what the server does**: against answers whose addresses fit, it makes the
calls of the machine without buffers. -/
theorem trace_baaDeviceMgmtTh {as : List DeviceServerAnswer} (has : ∀ a ∈ as, SenderFits a) :
    baaDeviceMgmtTh.trace .loop as =
      (baaDeviceMgmtThread.trace .fresh as).map (Prod.map DeviceThreadCall.toServer id) := by
  have hkeep : ∀ (s : DeviceThread) (a : DeviceServerAnswer), s.FullLen → SenderFits a →
      (baaDeviceMgmtThread.resume s a).FullLen := fun s a _ _ hpc => by
    rw [DeviceThread.resume_eq_fresh hpc]
    rfl
  have hcall : ∀ s : DeviceThread, s.FullLen →
      baaDeviceMgmtTh.call s.toServer = (baaDeviceMgmtThread.call s).toServer := fun s _ => by
    rcases hpc : s.pc with _ | _ | _ | _ <;>
      simp only [baaDeviceMgmtTh, baaDeviceMgmtThread, DeviceThread.toServer, hpc] <;> rfl
  have hresume : ∀ (s : DeviceThread) (a : DeviceServerAnswer), s.FullLen → SenderFits a →
      baaDeviceMgmtTh.resume s.toServer (id a) = (baaDeviceMgmtThread.resume s a).toServer := by
    intro s a hlen hfits
    have hpc' : s.toServer.pc = s.pc := rfl
    rcases hpc : s.pc with _ | _ | _ | _ <;>
      simp only [baaDeviceMgmtTh, baaDeviceMgmtThread, hpc', hpc, id]
    · exact toServer_afterRecv hpc hlen hfits
    · exact toServer_afterAck hpc a.sent
    · exact (toServer_clean s).symm
    · exact (toServer_clean s).symm
  have hsim := CallMachine.trace_map hkeep hcall hresume (s := .fresh) (fun _ => rfl)
    (CallMachine.along_of_forall has DeviceThread.fresh)
  rwa [List.map_id] at hsim

end Libbaalue
