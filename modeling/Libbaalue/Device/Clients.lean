import Libbaalue.Device.Session
import Libbaalue.Foundations.Views
import Mathlib.Data.Fin.Basic
import Mathlib.Data.Fintype.Basic

/-!
# Many clients at one device server

One `baa_device_mgmt_th`, any number of clients, each with a connected socket of its own, and
strangers who send what they like, over a network that loses and reorders datagrams. The server
halts and reboots the machine it runs on, so whose command it performs matters.

As for the scheduling server, `DeviceClients.view` is what one client sees, and every step is a
step of its own session with the server or does not concern it (`deviceClients_views`).
`deviceClients_served` is what holds in every run: a client is credited with receptions of its
own commands only, and the server performs exactly the halts and reboots it has received, in
order, each once, and those of a client are commands the client issued.

What the views do not show is the other half of the result: that what is performed is what was
received, and that of all commands received each has an owner who issued it, or none. It is an
invariant of its own (`DeviceClients.Inv`), about the histories of the server, and its clauses are
kept by the steps of the server alone.
-/

namespace Libbaalue

/-! ### The system -/

/-- The addresses of the clients, which are different ones: the kernel gives every socket its
own. -/
structure ClientAddrs (n : ℕ) where
  addr : Fin n → List Byte
  injective : Function.Injective addr

/-- The client with an address. -/
def ClientAddrs.clientAt {n : ℕ} (addrs : ClientAddrs n) (addr : List Byte) : Option (Fin n) :=
  memberAt addrs.addr addr

/-- A command as the server got it: its number, and the byte it was sent as. -/
structure ReceivedCommand where
  id : ℕ
  ptype : Byte
  deriving DecidableEq

/-- The server performs it: a halt or a reboot. The other commands are acknowledged only. -/
def ReceivedCommand.Performed (c : ReceivedCommand) : Prop :=
  c.ptype = ptypeDeviceMgmtHalt ∨ c.ptype = ptypeDeviceMgmtReboot

instance (c : ReceivedCommand) : Decidable c.Performed := inferInstanceAs (Decidable (_ ∨ _))

/-- One client, what the network holds for it, and its histories. The network is a list without an
order that counts, as any datagram in it may be the next to come. -/
structure DeviceSide (n : ℕ) where
  client : DeviceClient
  /-- The acknowledgements under way, each with whose command it was sent for. -/
  toClient : List (Option (Fin n) × AckPacket)
  /-- The commands sent, in order. -/
  commands : List Byte
  credits : List (Option (Fin n) × AnonymousAck.Credit)
  recvFailed : Bool

/-- The clients, the server and the network, and the histories of the server. What a stranger has
sent belongs to nobody. -/
structure DeviceClients (n : ℕ) where
  side : Fin n → DeviceSide n
  server : DeviceServer
  toServer : List (Option (Fin n) × CommandPacket)
  /-- Who sent the datagram the server received last. -/
  owner : Option (Fin n)
  /-- The command the server received last. -/
  handling : ReceivedCommand
  received : List (Option (Fin n) × ReceivedCommand)
  /-- The halts and reboots performed, by the call that was made. -/
  performed : List (Option (Fin n) × ReceivedCommand)

/-- Who moves; `k` picks a datagram in the network. A stranger sends to the server only, since the
sockets of the clients are connected to it. -/
inductive DeviceClientsLabel (n : ℕ)
  | call (i : Fin n) (c : DeviceCommand)
  | clientSend (i : Fin n)
  | clientSendFails (i : Fin n)
  | clientRecv (i : Fin n) (k : ℕ)
  | clientRecvFails (i : Fin n)
  | stranger (d : Datagram)
  | serverRecv (k : ℕ)
  | serverRecvFails
  | serverStep (sent : ℤ)
  | loseCommand (k : ℕ)
  | loseAck (i : Fin n) (k : ℕ)

variable {n : ℕ} (addrs : ClientAddrs n)

/-- The state with one client replaced. -/
def DeviceClients.setSide (s : DeviceClients n) (i : Fin n) (c : DeviceSide n) :
    DeviceClients n :=
  { s with side := Function.update s.side i c }

/-- The server acknowledges, to the client that has the address. A `sendto` to another address
comes to what the environment says. -/
def DeviceClients.serverSend (s : DeviceClients n) (ptype : Byte) (addr : List Byte) (sent : ℤ) :
    DeviceClients n :=
  match addrs.clientAt addr with
  | some i =>
    let ack : AckPacket := ⟨s.handling.id, [ptype]⟩
    { s with server := baaDeviceMgmtTh.resume s.server ⟨none, 1⟩ }.setSide i
      { s.side i with toClient := (s.side i).toClient ++ [(s.owner, ack)] }
  | none => { s with server := baaDeviceMgmtTh.resume s.server ⟨none, sent⟩ }

/-- One step of the system; `none` when the party is not at that call. -/
def DeviceClients.step (s : DeviceClients n) : DeviceClientsLabel n → Option (DeviceClients n)
  | .call i c =>
    match (s.side i).client.pc with
    | .returned _ => some (s.setSide i { s.side i with client := c.start })
    | _ => none
  | .clientSend i =>
    match simpleDeviceCmd.call (s.side i).client with
    | .send payload =>
      -- the socket is connected, so that the datagram goes to the server
      let packet : CommandPacket := ⟨(s.side i).commands.length, ⟨addrs.addr i, payload⟩⟩
      some ({ s with toServer := s.toServer ++ [(some i, packet)] }.setSide i { s.side i with
        client := simpleDeviceCmd.resume (s.side i).client ⟨payload.length, none⟩
        commands := (s.side i).commands ++ [payload.headD 0] })
    | _ => none
  | .clientSendFails i =>
    match simpleDeviceCmd.call (s.side i).client with
    | .send _ =>
      some (s.setSide i { s.side i with
        client := simpleDeviceCmd.resume (s.side i).client ⟨-1, none⟩ })
    | _ => none
  | .clientRecv i k =>
    match simpleDeviceCmd.call (s.side i).client, (s.side i).toClient[k]? with
    | .recv, some p =>
      let client := simpleDeviceCmd.resume (s.side i).client ⟨0, some p.2.payload⟩
      some (s.setSide i { s.side i with
        client := client
        toClient := (s.side i).toClient.eraseIdx k
        credits :=
          if client.pc = .returned 0 then
            (s.side i).credits ++
              [(p.1, ⟨(s.side i).commands.length - 1, p.2.ackOf, (s.side i).recvFailed⟩)]
          else (s.side i).credits })
    | _, _ => none
  | .clientRecvFails i =>
    match simpleDeviceCmd.call (s.side i).client with
    | .recv =>
      some (s.setSide i { s.side i with
        client := simpleDeviceCmd.resume (s.side i).client ⟨0, none⟩, recvFailed := true })
    | _ => none
  | .stranger d =>
    -- nobody sends under the address of a client
    if ∀ i, d.sender ≠ addrs.addr i then
      some { s with toServer := s.toServer ++ [(none, ⟨0, d⟩)] }
    else none
  | .serverRecv k =>
    match baaDeviceMgmtTh.call s.server, s.toServer[k]? with
    | .recvfrom, some p =>
      let command : ReceivedCommand := ⟨p.2.id, p.2.datagram.payload.getD 0 0⟩
      some { s with
        server := baaDeviceMgmtTh.resume s.server ⟨some p.2.datagram, 0⟩
        toServer := s.toServer.eraseIdx k, owner := p.1, handling := command
        received := s.received ++ [(p.1, command)] }
    | _, _ => none
  | .serverRecvFails =>
    match baaDeviceMgmtTh.call s.server with
    | .recvfrom => some { s with server := baaDeviceMgmtTh.resume s.server ⟨none, 0⟩ }
    | _ => none
  | .serverStep sent =>
    match baaDeviceMgmtTh.call s.server with
    | .recvfrom => none
    | .sendto ptype addr => some (s.serverSend addrs ptype addr sent)
    | .halt =>
      some { s with
        server := baaDeviceMgmtTh.resume s.server ⟨none, 0⟩
        performed := s.performed ++ [(s.owner, ⟨s.handling.id, ptypeDeviceMgmtHalt⟩)] }
    | .reboot =>
      some { s with
        server := baaDeviceMgmtTh.resume s.server ⟨none, 0⟩
        performed := s.performed ++ [(s.owner, ⟨s.handling.id, ptypeDeviceMgmtReboot⟩)] }
  -- the network may drop any datagram, and no order is kept
  | .loseCommand k => some { s with toServer := s.toServer.eraseIdx k }
  | .loseAck i k =>
    some (s.setSide i { s.side i with toClient := (s.side i).toClient.eraseIdx k })

/-- Before the first call. -/
def DeviceClients.init : DeviceClients n where
  side _ := ⟨⟨.returned (-1), 0⟩, [], [], [], false⟩
  server := .loop
  toServer := []
  owner := none
  handling := ⟨0, 0⟩
  received := []
  performed := []

/-- The composition of a device server, its clients and strangers, before the first call. -/
def deviceClientsSystem : LabelledSystem (DeviceClients n) (DeviceClientsLabel n) where
  init := .init
  step := DeviceClients.step addrs

/-! ### What a client sees -/

/-- What a client sees: what is its own, and a server that is at its loop head while it is busy
for somebody else. -/
def DeviceClients.view (i : Fin n) (s : DeviceClients n) : DeviceSession where
  client := (s.side i).client
  server := if s.owner = some i then s.server else .loop
  toServer := ownedBy (some i) s.toServer
  toClient := (s.side i).toClient.map Prod.snd
  sent := (s.side i).commands.length
  handling := s.handling.id
  received := (ownedBy (some i) s.received).map ReceivedCommand.id
  credits := (s.side i).credits.map Prod.snd
  recvFailed := (s.side i).recvFailed

/-- The server turns to somebody else. -/
def DeviceSession.Idle (v w : DeviceSession) : Prop :=
  v.server = .loop ∧ ∃ handling, w = { v with handling := handling }

/-- What happens to one client does not show in the view of another. -/
theorem DeviceClients.view_setSide_of_ne (s : DeviceClients n) {i j : Fin n} (h : j ≠ i)
    (c : DeviceSide n) : (s.setSide i c).view j = s.view j := by
  simp only [DeviceClients.view, DeviceClients.setSide, Function.update_of_ne h]
  rfl

variable {addrs}

/-- The steps of a client, and what each is in its session. -/
inductive DeviceClientsLabel.OfClient (i : Fin n) : DeviceClientsLabel n → DeviceLabel → Prop
  | call (c : DeviceCommand) : OfClient i (.call i c) (.call c)
  | clientSend : OfClient i (.clientSend i) .clientSend
  | clientSendFails : OfClient i (.clientSendFails i) .clientSendFails
  | clientRecv (k : ℕ) : OfClient i (.clientRecv i k) (.clientRecv k)
  | clientRecvFails : OfClient i (.clientRecvFails i) .clientRecvFails
  | loseAck (k : ℕ) : OfClient i (.loseAck i k) (.loseAck k)

/-- A step of a client is one of its session in its own view, and nothing in the others. -/
private theorem DeviceClients.view_client {s t : DeviceClients n} {i : Fin n}
    {a : DeviceClientsLabel n} {b : DeviceLabel} (hab : a.OfClient i b)
    (hst : s.step addrs a = some t) :
    (s.view i).step (addrs.addr i) b = some (t.view i) ∧ ∀ j ≠ i, t.view j = s.view j := by
  have htoClient : (s.view i).toClient = (s.side i).toClient.map Prod.snd := rfl
  cases hab with
  | call c =>
    rcases hpc : (s.side i).client.pc with _ | _ | ret
    case send | recv => simp [DeviceClients.step, hpc] at hst
    simp only [DeviceClients.step, hpc, Option.some.injEq] at hst
    subst hst
    refine ⟨?_, fun j hj => s.view_setSide_of_ne hj _⟩
    simp only [DeviceSession.step, hpc, DeviceClients.view, DeviceClients.setSide,
      Function.update_self]
    rfl
  | clientSend =>
    rcases hpc : (s.side i).client.pc with _ | _ | ret
    case recv | returned => simp [DeviceClients.step, simpleDeviceCmd, hpc] at hst
    simp only [DeviceClients.step, simpleDeviceCmd, hpc, Option.some.injEq] at hst
    subst hst
    refine ⟨?_, fun j hj => ?_⟩
    · simp only [DeviceSession.step, simpleDeviceCmd, hpc, DeviceClients.view,
        DeviceClients.setSide, Function.update_self, ownedBy_concat_self, List.length_append,
        List.length_cons, List.length_nil]
      rfl
    · -- the queue of the server has grown, but not for anybody else
      have hother : some i ≠ some j := fun heq => hj (Option.some.inj heq).symm
      rw [DeviceClients.view_setSide_of_ne _ hj]
      simp only [DeviceClients.view, ownedBy_concat_of_ne hother]
  | clientSendFails =>
    rcases hpc : (s.side i).client.pc with _ | _ | ret
    case recv | returned => simp [DeviceClients.step, simpleDeviceCmd, hpc] at hst
    simp only [DeviceClients.step, simpleDeviceCmd, hpc, Option.some.injEq] at hst
    subst hst
    refine ⟨?_, fun j hj => s.view_setSide_of_ne hj _⟩
    simp only [DeviceSession.step, simpleDeviceCmd, hpc, DeviceClients.view,
      DeviceClients.setSide, Function.update_self]
    rfl
  | clientRecv k =>
    rcases hpc : (s.side i).client.pc with _ | _ | ret
    case send | returned => simp [DeviceClients.step, simpleDeviceCmd, hpc] at hst
    rcases hp : (s.side i).toClient[k]? with _ | p
    · simp [DeviceClients.step, simpleDeviceCmd, hpc, hp] at hst
    have hp' : (s.view i).toClient[k]? = some p.2 := by rw [htoClient, List.getElem?_map, hp]; rfl
    simp only [DeviceClients.step, simpleDeviceCmd, hpc, hp, Option.some.injEq] at hst
    subst hst
    refine ⟨?_, fun j hj => s.view_setSide_of_ne hj _⟩
    have hpc' : (s.view i).client.pc = .recv := hpc
    simp only [DeviceSession.step, simpleDeviceCmd, hpc', hp']
    -- whether the datagram is a credit is decided by its byte alone, here as in the session
    by_cases hret :
      DeviceClientPc.returned (deviceReplyRet (p.2.payload.headD 0x00)) = .returned 0
    · simp only [if_pos hret, DeviceClients.view, DeviceClients.setSide, Function.update_self,
        List.eraseIdx_map, List.map_append]
      rfl
    · simp only [if_neg hret, DeviceClients.view, DeviceClients.setSide, Function.update_self,
        List.eraseIdx_map]
  | clientRecvFails =>
    rcases hpc : (s.side i).client.pc with _ | _ | ret
    case send | returned => simp [DeviceClients.step, simpleDeviceCmd, hpc] at hst
    simp only [DeviceClients.step, simpleDeviceCmd, hpc, Option.some.injEq] at hst
    subst hst
    refine ⟨?_, fun j hj => s.view_setSide_of_ne hj _⟩
    simp only [DeviceSession.step, simpleDeviceCmd, hpc, DeviceClients.view,
      DeviceClients.setSide, Function.update_self]
    rfl
  | loseAck k =>
    obtain rfl := Option.some.inj hst
    refine ⟨?_, fun j hj => s.view_setSide_of_ne hj _⟩
    simp only [DeviceSession.step, DeviceClients.view, DeviceClients.setSide,
      Function.update_self, List.eraseIdx_map]
    rfl

/-! ### The invariant -/

/-- The halt or reboot the server has received and not performed yet: it acknowledges in between. -/
def DeviceClients.inHand (s : DeviceClients n) : List (Option (Fin n) × ReceivedCommand) :=
  if s.server.pc ≠ .recvfrom ∧ s.handling.Performed then [(s.owner, s.handling)] else []

variable (addrs) in
/-- What the views do not show: where the server stands with the command it has in hand, who has
sent what is under way, and that what was performed is what was received. -/
structure DeviceClients.Inv (s : DeviceClients n) : Prop where
  atLoop : s.server.pc = .recvfrom → s.server = .loop
  ptype : s.server.pc ≠ .recvfrom → s.server.ptype = s.handling.ptype
  halts : s.server.pc = .halt → s.server.ptype = ptypeDeviceMgmtHalt
  reboots : s.server.pc = .reboot → s.server.ptype = ptypeDeviceMgmtReboot
  stranger_addr : s.owner = none → s.server.pc = .rcvAck → ∀ i, s.server.addr ≠ addrs.addr i
  stranger_queue : ∀ p ∈ s.toServer, p.1 = none → ∀ i, p.2.datagram.sender ≠ addrs.addr i
  own_toClient : ∀ i, ∀ p ∈ (s.side i).toClient, p.1 = some i
  own_credits : ∀ i, ∀ c ∈ (s.side i).credits, c.1 = some i
  sent_toServer : ∀ p ∈ s.toServer, ∀ i, p.1 = some i →
    (s.side i).commands[p.2.id]? = some (p.2.datagram.payload.getD 0 0)
  sent_received : ∀ p ∈ s.received, ∀ i, p.1 = some i →
    (s.side i).commands[p.2.id]? = some p.2.ptype
  performed : s.performed ++ s.inHand = s.received.filter fun p => p.2.Performed

/-- The numbers of the commands received and under way: each once. -/
structure DeviceSession.Fresh (v : DeviceSession) : Prop where
  nodup : (v.received ++ v.toServer.map CommandPacket.id).Nodup
  lt_sent : ∀ k ∈ v.received ++ v.toServer.map CommandPacket.id, k < v.sent

open scoped List in
/-- Receiving a command moves its number from the network to the history. -/
private theorem received_perm {received : List ℕ} {toServer : List CommandPacket} {k : ℕ}
    {p : CommandPacket} (hp : toServer[k]? = some p) :
    received ++ [p.id] ++ (toServer.eraseIdx k).map CommandPacket.id ~
      received ++ toServer.map CommandPacket.id := by
  obtain ⟨hk, rfl⟩ := List.getElem?_eq_some_iff.mp hp
  rw [List.append_assoc, List.singleton_append, ← List.map_cons (f := CommandPacket.id)]
  exact ((List.getElem_cons_eraseIdx_perm hk).map _).append_left _

/-- Every move keeps the numbers apart. -/
theorem DeviceSession.Fresh.move {clientAddr : List Byte} {v w : DeviceSession} (h : v.Fresh)
    (hmove : v.Move clientAddr w) : w.Fresh := by
  obtain ⟨hnodup, hlt⟩ := h
  cases hmove with
  | send hpc =>
    have hperm : (v.received ++ (v.toServer ++ [(⟨v.sent, ⟨clientAddr, [v.client.cmd]⟩⟩ :
        CommandPacket)]).map CommandPacket.id).Perm
          (v.sent :: (v.received ++ v.toServer.map CommandPacket.id)) := by
      rw [List.map_append, ← List.append_assoc]
      exact List.perm_append_singleton _ _
    refine ⟨hperm.nodup_iff.mpr (List.nodup_cons.mpr ⟨fun hmem => Nat.lt_irrefl _ (hlt _ hmem),
      hnodup⟩), fun k hk => ?_⟩
    rcases List.mem_cons.mp (hperm.mem_iff.mp hk) with rfl | hk
    · exact Nat.lt_succ_self _
    · exact Nat.lt_succ_of_lt (hlt k hk)
  | serverRecv k p server hpc hp hrcv hok =>
    have hperm : (v.received ++ [p.id] ++ (v.toServer.eraseIdx k).map CommandPacket.id).Perm
        (v.received ++ v.toServer.map CommandPacket.id) := received_perm hp
    exact ⟨hperm.nodup_iff.mpr hnodup, fun m hm => hlt m (hperm.mem_iff.mp hm)⟩
  | loseCommand k =>
    have hsub : (v.received ++ (v.toServer.eraseIdx k).map CommandPacket.id).Sublist
        (v.received ++ v.toServer.map CommandPacket.id) :=
      ((List.eraseIdx_sublist _ _).map _).append_left _
    exact ⟨hnodup.sublist hsub, fun m hm => hlt m (hsub.subset hm)⟩
  | call | sendFails | recv | recvFails | ack | work | loseAck => exact ⟨hnodup, hlt⟩

variable (addrs) in
/-- What holds of the view of a client. -/
structure DeviceViewOk (i : Fin n) (v : DeviceSession) : Prop where
  inv : v.Inv (addrs.addr i)
  pattern : v.pattern.Inv
  fresh : v.Fresh

/-! ### The server in the views -/

/-- What a datagram does to a server at its loop head: a command is kept with its sender,
anything else is dropped. -/
private theorem afterRecv_loop_cases (d : Datagram) :
    (d.payload.getD 0 0 ∉ deviceCommands ∧ DeviceServer.loop.afterRecv (some d) = .loop) ∨
      (DeviceServer.loop.afterRecv (some d)).pc = .rcvAck ∧
      (DeviceServer.loop.afterRecv (some d)).addr = d.sender ∧
      (DeviceServer.loop.afterRecv (some d)).ptype = d.payload.getD 0 0 := by
  by_cases h : d.payload.getD 0 0 ∈ deviceCommands
  · obtain ⟨hpc, haddr⟩ := afterRecv_command h
    refine .inr ⟨hpc, haddr, ?_⟩
    have hbyte : (MsgBuf.zero.receive d.payload).bytes.getD 0 0 = d.payload.getD 0 0 :=
      MsgBuf.getD_receive_zero _ (by decide)
    simp only [DeviceServer.afterRecv, DeviceServer.dispatch] at hpc ⊢
    split_ifs at hpc ⊢
    all_goals first | exact hbyte | simp [DeviceServer.loop] at hpc
  · exact .inl ⟨h, afterRecv_unknown h⟩

/-- What follows the acknowledgement of a command. -/
private theorem afterAck_cases (s : DeviceServer) (sent : ℤ) :
    s.ptype = ptypeDeviceMgmtHalt ∧ (s.afterAck sent).pc = .halt ∧
        (s.afterAck sent).ptype = s.ptype ∨
      s.ptype = ptypeDeviceMgmtReboot ∧ (s.afterAck sent).pc = .reboot ∧
        (s.afterAck sent).ptype = s.ptype ∨
      (s.ptype ≠ ptypeDeviceMgmtHalt ∧ s.ptype ≠ ptypeDeviceMgmtReboot) ∧
        s.afterAck sent = .loop := by
  unfold DeviceServer.afterAck
  split_ifs with hhalt hreboot
  · exact .inl ⟨hhalt, rfl, rfl⟩
  · exact .inr (.inl ⟨hreboot, rfl, rfl⟩)
  · exact .inr (.inr ⟨⟨hhalt, hreboot⟩, rfl⟩)

/-- When the server acknowledges, it has the address of the owner. -/
theorem DeviceClients.Inv.clientAt {s : DeviceClients n} (h : s.Inv addrs)
    (hviews : ∀ i, DeviceViewOk addrs i (s.view i)) (hpc : s.server.pc = .rcvAck) :
    addrs.clientAt s.server.addr = s.owner := by
  rcases howner : s.owner with _ | i
  · exact memberAt_eq_none (h.stranger_addr howner hpc)
  · have hserver : (s.view i).server = s.server := if_pos howner
    have haddr := (hviews i).inv.server_ok.replies (by rwa [hserver])
    rw [hserver] at haddr
    exact (memberAt_eq_some_iff addrs.injective).mpr haddr.symm

/-- The server receives: a command in the view of its owner, a turn to somebody else in the
others. -/
private theorem DeviceClients.Inv.view_serverRecv {s t : DeviceClients n} (h : s.Inv addrs) {k : ℕ}
    (hst : s.step addrs (.serverRecv k) = some t) (j : Fin n) :
    (∃ b, (s.view j).step (addrs.addr j) b = some (t.view j)) ∨ (s.view j).Idle (t.view j) := by
  have hpc : s.server.pc = .recvfrom := by
    rcases hpc : s.server.pc <;> simp_all [DeviceClients.step, baaDeviceMgmtTh]
  have hloop := h.atLoop hpc
  have hserver : (s.view j).server = s.server := by
    simp only [DeviceClients.view, hloop, ite_self]
  rcases hp : s.toServer[k]? with _ | p
  · simp [DeviceClients.step, baaDeviceMgmtTh, hpc, hp] at hst
  simp only [DeviceClients.step, baaDeviceMgmtTh, hpc, hp, Option.some.injEq] at hst
  subst hst
  by_cases hown : p.1 = some j
  · obtain ⟨m, hm, herase⟩ : ∃ m, (ownedBy (some j) s.toServer)[m]? = some p.2 ∧
        ownedBy (some j) (s.toServer.eraseIdx k) = (ownedBy (some j) s.toServer).eraseIdx m :=
      exists_ownedBy_eraseIdx (by rw [hp, ← hown])
    have hm' : (s.view j).toServer[m]? = some p.2 := hm
    refine .inl ⟨.serverRecv m, ?_⟩
    simp only [DeviceSession.step, baaDeviceMgmtTh, hserver, hpc, hm']
    simp only [DeviceClients.view, hown, if_pos, ownedBy_concat_self, herase, List.map_append]
    rfl
  · refine .inr ⟨hserver.trans hloop, p.2.id, ?_⟩
    simp only [DeviceClients.view, if_neg hown, hloop, ite_self, ownedBy_concat_of_ne hown,
      ownedBy_eraseIdx_of_ne hp hown]

/-- The server works on a command: a step in the view of its owner, nothing in the others. -/
private theorem DeviceClients.Inv.view_serverStep {s t : DeviceClients n} (h : s.Inv addrs)
    (hviews : ∀ i, DeviceViewOk addrs i (s.view i)) {sent : ℤ}
    (hst : s.step addrs (.serverStep sent) = some t) (j : Fin n) :
    (∃ b, (s.view j).step (addrs.addr j) b = some (t.view j)) ∨ (s.view j).Idle (t.view j) := by
  by_cases hown : s.owner = some j
  · -- the server works for this client, and does in the session what it does here
    refine .inl ⟨.serverStep, ?_⟩
    have hserver : (s.view j).server = s.server := if_pos hown
    rcases hpc : s.server.pc
    case recvfrom => simp [DeviceClients.step, baaDeviceMgmtTh, hpc] at hst
    case rcvAck =>
      have hat := (h.clientAt hviews hpc).trans hown
      have haddr : s.server.addr = addrs.addr j :=
        ((memberAt_eq_some_iff addrs.injective).mp hat).symm
      simp only [DeviceClients.step, baaDeviceMgmtTh, hpc, DeviceClients.serverSend, hat,
        Option.some.injEq] at hst
      subst hst
      simp only [DeviceSession.step, baaDeviceMgmtTh, hserver, hpc, if_pos haddr]
      simp only [DeviceClients.view, DeviceClients.setSide, hown, Function.update_self,
        List.map_append, if_true]
      rfl
    case halt | reboot =>
      simp only [DeviceClients.step, baaDeviceMgmtTh, hpc, Option.some.injEq] at hst
      subst hst
      simp only [DeviceSession.step, baaDeviceMgmtTh, hserver, hpc]
      simp only [DeviceClients.view, hown, if_true]
  · right
    -- the client sees a server at its loop head, which stays there
    refine ⟨if_neg hown, s.handling.id, ?_⟩
    rcases hpc : s.server.pc
    case recvfrom => simp [DeviceClients.step, baaDeviceMgmtTh, hpc] at hst
    case rcvAck =>
      have hat := h.clientAt hviews hpc
      simp only [DeviceClients.step, baaDeviceMgmtTh, hpc, DeviceClients.serverSend, hat,
        Option.some.injEq] at hst
      rcases howner : s.owner with _ | i <;> simp only [howner] at hst <;> subst hst
      · simp only [DeviceClients.view, howner, reduceCtorEq, if_false]
      · have hother : some i ≠ some j := fun heq => hown (howner.trans heq)
        rw [DeviceClients.view_setSide_of_ne _ fun heq => hother (congrArg some heq.symm)]
        simp only [DeviceClients.view, howner, if_neg hother]
    case halt | reboot =>
      simp only [DeviceClients.step, baaDeviceMgmtTh, hpc, Option.some.injEq] at hst
      subst hst
      simp only [DeviceClients.view, if_neg hown]

/-! ### What a step preserves -/

/-- A change of one client that forgets no command. -/
theorem DeviceClients.Inv.setSide {s : DeviceClients n} (h : s.Inv addrs) {i : Fin n}
    {c : DeviceSide n} (hcommands : (s.side i).commands <+: c.commands)
    (htoClient : ∀ p ∈ c.toClient, p.1 = some i) (hcredits : ∀ p ∈ c.credits, p.1 = some i) :
    (s.setSide i c).Inv addrs := by
  have hkept {j : Fin n} {id : ℕ} {ptype : Byte} (hget : (s.side j).commands[id]? = some ptype) :
      ((s.setSide i c).side j).commands[id]? = some ptype := by
    rcases eq_or_ne j i with rfl | hne
    · simp only [DeviceClients.setSide, Function.update_self]
      obtain ⟨later, hlater⟩ := hcommands
      rw [← hlater, List.getElem?_append_left (List.getElem?_eq_some_iff.mp hget).1, hget]
    · simpa only [DeviceClients.setSide, Function.update_of_ne hne] using hget
  refine { h with
    own_toClient := fun j => ?_, own_credits := fun j => ?_
    sent_toServer := fun p hp j hown => hkept (h.sent_toServer p hp j hown)
    sent_received := fun p hp j hown => hkept (h.sent_received p hp j hown) } <;>
    rcases eq_or_ne j i with rfl | hne
  · simpa only [DeviceClients.setSide, Function.update_self] using htoClient
  · simpa only [DeviceClients.setSide, Function.update_of_ne hne] using h.own_toClient j
  · simpa only [DeviceClients.setSide, Function.update_self] using hcredits
  · simpa only [DeviceClients.setSide, Function.update_of_ne hne] using h.own_credits j

/-- A datagram for the server. -/
private theorem DeviceClients.Inv.enqueue {s : DeviceClients n} (h : s.Inv addrs)
    {p : Option (Fin n) × CommandPacket}
    (hnone : p.1 = none → ∀ i, p.2.datagram.sender ≠ addrs.addr i)
    (hsome : ∀ i, p.1 = some i →
      (s.side i).commands[p.2.id]? = some (p.2.datagram.payload.getD 0 0)) :
    DeviceClients.Inv addrs { s with toServer := s.toServer ++ [p] } :=
  { h with
    stranger_queue := fun q hq => by
      rcases List.mem_append.mp hq with hq | hq
      · exact h.stranger_queue q hq
      · exact List.mem_singleton.mp hq ▸ hnone
    sent_toServer := fun q hq => by
      rcases List.mem_append.mp hq with hq | hq
      · exact h.sent_toServer q hq
      · exact List.mem_singleton.mp hq ▸ hsome }

/-- A step of a client. -/
theorem DeviceClients.Inv.client {s t : DeviceClients n} (h : s.Inv addrs) {i : Fin n}
    {a : DeviceClientsLabel n} {b : DeviceLabel} (hab : a.OfClient i b)
    (hst : s.step addrs a = some t) : t.Inv addrs := by
  have hto := h.own_toClient i
  have hcredits := h.own_credits i
  cases hab with
  | call c =>
    simp only [DeviceClients.step] at hst
    split at hst
    · obtain rfl := Option.some.inj hst
      exact h.setSide (List.prefix_refl _) hto hcredits
    · simp at hst
  | clientSend =>
    simp only [DeviceClients.step] at hst
    split at hst
    · rename_i payload _
      obtain rfl := Option.some.inj hst
      -- the new command has the number the client has counted to
      have hset := h.setSide (c := { s.side i with
        client := simpleDeviceCmd.resume (s.side i).client ⟨payload.length, none⟩
        commands := (s.side i).commands ++ [payload.headD 0] }) (List.prefix_append _ _) hto
        hcredits
      refine hset.enqueue (p := (some i, ⟨(s.side i).commands.length, ⟨addrs.addr i, payload⟩⟩))
        (by simp) fun j hj => ?_
      obtain rfl := Option.some.inj hj
      simp only [DeviceClients.setSide, Function.update_self, List.getElem?_concat_length]
      cases payload <;> rfl
    · simp at hst
  | clientSendFails =>
    simp only [DeviceClients.step] at hst
    split at hst
    · obtain rfl := Option.some.inj hst
      exact h.setSide (List.prefix_refl _) hto hcredits
    · simp at hst
  | clientRecv k =>
    simp only [DeviceClients.step] at hst
    split at hst
    · rename_i p _ hp
      obtain rfl := Option.some.inj hst
      refine h.setSide (List.prefix_refl _)
        (fun q hq => hto q (List.mem_of_mem_eraseIdx hq)) fun q hq => ?_
      dsimp only at hq
      split_ifs at hq
      · rcases List.mem_append.mp hq with hq | hq
        · exact hcredits q hq
        · obtain rfl := List.mem_singleton.mp hq
          exact hto p (List.mem_of_getElem? hp)
      · exact hcredits q hq
    · simp at hst
  | clientRecvFails =>
    simp only [DeviceClients.step] at hst
    split at hst
    · obtain rfl := Option.some.inj hst
      exact h.setSide (List.prefix_refl _) hto hcredits
    · simp at hst
  | loseAck k =>
    obtain rfl := Option.some.inj hst
    exact h.setSide (List.prefix_refl _) (fun q hq => hto q (List.mem_of_mem_eraseIdx hq)) hcredits

/-- What a reception adds to what is to be performed. -/
private theorem filter_performed_concat
    {performed received : List (Option (Fin n) × ReceivedCommand)}
    (h : performed = received.filter fun p => p.2.Performed) (owner : Option (Fin n))
    (c : ReceivedCommand) :
    (received ++ [(owner, c)]).filter (fun p => p.2.Performed) =
      performed ++ if c.Performed then [(owner, c)] else [] := by
  rw [List.filter_append, h]
  split_ifs with hc <;> simp [hc]

/-- The server receives. -/
theorem DeviceClients.Inv.receive {s t : DeviceClients n} (h : s.Inv addrs) {k : ℕ}
    (hst : s.step addrs (.serverRecv k) = some t) : t.Inv addrs := by
  have hpc : s.server.pc = .recvfrom := by
    rcases hpc : s.server.pc <;> simp_all [DeviceClients.step, baaDeviceMgmtTh]
  rcases hp : s.toServer[k]? with _ | p
  · simp [DeviceClients.step, baaDeviceMgmtTh, hpc, hp] at hst
  simp only [DeviceClients.step, baaDeviceMgmtTh, hpc, hp, Option.some.injEq] at hst
  subst hst
  -- the server is at its loop head, where it knows nothing of the last command
  rw [h.atLoop hpc]
  have hmem := List.mem_of_getElem? hp
  have hperformed := h.performed
  rw [DeviceClients.inHand, if_neg fun hbusy => hbusy.1 hpc, List.append_nil] at hperformed
  have hqueue {q : Option (Fin n) × CommandPacket} (hq : q ∈ s.toServer.eraseIdx k) :
      q ∈ s.toServer := List.mem_of_mem_eraseIdx hq
  have hreceived : ∀ q ∈ s.received ++ [(p.1, (⟨p.2.id, p.2.datagram.payload.getD 0 0⟩ :
      ReceivedCommand))], ∀ i, q.1 = some i → (s.side i).commands[q.2.id]? = some q.2.ptype := by
    intro q hq
    rcases List.mem_append.mp hq with hq | hq
    · exact h.sent_received q hq
    · exact List.mem_singleton.mp hq ▸ h.sent_toServer p hmem
  rcases afterRecv_loop_cases p.2.datagram with ⟨hunknown, hloop⟩ | ⟨hrcv, haddr, hptype⟩
  · -- what is no command is neither acknowledged nor performed
    have hpcLoop : (DeviceServer.loop.afterRecv (some p.2.datagram)).pc = .recvfrom :=
      congrArg DeviceServer.pc hloop
    refine { h with
      atLoop := fun _ => hloop
      ptype := fun hbusy => absurd hpcLoop hbusy
      halts := fun hhalt => absurd (hpcLoop.symm.trans hhalt) (by simp)
      reboots := fun hreboot => absurd (hpcLoop.symm.trans hreboot) (by simp)
      stranger_addr := fun _ hack => absurd (hpcLoop.symm.trans hack) (by simp)
      stranger_queue := fun q hq => h.stranger_queue q (hqueue hq)
      sent_toServer := fun q hq => h.sent_toServer q (hqueue hq)
      sent_received := hreceived
      performed := ?_ }
    have hnot : ¬ (⟨p.2.id, p.2.datagram.payload.getD 0 0⟩ : ReceivedCommand).Performed := by
      simp only [deviceCommands, List.mem_cons, List.not_mem_nil, or_false, not_or] at hunknown
      exact not_or.mpr ⟨hunknown.2.1, hunknown.2.2.1⟩
    rw [filter_performed_concat hperformed, if_neg hnot, DeviceClients.inHand,
      if_neg fun hbusy => hbusy.1 hpcLoop]
  · refine { h with
      atLoop := fun hloop => by simp [hrcv] at hloop
      ptype := fun _ => hptype
      halts := fun hhalt => by simp [hrcv] at hhalt
      reboots := fun hreboot => by simp [hrcv] at hreboot
      stranger_addr := fun hnone _ i => haddr ▸ h.stranger_queue p hmem hnone i
      stranger_queue := fun q hq => h.stranger_queue q (hqueue hq)
      sent_toServer := fun q hq => h.sent_toServer q (hqueue hq)
      sent_received := hreceived
      performed := ?_ }
    simp only [filter_performed_concat hperformed, DeviceClients.inHand, hrcv, ne_eq,
      reduceCtorEq, not_false_eq_true, true_and]

/-- The server is done with a command it has in hand, or goes on with it. -/
private theorem DeviceClients.Inv.setServer {s : DeviceClients n} (h : s.Inv addrs)
    {server : DeviceServer} {performed : List (Option (Fin n) × ReceivedCommand)}
    (hatLoop : server.pc = .recvfrom → server = .loop)
    (hptype : server.pc ≠ .recvfrom → server.ptype = s.handling.ptype)
    (hhalts : server.pc = .halt → server.ptype = ptypeDeviceMgmtHalt)
    (hreboots : server.pc = .reboot → server.ptype = ptypeDeviceMgmtReboot)
    (hack : server.pc ≠ .rcvAck)
    (hperformed : performed ++ DeviceClients.inHand { s with server := server } =
      s.performed ++ s.inHand) :
    DeviceClients.Inv addrs { s with server := server, performed := performed } :=
  { h with
    atLoop := hatLoop
    ptype := hptype
    halts := hhalts
    reboots := hreboots
    stranger_addr := fun _ hrcv => absurd hrcv hack
    performed := hperformed.trans h.performed }

/-- The server has acknowledged: a halt or a reboot stays in hand. -/
theorem DeviceClients.Inv.afterAck {s : DeviceClients n} (h : s.Inv addrs)
    (hpc : s.server.pc = .rcvAck) (sent : ℤ) :
    DeviceClients.Inv addrs { s with server := s.server.afterAck sent } := by
  have hptype : s.server.ptype = s.handling.ptype := h.ptype (by simp [hpc])
  rcases afterAck_cases s.server sent with ⟨hcmd, hnext, hkeep⟩ | ⟨hcmd, hnext, hkeep⟩ |
    ⟨⟨hnohalt, hnoreboot⟩, hloop⟩
  · exact h.setServer (by simp [hnext]) (fun _ => hkeep.trans hptype) (fun _ => hkeep.trans hcmd)
      (by simp [hnext]) (by simp [hnext]) (by simp [DeviceClients.inHand, hpc, hnext])
  · exact h.setServer (by simp [hnext]) (fun _ => hkeep.trans hptype) (by simp [hnext])
      (fun _ => hkeep.trans hcmd) (by simp [hnext]) (by simp [DeviceClients.inHand, hpc, hnext])
  · have hnot : ¬ s.handling.Performed := by
      rw [ReceivedCommand.Performed, ← hptype]
      exact not_or.mpr ⟨hnohalt, hnoreboot⟩
    rw [hloop]
    exact h.setServer (fun _ => rfl) (fun hbusy => absurd rfl hbusy)
      (by simp [DeviceServer.loop]) (by simp [DeviceServer.loop]) (by simp [DeviceServer.loop])
      (by simp [DeviceClients.inHand, hnot])

/-- The server performs the command it has in hand. -/
theorem DeviceClients.Inv.perform {s : DeviceClients n} (h : s.Inv addrs)
    (hpc : s.server.pc ≠ .recvfrom) {ptype : Byte} (hptype : s.server.ptype = ptype)
    (hdone : ptype = ptypeDeviceMgmtHalt ∨ ptype = ptypeDeviceMgmtReboot) :
    DeviceClients.Inv addrs { s with
      server := .loop, performed := s.performed ++ [(s.owner, ⟨s.handling.id, ptype⟩)] } := by
  have hcmd : s.handling.ptype = ptype := (h.ptype hpc).symm.trans hptype
  have hhandling : s.handling = ⟨s.handling.id, ptype⟩ := by rw [← hcmd]
  have hperformed : s.handling.Performed := by
    rw [ReceivedCommand.Performed, hcmd]
    exact hdone
  have hinHand : s.inHand = [(s.owner, ⟨s.handling.id, ptype⟩)] := by
    rw [DeviceClients.inHand, if_pos ⟨hpc, hperformed⟩, ← hhandling]
  exact h.setServer (fun _ => rfl) (fun hbusy => absurd rfl hbusy)
    (by simp [DeviceServer.loop]) (by simp [DeviceServer.loop]) (by simp [DeviceServer.loop])
    (by rw [hinHand, DeviceClients.inHand, if_neg fun hbusy => hbusy.1 rfl, List.append_nil])

/-- A step of the server. -/
theorem DeviceClients.Inv.serverStep {s t : DeviceClients n} (h : s.Inv addrs)
    (hviews : ∀ i, DeviceViewOk addrs i (s.view i)) {sent : ℤ}
    (hst : s.step addrs (.serverStep sent) = some t) : t.Inv addrs := by
  rcases hpc : s.server.pc
  case recvfrom => simp [DeviceClients.step, baaDeviceMgmtTh, hpc] at hst
  case rcvAck =>
    have hat := h.clientAt hviews hpc
    simp only [DeviceClients.step, baaDeviceMgmtTh, hpc, DeviceClients.serverSend,
      Option.some.injEq] at hst
    subst hst
    split
    · -- the acknowledgement goes to the client whose command the server has in hand
      rename_i i hi
      have hown := h.own_toClient i
      refine (h.afterAck hpc 1).setSide (c := { s.side i with
        toClient := (s.side i).toClient ++ [(s.owner, ⟨s.handling.id, [ptypeRcvAck]⟩)] })
        (List.prefix_refl _) (fun p hp => ?_) (h.own_credits i)
      rcases List.mem_append.mp hp with hp | hp
      · exact hown p hp
      · obtain rfl := List.mem_singleton.mp hp
        exact hat.symm.trans hi
    · exact h.afterAck hpc sent
  case halt =>
    simp only [DeviceClients.step, baaDeviceMgmtTh, hpc, Option.some.injEq] at hst
    subst hst
    exact h.perform (by simp [hpc]) (h.halts hpc) (.inl rfl)
  case reboot =>
    simp only [DeviceClients.step, baaDeviceMgmtTh, hpc, Option.some.injEq] at hst
    subst hst
    exact h.perform (by simp [hpc]) (h.reboots hpc) (.inr rfl)

/-- A datagram for the server is lost. -/
theorem DeviceClients.Inv.loseCommand {s : DeviceClients n} (h : s.Inv addrs) (k : ℕ) :
    DeviceClients.Inv addrs { s with toServer := s.toServer.eraseIdx k } :=
  { h with
    stranger_queue := fun q hq => h.stranger_queue q (List.mem_of_mem_eraseIdx hq)
    sent_toServer := fun q hq => h.sent_toServer q (List.mem_of_mem_eraseIdx hq) }

/-- The loss in the views. -/
private theorem DeviceClients.view_loseCommand (s : DeviceClients n) (k : ℕ) (j : Fin n) :
    DeviceClients.view j { s with toServer := s.toServer.eraseIdx k } = s.view j ∨
      ∃ b, (s.view j).step (addrs.addr j) b =
        some (DeviceClients.view j { s with toServer := s.toServer.eraseIdx k }) := by
  rcases hp : s.toServer[k]? with _ | p
  · left
    rw [List.eraseIdx_of_length_le (List.getElem?_eq_none_iff.mp hp)]
  by_cases hown : p.1 = some j
  · obtain ⟨m, -, herase⟩ : ∃ m, (ownedBy (some j) s.toServer)[m]? = some p.2 ∧
        ownedBy (some j) (s.toServer.eraseIdx k) = (ownedBy (some j) s.toServer).eraseIdx m :=
      exists_ownedBy_eraseIdx (by rw [hp, ← hown])
    refine .inr ⟨.loseCommand m, ?_⟩
    simp only [DeviceSession.step, DeviceClients.view, herase]
  · left
    simp only [DeviceClients.view, ownedBy_eraseIdx_of_ne hp hown]

/-! ### The views -/

/-- A move of the session with one client, or a turn of the server to somebody else. -/
def DeviceViewMove (addrs : ClientAddrs n) (i : Fin n) (v w : DeviceSession) : Prop :=
  v.Move (addrs.addr i) w ∨ v.Idle w

/-- Moves keep what holds of a view. -/
theorem DeviceViewOk.move {i : Fin n} {v w : DeviceSession} (h : DeviceViewOk addrs i v)
    (hmove : DeviceViewMove addrs i v w) : DeviceViewOk addrs i w := by
  rcases hmove with hmove | ⟨hloop, handling, rfl⟩
  · refine ⟨h.inv.move hmove, ?_, h.fresh.move hmove⟩
    rcases hmove.event with heq | ⟨e, he⟩
    · exact heq ▸ h.pattern
    · exact h.pattern.step he
  · have hpattern : DeviceSession.pattern { v with handling := handling } = v.pattern := by
      simp [DeviceSession.pattern, DeviceSession.owed, hloop, DeviceServer.loop]
    exact ⟨{ h.inv with }, hpattern ▸ h.pattern, ⟨h.fresh.nodup, h.fresh.lt_sent⟩⟩

/-- **Every step** keeps the invariant, and is a move or nothing in every view. -/
theorem DeviceClients.Inv.step {s t : DeviceClients n} (h : s.Inv addrs)
    (hviews : ∀ i, DeviceViewOk addrs i (s.view i)) {a : DeviceClientsLabel n}
    (hst : s.step addrs a = some t) :
    t.Inv addrs ∧ ∀ j, t.view j = s.view j ∨ DeviceViewMove addrs j (s.view j) (t.view j) := by
  have hclient {i : Fin n} {b : DeviceLabel} (hab : a.OfClient i b) :
      t.Inv addrs ∧ ∀ j, t.view j = s.view j ∨ DeviceViewMove addrs j (s.view j) (t.view j) := by
    obtain ⟨hown, hother⟩ := DeviceClients.view_client hab hst
    refine ⟨h.client hab hst, fun j => ?_⟩
    rcases eq_or_ne j i with rfl | hne
    · exact .inr (.inl ((hviews j).inv.step_cases hown))
    · exact .inl (hother j hne)
  -- what the server does is a move of every session, or nothing in it
  have hmoves {j : Fin n} (hstep : (∃ b, (s.view j).step (addrs.addr j) b = some (t.view j)) ∨
      (s.view j).Idle (t.view j)) : DeviceViewMove addrs j (s.view j) (t.view j) :=
    hstep.imp (fun ⟨_, hb⟩ => (hviews j).inv.step_cases hb) id
  cases a with
  | call i c => exact hclient (.call c)
  | clientSend i => exact hclient .clientSend
  | clientSendFails i => exact hclient .clientSendFails
  | clientRecv i k => exact hclient (.clientRecv k)
  | clientRecvFails i => exact hclient .clientRecvFails
  | loseAck i k => exact hclient (.loseAck k)
  | stranger d =>
    simp only [DeviceClients.step] at hst
    split_ifs at hst with hstranger
    obtain rfl := Option.some.inj hst
    refine ⟨h.enqueue (fun _ => hstranger) (by simp), fun j => .inl ?_⟩
    simp only [DeviceClients.view, ownedBy_concat_of_ne (Option.some_ne_none j).symm]
  | serverRecv k => exact ⟨h.receive hst, fun j => .inr (hmoves (h.view_serverRecv hst j))⟩
  | serverRecvFails =>
    have hpc : s.server.pc = .recvfrom := by
      rcases hpc : s.server.pc <;> simp_all [DeviceClients.step, baaDeviceMgmtTh]
    simp only [DeviceClients.step, baaDeviceMgmtTh, hpc, DeviceServer.afterRecv,
      Option.some.injEq] at hst
    obtain rfl : s = t := by rw [← hst, ← h.atLoop hpc]
    exact ⟨h, fun _ => .inl rfl⟩
  | serverStep sent =>
    exact ⟨h.serverStep hviews hst, fun j => .inr (hmoves (h.view_serverStep hviews hst j))⟩
  | loseCommand k =>
    obtain rfl := Option.some.inj hst
    refine ⟨h.loseCommand k, fun j => ?_⟩
    exact (DeviceClients.view_loseCommand s k j).imp id fun hb => hmoves (.inl hb)

variable (addrs) in
/-- **The views of the clients.** What a client sees is a session of one client with the server,
whatever the others and the strangers do. -/
theorem deviceClients_views :
    LabelledSystem.Views (deviceClientsSystem addrs) DeviceClients.view (DeviceClients.Inv addrs)
      (DeviceViewOk addrs) (DeviceViewMove addrs) where
  inv_init := by constructor <;> simp [deviceClientsSystem, DeviceClients.init,
    DeviceServer.loop, DeviceClients.inHand]
  view_init i := ⟨.init, AnonymousAck.inv_of_reachable .init, by constructor <;>
    simp [deviceClientsSystem, DeviceClients.init, DeviceClients.view]⟩
  inv_step _ _ _ h hviews hst := (h.step hviews hst).1
  view_step _ _ _ h hviews hst := (h.step hviews hst).2
  keeps _ _ _ h hmove := h.move hmove

/-! ### Whose commands are performed -/

/-- What a client can rely on, in terms of its calls and of what the server has received from it. -/
structure DeviceClients.Served (s : DeviceClients n) (i : Fin n) : Prop where
  /-- A call that returned 0 is credited, with the command it sent. -/
  recorded : (s.side i).client.pc = .returned 0 →
    ∃ c ∈ (s.side i).credits, c.2.command + 1 = (s.side i).commands.length
  /-- Behind a credit is a command of the client that the server has received: the one of the
  call before a `recv` of the client failed, that or an earlier one afterwards. -/
  credited : ∀ c ∈ (s.side i).credits, c.1 = some i ∧ c.2.ack ≤ c.2.command ∧
    (c.2.late = false → c.2.ack = c.2.command) ∧
    ∃ ptype, (some i, ⟨c.2.ack, ptype⟩) ∈ s.received
  /-- No two credits are for one command. -/
  once : ((s.side i).credits.map fun c => c.2.ack).Nodup
  /-- What the server received from the client the client sent, and no command twice. -/
  genuine : ∀ c ∈ ownedBy (some i) s.received, (s.side i).commands[c.id]? = some c.ptype
  receivedOnce : ((ownedBy (some i) s.received).map ReceivedCommand.id).Nodup

/-- **Whose commands are performed.** In every state of every interleaving of a device server,
any number of clients and strangers over a lossy network, each client is credited with its own
commands only; and the halts and reboots performed are those received, in order and each once,
up to the one the server has in hand. -/
theorem deviceClients_served (addrs : ClientAddrs n) {s : DeviceClients n}
    (h : (deviceClientsSystem addrs).Reachable s) :
    (∀ i, s.Served i) ∧
      s.performed ++ s.inHand = s.received.filter fun p => p.2.Performed := by
  obtain ⟨hinv, hviews⟩ := (deviceClients_views addrs).reachable h
  refine ⟨fun i => ?_, hinv.performed⟩
  have hview := hviews i
  have hcredits : ((s.view i).credits.map AnonymousAck.Credit.ack) =
      (s.side i).credits.map fun c => c.2.ack := List.map_map
  refine ⟨fun hret => ?_, fun c hc => ?_, ?_, fun c hc => ?_, ?_⟩
  · obtain ⟨c, hc, hsent⟩ := hview.inv.recorded hret
    obtain ⟨p, hp, rfl⟩ := List.mem_map.mp hc
    exact ⟨p, hp, hsent⟩
  · have hmem : c.2 ∈ (s.view i).credits := List.mem_map_of_mem hc
    obtain ⟨hle, hprompt⟩ := hview.pattern.credited c.2 hmem
    have hreceived : c.2.ack ∈ (ownedBy (some i) s.received).map ReceivedCommand.id :=
      hview.pattern.acked _ (List.mem_append_right _ (List.mem_map_of_mem hmem))
    obtain ⟨⟨id, ptype⟩, hr, rfl⟩ := List.mem_map.mp hreceived
    exact ⟨hinv.own_credits i c hc, hle, hprompt, ptype, mem_ownedBy_iff.mp hr⟩
  · -- the tokens of the credits are among those of the session, and these are distinct
    rw [← hcredits]
    exact hview.pattern.nodup.sublist
      ((List.sublist_append_right _ _).trans (List.sublist_append_right _ _))
  · exact hinv.sent_received (some i, c) (mem_ownedBy_iff.mp hc) i rfl
  · exact hview.fresh.nodup.sublist (List.sublist_append_left _ _)

/-- Two clients. -/
def twoAddrs : ClientAddrs 2 := ⟨fun i => if i = 0 then [1] else [2], by decide⟩

/-- A stranger's reboot overtakes the halt of one client; the other one pings. -/
def overtaken : List (DeviceClientsLabel 2) :=
  [.call 0 .halt, .clientSend 0, .call 1 .ping, .clientSend 1,
    .stranger ⟨[3], [ptypeDeviceMgmtReboot]⟩, .serverRecv 2, .serverStep 1, .serverStep 0,
    .serverRecv 1, .serverStep 1, .clientRecv 1 0, .serverRecv 0, .serverStep 1]

/-- The reboot is performed, the halt is in hand, and the ping has returned. -/
theorem deviceClients_served_overtaken :
    ∃ s, (deviceClientsSystem twoAddrs).exec .init overtaken = some s ∧
      s.performed = [(none, ⟨0, ptypeDeviceMgmtReboot⟩)] ∧
      s.inHand = [(some 0, ⟨0, ptypeDeviceMgmtHalt⟩)] ∧ (s.side 1).client.pc = .returned 0 ∧
      (∀ i, s.Served i) ∧
      s.performed ++ s.inHand = s.received.filter fun p => p.2.Performed := by
  have hrun : ((deviceClientsSystem twoAddrs).exec .init overtaken).map
      (fun s => (s.performed, s.inHand, (s.side 1).client.pc)) =
        some ([(none, ⟨0, ptypeDeviceMgmtReboot⟩)], [(some 0, ⟨0, ptypeDeviceMgmtHalt⟩)],
          .returned 0) := by
    decide
  obtain ⟨s, hs, hfacts⟩ := Option.map_eq_some_iff.mp hrun
  obtain ⟨hperformed, hinHand, hpc⟩ : _ ∧ _ ∧ _ := by simpa only [Prod.mk.injEq] using hfacts
  exact ⟨s, hs, hperformed, hinHand, hpc,
    deviceClients_served twoAddrs (LabelledSystem.reachable_of_exec hs)⟩

end Libbaalue
