import Libbaalue.Device.Mgmt
import Libbaalue.Foundations.AnonymousAck

/-!
# Device client and device server over UDP

Any sequence of the three device commands on one connected socket against one
`baa_device_mgmt_th`, over a network that loses datagrams and delivers them in any order, each
once. Datagrams carry a number that the code does not see: which command they are, or which
command they acknowledge.

All commands share one acknowledgement, so the composition refines the pattern of anonymous
acknowledgements (`device_refines_anonymousAck`), and `device_acknowledged` is what a return
value of 0 is worth: the server has received this command as long as no `recv` ever failed on
the socket, and this one or an earlier one afterwards.

The client's socket is connected, so that it receives from the server's address only; nobody forges.
What goes wrong is therefore between the two of them: an acknowledgement that comes after its `recv`
has failed waits for the next command, and is taken for its acknowledgement
(`not_received_lostHalt`).
-/

namespace Libbaalue

/-! ### The composition -/

/-- The commands of the client side. -/
inductive DeviceCommand
  | reboot
  | halt
  | ping
  deriving DecidableEq, Repr

/-- The call of a command, which is `simple_device_cmd` with its byte. -/
def DeviceCommand.start : DeviceCommand → DeviceClient
  | reboot => baaRebootDevice
  | halt => baaHaltDevice
  | ping => baaPingDevice

/-- A command in the network. Its number is not in the datagram; it is how many were sent before. -/
structure CommandPacket where
  id : ℕ
  datagram : Datagram
  deriving DecidableEq

/-- An acknowledgement in the network, with the number of the command it acknowledges, which no
party sees. -/
structure AckPacket where
  ackOf : ℕ
  payload : List Byte
  deriving DecidableEq

/-- The two parties, the network and the histories. The network holds what was sent and is neither
received nor lost. -/
structure DeviceSession where
  client : DeviceClient
  server : DeviceServer
  toServer : List CommandPacket
  toClient : List AckPacket
  /-- The number of commands sent. -/
  sent : ℕ
  /-- The command the server received last. -/
  handling : ℕ
  /-- The commands the server has received. -/
  received : List ℕ
  /-- The calls that returned 0: the command of the call, and the one acknowledged. -/
  credits : List AnonymousAck.Credit
  /-- A `recv` of the client has failed. -/
  recvFailed : Bool
  deriving DecidableEq

/-- Who moves; `k` picks a datagram in the network. Datagrams may be lost there, and be received in
any order, but not twice. -/
inductive DeviceLabel
  | call (c : DeviceCommand)
  | clientSend
  | clientSendFails
  | clientRecv (k : ℕ)
  | clientRecvFails
  | serverRecv (k : ℕ)
  | serverRecvFails
  | serverStep
  | loseCommand (k : ℕ)
  | loseAck (k : ℕ)
  deriving DecidableEq, Repr

variable (clientAddr : List Byte)

/-- One step of the composition; `none` when the party is not at that call. -/
def DeviceSession.step (s : DeviceSession) : DeviceLabel → Option DeviceSession
  | .call c =>
    match s.client.pc with
    | .returned _ => some { s with client := c.start }
    | _ => none
  | .clientSend =>
    match simpleDeviceCmd.call s.client with
    | .send payload =>
      some { s with
        client := simpleDeviceCmd.resume s.client ⟨payload.length, none⟩
        toServer := s.toServer ++ [⟨s.sent, ⟨clientAddr, payload⟩⟩], sent := s.sent + 1 }
    | _ => none
  | .clientSendFails =>
    match simpleDeviceCmd.call s.client with
    | .send _ => some { s with client := simpleDeviceCmd.resume s.client ⟨-1, none⟩ }
    | _ => none
  | .clientRecv k =>
    match simpleDeviceCmd.call s.client, s.toClient[k]? with
    | .recv, some p =>
      let client := simpleDeviceCmd.resume s.client ⟨0, some p.payload⟩
      some { s with
        client := client
        toClient := s.toClient.eraseIdx k
        credits :=
          if client.pc = .returned 0 then s.credits ++ [⟨s.sent - 1, p.ackOf, s.recvFailed⟩]
          else s.credits }
    | _, _ => none
  | .clientRecvFails =>
    match simpleDeviceCmd.call s.client with
    | .recv =>
      some { s with client := simpleDeviceCmd.resume s.client ⟨0, none⟩, recvFailed := true }
    | _ => none
  | .serverRecv k =>
    match baaDeviceMgmtTh.call s.server, s.toServer[k]? with
    | .recvfrom, some p =>
      some { s with
        server := baaDeviceMgmtTh.resume s.server ⟨some p.datagram, 0⟩
        toServer := s.toServer.eraseIdx k, handling := p.id, received := s.received ++ [p.id] }
    | _, _ => none
  | .serverRecvFails =>
    match baaDeviceMgmtTh.call s.server with
    | .recvfrom => some { s with server := baaDeviceMgmtTh.resume s.server ⟨none, 0⟩ }
    | _ => none
  | .serverStep =>
    match baaDeviceMgmtTh.call s.server with
    | .recvfrom => none
    | .sendto ptype addr =>
      -- a datagram to another address does not come back to this client
      if addr = clientAddr then
        some { s with
          server := baaDeviceMgmtTh.resume s.server ⟨none, 1⟩
          toClient := s.toClient ++ [⟨s.handling, [ptype]⟩] }
      else some { s with server := baaDeviceMgmtTh.resume s.server ⟨none, -1⟩ }
    | .halt | .reboot => some { s with server := baaDeviceMgmtTh.resume s.server ⟨none, 0⟩ }
  | .loseCommand k => some { s with toServer := s.toServer.eraseIdx k }
  | .loseAck k => some { s with toClient := s.toClient.eraseIdx k }

/-- Before the first call. -/
def DeviceSession.init : DeviceSession where
  client := ⟨.returned (-1), 0⟩
  server := .loop
  toServer := []
  toClient := []
  sent := 0
  handling := 0
  received := []
  credits := []
  recvFailed := false

/-- The composition of a device client and a device server, from a state in which nothing was
sent. -/
def deviceSystem : LabelledSystem DeviceSession DeviceLabel where
  init := .init
  step := DeviceSession.step clientAddr

/-! ### The invariant -/

variable {clientAddr}

variable (clientAddr) in
/-- The server is at its loop head or knows where to acknowledge. -/
structure DeviceServer.Ok (s : DeviceServer) : Prop where
  atLoop : s.pc = .recvfrom → s = .loop
  replies : s.pc = .rcvAck → s.addr = clientAddr

variable (clientAddr) in
/-- The joint invariant of the two parties and the network: what is under way to either side is what
that side expects. -/
structure DeviceSession.Inv (s : DeviceSession) : Prop where
  server_ok : s.server.Ok clientAddr
  command : s.client.pc = .send → s.client.cmd ∈ deviceCommands
  toServer_ok : ∀ p ∈ s.toServer, p.datagram.sender = clientAddr ∧
    p.datagram.payload.getD 0 0 ∈ deviceCommands
  toClient_ok : ∀ p ∈ s.toClient, p.payload = [ptypeRcvAck]
  started : s.client.pc = .recv → 0 < s.sent
  recorded : s.client.pc = .returned 0 → ∃ c ∈ s.credits, c.command + 1 = s.sent

theorem DeviceServer.Ok.loop : DeviceServer.loop.Ok clientAddr :=
  ⟨fun _ => rfl, fun h => by simp [DeviceServer.loop] at h⟩

theorem DeviceSession.Inv.init : DeviceSession.init.Inv clientAddr :=
  ⟨.loop, by simp [DeviceSession.init], by simp [DeviceSession.init], by simp [DeviceSession.init],
    by simp [DeviceSession.init], by simp [DeviceSession.init]⟩

variable (clientAddr) in
/-- The steps, under the invariant. -/
inductive DeviceSession.Move (s : DeviceSession) : DeviceSession → Prop
  | call (c : DeviceCommand) (ret : CInt) (hpc : s.client.pc = .returned ret) :
      Move s { s with client := c.start }
  | send (hpc : s.client.pc = .send) :
      Move s { s with
        client := { s.client with pc := .recv }
        toServer := s.toServer ++ [⟨s.sent, ⟨clientAddr, [s.client.cmd]⟩⟩], sent := s.sent + 1 }
  | sendFails (hpc : s.client.pc = .send) :
      Move s { s with client := { s.client with pc := .returned (-1) } }
  | recv (k : ℕ) (p : AckPacket) (hpc : s.client.pc = .recv) (hp : s.toClient[k]? = some p) :
      Move s { s with
        client := { s.client with pc := .returned 0 }
        toClient := s.toClient.eraseIdx k
        credits := s.credits ++ [⟨s.sent - 1, p.ackOf, s.recvFailed⟩] }
  | recvFails (hpc : s.client.pc = .recv) :
      Move s { s with client := { s.client with pc := .returned (-1) }, recvFailed := true }
  | serverRecv (k : ℕ) (p : CommandPacket) (server : DeviceServer)
      (hpc : s.server.pc = .recvfrom) (hp : s.toServer[k]? = some p) (hrcv : server.pc = .rcvAck)
      (hok : server.Ok clientAddr) :
      Move s { s with
        server := server
        toServer := s.toServer.eraseIdx k, handling := p.id, received := s.received ++ [p.id] }
  | ack (server : DeviceServer) (hpc : s.server.pc = .rcvAck) (hdone : server.pc ≠ .rcvAck)
      (hok : server.Ok clientAddr) :
      Move s { s with
        server := server, toClient := s.toClient ++ [⟨s.handling, [ptypeRcvAck]⟩] }
  | work (server : DeviceServer) (hpc : s.server.pc ≠ .rcvAck) (hdone : server.pc ≠ .rcvAck)
      (hok : server.Ok clientAddr) :
      Move s { s with server := server }
  | loseCommand (k : ℕ) : Move s { s with toServer := s.toServer.eraseIdx k }
  | loseAck (k : ℕ) : Move s { s with toClient := s.toClient.eraseIdx k }

/-- What follows an acknowledgement is no second one. -/
theorem DeviceServer.Ok.afterAck {s : DeviceServer} (sent : ℤ) :
    (s.afterAck sent).pc ≠ .rcvAck ∧ (s.afterAck sent).Ok clientAddr := by
  unfold DeviceServer.afterAck
  split_ifs
  · exact ⟨by simp, by simp, by simp⟩
  · exact ⟨by simp, by simp, by simp⟩
  · exact ⟨by simp [DeviceServer.loop], .loop⟩

/-- A step of the client is one of its moves. -/
private theorem DeviceSession.Inv.move_client {s t : DeviceSession} (h : s.Inv clientAddr)
    {a : DeviceLabel} (ha : a ∈ [DeviceLabel.clientSend, .clientSendFails, .clientRecvFails] ∨
      (∃ c, a = .call c) ∨ ∃ k, a = .clientRecv k)
    (hst : s.step clientAddr a = some t) : s.Move clientAddr t := by
  simp only [List.mem_cons, List.not_mem_nil, or_false] at ha
  rcases hpc : s.client.pc with _ | _ | ret <;>
    rcases ha with (rfl | rfl | rfl) | ⟨c, rfl⟩ | ⟨k, rfl⟩ <;>
    simp only [DeviceSession.step, simpleDeviceCmd, hpc, reduceCtorEq] at hst
  case send.inl.inl =>
    obtain rfl := Option.some.inj hst
    exact .send hpc
  case send.inl.inr.inl =>
    obtain rfl := Option.some.inj hst
    exact .sendFails hpc
  case recv.inl.inr.inr =>
    obtain rfl := Option.some.inj hst
    exact .recvFails hpc
  case recv.inr.inr =>
    rcases hp : s.toClient[k]? with _ | p
    · simp [hp] at hst
    · -- all that is on its way to the client are acknowledgements
      have hpayload := h.toClient_ok p (List.mem_of_getElem? hp)
      have hret : deviceReplyRet ([ptypeRcvAck].headD 0x00) = 0 := by decide
      simp only [hp, hpayload, hret, if_pos, Option.some.injEq] at hst
      subst hst
      exact .recv k p hpc hp
  case returned.inr.inl =>
    obtain rfl := Option.some.inj hst
    exact .call c ret hpc

/-- A step of the server is one of its moves. -/
private theorem DeviceSession.Inv.move_server {s t : DeviceSession} (h : s.Inv clientAddr)
    {a : DeviceLabel} (ha : a ∈ [DeviceLabel.serverRecvFails, .serverStep] ∨
      ∃ k, a = .serverRecv k)
    (hst : s.step clientAddr a = some t) : s.Move clientAddr t := by
  simp only [List.mem_cons, List.not_mem_nil, or_false] at ha
  rcases hpc : s.server.pc <;> rcases ha with (rfl | rfl) | ⟨k, rfl⟩ <;>
    simp only [DeviceSession.step, baaDeviceMgmtTh, hpc, reduceCtorEq] at hst
  case recvfrom.inl.inl =>
    obtain rfl := Option.some.inj hst
    exact .work .loop (by simp [hpc]) (by simp [DeviceServer.loop]) .loop
  case recvfrom.inr =>
    rcases hp : s.toServer[k]? with _ | p
    · simp [hp] at hst
    · simp only [hp, Option.some.injEq] at hst
      subst hst
      obtain ⟨hsender, hcmd⟩ := h.toServer_ok p (List.mem_of_getElem? hp)
      obtain ⟨hrcv, haddr⟩ := afterRecv_command hcmd
      rw [h.server_ok.atLoop hpc]
      exact .serverRecv k p _ hpc hp hrcv
        ⟨fun hloop => absurd (hrcv.symm.trans hloop) (by simp), fun _ => haddr.trans hsender⟩
  -- the server replies to where the command came from, which is the client
  case rcvAck.inl.inr =>
    rw [if_pos (h.server_ok.replies hpc)] at hst
    obtain rfl := Option.some.inj hst
    obtain ⟨hdone, hok⟩ : _ ∧ (s.server.afterAck 1).Ok clientAddr := DeviceServer.Ok.afterAck 1
    exact .ack _ hpc hdone hok
  case halt.inl.inr | reboot.inl.inr =>
    obtain rfl := Option.some.inj hst
    exact .work .loop (by simp [hpc]) (by simp [DeviceServer.loop]) .loop

/-- **What a step does**, in a state that satisfies the invariant. -/
theorem DeviceSession.Inv.step_cases {s t : DeviceSession} (h : s.Inv clientAddr)
    {a : DeviceLabel} (hst : s.step clientAddr a = some t) : s.Move clientAddr t := by
  cases a with
  | call c => exact h.move_client (.inr (.inl ⟨c, rfl⟩)) hst
  | clientSend => exact h.move_client (.inl (by simp)) hst
  | clientSendFails => exact h.move_client (.inl (by simp)) hst
  | clientRecv k => exact h.move_client (.inr (.inr ⟨k, rfl⟩)) hst
  | clientRecvFails => exact h.move_client (.inl (by simp)) hst
  | serverRecv k => exact h.move_server (.inr ⟨k, rfl⟩) hst
  | serverRecvFails => exact h.move_server (.inl (by simp)) hst
  | serverStep => exact h.move_server (.inl (by simp)) hst
  | loseCommand k => exact Option.some.inj hst ▸ .loseCommand k
  | loseAck k => exact Option.some.inj hst ▸ .loseAck k

/-- Every command is one the server acknowledges. -/
theorem DeviceCommand.start_eq (c : DeviceCommand) :
    c.start.pc = .send ∧ c.start.cmd ∈ deviceCommands := by
  cases c <;> exact ⟨rfl, by decide⟩

/-- Every move keeps the invariant. -/
theorem DeviceSession.Inv.move {s t : DeviceSession} (h : s.Inv clientAddr)
    (hst : s.Move clientAddr t) : t.Inv clientAddr := by
  cases hst with
  | call c ret hpc =>
    obtain ⟨hsend, hcmd⟩ := c.start_eq
    exact { h with
      command := fun _ => hcmd
      started := fun hrecv => by simp [hsend] at hrecv
      recorded := fun hret => by simp [hsend] at hret }
  | send hpc =>
    exact { h with
      command := by simp
      toServer_ok := fun p hp => by
        rcases List.mem_append.mp hp with hp | hp
        · exact h.toServer_ok p hp
        · obtain rfl := List.mem_singleton.mp hp
          exact ⟨rfl, h.command hpc⟩
      started := fun _ => Nat.succ_pos _
      recorded := by simp }
  -- a call that failed is not credited
  | sendFails hpc =>
    exact { h with command := by simp, started := by simp, recorded := by simp }
  | recv k p hpc hp =>
    exact { h with
      command := by simp
      toClient_ok := fun q hq => h.toClient_ok q (List.mem_of_mem_eraseIdx hq)
      started := by simp
      recorded := fun _ => ⟨_, List.mem_append_right _ (List.mem_singleton_self _),
        Nat.sub_add_cancel (h.started hpc)⟩ }
  | recvFails hpc =>
    exact { h with command := by simp, started := by simp, recorded := by simp }
  | serverRecv k p server hpc hp hrcv hok =>
    exact { h with
      server_ok := hok
      toServer_ok := fun q hq => h.toServer_ok q (List.mem_of_mem_eraseIdx hq) }
  | ack server hpc hdone hok =>
    exact { h with
      server_ok := hok
      toClient_ok := fun p hp => by
        rcases List.mem_append.mp hp with hp | hp
        · exact h.toClient_ok p hp
        · obtain rfl := List.mem_singleton.mp hp
          rfl }
  | work server hpc hdone hok => exact { h with server_ok := hok }
  | loseCommand k =>
    exact { h with toServer_ok := fun q hq => h.toServer_ok q (List.mem_of_mem_eraseIdx hq) }
  | loseAck k =>
    exact { h with toClient_ok := fun q hq => h.toClient_ok q (List.mem_of_mem_eraseIdx hq) }

/-! ### The refinement -/

/-- The acknowledgement the server is about to send. -/
def DeviceSession.owed (s : DeviceSession) : List ℕ :=
  if s.server.pc = .rcvAck then [s.handling] else []

/-- The session, without the contents of the datagrams. An acknowledgement counts as under way from
the moment the server owes it. -/
def DeviceSession.pattern (s : DeviceSession) : AnonymousAck.State where
  sent := s.sent
  requests := s.toServer.map CommandPacket.id
  acks := s.toClient.map AckPacket.ackOf ++ s.owed
  received := s.received
  credits := s.credits
  waiting := decide (s.client.pc = .recv)
  aborted := s.recvFailed

/-- Every move is an event of the pattern, or none. -/
theorem DeviceSession.Move.event {s t : DeviceSession} (hst : s.Move clientAddr t) :
    t.pattern = s.pattern ∨ ∃ e, AnonymousAck.step s.pattern e = some t.pattern := by
  cases hst with
  | call c ret hpc => exact .inl (by simp [pattern, hpc, c.start_eq.1, owed])
  | send hpc => exact .inr ⟨.send, by simp [AnonymousAck.step, pattern, hpc, owed]⟩
  | sendFails hpc => exact .inl (by simp [pattern, hpc, owed])
  | recv k p hpc hp =>
    refine .inr ⟨.consume k, ?_⟩
    obtain ⟨hk, rfl⟩ := List.getElem?_eq_some_iff.mp hp
    simp [AnonymousAck.step, pattern, hpc, owed, List.getElem?_append_left,
      List.eraseIdx_append_of_lt_length, hk, List.eraseIdx_map]
  | recvFails hpc => exact .inr ⟨.abort, by simp [AnonymousAck.step, pattern, hpc, owed]⟩
  | serverRecv k p server hpc hp hrcv hok =>
    refine .inr ⟨.receive k, ?_⟩
    simp [AnonymousAck.step, pattern, hpc, owed, hp, hrcv, List.eraseIdx_map]
  | ack server hpc hdone hok => exact .inl (by simp [pattern, hpc, owed, hdone])
  | work server hpc hdone hok => exact .inl (by simp [pattern, hpc, owed, hdone])
  | loseCommand k =>
    exact .inr ⟨.loseRequest k, by simp [AnonymousAck.step, pattern, owed, List.eraseIdx_map]⟩
  | loseAck k =>
    by_cases hk : k < s.toClient.length
    · refine .inr ⟨.loseAck k, ?_⟩
      simp [AnonymousAck.step, pattern, owed, List.eraseIdx_map, List.eraseIdx_append_of_lt_length,
        hk]
    · left
      rw [List.eraseIdx_of_length_le (Nat.le_of_not_lt hk)]

variable (clientAddr) in
/-- **The device session refines the pattern of anonymous acknowledgements.** So what the pattern
says of credits holds of the calls of a client. -/
theorem device_refines_anonymousAck :
    (deviceSystem clientAddr).Refinement AnonymousAck.system (DeviceSession.Inv clientAddr)
      DeviceSession.pattern where
  inv_init := .init
  abs_init := rfl
  inv_step _ _ _ h _ hst := h.move (h.step_cases hst)
  abs_step _ _ _ h hst := (h.step_cases hst).event

/-! ### What an acknowledgement is worth -/

/-- What the return values of the calls made so far say about the server: that it has received a
command, though not always the one of the call. -/
structure DeviceSession.Acknowledged (s : DeviceSession) : Prop where
  /-- A call that returned 0 is credited, with the command it sent. -/
  recorded : s.client.pc = .returned 0 → ∃ c ∈ s.credits, c.command + 1 = s.sent
  /-- The server has received the command behind a credit, and it is no later one. -/
  received : ∀ c ∈ s.credits, c.ack ∈ s.received ∧ c.ack ≤ c.command
  /-- Before a `recv` failed it is the call's own command. -/
  prompt : ∀ c ∈ s.credits, c.late = false → c.ack = c.command
  /-- No two calls are credited with the same command. -/
  once : (s.credits.map AnonymousAck.Credit.ack).Nodup

/-- **A command reported as acknowledged.** In every run, a call that returned 0 has had its
own command received as long as no `recv` had failed before; afterwards the server has received
this command or an earlier one, a different one for every call that returned 0. -/
theorem device_acknowledged (clientAddr : List Byte) {s : DeviceSession}
    (h : (deviceSystem clientAddr).Reachable s) : s.Acknowledged := by
  obtain ⟨hinv, hpattern⟩ := (device_refines_anonymousAck clientAddr).reachable h
  have hcredits := AnonymousAck.inv_of_reachable hpattern
  refine ⟨hinv.recorded, fun c hc => ⟨?_, (hcredits.credited c hc).1⟩,
    fun c hc => (hcredits.credited c hc).2, ?_⟩
  · exact hcredits.acked _ (List.mem_append_right _ (List.mem_map_of_mem hc))
  · -- the tokens of the credits are among those of the session, and these are distinct
    have hsub : (s.credits.map AnonymousAck.Credit.ack).Sublist s.pattern.tokens :=
      (List.sublist_append_right _ _).trans (List.sublist_append_right _ _)
    exact hcredits.nodup.sublist hsub

/-- A ping that is answered. -/
def answeredPing : List DeviceLabel := [.call .ping, .clientSend, .serverRecv 0, .serverStep,
  .clientRecv 0]

/-- The answered ping was received. -/
theorem device_acknowledged_answeredPing :
    ∃ s, (deviceSystem [1]).exec .init answeredPing = some s ∧
      s.client.pc = .returned 0 ∧ s.Acknowledged := by
  have hpc : ((deviceSystem [1]).exec .init answeredPing).map (fun s => s.client.pc) =
      some (.returned 0) := by
    decide
  obtain ⟨s, hs, hret⟩ := Option.map_eq_some_iff.mp hpc
  exact ⟨s, hs, hret, device_acknowledged [1] (LabelledSystem.reachable_of_exec hs)⟩

/-- A ping whose acknowledgement is late, and a halt that is lost. -/
def lostHalt : List DeviceLabel := [.call .ping, .clientSend, .serverRecv 0, .serverStep,
  .clientRecvFails, .call .halt, .clientSend, .loseCommand 0, .clientRecv 0]

/-- The late acknowledgement of the ping makes the lost halt return 0. -/
theorem not_received_lostHalt :
    ∃ s, (deviceSystem [1]).Reachable s ∧ s.client = ⟨.returned 0, ptypeDeviceMgmtHalt⟩ ∧
      ¬ s.sent - 1 ∈ s.received := by
  have hrun : ((deviceSystem [1]).exec .init lostHalt).map
      (fun s => (s.client, s.sent, s.received)) =
        some (⟨.returned 0, ptypeDeviceMgmtHalt⟩, 2, [0]) := by
    decide
  obtain ⟨s, hs, hfacts⟩ := Option.map_eq_some_iff.mp hrun
  obtain ⟨hclient, hsent, hreceived⟩ : _ ∧ _ ∧ _ := by simpa only [Prod.mk.injEq] using hfacts
  refine ⟨s, LabelledSystem.reachable_of_exec hs, hclient, ?_⟩
  rw [hsent, hreceived]
  decide

end Libbaalue
