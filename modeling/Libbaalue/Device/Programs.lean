import Libbaalue.Device.Clients

/-!
# The management programs

`udp_mgmt_ping_client.c` pings a server ten times and `udp_mgmt_reboot_client.c` reboots it and
pings it from a new socket once it is back. Both stop at the first call that fails. Any number
of such processes run at one device server, with strangers and a network that loses and reorders
datagrams.

An acknowledgement does not tell which command it is for, but a process that stops never waits
for another one than that of its last command. So the end of `main` is worth what it says: the
server has received all commands of the process, on each socket in order and each once
(`mgmt_clients`).

The exit status alone is not. Each process has a thread for its signals, which calls
`exit(EXIT_SUCCESS)` on a `SIGTERM`, wherever `main` stands, so that the ways to end are told
apart here (`MgmtEnd`): a status of 0 says that the commands were received unless a `SIGTERM`
came.

A program uses each of its sockets for a part of its script, and no two programs share one; with
that, the histories of a socket are determined by the place of one `main` (`MgmtMain.Uses`). The
clients themselves are those of `Clients`, unchanged: a step of a program is a step there, or none.
-/

namespace Libbaalue

open AnonymousAck

variable {n m : ℕ}

/-! ### The processes -/

/-- A command, and the socket it goes to. -/
abbrev MgmtCall (n : ℕ) := Fin n × DeviceCommand

/-- The byte that is sent. -/
def DeviceCommand.byte (c : DeviceCommand) : Byte := c.start.cmd

/-- What goes to a socket of the calls of a script, as bytes and in order. -/
def onSocket (i : Fin n) (calls : List (MgmtCall n)) : List Byte :=
  (ownedBy i calls).map DeviceCommand.byte

/-- The calls of `udp_mgmt_ping_client.c`, which has one socket for all of them. -/
def pingClient (i : Fin n) : List (MgmtCall n) := List.replicate 10 (i, .ping)

/-- The calls of `udp_mgmt_reboot_client.c`, with the first socket and the one that is used when
the server is back. -/
def rebootClient (i j : Fin n) : List (MgmtCall n) := [(i, .reboot), (j, .ping)]

/-- How a process has come to its `exit`. -/
inductive MgmtEnd
  /-- `main` has made all its calls. -/
  | done
  /-- A call of `main` has failed: one of the script, or one that sets up a socket, the signal mask
  or the signal thread; or `sigwait` has. -/
  | failed
  /-- The signal thread has got a `SIGTERM`. -/
  | sigterm
  deriving DecidableEq, Repr

/-- The status of the `exit`. It does not tell a script that was carried out from a `SIGTERM`. -/
def MgmtEnd.status : MgmtEnd → CInt
  | done | sigterm => 0
  | failed => 1

/-- `main` of a process: its calls one after the other, until one fails or the process ends. What
comes before the first call, and between two calls, may end it as well. -/
structure MgmtMain (n : ℕ) where
  finished : List (MgmtCall n)
  current : Option (MgmtCall n)
  todo : List (MgmtCall n)
  ended : Option MgmtEnd

namespace MgmtMain

/-- One of the threads calls `exit`. -/
def exit (main : MgmtMain n) (e : MgmtEnd) : MgmtMain n := { main with ended := some e }

/-- The next call begins. -/
def begin (main : MgmtMain n) (x : MgmtCall n) (todo : List (MgmtCall n)) : MgmtMain n :=
  { main with current := some x, todo := todo }

/-- The call has returned 0. -/
def finish (main : MgmtMain n) (x : MgmtCall n) : MgmtMain n :=
  { main with finished := main.finished ++ [x], current := none }

end MgmtMain

/-- The processes, each with sockets of its own. The scripts are arbitrary; those of the two
programs are among them. -/
structure MgmtPrograms (n m : ℕ) where
  script : Fin m → List (MgmtCall n)
  own : ∀ p q x y, x ∈ script p → y ∈ script q → x.1 = y.1 → p = q

/-- The processes, and the system their calls are made in. -/
structure MgmtClients (n m : ℕ) where
  clients : DeviceClients n
  main : Fin m → MgmtMain n

/-- Who moves: `main` of a process, in its script or by an `exit` outside of it; its signal thread;
or anything else but a new call. -/
inductive MgmtLabel (n m : ℕ)
  | main (p : Fin m)
  | giveUp (p : Fin m)
  | sigterm (p : Fin m)
  | sigwaitFails (p : Fin m)
  | env (a : DeviceClientsLabel n)

def DeviceClientsLabel.isCall : DeviceClientsLabel n → Bool
  | .call _ _ => true
  | _ => false

/-- The state with one `main` replaced. -/
def MgmtClients.setMain (s : MgmtClients n m) (p : Fin m) (main : MgmtMain n) : MgmtClients n m :=
  { s with main := Function.update s.main p main }

/-- A thread of a process that has not ended calls `exit`. -/
def MgmtClients.exit (s : MgmtClients n m) (p : Fin m) (e : MgmtEnd) : Option (MgmtClients n m) :=
  match (s.main p).ended with
  | some _ => none
  | none => some (s.setMain p ((s.main p).exit e))

/-- One step. The datagrams of a process that has ended stay under way, and a call it was in may
still go on until the process is gone. -/
def MgmtClients.step (addrs : ClientAddrs n) (s : MgmtClients n m) :
    MgmtLabel n m → Option (MgmtClients n m)
  | .main p =>
    match (s.main p).ended, (s.main p).current, (s.main p).todo with
    | some _, _, _ => none
    | none, some x, _ =>
      match (s.clients.side x.1).client.pc with
      | .returned ret =>
        if ret = -1 then some (s.setMain p ((s.main p).exit .failed))
        else some (s.setMain p ((s.main p).finish x))
      | _ => none
    | none, none, [] => some (s.setMain p ((s.main p).exit .done))
    | none, none, x :: todo =>
      (s.clients.step addrs (.call x.1 x.2)).map fun clients =>
        MgmtClients.setMain { s with clients := clients } p ((s.main p).begin x todo)
  -- a socket, the signal mask or the signal thread could not be had
  | .giveUp p =>
    match (s.main p).current with
    | some _ => none
    | none => s.exit p .failed
  -- the signal thread waits from before the first call on
  | .sigterm p => s.exit p .sigterm
  | .sigwaitFails p => s.exit p .failed
  | .env a =>
    if a.isCall then none
    else (s.clients.step addrs a).map fun clients => { s with clients := clients }

/-- The processes at one device server, with strangers and the network, each at the beginning of its
script. -/
def mgmtSystem (addrs : ClientAddrs n) (programs : MgmtPrograms n m) :
    LabelledSystem (MgmtClients n m) (MgmtLabel n m) where
  init := ⟨.init, fun p => ⟨[], none, programs.script p, none⟩⟩
  step := MgmtClients.step addrs

/-! ### What a step does to a client -/

/-- What becomes of a client when it makes no new call. -/
inductive DeviceSide.Move (s t : DeviceSide n) : Prop
  | keep (hclient : t.client = s.client) (hcommands : t.commands = s.commands)
      (hcredits : t.credits.length = s.credits.length)
  | send (hpc : s.client.pc = .send) (hpc' : t.client.pc = .recv)
      (hcommands : t.commands = s.commands ++ [s.client.cmd])
      (hcredits : t.credits.length = s.credits.length)
  | fail (hpc : ∀ ret, s.client.pc ≠ .returned ret) (hpc' : t.client.pc = .returned (-1))
      (hcommands : t.commands = s.commands) (hcredits : t.credits.length = s.credits.length)
  | ack (hpc : s.client.pc = .recv) (hpc' : t.client.pc = .returned 0)
      (hcommands : t.commands = s.commands)
      (hcredits : t.credits.length = s.credits.length + 1)

private theorem deviceReplyRet_cases (ptype : Byte) :
    deviceReplyRet ptype = 0 ∨ deviceReplyRet ptype = -1 := by
  rw [deviceReplyRet]
  split_ifs
  · exact .inr rfl
  · exact .inl rfl
  · exact .inr rfl

namespace DeviceClients

variable {addrs : ClientAddrs n} {s t : DeviceClients n}

/-- A client whose side is replaced. -/
private theorem side_setSide (s : DeviceClients n) (i j : Fin n) (side : DeviceSide n) :
    (s.setSide i side).side j = if j = i then side else s.side j :=
  Function.update_apply ..

/-- The step of one client is nothing to the others. -/
private theorem move_setSide (hsame : t.side = s.side) {i : Fin n} {side : DeviceSide n}
    (h : (s.side i).Move side) (j : Fin n) : (s.side j).Move ((t.setSide i side).side j) := by
  rw [side_setSide, hsame]
  split_ifs with heq
  · exact heq ▸ h
  · exact .keep rfl rfl rfl

/-- A new call. -/
theorem step_call {i : Fin n} {c : DeviceCommand} (hst : s.step addrs (.call i c) = some t) :
    t = s.setSide i { s.side i with client := c.start } ∧
      ∃ ret, (s.side i).client.pc = .returned ret := by
  rcases hpc : (s.side i).client.pc with _ | _ | ret
  case send | recv => simp [step, hpc] at hst
  simp only [step, hpc, Option.some.injEq] at hst
  exact ⟨hst.symm, ret, rfl⟩

/-- **The moves of a client** that makes no new call: it sends, fails, is acknowledged, or stays
where it is. -/
theorem side_move {a : DeviceClientsLabel n} (hcall : a.isCall = false)
    (hst : s.step addrs a = some t) (j : Fin n) : (s.side j).Move (t.side j) := by
  cases a with
  | call i c => cases hcall
  | clientSend i =>
    rcases hpc : (s.side i).client.pc with _ | _ | ret
    case recv | returned => simp [step, simpleDeviceCmd, hpc] at hst
    simp only [step, simpleDeviceCmd, hpc, Option.some.injEq] at hst
    subst hst
    refine move_setSide rfl ?_ j
    exact .send hpc rfl rfl rfl
  | clientSendFails i =>
    rcases hpc : (s.side i).client.pc with _ | _ | ret
    case recv | returned => simp [step, simpleDeviceCmd, hpc] at hst
    simp only [step, simpleDeviceCmd, hpc, Option.some.injEq] at hst
    subst hst
    refine move_setSide rfl ?_ j
    exact .fail (fun ret hret => by simp [hpc] at hret) rfl rfl rfl
  | clientRecv i k =>
    rcases hpc : (s.side i).client.pc with _ | _ | ret
    case send | returned => simp [step, simpleDeviceCmd, hpc] at hst
    rcases hp : (s.side i).toClient[k]? with _ | p
    · simp [step, simpleDeviceCmd, hpc, hp] at hst
    simp only [step, simpleDeviceCmd, hpc, hp, Option.some.injEq] at hst
    subst hst
    refine move_setSide rfl ?_ j
    rcases deviceReplyRet_cases (p.2.payload.headD 0x00) with hret | hret
    · rw [hret, if_pos rfl]
      exact .ack hpc rfl rfl List.length_append
    · rw [hret, if_neg (by decide)]
      exact .fail (fun ret hret => by simp [hpc] at hret) rfl rfl rfl
  | clientRecvFails i =>
    rcases hpc : (s.side i).client.pc with _ | _ | ret
    case send | returned => simp [step, simpleDeviceCmd, hpc] at hst
    simp only [step, simpleDeviceCmd, hpc, Option.some.injEq] at hst
    subst hst
    refine move_setSide rfl ?_ j
    exact .fail (fun ret hret => by simp [hpc] at hret) rfl rfl rfl
  | loseAck i k =>
    obtain rfl := Option.some.inj hst
    refine move_setSide rfl ?_ j
    exact .keep rfl rfl rfl
  | stranger d =>
    simp only [step] at hst
    split_ifs at hst
    obtain rfl := Option.some.inj hst
    exact .keep rfl rfl rfl
  | loseCommand k =>
    obtain rfl := Option.some.inj hst
    exact .keep rfl rfl rfl
  | serverRecv k =>
    simp only [step] at hst
    split at hst
    · obtain rfl := Option.some.inj hst
      exact .keep rfl rfl rfl
    · cases hst
  | serverRecvFails =>
    simp only [step] at hst
    split at hst
    · obtain rfl := Option.some.inj hst
      exact .keep rfl rfl rfl
    · cases hst
  | serverStep sent =>
    simp only [step] at hst
    split at hst
    · cases hst
    · obtain rfl := Option.some.inj hst
      rw [serverSend]
      split
      · refine move_setSide rfl ?_ j
        exact .keep rfl rfl rfl
      · exact .keep rfl rfl rfl
    · obtain rfl := Option.some.inj hst
      exact .keep rfl rfl rfl
    · obtain rfl := Option.some.inj hst
      exact .keep rfl rfl rfl

end DeviceClients

/-! ### In step with the server -/

/-- The commands before a call were credited. -/
structure DeviceSession.InStep (v : DeviceSession) : Prop where
  pattern : v.pattern.InStep
  calling : v.client.pc = .send → v.sent = v.credits.length

/-- Only a client that sends has sent more. -/
private theorem DeviceSession.Move.send_of_sent {clientAddr : List Byte} {v w : DeviceSession}
    (h : v.Move clientAddr w) (hsent : w.sent = v.sent + 1) : v.client.pc = .send := by
  cases h with
  | send hpc => exact hpc
  | _ => exact absurd hsent (Nat.ne_of_lt (Nat.lt_succ_self _))

/-- A move keeps the two in step. -/
private theorem DeviceSession.InStep.pattern_move {clientAddr : List Byte} {v w : DeviceSession}
    (hinv : v.pattern.Inv) (h : v.InStep) (hmove : v.Move clientAddr w) : w.pattern.InStep := by
  rcases hmove.event with heq | ⟨e, he⟩
  · exact heq ▸ h.pattern
  · refine h.pattern.step hinv (fun hsend => ?_) he
    subst hsend
    simp only [AnonymousAck.step] at he
    split_ifs at he with hwaiting
    have hsent : w.sent = v.sent + 1 := congrArg State.sent (Option.some.inj he).symm
    exact h.calling (hmove.send_of_sent hsent)

namespace DeviceClients

variable {addrs : ClientAddrs n} {s t : DeviceClients n}

/-- What a client sees of its histories. -/
private theorem view_eq (s : DeviceClients n) (i : Fin n) :
    (s.view i).client = (s.side i).client ∧ (s.view i).sent = (s.side i).commands.length ∧
      (s.view i).credits.length = (s.side i).credits.length :=
  ⟨rfl, rfl, List.length_map ..⟩

/-- Steps that are no new call keep everybody in step. -/
theorem inStep_step (h : (deviceClientsSystem addrs).Reachable s) {a : DeviceClientsLabel n}
    (hcall : a.isCall = false) (hst : s.step addrs a = some t) {j : Fin n}
    (hin : (s.view j).InStep) : (t.view j).InStep := by
  obtain ⟨hinv, hviews⟩ := (deviceClients_views addrs).reachable h
  constructor
  · rcases (hinv.step hviews hst).2 j with heq | hmove | ⟨hloop, handling, heq⟩
    · exact heq ▸ hin.pattern
    · exact hin.pattern_move (hviews j).pattern hmove
    · have hpattern : (t.view j).pattern = (s.view j).pattern := by
        rw [heq]
        simp [DeviceSession.pattern, DeviceSession.owed, hloop, DeviceServer.loop]
      exact hpattern ▸ hin.pattern
  · obtain ⟨hclient, hsent, hcredits⟩ := t.view_eq j
    obtain ⟨hclient', hsent', hcredits'⟩ := s.view_eq j
    have hcalling := hin.calling
    rw [hclient', hsent', hcredits'] at hcalling
    rw [hclient, hsent, hcredits]
    intro hpc
    cases side_move hcall hst j with
    | keep hsame hcommands hlength =>
      rw [hcommands, hlength]
      exact hcalling (hsame ▸ hpc)
    | send _ hpc' => cases hpc'.symm.trans hpc
    | fail _ hpc' => cases hpc'.symm.trans hpc
    | ack _ hpc' => cases hpc'.symm.trans hpc

/-- So does a new call of a client all of whose commands are credited. -/
theorem inStep_call {i : Fin n} {c : DeviceCommand} (hst : s.step addrs (.call i c) = some t)
    (hcredits : (s.side i).commands.length = (s.side i).credits.length) {j : Fin n}
    (hin : (s.view j).InStep) : (t.view j).InStep := by
  obtain ⟨rfl, ret, hpc⟩ := step_call hst
  rcases eq_or_ne j i with rfl | hne
  · have hclient : ((s.setSide j { s.side j with client := c.start }).view j) =
        { s.view j with client := c.start } := by
      simp only [DeviceClients.view, DeviceClients.setSide, Function.update_self]
      rfl
    have hpc' : (s.view j).client.pc = .returned ret := hpc
    rw [hclient]
    refine ⟨?_, fun _ => hcredits.trans (s.view_eq j).2.2.symm⟩
    have hpattern : DeviceSession.pattern { s.view j with client := c.start } =
        (s.view j).pattern := by
      simp [DeviceSession.pattern, DeviceSession.owed, c.start_eq.1, hpc']
    exact hpattern ▸ hin.pattern
  · rw [view_setSide_of_ne s hne]
    exact hin

/-- What the server has received of a client that is in step: a first part of what it has sent, with
at least the commands that were credited. -/
theorem received_of_inStep (h : (deviceClientsSystem addrs).Reachable s) {i : Fin n}
    (hin : (s.view i).InStep) :
    ∃ r, (ownedBy (some i) s.received).map ReceivedCommand.ptype = (s.side i).commands.take r ∧
      (s.side i).credits.length ≤ r ∧ r ≤ (s.side i).commands.length := by
  obtain ⟨hinv, -⟩ := (deviceClients_views addrs).reachable h
  obtain ⟨-, hsent, hcredits⟩ := s.view_eq i
  have hlength : (s.view i).received.length = (ownedBy (some i) s.received).length :=
    List.length_map ..
  have hids : (ownedBy (some i) s.received).map ReceivedCommand.id =
      List.range (ownedBy (some i) s.received).length := by
    rw [← hlength]
    exact hin.pattern.received
  refine ⟨(ownedBy (some i) s.received).length, List.ext_getElem? fun k => ?_, ?_, ?_⟩
  · rw [List.getElem?_map, List.getElem?_take]
    rcases lt_or_ge k (ownedBy (some i) s.received).length with hk | hk
    · have hc := List.getElem?_eq_getElem hk
      set c := (ownedBy (some i) s.received)[k]
      have hid : c.id = k := by
        have hget := congrArg (fun l => l[k]?) hids
        simp only [List.getElem?_map, hc, List.getElem?_range hk, Option.map_some] at hget
        exact Option.some.inj hget
      have hown := hinv.sent_received (some i, c)
        (mem_ownedBy_iff.mp (List.mem_of_getElem? hc)) i rfl
      rw [if_pos hk, hc, Option.map_some, ← hown, hid]
    · rw [if_neg (Nat.not_lt.mpr hk), List.getElem?_eq_none hk]
      rfl
  · rw [← hcredits, ← hlength]
    exact hin.pattern.credits_le
  · rw [← hsent, ← hlength]
    exact hin.pattern.received_le

end DeviceClients

/-! ### The histories of a process -/

/-- A call under way, on a socket that has been used for the commands `before`. -/
inductive DeviceSide.Calling (before : List Byte) (c : Byte) (side : DeviceSide n) : Prop
  | send (hpc : side.client.pc = .send) (hcmd : side.client.cmd = c)
      (hcommands : side.commands = before) (hcredits : side.credits.length = before.length)
  | recv (hpc : side.client.pc = .recv) (hcommands : side.commands = before ++ [c])
      (hcredits : side.credits.length = before.length)
  | failed (hpc : side.client.pc = .returned (-1))
      (hcommands : side.commands = before ∨ side.commands = before ++ [c])
      (hcredits : side.credits.length = before.length)
  | acked (hpc : side.client.pc = .returned 0) (hcommands : side.commands = before ++ [c])
      (hcredits : side.credits.length = before.length + 1)

/-- Between two calls. -/
structure DeviceSide.Settled (before : List Byte) (side : DeviceSide n) : Prop where
  pc : ∃ ret, side.client.pc = .returned ret
  commands : side.commands = before
  credits : side.credits.length = before.length

theorem DeviceSide.Settled.move {before : List Byte} {side side' : DeviceSide n}
    (h : side.Settled before) (hmove : side.Move side') : side'.Settled before := by
  obtain ⟨⟨ret, hpc⟩, hcommands, hcredits⟩ := h
  cases hmove with
  | keep hclient hsame hlength =>
    exact ⟨⟨ret, hclient ▸ hpc⟩, hsame.trans hcommands, hlength.trans hcredits⟩
  | send hsend => cases hpc.symm.trans hsend
  | fail hne => exact absurd hpc (hne ret)
  | ack hrecv => cases hpc.symm.trans hrecv

theorem DeviceSide.Calling.move {before : List Byte} {c : Byte} {side side' : DeviceSide n}
    (h : side.Calling before c) (hmove : side.Move side') : side'.Calling before c := by
  cases hmove with
  | keep hclient hsame hlength =>
    cases h with
    | send hpc hcmd hcommands hcredits =>
      exact .send (hclient ▸ hpc) (hclient ▸ hcmd) (hsame.trans hcommands)
        (hlength.trans hcredits)
    | recv hpc hcommands hcredits =>
      exact .recv (hclient ▸ hpc) (hsame.trans hcommands) (hlength.trans hcredits)
    | failed hpc hcommands hcredits =>
      exact .failed (hclient ▸ hpc) (hsame ▸ hcommands) (hlength.trans hcredits)
    | acked hpc hcommands hcredits =>
      exact .acked (hclient ▸ hpc) (hsame.trans hcommands) (hlength.trans hcredits)
  | send hsend hpc' hsame hlength =>
    cases h with
    | send hpc hcmd hcommands hcredits =>
      exact .recv hpc' (by rw [hsame, hcommands, hcmd]) (hlength.trans hcredits)
    | recv hpc => cases hpc.symm.trans hsend
    | failed hpc => cases hpc.symm.trans hsend
    | acked hpc => cases hpc.symm.trans hsend
  | fail hne hpc' hsame hlength =>
    cases h with
    | send hpc hcmd hcommands hcredits =>
      exact .failed hpc' (.inl (hsame.trans hcommands)) (hlength.trans hcredits)
    | recv hpc hcommands hcredits =>
      exact .failed hpc' (.inr (hsame.trans hcommands)) (hlength.trans hcredits)
    | failed hpc => exact absurd hpc (hne _)
    | acked hpc => exact absurd hpc (hne _)
  | ack hrecv hpc' hsame hlength =>
    cases h with
    | recv hpc hcommands hcredits =>
      exact .acked hpc' (hsame.trans hcommands) (by rw [hlength, hcredits])
    | send hpc => cases hpc.symm.trans hrecv
    | failed hpc => cases hpc.symm.trans hrecv
    | acked hpc => cases hpc.symm.trans hrecv

/-- What `main` has done with a socket of its own: all calls to it that have returned 0 are settled,
and the one under way is as far as its client is. -/
structure MgmtMain.Uses (main : MgmtMain n) (i : Fin n) (side : DeviceSide n) : Prop where
  settled : (∀ c, main.current ≠ some (i, c)) → side.Settled (onSocket i main.finished)
  calling : ∀ c, main.current = some (i, c) → side.Calling (onSocket i main.finished) c.byte

/-- What the histories of a socket are between. -/
private theorem MgmtMain.Uses.bounds {main : MgmtMain n} {i : Fin n} {side : DeviceSide n}
    (h : main.Uses i side) :
    onSocket i main.finished <+: side.commands ∧
      (onSocket i main.finished).length ≤ side.credits.length ∧
      side.commands <+: onSocket i (main.finished ++ main.current.toList) := by
  have hnow : onSocket i (main.finished ++ main.current.toList) =
      onSocket i main.finished ++ onSocket i main.current.toList := by
    simp [onSocket]
  rw [hnow]
  by_cases hcalling : ∃ c, main.current = some (i, c)
  · obtain ⟨c, hc⟩ := hcalling
    have hlast : onSocket i main.current.toList = [c.byte] := by
      simp [hc, onSocket, ownedBy_singleton]
    rw [hlast]
    cases h.calling c hc with
    | send _ _ hcommands hcredits =>
      rw [hcommands, hcredits]
      exact ⟨List.prefix_refl _, le_rfl, List.prefix_append _ _⟩
    | recv _ hcommands hcredits =>
      rw [hcommands, hcredits]
      exact ⟨List.prefix_append _ _, le_rfl, List.prefix_refl _⟩
    | failed _ hcommands hcredits =>
      rw [hcredits]
      rcases hcommands with hcommands | hcommands
      · rw [hcommands]
        exact ⟨List.prefix_refl _, le_rfl, List.prefix_append _ _⟩
      · rw [hcommands]
        exact ⟨List.prefix_append _ _, le_rfl, List.prefix_refl _⟩
    | acked _ hcommands hcredits =>
      rw [hcommands, hcredits]
      exact ⟨List.prefix_append _ _, Nat.le_succ _, List.prefix_refl _⟩
  · obtain ⟨-, hcommands, hcredits⟩ := h.settled fun c hc => hcalling ⟨c, hc⟩
    rw [hcommands, hcredits]
    exact ⟨List.prefix_refl _, le_rfl, List.prefix_append _ _⟩

/-- **The invariant.** Every `main` is at a place of its script, its sockets are as this place says,
and all clients are in step with the server. -/
structure MgmtClients.Inv (programs : MgmtPrograms n m) (s : MgmtClients n m) : Prop where
  script : ∀ p, (s.main p).finished ++ (s.main p).current.toList ++ (s.main p).todo =
    programs.script p
  success : ∀ p, (s.main p).ended = some .done → (s.main p).current = none ∧ (s.main p).todo = []
  uses : ∀ p, ∀ x ∈ programs.script p, (s.main p).Uses x.1 (s.clients.side x.1)
  inStep : ∀ i, (s.clients.view i).InStep

namespace MgmtClients

variable {addrs : ClientAddrs n} {programs : MgmtPrograms n m} {s t : MgmtClients n m}

private theorem main_setMain (s : MgmtClients n m) (p q : Fin m) (main : MgmtMain n) :
    (s.setMain p main).main q = if q = p then main else s.main q :=
  Function.update_apply ..

/-- One `main` moves. -/
theorem Inv.setMain (h : s.Inv programs) {p : Fin m} {main : MgmtMain n}
    (hscript : main.finished ++ main.current.toList ++ main.todo = programs.script p)
    (hsuccess : main.ended = some .done → main.current = none ∧ main.todo = [])
    (huses : ∀ x ∈ programs.script p, main.Uses x.1 (s.clients.side x.1)) :
    (s.setMain p main).Inv programs := by
  refine ⟨fun q => ?_, fun q => ?_, fun q => ?_, h.inStep⟩
  · rw [main_setMain]
    split_ifs with heq
    · exact heq ▸ hscript
    · exact h.script q
  · rw [main_setMain]
    split_ifs with heq
    · exact hsuccess
    · exact h.success q
  · rw [main_setMain]
    split_ifs with heq
    · exact heq ▸ huses
    · exact h.uses q

/-- The clients move without a new call. -/
theorem Inv.env (h : s.Inv programs) (hs : (deviceClientsSystem addrs).Reachable s.clients)
    {a : DeviceClientsLabel n} (hcall : a.isCall = false) {clients : DeviceClients n}
    (hst : s.clients.step addrs a = some clients) :
    Inv programs { s with clients := clients } where
  script := h.script
  success := h.success
  uses p x hx :=
    ⟨fun hno => ((h.uses p x hx).settled hno).move (DeviceClients.side_move hcall hst x.1),
      fun c hc => ((h.uses p x hx).calling c hc).move (DeviceClients.side_move hcall hst x.1)⟩
  inStep i := DeviceClients.inStep_step hs hcall hst (h.inStep i)

/-- A call has returned 0. -/
private theorem uses_finish {main : MgmtMain n} {x : MgmtCall n} (hcurrent : main.current = some x)
    {i : Fin n} {side : DeviceSide n} (h : main.Uses i side)
    (hret : x.1 = i → ∃ ret, ret ≠ -1 ∧ side.client.pc = .returned ret) :
    (main.finish x).Uses i side := by
  refine ⟨fun _ => ?_, nofun⟩
  rcases eq_or_ne x.1 i with rfl | hne
  · obtain ⟨ret, hne, hpc⟩ := hret rfl
    have hbefore : onSocket x.1 (main.finish x).finished =
        onSocket x.1 main.finished ++ [x.2.byte] := by
      simp [MgmtMain.finish, onSocket, ownedBy_singleton]
    rw [hbefore]
    cases h.calling x.2 hcurrent with
    | acked hpc' hcommands hcredits =>
      exact ⟨⟨0, hpc'⟩, hcommands, by rw [hcredits, List.length_append]; rfl⟩
    | send hpc' => cases hpc'.symm.trans hpc
    | recv hpc' => cases hpc'.symm.trans hpc
    | failed hpc' => exact absurd (DeviceClientPc.returned.inj (hpc.symm.trans hpc')) hne
  · have hsame : onSocket i (main.finish x).finished = onSocket i main.finished := by
      simp [MgmtMain.finish, onSocket, ownedBy_singleton, hne]
    rw [hsame]
    refine h.settled fun c hc => hne ?_
    rw [hcurrent] at hc
    exact congrArg Prod.fst (Option.some.inj hc)

/-- A new call. -/
theorem Inv.call (h : s.Inv programs) {p : Fin m} {x : MgmtCall n} {todo : List (MgmtCall n)}
    (hcurrent : (s.main p).current = none) (htodo : (s.main p).todo = x :: todo)
    (hstatus : (s.main p).ended = none) {clients : DeviceClients n}
    (hst : s.clients.step addrs (.call x.1 x.2) = some clients) :
    Inv programs
      (MgmtClients.setMain { s with clients := clients } p ((s.main p).begin x todo)) := by
  have hscript := h.script p
  rw [hcurrent, htodo] at hscript
  have hx : x ∈ programs.script p := by
    rw [← hscript]
    simp
  have hsettled := (h.uses p x hx).settled fun c => by simp [hcurrent]
  obtain ⟨hclients, -⟩ := DeviceClients.step_call hst
  have hside : ∀ i, clients.side i =
      if i = x.1 then { s.clients.side x.1 with client := x.2.start } else s.clients.side i := by
    intro i
    rw [hclients]
    exact DeviceClients.side_setSide ..
  refine ⟨fun q => ?_, fun q => ?_, fun q y hy => ?_, fun i => ?_⟩
  · rw [main_setMain]
    split_ifs with heq
    · subst heq
      simpa [MgmtMain.begin] using hscript
    · exact h.script q
  · rw [main_setMain]
    split_ifs with heq
    · exact fun hzero => absurd (hstatus.symm.trans hzero) (by simp)
    · exact h.success q
  · rw [main_setMain]
    change MgmtMain.Uses _ y.1 (clients.side y.1)
    rw [hside]
    split_ifs with heq hsocket hsocket
    · -- the socket of the call
      refine ⟨fun hno => absurd ?_ (hno x.2), fun c hc => ?_⟩
      · rw [hsocket]
        rfl
      obtain rfl : x.2 = c := congrArg Prod.snd (Option.some.inj hc)
      rw [hsocket]
      exact .send x.2.start_eq.1 rfl hsettled.commands hsettled.credits
    · subst heq
      refine ⟨fun _ => (h.uses q y hy).settled fun c => by simp [hcurrent], fun c hc => ?_⟩
      exact absurd (congrArg Prod.fst (Option.some.inj hc)).symm hsocket
    · exact absurd (programs.own q p y x hy hx hsocket) heq
    · exact h.uses q y hy
  · refine DeviceClients.inStep_call hst ?_ (h.inStep i)
    rw [hsettled.commands, hsettled.credits]

/-- A thread calls `exit`, and not at the end of `main`. -/
theorem Inv.exit (h : s.Inv programs) {p : Fin m} {e : MgmtEnd} (he : e ≠ .done)
    (hst : s.exit p e = some t) : t.Inv programs ∧ t.clients = s.clients := by
  rw [MgmtClients.exit] at hst
  split at hst
  · cases hst
  · obtain rfl := Option.some.inj hst
    refine ⟨h.setMain (h.script p) (fun hdone => absurd (Option.some.inj hdone) he) fun x hx =>
      ⟨(h.uses p x hx).settled, (h.uses p x hx).calling⟩, rfl⟩

/-- **Every step.** -/
theorem Inv.step (h : s.Inv programs) (hs : (deviceClientsSystem addrs).Reachable s.clients)
    {a : MgmtLabel n m} (hst : s.step addrs a = some t) :
    t.Inv programs ∧ (deviceClientsSystem addrs).Reachable t.clients := by
  cases a with
  | env a =>
    simp only [MgmtClients.step] at hst
    split_ifs at hst with hcall
    obtain ⟨clients, hclients, rfl⟩ := Option.map_eq_some_iff.mp hst
    exact ⟨h.env hs (Bool.not_eq_true _ ▸ hcall) hclients, hs.step hclients⟩
  | giveUp p =>
    simp only [MgmtClients.step] at hst
    split at hst
    · cases hst
    · obtain ⟨hinv, hsame⟩ := h.exit (by decide) hst
      exact ⟨hinv, hsame ▸ hs⟩
  | sigterm p =>
    obtain ⟨hinv, hsame⟩ := h.exit (by decide) hst
    exact ⟨hinv, hsame ▸ hs⟩
  | sigwaitFails p =>
    obtain ⟨hinv, hsame⟩ := h.exit (by decide) hst
    exact ⟨hinv, hsame ▸ hs⟩
  | main p =>
    rcases hstatus : (s.main p).ended with _ | e
    case some => simp [MgmtClients.step, hstatus] at hst
    rcases hcurrent : (s.main p).current with _ | x
    · rcases htodo : (s.main p).todo with _ | ⟨x, todo⟩
      · simp only [MgmtClients.step, hstatus, hcurrent, htodo, Option.some.injEq] at hst
        subst hst
        exact ⟨h.setMain (h.script p) (fun _ => ⟨hcurrent, htodo⟩) fun x hx =>
          ⟨(h.uses p x hx).settled, (h.uses p x hx).calling⟩, hs⟩
      · simp only [MgmtClients.step, hstatus, hcurrent, htodo] at hst
        obtain ⟨clients, hclients, rfl⟩ := Option.map_eq_some_iff.mp hst
        have hreach : (deviceClientsSystem addrs).Reachable clients :=
          hs.step (a := .call x.1 x.2) hclients
        exact ⟨h.call hcurrent htodo hstatus hclients, hreach⟩
    · rcases hpc : (s.clients.side x.1).client.pc with _ | _ | ret
      case send | recv => simp [MgmtClients.step, hstatus, hcurrent, hpc] at hst
      simp only [MgmtClients.step, hstatus, hcurrent, hpc] at hst
      split_ifs at hst with hret
      · obtain rfl := Option.some.inj hst
        refine ⟨h.setMain (h.script p) (fun hzero => ?_) fun y hy =>
          ⟨(h.uses p y hy).settled, (h.uses p y hy).calling⟩, hs⟩
        exact absurd (Option.some.inj hzero) (by decide)
      · obtain rfl := Option.some.inj hst
        have hscript := h.script p
        rw [hcurrent] at hscript
        refine ⟨h.setMain (by simpa [MgmtMain.finish] using hscript) (fun hzero => ?_) fun y hy =>
          uses_finish hcurrent (h.uses p y hy) fun heq => ⟨ret, hret, heq ▸ hpc⟩, hs⟩
        exact absurd (hstatus.symm.trans hzero) (by simp)

theorem inv_of_reachable (h : (mgmtSystem addrs programs).Reachable s) :
    s.Inv programs ∧ (deviceClientsSystem addrs).Reachable s.clients := by
  refine h.invariant
    (P := fun s => s.Inv programs ∧ (deviceClientsSystem addrs).Reachable s.clients)
    ⟨⟨fun p => rfl, nofun, fun p x hx => ⟨fun _ => ?_, nofun⟩, fun i => ?_⟩, .init⟩
    fun _ _ _ _ hs hst => hs.1.step hs.2 hst
  · exact ⟨⟨-1, rfl⟩, rfl, rfl⟩
  · exact ⟨⟨List.nodup_nil, rfl, rfl, le_rfl, le_rfl, Nat.zero_le _⟩, nofun⟩

end MgmtClients

/-- **What the end of a program is worth.** In every state of every interleaving of a device server,
any number of client programs that stop at the first call that fails, any of which may end by a
signal or fail to get a socket at any time, and strangers, over a lossy network: on every socket of
a program the server has received, in order and each once, all commands whose calls have returned
0, and at most the one under way beyond these. A program that has ended with the status 0, and not
by a `SIGTERM`, has had all its commands received; one that was ended by a `SIGTERM` has the same
status wherever it stood. -/
theorem mgmt_clients (addrs : ClientAddrs n) (programs : MgmtPrograms n m) {s : MgmtClients n m}
    (h : (mgmtSystem addrs programs).Reachable s) (p : Fin m) {i : Fin n} {c : DeviceCommand}
    (hi : (i, c) ∈ programs.script p) :
    let received := (ownedBy (some i) s.clients.received).map ReceivedCommand.ptype
    onSocket i (s.main p).finished <+: received ∧
      received <+: onSocket i ((s.main p).finished ++ (s.main p).current.toList) ∧
      (s.main p).finished <+: programs.script p ∧
      ∀ e, (s.main p).ended = some e → e.status = 0 → e ≠ .sigterm →
        received = onSocket i (programs.script p) := by
  obtain ⟨hinv, hreach⟩ := MgmtClients.inv_of_reachable h
  obtain ⟨r, hr, hcredits, hr'⟩ := DeviceClients.received_of_inStep hreach (hinv.inStep i)
  obtain ⟨hdone, hle, hsent⟩ := (hinv.uses p (i, c) hi).bounds
  have hscript := hinv.script p
  have hreceived : onSocket i (s.main p).finished <+: (s.clients.side i).commands.take r :=
    List.prefix_take_iff.mpr ⟨hdone, hle.trans hcredits⟩
  have hprefix : (s.clients.side i).commands.take r <+:
      onSocket i ((s.main p).finished ++ (s.main p).current.toList) :=
    (List.take_prefix _ _).trans hsent
  refine ⟨hr ▸ hreceived, hr ▸ hprefix, ⟨_, (List.append_assoc ..).symm.trans hscript⟩,
    fun e he hzero hsigterm => ?_⟩
  have hend : (s.main p).ended = some .done := by
    cases e with
    | done => exact he
    | failed => exact absurd hzero (by decide)
    | sigterm => exact absurd rfl hsigterm
  obtain ⟨hcurrent, htodo⟩ := hinv.success p hend
  rw [hcurrent, Option.toList_none, List.append_nil] at hprefix
  rw [hcurrent, htodo, Option.toList_none, List.append_nil, List.append_nil] at hscript
  rw [hr, ← hscript]
  exact hprefix.eq_of_length_le hreceived.length_le

/-- Two processes: one that reboots the server, on the sockets `i` and `j`, and one that pings it,
on a third one. -/
def rebootAndPing (i j k : Fin n) (hne : i ≠ k ∧ j ≠ k) : MgmtPrograms n 2 where
  script p := if p.val = 0 then rebootClient i j else pingClient k
  own p q x y hx hy hsocket := by
    have hboots {r : Fin 2} {z : MgmtCall n}
        (hz : z ∈ if r.val = 0 then rebootClient i j else pingClient k) :
        r.val = 0 ↔ z.1 ≠ k := by
      split_ifs at hz with hr
      · refine iff_of_true hr ?_
        rcases List.mem_pair.mp hz with rfl | rfl
        · exact hne.1
        · exact hne.2
      · obtain rfl := List.eq_of_mem_replicate hz
        exact iff_of_false hr (not_not_intro rfl)
    have hiff : p.val = 0 ↔ q.val = 0 := by rw [hboots hx, hboots hy, hsocket]
    exact Fin.ext (by omega)

/-- The server reboots before it is pinged by the first process; the second one has pinged it once
when it gets a `SIGTERM`. -/
def rebootRun (i j k : Fin n) (p q : Fin m) : List (MgmtLabel n m) :=
  let served (i : Fin n) : List (MgmtLabel n m) :=
    [.env (.clientSend i), .env (.serverRecv 0), .env (.serverStep 1), .env (.clientRecv i 0)]
  [.main q] ++ served k ++ [.main q, .sigterm q, .main p] ++ served i ++
    [.main p, .env (.serverStep 0), .main p] ++ served j ++ [.main p, .main p]

/-- An address for every client. -/
def numberedAddrs : ClientAddrs 3 := ⟨fun i => [BitVec.ofNat 8 i.val], by decide⟩

/-- Both have the status 0: the first one with all its commands received, the second one with one
of ten. -/
theorem mgmt_clients_reboot :
    ∃ (programs : MgmtPrograms 3 2) (s : MgmtClients 3 2),
      programs.script 0 = rebootClient 0 1 ∧ programs.script 1 = pingClient 2 ∧
      (mgmtSystem numberedAddrs programs).exec (mgmtSystem numberedAddrs programs).init
        (rebootRun 0 1 2 0 1) = some s ∧
      s.clients.performed = [(some 0, ⟨0, ptypeDeviceMgmtReboot⟩)] ∧
      (s.main 0).ended = some .done ∧ (s.main 1).ended = some .sigterm ∧
      (ownedBy (some 1) s.clients.received).map ReceivedCommand.ptype =
        onSocket 1 (rebootClient (n := 3) 0 1) ∧
      (ownedBy (some 2) s.clients.received).map ReceivedCommand.ptype =
        [DeviceCommand.byte .ping] := by
  have hrun : ((mgmtSystem numberedAddrs (rebootAndPing 0 1 2 (by decide))).exec
      (mgmtSystem numberedAddrs (rebootAndPing 0 1 2 (by decide))).init (rebootRun 0 1 2 0 1)).map
        (fun s => (s.clients.performed, (s.main 0).ended, (s.main 1).ended,
          (ownedBy (some 2) s.clients.received).map ReceivedCommand.ptype)) =
          some ([(some 0, ⟨0, ptypeDeviceMgmtReboot⟩)], some .done, some .sigterm,
            [DeviceCommand.byte .ping]) := by
    decide +kernel
  obtain ⟨s, hs, hfacts⟩ := Option.map_eq_some_iff.mp hrun
  obtain ⟨hperformed, hdone, hsigterm, hpinged⟩ : _ ∧ _ ∧ _ ∧ _ := by
    simpa only [Prod.mk.injEq] using hfacts
  have hmem : ((1, .ping) : MgmtCall 3) ∈ rebootClient (n := 3) 0 1 := by simp [rebootClient]
  obtain ⟨-, -, -, hall⟩ :=
    mgmt_clients numberedAddrs _ (LabelledSystem.reachable_of_exec hs) 0 hmem
  exact ⟨_, s, rfl, rfl, hs, hperformed, hdone, hsigterm, hall .done hdone rfl (by decide), hpinged⟩

end Libbaalue
