import Libbaalue.Fiber.Agreement
import Libbaalue.Foundations.Views

/-!
# Many clients at one scheduling server

The server binds one path and serves whoever sends to it: any number of clients, each bound to
a path of its own and making any number of calls, and processes that are none of them
(strangers). A stranger sends what it likes, to the server and to the sockets of the clients, and
nobody looks at who it is: the server answers to the address a datagram came from, and a client
takes any datagram on its socket for the reply it waits for. Sends may fail, those of the clients
as well as those of the server.

Every entry of the queues and of the histories is tagged with its owner: the client that asked for
it, or `none`. The owner is what the code does not know. Two marks say what has happened to a
client that the server did not do for it: it is *misled* when it has consumed a datagram of
nobody's or of another's, and a reply to it is *refused* when the server's `sendto` did not get
it through.

The paths of the parties are looked up in the working directory of whoever sends. The model takes
from that only where the lookups lead: the server reaches every client at the path the client is
bound at, and every client reaches the server at the server's. What else leads to them, by another
name or from another directory, is arbitrary.

This module has the system and what holds of every client, misled or not (`Clients.Inv`): the
server applies what the client requested, in order and each once (`Clients.Inv.applied_prefix`),
and a call returns -1 only because of a wait or a send of its own. What holds of the others is the
matter of `ServedClients`.

The invariant is proved by one lemma for each kind of step, from two facts about the parties: what
the client is about to send is packed before anybody can interfere, and a server that received a
request has its address and its element in hand until it is back at its loop head. No clause speaks
of who sent what a client has consumed.
-/

namespace Libbaalue

/-! ### The system -/

/-- The paths of a server and of its clients, and where the paths lead that the server and the
clients send to. -/
structure ClientsPaths (n : ℕ) where
  kdoF : List Byte
  retF : Fin n → List Byte
  kdoF_fits : kdoF.length < sizeofSunPath
  retF_fits : ∀ i, (retF i).length < sizeofSunPath
  nul_notMem_kdoF : (0 : Byte) ∉ kdoF
  nul_notMem_retF : ∀ i, (0 : Byte) ∉ retF i
  /-- The client the server reaches at a path. -/
  leadsTo : List Byte → Option (Fin n)
  /-- Whether a client reaches the server at a path. -/
  reaches : Fin n → List Byte → Bool
  leadsTo_retF : ∀ i, leadsTo (retF i) = some i
  reaches_kdoF : ∀ i, reaches i kdoF = true

/-- The paths of the server and of one client. -/
def ClientsPaths.pair {n : ℕ} (paths : ClientsPaths n) (i : Fin n) : Paths :=
  ⟨paths.kdoF, paths.retF i, paths.kdoF_fits, paths.retF_fits i, paths.nul_notMem_kdoF,
    paths.nul_notMem_retF i⟩

/-- One client, its queue and its histories. The histories are not seen by the code: they tell what
it did and what happened to it, for the statements about a run. -/
structure ClientSide (n : ℕ) where
  /-- The array of the last call. -/
  fiberArray : List FiberElement
  /-- The upper halves of the argument registers of the last call. -/
  junk : ℕ → ℕ → CInt
  client : Client
  /-- The queue: each datagram, and who asked for it. -/
  toClient : List (Option (Fin n) × ReplyPacket)
  /-- The number of calls made. -/
  calls : ℕ
  /-- The requests sent to the server, in order. -/
  requests : List Request
  /-- The number of requests sent in the last call. -/
  sentInCall : ℕ
  /-- The datagrams consumed, and who asked for them. -/
  consumed : List (Option (Fin n) × Consumed)
  /-- A `recvfrom` of the client has failed. -/
  timedOut : Bool
  /-- A `sendto` of the client has failed. -/
  sendFailed : Bool
  /-- The client has consumed a datagram that the server did not send for it. -/
  misled : Bool
  /-- A reply of the server to the client did not get through. -/
  refused : Bool

/-- The clients, the server and its queue, and the histories of the server. A datagram in the queue
of the server carries who sent it, which is `none` for a stranger. -/
structure Clients (n : ℕ) where
  side : Fin n → ClientSide n
  server : Server
  toServer : List (Option (Fin n) × RequestPacket)
  /-- Who sent the datagram the server received last. -/
  owner : Option (Fin n)
  /-- The request the server received last. -/
  handling : Request
  received : List (Option (Fin n) × Request)
  applied : List (Option (Fin n) × FiberElement)

/-- Who moves, and what the environment answers. Strangers send whatever they like, from wherever,
to the server and to any client; a `sendto` of a client or of the server may fail. -/
inductive ClientsLabel (n : ℕ)
  | call (i : Fin n) (fiberArray : List FiberElement) (junk : ℕ → ℕ → CInt) (ptypeRcv : Byte)
  | clientSend (i : Fin n) (sent : ℤ)
  | clientRecv (i : Fin n)
  | clientTimeout (i : Fin n)
  /-- A stranger sends to the server, from wherever. -/
  | stranger (d : Datagram)
  /-- A stranger sends to a client, from wherever. -/
  | strangerTo (i : Fin n) (d : Datagram)
  | serverRecv
  | serverTimeout
  | serverStep (outcome : SchedOutcome) (sent : ℤ)

variable (plat : Platform) {n : ℕ} (paths : ClientsPaths n)

/-- The arguments of the last call of a client. -/
def ClientSide.args (c : ClientSide n) : ClientArgs := ⟨plat.abi, c.junk, c.fiberArray, paths.kdoF⟩

/-- The element the client is at. -/
def ClientSide.awaited (c : ClientSide n) : RequestId := ⟨c.calls - 1, c.client.i⟩

/-- What a client relies on has been disturbed: by a datagram of somebody else, or by a reply that
got lost. -/
def ClientSide.disturbed (c : ClientSide n) : Bool := c.misled || c.refused

/-- A call of a client begins. -/
def ClientSide.begin (c : ClientSide n) (fiberArray : List FiberElement) (junk : ℕ → ℕ → CInt)
    (ptypeRcv : Byte) : ClientSide n :=
  let c : ClientSide n := { c with
    fiberArray := fiberArray, junk := junk, calls := c.calls + 1, sentInCall := 0 }
  { c with client := .start (c.args plat paths) ptypeRcv }

/-- A `sendto` of a client has returned. -/
def ClientSide.afterSendto (c : ClientSide n) (payload : List Byte) (sent : ℤ) : ClientSide n :=
  { c with
    client := (baaSetSchedulePropsViaServer (c.args plat paths)).resume c.client ⟨sent, none⟩
    sendFailed := c.sendFailed || decide (sent ≠ payload.length) }

/-- A client has sent a request to the server. -/
def ClientSide.requested (c : ClientSide n) (request : Request) : ClientSide n :=
  { c with requests := c.requests ++ [request], sentInCall := c.sentInCall + 1 }

/-- A client receives the first datagram of its queue, whoever has sent it. If that was not the
reply to a request of its own, the client has been misled from then on. -/
def ClientSide.consume (c : ClientSide n) (i : Fin n) (p : Option (Fin n) × ReplyPacket)
    (toClient : List (Option (Fin n) × ReplyPacket)) : ClientSide n :=
  { c with
    client := (baaSetSchedulePropsViaServer (c.args plat paths)).resume c.client
      ⟨0, some p.2.datagram⟩
    toClient := toClient
    consumed := c.consumed ++
      [(p.1, ⟨c.awaited, p.2.sentFor, p.2.datagram.payload, c.timedOut⟩)]
    misled := c.misled || decide (p.1 ≠ some i) }

/-- A client waits in vain: its `recvfrom` returns -1, at any time. -/
def ClientSide.giveUp (c : ClientSide n) : ClientSide n :=
  { c with
    client := (baaSetSchedulePropsViaServer (c.args plat paths)).resume c.client ⟨0, none⟩
    timedOut := true }

/-- The server has sent a reply, asked for by `owner`, that leads to client `i`; `sent` is what its
`sendto` has returned. -/
def ClientSide.offered (c : ClientSide n) (i : Fin n) (owner : Option (Fin n))
    (reply : ReplyPacket) (sent : ℤ) : ClientSide n :=
  if sent = 1 then { c with toClient := c.toClient ++ [(owner, reply)] }
  else { c with refused := c.refused || decide (owner = some i) }

namespace Clients

/-- The state with one client replaced. -/
def setSide (s : Clients n) (i : Fin n) (c : ClientSide n) : Clients n :=
  { s with side := Function.update s.side i c }

/-- A client sends: to the server's queue if that is where the address leads. A datagram that
strays to somebody else's socket is one of a stranger there. -/
def clientSend (s : Clients n) (i : Fin n) (payload : List Byte) (addr : AddrArg)
    (fiber : FiberElement) (sent : ℤ) : Clients n :=
  let c := s.side i
  if sent = payload.length ∧ paths.reaches i addr.path then
    let request : Request := ⟨c.awaited, fiber⟩
    let packet : RequestPacket := ⟨request, ⟨boundAt (paths.retF i), payload⟩⟩
    { s with toServer := s.toServer ++ [(some i, packet)] }.setSide i
      ((c.afterSendto plat paths payload sent).requested request)
  else s.setSide i (c.afterSendto plat paths payload sent)

/-- The server sends: to the client its address leads to, if any. -/
def serverSend (s : Clients n) (ptype : Byte) (addr : AddrArg) (sent : ℤ) : Clients n :=
  let reply : ReplyPacket := ⟨s.handling.id, ⟨boundAt paths.kdoF, [ptype]⟩⟩
  let t : Clients n :=
    { s with server := (baaScheduleServerTh plat).resume s.server ⟨none, sent, ⟨.ok, .ok⟩⟩ }
  match paths.leadsTo addr.path with
  | some i => t.setSide i ((s.side i).offered i s.owner reply sent)
  | none => t

/-- One step of the system; `none` when the party is not at that call. -/
def step (s : Clients n) : ClientsLabel n → Option (Clients n)
  | .call i fiberArray junk ptypeRcv =>
    match (s.side i).client.pc with
    | .returned _ => some (s.setSide i ((s.side i).begin plat paths fiberArray junk ptypeRcv))
    | _ => none
  | .clientSend i sent =>
    let c := s.side i
    match (baaSetSchedulePropsViaServer (c.args plat paths)).call c.client,
      c.fiberArray[c.client.i]? with
    | .sendto payload addr, some fiber =>
      some (s.clientSend plat paths i payload addr fiber sent)
    | _, _ => none
  | .clientRecv i =>
    let c := s.side i
    match (baaSetSchedulePropsViaServer (c.args plat paths)).call c.client, c.toClient with
    | .recvfrom _, p :: toClient => some (s.setSide i (c.consume plat paths i p toClient))
    | _, _ => none
  | .clientTimeout i =>
    let c := s.side i
    match (baaSetSchedulePropsViaServer (c.args plat paths)).call c.client with
    | .recvfrom _ => some (s.setSide i (c.giveUp plat paths))
    | _ => none
  | .stranger d =>
    some { s with toServer := s.toServer ++ [(none, ⟨⟨⟨0, 0⟩, .ofRecord d.payload⟩, d⟩)] }
  | .strangerTo i d =>
    some (s.setSide i
      { s.side i with toClient := (s.side i).toClient ++ [(none, ⟨⟨0, 0⟩, d⟩)] })
  | .serverRecv =>
    match (baaScheduleServerTh plat).call s.server, s.toServer with
    | .recvfrom, p :: toServer =>
      some { s with
        server := (baaScheduleServerTh plat).resume s.server ⟨some p.2.datagram, 0, ⟨.ok, .ok⟩⟩
        toServer := toServer
        owner := p.1
        handling := p.2.request
        received := s.received ++ [(p.1, p.2.request)] }
    | _, _ => none
  | .serverTimeout =>
    match (baaScheduleServerTh plat).call s.server with
    | .recvfrom =>
      some { s with
        server := (baaScheduleServerTh plat).resume s.server ⟨none, 0, ⟨.ok, .ok⟩⟩ }
    | _ => none
  | .serverStep outcome sent =>
    match (baaScheduleServerTh plat).call s.server with
    | .recvfrom => none
    | .sendto ptype addr => some (s.serverSend plat paths ptype addr sent)
    | .setScheduleProps fiber =>
      some { s with
        server := (baaScheduleServerTh plat).resume s.server ⟨none, 0, outcome⟩
        applied := s.applied ++ [(s.owner, fiber)] }
    | .printSchedInfos _ =>
      some { s with server := (baaScheduleServerTh plat).resume s.server ⟨none, 0, outcome⟩ }

/-- Everybody idle, all queues empty. -/
def init : Clients n where
  side _ := ⟨[], fun _ _ => 0, ⟨.returned 0, 0, [], 0, .zero, 0⟩, [], 0, [], 0, [], false, false,
    false, false⟩
  server := .start plat
  toServer := []
  owner := none
  handling := ⟨⟨0, 0⟩, ⟨0, 0, 0, 0⟩⟩
  received := []
  applied := []

end Clients

/-- The composition of a server, its clients and strangers, from a state in which nothing was
sent. -/
def clientsSystem : LabelledSystem (Clients n) (ClientsLabel n) where
  init := .init plat
  step := Clients.step plat paths

variable {plat paths}

/-! ### Whatever happens to a client -/

/-- How far a call of the client has come: the elements before this number have been sent, or
failed to be. -/
def Client.reached (s : Client) : ℕ := if s.pc = .sendto then s.i else s.i + 1

/-- No answer takes the client back. -/
private theorem reached_le_resume (args : ClientArgs) (s : Client) (a : ClientAnswer) :
    s.reached ≤ ((baaSetSchedulePropsViaServer args).resume s a).reached := by
  rcases hpc : s.pc with _ | _ | ret <;> simp only [baaSetSchedulePropsViaServer, hpc]
  case returned => exact le_rfl
  case sendto =>
    simp only [Client.afterSend]
    split_ifs
    · simp [Client.reached, hpc]
    · simp [Client.reached, hpc]
  case recvfrom =>
    rcases a.received with _ | d
    · simp [Client.reached, Client.afterRecv, hpc]
    · rw [Client.afterRecv, dispatch_eq]
      split_ifs
      · simp [Client.reached, hpc]
      · simp only [Client.reached, hpc, i_next, reduceCtorEq, if_false]
        split_ifs
        · exact le_rfl
        · exact Nat.le_succ _

/-- A call returns what it had returned, or 0, or because one of its own calls has failed. -/
private theorem returned_resume (args : ClientArgs) {s : Client} {a : ClientAnswer} {ret : CInt}
    (h : ((baaSetSchedulePropsViaServer args).resume s a).pc = .returned ret) :
    s.pc = .returned ret ∨ ret = 0 ∨ s.pc = .recvfrom ∧ a.received = none ∨
      s.pc = .sendto ∧ a.sent ≠ s.numPacked.toInt := by
  rcases hpc : s.pc with _ | _ | ret' <;> simp only [baaSetSchedulePropsViaServer, hpc] at h
  case returned => exact .inl h
  case sendto =>
    refine .inr (.inr (.inr ⟨rfl, fun heq => ?_⟩))
    rw [Client.afterSend, if_neg (not_not.mpr heq)] at h
    cases h
  case recvfrom =>
    rcases hrecv : a.received with _ | d
    · exact .inr (.inr (.inl ⟨rfl, rfl⟩))
    · rw [hrecv, Client.afterRecv, dispatch_eq] at h
      split_ifs at h
      rw [pc_next] at h
      split_ifs at h
      exact .inr (.inl (ClientPc.returned.inj h).symm)

variable (plat paths) in
/-- What holds of a client, whatever it has received. Its requests are not misled: they are what
its array says, in order, though one may have gone elsewhere. -/
structure ClientSide.Ok (c : ClientSide n) (i : Fin n) : Prop where
  packed : c.client.Packed (c.args plat paths)
  own_consumed : c.misled = false → ∀ e ∈ c.consumed, e.1 = some i
  returned : ∀ ret, c.client.pc = .returned ret → ret = 0 ∨ c.timedOut ∨ c.sendFailed
  noCall : c.calls = 0 → c.requests = [] ∧ ∃ ret, c.client.pc = .returned ret
  firstCall : c.calls ≤ 1 →
    (c.requests.map Request.fiber).Sublist (c.fiberArray.take c.client.reached)

namespace ClientSide.Ok

variable {c : ClientSide n} {i : Fin n}

theorem begin (h : c.Ok plat paths i) (fiberArray : List FiberElement) (junk : ℕ → ℕ → CInt)
    (ptypeRcv : Byte) : (c.begin plat paths fiberArray junk ptypeRcv).Ok plat paths i where
  packed := Client.Packed.next _ _
  own_consumed := h.own_consumed
  returned ret hret := by
    have hpc := (pc_next _ _).symm.trans hret
    split_ifs at hpc
    exact .inl (ClientPc.returned.inj hpc).symm
  noCall hcalls := absurd hcalls (Nat.succ_ne_zero _)
  firstCall hcalls := by
    have hnone : c.requests = [] := (h.noCall (Nat.le_zero.mp (Nat.le_of_succ_le_succ hcalls))).1
    rw [ClientSide.begin, hnone]
    exact List.nil_sublist _

/-- A client that is in a call has made one. -/
private theorem calls_ne_zero (h : c.Ok plat paths i) (hpc : ∀ ret, c.client.pc ≠ .returned ret) :
    c.calls ≠ 0 := fun hzero => by
  obtain ⟨-, ret, hret⟩ := h.noCall hzero
  exact hpc ret hret

private theorem firstCall_resume (h : c.Ok plat paths i) (hcalls : c.calls ≤ 1)
    (a : ClientAnswer) : (c.requests.map Request.fiber).Sublist (c.fiberArray.take
      ((baaSetSchedulePropsViaServer (c.args plat paths)).resume c.client a).reached) :=
  (h.firstCall hcalls).trans (List.take_sublist_take_left (reached_le_resume _ _ _))

/-- The payload of a `sendto` is the record of the element. -/
theorem payload (h : c.Ok plat paths i) (hpc : c.client.pc = .sendto) :
    ∃ fiber, c.fiberArray[c.client.i]? = some fiber ∧ c.client.numPacked.toInt = 17 ∧
      (baaSetSchedulePropsViaServer (c.args plat paths)).call c.client =
        .sendto (schedPropsMsg plat.abi (c.junk c.client.i) fiber) c.client.addr := by
  obtain ⟨fiber, hfiber, hmsg, hpacked⟩ := h.packed.packed hpc
  refine ⟨fiber, hfiber, by rw [hpacked]; rfl, ?_⟩
  simp only [baaSetSchedulePropsViaServer, hpc, hmsg]
  rfl

theorem afterSendto (h : c.Ok plat paths i) (hpc : c.client.pc = .sendto) {payload : List Byte}
    (hlen : c.client.numPacked.toInt = payload.length) (sent : ℤ) :
    (c.afterSendto plat paths payload sent).Ok plat paths i where
  packed := h.packed.resume _
  own_consumed := h.own_consumed
  returned ret hret := by
    rcases returned_resume _ hret with hret | hzero | ⟨hrecv, -⟩ | ⟨-, hsent⟩
    · rw [hpc] at hret
      cases hret
    · exact .inl hzero
    · rw [hpc] at hrecv
      cases hrecv
    · have hsent : sent ≠ payload.length := fun heq => hsent (heq.trans hlen.symm)
      refine .inr (.inr ?_)
      rw [ClientSide.afterSendto, decide_eq_true hsent, Bool.or_true]
  noCall hcalls := absurd hcalls (h.calls_ne_zero (by simp [hpc]))
  firstCall hcalls := h.firstCall_resume hcalls _

theorem requested (h : c.Ok plat paths i) (hpc : c.client.pc = .sendto) {fiber : FiberElement}
    (hfiber : c.fiberArray[c.client.i]? = some fiber) {payload : List Byte}
    (hlen : c.client.numPacked.toInt = payload.length) (id : RequestId) :
    ((c.afterSendto plat paths payload payload.length).requested ⟨id, fiber⟩).Ok plat paths i :=
  { h.afterSendto hpc hlen payload.length with
    noCall := fun hcalls => absurd hcalls (h.calls_ne_zero (by simp [hpc]))
    firstCall := fun hcalls => by
      have hbefore := h.firstCall hcalls
      have hafter : (c.afterSendto plat paths payload payload.length).client.reached =
          c.client.i + 1 := by
        simp [ClientSide.afterSendto, baaSetSchedulePropsViaServer, hpc, Client.afterSend, hlen,
          Client.reached]
      have hreached : c.client.reached = c.client.i := if_pos hpc
      rw [hreached] at hbefore
      simp only [ClientSide.requested, hafter, List.map_append, List.map_cons, List.map_nil]
      rw [ClientSide.afterSendto, List.take_add_one, hfiber]
      exact hbefore.append (List.Sublist.refl _) }

theorem consume (h : c.Ok plat paths i) (hpc : c.client.pc = .recvfrom)
    (p : Option (Fin n) × ReplyPacket) (toClient : List (Option (Fin n) × ReplyPacket)) :
    (c.consume plat paths i p toClient).Ok plat paths i where
  packed := h.packed.resume _
  own_consumed hmisled e he := by
    obtain ⟨hbefore, hown⟩ := Bool.or_eq_false_iff.mp hmisled
    rcases List.mem_append.mp he with he | he
    · exact h.own_consumed hbefore e he
    · obtain rfl := List.mem_singleton.mp he
      exact not_not.mp (of_decide_eq_false hown)
  returned ret hret := by
    rcases returned_resume _ hret with hret | hzero | ⟨-, hrecv⟩ | ⟨hsend, -⟩
    · rw [hpc] at hret
      cases hret
    · exact .inl hzero
    · cases hrecv
    · rw [hpc] at hsend
      cases hsend
  noCall hcalls := absurd hcalls (h.calls_ne_zero (by simp [hpc]))
  firstCall hcalls := h.firstCall_resume hcalls _

theorem giveUp (h : c.Ok plat paths i) (hpc : c.client.pc = .recvfrom) :
    (c.giveUp plat paths).Ok plat paths i where
  packed := h.packed.resume _
  own_consumed := h.own_consumed
  returned _ _ := .inr (.inl rfl)
  noCall hcalls := absurd hcalls (h.calls_ne_zero (by simp [hpc]))
  firstCall hcalls := h.firstCall_resume hcalls _

/-- What comes into the queue is not seen yet. -/
theorem offered (h : c.Ok plat paths i) (owner : Option (Fin n)) (reply : ReplyPacket) (sent : ℤ) :
    (c.offered i owner reply sent).Ok plat paths i := by
  rw [ClientSide.offered]
  split_ifs
  · exact { h with }
  · exact { h with }

end ClientSide.Ok

/-! ### Whatever happens to the server -/

variable (plat paths) in
/-- What holds of the server, its queue and the histories, whatever the clients have received:
what a client has requested the server has received from it or has still in its queue, and it has
applied what it has received, but for the request in hand. -/
structure Clients.Inv (s : Clients n) : Prop where
  side : ∀ i, (s.side i).Ok plat paths i
  atLoop : s.server.pc = .recvfrom → ∃ t : Server, s.server = t.loop plat
  busy : ∀ i, s.owner = some i → s.server.pc ≠ .recvfrom →
    s.server.addr.path = paths.retF i ∧ s.server.fiber plat = s.handling.fiber
  queued : ∀ i, ∀ p ∈ ownedBy (some i) s.toServer, ∃ junk : ℕ → CInt, p.datagram =
    ⟨boundAt (paths.retF i), schedPropsMsg plat.abi junk p.request.fiber⟩
  sent : ∀ i, (s.side i).requests = ownedBy (some i) s.received ++
    (ownedBy (some i) s.toServer).map RequestPacket.request
  appliedAll : ∀ i, ownedBy (some i) s.applied ++
    (if s.owner = some i then unapplied s.server.pc s.handling else []) =
      (ownedBy (some i) s.received).map Request.fiber

/-- Between two loop heads the server keeps its address and its element. -/
private theorem resume_of_pc_ne (plat : Platform) (s : Server) (h : s.pc ≠ .recvfrom)
    (a : ServerAnswer) :
    (∃ t : Server, (baaScheduleServerTh plat).resume s a = t.loop plat) ∨
      ((baaScheduleServerTh plat).resume s a).pc ≠ .recvfrom ∧
      ((baaScheduleServerTh plat).resume s a).addr = s.addr ∧
      ((baaScheduleServerTh plat).resume s a).fiber plat = s.fiber plat := by
  rcases hpc : s.pc <;> simp only [baaScheduleServerTh, hpc, afterProps_eq]
  case recvfrom => exact absurd hpc h
  case errorTooLong | error | printSchedInfos => exact .inl ⟨_, rfl⟩
  case rcvAck | setScheduleProps | cmdAck => exact .inr ⟨by simp, by simp, rfl⟩

/-- What the server calls between two loop heads. -/
theorem call_of_pc_ne (plat : Platform) (s : Server) (h : s.pc ≠ .recvfrom) :
    (s.pc ≠ .setScheduleProps ∧
      ∃ ptype, (baaScheduleServerTh plat).call s = .sendto ptype s.addr) ∨
    (s.pc = .setScheduleProps ∧
      (baaScheduleServerTh plat).call s = .setScheduleProps (s.fiber plat)) ∨
    s.pc = .printSchedInfos ∧
      (baaScheduleServerTh plat).call s = .printSchedInfos (s.fiber plat).kernelTid := by
  rcases hpc : s.pc <;> simp_all [baaScheduleServerTh]

/-- What is still to apply stays to apply, but for the call that applies it. -/
private theorem unapplied_resume (plat : Platform) (s : Server) (h : s.pc ≠ .recvfrom)
    (a : ServerAnswer) (r : Request) : unapplied s.pc r =
      (if s.pc = .setScheduleProps then [r.fiber] else []) ++
        unapplied ((baaScheduleServerTh plat).resume s a).pc r := by
  rcases hpc : s.pc <;> simp only [baaScheduleServerTh, hpc, afterProps_eq]
  case recvfrom => exact absurd hpc h
  all_goals rfl

namespace Clients

variable {s t : Clients n}

theorem side_setSide_self (s : Clients n) (i : Fin n) (c : ClientSide n) :
    (s.setSide i c).side i = c := Function.update_self ..

theorem side_setSide_of_ne (s : Clients n) {i j : Fin n} (h : j ≠ i) (c : ClientSide n) :
    (s.setSide i c).side j = s.side j := Function.update_of_ne h ..

namespace Inv

/-- A change of one client that requests nothing. -/
theorem setSide (h : s.Inv plat paths) {i : Fin n} {c : ClientSide n} (hok : c.Ok plat paths i)
    (hrequests : c.requests = (s.side i).requests) : (s.setSide i c).Inv plat paths := by
  refine { h with side := fun j => ?_, sent := fun j => ?_ } <;>
    rcases eq_or_ne j i with rfl | hne
  · rwa [side_setSide_self]
  · rw [side_setSide_of_ne s hne]
    exact h.side j
  · rw [side_setSide_self, hrequests]
    exact h.sent j
  · rw [side_setSide_of_ne s hne]
    exact h.sent j

/-- A datagram of nobody's for the server. -/
theorem stranger (h : s.Inv plat paths) (p : RequestPacket) :
    Clients.Inv plat paths { s with toServer := s.toServer ++ [(none, p)] } := by
  have hown : ∀ i : Fin n, ownedBy (some i) (s.toServer ++ [(none, p)]) =
      ownedBy (some i) s.toServer := fun i => ownedBy_concat_of_ne (Option.some_ne_none i).symm _ _
  refine { h with queued := fun i => ?_, sent := fun i => ?_ }
  · rw [hown]
    exact h.queued i
  · rw [hown]
    exact h.sent i

/-- A request. -/
theorem request (h : s.Inv plat paths) {i : Fin n} {fiber : FiberElement} {c : ClientSide n}
    (hok : c.Ok plat paths i) (id : RequestId) (junk : ℕ → CInt)
    (hrequests : c.requests = (s.side i).requests ++ [⟨id, fiber⟩]) :
    ({ s with toServer := s.toServer ++ [(some i, (⟨⟨id, fiber⟩,
      ⟨boundAt (paths.retF i), schedPropsMsg plat.abi junk fiber⟩⟩ : RequestPacket))]
        }.setSide i c).Inv plat paths := by
  have hother : ∀ j ≠ i, ∀ p : RequestPacket, ownedBy (some j) (s.toServer ++ [(some i, p)]) =
      ownedBy (some j) s.toServer := fun j hne p =>
    ownedBy_concat_of_ne (fun heq => hne (Option.some.inj heq).symm) _ _
  refine { h with side := fun j => ?_, queued := fun j => ?_, sent := fun j => ?_ } <;>
    rcases eq_or_ne j i with rfl | hne
  · rwa [side_setSide_self]
  · rw [side_setSide_of_ne _ hne]
    exact h.side j
  · intro p hp
    rw [Clients.setSide, ownedBy_concat_self] at hp
    rcases List.mem_append.mp hp with hp | hp
    · exact h.queued j p hp
    · obtain rfl := List.mem_singleton.mp hp
      exact ⟨junk, rfl⟩
  · rw [Clients.setSide, hother j hne]
    exact h.queued j
  · rw [side_setSide_self, hrequests, h.sent j, Clients.setSide, ownedBy_concat_self,
      List.map_append, List.append_assoc]
    rfl
  · rw [side_setSide_of_ne _ hne, Clients.setSide, hother j hne]
    exact h.sent j

/-- The server receives. -/
theorem receive (h : s.Inv plat paths) (hpc : s.server.pc = .recvfrom)
    {p : Option (Fin n) × RequestPacket} {toServer : List (Option (Fin n) × RequestPacket)}
    (hqueue : s.toServer = p :: toServer) :
    Clients.Inv plat paths { s with
      server := s.server.afterRecv plat (some p.2.datagram), toServer := toServer, owner := p.1
      handling := p.2.request, received := s.received ++ [(p.1, p.2.request)] } := by
  obtain ⟨x, hx⟩ := h.atLoop hpc
  -- a request of a client is there with its address and its element
  have hrequest : ∀ i, p.1 = some i →
      (s.server.afterRecv plat (some p.2.datagram)).pc = .rcvAck ∧
      (s.server.afterRecv plat (some p.2.datagram)).addr.path = paths.retF i ∧
      (s.server.afterRecv plat (some p.2.datagram)).fiber plat = p.2.request.fiber := by
    intro i hi
    obtain ⟨junk, hdatagram⟩ := h.queued i p.2 (by rw [hqueue, ownedBy_cons, if_pos hi]; simp)
    obtain ⟨hrcv, haddr, hfiber⟩ := afterRecv_request plat x (d := p.2.datagram)
      (by rw [hdatagram]; exact getD_schedPropsMsg ..)
    rw [hx]
    refine ⟨hrcv, ?_, ?_⟩
    · rw [haddr, hdatagram]
      exact AddrArg.path_receive_boundAt (paths.nul_notMem_retF i) (paths.retF_fits i)
        List.length_replicate rfl
    · rw [hfiber, hdatagram]
      exact ofRecord_schedPropsMsg plat junk _
  have hqueued : ∀ i, ownedBy (some i) s.toServer =
      if p.1 = some i then p.2 :: ownedBy (some i) toServer else ownedBy (some i) toServer :=
    fun i => by rw [hqueue, ownedBy_cons]
  have happlied : ∀ i, ownedBy (some i) s.applied =
      (ownedBy (some i) s.received).map Request.fiber := fun i => by
    rw [← h.appliedAll i, hpc]
    simp [unapplied]
  refine { h with
    atLoop := fun hloop => ?_
    busy := fun i hi _ => (hrequest i hi).2
    queued := fun i q hq => h.queued i q ?_
    sent := fun i => ?_
    appliedAll := fun i => ?_ }
  · rw [hx] at hloop ⊢
    by_cases hptype : p.2.datagram.payload.getD 0 0 = ptypeSchedProps
    · rw [(afterRecv_request plat x hptype).1] at hloop
      cases hloop
    · exact ⟨x, afterRecv_other x hptype⟩
  · rw [hqueued]
    split_ifs
    · exact List.mem_cons_of_mem _ hq
    · exact hq
  · rw [h.sent i, hqueued]
    simp only [ownedBy_append, ownedBy_singleton]
    split_ifs
    · simp
    · simp
  · simp only [happlied, ownedBy_append, ownedBy_singleton]
    split_ifs with hi
    · rw [(hrequest i hi).1, List.map_append]
      rfl
    · simp

/-- The server goes on with what it has in hand; `fibers` is what it applies. -/
theorem work (h : s.Inv plat paths) (hpc : s.server.pc ≠ .recvfrom) (a : ServerAnswer)
    {fibers : List FiberElement}
    (hfibers : fibers = if s.server.pc = .setScheduleProps then [s.server.fiber plat] else []) :
    Clients.Inv plat paths { s with
      server := (baaScheduleServerTh plat).resume s.server a
      applied := s.applied ++ fibers.map fun fiber => (s.owner, fiber) } := by
  have hgoes := resume_of_pc_ne plat s.server hpc a
  refine { h with
    atLoop := fun hloop => hgoes.resolve_right fun hne => hne.1 hloop
    busy := fun i hi hne => ?_
    appliedAll := fun i => ?_ }
  · rcases hgoes with ⟨x, hx⟩ | ⟨-, haddr, hfiber⟩
    · exact absurd (by rw [hx]; rfl) hne
    · rw [haddr, hfiber]
      exact h.busy i hi hpc
  · rw [← h.appliedAll i]
    by_cases hi : s.owner = some i
    · have hown : ownedBy (some i) (fibers.map fun fiber => (s.owner, fiber)) = fibers := by
        rw [hi]
        simp [ownedBy]
      rw [if_pos hi, if_pos hi, ownedBy_append, hown, List.append_assoc, hfibers,
        (h.busy i hi hpc).2, ← unapplied_resume plat s.server hpc]
    · have hnone : ownedBy (some i) (fibers.map fun fiber => (s.owner, fiber)) = [] :=
        ownedBy_eq_nil (by simpa using fun _ _ => hi)
      rw [if_neg hi, if_neg hi, ownedBy_append, hnone, List.append_nil]

/-- The server goes on, and applies nothing. -/
theorem rest (h : s.Inv plat paths) (hpc : s.server.pc ≠ .recvfrom)
    (hne : s.server.pc ≠ .setScheduleProps) (a : ServerAnswer) :
    Clients.Inv plat paths { s with server := (baaScheduleServerTh plat).resume s.server a } := by
  have hwork := h.work hpc a (if_neg hne).symm
  rwa [List.map_nil, List.append_nil] at hwork

/-- The server sends. -/
theorem serverSend (h : s.Inv plat paths) (hpc : s.server.pc ≠ .recvfrom)
    (hsend : s.server.pc ≠ .setScheduleProps) (ptype : Byte) (addr : AddrArg) (sent : ℤ) :
    (s.serverSend plat paths ptype addr sent).Inv plat paths := by
  have hrest := h.rest hpc hsend ⟨none, sent, ⟨.ok, .ok⟩⟩
  rw [Clients.serverSend]
  split
  · refine hrest.setSide ((h.side _).offered _ _ _) ?_
    rw [ClientSide.offered]
    split_ifs
    · rfl
    · rfl
  · exact hrest

/-- **Every step** keeps the invariant. -/
theorem step (h : s.Inv plat paths) {a : ClientsLabel n} (hst : s.step plat paths a = some t) :
    t.Inv plat paths := by
  cases a with
  | call i fiberArray junk ptypeRcv =>
    simp only [Clients.step] at hst
    split at hst
    · obtain rfl := Option.some.inj hst
      exact h.setSide ((h.side i).begin fiberArray junk ptypeRcv) rfl
    · cases hst
  | clientSend i sent =>
    rcases hpc : (s.side i).client.pc with _ | _ | ret
    case recvfrom | returned => simp [Clients.step, baaSetSchedulePropsViaServer, hpc] at hst
    obtain ⟨fiber, hfiber, hpacked, hcall⟩ := (h.side i).payload hpc
    have hlen : (s.side i).client.numPacked.toInt =
        (schedPropsMsg plat.abi ((s.side i).junk (s.side i).client.i) fiber).length := by
      rw [hpacked, length_schedPropsMsg]
      rfl
    simp only [Clients.step, hcall, hfiber, Option.some.injEq] at hst
    subst hst
    rw [Clients.clientSend]
    split_ifs with hsent
    · rw [hsent.1]
      exact h.request ((h.side i).requested hpc hfiber hlen _) _ _ rfl
    · exact h.setSide ((h.side i).afterSendto hpc hlen sent) rfl
  | clientRecv i =>
    rcases hpc : (s.side i).client.pc with _ | _ | ret
    case sendto | returned => simp [Clients.step, baaSetSchedulePropsViaServer, hpc] at hst
    simp only [Clients.step] at hst
    split at hst
    · obtain rfl := Option.some.inj hst
      exact h.setSide ((h.side i).consume hpc _ _) rfl
    · cases hst
  | clientTimeout i =>
    rcases hpc : (s.side i).client.pc with _ | _ | ret
    case sendto | returned => simp [Clients.step, baaSetSchedulePropsViaServer, hpc] at hst
    simp only [Clients.step] at hst
    split at hst
    · obtain rfl := Option.some.inj hst
      exact h.setSide ((h.side i).giveUp hpc) rfl
    · cases hst
  | stranger d =>
    obtain rfl := Option.some.inj hst
    exact h.stranger _
  | strangerTo i d =>
    obtain rfl := Option.some.inj hst
    exact h.setSide { h.side i with } rfl
  | serverRecv =>
    have hpc : s.server.pc = .recvfrom := by
      rcases hpc : s.server.pc <;> simp_all [Clients.step, baaScheduleServerTh]
    rcases hqueue : s.toServer with _ | ⟨p, toServer⟩
    · simp [Clients.step, baaScheduleServerTh, hpc, hqueue] at hst
    simp only [Clients.step, baaScheduleServerTh, hpc, hqueue, Option.some.injEq] at hst
    subst hst
    exact h.receive hpc hqueue
  | serverTimeout =>
    have hpc : s.server.pc = .recvfrom := by
      rcases hpc : s.server.pc <;> simp_all [Clients.step, baaScheduleServerTh]
    simp only [Clients.step, baaScheduleServerTh, hpc, Option.some.injEq] at hst
    subst hst
    refine { h with
      atLoop := fun _ => ⟨s.server, rfl⟩
      busy := fun _ _ hne => absurd rfl hne
      appliedAll := fun i => ?_ }
    have happlied := h.appliedAll i
    rwa [hpc] at happlied
  | serverStep outcome sent =>
    have hpc : s.server.pc ≠ .recvfrom := fun hpc => by
      simp [Clients.step, baaScheduleServerTh, hpc] at hst
    rcases call_of_pc_ne plat s.server hpc with
      ⟨hne, ptype, hcall⟩ | ⟨heq, hcall⟩ | ⟨heq, hcall⟩ <;>
      simp only [Clients.step, hcall, Option.some.injEq] at hst <;> subst hst
    · exact h.serverSend hpc hne ptype _ sent
    · exact h.work hpc ⟨none, 0, outcome⟩ (by rw [if_pos heq])
    · exact h.rest hpc (by simp [heq]) ⟨none, 0, outcome⟩

/-- What is applied for a client is what it requested, as far as the server has come. -/
theorem applied_prefix (h : s.Inv plat paths) (i : Fin n) :
    ownedBy (some i) s.applied <+: (s.side i).requests.map Request.fiber := by
  rw [h.sent i, List.map_append, ← h.appliedAll i, List.append_assoc]
  exact List.prefix_append _ _

/-- Everybody idle. -/
theorem init : Clients.Inv plat paths (.init plat) where
  side i := ⟨⟨by simp [Clients.init]⟩, by simp [Clients.init], by simp [Clients.init],
    fun _ => ⟨rfl, 0, rfl⟩, fun _ => List.nil_sublist _⟩
  atLoop _ := ⟨_, rfl⟩
  busy _ hi := by cases hi
  queued := by simp [Clients.init]
  sent _ := rfl
  appliedAll _ := rfl

end Inv

end Clients

end Libbaalue
