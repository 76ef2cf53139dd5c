import Libbaalue.Fiber.Session
import Libbaalue.Foundations.StopAndWait

/-!
# The joint invariant of client and server

`Session.Inv` ties the program points of both parties to the contents of the queues and to the
histories: what was sent is what was received and what is still queued, and the replies
consumed, queued and still owed are two for each request received.

`Session.step_cases` says once what a step does in a state that satisfies the invariant; every
step is then one of the events of the stop-and-wait pattern with two replies to a request
(`session_refines_stopAndWait`), which does the counting.

The case analysis over program points and labels is done once, in `Session.step_cases`, and its
result is an inductive type with one constructor for each thing that can happen, guards and all
(`Session.Move`). Behind it the state machines are not unfolded any more: each clause of the
invariant is checked against the moves, and so is the refinement.
-/

namespace Libbaalue

open Block

/-! ### Replies and applications still owed -/

/-- The replies to a request. -/
def Request.replies (r : Request) : List (RequestId × List Byte) :=
  [(r.id, [ptypeRcvAck]), (r.id, [ptypeCmdAck])]

/-- A reply consumed, as a reply to a request. -/
def Consumed.reply (c : Consumed) : RequestId × List Byte := (c.sentFor, c.payload)

/-- A queued reply, as a reply to a request. -/
def ReplyPacket.reply (p : ReplyPacket) : RequestId × List Byte := (p.sentFor, p.datagram.payload)

/-- The replies the server still owes to the request it is handling. -/
def pendingReplies (pc : ServerPc) (r : Request) : List (RequestId × List Byte) :=
  match pc with
  | .rcvAck => r.replies
  | .setScheduleProps | .cmdAck => [(r.id, [ptypeCmdAck])]
  | _ => []

/-- The elements the server has received and not applied yet. -/
def unapplied (pc : ServerPc) (r : Request) : List FiberElement :=
  match pc with
  | .rcvAck | .setScheduleProps => [r.fiber]
  | _ => []

variable (plat : Platform) (paths : Paths)

/-- The invariant of the server: it is at a loop head, or it handles the request `r` and knows
where to reply. -/
structure Server.Ok (r : Request) (s : Server) : Prop where
  noError : s.pc ≠ .errorTooLong ∧ s.pc ≠ .error
  atLoop : s.pc = .recvfrom → ∃ t : Server, s = t.loop plat
  handles : s.pc ≠ .recvfrom → s.addr.path = paths.retF ∧ s.fiber plat = r.fiber

variable {plat paths}

/-- A server at its loop head. -/
theorem Server.Ok.loop (r : Request) (s : Server) : (s.loop plat).Ok plat paths r :=
  ⟨by simp [Server.loop], fun _ => ⟨s, rfl⟩, fun h => absurd rfl h⟩

/-- A server that received a request of the client. -/
theorem Server.Ok.receive {r₀ : Request} {s : Server} (h : s.Ok plat paths r₀)
    (hpc : s.pc = .recvfrom) (r : Request) (junk : ℕ → CInt) :
    (s.afterRecv plat
      (some ⟨boundAt paths.retF, schedPropsMsg plat.abi junk r.fiber⟩)).pc = .rcvAck ∧
    (s.afterRecv plat
      (some ⟨boundAt paths.retF, schedPropsMsg plat.abi junk r.fiber⟩)).Ok plat paths r := by
  obtain ⟨t, rfl⟩ := h.atLoop hpc
  obtain ⟨hrcv, haddr, hfiber⟩ := afterRecv_request plat t
    (d := ⟨boundAt paths.retF, schedPropsMsg plat.abi junk r.fiber⟩) (getD_schedPropsMsg ..)
  refine ⟨hrcv, by simp [hrcv], by simp [hrcv], fun _ => ⟨?_, ?_⟩⟩
  · rw [haddr]
    exact AddrArg.path_receive_boundAt paths.nul_notMem_retF paths.retF_fits
      List.length_replicate rfl
  · rw [hfiber]
    exact ofRecord_schedPropsMsg plat junk r.fiber

/-! ### The invariant -/

variable (plat paths) in
/-- The joint invariant of the two parties, their queues and the histories. The histories are
accounted for in full: what was requested is received or waits, and the replies to what was received
are consumed, wait or are still owed. -/
structure Session.Inv (s : Session) : Prop where
  client_ok : s.client.Ok (s.args plat paths)
  server_ok : s.server.Ok plat paths s.handling
  toServer_ok : ∀ p ∈ s.toServer, ∃ junk : ℕ → CInt, p.datagram =
    ⟨boundAt paths.retF, schedPropsMsg plat.abi junk p.request.fiber⟩
  toClient_ok : ∀ p ∈ s.toClient, p.datagram.sender = boundAt paths.kdoF
  sent : s.requests = s.received ++ s.toServer.map RequestPacket.request
  replied : s.consumed.map Consumed.reply ++ (s.toClient.map ReplyPacket.reply ++
    pendingReplies s.server.pc s.handling) = s.received.flatMap Request.replies
  appliedAll : s.applied ++ unapplied s.server.pc s.handling = s.received.map Request.fiber
  noCall : s.calls = 0 → s.requests = [] ∧ ∃ ret, s.client.pc = .returned ret
  bounded : ∀ r ∈ s.requests, r.id.call < s.calls ∧
    (r.id.call = s.calls - 1 → r.id.element < s.sentInCall)
  ordered : s.requests.Pairwise fun r r' => r.id.Before r'.id
  firstCall : s.calls ≤ 1 → s.requests.map Request.fiber = s.fiberArray.take s.sentInCall
  sending : s.client.pc = .sendto → s.sentInCall = s.client.i
  waiting : s.client.pc = .recvfrom → s.sentInCall = s.client.i + 1 ∧
    ∃ fiber, s.requests.getLast? = some ⟨s.awaited, fiber⟩
  done : s.client.pc = .returned 0 → s.sentInCall = s.fiberArray.length
  attributed : ∀ c ∈ s.consumed, (c.afterTimeout = false → c.sentFor = c.waitingFor) ∧
    (c.afterTimeout = true → c.sentFor.Before c.waitingFor)

/-- Both parties idle. -/
theorem Session.Inv.init : (Session.init plat).Inv plat paths where
  client_ok := ⟨⟨by simp [Session.init], by simp [Session.init]⟩, ⟨by simp [Session.init]⟩,
    by simp [Session.init]⟩
  server_ok := Server.Ok.loop _ _
  toServer_ok := by simp [Session.init]
  toClient_ok := by simp [Session.init]
  sent := rfl
  replied := rfl
  appliedAll := rfl
  noCall := fun _ => ⟨rfl, 0, rfl⟩
  bounded := by simp [Session.init]
  ordered := List.Pairwise.nil
  firstCall := fun _ => rfl
  sending := by simp [Session.init]
  waiting := by simp [Session.init]
  done := fun _ => rfl
  attributed := by simp [Session.init]

/-! ### What a step does -/

variable (plat paths) in
/-- The steps, under the invariant. -/
inductive Session.Move (s : Session) : Session → Prop
  | call (fiberArray : List FiberElement) (junk : ℕ → ℕ → CInt) (ptypeRcv : Byte) (ret : CInt)
      (hpc : s.client.pc = .returned ret) :
      Move s { s with
        fiberArray := fiberArray, junk := junk, calls := s.calls + 1, sentInCall := 0
        client := .start ⟨plat.abi, junk, fiberArray, paths.kdoF⟩ ptypeRcv }
  | send (fiber : FiberElement) (hpc : s.client.pc = .sendto)
      (hfiber : s.fiberArray[s.client.i]? = some fiber) :
      Move s { s with
        client := { s.client with pc := .recvfrom }
        toServer := s.toServer ++ [⟨⟨s.awaited, fiber⟩,
          ⟨boundAt paths.retF, schedPropsMsg plat.abi (s.junk s.client.i) fiber⟩⟩]
        requests := s.requests ++ [⟨s.awaited, fiber⟩]
        sentInCall := s.sentInCall + 1 }
  | consume (p : ReplyPacket) (toClient : List ReplyPacket) (hpc : s.client.pc = .recvfrom)
      (hqueue : s.toClient = p :: toClient) :
      Move s { s with
        client := s.client.afterRecv (s.args plat paths) (some p.datagram)
        toClient := toClient
        consumed := s.consumed ++ [⟨s.awaited, p.sentFor, p.datagram.payload, s.timedOut⟩] }
  | timeout (hpc : s.client.pc = .recvfrom) :
      Move s { s with client := { s.client with pc := .returned (-1) }, timedOut := true }
  | receive (p : RequestPacket) (toServer : List RequestPacket)
      (hpc : s.server.pc = .recvfrom) (hqueue : s.toServer = p :: toServer) :
      Move s { s with
        server := s.server.afterRecv plat (some p.datagram)
        toServer := toServer, handling := p.request, received := s.received ++ [p.request] }
  | reply (server : Server) (ptype : Byte) (hok : server.Ok plat paths s.handling)
      (howed : pendingReplies s.server.pc s.handling =
        (s.handling.id, [ptype]) :: pendingReplies server.pc s.handling)
      (happ : unapplied s.server.pc s.handling = unapplied server.pc s.handling) :
      Move s { s with
        server := server
        toClient := s.toClient ++ [⟨s.handling.id, ⟨boundAt paths.kdoF, [ptype]⟩⟩] }
  | work (server : Server) (fibers : List FiberElement) (hok : server.Ok plat paths s.handling)
      (howed : pendingReplies s.server.pc s.handling = pendingReplies server.pc s.handling)
      (happ : unapplied s.server.pc s.handling = fibers ++ unapplied server.pc s.handling) :
      Move s { s with server := server, applied := s.applied ++ fibers }

/-- The `sendto` of the client succeeds and puts the request into the server's queue. -/
private theorem Session.Inv.move_clientSend {s t : Session} (h : s.Inv plat paths)
    (hst : s.step plat paths .clientSend = some t) : s.Move plat paths t := by
  rcases hpc : s.client.pc with _ | _ | ret
  case recvfrom | returned => simp [Session.step, baaSetSchedulePropsViaServer, hpc] at hst
  obtain ⟨fiber, hfiber, hmsg, hpacked⟩ := h.client_ok.packed hpc
  obtain ⟨hpath, hlen⟩ := h.client_ok.of_sendto hpc
  have hpath : s.client.addr.path = paths.kdoF :=
    AddrArg.path_eq_of_prefix paths.nul_notMem_kdoF hpath
      (by rw [hlen, sizeofSockaddrUn, Nat.add_sub_cancel_left]; exact paths.kdoF_fits)
  simp only [Session.args] at hfiber hmsg
  have hcall : (baaSetSchedulePropsViaServer (s.args plat paths)).call s.client =
      .sendto (schedPropsMsg plat.abi (s.junk s.client.i) fiber) s.client.addr := by
    simp only [baaSetSchedulePropsViaServer, hpc, hmsg]
  have hresume : (baaSetSchedulePropsViaServer (s.args plat paths)).resume s.client
      ⟨(schedPropsMsg plat.abi (s.junk s.client.i) fiber).length, none⟩ =
        { s.client with pc := .recvfrom } := by
    simp [baaSetSchedulePropsViaServer, hpc, Client.afterSend, hpacked]
  simp only [Session.step, hcall, hfiber, Session.clientSend, if_pos hpath, hresume,
    Option.some.injEq] at hst
  subst hst
  exact .send fiber hpc hfiber

/-- The `recvfrom` of the client takes the first reply of its queue, or fails. -/
private theorem Session.move_clientRecv {s t : Session}
    (hst : s.step plat paths .clientRecv = some t ∨ s.step plat paths .clientTimeout = some t) :
    s.Move plat paths t := by
  rcases hpc : s.client.pc with _ | _ | ret
  case sendto | returned => simp [Session.step, baaSetSchedulePropsViaServer, hpc] at hst
  rcases hst with hst | hst
  · rcases hqueue : s.toClient with _ | ⟨p, toClient⟩
    · simp [Session.step, baaSetSchedulePropsViaServer, hpc, hqueue] at hst
    · simp only [Session.step, baaSetSchedulePropsViaServer, hpc, hqueue, Option.some.injEq] at hst
      subst hst
      exact .consume p toClient hpc hqueue
  · simp only [Session.step, baaSetSchedulePropsViaServer, hpc, Option.some.injEq] at hst
    subst hst
    exact .timeout hpc

/-- A call starts when the call before has returned. -/
private theorem Session.move_call {s t : Session} {fiberArray : List FiberElement}
    {junk : ℕ → ℕ → CInt} {ptypeRcv : Byte}
    (hst : s.step plat paths (.call fiberArray junk ptypeRcv) = some t) : s.Move plat paths t := by
  rcases hpc : s.client.pc with _ | _ | ret
  case sendto | recvfrom => simp [Session.step, hpc] at hst
  simp only [Session.step, hpc, Option.some.injEq] at hst
  subst hst
  exact .call fiberArray junk ptypeRcv ret hpc

/-- The `recvfrom` of the server takes the first request of its queue, or times out. -/
private theorem Session.move_serverRecv {s t : Session}
    (hst : s.step plat paths .serverRecv = some t ∨ s.step plat paths .serverTimeout = some t) :
    s.Move plat paths t := by
  have hpc : s.server.pc = .recvfrom := by
    rcases hpc : s.server.pc <;> simp_all [Session.step, baaScheduleServerTh]
  rcases hst with hst | hst
  · rcases hqueue : s.toServer with _ | ⟨p, toServer⟩
    · simp [Session.step, baaScheduleServerTh, hpc, hqueue] at hst
    · simp only [Session.step, baaScheduleServerTh, hpc, hqueue, Option.some.injEq] at hst
      subst hst
      exact .receive p toServer hpc hqueue
  · simp only [Session.step, baaScheduleServerTh, hpc, Option.some.injEq] at hst
    subst hst
    have hwork : s.Move plat paths _ := .work (s.server.loop plat) [] (.loop _ _)
      (by simp [hpc, pendingReplies, Server.loop]) (by simp [hpc, unapplied, Server.loop])
    rw [List.append_nil] at hwork
    exact hwork

/-- Between two receives the server sends the replies it owes and applies what it received. -/
private theorem Session.Inv.move_serverStep {s t : Session} (h : s.Inv plat paths)
    {outcome : SchedOutcome} (hst : s.step plat paths (.serverStep outcome) = some t) :
    s.Move plat paths t := by
  have hhandles := h.server_ok.handles
  rcases hpc : s.server.pc
  case errorTooLong => exact absurd hpc h.server_ok.noError.1
  case error => exact absurd hpc h.server_ok.noError.2
  case recvfrom => simp [Session.step, baaScheduleServerTh, hpc] at hst
  -- the server has a request in hand, from the path of the client
  all_goals
    obtain ⟨hpath, hfiber⟩ := hhandles (by simp [hpc])
    simp only [Session.step, baaScheduleServerTh, hpc, Session.serverSend, if_pos hpath,
      Option.some.injEq] at hst
    subst hst
  case rcvAck =>
    refine .reply _ ptypeRcvAck ⟨by simp, by simp, fun _ => ⟨hpath, hfiber⟩⟩ ?_ ?_
    · rw [hpc]
      rfl
    · rw [hpc]
      rfl
  case cmdAck =>
    refine .reply _ ptypeCmdAck ⟨by simp, by simp, fun _ => ⟨hpath, hfiber⟩⟩ ?_ ?_
    · rw [hpc]
      rfl
    · rw [hpc]
      rfl
  case setScheduleProps =>
    rw [afterProps_eq]
    refine .work _ [s.server.fiber plat] ⟨by simp, by simp, fun _ => ⟨hpath, hfiber⟩⟩ ?_ ?_
    · rw [hpc]
      rfl
    · rw [hpc, hfiber]
      rfl
  case printSchedInfos =>
    have hwork : s.Move plat paths _ := .work (s.server.loop plat) [] (.loop _ _)
      (by simp [hpc, pendingReplies, Server.loop]) (by simp [hpc, unapplied, Server.loop])
    rw [List.append_nil] at hwork
    exact hwork

/-- **What a step does**, in a state that satisfies the invariant. Everything about runs is proved
from these cases, and the machines of the two parties are not looked at again. -/
theorem Session.Inv.step_cases {s t : Session} (h : s.Inv plat paths) {a : SessionLabel}
    (hst : s.step plat paths a = some t) : s.Move plat paths t := by
  cases a with
  | call => exact Session.move_call hst
  | clientSend => exact h.move_clientSend hst
  | clientRecv => exact Session.move_clientRecv (.inl hst)
  | clientTimeout => exact Session.move_clientRecv (.inr hst)
  | serverRecv => exact Session.move_serverRecv (.inl hst)
  | serverTimeout => exact Session.move_serverRecv (.inr hst)
  | serverStep => exact h.move_serverStep hst

/-! ### What a step preserves -/

/-- How far the two parties have come. -/
def Session.counts (s : Session) : StopAndWait.Counts where
  sent := s.requests.length
  received := s.received.length
  produced := s.consumed.length + s.toClient.length
  consumed := s.consumed.length
  waiting := decide (s.client.pc = .recvfrom)
  aborted := s.timedOut

/-- Two replies to each request received: consumed, queued or still owed. -/
theorem Session.Inv.produced_add {s : Session} (h : s.Inv plat paths) :
    s.counts.produced + (pendingReplies s.server.pc s.handling).length = 2 * s.counts.received := by
  have hlen := congrArg List.length h.replied
  have hreplies : (s.received.flatMap Request.replies).length = 2 * s.received.length :=
    StopAndWait.length_replies (f := Request.replies) (fun _ => rfl) _
  rw [hreplies, List.length_append, List.length_append, List.length_map, List.length_map] at hlen
  simpa only [Session.counts, Nat.add_assoc] using hlen

/-- A reply in the queue, by its position among all replies. -/
theorem Session.Inv.getElem?_toClient {s : Session} (h : s.Inv plat paths) {k : ℕ}
    {p : ReplyPacket} (hp : s.toClient[k]? = some p) :
    ∃ r, s.received[(s.consumed.length + k) / 2]? = some r ∧ p.sentFor = r.id ∧
      p.datagram.payload =
        [if (s.consumed.length + k) % 2 = 0 then ptypeRcvAck else ptypeCmdAck] := by
  have hk : k < s.toClient.length := (List.getElem?_eq_some_iff.mp hp).1
  have hget := congrArg (fun l => l[s.consumed.length + k]?) h.replied
  simp only [StopAndWait.getElem?_replies (by decide : 0 < 2) (f := Request.replies)
    fun _ => rfl] at hget
  rw [List.getElem?_append_right (by rw [List.length_map]; omega), List.length_map,
    Nat.add_sub_cancel_left, List.getElem?_append_left (by rwa [List.length_map]),
    List.getElem?_map, hp] at hget
  obtain ⟨r, hr, hreply⟩ := Option.bind_eq_some_iff.mp hget.symm
  refine ⟨r, hr, ?_⟩
  rcases Nat.mod_two_eq_zero_or_one (s.consumed.length + k) with hmod | hmod <;>
    rw [hmod] at hreply ⊢ <;> obtain ⟨hid, hpayload⟩ := Prod.mk.inj (Option.some.inj hreply) <;>
    exact ⟨hid.symm, hpayload.symm⟩

/-- The reply at the head of the queue. -/
private theorem Session.Inv.head_toClient {s : Session} (h : s.Inv plat paths) {p : ReplyPacket}
    {toClient : List ReplyPacket} (hqueue : s.toClient = p :: toClient) :
    ∃ r, s.received[s.consumed.length / 2]? = some r ∧ p.sentFor = r.id ∧
      p.datagram.payload = [if s.consumed.length % 2 = 0 then ptypeRcvAck else ptypeCmdAck] :=
  h.getElem?_toClient (k := 0) (by rw [hqueue]; rfl)

/-- A new call starts at its first element. -/
theorem Session.Inv.call {s : Session} (h : s.Inv plat paths) (fiberArray : List FiberElement)
    (junk : ℕ → ℕ → CInt) (ptypeRcv : Byte) :
    Session.Inv plat paths { s with
      fiberArray := fiberArray, junk := junk, calls := s.calls + 1, sentInCall := 0
      client := .start ⟨plat.abi, junk, fiberArray, paths.kdoF⟩ ptypeRcv } := by
  have hi : (Client.start ⟨plat.abi, junk, fiberArray, paths.kdoF⟩ ptypeRcv).i = 0 := i_next _ _
  have hpc : (Client.start ⟨plat.abi, junk, fiberArray, paths.kdoF⟩ ptypeRcv).pc =
      if 0 < fiberArray.length then .sendto else .returned 0 := pc_next _ _
  exact { h with
    client_ok := Client.Ok.next fun _ => boundAt_prefix_strncpy paths.kdoF_fits
    noCall := fun hcalls => absurd hcalls (Nat.succ_ne_zero _)
    bounded := fun r hr => by
      have hlt := (h.bounded r hr).1
      exact ⟨Nat.lt_succ_of_lt hlt, fun heq => absurd hlt (by simp [heq])⟩
    firstCall := fun hcalls => by
      -- before the first call nothing was sent
      have hnone := (h.noCall (Nat.le_zero.mp (Nat.le_of_succ_le_succ hcalls))).1
      simp [hnone]
    sending := fun _ => hi.symm
    waiting := fun hwait => absurd (hpc.symm.trans hwait) (by split_ifs <;> simp)
    done := fun hdone => by
      have hnot : ¬ 0 < fiberArray.length := fun hpos => by
        simp [hpc, hpos] at hdone
      simp only
      omega }

/-- The client sends the request for its element. -/
theorem Session.Inv.send {s : Session} (h : s.Inv plat paths) {fiber : FiberElement}
    (hpc : s.client.pc = .sendto) (hfiber : s.fiberArray[s.client.i]? = some fiber) :
    Session.Inv plat paths { s with
      client := { s.client with pc := .recvfrom }
      toServer := s.toServer ++ [⟨⟨s.awaited, fiber⟩,
        ⟨boundAt paths.retF, schedPropsMsg plat.abi (s.junk s.client.i) fiber⟩⟩]
      requests := s.requests ++ [⟨s.awaited, fiber⟩]
      sentInCall := s.sentInCall + 1 } := by
  have hcount := h.sending hpc
  have hcalls : 0 < s.calls := by
    refine Nat.pos_of_ne_zero fun hzero => ?_
    obtain ⟨-, ret, hret⟩ := h.noCall hzero
    simp [hret] at hpc
  exact { h with
    client_ok :=
      { of_sendto := by simp
        of_recvfrom := fun _ _ => (h.client_ok.of_sendto hpc).1
        packed := by simp
        waits := fun _ => (List.getElem?_eq_some_iff.mp hfiber).1 }
    toServer_ok := fun p hp => by
      rcases List.mem_append.mp hp with hp | hp
      · exact h.toServer_ok p hp
      · obtain rfl := List.mem_singleton.mp hp
        exact ⟨_, rfl⟩
    sent := by
      rw [List.map_append, ← List.append_assoc, ← h.sent]
      rfl
    noCall := fun hzero => absurd hzero hcalls.ne'
    bounded := fun r hr => by
      rcases List.mem_append.mp hr with hr | hr
      · exact ⟨(h.bounded r hr).1, fun heq => Nat.lt_succ_of_lt ((h.bounded r hr).2 heq)⟩
      · obtain rfl := List.mem_singleton.mp hr
        exact ⟨Nat.sub_lt hcalls one_pos, fun _ => by simp [Session.awaited, hcount]⟩
    ordered := by
      -- behind all requests of earlier calls, and behind those of its own
      refine List.pairwise_append.mpr ⟨h.ordered, List.pairwise_singleton _ _, ?_⟩
      rintro r hr r' hr'
      obtain rfl := List.mem_singleton.mp hr'
      obtain ⟨hcall, helem⟩ := h.bounded r hr
      rcases Nat.lt_or_eq_of_le (Nat.le_sub_one_of_lt hcall) with hlt | heq
      · exact .inl hlt
      · exact .inr ⟨heq, (helem heq).trans_eq hcount⟩
    firstCall := fun hle => by
      rw [List.map_append, h.firstCall hle, List.take_add_one, hcount, hfiber]
      rfl
    sending := by simp
    waiting := fun _ => ⟨by simp [hcount], fiber, by simp [Session.awaited]⟩
    done := by simp }

/-- The client gives up. -/
theorem Session.Inv.timeout {s : Session} (h : s.Inv plat paths) :
    Session.Inv plat paths
      { s with client := { s.client with pc := .returned (-1) }, timedOut := true } :=
  { h with
    client_ok := ⟨⟨by simp, by simp⟩, ⟨by simp⟩, by simp⟩
    noCall := fun hzero => ⟨(h.noCall hzero).1, _, rfl⟩
    sending := by simp
    waiting := by simp
    done := by simp }

/-- The server receives the first request of its queue. -/
theorem Session.Inv.receive {s : Session} (h : s.Inv plat paths) {p : RequestPacket}
    {toServer : List RequestPacket} (hpc : s.server.pc = .recvfrom)
    (hqueue : s.toServer = p :: toServer) :
    Session.Inv plat paths { s with
      server := s.server.afterRecv plat (some p.datagram)
      toServer := toServer, handling := p.request, received := s.received ++ [p.request] } := by
  obtain ⟨junk, hdatagram⟩ := h.toServer_ok p (by simp [hqueue])
  obtain ⟨hrcv, hok⟩ := h.server_ok.receive hpc p.request junk
  rw [← hdatagram] at hrcv hok
  have howed := h.replied
  have happ := h.appliedAll
  simp only [hpc, pendingReplies, unapplied, List.append_nil] at howed happ
  exact { h with
    server_ok := hok
    toServer_ok := fun q hq => h.toServer_ok q (by simp [hqueue, hq])
    sent := by simp [h.sent, hqueue]
    replied := by
      simp only [hrcv, pendingReplies]
      rw [← List.append_assoc, howed, List.flatMap_append, List.flatMap_singleton]
    appliedAll := by
      simp only [hrcv, unapplied]
      rw [happ, List.map_append, List.map_singleton] }

/-- The server sends a reply it owes. -/
theorem Session.Inv.reply {s : Session} (h : s.Inv plat paths) {server : Server} {ptype : Byte}
    (hok : server.Ok plat paths s.handling)
    (howed : pendingReplies s.server.pc s.handling =
      (s.handling.id, [ptype]) :: pendingReplies server.pc s.handling)
    (happ : unapplied s.server.pc s.handling = unapplied server.pc s.handling) :
    Session.Inv plat paths { s with
      server := server
      toClient := s.toClient ++ [⟨s.handling.id, ⟨boundAt paths.kdoF, [ptype]⟩⟩] } :=
  { h with
    server_ok := hok
    toClient_ok := fun p hp => by
      rcases List.mem_append.mp hp with hp | hp
      · exact h.toClient_ok p hp
      · obtain rfl := List.mem_singleton.mp hp
        rfl
    replied := by
      rw [← h.replied, howed, List.map_append, List.append_assoc]
      rfl
    appliedAll := by
      rw [← h.appliedAll, happ] }

/-- The server works on the request it is handling, or goes back to its loop head. -/
theorem Session.Inv.work {s : Session} (h : s.Inv plat paths) {server : Server}
    {fibers : List FiberElement} (hok : server.Ok plat paths s.handling)
    (howed : pendingReplies s.server.pc s.handling = pendingReplies server.pc s.handling)
    (happ : unapplied s.server.pc s.handling = fibers ++ unapplied server.pc s.handling) :
    Session.Inv plat paths { s with server := server, applied := s.applied ++ fibers } :=
  { h with
    server_ok := hok
    replied := by
      rw [← h.replied, howed]
    appliedAll := by
      rw [← h.appliedAll, happ, List.append_assoc] }

/-- What the client makes of the first reply of its queue. -/
theorem Session.Inv.afterRecv {s : Session} (h : s.Inv plat paths)
    (hpc : s.client.pc = .recvfrom) {p : ReplyPacket} {toClient : List ReplyPacket}
    (hqueue : s.toClient = p :: toClient) :
    ∃ c : Client, s.client.afterRecv (s.args plat paths) (some p.datagram) = c ∧
      c.Ok (s.args plat paths) ∧
      if s.consumed.length % 2 = 0 then c.pc = .recvfrom ∧ c.i = s.client.i
      else c.pc = (if s.client.i + 1 < s.fiberArray.length then .sendto else .returned 0) ∧
        c.i = s.client.i + 1 := by
  obtain ⟨r, -, -, hpayload⟩ := h.head_toClient hqueue
  have hkeep (hlt : s.client.i + 1 < s.fiberArray.length) :
      boundAt paths.kdoF <+: (s.client.addr.receive p.datagram.sender).sunPath := by
    have hpath := h.client_ok.of_recvfrom hpc hlt
    rwa [AddrArg.sunPath_receive hpath (.inl (h.toClient_ok p (by simp [hqueue])))]
  have hne : ptypeCmdAck ≠ ptypeRcvAck := by decide
  refine ⟨_, rfl, ?_⟩
  -- of the two replies to a request, the first one keeps the client waiting
  by_cases hmod : s.consumed.length % 2 = 0
  · rw [if_pos hmod] at hpayload ⊢
    rw [Client.afterRecv, dispatch_eq, hpayload, List.headD_cons, if_pos rfl]
    exact ⟨⟨⟨by simp, fun _ => hkeep⟩, ⟨by simp⟩, fun _ => h.client_ok.waits hpc⟩, rfl, rfl⟩
  · rw [if_neg hmod] at hpayload ⊢
    rw [Client.afterRecv, dispatch_eq, hpayload, List.headD_cons, if_neg hne]
    exact ⟨Client.Ok.next hkeep, pc_next _ _, i_next _ _⟩

/-- **Attribution.** The reply the client consumes next was sent for the element it waits for,
as long as no wait timed out, and for an earlier one afterwards. -/
theorem Session.Inv.attribution {s : Session} (h : s.Inv plat paths) (hcounts : s.counts.Inv 2)
    (hpc : s.client.pc = .recvfrom) {p : ReplyPacket} {toClient : List ReplyPacket}
    (hqueue : s.toClient = p :: toClient) :
    (s.timedOut = false → p.sentFor = s.awaited) ∧
      (s.timedOut = true → p.sentFor.Before s.awaited) := by
  obtain ⟨r, hr, hid, -⟩ := h.head_toClient hqueue
  obtain ⟨-, fiber, hlast⟩ := h.waiting hpc
  have hwait : s.counts.waiting = true := decide_eq_true hpc
  -- the reply is for the request at position `consumed / 2`, the client waits for the last one
  have hreq : s.requests[s.consumed.length / 2]? = some r := by
    rw [h.sent, List.getElem?_append_left (List.getElem?_eq_some_iff.mp hr).1, hr]
  rw [List.getLast?_eq_getElem?] at hlast
  refine ⟨fun hno => ?_, fun hlate => ?_⟩
  · have hpos : s.consumed.length / 2 + 1 = s.requests.length := hcounts.waiting_iff hno hwait
    rw [show s.consumed.length / 2 = s.requests.length - 1 by omega, hlast] at hreq
    rw [hid, ← Option.some.inj hreq]
  · have hpos : s.consumed.length / 2 + 1 < s.requests.length := hcounts.late_waiting hlate hwait
    obtain ⟨hlt, hget⟩ := List.getElem?_eq_some_iff.mp hreq
    obtain ⟨hlt', hget'⟩ := List.getElem?_eq_some_iff.mp hlast
    have hbefore := List.pairwise_iff_getElem.mp h.ordered _ _ hlt hlt' (by omega)
    rwa [hget, hget', ← hid] at hbefore

/-- The client consumes a reply. -/
theorem Session.Inv.consume {s : Session} (h : s.Inv plat paths) (hcounts : s.counts.Inv 2)
    (hpc : s.client.pc = .recvfrom) {p : ReplyPacket} {toClient : List ReplyPacket}
    (hqueue : s.toClient = p :: toClient) :
    Session.Inv plat paths { s with
      client := s.client.afterRecv (s.args plat paths) (some p.datagram)
      toClient := toClient
      consumed := s.consumed ++ [⟨s.awaited, p.sentFor, p.datagram.payload, s.timedOut⟩] } := by
  obtain ⟨hcount, fiber, hlast⟩ := h.waiting hpc
  obtain ⟨c, hc, hok, hnext⟩ := h.afterRecv hpc hqueue
  have hwaits := h.client_ok.waits hpc
  rw [hc]
  exact { h with
    client_ok := hok
    toClient_ok := fun q hq => h.toClient_ok q (by simp [hqueue, hq])
    replied := by
      rw [← h.replied, hqueue]
      simp [Consumed.reply, ReplyPacket.reply]
    noCall := fun hzero => by
      obtain ⟨-, ret, hret⟩ := h.noCall hzero
      simp [hret] at hpc
    sending := fun hsend => by
      split_ifs at hnext with hmod hlt <;> obtain ⟨hcpc, hci⟩ := hnext
      · simp [hcpc] at hsend
      · rw [hci, hcount]
      · simp [hcpc] at hsend
    waiting := fun hwait => by
      split_ifs at hnext with hmod hlt <;> obtain ⟨hcpc, hci⟩ := hnext
      · exact ⟨by rw [hci, hcount], fiber, by simpa [Session.awaited, hci] using hlast⟩
      · simp [hcpc] at hwait
      · simp [hcpc] at hwait
    done := fun hdone => by
      split_ifs at hnext with hmod hlt <;> obtain ⟨hcpc, hci⟩ := hnext
      · simp [hcpc] at hdone
      · simp [hcpc] at hdone
      · have hle : s.client.i < s.fiberArray.length := hwaits
        simp only
        omega
    -- the new one is about the element that is awaited, by the counts
    attributed := fun e he => by
      rcases List.mem_append.mp he with he | he
      · exact h.attributed e he
      · obtain rfl := List.mem_singleton.mp he
        exact h.attribution hcounts hpc hqueue }

/-! ### The refinement -/

/-- Every move keeps the invariant. -/
theorem Session.Inv.move {s t : Session} (h : s.Inv plat paths) (hcounts : s.counts.Inv 2)
    (hst : s.Move plat paths t) : t.Inv plat paths := by
  cases hst with
  | call fiberArray junk ptypeRcv ret hpc => exact h.call fiberArray junk ptypeRcv
  | send fiber hpc hfiber => exact h.send hpc hfiber
  | consume p toClient hpc hqueue => exact h.consume hcounts hpc hqueue
  | timeout hpc => exact h.timeout
  | receive p toServer hpc hqueue => exact h.receive hpc hqueue
  | reply server ptype hok howed happ => exact h.reply hok howed happ
  | work server fibers hok howed happ => exact h.work hok howed happ

/-- Every move is an event of the stop-and-wait pattern, or none. -/
theorem Session.Inv.event {s t : Session} (h : s.Inv plat paths) (hst : s.Move plat paths t) :
    t.counts = s.counts ∨ ∃ e, StopAndWait.step 2 s.counts e = some t.counts := by
  have hproduced := h.produced_add
  cases hst with
  | call fiberArray junk ptypeRcv ret hpc =>
    left
    have hstart : (Client.start ⟨plat.abi, junk, fiberArray, paths.kdoF⟩ ptypeRcv).pc =
        if 0 < fiberArray.length then .sendto else .returned 0 := pc_next _ _
    simp only [Session.counts, hstart, hpc]
    split_ifs <;> rfl
  | send fiber hpc hfiber =>
    refine .inr ⟨.send, ?_⟩
    simp [StopAndWait.step, Session.counts, hpc]
  | consume p toClient hpc hqueue =>
    refine .inr ⟨.consume, ?_⟩
    obtain ⟨c, hc, -, hnext⟩ := h.afterRecv hpc hqueue
    -- every second reply ends a wait
    have hwait : (c.pc = .recvfrom) ↔ (s.consumed.length + 1) % 2 ≠ 0 := by
      split_ifs at hnext with hmod hlt
      · exact iff_of_true hnext.1 (by omega)
      · exact iff_of_false (by simp [hnext.1]) (by omega)
      · exact iff_of_false (by simp [hnext.1]) (by omega)
    simp only [StopAndWait.step, Session.counts, hpc, hqueue, hc, List.length_cons,
      List.length_append, List.length_nil, hwait]
    rw [if_pos ⟨rfl, by omega⟩]
    simp only [Option.some.injEq, StopAndWait.Counts.mk.injEq, and_self, true_and, and_true]
    omega
  | timeout hpc =>
    refine .inr ⟨.abort, ?_⟩
    simp [StopAndWait.step, Session.counts, hpc]
  | receive p toServer hpc hqueue =>
    refine .inr ⟨.receive, ?_⟩
    have hlt : s.received.length < s.requests.length := by
      rw [h.sent, hqueue, List.length_append, List.length_map, List.length_cons]
      omega
    -- the server has replied twice to whatever it has received before
    have hall : s.counts.produced = 2 * s.counts.received := by
      simpa [hpc, pendingReplies] using hproduced
    simp only [StopAndWait.step]
    rw [if_pos ⟨hlt, hall⟩]
    simp [Session.counts]
  | reply server ptype hok howed happ =>
    refine .inr ⟨.reply, ?_⟩
    rw [howed, List.length_cons] at hproduced
    simp only [StopAndWait.step]
    rw [if_pos (by omega)]
    simp [Session.counts, Nat.add_assoc]
  -- nothing is sent, so no count changes
  | work server fibers hok howed happ => exact .inl rfl

variable (plat paths) in
/-- **The session refines the stop-and-wait pattern** with two replies to a request. What the
pattern says of numbers is so true of the session, in every state that it can come to. -/
theorem session_refines_stopAndWait :
    (sessionSystem plat paths).Refinement (StopAndWait.system 2) (Session.Inv plat paths)
      Session.counts where
  inv_init := Session.Inv.init
  abs_init := rfl
  inv_step _ _ _ h hreach hst :=
    h.move (StopAndWait.inv_of_reachable (by decide) hreach) (h.step_cases hst)
  abs_step _ _ _ h hst := h.event (h.step_cases hst)

/-- The invariant and the counts of every state of every run. -/
theorem Session.inv_of_reachable {s : Session} (h : (sessionSystem plat paths).Reachable s) :
    s.Inv plat paths ∧ s.counts.Inv 2 := by
  obtain ⟨hinv, hcounts⟩ := (session_refines_stopAndWait plat paths).reachable h
  exact ⟨hinv, StopAndWait.inv_of_reachable (by decide) hcounts⟩

end Libbaalue
