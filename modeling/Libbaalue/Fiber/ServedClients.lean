import Libbaalue.Fiber.Clients
import Mathlib.Data.Fin.Basic
import Mathlib.Data.Fintype.Basic

/-!
# Clients that are served as if alone

A client that has consumed only what the server sent for it, and to which all replies of the
server got through, cannot tell that there is anybody else. `Clients.seen` is what such a client
sees: its own entries, and a server that is at its loop head while it is busy for somebody else.
Every step of the system is then, as the client sees it, a step of a session with one client, the
server turning to somebody else or coming back, a `sendto` of the client that fails, or nothing
(`SeenMove`). Each of these keeps the invariant of the session, so that the session is one of the
stop-and-wait pattern in every reachable state (`clients_views`).

The client is then served as if it were alone (`clients_served`): the replies it hears are replies
to its own requests, and when a call returns 0 and no wait ever timed out, everything it asked for
is applied, whatever the other clients and the strangers do. A client that has been misled has no
such guarantee: a datagram of a stranger may end its wait before its request is applied
(`clients_served_busy` has one of these, too).

Two ideas carry the proof. The server of a view is not the server, but what the client can tell of
it: while it works for somebody else, it is at its loop head as far as this client is concerned. And
a failed `sendto` of the client ends a call without a request having been made, which no step of the
session does; so it is a move of its own, for which the session's invariant is checked once more.
-/

namespace Libbaalue

variable {plat : Platform} {n : ℕ} {paths : ClientsPaths n}

/-! ### What an undisturbed client sees -/

variable (plat) in
/-- What a client sees: what is its own, and a server that is at its loop head while it is busy
for somebody else. -/
def Clients.seen (i : Fin n) (s : Clients n) : Session where
  fiberArray := (s.side i).fiberArray
  junk := (s.side i).junk
  client := (s.side i).client
  server := if s.owner = some i then s.server else s.server.loop plat
  toServer := ownedBy (some i) s.toServer
  toClient := ownedBy (some i) (s.side i).toClient
  calls := (s.side i).calls
  handling := s.handling
  requests := (s.side i).requests
  sentInCall := (s.side i).sentInCall
  received := ownedBy (some i) s.received
  applied := ownedBy (some i) s.applied
  consumed := (s.side i).consumed.map Prod.snd
  timedOut := (s.side i).timedOut

variable (plat) in
/-- What a client sees until it is disturbed: the session of the client and the server, and nothing
of the others. Behind a disturbance there is no view any more. -/
def Clients.view (i : Fin n) (s : Clients n) : Option Session :=
  if (s.side i).disturbed then none else some (s.seen plat i)

private theorem Clients.mem_view_iff {s : Clients n} {i : Fin n} {v : Session} :
    v ∈ s.view plat i ↔ (s.side i).disturbed = false ∧ s.seen plat i = v := by
  rw [Clients.view]
  split_ifs with h
  · simp [h]
  · simp [h]

variable (plat) in
/-- The server turns to somebody else, or comes back from it: between the two it is at the head of
its loop, and this is all a client sees of the rest. -/
def Session.Idle (v w : Session) : Prop :=
  ∃ (x y : Server) (r : Request), v.server = x.loop plat ∧
    w = { v with server := y.loop plat, handling := r }

/-- A `sendto` of the client fails: the call is over, and nothing is under way. -/
def Session.SendFails (v w : Session) : Prop :=
  v.client.pc = .sendto ∧ w = { v with client := { v.client with pc := .returned (-1) } }

/-- Nothing of what the invariant says depends on what the server keeps at its loop head. -/
private theorem Session.Inv.idle {pair : Paths} {v w : Session} (h : v.Inv plat pair)
    (hidle : v.Idle plat w) : w.Inv plat pair ∧ w.counts = v.counts := by
  obtain ⟨x, y, r, hserver, rfl⟩ := hidle
  have hreplied := h.replied
  have happlied := h.appliedAll
  rw [hserver] at hreplied happlied
  exact ⟨{ h with
    server_ok := .loop r y
    replied := hreplied
    appliedAll := happlied }, rfl⟩

/-- A client that cannot send gives up as one that waits in vain does, but leaves nothing behind
that is still to come. -/
private theorem Session.Inv.sendFails {pair : Paths} {v w : Session} (h : v.Inv plat pair)
    (hfails : v.SendFails w) : w.Inv plat pair ∧ w.counts = v.counts := by
  obtain ⟨hpc, rfl⟩ := hfails
  exact ⟨{ h with
    client_ok := ⟨⟨by simp, by simp⟩, ⟨by simp⟩, by simp⟩
    noCall := fun hzero => ⟨(h.noCall hzero).1, _, rfl⟩
    sending := by simp
    waiting := by simp
    done := by simp }, by simp [Session.counts, hpc]⟩

/-- The elements sent in the last call of a client are its last requests. -/
def Session.LastCall (v : Session) : Prop :=
  v.fiberArray.take v.sentInCall <:+ v.requests.map Request.fiber

/-- Every move of a session keeps it. -/
private theorem Session.LastCall.move {pair : Paths} {v w : Session} (h : v.LastCall)
    (hinv : v.Inv plat pair) (hmove : v.Move plat pair w) : w.LastCall := by
  cases hmove with
  | call fiberArray junk ptypeRcv ret hpc => simp [LastCall]
  | send fiber hpc hfiber =>
    obtain ⟨earlier, hearlier⟩ := h
    rw [hinv.sending hpc] at hearlier
    refine ⟨earlier, ?_⟩
    simp only [hinv.sending hpc, List.take_add_one, hfiber, Option.toList_some, List.map_append,
      List.map_cons, List.map_nil, ← hearlier, List.append_assoc]
  | consume | timeout | receive | reply | work => exact h

variable (plat paths) in
/-- What holds of a session that a client sees: the invariant of a session of two, its counts, and
where the requests of the last call are. -/
structure SeenOk (i : Fin n) (v : Session) : Prop where
  inv : v.Inv plat (paths.pair i)
  counts : v.counts.Inv 2
  lastCall : v.LastCall

variable (plat paths) in
/-- What a client sees happen: nothing, a move of the session, the server turning to somebody else
or back, or a send of its own that fails. -/
inductive SeenMove (i : Fin n) (v : Session) : Session → Prop
  | same : SeenMove i v v
  | move {w : Session} (h : v.Move plat (paths.pair i) w) : SeenMove i v w
  | idle {w : Session} (h : v.Idle plat w) : SeenMove i v w
  | sendFails {w : Session} (h : v.SendFails w) : SeenMove i v w

/-- What a client sees happen keeps what holds of its session. -/
theorem SeenOk.move {i : Fin n} {v w : Session} (h : SeenOk plat paths i v)
    (hmove : SeenMove plat paths i v w) : SeenOk plat paths i w := by
  cases hmove with
  | same => exact h
  | move hmove =>
    refine ⟨h.inv.move h.counts hmove, ?_, h.lastCall.move h.inv hmove⟩
    rcases h.inv.event hmove with heq | ⟨e, he⟩
    · exact heq ▸ h.counts
    · exact h.counts.step (by decide) he
  | idle hidle =>
    obtain ⟨hinv, hcounts⟩ := h.inv.idle hidle
    refine ⟨hinv, hcounts ▸ h.counts, ?_⟩
    obtain ⟨x, y, r, -, rfl⟩ := hidle
    exact h.lastCall
  | sendFails hfails =>
    obtain ⟨hinv, hcounts⟩ := h.inv.sendFails hfails
    refine ⟨hinv, hcounts ▸ h.counts, ?_⟩
    obtain ⟨-, rfl⟩ := hfails
    exact h.lastCall

/-- The server at its loop head, twice. -/
private theorem Server.loop_loop (s : Server) : (s.loop plat).loop plat = s.loop plat := rfl

namespace Clients

variable {s t : Clients n}

variable (plat) in
/-- What happens to one client does not show in what another sees. -/
private theorem seen_setSide_of_ne (s : Clients n) {i j : Fin n} (h : j ≠ i) (c : ClientSide n) :
    (s.setSide i c).seen plat j = s.seen plat j := by
  simp only [seen, side_setSide_of_ne s h]
  rfl

/-- What a client sees of itself. -/
private theorem seen_setSide_self (s : Clients n) (i : Fin n) (c : ClientSide n) :
    (s.setSide i c).seen plat i = { s.seen plat i with
      fiberArray := c.fiberArray, junk := c.junk, client := c.client
      toClient := ownedBy (some i) c.toClient, calls := c.calls, requests := c.requests
      sentInCall := c.sentInCall, consumed := c.consumed.map Prod.snd
      timedOut := c.timedOut } := by
  simp only [seen, side_setSide_self]
  rfl

/-- What another client sees of a send: nothing. -/
private theorem seen_clientSend_of_ne (s : Clients n) {i j : Fin n} (h : j ≠ i)
    (payload : List Byte) (addr : AddrArg) (fiber : FiberElement) (sent : ℤ) :
    (s.clientSend plat paths i payload addr fiber sent).seen plat j = s.seen plat j := by
  have hother : some i ≠ some j := fun heq => h (Option.some.inj heq).symm
  rw [clientSend]
  split_ifs
  · rw [seen_setSide_of_ne plat _ h]
    simp only [seen, ownedBy_concat_of_ne hother]
  · exact seen_setSide_of_ne plat s h _

private theorem side_clientSend_of_ne (s : Clients n) {i j : Fin n} (h : j ≠ i)
    (payload : List Byte) (addr : AddrArg) (fiber : FiberElement) (sent : ℤ) :
    (s.clientSend plat paths i payload addr fiber sent).side j = s.side j := by
  rw [clientSend]
  split_ifs
  · exact side_setSide_of_ne _ h _
  · exact side_setSide_of_ne _ h _

/-- A `sendto` of an undisturbed client: a request, or the end of the call. -/
private theorem seen_clientSend {i : Fin n} {fiber : FiberElement}
    (hok : SeenOk plat paths i (s.seen plat i)) (hpc : (s.side i).client.pc = .sendto)
    (hfiber : (s.side i).fiberArray[(s.side i).client.i]? = some fiber)
    (hpacked : (s.side i).client.numPacked.toInt = 17) (sent : ℤ) :
    SeenMove plat paths i (s.seen plat i) ((s.clientSend plat paths i
      (schedPropsMsg plat.abi ((s.side i).junk (s.side i).client.i) fiber)
      (s.side i).client.addr fiber sent).seen plat i) := by
  obtain ⟨hpath, hlen⟩ := hok.inv.client_ok.of_sendto hpc
  have hfits : paths.kdoF.length < (s.seen plat i).client.addr.len - sunPathOffset := by
    rw [hlen, sizeofSockaddrUn, Nat.add_sub_cancel_left]
    exact paths.kdoF_fits
  have hpath : (s.side i).client.addr.path = paths.kdoF :=
    AddrArg.path_eq_of_prefix paths.nul_notMem_kdoF hpath hfits
  have hlength : ((schedPropsMsg plat.abi ((s.side i).junk (s.side i).client.i) fiber).length : ℤ) =
      17 := by rw [length_schedPropsMsg]; rfl
  rw [clientSend]
  split_ifs with hsent
  · have hclient : ((s.side i).afterSendto plat paths
        (schedPropsMsg plat.abi ((s.side i).junk (s.side i).client.i) fiber) sent).client =
          { (s.side i).client with pc := .recvfrom } := by
      simp [ClientSide.afterSendto, baaSetSchedulePropsViaServer, hpc, Client.afterSend, hsent.1,
        hpacked]
    refine .move ?_
    rw [seen_setSide_self]
    simp only [ClientSide.requested, hclient, seen, ownedBy_concat_self]
    exact .send fiber hpc hfiber
  · have hfailed : sent ≠ 17 := fun heq => hsent ⟨heq.trans hlength.symm, by
      rw [hpath]; exact paths.reaches_kdoF i⟩
    refine .sendFails ⟨hpc, ?_⟩
    rw [seen_setSide_self]
    simp only [ClientSide.afterSendto, baaSetSchedulePropsViaServer, hpc, Client.afterSend,
      hpacked, if_pos hfailed]
    rfl

/-- An undisturbed client receives a reply to a request of its own. -/
private theorem seen_consume {i : Fin n} (hpc : (s.side i).client.pc = .recvfrom)
    {p : Option (Fin n) × ReplyPacket} {toClient : List (Option (Fin n) × ReplyPacket)}
    (hqueue : (s.side i).toClient = p :: toClient) (hown : p.1 = some i) :
    SeenMove plat paths i (s.seen plat i)
      ((s.setSide i ((s.side i).consume plat paths i p toClient)).seen plat i) := by
  have hseen : (s.seen plat i).toClient = p.2 :: ownedBy (some i) toClient := by
    rw [seen, hqueue, ownedBy_cons, if_pos hown]
  refine .move ?_
  rw [seen_setSide_self]
  simp only [ClientSide.consume, baaSetSchedulePropsViaServer, hpc, List.map_append]
  exact .consume p.2 _ hpc hseen

/-- The server receives: a request for its owner, a turn to somebody else for the others. -/
private theorem Inv.seen_receive (h : s.Inv plat paths) (hpc : s.server.pc = .recvfrom)
    {p : Option (Fin n) × RequestPacket} {toServer : List (Option (Fin n) × RequestPacket)}
    (hqueue : s.toServer = p :: toServer) (j : Fin n) :
    SeenMove plat paths j (s.seen plat j) (Clients.seen plat j { s with
      server := s.server.afterRecv plat (some p.2.datagram), toServer := toServer, owner := p.1
      handling := p.2.request, received := s.received ++ [(p.1, p.2.request)] }) := by
  obtain ⟨x, hx⟩ := h.atLoop hpc
  have hserver : (s.seen plat j).server = s.server := by
    simp only [seen, hx, Server.loop_loop, ite_self]
  by_cases hown : p.1 = some j
  · have hqueue' : (s.seen plat j).toServer = p.2 :: ownedBy (some j) toServer := by
      rw [seen, hqueue, ownedBy_cons, if_pos hown]
    have hmove : (s.seen plat j).Move plat (paths.pair j) _ :=
      .receive p.2 _ (hserver ▸ hpc) hqueue'
    rw [hserver] at hmove
    simp only [seen, hown, ownedBy_concat_self, if_true]
    exact .move hmove
  · refine .idle ⟨x, s.server.afterRecv plat (some p.2.datagram), p.2.request,
      hserver.trans hx, ?_⟩
    simp only [seen, if_neg hown, hqueue, ownedBy_cons, ownedBy_concat_of_ne hown]

/-- The server goes on, and sends nothing: a move for its owner, nothing for the others. -/
private theorem seen_work {j : Fin n} (hok : SeenOk plat paths j (s.seen plat j))
    (outcome : SchedOutcome) {fibers : List FiberElement}
    (hstep : s.server.pc = .setScheduleProps ∧ fibers = [s.server.fiber plat] ∨
      s.server.pc = .printSchedInfos ∧ fibers = []) :
    SeenMove plat paths j (s.seen plat j) (Clients.seen plat j { s with
      server := (baaScheduleServerTh plat).resume s.server ⟨none, 0, outcome⟩
      applied := s.applied ++ fibers.map fun fiber => (s.owner, fiber) }) := by
  by_cases hown : s.owner = some j
  · have hserver : (s.seen plat j).server = s.server := if_pos hown
    have hfibers : ownedBy (some j) (fibers.map fun fiber => (s.owner, fiber)) = fibers := by
      rw [hown]
      simp [ownedBy]
    refine .move (hok.inv.step_cases (a := .serverStep outcome) ?_)
    rcases hstep with ⟨hcall, rfl⟩ | ⟨hcall, rfl⟩
    · simp only [Session.step, hserver, baaScheduleServerTh, hcall, Option.some.injEq]
      simp only [seen, hown, ownedBy_append, if_true, List.map_cons, List.map_nil,
        ownedBy_singleton]
    · simp only [Session.step, hserver, baaScheduleServerTh, hcall, Option.some.injEq]
      simp only [seen, hown, if_true, List.map_nil, List.append_nil]
  · have hfibers : ownedBy (some j) (fibers.map fun fiber => (s.owner, fiber)) = [] :=
      ownedBy_eq_nil (by simpa using fun _ _ => hown)
    refine .idle ⟨s.server, (baaScheduleServerTh plat).resume s.server ⟨none, 0, outcome⟩,
      s.handling, if_neg hown, ?_⟩
    simp only [seen, if_neg hown, ownedBy_append, hfibers, List.append_nil]

/-- A reply that gets through is one for its owner. -/
private theorem Inv.seen_serverSend (h : s.Inv plat paths) (hpc : s.server.pc ≠ .recvfrom)
    {j : Fin n} (hok : SeenOk plat paths j (s.seen plat j)) {ptype : Byte} {sent : ℤ}
    (hcall : (baaScheduleServerTh plat).call s.server = .sendto ptype s.server.addr)
    (hquiet : ((s.serverSend plat paths ptype s.server.addr sent).side j).refused = false) :
    SeenMove plat paths j (s.seen plat j)
      ((s.serverSend plat paths ptype s.server.addr sent).seen plat j) := by
  by_cases hown : s.owner = some j
  · have hserver : (s.seen plat j).server = s.server := if_pos hown
    have hpath : s.server.addr.path = paths.retF j := (h.busy j hown hpc).1
    have hleads : paths.leadsTo s.server.addr.path = some j := hpath ▸ paths.leadsTo_retF j
    simp only [Clients.serverSend, hleads, hown, side_setSide_self, ClientSide.offered] at hquiet ⊢
    split_ifs at hquiet with hsent
    · refine .move (hok.inv.step_cases (a := .serverStep ⟨.ok, .ok⟩) ?_)
      simp only [Session.step, hserver, hcall, Session.serverSend, Option.some.injEq]
      rw [if_pos hsent, seen_setSide_self]
      simp only [seen, hown, ownedBy_concat_self, if_true, hsent]
      exact if_pos hpath
    · simp at hquiet
  · -- the answer to somebody else may lead here, but it is not the client's
    refine .idle ⟨s.server, (baaScheduleServerTh plat).resume s.server ⟨none, sent, ⟨.ok, .ok⟩⟩,
      s.handling, if_neg hown, ?_⟩
    rcases hleads : paths.leadsTo s.server.addr.path with _ | i <;>
      simp only [Clients.serverSend, hleads]
    · simp only [seen, if_neg hown]
    · rcases eq_or_ne j i with rfl | hne
      · rw [seen_setSide_self, ClientSide.offered]
        split_ifs
        · simp only [seen, if_neg hown, ownedBy_concat_of_ne hown]
        · simp only [seen, if_neg hown]
      · rw [seen_setSide_of_ne plat _ hne]
        simp only [seen, if_neg hown]

/-- A send of the server disturbs; it does not mend. -/
private theorem disturbed_of_serverSend {ptype : Byte} {addr : AddrArg} {sent : ℤ} {j : Fin n}
    (h : ((s.serverSend plat paths ptype addr sent).side j).disturbed = false) :
    (s.side j).disturbed = false := by
  rw [serverSend] at h
  split at h
  · rename_i i _
    rcases eq_or_ne j i with rfl | hne
    · rw [side_setSide_self, ClientSide.offered] at h
      split_ifs at h
      · exact h
      · obtain ⟨hmisled, hrefused⟩ := Bool.or_eq_false_iff.mp h
        exact Bool.or_eq_false_iff.mpr ⟨hmisled, (Bool.or_eq_false_iff.mp hrefused).1⟩
    · rwa [side_setSide_of_ne _ hne] at h
  · exact h

/-- **Every step, as a client sees it** that is undisturbed behind it. -/
theorem Inv.seen_step (h : s.Inv plat paths) {a : ClientsLabel n}
    (hst : s.step plat paths a = some t) {j : Fin n} (hquiet : (t.side j).disturbed = false)
    (hviews : ∀ v ∈ s.view plat j, SeenOk plat paths j v) :
    (s.side j).disturbed = false ∧ SeenMove plat paths j (s.seen plat j) (t.seen plat j) := by
  -- what a client does is seen by this client only
  have hclient {i : Fin n} {c : ClientSide n} (ht : t = s.setSide i c)
      (hdisturbed : c.disturbed = false → (s.side i).disturbed = false)
      (hself : j = i → (t.side j).disturbed = false →
        SeenMove plat paths i (s.seen plat i) (t.seen plat i)) :
      (s.side j).disturbed = false ∧ SeenMove plat paths j (s.seen plat j) (t.seen plat j) := by
    rcases eq_or_ne j i with rfl | hne
    · refine ⟨hdisturbed ?_, hself rfl hquiet⟩
      rwa [ht, side_setSide_self] at hquiet
    · rw [ht, side_setSide_of_ne s hne] at hquiet
      rw [ht, seen_setSide_of_ne plat s hne]
      exact ⟨hquiet, .same⟩
  cases a with
  | call i fiberArray junk ptypeRcv =>
    rcases hpc : (s.side i).client.pc with _ | _ | ret
    case sendto | recvfrom => simp [Clients.step, hpc] at hst
    simp only [Clients.step, hpc, Option.some.injEq] at hst
    refine hclient hst.symm id fun _ _ => ?_
    rw [← hst, seen_setSide_self]
    exact .move (.call fiberArray junk ptypeRcv ret hpc)
  | clientSend i sent =>
    rcases hpc : (s.side i).client.pc with _ | _ | ret
    case recvfrom | returned => simp [Clients.step, baaSetSchedulePropsViaServer, hpc] at hst
    obtain ⟨fiber, hfiber, hpacked, hcall⟩ := (h.side i).payload hpc
    simp only [Clients.step, hcall, hfiber, Option.some.injEq] at hst
    subst hst
    rcases eq_or_ne j i with rfl | hne
    · have hbefore : (s.side j).disturbed = false := by
        rw [Clients.clientSend] at hquiet
        split_ifs at hquiet
        · rwa [side_setSide_self] at hquiet
        · rwa [side_setSide_self] at hquiet
      exact ⟨hbefore, seen_clientSend (hviews _ (mem_view_iff.mpr ⟨hbefore, rfl⟩)) hpc hfiber
        hpacked sent⟩
    · rw [side_clientSend_of_ne s hne] at hquiet
      rw [seen_clientSend_of_ne s hne]
      exact ⟨hquiet, .same⟩
  | clientRecv i =>
    rcases hpc : (s.side i).client.pc with _ | _ | ret
    case sendto | returned => simp [Clients.step, baaSetSchedulePropsViaServer, hpc] at hst
    rcases hqueue : (s.side i).toClient with _ | ⟨p, toClient⟩
    · simp [Clients.step, baaSetSchedulePropsViaServer, hpc, hqueue] at hst
    simp only [Clients.step, baaSetSchedulePropsViaServer, hpc, hqueue, Option.some.injEq] at hst
    refine hclient hst.symm (fun hc => ?_) fun heq hquiet => ?_
    · obtain ⟨hmisled, hrefused⟩ := Bool.or_eq_false_iff.mp hc
      exact Bool.or_eq_false_iff.mpr ⟨(Bool.or_eq_false_iff.mp hmisled).1, hrefused⟩
    · subst heq
      rw [← hst, side_setSide_self] at hquiet
      obtain ⟨hmisled, -⟩ := Bool.or_eq_false_iff.mp hquiet
      have hown := not_not.mp (of_decide_eq_false (Bool.or_eq_false_iff.mp hmisled).2)
      rw [← hst]
      exact seen_consume hpc hqueue hown
  | clientTimeout i =>
    rcases hpc : (s.side i).client.pc with _ | _ | ret
    case sendto | returned => simp [Clients.step, baaSetSchedulePropsViaServer, hpc] at hst
    simp only [Clients.step, baaSetSchedulePropsViaServer, hpc, Option.some.injEq] at hst
    refine hclient hst.symm id fun _ _ => ?_
    rw [← hst, seen_setSide_self]
    simp only [ClientSide.giveUp, baaSetSchedulePropsViaServer, hpc]
    exact .move (.timeout hpc)
  | stranger d =>
    obtain rfl := Option.some.inj hst
    refine ⟨hquiet, ?_⟩
    simp only [seen, ownedBy_concat_of_ne (Option.some_ne_none j).symm]
    exact .same
  | strangerTo i d =>
    have hst := (Option.some.inj hst).symm
    refine hclient hst id fun _ _ => ?_
    rw [hst, seen_setSide_self]
    simp only [ownedBy_concat_of_ne (Option.some_ne_none i).symm]
    exact .same
  | serverRecv =>
    have hpc : s.server.pc = .recvfrom := by
      rcases hpc : s.server.pc <;> simp_all [Clients.step, baaScheduleServerTh]
    rcases hqueue : s.toServer with _ | ⟨p, toServer⟩
    · simp [Clients.step, baaScheduleServerTh, hpc, hqueue] at hst
    simp only [Clients.step, baaScheduleServerTh, hpc, hqueue, Option.some.injEq] at hst
    subst hst
    exact ⟨hquiet, h.seen_receive hpc hqueue j⟩
  | serverTimeout =>
    have hpc : s.server.pc = .recvfrom := by
      rcases hpc : s.server.pc <;> simp_all [Clients.step, baaScheduleServerTh]
    obtain ⟨x, hx⟩ := h.atLoop hpc
    simp only [Clients.step, baaScheduleServerTh, hpc, Option.some.injEq] at hst
    subst hst
    refine ⟨hquiet, .idle ⟨x, s.server, s.handling, ?_, ?_⟩⟩
    · simp only [seen, hx, Server.loop_loop, ite_self]
    · simp only [seen, Server.afterRecv, Server.loop_loop, ite_self]
  | serverStep outcome sent =>
    have hpc : s.server.pc ≠ .recvfrom := fun hpc => by
      simp [Clients.step, baaScheduleServerTh, hpc] at hst
    rcases call_of_pc_ne plat s.server hpc with
      ⟨hne, ptype, hcall⟩ | ⟨heq, hcall⟩ | ⟨heq, hcall⟩ <;>
      simp only [Clients.step, hcall, Option.some.injEq] at hst <;> subst hst
    · have hbefore := disturbed_of_serverSend hquiet
      exact ⟨hbefore, h.seen_serverSend hpc (hviews _ (mem_view_iff.mpr ⟨hbefore, rfl⟩)) hcall
        (Bool.or_eq_false_iff.mp hquiet).2⟩
    · exact ⟨hquiet, seen_work (hviews _ (mem_view_iff.mpr ⟨hquiet, rfl⟩)) outcome
        (.inl ⟨heq, rfl⟩)⟩
    · have hwork := seen_work (hviews _ (mem_view_iff.mpr ⟨hquiet, rfl⟩)) outcome
        (.inr ⟨heq, rfl⟩)
      rw [List.map_nil, List.append_nil] at hwork
      exact ⟨hquiet, hwork⟩

end Clients

variable (plat paths) in
/-- **The views of the clients**: until it is disturbed, a client sees a session of its own. -/
theorem clients_views :
    LabelledSystem.Views (clientsSystem plat paths) (Clients.view plat) (Clients.Inv plat paths)
      (fun i o => ∀ v ∈ o, SeenOk plat paths i v)
      (fun i o o' => ∀ w ∈ o', ∃ v ∈ o, SeenMove plat paths i v w) where
  inv_init := Clients.Inv.init
  view_init i v hv := by
    obtain ⟨-, rfl⟩ := Clients.mem_view_iff.mp hv
    exact ⟨.init, (StopAndWait.inv_of_reachable (by decide) .init : _), List.nil_suffix⟩
  inv_step _ _ _ h _ hst := h.step hst
  view_step _ _ _ h hviews hst i := .inr fun w hw => by
    obtain ⟨hquiet, rfl⟩ := Clients.mem_view_iff.mp hw
    obtain ⟨hbefore, hmove⟩ := h.seen_step hst hquiet (hviews i)
    exact ⟨_, Clients.mem_view_iff.mpr ⟨hbefore, rfl⟩, hmove⟩
  keeps _ _ _ h hmove w hw := by
    obtain ⟨v, hv, hmove⟩ := hmove w hw
    exact (h v hv).move hmove

/-- What holds of a reachable state, and of what its undisturbed clients see. -/
theorem Clients.inv_of_reachable {s : Clients n} (h : (clientsSystem plat paths).Reachable s) :
    s.Inv plat paths ∧ ∀ i, (s.side i).disturbed = false →
      SeenOk plat paths i (s.seen plat i) := by
  obtain ⟨hinv, hviews⟩ := (clients_views plat paths).reachable h
  exact ⟨hinv, fun i hquiet => hviews i _ (mem_view_iff.mpr ⟨hquiet, rfl⟩)⟩

/-! ### Served as if alone -/

/-- What a client can rely on. The first two clauses need nothing, the others are about a client
that has neither consumed what was not for it nor had a reply refused. -/
structure Clients.Served (s : Clients n) (i : Fin n) : Prop where
  /-- The server applies for the client what it requested, in order, each once. -/
  inOrder : ownedBy (some i) s.applied <+: (s.side i).requests.map Request.fiber
  /-- A call that has returned something else than 0 has had a wait or a send that failed. -/
  returned : ∀ ret, (s.side i).client.pc = .returned ret → ret ≠ 0 →
    (s.side i).timedOut ∨ (s.side i).sendFailed
  /-- The datagrams an undisturbed client has consumed are replies to requests of its own: to the
  one it waited for before any of its waits timed out, to an earlier one afterwards. -/
  ownReplies : (s.side i).disturbed = false → ∀ c ∈ (s.side i).consumed, c.1 = some i ∧
    (c.2.afterTimeout = false → c.2.sentFor = c.2.waitingFor) ∧
    (c.2.afterTimeout = true → c.2.sentFor.Before c.2.waitingFor)
  /-- When a call of an undisturbed client has returned 0, and no wait of the client ever timed
  out, all its requests are applied, the last ones are the elements of the call, and nothing of the
  client is under way. -/
  complete : (s.side i).disturbed = false → (s.side i).timedOut = false →
    (s.side i).client.pc = .returned 0 →
      ownedBy (some i) s.applied = (s.side i).requests.map Request.fiber ∧
      (s.side i).fiberArray <:+ ownedBy (some i) s.applied ∧
      ownedBy (some i) (s.side i).toClient = [] ∧ ownedBy (some i) s.toServer = []

/-- A session that is over, in which no wait timed out. -/
theorem SeenOk.complete {i : Fin n} {v : Session} (h : SeenOk plat paths i v)
    (hno : v.timedOut = false) (hret : v.client.pc = .returned 0) :
    v.applied = v.requests.map Request.fiber ∧ v.fiberArray <:+ v.applied ∧
      v.toClient = [] ∧ v.toServer = [] := by
  obtain ⟨-, -, hidle⟩ := h.counts.inFlight (by decide) hno
  obtain ⟨hrec, hcons⟩ := hidle (by simp [Session.counts, hret])
  have hidle' := h.counts.idle hno (by simp [Session.counts, hret])
  have hsent := h.inv.length_requests
  have hproduced := h.inv.produced_add
  simp only [Session.counts] at hrec hcons hidle' hproduced
  -- every request is received and answered, so none is left to apply
  have howed : pendingReplies v.server.pc v.handling = [] :=
    List.eq_nil_of_length_eq_zero (by omega)
  have hserver : v.toServer = [] := List.eq_nil_of_length_eq_zero (by omega)
  have happlied := h.inv.appliedAll
  rw [(pc_of_pendingReplies_eq_nil h.inv.server_ok howed).2, List.append_nil] at happlied
  have hrequests : v.requests = v.received := by
    rw [h.inv.sent, hserver, List.map_nil, List.append_nil]
  refine ⟨by rw [happlied, hrequests], ?_, List.eq_nil_of_length_eq_zero (by omega), hserver⟩
  have hlast := h.lastCall
  rwa [Session.LastCall, h.inv.done hret, List.take_length, hrequests, ← happlied] at hlast

/-- **Served as if alone.** In every state of every interleaving of a server, any number of clients
and strangers that send what they like to whom they like, each client is served in order and
exactly once. A client that has consumed only what the server sent for it, and to which the
server's replies got through, hears its own replies only, and has had everything applied when a
call of it returns 0 and no wait of its own timed out. -/
theorem clients_served (plat : Platform) (paths : ClientsPaths n) {s : Clients n}
    (h : (clientsSystem plat paths).Reachable s) (i : Fin n) : s.Served i := by
  obtain ⟨hinv, hseen⟩ := Clients.inv_of_reachable h
  refine ⟨hinv.applied_prefix i, fun ret hret hne => ?_, fun hquiet c hc => ⟨?_, ?_⟩,
    fun hquiet hno hret => (hseen i hquiet).complete hno hret⟩
  · exact ((hinv.side i).returned ret hret).resolve_left hne
  · exact (hinv.side i).own_consumed (Bool.or_eq_false_iff.mp hquiet).1 c hc
  · exact (hseen i hquiet).inv.attributed c.2 (List.mem_map_of_mem hc)

/-- A server at `"/k"` with clients at `"/a"`, `"/b"` and `"/c"`. -/
def threeClients : ClientsPaths 3 where
  kdoF := [47, 107]
  retF i := [47, 97 + BitVec.ofNat 8 i]
  kdoF_fits := by decide
  retF_fits := by decide
  nul_notMem_kdoF := by decide
  nul_notMem_retF := by decide
  leadsTo := memberAt fun i => [47, 97 + BitVec.ofNat 8 i]
  reaches _ path := path = [47, 107]
  leadsTo_retF := by decide
  reaches_kdoF := by decide

/-- A stranger at `"/e"` asks first, and clients `i`, `j` and `k` call while the server is busy for
it. Client `j` gives up, and client `k` takes a datagram of the stranger for its reply. -/
def busyServer (i j k : Fin n) : List (ClientsLabel n) :=
  let turn : List (ClientsLabel n) := .serverRecv :: List.replicate 4 (.serverStep ⟨.ok, .ok⟩ 1)
  [.stranger ⟨boundAt [47, 101], [ptypeSchedProps]⟩, .serverRecv,
      .call j [⟨102, 1, 0, 50⟩] (fun _ _ => 0) 0, .clientSend j 17, .clientTimeout j,
      .call k [⟨103, 1, 0, 50⟩] (fun _ _ => 0) 0, .clientSend k 17,
      .strangerTo k ⟨boundAt [47, 101], [ptypeCmdAck]⟩, .clientRecv k,
      .call i [⟨101, 1, 0, 50⟩] (fun _ _ => 0) 0, .clientSend i 17] ++
    List.replicate 4 (.serverStep ⟨.ok, .ok⟩ 1) ++ turn ++ turn ++ turn ++
    [.clientRecv i, .clientRecv i]

/-- The first client has what it asked for. -/
theorem clients_served_busy :
    ∃ s, (clientsSystem .linux64 threeClients).exec (.init .linux64) (busyServer 0 1 2) = some s ∧
      (s.side 0).client.pc = .returned 0 ∧ (s.side 0).disturbed = false ∧
      (s.side 1).timedOut = true ∧ (s.side 2).misled = true ∧
      s.applied.map Prod.fst = [none, some 1, some 2, some 0] ∧ s.Served 0 := by
  have hrun : ((clientsSystem .linux64 threeClients).exec (.init .linux64)
      (busyServer 0 1 2)).map (fun s => ((s.side 0).client.pc, (s.side 0).disturbed,
        (s.side 1).timedOut, (s.side 2).misled, s.applied.map Prod.fst)) =
        some (.returned 0, false, true, true, [none, some 1, some 2, some 0]) := by
    set_option synthInstance.maxSize 400 in
    decide +kernel
  obtain ⟨s, hs, hfacts⟩ := Option.map_eq_some_iff.mp hrun
  obtain ⟨hpc, hquiet, htimedOut, hmisled, happlied⟩ : _ ∧ _ ∧ _ ∧ _ ∧ _ := by
    simpa only [Prod.mk.injEq] using hfacts
  exact ⟨s, hs, hpc, hquiet, htimedOut, hmisled, happlied,
    clients_served _ _ (LabelledSystem.reachable_of_exec hs) 0⟩

end Libbaalue
