import Libbaalue.Fiber.SessionInvariant

/-!
# What client and server agree on

For one call without a timeout: the server applies the elements of the client in array order,
each once, and when the call returns 0 it has applied all of them and nothing is left in either
queue (`session_agreement`). For any number of calls: a reply is credited to the element it was
sent for until a wait of the client times out, and from then on always to a later one
(`replies_credited`).

Both results are read off the joint invariant. The first needs that no wait times out, and is false
without it: a call that gives up leaves a reply behind that the next call takes for its own
(`not_credited_lateAnswer`). The second is what remains true then, and it is exact about the
direction of the error: a reply may be credited too late, and never too early.
-/

namespace Libbaalue

variable {plat : Platform} {paths : Paths}

/-! ### One call without a timeout -/

/-- The steps of a single call none of whose waits times out. Everything else may happen: any array,
failing scheduling calls, and any order of the steps of the two parties. -/
def SingleCall (s : Session) : SessionLabel → Prop
  | .call .. => s.calls = 0
  | .clientTimeout => False
  | _ => True

instance (s : Session) : DecidablePred (SingleCall s)
  | .call .. => inferInstanceAs (Decidable (s.calls = 0))
  | .clientTimeout => inferInstanceAs (Decidable False)
  | .clientSend | .clientRecv | .serverRecv | .serverTimeout | .serverStep _ =>
    inferInstanceAs (Decidable True)

/-- The requests under way: in the queue of the server, or with a reply in the client's. -/
def Session.inFlight (s : Session) : List RequestId :=
  s.toServer.map (fun p => p.request.id) ++ s.toClient.map ReplyPacket.sentFor

/-- Agreement of the two parties on the elements of one call. -/
structure Session.Agreement (s : Session) : Prop where
  /-- The server applies the elements in array order, each once. -/
  inOrder : s.applied = s.fiberArray.take s.applied.length
  /-- It applies only what the client has sent. -/
  onlySent : s.applied <+: s.requests.map Request.fiber
  /-- One request at most is under way: the last one sent. -/
  oneRequest : ∀ id ∈ s.inFlight, ∃ r, s.requests.getLast? = some r ∧ r.id = id
  /-- A queued request is alone: no reply is queued, none is owed. -/
  alone : s.toServer = [] ∨ s.toServer.length = 1 ∧ s.toClient = [] ∧
    s.server.pc ∈ [ServerPc.recvfrom, ServerPc.printSchedInfos]
  /-- A call that returned 0 has had everything applied, and left nothing unread. -/
  complete : s.client.pc = .returned 0 →
    s.applied = s.fiberArray ∧ s.toServer = [] ∧ s.toClient = []

/-- In a single call without a timeout no wait times out. -/
private theorem singleCall_invariant {s : Session}
    (h : ((sessionSystem plat paths).restrict SingleCall).Reachable s) :
    s.calls ≤ 1 ∧ s.timedOut = false := by
  refine h.invariant (P := fun s => s.calls ≤ 1 ∧ s.timedOut = false)
    ⟨Nat.zero_le _, rfl⟩ fun s a t _ ⟨hcalls, hno⟩ hst => ?_
  obtain ⟨hallowed, hst⟩ := LabelledSystem.restrict_step_iff.mp hst
  have hst : s.step plat paths a = some t := hst
  cases a with
  | call fiberArray junk ptypeRcv =>
    have hzero : s.calls = 0 := hallowed
    simp only [Session.step] at hst
    split at hst
    · obtain rfl := Option.some.inj hst
      exact ⟨by simp [hzero], hno⟩
    · simp at hst
  | clientTimeout => exact hallowed.elim
  | clientSend =>
    simp only [Session.step] at hst
    split at hst
    · obtain rfl := Option.some.inj hst
      unfold Session.clientSend
      split_ifs <;> exact ⟨hcalls, hno⟩
    · simp at hst
  | clientRecv | serverRecv | serverTimeout =>
    simp only [Session.step] at hst
    split at hst
    · obtain rfl := Option.some.inj hst
      exact ⟨hcalls, hno⟩
    · simp at hst
  | serverStep outcome =>
    simp only [Session.step] at hst
    split at hst
    · simp at hst
    · obtain rfl := Option.some.inj hst
      unfold Session.serverSend
      split_ifs <;> exact ⟨hcalls, hno⟩
    all_goals
      obtain rfl := Option.some.inj hst
      exact ⟨hcalls, hno⟩

/-- A server that owes no reply has nothing left to apply. -/
theorem pc_of_pendingReplies_eq_nil {server : Server} {r : Request}
    (hok : server.Ok plat paths r) (h : pendingReplies server.pc r = []) :
    server.pc ∈ [ServerPc.recvfrom, ServerPc.printSchedInfos] ∧ unapplied server.pc r = [] := by
  obtain ⟨htooLong, herror⟩ := hok.noError
  rcases hpc : server.pc <;> simp_all [pendingReplies, unapplied, Request.replies]

/-- What was applied is a prefix of what was sent. -/
theorem Session.Inv.applied_prefix {s : Session} (h : s.Inv plat paths) :
    s.applied <+: s.requests.map Request.fiber := by
  rw [h.sent, List.map_append, ← h.appliedAll, List.append_assoc]
  exact List.prefix_append _ _

/-- The length of the server's queue. -/
theorem Session.Inv.length_requests {s : Session} (h : s.Inv plat paths) :
    s.requests.length = s.received.length + s.toServer.length := by
  rw [h.sent, List.length_append, List.length_map]

/-- Before a wait times out, what is in the queues is about the last request. -/
theorem Session.Inv.oneRequest {s : Session} (h : s.Inv plat paths) (hcounts : s.counts.Inv 2)
    (hno : s.timedOut = false) :
    ∀ id ∈ s.inFlight, ∃ r, s.requests.getLast? = some r ∧ r.id = id := by
  obtain ⟨hsent, -, hidle⟩ := hcounts.inFlight (by decide) hno
  have hlen := h.length_requests
  simp only [Session.counts] at hsent hidle
  intro id hid
  -- a queued request is the only one, a queued reply is one to the request waited for
  rcases List.mem_append.mp hid with hid | hid <;> obtain ⟨p, hp, rfl⟩ := List.mem_map.mp hid
  · obtain ⟨q, hq⟩ := List.length_eq_one_iff.mp
      (show s.toServer.length = 1 by have := List.length_pos_of_mem hp; omega)
    rw [hq, List.mem_singleton] at hp
    exact ⟨p.request, by rw [h.sent, hq, hp]; simp, rfl⟩
  · obtain ⟨k, hk⟩ := List.getElem?_of_mem hp
    obtain ⟨r, hr, hrid, -⟩ := h.getElem?_toClient hk
    have hpos := List.length_pos_of_mem hp
    have hwait : s.counts.waiting = true := by
      refine Bool.eq_true_of_not_eq_false fun hf => ?_
      have := (hidle hf).2
      omega
    have hlast : s.consumed.length / 2 + 1 = s.requests.length := hcounts.waiting_iff hno hwait
    have hlt := (List.getElem?_eq_some_iff.mp hr).1
    have hpoint : (s.consumed.length + k) / 2 = s.requests.length - 1 := by omega
    refine ⟨r, ?_, hrid.symm⟩
    rw [List.getLast?_eq_getElem?, ← hpoint, h.sent, List.getElem?_append_left hlt, hr]

/-- **Exactly once, in order.** In every state of every interleaving of a single call without a
timeout, client and server agree: what the server applies is a first part of the array, and the
whole of it when the call has returned 0. -/
theorem session_agreement (plat : Platform) (paths : Paths) {s : Session}
    (h : ((sessionSystem plat paths).restrict SingleCall).Reachable s) : s.Agreement := by
  obtain ⟨hinv, hcounts⟩ := Session.inv_of_reachable h.of_restrict
  obtain ⟨hcalls, hno⟩ := singleCall_invariant h
  obtain ⟨hsent, hqueued, hidle⟩ := hcounts.inFlight (by decide) hno
  have hlen := hinv.length_requests
  have hproduced := hinv.produced_add
  have hfibers := hinv.firstCall hcalls
  simp only [Session.counts] at hsent hqueued hidle hproduced
  refine ⟨?_, hinv.applied_prefix, hinv.oneRequest hcounts hno, ?_, fun hret => ?_⟩
  · have hpath := hinv.applied_prefix
    rw [hfibers] at hpath
    exact List.prefix_iff_eq_take.mp (hpath.trans (List.take_prefix _ _))
  · rcases hq : s.toServer with _ | ⟨p, toServer⟩
    · exact .inl rfl
    · -- the counts leave no room for a reply beside a queued request
      rw [hq, List.length_cons] at hlen
      obtain ⟨hcons, hprod⟩ := hqueued (by omega)
      have howed : pendingReplies s.server.pc s.handling = [] :=
        List.eq_nil_of_length_eq_zero (by omega)
      refine .inr ⟨?_, List.eq_nil_of_length_eq_zero (by omega),
        (pc_of_pendingReplies_eq_nil hinv.server_ok howed).1⟩
      rw [List.length_cons]
      omega
  · -- a client that has returned has consumed both replies to every request
    obtain ⟨hrec, hcons⟩ := hidle (by simp [hret])
    have hidle' := hcounts.idle hno (by simp [Session.counts, hret])
    simp only [Session.counts] at hidle'
    have howed : pendingReplies s.server.pc s.handling = [] :=
      List.eq_nil_of_length_eq_zero (by omega)
    have hserver : s.toServer = [] := List.eq_nil_of_length_eq_zero (by omega)
    refine ⟨?_, hserver, List.eq_nil_of_length_eq_zero (by omega)⟩
    have happ := hinv.appliedAll
    rw [(pc_of_pendingReplies_eq_nil hinv.server_ok howed).2, List.append_nil] at happ
    rw [hinv.sent, hserver, List.map_nil, List.append_nil, hinv.done hret,
      List.take_length] at hfibers
    rw [happ, hfibers]

/-- A server at `"/s"` and a client at `"/c"`. -/
def twoPaths : Paths := ⟨[47, 115], [47, 99], by decide, by decide, by decide, by decide⟩

/-- The turn of a server that can apply what it is asked to. -/
def serverTurn : List SessionLabel :=
  [.serverRecv, .serverStep ⟨.ok, .ok⟩, .serverStep ⟨.ok, .ok⟩, .serverStep ⟨.ok, .ok⟩,
    .serverStep ⟨.ok, .ok⟩]

/-- A call for one element. -/
def callFor (tid : CInt) : SessionLabel := .call [⟨tid, 1, 0, 50⟩] (fun _ _ => 0) 0

/-- A call for one element that is answered in time. -/
theorem session_agreement_answered :
    ∃ s, ((sessionSystem .linux64 twoPaths).restrict SingleCall).exec (.init .linux64)
      (callFor 101 :: .clientSend :: serverTurn ++ [.clientRecv, .clientRecv]) = some s ∧
      s.client.pc = .returned 0 ∧ s.Agreement := by
  have hpc : (((sessionSystem .linux64 twoPaths).restrict SingleCall).exec (.init .linux64)
      (callFor 101 :: .clientSend :: serverTurn ++ [.clientRecv, .clientRecv])).map
        (fun s => s.client.pc) = some (.returned 0) := by
    decide
  obtain ⟨s, hs, hret⟩ := Option.map_eq_some_iff.mp hpc
  exact ⟨s, hs, hret, session_agreement _ _ (LabelledSystem.reachable_of_exec hs)⟩

/-! ### Any number of calls -/

/-- **Whose replies the client consumes.** Over any number of calls and every interleaving, a
reply consumed before any wait of the client timed out was sent for the element waited for; a
reply consumed after one was sent for an element requested earlier. -/
theorem replies_credited (plat : Platform) (paths : Paths) {s : Session}
    (h : (sessionSystem plat paths).Reachable s) :
    ∀ c ∈ s.consumed, (c.afterTimeout = false → c.sentFor = c.waitingFor) ∧
      (c.afterTimeout = true → c.sentFor.Before c.waitingFor) :=
  (Session.inv_of_reachable h).1.attributed

/-- A call that gives up before the server answers, and a second one that hears the answer to
the first. -/
def lateAnswer : List SessionLabel :=
  [callFor 101, .clientSend, .clientTimeout] ++ serverTurn ++
    [callFor 102, .clientSend, .clientRecv, .clientRecv]

/-- What the second call consumed, how it ended, and what the server had received by then. -/
private theorem exec_lateAnswer :
    ((sessionSystem .linux64 twoPaths).exec (.init .linux64) lateAnswer).map
        (fun s => (s.consumed, s.client.pc, s.received.map Request.id)) =
      some ([⟨⟨1, 0⟩, ⟨0, 0⟩, [ptypeRcvAck], true⟩, ⟨⟨1, 0⟩, ⟨0, 0⟩, [ptypeCmdAck], true⟩],
        .returned 0, [⟨0, 0⟩]) := by
  decide

/-- The replies to the second call's request are those to the first call's. -/
theorem replies_credited_lateAnswer :
    ∃ s, (sessionSystem .linux64 twoPaths).exec (.init .linux64) lateAnswer = some s ∧
      ∀ c ∈ s.consumed, (c.afterTimeout = false → c.sentFor = c.waitingFor) ∧
        (c.afterTimeout = true → c.sentFor.Before c.waitingFor) := by
  obtain ⟨s, hs, -⟩ := Option.map_eq_some_iff.mp exec_lateAnswer
  exact ⟨s, hs, replies_credited _ _ (LabelledSystem.reachable_of_exec hs)⟩

/-- The second call returns 0 on the replies to the first one's request, before the server has
seen its own. -/
theorem not_credited_lateAnswer :
    ∃ s, (sessionSystem .linux64 twoPaths).Reachable s ∧ s.client.pc = .returned 0 ∧
      s.received.map Request.id = [⟨0, 0⟩] ∧ ¬ ∀ c ∈ s.consumed, c.sentFor = c.waitingFor := by
  obtain ⟨s, hs, hfacts⟩ := Option.map_eq_some_iff.mp exec_lateAnswer
  obtain ⟨hconsumed, hpc, hreceived⟩ : _ ∧ _ ∧ _ := by simpa only [Prod.mk.injEq] using hfacts
  refine ⟨s, LabelledSystem.reachable_of_exec hs, hpc, hreceived, ?_⟩
  rw [hconsumed]
  decide

end Libbaalue
