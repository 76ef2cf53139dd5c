import Libbaalue.Foundations.LabelledSystem
import Mathlib.Data.List.Perm.Basic

/-!
# Anonymous acknowledgements over a lossy network

A requester sends numbered commands, one at a time, and waits for an acknowledgement or gives
up; a responder acknowledges what it receives. The network loses commands and acknowledgements
and delivers them in any order, but never twice. The numbers are for the reader only: the
requester takes any acknowledgement.

A command is worth one token, which is in the network as a command, then as an acknowledgement,
and ends as the credit of a command. Tokens are never copied (`State.Inv.nodup`), so an
acknowledgement is credited once; and as long as the requester never gave up, the only token
there is belongs to the command it waits for (`State.Inv.credited`). If it sends nothing more
once it has given up, the two parties stay in step (`State.InStep`).

The invariant is about the list of all tokens, wherever they are, so that each event is one of three
kinds: it adds a token that was not there, it drops one, or it permutes the list. What an event does
to the three queues follows from that by counting. Nothing is assumed of how many commands are lost,
and nothing is said of whether a command ever arrives.
-/

namespace AnonymousAck

/-- An acknowledgement consumed by the requester, with the command it was waiting for at that
moment. The two numbers need not be the same: the requester cannot tell one acknowledgement from
another. -/
structure Credit where
  /-- The command waited for. -/
  command : ℕ
  /-- The command the responder received. -/
  ack : ℕ
  /-- The requester had given up on a command before. -/
  late : Bool
  deriving DecidableEq

/-- The two parties and the network between them. Requests and acknowledgements are the numbers of
the commands they are about, which no party sees; the number of a command is how many were sent
before it. -/
structure State where
  sent : ℕ
  requests : List ℕ
  acks : List ℕ
  received : List ℕ
  credits : List Credit
  waiting : Bool
  aborted : Bool

/-- What the parties and the network do. The position of a message in the network is the network's
choice, so that messages overtake each other. -/
inductive Event
  | send
  | loseRequest (k : ℕ)
  | receive (k : ℕ)
  | loseAck (k : ℕ)
  | consume (k : ℕ)
  | abort

/-- One step; a step that is not possible in the state is `none`. A requester that gives up may send
again at once, and whatever was under way stays under way. -/
def step (s : State) : Event → Option State
  | .send =>
    if s.waiting then none
    else some { s with sent := s.sent + 1, requests := s.requests ++ [s.sent], waiting := true }
  | .loseRequest k => some { s with requests := s.requests.eraseIdx k }
  | .receive k =>
    s.requests[k]?.map fun n =>
      { s with
        requests := s.requests.eraseIdx k, acks := s.acks ++ [n], received := s.received ++ [n] }
  | .loseAck k => some { s with acks := s.acks.eraseIdx k }
  | .consume k =>
    if s.waiting then
      s.acks[k]?.map fun n =>
        { s with
          acks := s.acks.eraseIdx k
          credits := s.credits ++ [⟨s.sent - 1, n, s.aborted⟩], waiting := false }
    else none
  | .abort => if s.waiting then some { s with waiting := false, aborted := true } else none

/-- The pattern, from a state in which nothing was sent. -/
def system : LabelledSystem State Event where
  init := ⟨0, [], [], [], [], false, false⟩
  step := step

/-- The commands that are under way or were credited. A command that was lost has left the list, and
none comes back. -/
def State.tokens (s : State) : List ℕ := s.requests ++ (s.acks ++ s.credits.map Credit.ack)

/-- Tokens are not copied and belong to what was sent and received; before the requester gave
up, only the command it waits for has one. -/
structure State.Inv (s : State) : Prop where
  nodup : s.tokens.Nodup
  lt_sent : ∀ n ∈ s.tokens, n < s.sent
  acked : ∀ n ∈ s.acks ++ s.credits.map Credit.ack, n ∈ s.received
  started : s.waiting = true → 0 < s.sent
  prompt : s.aborted = false → s.waiting = true → ∀ n ∈ s.requests ++ s.acks, n + 1 = s.sent
  idle : s.aborted = false → s.waiting = false → s.requests ++ s.acks = []
  credited : ∀ c ∈ s.credits, c.ack ≤ c.command ∧ (c.late = false → c.ack = c.command)

open scoped List

/-- Taking an entry out of a list. -/
private theorem perm_cons_eraseIdx {l : List ℕ} {k n : ℕ} (h : l[k]? = some n) :
    l ~ n :: l.eraseIdx k := by
  obtain ⟨hk, rfl⟩ := List.getElem?_eq_some_iff.mp h
  exact (List.getElem_cons_eraseIdx_perm hk).symm

/-- Receiving a command turns its token into an acknowledgement. -/
private theorem tokens_receive {r a c : List ℕ} {k n : ℕ} (h : r[k]? = some n) :
    r.eraseIdx k ++ (a ++ [n] ++ c) ~ r ++ (a ++ c) := by
  calc r.eraseIdx k ++ (a ++ [n] ++ c) = (r.eraseIdx k ++ a) ++ n :: c := by simp
    _ ~ n :: (r.eraseIdx k ++ a ++ c) := List.perm_middle
    _ = (n :: r.eraseIdx k) ++ (a ++ c) := by simp
    _ ~ r ++ (a ++ c) := (perm_cons_eraseIdx h).symm.append_right _

/-- Consuming an acknowledgement turns its token into a credit. -/
private theorem tokens_consume {r a c : List ℕ} {k n : ℕ} (h : a[k]? = some n) :
    r ++ (a.eraseIdx k ++ (c ++ [n])) ~ r ++ (a ++ c) := by
  refine List.Perm.append_left r ?_
  calc a.eraseIdx k ++ (c ++ [n]) = (a.eraseIdx k ++ c) ++ n :: [] := by simp
    _ ~ n :: (a.eraseIdx k ++ c ++ []) := List.perm_middle
    _ = (n :: a.eraseIdx k) ++ c := by simp
    _ ~ a ++ c := (perm_cons_eraseIdx h).symm.append_right _

/-- Losing a command. -/
private theorem Inv.loseRequest {s : State} (h : s.Inv) (k : ℕ) :
    State.Inv { s with requests := s.requests.eraseIdx k } := by
  have hsub : s.requests.eraseIdx k <+ s.requests := List.eraseIdx_sublist _ _
  have htokens : State.tokens { s with requests := s.requests.eraseIdx k } <+ s.tokens :=
    hsub.append_right _
  exact { h with
    nodup := h.nodup.sublist htokens
    lt_sent := fun n hn => h.lt_sent n (htokens.subset hn)
    prompt := fun ha hw n hn => h.prompt ha hw n ((hsub.append_right _).subset hn)
    idle := fun ha hw => List.sublist_nil.mp (h.idle ha hw ▸ hsub.append_right _) }

/-- Losing an acknowledgement. -/
private theorem Inv.loseAck {s : State} (h : s.Inv) (k : ℕ) :
    State.Inv { s with acks := s.acks.eraseIdx k } := by
  have hsub : s.acks.eraseIdx k <+ s.acks := List.eraseIdx_sublist _ _
  have htokens : State.tokens { s with acks := s.acks.eraseIdx k } <+ s.tokens :=
    (hsub.append_right _).append_left _
  exact { h with
    nodup := h.nodup.sublist htokens
    lt_sent := fun n hn => h.lt_sent n (htokens.subset hn)
    acked := fun n hn => h.acked n ((hsub.append_right _).subset hn)
    prompt := fun ha hw n hn => h.prompt ha hw n ((hsub.append_left _).subset hn)
    idle := fun ha hw => List.sublist_nil.mp (h.idle ha hw ▸ hsub.append_left _) }

/-- Sending the next command. -/
private theorem Inv.send {s : State} (h : s.Inv) (hw : s.waiting = false) :
    State.Inv { s with
      sent := s.sent + 1, requests := s.requests ++ [s.sent], waiting := true } := by
  have hperm : s.requests ++ [s.sent] ++ (s.acks ++ s.credits.map Credit.ack) ~
      s.sent :: s.tokens := by
    rw [List.append_assoc, List.singleton_append]
    exact List.perm_middle
  have hfresh : s.sent ∉ s.tokens := fun hmem => Nat.lt_irrefl _ (h.lt_sent _ hmem)
  exact { h with
    nodup := hperm.nodup_iff.mpr (List.nodup_cons.mpr ⟨hfresh, h.nodup⟩)
    lt_sent := fun n hn => by
      rcases List.mem_cons.mp (hperm.mem_iff.mp hn) with rfl | hn
      · exact Nat.lt_succ_self _
      · exact Nat.lt_succ_of_lt (h.lt_sent n hn)
    started := fun _ => Nat.succ_pos _
    prompt := fun ha _ n hn => by
      obtain ⟨hr, hacks⟩ := List.append_eq_nil_iff.mp (h.idle ha hw)
      simp only [hr, hacks, List.nil_append, List.append_nil, List.mem_singleton] at hn
      rw [hn]
    idle := fun _ hf => absurd hf (by simp) }

/-- Receiving a command. -/
private theorem Inv.receive {s : State} (h : s.Inv) {k n : ℕ} (hk : s.requests[k]? = some n) :
    State.Inv { s with
      requests := s.requests.eraseIdx k, acks := s.acks ++ [n]
      received := s.received ++ [n] } := by
  have hperm : s.requests.eraseIdx k ++ (s.acks ++ [n] ++ s.credits.map Credit.ack) ~ s.tokens :=
    tokens_receive hk
  have hpair : s.requests.eraseIdx k ++ (s.acks ++ [n]) ~ s.requests ++ s.acks := by
    simpa using tokens_receive (a := s.acks) (c := []) hk
  exact { h with
    nodup := hperm.nodup_iff.mpr h.nodup
    lt_sent := fun m hm => h.lt_sent m (hperm.mem_iff.mp hm)
    acked := fun m hm => by
      have hcases : m ∈ s.acks ++ s.credits.map Credit.ack ∨ m = n := by
        simp only [List.mem_append, List.mem_singleton] at hm ⊢
        tauto
      rcases hcases with hm | rfl
      · exact List.mem_append_left _ (h.acked m hm)
      · exact List.mem_append_right _ (List.mem_singleton_self _)
    prompt := fun ha hw m hm => h.prompt ha hw m (hpair.mem_iff.mp hm)
    idle := fun ha hw => (h.idle ha hw ▸ hpair).eq_nil }

/-- Consuming an acknowledgement. -/
private theorem Inv.consume {s : State} (h : s.Inv) (hw : s.waiting = true) {k n : ℕ}
    (hk : s.acks[k]? = some n) :
    State.Inv { s with
      acks := s.acks.eraseIdx k
      credits := s.credits ++ [⟨s.sent - 1, n, s.aborted⟩], waiting := false } := by
  have hperm : s.requests ++ (s.acks.eraseIdx k ++ (s.credits.map Credit.ack ++ [n])) ~
      s.tokens := tokens_consume hk
  have hpos := h.started hw
  have hmem : n ∈ s.acks := List.mem_of_getElem? hk
  have hlt : n < s.sent := h.lt_sent n (by simp [State.tokens, hmem])
  have hmap : (s.credits ++ [(⟨s.sent - 1, n, s.aborted⟩ : Credit)]).map Credit.ack =
      s.credits.map Credit.ack ++ [n] := by simp
  exact { h with
    nodup := by
      rw [State.tokens, hmap]
      exact hperm.nodup_iff.mpr h.nodup
    lt_sent := fun m hm => by
      rw [State.tokens, hmap] at hm
      exact h.lt_sent m (hperm.mem_iff.mp hm)
    acked := fun m hm => by
      rw [hmap] at hm
      refine h.acked m ((perm_cons_eraseIdx hk).append_right _ |>.mem_iff.mpr ?_)
      simp only [List.mem_append, List.mem_cons, List.not_mem_nil, or_false] at hm ⊢
      tauto
    started := fun hf => absurd hf (by simp)
    prompt := fun _ hf => absurd hf (by simp)
    idle := fun ha _ => by
      -- what is left would be a second token of the command waited for
      refine List.eq_nil_iff_forall_not_mem.mpr fun m hm => ?_
      have hne : m ≠ n := by
        rintro rfl
        have hnodup := hperm.nodup_iff.mpr h.nodup
        rw [← List.append_assoc, ← List.append_assoc] at hnodup
        exact (List.nodup_append.mp hnodup).2.2 m (List.mem_append_left _ hm) m
          (List.mem_singleton_self _) rfl
      have hmem' : m ∈ s.requests ++ s.acks :=
        ((List.eraseIdx_sublist _ _).append_left _).subset hm
      have hm1 := h.prompt ha hw m hmem'
      have hn1 := h.prompt ha hw n (List.mem_append_right _ hmem)
      omega
    credited := fun c hc => by
      rcases List.mem_append.mp hc with hc | hc
      · exact h.credited c hc
      · obtain rfl := List.mem_singleton.mp hc
        -- before a failure the token is that of the command waited for
        refine ⟨Nat.le_sub_one_of_lt hlt, fun ha => ?_⟩
        have hn1 := h.prompt ha hw n (List.mem_append_right _ hmem)
        simp only
        omega }

/-- **One step** keeps the invariant. -/
theorem State.Inv.step {s t : State} (h : s.Inv) {e : Event} (hst : step s e = some t) :
    t.Inv := by
  cases e with
  | send =>
    simp only [AnonymousAck.step] at hst
    split_ifs at hst with hw
    obtain rfl := Option.some.inj hst
    exact Inv.send h ((Bool.not_eq_true _).mp hw)
  | loseRequest k =>
    obtain rfl := Option.some.inj hst
    exact Inv.loseRequest h k
  | receive k =>
    obtain ⟨n, hn, rfl⟩ := Option.map_eq_some_iff.mp hst
    exact Inv.receive h hn
  | loseAck k =>
    obtain rfl := Option.some.inj hst
    exact Inv.loseAck h k
  | consume k =>
    simp only [AnonymousAck.step] at hst
    split_ifs at hst with hw
    obtain ⟨n, hn, rfl⟩ := Option.map_eq_some_iff.mp hst
    exact Inv.consume h hw hn
  | abort =>
    simp only [AnonymousAck.step] at hst
    split_ifs at hst with hw
    obtain rfl := Option.some.inj hst
    exact { h with
      started := fun hf => absurd hf (by simp)
      prompt := fun hf => absurd hf (by simp)
      idle := fun hf => absurd hf (by simp) }

/-- **Credits are never forged nor paid twice.** An acknowledgement that is consumed is of a
command that was received, and it is of the very command waited for as long as the requester
never gave up. -/
theorem inv_of_reachable {s : State} (h : system.Reachable s) : s.Inv :=
  h.invariant ⟨by simp [system, State.tokens], by simp [system, State.tokens], by simp [system],
    by simp [system], by simp [system], by simp [system], by simp [system]⟩
    fun _ _ _ _ hs hst => hs.step hst

/-! ### A requester that stops -/

/-- What holds as long as every command was sent when those before it had been credited: the
responder has got them in order, and is at most one ahead of the credits. -/
structure State.InStep (s : State) : Prop where
  fresh : (s.received ++ s.requests).Nodup
  credits : s.credits.map Credit.ack = List.range s.credits.length
  received : s.received = List.range s.received.length
  credits_le : s.credits.length ≤ s.received.length
  received_le : s.received.length ≤ s.sent
  sent_le : s.sent ≤ s.credits.length + 1

/-- The command that is received is the next one. -/
private theorem InStep.receive {s : State} (h : s.Inv) (hin : s.InStep) {k n : ℕ}
    (hk : s.requests[k]? = some n) :
    State.InStep { s with
      requests := s.requests.eraseIdx k, acks := s.acks ++ [n]
      received := s.received ++ [n] } := by
  have hmem : n ∈ s.requests := List.mem_of_getElem? hk
  have hlt : n < s.sent := h.lt_sent n (List.mem_append_left _ hmem)
  have hnew : n ∉ s.received := fun hold =>
    (List.nodup_append.mp hin.fresh).2.2 n hold n hmem rfl
  have hn : n = s.received.length := by
    rw [hin.received, List.mem_range, Nat.not_lt] at hnew
    have hcredits := hin.credits_le
    have hsent := hin.sent_le
    omega
  have hperm : s.received ++ [n] ++ s.requests.eraseIdx k ~ s.received ++ s.requests := by
    rw [List.append_assoc, List.singleton_append]
    exact (perm_cons_eraseIdx hk).symm.append_left _
  have hlen : (s.received ++ [n]).length = s.received.length + 1 := by simp
  refine ⟨hperm.nodup_iff.mpr hin.fresh, hin.credits, ?_, ?_, ?_, hin.sent_le⟩
  · simp only
    rw [hlen, List.range_succ, ← hin.received, hn]
  · simp only
    rw [hlen]
    exact Nat.le_succ_of_le hin.credits_le
  · simp only
    rw [hlen, ← hn]
    exact hlt

/-- The acknowledgement that is consumed is the next one. -/
private theorem InStep.consume {s : State} (h : s.Inv) (hin : s.InStep) {k n : ℕ}
    (hk : s.acks[k]? = some n) :
    State.InStep { s with
      acks := s.acks.eraseIdx k
      credits := s.credits ++ [⟨s.sent - 1, n, s.aborted⟩], waiting := false } := by
  have hmem : n ∈ s.acks := List.mem_of_getElem? hk
  have hreceived : n < s.received.length := by
    have hold := h.acked n (List.mem_append_left _ hmem)
    rwa [hin.received, List.mem_range] at hold
  have hnew : n ∉ s.credits.map Credit.ack := fun hold =>
    (List.nodup_append.mp (List.nodup_append.mp h.nodup).2.1).2.2 n hmem n hold rfl
  have hn : n = s.credits.length := by
    rw [hin.credits, List.mem_range, Nat.not_lt] at hnew
    have hsent := hin.sent_le
    have hle := hin.received_le
    omega
  have hlen : (s.credits ++ [(⟨s.sent - 1, n, s.aborted⟩ : Credit)]).length =
      s.credits.length + 1 := by simp
  refine ⟨hin.fresh, ?_, hin.received, ?_, hin.received_le, ?_⟩
  · simp only
    rw [hlen, List.range_succ, List.map_append, hin.credits, hn]
    rfl
  · simp only
    rw [hlen, ← hn]
    exact hreceived
  · simp only
    rw [hlen]
    exact Nat.le_succ_of_le hin.sent_le

/-- **In step.** A command is sent only when those before it have been credited. -/
theorem State.InStep.step {s t : State} (h : s.Inv) (hin : s.InStep) {e : Event}
    (hsend : e = .send → s.sent = s.credits.length) (hst : AnonymousAck.step s e = some t) :
    t.InStep := by
  cases e with
  | send =>
    simp only [AnonymousAck.step] at hst
    split_ifs at hst with hw
    obtain rfl := Option.some.inj hst
    have hnew : s.sent ∉ s.received ++ s.requests := fun hmem => by
      rcases List.mem_append.mp hmem with hmem | hmem
      · rw [hin.received, List.mem_range] at hmem
        exact absurd hmem (Nat.not_lt.mpr hin.received_le)
      · exact Nat.lt_irrefl _ (h.lt_sent _ (List.mem_append_left _ hmem))
    refine ⟨?_, hin.credits, hin.received, hin.credits_le, Nat.le_succ_of_le hin.received_le, ?_⟩
    · simp only
      rw [← List.append_assoc]
      exact (List.perm_append_singleton _ _).nodup_iff.mpr (List.nodup_cons.mpr ⟨hnew, hin.fresh⟩)
    · exact Nat.succ_le_succ (Nat.le_of_eq (hsend rfl))
  | loseRequest k =>
    obtain rfl := Option.some.inj hst
    exact { hin with
      fresh := hin.fresh.sublist ((List.eraseIdx_sublist _ _).append_left _) }
  | receive k =>
    obtain ⟨n, hn, rfl⟩ := Option.map_eq_some_iff.mp hst
    exact InStep.receive h hin hn
  | loseAck k =>
    obtain rfl := Option.some.inj hst
    exact { hin with }
  | consume k =>
    simp only [AnonymousAck.step] at hst
    split_ifs at hst with hw
    obtain ⟨n, hn, rfl⟩ := Option.map_eq_some_iff.mp hst
    exact InStep.consume h hin hn
  | abort =>
    simp only [AnonymousAck.step] at hst
    split_ifs at hst with hw
    obtain rfl := Option.some.inj hst
    exact { hin with }

end AnonymousAck
