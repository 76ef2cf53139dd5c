import Libbaalue.Fiber.Client

/-!
# What the scheduling client returns

A call of `baa_set_schedule_props_via_server` whose sends succeed and whose replies are given, one
for each `recvfrom`. A call that is still waiting behind the last of them has no value yet.

The wait of an element should end at the first reply that is not `PTYPE_RCV_ACK`, and the value
be zero if and only if that reply is `PTYPE_CMD_ACK` for every element
(`ReportsTruthfully`). The value is always zero, and an empty datagram leaves `ptype_rcv` as it
was: `reportsTruthfully_iff` says on which replies this does not show.

The result is about the value of one call against a list of replies, so the server does not occur:
whatever can be sent to a client is covered. Replies are followed one at a time, and what each of
them does depends on the byte that is in `ptype_rcv` behind it, which an empty datagram does not
write; that is the one bit of history that a call has, and `NoStaleAck` is about it.
-/

namespace Libbaalue

variable (args : ClientArgs)

/-! ### A call on given replies -/

/-- The value returned, `none` before that. -/
def Client.ret? (s : Client) : Option CInt :=
  match s.pc with
  | .returned ret => some ret
  | .sendto => none
  | .recvfrom => none

/-- The `sendto` that is due, if any, with success. A `sendto` that fails ends the call with -1 and
is a matter of its own. -/
def Client.send (s : Client) : Client :=
  match s.pc with
  | .sendto => (baaSetSchedulePropsViaServer args).resume s ⟨s.numPacked.toInt, none⟩
  | .recvfrom => s
  | .returned _ => s

/-- The call up to the receipt of the next reply. -/
def Client.deliver (s : Client) (d : Datagram) : Client :=
  (baaSetSchedulePropsViaServer args).resume (s.send args) ⟨0, some d⟩

/-- A reply that was received: in the wait of which element, its first byte if it has one, and
whether it ended the wait. -/
structure TakenReply where
  element : ℕ
  ptype : Option Byte
  last : Bool
  deriving DecidableEq, Repr

/-- The replies that are received, in order; those behind the end of the call are left in the
queue. -/
def Client.taken : Client → List Datagram → List TakenReply
  | _, [] => []
  | s, d :: ds =>
    if s.ret?.isSome then []
    else ⟨s.i, d.payload.head?, (s.deliver args d).pc ≠ .recvfrom⟩ ::
      Client.taken (s.deliver args d) ds

/-- The state behind the replies. -/
def Client.after (s : Client) (ds : List Datagram) : Client := ds.foldl (Client.deliver args) s

/-- Every wait ends at the first reply that is not `PTYPE_RCV_ACK`, which is what the loop of the
client is for. -/
def WaitsEndProperly (s : Client) (ds : List Datagram) : Prop :=
  ∀ t ∈ s.taken args ds, t.last = true ↔ t.ptype ≠ some ptypeRcvAck

/-- The wait of every element from `i` on ended at a `PTYPE_CMD_ACK`, so that the server has said of
each that it was applied. -/
def AllAcked (s : Client) (ds : List Datagram) (i : ℕ) : Prop :=
  ∀ j, i ≤ j → j < args.fiberArray.length → ⟨j, some ptypeCmdAck, true⟩ ∈ s.taken args ds

/-- A call reports truthfully: its waits end as they should, and the value it returns, if it
returns, is zero if and only if every element was acknowledged. -/
def ReportsTruthfully (ptypeRcv : Byte) (replies : List Datagram) : Prop :=
  WaitsEndProperly args (.start args ptypeRcv) replies ∧
    ∀ ret, ((Client.start args ptypeRcv).after args replies).ret? = some ret →
      (ret = 0 ↔ AllAcked args (.start args ptypeRcv) replies 0)

/-! ### The replies that end a wait -/

/-- The replies that should end a wait. -/
def finalReplies (replies : List Datagram) : List Datagram :=
  replies.filter fun d => d.payload.head? ≠ some ptypeRcvAck

/-- No empty datagram is received while `ptype_rcv` holds `PTYPE_RCV_ACK`. Such a datagram writes
nothing, and the loop takes the byte of the reply before for its own. -/
def NoStaleAck : Byte → List Datagram → Prop
  | _, [] => True
  | b, d :: ds => (d.payload = [] → b ≠ ptypeRcvAck) ∧ NoStaleAck (d.payload.headD b) ds

/-- The replies for `n` elements on which a call reports truthfully: either the first `n` that
are not `PTYPE_RCV_ACK` are `PTYPE_CMD_ACK`, or there are less than `n` of these, so that the
call is still waiting, and no empty one follows a `PTYPE_RCV_ACK`. -/
def RepliesFit (n : ℕ) (ptypeRcv : Byte) (replies : List Datagram) : Prop :=
  (n ≤ (finalReplies replies).length ∧
      ∀ d ∈ (finalReplies replies).take n, d.payload.head? = some ptypeCmdAck) ∨
    (finalReplies replies).length < n ∧ NoStaleAck ptypeRcv replies

variable {args}

private theorem finalReplies_cons_of_rcvAck {d : Datagram} (h : d.payload.head? = some ptypeRcvAck)
    (ds : List Datagram) : finalReplies (d :: ds) = finalReplies ds :=
  List.filter_cons_of_neg (by simp [h])

private theorem finalReplies_cons_of_ne {d : Datagram} (h : d.payload.head? ≠ some ptypeRcvAck)
    (ds : List Datagram) : finalReplies (d :: ds) = d :: finalReplies ds :=
  List.filter_cons_of_pos (by simp [h])

/-! ### One reply -/

/-- A call in the loop, before or in the wait of an element. -/
structure Client.Waiting (args : ClientArgs) (s : Client) : Prop where
  pc : s.pc = .sendto ∨ s.pc = .recvfrom
  lt : s.i < args.fiberArray.length

private theorem Client.Waiting.ret?_eq {s : Client} (h : s.Waiting args) : s.ret? = none := by
  rcases h.pc with hpc | hpc <;> rw [Client.ret?, hpc]

@[simp]
theorem ptypeRcv_next (s : Client) (i : ℕ) : (s.next args i).ptypeRcv = s.ptypeRcv := by
  unfold Client.next
  split <;> rfl

/-- Behind a successful send the call waits for a reply. -/
private theorem Client.Waiting.send_eq {s : Client} (h : s.Waiting args) :
    s.send args = { s with pc := .recvfrom } := by
  rcases h.pc with hpc | hpc
  · simp only [Client.send, baaSetSchedulePropsViaServer, Client.afterSend, hpc]
    exact if_neg (not_not.mpr rfl)
  · obtain ⟨pc, i, buf, numPacked, addr, ptypeRcv⟩ := s
    obtain rfl : pc = .recvfrom := hpc
    rfl

/-- **One reply**: the byte in `ptype_rcv` behind it decides. -/
theorem Client.Waiting.deliver_eq {s : Client} (h : s.Waiting args) (d : Datagram) :
    ∃ t : Client, t.i = s.i ∧ t.ptypeRcv = d.payload.headD s.ptypeRcv ∧ s.deliver args d =
      if d.payload.headD s.ptypeRcv = ptypeRcvAck then { t with pc := .recvfrom }
      else t.next args (s.i + 1) := by
  refine ⟨{ s with
    pc := .recvfrom, addr := s.addr.receive d.sender, ptypeRcv := d.payload.headD s.ptypeRcv },
    rfl, rfl, ?_⟩
  rw [Client.deliver, h.send_eq]
  simp only [baaSetSchedulePropsViaServer, Client.afterRecv]
  rw [dispatch_eq]

/-- A byte that holds `PTYPE_RCV_ACK` behind the reply keeps the call waiting. -/
private theorem Client.Waiting.deliver_of_eq {s : Client} (h : s.Waiting args) {d : Datagram}
    (hd : d.payload.headD s.ptypeRcv = ptypeRcvAck) :
    (s.deliver args d).Waiting args ∧ (s.deliver args d).pc = .recvfrom ∧
      (s.deliver args d).i = s.i ∧ (s.deliver args d).ptypeRcv = ptypeRcvAck := by
  obtain ⟨t, hi, hptype, heq⟩ := h.deliver_eq d
  rw [if_pos hd] at heq
  rw [heq]
  exact ⟨⟨.inr rfl, hi ▸ h.lt⟩, rfl, hi, hptype.trans hd⟩

/-- Any other byte ends the wait. -/
private theorem Client.Waiting.deliver_of_ne {s : Client} (h : s.Waiting args) {d : Datagram}
    (hd : d.payload.headD s.ptypeRcv ≠ ptypeRcvAck) :
    (s.deliver args d).pc =
        (if s.i + 1 < args.fiberArray.length then .sendto else .returned 0) ∧
      (s.deliver args d).i = s.i + 1 ∧
      (s.deliver args d).ptypeRcv = d.payload.headD s.ptypeRcv ∧
      (s.deliver args d).pc ≠ .recvfrom := by
  obtain ⟨t, hi, hptype, heq⟩ := h.deliver_eq d
  rw [if_neg hd] at heq
  rw [heq, pc_next, i_next, ptypeRcv_next]
  refine ⟨rfl, rfl, hptype, ?_⟩
  split_ifs <;> simp

/-- A call that has returned takes no further reply. -/
private theorem after_of_returned {s : Client} {ret : CInt} (h : s.pc = .returned ret)
    (ds : List Datagram) : s.after args ds = s ∧ s.taken args ds = [] := by
  have hret : s.ret? = some ret := by rw [Client.ret?, h]
  have hdeliver : ∀ d, s.deliver args d = s := fun d => by
    simp only [Client.deliver, Client.send, h, baaSetSchedulePropsViaServer]
  induction ds with
  | nil => exact ⟨rfl, rfl⟩
  | cons d ds ih =>
    refine ⟨?_, ?_⟩
    · change (s.deliver args d).after args ds = s
      rw [hdeliver, ih.1]
    · rw [Client.taken, hret]
      exact if_pos rfl

/-- Its value is known, whatever arrives. -/
private theorem ret?_after_of_returned {s : Client} {ret : CInt} (h : s.pc = .returned ret)
    (ds : List Datagram) : (s.after args ds).ret? = some ret := by
  rw [(after_of_returned h ds).1, Client.ret?, h]

private theorem waitsEndProperly_of_returned {s : Client} {ret : CInt} (h : s.pc = .returned ret)
    (ds : List Datagram) : WaitsEndProperly args s ds := by
  rw [WaitsEndProperly, (after_of_returned h ds).2]
  exact List.forall_mem_nil _

private theorem Client.Waiting.taken_cons {s : Client} (h : s.Waiting args) (d : Datagram)
    (ds : List Datagram) : s.taken args (d :: ds) =
      ⟨s.i, d.payload.head?, (s.deliver args d).pc ≠ .recvfrom⟩ ::
        (s.deliver args d).taken args ds := by
  rw [Client.taken, h.ret?_eq, if_neg (by simp)]

/-- Behind the wait of an element comes the wait of the next one, or the end. -/
private theorem Client.Waiting.deliver_cases {s : Client} (h : s.Waiting args) (d : Datagram) :
    ((s.deliver args d).Waiting args ∧ s.i ≤ (s.deliver args d).i) ∨
      (s.deliver args d).pc = .returned 0 := by
  by_cases hd : d.payload.headD s.ptypeRcv = ptypeRcvAck
  · obtain ⟨hwaiting, -, hi, -⟩ := h.deliver_of_eq hd
    exact .inl ⟨hwaiting, hi.ge⟩
  · obtain ⟨hpc, hi, -⟩ := h.deliver_of_ne hd
    split_ifs at hpc with hlt
    · exact .inl ⟨⟨.inl hpc, hi ▸ hlt⟩, hi ▸ Nat.le_succ s.i⟩
    · exact .inr hpc

/-- The value returned is always zero. -/
theorem Client.Waiting.ret?_after {s : Client} (h : s.Waiting args) (ds : List Datagram) :
    (s.after args ds).ret? = none ∨ (s.after args ds).ret? = some 0 := by
  induction ds generalizing s with
  | nil => exact .inl h.ret?_eq
  | cons d ds ih =>
    change ((s.deliver args d).after args ds).ret? = none ∨ _
    rcases h.deliver_cases d with ⟨hwaiting, -⟩ | hpc
    · exact ih hwaiting
    · exact .inr (ret?_after_of_returned hpc ds)

/-- The elements that are waited for are those still to come. -/
private theorem Client.Waiting.le_element {s : Client} (h : s.Waiting args) {ds : List Datagram} :
    ∀ t ∈ s.taken args ds, s.i ≤ t.element := by
  induction ds generalizing s with
  | nil => exact List.forall_mem_nil _
  | cons d ds ih =>
    rw [h.taken_cons]
    refine List.forall_mem_cons.mpr ⟨le_rfl, fun t ht => ?_⟩
    rcases h.deliver_cases d with ⟨hwaiting, hle⟩ | hpc
    · exact hle.trans (ih hwaiting t ht)
    · rw [(after_of_returned hpc ds).2] at ht
      cases ht

/-- Behind a wait that has ended only later elements are waited for. -/
private theorem Client.Waiting.lt_element {s : Client} (h : s.Waiting args) {d : Datagram}
    (hd : d.payload.headD s.ptypeRcv ≠ ptypeRcvAck) {ds : List Datagram} :
    ∀ t ∈ (s.deliver args d).taken args ds, s.i + 1 ≤ t.element := by
  obtain ⟨hpc, hi, -, -⟩ := h.deliver_of_ne hd
  split_ifs at hpc with hlt
  · exact hi ▸ Client.Waiting.le_element ⟨.inl hpc, hi ▸ hlt⟩
  · rw [(after_of_returned hpc ds).2]
    exact List.forall_mem_nil _

/-! ### All replies -/

private theorem Client.Waiting.waitsEndProperly_cons_iff {s : Client} (h : s.Waiting args)
    {d : Datagram} {ds : List Datagram} : WaitsEndProperly args s (d :: ds) ↔
      ((s.deliver args d).pc ≠ .recvfrom ↔ d.payload.head? ≠ some ptypeRcvAck) ∧
        WaitsEndProperly args (s.deliver args d) ds := by
  rw [WaitsEndProperly, h.taken_cons, List.forall_mem_cons, decide_eq_true_iff]
  rfl

/-- `ptype_rcv` holds `PTYPE_RCV_ACK` behind one, and behind an empty datagram if it did
before. -/
private theorem of_headD_eq {d : Datagram} {b : Byte} (h : d.payload.headD b = ptypeRcvAck) :
    d.payload.head? = some ptypeRcvAck ∨ d.payload = [] ∧ b = ptypeRcvAck := by
  rcases d with ⟨sender, _ | ⟨x, xs⟩⟩
  · exact .inr ⟨rfl, h⟩
  · exact .inl (congrArg some h)

private theorem of_headD_ne {d : Datagram} {b : Byte} (h : d.payload.headD b ≠ ptypeRcvAck) :
    d.payload.head? ≠ some ptypeRcvAck ∧ (d.payload = [] → b ≠ ptypeRcvAck) := by
  rcases d with ⟨sender, _ | ⟨x, xs⟩⟩
  · exact ⟨by simp, fun _ => h⟩
  · exact ⟨fun hack => h (Option.some.inj hack), by simp⟩

/-- **Calls that are still waiting.** They are those with fewer final replies than there are
elements, and no stale acknowledgement among the replies. -/
theorem Client.Waiting.stillWaiting_iff {s : Client} (h : s.Waiting args) (ds : List Datagram) :
    (WaitsEndProperly args s ds ∧ (s.after args ds).ret? = none) ↔
      (finalReplies ds).length < args.fiberArray.length - s.i ∧ NoStaleAck s.ptypeRcv ds := by
  induction ds generalizing s with
  | nil =>
    refine iff_of_true ⟨List.forall_mem_nil _, h.ret?_eq⟩ ⟨?_, trivial⟩
    exact Nat.sub_pos_of_lt h.lt
  | cons d ds ih =>
    have hafter : s.after args (d :: ds) = (s.deliver args d).after args ds := rfl
    rw [h.waitsEndProperly_cons_iff, hafter, NoStaleAck]
    by_cases hd : d.payload.headD s.ptypeRcv = ptypeRcvAck
    · obtain ⟨hwaiting, hpc, hi, hptype⟩ := h.deliver_of_eq hd
      rcases of_headD_eq hd with hack | ⟨hempty, hstale⟩
      · have hrest := ih hwaiting
        have hne : d.payload ≠ [] := fun hempty => by simp [hempty] at hack
        rw [hi, hptype] at hrest
        rw [and_assoc, hrest, finalReplies_cons_of_rcvAck hack, hd]
        simp [hpc, hack, hne]
      · -- an empty datagram, and `ptype_rcv` still holds `PTYPE_RCV_ACK`
        refine iff_of_false (fun hleft => ?_) fun hright => hright.2.1 hempty hstale
        exact hleft.1.1.mpr (by simp [hempty]) hpc
    · obtain ⟨hpc, hi, hptype, hover⟩ := h.deliver_of_ne hd
      obtain ⟨hfinal, hfresh⟩ := of_headD_ne hd
      rw [finalReplies_cons_of_ne hfinal, List.length_cons]
      split_ifs at hpc with hlt
      · have hrest := ih ⟨.inl hpc, hi ▸ hlt⟩
        rw [hi, hptype] at hrest
        -- one reply and one element less
        have hlen : (finalReplies ds).length + 1 < args.fiberArray.length - s.i ↔
            (finalReplies ds).length < args.fiberArray.length - (s.i + 1) := by omega
        rw [and_assoc, and_iff_right (iff_of_true hover hfinal), hrest, hlen,
          and_iff_right hfresh]
      · -- the call has returned
        have hret : ((s.deliver args d).after args ds).ret? = some 0 :=
          ret?_after_of_returned hpc ds
        refine iff_of_false (fun hleft => ?_) fun hright => ?_
        · rw [hret] at hleft
          cases hleft.2
        · exact absurd hright.1 (by omega)

/-- The acknowledgements behind a reply. -/
private theorem Client.Waiting.allAcked_cons_iff {s : Client} (h : s.Waiting args) {d : Datagram}
    {ds : List Datagram} {i : ℕ} :
    AllAcked args s (d :: ds) i ↔ ∀ j, i ≤ j → j < args.fiberArray.length →
      (s.i = j ∧ d.payload.head? = some ptypeCmdAck ∧ (s.deliver args d).pc ≠ .recvfrom) ∨
        ⟨j, some ptypeCmdAck, true⟩ ∈ (s.deliver args d).taken args ds := by
  refine forall_congr' fun j => forall₂_congr fun _ _ => ?_
  rw [h.taken_cons, List.mem_cons, TakenReply.mk.injEq, eq_comm (a := j), eq_comm (a := some _),
    eq_comm (a := true), decide_eq_true_iff]

/-- A reply that ends the wait acknowledges the element it is for, and no other. -/
theorem allAcked_step {i n : ℕ} {d : Datagram} {ended : Prop} {later : List TakenReply}
    (hi : i < n) (hover : ended) (hlater : ∀ t ∈ later, i + 1 ≤ t.element) :
    (∀ j, i ≤ j → j < n → (i = j ∧ d.payload.head? = some ptypeCmdAck ∧ ended) ∨
        ⟨j, some ptypeCmdAck, true⟩ ∈ later) ↔
      d.payload.head? = some ptypeCmdAck ∧
        ∀ j, i + 1 ≤ j → j < n → ⟨j, some ptypeCmdAck, true⟩ ∈ later := by
  constructor
  · refine fun h => ⟨?_, fun j hij hj => ?_⟩
    · rcases h i le_rfl hi with ⟨-, hack, -⟩ | hmem
      · exact hack
      · exact absurd (hlater _ hmem) (Nat.not_succ_le_self i)
    · rcases h j (Nat.le_of_succ_le hij) hj with ⟨rfl, -⟩ | hmem
      · exact absurd hij (Nat.not_succ_le_self i)
      · exact hmem
  · rintro ⟨hack, h⟩ j hij hj
    rcases hij.eq_or_lt with rfl | hlt
    · exact .inl ⟨rfl, hack, hover⟩
    · exact .inr (h j hlt hj)

/-- **Calls that return with every element acknowledged.** They are those that get a `PTYPE_CMD_ACK`
as the final reply for every element; an empty datagram does no harm to them. -/
theorem Client.Waiting.acked_iff {s : Client} (h : s.Waiting args) (ds : List Datagram) :
    (WaitsEndProperly args s ds ∧ (s.after args ds).ret? = some 0 ∧ AllAcked args s ds s.i) ↔
      args.fiberArray.length - s.i ≤ (finalReplies ds).length ∧
        ∀ d ∈ (finalReplies ds).take (args.fiberArray.length - s.i),
          d.payload.head? = some ptypeCmdAck := by
  induction ds generalizing s with
  | nil =>
    refine iff_of_false (fun hleft => ?_) fun hright => ?_
    · have hret : s.ret? = some 0 := hleft.2.1
      rw [h.ret?_eq] at hret
      cases hret
    · exact absurd hright.1 (not_le.mpr (Nat.sub_pos_of_lt h.lt))
  | cons d ds ih =>
    have hafter : s.after args (d :: ds) = (s.deliver args d).after args ds := rfl
    -- the elements that still need a final reply, the awaited one among them
    obtain ⟨m, hm⟩ : ∃ m, args.fiberArray.length - s.i = m + 1 :=
      Nat.exists_eq_add_one.mpr (Nat.sub_pos_of_lt h.lt)
    rw [h.waitsEndProperly_cons_iff, hafter, h.allAcked_cons_iff]
    by_cases hd : d.payload.headD s.ptypeRcv = ptypeRcvAck
    · obtain ⟨hwaiting, hpc, hi, -⟩ := h.deliver_of_eq hd
      rcases of_headD_eq hd with hack | ⟨hempty, -⟩
      · have hrest := ih hwaiting
        rw [hi] at hrest
        rw [finalReplies_cons_of_rcvAck hack, ← hrest]
        simp [hpc, hack, AllAcked]
      · refine iff_of_false (fun hleft => ?_) fun hright => ?_
        · -- an empty datagram leaves the last byte, and is no final reply
          exact hleft.1.1.mpr (by simp [hempty]) hpc
        · have hfinal : d.payload.head? ≠ some ptypeRcvAck := by simp [hempty]
          rw [finalReplies_cons_of_ne hfinal, hm, List.take_succ_cons] at hright
          have hhead := hright.2 d List.mem_cons_self
          simp [hempty] at hhead
    · obtain ⟨hpc, hi, -, hover⟩ := h.deliver_of_ne hd
      obtain ⟨hfinal, -⟩ := of_headD_ne hd
      rw [finalReplies_cons_of_ne hfinal, List.length_cons, hm, List.take_succ_cons,
        List.forall_mem_cons, allAcked_step h.lt hover (h.lt_element hd),
        and_iff_right (iff_of_true hover hfinal), Nat.add_le_add_iff_right]
      split_ifs at hpc with hlt
      · -- this one is done with, and the rest is about the next element
        have hrest := ih ⟨.inl hpc, hi ▸ hlt⟩
        have hm' : args.fiberArray.length - (s.i + 1) = m := by omega
        rw [hi, hm'] at hrest
        constructor
        · rintro ⟨hends, hret, hack, hacked⟩
          obtain ⟨hle, hall⟩ := hrest.mp ⟨hends, hret, hacked⟩
          exact ⟨hle, hack, hall⟩
        · rintro ⟨hle, hack, hall⟩
          obtain ⟨hends, hret, hacked⟩ := hrest.mpr ⟨hle, hall⟩
          exact ⟨hends, hret, hack, hacked⟩
      · -- the last element
        obtain rfl : m = 0 := by omega
        constructor
        · rintro ⟨-, -, hack, -⟩
          exact ⟨Nat.zero_le _, hack, by simp⟩
        · rintro ⟨-, hack, -⟩
          exact ⟨waitsEndProperly_of_returned hpc ds, ret?_after_of_returned hpc ds, hack,
            fun j hij hj => absurd hj (by omega)⟩

/-- The call starts with the wait of the first element. -/
private theorem waiting_start (h : 0 < args.fiberArray.length) (ptypeRcv : Byte) :
    (Client.start args ptypeRcv).Waiting args := by
  refine ⟨.inl ?_, ?_⟩
  · rw [Client.start, pc_next, if_pos h]
  · rwa [Client.start, i_next]

/-- **When the client reports truthfully.** For every array, every value of the uninitialised
`ptype_rcv` and every sequence of replies: each wait ends at the first reply that is not
`PTYPE_RCV_ACK` and the value returned is zero exactly if each of these is `PTYPE_CMD_ACK`, if and
only if the replies are such that either every element is acknowledged, or the call is still
waiting and has not missed an empty datagram. -/
theorem reportsTruthfully_iff (args : ClientArgs) (ptypeRcv : Byte) (replies : List Datagram) :
    ReportsTruthfully args ptypeRcv replies ↔
      RepliesFit args.fiberArray.length ptypeRcv replies := by
  rw [ReportsTruthfully, RepliesFit]
  rcases Nat.eq_zero_or_pos args.fiberArray.length with hzero | hpos
  · -- there is nothing to wait for
    have hpc : (Client.start args ptypeRcv).pc = .returned 0 := by
      rw [Client.start, pc_next, if_neg hzero.not_gt]
    refine iff_of_true ⟨waitsEndProperly_of_returned hpc replies, fun ret hret => ?_⟩
      (.inl ⟨hzero.le.trans (Nat.zero_le _), ?_⟩)
    · rw [ret?_after_of_returned hpc] at hret
      obtain rfl := Option.some.inj hret
      exact iff_of_true rfl fun j _ hj => absurd hj (hzero ▸ Nat.not_lt_zero j)
    · rw [hzero, List.take_zero]
      exact List.forall_mem_nil _
  · -- from the first wait on, the two cases of the result are settled apart
    have hstart := waiting_start hpos ptypeRcv
    have hi : (Client.start args ptypeRcv).i = 0 := i_next _ _
    have hptype : (Client.start args ptypeRcv).ptypeRcv = ptypeRcv := ptypeRcv_next _ _
    have hacked := hstart.acked_iff replies
    have hwaits := hstart.stillWaiting_iff replies
    rw [hi, Nat.sub_zero] at hacked hwaits
    rw [hptype] at hwaits
    rw [← hacked, ← hwaits, ← and_or_left]
    refine and_congr_right fun _ => ?_
    rcases hstart.ret?_after replies with hret | hret
    · simp [hret]
    · simp [hret]

/-- A call for one element whose server answers `PTYPE_ERROR`. -/
def oneElement : ClientArgs := { twoElements with fiberArray := [⟨101, 1, 0, 50⟩] }

/-- A reply of the server at `"/s"`. -/
def replyOf (payload : List Byte) : Datagram := ⟨boundAt [47, 115], payload⟩

/-- The value is zero on `PTYPE_ERROR`, and an empty datagram behind `PTYPE_RCV_ACK` does not end
the wait. -/
theorem not_reportsTruthfully_error :
    ((Client.start oneElement 0).after oneElement [replyOf [ptypeError]]).ret? = some 0 ∧
      ¬ ReportsTruthfully oneElement 0 [replyOf [ptypeError]] ∧
      ¬ ReportsTruthfully oneElement 0 [replyOf [ptypeRcvAck], replyOf []] := by
  refine ⟨by decide, fun h => ?_, fun h => ?_⟩
  · have hacked := (h.2 0 (by decide)).mp rfl 0 le_rfl (by decide)
    revert hacked
    decide
  · have hends := h.1 ⟨0, none, false⟩ (by decide)
    revert hends
    decide

end Libbaalue
