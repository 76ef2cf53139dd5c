import Libbaalue.Fiber.Element
import Libbaalue.Foundations.CallMachine
import Libbaalue.Net.Datagram

/-!
# `baa_set_schedule_props_via_server`

The scheduling client as the machine of its calls. One `sockaddr_un` serves both the requests
and the replies: `recvfrom` writes the sender of a reply over the address of the server, and
`CLEAN_SCHED_PROPS_CLIENT` sets back its length only.

`sendto_path_of_along`: as long as the replies consumed before the last element come from the
socket at `kdo_f`, every request goes there.

The invariant is in three parts, each kept by every answer of its own accord or under a condition:
what the destination still holds (`Client.Addressed`), what is packed (`Client.Packed`), and at
which element the call waits. Only the first depends on who answers. A datagram from somewhere else
is taken for a reply like any other, and the requests after it go to where it came from; the last
part has the run.
-/

namespace Libbaalue

open Block

/-! ### The machine -/

/-- The arguments of a call, and the upper halves `junk i k` of the registers it passes the
`k`-th integer of element `i` in. -/
structure ClientArgs where
  abi : Abi
  junk : ℕ → ℕ → CInt
  fiberArray : List FiberElement
  /-- The path of the server, a C string. -/
  kdoF : List Byte

/-- The calls of the client. -/
inductive ClientPc
  | sendto
  | recvfrom
  | returned (ret : CInt)
  deriving DecidableEq, Repr

/-- The variables of the client. -/
structure Client where
  pc : ClientPc
  i : ℕ
  buf : List Byte
  numPacked : CInt
  addr : AddrArg
  ptypeRcv : Byte
  deriving DecidableEq

/-- A call of the client with its arguments. Of the buffer only the bytes that are sent are part of
it, of the address the whole `struct sockaddr_un` with its length. -/
inductive ClientCall
  | sendto (payload : List Byte) (addr : AddrArg)
  | recvfrom (addr : AddrArg)
  | returned (ret : CInt)
  deriving DecidableEq, Repr

/-- What the calls come to: the bytes sent, the datagram received (`none` is -1). A datagram comes
with the address of its sender, whoever that is. -/
structure ClientAnswer where
  sent : ℤ
  received : Option Datagram
  deriving DecidableEq, Repr

/-- The packing of an element stays inside the buffer. -/
theorem isSome_baaPack_schedProps (abi : Abi) (junk : ℕ → CInt) (fiber : FiberElement) :
    (baaPack abi (List.replicate baaMaxLenMsg 0) schedPropsFmt
      (schedPropsArgs abi junk fiber)).isSome := by
  rw [baaPack_schedProps]
  rfl

variable (args : ClientArgs)

/-- The head of the loop at element `i`: leave it, or clean up and pack the element. -/
def Client.next (s : Client) (i : ℕ) : Client :=
  match args.fiberArray[i]? with
  | none => { s with pc := .returned 0, i := i }
  | some fiber =>
    let packed := (baaPack args.abi (List.replicate baaMaxLenMsg 0) schedPropsFmt
      (schedPropsArgs args.abi (args.junk i) fiber)).get (isSome_baaPack_schedProps ..)
    -- the macro sets back the length of the address, not the path in it
    { s with
      pc := .sendto, i := i, buf := packed.1, numPacked := packed.2, addr := s.addr.reset }

/-- The entry of the call: the address of the server, cut by `strncpy`. -/
def Client.start (ptypeRcv : Byte) : Client :=
  Client.next args ⟨.sendto, 0, List.replicate baaMaxLenMsg 0, 0,
    ⟨overlay (List.replicate sizeofSunPath 0) (args.kdoF.take (sizeofSunPath - 1)),
      sizeofSockaddrUn⟩, ptypeRcv⟩ 0

/-- The `switch` on the reply: wait for another one, or go on with the next element. -/
def Client.dispatch (s : Client) : Client :=
  if s.ptypeRcv = ptypeError ∨ s.ptypeRcv = ptypeReset then s.next args (s.i + 1)
  else if s.ptypeRcv = ptypeCmdAck then s.next args (s.i + 1)
  else if s.ptypeRcv = ptypeRcvAck then { s with pc := .recvfrom }
  -- the `default` logs and goes on, too
  else s.next args (s.i + 1)

/-- What follows the `recvfrom`: a datagram without a byte leaves `ptype_rcv` as it was. -/
def Client.afterRecv (s : Client) : Option Datagram → Client
  | none => { s with pc := .returned (-1) }
  | some d => Client.dispatch args
      { s with addr := s.addr.receive d.sender, ptypeRcv := d.payload.headD s.ptypeRcv }

/-- What follows the `sendto`. -/
def Client.afterSend (s : Client) (sent : ℤ) : Client :=
  if sent ≠ s.numPacked.toInt then { s with pc := .returned (-1) } else { s with pc := .recvfrom }

/-- The client as the machine of its two calls. When it has returned, nothing that is answered
changes it any more. -/
def baaSetSchedulePropsViaServer : CallMachine Client ClientCall ClientAnswer where
  call s :=
    match s.pc with
    | .sendto => .sendto (s.buf.take s.numPacked.toNat) s.addr
    | .recvfrom => .recvfrom s.addr
    | .returned ret => .returned ret
  resume s a :=
    match s.pc with
    | .sendto => s.afterSend a.sent
    | .recvfrom => s.afterRecv args a.received
    | .returned _ => s

/-! ### The loop -/

variable {args}

/-- The loop is left behind the last element. -/
private theorem next_of_le (s : Client) {i : ℕ} (h : args.fiberArray.length ≤ i) :
    s.next args i = { s with pc := .returned 0, i := i } := by
  rw [Client.next, List.getElem?_eq_none h]

/-- The request for an element. -/
theorem next_of_getElem? (s : Client) {i : ℕ} {fiber : FiberElement}
    (h : args.fiberArray[i]? = some fiber) :
    s.next args i =
      { s with
        pc := .sendto, i := i
        buf := schedPropsMsg args.abi (args.junk i) fiber ++ List.replicate 83 0
        numPacked := 17, addr := s.addr.reset } := by
  simp only [Client.next, h, baaPack_schedProps, Option.get_some]

@[simp]
theorem i_next (s : Client) (i : ℕ) : (s.next args i).i = i := by
  unfold Client.next
  split <;> rfl

theorem pc_next (s : Client) (i : ℕ) :
    (s.next args i).pc = if i < args.fiberArray.length then .sendto else .returned 0 := by
  split_ifs with h
  · rw [next_of_getElem? s (List.getElem?_eq_getElem h)]
  · rw [next_of_le s (Nat.le_of_not_lt h)]

/-- Everything but `PTYPE_RCV_ACK` ends the wait. -/
theorem dispatch_eq (s : Client) :
    s.dispatch args =
      if s.ptypeRcv = ptypeRcvAck then { s with pc := .recvfrom } else s.next args (s.i + 1) := by
  by_cases h : s.ptypeRcv = ptypeRcvAck
  · simp [Client.dispatch, h, ptypeRcvAck, ptypeError, ptypeReset, ptypeCmdAck]
  · simp [Client.dispatch, h]

/-! ### Where the requests go -/

/-- What of the destination is in place: the server's path while another request is to come,
with room for all of it when the request is due. -/
structure Client.Addressed (args : ClientArgs) (s : Client) : Prop where
  of_sendto : s.pc = .sendto → boundAt args.kdoF <+: s.addr.sunPath ∧ s.addr.len = sizeofSockaddrUn
  of_recvfrom : s.pc = .recvfrom → s.i + 1 < args.fiberArray.length →
    boundAt args.kdoF <+: s.addr.sunPath

/-- The answers that leave the destination alone: every datagram consumed in the wait of an
element other than the last comes from the socket at `kdo_f`, or from no named socket. -/
def RepliesFromServer (args : ClientArgs) (s : Client) (a : ClientAnswer) : Prop :=
  s.pc = .recvfrom → s.i + 1 < args.fiberArray.length → ∀ d, a.received = some d →
    d.sender = boundAt args.kdoF ∨ d.sender = unnamed

/-- Receiving from the path that is already there, or from nobody, leaves the path there. -/
theorem AddrArg.sunPath_receive {a : AddrArg} {sender path : List Byte}
    (h : boundAt path <+: a.sunPath) (hsender : sender = boundAt path ∨ sender = unnamed) :
    (a.receive sender).sunPath = a.sunPath := by
  rcases hsender with rfl | rfl
  · obtain ⟨rest, hrest⟩ := (List.take_prefix (a.len - sunPathOffset) (boundAt path)).trans h
    have hne : boundAt path ≠ unnamed := by simp [boundAt, unnamed]
    rw [AddrArg.receive, if_neg hne, ← hrest]
    exact overlay_append_self _ _
  · rw [AddrArg.receive, if_pos rfl]

/-- The loop head keeps the destination for the request it makes. -/
theorem Client.Addressed.next {s : Client} {i : ℕ}
    (h : i < args.fiberArray.length → boundAt args.kdoF <+: s.addr.sunPath) :
    (s.next args i).Addressed args := by
  rcases lt_or_ge i args.fiberArray.length with hlt | hge
  · rw [next_of_getElem? s (List.getElem?_eq_getElem hlt)]
    exact ⟨fun _ => ⟨h hlt, rfl⟩, by simp⟩
  · rw [next_of_le s hge]
    exact ⟨by simp, by simp⟩

/-- What `strncpy` leaves in `sun_path`: the path and its NUL, when they fit. -/
theorem boundAt_prefix_strncpy {path : List Byte} (hfits : path.length < sizeofSunPath) :
    boundAt path <+:
      overlay (List.replicate sizeofSunPath 0) (path.take (sizeofSunPath - 1)) := by
  have htake : path.take (sizeofSunPath - 1) = path :=
    List.take_of_length_le (Nat.le_sub_one_of_lt hfits)
  obtain ⟨n, hn⟩ : ∃ n, sizeofSunPath - path.length = n + 1 :=
    ⟨sizeofSunPath - path.length - 1, by omega⟩
  rw [htake, overlay_of_le (by rw [List.length_replicate]; exact hfits.le), List.drop_replicate,
    hn, List.replicate_succ]
  exact ⟨List.replicate n 0, List.append_assoc ..⟩

/-- **One step.** The destination survives every answer the condition admits. -/
theorem Client.Addressed.resume {s : Client} {a : ClientAnswer} (h : s.Addressed args)
    (ha : RepliesFromServer args s a) :
    ((baaSetSchedulePropsViaServer args).resume s a).Addressed args := by
  rcases hpc : s.pc with _ | _ | ret
  -- a `sendto` leaves the address alone, so it is in place for the wait
  · simp only [baaSetSchedulePropsViaServer, hpc, Client.afterSend]
    split_ifs
    · exact ⟨by simp, by simp⟩
    · exact ⟨by simp, fun _ _ => (h.of_sendto hpc).1⟩
  · simp only [baaSetSchedulePropsViaServer, hpc]
    rcases hrecv : a.received with _ | d
    · exact ⟨by simp [Client.afterRecv], by simp [Client.afterRecv]⟩
    · -- the sender of the reply is written over the path of the server
      have hkeep (hlt : s.i + 1 < args.fiberArray.length) :
          boundAt args.kdoF <+: (s.addr.receive d.sender).sunPath := by
        have hpath := h.of_recvfrom hpc hlt
        rwa [AddrArg.sunPath_receive hpath (ha hpc hlt d hrecv)]
      rw [Client.afterRecv, dispatch_eq]
      split_ifs
      · exact ⟨by simp, fun _ => hkeep⟩
      · exact Client.Addressed.next hkeep
  · simpa only [baaSetSchedulePropsViaServer, hpc] using h

/-! ### What the client is about to do -/

/-- What a client is about to send is the record of its element, wherever it sends it: none of
the answers gets into the buffer. -/
structure Client.Packed (args : ClientArgs) (s : Client) : Prop where
  packed : s.pc = .sendto → ∃ fiber, args.fiberArray[s.i]? = some fiber ∧
    s.buf.take s.numPacked.toNat = schedPropsMsg args.abi (args.junk s.i) fiber ∧
    s.numPacked = 17

theorem Client.Packed.next (s : Client) (i : ℕ) : (s.next args i).Packed args := by
  rcases lt_or_ge i args.fiberArray.length with hlt | hge
  · rw [next_of_getElem? s (List.getElem?_eq_getElem hlt)]
    exact ⟨fun _ => ⟨_, List.getElem?_eq_getElem hlt, List.take_left' (length_schedPropsMsg ..),
      rfl⟩⟩
  · rw [next_of_le s hge]
    exact ⟨by simp⟩

/-- Every answer keeps it, those of strangers too. -/
theorem Client.Packed.resume {s : Client} (h : s.Packed args) (a : ClientAnswer) :
    ((baaSetSchedulePropsViaServer args).resume s a).Packed args := by
  rcases hpc : s.pc with _ | _ | ret
  · simp only [baaSetSchedulePropsViaServer, hpc, Client.afterSend]
    split_ifs
    · exact ⟨by simp⟩
    · exact ⟨by simp⟩
  · simp only [baaSetSchedulePropsViaServer, hpc]
    rcases a.received with _ | d
    · exact ⟨by simp [Client.afterRecv]⟩
    · rw [Client.afterRecv, dispatch_eq]
      split_ifs
      · exact ⟨by simp⟩
      · exact Client.Packed.next _ _
  · simpa only [baaSetSchedulePropsViaServer, hpc] using h

/-- The invariant of the client: where it sends, what it has packed, and that it waits for an
element of the array. It is kept by every answer that `RepliesFromServer` admits. -/
structure Client.Ok (args : ClientArgs) (s : Client) : Prop extends s.Addressed args,
    s.Packed args where
  waits : s.pc = .recvfrom → s.i < args.fiberArray.length

/-- A client at the head of its loop. -/
theorem Client.Ok.next {s : Client} {i : ℕ}
    (h : i < args.fiberArray.length → boundAt args.kdoF <+: s.addr.sunPath) :
    (s.next args i).Ok args := by
  refine ⟨Client.Addressed.next h, Client.Packed.next s i, fun hwait => ?_⟩
  rw [pc_next] at hwait
  split_ifs at hwait

/-- Every request goes to the given path. -/
def SendsTo (path : List Byte) : ClientCall → Prop
  | .sendto _ addr => addr.path = path
  | _ => True

instance (path : List Byte) : DecidablePred (SendsTo path)
  | .sendto _ addr => inferInstanceAs (Decidable (addr.path = path))
  | .recvfrom _ | .returned _ => inferInstanceAs (Decidable True)

/-- **Requests go to the named server** in every run in which the datagrams consumed before the last
element come from it. The condition looks at the state before a step and at the datagram, and at
nothing that is sent. -/
theorem sendto_path_of_along (args : ClientArgs) (ptypeRcv : Byte)
    (hfits : args.kdoF.length < sizeofSunPath) (hnul : (0 : Byte) ∉ args.kdoF)
    (answers : List ClientAnswer)
    (h : (baaSetSchedulePropsViaServer args).Along (RepliesFromServer args)
      (.start args ptypeRcv) answers) :
    ∀ e ∈ (baaSetSchedulePropsViaServer args).trace (.start args ptypeRcv) answers,
      SendsTo args.kdoF e.1 := by
  refine CallMachine.forall_mem_trace (fun s a hs ha => hs.resume ha) (fun s hs => ?_)
    (Client.Addressed.next fun _ => boundAt_prefix_strncpy hfits) h
  rcases hpc : s.pc with _ | _ | ret <;> simp only [baaSetSchedulePropsViaServer, hpc, SendsTo]
  obtain ⟨hpath, hlen⟩ := hs.of_sendto hpc
  exact AddrArg.path_eq_of_prefix hnul hpath (by
    rwa [hlen, sizeofSockaddrUn, Nat.add_sub_cancel_left])

/-- A call for two elements with the server at `"/s"`. -/
def twoElements : ClientArgs where
  abi := .lp64
  junk _ _ := 0
  fiberArray := [⟨101, 1, 0, 50⟩, ⟨102, 1, 1, 40⟩]
  kdoF := [47, 115]

/-- The answers of a run in which the first element is acknowledged from a given path. -/
def ackedFrom (path : List Byte) : List ClientAnswer :=
  [⟨17, none⟩, ⟨0, some ⟨boundAt path, [ptypeCmdAck]⟩⟩, ⟨17, none⟩]

/-- The run in which the server at `"/s"` answers. -/
theorem sendto_path_acked_from_server :
    ((baaSetSchedulePropsViaServer twoElements).trace (.start twoElements 0)
      (ackedFrom [47, 115])).length = 3 ∧
    ∀ e ∈ (baaSetSchedulePropsViaServer twoElements).trace (.start twoElements 0)
        (ackedFrom [47, 115]),
      SendsTo [47, 115] e.1 :=
  ⟨rfl, sendto_path_of_along twoElements 0 (by decide) (by decide) _
    ⟨fun h => absurd h (by decide), fun _ _ d hd => .inl (Option.some.inj hd ▸ rfl),
      fun h => absurd h (by decide), trivial⟩⟩

/-- An acknowledgement from a socket at `"/x"` sends the second request there. -/
theorem not_sendto_path_acked_from_stranger :
    ¬ ∀ e ∈ (baaSetSchedulePropsViaServer twoElements).trace (.start twoElements 0)
        (ackedFrom [47, 120]),
      SendsTo [47, 115] e.1 := by
  decide

end Libbaalue
