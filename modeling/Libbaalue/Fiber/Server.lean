import Libbaalue.Fiber.ScheduleProps
import Libbaalue.Foundations.CallMachine
import Libbaalue.Net.Datagram

/-!
# `baa_schedule_server_th`

The scheduling server as the machine of its calls: it receives a datagram, looks at the first
byte of its zeroed buffer, acknowledges, applies the four fields, acknowledges again and prints
the result; `continue` is `Server.loop`. The number of bytes received is stored and never read.

A turn of the loop is described once, for every datagram (`round_request`,
`round_of_afterRecv_eq_loop`); what the server does to whole sequences of datagrams follows by
induction on the turns. Two results say exactly how far it can be trusted: it acts only on
complete requests if and only if no empty and no short request arrives (`actsOnComplete_iff`),
and its replies tell the outcome of the scheduling calls if and only if there is nothing to tell
(`reply_tells_outcome_iff`).

Both conditions are on the environment alone, on what is sent to the server and on what the kernel
makes of its calls, and both results are equivalences: the server is not assumed to be used as it
was meant, and the sequences on which it is not trusted are exactly those named. The turns are those
of a thread that has run for any time, from any loop head.
-/

namespace Libbaalue

open Block

/-! ### The machine -/

/-- The calls of the server thread; each place is named for the call that is made there. -/
inductive ServerPc
  | recvfrom
  | errorTooLong
  | rcvAck
  | setScheduleProps
  | error
  | cmdAck
  | printSchedInfos
  deriving DecidableEq, Repr

/-- The variables of the server thread. Those that the head of the loop sets back are among them,
and so are `protocol_type` and `err`, which it leaves. -/
structure Server where
  pc : ServerPc
  buf : MsgBuf
  vars : UnpackVars
  numUnpacked : ℤ
  numRead : ℤ
  numSend : ℤ
  addr : AddrArg
  err : CInt
  deriving DecidableEq

/-- A call of the server thread with its arguments. A reply is one byte, its protocol type. -/
inductive ServerCall
  | recvfrom
  | sendto (ptype : Byte) (addr : AddrArg)
  | setScheduleProps (fiber : FiberElement)
  | printSchedInfos (tid : CInt)
  deriving DecidableEq, Repr

/-- What the calls come to: the datagram received (`none` is -1), the bytes sent, the outcomes
of the scheduling calls. -/
structure ServerAnswer where
  received : Option Datagram
  sent : ℤ
  outcome : SchedOutcome
  deriving DecidableEq, Repr

variable (plat : Platform)

/-- The head of the loop: `CLEAN_SCHED_PROPS_SERVER`. It sets back all variables but `protocol_type`
and `err`. -/
def Server.loop (s : Server) : Server :=
  { s with
    pc := .recvfrom, buf := .zero
    vars := { s.vars with fiberElement := zeroFiberElement plat.abi }
    numUnpacked := 0, numRead := 0, numSend := 0, addr := .zero }

/-- The server thread when it enters its loop. -/
def Server.start : Server :=
  Server.loop plat ⟨.recvfrom, .zero, ⟨0, []⟩, 0, 0, 0, .zero, 0⟩

/-- The element in `fiber_element`. -/
def Server.fiber (s : Server) : FiberElement := .ofImage plat s.vars.fiberElement

variable {plat} in
/-- The unpacking of a message buffer stays inside the buffer. -/
theorem isSome_baaUnpack_schedProps (buf : MsgBuf) :
    (baaUnpack plat.abi buf.bytes schedPropsFmt (schedPropsDests plat.abi)).isSome := by
  rw [baaUnpack_schedProps _ (buf.length_bytes ▸ by decide)]
  rfl

/-- Dispatch on the first byte of the buffer. -/
def Server.dispatch (s : Server) : Server :=
  -- the source looks at the buffer, not at the number of bytes received
  if s.buf.bytes.getD 0 0 = ptypeSchedProps then
    let unpacked := (baaUnpack plat.abi s.buf.bytes schedPropsFmt (schedPropsDests plat.abi)).get
      (isSome_baaUnpack_schedProps s.buf)
    let s := { s with
      vars := s.vars.storeAll plat unpacked.1, numUnpacked := unpacked.2.toInt }
    if s.numUnpacked > (baaMaxLenMsg : ℤ) then { s with pc := .errorTooLong }
    else { s with pc := .rcvAck }
  else s.loop plat

/-- What follows the `recvfrom`. -/
def Server.afterRecv (s : Server) : Option Datagram → Server
  -- a failed `recvfrom` is a timeout: `continue`
  | none => s.loop plat
  | some d => Server.dispatch plat { s with
      buf := s.buf.receive d.payload
      numRead := (min d.payload.length baaMaxLenMsg : ℕ)
      addr := s.addr.receive d.sender }

/-- What follows the `baa_set_schedule_props`. -/
def Server.afterProps (s : Server) (outcome : SchedOutcome) : Server :=
  let s := { s with err := (baaSetScheduleProps [s.fiber plat] fun _ => outcome).ret }
  if s.err ≠ 0 then { s with pc := .error } else { s with pc := .cmdAck }

/-- The server thread as the machine of its calls. It does not end, and looks at no answer but what
it receives and what the scheduling calls come to. -/
def baaScheduleServerTh : CallMachine Server ServerCall ServerAnswer where
  call s :=
    match s.pc with
    | .recvfrom => .recvfrom
    | .errorTooLong | .error => .sendto ptypeError s.addr
    | .rcvAck => .sendto ptypeRcvAck s.addr
    | .setScheduleProps => .setScheduleProps (s.fiber plat)
    | .cmdAck => .sendto ptypeCmdAck s.addr
    | .printSchedInfos => .printSchedInfos (s.fiber plat).kernelTid
  resume s a :=
    match s.pc with
    | .recvfrom => s.afterRecv plat a.received
    | .errorTooLong | .error => Server.loop plat { s with numSend := a.sent }
    | .rcvAck => { s with numSend := a.sent, pc := .setScheduleProps }
    | .setScheduleProps => s.afterProps plat a.outcome
    | .cmdAck => { s with numSend := a.sent, pc := .printSchedInfos }
    | .printSchedInfos => s.loop plat

/-! ### One turn of the loop -/

/-- The environment of one turn: what each call comes to. In a turn no call is made twice, so an
answer for each is enough. -/
abbrev ServerEnv := ServerCall → ServerAnswer

/-- One turn of the loop: its calls, and the state at the next loop head. -/
def serverRound (s : Server) (env : ServerEnv) : List ServerCall × Server :=
  (baaScheduleServerTh plat).round (fun t => t.pc = .recvfrom) env 5 s

/-- The datagram received in a turn. -/
def ServerEnv.received (env : ServerEnv) : Option Datagram := (env .recvfrom).received

/-- The calls of the turn of a request. -/
def requestCalls (d : Datagram) : List ServerCall :=
  [.recvfrom, .sendto ptypeRcvAck (AddrArg.zero.receive d.sender),
    .setScheduleProps (.ofRecord d.payload),
    .sendto ptypeCmdAck (AddrArg.zero.receive d.sender),
    .printSchedInfos (FiberElement.ofRecord d.payload).kernelTid]

/-- The calls of a turn, told from its datagram. It is a request if its first byte says so, and an
empty datagram reads as a zero. -/
def turnCalls (env : ServerEnv) : List ServerCall :=
  match env.received with
  | none => [.recvfrom]
  | some d => if d.payload.getD 0 0 = ptypeSchedProps then requestCalls d else [.recvfrom]

variable {plat}

/-- The length check of the source never fails: the record has 17 bytes. -/
theorem dispatch_of_schedProps {s : Server} (h : s.buf.bytes.getD 0 0 = ptypeSchedProps) :
    s.dispatch plat = { s with
      vars := s.vars.storeAll plat
        ((schedPropsDests plat.abi).zip (schedPropsValues plat.abi (.ofRecord s.buf.bytes)))
      numUnpacked := 17, pc := .rcvAck } := by
  have hlen : 17 ≤ s.buf.bytes.length := s.buf.length_bytes ▸ by decide
  have hunpack := baaUnpack_schedProps plat.abi hlen
  rw [decodeRecord_eq_ofRecord _ h] at hunpack
  simp only [Server.dispatch, if_pos h, hunpack, Option.get_some]
  rfl

/-- The element of a buffer that received a payload: what was not sent reads as zero. -/
theorem ofRecord_receive_zero (payload : List Byte) :
    FiberElement.ofRecord (MsgBuf.zero.receive payload).bytes = .ofRecord payload := by
  simp only [FiberElement.ofRecord, wordAt]
  simp (disch := decide) only [MsgBuf.getD_receive_zero]

variable (plat) in
/-- The state in which the first reply to a request is sent. -/
theorem afterRecv_request (s : Server) {d : Datagram}
    (h : d.payload.getD 0 0 = ptypeSchedProps) :
    ((s.loop plat).afterRecv plat (some d)).pc = .rcvAck ∧
      ((s.loop plat).afterRecv plat (some d)).addr = AddrArg.zero.receive d.sender ∧
      ((s.loop plat).afterRecv plat (some d)).fiber plat = .ofRecord d.payload := by
  have hbyte : (MsgBuf.zero.receive d.payload).bytes.getD 0 0 = ptypeSchedProps := by
    rw [MsgBuf.getD_receive_zero _ (by decide), h]
  refine ⟨?_, ?_, ?_⟩ <;>
    simp only [Server.afterRecv, Server.loop] <;> rw [dispatch_of_schedProps hbyte]
  rw [Server.fiber, ofRecord_receive_zero]
  exact ofImage_storeAll _ _

/-- A datagram of another type is ignored. -/
theorem afterRecv_other (s : Server) {d : Datagram}
    (h : d.payload.getD 0 0 ≠ ptypeSchedProps) :
    (s.loop plat).afterRecv plat (some d) = s.loop plat := by
  have hbyte : (MsgBuf.zero.receive d.payload).bytes.getD 0 0 ≠ ptypeSchedProps := by
    rwa [MsgBuf.getD_receive_zero _ (by decide)]
  exact if_neg hbyte

/-- The server always acknowledges the command: `baa_set_schedule_props` returns 0. -/
theorem afterProps_eq (s : Server) (outcome : SchedOutcome) :
    s.afterProps plat outcome = { s with err := 0, pc := .cmdAck } := by
  simp only [Server.afterProps, ret_baaSetScheduleProps]
  rfl

/-- **The turn of a request.** The two replies, the scheduling calls and the printing are made
whatever the outcomes are, and the loop begins again. -/
theorem round_request (s : Server) {env : ServerEnv} {d : Datagram}
    (hd : env.received = some d) (h : d.payload.getD 0 0 = ptypeSchedProps) :
    ∃ t : Server, serverRound plat (s.loop plat) env = (requestCalls d, t.loop plat) := by
  obtain ⟨hpc, haddr, hfiber⟩ := afterRecv_request plat s h
  -- the calls that follow read the place, the address and the element, and nothing else
  generalize ht : (s.loop plat).afterRecv plat (some d) = t at hpc haddr hfiber
  obtain ⟨pc, buf, vars, numUnpacked, numRead, numSend, addr, err⟩ := t
  obtain rfl : pc = .rcvAck := hpc
  obtain rfl : addr = AddrArg.zero.receive d.sender := haddr
  have hrecv : (baaScheduleServerTh plat).resume (s.loop plat) (env .recvfrom) = _ :=
    (congrArg ((s.loop plat).afterRecv plat) hd).trans ht
  have hcall : (baaScheduleServerTh plat).call (s.loop plat) = .recvfrom := rfl
  have hfib : FiberElement.ofImage plat vars.fiberElement = .ofRecord d.payload := hfiber
  refine ⟨⟨.recvfrom, .zero, vars, 0, 0, 0, .zero, 0⟩, ?_⟩
  simp only [serverRound, CallMachine.round, hcall, hrecv, requestCalls, ← hfib]
  simp [baaScheduleServerTh, afterProps_eq, Server.fiber, Server.loop]

/-- The turn of a timeout, and of a datagram of another type. -/
private theorem round_of_afterRecv_eq_loop (s : Server) {env : ServerEnv}
    (h : (s.loop plat).afterRecv plat env.received = s.loop plat) :
    serverRound plat (s.loop plat) env = ([.recvfrom], s.loop plat) := by
  have hrecv : (baaScheduleServerTh plat).resume (s.loop plat) (env .recvfrom) = s.loop plat := h
  have hcall : (baaScheduleServerTh plat).call (s.loop plat) = .recvfrom := rfl
  simp only [serverRound, CallMachine.round, hcall, hrecv]
  rfl

variable (plat) in
/-- **One turn, for every datagram**: the calls do not depend on what the turns before left
behind. -/
theorem serverRound_eq (s : Server) (env : ServerEnv) :
    ∃ t : Server, serverRound plat (s.loop plat) env = (turnCalls env, t.loop plat) := by
  -- a timeout, or a datagram that is a request or not
  rcases hrecv : env.received with _ | d
  · exact ⟨s, by rw [turnCalls, hrecv, round_of_afterRecv_eq_loop s (hrecv ▸ rfl)]⟩
  · rw [turnCalls, hrecv]
    simp only
    split_ifs with h
    · exact round_request s hrecv h
    · exact ⟨s, round_of_afterRecv_eq_loop s (hrecv ▸ afterRecv_other s h)⟩

/-! ### Sequences of datagrams -/

variable (plat) in
/-- The turns of the server, each with its calls. -/
def serve : Server → List ServerEnv → List (ServerEnv × List ServerCall)
  | _, [] => []
  | s, env :: envs =>
    (env, (serverRound plat s env).1) :: serve (serverRound plat s env).2 envs

/-- The turns of the server, from any loop head. -/
theorem serve_eq (s : Server) (envs : List ServerEnv) :
    serve plat (s.loop plat) envs = envs.map fun env => (env, turnCalls env) := by
  induction envs generalizing s with
  | nil => rfl
  | cons env envs ih =>
    obtain ⟨t, ht⟩ := serverRound_eq plat s env
    rw [serve, ht, ih, List.map_cons]

/-- What holds of every turn is what holds of the turn of every environment. -/
private theorem forall_mem_serve_iff {P : ServerEnv → List ServerCall → Prop}
    (envs : List ServerEnv) :
    (∀ turn ∈ serve plat (.start plat) envs, P turn.1 turn.2) ↔
      ∀ env ∈ envs, P env (turnCalls env) := by
  rw [Server.start, serve_eq]
  simp

/-! ### Complete requests -/

/-- The scheduling system calls behind a call of the server, which are those of
`baa_set_schedule_props` for its one element. -/
def ServerCall.issues (outcome : SchedOutcome) : ServerCall → List SchedCall
  | setScheduleProps fiber => (baaSetScheduleProps [fiber] fun _ => outcome).calls
  | _ => []

/-- A whole `"cLLLL"` record of type `PTYPE_SCHED_PROPS`: its type, and the four numbers behind
it. -/
def CompleteRequest (payload : List Byte) : Prop :=
  payload.head? = some ptypeSchedProps ∧ 17 ≤ payload.length

/-- A turn issues scheduling calls only for a complete request, and only those of the element
whose fields are the bytes of the request. -/
def ActsOnComplete (env : ServerEnv) (calls : List ServerCall) : Prop :=
  ∀ c ∈ calls, ∀ x ∈ c.issues (env c).outcome, ∃ d, env.received = some d ∧
    CompleteRequest d.payload ∧ x ∈ schedCalls (.ofRecord (d.payload.take 17))

/-- The zeroed buffer makes an empty datagram look like `PTYPE_SCHED_PROPS`. -/
theorem getD_zero_eq_schedProps_iff (payload : List Byte) :
    payload.getD 0 0 = ptypeSchedProps ↔
      payload = [] ∨ payload.head? = some ptypeSchedProps := by
  cases payload with
  | nil => simp [ptypeSchedProps]
  | cons b bs => simp

/-- The fields of a record are in its first 17 bytes. -/
private theorem ofRecord_take (payload : List Byte) :
    FiberElement.ofRecord (payload.take 17) = .ofRecord payload := by
  have hget (i : ℕ) (hi : i < 17) : (payload.take 17).getD i 0 = payload.getD i 0 := by
    rw [List.getD_eq_getElem?_getD, List.getElem?_take_of_lt hi, ← List.getD_eq_getElem?_getD]
  simp only [FiberElement.ofRecord, wordAt]
  simp (disch := decide) only [hget]

/-- The scheduling calls of the turn of a request are those of its element. -/
private theorem issues_of_mem_requestCalls {d : Datagram} {c : ServerCall} (hc : c ∈ requestCalls d)
    (outcome : SchedOutcome) {x : SchedCall} (hx : x ∈ c.issues outcome) :
    x ∈ schedCalls (.ofRecord d.payload) := by
  simp only [requestCalls, List.mem_cons, List.not_mem_nil, or_false] at hc
  rcases hc with rfl | rfl | rfl | rfl | rfl
  case inr.inr.inl => simpa [ServerCall.issues, calls_baaSetScheduleProps] using hx
  all_goals exact absurd hx List.not_mem_nil

/-- The turn of a request acts on a complete request if and only if it was one. -/
private theorem actsOnComplete_requestCalls_iff {env : ServerEnv} {d : Datagram}
    (hrecv : env.received = some d) :
    ActsOnComplete env (requestCalls d) ↔ CompleteRequest d.payload := by
  constructor
  · intro hacts
    -- the request's own element is always applied
    have hissue : .setscheduler (FiberElement.ofRecord d.payload).kernelTid
        (FiberElement.ofRecord d.payload).policy (FiberElement.ofRecord d.payload).schedPriority ∈
        (ServerCall.setScheduleProps (.ofRecord d.payload)).issues
          (env (.setScheduleProps (.ofRecord d.payload))).outcome := by
      simp [ServerCall.issues, calls_baaSetScheduleProps, schedCalls]
    obtain ⟨d', hd', hcomplete, -⟩ := hacts _ (by simp [requestCalls]) _ hissue
    obtain rfl : d = d' := Option.some.inj (hrecv.symm.trans hd')
    exact hcomplete
  · intro hcomplete c hc x hx
    exact ⟨d, hrecv, hcomplete, (ofRecord_take d.payload).symm ▸ issues_of_mem_requestCalls hc _ hx⟩

/-- One turn acts on complete requests only if and only if it is not given an empty datagram or
a request that is too short. -/
private theorem actsOnComplete_turnCalls_iff (env : ServerEnv) :
    ActsOnComplete env (turnCalls env) ↔ ∀ d, env.received = some d →
      d.payload ≠ [] ∧ (d.payload.head? = some ptypeSchedProps → 17 ≤ d.payload.length) := by
  rcases hrecv : env.received with _ | d
  · simp [ActsOnComplete, turnCalls, hrecv, ServerCall.issues]
  · simp only [turnCalls, hrecv, Option.some.injEq, forall_eq']
    split_ifs with h
    · rw [actsOnComplete_requestCalls_iff hrecv, CompleteRequest]
      rcases (getD_zero_eq_schedProps_iff _).mp h with hnil | hhead
      · simp [hnil]
      · have hne : d.payload ≠ [] := fun hnil => by simp [hnil] at hhead
        simp [hhead, hne]
    · rw [getD_zero_eq_schedProps_iff, not_or] at h
      simp [ActsOnComplete, ServerCall.issues, h]

/-- **The server acts only on complete requests, exactly as long as it is not sent anything
else.** For every sequence of datagrams: every scheduling call is made in response to a whole
record and for the element in its bytes, if and only if no datagram is empty and none of type
`PTYPE_SCHED_PROPS` is shorter than the record. -/
theorem actsOnComplete_iff (plat : Platform) (envs : List ServerEnv) :
    (∀ turn ∈ serve plat (.start plat) envs, ActsOnComplete turn.1 turn.2) ↔
      ∀ env ∈ envs, ∀ d, env.received = some d →
        d.payload ≠ [] ∧ (d.payload.head? = some ptypeSchedProps → 17 ≤ d.payload.length) := by
  rw [forall_mem_serve_iff]
  exact forall₂_congr fun env _ => actsOnComplete_turnCalls_iff env

/-- An environment that delivers an empty datagram and lets every call succeed. -/
def emptyDatagramEnv : ServerEnv := fun _ => ⟨some ⟨boundAt [47, 120], []⟩, 1, ⟨.ok, .ok⟩⟩

/-- An empty datagram is taken for a request: the zero fill is applied to thread id 0. -/
theorem not_actsOnComplete_emptyDatagram :
    (∃ turn ∈ serve .linux64 (.start .linux64) [emptyDatagramEnv],
      .setScheduleProps ⟨0, 0, 0, 0⟩ ∈ turn.2) ∧
    ¬ ∀ turn ∈ serve .linux64 (.start .linux64) [emptyDatagramEnv],
      ActsOnComplete turn.1 turn.2 := by
  constructor
  · refine ⟨(emptyDatagramEnv, turnCalls emptyDatagramEnv), ?_, by decide⟩
    rw [Server.start, serve_eq, List.map_singleton]
    exact List.mem_singleton_self _
  · rw [forall_mem_serve_iff]
    intro h
    exact ((actsOnComplete_turnCalls_iff _).mp (h emptyDatagramEnv (by simp)) _ rfl).1 rfl

/-! ### Replies -/

/-- The protocol types sent in a turn. -/
def repliesOf (calls : List ServerCall) : List Byte :=
  calls.filterMap fun
    | .sendto ptype _ => some ptype
    | _ => none

/-- A turn that handles a request replies `PTYPE_RCV_ACK` and then the outcome: that of both
scheduling calls, which have to succeed for a `PTYPE_CMD_ACK`. -/
def TellsOutcome (env : ServerEnv) (calls : List ServerCall) : Prop :=
  ∀ fiber, .setScheduleProps fiber ∈ calls →
    repliesOf calls = [ptypeRcvAck,
      if (env (.setScheduleProps fiber)).outcome.AllOk then ptypeCmdAck else ptypeError]

/-- The turn of a request tells the outcome if and only if both calls succeeded. -/
private theorem tellsOutcome_requestCalls_iff (env : ServerEnv) (d : Datagram) :
    TellsOutcome env (requestCalls d) ↔
      (env (.setScheduleProps (.ofRecord d.payload))).outcome.AllOk := by
  simp only [TellsOutcome, requestCalls, List.mem_cons, List.not_mem_nil, repliesOf]
  by_cases h : (env (.setScheduleProps (.ofRecord d.payload))).outcome.AllOk
  · simp [h]
  · simp [h, ptypeCmdAck, ptypeError]

/-- **What a zero and a `PTYPE_CMD_ACK` mean.** For every array and every outcome, the value
returned by `baa_set_schedule_props` is zero exactly on success if and only if every call
succeeds; and for every sequence of datagrams and every outcome, the server replies to each
request with its outcome if and only if both calls succeed for every request. -/
theorem reply_tells_outcome_iff (plat : Platform) :
    (∀ (fiberArray : List FiberElement) (outcome : ℕ → SchedOutcome),
      ((baaSetScheduleProps fiberArray outcome).ret = 0 ↔
        ∀ i < fiberArray.length, (outcome i).AllOk) ↔
      ∀ i < fiberArray.length, (outcome i).AllOk) ∧
    ∀ envs : List ServerEnv,
      (∀ turn ∈ serve plat (.start plat) envs, TellsOutcome turn.1 turn.2) ↔
      ∀ env ∈ envs, ∀ d, env.received = some d → d.payload.getD 0 0 = ptypeSchedProps →
        (env (.setScheduleProps (.ofRecord d.payload))).outcome.AllOk := by
  refine ⟨fun fiberArray outcome => ?_, fun envs => ?_⟩
  · rw [ret_baaSetScheduleProps]
    simp
  · rw [forall_mem_serve_iff]
    refine forall₂_congr fun env _ => ?_
    rcases hrecv : env.received with _ | d
    · simp [TellsOutcome, turnCalls, hrecv]
    · simp only [turnCalls, hrecv, Option.some.injEq, forall_eq']
      split_ifs with h
      · rw [tellsOutcome_requestCalls_iff]
        exact ⟨fun hok _ => hok, fun hok => hok h⟩
      · exact ⟨fun _ hd => absurd hd h, fun _ => by simp [TellsOutcome]⟩

/-- An environment that delivers a request and refuses both scheduling calls. -/
def refusedEnv : ServerEnv := fun _ =>
  ⟨some ⟨boundAt [47, 120], List.replicate 17 0⟩, 1, ⟨.failed .einval, .failed (.other 1)⟩⟩

/-- Both calls fail and the reply is `PTYPE_CMD_ACK`; the value returned is zero. -/
theorem not_tellsOutcome_refused :
    ¬ ((baaSetScheduleProps [⟨0, 0, 0, 0⟩] fun _ => ⟨.failed .einval, .failed (.other 1)⟩).ret = 0 ↔
      ∀ i < [(⟨0, 0, 0, 0⟩ : FiberElement)].length,
        (⟨.failed .einval, .failed (.other 1)⟩ : SchedOutcome).AllOk) ∧
    ¬ ∀ turn ∈ serve .linux64 (.start .linux64) [refusedEnv], TellsOutcome turn.1 turn.2 := by
  constructor
  · decide
  · rw [forall_mem_serve_iff]
    intro h
    have hreply := h refusedEnv (by simp) ⟨0, 0, 0, 0⟩ (by decide)
    revert hreply
    decide

end Libbaalue
