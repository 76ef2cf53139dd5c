import Libbaalue.Can.Inbox
import Libbaalue.Foundations.LabelledSystem
import Libbaalue.Foundations.Processes

/-!
# A sender and its receivers

`can_send.c` and any number of processes of `can_recv.c` on a virtual bus, which hands a frame on
as it is. What the sender has written comes to every socket that is bound, and `recv_frame_raw`
takes out of the queue of its own one frame after the other and prints it.

A receiver binds its socket first and calls `baa_set_flist` then, call by call, so every frame
comes in between. The filter is in force from the `setsockopt` on; if that fails, the receiver says
so and goes on without one, and if there is no memory for an entry the entry is missing. What
comes through a filter is decided by eleven bits of the address
(`telegrams_received`).

The array of the entries is a block of the size of one entry, whatever the length of the list. What
a `realloc` really gives may be more, but a receiver that stores behind it may do anything from
then on, and nothing is said of it.
-/

namespace Libbaalue

open CallProgram

variable {abi : Abi}

/-! ### The receivers -/

/-- What `baa_set_flist` of a receiver depends on: its argument, the memory behind its delimiter,
and the bytes that a block of the size of an entry really has room for. -/
structure FlistEnv where
  flist : Option (List Byte)
  adjacent : List Byte
  usable : ℕ

/-- An entry is stored in the memory the array has. -/
def CanCall.within (usable : ℕ) : CanCall → Bool
  | store index _ => (index + 1) * sizeofCanFilter ≤ usable
  | _ => true

/-- No entry was stored behind the memory the array has. The array is asked for with the size of one
entry, so that the second entry is stored behind it unless the block is larger than it was asked
for. -/
def storesWithin (usable : ℕ) (calls : List (CanCall × SysRet)) : Bool :=
  calls.all fun e => e.1.within usable

/-- A process of `can_recv.c`: what is left of `baa_set_flist`, once its socket is bound, the calls
it has made in it, the receiving side of the socket, and whether the process has ended. -/
structure CanReceiver where
  rest : Option (CanProgram CInt)
  calls : List (CanCall × SysRet)
  inbox : CanInbox
  exited : Bool

namespace CanReceiver

/-- A frame comes along the bus, as long as the process is there. -/
def arrive (frame : CanTelegram) (full : Bool) (receiver : CanReceiver) : CanReceiver :=
  if receiver.exited then receiver
  else { receiver with inbox := receiver.inbox.arrive frame full }

/-- The socket, the descriptor `fds`, is bound by `baa_can_raw_socket`. -/
def bind (abi : Abi) (env : FlistEnv) (fds : CInt) (receiver : CanReceiver) :
    Option CanReceiver :=
  match receiver.rest with
  | none =>
    some { receiver with
      rest := some (baaSetFlist abi env.adjacent fds env.flist)
      inbox := receiver.inbox.set (some .unset) }
  | some _ => none

/-- What a call of `baa_set_flist` sets on the socket: the filter, from a `setsockopt` that succeeds
on. -/
def setOptions (options : Option CanOptions) : CanCall × SysRet → Option CanOptions
  | (.setsockopt _ filter _, .ok _) => options.map fun o => { o with filter := some filter }
  | _ => options

/-- A call of `baa_set_flist` comes to `r`. -/
def setFlist (r : SysRet) (receiver : CanReceiver) : Option CanReceiver :=
  match receiver.rest with
  | some (.call c next) =>
    some { receiver with
      rest := some (next r)
      calls := receiver.calls ++ [(c, r)]
      inbox := receiver.inbox.set (setOptions receiver.inbox.options (c, r)) }
  | _ => none

/-- A `read` of the loop comes to `r`; one that succeeds has waited for a frame. What
`baa_set_flist` has returned does not matter. -/
def read (r : SysRet) (receiver : CanReceiver) : Option CanReceiver :=
  match receiver.rest, r with
  | some (.ret _), .failed _ => some receiver
  | some (.ret _), .ok _ =>
    receiver.inbox.take.map fun inbox => { receiver with inbox := inbox }
  | _, _ => none

/-- The process ends. -/
def exit (receiver : CanReceiver) : Option CanReceiver := some { receiver with exited := true }

end CanReceiver

/-! ### The bus -/

/-- The sender, what it has written, and the receivers, of which there are as many as there are
numbers; one that is never started stays as it is. -/
structure CanBus (abi : Abi) where
  sender : CyclicSender abi
  sent : List CanTelegram
  receiver : ℕ → CanReceiver

/-- What happens next; `full` tells whose queue is, as the kernel drops a frame for which there is
no room. -/
inductive CanBusLabel
  | send (r : SysRet) (full : ℕ → Bool)
  | bind (i : ℕ) (fds : CInt)
  | setFlist (i : ℕ) (r : SysRet)
  | read (i : ℕ) (r : SysRet)
  /-- The signal thread of a receiver exits, on `SIGTERM`. -/
  | exit (i : ℕ)
  /-- A receiver that has stored behind its array does something. -/
  | stray (i : ℕ) (receiver : CanReceiver)

namespace CanBus

/-- The receiver `i` comes to `receiver`. -/
def setReceiver (s : CanBus abi) (i : ℕ) (receiver : CanReceiver) : CanBus abi :=
  { s with receiver := Function.update s.receiver i receiver }

/-- A receiver that is still there moves. -/
def move (s : CanBus abi) (i : ℕ) (next : CanReceiver → Option CanReceiver) :
    Option (CanBus abi) :=
  if (s.receiver i).exited then none else (next (s.receiver i)).map (s.setReceiver i)

/-- The next call of the sender comes to `r`. -/
def send (s : CanBus abi) (r : SysRet) (full : ℕ → Bool) : CanBus abi :=
  match writtenFrame ((sendCyclicTelegram abi).call s.sender, r) with
  | none => { s with sender := (sendCyclicTelegram abi).resume s.sender r }
  | some frame =>
    { sender := (sendCyclicTelegram abi).resume s.sender r
      sent := s.sent ++ [frame]
      receiver := fun i => (s.receiver i).arrive frame (full i) }

/-- One step. -/
def step (env : ℕ → FlistEnv) (s : CanBus abi) : CanBusLabel → Option (CanBus abi)
  | .send r full => some (s.send r full)
  | .bind i fds => s.move i (CanReceiver.bind abi (env i) fds)
  | .setFlist i r => s.move i (CanReceiver.setFlist r)
  | .read i r => s.move i (CanReceiver.read r)
  | .exit i => s.move i CanReceiver.exit
  | .stray i receiver =>
    if storesWithin (env i).usable (s.receiver i).calls then none
    else some (s.setReceiver i { receiver with calls := (s.receiver i).calls })

end CanBus

/-- The bus: a sender of an address, and receivers with their lists. A list, and the memory that is
behind the comma in a process, are the receiver's own. -/
def canBus (canAddr : CLong abi) (t : Timespec abi) (env : ℕ → FlistEnv) :
    LabelledSystem (CanBus abi) CanBusLabel where
  init := ⟨.start canAddr t, [], fun _ => ⟨none, [], .empty, false⟩⟩
  step := CanBus.step env

/-! ### What a receiver has called -/

/-- The filter that the calls have installed, if a `setsockopt` has succeeded. -/
def installedFilter (calls : List (CanCall × SysRet)) : Option (List CanFilter) :=
  (calls.filterMap fun
    | (.setsockopt _ filter _, .ok _) => some filter
    | _ => none).getLast?

private theorem installedFilter_concat (calls : List (CanCall × SysRet)) (e : CanCall × SysRet) :
    CanReceiver.setOptions (some ⟨installedFilter calls, 0⟩) e =
      some ⟨installedFilter (calls ++ [e]), 0⟩ := by
  obtain ⟨c, r⟩ := e
  cases c with
  | setsockopt fds filter optlen =>
    cases r with
    | ok n => simp [CanReceiver.setOptions, installedFilter]
    | failed errno => simp [CanReceiver.setOptions, installedFilter]
  | _ => simp [CanReceiver.setOptions, installedFilter]

private theorem installs_of_installedFilter {calls : List (CanCall × SysRet)}
    {filter : List CanFilter} (h : installedFilter calls = some filter) :
    Installs calls filter := by
  obtain ⟨⟨c, r⟩, hmem, heq⟩ := List.mem_filterMap.mp (List.mem_of_getLast? h)
  cases c with
  | setsockopt fds filter' optlen =>
    cases r with
    | ok n =>
      obtain rfl := Option.some.inj heq
      exact ⟨fds, optlen, n, hmem⟩
    | failed errno => cases heq
  | _ => cases heq

/-- A filter that a part of `baa_set_flist` has installed has the entries of the list. -/
private theorem entriesOf_of_runs {env : FlistEnv} {fds : CInt} {calls : List (CanCall × SysRet)}
    {rest : CanProgram CInt} (h : (baaSetFlist abi env.adjacent fds env.flist).Runs calls rest)
    {filter : List CanFilter} (hinstalls : Installs calls filter) :
    ∃ flist, env.flist = some flist ∧
      EntriesOf abi (tokens (fun b => decide (b ∈ delimiters env.adjacent)) flist) calls
        filter := by
  rcases hflist : env.flist with _ | flist
  · rw [hflist, baaSetFlist] at h
    obtain rfl := h.of_ret.1
    exact absurd hinstalls installs_nil
  · -- the rest may succeed in everything, and the whole is an execution then
    rw [hflist] at h
    obtain ⟨tail, ret, hexec, hok⟩ := exists_exec rest fun _ => .ok 0
    have hwhole := h.append_exec hexec
    have hinstalls' : Installs (calls ++ tail) filter := by
      obtain ⟨fds', optlen, n, hmem⟩ := hinstalls
      exact ⟨fds', optlen, n, List.mem_append_left tail hmem⟩
    obtain ⟨stored, hsub, hentries, hall⟩ :=
      baaSetFlist_entries abi env.adjacent fds flist _ _ hwhole filter hinstalls'
    refine ⟨flist, rfl, stored, hsub, hentries, fun hsucceed => hall fun size errno hmem => ?_⟩
    rcases List.mem_append.mp hmem with hmem | hmem
    · exact hsucceed size errno hmem
    · cases hok _ hmem

/-! ### What comes to a receiver -/

/-- The state of a receiver that has stored nothing behind its array: every telegram has come
along its bus, and what is set on its socket is what its calls have set. -/
structure CanReceiver.Ok (abi : Abi) (env : FlistEnv) (sent : List CanTelegram)
    (receiver : CanReceiver) : Prop where
  arrived : receiver.inbox.arrived.map CanArrival.frame <+: sent
  arrived_all : receiver.exited = false → receiver.inbox.arrived.map CanArrival.frame = sent
  inbox : receiver.inbox.Ok
  unbound : receiver.rest = none → receiver.calls = [] ∧ receiver.inbox.options = none
  bound : ∀ rest, receiver.rest = some rest →
    receiver.inbox.options = some ⟨installedFilter receiver.calls, 0⟩ ∧
      ∃ fds, (baaSetFlist abi env.adjacent fds env.flist).Runs receiver.calls rest
  options : ∀ a ∈ receiver.inbox.arrived, ∀ o ∈ a.options,
    o.errMask = 0 ∧ ∀ filter, o.filter = some filter → Installs receiver.calls filter

/-- **The invariant.** It follows the sender's count, and says of every receiver that has kept to
its array what it has got of the frames. -/
structure CanBus.Inv (canAddr : CLong abi) (env : ℕ → FlistEnv) (s : CanBus abi) : Prop where
  frame : s.sender.frame = telegram canAddr s.sent.length
  sent : s.sent = (List.range s.sent.length).map (telegram canAddr)
  receiver : ∀ i, storesWithin (env i).usable (s.receiver i).calls = true →
    (s.receiver i).Ok abi (env i) s.sent

namespace CanReceiver.Ok

variable {env : FlistEnv} {sent : List CanTelegram} {receiver receiver' : CanReceiver}

/-- What is set on the socket now. -/
private theorem options_now (h : receiver.Ok abi env sent) : ∀ o ∈ receiver.inbox.options,
    o.errMask = 0 ∧ ∀ filter, o.filter = some filter → Installs receiver.calls filter := by
  intro o ho
  rcases hrest : receiver.rest with _ | rest
  · rw [(h.unbound hrest).2] at ho
    cases ho
  · rw [(h.bound rest hrest).1] at ho
    obtain rfl := Option.some.inj ho
    exact ⟨rfl, fun filter => installs_of_installedFilter⟩

theorem arrive (h : receiver.Ok abi env sent) (frame : CanTelegram) (full : Bool) :
    (receiver.arrive frame full).Ok abi env (sent ++ [frame]) := by
  rw [CanReceiver.arrive]
  split_ifs with hexited
  · refine { h with
      arrived := h.arrived.trans (List.prefix_append _ _)
      arrived_all := fun hrunning => ?_ }
    rw [hexited] at hrunning
    cases hrunning
  · have hall : (receiver.inbox.arrive frame full).arrived.map CanArrival.frame =
        sent ++ [frame] := by
      rw [CanInbox.arrive, List.map_append, h.arrived_all (Bool.eq_false_iff.mpr hexited)]
      rfl
    refine ⟨hall ▸ List.prefix_rfl, fun _ => hall, h.inbox.arrive frame full, h.unbound, h.bound,
      fun a ha => ?_⟩
    rcases List.mem_append.mp ha with ha | ha
    · exact h.options a ha
    · obtain rfl := List.mem_singleton.mp ha
      exact h.options_now

theorem bind (h : receiver.Ok abi env sent) {fds : CInt}
    (hst : receiver.bind abi env fds = some receiver') : receiver'.Ok abi env sent := by
  rw [CanReceiver.bind] at hst
  split at hst
  · rename_i hrest
    obtain rfl := Option.some.inj hst
    have hstage : CanArrival.stage receiver.inbox.options ≤ CanArrival.stage (some .unset) := by
      rw [(h.unbound hrest).2]
      exact Nat.zero_le _
    refine ⟨h.arrived, h.arrived_all, h.inbox.set hstage, nofun, ?_, h.options⟩
    rintro rest heq
    obtain rfl := Option.some.inj heq
    rw [(h.unbound hrest).1]
    exact ⟨rfl, fds, .start⟩
  · cases hst

/-- A filter is never taken away. -/
private theorem stage_le_setOptions (options : Option CanOptions) (e : CanCall × SysRet) :
    CanArrival.stage options ≤ CanArrival.stage (setOptions options e) := by
  obtain ⟨c, r⟩ := e
  cases c with
  | setsockopt fds filter optlen =>
    cases r with
    | failed errno => exact le_rfl
    | ok n =>
      rcases options with _ | ⟨_ | filter', errMask⟩
      · exact le_rfl
      · exact Nat.le_succ 1
      · exact le_rfl
  | _ => exact le_rfl

private theorem setFlist (h : receiver.Ok abi env sent) {r : SysRet}
    (hst : receiver.setFlist r = some receiver') : receiver'.Ok abi env sent := by
  rw [CanReceiver.setFlist] at hst
  split at hst
  · rename_i c next hrest
    obtain rfl := Option.some.inj hst
    obtain ⟨hoptions, fds, hruns⟩ := h.bound _ hrest
    refine ⟨h.arrived, h.arrived_all, h.inbox.set (stage_le_setOptions _ _), nofun, ?_,
      fun a ha o ho => ?_⟩
    · rintro rest heq
      obtain rfl := Option.some.inj heq
      refine ⟨?_, fds, .step r hruns⟩
      simp only [CanInbox.set, hoptions, installedFilter_concat]
    · obtain ⟨hmask, hfilter⟩ := h.options a ha o ho
      refine ⟨hmask, fun filter hsome => ?_⟩
      obtain ⟨fds', optlen, n, hmem⟩ := hfilter filter hsome
      exact ⟨fds', optlen, n, List.mem_append_left _ hmem⟩
  · cases hst

theorem read (h : receiver.Ok abi env sent) {r : SysRet}
    (hst : receiver.read r = some receiver') : receiver'.Ok abi env sent := by
  rw [CanReceiver.read.eq_def] at hst
  split at hst
  · obtain rfl := Option.some.inj hst
    exact h
  · obtain ⟨inbox, htake, rfl⟩ := Option.map_eq_some_iff.mp hst
    have hinbox := h.inbox.take htake
    obtain ⟨frames, -, rfl⟩ := Option.map_eq_some_iff.mp htake
    exact ⟨h.arrived, h.arrived_all, hinbox, h.unbound, h.bound, h.options⟩
  · cases hst

/-- A process that has ended. -/
theorem exit (h : receiver.Ok abi env sent) (hst : receiver.exit = some receiver') :
    receiver'.Ok abi env sent := by
  obtain rfl := Option.some.inj hst
  exact ⟨h.arrived, nofun, h.inbox, h.unbound, h.bound, h.options⟩

/-- The filter of a receiver has the entries of its list. -/
private theorem entriesOf (h : receiver.Ok abi env sent) {filter : List CanFilter}
    (hinstalls : Installs receiver.calls filter) :
    ∃ flist, env.flist = some flist ∧
      EntriesOf abi (tokens (fun b => decide (b ∈ delimiters env.adjacent)) flist) receiver.calls
        filter := by
  rcases hrest : receiver.rest with _ | rest
  · rw [(h.unbound hrest).1] at hinstalls
    exact absurd hinstalls installs_nil
  · obtain ⟨-, fds, hruns⟩ := h.bound rest hrest
    exact entriesOf_of_runs hruns hinstalls

end CanReceiver.Ok

/-! ### The calls of the steps -/

namespace CanReceiver

variable {env : FlistEnv} {receiver receiver' : CanReceiver}

private theorem calls_arrive (frame : CanTelegram) (full : Bool) (receiver : CanReceiver) :
    (receiver.arrive frame full).calls = receiver.calls := by
  rw [arrive]
  split_ifs <;> rfl

private theorem calls_bind {fds : CInt} (hst : receiver.bind abi env fds = some receiver') :
    receiver'.calls = receiver.calls := by
  rw [CanReceiver.bind] at hst
  split at hst
  · obtain rfl := Option.some.inj hst
    rfl
  · cases hst

private theorem calls_setFlist {r : SysRet} (hst : receiver.setFlist r = some receiver') :
    ∃ e, receiver'.calls = receiver.calls ++ [e] := by
  rw [CanReceiver.setFlist] at hst
  split at hst
  · obtain rfl := Option.some.inj hst
    exact ⟨_, rfl⟩
  · cases hst

private theorem calls_read {r : SysRet} (hst : receiver.read r = some receiver') :
    receiver'.calls = receiver.calls := by
  rw [CanReceiver.read.eq_def] at hst
  split at hst
  · obtain rfl := Option.some.inj hst
    rfl
  · obtain ⟨inbox, -, rfl⟩ := Option.map_eq_some_iff.mp hst
    rfl
  · cases hst

end CanReceiver

namespace CanBus

variable {canAddr : CLong abi} {env : ℕ → FlistEnv} {s t : CanBus abi}

/-- A frame that is written comes along the bus of every receiver. -/
theorem Inv.send (h : s.Inv canAddr env) (r : SysRet) (full : ℕ → Bool) :
    (s.send r full).Inv canAddr env := by
  have hframe := frame_resume h.frame r
  rw [CanBus.send]
  rcases hwritten : writtenFrame ((sendCyclicTelegram abi).call s.sender, r) with _ | frame
  · rw [hwritten] at hframe
    exact ⟨hframe, h.sent, h.receiver⟩
  · rw [hwritten] at hframe
    obtain rfl : frame = telegram canAddr s.sent.length :=
      (eq_of_writtenFrame hwritten).trans h.frame
    have hlen : (s.sent ++ [telegram canAddr s.sent.length]).length = s.sent.length + 1 := by simp
    refine ⟨?_, ?_, fun i hwithin => (h.receiver i ?_).arrive _ (full i)⟩
    · rw [hlen]
      exact hframe
    · rw [hlen, List.range_succ, List.map_append, ← h.sent]
      rfl
    · rwa [CanReceiver.calls_arrive] at hwithin

/-- A step of a receiver is its own. -/
private theorem Inv.setReceiver (h : s.Inv canAddr env) {i : ℕ} {receiver : CanReceiver}
    (hok : storesWithin (env i).usable receiver.calls = true → receiver.Ok abi (env i) s.sent) :
    (s.setReceiver i receiver).Inv canAddr env := by
  refine ⟨h.frame, h.sent, fun j hwithin => ?_⟩
  rcases eq_or_ne j i with rfl | hne
  · have hnew : (s.setReceiver j receiver).receiver j = receiver := Function.update_self ..
    rw [hnew] at hwithin ⊢
    exact hok hwithin
  · have hold : (s.setReceiver i receiver).receiver j = s.receiver j :=
      Function.update_of_ne hne ..
    rw [hold] at hwithin ⊢
    exact h.receiver j hwithin

/-- A receiver that is still there moves as it does alone. -/
theorem Inv.move (h : s.Inv canAddr env) {i : ℕ} {next : CanReceiver → Option CanReceiver}
    (hst : s.move i next = some t)
    (hnext : ∀ receiver', next (s.receiver i) = some receiver' →
      storesWithin (env i).usable receiver'.calls = true →
      storesWithin (env i).usable (s.receiver i).calls = true ∧
        ((s.receiver i).Ok abi (env i) s.sent → receiver'.Ok abi (env i) s.sent)) :
    t.Inv canAddr env := by
  rw [CanBus.move] at hst
  split_ifs at hst
  obtain ⟨receiver', hreceiver, rfl⟩ := Option.map_eq_some_iff.mp hst
  refine h.setReceiver fun hwithin => ?_
  obtain ⟨hbefore, hok⟩ := hnext receiver' hreceiver hwithin
  exact hok (h.receiver i hbefore)

theorem Inv.step (h : s.Inv canAddr env) {label : CanBusLabel}
    (hst : s.step env label = some t) : t.Inv canAddr env := by
  cases label with
  | send r full =>
    obtain rfl := Option.some.inj hst
    exact h.send r full
  | bind i fds =>
    refine h.move hst fun receiver' hreceiver hwithin => ⟨?_, fun hok => hok.bind hreceiver⟩
    rwa [CanReceiver.calls_bind hreceiver] at hwithin
  | setFlist i r =>
    refine h.move hst fun receiver' hreceiver hwithin => ⟨?_, fun hok => hok.setFlist hreceiver⟩
    obtain ⟨e, hcalls⟩ := CanReceiver.calls_setFlist hreceiver
    rw [hcalls, storesWithin, List.all_append] at hwithin
    exact (Bool.and_eq_true_iff.mp hwithin).1
  | read i r =>
    refine h.move hst fun receiver' hreceiver hwithin => ⟨?_, fun hok => hok.read hreceiver⟩
    rwa [CanReceiver.calls_read hreceiver] at hwithin
  | exit i =>
    refine h.move hst fun receiver' hreceiver hwithin => ⟨?_, fun hok => hok.exit hreceiver⟩
    obtain rfl := Option.some.inj hreceiver
    exact hwithin
  | stray i receiver =>
    rw [CanBus.step] at hst
    split_ifs at hst with hwithin
    obtain rfl := Option.some.inj hst
    exact h.setReceiver fun hstill => absurd hstill hwithin

theorem inv_of_reachable {t₀ : Timespec abi} (h : (canBus canAddr t₀ env).Reachable s) :
    s.Inv canAddr env := by
  refine h.invariant (P := Inv canAddr env) ⟨rfl, rfl, fun i _ => ?_⟩
    fun _ _ _ _ hs hst => hs.step hst
  exact ⟨List.prefix_rfl, fun _ => rfl, CanInbox.ok_empty, fun _ => ⟨rfl, rfl⟩, nofun,
    List.forall_mem_nil _⟩

end CanBus

/-! ### What the lists decide -/

/-- What a receiver has got of the telegrams of an address. Every frame on the bus is told by what
was set on the socket when it came, so that nothing is left to chance but whether there was room in
the queue. -/
structure CanReceiver.Served (canAddr : CLong abi) (env : FlistEnv) (sent : List CanTelegram)
    (receiver : CanReceiver) : Prop where
  /-- All telegrams have come along the bus, until the process ended. -/
  arrived : receiver.inbox.arrived.map CanArrival.frame <+: sent
  arrived_all : receiver.exited = false → receiver.inbox.arrived.map CanArrival.frame = sent
  /-- The receiver has printed, or has in its queue, those that its socket let pass while there was
  room, in order. -/
  got : receiver.inbox.frames.Carries receiver.inbox.offers
  /-- The socket was bound first, and got its filter later. -/
  order : receiver.inbox.arrived.Pairwise fun a a' =>
    CanArrival.stage a.options ≤ CanArrival.stage a'.options
  unbound : ∀ a ∈ receiver.inbox.arrived, a.options = none → a.Heard = false
  /-- Without a filter all telegrams pass, unless their address has the error bit. -/
  unfiltered : ∀ a ∈ receiver.inbox.arrived, ∀ o, a.options = some o → o.filter = none →
    (a.Heard ↔ canAddr.toNat.testBit 29 = false)
  /-- A filter is one that `baa_set_flist` has installed. It lets a telegram pass if its address
  has the low eleven bits of a token that there was memory for, and not the error bit. -/
  filtered : ∀ a ∈ receiver.inbox.arrived, ∀ o filter, a.options = some o →
    o.filter = some filter → Installs receiver.calls filter ∧
      ∃ flist, env.flist = some flist ∧ ∃ stored : List (List Byte),
        stored.Sublist (tokens (fun b => decide (b ∈ delimiters env.adjacent)) flist) ∧
        (ReallocsSucceed receiver.calls →
          stored = tokens (fun b => decide (b ∈ delimiters env.adjacent)) flist) ∧
        (a.Heard ↔ canAddr.toNat.testBit 29 = false ∧ ∃ token ∈ stored,
          (strtoulHex abi token).toNat % 2 ^ 11 = canAddr.toNat % 2 ^ 11)

/-- The address as it stands in the frames. -/
private theorem testBit_canId (canAddr : CLong abi) :
    (canAddr.setWidth 32).toNat.testBit 29 = canAddr.toNat.testBit 29 := by
  rw [BitVec.toNat_setWidth, Nat.testBit_mod_two_pow]
  simp

private theorem canId_mod (canAddr : CLong abi) :
    (canAddr.setWidth 32).toNat % 2 ^ 11 = canAddr.toNat % 2 ^ 11 := by
  rw [BitVec.toNat_setWidth, Nat.mod_mod_of_dvd _ (by decide)]

/-- A telegram whose address has the error bit passes no socket that asks for no errors. -/
private theorem heard_iff {canAddr : CLong abi} {a : CanArrival} {o : CanOptions}
    (hid : a.frame.canId = canAddr.setWidth 32) (ho : a.options = some o) (hmask : o.errMask = 0)
    (hentries : ∀ entries ∈ o.filter, ∀ entry ∈ entries, entry.canMask = canSffMask) :
    a.Heard ↔ canAddr.toNat.testBit 29 = false ∧ ∀ entries ∈ o.filter, ∃ entry ∈ entries,
      entry.canId.toNat % 2 ^ 11 = canAddr.toNat % 2 ^ 11 := by
  have hheard : a.Heard = o.lets (canAddr.setWidth 32) := by
    rw [CanArrival.Heard, ho, hid]
    rfl
  rw [hheard, ← testBit_canId, ← and_canErrFlag_eq_zero_iff, ← canId_mod]
  by_cases hflag : canAddr.setWidth 32 &&& canErrFlag = 0
  · rw [and_iff_right hflag]
    exact CanOptions.lets_iff hflag hentries
  · refine iff_of_false ?_ fun h => hflag h.1
    rw [CanOptions.lets, if_neg hflag, hmask]
    simp

/-- What has come to a receiver, by what was set on its socket. -/
theorem CanReceiver.Ok.served {canAddr : CLong abi} {env : FlistEnv} {sent : List CanTelegram}
    {receiver : CanReceiver} (h : receiver.Ok abi env sent)
    (hsent : ∀ frame ∈ sent, frame.canId = canAddr.setWidth 32) :
    receiver.Served canAddr env sent := by
  have hid : ∀ a ∈ receiver.inbox.arrived, a.frame.canId = canAddr.setWidth 32 := fun a ha =>
    hsent _ (h.arrived.subset (List.mem_map_of_mem ha))
  refine ⟨h.arrived, h.arrived_all, h.inbox.carries, h.inbox.order, fun a ha hnone => ?_,
    fun a ha o ho hnone => ?_, fun a ha o filter ho hsome => ?_⟩
  · rw [CanArrival.Heard, hnone]
    rfl
  · have hheard := heard_iff (hid a ha) ho (h.options a ha o ho).1 (by simp [hnone])
    simpa [hnone] using hheard
  · have hinstalls := (h.options a ha o ho).2 filter hsome
    obtain ⟨flist, hflist, stored, hsub, rfl, hall⟩ := h.entriesOf hinstalls
    refine ⟨hinstalls, flist, hflist, stored, hsub, hall, ?_⟩
    have hmasks : ∀ entries ∈ o.filter, ∀ entry ∈ entries, entry.canMask = canSffMask := by
      rw [hsome]
      rintro _ heq entry hentry
      obtain rfl := Option.some.inj heq
      obtain ⟨token, -, rfl⟩ := List.mem_map.mp hentry
      rfl
    rw [heard_iff (hid a ha) ho (h.options a ha o ho).1 hmasks]
    simp only [hsome, Option.mem_def, Option.some.injEq, forall_eq', List.mem_map,
      exists_exists_and_eq_and, canEntry_mod]

end Libbaalue
