import Libbaalue.Net.Inet
import Libbaalue.Net.Uds

/-!
# What the socket constructors leave open

A constructor accounts for its descriptors when a failure leaves the open descriptors as they
were and success adds the one that is returned. The loops of the internet sockets do, in every
execution. `uds_socket` and the two `listen` wrappers give up without closing their socket:
`leavesOpen` are the outcomes at which they do so, and an execution is accounted for exactly if
it has none of them (`handsOver_iff`).

`leavesOpen` looks at a single call and its outcome, so the condition can be read off a trace: an
error behind a socket that was opened and before one that is returned. That the loops never meet it
is because they close what they give up; that the others do is because they return from where they
stand. A kernel that hands out a descriptor that is already open is excluded, and no other
assumption is made of it.
-/

namespace Libbaalue

open CallProgram

/-- The outcomes after which a constructor gives up and leaves its socket open. -/
def leavesOpen : NetCall × SysRet → Bool
  | (.bindUnix _ _, .failed _) => true
  | (.connectUnix _ _, .failed _) => true
  | (.malloc _, .failed _) => true
  | (.listen _ _, .failed _) => true
  | _ => false

/-- None of these outcomes occurs. It is a condition on what the calls come to, and not on what is
open behind them. -/
def NoneLeftOpen (tr : List (NetCall × SysRet)) : Prop := ∀ e ∈ tr, leavesOpen e = false

/-- Nothing is opened or closed. -/
def KeepsOpen (tr : List (NetCall × SysRet)) : Prop := ∀ e ∈ tr, netEffect e = .keeps

variable {tr tr' : List (NetCall × SysRet)} {e : NetCall × SysRet} {fds : Finset ℕ}

@[simp]
theorem noneLeftOpen_nil : NoneLeftOpen [] := by simp [NoneLeftOpen]

@[simp]
theorem noneLeftOpen_cons : NoneLeftOpen (e :: tr) ↔ leavesOpen e = false ∧ NoneLeftOpen tr :=
  List.forall_mem_cons

@[simp]
theorem noneLeftOpen_append : NoneLeftOpen (tr ++ tr') ↔ NoneLeftOpen tr ∧ NoneLeftOpen tr' :=
  List.forall_mem_append

@[simp]
theorem keepsOpen_nil : KeepsOpen [] := by simp [KeepsOpen]

@[simp]
theorem keepsOpen_cons : KeepsOpen (e :: tr) ↔ netEffect e = .keeps ∧ KeepsOpen tr :=
  List.forall_mem_cons

@[simp]
theorem keepsOpen_append : KeepsOpen (tr ++ tr') ↔ KeepsOpen tr ∧ KeepsOpen tr' :=
  List.forall_mem_append

/-! ### The steps of `uds_socket` -/

/-- A step that opens and closes nothing, and goes on exactly if nothing is left open. -/
def Careful (tr : List (NetCall × SysRet)) (goesOn : Bool) : Prop :=
  KeepsOpen tr ∧ (goesOn = true ↔ NoneLeftOpen tr)

theorem udsBind_ensures (sfd : ℕ) (str : List Byte) (flags : Byte) :
    (udsBind sfd str flags).Ensures Careful := by
  rw [udsBind]
  split_ifs
  · rw [ensures_perform_bind]
    rintro (_ | _) <;> simp [Careful, netEffect, leavesOpen]
  · simp [Careful]

theorem udsConnect_ensures (sfd : ℕ) (str : List Byte) (flags : Byte) :
    (udsConnect sfd str flags).Ensures Careful := by
  rw [udsConnect]
  split_ifs
  · simp only [ensures_perform_bind]
    rintro _ _ (_ | _) <;> simp [Careful, netEffect, leavesOpen]
  · simp [Careful]

/-- **What becomes of the socket**: it is returned exactly if nothing is left open. -/
theorem udsConfigure_ensures (sfd : ℕ) (str : List Byte) (n : ℕ) (flags : Byte) :
    (udsConfigure sfd str n flags).Ensures fun tr made =>
      KeepsOpen tr ∧ (made.sfd = some sfd ↔ NoneLeftOpen tr) := by
  rw [udsConfigure, ensures_bind]
  refine (udsBind_ensures sfd str flags).mono fun tr₁ bound hcareful₁ => ?_
  obtain ⟨hkeeps₁, hbound⟩ := hcareful₁
  cases bound with
  | false => simpa [UdsResult.fail, hkeeps₁] using hbound
  | true =>
    rw [if_pos rfl, ensures_bind]
    refine (udsConnect_ensures sfd str flags).mono fun tr₂ connected hcareful₂ => ?_
    obtain ⟨hkeeps₂, hconnected⟩ := hcareful₂
    cases connected with
    | false =>
      have hleft : ¬ NoneLeftOpen tr₂ := by simpa using hconnected
      simp [UdsResult.fail, hkeeps₁, hkeeps₂, hleft]
    | true =>
      have hnone₁ : NoneLeftOpen tr₁ := hbound.mp rfl
      have hnone₂ : NoneLeftOpen tr₂ := hconnected.mp rfl
      rw [if_pos rfl]
      refine ensures_setTimeout_bind fun _ _ => ensures_setTimeout_bind fun _ _ => ?_
      rw [ensures_perform_bind]
      rintro (_ | _) <;>
        simp [UdsResult.fail, netEffect, leavesOpen, hkeeps₁, hkeeps₂, hnone₁, hnone₂]

/-! ### Constructors -/

/-- The verdict on an execution: the descriptors are accounted for exactly if none is left open,
which a success never does. -/
def LeaksExactly (fds : Finset ℕ) (tr : List (NetCall × SysRet)) (ret : Option ℕ) : Prop :=
  FreshAlong netEffect fds tr →
    (HandsOver fds (openAfter netEffect fds tr) ret ↔ NoneLeftOpen tr) ∧
      (ret ≠ none → NoneLeftOpen tr)

/-- A failure without a socket. -/
private theorem LeaksExactly.of_keepsOpen (hkeeps : KeepsOpen tr) (hnone : NoneLeftOpen tr) :
    LeaksExactly fds tr none :=
  fun _ => ⟨iff_of_true (openAfter_of_keeps hkeeps) hnone, fun _ => hnone⟩

/-- The `listen` that follows a success: a failure leaves the socket open. -/
theorem LeaksExactly.listen {sfd n : ℕ} {r : SysRet} {ret : Option ℕ}
    (h : LeaksExactly fds tr (some sfd))
    (hret : (∃ v, r = .ok v ∧ ret = some sfd) ∨ ∃ errno, r = .failed errno ∧ ret = none) :
    LeaksExactly fds (tr ++ [(.listen sfd n, r)]) ret := by
  intro hfresh
  rw [freshAlong_append] at hfresh
  obtain ⟨hiff, hsome⟩ := h hfresh.1
  have hnone : NoneLeftOpen tr := hsome (Option.some_ne_none sfd)
  obtain ⟨hnew, hafter⟩ : HandsOver fds (openAfter netEffect fds tr) (some sfd) := hiff.mpr hnone
  have hopen : openAfter netEffect fds (tr ++ [(.listen sfd n, r)]) = insert sfd fds := by
    rw [openAfter_append, ← hafter]
    rfl
  rw [hopen]
  rcases hret with ⟨v, rfl, rfl⟩ | ⟨errno, rfl, rfl⟩
  · have hall : NoneLeftOpen (tr ++ [(.listen sfd n, .ok v)]) := by simp [hnone, leavesOpen]
    exact ⟨iff_of_true ⟨hnew, rfl⟩ hall, fun _ => hall⟩
  · have hleft : ¬ NoneLeftOpen (tr ++ [(.listen sfd n, .failed errno)]) := by simp [leavesOpen]
    refine ⟨iff_of_false (fun hsame => ?_) hleft, fun h => absurd rfl h⟩
    exact hnew (hsame ▸ Finset.mem_insert_self sfd fds)

/-- `uds_socket` leaks its socket exactly at the outcomes named. -/
theorem udsSocket_ensures (fds : Finset ℕ) (pid : ℕ) (name dir : Option (List Byte))
    (type : SockType) (flags : Byte) :
    (udsSocket pid name dir type flags).Ensures fun tr made => LeaksExactly fds tr made.sfd := by
  cases name with
  | none => simpa [udsSocket, UdsResult.fail] using LeaksExactly.of_keepsOpen (by simp) (by simp)
  | some name =>
    rw [udsSocket, ensures_perform_bind]
    intro unlinked
    split_ifs
    · simpa [UdsResult.fail] using
        LeaksExactly.of_keepsOpen (by simp [netEffect]) (by simp [leavesOpen])
    · simpa [UdsResult.fail] using
        LeaksExactly.of_keepsOpen (by simp [netEffect]) (by simp [leavesOpen])
    · rw [ensures_perform_bind]
      rintro (sfd | errno)
      · generalize snprintfMaxLine (udsText pid name dir flags) = str
        refine ((udsConfigure_ensures sfd _ _ flags).and
          (udsConfigure_sfd sfd _ _ flags)).mono fun tr made h hfresh => ?_
        obtain ⟨⟨hkeeps, hsome⟩, hret⟩ := h
        have hnew : sfd ∉ fds := hfresh.2.1
        -- the socket stays open on every path from here on
        have hopen : openAfter netEffect fds
            ((.unlink str, unlinked) :: (.socketUnix type, .ok sfd) :: tr) = insert sfd fds :=
          openAfter_of_keeps hkeeps
        have hnone : NoneLeftOpen
            ((.unlink str, unlinked) :: (.socketUnix type, .ok sfd) :: tr) ↔ NoneLeftOpen tr := by
          simp [leavesOpen]
        rw [hopen, handsOver_insert_iff hnew hret, hnone]
        refine ⟨hsome, fun hne => hsome.mp ?_⟩
        exact hret.resolve_left hne
      · simpa [UdsResult.fail] using
          LeaksExactly.of_keepsOpen (by simp [netEffect]) (by simp [leavesOpen])

theorem baaUdsStreamServer_ensures (fds : Finset ℕ) (pid : ℕ) (name dir : Option (List Byte)) :
    (baaUdsStreamServer pid name dir).Ensures fun tr made => LeaksExactly fds tr made.sfd := by
  rw [baaUdsStreamServer, ensures_bind]
  refine (udsSocket_ensures fds pid name dir .stream useBind).mono fun tr made h => ?_
  obtain ⟨_ | sfd, socketF⟩ := made
  · simpa using h
  · simp only [ensures_perform_bind]
    rintro (v | errno)
    · simpa using LeaksExactly.listen h (.inl ⟨v, rfl, rfl⟩)
    · simpa using LeaksExactly.listen h (.inr ⟨errno, rfl, rfl⟩)

/-! ### The address loops -/

/-- The descriptors are accounted for, and nothing is left open, if the kernel hands out new
ones. -/
def LeaksNothing (fds : Finset ℕ) (tr : List (NetCall × SysRet)) (ret : Option ℕ) : Prop :=
  FreshAlong netEffect fds tr →
    HandsOver fds (openAfter netEffect fds tr) ret ∧ NoneLeftOpen tr

private theorem LeaksNothing.leaksExactly {ret : Option ℕ} (h : LeaksNothing fds tr ret) :
    LeaksExactly fds tr ret :=
  fun hfresh => ⟨iff_of_true (h hfresh).1 (h hfresh).2, fun _ => (h hfresh).2⟩

/-- What opens and closes nothing may stand in front. -/
theorem LeaksNothing.keep {ret : Option ℕ} (h : LeaksNothing fds tr' ret) (hkeeps : KeepsOpen tr)
    (hnone : NoneLeftOpen tr) : LeaksNothing fds (tr ++ tr') ret := by
  intro hfresh
  rw [freshAlong_append, openAfter_of_keeps hkeeps] at hfresh
  rw [openAfter_append, openAfter_of_keeps hkeeps, noneLeftOpen_append]
  exact ⟨(h hfresh.2).1, hnone, (h hfresh.2).2⟩

theorem LeaksNothing.cons {ret : Option ℕ} (h : LeaksNothing fds tr ret)
    (hkeeps : netEffect e = .keeps) (hnone : leavesOpen e = false) :
    LeaksNothing fds (e :: tr) ret :=
  LeaksNothing.keep h (List.forall_mem_singleton.mpr hkeeps) (List.forall_mem_singleton.mpr hnone)

/-- And behind. -/
private theorem LeaksNothing.thenKeep {ret : Option ℕ} (h : LeaksNothing fds tr ret)
    (tr' : List (NetCall × SysRet)) (hkeeps : KeepsOpen tr') (hnone : NoneLeftOpen tr') :
    LeaksNothing fds (tr ++ tr') ret := by
  intro hfresh
  obtain ⟨hover, hnone'⟩ := h (freshAlong_append.mp hfresh).1
  rw [openAfter_append, openAfter_of_keeps hkeeps, noneLeftOpen_append]
  exact ⟨hover, hnone', hnone⟩

/-- **An attempt that is given up** has closed its socket, so that the loop goes on as if it had not
been made. -/
theorem LeaksNothing.attempt {ret : Option ℕ} (h : LeaksNothing fds tr' ret) (ai : AddrInfo)
    (sfd : ℕ) (r : SysRet) (tr : List (NetCall × SysRet)) (hkeeps : KeepsOpen tr)
    (hnone : NoneLeftOpen tr) :
    LeaksNothing fds ((.socketInet ai, .ok sfd) :: (tr ++ (.close sfd, r) :: tr')) ret := by
  rintro ⟨hnew, hfresh⟩
  have hnew' : sfd ∉ fds := hnew
  have herase : (insert sfd fds).erase sfd = fds := Finset.erase_insert hnew'
  rw [freshAlong_append, openAfter_of_keeps hkeeps] at hfresh
  obtain ⟨-, -, hfresh⟩ := hfresh
  simp only [netEffect, FdEffect.apply, herase] at hfresh
  obtain ⟨hover, hnone'⟩ := h hfresh
  rw [openAfter, openAfter_append, openAfter_of_keeps hkeeps, openAfter]
  simp only [netEffect, FdEffect.apply, herase]
  exact ⟨hover, by simp [leavesOpen, hnone, hnone']⟩

/-- An attempt that succeeds has opened the socket that is returned. -/
theorem LeaksNothing.success {ai : AddrInfo} {sfd : ℕ} (hkeeps : KeepsOpen tr)
    (hnone : NoneLeftOpen tr) :
    LeaksNothing fds ((.socketInet ai, .ok sfd) :: tr) (some sfd) := by
  rintro ⟨hnew, -⟩
  refine ⟨⟨hnew, ?_⟩, by simp [leavesOpen, hnone]⟩
  rw [openAfter, openAfter_of_keeps hkeeps]
  rfl

theorem connectInetLoop_ensures (fds : Finset ℕ) (result : AddrInfo) (rp : List AddrInfo) :
    (connectInetLoop result rp).Ensures (LeaksNothing fds) := by
  induction rp with
  | nil =>
    rw [connectInetLoop, ensures_pure]
    exact fun _ => ⟨rfl, noneLeftOpen_nil⟩
  | cons _ aiNext ih =>
    rw [connectInetLoop, ensures_perform_bind]
    rintro (sfd | errno)
    · refine ensures_setTimeout_bind fun r₁ _ => ensures_setTimeout_bind fun r₂ _ => ?_
      rw [ensures_perform_bind]
      rintro (v | errno)
      · rw [ensures_pure]
        exact LeaksNothing.success (by simp [netEffect]) (by simp [leavesOpen])
      · rw [ensures_perform_bind]
        intro closed
        refine ih.mono fun tr ret h => ?_
        exact h.attempt result sfd closed [(.setTimeout sfd .rcvTimeo recvTimeout, r₁),
          (.setTimeout sfd .sndTimeo sendTimeout, r₂), (.connectInet sfd result, .failed errno)]
          (by simp [netEffect]) (by simp [leavesOpen])
    · exact ih.mono fun tr ret h =>
        h.cons rfl rfl

theorem connectInetSocket_ensures (fds : Finset ℕ) (addresses : List AddrInfo)
    (host service : Option (List Byte)) (type : SockType) :
    (connectInetSocket addresses host service type).Ensures (LeaksNothing fds) := by
  have hnothing : LeaksNothing fds [] none := fun _ => ⟨rfl, noneLeftOpen_nil⟩
  have hloop : (connectInetAddresses addresses).Ensures (LeaksNothing fds) := by
    cases addresses with
    | nil => simpa [connectInetAddresses] using hnothing
    | cons result aiNext => exact connectInetLoop_ensures fds result _
  rw [connectInetSocket, ensures_perform_bind]
  rintro (v | errno)
  · simp only [ensures_perform_bind]
    intro old set
    rw [ensures_bind]
    refine hloop.mono fun tr ret h => ?_
    simp only [ensures_perform_bind, ensures_pure]
    intro off back freed
    -- the alarm and the address list are no descriptors
    have htail := h.thenKeep
      [(.alarm 0, off), (.signalAlrm .oldHandler, back), (.freeaddrinfo, freed)]
      (by simp [netEffect]) (by simp [leavesOpen])
    exact ((htail.cons rfl rfl).cons rfl rfl).cons rfl rfl
  · simpa using hnothing.cons rfl rfl

theorem inetReuseAddr_ensures (sfd : ℕ) (flags : Byte) :
    (inetReuseAddr sfd flags).Ensures fun tr _ => KeepsOpen tr ∧ NoneLeftOpen tr := by
  rw [inetReuseAddr]
  split_ifs
  · rw [ensures_perform_bind]
    rintro (_ | _) <;> simp [netEffect, leavesOpen]
  · simp

theorem bindInetLoop_ensures (fds : Finset ℕ) (flags : Byte) (result : AddrInfo)
    (rp : List AddrInfo) : (bindInetLoop flags result rp).Ensures (LeaksNothing fds) := by
  have hnothing : LeaksNothing fds [] none := fun _ => ⟨rfl, noneLeftOpen_nil⟩
  induction rp with
  | nil =>
    rw [bindInetLoop, ensures_perform_bind]
    intro freed
    simpa using hnothing.cons rfl rfl
  | cons _ aiNext ih =>
    rw [bindInetLoop, ensures_perform_bind]
    rintro (sfd | errno)
    · rw [ensures_bind]
      refine (inetReuseAddr_ensures sfd flags).mono fun tr₀ reuse hreuse => ?_
      obtain ⟨hkeeps₀, hnone₀⟩ := hreuse
      cases reuse with
      -- a socket that is ready to be bound
      | true =>
        rw [if_pos rfl]
        refine ensures_setTimeout_bind fun r₁ _ => ensures_setTimeout_bind fun r₂ _ => ?_
        rw [ensures_perform_bind]
        rintro (v | errno)
        · rw [ensures_perform_bind]
          intro freed
          rw [ensures_pure]
          exact LeaksNothing.success (by simp [netEffect, hkeeps₀]) (by simp [leavesOpen, hnone₀])
        · rw [ensures_perform_bind]
          intro closed
          refine ih.mono fun tr ret h => ?_
          have hattempt := h.attempt result sfd closed
            (tr₀ ++ [(.setTimeout sfd .sndTimeo sendTimeout, r₁),
              (.setTimeout sfd .rcvTimeo recvTimeout, r₂), (.bindInet sfd result, .failed errno)])
            (by simp [netEffect, hkeeps₀]) (by simp [leavesOpen, hnone₀])
          simpa using hattempt
      | false =>
        simp only [Bool.false_eq_true, if_false, ensures_perform_bind, ensures_pure]
        intro freed closed
        have hattempt := hnothing.attempt result sfd closed (tr₀ ++ [(.freeaddrinfo, freed)])
          (by simp [netEffect, hkeeps₀]) (by simp [leavesOpen, hnone₀])
        simpa using hattempt
    · -- no socket, and the next address is tried
      exact ih.mono fun tr ret h =>
        h.cons rfl rfl

theorem bindInetSocket_ensures (fds : Finset ℕ) (addresses : List AddrInfo)
    (service : Option (List Byte)) (type : SockType) (flags : Byte) :
    (bindInetSocket addresses service type flags).Ensures (LeaksNothing fds) := by
  have hnothing : LeaksNothing fds [] none := fun _ => ⟨rfl, noneLeftOpen_nil⟩
  rw [bindInetSocket, ensures_perform_bind]
  rintro (v | errno)
  · have hloop : (bindInetAddresses flags addresses).Ensures (LeaksNothing fds) := by
      cases addresses with
      | nil =>
        rw [bindInetAddresses, ensures_perform_bind]
        intro freed
        simpa using hnothing.cons rfl rfl
      | cons result aiNext => exact bindInetLoop_ensures fds flags result _
    exact hloop.mono fun tr ret h =>
      h.cons rfl rfl
  · simpa using hnothing.cons rfl rfl

theorem baaInetStreamServer_ensures (fds : Finset ℕ) (addresses : List AddrInfo)
    (service : Option (List Byte)) :
    (baaInetStreamServer addresses service).Ensures (LeaksExactly fds) := by
  rw [baaInetStreamServer, ensures_bind]
  refine (bindInetSocket_ensures fds addresses service .stream useListen).mono fun tr ret h => ?_
  cases ret with
  | none => simpa using h.leaksExactly
  | some sfd =>
    simp only [ensures_perform_bind]
    rintro (v | errno)
    · simpa using LeaksExactly.listen h.leaksExactly (.inl ⟨v, rfl, rfl⟩)
    · simpa using LeaksExactly.listen h.leaksExactly (.inr ⟨errno, rfl, rfl⟩)

/-! ### The eight constructors -/

/-- The exported constructors with their arguments; those of the internet sockets also with what
the look-up comes to, those of the Unix domain with the process they run in. -/
inductive SocketConstructor
  | udsDgramServer (pid : ℕ) (name dir : Option (List Byte))
  | udsStreamServer (pid : ℕ) (name dir : Option (List Byte))
  | udsDgramClient (pid : ℕ) (name dir : Option (List Byte))
  | udsStreamClient (pid : ℕ) (name dir : Option (List Byte))
  | inetDgramClient (addresses : List AddrInfo) (host service : Option (List Byte))
  | inetStreamClient (addresses : List AddrInfo) (host service : Option (List Byte))
  | inetDgramServer (addresses : List AddrInfo) (service : Option (List Byte))
  | inetStreamServer (addresses : List AddrInfo) (service : Option (List Byte))

/-- The socket a constructor returns, `none` for -1. -/
def SocketConstructor.program : SocketConstructor → NetProgram (Option ℕ)
  | udsDgramServer pid name dir => return (← baaUdsDgramServer pid name dir).sfd
  | udsStreamServer pid name dir => return (← baaUdsStreamServer pid name dir).sfd
  | udsDgramClient pid name dir => return (← baaUdsDgramClient pid name dir).sfd
  | udsStreamClient pid name dir => return (← baaUdsStreamClient pid name dir).sfd
  | inetDgramClient addresses host service => baaInetDgramClient addresses host service
  | inetStreamClient addresses host service => baaInetStreamClient addresses host service
  | inetDgramServer addresses service => baaInetDgramServer addresses service
  | inetStreamServer addresses service => baaInetStreamServer addresses service

private theorem ensures_sfd {p : NetProgram UdsResult}
    (h : p.Ensures fun tr made => LeaksExactly fds tr made.sfd) :
    (do return (← p).sfd : NetProgram (Option ℕ)).Ensures (LeaksExactly fds) := by
  rw [ensures_bind]
  exact h.mono fun tr made hmade => by simpa using hmade

private theorem SocketConstructor.ensures (fds : Finset ℕ) (c : SocketConstructor) :
    c.program.Ensures (LeaksExactly fds) := by
  cases c with
  | udsDgramServer pid name dir => exact ensures_sfd (udsSocket_ensures fds pid name dir _ _)
  | udsStreamServer pid name dir => exact ensures_sfd (baaUdsStreamServer_ensures fds pid name dir)
  | udsDgramClient pid name dir => exact ensures_sfd (udsSocket_ensures fds pid name dir _ _)
  | udsStreamClient pid name dir => exact ensures_sfd (udsSocket_ensures fds pid name dir _ _)
  | inetDgramClient addresses host service =>
    have h := connectInetSocket_ensures fds addresses host service .dgram
    exact h.mono fun _ _ hnothing => hnothing.leaksExactly
  | inetStreamClient addresses host service =>
    have h := connectInetSocket_ensures fds addresses host service .stream
    exact h.mono fun _ _ hnothing => hnothing.leaksExactly
  | inetDgramServer addresses service =>
    have h := bindInetSocket_ensures fds addresses service .dgram 0
    exact h.mono fun _ _ hnothing => hnothing.leaksExactly
  | inetStreamServer addresses service => exact baaInetStreamServer_ensures fds addresses service

/-- **When a constructor leaks.** For every constructor, its arguments and every pattern of
outcomes: a failure leaves the open descriptors as they were, and success adds the one that is
returned and no other, if and only if no `bind`, `connect` or `malloc` behind a Unix domain
socket fails and no `listen` does. -/
theorem handsOver_iff (c : SocketConstructor) (fds : Finset ℕ) {tr : List (NetCall × SysRet)}
    {ret : Option ℕ} (hexec : c.program.Exec tr ret) (hfresh : FreshAlong netEffect fds tr) :
    HandsOver fds (openAfter netEffect fds tr) ret ↔ NoneLeftOpen tr :=
  (c.ensures fds tr ret hexec hfresh).1

/-- `baa_uds_stream_client("s", NULL)` in process 7. -/
def streamClient : SocketConstructor := .udsStreamClient 7 (some [115]) none

/-- Outcomes in which the `connect` is refused. -/
def refusedConnect : List SysRet := [.failed .enoent, .ok 3, .ok 0, .ok 0, .failed (.other 111)]

/-- An execution of the client with the standard descriptors open, which gets a descriptor that is
not. -/
theorem handsOver_iff_refusedConnect :
    ∃ tr ret, streamClient.program.Exec tr ret ∧ FreshAlong netEffect {0, 1, 2} tr ∧
      (HandsOver {0, 1, 2} (openAfter netEffect {0, 1, 2} tr) ret ↔ NoneLeftOpen tr) := by
  have hrun : (streamClient.program.eval refusedConnect).map
      (fun e => decide (FreshAlong netEffect {0, 1, 2} e.1)) = some true := by decide +kernel
  obtain ⟨⟨tr, ret⟩, heval, hfresh⟩ := Option.map_eq_some_iff.mp hrun
  have hfresh' : FreshAlong netEffect {0, 1, 2} tr := of_decide_eq_true hfresh
  exact ⟨tr, ret, exec_of_eval heval, hfresh',
    handsOver_iff streamClient _ (exec_of_eval heval) hfresh'⟩

/-- The refused client returns -1 and leaves descriptor 3 open. -/
theorem not_handsOver_refusedConnect :
    ¬ ∀ (c : SocketConstructor) (fds : Finset ℕ) (tr : List (NetCall × SysRet)) (ret : Option ℕ),
      c.program.Exec tr ret → FreshAlong netEffect fds tr →
        HandsOver fds (openAfter netEffect fds tr) ret := by
  have hrun : (streamClient.program.eval refusedConnect).map
      (fun e => (decide (FreshAlong netEffect {0, 1, 2} e.1),
        decide (HandsOver {0, 1, 2} (openAfter netEffect {0, 1, 2} e.1) e.2))) =
      some (true, false) := by decide +kernel
  obtain ⟨⟨tr, ret⟩, heval, hval⟩ := Option.map_eq_some_iff.mp hrun
  intro h
  have hfresh : FreshAlong netEffect {0, 1, 2} tr := of_decide_eq_true (congrArg Prod.fst hval)
  exact of_decide_eq_false (congrArg Prod.snd hval)
    (h streamClient {0, 1, 2} tr ret (exec_of_eval heval) hfresh)

end Libbaalue
