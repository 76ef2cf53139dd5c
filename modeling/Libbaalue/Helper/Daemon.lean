import Libbaalue.Foundations.CallProgram
import Libbaalue.Foundations.DescriptorTable
import Libbaalue.Platform

/-!
# `baa_become_daemon`

The function as a program over its calls, in the process that goes on: after each `fork` that is
the child. `DaemonProc` is what the calls change of the process, and `KernelAlong` says that the
kernel hands out the lowest descriptor that is free.

A failure of `setsid`, of one of the `open`s, or to close everything is logged at most; logging
it may open a connection to the system log. `daemonClean_iff` says when a return value of 0 means
that the process is a daemon with a clean descriptor table.

An execution that returns 0 is cut into the parts of the function, each with its calls
(`DaemonRun`), and every part is followed on the process by itself. The table of descriptors is what
makes it hard: what the loop closes depends on the limit, and where the `open`s land on what the
loop has left, which the library of descriptor tables counts. The directory and the session are read
off the calls.
-/

namespace Libbaalue

open CallProgram DescriptorTable

/-- What a descriptor is open on. The files of the caller are told apart by a number; that one of
them may be `/dev/null` is of no use to it. -/
inductive OpenFile
  | devNull
  | syslog
  | other (id : ℕ)
  deriving DecidableEq, Repr

/-- The calls of `baa_become_daemon`; the answer to `errnoMsg`, which is `baa_errno_msg`, tells
whether it has opened a connection to the system log. -/
inductive DaemonCall
  | fork
  | setsid
  | ignoreSighup
  | chdirRoot
  | sysconfOpenMax
  | close (fd : ℕ)
  | openDevNull (flags : CInt)
  | errnoMsg
  deriving DecidableEq, Repr

/-- How the function ends. -/
inductive DaemonEnd
  | exited
  | returned (ret : CInt)
  deriving DecidableEq, Repr

/-- A program over these calls. -/
abbrev DaemonProgram (α : Type) := CallProgram DaemonCall SysRet α

/-- Log a failure, by `baa_errno_msg`, which may open a connection to the system log. -/
def logIf (failed : Prop) [Decidable failed] : DaemonProgram Unit :=
  if failed then do
    let _ ← perform .errnoMsg
    return ()
  else return ()

/-- A `fork`: an error is returned, the parent exits, and the child goes on. -/
def forkOff (child : DaemonProgram DaemonEnd) : DaemonProgram DaemonEnd := do
  match ← perform .fork with
  | .failed _ =>
    let _ ← perform .errnoMsg
    return .returned (-1)
  | .ok pid => if pid ≠ 0 then return .exited else child

/-- The loop that closes `k` descriptors, from `i` on. -/
def closeLoop (i : ℕ) : ℕ → DaemonProgram Unit
  | 0 => return ()
  | k + 1 => do
    let _ ← perform (.close i)
    closeLoop (i + 1) k

/-- `max_fd`: the limit, or 64 if there is none. -/
def maxFd (limit : SysRet) : CInt := if limit.toCInt = -1 then 64 else limit.toCInt

/-- `baa_become_daemon`, as seen by one process: behind each `fork` it goes on in the child, and the
parent exits. -/
def baaBecomeDaemon : DaemonProgram DaemonEnd :=
  forkOff do
    let session ← perform .setsid
    logIf (session.isOk = false)
    let _ ← perform .ignoreSighup
    forkOff do
      match ← perform .chdirRoot with
      | .failed _ =>
        let _ ← perform .errnoMsg
        return .returned (-1)
      | .ok _ =>
        let limit ← perform .sysconfOpenMax
        closeLoop 0 (maxFd limit).toInt.toNat
        let fd0 ← perform (.openDevNull oRdonly)
        let fd1 ← perform (.openDevNull oRdwr)
        let fd2 ← perform (.openDevNull oRdwr)
        logIf (fd0.toCInt ≠ 0 ∨ fd1.toCInt ≠ 1 ∨ fd2.toCInt ≠ 2)
        return .returned 0

/-! ### The process -/

/-- What the calls change of the process: its descriptors, its directory, and whether it has a
session of its own that it does not lead. -/
structure DaemonProc where
  fds : ℕ → Option OpenFile
  cwd : List Byte
  sessionLeader : Bool
  newSession : Bool

/-- The process that calls the function. -/
def DaemonProc.entry (fds : ℕ → Option OpenFile) (cwd : List Byte) (sessionLeader : Bool) :
    DaemonProc :=
  ⟨fds, cwd, sessionLeader, false⟩

/-- What a call does to the process; after a `fork` it is the child, which leads no session. -/
def DaemonProc.step (s : DaemonProc) : DaemonCall × SysRet → DaemonProc
  | (.fork, .ok _) => { s with sessionLeader := false }
  | (.setsid, .ok _) => { s with sessionLeader := true, newSession := true }
  | (.chdirRoot, .ok _) => { s with cwd := [47] }
  -- a descriptor is given up whatever `close` returns
  | (.close fd, _) => { s with fds := Function.update s.fds fd none }
  | (.openDevNull _, .ok fd) => { s with fds := Function.update s.fds fd (some .devNull) }
  | (.errnoMsg, .ok fd) => { s with fds := Function.update s.fds fd (some .syslog) }
  | _ => s

/-- The process after a trace. -/
def DaemonProc.after (s : DaemonProc) (tr : List (DaemonCall × SysRet)) : DaemonProc :=
  tr.foldl step s

/-- The kernel hands out the lowest descriptor that is free, which is what the three `open`s rely
on. -/
def DaemonProc.Lowest (s : DaemonProc) : DaemonCall × SysRet → Prop
  | (.openDevNull _, .ok fd) => IsLowestFree s.fds fd
  | _ => True

/-- It does so along a trace. -/
def KernelAlong : DaemonProc → List (DaemonCall × SysRet) → Prop
  | _, [] => True
  | s, e :: tr => s.Lowest e ∧ KernelAlong (s.step e) tr

/-- A daemon with a clean descriptor table: its descriptors are 0, 1 and 2, on `/dev/null`, its
directory is `/`, and it runs in a new session that it does not lead. -/
structure DaemonProc.Clean (s : DaemonProc) : Prop where
  fds : ∀ fd, s.fds fd = if fd < 3 then some .devNull else none
  cwd : s.cwd = [47]
  sessionLeader : s.sessionLeader = false
  newSession : s.newSession = true

/-! ### What is left open -/

/-- The descriptors of the entry that the loop does not reach: those from the limit on, which may
have been lowered below what is open. -/
def leftOpen (fds : ℕ → Option OpenFile) (limit : SysRet) : ℕ → Option OpenFile :=
  closeBelow fds (maxFd limit).toInt.toNat

/-- What the loop leaves open is `/dev/null` on some of 0, 1 and 2, and `opened` is the number of
the others. -/
def FillsUp (fds : ℕ → Option OpenFile) (limit : SysRet) (opened : ℕ) : Prop :=
  (∀ fd, 3 ≤ fd → leftOpen fds limit fd = none) ∧
    (∀ fd < 3, leftOpen fds limit fd = none ∨ leftOpen fds limit fd = some .devNull) ∧
    opened = numFree (leftOpen fds limit) 3

/-- A call that has opened `/dev/null`. -/
def opensDevNull : DaemonCall × SysRet → Bool
  | (.openDevNull _, .ok _) => true
  | _ => false

variable {s : DaemonProc} {tr tr' : List (DaemonCall × SysRet)}

private theorem DaemonProc.after_append : s.after (tr ++ tr') = (s.after tr).after tr' :=
  List.foldl_append

private theorem kernelAlong_append :
    KernelAlong s (tr ++ tr') ↔ KernelAlong s tr ∧ KernelAlong (s.after tr) tr' := by
  induction tr generalizing s with
  | nil => simp [KernelAlong, DaemonProc.after]
  | cons e tr ih => rw [List.cons_append, KernelAlong, KernelAlong, ih, and_assoc]; rfl

/-- The calls of the loop. -/
theorem closeLoop_ensures (i k : ℕ) :
    (closeLoop i k).Ensures fun tr _ => tr.map Prod.fst = (List.range' i k).map .close := by
  induction k generalizing i with
  | zero => simp [closeLoop]
  | succ k ih =>
    rw [closeLoop, ensures_perform_bind]
    refine fun r => (ih (i + 1)).mono fun tr _ hcalls => ?_
    rw [List.map_cons, hcalls, List.range'_succ, List.map_cons]

/-- What the loop does to the process. -/
private theorem after_closeLoop {fds : ℕ → Option OpenFile} {i k : ℕ}
    (hcalls : tr.map Prod.fst = (List.range' i k).map .close) (hs : s.fds = closeBelow fds i) :
    s.after tr = { s with fds := closeBelow fds (i + k) } := by
  induction k generalizing i s tr with
  | zero =>
    obtain rfl : tr = [] := by simpa using hcalls
    rw [Nat.add_zero, ← hs]
    rfl
  | succ k ih =>
    rw [List.range'_succ, List.map_cons, List.map_eq_cons_iff] at hcalls
    obtain ⟨⟨c, r⟩, tr, rfl, rfl, hcalls⟩ := hcalls
    have hstep : (s.step (.close i, r)).fds = closeBelow fds (i + 1) := by
      rw [← closeBelow_succ, ← hs]
      rfl
    have hafter := ih hcalls hstep
    rw [Nat.add_right_comm] at hafter
    exact hafter

/-- Other calls do not open `/dev/null`. -/
private theorem countP_opensDevNull (h : ∀ e ∈ tr, ∀ flags, e.1 ≠ .openDevNull flags) :
    tr.countP opensDevNull = 0 := by
  refine List.countP_eq_zero.mpr fun e he htrue => ?_
  obtain ⟨c, r⟩ := e
  cases c with
  | openDevNull flags => exact h _ he flags rfl
  | _ => cases htrue

/-- What the calls of `open` do. -/
theorem after_opens (hopens : ∀ e ∈ tr, ∃ flags, e.1 = .openDevNull flags)
    (hkernel : KernelAlong s tr) :
    Allocates .devNull s.fds (tr.countP opensDevNull) (s.after tr).fds ∧
      s.after tr = { s with fds := (s.after tr).fds } := by
  induction tr generalizing s with
  | nil => exact ⟨rfl, rfl⟩
  | cons e tr ih =>
    obtain ⟨⟨flags, hcall⟩, hrest⟩ := List.forall_mem_cons.mp hopens
    obtain ⟨c, r⟩ := e
    obtain rfl : c = .openDevNull flags := hcall
    obtain ⟨halloc, hsame⟩ := ih hrest hkernel.2
    cases r with
    | ok fd =>
      rw [List.countP_cons_of_pos rfl]
      exact ⟨⟨fd, hkernel.1, halloc⟩, hsame⟩
    | failed errno =>
      rw [List.countP_cons_of_neg (by simp [opensDevNull])]
      exact ⟨halloc, hsame⟩

/-- A session starts with a call of `setsid` that succeeds. -/
private theorem newSession_after (h : ∀ v, (.setsid, .ok v) ∉ tr) :
    (s.after tr).newSession = s.newSession := by
  induction tr generalizing s with
  | nil => rfl
  | cons e tr ih =>
    have hstep : (s.step e).newSession = s.newSession := by
      rcases e with ⟨c, r⟩
      cases c <;> cases r <;> first | rfl | exact absurd List.mem_cons_self (h _)
    exact (ih fun v hv => h v (List.mem_cons_of_mem _ hv)).trans hstep

/-- What is logged leaves the process alone, or a connection to the system log open. -/
private theorem after_logs (hlogs : ∀ e ∈ tr, e.1 = .errnoMsg) :
    (∀ fd, (.errnoMsg, .ok fd) ∉ tr) ∧ s.after tr = s ∨
      (∃ fd, (.errnoMsg, .ok fd) ∈ tr) ∧ ∃ fd, (s.after tr).fds fd = some .syslog := by
  induction tr using List.reverseRecOn with
  | nil => exact .inl ⟨by simp, rfl⟩
  | append_singleton tr e ih =>
    obtain ⟨c, r⟩ := e
    obtain rfl : c = .errnoMsg := hlogs (c, r) (by simp)
    rw [DaemonProc.after_append]
    cases r with
    | ok fd => exact .inr ⟨⟨fd, by simp⟩, fd, Function.update_self ..⟩
    | failed errno =>
      refine (ih fun e he => hlogs e (by simp [he])).imp ?_ ?_
      · rintro ⟨hquiet, hafter⟩
        exact ⟨by simpa using hquiet, hafter⟩
      · rintro ⟨⟨fd, hfd⟩, hopen⟩
        exact ⟨⟨fd, by simp [hfd]⟩, hopen⟩

/-- What is logged. -/
private theorem logIf_ensures (failed : Prop) [Decidable failed] :
    (logIf failed).Ensures fun tr _ =>
      (∀ e ∈ tr, e.1 = .errnoMsg) ∧ (¬ failed → tr = []) := by
  rw [logIf]
  split_ifs with h
  · simp [h]
  · simp

/-- An error that is logged and returned is not a return value of 0. -/
private theorem error_returned {Q : List (DaemonCall × SysRet) → Prop} :
    Ensures (do
      let _ ← perform .errnoMsg
      return .returned (-1) : DaemonProgram DaemonEnd) fun tr ret => ret = .returned 0 → Q tr := by
  simp

/-- A return value of 0 comes from the child. -/
private theorem forkOff_returned {child : DaemonProgram DaemonEnd}
    {Q : List (DaemonCall × SysRet) → Prop}
    (h : child.Ensures fun tr ret => ret = .returned 0 → Q ((.fork, .ok 0) :: tr)) :
    (forkOff child).Ensures fun tr ret => ret = .returned 0 → Q tr := by
  rw [forkOff, ensures_perform_bind]
  rintro (pid | errno)
  · rcases eq_or_ne pid 0 with rfl | hpid
    · exact h
    · simp [hpid]
  · exact error_returned

/-! ### The executions that return 0 -/

/-- The calls of an execution that returns 0, in the child, part by part. The parts follow the code:
up to the loop, the loop, and the `open`s behind it. -/
structure DaemonRun where
  session : SysRet
  hup : SysRet
  root : ℕ
  limit : SysRet
  logs : List (DaemonCall × SysRet)
  closes : List (DaemonCall × SysRet)
  opens : List (DaemonCall × SysRet)
  logs' : List (DaemonCall × SysRet)
  logs_calls : ∀ e ∈ logs, e.1 = .errnoMsg
  logs_eq_nil : session.isOk = true → logs = []
  closes_calls : closes.map Prod.fst = (List.range' 0 (maxFd limit).toInt.toNat).map .close
  opens_calls :
    opens.map Prod.fst = [.openDevNull oRdonly, .openDevNull oRdwr, .openDevNull oRdwr]
  logs'_calls : ∀ e ∈ logs', e.1 = .errnoMsg

namespace DaemonRun

variable (run : DaemonRun)

/-- The calls in front of the loop. -/
def head : List (DaemonCall × SysRet) :=
  [(.fork, .ok 0), (.setsid, run.session)] ++ run.logs ++
    [(.ignoreSighup, run.hup), (.fork, .ok 0), (.chdirRoot, .ok run.root),
      (.sysconfOpenMax, run.limit)]

/-- The calls of the execution. -/
def trace : List (DaemonCall × SysRet) := run.head ++ (run.closes ++ (run.opens ++ run.logs'))

private theorem close_of_mem {e : DaemonCall × SysRet} (he : e ∈ run.closes) :
    ∃ fd, e.1 = .close fd := by
  have hmem := List.mem_map_of_mem (f := Prod.fst) he
  rw [run.closes_calls, List.mem_map] at hmem
  obtain ⟨fd, -, hfd⟩ := hmem
  exact ⟨fd, hfd.symm⟩

private theorem openDevNull_of_mem {e : DaemonCall × SysRet} (he : e ∈ run.opens) :
    ∃ flags, e.1 = .openDevNull flags := by
  have hmem := List.mem_map_of_mem (f := Prod.fst) he
  rw [run.opens_calls] at hmem
  simp only [List.mem_cons, List.not_mem_nil, or_false] at hmem
  rcases hmem with h | h | h <;> exact ⟨_, h⟩

/-- The calls around the loop and the `open`s. -/
private theorem mem_trace_iff {c : DaemonCall} {r : SysRet} (hclose : ∀ fd, c ≠ .close fd)
    (hopen : ∀ flags, c ≠ .openDevNull flags) :
    (c, r) ∈ run.trace ↔ (c, r) ∈ run.head ∨ (c, r) ∈ run.logs' := by
  have hc : (c, r) ∉ run.closes := fun h => (run.close_of_mem h).elim hclose
  have ho : (c, r) ∉ run.opens := fun h => (run.openDevNull_of_mem h).elim hopen
  simp only [trace, List.mem_append, hc, ho, false_or]

/-- `setsid` is called once. -/
private theorem setsid_mem_trace_iff :
    (∃ v, (.setsid, .ok v) ∈ run.trace) ↔ run.session.isOk = true := by
  have hmem (v : ℕ) : (.setsid, .ok v) ∈ run.trace ↔ run.session = .ok v := by
    have hlogs : (.setsid, .ok v) ∉ run.logs := fun h => by cases run.logs_calls _ h
    have hlogs' : (.setsid, .ok v) ∉ run.logs' := fun h => by cases run.logs'_calls _ h
    rw [run.mem_trace_iff (by simp) (by simp), or_iff_left hlogs', eq_comm]
    simp [head, hlogs]
  simp only [hmem]
  cases run.session <;> simp [SysRet.isOk]

/-- So is `sysconf`. -/
private theorem sysconfOpenMax_mem_trace_iff {limit : SysRet} :
    (.sysconfOpenMax, limit) ∈ run.trace ↔ limit = run.limit := by
  have hlogs : (.sysconfOpenMax, limit) ∉ run.logs := fun h => by cases run.logs_calls _ h
  have hlogs' : (.sysconfOpenMax, limit) ∉ run.logs' := fun h => by cases run.logs'_calls _ h
  rw [run.mem_trace_iff (by simp) (by simp), or_iff_left hlogs']
  simp [head, hlogs]

/-- After a `setsid` that succeeds, messages come at the end only. -/
private theorem errnoMsg_mem_trace_iff (hok : run.session.isOk = true) {r : SysRet} :
    (.errnoMsg, r) ∈ run.trace ↔ (.errnoMsg, r) ∈ run.logs' := by
  rw [run.mem_trace_iff (by simp) (by simp)]
  simp [head, run.logs_eq_nil hok]

private theorem countP_trace : run.trace.countP opensDevNull = run.opens.countP opensDevNull := by
  have hlogs : run.logs.countP opensDevNull = 0 :=
    countP_opensDevNull fun e he flags h => by cases (run.logs_calls e he).symm.trans h
  have hlogs' : run.logs'.countP opensDevNull = 0 :=
    countP_opensDevNull fun e he flags h => by cases (run.logs'_calls e he).symm.trans h
  have hcloses : run.closes.countP opensDevNull = 0 := by
    refine countP_opensDevNull fun e he flags h => ?_
    obtain ⟨fd, hfd⟩ := run.close_of_mem he
    cases hfd.symm.trans h
  have hhead : run.head.countP opensDevNull = 0 := by
    rw [head, List.countP_append, List.countP_append, hlogs]
    rfl
  simp only [trace, List.countP_append, hhead, hcloses, hlogs', Nat.zero_add, Nat.add_zero]

end DaemonRun

/-- What a return value of 0 has gone through. -/
theorem baaBecomeDaemon_returned :
    baaBecomeDaemon.Ensures fun tr ret =>
      ret = .returned 0 → ∃ run : DaemonRun, run.trace = tr := by
  rw [baaBecomeDaemon]
  refine forkOff_returned ?_
  rw [ensures_perform_bind]
  intro session
  rw [ensures_bind]
  refine (logIf_ensures _).mono fun logs _ hlogIf => ?_
  obtain ⟨hlogs, hnone⟩ := hlogIf
  rw [ensures_perform_bind]
  intro hup
  refine forkOff_returned ?_
  rw [ensures_perform_bind]
  rintro (root | errno)
  · rw [ensures_perform_bind]
    intro limit
    rw [ensures_bind]
    refine (closeLoop_ensures _ _).mono fun closes _ hcloses => ?_
    simp only [ensures_perform_bind]
    intro fd0 fd1 fd2
    rw [ensures_bind]
    refine (logIf_ensures _).mono fun logs' _ hlogIf => ?_
    rw [ensures_pure]
    intro _
    refine ⟨⟨session, hup, root, limit, logs, closes, [(.openDevNull oRdonly, fd0),
      (.openDevNull oRdwr, fd1), (.openDevNull oRdwr, fd2)], logs', hlogs, fun hok => ?_, hcloses,
      rfl, hlogIf.1⟩, ?_⟩
    · exact hnone (by simp [hok])
    · simp [DaemonRun.trace, DaemonRun.head]
  · exact error_returned

/-! ### When the table is clean -/

/-- Without a `setsid` that succeeds there is no new session. -/
private theorem not_clean_of_setsid {fds : ℕ → Option OpenFile} {cwd : List Byte}
    {sessionLeader : Bool} (h : ∀ v, (.setsid, .ok v) ∉ tr) :
    ¬ ((DaemonProc.entry fds cwd sessionLeader).after tr).Clean := by
  intro hclean
  have hsession := hclean.newSession
  rw [newSession_after h] at hsession
  cases hsession

/-- From the loop on, in a new session that the process does not lead. -/
private theorem clean_iff_fillsUp (run : DaemonRun) (hcwd : s.cwd = [47])
    (hleader : s.sessionLeader = false) (hsession : s.newSession = true)
    (hkernel : KernelAlong s (run.closes ++ (run.opens ++ run.logs'))) :
    (s.after (run.closes ++ (run.opens ++ run.logs'))).Clean ↔
      (∀ fd, (.errnoMsg, .ok fd) ∉ run.logs') ∧
        FillsUp s.fds run.limit (run.opens.countP opensDevNull) := by
  have hzero : s.fds = closeBelow s.fds 0 := rfl
  have hclosed := after_closeLoop run.closes_calls hzero
  rw [kernelAlong_append, hclosed, kernelAlong_append, Nat.zero_add] at hkernel
  obtain ⟨halloc, hsame⟩ := after_opens (fun _ => run.openDevNull_of_mem) hkernel.2.1
  rw [DaemonProc.after_append, hclosed, DaemonProc.after_append, Nat.zero_add]
  generalize DaemonProc.after _ run.opens = s' at halloc hsame ⊢
  rcases after_logs (s := s') run.logs'_calls with ⟨hquiet, hafter⟩ | ⟨⟨fd, hfd⟩, fd', hopen⟩
  · have hclean : s'.Clean ↔ ∀ fd, s'.fds fd = if fd < 3 then some .devNull else none := by
      refine ⟨DaemonProc.Clean.fds, fun hfds => ⟨hfds, ?_, ?_, ?_⟩⟩
      · rw [hsame]
        exact hcwd
      · rw [hsame]
        exact hleader
      · rw [hsame]
        exact hsession
    rw [hafter, hclean, halloc.eq_iff]
    exact (and_iff_right hquiet).symm
  · refine iff_of_false (fun hclean => ?_) fun h => h.1 fd hfd
    have hnull := hclean.fds fd'
    rw [hopen] at hnull
    split_ifs at hnull with hlt
    cases hnull

/-- **When a daemon starts with a clean descriptor table.** In every execution that returns 0,
whatever is open at entry: if and only if `setsid` succeeded, logging opened nothing, and what
the loop leaves open together with the `open`s that succeeded fills up 0, 1 and 2. -/
theorem daemonClean_iff (fds : ℕ → Option OpenFile) (cwd : List Byte) (sessionLeader : Bool) :
    baaBecomeDaemon.Ensures fun tr ret =>
      KernelAlong (.entry fds cwd sessionLeader) tr → ret = .returned 0 →
        (((DaemonProc.entry fds cwd sessionLeader).after tr).Clean ↔
          (∃ v, (.setsid, .ok v) ∈ tr) ∧ (∀ fd, (.errnoMsg, .ok fd) ∉ tr) ∧
            ∃ limit, (.sysconfOpenMax, limit) ∈ tr ∧
              FillsUp fds limit (tr.countP opensDevNull)) := by
  refine baaBecomeDaemon_returned.mono fun tr ret hreturned hkernel hret => ?_
  obtain ⟨run, rfl⟩ := hreturned hret
  by_cases hsetsid : ∃ v, (.setsid, .ok v) ∈ run.trace
  · have hok : run.session.isOk = true := run.setsid_mem_trace_iff.mp hsetsid
    have hhead : (DaemonProc.entry fds cwd sessionLeader).after run.head =
        ⟨fds, [47], false, true⟩ := by
      obtain ⟨v, hv⟩ : ∃ v, run.session = .ok v := by
        revert hok
        cases run.session <;> simp [SysRet.isOk]
      rw [DaemonRun.head, run.logs_eq_nil hok, hv]
      rfl
    rw [DaemonRun.trace, kernelAlong_append, hhead] at hkernel
    have hclean := clean_iff_fillsUp run rfl rfl rfl hkernel.2
    simp only [run.errnoMsg_mem_trace_iff hok, run.sysconfOpenMax_mem_trace_iff, exists_eq_left,
      run.countP_trace, and_iff_right hsetsid]
    rw [DaemonRun.trace, DaemonProc.after_append, hhead, hclean]
  · exact iff_of_false (not_clean_of_setsid (not_exists.mp hsetsid)) fun h => hsetsid h.1

/-- Where `/dev/null` does not exist the daemon starts without 0, 1 and 2. Where the limit is 3
and 5 is still open, opened before the limit was lowered, it stays open. Both return 0. -/
theorem not_daemonClean :
    (∃ tr, baaBecomeDaemon.Exec tr (.returned 0) ∧
      KernelAlong (.entry (fun _ => none) [47] false) tr ∧
      ¬ ((DaemonProc.entry (fun _ => none) [47] false).after tr).Clean) ∧
    ∃ tr, baaBecomeDaemon.Exec tr (.returned 0) ∧
      KernelAlong (.entry (Function.update (fun _ => none) 5 (some (.other 0))) [47] false) tr ∧
      ¬ ((DaemonProc.entry (Function.update (fun _ => none) 5 (some (.other 0))) [47] false).after
        tr).Clean := by
  have hmissing := @exec_of_eval _ _ _ baaBecomeDaemon [.ok 0, .ok 7, .ok 0, .ok 0, .ok 0,
    .ok 3, .ok 0, .ok 0, .ok 0, .failed .enoent, .failed .enoent, .failed .enoent,
    .failed (.other 0)] _ rfl
  have hlowered := @exec_of_eval _ _ _ baaBecomeDaemon [.ok 0, .ok 7, .ok 0, .ok 0, .ok 0,
    .ok 3, .ok 0, .ok 0, .ok 0, .ok 0, .ok 1, .ok 2] _ rfl
  refine ⟨⟨_, hmissing, by simp [KernelAlong, DaemonProc.Lowest], fun h => ?_⟩, _, hlowered,
    ?_, fun h => ?_⟩
  · exact absurd (h.fds 0) (by decide)
  · refine ⟨trivial, trivial, trivial, trivial, trivial, trivial, trivial, trivial, trivial,
      ⟨rfl, by decide⟩, ⟨rfl, by decide⟩, ⟨rfl, by decide⟩, trivial⟩
  · exact absurd (h.fds 5) (by decide)

end Libbaalue
