import Libbaalue.Foundations.CallReturn
import Libbaalue.Helper.PidFile

/-!
# Interrupted calls of `baa_create_file_with_pid`

The call in an environment that interrupts `open` and `ftruncate` some times before it lets them
succeed or fail, and counts how often they are made. The jump behind `ftruncate` makes the call
again, as often as it is interrupted (`returns_ftruncate`); the jump behind `open` only looks at
the same result again, so that one interruption is enough for the call not to return
(`not_returns_openSpin`, `retriesInterrupted_iff`).

How often a call is interrupted is a number, and it is finite, so a retry that is written as it
should be comes to an end by induction on it. The statement counts the calls that are made, since a
loop that looks at an old result again makes none. All other calls succeed in this environment, in
which nothing but the interruptions is looked at.
-/

namespace Libbaalue

open CallMachine

/-- What the two calls come to; all others succeed. Each is interrupted a number of times and has an
outcome then. -/
structure PidFileOutcomes where
  openExcl : Attempts
  ftruncate : Attempts

/-- How often the two calls were made. -/
structure PidFileCounts where
  opens : ℕ
  ftruncates : ℕ
  deriving DecidableEq, Repr

/-- The answers to the calls of the process `pid`; `write` writes all it is given. -/
def PidFileOutcomes.answer (o : PidFileOutcomes) (pid : ℕ) (w : PidFileCounts) :
    PidFileSyscall → SysRet × PidFileCounts
  | .openExcl _ => (o.openExcl.outcome w.opens, { w with opens := w.opens + 1 })
  | .ftruncate _ => (o.ftruncate.outcome w.ftruncates, { w with ftruncates := w.ftruncates + 1 })
  | .write _ _ => (.ok (pidLine pid).length, w)
  | .unlink _ | .malloc _ | .lockRegion _ | .close _ | .spin | .returned _ => (.ok 0, w)

/-- The call has returned. -/
def PidFileCall.IsReturned (s : PidFileCall) : Prop := ∃ pidFile, s.pc = .returned pidFile

/-- The call comes from one state to another in which it has returned, while the two calls are
counted. -/
abbrev PidFileOutcomes.Returns (o : PidFileOutcomes) (pid : ℕ) (s : PidFileCall)
    (w : PidFileCounts) (s' : PidFileCall) (w' : PidFileCounts) : Prop :=
  (baaCreateFileWithPid pid).Returns (o.answer pid) PidFileCall.IsReturned s w s' w'

/-- The call terminates, makes one further system call for every interruption, and returns the
path if both calls succeed at last, and `NULL` otherwise. -/
def RetriesInterrupted (pid : ℕ) (name dir : List Byte) (o : PidFileOutcomes) : Prop :=
  ∃ s w pidFile, o.Returns pid (.start (some name) (some dir)) ⟨0, 0⟩ s w ∧
    s.pc = .returned pidFile ∧
    w.opens = o.openExcl.interrupted + 1 ∧
    w.ftruncates = (if o.openExcl.last.isOk then o.ftruncate.interrupted + 1 else 0) ∧
    pidFile = if o.openExcl.last.isOk ∧ o.ftruncate.last.isOk then
      some (snprintfMaxLine (pidFilePath name dir)) else none

variable {pid : ℕ} {o : PidFileOutcomes} {s s' : PidFileCall} {w w' : PidFileCounts}

/-! ### `open` -/

/-- Behind an `open` that was interrupted, the call does not return. -/
theorem not_returns_openSpin (h : s.pc = .openSpin) :
    ¬ o.Returns pid s w s' w' := by
  refine not_returns_of_stuck (P := fun s => s.pc = .openSpin) ?_ ?_ h
  · rintro s hs ⟨pidFile, hpc⟩
    cases hs.symm.trans hpc
  · intro s r hs
    cases r <;> simp only [baaCreateFileWithPid, hs]

/-! ### `ftruncate` -/

attribute [local irreducible] pidLine

/-- **`ftruncate` is made again** until it is not interrupted any more, and the rest of the call
follows its last outcome. -/
theorem returns_ftruncate {n : ℕ} (hn : w.ftruncates + n = o.ftruncate.interrupted)
    (hs : s.pc = .ftruncate) :
    o.Returns pid s w s' w' ↔
      o.Returns pid ((baaCreateFileWithPid pid).resume s o.ftruncate.last)
        ⟨w.opens, o.ftruncate.interrupted + 1⟩ s' w' := by
  have hgoes : ¬ s.IsReturned := fun ⟨_, hpc⟩ => nomatch hs.symm.trans hpc
  have hstep : ∀ w : PidFileCounts, o.Returns pid s w s' w' ↔
      o.Returns pid ((baaCreateFileWithPid pid).resume s (o.ftruncate.outcome w.ftruncates))
        ⟨w.opens, w.ftruncates + 1⟩ s' w' := fun w =>
    returns_step hgoes (by simp only [baaCreateFileWithPid, hs, PidFileOutcomes.answer]) rfl
  induction n generalizing w with
  | zero =>
    have hcount : w.ftruncates = o.ftruncate.interrupted := hn
    have hlast : o.ftruncate.outcome w.ftruncates = o.ftruncate.last := if_neg (by omega)
    rw [hstep, hlast, hcount]
  | succ n ih =>
    have hagain : o.ftruncate.outcome w.ftruncates = .failed .eintr := if_pos (by omega)
    have hself : (baaCreateFileWithPid pid).resume s (.failed .eintr) = s := by
      simp only [baaCreateFileWithPid, hs, if_true]
    rw [hstep, hagain, hself]
    exact ih (by simp only; omega)

/-- The label `error`, with the descriptor that is open. -/
private theorem returns_error {fd : ℕ} (hs : s.fd = some fd) :
    o.Returns pid s.error w s' w' ↔
      s' = { s with pidFile := none, pc := .returned none } ∧ w' = w := by
  have herror : s.error = { s with pidFile := none, pc := .errorClose } := by
    rw [PidFileCall.error, hs]
  rw [herror]
  calc o.Returns pid { s with pidFile := none, pc := .errorClose } w s' w'
      ↔ o.Returns pid { s with pidFile := none, pc := .returned none } w s' w' :=
        returns_step (fun ⟨_, hpc⟩ => nomatch hpc) rfl rfl
    _ ↔ _ := returns_of_final ⟨none, rfl⟩

/-- Behind an `ftruncate` that succeeds, the pid is written and the path returned. -/
private theorem returns_write {str : List Byte} {n fd v : ℕ} {pidFile : Option (List Byte)} :
    o.Returns pid ((baaCreateFileWithPid pid).resume ⟨.ftruncate, str, n, some fd, pidFile⟩ (.ok v))
        w s' w' ↔
      s' = ⟨.returned pidFile, snprintfMaxLine (pidLine pid), (pidLine pid).length, some fd,
        pidFile⟩ ∧ w' = w := by
  have hwrite : (baaCreateFileWithPid pid).resume
      ⟨.write, snprintfMaxLine (pidLine pid), (pidLine pid).length, some fd, pidFile⟩
        (.ok (pidLine pid).length) =
      ⟨.close, snprintfMaxLine (pidLine pid), (pidLine pid).length, some fd, pidFile⟩ :=
    if_neg (not_not.mpr rfl)
  calc o.Returns pid
        ⟨.write, snprintfMaxLine (pidLine pid), (pidLine pid).length, some fd, pidFile⟩ w s' w'
      ↔ o.Returns pid
        ⟨.close, snprintfMaxLine (pidLine pid), (pidLine pid).length, some fd, pidFile⟩ w s' w' :=
        returns_step (fun ⟨_, hpc⟩ => nomatch hpc) rfl hwrite
    _ ↔ o.Returns pid ⟨.returned pidFile, snprintfMaxLine (pidLine pid), (pidLine pid).length,
        some fd, pidFile⟩ w s' w' :=
        returns_step (fun ⟨_, hpc⟩ => nomatch hpc) rfl rfl
    _ ↔ _ := returns_of_final ⟨pidFile, rfl⟩

/-! ### The whole call -/

variable {name dir : List Byte}

/-- The call up to the first `open`. -/
theorem returns_open :
    o.Returns pid (.start (some name) (some dir)) ⟨0, 0⟩ s' w' ↔
      o.Returns pid
        ((baaCreateFileWithPid pid).resume
          ⟨.open, snprintfMaxLine (pidFilePath name dir), (pidFilePath name dir).length, none, none⟩
          (o.openExcl.outcome 0))
        ⟨1, 0⟩ s' w' :=
  calc o.Returns pid (.start (some name) (some dir)) ⟨0, 0⟩ s' w'
      ↔ o.Returns pid
        ⟨.open, snprintfMaxLine (pidFilePath name dir), (pidFilePath name dir).length, none, none⟩
        ⟨0, 0⟩ s' w' := returns_step (fun ⟨_, hpc⟩ => nomatch hpc) rfl rfl
    _ ↔ _ := returns_step (fun ⟨_, hpc⟩ => nomatch hpc) rfl rfl

/-- The call from an `open` that succeeds up to the last `ftruncate`. -/
theorem returns_opened {str : List Byte} {n fd : ℕ} :
    o.Returns pid ⟨.malloc, str, n, some fd, none⟩ ⟨1, 0⟩ s' w' ↔
      o.Returns pid
        ((baaCreateFileWithPid pid).resume ⟨.ftruncate, str, n, some fd, some (str.take n)⟩
          o.ftruncate.last)
        ⟨1, o.ftruncate.interrupted + 1⟩ s' w' :=
  calc o.Returns pid ⟨.malloc, str, n, some fd, none⟩ ⟨1, 0⟩ s' w'
      ↔ o.Returns pid ⟨.lockRegion, str, n, some fd, some (str.take n)⟩ ⟨1, 0⟩ s' w' :=
        returns_step (fun ⟨_, hpc⟩ => nomatch hpc) rfl rfl
    _ ↔ o.Returns pid ⟨.ftruncate, str, n, some fd, some (str.take n)⟩ ⟨1, 0⟩ s' w' :=
        returns_step (fun ⟨_, hpc⟩ => nomatch hpc) rfl rfl
    _ ↔ _ := returns_ftruncate (Nat.zero_add _) rfl

/-- Where `ftruncate` succeeds, the path is returned. -/
private theorem returns_truncated {str : List Byte} {n fd v : ℕ} (h : o.ftruncate.last = .ok v) :
    o.Returns pid ⟨.malloc, str, n, some fd, none⟩ ⟨1, 0⟩ s' w' ↔
      s' = ⟨.returned (some (str.take n)), snprintfMaxLine (pidLine pid), (pidLine pid).length,
        some fd, some (str.take n)⟩ ∧ w' = ⟨1, o.ftruncate.interrupted + 1⟩ := by
  rw [returns_opened, h, returns_write]

/-- Where it fails, nothing is. -/
private theorem returns_not_truncated {str : List Byte} {n fd : ℕ} {e : Errno}
    (h : o.ftruncate.last = .failed e) :
    o.Returns pid ⟨.malloc, str, n, some fd, none⟩ ⟨1, 0⟩ s' w' ↔
      s' = ⟨.returned none, str, n, some fd, none⟩ ∧
        w' = ⟨1, o.ftruncate.interrupted + 1⟩ := by
  have hne : e ≠ .eintr := fun heintr => o.ftruncate.last_ne (heintr ▸ h)
  have herror : (baaCreateFileWithPid pid).resume
      ⟨.ftruncate, str, n, some fd, some (str.take n)⟩ (.failed e) =
      PidFileCall.error ⟨.ftruncate, str, n, some fd, some (str.take n)⟩ := if_neg hne
  rw [returns_opened, h, herror]
  exact returns_error rfl

/-- Where `open` fails, neither. -/
private theorem returns_not_opened {str : List Byte} {n : ℕ} {e : Errno} (hne : e ≠ .eintr) :
    o.Returns pid ((baaCreateFileWithPid pid).resume ⟨.open, str, n, none, none⟩ (.failed e)) w
        s' w' ↔
      s' = ⟨.returned none, str, n, none, none⟩ ∧ w' = w := by
  have hfailed : (baaCreateFileWithPid pid).resume ⟨.open, str, n, none, none⟩ (.failed e) =
      ⟨.returned none, str, n, none, none⟩ := if_neg hne
  rw [hfailed]
  exact returns_of_final ⟨none, rfl⟩

/-- **When interrupted calls are retried.** For every finite pattern of interruptions of `open` and
`ftruncate`: the call terminates, makes one further call for each interruption and returns
accordingly, if and only if `open` is not interrupted. -/
theorem retriesInterrupted_iff (pid : ℕ) (name dir : List Byte) (o : PidFileOutcomes) :
    RetriesInterrupted pid name dir o ↔ o.openExcl.interrupted = 0 := by
  constructor
  · rintro ⟨s, w, pidFile, hreturns, -⟩
    by_contra hne
    have hagain : o.openExcl.outcome 0 = .failed .eintr := if_pos (Nat.pos_of_ne_zero hne)
    rw [returns_open, hagain] at hreturns
    exact not_returns_openSpin rfl hreturns
  · intro hzero
    have hlast : o.openExcl.outcome 0 = o.openExcl.last := if_neg (by omega)
    have hcopy : (snprintfMaxLine (pidFilePath name dir)).take (pidFilePath name dir).length =
        snprintfMaxLine (pidFilePath name dir) := by
      rw [snprintfMaxLine, List.take_take, min_comm, ← List.take_take, List.take_length]
    simp only [RetriesInterrupted, returns_open, hlast, hzero]
    rcases hopen : o.openExcl.last with fd | e
    · rcases htrunc : o.ftruncate.last with v | e
      · refine ⟨_, _, _, (returns_truncated htrunc).mpr ⟨rfl, rfl⟩, rfl, rfl, rfl, ?_⟩
        simp [SysRet.isOk, hcopy]
      · refine ⟨_, _, _, (returns_not_truncated htrunc).mpr ⟨rfl, rfl⟩, rfl, rfl, rfl, ?_⟩
        simp [SysRet.isOk]
    · have hne : e ≠ .eintr := fun heintr => o.openExcl.last_ne (heintr ▸ hopen)
      refine ⟨_, _, _, (returns_not_opened hne).mpr ⟨rfl, rfl⟩, rfl, rfl, rfl, ?_⟩
      simp [SysRet.isOk]

/-- One interruption of `open`, which then succeeds, as does everything else. -/
def openInterrupted : PidFileOutcomes := ⟨.succeeds 1 3, .succeeds 0 0⟩

/-- The call does not come back from it. -/
theorem not_retriesInterrupted :
    (∀ s w, ¬ openInterrupted.Returns 1 (.start (some [115]) (some [47])) ⟨0, 0⟩ s w) ∧
    ¬ RetriesInterrupted 1 [115] [47] openInterrupted := by
  have hspins : ∀ s w,
      ¬ openInterrupted.Returns 1 (.start (some [115]) (some [47])) ⟨0, 0⟩ s w := by
    intro s w hreturns
    rw [returns_open] at hreturns
    exact not_returns_openSpin rfl hreturns
  exact ⟨hspins, fun ⟨s, w, _, hreturns, _⟩ => hspins s w hreturns⟩

end Libbaalue
