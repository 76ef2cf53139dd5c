import Libbaalue.Foundations.CallReturn
import Libbaalue.Foundations.Descriptors
import Libbaalue.Platform

/-!
# Shared memory

`shmem_handle` as the machine of its system calls, for a server and for a client. `shm_open` and
`ftruncate` are made again after a signal, and `errno` is a variable of the machine, as a call that
succeeds leaves it alone.

Both branches behind `shm_open` return, so that no path leads to `ftruncate`: the call does what
its system calls come to only where it fails without the number of a descriptor
(`shmem_setsUp_iff`).

The outcomes of the calls are given beforehand, each with a number of interruptions, and the machine
is run against them to its return; the descriptors of the process are counted along. `errno` is part
of the state, since one branch looks at it when no call has failed. That no path leads behind
`shm_open` is an invariant of the machine and does not depend on the outcomes.
-/

namespace Libbaalue

open CallMachine

/-- `O_CREAT`. -/
def oCreat : CInt := 0x40

/-- `O_EXCL`. -/
def oExcl : CInt := 0x80

/-- `O_CLOEXEC`. -/
def oCloexec : CInt := 0x80000

/-- `S_IRUSR`. -/
def sIrusr : CInt := 0x100

/-- `S_IWUSR`. -/
def sIwusr : CInt := 0x80

/-- `S_IRGRP`. -/
def sIrgrp : CInt := 0x20

/-- `S_IWGRP`. -/
def sIwgrp : CInt := 0x10

/-- `S_IROTH`. -/
def sIroth : CInt := 0x4

/-- `EEXIST`, as a number. -/
def eexist : CInt := 17

/-- What stands in `*mmap_seg`. -/
inductive MmapSeg
  | untouched
  | mapped (addr : ℕ)
  | mapFailed
  deriving DecidableEq, Repr

/-- Where `shmem_handle` stands. -/
inductive ShmemPc
  | openCmd
  | ftruncateCmd
  | mmap
  | close
  | returned (ret : CInt)
  deriving DecidableEq, Repr

/-- The variables of `shmem_handle`, and `errno`. -/
structure ShmemVars where
  pc : ShmemPc
  fd : CInt
  errno : Errno
  mmapSeg : MmapSeg
  deriving DecidableEq, Repr

/-- A system call with its arguments; a null pointer for a name is `none`. -/
inductive ShmemCall (abi : Abi)
  | shmOpen (name : Option (List Byte)) (oflag mode : CInt)
  | ftruncate (fd : CInt) (length : CLong abi)
  | mmap (length : CLong abi) (fd : CInt)
  | close (fd : CInt)
  | returned (ret : CInt)

/-- `errno` behind a call. -/
def SysRet.errnoAfter (errno : Errno) : SysRet → Errno
  | .ok _ => errno
  | .failed e => e

/-- From `shm_open` on. Whether there is a descriptor is only looked at for the retry, and `errno`
is that of an earlier call where there is one. -/
def ShmemVars.afterOpen (v : ShmemVars) (r : SysRet) : ShmemVars :=
  let v := { v with fd := r.toCInt, errno := r.errnoAfter v.errno }
  if v.fd = -1 ∧ v.errno = .eintr then { v with pc := .openCmd }
  -- with or without a descriptor
  else if v.errno = .eexist then { v with pc := .returned eexist }
  else { v with pc := .returned (-1) }

/-- From `ftruncate` on. -/
def ShmemVars.afterFtruncate (v : ShmemVars) (r : SysRet) : ShmemVars :=
  let v := { v with errno := r.errnoAfter v.errno }
  if r.toCInt = -1 ∧ v.errno = .eintr then { v with pc := .ftruncateCmd }
  else { v with pc := .returned (-1) }

/-- From `mmap` on. -/
def ShmemVars.afterMmap (v : ShmemVars) : SysRet → ShmemVars
  | .failed e => { v with mmapSeg := .mapFailed, errno := e, pc := .close }
  | .ok addr => { v with mmapSeg := .mapped addr, pc := .returned v.fd }

/-- `shmem_handle`, with the flags and the mode of its two callers. The places behind `shm_open` are
there, though nothing leads to them. -/
def shmemHandle {abi : Abi} (name : Option (List Byte)) (size : CLong abi)
    (accessMode userMode : CInt) : CallMachine ShmemVars (ShmemCall abi) SysRet where
  call v :=
    match v.pc with
    | .openCmd => .shmOpen name accessMode userMode
    | .ftruncateCmd => .ftruncate v.fd size
    | .mmap => .mmap size v.fd
    | .close => .close v.fd
    | .returned ret => .returned ret
  resume v r :=
    match v.pc with
    | .openCmd => v.afterOpen r
    | .ftruncateCmd => v.afterFtruncate r
    | .mmap => v.afterMmap r
    | .close => { v with errno := r.errnoAfter v.errno, pc := .returned (-1) }
    | .returned _ => v

/-- `baa_shmem_server`. -/
def baaShmemServer {abi : Abi} (name : Option (List Byte)) (size : CLong abi) :
    CallMachine ShmemVars (ShmemCall abi) SysRet :=
  shmemHandle name size (oRdwr ||| oCreat ||| oExcl ||| oCloexec)
    (sIwusr ||| sIrusr ||| sIrgrp ||| sIwgrp ||| sIroth)

/-- `baa_shmem_client`. -/
def baaShmemClient {abi : Abi} (name : Option (List Byte)) (size : CLong abi) :
    CallMachine ShmemVars (ShmemCall abi) SysRet :=
  shmemHandle name size (oRdwr ||| oCloexec) (sIwusr ||| sIrusr ||| sIrgrp ||| sIwgrp ||| sIroth)

/-- The entry of the call. -/
def ShmemVars.start (errno : Errno) : ShmemVars := ⟨.openCmd, -1, errno, .untouched⟩

/-- The call has returned. -/
def ShmemVars.IsReturned (v : ShmemVars) : Prop := ∃ ret, v.pc = .returned ret

/-! ### What the system calls come to -/

/-- The outcomes of the calls of `shmem_handle`, in a process with the descriptors `fds`. The first
two may be interrupted some times before. -/
structure ShmemOutcomes where
  fds : Finset ℕ
  shmOpen : Attempts
  ftruncate : Attempts
  mmap : SysRet
  close : SysRet
  fd_new : ∀ fd, shmOpen.last = .ok fd → fd < 2 ^ 31 ∧ fd ∉ fds

/-- How often the calls were made, and the open descriptors. -/
structure ShmemWorld where
  shmOpens : ℕ
  ftruncates : ℕ
  fds : Finset ℕ

/-- What opening does to the descriptors. -/
def shmOpenEffect : SysRet → FdEffect
  | .ok fd => .opens fd
  | .failed _ => .keeps

/-- The answers to the calls. -/
def ShmemOutcomes.answer {abi : Abi} (o : ShmemOutcomes) (w : ShmemWorld) :
    ShmemCall abi → SysRet × ShmemWorld
  | .shmOpen _ _ _ =>
    let r := o.shmOpen.outcome w.shmOpens
    (r, { w with shmOpens := w.shmOpens + 1, fds := (shmOpenEffect r).apply w.fds })
  | .ftruncate _ _ =>
    (o.ftruncate.outcome w.ftruncates, { w with ftruncates := w.ftruncates + 1 })
  | .mmap _ _ => (o.mmap, w)
  | .close fd => (o.close, { w with fds := (FdEffect.closes fd.toNat).apply w.fds })
  | .returned _ => (.ok 0, w)

/-- Before the call. -/
def ShmemOutcomes.world (o : ShmemOutcomes) : ShmemWorld := ⟨0, 0, o.fds⟩

/-- An `int` that may be a descriptor, and so the result of a call that succeeds. -/
def IsDescriptor (ret : CInt) : Prop := ret.toNat < 2 ^ 31

/-- The call returns, and as its system calls say: with the descriptor that was opened and with the
mapping if all of them succeed at last, and otherwise with no descriptor and none left open. -/
def SetsUp {abi : Abi} (M : CallMachine ShmemVars (ShmemCall abi) SysRet) (errno : Errno)
    (o : ShmemOutcomes) : Prop :=
  ∃ v w ret, M.Returns o.answer ShmemVars.IsReturned (.start errno) o.world v w ∧
    v.pc = .returned ret ∧
    match o.shmOpen.last, o.ftruncate.last, o.mmap with
    | .ok fd, .ok _, .ok addr =>
      ret = BitVec.ofNat 32 fd ∧ v.mmapSeg = .mapped addr ∧ HandsOver o.fds w.fds (some fd)
    | _, _, _ => ¬ IsDescriptor ret ∧ HandsOver o.fds w.fds none

/-! ### What the call comes to -/

variable {abi : Abi} {name : Option (List Byte)} {size : CLong abi} {accessMode userMode : CInt}
  {o : ShmemOutcomes} {v v' : ShmemVars} {w w' : ShmemWorld}

/-- Anything but a signal makes the call return. -/
private theorem afterOpen_pc {r : SysRet} (hr : r ≠ .failed .eintr)
    (hfd : ∀ fd, r = .ok fd → fd < 2 ^ 31) (v : ShmemVars) :
    (v.afterOpen r).pc =
      .returned (if r.errnoAfter v.errno = .eexist then eexist else -1) := by
  have hgo : ¬ (r.toCInt = -1 ∧ r.errnoAfter v.errno = .eintr) := by
    rintro ⟨hminus, heintr⟩
    cases r with
    | ok fd =>
      have hlt := hfd fd rfl
      have htoNat := congrArg BitVec.toNat hminus
      rw [SysRet.toCInt, BitVec.toNat_ofNat, Nat.mod_eq_of_lt (by omega)] at htoNat
      have hmax : (-1 : CInt).toNat = 2 ^ 32 - 1 := rfl
      omega
    | failed e => exact hr (congrArg SysRet.failed heintr)
  rw [ShmemVars.afterOpen]
  simp only [if_neg hgo]
  split_ifs <;> rfl

private theorem afterOpen_mmapSeg (r : SysRet) (v : ShmemVars) :
    (v.afterOpen r).mmapSeg = v.mmapSeg := by
  rw [ShmemVars.afterOpen]
  simp only []
  split_ifs <;> rfl

/-- At `shm_open`, or behind the call. -/
def ShmemVars.OpensOnly (v : ShmemVars) : Prop := v.pc = .openCmd ∨ v.IsReturned

private theorem opensOnly_afterOpen (v : ShmemVars) (r : SysRet) : (v.afterOpen r).OpensOnly := by
  rw [ShmemVars.afterOpen]
  simp only []
  split_ifs
  · exact .inl rfl
  · exact .inr ⟨_, rfl⟩
  · exact .inr ⟨_, rfl⟩

/-- **No path leads behind `shm_open`**, whatever the calls come to. -/
theorem shmemHandle_calls (name : Option (List Byte)) (size : CLong abi)
    (accessMode userMode : CInt) (errno : Errno) (answers : List SysRet) :
    ∀ e ∈ (shmemHandle name size accessMode userMode).trace (.start errno) answers,
      e.1 = .shmOpen name accessMode userMode ∨ ∃ ret, e.1 = .returned ret := by
  have hany : (shmemHandle name size accessMode userMode).Along (fun _ _ => True)
      (.start errno) answers := along_of_forall (fun _ _ => trivial) _
  have hstart : (ShmemVars.start errno).OpensOnly := .inl rfl
  refine forall_mem_trace (Q := fun c => c = .shmOpen name accessMode userMode ∨
    ∃ ret, c = .returned ret) (fun v r hv _ => ?_) (fun v hv => ?_) hstart hany
  · rcases hv with hpc | hreturned
    · simp only [shmemHandle, hpc]
      exact opensOnly_afterOpen v r
    · obtain ⟨ret, hpc⟩ := hreturned
      simp only [shmemHandle, hpc]
      exact .inr ⟨ret, hpc⟩
  · rcases hv with hpc | ⟨ret, hpc⟩
    · simp only [shmemHandle, hpc]
      exact .inl trivial
    · simp only [shmemHandle, hpc]
      exact .inr ⟨ret, rfl⟩

/-- One `shm_open`. -/
private theorem returns_openCmd (hv : v.pc = .openCmd) :
    (shmemHandle name size accessMode userMode).Returns o.answer ShmemVars.IsReturned v w v' w' ↔
      (shmemHandle name size accessMode userMode).Returns o.answer ShmemVars.IsReturned
        (v.afterOpen (o.shmOpen.outcome w.shmOpens))
        ⟨w.shmOpens + 1, w.ftruncates,
          (shmOpenEffect (o.shmOpen.outcome w.shmOpens)).apply w.fds⟩ v' w' := by
  have hgoes : ¬ v.IsReturned := fun ⟨ret, hret⟩ => nomatch hv.symm.trans hret
  rw [returns_of_not_final hgoes]
  simp only [shmemHandle, hv, ShmemOutcomes.answer]

/-- What every `shm_open` up to the last one comes to. -/
private theorem returns_of_interrupted {n : ℕ} (hn : w.shmOpens + n = o.shmOpen.interrupted)
    (hv : v.pc = .openCmd) :
    (shmemHandle name size accessMode userMode).Returns o.answer ShmemVars.IsReturned v w v' w' ↔
      v' = (if n = 0 then v else v.afterOpen (.failed .eintr)).afterOpen o.shmOpen.last ∧
      w' = ⟨o.shmOpen.interrupted + 1, w.ftruncates,
        (shmOpenEffect o.shmOpen.last).apply w.fds⟩ := by
  induction n generalizing v w with
  | zero =>
    rw [Nat.add_zero] at hn
    have hlast : o.shmOpen.outcome w.shmOpens = o.shmOpen.last := if_neg (by omega)
    have hreturned : (v.afterOpen o.shmOpen.last).IsReturned :=
      ⟨_, afterOpen_pc o.shmOpen.last_ne (fun fd hfd => (o.fd_new fd hfd).1) v⟩
    rw [returns_openCmd hv, hlast, returns_of_final hreturned, if_pos rfl, hn]
  | succ n ih =>
    have hlt : w.shmOpens < o.shmOpen.interrupted := by omega
    have hagain : o.shmOpen.outcome w.shmOpens = .failed .eintr := if_pos hlt
    rw [returns_openCmd hv, hagain, ih (by simp only; omega) rfl, if_neg (Nat.succ_ne_zero n)]
    -- a second signal changes nothing any more
    have hidem : (if n = 0 then v.afterOpen (.failed .eintr)
        else (v.afterOpen (.failed .eintr)).afterOpen (.failed .eintr)) =
          v.afterOpen (.failed .eintr) := by
      split_ifs <;> rfl
    rw [hidem]
    rfl

/-- The call returns. -/
private theorem exists_returns (name : Option (List Byte)) (size : CLong abi)
    (accessMode userMode : CInt) (errno : Errno) (o : ShmemOutcomes) :
    ∃ v w, (shmemHandle name size accessMode userMode).Returns o.answer ShmemVars.IsReturned
      (.start errno) o.world v w :=
  ⟨_, _, (returns_of_interrupted (Nat.zero_add _) rfl).mpr ⟨rfl, rfl⟩⟩

/-- What the caller of `shmem_handle` gets: -1 or `EEXIST`, no mapping, and the descriptor left
open if there is one. -/
theorem returns_start (errno : Errno)
    (h : (shmemHandle name size accessMode userMode).Returns o.answer ShmemVars.IsReturned
      (.start errno) o.world v w) :
    (∃ errno', v.pc = .returned (if o.shmOpen.last.errnoAfter errno' = .eexist then eexist
      else -1)) ∧ v.mmapSeg = .untouched ∧ w.fds = (shmOpenEffect o.shmOpen.last).apply o.fds := by
  obtain ⟨rfl, rfl⟩ := (returns_of_interrupted (Nat.zero_add _) rfl).mp h
  refine ⟨⟨_, afterOpen_pc o.shmOpen.last_ne (fun fd hfd => (o.fd_new fd hfd).1) _⟩, ?_, rfl⟩
  rw [afterOpen_mmapSeg]
  split_ifs <;> rfl

/-- **When `shmem_handle` does what its calls come to**: when `shm_open` fails, and for another
reason than `EEXIST`. Where it succeeds it never does. -/
theorem shmemHandle_setsUp_iff (name : Option (List Byte)) (size : CLong abi)
    (accessMode userMode : CInt) (errno : Errno) (o : ShmemOutcomes) :
    SetsUp (shmemHandle name size accessMode userMode) errno o ↔
      ∃ e, o.shmOpen.last = .failed e ∧ e ≠ .eexist := by
  constructor
  · rintro ⟨v, w, ret, hreturns, hpc, hcalls⟩
    obtain ⟨⟨errno', hret⟩, hseg, hfds⟩ := returns_start errno hreturns
    obtain rfl := ShmemPc.returned.inj (hpc.symm.trans hret)
    rcases hlast : o.shmOpen.last with fd | e
    · -- the descriptor is not returned, or without a mapping
      exfalso
      rw [hlast] at hcalls hfds
      rw [hfds] at hcalls
      split at hcalls
      · obtain ⟨-, hmapped, -⟩ := hcalls
        cases hseg.symm.trans hmapped
      · have hleft := (handsOver_insert_iff (o.fd_new fd hlast).2 (.inl rfl)).mp hcalls.2
        cases hleft
    · refine ⟨e, rfl, fun hexist => ?_⟩
      rw [hlast] at hcalls
      obtain ⟨hdescriptor, -⟩ := hcalls
      exact hdescriptor (by simp [SysRet.errnoAfter, hexist, IsDescriptor, eexist])
  · rintro ⟨e, hlast, hexist⟩
    obtain ⟨v, w, hreturns⟩ := exists_returns name size accessMode userMode errno o
    obtain ⟨⟨errno', hret⟩, -, hfds⟩ := returns_start errno hreturns
    refine ⟨v, w, _, hreturns, hret, ?_⟩
    rw [hfds, hlast, SysRet.errnoAfter, if_neg hexist]
    exact ⟨by simp [IsDescriptor], rfl⟩

/-- **When shared memory is set up.** Whatever `errno` was and whatever the calls come to, a server
and a client get what they should if and only if `shm_open` fails at last, and not with
`EEXIST`. -/
theorem shmem_setsUp_iff (name : Option (List Byte)) (size : CLong abi) (errno : Errno)
    (o : ShmemOutcomes) :
    (SetsUp (baaShmemServer name size) errno o ↔
      ∃ e, o.shmOpen.last = .failed e ∧ e ≠ .eexist) ∧
    (SetsUp (baaShmemClient name size) errno o ↔
      ∃ e, o.shmOpen.last = .failed e ∧ e ≠ .eexist) :=
  ⟨shmemHandle_setsUp_iff name size _ _ errno o, shmemHandle_setsUp_iff name size _ _ errno o⟩

/-- All calls succeed at once: the segment is opened as descriptor 3 and mapped. -/
def allSucceed : ShmemOutcomes where
  fds := {0, 1, 2}
  shmOpen := ⟨0, .ok 3, by decide⟩
  ftruncate := ⟨0, .ok 0, by decide⟩
  mmap := .ok 4096
  close := .ok 0
  fd_new fd hfd := by
    obtain rfl := SysRet.ok.inj hfd
    decide

/-- A server is refused the memory that it has opened. -/
theorem not_setsUp_allSucceed :
    ¬ SetsUp (baaShmemServer (some [47, 109]) (4096 : CLong .lp64)) (.other 0) allSucceed := by
  rw [baaShmemServer, shmemHandle_setsUp_iff]
  rintro ⟨e, hlast, -⟩
  cases hlast

end Libbaalue
