import Libbaalue.Net.UdsPath

/-!
# Files under their full name

`uds_socket` and `baa_create_file_with_pid` print a path into `BAA_MAXLINE` bytes, remove the
file of that name and make it anew. What they remove and make is told by `FileUse`s, and
`UnderFullName` says that each is of the whole path, and that a path that is too long is refused
with nothing done.

`uds_socket` refuses such a path after it has removed the file (`udsSocket_underFullName_iff`);
`baa_create_file_with_pid` does not refuse it at all, and removes and makes the file of the path
that was cut (`pidFile_underFullName_iff`).

What a function does to files is taken from its calls, so a call that was made and failed is told
from one that did something. The two functions are of different kinds, one a program and one a
machine with jumps, and the statement is about the traces of both; the machine needs an invariant
for the path, which is kept in a buffer that is used for other texts later on.
-/

namespace Libbaalue

open CallProgram

/-- A file that is removed or made: under which path, and whether the call did it. A call that fails
has used the path and done nothing. -/
structure FileUse where
  path : List Byte
  done : Bool
  deriving DecidableEq, Repr

/-- What `uds_socket` removes and binds. -/
def netFileUse : NetCall × SysRet → Option FileUse
  | (.unlink path, r) => some ⟨path, r.isOk⟩
  | (.bindUnix _ addr, r) => some ⟨addr.path, r.isOk⟩
  | _ => none

/-- What `baa_create_file_with_pid` removes and creates. -/
def pidFileUse : PidFileSyscall × SysRet → Option FileUse
  | (.unlink path, r) => some ⟨path, r.isOk⟩
  | (.openExcl path, r) => some ⟨path, r.isOk⟩
  | _ => none

/-- Files are used under the full name only, and if that has more than `max` bytes, the function
fails and nothing is done: no file of a name that was cut is touched. -/
structure UnderFullName (uses : List FileUse) (full : List Byte) (max : ℕ) (failed : Prop) :
    Prop where
  path_eq : ∀ u ∈ uses, u.path = full
  untouched : max < full.length → failed ∧ ∀ u ∈ uses, u.done = false

/-! ### `uds_socket` -/

variable {pid : ℕ} {name : List Byte} {dir : Option (List Byte)}

theorem nul_notMem_udsText (hname : (0 : Byte) ∉ name) (hdir : ∀ d ∈ dir, (0 : Byte) ∉ d)
    (pid : ℕ) (flags : Byte) : (0 : Byte) ∉ udsText pid name dir flags := by
  have hpid : (0 : Byte) ∉ pidText pid := fun h => absurd (digit_of_mem_pidText h).1 (by decide)
  have hadd : (0 : Byte) ∉ udsNameAdd := by decide
  cases dir with
  | none =>
    rw [udsText]
    split_ifs
    · simpa using ⟨hname, hpid⟩
    · simpa using ⟨hname, hadd⟩
  | some d =>
    have hd := hdir d rfl
    rw [udsText]
    split_ifs
    · simpa using ⟨hd, hname, hpid⟩
    · simpa using ⟨hd, hname, hadd⟩

/-- The first call removes the file of the path that is printed. -/
theorem udsSocket_unlinks (type : SockType) (flags : Byte) :
    (udsSocket pid (some name) dir type flags).Ensures fun tr _ =>
      ∃ r tr', tr = (.unlink (snprintfMaxLine (udsText pid name dir flags)), r) :: tr' := by
  rw [udsSocket, ensures_perform_bind]
  intro r tr made _
  exact ⟨r, tr, rfl⟩

/-- What is used where the path fits `sun_path`: the whole path. -/
theorem udsSocket_path_eq (hname : (0 : Byte) ∉ name) (hdir : ∀ d ∈ dir, (0 : Byte) ∉ d)
    (type : SockType) (flags : Byte)
    (hlen : (udsText pid name dir flags).length ≤ sizeofSunPath - 1) :
    (udsSocket pid (some name) dir type flags).Ensures fun tr _ =>
      ∀ u ∈ tr.filterMap netFileUse, u.path = udsText pid name dir flags := by
  have hnul := nul_notMem_udsText hname hdir pid flags
  have hstr : snprintfMaxLine (udsText pid name dir flags) = udsText pid name dir flags :=
    List.take_of_length_le (hlen.trans (by decide))
  refine (udsSocket_cases pid name dir type flags).mono ?_
  rintro tr made hcases u hu
  obtain ⟨⟨c, r⟩, he, huse⟩ := List.mem_filterMap.mp hu
  rcases hcases with ⟨-, hcalls⟩ | ⟨-, unlinked, sfd, tr₁, rfl, hexec⟩
  · rcases hcalls _ he with hcall | ⟨errno, hcall⟩
    · obtain rfl : c = .unlink (snprintfMaxLine (udsText pid name dir flags)) := hcall
      obtain rfl := Option.some.inj huse
      exact hstr
    · cases hcall
      cases huse
  · rcases List.mem_cons.mp he with hcall | he
    · cases hcall
      obtain rfl := Option.some.inj huse
      rfl
    · rcases List.mem_cons.mp he with hcall | he
      · cases hcall
        cases huse
      · -- of the calls with the socket only the `bind` uses a file
        have hcall := (udsConfigure_makes sfd _ _ flags).of_mem hexec _ he
        cases c with
        | bindUnix fd addr =>
          obtain ⟨-, -, rfl⟩ := hcall
          obtain rfl := Option.some.inj huse
          exact path_sunLen hnul hlen
        | unlink path => exact hcall.elim
        | _ => cases huse

/-- Where it does not fit, the call fails, and all it may have done is to remove a file. -/
theorem udsSocket_tooLong (type : SockType) (flags : Byte)
    (hlen : sizeofSunPath - 1 < (udsText pid name dir flags).length) :
    (udsSocket pid (some name) dir type flags).Ensures fun tr made =>
      made.sfd = none ∧ ∀ e ∈ tr, ∀ u, netFileUse e = some u →
        e.1 = .unlink (snprintfMaxLine (udsText pid name dir flags)) ∧
          u = ⟨snprintfMaxLine (udsText pid name dir flags), e.2.isOk⟩ := by
  refine (udsSocket_cases pid name dir type flags).mono ?_
  rintro tr made (⟨rfl, hcalls⟩ | ⟨hle, -⟩)
  · refine ⟨rfl, ?_⟩
    rintro ⟨c, r⟩ he u hu
    rcases hcalls _ he with hcall | ⟨errno, hcall⟩
    · obtain rfl : c = .unlink (snprintfMaxLine (udsText pid name dir flags)) := hcall
      exact ⟨rfl, (Option.some.inj hu).symm⟩
    · cases hcall
      cases hu
  · exact absurd hle (not_le.mpr hlen)

/-- **Where `uds_socket` keeps to full names**: if the path fits `sun_path`, or if it fits the
buffer and there was no file to remove. -/
theorem udsSocket_underFullName_iff (hname : (0 : Byte) ∉ name)
    (hdir : ∀ d ∈ dir, (0 : Byte) ∉ d) (type : SockType) (flags : Byte) :
    (udsSocket pid (some name) dir type flags).Ensures fun tr made =>
      (UnderFullName (tr.filterMap netFileUse) (udsText pid name dir flags) (sizeofSunPath - 1)
          (made.sfd = none) ↔
        (udsText pid name dir flags).length ≤ sizeofSunPath - 1 ∨
          (udsText pid name dir flags).length ≤ baaMaxLine - 1 ∧
            ∀ path v, (.unlink path, .ok v) ∉ tr) := by
  rcases le_or_gt (udsText pid name dir flags).length (sizeofSunPath - 1) with hfits | hlong
  · refine (udsSocket_path_eq hname hdir type flags hfits).mono fun tr made hpath => ?_
    exact iff_of_true ⟨hpath, fun hlt => absurd hfits (not_le.mpr hlt)⟩ (.inl hfits)
  · refine ((udsSocket_unlinks type flags).and (udsSocket_tooLong type flags hlong)).mono ?_
    rintro tr made ⟨⟨r, tr', rfl⟩, hfailed, huses⟩
    constructor
    · rintro ⟨hpath, huntouched⟩
      have hcut : snprintfMaxLine (udsText pid name dir flags) = udsText pid name dir flags :=
        hpath ⟨_, r.isOk⟩ List.mem_cons_self
      refine .inr ⟨?_, fun path v hmem => ?_⟩
      · rw [← hcut]
        exact List.length_take_le _ _
      · have hdone := (huntouched hlong).2 ⟨path, true⟩
          (List.mem_filterMap.mpr ⟨_, hmem, rfl⟩)
        cases hdone
    · rintro (hfits | ⟨hbuf, hno⟩)
      · exact absurd hfits (not_le.mpr hlong)
      · have hstr : snprintfMaxLine (udsText pid name dir flags) = udsText pid name dir flags :=
          List.take_of_length_le hbuf
        refine ⟨fun u hu => ?_, fun _ => ⟨hfailed, fun u hu => ?_⟩⟩
        · obtain ⟨e, he, huse⟩ := List.mem_filterMap.mp hu
          rw [(huses e he u huse).2, hstr]
        · obtain ⟨⟨c, r'⟩, he, huse⟩ := List.mem_filterMap.mp hu
          obtain ⟨rfl, rfl⟩ := huses _ he u huse
          rcases r' with v | errno
          · exact absurd he (hno _ v)
          · rfl

/-- A path that does not fit `sun_path` is refused when its file has been removed. -/
private theorem exec_udsSocket_tooLong (type : SockType) (flags : Byte) (v : ℕ)
    (hlen : sizeofSunPath - 1 < (udsText pid name dir flags).length) :
    (udsSocket pid (some name) dir type flags).Exec
      [(.unlink (snprintfMaxLine (udsText pid name dir flags)), .ok v)] .fail := by
  have hlong : (snprintfMaxLine (udsText pid name dir flags)).length > sizeofSunPath - 1 := by
    rw [snprintfMaxLine, List.length_take, gt_iff_lt, lt_min_iff]
    exact ⟨by decide, hlen⟩
  refine .call ?_
  simp only [SysRet.failedOtherThan, if_pos hlong]
  exact .ret

/-! ### `baa_create_file_with_pid` -/

/-- As long as `str` is used as a path, it is the path that was printed. -/
def KeepsPath (path : List Byte) (s : PidFileCall) : Prop :=
  s.pc = .unlink ∨ s.pc = .open → s.str = path

private theorem keepsPath_resume {path : List Byte} (pid : ℕ) (s : PidFileCall) (r : SysRet)
    (h : KeepsPath path s) : KeepsPath path ((baaCreateFileWithPid pid).resume s r) := by
  obtain ⟨pc, str, n, fd, pidFile⟩ := s
  cases r <;> cases pc <;> simp only [KeepsPath, baaCreateFileWithPid, PidFileCall.error] at h ⊢ <;>
    grind

/-- A call that removes or creates a file does so under the given path. -/
def UsesPath (path : List Byte) : PidFileSyscall → Prop
  | .unlink p | .openExcl p => p = path
  | _ => True

private theorem KeepsPath.usesPath {path : List Byte} {s : PidFileCall} (h : KeepsPath path s)
    (pid : ℕ) : UsesPath path ((baaCreateFileWithPid pid).call s) := by
  rcases hpc : s.pc <;> simp only [baaCreateFileWithPid, hpc, UsesPath]
  · exact h (.inl hpc)
  · exact h (.inr hpc)

/-- Every path of a run is the one that was printed. -/
theorem pidFile_path_eq (pid : ℕ) (name dir : List Byte) (answers : List SysRet) :
    ∀ u ∈ ((baaCreateFileWithPid pid).trace (.start (some name) (some dir)) answers).filterMap
      pidFileUse, u.path = snprintfMaxLine (pidFilePath name dir) := by
  have hany : (baaCreateFileWithPid pid).Along (fun _ _ => True)
      (.start (some name) (some dir)) answers :=
    CallMachine.along_of_forall (fun _ _ => trivial) _
  have hstart : KeepsPath (snprintfMaxLine (pidFilePath name dir))
      (.start (some name) (some dir)) := fun _ => rfl
  have hcalls := CallMachine.forall_mem_trace
    (fun s r hs _ => keepsPath_resume pid s r hs) (fun s hs => hs.usesPath pid) hstart hany
  intro u hu
  obtain ⟨⟨c, r⟩, he, huse⟩ := List.mem_filterMap.mp hu
  have hcall := hcalls _ he
  cases c with
  | unlink path | openExcl path =>
    obtain rfl := Option.some.inj huse
    exact hcall
  | _ => cases huse

/-- **Where `baa_create_file_with_pid` keeps to full names**: if the path fits its buffer. -/
theorem pidFile_underFullName_iff (pid : ℕ) (name dir : List Byte) :
    (∀ answers : List SysRet,
      UnderFullName
        (((baaCreateFileWithPid pid).trace (.start (some name) (some dir)) answers).filterMap
          pidFileUse)
        (pidFilePath name dir) (baaMaxLine - 1)
        (∀ pidFile, ((baaCreateFileWithPid pid).run (.start (some name) (some dir)) answers).pc ≠
          .returned (some pidFile))) ↔
      (pidFilePath name dir).length ≤ baaMaxLine - 1 := by
  constructor
  · intro h
    -- the first call removes the file of the path as it was cut
    have hcut : snprintfMaxLine (pidFilePath name dir) = pidFilePath name dir :=
      (h [.ok 0]).path_eq ⟨snprintfMaxLine (pidFilePath name dir), true⟩ List.mem_cons_self
    rw [← hcut]
    exact List.length_take_le _ _
  · intro hfits answers
    refine ⟨fun u hu => ?_, fun hlt => absurd hfits (not_le.mpr hlt)⟩
    rw [pidFile_path_eq pid name dir answers u hu]
    exact List.take_of_length_le hfits

/-! ### Both -/

/-- **When files are only used under their full name.** An execution of `uds_socket` does so if
and only if the path fits `sun_path`, or fits the buffer and no file of that name is removed;
the runs of `baa_create_file_with_pid` do so if and only if the path fits the buffer. -/
theorem underFullName_iff (pid : ℕ) {name : List Byte} {dir : Option (List Byte)}
    (hname : (0 : Byte) ∉ name) (hdir : ∀ d ∈ dir, (0 : Byte) ∉ d) :
    (∀ (type : SockType) (flags : Byte),
      (udsSocket pid (some name) dir type flags).Ensures fun tr made =>
        (UnderFullName (tr.filterMap netFileUse) (udsText pid name dir flags) (sizeofSunPath - 1)
            (made.sfd = none) ↔
          (udsText pid name dir flags).length ≤ sizeofSunPath - 1 ∨
            (udsText pid name dir flags).length ≤ baaMaxLine - 1 ∧
              ∀ path v, (.unlink path, .ok v) ∉ tr)) ∧
    ∀ d ∈ dir,
      (∀ answers : List SysRet,
        UnderFullName
          (((baaCreateFileWithPid pid).trace (.start (some name) (some d)) answers).filterMap
            pidFileUse)
          (pidFilePath name d) (baaMaxLine - 1)
          (∀ pidFile, ((baaCreateFileWithPid pid).run (.start (some name) (some d)) answers).pc ≠
            .returned (some pidFile))) ↔
        (pidFilePath name d).length ≤ baaMaxLine - 1 :=
  ⟨udsSocket_underFullName_iff hname hdir, fun d _ => pidFile_underFullName_iff pid name d⟩

/-- The name `"s"` in the directory `"/"`. -/
theorem underFullName_iff_short :
    (∀ (type : SockType) (flags : Byte),
      (udsSocket 1 (some [115]) (some [47]) type flags).Ensures fun tr made =>
        (UnderFullName (tr.filterMap netFileUse) (udsText 1 [115] (some [47]) flags)
            (sizeofSunPath - 1) (made.sfd = none) ↔
          (udsText 1 [115] (some [47]) flags).length ≤ sizeofSunPath - 1 ∨
            (udsText 1 [115] (some [47]) flags).length ≤ baaMaxLine - 1 ∧
              ∀ path v, (.unlink path, .ok v) ∉ tr)) ∧
    ∀ d ∈ (some [47] : Option (List Byte)),
      (∀ answers : List SysRet,
        UnderFullName
          (((baaCreateFileWithPid 1).trace (.start (some [115]) (some d)) answers).filterMap
            pidFileUse)
          (pidFilePath [115] d) (baaMaxLine - 1)
          (∀ pidFile, ((baaCreateFileWithPid 1).run (.start (some [115]) (some d)) answers).pc ≠
            .returned (some pidFile))) ↔
        (pidFilePath [115] d).length ≤ baaMaxLine - 1 :=
  underFullName_iff 1 (by decide) (by decide)

/-- A socket of 101 letters, whose path has 108 bytes: the file of that name is removed, and the
call fails. A pid file of 248 letters in `"/"`: the file of a path that was cut is removed. -/
theorem not_underFullName_long :
    (∃ (tr : List (NetCall × SysRet)) (made : UdsResult),
      (udsSocket 1 (some (List.replicate 101 97)) none .dgram useBind).Exec tr made ∧
      tr = [(.unlink (List.replicate 101 97 ++ [46] ++ udsNameAdd), .ok 0)] ∧
      made.sfd = none ∧
      ¬ UnderFullName (tr.filterMap netFileUse)
        (udsText 1 (List.replicate 101 97) none useBind) (sizeofSunPath - 1) (made.sfd = none)) ∧
    ¬ ∀ answers : List SysRet,
      UnderFullName
        (((baaCreateFileWithPid 1).trace
          (.start (some (List.replicate 248 97)) (some [47])) answers).filterMap pidFileUse)
        (pidFilePath (List.replicate 248 97) [47]) (baaMaxLine - 1)
        (∀ pidFile, ((baaCreateFileWithPid 1).run
          (.start (some (List.replicate 248 97)) (some [47])) answers).pc ≠
            .returned (some pidFile)) := by
  constructor
  · have htext : udsText 1 (List.replicate 101 97) none useBind =
        List.replicate 101 97 ++ [46] ++ udsNameAdd := rfl
    have hlen : (List.replicate 101 97 ++ [46] ++ udsNameAdd).length = 108 := by simp [udsNameAdd]
    have hstr : snprintfMaxLine (List.replicate 101 97 ++ [46] ++ udsNameAdd) =
        List.replicate 101 97 ++ [46] ++ udsNameAdd :=
      List.take_of_length_le (by rw [hlen]; decide)
    have hlong : sizeofSunPath - 1 < (udsText 1 (List.replicate 101 97) none useBind).length := by
      rw [htext, hlen]
      decide
    have hexec := exec_udsSocket_tooLong .dgram useBind 0 hlong
    rw [htext, hstr] at hexec
    refine ⟨_, _, hexec, rfl, rfl, fun h => ?_⟩
    have hdone := (h.untouched hlong).2 ⟨_, true⟩ List.mem_cons_self
    cases hdone
  · rw [pidFile_underFullName_iff, pidFilePath, List.length_append, List.length_append,
      List.length_append, List.length_replicate]
    decide

end Libbaalue
