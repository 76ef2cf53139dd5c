import Libbaalue.Foundations.PathNames
import Libbaalue.Foundations.Processes
import Libbaalue.Net.FullName
import Libbaalue.Net.UdsPath

/-!
# Processes with Unix domain sockets

Any number of processes of one machine that call the four constructors of `network.c` and
`baa_unlink_uds`, call by call and in any order, with whatever names and directories, and exit
when they like. All of them share the file system: `uds_socket` removes the file of the path it has
printed before it binds its own socket, and `baa_unlink_uds` removes a file by the name its
socket was bound to. Nobody asks whose file it is. A process is known by its process id: what exits
and what starts later with the same id are one process here.

A path may be spelled in many ways, and may be relative, so a file is known by its directory and
the name it has there (`DirEntry`); where the directory of a path leads is decided anew by the
environment at every call. What the processes have in hand are the names. They keep the processes
apart where they contain the process id (`UdsJob.name_client`), as long as the printed path is not
cut: what `uds_socket` removes is the path it has printed into `BAA_MAXLINE` bytes, and it removes
it before it looks at the length.

So the file of a client is removed by no other process, but for one that has printed a path that
was cut; and that of a server only by a process that prints, or has bound, a path that leads to the
same file (`uds_files`). The one exception is a `baa_unlink_uds` of a socket that has no name, which
removes the file its stack happens to name.

What a process knows of its current call is small: if it has asked for the name of a socket, then it
knows a path that one of its sockets is bound at, or that the socket had none. The rules of
processes need no more, because `uds_socket` prints its path itself. The directory a path leads to
is chosen at every call, so nothing rests on paths that mean the same thing twice.
-/

namespace Libbaalue

open CallProgram

/-! ### The calls -/

/-- The calls of the constructors and of `baa_unlink_uds`. -/
inductive UdsCall
  | net (c : NetCall)
  | getsockname (sfd : ℕ)
  deriving DecidableEq, Repr

/-- What a call comes to; `sunPath` are the bytes `getsockname` writes, none for a socket without a
name. -/
structure UdsAnswer where
  ret : SysRet
  sunPath : List Byte
  deriving DecidableEq, Repr

/-- A C string. -/
abbrev CPath := { s : List Byte // (0 : Byte) ∉ s }

/-- The bytes of a `sun_path` and what stands behind it. -/
abbrev SunPath := { b : List Byte // sizeofSunPath ≤ b.length }

/-- The string at the front of a `sun_path`. -/
def sunPathString (sunPath : List Byte) : List Byte := sunPath.takeWhile (· ≠ 0)

/-- `baa_unlink_uds`; `junk` is what the stack holds where `addr.sun_path` is. It asks for the name
of the socket and removes the file of that name, whosever it is. -/
def baaUnlinkUds (sfd : ℕ) (junk : SunPath) : CallProgram UdsCall UdsAnswer CInt := do
  let name ← perform (.getsockname sfd)
  match name.ret with
  | .failed _ => return -1
  | .ok _ =>
    -- a socket without a name leaves `sun_path` as it is
    let unlinked ← perform (.net (.unlink (sunPathString (Block.overlay junk.1 name.sunPath))))
    if unlinked.ret.failedOtherThan .enoent then return -1 else return 0

/-- What a process can be asked to do: to open a socket of one of the four kinds, or to remove the
file of one it has. -/
inductive UdsJob
  | dgramServer (name dir : Option CPath)
  | streamServer (name dir : Option CPath)
  | dgramClient (name dir : Option CPath)
  | streamClient (name dir : Option CPath)
  | unlinkUds (sfd : ℕ) (junk : SunPath)
  deriving DecidableEq

/-- A job as the program of a process; the results of the constructors do not matter here. -/
def UdsJob.program (p : ℕ) : UdsJob → CallProgram UdsCall UdsAnswer Unit
  | dgramServer name dir => (fun _ => ()) <$>
      (baaUdsDgramServer p (name.map (·.1)) (dir.map (·.1))).translate .net UdsAnswer.ret
  | streamServer name dir => (fun _ => ()) <$>
      (baaUdsStreamServer p (name.map (·.1)) (dir.map (·.1))).translate .net UdsAnswer.ret
  | dgramClient name dir => (fun _ => ()) <$>
      (baaUdsDgramClient p (name.map (·.1)) (dir.map (·.1))).translate .net UdsAnswer.ret
  | streamClient name dir => (fun _ => ()) <$>
      (baaUdsStreamClient p (name.map (·.1)) (dir.map (·.1))).translate .net UdsAnswer.ret
  | unlinkUds sfd junk => (fun _ => ()) <$> baaUnlinkUds sfd junk

/-- The flags of a constructor. -/
def UdsJob.flags : UdsJob → Byte
  | dgramServer _ _ | streamServer _ _ => useBind
  | dgramClient _ _ => usePid ||| useBind
  | streamClient _ _ => usePid ||| useConnect
  | unlinkUds _ _ => 0

/-- The path a job of process `p` prints. -/
def UdsJob.text (p : ℕ) (job : UdsJob) : Option (List Byte) :=
  match job with
  | dgramServer (some name) dir | streamServer (some name) dir | dgramClient (some name) dir
  | streamClient (some name) dir => some (udsText p name.1 (dir.map (·.1)) job.flags)
  | _ => none

/-! ### The world -/

/-- The byte `'/'`. -/
def slash : Byte := 47

/-- A file that was removed: by whom, in which job and by which path, and whose it was. It is a
history and not seen by any process. -/
structure UdsRemoval where
  remover : ℕ
  job : UdsJob
  path : List Byte
  file : DirEntry Byte
  socket : ℕ

/-- Where a socket was bound: the path given to `bind`, and the file it led to. -/
structure UdsName where
  path : List Byte
  file : DirEntry Byte

/-- The sockets and their files. A file is an entry of a directory, whatever path leads there, and a
socket keeps the name it was bound at when its file is gone. -/
structure UdsWorld where
  /-- The socket a file is. -/
  file : DirEntry Byte → Option ℕ
  /-- Where a socket was bound. -/
  bound : ℕ → Option UdsName
  /-- The process that opened a socket. -/
  owner : ℕ → Option ℕ
  descr : ℕ → ℕ → Option ℕ
  fresh : ℕ
  removed : List UdsRemoval

/-- A file is removed. -/
def UdsWorld.unlinkFile (w : UdsWorld) (r : UdsRemoval) : UdsWorld :=
  { w with
    file := Function.update w.file r.file none
    removed := w.removed ++ [r] }

/-- Process `p` opens a socket. -/
def UdsWorld.openSocket (w : UdsWorld) (p fd : ℕ) : UdsWorld :=
  { w with
    owner := Function.update w.owner w.fresh (some p)
    descr := Function.update w.descr p (Function.update (w.descr p) fd (some w.fresh))
    fresh := w.fresh + 1 }

/-- The socket `c` is bound. -/
def UdsWorld.bindSocket (w : UdsWorld) (c : ℕ) (name : UdsName) : UdsWorld :=
  { w with
    file := Function.update w.file name.file (some c)
    bound := Function.update w.bound c (some name) }

/-- The digits of a process id can be read back. -/
private theorem map_pidText (pid : ℕ) :
    (pidText pid).map (fun b => Char.ofNat b.toNat) = Nat.toDigits 10 pid := by
  have htext : (toString pid).toList = Nat.toDigits 10 pid := Nat.toList_repr
  rw [pidText, List.map_map, htext]
  refine (List.map_congr_left fun c hc => ?_).trans (List.map_id _)
  have hdigit := Nat.isDigit_of_mem_toDigits (by decide) (by decide) hc
  simp only [Char.isDigit, Bool.and_eq_true, decide_eq_true_eq] at hdigit
  have hle : c.toNat ≤ 57 := hdigit.2
  rw [Function.comp_apply, BitVec.toNat_ofNat, Nat.mod_eq_of_lt (by omega), Char.ofNat_toNat, id]

theorem pidText_injective : Function.Injective pidText := by
  intro p q h
  calc
    p = Nat.ofDigitChars 10 (Nat.toDigits 10 p) 0 := Nat.ofDigitChars_ten_toDigits.symm
    _ = Nat.ofDigitChars 10 (Nat.toDigits 10 q) 0 := by rw [← map_pidText, h, map_pidText]
    _ = q := Nat.ofDigitChars_ten_toDigits

/-- What stands behind the last dot of a path that is printed. -/
def udsSuffix (pid : ℕ) (flags : Byte) : List Byte :=
  if flags &&& usePid ≠ 0 then pidText pid else udsNameAdd

theorem dot_notMem_udsSuffix (pid : ℕ) (flags : Byte) : (46 : Byte) ∉ udsSuffix pid flags := by
  rw [udsSuffix]
  split_ifs
  · exact fun h => absurd (digit_of_mem_pidText h).1 (by decide)
  · decide

theorem exists_udsText_eq (pid : ℕ) (name : List Byte) (dir : Option (List Byte)) (flags : Byte) :
    ∃ stem, udsText pid name dir flags = stem ++ 46 :: udsSuffix pid flags := by
  rw [udsSuffix]
  rcases dir with _ | dir
  · refine ⟨name, ?_⟩
    rw [udsText]
    split_ifs <;> simp
  · refine ⟨dir ++ [47] ++ name, ?_⟩
    rw [udsText]
    split_ifs <;> simp

/-- The name of a server is not a process id. -/
theorem udsNameAdd_ne_pidText (pid : ℕ) : udsNameAdd ≠ pidText pid := fun h =>
  absurd (digit_of_mem_pidText (h ▸ List.mem_cons_self : (115 : Byte) ∈ pidText pid)).2 (by decide)

/-- A file has what stands behind the last dot in its name, whatever the directory. -/
theorem slash_notMem_udsSuffix (pid : ℕ) (flags : Byte) :
    slash ∉ (46 : Byte) :: udsSuffix pid flags := by
  rw [udsSuffix]
  split_ifs
  · refine List.not_mem_cons_of_ne_of_not_mem (by decide) fun h => ?_
    exact absurd (digit_of_mem_pidText h).1 (by decide)
  · decide

/-- The calls of `uds_socket`: the only file that is removed is that of the path that is printed,
as far as it fits the buffer, and the only one that is bound is that path, if it fits. -/
def UdsSocketCall (text : List Byte) (flags : Byte) : NetCall → Prop
  | .unlink path => path = snprintfMaxLine text
  | .bindUnix _ addr => flags &&& useBind ≠ 0 ∧ text.length ≤ sizeofSunPath - 1 ∧
    addr = ⟨strncpySunPath text, sunPathOffset + text.length⟩
  | _ => True

/-- The calls a job of process `p` may make. -/
def UdsJob.Allows (p : ℕ) (job : UdsJob) : UdsCall → Prop
  | .net c => (∃ text, job.text p = some text ∧ UdsSocketCall text job.flags c) ∨
      ∃ sfd junk path, job = .unlinkUds sfd junk ∧ c = .unlink path
  | .getsockname sfd => ∃ junk, job = .unlinkUds sfd junk

/-- What a call of process `p` for `job` can leave of the world `w`. Everything that follows is
proved from these cases. -/
inductive UdsEffect (w : UdsWorld) (p : ℕ) (job : UdsJob) : UdsCall → UdsWorld → Prop
  | keeps (c : UdsCall) : UdsEffect w p job c w
  | unlinks {path : List Byte} {dir c : ℕ} (hfile : w.file (.ofPath slash dir path) = some c) :
    UdsEffect w p job (.net (.unlink path))
      (w.unlinkFile ⟨p, job, path, .ofPath slash dir path, c⟩)
  | opens (type : SockType) (fd : ℕ) :
    UdsEffect w p job (.net (.socketUnix type)) (w.openSocket p fd)
  | binds {sfd dir c : ℕ} {addr : AddrArg} (hdescr : w.descr p sfd = some c)
    (hfile : w.file (.ofPath slash dir addr.path) = none) (hname : w.bound c = none) :
    UdsEffect w p job (.net (.bindUnix sfd addr))
      (w.bindSocket c ⟨addr.path, .ofPath slash dir addr.path⟩)

/-- A job that prints the path of its file and binds it, which means that the path was short
enough. -/
structure UdsJob.Binds (p : ℕ) (job : UdsJob) (path : List Byte) : Prop where
  text_eq : job.text p = some path
  useBind : job.flags &&& useBind ≠ 0
  fits : path.length ≤ sizeofSunPath - 1

/-- The sockets keep their owners and their names. -/
structure UdsWorld.Extends (w w' : UdsWorld) : Prop where
  owner : ∀ c p, w.owner c = some p → w'.owner c = some p
  bound : ∀ c name, w.bound c = some name → w'.bound c = some name

/-- `p` has a socket that was bound at `path`. -/
def UdsWorld.BoundBy (w : UdsWorld) (p : ℕ) (path : List Byte) : Prop :=
  ∃ c name, w.owner c = some p ∧ w.bound c = some name ∧ name.path = path

theorem UdsWorld.BoundBy.extends {w w' : UdsWorld} {p : ℕ} {path : List Byte}
    (h : w.BoundBy p path) (hw : w.Extends w') : w'.BoundBy p path := by
  obtain ⟨c, name, howner, hname, hpath⟩ := h
  exact ⟨c, name, hw.owner c p howner, hw.bound c name hname, hpath⟩

/-- The file was removed by a constructor, under the path it had printed, as far as that fits the
buffer. -/
def UdsRemoval.Printed (r : UdsRemoval) : Prop :=
  ∃ text, r.job.text r.remover = some text ∧ r.path = snprintfMaxLine text

/-- The file was removed by a `baa_unlink_uds` whose stack held its path, as happens for a socket
without a name. -/
def UdsRemoval.Stray (r : UdsRemoval) : Prop :=
  ∃ sfd junk, r.job = .unlinkUds sfd junk ∧ r.path = sunPathString junk.1

/-- Why a process has removed a file: it has printed its path, has bound a socket at it, or found it
on its stack. -/
def UdsWorld.Justified (w : UdsWorld) (r : UdsRemoval) : Prop :=
  r.Printed ∨ w.BoundBy r.remover r.path ∨ r.Stray

/-- **The invariant of the file system.** It says of every socket whose it is and where it was
bound, of every file which socket it is, and of every removal why it was made. -/
structure UdsWorld.Inv (w : UdsWorld) : Prop where
  unopened : ∀ c, w.fresh ≤ c → w.owner c = none ∧ w.bound c = none
  descr_owner : ∀ p fd c, w.descr p fd = some c → w.owner c = some p
  file_bound : ∀ file c, w.file file = some c → ∃ name, w.bound c = some name ∧ name.file = file
  bound : ∀ c name, w.bound c = some name → name.file.name = lastPart slash name.path ∧
    ∃ p job, w.owner c = some p ∧ UdsJob.Binds p job name.path
  file_iff : ∀ c name, w.bound c = some name →
    (w.file name.file = some c ↔ c ∉ w.removed.map UdsRemoval.socket)
  once : (w.removed.map UdsRemoval.socket).Nodup
  named : ∀ r ∈ w.removed, r.file.name = lastPart slash r.path ∧
    ∃ name, w.bound r.socket = some name ∧ name.file = r.file
  justified : ∀ r ∈ w.removed, w.Justified r

private theorem UdsJob.nul_notMem_text {p : ℕ} {job : UdsJob} {text : List Byte}
    (h : job.text p = some text) : (0 : Byte) ∉ text := by
  cases job with
  | dgramServer name dir | streamServer name dir | dgramClient name dir | streamClient name dir =>
    cases name with
    | none => cases h
    | some name =>
      obtain rfl := Option.some.inj h
      refine nul_notMem_udsText name.2 (fun d hd => ?_) p _
      obtain ⟨d', -, rfl⟩ := Option.mem_map.mp hd
      exact d'.2
  | unlinkUds sfd junk => cases h

theorem UdsWorld.Justified.extends {w w' : UdsWorld} {r : UdsRemoval} (h : w.Justified r)
    (hw : w.Extends w') : w'.Justified r :=
  h.imp_right <| .imp_left fun hbound => hbound.extends hw

variable {w w' : UdsWorld} {p : ℕ} {job : UdsJob} {c : UdsCall}

private theorem UdsWorld.Inv.extends_openSocket (hw : w.Inv) (p fd : ℕ) :
    w.Extends (w.openSocket p fd) := by
  refine ⟨fun c q hq => ?_, fun _ _ => id⟩
  have hne : c ≠ w.fresh := by
    rintro rfl
    rw [(hw.unopened _ le_rfl).1] at hq
    cases hq
  exact (Function.update_of_ne hne _ _).trans hq

private theorem UdsWorld.extends_bindSocket {c : ℕ} (hname : w.bound c = none) (name : UdsName) :
    w.Extends (w.bindSocket c name) := by
  refine ⟨fun _ _ => id, fun c' name' hname' => ?_⟩
  have hne : c' ≠ c := by
    rintro rfl
    rw [hname] at hname'
    cases hname'
  exact (Function.update_of_ne hne _ _).trans hname'

theorem UdsEffect.extends (h : UdsEffect w p job c w') (hw : w.Inv) : w.Extends w' := by
  cases h with
  | keeps | unlinks => exact ⟨fun _ _ => id, fun _ _ => id⟩
  | opens type fd => exact hw.extends_openSocket p fd
  | binds hdescr hfile hname => exact UdsWorld.extends_bindSocket hname _

/-- A file is removed. -/
private theorem UdsWorld.Inv.unlinkFile (hw : w.Inv) {r : UdsRemoval}
    (hfile : w.file r.file = some r.socket) (hlast : r.file.name = lastPart slash r.path)
    (hjust : w.Justified r) : (w.unlinkFile r).Inv := by
  obtain ⟨name, hname, hfileName⟩ := hw.file_bound r.file r.socket hfile
  refine ⟨hw.unopened, hw.descr_owner, fun file c hc => ?_, hw.bound, fun c name' hc => ?_,
    ?_, fun r' hr => ?_, fun r' hr => ?_⟩
  · have hne : file ≠ r.file := by
      rintro rfl
      simp [UdsWorld.unlinkFile] at hc
    exact hw.file_bound file c (by simpa [UdsWorld.unlinkFile, hne] using hc)
  · have hold := hw.file_iff c name' hc
    simp only [UdsWorld.unlinkFile, List.map_append, List.map_cons, List.map_nil]
    rcases eq_or_ne name'.file r.file with heq | hne
    · -- another socket of this file has lost it before
      have hmem : c ∈ w.removed.map UdsRemoval.socket ++ [r.socket] := by
        rw [heq, hfile, Option.some_inj] at hold
        rw [List.mem_append, List.mem_singleton]
        rcases eq_or_ne c r.socket with heq | hne
        · exact .inr heq
        · exact .inl (not_not.mp fun h => hne (hold.mpr h).symm)
      exact iff_of_false (by simp [heq]) (not_not_intro hmem)
    · have hne' : c ≠ r.socket := by
        rintro rfl
        exact hne (Option.some.inj (hc.symm.trans hname) ▸ hfileName)
      simpa [hne, hne'] using hold
  · have hfresh : r.socket ∉ w.removed.map UdsRemoval.socket :=
      (hw.file_iff r.socket name hname).mp (hfileName ▸ hfile)
    simp only [UdsWorld.unlinkFile, List.map_append, List.nodup_append]
    refine ⟨hw.once, List.nodup_singleton _, fun a ha b hb => ?_⟩
    obtain rfl := List.mem_singleton.mp hb
    exact ne_of_mem_of_not_mem ha hfresh
  · rcases List.mem_append.mp hr with hr | hr
    · exact hw.named r' hr
    · obtain rfl := List.mem_singleton.mp hr
      exact ⟨hlast, name, hname, hfileName⟩
  · rcases List.mem_append.mp hr with hr | hr
    · exact hw.justified r' hr
    · obtain rfl := List.mem_singleton.mp hr
      exact hjust

private theorem UdsWorld.Inv.openSocket (hw : w.Inv) (p fd : ℕ) : (w.openSocket p fd).Inv := by
  have hext := hw.extends_openSocket p fd
  refine ⟨fun c hc => ?_, fun q fd' c hc => ?_, hw.file_bound, fun c name hc => ?_, hw.file_iff,
    hw.once, hw.named, fun r hr => (hw.justified r hr).extends hext⟩
  · have hle : w.fresh ≤ c := Nat.le_of_succ_le hc
    exact ⟨(Function.update_of_ne (Nat.ne_of_gt hc) _ _).trans (hw.unopened c hle).1,
      (hw.unopened c hle).2⟩
  · by_cases hnew : q = p ∧ fd' = fd
    · obtain ⟨rfl, rfl⟩ := hnew
      obtain rfl : w.fresh = c := by simpa [UdsWorld.openSocket] using hc
      exact Function.update_self ..
    · refine hext.owner c q (hw.descr_owner q fd' c ?_)
      rcases eq_or_ne q p with rfl | hne
      · have hne' : fd' ≠ fd := fun h => hnew ⟨rfl, h⟩
        simpa [UdsWorld.openSocket, hne'] using hc
      · simpa [UdsWorld.openSocket, hne] using hc
  · obtain ⟨hlast, q, job', howner, hbinds⟩ := hw.bound c name hc
    exact ⟨hlast, q, job', hext.owner c q howner, hbinds⟩

private theorem UdsWorld.Inv.bindSocket {c : ℕ} (hw : w.Inv) (name : UdsName)
    (howner : w.owner c = some p) (hfile : w.file name.file = none) (hname : w.bound c = none)
    (hlast : name.file.name = lastPart slash name.path)
    (hjob : UdsJob.Binds p job name.path) : (w.bindSocket c name).Inv := by
  have hext := UdsWorld.extends_bindSocket hname name
  have hself : (w.bindSocket c name).bound c = some name := Function.update_self ..
  have hother : ∀ c' ≠ c, (w.bindSocket c name).bound c' = w.bound c' := fun c' hne =>
    Function.update_of_ne hne ..
  refine ⟨fun c' hc' => ?_, hw.descr_owner, fun file c' hc' => ?_, fun c' name' hc' => ?_,
    fun c' name' hc' => ?_, hw.once, fun r hr => ?_, fun r hr => (hw.justified r hr).extends hext⟩
  · obtain ⟨howner', hname'⟩ := hw.unopened c' hc'
    have hne : c' ≠ c := by
      rintro rfl
      rw [howner] at howner'
      cases howner'
    exact ⟨howner', (hother c' hne).trans hname'⟩
  · rcases eq_or_ne file name.file with rfl | hne
    · obtain rfl : c = c' := by simpa [UdsWorld.bindSocket] using hc'
      exact ⟨name, hself, rfl⟩
    · have hold : w.file file = some c' := by simpa [UdsWorld.bindSocket, hne] using hc'
      obtain ⟨name', hname', hfile'⟩ := hw.file_bound file c' hold
      exact ⟨name', hext.bound _ _ hname', hfile'⟩
  · rcases eq_or_ne c' c with rfl | hne
    · obtain rfl := Option.some.inj (hself.symm.trans hc')
      exact ⟨hlast, p, job, howner, hjob⟩
    · exact hw.bound c' name' ((hother c' hne).symm.trans hc')
  · rcases eq_or_ne c' c with rfl | hne
    · obtain rfl := Option.some.inj (hself.symm.trans hc')
      -- it had no name before, so that no file of it was removed
      have hfresh : c' ∉ w.removed.map UdsRemoval.socket := by
        intro hmem
        obtain ⟨r, hr, rfl⟩ := List.mem_map.mp hmem
        obtain ⟨-, name', hname', -⟩ := hw.named r hr
        rw [hname'] at hname
        cases hname
      simpa [UdsWorld.bindSocket] using hfresh
    · have hold := hw.file_iff c' name' ((hother c' hne).symm.trans hc')
      rcases eq_or_ne name'.file name.file with heq | hne'
      · rw [heq, hfile] at hold
        simpa [UdsWorld.bindSocket, heq, hne.symm] using hold
      · simpa [UdsWorld.bindSocket, hne'] using hold
  · obtain ⟨hlast', name', hname', hfile'⟩ := hw.named r hr
    exact ⟨hlast', name', hext.bound _ _ hname', hfile'⟩

/-- **One call keeps the invariant**, if the file it removes is one the process may remove. -/
theorem UdsEffect.inv (h : UdsEffect w p job c w') (hw : w.Inv) (hallows : job.Allows p c)
    (hjust : ∀ path file s, c = .net (.unlink path) → w.Justified ⟨p, job, path, file, s⟩) :
    w'.Inv := by
  cases h with
  | keeps => exact hw
  | unlinks hfile => exact hw.unlinkFile hfile rfl (hjust _ _ _ rfl)
  | opens type fd => exact hw.openSocket p fd
  | @binds sfd dir sk addr hdescr hfile hname =>
    rcases hallows with ⟨text, htext, hflag, hfits, haddr⟩ | ⟨sfd, junk, path, -, heq⟩
    · have hpath : addr.path = text :=
        haddr ▸ path_sunLen (UdsJob.nul_notMem_text htext) hfits
      have hjob : UdsJob.Binds p job addr.path := hpath ▸ ⟨htext, hflag, hfits⟩
      exact hw.bindSocket ⟨_, _⟩ (hw.descr_owner p sfd sk hdescr) hfile hname rfl hjob
    · cases heq

/-! ### What `baa_unlink_uds` removes -/

end Libbaalue
