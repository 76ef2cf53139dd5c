import Libbaalue.Foundations.FileSystem
import Libbaalue.Foundations.LabelledSystem
import Libbaalue.Helper.PidFile

/-!
# Processes with one pid file

Any number of processes that call `baa_create_file_with_pid` with the same name and directory,
step by step, as often as they like, on a file system with the rules of Linux. A label picks the
process and how its system call comes out; a process may exit at any time.

A process may call again while it has a result, and the result it has stays with it: `held` lists
the files of all its calls that have returned a string, so that to hold the pid file is a matter
of the life of the process and not of its last call.

The call removes whatever file has the name before it makes its own, and gives its lock back
with the descriptor. So a live process keeps its file only as long as no call, of its own or of
another process, removes it: `pidFile_exclusive` is about the runs in which that does not happen,
`two_holders` is the shortest run in which it does.

The condition on a run is about one kind of step, an `unlink` that succeeds, and about the state
before it; nothing else that the code does keeps two processes apart. The invariant says of every
process what its place implies about its file, and that no two of them keep one; a step is checked
for the process that moves, and what it means to the others is in two lemmas, one for the steps that
leave the name alone and one for the others.
-/

namespace Libbaalue

/-! ### The composition -/

/-- The processes, their calls and the file system. What a process has got from its earlier calls is
kept beside the call it is in. -/
structure PidWorld where
  fs : FileSystem (List Byte) Byte
  /-- The call of each process; one that was not made yet has returned `NULL`. -/
  call : ℕ → PidFileCall
  alive : ℕ → Bool
  /-- The process whose call created a file. -/
  creator : ℕ → Option ℕ
  /-- The files of the calls of a process that have returned a string, the last one first. -/
  held : ℕ → List ℕ

/-- How a system call comes out: it takes its course, fails with some `errno`, or, if it writes,
writes a part only. -/
inductive PidChoice
  | succeed
  | fail (errno : Errno)
  | short (k : ℕ)
  deriving DecidableEq, Repr

/-- Which process moves: it starts a call, which it may as often as it has none under way, makes its
next system call, or exits. -/
inductive PidLabel
  | start (p : ℕ)
  | step (p : ℕ) (choice : PidChoice)
  | exit (p : ℕ)
  deriving DecidableEq, Repr

/-- A call fails and leaves `failed`, or takes its course. -/
def PidChoice.resolve (choice : PidChoice) (failed : FileSystem (List Byte) Byte)
    (out : FileSystem (List Byte) Byte × SysRet) : FileSystem (List Byte) Byte × SysRet :=
  match choice with
  | .fail errno => (failed, .failed errno)
  | _ => out

/-- What a `write` gets rid of. -/
def PidChoice.written (choice : PidChoice) (buf : List Byte) : List Byte :=
  match choice with
  | .short k => buf.take k
  | _ => buf

/-- What a system call of process `p` does to the file system, and what it answers. A `close`
that fails has closed the descriptor; a descriptor that is not open is `EBADF`. -/
def pidSyscall (fs : FileSystem (List Byte) Byte) (p : ℕ) (choice : PidChoice) :
    PidFileSyscall → FileSystem (List Byte) Byte × SysRet
  | .unlink path =>
    choice.resolve fs <|
      match fs.unlink path with
      | some fs' => (fs', .ok 0)
      | none => (fs, .failed .enoent)
  | .openExcl path =>
    choice.resolve fs <|
      match fs.createExcl path with
      | some (i, fs') => (fs', .ok i)
      | none => (fs, .failed .eexist)
  | .lockRegion (some i) =>
    choice.resolve fs <|
      match fs.setLock p i with
      | some fs' => (fs', .ok 0)
      | none => (fs, .failed .eagain)
  | .ftruncate (some i) => choice.resolve fs (fs.truncate i, .ok 0)
  | .write (some i) buf =>
    choice.resolve fs (fs.write i (choice.written buf), .ok (choice.written buf).length)
  | .close (some i) => choice.resolve (fs.close p i) (fs.close p i, .ok 0)
  | .lockRegion none | .ftruncate none | .write none _ | .close none => (fs, .failed (.other 9))
  | .malloc _ => choice.resolve fs (fs, .ok 0)
  | .spin | .returned _ => (fs, .ok 0)

/-- The files of a process behind a step of its call: a string that is returned adds one. -/
def PidFileCall.results (c : PidFileCall) (held : List ℕ) : List ℕ :=
  match c.pc, c.fd with
  | .returned (some _), some i => i :: held
  | _, _ => held

/-- Process `p` makes its system call and goes on with the answer. -/
def PidWorld.run (s : PidWorld) (p : ℕ) (choice : PidChoice) : PidWorld :=
  let c := (baaCreateFileWithPid p).call (s.call p)
  let out := pidSyscall s.fs p choice c
  let c' := (baaCreateFileWithPid p).resume (s.call p) out.2
  { s with
    fs := out.1
    call := Function.update s.call p c'
    creator :=
      match c, out.2 with
      | .openExcl _, .ok i => Function.update s.creator i (some p)
      | _, _ => s.creator
    held := Function.update s.held p (c'.results (s.held p)) }

/-- The call has returned. -/
def PidFileCall.hasReturned (c : PidFileCall) : Bool :=
  match c.pc with
  | .returned _ => true
  | _ => false

-- what the line says does not matter to the invariant
attribute [local irreducible] pidLine

variable (name dir : List Byte)

/-- One step; `none` when the process is not at a system call. -/
def PidWorld.step (s : PidWorld) : PidLabel → Option PidWorld
  | .start p =>
    if s.alive p ∧ (s.call p).hasReturned then
      some { s with call := Function.update s.call p (.start (some name) (some dir)) }
    else none
  | .step p choice =>
    if s.alive p ∧ ¬ (s.call p).hasReturned then some (s.run p choice) else none
  | .exit p =>
    if s.alive p then
      some { s with
        alive := Function.update s.alive p false
        fs := match (s.call p).fd with
          | some i => s.fs.close p i
          | none => s.fs }
    else none

/-- All processes live, no file. -/
def PidWorld.init : PidWorld :=
  ⟨.empty, fun _ => ⟨.returned none, [], 0, none, none⟩, fun _ => true, fun _ => none, fun _ => []⟩

/-- The processes that call `baa_create_file_with_pid` with one name and directory, from a state in
which there is no file. -/
def pidSystem : LabelledSystem PidWorld PidLabel where
  init := .init
  step := PidWorld.step name dir

/-! ### Holding the file -/

/-- The path of the pid file. -/
def pidPath : List Byte := snprintfMaxLine (pidFilePath name dir)

/-- The call has created its file, and has neither given up nor returned, so that the file is its
own. -/
def PidFileCall.hasFile (c : PidFileCall) : Bool :=
  match c.pc with
  | .malloc | .lockRegion | .ftruncate | .write | .close => true
  | _ => false

/-- A live process with a non-`NULL` result, of whichever of its calls. -/
def PidWorld.Holds (s : PidWorld) (p : ℕ) : Prop := s.alive p ∧ s.held p ≠ []

/-- A live process keeps the file `i`: it has created it in the call under way, or in one that
returned a string. -/
def PidWorld.Keeps (s : PidWorld) (p i : ℕ) : Prop :=
  s.alive p ∧ ((s.call p).hasFile ∧ (s.call p).fd = some i ∨ i ∈ s.held p)

/-- The file of process `q` is in place, with its pid. -/
def PidWorld.InPlace (s : PidWorld) (q : ℕ) : Prop :=
  ∃ i, s.fs.dir (pidPath name dir) = some i ∧ s.fs.content i = pidLine q

/-- The file with a name is one that a live process has created in a call that is still under
way or in one, its last or an earlier one, that has returned a string. -/
def PidWorld.inUse (s : PidWorld) (path : List Byte) : Bool :=
  match s.fs.dir path with
  | none => false
  | some i =>
    match s.creator i with
    | none => false
    | some q =>
      s.alive q && ((s.call q).hasFile && (s.call q).fd == some i || (s.held q).contains i)

/-- The steps that spare the files in use: no `unlink` removes one. It is a condition on the state
before the step and on how the call comes out, and on nothing that it computes. -/
def PidWorld.spares (s : PidWorld) : PidLabel → Bool
  | .step _ (.fail _) => true
  | .step p _ =>
    match (baaCreateFileWithPid p).call (s.call p) with
    | .unlink path => !s.inUse path
    | _ => true
  | _ => true

/-! ### The invariant -/

/-- The invariant of the runs whose steps spare the files in use. A live process that has created a
file, or has a result, finds it in place under its name, and nobody else has created it. -/
structure PidWorld.Inv (s : PidWorld) : Prop where
  path_ok : ∀ p, (s.call p).pc = .unlink ∨ (s.call p).pc = .open →
    (s.call p).str = pidPath name dir
  opened : ∀ p, s.alive p → (s.call p).hasFile → ∃ i, (s.call p).fd = some i
  linked : ∀ p i, s.Keeps p i → s.fs.dir (pidPath name dir) = some i ∧ s.creator i = some p
  /-- A call that has created a file is the first one of its process to come so far. -/
  busy : ∀ p, s.alive p → (s.call p).hasFile → s.held p = []
  prepared : ∀ p, s.alive p → (s.call p).pc = .write →
    (s.call p).str = snprintfMaxLine (pidLine p) ∧ (s.call p).n = (pidLine p).length ∧
      ∀ i, (s.call p).fd = some i → s.fs.content i = []
  written : ∀ p, s.alive p → (s.call p).pc = .close →
    ∀ i, (s.call p).fd = some i → s.fs.content i = pidLine p
  kept : ∀ p, s.alive p → ∀ i ∈ s.held p, s.fs.content i = pidLine p
  recorded : ∀ p, s.alive p → ∀ f, (s.call p).pc = .returned (some f) → s.held p ≠ []

variable {name dir}

/-- Two processes that keep a file are one: it has one name and one creator. -/
theorem PidWorld.Inv.keeps_unique {s : PidWorld} (h : s.Inv name dir) {p q i j : ℕ}
    (hp : s.Keeps p i) (hq : s.Keeps q j) : p = q := by
  obtain ⟨hdir, hcreator⟩ := h.linked p i hp
  obtain ⟨hdir', hcreator'⟩ := h.linked q j hq
  obtain rfl : i = j := Option.some.inj (hdir.symm.trans hdir')
  exact Option.some.inj (hcreator.symm.trans hcreator')

/-- A call under way that has created a file keeps it. -/
private theorem PidWorld.Inv.exists_keeps {s : PidWorld} (h : s.Inv name dir) {p : ℕ}
    (halive : s.alive p) (hfile : (s.call p).hasFile) :
    ∃ i, (s.call p).fd = some i ∧ s.Keeps p i := by
  obtain ⟨i, hi⟩ := h.opened p halive hfile
  exact ⟨i, hi, halive, .inl ⟨hfile, hi⟩⟩

/-- A call at its `write` or its `close` has created a file. -/
private theorem PidFileCall.hasFile_of_written {c : PidFileCall}
    (h : c.pc = .write ∨ c.pc = .close) : c.hasFile := by
  unfold PidFileCall.hasFile
  rcases h with h | h <;> simp [h]

/-- A step of a call that does not return a string adds no file. -/
private theorem PidFileCall.results_eq {c : PidFileCall} (h : ∀ f, c.pc ≠ .returned (some f))
    (held : List ℕ) : c.results held = held := by
  unfold PidFileCall.results
  split
  · rename_i f i hpc _
    exact absurd hpc (h f)
  · rfl

/-- Everything but a change of the name: the step of one process keeps the invariant if it gets
no file it did not keep, changes no contents unless it keeps a file, and leaves its own call in
order. `l` are the files of its results behind the step. -/
theorem PidWorld.Inv.update {s : PidWorld} (h : s.Inv name dir) {p : ℕ} {c : PidFileCall}
    {l : List ℕ} {fs : FileSystem (List Byte) Byte} (hdir : fs.dir = s.fs.dir)
    (hcontent : fs.content = s.fs.content ∨ ∃ i, s.Keeps p i)
    (hkeeps : s.alive p → ∀ i, c.hasFile ∧ c.fd = some i ∨ i ∈ l → s.Keeps p i)
    (hopened : s.alive p → c.hasFile → (∃ i, c.fd = some i) ∧ l = [])
    (hpath : c.pc = .unlink ∨ c.pc = .open → c.str = pidPath name dir)
    (hprepared : s.alive p → c.pc = .write → c.str = snprintfMaxLine (pidLine p) ∧
      c.n = (pidLine p).length ∧ ∀ i, c.fd = some i → fs.content i = [])
    (hwritten : s.alive p → c.pc = .close → ∀ i, c.fd = some i → fs.content i = pidLine p)
    (hkept : s.alive p → ∀ i ∈ l, fs.content i = pidLine p)
    (hrecorded : s.alive p → ∀ f, c.pc = .returned (some f) → l ≠ []) :
    PidWorld.Inv name dir { s with
      fs := fs, call := Function.update s.call p c, held := Function.update s.held p l } := by
  have hself : Function.update s.call p c p = c := Function.update_self ..
  have hheld : Function.update s.held p l p = l := Function.update_self ..
  have hother {q : ℕ} (hq : q ≠ p) : Function.update s.call p c q = s.call q :=
    Function.update_of_ne hq ..
  have hother' {q : ℕ} (hq : q ≠ p) : Function.update s.held p l q = s.held q :=
    Function.update_of_ne hq ..
  -- another process that keeps a file sees the contents it had
  have hsees {q i : ℕ} (hq : q ≠ p) (hkeeps : s.Keeps q i) : fs.content = s.fs.content :=
    hcontent.resolve_right fun ⟨_, hp⟩ => hq (h.keeps_unique hkeeps hp)
  refine ⟨fun q => ?_, fun q halive => ?_, fun q i hq => ?_, fun q halive => ?_,
    fun q halive => ?_, fun q halive => ?_, fun q halive => ?_, fun q halive => ?_⟩ <;>
    rcases eq_or_ne q p with rfl | hne
  · simpa only [hself] using hpath
  · simpa only [hother hne] using h.path_ok q
  · simpa only [hself] using fun hfile => (hopened halive hfile).1
  · simpa only [hother hne] using h.opened q halive
  · obtain ⟨halive, hq⟩ := hq
    simp only [hself, hheld] at hq
    rw [hdir]
    exact h.linked q i (hkeeps halive i hq)
  · obtain ⟨halive, hq⟩ := hq
    simp only [hother hne, hother' hne] at hq
    rw [hdir]
    exact h.linked q i ⟨halive, hq⟩
  · simpa only [hself, hheld] using fun hfile => (hopened halive hfile).2
  · simpa only [hother hne, hother' hne] using h.busy q halive
  · simpa only [hself] using hprepared halive
  · simp only [hother hne]
    intro hpc
    obtain ⟨hstr, hn, hempty⟩ := h.prepared q halive hpc
    obtain ⟨i, -, hkeeps⟩ := h.exists_keeps halive (PidFileCall.hasFile_of_written (.inl hpc))
    rw [hsees hne hkeeps]
    exact ⟨hstr, hn, hempty⟩
  · simpa only [hself] using hwritten halive
  · simp only [hother hne]
    intro hpc
    obtain ⟨i, -, hkeeps⟩ := h.exists_keeps halive (PidFileCall.hasFile_of_written (.inr hpc))
    rw [hsees hne hkeeps]
    exact h.written q halive hpc
  · simpa only [hheld] using hkept halive
  · simp only [hother' hne]
    intro i hi
    rw [hsees hne ⟨halive, .inr hi⟩]
    exact h.kept q halive i hi
  · simpa only [hself, hheld] using hrecorded halive
  · simpa only [hother hne, hother' hne] using h.recorded q halive

/-- As long as nobody keeps a file, the name and its file may change: only the call that moves
has to be in order. -/
private theorem PidWorld.Inv.of_noKeeps {s : PidWorld} (h : s.Inv name dir)
    (hnone : ∀ q i, ¬ s.Keeps q i) {p : ℕ} (halive : s.alive p) {c : PidFileCall}
    {fs : FileSystem (List Byte) Byte} {creator : ℕ → Option ℕ}
    (hpath : c.pc = .unlink ∨ c.pc = .open → c.str = pidPath name dir)
    (hopened : c.hasFile → ∃ i, c.fd = some i ∧ fs.dir (pidPath name dir) = some i ∧
      creator i = some p)
    (hearly : ¬ (c.pc = .write ∨ c.pc = .close)) (hret : ∀ f, c.pc ≠ .returned (some f)) :
    PidWorld.Inv name dir { s with
      fs := fs, call := Function.update s.call p c, creator := creator
      held := Function.update s.held p (c.results (s.held p)) } := by
  have hself : Function.update s.call p c p = c := Function.update_self ..
  have hother {q : ℕ} (hq : q ≠ p) : Function.update s.call p c q = s.call q :=
    Function.update_of_ne hq ..
  -- nobody has a result, and no other call has a file
  have hheld {q : ℕ} (halive : s.alive q) : s.held q = [] := by
    rcases hq : s.held q with _ | ⟨i, l⟩
    · rfl
    · exact absurd ⟨halive, .inr (hq ▸ List.mem_cons_self)⟩ (hnone q i)
  have hidle {q : ℕ} (halive : s.alive q) : ¬ (s.call q).hasFile := fun hfile => by
    obtain ⟨i, -, hkeeps⟩ := h.exists_keeps halive hfile
    exact hnone q i hkeeps
  rw [PidFileCall.results_eq hret, Function.update_eq_self]
  refine ⟨fun q => ?_, fun q halive => ?_, fun q i hq => ?_, fun q halive => ?_,
    fun q halive => ?_, fun q halive => ?_, fun q halive i hi => ?_, fun q halive => ?_⟩
  · rcases eq_or_ne q p with rfl | hne
    · simpa only [hself] using hpath
    · simpa only [hother hne] using h.path_ok q
  · rcases eq_or_ne q p with rfl | hne
    · simp only [hself]
      intro hfile
      obtain ⟨i, hi, -⟩ := hopened hfile
      exact ⟨i, hi⟩
    · simpa only [hother hne] using fun hfile => absurd hfile (hidle halive)
  · obtain ⟨halive, hq⟩ := hq
    rcases eq_or_ne q p with rfl | hne
    · simp only [hself, hheld halive, List.not_mem_nil, or_false] at hq
      obtain ⟨j, hj, hlinked⟩ := hopened hq.1
      obtain rfl : j = i := Option.some.inj (hj.symm.trans hq.2)
      exact hlinked
    · simp only [hother hne, hheld halive, List.not_mem_nil, or_false] at hq
      exact absurd hq.1 (hidle halive)
  · exact fun _ => hheld halive
  · rcases eq_or_ne q p with rfl | hne
    · simp only [hself]
      exact fun hpc => absurd (.inl hpc) hearly
    · simp only [hother hne]
      exact fun hpc => absurd (PidFileCall.hasFile_of_written (.inl hpc)) (hidle halive)
  · rcases eq_or_ne q p with rfl | hne
    · simp only [hself]
      exact fun hpc => absurd (.inr hpc) hearly
    · simp only [hother hne]
      exact fun hpc => absurd (PidFileCall.hasFile_of_written (.inr hpc)) (hidle halive)
  · simp only [hheld halive, List.not_mem_nil] at hi
  · rcases eq_or_ne q p with rfl | hne
    · simp only [hself]
      exact fun f hpc => absurd hpc (hret f)
    · simpa only [hother hne] using h.recorded q halive

/-- Removing the name of a file that is not in use. -/
theorem PidWorld.Inv.unlink {s : PidWorld} (h : s.Inv name dir) {p : ℕ} (halive : s.alive p)
    {c : PidFileCall} (fs : FileSystem (List Byte) Byte)
    (hspared : s.inUse (pidPath name dir) = false) (hpc : c.pc = .open)
    (hstr : c.str = pidPath name dir) :
    PidWorld.Inv name dir { s with
      fs := fs, call := Function.update s.call p c
      held := Function.update s.held p (c.results (s.held p)) } := by
  -- a process that keeps a file would be using the one that is removed
  have hnone (q i : ℕ) : ¬ s.Keeps q i := by
    intro hq
    obtain ⟨hdir, hcreator⟩ := h.linked q i hq
    obtain ⟨halive, hhas⟩ := hq
    rcases hhas with ⟨hfile, hfd⟩ | hheld
    · simp [PidWorld.inUse, hdir, hcreator, halive, hfile, hfd] at hspared
    · simp [PidWorld.inUse, hdir, hcreator, halive, hheld] at hspared
  exact h.of_noKeeps hnone halive (fun _ => hstr) (by simp [PidFileCall.hasFile, hpc])
    (by simp [hpc]) (by simp [hpc])

/-- Making a file under a name that does not exist. -/
theorem PidWorld.Inv.create {s : PidWorld} (h : s.Inv name dir) {p i : ℕ} (halive : s.alive p)
    {c : PidFileCall} {fs : FileSystem (List Byte) Byte}
    (hcreate : s.fs.createExcl (pidPath name dir) = some (i, fs)) (hpc : c.pc = .malloc)
    (hfd : c.fd = some i) :
    PidWorld.Inv name dir { s with
      fs := fs, call := Function.update s.call p c
      creator := Function.update s.creator i (some p)
      held := Function.update s.held p (c.results (s.held p)) } := by
  obtain ⟨hfree, hdir⟩ := FileSystem.dir_createExcl hcreate
  -- the name did not exist, so nobody keeps a file
  have hnone (q j : ℕ) : ¬ s.Keeps q j := by
    intro hq
    obtain ⟨hj, -⟩ := h.linked q j hq
    simp [hfree] at hj
  exact h.of_noKeeps hnone halive (by simp [hpc])
    (fun _ => ⟨i, hfd, hdir, Function.update_self ..⟩) (by simp [hpc]) (by simp [hpc])

/-- A step that ends without a file of the call that moves; the files of its results stay. -/
private theorem PidWorld.Inv.noFile {s : PidWorld} (h : s.Inv name dir) {p : ℕ} {c : PidFileCall}
    {fs : FileSystem (List Byte) Byte} (hdir : fs.dir = s.fs.dir)
    (hcontent : fs.content = s.fs.content ∨ s.alive p ∧ (s.call p).hasFile)
    (hfile : c.hasFile = false) (hret : ∀ f, c.pc ≠ .returned (some f))
    (hpath : c.pc = .unlink ∨ c.pc = .open → c.str = pidPath name dir) :
    PidWorld.Inv name dir { s with
      fs := fs, call := Function.update s.call p c
      held := Function.update s.held p (c.results (s.held p)) } := by
  have hchanged : fs.content = s.fs.content ∨ ∃ i, s.Keeps p i := hcontent.imp_right fun hhas => by
    obtain ⟨i, -, hkeeps⟩ := h.exists_keeps hhas.1 hhas.2
    exact ⟨i, hkeeps⟩
  rw [PidFileCall.results_eq hret]
  refine h.update hdir hchanged (fun halive i hi => ?_) (fun _ hhas => ?_) hpath
    (fun _ hwrite => ?_) (fun _ hdone => ?_) (fun halive i hi => ?_)
    fun _ f hpc => absurd hpc (hret f)
  · simp only [hfile, Bool.false_eq_true, false_and, false_or] at hi
    exact ⟨halive, .inr hi⟩
  · simp [hfile] at hhas
  · simp [PidFileCall.hasFile_of_written (.inl hwrite)] at hfile
  · simp [PidFileCall.hasFile_of_written (.inr hdone)] at hfile
  · rcases hcontent with hsame | ⟨-, hhas⟩
    · rw [hsame]
      exact h.kept p halive i hi
    · simp [h.busy p halive hhas] at hi

/-- A step that goes on with the file the call has. -/
theorem PidWorld.Inv.goesOn {s : PidWorld} (h : s.Inv name dir) {p : ℕ} (halive : s.alive p)
    (hhas : (s.call p).hasFile) {c : PidFileCall} {fs : FileSystem (List Byte) Byte}
    (hdir : fs.dir = s.fs.dir) (hfile : c.hasFile) (hfd : c.fd = (s.call p).fd)
    (hprepared : c.pc = .write → c.str = snprintfMaxLine (pidLine p) ∧
      c.n = (pidLine p).length ∧ ∀ i, c.fd = some i → fs.content i = [])
    (hwritten : c.pc = .close → ∀ i, c.fd = some i → fs.content i = pidLine p) :
    PidWorld.Inv name dir { s with
      fs := fs, call := Function.update s.call p c
      held := Function.update s.held p (c.results (s.held p)) } := by
  have hret (f : List Byte) : c.pc ≠ .returned (some f) := fun hpc => by
    simp [PidFileCall.hasFile, hpc] at hfile
  rw [PidFileCall.results_eq hret]
  have hempty := h.busy p halive hhas
  obtain ⟨i, hi, hkeeps⟩ := h.exists_keeps halive hhas
  refine h.update hdir (.inr ⟨i, hkeeps⟩) (fun _ j hj => ?_)
    (fun _ _ => ⟨⟨i, hfd.trans hi⟩, hempty⟩) (fun hpc => ?_) (fun _ => hprepared)
    (fun _ => hwritten) (fun _ j hj => ?_) fun _ f hpc => absurd hpc (hret f)
  · simp only [hempty, List.not_mem_nil, or_false] at hj
    exact ⟨halive, .inl ⟨hhas, hfd.symm.trans hj.2⟩⟩
  · unfold PidFileCall.hasFile at hfile
    rcases hpc with hpc | hpc <;> simp [hpc] at hfile
  · simp [hempty] at hj

/-- The `error` label leads to no file and no result. -/
private theorem PidFileCall.error_cases (c : PidFileCall) :
    c.error.hasFile = false ∧ ¬ (c.error.pc = .unlink ∨ c.error.pc = .open) ∧
      ∀ f, c.error.pc ≠ .returned (some f) := by
  unfold PidFileCall.error
  split <;> simp [PidFileCall.hasFile]

/-- The step of the `error` label. -/
theorem PidWorld.Inv.error {s : PidWorld} (h : s.Inv name dir) {p : ℕ}
    {fs : FileSystem (List Byte) Byte} (hdir : fs.dir = s.fs.dir)
    (hcontent : fs.content = s.fs.content ∨ s.alive p ∧ (s.call p).hasFile) :
    PidWorld.Inv name dir { s with
      fs := fs, call := Function.update s.call p (s.call p).error
      held := Function.update s.held p ((s.call p).error.results (s.held p)) } := by
  obtain ⟨hfile, hpc, hret⟩ := (s.call p).error_cases
  exact h.noFile hdir hcontent hfile hret fun hc => absurd hc hpc

private theorem PidChoice.resolve_fail {errno : Errno} {failed : FileSystem (List Byte) Byte}
    {out : FileSystem (List Byte) Byte × SysRet} :
    (PidChoice.fail errno).resolve failed out = (failed, .failed errno) := rfl

/-- A call fails, or takes its course. -/
private theorem PidChoice.fails_or (choice : PidChoice) :
    (∃ errno, choice = .fail errno) ∨ ∀ failed out, choice.resolve failed out = out := by
  cases choice with
  | fail errno => exact .inl ⟨errno, rfl⟩
  | succeed => exact .inr fun _ _ => rfl
  | short k => exact .inr fun _ _ => rfl

private theorem PidChoice.written_prefix (choice : PidChoice) (buf : List Byte) :
    choice.written buf <+: buf := by
  cases choice with
  | short k => exact List.take_prefix k buf
  | succeed | fail => exact List.prefix_rfl

/-- The `unlink` of a call. -/
private theorem PidWorld.Inv.run_unlink {s : PidWorld} (h : s.Inv name dir) {p : ℕ}
    (halive : s.alive p) (hpc : (s.call p).pc = .unlink) {choice : PidChoice}
    (hspares : s.spares (.step p choice)) : (s.run p choice).Inv name dir := by
  have hstr := h.path_ok p (.inl hpc)
  have hgone (errno : Errno) (c : PidFileCall) (hc : c = if errno ≠ .enoent then
      { s.call p with pc := .returned none } else { s.call p with pc := .open }) :
      PidWorld.Inv name dir { s with
        call := Function.update s.call p c
        held := Function.update s.held p (c.results (s.held p)) } := by
    refine h.noFile rfl (.inl rfl) ?_ ?_ ?_ <;> rw [hc] <;> split_ifs
    · rfl
    · rfl
    · simp
    · simp
    · simp
    · exact fun _ => hstr
  have hspared (hok : ∀ failed out, choice.resolve failed out = out) :
      s.inUse (pidPath name dir) = false := by
    cases choice with
    | fail errno => cases congrArg Prod.snd (hok s.fs (s.fs, .ok 0))
    | succeed | short => simpa [PidWorld.spares, baaCreateFileWithPid, hpc, hstr] using hspares
  obtain ⟨errno, rfl⟩ | hok := choice.fails_or
  · simpa only [PidWorld.run, baaCreateFileWithPid, hpc, pidSyscall, PidChoice.resolve_fail]
      using hgone errno _ rfl
  · rcases hunlink : s.fs.unlink (s.call p).str with _ | fs
    · simpa only [PidWorld.run, baaCreateFileWithPid, hpc, pidSyscall, hok, hunlink]
        using hgone .enoent _ rfl
    · simp only [PidWorld.run, baaCreateFileWithPid, hpc, pidSyscall, hok, hunlink]
      exact h.unlink halive fs (hspared hok) rfl hstr

/-- The `open` of a call. -/
private theorem PidWorld.Inv.run_open {s : PidWorld} (h : s.Inv name dir) {p : ℕ}
    (halive : s.alive p) (hpc : (s.call p).pc = .open) (choice : PidChoice) :
    (s.run p choice).Inv name dir := by
  have hstr := h.path_ok p (.inr hpc)
  have hfail (errno : Errno) (c : PidFileCall) (hc : c = if errno = .eintr then
      { s.call p with pc := .openSpin } else { s.call p with pc := .returned none }) :
      PidWorld.Inv name dir { s with
        call := Function.update s.call p c
        held := Function.update s.held p (c.results (s.held p)) } := by
    refine h.noFile rfl (.inl rfl) ?_ ?_ ?_ <;> rw [hc] <;> split_ifs
    · rfl
    · rfl
    · simp
    · simp
    · simp
    · simp
  obtain ⟨errno, rfl⟩ | hok := choice.fails_or
  · simpa only [PidWorld.run, baaCreateFileWithPid, hpc, pidSyscall, PidChoice.resolve_fail]
      using hfail errno _ rfl
  · rcases hcreate : s.fs.createExcl (s.call p).str with _ | ⟨i, fs⟩
    · simpa only [PidWorld.run, baaCreateFileWithPid, hpc, pidSyscall, hok, hcreate]
        using hfail .eexist _ rfl
    · simp only [PidWorld.run, baaCreateFileWithPid, hpc, pidSyscall, hok, hcreate]
      exact h.create halive (hstr ▸ hcreate) rfl rfl

/-- The `malloc` of a call. -/
private theorem PidWorld.Inv.run_malloc {s : PidWorld} (h : s.Inv name dir) {p : ℕ}
    (halive : s.alive p) (hpc : (s.call p).pc = .malloc) (choice : PidChoice) :
    (s.run p choice).Inv name dir := by
  have hhas : (s.call p).hasFile := by simp [PidFileCall.hasFile, hpc]
  obtain ⟨errno, rfl⟩ | hok := choice.fails_or
  · simpa only [PidWorld.run, baaCreateFileWithPid, hpc, pidSyscall, PidChoice.resolve_fail]
      using h.error rfl (.inl rfl)
  · simp only [PidWorld.run, baaCreateFileWithPid, hpc, pidSyscall, hok]
    exact h.goesOn halive hhas rfl rfl rfl (by simp) (by simp)

/-- The `fcntl` of a call. -/
private theorem PidWorld.Inv.run_lockRegion {s : PidWorld} (h : s.Inv name dir) {p i : ℕ}
    (halive : s.alive p) (hpc : (s.call p).pc = .lockRegion) (hfd : (s.call p).fd = some i)
    (choice : PidChoice) : (s.run p choice).Inv name dir := by
  have hhas : (s.call p).hasFile := by simp [PidFileCall.hasFile, hpc]
  obtain ⟨errno, rfl⟩ | hok := choice.fails_or
  · simpa only [PidWorld.run, baaCreateFileWithPid, hpc, hfd, pidSyscall, PidChoice.resolve_fail]
      using h.error rfl (.inl rfl)
  · rcases hlock : s.fs.setLock p i with _ | fs
    · simpa only [PidWorld.run, baaCreateFileWithPid, hpc, hfd, pidSyscall, hok, hlock]
        using h.error rfl (.inl rfl)
    · simp only [PidWorld.run, baaCreateFileWithPid, hpc, hfd, pidSyscall, hok, hlock]
      obtain ⟨hdir, -, -⟩ := FileSystem.setLock_frame hlock
      exact h.goesOn halive hhas hdir rfl hfd.symm (by simp) (by simp)

/-- The `ftruncate` of a call. -/
private theorem PidWorld.Inv.run_ftruncate {s : PidWorld} (h : s.Inv name dir) {p i : ℕ}
    (halive : s.alive p) (hpc : (s.call p).pc = .ftruncate) (hfd : (s.call p).fd = some i)
    (choice : PidChoice) : (s.run p choice).Inv name dir := by
  have hhas : (s.call p).hasFile := by simp [PidFileCall.hasFile, hpc]
  obtain ⟨errno, rfl⟩ | hok := choice.fails_or
  · simp only [PidWorld.run, baaCreateFileWithPid, hpc, hfd, pidSyscall, PidChoice.resolve_fail]
    split_ifs
    · exact h.goesOn halive hhas rfl hhas rfl (by simp [hpc]) (by simp [hpc])
    · exact h.error rfl (.inl rfl)
  · simp only [PidWorld.run, baaCreateFileWithPid, hpc, hfd, pidSyscall, hok]
    refine h.goesOn halive hhas rfl rfl hfd.symm (fun _ => ⟨rfl, rfl, fun j hj => ?_⟩) (by simp)
    obtain rfl : i = j := Option.some.inj hj
    exact Function.update_self ..

/-- The `write` of a call, as far as it got. -/
private theorem PidWorld.Inv.run_write {s : PidWorld} (h : s.Inv name dir) {p i : ℕ}
    (halive : s.alive p) (hpc : (s.call p).pc = .write) (hfd : (s.call p).fd = some i)
    (choice : PidChoice) : (s.run p choice).Inv name dir := by
  have hhas : (s.call p).hasFile := by simp [PidFileCall.hasFile, hpc]
  obtain ⟨hstr, hn, hempty⟩ := h.prepared p halive hpc
  obtain ⟨errno, rfl⟩ | hok := choice.fails_or
  · simpa only [PidWorld.run, baaCreateFileWithPid, hpc, hfd, pidSyscall, PidChoice.resolve_fail]
      using h.error rfl (.inl rfl)
  · simp only [PidWorld.run, baaCreateFileWithPid, hpc, hfd, pidSyscall, hok]
    split_ifs with hshort
    · exact h.error rfl (.inr ⟨halive, hhas⟩)
    · refine h.goesOn halive hhas rfl rfl hfd.symm (by simp) fun _ j hj => ?_
      obtain rfl : i = j := Option.some.inj hj
      -- the call goes on only if the whole line is in the file
      rw [FileSystem.content_write_of_nil (hempty i hfd)]
      rw [not_not, hn] at hshort
      have hline : (s.call p).str <+: pidLine p := by
        rw [hstr]
        exact List.take_prefix _ _
      exact ((choice.written_prefix _).trans hline).eq_of_length hshort

/-- The last `close` of a call: what it returns is a result of its process. -/
private theorem PidWorld.Inv.run_close {s : PidWorld} (h : s.Inv name dir) {p i : ℕ}
    (halive : s.alive p) (hpc : (s.call p).pc = .close) (hfd : (s.call p).fd = some i)
    (choice : PidChoice) : (s.run p choice).Inv name dir := by
  have hhas : (s.call p).hasFile := by simp [PidFileCall.hasFile, hpc]
  have hkeeps : s.Keeps p i := ⟨halive, .inl ⟨hhas, hfd⟩⟩
  have hline := h.written p halive hpc i hfd
  have hdone (c : PidFileCall)
      (hc : c = { s.call p with fd := some i, pc := .returned (s.call p).pidFile }) :
      PidWorld.Inv name dir { s with
        fs := s.fs.close p i, call := Function.update s.call p c
        held := Function.update s.held p (c.results (s.held p)) } := by
    -- the results were none, and now may be the file of this call
    have hmem : ∀ j ∈ c.results (s.held p), j = i := by
      rw [h.busy p halive hhas, hc]
      unfold PidFileCall.results
      split
      · rename_i f j hret hj
        obtain rfl := Option.some.inj hj
        simp
      · simp
    refine h.update FileSystem.dir_close (.inr ⟨i, hkeeps⟩) (fun _ j hj => ?_) (fun _ hfile => ?_)
      (by simp [hc]) (by simp [hc]) (by simp [hc]) (fun _ j hj => ?_) fun _ f hret => ?_
    · rcases hj with ⟨hfile, -⟩ | hj
      · simp [hc, PidFileCall.hasFile] at hfile
      · exact (hmem j hj) ▸ hkeeps
    · simp [hc, PidFileCall.hasFile] at hfile
    · rw [hmem j hj, FileSystem.content_close]
      exact hline
    · have hfd : c.fd = some i := by rw [hc]
      simp only [PidFileCall.results, hret, hfd]
      exact List.cons_ne_nil _ _
  obtain ⟨errno, rfl⟩ | hok := choice.fails_or
  · simp only [PidWorld.run, baaCreateFileWithPid, hpc, hfd, pidSyscall, PidChoice.resolve_fail]
    split_ifs
    · refine h.goesOn halive hhas FileSystem.dir_close hhas rfl (by simp [hpc]) fun _ j hj => ?_
      rw [FileSystem.content_close]
      exact h.written p halive hpc j hj
    · exact hdone _ rfl
  · simp only [PidWorld.run, baaCreateFileWithPid, hpc, hfd, pidSyscall, hok]
    exact hdone _ rfl

/-- The `close` of the `error` label. -/
private theorem PidWorld.Inv.run_errorClose {s : PidWorld} (h : s.Inv name dir) {p : ℕ}
    (hpc : (s.call p).pc = .errorClose) (choice : PidChoice) : (s.run p choice).Inv name dir := by
  have hdone {c : PidFileCall} {fs : FileSystem (List Byte) Byte} (hdir : fs.dir = s.fs.dir)
      (hcontent : fs.content = s.fs.content) (hc : c.pc = .returned none) :
      PidWorld.Inv name dir { s with
        fs := fs, call := Function.update s.call p c
        held := Function.update s.held p (c.results (s.held p)) } :=
    h.noFile hdir (.inl hcontent) (by simp [PidFileCall.hasFile, hc]) (by simp [hc])
      (by simp [hc])
  rcases hfd : (s.call p).fd with _ | i
  · simp only [PidWorld.run, baaCreateFileWithPid, hpc, hfd, pidSyscall]
    exact hdone rfl rfl rfl
  · obtain ⟨errno, rfl⟩ | hok := choice.fails_or
    · simp only [PidWorld.run, baaCreateFileWithPid, hpc, hfd, pidSyscall, PidChoice.resolve_fail]
      exact hdone FileSystem.dir_close FileSystem.content_close rfl
    · simp only [PidWorld.run, baaCreateFileWithPid, hpc, hfd, pidSyscall, hok]
      exact hdone FileSystem.dir_close FileSystem.content_close rfl

/-- A running call makes its system call. -/
theorem PidWorld.Inv.run {s : PidWorld} (h : s.Inv name dir) {p : ℕ} (halive : s.alive p)
    (hrunning : ¬ (s.call p).hasReturned) {choice : PidChoice}
    (hspares : s.spares (.step p choice)) : (s.run p choice).Inv name dir := by
  rcases hpc : (s.call p).pc
  case unlink => exact h.run_unlink halive hpc hspares
  case «open» => exact h.run_open halive hpc choice
  case openSpin =>
    have hret : ∀ f, (s.call p).pc ≠ .returned (some f) := by simp [hpc]
    have hsame := h.noFile (p := p) (c := s.call p) rfl (.inl rfl)
      (by simp [PidFileCall.hasFile, hpc]) hret (by simp [hpc])
    simpa only [PidWorld.run, baaCreateFileWithPid, hpc, pidSyscall] using hsame
  case malloc => exact h.run_malloc halive hpc choice
  case lockRegion =>
    obtain ⟨i, hi⟩ := h.opened p halive (by simp [PidFileCall.hasFile, hpc])
    exact h.run_lockRegion halive hpc hi choice
  case ftruncate =>
    obtain ⟨i, hi⟩ := h.opened p halive (by simp [PidFileCall.hasFile, hpc])
    exact h.run_ftruncate halive hpc hi choice
  case write =>
    obtain ⟨i, hi⟩ := h.opened p halive (by simp [PidFileCall.hasFile, hpc])
    exact h.run_write halive hpc hi choice
  case close =>
    obtain ⟨i, hi⟩ := h.opened p halive (by simp [PidFileCall.hasFile, hpc])
    exact h.run_close halive hpc hi choice
  case errorClose => exact h.run_errorClose hpc choice
  case returned => simp [PidFileCall.hasReturned, hpc] at hrunning

/-- A call that is made. -/
theorem PidWorld.Inv.start {s : PidWorld} (h : s.Inv name dir) (p : ℕ) :
    PidWorld.Inv name dir
      { s with call := Function.update s.call p (.start (some name) (some dir)) } := by
  have hstarted := h.noFile (p := p) (c := .start (some name) (some dir)) rfl (.inl rfl) rfl
    (by simp [PidFileCall.start]) fun _ => rfl
  rwa [PidFileCall.results_eq (by simp [PidFileCall.start]), Function.update_eq_self] at hstarted

/-- A process that exits closes its descriptor. -/
theorem PidWorld.Inv.exit {s : PidWorld} (h : s.Inv name dir) {p : ℕ}
    {fs : FileSystem (List Byte) Byte} (hdir : fs.dir = s.fs.dir)
    (hcontent : fs.content = s.fs.content) :
    PidWorld.Inv name dir { s with fs := fs, alive := Function.update s.alive p false } := by
  have halive {q : ℕ} (hq : Function.update s.alive p false q = true) : s.alive q := by
    rcases eq_or_ne q p with rfl | hne
    · simp at hq
    · rwa [Function.update_of_ne hne] at hq
  refine ⟨h.path_ok, fun q hq => h.opened q (halive hq), fun q i hq => ?_,
    fun q hq => h.busy q (halive hq), fun q hq hpc => ?_, fun q hq hpc => ?_, fun q hq => ?_,
    fun q hq => h.recorded q (halive hq)⟩
  · rw [hdir]
    exact h.linked q i ⟨halive hq.1, hq.2⟩
  · rw [hcontent]
    exact h.prepared q (halive hq) hpc
  · rw [hcontent]
    exact h.written q (halive hq) hpc
  · rw [hcontent]
    exact h.kept q (halive hq)

/-- What a step can do. -/
theorem PidWorld.step_cases {s t : PidWorld} {a : PidLabel} (hst : s.step name dir a = some t) :
    (∃ p, a = .start p ∧
      t = { s with call := Function.update s.call p (.start (some name) (some dir)) }) ∨
    (∃ p choice, a = .step p choice ∧ s.alive p ∧ ¬ (s.call p).hasReturned ∧
      t = s.run p choice) ∨
    ∃ p fs, a = .exit p ∧ fs.dir = s.fs.dir ∧ fs.content = s.fs.content ∧
      t = { s with fs := fs, alive := Function.update s.alive p false } := by
  unfold PidWorld.step at hst
  split at hst
  · rename_i p
    split_ifs at hst
    exact .inl ⟨p, rfl, (Option.some.inj hst).symm⟩
  · rename_i p choice
    split_ifs at hst with hc
    exact .inr (.inl ⟨p, choice, rfl, hc.1, hc.2, (Option.some.inj hst).symm⟩)
  · rename_i p
    split_ifs at hst
    obtain rfl := Option.some.inj hst
    refine .inr (.inr ⟨p, _, rfl, ?_, ?_, rfl⟩)
    · split
      · exact FileSystem.dir_close
      · rfl
    · split
      · exact FileSystem.content_close
      · rfl

/-- **The invariant is kept** by every step that spares the files in use. -/
theorem PidWorld.Inv.step {s t : PidWorld} (h : s.Inv name dir) {a : PidLabel}
    (hspares : s.spares a) (hst : s.step name dir a = some t) : t.Inv name dir := by
  rcases PidWorld.step_cases hst with ⟨p, rfl, rfl⟩ | ⟨p, choice, rfl, halive, hrunning, rfl⟩ |
    ⟨p, fs, rfl, hdir, hcontent, rfl⟩
  · exact h.start p
  · exact h.run halive hrunning hspares
  · exact h.exit hdir hcontent

variable (name dir) in
/-- The runs in which no `unlink` removes a file that is in use, by whichever process. -/
def sparingSystem : LabelledSystem PidWorld PidLabel :=
  (pidSystem name dir).restrict fun s a => s.spares a

/-- A step of a sparing run is a step that spares. -/
private theorem sparingSystem_step_iff {s t : PidWorld} {a : PidLabel} :
    (sparingSystem name dir).step s a = some t ↔ s.spares a ∧ s.step name dir a = some t :=
  LabelledSystem.restrict_step_iff

theorem PidWorld.inv_of_reachable {s : PidWorld} (h : (sparingSystem name dir).Reachable s) :
    s.Inv name dir := by
  refine h.invariant ?_ fun s a t _ hinv hst => ?_
  · constructor <;> simp [sparingSystem, LabelledSystem.restrict, pidSystem, PidWorld.init,
      PidFileCall.hasFile, PidWorld.Keeps]
  · obtain ⟨hspares, hst⟩ := sparingSystem_step_iff.mp hst
    exact hinv.step hspares hst

/-! ### Exclusion -/

/-- A process with a result keeps the file of it, which is in place with its pid. -/
theorem PidWorld.Inv.inPlace {s : PidWorld} (h : s.Inv name dir) {q : ℕ} (hq : s.Holds q) :
    ∃ i, s.Keeps q i ∧ s.InPlace name dir q := by
  obtain ⟨halive, hheld⟩ := hq
  obtain ⟨i, hi⟩ := List.exists_mem_of_ne_nil _ hheld
  have hkeeps : s.Keeps q i := ⟨halive, .inr hi⟩
  exact ⟨i, hkeeps, i, (h.linked q i hkeeps).1, h.kept q halive i hi⟩

/-- A step adds results and takes none away. -/
private theorem PidFileCall.results_ne_nil {c : PidFileCall} {held : List ℕ} (h : held ≠ []) :
    c.results held ≠ [] := by
  unfold PidFileCall.results
  split
  · exact List.cons_ne_nil _ _
  · exact h

/-- A process that does not exit has the results it had, whatever it and the others do. -/
theorem PidWorld.Holds.step {s t : PidWorld} {q : ℕ} (hq : s.Holds q) {a : PidLabel}
    (hst : s.step name dir a = some t) (hstays : a ≠ .exit q) : t.Holds q := by
  obtain ⟨halive, hheld⟩ := hq
  rcases PidWorld.step_cases hst with ⟨p, rfl, rfl⟩ | ⟨p, choice, rfl, -, -, rfl⟩ |
    ⟨p, fs, rfl, -, -, rfl⟩
  · exact ⟨halive, hheld⟩
  · refine ⟨halive, ?_⟩
    rcases eq_or_ne q p with rfl | hne
    · simp only [PidWorld.run, Function.update_self]
      exact PidFileCall.results_ne_nil hheld
    · simpa only [PidWorld.run, Function.update_of_ne hne] using hheld
  · have hne : q ≠ p := fun heq => hstays (heq ▸ rfl)
    exact ⟨by simpa only [Function.update_of_ne hne] using halive, hheld⟩

/-- The same for the steps of a run. -/
theorem PidWorld.Holds.exec {s t : PidWorld} {q : ℕ} (hq : s.Holds q) {as : List PidLabel}
    (hrun : (sparingSystem name dir).exec s as = some t) (hstays : ∀ a ∈ as, a ≠ .exit q) :
    t.Holds q := by
  refine LabelledSystem.exec_stable (P := fun s => s.Holds q) (fun s a t hholds ha hst => ?_) hq
    hstays hrun
  exact hholds.step (sparingSystem_step_iff.mp hst).2 ha

/-- **The pid file is exclusive** in the runs in which no `unlink` removes a file in use: no two
live processes have a result, be it of their last call or of an earlier one; and as long as a
process that has one lives, whatever calls it and the others make, it has it, its file is in place
with its pid, no other live process has a result, and every other call returns `NULL`. -/
theorem pidFile_exclusive {s : PidWorld} (h : (sparingSystem name dir).Reachable s) :
    (∀ p q, s.Holds p → s.Holds q → p = q) ∧
    ∀ q, s.Holds q → ∀ as t, (sparingSystem name dir).exec s as = some t →
      (∀ a ∈ as, a ≠ .exit q) →
      t.Holds q ∧ t.InPlace name dir q ∧
      ∀ p, p ≠ q → t.alive p →
        ¬ t.Holds p ∧ ((t.call p).hasReturned → (t.call p).pc = .returned none) := by
  have hunique {s : PidWorld} (h : s.Inv name dir) {p q : ℕ} (hp : s.Holds p) (hq : s.Holds q) :
      p = q := by
    obtain ⟨i, hi, -⟩ := h.inPlace hp
    obtain ⟨j, hj, -⟩ := h.inPlace hq
    exact h.keeps_unique hi hj
  refine ⟨fun p q hp hq => hunique (PidWorld.inv_of_reachable h) hp hq,
    fun q hq as t hrun hstays => ?_⟩
  have hinv : t.Inv name dir := PidWorld.inv_of_reachable (h.of_exec hrun)
  have hholds : t.Holds q := hq.exec hrun hstays
  obtain ⟨-, -, hplace⟩ := hinv.inPlace hholds
  refine ⟨hholds, hplace, fun p hne halive => ?_⟩
  have hnot : ¬ t.Holds p := fun hp => hne (hunique hinv hp hholds)
  refine ⟨hnot, fun hreturned => ?_⟩
  unfold PidFileCall.hasReturned at hreturned
  split at hreturned
  · rename_i result hpc
    rcases result with _ | path
    · exact hpc
    · exact absurd ⟨halive, hinv.recorded p halive path hpc⟩ hnot
  · cases hreturned

/-- A call of process `p` that meets no failure. -/
def undisturbed (p : ℕ) : List PidLabel := .start p :: List.replicate 7 (.step p .succeed)

/-- A process with the file that calls again, and a call of another one; neither may remove the
file. -/
def refusedUnlink : List PidLabel :=
  [.start 1, .step 1 (.fail .eacces), .start 2, .step 2 (.fail .eacces)]

/-- Both calls return `NULL`, and the process has the result of its first call. -/
theorem pidFile_exclusive_refusedUnlink :
    ∃ s t, (sparingSystem [100] [47]).exec .init (undisturbed 1) = some s ∧ s.Holds 1 ∧
      (sparingSystem [100] [47]).exec s refusedUnlink = some t ∧
      (t.call 1).pc = .returned none ∧ t.Holds 1 ∧ t.InPlace [100] [47] 1 ∧ ¬ t.Holds 2 ∧
      (t.call 2).pc = .returned none := by
  have hcall : ((sparingSystem [100] [47]).exec .init (undisturbed 1)).map
      (fun s => (s.alive 1, s.held 1)) = some (true, [0]) := by
    decide +kernel
  have hrefused : (((sparingSystem [100] [47]).exec .init (undisturbed 1)).bind fun s =>
      (sparingSystem [100] [47]).exec s refusedUnlink).map
        (fun t => ((t.call 1).pc, t.alive 2, (t.call 2).hasReturned)) =
          some (.returned none, true, true) := by
    decide +kernel
  obtain ⟨s, hs, hfacts⟩ := Option.map_eq_some_iff.mp hcall
  obtain ⟨halive, hheld⟩ : _ ∧ _ := by simpa only [Prod.mk.injEq] using hfacts
  rw [hs, Option.bind_some] at hrefused
  obtain ⟨t, ht, hfacts⟩ := Option.map_eq_some_iff.mp hrefused
  obtain ⟨hnull, halive', hreturned⟩ : _ ∧ _ ∧ _ := by simpa only [Prod.mk.injEq] using hfacts
  have hone : s.Holds 1 := ⟨halive, by simp [hheld]⟩
  obtain ⟨hholds, hplace, hothers⟩ :=
    (pidFile_exclusive (LabelledSystem.reachable_of_exec hs)).2 1 hone _ t ht (by decide)
  obtain ⟨hnot, hnull'⟩ := hothers 2 (by decide) halive'
  exact ⟨s, t, hs, hone, ht, hnull, hholds, hplace, hnot, hnull' hreturned⟩

/-- One call after the other: both processes have a result, and the file is the second one's. -/
theorem two_holders :
    ∃ s, (pidSystem [100] [47]).Reachable s ∧ s.Holds 1 ∧ s.Holds 2 ∧
      ¬ s.InPlace [100] [47] 1 := by
  have hrun : ((pidSystem [100] [47]).exec .init (undisturbed 1 ++ undisturbed 2)).map
      (fun s => (s.alive 1, s.held 1, s.alive 2, s.held 2,
        (s.fs.dir (pidPath [100] [47])).map fun i => decide (s.fs.content i = pidLine 1))) =
          some (true, [0], true, [1], some false) := by
    decide +kernel
  obtain ⟨s, hs, hfacts⟩ := Option.map_eq_some_iff.mp hrun
  obtain ⟨halive, hheld, halive', hheld', hfile⟩ : _ ∧ _ ∧ _ ∧ _ ∧ _ := by
    simpa only [Prod.mk.injEq] using hfacts
  refine ⟨s, LabelledSystem.reachable_of_exec hs, ⟨halive, by simp [hheld]⟩,
    ⟨halive', by simp [hheld']⟩, ?_⟩
  rintro ⟨i, hdir, hcontent⟩
  rw [hdir, Option.map_some, decide_eq_true hcontent] at hfile
  cases hfile

end Libbaalue
