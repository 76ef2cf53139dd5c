import Mathlib.Logic.Function.Basic
import Mathlib.Data.Nat.Basic

/-!
# Names, files and record locks

A directory maps names to inodes, and an inode has contents and at most one write lock, held by
a process. The calls follow the rules that matter for lock files: `unlink` removes a name and
leaves the file alone, `createExcl` makes a new file or fails, a record lock belongs to a
process and is dropped when the process closes a descriptor of the file.

A partial operation returns `none` where the call fails for a reason that lies in the file
system: the name does not exist, the name exists, the lock is held by another process.

Only what a run of such calls can observe is modelled. An inode is never reused, so that a process
that still has a descriptor of a file without a name goes on writing to that file and to no other;
and the record lock of a process is lost with any of its descriptors of the file, which is the rule
of POSIX that makes these locks hard to use.
-/

/-- A file system over names `ν` and cells `β`; inodes and processes are numbered. A name leads to
an inode or to none; contents and locks belong to inodes, so that a file whose name was removed
lives on for those who have it open. -/
structure FileSystem (ν β : Type*) where
  dir : ν → Option ℕ
  content : ℕ → List β
  lock : ℕ → Option ℕ
  /-- The next inode. -/
  fresh : ℕ

namespace FileSystem

variable {ν β : Type*}

/-- No name, no file. -/
def empty : FileSystem ν β := ⟨fun _ => none, fun _ => [], fun _ => none, 0⟩

/-- `unlink`: remove a name. The file keeps its contents and its lock; where there is no such name
the call fails. -/
def unlink [DecidableEq ν] (fs : FileSystem ν β) (name : ν) : Option (FileSystem ν β) :=
  (fs.dir name).map fun _ => { fs with dir := Function.update fs.dir name none }

/-- `open` with `O_CREAT | O_EXCL`: a new, empty file under a name that does not exist. -/
def createExcl [DecidableEq ν] (fs : FileSystem ν β) (name : ν) : Option (ℕ × FileSystem ν β) :=
  match fs.dir name with
  | some _ => none
  | none => some (fs.fresh,
      { fs with
        dir := Function.update fs.dir name (some fs.fresh)
        content := Function.update fs.content fs.fresh []
        fresh := fs.fresh + 1 })

/-- `fcntl` with `F_SETLK`: a write lock on the whole file. A lock is a process's, so that the
holder may lock again, and anybody else is refused. -/
def setLock (fs : FileSystem ν β) (p i : ℕ) : Option (FileSystem ν β) :=
  match fs.lock i with
  | some q => if q = p then some fs else none
  | none => some { fs with lock := Function.update fs.lock i (some p) }

/-- `ftruncate` to no bytes. -/
def truncate (fs : FileSystem ν β) (i : ℕ) : FileSystem ν β :=
  { fs with content := Function.update fs.content i [] }

/-- `write` at the start of a file. -/
def write (fs : FileSystem ν β) (i : ℕ) (bs : List β) : FileSystem ν β :=
  { fs with content := Function.update fs.content i (bs ++ (fs.content i).drop bs.length) }

/-- `close` of a descriptor of a file. The process loses its lock on the file with it, whatever
other descriptors of the file it has. -/
def close (fs : FileSystem ν β) (p i : ℕ) : FileSystem ν β :=
  if fs.lock i = some p then { fs with lock := Function.update fs.lock i none } else fs

/-! ### What the calls leave alone -/

variable {fs fs' : FileSystem ν β} {name : ν} {p i : ℕ}

/-- A file that was created had no name before and has one now. -/
theorem dir_createExcl [DecidableEq ν] (h : fs.createExcl name = some (i, fs')) :
    fs.dir name = none ∧ fs'.dir name = some i := by
  unfold createExcl at h
  split at h
  · cases h
  · rename_i hnone
    cases h
    exact ⟨hnone, Function.update_self ..⟩

theorem setLock_frame (h : fs.setLock p i = some fs') :
    fs'.dir = fs.dir ∧ fs'.content = fs.content ∧ fs'.fresh = fs.fresh := by
  unfold setLock at h
  split at h
  · split_ifs at h
    cases h
    exact ⟨rfl, rfl, rfl⟩
  · cases h
    exact ⟨rfl, rfl, rfl⟩

@[simp]
theorem dir_close : (fs.close p i).dir = fs.dir := by
  unfold close
  split_ifs <;> rfl

@[simp]
theorem content_close : (fs.close p i).content = fs.content := by
  unfold close
  split_ifs <;> rfl

/-- An empty file holds what is written to it. -/
theorem content_write_of_nil {bs : List β} (h : fs.content i = []) :
    (fs.write i bs).content i = bs := by
  simp [write, h]

end FileSystem
