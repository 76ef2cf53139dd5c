import Libbaalue.Foundations.CallMachine
import Libbaalue.Platform

/-!
# `baa_create_file_with_pid`

The call as the machine of its system calls, with its error paths, and with its two jumps back:
the one after a failed `ftruncate` makes the call again, the one after a failed `open` does not.
A descriptor that is not open is `none`; the pid file returned is a C string.

Every path through the function is kept, as the results differ on the ones that are rarely taken:
the errors lead to one label, which closes the descriptor and returns `NULL`, and the success closes
it as well, before the path is returned. The buffer `str` is used for the path first and for the
line with the process id later, and holds what was printed last; what is printed is cut to its size.

What the calls do to files, and what several processes make of it, is not said here. The machine
only makes calls and takes answers.
-/

namespace Libbaalue

/-- `BAA_MAXLINE`. -/
def baaMaxLine : ℕ := 254

/-- The text of a number, as `"%ld\n"` prints it. -/
def pidLine (pid : ℕ) : List Byte :=
  (toString pid).toList.map (fun c => BitVec.ofNat 8 c.toNat) ++ [10]

/-- The path `"%s/%s.pid"`. -/
def pidFilePath (name dir : List Byte) : List Byte := dir ++ [47] ++ name ++ [46, 112, 105, 100]

/-- The system calls of `baa_create_file_with_pid`; `openSpin` is the jump to `open_cmd`, which
stands behind the `open`. -/
inductive PidFilePc
  | unlink
  | open
  | openSpin
  | malloc
  | lockRegion
  | ftruncate
  | write
  | close
  | errorClose
  | returned (pidFile : Option (List Byte))
  deriving DecidableEq, Repr

/-- The variables of `baa_create_file_with_pid`. `str` is the string in the buffer, `n` what the
first `snprintf` has returned, which is the length of the path before it was cut. -/
structure PidFileCall where
  pc : PidFilePc
  str : List Byte
  n : ℕ
  fd : Option ℕ
  pidFile : Option (List Byte)
  deriving DecidableEq, Repr

/-- A system call with its arguments; `spin` is a jump that comes back without one, which is not a
call but has to be seen to be told from a return. -/
inductive PidFileSyscall
  | unlink (path : List Byte)
  | openExcl (path : List Byte)
  | spin
  | malloc (size : ℕ)
  | lockRegion (fd : Option ℕ)
  | ftruncate (fd : Option ℕ)
  | write (fd : Option ℕ) (buf : List Byte)
  | close (fd : Option ℕ)
  | returned (pidFile : Option (List Byte))
  deriving DecidableEq, Repr

/-- `snprintf` into a buffer of `BAA_MAXLINE` bytes: the string it leaves there. -/
def snprintfMaxLine (text : List Byte) : List Byte := text.take (baaMaxLine - 1)

/-- The entry of the call; `none` is a null pointer. -/
def PidFileCall.start : Option (List Byte) → Option (List Byte) → PidFileCall
  | some name, some dir =>
    { pc := .unlink
      str := snprintfMaxLine (pidFilePath name dir)
      n := (pidFilePath name dir).length
      fd := none
      pidFile := none }
  | _, _ => ⟨.returned none, [], 0, none, none⟩

/-- The label `error`: free the string and close the descriptor. -/
def PidFileCall.error (s : PidFileCall) : PidFileCall :=
  match s.fd with
  | some _ => { s with pidFile := none, pc := .errorClose }
  | none => { s with pidFile := none, pc := .returned none }

/-- `baa_create_file_with_pid`, in the process `pid`. Every outcome of a call leads where the code
goes, and a call that has returned stays so. -/
def baaCreateFileWithPid (pid : ℕ) : CallMachine PidFileCall PidFileSyscall SysRet where
  call s :=
    match s.pc with
    | .unlink => .unlink s.str
    | .open => .openExcl s.str
    | .openSpin => .spin
    | .malloc => .malloc (s.n + 1)
    | .lockRegion => .lockRegion s.fd
    | .ftruncate => .ftruncate s.fd
    | .write => .write s.fd s.str
    | .close | .errorClose => .close s.fd
    | .returned pidFile => .returned pidFile
  resume s
    | .ok v =>
      match s.pc with
      | .unlink => { s with pc := .open }
      | .open => { s with fd := some v, pc := .malloc }
      | .openSpin => s
      | .malloc => { s with pidFile := some (s.str.take s.n), pc := .lockRegion }
      | .lockRegion => { s with pc := .ftruncate }
      | .ftruncate =>
        { s with
          str := snprintfMaxLine (pidLine pid), n := (pidLine pid).length, pc := .write }
      -- a short `write` is an error
      | .write => if v ≠ s.n then s.error else { s with pc := .close }
      | .close => { s with pc := .returned s.pidFile }
      | .errorClose => { s with pc := .returned none }
      | .returned _ => s
    | .failed errno =>
      match s.pc with
      | .unlink =>
        if errno ≠ .enoent then { s with pc := .returned none } else { s with pc := .open }
      -- `goto open_cmd` looks at the same descriptor again
      | .open =>
        if errno = .eintr then { s with pc := .openSpin } else { s with pc := .returned none }
      | .openSpin => s
      | .malloc | .lockRegion | .write => s.error
      | .ftruncate => if errno = .eintr then s else s.error
      -- `baa_wrap_close` tries again after a signal, and gives up after anything else
      | .close => if errno = .eintr then s else { s with pc := .returned s.pidFile }
      | .errorClose => { s with pc := .returned none }
      | .returned _ => s

end Libbaalue
