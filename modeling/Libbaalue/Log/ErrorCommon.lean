import Mathlib.Data.BitVec
import Libbaalue.Foundations.StringBuffer
import Libbaalue.Helper.PidFile

/-!
# `error_common`

Every message of the library is put together in a buffer of `BAA_MAXLINE + 1` bytes: the
expanded text, the text of the `errno`, and a newline. `snprintf` and `vsnprintf` are given the
room that is left below `BAA_MAXLINE`, so that the newline always has a place
(`errorCommon_complete`).

What `vsnprintf` expands is a parameter, as is `strerror`; `errno` is read before anything is
called.

The buffer is followed through the calls that write to it, each with the room it is given, and what
is in it is compared with the message in full, of which a first part is kept. The length of the text
is measured in the buffer, by `strlen`, and so is never more than what fits; the room that is left
is a difference that must not go below zero. That it does not, for texts of any length, is part of
the result, and so is what is in the buffer where the text leaves no room for the rest.
-/

namespace Libbaalue

variable {abi : Abi}

/-- The priorities for `syslog`. -/
inductive LogLevel
  | err
  | info
  | debug
  deriving DecidableEq, Repr

/-- What `error_common` finds: `use_syslog`, `errno`, the texts of `strerror` and what is in
its uninitialised buffer. -/
structure LogEnv where
  useSyslog : Bool
  errno : CInt
  strerror : CInt → List Byte
  junk : ℕ → Byte

/-- A call of `error_common`: the buffer it is left with, the length of the message and the
room that it computes, and the lines it puts out. -/
structure ErrorLine (abi : Abi) where
  buf : Buffer Byte
  n : CLong abi
  room : CLong abi
  stderr : List Byte
  syslog : Option (LogLevel × List Byte)

/-- The cells of `buf`. -/
def sizeofLogBuf : ℕ := baaMaxLine + 1

/-- `error_common`, with the text that its format and arguments expand to. An `errno` that is given
is put aside for the one of the process where the flag is set. -/
def errorCommon (abi : Abi) (env : LogEnv) (errnoFlag errnoVal : CInt) (logLevel : LogLevel)
    (text : List Byte) : ErrorLine abi :=
  let errnoSave : CInt := 0
  let errnoSave := if errnoVal ≠ 0 then errnoVal else errnoSave
  let errnoSave := if errnoFlag ≠ 0 then env.errno else errnoSave
  let buf := (Buffer.fresh env.junk).putString 0 baaMaxLine text
  let n : CLong abi := BitVec.ofNat _ (buf.strlen sizeofLogBuf)
  let room : CLong abi := BitVec.ofNat _ baaMaxLine - n
  let buf :=
    if errnoSave ≠ 0 then buf.putString n.toNat room.toNat ([58, 32] ++ env.strerror errnoSave)
    else buf
  let buf := buf.strcat sizeofLogBuf [10]
  { buf := buf
    n := n
    room := room
    stderr := buf.string sizeofLogBuf
    syslog := if env.useSyslog then some (logLevel, buf.string sizeofLogBuf) else none }

/-- `baa_th_error_msg`. -/
def baaThErrorMsg (abi : Abi) (env : LogEnv) (errnoVal : CInt) (text : List Byte) : ErrorLine abi :=
  errorCommon abi env 0 errnoVal .err text

/-! ### The line -/

/-- The `errno` a message is about; 0 is none. -/
def effectiveErrno (env : LogEnv) (errnoFlag errnoVal : CInt) : CInt :=
  if errnoFlag ≠ 0 then env.errno else errnoVal

/-- A message in full: its text, and the text of the `errno` it is about. -/
def fullMessage (env : LogEnv) (errno : CInt) (text : List Byte) : List Byte :=
  if errno = 0 then text else text ++ [58, 32] ++ env.strerror errno

/-- What the two tests make of `errno_save`. -/
private theorem errnoSave_eq (env : LogEnv) (errnoFlag errnoVal : CInt) :
    (if errnoFlag ≠ 0 then env.errno else if errnoVal ≠ 0 then errnoVal else 0) =
      effectiveErrno env errnoFlag errnoVal := by
  rw [effectiveErrno]
  split_ifs with hflag hval
  · rfl
  · rfl
  · exact (not_not.mp hval).symm

/-- The message as far as it is kept: the part of its text, and of the rest what has room
behind that. -/
private theorem take_fullMessage (text rest : List Byte) (k : ℕ) :
    text.take k ++ rest.take (k - (text.take k).length) = (text ++ rest).take k := by
  rw [List.take_append, List.length_take]
  rcases le_total text.length k with hle | hle
  · rw [min_eq_right hle]
  · rw [min_eq_left hle, Nat.sub_self, Nat.sub_eq_zero_of_le hle]

variable (abi) in
/-- The `size_t`s of a message whose text has `k` bytes in the buffer: they do not wrap around. -/
private theorem toNat_room {k : ℕ} (h : k < baaMaxLine) :
    (BitVec.ofNat abi.longBits k).toNat = k ∧
      (BitVec.ofNat abi.longBits baaMaxLine - BitVec.ofNat abi.longBits k).toNat =
        baaMaxLine - k := by
  have hlong : (2 : ℕ) ^ 32 ≤ 2 ^ abi.longBits := Nat.pow_le_pow_right (by omega) abi.le_longBits
  simp only [baaMaxLine] at h ⊢
  have hk : (BitVec.ofNat abi.longBits k).toNat = k := by
    rw [BitVec.toNat_ofNat, Nat.mod_eq_of_lt (by omega)]
  have hmax : (BitVec.ofNat abi.longBits 254).toNat = 254 := by
    rw [BitVec.toNat_ofNat, Nat.mod_eq_of_lt (by omega)]
  refine ⟨hk, ?_⟩
  rw [BitVec.toNat_sub_of_le (by rw [BitVec.le_def, hk, hmax]; omega), hk, hmax]

/-- The text in the buffer. -/
private theorem holds_text (env : LogEnv) {text : List Byte} (htext : 0 ∉ text) :
    ((Buffer.fresh env.junk).putString 0 baaMaxLine text).Holds (text.take (baaMaxLine - 1)) ∧
      ((Buffer.fresh env.junk).putString 0 baaMaxLine text).WritesBelow sizeofLogBuf := by
  have hfresh : (Buffer.fresh env.junk).WritesBelow sizeofLogBuf := fun i hi =>
    absurd hi List.not_mem_nil
  exact ⟨Buffer.holds_putString (s := []) _ rfl List.not_mem_nil htext (by decide),
    Buffer.writesBelow_putString hfresh (by decide) text⟩

/-- The bytes of a text that are kept: the buffer has room for them, a newline and a NUL. -/
def kept (text : List Byte) : List Byte := text.take (baaMaxLine - 1)

private theorem length_kept_lt (text : List Byte) : (kept text).length < baaMaxLine := by
  simp only [kept, List.length_take, baaMaxLine]
  omega

/-- The buffer of `error_common` before the newline. -/
def messageBuf (env : LogEnv) (errno : CInt) (text : List Byte) : Buffer Byte :=
  let buf := (Buffer.fresh env.junk).putString 0 baaMaxLine text
  if errno ≠ 0 then
    buf.putString (kept text).length (baaMaxLine - (kept text).length)
      ([58, 32] ++ env.strerror errno)
  else buf

/-- The calls of `vsnprintf` and `snprintf` leave as much of the message as is kept. -/
theorem holds_messageBuf (env : LogEnv) (errno : CInt) {text : List Byte} (htext : 0 ∉ text)
    (hstrerror : 0 ∉ env.strerror errno) :
    (messageBuf env errno text).Holds (kept (fullMessage env errno text)) ∧
      (messageBuf env errno text).WritesBelow sizeofLogBuf := by
  obtain ⟨hholds, hwrites⟩ := holds_text env htext
  rw [messageBuf, fullMessage]
  by_cases herrno : errno = 0
  · rw [if_neg (not_not.mpr herrno), if_pos herrno]
    exact ⟨hholds, hwrites⟩
  · rw [if_pos herrno, if_neg herrno, List.append_assoc, kept, kept, ← take_fullMessage]
    have hrest : (0 : Byte) ∉ [58, 32] ++ env.strerror errno := by
      rw [List.mem_append, not_or]
      exact ⟨by decide, hstrerror⟩
    have hlen := length_kept_lt text
    rw [kept] at hlen
    refine ⟨?_, Buffer.writesBelow_putString hwrites (by simp only [sizeofLogBuf]; omega) _⟩
    rw [Nat.sub_right_comm]
    exact Buffer.holds_putString _ hholds.front hholds.2 hrest (by omega)

/-- **What a call of `error_common` does**, told from its message: the buffer before the newline,
whose text ends in front of it. -/
theorem errorCommon_eq (abi : Abi) (env : LogEnv) (errnoFlag errnoVal : CInt)
    (logLevel : LogLevel) {text : List Byte} (htext : 0 ∉ text) :
    errorCommon abi env errnoFlag errnoVal logLevel text =
      let buf := (messageBuf env (effectiveErrno env errnoFlag errnoVal) text).strcat
        sizeofLogBuf [10]
      { buf := buf
        n := BitVec.ofNat _ (kept text).length
        room := BitVec.ofNat _ baaMaxLine - BitVec.ofNat _ (kept text).length
        stderr := buf.string sizeofLogBuf
        syslog := if env.useSyslog then some (logLevel, buf.string sizeofLogBuf) else none } := by
  have hlen := length_kept_lt text
  have hstrlen : ((Buffer.fresh env.junk).putString 0 baaMaxLine text).strlen sizeofLogBuf =
      (kept text).length := by
    rw [Buffer.strlen, Buffer.string_of_holds (holds_text env htext).1, kept]
    exact hlen.trans (Nat.lt_succ_self _)
  obtain ⟨hn, hroom⟩ := toNat_room abi hlen
  simp only [errorCommon, errnoSave_eq, hstrlen, hroom, hn, messageBuf]

/-- The newline, and what is read back with it. -/
private theorem strcat_newline {buf : Buffer Byte} {s : List Byte} (h : buf.Holds s)
    (hwrites : buf.WritesBelow sizeofLogBuf) (hs : s.length < baaMaxLine) :
    (buf.strcat sizeofLogBuf [10]).string sizeofLogBuf = s ++ [10] ∧
      (buf.strcat sizeofLogBuf [10]).WritesBelow sizeofLogBuf := by
  have hsize : s.length < sizeofLogBuf := hs.trans (Nat.lt_succ_self _)
  have hholds : (buf.strcat sizeofLogBuf [10]).Holds (s ++ [10]) :=
    Buffer.holds_strcat h hsize (by decide)
  refine ⟨Buffer.string_of_holds hholds (by simpa [sizeofLogBuf] using hs), ?_⟩
  rw [Buffer.strcat, Buffer.strlen, Buffer.string_of_holds h hsize]
  refine Buffer.writesBelow_put hwrites ?_
  simp only [sizeofLogBuf, List.length_append, List.length_singleton]
  omega

/-- What a call of `error_common` is to do: write inside its buffer, never compute a negative
room, and put out the line. -/
structure ErrorLine.Complete (r : ErrorLine abi) (env : LogEnv) (logLevel : LogLevel)
    (line : List Byte) : Prop where
  writesBelow : r.buf.WritesBelow sizeofLogBuf
  n_lt : r.n.toNat < baaMaxLine
  room_eq : r.room.toNat = baaMaxLine - r.n.toNat
  stderr_eq : r.stderr = line
  syslog_eq : r.syslog = if env.useSyslog then some (logLevel, line) else none

/-- The line of a call: the first `BAA_MAXLINE - 1` bytes of the message, and a newline. -/
private theorem complete_errorCommon (abi : Abi) (env : LogEnv) (errnoFlag errnoVal : CInt)
    (logLevel : LogLevel) {text : List Byte} (htext : 0 ∉ text)
    (hstrerror : ∀ errno, 0 ∉ env.strerror errno) :
    (errorCommon abi env errnoFlag errnoVal logLevel text).Complete env logLevel
      ((fullMessage env (effectiveErrno env errnoFlag errnoVal) text).take (baaMaxLine - 1) ++
        [10]) := by
  obtain ⟨hholds, hwrites⟩ :=
    holds_messageBuf env (effectiveErrno env errnoFlag errnoVal) htext (hstrerror _)
  obtain ⟨hstring, hstrcat⟩ := strcat_newline hholds hwrites (length_kept_lt _)
  obtain ⟨hn, hroom⟩ := toNat_room abi (length_kept_lt text)
  rw [errorCommon_eq abi env errnoFlag errnoVal logLevel htext]
  refine ⟨?_, ?_, ?_, ?_, ?_⟩ <;> dsimp only
  · exact hstrcat
  · rw [hn]
    exact length_kept_lt text
  · rw [hroom, hn]
  · exact hstring
  · rw [hstring, kept]

/-- **Log lines are bounded and complete.** The line put out is the first `BAA_MAXLINE - 1`
bytes of the message, followed by one newline; the message of `baa_th_error_msg` is about the
`errno` that it is given. -/
theorem errorCommon_complete (abi : Abi) (env : LogEnv) (errnoFlag errnoVal : CInt)
    (logLevel : LogLevel) (text : List Byte) (htext : 0 ∉ text)
    (hstrerror : ∀ errno, 0 ∉ env.strerror errno) :
    (errorCommon abi env errnoFlag errnoVal logLevel text).Complete env logLevel
        ((fullMessage env (effectiveErrno env errnoFlag errnoVal) text).take (baaMaxLine - 1) ++
          [10]) ∧
      (baaThErrorMsg abi env errnoVal text).Complete env .err
        ((fullMessage env errnoVal text).take (baaMaxLine - 1) ++ [10]) :=
  ⟨complete_errorCommon abi env errnoFlag errnoVal logLevel htext hstrerror,
    complete_errorCommon abi env 0 errnoVal .err htext hstrerror⟩

/-- After a call that failed with `errno` 2. -/
def enoentEnv : LogEnv := ⟨false, 2, fun _ => [78, 111], fun _ => 255⟩

theorem errorCommon_complete_enoent :
    (errorCommon .lp64 enoentEnv 1 0 .err [104, 105]).Complete enoentEnv .err
        ((fullMessage enoentEnv (effectiveErrno enoentEnv 1 0) [104, 105]).take (baaMaxLine - 1) ++
          [10]) ∧
      (baaThErrorMsg .lp64 enoentEnv 0 [104, 105]).Complete enoentEnv .err
        ((fullMessage enoentEnv 0 [104, 105]).take (baaMaxLine - 1) ++ [10]) :=
  errorCommon_complete .lp64 enoentEnv 1 0 .err [104, 105] (by decide)
    fun _ => (by decide : (0 : Byte) ∉ [78, 111])

end Libbaalue
