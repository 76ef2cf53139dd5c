import Libbaalue.Foundations.Digits
import Libbaalue.Foundations.Overlay

/-!
# The C data models of the library

`int` has 32 bits on every platform the library is built for; `long`, `size_t` and the slot of
a variadic argument have 32 bits on ILP32 (the Allwinner A20) and 64 on LP64. Machine integers
are bit vectors of these widths: signedness is the reader's, a conversion is `setWidth` or
`signExtend`.

A variadic argument list is the list of its slots. An `int` passed through `...` fills the low
32 bits of its slot only; on LP64 the upper half is whatever the register held
(`intSlot`), which `va_arg` at type `int` never looks at and `va_arg` at type `long` returns.

A system call answers with a value or with -1 and an `errno`.

The byte order matters to the stores of whole objects only, as the library packs its messages byte
by byte; the two data models differ in the slot of an argument and in the range of `long`, and both
differences are visible in the results. Nothing depends on the platform where it is not mentioned: a
definition that takes no `Abi` is the same on all of them.
-/

namespace Libbaalue

/-- The data models: 32-bit `long` and 64-bit `long`. An `int` has 32 bits in both. -/
inductive Abi
  | ilp32
  | lp64
  deriving DecidableEq, Repr

/-- The width of `long`, `unsigned long`, `size_t` and of an argument slot. -/
def Abi.longBits : Abi → ℕ
  | ilp32 => 32
  | lp64 => 64

theorem Abi.le_longBits (abi : Abi) : 32 ≤ abi.longBits := by
  cases abi <;> simp [Abi.longBits]

theorem Abi.longBits_pos (abi : Abi) : 0 < abi.longBits := by cases abi <;> simp [Abi.longBits]

/-- `unsigned char` and `signed char`. -/
abbrev Byte := BitVec 8

/-- `int` and `unsigned int`. -/
abbrev CInt := BitVec 32

/-- `long` and `unsigned long`. -/
abbrev CLong (abi : Abi) := BitVec abi.longBits

section Constants

variable {abi : Abi}

@[simp]
theorem toNat_one : (1 : CLong abi).toNat = 1 := by cases abi <;> rfl

@[simp]
theorem toInt_one : (1 : CLong abi).toInt = 1 := by cases abi <;> rfl

@[simp]
theorem toInt_zero : (0 : CLong abi).toInt = 0 := BitVec.toInt_zero

/-- Counting down wraps around at 0 only. -/
theorem toNat_sub_one_of_ne_zero {x : CLong abi} (h : x ≠ 0) :
    (x - 1).toNat = x.toNat - 1 := by
  have hpos : 1 ≤ x.toNat := by
    rw [Nat.one_le_iff_ne_zero, ne_eq, ← BitVec.toNat_zero (w := abi.longBits), BitVec.toNat_inj]
    exact h
  rw [BitVec.toNat_sub_of_le (by rw [BitVec.le_def, toNat_one]; exact hpos), toNat_one]

end Constants

/-- `va_arg(ap, int)` and `va_arg(ap, unsigned int)`: the low 32 bits of the slot. -/
def vaInt {abi : Abi} (slot : CLong abi) : CInt := slot.setWidth 32

/-- The slot of an `int` argument whose register held `junk` in its upper half. -/
def intSlot : (abi : Abi) → (junk v : CInt) → CLong abi
  | .ilp32, _, v => v
  | .lp64, junk, v => junk ++ v

/-- `va_arg`: the next slot, `none` when the caller passed too few. -/
def vaArg {α : Type*} : List α → Option (α × List α)
  | [] => none
  | x :: ap => some (x, ap)

/-- An `int` passed and fetched as `int` arrives, whatever the upper half of its slot. -/
@[simp]
theorem vaInt_intSlot (abi : Abi) (junk v : CInt) : vaInt (intSlot abi junk v) = v := by
  cases abi with
  | ilp32 => exact BitVec.setWidth_eq v
  | lp64 => exact BitVec.setWidth_append_eq_right

/-- The `errno` values the library tells apart, and the others by number, since it looks at no
others. -/
inductive Errno
  | enoent
  | eintr
  | eagain
  | eacces
  | eexist
  | einval
  | other (n : CInt)
  deriving DecidableEq, Repr

/-- What a system call comes to: its value, or -1 and `errno`. -/
inductive SysRet
  | ok (n : ℕ)
  | failed (errno : Errno)
  deriving DecidableEq, Repr

/-- `O_RDONLY`. -/
def oRdonly : CInt := 0x0

/-- `O_RDWR`. -/
def oRdwr : CInt := 0x2

/-- What a call returns, as an `int`. -/
def SysRet.toCInt : SysRet → CInt
  | .ok n => BitVec.ofNat 32 n
  | .failed _ => -1

/-- Whether a call succeeded. -/
def SysRet.isOk : SysRet → Bool
  | .ok _ => true
  | .failed _ => false

/-- A call that is interrupted some times before it succeeds, or fails for another reason. The last
outcome is the one of all later calls as well. -/
structure Attempts where
  interrupted : ℕ
  last : SysRet
  last_ne : last ≠ .failed .eintr

/-- A call that succeeds in the end. -/
def Attempts.succeeds (interrupted n : ℕ) : Attempts := ⟨interrupted, .ok n, fun h => by cases h⟩

/-- What the call with the given number comes to. -/
def Attempts.outcome (o : Attempts) (n : ℕ) : SysRet :=
  if n < o.interrupted then .failed .eintr else o.last

/-- The byte order of the stores of a platform. -/
inductive ByteOrder
  | little
  | big
  deriving DecidableEq, Repr

/-- Lay out little-endian bytes in the given order (and back: the map is an involution). -/
def ByteOrder.arrange : ByteOrder → List Byte → List Byte
  | little, bs => bs
  | big, bs => bs.reverse

/-- A platform of the library: every LP64 target is little-endian. -/
structure Platform where
  abi : Abi
  order : ByteOrder
  little_of_lp64 : abi = .lp64 → order = .little

/-- x86-64 and AArch64 Linux. -/
def Platform.linux64 : Platform := ⟨.lp64, .little, fun _ => rfl⟩

end Libbaalue
