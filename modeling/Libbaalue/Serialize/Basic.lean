import Libbaalue.Platform

/-!
# The serializer

`baa_pack` and `baa_unpack` of `serialize.c`. A call works on the caller's buffer through a
cursor; the state of the format loop is the buffer, the cursor, the `size_t` counter and the
rest of the argument list, each advanced by the branch of the conversion on its own. `none` is
a call without meaning in C: a missing argument, or an access outside the buffer.

A format is the list of the characters before its terminating NUL. An unknown character is
logged (`"unknown format %c"`) and skipped.

`baaUnpack` is generic in the pointers it is given: it returns the values it stores, each with
the pointer it stores it through, in the order of the stores.

The branches are written one by one, in the order of the source and with its casts, so that each can
be laid beside the line it stands for; what they have in common is found afterwards, in
`Conversion`. The two counts are kept as the code keeps them: an unsigned `size_t` that is added to,
and an `int` that it is returned as. The sign tricks of `unpack_i8`, `unpack_i16` and `unpack_i32`
are kept as they are, too, with their comparisons against constants.
-/

namespace Libbaalue

variable {abi : Abi}

/-! ### Integers to bytes -/

/-- `pack_16`: the two bytes it stores. -/
def pack16 (i : CInt) : List Byte := [(i >>> 8).setWidth 8, i.setWidth 8]

/-- `pack_32`: the four bytes it stores. -/
def pack32 (i : CLong abi) : List Byte :=
  [(i >>> 24).setWidth 8, (i >>> 16).setWidth 8, (i >>> 8).setWidth 8, i.setWidth 8]

/-! ### Bytes to integers -/

/-- `unpack_i8`. The `int` it computes is converted to `signed char` on return. -/
def unpackI8 (buf : List Byte) : BitVec 8 :=
  let tmp : CInt := (buf.getD 0 0).setWidth 32
  let i : CInt := if tmp ≤ 0x7f#32 then tmp else -1#32 - (0xff#32 - tmp)
  i.setWidth 8

/-- `unpack_16`. -/
def unpack16 (buf : List Byte) : CInt :=
  (buf.getD 0 0).setWidth 32 <<< 8 ||| (buf.getD 1 0).setWidth 32

/-- `unpack_i16`. -/
def unpackI16 (buf : List Byte) : CInt :=
  let tmp : CInt := (buf.getD 0 0).setWidth 32 <<< 8 ||| (buf.getD 1 0).setWidth 32
  if tmp ≤ 0x7fff#32 then tmp else -1#32 - (0xffff#32 - tmp)

/-- `unpack_32`. -/
def unpack32 (abi : Abi) (buf : List Byte) : CLong abi :=
  (buf.getD 0 0).setWidth _ <<< 24 ||| (buf.getD 1 0).setWidth _ <<< 16 |||
    (buf.getD 2 0).setWidth _ <<< 8 ||| (buf.getD 3 0).setWidth _

/-- `unpack_i32`. -/
def unpackI32 (abi : Abi) (buf : List Byte) : CLong abi :=
  let tmp : CLong abi := (buf.getD 0 0).setWidth _ <<< 24 ||| (buf.getD 1 0).setWidth _ <<< 16 |||
    (buf.getD 2 0).setWidth _ <<< 8 ||| (buf.getD 3 0).setWidth _
  if tmp ≤ 0x7fffffff#_ then tmp else -1#_ - (0xffffffff#_ - tmp)

/-! ### `baa_pack` -/

/-- The state of the format loop of `baa_pack`: the buffer, the cursor, the count, and the arguments
that are left. -/
structure PackState (abi : Abi) where
  buf : List Byte
  pos : ℕ
  size : CLong abi
  ap : List (CLong abi)

/-- One turn of the format loop of `baa_pack`; a character that is no conversion is passed over. It
is `none` where the code would write behind the buffer, or fetch an argument that was not passed. -/
def packConv (ch : Char) (st : PackState abi) : Option (PackState abi) :=
  match ch with
  | 'c' => do
    let (x, ap) ← vaArg st.ap
    let c : BitVec 8 := (vaInt x).setWidth 8
    let buf ← Block.store st.buf st.pos [c]
    some ⟨buf, st.pos + 1, st.size + 1#_, ap⟩
  | 'C' => do
    let (x, ap) ← vaArg st.ap
    let C : BitVec 8 := (vaInt x).setWidth 8
    let buf ← Block.store st.buf st.pos [C]
    some ⟨buf, st.pos + 1, st.size + 1#_, ap⟩
  | 's' => do
    let (x, ap) ← vaArg st.ap
    let s : BitVec 16 := (vaInt x).setWidth 16
    let buf ← Block.store st.buf st.pos (pack16 (s.setWidth 32))
    some ⟨buf, st.pos + 2, st.size + 2#_, ap⟩
  | 'S' => do
    let (x, ap) ← vaArg st.ap
    let S : BitVec 16 := (vaInt x).setWidth 16
    let buf ← Block.store st.buf st.pos (pack16 (S.signExtend 32))
    some ⟨buf, st.pos + 2, st.size + 2#_, ap⟩
  | 'l' => do
    let (l, ap) ← vaArg st.ap
    let buf ← Block.store st.buf st.pos (pack32 l)
    some ⟨buf, st.pos + 4, st.size + 4#_, ap⟩
  | 'L' => do
    let (L, ap) ← vaArg st.ap
    let buf ← Block.store st.buf st.pos (pack32 L)
    some ⟨buf, st.pos + 4, st.size + 4#_, ap⟩
  | _ => some st

/-- The format loop of `baa_pack`. -/
def packLoop : List Char → PackState abi → Option (PackState abi)
  | [], st => some st
  | ch :: fmt, st => (packConv ch st).bind (packLoop fmt)

/-- `baa_pack`: the buffer afterwards and the `int` returned. The arguments are slots, as `va_arg`
finds them. -/
def baaPack (abi : Abi) (buf : List Byte) (fmt : List Char) (ap : List (CLong abi)) :
    Option (List Byte × CInt) :=
  (packLoop fmt ⟨buf, 0, 0#_, ap⟩).map fun st => (st.buf, st.size.setWidth 32)

/-! ### `baa_unpack` -/

/-- A value together with the type of the pointer it is stored through, which decides how many bytes
are written. -/
inductive Value (abi : Abi)
  | uchar (v : BitVec 8)
  | schar (v : BitVec 8)
  | ushort (v : BitVec 16)
  | sshort (v : BitVec 16)
  | ulong (v : CLong abi)
  | slong (v : CLong abi)
  deriving DecidableEq

/-- The integer a stored object holds. -/
def Value.toInt : Value abi → ℤ
  | uchar v => v.toNat
  | schar v => v.toInt
  | ushort v => v.toNat
  | sshort v => v.toInt
  | ulong v => v.toNat
  | slong v => v.toInt

/-- The state of the format loop of `baa_unpack`: the cursor, the counter, the rest of the
pointers and the stores made so far. -/
structure UnpackState (abi : Abi) (P : Type) where
  pos : ℕ
  size : CLong abi
  ap : List P
  stores : List (P × Value abi)

variable {P : Type}

/-- Read `n` bytes at the cursor: the bytes from there on, `none` outside the buffer. -/
def readAt (buf : List Byte) (pos n : ℕ) : Option (List Byte) :=
  if pos + n ≤ buf.length then some (buf.drop pos) else none

/-- One turn of the format loop of `baa_unpack`. -/
def unpackConv (buf : List Byte) (ch : Char) (st : UnpackState abi P) :
    Option (UnpackState abi P) :=
  match ch with
  | 'c' => do
    let (c, ap) ← vaArg st.ap
    let bs ← readAt buf st.pos 1
    some ⟨st.pos + 1, st.size + 1#_, ap, st.stores ++ [(c, .uchar (bs.getD 0 0))]⟩
  | 'C' => do
    let (C, ap) ← vaArg st.ap
    let bs ← readAt buf st.pos 1
    some ⟨st.pos + 1, st.size + 1#_, ap, st.stores ++ [(C, .schar (unpackI8 bs))]⟩
  | 's' => do
    let (s, ap) ← vaArg st.ap
    let bs ← readAt buf st.pos 2
    some ⟨st.pos + 2, st.size + 2#_, ap,
      st.stores ++ [(s, .ushort ((unpack16 bs).setWidth 16))]⟩
  | 'S' => do
    let (S, ap) ← vaArg st.ap
    let bs ← readAt buf st.pos 2
    some ⟨st.pos + 2, st.size + 2#_, ap,
      st.stores ++ [(S, .sshort ((unpackI16 bs).setWidth 16))]⟩
  | 'l' => do
    let (l, ap) ← vaArg st.ap
    let bs ← readAt buf st.pos 4
    some ⟨st.pos + 4, st.size + 4#_, ap, st.stores ++ [(l, .ulong (unpack32 abi bs))]⟩
  | 'L' => do
    let (L, ap) ← vaArg st.ap
    let bs ← readAt buf st.pos 4
    some ⟨st.pos + 4, st.size + 4#_, ap, st.stores ++ [(L, .slong (unpackI32 abi bs))]⟩
  | _ => some st

/-- The format loop of `baa_unpack`. -/
def unpackLoop (buf : List Byte) : List Char → UnpackState abi P → Option (UnpackState abi P)
  | [], st => some st
  | ch :: fmt, st => (unpackConv buf ch st).bind (unpackLoop buf fmt)

/-- `baa_unpack`: the stores it makes, in order, and the `int` returned. The pointers are of any
kind, so that the caller may say where they point. -/
def baaUnpack (abi : Abi) (buf : List Byte) (fmt : List Char) (ap : List P) :
    Option (List (P × Value abi) × CInt) :=
  (unpackLoop buf fmt ⟨0, 0#_, ap, []⟩).map fun st => (st.stores, st.size.setWidth 32)

end Libbaalue
