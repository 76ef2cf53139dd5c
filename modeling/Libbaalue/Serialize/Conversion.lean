import Libbaalue.Foundations.RecordCodec
import Libbaalue.Serialize.Basic
import Mathlib.Data.BitVec
import Mathlib.Data.Int.Bitwise

/-!
# The conversions of a format

What the six conversion characters mean, apart from the loops that interpret them. A
conversion is a field codec (`Conv.codec`): it packs the low bits of its argument, most
significant byte first, and unpacks them into an object of its own type. `Conv.reduce` states
the law in integers: an argument comes back reduced modulo `2 ^ 8`, `2 ^ 16` or `2 ^ 32`, into
the unsigned range for the lower-case conversions and into the two's complement range for the
upper-case ones (`Conv.toInt_norm`), hence unchanged when it was in range
(`Conv.reduce_of_inRange`).

Each width has one lemma about joining the bytes that were cut, and one about the sign trick that
follows it; both are facts about bit vectors and depend on the width of `long` only where a value is
widened. `Conv.codec` puts them together and is all that the loops use, so that a conversion that is
added to the format language is added here.
-/

namespace Libbaalue

variable {abi : Abi}

/-- The conversions of `baa_pack` and `baa_unpack`: capital letters are the signed ones, and the
widths are one, two and four bytes. -/
inductive Conv
  | c
  | C
  | s
  | S
  | l
  | L
  deriving DecidableEq, Repr

namespace Conv

/-- The conversion a format character selects. -/
def ofChar? : Char → Option Conv
  | 'c' => some c
  | 'C' => some C
  | 's' => some s
  | 'S' => some S
  | 'l' => some l
  | 'L' => some L
  | _ => none

/-- The format character of a conversion. -/
def char : Conv → Char
  | c => 'c'
  | C => 'C'
  | s => 's'
  | S => 'S'
  | l => 'l'
  | L => 'L'

@[simp]
theorem ofChar?_char (k : Conv) : ofChar? k.char = some k := by
  cases k <;> rfl

/-- Each conversion is selected by its own character only. -/
theorem char_of_ofChar? {ch : Char} {k : Conv} (h : ofChar? ch = some k) : ch = k.char := by
  unfold ofChar? at h
  split at h <;> cases h <;> rfl

/-- The bytes of a conversion. -/
def width : Conv → ℕ
  | c | C => 1
  | s | S => 2
  | l | L => 4

/-- The integer `va_arg` fetches at the argument type of the conversion: `unsigned int` for
`c` and `s`, `int` for `C` and `S`, `unsigned long` for `l` and `long` for `L`. -/
def argument : Conv → CLong abi → ℤ
  | c, x | s, x => (vaInt x).toNat
  | C, x | S, x => (vaInt x).toInt
  | l, x => x.toNat
  | L, x => x.toInt

/-- Reduction into the range of the conversion: what is left of an integer that was packed and
unpacked. -/
def reduce : Conv → ℤ → ℤ
  | c, x => x % 2 ^ 8
  | C, x => x.bmod (2 ^ 8)
  | s, x => x % 2 ^ 16
  | S, x => x.bmod (2 ^ 16)
  | l, x => x % 2 ^ 32
  | L, x => x.bmod (2 ^ 32)

/-- The range of the conversion. -/
def InRange : Conv → ℤ → Prop
  | c, x => 0 ≤ x ∧ x < 2 ^ 8
  | C, x => -2 ^ 7 ≤ x ∧ x < 2 ^ 7
  | s, x => 0 ≤ x ∧ x < 2 ^ 16
  | S, x => -2 ^ 15 ≤ x ∧ x < 2 ^ 15
  | l, x => 0 ≤ x ∧ x < 2 ^ 32
  | L, x => -2 ^ 31 ≤ x ∧ x < 2 ^ 31

/-- Reduction leaves an integer of the range alone. -/
theorem reduce_of_inRange {k : Conv} {x : ℤ} (h : k.InRange x) : k.reduce x = x := by
  cases k <;> simp only [InRange] at h <;> simp only [reduce]
  case c | s | l => exact Int.emod_eq_of_lt h.1 h.2
  case C | S | L => exact Int.bmod_eq_of_le (by omega) (by omega)

/-- The bytes `baa_pack` stores for the conversion. -/
def pack : Conv → CLong abi → List Byte
  | c, x | C, x => [(vaInt x).setWidth 8]
  | s, x => pack16 (((vaInt x).setWidth 16).setWidth 32)
  | S, x => pack16 (((vaInt x).setWidth 16).signExtend 32)
  | l, x | L, x => pack32 x

/-- The object `baa_unpack` fills for the conversion from the bytes at its cursor. -/
def unpack : Conv → List Byte → Value abi
  | c, bs => .uchar (bs.getD 0 0)
  | C, bs => .schar (unpackI8 bs)
  | s, bs => .ushort ((unpack16 bs).setWidth 16)
  | S, bs => .sshort ((unpackI16 bs).setWidth 16)
  | l, bs => .ulong (unpack32 abi bs)
  | L, bs => .slong (unpackI32 abi bs)

/-- The object an argument comes back as: its low bits, extended to the object's width. -/
def norm : Conv → CLong abi → Value abi
  | c, x => .uchar ((vaInt x).setWidth 8)
  | C, x => .schar ((vaInt x).setWidth 8)
  | s, x => .ushort ((vaInt x).setWidth 16)
  | S, x => .sshort ((vaInt x).setWidth 16)
  | l, x => .ulong ((vaInt x).setWidth _)
  | L, x => .slong ((vaInt x).signExtend _)

end Conv

/-! ### Joining bytes -/

/-- The two bytes of `pack_16`, joined as `unpack_16` does. -/
private theorem join16 (i : CInt) :
    ((i >>> 8).setWidth 8 : Byte).setWidth 32 <<< 8 ||| (i.setWidth 8 : Byte).setWidth 32
      = (i.setWidth 16).setWidth 32 := by
  -- bit `k` is bit `k % 8` of its byte
  ext k hk
  simp only [BitVec.getElem_or, BitVec.getElem_shiftLeft, BitVec.getElem_setWidth,
    BitVec.getLsbD_setWidth, BitVec.getLsbD_ushiftRight]
  grind

/-- The four bytes of `pack_32`, joined as `unpack_32` does. -/
private theorem join32 {w : ℕ} (i : BitVec w) :
    ((i >>> 24).setWidth 8 : Byte).setWidth w <<< 24 |||
        ((i >>> 16).setWidth 8 : Byte).setWidth w <<< 16 |||
        ((i >>> 8).setWidth 8 : Byte).setWidth w <<< 8 ||| (i.setWidth 8 : Byte).setWidth w
      = (i.setWidth 32).setWidth w := by
  ext k hk
  simp only [BitVec.getElem_or, BitVec.getElem_shiftLeft, BitVec.getElem_setWidth,
    BitVec.getLsbD_setWidth, BitVec.getLsbD_ushiftRight]
  grind

/-- The bytes of a 32-bit value, widened to `long`. -/
theorem pack32_append (abi : Abi) (a b c d : Byte) :
    pack32 ((a ++ b ++ c ++ d : CInt).setWidth abi.longBits) = [a, b, c, d] := by
  have hlong := abi.le_longBits
  simp only [pack32, List.cons.injEq, and_true]
  refine ⟨?_, ?_, ?_, ?_⟩ <;> ext k hk <;>
    simp only [BitVec.getElem_setWidth, BitVec.getLsbD_ushiftRight, BitVec.getLsbD_setWidth,
      BitVec.getLsbD_append] <;>
    grind

/-- The sign trick of `unpack_i8`: the branches agree with reading the byte as signed. -/
private theorem unpackI8_cons (b : Byte) (rest : List Byte) : unpackI8 (b :: rest) = b := by
  simp only [unpackI8, List.getD_cons_zero]
  split_ifs with h <;> bv_omega

theorem unpack16_pack16 (i : CInt) (rest : List Byte) :
    unpack16 (pack16 i ++ rest) = (i.setWidth 16).setWidth 32 := by
  simpa [unpack16, pack16] using join16 i

/-- The sign trick of `unpack_i16`, up to the conversion to `signed short`. -/
private theorem setWidth_unpackI16_pack16 (i : CInt) (rest : List Byte) :
    (unpackI16 (pack16 i ++ rest)).setWidth 16 = i.setWidth 16 := by
  have hjoin := join16 i
  simp only [unpackI16, pack16, List.cons_append, List.nil_append, List.getD_cons_zero,
    List.getD_cons_succ, hjoin]
  split_ifs with h <;> bv_omega

theorem unpack32_pack32 (l : CLong abi) (rest : List Byte) :
    unpack32 abi (pack32 l ++ rest) = (vaInt l).setWidth _ := by
  simpa [unpack32, pack32, vaInt] using join32 l

/-- The test `tmp <= 0x7fffffffu` looks at the sign bit of the 32-bit value. -/
private theorem le_max31_iff {w : ℕ} (h : 32 ≤ w) (v : CInt) :
    v.setWidth w ≤ 0x7fffffff#w ↔ v.msb = false := by
  have hpow : 2 ^ 32 ≤ 2 ^ w := Nat.pow_le_pow_right (by omega) h
  rw [BitVec.le_def, BitVec.toNat_setWidth_of_le h, BitVec.toNat_ofNat,
    Nat.mod_eq_of_lt (by omega), BitVec.msb_eq_decide, decide_eq_false_iff_not]
  omega

/-- `0xffffffffu - tmp` is the complement of the 32-bit value. -/
private theorem max32_sub (w : ℕ) (v : CInt) : 0xffffffff#w - v.setWidth w = (~~~v).setWidth w := by
  have hones : 0xffffffff#w = (BitVec.allOnes 32).setWidth w :=
    BitVec.eq_of_toNat_eq (by rw [BitVec.toNat_ofNat, BitVec.toNat_setWidth, BitVec.toNat_allOnes])
  have hsum : (~~~v).setWidth w + v.setWidth w = 0xffffffff#w := by
    rw [hones, BitVec.add_eq_or_of_and_eq_zero] <;> ext k hk <;>
      simp only [BitVec.getElem_or, BitVec.getElem_and, BitVec.getElem_setWidth,
        BitVec.getLsbD_not, BitVec.getLsbD_allOnes, BitVec.getElem_zero] <;>
      grind
  rw [← hsum, BitVec.add_sub_cancel]

/-- The sign trick of `unpack_i32`: with either width of `long` it extends the sign of the
low 32 bits. -/
theorem unpackI32_pack32 (l : CLong abi) (rest : List Byte) :
    unpackI32 abi (pack32 l ++ rest) = (vaInt l).signExtend _ := by
  have hjoin := join32 l
  simp only [unpackI32, pack32, List.cons_append, List.nil_append, List.getD_cons_zero,
    List.getD_cons_succ, hjoin, vaInt]
  split_ifs with hle
  · rw [BitVec.signExtend_eq_setWidth_of_msb_false ((le_max31_iff abi.le_longBits _).mp hle)]
  -- the other branch computes `-1 - (0xffffffff - tmp)`, a complement of a complement
  · have hmsb : (l.setWidth 32).msb = true := by
      rw [← Bool.not_eq_false]
      exact fun hc => hle ((le_max31_iff abi.le_longBits _).mpr hc)
    rw [max32_sub, BitVec.neg_one_eq_allOnes, BitVec.allOnes_sub_eq_not,
      BitVec.signExtend_eq_not_setWidth_not_of_msb_true hmsb]

/-! ### The field codec of a conversion -/

/-- Widening a signed integer and converting it back keeps its bits. -/
theorem setWidth_signExtend_of_le {v w : ℕ} (h : v ≤ w) (x : BitVec v) :
    (x.signExtend w).setWidth v = x := by
  ext k hk
  simp only [BitVec.getElem_setWidth, BitVec.getLsbD_signExtend]
  grind

/-- **A conversion is a field codec**: packing and unpacking agree on widths and values. -/
def Conv.codec (abi : Abi) (k : Conv) : FieldCodec Byte (CLong abi) (Value abi) where
  width := k.width
  encode := k.pack
  decode := k.unpack
  norm := k.norm
  length_encode x := by cases k <;> rfl
  decode_encode x rest := by
    cases k with
    | c => rfl
    | C => exact congrArg Value.schar (unpackI8_cons _ _)
    | s => simp only [unpack, pack, norm, unpack16_pack16]; simp
    | S => rw [unpack, pack, norm, setWidth_unpackI16_pack16,
        setWidth_signExtend_of_le (by norm_num)]
    | l => exact congrArg Value.ulong (unpack32_pack32 _ _)
    | L => exact congrArg Value.slong (unpackI32_pack32 _ _)

/-- Reading fewer bits of a signed integer reduces it modulo the smaller power of two. -/
theorem toInt_setWidth_of_le {v w : ℕ} (h : v ≤ w) (x : BitVec w) :
    (x.setWidth v).toInt = x.toInt.bmod (2 ^ v) := by
  rw [BitVec.toInt_setWidth, BitVec.toInt_eq_toNat_bmod,
    Int.bmod_bmod_of_dvd (pow_dvd_pow 2 h)]

/-- The integer that comes back is the argument, reduced into the range of the conversion. -/
theorem Conv.toInt_norm (k : Conv) (x : CLong abi) :
    (k.norm x).toInt = k.reduce (k.argument x) := by
  have hlong := abi.le_longBits
  cases k with
  | c | s => simp [norm, Value.toInt, reduce, argument]
  | C | S => exact toInt_setWidth_of_le (by norm_num) _
  | l =>
    rw [norm, Value.toInt, reduce, argument, BitVec.toNat_setWidth_of_le hlong, vaInt,
      BitVec.toNat_setWidth]
    norm_cast
  | L =>
    rw [norm, Value.toInt, reduce, argument, BitVec.toInt_signExtend_of_le hlong, vaInt]
    exact toInt_setWidth_of_le hlong x

end Libbaalue
