import Libbaalue.Serialize.RoundTrip

/-!
# Encoding what was decoded

The values `baa_unpack` stored, passed to `baa_pack` again. An object narrower than `int` is
promoted, an `unsigned char` with zeros and a `signed char` with its sign, and fills the low half
of its slot (`Value.PassedAs`); packing looks at these 32 bits only, whatever the conversion.

`baaPack_of_baaUnpack` is the round trip over a whole format; the byte strings of the size of a
format and its lists of integers in range correspond one to one.

The way back is not the round trip of `RoundTrip` read from right to left. There an argument is an
arbitrary slot and comes back reduced; here the value is an object that was stored, and it has to be
passed through `...` again before it can be packed, which is where the promotions come in. That
nothing is lost is a property of a single field (`Conv.lossless`), and the library of records lifts
it to formats of any length, with the correspondence.
-/

namespace Libbaalue

open FieldCodec

variable {abi : Abi}

/-- The argument slot of a stored object. -/
def Value.slot (junk : CInt) : Value abi → CLong abi
  | uchar v => intSlot abi junk (v.setWidth 32)
  | schar v => intSlot abi junk (v.signExtend 32)
  | ushort v => intSlot abi junk (v.setWidth 32)
  | sshort v => intSlot abi junk (v.signExtend 32)
  | ulong v => v
  | slong v => v

/-- A stored object is passed as an argument, with whatever in the upper half of its slot. -/
def Value.PassedAs (v : Value abi) (x : CLong abi) : Prop := ∃ junk, x = v.slot junk

/-- The low half of a slot carries an integer. -/
def Carries (z : ℤ) (x : CLong abi) : Prop := vaInt x = BitVec.ofInt 32 z

/-- However an object is passed, the low half of its slot carries its integer. -/
private theorem Value.carries_of_passedAs {v : Value abi} {x : CLong abi} (h : v.PassedAs x) :
    Carries v.toInt x := by
  obtain ⟨junk, rfl⟩ := h
  have hlong : ∀ x : CLong abi, vaInt x = BitVec.ofInt 32 x.toInt := fun x => by
    rw [← BitVec.toInt_inj, vaInt, toInt_setWidth_of_le abi.le_longBits, BitVec.toInt_ofInt]
  have hzero : ∀ {n : ℕ} (v : BitVec n), v.setWidth 32 = BitVec.ofInt 32 v.toNat := fun v => by
    rw [BitVec.ofInt_natCast, BitVec.ofNat_toNat]
  cases v with
  | uchar v | ushort v => exact (vaInt_intSlot abi junk _).trans (hzero v)
  | schar v | sshort v => exact vaInt_intSlot abi junk _
  | ulong v => exact hzero v
  | slong v => exact hlong v

/-! ### The bytes of an argument -/

/-- The two bytes `pack_16` stores of two bytes joined, however the sign is extended. -/
private theorem pack16_append (i : CInt) (b b' : Byte) (h : i.setWidth 16 = b ++ b') :
    pack16 i = [b, b'] := by
  have hbit : ∀ k (hk : k < 16), i.getLsbD k = (b ++ b').getLsbD k := fun k hk => by
    rw [← h, BitVec.getLsbD_setWidth]
    simp [hk]
  have hhigh : ((i >>> 8).setWidth 8 : Byte) = b := by
    ext k hk
    rw [BitVec.getElem_setWidth, BitVec.getLsbD_ushiftRight, hbit (8 + k) (by omega),
      BitVec.getLsbD_append, if_neg (by omega), Nat.add_sub_cancel_left, BitVec.getLsbD_eq_getElem]
  have hlow : (i.setWidth 8 : Byte) = b' := by
    ext k hk
    rw [BitVec.getElem_setWidth, hbit k (by omega), BitVec.getLsbD_append, if_pos hk,
      BitVec.getLsbD_eq_getElem]
  rw [pack16, hhigh, hlow]

/-- Packing looks at the low half of a slot only. -/
private theorem Conv.pack_congr (k : Conv) {x y : CLong abi} (h : vaInt x = vaInt y) :
    k.pack x = k.pack y := by
  have hlong : pack32 x = pack32 y := by
    have hbyte : ∀ n ≤ 24, ((x >>> n).setWidth 8 : Byte) = (y >>> n).setWidth 8 := by
      intro n hn
      ext k hk
      have hbit := congrArg (BitVec.getLsbD · (n + k)) h
      simp only [vaInt, BitVec.getLsbD_setWidth] at hbit
      simp only [BitVec.getElem_setWidth, BitVec.getLsbD_ushiftRight]
      grind
    have hlow : (x.setWidth 8 : Byte) = y.setWidth 8 := by simpa using hbyte 0 (by omega)
    rw [pack32, pack32, hbyte 24 le_rfl, hbyte 16 (by omega), hbyte 8 (by omega), hlow]
  cases k with
  | c | C | s | S => rw [pack, pack, h]
  | l | L => exact hlong

/-! ### Fields of integers -/

/-- The field of a conversion, its values read as integers. -/
def Conv.intCodec (abi : Abi) (k : Conv) : FieldCodec Byte (CLong abi) ℤ :=
  (k.codec abi).map Value.toInt

private theorem setWidth_ofInt_of_le {v w : ℕ} (h : v ≤ w) (z : ℤ) :
    (BitVec.ofInt w z).setWidth v = BitVec.ofInt v z := by
  rw [← BitVec.toInt_inj, toInt_setWidth_of_le h, BitVec.toInt_ofInt, BitVec.toInt_ofInt,
    Int.bmod_bmod_of_dvd (pow_dvd_pow 2 h)]

/-- Every integer is carried by a slot. -/
theorem exists_carries (abi : Abi) (z : ℤ) : ∃ x : CLong abi, Carries z x :=
  ⟨intSlot abi 0 (BitVec.ofInt 32 z), vaInt_intSlot abi 0 _⟩

/-- The integer a slot comes back as is the one it carries, reduced. -/
private theorem Conv.toInt_norm_of_carries (k : Conv) {z : ℤ} {x : CLong abi} (h : Carries z x) :
    (k.norm x).toInt = k.reduce z := by
  have hnat : ∀ n, ((BitVec.ofInt n z).toNat : ℤ) = z % 2 ^ n := fun n => by
    rw [BitVec.toNat_ofInt, Int.toNat_of_nonneg (Int.emod_nonneg _ (by positivity))]
    norm_cast
  rw [Carries] at h
  cases k with
  | c | s => rw [norm, h, Value.toInt, setWidth_ofInt_of_le (by decide), hnat, reduce]
  | C | S =>
    rw [norm, h, Value.toInt, setWidth_ofInt_of_le (by decide), BitVec.toInt_ofInt, reduce]
  | l => rw [norm, h, Value.toInt, BitVec.toNat_setWidth_of_le abi.le_longBits, hnat, reduce]
  | L =>
    rw [norm, h, Value.toInt, BitVec.toInt_signExtend_of_le abi.le_longBits, BitVec.toInt_ofInt,
      reduce]

/-- What is reduced is in range. -/
private theorem Conv.inRange_reduce (k : Conv) (z : ℤ) : k.InRange (k.reduce z) := by
  cases k with
  | c | s | l =>
    exact ⟨Int.emod_nonneg _ (by norm_num), Int.emod_lt_of_pos _ (by norm_num)⟩
  | C | S | L => exact ⟨Int.le_bmod (by norm_num), Int.bmod_lt (by norm_num)⟩

/-- The integers that come back are those in range. -/
private theorem Conv.mem_range_norm_iff (k : Conv) (z : ℤ) :
    z ∈ Set.range (k.intCodec abi).norm ↔ k.InRange z := by
  constructor
  · rintro ⟨x, rfl⟩
    change k.InRange (k.norm x).toInt
    rw [k.toInt_norm]
    exact k.inRange_reduce _
  · intro hz
    obtain ⟨x, hx⟩ := exists_carries abi z
    exact ⟨x, (k.toInt_norm_of_carries hx).trans (Conv.reduce_of_inRange hz)⟩

/-- Any bytes are packed by some argument. -/
theorem Conv.exists_pack (k : Conv) {bs : List Byte} (h : bs.length = k.width) :
    ∃ x : CLong abi, k.pack x = bs := by
  cases k with
  | c | C =>
    obtain ⟨b, rfl⟩ := List.length_eq_one_iff.mp h
    exact ⟨intSlot abi 0 (b.setWidth 32), by rw [pack, vaInt_intSlot]; simp⟩
  | s =>
    obtain ⟨b, b', rfl⟩ := List.length_eq_two.mp h
    refine ⟨intSlot abi 0 ((b ++ b').setWidth 32), ?_⟩
    rw [pack, vaInt_intSlot]
    exact pack16_append _ b b' (by simp)
  | S =>
    obtain ⟨b, b', rfl⟩ := List.length_eq_two.mp h
    refine ⟨intSlot abi 0 ((b ++ b').setWidth 32), ?_⟩
    rw [pack, vaInt_intSlot]
    refine pack16_append _ b b' ?_
    rw [setWidth_signExtend_of_le (by norm_num)]
    simp
  | l | L =>
    match bs, h with
    | [b₃, b₂, b₁, b₀], _ => exact ⟨_, pack32_append abi b₃ b₂ b₁ b₀⟩

/-- The integer of a field, passed again, is packed as the argument it came from. -/
private theorem Conv.pack_of_carries_norm (k : Conv) {x x' : CLong abi}
    (h : Carries (k.norm x).toInt x') : k.pack x' = k.pack x := by
  have hlow : ∀ {n : ℕ}, n ≤ 32 → (vaInt x').setWidth n = BitVec.ofInt n (k.norm x).toInt :=
    fun hn => by rw [h, setWidth_ofInt_of_le hn]
  have hnat : ∀ {n : ℕ} (v : BitVec n), BitVec.ofInt n v.toNat = v := fun v => by
    rw [BitVec.ofInt_natCast, BitVec.ofNat_toNat, BitVec.setWidth_eq]
  cases k with
  | c =>
    have hbyte : (vaInt x').setWidth 8 = (vaInt x).setWidth 8 := (hlow (by decide)).trans (hnat _)
    rw [pack, pack, hbyte]
  | C =>
    have hbyte : (vaInt x').setWidth 8 = (vaInt x).setWidth 8 :=
      (hlow (by decide)).trans BitVec.ofInt_toInt
    rw [pack, pack, hbyte]
  | s =>
    have hshort : (vaInt x').setWidth 16 = (vaInt x).setWidth 16 :=
      (hlow (by decide)).trans (hnat _)
    rw [pack, pack, hshort]
  | S =>
    have hshort : (vaInt x').setWidth 16 = (vaInt x).setWidth 16 :=
      (hlow (by decide)).trans BitVec.ofInt_toInt
    rw [pack, pack, hshort]
  | l =>
    refine pack_congr _ (h.trans ?_)
    rw [norm, Value.toInt, BitVec.toNat_setWidth_of_le abi.le_longBits, hnat]
  | L =>
    refine pack_congr _ (h.trans ?_)
    rw [norm, Value.toInt, BitVec.toInt_signExtend_of_le abi.le_longBits, BitVec.ofInt_toInt]

/-- **The conversions lose nothing**: what was read, passed back, is packed into the bytes it was
read from. -/
theorem Conv.lossless (k : Conv) : Lossless Carries (k.intCodec abi) where
  exists_encode _ h := k.exists_pack h
  exists_passed _ := exists_carries abi _
  encode_passed h := k.pack_of_carries_norm h

/-! ### The round trip -/

/-- The record of a format, its values read as integers. -/
def intFields (abi : Abi) (fmt : List Char) : List (FieldCodec Byte (CLong abi) ℤ) :=
  (fields abi fmt).map (FieldCodec.map Value.toInt)

theorem lossless_intFields (fmt : List Char) : ∀ f ∈ intFields abi fmt, Lossless Carries f := by
  intro f hf
  rw [intFields, fields, List.map_map] at hf
  obtain ⟨k, -, rfl⟩ := List.mem_map.mp hf
  exact k.lossless

private theorem recordWidth_intFields (fmt : List Char) :
    recordWidth (intFields abi fmt) = formatSize fmt := by
  rw [intFields, recordWidth_map, recordWidth_fields]

/-- The normal forms of a format are the lists of integers in range. -/
theorem isNormal_intFields_iff (fmt : List Char) (zs : List ℤ) :
    IsNormal (intFields abi fmt) zs ↔ List.Forall₂ Conv.InRange (conversions fmt) zs := by
  rw [IsNormal, intFields, fields, List.map_map, List.forall₂_map_left_iff]
  have hrange : (fun (k : Conv) (z : ℤ) => z ∈ Set.range (k.intCodec abi).norm) = Conv.InRange := by
    funext k z
    exact propext (k.mem_range_norm_iff z)
  exact iff_of_eq (congrArg (fun R => List.Forall₂ R (conversions fmt) zs) hrange)

/-- The integers `baa_unpack` stores from a buffer. -/
def storedInts (abi : Abi) (fmt : List Char) (buf : List Byte) : List ℤ :=
  match baaUnpack abi buf fmt (List.replicate (conversions fmt).length ()) with
  | none => []
  | some (stores, _) => stores.map fun store => store.2.toInt

private theorem storedInts_eq {fmt : List Char} {buf : List Byte}
    (h : formatSize fmt ≤ buf.length) :
    storedInts abi fmt buf = decodeRecord (intFields abi fmt) buf := by
  have hlen : (List.replicate (conversions fmt).length ()).length =
      (decodeRecord (fields abi fmt) buf).length := by simp
  rw [storedInts, baaUnpack_eq fmt buf _ List.length_replicate h]
  change ((List.replicate _ ()).zip _).map (Value.toInt ∘ Prod.snd) = _
  rw [← List.map_map, List.map_snd_zip hlen.ge, intFields, decodeRecord_map]

variable {P : Type}

/-- **Encode after decode, whole format.** The values `baa_unpack` stored from a buffer of the
size of the format, passed to `baa_pack`, give the buffer again, byte for byte, and both calls
return the same count; the byte strings of that size and the lists of integers in range
correspond one to one. -/
theorem baaPack_of_baaUnpack (abi : Abi) (fmt : List Char) :
    (∀ (buf : List Byte) (ptrs : List P), buf.length = formatSize fmt →
      ptrs.length = (conversions fmt).length →
      ∃ (vals : List (Value abi)) (n : CInt),
        baaUnpack abi buf fmt ptrs = some (ptrs.zip vals, n) ∧
        vals.length = (conversions fmt).length ∧
        ∀ (out : List Byte) (args : List (CLong abi)), formatSize fmt ≤ out.length →
          List.Forall₂ Value.PassedAs vals args →
          baaPack abi out fmt args = some (buf ++ out.drop (formatSize fmt), n)) ∧
      Set.BijOn (storedInts abi fmt) {buf | buf.length = formatSize fmt}
        {zs | List.Forall₂ Conv.InRange (conversions fmt) zs} := by
  constructor
  · intro buf ptrs hbuf hptrs
    refine ⟨decodeRecord (fields abi fmt) buf, _, baaUnpack_eq fmt buf ptrs hptrs hbuf.ge,
      by simp, fun out args hout hpassed => ?_⟩
    have hargs : args.length = (conversions fmt).length := by
      rw [← hpassed.length_eq, length_decodeRecord, length_fields]
    have hcarries : List.Forall₂ Carries (decodeRecord (intFields abi fmt) buf) args := by
      rw [intFields, decodeRecord_map, List.forall₂_map_left_iff]
      exact hpassed.imp fun v x => Value.carries_of_passedAs
    have hencode : encodeRecord (intFields abi fmt) args = buf :=
      encodeRecord_of_decodeRecord (lossless_intFields fmt)
        (hbuf.trans (recordWidth_intFields fmt).symm) hcarries
    rw [intFields, encodeRecord_map] at hencode
    rw [baaPack_eq fmt out args hargs hout, hencode]
  · have hlossless : ∀ f ∈ intFields abi fmt, Lossless Carries f := lossless_intFields fmt
    have hbij := bijOn_decodeRecord hlossless
    simp only [recordWidth_intFields, isNormal_intFields_iff] at hbij
    exact hbij.congr fun buf hbuf => (storedInts_eq (le_of_eq hbuf.symm)).symm

/-- The most negative values. -/
example : storedInts .lp64 ['C', 'S', 'L'] [128, 128, 0, 128, 0, 0, 0] =
    [-2 ^ 7, -2 ^ 15, -2 ^ 31] := by
  decide

end Libbaalue
