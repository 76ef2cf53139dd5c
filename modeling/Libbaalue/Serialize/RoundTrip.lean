import Libbaalue.Serialize.Conversion

/-!
# Packing and unpacking a whole format

The two format loops compute the record codec of the format's conversions: `packLoop_eq` says
what `baa_pack` writes (the encoded record at the cursor, nothing else) and how its cursor,
counter and argument list advance, `unpackLoop_eq` the same of `baa_unpack`. Unknown characters
are transparent on both sides (`packConv_unknown`, `unpackConv_unknown`).

`baaUnpack_baaPack` is the round trip over a whole format, for either width of `long`.

Both loops are followed with their cursor, counter and argument list generalised, by induction on
the format, and one turn is one lemma, for a conversion and for an unknown character. The statement
about the whole call is then a fact about records, where no buffer and no cursor is left. A buffer
that is too short is not an error in C but an access outside of it; here it is `none`, and the
lemmas assume the room that the caller has to provide.
-/

namespace Libbaalue

open FieldCodec

variable {abi : Abi}

/-- The conversions of a format, in order. -/
def conversions (fmt : List Char) : List Conv := fmt.filterMap Conv.ofChar?

/-- The number of bytes a format packs. -/
def formatSize (fmt : List Char) : ℕ := ((conversions fmt).map Conv.width).sum

/-- The record of a format. -/
def fields (abi : Abi) (fmt : List Char) : List (FieldCodec Byte (CLong abi) (Value abi)) :=
  (conversions fmt).map (Conv.codec abi)

@[simp]
theorem length_fields (fmt : List Char) : (fields abi fmt).length = (conversions fmt).length := by
  simp [fields]

theorem recordWidth_fields (fmt : List Char) :
    recordWidth (fields abi fmt) = formatSize fmt := by
  unfold fields formatSize
  induction conversions fmt with
  | nil => rfl
  | cons k ks ih =>
    rw [List.map_cons, recordWidth_cons, ih, List.map_cons, List.sum_cons]
    rfl

/-- An unknown character selects nothing. -/
private theorem conversions_cons_unknown {ch : Char} (h : Conv.ofChar? ch = none)
    (fmt : List Char) :
    conversions (ch :: fmt) = conversions fmt :=
  List.filterMap_cons_none h

private theorem conversions_cons {ch : Char} {k : Conv} (h : Conv.ofChar? ch = some k)
    (fmt : List Char) :
    conversions (ch :: fmt) = k :: conversions fmt :=
  List.filterMap_cons_some h

/-! ### The loop of `baa_pack` -/

/-- An unknown character leaves the state of `baa_pack` alone. -/
theorem packConv_unknown {ch : Char} (h : Conv.ofChar? ch = none) (st : PackState abi) :
    packConv ch st = some st := by
  unfold packConv
  split <;> first | rfl | simp [Conv.ofChar?] at h

/-- One turn of `baa_pack` on a conversion: the field goes in front of what is left. -/
theorem packConv_char (k : Conv) (done rest : List Byte) (size x : CLong abi)
    (ap : List (CLong abi)) (hfit : k.width ≤ rest.length) :
    packConv k.char ⟨done ++ rest, done.length, size, x :: ap⟩ =
      some ⟨done ++ k.pack x ++ rest.drop k.width, done.length + k.width,
        size + BitVec.ofNat _ k.width, ap⟩ := by
  have hlen : (k.pack x).length = k.width := (k.codec abi).length_encode x
  have hstore : Block.store (done ++ rest) done.length (k.pack x) =
      some (done ++ k.pack x ++ rest.drop k.width) := by
    rw [Block.store_cursor _ _ _ (hlen ▸ hfit), hlen]
  cases k <;> exact congrArg (Option.bind · _) hstore

/-- **What `baa_pack` writes.** The loop lays down the record of the format at the cursor,
keeps every other byte, and advances cursor, counter and argument list by the record. -/
theorem packLoop_eq (fmt : List Char) (done rest : List Byte) (size : CLong abi)
    (args more : List (CLong abi)) (hargs : args.length = (conversions fmt).length)
    (hfit : formatSize fmt ≤ rest.length) :
    packLoop fmt ⟨done ++ rest, done.length, size, args ++ more⟩ =
      some ⟨done ++ encodeRecord (fields abi fmt) args ++ rest.drop (formatSize fmt),
        done.length + formatSize fmt, size + BitVec.ofNat _ (formatSize fmt), more⟩ := by
  -- the cursor stands between the bytes that are done and the rest
  induction fmt generalizing done rest size args with
  | nil =>
    obtain rfl : args = [] := List.eq_nil_of_length_eq_zero hargs
    simp [packLoop, formatSize, conversions, encodeRecord, fields]
  | cons ch fmt ih =>
    rw [packLoop]
    cases hch : Conv.ofChar? ch with
    | none =>
      simp only [formatSize, fields, conversions_cons_unknown hch] at hargs hfit ⊢
      rw [packConv_unknown hch, Option.bind_some]
      exact ih done rest size args hargs hfit
    | some k =>
      obtain rfl := Conv.char_of_ofChar? hch
      simp only [formatSize, fields, conversions_cons hch, List.map_cons, List.sum_cons] at *
      obtain ⟨x, args, rfl⟩ := List.exists_cons_of_length_eq_add_one hargs
      have hlen : (k.pack x).length = k.width := (k.codec abi).length_encode x
      have hpos : done.length + k.width = (done ++ k.pack x).length := by simp [hlen]
      rw [List.cons_append, packConv_char k _ _ _ _ _ (by omega), Option.bind_some, hpos,
        ih _ _ _ args (by simpa using hargs) (by simp; omega), encodeRecord]
      simp [Conv.codec, hlen, List.append_assoc, List.drop_drop, BitVec.ofNat_add,
        BitVec.add_assoc, Nat.add_assoc]

/-! ### The loop of `baa_unpack` -/

variable {P : Type}

/-- An unknown character leaves the state of `baa_unpack` alone. -/
theorem unpackConv_unknown {ch : Char} (h : Conv.ofChar? ch = none) (buf : List Byte)
    (st : UnpackState abi P) : unpackConv buf ch st = some st := by
  unfold unpackConv
  split <;> first | rfl | simp [Conv.ofChar?] at h

/-- One turn of `baa_unpack` on a conversion: one value is stored through the next pointer. -/
theorem unpackConv_char (k : Conv) (buf : List Byte) (pos : ℕ) (size : CLong abi) (p : P)
    (ap : List P) (stores : List (P × Value abi)) (hfit : pos + k.width ≤ buf.length) :
    unpackConv buf k.char ⟨pos, size, p :: ap, stores⟩ =
      some ⟨pos + k.width, size + BitVec.ofNat _ k.width, ap,
        stores ++ [(p, k.unpack (buf.drop pos))]⟩ := by
  have hread : readAt buf pos k.width = some (buf.drop pos) := if_pos hfit
  cases k <;> exact congrArg (Option.bind · _) hread

/-- **What `baa_unpack` stores.** The loop reads the record of the format at the cursor, stores
its values through the pointers in order, and advances cursor, counter and argument list. -/
theorem unpackLoop_eq (buf : List Byte) (fmt : List Char) (pos : ℕ) (size : CLong abi)
    (ptrs more : List P) (stores : List (P × Value abi))
    (hptrs : ptrs.length = (conversions fmt).length)
    (hfit : pos + formatSize fmt ≤ buf.length) :
    unpackLoop buf fmt ⟨pos, size, ptrs ++ more, stores⟩ =
      some ⟨pos + formatSize fmt, size + BitVec.ofNat _ (formatSize fmt), more,
        stores ++ ptrs.zip (decodeRecord (fields abi fmt) (buf.drop pos))⟩ := by
  -- the buffer does not change, so the cursor is enough
  induction fmt generalizing pos size ptrs stores with
  | nil =>
    obtain rfl : ptrs = [] := List.eq_nil_of_length_eq_zero hptrs
    simp [unpackLoop, formatSize, conversions]
  | cons ch fmt ih =>
    rw [unpackLoop]
    cases hch : Conv.ofChar? ch with
    | none =>
      simp only [formatSize, fields, conversions_cons_unknown hch] at hptrs hfit ⊢
      rw [unpackConv_unknown hch, Option.bind_some]
      exact ih pos size ptrs stores hptrs hfit
    | some k =>
      obtain rfl := Conv.char_of_ofChar? hch
      simp only [formatSize, fields, conversions_cons hch, List.map_cons, List.sum_cons] at *
      obtain ⟨p, ptrs, rfl⟩ := List.exists_cons_of_length_eq_add_one hptrs
      rw [List.cons_append, unpackConv_char k _ _ _ _ _ _ (by omega), Option.bind_some,
        ih _ _ ptrs _ (by simpa using hptrs) (by omega), decodeRecord]
      simp [Conv.codec, List.drop_drop, BitVec.ofNat_add, BitVec.add_assoc, Nat.add_assoc]

/-! ### The round trip -/

theorem baaPack_eq (fmt : List Char) (buf : List Byte) (args : List (CLong abi))
    (hargs : args.length = (conversions fmt).length) (hbuf : formatSize fmt ≤ buf.length) :
    baaPack abi buf fmt args =
      some (encodeRecord (fields abi fmt) args ++ buf.drop (formatSize fmt),
        (BitVec.ofNat abi.longBits (formatSize fmt)).setWidth 32) := by
  have h := packLoop_eq fmt [] buf 0#_ args [] hargs hbuf
  simp only [List.nil_append, List.append_nil, List.length_nil, Nat.zero_add] at h
  rw [baaPack, h, Option.map_some, BitVec.zero_add]

theorem baaUnpack_eq (fmt : List Char) (buf : List Byte) (ptrs : List P)
    (hptrs : ptrs.length = (conversions fmt).length) (hbuf : formatSize fmt ≤ buf.length) :
    baaUnpack abi buf fmt ptrs =
      some (ptrs.zip (decodeRecord (fields abi fmt) buf),
        (BitVec.ofNat abi.longBits (formatSize fmt)).setWidth 32) := by
  have h := unpackLoop_eq buf fmt 0 (0#_ : CLong abi) ptrs [] [] hptrs (by omega)
  simp only [List.nil_append, List.append_nil, List.drop_zero, Nat.zero_add] at h
  rw [baaUnpack, h, Option.map_some, BitVec.zero_add]

/-- **Decode after encode, whole format.** Unpacking the buffer that `baa_pack` filled stores,
for every conversion in order, the argument reduced into the range of the conversion, hence the
argument itself when it was in range; both calls return the same byte count. -/
theorem baaUnpack_baaPack (abi : Abi) (fmt : List Char) (args : List (CLong abi))
    (buf : List Byte) (ptrs : List P) (hargs : args.length = (conversions fmt).length)
    (hptrs : ptrs.length = (conversions fmt).length) (hbuf : formatSize fmt ≤ buf.length) :
    ∃ (filled : List Byte) (n : CInt) (vals : List (Value abi)),
      baaPack abi buf fmt args = some (filled, n) ∧
      baaUnpack abi filled fmt ptrs = some (ptrs.zip vals, n) ∧
      vals.length = (conversions fmt).length ∧
      ∀ (i : ℕ) (k : Conv) (x : CLong abi) (v : Value abi),
        (conversions fmt)[i]? = some k → args[i]? = some x → vals[i]? = some v →
          v.toInt = k.reduce (k.argument x) ∧
            (k.InRange (k.argument x) → v.toInt = k.argument x) := by
  have hlen : (encodeRecord (fields abi fmt) args).length = formatSize fmt := by
    rw [length_encodeRecord (by simpa using hargs), recordWidth_fields]
  refine ⟨_, _, List.zipWith norm (fields abi fmt) args, baaPack_eq fmt buf args hargs hbuf, ?_,
    by simp [hargs], fun i k x v hk hx hv => ?_⟩
  · rw [baaUnpack_eq fmt _ ptrs hptrs (by simp [hlen]),
      decodeRecord_encodeRecord (by simpa using hargs)]
  · have hv' : v = k.norm x := by
      rw [fields, List.getElem?_zipWith, List.getElem?_map, hk, hx] at hv
      exact (Option.some.inj hv).symm
    have hred : v.toInt = k.reduce (k.argument x) := hv' ▸ k.toInt_norm x
    exact ⟨hred, fun hin => hred.trans (Conv.reduce_of_inRange hin)⟩

/-- The round trip of `"cS?L"` on LP64 with arguments out of range and negative. -/
theorem baaUnpack_baaPack_cSL :
    ∃ (filled : List Byte) (n : CInt) (vals : List (Value .lp64)),
      baaPack .lp64 (List.replicate 7 0) ['c', 'S', '?', 'L'] [300, -40000, -5] =
        some (filled, n) ∧
      baaUnpack .lp64 filled ['c', 'S', '?', 'L'] [0, 1, 2] = some ([0, 1, 2].zip vals, n) ∧
      vals.length = 3 ∧
      ∀ (i : ℕ) (k : Conv) (x : CLong .lp64) (v : Value .lp64),
        [Conv.c, Conv.S, Conv.L][i]? = some k →
          ([300, -40000, -5] : List (CLong .lp64))[i]? = some x → vals[i]? = some v →
          v.toInt = k.reduce (k.argument x) ∧
            (k.InRange (k.argument x) → v.toInt = k.argument x) :=
  baaUnpack_baaPack .lp64 ['c', 'S', '?', 'L'] [300, -40000, -5] (List.replicate 7 0) [0, 1, 2]
    (by decide) (by decide) (by decide)

end Libbaalue
