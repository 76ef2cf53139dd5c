import Libbaalue.Serialize.RoundTrip

/-!
# Formats one after the other

A format that is the concatenation of two packs and unpacks as the two of them in turn: the
record of `f ++ g` is the record of `f` followed by that of `g` (`encodeRecord_append`,
`decodeRecord_append`), at exactly their two sizes. `baaPack_append` says what this means for
the buffer and the byte count of `baa_pack`, `baaUnpack_append` for the stores and the count of
`baa_unpack`; an unknown character may stand anywhere (`baaPack_unknown`, `baaUnpack_unknown`).

The law is about calls and not about lists of fields: both calls succeed, in one buffer that is long
enough, and the counts they return are compared as `int`s. So the counts add up in the arithmetic of
the platform, and they are the numbers of bytes only as long as these fit an `int`, which is said
and not assumed.
-/

namespace Libbaalue

open FieldCodec

variable {abi : Abi}

private theorem conversions_append (f g : List Char) :
    conversions (f ++ g) = conversions f ++ conversions g :=
  List.filterMap_append

private theorem fields_append (f g : List Char) :
    fields abi (f ++ g) = fields abi f ++ fields abi g := by
  rw [fields, conversions_append, List.map_append, fields, fields]

private theorem formatSize_append (f g : List Char) :
    formatSize (f ++ g) = formatSize f + formatSize g := by
  rw [formatSize, conversions_append, List.map_append, List.sum_append, formatSize, formatSize]

/-- The packed record of a format has the format's size. -/
private theorem length_encodeRecord_fields {fmt : List Char} {args : List (CLong abi)}
    (h : args.length = (conversions fmt).length) :
    (encodeRecord (fields abi fmt) args).length = formatSize fmt := by
  rw [length_encodeRecord (by simpa using h), recordWidth_fields]

/-! ### The byte count -/

/-- The `int` both calls return for a format of `n` bytes. -/
def byteCount (abi : Abi) (n : ℕ) : CInt := (BitVec.ofNat abi.longBits n).setWidth 32

private theorem byteCount_add (m n : ℕ) :
    byteCount abi (m + n) = byteCount abi m + byteCount abi n := by
  rw [byteCount, BitVec.ofNat_add, BitVec.setWidth_add _ _ abi.le_longBits, byteCount, byteCount]

/-- A count that fits an `int` is returned unchanged. -/
private theorem toInt_byteCount {n : ℕ} (h : n < 2 ^ 31) : (byteCount abi n).toInt = n := by
  have hlong : (2 : ℕ) ^ 32 ≤ 2 ^ abi.longBits := Nat.pow_le_pow_right (by omega) abi.le_longBits
  have hn : (byteCount abi n).toNat = n := by
    have hmod : n % 2 ^ abi.longBits = n := Nat.mod_eq_of_lt (by omega)
    rw [byteCount, BitVec.toNat_setWidth, BitVec.toNat_ofNat, hmod, Nat.mod_eq_of_lt (by omega)]
  rw [BitVec.toInt_eq_toNat_of_lt (by omega), hn]

/-! ### Unknown characters -/

/-- A format loop that passes over a character packs as if it were not there. -/
theorem packLoop_append (f g : List Char) (st : PackState abi) :
    packLoop (f ++ g) st = (packLoop f st).bind (packLoop g) := by
  induction f generalizing st with
  | nil => rfl
  | cons ch f ih =>
    rw [List.cons_append, packLoop, packLoop, Option.bind_assoc]
    exact congrArg _ (funext ih)

variable {P : Type}

theorem unpackLoop_append (buf : List Byte) (f g : List Char) (st : UnpackState abi P) :
    unpackLoop buf (f ++ g) st = (unpackLoop buf f st).bind (unpackLoop buf g) := by
  induction f generalizing st with
  | nil => rfl
  | cons ch f ih =>
    rw [List.cons_append, unpackLoop, unpackLoop, Option.bind_assoc]
    exact congrArg _ (funext ih)

/-- An unknown character anywhere in the format adds no bytes and takes no argument. -/
theorem baaPack_unknown {ch : Char} (h : Conv.ofChar? ch = none) (f g : List Char)
    (buf : List Byte) (ap : List (CLong abi)) :
    baaPack abi buf (f ++ ch :: g) ap = baaPack abi buf (f ++ g) ap := by
  have hskip : packLoop (ch :: g) = (packLoop g : PackState abi → _) := funext fun st => by
    rw [packLoop, packConv_unknown h, Option.bind_some]
  rw [baaPack, packLoop_append, hskip, ← packLoop_append, baaPack]

theorem baaUnpack_unknown {ch : Char} (h : Conv.ofChar? ch = none) (f g : List Char)
    (buf : List Byte) (ap : List P) :
    baaUnpack abi buf (f ++ ch :: g) ap = baaUnpack abi buf (f ++ g) ap := by
  have hskip : unpackLoop buf (ch :: g) = (unpackLoop buf g : UnpackState abi P → _) :=
    funext fun st => by rw [unpackLoop, unpackConv_unknown h, Option.bind_some]
  rw [baaUnpack, unpackLoop_append, hskip, ← unpackLoop_append, baaUnpack]

private theorem ofChar?_eq_none {ch : Char} (h : ch ∉ ['c', 'C', 's', 'S', 'l', 'L']) :
    Conv.ofChar? ch = none := by
  cases hch : Conv.ofChar? ch with
  | none => rfl
  | some k =>
    obtain rfl := Conv.char_of_ofChar? hch
    cases k <;> simp [Conv.char] at h

/-! ### Two formats -/

/-- **Packing two formats at once**: the bytes of the first, then those of the second, and
nothing behind them; the counts add up. -/
theorem baaPack_append {f g : List Char} {u v : List (CLong abi)}
    (hu : u.length = (conversions f).length) (hv : v.length = (conversions g).length)
    {buf : List Byte} (hbuf : formatSize f + formatSize g ≤ buf.length) :
    baaPack abi buf (f ++ g) (u ++ v) =
      some (encodeRecord (fields abi f) u ++ encodeRecord (fields abi g) v ++
          buf.drop (formatSize f + formatSize g),
        byteCount abi (formatSize f) + byteCount abi (formatSize g)) := by
  have huv : (u ++ v).length = (conversions (f ++ g)).length := by
    rw [conversions_append, List.length_append, List.length_append, hu, hv]
  rw [baaPack_eq (f ++ g) buf (u ++ v) huv (formatSize_append f g ▸ hbuf), formatSize_append,
    fields_append, encodeRecord_append (by simpa using hu), ← byteCount_add, byteCount]

/-- **Unpacking two formats at once**: the stores of the first, then those of the second, read
where the first one ends. -/
theorem baaUnpack_append {f g : List Char} {p q : List P}
    (hp : p.length = (conversions f).length) (hq : q.length = (conversions g).length)
    {buf : List Byte} (hbuf : formatSize f + formatSize g ≤ buf.length) :
    baaUnpack abi buf (f ++ g) (p ++ q) =
      some (p.zip (decodeRecord (fields abi f) buf) ++
          q.zip (decodeRecord (fields abi g) (buf.drop (formatSize f))),
        byteCount abi (formatSize f) + byteCount abi (formatSize g)) := by
  have hpq : (p ++ q).length = (conversions (f ++ g)).length := by
    rw [conversions_append, List.length_append, List.length_append, hp, hq]
  rw [baaUnpack_eq (f ++ g) buf (p ++ q) hpq (formatSize_append f g ▸ hbuf), formatSize_append,
    fields_append, decodeRecord_append, recordWidth_fields, List.zip_append (by simpa using hp),
    ← byteCount_add, byteCount]

/-- **The codec is compositional, with an exact footprint.** Packing `f ++ g` with `u ++ v`
writes the bytes `f` packs `u` to, then the bytes `g` packs `v` to, leaves the buffer alone
from there on, and returns the sum of the two counts, which are the numbers of bytes as long as
they fit an `int`. Unpacking `f ++ g` makes the stores of `f` at `buf` and then those of `g` at
`buf` plus the count returned for `f`. A character that is no conversion changes neither. -/
theorem codec_append (f g : List Char) (u v : List (CLong abi)) (p q : List P)
    (hu : u.length = (conversions f).length) (hv : v.length = (conversions g).length)
    (hp : p.length = (conversions f).length) (hq : q.length = (conversions g).length) :
    (∃ (pf pg : List Byte) (nf ng : CInt),
      (∀ buf : List Byte, pf.length ≤ buf.length →
        baaPack abi buf f u = some (pf ++ buf.drop pf.length, nf)) ∧
      (∀ buf : List Byte, pg.length ≤ buf.length →
        baaPack abi buf g v = some (pg ++ buf.drop pg.length, ng)) ∧
      (∀ buf : List Byte, pf.length + pg.length ≤ buf.length →
        baaPack abi buf (f ++ g) (u ++ v) =
          some (pf ++ pg ++ buf.drop (pf.length + pg.length), nf + ng)) ∧
      (pf.length + pg.length < 2 ^ 31 →
        nf.toInt = pf.length ∧ ng.toInt = pg.length ∧ (nf + ng).toInt = nf.toInt + ng.toInt)) ∧
    (∀ buf : List Byte, formatSize (f ++ g) ≤ buf.length →
      ∃ (sf sg : List (P × Value abi)) (nf ng : CInt),
        baaUnpack abi buf f p = some (sf, nf) ∧
        baaUnpack abi (buf.drop (formatSize f)) g q = some (sg, ng) ∧
        baaUnpack abi buf (f ++ g) (p ++ q) = some (sf ++ sg, nf + ng) ∧
        (formatSize (f ++ g) < 2 ^ 31 →
          nf.toInt = formatSize f ∧ (nf + ng).toInt = nf.toInt + ng.toInt)) ∧
    (∀ ch : Char, ch ∉ ['c', 'C', 's', 'S', 'l', 'L'] →
      (∀ (buf : List Byte) (args : List (CLong abi)),
        baaPack abi buf (f ++ ch :: g) args = baaPack abi buf (f ++ g) args) ∧
      ∀ (buf : List Byte) (ptrs : List P),
        baaUnpack abi buf (f ++ ch :: g) ptrs = baaUnpack abi buf (f ++ g) ptrs) := by
  -- the counts are `int`s, and add up as long as the whole is one
  have hadd : formatSize f + formatSize g < 2 ^ 31 →
      (byteCount abi (formatSize f)).toInt = formatSize f ∧
      (byteCount abi (formatSize g)).toInt = formatSize g ∧
      (byteCount abi (formatSize f) + byteCount abi (formatSize g)).toInt =
        formatSize f + formatSize g := fun hlt => by
    refine ⟨toInt_byteCount (by omega), toInt_byteCount (by omega), ?_⟩
    rw [← byteCount_add, toInt_byteCount hlt, Nat.cast_add]
  refine ⟨?_, fun buf hbuf => ?_, fun ch hch => ?_⟩
  · refine ⟨encodeRecord (fields abi f) u, encodeRecord (fields abi g) v,
      byteCount abi (formatSize f), byteCount abi (formatSize g), ?_⟩
    rw [length_encodeRecord_fields hu, length_encodeRecord_fields hv]
    refine ⟨fun buf hbuf => baaPack_eq f buf u hu hbuf, fun buf hbuf => baaPack_eq g buf v hv hbuf,
      fun buf hbuf => baaPack_append hu hv hbuf, fun hlt => ?_⟩
    obtain ⟨hf, hg, hfg⟩ := hadd hlt
    exact ⟨hf, hg, by rw [hfg, hf, hg]⟩
  · rw [formatSize_append] at hbuf ⊢
    refine ⟨p.zip (decodeRecord (fields abi f) buf),
      q.zip (decodeRecord (fields abi g) (buf.drop (formatSize f))),
      byteCount abi (formatSize f), byteCount abi (formatSize g),
      baaUnpack_eq f buf p hp (by omega), baaUnpack_eq g _ q hq (by simp; omega),
      baaUnpack_append hp hq hbuf, fun hlt => ?_⟩
    obtain ⟨hf, hg, hfg⟩ := hadd hlt
    exact ⟨hf, by rw [hfg, hf, hg]⟩
  · -- what is no conversion is skipped, wherever it stands
    have hnone := ofChar?_eq_none hch
    exact ⟨baaPack_unknown hnone f g, baaUnpack_unknown hnone f g⟩

/-- `"c?"` with one argument and then `"Sl"` with two. -/
theorem codec_append_cSl :
    (∃ (pf pg : List Byte) (nf ng : CInt),
      (∀ buf : List Byte, pf.length ≤ buf.length →
        baaPack .lp64 buf ['c', '?'] [7] = some (pf ++ buf.drop pf.length, nf)) ∧
      (∀ buf : List Byte, pg.length ≤ buf.length →
        baaPack .lp64 buf ['S', 'l'] [-2, 70000] = some (pg ++ buf.drop pg.length, ng)) ∧
      (∀ buf : List Byte, pf.length + pg.length ≤ buf.length →
        baaPack .lp64 buf (['c', '?'] ++ ['S', 'l']) ([7] ++ [-2, 70000]) =
          some (pf ++ pg ++ buf.drop (pf.length + pg.length), nf + ng)) ∧
      (pf.length + pg.length < 2 ^ 31 →
        nf.toInt = pf.length ∧ ng.toInt = pg.length ∧ (nf + ng).toInt = nf.toInt + ng.toInt)) ∧
    (∀ buf : List Byte, formatSize (['c', '?'] ++ ['S', 'l']) ≤ buf.length →
      ∃ (sf sg : List (ℕ × Value .lp64)) (nf ng : CInt),
        baaUnpack .lp64 buf ['c', '?'] [0] = some (sf, nf) ∧
        baaUnpack .lp64 (buf.drop (formatSize ['c', '?'])) ['S', 'l'] [1, 2] = some (sg, ng) ∧
        baaUnpack .lp64 buf (['c', '?'] ++ ['S', 'l']) ([0] ++ [1, 2]) =
          some (sf ++ sg, nf + ng) ∧
        (formatSize (['c', '?'] ++ ['S', 'l']) < 2 ^ 31 →
          nf.toInt = formatSize ['c', '?'] ∧ (nf + ng).toInt = nf.toInt + ng.toInt)) ∧
    (∀ ch : Char, ch ∉ ['c', 'C', 's', 'S', 'l', 'L'] →
      (∀ (buf : List Byte) (args : List (CLong .lp64)),
        baaPack .lp64 buf (['c', '?'] ++ ch :: ['S', 'l']) args =
          baaPack .lp64 buf (['c', '?'] ++ ['S', 'l']) args) ∧
      ∀ (buf : List Byte) (ptrs : List ℕ),
        baaUnpack .lp64 buf (['c', '?'] ++ ch :: ['S', 'l']) ptrs =
          baaUnpack .lp64 buf (['c', '?'] ++ ['S', 'l']) ptrs) :=
  codec_append ['c', '?'] ['S', 'l'] [7] [-2, 70000] [0] [1, 2] (by decide) (by decide)
    (by decide) (by decide)

end Libbaalue
