import Mathlib.Algebra.BigOperators.Group.List.Basic
import Mathlib.Data.Set.Function

/-!
# Records of fixed-width fields

A `FieldCodec` lays one argument down as exactly `width` cells and reads a value back from the
front of whatever it is given; `norm` says which value an argument comes back as. A record is
a list of fields laid down one after the other, without framing or padding.

The field laws lift to records of any length: the cells written are as many as the fields are
wide (`length_encodeRecord`), and decoding what was encoded returns the normal form of every
argument, in order, whatever follows the record (`decodeRecord_encodeRecord`). Two records, one
after the other, are one record (`encodeRecord_append`, `decodeRecord_append`).

A field is lossless when all its cells are written by some argument, and the arguments a value
is passed back as are encoded alike. A record of lossless fields is encoded again from what was
decoded (`encodeRecord_of_decodeRecord`), and its cells and its lists of normal forms correspond
one to one (`bijOn_decodeRecord`).
-/

/-- A fixed-width field over cells of type `β`: an argument of type `α` goes in, a value of type `γ`
comes out. The two need not be alike, as an argument may be wider than its field; what is left of it
is its normal form. -/
structure FieldCodec (β α γ : Type*) where
  width : ℕ
  encode : α → List β
  decode : List β → γ
  /-- The value an argument comes back as. -/
  norm : α → γ
  length_encode : ∀ a, (encode a).length = width
  decode_encode : ∀ a rest, decode (encode a ++ rest) = norm a

namespace FieldCodec

variable {β α γ : Type*}

/-- The number of cells of a record. -/
def recordWidth : List (FieldCodec β α γ) → ℕ
  | [] => 0
  | f :: fs => f.width + recordWidth fs

/-- Lay down one argument per field, one behind the other and without gaps; what is left over on
either side is not encoded. -/
def encodeRecord : List (FieldCodec β α γ) → List α → List β
  | f :: fs, a :: as => f.encode a ++ encodeRecord fs as
  | _, _ => []

/-- Read one value per field, each from where the field before it ends. -/
def decodeRecord : List (FieldCodec β α γ) → List β → List γ
  | [], _ => []
  | f :: fs, bs => f.decode bs :: decodeRecord fs (bs.drop f.width)

@[simp]
theorem recordWidth_nil : recordWidth ([] : List (FieldCodec β α γ)) = 0 := rfl

@[simp]
theorem recordWidth_cons (f : FieldCodec β α γ) (fs : List (FieldCodec β α γ)) :
    recordWidth (f :: fs) = f.width + recordWidth fs := rfl

@[simp]
theorem length_decodeRecord (fs : List (FieldCodec β α γ)) (bs : List β) :
    (decodeRecord fs bs).length = fs.length := by
  induction fs generalizing bs with
  | nil => rfl
  | cons f fs ih => simp [decodeRecord, ih]

theorem length_encodeRecord {fs : List (FieldCodec β α γ)} {as : List α}
    (h : as.length = fs.length) : (encodeRecord fs as).length = recordWidth fs := by
  induction fs generalizing as with
  | nil => simp [encodeRecord]
  | cons f fs ih =>
    obtain ⟨a, as, rfl⟩ := List.exists_cons_of_length_eq_add_one h
    rw [encodeRecord, List.length_append, f.length_encode, ih (by simpa using h), recordWidth_cons]

/-- **Round trip of a record**: every argument comes back in its normal form. -/
theorem decodeRecord_encodeRecord {fs : List (FieldCodec β α γ)} {as : List α}
    (h : as.length = fs.length) (rest : List β) :
    decodeRecord fs (encodeRecord fs as ++ rest) = List.zipWith norm fs as := by
  induction fs generalizing as with
  | nil => simp [decodeRecord]
  | cons f fs ih =>
    obtain ⟨a, as, rfl⟩ := List.exists_cons_of_length_eq_add_one h
    rw [encodeRecord, List.append_assoc, decodeRecord, f.decode_encode, List.zipWith_cons_cons,
      ← f.length_encode a, List.drop_left, ih (by simpa using h)]

/-! ### Two records -/

/-- Two records, one after the other, are one record. -/
theorem encodeRecord_append {fs : List (FieldCodec β α γ)} {as : List α}
    (h : as.length = fs.length) (gs : List (FieldCodec β α γ)) (bs : List α) :
    encodeRecord (fs ++ gs) (as ++ bs) = encodeRecord fs as ++ encodeRecord gs bs := by
  induction fs generalizing as with
  | nil =>
    obtain rfl := List.eq_nil_of_length_eq_zero h
    simp [encodeRecord]
  | cons f fs ih =>
    obtain ⟨a, as, rfl⟩ := List.exists_cons_of_length_eq_add_one h
    rw [List.cons_append, List.cons_append, encodeRecord, encodeRecord, ih (by simpa using h),
      List.append_assoc]

/-- The second of two records is read from where the first one ends. -/
theorem decodeRecord_append (fs gs : List (FieldCodec β α γ)) (bs : List β) :
    decodeRecord (fs ++ gs) bs =
      decodeRecord fs bs ++ decodeRecord gs (bs.drop (recordWidth fs)) := by
  induction fs generalizing bs with
  | nil => simp [decodeRecord]
  | cons f fs ih =>
    rw [List.cons_append, decodeRecord, decodeRecord, ih, recordWidth_cons, List.drop_drop,
      List.cons_append]

/-! ### Lossless fields -/

/-- A value read from the field, passed back as an argument `Passed` relates it to, is encoded as
the cells it was read from; and every content of the field is that of some argument. So nothing of
the cells is lost in reading them. -/
structure Lossless (Passed : γ → α → Prop) (f : FieldCodec β α γ) : Prop where
  exists_encode : ∀ bs : List β, bs.length = f.width → ∃ a, f.encode a = bs
  exists_passed : ∀ a, ∃ a', Passed (f.norm a) a'
  encode_passed : ∀ {a a'}, Passed (f.norm a) a' → f.encode a' = f.encode a

variable {Passed : γ → α → Prop}

/-- Cells of a record of lossless fields are those of some arguments. -/
theorem exists_encodeRecord {fs : List (FieldCodec β α γ)} (h : ∀ f ∈ fs, Lossless Passed f)
    {bs : List β} (hbs : bs.length = recordWidth fs) :
    ∃ as : List α, as.length = fs.length ∧ encodeRecord fs as = bs := by
  induction fs generalizing bs with
  | nil =>
    obtain rfl := List.eq_nil_of_length_eq_zero hbs
    exact ⟨[], rfl, rfl⟩
  | cons f fs ih =>
    obtain ⟨hf, hfs⟩ := List.forall_mem_cons.mp h
    rw [recordWidth_cons] at hbs
    obtain ⟨a, ha⟩ := hf.exists_encode (bs.take f.width) (by simp [hbs])
    have hrest : (bs.drop f.width).length = recordWidth fs := by simp [hbs]
    obtain ⟨as, hlen, has⟩ := ih hfs hrest
    exact ⟨a :: as, congrArg (· + 1) hlen, by rw [encodeRecord, ha, has, List.take_append_drop]⟩

/-- Normal forms, passed back, are encoded as the arguments were. -/
theorem encodeRecord_of_norm {fs : List (FieldCodec β α γ)} (h : ∀ f ∈ fs, Lossless Passed f)
    {as as' : List α} (has : as.length = fs.length)
    (hpassed : List.Forall₂ Passed (List.zipWith norm fs as) as') :
    encodeRecord fs as' = encodeRecord fs as := by
  induction fs generalizing as as' with
  | nil => simp [encodeRecord]
  | cons f fs ih =>
    obtain ⟨hf, hfs⟩ := List.forall_mem_cons.mp h
    obtain ⟨a, as, rfl⟩ := List.exists_cons_of_length_eq_add_one has
    rw [List.zipWith_cons_cons] at hpassed
    obtain ⟨a', as', ha, hrest, rfl⟩ := List.forall₂_cons_left_iff.mp hpassed
    rw [encodeRecord, encodeRecord, hf.encode_passed ha, ih hfs (by simpa using has) hrest]

/-- **Encode after decode**: the values of a record, passed back, give its cells again. -/
theorem encodeRecord_of_decodeRecord {fs : List (FieldCodec β α γ)}
    (h : ∀ f ∈ fs, Lossless Passed f) {bs : List β} (hbs : bs.length = recordWidth fs)
    {as : List α} (hpassed : List.Forall₂ Passed (decodeRecord fs bs) as) :
    encodeRecord fs as = bs := by
  obtain ⟨as', hlen, rfl⟩ := exists_encodeRecord h hbs
  have hdecode := decodeRecord_encodeRecord hlen []
  rw [List.append_nil] at hdecode
  rw [hdecode] at hpassed
  exact encodeRecord_of_norm h hlen hpassed

/-- Lists of normal forms: a value for each field, which some argument has as its normal form. -/
def IsNormal (fs : List (FieldCodec β α γ)) (vs : List γ) : Prop :=
  List.Forall₂ (fun f v => v ∈ Set.range f.norm) fs vs

theorem isNormal_iff {fs : List (FieldCodec β α γ)} {vs : List γ} :
    IsNormal fs vs ↔ ∃ as : List α, as.length = fs.length ∧ List.zipWith norm fs as = vs := by
  rw [IsNormal]
  constructor
  · intro h
    induction h with
    | nil => exact ⟨[], rfl, rfl⟩
    | cons hv hvs ih =>
      obtain ⟨a, rfl⟩ := hv
      obtain ⟨as, hlen, rfl⟩ := ih
      exact ⟨a :: as, congrArg (· + 1) hlen, List.zipWith_cons_cons⟩
  · rintro ⟨as, hlen, rfl⟩
    induction fs generalizing as with
    | nil => exact .nil
    | cons f fs ih =>
      obtain ⟨a, as, rfl⟩ := List.exists_cons_of_length_eq_add_one hlen
      rw [List.zipWith_cons_cons]
      exact .cons ⟨a, rfl⟩ (ih as (by simpa using hlen))

/-- Every list of normal forms can be passed back. -/
theorem exists_forall₂_passed {fs : List (FieldCodec β α γ)} (h : ∀ f ∈ fs, Lossless Passed f)
    {vs : List γ} (hvs : IsNormal fs vs) : ∃ as, List.Forall₂ Passed vs as := by
  rw [IsNormal] at hvs
  induction hvs with
  | nil => exact ⟨[], .nil⟩
  | cons hv hvs ih =>
    obtain ⟨hf, hfs⟩ := List.forall_mem_cons.mp h
    obtain ⟨a, rfl⟩ := hv
    obtain ⟨a', ha'⟩ := hf.exists_passed a
    obtain ⟨as, has⟩ := ih hfs
    exact ⟨a' :: as, .cons ha' has⟩

/-- **Cells and normal forms correspond one to one.** Every content of the cells of a record is
read as normal forms, different ones as different ones, and all normal forms are read from some
content. -/
theorem bijOn_decodeRecord {fs : List (FieldCodec β α γ)} (h : ∀ f ∈ fs, Lossless Passed f) :
    Set.BijOn (decodeRecord fs) {bs | bs.length = recordWidth fs} {vs | IsNormal fs vs} := by
  have hdecode : ∀ as : List α, as.length = fs.length →
      decodeRecord fs (encodeRecord fs as) = List.zipWith norm fs as := fun as hlen => by
    have hrest := decodeRecord_encodeRecord hlen []
    rwa [List.append_nil] at hrest
  have hmaps : ∀ bs : List β, bs.length = recordWidth fs → IsNormal fs (decodeRecord fs bs) := by
    intro bs hbs
    obtain ⟨as, hlen, rfl⟩ := exists_encodeRecord h hbs
    exact isNormal_iff.mpr ⟨as, hlen, (hdecode as hlen).symm⟩
  refine ⟨hmaps, fun bs hbs bs' hbs' heq => ?_, fun vs hvs => ?_⟩
  · obtain ⟨as, has⟩ := exists_forall₂_passed h (hmaps bs hbs)
    rw [← encodeRecord_of_decodeRecord h hbs has,
      encodeRecord_of_decodeRecord h hbs' (heq ▸ has)]
  · obtain ⟨as, hlen, rfl⟩ := isNormal_iff.mp hvs
    exact ⟨encodeRecord fs as, length_encodeRecord hlen, hdecode as hlen⟩

/-! ### Reading values through a map -/

variable {δ : Type*}

/-- The field whose values are read through `g`. -/
def map (g : γ → δ) (f : FieldCodec β α γ) : FieldCodec β α δ where
  width := f.width
  encode := f.encode
  decode bs := g (f.decode bs)
  norm a := g (f.norm a)
  length_encode := f.length_encode
  decode_encode a rest := congrArg g (f.decode_encode a rest)

theorem decodeRecord_map (g : γ → δ) (fs : List (FieldCodec β α γ)) (bs : List β) :
    decodeRecord (fs.map (map g)) bs = (decodeRecord fs bs).map g := by
  induction fs generalizing bs with
  | nil => rfl
  | cons f fs ih =>
    rw [List.map_cons, decodeRecord, decodeRecord, List.map_cons]
    exact congrArg (g (f.decode bs) :: ·) (ih _)

theorem recordWidth_map (g : γ → δ) (fs : List (FieldCodec β α γ)) :
    recordWidth (fs.map (map g)) = recordWidth fs := by
  induction fs with
  | nil => rfl
  | cons f fs ih =>
    rw [List.map_cons, recordWidth_cons, recordWidth_cons, ih]
    rfl

theorem encodeRecord_map (g : γ → δ) (fs : List (FieldCodec β α γ)) (as : List α) :
    encodeRecord (fs.map (map g)) as = encodeRecord fs as := by
  induction fs generalizing as with
  | nil => rfl
  | cons f fs ih =>
    cases as with
    | nil => rfl
    | cons a as =>
      rw [List.map_cons, encodeRecord, encodeRecord, ih]
      rfl

end FieldCodec
