import Libbaalue.Can.Filter
import Mathlib.Algebra.Order.BigOperators.Group.List
import Mathlib.Data.List.TakeWhile
import Mathlib.Data.Nat.Log

/-!
# The delimiters of the filter list

What `baa_set_flist` stores, next to the pieces of the list between its commas. The second argument
of `strtok_r` is a string, and the code gives it the address of one character: the bytes behind the
comma, up to a NUL, delimit as well. They cut the pieces once more, and the identifiers come out as
they should if and only if this does not show in them (`buildsPieces_iff`).

The first half of the result is exact for one list and one memory, and is stated by the cuts of the
pieces; for lists of numerals, as they are written on a command line, it comes to a condition on
bytes (`baaSetFlist_buildsPieces_numerals_iff`). The second half is for all lists: a memory with any
other delimiter has a list on which it shows, which is one of its own bytes between two digits, or a
digit.
-/

namespace Libbaalue

open CallProgram

/-- The blocks of a list between its commas, empty ones left out: the pieces that the list means. -/
def commaPieces (flist : List Byte) : List (List Byte) :=
  (flist.splitOn 44).filter fun piece => !piece.isEmpty

/-- The identifier that a piece stands for. -/
def pieceId (abi : Abi) (piece : List Byte) : CInt :=
  (strtoulHex abi piece &&& canEffMask.setWidth abi.longBits).setWidth 32

/-- The identifier that a call stores, with its index. -/
def storedId : CanCall × SysRet → Option (CInt × ℕ)
  | (.store index entry, _) => some (entry.canId, index)
  | _ => none

/-- There is one entry for every piece of the list, in order, with the identifier that the piece
stands for. -/
def BuildsPieces (abi : Abi) (flist : List Byte) (tr : List (CanCall × SysRet)) : Prop :=
  tr.filterMap storedId = ((commaPieces flist).map (pieceId abi)).zipIdx

/-- The bytes that delimit without being asked for: those between the comma and the first NUL behind
it in memory. -/
def strayDelimiters (adjacent : List Byte) : List Byte := adjacent.takeWhile (· ≠ 0)

private theorem commaPieces_eq_tokens (flist : List Byte) :
    commaPieces flist = tokens (· == 44) flist := by
  rw [commaPieces, tokens_eq_filter, List.splitOn_eq_splitOnP]

/-! ### What is stored -/

/-- The loop stores the identifiers of its tokens, from the given index on. -/
private theorem flistLoop_stores (abi : Abi) (filter : List CanFilter) (ts : List (List Byte)) :
    (flistLoop abi filter ts).Ensures fun tr _ => ReallocsSucceed tr →
      tr.filterMap storedId = (ts.map (pieceId abi)).zipIdx filter.length := by
  refine ensures_flistLoop (Q := fun filter ts tr _ => ReallocsSucceed tr →
    tr.filterMap storedId = (ts.map (pieceId abi)).zipIdx filter.length) ?_ ?_ ?_ filter ts
  · intro filter _
    rfl
  · intro filter token ts n stored tr filter' h hsucceed
    have hrest := h hsucceed.of_cons.of_cons
    rw [List.length_append, List.length_singleton] at hrest
    rw [List.map_cons, List.zipIdx_cons, ← hrest]
    rfl
  · intro filter token ts errno tr filter' h hsucceed
    exact absurd List.mem_cons_self (hsucceed _ errno)

/-- The identifiers stored are those of the tokens. -/
theorem baaSetFlist_stores (abi : Abi) (adjacent : List Byte) (sfd : CInt) (flist : List Byte) :
    (baaSetFlist abi adjacent sfd (some flist)).Ensures fun tr _ => ReallocsSucceed tr →
      tr.filterMap storedId =
        ((tokens (fun b => decide (b ∈ delimiters adjacent)) flist).map (pieceId abi)).zipIdx := by
  refine ensures_baaSetFlist ((flistLoop_stores abi _ _).mono fun tr filter h => ?_)
  intro r tail ret htail hsucceed
  have hnone : tail.filterMap storedId = [] := by
    refine List.filterMap_eq_nil_iff.mpr fun e he => ?_
    rw [← Prod.mk.eta (p := e), htail e he]
    rfl
  rw [List.filterMap_append, List.filterMap_cons_none rfl, hnone, List.append_nil]
  exact h hsucceed.of_append_left

/-- The stray delimiters cut every piece. -/
private theorem tokens_delimiters (adjacent flist : List Byte) :
    tokens (fun b => decide (b ∈ delimiters adjacent)) flist =
      (commaPieces flist).flatMap (tokens fun b => decide (b ∈ delimiters adjacent)) := by
  rw [commaPieces_eq_tokens]
  refine tokens_eq_flatMap (fun b hb => ?_) flist
  exact decide_eq_true (List.mem_cons.mpr (.inl (eq_of_beq hb)))

/-- **One list**: its entries are as they should be if and only if the cuts do not show. -/
theorem baaSetFlist_buildsPieces_iff (abi : Abi) (adjacent : List Byte) (sfd : CInt)
    (flist : List Byte) :
    ((baaSetFlist abi adjacent sfd (some flist)).Ensures fun tr _ =>
      ReallocsSucceed tr → BuildsPieces abi flist tr) ↔
      ((commaPieces flist).flatMap (tokens fun b => decide (b ∈ delimiters adjacent))).map
        (pieceId abi) = (commaPieces flist).map (pieceId abi) := by
  have hstores := baaSetFlist_stores abi adjacent sfd flist
  rw [tokens_delimiters] at hstores
  constructor
  · intro h
    obtain ⟨tr, ret, hexec, henv⟩ :=
      exists_exec (baaSetFlist abi adjacent sfd (some flist)) fun _ => .ok 0
    have hsucceed : ReallocsSucceed tr := fun size errno hmem => nomatch henv _ hmem
    have heq := (hstores tr ret hexec hsucceed).symm.trans (h tr ret hexec hsucceed)
    rw [← List.zipIdx_map_fst 0 (List.map (pieceId abi) (List.flatMap _ _)), heq,
      List.zipIdx_map_fst]
  · intro hids
    refine hstores.mono fun tr ret h hsucceed => ?_
    rw [BuildsPieces, h hsucceed, hids]

/-- **The delimiters of the list.** With memory for every entry, the entries of a list are, in
order, those of its pieces between the commas if and only if cutting the pieces at the stray
delimiters too leaves the identifiers alone; they are so for every list if and only if there is no
stray delimiter but the comma itself. -/
theorem buildsPieces_iff (abi : Abi) (adjacent : List Byte) (sfd : CInt) :
    (∀ flist, ((baaSetFlist abi adjacent sfd (some flist)).Ensures fun tr _ =>
      ReallocsSucceed tr → BuildsPieces abi flist tr) ↔
        ((commaPieces flist).flatMap (tokens fun b => decide (b ∈ delimiters adjacent))).map
          (pieceId abi) = (commaPieces flist).map (pieceId abi)) ∧
    ((∀ flist, 0 ∉ flist → (baaSetFlist abi adjacent sfd (some flist)).Ensures fun tr _ =>
      ReallocsSucceed tr → BuildsPieces abi flist tr) ↔
        ∀ b ∈ strayDelimiters adjacent, b = 44) := by
  refine ⟨baaSetFlist_buildsPieces_iff abi adjacent sfd, ?_⟩
  constructor
  · -- a stray delimiter alone is a piece and no token
    intro h b hb
    by_contra hcomma
    have hnul : b ≠ 0 := by simpa using List.mem_takeWhile_imp hb
    have hids := (baaSetFlist_buildsPieces_iff abi adjacent sfd [b]).mp
      (h [b] fun hmem => hnul (List.mem_singleton.mp hmem).symm)
    have hpiece : commaPieces [b] = [[b]] := by
      rw [commaPieces_eq_tokens]
      exact tokens_of_forall (List.cons_ne_nil b []) (by simpa using hcomma)
    have hcut : tokens (fun b => decide (b ∈ delimiters adjacent)) [b] = [] := by
      have hdelim : decide (b ∈ delimiters adjacent) = true :=
        decide_eq_true (List.mem_cons_of_mem 44 hb)
      simp [tokens, tokensFrom, hdelim]
    rw [hpiece, List.flatMap_singleton, hcut] at hids
    cases hids
  · intro hstray flist _
    -- without stray delimiters the tokens are the pieces
    have hdelims : (fun b => decide (b ∈ delimiters adjacent)) = (· == (44 : Byte)) := by
      funext b
      refine Bool.eq_iff_iff.mpr ?_
      rw [decide_eq_true_iff, beq_iff_eq, delimiters, List.mem_cons]
      exact ⟨fun h => h.elim id (hstray b), .inl⟩
    refine (baaSetFlist_stores abi adjacent sfd flist).mono fun tr ret h hsucceed => ?_
    rw [BuildsPieces, h hsucceed, hdelims, commaPieces_eq_tokens]

/-! ### When a cut shows -/

/-- A hexadecimal numeral without leading zeros, so that there is one for every number, up to the
case of its digits. -/
structure PlainHex (s : List Byte) (n : ℕ) : Prop where
  digits : HexDigits s n
  noZero : s.length = 1 ∨ s.head? ≠ some 48

/-- A digit is less than the base, and only `'0'` is none. -/
private theorem hexDigit?_bounds {b : Byte} {d : ℕ} (h : hexDigit? b = some d) :
    d < 16 ∧ (d = 0 → b = 48) := by
  revert d
  revert b
  decide +kernel

/-- A number is less than the power of its digits. -/
private theorem HexDigits.lt_pow {s : List Byte} {n : ℕ} (h : HexDigits s n) :
    n < 16 ^ s.length := by
  obtain ⟨-, ds, hds, rfl⟩ := h
  rw [hds.length_eq, ← List.length_reverse]
  refine Nat.ofDigits_lt_base_pow_length (by decide) fun d hd => ?_
  have hsmall : ∀ d ∈ ds, d < 16 := by
    clear hd
    induction hds with
    | nil => exact List.forall_mem_nil _
    | cons hb hs ih => exact List.forall_mem_cons.mpr ⟨(hexDigit?_bounds hb).1, ih⟩
  exact hsmall d (List.mem_reverse.mp hd)

/-- It has as many digits as its number needs. -/
private theorem PlainHex.length_eq {s : List Byte} {n : ℕ} (h : PlainHex s n) :
    s.length = Nat.log 16 n + 1 := by
  have hlt := h.digits.lt_pow
  obtain ⟨⟨hne, ds, hds, rfl⟩, hzero⟩ := h
  have hpos : 0 < s.length := List.length_pos_of_ne_nil hne
  refine le_antisymm ?_ (Nat.succ_le_of_lt (Nat.log_lt_of_lt_pow' hpos.ne' hlt))
  rcases hzero with hone | hhead
  · omega
  · cases hds with
    | nil => exact absurd rfl hne
    | @cons b d s ds hb hs =>
      have hd : d ≠ 0 := fun hd => hhead (congrArg some ((hexDigit?_bounds hb).2 hd))
      have hle : 16 ^ s.length ≤ Nat.ofDigits 16 (d :: ds).reverse := by
        rw [List.reverse_cons, Nat.ofDigits_append, Nat.ofDigits_singleton, List.length_reverse,
          ← hs.length_eq]
        exact le_add_left (Nat.le_mul_of_pos_right _ (Nat.pos_of_ne_zero hd))
      rw [List.length_cons, Nat.add_le_add_iff_right]
      exact Nat.le_log_of_pow_le (by decide) hle

/-- What any digits stand for needs no more of them. -/
private theorem log_pieceId_lt (abi : Abi) {s : List Byte} {n : ℕ} (h : HexDigits s n) :
    Nat.log 16 (pieceId abi s).toNat + 1 ≤ s.length := by
  have hread : (strtoulHex abi s).toNat ≤ n := by
    rcases lt_or_ge n (2 ^ abi.longBits) with hfits | hlarge
    · rw [strtoulHex_of_hexNumeral (.plain h) hfits, BitVec.toNat_ofNat]
      exact Nat.mod_le _ _
    · exact (strtoulHex abi s).isLt.le.trans hlarge
  have hle : (pieceId abi s).toNat ≤ n := by
    rw [pieceId, BitVec.toNat_setWidth, BitVec.toNat_and]
    exact (Nat.mod_le _ _).trans (Nat.and_le_left.trans hread)
  have hpos : 0 < s.length := List.length_pos_of_ne_nil h.1
  exact Nat.succ_le_of_lt (Nat.log_lt_of_lt_pow' hpos.ne' (hle.trans_lt h.lt_pow))

/-- The bytes of digits. -/
private theorem exists_digit {s : List Byte} {ds : List ℕ}
    (h : List.Forall₂ (fun b d => hexDigit? b = some d) s ds) :
    ∀ b ∈ s, ∃ d, hexDigit? b = some d := by
  induction h with
  | nil => exact List.forall_mem_nil _
  | cons hb hs ih => exact List.forall_mem_cons.mpr ⟨⟨_, hb⟩, ih⟩

/-- Bytes that are digits stand for a number. -/
private theorem exists_hexDigits {s : List Byte} (hne : s ≠ [])
    (h : ∀ b ∈ s, ∃ d, hexDigit? b = some d) : ∃ n, HexDigits s n := by
  choose! f hf using h
  exact ⟨_, hne, s.map f, List.forall₂_map_right_iff.mpr (List.forall₂_same.mpr hf), rfl⟩

/-- The digits of numerals whose cuts do not show are all kept: the entries need as many digits as
the numerals have, and the tokens have no others. -/
private theorem filter_eq_of_pieceIds_eq {abi : Abi} {delim : Byte → Bool}
    {names : List (List Byte)}
    (hnames : ∀ name ∈ names, ∃ id, PlainHex name id ∧ id ≤ canEffMask.toNat)
    (heq : (names.flatMap (tokens delim)).map (pieceId abi) = names.map (pieceId abi)) :
    (names.flatten.filter fun b => !delim b) = names.flatten := by
  -- the digits it takes to write an identifier
  let need : CInt → ℕ := fun id => Nat.log 16 id.toNat + 1
  have hflatten : (names.flatMap (tokens delim)).flatten =
      names.flatten.filter fun b => !delim b := by
    simp only [List.flatMap, List.flatten_flatten, List.map_map, List.filter_flatten]
    exact congrArg List.flatten (List.map_congr_left fun name _ => flatten_tokens name)
  have hneed : ∀ token ∈ names.flatMap (tokens delim), need (pieceId abi token) ≤ token.length := by
    intro token htoken
    obtain ⟨name, hname, htoken⟩ := List.mem_flatMap.mp htoken
    obtain ⟨id, ⟨⟨-, ds, hds, -⟩, -⟩, -⟩ := hnames name hname
    have hne : token ≠ [] := by
      rw [tokens_eq_filter, List.mem_filter] at htoken
      simpa using htoken.2
    have hpart : ∀ b ∈ token, b ∈ name := fun b hb =>
      List.mem_of_mem_filter (flatten_tokens name ▸ List.mem_flatten_of_mem htoken hb)
    obtain ⟨n, hdigits⟩ := exists_hexDigits hne fun b hb => exists_digit hds b (hpart b hb)
    exact log_pieceId_lt abi hdigits
  -- a plain numeral has no digit to spare
  have hwhole : ∀ name ∈ names, need (pieceId abi name) = name.length := by
    intro name hname
    obtain ⟨id, hplain, hid⟩ := hnames name hname
    have hpiece : (pieceId abi name).toNat = id := by
      change (canEntry abi name).canId.toNat = id
      rw [canEntry_of_hexNumeral (.plain hplain.digits) hid, BitVec.toNat_ofNat]
      exact Nat.mod_eq_of_lt (hid.trans_lt (by decide))
    rw [hplain.length_eq, ← hpiece]
  refine List.filter_sublist.eq_of_length_le ?_
  -- the pieces need all their bytes, and the tokens have no more to offer
  calc
    names.flatten.length = ((names.map (pieceId abi)).map need).sum := by
      rw [List.length_flatten, List.map_map]
      exact congrArg List.sum (List.map_congr_left fun name hname => (hwhole name hname).symm)
    _ = ((names.flatMap (tokens delim)).map fun token => need (pieceId abi token)).sum := by
      rw [← heq, List.map_map]
      rfl
    _ ≤ ((names.flatMap (tokens delim)).map List.length).sum := List.sum_le_sum hneed
    _ = (names.flatten.filter fun b => !delim b).length := by
      rw [← hflatten, List.length_flatten]

/-- **When stray delimiters do not matter**: for a list of numerals without leading zeros, exactly
when none of them occurs in it. A digit that is cut off is missing in the entries, whatever the
cuts make of the rest. -/
theorem baaSetFlist_buildsPieces_numerals_iff (abi : Abi) (adjacent : List Byte) (sfd : CInt)
    {names : List (List Byte)}
    (hnames : ∀ name ∈ names, ∃ id, PlainHex name id ∧ id ≤ canEffMask.toNat) :
    ((baaSetFlist abi adjacent sfd (some (List.intercalate [44] names))).Ensures fun tr _ =>
      ReallocsSucceed tr → BuildsPieces abi (List.intercalate [44] names) tr) ↔
      ∀ name ∈ names, ∀ b ∈ name, b ∉ strayDelimiters adjacent := by
  have hcomma : ∀ name ∈ names, name ≠ [] ∧ ∀ b ∈ name, (b == 44) = false := fun name hname => by
    obtain ⟨id, hplain, -⟩ := hnames name hname
    exact ⟨hplain.digits.1, fun b hb => beq_eq_false_iff_ne.mpr (hplain.digits.ne_comma b hb)⟩
  have hpieces : commaPieces (List.intercalate [44] names) = names := by
    rw [commaPieces_eq_tokens]
    exact tokens_intercalate rfl hcomma
  have hdelim : ∀ name ∈ names, ∀ b ∈ name,
      (decide (b ∈ delimiters adjacent) = false ↔ b ∉ strayDelimiters adjacent) := by
    intro name hname b hb
    have hne := beq_eq_false_iff_ne.mp ((hcomma name hname).2 b hb)
    rw [decide_eq_false_iff_not, delimiters, List.mem_cons, or_iff_right hne]
    rfl
  rw [baaSetFlist_buildsPieces_iff, hpieces]
  constructor
  · intro heq name hname b hb
    rw [← hdelim name hname b hb]
    -- equal identifiers leave no byte out
    have hkept := filter_eq_of_pieceIds_eq hnames heq
    have hall := List.filter_eq_self.mp hkept b (List.mem_flatten_of_mem hname hb)
    simpa using hall
  · intro hstray
    have hwhole : names.flatMap (tokens fun b => decide (b ∈ delimiters adjacent)) = names := by
      refine (List.flatMap_congr fun name hname => tokens_of_forall (hcomma name hname).1
        fun b hb => (hdelim name hname b hb).mpr (hstray name hname b hb)).trans ?_
      simp
    rw [hwhole]

/-- The list `"123"`, with the digit `1` behind the comma in memory. -/
def strayDigit : List (CanCall × SysRet) :=
  [(.realloc 8, .ok 0), (.store 0 ⟨0x23, canSffMask⟩, .ok 0),
    (.setsockopt 3 [⟨0x23, canSffMask⟩] 8, .ok 0), (.free, .ok 0)]

/-- The identifier of `"123"` loses its first digit. -/
theorem not_buildsPieces_strayDigit :
    (baaSetFlist .lp64 [49, 0] 3 (some [49, 50, 51])).Exec strayDigit 0 ∧
      ReallocsSucceed strayDigit ∧ ¬ BuildsPieces .lp64 [49, 50, 51] strayDigit := by
  have heval : (baaSetFlist .lp64 [49, 0] 3 (some [49, 50, 51])).eval
      (strayDigit.map Prod.snd) = some (strayDigit, 0) := by decide
  refine ⟨exec_of_eval heval, by simp [ReallocsSucceed, strayDigit], ?_⟩
  rw [BuildsPieces]
  decide

end Libbaalue
