import Libbaalue.Foundations.Tokens
import Libbaalue.Foundations.CallProgram
import Libbaalue.Net.Socket
import Libbaalue.Can.Strtoul

/-!
# `baa_set_flist`

The list of identifiers is cut into tokens and every token becomes an entry of the filter. The
entries are kept as a list, whose length is the variable `count`, so that the array has room for
whatever is stored; `realloc` is asked for the size the code asks it for.

`strtok_r` is given the address of a `char`: its delimiters are that character and the bytes that
follow it in memory up to a NUL.

The identifiers keep their 29 bits and are compared in 11 of them: a frame is accepted as it
should be if and only if it is listed, or differs from every listed identifier in these
(`accepts_listed_iff`).

The function is followed by one rule for its loop and one for the calls behind it, with the
postcondition as a parameter, so that the results about memory and about delimiters use the same two
(`ensures_flistLoop`, `ensures_baaSetFlist`). What is installed is then a statement about the trace:
the filter of a `setsockopt` that succeeded. The rule by which the kernel compares is the one of its
documentation, entry by entry.
-/

namespace Libbaalue

open CallProgram

/-- `CAN_SFF_MASK`. -/
def canSffMask : CInt := 0x000007FF

/-- `CAN_EFF_MASK`. -/
def canEffMask : CInt := 0x1FFFFFFF

/-- `CAN_EFF_FLAG`. -/
def canEffFlag : CInt := 0x80000000

/-- `struct can_filter`. A frame passes it if its identifier is the one of the entry in the bits of
the mask. -/
structure CanFilter where
  canId : CInt
  canMask : CInt
  deriving DecidableEq, Repr

/-- `sizeof(struct can_filter)`. -/
def sizeofCanFilter : ℕ := 8

/-- The calls of `baa_set_flist`; a store into the array stands among them, since where it goes is
what matters. -/
inductive CanCall
  | realloc (size : ℕ)
  | store (index : ℕ) (entry : CanFilter)
  | setsockopt (sfd : CInt) (filter : List CanFilter) (optlen : ℕ)
  | free
  deriving DecidableEq, Repr

/-- A function of `can_lin.c` that returns an `α`. -/
abbrev CanProgram (α : Type) := CallProgram CanCall SysRet α

/-- What `strtok_r` takes for delimiters, `adjacent` being the memory behind the comma: a string
begins at the comma, and ends at the first NUL there. -/
def delimiters (adjacent : List Byte) : List Byte := 44 :: adjacent.takeWhile (· ≠ 0)

/-- The entry of a token: its number cut to 29 bits, and a mask of eleven, whatever the format of
the frame. -/
def canEntry (abi : Abi) (token : List Byte) : CanFilter :=
  ⟨(strtoulHex abi token &&& canEffMask.setWidth abi.longBits).setWidth 32, canSffMask⟩

/-- The loop over the tokens. A `realloc` that fails makes it skip the token; the size that it asks
for is that of one entry each time. -/
def flistLoop (abi : Abi) (filter : List CanFilter) :
    List (List Byte) → CanProgram (List CanFilter)
  | [] => return filter
  | token :: rest => do
    match ← perform (.realloc sizeofCanFilter) with
    | .failed _ => flistLoop abi filter rest
    | .ok _ =>
      let _ ← perform (.store filter.length (canEntry abi token))
      flistLoop abi (filter ++ [canEntry abi token]) rest

/-- `baa_set_flist`. Without a list nothing is called; an empty list installs a filter without
entries, which lets nothing pass. -/
def baaSetFlist (abi : Abi) (adjacent : List Byte) (sfd : CInt) :
    Option (List Byte) → CanProgram CInt
  | none => return 0
  | some flist => do
    let filter ← flistLoop abi [] (tokens (fun b => decide (b ∈ delimiters adjacent)) flist)
    match ← perform (.setsockopt sfd filter (filter.length * sizeofCanFilter)) with
    | .failed _ =>
      if filter ≠ [] then
        let _ ← perform .free
        return -1
      else return -1
    | .ok _ =>
      let _ ← perform .free
      return 0

/-! ### Frames -/

/-- The identifier of a received data frame, in one of the two frame formats, with its own number of
bits. -/
inductive CanFrame
  | standard (id : BitVec 11)
  | extended (id : BitVec 29)
  deriving DecidableEq, Repr

/-- The field `can_id` of the frame. -/
def CanFrame.canId : CanFrame → CInt
  | standard id => id.setWidth 32
  | extended id => canEffFlag ||| id.setWidth 32

/-- The identifier as a number. -/
def CanFrame.identifier : CanFrame → ℕ
  | standard id => id.toNat
  | extended id => id.toNat

/-- The rule of the kernel: a frame passes a filter that one of its entries matches. -/
def Passes (filter : List CanFilter) (frame : CanFrame) : Prop :=
  ∃ entry ∈ filter, frame.canId &&& entry.canMask = entry.canId &&& entry.canMask

/-! ### What is installed -/

/-- Every `realloc` succeeds, so that no token is skipped. -/
def ReallocsSucceed (tr : List (CanCall × SysRet)) : Prop :=
  ∀ size errno, (CanCall.realloc size, SysRet.failed errno) ∉ tr

/-- The filters a trace installs: those of a `setsockopt` that succeeds. -/
def Installs (tr : List (CanCall × SysRet)) (filter : List CanFilter) : Prop :=
  ∃ sfd optlen n, (CanCall.setsockopt sfd filter optlen, SysRet.ok n) ∈ tr

variable {tr tr' : List (CanCall × SysRet)} {e : CanCall × SysRet} {filter : List CanFilter}

@[simp]
theorem installs_nil : ¬ Installs [] filter := by simp [Installs]

@[simp]
theorem installs_cons : Installs (e :: tr) filter ↔
    (∃ sfd optlen n, (.setsockopt sfd filter optlen, .ok n) = e) ∨ Installs tr filter := by
  simp only [Installs, List.mem_cons, exists_or]

theorem ReallocsSucceed.of_cons (h : ReallocsSucceed (e :: tr)) : ReallocsSucceed tr :=
  fun size errno hmem => h size errno (List.mem_cons_of_mem e hmem)

theorem ReallocsSucceed.of_append_left (h : ReallocsSucceed (tr ++ tr')) : ReallocsSucceed tr :=
  fun size errno hmem => h size errno (List.mem_append_left tr' hmem)

/-- **The rule of the loop**: a token without memory for it is skipped, any other one stored. -/
theorem ensures_flistLoop {abi : Abi}
    {Q : List CanFilter → List (List Byte) → List (CanCall × SysRet) → List CanFilter → Prop}
    (hnil : ∀ filter, Q filter [] [] filter)
    (hstored : ∀ filter token ts n stored tr filter',
      Q (filter ++ [canEntry abi token]) ts tr filter' →
      Q filter (token :: ts) ((.realloc sizeofCanFilter, .ok n) ::
        (.store filter.length (canEntry abi token), stored) :: tr) filter')
    (hskipped : ∀ filter token ts errno tr filter', Q filter ts tr filter' →
      Q filter (token :: ts) ((.realloc sizeofCanFilter, .failed errno) :: tr) filter')
    (filter : List CanFilter) (ts : List (List Byte)) :
    (flistLoop abi filter ts).Ensures (Q filter ts) := by
  induction ts generalizing filter with
  | nil =>
    rw [flistLoop, ensures_pure]
    exact hnil filter
  | cons token ts ih =>
    rw [flistLoop, ensures_perform_bind]
    rintro (n | errno)
    · rw [ensures_perform_bind]
      intro stored
      exact (ih _).mono fun tr filter' => hstored filter token ts n stored tr filter'
    · exact (ih _).mono fun tr filter' => hskipped filter token ts errno tr filter'

/-- The entries of a list of tokens, in order, with none for a token there was no memory for. -/
def EntriesOf (abi : Abi) (ts : List (List Byte)) (tr : List (CanCall × SysRet))
    (entries : List CanFilter) : Prop :=
  ∃ stored : List (List Byte), stored.Sublist ts ∧ entries = stored.map (canEntry abi) ∧
    (ReallocsSucceed tr → stored = ts)

/-- The loop installs nothing, and appends the entries of its tokens. -/
private theorem flistLoop_ensures (abi : Abi) (filter : List CanFilter) (ts : List (List Byte)) :
    (flistLoop abi filter ts).Ensures fun tr filter' =>
      (∀ installed, ¬ Installs tr installed) ∧
        ∃ entries, EntriesOf abi ts tr entries ∧ filter' = filter ++ entries := by
  refine ensures_flistLoop (Q := fun filter ts tr filter' =>
    (∀ installed, ¬ Installs tr installed) ∧
      ∃ entries, EntriesOf abi ts tr entries ∧ filter' = filter ++ entries) ?_ ?_ ?_ filter ts
  · intro filter
    exact ⟨fun _ => installs_nil, [], ⟨[], List.Sublist.refl _, rfl, fun _ => rfl⟩,
      (List.append_nil _).symm⟩
  · rintro filter token ts n stored tr filter' ⟨hnone, _, ⟨stored', hsub, rfl, hall⟩, rfl⟩
    refine ⟨by simpa using hnone, _, ⟨token :: stored', hsub.cons_cons token, rfl, ?_⟩, ?_⟩
    · intro hsucceed
      rw [hall hsucceed.of_cons.of_cons]
    · rw [List.map_cons, List.append_assoc, List.singleton_append]
  · rintro filter token ts errno tr filter' ⟨hnone, entries, ⟨stored, hsub, rfl, hall⟩, rfl⟩
    refine ⟨by simpa using hnone, _, ⟨stored, hsub.cons token, rfl, fun hsucceed => ?_⟩, rfl⟩
    exact absurd List.mem_cons_self (hsucceed _ errno)

/-- The rule of the calls behind the loop: `setsockopt`, and `free` if there is a block. -/
theorem ensures_baaSetFlist {abi : Abi} {adjacent : List Byte} {sfd : CInt} {flist : List Byte}
    {Q : List (CanCall × SysRet) → CInt → Prop}
    (h : (flistLoop abi [] (tokens (fun b => decide (b ∈ delimiters adjacent)) flist)).Ensures
      fun tr filter => ∀ r tail ret, (∀ e ∈ tail, e.1 = .free) →
        Q (tr ++ (.setsockopt sfd filter (filter.length * sizeofCanFilter), r) :: tail) ret) :
    (baaSetFlist abi adjacent sfd (some flist)).Ensures Q := by
  rw [baaSetFlist, ensures_bind]
  refine h.mono fun tr filter hQ => ?_
  rw [ensures_perform_bind]
  rintro (n | errno)
  · rw [ensures_perform_bind]
    intro freed
    rw [ensures_pure]
    exact hQ _ _ _ (by simp)
  · change (if filter ≠ [] then _ else _ : CanProgram CInt).Ensures _
    split_ifs
    · rw [ensures_perform_bind]
      intro freed
      rw [ensures_pure]
      exact hQ _ _ _ (by simp)
    · rw [ensures_pure]
      exact hQ _ _ _ (List.forall_mem_nil _)

/-- **What is installed**: the entries of the tokens of the list, in order, without those for which
a `realloc` has failed. -/
theorem baaSetFlist_entries (abi : Abi) (adjacent : List Byte) (sfd : CInt) (flist : List Byte) :
    (baaSetFlist abi adjacent sfd (some flist)).Ensures fun tr _ =>
      ∀ filter, Installs tr filter →
        EntriesOf abi (tokens (fun b => decide (b ∈ delimiters adjacent)) flist) tr filter := by
  refine ensures_baaSetFlist ((flistLoop_ensures abi _ _).mono fun tr filter h => ?_)
  rintro r tail ret htail installed ⟨sfd', optlen, n, hmem⟩
  obtain ⟨hnone, entries, ⟨stored, hsub, hentries, hall⟩, hfilter⟩ := h
  rw [List.mem_append, List.mem_cons] at hmem
  rcases hmem with hmem | heq | hmem
  · exact absurd ⟨sfd', optlen, n, hmem⟩ (hnone installed)
  · obtain rfl : installed = filter := by
      cases heq
      rfl
    exact ⟨stored, hsub, hfilter.trans hentries, fun hsucceed => hall hsucceed.of_append_left⟩
  · cases htail _ hmem

/-- All of them, if there was memory for each. -/
theorem baaSetFlist_installs (abi : Abi) (adjacent : List Byte) (sfd : CInt)
    (flist : List Byte) :
    (baaSetFlist abi adjacent sfd (some flist)).Ensures fun tr _ =>
      ReallocsSucceed tr → ∀ filter, Installs tr filter →
        filter = (tokens (fun b => decide (b ∈ delimiters adjacent)) flist).map
          (canEntry abi) := by
  refine (baaSetFlist_entries abi adjacent sfd flist).mono fun tr ret h hsucceed filter hinst => ?_
  obtain ⟨stored, -, hentries, hall⟩ := h filter hinst
  rw [hentries, hall hsucceed]

/-! ### What is accepted -/

/-- Comparing in the mask of standard frames is comparing eleven bits. -/
theorem and_canSffMask_eq_iff (x y : CInt) :
    x &&& canSffMask = y &&& canSffMask ↔ x.toNat % 2 ^ 11 = y.toNat % 2 ^ 11 := by
  have hmask : ∀ z : CInt, (z &&& canSffMask).toNat = z.toNat % 2 ^ 11 := fun z => by
    rw [BitVec.toNat_and, ← Nat.and_two_pow_sub_one_eq_mod]
    rfl
  rw [← BitVec.toNat_inj, hmask, hmask]

/-- The low bits of an entry are those of its token. -/
theorem canEntry_mod (abi : Abi) (token : List Byte) :
    (canEntry abi token).canId.toNat % 2 ^ 11 = (strtoulHex abi token).toNat % 2 ^ 11 := by
  have hmask : canEffMask.toNat % 2 ^ abi.longBits = 2 ^ 29 - 1 := by cases abi <;> rfl
  rw [canEntry, BitVec.toNat_setWidth, BitVec.toNat_and, BitVec.toNat_setWidth, hmask,
    Nat.and_two_pow_sub_one_eq_mod, Nat.mod_mod_of_dvd _ (by decide : 2 ^ 11 ∣ 2 ^ 32),
    Nat.mod_mod_of_dvd _ (by decide : 2 ^ 11 ∣ 2 ^ 29)]

/-- The entry of a numeral holds its identifier. -/
theorem canEntry_of_hexNumeral {abi : Abi} {token : List Byte} {id : ℕ}
    (h : HexNumeral token id) (hid : id ≤ canEffMask.toNat) :
    canEntry abi token = ⟨BitVec.ofNat 32 id, canSffMask⟩ := by
  have hbits : id < 2 ^ 29 := Nat.lt_of_le_of_lt hid (by decide)
  have hwide : id < 2 ^ abi.longBits :=
    hbits.trans_le (Nat.pow_le_pow_right two_pos (by have := abi.le_longBits; omega))
  rw [canEntry, strtoulHex_of_hexNumeral h hwide]
  congr 1
  refine BitVec.eq_of_toNat_eq ?_
  have hmask : canEffMask.toNat % 2 ^ abi.longBits = 2 ^ 29 - 1 := by cases abi <;> rfl
  rw [BitVec.toNat_setWidth, BitVec.toNat_and, BitVec.toNat_setWidth, hmask,
    Nat.and_two_pow_sub_one_eq_mod, BitVec.toNat_ofNat, BitVec.toNat_ofNat,
    Nat.mod_eq_of_lt hwide, Nat.mod_eq_of_lt hbits]

/-- The low bits of a frame are those of its identifier. -/
theorem CanFrame.canId_mod (frame : CanFrame) :
    frame.canId.toNat % 2 ^ 11 = frame.identifier % 2 ^ 11 := by
  cases frame with
  | standard id =>
    have hid : (id.setWidth 32).toNat = id.toNat := by
      rw [BitVec.toNat_setWidth, Nat.mod_eq_of_lt (id.isLt.trans (by decide))]
    rw [canId, identifier, hid]
  | extended id =>
    have hid : (id.setWidth 32).toNat = id.toNat := by
      rw [BitVec.toNat_setWidth, Nat.mod_eq_of_lt (id.isLt.trans (by decide))]
    have hflag : canEffFlag.toNat % 2 ^ 11 = 0 := rfl
    rw [canId, identifier, BitVec.toNat_or, Nat.or_mod_two_pow, hflag, Nat.zero_or, hid]

private theorem passes_cons {entry : CanFilter} {filter : List CanFilter} {frame : CanFrame} :
    Passes (entry :: filter) frame ↔
      frame.canId &&& entry.canMask = entry.canId &&& entry.canMask ∨ Passes filter frame := by
  simp only [Passes, List.mem_cons, exists_eq_or_imp]

/-- **What passes**: the frames whose low bits are those of a listed identifier. The format of the
frame does not matter, nor do the upper eighteen bits of an extended one. -/
theorem passes_iff {abi : Abi} {names : List (List Byte)} {ids : List ℕ}
    (hnames : List.Forall₂ HexNumeral names ids) (hids : ∀ id ∈ ids, id ≤ canEffMask.toNat)
    (frame : CanFrame) :
    Passes (names.map (canEntry abi)) frame ↔
      ∃ id ∈ ids, id % 2 ^ 11 = frame.identifier % 2 ^ 11 := by
  induction hnames with
  | nil => simp [Passes]
  | @cons name id names ids hname hrest ih =>
    obtain ⟨hid, hids⟩ := List.forall_mem_cons.mp hids
    have hbits : id % 2 ^ 32 % 2 ^ 11 = id % 2 ^ 11 := Nat.mod_mod_of_dvd id (by decide)
    have hhead : frame.canId &&& (canEntry abi name).canMask =
        (canEntry abi name).canId &&& (canEntry abi name).canMask ↔
          id % 2 ^ 11 = frame.identifier % 2 ^ 11 := by
      rw [canEntry_of_hexNumeral hname hid, and_canSffMask_eq_iff, frame.canId_mod,
        BitVec.toNat_ofNat, hbits, eq_comm]
    rw [List.map_cons, passes_cons, hhead, ih hids]
    simp only [List.mem_cons, exists_eq_or_imp]

/-- Numerals joined by commas are the tokens of the list, when nothing but the comma delimits. -/
theorem tokens_of_hexNumerals {adjacent : List Byte} (hcomma : delimiters adjacent = [44])
    {names : List (List Byte)} {ids : List ℕ} (hnames : List.Forall₂ HexNumeral names ids) :
    tokens (fun b => decide (b ∈ delimiters adjacent)) (List.intercalate [44] names) = names := by
  refine tokens_intercalate (by simp [delimiters]) ?_
  rw [hcomma]
  induction hnames with
  | nil => exact List.forall_mem_nil _
  | @cons name id names ids hname hrest ih =>
    refine List.forall_mem_cons.mpr ⟨⟨?_, fun b hb => ?_⟩, ih⟩
    · obtain ⟨b, t, -, rfl, -⟩ := hname.exists_cons
      exact List.cons_ne_nil b t
    · simpa using hname.ne_comma b hb

/-- **When the filter accepts exactly the listed identifiers.** For every list of hexadecimal
identifiers, cut at commas and stored with room for every entry, and every data frame: the
installed filter lets the frame pass if and only if it is listed, exactly when it is listed or
has the low eleven bits of no listed identifier. -/
theorem accepts_listed_iff (abi : Abi) {adjacent : List Byte}
    (hcomma : delimiters adjacent = [44]) (sfd : CInt) {names : List (List Byte)} {ids : List ℕ}
    (hnames : List.Forall₂ HexNumeral names ids) (hids : ∀ id ∈ ids, id ≤ canEffMask.toNat)
    {tr : List (CanCall × SysRet)} {ret : CInt}
    (hexec : (baaSetFlist abi adjacent sfd (some (List.intercalate [44] names))).Exec tr ret)
    (hroom : ReallocsSucceed tr) {filter : List CanFilter} (hinstalls : Installs tr filter)
    (frame : CanFrame) :
    (Passes filter frame ↔ frame.identifier ∈ ids) ↔
      (frame.identifier ∈ ids ∨ ∀ id ∈ ids, id % 2 ^ 11 ≠ frame.identifier % 2 ^ 11) := by
  have hfilter := baaSetFlist_installs abi adjacent sfd _ tr ret hexec hroom filter hinstalls
  rw [hfilter, tokens_of_hexNumerals hcomma hnames, passes_iff hnames hids frame]
  constructor
  · intro hiff
    by_cases hlisted : frame.identifier ∈ ids
    · exact .inl hlisted
    · exact .inr fun id hid heq => hlisted (hiff.mp ⟨id, hid, heq⟩)
  · rintro (hlisted | hdiffers)
    · exact iff_of_true ⟨_, hlisted, rfl⟩ hlisted
    · refine iff_of_false ?_ fun hlisted => hdiffers _ hlisted rfl
      rintro ⟨id, hid, heq⟩
      exact hdiffers id hid heq

/-- The list `"123"` is installed as one entry. -/
def oneEntry : List (CanCall × SysRet) :=
  [(.realloc 8, .ok 0), (.store 0 ⟨0x123, canSffMask⟩, .ok 0),
    (.setsockopt 3 [⟨0x123, canSffMask⟩] 8, .ok 0), (.free, .ok 0)]

private theorem hexNumeral_123 : HexNumeral [49, 50, 51] 0x123 := by
  refine .plain ⟨by decide, [1, 2, 3], ?_, by decide⟩
  exact .cons (by decide) (.cons (by decide) (.cons (by decide) .nil))

private theorem exec_oneEntry :
    (baaSetFlist .lp64 [0] 3 (some (List.intercalate [44] [[49, 50, 51]]))).Exec oneEntry 0 := by
  have heval : (baaSetFlist .lp64 [0] 3 (some (List.intercalate [44] [[49, 50, 51]]))).eval
      (oneEntry.map Prod.snd) = some (oneEntry, 0) := by decide
  exact exec_of_eval heval

theorem accepts_listed_iff_123 :
    (Passes [⟨0x123, canSffMask⟩] (.standard 0x123) ↔ (0x123 : ℕ) ∈ [0x123]) ↔
      ((0x123 : ℕ) ∈ [0x123] ∨ ∀ id ∈ [0x123], id % 2 ^ 11 ≠ 0x123 % 2 ^ 11) :=
  accepts_listed_iff .lp64 (by decide) 3 (.cons hexNumeral_123 .nil) (by decide) exec_oneEntry
    (by simp [ReallocsSucceed, oneEntry]) ⟨3, 8, 0, by decide⟩ (.standard 0x123)

/-- The extended frame `0x923` passes a filter for `0x123`. -/
theorem not_accepts_listed_only :
    ∃ tr ret filter,
      (baaSetFlist .lp64 [0] 3 (some (List.intercalate [44] [[49, 50, 51]]))).Exec tr ret ∧
      List.Forall₂ HexNumeral [[49, 50, 51]] [0x123] ∧ ReallocsSucceed tr ∧
      Installs tr filter ∧ Passes filter (.extended 0x923) ∧
      (CanFrame.extended 0x923).identifier ∉ [0x123] :=
  ⟨oneEntry, 0, [⟨0x123, canSffMask⟩], exec_oneEntry, .cons hexNumeral_123 .nil,
    by simp [ReallocsSucceed, oneEntry], ⟨3, 8, 0, by decide⟩,
    ⟨_, List.mem_singleton_self _, by decide⟩, by decide⟩

end Libbaalue
