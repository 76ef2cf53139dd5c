import Libbaalue.Can.Filter

/-!
# The memory of the filter array

The size of the block behind `filter`, along the calls of `baa_set_flist`: a `realloc` that succeeds
makes it what was asked for, and one that fails leaves it alone. The code asks for the size of
one entry whatever `count` is, so that the block has room for what is stored exactly as long as
there is no second entry (`baaSetFlist_roomFor_iff`).

The block is a number here, the bytes it has room for, and it is followed along the trace: a
`realloc` that fails keeps the old block, which is why the condition is about those that succeed.
What `setsockopt` is told counts as well, as the kernel reads as many bytes. That a store behind the
block may do no harm on a machine is not considered.
-/

namespace Libbaalue

open CallProgram

/-- A `realloc` that succeeded, and so has made the block as large as it asked for. -/
def Reallocated : CanCall × SysRet → Bool
  | (.realloc _, .ok _) => true
  | _ => false

/-- From a block of the given size on, every entry is stored inside the block, and `setsockopt` is
not told of more than the block. -/
def RoomFor : ℕ → List (CanCall × SysRet) → Prop
  | _, [] => True
  | block, (.realloc size, r) :: tr => RoomFor (if r.isOk then size else block) tr
  | block, (.store index _, _) :: tr => (index + 1) * sizeofCanFilter ≤ block ∧ RoomFor block tr
  | block, (.setsockopt _ _ optlen, _) :: tr => optlen ≤ block ∧ RoomFor block tr
  | _, (.free, _) :: tr => RoomFor 0 tr

instance decidableRoomFor : ∀ block tr, Decidable (RoomFor block tr)
  | _, [] => inferInstanceAs (Decidable True)
  | _, (.realloc _, _) :: tr => decidableRoomFor _ tr
  | block, (.store _ _, _) :: tr =>
    have := decidableRoomFor block tr
    inferInstanceAs (Decidable (_ ∧ _))
  | block, (.setsockopt _ _ _, _) :: tr =>
    have := decidableRoomFor block tr
    inferInstanceAs (Decidable (_ ∧ _))
  | _, (.free, _) :: tr => decidableRoomFor 0 tr

/-- The block with the given number of entries: `NULL`, or the size of one. -/
def blockSize (count : ℕ) : ℕ := if count = 0 then 0 else sizeofCanFilter

private theorem succ_mul_le_iff (count : ℕ) : (count + 1) * sizeofCanFilter ≤ sizeofCanFilter ↔
    count = 0 := by
  simp only [sizeofCanFilter]
  omega

private theorem mul_le_blockSize_iff (count : ℕ) :
    count * sizeofCanFilter ≤ blockSize count ↔ count ≤ 1 := by
  simp only [blockSize, sizeofCanFilter]
  split_ifs <;> omega

/-- From `filter` to `filter'` the block has room for the entries of the loop if there are none, or
no second one. -/
def LoopRoom (filter : List CanFilter) (tr : List (CanCall × SysRet)) (filter' : List CanFilter) :
    Prop :=
  filter'.length = filter.length + tr.countP Reallocated ∧
    ∀ tr', RoomFor (blockSize filter.length) (tr ++ tr') ↔
      (tr.countP Reallocated = 0 ∨ filter'.length ≤ 1) ∧ RoomFor (blockSize filter'.length) tr'

/-- What the loop does to the block. -/
theorem flistLoop_roomFor (abi : Abi) (filter : List CanFilter) (ts : List (List Byte)) :
    (flistLoop abi filter ts).Ensures (LoopRoom filter) := by
  refine ensures_flistLoop (Q := fun filter _ => LoopRoom filter) ?_ ?_ ?_ filter ts
  · intro filter
    exact ⟨rfl, fun tr' => by simp⟩
  · intro filter token ts n stored tr filter' h
    obtain ⟨hlen, hroom⟩ := h
    have hcount : ((CanCall.realloc sizeofCanFilter, SysRet.ok n) ::
        (CanCall.store filter.length (canEntry abi token), stored) :: tr).countP Reallocated =
          tr.countP Reallocated + 1 := by
      rw [List.countP_cons_of_pos rfl, List.countP_cons_of_neg Bool.false_ne_true]
    have hsize : blockSize (filter ++ [canEntry abi token]).length = sizeofCanFilter := by
      rw [blockSize, if_neg (by simp)]
    rw [List.length_append, List.length_singleton] at hlen
    rw [LoopRoom, hcount]
    refine ⟨by omega, fun tr' => ?_⟩
    rw [hsize] at hroom
    simp only [List.cons_append, RoomFor, SysRet.isOk, if_true, succ_mul_le_iff, hroom]
    rw [← and_assoc]
    refine and_congr_left fun _ => ?_
    omega
  · intro filter token ts errno tr filter' h
    have hcount : ((CanCall.realloc sizeofCanFilter, SysRet.failed errno) :: tr).countP
        Reallocated = tr.countP Reallocated :=
      List.countP_cons_of_neg Bool.false_ne_true
    rw [LoopRoom, hcount]
    exact h

/-- Giving the block back needs no room. -/
private theorem roomFor_of_free {tail : List (CanCall × SysRet)} (h : ∀ e ∈ tail, e.1 = .free)
    (block : ℕ) : RoomFor block tail := by
  induction tail generalizing block with
  | nil => trivial
  | cons e tail ih =>
    obtain ⟨he, htail⟩ := List.forall_mem_cons.mp h
    obtain ⟨c, r⟩ := e
    obtain rfl : c = .free := he
    exact ih htail 0

/-- **When the filter array is large enough.** For every list, whatever the calls come to: every
entry is stored inside the block, and `setsockopt` gets no more than the block, if and only if at
most one `realloc` succeeds. -/
theorem baaSetFlist_roomFor_iff (abi : Abi) (adjacent : List Byte) (sfd : CInt)
    (flist : Option (List Byte)) :
    (baaSetFlist abi adjacent sfd flist).Ensures fun tr _ =>
      RoomFor 0 tr ↔ tr.countP Reallocated ≤ 1 := by
  cases flist with
  | none =>
    rw [baaSetFlist, ensures_pure]
    exact iff_of_true trivial (Nat.zero_le 1)
  | some flist =>
    refine ensures_baaSetFlist ((flistLoop_roomFor abi _ _).mono fun tr filter h => ?_)
    obtain ⟨hlen, hroom⟩ := h
    intro r tail ret htail
    have hcount : tail.countP Reallocated = 0 := by
      refine List.countP_eq_zero.mpr fun e he => ?_
      rw [← Prod.mk.eta (p := e), htail e he]
      exact Bool.false_ne_true
    have hempty : blockSize ([] : List CanFilter).length = 0 := rfl
    rw [← hempty, hroom, RoomFor, and_iff_left (roomFor_of_free htail _), mul_le_blockSize_iff,
      List.countP_append, List.countP_cons_of_neg Bool.false_ne_true, hcount]
    rw [List.length_nil] at hlen
    omega

/-- The list `"1,2"`, with memory for both entries. -/
def twoEntries : List (CanCall × SysRet) :=
  [(.realloc 8, .ok 0), (.store 0 ⟨1, canSffMask⟩, .ok 0), (.realloc 8, .ok 0),
    (.store 1 ⟨2, canSffMask⟩, .ok 0),
    (.setsockopt 3 [⟨1, canSffMask⟩, ⟨2, canSffMask⟩] 16, .ok 0), (.free, .ok 0)]

/-- The second entry of `"1,2"` is stored behind the block. -/
theorem not_roomFor_twoEntries :
    (baaSetFlist .lp64 [0] 3 (some [49, 44, 50])).Exec twoEntries 0 ∧ ¬ RoomFor 0 twoEntries := by
  have heval : (baaSetFlist .lp64 [0] 3 (some [49, 44, 50])).eval (twoEntries.map Prod.snd) =
      some (twoEntries, 0) := by decide
  exact ⟨exec_of_eval heval, by decide⟩

end Libbaalue
