import Mathlib.Data.Finset.Card
import Mathlib.Logic.Function.Basic

/-!
# Descriptor tables

A descriptor table says what is open under each number. A new descriptor gets the lowest number
that is free; `Allocates` is a number of such allocations, one after the other, all of the same
file.

`Allocates.eq_iff` says when they leave a table in which the first `N` numbers stand for that file
and no other number is taken: nothing was taken from `N` on, below it nothing else, and as many
were allocated as were free there (`numFree`). `closeBelow` is the table after a loop that closes
the first numbers.

An allocation is a relation and not a function: it says where the new descriptor went, and that
nothing else changed. Runs of allocations are followed by induction on their number with the table
generalised, and what is counted is the room that is left below `N`, which every allocation takes
one of until there is none.
-/

namespace DescriptorTable

variable {F : Type*} {t t' : ℕ → Option F} {n N k : ℕ} {f : F}

/-- The number a new descriptor gets: it is free, and all the numbers below it are taken. -/
def IsLowestFree (t : ℕ → Option F) (n : ℕ) : Prop := t n = none ∧ ∀ m < n, t m ≠ none

/-- The free numbers below `N`. -/
def free (t : ℕ → Option F) (N : ℕ) : Finset ℕ := (Finset.range N).filter fun i => (t i).isNone

/-- How many numbers below `N` are free. -/
def numFree (t : ℕ → Option F) (N : ℕ) : ℕ := (free t N).card

/-- The table when the numbers below `N` have been closed, whether they were open or not. -/
def closeBelow (t : ℕ → Option F) (N i : ℕ) : Option F := if i < N then none else t i

/-- `k` allocations of `f`, each at the lowest number that is free. The numbers are determined by
the table, so this is a function of it; it is a relation because a table may be full. -/
def Allocates (f : F) : (ℕ → Option F) → ℕ → (ℕ → Option F) → Prop
  | t, 0, t' => t' = t
  | t, k + 1, t' => ∃ n, IsLowestFree t n ∧ Allocates f (Function.update t n (some f)) k t'

@[simp]
theorem mem_free {i : ℕ} : i ∈ free t N ↔ i < N ∧ t i = none := by
  rw [free, Finset.mem_filter, Finset.mem_range, Option.isNone_iff_eq_none]

theorem numFree_eq_zero_iff : numFree t N = 0 ↔ ∀ i < N, t i ≠ none := by
  rw [numFree, Finset.card_eq_zero, Finset.eq_empty_iff_forall_notMem]
  refine forall_congr' fun i => ?_
  rw [mem_free, not_and]

/-- The table after some numbers were closed, one after the other. -/
theorem closeBelow_succ (t : ℕ → Option F) (N : ℕ) :
    Function.update (closeBelow t N) N none = closeBelow t (N + 1) := by
  funext i
  rcases eq_or_ne i N with rfl | hne
  · rw [Function.update_self, closeBelow, if_pos (Nat.lt_succ_self i)]
  · have hiff : i < N + 1 ↔ i < N := by omega
    rw [Function.update_of_ne hne, closeBelow, closeBelow, if_congr hiff rfl rfl]

/-! ### One allocation -/

/-- Below `N`, as long as a number is free there. -/
theorem IsLowestFree.lt_iff (h : IsLowestFree t n) : n < N ↔ numFree t N ≠ 0 := by
  constructor
  · intro hlt hzero
    exact numFree_eq_zero_iff.mp hzero n hlt h.1
  · intro hne
    by_contra hge
    refine hne (numFree_eq_zero_iff.mpr fun i hi => ?_)
    exact h.2 i (hi.trans_le (not_lt.mp hge))

/-- One number less is free. -/
theorem IsLowestFree.numFree_update (h : IsLowestFree t n) (hlt : n < N) (f : F) :
    numFree t N = numFree (Function.update t n (some f)) N + 1 := by
  have hmem : n ∈ free t N := mem_free.mpr ⟨hlt, h.1⟩
  have herase : free (Function.update t n (some f)) N = (free t N).erase n := by
    ext i
    rw [mem_free, Finset.mem_erase, mem_free]
    rcases eq_or_ne i n with rfl | hne
    · simp
    · rw [Function.update_of_ne hne]
      exact ⟨fun hi => ⟨hne, hi⟩, fun hi => hi.2⟩
  rw [numFree, numFree, herase, Finset.card_erase_add_one hmem]

/-! ### Allocations -/

/-- What was open stays, what was free may have become `f`. -/
theorem Allocates.get (h : Allocates f t k t') (i : ℕ) :
    t' i = t i ∨ t i = none ∧ t' i = some f := by
  induction k generalizing t with
  | zero =>
    obtain rfl : t' = t := h
    exact .inl rfl
  | succ k ih =>
    obtain ⟨n, hn, hrest⟩ := h
    rcases eq_or_ne i n with rfl | hne
    · rcases ih hrest with heq | ⟨hnone, -⟩
      · exact .inr ⟨hn.1, heq.trans (Function.update_self ..)⟩
      · rw [Function.update_self] at hnone
        cases hnone
    · have hi := ih hrest
      rwa [Function.update_of_ne hne] at hi

/-- **When the first `N` numbers are taken and no others.** That is the case after `k` allocations
if and only if nothing was open from `N` on and `k` numbers below were free. -/
theorem Allocates.taken_iff (h : Allocates f t k t') :
    (∀ i, t' i = none ↔ N ≤ i) ↔ (∀ i, N ≤ i → t i = none) ∧ k = numFree t N := by
  induction k generalizing t with
  | zero =>
    obtain rfl : t' = t := h
    rw [eq_comm, numFree_eq_zero_iff]
    constructor
    · intro htaken
      exact ⟨fun i => (htaken i).mpr, fun i hi hnone => not_le.mpr hi ((htaken i).mp hnone)⟩
    · rintro ⟨habove, hbelow⟩ i
      exact ⟨fun hnone => not_lt.mp fun hi => hbelow i hi hnone, habove i⟩
  | succ k ih =>
    obtain ⟨n, hn, hrest⟩ := h
    rw [ih hrest]
    rcases lt_or_ge n N with hlt | hge
    · -- the number is one of the first `N`
      rw [hn.numFree_update hlt f, Nat.succ_inj]
      refine and_congr_left fun _ => forall₂_congr fun i hi => ?_
      rw [Function.update_of_ne (hlt.trans_le hi).ne']
    · refine iff_of_false (fun hl => ?_) fun hr => ?_
      · have hnone := hl.1 n hge
        rw [Function.update_self] at hnone
        cases hnone
      · exact absurd (hn.lt_iff.mpr (by omega)) (not_lt.mpr hge)

/-- **When the first `N` numbers stand for `f` and no other number is taken.** Besides the count of
the free numbers it takes that the ones that were not free stood for `f` already. -/
theorem Allocates.eq_iff (h : Allocates f t k t') :
    (∀ i, t' i = if i < N then some f else none) ↔
      (∀ i, N ≤ i → t i = none) ∧ (∀ i < N, t i = none ∨ t i = some f) ∧ k = numFree t N := by
  have htaken := h.taken_iff (N := N)
  constructor
  · intro heq
    obtain ⟨habove, hk⟩ := htaken.mp fun i => by
      rw [heq i, ite_eq_right_iff]
      simp
    refine ⟨habove, fun i hi => ?_, hk⟩
    rcases h.get i with hsame | ⟨hnone, -⟩
    · rw [← hsame, heq i, if_pos hi]
      exact .inr rfl
    · exact .inl hnone
  · rintro ⟨habove, hbelow, hk⟩ i
    have hi := htaken.mpr ⟨habove, hk⟩ i
    split_ifs with hlt
    · have htake : t' i ≠ none := fun hnone => absurd (hi.mp hnone) (not_le.mpr hlt)
      rcases h.get i with hsame | ⟨-, hf⟩
      · rcases hbelow i hlt with hnone | hf
        · exact absurd (hsame.trans hnone) htake
        · exact hsame.trans hf
      · exact hf
    · exact hi.mpr (not_lt.mp hlt)

end DescriptorTable
