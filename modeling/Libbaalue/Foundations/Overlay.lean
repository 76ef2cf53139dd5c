import Mathlib.Data.List.Basic

/-!
# Stores into a block of cells

A block of memory is the list of its cells. `overlay old new` writes `new` over the front of
`old` and never past its end, `patch m a new` does so at offset `a`, and `load m a n` reads
`n` cells from offset `a`. A store is described by three laws: it keeps the size of the block
(`length_patch`), a load of a prefix or of the rest of what was stored returns it
(`load_patch_prefix`, `load_patch_suffix`), and a load that misses the stored range does not see
the store (`load_patch_disjoint`).

The laws are what a program's proofs use; the definitions are not unfolded behind this module. A
store that would leave the block is dropped by `overlay` and `patch` and is `none` for `store`, so
that a program that must stay inside its block says so by a store that is `some`.
-/

variable {α : Type*}

namespace Block

/-- Write `new` over the front of `old`; what does not fit is dropped, so that the length stays what
it was. -/
def overlay (old new : List α) : List α := new.take old.length ++ old.drop new.length

/-- Write `new` into the block `m` from offset `a` on. -/
def patch (m : List α) (a : ℕ) (new : List α) : List α := m.take a ++ overlay (m.drop a) new

/-- The store of a program: `none` when it would leave the block, where C leaves the behaviour
undefined. -/
def store (m : List α) (a : ℕ) (new : List α) : Option (List α) :=
  if a + new.length ≤ m.length then some (patch m a new) else none

/-- Read `n` cells of the block `m` from offset `a` on; there are fewer of them where the block
ends. -/
def load (m : List α) (a n : ℕ) : List α := (m.drop a).take n

@[simp]
theorem length_overlay (old new : List α) : (overlay old new).length = old.length := by
  simp only [overlay, List.length_append, List.length_take, List.length_drop]
  omega

@[simp]
theorem length_patch (m : List α) (a : ℕ) (new : List α) : (patch m a new).length = m.length := by
  simp only [patch, List.length_append, List.length_take, length_overlay, List.length_drop]
  omega

/-- Overlaying a block that fits leaves the rest of the old block in place. -/
theorem overlay_of_le {old new : List α} (h : new.length ≤ old.length) :
    overlay old new = new ++ old.drop new.length := by
  rw [overlay, List.take_of_length_le h]

/-- Writing a block over itself and whatever follows it changes nothing. -/
theorem overlay_append_self (l rest : List α) : overlay (l ++ rest) l = l ++ rest := by
  rw [overlay_of_le (by simp), List.drop_left]

/-- Cell `i` of an overlaid block comes from the new block as long as that reaches. -/
theorem getElem?_overlay (old new : List α) (i : ℕ) :
    (overlay old new)[i]? =
      if i < old.length then (if i < new.length then new[i]? else old[i]?) else none := by
  rw [overlay, List.getElem?_append, List.length_take, List.getElem?_take, List.getElem?_drop]
  split_ifs with h₁ h₂ h₃ h₄ h₅ <;> try omega
  · rfl
  · rw [show new.length + (i - min old.length new.length) = i by omega]
  · exact List.getElem?_eq_none (by omega)

/-- Cell `i` of a patched block comes from the store inside its range. -/
theorem getElem?_patch (m : List α) (a : ℕ) (new : List α) (i : ℕ) :
    (patch m a new)[i]? =
      if a ≤ i ∧ i < a + new.length ∧ i < m.length then new[i - a]? else m[i]? := by
  rw [patch, List.getElem?_append, List.length_take, List.getElem?_take, getElem?_overlay,
    List.length_drop]
  by_cases hlt : i < a
  · by_cases hm : i < m.length
    · rw [if_pos (by omega), if_pos hlt, if_neg (by omega)]
    · rw [if_neg (by omega), if_neg (by omega), if_neg (by omega), List.getElem?_eq_none (by omega)]
  · rw [if_neg (by omega)]
    by_cases hm : i < m.length
    · have hmin : i - min a m.length = i - a := by omega
      rw [hmin, if_pos (by omega), List.getElem?_drop, show a + (i - a) = i by omega]
      by_cases hn : i < a + new.length
      · rw [if_pos (by omega), if_pos ⟨by omega, hn, hm⟩]
      · rw [if_neg (by omega), if_neg (by omega)]
    · rw [if_neg (by omega), if_neg (by omega), List.getElem?_eq_none (by omega)]

theorem getElem?_load (m : List α) (a n i : ℕ) :
    (load m a n)[i]? = if i < n then m[a + i]? else none := by
  rw [load, List.getElem?_take, List.getElem?_drop]

/-- A load of the first cells of a store that lies inside the block. -/
theorem load_patch_prefix {m : List α} {a n : ℕ} {new : List α} (hn : n ≤ new.length)
    (hm : a + new.length ≤ m.length) : load (patch m a new) a n = new.take n := by
  refine List.ext_getElem? fun i => ?_
  rw [getElem?_load, getElem?_patch, List.getElem?_take, Nat.add_sub_cancel_left]
  split_ifs with h₁ h₂
  · rfl
  · omega
  · rfl

/-- A load of the last cells of a store that lies inside the block. -/
theorem load_patch_suffix {m : List α} {a k : ℕ} {new : List α}
    (hm : a + new.length ≤ m.length) :
    load (patch m a new) (a + k) (new.length - k) = new.drop k := by
  refine List.ext_getElem? fun i => ?_
  rw [getElem?_load, getElem?_patch, List.getElem?_drop, Nat.add_assoc, Nat.add_sub_cancel_left]
  split_ifs with h₁ h₂
  · rfl
  · omega
  · exact (List.getElem?_eq_none (by omega)).symm

/-- A load that misses the stored range does not see the store. -/
theorem load_patch_disjoint {m : List α} {a n b : ℕ} {new : List α}
    (h : a + n ≤ b ∨ b + new.length ≤ a) : load (patch m b new) a n = load m a n := by
  refine List.ext_getElem? fun i => ?_
  rw [getElem?_load, getElem?_load, getElem?_patch]
  split_ifs with h₁ h₂
  · omega
  · rfl
  · rfl

/-- The store through a cursor: what was written before it stays, what follows shrinks. -/
theorem store_cursor (done rest new : List α) (h : new.length ≤ rest.length) :
    store (done ++ rest) done.length new = some (done ++ new ++ rest.drop new.length) := by
  rw [store, if_pos (by simpa using h), patch, List.take_left, List.drop_left, overlay_of_le h,
    List.append_assoc]

end Block
