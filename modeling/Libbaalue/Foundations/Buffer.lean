import Mathlib.Data.List.Range

/-!
# Buffers of a caller

What a function does to the memory that a pointer points to: the cells, and the indexes that it
writes, in order. Where the caller's object ends is not known here; a store behind it is a store
like any other, and `WritesBelow n` says that there is none from index `n` on.

* `front`: the first cells, as a list, with its rules for stores.
* `fill`: a store to each of the first `n` cells.

The history of the indexes is kept beside the cells because the two answer different questions. The
cells say what is read back later; the indexes say whether the function stayed inside the object it
was given, which its caller has to know even where the byte that was written is the byte that was
there before. A loop is then specified by what it does to both, by induction on the number of its
turns.
-/

/-- The memory behind a pointer, and the indexes written so far. The memory has no end: what may be
written is a matter of the caller, and is stated by means of the indexes. -/
structure Buffer (α : Type*) where
  cell : ℕ → α
  written : List ℕ

namespace Buffer

variable {α : Type*}

/-- Memory to which nothing has been written, with whatever is in it. -/
def fresh (cell : ℕ → α) : Buffer α := ⟨cell, []⟩

/-- Write one cell. -/
def store (b : Buffer α) (i : ℕ) (a : α) : Buffer α :=
  ⟨Function.update b.cell i a, b.written ++ [i]⟩

/-- The first `n` cells, whether they were written or not. -/
def front (b : Buffer α) (n : ℕ) : List α := (List.range n).map b.cell

/-- Nothing is written from index `n` on, so that `n` cells are room enough. -/
def WritesBelow (b : Buffer α) (n : ℕ) : Prop := ∀ i ∈ b.written, i < n

/-- Write the first `n` cells, one after the other. -/
def fill (b : Buffer α) (f : ℕ → α) (n : ℕ) : Buffer α :=
  (List.range n).foldl (fun b i => b.store i (f i)) b

variable (b : Buffer α)

@[simp]
theorem cell_store (i : ℕ) (a : α) : (b.store i a).cell = Function.update b.cell i a := rfl

@[simp]
theorem written_store (i : ℕ) (a : α) : (b.store i a).written = b.written ++ [i] := rfl

theorem front_succ (n : ℕ) : b.front (n + 1) = b.front n ++ [b.cell n] := by
  rw [front, List.range_succ, List.map_append, List.map_singleton, front]

/-- A store behind the first cells does not show in them. -/
theorem front_store_of_le {n i : ℕ} (h : n ≤ i) (a : α) : (b.store i a).front n = b.front n := by
  refine List.map_congr_left fun j hj => ?_
  have hne : j ≠ i := (lt_of_lt_of_le (List.mem_range.mp hj) h).ne
  exact Function.update_of_ne hne a b.cell

/-- A store right behind the first cells extends them. -/
theorem front_store_succ (n : ℕ) (a : α) : (b.store n a).front (n + 1) = b.front n ++ [a] := by
  rw [front_succ, front_store_of_le b le_rfl, cell_store, Function.update_self]

/-! ### Filling -/

theorem fill_succ (f : ℕ → α) (n : ℕ) : b.fill f (n + 1) = (b.fill f n).store n (f n) := by
  rw [fill, List.range_succ, List.foldl_append, List.foldl_cons, List.foldl_nil, fill]

@[simp]
theorem written_fill (f : ℕ → α) (n : ℕ) : (b.fill f n).written = b.written ++ List.range n := by
  induction n with
  | zero => rw [List.range_zero, List.append_nil, fill, List.range_zero, List.foldl_nil]
  | succ n ih => rw [fill_succ, written_store, ih, List.range_succ, List.append_assoc]

theorem cell_fill (f : ℕ → α) (n i : ℕ) :
    (b.fill f n).cell i = if i < n then f i else b.cell i := by
  induction n with
  | zero => rfl
  | succ n ih =>
    rw [fill_succ, cell_store]
    rcases eq_or_ne i n with rfl | hne
    · rw [Function.update_self, if_pos (Nat.lt_succ_self i)]
    · rw [Function.update_of_ne hne, ih]
      have hlt : i < n + 1 ↔ i < n := by omega
      simp only [hlt]

/-- The first cells that were filled. -/
theorem front_fill_of_le (f : ℕ → α) {k n : ℕ} (h : k ≤ n) :
    (b.fill f n).front k = (List.range k).map f := by
  refine List.map_congr_left fun i hi => ?_
  rw [cell_fill, if_pos (lt_of_lt_of_le (List.mem_range.mp hi) h)]

end Buffer
