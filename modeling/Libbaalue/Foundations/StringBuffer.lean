import Libbaalue.Foundations.Buffer
import Mathlib.Data.List.TakeWhile

/-!
# Strings in a buffer

A string in a buffer ends at its first zero cell. `put` writes a list of cells, `putString` a
string with its terminator, as much of it as fits into the `size` cells it is given, and `strcat`
appends to the string that is there.

`Holds` says which string a buffer holds; each operation says what it makes of it
(`holds_putString`, `holds_strcat`), and `string_of_holds` reads it back. What an operation
writes is a range of cells (`written_put`, `writesBelow_put_iff`).

The size is an argument of each operation, as it is in C, and has nothing to do with the object the
buffer lies in: an operation that is told a wrong size writes behind the object, which shows in what
it has written and nowhere else. A text that contains a zero cell is cut there when it is read back,
so the lemmas ask for texts without one.
-/

namespace Buffer

variable {α : Type*} (b : Buffer α)

/-- Write the cells of a list from index `a` on, one after the other. -/
def put (b : Buffer α) (a : ℕ) : List α → Buffer α
  | [] => b
  | x :: l => (b.store a x).put (a + 1) l

/-- A list written right behind the first cells extends them. -/
theorem front_put (n : ℕ) (l : List α) : (b.put n l).front (n + l.length) = b.front n ++ l := by
  induction l generalizing b n with
  | nil => rw [put, List.length_nil, Nat.add_zero, List.append_nil]
  | cons x l ih =>
    rw [put, List.length_cons, Nat.add_comm l.length, ← Nat.add_assoc, ih, front_store_succ,
      List.append_assoc, List.singleton_append]

@[simp]
theorem written_put (a : ℕ) (l : List α) :
    (b.put a l).written = b.written ++ List.range' a l.length := by
  induction l generalizing b a with
  | nil => simp [put]
  | cons x l ih =>
    rw [put, ih, written_store, List.length_cons, List.range'_succ, List.append_assoc,
      List.singleton_append]

/-- A list is written inside the buffer if and only if it ends there. -/
theorem writesBelow_put_iff {b : Buffer α} {n a : ℕ} {l : List α} (hb : b.WritesBelow n) :
    (b.put a l).WritesBelow n ↔ l = [] ∨ a + l.length ≤ n := by
  rw [WritesBelow, written_put]
  constructor
  · intro h
    rcases List.eq_nil_or_concat l with hnil | ⟨l', x, rfl⟩
    · exact .inl hnil
    · -- the last cell that is written
      have hlast := h (a + l'.length) (List.mem_append_right _ (by simp))
      rw [List.concat_eq_append, List.length_append, List.length_singleton]
      exact .inr (by omega)
  · rintro h i hi
    rcases List.mem_append.mp hi with hold | hnew
    · exact hb i hold
    · obtain ⟨hle, hlt⟩ := List.mem_range'_1.mp hnew
      rcases h with rfl | hend
      · simp at hlt
        omega
      · omega

theorem writesBelow_put {b : Buffer α} {n a : ℕ} {l : List α} (hb : b.WritesBelow n)
    (h : a + l.length ≤ n) : (b.put a l).WritesBelow n :=
  (writesBelow_put_iff hb).mpr (.inr h)

theorem front_take {k n : ℕ} (h : k ≤ n) : (b.front n).take k = b.front k := by
  rw [front, ← List.map_take, List.take_range, min_eq_left h, front]

/-! ### Strings -/

section Strings

variable [Zero α]

/-- The buffer holds the string `s`, from its first cell on and with a NUL behind it. What follows
the NUL does not matter. -/
def Holds (s : List α) : Prop := b.front (s.length + 1) = s ++ [0] ∧ 0 ∉ s

variable {b} in
theorem Holds.front {s : List α} (h : b.Holds s) : b.front s.length = s := by
  rw [← front_take b (Nat.le_succ _), h.1, List.take_left]

/-- A string written right behind cells without a zero extends them. -/
theorem holds_put {s text : List α} (hs : b.front s.length = s) (hs0 : 0 ∉ s) (htext : 0 ∉ text) :
    (b.put s.length (text ++ [0])).Holds (s ++ text) := by
  refine ⟨?_, ?_⟩
  · have hfront := b.front_put s.length (text ++ [0])
    rwa [hs, List.length_append, ← Nat.add_assoc, ← List.append_assoc,
      ← List.length_append] at hfront
  · rw [List.mem_append, not_or]
    exact ⟨hs0, htext⟩

/-- `snprintf`: as much of a text as fits into `size` cells, and its terminator. -/
def putString (a size : ℕ) (text : List α) : Buffer α :=
  if size = 0 then b else b.put a (text.take (size - 1) ++ [0])

theorem holds_putString {s text : List α} {size : ℕ} (hs : b.front s.length = s) (hs0 : 0 ∉ s)
    (htext : 0 ∉ text) (hsize : 0 < size) :
    (b.putString s.length size text).Holds (s ++ text.take (size - 1)) := by
  rw [putString, if_neg hsize.ne']
  exact b.holds_put hs hs0 fun h => htext (List.mem_of_mem_take h)

theorem writesBelow_putString {b : Buffer α} {n a size : ℕ} (hb : b.WritesBelow n)
    (h : a + size ≤ n) (text : List α) : (b.putString a size text).WritesBelow n := by
  rw [putString]
  split_ifs with hsize
  · exact hb
  · refine writesBelow_put hb ?_
    simp only [List.length_append, List.length_take, List.length_singleton]
    omega

variable [DecidableEq α]

/-- The string in the first `size` cells; it ends at the NUL, or with these cells where there is
none. -/
def string (size : ℕ) : List α := (b.front size).takeWhile (· ≠ 0)

/-- `strlen` of the string in the first `size` cells. -/
def strlen (size : ℕ) : ℕ := (b.string size).length

/-- `strcat` to the string in the first `size` cells: the NUL of the string is overwritten, and a
new one comes behind the text. -/
def strcat (size : ℕ) (text : List α) : Buffer α := b.put (b.strlen size) (text ++ [0])

variable {b} {s text : List α} {size : ℕ}

/-- **Reading a string back.** -/
theorem string_of_holds (h : b.Holds s) (hsize : s.length < size) :
    b.string size = s := by
  obtain ⟨hfront, hs⟩ := h
  have hall : ∀ x ∈ s, decide (x ≠ 0) = true := fun x hx =>
    decide_eq_true fun hx0 => hs (hx0 ▸ hx)
  have hsplit : b.front size = s ++ (0 :: (b.front size).drop (s.length + 1)) := by
    conv_lhs => rw [← List.take_append_drop (s.length + 1) (b.front size)]
    rw [front_take b hsize, hfront, List.append_assoc, List.singleton_append]
  rw [string, hsplit, List.takeWhile_append_of_pos hall, List.takeWhile_cons]
  simp

theorem holds_strcat (h : b.Holds s) (hsize : s.length < size)
    (htext : 0 ∉ text) : (b.strcat size text).Holds (s ++ text) := by
  rw [strcat, strlen, string_of_holds h hsize]
  exact b.holds_put h.front h.2 htext

end Strings

end Buffer
