import Mathlib.Data.List.DropRight

/-!
# Path names

A path name leads to a file in two steps. The part up to the last separator leads to a directory,
in a way that depends on who looks it up and when: on the working directory, on links and on
mounts. The part behind the last separator names an entry of this directory. A file that is made
or removed by its path is therefore known by a directory and a name, whoever wrote the path, and
paths with different last parts are never those of one file, whatever directories they lead to.

The last part is the one thing the bytes of a path say about its file for certain. `lastPart` takes
it, and the lemmas tell how a text that is put together by appending ends.

Separators are a parameter and names are lists, so nothing here depends on how a system spells its
paths. That a path leads to a file is thus never decided here: a user of the library says at each
operation which directory the path led to, and what holds whatever it was is a fact about names.
-/

/-- An entry of a directory: the directory, and the name it has there. Two paths lead to one file if
they lead to one entry, however they are spelled. -/
structure DirEntry (α : Type*) where
  dir : ℕ
  name : List α
  deriving DecidableEq, Repr

section LastPart

variable {α : Type*} [DecidableEq α]

/-- What stands behind the last separator; the whole path if it has none. -/
def lastPart (sep : α) (path : List α) : List α := path.rtakeWhile (· ≠ sep)

/-- The entry a path leads to, when its directory is the one given. Where the directory part leads
depends on the working directory and on links, and is for the environment to say. -/
def DirEntry.ofPath (sep : α) (dir : ℕ) (path : List α) : DirEntry α := ⟨dir, lastPart sep path⟩

variable {sep : α} {a b s t : List α}

/-- Text without a separator is part of the last part. -/
theorem lastPart_append (hb : sep ∉ b) (a : List α) :
    lastPart sep (a ++ b) = lastPart sep a ++ b := by
  induction b using List.reverseRecOn with
  | nil => rw [List.append_nil, List.append_nil]
  | append_singleton b x ih =>
    have hx : x ≠ sep := fun h => hb (by simp [h])
    rw [← List.append_assoc, lastPart, List.rtakeWhile_concat_pos _ _ _ (by simpa using hx),
      ← List.append_assoc]
    exact congrArg (· ++ [x]) (ih fun h => hb (List.mem_append_left _ h))

/-- Text behind a separator is the last part. -/
theorem lastPart_append_cons (hb : sep ∉ b) (a : List α) :
    lastPart sep (a ++ sep :: b) = b := by
  have hsplit : a ++ sep :: b = a ++ [sep] ++ b := by rw [List.append_assoc, List.singleton_append]
  rw [hsplit, lastPart_append hb, lastPart, List.rtakeWhile_concat_neg _ _ _ (by simp),
    List.nil_append]

/-- Two texts that end in parts of their own are equal only if these are. -/
theorem eq_of_append_cons_eq (ha : sep ∉ a) (hb : sep ∉ b)
    (h : s ++ sep :: a = t ++ sep :: b) : a = b := by
  rw [← lastPart_append_cons ha s, h, lastPart_append_cons hb]

end LastPart
