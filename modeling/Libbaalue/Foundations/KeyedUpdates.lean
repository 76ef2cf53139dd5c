import Libbaalue.Foundations.Views
import Mathlib.Logic.Function.Basic

/-!
# Operations on the entries of a table

A table gives every key a value, and an operation acts on the value at its own key. What a
sequence of operations leaves at a key is what the operations with that key leave
(`KeyedOps.run_apply`), so two sequences that agree on the operations with a key leave the same
value there: the operations of others do not matter, and neither does the order in which they
come between one's own.

The action of an operation may read the value it replaces, and may leave it alone, so that an
operation that is refused is one like any other. The results are about sequences of any length;
where the sequence is a list of operations tagged with their owners, the part of one owner is
`ownedBy` (`run_apply_ownedBy`).
-/

/-- Operations on the entries of a table: each has a key, and changes the entry there without
looking at any other. -/
structure KeyedOps (κ V O : Type*) where
  key : O → κ
  act : O → V → V

namespace KeyedOps

variable {κ V O ι : Type*} [DecidableEq κ] [DecidableEq ι]

/-- The table after one operation. -/
def apply (K : KeyedOps κ V O) (m : κ → V) (o : O) : κ → V :=
  Function.update m (K.key o) (K.act o (m (K.key o)))

/-- The table after a sequence of operations. -/
def run (K : KeyedOps κ V O) (m : κ → V) (ops : List O) : κ → V := ops.foldl K.apply m

variable (K : KeyedOps κ V O)

@[simp]
theorem run_nil (m : κ → V) : K.run m [] = m := rfl

@[simp]
theorem run_cons (m : κ → V) (o : O) (ops : List O) :
    K.run m (o :: ops) = K.run (K.apply m o) ops := rfl

theorem run_append (m : κ → V) (ops ops' : List O) :
    K.run m (ops ++ ops') = K.run (K.run m ops) ops' := List.foldl_append

variable {K}

theorem apply_of_ne {o : O} {k : κ} (h : K.key o ≠ k) (m : κ → V) : K.apply m o k = m k :=
  Function.update_of_ne h.symm _ _

theorem apply_of_eq {o : O} {k : κ} (h : K.key o = k) (m : κ → V) :
    K.apply m o k = K.act o (m k) := by
  subst h
  exact Function.update_self _ _ _

/-- **One key.** The entry of a key after a sequence of operations is what the operations with that
key make of it, in their order; the operations with other keys do not matter. -/
theorem run_apply (m : κ → V) (ops : List O) (k : κ) :
    K.run m ops k = (ops.filter fun o => K.key o = k).foldl (fun v o => K.act o v) (m k) := by
  induction ops generalizing m with
  | nil => rfl
  | cons o ops ih =>
    rw [run_cons, ih, List.filter_cons]
    by_cases h : K.key o = k
    · simp [h, apply_of_eq h]
    · simp [h, apply_of_ne h]

/-- Sequences that agree on a key. -/
theorem run_apply_congr {m : κ → V} {ops ops' : List O} {k : κ}
    (h : ops.filter (fun o => K.key o = k) = ops'.filter fun o => K.key o = k) :
    K.run m ops k = K.run m ops' k := by
  rw [run_apply, run_apply, h]

/-- A key that no operation has. -/
theorem run_apply_of_forall_ne {m : κ → V} {ops : List O} {k : κ} (h : ∀ o ∈ ops, K.key o ≠ k) :
    K.run m ops k = m k := by
  rw [run_apply, List.filter_eq_nil_iff.mpr (by simpa using h), List.foldl_nil]

/-- **Sharing a table.** What many leave at a key that only one of them names is what that one
leaves alone, wherever the operations of the others come. -/
theorem run_apply_ownedBy {β : Type*} (f : β → List O) {m : κ → V} {l : List (ι × β)} {i : ι}
    {k : κ} (h : ∀ p ∈ l, p.1 ≠ i → ∀ o ∈ f p.2, K.key o ≠ k) :
    K.run m ((l.map Prod.snd).flatMap f) k = K.run m ((ownedBy i l).flatMap f) k := by
  refine run_apply_congr ?_
  induction l with
  | nil => rfl
  | cons p l ih =>
    have ih := ih fun q hq => h q (List.mem_cons_of_mem p hq)
    rw [List.map_cons, List.flatMap_cons, List.filter_append, ih, ownedBy_cons]
    split_ifs with hown
    · rw [List.flatMap_cons, List.filter_append]
    · rw [List.filter_eq_nil_iff.mpr (by simpa using h p List.mem_cons_self hown), List.nil_append]

end KeyedOps
