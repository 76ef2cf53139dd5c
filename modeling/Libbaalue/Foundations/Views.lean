import Libbaalue.Foundations.LabelledSystem
import Mathlib.Data.List.Basic
import Mathlib.Data.List.FinRange

/-!
# Systems of many members

A system in which several members share something, looked at from each of them: `view i s` is
the part of the state `s` that concerns member `i`.

* `Views`: every step of the system is, in every view, a move that keeps a predicate; the
  predicate then holds in every view of every reachable state (`Views.reachable`).
* `memberAt addr a`: the member with an address, when no two members have the same one.
* `ownedBy i l`: the part of a tagged list that belongs to `i`. Appending an entry, and taking
  one out anywhere, is the same operation on its owner's part and none on the others'.

The point of the composition is that nothing is proved twice. A system with one member is proved
right once, with its own invariant; the system with many is then a matter of showing what each of
its steps is in the view of the one who moves, and that it is nothing in the views of the others,
apart from what the medium between them may do to anybody.
-/

namespace LabelledSystem

variable {σ τ α ι : Type*}

/-- The members of `S` and what each of them sees: under the invariant `inv` every step is in
every view a move or nothing, and moves keep the predicate of the view. -/
structure Views (S : LabelledSystem σ α) (view : ι → σ → τ) (inv : σ → Prop) (P : ι → τ → Prop)
    (move : ι → τ → τ → Prop) : Prop where
  inv_init : inv S.init
  view_init : ∀ i, P i (view i S.init)
  inv_step : ∀ s a t, inv s → (∀ i, P i (view i s)) → S.step s a = some t → inv t
  view_step : ∀ s a t, inv s → (∀ i, P i (view i s)) → S.step s a = some t →
    ∀ i, view i t = view i s ∨ move i (view i s) (view i t)
  keeps : ∀ i v w, P i v → move i v w → P i w

/-- **What holds in every view.** In every reachable state the invariant holds, and each member sees
a state in which what its own moves keep is true, whatever all the others have done. -/
theorem Views.reachable {S : LabelledSystem σ α} {view : ι → σ → τ} {inv : σ → Prop}
    {P : ι → τ → Prop} {move : ι → τ → τ → Prop} (V : Views S view inv P move) {s : σ}
    (h : S.Reachable s) : inv s ∧ ∀ i, P i (view i s) := by
  refine h.invariant (P := fun s => inv s ∧ ∀ i, P i (view i s)) ⟨V.inv_init, V.view_init⟩
    fun s a t _ ⟨hinv, hviews⟩ hst => ⟨V.inv_step s a t hinv hviews hst, fun i => ?_⟩
  rcases V.view_step s a t hinv hviews hst i with heq | hmove
  · exact heq ▸ hviews i
  · exact V.keeps i _ _ (hviews i) hmove

end LabelledSystem

/-! ### Members by address -/

section MemberAt

variable {α : Type*} [DecidableEq α] {n : ℕ} {addr : Fin n → α}

/-- The member with an address; the first one where several have the same. -/
def memberAt (addr : Fin n → α) (a : α) : Option (Fin n) :=
  (List.finRange n).find? fun i => addr i = a

theorem memberAt_eq_some_iff (haddr : Function.Injective addr) {a : α} {i : Fin n} :
    memberAt addr a = some i ↔ addr i = a := by
  constructor
  · intro h
    simpa using List.find?_some h
  · rintro rfl
    rcases hfound : memberAt addr (addr i) with _ | j
    · have hnone := List.find?_eq_none.mp hfound i (List.mem_finRange i)
      simp at hnone
    · have heq : addr j = addr i := by simpa using List.find?_some hfound
      rw [haddr heq]

/-- The address of nobody. -/
theorem memberAt_eq_none {a : α} (h : ∀ i, a ≠ addr i) : memberAt addr a = none :=
  List.find?_eq_none.mpr fun i _ => by simpa using (h i).symm

end MemberAt

/-! ### Tagged lists -/

section OwnedBy

variable {ι α β : Type*} [DecidableEq ι] {i j : ι}

/-- The entries of a tagged list that belong to `i`, in order. -/
def ownedBy (i : ι) (l : List (ι × α)) : List α :=
  l.filterMap fun p => if p.1 = i then some p.2 else none

@[simp]
theorem ownedBy_nil : ownedBy i ([] : List (ι × α)) = [] := rfl

@[simp]
theorem ownedBy_append (l m : List (ι × α)) : ownedBy i (l ++ m) = ownedBy i l ++ ownedBy i m :=
  List.filterMap_append

/-- An entry belongs to its owner. -/
theorem ownedBy_cons (p : ι × α) (l : List (ι × α)) :
    ownedBy i (p :: l) = if p.1 = i then p.2 :: ownedBy i l else ownedBy i l := by
  split_ifs with h <;> simp [ownedBy, h]

theorem ownedBy_singleton (p : ι × α) : ownedBy i [p] = if p.1 = i then [p.2] else [] :=
  ownedBy_cons p []

/-- The part of a list all of whose entries belong to someone else. -/
theorem ownedBy_eq_nil {l : List (ι × α)} (h : ∀ p ∈ l, p.1 ≠ i) : ownedBy i l = [] := by
  rw [ownedBy, List.filterMap_eq_nil_iff]
  exact fun p hp => if_neg (h p hp)

theorem mem_ownedBy_iff {l : List (ι × α)} {a : α} : a ∈ ownedBy i l ↔ (i, a) ∈ l := by
  simp only [ownedBy, List.mem_filterMap, Option.ite_none_right_eq_some, Option.some.injEq]
  constructor
  · rintro ⟨⟨j, b⟩, hp, rfl, rfl⟩
    exact hp
  · exact fun h => ⟨_, h, rfl, rfl⟩

/-- An entry of another owner. -/
theorem ownedBy_concat_of_ne (h : j ≠ i) (a : α) (l : List (ι × α)) :
    ownedBy i (l ++ [(j, a)]) = ownedBy i l := by
  rw [ownedBy_append, ownedBy_singleton, if_neg h, List.append_nil]

/-- An entry of the owner. -/
theorem ownedBy_concat_self (a : α) (l : List (ι × α)) :
    ownedBy i (l ++ [(i, a)]) = ownedBy i l ++ [a] := by
  rw [ownedBy_append, ownedBy_singleton, if_pos rfl]

/-- Taking out an entry of another owner. -/
theorem ownedBy_eraseIdx_of_ne {l : List (ι × α)} {k : ℕ} {p : ι × α} (hk : l[k]? = some p)
    (h : p.1 ≠ i) : ownedBy i (l.eraseIdx k) = ownedBy i l := by
  obtain ⟨hlt, rfl⟩ := List.getElem?_eq_some_iff.mp hk
  have hsplit : l = l.take k ++ l[k] :: l.drop (k + 1) := by
    rw [List.getElem_cons_drop, List.take_append_drop]
  rw [List.eraseIdx_eq_take_drop_succ]
  conv_rhs => rw [hsplit]
  rw [ownedBy_append, ownedBy_append, ownedBy_cons, if_neg h]

/-- Taking out an entry of the owner: its position among the owner's. -/
theorem exists_ownedBy_eraseIdx {l : List (ι × α)} {k : ℕ} {a : α} (hk : l[k]? = some (i, a)) :
    ∃ m, (ownedBy i l)[m]? = some a ∧ ownedBy i (l.eraseIdx k) = (ownedBy i l).eraseIdx m := by
  obtain ⟨hlt, hget⟩ := List.getElem?_eq_some_iff.mp hk
  have hsplit : l = l.take k ++ (i, a) :: l.drop (k + 1) := by
    rw [← hget, List.getElem_cons_drop, List.take_append_drop]
  have hown : ownedBy i l = ownedBy i (l.take k) ++ a :: ownedBy i (l.drop (k + 1)) := by
    conv_lhs => rw [hsplit]
    rw [ownedBy_append, ownedBy_cons, if_pos rfl]
  refine ⟨(ownedBy i (l.take k)).length, ?_, ?_⟩
  · rw [hown, List.getElem?_append_right (Nat.le_refl _), Nat.sub_self, List.getElem?_cons_zero]
  · rw [List.eraseIdx_eq_take_drop_succ, ownedBy_append, hown,
      List.eraseIdx_append_of_length_le (Nat.le_refl _), Nat.sub_self, List.eraseIdx_cons_zero]

end OwnedBy
