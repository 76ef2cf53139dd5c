import Mathlib.Logic.Function.Basic
import Mathlib.Tactic.SplitIfs

/-!
# Monitors

A mutex with one condition variable, with the rules of POSIX: a wait gives the mutex back and
blocks in one step, a wake-up (there may be spurious ones) takes a thread out of the blocked
ones and lets it go on once it has the mutex again, and a broadcast wakes the threads that are
blocked at that moment and no others.

An operation returns `none` where the thread has to wait for it, or may not make it. A program
says which of its threads are `inside`, that is, at a place between lock and unlock; `Guards` is
the agreement of the mutex with these places, and its rules say that each operation keeps it.

No fairness and no order of the threads is assumed. A thread that was woken has to take the mutex
like any other, and may find that what it waited for is gone: whether a program copes with that, or
with a wake-up nobody sent, is a matter of the program and not of the monitor.
-/

/-- A mutex and a condition variable, over threads `θ`. A thread that waits has given the mutex back
and takes it again when it is woken, in competition with all others. -/
structure Monitor (θ : Type*) where
  /-- The thread that has the mutex. -/
  owner : Option θ
  /-- The threads that are blocked on the condition. -/
  blocked : θ → Bool

namespace Monitor

variable {θ : Type*}

/-- The mutex is free and nobody is blocked. -/
def idle : Monitor θ := ⟨none, fun _ => false⟩

/-- Wake the blocked threads, all that are blocked at this moment and none that comes later. -/
def broadcast (m : Monitor θ) : Monitor θ := { m with blocked := fun _ => false }

/-- Take the mutex. -/
def lock (m : Monitor θ) (t : θ) : Option (Monitor θ) :=
  if m.owner = none then some { m with owner := some t } else none

/-- Give the mutex back. -/
def unlock [DecidableEq θ] (m : Monitor θ) (t : θ) : Option (Monitor θ) :=
  if m.owner = some t then some { m with owner := none } else none

/-- Give the mutex back and block, in one step; only the owner of the mutex may wait. -/
def wait [DecidableEq θ] (m : Monitor θ) (t : θ) : Option (Monitor θ) :=
  if m.owner = some t then some ⟨none, Function.update m.blocked t true⟩ else none

/-- Wake one blocked thread: the step of a signal, and of a thread that wakes for no reason. -/
def wake [DecidableEq θ] (m : Monitor θ) (t : θ) : Option (Monitor θ) :=
  if m.blocked t then some { m with blocked := Function.update m.blocked t false } else none

/-- Take the mutex again, after a wait that is over. -/
def resume (m : Monitor θ) (t : θ) : Option (Monitor θ) :=
  if m.blocked t then none else m.lock t

/-! ### Who is inside -/

/-- The mutex belongs to the thread that is inside, and to nobody if no thread is. -/
def Guards (m : Monitor θ) (inside : θ → Prop) : Prop := ∀ t, m.owner = some t ↔ inside t

variable {m m' : Monitor θ} {inside inside' : θ → Prop} {t u : θ}

/-- **Mutual exclusion.** Of the threads that the mutex guards at most one is inside. -/
theorem Guards.unique (h : m.Guards inside) (ht : inside t) (hu : inside u) : t = u :=
  Option.some.inj (((h t).mpr ht).symm.trans ((h u).mpr hu))

/-- The places may be described in another way. -/
theorem Guards.congr (h : m.Guards inside) (hiff : ∀ t, inside' t ↔ inside t) :
    m.Guards inside' :=
  fun t => (h t).trans (hiff t).symm

/-- After a release nobody is inside. -/
theorem Guards.release (h : m.Guards inside) (howner : m.owner = some t) (hfree : m'.owner = none)
    (ht : ¬ inside' t) (hframe : ∀ u, u ≠ t → (inside' u ↔ inside u)) : m'.Guards inside' := by
  intro u
  rcases eq_or_ne u t with rfl | hne
  · exact iff_of_false (by simp [hfree]) ht
  · refine iff_of_false (by simp [hfree]) fun hu => hne ?_
    exact h.unique ((hframe u hne).mp hu) ((h t).mp howner)

/-- Who takes the mutex finds nobody inside. -/
theorem Guards.lock (h : m.Guards inside) (hlock : m.lock t = some m') :
    (∀ u, ¬ inside u) ∧ m'.blocked = m.blocked ∧
      (inside' t → (∀ u, u ≠ t → (inside' u ↔ inside u)) → m'.Guards inside') := by
  unfold Monitor.lock at hlock
  split_ifs at hlock with hfree
  obtain rfl := Option.some.inj hlock
  have hnone (u : θ) : ¬ inside u := fun hu => by simpa [hfree] using (h u).mpr hu
  refine ⟨hnone, rfl, fun ht hframe u => ?_⟩
  rcases eq_or_ne u t with rfl | hne
  · exact iff_of_true rfl ht
  · exact iff_of_false (fun hu => hne (Option.some.inj hu).symm)
      fun hu => hnone u ((hframe u hne).mp hu)

/-- Who gives the mutex back was inside. -/
theorem Guards.unlock [DecidableEq θ] (h : m.Guards inside) (hunlock : m.unlock t = some m') :
    inside t ∧ m'.blocked = m.blocked ∧
      (¬ inside' t → (∀ u, u ≠ t → (inside' u ↔ inside u)) → m'.Guards inside') := by
  unfold Monitor.unlock at hunlock
  split_ifs at hunlock with howner
  obtain rfl := Option.some.inj hunlock
  exact ⟨(h t).mp howner, rfl, h.release howner rfl⟩

/-- Who waits was inside, and is blocked. -/
theorem Guards.wait [DecidableEq θ] (h : m.Guards inside) (hwait : m.wait t = some m') :
    inside t ∧ m'.blocked = Function.update m.blocked t true ∧
      (¬ inside' t → (∀ u, u ≠ t → (inside' u ↔ inside u)) → m'.Guards inside') := by
  unfold Monitor.wait at hwait
  split_ifs at hwait with howner
  obtain rfl := Option.some.inj hwait
  exact ⟨(h t).mp howner, rfl, h.release howner rfl⟩

/-- Who goes on after a wait is not blocked, and finds nobody inside. -/
theorem Guards.resume (h : m.Guards inside) (hresume : m.resume t = some m') :
    m.blocked t = false ∧ (∀ u, ¬ inside u) ∧ m'.blocked = m.blocked ∧
      (inside' t → (∀ u, u ≠ t → (inside' u ↔ inside u)) → m'.Guards inside') := by
  unfold Monitor.resume at hresume
  split_ifs at hresume with hblocked
  exact ⟨Bool.eq_false_iff.mpr hblocked, h.lock hresume⟩

end Monitor
