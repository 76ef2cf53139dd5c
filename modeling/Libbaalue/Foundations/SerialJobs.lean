import Mathlib.Algebra.BigOperators.Intervals
import Mathlib.Algebra.Order.Group.MinMax
import Mathlib.Order.Bounds.Basic
import Mathlib.Tactic.Abel

/-!
# Jobs one after the other

A server does its jobs in order. Job `k` is due at `due k` and takes `work k`; it begins as soon
as it is due and the job before it has ended, the first one not before `now`.

* `isGreatest_begins`: when a job begins, in closed form: the latest of the times at which a
  stretch of jobs that ends with it could begin, had it not waited for anything else.
* `begins_eq_due_iff`: when all jobs begin on time.
* `late_le_of_slack`: how a delay is made up for.

Times are of any linearly ordered group, and jobs may be due at one time, or in any order of times.
The closed form is proved by induction on the number of jobs with the start generalised, since a
stretch that ends with the next job either goes on from one that ended before it or begins with it.
-/

open Finset

namespace SerialJobs

variable {α : Type*} [AddCommGroup α] [LinearOrder α]

/-- When job `n` begins: it is due at a time, and the job before it has to have ended. The first one
can begin at `now`. -/
def begins (now : α) (due work : ℕ → α) : ℕ → α
  | 0 => max now (due 0)
  | n + 1 => max (begins now due work n + work n) (due (n + 1))

/-- The work of the jobs from `m` on that come before job `n`. -/
def load (work : ℕ → α) (m n : ℕ) : α := ∑ i ∈ Ico m n, work i

/-- How much later than due job `n` begins; it is never negative. -/
def late (now : α) (due work : ℕ → α) (n : ℕ) : α := begins now due work n - due n

variable {now : α} {due work : ℕ → α}

/-- No job begins before it is due. -/
theorem due_le_begins (n : ℕ) : due n ≤ begins now due work n := by
  cases n with
  | zero => exact le_max_right _ _
  | succ n => exact le_max_right _ _

/-- The jobs behind the first one, from its end on. -/
theorem begins_tail (n : ℕ) :
    begins (max now (due 0) + work 0) (fun i => due (i + 1)) (fun i => work (i + 1)) n =
      begins now due work (n + 1) := by
  induction n with
  | zero => rfl
  | succ n ih =>
    rw [begins, ih]
    rfl

omit [LinearOrder α] in
@[simp]
theorem load_self (n : ℕ) : load work n n = 0 := by rw [load, Ico_self, sum_empty]

omit [LinearOrder α] in
theorem load_succ {m n : ℕ} (h : m ≤ n) : load work m (n + 1) = load work m n + work n :=
  sum_Ico_succ_top h work

/-- **When all jobs begin on time**: the first one can, and each has ended when the next is due. -/
theorem begins_eq_due_iff (n : ℕ) :
    (∀ k ≤ n, begins now due work k = due k) ↔
      now ≤ due 0 ∧ ∀ k < n, due k + work k ≤ due (k + 1) := by
  constructor
  · intro h
    refine ⟨max_eq_right_iff.mp (h 0 (Nat.zero_le n)), fun k hk => ?_⟩
    have hnext := h (k + 1) hk
    rw [begins, h k hk.le] at hnext
    exact max_eq_right_iff.mp hnext
  · rintro ⟨hfirst, hnext⟩ k hk
    induction k with
    | zero => exact max_eq_right hfirst
    | succ k ih =>
      rw [begins, ih (Nat.le_of_succ_le hk)]
      exact max_eq_right (hnext k hk)

/-- The times at which a stretch of jobs that ends with job `n` lets it begin. -/
def stretches (now : α) (due work : ℕ → α) (n : ℕ) : Set α :=
  insert (now + load work 0 n) {x | ∃ k ≤ n, x = due k + load work k n}

omit [LinearOrder α] in
/-- A stretch goes on with the next job, or begins with it. -/
theorem mem_stretches_succ {n : ℕ} {x : α} :
    x ∈ stretches now due work (n + 1) ↔
      (∃ y ∈ stretches now due work n, x = y + work n) ∨ x = due (n + 1) := by
  constructor
  · rintro (rfl | ⟨k, hk, rfl⟩)
    · refine .inl ⟨_, .inl rfl, ?_⟩
      rw [load_succ (Nat.zero_le n), add_assoc]
    · rcases Nat.le_succ_iff.mp hk with hk | rfl
      · refine .inl ⟨_, .inr ⟨k, hk, rfl⟩, ?_⟩
        rw [load_succ hk, add_assoc]
      · exact .inr (by rw [load_self, add_zero])
  · rintro (⟨y, rfl | ⟨k, hk, rfl⟩, rfl⟩ | rfl)
    · refine .inl ?_
      rw [load_succ (Nat.zero_le n), add_assoc]
    · refine .inr ⟨k, Nat.le_succ_of_le hk, ?_⟩
      rw [load_succ hk, add_assoc]
    · exact .inr ⟨n + 1, le_rfl, by rw [load_self, add_zero]⟩

variable [IsOrderedAddMonoid α]

/-- **When a job begins.** It is the latest of the times at which a stretch of jobs without a pause
would end that leads up to it, from `now` or from the time one of the jobs was due. -/
theorem isGreatest_begins (n : ℕ) :
    IsGreatest (stretches now due work n) (begins now due work n) := by
  induction n with
  | zero =>
    have hset : stretches now due work 0 = {now, due 0} := by
      ext x
      simp [stretches]
    rw [hset, begins]
    exact isGreatest_pair
  | succ n ih =>
    constructor
    · rw [mem_stretches_succ, begins]
      rcases max_choice (begins now due work n + work n) (due (n + 1)) with h | h
      · exact .inl ⟨_, ih.1, h⟩
      · exact .inr h
    · intro x hx
      rcases mem_stretches_succ.mp hx with ⟨y, hy, rfl⟩ | rfl
      · exact le_max_of_le_left (add_le_add_left (ih.2 hy) _)
      · exact due_le_begins _

/-- The delay of a job is that of the one before, its work, and what there was of time. -/
theorem late_succ (n : ℕ) :
    late now due work (n + 1) =
      max (late now due work n + work n - (due (n + 1) - due n)) 0 := by
  rw [late, begins, ← max_sub_sub_right, sub_self, late]
  congr 1
  abel

/-- **A delay is made up for**, a slack at a time: as long as each job leaves as much of its time,
the delay goes down by that with every job, until there is none. -/
theorem late_le_of_slack {slack : α} (hslack : 0 ≤ slack) {m : ℕ} (j : ℕ)
    (h : ∀ i < j, work (m + i) + slack ≤ due (m + i + 1) - due (m + i)) :
    late now due work (m + j) ≤ max (late now due work m - j • slack) 0 := by
  induction j with
  | zero => exact le_max_of_le_left (by rw [zero_nsmul, sub_zero, add_zero])
  | succ j ih =>
    have hprev := ih fun i hi => h i (Nat.lt_succ_of_lt hi)
    have hroom : work (m + j) - (due (m + j + 1) - due (m + j)) ≤ -slack := by
      rw [sub_le_iff_le_add, neg_add_eq_sub, le_sub_iff_add_le]
      exact h j (Nat.lt_succ_self j)
    rw [← add_assoc, late_succ, add_sub_assoc]
    refine max_le ?_ (le_max_right _ _)
    calc
      late now due work (m + j) + (work (m + j) - (due (m + j + 1) - due (m + j)))
          ≤ max (late now due work m - j • slack) 0 + -slack := add_le_add hprev hroom
      _ = max (late now due work m - (j + 1) • slack) (-slack) := by
        rw [← max_add_add_right, zero_add, succ_nsmul]
        congr 1
        abel
      _ ≤ max (late now due work m - (j + 1) • slack) 0 :=
        max_le_max le_rfl (neg_nonpos.mpr hslack)

end SerialJobs
