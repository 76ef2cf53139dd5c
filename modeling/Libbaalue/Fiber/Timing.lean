import Libbaalue.Fiber.TimeGrid
import Libbaalue.Foundations.SerialJobs

/-!
# When the function group of a fiber starts

The loop of `baa_fiber` on a clock: a sleep ends at its deadline, or at once where that has
passed, and the kernel takes what time it likes to switch to the thread; a sleep that is
interrupted may end at any time, one that is refused ends at once. Then the function group runs,
for as long as it likes.

A fiber is a server of jobs then, due on its time grid (`activations_eq`). So no execution begins
before its deadline, none is left out, and one that comes too late delays the others exactly as
long as there is work ahead of them (`fiber_timing`); and the fiber is on its grid if and only if
no execution takes longer than the period, and back on it after a delay as soon as there was time
to make up for it (`fiber_on_grid`).

The clock counts nanoseconds and is read by nobody but the kernel. What a turn takes is split into
the delay of the switch and the work of the group, both arbitrary, and the statements about a delay
are about their sum. The general theory of such servers is in the library of serial jobs; here the
fiber is shown to be one, and its results are read in the words of the fiber.
-/

namespace Libbaalue

open SerialJobs

variable {abi : Abi}

/-- What the turns of a loop take, in nanoseconds. Both are arbitrary for every turn: a thread may
be preempted for as long as the system likes. -/
structure FiberClock where
  /-- From the end of a sleep to the start of the function group. -/
  switch : ℕ → ℕ
  /-- The function group, and what the loop does besides. -/
  work : ℕ → ℕ

/-- When the sleep of turn `k` has ended that was begun at `now`. A sleep to a deadline that has
passed ends at once. -/
def FiberClock.wake (env : FiberClock) (k : ℕ) (now : ℤ) (t : Timespec abi) : SleepRet → ℤ
  | .zero => max now t.ns + env.switch k
  | .eintr => now + env.switch k
  | .einval => now

/-- The times at which the function group is started, from turn `k` on, which begins at `now`. -/
def activations (env : FiberClock) : ℕ → ℤ → List (FiberEvent abi) → List ℤ
  | _, _, [] => []
  | k, now, .clockNanosleep t s :: events => activations env k (env.wake k now t s) events
  | k, now, .infoMsg _ :: events => activations env k now events
  | k, now, .func :: events => now :: activations env (k + 1) (now + env.work k) events

variable {env : FiberClock} {k : ℕ} {now : ℤ} {fiber fiber' : TimedFiber abi}
  {returned : List SleepRet} {events : List (FiberEvent abi)}

/-- One turn. -/
private theorem activations_turnEvents (t : Timespec abi) (s : SleepRet)
    (rest : List (FiberEvent abi)) :
    activations env k now (turnEvents t s ++ rest) =
      env.wake k now t s :: activations env (k + 1) (env.wake k now t s + env.work k) rest := by
  rw [turnEvents]
  split_ifs <;> rfl

/-! ### Every run -/

/-- Each sleep is followed by one start. -/
private theorem length_activations (hrun : fiberLoop fiber returned = some (events, fiber')) :
    (activations env k now events).length = returned.length := by
  induction returned generalizing fiber events k now with
  | nil =>
    obtain ⟨rfl, -⟩ := Prod.mk.inj (Option.some.inj hrun)
    rfl
  | cons s returned ih =>
    obtain ⟨t, rest, -, hrest, rfl⟩ := fiberLoop_cons_eq_some_iff.mp hrun
    rw [activations_turnEvents, List.length_cons, ih hrest, List.length_cons]

/-- A start behind a sleep that was not disturbed is not before its deadline. -/
theorem le_activation (ht : fiber.t.Normalised) (hdt : 0 ≤ fiber.dt.toInt)
    (hrun : fiberLoop fiber returned = some (events, fiber')) {j : ℕ}
    (hj : returned[j]? = some .zero) {a : ℤ} (ha : (activations env k now events)[j]? = some a) :
    fiber.t.ns + j * fiber.dt.toInt ≤ a := by
  induction returned generalizing fiber events k now j with
  | nil => simp at hj
  | cons s returned ih =>
    obtain ⟨t, rest, hnext, hrest, rfl⟩ := fiberLoop_cons_eq_some_iff.mp hrun
    rw [activations_turnEvents] at ha
    cases j with
    | zero =>
      obtain rfl := Option.some.inj hj
      obtain rfl := Option.some.inj ha
      simp only [FiberClock.wake, Nat.cast_zero, zero_mul, add_zero]
      exact (le_max_right _ _).trans (le_add_of_nonneg_right (Nat.cast_nonneg _))
    | succ j =>
      obtain ⟨-, ht', hns⟩ := (nextDeadline_eq_some_iff ht hdt).mp hnext
      have hle := @ih _ _ { fiber with t := t } _ ht' hdt hrest _ hj ha
      rw [hns] at hle
      push_cast
      linarith

/-- No turn starts the function group before it begins. -/
private theorem le_head_activations (hrun : fiberLoop fiber returned = some (events, fiber'))
    {a : ℤ} (ha : (activations env k now events)[0]? = some a) : now ≤ a := by
  cases returned with
  | nil =>
    obtain ⟨rfl, -⟩ := Prod.mk.inj (Option.some.inj hrun)
    cases ha
  | cons s returned =>
    obtain ⟨t, rest, -, -, rfl⟩ := fiberLoop_cons_eq_some_iff.mp hrun
    rw [activations_turnEvents] at ha
    obtain rfl := Option.some.inj ha
    cases s with
    | zero => exact (le_max_left _ _).trans (le_add_of_nonneg_right (Nat.cast_nonneg _))
    | eintr => exact le_add_of_nonneg_right (Nat.cast_nonneg _)
    | einval => exact le_rfl

/-- The function group is not started before it has ended. -/
private theorem activation_add_work_le (hrun : fiberLoop fiber returned = some (events, fiber'))
    {j : ℕ} {a b : ℤ} (ha : (activations env k now events)[j]? = some a)
    (hb : (activations env k now events)[j + 1]? = some b) : a + env.work (k + j) ≤ b := by
  induction returned generalizing fiber events k now j with
  | nil =>
    obtain ⟨rfl, -⟩ := Prod.mk.inj (Option.some.inj hrun)
    cases ha
  | cons s returned ih =>
    obtain ⟨t, rest, -, hrest, rfl⟩ := fiberLoop_cons_eq_some_iff.mp hrun
    rw [activations_turnEvents] at ha hb
    cases j with
    | zero =>
      obtain rfl := Option.some.inj ha
      exact le_head_activations hrest hb
    | succ j =>
      have hnext := ih hrest ha hb
      rwa [Nat.add_right_comm] at hnext

/-! ### Undisturbed runs -/

/-- The time grid of a fiber. -/
def TimedFiber.grid (fiber : TimedFiber abi) (j : ℕ) : ℤ := fiber.t.ns + j * fiber.dt.toInt

/-- What turn `k + j` takes of the time behind its deadline. -/
def FiberClock.effort (env : FiberClock) (k j : ℕ) : ℤ := env.switch (k + j) + env.work (k + j)

/-- **A fiber serves its grid**: it is a server of jobs that are due on the grid, one after the
other, and a start is when a job begins and the thread has been switched to. -/
theorem activations_eq {n : ℕ} (ht : fiber.t.Normalised) (hdt : 0 ≤ fiber.dt.toInt)
    (hrun : fiberLoop fiber (List.replicate n .zero) = some (events, fiber')) :
    activations env k now events =
      (List.range n).map fun j => begins now fiber.grid (env.effort k) j + env.switch (k + j) := by
  induction n generalizing fiber events k now with
  | zero =>
    obtain ⟨rfl, -⟩ := Prod.mk.inj (Option.some.inj hrun)
    rfl
  | succ n ih =>
    obtain ⟨t, rest, hnext, hrest, rfl⟩ := fiberLoop_cons_eq_some_iff.mp hrun
    obtain ⟨-, ht', hns⟩ := (nextDeadline_eq_some_iff ht hdt).mp hnext
    have hgrid : TimedFiber.grid { fiber with t := t } = fun j => fiber.grid (j + 1) := by
      funext j
      simp only [TimedFiber.grid, hns]
      push_cast
      ring
    have heffort : env.effort (k + 1) = fun j => env.effort k (j + 1) := by
      funext j
      simp only [FiberClock.effort, Nat.add_right_comm k 1 j, Nat.add_assoc]
    have hfirst : fiber.grid 0 = fiber.t.ns := by simp [TimedFiber.grid]
    have hstart : env.wake k now fiber.t .zero + env.work k =
        max now (fiber.grid 0) + env.effort k 0 := by
      rw [hfirst]
      exact add_assoc _ _ _
    have hrest' := @ih (k + 1) (env.wake k now fiber.t .zero + env.work k) { fiber with t := t } _
      ht' hdt hrest
    rw [activations_turnEvents, hrest', List.range_succ_eq_map, List.map_cons, List.map_map,
      hstart, hgrid, heffort]
    congr 1
    · rw [begins, hfirst]
      rfl
    · refine List.map_congr_left fun j _ => ?_
      rw [begins_tail, Function.comp_apply, Nat.add_right_comm k 1 j, Nat.add_assoc]

/-! ### From the clock on -/

/-- The grid of a fiber that has read its clock: from the next full second on, period by period. -/
def fiberGrid (fiber : TimedFiber abi) (now : Timespec abi) (j : ℕ) : ℤ :=
  (now.tvSec.toInt + 1) * nsecPerSec + j * fiber.dt.toInt

private theorem grid_startAt {sec : CLong abi} {now : Timespec abi}
    (hsec : sec.toInt = now.tvSec.toInt + 1) : (fiber.startAt sec).grid = fiberGrid fiber now := by
  funext j
  rw [TimedFiber.grid, TimedFiber.ns_startAt, TimedFiber.dt_startAt, hsec, fiberGrid]

/-- What is undisturbed is known by its length. -/
private theorem eq_replicate_zero (h : ∀ s ∈ returned, s = .zero) :
    returned = List.replicate returned.length .zero := List.eq_replicate_iff.mpr ⟨rfl, h⟩

/-- The starts of an undisturbed run. -/
theorem activations_baaFiber (hdt : 0 ≤ fiber.dt.toInt) {now : Timespec abi}
    (hrun : baaFiber fiber now returned = some (events, fiber')) (h : ∀ s ∈ returned, s = .zero)
    (env : FiberClock) (entered : ℤ) :
    activations env 0 entered events =
      (List.range returned.length).map fun j =>
        begins entered (fiberGrid fiber now) (env.effort 0) j + env.switch j := by
  obtain ⟨sec, hsec, hloop⟩ := baaFiber_eq_some_iff.mp hrun
  rw [eq_replicate_zero h] at hloop
  rw [activations_eq TimedFiber.normalised_startAt hdt hloop, grid_startAt hsec]
  simp only [Nat.zero_add]

/-- Start `j` of an undisturbed run. -/
theorem activation_baaFiber (hdt : 0 ≤ fiber.dt.toInt) {now : Timespec abi}
    (hrun : baaFiber fiber now returned = some (events, fiber')) (h : ∀ s ∈ returned, s = .zero)
    {env : FiberClock} {entered : ℤ} {j : ℕ} {a : ℤ}
    (ha : (activations env 0 entered events)[j]? = some a) :
    j < returned.length ∧
      a = begins entered (fiberGrid fiber now) (env.effort 0) j + env.switch j := by
  rw [activations_baaFiber hdt hrun h, List.getElem?_map, Option.map_eq_some_iff] at ha
  obtain ⟨i, hi, rfl⟩ := ha
  obtain ⟨hlt, hij⟩ := List.getElem?_eq_some_iff.mp hi
  rw [List.getElem_range] at hij
  exact ⟨by simpa using hlt, by rw [hij]⟩

/-- When the function group of a fiber is started: once for each sleep; behind a sleep that ended
at its deadline not before it, and never while it is still running. If all sleeps end so, then as
soon as nothing is left to wait for. -/
structure FiberTiming (fiber : TimedFiber abi) (now : Timespec abi) (returned : List SleepRet)
    (env : FiberClock) (entered : ℤ) (starts : List ℤ) : Prop where
  length_eq : starts.length = returned.length
  not_early : ∀ (j : ℕ) (a : ℤ), returned[j]? = some .zero → starts[j]? = some a →
    fiberGrid fiber now j ≤ a
  serial : ∀ (j : ℕ) (a b : ℤ), starts[j]? = some a → starts[j + 1]? = some b →
    a + env.work j ≤ b
  prompt : (∀ s ∈ returned, s = .zero) → ∀ (j : ℕ) (a : ℤ), starts[j]? = some a →
    IsGreatest (stretches entered (fiberGrid fiber now) (env.effort 0) j) (a - env.switch j)

/-- **When the function group of a fiber is started.** For every period that is not negative, every
run that does not overflow, whatever the sleeps return, and however long switches and executions
take. -/
theorem fiber_timing (hdt : 0 ≤ fiber.dt.toInt) {now : Timespec abi}
    (hrun : baaFiber fiber now returned = some (events, fiber')) (env : FiberClock)
    (entered : ℤ) :
    FiberTiming fiber now returned env entered (activations env 0 entered events) := by
  obtain ⟨sec, hsec, hloop⟩ := baaFiber_eq_some_iff.mp hrun
  refine ⟨length_activations hloop, fun j a hj ha => ?_, fun j a b ha hb => ?_,
    fun h j a ha => ?_⟩
  · have hle := le_activation TimedFiber.normalised_startAt hdt hloop hj ha
    rwa [TimedFiber.ns_startAt, TimedFiber.dt_startAt, hsec] at hle
  · have hle := activation_add_work_le hloop ha hb
    rwa [Nat.zero_add] at hle
  · obtain ⟨-, rfl⟩ := activation_baaFiber hdt hrun h ha
    rw [add_sub_cancel_right]
    exact isGreatest_begins j

/-- Two turns of the fiber with a period of 10 milliseconds, the first one of which takes 15. -/
def slowClock : FiberClock := ⟨fun _ => 0, fun k => if k = 0 then 15000000 else 1000000⟩

theorem fiber_timing_slow :
    ∃ events fiber', baaFiber fastFiber ⟨100, 5⟩ [.zero, .eintr, .zero] = some (events, fiber') ∧
      FiberTiming fastFiber ⟨100, 5⟩ [.zero, .eintr, .zero] slowClock 100000000005
        (activations slowClock 0 100000000005 events) := by
  have hsec : (⟨100, 5⟩ : Timespec .lp64).tvSec.toInt + 1 +
      ([.zero, .eintr, .zero] : List SleepRet).length * fastFiber.dt.toInt / nsecPerSec <
        2 ^ 63 := by
    decide
  obtain ⟨events, fiber', hrun⟩ := exists_baaFiber (by decide) hsec
  exact ⟨events, fiber', hrun, fiber_timing (by decide) hrun slowClock 100000000005⟩

/-! ### On the grid -/

/-- When a fiber keeps to its grid. With no time lost at a switch, it does so throughout if and
only if it comes to its loop in time and no execution but the last takes longer than the period.
With whatever time is lost, a delay is made up for by what the turns leave of their periods. -/
structure FiberOnGrid (fiber : TimedFiber abi) (now : Timespec abi) (n : ℕ) (env : FiberClock)
    (entered : ℤ) (starts : List ℤ) : Prop where
  on_grid_iff : 0 < n → (∀ j, env.switch j = 0) →
    (starts = (List.range n).map (fiberGrid fiber now) ↔
      entered ≤ fiberGrid fiber now 0 ∧ ∀ j, j + 1 < n → (env.work j : ℤ) ≤ fiber.dt.toInt)
  recovers : ∀ (m j slack : ℕ) (a b : ℤ), starts[m]? = some a → starts[m + j]? = some b →
    (∀ i < j, ((env.switch (m + i) + env.work (m + i) + slack : ℕ) : ℤ) ≤ fiber.dt.toInt) →
    b - env.switch (m + j) - fiberGrid fiber now (m + j) ≤
      max (a - env.switch m - fiberGrid fiber now m - j * slack) 0

/-- **On the grid, and back to it.** For every run whose sleeps end at their deadlines, whatever the
turns take. -/
theorem fiber_on_grid (hdt : 0 ≤ fiber.dt.toInt) {now : Timespec abi} {n : ℕ}
    (hrun : baaFiber fiber now (List.replicate n .zero) = some (events, fiber'))
    (env : FiberClock) (entered : ℤ) :
    FiberOnGrid fiber now n env entered (activations env 0 entered events) := by
  have hzero : ∀ s ∈ List.replicate n SleepRet.zero, s = .zero := fun s hs =>
    List.eq_of_mem_replicate hs
  have hgap (j : ℕ) : fiberGrid fiber now (j + 1) - fiberGrid fiber now j = fiber.dt.toInt := by
    rw [fiberGrid, fiberGrid]
    push_cast
    ring
  constructor
  · intro hpos hswitch
    have hstarts := activations_baaFiber hdt hrun hzero env entered
    simp only [List.length_replicate, hswitch, Nat.cast_zero, add_zero] at hstarts
    rw [hstarts, List.map_inj_left]
    obtain ⟨n, rfl⟩ := Nat.exists_eq_succ_of_ne_zero hpos.ne'
    have hiff : (∀ k ≤ n, begins entered (fiberGrid fiber now) (env.effort 0) k =
        fiberGrid fiber now k) ↔ _ := begins_eq_due_iff n
    simp only [List.mem_range, Nat.lt_succ_iff, hiff]
    refine and_congr_right fun _ => forall₂_congr fun j _ => ?_
    rw [← le_sub_iff_add_le', hgap, FiberClock.effort, Nat.zero_add, hswitch, Nat.cast_zero,
      zero_add]
  · intro m j slack a b ha hb h
    obtain ⟨-, rfl⟩ := activation_baaFiber hdt hrun hzero ha
    obtain ⟨-, rfl⟩ := activation_baaFiber hdt hrun hzero hb
    rw [add_sub_cancel_right, add_sub_cancel_right, ← nsmul_eq_mul]
    refine late_le_of_slack (Nat.cast_nonneg slack) j fun i hi => ?_
    rw [hgap, FiberClock.effort, Nat.zero_add]
    exact_mod_cast h i hi

theorem fiber_on_grid_slow :
    ∃ events fiber', baaFiber fastFiber ⟨100, 5⟩ (List.replicate 3 .zero) = some (events, fiber') ∧
      FiberOnGrid fastFiber ⟨100, 5⟩ 3 slowClock 100000000005
        (activations slowClock 0 100000000005 events) := by
  have hsec : (⟨100, 5⟩ : Timespec .lp64).tvSec.toInt + 1 +
      (List.replicate 3 SleepRet.zero).length * fastFiber.dt.toInt / nsecPerSec < 2 ^ 63 := by
    decide
  obtain ⟨events, fiber', hrun⟩ := exists_baaFiber (by decide) hsec
  exact ⟨events, fiber', hrun, fiber_on_grid (by decide) hrun slowClock 100000000005⟩

end Libbaalue
