import Libbaalue.Fiber.Element

/-!
# `baa_is_fiber_config_valid`

The check of a fiber array before its fibers are built: the policy decides how the priority is
checked, and the cpu is compared with the number of configured cpus. The array is the memory its
pointer points to, so that its elements are those the loop reads, however many they are.

The check accepts exactly the valid configurations, except for two kinds it lets pass: a
negative `count`, and a cpu index that is negative or equal to the number of cpus
(`accepts_exactly_iff`).

Each function of the check has one lemma, an equivalence between its verdict and the condition it
stands for, and the verdict of the whole is assembled from them. The kernel's numbers are parameters
with no relation between them, so nothing depends on the priorities of Linux. What is refused is
refused with the error of the first element that is, as in the source.
-/

namespace Libbaalue

/-! ### The kernel's numbers -/

/-- `SCHED_OTHER`. -/
def schedOther : CInt := 0

/-- `SCHED_FIFO`. -/
def schedFifo : CInt := 1

/-- `SCHED_RR`. -/
def schedRr : CInt := 2

/-- `SCHED_BATCH`. -/
def schedBatch : CInt := 3

/-- `SCHED_IDLE`. -/
def schedIdle : CInt := 5

/-- The answers of `sched_get_priority_min`, `sched_get_priority_max`, `get_nprocs_conf` and
`get_nprocs`, which are what the check knows of the kernel. -/
structure KernelLimits where
  priorityMin : CInt → CInt
  priorityMax : CInt → CInt
  nprocsConf : CInt
  nprocs : CInt

/-- `baa_get_num_cpu`: `*cpu_conf` and `*cpu_onln`. -/
def baaGetNumCpu (kernel : KernelLimits) : CInt × CInt := (kernel.nprocsConf, kernel.nprocs)

/-! ### The check -/

/-- Why a configuration is refused, with what the message names. The first reason that is met is the
one that is logged. -/
inductive ConfigError
  | nullOrEmpty
  | priorityAbove (maxPrio : CInt)
  | priorityBelow (minPrio : CInt)
  | priorityNonZero (schedPriority : CInt)
  | policyInvalid (policy : CInt)
  | cpuAbove (cpu cpuConf : CInt)
  deriving DecidableEq, Repr

/-- The message that is logged: the format and the integers it is printed with. -/
def ConfigError.message : ConfigError → String × List CInt
  | nullOrEmpty => ("fiber_array == NULL || count == 0", [])
  | priorityAbove maxPrio => ("priority > %d", [maxPrio])
  | priorityBelow minPrio => ("priority < %d", [minPrio])
  | priorityNonZero schedPriority => ("priority %d != 0", [schedPriority])
  | policyInvalid policy => ("policy %d invalid", [policy])
  | cpuAbove cpu cpuConf => ("cpu affinity > configured cpu (%d > %d)", [cpu, cpuConf])

variable (kernel : KernelLimits)

/-- The check of a real-time priority. -/
def checkRange (policy schedPriority : CInt) : Except ConfigError Unit :=
  if schedPriority.toInt > (kernel.priorityMax policy).toInt then
    .error (.priorityAbove (kernel.priorityMax policy))
  else if schedPriority.toInt < (kernel.priorityMin policy).toInt then
    .error (.priorityBelow (kernel.priorityMin policy))
  else .ok ()

/-- The check of a priority under the other policies. -/
def checkZero (schedPriority : CInt) : Except ConfigError Unit :=
  if schedPriority ≠ 0 then .error (.priorityNonZero schedPriority) else .ok ()

/-- The `switch` on the policy. A policy that is not among the five is refused with a message of its
own. -/
def checkPolicy (fiber : FiberElement) : Except ConfigError Unit :=
  if fiber.policy = schedRr then checkRange kernel schedRr fiber.schedPriority
  else if fiber.policy = schedFifo then checkRange kernel schedFifo fiber.schedPriority
  else if fiber.policy = schedOther then checkZero fiber.schedPriority
  else if fiber.policy = schedIdle then checkZero fiber.schedPriority
  else if fiber.policy = schedBatch then checkZero fiber.schedPriority
  else .error (.policyInvalid fiber.policy)

/-- The body of the loop. -/
def checkFiber (fiber : FiberElement) : Except ConfigError Unit :=
  match checkPolicy kernel fiber with
  | .error e => .error e
  | .ok _ =>
    -- there is no lower bound, and the number of cpus itself passes
    if fiber.cpu.toInt > (baaGetNumCpu kernel).1.toInt then
      .error (.cpuAbove fiber.cpu (baaGetNumCpu kernel).1)
    else .ok ()

/-- The loop, with `n` iterations to go at element `i`. -/
def checkFibers (fiberArray : ℕ → FiberElement) (i : ℕ) : ℕ → Except ConfigError Unit
  | 0 => .ok ()
  | n + 1 =>
    match checkFiber kernel (fiberArray i) with
    | .error e => .error e
    | .ok _ => checkFibers fiberArray (i + 1) n

/-- `baa_is_fiber_config_valid`: true is `ok`, false the error that is logged. -/
def baaIsFiberConfigValid (fiberArray : Option (ℕ → FiberElement)) (count : CInt) :
    Except ConfigError Unit :=
  match fiberArray with
  | none => .error .nullOrEmpty
  | some fiberArray =>
    if count = 0 then .error .nullOrEmpty
    -- no iteration for a negative `count`
    else checkFibers kernel fiberArray 0 count.toInt.toNat

/-! ### What is valid -/

/-- The policy is known and the priority inside its range: the one of the kernel for the real-time
policies, and 0 for the others. -/
def PriorityValid (fiber : FiberElement) : Prop :=
  fiber.policy ∈ [schedRr, schedFifo] ∧
      (kernel.priorityMin fiber.policy).toInt ≤ fiber.schedPriority.toInt ∧
      fiber.schedPriority.toInt ≤ (kernel.priorityMax fiber.policy).toInt ∨
    fiber.policy ∈ [schedOther, schedIdle, schedBatch] ∧ fiber.schedPriority = 0

/-- The cpu is one of the configured ones, which are numbered from 0 on. -/
def CpuValid (fiber : FiberElement) : Prop :=
  0 ≤ fiber.cpu.toInt ∧ fiber.cpu.toInt < kernel.nprocsConf.toInt

/-- The configurations that are to be accepted: an array that is there, with a positive number of
elements that are valid in priority and in cpu. -/
def ConfigValid (fiberArray : Option (ℕ → FiberElement)) (count : CInt) : Prop :=
  ∃ fibers, fiberArray = some fibers ∧ 0 < count.toInt ∧
    ∀ i < count.toInt.toNat, PriorityValid kernel (fibers i) ∧ CpuValid kernel (fibers i)

/-! ### What is accepted -/

variable {kernel}

theorem checkRange_eq_ok_iff (policy schedPriority : CInt) :
    checkRange kernel policy schedPriority = .ok () ↔
      (kernel.priorityMin policy).toInt ≤ schedPriority.toInt ∧
        schedPriority.toInt ≤ (kernel.priorityMax policy).toInt := by
  rw [checkRange]
  split_ifs with habove hbelow
  · simp [Int.not_le.mpr habove]
  · simp [Int.not_le.mpr hbelow]
  · simp [Int.not_lt.mp habove, Int.not_lt.mp hbelow]

theorem checkZero_eq_ok_iff (schedPriority : CInt) :
    checkZero schedPriority = .ok () ↔ schedPriority = 0 := by
  rw [checkZero]
  split_ifs with h
  · exact iff_of_false (by simp) h
  · exact iff_of_true rfl (not_not.mp h)

/-- The two kinds of policies have none in common. -/
private theorem not_mem_realTime_of_mem {policy : CInt}
    (h : policy ∈ [schedOther, schedIdle, schedBatch]) : policy ∉ [schedRr, schedFifo] := by
  simp only [List.mem_cons, List.not_mem_nil, or_false] at h
  rcases h with rfl | rfl | rfl <;> decide

private theorem priorityValid_of_realTime {fiber : FiberElement}
    (h : fiber.policy ∈ [schedRr, schedFifo]) :
    PriorityValid kernel fiber ↔
      (kernel.priorityMin fiber.policy).toInt ≤ fiber.schedPriority.toInt ∧
        fiber.schedPriority.toInt ≤ (kernel.priorityMax fiber.policy).toInt := by
  rw [PriorityValid, and_iff_right h]
  exact or_iff_left fun hother => not_mem_realTime_of_mem hother.1 h

private theorem priorityValid_of_other {fiber : FiberElement}
    (h : fiber.policy ∈ [schedOther, schedIdle, schedBatch]) :
    PriorityValid kernel fiber ↔ fiber.schedPriority = 0 := by
  rw [PriorityValid, and_iff_right h]
  exact or_iff_right fun hrange => not_mem_realTime_of_mem h hrange.1

/-- The policies are checked as they should be. -/
theorem checkPolicy_eq_ok_iff (fiber : FiberElement) :
    checkPolicy kernel fiber = .ok () ↔ PriorityValid kernel fiber := by
  rw [checkPolicy]
  split_ifs with hrr hfifo hother hidle hbatch
  · rw [checkRange_eq_ok_iff, priorityValid_of_realTime (by simp [hrr]), hrr]
  · rw [checkRange_eq_ok_iff, priorityValid_of_realTime (by simp [hfifo]), hfifo]
  · rw [checkZero_eq_ok_iff, priorityValid_of_other (by simp [hother])]
  · rw [checkZero_eq_ok_iff, priorityValid_of_other (by simp [hidle])]
  · rw [checkZero_eq_ok_iff, priorityValid_of_other (by simp [hbatch])]
  · simp [PriorityValid, hrr, hfifo, hother, hidle, hbatch]

/-- The cpus are not. -/
theorem checkFiber_eq_ok_iff (fiber : FiberElement) :
    checkFiber kernel fiber = .ok () ↔
      PriorityValid kernel fiber ∧ fiber.cpu.toInt ≤ kernel.nprocsConf.toInt := by
  rw [checkFiber, ← checkPolicy_eq_ok_iff]
  rcases checkPolicy kernel fiber with e | ⟨⟩
  · simp
  · simp only [true_and, baaGetNumCpu]
    split_ifs with h
    · simp [Int.not_le.mpr h]
    · simp [Int.not_lt.mp h]

/-- The loop stops at the first element that is refused. -/
theorem checkFibers_eq_ok_iff (fiberArray : ℕ → FiberElement) (i n : ℕ) :
    checkFibers kernel fiberArray i n = .ok () ↔
      ∀ j < n, checkFiber kernel (fiberArray (i + j)) = .ok () := by
  induction n generalizing i with
  | zero => simp [checkFibers]
  | succ n ih =>
    rw [checkFibers]
    rcases hhead : checkFiber kernel (fiberArray i) with e | ⟨⟩
    · refine iff_of_false (by simp) fun h => ?_
      have hi := h 0 n.succ_pos
      rw [Nat.add_zero, hhead] at hi
      cases hi
    · rw [ih]
      constructor
      · rintro h (_ | j) hj
        · exact hhead
        · rw [Nat.add_succ, ← Nat.succ_add]
          exact h j (Nat.lt_of_succ_lt_succ hj)
      · intro h j hj
        rw [Nat.succ_add, ← Nat.add_succ]
        exact h (j + 1) (Nat.succ_lt_succ hj)

/-- **What is accepted**: any array for a negative `count`, and one whose elements pass. -/
theorem baaIsFiberConfigValid_eq_ok_iff (fibers : ℕ → FiberElement) (count : CInt) :
    baaIsFiberConfigValid kernel (some fibers) count = .ok () ↔
      count ≠ 0 ∧ ∀ i < count.toInt.toNat, PriorityValid kernel (fibers i) ∧
        (fibers i).cpu.toInt ≤ kernel.nprocsConf.toInt := by
  rw [baaIsFiberConfigValid]
  split_ifs with hzero
  · simp [hzero]
  · rw [checkFibers_eq_ok_iff]
    simp only [Nat.zero_add, checkFiber_eq_ok_iff, ne_eq, hzero, not_false_iff, true_and]

/-! ### What is overlooked -/

/-- A configuration in which nothing is overlooked: `count` is not negative, and no cpu index is
negative or the number of cpus itself, unless an element is refused for something else. -/
def NothingOverlooked (kernel : KernelLimits) (fiberArray : Option (ℕ → FiberElement))
    (count : CInt) : Prop :=
  ∀ fibers, fiberArray = some fibers → 0 ≤ count.toInt ∧
    ((∃ i < count.toInt.toNat, ¬ PriorityValid kernel (fibers i) ∨
        kernel.nprocsConf.toInt < (fibers i).cpu.toInt) ∨
      ∀ i < count.toInt.toNat, 0 ≤ (fibers i).cpu.toInt ∧
        (fibers i).cpu.toInt ≠ kernel.nprocsConf.toInt)

/-- Among the elements that pass, the valid ones are those whose cpu is not overlooked. -/
private theorem cpuValid_iff_of_le {fiber : FiberElement}
    (h : fiber.cpu.toInt ≤ kernel.nprocsConf.toInt) :
    CpuValid kernel fiber ↔
      0 ≤ fiber.cpu.toInt ∧ fiber.cpu.toInt ≠ kernel.nprocsConf.toInt := by
  rw [CpuValid]
  exact and_congr_right fun _ => ⟨fun hlt => hlt.ne, fun hne => lt_of_le_of_ne h hne⟩

theorem configValid_some_iff (fibers : ℕ → FiberElement) (count : CInt) :
    ConfigValid kernel (some fibers) count ↔ 0 < count.toInt ∧
      ∀ i < count.toInt.toNat, PriorityValid kernel (fibers i) ∧ CpuValid kernel (fibers i) := by
  simp [ConfigValid]

/-- An element is refused unless all of them pass. -/
private theorem exists_refused_iff (fibers : ℕ → FiberElement) (n : ℕ) :
    (∃ i < n, ¬ PriorityValid kernel (fibers i) ∨
        kernel.nprocsConf.toInt < (fibers i).cpu.toInt) ↔
      ¬ ∀ i < n, PriorityValid kernel (fibers i) ∧
        (fibers i).cpu.toInt ≤ kernel.nprocsConf.toInt := by
  simp only [not_forall, not_and_or, not_le, exists_prop]

/-- **When the check accepts exactly the valid configurations.** For every array, every `count`
and all the kernel's numbers: the verdict is the right one if and only if nothing is
overlooked. -/
theorem accepts_exactly_iff (kernel : KernelLimits) (fiberArray : Option (ℕ → FiberElement))
    (count : CInt) :
    (baaIsFiberConfigValid kernel fiberArray count = .ok () ↔
        ConfigValid kernel fiberArray count) ↔
      NothingOverlooked kernel fiberArray count := by
  rcases fiberArray with _ | fibers
  · simp [baaIsFiberConfigValid, ConfigValid, NothingOverlooked]
  have hzero : count ≠ 0 ↔ count.toInt ≠ 0 := by
    rw [ne_eq, ← BitVec.toInt_inj]
    rfl
  rw [baaIsFiberConfigValid_eq_ok_iff, configValid_some_iff, hzero]
  simp only [NothingOverlooked, Option.some.injEq, forall_eq', exists_refused_iff]
  rcases lt_trichotomy count.toInt 0 with hneg | heq | hpos
  · -- no element is looked at, and the array is accepted
    have hnat : count.toInt.toNat = 0 := Int.toNat_of_nonpos hneg.le
    refine iff_of_false (fun h => ?_) fun h => absurd h.1 (not_le.mpr hneg)
    have haccepted := h.mp ⟨hneg.ne, by simp [hnat]⟩
    exact absurd haccepted.1 hneg.not_gt
  · simp [heq]
  · by_cases hpass : ∀ i < count.toInt.toNat, PriorityValid kernel (fibers i) ∧
        (fibers i).cpu.toInt ≤ kernel.nprocsConf.toInt
    · have hcpus : (∀ i < count.toInt.toNat, PriorityValid kernel (fibers i) ∧
          CpuValid kernel (fibers i)) ↔ ∀ i < count.toInt.toNat, 0 ≤ (fibers i).cpu.toInt ∧
          (fibers i).cpu.toInt ≠ kernel.nprocsConf.toInt :=
        forall₂_congr fun i hi => by
          rw [and_iff_right (hpass i hi).1, cpuValid_iff_of_le (hpass i hi).2]
      have haccepted : count.toInt ≠ 0 ∧ ∀ i < count.toInt.toNat,
          PriorityValid kernel (fibers i) ∧
            (fibers i).cpu.toInt ≤ kernel.nprocsConf.toInt := ⟨hpos.ne', hpass⟩
      rw [iff_true_left haccepted, and_iff_right hpos, hcpus, and_iff_right hpos.le,
        or_iff_right (not_not.mpr hpass)]
    · -- an element is refused, and the configuration is not valid
      refine iff_of_true (iff_of_false (fun h => hpass h.2) fun h => hpass fun i hi => ?_)
        ⟨hpos.le, .inl hpass⟩
      exact ⟨(h.2 i hi).1, (h.2 i hi).2.2.le⟩

/-- Four cpus, and the priorities of Linux. -/
def fourCpus : KernelLimits := ⟨fun _ => 1, fun _ => 99, 4, 4⟩

/-- Elements under `SCHED_OTHER`, on a given cpu. -/
def otherOn (cpu : CInt) : ℕ → FiberElement := fun _ => ⟨0, schedOther, cpu, 0⟩

/-- Cpu 4 of four and a negative `count` are accepted. -/
theorem not_accepts_exactly :
    baaIsFiberConfigValid fourCpus (some (otherOn 4)) 1 = .ok () ∧
      ¬ ConfigValid fourCpus (some (otherOn 4)) 1 ∧
    baaIsFiberConfigValid fourCpus (some (otherOn 0)) (-1) = .ok () ∧
      ¬ ConfigValid fourCpus (some (otherOn 0)) (-1) := by
  refine ⟨by decide, ?_, by decide, ?_⟩
  · rintro ⟨fibers, heq, -, hvalid⟩
    obtain rfl := Option.some.inj heq
    have hcpu := (hvalid 0 (by decide)).2.2
    revert hcpu
    decide
  · rintro ⟨fibers, -, hpos, -⟩
    revert hpos
    decide

end Libbaalue
