import Libbaalue.Fiber.AppliedProps
import Libbaalue.Fiber.Config
import Libbaalue.Fiber.SchedTable

/-!
# An application

`main` of `time_triggert_simple.c` builds its fibers, has the array checked, sets the properties
and starts the fibers; it ends if the check refuses the array. The caller keeps `CAP_SYS_NICE`,
so that the kernel refuses only what makes no sense to it (`SchedKernel.Grants`).

The check and the kernel agree on policies and priorities. They do not on cpus: the check compares
a cpu with the number of configured cpus, lets that number itself through, and does not ask which
cpus are there. Of an array that is accepted, nothing is logged if and only if every thread exists
and every cpu is there (`log_eq_nil_iff`). Then, and whatever the order of the threads' steps, no
fiber comes to its function without the policy, the priority and the cpu of its element
(`starts_configured`).

A kernel that grants what makes sense is a condition, and not a model of Linux: it is asked for the
two calls the library makes, for the one caller, and for elements whose priority is valid. It is
needed, since a kernel may refuse anything; and it does not speak of threads that do not exist,
whose calls are refused whatever the kernel grants.
-/

namespace Libbaalue

/-! ### What the kernel accepts -/

/-- The kernel, for a caller with `CAP_SYS_NICE`: it sets an affinity if one of the cpus is there,
and a policy with a priority in its range. -/
structure SchedKernel.Grants (kernel : SchedKernel) (caller : CInt) (limits : KernelLimits) :
    Prop where
  setaffinity : ∀ tid set thread,
    kernel.decide caller (.setaffinity tid set) thread = .ok ↔ ∃ cpu ∈ set, kernel.present cpu
  setscheduler : ∀ (fiber : FiberElement) (thread : ThreadSched), PriorityValid limits fiber →
    kernel.decide caller (.setscheduler fiber.kernelTid fiber.policy fiber.schedPriority) thread =
      .ok

/-- The cpu of an element is there: its cpu set, which is empty for a number below 0 or from
`CPU_SETSIZE` on, has a cpu that is present. -/
def CpuOnline (kernel : SchedKernel) (fiber : FiberElement) : Prop :=
  ∃ cpu ∈ cpuSet fiber.cpu, kernel.present cpu

/-- The thread of an element exists; the thread id 0 is the caller's own. -/
def ThreadExists (self : CInt) (table : SchedTable) (fiber : FiberElement) : Prop :=
  (table (targetOf self fiber.kernelTid)).isSome

variable {kernel : SchedKernel} {limits : KernelLimits} {self : CInt}

private theorem schedLog_eq_nil_iff (fiber : FiberElement) (o : SchedOutcome) :
    schedLog fiber o = [] ↔ cpuSet fiber.cpu ≠ [] ∧ o.AllOk := by
  constructor
  · intro h
    refine ⟨fun hempty => ?_, not_not.mp fun hfail => schedLog_ne_nil_of_failed fiber hfail h⟩
    rw [schedLog, if_pos hempty] at h
    simp at h
  · rintro ⟨hset, haffinity, hscheduler⟩
    rw [schedLog, if_neg hset, haffinity, hscheduler]
    rfl

private theorem SchedCall.outcome_eq_ok_iff {c : SchedCall} {entry : Option ThreadSched} :
    c.outcome kernel self entry = .ok ↔
      ∃ thread, entry = some thread ∧ kernel.decide self c thread = .ok := by
  cases entry <;> simp [SchedCall.outcome]

/-- The two calls of an element with a valid priority. -/
theorem allOk_schedOutcome_iff (hgrants : kernel.Grants self limits) {fiber : FiberElement}
    (hvalid : PriorityValid limits fiber) (table : SchedTable) :
    (schedOutcome kernel self table fiber).AllOk ↔
      ThreadExists self table fiber ∧ CpuOnline kernel fiber := by
  have hfirst : (schedOutcome kernel self table fiber).setaffinity = .ok ↔
      ThreadExists self table fiber ∧ CpuOnline kernel fiber := by
    rw [schedOutcome, SchedCall.outcome_eq_ok_iff, ThreadExists, Option.isSome_iff_exists]
    simp only [hgrants.setaffinity]
    exact exists_and_right
  refine ⟨fun h => hfirst.mp h.1, fun h => ⟨hfirst.mpr h, ?_⟩⟩
  -- the thread is still there, and the kernel knows what is asked for
  obtain ⟨thread, hthread, hact⟩ := SchedCall.act_of_ok (hfirst.mpr h)
  have hentry : (schedOps kernel self).apply table
      (.setaffinity fiber.kernelTid (cpuSet fiber.cpu)) (targetOf self fiber.kernelTid) = some _ :=
    (KeyedOps.apply_of_eq rfl table).trans hact
  rw [schedOutcome, SchedCall.outcome_eq_ok_iff]
  exact ⟨_, hentry, hgrants.setscheduler fiber _ hvalid⟩

/-- Scheduling calls neither make nor end threads. -/
theorem isSome_run (table : SchedTable) (calls : List SchedCall) (t : CInt) :
    ((schedOps kernel self).run table calls t).isSome = (table t).isSome := by
  induction calls generalizing table with
  | nil => rfl
  | cons c calls ih =>
    rw [KeyedOps.run_cons, ih]
    by_cases hkey : (schedOps kernel self).key c = t
    · rw [KeyedOps.apply_of_eq hkey, schedOps_act, SchedCall.act]
      cases c.outcome kernel self (table t) with
      | ok => exact Option.isSome_map
      | failed errno => rfl
    · rw [KeyedOps.apply_of_ne hkey]

/-- **When nothing is logged** for elements with valid priorities: every thread exists, and every
cpu is there. For a kernel that grants what is valid nothing else can fail. -/
theorem log_schedRun_eq_nil_iff (hgrants : kernel.Grants self limits)
    {fiberArray : List FiberElement}
    (hvalid : ∀ fiber ∈ fiberArray, PriorityValid limits fiber) (table : SchedTable) :
    (schedRun kernel self table fiberArray).log = [] ↔
      ∀ fiber ∈ fiberArray, ThreadExists self table fiber ∧ CpuOnline kernel fiber := by
  induction fiberArray generalizing table with
  | nil => exact iff_of_true rfl (List.forall_mem_nil _)
  | cons fiber fiberArray ih =>
    obtain ⟨hhead, hrest⟩ := List.forall_mem_cons.mp hvalid
    have hafter : ∀ later, ThreadExists self (afterElement kernel self table fiber) later ↔
        ThreadExists self table later := fun later => by
      rw [ThreadExists, afterElement, isSome_run, ThreadExists]
    have hcpu : CpuOnline kernel fiber → cpuSet fiber.cpu ≠ [] := by
      rintro ⟨cpu, hmem, -⟩
      exact List.ne_nil_of_mem hmem
    rw [log_schedRun_cons, List.append_eq_nil_iff, schedLog_eq_nil_iff,
      allOk_schedOutcome_iff hgrants hhead, ih hrest, List.forall_mem_cons]
    simp only [hafter]
    exact and_congr_left fun _ => and_iff_right_of_imp fun h => hcpu h.2

/-! ### The check -/

/-- `baa_is_fiber_config_valid(fiber_array, num_fiber_elements)`. -/
def accepts (limits : KernelLimits) (fiberArray : List FiberElement) : Bool :=
  (baaIsFiberConfigValid limits (some fun i => fiberArray[i]?.getD ⟨0, 0, 0, 0⟩)
    (BitVec.ofNat 32 fiberArray.length)).isOk

private theorem toInt_ofNat_length {n : ℕ} (h : n < 2 ^ 31) : (BitVec.ofNat 32 n).toInt = n := by
  have hnat : (BitVec.ofNat 32 n).toNat = n := by
    rw [BitVec.toNat_ofNat, Nat.mod_eq_of_lt (h.trans (by decide))]
  rw [BitVec.toInt_eq_toNat_of_lt (by omega), hnat]

private theorem isOk_iff (result : Except ConfigError Unit) : result.isOk ↔ result = .ok () := by
  cases result with
  | error e => simp [Except.isOk, Except.toBool]
  | ok u => simp [Except.isOk, Except.toBool]

/-- **What is accepted.** An array that is not empty, whose elements have valid priorities, and
whose cpus are not above the number of configured ones; that a cpu exists is not checked. -/
theorem accepts_iff {fiberArray : List FiberElement} (hlen : fiberArray.length < 2 ^ 31) :
    accepts limits fiberArray ↔ fiberArray ≠ [] ∧
      ∀ fiber ∈ fiberArray, PriorityValid limits fiber ∧
        fiber.cpu.toInt ≤ limits.nprocsConf.toInt := by
  have hcount : (BitVec.ofNat 32 fiberArray.length).toInt = fiberArray.length :=
    toInt_ofNat_length hlen
  have hzero : BitVec.ofNat 32 fiberArray.length ≠ 0 ↔ fiberArray ≠ [] := by
    have hnull : (0 : CInt).toInt = 0 := rfl
    rw [ne_eq, ← BitVec.toInt_inj, hcount, hnull, Nat.cast_eq_zero, List.length_eq_zero_iff]
  rw [accepts, isOk_iff, baaIsFiberConfigValid_eq_ok_iff, hzero, hcount, Int.toNat_natCast,
    List.forall_mem_iff_getElem]
  refine and_congr_right fun _ => forall₂_congr fun i hi => ?_
  rw [List.getElem?_eq_getElem hi, Option.getD_some]

/-- Two cpus, and the priorities of Linux. -/
def twoCpus : KernelLimits :=
  ⟨fun policy => if policy = 1 ∨ policy = 2 then 1 else 0,
    fun policy => if policy = 1 ∨ policy = 2 then 99 else 0, 2, 2⟩

/-- A kernel with two cpus. -/
def twoCpuKernel : SchedKernel where
  present cpu := cpu < 2
  decide _ c _ :=
    match c with
    | .setaffinity _ set => if set.any (· < 2) then .ok else .failed .einval
    | .setscheduler _ policy schedPriority =>
      if policy ∈ [schedRr, schedFifo] ∧ 1 ≤ schedPriority.toInt ∧ schedPriority.toInt ≤ 99 ∨
          policy ∈ [schedOther, schedIdle, schedBatch] ∧ schedPriority = 0 then .ok
      else .failed .einval

theorem twoCpuKernel_grants (caller : CInt) : twoCpuKernel.Grants caller twoCpus := by
  refine ⟨fun tid set thread => ?_, fun fiber thread hvalid => ?_⟩
  · simp [twoCpuKernel]
  · have hrange : ∀ policy ∈ [schedRr, schedFifo],
        (twoCpus.priorityMin policy).toInt = 1 ∧ (twoCpus.priorityMax policy).toInt = 99 := by
      intro policy hpolicy
      simp only [List.mem_cons, List.not_mem_nil, or_false] at hpolicy
      rcases hpolicy with rfl | rfl <;> exact ⟨rfl, rfl⟩
    refine if_pos (hvalid.imp_left fun ⟨hpolicy, hmin, hmax⟩ => ⟨hpolicy, ?_, ?_⟩)
    · rwa [(hrange _ hpolicy).1] at hmin
    · rwa [(hrange _ hpolicy).2] at hmax

def MainPc.setsProps : MainPc → Bool
  | .setProps _ => true
  | _ => false

def MainPc.starts : MainPc → Bool
  | .start _ => true
  | _ => false

/-- The orderly runs of `time_triggert_simple.c`: `main` does not go on from
`baa_build_scheduler` with an array that is refused. -/
def timeTriggertSimple (limits : KernelLimits) (fiberArray : List FiberElement) :
    LabelledSystem SchedulerState SchedulerLabel :=
  (orderlyScheduler fiberArray).restrict fun s a =>
    a = .main → s.main.setsProps → accepts limits s.fiberArray

/-- What `main` configures: an element without its thread id. -/
def FiberElement.config (fiber : FiberElement) : FiberElement := { fiber with kernelTid := 0 }

private theorem FiberElement.config_eq_iff {fiber fiber' : FiberElement} :
    fiber'.config = fiber.config ↔ fiber'.policy = fiber.policy ∧ fiber'.cpu = fiber.cpu ∧
      fiber'.schedPriority = fiber.schedPriority := by
  simp [config]

/-- What is configured is not written to. -/
private theorem map_config_modify (fiberArray : List FiberElement) (i : ℕ) (kernelTid : CInt) :
    (fiberArray.modify i fun fiber => { fiber with kernelTid := kernelTid }).map
      FiberElement.config = fiberArray.map FiberElement.config := by
  refine List.ext_getElem? fun j => ?_
  rw [List.getElem?_map, List.getElem?_map, List.getElem?_modify]
  split_ifs
  · cases fiberArray[j]? <;> rfl
  · cases fiberArray[j]? <;> rfl

private theorem checkFiber_config (fiber : FiberElement) :
    checkFiber limits fiber.config = checkFiber limits fiber := rfl

private theorem checkFibers_congr {fibers fibers' : ℕ → FiberElement}
    (h : ∀ i, checkFiber limits (fibers' i) = checkFiber limits (fibers i)) (i n : ℕ) :
    checkFibers limits fibers' i n = checkFibers limits fibers i n := by
  induction n generalizing i with
  | zero => rfl
  | succ n ih => rw [checkFibers, checkFibers, h, ih]

/-- The check reads what is configured. -/
theorem accepts_congr {fiberArray fiberArray' : List FiberElement}
    (h : fiberArray'.map FiberElement.config = fiberArray.map FiberElement.config) :
    accepts limits fiberArray' = accepts limits fiberArray := by
  have hlength : fiberArray'.length = fiberArray.length := by
    simpa only [List.length_map] using congrArg List.length h
  have hcheck : ∀ i : ℕ, checkFiber limits (fiberArray'[i]?.getD ⟨0, 0, 0, 0⟩) =
      checkFiber limits (fiberArray[i]?.getD ⟨0, 0, 0, 0⟩) := fun i => by
    have hi : (fiberArray'[i]?).map FiberElement.config =
        (fiberArray[i]?).map FiberElement.config := by
      rw [← List.getElem?_map, ← List.getElem?_map, h]
    have hconfig : (fiberArray'[i]?.getD ⟨0, 0, 0, 0⟩).config =
        (fiberArray[i]?.getD ⟨0, 0, 0, 0⟩).config := by
      rw [← Option.getD_map FiberElement.config, ← Option.getD_map FiberElement.config, hi]
    rw [← checkFiber_config, hconfig, checkFiber_config]
  rw [accepts, accepts, hlength, baaIsFiberConfigValid, baaIsFiberConfigValid,
    checkFibers_congr hcheck]

/-- A thread runs as an element says: with its policy and its priority, on the cpu it names as far
as that is present. It is asked for with the getters of the library. -/
def RunsAs (kernel : SchedKernel) (self : CInt) (table : SchedTable) (tid : CInt)
    (fiber : FiberElement) : Prop :=
  baaGetSchedPolicy self table tid = fiber.policy ∧
    baaGetSchedPriority self table tid = fiber.schedPriority ∧
    (table tid).map ThreadSched.affinity = some ((cpuSet fiber.cpu).filter kernel.present)

/-- The calls for an accepted array that has the thread ids of its fibers: each fiber then runs as
its element says. The ids have to be different and not 0, as the calls for one thread would undo
those for another, or be about the caller. -/
theorem runsAs_of_config (hgrants : kernel.Grants self limits)
    {fiberArray fiberArray' : List FiberElement} (hlen : fiberArray.length < 2 ^ 31)
    (hconfig : fiberArray'.map FiberElement.config = fiberArray.map FiberElement.config)
    (haccepts : accepts limits fiberArray) (honline : ∀ fiber ∈ fiberArray, CpuOnline kernel fiber)
    {table : SchedTable} (hthreads : ∀ (j : ℕ) fiber, fiberArray'[j]? = some fiber →
      fiber.kernelTid ≠ 0 ∧ (table fiber.kernelTid).isSome)
    (hown : ∀ (j k : ℕ) fiber fiber', fiberArray'[j]? = some fiber → fiberArray'[k]? = some fiber' →
      fiber.kernelTid = fiber'.kernelTid → j = k)
    {i : ℕ} {element : FiberElement} (hi : fiberArray'[i]? = some element) :
    ∃ fiber, fiberArray[i]? = some fiber ∧
      RunsAs kernel self (tableAfter kernel self table fiberArray') element.kernelTid fiber := by
  -- an element has kept what is configured
  have hkept : ∀ (j : ℕ) element, fiberArray'[j]? = some element →
      ∃ fiber, fiberArray[j]? = some fiber ∧ fiber.config = element.config := by
    intro j element hj
    have hmap := congrArg (fun l => l[j]?) hconfig
    simp only [List.getElem?_map, hj, Option.map_some] at hmap
    exact Option.map_eq_some_iff.mp hmap.symm
  have htarget : ∀ (j : ℕ) fiber, fiberArray'[j]? = some fiber →
      targetOf self fiber.kernelTid = fiber.kernelTid :=
    fun j fiber hj => targetOf_of_ne (hthreads j fiber hj).1
  have hlog : (schedRun kernel self table fiberArray').log = [] := by
    have hlength : fiberArray'.length = fiberArray.length := by
      simpa only [List.length_map] using congrArg List.length hconfig
    have hchecked := (accepts_iff (hlength ▸ hlen)).mp (accepts_congr hconfig ▸ haccepts)
    refine (log_schedRun_eq_nil_iff hgrants (fun fiber hmem => (hchecked.2 fiber hmem).1) table).mpr
      fun fiber hmem => ?_
    obtain ⟨j, hj⟩ := List.getElem?_of_mem hmem
    obtain ⟨first, hfirst, hcfg⟩ := hkept j fiber hj
    refine ⟨by rw [ThreadExists, htarget j fiber hj]; exact (hthreads j fiber hj).2, ?_⟩
    rw [CpuOnline, ← (FiberElement.config_eq_iff.mp hcfg).2.1]
    exact honline first (List.mem_of_getElem? hfirst)
  have hentry := entry_of_log_eq_nil hlog hi fun j later hlt hj heq => by
    rw [htarget j later hj, htarget i element hi] at heq
    exact hlt.ne (hown i j element later hi hj heq.symm)
  rw [htarget i element hi] at hentry
  obtain ⟨fiber, hfiber, hcfg⟩ := hkept i element hi
  obtain ⟨hpolicy, hcpu, hpriority⟩ := FiberElement.config_eq_iff.mp hcfg
  refine ⟨fiber, hfiber, ?_⟩
  simp [RunsAs, baaGetSchedPolicy, baaGetSchedPriority, htarget i element hi, hentry, hpolicy, hcpu,
    hpriority]

namespace SchedulerState

variable {s t : SchedulerState}

/-- What a step leaves alone, and which one goes behind the check. -/
theorem step_frame {a : SchedulerLabel} (hst : s.step a = some t) :
    (t.fiberArray = s.fiberArray ∧ t.published = s.published ∨
      ∃ i kernelTid, s.fiber i = .publish kernelTid ∧ t.fiberArray =
        s.fiberArray.modify i fun fiber => { fiber with kernelTid := kernelTid }) ∧
      (t.applied = s.applied ∧ (t.main.starts → s.main.starts) ∨ a = .main ∧ s.main.setsProps) := by
  rcases a with _ | _ | _ | ⟨i, tid⟩ | i <;> simp only [SchedulerState.step] at hst
  case main =>
    rcases hmain : s.main with pc | pc | pc | _ <;> simp only [hmain, reduceCtorEq] at hst
    · obtain rfl := Option.some.inj hst
      rcases pc with i | _
      · rw [baaBuildScheduler]
        split_ifs
        · exact ⟨.inl ⟨rfl, rfl⟩, .inl ⟨rfl, fun h => by cases h⟩⟩
        · exact ⟨.inl ⟨rfl, rfl⟩, .inl ⟨rfl, fun h => by cases h⟩⟩
      · exact ⟨.inl ⟨rfl, rfl⟩, .inl ⟨rfl, fun h => by cases h⟩⟩
    · -- here the properties are set, which the other disjunct leaves open
      refine ⟨.inl ?_, .inr ⟨rfl, rfl⟩⟩
      rcases pc with i | i
      · rw [SchedulerState.baaSetScheduleProps] at hst
        split at hst
        · exact Option.some.inj hst ▸ ⟨rfl, rfl⟩
        · exact Option.some.inj hst ▸ ⟨rfl, rfl⟩
      · obtain ⟨fiber, -, rfl⟩ := Option.map_eq_some_iff.mp hst
        exact ⟨rfl, rfl⟩
    · obtain ⟨pc', m, rfl, -⟩ := baaStartScheduler_frame hst
      exact ⟨.inl ⟨rfl, rfl⟩, .inl ⟨rfl, fun _ => rfl⟩⟩
  case fiber =>
    obtain ⟨hmain, happlied, hframe⟩ := baaFiber_frame hst
    refine ⟨hframe.imp_right ?_, .inl ⟨happlied, fun h => hmain ▸ h⟩⟩
    rintro ⟨kernelTid, hpc, harray, -⟩
    exact ⟨i, kernelTid, hpc, harray⟩
  case spurious =>
    obtain ⟨m, -, rfl⟩ := Option.map_eq_some_iff.mp hst
    exact ⟨.inl ⟨rfl, rfl⟩, .inl ⟨rfl, id⟩⟩
  case createFails | joinFails =>
    split at hst
    · rename_i k hmain
      split_ifs at hst
      obtain rfl := Option.some.inj hst
      exact ⟨.inl ⟨rfl, rfl⟩, .inl ⟨rfl, by simp [hmain, MainPc.starts]⟩⟩
    · cases hst

/-- What is configured stays. -/
theorem config_step {a : SchedulerLabel} (hst : s.step a = some t) :
    t.fiberArray.map FiberElement.config = s.fiberArray.map FiberElement.config := by
  obtain ⟨⟨harray, -⟩ | ⟨i, kernelTid, -, harray⟩, -⟩ := step_frame hst
  · rw [harray]
  · rw [harray, map_config_modify]

end SchedulerState

private theorem MainPc.exists_start_of_hasBroadcast {pc : MainPc} (h : pc.hasBroadcast) :
    ∃ start, pc = .start start := by
  cases pc with
  | start start => exact ⟨start, rfl⟩
  | build pc => cases h
  | setProps pc => cases h
  | failed => cases h

/-- A fiber that has come past its wait has been started, and has an element. -/
theorem SchedulerState.Inv.started {s : SchedulerState} (h : s.Inv) {i : ℕ}
    (hpast : (s.fiber i).isPastWait) :
    (∃ pc, s.main = .start pc) ∧ ∃ fiber, s.fiberArray[i]? = some fiber := by
  refine ⟨MainPc.exists_start_of_hasBroadcast (not_not.mp fun hnot => (h.closed hnot i).1 hpast),
    _, List.getElem?_eq_getElem (h.lt_length fun habsent => ?_)⟩
  rw [habsent] at hpast
  cases hpast

section

variable {fiberArray : List FiberElement} {s : SchedulerState}

/-- Once the fibers are started, the elements hold the thread ids that were published. -/
private theorem SchedulerState.published_of_start (h : (orderlyScheduler fiberArray).Reachable s)
    {pc : StartPc} (hmain : s.main = .start pc) {j : ℕ} {fiber : FiberElement}
    (hj : s.fiberArray[j]? = some fiber) : s.published j = some fiber.kernelTid := by
  have hlt : j < s.main.propsDone s.fiberArray.length := by
    rw [hmain]
    exact (List.getElem?_eq_some_iff.mp hj).1
  obtain ⟨tid, htid⟩ :=
    Option.isSome_iff_exists.mp ((SchedulerState.progress_of_reachable h).published j hlt)
  obtain ⟨fiber', hj', rfl⟩ := (SchedulerState.inv_of_reachable h).stored j tid htid
  rwa [Option.some.inj (hj.symm.trans hj')]

private theorem config_of_reachable (h : (timeTriggertSimple limits fiberArray).Reachable s) :
    s.fiberArray.map FiberElement.config = fiberArray.map FiberElement.config := by
  refine h.invariant
    (P := fun s => s.fiberArray.map FiberElement.config = fiberArray.map FiberElement.config)
    rfl fun s a t _ hs hst => ?_
  obtain ⟨-, hst⟩ := LabelledSystem.restrict_step_iff.mp hst
  obtain ⟨-, hst⟩ := LabelledSystem.restrict_step_iff.mp hst
  exact (SchedulerState.config_step hst).trans hs

/-- **The gate.** Calls are made, and fibers are started, behind the check: in no run of the example
is a scheduling call made for an array that the check refuses. -/
theorem accepts_of_reachable (h : (timeTriggertSimple limits fiberArray).Reachable s) :
    s.applied ≠ [] ∨ s.main.starts → accepts limits fiberArray := by
  refine h.invariant
    (P := fun s => s.applied ≠ [] ∨ s.main.starts → accepts limits fiberArray)
    (fun hinit => ?_) fun s a t hs hgate hst hbehind => ?_
  · rcases hinit with hinit | hinit
    · exact absurd rfl hinit
    · cases hinit
  · obtain ⟨hallowed, hst⟩ := LabelledSystem.restrict_step_iff.mp hst
    obtain ⟨-, hst⟩ := LabelledSystem.restrict_step_iff.mp hst
    obtain ⟨-, ⟨happlied, hstarts⟩ | ⟨hmain, hsets⟩⟩ := SchedulerState.step_frame hst
    · exact hgate (hbehind.imp (fun hne => by rwa [← happlied]) hstarts)
    · rw [← accepts_congr (config_of_reachable hs)]
      exact hallowed hmain hsets

/-- **Nothing runs unconfigured.** In every orderly run of the application, with a kernel that
grants what makes sense, threads of their own for the fibers and cpus that are there: calls are
made for an array that is accepted only, and a fiber that is behind its wait has the policy, the
priority and the cpu of its element. -/
theorem starts_configured (hgrants : kernel.Grants self limits) (hlen : fiberArray.length < 2 ^ 31)
    (table : SchedTable)
    (honline : ∀ fiber ∈ fiberArray, CpuOnline kernel fiber)
    (h : (timeTriggertSimple limits fiberArray).Reachable s)
    (hthreads : ∀ i tid, s.published i = some tid → tid ≠ 0 ∧ (table tid).isSome)
    (hown : ∀ i j tid, s.published i = some tid → s.published j = some tid → i = j) :
    (s.applied ≠ [] → accepts limits fiberArray) ∧
      ∀ i, (s.fiber i).isPastWait → accepts limits fiberArray ∧
        ∃ tid fiber, s.published i = some tid ∧ fiberArray[i]? = some fiber ∧
          RunsAs kernel self ((schedOps kernel self).run table (s.applied.map Prod.snd)) tid
            fiber := by
  refine ⟨fun hne => accepts_of_reachable h (.inl hne), fun i hpast => ?_⟩
  have hinv := SchedulerState.inv_of_reachable h.of_restrict
  obtain ⟨⟨pc, hmain⟩, element, hi⟩ := hinv.started hpast
  have haccepts : accepts limits fiberArray := accepts_of_reachable h (.inr (by rw [hmain]; rfl))
  have hpublished : ∀ j fiber, s.fiberArray[j]? = some fiber →
      s.published j = some fiber.kernelTid := fun j fiber hj =>
    SchedulerState.published_of_start h.of_restrict hmain hj
  -- the calls that were made are those of a run on the array as it stands now
  have hcalls : (schedOps kernel self).run table (s.applied.map Prod.snd) =
      tableAfter kernel self table s.fiberArray := by
    rw [calls_applied fiberArray h.of_restrict hmain fun _ => ⟨.ok, .ok⟩,
      calls_baaSetScheduleProps, tableAfter_eq]
  obtain ⟨fiber, hfiber, hruns⟩ := runsAs_of_config hgrants hlen (config_of_reachable h) haccepts
    honline (fun j fiber hj => hthreads j _ (hpublished j fiber hj))
    (fun j k fiber fiber' hj hk heq =>
      hown j k _ (hpublished j fiber hj) (heq ▸ hpublished k fiber' hk)) hi
  exact ⟨haccepts, _, fiber, hpublished i element hi, hfiber, hcalls ▸ hruns⟩

end

/-- Both fibers of an application run with what their elements say. -/
theorem starts_configured_inTime :
    ∃ s, (timeTriggertSimple twoCpus [fifoElement, fifoElement]).exec
        (.init [fifoElement, fifoElement]) inTime = some s ∧ s.fiber 1 = .running ∧
      (s.applied ≠ [] → accepts twoCpus [fifoElement, fifoElement]) ∧
      ∀ i, (s.fiber i).isPastWait → accepts twoCpus [fifoElement, fifoElement] ∧
        ∃ tid fiber, s.published i = some tid ∧ [fifoElement, fifoElement][i]? = some fiber ∧
          RunsAs twoCpuKernel 7 ((schedOps twoCpuKernel 7).run (fun _ => some ⟨[], 0, 0⟩)
            (s.applied.map Prod.snd)) tid fiber := by
  have hrun : ((timeTriggertSimple twoCpus [fifoElement, fifoElement]).exec
      (.init [fifoElement, fifoElement]) inTime).map
        (fun s => (s.fiber 1, s.fiberArray.length, s.published 0, s.published 1)) =
          some (.running, 2, some 71, some 72) := by
    decide +kernel
  obtain ⟨s, hs, hfacts⟩ := Option.map_eq_some_iff.mp hrun
  obtain ⟨hfiber, hlength, hzero, hone⟩ : _ ∧ _ ∧ _ ∧ _ := by
    simpa only [Prod.mk.injEq] using hfacts
  have hreachable := LabelledSystem.reachable_of_exec hs
  have hpublished : ∀ i tid, s.published i = some tid → i = 0 ∧ tid = 71 ∨ i = 1 ∧ tid = 72 := by
    intro i tid htid
    obtain ⟨fiber, hi, -⟩ :=
      (SchedulerState.inv_of_reachable hreachable.of_restrict).stored i tid htid
    have hlt : i < 2 := hlength ▸ (List.getElem?_eq_some_iff.mp hi).1
    obtain rfl | rfl : i = 0 ∨ i = 1 := by omega
    · exact .inl ⟨rfl, Option.some.inj (htid.symm.trans hzero)⟩
    · exact .inr ⟨rfl, Option.some.inj (htid.symm.trans hone)⟩
  -- the two threads are there, and their ids differ
  refine ⟨s, hs, hfiber, starts_configured (twoCpuKernel_grants 7) (by decide)
    (fun _ => some ⟨[], 0, 0⟩) ?_ hreachable ?_ ?_⟩
  · intro fiber hmem
    obtain rfl : fiber = fifoElement := by simpa using hmem
    exact ⟨0, by decide, by decide⟩
  · intro i tid htid
    rcases hpublished i tid htid with ⟨-, rfl⟩ | ⟨-, rfl⟩
    · exact ⟨by decide, rfl⟩
    · exact ⟨by decide, rfl⟩
  · intro i j tid hi hj
    rcases hpublished i tid hi with ⟨rfl, rfl⟩ | ⟨rfl, rfl⟩
    · rcases hpublished j 71 hj with ⟨rfl, -⟩ | ⟨-, hne⟩
      · rfl
      · cases hne
    · rcases hpublished j 72 hj with ⟨-, hne⟩ | ⟨rfl, -⟩
      · cases hne
      · rfl

end Libbaalue
