import Libbaalue.Fiber.Element

/-!
# `baa_set_schedule_props`

The loop over the elements: two scheduling calls for each, whose outcome the environment
chooses. A failed call is logged and nothing else happens: the loop goes on, and the value
returned does not depend on the outcomes.

`cpuSet` is what `CPU_ZERO` and `CPU_SET` make of an element's cpu, which is an `int` that nobody
has checked here: outside the range of the set, the set stays empty, and it is for the kernel to
refuse it. The order of the two calls for an element, and that the second is made whether or not the
first was refused, matters to what the kernel is left with, and `calls_baaSetScheduleProps` keeps
it.
-/

namespace Libbaalue

/-- The outcome of a scheduling call. -/
inductive Outcome
  | ok
  | failed (errno : Errno)
  deriving DecidableEq, Repr

/-- The outcomes of the two calls for one element, each made whatever the other comes to. -/
structure SchedOutcome where
  setaffinity : Outcome
  setscheduler : Outcome
  deriving DecidableEq, Repr

/-- Both calls succeed. -/
def SchedOutcome.AllOk (o : SchedOutcome) : Prop := o.setaffinity = .ok ∧ o.setscheduler = .ok

instance (o : SchedOutcome) : Decidable o.AllOk := inferInstanceAs (Decidable (_ ∧ _))

/-- The scheduling system calls, with the arguments that are made of an element. -/
inductive SchedCall
  | setaffinity (tid : CInt) (set : List ℕ)
  | setscheduler (tid policy schedPriority : CInt)
  deriving DecidableEq, Repr

/-- A line of the log: the format and the `int` it is printed with. -/
structure LogLine where
  format : String
  arg : Option CInt
  deriving DecidableEq, Repr

/-- `CPU_ZERO` and `CPU_SET`: a cpu that is negative or not below `CPU_SETSIZE` leaves the set
empty. -/
def cpuSet (cpu : CInt) : List ℕ := if cpu.toNat < 1024 then [cpu.toNat] else []

/-- What the loop body does for an element, apart from logging: the cpu first, policy and priority
then. -/
def schedCalls (fiber : FiberElement) : List SchedCall :=
  [.setaffinity fiber.kernelTid (cpuSet fiber.cpu),
    .setscheduler fiber.kernelTid fiber.policy fiber.schedPriority]

/-- What the loop body logs for an element: a cpu that cannot be put into a set, a cpu that is not
there, any other failure of the first call, and a failure of the second. -/
def schedLog (fiber : FiberElement) (o : SchedOutcome) : List LogLine :=
  (if cpuSet fiber.cpu = [] then [⟨"could not set fiber to CPU %d", some fiber.cpu⟩] else []) ++
    (match o.setaffinity with
      | .ok => []
      | .failed .einval => [⟨"no physical cpu %d", some fiber.cpu⟩]
      | .failed _ => [⟨"sched_setaffinity() == -1 ", none⟩]) ++
    (match o.setscheduler with
      | .ok => []
      | .failed _ => [⟨"could not set scheduling policy %d", some fiber.policy⟩])

/-- What a run of `baa_set_schedule_props` did and returned. A failed call shows in the log only. -/
structure SchedResult where
  calls : List SchedCall
  log : List LogLine
  ret : CInt
  deriving DecidableEq, Repr

/-- `baa_set_schedule_props` on the elements of an array; `outcome i` is what the calls for
element `i` come to. -/
def baaSetScheduleProps : List FiberElement → (ℕ → SchedOutcome) → SchedResult
  | [], _ => ⟨[], [], 0⟩
  | fiber :: fiberArray, outcome =>
    let rest := baaSetScheduleProps fiberArray fun i => outcome (i + 1)
    ⟨schedCalls fiber ++ rest.calls, schedLog fiber (outcome 0) ++ rest.log, rest.ret⟩

/-- The calls are those of the elements, in order, whatever the outcomes. -/
theorem calls_baaSetScheduleProps (fiberArray : List FiberElement) (outcome : ℕ → SchedOutcome) :
    (baaSetScheduleProps fiberArray outcome).calls = fiberArray.flatMap schedCalls := by
  induction fiberArray generalizing outcome with
  | nil => rfl
  | cons fiber fiberArray ih => rw [baaSetScheduleProps, ih, List.flatMap_cons]

/-- The value returned does not depend on the outcomes. -/
theorem ret_baaSetScheduleProps (fiberArray : List FiberElement) (outcome : ℕ → SchedOutcome) :
    (baaSetScheduleProps fiberArray outcome).ret = 0 := by
  induction fiberArray generalizing outcome with
  | nil => rfl
  | cons fiber fiberArray ih => rw [baaSetScheduleProps, ih]

/-- A failed call leaves a line in the log. -/
theorem schedLog_ne_nil_of_failed (fiber : FiberElement) {o : SchedOutcome} (h : ¬ o.AllOk) :
    schedLog fiber o ≠ [] := by
  intro hlog
  simp only [schedLog, List.append_eq_nil_iff] at hlog
  obtain ⟨⟨-, haff⟩, hsched⟩ := hlog
  refine h ⟨?_, ?_⟩
  · rcases ho : o.setaffinity with _ | errno
    · rfl
    · rw [ho] at haff
      cases errno <;> simp at haff
  · rcases ho : o.setscheduler with _ | _ <;> simp_all

end Libbaalue
