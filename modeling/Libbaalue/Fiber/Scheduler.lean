import Libbaalue.Fiber.ScheduleProps
import Libbaalue.Foundations.LabelledSystem
import Libbaalue.Foundations.Monitor

/-!
# The scheduler and its fibers

`baa_build_scheduler`, `baa_set_schedule_props` and `baa_start_scheduler` of the main thread, and
one `baa_fiber` for each element of the array, step by step. A label picks the thread that
moves. The sleep at the end of `baa_build_scheduler` is a step like any other: it orders
nothing. A blocked fiber may be woken at any time.

The element array is shared: a fiber writes its thread id into its element, and the main thread
reads it there when it sets the properties.

Nothing is assumed of the order of the threads. What the code relies on, that the fibers have
started when the sleep is over, is not a rule of this system but a condition on its runs, in
`Barrier`; here is only what each thread does next. The calls that can fail do so by their label,
and the places behind a failure are the ones the source goes to.
-/

namespace Libbaalue

/-- The places of `baa_fiber`; what `gettid` answered is a local variable. -/
inductive FiberPc
  | absent
  | gettid
  | publish (kernelTid : CInt)
  | stackPrefault
  | heapPrefault
  | lock
  | wait
  | waiting
  | unlock
  | running
  deriving DecidableEq, Repr

/-- The places of `baa_build_scheduler`. -/
inductive BuildPc
  | create (i : ℕ)
  | sleep
  deriving DecidableEq, Repr

/-- The places of `baa_set_schedule_props`, one before each of the two calls for an element. -/
inductive SetPropsPc
  | setaffinity (i : ℕ)
  | setscheduler (i : ℕ)
  deriving DecidableEq, Repr

/-- The places of `baa_start_scheduler`, up to the threads it waits for. A fiber does not end, so
that the first `pthread_join` returns only if it fails. -/
inductive StartPc
  | lock
  | broadcast
  | unlock
  | join (i : ℕ)
  | returned (ret : CInt)
  deriving DecidableEq, Repr

/-- The places of the main thread; it stops if the scheduler could not be built. -/
inductive MainPc
  | build (pc : BuildPc)
  | setProps (pc : SetPropsPc)
  | start (pc : StartPc)
  | failed
  deriving DecidableEq, Repr

/-- The threads. -/
inductive SchedulerThread
  | main
  | fiber (i : ℕ)
  deriving DecidableEq, Repr

/-- The threads, what they share, and what they have done. The array is shared: the fibers write
their thread ids into it, and the main thread reads them. -/
structure SchedulerState where
  main : MainPc
  fiber : ℕ → FiberPc
  monitor : Monitor SchedulerThread
  fiberArray : List FiberElement
  /-- The thread id that a fiber has written into its element. -/
  published : ℕ → Option CInt
  /-- The scheduling calls, each with the element it was made for. -/
  applied : List (ℕ × SchedCall)

/-- Which thread moves. `createFails` and `joinFails` are the failures of `pthread_create` and
`pthread_join`, and `spurious` is a wait that ends without a broadcast. -/
inductive SchedulerLabel
  | main
  | createFails
  | joinFails
  /-- A fiber moves; `tid` is what `gettid` answers, if that is what it calls. -/
  | fiber (i : ℕ) (tid : CInt)
  | spurious (i : ℕ)
  deriving DecidableEq, Repr

namespace SchedulerState

variable (s : SchedulerState)

/-- A step of `baa_build_scheduler`: the threads are created one after the other, and then it
sleeps. The sleep is a step like any other, as it orders nothing. -/
def baaBuildScheduler : BuildPc → SchedulerState
  | .create i =>
    if i < s.fiberArray.length then
      { s with
        fiber := Function.update s.fiber i .gettid
        main := .build (.create (i + 1)) }
    else { s with main := .build .sleep }
  | .sleep => { s with main := .setProps (.setaffinity 0) }

/-- A step of `baa_set_schedule_props`; the loop goes on whatever the calls come to. -/
def baaSetScheduleProps : SetPropsPc → Option SchedulerState
  | .setaffinity i =>
    match s.fiberArray[i]? with
    | some fiber =>
      some { s with
        applied := s.applied ++ [(i, .setaffinity fiber.kernelTid (cpuSet fiber.cpu))]
        main := .setProps (.setscheduler i) }
    | none => some { s with main := .start .lock }
  | .setscheduler i =>
    (s.fiberArray[i]?).map fun fiber =>
      { s with
        applied := s.applied ++
          [(i, .setscheduler fiber.kernelTid fiber.policy fiber.schedPriority)]
        main := .setProps (.setaffinity (i + 1)) }

/-- A step of `baa_start_scheduler`; a fiber does not end, so a join that succeeds does not
return. -/
def baaStartScheduler : StartPc → Option SchedulerState
  | .lock => (s.monitor.lock .main).map fun m => { s with monitor := m, main := .start .broadcast }
  | .broadcast => some { s with monitor := s.monitor.broadcast, main := .start .unlock }
  | .unlock =>
    (s.monitor.unlock .main).map fun m => { s with monitor := m, main := .start (.join 0) }
  | .join i =>
    if i < s.fiberArray.length then none else some { s with main := .start (.returned 0) }
  | .returned _ => none

/-- A step of `baa_fiber` for element `i`. What the prefaults come to is ignored, and the loop
behind the wait touches nothing that is modelled. -/
def baaFiber (i : ℕ) (tid : CInt) : FiberPc → Option SchedulerState
  | .absent | .running => none
  | .gettid => some { s with fiber := Function.update s.fiber i (.publish tid) }
  | .publish kernelTid =>
    some { s with
      fiberArray := s.fiberArray.modify i fun fiber => { fiber with kernelTid := kernelTid }
      published := Function.update s.published i (some kernelTid)
      fiber := Function.update s.fiber i .stackPrefault }
  | .stackPrefault => some { s with fiber := Function.update s.fiber i .heapPrefault }
  | .heapPrefault => some { s with fiber := Function.update s.fiber i .lock }
  | .lock =>
    (s.monitor.lock (.fiber i)).map fun m =>
      { s with monitor := m, fiber := Function.update s.fiber i .wait }
  | .wait =>
    (s.monitor.wait (.fiber i)).map fun m =>
      { s with monitor := m, fiber := Function.update s.fiber i .waiting }
  | .waiting =>
    (s.monitor.resume (.fiber i)).map fun m =>
      { s with monitor := m, fiber := Function.update s.fiber i .unlock }
  | .unlock =>
    (s.monitor.unlock (.fiber i)).map fun m =>
      { s with monitor := m, fiber := Function.update s.fiber i .running }

/-- One step; `none` when the thread cannot move. -/
def step : SchedulerLabel → Option SchedulerState
  | .main =>
    match s.main with
    | .build pc => some (s.baaBuildScheduler pc)
    | .setProps pc => s.baaSetScheduleProps pc
    | .start pc => s.baaStartScheduler pc
    | .failed => none
  | .createFails =>
    match s.main with
    | .build (.create i) =>
      if i < s.fiberArray.length then some { s with main := .failed } else none
    | _ => none
  | .joinFails =>
    match s.main with
    | .start (.join i) =>
      if i < s.fiberArray.length then some { s with main := .start (.returned (-1)) } else none
    | _ => none
  | .fiber i tid => s.baaFiber i tid (s.fiber i)
  | .spurious i => (s.monitor.wake (.fiber i)).map fun m => { s with monitor := m }

/-- Before `baa_build_scheduler`. -/
def init (fiberArray : List FiberElement) : SchedulerState where
  main := .build (.create 0)
  fiber _ := .absent
  monitor := .idle
  fiberArray := fiberArray
  published _ := none
  applied := []

variable {s} in
/-- What a fiber leaves alone: the main thread and the calls, and, unless it writes its thread
id, the array. -/
theorem baaFiber_frame {t : SchedulerState} {i : ℕ} {tid : CInt} {pc : FiberPc}
    (hst : s.baaFiber i tid pc = some t) :
    t.main = s.main ∧ t.applied = s.applied ∧
      (t.fiberArray = s.fiberArray ∧ t.published = s.published ∨
        ∃ kernelTid, pc = .publish kernelTid ∧
          t.fiberArray =
            s.fiberArray.modify i (fun fiber => { fiber with kernelTid := kernelTid }) ∧
          t.published = Function.update s.published i (some kernelTid)) := by
  cases pc <;> simp only [baaFiber, Option.map_eq_some_iff, reduceCtorEq, Option.some.injEq] at hst
  case lock | wait | waiting | unlock =>
    obtain ⟨m, -, rfl⟩ := hst
    exact ⟨rfl, rfl, .inl ⟨rfl, rfl⟩⟩
  case publish kernelTid =>
    subst hst
    exact ⟨rfl, rfl, .inr ⟨kernelTid, rfl, rfl, rfl⟩⟩
  all_goals
    subst hst
    exact ⟨rfl, rfl, .inl ⟨rfl, rfl⟩⟩

end SchedulerState

/-- The scheduler of a fiber array, and its fibers, from the call of `baa_build_scheduler` on. Its
runs have any order of the threads. -/
def scheduler (fiberArray : List FiberElement) : LabelledSystem SchedulerState SchedulerLabel where
  init := .init fiberArray
  step := SchedulerState.step

end Libbaalue
