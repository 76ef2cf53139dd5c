import Libbaalue.Fiber.Config
import Libbaalue.Fiber.Loop

/-!
# The time grid of a fiber

The deadlines of a run and the starts of the function group. The check of a configuration does not
look at the period, and the loop does not look at what `clock_nanosleep` has returned but for a
message: so the grid is proper for the fibers whose period is positive, and for them the function
group starts at the deadline or when a signal comes (`baaFiber_properGrid`).

What `clock_nanosleep` returned is looked at for a message only, so whether the function group waits
is decided by the environment: a sleep that is interrupted lets it start early, and one that is
refused at once. The first is by design, as a signal is to be noticed; the second comes of a period
that nobody has checked. The equivalence that separates them is `properGrid_zero_iff`.
-/

namespace Libbaalue

variable {abi : Abi} {fiber fiber' : TimedFiber abi} {returned : List SleepRet}
  {events : List (FiberEvent abi)} {sec : CLong abi}

/-- The deadlines that `clock_nanosleep` is called with, in the order of the calls. -/
def deadlines (events : List (FiberEvent abi)) : List (Timespec abi) :=
  events.filterMap fun
    | .clockNanosleep t _ => some t
    | _ => none

/-- The function group is started only after `clock_nanosleep` has returned something that is
`ok` for the deadline; `woken` says whether it has. -/
def StartsAfter (ok : SleepRet → Prop) : Prop → List (FiberEvent abi) → Prop
  | _, [] => True
  | _, .clockNanosleep _ s :: events => StartsAfter ok (ok s) events
  | woken, .infoMsg _ :: events => StartsAfter ok woken events
  | woken, .func :: events => woken ∧ StartsAfter ok woken events

/-- A proper time grid: every deadline is valid and later than those before it, and the function
group waits for it. -/
structure ProperGrid (ok : SleepRet → Prop) (events : List (FiberEvent abi)) : Prop where
  valid : ∀ t ∈ deadlines events, t.Normalised
  later : (deadlines events).Pairwise fun t u => t.ns < u.ns
  started : StartsAfter ok False events

/-- `clock_nanosleep` returns `EINVAL` for an invalid deadline, and only then. -/
def AnswersValidity (events : List (FiberEvent abi)) : Prop :=
  ∀ t s, .clockNanosleep t s ∈ events → (s = .einval ↔ ¬ t.Normalised)

variable {ok : SleepRet → Prop}

@[simp]
theorem deadlines_turnEvents (t : Timespec abi) (s : SleepRet) (rest : List (FiberEvent abi)) :
    deadlines (turnEvents t s ++ rest) = t :: deadlines rest := by
  rw [turnEvents]
  split_ifs <;> rfl

private theorem startsAfter_turnEvents {woken : Prop} {t : Timespec abi} {s : SleepRet}
    {rest : List (FiberEvent abi)} :
    StartsAfter ok woken (turnEvents t s ++ rest) ↔ ok s ∧ StartsAfter ok (ok s) rest := by
  rw [turnEvents]
  split_ifs <;> exact Iff.rfl

/-- **When the function group waits**: exactly as long as everything returned is `ok`. The code does
not look at what is returned, apart from a message. -/
theorem startsAfter_fiberLoop_iff {woken : Prop}
    (hrun : fiberLoop fiber returned = some (events, fiber')) :
    StartsAfter ok woken events ↔ ∀ s ∈ returned, ok s := by
  induction returned generalizing fiber events woken with
  | nil =>
    obtain ⟨rfl, -⟩ := Prod.mk.inj (Option.some.inj hrun)
    exact iff_of_true trivial (List.forall_mem_nil _)
  | cons s returned ih =>
    obtain ⟨t, rest, -, hrest, rfl⟩ := fiberLoop_cons_eq_some_iff.mp hrun
    rw [startsAfter_turnEvents, ih hrest, List.forall_mem_cons]

/-- **The deadlines of a run with a positive period** are valid, and each is later than those
before it. -/
theorem deadlines_fiberLoop (ht : fiber.t.Normalised) (hdt : 0 < fiber.dt.toInt)
    (hrun : fiberLoop fiber returned = some (events, fiber')) :
    (∀ t ∈ deadlines events, t.Normalised ∧ fiber.t.ns ≤ t.ns) ∧
      (deadlines events).Pairwise fun t u => t.ns < u.ns := by
  induction returned generalizing fiber events with
  | nil =>
    obtain ⟨rfl, -⟩ := Prod.mk.inj (Option.some.inj hrun)
    exact ⟨List.forall_mem_nil _, .nil⟩
  | cons s returned ih =>
    obtain ⟨t, rest, hnext, hrest, rfl⟩ := fiberLoop_cons_eq_some_iff.mp hrun
    obtain ⟨-, ht', hns⟩ := (nextDeadline_eq_some_iff ht hdt.le).mp hnext
    obtain ⟨hlate, hpair⟩ := @ih { fiber with t := t } _ ht' hdt hrest
    have hbehind : ∀ u ∈ deadlines rest, fiber.t.ns < u.ns := fun u hu => by
      have hle : t.ns ≤ u.ns := (hlate u hu).2
      omega
    rw [deadlines_turnEvents]
    refine ⟨List.forall_mem_cons.mpr ⟨⟨ht, le_rfl⟩, fun u hu => ?_⟩, .cons hbehind hpair⟩
    exact ⟨(hlate u hu).1, (hbehind u hu).le⟩

/-- What answers the deadlines of a proper grid is not `EINVAL`. -/
private theorem ne_einval_of_answersValidity
    (hrun : fiberLoop fiber returned = some (events, fiber'))
    (hvalid : ∀ t ∈ deadlines events, t.Normalised) (hanswers : AnswersValidity events) :
    ∀ s ∈ returned, s ≠ .einval := by
  induction returned generalizing fiber events with
  | nil => exact List.forall_mem_nil _
  | cons s returned ih =>
    obtain ⟨t, rest, -, hrest, rfl⟩ := fiberLoop_cons_eq_some_iff.mp hrun
    rw [deadlines_turnEvents, List.forall_mem_cons] at hvalid
    refine List.forall_mem_cons.mpr ⟨fun hs => ?_, ih hrest hvalid.2 fun u s' hmem =>
      hanswers u s' (List.mem_append_right _ hmem)⟩
    exact (hanswers fiber.t s (List.mem_append_left _ List.mem_cons_self)).mp hs hvalid.1

/-- A period that is not positive leads to no later deadline. -/
private theorem ns_nextDeadline_le {u : Timespec abi} {dt : CInt} (hdt : dt.toInt ≤ 0)
    (hnext : nextDeadline ⟨sec, 0⟩ dt = some u) : u.ns ≤ (⟨sec, 0⟩ : Timespec abi).ns := by
  obtain ⟨nsec, hnsec, hnorm⟩ := Option.bind_eq_some_iff.mp hnext
  rw [checkedAdd_eq_some_iff, toInt_signExtend_cint, toInt_zero, zero_add] at hnsec
  rw [baaTsNorm_of_lt (by simp only [nsecPerSec]; omega)] at hnorm
  obtain rfl := Option.some.inj hnorm
  simp only [Timespec.ns, toInt_zero, hnsec]
  omega

/-- **When a fiber has a proper time grid of its own accord.** In every run: the deadlines are
valid and each is later than those before it, and the function group always waits for them, if
and only if no sleep is interrupted or refused, and the period is positive unless there is only
one deadline. -/
theorem properGrid_zero_iff {now : Timespec abi}
    (hrun : baaFiber fiber now returned = some (events, fiber')) :
    ProperGrid (· = .zero) events ↔
      (∀ s ∈ returned, s = .zero) ∧ (returned.length ≤ 1 ∨ 0 < fiber.dt.toInt) := by
  obtain ⟨sec, -, hloop⟩ := baaFiber_eq_some_iff.mp hrun
  constructor
  · intro hgrid
    refine ⟨(startsAfter_fiberLoop_iff hloop).mp hgrid.started, ?_⟩
    rw [or_iff_not_imp_right, not_lt]
    intro hdt
    match returned, hloop with
    | [], _ | [_], _ => simp
    | s :: s' :: returned, hloop =>
      obtain ⟨t, rest, hnext, hrest, rfl⟩ := fiberLoop_cons_eq_some_iff.mp hloop
      obtain ⟨t', rest', -, -, rfl⟩ := fiberLoop_cons_eq_some_iff.mp hrest
      have hlater := hgrid.later
      rw [deadlines_turnEvents, deadlines_turnEvents] at hlater
      have hlt := List.rel_of_pairwise_cons hlater List.mem_cons_self
      exact absurd (ns_nextDeadline_le hdt hnext) (not_le.mpr hlt)
  · rintro ⟨hzero, hperiod⟩
    have hstarts : StartsAfter (· = .zero) False events :=
      (startsAfter_fiberLoop_iff hloop).mpr hzero
    rcases hperiod with hone | hdt
    · match returned, hloop with
      | [], hloop =>
        obtain ⟨rfl, -⟩ := Prod.mk.inj (Option.some.inj hloop)
        exact ⟨List.forall_mem_nil _, .nil, hstarts⟩
      | [s], hloop =>
        obtain ⟨t, rest, -, hrest, rfl⟩ := fiberLoop_cons_eq_some_iff.mp hloop
        obtain ⟨rfl, -⟩ := Prod.mk.inj (Option.some.inj hrest)
        refine ⟨?_, ?_, hstarts⟩
        · rw [deadlines_turnEvents]
          exact List.forall_mem_cons.mpr ⟨TimedFiber.normalised_startAt, List.forall_mem_nil _⟩
        · rw [deadlines_turnEvents]
          exact List.pairwise_singleton _ _
      | _ :: _ :: _, _ => simp at hone
    · obtain ⟨hvalid, hlater⟩ := deadlines_fiberLoop TimedFiber.normalised_startAt hdt hloop
      exact ⟨fun t ht => (hvalid t ht).1, hlater, hstarts⟩

/-- **The time grid of a fiber with a positive period.** On 64-bit `long`, whatever the check says
of the element: as long as the seconds are in range, every deadline is valid and later than
those before it, and the function group is started for it only after `clock_nanosleep` has
returned because the deadline was reached or a signal came. -/
theorem baaFiber_properGrid (fiber : TimedFiber .lp64) (hdt : 0 < fiber.dt.toInt)
    (now : Timespec .lp64) (returned : List SleepRet)
    (hsec : now.tvSec.toInt + 1 + returned.length * fiber.dt.toInt / nsecPerSec < 2 ^ 63) :
    ∃ events fiber', baaFiber fiber now returned = some (events, fiber') ∧
      (AnswersValidity events → ProperGrid (· ≠ .einval) events) := by
  obtain ⟨events, fiber', hrun⟩ := exists_baaFiber hdt.le hsec
  refine ⟨events, fiber', hrun, fun hanswers => ?_⟩
  obtain ⟨sec, -, hloop⟩ := baaFiber_eq_some_iff.mp hrun
  obtain ⟨hvalid, hlater⟩ := deadlines_fiberLoop TimedFiber.normalised_startAt hdt hloop
  have hnorm : ∀ t ∈ deadlines events, t.Normalised := fun t ht => (hvalid t ht).1
  refine ⟨hnorm, hlater, (startsAfter_fiberLoop_iff hloop).mpr ?_⟩
  exact ne_einval_of_answersValidity hloop hnorm hanswers

theorem baaFiber_properGrid_fastFiber :
    ∃ events fiber', baaFiber fastFiber ⟨100, 5⟩ [.zero, .eintr] = some (events, fiber') ∧
      (AnswersValidity events → ProperGrid (· ≠ .einval) events) :=
  baaFiber_properGrid fastFiber (by decide) ⟨100, 5⟩ [.zero, .eintr] (by decide)

/-- A fiber without a period. -/
def stillFiber : TimedFiber .lp64 := ⟨⟨0, schedOther, 0, 0⟩, ⟨0, 0⟩, 0⟩

/-- The check accepts a fiber without a period, whose second deadline is the first one; a fiber
with a period whose first sleep is interrupted starts its function group all the same; and where
the clock is at its last second there is no first deadline. -/
theorem not_properGrid :
    (baaIsFiberConfigValid fourCpus (some fun _ => stillFiber.toFiberElement) 1 = .ok () ∧
      ∃ events fiber', baaFiber stillFiber ⟨0, 0⟩ [.zero, .zero] = some (events, fiber') ∧
        AnswersValidity events ∧ ¬ ProperGrid (· = .zero) events) ∧
    (baaIsFiberConfigValid fourCpus (some fun _ => fastFiber.toFiberElement) 1 = .ok () ∧
      ∃ events fiber', baaFiber fastFiber ⟨0, 0⟩ [.eintr] = some (events, fiber') ∧
        AnswersValidity events ∧ ¬ ProperGrid (· = .zero) events) ∧
    baaFiber fastFiber ⟨9223372036854775807, 0⟩ [.zero] = none := by
  have hfull : (⟨1, 0⟩ : Timespec .lp64).Normalised := by decide
  refine ⟨⟨by decide, ?_⟩, ⟨by decide, ?_⟩, rfl⟩
  · have hnext : nextDeadline (⟨1, 0⟩ : Timespec .lp64) 0 = some ⟨1, 0⟩ :=
      (nextDeadline_eq_some_iff hfull (by decide)).mpr (by decide)
    have hloop : fiberLoop (stillFiber.startAt 1) [.zero, .zero] =
        some (turnEvents ⟨1, 0⟩ .zero ++ (turnEvents ⟨1, 0⟩ .zero ++ []), stillFiber.startAt 1) :=
      fiberLoop_cons_eq_some_iff.mpr ⟨⟨1, 0⟩, _, hnext,
        fiberLoop_cons_eq_some_iff.mpr ⟨⟨1, 0⟩, [], hnext, rfl, rfl⟩, rfl⟩
    have hrun : baaFiber stillFiber ⟨0, 0⟩ [.zero, .zero] = some _ :=
      baaFiber_eq_some_iff.mpr ⟨1, by decide, hloop⟩
    refine ⟨_, _, hrun, fun t s hmem => ?_, fun hgrid => ?_⟩
    · have hts : t = ⟨1, 0⟩ ∧ s = .zero := by simpa [turnEvents] using hmem
      obtain ⟨rfl, rfl⟩ := hts
      exact iff_of_false (by decide) (not_not.mpr hfull)
    · have hperiod := ((properGrid_zero_iff hrun).mp hgrid).2
      revert hperiod
      decide
  · have hnext : nextDeadline (⟨1, 0⟩ : Timespec .lp64) 10000000 = some ⟨1, 10000000⟩ :=
      (nextDeadline_eq_some_iff hfull (by decide)).mpr (by decide)
    have hloop : fiberLoop (fastFiber.startAt 1) [.eintr] =
        some (turnEvents ⟨1, 0⟩ .eintr ++ [], { fastFiber with t := ⟨1, 10000000⟩ }) :=
      fiberLoop_cons_eq_some_iff.mpr ⟨⟨1, 10000000⟩, [], hnext, rfl, rfl⟩
    have hrun : baaFiber fastFiber ⟨0, 0⟩ [.eintr] = some _ :=
      baaFiber_eq_some_iff.mpr ⟨1, by decide, hloop⟩
    refine ⟨_, _, hrun, fun t s hmem => ?_, fun hgrid => ?_⟩
    · have hts : t = ⟨1, 0⟩ ∧ s = .eintr := by simpa [turnEvents] using hmem
      obtain ⟨rfl, rfl⟩ := hts
      exact iff_of_false (by decide) (not_not.mpr hfull)
    · have hzero := ((properGrid_zero_iff hrun).mp hgrid).1
      revert hzero
      decide

end Libbaalue
