import Libbaalue.Fiber.Barrier

/-!
# The properties an orderly run applies

`baa_set_schedule_props` has two models: the loop over a list, for a caller that has the elements
to itself (the server), and the steps of the main thread, while the fibers write to the array.
In the orderly runs they agree: once the main thread goes on to `baa_start_scheduler`, it has
made the calls of the loop on the array with the thread ids of the fibers (`calls_applied`).

The loop that runs while the array is written to could make calls that no loop over a list makes. It
does not in an orderly run, since an element is not written any more when its calls are made. So
what is known of `baa_set_schedule_props` on a list, its log and its effect on the kernel's table,
holds of the main thread as well, and the applications use it from here.
-/

namespace Libbaalue

/-- The elements of an array of `n` that the main thread has made calls for. -/
def MainPc.propsDone (n : ℕ) : MainPc → ℕ
  | .setProps (.setaffinity i) => i
  | .setProps (.setscheduler i) => i + 1
  | .start _ => n
  | _ => 0

namespace SchedulerState

/-- The calls that the place of the main thread stands for: two for every element that is done, and
the first of the two for the element it is at when that has been made. -/
def callsDue (s : SchedulerState) : List SchedCall :=
  let calls := (s.fiberArray.take (s.main.propsDone s.fiberArray.length)).flatMap schedCalls
  match s.main with
  | .setProps (.setscheduler _) => calls.dropLast
  | _ => calls

/-- How far the main thread has got: the fibers of the elements that are done have written their
thread ids, and the calls made are those that are due, with these ids. -/
structure Progress (s : SchedulerState) : Prop where
  published : ∀ k < s.main.propsDone s.fiberArray.length, (s.published k).isSome
  calls : s.applied.map Prod.snd = s.callsDue

variable {s t : SchedulerState}

/-- A step of a fiber writes only behind the elements that are done. -/
theorem Progress.baaFiber (h : s.Progress) (hinv : s.Inv) {i : ℕ} {tid : CInt}
    (hst : s.baaFiber i tid (s.fiber i) = some t) : t.Progress := by
  obtain ⟨hmain, happlied, hframe | ⟨kernelTid, hpc, harray, hpublished⟩⟩ := baaFiber_frame hst
  · obtain ⟨harray, hpublished⟩ := hframe
    refine ⟨?_, ?_⟩
    · rw [hmain, harray, hpublished]
      exact h.published
    · rw [happlied, h.calls, callsDue, callsDue, hmain, harray]
  · have hnone : s.published i = none := by
      exact hinv.unpublished i (by simp [hpc, FiberPc.hasPublished])
    have hlength : t.fiberArray.length = s.fiberArray.length := by
      rw [harray, List.length_modify]
    have hle : s.main.propsDone s.fiberArray.length ≤ i := by
      refine not_lt.mp fun hlt => ?_
      have hsome := h.published i hlt
      simp [hnone] at hsome
    -- so the elements that are done stay as they are
    have htake : (t.fiberArray.take (s.main.propsDone s.fiberArray.length)) =
        s.fiberArray.take (s.main.propsDone s.fiberArray.length) := by
      rw [harray, List.take_modify, List.modify_eq_self]
      exact (List.length_take_le _ _).trans hle
    refine ⟨fun k hk => ?_, ?_⟩
    · rw [hmain, hlength] at hk
      rw [hpublished, Function.update_of_ne (hk.trans_le hle).ne]
      exact h.published k hk
    · rw [happlied, h.calls, callsDue, callsDue, hmain, hlength, htake]

/-- The main thread moves and makes no call. -/
theorem Progress.move (h : s.Progress) (hpublished : t.published = s.published)
    (happlied : t.applied = s.applied)
    (hdone : t.main.propsDone t.fiberArray.length = s.main.propsDone s.fiberArray.length)
    (hcalls : t.callsDue = s.callsDue) : t.Progress :=
  ⟨by rw [hdone, hpublished]; exact h.published, by rw [happlied, h.calls, hcalls]⟩

/-- The calls for one more element. -/
private theorem flatMap_take_add_one {fiberArray : List FiberElement} {i : ℕ} {fiber : FiberElement}
    (hfiber : fiberArray[i]? = some fiber) :
    (fiberArray.take (i + 1)).flatMap schedCalls =
      (fiberArray.take i).flatMap schedCalls ++ schedCalls fiber := by
  rw [List.take_add_one, hfiber, List.flatMap_append]
  rfl

/-- A step of the loop over the elements. -/
theorem Progress.baaSetScheduleProps (h : s.Progress) {pc : SetPropsPc}
    (hmain : s.main = .setProps pc) (horderly : s.orderly .main)
    (hst : s.baaSetScheduleProps pc = some t) : t.Progress := by
  obtain ⟨hpub, hcalls⟩ := h
  rcases pc with i | i
  case setaffinity =>
    simp only [hmain, MainPc.propsDone] at hpub
    simp only [hmain, callsDue, MainPc.propsDone] at hcalls
    rcases hfiber : s.fiberArray[i]? with _ | fiber <;>
      simp only [SchedulerState.baaSetScheduleProps, hfiber, Option.some.injEq] at hst <;>
      subst hst
    · -- behind the last element the loop ends
      have hle : s.fiberArray.length ≤ i := List.getElem?_eq_none_iff.mp hfiber
      refine ⟨fun k hk => hpub k (hk.trans_le hle), ?_⟩
      simp only [callsDue, MainPc.propsDone]
      rw [hcalls, List.take_of_length_le hle, List.take_length]
    · have hlt : i < s.fiberArray.length := (List.getElem?_eq_some_iff.mp hfiber).1
      refine ⟨fun k hk => ?_, ?_⟩
      -- the element itself has its thread id, since the run is orderly
      · rcases Nat.lt_succ_iff_lt_or_eq.mp hk with hk | rfl
        · exact hpub k hk
        · simpa [orderly, hmain, hlt] using horderly
      · simp only [callsDue, MainPc.propsDone]
        rw [List.map_append, hcalls, flatMap_take_add_one hfiber, List.dropLast_append_of_ne_nil]
        · rfl
        · simp [schedCalls]
  case setscheduler =>
    simp only [hmain, MainPc.propsDone] at hpub
    simp only [hmain, callsDue, MainPc.propsDone] at hcalls
    simp only [SchedulerState.baaSetScheduleProps, Option.map_eq_some_iff] at hst
    obtain ⟨fiber, hfiber, rfl⟩ := hst
    refine ⟨hpub, ?_⟩
    simp only [callsDue, MainPc.propsDone]
    rw [List.map_append, hcalls, flatMap_take_add_one hfiber, List.dropLast_append_of_ne_nil]
    · simp [schedCalls]
    · simp [schedCalls]

/-- Before the loop there are no calls. -/
theorem Progress.baaBuildScheduler (h : s.Progress) {pc : BuildPc} (hmain : s.main = .build pc) :
    (s.baaBuildScheduler pc).Progress := by
  rcases pc with k | _ <;> simp only [SchedulerState.baaBuildScheduler]
  case create =>
    split_ifs <;>
      exact h.move rfl rfl (by simp [hmain, MainPc.propsDone])
        (by simp [callsDue, hmain, MainPc.propsDone])
  case sleep =>
    exact h.move rfl rfl (by simp [hmain, MainPc.propsDone])
      (by simp [callsDue, hmain, MainPc.propsDone])

/-- Behind the loop the calls are all there. -/
theorem Progress.baaStartScheduler (h : s.Progress) {pc : StartPc} (hmain : s.main = .start pc)
    (hst : s.baaStartScheduler pc = some t) : t.Progress := by
  obtain ⟨pc', m, rfl, -⟩ := baaStartScheduler_frame hst
  exact h.move rfl rfl (by simp only [hmain, MainPc.propsDone])
    (by simp only [callsDue, hmain, MainPc.propsDone])

/-- **Every step** of an orderly run. -/
theorem Progress.step (h : s.Progress) (hinv : s.Inv) {a : SchedulerLabel}
    (horderly : s.orderly a) (hst : s.step a = some t) : t.Progress := by
  rcases a with _ | _ | _ | ⟨i, tid⟩ | i <;> simp only [SchedulerState.step] at hst
  case main =>
    rcases hmain : s.main with pc | pc | pc | _ <;> simp only [hmain, reduceCtorEq] at hst
    · exact Option.some.inj hst ▸ h.baaBuildScheduler hmain
    · exact h.baaSetScheduleProps hmain horderly hst
    · exact h.baaStartScheduler hmain hst
  case fiber => exact h.baaFiber hinv hst
  case spurious =>
    obtain ⟨m, -, rfl⟩ := Option.map_eq_some_iff.mp hst
    exact h.move rfl rfl rfl rfl
  case createFails | joinFails =>
    split at hst
    · rename_i k hmain
      split_ifs at hst
      obtain rfl := Option.some.inj hst
      exact h.move rfl rfl (by simp [hmain, MainPc.propsDone])
        (by simp [callsDue, hmain, MainPc.propsDone])
    · cases hst

end SchedulerState

theorem SchedulerState.progress_of_reachable {fiberArray : List FiberElement} {s : SchedulerState}
    (h : (orderlyScheduler fiberArray).Reachable s) : s.Progress := by
  refine h.invariant ⟨nofun, rfl⟩ fun s a t hs hprogress hst => ?_
  obtain ⟨horderly, hst⟩ := LabelledSystem.restrict_step_iff.mp hst
  exact hprogress.step (SchedulerState.inv_of_reachable hs) horderly hst

/-- **The calls of an orderly run** are those of the loop, on the array that the fibers have written
to. So the loop may be looked at by itself, as if the thread ids had been there before it began. -/
theorem calls_applied (fiberArray : List FiberElement) {s : SchedulerState}
    (h : (orderlyScheduler fiberArray).Reachable s) {pc : StartPc} (hmain : s.main = .start pc)
    (outcome : ℕ → SchedOutcome) :
    s.applied.map Prod.snd = (baaSetScheduleProps s.fiberArray outcome).calls := by
  rw [(SchedulerState.progress_of_reachable h).calls, calls_baaSetScheduleProps]
  simp only [SchedulerState.callsDue, hmain, MainPc.propsDone, List.take_length]

end Libbaalue
