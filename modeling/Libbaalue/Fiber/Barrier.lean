import Libbaalue.Fiber.Scheduler

/-!
# The start barrier

The wait of a fiber has no condition to look at again, and only the sleep of the main thread
stands between the creation of the fibers and the broadcast. So the barrier is one only in the
runs that happen to be orderly: a fiber has written its thread id when the main thread reads it,
every fiber has taken the mutex before the main thread does, and no wait ends before the
broadcast. `start_barrier` is about these runs, for any number of fibers;
`not_start_barrier` has a run for each way in which it fails.

The invariant is by places: it says for each thread what its place implies about the mutex, the
blocked threads and what was published, and what the place of the main thread implies about all the
fibers. It is kept by one lemma for each function, and those rest on two for the moves that change
nothing but a place. That a woken fiber does get out of its wait is a statement about what can
follow, and is proved as one step of whoever has the mutex (`leaves_wait`).
-/

namespace Libbaalue

/-! ### Places -/

/-- The fiber has written its thread id. -/
def FiberPc.hasPublished : FiberPc → Bool
  | .absent | .gettid | .publish _ => false
  | _ => true

/-- The fiber has taken the mutex for its wait. -/
def FiberPc.hasArrived : FiberPc → Bool
  | .wait | .waiting | .unlock | .running => true
  | _ => false

/-- The fiber has returned from its wait. -/
def FiberPc.isPastWait : FiberPc → Bool
  | .unlock | .running => true
  | _ => false

/-- The fiber has the mutex. -/
def FiberPc.isInside : FiberPc → Bool
  | .wait | .unlock => true
  | _ => false

/-- The main thread has taken the mutex. -/
def MainPc.hasLocked : MainPc → Bool
  | .start .lock => false
  | .start _ => true
  | _ => false

/-- The broadcast has completed. -/
def MainPc.hasBroadcast : MainPc → Bool
  | .start .lock | .start .broadcast => false
  | .start _ => true
  | _ => false

/-- The main thread has the mutex. -/
def MainPc.isInside : MainPc → Bool
  | .start .broadcast | .start .unlock => true
  | _ => false

/-- The thread id a scheduling call is made for. -/
def SchedCall.tid : SchedCall → CInt
  | .setaffinity tid _ => tid
  | .setscheduler tid _ _ => tid

/-- A fiber on the way to its wait is nowhere behind it. -/
private theorem FiberPc.of_not_hasArrived {pc : FiberPc} (h : ¬ pc.hasArrived) :
    ¬ pc.isInside ∧ ¬ pc.isPastWait ∧ pc ≠ .wait ∧ pc ≠ .waiting := by
  cases pc <;> simp_all [hasArrived, isInside, isPastWait]

/-- Who has broadcast has taken the mutex. -/
private theorem MainPc.hasLocked_of_hasBroadcast {pc : MainPc} (h : pc.hasBroadcast) :
    pc.hasLocked := by
  unfold MainPc.hasBroadcast at h
  unfold MainPc.hasLocked
  split at h <;> simp_all

private theorem FiberPc.eq_of_isInside {pc : FiberPc} (h : pc.isInside) :
    pc = .wait ∨ pc = .unlock := by
  unfold isInside at h
  split at h <;> simp_all

/-- After the broadcast, the main thread has the mutex only until it unlocks it. -/
private theorem MainPc.eq_unlock_of_isInside {pc : MainPc} (h : pc.isInside)
    (hdone : pc.hasBroadcast) : pc = .start .unlock := by
  unfold isInside at h
  split at h
  · cases hdone
  · rfl
  · cases h

namespace SchedulerState

/-- The thread has the mutex, by its place. -/
def Inside (s : SchedulerState) : SchedulerThread → Prop
  | .main => s.main.isInside
  | .fiber i => (s.fiber i).isInside

/-- The steps of an orderly run: the main thread reads a thread id only when it is there, it takes
the mutex for its broadcast only when every fiber has got to its wait, and no fiber wakes up before
the broadcast. The `sleep`s of the code make such runs likely and no more. -/
def orderly (s : SchedulerState) : SchedulerLabel → Bool
  | .main =>
    match s.main with
    -- the main thread reads the thread id of an element
    | .setProps (.setaffinity i) | .setProps (.setscheduler i) =>
      decide (i < s.fiberArray.length → (s.published i).isSome)
    | .start .lock => decide (∀ i < s.fiberArray.length, (s.fiber i).hasArrived)
    | _ => true
  | .spurious _ => s.main.hasBroadcast
  | _ => true

/-! ### The invariant -/

/-- The invariant of the orderly runs. Its clauses are about the places of the threads, about what
is stored and published, about the mutex, and about who is blocked before the broadcast and after
it. -/
structure Inv (s : SchedulerState) : Prop where
  absent : ∀ i, s.fiberArray.length ≤ i → s.fiber i = .absent
  uncreated : ∀ k, s.main = .build (.create k) → ∀ i, k ≤ i → s.fiber i = .absent
  unpublished : ∀ i, ¬ (s.fiber i).hasPublished → s.published i = none
  stored : ∀ i tid, s.published i = some tid →
    ∃ fiber, s.fiberArray[i]? = some fiber ∧ fiber.kernelTid = tid
  applied : ∀ x ∈ s.applied, s.published x.1 = some x.2.tid
  guards : s.monitor.Guards s.Inside
  waits : ∀ i, s.monitor.blocked (.fiber i) → s.fiber i = .waiting
  closed : ¬ s.main.hasBroadcast → ∀ i, ¬ (s.fiber i).isPastWait ∧
    (s.fiber i = .waiting → s.monitor.blocked (.fiber i))
  arrived : s.main.hasLocked → ∀ i < s.fiberArray.length, (s.fiber i).hasArrived
  opened : s.main.hasBroadcast → ∀ i, s.monitor.blocked (.fiber i) = false ∧ s.fiber i ≠ .wait

variable {s t : SchedulerState}

/-- The place of a thread says who is inside; another thread does not change it. -/
private theorem inside_update {i : ℕ} {pc : FiberPc} {u : SchedulerThread} (hne : u ≠ .fiber i) :
    Inside { s with fiber := Function.update s.fiber i pc } u ↔ s.Inside u := by
  cases u with
  | main => rfl
  | fiber j =>
    have hj : j ≠ i := fun heq => hne (heq ▸ rfl)
    simp only [Inside, Function.update_of_ne hj]

private theorem inside_update_self {i : ℕ} {pc : FiberPc} :
    Inside { s with fiber := Function.update s.fiber i pc } (.fiber i) ↔ pc.isInside := by
  simp only [Inside, Function.update_self]

/-- A fiber that was created belongs to an element. -/
theorem Inv.lt_length (h : s.Inv) {i : ℕ} (hi : s.fiber i ≠ .absent) :
    i < s.fiberArray.length :=
  not_le.mp fun hle => hi (h.absent i hle)

/-! ### Steps of a fiber -/

/-- A fiber moves and leaves the array alone. -/
private theorem Inv.setFiber (h : s.Inv) {i : ℕ} {pc : FiberPc} {m : Monitor SchedulerThread}
    (hi : s.fiber i ≠ .absent) (hpub : ¬ pc.hasPublished → ¬ (s.fiber i).hasPublished)
    (hguards : m.Guards (Inside { s with fiber := Function.update s.fiber i pc }))
    (hblocked : ∀ j, j ≠ i → m.blocked (.fiber j) = s.monitor.blocked (.fiber j))
    (hwaits : m.blocked (.fiber i) → pc = .waiting)
    (hclosed : ¬ s.main.hasBroadcast → ¬ pc.isPastWait ∧
      (pc = .waiting → m.blocked (.fiber i)))
    (harrived : (s.fiber i).hasArrived → pc.hasArrived)
    (hopened : s.main.hasBroadcast → m.blocked (.fiber i) = false ∧ pc ≠ .wait) :
    Inv { s with monitor := m, fiber := Function.update s.fiber i pc } := by
  have hself : Function.update s.fiber i pc i = pc := Function.update_self ..
  have hother {j : ℕ} (hj : j ≠ i) : Function.update s.fiber i pc j = s.fiber j :=
    Function.update_of_ne hj ..
  refine ⟨fun j hle => ?_, fun k hk j hle => ?_, fun j => ?_, h.stored, h.applied, hguards,
    fun j => ?_, fun hnot j => ?_, fun hlocked j hlt => ?_, fun hdone j => ?_⟩ <;>
    rcases eq_or_ne j i with rfl | hne
  · exact absurd (h.absent j hle) hi
  · simpa only [hother hne] using h.absent j hle
  · exact absurd (h.uncreated k hk j hle) hi
  · simpa only [hother hne] using h.uncreated k hk j hle
  · simpa only [hself] using fun hpc => h.unpublished j (hpub hpc)
  · simpa only [hother hne] using h.unpublished j
  · simpa only [hself] using hwaits
  · simpa only [hother hne, hblocked j hne] using h.waits j
  · simpa only [hself] using hclosed hnot
  · simpa only [hother hne, hblocked j hne] using h.closed hnot j
  · simpa only [hself] using harrived (h.arrived hlocked j hlt)
  · simpa only [hother hne] using h.arrived hlocked j hlt
  · simpa only [hself] using hopened hdone
  · simpa only [hother hne, hblocked j hne] using h.opened hdone j

/-- A fiber moves on the way to its wait. -/
private theorem Inv.moveFiber (h : s.Inv) {i : ℕ} {pc : FiberPc} (hi : s.fiber i ≠ .absent)
    (hpub : ¬ pc.hasPublished → ¬ (s.fiber i).hasPublished)
    (hold : ¬ (s.fiber i).hasArrived) (hnew : ¬ pc.hasArrived) :
    Inv { s with fiber := Function.update s.fiber i pc } := by
  have hblocked : s.monitor.blocked (.fiber i) = false :=
    Bool.eq_false_iff.mpr fun hb => hold (by simp [h.waits i hb, FiberPc.hasArrived])
  obtain ⟨houtside, -, -, -⟩ := FiberPc.of_not_hasArrived hold
  obtain ⟨houtside', hpast, hwait, hwaiting⟩ := FiberPc.of_not_hasArrived hnew
  refine h.setFiber hi hpub (h.guards.congr fun u => ?_) (fun _ _ => rfl) (by simp [hblocked])
    (fun _ => ⟨hpast, fun heq => absurd heq hwaiting⟩) (fun harr => absurd harr hold)
    fun _ => ⟨hblocked, hwait⟩
  -- the mutex does not change hands
  rcases eq_or_ne u (.fiber i) with rfl | hne
  · exact inside_update_self.trans (iff_of_false houtside' houtside)
  · exact inside_update hne

/-- A fiber writes its thread id. -/
theorem Inv.publish (h : s.Inv) {i : ℕ} (hi : (s.fiber i).hasPublished)
    (hnone : s.published i = none) (kernelTid : CInt) :
    Inv { s with
      fiberArray := s.fiberArray.modify i fun fiber => { fiber with kernelTid := kernelTid }
      published := Function.update s.published i (some kernelTid) } := by
  have hlt : i < s.fiberArray.length :=
    h.lt_length fun habsent => by simp [habsent, FiberPc.hasPublished] at hi
  refine ⟨?_, h.uncreated, fun j hj => ?_, fun j tid hj => ?_, fun x hx => ?_, h.guards, h.waits,
    h.closed, ?_, h.opened⟩
  · simpa only [List.length_modify] using h.absent
  · have hne : j ≠ i := fun heq => hj (heq ▸ hi)
    simpa only [Function.update_of_ne hne] using h.unpublished j hj
  · rcases eq_or_ne j i with rfl | hne
    · simp only [Function.update_self] at hj
      refine ⟨{ s.fiberArray[j] with kernelTid := kernelTid }, ?_, Option.some.inj hj⟩
      simp [List.getElem?_eq_getElem hlt]
    · simp only [Function.update_of_ne hne] at hj
      obtain ⟨fiber, hfiber, htid⟩ := h.stored j tid hj
      exact ⟨fiber, by simp [hne.symm, hfiber], htid⟩
  · -- no call was made for this element
    have hx' := h.applied x hx
    have hne : x.1 ≠ i := fun heq => by simp [heq, hnone] at hx'
    simpa only [Function.update_of_ne hne] using hx'
  · simpa only [List.length_modify] using h.arrived

/-- **A step of a fiber** keeps the invariant. -/
theorem Inv.baaFiber (h : s.Inv) {i : ℕ} {tid : CInt}
    (hst : s.baaFiber i tid (s.fiber i) = some t) : t.Inv := by
  have hframe {pc : FiberPc} (u : SchedulerThread) (hne : u ≠ .fiber i) :
      Inside { s with fiber := Function.update s.fiber i pc } u ↔ s.Inside u :=
    inside_update hne
  have hother {m : Monitor SchedulerThread} (hm : m.blocked = s.monitor.blocked) (j : ℕ)
      (_ : j ≠ i) : m.blocked (.fiber j) = s.monitor.blocked (.fiber j) := by rw [hm]
  have hunblocked (hpc : s.fiber i ≠ .waiting) : s.monitor.blocked (.fiber i) = false :=
    Bool.eq_false_iff.mpr fun hb => hpc (h.waits i hb)
  rcases hpc : s.fiber i with _ | _ | kernelTid | _ | _ | _ | _ | _ | _ | _ <;>
    simp only [SchedulerState.baaFiber, hpc, Option.map_eq_some_iff, reduceCtorEq,
      Option.some.injEq] at hst
  case gettid =>
    subst hst
    exact h.moveFiber (by simp [hpc]) (by simp [hpc, FiberPc.hasPublished])
      (by simp [hpc, FiberPc.hasArrived]) (by simp [FiberPc.hasArrived])
  case publish =>
    subst hst
    have hmoved : Inv { s with fiber := Function.update s.fiber i .stackPrefault } :=
      h.moveFiber (by simp [hpc]) (by simp [FiberPc.hasPublished])
        (by simp [hpc, FiberPc.hasArrived]) (by simp [FiberPc.hasArrived])
    exact hmoved.publish (by simp [FiberPc.hasPublished])
      (h.unpublished i (by simp [hpc, FiberPc.hasPublished])) kernelTid
  case stackPrefault | heapPrefault =>
    subst hst
    exact h.moveFiber (by simp [hpc]) (by simp [FiberPc.hasPublished])
      (by simp [hpc, FiberPc.hasArrived]) (by simp [FiberPc.hasArrived])
  case lock =>
    obtain ⟨m, hm, rfl⟩ := hst
    obtain ⟨-, hblocked, hguards⟩ := h.guards.lock hm
    have hfree := hunblocked (by simp [hpc])
    refine h.setFiber (by simp [hpc]) (by simp [FiberPc.hasPublished])
      (hguards (inside_update_self.mpr rfl) hframe) (hother hblocked) (by simp [hblocked, hfree])
      (fun _ => by simp [FiberPc.isPastWait]) (by simp [FiberPc.hasArrived]) fun hdone => ?_
    -- the main thread has waited for this fiber
    have harr := h.arrived (MainPc.hasLocked_of_hasBroadcast hdone) i
      (h.lt_length (by simp [hpc]))
    simp [hpc, FiberPc.hasArrived] at harr
  case wait =>
    obtain ⟨m, hm, rfl⟩ := hst
    obtain ⟨-, hblocked, hguards⟩ := h.guards.wait hm
    refine h.setFiber (by simp [hpc]) (by simp [FiberPc.hasPublished])
      (hguards (by simp [Inside, FiberPc.isInside]) hframe) (fun j hj => ?_) (fun _ => rfl)
      (fun _ => by simp [FiberPc.isPastWait, hblocked]) (by simp [FiberPc.hasArrived])
      fun hdone => absurd hpc (h.opened hdone i).2
    rw [hblocked, Function.update_of_ne (by simpa using hj)]
  case waiting =>
    obtain ⟨m, hm, rfl⟩ := hst
    obtain ⟨hfree, -, hblocked, hguards⟩ := h.guards.resume hm
    refine h.setFiber (by simp [hpc]) (by simp [FiberPc.hasPublished])
      (hguards (inside_update_self.mpr rfl) hframe) (hother hblocked) (by simp [hblocked, hfree])
      (fun hnot => ?_) (by simp [FiberPc.hasArrived]) fun _ => by simp [hblocked, hfree]
    -- before the broadcast the fiber is blocked
    simp [(h.closed hnot i).2 hpc] at hfree
  case unlock =>
    obtain ⟨m, hm, rfl⟩ := hst
    obtain ⟨-, hblocked, hguards⟩ := h.guards.unlock hm
    have hfree := hunblocked (by simp [hpc])
    refine h.setFiber (by simp [hpc]) (by simp [FiberPc.hasPublished])
      (hguards (by simp [Inside, FiberPc.isInside]) hframe) (hother hblocked)
      (by simp [hblocked, hfree]) (fun hnot => ?_) (by simp [FiberPc.hasArrived])
      fun _ => by simp [hblocked, hfree]
    exact absurd (by simp [hpc, FiberPc.isPastWait]) (h.closed hnot i).1

/-! ### Steps of the main thread -/

/-- The main thread moves and creates no fiber. -/
theorem Inv.setMain (h : s.Inv) {pc : MainPc} {m : Monitor SchedulerThread}
    (hcreate : ∀ k, pc ≠ .build (.create k)) (hguards : m.Guards (Inside { s with main := pc }))
    (hwaits : ∀ i, m.blocked (.fiber i) → s.fiber i = .waiting)
    (hclosed : ¬ pc.hasBroadcast → ∀ i, ¬ (s.fiber i).isPastWait ∧
      (s.fiber i = .waiting → m.blocked (.fiber i)))
    (harrived : pc.hasLocked → ∀ i < s.fiberArray.length, (s.fiber i).hasArrived)
    (hopened : pc.hasBroadcast → ∀ i, m.blocked (.fiber i) = false ∧ s.fiber i ≠ .wait) :
    Inv { s with monitor := m, main := pc } :=
  ⟨h.absent, fun k hk => absurd hk (hcreate k), h.unpublished, h.stored, h.applied, hguards, hwaits,
    hclosed, harrived, hopened⟩

/-- The main thread moves and makes nothing happen. -/
theorem Inv.moveMain (h : s.Inv) {pc : MainPc} (hcreate : ∀ k, pc ≠ .build (.create k))
    (hinside : pc.isInside = s.main.isInside) (hlocked : pc.hasLocked = s.main.hasLocked)
    (hdone : pc.hasBroadcast = s.main.hasBroadcast) : Inv { s with main := pc } := by
  refine h.setMain hcreate (h.guards.congr fun u => ?_) h.waits ?_ ?_ ?_
  · cases u with
    | main => simp only [Inside, hinside]
    | fiber i => rfl
  · simpa only [hdone] using h.closed
  · simpa only [hlocked] using h.arrived
  · simpa only [hdone] using h.opened

/-- The main thread makes a scheduling call for an element, with the thread id it read. -/
theorem Inv.apply (h : s.Inv) {i : ℕ} (call : SchedCall)
    (hcall : s.published i = some call.tid) :
    Inv { s with applied := s.applied ++ [(i, call)] } := by
  refine ⟨h.absent, h.uncreated, h.unpublished, h.stored, fun x hx => ?_, h.guards, h.waits,
    h.closed, h.arrived, h.opened⟩
  rcases List.mem_append.mp hx with hx | hx
  · exact h.applied x hx
  · obtain rfl := List.mem_singleton.mp hx
    exact hcall

/-- What is in an element whose fiber has written its thread id. -/
theorem Inv.published_eq (h : s.Inv) {i : ℕ} {fiber : FiberElement}
    (hfiber : s.fiberArray[i]? = some fiber) (hpub : (s.published i).isSome) :
    s.published i = some fiber.kernelTid := by
  obtain ⟨tid, htid⟩ := Option.isSome_iff_exists.mp hpub
  obtain ⟨fiber', hfiber', rfl⟩ := h.stored i tid htid
  rw [hfiber] at hfiber'
  exact Option.some.inj hfiber' ▸ htid

/-- The main thread creates a fiber. -/
theorem Inv.create (h : s.Inv) {k : ℕ} (hmain : s.main = .build (.create k))
    (hlt : k < s.fiberArray.length) :
    Inv { s with
      fiber := Function.update s.fiber k .gettid
      main := .build (.create (k + 1)) } := by
  have hself : Function.update s.fiber k .gettid k = .gettid := Function.update_self ..
  have hother {j : ℕ} (hj : j ≠ k) : Function.update s.fiber k .gettid j = s.fiber j :=
    Function.update_of_ne hj ..
  -- the new thread is one that was not there
  have habsent : s.fiber k = .absent := h.uncreated k hmain k le_rfl
  -- nobody is past the wait as long as `main` has not broadcast
  have hclosed := h.closed (by simp [hmain, MainPc.hasBroadcast])
  refine ⟨fun j hle => ?_, fun k' hk' j hle => ?_, fun j => ?_, h.stored, h.applied,
    h.guards.congr fun u => ?_, fun j hb => ?_, fun _ j => ?_, by simp [MainPc.hasLocked],
    by simp [MainPc.hasBroadcast]⟩
  · exact (hother (hlt.trans_le hle).ne').trans (h.absent j hle)
  · obtain rfl : k + 1 = k' := by simpa using hk'
    exact (hother (Nat.lt_of_succ_le hle).ne').trans (h.uncreated k hmain j (by omega))
  · rcases eq_or_ne j k with rfl | hne
    · exact fun _ => h.unpublished j (by simp [habsent, FiberPc.hasPublished])
    · simpa only [hother hne] using h.unpublished j
  · rcases u with _ | j
    · simp [Inside, hmain, MainPc.isInside]
    · rcases eq_or_ne j k with rfl | hne
      · simp only [Inside, hself, habsent, FiberPc.isInside]
      · simp only [Inside, hother hne]
  · have hne : j ≠ k := by
      rintro rfl
      simp [h.waits j hb] at habsent
    exact (hother hne).trans (h.waits j hb)
  · rcases eq_or_ne j k with rfl | hne
    · simp [FiberPc.isPastWait]
    · simpa only [hother hne] using hclosed j

/-- A step of `baa_build_scheduler`. -/
theorem Inv.baaBuildScheduler (h : s.Inv) {pc : BuildPc} (hmain : s.main = .build pc) :
    (s.baaBuildScheduler pc).Inv := by
  have hmove {pc' : MainPc} (hpc : pc' = .build .sleep ∨ pc' = .setProps (.setaffinity 0)) :
      Inv { s with main := pc' } := by
    refine h.moveMain ?_ ?_ ?_ ?_ <;> rcases hpc with rfl | rfl <;>
      simp [hmain, MainPc.isInside, MainPc.hasLocked, MainPc.hasBroadcast]
  rcases pc with k | _ <;> simp only [SchedulerState.baaBuildScheduler]
  case create =>
    split_ifs with hlt
    · exact h.create hmain hlt
    · exact hmove (.inl rfl)
  case sleep => exact hmove (.inr rfl)

/-- A step of `baa_set_schedule_props`. -/
theorem Inv.baaSetScheduleProps (h : s.Inv) {pc : SetPropsPc} (hmain : s.main = .setProps pc)
    (horderly : s.orderly .main) (hst : s.baaSetScheduleProps pc = some t) : t.Inv := by
  have hmove {s : SchedulerState} (h : s.Inv) (hmain : s.main = .setProps pc) {pc' : MainPc}
      (hpc : (∃ i, pc' = .setProps (.setaffinity i)) ∨ (∃ i, pc' = .setProps (.setscheduler i)) ∨
        pc' = .start .lock) : Inv { s with main := pc' } := by
    refine h.moveMain ?_ ?_ ?_ ?_ <;> rcases hpc with ⟨i, rfl⟩ | ⟨i, rfl⟩ | rfl <;>
      simp [hmain, MainPc.isInside, MainPc.hasLocked, MainPc.hasBroadcast]
  rcases pc with i | i
  case setaffinity =>
    rcases hfiber : s.fiberArray[i]? with _ | fiber <;>
      simp only [SchedulerState.baaSetScheduleProps, hfiber, Option.some.injEq] at hst <;>
      subst hst
    · exact hmove h hmain (.inr (.inr rfl))
    · have hlt : i < s.fiberArray.length := (List.getElem?_eq_some_iff.mp hfiber).1
      have hpub : (s.published i).isSome := by simpa [orderly, hmain, hlt] using horderly
      exact hmove (h.apply (.setaffinity fiber.kernelTid (cpuSet fiber.cpu))
        (h.published_eq hfiber hpub)) hmain (.inr (.inl ⟨i, rfl⟩))
  case setscheduler =>
    simp only [SchedulerState.baaSetScheduleProps, Option.map_eq_some_iff] at hst
    obtain ⟨fiber, hfiber, rfl⟩ := hst
    have hlt : i < s.fiberArray.length := (List.getElem?_eq_some_iff.mp hfiber).1
    have hpub : (s.published i).isSome := by simpa [orderly, hmain, hlt] using horderly
    exact hmove (h.apply (.setscheduler fiber.kernelTid fiber.policy fiber.schedPriority)
      (h.published_eq hfiber hpub)) hmain (.inl ⟨i + 1, rfl⟩)

/-- A step of `baa_start_scheduler`. -/
theorem Inv.baaStartScheduler (h : s.Inv) {pc : StartPc} (hmain : s.main = .start pc)
    (horderly : s.orderly .main) (hst : s.baaStartScheduler pc = some t) : t.Inv := by
  -- `main` moves, and the fibers are inside where they were
  have hframe {pc : MainPc} (u : SchedulerThread) (hne : u ≠ .main) :
      Inside { s with main := pc } u ↔ s.Inside u := by
    cases u with
    | main => exact absurd rfl hne
    | fiber i => rfl
  rcases pc with _ | _ | _ | i | ret <;>
    simp only [SchedulerState.baaStartScheduler, Option.map_eq_some_iff, Option.some.injEq,
      reduceCtorEq] at hst
  case lock =>
    obtain ⟨m, hm, rfl⟩ := hst
    obtain ⟨-, hblocked, hguards⟩ := h.guards.lock hm
    refine h.setMain (by simp) (hguards (by simp [Inside, MainPc.isInside]) hframe)
      (by simpa only [hblocked] using h.waits) (fun _ => ?_) (fun _ => ?_)
      (by simp [MainPc.hasBroadcast])
    · simpa only [hblocked] using h.closed (by simp [hmain, MainPc.hasBroadcast])
    · simpa [orderly, hmain] using horderly
  case broadcast =>
    subst hst
    have hinside : s.Inside .main := by simp [Inside, hmain, MainPc.isInside]
    refine h.setMain (by simp) (h.guards.congr fun u => ?_) (by simp [Monitor.broadcast])
      (by simp [MainPc.hasBroadcast]) (fun _ => h.arrived (by simp [hmain, MainPc.hasLocked]))
      fun _ i => ⟨rfl, fun hwait => ?_⟩
    · rcases eq_or_ne u .main with rfl | hne
      · exact iff_of_true (by simp [Inside, MainPc.isInside]) hinside
      · exact hframe u hne
    · -- the mutex keeps a fiber from being between its lock and its wait
      have hother : s.Inside (.fiber i) := by simp [Inside, hwait, FiberPc.isInside]
      cases h.guards.unique hinside hother
  case unlock =>
    obtain ⟨m, hm, rfl⟩ := hst
    obtain ⟨-, hblocked, hguards⟩ := h.guards.unlock hm
    refine h.setMain (by simp) (hguards (by simp [Inside, MainPc.isInside]) hframe)
      (by simpa only [hblocked] using h.waits) (by simp [MainPc.hasBroadcast])
      (fun _ => h.arrived (by simp [hmain, MainPc.hasLocked])) fun _ => ?_
    simpa only [hblocked] using h.opened (by simp [hmain, MainPc.hasBroadcast])
  case join =>
    split_ifs at hst
    obtain rfl := Option.some.inj hst
    exact h.moveMain (by simp) (by simp [hmain, MainPc.isInside])
      (by simp [hmain, MainPc.hasLocked]) (by simp [hmain, MainPc.hasBroadcast])

/-! ### Runs -/

/-- **The invariant is kept** by the steps of an orderly run, whichever thread makes them. -/
theorem Inv.step (h : s.Inv) {a : SchedulerLabel} (horderly : s.orderly a)
    (hst : s.step a = some t) : t.Inv := by
  rcases a with _ | _ | _ | ⟨i, tid⟩ | i <;> simp only [SchedulerState.step] at hst
  case main =>
    rcases hmain : s.main with pc | pc | pc | _ <;> simp only [hmain, reduceCtorEq] at hst
    · exact Option.some.inj hst ▸ h.baaBuildScheduler hmain
    · exact h.baaSetScheduleProps hmain horderly hst
    · exact h.baaStartScheduler hmain horderly hst
  case createFails =>
    split at hst
    · rename_i k hmain
      split_ifs at hst
      obtain rfl := Option.some.inj hst
      exact h.moveMain (by simp) (by simp [hmain, MainPc.isInside])
        (by simp [hmain, MainPc.hasLocked]) (by simp [hmain, MainPc.hasBroadcast])
    · cases hst
  case joinFails =>
    split at hst
    · rename_i k hmain
      split_ifs at hst
      obtain rfl := Option.some.inj hst
      exact h.moveMain (by simp) (by simp [hmain, MainPc.isInside])
        (by simp [hmain, MainPc.hasLocked]) (by simp [hmain, MainPc.hasBroadcast])
    · cases hst
  case fiber => exact h.baaFiber hst
  case spurious =>
    -- after the broadcast nobody is blocked
    have hfree := (h.opened horderly i).1
    simp [Monitor.wake, hfree] at hst

end SchedulerState

/-- The orderly runs of the scheduler: the system whose steps are the orderly ones. -/
def orderlyScheduler (fiberArray : List FiberElement) :
    LabelledSystem SchedulerState SchedulerLabel :=
  (scheduler fiberArray).restrict fun s a => s.orderly a

theorem SchedulerState.inv_of_reachable {fiberArray : List FiberElement} {s : SchedulerState}
    (h : (orderlyScheduler fiberArray).Reachable s) : s.Inv := by
  refine h.invariant ?_ fun s a t _ hinv hst => ?_
  · refine ⟨fun _ _ => rfl, fun _ _ _ _ => rfl, fun _ _ => rfl, nofun, nofun, fun u => ?_, nofun,
      fun _ i => ⟨?_, nofun⟩, nofun, nofun⟩
    · cases u <;> exact iff_of_false nofun nofun
    · exact nofun
  · obtain ⟨horderly, hst⟩ := LabelledSystem.restrict_step_iff.mp hst
    exact hinv.step horderly hst

/-- What `baa_start_scheduler` leaves alone, and that it does not undo its broadcast. -/
theorem SchedulerState.baaStartScheduler_frame {s t : SchedulerState} {pc : StartPc}
    (hst : s.baaStartScheduler pc = some t) :
    ∃ pc' m, t = { s with monitor := m, main := .start pc' } ∧
      ((MainPc.start pc).hasBroadcast → (MainPc.start pc').hasBroadcast) := by
  rcases pc with _ | _ | _ | i | ret <;>
    simp only [baaStartScheduler, Option.map_eq_some_iff, Option.some.injEq, reduceCtorEq] at hst
  case lock =>
    obtain ⟨m, -, rfl⟩ := hst
    exact ⟨.broadcast, m, rfl, nofun⟩
  case broadcast => exact ⟨.unlock, _, hst.symm, nofun⟩
  case unlock =>
    obtain ⟨m, -, rfl⟩ := hst
    exact ⟨.join 0, m, rfl, fun _ => rfl⟩
  case join =>
    split_ifs at hst
    exact ⟨.returned 0, s.monitor, (Option.some.inj hst).symm, fun _ => rfl⟩

/-- The broadcast is not undone. -/
theorem SchedulerState.hasBroadcast_step {s t : SchedulerState} {a : SchedulerLabel}
    (hst : s.step a = some t) (hdone : s.main.hasBroadcast) : t.main.hasBroadcast := by
  obtain ⟨pc, hmain⟩ : ∃ pc, s.main = .start pc := by
    rcases hmain : s.main with pc | pc | pc | _
    case start => exact ⟨pc, rfl⟩
    all_goals simp [hmain, MainPc.hasBroadcast] at hdone
  rcases a with _ | _ | _ | ⟨i, tid⟩ | i <;> simp only [step, hmain, reduceCtorEq] at hst
  case main =>
    obtain ⟨pc', m, rfl, hkept⟩ := baaStartScheduler_frame hst
    exact hkept (hmain ▸ hdone)
  case joinFails =>
    split at hst
    · split_ifs at hst
      obtain rfl := Option.some.inj hst
      rfl
    · cases hst
  case fiber => rwa [(baaFiber_frame hst).1]
  case spurious =>
    obtain ⟨m, -, rfl⟩ := Option.map_eq_some_iff.mp hst
    exact hmain ▸ hdone

/-- A woken fiber takes a free mutex. -/
private theorem SchedulerState.exec_resume (fiberArray : List FiberElement) {s : SchedulerState}
    {i : ℕ} (hpc : s.fiber i = .waiting) (hblocked : s.monitor.blocked (.fiber i) = false)
    (hfree : s.monitor.owner = none) :
    ∃ t, (orderlyScheduler fiberArray).exec s [.fiber i 0] = some t ∧ (t.fiber i).isPastWait := by
  have hresume : s.monitor.resume (.fiber i) =
      some { s.monitor with owner := some (.fiber i) } := by
    simp [Monitor.resume, Monitor.lock, hblocked, hfree]
  refine ⟨{ s with
    monitor := { s.monitor with owner := some (.fiber i) }
    fiber := Function.update s.fiber i .unlock }, ?_, ?_⟩
  · simp [orderlyScheduler, scheduler, LabelledSystem.exec, LabelledSystem.restrict, orderly, step,
      hpc, baaFiber, hresume]
  · simp [FiberPc.isPastWait]

/-- After the broadcast, who has the mutex gives it back in one step. -/
theorem SchedulerState.Inv.exists_release (fiberArray : List FiberElement) {s : SchedulerState}
    (h : s.Inv) (hdone : s.main.hasBroadcast) {i : ℕ} (hpc : s.fiber i = .waiting)
    {u : SchedulerThread} (howner : s.monitor.owner = some u) :
    ∃ a t, (orderlyScheduler fiberArray).step s a = some t ∧ t.fiber i = .waiting ∧
      t.monitor.blocked = s.monitor.blocked ∧ t.monitor.owner = none := by
  have hunlock : s.monitor.unlock u = some { s.monitor with owner := none } := by
    simp [Monitor.unlock, howner]
  have hinside : s.Inside u := (h.guards u).mp howner
  rcases u with _ | j
  · have hmain : s.main = .start .unlock := MainPc.eq_unlock_of_isInside hinside hdone
    refine ⟨.main, { s with
      monitor := { s.monitor with owner := none }
      main := .start (.join 0) }, LabelledSystem.restrict_step_iff.mpr ⟨?_, ?_⟩, hpc, rfl, rfl⟩
    · simp [orderly, hmain]
    · simp [scheduler, SchedulerState.step, hmain, SchedulerState.baaStartScheduler, hunlock]
  · have hj : s.fiber j = .unlock :=
      (FiberPc.eq_of_isInside hinside).resolve_left (h.opened hdone j).2
    have hne : i ≠ j := by
      rintro rfl
      simp [hpc] at hj
    refine ⟨.fiber j 0, { s with
      monitor := { s.monitor with owner := none }
      fiber := Function.update s.fiber j .running },
      LabelledSystem.restrict_step_iff.mpr ⟨rfl, ?_⟩, (Function.update_of_ne hne ..).trans hpc, rfl,
      rfl⟩
    simp [scheduler, SchedulerState.step, hj, SchedulerState.baaFiber, hunlock]

/-- **A woken fiber gets out of its wait**: the mutex is free, or is given back in one step. So from
every state behind the broadcast, there is a way for each fiber to go on. -/
theorem leaves_wait (fiberArray : List FiberElement) {s : SchedulerState}
    (h : (orderlyScheduler fiberArray).Reachable s) (hdone : s.main.hasBroadcast) {i : ℕ}
    (hi : i < s.fiberArray.length) :
    ∃ as t, (orderlyScheduler fiberArray).exec s as = some t ∧ (t.fiber i).isPastWait := by
  have hinv : s.Inv := SchedulerState.inv_of_reachable h
  have harr := hinv.arrived (MainPc.hasLocked_of_hasBroadcast hdone) i hi
  obtain ⟨hblocked, hwait⟩ := hinv.opened hdone i
  rcases hpc : s.fiber i with _ | _ | _ | _ | _ | _ | _ | _ | _ | _
  case unlock | running => exact ⟨[], s, rfl, by simp [hpc, FiberPc.isPastWait]⟩
  case wait => exact absurd hpc hwait
  case waiting =>
    rcases howner : s.monitor.owner with _ | u
    · obtain ⟨t, ht, hpast⟩ := SchedulerState.exec_resume fiberArray hpc hblocked howner
      exact ⟨_, t, ht, hpast⟩
    · obtain ⟨a, v, hv, hpc', hblocked', hfree⟩ := hinv.exists_release fiberArray hdone hpc howner
      obtain ⟨t, ht, hpast⟩ :=
        SchedulerState.exec_resume fiberArray hpc' (hblocked' ▸ hblocked) hfree
      exact ⟨[a, .fiber i 0], t, by rw [LabelledSystem.exec, hv, Option.bind_some, ht], hpast⟩
  all_goals simp [hpc, FiberPc.hasArrived] at harr

/-- **The start barrier**, in the orderly runs: properties are applied to the thread id that the
fiber of their element has published, no fiber returns from its wait before the broadcast, and
no fiber is blocked there after it, or will be. -/
theorem start_barrier (fiberArray : List FiberElement) {s : SchedulerState}
    (h : (orderlyScheduler fiberArray).Reachable s) :
    (∀ i call, (i, call) ∈ s.applied → s.published i = some call.tid) ∧
    (¬ s.main.hasBroadcast → ∀ i, ¬ (s.fiber i).isPastWait) ∧
    (s.main.hasBroadcast → ∀ as t, (orderlyScheduler fiberArray).exec s as = some t →
      ∀ i, t.monitor.blocked (.fiber i) = false) := by
  have hinv : s.Inv := SchedulerState.inv_of_reachable h
  refine ⟨fun i call hcall => hinv.applied (i, call) hcall, fun hnot i => (hinv.closed hnot i).1,
    fun hdone as t hrun i => ?_⟩
  -- the broadcast is not undone, and the invariant holds of every later state
  have hinv' : t.Inv := SchedulerState.inv_of_reachable (h.of_exec hrun)
  have hdone' : t.main.hasBroadcast :=
    LabelledSystem.exec_stable (P := fun s => s.main.hasBroadcast) (Q := fun _ => True)
      (fun s a t hs _ hst =>
        SchedulerState.hasBroadcast_step (LabelledSystem.restrict_step_iff.mp hst).2 hs)
      hdone (fun _ _ => trivial) hrun
  exact (hinv'.opened hdone' i).1

/-- An element for `SCHED_FIFO`, before its fiber has written the thread id. -/
def fifoElement : FiberElement := ⟨0, 1, 0, 50⟩

/-- The steps of a fiber as far as its wait. -/
def arrive (i : ℕ) (tid : CInt) : List SchedulerLabel := List.replicate 6 (.fiber i tid)

/-- Two fibers that are there in time, and go on after the broadcast. -/
def inTime : List SchedulerLabel :=
  [.main, .main] ++ arrive 0 71 ++ arrive 1 72 ++ List.replicate 10 .main ++
    [.fiber 0 0, .fiber 0 0, .fiber 1 0, .fiber 1 0]

/-- The properties of both elements reach their fibers, and both fibers run. -/
theorem start_barrier_inTime :
    ∃ s, (orderlyScheduler [fifoElement, fifoElement]).exec (.init [fifoElement, fifoElement])
        inTime = some s ∧
      s.applied.map (fun x => (x.1, x.2.tid)) = [(0, 71), (0, 71), (1, 72), (1, 72)] ∧
      s.fiber 0 = .running ∧ s.fiber 1 = .running ∧
      (∀ i call, (i, call) ∈ s.applied → s.published i = some call.tid) ∧
      ∀ i, s.monitor.blocked (.fiber i) = false := by
  have hrun : ((orderlyScheduler [fifoElement, fifoElement]).exec
      (.init [fifoElement, fifoElement]) inTime).map
        (fun s => (s.applied.map (fun x => (x.1, x.2.tid)), s.fiber 0, s.fiber 1,
          s.main.hasBroadcast)) =
      some ([(0, 71), (0, 71), (1, 72), (1, 72)], .running, .running, true) := by
    decide
  obtain ⟨s, hs, hfacts⟩ := Option.map_eq_some_iff.mp hrun
  obtain ⟨happlied, hfirst, hsecond, hdone⟩ : _ ∧ _ ∧ _ ∧ _ := by
    simpa only [Prod.mk.injEq] using hfacts
  obtain ⟨hprops, -, hfree⟩ := start_barrier [fifoElement, fifoElement]
    (LabelledSystem.reachable_of_exec hs)
  exact ⟨s, hs, happlied, hfirst, hsecond, hprops, hfree hdone [] s rfl⟩

/-- The sleep is over before the fiber has started. -/
def tidReadEarly : List SchedulerLabel := [.main, .main, .main, .main]

/-- The fiber wakes up by itself. -/
def wokenEarly : List SchedulerLabel := .main :: arrive 0 71 ++ [.spurious 0, .fiber 0 0]

/-- The fiber starts after the broadcast. -/
def startedLate : List SchedulerLabel := List.replicate 9 .main ++ arrive 0 71

/-- One fiber, and none of the three holds in every run. -/
theorem not_start_barrier :
    (∃ s, (scheduler [fifoElement]).Reachable s ∧
      (0, .setaffinity 0 [0]) ∈ s.applied ∧ s.published 0 = none) ∧
    (∃ s, (scheduler [fifoElement]).Reachable s ∧
      ¬ s.main.hasBroadcast ∧ (s.fiber 0).isPastWait) ∧
    ∃ s, (scheduler [fifoElement]).Reachable s ∧
      s.main.hasBroadcast ∧ s.monitor.blocked (.fiber 0) := by
  refine ⟨?_, ?_, ?_⟩
  · have hrun : ((scheduler [fifoElement]).exec (.init [fifoElement]) tidReadEarly).map
        (fun s => (s.applied, s.published 0)) = some ([(0, .setaffinity 0 [0])], none) := by
      decide
    obtain ⟨s, hs, hfacts⟩ := Option.map_eq_some_iff.mp hrun
    obtain ⟨happlied, hnone⟩ : _ ∧ _ := by simpa only [Prod.mk.injEq] using hfacts
    exact ⟨s, LabelledSystem.reachable_of_exec hs, by simp [happlied], hnone⟩
  · have hrun : ((scheduler [fifoElement]).exec (.init [fifoElement]) wokenEarly).map
        (fun s => (s.main.hasBroadcast, (s.fiber 0).isPastWait)) = some (false, true) := by
      decide
    obtain ⟨s, hs, hfacts⟩ := Option.map_eq_some_iff.mp hrun
    obtain ⟨hnot, hpast⟩ : _ ∧ _ := by simpa only [Prod.mk.injEq] using hfacts
    exact ⟨s, LabelledSystem.reachable_of_exec hs, by simp [hnot], hpast⟩
  · have hrun : ((scheduler [fifoElement]).exec (.init [fifoElement]) startedLate).map
        (fun s => (s.main.hasBroadcast, s.monitor.blocked (.fiber 0))) = some (true, true) := by
      decide
    obtain ⟨s, hs, hfacts⟩ := Option.map_eq_some_iff.mp hrun
    obtain ⟨hdone, hblocked⟩ : _ ∧ _ := by simpa only [Prod.mk.injEq] using hfacts
    exact ⟨s, LabelledSystem.reachable_of_exec hs, hdone, hblocked⟩

end Libbaalue
