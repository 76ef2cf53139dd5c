import Libbaalue.Fiber.Element
import Libbaalue.Fiber.Timespec

/-!
# The loop of a fiber

The loop of `baa_fiber` behind its wait: sleep until the deadline, call the function group, move
the deadline on by `dt`. A run is the list of what `clock_nanosleep` returns; it comes to `none`
where a signed addition overflows.

As long as `dt` is not negative, the deadlines are those of the grid `start + k * dt`
(`fiberLoop_ns`), and a run overflows exactly where the numbers say so (`exists_fiberLoop_iff`):
never in the nanoseconds of 64-bit `long` (`baaFiber_drift_free`), and in those of 32-bit `long`
for the periods that leave no room above a residue (`advancesExactly_forever_iff`).

The loop carries its deadline in two fields, and each turn normalises it, so the invariant of a run
says two things of the state after `k` turns: the deadline is normalised, and it is `k` periods
behind the first. What `clock_nanosleep` returns takes no part in this. An overflow is then a matter
of numbers, of how large a residue modulo a second can get, and the library of checked arithmetic
answers it.
-/

namespace Libbaalue

variable {abi : Abi}

/-- What `clock_nanosleep` returns: 0 at the deadline, `EINTR` before it, and `EINVAL` at once for a
deadline that is none. -/
inductive SleepRet
  | zero
  | eintr
  | einval
  deriving DecidableEq, Repr

/-- A fiber element with the fields that its loop works on: the deadline, which the loop moves on,
and the period. -/
structure TimedFiber (abi : Abi) extends FiberElement where
  t : Timespec abi
  dt : CInt

/-- What a fiber does in its loop. The function group is an event and nothing more, since what it
does is the application's. -/
inductive FiberEvent (abi : Abi)
  | clockNanosleep (deadline : Timespec abi) (s : SleepRet)
  | infoMsg (format : String)
  | func
  deriving DecidableEq

/-- What is done before the deadline is moved on; the function group is called whatever
`clock_nanosleep` has returned. -/
def turnEvents (t : Timespec abi) (s : SleepRet) : List (FiberEvent abi) :=
  .clockNanosleep t s ::
    if s = .eintr then [.infoMsg "interrupted by signal SIGINT handler in %s", .func] else [.func]

/-- The next deadline: the period is added to the nanoseconds, and whole seconds are carried. It is
`none` where the sum, or the seconds, have no room in a `long`. -/
def nextDeadline (t : Timespec abi) (dt : CInt) : Option (Timespec abi) :=
  (checkedAdd t.tvNsec (dt.signExtend abi.longBits)).bind fun nsec =>
    baaTsNorm { t with tvNsec := nsec }

/-- The loop of `baa_fiber`: what is done against the given results, and the fiber after it. -/
def fiberLoop (fiber : TimedFiber abi) :
    List SleepRet → Option (List (FiberEvent abi) × TimedFiber abi)
  | [] => some ([], fiber)
  | s :: rest =>
    (nextDeadline fiber.t fiber.dt).bind fun t =>
      (fiberLoop { fiber with t := t } rest).map fun r => (turnEvents fiber.t s ++ r.1, r.2)

/-- The first deadline is a full second; the nanoseconds that were read from the clock are
dropped. -/
def TimedFiber.startAt (fiber : TimedFiber abi) (sec : CLong abi) : TimedFiber abi :=
  { fiber with t := ⟨sec, 0⟩ }

/-- `baa_fiber` from the reading of the clock on, against the given results of the sleeps. What
comes before, up to the barrier, is the scheduler's. -/
def baaFiber (fiber : TimedFiber abi) (now : Timespec abi) (returned : List SleepRet) :
    Option (List (FiberEvent abi) × TimedFiber abi) :=
  (checkedAdd now.tvSec 1).bind fun sec => fiberLoop (fiber.startAt sec) returned

/-! ### The grid -/

/-- The next deadline, from a normalised one. -/
theorem nextDeadline_eq_some_iff {t u : Timespec abi} {dt : CInt} (ht : t.Normalised)
    (hdt : 0 ≤ dt.toInt) :
    nextDeadline t dt = some u ↔
      t.tvNsec.toInt + dt.toInt < 2 ^ (abi.longBits - 1) ∧
        u.Normalised ∧ u.ns = t.ns + dt.toInt := by
  have hnonneg : 0 ≤ t.tvNsec.toInt + dt.toInt := add_nonneg ht.1 hdt
  rw [nextDeadline, Option.bind_eq_some_iff]
  constructor
  · rintro ⟨nsec, hnsec, hnorm⟩
    rw [checkedAdd_eq_some_iff, toInt_signExtend_cint] at hnsec
    rw [baaTsNorm_eq_some_iff (hnsec ▸ hnonneg)] at hnorm
    obtain ⟨hsec, hmod⟩ := hnorm
    have hlt : nsec.toInt < 2 ^ (abi.longBits - 1) := nsec.toInt_lt
    refine ⟨hnsec ▸ hlt, ?_, ?_⟩
    · rw [Timespec.Normalised, hmod]
      exact ⟨Int.emod_nonneg _ (by decide), Int.emod_lt_of_pos _ (by decide)⟩
    · -- normalising moves whole seconds and changes no time
      have hdivmod := Int.mul_ediv_add_emod nsec.toInt nsecPerSec
      rw [Timespec.ns, Timespec.ns, hsec, hmod, add_mul]
      linarith
  · rintro ⟨hlt, hu, hns⟩
    -- the sum fits, so it is the number of a `long`
    obtain ⟨nsec, hnsec⟩ := exists_toInt_eq (w := abi.longBits) abi.longBits_pos
      (n := t.tvNsec.toInt + dt.toInt) (by have := abi.two_pow_le; omega) hlt
    refine ⟨nsec, checkedAdd_eq_some_iff.mpr (by rw [toInt_signExtend_cint, hnsec]), ?_⟩
    rw [baaTsNorm_eq_some_iff (hnsec ▸ hnonneg), hnsec]
    simp only [Timespec.Normalised, Timespec.ns, nsecPerSec] at hu hns ⊢
    omega

/-- There is a next deadline if the addition and the seconds are in range. -/
theorem exists_nextDeadline_iff {t : Timespec abi} {dt : CInt} (ht : t.Normalised)
    (hdt : 0 ≤ dt.toInt) :
    (∃ u, nextDeadline t dt = some u) ↔
      t.ns % nsecPerSec + dt.toInt < 2 ^ (abi.longBits - 1) ∧
        (t.ns + dt.toInt) / nsecPerSec < 2 ^ (abi.longBits - 1) := by
  rw [ht.ns_emod]
  simp only [nextDeadline_eq_some_iff ht hdt]
  constructor
  · rintro ⟨u, hlt, hu, hns⟩
    refine ⟨hlt, ?_⟩
    rw [← hns, hu.ns_ediv]
    exact u.tvSec.toInt_lt
  · rintro ⟨hlt, hsec⟩
    have hle : t.tvSec.toInt ≤ (t.ns + dt.toInt) / nsecPerSec := by
      rw [← ht.ns_ediv]
      exact Int.ediv_le_ediv (by decide) (by omega)
    obtain ⟨u, hu, hns⟩ := Timespec.exists_normalised (t.tvSec.le_toInt.trans hle) hsec
    exact ⟨u, hlt, hu, hns⟩

/-! ### Runs -/

variable {fiber fiber' : TimedFiber abi} {returned : List SleepRet} {events : List (FiberEvent abi)}

theorem fiberLoop_cons_eq_some_iff {s : SleepRet} :
    fiberLoop fiber (s :: returned) = some (events, fiber') ↔
      ∃ t rest, nextDeadline fiber.t fiber.dt = some t ∧
        fiberLoop { fiber with t := t } returned = some (rest, fiber') ∧
        events = turnEvents fiber.t s ++ rest := by
  simp only [fiberLoop, Option.bind_eq_some_iff, Option.map_eq_some_iff, Prod.exists,
    Prod.mk.injEq]
  constructor
  · rintro ⟨t, ht, rest, last, hrest, rfl, rfl⟩
    exact ⟨t, rest, ht, hrest, rfl⟩
  · rintro ⟨t, rest, ht, hrest, rfl⟩
    exact ⟨t, ht, rest, fiber', hrest, rfl, rfl⟩

/-- **The deadline after a run** is the point of the grid that belongs to its length, whatever
`clock_nanosleep` has returned. So no error adds up: a turn is late or not, but the deadlines are
where they are. -/
theorem fiberLoop_ns (ht : fiber.t.Normalised) (hdt : 0 ≤ fiber.dt.toInt)
    (hrun : fiberLoop fiber returned = some (events, fiber')) :
    fiber'.t.Normalised ∧ fiber'.t.ns = fiber.t.ns + returned.length * fiber.dt.toInt := by
  induction returned generalizing fiber events with
  | nil =>
    obtain ⟨-, rfl⟩ := Prod.mk.inj (Option.some.inj hrun)
    exact ⟨ht, by simp⟩
  | cons s returned ih =>
    obtain ⟨t, rest, hnext, hrest, -⟩ := fiberLoop_cons_eq_some_iff.mp hrun
    obtain ⟨-, ht', hns⟩ := (nextDeadline_eq_some_iff ht hdt).mp hnext
    obtain ⟨hnorm, hlast⟩ := @ih { fiber with t := t } _ ht' hdt hrest
    refine ⟨hnorm, ?_⟩
    rw [hlast, hns, List.length_cons]
    push_cast
    ring

/-- **When a run does not overflow**: no point of the grid but the last is too far into its second,
and the seconds of the last are in range. -/
theorem exists_fiberLoop_iff (ht : fiber.t.Normalised) (hdt : 0 ≤ fiber.dt.toInt) :
    (∃ events fiber', fiberLoop fiber returned = some (events, fiber')) ↔
      (∀ j < returned.length, (fiber.t.ns + j * fiber.dt.toInt) % nsecPerSec + fiber.dt.toInt <
          2 ^ (abi.longBits - 1)) ∧
        (fiber.t.ns + returned.length * fiber.dt.toInt) / nsecPerSec < 2 ^ (abi.longBits - 1) := by
  induction returned generalizing fiber with
  | nil =>
    have hsec : fiber.t.tvSec.toInt < 2 ^ (abi.longBits - 1) := fiber.t.tvSec.toInt_lt
    simp [fiberLoop, ht.ns_ediv, hsec]
  | cons s returned ih =>
    -- the deadline after `j + 1` turns is that after `j` from the next deadline on
    have hshift : ∀ j : ℕ, fiber.t.ns + ((j + 1 : ℕ) : ℤ) * fiber.dt.toInt =
        fiber.t.ns + fiber.dt.toInt + j * fiber.dt.toInt := fun j => by push_cast; ring
    have hhead : (∃ events fiber', fiberLoop fiber (s :: returned) = some (events, fiber')) ↔
        ∃ t, nextDeadline fiber.t fiber.dt = some t ∧
          ∃ events fiber', fiberLoop { fiber with t := t } returned = some (events, fiber') := by
      simp only [fiberLoop_cons_eq_some_iff]
      constructor
      · rintro ⟨events, fiber', t, rest, hnext, hrest, -⟩
        exact ⟨t, hnext, rest, fiber', hrest⟩
      · rintro ⟨t, hnext, rest, fiber', hrest⟩
        exact ⟨_, fiber', t, rest, hnext, hrest, rfl⟩
    rw [hhead, List.length_cons, hshift]
    constructor
    · rintro ⟨t, hnext, hrest⟩
      obtain ⟨-, ht', hns⟩ := (nextDeadline_eq_some_iff ht hdt).mp hnext
      obtain ⟨hgrid, hlast⟩ := (@ih { fiber with t := t } ht' hdt).mp hrest
      rw [hns] at hgrid hlast
      refine ⟨?_, hlast⟩
      rintro (_ | j) hj
      · simpa using ((exists_nextDeadline_iff ht hdt).mp ⟨t, hnext⟩).1
      · rw [hshift]
        exact hgrid j (Nat.lt_of_succ_lt_succ hj)
    · rintro ⟨hgrid, hlast⟩
      have hfirst : fiber.t.ns % nsecPerSec + fiber.dt.toInt < 2 ^ (abi.longBits - 1) := by
        simpa using hgrid 0 (Nat.succ_pos _)
      -- the seconds only grow, so the last deadline bounds them all
      have hle : fiber.t.ns + fiber.dt.toInt ≤
          fiber.t.ns + fiber.dt.toInt + returned.length * fiber.dt.toInt :=
        le_add_of_nonneg_right (mul_nonneg (Nat.cast_nonneg _) hdt)
      obtain ⟨t, hnext⟩ := (exists_nextDeadline_iff ht hdt).mpr
        ⟨hfirst, (Int.ediv_le_ediv (by decide) hle).trans_lt hlast⟩
      obtain ⟨-, ht', hns⟩ := (nextDeadline_eq_some_iff ht hdt).mp hnext
      refine ⟨t, hnext, (@ih { fiber with t := t } ht' hdt).mpr ?_⟩
      rw [hns]
      refine ⟨fun j hj => ?_, hlast⟩
      rw [← hshift]
      exact hgrid (j + 1) (Nat.succ_lt_succ hj)

/-! ### From the clock on -/

theorem baaFiber_eq_some_iff {now : Timespec abi} :
    baaFiber fiber now returned = some (events, fiber') ↔
      ∃ sec : CLong abi, sec.toInt = now.tvSec.toInt + 1 ∧
        fiberLoop (fiber.startAt sec) returned = some (events, fiber') := by
  simp only [baaFiber, Option.bind_eq_some_iff, checkedAdd_eq_some_iff, toInt_one]

variable {sec : CLong abi}

@[simp]
theorem TimedFiber.dt_startAt : (fiber.startAt sec).dt = fiber.dt := rfl

theorem TimedFiber.normalised_startAt : (fiber.startAt sec).t.Normalised := by
  simp [startAt, Timespec.Normalised, nsecPerSec]

@[simp]
theorem TimedFiber.ns_startAt : (fiber.startAt sec).t.ns = sec.toInt * nsecPerSec := by
  simp [startAt, Timespec.ns]

/-- From a full second on, the residues are those of the multiples of `dt`. -/
private theorem exists_fiberLoop_startAt_iff (hdt : 0 ≤ fiber.dt.toInt) (sec : CLong abi)
    (returned : List SleepRet) :
    (∃ events fiber', fiberLoop (fiber.startAt sec) returned = some (events, fiber')) ↔
      (∀ j < returned.length, j * fiber.dt.toInt % nsecPerSec + fiber.dt.toInt <
          2 ^ (abi.longBits - 1)) ∧
        sec.toInt + returned.length * fiber.dt.toInt / nsecPerSec < 2 ^ (abi.longBits - 1) := by
  rw [exists_fiberLoop_iff TimedFiber.normalised_startAt hdt, TimedFiber.ns_startAt,
    TimedFiber.dt_startAt, Int.add_comm, Int.add_mul_ediv_right _ _ (by decide), Int.add_comm]
  simp only [Int.mul_add_emod_self_right]

/-- On 64-bit `long` only the seconds can overflow. -/
theorem exists_baaFiber {fiber : TimedFiber .lp64} (hdt : 0 ≤ fiber.dt.toInt)
    {now : Timespec .lp64} {returned : List SleepRet}
    (hsec : now.tvSec.toInt + 1 + returned.length * fiber.dt.toInt / nsecPerSec < 2 ^ 63) :
    ∃ events fiber', baaFiber fiber now returned = some (events, fiber') := by
  have hquot : 0 ≤ returned.length * fiber.dt.toInt / nsecPerSec :=
    Int.ediv_nonneg (mul_nonneg (Nat.cast_nonneg _) hdt) (by decide)
  have hbits : (2 : ℤ) ^ (Abi.lp64.longBits - 1) = 2 ^ 63 := rfl
  have hle : -2 ^ (Abi.lp64.longBits - 1) ≤ now.tvSec.toInt := now.tvSec.le_toInt
  obtain ⟨sec, hstart⟩ := exists_toInt_eq (w := Abi.lp64.longBits) Abi.lp64.longBits_pos
    (n := now.tvSec.toInt + 1) (by omega) (by omega)
  have hroom : ∀ j < returned.length,
      j * fiber.dt.toInt % nsecPerSec + fiber.dt.toInt < 2 ^ (Abi.lp64.longBits - 1) := by
    intro j _
    have hmod : (j : ℤ) * fiber.dt.toInt % nsecPerSec < nsecPerSec :=
      Int.emod_lt_of_pos _ (by decide)
    have hdt' : fiber.dt.toInt < 2 ^ 31 := fiber.dt.toInt_lt
    simp only [nsecPerSec] at hmod ⊢
    omega
  obtain ⟨events, fiber', hrun⟩ :=
    (exists_fiberLoop_startAt_iff hdt sec returned).mpr ⟨hroom, by rw [hstart]; exact hsec⟩
  exact ⟨events, fiber', baaFiber_eq_some_iff.mpr ⟨sec, hstart, hrun⟩⟩

/-- **The deadlines do not drift.** On 64-bit `long`, for every period that is not negative and
whatever `clock_nanosleep` returns: as long as the seconds are in range, the loop comes through,
and the deadline after `k` turns is normalised and `k` periods behind the first. -/
theorem baaFiber_drift_free (fiber : TimedFiber .lp64) (hdt : 0 ≤ fiber.dt.toInt)
    (now : Timespec .lp64) (returned : List SleepRet)
    (hsec : now.tvSec.toInt + 1 + returned.length * fiber.dt.toInt / nsecPerSec < 2 ^ 63) :
    ∃ events fiber', baaFiber fiber now returned = some (events, fiber') ∧
      fiber'.t.Normalised ∧
      fiber'.t.ns = (now.tvSec.toInt + 1) * nsecPerSec + returned.length * fiber.dt.toInt := by
  obtain ⟨events, fiber', hrun⟩ := exists_baaFiber hdt hsec
  obtain ⟨sec, hstart, hloop⟩ := baaFiber_eq_some_iff.mp hrun
  obtain ⟨hnorm, hns⟩ := fiberLoop_ns TimedFiber.normalised_startAt hdt hloop
  refine ⟨events, fiber', hrun, hnorm, ?_⟩
  rw [hns, TimedFiber.ns_startAt, hstart, TimedFiber.dt_startAt]

/-- A fiber with a period of 10 milliseconds. -/
def fastFiber : TimedFiber .lp64 := ⟨⟨0, 0, 0, 0⟩, ⟨0, 0⟩, 10000000⟩

theorem baaFiber_drift_free_fastFiber :
    ∃ events fiber', baaFiber fastFiber ⟨100, 5⟩ [.zero, .eintr] = some (events, fiber') ∧
      fiber'.t.Normalised ∧ fiber'.t.ns = (100 + 1) * nsecPerSec + 2 * 10000000 :=
  baaFiber_drift_free fastFiber (by decide) ⟨100, 5⟩ [.zero, .eintr] (by decide)

/-! ### 32-bit `long` -/

/-- The deadline can be moved on: the addition is in range, and unless the seconds overflow,
`baa_ts_norm` leaves a normalised deadline that is `dt` later. -/
def AdvancesExactly (t : Timespec abi) (dt : CInt) : Prop :=
  (-2 ^ (abi.longBits - 1) ≤ t.tvNsec.toInt + dt.toInt ∧
      t.tvNsec.toInt + dt.toInt < 2 ^ (abi.longBits - 1)) ∧
    ((t.ns + dt.toInt) / nsecPerSec < 2 ^ (abi.longBits - 1) →
      ∃ u, nextDeadline t dt = some u ∧ u.Normalised ∧ u.ns = t.ns + dt.toInt)

theorem advancesExactly_iff {t : Timespec abi} {dt : CInt} (ht : t.Normalised)
    (hdt : 0 ≤ dt.toInt) :
    AdvancesExactly t dt ↔ t.ns % nsecPerSec + dt.toInt < 2 ^ (abi.longBits - 1) := by
  rw [AdvancesExactly, ht.ns_emod]
  constructor
  · exact fun h => h.1.2
  · intro hlt
    refine ⟨⟨?_, hlt⟩, fun hsec => ?_⟩
    · have hnonneg : 0 ≤ t.tvNsec.toInt + dt.toInt := add_nonneg ht.1 hdt
      have := abi.two_pow_le
      omega
    · obtain ⟨u, hu⟩ := (exists_nextDeadline_iff ht hdt).mpr ⟨by rw [ht.ns_emod]; exact hlt, hsec⟩
      exact ⟨u, hu, ((nextDeadline_eq_some_iff ht hdt).mp hu).2⟩

/-- In a state that was reached from a full second, a residue decides. -/
private theorem advancesExactly_reached_iff (hdt : 0 ≤ fiber.dt.toInt)
    (hrun : fiberLoop (fiber.startAt sec) returned = some (events, fiber')) :
    AdvancesExactly fiber'.t fiber.dt ↔
      returned.length * fiber.dt.toInt % nsecPerSec + fiber.dt.toInt <
        2 ^ (abi.longBits - 1) := by
  obtain ⟨hnorm, hns⟩ := fiberLoop_ns TimedFiber.normalised_startAt hdt hrun
  rw [advancesExactly_iff hnorm hdt, hns, TimedFiber.ns_startAt, TimedFiber.dt_startAt,
    Int.mul_add_emod_self_right]

/-- The room of 32-bit `long` for a residue and a period, in natural numbers. -/
private theorem residue_add_lt_iff {dt : CInt} (hdt : 0 ≤ dt.toInt) (j : ℕ) :
    j * dt.toInt % nsecPerSec + dt.toInt < 2 ^ (Abi.ilp32.longBits - 1) ↔
      j * dt.toNat % 1000000000 + dt.toNat ≤ 2147483647 := by
  have hnat : dt.toInt = dt.toNat := BitVec.toInt_eq_toNat_of_lt (BitVec.toInt_pos_iff.mp hdt)
  have hbits : (2 : ℤ) ^ (Abi.ilp32.longBits - 1) = 2147483648 := rfl
  rw [hnat, hbits, nsecPerSec]
  norm_cast
  omega

/-- Less than a thousand million periods fit into the seconds of 32-bit `long`. -/
private theorem one_add_seconds_lt {dt : CInt} {k : ℕ} (hk : k < 1000000000) :
    (1 : CLong .ilp32).toInt + k * dt.toInt / nsecPerSec < 2 ^ (Abi.ilp32.longBits - 1) := by
  have hbits : (2 : ℤ) ^ (Abi.ilp32.longBits - 1) = 2147483648 := rfl
  have hdt : dt.toInt ≤ 2147483647 := Int.le_of_lt_add_one dt.toInt_lt
  have hmul : (k : ℤ) * dt.toInt ≤ 999999999 * 2147483647 := by
    calc (k : ℤ) * dt.toInt ≤ k * 2147483647 := mul_le_mul_of_nonneg_left hdt (Nat.cast_nonneg k)
      _ ≤ 999999999 * 2147483647 := by
        refine mul_le_mul_of_nonneg_right ?_ (by decide)
        exact_mod_cast Nat.le_of_lt_succ hk
  have hquot : k * dt.toInt / nsecPerSec ≤ 999999999 * 2147483647 / nsecPerSec :=
    Int.ediv_le_ediv (by decide) hmul
  have hnum : (999999999 * 2147483647 : ℤ) / nsecPerSec = 2147483644 := by decide
  rw [toInt_one, hbits]
  omega

/-- **Which periods never overflow on 32-bit `long`.** For every period that is not negative: the
deadline can be moved on in every state that the loop reaches from a full second, exactly when
the largest residue of a multiple of `dt` modulo `NSEC_PER_SEC` has room for `dt`. -/
theorem advancesExactly_forever_iff (fiber : TimedFiber .ilp32) (hdt : 0 ≤ fiber.dt.toInt) :
    (∀ (sec : CLong .ilp32) returned events fiber',
        fiberLoop (fiber.startAt sec) returned = some (events, fiber') →
        AdvancesExactly fiber'.t fiber.dt) ↔
      fiber.dt.toNat ≤ 1147483647 + fiber.dt.toNat.gcd 1000000000 := by
  have hgcd : fiber.dt.toNat.gcd 1000000000 ≤ 1000000000 := Nat.gcd_le_right _ (by decide)
  have hlargest : (∀ j : ℕ, j * fiber.dt.toNat % 1000000000 + fiber.dt.toNat ≤ 2147483647) ↔
      fiber.dt.toNat ≤ 1147483647 + fiber.dt.toNat.gcd 1000000000 := by
    rw [forall_residue_add_le_iff (by decide)]
    omega
  rw [← hlargest]
  constructor
  · intro hall
    by_contra hsome
    obtain ⟨k', hk', hmax⟩ := exists_residue_eq (m := 1000000000) (by decide) fiber.dt.toNat
    rw [not_forall] at hsome
    -- the first turn whose addition overflows is reached, even by a clock that starts at zero
    have hover := Nat.find_spec hsome
    have hfirst : ∀ j < Nat.find hsome, j * fiber.dt.toNat % 1000000000 + fiber.dt.toNat ≤
        2147483647 := fun j hj => not_not.mp (Nat.find_min hsome hj)
    have hperiod : Nat.find hsome < 1000000000 := by
      refine lt_of_le_of_lt (Nat.find_min' hsome ?_) hk'
      rw [hmax]
      intro hle
      exact not_forall.mpr hsome ((forall_residue_add_le_iff (by decide) _ _).mpr hle)
    have hsec : (1 : CLong .ilp32).toInt + Nat.find hsome * fiber.dt.toInt / nsecPerSec <
        2 ^ (Abi.ilp32.longBits - 1) := one_add_seconds_lt hperiod
    obtain ⟨events, fiber', hrun⟩ := (exists_fiberLoop_startAt_iff hdt (1 : CLong .ilp32)
      (List.replicate (Nat.find hsome) .zero)).mpr
        ⟨fun j hj => (residue_add_lt_iff hdt j).mpr (hfirst j (by simpa using hj)),
          by rw [List.length_replicate]; exact hsec⟩
    have hreached := (advancesExactly_reached_iff hdt hrun).mp (hall _ _ _ _ hrun)
    rw [residue_add_lt_iff hdt, List.length_replicate] at hreached
    exact hover hreached
  · intro hroom sec returned events fiber' hrun
    rw [advancesExactly_reached_iff hdt hrun, residue_add_lt_iff hdt]
    exact hroom _

/-- A fiber with a period of 1.9 seconds. -/
def slowFiber : TimedFiber .ilp32 := ⟨⟨0, 0, 0, 0⟩, ⟨0, 0⟩, 1900000000⟩

/-- Its first deadline can be moved on, and its second cannot. -/
theorem not_advancesExactly_forever :
    ∃ returned events fiber', 0 ≤ slowFiber.dt.toInt ∧
      fiberLoop (slowFiber.startAt 1) returned = some (events, fiber') ∧
      ¬ AdvancesExactly fiber'.t slowFiber.dt := by
  have hdt : 0 ≤ slowFiber.dt.toInt := by decide
  obtain ⟨events, fiber', hrun⟩ := (exists_fiberLoop_startAt_iff hdt (1 : CLong .ilp32)
    [.zero]).mpr (by decide)
  refine ⟨[.zero], events, fiber', hdt, hrun, ?_⟩
  rw [advancesExactly_reached_iff hdt hrun]
  decide

theorem advancesExactly_forever_iff_slowFiber :
    0 ≤ slowFiber.dt.toInt ∧
      ((∀ (sec : CLong .ilp32) returned events fiber',
        fiberLoop (slowFiber.startAt sec) returned = some (events, fiber') →
        AdvancesExactly fiber'.t slowFiber.dt) ↔
      slowFiber.dt.toNat ≤ 1147483647 + slowFiber.dt.toNat.gcd 1000000000) :=
  ⟨by decide, advancesExactly_forever_iff slowFiber (by decide)⟩

end Libbaalue
