import Libbaalue.Fiber.Timespec

/-!
# The time slice of a process

`baa_get_sched_time_slice_ms` of `process.c` normalises the interval that
`sched_rr_get_interval` delivers, carrying whole seconds into `tv_sec`, and converts only the
nanoseconds that are left. `baaGetSchedTimeSliceMs_eq_some_iff` says what it returns;
`timeSlice_eq_iff` that this is the whole interval for intervals below a second, and never for
longer ones.

The call that delivers the interval is the environment's: it may deliver anything, with nanoseconds
of more than a second too, and the result is for all that are not negative. The division is the one
of C, which rounds to zero, and is only met where that is rounding down.

The loop that carries is the one of `baa_ts_norm` again, and is proved with its lemmas; what goes
wrong is that the seconds it carries into are not looked at.
-/

namespace Libbaalue

variable {abi : Abi}

/-- `NS_TO_MS`, a division of `long`s. -/
def nsToMs (val : CLong abi) : CLong abi := val.sdiv (BitVec.ofInt _ 1000000)

/-- `baa_get_sched_time_slice_ms` on what `sched_rr_get_interval` comes to: the interval, or
`none` for -1. -/
def baaGetSchedTimeSliceMs : Option (Timespec abi) → Option (CLong abi)
  | none => some (-1)
  -- the loop is that of `baa_ts_norm`
  | some t => (baaTsNorm t).map fun t => nsToMs t.tvNsec

private theorem toInt_million : (BitVec.ofInt abi.longBits 1000000).toInt = 1000000 := by
  cases abi <;> rfl

/-- Nanoseconds that are not negative are rounded down. -/
theorem toInt_nsToMs {val : CLong abi} (h : 0 ≤ val.toInt) :
    (nsToMs val).toInt = val.toInt / 1000000 := by
  have hdiv : BitVec.ofInt abi.longBits 1000000 ≠ -1#_ := fun hc => by
    have hone := congrArg BitVec.toInt hc
    rw [toInt_million] at hone
    revert hone
    cases abi <;> decide
  rw [nsToMs, BitVec.toInt_sdiv_of_ne_or_ne _ _ (.inr hdiv), toInt_million,
    Int.tdiv_eq_ediv_of_nonneg h]

/-- **What is returned**: the milliseconds beyond the last whole second, if the seconds have
room for the carry. -/
theorem baaGetSchedTimeSliceMs_eq_some_iff {t : Timespec abi} (hnonneg : 0 ≤ t.tvNsec.toInt)
    {r : CLong abi} :
    baaGetSchedTimeSliceMs (some t) = some r ↔
      t.tvSec.toInt + t.tvNsec.toInt / nsecPerSec < 2 ^ (abi.longBits - 1) ∧
        r.toInt = t.tvNsec.toInt % nsecPerSec / 1000000 := by
  have hquot : 0 ≤ t.tvNsec.toInt / nsecPerSec := Int.ediv_nonneg hnonneg (by decide)
  have hrem : 0 ≤ t.tvNsec.toInt % nsecPerSec := Int.emod_nonneg _ (by decide)
  have hlow : -2 ^ (abi.longBits - 1) ≤ t.tvSec.toInt := t.tvSec.le_toInt
  simp only [baaGetSchedTimeSliceMs, Option.map_eq_some_iff]
  constructor
  · rintro ⟨u, hu, rfl⟩
    obtain ⟨hsec, hnsec⟩ := (baaTsNorm_eq_some_iff hnonneg).mp hu
    exact ⟨hsec ▸ u.tvSec.toInt_lt, by rw [toInt_nsToMs (hnsec ▸ hrem), hnsec]⟩
  · rintro ⟨hroom, hr⟩
    have hlt : t.tvNsec.toInt % nsecPerSec < 2 ^ (abi.longBits - 1) :=
      (Int.emod_lt_of_pos _ (by decide)).trans_le (le_trans (by decide) abi.two_pow_le)
    obtain ⟨sec, hsec⟩ := exists_toInt_eq (w := abi.longBits) abi.longBits_pos (by omega) hroom
    obtain ⟨nsec, hnsec⟩ := exists_toInt_eq (w := abi.longBits) abi.longBits_pos (by omega) hlt
    refine ⟨⟨sec, nsec⟩, (baaTsNorm_eq_some_iff hnonneg).mpr ⟨hsec, hnsec⟩, ?_⟩
    rw [← BitVec.toInt_inj, toInt_nsToMs (hnsec ▸ hrem), hnsec, hr]

/-- **The time slice is the whole interval, exactly below a second.** For every interval that
is not negative, normalised or not. -/
theorem timeSlice_eq_iff (t : Timespec abi) (hsec : 0 ≤ t.tvSec.toInt)
    (hnsec : 0 ≤ t.tvNsec.toInt) :
    (∃ r, baaGetSchedTimeSliceMs (some t) = some r ∧ r.toInt = t.ns / 1000000) ↔
      t.ns < nsecPerSec := by
  simp only [baaGetSchedTimeSliceMs_eq_some_iff hnsec, Timespec.ns]
  constructor
  · rintro ⟨r, ⟨-, hr⟩, hms⟩
    -- what is returned is below 1000
    simp only [nsecPerSec] at hr hms ⊢
    omega
  · intro hlt
    have hpow := abi.two_pow_le
    simp only [nsecPerSec] at hlt ⊢
    obtain ⟨r, hr⟩ := exists_toInt_eq (w := abi.longBits) abi.longBits_pos
      (n := t.tvNsec.toInt / 1000000) (by omega) (by omega)
    exact ⟨r, by omega, by omega⟩

/-- An interval of 1.5 ms. -/
theorem timeSlice_eq_iff_ms :
    (∃ r, baaGetSchedTimeSliceMs (some (⟨0, 1500000⟩ : Timespec .lp64)) = some r ∧
      r.toInt = (⟨0, 1500000⟩ : Timespec .lp64).ns / 1000000) ↔
      (⟨0, 1500000⟩ : Timespec .lp64).ns < nsecPerSec :=
  timeSlice_eq_iff ⟨0, 1500000⟩ (by decide) (by decide)

/-- A whole second counts as nothing. -/
theorem timeSlice_one_second :
    baaGetSchedTimeSliceMs (some (⟨1, 0⟩ : Timespec .lp64)) = some 0 ∧
    ¬ ∃ r, baaGetSchedTimeSliceMs (some (⟨1, 0⟩ : Timespec .lp64)) = some r ∧
      r.toInt = (⟨1, 0⟩ : Timespec .lp64).ns / 1000000 := by
  have hzero : baaGetSchedTimeSliceMs (some (⟨1, 0⟩ : Timespec .lp64)) = some 0 :=
    (baaGetSchedTimeSliceMs_eq_some_iff (by decide)).mpr ⟨by decide, by decide⟩
  refine ⟨hzero, ?_⟩
  rintro ⟨r, hr, hms⟩
  obtain rfl := Option.some.inj (hzero.symm.trans hr)
  revert hms
  decide

end Libbaalue
