import Libbaalue.Foundations.CheckedInt
import Libbaalue.Platform

/-!
# `struct timespec` and `baa_ts_norm`

A `timespec` stands for an instant, counted in nanoseconds (`Timespec.ns`). Every instant has one
normalised `timespec` (`Timespec.exists_normalised`), and `baa_ts_norm` finds it, for nanoseconds
that are not negative, if its seconds are in the range of `long` (`baaTsNorm_eq_some_iff`); there
is no lower carry.

Signed arithmetic is checked: the loop comes to `none` where an addition overflows. It ends, as
every turn takes a second off the nanoseconds.

The condition on the sign is that of the callers, who add a period to a time, and the code has no
branch for the other case. What the loop computes is stated by quotient and remainder, without its
turns, and all later modules compute with `Timespec.ns`.
-/

namespace Libbaalue

/-- `NSEC_PER_SEC`. -/
def nsecPerSec : ℤ := 1000000000

/-- `struct timespec`; `time_t` is `long`. Both members may be anything, also negative or more than
a second. -/
@[ext]
structure Timespec (abi : Abi) where
  tvSec : CLong abi
  tvNsec : CLong abi
  deriving DecidableEq

variable {abi : Abi}

namespace Timespec

variable (t : Timespec abi)

/-- The instant, in nanoseconds. -/
def ns : ℤ := t.tvSec.toInt * nsecPerSec + t.tvNsec.toInt

/-- The nanoseconds are less than a second, as `clock_nanosleep` wants them. -/
def Normalised : Prop := 0 ≤ t.tvNsec.toInt ∧ t.tvNsec.toInt < nsecPerSec

instance : Decidable t.Normalised := inferInstanceAs (Decidable (_ ∧ _))

variable {t}

/-- The seconds of an instant. -/
theorem Normalised.ns_ediv (ht : t.Normalised) : t.ns / nsecPerSec = t.tvSec.toInt := by
  obtain ⟨hle, hlt⟩ := ht
  simp only [ns, nsecPerSec] at hlt ⊢
  omega

/-- The nanoseconds of an instant. -/
theorem Normalised.ns_emod (ht : t.Normalised) : t.ns % nsecPerSec = t.tvNsec.toInt := by
  obtain ⟨hle, hlt⟩ := ht
  simp only [ns, nsecPerSec] at hlt ⊢
  omega

end Timespec

/-! ### The constants in the range of `long` -/

theorem Abi.two_pow_le (abi : Abi) : (2 : ℤ) ^ 31 ≤ 2 ^ (abi.longBits - 1) := by
  cases abi <;> simp [Abi.longBits]

/-- Every instant whose seconds are in range has a normalised `timespec`. -/
theorem Timespec.exists_normalised {n : ℤ} (hle : -2 ^ (abi.longBits - 1) ≤ n / nsecPerSec)
    (hlt : n / nsecPerSec < 2 ^ (abi.longBits - 1)) :
    ∃ t : Timespec abi, t.Normalised ∧ t.ns = n := by
  have hmod0 : 0 ≤ n % nsecPerSec := Int.emod_nonneg n (by decide)
  have hmod1 : n % nsecPerSec < nsecPerSec := Int.emod_lt_of_pos n (by decide)
  have hrange : nsecPerSec < 2 ^ (abi.longBits - 1) := lt_of_lt_of_le (by decide) abi.two_pow_le
  obtain ⟨sec, hsec⟩ := exists_toInt_eq (w := abi.longBits) abi.longBits_pos hle hlt
  obtain ⟨nsec, hnsec⟩ := exists_toInt_eq (w := abi.longBits) abi.longBits_pos
    (n := n % nsecPerSec) (by omega) (by omega)
  refine ⟨⟨sec, nsec⟩, ⟨by rw [hnsec]; exact hmod0, by rw [hnsec]; exact hmod1⟩, ?_⟩
  rw [ns, hsec, hnsec, Int.ediv_mul_add_emod]

/-- An `int` in an expression of type `long`. -/
@[simp]
theorem toInt_signExtend_cint (v : CInt) : (v.signExtend abi.longBits).toInt = v.toInt :=
  BitVec.toInt_signExtend_of_le abi.le_longBits

/-- The constant `NSEC_PER_SEC`, of type `long`. -/
@[simp]
theorem toInt_nsecPerSec : (BitVec.ofInt abi.longBits nsecPerSec).toInt = nsecPerSec := by
  cases abi <;> rfl

/-! ### `baa_ts_norm` -/

/-- `baa_ts_norm`: whole seconds are carried, one in each turn of the loop. It is `none` where the
seconds would leave their range; nanoseconds that are negative are left as they are. -/
def baaTsNorm (t : Timespec abi) : Option (Timespec abi) :=
  if _hcarry : nsecPerSec ≤ t.tvNsec.toInt then
    match _hnsec : checkedSub t.tvNsec (BitVec.ofInt _ nsecPerSec) with
    | none => none
    | some nsec =>
      match checkedAdd t.tvSec 1 with
      | none => none
      | some sec => baaTsNorm ⟨sec, nsec⟩
  else some t
termination_by t.tvNsec.toInt.toNat
decreasing_by
  have hsub := checkedSub_eq_some_iff.mp _hnsec
  rw [toInt_nsecPerSec] at hsub
  simp only [nsecPerSec] at _hcarry hsub
  omega

/-- A turn of the loop. -/
private theorem baaTsNorm_of_le {t : Timespec abi} (hcarry : nsecPerSec ≤ t.tvNsec.toInt) :
    ∃ nsec : CLong abi, nsec.toInt = t.tvNsec.toInt - nsecPerSec ∧
      baaTsNorm t = (checkedAdd t.tvSec 1).bind fun sec => baaTsNorm ⟨sec, nsec⟩ := by
  have hlt : t.tvNsec.toInt < 2 ^ (abi.longBits - 1) := t.tvNsec.toInt_lt
  obtain ⟨nsec, hnsec⟩ := exists_toInt_eq (w := abi.longBits) abi.longBits_pos
    (n := t.tvNsec.toInt - nsecPerSec) (by have := abi.two_pow_le; omega)
    (by simp only [nsecPerSec]; omega)
  have hsub : checkedSub t.tvNsec (BitVec.ofInt _ nsecPerSec) = some nsec :=
    checkedSub_eq_some_iff.mpr (by rw [toInt_nsecPerSec, hnsec])
  refine ⟨nsec, hnsec, ?_⟩
  rw [baaTsNorm, dif_pos hcarry]
  split
  · rename_i hnone
    rw [hsub] at hnone
    cases hnone
  · rename_i nsec' hsome
    obtain rfl := Option.some.inj (hsub.symm.trans hsome)
    cases checkedAdd t.tvSec 1 <;> rfl

theorem baaTsNorm_of_lt {t : Timespec abi} (h : t.tvNsec.toInt < nsecPerSec) :
    baaTsNorm t = some t := by
  rw [baaTsNorm, dif_neg (not_le.mpr h)]

/-- **What `baa_ts_norm` computes**: quotient and remainder, if the seconds have room for the
quotient. -/
theorem baaTsNorm_eq_some_iff {t u : Timespec abi} (hnonneg : 0 ≤ t.tvNsec.toInt) :
    baaTsNorm t = some u ↔
      u.tvSec.toInt = t.tvSec.toInt + t.tvNsec.toInt / nsecPerSec ∧
        u.tvNsec.toInt = t.tvNsec.toInt % nsecPerSec := by
  induction hn : t.tvNsec.toInt.toNat using Nat.strong_induction_on generalizing t with
  | _ n ih =>
    subst hn
    rcases lt_or_ge t.tvNsec.toInt nsecPerSec with hlt | hcarry
    · rw [baaTsNorm_of_lt hlt, Int.ediv_eq_zero_of_lt hnonneg hlt,
        Int.emod_eq_of_lt hnonneg hlt, add_zero, BitVec.toInt_inj, BitVec.toInt_inj,
        Option.some.injEq, eq_comm, Timespec.ext_iff]
    · obtain ⟨nsec, hnsec, hturn⟩ := baaTsNorm_of_le hcarry
      rw [hturn]
      have hnsec0 : 0 ≤ nsec.toInt := by omega
      have hdec : nsec.toInt.toNat < t.tvNsec.toInt.toNat := by
        simp only [nsecPerSec] at hnsec hcarry
        omega
      have hdiv : t.tvNsec.toInt / nsecPerSec = 1 + nsec.toInt / nsecPerSec := by
        simp only [nsecPerSec] at hnsec ⊢
        omega
      have hmod : t.tvNsec.toInt % nsecPerSec = nsec.toInt % nsecPerSec := by
        simp only [nsecPerSec] at hnsec ⊢
        omega
      have hrest : ∀ sec : CLong abi, baaTsNorm ⟨sec, nsec⟩ = some u ↔
          u.tvSec.toInt = sec.toInt + nsec.toInt / nsecPerSec ∧
            u.tvNsec.toInt = nsec.toInt % nsecPerSec :=
        fun sec => ih _ hdec (t := ⟨sec, nsec⟩) hnsec0 rfl
      rw [hdiv, hmod, Option.bind_eq_some_iff]
      constructor
      · rintro ⟨sec, hsec, hnorm⟩
        obtain ⟨hu, hmod⟩ := (hrest sec).mp hnorm
        rw [checkedAdd_eq_some_iff, toInt_one] at hsec
        exact ⟨by rw [hu, hsec, add_assoc], hmod⟩
      · rintro ⟨hu, hmod⟩
        -- the seconds of the result are not below those of this turn, which are in range then
        have hquot : 0 ≤ nsec.toInt / nsecPerSec := Int.ediv_nonneg hnsec0 (by decide)
        have hle : -2 ^ (abi.longBits - 1) ≤ t.tvSec.toInt := t.tvSec.le_toInt
        have hlt : u.tvSec.toInt < 2 ^ (abi.longBits - 1) := u.tvSec.toInt_lt
        obtain ⟨sec, hsec⟩ := exists_toInt_eq (w := abi.longBits) abi.longBits_pos
          (n := t.tvSec.toInt + 1) (by omega) (by omega)
        refine ⟨sec, checkedAdd_eq_some_iff.mpr (by rw [toInt_one, hsec]), (hrest sec).mpr ?_⟩
        exact ⟨by rw [hu, hsec, add_assoc], hmod⟩

end Libbaalue
