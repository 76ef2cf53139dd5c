import Mathlib.Data.Int.GCD
import Mathlib.Data.BitVec

/-!
# Signed arithmetic that must not overflow

A signed addition that leaves the range of its type has no defined result. `checkedAdd` and
`checkedSub` are `none` there, and the exact result elsewhere: this is all that is known of them
(`checkedAdd_eq_some_iff`), so that a computation that comes to `some` is one over the integers.

The last section is about a counter that steps by `d` and is reduced modulo `m`: how large it
gets (`residue_le`, `exists_residue_eq`), and with it, whether the next step can overflow.

So a program whose arithmetic is checked is followed over the integers without a side condition in
each step: whether the result exists is asked once, at the end, for the whole run. The bound on a
residue is exact, `m - gcd d m`, and the counter does come to it, so a condition that is derived
from it is necessary as well as sufficient.
-/

variable {w : ℕ}

/-! ### Addition and subtraction -/

/-- The sum of two signed numbers, `none` if it is out of range: in C the behaviour is undefined
then. -/
def checkedAdd (x y : BitVec w) : Option (BitVec w) :=
  if x.saddOverflow y then none else some (x + y)

/-- The difference of two signed numbers, `none` if it is out of range. -/
def checkedSub (x y : BitVec w) : Option (BitVec w) :=
  if x.ssubOverflow y then none else some (x - y)

/-- **A checked sum is the exact sum.** Where there is a result it is the one in the integers, and
where the sum in the integers has a representation there is a result. -/
theorem checkedAdd_eq_some_iff {x y z : BitVec w} :
    checkedAdd x y = some z ↔ z.toInt = x.toInt + y.toInt := by
  rw [checkedAdd]
  split_ifs with hover
  · refine iff_of_false (by simp) fun hz => ?_
    rw [BitVec.saddOverflow, ← hz] at hover
    have hlt : z.toInt < 2 ^ (w - 1) := z.toInt_lt
    have hle : -2 ^ (w - 1) ≤ z.toInt := z.le_toInt
    simp only [ge_iff_le, Bool.or_eq_true, decide_eq_true_eq] at hover
    omega
  · rw [Option.some.injEq, ← BitVec.toInt_inj, BitVec.toInt_add_of_not_saddOverflow hover, eq_comm]

/-- **A checked difference is the exact difference**, in the same sense. -/
theorem checkedSub_eq_some_iff {x y z : BitVec w} :
    checkedSub x y = some z ↔ z.toInt = x.toInt - y.toInt := by
  rw [checkedSub]
  split_ifs with hover
  · refine iff_of_false (by simp) fun hz => ?_
    rw [BitVec.ssubOverflow, ← hz] at hover
    have hlt : z.toInt < 2 ^ (w - 1) := z.toInt_lt
    have hle : -2 ^ (w - 1) ≤ z.toInt := z.le_toInt
    simp only [ge_iff_le, Bool.or_eq_true, decide_eq_true_eq] at hover
    omega
  · rw [Option.some.injEq, ← BitVec.toInt_inj, BitVec.toInt_sub_of_not_ssubOverflow hover, eq_comm]

/-- Every integer of the range is one of the type. -/
theorem exists_toInt_eq (hw : 0 < w) {n : ℤ} (hle : -2 ^ (w - 1) ≤ n) (hlt : n < 2 ^ (w - 1)) :
    ∃ z : BitVec w, z.toInt = n :=
  ⟨BitVec.ofInt w n, BitVec.toInt_ofInt_eq_self hw hle hlt⟩

/-- A bit vector that is read signed is the natural number it holds in the lower half of its
range only. -/
theorem toInt_eq_natCast_iff (hw : 0 < w) (x : BitVec w) (m : ℕ) :
    x.toInt = m ↔ x.toNat = m ∧ m < 2 ^ (w - 1) := by
  have hlt : x.toNat < 2 ^ w := x.isLt
  have hpow : 2 ^ w = 2 ^ (w - 1) * 2 := by rw [← pow_succ, Nat.sub_add_cancel hw]
  rw [BitVec.toInt_eq_toNat_cond]
  split_ifs <;> omega

/-! ### A counter modulo `m` -/

/-- The residues keep away from the modulus. -/
theorem residue_le {m : ℕ} (hm : 0 < m) (d k : ℕ) : k * d % m ≤ m - d.gcd m := by
  have hgcd : d.gcd m ∣ k * d % m :=
    (Nat.dvd_mod_iff (Nat.gcd_dvd_right d m)).mpr (Dvd.dvd.mul_left (Nat.gcd_dvd_left d m) k)
  obtain ⟨a, ha⟩ := hgcd
  obtain ⟨b, hb⟩ := Nat.gcd_dvd_right d m
  have hlt : d.gcd m * a < d.gcd m * b := by
    rw [← ha, ← hb]
    exact Nat.mod_lt _ hm
  have hab : a + 1 ≤ b := Nat.lt_of_mul_lt_mul_left hlt
  have hmul : d.gcd m * (a + 1) ≤ d.gcd m * b := Nat.mul_le_mul_left _ hab
  rw [← hb, Nat.mul_succ] at hmul
  omega

/-- The largest residue is reached within one period. -/
theorem exists_residue_eq {m : ℕ} (hm : 0 < m) (d : ℕ) : ∃ k < m, k * d % m = m - d.gcd m := by
  rcases (Nat.gcd_le_right d hm).lt_or_eq with hlt | heq
  · obtain ⟨k, hk, hmod⟩ := Nat.exists_mul_mod_eq_gcd hlt
    have hk0 : k ≠ 0 := by
      rintro rfl
      rw [Nat.mul_zero, Nat.zero_mod] at hmod
      exact (Nat.gcd_pos_of_pos_right d hm).ne hmod
    -- the counter runs through the residues backwards as well
    refine ⟨m - k, by omega, ?_⟩
    have hsum : ((m - k) * d + d * k) % m = 0 := by
      rw [Nat.mul_comm d k, ← Nat.add_mul, Nat.sub_add_cancel hk.le]
      exact Nat.mul_mod_right m d
    rw [Nat.add_mod, hmod] at hsum
    have hres : (m - k) * d % m < m := Nat.mod_lt _ hm
    have hgcd : 0 < d.gcd m := Nat.gcd_pos_of_pos_right d hm
    have hdvd : m ∣ (m - k) * d % m + d.gcd m := Nat.dvd_of_mod_eq_zero hsum
    obtain ⟨c, hc⟩ := hdvd
    have hc1 : c = 1 := by
      have hlo : 0 < c := by
        rcases Nat.eq_zero_or_pos c with rfl | hpos
        · omega
        · exact hpos
      have hhi : c < 2 := by
        by_contra hge
        have hmul : m * 2 ≤ m * c := Nat.mul_le_mul_left m (not_lt.mp hge)
        omega
      omega
    rw [hc1, Nat.mul_one] at hc
    omega
  · exact ⟨0, hm, by rw [Nat.zero_mul, Nat.zero_mod, heq, Nat.sub_self]⟩

/-- **The step after any residue stays below a bound** as soon as the one after the largest
does. -/
theorem forall_residue_add_le_iff {m : ℕ} (hm : 0 < m) (d M : ℕ) :
    (∀ k, k * d % m + d ≤ M) ↔ m - d.gcd m + d ≤ M := by
  constructor
  · intro h
    obtain ⟨k, -, hk⟩ := exists_residue_eq hm d
    exact hk ▸ h k
  · intro h k
    exact (Nat.add_le_add_right (residue_le hm d k) d).trans h
