import Mathlib.Data.Nat.Digits.Defs

/-!
# Fixed-width byte digits

`leBytes n x` is the little-endian list of the low `n` bytes of `x` and `ofLeBytes` its
value; the big-endian list is the reverse. Reading back what was laid down gives the number up
to the width (`ofLeBytes_leBytes`), a prefix of the little-endian list is the little-endian list
of fewer bytes (`take_leBytes`), and the rest of it that of the number without them
(`drop_leBytes`).

The number of bytes is a parameter, so that one set of lemmas serves the two, four and eight bytes
of a program's integers. A program lays a number down by shifts and masks; what it lays down is
compared with these lists once for each width, and everything else is said of the lists.
-/

namespace ByteDigits

/-- The low `n` bytes of `x`, least significant first, which is the order in which a little-endian
machine keeps them in memory. -/
def leBytes : ℕ → ℕ → List (BitVec 8)
  | 0, _ => []
  | n + 1, x => BitVec.ofNat 8 x :: leBytes n (x / 256)

/-- The value of a list of bytes, least significant first. -/
def ofLeBytes : List (BitVec 8) → ℕ
  | [] => 0
  | b :: bs => b.toNat + 256 * ofLeBytes bs

@[simp]
theorem length_leBytes (n x : ℕ) : (leBytes n x).length = n := by
  induction n generalizing x with
  | zero => rfl
  | succ n ih => simp [leBytes, ih]

/-- Reading back the low `n` bytes of `x` gives `x` modulo `256 ^ n`. -/
theorem ofLeBytes_leBytes (n x : ℕ) : ofLeBytes (leBytes n x) = x % 256 ^ n := by
  induction n generalizing x with
  | zero => simp [leBytes, ofLeBytes, Nat.mod_one]
  | succ n ih =>
    rw [leBytes, ofLeBytes, ih, BitVec.toNat_ofNat, Nat.pow_succ 256 n, mul_comm (256 ^ n),
      Nat.mod_mul]

/-- Two numbers below the width with the same bytes are equal. -/
theorem leBytes_inj {n x y : ℕ} (hx : x < 256 ^ n) (hy : y < 256 ^ n) :
    leBytes n x = leBytes n y ↔ x = y := by
  refine ⟨fun h => ?_, fun h => congrArg _ h⟩
  have hval := congrArg ofLeBytes h
  rwa [ofLeBytes_leBytes, ofLeBytes_leBytes, Nat.mod_eq_of_lt hx, Nat.mod_eq_of_lt hy] at hval

/-- The bytes behind the first `k` are those of the number without them. -/
theorem drop_leBytes (k n x : ℕ) : (leBytes (k + n) x).drop k = leBytes n (x / 256 ^ k) := by
  induction k generalizing x with
  | zero => simp
  | succ k ih =>
    rw [Nat.add_right_comm, leBytes, List.drop_succ_cons, ih, Nat.div_div_eq_div_mul,
      Nat.pow_succ']

theorem leBytes_zero (n : ℕ) : leBytes n 0 = List.replicate n 0 := by
  induction n with
  | zero => rfl
  | succ n ih =>
    rw [leBytes, Nat.zero_div, ih, List.replicate_succ]
    rfl

/-- A prefix of the little-endian bytes is the little-endian list of fewer bytes. -/
theorem take_leBytes {k n : ℕ} (h : k ≤ n) (x : ℕ) : (leBytes n x).take k = leBytes k x := by
  induction k generalizing n x with
  | zero => rfl
  | succ k ih =>
    obtain ⟨m, rfl⟩ : ∃ m, n = m + 1 := ⟨n - 1, by omega⟩
    rw [leBytes, List.take_succ_cons, leBytes, ih (by omega)]

end ByteDigits
