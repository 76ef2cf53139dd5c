import Libbaalue.Platform
import Mathlib.Data.Nat.Digits.Defs

/-!
# `strtoul` in base 16

White space, a sign and the mark `0x` are skipped, digits are read up to the first other
character, and a value that does not fit is `ULONG_MAX`.

A hexadecimal numeral is given as its digits (`HexNumeral`); `strtoulHex_of_hexNumeral` reads it
back, with its mark or without.

The value is computed as the library function does, from left to right, with what was read so far,
and the cut at `ULONG_MAX` depends on the width of `long`. A string without a digit is 0, and what
stands behind the digits is not looked at; the code passes no pointer to be told. Signs are part of
the function and therefore of the model, though no identifier has one.

What is proved is about numerals, which is what a list of identifiers is made of: a digit is none of
the characters that mean something else (`of_hexDigit?_eq_some`), so that a numeral is read to its
end.
-/

namespace Libbaalue

/-- `isspace` in the C locale. -/
def isSpace (b : Byte) : Bool := b = 32 ∨ 9 ≤ b ∧ b ≤ 13

/-- The value of a hexadecimal digit, of either case. -/
def hexDigit? (b : Byte) : Option ℕ :=
  if 48 ≤ b ∧ b ≤ 57 then some (b.toNat - 48)
  else if 65 ≤ b ∧ b ≤ 70 then some (b.toNat - 55)
  else if 97 ≤ b ∧ b ≤ 102 then some (b.toNat - 87)
  else none

/-- The digits at the start of a string, read behind the value `acc`. -/
def hexValueFrom (acc : ℕ) : List Byte → ℕ
  | [] => acc
  | b :: s =>
    match hexDigit? b with
    | none => acc
    | some d => hexValueFrom (acc * 16 + d) s

/-- Whether a string starts with the mark `0x` or `0X` of a digit. -/
def hasHexMark : List Byte → Bool
  | b :: x :: d :: _ => b = 48 ∧ (x = 120 ∨ x = 88) ∧ (hexDigit? d).isSome
  | _ => false

/-- The string behind the mark. -/
def skipHexMark (s : List Byte) : List Byte := if hasHexMark s then s.drop 2 else s

/-- The value of the digits behind white space and sign. -/
def strtoulDigits (abi : Abi) (negative : Bool) (s : List Byte) : CLong abi :=
  let value := hexValueFrom 0 (skipHexMark s)
  -- ERANGE
  if 2 ^ abi.longBits ≤ value then BitVec.allOnes abi.longBits
  else if negative then -BitVec.ofNat abi.longBits value
  else BitVec.ofNat abi.longBits value

/-- `strtoul(s, NULL, 16)`. A string without a number in it is 0, and what follows the digits is
left. -/
def strtoulHex (abi : Abi) (s : List Byte) : CLong abi :=
  match s.dropWhile isSpace with
  | [] => 0
  | b :: s =>
    if b = 45 then strtoulDigits abi true s
    else if b = 43 then strtoulDigits abi false s
    else strtoulDigits abi false (b :: s)

/-! ### Numerals -/

/-- Hexadecimal digits, most significant first, and the number they denote. -/
def HexDigits (s : List Byte) (n : ℕ) : Prop :=
  s ≠ [] ∧ ∃ ds, List.Forall₂ (fun b d => hexDigit? b = some d) s ds ∧
    Nat.ofDigits 16 ds.reverse = n

/-- A hexadecimal numeral: digits, behind a mark or not, and the number they denote. -/
inductive HexNumeral : List Byte → ℕ → Prop
  | plain {s : List Byte} {n : ℕ} (h : HexDigits s n) : HexNumeral s n
  | marked {x : Byte} {s : List Byte} {n : ℕ} (hx : x = 120 ∨ x = 88) (h : HexDigits s n) :
    HexNumeral (48 :: x :: s) n

/-- Reading digits extends the number by them. -/
private theorem hexValueFrom_eq {acc : ℕ} {s : List Byte} {ds : List ℕ}
    (h : List.Forall₂ (fun b d => hexDigit? b = some d) s ds) :
    hexValueFrom acc s = Nat.ofDigits 16 (ds.reverse ++ [acc]) := by
  induction h generalizing acc with
  | nil => simp [hexValueFrom]
  | @cons b d s ds hb hs ih =>
    rw [hexValueFrom, hb]
    change hexValueFrom (acc * 16 + d) s = _
    rw [ih, List.reverse_cons, List.append_assoc, Nat.ofDigits_append, Nat.ofDigits_append]
    congr 1
    congr 1
    simp [Nat.ofDigits_cons]
    omega

private theorem HexDigits.hexValueFrom_zero {s : List Byte} {n : ℕ} (h : HexDigits s n) :
    hexValueFrom 0 s = n := by
  obtain ⟨-, ds, hds, rfl⟩ := h
  rw [hexValueFrom_eq hds, Nat.ofDigits_append]
  simp

/-- What a digit is not: white space, a sign, a comma, or the letter of the mark. -/
theorem of_hexDigit?_eq_some {b : Byte} {d : ℕ} (h : hexDigit? b = some d) :
    isSpace b = false ∧ b ≠ 45 ∧ b ≠ 43 ∧ b ≠ 44 ∧ b ≠ 120 ∧ b ≠ 88 := by
  revert d
  revert b
  decide +kernel

/-- Digits carry no mark of their own. -/
private theorem HexDigits.skipHexMark {s : List Byte} {n : ℕ} (h : HexDigits s n) :
    skipHexMark s = s := by
  obtain ⟨-, ds, hds, -⟩ := h
  rw [Libbaalue.skipHexMark, if_neg]
  intro hmark
  rcases hds with _ | ⟨hb, _ | ⟨hx, _ | ⟨hd, hs⟩⟩⟩
  · cases hmark
  · cases hmark
  · cases hmark
  · obtain ⟨-, -, -, -, hlower, hupper⟩ := of_hexDigit?_eq_some hx
    exact absurd (of_decide_eq_true hmark).2.1 (not_or.mpr ⟨hlower, hupper⟩)

private theorem HexNumeral.hexValueFrom_zero {s : List Byte} {n : ℕ} (h : HexNumeral s n) :
    hexValueFrom 0 (Libbaalue.skipHexMark s) = n := by
  cases h with
  | plain h => rw [h.skipHexMark, h.hexValueFrom_zero]
  | @marked x s n hx h =>
    have hmark : hasHexMark (48 :: x :: s) = true := by
      obtain ⟨hne, ds, hds, -⟩ := h
      cases hds with
      | nil => exact absurd rfl hne
      | cons hb hs => exact decide_eq_true ⟨rfl, hx, by rw [hb]; rfl⟩
    rw [Libbaalue.skipHexMark, if_pos hmark]
    exact h.hexValueFrom_zero

/-- A numeral starts with a digit. -/
theorem HexNumeral.exists_cons {s : List Byte} {n : ℕ} (h : HexNumeral s n) :
    ∃ b t d, s = b :: t ∧ hexDigit? b = some d := by
  cases h with
  | plain h =>
    obtain ⟨hne, ds, hds, -⟩ := h
    cases hds with
    | nil => exact absurd rfl hne
    | cons hb hs => exact ⟨_, _, _, rfl, hb⟩
  | marked hx h => exact ⟨_, _, 0, rfl, by decide⟩

theorem HexDigits.ne_comma {s : List Byte} {n : ℕ} (h : HexDigits s n) : ∀ b ∈ s, b ≠ 44 := by
  obtain ⟨-, ds, hds, -⟩ := h
  induction hds with
  | nil => exact List.forall_mem_nil _
  | cons hb hs ih =>
    exact List.forall_mem_cons.mpr ⟨(of_hexDigit?_eq_some hb).2.2.2.1, ih⟩

/-- A numeral has no comma. -/
theorem HexNumeral.ne_comma {s : List Byte} {n : ℕ} (h : HexNumeral s n) : ∀ b ∈ s, b ≠ 44 := by
  cases h with
  | plain h => exact h.ne_comma
  | marked hx h =>
    refine List.forall_mem_cons.mpr ⟨by decide, List.forall_mem_cons.mpr ⟨?_, h.ne_comma⟩⟩
    rcases hx with rfl | rfl <;> decide

/-- **A numeral is read back**, if its number has room in an `unsigned long`. -/
theorem strtoulHex_of_hexNumeral {abi : Abi} {s : List Byte} {n : ℕ} (h : HexNumeral s n)
    (hn : n < 2 ^ abi.longBits) : strtoulHex abi s = BitVec.ofNat abi.longBits n := by
  obtain ⟨b, t, d, rfl, hb⟩ := h.exists_cons
  obtain ⟨hspace, hminus, hplus, -⟩ := of_hexDigit?_eq_some hb
  have hdrop : (b :: t).dropWhile isSpace = b :: t :=
    List.dropWhile_cons_of_neg (Bool.not_eq_true _ ▸ hspace)
  rw [strtoulHex, hdrop]
  change (if b = 45 then _ else if b = 43 then _ else strtoulDigits abi false (b :: t)) = _
  rw [if_neg hminus, if_neg hplus, strtoulDigits, h.hexValueFrom_zero]
  rw [if_neg (not_le.mpr hn), if_neg Bool.false_ne_true]

end Libbaalue
