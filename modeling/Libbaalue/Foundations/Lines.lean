import Mathlib.Data.List.Basic

/-!
# The lines of a stream

A stream is a function of the position: an item, or nothing from its end on; it need not end. The
line at a position runs up to and including the next newline, or up to the end of the stream
(`LineAt`), so that the line at the end is empty.

* `LineAt.unique`: there is one line at a position.
* `exists_lineAt_iff`: there is one if and only if the stream ends or has a newline from there on.
* `LineStart`: where the lines of a stream begin.

A stream that neither ends nor has a newline has no line at all, and a reader of lines never comes
back from it; that is why there is an existence lemma beside the uniqueness. The definition says
nothing of how a line is read or of how much of it a reader has room for, so that a reader is
compared with it as with something that was there before.
-/

variable {β : Type*} (nl : β) (stream : ℕ → Option β)

/-- The line at a position of the stream: up to and with the newline, or up to the end of the
stream. At the end itself it is empty. -/
inductive LineAt : ℕ → List β → Prop
  | ended {pos : ℕ} : stream pos = none → LineAt pos []
  | newline {pos : ℕ} : stream pos = some nl → LineAt pos [nl]
  | item {pos : ℕ} {b : β} {line : List β} :
    stream pos = some b → b ≠ nl → LineAt (pos + 1) line → LineAt pos (b :: line)

/-- Line `k` of the stream starts at a position. Behind the end of the stream there are empty lines
without end, as a reader finds them. -/
inductive LineStart : ℕ → ℕ → Prop
  | first : LineStart 0 0
  | next {k pos : ℕ} {line : List β} :
    LineStart k pos → LineAt nl stream pos line → LineStart (k + 1) (pos + line.length)

variable {nl stream} {pos : ℕ} {line line' : List β}

/-- There is one line at a position. -/
theorem LineAt.unique (h : LineAt nl stream pos line) (h' : LineAt nl stream pos line') :
    line = line' := by
  induction h generalizing line' with
  | ended hend =>
    cases h' with
    | ended _ => rfl
    | newline hnl => cases hend.symm.trans hnl
    | item hb _ _ => cases hend.symm.trans hb
  | newline hnl =>
    cases h' with
    | ended hend => cases hend.symm.trans hnl
    | newline _ => rfl
    | item hb hne _ => exact absurd (Option.some.inj (hb.symm.trans hnl)) hne
  | item hb hne _ ih =>
    cases h' with
    | ended hend => cases hend.symm.trans hb
    | newline hnl => exact absurd (Option.some.inj (hb.symm.trans hnl)) hne
    | item hb' _ hrest =>
      obtain rfl := Option.some.inj (hb.symm.trans hb')
      rw [ih hrest]

/-- The line is empty at the end of the stream only. -/
theorem LineAt.eq_nil_iff (h : LineAt nl stream pos line) : line = [] ↔ stream pos = none := by
  cases h with
  | ended hend => exact iff_of_true rfl hend
  | newline hnl => simp [hnl]
  | item hb _ _ => simp [hb]

/-- **There is a line** if the stream ends or has a newline. -/
theorem exists_lineAt_iff :
    (∃ line, LineAt nl stream pos line) ↔ ∃ i ≥ pos, stream i = none ∨ stream i = some nl := by
  constructor
  · rintro ⟨line, h⟩
    induction h with
    | ended hend => exact ⟨_, Nat.le_refl _, .inl hend⟩
    | newline hnl => exact ⟨_, Nat.le_refl _, .inr hnl⟩
    | item _ _ _ ih =>
      obtain ⟨i, hi, hstream⟩ := ih
      exact ⟨i, Nat.le_of_succ_le hi, hstream⟩
  · rintro ⟨i, hi, hstream⟩
    obtain ⟨n, rfl⟩ := Nat.exists_eq_add_of_le hi
    induction n generalizing pos with
    | zero =>
      rcases hstream with hend | hnl
      · exact ⟨[], .ended hend⟩
      · exact ⟨[nl], .newline hnl⟩
    | succ n ih =>
      rcases hb : stream pos with _ | b
      · exact ⟨[], .ended hb⟩
      · by_cases hne : b = nl
        · exact ⟨[nl], .newline (hne ▸ hb)⟩
        · have hlater : pos + (n + 1) = pos + 1 + n := by omega
          rw [hlater] at hstream
          obtain ⟨line, hline⟩ := ih (by omega) hstream
          exact ⟨b :: line, .item hb hne hline⟩
