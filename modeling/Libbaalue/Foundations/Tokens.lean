import Mathlib.Data.List.Basic

/-!
# Tokens

The tokens of a list: its maximal blocks without a delimiter, in order, empty ones left out.

* `tokens_eq_filter`: the tokens are the non-empty parts of `List.splitOnP`.
* `flatten_tokens`: nothing but the delimiters is lost.
* `tokens_intercalate`: a list of tokens, joined by a delimiter, has these tokens.
* `tokens_eq_flatMap`: further delimiters cut the tokens further, each for itself.

The scanner that is defined is the one a program runs, with what it has read of the current token;
the part of the library that has names for parts of a list is used for the proofs. A list is split
at its first delimiter and the rest of the argument is an induction on the list, in each of the
results.
-/

variable {α : Type*} (delim : α → Bool)

/-- The tokens of a list behind the part `cur` of a token. A run of delimiters separates like one
delimiter, and nothing is an empty token. -/
def tokensFrom : List α → List α → List (List α)
  | cur, [] => if cur.isEmpty then [] else [cur]
  | cur, a :: as =>
    if delim a then
      if cur.isEmpty then tokensFrom [] as else cur :: tokensFrom [] as
    else tokensFrom (cur ++ [a]) as

/-- The tokens of a list. -/
def tokens (as : List α) : List (List α) := tokensFrom delim [] as

variable {delim}

/-! ### Tokens and parts -/

theorem tokensFrom_eq_filter (cur as : List α) : tokensFrom delim cur as =
    ((as.splitOnP delim).modifyHead (cur ++ ·)).filter fun t => !t.isEmpty := by
  induction as generalizing cur with
  | nil =>
    rw [tokensFrom, List.splitOnP_nil, List.modifyHead_cons, List.append_nil]
    cases cur <;> rfl
  | cons a as ih =>
    have hparts : (as.splitOnP delim).modifyHead ([] ++ ·) = as.splitOnP delim := by
      cases as.splitOnP delim <;> rfl
    rw [tokensFrom, List.splitOnP_cons_eq_if_modifyHead]
    split_ifs with ha hcur
    · obtain rfl := List.isEmpty_iff.mp hcur
      rw [ih, hparts, List.modifyHead_cons]
      rfl
    · rw [ih, hparts, List.modifyHead_cons, List.append_nil,
        List.filter_cons_of_pos (by simpa using hcur)]
    · have hcons : ((cur ++ ·) ∘ List.cons a : List α → List α) = (cur ++ [a] ++ ·) := by
        funext t
        simp
      rw [ih, List.modifyHead_modifyHead, hcons]

/-- **Tokens are the non-empty parts** that the delimiters cut a list into, in the order of the
list. -/
theorem tokens_eq_filter (as : List α) :
    tokens delim as = (as.splitOnP delim).filter fun t => !t.isEmpty := by
  rw [tokens, tokensFrom_eq_filter]
  cases as.splitOnP delim <;> rfl

private theorem flatten_tokensFrom (cur as : List α) :
    (tokensFrom delim cur as).flatten = cur ++ as.filter fun a => !delim a := by
  induction as generalizing cur with
  | nil =>
    rw [tokensFrom]
    cases cur <;> simp
  | cons a as ih =>
    rw [tokensFrom]
    split_ifs with ha hcur
    · rw [ih, List.isEmpty_iff.mp hcur, List.filter_cons_of_neg (by simp [ha])]
    · rw [List.flatten_cons, ih, List.filter_cons_of_neg (by simp [ha]), List.nil_append]
    · rw [ih, List.filter_cons_of_pos (by simp [ha]), List.append_assoc, List.singleton_append]

/-- The tokens of a list hold all of it but the delimiters. -/
theorem flatten_tokens (as : List α) :
    (tokens delim as).flatten = as.filter fun a => !delim a := by
  rw [tokens, flatten_tokensFrom, List.nil_append]

/-- A delimiter ends the tokens in front of it. -/
theorem tokens_append_delim {d : α} (hd : delim d = true) (as bs : List α) :
    tokens delim (as ++ d :: bs) = tokens delim as ++ tokens delim bs := by
  simp only [tokens_eq_filter, List.splitOnP_append_cons as bs hd, List.filter_append]

/-- A block without a delimiter is one token. -/
theorem tokens_of_forall {t : List α} (hne : t ≠ []) (h : ∀ a ∈ t, delim a = false) :
    tokens delim t = [t] := by
  rw [tokens_eq_filter, List.splitOnP_eq_singleton h]
  exact List.filter_cons_of_pos (by simpa using hne)

/-- **Tokens joined by a delimiter** are found again, if none of them is empty or has a delimiter in
it. -/
theorem tokens_intercalate {d : α} (hd : delim d = true) {ts : List (List α)}
    (h : ∀ t ∈ ts, t ≠ [] ∧ ∀ a ∈ t, delim a = false) :
    tokens delim ([d].intercalate ts) = ts := by
  induction ts with
  | nil => rfl
  | cons t ts ih =>
    obtain ⟨⟨hne, ht⟩, hts⟩ := List.forall_mem_cons.mp h
    cases ts with
    | nil => simpa [List.intercalate] using tokens_of_forall hne ht
    | cons t' ts =>
      have hjoin : [d].intercalate (t :: t' :: ts) = t ++ d :: [d].intercalate (t' :: ts) := by
        simp [List.intercalate]
      rw [hjoin, tokens_append_delim hd, tokens_of_forall hne ht, ih hts, List.singleton_append]

/-! ### Further delimiters -/

/-- The part of a token in front of a list is cut like the list. -/
theorem tokens_append_eq_flatMap {delim' : α → Bool}
    (h : ∀ a, delim a = true → delim' a = true) (cur as : List α) :
    tokens delim' (cur ++ as) = (tokensFrom delim cur as).flatMap (tokens delim') := by
  induction as generalizing cur with
  | nil =>
    rw [tokensFrom, List.append_nil]
    cases cur with
    | nil => rfl
    | cons a cur => exact (List.flatMap_singleton (tokens delim') (a :: cur)).symm
  | cons a as ih =>
    rw [tokensFrom]
    split_ifs with ha hcur
    · obtain rfl := List.isEmpty_iff.mp hcur
      rw [← ih, tokens_append_delim (h a ha)]
      rfl
    · rw [List.flatMap_cons, ← ih, tokens_append_delim (h a ha), List.nil_append]
    · rw [← ih, List.append_assoc, List.singleton_append]

/-- **Further delimiters cut the tokens.** The tokens for more delimiters are those for fewer, each
cut once more by itself. -/
theorem tokens_eq_flatMap {delim' : α → Bool} (h : ∀ a, delim a = true → delim' a = true)
    (as : List α) : tokens delim' as = (tokens delim as).flatMap (tokens delim') :=
  tokens_append_eq_flatMap h [] as
