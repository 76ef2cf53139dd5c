import Libbaalue.Foundations.CallMachine

/-!
# Threads that return

A thread in an environment that answers its calls from a state of its own. `Returns` is a run of
both up to a final state of the thread: such a run is determined by where it starts
(`Returns.unique`). Whether there is one is a question of its own, that a retry loop leaves to
the environment.

A proof that a call returns is then a derivation: one step for each call whose answer is known, up
to a final state. A proof that it does not is `not_returns_of_stuck`, for the loops that come back
to where they were with the environment unchanged. Between the two stand retry loops, whose number
of turns is part of the environment's state and the subject of an induction there.
-/

namespace CallMachine

variable {σ κ ρ ε : Type*} (M : CallMachine σ κ ρ) (env : ε → κ → ρ × ε) (final : σ → Prop)

/-- The thread comes from a state to a final state, the environment meanwhile from one state to
another. It is an inductive relation, so that a thread that makes calls for ever does not return. -/
inductive Returns : σ → ε → σ → ε → Prop
  | ret {s : σ} {e : ε} : final s → Returns s e s e
  | call {s t : σ} {e e' : ε} : ¬ final s →
    Returns (M.resume s (env e (M.call s)).1) (env e (M.call s)).2 t e' → Returns s e t e'

variable {M env final} {s t u : σ} {e e' e'' : ε}

theorem returns_of_final (hs : final s) :
    M.Returns env final s e t e' ↔ t = s ∧ e' = e := by
  constructor
  · intro h
    cases h with
    | ret _ => exact ⟨rfl, rfl⟩
    | call hns _ => exact absurd hs hns
  · rintro ⟨rfl, rfl⟩
    exact .ret hs

theorem returns_of_not_final (hs : ¬ final s) :
    M.Returns env final s e t e' ↔
      M.Returns env final (M.resume s (env e (M.call s)).1) (env e (M.call s)).2 t e' := by
  constructor
  · intro h
    cases h with
    | ret hs' => exact absurd hs' hs
    | call _ hrest => exact hrest
  · exact .call hs

/-- One call, whose answer and whose next states are known. -/
theorem returns_step {s₁ : σ} {r : ρ} {e₁ : ε} (hs : ¬ final s)
    (hanswer : env e (M.call s) = (r, e₁)) (hresume : M.resume s r = s₁) :
    M.Returns env final s e t e' ↔ M.Returns env final s₁ e₁ t e' := by
  rw [returns_of_not_final hs, hanswer, hresume]

/-- **A call that changes nothing is made for ever**: what only comes back to itself does not
return. -/
theorem not_returns_of_stuck {P : σ → Prop} (hstuck : ∀ s, P s → ¬ final s)
    (hkeep : ∀ s r, P s → P (M.resume s r)) (hs : P s) : ¬ M.Returns env final s e t e' := by
  intro h
  induction h with
  | ret hfinal => exact hstuck _ hs hfinal
  | call _ _ ih => exact ih (hkeep _ _ hs)

/-- **A run to a final state is determined.** Thread and environment are deterministic, so there is
one final state at most, and one state of the environment with it. -/
theorem Returns.unique (h : M.Returns env final s e t e') (h' : M.Returns env final s e u e'') :
    t = u ∧ e' = e'' := by
  induction h with
  | ret hs =>
    obtain ⟨rfl, rfl⟩ := (returns_of_final hs).mp h'
    exact ⟨rfl, rfl⟩
  | call hs _ ih => exact ih ((returns_of_not_final hs).mp h')

end CallMachine
