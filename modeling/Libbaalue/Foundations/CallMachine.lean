import Mathlib.Data.List.Basic

/-!
# Machines that call their environment

A thread seen from its system calls: in every state it is about to make one call, and the
answer of the environment takes it to the next state. Loops, `goto`s and error paths are in
`resume`; a thread that has returned answers with itself.

* `run`: the state after a run, with its invariant rule `run_invariant`.
* `trace`: the calls of a run, each with its answer.
* `forall_mem_trace`: the invariant rule for traces, under a condition on the answers that may
  look at the state they are given in (`Along`).
* `trace_map`: the trace of a machine that another one simulates.
* `round`: the calls a looping thread makes before it is back at its home state, against an
  environment that answers by the call.

The rules are stated for all answers at once, so that a result proved with them holds against every
behaviour of the environment; where a result needs the environment to behave, the condition is an
explicit predicate on a state and the answer given in it. A machine may run for ever, and nothing
here says that it stops.
-/

/-- A thread as its next call and what it does with the answer. Between two calls it is
deterministic, so that its behaviour is told by the answers; it has no final state, and a thread
that ends is one that stays where it is. -/
structure CallMachine (σ κ ρ : Type*) where
  call : σ → κ
  resume : σ → ρ → σ

namespace CallMachine

variable {σ κ ρ : Type*} (M : CallMachine σ κ ρ)

/-- The state after the given answers. -/
def run : σ → List ρ → σ
  | s, [] => s
  | s, a :: as => run (M.resume s a) as

/-- The calls made against the given answers, each with its answer. How long it is depends on the
answers alone. -/
def trace : σ → List ρ → List (κ × ρ)
  | _, [] => []
  | s, a :: as => (M.call s, a) :: trace (M.resume s a) as

/-- Every answer of the run meets a condition on the state it is given in. -/
def Along (ok : σ → ρ → Prop) : σ → List ρ → Prop
  | _, [] => True
  | s, a :: as => ok s a ∧ Along ok (M.resume s a) as

/-- The trace of a run that goes on. -/
theorem trace_append (s : σ) (as bs : List ρ) :
    M.trace s (as ++ bs) = M.trace s as ++ M.trace (M.run s as) bs := by
  induction as generalizing s with
  | nil => rfl
  | cons a as ih => rw [List.cons_append, trace, trace, run, ih, List.cons_append]

variable {M}

theorem along_of_forall {ok : ρ → Prop} {as : List ρ} (h : ∀ a ∈ as, ok a) (s : σ) :
    M.Along (fun _ => ok) s as := by
  induction as generalizing s with
  | nil => trivial
  | cons a as ih =>
    obtain ⟨ha, has⟩ := List.forall_mem_cons.mp h
    exact ⟨ha, ih has _⟩

/-- **Run rule.** What every answer keeps holds after a run, whatever the answers are and however
many. -/
theorem run_invariant {P : σ → Prop} (hstep : ∀ s a, P s → P (M.resume s a)) {s : σ} (hs : P s)
    (as : List ρ) : P (M.run s as) := by
  induction as generalizing s with
  | nil => exact hs
  | cons a as ih => exact ih (hstep s a hs)

/-- **Trace rule.** If the answers meet `ok`, `P` is kept by such answers and `P` gives `Q` of
the call about to be made, then `Q` holds of every call of the run. -/
theorem forall_mem_trace {ok : σ → ρ → Prop} {P : σ → Prop} {Q : κ → Prop}
    (hstep : ∀ s a, P s → ok s a → P (M.resume s a)) (hcall : ∀ s, P s → Q (M.call s))
    {s : σ} (hs : P s) {as : List ρ} (has : M.Along ok s as) :
    ∀ e ∈ M.trace s as, Q e.1 := by
  induction as generalizing s with
  | nil => simp [trace]
  | cons a as ih =>
    rintro e (_ | ⟨_, he⟩)
    · exact hcall s hs
    · exact ih (hstep s a hs has.1) has.2 e he

/-- **Simulation rule.** Where `N` does on the image of a state what `M` does, as long as `P` holds
and the answers meet `ok`, its trace is the image of the trace of `M`. -/
theorem trace_map {σ' κ' ρ' : Type*} {N : CallMachine σ' κ' ρ'} {P : σ → Prop}
    {ok : σ → ρ → Prop} {f : σ → σ'} {g : κ → κ'} {r : ρ → ρ'}
    (hkeep : ∀ s a, P s → ok s a → P (M.resume s a))
    (hcall : ∀ s, P s → N.call (f s) = g (M.call s))
    (hresume : ∀ s a, P s → ok s a → N.resume (f s) (r a) = f (M.resume s a)) {s : σ} (hs : P s)
    {as : List ρ} (has : M.Along ok s as) :
    N.trace (f s) (as.map r) = (M.trace s as).map (Prod.map g r) := by
  induction as generalizing s with
  | nil => rfl
  | cons a as ih =>
    rw [List.map_cons, trace, trace, List.map_cons, hcall s hs, hresume s a hs has.1,
      ih (hkeep s a hs has.1) has.2]
    rfl

variable (M)

/-- The calls up to the next home state, at most `fuel` many, and the state reached. -/
def round (home : σ → Bool) (env : κ → ρ) : ℕ → σ → List κ × σ
  | 0, s => ([], s)
  | fuel + 1, s =>
    let t := M.resume s (env (M.call s))
    if home t then ([M.call s], t)
    else (M.call s :: (round home env fuel t).1, (round home env fuel t).2)

end CallMachine
