import Mathlib.Logic.Basic

/-!
# Labelled systems with a computable step

A `LabelledSystem` has an initial state and a partial step function: the label resolves every
choice of the scheduler and of the environment, and `none` is a label that is not enabled. So a
schedule can be executed (`exec`), and an interleaving is a list of labels.

* `Reachable.invariant`: an invariant is proved by one step lemma; `exec_stable` is the same for
  what a schedule does not undo.
* `restrict`: the runs all of whose steps meet a condition on the state before the step and the
  label.
* `Refinement`: a system refines another along an abstraction of its states, under an invariant
  of its own, when every step is a step of the abstract system or leaves the abstraction alone;
  what is reachable then abstracts to what is reachable (`Refinement.reachable`).

Since the step is a function, a run is data: a list of labels that can be computed with, which is
how a counterexample or an example is given. The results are about all runs, which are inductive
(`Reachable`); the two meet in `reachable_of_exec`. Liveness is no matter of this library: no
fairness is assumed of a schedule, and what is proved with it are statements about every state that
can be reached.
-/

/-- A system whose step is determined by its label. What is not determined, the order of the
parties, the network, the outcome of a call, is in the label, so that a run is a list of labels. -/
structure LabelledSystem (σ α : Type*) where
  init : σ
  step : σ → α → Option σ

namespace LabelledSystem

variable {σ τ α β : Type*}

/-- Execute a schedule; `none` when one of its labels is not enabled in the state it is met in. -/
def exec (S : LabelledSystem σ α) : σ → List α → Option σ
  | s, [] => some s
  | s, a :: as => (S.step s a).bind fun t => S.exec t as

/-- The states of the runs of a system: those that some schedule leads to from the initial state. -/
inductive Reachable (S : LabelledSystem σ α) : σ → Prop
  | init : Reachable S S.init
  | step {s t : σ} {a : α} : Reachable S s → S.step s a = some t → Reachable S t

variable {S : LabelledSystem σ α}

theorem exec_append (s : σ) (as bs : List α) :
    S.exec s (as ++ bs) = (S.exec s as).bind fun t => S.exec t bs := by
  induction as generalizing s with
  | nil => rfl
  | cons a as ih =>
    rw [List.cons_append, exec, exec, Option.bind_assoc]
    exact Option.bind_congr fun t _ => ih t

theorem Reachable.of_exec {s t : σ} (hs : S.Reachable s) {as : List α}
    (h : S.exec s as = some t) : S.Reachable t := by
  induction as generalizing s with
  | nil => exact Option.some.inj h ▸ hs
  | cons a as ih =>
    obtain ⟨u, hu, hrest⟩ := Option.bind_eq_some_iff.mp h
    exact ih (hs.step hu) hrest

/-- The state a schedule leads to from the initial state. -/
theorem reachable_of_exec {as : List α} {s : σ} (h : S.exec S.init as = some s) : S.Reachable s :=
  Reachable.init.of_exec h

/-- **Invariant rule.** What holds initially and is kept by every step from a reachable state
holds of every reachable state. -/
theorem Reachable.invariant {P : σ → Prop} (hinit : P S.init)
    (hstep : ∀ s a t, S.Reachable s → P s → S.step s a = some t → P t) {s : σ}
    (h : S.Reachable s) : P s := by
  induction h with
  | init => exact hinit
  | step hs ht ih => exact hstep _ _ _ hs ih ht

/-- **Stability rule.** What every step with an allowed label keeps is kept by a schedule of
such labels. -/
theorem exec_stable {P : σ → Prop} {Q : α → Prop}
    (hstep : ∀ s a t, P s → Q a → S.step s a = some t → P t) {s t : σ} {as : List α} (hs : P s)
    (has : ∀ a ∈ as, Q a) (h : S.exec s as = some t) : P t := by
  induction as generalizing s with
  | nil => exact Option.some.inj h ▸ hs
  | cons a as ih =>
    obtain ⟨u, hu, hrest⟩ := Option.bind_eq_some_iff.mp h
    have hkept : P u := hstep s a u hs (has a List.mem_cons_self) hu
    exact ih hkept (fun b hb => has b (List.mem_cons_of_mem a hb)) hrest

/-! ### Runs under a condition -/

/-- The runs of a system all of whose steps meet a condition. -/
def restrict (S : LabelledSystem σ α) (allowed : σ → α → Prop) [∀ s a, Decidable (allowed s a)] :
    LabelledSystem σ α where
  init := S.init
  step s a := if allowed s a then S.step s a else none

variable {allowed : σ → α → Prop} [∀ s a, Decidable (allowed s a)]

theorem restrict_step_iff {s t : σ} {a : α} :
    (S.restrict allowed).step s a = some t ↔ allowed s a ∧ S.step s a = some t := by
  by_cases h : allowed s a <;> simp [restrict, h]

/-- A run under a condition is a run. -/
theorem Reachable.of_restrict {s : σ} (h : (S.restrict allowed).Reachable s) :
    S.Reachable s := by
  induction h with
  | init => exact .init
  | step _ ht ih => exact ih.step (restrict_step_iff.mp ht).2

/-! ### Refinement -/

/-- `S` refines `T` along `abs`, under the invariant `inv` of `S`: a step of the one is a step of
the other between the abstract states, or does not show in them. The invariant may be proved with
what is known of the reachable states of `T`. -/
structure Refinement (S : LabelledSystem σ α) (T : LabelledSystem τ β) (inv : σ → Prop)
    (abs : σ → τ) : Prop where
  inv_init : inv S.init
  abs_init : abs S.init = T.init
  inv_step : ∀ s a t, inv s → T.Reachable (abs s) → S.step s a = some t → inv t
  abs_step : ∀ s a t, inv s → S.step s a = some t →
    abs t = abs s ∨ ∃ b, T.step (abs s) b = some (abs t)

/-- **Refinement of runs.** The reachable states of the refined system satisfy its invariant
and abstract to reachable states. -/
theorem Refinement.reachable {T : LabelledSystem τ β} {inv : σ → Prop} {abs : σ → τ}
    (R : Refinement S T inv abs) {s : σ} (h : S.Reachable s) : inv s ∧ T.Reachable (abs s) := by
  refine h.invariant (P := fun s => inv s ∧ T.Reachable (abs s))
    ⟨R.inv_init, R.abs_init ▸ .init⟩ fun s a t _ ⟨hinv, habs⟩ hst => ?_
  refine ⟨R.inv_step s a t hinv habs hst, ?_⟩
  rcases R.abs_step s a t hinv hst with heq | ⟨b, hb⟩
  · exact heq ▸ habs
  · exact habs.step hb

end LabelledSystem
