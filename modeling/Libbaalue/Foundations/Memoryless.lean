import Libbaalue.Foundations.CallMachine

/-!
# Threads that forget

A thread with a loop keeps its variables from one turn to the next. What it does is determined by
what `look` shows of its state (`Determines`); where this is the same at every loop head, nothing
the turns before left behind takes part in the next one (`Forgets.trace_run_eq`).

The comparison is between two runs of one machine, so it is a statement about information: what is
left out of `look` is not read again before it is written. It is proved from one step in two states
that look alike, and needs no description of what the machine does. The runs may be of any length,
and the states at their ends need not be equal.
-/

namespace CallMachine

variable {σ τ κ ρ : Type*} {M : CallMachine σ κ ρ} {look : σ → τ} {home : σ → Prop} {fresh : τ}

/-- What `look` shows of a state determines the next call, and what it shows of the state after the
answer. So the rest of the state does not matter for what the thread does. -/
structure Determines (M : CallMachine σ κ ρ) (look : σ → τ) : Prop where
  call_eq : ∀ {s t}, look s = look t → M.call s = M.call t
  resume_eq : ∀ {s t}, look s = look t → ∀ a, look (M.resume s a) = look (M.resume t a)

/-- **Two states that look alike** make the same calls, whatever is answered. -/
theorem Determines.trace_eq (h : M.Determines look) {s t : σ} (hst : look s = look t)
    (as : List ρ) : M.trace s as = M.trace t as := by
  induction as generalizing s t with
  | nil => rfl
  | cons a as ih => rw [trace, trace, h.call_eq hst, ih (h.resume_eq hst a)]

/-- A thread that looks the same whenever it comes home, which is where its loop begins again:
whatever it did before, nothing of it is left in what `look` shows. -/
structure Forgets (M : CallMachine σ κ ρ) (look : σ → τ) (home : σ → Prop) (fresh : τ) : Prop
    extends M.Determines look where
  fresh_of_home : ∀ {s a}, home (M.resume s a) → look (M.resume s a) = fresh

/-- Whatever happened before, the thread is fresh when it is home. -/
theorem Forgets.look_run (h : M.Forgets look home fresh) {s : σ} (hs : look s = fresh)
    {as : List ρ} (hhome : home (M.run s as)) : look (M.run s as) = fresh := by
  have hlater : ∀ (as : List ρ) (s : σ) (a : ρ), home (M.run s (a :: as)) →
      look (M.run s (a :: as)) = fresh := by
    intro as
    induction as with
    | nil => exact fun s a => h.fresh_of_home
    | cons b bs ih => exact fun s a => ih (M.resume s a) b
  cases as with
  | nil => exact hs
  | cons a as => exact hlater as s a hhome

/-- **Independence of history.** After any two histories that brought it home, the thread makes
the same calls against the same answers. -/
theorem Forgets.trace_run_eq (h : M.Forgets look home fresh) {s t : σ} (hs : look s = fresh)
    (ht : look t = fresh) {past past' : List ρ} (hhome : home (M.run s past))
    (hhome' : home (M.run t past')) (as : List ρ) :
    M.trace (M.run s past) as = M.trace (M.run t past') as :=
  h.trace_eq ((h.look_run hs hhome).trans (h.look_run ht hhome').symm) as

end CallMachine
