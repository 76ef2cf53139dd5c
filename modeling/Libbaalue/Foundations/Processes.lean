import Libbaalue.Foundations.CallProgram
import Libbaalue.Foundations.LabelledSystem
import Mathlib.Logic.Function.Basic

/-!
# Processes that share a world

Any number of processes run `CallProgram`s one after the other, call by call, on a world they
share. A label says which process moves, and with which choice of the environment.

* `CallProgram.Runs`: a part of an execution: the calls made so far, and what is left of the
  program. What a program `Makes` is what is in every part of it, and a part that has returned is
  an execution.
* `Processes.Rules`: an invariant of the world together with what each process knows of its
  current program. Two obligations: what a process does keeps the invariant and its own
  knowledge, and what the others do keeps its knowledge. They hold along every interleaving then
  (`Processes.Rules.reachable`).

The knowledge of a process is about the calls it has made and their answers, that is, about what it
could have written down; whether it is still true depends on what the others do, which is the second
obligation. A process may run any number of programs and may be ended between any two calls, so the
rules say nothing about what a process has finished.
-/

universe u v

namespace CallProgram

variable {κ κ' : Type u} {ρ ρ' α : Type v}

/-- A part of an execution of `p`: the calls made, and what is left. A process that is in the middle
of a program is at such a place. -/
inductive Runs (p : CallProgram κ ρ α) : List (κ × ρ) → CallProgram κ ρ α → Prop
  | start : Runs p [] p
  | step {tr : List (κ × ρ)} {c : κ} {next : ρ → CallProgram κ ρ α} (r : ρ) :
    Runs p tr (call c next) → Runs p (tr ++ [(c, r)]) (next r)

variable {p q : CallProgram κ ρ α} {tr : List (κ × ρ)}

/-- A part and the rest make an execution. -/
theorem Runs.append_exec (h : p.Runs tr q) {tr' : List (κ × ρ)} {a : α} (hexec : q.Exec tr' a) :
    p.Exec (tr ++ tr') a := by
  induction h generalizing tr' with
  | start => exact hexec
  | step r _ ih =>
    rw [List.append_assoc]
    exact ih (.call hexec)

/-- A part that has returned. -/
theorem Runs.exec {a : α} (h : p.Runs tr (ret a)) : p.Exec tr a := by
  simpa only [List.append_nil] using h.append_exec .ret

/-- A program that has returned makes no call. -/
theorem Runs.of_ret {a : α} (h : (ret a).Runs tr q) : tr = [] ∧ q = ret a := by
  induction h with
  | start => exact ⟨rfl, rfl⟩
  | step r _ ih => cases ih.2

/-- A program over other calls and answers: each call is renamed, and its answer read as one of the
calls the program knows. -/
def translate (f : κ → κ') (g : ρ' → ρ) : CallProgram κ ρ α → CallProgram κ' ρ' α
  | ret a => ret a
  | call c next => call (f c) fun r => (next (g r)).translate f g

/-- A program that makes calls that meet a condition makes calls that meet a weaker one. -/
theorem Makes.mono {P P' : κ → Prop} (h : p.Makes P)
    (hP : ∀ c, P c → P' c) : p.Makes P' := by
  induction p with
  | ret a => trivial
  | call c next ih => exact ⟨hP c h.1, fun r => ih r (h.2 r)⟩

theorem Makes.translate {f : κ → κ'} {g : ρ' → ρ} {P : κ → Prop} {P' : κ' → Prop}
    (h : p.Makes P) (hP : ∀ c, P c → P' (f c)) :
    (p.translate f g).Makes P' := by
  induction p with
  | ret a => trivial
  | call c next ih => exact ⟨hP c h.1, fun r => ih (g r) (h.2 (g r))⟩

end CallProgram

/-! ### The system -/

/-- One process: the job it runs, what is left of it, and the calls made for it. The trace starts
again with every job, since a program knows nothing of the one before. -/
structure Proc (κ : Type u) (ρ α : Type v) (J : Type*) where
  job : Option J
  rest : CallProgram κ ρ α
  trace : List (κ × ρ)

/-- Programs for jobs, and a world that answers their calls. A choice `χ` is what the world leaves
open of an answer: which of the possible errors, which number, which value. -/
structure ProcessSpec (κ : Type u) (ρ α : Type v) (J W χ : Type*) where
  program : ℕ → J → CallProgram κ ρ α
  /-- What a call of a process, made for a job, does to the world, and what it answers. -/
  syscall : W → ℕ → J → κ → χ → W × ρ
  /-- What the end of a process does to the world. -/
  release : W → ℕ → W
  world : W
  /-- What a process has returned that has not run anything. -/
  idle : α

/-- The processes and the world they share. There are as many as there are numbers; a process that
has done nothing is one that idles. -/
structure Processes (κ : Type u) (ρ α : Type v) (J W : Type*) where
  world : W
  proc : ℕ → Proc κ ρ α J

/-- Which process moves: it starts a job, makes its next call, or exits. A process may exit wherever
it stands. -/
inductive ProcessLabel (J χ : Type*)
  | start (p : ℕ) (job : J)
  | step (p : ℕ) (choice : χ)
  | exit (p : ℕ)

namespace Processes

variable {κ : Type u} {ρ α : Type v} {J W χ : Type*} (S : ProcessSpec κ ρ α J W χ)

/-- A process that has run nothing. -/
def idleProc : Proc κ ρ α J := ⟨none, .ret S.idle, []⟩

/-- One step; `none` when the process is not where the label says. -/
def step (s : Processes κ ρ α J W) : ProcessLabel J χ → Option (Processes κ ρ α J W)
  | .start p job =>
    match (s.proc p).rest with
    | .ret _ =>
      some { s with proc := Function.update s.proc p ⟨some job, S.program p job, []⟩ }
    | .call _ _ => none
  | .step p choice =>
    match (s.proc p).job, (s.proc p).rest with
    | some job, .call c next =>
      let out := S.syscall s.world p job c choice
      some
        { world := out.1
          proc := Function.update s.proc p
            ⟨some job, next out.2, (s.proc p).trace ++ [(c, out.2)]⟩ }
    | _, _ => none
  | .exit p =>
    some { world := S.release s.world p, proc := Function.update s.proc p (idleProc S) }

/-- The processes of a specification. -/
def system : LabelledSystem (Processes κ ρ α J W) (ProcessLabel J χ) where
  init := ⟨S.world, fun _ => idleProc S⟩
  step := step S

/-! ### The rules -/

/-- An invariant `I` of the world, and what a process knows of its current job from the calls it has
made for it. A call has to keep both for the process that makes it, and what the others know; the
end of a process has to keep what the others know. -/
structure Rules (I : W → Prop) (knows : W → ℕ → J → List (κ × ρ) → Prop) : Prop where
  world : I S.world
  start : ∀ w p job, I w → knows w p job []
  own : ∀ w p job tr c next choice, I w → knows w p job tr →
    (S.program p job).Runs tr (.call c next) →
    I (S.syscall w p job c choice).1 ∧
      knows (S.syscall w p job c choice).1 p job
        (tr ++ [(c, (S.syscall w p job c choice).2)])
  others : ∀ w p job tr c next choice q job' tr', I w → knows w p job tr →
    (S.program p job).Runs tr (.call c next) → q ≠ p → knows w q job' tr' →
    knows (S.syscall w p job c choice).1 q job' tr'
  release : ∀ w p, I w → I (S.release w p)
  outlives : ∀ w p q job tr, I w → q ≠ p → knows w q job tr → knows (S.release w p) q job tr

variable {S}

/-- What the rules give: the invariant holds, every process is at a place of its program, and it
knows what its calls have told it. -/
structure Holds (S : ProcessSpec κ ρ α J W χ) (I : W → Prop)
    (knows : W → ℕ → J → List (κ × ρ) → Prop) (s : Processes κ ρ α J W) : Prop where
  world : I s.world
  runs : ∀ p job, (s.proc p).job = some job →
    (S.program p job).Runs (s.proc p).trace (s.proc p).rest
  knows : ∀ p job, (s.proc p).job = some job → knows s.world p job (s.proc p).trace

/-- **One step** keeps what the rules are about: for the process that moves by its own clause, for
the others by theirs. -/
theorem Rules.step {I : W → Prop} {knows : W → ℕ → J → List (κ × ρ) → Prop}
    (R : Rules S I knows) {s t : Processes κ ρ α J W} (h : Holds S I knows s)
    {a : ProcessLabel J χ} (hst : step S s a = some t) : Holds S I knows t := by
  cases a with
  | start p job =>
    simp only [Processes.step] at hst
    split at hst
    · obtain rfl := Option.some.inj hst
      refine ⟨h.world, fun q job' hq => ?_, fun q job' hq => ?_⟩ <;>
        rcases eq_or_ne q p with rfl | hne
      · simp only [Function.update_self] at hq ⊢
        obtain rfl := Option.some.inj hq
        exact .start
      · simp only [Function.update_of_ne hne] at hq ⊢
        exact h.runs q job' hq
      · simp only [Function.update_self] at hq ⊢
        obtain rfl := Option.some.inj hq
        exact R.start _ _ _ h.world
      · simp only [Function.update_of_ne hne] at hq ⊢
        exact h.knows q job' hq
    · cases hst
  | step p choice =>
    simp only [Processes.step] at hst
    split at hst
    · rename_i job c next hjob hrest
      obtain rfl := Option.some.inj hst
      -- the process that moves is at this call of its program
      have hruns := h.runs p job hjob
      rw [hrest] at hruns
      have hknows := h.knows p job hjob
      obtain ⟨hworld, hown⟩ := R.own _ _ _ _ _ _ choice h.world hknows hruns
      refine ⟨hworld, fun q job' hq => ?_, fun q job' hq => ?_⟩ <;>
        rcases eq_or_ne q p with rfl | hne
      · simp only [Function.update_self] at hq ⊢
        obtain rfl := Option.some.inj hq
        exact .step _ hruns
      · simp only [Function.update_of_ne hne] at hq ⊢
        exact h.runs q job' hq
      · simp only [Function.update_self] at hq ⊢
        obtain rfl := Option.some.inj hq
        exact hown
      · simp only [Function.update_of_ne hne] at hq ⊢
        exact R.others _ _ _ _ _ _ choice _ _ _ h.world hknows hruns hne (h.knows q job' hq)
    · cases hst
  | exit p =>
    -- a process that exits leaves nothing to know
    obtain rfl := Option.some.inj hst
    refine ⟨R.release _ _ h.world, fun q job' hq => ?_, fun q job' hq => ?_⟩ <;>
      rcases eq_or_ne q p with rfl | hne
    · simp [idleProc] at hq
    · simp only [Function.update_of_ne hne] at hq ⊢
      exact h.runs q job' hq
    · simp [idleProc] at hq
    · simp only [Function.update_of_ne hne] at hq ⊢
      exact R.outlives _ _ _ _ _ h.world hne (h.knows q job' hq)

/-- **Along every interleaving.** What the rules are about holds in every state that the processes
can come to, in whatever order they make their calls. -/
theorem Rules.reachable {I : W → Prop} {knows : W → ℕ → J → List (κ × ρ) → Prop}
    (R : Rules S I knows) {s : Processes κ ρ α J W} (h : (system S).Reachable s) :
    Holds S I knows s :=
  h.invariant (P := Holds S I knows)
    ⟨R.world, by simp [system, idleProc], by simp [system, idleProc]⟩
    fun _ _ _ _ hs hst => R.step hs hst

end Processes
